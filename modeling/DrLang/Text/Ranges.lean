/-!
# Ascending ranges

Classes of characters are kept as lists of ranges of code points, in ascending
order, so that a search can stop early.
-/

namespace DrLang.Text

/-- Whether `n` lies in one of the ranges of an ascending list; each range is given
by its first and last member. -/
def inRanges : List (Nat × Nat) → Nat → Bool
  | [], _ => false
  | (first, last) :: rest, n =>
    if n < first then false else decide (n ≤ last) || inRanges rest n

end DrLang.Text
