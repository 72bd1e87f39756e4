import DrLang.Text.Ranges

/-!
# Blank characters

The characters of the Unicode property `White_Space`, and texts without the blanks
at their ends.
-/

namespace DrLang.Text

/-- The ranges of blank code points, in ascending order. -/
def blankRanges : List (Nat × Nat) :=
  [(0x9, 0xD), (0x20, 0x20), (0x85, 0x85), (0xA0, 0xA0), (0x1680, 0x1680), (0x2000, 0x200A),
    (0x2028, 0x2029), (0x202F, 0x202F), (0x205F, 0x205F), (0x3000, 0x3000)]

/-- Whether a character is blank. -/
def isBlank (c : Char) : Bool :=
  inRanges blankRanges c.toNat

/-- What is left of `cs` when the blanks at its start are dropped. -/
def dropBlanks (cs : List Char) : List Char :=
  cs.dropWhile isBlank

/-- A text without the blanks at its two ends. -/
def trimmed (text : String) : String :=
  String.ofList (dropBlanks (dropBlanks text.toList).reverse).reverse

/-- Trimming adds nothing to a text. -/
theorem mem_of_mem_trimmed {c : Char} {text : String} (h : c ∈ (trimmed text).toList) :
    c ∈ text.toList := by
  rw [trimmed, String.toList_ofList, List.mem_reverse] at h
  have hbehind := (List.dropWhile_sublist _).subset h
  rw [List.mem_reverse] at hbehind
  exact (List.dropWhile_sublist _).subset hbehind

example : trimmed "\t a b\u3000\r" = "a b" := by decide

end DrLang.Text
