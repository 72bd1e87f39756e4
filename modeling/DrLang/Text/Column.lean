/-!
# Columns

Texts padded with spaces to a least width, counted in characters. A text that is
already wide enough is left as it is. Beside them the numbers that stand in such columns, in
decimal digits.
-/

namespace DrLang.Text

/-- `n` spaces. -/
def spaces (n : Nat) : String :=
  String.ofList (List.replicate n ' ')

@[simp] theorem toList_spaces (n : Nat) : (spaces n).toList = List.replicate n ' ' := by
  simp [spaces]

/-- A text moved to the right edge of a column. -/
def alignedRight (width : Nat) (text : String) : String :=
  spaces (width - text.length) ++ text

/-- A text at the left edge of a column. -/
def alignedLeft (width : Nat) (text : String) : String :=
  text ++ spaces (width - text.length)

/-! ### Numbers -/

/-- The digits of a number, for proofs about what stands among them. -/
theorem toList_toString (n : Nat) : (toString n).toList = Nat.toDigits 10 n := by
  rw [Nat.toString_eq_repr, Nat.toList_repr]

/-- A number is written in digits alone. -/
theorem notMem_toString {c : Char} (h : c.isDigit = false) (n : Nat) :
    c ∉ (toString n).toList := by
  rw [toList_toString]
  intro hmem
  have hdigit := Nat.isDigit_of_mem_toDigits (by decide) (by decide) hmem
  exact absurd (hdigit.symm.trans h) (by decide)

end DrLang.Text
