import DrLang.Text.Unprintable

/-!
# Quoted text

The one-line form in which messages show a piece of source text: in double quotes,
with everything that would break the line, end the quote or not be seen spelled out.
-/

namespace DrLang.Text

/-- The hexadecimal spelling of a character by its number. -/
def byNumber (c : Char) : List Char :=
  ['\\', 'u', '\x7b'] ++ Nat.toDigits 16 c.toNat ++ ['\x7d']

/-- How a single character is written between quotes. -/
def escaped (c : Char) : List Char :=
  if c = '\x00' then ['\\', '0']
  else if c = '\t' then ['\\', 't']
  else if c = '\n' then ['\\', 'n']
  else if c = '\r' then ['\\', 'r']
  else if c = '\\' then ['\\', '\\']
  else if c = '"' then ['\\', '"']
  else if isUnprintable c then byNumber c
  else [c]

/-- A text in double quotes, on one line and with nothing invisible in it. -/
def quoted (text : String) : String :=
  String.ofList ('"' :: (text.toList.flatMap escaped ++ ['"']))

@[simp] theorem toList_quoted (text : String) :
    (quoted text).toList = '"' :: (text.toList.flatMap escaped ++ ['"']) := by
  simp [quoted]

/-! ### Quoted texts keep to one line -/

private theorem digitChar_ne_newline (n : Nat) : Nat.digitChar n ≠ '\n' := by
  by_cases h : n < 16
  · exact (by decide : ∀ m, m < 16 → Nat.digitChar m ≠ '\n') n h
  · -- from 16 on, there is one character for all
    have hne : ∀ m, m < 16 → n ≠ m := fun m hm heq => h (heq ▸ hm)
    simp [Nat.digitChar, hne]

private theorem newline_notMem_toDigitsCore (b fuel n : Nat) (acc : List Char)
    (h : '\n' ∉ acc) : '\n' ∉ Nat.toDigitsCore b fuel n acc := by
  induction fuel generalizing n acc with
  | zero => exact h
  | succ fuel ih =>
    have hcons : '\n' ∉ Nat.digitChar (n % b) :: acc := by
      simp [h, (digitChar_ne_newline (n % b)).symm]
    simp only [Nat.toDigitsCore]
    split
    · exact hcons
    · exact ih _ _ hcons

/-- However a character is written, no line feed is in it. -/
theorem newline_notMem_escaped (c : Char) : '\n' ∉ escaped c := by
  have hdigits : '\n' ∉ Nat.toDigits 16 c.toNat :=
    newline_notMem_toDigitsCore _ _ _ _ List.not_mem_nil
  unfold escaped byNumber
  grind

/-- A quoted text has no line feed. -/
theorem newline_notMem_quoted (text : String) : '\n' ∉ (quoted text).toList := by
  simp [newline_notMem_escaped]

example : quoted "a\n\"é\"" = "\"a\\n\\\"é\\\"\"" := by decide +kernel

example : quoted "\u200b" = "\"\\u\x7b200b\x7d\"" := by decide +kernel

end DrLang.Text
