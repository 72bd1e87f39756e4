import DrLang.Proofs.Analysis
import DrLang.Proofs.Spelling
import DrLang.Parse.Expression

/-!
# What labels show

Nodes are labelled with the texts of their tokens, and a tree without its types has nothing
else to tell a literal from a name or from a call. That is enough, because the text of a
token shows its class: a scan makes numbers of texts that begin with a digit, names of
words that are not reserved, and so on.

- `Token.Fits`: a token whose text shows its class.
- `fits_of_tokenize`: the tokens of a source are such tokens.
- `literalType?_of_fits`, `literalType?_of_identifier`, `value_of_fits`: what they show.
-/

namespace DrLang

/-- Whether the text of a token is one of its class, as far as trees show the text. -/
def Token.Fits (t : Token) : Prop :=
  match t.kind with
  | .identifier => t.value.toList ∈ Pattern.word.language ∧ ∀ kind, (t.value, kind) ∉ reservedWords
  | .integer => t.value.toList ∈ Pattern.digits.language
  | .double => t.value.toList ∈ Pattern.decimal.language
  | .boolean | .check | .rework | .checklist => (t.value, t.kind) ∈ reservedWords
  | _ => True

/-! ### Tokens of a source -/

/-- A token that is spelled as its class demands shows its class; words are told from reserved
ones by `reservedWords`. -/
theorem Token.Spelled.fits {t : Token} (h : t.Spelled) : t.Fits := by
  obtain ⟨kind, value, line⟩ := t
  cases kind with
  | boolean =>
    -- Two words have this kind; every other word is told by its kind alone.
    have hwords : ("true", .boolean) ∈ reservedWords ∧ ("false", .boolean) ∈ reservedWords := by
      decide
    rcases h with rfl | rfl
    · exact hwords.1
    · exact hwords.2
  | check =>
    obtain rfl : "CHECK" = value := Option.some.inj h
    exact List.mem_of_elem_eq_true rfl
  | rework =>
    obtain rfl : "REWORK" = value := Option.some.inj h
    exact List.mem_of_elem_eq_true rfl
  | checklist =>
    obtain rfl : "CHECKLIST" = value := Option.some.inj h
    exact List.mem_of_elem_eq_true rfl
  | _ => first | exact h | trivial

/-- All tokens of a source show their classes, since a scan makes spelled ones. -/
theorem fits_of_tokenize {source : String} {tokens : List Token}
    (h : tokenize source = .ok tokens) : ∀ t ∈ tokens, t.Fits :=
  fun t ht => ((wellFormed_of_tokenize h).spelled t ht).fits

/-! ### Labels of tokens -/

variable {label : String} {t : Token}

@[simp] theorem calleeOf?_call (name : String) : calleeOf? ("Call " ++ name) = some name := by
  have hlabel : ("Call " ++ name).toList = 'C' :: 'a' :: 'l' :: 'l' :: ' ' :: name.toList := by
    rw [String.toList_append]
    rfl
  simp [calleeOf?, hlabel]

/-- Only a label that begins as calls do shows a call. -/
theorem calleeOf?_eq_none (h : ∀ name, label.toList ≠ 'C' :: 'a' :: 'l' :: 'l' :: ' ' :: name) :
    calleeOf? label = none := by
  unfold calleeOf?
  split
  case h_1 name heq => exact absurd heq (h name)
  case h_2 => rfl

/-- No call is labelled with a text that begins otherwise. -/
theorem calleeOf?_of_head {c : Char} {v : List Char} (h : label.toList = c :: v) (hc : c ≠ 'C') :
    calleeOf? label = none := by
  refine calleeOf?_eq_none fun name heq => hc ?_
  rw [h] at heq
  exact (List.cons.inj heq).1

/-- A label that begins with a digit is that of a number and of no call. -/
theorem literalType?_of_digit {c : Char} {v : List Char} (h : label.toList = c :: v)
    (hc : c.isDigit = true) :
    literalType? label = some (if '.' ∈ label.toList then .double else .int) ∧
      calleeOf? label = none := by
  have hquote : c ≠ '"' := by
    rintro rfl
    simp at hc
  have hcall : c ≠ 'C' := by
    rintro rfl
    simp at hc
  exact ⟨by simp [literalType?, h, hquote, hc], calleeOf?_of_head h hcall⟩

/-- Digits show an integer: the first character is a digit and no character is a point. -/
theorem literalType?_of_digits (h : label.toList ∈ Pattern.digits.language) :
    literalType? label = some .int ∧ calleeOf? label = none := by
  obtain ⟨hne, hdigits⟩ := mem_runOf.1 h
  obtain ⟨c, v, hlabel⟩ := List.exists_cons_of_ne_nil hne
  have hc : c.isDigit = true := hdigits c (hlabel ▸ List.mem_cons_self)
  have hpoint : '.' ∉ label.toList := fun hmem => absurd (hdigits '.' hmem) (by decide)
  have hnumber := literalType?_of_digit hlabel hc
  rwa [if_neg hpoint] at hnumber

theorem literalType?_of_decimal (h : label.toList ∈ Pattern.decimal.language) :
    literalType? label = some .double ∧ calleeOf? label = none := by
  obtain ⟨u, v, hlabel, ⟨hne, hdigits⟩, -⟩ := Pattern.mem_decimal.1 h
  obtain ⟨c, u, rfl⟩ := List.exists_cons_of_ne_nil hne
  have hc : c.isDigit = true := hdigits c List.mem_cons_self
  have hpoint : '.' ∈ label.toList := by
    rw [hlabel]
    simp
  have hnumber := literalType?_of_digit hlabel hc
  rwa [if_pos hpoint] at hnumber

theorem literalType?_of_quoted {value : String} (h : label = "\"" ++ value ++ "\"") :
    literalType? label = some .string ∧ calleeOf? label = none := by
  have hlabel : label.toList = '"' :: (value.toList ++ ['"']) := by
    rw [h, String.toList_append, String.toList_append]
    rfl
  exact ⟨by simp [literalType?, hlabel], calleeOf?_of_head hlabel (by decide)⟩

/-- Only strings are put in quotes. -/
theorem literalLabel_of_ne {kind : TokenKind} (hkind : kind ≠ .string) (value : String)
    (line : Nat) : literalLabel ⟨kind, value, line⟩ = value :=
  if_neg hkind

/-- The label of a literal shows its type, and is that of no call. -/
theorem literalType?_of_fits (ht : t.Fits) {type : DataType}
    (htype : DataType.ofLiteral? t.kind = some type) :
    literalType? (literalLabel t) = some type ∧ calleeOf? (literalLabel t) = none := by
  obtain ⟨kind, value, line⟩ := t
  cases kind with
  | integer =>
    obtain rfl := Option.some.inj htype
    rw [literalLabel_of_ne (by decide)]
    exact literalType?_of_digits ht
  | double =>
    obtain rfl := Option.some.inj htype
    rw [literalLabel_of_ne (by decide)]
    exact literalType?_of_decimal ht
  | string =>
    obtain rfl := Option.some.inj htype
    exact literalType?_of_quoted (if_pos rfl)
  | boolean =>
    obtain rfl := Option.some.inj htype
    rw [literalLabel_of_ne (by decide)]
    -- A truth value is told by its word, as names are.
    have hvalue : value = "true" ∨ value = "false" := by
      simpa [Token.Fits, reservedWords] using ht
    rcases hvalue with rfl | rfl <;> exact ⟨rfl, rfl⟩
  | _ => simp [DataType.ofLiteral?] at htype

/-- A literal has one of four types. -/
theorem mem_of_ofLiteral? {kind : TokenKind} {type : DataType}
    (h : DataType.ofLiteral? kind = some type) : type ∈ [.int, .double, .string, .bool] := by
  cases kind <;> simp_all [DataType.ofLiteral?, eq_comm]

/-- A name is declared with one of four types. -/
theorem mem_of_ofKeyword? {kind : TokenKind} {type : DataType}
    (h : DataType.ofKeyword? kind = some type) : type ∈ [.file, .duration, .note, .status] := by
  cases kind <;> simp_all [DataType.ofKeyword?, eq_comm]

/-- The words of the constructs that have a condition. -/
def conditionWords : List (String × TokenKind) :=
  [("CHECK", .check), ("REWORK", .rework), ("CHECKLIST", .checklist)]

/-- The word of a construct is spelled in one way, so its text is known from its class: the table
`conditionWords` is part of `reservedWords`. -/
theorem value_of_fits (ht : t.Fits) {word : String} (h : (word, t.kind) ∈ conditionWords) :
    t.value = word := by
  obtain ⟨kind, value, line⟩ := t
  have hcases : (word = "CHECK" ∧ kind = .check) ∨ (word = "REWORK" ∧ kind = .rework) ∨
      (word = "CHECKLIST" ∧ kind = .checklist) := by
    simpa [conditionWords] using h
  rcases hcases with ⟨rfl, rfl⟩ | ⟨rfl, rfl⟩ | ⟨rfl, rfl⟩ <;>
    simpa [Token.Fits, reservedWords] using ht

/-- The label of a name is that of no literal and of no call. -/
theorem literalType?_of_identifier (ht : t.Fits) (hkind : t.kind = .identifier) :
    literalType? t.value = none ∧ calleeOf? t.value = none := by
  obtain ⟨kind, value, line⟩ := t
  obtain rfl : kind = .identifier := hkind
  obtain ⟨hword, hnot⟩ := ht
  obtain ⟨c, v, hvalue, hc, hv⟩ := Pattern.mem_word.1 hword
  constructor
  · have hquote : c ≠ '"' := by
      rintro rfl
      exact absurd hc (by decide)
    have hdigit : ¬ c.isDigit = true := fun h => by simp [isWordStart_of_isDigit h] at hc
    have htrue : value ≠ "true" := by
      rintro rfl
      exact hnot .boolean (show ("true", .boolean) ∈ reservedWords by decide)
    have hfalse : value ≠ "false" := by
      rintro rfl
      exact hnot .boolean (show ("false", .boolean) ∈ reservedWords by decide)
    simp only at hvalue
    simp [literalType?, hvalue, hquote, hdigit, htrue, hfalse]
  · -- A word has no blank in it.
    refine calleeOf?_eq_none fun name heq => ?_
    rw [hvalue] at heq
    obtain ⟨rfl, rfl⟩ := List.cons.inj heq
    exact absurd (hv ' ' (by simp)) (by decide)

end DrLang
