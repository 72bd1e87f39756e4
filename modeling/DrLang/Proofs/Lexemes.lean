import DrLang.Token.Pattern
import Mathlib.Computability.Language
import Mathlib.Data.List.TakeWhile

/-!
# The longest lexeme

The patterns as regular languages, and what the first pattern of the table that matches
has to do with the others. Each pattern takes as much of a text as its language allows.
That the first pattern takes as much as any pattern could is a property of the table: two
patterns can match the same text only if their words begin alike, and then the one that
stands first in the table is never the shorter one.

- `Pattern.language`: the texts that a pattern matches.
- `Pattern.finds_lexeme?`: the lexeme of a pattern is its longest one.
- `Pattern.Precedes`: what the order of the table is for.
- `isLongest_of_firstLexeme?`: the lexeme found is the longest of all patterns.
- `Denotes`: the token that a lexeme stands for, with no scanner in sight.
- `Denotes.unique`: that there is one only, since no text is a word of two patterns.
-/

namespace DrLang

open scoped Computability

/-! ### Patterns as languages -/

/-- The texts of one character of a class. -/
def oneChar (p : Char → Bool) : Language Char :=
  {w | ∃ c, p c = true ∧ w = [c]}

/-- The texts of one character of a class or more. -/
def runOf (p : Char → Bool) : Language Char :=
  oneChar p * (oneChar p)∗

/-- The texts that a pattern matches, from their first character to their last. -/
def Pattern.language : Pattern → Language Char
  | word => oneChar isWordStart * (oneChar isWordPart)∗
  | decimal => runOf Char.isDigit * ({['.']} * runOf Char.isDigit)
  | digits => runOf Char.isDigit
  | gap => runOf isGap
  | lineBreak => {['\n']}
  | quote => {['"']} * ((oneChar (· != '"'))∗ * {['"']})
  | comment => {['/', '/']} * (oneChar (· != '\n'))∗
  | fixed text _ => {text.toList}

/-- The texts that some pattern of the table matches. -/
def lexemeWords : Language Char :=
  {w | ∃ p ∈ patterns, w ∈ p.language}

variable {p : Char → Bool} {text lexeme u v w : List Char} {c d : Char}

/-- The star of `oneChar p` has the texts whose characters all satisfy `p`. This and the next
lemmas turn each language into a condition on characters. -/
theorem mem_star_oneChar : w ∈ (oneChar p)∗ ↔ ∀ c ∈ w, p c = true := by
  constructor
  · rintro ⟨parts, rfl, hparts⟩ c hc
    obtain ⟨part, hpart, hmem⟩ := List.mem_flatten.1 hc
    obtain ⟨d, hd, rfl⟩ := hparts part hpart
    rwa [List.mem_singleton.1 hmem]
  · intro h
    refine ⟨w.map ([·]), ?_, fun part hpart => ?_⟩
    · rw [← List.flatMap_def, List.flatMap_singleton']
    · obtain ⟨c, hc, rfl⟩ := List.mem_map.1 hpart
      exact ⟨c, h c hc, rfl⟩

theorem mem_oneChar_mul {L : Language Char} :
    w ∈ oneChar p * L ↔ ∃ c v, w = c :: v ∧ p c = true ∧ v ∈ L := by
  constructor
  · intro h
    obtain ⟨_, ⟨c, hc, rfl⟩, v, hv, rfl⟩ := Language.mem_mul.1 h
    exact ⟨c, v, rfl, hc, hv⟩
  · rintro ⟨c, v, rfl, hc, hv⟩
    exact Language.mem_mul.2 ⟨[c], ⟨c, hc, rfl⟩, v, hv, rfl⟩

theorem mem_singleton_mul {L : Language Char} : w ∈ {u} * L ↔ ∃ v ∈ L, w = u ++ v := by
  constructor
  · intro h
    obtain ⟨_, rfl, v, hv, rfl⟩ := Language.mem_mul.1 h
    exact ⟨v, hv, rfl⟩
  · rintro ⟨v, hv, rfl⟩
    exact Language.mem_mul.2 ⟨u, rfl, v, hv, rfl⟩

/-- A run is a text of its class with at least one character: `oneChar p` in front of its star. -/
theorem mem_runOf : w ∈ runOf p ↔ w ≠ [] ∧ ∀ c ∈ w, p c = true := by
  rw [runOf, mem_oneChar_mul]
  constructor
  · rintro ⟨c, v, rfl, hc, hv⟩
    exact ⟨List.cons_ne_nil c v, List.forall_mem_cons.2 ⟨hc, mem_star_oneChar.1 hv⟩⟩
  · rintro ⟨hne, h⟩
    obtain ⟨c, v, rfl⟩ := List.exists_cons_of_ne_nil hne
    obtain ⟨hc, hv⟩ := List.forall_mem_cons.1 h
    exact ⟨c, v, rfl, hc, mem_star_oneChar.2 hv⟩

namespace Pattern

/-- A word begins with `isWordStart`, a letter or an underscore, and goes on with these and
digits. -/
theorem mem_word : w ∈ word.language ↔
    ∃ c v, w = c :: v ∧ isWordStart c = true ∧ ∀ d ∈ v, isWordPart d = true := by
  simp only [language, mem_oneChar_mul, mem_star_oneChar]

theorem mem_decimal : w ∈ decimal.language ↔
    ∃ u v, w = u ++ '.' :: v ∧ (u ≠ [] ∧ ∀ c ∈ u, c.isDigit = true) ∧
      v ≠ [] ∧ ∀ c ∈ v, c.isDigit = true := by
  rw [language, Language.mem_mul]
  constructor
  · rintro ⟨u, hu, x, hx, rfl⟩
    obtain ⟨v, hv, rfl⟩ := mem_singleton_mul.1 hx
    exact ⟨u, v, rfl, mem_runOf.1 hu, mem_runOf.1 hv⟩
  · rintro ⟨u, v, rfl, hu, hv⟩
    exact ⟨u, mem_runOf.2 hu, '.' :: v, mem_singleton_mul.2 ⟨v, mem_runOf.2 hv, rfl⟩, rfl⟩

theorem mem_quote : w ∈ quote.language ↔
    ∃ u, w = '"' :: (u ++ ['"']) ∧ ∀ c ∈ u, c ≠ '"' := by
  rw [language, mem_singleton_mul]
  constructor
  · rintro ⟨x, hx, rfl⟩
    obtain ⟨u, hu, _, rfl, rfl⟩ := Language.mem_mul.1 hx
    exact ⟨u, rfl, by simpa using mem_star_oneChar.1 hu⟩
  · rintro ⟨u, rfl, hu⟩
    refine ⟨u ++ ['"'], Language.mem_mul.2 ⟨u, mem_star_oneChar.2 ?_, ['"'], rfl, rfl⟩, rfl⟩
    simpa using hu

theorem mem_comment : w ∈ comment.language ↔
    ∃ u, w = '/' :: '/' :: u ∧ ∀ c ∈ u, c ≠ '\n' := by
  rw [language, mem_singleton_mul]
  simp only [mem_star_oneChar, bne_iff_ne, and_comm]
  rfl

end Pattern

/-! ### Runs of characters -/

/-- Of all texts of a class that `text` begins with, `takeWhile` finds the longest. -/
theorem prefix_takeWhile (hu : ∀ c ∈ u, p c = true) (h : u <+: text) :
    u <+: text.takeWhile p := by
  obtain ⟨rest, rfl⟩ := h
  rw [List.takeWhile_append_of_pos hu]
  exact List.prefix_append u _

/-- What stands before the first character outside a class is the whole run. -/
theorem takeWhile_eq_of_prefix (hu : ∀ c ∈ u, p c = true) (hd : p d = false)
    (h : u ++ d :: v <+: text) :
    text.takeWhile p = u ∧ ∃ rest, text.dropWhile p = d :: rest ∧ v <+: rest := by
  obtain ⟨rest, rfl⟩ := h
  rw [List.append_assoc, List.cons_append, List.takeWhile_append_of_pos hu,
    List.dropWhile_append_of_pos hu, List.takeWhile_cons_of_neg (by simp [hd]),
    List.dropWhile_cons_of_neg (by simp [hd])]
  exact ⟨List.append_nil u, v ++ rest, rfl, List.prefix_append v rest⟩

/-! ### Each pattern takes all that it can -/

/-- A text begins with a word of a language, and with no longer one. -/
structure IsLongest (L : Language Char) (text lexeme : List Char) : Prop where
  mem : lexeme ∈ L
  begins : lexeme <+: text
  length_le {w : List Char} (hw : w ∈ L) (h : w <+: text) : w.length ≤ lexeme.length

/-- Of two words that a text begins with, both of them longest, one begins with the other, so they
are equal. -/
theorem IsLongest.unique {L : Language Char} (hu : IsLongest L text u) (hv : IsLongest L text v) :
    u = v := by
  have hle := hv.length_le hu.mem hu.begins
  have hle' := hu.length_le hv.mem hv.begins
  have hprefix := List.prefix_of_prefix_length_le hu.begins hv.begins hle
  exact hprefix.eq_of_length (Nat.le_antisymm hle hle')

/-- What a pattern finds at the start of a text: the longest of its words, or nothing if
the text begins with none of them. -/
def Finds (L : Language Char) (text : List Char) : Option (List Char) → Prop
  | some lexeme => IsLongest L text lexeme
  | none => ∀ w ∈ L, ¬ w <+: text

theorem finds_run? (p : Char → Bool) (text : List Char) : Finds (runOf p) text (run? p text) := by
  cases h : run? p text with
  | some lexeme =>
    obtain ⟨rfl, hne⟩ := run?_eq_some_iff.1 h
    refine ⟨mem_runOf.2 ⟨hne, fun c hc => List.mem_takeWhile_imp hc⟩, List.takeWhile_prefix p, ?_⟩
    intro w hw hpre
    exact (prefix_takeWhile (mem_runOf.1 hw).2 hpre).length_le
  | none =>
    intro w hw hpre
    obtain ⟨hne, hall⟩ := mem_runOf.1 hw
    -- The longest run is empty here, so no other one can begin the text.
    have hrun : text.takeWhile p = [] := by
      by_contra hne
      rw [run?_eq_some_iff.2 ⟨rfl, hne⟩] at h
      simp at h
    have hprefix := prefix_takeWhile hall hpre
    rw [hrun] at hprefix
    exact hne (List.prefix_nil.1 hprefix)

namespace Pattern

/-- `word?` takes all characters that may go on with a word, if the first one may begin it. -/
theorem finds_word (text : List Char) : Finds word.language text (word? text) := by
  cases text with
  | nil =>
    intro w hw hpre
    obtain ⟨c, v, rfl, -⟩ := mem_word.1 hw
    simp at hpre
  | cons c cs =>
    rw [word?]
    -- The first character decides whether there is a word, the rest is the longest run.
    by_cases hc : isWordStart c = true
    · rw [if_pos hc]
      refine ⟨mem_word.2 ⟨c, _, rfl, hc, fun d hd => List.mem_takeWhile_imp hd⟩,
        List.cons_prefix_cons.2 ⟨rfl, List.takeWhile_prefix _⟩, fun {w} hw hpre => ?_⟩
      obtain ⟨d, v, rfl, -, hv⟩ := mem_word.1 hw
      have hprefix := prefix_takeWhile hv (List.cons_prefix_cons.1 hpre).2
      exact Nat.succ_le_succ hprefix.length_le
    · rw [if_neg hc]
      intro w hw hpre
      obtain ⟨d, v, rfl, hd, -⟩ := mem_word.1 hw
      obtain ⟨rfl, -⟩ := List.cons_prefix_cons.1 hpre
      exact hc hd

/-- The number before the point is the whole run of digits, so the point is found behind it, by
`takeWhile_eq_of_prefix`. -/
theorem finds_decimal (text : List Char) : Finds decimal.language text (decimal? text) := by
  cases h : decimal? text with
  | some lexeme =>
    have hbegins := (decimal?_begins h).1
    unfold decimal? at h
    split at h
    case h_1 whole rest hwhole hdrop =>
      split at h
      case h_1 fraction hfraction =>
        obtain rfl := Option.some.inj h
        obtain ⟨hwhole, hne⟩ := run?_eq_some_iff.1 hwhole
        obtain ⟨hfraction, hne'⟩ := run?_eq_some_iff.1 hfraction
        have hdigits : ∀ c ∈ whole, c.isDigit = true := fun c hc =>
          List.mem_takeWhile_imp (hwhole ▸ hc)
        have hdigits' : ∀ c ∈ fraction, c.isDigit = true := fun c hc =>
          List.mem_takeWhile_imp (hfraction ▸ hc)
        refine ⟨mem_decimal.2 ⟨whole, fraction, rfl, ⟨hne, hdigits⟩, hne', hdigits'⟩, hbegins, ?_⟩
        intro w hw hpre
        -- Another such number has the same digits before its point.
        obtain ⟨u, v, rfl, ⟨-, hu⟩, -, hv⟩ := mem_decimal.1 hw
        obtain ⟨htake, rest', hdrop', hrest⟩ := takeWhile_eq_of_prefix hu (by decide) hpre
        obtain ⟨-, rfl⟩ := List.cons.inj (hdrop.symm.trans hdrop')
        have hlength := (prefix_takeWhile hv hrest).length_le
        rw [← hfraction] at hlength
        rw [hwhole, htake]
        simp only [List.length_append, List.length_cons]
        omega
      case h_2 => simp at h
    case h_2 => simp at h
  | none =>
    intro w hw hpre
    -- A number at the start of the text would have been found part by part.
    obtain ⟨u, v, rfl, ⟨hu, hudigits⟩, hv, hvdigits⟩ := mem_decimal.1 hw
    obtain ⟨htake, rest, hdrop, hrest⟩ := takeWhile_eq_of_prefix hudigits (by decide) hpre
    have hwhole : run? Char.isDigit text = some u := run?_eq_some_iff.2 ⟨htake.symm, hu⟩
    have hfraction : run? Char.isDigit rest = some (rest.takeWhile Char.isDigit) := by
      refine run?_eq_some_iff.2 ⟨rfl, fun hnil => hv ?_⟩
      have hprefix := prefix_takeWhile hvdigits hrest
      rw [hnil] at hprefix
      exact List.prefix_nil.1 hprefix
    simp [decimal?, hwhole, hdrop, hfraction] at h

/-- A string ends at the second quote; without one, `quote?` finds none, and no word of the
language fits. -/
theorem finds_quote (text : List Char) : Finds quote.language text (quote? text) := by
  have hstop : ∀ u : List Char, (∀ c ∈ u, c ≠ '"') → ∀ c ∈ u, (c != '"') = true := by
    intro u hu c hc
    simpa using hu c hc
  cases h : quote? text with
  | some lexeme =>
    have hbegins := (quote?_begins h).1
    unfold quote? at h
    split at h
    case h_1 rest =>
      split at h
      case h_1 tail hdrop =>
        obtain rfl := Option.some.inj h
        refine ⟨mem_quote.2 ⟨_, rfl, fun c hc => ?_⟩, hbegins, fun {w} hw hpre => ?_⟩
        · simpa using List.mem_takeWhile_imp hc
        · obtain ⟨u, rfl, hu⟩ := mem_quote.1 hw
          -- A quote ends at the first quotation mark, so there is no other that begins the text.
          obtain ⟨htake, -⟩ := takeWhile_eq_of_prefix (hstop u hu) (by decide)
            (List.cons_prefix_cons.1 hpre).2
          rw [htake]
      case h_2 => simp at h
    case h_2 => simp at h
  -- Were there a quote in front, its closing mark would have been found.
  | none =>
    intro w hw hpre
    obtain ⟨u, rfl, hu⟩ := mem_quote.1 hw
    cases text with
    | nil => simp at hpre
    | cons c rest =>
      obtain ⟨rfl, hpre'⟩ := List.cons_prefix_cons.1 hpre
      obtain ⟨-, tail, hdrop, -⟩ := takeWhile_eq_of_prefix (hstop u hu) (by decide) hpre'
      simp [quote?, hdrop] at h

/-- `comment?` takes the rest of the line behind two slashes. -/
theorem finds_comment (text : List Char) : Finds comment.language text (comment? text) := by
  unfold comment?
  split
  case h_1 rest =>
    refine ⟨mem_comment.2 ⟨_, rfl, fun c hc => ?_⟩, ?_, fun {w} hw hpre => ?_⟩
    · simpa using List.mem_takeWhile_imp hc
    · exact List.cons_prefix_cons.2 ⟨rfl, List.cons_prefix_cons.2 ⟨rfl, List.takeWhile_prefix _⟩⟩
    · obtain ⟨u, rfl, hu⟩ := mem_comment.1 hw
      have hprefix := (List.cons_prefix_cons.1 (List.cons_prefix_cons.1 hpre).2).2
      have hlength := (prefix_takeWhile (p := (· != '\n')) (by simpa using hu) hprefix).length_le
      simpa using hlength
  case h_2 h =>
    intro w hw hpre
    obtain ⟨u, rfl, -⟩ := mem_comment.1 hw
    obtain ⟨rest, rfl⟩ := hpre
    exact h (u ++ rest) rfl

/-- What a fixed text finds. -/
theorem finds_singleton (text w : List Char) [Decidable (w <+: text)] :
    Finds {w} text (if w <+: text then some w else none) := by
  split
  case isTrue h =>
    refine ⟨rfl, h, fun {v} hv _ => ?_⟩
    obtain rfl : v = w := hv
    exact Nat.le_refl _
  case isFalse h =>
    intro v hv
    obtain rfl : v = w := hv
    exact h

/-- Each pattern finds the longest of its words. -/
theorem finds_lexeme? (p : Pattern) (text : List Char) :
    Finds p.language text (p.lexeme? text) := by
  cases p with
  | word => exact finds_word text
  | decimal => exact finds_decimal text
  | digits => exact finds_run? Char.isDigit text
  | gap => exact finds_run? isGap text
  | lineBreak =>
    -- A language of one word is read by looking whether that word stands in front.
    have hiff : text.head? = some '\n' ↔ ['\n'] <+: text := by
      cases text <;> simp [eq_comm]
    simp only [lexeme?, hiff]
    exact finds_singleton text ['\n']
  | quote => exact finds_quote text
  | comment => exact finds_comment text
  | fixed literal kind =>
    simp only [lexeme?, List.isPrefixOf_iff_prefix]
    exact finds_singleton text literal.toList

end Pattern

/-! ### The order of the table -/

/-- What the first character of a text tells about its lexeme. -/
inductive Head where
  | word
  | digit
  | gap
  | other (c : Char)
deriving DecidableEq, Repr

/-- What a character tells about the lexeme that it begins. -/
def headOf (c : Char) : Head :=
  if isWordStart c then .word
  else if c.isDigit then .digit
  else if isGap c then .gap
  else .other c

/-- The first of the tests in `headOf`. -/
theorem headOf_of_isWordStart (h : isWordStart c = true) : headOf c = .word :=
  if_pos h

/-- No word begins with a digit. -/
theorem isWordStart_of_isDigit (h : c.isDigit = true) : isWordStart c = false := by
  have hdigit : 48 ≤ c.toNat ∧ c.toNat ≤ 57 := by
    simpa [Char.isDigit, UInt32.le_iff_toNat_le] using h
  have hunderscore : c ≠ '_' := by
    rintro rfl
    simp at hdigit
  have halpha : ¬ c.isAlpha = true := by
    show ¬ (decide ('A'.val ≤ c.val ∧ c.val ≤ 'Z'.val) ||
      (decide ('a'.val ≤ c.val) && decide (c.val ≤ 'z'.val))) = true
    simp only [UInt32.le_iff_toNat_le, Bool.or_eq_true, Bool.and_eq_true, decide_eq_true_eq,
      Char.reduceVal, UInt32.reduceToNat, Char.toNat] at hdigit ⊢
    omega
  simp [isWordStart, halpha, hunderscore]

theorem headOf_of_isDigit (h : c.isDigit = true) : headOf c = .digit := by
  rw [headOf, isWordStart_of_isDigit h, if_neg Bool.false_ne_true, if_pos h]

/-- Blanks begin gaps only; they are neither letters nor digits, which `headOf` tests first. -/
theorem headOf_of_isGap (h : isGap c = true) : headOf c = .gap := by
  simp only [isGap, Bool.or_eq_true, beq_iff_eq] at h
  obtain (rfl | rfl) | rfl := h <;> rfl

namespace Pattern

/-- What the words of a pattern begin with. -/
def head : Pattern → Head
  | word => .word
  | decimal | digits => .digit
  | gap => .gap
  | lineBreak => headOf '\n'
  | quote => headOf '"'
  | comment => headOf '/'
  | fixed text _ => headOf (text.toList.headD ' ')

/-- The first character of a word tells what its pattern begins with, by cases on the pattern `q`.
-/
theorem headOf_eq_head {q : Pattern} (h : c :: v ∈ q.language) : headOf c = q.head := by
  cases q with
  | word =>
    obtain ⟨d, u, heq, hd, -⟩ := mem_word.1 h
    obtain ⟨rfl, rfl⟩ := List.cons.inj heq
    exact headOf_of_isWordStart hd
  | decimal =>
    obtain ⟨u, w, heq, ⟨hne, hu⟩, -⟩ := mem_decimal.1 h
    obtain ⟨d, u, rfl⟩ := List.exists_cons_of_ne_nil hne
    obtain ⟨rfl, rfl⟩ := List.cons.inj heq
    exact headOf_of_isDigit (hu c List.mem_cons_self)
  | digits => exact headOf_of_isDigit ((mem_runOf.1 h).2 c List.mem_cons_self)
  | gap => exact headOf_of_isGap ((mem_runOf.1 h).2 c List.mem_cons_self)
  | lineBreak =>
    obtain ⟨rfl, -⟩ := List.cons.inj (show c :: v = ['\n'] from h)
    rfl
  | quote =>
    obtain ⟨u, heq, -⟩ := mem_quote.1 h
    obtain ⟨rfl, -⟩ := List.cons.inj heq
    rfl
  | comment =>
    obtain ⟨u, heq, -⟩ := mem_comment.1 h
    obtain ⟨rfl, -⟩ := List.cons.inj heq
    rfl
  | fixed text kind =>
    have heq : c :: v = text.toList := h
    rw [head, ← heq]
    rfl

/-- A pattern may stand before another one in the table: their words begin differently, or
the words of the other one are no longer. -/
def Precedes (p q : Pattern) : Prop :=
  p.head ≠ q.head ∨ q.literal?.any (·.length = 1) ∨ p = .decimal ∧ q = .digits

instance (p q : Pattern) : Decidable (p.Precedes q) :=
  inferInstanceAs (Decidable (_ ∨ _ ∨ _))

theorem pairwise_precedes : patterns.Pairwise Precedes := by decide

/-- No pattern of the table matches the empty text, so a scan always moves on. -/
theorem ne_nil_of_mem_language {p : Pattern} (hp : p ∈ patterns) (h : w ∈ p.language) :
    w ≠ [] := by
  rintro rfl
  cases p with
  | word => obtain ⟨c, v, heq, -⟩ := mem_word.1 h; simp at heq
  | decimal => obtain ⟨u, v, heq, -⟩ := mem_decimal.1 h; simp at heq
  | digits | gap => exact (mem_runOf.1 h).1 rfl
  | lineBreak => exact absurd (show [] = ['\n'] from h) (by simp)
  | quote => obtain ⟨u, heq, -⟩ := mem_quote.1 h; simp at heq
  | comment => obtain ⟨u, heq, -⟩ := mem_comment.1 h; simp at heq
  | fixed text kind =>
    have heq : [] = text.toList := h
    exact literal?_ne_empty _ hp (by simp [literal?, String.toList_eq_nil_iff.1 heq.symm])

/-- Where two patterns match, the one that may stand first matches no less. -/
theorem Precedes.length_le {p q : Pattern} (hpq : p.Precedes q) (hp : p ∈ patterns)
    (hq : q ∈ patterns) (hlexeme : IsLongest p.language text lexeme) (hw : w ∈ q.language)
    (hpre : w <+: text) : w.length ≤ lexeme.length := by
  obtain ⟨c, lexeme, rfl⟩ := List.exists_cons_of_ne_nil (ne_nil_of_mem_language hp hlexeme.mem)
  obtain ⟨d, w, rfl⟩ := List.exists_cons_of_ne_nil (ne_nil_of_mem_language hq hw)
  rcases hpq with hne | hsingle | ⟨rfl, rfl⟩
  · -- Both begin with the first character of the text.
    obtain ⟨rest, rfl⟩ := hlexeme.begins
    obtain ⟨rfl, -⟩ := List.cons_prefix_cons.1 hpre
    exact absurd ((headOf_eq_head hlexeme.mem).symm.trans (headOf_eq_head hw)) hne
  · -- The other pattern has a single word, of one character.
    cases q with
    | fixed literal kind =>
      have heq : d :: w = literal.toList := hw
      have hlength : literal.length = 1 := by simpa [literal?] using hsingle
      rw [heq, String.length_toList, hlength]
      exact Nat.succ_le_succ (Nat.zero_le _)
    | _ => simp [literal?] at hsingle
  · -- A longer run of digits would go over the point.
    by_contra hlt
    have hprefix := List.prefix_of_prefix_length_le hlexeme.begins hpre (by omega)
    obtain ⟨u, v, heq, -⟩ := mem_decimal.1 hlexeme.mem
    have hpoint : '.' ∈ d :: w := by
      refine hprefix.subset ?_
      rw [heq]
      simp
    exact absurd ((mem_runOf.1 hw).2 '.' hpoint) (by decide)

end Pattern

namespace Pattern

/-- Two patterns have no word in common: their words begin differently, or are other fixed
texts, or have a point or a second character in the one and none in the other. -/
def Apart (p q : Pattern) : Prop :=
  p.head ≠ q.head ∨ (p.literal?.isSome ∧ q.literal?.isSome ∧ p.literal? ≠ q.literal?) ∨
    (p = .decimal ∧ q = .digits) ∨ (p = .comment ∧ q.literal?.any (·.length = 1))

instance (p q : Pattern) : Decidable (p.Apart q) :=
  inferInstanceAs (Decidable (_ ∨ _ ∨ _ ∨ _))

theorem pairwise_apart : patterns.Pairwise Apart := by decide

/-- A fixed text is the only word of its pattern. -/
theorem eq_toList_of_literal? {p : Pattern} {literal : String} (h : p.literal? = some literal)
    (hw : w ∈ p.language) : w = literal.toList := by
  cases p with
  | fixed text kind =>
    obtain rfl := Option.some.inj h
    exact hw
  | _ => simp [literal?] at h

/-- Patterns that are `Apart` have no word in common, one case for each of the four ways of being
so. -/
theorem Apart.notMem {p q : Pattern} (hpq : p.Apart q) (hne : w ≠ []) (hp : w ∈ p.language) :
    w ∉ q.language := by
  intro hq
  -- Told apart by the first character, by the text, by the point or by the length.
  rcases hpq with hhead | ⟨hfixed, hfixed', hne'⟩ | ⟨rfl, rfl⟩ | ⟨rfl, hsingle⟩
  · obtain ⟨c, v, rfl⟩ := List.exists_cons_of_ne_nil hne
    exact hhead ((headOf_eq_head hp).symm.trans (headOf_eq_head hq))
  · obtain ⟨text, htext⟩ := Option.isSome_iff_exists.1 hfixed
    obtain ⟨text', htext'⟩ := Option.isSome_iff_exists.1 hfixed'
    have heq := (eq_toList_of_literal? htext hp).symm.trans (eq_toList_of_literal? htext' hq)
    exact hne' (by rw [htext, htext', String.toList_inj.1 heq])
  · obtain ⟨u, v, rfl, -⟩ := mem_decimal.1 hp
    have hpoint : '.' ∈ u ++ '.' :: v := by simp
    exact absurd ((mem_runOf.1 hq).2 '.' hpoint) (by decide)
  · obtain ⟨u, rfl, -⟩ := mem_comment.1 hp
    obtain ⟨text, htext, hlength⟩ := (Option.any_eq_true _ _).1 hsingle
    have hlengths := congrArg List.length (eq_toList_of_literal? htext hq)
    rw [String.length_toList, of_decide_eq_true hlength] at hlengths
    simp at hlengths

/-- No text is a word of two patterns of the table: any two of them are `Apart`. -/
theorem eq_of_mem_language {p q : Pattern} (hp : p ∈ patterns) (hq : q ∈ patterns)
    (hw : w ∈ p.language) (hw' : w ∈ q.language) : p = q := by
  have hne := ne_nil_of_mem_language hp hw
  have hforward : patterns.Pairwise fun r s => w ∈ r.language → w ∈ s.language → r = s :=
    pairwise_apart.imp fun hapart hr hs => absurd hs (hapart.notMem hne hr)
  have hbackward : patterns.Pairwise fun r s => w ∈ s.language → w ∈ r.language → s = r :=
    hforward.imp fun heq hs hr => (heq hr hs).symm
  exact List.Pairwise.forall_of_forall_of_flip (fun _ _ _ _ => rfl) hforward hbackward hp hq hw hw'

/-! ### Bytes and lines of a lexeme -/

/-- A character that stands in no name, number or fixed text is in no words but those of the
patterns that are told from the others by their first character, and of comments. -/
theorem notMem_language {c : Char} (hpart : isWordPart c = false) (hpoint : c ≠ '.')
    (htexts : ∀ p ∈ patterns, ∀ text ∈ p.literal?, c ∉ text.toList) {q : Pattern}
    (hq : q ∈ patterns) (hkind : q ∉ [.gap, .lineBreak, .quote, .comment]) {w : List Char}
    (hw : w ∈ q.language) : c ∉ w := by
  have hdigit : c.isDigit = false := (Bool.or_eq_false_iff.1 hpart).2
  intro hmem
  cases q with
  | word =>
    obtain ⟨d, v, rfl, hd, hv⟩ := mem_word.1 hw
    -- A word is made of the characters words are made of, the first one included.
    have hparts : ∀ e ∈ d :: v, isWordPart e = true :=
      List.forall_mem_cons.2 ⟨by simp [isWordPart, hd], hv⟩
    exact absurd (hparts c hmem) (by simp [hpart])
  | decimal =>
    obtain ⟨u, v, rfl, ⟨-, hu⟩, -, hv⟩ := mem_decimal.1 hw
    simp only [List.mem_append, List.mem_cons] at hmem
    rcases hmem with hmem | heq | hmem
    · exact absurd (hu c hmem) (by simp [hdigit])
    · exact hpoint heq
    · exact absurd (hv c hmem) (by simp [hdigit])
  | digits => exact absurd ((mem_runOf.1 hw).2 c hmem) (by simp [hdigit])
  | fixed text kind =>
    obtain rfl : w = text.toList := hw
    exact htexts _ hq text rfl hmem
  | gap | lineBreak | quote | comment => simp at hkind

/-- A line feed is in no word but those of line breaks and text literals. -/
theorem lineFeed_notMem {q : Pattern} (hq : q ∈ patterns) (hkind : q ∉ [.lineBreak, .quote])
    {w : List Char} (hw : w ∈ q.language) : '\n' ∉ w := by
  cases q with
  | gap =>
    intro hmem
    exact absurd ((mem_runOf.1 hw).2 '\n' hmem) (by decide)
  | comment =>
    obtain ⟨u, rfl, hu⟩ := mem_comment.1 hw
    simp only [List.mem_cons, not_or]
    exact ⟨by decide, by decide, fun hmem => hu '\n' hmem rfl⟩
  | lineBreak | quote => simp at hkind
  | _ => exact notMem_language (by decide) (by decide) (by decide) hq (by simp) hw

/-- A pattern goes by the bytes of what it has matched: `stride` is the `byteLength` of the word.
-/
theorem stride_of_mem_language {q : Pattern} (h : w ∈ q.language) :
    q.stride w = byteLength w := by
  cases q with
  | fixed text kind =>
    obtain rfl : w = text.toList := h
    rfl
  | _ => rfl

/-- The line feeds that a pattern counts are all that its words have, by `lineFeed_notMem` for
most of them. -/
theorem lineFeeds_of_mem_language {q : Pattern} (hq : q ∈ patterns) (h : w ∈ q.language) :
    q.lineFeeds w = w.count '\n' := by
  cases q with
  | lineBreak =>
    obtain rfl : w = ['\n'] := h
    rfl
  | quote =>
    obtain ⟨u, rfl, -⟩ := mem_quote.1 h
    simp [lineFeeds]
  | _ => exact (List.count_eq_zero.2 (lineFeed_notMem hq (by simp) h)).symm

end Pattern

/-- The first pattern of the table that matches gives the longest lexeme of all: any earlier one
`Precedes` the later ones. -/
theorem isLongest_of_firstLexeme? {q : Pattern} (h : firstLexeme? text = some (q, lexeme)) :
    q ∈ patterns ∧ lexeme ∈ q.language ∧ IsLongest lexemeWords text lexeme := by
  obtain ⟨before, r, after, hpatterns, hr, hbefore⟩ := List.findSome?_eq_some_iff.1 h
  obtain ⟨l, hl, heq⟩ := Option.map_eq_some_iff.1 hr
  obtain ⟨rfl, rfl⟩ := Prod.mk.inj heq
  have hmem : r ∈ patterns := by
    rw [hpatterns]
    simp
  have hfinds := r.finds_lexeme? text
  rw [hl] at hfinds
  refine ⟨hmem, hfinds.mem, ⟨r, hmem, hfinds.mem⟩, hfinds.begins, ?_⟩
  rintro w ⟨p, hp, hw⟩ hpre
  have hp' := hp
  rw [hpatterns, List.mem_append, List.mem_cons] at hp'
  rcases hp' with hfront | rfl | hbehind
  · -- A pattern further to the front matches nothing here.
    have hnone := p.finds_lexeme? text
    rw [Option.map_eq_none_iff.1 (hbefore p hfront)] at hnone
    exact absurd hpre (hnone w hw)
  · exact hfinds.length_le hw hpre
  · -- One further back takes no more than this one.
    have hpairwise := Pattern.pairwise_precedes
    rw [hpatterns, List.pairwise_append] at hpairwise
    have hprecedes := (List.pairwise_cons.1 hpairwise.2.1).1 p hbehind
    exact hprecedes.length_le hmem hp hfinds hw hpre

/-- Where `firstLexeme?` finds nothing, the text begins with no lexeme at all. -/
theorem not_prefix_of_firstLexeme? (h : firstLexeme? text = none) (hw : w ∈ lexemeWords) :
    ¬ w <+: text := by
  obtain ⟨p, hp, hw⟩ := hw
  have hnone := p.finds_lexeme? text
  rw [Option.map_eq_none_iff.1 (List.findSome?_eq_none_iff.1 h p hp)] at hnone
  exact hnone w hw

/-! ### What a lexeme stands for -/

/-- The token of a lexeme that starts on line `line`; blanks, line breaks and comments have
none. -/
inductive Denotes (line : Nat) : List Char → Option Token → Prop where
  | reserved {word : String} {kind : TokenKind} :
      (word, kind) ∈ reservedWords → Denotes line word.toList (some ⟨kind, word, line⟩)
  | identifier {word : String} :
      word.toList ∈ Pattern.word.language → (∀ kind, (word, kind) ∉ reservedWords) →
        Denotes line word.toList (some ⟨.identifier, word, line⟩)
  | integer {number : String} :
      number.toList ∈ Pattern.digits.language →
        Denotes line number.toList (some ⟨.integer, number, line⟩)
  | double {number : String} :
      number.toList ∈ Pattern.decimal.language →
        Denotes line number.toList (some ⟨.double, number, line⟩)
  /-- A text literal, without its quotes. -/
  | string {contents : String} :
      '"' ∉ contents.toList →
        Denotes line ('"' :: (contents.toList ++ ['"'])) (some ⟨.string, contents, line⟩)
  | symbol {text : String} {kind : TokenKind} :
      .fixed text kind ∈ patterns → Denotes line text.toList (some ⟨kind, text, line⟩)
  | gap {blanks : List Char} : blanks ∈ Pattern.gap.language → Denotes line blanks none
  | lineBreak : Denotes line ['\n'] none
  | comment {text : List Char} : text ∈ Pattern.comment.language → Denotes line text none

theorem exists_eq_toList (w : List Char) : ∃ text : String, w = text.toList :=
  ⟨String.ofList w, String.toList_ofList.symm⟩

/-- A word is reserved or a name: `wordKind` looks it up in `reservedWords`. -/
theorem denotes_word {word : String} (h : word.toList ∈ Pattern.word.language) (line : Nat) :
    Denotes line word.toList (some ⟨wordKind word, word, line⟩) := by
  rw [wordKind, reserved?]
  cases hlookup : reservedWords.lookup word with
  | some kind =>
    obtain ⟨front, behind, heq, -⟩ := List.lookup_eq_some_iff.1 hlookup
    refine .reserved ?_
    rw [heq]
    simp
  | none =>
    refine .identifier h fun kind hmem => ?_
    simpa using List.lookup_eq_none_iff.1 hlookup (word, kind) hmem

/-- The token that a pattern of the table makes of its words is the one they stand for by
`Denotes`. -/
theorem Pattern.denotes_token? {q : Pattern} (hq : q ∈ patterns) (h : lexeme ∈ q.language)
    (line : Nat) : Denotes line lexeme (q.token? lexeme line) := by
  cases q with
  | word =>
    obtain ⟨word, rfl⟩ := exists_eq_toList lexeme
    rw [token?, String.ofList_toList]
    exact denotes_word h line
  | decimal =>
    obtain ⟨number, rfl⟩ := exists_eq_toList lexeme
    rw [token?, String.ofList_toList]
    exact .double h
  | digits =>
    obtain ⟨number, rfl⟩ := exists_eq_toList lexeme
    rw [token?, String.ofList_toList]
    exact .integer h
  | gap => exact .gap h
  | lineBreak =>
    obtain rfl : lexeme = ['\n'] := h
    exact .lineBreak
  | quote =>
    obtain ⟨u, rfl, hu⟩ := mem_quote.1 h
    obtain ⟨contents, rfl⟩ := exists_eq_toList u
    rw [token?, contents?_quoted, Option.map_some, String.ofList_toList]
    exact .string fun hmem => hu _ hmem rfl
  | comment => exact .comment h
  | fixed text kind =>
    obtain rfl : lexeme = text.toList := h
    exact .symbol hq

/-- The reserved words are words, each with one class. -/
theorem reservedWords_words : ∀ entry ∈ reservedWords,
    Pattern.word? entry.1.toList = some entry.1.toList ∧ wordKind entry.1 = entry.2 := by
  decide

theorem wordKind_of_not_reserved {word : String} (h : ∀ kind, (word, kind) ∉ reservedWords) :
    wordKind word = .identifier := by
  have hlookup : reservedWords.lookup word = none := by
    refine List.lookup_eq_none_iff.2 fun entry hentry => ?_
    have hne : word ≠ entry.1 := by
      rintro rfl
      exact h entry.2 hentry
    simpa using hne
  rw [wordKind, reserved?, hlookup]
  rfl

/-- What a lexeme stands for is what a pattern of the table makes of it. The other direction of
`Pattern.denotes_token?`. -/
theorem Denotes.exists_pattern {line : Nat} {token? : Option Token}
    (h : Denotes line lexeme token?) :
    ∃ p ∈ patterns, lexeme ∈ p.language ∧ p.token? lexeme line = token? := by
  cases h with
  | @reserved word kind hword =>
    obtain ⟨hlexeme, hkind⟩ := reservedWords_words _ hword
    -- The lexer's own run over a reserved word takes all of it, and so it is a word.
    have hfinds := Pattern.finds_word word.toList
    rw [hlexeme] at hfinds
    refine ⟨.word, by decide, hfinds.mem, ?_⟩
    rw [Pattern.token?, String.ofList_toList, hkind]
  | identifier hword hnot =>
    refine ⟨.word, by decide, hword, ?_⟩
    rw [Pattern.token?, String.ofList_toList, wordKind_of_not_reserved hnot]
  | integer hnumber =>
    refine ⟨.digits, by decide, hnumber, ?_⟩
    rw [Pattern.token?, String.ofList_toList]
  | double hnumber =>
    refine ⟨.decimal, by decide, hnumber, ?_⟩
    rw [Pattern.token?, String.ofList_toList]
  | @string contents hquote =>
    refine ⟨.quote, by decide, Pattern.mem_quote.2 ⟨contents.toList, rfl, ?_⟩, ?_⟩
    · rintro c hc rfl
      exact hquote hc
    · rw [Pattern.token?, Pattern.contents?_quoted, Option.map_some, String.ofList_toList]
  | symbol hsymbol => exact ⟨_, hsymbol, rfl, rfl⟩
  | gap hblanks => exact ⟨.gap, by decide, hblanks, rfl⟩
  | lineBreak => exact ⟨.lineBreak, by decide, rfl, rfl⟩
  | comment htext => exact ⟨.comment, by decide, htext, rfl⟩

/-- A lexeme stands for one thing only, since by `eq_of_mem_language` one pattern only has it. -/
theorem Denotes.unique {line : Nat} {token? token?' : Option Token}
    (h : Denotes line lexeme token?) (h' : Denotes line lexeme token?') : token? = token?' := by
  obtain ⟨p, hp, hmem, rfl⟩ := h.exists_pattern
  obtain ⟨q, hq, hmem', rfl⟩ := h'.exists_pattern
  rw [Pattern.eq_of_mem_language hp hq hmem hmem']

end DrLang
