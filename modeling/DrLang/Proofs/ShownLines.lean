import DrLang.Proofs.Tiling
import DrLang.Source.Line
import Mathlib.Data.List.DropRight

/-!
# Where a lexeme is shown

Lines are counted twice. A scan counts the line feeds that it has passed, and a line is shown by
splitting the source at them and taking the carriage returns off its end. A lexeme may run over
several lines. What is left of it on the line on which it starts is found in that line as it is
shown, since no lexeme of a token ends with a carriage return.

- `isSome_getLine?_iff`: the lines that a source has.
- `Shows`: that a text is found in a line as it is shown.
- `onFirstLine`: what is left of a lexeme on its first line.
- `shows_lexeme`, `shows_blamed`: the lexemes of tokens, and a character that begins none.
-/

namespace DrLang

/-! ### Returns at the end of a line -/

/-- Returns are dropped from the end only, so a text in front that does not end with one stays. -/
theorem dropReturns_append {u : List Char} (h : u.getLast? ≠ some '\r') (v : List Char) :
    dropReturns (u ++ v) = u ++ dropReturns v := by
  have hkept : u.reverse.dropWhile (· == '\r') = u.reverse := by
    cases hu : u.reverse with
    | nil => rfl
    | cons c cs =>
      rw [List.getLast?_eq_head?_reverse, hu, List.head?_cons] at h
      exact List.dropWhile_cons_of_neg (by simpa using fun hc => h (congrArg some hc))
  unfold dropReturns
  rw [List.reverse_append, List.dropWhile_append, hkept]
  split
  case isTrue hempty => rw [List.isEmpty_iff.1 hempty, List.reverse_reverse]; simp
  case isFalse => rw [List.reverse_append, List.reverse_reverse]

/-- What is left is the beginning of the line. -/
theorem dropReturns_prefix (line : List Char) : dropReturns line <+: line :=
  List.rdropWhile_prefix _ line

/-- No return is left at the end. -/
theorem getLast?_dropReturns (line : List Char) : (dropReturns line).getLast? ≠ some '\r' := by
  unfold dropReturns
  rw [List.getLast?_reverse]
  intro h
  have hnot := List.head?_dropWhile_not (· == '\r') line.reverse
  rw [h] at hnot
  simp at hnot

/-- A text that does not end with a return is not touched where it stands in a line, by
`dropReturns_append`. -/
theorem infix_dropReturns {w : List Char} (h : w.getLast? ≠ some '\r') (before behind : List Char) :
    w <:+: dropReturns (before ++ w ++ behind) := by
  by_cases hempty : w = []
  · subst hempty
    exact List.nil_infix
  · have hlast : (before ++ w).getLast? ≠ some '\r' := by
      rw [List.getLast?_append_of_ne_nil before hempty]
      exact h
    rw [dropReturns_append hlast]
    exact ⟨before, dropReturns behind, rfl⟩

/-! ### Lines and line feeds -/

/-- The first line goes up to the first line feed: `takeWhile` is the form in which lexemes are
cut. -/
theorem fst_splitLines (text : List Char) :
    (splitLines text).1 = text.takeWhile (· != '\n') := by
  induction text with
  | nil => rfl
  | cons c cs ih =>
    by_cases h : c = '\n'
    · simp [splitLines, h]
    · simp [splitLines, h, ih]

/-- Behind so many line feeds stands the line with that index. It may have begun before. -/
theorem getElem?_linesOf_append (before behind : List Char) :
    ∃ indent, (linesOf (before ++ behind))[before.count '\n']? =
      some (indent ++ behind.takeWhile (· != '\n')) := by
  induction before with
  | nil => exact ⟨[], by simp [linesOf, fst_splitLines]⟩
  | cons c before ih =>
    obtain ⟨indent, hline⟩ := ih
    -- A line feed makes a line of its own; any other character goes to the line behind it.
    by_cases h : c = '\n'
    · subst h
      refine ⟨indent, ?_⟩
      rw [List.cons_append, linesOf_newline, List.count_cons_self, List.getElem?_cons_succ, hline]
    · rw [List.count_cons_of_ne h, List.cons_append]
      simp only [linesOf, splitLines, if_neg h] at hline ⊢
      cases hcount : before.count '\n' with
      | zero =>
        rw [hcount, List.getElem?_cons_zero] at hline
        refine ⟨c :: indent, ?_⟩
        rw [List.getElem?_cons_zero, Option.some.inj hline, List.cons_append]
      | succ k =>
        rw [hcount, List.getElem?_cons_succ] at hline
        exact ⟨indent, by rw [List.getElem?_cons_succ, hline]⟩

/-- The lines of a source are counted from one, and one more than there are line feeds. -/
theorem isSome_getLine?_iff (source : String) (line : Nat) :
    (getLine? source line).isSome ↔ 1 ≤ line ∧ line ≤ 1 + source.toList.count '\n' := by
  cases line with
  | zero => simp [getLine?]
  | succ index =>
    simp [getLine?]
    omega

/-! ### What is shown -/

/-- A text is found in a line of a source as it is shown. -/
def Shows (source : String) (line : Nat) (w : List Char) : Prop :=
  ∃ text, getLine? source line = some text ∧ w <:+: text.toList

/-- What a line begins with behind some piece of the source is found in it, by
`getElem?_linesOf_append`, unless it ends with a return, which would be cut off. -/
theorem shows_of_takeWhile {source : String} {before behind w tail : List Char}
    (hsource : source.toList = before ++ behind)
    (hline : behind.takeWhile (· != '\n') = w ++ tail) (hlast : w.getLast? ≠ some '\r') :
    Shows source (1 + before.count '\n') w := by
  obtain ⟨indent, hfound⟩ := getElem?_linesOf_append before behind
  rw [← hsource, hline] at hfound
  refine ⟨String.ofList (dropReturns (indent ++ (w ++ tail))), ?_, ?_⟩
  · rw [Nat.add_comm, getLine?, hfound]
    rfl
  · rw [String.toList_ofList, ← List.append_assoc]
    exact infix_dropReturns hlast indent tail

/-- What is left of a lexeme on the line on which it starts: all of it, or what stands before its
first line feed, without the returns at the end of that. -/
def onFirstLine (lexeme : List Char) : List Char :=
  if '\n' ∈ lexeme then dropReturns (lexeme.takeWhile (· != '\n')) else lexeme

/-- A lexeme is found on the line it starts on, as far as it stands on that line. Where it runs
over the end of the line, returns in front of the line feed are cut off by `onFirstLine` as well.
-/
theorem shows_lexeme {source : String} {before lexeme behind : List Char}
    (hsource : source.toList = before ++ (lexeme ++ behind))
    (hlast : lexeme.getLast? ≠ some '\r') :
    Shows source (1 + before.count '\n') (onFirstLine lexeme) := by
  unfold onFirstLine
  split
  case isTrue h =>
    -- The lexeme is cut at its own line feed, before anything behind it is reached.
    have hcut : (lexeme ++ behind).takeWhile (· != '\n') = lexeme.takeWhile (· != '\n') := by
      rw [List.takeWhile_append, if_neg]
      intro hlength
      have hwhole := (List.takeWhile_prefix _).eq_of_length hlength
      simpa using List.takeWhile_eq_self_iff.1 hwhole '\n' h
    obtain ⟨tail, htail⟩ := dropReturns_prefix (lexeme.takeWhile (· != '\n'))
    exact shows_of_takeWhile hsource (hcut.trans htail.symm) (getLast?_dropReturns _)
  case isFalse h =>
    have hwhole : ∀ c ∈ lexeme, (c != '\n') = true := by
      intro c hc
      rw [bne_iff_ne]
      rintro rfl
      exact h hc
    exact shows_of_takeWhile hsource (List.takeWhile_append_of_pos hwhole) hlast

/-! ### Lexemes -/

/-- The lexeme of a token does not end with a return. -/
theorem Denotes.getLast?_ne {line : Nat} {lexeme : List Char} {t : Token}
    (h : Denotes line lexeme (some t)) : lexeme.getLast? ≠ some '\r' := by
  have of_notMem {w : List Char} (h : '\r' ∉ w) : w.getLast? ≠ some '\r' :=
    fun hlast => h (List.mem_of_getLast? hlast)
  cases h with
  | @reserved word kind hword =>
    have hreserved : ∀ entry ∈ reservedWords, '\r' ∉ entry.1.toList := by decide
    exact of_notMem (hreserved _ hword)
  | identifier hword =>
    obtain ⟨c, v, heq, hc, hv⟩ := Pattern.mem_word.1 hword
    rw [heq]
    apply of_notMem
    intro hmem
    rcases List.mem_cons.1 hmem with rfl | hmem
    · exact absurd hc (by decide)
    · exact absurd (hv _ hmem) (by decide)
  | integer hnumber =>
    apply of_notMem
    intro hmem
    exact absurd ((mem_runOf.1 hnumber).2 _ hmem) (by decide)
  | double hnumber =>
    obtain ⟨u, v, heq, ⟨-, hu⟩, -, hv⟩ := Pattern.mem_decimal.1 hnumber
    rw [heq]
    apply of_notMem
    intro hmem
    rcases List.mem_append.1 hmem with hmem | hmem
    · exact absurd (hu _ hmem) (by decide)
    · rcases List.mem_cons.1 hmem with hpoint | hmem
      · exact absurd hpoint (by decide)
      · exact absurd (hv _ hmem) (by decide)
  -- A string may hold a carriage return, but it ends with a quotation mark.
  | string =>
    rw [← List.cons_append, List.getLast?_concat]
    decide
  | @symbol text kind hsymbol =>
    have hfixed : ∀ p ∈ patterns, ∀ literal ∈ p.literal?, '\r' ∉ literal.toList := by decide
    exact of_notMem (hfixed _ hsymbol text rfl)

/-- A character that begins no lexeme is no blank, since `gap` and `lineBreak` match those. -/
theorem ne_of_not_prefix {c : Char} {rest : List Char}
    (h : ∀ w ∈ lexemeWords, ¬ w <+: c :: rest) : c ≠ '\n' ∧ c ≠ '\r' := by
  have hsingle : [c] ∉ lexemeWords := fun hmem => h _ hmem ⟨rest, rfl⟩
  constructor
  · rintro rfl
    exact hsingle ⟨.lineBreak, by decide, rfl⟩
  · rintro rfl
    exact hsingle ⟨.gap, by decide, mem_runOf.2 ⟨by simp, by simp [isGap]⟩⟩

/-- A character that begins no lexeme is no return, since `gap` takes those; so it is not cut off.
-/
theorem shows_blamed {source : String} {before rest : List Char} {c : Char}
    (hsource : source.toList = before ++ c :: rest)
    (h : ∀ w ∈ lexemeWords, ¬ w <+: c :: rest) : Shows source (1 + before.count '\n') [c] := by
  obtain ⟨hfeed, hreturn⟩ := ne_of_not_prefix h
  refine shows_of_takeWhile hsource (List.takeWhile_cons_of_pos (by simpa using hfeed)) ?_
  simpa using hreturn

end DrLang
