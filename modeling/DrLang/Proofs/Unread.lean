import DrLang.Proofs.Acceptance
import DrLang.Proofs.Likeness.Statement
import DrLang.Proofs.Likeness.Surroundings

/-!
# What a parse leaves unread

A parse looks at the current token, and here and there at the one behind it. Where it fails, it
stands at the token that it blames, and where it succeeds, it takes the first end of the input and
nothing more, even if tokens follow. Nothing behind these tokens is looked at, so it may be
anything.

- `StopsAt`: the place in a token list where its parse stops.
- `Grammar.not_mem_eof_of_mem`: no statement takes an end of the input.
- `run_statements_of_agree`: the statements of two lists that agree as far as they are read.
- `parse_leaves_unread`: the parses of two lists that agree as far as one of them stops.
-/

namespace DrLang

open Parse

/-! ### Ends of the input -/

namespace Grammar

/-- The production of a program is the only one that mentions the end of the input. -/
theorem not_mem_eof_of_mem {c : Construct} (hc : c ≠ .program) {w : List TokenKind}
    (h : w ∈ c.words) : .eof ∉ w := by
  have hcompositional : Compositional fun w => .eof ∉ w :=
    ⟨List.not_mem_nil, fun hu hv => by simp [hu, hv]⟩
  have hproduction (c : Construct) (hc : c ≠ .program) :
      (production c).Mentions (· ≠ .eof) (· ≠ .program) := by
    cases c <;> first | exact absurd rfl hc | decide
  have hmem : w ∈ (Form.construct c).interpret
      fun c => {w | c ≠ .program → TokenKind.eof ∉ w} := by
    refine Derives.mem_interpret (fun c w _ hw hc => ?_) h
    refine hcompositional.of_interpret ((hproduction c hc).mono (fun kind hkind => ?_) ?_) hw
    · simpa using hkind.symm
    · exact fun _ hc w hw => hw hc
  exact hmem hc

end Grammar

/-! ### Whole programs -/

/-- A parse stops at token `k`: if it fails, it blames that token and stands there, and if it
succeeds, that token is the first end of the input. -/
def StopsAt (tokens : List Token) (k : Nat) : Prop :=
  ∃ found ahead, (Cursor.closed tokens).drop k = found :: ahead ∧
    match parse tokens with
    | (.error e, s) => s.cursor.tokens = found :: ahead ∧ ∃ expected, e = .atToken expected found
    | (.ok _, _) =>
      found.kind = .eof ∧ ∀ token ∈ (Cursor.closed tokens).take k, token.kind ≠ .eof

section Unread

variable {v w used ahead : List Token} {s : Parser} {r : Except FatalError (List Node)}

/-- The statements of a list stop where `StopsAt` says, and this is what they have used. -/
theorem exists_used_of_run
    (hrun : (allStatementsOf .standard (block .standard)).runFrom (.start v) = (r, s)) :
    ∃ used, Cursor.closed v = used ++ s.cursor.tokens ∧ StopsAt v used.length := by
  have hreads := Grammar.reads_statements (ready_start v)
  have hstart : (Parser.start v).cursor.tokens = Cursor.closed v := Cursor.tokens_ofTokens v
  cases r with
  | ok nodes =>
    obtain ⟨used, heq, hused⟩ := hreads.accepted hrun
    rw [hstart] at heq
    have htake : (Cursor.closed v).take used.length = used := by rw [heq, List.take_left]
    have hdrop : (Cursor.closed v).drop used.length = s.cursor.tokens := by
      rw [heq, List.drop_left]
    refine ⟨used, heq, s.cursor.current, s.cursor.rest, hdrop, ?_⟩
    rw [parse_run, hrun, htake]
    by_cases hkind : s.cursor.current.kind = .eof
    · simp only [if_pos hkind]
      -- The word of the statements has no `eof` in it, so this is the first one.
      refine ⟨hkind, fun token htoken heof => ?_⟩
      have hmem : TokenKind.eof ∈ kindsOf used := List.mem_map.2 ⟨token, htoken, heof⟩
      exact Grammar.not_mem_eof_of_mem (by decide) hused.mem hmem
    · simp only [if_neg hkind]
      exact ⟨rfl, _, rfl⟩
  | error e =>
    obtain ⟨used, expected, heq, he, -, -⟩ := hreads.refused hrun
    rw [hstart] at heq
    have hdrop : (Cursor.closed v).drop used.length = s.cursor.tokens := by
      rw [heq, List.drop_left]
    refine ⟨used, heq, s.cursor.current, s.cursor.rest, hdrop, ?_⟩
    rw [parse_run, hrun]
    exact ⟨rfl, expected, he⟩

/-- The first of two stops, if there were two. -/
theorem StopsAt.le {k l : Nat} (hk : StopsAt v k) (hl : StopsAt v l) : l ≤ k := by
  obtain ⟨found, ahead, hdrop, hstop⟩ := hk
  obtain ⟨found', ahead', hdrop', hstop'⟩ := hl
  rcases hparse : parse v with ⟨e | tree, s⟩ <;> rw [hparse] at hstop hstop'
  · -- What is left at the end tells how much was taken.
    have hsame := hdrop.trans (hstop.1.symm.trans (hstop'.1.trans hdrop'.symm))
    have hlength := congrArg List.length hsame
    have hpos := congrArg List.length hdrop
    simp only [List.length_drop, List.length_cons] at hlength hpos
    omega
  · by_contra hlt
    have hfound : (Cursor.closed v)[k]? = some found := by
      rw [← List.head?_drop, hdrop, List.head?_cons]
    have hmem : found ∈ (Cursor.closed v).take l := by
      refine List.mem_of_getElem? (i := k) ?_
      rw [List.getElem?_take_of_lt (by omega), hfound]
    exact hstop'.2 found hmem hstop.1

/-- A parse stops at one token only. -/
theorem StopsAt.unique {k l : Nat} (hk : StopsAt v k) (hl : StopsAt v l) : k = l :=
  le_antisymm (hl.le hk) (hk.le hl)

/-- The statements of a list do not depend on what follows the token behind them. -/
theorem run_statements_of_agree
    (hrun : (allStatementsOf .standard (block .standard)).runFrom (.start v) = (r, s))
    (hv : Cursor.closed v = used ++ s.cursor.tokens)
    (hw : Cursor.closed w = used ++ s.cursor.current :: ahead) :
    (allStatementsOf .standard (block .standard)).runFrom (.start w) =
      (r, s.notes.at ⟨s.cursor.current, ahead⟩) := by
  -- The two runs start with the same notes and differ in what stands behind the shared tokens.
  have hbeside : Beside (Parser.start v).notes (Parser.start v).notes (Parser.start v).notes
      (Parser.start w).notes := .refl rfl rfl
  rw [← Cursor.tokens_ofTokens] at hv hw
  have hused : List.Forall₂ Eq used used := by rw [List.forall₂_eq_eq_eq]
  have hlevel (s : Parser) : Level AnyKind (block .standard) s := level_block fun _ _ => trivial
  obtain ⟨r', n, hrun', hnotes, houtcome⟩ :=
    Alike.allStatementsOf (L := .beside _ _) (fun _ F hs => Grammar.reads_block hs F) hlevel
      (fun _ _ => Alike.block) (ready_start v) (ready_start w) hbeside r s hrun used used
      s.cursor.current ahead hv hused hw (.inl rfl)
  obtain rfl : n = s.notes := Beside.eq hnotes
  cases houtcome with
  | ok hnodes => rw [hrun', Likeness.eq_of_nodes hnodes]
  | error expected htoken =>
    obtain rfl := htoken
    exact hrun'

/-- **Nothing behind the stop is read**: whatever the tokens are, with ends of the input among them
or none, their parse stops at one of them. Every list with the same tokens up to that one, whatever
follows it, has the same tree or the same error, and the same symbols, semantic errors and events
are noted on the way. -/
theorem parse_leaves_unread (v : List Token) :
    (∃ k, StopsAt v k) ∧
    ∀ k, StopsAt v k → ∀ w, (Cursor.closed w).take (k + 1) = (Cursor.closed v).take (k + 1) →
      (parse w).1 = (parse v).1 ∧ (parse w).2.notes = (parse v).2.notes := by
  rcases hrun : (allStatementsOf .standard (block .standard)).runFrom (.start v) with ⟨r, s⟩
  obtain ⟨used, hv, hstop⟩ := exists_used_of_run hrun
  refine ⟨⟨_, hstop⟩, fun k hk w hagree => ?_⟩
  -- There is one such place only, and there the run stopped.
  obtain rfl : k = used.length := hk.unique hstop
  have hw : Cursor.closed w =
      used ++ s.cursor.current :: (Cursor.closed w).drop (used.length + 1) := by
    conv_lhs => rw [← List.take_append_drop (used.length + 1) (Cursor.closed w), hagree, hv]
    simp [Cursor.tokens, List.take_append]
  have hparse := parse_run v
  have hparse' := parse_run w
  rw [hrun] at hparse
  rw [run_statements_of_agree hrun hv hw] at hparse'
  cases r with
  | error e =>
    rw [hparse, hparse']
    exact ⟨rfl, rfl⟩
  | ok nodes =>
    by_cases hkind : s.cursor.current.kind = .eof
    · rw [hparse.trans (if_pos hkind), hparse'.trans (if_pos hkind)]
      exact ⟨rfl, rfl⟩
    · rw [hparse.trans (if_neg hkind), hparse'.trans (if_neg hkind)]
      exact ⟨rfl, rfl⟩

/-- An output whose end is not marked. -/
def openEnded : List Token :=
  [⟨.output, "SHOW", 3⟩, ⟨.integer, "7", 3⟩, ⟨.semicolon, ";", 4⟩]

/-- Its end is supplied, and more tokens behind an end there do not matter. -/
theorem openEnded_leaves_unread :
    StopsAt openEnded 3 ∧
    (parse (openEnded ++ [.endOfInput 4, ⟨.closeCurly, "\x7d", 5⟩])).1 = (parse openEnded).1 ∧
    (parse (openEnded ++ [.endOfInput 4, ⟨.closeCurly, "\x7d", 5⟩])).2.notes =
      (parse openEnded).2.notes := by
  have hstop : StopsAt openEnded 3 := ⟨.endOfInput 4, [], rfl, rfl, by decide⟩
  exact ⟨hstop, (parse_leaves_unread openEnded).2 3 hstop _ rfl⟩

end Unread

end DrLang
