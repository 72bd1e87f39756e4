import DrLang.Proofs.Reading.Statement
import DrLang.Proofs.Sentences
import DrLang.Parse.Program

/-!
# What a parse accepts, and what it blames

A whole program is read up to the end of its tokens, so what the rules read is all there
is, and nothing behind it matters. A parse then succeeds on the sentences of the grammar
and on nothing else, and where it fails, the token that it blames is the first one with
which no sentence goes on.

- `EndsOnce`: token lists with one end of the input, at the end.
- `Viable`: lists of token classes with which some sentence begins.
- `parse_run`: a program is its statements and the end of the input.
- `parse_accepts_iff_derives`: what is accepted.
- `parse_error_first_unviable`: what is blamed.
-/

namespace DrLang

open Grammar
open scoped Computability

/-- A token list whose only end of the input is its last token. -/
def EndsOnce (tokens : List Token) : Prop :=
  ∃ before last, tokens = before ++ [last] ∧ last.kind = .eof ∧ ∀ token ∈ before, token.kind ≠ .eof

/-- The tokens of a sentence as far as some point. -/
def Viable (w : List TokenKind) : Prop :=
  ∃ z, Derives (.construct .program) (w ++ z)

/-! ### The end of the input -/

/-- Every list to parse ends with the end of the input. -/
theorem Cursor.getLast_closed (tokens : List Token) :
    (closed tokens).getLast?.map Token.kind = some .eof := by
  unfold closed
  split
  case h_1 => rfl
  case h_2 last hlast =>
    split
    case isTrue hkind => rw [hlast, Option.map_some, hkind]
    case isFalse => rw [List.getLast?_concat]; rfl

/-- A parse begins with the end of the input ahead, since `Cursor.ofTokens` closes the list. -/
theorem ready_start (tokens : List Token) :
    Ready ((Parser.start tokens).cursor.remaining + 1) (.start tokens) where
  ends := by
    rw [Parser.start, Cursor.tokens_ofTokens]
    exact Cursor.getLast_closed tokens
  fits := Nat.lt_succ_self _

namespace EndsOnce

variable {tokens : List Token}

/-- A list that `EndsOnce` is parsed as it is. -/
theorem tokens_start (h : EndsOnce tokens) : (Parser.start tokens).cursor.tokens = tokens := by
  obtain ⟨before, last, rfl, hlast, -⟩ := h
  rw [Parser.start, Cursor.tokens_ofTokens, Cursor.closed, List.getLast?_append]
  simp [hlast]

/-- Behind the end of the input is nothing. -/
theorem eq_nil_of_append (h : EndsOnce tokens) {used ahead : List Token} {token : Token}
    (heq : tokens = used ++ token :: ahead) (hkind : token.kind = .eof) : ahead = [] := by
  obtain ⟨before, last, rfl, -, hbefore⟩ := h
  by_contra hne
  have hdrop := congrArg List.dropLast heq
  rw [List.dropLast_concat, List.dropLast_append_of_ne_nil (List.cons_ne_nil _ _),
    List.dropLast_cons_of_ne_nil hne] at hdrop
  have hmem : token ∈ before := by
    rw [hdrop]
    simp
  exact hbefore token hmem hkind

/-- Only the classes of the tokens matter for `EndsOnce`. -/
theorem of_kindsOf_eq (h : EndsOnce tokens) {others : List Token}
    (heq : kindsOf others = kindsOf tokens) : EndsOnce others := by
  obtain ⟨before, last, rfl, hlast, hbefore⟩ := h
  rw [kindsOf, kindsOf, List.map_append, List.map_eq_append_iff] at heq
  obtain ⟨before', last', rfl, hbefore', hlast'⟩ := heq
  obtain ⟨last', rfl, hkind⟩ := List.map_eq_singleton_iff.1 hlast'
  refine ⟨before', last', rfl, hkind.trans hlast, fun token htoken heof => ?_⟩
  have hmem : TokenKind.eof ∈ kindsOf before := by
    rw [kindsOf, ← hbefore']
    exact List.mem_map.2 ⟨token, htoken, heof⟩
  obtain ⟨other, hother, hkind'⟩ := List.mem_map.1 hmem
  exact hbefore other hother hkind'

end EndsOnce

/-! ### Whole programs -/

section Program

variable {tokens : List Token}

/-- A program is its statements, and then the end of the input, if that is what follows them. -/
theorem parse_run (tokens : List Token) :
    parse tokens =
      match (Parse.allStatementsOf .standard (Parse.block .standard)).runFrom (.start tokens) with
      | (.ok nodes, s) =>
        if s.cursor.current.kind = .eof then
          (.ok (.group "Program" 0 nodes),
            (s.notes.record (.parsed nodes.length s.diagnostics.length)).at s.cursor.advance)
        else (.error (.atToken (.token .eof) s.cursor.current), s)
      | (.error e, s) => (.error e, s) := by
  rw [parse, Parse.program, Parse.runFrom_bind]
  split
  case h_1 nodes s hrun =>
    rw [hrun, Parse.runFrom_bind, Parse.runFrom_expect]
    by_cases hkind : s.cursor.current.kind = .eof
    · simp only [if_pos hkind]
      rfl
    · simp only [if_neg hkind]
  case h_2 e s hrun => rw [hrun]

/-- A program is its statements, if the end of the input is what follows them. -/
theorem parse_eq (tokens : List Token) :
    (parse tokens).1 =
      match (Parse.allStatementsOf .standard (Parse.block .standard)).runFrom (.start tokens) with
      | (.ok nodes, s) =>
        if s.cursor.current.kind = .eof then .ok (.group "Program" 0 nodes)
        else .error (.atToken (.token .eof) s.cursor.current)
      | (.error e, _) => .error e := by
  rw [parse_run]
  rcases (Parse.allStatementsOf .standard (Parse.block .standard)).runFrom (.start tokens) with
    ⟨_ | nodes, s⟩
  · rfl
  · exact apply_ite Prod.fst _ _ _

/-- The end of the input stands where no statement and no brace does. `Avoids` lets it follow the
statements. -/
theorem avoids_eof :
    Avoids (oneOf [.eof]) {kind | kind ≠ .eof ∧ kind ≠ .closeCurly} := by
  rintro kind ⟨hkind, -⟩ z ⟨k, hk, heq⟩
  obtain ⟨rfl, -⟩ := List.cons.inj heq
  exact hkind (List.mem_singleton.1 hk)

/-- What is accepted is a sentence: the statements were complete, by `Completes.mem`, and the end
of the input is the one at the end of the list. -/
theorem derives_of_parse (h : EndsOnce tokens) {tree : Node}
    (hparse : (parse tokens).1 = .ok tree) :
    Derives (.construct .program) (kindsOf tokens) := by
  rw [parse_eq] at hparse
  split at hparse
  case h_1 nodes s hrun =>
    obtain ⟨used, heq, hused⟩ := (reads_statements (ready_start tokens)).accepted hrun
    rw [h.tokens_start] at heq
    by_cases hkind : s.cursor.current.kind = .eof
    · -- EOF stands once and last: once it is the token ahead, nothing is left behind it.
      have hahead := h.eq_nil_of_append heq hkind
      have hmem : kindsOf used ++ [.eof] ∈ Construct.program.words := by
        rw [Construct.words_program]
        exact Language.append_mem_mul hused.mem ⟨.eof, List.mem_singleton_self _, rfl⟩
      rw [heq, Cursor.tokens, hahead, kindsOf, List.map_append, List.map_singleton, hkind]
      exact hmem
    · simp [if_neg hkind] at hparse
  case h_2 => simp at hparse

/-- The token that an error blames, with what stands before it and what was expected:
`Reads.refused` for the whole program. -/
theorem blamed_of_parse (h : EndsOnce tokens) {e : FatalError}
    (hparse : (parse tokens).1 = .error e) :
    ∃ used found ahead expected, tokens = used ++ found :: ahead ∧ e = .atToken expected found ∧
      Awaits Construct.program.words (kindsOf used) expected ∧
      ∀ z, kindsOf used ++ found.kind :: z ∉ Construct.program.words := by
  rw [parse_eq] at hparse
  rw [Construct.words_program]
  split at hparse
  case h_1 nodes s hrun =>
    obtain ⟨used, heq, hused⟩ := (reads_statements (ready_start tokens)).accepted hrun
    rw [h.tokens_start] at heq
    by_cases hkind : s.cursor.current.kind = .eof
    · simp [if_pos hkind] at hparse
    · rw [if_neg hkind] at hparse
      refine ⟨used, s.cursor.current, s.cursor.rest, .token .eof, heq,
        (Except.error.inj hparse).symm, ?_, fun z hz => ?_⟩
      · exact ⟨.eof, [], rfl,
          Language.append_mem_mul hused.mem ⟨.eof, List.mem_singleton_self _, rfl⟩⟩
      · -- The statements read are all there are, so only the end of the input goes on.
        obtain ⟨k, hk, hcons⟩ := hused.follows avoids_eof hz
        obtain ⟨hhead, -⟩ := List.cons.inj hcons
        exact hkind (hhead.trans (List.mem_singleton.1 hk))
  case h_2 e' s hrun =>
    obtain rfl := Except.error.inj hparse
    obtain ⟨used, expected, heq, he, hawaits, hexcludes⟩ :=
      (reads_statements (ready_start tokens)).refused hrun
    rw [h.tokens_start] at heq
    exact ⟨used, _, _, expected, heq, he, hawaits.mul_left (productive_oneOf _ _),
      hexcludes avoids_eof⟩

/-- A parse succeeds on the sentences and fails on all else; the tree does not matter here. A
failure would have excluded what `Derives` has, by `Excludes`. -/
theorem accepts_iff (h : EndsOnce tokens) :
    (∃ tree, (parse tokens).1 = .ok tree) ↔ Derives (.construct .program) (kindsOf tokens) := by
  constructor
  · rintro ⟨tree, htree⟩
    exact derives_of_parse h htree
  · intro hderives
    cases hparse : (parse tokens).1 with
    | ok tree => exact ⟨tree, rfl⟩
    | error e =>
      obtain ⟨used, found, ahead, -, heq, -, -, hnot⟩ := blamed_of_parse h hparse
      refine absurd hderives ?_
      rw [heq, kindsOf, List.map_append]
      exact hnot (kindsOf ahead)

/-! ### Results -/

/-- A parse succeeds on the sentences of the grammar and on nothing else. The classes of
the tokens decide it alone, and no sentence has a word that is only reserved, a brace that
closes nothing, an alternative without its branch or a comparison of a comparison. -/
theorem parse_accepts_iff_derives (h : EndsOnce tokens) :
    ((∃ tree, (parse tokens).1 = .ok tree) ↔ Derives (.construct .program) (kindsOf tokens)) ∧
    (∀ others, kindsOf others = kindsOf tokens →
      ((∃ tree, (parse others).1 = .ok tree) ↔ ∃ tree, (parse tokens).1 = .ok tree)) ∧
    ((∃ tree, (parse tokens).1 = .ok tree) ∨ Derives (.construct .program) (kindsOf tokens) →
      Orderly (kindsOf tokens)) := by
  refine ⟨accepts_iff h, fun others heq => ?_, ?_⟩
  · rw [accepts_iff h, accepts_iff (h.of_kindsOf_eq heq), heq]
  · rintro (haccepted | hderives)
    · exact orderly_of_derives ((accepts_iff h).1 haccepted)
    · exact orderly_of_derives hderives

/-- An output of a number is a program. -/
theorem accepts_output_of_number :
    EndsOnce [⟨.output, "SHOW", 1⟩, ⟨.integer, "7", 1⟩, ⟨.semicolon, ";", 1⟩, .endOfInput 1] ∧
      Derives (.construct .program) [.output, .integer, .semicolon, .eof] := by
  have hends :
      EndsOnce [⟨.output, "SHOW", 1⟩, ⟨.integer, "7", 1⟩, ⟨.semicolon, ";", 1⟩, .endOfInput 1] :=
    ⟨[⟨.output, "SHOW", 1⟩, ⟨.integer, "7", 1⟩, ⟨.semicolon, ";", 1⟩], .endOfInput 1, rfl, rfl,
      by decide⟩
  exact ⟨hends, (parse_accepts_iff_derives hends).1.1 ⟨_, rfl⟩⟩

/-- A failed parse blames the first token with which no sentence goes on, and what it
expected there does lead on to a sentence. -/
theorem parse_error_first_unviable (h : EndsOnce tokens) {e : FatalError}
    (hparse : (parse tokens).1 = .error e) :
    ∃ (k : Nat) (hk : k < tokens.length) (expected : Expectation),
      e = .atToken expected tokens[k] ∧
      Viable ((kindsOf tokens).take k) ∧
      ¬ Viable ((kindsOf tokens).take (k + 1)) ∧
      ∃ kind, expected.Admits kind ∧ Viable ((kindsOf tokens).take k ++ [kind]) := by
  obtain ⟨used, found, ahead, expected, rfl, he, ⟨kind, z, hadmits, hz⟩, hnot⟩ :=
    blamed_of_parse h hparse
  have htake : (kindsOf (used ++ found :: ahead)).take used.length = kindsOf used := by
    simp [kindsOf]
  have htake' : (kindsOf (used ++ found :: ahead)).take (used.length + 1) =
      kindsOf used ++ [found.kind] := by
    simp [kindsOf, List.take_append]
  refine ⟨used.length, by simp, expected, by simpa using he, ?_, ?_, kind, hadmits, ?_⟩
  · -- Viable up to the blame: the kind that was awaited begins a word of the grammar.
    rw [htake]
    exact ⟨kind :: z, hz⟩
  · -- The blamed token itself is excluded, whatever is said to follow it.
    rw [htake']
    rintro ⟨z, hviable⟩
    rw [List.append_assoc] at hviable
    exact hnot z hviable
  · rw [htake]
    refine ⟨z, ?_⟩
    rw [List.append_assoc]
    exact hz

/-- A name alone is no statement: the semicolon behind it is blamed, not the name. -/
theorem blames_semicolon_after_name :
    EndsOnce [⟨.identifier, "x", 1⟩, ⟨.semicolon, ";", 2⟩, .endOfInput 2] ∧
    (parse [⟨.identifier, "x", 1⟩, ⟨.semicolon, ";", 2⟩, .endOfInput 2]).1 =
      .error ⟨2, .unexpected .assignmentOrCall .semicolon ";"⟩ ∧
    Viable [.identifier] ∧ ¬ Viable [.identifier, .semicolon] ∧
    ∃ kind ∈ [.dollar, .assignment, .plusPlus, .minusMinus, .openParen],
      Viable [.identifier, kind] := by
  have hends : EndsOnce [⟨.identifier, "x", 1⟩, ⟨.semicolon, ";", 2⟩, .endOfInput 2] :=
    ⟨[⟨.identifier, "x", 1⟩, ⟨.semicolon, ";", 2⟩], .endOfInput 2, rfl, rfl, by decide⟩
  have hparse : (parse [⟨.identifier, "x", 1⟩, ⟨.semicolon, ";", 2⟩, .endOfInput 2]).1 =
      .error ⟨2, .unexpected .assignmentOrCall .semicolon ";"⟩ := rfl
  obtain ⟨k, hk, expected, he, hviable, hnot, kind, hadmits, hnext⟩ :=
    parse_error_first_unviable hends hparse
  obtain rfl : k = 1 := by
    match k, hk, he with
    | 0, _, he => simp [FatalError.atToken] at he
    | 1, _, _ => rfl
    | 2, _, he => simp [FatalError.atToken] at he
  obtain rfl : expected = .assignmentOrCall := by simpa [FatalError.atToken, eq_comm] using he
  exact ⟨hends, hparse, hviable, hnot, kind, hadmits, hnext⟩

end Program

end DrLang
