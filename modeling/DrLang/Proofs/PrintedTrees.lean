import DrLang.Proofs.Printing.Statement
import DrLang.Proofs.Acceptance
import DrLang.Compilation

/-!
# Trees lose nothing but dollar signs

Whatever source is compiled, its tokens can be read off its tree, apart from the dollar signs
before equals signs. So a tree has each token of its source once, in its place.

- `Printing.ensures_program`: a whole program is printed as it was read.
- `program_sketch_of_compile`: the tree of a source is printed as the tokens of the source.
-/

namespace DrLang

open Printing

/-! ### The end of the input -/

/-- A list that keeps to its lines is closed once, at its end. -/
theorem WellFormed.endsOnce {line : Nat} {tokens : List Token} (h : WellFormed line tokens) :
    EndsOnce tokens := by
  obtain ⟨before, last, heq, hbefore⟩ := h.exists_concat
  exact ⟨before, .endOfInput last, heq, rfl, hbefore⟩

/-- The start of a well-formed list is `Legible`, since all its tokens are spelled. -/
theorem WellFormed.legible {line : Nat} {tokens : List Token} (h : WellFormed line tokens) :
    (Parser.start tokens).Legible where
  ends := (ready_start tokens).ends
  spelled := by
    rw [h.endsOnce.tokens_start]
    exact h.spelled

/-! ### Programs -/

/-- The statements of a program are printed as what stands before the end of the input. -/
theorem Printing.ensures_program {s : Parser} (hs : s.Legible) :
    Ensures (Parse.program .standard) s fun tree _ =>
      ∃ used last ahead, s.cursor.tokens = used ++ last :: ahead ∧ last.kind = .eof ∧
        program tree.sketch = spellingsOf used := by
  refine (ensures_statements hs).bind fun nodes s₁ hnodes => ?_
  obtain ⟨used, heq, hprinted⟩ := hnodes
  refine (ensures_expect _).bind fun last s₂ h => ?_
  obtain ⟨rfl, hkind, -⟩ := h
  refine ensures_get_bind ((ensures_record _).bind fun _ s₃ _ => ensures_pure ?_)
  refine ⟨used, s₁.cursor.current, s₁.cursor.rest, heq, hkind, ?_⟩
  rw [Node.group, Node.sketch_mk (by decide), hprinted]
  rfl

/-- A program has printed as many tokens as it took, which are all but the end of the input:
`ensures_statements` from the start of the list. -/
theorem program_sketch_of_parse {line : Nat} {tokens : List Token} (h : WellFormed line tokens)
    {tree : Node} {s : Parser} (hparse : parse tokens = (.ok tree, s)) :
    program tree.sketch = spellingsOf tokens.dropLast := by
  obtain ⟨used, last, ahead, heq, hkind, hprinted⟩ :=
    Printing.ensures_program h.legible tree s hparse
  rw [h.endsOnce.tokens_start] at heq
  obtain rfl := h.endsOnce.eq_nil_of_append heq hkind
  rw [hprinted, heq, List.dropLast_concat]

/-- A source that is compiled was scanned and parsed; the tokens and the tree are those of its
`Compilation`. -/
theorem parse_of_compile {source : String} {c : Compilation} (h : compile source = .ok c) :
    tokenize source = .ok c.tokens ∧ ∃ s, parse c.tokens = (.ok c.tree, s) := by
  obtain ⟨htokens, s, hparse, -⟩ := compile_eq_ok_iff.1 h
  exact ⟨htokens, s, hparse⟩

/-- **Trees lose nothing but dollar signs**: the tree of a source, without its lines and with
no types but the declared ones, is printed as the tokens of the source up to the one that ends
the input. So sources whose trees differ in their lines only have the same tokens. -/
theorem program_sketch_of_compile {source : String} {c : Compilation} (h : compile source = .ok c) :
    (∃ line, c.tokens = c.tokens.dropLast ++ [.endOfInput line]) ∧
      program c.tree.sketch = spellingsOf c.tokens.dropLast ∧
      ∀ source' c', compile source' = .ok c' → c'.tree.unlined = c.tree.unlined →
        spellingsOf c'.tokens.dropLast = spellingsOf c.tokens.dropLast := by
  have hprinted {source : String} {c : Compilation} (h : compile source = .ok c) :
      program c.tree.sketch = spellingsOf c.tokens.dropLast := by
    obtain ⟨htokens, s, hparse⟩ := parse_of_compile h
    exact program_sketch_of_parse (wellFormed_of_tokenize htokens) hparse
  refine ⟨?_, hprinted h, fun source' c' h' heq => ?_⟩
  · obtain ⟨before, last, hconcat, -⟩ :=
      (wellFormed_of_tokenize (parse_of_compile h).1).exists_concat
    exact ⟨last, by rw [hconcat, List.dropLast_concat]⟩
  · rw [← hprinted h, ← hprinted h', Node.sketch, heq, Node.sketch]

/-- Names and texts that are spelled like labels stay apart, and a dollar sign does not show. -/
theorem program_sketch_like_labels :
    ∃ c c', compile "note Block $= \"Paren\";\nBlock = IF((Paren), \"IF\");" = .ok c ∧
      compile "note Block = \"Paren\"; Block $= IF((Paren), \"IF\");" = .ok c' ∧
      program c.tree.sketch =
        [fixed "note", (.identifier, "Block"), fixed "=", (.string, "Paren"), fixed ";",
          (.identifier, "Block"), fixed "=", (.identifier, "IF"), fixed "(", fixed "(",
          (.identifier, "Paren"), fixed ")", fixed ",", (.string, "IF"), fixed ")", fixed ";"] ∧
      c'.tree.unlined = c.tree.unlined ∧
      spellingsOf c'.tokens.dropLast = spellingsOf c.tokens.dropLast := by
  have hfound : (compile "note Block $= \"Paren\";\nBlock = IF((Paren), \"IF\");").map
        (fun c => spellingsOf c.tokens.dropLast) =
      .ok [fixed "note", (.identifier, "Block"), fixed "=", (.string, "Paren"), fixed ";",
        (.identifier, "Block"), fixed "=", (.identifier, "IF"), fixed "(", fixed "(",
        (.identifier, "Paren"), fixed ")", fixed ",", (.string, "IF"), fixed ")", fixed ";"] := by
    decide +kernel
  have hsame : (compile "note Block = \"Paren\"; Block $= IF((Paren), \"IF\");").map
        (·.tree.unlined) =
      (compile "note Block $= \"Paren\";\nBlock = IF((Paren), \"IF\");").map
        (·.tree.unlined) := by
    decide +kernel
  obtain ⟨c, hc, hspelled⟩ := exists_eq_ok_of_map hfound
  rw [hc] at hsame
  obtain ⟨c', hc', htrees⟩ := exists_eq_ok_of_map hsame
  obtain ⟨-, hprinted, hothers⟩ := program_sketch_of_compile hc
  exact ⟨c, c', hc, hc', hprinted.trans hspelled, htrees, hothers _ c' hc' htrees⟩

end DrLang
