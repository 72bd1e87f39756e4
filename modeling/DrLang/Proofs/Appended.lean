import DrLang.Compilation
import DrLang.Proofs.Inert
import DrLang.Proofs.Seam

/-!
# Programs one behind the other

Two programs with a line feed between them are a program. The first one is compiled as it is by
itself; the second one finds its tokens on later lines and the names of the first one in scope, so
that it has the same shape and labels, and may have other types and errors.

- `Node.Raised`: a tree on later lines, with other types.
- `Likeness.raised`: tokens on later lines, after any notes.
- `Steps.exists_raised`: statements on later lines.
- `compile_append`: two programs one behind the other.
-/

namespace DrLang

open Parse

/-! ### Later lines -/

/-- The second tree has the shape and the labels of the first one, `n` lines further down. -/
inductive Node.Raised (n : Nat) : Node → Node → Prop where
  | intro {c d : Node} : d.label = c.label → d.line = c.line + n →
      List.Forall₂ (Raised n) c.children d.children → Raised n c d

/-- The same tokens `n` lines further down, whatever was noted before. -/
def Likeness.raised (n : Nat) : Likeness :=
  Guise.likeness
    { token := fun t u => u = t.raise n
      label := Eq
      line := fun l l' => l' = l + n
      kind_eq := by rintro t _ rfl; rfl
      line_token := by rintro t _ rfl; rfl
      label_literal := by rintro t _ rfl; rfl
      label_call := by rintro t _ rfl; rfl
      label_attach := by rintro t _ rfl; rfl
      label_construct := fun _ _ => rfl }

theorem Likeness.raised_of_nodes {n : Nat} {ns ms : List Node} (h : (raised n).nodes ns ms) :
    List.Forall₂ (Node.Raised n) ns ms := by
  have hraised : (raised n).Passes (Node.Raised n) :=
    fun _ _ hlabel _ hline hchildren => .intro hlabel.symm hline hchildren
  exact hraised.rel_of_nodes ns ms h

/-- Statements up to the end of the input are parsed on later lines and after other notes, too. -/
theorem Steps.exists_raised {n n' : Notes} {X : List Token} {line : Nat} {ns : List Node}
    (h : Steps (n.facing X line) ns (n'.facing [] line)) (m : Notes) (k line' : Nat) :
    ∃ (ms : List Node) (m' : Notes),
      Steps (m.facing (X.map (Token.raise k)) line') ms (m'.facing [] line') ∧
        List.Forall₂ (Node.Raised k) ns ms := by
  have htokens : List.Forall₂ (Likeness.raised k).token X (X.map (Token.raise k)) :=
    List.forall₂_map_right_iff.2 (List.forall₂_same.2 fun _ _ => rfl)
  obtain ⟨ms, m', hsteps, -, hnodes⟩ :=
    h.carry (m := m) (Y := []) htokens trivial (by rintro _ ⟨⟩) line'
  rw [List.append_nil] at hsteps
  exact ⟨ms, m', hsteps, Likeness.raised_of_nodes hnodes⟩

/-! ### Token lists of programs -/

theorem start_closed (X : List Token) (line : Nat) :
    Parser.start (X ++ [.endOfInput line]) = Notes.blank.facing X line :=
  rfl

/-- Statements behind those of a program, on later lines. -/
theorem parse_append {A B : List Token} {n last : Nat} (hA : ∀ t ∈ A, t.kind ≠ .eof)
    (hB : ∀ t ∈ B, t.kind ≠ .eof) {treeA treeB : Node} {pA pB : Parser}
    (hparseA : parse (A ++ [.endOfInput n]) = (.ok treeA, pA))
    (hparseB : parse (B ++ [.endOfInput last]) = (.ok treeB, pB)) :
    ∃ later symbols errors p,
      parse (A ++ B.map (Token.raise n) ++ [.endOfInput (last + n)]) =
        (.ok (.group "Program" 0 (treeA.children ++ later)), p) ∧
      p.symbols.declared = pA.symbols.declared ++ symbols ∧
      p.diagnostics = pA.diagnostics ++ errors ∧
      List.Forall₂ (Node.Raised n) treeB.children later := by
  obtain ⟨cA, nA, hstepsA, rfl, hsymbolsA, hdiagnosticsA⟩ :=
    exists_steps_of_start (start_closed A n) hA hparseA
  obtain ⟨cB, nB, hstepsB, rfl, -, -⟩ := exists_steps_of_start (start_closed B last) hB hparseB
  -- B's statements go through unchanged behind A's notes, every line raised by n.
  obtain ⟨later, m, hlater, hraised⟩ := hstepsB.exists_raised nA n (last + n)
  -- No statement of B begins with REJECT, so no alternative at the end of A takes it in.
  have hsteps := (hstepsA.before hlater.unattached (last + n)).append hlater
  obtain ⟨p, hparse, hsymbols, hdiagnostics⟩ := parse_of_steps (start_closed _ _) hsteps
  obtain ⟨⟨errors, herrors⟩, symbols, hdeclared⟩ := hlater.exists_added
  refine ⟨later, symbols, errors, p, hparse, ?_, ?_, hraised⟩
  · rw [hsymbols, hdeclared, hsymbolsA]
  · rw [hdiagnostics, herrors, hdiagnosticsA]

/-! ### Sources -/

/-- **Appending a program**: where two sources are compiled, so is the first one with a line feed
and the second one behind it. The statements of the first one come out as they are, and those of
the second one with the same labels and the same shape on later lines; what the first one declares
and reports comes first. -/
theorem compile_append {a b : String} {ca cb : Compilation} (ha : compile a = .ok ca)
    (hb : compile b = .ok cb) :
    ∃ front n later symbols errors, ca.tokens = front ++ [.endOfInput n] ∧
      compile (a ++ "\n" ++ b) = .ok
        { tokens := front ++ cb.tokens.map (Token.raise n)
          tree := .group "Program" 0 (ca.tree.children ++ later)
          symbols := ca.symbols ++ symbols
          errors := ca.errors ++ errors } ∧
      List.Forall₂ (Node.Raised n) cb.tree.children later := by
  obtain ⟨htokensA, pA, hparseA, hsymbolsA, herrorsA⟩ := compile_eq_ok_iff.1 ha
  obtain ⟨htokensB, pB, hparseB, -, -⟩ := compile_eq_ok_iff.1 hb
  obtain ⟨A, n, hA, hbeforeA⟩ := (wellFormed_of_tokenize htokensA).exists_concat
  obtain ⟨B, last, hB, hbeforeB⟩ := (wellFormed_of_tokenize htokensB).exists_concat
  rw [hA] at htokensA hparseA
  -- A's closing token goes; B's, raised, closes the whole.
  have htokens := tokenize_seam htokensA htokensB
  rw [hB] at hparseB
  obtain ⟨later, symbols, errors, p, hparse, hsymbols, herrors, hraised⟩ :=
    parse_append hbeforeA hbeforeB hparseA hparseB
  have hraise : A ++ cb.tokens.map (Token.raise n) =
      A ++ B.map (Token.raise n) ++ [.endOfInput (last + n)] := by
    rw [hB, List.map_append, List.append_assoc]
    rfl
  refine ⟨A, n, later, symbols, errors, hA, compile_eq_ok_iff.2 ⟨htokens, p, ?_, ?_, ?_⟩, hraised⟩
  · rw [hraise]
    exact hparse
  · rw [hsymbols, hsymbolsA]
  · rw [herrors, herrorsA]

/-- A declaration, and an attached name with a comment behind it. -/
def attaching : String := "file x;\n#ATTACH x // all"

/-- Behind it, what was an undeclared name is one of the wrong type. -/
theorem attaching_append_assignment :
    ∃ ca cb c later, compile attaching = .ok ca ∧ compile "x = \"a\";" = .ok cb ∧
      compile (attaching ++ "\n" ++ "x = \"a\";") = .ok c ∧
      cb.errors = [⟨1, .undeclared "x"⟩] ∧
      c.errors = [⟨3, .typeMismatch .assignment "x" .file .string⟩] ∧
      c.tree.children = ca.tree.children ++ later ∧
      List.Forall₂ (Node.Raised 2) cb.tree.children later := by
  have hfront : (compile attaching).map (fun c => (c.tokens.getLast?, c.errors)) =
      .ok (some (.endOfInput 2), []) := by
    decide +kernel
  have hbehind : (compile "x = \"a\";").map Compilation.errors = .ok [⟨1, .undeclared "x"⟩] := by
    decide +kernel
  have hwhole : (compile (attaching ++ "\n" ++ "x = \"a\";")).map Compilation.errors =
      .ok [⟨3, .typeMismatch .assignment "x" .file .string⟩] := by
    decide +kernel
  obtain ⟨ca, ha, hca⟩ := exists_eq_ok_of_map hfront
  obtain ⟨cb, hb, herrors⟩ := exists_eq_ok_of_map hbehind
  obtain ⟨front, n, later, symbols, errors, htokens, hc, hraised⟩ := compile_append ha hb
  rw [hc] at hwhole
  obtain ⟨hlast, -⟩ := Prod.mk.inj hca
  rw [htokens, List.getLast?_concat] at hlast
  obtain rfl : n = 2 := congrArg Token.line (Option.some.inj hlast)
  exact ⟨ca, cb, _, later, ha, hb, hc, herrors, Except.ok.inj hwhole, rfl, hraised⟩

end DrLang
