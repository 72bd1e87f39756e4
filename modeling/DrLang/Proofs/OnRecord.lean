import DrLang.Proofs.Record.Statement
import DrLang.Compilation

/-!
# The tree and the record agree

Three things tell of the declarations and entry points of a program: its tree, its symbols and
its errors. They tell the same.

- `registers_program`: the rule for programs, for any tables.
- `record_of_compile`: the sources that are compiled.
-/

namespace DrLang

open Parse Node

theorem registers_program (rules : Rules) {s : Parser} (hs : Mirrors s []) :
    Ensures (program rules) s fun tree s' =>
      tree.declared? = none ∧ Registers [] s s' [tree] := by
  have hlevel : ∀ s, Level AnyKind (block rules) s := fun s => level_block fun _ _ => trivial
  refine (registers_allStatementsOf (contained_block rules) hlevel hs).bind fun nodes s₁ h₁ => ?_
  refine (plainly_expect _).enrolls.step h₁ fun _ s₂ h₂ => ?_
  refine ensures_get_bind ((ensures_record _).bind fun _ s₃ hkeeps => ?_)
  have h₃ : Registers [] s s₃ nodes := by
    simpa [Registers] using h₂.trans (hkeeps.adds ⟨rfl, rfl⟩)
  exact (contained_node (by decide) h₃).imp fun _ _ h => ⟨h.1, h.2 []⟩

/-- **One record**: the declarations in the tree of a compilation are its `Declaration` nodes in
document order. Its symbols are those that repeat none of the same name in the same scope; the
others are reported in order, each with the line of the first one of its name in its scope, which
is among the symbols and stands before it. Of the entry points in document order each one but the
first is reported, with the line of the first one. -/
theorem record_of_compile {source : String} {c : Compilation} (h : compile source = .ok c) :
    c.tree.declarations.map Declaration.symbol = listing declared? [c.tree] ∧
      c.symbols = Declaration.counted c.tree.declarations ∧
      c.errors.filter SemanticError.isRedeclaration =
        c.tree.declarations.filterMap Declaration.redeclaration? ∧
      (∀ front d behind first, c.tree.declarations = front ++ d :: behind →
        d.first? = some first → first.name = d.symbol.name ∧ ⟨first, none⟩ ∈ front) ∧
      c.errors.filter SemanticError.isRedefinition =
        redefinitions (listing entryLine? [c.tree]) := by
  obtain ⟨-, s, hparse, hsymbols, herrors⟩ := compile_eq_ok_iff.1 h
  have hstart : Mirrors (.start c.tokens) [] := rfl
  obtain ⟨hroot, hadds⟩ := registers_program .standard hstart c.tree s hparse
  -- The root is no declaration, so the listing begins with what stands below it.
  have hdeclarations : declarationsAmong [] [c.tree] = c.tree.declarations := by
    rw [declarationsAmong_singleton, hroot]
    rfl
  rw [Registers, hdeclarations] at hadds
  refine ⟨?_, ?_, ?_, fun front d behind first hsplit hfirst => ?_, ?_⟩
  · rw [← hdeclarations]
    exact map_symbol_declarationsAmong [] [c.tree]
  · rw [← hsymbols]
    exact hadds.declared
  · rw [← herrors]
    exact hadds.repeated
  · have hcites := cites_declarations [] c.tree
    rw [hsplit] at hcites
    exact hcites.mem hfirst
  · rw [← herrors]
    exact hadds.redefined

/-- Names that are declared again in the same scope and in other ones, and two entry points. -/
def repeating : String :=
  "file x;\nnote x;\nplan MORNING_COFFEE()\x7bCHECKLIST(file i;1;i++)\x7b\nfile i;\nnote i;\x7d" ++
    "\x7d\nplan MORNING_COFFEE()\x7b\x7d"

/-- The last `i` repeats the one of the block, not the one of the header around it. -/
theorem record_of_repeating :
    ∃ c, compile repeating = .ok c ∧
      Declaration.counted c.tree.declarations =
        [⟨"x", .file, 1⟩, ⟨"i", .file, 3⟩, ⟨"i", .file, 4⟩] ∧
      c.tree.declarations.filterMap Declaration.redeclaration? =
        [⟨2, .redeclaration "x" 1⟩, ⟨5, .redeclaration "i" 4⟩] ∧
      redefinitions (listing entryLine? [c.tree]) = [⟨6, .entryPointRedefined 3⟩] := by
  have hrun : (compile repeating).map (fun c => (c.symbols, c.errors)) =
      .ok ([⟨"x", .file, 1⟩, ⟨"i", .file, 3⟩, ⟨"i", .file, 4⟩],
        [⟨2, .redeclaration "x" 1⟩, ⟨5, .redeclaration "i" 4⟩, ⟨6, .entryPointRedefined 3⟩]) := by
    decide +kernel
  obtain ⟨c, hc, hfound⟩ := exists_eq_ok_of_map hrun
  obtain ⟨hsymbols, herrors⟩ := Prod.mk.inj hfound
  obtain ⟨-, hcounted, hrepeated, -, hredefined⟩ := record_of_compile hc
  rw [herrors] at hrepeated hredefined
  exact ⟨c, hc, hcounted.symm.trans hsymbols, hrepeated.symm, hredefined.symm⟩

end DrLang
