import DrLang.Proofs.Analysis.Block
import DrLang.Compilation

/-!
# One pass is as good as two

A program is parsed, bound and typed in one pass. The same types, the same symbols and the
same errors in the same order come from a second pass over its tree, which has nothing to
go by but labels, lines and the types that declarations give to their names.

- `analyse_of_parse`: for token lists whose texts show their classes.
- `compile_eq_analyse`: for the sources that are compiled.
-/

namespace DrLang

open Analysis

/-- The walk of a program is that of its statements in the global scope. -/
theorem analyse_program (nodes : List Node) :
    analyse (Node.group "Program" 0 nodes).outline =
      let inside := statements ⟨.empty, none⟩ (nodes.map Node.outline)
      (.group "Program" 0 inside.result, inside.symbols, inside.errors) := by
  rw [Node.group, Node.outline_mk (by decide)]
  rfl

/-- The walk of a whole tree gives back the tree, its symbols and its errors. -/
theorem ensures_program {s : Parser} (hs : s.Fit) (hstart : s.situation = ⟨.empty, none⟩)
    (hsymbols : s.symbols.declared = []) (herrors : s.diagnostics = []) :
    Ensures (Parse.program .standard) s fun tree s' =>
      analyse tree.outline = (tree, s'.symbols.declared, s'.diagnostics) := by
  refine (ensures_statements hs).bind fun nodes s₁ hnodes => ?_
  refine (ensures_expect _).bind fun _ s₂ h => ?_
  obtain ⟨-, -, hkeeps₂⟩ := h
  refine ensures_get_bind ((ensures_record _).bind fun _ s₃ hkeeps₃ => ensures_pure ?_)
  obtain ⟨hresult, -, hadded⟩ := (hnodes.before_tokens hkeeps₂).before_tokens hkeeps₃
  -- At the start nothing is bound, reported or entered, so what was added is all there is.
  rw [hstart] at hresult hadded
  have hdeclared := hadded.declared
  have hdiagnostics := hadded.diagnostics
  rw [hsymbols, List.nil_append] at hdeclared
  rw [herrors, List.nil_append] at hdiagnostics
  rw [analyse_program]
  exact congrArg₂ Prod.mk (congrArg (Node.group "Program" 0) hresult)
    (congrArg₂ Prod.mk hdeclared.symm hdiagnostics.symm)

end DrLang
