import DrLang.Proofs.Lockstep
import DrLang.Proofs.FirstTokens
import DrLang.Parse.Program

/-!
# Statements in lockstep

The rules for statements, for any parser of a block that goes in lockstep with itself, and then
the recursion.

- `Lockstep.declaration`, `Lockstep.simple`, `Lockstep.checkOf`, ...: a rule each.
- `Lockstep.allStatementsWithin`: the statements of a list.
- `Lockstep.block`, `Lockstep.statement`, `Lockstep.statements`: the recursion.
- `Lockstep.program`: whole programs.
-/

namespace DrLang

open Parse

namespace Lockstep

variable {K : Kinship} {s t : Parser}

/-! ### Variables -/

theorem skip (kind : TokenKind) :
    Lockstep K (fun _ _ => True) (skip kind) (skip kind) s t := by
  refine currentKind_bind ?_
  split
  case isTrue => exact fun habreast => ⟨.ok trivial, habreast.advance⟩
  case isFalse => exact pure trivial

theorem storedValue :
    Lockstep K K.expression (storedValue .standard) (storedValue .standard) s t :=
  (skip _).bind fun _ _ _ _ _ => (expect _).bind fun _ _ _ _ _ => expression .default

section Name

variable {name name' : Token} (hname : K.token name name') (hkind : name.kind = .identifier)
include hname hkind

/-- The value of a declaration, or none. It is checked against the type of the keyword, which is
the same on both sides, by `Kinship.store`. -/
theorem initializer {kind : TokenKind} {type : DataType}
    (htype : DataType.ofKeyword? kind = some type) :
    Lockstep K (List.Forall₂ K.node) (initializer .standard name type)
      (initializer .standard name' type) s t := by
  have hvalue : Lockstep K (List.Forall₂ K.node)
      (do
        let value ← Parse.storedValue .standard
        checkStore .initialization name type value.type
        return [value.node])
      (do
        let value ← Parse.storedValue .standard
        checkStore .initialization name' type value.type
        return [value.node]) s t := by
    refine storedValue.bind fun value value' _ _ h => ?_
    have hstore := K.store .initialization hname hkind (K.type?_some (K.type_keyword htype)) h.2
    exact (silent hstore).bind fun _ _ _ _ _ => pure (.cons h.1 .nil)
  refine currentKind_bind ?_
  split
  · exact hvalue
  · exact hvalue
  · exact pure .nil

end Name

/-- Declarations. The name is bound before its value is parsed, so `Kinship.binding` comes before
`initializer`. -/
theorem declaration :
    Lockstep K K.node (declaration .standard) (declaration .standard) s t := by
  refine advance.bind fun keyword keyword' _ _ hkeyword => ?_
  rw [← K.kind_eq hkeyword.1]
  split
  case h_1 => exact throw .declaration hkeyword.1
  case h_2 type htype =>
    refine (expect _).bind fun name name' _ _ hname => ?_
    refine (silent (K.binding hname.1 hname.2 htype)).bind fun _ _ _ _ _ => ?_
    refine (initializer hname.1 hname.2 htype).bind fun value value' _ _ hvalue => ?_
    refine (expect _).bind fun _ _ _ _ _ => pure ?_
    have hleaf := K.name hname.1 hname.2 (K.type_keyword htype)
    exact K.group (by decide) hname.1 (.cons hleaf hvalue)

/-! ### Statements that begin with a name -/

/-- Assignments: `Kinship.bound` for the name, then the value, then `Kinship.store` for the check
of both, in this order. -/
theorem assignment (site : StoreSite) (hkind : s.cursor.current.kind = .identifier) :
    Lockstep K K.node (assignment .standard site) (assignment .standard site) s t := by
  refine advance.bind fun target target' _ _ h => ?_
  have hname : target.kind = .identifier := h.2 ▸ hkind
  refine (silent (K.bound h.1 hname)).bind fun type? type?' _ _ htype => ?_
  refine storedValue.bind fun value value' _ _ hvalue => ?_
  refine (silent (K.store site h.1 hname htype hvalue.2)).bind fun _ _ _ _ _ => pure ?_
  have htarget := K.name h.1 hname (K.type_getD htype)
  exact K.group (by decide) h.1 (.cons htarget (.cons hvalue.1 .nil))

/-- Steps up and down. The class of the operator, which is the same on both sides, decides the
label. -/
theorem step (hkind : s.cursor.current.kind = .identifier) : Lockstep K K.node step step s t := by
  refine advance.bind fun target target' _ _ h => ?_
  have hname : target.kind = .identifier := h.2 ▸ hkind
  refine (silent (K.respects_resolve h.1 hname)).bind fun type type' _ _ htype => ?_
  refine advance.bind fun operator operator' _ _ hoperator => ?_
  have htarget := K.name h.1 hname htype
  rw [← K.kind_eq hoperator.1]
  refine pure (K.group ?_ h.1 (.cons htarget .nil))
  split <;> decide

/-- The token behind the name decides which of the three statements it is, on both sides alike:
`peekKind_bind`. -/
theorem simple (site : StoreSite) :
    Lockstep K K.node (simple .standard site) (simple .standard site) s t := by
  refine currentKind_bind ?_
  split
  case isTrue hkind =>
    refine peekKind_bind ?_
    split
    · exact call
    · exact assignment site hkind
    · exact assignment site hkind
    · exact step hkind
    · exact step hkind
    · exact advance.bind fun _ _ _ _ _ => unexpected _
  case isFalse => exact unexpected _

theorem simpleStatement :
    Lockstep K K.node (simpleStatement .standard) (simpleStatement .standard) s t :=
  (simple .assignment).bind fun _ _ _ _ hnode => (expect _).bind fun _ _ _ _ _ => pure hnode

/-! ### Output, result and attachment -/

/-- The statements of `output` and `submit`, whose `label` is the only difference. -/
theorem keywordExpression {label : String} (hlabel : label ∈ constructLabels) :
    Lockstep K K.node (keywordExpression .standard label) (keywordExpression .standard label)
      s t := by
  refine advance.bind fun keyword keyword' _ _ hkeyword => ?_
  refine (expression .default).bind fun value value' _ _ hvalue => ?_
  exact (expect _).bind fun _ _ _ _ _ => pure (K.group hlabel hkeyword.1 (.cons hvalue.1 .nil))

/-- Attachments, by `Kinship.attached`. -/
theorem attach : Lockstep K K.node attach attach s t := by
  refine advance.bind fun keyword keyword' _ _ hkeyword => ?_
  refine (expect _).bind fun target target' _ _ h => pure ?_
  exact K.group (by decide) hkeyword.1 (.cons (K.attached h.1 h.2) .nil)

/-! ### Control -/

/-- The condition of a construct, whose name is the text of its word: `keyword` is where that text
is asked for. -/
theorem gate {keyword keyword' : Token} (htoken : K.token keyword keyword')
    (hkeyword : K.keyword keyword) :
    Lockstep K K.node (gate .standard keyword) (gate .standard keyword') s t := by
  refine condition.bind fun e e' _ _ he => ?_
  exact (silent (K.violation htoken hkeyword he.1 he.2)).bind fun _ _ _ _ _ => pure he.1

section Body

variable {body : Parse Node} (hbody : ∀ s t, Lockstep K K.node body body s t)
include hbody

/-- A branch. Whether it has an alternative is seen behind its block, from the current token; both
ways end in `Kinship.group`. -/
theorem checkOf (hkeyword : K.keyword s.cursor.current) :
    Lockstep K K.node (checkOf .standard body) (checkOf .standard body) s t := by
  refine advance.bind fun keyword keyword' _ _ h => (expect _).bind fun _ _ _ _ _ => ?_
  refine (gate h.1 (h.2 ▸ hkeyword)).bind fun decision decision' _ _ hdecision => ?_
  refine (expect _).bind fun _ _ _ _ _ => (hbody _ _).bind fun block block' _ _ hblock => ?_
  refine currentKind_bind ?_
  split
  · refine advance.bind fun _ _ _ _ _ => (hbody _ _).bind fun _ _ _ _ halternative => pure ?_
    exact K.group (by decide) h.1 (.cons hdecision (.cons hblock (.cons halternative .nil)))
  · exact pure (K.group (by decide) h.1 (.cons hdecision (.cons hblock .nil)))

theorem reworkOf (hkeyword : K.keyword s.cursor.current) :
    Lockstep K K.node (reworkOf .standard body) (reworkOf .standard body) s t := by
  refine advance.bind fun keyword keyword' _ _ h => (expect _).bind fun _ _ _ _ _ => ?_
  refine (gate h.1 (h.2 ▸ hkeyword)).bind fun decision decision' _ _ hdecision => ?_
  refine (expect _).bind fun _ _ _ _ _ => (hbody _ _).bind fun block block' _ _ hblock => pure ?_
  exact K.group (by decide) h.1 (.cons hdecision (.cons hblock .nil))

/-- A loop with a counter, whose scope is opened before the counter and closed behind the block.
-/
theorem checklistOf (hkeyword : K.keyword s.cursor.current) :
    Lockstep K K.node (checklistOf .standard body) (checklistOf .standard body) s t := by
  refine advance.bind fun keyword keyword' _ _ h => (expect _).bind fun _ _ _ _ _ => ?_
  refine (silent K.enter).bind fun _ _ _ _ _ => currentKind_bind ?_
  split
  case isFalse => exact unexpected _
  case isTrue =>
    refine declaration.bind fun counter counter' _ _ hcounter => ?_
    refine (gate h.1 (h.2 ▸ hkeyword)).bind fun decision decision' _ _ hdecision => ?_
    refine (expect _).bind fun _ _ _ _ _ => ?_
    refine (simple .update).bind fun update update' _ _ hupdate => ?_
    refine (expect _).bind fun _ _ _ _ _ => (hbody _ _).bind fun block block' _ _ hblock => ?_
    refine (silent K.exit).bind fun _ _ _ _ _ => pure ?_
    exact K.group (by decide) h.1
      (.cons hcounter (.cons hdecision (.cons hupdate (.cons hblock .nil))))

/-- The entry point, noted by `Kinship.entryPoint` behind its parentheses and before its scope is
opened. -/
theorem planOf : Lockstep K K.node (planOf body) (planOf body) s t := by
  refine advance.bind fun keyword keyword' _ _ hkeyword => ?_
  refine (expect _).bind fun _ _ _ _ _ => (expect _).bind fun _ _ _ _ _ => ?_
  refine (expect _).bind fun _ _ _ _ _ => ?_
  refine (silent (K.entryPoint hkeyword.1)).bind fun _ _ _ _ _ => ?_
  refine (silent K.enter).bind fun _ _ _ _ _ => (hbody _ _).bind fun block block' _ _ hblock => ?_
  refine (silent K.exit).bind fun _ _ _ _ _ => pure ?_
  exact K.group (by decide) hkeyword.1 (.cons hblock .nil)

/-! ### Lists and blocks -/

/-- One statement, by the row of the table that both sides take. The heads of a row tell that the
three words of `keyword_of_kind` are meant. -/
theorem statementOf :
    Lockstep K K.node (statementOf .standard body) (statementOf .standard body) s t := by
  refine currentKind_bind ?_
  -- The keyword of a condition must be one of these three words.
  have keyword {rule : StatementRule}
      (hrule : Rules.standard.statement? s.cursor.current.kind = some rule)
      (hheads : Grammar.statementHeads rule ⊆ [.check, .rework, .checklist]) :
      K.keyword s.cursor.current :=
    K.keyword_of_kind (hheads (Grammar.mem_statementHeads hrule))
  split
  case h_1 => exact unexpected _
  case h_2 => exact unexpected _
  case h_3 => exact declaration
  case h_4 => exact simpleStatement
  case h_5 hrule => exact checkOf hbody (keyword hrule (by decide))
  case h_6 hrule => exact reworkOf hbody (keyword hrule (by decide))
  case h_7 hrule => exact checklistOf hbody (keyword hrule (by decide))
  case h_8 => exact keywordExpression (by decide)
  case h_9 => exact keywordExpression (by decide)
  case h_10 => exact hbody s t
  case h_11 => exact attach
  case h_12 => exact planOf hbody
  case h_13 => exact call

/-- Statements up to the end of a list, by induction on `bound`; both sides see the end of the
list at the same time, since `kind_eq` says so of their current tokens. -/
theorem allStatementsWithin (bound : Nat) :
    Lockstep K (List.Forall₂ K.node) (allStatementsWithin .standard body bound)
      (allStatementsWithin .standard body bound) s t := by
  induction bound generalizing s t with
  | zero => exact pure .nil
  | succ bound ih =>
    refine of_token fun htoken => ?_
    have hrun := runFrom_allStatementsWithin_succ .standard body bound s
    have hrun' := runFrom_allStatementsWithin_succ .standard body bound t
    rw [← K.kind_eq htoken] at hrun'
    -- Both runs stop at the same kind of token.
    by_cases hclosed : s.cursor.current.kind = .eof ∨ s.cursor.current.kind = .closeCurly
    · rw [if_pos hclosed] at hrun hrun'
      exact congr hrun hrun' (pure .nil)
    · rw [if_neg hclosed] at hrun hrun'
      refine congr hrun hrun' ?_
      exact (statementOf hbody).bind fun _ _ _ _ hnode => ih.bind fun _ _ _ _ hothers =>
        pure (.cons hnode hothers)

/-- As `allStatementsWithin`, with the bound that the tokens left give. -/
theorem allStatementsOf :
    Lockstep K (List.Forall₂ K.node) (allStatementsOf .standard body)
      (allStatementsOf .standard body) s t := by
  intro habreast
  have hwithin := allStatementsWithin hbody (s.cursor.remaining + 1) habreast
  rw [runFrom_allStatementsOf, runFrom_allStatementsOf, habreast.remaining]
  exact hwithin

/-- A block, with the scope that it opens behind its brace, by `Kinship.enter`, and closes behind
its end, by `Kinship.exit`. -/
theorem blockOf : Lockstep K K.node (blockOf .standard body) (blockOf .standard body) s t := by
  refine (expect _).bind fun opening opening' _ _ hopening => ?_
  refine (silent K.enter).bind fun _ _ _ _ _ => ?_
  refine (allStatementsOf hbody).bind fun nodes nodes' _ _ hnodes => ?_
  refine (expect _).bind fun _ _ _ _ _ => (silent K.exit).bind fun _ _ _ _ _ => pure ?_
  exact K.group (by decide) hopening.1 hnodes

end Body

/-! ### The recursion -/

theorem blockWithin (bound : Nat) :
    Lockstep K K.node (blockWithin .standard bound) (blockWithin .standard bound) s t := by
  induction bound generalizing s t with
  | zero => exact unexpected _
  | succ bound ih => exact blockOf fun s t => ih

theorem block : Lockstep K K.node (block .standard) (block .standard) s t :=
  remaining_bind (blockWithin _)

/-- One statement goes in lockstep, with blocks of any depth inside it: `statementOf` over
`block`. -/
theorem statement : Lockstep K K.node (statement .standard) (statement .standard) s t :=
  statementOf fun _ _ => block

theorem statements :
    Lockstep K (List.Forall₂ K.node) (Parse.allStatementsOf .standard (Parse.block .standard))
      (Parse.allStatementsOf .standard (Parse.block .standard)) s t :=
  allStatementsOf fun _ _ => block

/-- What is logged at the end of a program depends on what was reported. -/
theorem program
    (hparsed : ∀ count : Nat, Respects K.notes (fun _ _ => True)
      (do record (.parsed count (← get).diagnostics.length))
      (do record (.parsed count (← get).diagnostics.length))) :
    Lockstep K
      (fun n m => ∃ ns ms, List.Forall₂ K.node ns ms ∧ n = .group "Program" 0 ns ∧
        m = .group "Program" 0 ms)
      (program .standard) (program .standard) s t := by
  refine statements.bind fun ns ms _ _ hnodes => (expect _).bind fun _ _ _ _ _ => ?_
  rw [← hnodes.length_eq]
  exact (silent (hparsed ns.length)).bind fun _ _ _ _ _ => pure ⟨ns, ms, hnodes, rfl, rfl⟩

end Lockstep

end DrLang
