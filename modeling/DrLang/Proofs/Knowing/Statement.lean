import DrLang.Proofs.Knowing.Expression
import DrLang.Proofs.SyntaxAlone
import DrLang.Compilation

/-!
# Unknown types of programs

No name is ever declared with an unknown type, so what is said of the types of expressions holds
wherever a parse may come to one: no error is ever reported because of another one, and where
nothing is reported at all, nothing but calls leaves a type unknown.

- `Parse.Tells`: a step that reports nothing because of an unknown type, and leaves nothing
  unknown but for calls as long as it reports nothing.
- `tells_declaration`, `tells_simple`, `tells_checkOf`, ...: a rule each.
- `Builds.tells`: all parsing functions.
- `unknown_iff_reported_or_called`: whole programs.
-/

namespace DrLang

open Parse

/-- From all states without names of unknown types, nothing is reported because of an unknown type
and no such name is declared. If the step succeeds and reports nothing, its result satisfies `P`. -/
def Parse.Tells {α : Type} (before : List SemanticError) (p : Parse α) (P : α → Prop) : Prop :=
  ∀ s, s.Knows before → Upholds (Parser.Knows before) p s fun a s' =>
    ∃ errors, s'.diagnostics = s.diagnostics ++ errors ∧ (errors = [] → P a)

section Tells

variable {α β : Type} {before : List SemanticError} {p : Parse α} {f : α → Parse β}
  {P Q : α → Prop} {R : β → Prop}

namespace Parse.Tells

/-- What the first step says is known behind the second one, if neither reported anything. -/
theorem bind (hp : Tells before p P) (hf : ∀ a, Tells before (f a) fun b => P a → R b) :
    Tells before (p >>= f) R := by
  intro s hs
  refine (hp s hs).bind fun a s₁ hs₁ h => (hf a s₁ hs₁).imp fun b s₂ h' => ?_
  obtain ⟨errors, hdiagnostics, hP⟩ := h
  obtain ⟨errors', hdiagnostics', hR⟩ := h'
  refine ⟨errors ++ errors', ?_, fun hnone => ?_⟩
  · rw [hdiagnostics', hdiagnostics, List.append_assoc]
  · obtain ⟨hnone, hnone'⟩ := List.append_eq_nil_iff.1 hnone
    exact hR hnone' (hP hnone)

theorem imp (hp : Tells before p P) (hPQ : ∀ a, P a → Q a) : Tells before p Q := by
  intro s hs
  refine (hp s hs).imp fun a s₁ h => ?_
  obtain ⟨errors, hdiagnostics, hP⟩ := h
  exact ⟨errors, hdiagnostics, fun hnone => hPQ a (hP hnone)⟩

/-- What takes tokens and reports something says as much. -/
theorem of_spends {I : Parser → α → Parser → Prop}
    (h : ∀ s, s.Knows before → Upholds (Parser.Knows before) p s (I s))
    (hI : ∀ s a s', I s a s' →
      ∃ used errors, Spends s s' used errors ∧ (errors = [] → P a)) :
    Tells before p P := by
  intro s hs
  refine (h s hs).imp fun a s₁ h => ?_
  obtain ⟨used, errors, hspends, hP⟩ := hI s a s₁ h
  exact ⟨errors, hspends.diagnostics, hP⟩

end Parse.Tells

/-! ### Actions -/

theorem tells_pure {a : α} (h : P a) : Tells before (pure a) P :=
  fun _ hs => upholds_pure hs ⟨[], (List.append_nil _).symm, fun _ => h⟩

theorem tells_throw (e : FatalError) : Tells before (throw e : Parse α) P :=
  fun _ hs => ⟨hs, fun _ _ hrun => by simp at hrun⟩

/-- As `tells_throw`. -/
theorem tells_unexpected (expected : Expectation) :
    Tells before (unexpected expected : Parse α) P :=
  fun _ hs => upholds_unexpected expected hs

/-- What only looks at the state. -/
theorem tells_look (hp : ∀ s, ∃ a, p.runFrom s = (.ok a, s)) :
    Tells before p fun _ => True := by
  intro s hs
  obtain ⟨a, hrun⟩ := hp s
  exact .congr (q := pure a) hrun (tells_pure trivial s hs)

theorem tells_currentKind : Tells before currentKind fun _ => True :=
  tells_look fun _ => ⟨_, rfl⟩

theorem tells_peekKind : Tells before peekKind fun _ => True :=
  tells_look fun _ => ⟨_, rfl⟩

theorem tells_advance : Tells before advance fun _ => True :=
  .of_spends (fun _ hs => knows_advance hs) fun _ _ _ h => by
    obtain ⟨used, hspends, -⟩ := h.2.2.exists_used
    exact ⟨used, [], hspends, fun _ => trivial⟩

/-- Taking a token or failing leaves the table and the errors. -/
theorem tells_expect (kind : TokenKind) : Tells before (expect kind) fun _ => True := by
  refine tells_currentKind.bind fun _ => ?_
  split
  · exact tells_advance.imp fun _ _ _ => trivial
  · exact tells_unexpected _

theorem tells_report (line : Nat) (cause : SemanticCause) (hcause : cause.Known) :
    Tells before (report line cause) fun _ => True :=
  .of_spends (fun _ hs => knows_report line cause hcause hs) fun _ _ _ h =>
    ⟨[], _, h.2, fun _ => trivial⟩

/-- If nothing was reported, the name is bound, and to a known type, by `SymbolTable.Known`. -/
theorem tells_boundType? (name : String) (line : Nat) :
    Tells before (boundType? name line) fun type? => type?.getD .unknown ≠ .unknown :=
  .of_spends (fun _ hs => knows_boundType? name line hs) fun _ _ _ h => by
    obtain ⟨-, errors, hspends, htype⟩ := h
    exact ⟨[], errors, hspends, fun hnone hunknown => htype.1 hunknown hnone⟩

theorem tells_resolve (name : String) (line : Nat) :
    Tells before (resolve name line) fun type => type ≠ .unknown :=
  (tells_boundType? name line).bind fun _ => tells_pure id

theorem tells_enterScope : Tells before enterScope fun _ => True :=
  fun s hs => (yields_enterScope s.notes).upholds ⟨hs.symbols.enter, hs.errors⟩
    ⟨[], (List.append_nil _).symm, fun _ => trivial⟩

theorem tells_exitScope : Tells before exitScope fun _ => True :=
  fun s hs => (yields_exitScope s.notes).upholds ⟨hs.symbols.exit, hs.errors⟩
    ⟨[], (List.append_nil _).symm, fun _ => trivial⟩

theorem tells_record (event : Event) : Tells before (record event) fun _ => True :=
  fun s hs => (yields_record s.notes event).upholds ⟨hs.symbols, hs.errors⟩
    ⟨[], (List.append_nil _).symm, fun _ => trivial⟩

/-- A name may be bound to a known type; that another declaration has it already is an error of no
type, so `SemanticCause.Known` asks nothing. -/
theorem tells_bindName (symbol : Symbol) (h : symbol.type ≠ .unknown) :
    Tells before (bindName symbol) fun _ => True := by
  intro s hs
  cases hdeclare : s.notes.symbols.declare symbol with
  | ok t =>
    exact (yields_bindName_of_ok hdeclare).upholds ⟨hs.symbols.declare h hdeclare, hs.errors⟩
      ⟨[], (List.append_nil _).symm, fun _ => trivial⟩
  | error existing =>
    have hreport := hs.report symbol.line (.redeclaration symbol.name existing.line) trivial
    exact (yields_bindName_of_error hdeclare).upholds hreport ⟨_, rfl, fun _ => trivial⟩

theorem tells_noteEntryPoint (line : Nat) : Tells before (noteEntryPoint line) fun _ => True := by
  intro s hs
  cases hentry : s.notes.entryPoint? with
  | none =>
    exact (yields_noteEntryPoint_of_none hentry).upholds ⟨hs.symbols, hs.errors⟩
      ⟨[], (List.append_nil _).symm, fun _ => trivial⟩
  | some previous =>
    have hreport := hs.report line (.entryPointRedefined previous) trivial
    exact (yields_noteEntryPoint_of_some hentry).upholds hreport ⟨_, rfl, fun _ => trivial⟩

/-! ### Values that do not suit -/

/-- A value of an unknown type suits every variable. -/
theorem tells_checkStore (site : StoreSite) (name : Token) (target source : DataType) :
    Tells before (checkStore site name target source) fun _ => True := by
  unfold checkStore
  split
  case isTrue => exact tells_pure trivial
  case isFalse hunsuited =>
    refine tells_report _ (.typeMismatch site name.value target source) ?_
    rintro rfl
    exact hunsuited (Typing.isAssignable_unknown target)

/-- A store is only wrong where the type of the value is known: `isAssignable` lets `unknown` be
stored anywhere. -/
theorem tells_checkStore? (site : StoreSite) (name : Token) (target? : Option DataType)
    (source : DataType) : Tells before (checkStore? site name target? source) fun _ => True := by
  cases target? with
  | none => exact tells_pure trivial
  | some target => exact tells_checkStore site name target source

/-- An unknown type may decide every condition. -/
theorem tells_reportViolation (line : Nat) (construct : String) (type : DataType) :
    Tells before (reportViolation line (Typing.condition construct type)) fun _ => True := by
  rw [condition_eq]
  split
  case isTrue => exact tells_pure trivial
  case isFalse hundecided =>
    refine tells_report _ (.nonBooleanCondition construct type) ?_
    rintro rfl
    exact hundecided rfl

end Tells

/-! ### Expressions -/

section Expressions

variable {before : List SemanticError}

/-- What answers for its types is settled where nothing was reported. -/
theorem Parse.Attentive.tells {p : Parse Typed} (hp : Attentive before p) :
    Tells before p fun e => e.node.Settled :=
  .of_spends hp fun _ _ _ h => by
    obtain ⟨called, errors, hanswers⟩ := h
    obtain ⟨used, hspends, -⟩ := hanswers.passes
    exact ⟨used, errors, hspends, hanswers.settled⟩

/-- Whole expressions, from `attentive_expression`. -/
theorem tells_expression (power : BindingPower) :
    Tells before (expression .standard power) fun e => e.node.Settled :=
  (attentive_expression power).tells

/-- Conditions, from `attentive_condition`. -/
theorem tells_condition : Tells before (condition .standard) fun e => e.node.Settled :=
  attentive_condition.tells

theorem tells_call : Tells before (call .standard) Node.Settled :=
  .of_spends (fun _ hs => knows_callOf attentive_expression hs) fun _ _ _ h => by
    obtain ⟨-, used, errors, hspends, -, hsettled⟩ := h
    exact ⟨used, errors, hspends, hsettled⟩

end Expressions

/-! ### Variables -/

section Statements

variable {before : List SemanticError}

/-- The word of a declaration names a known type. So no symbol is ever of the unknown one, which
is what all of this rests on. -/
theorem ne_unknown_of_keyword {kind : TokenKind} {type : DataType}
    (h : DataType.ofKeyword? kind = some type) : type ≠ .unknown := by
  rintro rfl
  exact absurd (mem_of_ofKeyword? h) (by decide)

theorem tells_skip (kind : TokenKind) : Tells before (skip kind) fun _ => True := by
  refine tells_currentKind.bind fun _ => ?_
  split
  · exact tells_advance.bind fun _ => tells_pure fun _ _ => trivial
  · exact tells_pure fun _ => trivial

theorem tells_storedValue : Tells before (storedValue .standard) fun e => e.node.Settled :=
  (tells_skip _).bind fun _ => (tells_expect _).bind fun _ =>
    (tells_expression .default).imp fun _ h _ _ => h

theorem tells_initializer (name : Token) (type : DataType) :
    Tells before (initializer .standard name type) fun ns => ∀ n ∈ ns, n.Settled := by
  have hvalue : Tells before
      (do
        let value ← storedValue .standard
        checkStore .initialization name type value.type
        return [value.node])
      fun ns => ∀ n ∈ ns, n.Settled :=
    tells_storedValue.bind fun value => (tells_checkStore _ _ _ _).bind fun _ =>
      tells_pure fun _ hsettled => List.forall_mem_singleton.2 hsettled
  refine tells_currentKind.bind fun _ => ?_
  split
  · exact hvalue.imp fun _ h _ => h
  · exact hvalue.imp fun _ h _ => h
  · exact tells_pure fun _ => by simp

/-- A declaration names one of four types, so no name is bound to an unknown one. -/
theorem tells_declaration : Tells before (declaration .standard) Node.Settled := by
  refine tells_advance.bind fun keyword => ?_
  split
  case h_1 => exact tells_throw _
  case h_2 type htype =>
    have hknown := ne_unknown_of_keyword htype
    refine (tells_expect _).bind fun name => ?_
    refine (tells_bindName ⟨name.value, type, name.line⟩ hknown).bind fun _ => ?_
    refine (tells_initializer name type).bind fun values => (tells_expect _).bind fun _ => ?_
    refine tells_pure fun _ hvalues _ _ _ => Node.settled_group ?_
    exact List.forall_mem_cons.2 ⟨Node.settled_leaf hknown, hvalues⟩

/-! ### Statements that begin with a name -/

theorem tells_assignment (site : StoreSite) :
    Tells before (assignment .standard site) Node.Settled := by
  refine tells_advance.bind fun target => (tells_boundType? _ _).bind fun type? => ?_
  refine tells_storedValue.bind fun value => (tells_checkStore? _ _ _ _).bind fun _ => ?_
  refine tells_pure fun _ hvalue htype _ => Node.settled_group ?_
  exact List.forall_mem_cons.2 ⟨Node.settled_leaf htype, List.forall_mem_singleton.2 hvalue⟩

theorem tells_step : Tells before step Node.Settled := by
  refine tells_advance.bind fun target => (tells_resolve _ _).bind fun type => ?_
  refine tells_advance.bind fun operator => tells_pure fun _ htype _ => Node.settled_group ?_
  exact List.forall_mem_singleton.2 (Node.settled_leaf htype)

theorem tells_simple (site : StoreSite) : Tells before (simple .standard site) Node.Settled := by
  refine tells_currentKind.bind fun _ => ?_
  split
  case isFalse => exact tells_unexpected _
  case isTrue =>
    refine tells_peekKind.bind fun _ => ?_
    split
    · exact tells_call.imp fun _ h _ _ => h
    · exact (tells_assignment site).imp fun _ h _ _ => h
    · exact (tells_assignment site).imp fun _ h _ _ => h
    · exact tells_step.imp fun _ h _ _ => h
    · exact tells_step.imp fun _ h _ _ => h
    · exact tells_advance.bind fun _ => tells_unexpected _

theorem tells_simpleStatement : Tells before (simpleStatement .standard) Node.Settled :=
  (tells_simple .assignment).bind fun _ => (tells_expect _).bind fun _ => tells_pure fun _ h => h

/-! ### Output, result and attachment -/

theorem tells_keywordExpression (label : String) :
    Tells before (keywordExpression .standard label) Node.Settled := by
  refine tells_advance.bind fun keyword => (tells_expression .default).bind fun value => ?_
  refine (tells_expect _).bind fun _ => tells_pure fun _ hvalue _ => Node.settled_group ?_
  exact List.forall_mem_singleton.2 hvalue

theorem tells_attach : Tells before attach Node.Settled := by
  refine tells_advance.bind fun keyword => (tells_expect _).bind fun target => ?_
  refine tells_pure fun _ _ => Node.settled_group ?_
  exact List.forall_mem_singleton.2 (Node.settled_leaf (by decide))

/-! ### Control -/

/-- A condition, which is wrong for its construct only where its type is known, by
`Typing.condition`. -/
theorem tells_gate (keyword : Token) : Tells before (gate .standard keyword) Node.Settled :=
  tells_condition.bind fun _ => (tells_reportViolation _ _ _).bind fun _ => tells_pure fun _ h => h

section Body

variable {body : Parse Node} (hbody : Tells before body Node.Settled)
include hbody

theorem tells_checkOf : Tells before (checkOf .standard body) Node.Settled := by
  refine tells_advance.bind fun keyword => (tells_expect _).bind fun _ => ?_
  refine (tells_gate keyword).bind fun decision => (tells_expect _).bind fun _ => ?_
  refine hbody.bind fun block => tells_currentKind.bind fun _ => ?_
  split
  · refine tells_advance.bind fun _ => hbody.bind fun alternative => ?_
    refine tells_pure fun halternative _ _ hblock _ hdecision _ _ => Node.settled_group ?_
    simp [hdecision, hblock, halternative]
  · refine tells_pure fun _ hblock _ hdecision _ _ => Node.settled_group ?_
    simp [hdecision, hblock]

theorem tells_reworkOf : Tells before (reworkOf .standard body) Node.Settled := by
  refine tells_advance.bind fun keyword => (tells_expect _).bind fun _ => ?_
  refine (tells_gate keyword).bind fun decision => (tells_expect _).bind fun _ => ?_
  refine hbody.bind fun block => ?_
  refine tells_pure fun hblock _ hdecision _ _ => Node.settled_group ?_
  simp [hdecision, hblock]

/-- A loop with a counter; its scope is opened and closed in between, which `AllLive.enter` and
`AllLive.exit` allow. -/
theorem tells_checklistOf : Tells before (checklistOf .standard body) Node.Settled := by
  refine tells_advance.bind fun keyword => (tells_expect _).bind fun _ => ?_
  refine tells_enterScope.bind fun _ => tells_currentKind.bind fun _ => ?_
  split
  case isFalse => exact tells_unexpected _
  case isTrue =>
    refine tells_declaration.bind fun counter => (tells_gate keyword).bind fun decision => ?_
    refine (tells_expect _).bind fun _ => (tells_simple .update).bind fun update => ?_
    refine (tells_expect _).bind fun _ => hbody.bind fun block => tells_exitScope.bind fun _ => ?_
    refine tells_pure fun _ hblock _ hupdate _ hdecision hcounter _ _ _ _ => ?_
    refine Node.settled_group ?_
    simp [hcounter, hdecision, hupdate, hblock]

theorem tells_planOf : Tells before (planOf body) Node.Settled := by
  refine tells_advance.bind fun keyword => (tells_expect _).bind fun _ => ?_
  refine (tells_expect _).bind fun _ => (tells_expect _).bind fun _ => ?_
  refine (tells_noteEntryPoint _).bind fun _ => tells_enterScope.bind fun _ => ?_
  refine hbody.bind fun block => tells_exitScope.bind fun _ => ?_
  refine tells_pure fun _ hblock _ _ _ _ _ _ => Node.settled_group ?_
  exact List.forall_mem_singleton.2 hblock

/-! ### Lists and blocks -/

theorem tells_statementOf : Tells before (statementOf .standard body) Node.Settled := by
  refine tells_currentKind.bind fun kind => ?_
  -- Reading the kind tells nothing: what comes next is asked for under `True` alone.
  have behind {p : Parse Node} (hp : Tells before p Node.Settled) :
      Tells before p fun n => True → n.Settled := hp.imp fun _ h _ => h
  split
  · exact tells_unexpected _
  · exact tells_unexpected _
  · exact behind tells_declaration
  · exact behind tells_simpleStatement
  · exact behind (tells_checkOf hbody)
  · exact behind (tells_reworkOf hbody)
  · exact behind (tells_checklistOf hbody)
  · exact behind (tells_keywordExpression _)
  · exact behind (tells_keywordExpression _)
  · exact behind hbody
  · exact behind tells_attach
  · exact behind (tells_planOf hbody)
  · exact behind tells_call

/-- Statements up to the end of a list, by induction on the bound. -/
theorem tells_allStatementsWithin (bound : Nat) :
    Tells before (allStatementsWithin .standard body bound) fun ns => ∀ n ∈ ns, n.Settled := by
  induction bound with
  | zero => exact tells_pure (by simp)
  | succ bound ih =>
    have hlist : Tells before
        (do
          let node ← statementOf .standard body
          let others ← allStatementsWithin .standard body bound
          return node :: others)
        fun ns => ∀ n ∈ ns, n.Settled :=
      (tells_statementOf hbody).bind fun _ => ih.bind fun _ =>
        tells_pure fun hothers hnode => List.forall_mem_cons.2 ⟨hnode, hothers⟩
    intro s hs
    -- The list that catches failures runs as the plain recursion does.
    have hrun := runFrom_allStatementsWithin_succ .standard body bound s
    split at hrun
    · exact .congr (q := pure []) hrun (tells_pure (by simp) s hs)
    · exact .congr hrun (hlist s hs)

/-- As `tells_allStatementsWithin`, with the bound that the tokens left give. -/
theorem tells_allStatementsOf :
    Tells before (allStatementsOf .standard body) fun ns => ∀ n ∈ ns, n.Settled :=
  fun s hs => .congr (runFrom_allStatementsOf .standard body s)
    (tells_allStatementsWithin hbody _ s hs)

theorem tells_blockOf : Tells before (blockOf .standard body) Node.Settled := by
  refine (tells_expect _).bind fun opening => tells_enterScope.bind fun _ => ?_
  refine (tells_allStatementsOf hbody).bind fun nodes => (tells_expect _).bind fun _ => ?_
  refine tells_exitScope.bind fun _ => ?_
  exact tells_pure fun _ _ hnodes _ _ => Node.settled_group hnodes

end Body

/-! ### The recursion -/

theorem tells_blockWithin (bound : Nat) :
    Tells before (blockWithin .standard bound) Node.Settled := by
  induction bound with
  | zero => exact tells_unexpected _
  | succ bound ih => exact tells_blockOf ih

theorem tells_block : Tells before (block .standard) Node.Settled :=
  fun s hs => .congr (runFrom_remaining_bind s _) (tells_blockWithin _ s hs)

/-- Whole programs; `parsed`, the event at their end, reports nothing. -/
theorem tells_program : Tells before (program .standard) Node.Settled := by
  refine (tells_allStatementsOf tells_block).bind fun nodes => (tells_expect _).bind fun _ => ?_
  refine (tells_look fun s => ⟨s, rfl⟩).bind fun s => (tells_record _).bind fun _ => ?_
  exact tells_pure fun _ _ _ hnodes => Node.settled_group hnodes

end Statements

/-! ### All parsing functions -/

namespace Builds

variable {before : List SemanticError} {α : Type} {p : Parse α} {trees : α → List Node}

/-- All parsing functions, one case for each constructor of `Builds`. -/
theorem tells (h : Builds .standard p trees) :
    Tells before p fun a => ∀ n ∈ trees a, n.Settled := by
  have node {p : Parse Node} (hp : Tells before p Node.Settled) :
      Tells before p fun n => ∀ m ∈ [n], m.Settled :=
    hp.imp fun _ h => List.forall_mem_singleton.2 h
  have typed {p : Parse Typed} (hp : Tells before p fun e => e.node.Settled) :
      Tells before p fun e => ∀ m ∈ [e.node], m.Settled :=
    hp.imp fun _ h => List.forall_mem_singleton.2 h
  cases h with
  | program => exact node tells_program
  | statements => exact tells_allStatementsOf tells_block
  | statement => exact node (tells_statementOf tells_block)
  | declaration => exact node tells_declaration
  | simpleStatement => exact node tells_simpleStatement
  | simple site => exact node (tells_simple site)
  | check => exact node (tells_checkOf tells_block)
  | rework => exact node (tells_reworkOf tells_block)
  | checklist => exact node (tells_checklistOf tells_block)
  | output => exact node (tells_keywordExpression _)
  | submit => exact node (tells_keywordExpression _)
  | block => exact node tells_block
  | attach => exact node tells_attach
  | plan => exact node (tells_planOf tells_block)
  | expression power => exact typed (tells_expression power)
  | condition => exact typed tells_condition
  | call => exact node tells_call

end Builds

/-! ### Unknown types -/

/-- From all states without names of unknown types: the type of an expression that a step parses is
that of its tree. It is unknown if and only if an error was reported meanwhile or there is a call,
be it among the tokens taken or in the tree. -/
def Parse.Explicit (p : Parse Typed) : Prop :=
  ∀ s e s', s.symbols.Known → p.runFrom s = (.ok e, s') →
    e.type = e.node.type ∧ ∃ used errors,
      s.cursor.tokens = used ++ s'.cursor.tokens ∧ s'.diagnostics = s.diagnostics ++ errors ∧
      (e.type = .unknown ↔ errors ≠ [] ∨ CallAmong used) ∧
      (e.type = .unknown ↔ errors ≠ [] ∨ e.node.HasCall)

/-- What `Answers` says, with the tokens taken and the tree beside each other. The errors before
are those of the state. -/
theorem Parse.Attentive.explicit {p : Parse Typed} (hp : ∀ before, Attentive before p) :
    Explicit p := by
  intro s e s' hs hrun
  obtain ⟨called, errors, hanswers⟩ := (hp _ s (Parser.knows_self hs)).ensures e s' hrun
  obtain ⟨used, hspends, hcalled⟩ := hanswers.passes
  have hunknown := hanswers.unknown_iff
  refine ⟨hanswers.type_eq, used, errors, hspends.tokens, hspends.diagnostics, ?_, ?_, ?_⟩
  · rw [hunknown, hcalled]
  · intro htype
    refine or_iff_not_imp_left.2 fun hnone => ?_
    exact (hanswers.settled (not_not.1 hnone)).hasCall (hanswers.type_eq ▸ htype)
  · rintro (hsome | hcall)
    · exact hunknown.2 (.inl hsome)
    · exact hanswers.unknown_of_hasCall hcall

/-- **A type is unknown exactly where something was reported or called**: this holds of expressions
and of conditions, and no name of an unknown type ever comes in sight. So no operator, no value and
no condition is reported because of what was reported already, and where nothing is reported, all
types are known but those of calls and of what has calls in it. -/
theorem unknown_iff_reported_or_called :
    (∀ power, Explicit (expression .standard power)) ∧ Explicit (condition .standard) ∧
    (∀ tokens, (Parser.start tokens).symbols.Known) ∧
    (∀ (α : Type) (p : Parse α) (trees : α → List Node), Builds .standard p trees →
      ∀ s, s.symbols.Known → (p.runFrom s).2.symbols.Known ∧
        ∃ errors, (p.runFrom s).2.diagnostics = s.diagnostics ++ errors ∧
          ∀ e ∈ errors, e.cause.Known) ∧
    ∀ source c, compile source = .ok c → c.errors = [] → c.tree.Settled := by
  refine ⟨fun power => Attentive.explicit fun _ => attentive_expression power,
    Attentive.explicit fun _ => attentive_condition, fun _ => SymbolTable.allLive_empty _, ?_, ?_⟩
  · intro α p trees h s hs
    have hknows := (h.tells s (Parser.knows_self hs)).invariant
    exact ⟨hknows.symbols, hknows.errors⟩
  · intro source c hcompile hclean
    -- No error was there before the program, and none is there behind it.
    obtain ⟨-, s, hparse, -, hdiagnostics⟩ := compile_eq_ok_iff.1 hcompile
    have hknown : (Parser.start c.tokens).symbols.Known := SymbolTable.allLive_empty _
    have hprogram := tells_program _ (Parser.knows_self hknown)
    obtain ⟨errors, herrors, hsettled⟩ := hprogram.ensures c.tree s hparse
    refine hsettled ?_
    rw [hdiagnostics, hclean] at herrors
    exact (List.append_eq_nil_iff.1 herrors.symm).2

/-- A comparison of a product with a name that stands for nothing, behind a declaration. -/
def comparing : Parser where
  cursor := .ofTokens [⟨.identifier, "x", 2⟩, ⟨.star, "*", 2⟩, ⟨.identifier, "y", 2⟩,
    ⟨.less, "<", 3⟩, ⟨.string, "z", 3⟩, ⟨.closeParen, ")", 3⟩]
  symbols := ⟨[⟨"x", .file, 1⟩], [], [⟨"x", .file, 1⟩]⟩
  diagnostics := []
  entryPoint? := none
  log := []

/-- One error leaves the types of all operations around it unknown. A call of a name that stands for
something leaves its type unknown without an error. -/
theorem comparing_unknown :
    comparing.symbols.Known ∧
    (∃ e s', (condition .standard).runFrom comparing = (.ok e, s') ∧
      s'.diagnostics = [⟨2, .undeclared "y"⟩] ∧ e.type = .unknown ∧ e.node.type = .unknown) ∧
    ∃ c, compile "file f = 1;\nSHOW f(2) * 3;" = .ok c ∧ c.errors = [] ∧ c.tree.Settled := by
  obtain ⟨-, hcondition, -, -, hclean⟩ := unknown_iff_reported_or_called
  have hknown : comparing.symbols.Known := by
    simp [SymbolTable.Known, SymbolTable.AllLive, SymbolTable.frames, comparing]
  refine ⟨hknown, ?_, ?_⟩
  · have hfound : (((condition .standard).runFrom comparing).1.isOk,
        ((condition .standard).runFrom comparing).2.diagnostics) =
          (true, [⟨2, .undeclared "y"⟩]) := by
      decide +kernel
    obtain ⟨hok, hreported⟩ := Prod.mk.inj hfound
    rcases hrun : (condition .standard).runFrom comparing with ⟨_ | e, s'⟩
    · simp [hrun, Except.isOk, Except.toBool] at hok
    · rw [hrun] at hreported
      obtain ⟨htype, used, errors, -, hdiagnostics, hunknown, -⟩ :=
        hcondition comparing e s' hknown hrun
      have hsome : errors ≠ [] := by
        rintro rfl
        rw [hdiagnostics] at hreported
        exact absurd hreported (by decide)
      have hresult := hunknown.2 (.inl hsome)
      exact ⟨e, s', rfl, hreported, hresult, htype ▸ hresult⟩
  · have hfound : (compile "file f = 1;\nSHOW f(2) * 3;").map Compilation.errors = .ok [] := by
      decide +kernel
    obtain ⟨c, hc, herrors⟩ := exists_eq_ok_of_map hfound
    exact ⟨c, hc, herrors, hclean _ c hc herrors⟩

end DrLang
