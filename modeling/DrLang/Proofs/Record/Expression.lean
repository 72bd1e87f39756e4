import DrLang.Proofs.Record
import DrLang.Proofs.Ensures

/-!
# Expressions have nothing on record

In an expression names are used and none is declared, and the errors of uses are of other kinds.
The same goes for the statements that bind nothing.

- `Adds`: what is recorded between two states.
- `Plainly`: a step that records nothing, and whose trees have nothing on record.
- `plainly_expression`, `plainly_condition`, ...: the rules for expressions, for any tables.
- `plainly_simple`, `plainly_gate`, ...: those for the statements that bind nothing.
-/

namespace DrLang

open Parse Node

/-! ### What is recorded -/

/-- Between two states declarations are met, and entry points on some lines. Those declarations
that repeat none are recorded and the others reported; the first entry point is noted and the
others reported. -/
structure Adds (s s' : Parser) (ds : List Declaration) (lines : List Nat) : Prop where
  declared : s'.symbols.declared = s.symbols.declared ++ Declaration.counted ds
  repeated : s'.diagnostics.filter SemanticError.isRedeclaration =
    s.diagnostics.filter SemanticError.isRedeclaration ++ ds.filterMap Declaration.redeclaration?
  entryPoint : s'.entryPoint? = (s.entryPoint?.toList ++ lines).head?
  redefined : s'.diagnostics.filter SemanticError.isRedefinition =
    s.diagnostics.filter SemanticError.isRedefinition ++
      redefinitions (s.entryPoint?.toList ++ lines)

/-- Errors of other kinds. -/
def Incidental (errors : List SemanticError) : Prop :=
  errors.filter SemanticError.isRedeclaration = [] ∧ errors.filter SemanticError.isRedefinition = []

section Adds

variable {s s' s'' : Parser} {ds ds' : List Declaration} {lines lines' : List Nat}
  {errors : List SemanticError}

/-- Two steps in turn. The entry point is the first of all lines, so `redefinitions` of the second
step is counted from the first. -/
theorem Adds.trans (h : Adds s s' ds lines) (h' : Adds s' s'' ds' lines') :
    Adds s s'' (ds ++ ds') (lines ++ lines') where
  declared := by rw [h'.declared, h.declared, Declaration.counted_append, List.append_assoc]
  repeated := by rw [h'.repeated, h.repeated, List.filterMap_append, List.append_assoc]
  entryPoint := by
    rw [h'.entryPoint, h.entryPoint, ← List.append_assoc]
    cases s.entryPoint?.toList ++ lines <;> rfl
  redefined := by
    rw [h'.redefined, h.redefined, h.entryPoint, List.append_assoc, ← redefinitions_append,
      List.append_assoc]

/-- Where no entry point is met, what was noted stays. -/
theorem adds_of_declared
    (hdeclared : s'.symbols.declared = s.symbols.declared ++ Declaration.counted ds)
    (hentry : s'.entryPoint? = s.entryPoint?)
    (hdiagnostics : s'.diagnostics = s.diagnostics ++ errors)
    (hrepeated : errors.filter SemanticError.isRedeclaration =
      ds.filterMap Declaration.redeclaration?)
    (hredefined : errors.filter SemanticError.isRedefinition = []) : Adds s s' ds [] where
  declared := hdeclared
  repeated := by rw [hdiagnostics, List.filter_append, hrepeated]
  entryPoint := by
    rw [hentry, List.append_nil]
    cases s.entryPoint? <;> rfl
  redefined := by
    rw [hdiagnostics, List.filter_append, hredefined]
    cases s.entryPoint? <;> rfl

/-- What binds no name and reports other errors at most records nothing. -/
theorem Keeps.adds (h : Keeps s s' errors) (herrors : Incidental errors) : Adds s s' [] [] :=
  adds_of_declared (by simp [h.symbols, Declaration.counted]) h.entryPoint h.diagnostics herrors.1
    herrors.2

theorem Enters.adds (h : Enters s s') : Adds s s' [] [] :=
  adds_of_declared (by simp [h.symbols, Declaration.counted]) h.entryPoint
    (by rw [h.diagnostics, List.append_nil]) rfl rfl

/-- Closing a frame records nothing; what was declared in it stays in `declared`. -/
theorem Exits.adds (h : Exits s s') : Adds s s' [] [] :=
  adds_of_declared (by simp [h.symbols, Declaration.counted]) h.entryPoint
    (by rw [h.diagnostics, List.append_nil]) rfl rfl

end Adds

/-! ### Steps that record nothing -/

section Plainly

variable {α β : Type} {p : Parse α} {f : α → Parse β} {trees : α → List Node}
  {trees' : β → List Node}

/-- If a step succeeds, nothing is recorded on its way, and the trees in its result have nothing
on record. -/
def Plainly (p : Parse α) (trees : α → List Node) : Prop :=
  ∀ s, Ensures p s fun a s' => Plain (trees a) ∧ Adds s s' [] []

/-- What is known of the `trees` of the first step may be used for the second. -/
theorem Plainly.bind (hp : Plainly p trees) (hf : ∀ a, Plain (trees a) → Plainly (f a) trees') :
    Plainly (p >>= f) trees' := by
  intro s
  refine (hp s).bind fun a s₁ h₁ => (hf a h₁.1 s₁).imp fun b s₂ h₂ => ?_
  exact ⟨h₂.1, h₁.2.trans h₂.2⟩

theorem plainly_pure {a : α} (h : Plain (trees a)) : Plainly (pure a) trees :=
  fun s => ensures_pure ⟨h, (Keeps.refl s).adds ⟨rfl, rfl⟩⟩

theorem plainly_unexpected (expected : Expectation) :
    Plainly (unexpected expected : Parse α) trees :=
  fun _ => ensures_unexpected expected

/-- A step without trees that binds no name and reports other errors at most. -/
theorem plainly_of_keeps (h : ∀ s, Ensures p s fun _ s' => ∃ errors, Keeps s s' errors ∧
    Incidental errors) : Plainly p fun _ => [] :=
  fun s => (h s).imp fun _ _ ⟨_, hkeeps, herrors⟩ => ⟨plain_nil, hkeeps.adds herrors⟩

/-- A step that only looks at the state. -/
theorem plainly_of_looking (h : ∀ s, ∃ a, p.runFrom s = (.ok a, s)) : Plainly p fun _ => [] := by
  intro s a s' hrun
  obtain ⟨a', hlooking⟩ := h s
  obtain ⟨-, rfl⟩ := Prod.mk.inj (hlooking.symm.trans hrun)
  exact ⟨plain_nil, (Keeps.refl s).adds ⟨rfl, rfl⟩⟩

theorem plainly_currentKind : Plainly currentKind fun _ => [] :=
  plainly_of_looking fun s => ⟨_, runFrom_currentKind s⟩

theorem plainly_peekKind : Plainly peekKind fun _ => [] :=
  plainly_of_looking fun s => ⟨_, runFrom_peekKind s⟩

theorem plainly_remaining : Plainly remaining fun _ => [] :=
  plainly_of_looking fun s => ⟨_, runFrom_remaining s⟩

theorem plainly_advance : Plainly advance fun _ => [] :=
  plainly_of_keeps fun _ => ensures_advance.imp fun _ _ h => ⟨[], h.2, rfl, rfl⟩

theorem plainly_expect (kind : TokenKind) : Plainly (expect kind) fun _ => [] :=
  plainly_of_keeps fun _ => (ensures_expect kind).imp fun _ _ h => ⟨[], h.2.2, rfl, rfl⟩

theorem plainly_skip (kind : TokenKind) : Plainly (skip kind) fun _ => [] := by
  refine plainly_currentKind.bind fun k _ => ?_
  split
  · exact plainly_advance.bind fun _ _ => plainly_pure plain_nil
  · exact plainly_pure plain_nil

/-! ### Uses of names and typing rules -/

/-- An error of another kind, if there is one. -/
theorem incidental_ite {c : Prop} [Decidable c] {e : SemanticError} (h : Incidental [e]) :
    Incidental (if c then [] else [e]) := by
  split
  · exact ⟨rfl, rfl⟩
  · exact h

/-- The error of an unknown name is `Incidental`, as are those of the typing rules and the checks
below. -/
theorem plainly_boundType? (name : String) (line : Nat) :
    Plainly (boundType? name line) fun _ => [] :=
  plainly_of_keeps fun _ => (ensures_boundType? name line).imp fun _ _ h =>
    ⟨_, h.2, incidental_ite ⟨rfl, rfl⟩⟩

/-- As `plainly_boundType?`. -/
theorem plainly_resolve (name : String) (line : Nat) : Plainly (resolve name line) fun _ => [] :=
  (plainly_boundType? name line).bind fun _ _ => plainly_pure plain_nil

theorem plainly_arithmetic (line : Nat) (left right : DataType) (operator : String) :
    Plainly (typeOrReport line (Typing.arithmetic left operator right)) fun _ => [] :=
  plainly_of_keeps fun _ =>
    (ensures_typeOrReport line (arithmetic_eq left right operator)).imp fun _ _ h =>
      ⟨_, h.2, incidental_ite ⟨rfl, rfl⟩⟩

theorem plainly_relational (line : Nat) (left right : DataType) (operator : String) :
    Plainly (typeOrReport line (Typing.relational left operator right)) fun _ => [] :=
  plainly_of_keeps fun _ =>
    (ensures_typeOrReport line (relational_eq left right operator)).imp fun _ _ h =>
      ⟨_, h.2, incidental_ite ⟨rfl, rfl⟩⟩

theorem plainly_checkStore (site : StoreSite) (name : Token) (target source : DataType) :
    Plainly (checkStore site name target source) fun _ => [] := by
  refine plainly_of_keeps fun s => ?_
  have hstore := ensures_checkStore site name target source (s := s)
    (o := ⟨name.value, none, name.line, []⟩) rfl rfl
  exact hstore.imp fun _ _ h => ⟨_, h, incidental_ite ⟨rfl, rfl⟩⟩

/-- As `plainly_checkStore`. -/
theorem plainly_checkStore? (site : StoreSite) (name : Token) (target? : Option DataType)
    (source : DataType) : Plainly (checkStore? site name target? source) fun _ => [] := by
  cases target? with
  | none => exact plainly_pure plain_nil
  | some target => exact plainly_checkStore site name target source

theorem plainly_reportViolation (line : Nat) (construct : String) (type : DataType) :
    Plainly (reportViolation line (Typing.condition construct type)) fun _ => [] :=
  plainly_of_keeps fun _ => (ensures_reportViolation line construct type).imp fun _ _ h =>
    ⟨_, h, incidental_ite ⟨rfl, rfl⟩⟩

/-! ### Expressions -/

/-- No call is labelled like a declaration or an entry point. -/
theorem call_notMem (name : String) : "Call " ++ name ∉ recordLabels := by
  intro hmem
  have hcallee : (calleeOf? ("Call " ++ name)).isSome := by rw [calleeOf?_call, Option.isSome_some]
  rcases List.mem_pair.1 hmem with h | h <;> rw [h] at hcallee <;> exact absurd hcallee (by decide)

/-- A literal is a leaf, and `declared?` asks for children, so its text does not matter. -/
theorem plainly_literal : Plainly literal fun e => [e.node] := by
  refine plainly_currentKind.bind fun kind _ => ?_
  split
  · exact plainly_unexpected _
  · exact plainly_advance.bind fun token _ => plainly_pure plain_leaf

end Plainly

section Expressions

variable {inner : BindingPower → Parse Typed}
  (hinner : ∀ power, Plainly (inner power) fun e => [e.node])
include hinner

/-- Arguments, by induction on the bound `m`; `Plain.cons` puts the first one in front of the
others. -/
theorem plainly_argumentsWithin (m : Nat) : Plainly (argumentsWithin inner m) fun ns => ns := by
  induction m with
  | zero => exact plainly_pure plain_nil
  | succ m ih =>
    refine (hinner .default).bind fun argument hargument => ?_
    refine plainly_currentKind.bind fun kind _ => ?_
    split
    · exact plainly_advance.bind fun _ _ => ih.bind fun others hothers =>
        plainly_pure (hargument.cons hothers)
    · exact plainly_pure hargument

theorem plainly_arguments : Plainly (arguments inner) fun ns => ns := by
  refine plainly_currentKind.bind fun kind _ => ?_
  split
  · exact plainly_pure plain_nil
  · exact plainly_remaining.bind fun m _ => plainly_argumentsWithin hinner _

/-- The label of a call begins with a word of its own, so it is none of `recordLabels`. -/
theorem plainly_callOf : Plainly (callOf inner) fun n => [n] := by
  refine (plainly_expect _).bind fun callee _ => (plainly_resolve _ _).bind fun _ _ => ?_
  refine (plainly_expect _).bind fun _ _ => (plainly_arguments hinner).bind fun nodes hnodes => ?_
  exact (plainly_expect _).bind fun _ _ => plainly_pure (plain_node (call_notMem _) hnodes)

/-- A name is a leaf, and declares nothing even if it is spelled `Declaration`. -/
theorem plainly_nameOrCall : Plainly (nameOrCall inner) fun e => [e.node] := by
  refine plainly_peekKind.bind fun kind _ => ?_
  split
  · exact (plainly_callOf hinner).bind fun node hnode => plainly_pure hnode
  · exact (plainly_expect _).bind fun token _ => (plainly_resolve _ _).bind fun type _ =>
      plainly_pure plain_leaf

theorem plainly_grouping : Plainly (grouping inner) fun e => [e.node] := by
  refine (plainly_expect _).bind fun _ _ => (hinner .default).bind fun e he => ?_
  exact (plainly_expect _).bind fun _ _ => plainly_pure (plain_node (by decide) he)

/-- A condition is labelled `Condition`, which records nothing, with one side or two. -/
theorem plainly_conditionOf : Plainly (conditionOf inner) fun e => [e.node] := by
  refine (hinner .default).bind fun left hleft => plainly_currentKind.bind fun kind _ => ?_
  split
  · refine plainly_advance.bind fun operator _ => (hinner .default).bind fun right hright => ?_
    exact (plainly_relational _ _ _ _).bind fun _ _ =>
      plainly_pure (plain_operation (by decide) hleft hright)
  · exact plainly_pure (plain_node (by decide) hleft)

theorem plainly_binaryOf {left : Typed} (hleft : Plain [left.node]) (power : BindingPower) :
    Plainly (binaryOf inner left power) fun e => [e.node] := by
  refine plainly_advance.bind fun operator _ => (hinner power).bind fun right hright => ?_
  exact (plainly_arithmetic _ _ _ _).bind fun type _ =>
    plainly_pure (plain_operation (by decide) hleft hright)

/-- An operand, by any table `rules`: each of the four rules is plain. -/
theorem plainly_operand (rules : Rules) : Plainly (operand inner rules) fun e => [e.node] := by
  refine plainly_currentKind.bind fun kind _ => ?_
  split
  · exact plainly_unexpected _
  · exact plainly_conditionOf hinner
  · exact plainly_literal
  · exact plainly_nameOrCall hinner
  · exact plainly_grouping hinner

/-- The operators of a level, by induction on `m`; what stands to the left is `Plain` at each
turn. -/
theorem plainly_operatorsWithin (rules : Rules) (power : BindingPower) (m : Nat) {left : Typed}
    (hleft : Plain [left.node]) :
    Plainly (operatorsWithin inner rules power m left) fun e => [e.node] := by
  induction m generalizing left with
  | zero => exact plainly_pure hleft
  | succ m ih =>
    refine plainly_currentKind.bind fun kind _ => ?_
    split
    · exact plainly_pure hleft
    · split
      · exact (plainly_binaryOf hinner hleft _).bind fun left' hleft' => ih hleft'
      · exact plainly_pure hleft

theorem plainly_expressionOf (rules : Rules) (power : BindingPower) :
    Plainly (expressionOf inner rules power) fun e => [e.node] :=
  (plainly_operand hinner rules).bind fun _ hleft => plainly_remaining.bind fun _ _ =>
    plainly_operatorsWithin hinner rules power _ hleft

end Expressions

variable (rules : Rules)

/-- The recursion of expressions, by induction on `bound`. -/
theorem plainly_expressionWithin (bound : Nat) (power : BindingPower) :
    Plainly (expressionWithin rules bound power) fun e => [e.node] := by
  induction bound generalizing power with
  | zero => exact plainly_unexpected _
  | succ bound ih => exact plainly_expressionOf ih rules power

/-- Expressions have nothing on record, whatever the tables are and wherever they stand. -/
theorem plainly_expression (power : BindingPower) :
    Plainly (expression rules power) fun e => [e.node] :=
  plainly_remaining.bind fun _ _ => plainly_expressionWithin rules _ power

theorem plainly_condition : Plainly (condition rules) fun e => [e.node] :=
  plainly_conditionOf (plainly_expression rules)

theorem plainly_call : Plainly (call rules) fun n => [n] :=
  plainly_callOf (plainly_expression rules)

/-! ### Statements that record nothing -/

theorem plainly_storedValue : Plainly (storedValue rules) fun e => [e.node] :=
  (plainly_skip _).bind fun _ _ => (plainly_expect _).bind fun _ _ => plainly_expression rules _

/-- The value of a declaration, without the declaration: the store is checked by
`plainly_checkStore`. -/
theorem plainly_initializer (name : Token) (type : DataType) :
    Plainly (initializer rules name type) fun ns => ns := by
  have hvalue : Plainly (do
      let value ← storedValue rules
      checkStore .initialization name type value.type
      return [value.node]) fun ns => ns :=
    (plainly_storedValue rules).bind fun value hvalue =>
      (plainly_checkStore _ _ _ _).bind fun _ _ => plainly_pure hvalue
  refine plainly_currentKind.bind fun kind _ => ?_
  split
  · exact hvalue
  · exact hvalue
  · exact plainly_pure plain_nil

theorem plainly_assignment (site : StoreSite) : Plainly (assignment rules site) fun n => [n] := by
  refine plainly_advance.bind fun target _ => (plainly_boundType? _ _).bind fun type? _ => ?_
  refine (plainly_storedValue rules).bind fun value hvalue => ?_
  exact (plainly_checkStore? _ _ _ _).bind fun _ _ =>
    plainly_pure (plain_node (by decide) (plain_leaf.cons hvalue))

theorem plainly_step : Plainly step fun n => [n] := by
  refine plainly_advance.bind fun target _ => (plainly_resolve _ _).bind fun type _ => ?_
  refine plainly_advance.bind fun operator _ => plainly_pure (plain_node ?_ plain_leaf)
  split <;> decide

theorem plainly_simple (site : StoreSite) : Plainly (simple rules site) fun n => [n] := by
  refine plainly_currentKind.bind fun kind _ => ?_
  split
  · refine plainly_peekKind.bind fun next _ => ?_
    split
    · exact plainly_call rules
    · exact plainly_assignment rules site
    · exact plainly_assignment rules site
    · exact plainly_step
    · exact plainly_step
    · exact plainly_advance.bind fun _ _ => plainly_unexpected _
  · exact plainly_unexpected _

theorem plainly_simpleStatement : Plainly (simpleStatement rules) fun n => [n] :=
  (plainly_simple rules _).bind fun _ hnode => (plainly_expect _).bind fun _ _ =>
    plainly_pure hnode

/-- An output or a result, under a `label` that records nothing. -/
theorem plainly_keywordExpression {label : String} (hlabel : label ∉ recordLabels) :
    Plainly (keywordExpression rules label) fun n => [n] :=
  plainly_advance.bind fun _ _ => (plainly_expression rules _).bind fun _ hvalue =>
    (plainly_expect _).bind fun _ _ => plainly_pure (plain_node hlabel hvalue)

/-- An attachment is not opened, so nothing in it is declared. -/
theorem plainly_attach : Plainly attach fun n => [n] :=
  plainly_advance.bind fun _ _ => (plainly_expect _).bind fun _ _ =>
    plainly_pure (plain_node (by decide) plain_leaf)

theorem plainly_gate (keyword : Token) : Plainly (gate rules keyword) fun n => [n] :=
  (plainly_condition rules).bind fun _ hdecision => (plainly_reportViolation _ _ _).bind fun _ _ =>
    plainly_pure hdecision

end DrLang
