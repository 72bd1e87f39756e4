import DrLang.Proofs.Analysis.Expression

/-!
# Statements are analysed as they are parsed

Where a rule for statements succeeds, the walk of what it made, from the situation in which
it began, ends in the situation in which the rule ended, and adds the same symbols and the
same errors in the same order. The statements here have no blocks in them, and none but a
declaration binds a name.

- `ExplainsSimple`, `ExplainsStatement`: the walk of a statement is what a parse from one
  state to another did.
- `ensures_declaration`, `ensures_simple`, `ensures_keywordExpression`, ...: a rule each.
-/

namespace DrLang.Analysis

variable {s s' s₁ : Parser} {n : Node}

/-! ### Variables -/

theorem ensures_skip (kind : TokenKind) :
    Ensures (Parse.skip kind) s fun _ s' => Keeps s s' [] := by
  refine ensures_currentKind_bind ?_
  split
  · have hadvance : (discard Parse.advance).runFrom s =
        (Parse.advance >>= fun _ => pure ()).runFrom s := rfl
    exact Ensures.congr hadvance (ensures_advance.bind fun _ _ h => ensures_pure h.2)
  · exact ensures_pure (Keeps.refl s)

theorem ensures_storedValue (hs : s.Fit) :
    Ensures (Parse.storedValue .standard) s fun e s' => ExplainsTyped s s' e := by
  refine (ensures_skip _).bind fun _ s₁ hkeeps₁ => ?_
  refine (ensures_expect _).bind fun _ s₂ h => ?_
  have hkeeps := hkeeps₁.trans h.2.2
  refine (ensures_expression .default (hkeeps.fit hs)).imp fun e s₃ h => ?_
  obtain ⟨htype, errors, hwalk, hkeeps₃⟩ := h
  rw [hkeeps.symbols] at hwalk
  exact ⟨htype, errors, hwalk, hkeeps.trans hkeeps₃⟩

/-- The errors of values that a declared variable cannot be set to. -/
def mismatches (symbol : Symbol) (values : List Node) : List SemanticError :=
  values.flatMap fun value =>
    mismatch .initialization ⟨symbol.name, some symbol.type, symbol.line, []⟩ (some symbol.type)
      value.type

/-- The walk of the values that a declaration gives to its name. -/
def ExplainsValues (symbol : Symbol) (s s' : Parser) (values : List Node) : Prop :=
  ∃ errors, expressions s.symbols.scope (values.map Node.outline) = (values, errors) ∧
    Keeps s s' (errors ++ mismatches symbol values)

/-- The value of a declaration and its check; `mismatches` is empty or has the one error. -/
theorem ensures_initialValue (hs : s.Fit) (name : Token) (type : DataType) :
    Ensures (do
      let value ← Parse.storedValue .standard
      Parse.checkStore .initialization name type value.type
      return [value.node]) s
      fun values s' => ExplainsValues ⟨name.value, type, name.line⟩ s s' values := by
  refine (ensures_storedValue hs).bind fun value s₁ h => ?_
  obtain ⟨htype, errors, hwalk, hkeeps₁⟩ := h
  have hstore := ensures_checkStore .initialization name type value.type (s := s₁)
    (o := ⟨name.value, some type, name.line, []⟩) rfl rfl
  refine hstore.bind fun _ s₂ hkeeps₂ => ?_
  refine ensures_pure ⟨errors, ?_, ?_⟩
  · have hnil : expressions s.symbols.scope [] = ([], []) := rfl
    simpa using expressions_cons hwalk hnil
  · simpa [mismatches, htype] using hkeeps₁.trans hkeeps₂

/-- As `ensures_initialValue`, where there may be no value: then `values` is empty, and so is
`mismatches`. -/
theorem ensures_initializer (hs : s.Fit) (name : Token) (type : DataType) :
    Ensures (Parse.initializer .standard name type) s
      fun values s' => ExplainsValues ⟨name.value, type, name.line⟩ s s' values := by
  refine ensures_currentKind_bind ?_
  split
  · exact ensures_initialValue hs name type
  · exact ensures_initialValue hs name type
  · exact ensures_pure ⟨[], rfl, Keeps.refl s⟩

/-- The walk of a declaration, from the walk of its values. -/
theorem declaration_group {here : Situation} {symbol : Symbol} {values : List Node}
    {errors : List SemanticError}
    (h : expressions (binding here symbol).behind.scope (values.map Node.outline) =
      (values, errors)) :
    declaration here (Node.group "Declaration" symbol.line
        (.leaf symbol.name symbol.line symbol.type :: values)).outline =
      ⟨.group "Declaration" symbol.line (.leaf symbol.name symbol.line symbol.type :: values),
        (binding here symbol).behind, (binding here symbol).symbols,
        (binding here symbol).errors ++ errors ++ mismatches symbol values⟩ := by
  rw [Node.group, Node.outline_declaration]
  have hname : (Node.leaf symbol.name symbol.line symbol.type).outlineAs (some symbol.type) =
      ⟨symbol.name, some symbol.type, symbol.line, []⟩ := rfl
  simp only [declaration, Node.leaf] at hname ⊢
  simp only [hname, Option.getD_some, h]
  rfl

/-- A declaration. Its name is bound first, so the walk of the value is in the scope with it, as
in the parse. -/
theorem ensures_declaration (hs : s.Fit) :
    Ensures (Parse.declaration .standard) s fun n s' => n.label = "Declaration" ∧
      Accounts s s' (declaration s.situation n.outline) n := by
  refine ensures_advance.bind fun keyword s₁ h => ?_
  obtain ⟨-, hkeeps₁⟩ := h
  split
  case h_1 => exact ensures_throw _
  case h_2 type _ =>
    refine (ensures_expect _).bind fun name s₂ h => ?_
    obtain ⟨-, -, hkeeps₂⟩ := h
    have hkeeps := hkeeps₁.trans hkeeps₂
    refine (ensures_bindName _).bind fun _ s₃ hbound => ?_
    rw [hkeeps.situation] at hbound
    refine (ensures_initializer (hbound.added.fit (hkeeps.fit hs)) name type).bind
      fun values s₄ h => ?_
    obtain ⟨errors, hwalk, hkeeps₄⟩ := h
    refine (ensures_expect _).bind fun _ s₅ h => ?_
    obtain ⟨-, -, hkeeps₅⟩ := h
    have hvalues := hkeeps₄.before_tokens hkeeps₅
    -- The values are looked at with the name in scope already.
    have hscope : s₃.symbols.scope =
        (binding s.situation ⟨name.value, type, name.line⟩).behind.scope :=
      congrArg Situation.scope hbound.behind.symm
    rw [hscope] at hwalk
    refine ensures_pure ⟨rfl, ?_⟩
    rw [declaration_group hwalk]
    have hadded := (hkeeps.extends.trans hbound.added).trans hvalues.extends
    refine ⟨rfl, hbound.behind.trans hvalues.situation.symm, ?_⟩
    simpa [List.append_assoc] using hadded

/-! ### Statements that begin with a name -/

section Walk

variable {σ : Scope} {label : String} {line : Nat} {name : String} {value : Node}
  {errors : List SemanticError}

/-- The walk of an assignment that the parse has made, with the three places errors come from in
order. -/
theorem simple_assignment (site : StoreSite) (h : expression σ value.outline = (value, errors)) :
    simple site σ (Node.group "Assignment" line
        [.leaf name line (σ.typeOf name), value]).outline =
      (.group "Assignment" line [.leaf name line (σ.typeOf name), value],
        σ.undeclared name line ++ errors ++ mismatch site ⟨name, none, line, []⟩
          ((σ.visible name).map Symbol.type) value.type) := by
  show (Node.group "Assignment" line [.leaf name line (σ.typeOf name),
    (expression σ value.outline).1], σ.undeclared name line ++ (expression σ value.outline).2 ++
      mismatch site ⟨name, none, line, []⟩ ((σ.visible name).map Symbol.type)
        (expression σ value.outline).1.type) = _
  rw [h]

theorem simple_step (site : StoreSite) (h : label = "Increment" ∨ label = "Decrement") :
    simple site σ (Node.group label line [.leaf name line (σ.typeOf name)]).outline =
      (.group label line [.leaf name line (σ.typeOf name)], σ.undeclared name line) := by
  rcases h with rfl | rfl <;> rfl

/-- What is neither an assignment nor a step is walked as an expression, by `statementShape`. -/
theorem simple_call (site : StoreSite) (h : statementShape n.label = .call) :
    simple site σ n.outline = expression σ n.outline := by
  obtain ⟨label, type, line, children⟩ := n
  rw [Node.outline, Node.outlineAs, simple.eq_def]
  simp only [show statementShape label = .call from h]

/-- No call is labelled like a construct. -/
theorem statementShape_of_callee (h : (calleeOf? label).isSome) : statementShape label = .call := by
  unfold statementShape
  split
  all_goals first | rfl | exact absurd h (by decide)

end Walk

/-- The shapes of the statements that begin with a name. -/
def IsSimple (label : String) : Prop :=
  statementShape label ∈ [.assignment, .step, .call]

theorem isSimple_assignment : IsSimple "Assignment" :=
  show StatementShape.assignment ∈ _ by decide

theorem isSimple_step {label : String} (h : label = "Increment" ∨ label = "Decrement") :
    IsSimple label := by
  have hshape : StatementShape.step ∈ [.assignment, .step, .call] := by decide
  rcases h with rfl | rfl <;> exact hshape

theorem isSimple_of_callee {label : String} (h : (calleeOf? label).isSome) : IsSimple label := by
  rw [IsSimple, statementShape_of_callee h]
  decide

/-- The walk of a statement that begins with a name gives it back, wherever it stands. -/
def ExplainsSimple (site : StoreSite) (s s' : Parser) (n : Node) : Prop :=
  IsSimple n.label ∧
    ∃ errors, simple site s.symbols.scope n.outline = (n, errors) ∧ Keeps s s' errors

/-- An assignment; the check of its value comes last, as in `simple_assignment`. -/
theorem ensures_assignment (site : StoreSite) (hs : s.Fit) :
    Ensures (Parse.assignment .standard site) s fun n s' => ExplainsSimple site s s' n := by
  refine ensures_advance.bind fun name s₁ h => ?_
  obtain ⟨-, hkeeps₁⟩ := h
  refine (ensures_boundType? _ _).bind fun type? s₂ h => ?_
  obtain ⟨rfl, hkeeps₂⟩ := h
  have hkeeps := hkeeps₁.trans hkeeps₂
  refine (ensures_storedValue (hkeeps.fit hs)).bind fun value s₃ h => ?_
  obtain ⟨htype, errors, hwalk, hkeeps₃⟩ := h
  rw [hkeeps.symbols] at hwalk
  have hstore := ensures_checkStore? site name
    ((s₁.symbols.scope.visible name.value).map Symbol.type) value.type (s := s₃)
    (o := ⟨name.value, none, name.line, []⟩) rfl rfl
  refine hstore.bind fun _ s₄ hkeeps₄ => ?_
  refine ensures_pure ⟨isSimple_assignment, _, ?_, (hkeeps.trans hkeeps₃).trans hkeeps₄⟩
  -- The name is looked up before the value is read, in the scope the statement starts with.
  rw [hkeeps₁.symbols, htype]
  exact simple_assignment site hwalk

theorem ensures_step (site : StoreSite) :
    Ensures Parse.step s fun n s' => ExplainsSimple site s s' n := by
  refine ensures_advance.bind fun name s₁ h => ?_
  obtain ⟨-, hkeeps₁⟩ := h
  refine (ensures_resolve _ _).bind fun type s₂ h => ?_
  obtain ⟨rfl, hkeeps₂⟩ := h
  refine ensures_advance.bind fun operator s₃ h => ?_
  obtain ⟨-, hkeeps₃⟩ := h
  have hlabel := ite_eq_or_eq (operator.kind = .plusPlus) "Increment" "Decrement"
  refine ensures_pure ⟨isSimple_step hlabel, _, ?_, (hkeeps₁.trans hkeeps₂).before_tokens hkeeps₃⟩
  rw [hkeeps₁.symbols]
  exact simple_step site hlabel

/-- A statement that begins with a name, by `peekKind`; whichever it is, its label is one of
`IsSimple`. -/
theorem ensures_simple (site : StoreSite) (hs : s.Fit) :
    Ensures (Parse.simple .standard site) s fun n s' => ExplainsSimple site s s' n := by
  refine ensures_currentKind_bind ?_
  split
  · refine ensures_peekKind_bind ?_
    split
    · refine (ensures_call hs).imp fun n s' h => ?_
      obtain ⟨hcallee, errors, hwalk, hkeeps⟩ := h
      refine ⟨isSimple_of_callee hcallee, errors, ?_, hkeeps⟩
      rw [simple_call site (statementShape_of_callee hcallee), hwalk]
    · exact ensures_assignment site hs
    · exact ensures_assignment site hs
    · exact ensures_step site
    · exact ensures_step site
    · exact ensures_advance.bind fun _ _ _ => ensures_unexpected _
  · exact ensures_unexpected _

/-! ### Statements without blocks -/

/-- The walk of a statement is what a parse from one state to another did. -/
def ExplainsStatement (s s' : Parser) (n : Node) : Prop :=
  Accounts s s' (statement s.situation n.outline) n

section Walk

variable {here : Situation} {label : String} {line : Nat} {value : Node}
  {errors : List SemanticError}

theorem statement_declaration (h : n.label = "Declaration") :
    statement here n.outline = declaration here n.outline := by
  obtain ⟨label, type, line, children⟩ := n
  obtain rfl : label = "Declaration" := h
  rfl

/-- A statement that begins with a name binds nothing, so what is known behind it is what was
known before: `Situation.keep`. -/
theorem statement_simple (h : IsSimple n.label) :
    statement here n.outline = here.keep (simple .assignment here.scope n.outline) := by
  obtain ⟨label, type, line, children⟩ := n
  have hshape : statementShape label = .assignment ∨ statementShape label = .step ∨
      statementShape label = .call := by
    simpa [IsSimple] using h
  rw [Node.outline, Node.outlineAs, statement.eq_def]
  rcases hshape with hshape | hshape | hshape <;> simp only [hshape]

theorem statement_output (hlabel : label = "OUTPUT" ∨ label = "RETURN")
    (h : expression here.scope value.outline = (value, errors)) :
    statement here (Node.group label line [value]).outline =
      here.keep (.group label line [value], errors) := by
  have hwalk : statement here (Node.group label line [value]).outline =
      here.keep (.group label line [(expression here.scope value.outline).1],
        (expression here.scope value.outline).2) := by
    rcases hlabel with rfl | rfl <;> rfl
  rw [hwalk, h]

end Walk

/-- A simple statement and its semicolon, of which nothing is noted. -/
theorem ensures_simpleStatement (hs : s.Fit) :
    Ensures (Parse.simpleStatement .standard) s fun n s' => ExplainsStatement s s' n := by
  refine (ensures_simple .assignment hs).bind fun n s₁ h => ?_
  obtain ⟨hshape, errors, hwalk, hkeeps₁⟩ := h
  refine (ensures_expect _).bind fun _ s₂ h => ?_
  obtain ⟨-, -, hkeeps₂⟩ := h
  refine ensures_pure ?_
  rw [ExplainsStatement, statement_simple hshape]
  exact (hkeeps₁.accounts hwalk).before_tokens hkeeps₂

theorem ensures_keywordExpression {label : String} (hlabel : label = "OUTPUT" ∨ label = "RETURN")
    (hs : s.Fit) :
    Ensures (Parse.keywordExpression .standard label) s fun n s' => ExplainsStatement s s' n := by
  refine ensures_advance.bind fun keyword s₁ h => ?_
  obtain ⟨-, hkeeps₁⟩ := h
  refine (ensures_expression .default (hkeeps₁.fit hs)).bind fun value s₂ h => ?_
  obtain ⟨-, errors, hwalk, hkeeps₂⟩ := h
  rw [hkeeps₁.symbols] at hwalk
  refine (ensures_expect _).bind fun _ s₃ h => ?_
  obtain ⟨-, -, hkeeps₃⟩ := h
  refine ensures_pure ?_
  rw [ExplainsStatement, statement_output hlabel hwalk]
  exact ((hkeeps₁.trans hkeeps₂).accounts rfl).before_tokens hkeeps₃

theorem ensures_attach : Ensures Parse.attach s fun n s' => ExplainsStatement s s' n := by
  refine ensures_advance.bind fun keyword s₁ h => ?_
  obtain ⟨-, hkeeps₁⟩ := h
  refine (ensures_expect _).bind fun name s₂ h => ?_
  obtain ⟨-, -, hkeeps₂⟩ := h
  exact ensures_pure ((hkeeps₁.trans hkeeps₂).accounts rfl)

end DrLang.Analysis
