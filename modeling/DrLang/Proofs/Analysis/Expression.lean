import DrLang.Proofs.Ensures
import DrLang.Proofs.FirstTokens

/-!
# Expressions are analysed as they are parsed

Where a rule for expressions succeeds, the walk of what it made, in the scope in which it
began, gives the same types and the same errors in the same order. Nothing is bound inside
an expression, so that scope is the one of all its parts.

- `Explains`: the walk of a node gives what a parse from one state to another did.
- `ensures_expression`, `ensures_gate`: expressions and conditions do.
-/

namespace DrLang.Analysis

/-! ### The walk of an expression, by its form -/

section Walk

variable {σ : Scope} {label : String} {line : Nat} {o left operator right : Outline}
  {os : List Outline} {n l r : Node} {ns : List Node} {errors errors' : List SemanticError}

/-- A label that shows a literal, by `literalType?`, has its type and no error. The equations here
are those of the walk for the trees that a parse makes. -/
theorem expression_literal {type : DataType} (hcallee : calleeOf? label = none)
    (hliteral : literalType? label = some type) :
    expression σ ⟨label, none, line, []⟩ = (.leaf label line type, []) := by
  rw [expression.eq_def]
  simp only [hcallee, hliteral]

/-- A label that shows neither a call, by `calleeOf?`, nor a literal is a name. -/
theorem expression_name (hcallee : calleeOf? label = none) (hliteral : literalType? label = none) :
    expression σ ⟨label, none, line, []⟩ =
      (.leaf label line (σ.typeOf label), σ.undeclared label line) := by
  rw [expression.eq_def]
  simp only [hcallee, hliteral]

/-- A label that shows a call is the use of a name and of arguments. -/
theorem expression_call (callee : String) (h : expressions σ os = (ns, errors)) :
    expression σ ⟨"Call " ++ callee, none, line, os⟩ =
      (⟨"Call " ++ callee, .unknown, line, ns⟩, σ.undeclared callee line ++ errors) := by
  rw [expression.eq_def]
  simp only [calleeOf?_call, h]

/-- One part and no call: parentheses have the type of what is in them. -/
theorem expression_grouping (h : expression σ o = (n, errors)) :
    expression σ ⟨"Paren", none, line, [o]⟩ = (⟨"Paren", n.type, line, [n]⟩, errors) := by
  show (Node.mk "Paren" (expression σ o).1.type line [(expression σ o).1], (expression σ o).2) = _
  rw [h]

/-- Three parts are two operands with an operator between them, which `joined` puts together. -/
theorem expression_binary (hleft : expression σ left = (l, errors))
    (hright : expression σ right = (r, errors')) :
    expression σ ⟨"BinaryExpr", none, line, [left, operator, right]⟩ =
      joined "BinaryExpr" line (arithmeticType? operator.label l.type r.type)
        (.arithmeticOperands l.type operator.label r.type) (l, errors) operator (r, errors') := by
  show joined "BinaryExpr" line
    (arithmeticType? operator.label (expression σ left).1.type (expression σ right).1.type)
    (.arithmeticOperands (expression σ left).1.type operator.label (expression σ right).1.type)
    (expression σ left) operator (expression σ right) = _
  rw [hleft, hright]

theorem expressions_cons (hfirst : expression σ o = (n, errors))
    (hothers : expressions σ os = (ns, errors')) :
    expressions σ (o :: os) = (n :: ns, errors ++ errors') := by
  show ((expression σ o).1 :: (expressions σ os).1, (expression σ o).2 ++ (expressions σ os).2) = _
  rw [hfirst, hothers]

end Walk

/-! ### Steps explained by the walk -/

/-- The walk of a node gives the node back, and the errors that were reported between two
states. -/
def Explains (s s' : Parser) (n : Node) : Prop :=
  ∃ errors, expression s.symbols.scope n.outline = (n, errors) ∧ Keeps s s' errors

/-- The same of an expression, whose type is the one of its node. -/
def ExplainsTyped (s s' : Parser) (e : Typed) : Prop :=
  e.type = e.node.type ∧ Explains s s' e.node

/-- The same of expressions, one after the other. -/
def ExplainsAll (s s' : Parser) (ns : List Node) : Prop :=
  ∃ errors, expressions s.symbols.scope (ns.map Node.outline) = (ns, errors) ∧ Keeps s s' errors

/-- No call is labelled like a declaration, so its outline is the plain one. -/
theorem outline_call (callee : String) (type : DataType) (line : Nat) (ns : List Node) :
    (Node.mk ("Call " ++ callee) type line ns).outline =
      ⟨"Call " ++ callee, none, line, ns.map Node.outline⟩ := by
  refine Node.outline_mk (fun h => ?_) type line ns
  have hnone : calleeOf? "Declaration" = none := by decide
  rw [← h, calleeOf?_call] at hnone
  exact Option.some_ne_none callee hnone

variable {s s₀ : Parser}

/-- The text of a literal shows its class, by `Token.Fits`, so the walk finds the type that the
parse took from the class. -/
theorem ensures_literal (hs : s.Fit) :
    Ensures Parse.literal s (fun e s' => ExplainsTyped s s' e) := by
  refine ensures_currentKind_bind ?_
  split
  case h_1 => exact ensures_unexpected _
  case h_2 type htype =>
    refine ensures_advance.bind fun token s' h => ?_
    obtain ⟨rfl, hkeeps⟩ := h
    obtain ⟨hliteral, hcallee⟩ := literalType?_of_fits hs.current htype
    exact ensures_pure ⟨rfl, [], expression_literal hcallee hliteral, hkeeps⟩

section Rules

variable {inner : BindingPower → Parse Typed}
  (hinner : ∀ power s, s.Fit → Ensures (inner power) s fun e s' => ExplainsTyped s s' e)
include hinner

/-- Arguments, by induction on the bound `m`. All of them are walked in the scope in which the
first one is, since nothing is bound in between. -/
theorem ensures_argumentsWithin (m : Nat) (hs : s.Fit) :
    Ensures (Parse.argumentsWithin inner m) s fun ns s' => ExplainsAll s s' ns := by
  induction m generalizing s with
  | zero => exact ensures_pure ⟨[], rfl, Keeps.refl s⟩
  | succ m ih =>
    refine (hinner .default s hs).bind fun argument s₁ h => ?_
    obtain ⟨-, errors, hwalk, hkeeps⟩ := h
    refine ensures_currentKind_bind ?_
    split
    · refine ensures_advance.bind fun _ s₂ h => ?_
      have hkeeps₂ := hkeeps.before_tokens h.2
      refine (ih (hkeeps₂.fit hs)).bind fun others s₃ h => ?_
      obtain ⟨errors', hwalk', hkeeps₃⟩ := h
      -- No argument binds a name, so the scope of the first is that of all.
      rw [hkeeps₂.symbols] at hwalk'
      exact ensures_pure ⟨_, expressions_cons hwalk hwalk', hkeeps₂.trans hkeeps₃⟩
    · refine ensures_pure ⟨errors, ?_, hkeeps⟩
      have hnil : expressions s.symbols.scope [] = ([], []) := rfl
      simpa using expressions_cons hwalk hnil

theorem ensures_arguments (hs : s.Fit) :
    Ensures (Parse.arguments inner) s fun ns s' => ExplainsAll s s' ns := by
  refine ensures_currentKind_bind ?_
  split
  · exact ensures_pure ⟨[], rfl, Keeps.refl s⟩
  · exact ensures_remaining_bind (ensures_argumentsWithin hinner _ hs)

/-- A call. That `calleeOf?` finds a name in its label is kept for the statement that it may be.
-/
theorem ensures_callOf (hs : s.Fit) :
    Ensures (Parse.callOf inner) s fun n s' =>
      (n.type = .unknown ∧ (calleeOf? n.label).isSome) ∧ Explains s s' n := by
  refine (ensures_expect _).bind fun callee s₁ h => ?_
  obtain ⟨-, -, hkeeps₁⟩ := h
  refine (ensures_resolve _ _).bind fun _ s₂ h => ?_
  obtain ⟨-, hkeeps₂⟩ := h
  rw [hkeeps₁.symbols] at hkeeps₂
  refine (ensures_expect _).bind fun _ s₃ h => ?_
  obtain ⟨-, -, hkeeps₃⟩ := h
  have hkeeps := (hkeeps₁.trans hkeeps₂).before_tokens hkeeps₃
  refine (ensures_arguments hinner (hkeeps.fit hs)).bind fun ns s₄ h => ?_
  obtain ⟨errors, hwalk, hkeeps₄⟩ := h
  rw [hkeeps.symbols] at hwalk
  refine (ensures_expect _).bind fun _ s₅ h => ?_
  obtain ⟨-, -, hkeeps₅⟩ := h
  -- The walk tells a call by its label: what stands behind the word is the callee.
  have hcallee : (calleeOf? ("Call " ++ callee.value)).isSome := by
    rw [calleeOf?_call]
    rfl
  refine ensures_pure ⟨⟨rfl, hcallee⟩, _, ?_, (hkeeps.trans hkeeps₄).before_tokens hkeeps₅⟩
  rw [outline_call, expression_call callee.value hwalk]
  rfl

/-- A name or a call; the class of the token behind decides for the parse, and `calleeOf?` of the
label for the walk. -/
theorem ensures_nameOrCall (hs : s.Fit) :
    Ensures (Parse.nameOrCall inner) s fun e s' => ExplainsTyped s s' e := by
  refine ensures_peekKind_bind ?_
  split
  · refine (ensures_callOf hinner hs).bind fun n s' h => ?_
    exact ensures_pure ⟨h.1.1.symm, h.2⟩
  · refine (ensures_expect _).bind fun token s₁ h => ?_
    obtain ⟨rfl, hkind, hkeeps₁⟩ := h
    refine (ensures_resolve _ _).bind fun type s₂ h => ?_
    obtain ⟨rfl, hkeeps₂⟩ := h
    rw [hkeeps₁.symbols] at hkeeps₂
    obtain ⟨hliteral, hcallee⟩ := literalType?_of_identifier hs.current hkind
    refine ensures_pure ⟨rfl, _, ?_, hkeeps₁.trans hkeeps₂⟩
    rw [Node.outline_leaf, expression_name hcallee hliteral, hkeeps₁.symbols]
    rfl

/-- An expression in parentheses, which are taken without a note. -/
theorem ensures_grouping (hs : s.Fit) :
    Ensures (Parse.grouping inner) s fun e s' => ExplainsTyped s s' e := by
  refine (ensures_expect _).bind fun _ s₁ h => ?_
  obtain ⟨-, -, hkeeps₁⟩ := h
  refine (hinner .default s₁ (hkeeps₁.fit hs)).bind fun e s₂ h => ?_
  obtain ⟨htype, errors, hwalk, hkeeps₂⟩ := h
  rw [hkeeps₁.symbols] at hwalk
  refine (ensures_expect _).bind fun _ s₃ h => ?_
  obtain ⟨-, -, hkeeps₃⟩ := h
  refine ensures_pure ⟨rfl, errors, ?_, (hkeeps₁.trans hkeeps₂).before_tokens hkeeps₃⟩
  rw [Node.outline_mk (by decide), List.map_singleton, expression_grouping hwalk, htype]

/-- An operator behind what was parsed from `s₀` on. The walk begins at the left operand, so the
errors of the whole are counted from there. -/
theorem ensures_binaryOf {left : Typed} (hs₀ : s₀.Fit) (hleft : ExplainsTyped s₀ s left)
    (power : BindingPower) :
    Ensures (Parse.binaryOf inner left power) s fun e s' => ExplainsTyped s₀ s' e := by
  obtain ⟨hltype, errors, hlwalk, hkeeps⟩ := hleft
  refine ensures_advance.bind fun operator s₁ h => ?_
  have hkeeps₁ := hkeeps.before_tokens h.2
  refine (hinner power s₁ (hkeeps₁.fit hs₀)).bind fun right s₂ h => ?_
  obtain ⟨hrtype, errors', hrwalk, hkeeps₂⟩ := h
  rw [hkeeps₁.symbols] at hrwalk
  refine (ensures_typeOrReport _ (arithmetic_eq _ _ _)).bind fun type s₃ h => ?_
  obtain ⟨rfl, hkeeps₃⟩ := h
  refine ensures_pure ⟨rfl, _, ?_, (hkeeps₁.trans hkeeps₂).trans hkeeps₃⟩
  rw [Node.outline_mk (by decide)]
  simp only [List.map_cons, List.map_nil, Node.outline_leaf, expression_binary hlwalk hrwalk,
    joined, hltype, hrtype]

/-- The operators of a level, by induction on the bound; all that stands to the left was explained
from `s₀` on. -/
theorem ensures_operatorsWithin (power : BindingPower) (m : Nat) {left : Typed} (hs₀ : s₀.Fit)
    (hleft : ExplainsTyped s₀ s left) :
    Ensures (Parse.operatorsWithin inner .standard power m left) s
      fun e s' => ExplainsTyped s₀ s' e := by
  induction m generalizing s left with
  | zero => exact ensures_pure hleft
  | succ m ih =>
    refine ensures_currentKind_bind ?_
    split
    case h_1 => exact ensures_pure hleft
    case h_2 own _ =>
      split
      · exact (ensures_binaryOf hinner hs₀ hleft own).bind fun left' s' hleft' => ih hleft'
      · exact ensures_pure hleft

/-- An operand, by the table. No token leads to a condition, so only three rules are met. -/
theorem ensures_operand (hs : s.Fit) :
    Ensures (Parse.operand inner .standard) s fun e s' => ExplainsTyped s s' e := by
  refine ensures_currentKind_bind ?_
  split
  case h_1 => exact ensures_unexpected _
  case h_2 h => exact absurd h (Grammar.operand?_ne_condition _)
  case h_3 => exact ensures_literal hs
  case h_4 => exact ensures_nameOrCall hinner hs
  case h_5 => exact ensures_grouping hinner hs

theorem ensures_expressionOf (power : BindingPower) (hs : s.Fit) :
    Ensures (Parse.expressionOf inner .standard power) s fun e s' => ExplainsTyped s s' e :=
  (ensures_operand hinner hs).bind fun _ _ hleft =>
    ensures_remaining_bind (ensures_operatorsWithin hinner power _ hs hleft)

end Rules

/-! ### Whole expressions -/

/-- The recursion of expressions, by induction on `bound`. -/
theorem ensures_expressionWithin (bound : Nat) (power : BindingPower) (hs : s.Fit) :
    Ensures (Parse.expressionWithin .standard bound power) s fun e s' => ExplainsTyped s s' e := by
  induction bound generalizing power s with
  | zero => exact ensures_unexpected _
  | succ bound ih => exact ensures_expressionOf (fun power s hs => ih power hs) power hs

/-- What a parse of an expression finds, the walk `Analysis.expression` finds. -/
theorem ensures_expression (power : BindingPower) (hs : s.Fit) :
    Ensures (Parse.expression .standard power) s fun e s' => ExplainsTyped s s' e :=
  ensures_remaining_bind (ensures_expressionWithin _ power hs)

theorem ensures_call (hs : s.Fit) :
    Ensures (Parse.call .standard) s fun n s' =>
      (calleeOf? n.label).isSome ∧ Explains s s' n :=
  (ensures_callOf (fun power _ hs => ensures_expression power hs) hs).imp
    fun _ _ h => ⟨h.1.2, h.2⟩

/-! ### Conditions -/

section Walk

variable {σ : Scope} {line : Nat} {o left operator right : Outline} {n l r : Node}
  {errors errors' : List SemanticError}

theorem condition_operand (h : expression σ o = (n, errors)) :
    condition σ ⟨"Condition", none, line, [o]⟩ = (⟨"Condition", n.type, line, [n]⟩, errors) := by
  show (Node.mk "Condition" (expression σ o).1.type line [(expression σ o).1],
    (expression σ o).2) = _
  rw [h]

theorem condition_comparison (hleft : expression σ left = (l, errors))
    (hright : expression σ right = (r, errors')) :
    condition σ ⟨"Condition", none, line, [left, operator, right]⟩ =
      joined "Condition" line (comparisonType? l.type r.type)
        (.relationalOperands l.type operator.label r.type) (l, errors) operator (r, errors') := by
  show joined "Condition" line
    (comparisonType? (expression σ left).1.type (expression σ right).1.type)
    (.relationalOperands (expression σ left).1.type operator.label (expression σ right).1.type)
    (expression σ left) operator (expression σ right) = _
  rw [hleft, hright]

end Walk

/-- A condition, which the walk reads by `Analysis.condition`, a function of its own, since a name
may be spelled like its label. -/
theorem ensures_condition (hs : s.Fit) :
    Ensures (Parse.condition .standard) s fun e s' => e.type = e.node.type ∧
      ∃ errors, condition s.symbols.scope e.node.outline = (e.node, errors) ∧
        Keeps s s' errors := by
  refine (ensures_expression .default hs).bind fun left s₁ h => ?_
  obtain ⟨hltype, errors, hlwalk, hkeeps₁⟩ := h
  refine ensures_currentKind_bind ?_
  split
  · refine ensures_advance.bind fun operator s₂ h => ?_
    have hkeeps₂ := hkeeps₁.before_tokens h.2
    refine (ensures_expression .default (hkeeps₂.fit hs)).bind fun right s₃ h => ?_
    obtain ⟨hrtype, errors', hrwalk, hkeeps₃⟩ := h
    rw [hkeeps₂.symbols] at hrwalk
    refine (ensures_typeOrReport _ (relational_eq _ _ _)).bind fun type s₄ h => ?_
    obtain ⟨rfl, hkeeps₄⟩ := h
    refine ensures_pure ⟨rfl, _, ?_, (hkeeps₂.trans hkeeps₃).trans hkeeps₄⟩
    rw [Node.outline_mk (by decide)]
    simp only [List.map_cons, List.map_nil, Node.outline_leaf,
      condition_comparison hlwalk hrwalk, joined, hltype, hrtype]
  · refine ensures_pure ⟨rfl, errors, ?_, hkeeps₁⟩
    rw [Node.outline_mk (by decide), List.map_singleton, condition_operand hlwalk, hltype]

/-- The walk of a condition gives it back, with the errors that it and its construct met. -/
theorem ensures_gate (hs : s.Fit) (keyword : Token) :
    Ensures (Parse.gate .standard keyword) s fun n s' =>
      ∃ errors, gate keyword.value s.symbols.scope n.outline = (n, errors) ∧
        Keeps s s' errors := by
  refine (ensures_condition hs).bind fun e s₁ h => ?_
  obtain ⟨htype, errors, hwalk, hkeeps₁⟩ := h
  refine (ensures_reportViolation _ _ _).bind fun _ s₂ hkeeps₂ => ?_
  refine ensures_pure ⟨_, ?_, hkeeps₁.trans hkeeps₂⟩
  simp only [gate, hwalk, htype]

end DrLang.Analysis
