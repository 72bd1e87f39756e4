import DrLang.Proofs.FirstTokens
import DrLang.Proofs.Forward

/-!
# Steps that take a token

A step that succeeds without taking a token could be repeated for ever. None of the parsing
functions does so, the list of statements apart: each of them takes a token of its own, or turns
to a parsing function that does. The end of the input is the one token that a step may take
without moving on, so no step counts on taking it.

- `Forward.ensures_ready`: a step that does not move back leaves a state as ready as it was.
- `Consumes`: a step that leaves at least one token less ahead where it succeeds.
- `consumes_expression`, `consumes_declaration`, `consumes_checkOf`, ...: one lemma for each
  parsing function.
-/

namespace DrLang

open Parse

/-! ### Rules that do not move back -/

theorem Forward.bind {α β : Type} {p : Parse α} {f : α → Parse β} (hp : Forward p)
    (hf : ∀ a, Forward (f a)) : Forward (p >>= f) :=
  inferInstance

section Inner

variable {inner : BindingPower → Parse Typed} [hinner : ∀ power, Forward (inner power)]
  {rules : Rules}

instance : Forward peekKind := calm_peekKind.forward

instance : Forward literal := calm_literal.forward

instance (bound : Nat) : Forward (argumentsWithin inner bound) := by
  induction bound with
  | zero => exact inferInstanceAs (Forward (pure []))
  | succ bound ih =>
    unfold argumentsWithin
    infer_instance

instance : Forward (arguments inner) := by
  unfold arguments
  infer_instance

instance : Forward (callOf inner) := by
  unfold callOf
  infer_instance

instance : Forward (nameOrCall inner) := by
  unfold nameOrCall
  infer_instance

instance : Forward (grouping inner) := by
  unfold grouping
  infer_instance

instance : Forward (conditionOf inner) := by
  unfold conditionOf
  infer_instance

instance (left : Typed) (power : BindingPower) : Forward (binaryOf inner left power) := by
  unfold binaryOf
  infer_instance

instance : Forward (operand inner rules) := by
  apply calm_currentKind.forward.bind
  intro kind
  split <;> infer_instance

instance (power : BindingPower) (bound : Nat) (left : Typed) :
    Forward (operatorsWithin inner rules power bound left) := by
  induction bound generalizing left with
  | zero => exact inferInstanceAs (Forward (pure left))
  | succ bound ih =>
    apply calm_currentKind.forward.bind
    intro kind
    split <;> infer_instance

instance (power : BindingPower) : Forward (expressionOf inner rules power) := by
  unfold expressionOf
  infer_instance

end Inner

section Body

variable {rules : Rules} {body : Parse Node} [hbody : Forward body]

instance : Forward (call rules) := (calm_call rules).forward

instance : Forward (simpleStatement rules) := (calm_simpleStatement rules).forward

instance : Forward (output rules) := (calm_keywordExpression rules _).forward

instance : Forward (submit rules) := (calm_keywordExpression rules _).forward

instance : Forward attach := calm_attach.forward

instance : Forward (checkOf rules body) := by
  unfold checkOf
  infer_instance

instance : Forward (reworkOf rules body) := by
  unfold reworkOf
  infer_instance

instance : Forward (checklistOf rules body) := by
  unfold checklistOf
  infer_instance

instance : Forward (planOf body) := by
  unfold planOf
  infer_instance

instance : Forward (statementOf rules body) := by
  apply calm_currentKind.forward.bind
  intro kind
  split <;> infer_instance

instance {α : Type} {p : Parse α} [hp : Forward p] : Forward (attempt p) := ⟨hp.suffix⟩

instance (bound : Nat) : Forward (statementsWithin rules body bound) := by
  induction bound with
  | zero => exact inferInstanceAs (Forward (pure _))
  | succ bound ih =>
    unfold statementsWithin
    have hstep (result : Except FatalError Node) : Forward (match result with
        | .error e => return ⟨[], some e⟩
        | .ok node => do
          let others ← statementsWithin rules body bound
          return ⟨node :: others.nodes, others.failure?⟩ : Parse Statements) := by
      cases result <;> infer_instance
    infer_instance

instance (bound : Nat) : Forward (allStatementsWithin rules body bound) := by
  have hstep (list : Statements) : Forward (match list.failure? with
      | none => return list.nodes
      | some e => throw e : Parse (List Node)) := by
    cases list.failure? with
    | none => infer_instance
    | some e => exact ⟨fun s => List.suffix_refl _⟩
  unfold allStatementsWithin
  infer_instance

instance : Forward (allStatementsOf rules body) :=
  ⟨fun s => by
    rw [runFrom_allStatementsOf]
    exact Forward.suffix s⟩

instance : Forward (blockOf rules body) := by
  unfold blockOf
  infer_instance

end Body

instance (rules : Rules) (bound : Nat) : Forward (blockWithin rules bound) := by
  induction bound with
  | zero => exact inferInstanceAs (Forward (unexpected _))
  | succ bound ih => exact inferInstanceAs (Forward (blockOf rules (blockWithin rules bound)))

instance (rules : Rules) : Forward (block rules) := by
  unfold block
  infer_instance

/-! ### Steps that take a token -/

section Consumes

variable {α β : Type} {n : Nat} {s : Parser} {p : Parse α} {f : α → Parse β}

/-- A step that does not move back leaves a state as ready as it was. -/
theorem Forward.ensures_ready (hp : Forward p) (hs : Ready n s) :
    Ensures p s fun _ s' => Ready n s' := by
  intro a s' hrun
  have hsuffix := hp.suffix s
  rw [hrun] at hsuffix
  obtain ⟨used, heq⟩ := hsuffix
  exact hs.of_append heq.symm

/-- A step that leaves at least one token less ahead where it succeeds. -/
def Consumes (p : Parse α) : Prop :=
  ∀ n s, Ready (n + 1) s → Ensures p s fun _ s' => Ready n s'

/-- What follows a step that takes a token need take none ... -/
theorem Consumes.bind (hp : Consumes p) (hf : ∀ a, Forward (f a)) : Consumes (p >>= f) := by
  intro n s hs
  exact (hp n s hs).bind fun a s' hs' => (hf a).ensures_ready hs'

/-- ... and what comes before one need take none either. -/
theorem Forward.bind_consumes (hp : Forward p) (hf : ∀ a, Consumes (f a)) :
    Consumes (p >>= f) := by
  intro n s hs
  exact (hp.ensures_ready hs).bind fun a s' hs' => hf a n s' hs'

theorem consumes_unexpected (expected : Expectation) :
    Consumes (unexpected expected : Parse α) :=
  fun _ _ _ => ensures_unexpected expected

/-- A token that is not the end of the input is left behind. -/
theorem ensures_advance_bind {f : Token → Parse β} (hs : Ready (n + 1) s)
    (hkind : s.cursor.current.kind ≠ .eof) (hf : ∀ t, Forward (f t)) :
    Ensures (advance >>= f) s fun _ s' => Ready n s' := by
  have hadvance : Ensures advance s fun _ s' => Ready n s' := by
    intro t s' hrun
    rw [runFrom_advance] at hrun
    obtain ⟨-, rfl⟩ := Prod.mk.inj hrun
    exact hs.advance hkind
  exact hadvance.bind fun t s' hs' => (hf t).ensures_ready hs'

/-- A token of another class than the end of the input is not the last, so `Ready` says that
taking it leaves fewer. -/
theorem consumes_expect {kind : TokenKind} (hkind : kind ≠ .eof) : Consumes (expect kind) := by
  intro n s hs t s' hrun
  rw [runFrom_expect] at hrun
  split at hrun
  case isTrue h =>
    obtain ⟨-, rfl⟩ := Prod.mk.inj hrun
    exact hs.advance (h ▸ hkind)
  case isFalse => simp at hrun

/-- A required token and what follows it. -/
theorem consumes_expect_bind {kind : TokenKind} {f : Token → Parse β} (hkind : kind ≠ .eof)
    (hf : ∀ t, Forward (f t)) : Consumes (expect kind >>= f) :=
  (consumes_expect hkind).bind hf

end Consumes

/-! ### Expressions -/

theorem consumes_literal : Consumes literal := by
  intro n s hs
  unfold literal
  refine ensures_currentKind_bind ?_
  split
  case h_1 => exact ensures_unexpected _
  case h_2 type hkind =>
    refine ensures_advance_bind hs ?_ fun t => inferInstance
    intro heof
    simp [heof, DataType.ofLiteral?] at hkind

section Expressions

variable {inner : BindingPower → Parse Typed} [hinner : ∀ power, Forward (inner power)]

theorem consumes_callOf : Consumes (callOf inner) :=
  consumes_expect_bind (by decide) fun _ => inferInstance

theorem consumes_nameOrCall : Consumes (nameOrCall inner) := by
  refine calm_peekKind.forward.bind_consumes fun kind => ?_
  split
  · exact consumes_callOf.bind fun _ => inferInstance
  · exact consumes_expect_bind (by decide) fun _ => inferInstance

theorem consumes_grouping : Consumes (grouping inner) :=
  consumes_expect_bind (by decide) fun _ => inferInstance

/-- No operator is the end of the input. -/
theorem ne_eof_of_operator? {kind : TokenKind} {own : BindingPower}
    (h : Rules.standard.operator? kind = some own) : kind ≠ .eof := by
  rintro rfl
  simp [Rules.standard] at h

/-- An operator that goes on with an expression takes a token. -/
theorem ensures_binaryOf {n : Nat} {s : Parser} {own : BindingPower} (hs : Ready (n + 1) s)
    (hown : Rules.standard.operator? s.cursor.current.kind = some own) (left : Typed) :
    Ensures (binaryOf inner left own) s fun _ s' => Ready n s' :=
  ensures_advance_bind hs (ne_eof_of_operator? hown) fun _ => inferInstance

/-- No operand begins with a condition, which would take no token of its own. -/
theorem consumes_operand : Consumes (operand inner .standard) := by
  refine calm_currentKind.forward.bind_consumes fun kind => ?_
  split
  case h_1 => exact consumes_unexpected _
  case h_2 hrule => exact absurd hrule (Grammar.operand?_ne_condition kind)
  case h_3 => exact consumes_literal
  case h_4 => exact consumes_nameOrCall
  case h_5 => exact consumes_grouping

/-- An expression takes what its operand takes; `operatorsWithin` moves on or stays. -/
theorem consumes_expressionOf (power : BindingPower) :
    Consumes (expressionOf inner .standard power) :=
  consumes_operand.bind fun _ => inferInstance

end Expressions

/-- The recursion of expressions, by cases on `bound`: at the bottom it fails. -/
theorem consumes_expressionWithin (bound : Nat) (power : BindingPower) :
    Consumes (expressionWithin .standard bound power) := by
  cases bound with
  | zero => exact consumes_unexpected _
  | succ bound =>
    have hinner (power : BindingPower) : Forward (expressionWithin .standard bound power) :=
      (calm_expressionWithin .standard bound power).forward
    exact consumes_expressionOf power

theorem consumes_expression (power : BindingPower) : Consumes (expression .standard power) :=
  calm_remaining.forward.bind_consumes fun _ => consumes_expressionWithin _ power

theorem consumes_condition : Consumes (condition .standard) :=
  (consumes_expression .default).bind fun _ => inferInstance

/-- An operator may be taken at the end of the input without moving on, so it is the right operand
that is counted. -/
theorem consumes_binary (left : Typed) (power : BindingPower) :
    Consumes (binary .standard left power) :=
  calm_advance.forward.bind_consumes fun _ =>
    (consumes_expression power).bind fun _ => inferInstance

/-! ### Statements -/

theorem consumes_call : Consumes (call .standard) :=
  consumes_callOf

/-- What stands for the type of a variable is no end of the input. -/
theorem consumes_declaration : Consumes (declaration .standard) := by
  refine calm_advance.forward.bind_consumes fun keyword => ?_
  split
  case h_1 => exact fun _ _ _ => ensures_throw _
  case h_2 => exact consumes_expect_bind (by decide) fun _ => inferInstance

theorem consumes_simple (site : StoreSite) : Consumes (simple .standard site) := by
  intro n s hs
  unfold simple
  refine ensures_currentKind_bind ?_
  split
  case isFalse => exact ensures_unexpected _
  case isTrue hkind =>
    have hne : s.cursor.current.kind ≠ .eof := by simp [hkind]
    refine ensures_peekKind_bind ?_
    -- An identifier has to be taken: the rest may fail or go on, it cannot go back.
    split
    · exact consumes_call n s hs
    · exact ensures_advance_bind hs hne fun _ => inferInstance
    · exact ensures_advance_bind hs hne fun _ => inferInstance
    · exact ensures_advance_bind hs hne fun _ => inferInstance
    · exact ensures_advance_bind hs hne fun _ => inferInstance
    · exact ensures_advance_bind hs hne fun _ => inferInstance

theorem consumes_simpleStatement : Consumes (simpleStatement .standard) :=
  (consumes_simple .assignment).bind fun _ => inferInstance

/-- The word may be taken at the end of the input without moving on, so it is the expression
behind it that is counted. -/
theorem consumes_keywordExpression (label : String) :
    Consumes (keywordExpression .standard label) :=
  calm_advance.forward.bind_consumes fun _ =>
    (consumes_expression .default).bind fun _ => inferInstance

/-- As `consumes_keywordExpression`: the name behind the word is counted. -/
theorem consumes_attach : Consumes attach :=
  calm_advance.forward.bind_consumes fun _ =>
    consumes_expect_bind (by decide) fun _ => inferInstance

section Body

variable {body : Parse Node} [hbody : Forward body]

theorem consumes_checkOf : Consumes (checkOf .standard body) :=
  calm_advance.forward.bind_consumes fun _ =>
    consumes_expect_bind (by decide) fun _ => inferInstance

theorem consumes_reworkOf : Consumes (reworkOf .standard body) :=
  calm_advance.forward.bind_consumes fun _ =>
    consumes_expect_bind (by decide) fun _ => inferInstance

theorem consumes_checklistOf : Consumes (checklistOf .standard body) :=
  calm_advance.forward.bind_consumes fun _ =>
    consumes_expect_bind (by decide) fun _ => inferInstance

theorem consumes_planOf : Consumes (planOf body) :=
  calm_advance.forward.bind_consumes fun _ =>
    consumes_expect_bind (by decide) fun _ => inferInstance

theorem consumes_blockOf : Consumes (blockOf .standard body) :=
  consumes_expect_bind (by decide) fun _ => inferInstance

/-- A statement that is a block takes a token if the block does. -/
theorem consumes_statementOf (hconsumes : Consumes body) :
    Consumes (statementOf .standard body) := by
  refine calm_currentKind.forward.bind_consumes fun kind => ?_
  split
  · exact consumes_unexpected _
  · exact consumes_unexpected _
  · exact consumes_declaration
  · exact consumes_simpleStatement
  · exact consumes_checkOf
  · exact consumes_reworkOf
  · exact consumes_checklistOf
  · exact consumes_keywordExpression _
  · exact consumes_keywordExpression _
  · exact hconsumes
  · exact consumes_attach
  · exact consumes_planOf
  · exact consumes_call

end Body

/-- At the bottom of the recursion it fails; above, a block takes its brace. -/
theorem consumes_blockWithin (bound : Nat) : Consumes (blockWithin .standard bound) := by
  cases bound with
  | zero => exact consumes_unexpected _
  | succ bound => exact consumes_blockOf

theorem consumes_block : Consumes (block .standard) :=
  calm_remaining.forward.bind_consumes fun _ => consumes_blockWithin _

theorem consumes_statement : Consumes (statement .standard) :=
  consumes_statementOf consumes_block

end DrLang
