import DrLang.Proofs.Knowing

/-!
# Unknown types of expressions

While no name of an unknown type is in sight, the type of an expression is unknown in two cases
only: something was reported while the expression was parsed, or there is a call in it. In these
cases it is unknown without fail, so nothing that was reported is reported again by what the
expression stands in.

- `Answers`: what the type of an expression says of its parse.
- `Parse.Attentive`: a parser of expressions whose types say that.
- `attentive_literal`, `attentive_nameOrCall`, `attentive_grouping`, ...: a rule each.
- `attentive_expression`, `attentive_condition`: the recursion.
-/

namespace DrLang

open Parse

/-- The type of an expression is that of its tree. It is unknown if something was reported from
its first token to its last one or if there is a call among them, and in no other case. -/
structure Answers (s : Parser) (e : Typed) (s' : Parser) (called : Prop)
    (errors : List SemanticError) : Prop where
  passes : Passes s s' called errors
  type_eq : e.type = e.node.type
  unknown_iff : e.type = .unknown ↔ errors ≠ [] ∨ called
  unknown_of_hasCall : e.node.HasCall → e.type = .unknown
  settled : errors = [] → e.node.Settled

/-- What goes on behind an expression, and what it makes of the type that the expression had. It
begins with no parenthesis, or there is nothing. -/
structure Continues (s : Parser) (left e : Typed) (s' : Parser) (called : Prop)
    (errors : List SemanticError) : Prop where
  passes : Passes s s' called errors
  apart : s.cursor.current.kind ≠ .openParen ∨ s'.cursor = s.cursor
  type_eq : left.type = left.node.type → e.type = e.node.type
  unknown_iff : e.type = .unknown ↔ left.type = .unknown ∨ errors ≠ [] ∨ called
  unknown_of_hasCall : (left.node.HasCall → left.type = .unknown) →
    e.node.HasCall → e.type = .unknown
  settled : errors = [] → left.type = left.node.type → left.node.Settled → e.node.Settled

/-- From all states without names of unknown types, the types of the expressions that a step parses
answer for them. -/
def Parse.Attentive (before : List SemanticError) (p : Parse Typed) : Prop :=
  ∀ s, s.Knows before → Upholds (Parser.Knows before) p s fun e s' =>
    ∃ called errors, Answers s e s' called errors

variable {before : List SemanticError} {s s₁ s₂ : Parser}

/-! ### Operands -/

/-- Every class of literals has a type. -/
theorem ne_unknown_of_literal {kind : TokenKind} {type : DataType}
    (h : DataType.ofLiteral? kind = some type) : type ≠ .unknown := by
  rintro rfl
  exact absurd (mem_of_ofLiteral? h) (by decide)

theorem attentive_literal : Attentive before literal := by
  intro s hs
  refine upholds_currentKind_bind ?_
  split
  case h_1 => exact upholds_unexpected _ hs
  case h_2 type htype =>
    have hknown := ne_unknown_of_literal htype
    refine (knows_advance hs).bind fun token s₁ hs₁ h => upholds_pure hs₁ ?_
    exact ⟨False, [], h.2.2.passes, rfl, by simp [hknown], Node.HasCall.unknown_of_leaf,
      fun _ => Node.settled_leaf hknown⟩

/-- Where another token follows, the current one is taken. -/
theorem MovesPast.of_peekKind_ne (h : MovesPast s s₁ s.cursor.current)
    (hcursor : s₁.cursor = s.cursor.advance) (hpeek : s.cursor.peekKind ≠ s.cursor.current.kind) :
    Spends s s₁ [s.cursor.current] [] ∧ s₁.cursor.current.kind = s.cursor.peekKind := by
  obtain ⟨⟨current, rest⟩, symbols, diagnostics, entryPoint?, log⟩ := s
  cases rest with
  | nil => exact absurd rfl hpeek
  | cons next rest =>
    refine ⟨h.resolve_left fun hspends => ?_, by rw [hcursor]; rfl⟩
    have hlength := congrArg List.length hspends.tokens
    rw [hcursor] at hlength
    simp [Cursor.advance, Cursor.tokens] at hlength

/-- A name and what begins with a parenthesis behind it are a call. -/
theorem Spends.callAmong {name : Token} {used : List Token} {errors : List SemanticError}
    (h : Spends s s₁ used errors) (hname : name.kind = .identifier)
    (hopen : s.cursor.current.kind = .openParen) (hbehind : s₁.cursor.current.kind ≠ .openParen) :
    CallAmong (name :: used) := by
  cases used with
  | nil =>
    have hcurrent := (List.cons.inj h.tokens).1
    exact absurd (hcurrent ▸ hopen) hbehind
  | cons t used =>
    have ht : t.kind = .openParen := by
      rw [h.eq_current t rfl]
      exact hopen
    refine List.IsPrefix.isInfix ⟨kindsOf used, ?_⟩
    simp [hname, ht]

section Rules

variable {inner : BindingPower → Parse Typed} (hinner : ∀ power, Attentive before (inner power))
include hinner

/-- Arguments. Their types do not matter to the call, so it is enough that they are settled. -/
theorem knows_argumentsWithin (bound : Nat) (hs : s.Knows before) :
    Upholds (Parser.Knows before) (argumentsWithin inner bound) s fun ns s' =>
      ∃ used errors, Spends s s' used errors ∧ (errors = [] → ∀ n ∈ ns, n.Settled) := by
  induction bound generalizing s with
  | zero => exact upholds_pure hs ⟨[], [], .refl s, by simp⟩
  | succ bound ih =>
    refine (hinner .default s hs).bind fun argument s₁ hs₁ h => upholds_currentKind_bind ?_
    obtain ⟨called, errors₁, hanswers⟩ := h
    obtain ⟨used₁, hspends₁, -⟩ := hanswers.passes
    split
    case isTrue =>
      refine (knows_advance hs₁).bind fun _ s₂ hs₂ h => (ih hs₂).bind fun others s₃ hs₃ h₃ => ?_
      -- The comma adds a token to what was spent, and no error.
      obtain ⟨used₂, hspends₂, -⟩ := h.2.2.exists_used
      obtain ⟨used₃, errors₃, hspends₃, hsettled⟩ := h₃
      refine upholds_pure hs₃ ⟨_, _, (hspends₁.trans hspends₂).trans hspends₃, fun hnone => ?_⟩
      simp only [List.append_nil, List.append_eq_nil_iff] at hnone
      exact List.forall_mem_cons.2 ⟨hanswers.settled hnone.1, hsettled hnone.2⟩
    case isFalse =>
      refine upholds_pure hs₁ ⟨used₁, errors₁, hspends₁, fun hnone => ?_⟩
      exact List.forall_mem_singleton.2 (hanswers.settled hnone)

theorem knows_arguments (hs : s.Knows before) :
    Upholds (Parser.Knows before) (arguments inner) s fun ns s' =>
      ∃ used errors, Spends s s' used errors ∧ (errors = [] → ∀ n ∈ ns, n.Settled) := by
  refine upholds_currentKind_bind ?_
  split
  · exact upholds_pure hs ⟨[], [], .refl s, by simp⟩
  · exact .congr (runFrom_remaining_bind s _) (knows_argumentsWithin hinner _ hs)

/-- A call is of the unknown type, and a call is among its tokens: the name and the parenthesis
that `peekKind` shows. -/
theorem knows_callOf (hs : s.Knows before) :
    Upholds (Parser.Knows before) (callOf inner) s fun n s' =>
      n.type = .unknown ∧ ∃ used errors, Spends s s' used errors ∧
        (s.cursor.peekKind = .openParen → CallAmong used) ∧ (errors = [] → n.Settled) := by
  refine (knows_expect _ hs).bind fun callee s₁ hs₁ h => ?_
  obtain ⟨hname, -, hcursor₁, hmoves₁⟩ := h
  refine (knows_resolve _ _ hs₁).bind fun _ s₂ hs₂ h => ?_
  obtain ⟨hcursor₂, errors₂, hspends₂, -⟩ := h
  refine (knows_expect _ hs₂).bind fun _ s₃ hs₃ h => ?_
  obtain ⟨used₃, hspends₃, -⟩ := h.2.2.2.exists_used
  refine (knows_arguments hinner hs₃).bind fun nodes s₄ hs₄ h => ?_
  obtain ⟨used₄, errors₄, hspends₄, hsettled⟩ := h
  refine (knows_expect _ hs₄).bind fun _ s₅ hs₅ h => upholds_pure hs₅ ⟨rfl, ?_⟩
  obtain ⟨hclose, -, -, hmoves₅⟩ := h
  obtain ⟨used₁, hspends₁, -⟩ := hmoves₁.exists_used
  obtain ⟨used₅, hspends₅, -⟩ := hmoves₅.exists_used
  have hinside := hspends₂.trans (hspends₃.trans hspends₄)
  refine ⟨_, _, hspends₁.trans (hinside.trans hspends₅), fun hpeek => ?_, fun hnone => ?_⟩
  · -- Behind the arguments stands a closing parenthesis, so the opening one was taken.
    obtain ⟨hfirst, hopen⟩ := hmoves₁.of_peekKind_ne hcursor₁ (by simp [hpeek, hname])
    obtain rfl : used₁ = [s.cursor.current] :=
      List.append_cancel_right (hspends₁.tokens.symm.trans hfirst.tokens)
    have hcall := hinside.callAmong hname (hopen.trans hpeek) (by simp [hclose])
    exact hcall.append used₅
  · simp only [List.nil_append, List.append_nil, List.append_eq_nil_iff] at hnone
    exact Node.settled_call _ (hsettled hnone.2)

/-- A call is of an unknown type, and everything else that begins with a name stands for something
or is reported. -/
theorem attentive_nameOrCall : Attentive before (nameOrCall inner) := by
  intro s hs
  refine Upholds.congr (runFrom_peekKind_bind s _) ?_
  split
  case isTrue hpeek =>
    refine (knows_callOf hinner hs).bind fun n s₁ hs₁ h => upholds_pure hs₁ ?_
    obtain ⟨htype, used, errors, hspends, hcalled, hsettled⟩ := h
    have hcall : True ↔ CallAmong used := iff_of_true trivial (hcalled hpeek)
    -- A call has no type of its own, and the tokens it took begin with its name and parenthesis.
    exact ⟨True, errors, ⟨used, hspends, hcall⟩, htype.symm, by simp, fun _ => rfl, hsettled⟩
  case isFalse =>
    refine (knows_expect _ hs).bind fun token s₁ hs₁ h => ?_
    have hpasses := h.2.2.2.passes
    refine (knows_resolve _ _ hs₁).bind fun type s₂ hs₂ h => upholds_pure hs₂ ?_
    obtain ⟨hcursor, errors, hspends, htype⟩ := h
    -- A name on its own is unknown only where `resolve` reported it.
    refine ⟨False, errors, hpasses.then_silent hspends hcursor, rfl, by simp [htype],
      Node.HasCall.unknown_of_leaf, fun hnone => ?_⟩
    exact Node.settled_leaf fun hunknown => htype.1 hunknown hnone

/-- Parentheses answer as what is in them: neither the opening nor the closing one takes part in a
call, so `Passes` is kept on both sides. -/
theorem attentive_grouping : Attentive before (grouping inner) := by
  intro s hs
  refine (knows_expect _ hs).bind fun _ s₁ hs₁ h => ?_
  obtain ⟨hopen, -, -, hmoves₁⟩ := h
  refine (hinner .default s₁ hs₁).bind fun e s₂ hs₂ h => ?_
  obtain ⟨called, errors, hanswers⟩ := h
  refine (knows_expect _ hs₂).bind fun _ s₃ hs₃ h => upholds_pure hs₃ ?_
  obtain ⟨hclose, -, -, hmoves₃⟩ := h
  -- Neither of the parentheses is a name or stands behind one.
  have hpasses :=
    (hanswers.passes.after hmoves₁ (by simp [hopen])).before hmoves₃ (by simp [hclose])
  refine ⟨called, errors, hpasses, rfl, hanswers.unknown_iff, fun hcall => ?_, fun hnone => ?_⟩
  · exact hcall.unknown_of_wrapped hanswers.unknown_of_hasCall
  · exact Node.settled_wrapped (hanswers.settled hnone) hanswers.type_eq

end Rules

/-! ### Operators -/

section Continues

variable {s₃ : Parser} {left e e' : Typed} {called called' : Prop}
  {errors errors' : List SemanticError}

theorem Continues.refl (s : Parser) (left : Typed) : Continues s left left s False [] where
  passes := .refl s
  apart := .inr rfl
  type_eq := id
  unknown_iff := by simp
  unknown_of_hasCall := id
  settled _ _ hleft := hleft

/-- An operator behind an operator; the second one goes on with `e`, which the first one made. -/
theorem Continues.trans (h : Continues s left e s₁ called errors)
    (h' : Continues s₁ e e' s₂ called' errors') :
    Continues s left e' s₂ (called ∨ called') (errors ++ errors') where
  passes := h.passes.trans h'.passes h'.apart
  apart := by
    rcases h.apart with hkind | hcursor
    · exact .inl hkind
    · rw [← hcursor]
      exact h'.apart
  type_eq hleft := h'.type_eq (h.type_eq hleft)
  unknown_iff := by
    rw [h'.unknown_iff, h.unknown_iff, ne_eq, ne_eq, ne_eq, List.append_eq_nil_iff]
    -- Unknown for the first operator or the second, by an error or by a call of either.
    tauto
  unknown_of_hasCall hleft := h'.unknown_of_hasCall (h.unknown_of_hasCall hleft)
  settled hnone htype hleft := by
    obtain ⟨hnone, hnone'⟩ := List.append_eq_nil_iff.1 hnone
    exact h'.settled hnone' (h.type_eq htype) (h.settled hnone htype hleft)

/-- An expression and what goes on behind it are an expression. No call stretches over the seam,
by `Continues.apart`. -/
theorem Answers.continue (h : Answers s left s₁ called errors)
    (h' : Continues s₁ left e s₂ called' errors') :
    Answers s e s₂ (called ∨ called') (errors ++ errors') where
  passes := h.passes.trans h'.passes h'.apart
  type_eq := h'.type_eq h.type_eq
  unknown_iff := by
    rw [h'.unknown_iff, h.unknown_iff, ne_eq, ne_eq, ne_eq, List.append_eq_nil_iff]
    tauto
  unknown_of_hasCall := h'.unknown_of_hasCall h.unknown_of_hasCall
  settled hnone := by
    obtain ⟨hnone, hnone'⟩ := List.append_eq_nil_iff.1 hnone
    exact h'.settled hnone' h.type_eq (h.settled hnone)

/-- An operator and its right operand, and what is reported of both operands. -/
theorem Continues.joined {right : Typed} {operator : Token} {label : String} {type : DataType}
    {line : Nat} (hmoves : MovesPast s s₁ s.cursor.current)
    (hkind : s.cursor.current.kind ≠ .identifier ∧ s.cursor.current.kind ≠ .openParen)
    (hright : Answers s₁ right s₂ called errors) (hcursor : s₃.cursor = s₂.cursor)
    (hspends : Spends s₂ s₃ [] errors')
    (htype : type = .unknown ↔ left.type = .unknown ∨ right.type = .unknown ∨ errors' ≠ []) :
    Continues s left
      ⟨⟨label, type, line, [left.node, .leaf operator.value operator.line .void, right.node]⟩, type⟩
      s₃ called (errors ++ errors') where
  passes := (hright.passes.after hmoves hkind.1).then_silent hspends hcursor
  apart := .inl hkind.2
  type_eq _ := rfl
  unknown_iff := by
    rw [htype, hright.unknown_iff, ne_eq, ne_eq, ne_eq, List.append_eq_nil_iff]
    tauto
  unknown_of_hasCall hleft hcall := by
    -- A call is in one of the operands, whose type is unknown then, and not in the operator.
    rcases hcall.unknown_or_child with hunknown | ⟨c, hc, hcall⟩
    · exact hunknown
    · simp only [List.mem_cons, List.not_mem_nil, or_false] at hc
      rcases hc with rfl | rfl | rfl
      · exact htype.2 (.inl (hleft hcall))
      · exact absurd hcall.unknown_of_leaf (by decide)
      · exact htype.2 (.inr (.inl (hright.unknown_of_hasCall hcall)))
  settled hnone hltype hleft := by
    obtain ⟨hnone, hnone'⟩ := List.append_eq_nil_iff.1 hnone
    refine Node.settled_joined hleft (hright.settled hnone) fun hunknown => ?_
    rw [← hltype, ← hright.type_eq]
    simpa [hnone'] using htype.1 hunknown

/-- An expression by itself as a condition. -/
theorem Continues.wrapped (s : Parser) (left : Typed) (label : String) (line : Nat) :
    Continues s left ⟨⟨label, left.type, line, [left.node]⟩, left.type⟩ s False [] where
  passes := .refl s
  apart := .inr rfl
  type_eq _ := rfl
  unknown_iff := by simp
  unknown_of_hasCall hleft hcall := hcall.unknown_of_wrapped hleft
  settled _ htype hleft := Node.settled_wrapped hleft htype

end Continues

section Rules

variable {inner : BindingPower → Parse Typed} (hinner : ∀ power, Attentive before (inner power))
include hinner

/-- A condition answers as its sides do; a comparison of known types is of a known type or is
reported, by `tolerant_relational`. -/
theorem attentive_conditionOf : Attentive before (conditionOf inner) := by
  intro s hs
  refine (hinner .default s hs).bind fun left s₁ hs₁ h => upholds_currentKind_bind ?_
  obtain ⟨called, errors, hleft⟩ := h
  split
  case isFalse =>
    exact upholds_pure hs₁ ⟨_, _, hleft.continue (.wrapped s₁ left "Condition" left.node.line)⟩
  case isTrue hrelational =>
    refine (knows_advance hs₁).bind fun operator s₂ hs₂ h => ?_
    obtain ⟨-, -, hmoves⟩ := h
    refine (hinner .default s₂ hs₂).bind fun right s₃ hs₃ h => ?_
    obtain ⟨called', errors', hright⟩ := h
    have htolerant := tolerant_relational left.type right.type operator.value
    refine (knows_typeOrReport operator.line htolerant hs₃).bind fun type s₄ hs₄ h => ?_
    obtain ⟨hcursor, errors'', hspends, htype⟩ := h
    -- A relational operator is neither a name nor a parenthesis, so no call lies across it.
    have hkind : s₁.cursor.current.kind ≠ .identifier ∧ s₁.cursor.current.kind ≠ .openParen := by
      constructor <;> intro h <;> simp [h, TokenKind.isRelational] at hrelational
    exact upholds_pure hs₄
      ⟨_, _, hleft.continue (.joined hmoves hkind hright hcursor hspends htype)⟩

/-- An operator and its right operand. An `unknown` type of either side makes the whole unknown,
and nothing else does but an error. -/
theorem continues_binaryOf (left : Typed) (power : BindingPower) (hs : s.Knows before)
    (hkind : (Rules.standard.operator? s.cursor.current.kind).isSome = true) :
    Upholds (Parser.Knows before) (binaryOf inner left power) s fun e s' =>
      ∃ called errors, Continues s left e s' called errors := by
  refine (knows_advance hs).bind fun operator s₁ hs₁ h => ?_
  obtain ⟨-, -, hmoves⟩ := h
  refine (hinner power s₁ hs₁).bind fun right s₂ hs₂ h => ?_
  obtain ⟨called, errors, hright⟩ := h
  have htolerant := tolerant_arithmetic left.type right.type operator.value
  refine (knows_typeOrReport operator.line htolerant hs₂).bind fun type s₃ hs₃ h => ?_
  obtain ⟨hcursor, errors', hspends, htype⟩ := h
  refine upholds_pure hs₃ ⟨_, _, .joined hmoves ?_ hright hcursor hspends htype⟩
  constructor <;> intro h <;> simp [h, Rules.standard] at hkind

theorem attentive_operand : Attentive before (operand inner .standard) := by
  intro s hs
  refine upholds_currentKind_bind ?_
  split
  · exact upholds_unexpected _ hs
  · exact attentive_conditionOf hinner s hs
  · exact attentive_literal s hs
  · exact attentive_nameOrCall hinner s hs
  · exact attentive_grouping hinner s hs

/-- The operators of a level, by induction on `bound` and `Continues.trans`. -/
theorem continues_operatorsWithin (power : BindingPower) (bound : Nat) (left : Typed)
    (hs : s.Knows before) :
    Upholds (Parser.Knows before) (operatorsWithin inner .standard power bound left) s fun e s' =>
      ∃ called errors, Continues s left e s' called errors := by
  induction bound generalizing s left with
  | zero => exact upholds_pure hs ⟨False, [], .refl s left⟩
  | succ bound ih =>
    refine upholds_currentKind_bind ?_
    split
    case h_1 => exact upholds_pure hs ⟨False, [], .refl s left⟩
    case h_2 own hown =>
      have hkind : (Rules.standard.operator? s.cursor.current.kind).isSome = true := by
        rw [hown]
        rfl
      -- Only an operator that binds more tightly is taken; at any other one the loop is over.
      split
      case isTrue =>
        refine (continues_binaryOf hinner left own hs hkind).bind fun e s₁ hs₁ h => ?_
        obtain ⟨called, errors, hfirst⟩ := h
        refine (ih e hs₁).imp fun e' s₂ h => ?_
        obtain ⟨called', errors', hothers⟩ := h
        exact ⟨_, _, hfirst.trans hothers⟩
      case isFalse => exact upholds_pure hs ⟨False, [], .refl s left⟩

theorem attentive_expressionOf (power : BindingPower) :
    Attentive before (expressionOf inner .standard power) := by
  intro s hs
  refine (attentive_operand hinner s hs).bind fun left s₁ hs₁ h => ?_
  obtain ⟨called, errors, hleft⟩ := h
  refine .congr (runFrom_remaining_bind s₁ _) ?_
  refine (continues_operatorsWithin hinner power _ left hs₁).imp fun e s₂ h => ?_
  obtain ⟨called', errors', hothers⟩ := h
  exact ⟨_, _, hleft.continue hothers⟩

end Rules

/-! ### The recursion -/

/-- The recursion of expressions, by induction on `bound`. -/
theorem attentive_expressionWithin (bound : Nat) (power : BindingPower) :
    Attentive before (expressionWithin .standard bound power) := by
  induction bound generalizing power with
  | zero => exact fun _ hs => upholds_unexpected _ hs
  | succ bound ih => exact attentive_expressionOf ih power

theorem attentive_expression (power : BindingPower) :
    Attentive before (expression .standard power) :=
  fun s hs => .congr (runFrom_remaining_bind s _) (attentive_expressionWithin _ power s hs)

theorem attentive_condition : Attentive before (condition .standard) :=
  attentive_conditionOf attentive_expression

end DrLang
