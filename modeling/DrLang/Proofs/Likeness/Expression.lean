import DrLang.Proofs.Likeness
import DrLang.Proofs.FirstTokens

/-!
# Expressions in different surroundings

The rules for expressions take an operator wherever one follows, so every class counts behind
them. Two expressions whose tokens are alike, up to the one behind, have trees that are alike.

- `Likeness.respects_resolve`: the types of names.
- `Alike.argumentsWithin`, `Alike.operatorsWithin`: the lists in expressions.
- `Alike.expression`, `Alike.condition`: whole expressions.
-/

namespace DrLang

open Parse

/-- `resolve` is `boundType?` with a default, which is the same on both sides. -/
theorem Likeness.respects_resolve {L : Likeness} {t u : Token} (h : L.token t u)
    (hkind : t.kind = .identifier) :
    Respects L.notes L.Same (resolve t.value t.line) (resolve u.value u.line) := by
  intro n m hnotes
  obtain ⟨type?, n', type?', m', hp, hq, hsame, hnotes'⟩ := L.bound h hkind n m hnotes
  have hsame' : L.Same (type?.getD .unknown) (type?'.getD .unknown) := fun htyped => by
    rw [hsame htyped]
  exact ⟨_, n', _, m', hp.bind (yields_pure _ _), hq.bind (yields_pure _ _), hsame', hnotes'⟩

namespace Alike

variable {L : Likeness} {m m' : Nat} {s t : Parser}

/-! ### Operands -/

theorem literal (hs : Ready m s) (ht : Ready m' t) :
    Alike L Set.univ L.expression literal literal s t := by
  refine currentKind_bind (of_token fun htoken => ?_)
  rw [← L.kind_eq htoken]
  split
  case h_1 => exact unexpected _
  case h_2 type htype =>
    have hkind : s.cursor.current.kind ≠ .eof := by
      intro heof
      simp [heof, DataType.ofLiteral?] at htype
    refine advance_bind hs ht hkind fun htoken _ _ => pure ⟨?_, fun _ => rfl⟩
    exact L.node_leaf (L.label_literal htoken) (fun _ => rfl) (L.line_token htoken)

section Rules

variable {inner inner' : BindingPower → Parse Typed} (hcalm : ∀ power, Calm (inner power))
  (hinner : ∀ power s t, Ready m s → Ready m' t →
    Alike L Set.univ L.expression (inner power) (inner' power) s t)
include hcalm hinner

/-- One argument or more. -/
theorem argumentsWithin {n n' : Nat} (hs : Ready m s) (ht : Ready m' t) (hn : Ready n s)
    (hn' : Ready n' t) :
    Alike L Set.univ L.nodes (argumentsWithin inner n) (argumentsWithin inner' n') s t := by
  have hforward (power : BindingPower) : Forward (inner power) := (hcalm power).forward
  have hforward' (n : Nat) : Forward (Parse.argumentsWithin inner n) :=
    (calm_argumentsWithin hcalm n).forward
  induction n generalizing n' s t with
  | zero => exact absurd hn.fits (Nat.not_lt_zero _)
  | succ n ih =>
    cases n' with
    | zero => exact absurd hn'.fits (Nat.not_lt_zero _)
    | succ n' =>
      refine (hinner .default s t hs ht).bind_open fun argument argument' s₁ t₁ u u' hu hu' h => ?_
      refine currentKind_bind (of_token fun htoken => ?_)
      rw [← L.kind_eq htoken]
      -- The tokens ahead have one kind, so both runs read another argument or neither does.
      split
      case isTrue hcomma =>
        have hkind : s₁.cursor.current.kind ≠ .eof := by simp [hcomma]
        refine advance_bind (hs.of_append hu) (ht.of_append hu') hkind fun htoken hs₂ ht₂ => ?_
        have hn₂ := (hn.of_append hu).advance hkind
        have hn₂' := (hn'.of_append hu').advance (L.kind_ne htoken hkind)
        exact (ih hs₂ ht₂ hn₂ hn₂').bind_open fun others others' _ _ _ _ _ _ hothers =>
          pure (L.nodes_cons h.1 hothers)
      case isFalse => exact pure (L.nodes_cons h.1 L.nodes_nil)

/-- The arguments of a call, up to what closes them. -/
theorem arguments (hs : Ready m s) (ht : Ready m' t) :
    Alike L Set.univ L.nodes (arguments inner) (arguments inner') s t := by
  refine currentKind_bind (of_token fun htoken => ?_)
  rw [← L.kind_eq htoken]
  split
  case isTrue => exact pure L.nodes_nil
  case isFalse =>
    exact remaining_bind (argumentsWithin hcalm hinner hs ht ⟨hs.ends, Nat.lt_succ_self _⟩
      ⟨ht.ends, Nat.lt_succ_self _⟩)

/-- A call ends at its parenthesis, so nothing behind it matters: `F` is any set. -/
theorem callOf {F : Set TokenKind} (hs : Ready (m + 1) s) (ht : Ready (m' + 1) t) :
    Alike L F L.node (callOf inner) (callOf inner') s t := by
  have hforward : Forward (Parse.arguments inner) := (calm_arguments hcalm).forward
  refine expect_bind hs ht (by decide) fun hkind hcallee _ _ => ?_
  have hne : s.cursor.current.kind ≠ .eof := by simp [hkind]
  have hs₁ := hs.advance hne
  have ht₁ := ht.advance (L.kind_ne hcallee hne)
  refine silent_bind (L.respects_resolve hcallee hkind) fun _ _ s₂ t₂ hs₂ ht₂ _ => ?_
  refine expect_bind (hs₁.of_cursor_eq hs₂) (ht₁.of_cursor_eq ht₂) (by decide)
    fun _ _ hs₃ ht₃ => ?_
  refine (arguments hcalm hinner hs₃ ht₃).bind_expect hs₃ ht₃ (by decide)
    fun nodes nodes' _ _ hnodes _ _ _ => pure ?_
  exact L.node_mk (L.label_call hcallee hkind) (fun _ => rfl) (L.line_token hcallee) hnodes

/-- A name, or a call if a parenthesis follows the name. -/
theorem nameOrCall (hs : Ready (m + 1) s) (ht : Ready (m' + 1) t)
    (hkind : s.cursor.current.kind = .identifier) :
    Alike L Set.univ L.expression (nameOrCall inner) (nameOrCall inner') s t := by
  have hforward : Forward (Parse.arguments inner) := (calm_arguments hcalm).forward
  have htakes : ((Parse.nameOrCall inner).runFrom s).2.cursor.tokens <:+
      s.cursor.advance.tokens := by
    rw [Parse.nameOrCall, runFrom_peekKind_bind]
    split
    · simp only [Parse.callOf, bind_assoc]
      exact suffix_expect_bind hkind
    · exact suffix_expect_bind hkind
  -- The token behind the name decides, and it has to be known before anything is taken.
  refine of_peek hs ht (by simp [hkind]) htakes fun htoken hpeek => peekKind_bind ?_
  rw [← hpeek]
  split
  case isTrue =>
    have hforward' : Forward (Parse.callOf inner) := (calm_callOf hcalm).forward
    exact (callOf hcalm hinner hs ht).bind_open fun _ _ _ _ _ _ _ _ hnode =>
      pure ⟨hnode, fun _ => rfl⟩
  case isFalse =>
    refine expect_bind hs ht (by decide) fun _ _ _ _ => ?_
    refine silent_bind (L.respects_resolve htoken hkind) fun type type' _ _ _ _ htype => ?_
    have hlabel := L.label_name htoken hkind
    exact pure ⟨L.node_leaf hlabel htype (L.line_token htoken), htype⟩

/-- What stands in parentheses ends at the closing one, so `F` is any set, as in `callOf`. -/
theorem grouping {F : Set TokenKind} (hs : Ready (m + 1) s) (ht : Ready (m' + 1) t) :
    Alike L F L.expression (grouping inner) (grouping inner') s t := by
  have hforward (power : BindingPower) : Forward (inner power) := (hcalm power).forward
  refine expect_bind hs ht (by decide) fun hkind htoken _ _ => ?_
  have hne : s.cursor.current.kind ≠ .eof := by simp [hkind]
  have hs₁ := hs.advance hne
  have ht₁ := ht.advance (L.kind_ne htoken hne)
  refine (hinner .default _ _ hs₁ ht₁).bind_expect hs₁ ht₁ (by decide)
    fun e e' _ _ he _ _ _ => pure ⟨?_, he.2⟩
  exact L.node_mk (L.label_construct "Paren" (by decide)) he.2 (L.node_line he.1)
    (L.nodes_cons he.1 L.nodes_nil)

/-- An expression, or two with a comparison between them. -/
theorem conditionOf (hs : Ready m s) (ht : Ready m' t) :
    Alike L Set.univ L.expression (conditionOf inner) (conditionOf inner') s t := by
  have hforward (power : BindingPower) : Forward (inner power) := (hcalm power).forward
  refine (hinner .default s t hs ht).bind_open fun left left' s₁ t₁ u u' hu hu' hleft => ?_
  refine currentKind_bind (of_token fun htoken => ?_)
  rw [← L.kind_eq htoken]
  split
  case isTrue hrelational =>
    have hkind : s₁.cursor.current.kind ≠ .eof := by
      intro heof
      simp [heof, TokenKind.isRelational] at hrelational
    -- The label of a comparison repeats the operator, which is no string.
    have hstring : s₁.cursor.current.kind ≠ .string := by
      intro heof
      simp [heof, TokenKind.isRelational] at hrelational
    refine advance_bind (hs.of_append hu) (ht.of_append hu') hkind fun htoken hs₂ ht₂ => ?_
    refine (hinner .default _ _ hs₂ ht₂).bind_open fun right right' s₃ t₃ _ _ _ _ hright => ?_
    refine silent_bind (L.relational htoken hleft.2 hright.2) fun type type' _ _ _ _ htype => ?_
    exact pure ⟨L.node_operation (by decide) htoken hstring htype (L.node_line hleft.1) hleft.1
      hright.1, htype⟩
  case isFalse =>
    exact pure ⟨L.node_mk (L.label_construct _ (by decide)) hleft.2 (L.node_line hleft.1)
      (L.nodes_cons hleft.1 L.nodes_nil), hleft.2⟩

/-- The rule for the current token. -/
theorem operand (hs : Ready (m + 1) s) (ht : Ready (m' + 1) t) :
    Alike L Set.univ L.expression (operand inner .standard) (operand inner' .standard) s t := by
  refine currentKind_bind (of_token fun htoken => ?_)
  rw [← L.kind_eq htoken]
  split
  case h_1 => exact unexpected _
  case h_2 hrule => exact absurd hrule (Grammar.operand?_ne_condition _)
  case h_3 => exact literal hs ht
  case h_4 hrule => exact nameOrCall hcalm hinner hs ht (Grammar.eq_identifier_of_operand? hrule)
  case h_5 => exact grouping hcalm hinner hs ht

/-! ### Operators -/

/-- The operators of a level. The bounds `n` and `n'` may differ, since the two lists may part
behind; `Ready` says that neither is reached. -/
theorem operatorsWithin (power : BindingPower) {n n' : Nat} {left left' : Typed}
    (hleft : L.expression left left') (hs : Ready (m + 1) s) (ht : Ready (m' + 1) t)
    (hn : Ready n s) (hn' : Ready n' t) :
    Alike L Set.univ L.expression (operatorsWithin inner .standard power n left)
      (operatorsWithin inner' .standard power n' left') s t := by
  have hforward (power : BindingPower) : Forward (inner power) := (hcalm power).forward
  have hforward' (power : BindingPower) (n : Nat) (left : Typed) :
      Forward (Parse.operatorsWithin inner .standard power n left) :=
    (calm_operatorsWithin hcalm .standard power n left).forward
  induction n generalizing n' s t left left' with
  | zero => exact absurd hn.fits (Nat.not_lt_zero _)
  | succ n ih =>
    cases n' with
    | zero => exact absurd hn'.fits (Nat.not_lt_zero _)
    | succ n' =>
      refine currentKind_bind (of_token fun htoken => ?_)
      rw [← L.kind_eq htoken]
      split
      case h_1 => exact pure hleft
      case h_2 own hown =>
        split
        case isFalse => exact pure hleft
        case isTrue =>
          have hkind : s.cursor.current.kind ≠ .eof := by
            intro heof
            simp [heof, Rules.standard] at hown
          have hstring : s.cursor.current.kind ≠ .string := by
            intro heof
            simp [heof, Rules.standard] at hown
          -- Past the operator there is less to read, so it is taken before the rest is looked at.
          simp only [binaryOf, bind_assoc, pure_bind]
          refine advance_bind hs ht hkind fun htoken _ _ => ?_
          have hkind' := L.kind_ne htoken hkind
          refine (hinner own _ _ (hs.advance hkind) (ht.advance hkind')).bind_open
            fun right right' s₂ t₂ u u' hu hu' hright => ?_
          refine silent_bind (L.arithmetic htoken hleft.2 hright.2)
            fun type type' s₃ t₃ hs₃ ht₃ htype => ?_
          have hnode := L.node_operation (show "BinaryExpr" ∈ constructLabels by decide)
            htoken hstring htype (L.line_token htoken) hleft.1 hright.1
          exact ih ⟨hnode, htype⟩
            (((hs.advance_same hkind).of_append hu).of_cursor_eq hs₃)
            (((ht.advance_same hkind').of_append hu').of_cursor_eq ht₃)
            (((hn.advance hkind).of_append hu).of_cursor_eq hs₃)
            (((hn'.advance hkind').of_append hu').of_cursor_eq ht₃)

/-- An operand by `operand`, and its operators by `operatorsWithin`, for inner expressions that
are alike. -/
theorem expressionOf (power : BindingPower) (hs : Ready (m + 1) s) (ht : Ready (m' + 1) t) :
    Alike L Set.univ L.expression (expressionOf inner .standard power)
      (expressionOf inner' .standard power) s t := by
  have hforward : Forward (Parse.operand inner .standard) := (calm_operand hcalm _).forward
  have hforward' (n : Nat) (left : Typed) :
      Forward (Parse.operatorsWithin inner .standard power n left) :=
    (calm_operatorsWithin hcalm .standard power n left).forward
  refine (operand hcalm hinner hs ht).bind_open fun left left' s₁ t₁ u u' hu hu' hleft => ?_
  have hs₁ := hs.of_append hu
  have ht₁ := ht.of_append hu'
  exact remaining_bind (operatorsWithin hcalm hinner power hleft hs₁ ht₁
    ⟨hs₁.ends, Nat.lt_succ_self _⟩ ⟨ht₁.ends, Nat.lt_succ_self _⟩)

end Rules

/-! ### Whole expressions -/

/-- The recursion of expressions. The two sides may have different bounds; the induction is on the
one to the left. -/
theorem expressionWithin (power : BindingPower) (hs : Ready m s) (ht : Ready m' t) :
    Alike L Set.univ L.expression (expressionWithin .standard m power)
      (expressionWithin .standard m' power) s t := by
  induction m generalizing m' power s t with
  | zero => exact absurd hs.fits (Nat.not_lt_zero _)
  | succ m ih =>
    cases m' with
    | zero => exact absurd ht.fits (Nat.not_lt_zero _)
    | succ m' =>
      exact expressionOf (calm_expressionWithin .standard m)
        (fun power s t hs ht => ih power hs ht) power hs ht

/-- Expressions whose tokens are alike, up to the one behind. The bounds are those that
`remaining` gives on either side. -/
theorem expression (power : BindingPower) (hs : Ready m s) (ht : Ready m' t) :
    Alike L Set.univ L.expression (expression .standard power) (expression .standard power) s t :=
  remaining_bind (expressionWithin power ⟨hs.ends, Nat.lt_succ_self _⟩
    ⟨ht.ends, Nat.lt_succ_self _⟩)

/-- Conditions whose tokens are alike, up to the one behind: `conditionOf` over `expression`. -/
theorem condition (hs : Ready m s) (ht : Ready m' t) :
    Alike L Set.univ L.expression (condition .standard) (condition .standard) s t :=
  conditionOf (calm_expression .standard) (fun power _ _ hs ht => expression power hs ht) hs ht

/-- A call as a statement; nothing behind its parenthesis matters. -/
theorem call {F : Set TokenKind} (hs : Ready m s) (ht : Ready m' t) :
    Alike L F L.node (call .standard) (call .standard) s t :=
  callOf (calm_expression .standard) (fun power _ _ hs ht => expression power hs ht)
    (hs.mono (Nat.le_succ m)) (ht.mono (Nat.le_succ m'))

end Alike

end DrLang
