import DrLang.Proofs.Kinship

/-!
# Parses in lockstep

Where two token lists correspond from end to end, nothing has to be said about what a step looks
at, and the lists need not be closed: from any two states with such tokens ahead, each step ends in
the same way and at the same place.

- `Abreast`: states with tokens ahead that correspond, and notes that do.
- `Lockstep`: two steps that leave such states such states.
- `Lockstep.bind`, `Lockstep.silent`, `Lockstep.expect`: steps in sequence.
- `Lockstep.expression`, `Lockstep.condition`, `Lockstep.call`: the rules for expressions.
-/

namespace DrLang

open Parse

/-- Two states whose tokens ahead correspond one by one, and whose notes correspond. -/
structure Abreast (K : Kinship) (s t : Parser) : Prop where
  tokens : List.Forall₂ K.token s.cursor.tokens t.cursor.tokens
  notes : K.notes s.notes t.notes

namespace Abreast

variable {K : Kinship} {s t : Parser}

/-- The tokens to be looked at next correspond, which is all that a rule decides by. -/
theorem current (h : Abreast K s t) : K.token s.cursor.current t.cursor.current :=
  (List.forall₂_cons.1 h.tokens).1

theorem rest (h : Abreast K s t) : List.Forall₂ K.token s.cursor.rest t.cursor.rest :=
  (List.forall₂_cons.1 h.tokens).2

/-- Lists that correspond have one length, so loops and the recursion have one bound, which is
`remaining` and one more. -/
theorem remaining (h : Abreast K s t) : t.cursor.remaining = s.cursor.remaining :=
  h.rest.length_eq.symm

/-- The token behind the current one has the same class on both sides; at the end of a list it is
the current one again. -/
theorem peekKind (h : Abreast K s t) : t.cursor.peekKind = s.cursor.peekKind := by
  have hrest := h.rest
  rw [Cursor.peekKind, Cursor.peekKind]
  cases hs : s.cursor.rest with
  | nil =>
    rw [hs, List.forall₂_nil_left_iff] at hrest
    rw [hrest]
    exact (K.kind_eq h.current).symm
  | cons next ahead =>
    rw [hs, List.forall₂_cons_left_iff] at hrest
    obtain ⟨next', ahead', hnext, -, ht⟩ := hrest
    rw [ht]
    exact (K.kind_eq hnext).symm

/-- At the last token of two lists neither cursor moves; before it, both do. -/
theorem advance (h : Abreast K s t) :
    Abreast K { s with cursor := s.cursor.advance } { t with cursor := t.cursor.advance } := by
  have hrest := h.rest
  refine ⟨?_, h.notes⟩
  show List.Forall₂ K.token s.cursor.advance.tokens t.cursor.advance.tokens
  rw [Cursor.advance, Cursor.advance]
  cases hs : s.cursor.rest with
  | nil =>
    rw [hs, List.forall₂_nil_left_iff] at hrest
    rw [hrest]
    exact h.tokens
  | cons next ahead =>
    rw [hs, List.forall₂_cons_left_iff] at hrest
    obtain ⟨next', ahead', hnext, hahead, ht⟩ := hrest
    rw [ht]
    exact .cons hnext hahead

end Abreast

section Lockstep

variable {α β γ δ : Type} {K : Kinship} {P : α → β → Prop} {R : γ → δ → Prop} {p : Parse α}
  {q : Parse β} {f : α → Parse γ} {g : β → Parse δ} {s t : Parser}

/-- From states that are abreast, two steps end in the same way, and the states behind them are
abreast. -/
def Lockstep (K : Kinship) (P : α → β → Prop) (p : Parse α) (q : Parse β) (s t : Parser) : Prop :=
  Abreast K s t →
    EndAlike K.token P (p.runFrom s).1 (q.runFrom t).1 ∧ Abreast K (p.runFrom s).2 (q.runFrom t).2

namespace Lockstep

theorem congr {p' : Parse α} {q' : Parse β} (hp : p.runFrom s = p'.runFrom s)
    (hq : q.runFrom t = q'.runFrom t) (h : Lockstep K P p' q' s t) : Lockstep K P p q s t := by
  rw [Lockstep, hp, hq]
  exact h

/-- Results that are related by `P` are related by anything that follows from it. -/
theorem imp {Q : α → β → Prop} (h : Lockstep K P p q s t) (hPQ : ∀ a b, P a b → Q a b) :
    Lockstep K Q p q s t :=
  fun habreast => ⟨(h habreast).1.imp hPQ, (h habreast).2⟩

/-- The current tokens correspond. -/
theorem of_token (h : K.token s.cursor.current t.cursor.current → Lockstep K P p q s t) :
    Lockstep K P p q s t :=
  fun habreast => h habreast.current habreast

/-- A sequence of steps: the second ones start from states that are `Abreast`, and are left out on
both sides if the first ones fail. -/
theorem bind (hp : Lockstep K P p q s t)
    (hf : ∀ a b s₁ t₁, P a b → Lockstep K R (f a) (g b) s₁ t₁) :
    Lockstep K R (p >>= f) (q >>= g) s t := by
  intro habreast
  have hstep := hp habreast
  rw [runFrom_bind, runFrom_bind]
  generalize p.runFrom s = run, q.runFrom t = run' at hstep
  obtain ⟨r, s₁⟩ := run
  obtain ⟨r', t₁⟩ := run'
  obtain ⟨houtcome, hbehind⟩ : EndAlike K.token P r r' ∧ Abreast K s₁ t₁ := hstep
  cases houtcome with
  | ok hP => exact hf _ _ s₁ t₁ hP hbehind
  | error expected htoken => exact ⟨.error expected htoken, hbehind⟩

/-! ### Steps that take no token -/

theorem pure {a : α} {b : β} (h : P a b) : Lockstep K P (pure a) (pure b) s t :=
  fun habreast => ⟨.ok h, habreast⟩

/-- Both sides blame tokens that correspond, and expect the same: `EndAlike.error`. -/
theorem throw {a b : Token} (expected : Expectation) (h : K.token a b) :
    Lockstep K P (throw (.atToken expected a)) (throw (.atToken expected b)) s t :=
  fun habreast => ⟨.error expected h, habreast⟩

theorem unexpected (expected : Expectation) :
    Lockstep K P (unexpected expected) (unexpected expected) s t :=
  fun habreast => ⟨.error expected habreast.current, habreast⟩

/-- What a kinship says of naming and typing by `Respects`, it says of silent steps beside each
other; their cursors stay. -/
theorem silent (h : Respects K.notes P p q) : Lockstep K P p q s t := by
  intro habreast
  obtain ⟨a, n, b, m, hp, hq, hP, hnotes⟩ := h _ _ habreast.notes
  rw [show p.runFrom s = _ from hp s.cursor, show q.runFrom t = _ from hq t.cursor]
  exact ⟨.ok hP, habreast.tokens, hnotes⟩

/-! ### Tokens -/

/-- The current tokens are of one class. -/
theorem currentKind_bind {f : TokenKind → Parse γ} {g : TokenKind → Parse δ}
    (h : Lockstep K R (f s.cursor.current.kind) (g s.cursor.current.kind) s t) :
    Lockstep K R (currentKind >>= f) (currentKind >>= g) s t := by
  intro habreast
  rw [runFrom_currentKind_bind, runFrom_currentKind_bind, ← K.kind_eq habreast.current]
  exact h habreast

theorem peekKind_bind {f : TokenKind → Parse γ} {g : TokenKind → Parse δ}
    (h : Lockstep K R (f s.cursor.peekKind) (g s.cursor.peekKind) s t) :
    Lockstep K R (peekKind >>= f) (peekKind >>= g) s t := by
  intro habreast
  rw [runFrom_peekKind_bind, runFrom_peekKind_bind, habreast.peekKind]
  exact h habreast

/-- As many tokens are left, so the same bound serves both. -/
theorem remaining_bind {f : Nat → Parse γ} {g : Nat → Parse δ}
    (h : Lockstep K R (f s.cursor.remaining) (g s.cursor.remaining) s t) :
    Lockstep K R (remaining >>= f) (remaining >>= g) s t := by
  intro habreast
  rw [runFrom_remaining_bind, runFrom_remaining_bind, habreast.remaining]
  exact h habreast

/-- The tokens that are taken correspond. The one on the left is the current one, whose class the
caller may know. -/
theorem advance : Lockstep K (fun a b => K.token a b ∧ a = s.cursor.current) advance advance s t :=
  fun habreast => ⟨.ok ⟨habreast.current, rfl⟩, habreast.advance⟩

/-- Both sides take a token of the class asked for, or both fail there. -/
theorem expect (kind : TokenKind) :
    Lockstep K (fun a b => K.token a b ∧ a.kind = kind) (expect kind) (expect kind) s t := by
  refine currentKind_bind ?_
  split
  case isTrue hkind => exact fun habreast => ⟨.ok ⟨habreast.current, hkind⟩, habreast.advance⟩
  case isFalse => exact unexpected _

end Lockstep

end Lockstep

/-! ### Expressions -/

namespace Lockstep

variable {K : Kinship} {s t : Parser}

/-- Literals that correspond, by `Kinship.literal`. -/
theorem literal : Lockstep K K.expression literal literal s t := by
  refine currentKind_bind ?_
  split
  case h_1 => exact unexpected _
  case h_2 type htype =>
    refine advance.bind fun token token' _ _ h => pure ⟨?_, K.type_literal htype⟩
    exact K.literal h.1 (by rw [h.2]; exact htype)

section Rules

variable {inner : BindingPower → Parse Typed}
  (hinner : ∀ power s t, Lockstep K K.expression (inner power) (inner power) s t)
include hinner

/-- Arguments, by induction on the bound, which is the same on both sides. -/
theorem argumentsWithin (m : Nat) :
    Lockstep K (List.Forall₂ K.node) (argumentsWithin inner m) (argumentsWithin inner m) s t := by
  induction m generalizing s t with
  | zero => exact pure .nil
  | succ m ih =>
    refine (hinner .default s t).bind fun argument argument' s₁ t₁ h => currentKind_bind ?_
    split
    · exact advance.bind fun _ _ _ _ _ => ih.bind fun _ _ _ _ hothers =>
        pure (.cons h.1 hothers)
    · exact pure (.cons h.1 .nil)

theorem arguments :
    Lockstep K (List.Forall₂ K.node) (arguments inner) (arguments inner) s t := by
  refine currentKind_bind ?_
  split
  · exact pure .nil
  · exact remaining_bind (argumentsWithin hinner _)

/-- Calls, by `Kinship.call`. The name that is called is resolved on both sides, as a use of a
name. -/
theorem callOf : Lockstep K K.node (callOf inner) (callOf inner) s t := by
  refine (expect _).bind fun callee callee' _ _ h => ?_
  refine (silent (K.respects_resolve h.1 h.2)).bind fun _ _ _ _ _ => ?_
  refine (expect _).bind fun _ _ _ _ _ => (arguments hinner).bind fun nodes nodes' _ _ hnodes => ?_
  exact (expect _).bind fun _ _ _ _ _ => pure (K.call h.1 h.2 hnodes)

/-- Whether a name is called is seen from the token behind it. -/
theorem nameOrCall : Lockstep K K.expression (nameOrCall inner) (nameOrCall inner) s t := by
  refine peekKind_bind ?_
  split
  · exact (callOf hinner).bind fun _ _ _ _ hnode => pure ⟨hnode, K.type_unknown⟩
  · refine (expect _).bind fun token token' _ _ h => ?_
    exact (silent (K.respects_resolve h.1 h.2)).bind fun type type' _ _ htype =>
      pure ⟨K.name h.1 h.2 htype, htype⟩

/-- Parentheses, by `Kinship.wrapped`, with the type and the line of what is in them. -/
theorem grouping : Lockstep K K.expression (grouping inner) (grouping inner) s t := by
  refine (expect _).bind fun _ _ _ _ _ => (hinner .default _ _).bind fun e e' _ _ he => ?_
  exact (expect _).bind fun _ _ _ _ _ => pure ⟨K.wrapped (by decide) he.2 he.1, he.2⟩

/-- Conditions: with one side they are `Kinship.wrapped`, with two `Kinship.compared`. -/
theorem conditionOf : Lockstep K K.expression (conditionOf inner) (conditionOf inner) s t := by
  refine (hinner .default s t).bind fun left left' s₁ t₁ hleft => currentKind_bind ?_
  split
  case isTrue hrelational =>
    refine advance.bind fun operator operator' _ _ h => ?_
    have hkind : operator.kind.isRelational = true := h.2 ▸ hrelational
    refine (hinner .default _ _).bind fun right right' _ _ hright => ?_
    refine (silent (K.relational h.1 hkind hleft.2 hright.2)).bind fun type type' _ _ htype => ?_
    exact pure ⟨K.compared h.1 hkind htype hleft.1 hright.1, htype⟩
  case isFalse => exact pure ⟨K.wrapped (by decide) hleft.2 hleft.1, hleft.2⟩

/-- Operators, by `Kinship.joined`. That the current token is an operator comes from the table,
and is needed for its text. -/
theorem binaryOf (power : BindingPower) {left left' : Typed} (hleft : K.expression left left')
    (hkind : (Rules.standard.operator? s.cursor.current.kind).isSome = true) :
    Lockstep K K.expression (binaryOf inner left power) (binaryOf inner left' power) s t := by
  refine advance.bind fun operator operator' _ _ h => ?_
  have hoperator : (Rules.standard.operator? operator.kind).isSome = true := h.2 ▸ hkind
  refine (hinner power _ _).bind fun right right' _ _ hright => ?_
  refine (silent (K.arithmetic h.1 hoperator hleft.2 hright.2)).bind fun type type' _ _ htype => ?_
  exact pure ⟨K.joined h.1 hoperator htype hleft.1 hright.1, htype⟩

theorem operand :
    Lockstep K K.expression (operand inner .standard) (operand inner .standard) s t := by
  refine currentKind_bind ?_
  split
  · exact unexpected _
  · exact conditionOf hinner
  · exact literal
  · exact nameOrCall hinner
  · exact grouping hinner

/-- The operators of a level, by induction on the bound `m`; the operands to the left stay related
from turn to turn. -/
theorem operatorsWithin (power : BindingPower) (m : Nat) {left left' : Typed}
    (hleft : K.expression left left') :
    Lockstep K K.expression (operatorsWithin inner .standard power m left)
      (operatorsWithin inner .standard power m left') s t := by
  induction m generalizing s t left left' with
  | zero => exact pure hleft
  | succ m ih =>
    refine currentKind_bind ?_
    split
    case h_1 => exact pure hleft
    case h_2 own hown =>
      have hkind : (Rules.standard.operator? s.cursor.current.kind).isSome = true := by
        rw [hown]
        rfl
      -- The kinds ahead are equal, so both loops go on or both are over.
      split
      case isTrue =>
        exact (binaryOf hinner own hleft hkind).bind fun _ _ _ _ hjoined => ih hjoined
      case isFalse => exact pure hleft

theorem expressionOf (power : BindingPower) :
    Lockstep K K.expression (expressionOf inner .standard power)
      (expressionOf inner .standard power) s t :=
  (operand hinner).bind fun _ _ _ _ hleft => remaining_bind (operatorsWithin hinner power _ hleft)

end Rules

/-- The recursion of expressions, by induction on `bound`: `expressionOf` with the hypothesis as
its inner parser. -/
theorem expressionWithin (bound : Nat) (power : BindingPower) :
    Lockstep K K.expression (expressionWithin .standard bound power)
      (expressionWithin .standard bound power) s t := by
  induction bound generalizing power s t with
  | zero => exact unexpected _
  | succ bound ih => exact expressionOf (fun power s t => ih power) power

theorem expression (power : BindingPower) :
    Lockstep K K.expression (expression .standard power) (expression .standard power) s t :=
  remaining_bind (expressionWithin _ power)

theorem condition : Lockstep K K.expression (condition .standard) (condition .standard) s t :=
  conditionOf fun power _ _ => expression power

theorem call : Lockstep K K.node (call .standard) (call .standard) s t :=
  callOf fun power _ _ => expression power

end Lockstep

end DrLang
