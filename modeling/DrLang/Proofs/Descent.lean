import DrLang.Proofs.Reading.Expression
import DrLang.Proofs.Unrolling

/-!
# Precedence by descent

One loop parses the operators after an operand, and calls itself with the power of each operator
for what stands to the right of it. A grammar with a level for each power has no powers to
compare: an expression is terms with `+` and `-` between them, a term is factors with `*` and `/`
between them, and each level joins what it reads to the left as it goes. The two parse the same,
to the last note: both loops are the only solution of one equation.

- `factorOf`, `termOf`, `sumOf`: the levels, over a parser of the expressions inside a factor.
- `descent`: the levels tied together, so many times.
- `Ceases`: where an expression of some power ends.
- `operatorsAfter_default`: the loop over all operators is a loop over terms, once the products
  before it are joined.
- `expression_eq_descent`: the two are equal.
-/

namespace DrLang

open Parse

/-! ### The levels -/

/-- A factor: a literal, a name, a call or an expression in parentheses. -/
def factorOf (e : Parse Typed) : Parse Typed := do
  match ← currentKind with
  | .integer | .double | .string | .boolean => literal
  | .identifier => nameOrCall fun _ => e
  | .openParen => grouping fun _ => e
  | _ => unexpected .expression

section Chain

variable (operators : List TokenKind) (part : Parse Typed)

/-- One operator with the part behind it, joined to what stands to the left. The operator is
checked as soon as its right operand is read. -/
def chainTurn (next : Typed → Parse Typed) (left : Typed) : Parse Typed := do
  if (← currentKind) ∈ operators then
    let operator ← advance
    let right ← part
    let type ← typeOrReport operator.line (Typing.arithmetic left.type operator.value right.type)
    next ⟨⟨"BinaryExpr", type, operator.line,
      [left.node, .leaf operator.value operator.line .void, right.node]⟩, type⟩
  else
    return left

/-- All operators that are left, each with the part behind it. -/
def chainAfter (left : Typed) : Parse Typed := do
  (chainTurn operators part)^[(← remaining) + 1] pure left

/-- Parts with operators between them. -/
def chain : Parse Typed := do
  chainAfter operators part (← part)

end Chain

/-- A term: factors with `*` and `/` between them. -/
def termOf (e : Parse Typed) : Parse Typed :=
  chain [.star, .slash] (factorOf e)

/-- An expression: terms with `+` and `-` between them. -/
def sumOf (e : Parse Typed) : Parse Typed :=
  chain [.plus, .dash] (termOf e)

/-- Expressions inside expressions, so many levels deep, and whatever else below them. -/
def descent (beyond : Parse Typed) : Nat → Parse Typed
  | 0 => beyond
  | depth + 1 => sumOf (descent beyond depth)

/-! ### One loop of operators -/

section Chain

variable {operators : List TokenKind} {part part' : Parse Typed} {n : Nat}

/-- A turn of a chain goes on behind an operator that was taken, by `runFrom_advance_bind_congr`.
-/
theorem descends_chainTurn (heof : .eof ∉ operators) (hpart : Forward part) :
    Descends (chainTurn operators part) where
  forward {q} hq left := by
    unfold chainTurn
    infer_instance
  agrees {n q q'} hq h left := by
    intro s hs
    unfold chainTurn
    rw [runFrom_currentKind_bind, runFrom_currentKind_bind]
    split
    case isFalse => rfl
    case isTrue hkind =>
      -- The operator is one more token, so the part behind it is read one level lower.
      apply runFrom_advance_bind_congr hs (ne_of_mem_of_not_mem hkind heof)
      intro operator
      apply hpart.agrees_bind
      intro right
      exact (silent_typeOrReport _ _).forward.agrees_bind fun _ => h _

/-- A chain comes to an end, so what stands below its turns does not matter:
`Descends.terminates`. -/
theorem terminates_chain (heof : .eof ∉ operators) (hpart : Forward part) :
    Terminates (chainTurn operators part) (chainAfter operators part) := by
  apply (descends_chainTurn heof hpart).terminates pure
  · exact fun _ => inferInstance
  · exact fun left s => runFrom_remaining_bind s _

/-- The operators of a level and their parts do not move back. -/
theorem forward_chainAfter (heof : .eof ∉ operators) (hpart : Forward part) (left : Typed) :
    Forward (chainAfter operators part left) :=
  calm_remaining.forward.bind fun _ =>
    (descends_chainTurn heof hpart).forward_iterate (fun _ => inferInstance) _ left

theorem forward_chain (heof : .eof ∉ operators) (hpart : Forward part) :
    Forward (chain operators part) :=
  hpart.bind fun left => forward_chainAfter heof hpart left

/-- Where no operator is next, the chain ends. -/
theorem runFrom_chainAfter_of_notMem {s : Parser} (h : s.cursor.current.kind ∉ operators)
    (left : Typed) : (chainAfter operators part left).runFrom s = (.ok left, s) := by
  unfold chainAfter
  rw [runFrom_remaining_bind, Function.iterate_succ_apply', chainTurn, runFrom_currentKind_bind,
    if_neg h, runFrom_pure]

/-- Where one is, it is joined as one loop for all operators joins it. -/
theorem runFrom_chainTurn_of_mem {s : Parser} (h : s.cursor.current.kind ∈ operators)
    (inner : BindingPower → Parse Typed) (own : BindingPower) (next : Typed → Parse Typed)
    (left : Typed) :
    (chainTurn operators (inner own) next left).runFrom s =
      (binaryOf inner left own >>= next).runFrom s := by
  unfold chainTurn binaryOf
  rw [runFrom_currentKind_bind, if_pos h]
  simp only [bind_assoc, pure_bind]

/-! Parts that agree make chains that agree. -/

theorem agrees_iterate_chainTurn (hpart : Forward part) (h : Agrees n part part') (m : Nat)
    (left : Typed) :
    Agrees n ((chainTurn operators part)^[m] pure left)
      ((chainTurn operators part')^[m] pure left) := by
  induction m generalizing left with
  | zero => exact .refl _ _
  | succ m ih =>
    rw [Function.iterate_succ_apply', Function.iterate_succ_apply']
    apply calm_currentKind.forward.agrees_bind
    intro kind
    split
    · apply calm_advance.forward.agrees_bind
      intro operator
      apply h.bind hpart
      intro right
      exact (silent_typeOrReport _ _).forward.agrees_bind fun _ => ih _
    · exact .refl _ _

theorem agrees_chainAfter (hpart : Forward part) (h : Agrees n part part') (left : Typed) :
    Agrees n (chainAfter operators part left) (chainAfter operators part' left) :=
  calm_remaining.forward.agrees_bind fun _ => agrees_iterate_chainTurn hpart h _ left

theorem agrees_chain (hpart : Forward part) (h : Agrees n part part') :
    Agrees n (chain operators part) (chain operators part') :=
  h.bind hpart fun left => agrees_chainAfter hpart h left

end Chain

/-! ### The levels as turns -/

section Levels

variable {inner : BindingPower → Parse Typed} {e e' : Parse Typed} {n : Nat}

/-- Arguments are parsed with the power `default`, so no other matters to them. -/
theorem argumentsWithin_default (bound : Nat) :
    argumentsWithin (fun _ => inner .default) bound = argumentsWithin inner bound := by
  induction bound with
  | zero => rfl
  | succ bound ih => rw [argumentsWithin, argumentsWithin, ih]

/-- The expressions inside an operand are all of the least power. -/
theorem factorOf_eq_operand : factorOf (inner .default) = operand inner .standard := by
  have hcall : nameOrCall (fun _ => inner .default) = nameOrCall inner := by
    simp only [nameOrCall, callOf, arguments, argumentsWithin_default]
  unfold factorOf operand
  congr 1
  funext kind
  cases kind <;> first | rfl | exact hcall

/-- A factor agrees for `n + 1` if the expressions in it do for `n`, since it takes a token first.
-/
theorem agrees_factorOf (he : Forward e) (h : Agrees n e e') :
    Agrees (n + 1) (factorOf e) (factorOf e') := by
  have hinner : Agrees (n + 1) (operand (fun _ => e) .standard) (operand (fun _ => e') .standard) :=
    agrees_operand (fun _ => he) fun _ => h
  rw [← factorOf_eq_operand, ← factorOf_eq_operand] at hinner
  exact hinner

theorem forward_factorOf (he : Forward e) : Forward (factorOf e) := by
  have hinner : Forward (operand (fun _ => e) .standard) := inferInstance
  rw [← factorOf_eq_operand] at hinner
  exact hinner

theorem forward_termOf (he : Forward e) : Forward (termOf e) :=
  forward_chain (by decide) (forward_factorOf he)

/-- A level takes a token before it turns to the expressions inside it. -/
theorem descends_sumOf : Descends fun (e : Unit → Parse Typed) _ => sumOf (e ()) where
  forward he _ := forward_chain (by decide) (forward_termOf (he ()))
  agrees he h _ :=
    agrees_chain (forward_termOf (he ()))
      (agrees_chain (forward_factorOf (he ())) (agrees_factorOf (he ()) (h ())))

/-- The descent, as turns of the kind that `Descends` is about: `Function.iterate`, with `beyond`
at the bottom. -/
theorem descent_eq_iterate (beyond : Parse Typed) (depth : Nat) :
    descent beyond depth =
      (fun (e : Unit → Parse Typed) _ => sumOf (e ()))^[depth] (fun _ => beyond) () := by
  induction depth with
  | zero => rfl
  | succ depth ih => rw [Function.iterate_succ_apply', ← ih, descent]

end Levels

/-! ### Where an expression ends -/

/-- No operator that binds more tightly than `power` is of class `kind`. -/
def Ceases (power : BindingPower) (kind : TokenKind) : Prop :=
  ∀ own, Rules.standard.operator? kind = some own → ¬power < own

section Operators

variable {inner : BindingPower → Parse Typed} {s : Parser} {n : Nat}

/-- An operator that binds more tightly is joined, and then the next one is looked at ... -/
theorem runFrom_operatorsTurn_of_lt {power own : BindingPower}
    (hown : Rules.standard.operator? s.cursor.current.kind = some own) (hlt : power < own)
    (next : Typed → Parse Typed) (left : Typed) :
    (operatorsTurn inner power next left).runFrom s =
      (binaryOf inner left own >>= next).runFrom s := by
  unfold operatorsTurn
  rw [runFrom_currentKind_bind, hown]
  simp only [if_pos hlt]

/-- ... and where there is none, the loop ends. -/
theorem runFrom_operatorsTurn_of_ceases {power : BindingPower}
    (h : Ceases power s.cursor.current.kind) (next : Typed → Parse Typed) (left : Typed) :
    (operatorsTurn inner power next left).runFrom s = (.ok left, s) := by
  unfold operatorsTurn
  rw [runFrom_currentKind_bind]
  split
  case h_1 => rfl
  case h_2 own hown => rw [if_neg (h own hown), runFrom_pure]

/-- Where no operator binds more tightly, by `Ceases`, the loop stops at once. -/
theorem runFrom_operatorsAfter_of_ceases {power : BindingPower}
    (h : Ceases power s.cursor.current.kind) (left : Typed) :
    (operatorsAfter inner power left).runFrom s = (.ok left, s) := by
  unfold operatorsAfter
  rw [runFrom_remaining_bind, operatorsWithin_eq_iterate, Function.iterate_succ_apply']
  exact runFrom_operatorsTurn_of_ceases h _ left

/-- No operator binds more tightly than products. -/
theorem ceases_multiplicative (kind : TokenKind) : Ceases .multiplicative kind := by
  intro own _
  cases own <;> decide

/-- The loop over the operators of a term is the chain of a term. -/
theorem operatorsTurn_additive :
    operatorsTurn inner .additive = chainTurn [.star, .slash] (inner .multiplicative) := by
  funext next left
  unfold operatorsTurn chainTurn binaryOf
  congr 1
  funext kind
  rcases Grammar.operator?_standard kind with ⟨hmem, hown⟩ | ⟨hmem, hown⟩ | ⟨⟨-, hnot⟩, hown⟩
  · have hnot : kind ∉ [.star, .slash] := by
      revert hmem
      cases kind <;> decide
    simp only [hown, if_neg hnot]
    rfl
  · have hlt : BindingPower.additive < .multiplicative := by decide
    simp only [hown, if_pos hmem, if_pos hlt, bind_assoc, pure_bind]
  · simp only [hown, if_neg hnot]

/-- The loop with the power of sums is the loop over products: the one operator of a higher power
is what `chainAfter` asks for. -/
theorem operatorsAfter_additive :
    operatorsAfter inner .additive = chainAfter [.star, .slash] (inner .multiplicative) := by
  funext left
  unfold operatorsAfter chainAfter
  simp only [operatorsWithin_eq_iterate, operatorsTurn_additive]

/-! ### The loop over all operators -/

/-- What is left of an expression: the operators of the term that began with `left`, and then
those between terms. -/
def restOf (inner : BindingPower → Parse Typed) (left : Typed) : Parse Typed :=
  operatorsAfter inner .additive left >>= chainAfter [.plus, .dash] (inner .additive)

/-- Where no product is next, the rest begins between two terms. -/
theorem runFrom_restOf_of_ceases (h : Ceases .additive s.cursor.current.kind) (left : Typed) :
    (restOf inner left).runFrom s =
      (chainAfter [.plus, .dash] (inner .additive) left).runFrom s := by
  rw [restOf, runFrom_bind, runFrom_operatorsAfter_of_ceases h]

variable [hforward : ∀ power, Forward (inner power)]

instance (power : BindingPower) (left : Typed) : Forward (operatorsAfter inner power left) := by
  unfold operatorsAfter
  infer_instance

/-- Behind the loop no operator is left that would go on with it. -/
theorem ensures_operatorsAfter (power : BindingPower) (left : Typed) (hs : Ready n s) :
    Ensures (operatorsAfter inner power left) s
      fun _ s' => Ceases power s'.cursor.current.kind := by
  induction n generalizing s left with
  | zero => exact absurd hs.fits (Nat.not_lt_zero _)
  | succ n ih =>
    have hafter (left : Typed) : Forward (operatorsAfter inner power left) := inferInstance
    have hturn := (terminates_operators power).fixed hafter (n + 1) left s hs
    -- Either no operator that binds more tightly stands ahead and the loop is over, or one is taken
    -- and the induction goes on behind it.
    by_cases hceases : Ceases power s.cursor.current.kind
    · intro a s' hrun
      rw [runFrom_operatorsAfter_of_ceases hceases] at hrun
      obtain ⟨-, rfl⟩ := Prod.mk.inj hrun
      exact hceases
    · unfold Ceases at hceases
      push Not at hceases
      obtain ⟨own, hown, hlt⟩ := hceases
      refine Ensures.congr (hturn.trans (runFrom_operatorsTurn_of_lt hown hlt _ left)) ?_
      exact (ensures_binaryOf hs hown left).bind fun joined s' hs' => ih joined hs'

theorem forward_restOf (left : Typed) : Forward (restOf inner left) :=
  Forward.bind inferInstance fun joined => forward_chainAfter (by decide) (hforward _) joined

section Stops

variable (hstops : ∀ n s, Ready n s →
  Ensures (inner .additive) s fun _ s' => Ceases .additive s'.cursor.current.kind)
include hstops

omit hforward in
/-- Behind a term that was joined no product is left, for the loop inside it has joined them. -/
theorem ensures_ceases_binaryOf (hs : Ready n s) (left : Typed) :
    Ensures (binaryOf inner left .additive) s
      fun _ s' => Ceases .additive s'.cursor.current.kind := by
  refine (calm_advance.forward.ensures_ready hs).bind fun operator s₁ hs₁ => ?_
  refine (hstops n s₁ hs₁).bind fun right s₂ hceases => ?_
  have hsilent : Silent (typeOrReport operator.line
      (Typing.arithmetic left.type operator.value right.type) >>= fun type =>
        pure (⟨⟨"BinaryExpr", type, operator.line,
          [left.node, .leaf operator.value operator.line .void, right.node]⟩, type⟩ : Typed)) :=
    (silent_typeOrReport _ _).bind fun _ => silent_pure _
  obtain ⟨joined, n', hrun, -⟩ := hsilent.yields s₂
  intro _ s' hrun'
  obtain ⟨-, rfl⟩ := Prod.mk.inj (hrun.symm.trans hrun')
  exact hceases

/-- The rest of an expression is its own turn of the loop over all operators. -/
theorem restOf_fixed (n : Nat) (left : Typed) :
    Agrees n (restOf inner left) (operatorsTurn inner .default (restOf inner) left) := by
  intro s hs
  rcases Grammar.operator?_standard s.cursor.current.kind with
    ⟨hmem, hown⟩ | ⟨hmem, hown⟩ | ⟨⟨hnot, -⟩, hown⟩
  · -- A sum: no product is next, and none behind the term that is joined.
    have hceases : Ceases .additive s.cursor.current.kind := by
      intro own h
      obtain rfl := Option.some.inj (hown.symm.trans h)
      decide
    have hchain : Terminates (chainTurn [.plus, .dash] (inner .additive)) _ :=
      terminates_chain (by decide) (hforward .additive)
    have hfixed := hchain.fixed (forward_chainAfter (by decide) (hforward .additive)) n left s hs
    rw [runFrom_restOf_of_ceases hceases, hfixed, runFrom_chainTurn_of_mem hmem inner .additive,
      runFrom_operatorsTurn_of_lt hown (by decide)]
    apply runFrom_bind_congr rfl
    intro joined s' hrun
    have hbehind := ensures_ceases_binaryOf hstops hs left joined s' hrun
    exact (runFrom_restOf_of_ceases hbehind joined).symm
  · -- A product: both loops join it.
    have hfixed := (terminates_operators .additive).fixed
      (fun left => (inferInstance : Forward (operatorsAfter inner .additive left))) n left s hs
    rw [runFrom_operatorsTurn_of_lt hown (by decide)] at hfixed ⊢
    rw [restOf, runFrom_bind_congr hfixed fun _ _ _ => rfl, bind_assoc]
    rfl
  · -- No operator: both loops end.
    have hceases (power : BindingPower) : Ceases power s.cursor.current.kind := by
      intro own h
      simp [hown] at h
    rw [runFrom_restOf_of_ceases (hceases _), runFrom_chainAfter_of_notMem hnot,
      runFrom_operatorsTurn_of_ceases (hceases _)]

/-- The loop over all operators joins the products that are next, and then the terms. -/
theorem operatorsAfter_default (n : Nat) (left : Typed) :
    Agrees n (operatorsAfter inner .default left) (restOf inner left) := by
  intro s hs
  have hdescends : Descends (operatorsTurn inner .default) := descends_operatorsTurn .default
  have hrest : Agrees n (restOf inner left)
      ((operatorsTurn inner .default)^[n] (restOf inner) left) :=
    hdescends.agrees_of_fixed forward_restOf (restOf_fixed hstops) (restOf inner) le_rfl left
  rw [hrest s hs]
  exact ((terminates_operators .default).unrolls (restOf inner) n left s hs).symm

end Stops

end Operators

/-! ### Whole expressions -/

/-- An expression is `operand` and `operatorsAfter`, with expressions inside it; this is one turn
of the recursion. -/
theorem expression_fixed (n : Nat) (power : BindingPower) :
    Agrees n (expression .standard power)
      (operand (expression .standard) .standard >>= operatorsAfter (expression .standard) power) :=
  terminates_expression.fixed (fun _ => inferInstance) n power

/-- Behind an expression no operator is left that would go on with it. -/
theorem ensures_ceases_expression (power : BindingPower) (n : Nat) (s : Parser) (hs : Ready n s) :
    Ensures (expression .standard power) s fun _ s' => Ceases power s'.cursor.current.kind := by
  have hoperand : Forward (operand (expression .standard) .standard) := inferInstance
  refine Ensures.congr (expression_fixed n power s hs) ?_
  exact (hoperand.ensures_ready hs).bind fun left s' hs' => ensures_operatorsAfter power left hs'

/-- With the power `multiplicative`, an expression is a factor: by `ceases_multiplicative`, no
operator goes on with it. -/
theorem agrees_factor (n : Nat) :
    Agrees n (expression .standard .multiplicative) (factorOf (expression .standard .default)) := by
  intro s hs
  rw [expression_fixed n _ s hs, factorOf_eq_operand, runFrom_bind]
  split
  case h_1 left s' hrun =>
    rw [runFrom_operatorsAfter_of_ceases (ceases_multiplicative _), hrun]
  case h_2 e s' hrun => rw [hrun]

/-- With the power `additive`, an expression is a term, by `operatorsAfter_additive`. -/
theorem agrees_term (n : Nat) :
    Agrees n (expression .standard .additive) (termOf (expression .standard .default)) := by
  apply (expression_fixed n .additive).trans
  rw [operatorsAfter_additive, termOf, chain, factorOf_eq_operand]
  apply Forward.agrees_bind inferInstance
  intro left
  rw [← factorOf_eq_operand]
  exact agrees_chainAfter inferInstance (agrees_factor n) left

/-- With the power `default`, an expression is a sum of terms: the step that
`operatorsAfter_default` is for. -/
theorem agrees_sum (n : Nat) :
    Agrees n (expression .standard .default) (sumOf (expression .standard .default)) := by
  have hoperand : Forward (operand (expression .standard) .standard) := inferInstance
  have hrest : Agrees n (expression .standard .default)
      (operand (expression .standard) .standard >>= restOf (expression .standard)) :=
    (expression_fixed n .default).trans <| hoperand.agrees_bind fun left =>
      operatorsAfter_default (fun n s hs => ensures_ceases_expression .additive n s hs) n left
  have hterm : Agrees n (operand (expression .standard) .standard >>=
      operatorsAfter (expression .standard) .additive) (termOf (expression .standard .default)) :=
    (expression_fixed n .additive).symm.trans (agrees_term n)
  apply hrest.trans
  unfold restOf
  rw [← bind_assoc]
  exact hterm.bind inferInstance fun left => agrees_chainAfter inferInstance (agrees_term n) left

/-- What an expression parses is what its levels parse, at any depth that exceeds what is left. -/
theorem agrees_descent (beyond : Parse Typed) (depth : Nat) :
    Agrees depth (expression .standard .default) (descent beyond depth) := by
  rw [descent_eq_iterate]
  exact descends_sumOf.agrees_of_fixed (fun _ => inferInstance) (fun n _ => agrees_sum n)
    (fun _ => beyond) le_rfl ()

/-- **Precedence by descent**: from any state with the end of the input ahead, an expression of
each power is the level of that power, parsed by plain recursive descent: the same tree with the
same type, the same state with its cursor, symbols, errors and log, or the same failure. The
levels need be nested no deeper than there are tokens, and nothing below them is reached. After a
whole expression, no operator is next. -/
theorem expression_eq_descent (beyond : Parse Typed) {depth : Nat} {s : Parser}
    (hs : Ready depth s) :
    (expression .standard .default).runFrom s = (descent beyond depth).runFrom s ∧
    (expression .standard .additive).runFrom s = (termOf (descent beyond depth)).runFrom s ∧
    (expression .standard .multiplicative).runFrom s =
      (factorOf (descent beyond depth)).runFrom s ∧
    ∀ e s', (expression .standard .default).runFrom s = (.ok e, s') →
      s'.cursor.current.kind ∉ [.plus, .dash, .star, .slash] := by
  have hdescent := agrees_descent beyond depth
  have hforward : Forward (expression .standard .default) := inferInstance
  have hfactor : Agrees depth (factorOf (expression .standard .default))
      (factorOf (descent beyond depth)) :=
    (agrees_factorOf hforward hdescent).mono (Nat.le_succ depth)
  have hterm : Agrees depth (termOf (expression .standard .default))
      (termOf (descent beyond depth)) :=
    agrees_chain (forward_factorOf hforward) hfactor
  refine ⟨hdescent s hs, ((agrees_term depth).trans hterm) s hs,
    ((agrees_factor depth).trans hfactor) s hs, ?_⟩
  intro e s' hrun hmem
  have hceases := ensures_ceases_expression .default depth s hs e s' hrun
  -- Every sum or product operator outranks `default`, so none can stand where the loop stopped.
  rcases Grammar.operator?_standard s'.cursor.current.kind with
    ⟨-, hown⟩ | ⟨-, hown⟩ | ⟨⟨hsum, hproduct⟩, -⟩
  · exact hceases _ hown (by decide)
  · exact hceases _ hown (by decide)
  · rcases List.mem_append.1 (show _ ∈ [TokenKind.plus, .dash] ++ [.star, .slash] from hmem) with
      h | h
    · exact hsum h
    · exact hproduct h

/-- The tokens of `7 - 2 * (3 + x) - 1`. -/
def mixed : List Token :=
  [⟨.integer, "7", 1⟩, ⟨.dash, "-", 1⟩, ⟨.integer, "2", 1⟩, ⟨.star, "*", 1⟩,
    ⟨.openParen, "(", 1⟩, ⟨.integer, "3", 1⟩, ⟨.plus, "+", 1⟩, ⟨.identifier, "x", 1⟩,
    ⟨.closeParen, ")", 1⟩, ⟨.dash, "-", 1⟩, ⟨.integer, "1", 1⟩, .endOfInput 1]

/-- The tree of `mixed` as its labels with their depths. -/
def mixedLabels : List (Nat × String) :=
  [(0, "BinaryExpr"), (1, "BinaryExpr"), (2, "7"), (2, "-"), (2, "BinaryExpr"), (3, "2"), (3, "*"),
    (3, "Paren"), (4, "BinaryExpr"), (5, "3"), (5, "+"), (5, "x"), (1, "-"), (1, "1")]

/-- By descent, the product is joined before the difference to its left, and that before the one
to its right. -/
theorem expression_eq_descent_mixed :
    ∃ e s', (descent (unexpected .expression) 12).runFrom (.start mixed) = (.ok e, s') ∧
      (e.node.walk 0).map (fun (depth, n) => (depth, n.label)) = mixedLabels ∧
      s'.diagnostics = [⟨1, .undeclared "x"⟩] ∧
      s'.cursor.current.kind ∉ [.plus, .dash, .star, .slash] := by
  have hs : Ready 12 (.start mixed) := ⟨rfl, by decide⟩
  obtain ⟨hdescent, -, -, hstops⟩ := expression_eq_descent (unexpected .expression) hs
  have htree : ((expression .standard .default).runFrom (.start mixed)).1.map
      (fun e => (e.node.walk 0).map fun (depth, n) => (depth, n.label)) = .ok mixedLabels := by
    decide +kernel
  have herrors : ((expression .standard .default).runFrom (.start mixed)).2.diagnostics =
      [⟨1, .undeclared "x"⟩] := by
    decide +kernel
  rw [← hdescent]
  cases hrun : (expression .standard .default).runFrom (.start mixed) with
  | mk result s' =>
    rw [hrun] at htree herrors
    obtain ⟨e, rfl, hlabels⟩ := exists_eq_ok_of_map htree
    exact ⟨e, s', rfl, hlabels, herrors, hstops e s' hrun⟩

end DrLang
