import DrLang.Proofs.Consuming

/-!
# Recursions that come to an end

The parser calls itself in two places, for an expression inside an operand and for a block inside
a statement, and it has three loops: over operators, over arguments and over statements. Each of
the five is a *turn*, a step that is given what comes next. A turn that goes on has taken a token,
so that what it does depends on what comes next only where less is ahead. Then so many turns as
there are tokens say all, and what would stand below them is never reached.

- `Agrees`: two steps that do the same wherever so many tokens are left.
- `Descends`: a turn that takes a token before it goes on.
- `Descends.agrees_iterate`: the turns below the last token do not matter.
- `Terminates`: a recursion of which finitely many turns are all.
- `terminates_expression`, `terminates_block`, `terminates_operators`, `terminates_arguments`,
  `terminates_statements`: the five.
-/

namespace DrLang

open Parse

/-! ### Steps that agree -/

section Agrees

variable {α β : Type} {n : Nat} {s : Parser} {p q : Parse α} {f g : α → Parse β}

/-- Two sequences have one run if their first steps have one, and their second ones do from
wherever the first ones succeed. -/
theorem Parse.runFrom_bind_congr (h : p.runFrom s = q.runFrom s)
    (hf : ∀ a s', p.runFrom s = (.ok a, s') → (f a).runFrom s' = (g a).runFrom s') :
    (p >>= f).runFrom s = (q >>= g).runFrom s := by
  rw [runFrom_bind, runFrom_bind, ← h]
  cases hrun : p.runFrom s with
  | mk result s' =>
    cases result with
    | ok a => exact hf a s' hrun
    | error e => rfl

/-- Two steps that do the same wherever fewer than `n` tokens follow the current one. -/
def Agrees (n : Nat) (p q : Parse α) : Prop :=
  ∀ s, Ready n s → p.runFrom s = q.runFrom s

theorem Agrees.refl (n : Nat) (p : Parse α) : Agrees n p p := fun _ _ => rfl

theorem Agrees.symm (h : Agrees n p q) : Agrees n q p := fun s hs => (h s hs).symm

theorem Agrees.trans {r : Parse α} (h : Agrees n p q) (h' : Agrees n q r) : Agrees n p r :=
  fun s hs => (h s hs).trans (h' s hs)

theorem Agrees.mono {m : Nat} (h : Agrees m p q) (hle : n ≤ m) : Agrees n p q :=
  fun s hs => h s (hs.mono hle)

/-- Some token is always current, so no state is `Ready 0`. -/
theorem agrees_zero (p q : Parse α) : Agrees 0 p q :=
  fun _ hs => absurd hs.fits (Nat.not_lt_zero _)

/-- Steps in sequence. The second ones start where no more is left than before, since `Forward`
steps do not move back, so `Ready n` still holds. -/
theorem Agrees.bind (hp : Forward p) (h : Agrees n p q) (hf : ∀ a, Agrees n (f a) (g a)) :
    Agrees n (p >>= f) (q >>= g) := by
  intro s hs
  apply runFrom_bind_congr (h s hs)
  intro a s' hrun
  exact hf a s' (hp.ensures_ready hs a s' hrun)

/-- As `Agrees.bind`, with one first step. -/
theorem Forward.agrees_bind (hp : Forward p) (hf : ∀ a, Agrees n (f a) (g a)) :
    Agrees n (p >>= f) (p >>= g) :=
  Agrees.bind hp (.refl n p) hf

/-- Behind a step that takes a token, less is ahead. -/
theorem Consumes.agrees_bind (hp : Consumes p) (hf : ∀ a, Agrees n (f a) (g a)) :
    Agrees (n + 1) (p >>= f) (p >>= g) := by
  intro s hs
  apply runFrom_bind_congr rfl
  intro a s' hrun
  exact hf a s' (hp n s hs a s' hrun)

/-- Behind a token that is taken, one less is left: from `n + 1` to `n`. All else about descent is
made of this. -/
theorem runFrom_advance_bind_congr {f g : Token → Parse β} (hs : Ready (n + 1) s)
    (hkind : s.cursor.current.kind ≠ .eof) (hf : ∀ t, Agrees n (f t) (g t)) :
    (advance >>= f).runFrom s = (advance >>= g).runFrom s := by
  apply runFrom_bind_congr rfl
  intro t s' hrun
  rw [runFrom_advance] at hrun
  obtain ⟨-, rfl⟩ := Prod.mk.inj hrun
  exact hf t _ (hs.advance hkind)

end Agrees

/-! ### Turns -/

section Turns

variable {ι α : Type} {turn : (ι → Parse α) → ι → Parse α} {n : Nat}

/-- A turn that takes a token before it goes on: it moves back no more than what comes next does,
and two continuations make no difference to it that agree where a token less is left. -/
structure Descends (turn : (ι → Parse α) → ι → Parse α) : Prop where
  forward {q : ι → Parse α} (hq : ∀ i, Forward (q i)) (i : ι) : Forward (turn q i)
  agrees {n : Nat} {q q' : ι → Parse α} (hq : ∀ i, Forward (q i))
    (h : ∀ i, Agrees n (q i) (q' i)) (i : ι) : Agrees (n + 1) (turn q i) (turn q' i)

namespace Descends

variable {bottom q : ι → Parse α}

/-- Turns do not move back if `bottom`, which stands below them, does not. -/
theorem forward_iterate (h : Descends turn) (hbottom : ∀ i, Forward (bottom i)) (m : Nat) (i : ι) :
    Forward (turn^[m] bottom i) := by
  induction m generalizing i with
  | zero => exact hbottom i
  | succ m ih =>
    rw [Function.iterate_succ_apply']
    exact h.forward ih i

/-- Where the turns are as many as the tokens, it does not matter what stands below them. -/
theorem agrees_iterate (h : Descends turn) (hbottom : ∀ i, Forward (bottom i))
    (beyond : ι → Parse α) {m m' : Nat} (hm : n ≤ m) (hm' : n ≤ m') (i : ι) :
    Agrees n (turn^[m] bottom i) (turn^[m'] beyond i) := by
  induction n generalizing m m' i with
  | zero => exact agrees_zero _ _
  | succ n ih =>
    obtain ⟨m, rfl⟩ := Nat.exists_eq_add_of_le' hm
    obtain ⟨m', rfl⟩ := Nat.exists_eq_add_of_le' hm'
    rw [← Nat.add_assoc, ← Nat.add_assoc, Function.iterate_succ_apply',
      Function.iterate_succ_apply']
    exact h.agrees (h.forward_iterate hbottom _) (fun i => ih (by omega) (by omega) i) i

/-- What is its own turn is the recursion. -/
theorem agrees_of_fixed (h : Descends turn) (hq : ∀ i, Forward (q i))
    (hfixed : ∀ n i, Agrees n (q i) (turn q i)) (beyond : ι → Parse α) {m : Nat} (hm : n ≤ m)
    (i : ι) : Agrees n (q i) (turn^[m] beyond i) := by
  induction n generalizing m i with
  | zero => exact agrees_zero _ _
  | succ n ih =>
    obtain ⟨m, rfl⟩ := Nat.exists_eq_add_of_le' hm
    rw [← Nat.add_assoc, Function.iterate_succ_apply']
    exact (hfixed (n + 1) i).trans (h.agrees hq (fun i => ih (by omega) i) i)

end Descends

/-- The recursion `p` comes to an end: each of its turns takes a token before it goes on, and
`depth` turns over whatever else are all of it wherever fewer than `depth` tokens follow the
current one. -/
structure Terminates (turn : (ι → Parse α) → ι → Parse α) (p : ι → Parse α) : Prop where
  descends : Descends turn
  unrolls (beyond : ι → Parse α) (depth : Nat) (i : ι) :
    Agrees depth (turn^[depth] beyond i) (p i)

/-- As many turns as there are tokens left are all. -/
theorem Descends.terminates {p : ι → Parse α} (h : Descends turn) (bottom : ι → Parse α)
    (hbottom : ∀ i, Forward (bottom i))
    (hp : ∀ i s, (p i).runFrom s = (turn^[s.cursor.remaining + 1] bottom i).runFrom s) :
    Terminates turn p where
  descends := h
  unrolls beyond depth i := by
    intro s hs
    have hready : Ready (s.cursor.remaining + 1) s := ⟨hs.ends, Nat.lt_succ_self _⟩
    have hdepth : s.cursor.remaining + 1 ≤ depth := hs.fits
    rw [hp]
    exact (h.agrees_iterate hbottom beyond le_rfl hdepth i s hready).symm

/-- A recursion is its own turn. -/
theorem Terminates.fixed {p : ι → Parse α} (h : Terminates turn p) (hp : ∀ i, Forward (p i))
    (n : Nat) (i : ι) : Agrees n (p i) (turn p i) := by
  intro s hs
  have hunrolled : Agrees (n + 1) (turn p i) (turn (turn^[n] p) i) :=
    h.descends.agrees hp (fun i => (h.unrolls p n i).symm) i
  have hready : Ready (n + 1) s := hs.mono (Nat.le_succ n)
  rw [hunrolled s hready, ← Function.iterate_succ_apply' turn]
  exact (h.unrolls p (n + 1) i s hready).symm

end Turns

/-! ### Expressions inside expressions -/

section Inner

variable {inner inner' : BindingPower → Parse Typed} {n : Nat}
  (hforward : ∀ power, Forward (inner power))
  (h : ∀ power, Agrees n (inner power) (inner' power))
include hforward h

theorem agrees_argumentsWithin (bound : Nat) :
    Agrees n (argumentsWithin inner bound) (argumentsWithin inner' bound) := by
  induction bound with
  | zero => exact .refl _ _
  | succ bound ih =>
    apply Agrees.bind (hforward _) (h _)
    intro argument
    apply calm_currentKind.forward.agrees_bind
    intro kind
    split
    · apply calm_advance.forward.agrees_bind
      intro _
      exact ih.bind inferInstance fun _ => .refl _ _
    · exact .refl _ _

theorem agrees_arguments : Agrees n (arguments inner) (arguments inner') := by
  apply calm_currentKind.forward.agrees_bind
  intro kind
  split
  · exact .refl _ _
  · exact calm_remaining.forward.agrees_bind fun _ => agrees_argumentsWithin hforward h _

/-- A call takes its name before its arguments, so it agrees for `n + 1`. -/
theorem agrees_callOf : Agrees (n + 1) (callOf inner) (callOf inner') := by
  apply (consumes_expect (by decide)).agrees_bind
  intro callee
  apply (calm_resolve _ _).forward.agrees_bind
  intro _
  apply (calm_expect _).forward.agrees_bind
  intro _
  exact (agrees_arguments hforward h).bind inferInstance fun _ => .refl _ _

theorem agrees_nameOrCall : Agrees (n + 1) (nameOrCall inner) (nameOrCall inner') := by
  apply calm_peekKind.forward.agrees_bind
  intro kind
  split
  · exact (agrees_callOf hforward h).bind inferInstance fun _ => .refl _ _
  · exact .refl _ _

/-- Parentheses take the opening one first, so they agree for `n + 1`. -/
theorem agrees_grouping : Agrees (n + 1) (grouping inner) (grouping inner') := by
  apply (consumes_expect (by decide)).agrees_bind
  intro _
  exact (h .default).bind (hforward _) fun _ => .refl _ _

/-- Every rule for an operand takes a token before it turns to an expression. -/
theorem agrees_operand : Agrees (n + 1) (operand inner .standard) (operand inner' .standard) := by
  apply calm_currentKind.forward.agrees_bind
  intro kind
  split
  case h_1 => exact .refl _ _
  case h_2 hrule => exact absurd hrule (Grammar.operand?_ne_condition kind)
  case h_3 => exact .refl _ _
  case h_4 => exact agrees_nameOrCall hforward h
  case h_5 => exact agrees_grouping hforward h

/-- An operator is taken before its right operand. The current token is not the end of the input,
which the table tells. -/
theorem runFrom_binaryOf_congr {s : Parser} (hs : Ready (n + 1) s)
    (hkind : s.cursor.current.kind ≠ .eof) (left : Typed) (power : BindingPower) :
    (binaryOf inner left power).runFrom s = (binaryOf inner' left power).runFrom s := by
  apply runFrom_advance_bind_congr hs hkind
  intro operator
  exact (h power).bind (hforward _) fun _ => .refl _ _

/-- The operators of a level, by induction on `bound`, which is the same on both sides. -/
theorem agrees_operatorsWithin (power : BindingPower) (bound : Nat) (left : Typed) :
    Agrees (n + 1) (operatorsWithin inner .standard power bound left)
      (operatorsWithin inner' .standard power bound left) := by
  induction bound generalizing left with
  | zero => exact .refl _ _
  | succ bound ih =>
    intro s hs
    unfold operatorsWithin
    rw [runFrom_currentKind_bind, runFrom_currentKind_bind]
    split
    case h_1 => rfl
    case h_2 own hown =>
      split
      case isFalse => rfl
      case isTrue =>
        -- The operator takes a token, so what is read behind it may be read one level lower.
        have hkind : s.cursor.current.kind ≠ .eof := ne_eof_of_operator? hown
        apply runFrom_bind_congr (runFrom_binaryOf_congr hforward h hs hkind left own)
        intro joined s' hrun
        have hbinary : Forward (binaryOf inner left own) := inferInstance
        exact ih joined s' (hbinary.ensures_ready hs joined s' hrun)

/-- An expression takes a token before it turns to an inner one. -/
theorem agrees_expressionOf (power : BindingPower) :
    Agrees (n + 1) (expressionOf inner .standard power) (expressionOf inner' .standard power) := by
  apply (agrees_operand hforward h).bind inferInstance
  intro left
  exact calm_remaining.forward.agrees_bind fun _ => agrees_operatorsWithin hforward h power _ left

end Inner

/-- What an expression makes of the expressions inside it. -/
def expressionTurn (inner : BindingPower → Parse Typed) (power : BindingPower) : Parse Typed :=
  expressionOf inner .standard power

/-- The recursion of expressions, as turns over a failure: `Function.iterate` unfolds at its top,
as `expressionWithin` does. -/
theorem expressionWithin_eq_iterate (bound : Nat) :
    expressionWithin .standard bound = expressionTurn^[bound] fun _ => unexpected .expression := by
  induction bound with
  | zero => rfl
  | succ bound ih =>
    rw [Function.iterate_succ_apply', ← ih]
    rfl

theorem descends_expressionTurn : Descends expressionTurn where
  forward hq power := by
    unfold expressionTurn
    infer_instance
  agrees hq h power := agrees_expressionOf hq h power

/-- The recursion of expressions comes to an end: `Descends.terminates`, since its own bottom is
one of those that do not matter. -/
theorem terminates_expression : Terminates expressionTurn (expression .standard) := by
  apply descends_expressionTurn.terminates fun _ => unexpected .expression
  · exact fun _ => inferInstance
  · intro power s
    rw [← expressionWithin_eq_iterate]
    exact runFrom_remaining_bind s _

/-! ### The loops inside expressions -/

section Loops

variable (inner : BindingPower → Parse Typed)

/-- All operators after a left operand, with their operands. -/
def operatorsAfter (power : BindingPower) (left : Typed) : Parse Typed := do
  operatorsWithin inner .standard power ((← remaining) + 1) left

/-- All arguments of a call that has some. -/
def someArguments : Parse (List Node) := do
  argumentsWithin inner ((← remaining) + 1)

/-- One operator with its operand, and what comes next. -/
def operatorsTurn (power : BindingPower) (next : Typed → Parse Typed) (left : Typed) :
    Parse Typed := do
  match Rules.standard.operator? (← currentKind) with
  | none => return left
  | some own =>
    if power < own then next (← binaryOf inner left own)
    else return left

/-- One argument, and what comes next after a comma. -/
def argumentsTurn (next : Unit → Parse (List Node)) (_ : Unit) : Parse (List Node) := do
  let argument ← inner .default
  if (← currentKind) = .comma then
    let _ ← advance
    return argument.node :: (← next ())
  else
    return [argument.node]

/-- The loop over operators, as turns over `pure`, the operand to the left. -/
theorem operatorsWithin_eq_iterate (power : BindingPower) (bound : Nat) :
    operatorsWithin inner .standard power bound = (operatorsTurn inner power)^[bound] pure := by
  induction bound with
  | zero => rfl
  | succ bound ih =>
    rw [Function.iterate_succ_apply', ← ih]
    rfl

/-- The loop over arguments, as turns over the empty list. -/
theorem argumentsWithin_eq_iterate (bound : Nat) :
    argumentsWithin inner bound = (argumentsTurn inner)^[bound] (fun _ => pure []) () := by
  induction bound with
  | zero => rfl
  | succ bound ih =>
    rw [Function.iterate_succ_apply']
    unfold argumentsWithin
    rw [ih]
    rfl

variable {inner} [hinner : ∀ power, Forward (inner power)]

/-- A turn over operators goes on behind an operator that was taken; `ensures_binaryOf` says that
less is left there. -/
theorem descends_operatorsTurn (power : BindingPower) : Descends (operatorsTurn inner power) where
  forward {q} hq left := by
    apply calm_currentKind.forward.bind
    intro kind
    split <;> infer_instance
  agrees {n q q'} hq h left := by
    intro s hs
    unfold operatorsTurn
    rw [runFrom_currentKind_bind, runFrom_currentKind_bind]
    split
    case h_1 => rfl
    case h_2 own hown =>
      split
      case isFalse => rfl
      case isTrue =>
        apply runFrom_bind_congr rfl
        intro joined s' hrun
        exact h joined s' (ensures_binaryOf hs hown left joined s' hrun)

/-- A turn over arguments goes on behind a comma that was taken, by `runFrom_advance_bind_congr`.
-/
theorem descends_argumentsTurn : Descends (argumentsTurn inner) where
  forward {q} hq _ := by
    unfold argumentsTurn
    infer_instance
  agrees {n q q'} hq h _ := by
    apply (hinner .default).agrees_bind
    intro argument s hs
    rw [runFrom_currentKind_bind, runFrom_currentKind_bind]
    split
    case isFalse => rfl
    case isTrue hkind =>
      apply runFrom_advance_bind_congr hs (by simp [hkind])
      intro _
      exact (h ()).bind (hq ()) fun _ => .refl _ _

theorem terminates_operators (power : BindingPower) :
    Terminates (operatorsTurn inner power) (operatorsAfter inner power) := by
  apply (descends_operatorsTurn power).terminates pure
  · exact fun _ => inferInstance
  · intro left s
    rw [← operatorsWithin_eq_iterate]
    exact runFrom_remaining_bind s _

theorem terminates_arguments :
    Terminates (argumentsTurn inner) fun _ => someArguments inner := by
  apply descends_argumentsTurn.terminates fun _ => pure []
  · exact fun _ => inferInstance
  · intro _ s
    rw [← argumentsWithin_eq_iterate]
    exact runFrom_remaining_bind s _

end Loops

/-! ### Blocks inside blocks -/

section Body

variable {body body' : Parse Node} {n : Nat} (hforward : Forward body) (h : Agrees n body body')
include hforward h

theorem agrees_checkOf : Agrees n (checkOf .standard body) (checkOf .standard body') := by
  apply calm_advance.forward.agrees_bind
  intro keyword
  apply (calm_expect _).forward.agrees_bind
  intro _
  apply (calm_gate .standard keyword).forward.agrees_bind
  intro decision
  apply (calm_expect _).forward.agrees_bind
  intro _
  apply h.bind hforward
  intro block
  apply calm_currentKind.forward.agrees_bind
  intro kind
  split
  · apply calm_advance.forward.agrees_bind
    intro _
    exact h.bind hforward fun _ => .refl _ _
  · exact .refl _ _

theorem agrees_reworkOf : Agrees n (reworkOf .standard body) (reworkOf .standard body') := by
  apply calm_advance.forward.agrees_bind
  intro keyword
  apply (calm_expect _).forward.agrees_bind
  intro _
  apply (calm_gate .standard keyword).forward.agrees_bind
  intro decision
  apply (calm_expect _).forward.agrees_bind
  intro _
  exact h.bind hforward fun _ => .refl _ _

/-- Loops with a counter agree where their blocks do; what stands in the parentheses is the same.
-/
theorem agrees_checklistOf :
    Agrees n (checklistOf .standard body) (checklistOf .standard body') := by
  have hdeclaration : Forward (declaration .standard) := inferInstance
  apply calm_advance.forward.agrees_bind
  intro keyword
  apply (calm_expect _).forward.agrees_bind
  intro _
  apply silent_enterScope.forward.agrees_bind
  intro _
  apply calm_currentKind.forward.agrees_bind
  intro kind
  split
  case isFalse => exact .refl _ _
  case isTrue =>
    apply hdeclaration.agrees_bind
    intro counter
    apply (calm_gate .standard keyword).forward.agrees_bind
    intro decision
    apply (calm_expect _).forward.agrees_bind
    intro _
    apply (calm_simple .standard .update).forward.agrees_bind
    intro update
    apply (calm_expect _).forward.agrees_bind
    intro _
    exact h.bind hforward fun _ => .refl _ _

theorem agrees_planOf : Agrees n (planOf body) (planOf body') := by
  apply calm_advance.forward.agrees_bind
  intro keyword
  apply (calm_expect _).forward.agrees_bind
  intro _
  apply (calm_expect _).forward.agrees_bind
  intro _
  apply (calm_expect _).forward.agrees_bind
  intro _
  apply (silent_noteEntryPoint _).forward.agrees_bind
  intro _
  apply silent_enterScope.forward.agrees_bind
  intro _
  exact h.bind hforward fun _ => .refl _ _

theorem agrees_statementOf :
    Agrees n (statementOf .standard body) (statementOf .standard body') := by
  apply calm_currentKind.forward.agrees_bind
  intro kind
  split
  case h_5 => exact agrees_checkOf hforward h
  case h_6 => exact agrees_reworkOf hforward h
  case h_7 => exact agrees_checklistOf hforward h
  case h_10 => exact h
  case h_12 => exact agrees_planOf hforward h
  -- The other rules do not turn to a block.
  all_goals exact .refl _ _

/-- Statements agree where the blocks in them do, by induction on the bound. -/
theorem agrees_allStatementsWithin (bound : Nat) :
    Agrees n (allStatementsWithin .standard body bound)
      (allStatementsWithin .standard body' bound) := by
  induction bound with
  | zero => exact .refl _ _
  | succ bound ih =>
    intro s hs
    rw [runFrom_allStatementsWithin_succ, runFrom_allStatementsWithin_succ]
    split
    · rfl
    · refine (agrees_statementOf hforward h).bind inferInstance (fun node => ?_) s hs
      exact ih.bind inferInstance fun _ => .refl _ _

/-- As `agrees_allStatementsWithin`, with the bound that the tokens left give. -/
theorem agrees_allStatementsOf :
    Agrees n (allStatementsOf .standard body) (allStatementsOf .standard body') := by
  intro s hs
  rw [runFrom_allStatementsOf, runFrom_allStatementsOf]
  exact agrees_allStatementsWithin hforward h _ s hs

/-- A block takes its opening brace before it turns to the blocks inside it. -/
theorem agrees_blockOf : Agrees (n + 1) (blockOf .standard body) (blockOf .standard body') := by
  apply (consumes_expect (by decide)).agrees_bind
  intro opening
  apply silent_enterScope.forward.agrees_bind
  intro _
  exact (agrees_allStatementsOf hforward h).bind inferInstance fun _ => .refl _ _

end Body

/-- What a block makes of the blocks inside it. -/
def blockTurn (body : Unit → Parse Node) (_ : Unit) : Parse Node :=
  blockOf .standard (body ())

theorem blockWithin_eq_iterate (bound : Nat) :
    blockWithin .standard bound =
      blockTurn^[bound] (fun _ => unexpected (.token .openCurly)) () := by
  induction bound with
  | zero => rfl
  | succ bound ih =>
    rw [Function.iterate_succ_apply', blockTurn, ← ih]
    rfl

/-- A block takes its opening brace before it turns to the blocks inside it. -/
theorem descends_blockTurn : Descends blockTurn where
  forward hq _ := by
    unfold blockTurn
    infer_instance
  agrees hq h _ := agrees_blockOf (hq ()) (h ())

theorem terminates_block : Terminates blockTurn fun _ => block .standard := by
  apply descends_blockTurn.terminates fun _ => unexpected (.token .openCurly)
  · exact fun _ => inferInstance
  · intro _ s
    rw [← blockWithin_eq_iterate]
    exact runFrom_remaining_bind s _

/-! ### The list of statements -/

/-- One statement, and what comes next. -/
def statementsTurn (body : Parse Node) (next : Unit → Parse Statements) (_ : Unit) :
    Parse Statements := do
  let kind ← currentKind
  if kind = .eof ∨ kind = .closeCurly then return ⟨[], none⟩
  else
    match ← attempt (statementOf .standard body) with
    | .error e => return ⟨[], some e⟩
    | .ok node =>
      let others ← next ()
      return ⟨node :: others.nodes, others.failure?⟩

/-- The loop over statements, as turns over the empty list without a failure. -/
theorem statementsWithin_eq_iterate (body : Parse Node) (bound : Nat) :
    statementsWithin .standard body bound =
      (statementsTurn body)^[bound] (fun _ => pure ⟨[], none⟩) () := by
  induction bound with
  | zero => rfl
  | succ bound ih =>
    rw [Function.iterate_succ_apply']
    unfold statementsWithin
    rw [ih]
    rfl

section Statements

variable {body : Parse Node} [hbody : Forward body]

/-- A turn over statements goes on behind a statement, which has taken a token by `hconsumes`;
where it fails, the loop stops. -/
theorem descends_statementsTurn (hconsumes : Consumes body) : Descends (statementsTurn body) where
  forward {q} hq _ := by
    unfold statementsTurn
    have hstep (result : Except FatalError Node) : Forward (match result with
        | .error e => return ⟨[], some e⟩
        | .ok node => do
          let others ← q ()
          return ⟨node :: others.nodes, others.failure?⟩ : Parse Statements) := by
      cases result <;> infer_instance
    infer_instance
  agrees {n q q'} hq h _ := by
    apply calm_currentKind.forward.agrees_bind
    intro kind
    split
    · exact .refl _ _
    · intro s hs
      apply runFrom_bind_congr rfl
      intro result s' hrun
      rw [runFrom_attempt] at hrun
      obtain ⟨hresult, rfl⟩ := Prod.mk.inj hrun
      cases hstatement : (statementOf .standard body).runFrom s with
      | mk outcome s' =>
        rw [hstatement] at hresult
        obtain rfl := Except.ok.inj hresult
        cases outcome with
        | error e => rfl
        | ok node =>
          have hs' := consumes_statementOf hconsumes n s hs node s' hstatement
          -- An accepted statement took a token: the loop goes on with fewer of them.
          exact (h ()).bind (hq ()) (fun _ => .refl _ _) s' hs'

theorem terminates_statements (hconsumes : Consumes body) :
    Terminates (statementsTurn body) fun _ => statementsOf .standard body := by
  apply (descends_statementsTurn hconsumes).terminates fun _ => pure ⟨[], none⟩
  · exact fun _ => inferInstance
  · intro _ s
    rw [← statementsWithin_eq_iterate]
    exact runFrom_remaining_bind s _

end Statements

end DrLang
