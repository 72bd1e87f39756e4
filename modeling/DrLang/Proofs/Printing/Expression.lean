import DrLang.Proofs.Printing
import DrLang.Proofs.FirstTokens

/-!
# Expressions are printed as they were read

Where a rule for expressions succeeds, the tokens that it took are those that the printer
gives for the tree that it made.

- `PrintsAs`: a tree is printed as the tokens between two states.
- `ensures_expression`, `ensures_condition`: expressions and conditions are.
-/

namespace DrLang.Printing

/-- What a printer gives for a tree are the tokens that a parse took from one state to
another. -/
def PrintsAs (print : Outline → List Spelling) (s s' : Parser) (n : Node) : Prop :=
  Takes s s' (print n.sketch)

/-- The same of expressions with commas between them. -/
def PrintsAll (s s' : Parser) (ns : List Node) : Prop :=
  Takes s s' (expressions (ns.map Node.sketch))

/-- No call is labelled like a declaration, so `sketch_mk` is about it. -/
theorem sketch_call (callee : String) (type : DataType) (line : Nat) (ns : List Node) :
    (Node.mk ("Call " ++ callee) type line ns).sketch =
      ⟨"Call " ++ callee, none, 0, ns.map Node.sketch⟩ := by
  refine Node.sketch_mk (fun h => ?_) type line ns
  have hnone : calleeOf? "Declaration" = none := by decide
  rw [← h, calleeOf?_call] at hnone
  exact Option.some_ne_none callee hnone

variable {s s₀ : Parser}

/-- A literal is printed from its label, which `literalLabel` has put in quotes if it is a string:
the four classes one by one. -/
theorem ensures_literal (hs : s.Legible) :
    Ensures Parse.literal s fun e s' => PrintsAs expression s s' e.node := by
  refine ensures_currentKind_bind ?_
  split
  case h_1 => exact ensures_unexpected _
  case h_2 type htype =>
    have hkinds : ∀ kind ∈ TokenKind.all, (DataType.ofLiteral? kind).isSome →
        kind ≠ .eof ∧ kind ≠ .dollar := by decide
    have hkind := hkinds _ (TokenKind.mem_all _) (Option.isSome_of_eq_some htype)
    refine (ensures_take hs hkind.1).bind fun token s' h => ensures_pure ?_
    obtain ⟨rfl, htakes⟩ := h
    obtain ⟨-, hcallee⟩ := literalType?_of_fits hs.current.fits htype
    rw [spellingsOf_singleton hkind.2] at htakes
    rw [PrintsAs, Node.sketch_leaf, expression_leaf hcallee, operand_literalLabel hs.current htype]
    exact htakes

section Rules

variable {inner : BindingPower → Parse Typed}
  (hinner : ∀ power s, s.Legible →
    Ensures (inner power) s fun e s' => PrintsAs expression s s' e.node)
include hinner

/-- The bound is more than the commas that are left, so a comma is never the last token taken. -/
theorem ensures_argumentsWithin (m : Nat) (hs : s.Legible) (hm : s.cursor.remaining < m) :
    Ensures (Parse.argumentsWithin inner m) s fun ns s' => ns ≠ [] ∧ PrintsAll s s' ns := by
  induction m generalizing s with
  | zero => exact absurd hm (Nat.not_lt_zero _)
  | succ m ih =>
    refine (hinner .default s hs).bind fun argument s₁ hfirst => ?_
    refine ensures_currentKind_bind ?_
    split
    case isTrue hcomma =>
      have htext : s₁.cursor.current.kind.fixedText? = some "," := congrArg _ hcomma
      have hs₁ := hfirst.legible hs
      refine (ensures_takeFixed hs₁ htext (by simp [hcomma])).bind fun _ s₂ h => ?_
      have hheaded := hfirst.trans h.2
      -- The comma was taken, so fewer tokens are left and the induction goes on.
      have hless : s₂.cursor.remaining < m := by
        have hle := hheaded.remaining_le
        simp only [List.length_append, List.length_singleton] at hle
        omega
      refine (ih (hheaded.legible hs) hless).bind fun others s₃ h => ?_
      obtain ⟨hne, hothers⟩ := h
      refine ensures_pure ⟨List.cons_ne_nil _ _, ?_⟩
      have hprinted := hheaded.trans hothers
      rw [PrintsAll, List.map_cons, expressions_cons (by simpa using hne)]
      simpa using hprinted
    case isFalse =>
      refine ensures_pure ⟨List.cons_ne_nil _ _, ?_⟩
      have hone : expressions [argument.node.sketch] = expression argument.node.sketch :=
        List.append_nil _
      rw [PrintsAll, List.map_singleton, hone]
      exact hfirst

/-- Arguments are printed with the commas that were taken, by `ensures_argumentsWithin`, or there
are none. -/
theorem ensures_arguments (hs : s.Legible) :
    Ensures (Parse.arguments inner) s fun ns s' => PrintsAll s s' ns := by
  refine ensures_currentKind_bind ?_
  split
  · exact ensures_pure (Takes.refl s)
  · refine ensures_remaining_bind ?_
    exact (ensures_argumentsWithin hinner _ hs (Nat.lt_succ_self _)).imp fun _ _ h => h.2

/-- A call; its label shows it as one, so the printer takes the name from there. -/
theorem ensures_callOf (hs : s.Legible) :
    Ensures (Parse.callOf inner) s fun n s' =>
      (calleeOf? n.label).isSome ∧ PrintsAs expression s s' n := by
  refine (ensures_expectName hs).bind fun callee s₁ h => ?_
  obtain ⟨-, hcallee⟩ := h
  refine (Parse.silent_resolve _ _).ensures_takes.bind fun _ s₂ hsilent => ?_
  have hs₂ := hsilent.legible (hcallee.legible hs)
  refine (ensures_expectFixed "(" hs₂ rfl (by decide)).bind fun _ s₃ hopen => ?_
  have hs₃ := hopen.legible hs₂
  refine (ensures_arguments hinner hs₃).bind fun ns s₄ harguments => ?_
  have hs₄ := harguments.legible hs₃
  refine (ensures_expectFixed ")" hs₄ rfl (by decide)).bind fun _ s₅ hclose => ?_
  have hsome : (calleeOf? ("Call " ++ callee.value)).isSome := by
    rw [calleeOf?_call]
    rfl
  refine ensures_pure ⟨hsome, ?_⟩
  rw [PrintsAs, sketch_call, expression_call]
  simpa using (((hcallee.trans hsilent).trans hopen).trans harguments).trans hclose

/-- A name is printed by `operand`, which tells it from a literal by its spelling. -/
theorem ensures_nameOrCall (hs : s.Legible) :
    Ensures (Parse.nameOrCall inner) s fun e s' => PrintsAs expression s s' e.node := by
  refine ensures_peekKind_bind ?_
  split
  · exact (ensures_callOf hinner hs).bind fun n s' h => ensures_pure h.2
  · refine (ensures_expectName hs).bind fun token s₁ h => ?_
    obtain ⟨⟨hspelled, hkind⟩, hname⟩ := h
    refine (Parse.silent_resolve _ _).ensures_takes.bind fun type s₂ hsilent => ensures_pure ?_
    obtain ⟨-, hcallee⟩ := literalType?_of_identifier hspelled.fits hkind
    rw [PrintsAs, Node.sketch_leaf, expression_leaf hcallee, operand_identifier hspelled hkind]
    exact hname.trans_nil hsilent

/-- Parentheses are printed around what is in them. -/
theorem ensures_grouping (hs : s.Legible) :
    Ensures (Parse.grouping inner) s fun e s' => PrintsAs expression s s' e.node := by
  refine (ensures_expectFixed "(" hs rfl (by decide)).bind fun _ s₁ hopen => ?_
  have hs₁ := hopen.legible hs
  refine (hinner .default s₁ hs₁).bind fun e s₂ hinside => ?_
  have hs₂ := hinside.legible hs₁
  refine (ensures_expectFixed ")" hs₂ rfl (by decide)).bind fun _ s₃ hclose => ?_
  refine ensures_pure ?_
  rw [PrintsAs, Node.sketch_mk (by decide), List.map_singleton, expression_grouping]
  simpa using (hopen.trans hinside).trans hclose

/-- The operator stands between what was read from the base state on and its right operand. -/
theorem ensures_binaryOf {left : Typed} (hs₀ : s₀.Legible)
    (hleft : PrintsAs expression s₀ s left.node) {own : BindingPower}
    (hown : Rules.standard.operator? s.cursor.current.kind = some own) :
    Ensures (Parse.binaryOf inner left own) s fun e s' => PrintsAs expression s₀ s' e.node := by
  have hs := hleft.legible hs₀
  -- Every operator is printed with one text, and so its label gives it back.
  have hkinds : ∀ kind ∈ TokenKind.all, (Rules.standard.operator? kind).isSome →
      kind.fixedText?.isSome ∧ kind ∉ [.eof, .dollar] := by decide
  obtain ⟨htext, hkind⟩ := hkinds _ (TokenKind.mem_all _) (Option.isSome_of_eq_some hown)
  have hvalue := Token.fixedText?_of_spelled hs.current htext
  refine (ensures_takeFixed hs hvalue hkind).bind fun operator s₁ h => ?_
  obtain ⟨rfl, hoperator⟩ := h
  have hs₁ := hoperator.legible hs
  refine (hinner own s₁ hs₁).bind fun right s₂ hright => ?_
  refine (Parse.silent_typeOrReport _ _).ensures_takes.bind fun type s₃ hsilent => ensures_pure ?_
  have hprinted := ((hleft.trans hoperator).trans hright).trans hsilent
  rw [PrintsAs, Node.sketch_mk (by decide)]
  simpa [expression_binary] using hprinted

/-- The operators of a level, by induction on `m`; what stands to the left has been printed from
`s₀` on. -/
theorem ensures_operatorsWithin (power : BindingPower) (m : Nat) {left : Typed} (hs₀ : s₀.Legible)
    (hleft : PrintsAs expression s₀ s left.node) :
    Ensures (Parse.operatorsWithin inner .standard power m left) s
      fun e s' => PrintsAs expression s₀ s' e.node := by
  induction m generalizing s left with
  | zero => exact ensures_pure hleft
  | succ m ih =>
    refine ensures_currentKind_bind ?_
    split
    case h_1 => exact ensures_pure hleft
    case h_2 own hown =>
      split
      · exact (ensures_binaryOf hinner hs₀ hleft hown).bind fun left' s' hleft' => ih hleft'
      · exact ensures_pure hleft

/-- An operand, by the table of operands. -/
theorem ensures_operand (hs : s.Legible) :
    Ensures (Parse.operand inner .standard) s fun e s' => PrintsAs expression s s' e.node := by
  refine ensures_currentKind_bind ?_
  split
  case h_1 => exact ensures_unexpected _
  case h_2 h => exact absurd h (Grammar.operand?_ne_condition _)
  case h_3 => exact ensures_literal hs
  case h_4 => exact ensures_nameOrCall hinner hs
  case h_5 => exact ensures_grouping hinner hs

theorem ensures_expressionOf (power : BindingPower) (hs : s.Legible) :
    Ensures (Parse.expressionOf inner .standard power) s
      fun e s' => PrintsAs expression s s' e.node :=
  (ensures_operand hinner hs).bind fun _ _ hleft =>
    ensures_remaining_bind (ensures_operatorsWithin hinner power _ hs hleft)

end Rules

/-! ### Whole expressions -/

/-- The recursion of expressions, by induction on `bound`. -/
theorem ensures_expressionWithin (bound : Nat) (power : BindingPower) (hs : s.Legible) :
    Ensures (Parse.expressionWithin .standard bound power) s
      fun e s' => PrintsAs expression s s' e.node := by
  induction bound generalizing power s with
  | zero => exact ensures_unexpected _
  | succ bound ih => exact ensures_expressionOf (fun power s hs => ih power hs) power hs

theorem ensures_expression (power : BindingPower) (hs : s.Legible) :
    Ensures (Parse.expression .standard power) s fun e s' => PrintsAs expression s s' e.node :=
  ensures_remaining_bind (ensures_expressionWithin _ power hs)

theorem ensures_call (hs : s.Legible) :
    Ensures (Parse.call .standard) s fun n s' =>
      (calleeOf? n.label).isSome ∧ PrintsAs expression s s' n :=
  ensures_callOf (fun power _ hs => ensures_expression power hs) hs

/-! ### Conditions -/

/-- A condition has one part or three, and is printed without a word of its own. -/
theorem ensures_condition (hs : s.Legible) :
    Ensures (Parse.condition .standard) s fun e s' => PrintsAs condition s s' e.node := by
  refine (ensures_expression .default hs).bind fun left s₁ hleft => ?_
  refine ensures_currentKind_bind ?_
  split
  case isTrue hrelational =>
    have hs₁ := hleft.legible hs
    have hkinds : ∀ kind ∈ TokenKind.all, kind.isRelational →
        kind.fixedText?.isSome ∧ kind ∉ [.eof, .dollar] := by decide
    obtain ⟨htext, hkind⟩ := hkinds _ (TokenKind.mem_all _) hrelational
    have hvalue := Token.fixedText?_of_spelled hs₁.current htext
    refine (ensures_takeFixed hs₁ hvalue hkind).bind fun operator s₂ h => ?_
    obtain ⟨rfl, hoperator⟩ := h
    have hs₂ := hoperator.legible hs₁
    refine (ensures_expression .default hs₂).bind fun right s₃ hright => ?_
    refine (Parse.silent_typeOrReport _ _).ensures_takes.bind fun type s₄ hsilent => ensures_pure ?_
    have hprinted := ((hleft.trans hoperator).trans hright).trans hsilent
    rw [PrintsAs, Node.sketch_mk (by decide)]
    simpa [condition] using hprinted
  case isFalse =>
    refine ensures_pure ?_
    rw [PrintsAs, Node.sketch_mk (by decide)]
    exact hleft

theorem ensures_gate (hs : s.Legible) (keyword : Token) :
    Ensures (Parse.gate .standard keyword) s fun n s' => PrintsAs condition s s' n := by
  refine (ensures_condition hs).bind fun e s₁ hdecision => ?_
  refine (Parse.silent_reportViolation _ _).ensures_takes.bind fun _ s₂ hsilent => ensures_pure ?_
  exact hdecision.trans_nil hsilent

end DrLang.Printing
