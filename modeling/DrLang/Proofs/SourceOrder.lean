import DrLang.Parse.Program
import DrLang.Proofs.Ensures
import DrLang.Proofs.Spelling

/-!
# Errors in the order of the source

Most errors are reported late: a value that does not suit its variable, operands that do not
suit their operator and a condition that cannot decide are reported on a line that may lie far
behind the cursor. They come in order all the same. An error inside an expression makes its type
unknown, and nothing more is ever reported of an unknown type; so where a late error is reported,
none was reported since its line.

- `Parser.Admits`: an error on a line may still be reported.
- `Quiet`: of an expression of a known type nothing was reported.
- `discreet_expression`, `discreet_condition`: expressions are quiet, and keep the order.
- `orderly_declaration`, `orderly_blockOf`, ...: so does each rule for a statement, for any tables.
- `diagnostics_in_source_order`: whole programs.
-/

namespace DrLang

open Parse

/-! ### Lines -/

/-- A line may be told twice. -/
theorem pairwise_le_repeat {front behind : List Nat} {line : Nat}
    (h : (front ++ line :: behind).Pairwise (· ≤ ·)) :
    (front ++ line :: line :: behind).Pairwise (· ≤ ·) := by
  obtain ⟨hfront, hbehind, hle⟩ := List.pairwise_append.1 h
  have hline : ∀ l ∈ line :: behind, line ≤ l :=
    List.forall_mem_cons.2 ⟨Nat.le_refl _, (List.pairwise_cons.1 hbehind).1⟩
  refine List.pairwise_append.2 ⟨hfront, hbehind.cons hline, fun l hl => ?_⟩
  exact List.forall_mem_cons.2 ⟨hle l hl _ List.mem_cons_self, hle l hl⟩

/-- An error on this line may be reported: those before it are on no later line, and no token
ahead is on an earlier one. -/
def Parser.Admits (s : Parser) (line : Nat) : Prop :=
  (s.diagnostics.map SemanticError.line ++ line :: s.cursor.tokens.map Token.line).Pairwise (· ≤ ·)

/-- The lines of the errors and then of the tokens ahead are in order. -/
def Parser.InOrder (s : Parser) : Prop :=
  (s.diagnostics.map SemanticError.line ++ s.cursor.tokens.map Token.line).Pairwise (· ≤ ·)

section Lines

variable {s s' : Parser} {line : Nat}

/-- Where an error may be reported, the order holds without it: `Admits` is `InOrder` with a line
in between. -/
theorem Parser.Admits.inOrder (h : s.Admits line) : s.InOrder :=
  h.sublist ((List.sublist_cons_self _ _).append_left _)

/-- The current token stands where an error may be reported. -/
theorem Parser.InOrder.admits_current (h : s.InOrder) : s.Admits s.cursor.current.line :=
  pairwise_le_repeat h

/-- Tokens that are taken without an error do not matter: the line of `Admits` stays before those
ahead. -/
theorem Keeps.admits (h : Keeps s s' []) (hs : s.Admits line) : s'.Admits line := by
  rw [Parser.Admits, h.diagnostics, List.append_nil]
  exact hs.sublist (((h.tokens.sublist.map _).cons_cons _).append_left _)

/-- Without an error, what is left ahead is in order behind the same errors. -/
theorem Keeps.inOrder (h : Keeps s s' []) (hs : s.InOrder) : s'.InOrder :=
  (h.admits hs.admits_current).inOrder

/-- Where an error may be reported, another one on the same line may follow it, by
`pairwise_le_repeat`. -/
theorem Keeps.admits_reported {cause : SemanticCause} (h : Keeps s s' [⟨line, cause⟩])
    (hs : s.Admits line) : s'.Admits line := by
  rw [Parser.Admits, h.diagnostics, List.map_append, List.append_assoc]
  exact (pairwise_le_repeat hs).sublist
    ((((h.tokens.sublist.map _).cons_cons _).cons_cons _).append_left _)

end Lines

/-! ### Tokens -/

section Steps

variable {s : Parser} {line : Nat}

/-- The token that is taken was the first ahead, so an error on its line may still be reported:
`Admits`. -/
theorem ordered_advance (hs : s.InOrder) :
    Upholds Parser.InOrder advance s fun t s' => s'.Admits t.line ∧ Keeps s s' [] := by
  refine ⟨(keeps_advance s).inOrder hs, ensures_advance.imp fun t s' h => ?_⟩
  obtain ⟨rfl, hkeeps⟩ := h
  exact ⟨hkeeps.admits hs.admits_current, hkeeps⟩

/-- As `ordered_advance`. -/
theorem ordered_expect (kind : TokenKind) (hs : s.InOrder) :
    Upholds Parser.InOrder (expect kind) s fun t s' => s'.Admits t.line ∧ Keeps s s' [] := by
  refine upholds_currentKind_bind ?_
  split
  · exact ordered_advance hs
  · exact upholds_unexpected _ hs

theorem ordered_skip (kind : TokenKind) (hs : s.InOrder) :
    Upholds Parser.InOrder (skip kind) s fun _ s' => Keeps s s' [] := by
  refine upholds_currentKind_bind ?_
  split
  · exact (ordered_advance hs).bind fun _ s' hs' h => upholds_pure hs' h.2
  · exact upholds_pure hs (Keeps.refl s)

/-! ### Uses of names and typing rules -/

/-- An error on a line that is admitted goes to the end of `diagnostics`, and one more on the same
line may follow. -/
theorem ordered_report (cause : SemanticCause) (hs : s.Admits line) :
    Upholds Parser.InOrder (report line cause) s fun _ s' => s'.Admits line := by
  have hline := (keeps_report s line cause).admits_reported hs
  exact (yields_report s.notes line cause).upholds hline.inOrder hline

theorem ordered_boundType? (name : String) (hs : s.Admits line) :
    Upholds Parser.InOrder (boundType? name line) s fun type? s' =>
      type?.isSome → Keeps s s' [] := by
  cases h : s.symbols.lookup? name with
  | some symbol => exact (yields_boundType?_of_some h).upholds hs.inOrder fun _ => Keeps.refl s
  | none =>
    have hline := (keeps_report s line (.undeclared name)).admits_reported hs
    exact (yields_boundType?_of_none h).upholds hline.inOrder (by simp)

theorem ordered_resolve (name : String) (hs : s.Admits line) :
    Upholds Parser.InOrder (resolve name line) s fun type s' =>
      type ≠ .unknown → Keeps s s' [] := by
  refine (ordered_boundType? name hs).bind fun type? s₁ hs₁ hkeeps₁ => upholds_pure hs₁ ?_
  cases type? with
  | none => exact fun hknown => absurd rfl hknown
  | some type => exact fun _ => hkeeps₁ rfl

/-- A rule for types reports nothing if it gives a known one; what it gives otherwise is
`unknown`. -/
theorem ordered_typeOrReport {result : Except SemanticCause DataType} (hs : s.InOrder)
    (hline : result ≠ .ok .unknown → s.Admits line) :
    Upholds Parser.InOrder (typeOrReport line result) s fun type s' =>
      type ≠ .unknown → result ≠ .ok .unknown ∧ Keeps s s' [] := by
  cases result with
  | ok type => exact upholds_pure hs fun hknown => ⟨by simpa using hknown, Keeps.refl s⟩
  | error cause =>
    refine (ordered_report cause (hline (by simp))).bind fun _ s₁ hs₁ _ => ?_
    exact upholds_pure hs₁ fun hknown => absurd rfl hknown

/-- A value of the type `unknown` suits every variable, so a line is asked for only where it is
not. -/
theorem ordered_checkStore (site : StoreSite) (name : Token) (target source : DataType)
    (hs : s.InOrder) (hline : source ≠ .unknown → s.Admits name.line) :
    Upholds Parser.InOrder (checkStore site name target source) s fun _ _ => True := by
  unfold checkStore
  split
  case isTrue => exact upholds_pure hs trivial
  case isFalse hunsuited =>
    have hknown : source ≠ .unknown := by
      rintro rfl
      exact hunsuited (Typing.isAssignable_unknown target)
    exact (ordered_report _ (hline hknown)).imp fun _ _ _ => trivial

/-- A store is reported only where the type of its value is known; by then nothing was reported
since the line of the name, so `hline` admits it. -/
theorem ordered_checkStore? (site : StoreSite) (name : Token) (target? : Option DataType)
    (source : DataType) (hs : s.InOrder)
    (hline : target?.isSome → source ≠ .unknown → s.Admits name.line) :
    Upholds Parser.InOrder (checkStore? site name target? source) s fun _ _ => True := by
  cases target? with
  | none => exact upholds_pure hs trivial
  | some target => exact ordered_checkStore site name target source hs (hline rfl)

/-- The type `unknown` may decide every condition. -/
theorem ordered_reportViolation (construct : String) (type : DataType) (hs : s.InOrder)
    (hline : type ≠ .unknown → s.Admits line) :
    Upholds Parser.InOrder (reportViolation line (Typing.condition construct type)) s
      fun _ _ => True := by
  cases hresult : Typing.condition construct type with
  | ok => exact upholds_pure hs trivial
  | error cause =>
    have hknown : type ≠ .unknown := by
      rintro rfl
      simp at hresult
    exact (ordered_report cause (hline hknown)).imp fun _ _ _ => trivial

/-- A declaration is reported on the line of its name, which was taken last. -/
theorem ordered_bindName (symbol : Symbol) (hs : s.Admits symbol.line) :
    Upholds Parser.InOrder (bindName symbol) s fun _ s' => s'.Admits symbol.line := by
  cases h : s.notes.symbols.declare symbol with
  | ok t => exact (yields_bindName_of_ok h).upholds hs.inOrder hs
  | error previous =>
    have hkeeps := keeps_report s symbol.line (.redeclaration symbol.name previous.line)
    have hline := hkeeps.admits_reported hs
    exact (yields_bindName_of_error h).upholds hline.inOrder hline

theorem ordered_noteEntryPoint (hs : s.Admits line) :
    Upholds Parser.InOrder (noteEntryPoint line) s fun _ _ => True := by
  cases h : s.notes.entryPoint? with
  | none => exact (yields_noteEntryPoint_of_none h).upholds hs.inOrder trivial
  | some previous =>
    have hline := (keeps_report s line (.entryPointRedefined previous)).admits_reported hs
    exact (yields_noteEntryPoint_of_some h).upholds hline.inOrder trivial

end Steps

/-- An operator that gives a known type or is reported has operands of known types: `arithmetic`
tolerates `unknown` on either side. -/
theorem known_of_arithmetic {left right : DataType} {operator : String}
    (h : Typing.arithmetic left operator right ≠ .ok .unknown) :
    left ≠ .unknown ∧ right ≠ .unknown := by
  constructor <;> rintro rfl <;> simp at h

/-- As `known_of_arithmetic`, for comparisons. -/
theorem known_of_relational {left right : DataType} {operator : String}
    (h : Typing.relational left operator right ≠ .ok .unknown) :
    left ≠ .unknown ∧ right ≠ .unknown := by
  constructor <;> rintro rfl <;> simp at h

/-! ### Expressions -/

/-- If the type of an expression is known, nothing was reported of it, and an error on its line
may still be reported. -/
def Quiet (s : Parser) (e : Typed) (s' : Parser) : Prop :=
  e.type ≠ .unknown → s'.Admits e.node.line ∧ Keeps s s' []

/-- A parser of expressions that keeps the order, and whose expressions are quiet. -/
def Discreet (p : Parse Typed) : Prop :=
  ∀ s, s.InOrder → Upholds Parser.InOrder p s (Quiet s)

/-- A step that keeps the order, whether it succeeds or fails. -/
def Orderly {α : Type} (p : Parse α) : Prop :=
  ∀ s, s.InOrder → Upholds Parser.InOrder p s fun _ _ => True

section Orderly

variable {α β : Type} {p : Parse α} {f : α → Parse β}

/-- What a step ensures besides, `Q`, does not matter to the order. -/
theorem Orderly.of_upholds {Q : Parser → α → Parser → Prop}
    (h : ∀ s, s.InOrder → Upholds Parser.InOrder p s (Q s)) : Orderly p :=
  fun s hs => (h s hs).imp fun _ _ _ => trivial

theorem Orderly.bind (hp : Orderly p) (hf : ∀ a, Orderly (f a)) : Orderly (p >>= f) :=
  fun s hs => (hp s hs).bind fun a s' hs' _ => hf a s' hs'

theorem Discreet.orderly {p : Parse Typed} (hp : Discreet p) : Orderly p := .of_upholds hp

theorem orderly_pure (a : α) : Orderly (pure a) := fun _ hs => upholds_pure hs trivial

theorem orderly_unexpected (expected : Expectation) : Orderly (unexpected expected : Parse α) :=
  fun _ hs => upholds_unexpected expected hs

theorem orderly_currentKind : Orderly currentKind := fun _ hs => ⟨hs, fun _ _ _ => trivial⟩

theorem orderly_peekKind : Orderly peekKind := fun _ hs => ⟨hs, fun _ _ _ => trivial⟩

theorem orderly_remaining : Orderly remaining := fun _ hs => ⟨hs, fun _ _ _ => trivial⟩

theorem orderly_advance : Orderly advance := .of_upholds fun _ hs => ordered_advance hs

theorem orderly_expect (kind : TokenKind) : Orderly (expect kind) :=
  .of_upholds fun _ hs => ordered_expect kind hs

theorem orderly_enterScope : Orderly enterScope := fun _ hs => ⟨hs, fun _ _ _ => trivial⟩

theorem orderly_exitScope : Orderly exitScope := fun _ hs => ⟨hs, fun _ _ _ => trivial⟩

end Orderly

/-- A literal reports nothing, and its line is that of the token just taken, which
`ordered_advance` admits. -/
theorem discreet_literal : Discreet literal := by
  intro s hs
  refine upholds_currentKind_bind ?_
  split
  · exact upholds_unexpected _ hs
  · exact (ordered_advance hs).bind fun token s₁ hs₁ h => upholds_pure hs₁ fun _ => h

section Expressions

variable {inner : BindingPower → Parse Typed} (hinner : ∀ power, Discreet (inner power))
include hinner

/-- Arguments keep the order; a call asks nothing of their types, so of `Discreet` only
`Discreet.orderly` is used. -/
theorem orderly_argumentsWithin (m : Nat) : Orderly (argumentsWithin inner m) := by
  induction m with
  | zero => exact orderly_pure []
  | succ m ih =>
    refine (hinner .default).orderly.bind fun argument => orderly_currentKind.bind fun kind => ?_
    split
    · exact orderly_advance.bind fun _ => ih.bind fun others => orderly_pure _
    · exact orderly_pure _

theorem orderly_arguments : Orderly (arguments inner) := by
  refine orderly_currentKind.bind fun kind => ?_
  split
  · exact orderly_pure []
  · exact orderly_remaining.bind fun m => orderly_argumentsWithin hinner _

/-- A call keeps the order: `ordered_resolve` reports the name on its own line, before its
arguments. -/
theorem orderly_callOf : Orderly (callOf inner) := by
  intro s hs
  refine (ordered_expect _ hs).bind fun callee s₁ hs₁ h => ?_
  refine (ordered_resolve callee.value h.1).bind fun _ s₂ hs₂ _ => ?_
  have hrest : Orderly (do
      let _ ← expect .openParen
      let nodes ← arguments inner
      let _ ← expect .closeParen
      return (⟨"Call " ++ callee.value, .unknown, callee.line, nodes⟩ : Node)) :=
    (orderly_expect _).bind fun _ => (orderly_arguments hinner).bind fun _ =>
      (orderly_expect _).bind fun _ => orderly_pure _
  exact hrest s₂ hs₂

/-- The type of a call is `unknown`, whatever was reported of its name and its arguments. -/
theorem discreet_nameOrCall : Discreet (nameOrCall inner) := by
  intro s hs
  refine Upholds.congr (runFrom_peekKind_bind s _) ?_
  split
  · refine (orderly_callOf hinner s hs).bind fun node s₁ hs₁ _ => upholds_pure hs₁ ?_
    exact fun hknown => absurd rfl hknown
  · refine (ordered_expect _ hs).bind fun token s₁ hs₁ h₁ => ?_
    refine (ordered_resolve token.value h₁.1).bind fun type s₂ hs₂ hkeeps₂ => ?_
    refine upholds_pure hs₂ fun hknown => ?_
    exact ⟨(hkeeps₂ hknown).admits h₁.1, h₁.2.trans (hkeeps₂ hknown)⟩

/-- Parentheses are of the line and the type of what is in them. -/
theorem discreet_grouping : Discreet (grouping inner) := by
  intro s hs
  refine (ordered_expect _ hs).bind fun _ s₁ hs₁ h₁ => ?_
  refine (hinner .default s₁ hs₁).bind fun e s₂ hs₂ hquiet => ?_
  refine (ordered_expect _ hs₂).bind fun _ s₃ hs₃ h₃ => upholds_pure hs₃ fun hknown => ?_
  obtain ⟨hline, hkeeps₂⟩ := hquiet hknown
  exact ⟨h₃.2.admits hline, (h₁.2.trans hkeeps₂).trans h₃.2⟩

/-- A comparison is reported on the line of its operator, and what is to be reported of the whole
condition on that of its left side. -/
theorem discreet_conditionOf : Discreet (conditionOf inner) := by
  intro s hs
  refine (hinner .default s hs).bind fun left s₁ hs₁ hleft => upholds_currentKind_bind ?_
  split
  case isFalse => exact upholds_pure hs₁ hleft
  case isTrue =>
    refine (ordered_advance hs₁).bind fun operator s₂ hs₂ h₂ => ?_
    obtain ⟨hoperator, hkeeps₂⟩ := h₂
    refine (hinner .default s₂ hs₂).bind fun right s₃ hs₃ hright => ?_
    -- An error of types needs two known operands, and a known operand reported nothing.
    have hquiet (hresult : Typing.relational left.type operator.value right.type ≠ .ok .unknown) :
        s₁.Admits left.node.line ∧ Keeps s s₁ [] ∧ Keeps s₂ s₃ [] := by
      obtain ⟨hknown, hknown'⟩ := known_of_relational hresult
      exact ⟨(hleft hknown).1, (hleft hknown).2, (hright hknown').2⟩
    have hreport := ordered_typeOrReport hs₃ fun hresult =>
      (hquiet hresult).2.2.admits hoperator
    refine hreport.bind fun type s₄ hs₄ htype => upholds_pure hs₄ fun hknown => ?_
    obtain ⟨hresult, hkeeps₄⟩ := htype hknown
    obtain ⟨hline, hkeeps₁, hkeeps₃⟩ := hquiet hresult
    have hbehind := (hkeeps₂.trans hkeeps₃).trans hkeeps₄
    exact ⟨hbehind.admits hline, hkeeps₁.trans hbehind⟩

/-- If the whole is of a known type, so were both operands, and nothing was reported of either. So
the line of the operator, which is not before that of the left operand, is admitted for an error:
`known_of_arithmetic`. -/
theorem quiet_binaryOf {s₀ s : Parser} {left : Typed} (power : BindingPower) (hs : s.InOrder)
    (hleft : Quiet s₀ left s) :
    Upholds Parser.InOrder (binaryOf inner left power) s (Quiet s₀) := by
  refine (ordered_advance hs).bind fun operator s₁ hs₁ h₁ => ?_
  obtain ⟨hoperator, hkeeps₁⟩ := h₁
  refine (hinner power s₁ hs₁).bind fun right s₂ hs₂ hright => ?_
  -- The operator's line is reported behind the operands, which have reported nothing by then.
  have hquiet (hresult : Typing.arithmetic left.type operator.value right.type ≠ .ok .unknown) :
      s₂.Admits operator.line ∧ Keeps s₀ s₂ [] := by
    obtain ⟨hknown, hknown'⟩ := known_of_arithmetic hresult
    have hkeeps₂ := (hright hknown').2
    exact ⟨hkeeps₂.admits hoperator, ((hleft hknown).2.trans hkeeps₁).trans hkeeps₂⟩
  have hreport := ordered_typeOrReport hs₂ fun hresult => (hquiet hresult).1
  refine hreport.bind fun type s₃ hs₃ htype => upholds_pure hs₃ fun hknown => ?_
  obtain ⟨hresult, hkeeps₃⟩ := htype hknown
  obtain ⟨hline, hkeeps₂⟩ := hquiet hresult
  exact ⟨hkeeps₃.admits hline, hkeeps₂.trans hkeeps₃⟩

/-- An operand, by any table. A call is of type `unknown`, so `Quiet` asks nothing of its lines.
-/
theorem discreet_operand (rules : Rules) : Discreet (operand inner rules) := by
  intro s hs
  refine upholds_currentKind_bind ?_
  split
  · exact upholds_unexpected _ hs
  · exact discreet_conditionOf hinner s hs
  · exact discreet_literal s hs
  · exact discreet_nameOrCall hinner s hs
  · exact discreet_grouping hinner s hs

/-- The operators of a level, by induction on `m`; `hleft` says that all to the left is quiet from
`s₀` on. -/
theorem quiet_operatorsWithin {s₀ s : Parser} (rules : Rules) (power : BindingPower) (m : Nat)
    {left : Typed} (hs : s.InOrder) (hleft : Quiet s₀ left s) :
    Upholds Parser.InOrder (operatorsWithin inner rules power m left) s (Quiet s₀) := by
  induction m generalizing s left with
  | zero => exact upholds_pure hs hleft
  | succ m ih =>
    refine upholds_currentKind_bind ?_
    split
    · exact upholds_pure hs hleft
    · split
      · exact (quiet_binaryOf hinner _ hs hleft).bind fun left' s₁ hs₁ hleft' => ih hs₁ hleft'
      · exact upholds_pure hs hleft

theorem discreet_expressionOf (rules : Rules) (power : BindingPower) :
    Discreet (expressionOf inner rules power) := by
  intro s hs
  refine (discreet_operand hinner rules s hs).bind fun left s₁ hs₁ hleft => ?_
  exact (quiet_operatorsWithin hinner rules power _ hs₁ hleft).congr (runFrom_remaining_bind s₁ _)

end Expressions

variable (rules : Rules)

theorem discreet_expressionWithin (bound : Nat) (power : BindingPower) :
    Discreet (expressionWithin rules bound power) := by
  induction bound generalizing power with
  | zero => exact fun s hs => upholds_unexpected _ hs
  | succ bound ih => exact discreet_expressionOf ih rules power

/-- Expressions keep the order, and report nothing of a known type. -/
theorem discreet_expression (power : BindingPower) : Discreet (expression rules power) :=
  fun s hs => (discreet_expressionWithin rules _ power s hs).congr (runFrom_remaining_bind s _)

/-- Conditions keep the order, and report nothing of a known type. -/
theorem discreet_condition : Discreet (condition rules) :=
  discreet_conditionOf (discreet_expression rules)

theorem orderly_call : Orderly (call rules) :=
  orderly_callOf (discreet_expression rules)

/-! ### Statements -/

theorem discreet_storedValue : Discreet (storedValue rules) := by
  intro s hs
  refine (ordered_skip _ hs).bind fun _ s₁ hs₁ hkeeps₁ => ?_
  refine (ordered_expect _ hs₁).bind fun _ s₂ hs₂ h₂ => ?_
  refine (discreet_expression rules .default s₂ hs₂).imp fun e s₃ hquiet hknown => ?_
  exact ⟨(hquiet hknown).1, (hkeeps₁.trans h₂.2).trans (hquiet hknown).2⟩

/-- A value that does not suit is reported on the line of the name, behind which nothing was
reported then. -/
theorem ordered_initializer {s : Parser} (name : Token) (type : DataType)
    (hs : s.Admits name.line) :
    Upholds Parser.InOrder (initializer rules name type) s fun _ _ => True := by
  have hvalue : Upholds Parser.InOrder (do
      let value ← storedValue rules
      checkStore .initialization name type value.type
      return [value.node]) s fun _ _ => True := by
    refine (discreet_storedValue rules s hs.inOrder).bind fun value s₁ hs₁ hquiet => ?_
    -- A mismatch is reported on the line of the name, behind a value that is quiet if it is known.
    have hline (hknown : value.type ≠ .unknown) : s₁.Admits name.line :=
      (hquiet hknown).2.admits hs
    exact (ordered_checkStore _ name type value.type hs₁ hline).bind fun _ s₂ hs₂ _ =>
      upholds_pure hs₂ trivial
  refine upholds_currentKind_bind ?_
  split
  · exact hvalue
  · exact hvalue
  · exact upholds_pure hs.inOrder trivial

/-- A declaration. Behind its name an error on that line is admitted, which is what
`ordered_initializer` asks for. -/
theorem orderly_declaration : Orderly (declaration rules) := by
  intro s hs
  refine (ordered_advance hs).bind fun keyword s₁ hs₁ _ => ?_
  split
  case h_1 => exact ⟨hs₁, ensures_throw _⟩
  case h_2 type _ =>
    refine (ordered_expect _ hs₁).bind fun name s₂ hs₂ h₂ => ?_
    have hbind := ordered_bindName ⟨name.value, type, name.line⟩ h₂.1
    refine hbind.bind fun _ s₃ hs₃ hline => ?_
    refine (ordered_initializer rules name type hline).bind fun value s₄ hs₄ _ => ?_
    exact ((orderly_expect _).bind fun _ => orderly_pure _) s₄ hs₄

/-- The name is known to be bound, or reported, before the value is looked at; the value is
compared with its type on the line of the name. -/
theorem orderly_assignment (site : StoreSite) : Orderly (assignment rules site) := by
  intro s hs
  refine (ordered_advance hs).bind fun target s₁ hs₁ h₁ => ?_
  refine (ordered_boundType? target.value h₁.1).bind fun type? s₂ hs₂ hbound => ?_
  refine (discreet_storedValue rules s₂ hs₂).bind fun value s₃ hs₃ hquiet => ?_
  have hline (hsome : type?.isSome) (hknown : value.type ≠ .unknown) : s₃.Admits target.line :=
    ((hbound hsome).trans (hquiet hknown).2).admits h₁.1
  exact (ordered_checkStore? site target type? value.type hs₃ hline).bind fun _ s₄ hs₄ _ =>
    upholds_pure hs₄ trivial

theorem orderly_step : Orderly step := by
  intro s hs
  refine (ordered_advance hs).bind fun target s₁ hs₁ h₁ => ?_
  refine (ordered_resolve target.value h₁.1).bind fun type s₂ hs₂ _ => ?_
  exact (orderly_advance.bind fun _ => orderly_pure _) s₂ hs₂

theorem orderly_simple (site : StoreSite) : Orderly (simple rules site) := by
  refine orderly_currentKind.bind fun kind => ?_
  split
  · refine orderly_peekKind.bind fun next => ?_
    split
    · exact orderly_call rules
    · exact orderly_assignment rules site
    · exact orderly_assignment rules site
    · exact orderly_step
    · exact orderly_step
    · exact orderly_advance.bind fun _ => orderly_unexpected _
  · exact orderly_unexpected _

theorem orderly_simpleStatement : Orderly (simpleStatement rules) :=
  (orderly_simple rules _).bind fun _ => (orderly_expect _).bind fun _ => orderly_pure _

theorem orderly_keywordExpression (label : String) : Orderly (keywordExpression rules label) :=
  orderly_advance.bind fun _ => (discreet_expression rules _).orderly.bind fun _ =>
    (orderly_expect _).bind fun _ => orderly_pure _

theorem orderly_attach : Orderly attach :=
  orderly_advance.bind fun _ => (orderly_expect _).bind fun _ => orderly_pure _

/-- The line of a condition is that of the operator that stands at the top of its left side: the
line that `discreet_condition` admits. -/
theorem orderly_gate (keyword : Token) : Orderly (gate rules keyword) := by
  intro s hs
  refine (discreet_condition rules s hs).bind fun e s₁ hs₁ hquiet => ?_
  have hreport := ordered_reportViolation keyword.value e.type hs₁ fun hknown => (hquiet hknown).1
  exact hreport.bind fun _ s₂ hs₂ _ => upholds_pure hs₂ trivial

section Body

variable {rules : Rules} {body : Parse Node} (hbody : Orderly body)
include hbody

/-- A branch: its condition is reported on the line it begins on, before any block. -/
theorem orderly_checkOf : Orderly (checkOf rules body) := by
  refine orderly_advance.bind fun keyword => (orderly_expect _).bind fun _ => ?_
  refine (orderly_gate rules keyword).bind fun decision => (orderly_expect _).bind fun _ => ?_
  refine hbody.bind fun block => orderly_currentKind.bind fun kind => ?_
  split
  · exact orderly_advance.bind fun _ => hbody.bind fun alternative => orderly_pure _
  · exact orderly_pure _

theorem orderly_reworkOf : Orderly (reworkOf rules body) :=
  orderly_advance.bind fun keyword => (orderly_expect _).bind fun _ =>
    (orderly_gate rules keyword).bind fun _ => (orderly_expect _).bind fun _ =>
      hbody.bind fun _ => orderly_pure _

theorem orderly_checklistOf : Orderly (checklistOf rules body) := by
  refine orderly_advance.bind fun keyword => (orderly_expect _).bind fun _ => ?_
  refine orderly_enterScope.bind fun _ => orderly_currentKind.bind fun kind => ?_
  split
  · exact (orderly_declaration rules).bind fun _ => (orderly_gate rules keyword).bind fun _ =>
      (orderly_expect _).bind fun _ => (orderly_simple rules _).bind fun _ =>
        (orderly_expect _).bind fun _ => hbody.bind fun _ =>
          orderly_exitScope.bind fun _ => orderly_pure _
  · exact orderly_unexpected _

/-- No error can lie between the keyword and the report of a second entry point. -/
theorem orderly_planOf : Orderly (planOf body) := by
  intro s hs
  refine (ordered_advance hs).bind fun keyword s₁ hs₁ h₁ => ?_
  refine (ordered_expect _ hs₁).bind fun _ s₂ hs₂ h₂ => ?_
  refine (ordered_expect _ hs₂).bind fun _ s₃ hs₃ h₃ => ?_
  refine (ordered_expect _ hs₃).bind fun _ s₄ hs₄ h₄ => ?_
  -- The entry point is reported on the line of its keyword, and nothing was reported since.
  have hline : s₄.Admits keyword.line := ((h₂.2.trans h₃.2).trans h₄.2).admits h₁.1
  refine (ordered_noteEntryPoint hline).bind fun _ s₅ hs₅ _ => ?_
  have hframed : Orderly (do
      enterScope
      let block ← body
      exitScope
      return Node.group "PlanMain" keyword.line [block]) :=
    orderly_enterScope.bind fun _ => hbody.bind fun _ =>
      orderly_exitScope.bind fun _ => orderly_pure _
  exact hframed s₅ hs₅

theorem orderly_statementOf : Orderly (statementOf rules body) := by
  refine orderly_currentKind.bind fun kind => ?_
  split
  case h_1 => exact orderly_unexpected _
  case h_2 => exact orderly_unexpected _
  case h_3 => exact orderly_declaration rules
  case h_4 => exact orderly_simpleStatement rules
  case h_5 => exact orderly_checkOf hbody
  case h_6 => exact orderly_reworkOf hbody
  case h_7 => exact orderly_checklistOf hbody
  case h_8 => exact orderly_keywordExpression rules _
  case h_9 => exact orderly_keywordExpression rules _
  case h_10 => exact hbody
  case h_11 => exact orderly_attach
  case h_12 => exact orderly_planOf hbody
  case h_13 => exact orderly_call rules

/-- The induction over the statements of a list, each behind the others: `Orderly.bind` for each.
-/
theorem orderly_allStatementsWithin (bound : Nat) :
    Orderly (allStatementsWithin rules body bound) := by
  induction bound with
  | zero => exact orderly_pure []
  | succ bound ih =>
    intro s hs
    have hrun := runFrom_allStatementsWithin_succ rules body bound s
    by_cases hclosed : s.cursor.current.kind = .eof ∨ s.cursor.current.kind = .closeCurly
    · rw [if_pos hclosed] at hrun
      exact Upholds.congr hrun (orderly_pure [] s hs)
    · rw [if_neg hclosed] at hrun
      refine Upholds.congr hrun ?_
      exact ((orderly_statementOf hbody).bind fun _ => ih.bind fun _ => orderly_pure _) s hs

theorem orderly_allStatementsOf : Orderly (allStatementsOf rules body) :=
  fun s hs => (orderly_allStatementsWithin hbody _ s hs).congr (runFrom_allStatementsOf _ _ s)

theorem orderly_blockOf : Orderly (blockOf rules body) :=
  (orderly_expect _).bind fun _ => orderly_enterScope.bind fun _ =>
    (orderly_allStatementsOf hbody).bind fun _ => (orderly_expect _).bind fun _ =>
      orderly_exitScope.bind fun _ => orderly_pure _

end Body

theorem orderly_blockWithin (bound : Nat) : Orderly (blockWithin rules bound) := by
  induction bound with
  | zero => exact orderly_unexpected _
  | succ bound ih => exact orderly_blockOf ih

theorem orderly_block : Orderly (block rules) :=
  orderly_remaining.bind fun _ => orderly_blockWithin rules _

/-- The rest of a program, once its statements are parsed, reports nothing. -/
theorem orderly_program : Orderly (program rules) := by
  have hend (nodes : List Node) : Orderly (do
      let _ ← expect .eof
      record (.parsed nodes.length (← get).diagnostics.length)
      return Node.group "Program" 0 nodes) := by
    refine (orderly_expect _).bind fun _ s hs => ?_
    exact ⟨hs, fun _ _ _ => trivial⟩
  exact (orderly_allStatementsOf (orderly_block rules)).bind hend

/-! ### Whole programs -/

/-- Closing a token list puts its last line at the end once more. -/
theorem Cursor.closed_inOrder {tokens : List Token}
    (h : (tokens.map Token.line).Pairwise (· ≤ ·)) :
    ((closed tokens).map Token.line).Pairwise (· ≤ ·) := by
  unfold closed
  split
  case h_1 => exact List.pairwise_singleton _ _
  case h_2 last hlast =>
    split
    case isTrue => exact h
    case isFalse =>
      obtain ⟨front, rfl⟩ := List.getLast?_eq_some_iff.1 hlast
      rw [List.map_append] at h
      simpa using pairwise_le_repeat h

/-- A parse of tokens in order reports errors in order, whether it succeeds or fails: the
invariant `InOrder`, without the tokens ahead. -/
theorem diagnostics_inOrder {tokens : List Token} (h : (tokens.map Token.line).Pairwise (· ≤ ·)) :
    ((parse tokens).2.diagnostics.map SemanticError.line).Pairwise (· ≤ ·) := by
  have hstart : (Parser.start tokens).InOrder := by
    show (List.map Token.line (Cursor.ofTokens tokens).tokens).Pairwise (· ≤ ·)
    rw [Cursor.tokens_ofTokens]
    exact Cursor.closed_inOrder h
  exact (List.pairwise_append.1 (orderly_program .standard _ hstart).invariant).1

/-- A source is read from its first line to its last: a list that is `WellFormed` from a line on
has no token before it. -/
theorem WellFormed.inOrder {line : Nat} {tokens : List Token} (h : WellFormed line tokens) :
    (line :: tokens.map Token.line).Pairwise (· ≤ ·) := by
  induction h with
  | ends hle => simpa using hle
  | @cons line t ts hle _ _ _ ih =>
    obtain ⟨hbehind, hothers⟩ := List.pairwise_cons.1 ih
    have hlines : ∀ l ∈ ts.map Token.line, t.line ≤ l := fun l hl =>
      (Nat.le_add_right _ _).trans (hbehind l hl)
    have hfirst : ∀ l ∈ (t :: ts).map Token.line, line ≤ l :=
      List.forall_mem_cons.2 ⟨hle, fun l hl => hle.trans (hlines l hl)⟩
    exact (hothers.cons hlines).cons hfirst

/-- **Source order**: where the lines of the tokens never decrease, and so for every source that
has tokens, neither do the lines of the semantic errors in the order in which they were recorded,
whether the parse succeeds or fails. -/
theorem diagnostics_in_source_order :
    (∀ tokens : List Token, (tokens.map Token.line).Pairwise (· ≤ ·) →
      ((parse tokens).2.diagnostics.map SemanticError.line).Pairwise (· ≤ ·)) ∧
    ∀ source tokens, tokenize source = .ok tokens →
      (tokens.map Token.line).Pairwise (· ≤ ·) ∧
        ((parse tokens).2.diagnostics.map SemanticError.line).Pairwise (· ≤ ·) := by
  refine ⟨fun tokens h => diagnostics_inOrder h, fun source tokens h => ?_⟩
  have hlines := (List.pairwise_cons.1 (wellFormed_of_tokenize h).inOrder).2
  exact ⟨hlines, diagnostics_inOrder hlines⟩

/-- Operands, a value and a comparison that do not suit, each reported on an earlier line than the
last token it depends on. The condition is never closed. -/
def spread : String :=
  "file a = 1 +\n\"x\";\nnote n =\n2\n* 3;\nCHECK (n\n<\n3"

/-- All three are reported, and then the parse fails. -/
theorem spread_in_source_order :
    ∃ tokens e p, tokenize spread = .ok tokens ∧ parse tokens = (.error e, p) ∧
      p.diagnostics = [⟨1, .arithmeticOperands .int "+" .string⟩,
        ⟨3, .typeMismatch .initialization "n" .note .int⟩,
        ⟨7, .relationalOperands .note "<" .int⟩] ∧
      (tokens.map Token.line).Pairwise (· ≤ ·) ∧
      (p.diagnostics.map SemanticError.line).Pairwise (· ≤ ·) := by
  have hrun : ((tokenize spread).map fun tokens =>
      ((parse tokens).1.isOk, (parse tokens).2.diagnostics)) =
        .ok (false, [⟨1, .arithmeticOperands .int "+" .string⟩,
          ⟨3, .typeMismatch .initialization "n" .note .int⟩,
          ⟨7, .relationalOperands .note "<" .int⟩]) := by
    decide +kernel
  obtain ⟨tokens, htokens, hfound⟩ := exists_eq_ok_of_map hrun
  obtain ⟨hfails, hdiagnostics⟩ := Prod.mk.inj hfound
  have hlines := (diagnostics_in_source_order.2 spread tokens htokens).1
  have horder := diagnostics_in_source_order.1 tokens hlines
  cases hparse : parse tokens with
  | mk r p =>
    rw [hparse] at hfails hdiagnostics horder
    cases r with
    | ok => simp [Except.isOk, Except.toBool] at hfails
    | error e => exact ⟨tokens, e, p, htokens, hparse, hdiagnostics, hlines, horder⟩

end DrLang
