import DrLang.Proofs.Ensures

/-!
# Steps that bind nothing

A step may fail in the middle of a construct. What it did up to there stays done, so that what
is to be said of a failure must be said of each step before it as well. Most steps bind no name
and open or close no frame, and report at most; that is told here of the states behind them,
whether they succeed or fail.

- `LogGrows`: what is added to the log, which is never the warning about the global scope.
- `Stays`: what lies between the states before and behind such a step.
- `Calm`: a step behind which this holds, from any state.
- `calm_expression`, `calm_simple`, `calm_gate`, ...: all steps but those of declarations and
  blocks are calm, under any tables.
-/

namespace DrLang

open Parse

/-! ### Logs -/

/-- From one state to another events are logged, and the global scope is not to be closed. -/
def LogGrows (s s' : Parser) : Prop :=
  ∃ events, s'.log = s.log ++ events ∧ .globalScopeKept ∉ events

namespace LogGrows

variable {s s' s'' : Parser}

/-- A step that leaves the log alone makes it grow by nothing. -/
theorem of_eq (h : s'.log = s.log) : LogGrows s s' :=
  ⟨[], by simp [h], List.not_mem_nil⟩

/-- One event more, which is not the warning `globalScopeKept`. -/
theorem of_event {event : Event} (h : s'.log = s.log ++ [event]) (hne : event ≠ .globalScopeKept) :
    LogGrows s s' :=
  ⟨[event], h, by simpa using hne.symm⟩

/-- What two steps log in turn is the one's events and then the other's. -/
theorem trans (h : LogGrows s s') (h' : LogGrows s' s'') : LogGrows s s'' := by
  obtain ⟨events, heq, hnot⟩ := h
  obtain ⟨events', heq', hnot'⟩ := h'
  refine ⟨events ++ events', by rw [heq', heq, List.append_assoc], ?_⟩
  rw [List.mem_append]
  rintro (hmem | hmem)
  · exact hnot hmem
  · exact hnot' hmem

end LogGrows

/-! ### Steps that bind nothing -/

/-- From one state to another no name is bound and no frame opened or closed. -/
structure Stays (s s' : Parser) : Prop where
  keeps : ∃ errors, Keeps s s' errors
  log : LogGrows s s'

namespace Stays

variable {s s' s'' : Parser}

/-- Nothing is bound where nothing happens; all the steps that only look are of this kind. -/
theorem refl (s : Parser) : Stays s s := ⟨⟨[], Keeps.refl s⟩, .of_eq rfl⟩

/-- Two steps in turn bind nothing if neither does: both fields of `Stays` can be chained, by
`Keeps.trans` and `LogGrows.trans`. -/
theorem trans (h : Stays s s') (h' : Stays s' s'') : Stays s s'' := by
  obtain ⟨⟨errors, hkeeps⟩, hlog⟩ := h
  obtain ⟨⟨errors', hkeeps'⟩, hlog'⟩ := h'
  exact ⟨⟨errors ++ errors', hkeeps.trans hkeeps'⟩, hlog.trans hlog'⟩

/-- The table is the same before and behind, so names mean the same there. -/
theorem symbols (h : Stays s s') : s'.symbols = s.symbols := by
  obtain ⟨errors, hkeeps⟩ := h.keeps
  exact hkeeps.symbols

end Stays

/-- A step that binds nothing and opens or closes no frame, whether it succeeds or fails. -/
def Calm {α : Type} (p : Parse α) : Prop :=
  ∀ s, Stays s (p.runFrom s).2

section Calm

variable {α β : Type} {p : Parse α} {f : α → Parse β}

/-- A sequence is calm if both parts are. Where the first one fails, the second is not run, and
the state is the one that the first left: this is why `Calm` is about failures too. -/
theorem Calm.bind (hp : Calm p) (hf : ∀ a, Calm (f a)) : Calm (p >>= f) := by
  intro s
  have hstays := hp s
  rw [runFrom_bind]
  split
  case h_1 a s' hrun =>
    rw [hrun] at hstays
    exact hstays.trans (hf a s')
  case h_2 e s' hrun =>
    rw [hrun] at hstays
    exact hstays

/-! ### Looking at tokens and taking them -/

theorem calm_pure (a : α) : Calm (pure a) := fun s => Stays.refl s

theorem calm_unexpected (expected : Expectation) : Calm (unexpected expected : Parse α) :=
  fun s => Stays.refl s

theorem calm_get : Calm get := fun s => Stays.refl s

theorem calm_currentKind : Calm currentKind := fun s => Stays.refl s

theorem calm_peekKind : Calm peekKind := fun s => Stays.refl s

theorem calm_remaining : Calm remaining := fun s => Stays.refl s

/-- Only the cursor moves when a token is taken, as `keeps_advance` says; no event tells of it. -/
theorem calm_advance : Calm advance := fun s => ⟨⟨[], keeps_advance s⟩, .of_eq rfl⟩

/-- Whether `expect` takes its token or fails, nothing is noted. -/
theorem calm_expect (kind : TokenKind) : Calm (expect kind) := by
  refine calm_currentKind.bind fun k => ?_
  split
  · exact calm_advance
  · exact calm_unexpected _

/-- A token that may be left out is taken or not, and nothing is noted. -/
theorem calm_skip (kind : TokenKind) : Calm (skip kind) := by
  refine calm_currentKind.bind fun k => ?_
  split
  · exact fun s => calm_advance s
  · exact calm_pure ()

/-! ### Uses of names and typing rules -/

theorem calm_record {event : Event} (h : event ≠ .globalScopeKept) : Calm (record event) :=
  fun s => ⟨⟨[], List.suffix_refl _, rfl, rfl, (List.append_nil s.diagnostics).symm⟩,
    .of_event rfl h⟩

/-- A semantic error is an error more and an event more, and binds nothing: `keeps_report`, with
the event `reported`. -/
theorem calm_report (line : Nat) (cause : SemanticCause) : Calm (report line cause) :=
  fun s => ⟨⟨_, keeps_report s line cause⟩, .of_event rfl (by simp)⟩

/-- Looking a name up may be reported, as a name that is bound nowhere. `lookup?` itself leaves
the state alone. -/
theorem calm_boundType? (name : String) (line : Nat) : Calm (boundType? name line) := by
  have hlookup : Calm (lookup? name) := fun s => Stays.refl s
  refine hlookup.bind fun symbol? => ?_
  split
  · exact calm_pure _
  · exact (calm_report _ _).bind fun _ => calm_pure _

/-- As `calm_boundType?`, with the type of an unknown name filled in. -/
theorem calm_resolve (name : String) (line : Nat) : Calm (resolve name line) :=
  (calm_boundType? name line).bind fun _ => calm_pure _

/-- A typing rule that fails is reported, and gives the type `unknown`. -/
theorem calm_typeOrReport (line : Nat) (result : Except SemanticCause DataType) :
    Calm (typeOrReport line result) := by
  cases result with
  | ok type => exact calm_pure type
  | error cause => exact (calm_report line cause).bind fun _ => calm_pure _

theorem calm_checkStore (site : StoreSite) (name : Token) (target source : DataType) :
    Calm (checkStore site name target source) := by
  unfold checkStore
  split
  · exact calm_pure ()
  · exact calm_report _ _

/-- As `calm_checkStore`; into a name that is not bound, nothing is checked at all. -/
theorem calm_checkStore? (site : StoreSite) (name : Token) (target? : Option DataType)
    (source : DataType) : Calm (checkStore? site name target? source) := by
  cases target? with
  | none => exact calm_pure ()
  | some target => exact calm_checkStore site name target source

theorem calm_reportViolation (line : Nat) (result : Except SemanticCause Unit) :
    Calm (reportViolation line result) := by
  cases result with
  | ok => exact calm_pure ()
  | error cause => exact calm_report line cause

end Calm

/-! ### Expressions -/

theorem calm_literal : Calm literal := by
  refine calm_currentKind.bind fun kind => ?_
  split
  · exact calm_unexpected _
  · exact calm_advance.bind fun token => calm_pure _

section Expressions

variable {inner : BindingPower → Parse Typed} (hinner : ∀ power, Calm (inner power))
include hinner

/-- Arguments are calm for any `m`, by induction on it: one expression, and behind a comma the
others. -/
theorem calm_argumentsWithin (m : Nat) : Calm (argumentsWithin inner m) := by
  induction m with
  | zero => exact calm_pure []
  | succ m ih =>
    refine (hinner .default).bind fun argument => calm_currentKind.bind fun kind => ?_
    split
    · exact calm_advance.bind fun _ => ih.bind fun others => calm_pure _
    · exact calm_pure _

theorem calm_arguments : Calm (arguments inner) := by
  refine calm_currentKind.bind fun kind => ?_
  split
  · exact calm_pure []
  · exact calm_remaining.bind fun m => calm_argumentsWithin hinner _

/-- A call looks up the name that it calls, by `calm_resolve`, and reports it at most. -/
theorem calm_callOf : Calm (callOf inner) :=
  (calm_expect _).bind fun _ => (calm_resolve _ _).bind fun _ => (calm_expect _).bind fun _ =>
    (calm_arguments hinner).bind fun _ => (calm_expect _).bind fun _ => calm_pure _

theorem calm_nameOrCall : Calm (nameOrCall inner) := by
  refine calm_peekKind.bind fun kind => ?_
  split
  · exact (calm_callOf hinner).bind fun node => calm_pure _
  · exact (calm_expect _).bind fun token => (calm_resolve _ _).bind fun type => calm_pure _

theorem calm_grouping : Calm (grouping inner) :=
  (calm_expect _).bind fun _ => (hinner .default).bind fun _ => (calm_expect _).bind fun _ =>
    calm_pure _

/-- A comparison adds to its two sides at most an error about their types, by `calm_typeOrReport`.
-/
theorem calm_conditionOf : Calm (conditionOf inner) := by
  refine (hinner .default).bind fun left => calm_currentKind.bind fun kind => ?_
  split
  · exact calm_advance.bind fun operator => (hinner .default).bind fun right =>
      (calm_typeOrReport _ _).bind fun type => calm_pure _
  · exact calm_pure _

/-- As `calm_conditionOf`, for an operator and its operands. -/
theorem calm_binaryOf (left : Typed) (power : BindingPower) : Calm (binaryOf inner left power) :=
  calm_advance.bind fun _ => (hinner power).bind fun _ =>
    (calm_typeOrReport _ _).bind fun _ => calm_pure _

/-- An operand, by the rule that the table `rules.operand?` gives for its first token. -/
theorem calm_operand (rules : Rules) : Calm (operand inner rules) := by
  refine calm_currentKind.bind fun kind => ?_
  split
  · exact calm_unexpected _
  · exact calm_conditionOf hinner
  · exact calm_literal
  · exact calm_nameOrCall hinner
  · exact calm_grouping hinner

/-- The operators of a level for any `m`, by induction on it; the operand to the left changes from
turn to turn. -/
theorem calm_operatorsWithin (rules : Rules) (power : BindingPower) (m : Nat) (left : Typed) :
    Calm (operatorsWithin inner rules power m left) := by
  induction m generalizing left with
  | zero => exact calm_pure left
  | succ m ih =>
    refine calm_currentKind.bind fun kind => ?_
    split
    · exact calm_pure left
    · split
      · exact (calm_binaryOf hinner left _).bind fun left' => ih left'
      · exact calm_pure left

/-- An expression around calm expressions is an operand and then operators. -/
theorem calm_expressionOf (rules : Rules) (power : BindingPower) :
    Calm (expressionOf inner rules power) :=
  (calm_operand hinner rules).bind fun left => calm_remaining.bind fun _ =>
    calm_operatorsWithin hinner rules power _ left

end Expressions

variable (rules : Rules)

/-- The recursion of expressions, by induction on `bound`. At the bottom stands `unexpected`,
which notes nothing. -/
theorem calm_expressionWithin (bound : Nat) (power : BindingPower) :
    Calm (expressionWithin rules bound power) := by
  induction bound generalizing power with
  | zero => exact calm_unexpected _
  | succ bound ih => exact calm_expressionOf ih rules power

/-- Expressions bind nothing, whatever the tables are and wherever they stand. -/
theorem calm_expression (power : BindingPower) : Calm (expression rules power) :=
  calm_remaining.bind fun _ => calm_expressionWithin rules _ power

theorem calm_condition : Calm (condition rules) :=
  calm_conditionOf (calm_expression rules)

theorem calm_call : Calm (call rules) :=
  calm_callOf (calm_expression rules)

/-! ### Statements that bind nothing -/

/-- What is stored behind a name: `expect .assignment`, and an expression. -/
theorem calm_storedValue : Calm (storedValue rules) :=
  (calm_skip _).bind fun _ => (calm_expect _).bind fun _ => calm_expression rules _

/-- The value that a declaration begins with is checked against its type, before the name itself
is bound; so this much of a declaration is calm. -/
theorem calm_initializer (name : Token) (type : DataType) : Calm (initializer rules name type) := by
  have hvalue : Calm (do
      let value ← storedValue rules
      checkStore .initialization name type value.type
      return [value.node]) :=
    (calm_storedValue rules).bind fun value => (calm_checkStore _ _ _ _).bind fun _ => calm_pure _
  refine calm_currentKind.bind fun kind => ?_
  split
  · exact hvalue
  · exact hvalue
  · exact calm_pure []

theorem calm_assignment (site : StoreSite) : Calm (assignment rules site) :=
  calm_advance.bind fun _ => (calm_boundType? _ _).bind fun _ =>
    (calm_storedValue rules).bind fun _ => (calm_checkStore? _ _ _ _).bind fun _ => calm_pure _

/-- A step up or down uses a name that is bound elsewhere, by `calm_resolve`. -/
theorem calm_step : Calm step :=
  calm_advance.bind fun _ => (calm_resolve _ _).bind fun _ =>
    calm_advance.bind fun _ => calm_pure _

/-- A statement that begins with a name, by the token behind it: a call, an assignment or a step.
The last branch fails behind the name. -/
theorem calm_simple (site : StoreSite) : Calm (simple rules site) := by
  refine calm_currentKind.bind fun kind => ?_
  split
  · refine calm_peekKind.bind fun next => ?_
    split
    · exact calm_call rules
    · exact calm_assignment rules site
    · exact calm_assignment rules site
    · exact calm_step
    · exact calm_step
    · exact calm_advance.bind fun _ => calm_unexpected _
  · exact calm_unexpected _

theorem calm_simpleStatement : Calm (simpleStatement rules) :=
  (calm_simple rules _).bind fun _ => (calm_expect _).bind fun _ => calm_pure _

/-- The statements of the form of `output` and `submit`. -/
theorem calm_keywordExpression (label : String) : Calm (keywordExpression rules label) :=
  calm_advance.bind fun _ => (calm_expression rules _).bind fun _ =>
    (calm_expect _).bind fun _ => calm_pure _

theorem calm_attach : Calm attach :=
  calm_advance.bind fun _ => (calm_expect _).bind fun _ => calm_pure _

/-- The condition in front of a block, with what it has to satisfy; the block itself opens a scope
and is not calm. -/
theorem calm_gate (keyword : Token) : Calm (gate rules keyword) :=
  (calm_condition rules).bind fun _ => (calm_reportViolation _ _).bind fun _ => calm_pure _

end DrLang
