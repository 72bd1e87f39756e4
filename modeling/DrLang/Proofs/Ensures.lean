import DrLang.Proofs.Silent
import DrLang.Proofs.Labels

/-!
# What a step ensures if it succeeds

A step changes the place in the token list, the symbols, the errors and the entry point.
For the analysis of a program the place does not matter, as long as no token comes from
elsewhere, and of the other changes it matters how much was added. Two relations between
states say that, one for steps that bind nothing and one for steps that may, and each
action ensures one of them.

- `Ensures`: what holds of the result and the state if a step succeeds.
- `Keeps`: a step that binds nothing, with the errors that it reported.
- `Extends`: a step that leaves the outer frames alone, with what it declared as well.
- `Extends.close`: a step inside a frame of its own.
- `Upholds`: what holds behind a step even if it fails, together with what it ensures.
-/

namespace DrLang

open Parse Analysis

/-! ### States and scopes -/

/-- The names in sight in a symbol table. -/
def SymbolTable.scope (t : SymbolTable) : Scope where
  visible := t.lookup?
  own := t.innermost.find?

/-- What is known in a state. -/
def Parser.situation (s : Parser) : Situation where
  scope := s.symbols.scope
  entryPoint? := s.entryPoint?

/-- A state with tokens ahead whose texts show their classes. -/
def Parser.Fit (s : Parser) : Prop :=
  ∀ t ∈ s.cursor.tokens, t.Fits

/-- The current token is one of those ahead; `Parser.Fit` is used through this. -/
theorem Parser.Fit.current {s : Parser} (hs : s.Fit) : s.cursor.current.Fits :=
  hs _ List.mem_cons_self

namespace SymbolTable

variable {t t' : SymbolTable}

@[simp] theorem scope_enter (t : SymbolTable) : t.enter.scope = t.scope.frame := rfl

/-- Binding a symbol in the table is `Scope.bind` in the scope that is read off the table, both
for the names in sight and for those of the frame itself. -/
theorem scope_declare {symbol : Symbol} (h : t.declare symbol = .ok t') :
    t'.scope = t.scope.bind symbol := by
  have hvisible : t'.lookup? = fun name =>
      if symbol.name = name then some symbol else t.lookup? name := by
    funext name
    exact lookup?_declare h name
  -- A repeated name is refused, so what was declared is new to the innermost frame.
  have hown : t'.innermost.find? = fun name =>
      if symbol.name = name then some symbol else t.innermost.find? name := by
    funext name
    unfold declare at h
    split at h
    case h_1 => simp at h
    case h_2 =>
      obtain rfl := Except.ok.inj h
      by_cases hname : symbol.name = name <;> simp [Frame.find?, hname]
  rw [scope, scope, Scope.bind, hvisible, hown]

/-- Whatever was bound in a frame, its end brings back the scope before it. -/
theorem exit_of_outer (h : t'.outer = t.enter.outer) :
    t'.exit.scope = t.scope ∧ t'.exit.outer = t.outer := by
  have houter : t'.outer = t.innermost :: t.outer := h
  unfold exit
  rw [houter]
  exact ⟨rfl, rfl⟩

end SymbolTable

/-! ### Steps that bind nothing -/

/-- From one state to another no name is bound and no frame opened, and some errors are
reported. -/
structure Keeps (s s' : Parser) (errors : List SemanticError) : Prop where
  tokens : s'.cursor.tokens <:+ s.cursor.tokens
  symbols : s'.symbols = s.symbols
  entryPoint : s'.entryPoint? = s.entryPoint?
  diagnostics : s'.diagnostics = s.diagnostics ++ errors

namespace Keeps

variable {s s' s'' : Parser} {errors errors' : List SemanticError}

/-- Behind nothing, nothing is added. -/
theorem refl (s : Parser) : Keeps s s [] :=
  ⟨List.suffix_refl _, rfl, rfl, (List.append_nil _).symm⟩

/-- Two steps that bind nothing, with the errors of the first in front. -/
theorem trans (h : Keeps s s' errors) (h' : Keeps s' s'' errors') :
    Keeps s s'' (errors ++ errors') where
  tokens := h'.tokens.trans h.tokens
  symbols := h'.symbols.trans h.symbols
  entryPoint := h'.entryPoint.trans h.entryPoint
  diagnostics := by rw [h'.diagnostics, h.diagnostics, List.append_assoc]

/-- Tokens that are taken behind a piece do not matter for it. -/
theorem before_tokens (h : Keeps s s' errors) (h' : Keeps s' s'' []) : Keeps s s'' errors := by
  simpa using h.trans h'

/-- The tokens ahead are only taken from, by `Keeps.tokens`, so their texts go on showing their
classes. -/
theorem fit (h : Keeps s s' errors) (hs : s.Fit) : s'.Fit :=
  fun t ht => hs t (h.tokens.subset ht)

/-- The `Situation` is read off what `Keeps` leaves alone. -/
theorem situation (h : Keeps s s' errors) : s'.situation = s.situation := by
  rw [Parser.situation, Parser.situation, h.symbols, h.entryPoint]

end Keeps

/-! ### Steps that may bind -/

/-- From one state to another the outer frames stay, and some names are bound and some
errors reported. -/
structure Extends (s s' : Parser) (symbols : List Symbol) (errors : List SemanticError) :
    Prop where
  tokens : s'.cursor.tokens <:+ s.cursor.tokens
  outer : s'.symbols.outer = s.symbols.outer
  declared : s'.symbols.declared = s.symbols.declared ++ symbols
  diagnostics : s'.diagnostics = s.diagnostics ++ errors

/-- A step that binds nothing is one that may bind, with `[]` as the symbols added. -/
theorem Keeps.extends {s s' : Parser} {errors : List SemanticError} (h : Keeps s s' errors) :
    Extends s s' [] errors :=
  ⟨h.tokens, congrArg SymbolTable.outer h.symbols, by rw [h.symbols, List.append_nil],
    h.diagnostics⟩

/-- A frame is opened between two states. -/
structure Enters (s s' : Parser) : Prop where
  cursor : s'.cursor = s.cursor
  symbols : s'.symbols = s.symbols.enter
  entryPoint : s'.entryPoint? = s.entryPoint?
  diagnostics : s'.diagnostics = s.diagnostics

/-- The innermost frame is closed between two states. -/
structure Exits (s s' : Parser) : Prop where
  cursor : s'.cursor = s.cursor
  symbols : s'.symbols = s.symbols.exit
  entryPoint : s'.entryPoint? = s.entryPoint?
  diagnostics : s'.diagnostics = s.diagnostics

/-- Opening a frame is `Situation.frame`: all names stay in sight, and none is the frame's own. -/
theorem Enters.situation {s s' : Parser} (h : Enters s s') : s'.situation = s.situation.frame := by
  rw [Parser.situation, h.symbols, h.entryPoint, SymbolTable.scope_enter]
  rfl

theorem Enters.fit {s s' : Parser} (h : Enters s s') (hs : s.Fit) : s'.Fit := by
  intro t ht
  rw [h.cursor] at ht
  exact hs t ht

namespace Extends

variable {s s' s'' s₁ s₂ : Parser} {symbols symbols' : List Symbol}
  {errors errors' : List SemanticError}

/-- Two steps that may bind, with what the first one adds in front. -/
theorem trans (h : Extends s s' symbols errors) (h' : Extends s' s'' symbols' errors') :
    Extends s s'' (symbols ++ symbols') (errors ++ errors') where
  tokens := h'.tokens.trans h.tokens
  outer := h'.outer.trans h.outer
  declared := by rw [h'.declared, h.declared, List.append_assoc]
  diagnostics := by rw [h'.diagnostics, h.diagnostics, List.append_assoc]

/-- As `Keeps.fit`, for steps that may bind. -/
theorem fit (h : Extends s s' symbols errors) (hs : s.Fit) : s'.Fit :=
  fun t ht => hs t (h.tokens.subset ht)

/-- What happens inside a frame leaves the scope around it as it was. -/
theorem close (henters : Enters s s₁) (h : Extends s₁ s₂ symbols errors)
    (hexits : Exits s₂ s') :
    Extends s s' symbols errors ∧ s'.situation = ⟨s.situation.scope, s₂.situation.entryPoint?⟩ := by
  have houter : s₂.symbols.outer = s.symbols.enter.outer := by rw [h.outer, henters.symbols]
  obtain ⟨hscope, hexit⟩ := SymbolTable.exit_of_outer houter
  constructor
  · constructor
    · rw [hexits.cursor, ← henters.cursor]
      exact h.tokens
    · rw [hexits.symbols, hexit]
    · rw [hexits.symbols, SymbolTable.declared_exit, h.declared, henters.symbols,
        SymbolTable.declared_enter]
    · rw [hexits.diagnostics, h.diagnostics, henters.diagnostics]
  · rw [Parser.situation, hexits.symbols, hscope, hexits.entryPoint]
    rfl

end Extends

/-- The outcome of a walk is what was made, and what changed from one state to another. -/
structure Accounts {α : Type} (s s' : Parser) (o : Outcome α) (a : α) : Prop where
  result : o.result = a
  behind : o.behind = s'.situation
  added : Extends s s' o.symbols o.errors

/-- What binds nothing leaves the situation as it was: `keep` gives its errors. -/
theorem Keeps.accounts {α : Type} {s s' : Parser} {errors : List SemanticError}
    {checked : Checked α} {a : α} (h : Keeps s s' errors) (hchecked : checked = (a, errors)) :
    Accounts s s' (s.situation.keep checked) a := by
  subst hchecked
  exact ⟨rfl, h.situation.symm, h.extends⟩

namespace Accounts

variable {α β : Type} {s s' s₁ s₂ : Parser} {o : Outcome α} {a : α}

/-- Tokens that are taken before a piece do not matter for it ... -/
theorem after_tokens (h : Accounts s₁ s' o a) (hkeeps : Keeps s s₁ []) : Accounts s s' o a :=
  ⟨h.result, h.behind, hkeeps.extends.trans h.added⟩

/-- ... nor do those that are taken behind it. -/
theorem before_tokens (h : Accounts s s₁ o a) (hkeeps : Keeps s₁ s' []) : Accounts s s' o a := by
  refine ⟨h.result, h.behind.trans hkeeps.situation.symm, ?_⟩
  simpa using h.added.trans hkeeps.extends

/-- A list of trees is accounted for tree by tree, as `Outcome.cons` puts their outcomes together.
-/
theorem cons {os : Outcome (List α)} {as : List α} (hfirst : Accounts s s₁ o a)
    (hothers : Accounts s₁ s' os as) : Accounts s s' (o.cons os) (a :: as) where
  result := congrArg₂ List.cons hfirst.result hothers.result
  behind := hothers.behind
  added := hfirst.added.trans hothers.added

/-- What is bound in a frame is not in sight behind it. -/
theorem close (henters : Enters s s₁) (h : Accounts s₁ s₂ o a) (hexits : Exits s₂ s')
    (wrap : α → β) : Accounts s s' (o.close s.situation wrap) (wrap a) := by
  obtain ⟨hadded, hsituation⟩ := Extends.close henters h.added hexits
  refine ⟨congrArg wrap h.result, ?_, hadded⟩
  rw [hsituation, Outcome.close, h.behind]

end Accounts

/-! ### Results -/

variable {α β : Type} {p : Parse α} {f : α → Parse β} {s : Parser} {P Q : α → Parser → Prop}
  {R : β → Parser → Prop}

/-- If a step succeeds, its result and the state behind it satisfy `Q`. -/
def Ensures (p : Parse α) (s : Parser) (Q : α → Parser → Prop) : Prop :=
  ∀ a s', p.runFrom s = (.ok a, s') → Q a s'

/-- What a sequence ensures: the second step starts where `P` holds, which is what the first one
ensures. -/
theorem Ensures.bind (hp : Ensures p s P) (hf : ∀ a s', P a s' → Ensures (f a) s' R) :
    Ensures (p >>= f) s R := by
  intro b s'' hrun
  rw [runFrom_bind] at hrun
  split at hrun
  case h_1 a s' hstep => exact hf a s' (hp a s' hstep) b s'' hrun
  case h_2 => simp at hrun

/-- Only the run of a step matters, not how it is written down; `runFrom_currentKind_bind` and its
like are used through this. -/
theorem Ensures.congr {q : Parse α} (heq : p.runFrom s = q.runFrom s) (h : Ensures q s Q) :
    Ensures p s Q :=
  fun a s' hrun => h a s' (heq ▸ hrun)

theorem Ensures.imp (h : Ensures p s P) (hPQ : ∀ a s', P a s' → Q a s') : Ensures p s Q :=
  fun a s' hrun => hPQ a s' (h a s' hrun)

theorem Ensures.and (hP : Ensures p s P) (hQ : Ensures p s Q) :
    Ensures p s fun a s' => P a s' ∧ Q a s' :=
  fun a s' hrun => ⟨hP a s' hrun, hQ a s' hrun⟩

/-- A step that only gives a result ensures what holds already. -/
theorem ensures_pure {a : α} (h : Q a s) : Ensures (pure a) s Q := by
  intro a' s' hrun
  obtain ⟨hok, rfl⟩ := Prod.mk.inj hrun
  obtain rfl := Except.ok.inj hok
  exact h

theorem ensures_throw (e : FatalError) : Ensures (throw e : Parse α) s Q := by
  intro a s' hrun
  simp at hrun

/-- As `ensures_throw`, for the failure at the current token. -/
theorem ensures_unexpected (expected : Expectation) :
    Ensures (unexpected expected : Parse α) s Q := by
  intro a s' hrun
  simp at hrun

/-- What a silent step yields, it ensures. -/
theorem Parse.Yields.ensures {a : α} {n' : Notes} (h : Yields p s.notes a n')
    (hQ : Q a (n'.at s.cursor)) : Ensures p s Q := by
  intro a' s' hrun
  obtain ⟨hok, rfl⟩ := Prod.mk.inj ((h s.cursor).symm.trans hrun)
  obtain rfl := Except.ok.inj hok
  exact hQ

/-! ### Invariants -/

/-- Whether a step succeeds or fails, `I` holds of the state behind it. If it succeeds, its
result and that state satisfy `Q` as well. -/
structure Upholds (I : Parser → Prop) (p : Parse α) (s : Parser) (Q : α → Parser → Prop) :
    Prop where
  invariant : I (p.runFrom s).2
  ensures : Ensures p s Q

section Upholds

variable {I : Parser → Prop}

/-- In a sequence, the invariant holds between the steps as well, and behind the first one if that
fails: the cases of `runFrom_bind` are taken twice, once for each half of `Upholds`. -/
theorem Upholds.bind (hp : Upholds I p s P)
    (hf : ∀ a s', I s' → P a s' → Upholds I (f a) s' R) : Upholds I (p >>= f) s R := by
  have hinvariant := hp.invariant
  constructor
  · -- The invariant holds also where the first part fails: both outcomes of `p` have to be looked
    -- at.
    rw [runFrom_bind]
    split
    case h_1 a s' hrun =>
      rw [hrun] at hinvariant
      exact (hf a s' hinvariant (hp.ensures a s' hrun)).invariant
    case h_2 e s' hrun =>
      rw [hrun] at hinvariant
      exact hinvariant
  · intro b s'' hrun
    rw [runFrom_bind] at hrun
    split at hrun
    case h_1 a s' hstep =>
      rw [hstep] at hinvariant
      exact (hf a s' hinvariant (hp.ensures a s' hstep)).ensures b s'' hrun
    case h_2 => simp at hrun

/-- As `Ensures.congr`. -/
theorem Upholds.congr {q : Parse α} (heq : p.runFrom s = q.runFrom s) (h : Upholds I q s Q) :
    Upholds I p s Q :=
  ⟨by rw [heq]; exact h.invariant, h.ensures.congr heq⟩

/-- As `Ensures.imp`; the invariant itself stays as it is. -/
theorem Upholds.imp (h : Upholds I p s P) (hPQ : ∀ a s', P a s' → Q a s') : Upholds I p s Q :=
  ⟨h.invariant, h.ensures.imp hPQ⟩

/-- Giving a result leaves the state, so the invariant is to hold already, as `Q` is. -/
theorem upholds_pure {a : α} (hI : I s) (h : Q a s) : Upholds I (pure a) s Q :=
  ⟨hI, ensures_pure h⟩

/-- A failure at the current token leaves the state, so the invariant is to hold already. -/
theorem upholds_unexpected (expected : Expectation) (hI : I s) :
    Upholds I (unexpected expected : Parse α) s Q :=
  ⟨hI, ensures_unexpected expected⟩

theorem upholds_currentKind_bind {f : TokenKind → Parse β}
    (h : Upholds I (f s.cursor.current.kind) s R) : Upholds I (currentKind >>= f) s R :=
  h.congr (runFrom_currentKind_bind s f)

/-- What a silent step yields, it ensures, and it does not fail. -/
theorem Parse.Yields.upholds {a : α} {n' : Notes} (h : Yields p s.notes a n')
    (hI : I (n'.at s.cursor)) (hQ : Q a (n'.at s.cursor)) : Upholds I p s Q := by
  refine ⟨?_, h.ensures hQ⟩
  rw [show p.runFrom s = _ from h s.cursor]
  exact hI

end Upholds

/-! ### Tokens -/

/-- A look at the current token chooses the branch; this one and the next three open the `do`
blocks of the rules. -/
theorem ensures_currentKind_bind {f : TokenKind → Parse β}
    (h : Ensures (f s.cursor.current.kind) s R) : Ensures (currentKind >>= f) s R :=
  h.congr (runFrom_currentKind_bind s f)

/-- As `ensures_currentKind_bind`, for the token behind. -/
theorem ensures_peekKind_bind {f : TokenKind → Parse β}
    (h : Ensures (f s.cursor.peekKind) s R) : Ensures (peekKind >>= f) s R :=
  h.congr (runFrom_peekKind_bind s f)

/-- As `ensures_currentKind_bind`, for the bound of a loop. -/
theorem ensures_remaining_bind {f : Nat → Parse β}
    (h : Ensures (f s.cursor.remaining) s R) : Ensures (remaining >>= f) s R :=
  h.congr (runFrom_remaining_bind s f)

/-- As `ensures_currentKind_bind`, for the whole state. -/
theorem ensures_get_bind {f : Parser → Parse β} (h : Ensures (f s) s R) :
    Ensures (get >>= f) s R :=
  h.congr (runFrom_bind _ _ _)

/-- Taking a token is no more than a shorter list ahead, by `Cursor.tokens_advance_suffix`. -/
theorem keeps_advance (s : Parser) : Keeps s { s with cursor := s.cursor.advance } [] :=
  ⟨Cursor.tokens_advance_suffix _, rfl, rfl, (List.append_nil _).symm⟩

theorem ensures_advance :
    Ensures advance s fun t s' => t = s.cursor.current ∧ Keeps s s' [] := by
  intro t s' hrun
  obtain ⟨hok, rfl⟩ := Prod.mk.inj hrun
  exact ⟨(Except.ok.inj hok).symm, keeps_advance s⟩

/-- What `expect` takes is the current token, of the class that was asked for. -/
theorem ensures_expect (kind : TokenKind) :
    Ensures (expect kind) s fun t s' => t = s.cursor.current ∧ t.kind = kind ∧ Keeps s s' [] := by
  intro t s' hrun
  rw [runFrom_expect] at hrun
  split at hrun
  case isTrue hkind =>
    obtain ⟨hok, rfl⟩ := Prod.mk.inj hrun
    obtain rfl := Except.ok.inj hok
    exact ⟨rfl, hkind, keeps_advance s⟩
  case isFalse => simp at hrun

/-! ### Scopes -/

/-- `Enters` is what opening a scope does, apart from its event. -/
theorem ensures_enterScope : Ensures enterScope s fun _ s' => Enters s s' :=
  (yields_enterScope s.notes).ensures ⟨rfl, rfl, rfl, rfl⟩

/-- `Exits` is what closing a scope does, apart from its event. -/
theorem ensures_exitScope : Ensures exitScope s fun _ s' => Exits s s' :=
  (yields_exitScope s.notes).ensures ⟨rfl, rfl, rfl, rfl⟩

/-! ### Events -/

/-- Of an event nothing is to be said but that it changes nothing else. -/
theorem ensures_record (event : Event) : Ensures (record event) s fun _ s' => Keeps s s' [] :=
  (yields_record s.notes event).ensures
    ⟨List.suffix_refl _, rfl, rfl, (List.append_nil s.diagnostics).symm⟩

/-! ### Uses of names -/

/-- The state behind a report, as `Notes.report` has it, keeps all but the errors. -/
theorem keeps_report (s : Parser) (line : Nat) (cause : SemanticCause) :
    Keeps s ((s.notes.report line cause).at s.cursor) [⟨line, cause⟩] :=
  ⟨List.suffix_refl _, rfl, rfl, rfl⟩

/-- A report adds exactly the error it is given, by `Yields.ensures`. -/
theorem ensures_report (line : Nat) (cause : SemanticCause) :
    Ensures (report line cause) s fun _ s' => Keeps s s' [⟨line, cause⟩] :=
  (yields_report s.notes line cause).ensures (keeps_report s line cause)

/-- The use of a name, against the names in sight: `Scope.undeclared` is the error that there is,
or none. -/
theorem ensures_boundType? (name : String) (line : Nat) :
    Ensures (boundType? name line) s fun type? s' =>
      type? = (s.symbols.scope.visible name).map Symbol.type ∧
        Keeps s s' (s.symbols.scope.undeclared name line) := by
  have hvisible : s.symbols.scope.visible name = s.symbols.lookup? name := rfl
  rw [Scope.undeclared, hvisible]
  cases h : s.symbols.lookup? name with
  | some symbol => exact (yields_boundType?_of_some h).ensures ⟨rfl, Keeps.refl s⟩
  | none => exact (yields_boundType?_of_none h).ensures ⟨rfl, keeps_report s _ _⟩

/-- As `ensures_boundType?`, for the type that an expression gets. -/
theorem ensures_resolve (name : String) (line : Nat) :
    Ensures (resolve name line) s fun type s' =>
      type = s.symbols.scope.typeOf name ∧ Keeps s s' (s.symbols.scope.undeclared name line) := by
  refine (ensures_boundType? name line).bind fun type? s' h => ?_
  obtain ⟨rfl, hkeeps⟩ := h
  exact ensures_pure ⟨rfl, hkeeps⟩

/-! ### Rules -/

/-- A rule that gives a type or is violated. -/
theorem ensures_typeOrReport (line : Nat) {result : Except SemanticCause DataType}
    {type? : Option DataType} {cause : SemanticCause}
    (h : result = match type? with
      | some type => .ok type
      | none => .error cause) :
    Ensures (typeOrReport line result) s fun type s' =>
      type = type?.getD .unknown ∧ Keeps s s' (if type?.isSome then [] else [⟨line, cause⟩]) := by
  cases type? with
  | some type =>
    subst h
    exact ensures_pure ⟨rfl, Keeps.refl s⟩
  | none =>
    subst h
    exact (ensures_report line cause).bind fun _ s' hkeeps => ensures_pure ⟨rfl, hkeeps⟩

/-- The check of a store, against `mismatch`. The outline `o` has the name that is stored into as
its label, and its line. -/
theorem ensures_checkStore (site : StoreSite) (name : Token) (target source : DataType)
    {o : Outline} (hlabel : o.label = name.value) (hline : o.line = name.line) :
    Ensures (checkStore site name target source) s fun _ s' =>
      Keeps s s' (mismatch site o (some target) source) := by
  simp only [checkStore, isAssignable_eq, mismatch, hlabel, hline]
  split
  · exact ensures_pure (Keeps.refl s)
  · exact ensures_report _ _

/-- As `ensures_checkStore`, also where the name is not bound and `mismatch` is about nothing. -/
theorem ensures_checkStore? (site : StoreSite) (name : Token) (target? : Option DataType)
    (source : DataType) {o : Outline} (hlabel : o.label = name.value) (hline : o.line = name.line) :
    Ensures (checkStore? site name target? source) s fun _ s' =>
      Keeps s s' (mismatch site o target? source) := by
  cases target? with
  | none => exact ensures_pure (Keeps.refl s)
  | some target => exact ensures_checkStore site name target source hlabel hline

/-- The check of a condition, against `mayDecide`. -/
theorem ensures_reportViolation (line : Nat) (construct : String) (type : DataType) :
    Ensures (reportViolation line (Typing.condition construct type)) s fun _ s' =>
      Keeps s s' (if mayDecide type then []
        else [⟨line, .nonBooleanCondition construct type⟩]) := by
  rw [condition_eq]
  split
  · exact ensures_pure (Keeps.refl s)
  · exact ensures_report _ _

/-! ### Bindings -/

/-- A declaration, against `binding` of the walk: a name that its frame has already is an error,
any other is bound. -/
theorem ensures_bindName (symbol : Symbol) :
    Ensures (bindName symbol) s fun _ s' => Accounts s s' (binding s.situation symbol) () := by
  have hown : s.situation.scope.own symbol.name = s.symbols.innermost.find? symbol.name := rfl
  rw [binding, hown]
  cases h : s.symbols.innermost.find? symbol.name with
  | none =>
    have hdeclare : s.notes.symbols.declare symbol = _ := SymbolTable.declare_of_none h
    refine (yields_bindName_of_ok hdeclare).ensures ⟨rfl, ?_, ?_⟩
    · have hscope := SymbolTable.scope_declare hdeclare
      exact congrArg (Situation.mk · s.entryPoint?) hscope.symm
    · exact ⟨List.suffix_refl _, rfl, rfl, (List.append_nil _).symm⟩
  | some previous =>
    have hdeclare : s.notes.symbols.declare symbol = _ := SymbolTable.declare_of_some h
    have hkeeps := keeps_report s symbol.line (.redeclaration symbol.name previous.line)
    exact (yields_bindName_of_error hdeclare).ensures ⟨rfl, hkeeps.situation.symm, hkeeps.extends⟩

/-- The entry point, against `entryPoint` of the walk: the first is noted, any other is an error.
-/
theorem ensures_noteEntryPoint (line : Nat) :
    Ensures (noteEntryPoint line) s fun _ s' => Accounts s s' (entryPoint s.situation line) () := by
  have hentry : s.situation.entryPoint? = s.entryPoint? := rfl
  rw [entryPoint, hentry]
  cases h : s.entryPoint? with
  | none =>
    exact (yields_noteEntryPoint_of_none h).ensures ⟨rfl, rfl, List.suffix_refl _, rfl,
      (List.append_nil _).symm, (List.append_nil _).symm⟩
  | some previous =>
    have hkeeps := keeps_report s line (.entryPointRedefined previous)
    exact (yields_noteEntryPoint_of_some h).ensures ⟨rfl, hkeeps.situation.symm, hkeeps.extends⟩

end DrLang
