import DrLang.Parse.Statement

/-!
# Steps that take no token

A parse both moves its cursor and keeps notes: the symbol table, the semantic errors, the
entry point and the log. Naming and typing only keep notes. They never fail, and what they
note does not depend on the place in the token list, so they can be told apart from the
moves of the cursor between them.

- `Notes`: the state of a parse without its cursor.
- `Yields`: what a step does to the notes, wherever the cursor stands.
- `Silent`: a step that always yields something.
- `Silent.yields`: the run of a silent step.
-/

namespace DrLang

/-- What a parse has noted so far, apart from its place in the token list. -/
structure Notes where
  symbols : SymbolTable
  diagnostics : List SemanticError
  entryPoint? : Option Nat
  log : List Event
deriving Repr, Inhabited

/-- The notes of a state. -/
def Parser.notes (s : Parser) : Notes where
  symbols := s.symbols
  diagnostics := s.diagnostics
  entryPoint? := s.entryPoint?
  log := s.log

/-- The state with these notes at a place. -/
def Notes.at (n : Notes) (c : Cursor) : Parser where
  cursor := c
  symbols := n.symbols
  diagnostics := n.diagnostics
  entryPoint? := n.entryPoint?
  log := n.log

namespace Notes

@[simp] theorem symbols_at (n : Notes) (c : Cursor) : (n.at c).symbols = n.symbols := rfl

@[simp] theorem entryPoint?_at (n : Notes) (c : Cursor) : (n.at c).entryPoint? = n.entryPoint? :=
  rfl

/-- The notes with an event more. -/
def record (n : Notes) (event : Event) : Notes :=
  { n with log := n.log ++ [event] }

/-- The notes with a semantic error more. -/
def report (n : Notes) (line : Nat) (cause : SemanticCause) : Notes where
  symbols := n.symbols
  diagnostics := n.diagnostics ++ [⟨line, cause⟩]
  entryPoint? := n.entryPoint?
  log := n.log ++ [.reported ⟨line, cause⟩]

/-- The notes with a scope opened. -/
def enter (n : Notes) : Notes where
  symbols := n.symbols.enter
  diagnostics := n.diagnostics
  entryPoint? := n.entryPoint?
  log := n.log ++ [n.symbols.enterEvent]

/-- The notes with the innermost scope closed. -/
def exit (n : Notes) : Notes where
  symbols := n.symbols.exit
  diagnostics := n.diagnostics
  entryPoint? := n.entryPoint?
  log := n.log ++ [n.symbols.exitEvent]

end Notes

namespace Parse

variable {α β : Type} {p : Parse α} {f : α → Parse β} {a : α} {b : β} {n n' n'' : Notes}

/-- From notes `n`, wherever the cursor stands, a step has result `a`, leaves notes `n'` and
does not move the cursor. -/
def Yields (p : Parse α) (n : Notes) (a : α) (n' : Notes) : Prop :=
  ∀ c, p.runFrom (n.at c) = (.ok a, n'.at c)

/-- A step that takes no token, looks at none and never fails. -/
def Silent (p : Parse α) : Prop :=
  ∀ n, ∃ a n', Yields p n a n'

/-- Two steps in turn: the second one yields from the notes `n'` and the result of the first, at
the same place. -/
theorem Yields.bind (h : Yields p n a n') (h' : Yields (f a) n' b n'') :
    Yields (p >>= f) n b n'' := by
  intro c
  rw [runFrom_bind, h c]
  exact h' c

theorem yields_pure (a : α) (n : Notes) : Yields (pure a) n a n := fun _ => rfl

/-- The run of a silent step: it succeeds, and the cursor stays where it is. -/
theorem Silent.yields (hp : Silent p) (s : Parser) :
    ∃ a n', p.runFrom s = (.ok a, n'.at s.cursor) ∧ Yields p s.notes a n' := by
  obtain ⟨a, n', h⟩ := hp s.notes
  exact ⟨a, n', h s.cursor, h⟩

theorem silent_pure (a : α) : Silent (pure a) := fun n => ⟨a, n, yields_pure a n⟩

/-- Silent steps may be put in sequence, since the second is silent for every result of the first.
-/
theorem Silent.bind (hp : Silent p) (hf : ∀ a, Silent (f a)) : Silent (p >>= f) := by
  intro n
  obtain ⟨a, n', h⟩ := hp n
  obtain ⟨b, n'', h'⟩ := hf a n'
  exact ⟨b, n'', h.bind h'⟩

/-! ### Names, errors and events -/

section Actions

variable (n)

theorem yields_record (event : Event) : Yields (record event) n () (n.record event) :=
  fun _ => rfl

/-- An error is noted with its event, as `Notes.report` has it. -/
theorem yields_report (line : Nat) (cause : SemanticCause) :
    Yields (report line cause) n () (n.report line cause) := fun _ => rfl

/-- Opening a scope, as `Notes.enter` has it. -/
theorem yields_enterScope : Yields enterScope n () n.enter := fun _ => rfl

/-- Closing a scope, as `Notes.exit` has it; the global frame is kept there. -/
theorem yields_exitScope : Yields exitScope n () n.exit := fun _ => rfl

/-- Looking a name up reads the table in the notes and changes nothing. -/
theorem yields_lookup? (name : String) :
    Yields (lookup? name) n (n.symbols.lookup? name) n := fun _ => rfl

variable {n}

theorem yields_declare?_of_ok {symbol : Symbol} {t : SymbolTable}
    (h : n.symbols.declare symbol = .ok t) :
    Yields (declare? symbol) n none { n with symbols := t } := by
  intro c
  rw [runFrom_declare?, Notes.symbols_at, h]
  rfl

/-- A name that its frame has already keeps its first binding, `existing`, which is given back. -/
theorem yields_declare?_of_error {symbol existing : Symbol}
    (h : n.symbols.declare symbol = .error existing) :
    Yields (declare? symbol) n (some existing) n := by
  intro c
  rw [runFrom_declare?, Notes.symbols_at, h]

theorem yields_defineEntryPoint?_of_none {line : Nat} (h : n.entryPoint? = none) :
    Yields (defineEntryPoint? line) n none { n with entryPoint? := some line } := by
  intro c
  rw [runFrom_defineEntryPoint?, Notes.entryPoint?_at, h]
  rfl

theorem yields_defineEntryPoint?_of_some {line previous : Nat} (h : n.entryPoint? = some previous) :
    Yields (defineEntryPoint? line) n (some previous) n := by
  intro c
  rw [runFrom_defineEntryPoint?, Notes.entryPoint?_at, h]

/-! ### Uses of names -/

theorem yields_boundType?_of_some {name : String} {line : Nat} {symbol : Symbol}
    (h : n.symbols.lookup? name = some symbol) :
    Yields (boundType? name line) n (some symbol.type) n := by
  refine (yields_lookup? n name).bind ?_
  rw [h]
  exact yields_pure _ n

/-- The use of an unknown name gives no type, and one error, `undeclared`. -/
theorem yields_boundType?_of_none {name : String} {line : Nat}
    (h : n.symbols.lookup? name = none) :
    Yields (boundType? name line) n none (n.report line (.undeclared name)) := by
  refine (yields_lookup? n name).bind ?_
  rw [h]
  exact (yields_report n line _).bind (yields_pure _ _)

/-- A declaration of a new name binds it, by `SymbolTable.declare`, without an error. -/
theorem yields_bindName_of_ok {symbol : Symbol} {t : SymbolTable}
    (h : n.symbols.declare symbol = .ok t) :
    Yields (bindName symbol) n () { n with symbols := t } :=
  (yields_declare?_of_ok h).bind (yields_pure _ _)

/-- A declaration of a name that is taken binds nothing: it is one error, `redeclaration`, which
cites the line of the first. -/
theorem yields_bindName_of_error {symbol existing : Symbol}
    (h : n.symbols.declare symbol = .error existing) :
    Yields (bindName symbol) n ()
      (n.report symbol.line (.redeclaration symbol.name existing.line)) :=
  (yields_declare?_of_error h).bind (yields_report n _ _)

theorem yields_noteEntryPoint_of_none {line : Nat} (h : n.entryPoint? = none) :
    Yields (noteEntryPoint line) n () { n with entryPoint? := some line } :=
  (yields_defineEntryPoint?_of_none h).bind (yields_pure _ _)

/-- A further entry point is one error, `entryPointRedefined`, which cites the line of the first.
-/
theorem yields_noteEntryPoint_of_some {line previous : Nat} (h : n.entryPoint? = some previous) :
    Yields (noteEntryPoint line) n () (n.report line (.entryPointRedefined previous)) :=
  (yields_defineEntryPoint?_of_some h).bind (yields_report n _ _)

end Actions

/-! ### Silent actions -/

theorem silent_report (line : Nat) (cause : SemanticCause) : Silent (report line cause) :=
  fun n => ⟨(), _, yields_report n line cause⟩

theorem silent_enterScope : Silent enterScope := fun n => ⟨(), _, yields_enterScope n⟩

theorem silent_exitScope : Silent exitScope := fun n => ⟨(), _, yields_exitScope n⟩

/-- Whether a name is bound is a question to the table in the notes; both answers are yielded. -/
theorem silent_boundType? (name : String) (line : Nat) : Silent (boundType? name line) := by
  intro n
  cases h : n.symbols.lookup? name with
  | none => exact ⟨none, _, yields_boundType?_of_none h⟩
  | some symbol => exact ⟨some symbol.type, n, yields_boundType?_of_some h⟩

/-- As `silent_boundType?`, with the type of an unknown name filled in. -/
theorem silent_resolve (name : String) (line : Nat) : Silent (resolve name line) :=
  (silent_boundType? name line).bind fun _ => silent_pure _

/-- A type that was found is given, and a violation noted; both cases of `result` are silent. -/
theorem silent_typeOrReport (line : Nat) (result : Except SemanticCause DataType) :
    Silent (typeOrReport line result) := by
  cases result with
  | ok type => exact silent_pure type
  | error cause => exact (silent_report line cause).bind fun _ => silent_pure _

/-- A declaration is silent whether its name is new or taken: both cases of `declare` are yielded.
-/
theorem silent_bindName (symbol : Symbol) : Silent (bindName symbol) := by
  intro n
  cases h : n.symbols.declare symbol with
  | ok t => exact ⟨(), _, yields_bindName_of_ok h⟩
  | error existing => exact ⟨(), _, yields_bindName_of_error h⟩

theorem silent_checkStore (site : StoreSite) (name : Token) (target source : DataType) :
    Silent (checkStore site name target source) := by
  unfold checkStore
  split
  · exact silent_pure ()
  · exact silent_report _ _

/-- As `silent_checkStore`, with nothing to check where the name is not bound. -/
theorem silent_checkStore? (site : StoreSite) (name : Token) (target? : Option DataType)
    (source : DataType) : Silent (checkStore? site name target? source) := by
  cases target? with
  | none => exact silent_pure ()
  | some target => exact silent_checkStore site name target source

theorem silent_reportViolation (line : Nat) (result : Except SemanticCause Unit) :
    Silent (reportViolation line result) := by
  cases result with
  | ok => exact silent_pure ()
  | error cause => exact silent_report line cause

/-- An entry point is the first or a further one by `entryPoint?` alone. -/
theorem silent_noteEntryPoint (line : Nat) : Silent (noteEntryPoint line) := by
  intro n
  cases h : n.entryPoint? with
  | none => exact ⟨(), _, yields_noteEntryPoint_of_none h⟩
  | some previous => exact ⟨(), _, yields_noteEntryPoint_of_some h⟩

/-- The count that ends a parse is taken from the notes; it is the only event that reads how many
errors there are. -/
theorem silent_parsed (count : Nat) :
    Silent (do record (.parsed count (← get).diagnostics.length)) :=
  fun n => ⟨(), n.record (.parsed count n.diagnostics.length), fun _ => rfl⟩

end Parse

end DrLang
