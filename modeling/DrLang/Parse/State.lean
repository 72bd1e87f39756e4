import DrLang.Parse.Cursor
import DrLang.SymbolTable
import DrLang.Diagnostic.Fatal

/-!
# The state of a parse

A parse moves a cursor, and on its way keeps the symbol table, collects semantic
errors, remembers the entry point and reports events. A fatal error stops it; what was
changed before stays changed.

- `Parser`: the state.
- `Parse`: actions on it that may fail.
- `Parse.expect`: takes a token of a given class, or fails there.
- `Parse.report`: collects a semantic error.
- `Parse.runFrom_bind` and the lemmas after it: what each action does to the state.
-/

namespace DrLang

/-- The state of a parse. -/
structure Parser where
  cursor : Cursor
  symbols : SymbolTable
  /-- The semantic errors met so far, in order. -/
  diagnostics : List SemanticError
  /-- The line of the first definition of the entry point. -/
  entryPoint? : Option Nat
  /-- The events reported so far, in order. -/
  log : List Event
deriving Repr, Inhabited

/-- The state in which the parse of a token list begins. -/
def Parser.start (tokens : List Token) : Parser where
  cursor := .ofTokens tokens
  symbols := .empty
  diagnostics := []
  entryPoint? := none
  log := []

/-- A step of a parse: it changes the state, and has a result or fails. -/
abbrev Parse (α : Type) : Type :=
  ExceptT FatalError (StateM Parser) α

namespace Parse

variable {α : Type}

/-- The result of a step from a state, or its failure, and the state after it. -/
def runFrom (p : Parse α) (s : Parser) : Except FatalError α × Parser :=
  (ExceptT.run p).run s

/-! ### Looking at tokens -/

/-- The current token. -/
def current : Parse Token := do
  return (← get).cursor.current

/-- The class of the current token. -/
def currentKind : Parse TokenKind := do
  return (← get).cursor.current.kind

/-- The class of the token after the current one. -/
def peekKind : Parse TokenKind := do
  return (← get).cursor.peekKind

/-- The number of tokens after the current one. -/
def remaining : Parse Nat := do
  return (← get).cursor.remaining

/-- Takes the current token, whatever it is. -/
def advance : Parse Token := do
  let s ← get
  set { s with cursor := s.cursor.advance }
  return s.cursor.current

/-- Fails at the current token. -/
def unexpected (expected : Expectation) : Parse α := do
  throw (FatalError.atToken expected (← current))

/-- Takes the current token if it is of class `kind`, and fails there otherwise. -/
def expect (kind : TokenKind) : Parse Token := do
  if (← currentKind) = kind then advance
  else unexpected (.token kind)

/-- The result of a step or its failure, as a result. -/
def attempt (p : Parse α) : Parse (Except FatalError α) :=
  ExceptT.lift (ExceptT.run p)

/-! ### Names, errors and events -/

/-- Reports an event. -/
def record (event : Event) : Parse Unit :=
  modify fun s => { s with log := s.log ++ [event] }

/-- Collects a semantic error, and goes on. -/
def report (line : Nat) (cause : SemanticCause) : Parse Unit := do
  modify fun s => { s with diagnostics := s.diagnostics ++ [⟨line, cause⟩] }
  record (.reported ⟨line, cause⟩)

/-- Opens a scope. -/
def enterScope : Parse Unit := do
  let s ← get
  set { s with symbols := s.symbols.enter }
  record s.symbols.enterEvent

/-- Closes the innermost scope. -/
def exitScope : Parse Unit := do
  let s ← get
  set { s with symbols := s.symbols.exit }
  record s.symbols.exitEvent

/-- The innermost binding of a name. -/
def lookup? (name : String) : Parse (Option Symbol) := do
  return (← get).symbols.lookup? name

/-- Binds a symbol in the innermost scope, or gives the binding that its name has
there already. -/
def declare? (symbol : Symbol) : Parse (Option Symbol) := do
  let s ← get
  match s.symbols.declare symbol with
  | .ok symbols =>
    set { s with symbols := symbols }
    return none
  | .error existing => return some existing

/-- Remembers the line of the entry point, or gives the line remembered already. -/
def defineEntryPoint? (line : Nat) : Parse (Option Nat) := do
  let s ← get
  match s.entryPoint? with
  | some previous => return some previous
  | none =>
    set { s with entryPoint? := some line }
    return none

/-! ### What the actions do -/

section Run

variable {β : Type} (s : Parser)

@[simp] theorem runFrom_pure (a : α) : (pure a : Parse α).runFrom s = (.ok a, s) := rfl

@[simp] theorem runFrom_throw (e : FatalError) :
    (throw e : Parse α).runFrom s = (.error e, s) := rfl

/-- A sequence of two steps: the second one starts from the state and the result of the
first, and is left out when the first one fails. -/
theorem runFrom_bind (p : Parse α) (f : α → Parse β) :
    (p >>= f).runFrom s =
      match p.runFrom s with
      | (.ok a, s') => (f a).runFrom s'
      | (.error e, s') => (.error e, s') := by
  simp only [runFrom, ExceptT.run_bind, StateT.run_bind]
  rcases (ExceptT.run p).run s with ⟨_ | _, s'⟩ <;> rfl

@[simp] theorem runFrom_currentKind : currentKind.runFrom s = (.ok s.cursor.current.kind, s) := rfl

@[simp] theorem runFrom_peekKind : peekKind.runFrom s = (.ok s.cursor.peekKind, s) := rfl

@[simp] theorem runFrom_remaining : remaining.runFrom s = (.ok s.cursor.remaining, s) := rfl

/-- A step that begins with a look at the current token is the step for its class. The three
lemmas of this form turn a table lookup into the branch that it leads to. -/
theorem runFrom_currentKind_bind (f : TokenKind → Parse α) :
    (currentKind >>= f).runFrom s = (f s.cursor.current.kind).runFrom s := by
  rw [runFrom_bind, runFrom_currentKind]

/-- As `runFrom_currentKind_bind`, for the token behind the current one. -/
theorem runFrom_peekKind_bind (f : TokenKind → Parse α) :
    (peekKind >>= f).runFrom s = (f s.cursor.peekKind).runFrom s := by
  rw [runFrom_bind, runFrom_peekKind]

/-- As `runFrom_currentKind_bind`, for the bound that a loop begins with. -/
theorem runFrom_remaining_bind (f : Nat → Parse α) :
    (remaining >>= f).runFrom s = (f s.cursor.remaining).runFrom s := by
  rw [runFrom_bind, runFrom_remaining]

@[simp] theorem runFrom_advance :
    advance.runFrom s = (.ok s.cursor.current, { s with cursor := s.cursor.advance }) := rfl

@[simp] theorem runFrom_unexpected (expected : Expectation) :
    (unexpected expected : Parse α).runFrom s =
      (.error (FatalError.atToken expected s.cursor.current), s) := rfl

/-- `expect` moves past a token of the class it asks for; at another one it fails, with the cursor
on it. -/
theorem runFrom_expect (kind : TokenKind) :
    (expect kind).runFrom s =
      if s.cursor.current.kind = kind then
        (.ok s.cursor.current, { s with cursor := s.cursor.advance })
      else (.error (FatalError.atToken (.token kind) s.cursor.current), s) := by
  simp only [expect, runFrom_bind, runFrom_currentKind]
  split <;> rfl

/-- A step that is attempted never fails: its failure is a result, and its changes stay. -/
@[simp] theorem runFrom_attempt (p : Parse α) :
    (attempt p).runFrom s = (.ok (p.runFrom s).1, (p.runFrom s).2) := rfl

@[simp] theorem runFrom_enterScope :
    enterScope.runFrom s =
      (.ok (), { s with
        symbols := s.symbols.enter
        log := s.log ++ [s.symbols.enterEvent] }) := rfl

@[simp] theorem runFrom_exitScope :
    exitScope.runFrom s =
      (.ok (), { s with
        symbols := s.symbols.exit
        log := s.log ++ [s.symbols.exitEvent] }) := rfl

/-- The table changes only where `SymbolTable.declare` accepts the symbol. -/
theorem runFrom_declare? (symbol : Symbol) :
    (declare? symbol).runFrom s =
      match s.symbols.declare symbol with
      | .ok symbols => (.ok none, { s with symbols := symbols })
      | .error existing => (.ok (some existing), s) := by
  show (match s.symbols.declare symbol with
    | .ok symbols => (do set { s with symbols := symbols }; return none : Parse _)
    | .error existing => return some existing).runFrom s = _
  split <;> rfl

/-- Only the first entry point is remembered. -/
theorem runFrom_defineEntryPoint? (line : Nat) :
    (defineEntryPoint? line).runFrom s =
      match s.entryPoint? with
      | some previous => (.ok (some previous), s)
      | none => (.ok none, { s with entryPoint? := some line }) := by
  show (match s.entryPoint? with
    | some previous => return some previous
    | none => (do set { s with entryPoint? := some line }; return none : Parse _)).runFrom s = _
  split <;> rfl

end Run

end Parse

end DrLang
