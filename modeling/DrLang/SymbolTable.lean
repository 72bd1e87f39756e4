import DrLang.Event

/-!
# The symbol table

A stack of scopes, each with the names bound in it, and a record of every declaration
ever made. Names are searched for from the innermost scope outwards, so an inner name
hides an outer one. Closing a scope forgets its names but not the record of them. The
outermost scope, the global one, is always open.

- `SymbolTable.declare`: binds a name in the innermost scope, once.
- `SymbolTable.lookup?`: the innermost binding of a name.
- `SymbolTable.enter`, `SymbolTable.exit`: open and close a scope.
-/

namespace DrLang

/-- A declared name. -/
structure Symbol where
  name : String
  type : DataType
  line : Nat
deriving DecidableEq, Repr, Inhabited

instance : ToString Symbol :=
  ⟨fun s => s.name ++ " : " ++ s.type.name ++ " (line " ++ toString s.line ++ ")"⟩

/-- The names bound in one scope, the latest first. -/
abbrev Frame := List Symbol

/-- The binding of a name in a scope. -/
def Frame.find? (frame : Frame) (name : String) : Option Symbol :=
  List.find? (fun symbol => symbol.name == name) frame

/-- The open scopes and the record of all declarations. -/
structure SymbolTable where
  innermost : Frame
  /-- The scopes around the innermost one, from the inside out. -/
  outer : List Frame
  /-- Every declaration made so far, in order. -/
  declared : List Symbol
deriving DecidableEq, Repr, Inhabited

namespace SymbolTable

/-- A table with nothing but the global scope. -/
def empty : SymbolTable where
  innermost := []
  outer := []
  declared := []

/-- All open scopes, from the inside out. -/
def frames (t : SymbolTable) : List Frame :=
  t.innermost :: t.outer

/-- The number of open scopes. -/
def depth (t : SymbolTable) : Nat :=
  t.outer.length + 1

/-- Opens a scope. -/
def enter (t : SymbolTable) : SymbolTable where
  innermost := []
  outer := t.innermost :: t.outer
  declared := t.declared

/-- Closes the innermost scope, unless it is the global one. -/
def exit (t : SymbolTable) : SymbolTable :=
  match t.outer with
  | [] => t
  | frame :: frames => ⟨frame, frames, t.declared⟩

/-- The event of opening a scope. -/
def enterEvent (t : SymbolTable) : Event :=
  .scopeEntered t.enter.depth

/-- The event of closing a scope, or of failing to. -/
def exitEvent (t : SymbolTable) : Event :=
  match t.outer with
  | [] => .globalScopeKept
  | _ :: _ => .scopeExited t.exit.depth

/-- The innermost binding of a name. -/
def lookup? (t : SymbolTable) (name : String) : Option Symbol :=
  t.frames.findSome? fun frame => frame.find? name

/-- Binds a symbol in the innermost scope and records it. A name that is bound there
already keeps its binding, which is the answer then. -/
def declare (t : SymbolTable) (symbol : Symbol) : Except Symbol SymbolTable :=
  match t.innermost.find? symbol.name with
  | some existing => .error existing
  | none => .ok ⟨symbol :: t.innermost, t.outer, t.declared ++ [symbol]⟩

/-! ### Depth and record -/

@[simp] theorem depth_enter (t : SymbolTable) : t.enter.depth = t.depth + 1 := rfl

@[simp] theorem declared_enter (t : SymbolTable) : t.enter.declared = t.declared := rfl

@[simp] theorem declared_exit (t : SymbolTable) : t.exit.declared = t.declared := by
  unfold exit; split <;> rfl

@[simp] theorem depth_exit (t : SymbolTable) : t.exit.depth = max 1 (t.depth - 1) := by
  unfold exit depth
  split
  case h_1 h => simp [h]
  case h_2 h => simp [h]

/-! ### Bindings -/

/-- A name that the innermost frame has not is bound there, and goes on record. -/
theorem declare_of_none {t : SymbolTable} {symbol : Symbol}
    (h : t.innermost.find? symbol.name = none) :
    t.declare symbol = .ok ⟨symbol :: t.innermost, t.outer, t.declared ++ [symbol]⟩ := by
  rw [declare, h]

/-- A name that the innermost frame has is not bound again. -/
theorem declare_of_some {t : SymbolTable} {symbol existing : Symbol}
    (h : t.innermost.find? symbol.name = some existing) :
    t.declare symbol = .error existing := by
  rw [declare, h]

/-- A declaration that succeeds binds its name and leaves all other names as they
were. -/
theorem lookup?_declare {t t' : SymbolTable} {symbol : Symbol}
    (h : t.declare symbol = .ok t') (name : String) :
    t'.lookup? name = if symbol.name = name then some symbol else t.lookup? name := by
  unfold declare at h
  split at h
  case h_1 => simp at h
  case h_2 =>
    obtain rfl := Except.ok.inj h
    by_cases hname : symbol.name = name
    · simp [lookup?, frames, Frame.find?, hname]
    · simp [lookup?, frames, Frame.find?, List.findSome?_cons, hname]

end SymbolTable

end DrLang
