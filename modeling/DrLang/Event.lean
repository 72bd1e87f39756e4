import DrLang.Diagnostic.Semantic

/-!
# Events of a compilation

What a compilation reports about its progress, each event with a level and a message.
-/

namespace DrLang

/-- How much attention an event deserves. -/
inductive LogLevel where
  | trace
  | debug
  | warn
deriving DecidableEq, Repr, Inhabited

/-- The name of a level. -/
def LogLevel.name : LogLevel → String
  | trace => "TRACE"
  | debug => "DEBUG"
  | warn => "WARN"

/-- One step of a compilation. -/
inductive Event where
  | tokenRead (token : Token)
  /-- The whole source was read, as this many tokens. -/
  | tokenized (count : Nat)
  /-- A scope was opened; `depth` scopes are open now. -/
  | scopeEntered (depth : Nat)
  /-- A scope was closed; `depth` scopes are open still. -/
  | scopeExited (depth : Nat)
  /-- The global scope was to be closed, but stays open. -/
  | globalScopeKept
  | reported (error : SemanticError)
  /-- The whole program was parsed. -/
  | parsed (statements errors : Nat)
deriving DecidableEq, Repr, Inhabited

namespace Event

/-- The level of an event. -/
def level : Event → LogLevel
  | tokenRead _ => .trace
  | globalScopeKept => .warn
  | _ => .debug

/-- The wording of an event. -/
def message : Event → String
  | tokenRead token => "token " ++ toString token
  | tokenized count => "tokenized " ++ toString count ++ " tokens"
  | scopeEntered depth => "entered scope (depth " ++ toString depth ++ ")"
  | scopeExited depth => "exited scope (depth " ++ toString depth ++ ")"
  | globalScopeKept => "attempted to exit the global scope"
  | reported error => toString error
  | parsed statements errors =>
    "parsed " ++ toString statements ++ " top-level statements, " ++ toString errors ++
      " semantic errors"

instance : ToString Event := ⟨fun e => e.level.name ++ " " ++ e.message⟩

end Event

end DrLang
