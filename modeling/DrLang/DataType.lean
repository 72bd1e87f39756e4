import DrLang.Token

/-!
# Data types

A DR variable is declared with one of four types, and each of them stands for a
base type, which is what the rules in `DrLang.Typing` compare. The other tags mark
what carries no value, and what could not be typed.
-/

namespace DrLang

/-- The type tag of a tree node or a symbol. -/
inductive DataType where
  | file
  | duration
  | note
  | status
  | int
  | double
  | string
  | bool
  /-- The mark of an attached name. -/
  | attachment
  /-- Statements and operators, which have no value. -/
  | void
  /-- The value of a call, and of an expression that was reported. -/
  | unknown
deriving DecidableEq, Repr, Inhabited

namespace DataType

/-- The name a type is shown under. -/
def name : DataType → String
  | file => "file"
  | duration => "duration"
  | note => "note"
  | status => "status"
  | int => "int"
  | double => "double"
  | string => "string"
  | bool => "bool"
  | attachment => "include"
  | void => "void"
  | unknown => "unknown"

instance : ToString DataType := ⟨name⟩

/-- All types, each once. -/
def all : List DataType :=
  [file, duration, note, status, int, double, string, bool, attachment, void, unknown]

theorem mem_all (t : DataType) : t ∈ all := by cases t <;> decide

/-- The type shown under `text`, if there is one. -/
def ofName? (text : String) : Option DataType :=
  all.find? fun t => t.name == text

/-- Names are read back: no two types are shown under one name. -/
@[simp] theorem ofName?_name (t : DataType) : ofName? t.name = some t := by
  cases t <;> decide

/-- The type that a type keyword declares. -/
def ofKeyword? : TokenKind → Option DataType
  | .file => some file
  | .duration => some duration
  | .note => some note
  | .status => some status
  | _ => none

/-- Exactly the type keywords declare a type. -/
@[simp] theorem isSome_ofKeyword? (k : TokenKind) :
    (ofKeyword? k).isSome = k.isTypeKeyword := by cases k <;> rfl

/-! ### Base types -/

/-- The base type that a declared type stands for; all other types stand for
themselves. -/
def base : DataType → DataType
  | file => int
  | duration => double
  | note => string
  | status => bool
  | t => t

/-- Whether values of a type are numbers. -/
def isNumeric (t : DataType) : Bool :=
  t.base == int || t.base == double

/-- Whether values of a type may decide a condition: truth values, and whole
numbers, which count as true or false. -/
def isBooleanLike (t : DataType) : Bool :=
  t.base == bool || t.base == int

/-- Whether a type is the fallback of something already reported or unknowable. -/
def isUnknown (t : DataType) : Bool :=
  t == unknown

@[simp] theorem isUnknown_eq_true_iff (t : DataType) : t.isUnknown = true ↔ t = unknown := by
  cases t <;> decide

end DataType

end DrLang
