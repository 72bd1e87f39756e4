import DrLang.DataType

/-!
# Semantic errors

Violations of the naming and typing rules. They are collected in the order in which
they are met, and never stop a compilation.
-/

namespace DrLang

/-- The statement form in which a value meets a variable. -/
inductive StoreSite where
  | initialization
  | assignment
  /-- The last clause of a `CHECKLIST` header. -/
  | update
deriving DecidableEq, Repr, Inhabited

/-- The wording of a store site. -/
def StoreSite.text : StoreSite → String
  | initialization => "initialization"
  | assignment => "assignment"
  | update => "update"

instance : ToString StoreSite := ⟨StoreSite.text⟩

/-- The rule that was broken, and by what. -/
inductive SemanticCause where
  /-- The name is already bound in the same scope. -/
  | redeclaration (name : String) (previousLine : Nat)
  /-- The name is bound in no open scope. -/
  | undeclared (name : String)
  /-- The value cannot be stored in the variable. -/
  | typeMismatch (site : StoreSite) (name : String) (expected found : DataType)
  /-- The condition of a construct is neither true nor false. -/
  | nonBooleanCondition (construct : String) (found : DataType)
  /-- The operator computes nothing from these operands. -/
  | arithmeticOperands (left : DataType) (operator : String) (right : DataType)
  /-- The operator does not compare these operands. -/
  | relationalOperands (left : DataType) (operator : String) (right : DataType)
  /-- The program has an entry point already. -/
  | entryPointRedefined (previousLine : Nat)
deriving DecidableEq, Repr, Inhabited

/-- The wording of a broken rule. -/
def SemanticCause.message : SemanticCause → String
  | redeclaration name previousLine =>
    "redeclaration of '" ++ name ++ "'; previously declared at line " ++ toString previousLine
  | undeclared name => "undefined identifier '" ++ name ++ "'"
  | typeMismatch site name expected found =>
    "type mismatch in " ++ site.text ++ " of '" ++ name ++ "': cannot assign '" ++
      found.name ++ "' to '" ++ expected.name ++ "'"
  | nonBooleanCondition construct found =>
    construct ++ " condition should be boolean but found '" ++ found.name ++ "'"
  | arithmeticOperands left operator right =>
    "invalid operands for arithmetic '" ++ left.name ++ "' " ++ operator ++
      " '" ++ right.name ++ "'"
  | relationalOperands left operator right =>
    "invalid operands for relational '" ++ left.name ++ "' " ++ operator ++
      " '" ++ right.name ++ "'"
  | entryPointRedefined previousLine =>
    "entry point already defined at line " ++ toString previousLine

/-- A broken rule and the line it is reported at. -/
structure SemanticError where
  line : Nat
  cause : SemanticCause
deriving DecidableEq, Repr, Inhabited

namespace SemanticError

/-- The wording of an error, without its line. -/
def message (e : SemanticError) : String :=
  e.cause.message

instance : ToString SemanticError :=
  ⟨fun e => "Semantic Error (line " ++ toString e.line ++ "): " ++ e.message⟩

end SemanticError

end DrLang
