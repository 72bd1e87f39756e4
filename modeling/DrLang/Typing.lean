import DrLang.Diagnostic.Semantic

/-!
# Typing rules

When a value may be stored, what an operator computes, and what may decide a
condition. All rules compare base types. What is already unknown passes through them
silently: it has been reported, or comes from a call, of which nothing is known.
-/

namespace DrLang.Typing

/-- Whether a value may be stored in a variable. Base types agree, or both are
numeric; storing a fraction in a whole-number variable is allowed. -/
def isAssignable (target source : DataType) : Bool :=
  source.isUnknown || target.base == source.base || (target.isNumeric && source.isNumeric)

/-- The type of an arithmetic operation. Numbers give whole numbers unless one of them
is not, and texts can be joined with a plus. -/
def arithmetic (left : DataType) (operator : String) (right : DataType) :
    Except SemanticCause DataType :=
  if left.isUnknown || right.isUnknown then .ok .unknown
  else if left.isNumeric && right.isNumeric then
    .ok (if left.base == .double || right.base == .double then .double else .int)
  else if operator == "+" && left.base == .string && right.base == .string then .ok .string
  else .error (.arithmeticOperands left operator right)

/-- The type of a comparison: values of one base type, or two numbers, compare. -/
def relational (left : DataType) (operator : String) (right : DataType) :
    Except SemanticCause DataType :=
  if left.isUnknown || right.isUnknown then .ok .unknown
  else if left.base == right.base || (left.isNumeric && right.isNumeric) then .ok .bool
  else .error (.relationalOperands left operator right)

/-- Whether a type may decide the condition of a construct. -/
def condition (construct : String) (type : DataType) : Except SemanticCause Unit :=
  if type.isUnknown || type.isBooleanLike then .ok ()
  else .error (.nonBooleanCondition construct type)

/-! ### The unknown type is never reported -/

@[simp] theorem isAssignable_unknown (target : DataType) :
    isAssignable target .unknown = true := rfl

@[simp] theorem arithmetic_unknown_left (operator : String) (right : DataType) :
    arithmetic .unknown operator right = .ok .unknown := rfl

@[simp] theorem arithmetic_unknown_right (left : DataType) (operator : String) :
    arithmetic left operator .unknown = .ok .unknown := by
  simp [arithmetic, DataType.isUnknown]

@[simp] theorem relational_unknown_left (operator : String) (right : DataType) :
    relational .unknown operator right = .ok .unknown := rfl

@[simp] theorem relational_unknown_right (left : DataType) (operator : String) :
    relational left operator .unknown = .ok .unknown := by
  simp [relational, DataType.isUnknown]

@[simp] theorem condition_unknown (construct : String) : condition construct .unknown = .ok () :=
  rfl

end DrLang.Typing
