import DrLang.Parse.State
import DrLang.Parse.Rules
import DrLang.Node
import DrLang.Typing

/-!
# Expressions

An expression is an operand, followed by operators with their right operands as long
as these bind more tightly than what stands to the left. Its type is found on the way.

Each rule takes the parser of the expressions inside it as an argument, `inner`, so
that a property of a rule can be stated without the recursion. The recursion itself
is tied once, in `Parse.expressionWithin`: every rule for an operand, conditions aside,
takes a token before it turns to an inner expression, so the number of tokens left
bounds the nesting.

- `Parse.literal`, `Parse.nameOrCall`, `Parse.grouping`: the operands.
- `Parse.operatorsWithin`: the operators after an operand.
- `Parse.expression`: a whole expression.
- `Parse.condition`: an expression, or a comparison of two.
-/

namespace DrLang

/-- An expression with its type. -/
structure Typed where
  node : Node
  type : DataType
deriving BEq, Repr, Inhabited

/-- The class of literal that a token is, as a type. -/
def DataType.ofLiteral? : TokenKind → Option DataType
  | .integer => some int
  | .double => some double
  | .string => some string
  | .boolean => some bool
  | _ => none

/-- The label of a literal: its text, a text literal in its quotes. -/
def literalLabel (token : Token) : String :=
  if token.kind = .string then "\"" ++ token.value ++ "\"" else token.value

namespace Parse

/-! ### Operands -/

/-- A literal. -/
def literal : Parse Typed := do
  match DataType.ofLiteral? (← currentKind) with
  | none => unexpected .expression
  | some type =>
    let token ← advance
    return ⟨.leaf (literalLabel token) token.line type, type⟩

/-- The type of a name that is used on line `line`, if it is bound in an open scope. If
it is not, that is reported. -/
def boundType? (name : String) (line : Nat) : Parse (Option DataType) := do
  match ← lookup? name with
  | some symbol => return some symbol.type
  | none =>
    report line (.undeclared name)
    return none

/-- The type of a name that is used on line `line`, unknown if the name is not bound. -/
def resolve (name : String) (line : Nat) : Parse DataType := do
  return (← boundType? name line).getD .unknown

/-- The type that a rule gives. A violation is reported on line `line`, and leaves the
type unknown. -/
def typeOrReport (line : Nat) (result : Except SemanticCause DataType) : Parse DataType := do
  match result with
  | .ok type => return type
  | .error cause =>
    report line cause
    return .unknown

section Rules

variable (inner : BindingPower → Parse Typed)

/-- One or more arguments with commas between them, at most `bound`. -/
def argumentsWithin : Nat → Parse (List Node)
  | 0 => return []
  | bound + 1 => do
    let argument ← inner .default
    if (← currentKind) = .comma then
      let _ ← advance
      return argument.node :: (← argumentsWithin bound)
    else
      return [argument.node]

/-- The arguments of a call, up to the closing parenthesis. -/
def arguments : Parse (List Node) := do
  if (← currentKind) = .closeParen then return []
  else argumentsWithin inner ((← remaining) + 1)

/-- A call: a name and its arguments in parentheses. -/
def callOf : Parse Node := do
  let callee ← expect .identifier
  let _ ← resolve callee.value callee.line
  let _ ← expect .openParen
  let nodes ← arguments inner
  let _ ← expect .closeParen
  return ⟨"Call " ++ callee.value, .unknown, callee.line, nodes⟩

/-- A name or a call. Of the value of a call nothing is known. -/
def nameOrCall : Parse Typed := do
  if (← peekKind) = .openParen then
    return ⟨← callOf inner, .unknown⟩
  else
    let token ← expect .identifier
    let type ← resolve token.value token.line
    return ⟨.leaf token.value token.line type, type⟩

/-- An expression in parentheses. -/
def grouping : Parse Typed := do
  let _ ← expect .openParen
  let e ← inner .default
  let _ ← expect .closeParen
  return ⟨⟨"Paren", e.type, e.node.line, [e.node]⟩, e.type⟩

/-- An expression, or two with a comparison between them. -/
def conditionOf : Parse Typed := do
  let left ← inner .default
  if (← currentKind).isRelational then
    let operator ← advance
    let right ← inner .default
    let type ← typeOrReport operator.line (Typing.relational left.type operator.value right.type)
    return ⟨⟨"Condition", type, left.node.line,
      [left.node, .leaf operator.value operator.line .void, right.node]⟩, type⟩
  else
    return ⟨⟨"Condition", left.type, left.node.line, [left.node]⟩, left.type⟩

/-- An operator and its right operand, joined to a left operand. -/
def binaryOf (left : Typed) (power : BindingPower) : Parse Typed := do
  let operator ← advance
  let right ← inner power
  let type ← typeOrReport operator.line (Typing.arithmetic left.type operator.value right.type)
  return ⟨⟨"BinaryExpr", type, operator.line,
    [left.node, .leaf operator.value operator.line .void, right.node]⟩, type⟩

variable (rules : Rules)

/-- An operand, by the rule for the current token. -/
def operand : Parse Typed := do
  match rules.operand? (← currentKind) with
  | none => unexpected .expression
  | some .condition => conditionOf inner
  | some .literal => literal
  | some .name => nameOrCall inner
  | some .grouping => grouping inner

/-- The operators after a left operand that bind more tightly than `power`, at most
`bound`, each joined with its right operand to all that stands to its left. -/
def operatorsWithin (power : BindingPower) : Nat → Typed → Parse Typed
  | 0, left => return left
  | bound + 1, left => do
    match rules.operator? (← currentKind) with
    | none => return left
    | some own =>
      if power < own then operatorsWithin power bound (← binaryOf inner left own)
      else return left

/-- An operand with the operators after it that bind more tightly than `power`. -/
def expressionOf (power : BindingPower) : Parse Typed := do
  let left ← operand inner rules
  operatorsWithin inner rules power ((← remaining) + 1) left

end Rules

/-! ### Whole expressions -/

variable (rules : Rules)

/-- An expression of at most `bound` levels. Where no level is left, nothing is accepted;
with more levels than tokens that place is not reached. -/
def expressionWithin : Nat → BindingPower → Parse Typed
  | 0, _ => unexpected .expression
  | bound + 1, power => expressionOf (expressionWithin bound) rules power

/-- An expression whose operators bind more tightly than `power`. -/
def expression (power : BindingPower) : Parse Typed := do
  expressionWithin rules ((← remaining) + 1) power

/-- The condition of a statement. -/
def condition : Parse Typed :=
  conditionOf (expression rules)

/-- A call as a statement, without what closes it. -/
def call : Parse Node :=
  callOf (expression rules)

/-- An operator and its right operand, joined to a left operand. -/
def binary (left : Typed) (power : BindingPower) : Parse Typed :=
  binaryOf (expression rules) left power

end Parse

end DrLang
