import DrLang.Token

/-!
# Which token leads to which rule

The grammar is driven by tables: the rule for a statement or an operand is found by
its first token, and an operator goes on with an expression only where it binds more
tightly than its surroundings. The rules themselves do not know the tables, so other
tables give other languages of the same constructs.

- `Rules`: the three tables.
- `Rules.standard`: those of DR.
-/

namespace DrLang

/-- How tightly an operator binds. -/
inductive BindingPower where
  /-- Less tightly than every operator. -/
  | default
  | additive
  | multiplicative
deriving DecidableEq, Repr, Inhabited

namespace BindingPower

/-- The place of a power among the others. -/
def rank : BindingPower → Nat
  | default => 0
  | additive => 1
  | multiplicative => 2

instance : LT BindingPower := ⟨fun p q => p.rank < q.rank⟩

instance (p q : BindingPower) : Decidable (p < q) :=
  inferInstanceAs (Decidable (p.rank < q.rank))

/-- The name of a power. -/
def name : BindingPower → String
  | default => "Default"
  | additive => "Additive"
  | multiplicative => "Multiplicative"

end BindingPower

/-- The rules that an operand may follow. -/
inductive OperandRule where
  /-- An expression or a comparison. It begins with an operand of its own, so a token
  bound to this rule begins no operand: the search would not end. -/
  | condition
  | literal
  /-- A name, or a call if the name is followed by a parenthesis. -/
  | name
  | grouping
deriving DecidableEq, Repr, Inhabited

/-- The rules that a statement may follow. -/
inductive StatementRule where
  /-- The rule found in the table once more. A token bound to this rule begins no
  statement, since the search would not end. -/
  | statement
  | declaration
  /-- An assignment, a step or a call, closed by a semicolon. -/
  | simple
  | check
  | rework
  | checklist
  | output
  | submit
  | block
  | attach
  | plan
  /-- A call without a semicolon. -/
  | call
deriving DecidableEq, Repr, Inhabited

/-- The tables that drive the grammar. -/
structure Rules where
  statement? : TokenKind → Option StatementRule
  operand? : TokenKind → Option OperandRule
  /-- The power of the tokens that are operators. -/
  operator? : TokenKind → Option BindingPower

namespace Rules

/-- Tables without entries. -/
def empty : Rules where
  statement? _ := none
  operand? _ := none
  operator? _ := none

/-- The tables of DR. -/
def standard : Rules where
  statement?
    | .file | .duration | .note | .status => some .declaration
    | .identifier => some .simple
    | .check => some .check
    | .rework => some .rework
    | .checklist => some .checklist
    | .output => some .output
    | .submit => some .submit
    | .openCurly => some .block
    | .attach => some .attach
    | .plan => some .plan
    | _ => none
  operand?
    | .integer | .double | .string | .boolean => some .literal
    | .identifier => some .name
    | .openParen => some .grouping
    | _ => none
  operator?
    | .plus | .dash => some .additive
    | .star | .slash => some .multiplicative
    | _ => none

/-- The tables with a rule for the statements that begin with `kind`. -/
def setStatement (rules : Rules) (kind : TokenKind) (rule : StatementRule) : Rules :=
  { rules with statement? := fun k => if k = kind then some rule else rules.statement? k }

/-- The tables with a rule for the operands that begin with `kind`. -/
def setOperand (rules : Rules) (kind : TokenKind) (rule : OperandRule) : Rules :=
  { rules with operand? := fun k => if k = kind then some rule else rules.operand? k }

/-- The tables with the power of the operator `kind`. -/
def setOperator (rules : Rules) (kind : TokenKind) (power : BindingPower) : Rules :=
  { rules with operator? := fun k => if k = kind then some power else rules.operator? k }

/-- The tables with all entries of `top` put over their own. -/
def overlay (rules top : Rules) : Rules where
  statement? k := (top.statement? k).or (rules.statement? k)
  operand? k := (top.operand? k).or (rules.operand? k)
  operator? k := (top.operator? k).or (rules.operator? k)

end Rules

end DrLang
