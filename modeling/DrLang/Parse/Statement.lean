import DrLang.Parse.Expression

/-!
# Statements

A statement is found by its first token. Statements contain other statements only
inside blocks, so the rules take the parser of a block, `body`, as an argument, and the
recursion is tied once, in `Parse.blockWithin`: a block takes its opening brace before
it turns to the blocks inside it.

A block opens a scope. So does the entry point, around its block, and the header of a
`CHECKLIST`, around the header and the block.

- `Parse.declaration`, `Parse.simple`, `Parse.check`, ...: a rule each.
- `Parse.statements`: statements up to the end of the input or of a block.
- `Parse.block`: statements in braces.
- `Parse.statement`: one statement, by the rule for its first token.
-/

namespace DrLang

/-- The statements that were parsed, and the failure that ended them, if one did. -/
structure Statements where
  nodes : List Node
  failure? : Option FatalError
deriving Repr, Inhabited

namespace Parse

section Rules

variable (rules : Rules)

/-! ### Variables -/

/-- Takes the current token if it is of class `kind`. -/
def skip (kind : TokenKind) : Parse Unit := do
  if (← currentKind) = kind then discard advance
  else return ()

/-- Binds a symbol. A name that is bound in the same scope already keeps its binding,
and the second one is reported. -/
def bindName (symbol : Symbol) : Parse Unit := do
  match ← declare? symbol with
  | none => return ()
  | some previous => report symbol.line (.redeclaration symbol.name previous.line)

/-- Reports a value that does not suit the variable `name`, on the line of the name. -/
def checkStore (site : StoreSite) (name : Token) (target source : DataType) : Parse Unit := do
  if Typing.isAssignable target source then return ()
  else report name.line (.typeMismatch site name.value target source)

/-- The value of a variable: an equals sign, perhaps with a dollar sign before it, and an
expression. -/
def storedValue : Parse Typed := do
  skip .dollar
  let _ ← expect .assignment
  expression rules .default

/-- The initial value of a declared variable, if there is one. -/
def initializer (name : Token) (type : DataType) : Parse (List Node) := do
  match ← currentKind with
  | .dollar | .assignment =>
    let value ← storedValue rules
    checkStore .initialization name type value.type
    return [value.node]
  | _ => return []

/-- A declaration: a type, a name, perhaps an initial value, and a semicolon. The name
is bound before the value is looked at, so the value may mention it. -/
def declaration : Parse Node := do
  let keyword ← advance
  match DataType.ofKeyword? keyword.kind with
  | none => throw (FatalError.atToken .declaration keyword)
  | some type =>
    let name ← expect .identifier
    bindName ⟨name.value, type, name.line⟩
    let value ← initializer rules name type
    let _ ← expect .semicolon
    return .group "Declaration" name.line (.leaf name.value name.line type :: value)

/-- Checks what is stored in a variable whose type is known. -/
def checkStore? (site : StoreSite) (name : Token) (target? : Option DataType)
    (source : DataType) : Parse Unit :=
  match target? with
  | none => return ()
  | some target => checkStore site name target source

/-- An assignment, from the name that it assigns to. -/
def assignment (site : StoreSite) : Parse Node := do
  let target ← advance
  let type? ← boundType? target.value target.line
  let value ← storedValue rules
  checkStore? site target type? value.type
  return .group "Assignment" target.line
    [.leaf target.value target.line (type?.getD .unknown), value.node]

/-- An increment or a decrement, from the name that it steps. -/
def step : Parse Node := do
  let target ← advance
  let type ← resolve target.value target.line
  let operator ← advance
  let label := if operator.kind = .plusPlus then "Increment" else "Decrement"
  return .group label target.line [.leaf target.value target.line type]

/-- A statement that begins with a name, without what closes it. The token after the
name tells which it is. -/
def simple (site : StoreSite) : Parse Node := do
  if (← currentKind) = .identifier then
    match ← peekKind with
    | .openParen => call rules
    | .dollar | .assignment => assignment rules site
    | .plusPlus | .minusMinus => step
    | _ =>
      let _ ← advance
      unexpected .assignmentOrCall
  else
    unexpected (.token .identifier)

/-- A statement that begins with a name, and its semicolon. -/
def simpleStatement : Parse Node := do
  let node ← simple rules .assignment
  let _ ← expect .semicolon
  return node

/-! ### Output, result and attachment -/

/-- A keyword, an expression and a semicolon. -/
def keywordExpression (label : String) : Parse Node := do
  let keyword ← advance
  let value ← expression rules .default
  let _ ← expect .semicolon
  return .group label keyword.line [value.node]

/-- An output. -/
def output : Parse Node :=
  keywordExpression rules "OUTPUT"

/-- A result. -/
def submit : Parse Node :=
  keywordExpression rules "RETURN"

/-- An attached name. What it names is not opened. -/
def attach : Parse Node := do
  let keyword ← advance
  let target ← expect .identifier
  return .group "Include" keyword.line
    [.leaf ("#ATTACH " ++ target.value) target.line .attachment]

/-! ### Control -/

/-- Reports the violation of a rule, if there is one. -/
def reportViolation (line : Nat) (result : Except SemanticCause Unit) : Parse Unit :=
  match result with
  | .ok () => return ()
  | .error cause => report line cause

/-- The condition of a construct. What cannot decide is reported on its line. -/
def gate (keyword : Token) : Parse Node := do
  let e ← condition rules
  reportViolation e.node.line (Typing.condition keyword.value e.type)
  return e.node

variable (body : Parse Node)

/-- A branch, perhaps with an alternative. -/
def checkOf : Parse Node := do
  let keyword ← advance
  let _ ← expect .openParen
  let decision ← gate rules keyword
  let _ ← expect .closeParen
  let block ← body
  if (← currentKind) = .reject then
    let _ ← advance
    let alternative ← body
    return .group "IF" keyword.line [decision, block, alternative]
  else
    return .group "IF" keyword.line [decision, block]

/-- A loop under a condition. -/
def reworkOf : Parse Node := do
  let keyword ← advance
  let _ ← expect .openParen
  let decision ← gate rules keyword
  let _ ← expect .closeParen
  let block ← body
  return .group "WHILE" keyword.line [decision, block]

/-- A loop with a variable of its own, a condition and an update. -/
def checklistOf : Parse Node := do
  let keyword ← advance
  let _ ← expect .openParen
  enterScope
  if (← currentKind).isTypeKeyword then
    let counter ← declaration rules
    let decision ← gate rules keyword
    let _ ← expect .semicolon
    let update ← simple rules .update
    let _ ← expect .closeParen
    let block ← body
    exitScope
    return .group "FOR" keyword.line [counter, decision, update, block]
  else
    unexpected .declaration

/-- Notes the entry point. If there is one already, the second one is reported. -/
def noteEntryPoint (line : Nat) : Parse Unit := do
  match ← defineEntryPoint? line with
  | none => return ()
  | some previous => report line (.entryPointRedefined previous)

/-- The entry point of the program. A second one is parsed all the same. -/
def planOf : Parse Node := do
  let keyword ← advance
  let _ ← expect .morningCoffee
  let _ ← expect .openParen
  let _ ← expect .closeParen
  noteEntryPoint keyword.line
  enterScope
  let block ← body
  exitScope
  return .group "PlanMain" keyword.line [block]

/-! ### Lists and blocks -/

/-- One statement, by the rule for the current token. -/
def statementOf : Parse Node := do
  match rules.statement? (← currentKind) with
  | none | some .statement => unexpected .statement
  | some .declaration => declaration rules
  | some .simple => simpleStatement rules
  | some .check => checkOf rules body
  | some .rework => reworkOf rules body
  | some .checklist => checklistOf rules body
  | some .output => output rules
  | some .submit => submit rules
  | some .block => body
  | some .attach => attach
  | some .plan => planOf body
  | some .call => call rules

/-- Statements up to the end of the input or of a block, at most `bound`. -/
def statementsWithin : Nat → Parse Statements
  | 0 => return ⟨[], none⟩
  | bound + 1 => do
    let kind ← currentKind
    if kind = .eof ∨ kind = .closeCurly then return ⟨[], none⟩
    else
      match ← attempt (statementOf rules body) with
      | .error e => return ⟨[], some e⟩
      | .ok node =>
        let others ← statementsWithin bound
        return ⟨node :: others.nodes, others.failure?⟩

/-- Statements up to the end of the input or of a block, as far as they can be
parsed. -/
def statementsOf : Parse Statements := do
  statementsWithin rules body ((← remaining) + 1)

/-- All statements up to the end of the input or of a block. -/
def allStatementsOf : Parse (List Node) := do
  let list ← statementsOf rules body
  match list.failure? with
  | none => return list.nodes
  | some e => throw e

/-- Statements in braces, in a scope of their own. -/
def blockOf : Parse Node := do
  let opening ← expect .openCurly
  enterScope
  let nodes ← allStatementsOf rules body
  let _ ← expect .closeCurly
  exitScope
  return .group "Block" opening.line nodes

end Rules

/-! ### The recursion -/

variable (rules : Rules)

/-- A block of at most `bound` levels. Where no level is left, nothing is accepted; with
more levels than tokens that place is not reached. -/
def blockWithin : Nat → Parse Node
  | 0 => unexpected (.token .openCurly)
  | bound + 1 => blockOf rules (blockWithin bound)

/-- Statements in braces. -/
def block : Parse Node := do
  blockWithin rules ((← remaining) + 1)

/-- One statement. -/
def statement : Parse Node :=
  statementOf rules (block rules)

/-- Statements as far as they can be parsed. -/
def statements : Parse Statements :=
  statementsOf rules (block rules)

/-- A branch. -/
def check : Parse Node :=
  checkOf rules (block rules)

/-- A loop under a condition. -/
def rework : Parse Node :=
  reworkOf rules (block rules)

/-- A loop with a variable of its own. -/
def checklist : Parse Node :=
  checklistOf rules (block rules)

/-- The entry point. -/
def plan : Parse Node :=
  planOf (block rules)

/-! ### Lists that must not fail

The failure of a statement is caught by the list around it and raised again when all of
the list is asked for. The two together are the plain recursion. -/

section Rules

variable (body : Parse Node)

/-- All statements up to the end of the input or of a block, at most `bound`. -/
def allStatementsWithin (bound : Nat) : Parse (List Node) := do
  let list ← statementsWithin rules body bound
  match list.failure? with
  | none => return list.nodes
  | some e => throw e

/-- `allStatementsOf` is `allStatementsWithin`, with a bound that is taken from the state: proofs
about it are by induction on that bound. -/
theorem runFrom_allStatementsOf (s : Parser) :
    (allStatementsOf rules body).runFrom s =
      (allStatementsWithin rules body (s.cursor.remaining + 1)).runFrom s := by
  simp only [allStatementsOf, statementsOf, allStatementsWithin, runFrom_bind, runFrom_remaining]

/-- One statement and all others. Where a statement fails, `statementsWithin` ends the list with
its failure, and `allStatementsWithin` throws that from the same state; so the detour over
`Statements` can be left out. -/
theorem runFrom_allStatementsWithin_succ (bound : Nat) (s : Parser) :
    (allStatementsWithin rules body (bound + 1)).runFrom s =
      if s.cursor.current.kind = .eof ∨ s.cursor.current.kind = .closeCurly then (.ok [], s)
      else (do
        let node ← statementOf rules body
        let others ← allStatementsWithin rules body bound
        return node :: others : Parse (List Node)).runFrom s := by
  simp only [allStatementsWithin, statementsWithin, runFrom_bind, runFrom_currentKind]
  by_cases h : s.cursor.current.kind = .eof ∨ s.cursor.current.kind = .closeCurly
  · simp only [if_pos h, runFrom_pure]
  · simp only [if_neg h, runFrom_bind, runFrom_attempt]
    rcases (statementOf rules body).runFrom s with ⟨_ | node, s'⟩
    · rfl
    · simp only [runFrom_bind]
      -- The rest of the list never fails by itself: its failure is in its result.
      rcases (statementsWithin rules body bound).runFrom s' with ⟨_ | ⟨nodes, failure?⟩, s''⟩
      · rfl
      · cases failure? <;> rfl

end Rules

end Parse

end DrLang
