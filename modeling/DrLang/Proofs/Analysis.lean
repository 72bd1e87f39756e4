import DrLang.Node
import DrLang.SymbolTable
import DrLang.Typing

/-!
# Analysis apart from parsing

What a program means for its names and types can be found from its tree alone. The tree
is taken without its types, apart from those that declarations give to their names, and
walked once in document order. The walk hands its scope down and never changes one: what
a block binds is in the scope that its statements are walked in, and in no other.

- `Outline`: a tree without its types, `Node.outline` the one of an annotated tree.
- `Scope`: the names in sight at a point, and those of its innermost frame.
- `arithmeticType?`, `comparisonType?`, `maySet`, `mayDecide`: the typing rules as tables.
- `Analysis.expression`, `Analysis.statement`: the walk.
- `analyse`: the walk of a whole program.
-/

namespace DrLang

/-! ### Trees without types -/

/-- A tree of labels and lines. -/
structure Outline where
  label : String
  /-- The type that a declaration gives to the name, at that name only. -/
  declared? : Option DataType
  line : Nat
  children : List Outline
deriving Repr, Inhabited

mutual

/-- A tree without its types, but with a declared type at its root. -/
def Node.outlineAs (declared? : Option DataType) : Node → Outline
  | ⟨label, _, line, children⟩ =>
    ⟨label, declared?, line, Node.outlines (label == "Declaration") children⟩

/-- Trees without their types. Where they are the parts of a declaration, the first one is
the name that it declares. -/
def Node.outlines (declares : Bool) : List Node → List Outline
  | [] => []
  | n :: ns => n.outlineAs (if declares then some n.type else none) :: Node.outlines false ns

end

/-- A tree with every type erased, except those of declared names. -/
def Node.outline (n : Node) : Outline :=
  n.outlineAs none

namespace Node

@[simp] theorem outline_leaf (label : String) (line : Nat) (type : DataType) :
    (leaf label line type).outline = ⟨label, none, line, []⟩ := rfl

/-- Trees that are not the parts of a declaration are outlined one by one. -/
theorem outlines_false (ns : List Node) : outlines false ns = ns.map outline := by
  induction ns with
  | nil => rfl
  | cons n ns ih => rw [outlines, ih]; rfl

/-- The outline of any node but a declaration: its type is gone, and `outline` is taken of its
children. -/
theorem outline_mk {label : String} (h : label ≠ "Declaration") (type : DataType) (line : Nat)
    (children : List Node) :
    (Node.mk label type line children).outline = ⟨label, none, line, children.map outline⟩ := by
  rw [outline, outlineAs, beq_false_of_ne h, outlines_false]

/-- The outline of a declaration keeps one type, that of the name in front, which the walk could
not find otherwise: `outlineAs`. -/
theorem outline_declaration (type : DataType) (line : Nat) (name : Node) (values : List Node) :
    (Node.mk "Declaration" type line (name :: values)).outline =
      ⟨"Declaration", none, line, name.outlineAs (some name.type) :: values.map outline⟩ := by
  rw [outline, outlineAs, outlines.eq_def, ← outlines_false]
  rfl

end Node

/-! ### Scopes -/

/-- What each name stands for at a point of a program. -/
structure Scope where
  /-- The binding of each name that is in sight. -/
  visible : String → Option Symbol
  /-- The binding of each name that the innermost frame has. -/
  own : String → Option Symbol

namespace Scope

/-- The scope of a program before its first statement. -/
def empty : Scope where
  visible _ := none
  own _ := none

/-- The scope inside a new frame. -/
def frame (σ : Scope) : Scope where
  visible := σ.visible
  own _ := none

/-- The scope with one name more. -/
def bind (σ : Scope) (symbol : Symbol) : Scope where
  visible name := if symbol.name = name then some symbol else σ.visible name
  own name := if symbol.name = name then some symbol else σ.own name

/-- The type of a name, unknown where it stands for nothing. -/
def typeOf (σ : Scope) (name : String) : DataType :=
  ((σ.visible name).map Symbol.type).getD .unknown

/-- The error of a name that stands for nothing. -/
def undeclared (σ : Scope) (name : String) (line : Nat) : List SemanticError :=
  if (σ.visible name).isSome then [] else [⟨line, .undeclared name⟩]

end Scope

/-! ### Typing rules -/

/-- The type of a sum, a difference, a product or a quotient. -/
def arithmeticType? (operator : String) (left right : DataType) : Option DataType :=
  match left.base, right.base with
  | .unknown, _ | _, .unknown => some .unknown
  | .int, .int => some .int
  | .int, .double | .double, .int | .double, .double => some .double
  | .string, .string => if operator = "+" then some .string else none
  | _, _ => none

/-- The type of a comparison. -/
def comparisonType? (left right : DataType) : Option DataType :=
  match left.base, right.base with
  | .unknown, _ | _, .unknown => some .unknown
  | .int, .double | .double, .int => some .bool
  | l, r => if l = r then some .bool else none

/-- Whether a variable of one type can be set to a value of another one. -/
def maySet (target source : DataType) : Bool :=
  match target.base, source.base with
  | _, .unknown | .int, .double | .double, .int => true
  | t, s => t = s

/-- Whether a value of a type decides a condition. -/
def mayDecide (type : DataType) : Bool :=
  match type.base with
  | .unknown | .bool | .int => true
  | _ => false

/-- The tables and the rules that a parse goes by say the same. -/
theorem arithmetic_eq (left right : DataType) (operator : String) :
    Typing.arithmetic left operator right =
      match arithmeticType? operator left right with
      | some type => .ok type
      | none => .error (.arithmeticOperands left operator right) := by
  by_cases h : operator = "+" <;> cases left <;> cases right <;>
    simp [Typing.arithmetic, arithmeticType?, DataType.isUnknown, DataType.isNumeric,
      DataType.base, h]

/-- As `arithmetic_eq`, for comparisons: `comparisonType?`. -/
theorem relational_eq (left right : DataType) (operator : String) :
    Typing.relational left operator right =
      match comparisonType? left right with
      | some type => .ok type
      | none => .error (.relationalOperands left operator right) := by
  cases left <;> cases right <;> rfl

/-- As `arithmetic_eq`, for stores: `maySet`. -/
theorem isAssignable_eq (target source : DataType) :
    Typing.isAssignable target source = maySet target source := by
  cases target <;> cases source <;> rfl

/-- As `arithmetic_eq`, for conditions: `mayDecide`, with the error that there is otherwise. -/
theorem condition_eq (construct : String) (type : DataType) :
    Typing.condition construct type =
      if mayDecide type then .ok () else .error (.nonBooleanCondition construct type) := by
  cases type <;> rfl

/-! ### Labels -/

/-- The name that a call is labelled with. -/
def calleeOf? (label : String) : Option String :=
  match label.toList with
  | 'C' :: 'a' :: 'l' :: 'l' :: ' ' :: name => some (String.ofList name)
  | _ => none

/-- The type of a literal, which its first character shows; a name has none. -/
def literalType? (label : String) : Option DataType :=
  match label.toList with
  | [] => none
  | c :: _ =>
    if c = '"' then some .string
    else if c.isDigit then some (if '.' ∈ label.toList then .double else .int)
    else if label = "true" ∨ label = "false" then some .bool
    else none

/-- What a statement is, as its label shows. -/
inductive StatementShape where
  | attach
  | plan
  | declaration
  | assignment
  | step
  /-- A statement with a condition and blocks, under the word that it is written with. -/
  | gated (construct : String)
  | counted
  | output
  | block
  | call
deriving DecidableEq, Repr

/-- The shape of the statement with a label. -/
def statementShape (label : String) : StatementShape :=
  match label with
  | "Include" => .attach
  | "PlanMain" => .plan
  | "Declaration" => .declaration
  | "Assignment" => .assignment
  | "Increment" => .step
  | "Decrement" => .step
  | "IF" => .gated "CHECK"
  | "WHILE" => .gated "REWORK"
  | "FOR" => .counted
  | "OUTPUT" => .output
  | "RETURN" => .output
  | "Block" => .block
  | _ => .call

namespace Analysis

/-! ### Expressions -/

/-- A piece of a program with its types, and the errors met in it. -/
abbrev Checked (α : Type) := α × List SemanticError

/-- Two operands with an operator between them, whose type a rule has or has not. -/
def joined (label : String) (line : Nat) (type? : Option DataType) (cause : SemanticCause)
    (left : Checked Node) (operator : Outline) (right : Checked Node) : Checked Node :=
  (⟨label, type?.getD .unknown, line,
    [left.1, .leaf operator.label operator.line .void, right.1]⟩,
   left.2 ++ right.2 ++ if type?.isSome then [] else [⟨operator.line, cause⟩])

mutual

/-- An expression. A name may be spelled like the label of a construct, so that what an
expression is shows in the number of its parts. -/
def expression (σ : Scope) : Outline → Checked Node
  | ⟨label, _, line, children⟩ =>
    match calleeOf? label, children with
    | some callee, arguments =>
      let arguments := expressions σ arguments
      (⟨label, .unknown, line, arguments.1⟩, σ.undeclared callee line ++ arguments.2)
    | none, [] =>
      match literalType? label with
      | some type => (.leaf label line type, [])
      | none => (.leaf label line (σ.typeOf label), σ.undeclared label line)
    | none, [inner] =>
      let inner := expression σ inner
      (⟨label, inner.1.type, line, [inner.1]⟩, inner.2)
    | none, [left, operator, right] =>
      let left := expression σ left
      let right := expression σ right
      joined label line (arithmeticType? operator.label left.1.type right.1.type)
        (.arithmeticOperands left.1.type operator.label right.1.type) left operator right
    | none, _ => (.leaf label line .unknown, [])

/-- Expressions, one after the other. -/
def expressions (σ : Scope) : List Outline → Checked (List Node)
  | [] => ([], [])
  | o :: os =>
    let first := expression σ o
    let others := expressions σ os
    (first.1 :: others.1, first.2 ++ others.2)

end

/-- A condition: an expression or a comparison of two. -/
def condition (σ : Scope) : Outline → Checked Node
  | ⟨label, _, line, [operand]⟩ =>
    let operand := expression σ operand
    (⟨label, operand.1.type, line, [operand.1]⟩, operand.2)
  | ⟨label, _, line, [left, operator, right]⟩ =>
    let left := expression σ left
    let right := expression σ right
    joined label line (comparisonType? left.1.type right.1.type)
      (.relationalOperands left.1.type operator.label right.1.type) left operator right
  | ⟨label, _, line, _⟩ => (.leaf label line .unknown, [])

/-- A condition that decides for a construct. -/
def gate (construct : String) (σ : Scope) (o : Outline) : Checked Node :=
  let decision := condition σ o
  (decision.1, decision.2 ++
    if mayDecide decision.1.type then []
    else [⟨decision.1.line, .nonBooleanCondition construct decision.1.type⟩])

/-! ### Stores -/

/-- The error of a value that a variable cannot be set to. Of a name that stands for
nothing, nothing more is said. -/
def mismatch (site : StoreSite) (name : Outline) (target? : Option DataType)
    (source : DataType) : List SemanticError :=
  match target? with
  | none => []
  | some target =>
    if maySet target source then [] else [⟨name.line, .typeMismatch site name.label target source⟩]

/-- A name that is stored in, and whether it stands for something. -/
def target (σ : Scope) (name : Outline) : Checked Node :=
  (.leaf name.label name.line (σ.typeOf name.label), σ.undeclared name.label name.line)

/-- An assignment, a step or a call. -/
def simple (site : StoreSite) (σ : Scope) : Outline → Checked Node
  | ⟨label, declared?, line, children⟩ =>
    match statementShape label, children with
    | .assignment, [name, value] =>
      let value := expression σ value
      (.group label line [(target σ name).1, value.1],
       (target σ name).2 ++ value.2 ++
         mismatch site name ((σ.visible name.label).map Symbol.type) value.1.type)
    | .step, [name] => (.group label line [(target σ name).1], (target σ name).2)
    | _, children => expression σ ⟨label, declared?, line, children⟩

/-! ### Statements -/

/-- What is known at a point of a program. -/
structure Situation where
  scope : Scope
  /-- The line of the entry point, if it came already. -/
  entryPoint? : Option Nat

/-- The same point inside a new frame. -/
def Situation.frame (here : Situation) : Situation where
  scope := here.scope.frame
  entryPoint? := here.entryPoint?

/-- A piece of a program with its types, the point behind it, and what was met in it. -/
structure Outcome (α : Type) where
  result : α
  behind : Situation
  symbols : List Symbol
  errors : List SemanticError

/-- What a piece gives that declares nothing. -/
def Situation.keep {α : Type} (here : Situation) (checked : Checked α) : Outcome α where
  result := checked.1
  behind := here
  symbols := []
  errors := checked.2

/-- What a piece gives once its frame is closed. -/
def Outcome.close {α β : Type} (inside : Outcome α) (here : Situation) (wrap : α → β) :
    Outcome β where
  result := wrap inside.result
  behind := ⟨here.scope, inside.behind.entryPoint?⟩
  symbols := inside.symbols
  errors := inside.errors

/-- An outcome with errors met before it. -/
def Outcome.after {α : Type} (o : Outcome α) (errors : List SemanticError) : Outcome α :=
  { o with errors := errors ++ o.errors }

/-- A piece and the ones behind it. -/
def Outcome.cons {α : Type} (first : Outcome α) (others : Outcome (List α)) : Outcome (List α) where
  result := first.result :: others.result
  behind := others.behind
  symbols := first.symbols ++ others.symbols
  errors := first.errors ++ others.errors

/-- The binding of a symbol. A name that the innermost frame has already keeps its
binding. -/
def binding (here : Situation) (symbol : Symbol) : Outcome Unit :=
  match here.scope.own symbol.name with
  | none => ⟨(), ⟨here.scope.bind symbol, here.entryPoint?⟩, [symbol], []⟩
  | some previous => ⟨(), here, [], [⟨symbol.line, .redeclaration symbol.name previous.line⟩]⟩

/-- A declaration. Its name is in scope in its own value. -/
def declaration (here : Situation) : Outline → Outcome Node
  | ⟨label, _, line, name :: values⟩ =>
    let symbol : Symbol := ⟨name.label, name.declared?.getD .unknown, name.line⟩
    let bound := binding here symbol
    let values := expressions bound.behind.scope values
    ⟨.group label line (.leaf name.label name.line symbol.type :: values.1), bound.behind,
      bound.symbols, bound.errors ++ values.2 ++
        values.1.flatMap fun value => mismatch .initialization name (some symbol.type) value.type⟩
  | ⟨label, _, line, []⟩ => here.keep (.group label line [], [])

/-- The entry point, by its line. Only the first one counts. -/
def entryPoint (here : Situation) (line : Nat) : Outcome Unit :=
  match here.entryPoint? with
  | none => ⟨(), ⟨here.scope, some line⟩, [], []⟩
  | some previous => ⟨(), here, [], [⟨line, .entryPointRedefined previous⟩]⟩

/-- An entry point declares no name, whether it is the first or not. -/
theorem entryPoint_symbols (here : Situation) (line : Nat) :
    (entryPoint here line).symbols = [] := by
  unfold entryPoint
  split <;> rfl

/-- A loop with a variable of its own, inside the frame of the variable. -/
def counted (label : String) (line : Nat) (counter : Outcome Node) (decision update : Checked Node)
    (body : Outcome Node) : Outcome Node where
  result := .group label line [counter.result, decision.1, update.1, body.result]
  behind := body.behind
  symbols := counter.symbols ++ body.symbols
  errors := counter.errors ++ decision.2 ++ update.2 ++ body.errors

mutual

/-- A statement. -/
def statement (here : Situation) : Outline → Outcome Node
  | ⟨label, declared?, line, children⟩ =>
    match statementShape label, children with
    | .attach, [name] => here.keep (.group label line [.leaf name.label name.line .attachment], [])
    | .plan, [body] =>
      let noted := entryPoint here line
      ((block noted.behind.frame body).close noted.behind fun body =>
        .group label line [body]).after noted.errors
    | .declaration, children => declaration here ⟨label, declared?, line, children⟩
    | .gated construct, decision :: bodies =>
      let decision := gate construct here.scope decision
      let bodies := blocks here bodies
      ⟨.group label line (decision.1 :: bodies.result), bodies.behind, bodies.symbols,
        decision.2 ++ bodies.errors⟩
    | .counted, [counter, decision, update, body] =>
      let counter := declaration here.frame counter
      let decision := gate "CHECKLIST" counter.behind.scope decision
      let update := simple .update counter.behind.scope update
      let body := block counter.behind body
      (counted label line counter decision update body).close here id
    | .output, [value] =>
      let value := expression here.scope value
      here.keep (.group label line [value.1], value.2)
    | .block, children => (statements here.frame children).close here (.group label line)
    | _, children => here.keep (simple .assignment here.scope ⟨label, declared?, line, children⟩)

/-- Statements in a frame of their own. -/
def block (here : Situation) : Outline → Outcome Node
  | ⟨label, _, line, children⟩ => (statements here.frame children).close here (.group label line)

/-- Blocks, one after the other. -/
def blocks (here : Situation) : List Outline → Outcome (List Node)
  | [] => here.keep ([], [])
  | o :: os =>
    let first := block here o
    first.cons (blocks first.behind os)

/-- Statements, one after the other. -/
def statements (here : Situation) : List Outline → Outcome (List Node)
  | [] => here.keep ([], [])
  | o :: os =>
    let first := statement here o
    first.cons (statements first.behind os)

end

end Analysis

/-- The tree of a whole program with its types, what it declares, and its errors. -/
def analyse : Outline → Node × List Symbol × List SemanticError
  | ⟨label, _, line, children⟩ =>
    let inside := Analysis.statements ⟨.empty, none⟩ children
    (.group label line inside.result, inside.symbols, inside.errors)

end DrLang
