import DrLang.Token
import Mathlib.Computability.Language

/-!
# The grammar of DR

The grammar as a table of productions over classes of tokens, and what is derivable
from it. Nothing here knows how a program is parsed.

- `Form`: the right-hand side of a production, in extended Backus-Naur form.
- `production`: the table.
- `Derives`: the words that a form derives.
- `Construct.words_program` and the equations after it: the table once more, as
  equations between languages.
-/

namespace DrLang.Grammar

open scoped Computability

/-! ### Productions -/

/-- The constructs that the grammar names. -/
inductive Construct where
  | program
  | statements
  | statement
  | attach
  | plan
  | declaration
  /-- A statement that begins with a name, and its semicolon. -/
  | nameStatement
  /-- An assignment, a step or a call, without what closes it. -/
  | simple
  | check
  | rework
  | checklist
  | output
  | submit
  | block
  | condition
  | expression
  | term
  | factor
deriving DecidableEq, Repr

/-- The right-hand side of a production. -/
inductive Form where
  | token (kind : TokenKind)
  | construct (c : Construct)
  | sequence (f g : Form)
  | either (f g : Form)
  /-- Once or not at all. -/
  | optional (f : Form)
  /-- Any number of times, none included. -/
  | many (f : Form)
deriving DecidableEq, Repr

namespace Form

instance : Append Form := ⟨sequence⟩

instance : OrOp Form := ⟨either⟩

/-- A word that begins a declaration. -/
def typeWord : Form :=
  token .file ||| token .duration ||| token .note ||| token .status

/-- A comparison operator. -/
def comparison : Form :=
  token .equals ||| token .notEquals ||| token .less ||| token .lessEquals |||
    token .greater ||| token .greaterEquals

/-- A literal. -/
def literal : Form :=
  token .integer ||| token .double ||| token .string ||| token .boolean

/-- What follows a name that a value is stored in. -/
def store : Form :=
  optional (token .dollar) ++ token .assignment ++ construct .expression

/-- The arguments of a call, in their parentheses. -/
def arguments : Form :=
  token .openParen ++
    optional (construct .expression ++ many (token .comma ++ construct .expression)) ++
    token .closeParen

end Form

open Form

/-- The production of each construct. -/
def production : Construct → Form
  | .program => construct .statements ++ token .eof
  | .statements => many (construct .statement)
  | .statement =>
    construct .attach ||| construct .plan ||| construct .declaration |||
      construct .nameStatement ||| construct .check ||| construct .rework |||
      construct .checklist ||| construct .output ||| construct .submit ||| construct .block
  | .attach => token .attach ++ token .identifier
  | .plan =>
    token .plan ++ token .morningCoffee ++ token .openParen ++ token .closeParen ++
      construct .block
  | .declaration => typeWord ++ token .identifier ++ optional store ++ token .semicolon
  | .nameStatement => construct .simple ++ token .semicolon
  | .simple =>
    (token .identifier ++ store) ||| (token .identifier ++ (token .plusPlus ||| token .minusMinus))
      ||| (token .identifier ++ arguments)
  | .check =>
    token .check ++ token .openParen ++ construct .condition ++ token .closeParen ++
      construct .block ++ optional (token .reject ++ construct .block)
  | .rework =>
    token .rework ++ token .openParen ++ construct .condition ++ token .closeParen ++
      construct .block
  | .checklist =>
    token .checklist ++ token .openParen ++ construct .declaration ++ construct .condition ++
      token .semicolon ++ construct .simple ++ token .closeParen ++ construct .block
  | .output => token .output ++ construct .expression ++ token .semicolon
  | .submit => token .submit ++ construct .expression ++ token .semicolon
  | .block => token .openCurly ++ construct .statements ++ token .closeCurly
  | .condition => construct .expression ++ optional (comparison ++ construct .expression)
  | .expression =>
    construct .term ++ many ((token .plus ||| token .dash) ++ construct .term)
  | .term => construct .factor ++ many ((token .star ||| token .slash) ++ construct .factor)
  | .factor =>
    literal ||| token .identifier ||| (token .identifier ++ arguments) |||
      (token .openParen ++ construct .expression ++ token .closeParen)

/-! ### Derivations -/

/-- The words of token classes that a form derives. -/
inductive Derives : Form → List TokenKind → Prop where
  | token (kind : TokenKind) : Derives (token kind) [kind]
  | construct {c : Construct} {w : List TokenKind} :
      Derives (production c) w → Derives (construct c) w
  | sequence {f g : Form} {u v : List TokenKind} :
      Derives f u → Derives g v → Derives (f ++ g) (u ++ v)
  | left {f g : Form} {w : List TokenKind} : Derives f w → Derives (f ||| g) w
  | right {f g : Form} {w : List TokenKind} : Derives g w → Derives (f ||| g) w
  | absent {f : Form} : Derives (optional f) []
  | present {f : Form} {w : List TokenKind} : Derives f w → Derives (optional f) w
  | done {f : Form} : Derives (many f) []
  | again {f : Form} {u v : List TokenKind} :
      Derives f u → Derives (many f) v → Derives (many f) (u ++ v)

/-- The language of a form. -/
def Form.words (f : Form) : Language TokenKind :=
  {w | Derives f w}

/-- The language of a construct. -/
def Construct.words (c : Construct) : Language TokenKind :=
  (Form.construct c).words

/-- The words of one token of a given class. -/
def oneOf (kinds : List TokenKind) : Language TokenKind :=
  {w | ∃ kind ∈ kinds, w = [kind]}

@[simp] theorem mem_oneOf {kinds : List TokenKind} {w : List TokenKind} :
    w ∈ oneOf kinds ↔ ∃ kind ∈ kinds, w = [kind] :=
  Iff.rfl

/-- Alternatives between single tokens are one choice among all of their classes. -/
theorem oneOf_add_oneOf (kinds others : List TokenKind) :
    oneOf kinds + oneOf others = oneOf (kinds ++ others) := by
  ext w
  simp only [Language.mem_add, mem_oneOf, List.mem_append, or_and_right, exists_or]

/-! ### Languages of forms -/

namespace Form

@[simp] theorem words_token (kind : TokenKind) : (token kind).words = oneOf [kind] := by
  ext w
  rw [mem_oneOf]
  constructor
  · rintro ⟨⟩
    exact ⟨kind, List.mem_singleton_self kind, rfl⟩
  · rintro ⟨_, hkind, rfl⟩
    obtain rfl := List.mem_singleton.1 hkind
    exact .token _

@[simp] theorem words_construct (c : Construct) : (construct c).words = c.words := rfl

@[simp] theorem words_sequence (f g : Form) : (f ++ g).words = f.words * g.words := by
  ext w
  rw [Language.mem_mul]
  constructor
  · rintro ⟨⟩
    exact ⟨_, ‹_›, _, ‹_›, rfl⟩
  · rintro ⟨u, hu, v, hv, rfl⟩
    exact .sequence hu hv

@[simp] theorem words_either (f g : Form) : (f ||| g).words = f.words + g.words := by
  ext w
  rw [Language.mem_add]
  constructor
  · rintro ⟨⟩
    · exact .inl ‹_›
    · exact .inr ‹_›
  · rintro (h | h)
    · exact .left h
    · exact .right h

@[simp] theorem words_optional (f : Form) : (optional f).words = 1 + f.words := by
  ext w
  rw [Language.mem_add, Language.mem_one]
  constructor
  · rintro ⟨⟩
    · exact .inl rfl
    · exact .inr ‹_›
  · rintro (rfl | h)
    · exact .absent
    · exact .present h

/-- A repetition derives the concatenations of words that its form derives. From left to right
this is an induction on the derivation, with `many f` kept as its index. -/
theorem derives_many_iff {f : Form} {w : List TokenKind} :
    Derives (many f) w ↔ ∃ parts : List (List TokenKind), w = parts.flatten ∧
      ∀ part ∈ parts, Derives f part := by
  constructor
  · intro h
    -- The form is fixed by an equation, which sorts out the other rules of the induction.
    generalize hg : many f = g at h
    induction h with
    | done => exact ⟨[], rfl, by simp⟩
    | @again f' u v hu _ _ ih =>
      obtain rfl := Form.many.inj hg
      obtain ⟨parts, rfl, hparts⟩ := ih rfl
      exact ⟨u :: parts, rfl, List.forall_mem_cons.2 ⟨hu, hparts⟩⟩
    | _ => cases hg
  · rintro ⟨parts, rfl, hparts⟩
    induction parts with
    | nil => exact .done
    | cons part parts ih =>
      obtain ⟨hpart, hrest⟩ := List.forall_mem_cons.1 hparts
      exact .again hpart (ih hrest)

/-- A repetition is the Kleene star of a language; Mathlib's `∗` is about lists of parts, which is
what `derives_many_iff` gives. -/
@[simp] theorem words_many (f : Form) : (many f).words = f.words∗ := by
  ext w
  exact derives_many_iff

/-- A declaration begins with one of four words; `oneOf_add_oneOf` makes one choice of them. -/
theorem words_typeWord : typeWord.words = oneOf [.file, .duration, .note, .status] := by
  simp [-add_eq_sup, typeWord, oneOf_add_oneOf]

theorem words_comparison : comparison.words =
    oneOf [.equals, .notEquals, .less, .lessEquals, .greater, .greaterEquals] := by
  simp [-add_eq_sup, comparison, oneOf_add_oneOf]

theorem words_literal : literal.words = oneOf [.integer, .double, .string, .boolean] := by
  simp [-add_eq_sup, literal, oneOf_add_oneOf]

/-- What is stored, with the products bracketed to the right by `mul_assoc`, so that the first
token is in front. -/
theorem words_store : store.words =
    (1 + oneOf [.dollar]) * (oneOf [.assignment] * Construct.expression.words) := by
  simp [-add_eq_sup, store, mul_assoc]

/-- The arguments of a call, bracketed as in `words_store`. -/
theorem words_arguments : arguments.words =
    oneOf [.openParen] *
      ((1 + Construct.expression.words * (oneOf [.comma] * Construct.expression.words)∗) *
        oneOf [.closeParen]) := by
  simp [-add_eq_sup, arguments, mul_assoc]

end Form

/-! ### The table as equations

A name may go on in several ways. In the equations of a simple statement and of a factor
the name stands in front, so that what follows it tells the alternatives apart. -/

namespace Construct

/-- The language of a construct is that of its `production`. All equations below are this one,
with the production written out. -/
theorem words_eq (c : Construct) : c.words = (production c).words := by
  ext w
  constructor
  · rintro ⟨⟩
    assumption
  · exact .construct

theorem words_program : program.words = statements.words * oneOf [.eof] := by
  rw [words_eq]
  simp [-add_eq_sup, production]

/-- Statements stand one after the other: `statements` is the star of `statement`. -/
theorem words_statements : statements.words = statement.words∗ := by
  rw [words_eq]
  simp [-add_eq_sup, production]

theorem words_statement : statement.words =
    attach.words + plan.words + declaration.words + nameStatement.words + check.words +
      rework.words + checklist.words + output.words + submit.words + block.words := by
  rw [words_eq]
  simp [-add_eq_sup, production]

theorem words_attach : attach.words = oneOf [.attach] * oneOf [.identifier] := by
  rw [words_eq]
  simp [-add_eq_sup, production]

/-- The entry point has a fixed head, with nothing in its parentheses, and a block. -/
theorem words_plan : plan.words =
    oneOf [.plan] * (oneOf [.morningCoffee] * (oneOf [.openParen] *
      (oneOf [.closeParen] * block.words))) := by
  rw [words_eq]
  simp [-add_eq_sup, production, mul_assoc]

/-- A declaration: the word of a type, a name, perhaps a value, and the semicolon. -/
theorem words_declaration : declaration.words =
    oneOf [.file, .duration, .note, .status] * (oneOf [.identifier] *
      ((1 + store.words) * oneOf [.semicolon])) := by
  rw [words_eq]
  simp [-add_eq_sup, production, words_typeWord, mul_assoc]

/-- A statement that begins with a name is a `simple` one with a semicolon. -/
theorem words_nameStatement : nameStatement.words = simple.words * oneOf [.semicolon] := by
  rw [words_eq]
  simp [-add_eq_sup, production]

/-- The name that all three alternatives begin with is taken out, with `mul_add`: what follows it
decides between a store, a step and a call. -/
theorem words_simple : simple.words =
    oneOf [.identifier] * (store.words + oneOf [.plusPlus, .minusMinus] + arguments.words) := by
  rw [words_eq]
  simp [-add_eq_sup, production, oneOf_add_oneOf, mul_add]

theorem words_check : check.words =
    oneOf [.check] * (oneOf [.openParen] * (condition.words * (oneOf [.closeParen] *
      (block.words * (1 + oneOf [.reject] * block.words))))) := by
  rw [words_eq]
  simp [-add_eq_sup, production, mul_assoc]

/-- A loop is a branch under another word, without an alternative; compare `words_check`. -/
theorem words_rework : rework.words =
    oneOf [.rework] * (oneOf [.openParen] * (condition.words * (oneOf [.closeParen] *
      block.words))) := by
  rw [words_eq]
  simp [-add_eq_sup, production, mul_assoc]

/-- A counting loop: between the parentheses a declaration, which has a semicolon of its own, then
a condition, a semicolon and a simple statement without one. -/
theorem words_checklist : checklist.words =
    oneOf [.checklist] * (oneOf [.openParen] * (declaration.words * (condition.words *
      (oneOf [.semicolon] * (simple.words * (oneOf [.closeParen] * block.words)))))) := by
  rw [words_eq]
  simp [-add_eq_sup, production, mul_assoc]

/-- An output statement is its word, an expression and a semicolon. -/
theorem words_output : output.words =
    oneOf [.output] * (expression.words * oneOf [.semicolon]) := by
  rw [words_eq]
  simp [-add_eq_sup, production, mul_assoc]

/-- A return statement has the same form as an output statement, `words_output`. -/
theorem words_submit : submit.words =
    oneOf [.submit] * (expression.words * oneOf [.semicolon]) := by
  rw [words_eq]
  simp [-add_eq_sup, production, mul_assoc]

/-- A block is `statements` between braces; this is where statements nest. -/
theorem words_block : block.words =
    oneOf [.openCurly] * (statements.words * oneOf [.closeCurly]) := by
  rw [words_eq]
  simp [-add_eq_sup, production, mul_assoc]

/-- At most one `comparison` stands in a condition, so that comparisons do not chain. -/
theorem words_condition : condition.words =
    expression.words * (1 + comparison.words * expression.words) := by
  rw [words_eq]
  simp [-add_eq_sup, production]

/-- The sums, over `term`; the two operators of this level are one choice. -/
theorem words_expression : expression.words =
    term.words * (oneOf [.plus, .dash] * term.words)∗ := by
  rw [words_eq]
  simp [-add_eq_sup, production, oneOf_add_oneOf]

/-- The products, over `factor`; the two operators of this level are one choice. -/
theorem words_term : term.words =
    factor.words * (oneOf [.star, .slash] * factor.words)∗ := by
  rw [words_eq]
  simp [-add_eq_sup, production, oneOf_add_oneOf]

/-- A name and a call begin alike, so the name is taken out, as in `words_simple`. -/
theorem words_factor : factor.words =
    literal.words + oneOf [.identifier] * (1 + arguments.words) +
      oneOf [.openParen] * (expression.words * oneOf [.closeParen]) := by
  rw [words_eq]
  simp [-add_eq_sup, production, mul_add, add_assoc, mul_assoc]

end Construct

end DrLang.Grammar
