import DrLang.Proofs.Lookahead
import DrLang.Parse.Rules

/-!
# First tokens of constructs

The tables that drive a parse look at the current token only. These are the facts about
the grammar that make this enough: each construct has a word, and begins with a token for
which the table has the one rule that is meant for the word.

- `productive_statement`, `productive_expression`, ...: each construct has a word.
- `Ruled`: a table finds the rule for each word of a language by its first token.
- `ruled_factor`, `ruled_statement`: the tables of DR do so for operands and statements.
-/

namespace DrLang.Grammar

open scoped Computability
open Construct

/-! ### Each construct has a word -/

/-- A literal alone is a factor, so there is one without any recursion. All constructs below get a
word from this one, by `Productive.mul` and `Productive.add`. -/
theorem productive_factor : Productive factor.words := by
  rw [words_factor, Form.words_literal]
  exact ((productive_oneOf _ _).add _).add _

theorem productive_term : Productive term.words := by
  rw [words_term]
  exact productive_factor.mul (productive_star _)

theorem productive_expression : Productive expression.words := by
  rw [words_expression]
  exact productive_term.mul (productive_star _)

theorem productive_condition : Productive condition.words := by
  rw [words_condition]
  exact productive_expression.mul (productive_one.add _)

theorem productive_block : Productive block.words := by
  rw [words_block, words_statements]
  exact (productive_oneOf _ _).mul ((productive_star _).mul (productive_oneOf _ _))

theorem productive_store : Productive Form.store.words := by
  rw [Form.words_store]
  exact (productive_one.add _).mul ((productive_oneOf _ _).mul productive_expression)

theorem productive_simple : Productive simple.words := by
  rw [words_simple]
  exact (productive_oneOf _ _).mul ((productive_store.add _).add _)

theorem productive_declaration : Productive declaration.words := by
  rw [words_declaration]
  exact (productive_oneOf _ _).mul
    ((productive_oneOf _ _).mul ((productive_one.add _).mul (productive_oneOf _ _)))

theorem productive_attach : Productive attach.words := by
  rw [words_attach]
  exact (productive_oneOf _ _).mul (productive_oneOf _ _)

/-- An attachment, by `productive_attach`, is the shortest statement; it needs no other construct.
-/
theorem productive_statement : Productive statement.words := by
  rw [words_statement]
  exact ((((((((productive_attach.add _).add _).add _).add _).add _).add _).add _).add _).add _

/-! ### First tokens -/

/-- A declaration begins with the word of its type. This lemma and those after it read the first
factor off the equation of a construct. -/
theorem headed_declaration :
    Headed declaration.words {kind | kind ∈ [.file, .duration, .note, .status]} := by
  rw [words_declaration]
  exact (headed_oneOf _).mul _

theorem headed_simple : Headed simple.words {kind | kind ∈ [.identifier]} := by
  rw [words_simple]
  exact (headed_oneOf _).mul _

theorem headed_block : Headed block.words {kind | kind ∈ [.openCurly]} := by
  rw [words_block]
  exact (headed_oneOf _).mul _

theorem headed_attach : Headed attach.words {kind | kind ∈ [.attach]} := by
  rw [words_attach]
  exact (headed_oneOf _).mul _

theorem headed_plan : Headed plan.words {kind | kind ∈ [.plan]} := by
  rw [words_plan]
  exact (headed_oneOf _).mul _

/-- A statement that begins with a name is a simple one, so it has the heads of `headed_simple`.
-/
theorem headed_nameStatement : Headed nameStatement.words {kind | kind ∈ [.identifier]} := by
  rw [words_nameStatement]
  exact headed_simple.mul _

theorem headed_check : Headed check.words {kind | kind ∈ [.check]} := by
  rw [words_check]
  exact (headed_oneOf _).mul _

theorem headed_rework : Headed rework.words {kind | kind ∈ [.rework]} := by
  rw [words_rework]
  exact (headed_oneOf _).mul _

theorem headed_checklist : Headed checklist.words {kind | kind ∈ [.checklist]} := by
  rw [words_checklist]
  exact (headed_oneOf _).mul _

theorem headed_output : Headed output.words {kind | kind ∈ [.output]} := by
  rw [words_output]
  exact (headed_oneOf _).mul _

theorem headed_submit : Headed submit.words {kind | kind ∈ [.submit]} := by
  rw [words_submit]
  exact (headed_oneOf _).mul _

/-- The four classes of literals, which are themselves one token each. -/
theorem headed_literal :
    Headed Form.literal.words {kind | kind ∈ [.integer, .double, .string, .boolean]} := by
  rw [Form.words_literal]
  exact headed_oneOf _

theorem headed_arguments : Headed Form.arguments.words {kind | kind ∈ [.openParen]} := by
  rw [Form.words_arguments]
  exact (headed_oneOf _).mul _

/-- The dollar sign may be left out, so two tokens may begin what is stored: `Headed.add`, after
the product is spread out. -/
theorem headed_store : Headed Form.store.words {kind | kind ∈ [.dollar, .assignment]} := by
  rw [Form.words_store, add_mul, one_mul]
  refine (((headed_oneOf _).mul _).mono ?_).add ((((headed_oneOf _).mul _)).mono ?_)
  · rintro kind hkind
    simp_all
  · rintro kind hkind
    simp_all

/-! ### Tables of rules -/

section Ruled

variable {ρ : Type} {table : TokenKind → Option ρ} {words : ρ → Language TokenKind}
  {L M : Language TokenKind} {S : Set TokenKind} {kind : TokenKind} {rule : ρ}

/-- By the first token of each word of `L`, the table finds a rule that is meant for the
word. -/
def Ruled (table : TokenKind → Option ρ) (words : ρ → Language TokenKind)
    (L : Language TokenKind) : Prop :=
  ∀ w ∈ L, ∃ kind z rule, w = kind :: z ∧ table kind = some rule ∧ w ∈ words rule

/-- If the table gives one rule for all heads of the words that the rule is for, it is ruled by
them. This is how each row of a table gets into `ruled_factor` and `ruled_statement`. -/
theorem Headed.ruled (words : ρ → Language TokenKind) (rule : ρ) {kinds : List TokenKind}
    (h : Headed (words rule) {kind | kind ∈ kinds})
    (hkinds : ∀ kind ∈ kinds, table kind = some rule) : Ruled table words (words rule) := by
  intro w hw
  obtain ⟨kind, hkind, z, rfl⟩ := h w hw
  exact ⟨kind, z, rule, rfl, hkinds kind hkind, hw⟩

namespace Ruled

/-- Tables find their rules by the first token alone, so alternatives do not disturb each other.
-/
theorem add (h : Ruled table words L) (h' : Ruled table words M) : Ruled table words (L + M) := by
  rintro w (hw | hw)
  · exact h w hw
  · exact h' w hw

/-- A word begins with a token that the `table` has a rule for. -/
theorem headed (h : Ruled table words L) : Headed L {kind | (table kind).isSome} := by
  intro w hw
  obtain ⟨kind, z, rule, rfl, hrule, -⟩ := h w hw
  exact ⟨kind, by simp [hrule], z, rfl⟩

/-- The rule of the current token is the one for all words that it begins. -/
theorem selects (h : Ruled table words L) (hle : ∀ w ∈ words rule, w ∈ L)
    (hrule : table kind = some rule) (F : Set TokenKind) : Selects kind (words rule) L F := by
  refine .of_forall hle h.headed (fun z hz => ?_) F
  obtain ⟨k, z', rule', heq, hrule', hz'⟩ := h _ hz
  obtain ⟨rfl, -⟩ := List.cons.inj heq
  obtain rfl := Option.some.inj (hrule.symm.trans hrule')
  exact hz'

/-- A token without a rule begins no word. -/
theorem excludes (h : Ruled table words L) (hkind : table kind = none) (F : Set TokenKind) :
    Excludes L F [] kind :=
  h.headed.excludes (by simp [hkind]) F

end Ruled

end Ruled

/-! ### Operands and statements -/

/-- The operands that each rule is for. -/
def operandWords : OperandRule → Language TokenKind
  | .literal => Form.literal.words
  | .name => oneOf [.identifier] * (1 + Form.arguments.words)
  | .grouping => oneOf [.openParen] * (expression.words * oneOf [.closeParen])
  | .condition => 0

/-- The statements that each rule is for. -/
def statementWords : StatementRule → Language TokenKind
  | .declaration => declaration.words
  | .simple => nameStatement.words
  | .check => check.words
  | .rework => rework.words
  | .checklist => checklist.words
  | .output => output.words
  | .submit => submit.words
  | .block => block.words
  | .attach => attach.words
  | .plan => plan.words
  | .statement | .call => 0

/-- The table `operand?` is right for factors: three rules, one for each way in which a factor
begins. No token leads to the rule for conditions. -/
theorem ruled_factor : Ruled Rules.standard.operand? operandWords factor.words := by
  rw [words_factor]
  exact ((Headed.ruled operandWords .literal headed_literal (by decide)).add
    (Headed.ruled operandWords .name ((headed_oneOf _).mul _) (by decide))).add
    (Headed.ruled operandWords .grouping ((headed_oneOf _).mul _) (by decide))

/-- What a rule for operands is meant for is a factor; the rule `condition` is meant for nothing
here. -/
theorem mem_factor_of_mem {rule : OperandRule} {w : List TokenKind}
    (hw : w ∈ operandWords rule) : w ∈ factor.words := by
  rw [words_factor]
  cases rule with
  | condition => exact absurd hw (Language.notMem_zero w)
  | _ => simp only [operandWords, Language.mem_add] at hw ⊢; tauto

/-- No token of DR begins an operand that is a condition. -/
theorem operand?_ne_condition (kind : TokenKind) :
    Rules.standard.operand? kind ≠ some .condition := by
  cases kind <;> decide

/-- The row of literals in `Rules.standard`, read backwards. -/
theorem mem_literals_of_operand? {kind : TokenKind}
    (h : Rules.standard.operand? kind = some .literal) :
    kind ∈ [.integer, .double, .string, .boolean] := by
  cases kind <;> revert h <;> decide

/-- The row of names in `Rules.standard`, read backwards. -/
theorem eq_identifier_of_operand? {kind : TokenKind}
    (h : Rules.standard.operand? kind = some .name) : kind = .identifier := by
  cases kind <;> revert h <;> decide

/-- The test for comparison operators is about the tokens of `words_comparison`. -/
theorem isRelational_iff {kind : TokenKind} :
    kind.isRelational ↔
      kind ∈ [.equals, .notEquals, .less, .lessEquals, .greater, .greaterEquals] := by
  cases kind <;> decide

/-- The test that `checklistOf` makes is about the tokens of `words_typeWord`. -/
theorem isTypeKeyword_iff {kind : TokenKind} :
    kind.isTypeKeyword ↔ kind ∈ [.file, .duration, .note, .status] := by
  cases kind <;> decide

/-- A literal is a factor, a term and an expression. -/
theorem integer_mem_factor : [.integer] ∈ factor.words := by
  have hliteral : [.integer] ∈ operandWords .literal := by
    simp [operandWords, Form.words_literal]
  exact mem_factor_of_mem hliteral

/-- See `integer_mem_factor`; an integer is what closes a word where any expression does. -/
theorem integer_mem_term : [.integer] ∈ term.words := by
  rw [words_term]
  exact Language.append_mem_mul integer_mem_factor (Language.nil_mem_kstar _)

/-- See `integer_mem_factor`. -/
theorem integer_mem_expression : [.integer] ∈ expression.words := by
  rw [words_expression]
  exact Language.append_mem_mul integer_mem_term (Language.nil_mem_kstar _)

/-- An expression begins with an operand, so with a token that `operand?` has a rule for. -/
theorem headed_expression :
    Headed expression.words {kind | (Rules.standard.operand? kind).isSome} := by
  rw [words_expression, words_term, mul_assoc]
  exact ruled_factor.headed.mul _

/-- The table `statement?` is right for statements: ten rules, one for each alternative of
`words_statement`, in its order. -/
theorem ruled_statement : Ruled Rules.standard.statement? statementWords statement.words := by
  have ruled (rule : StatementRule) {kinds : List TokenKind}
      (h : Headed (statementWords rule) {kind | kind ∈ kinds})
      (hkinds : ∀ kind ∈ kinds, Rules.standard.statement? kind = some rule) :
      Ruled Rules.standard.statement? statementWords (statementWords rule) :=
    h.ruled statementWords rule hkinds
  rw [words_statement]
  exact (((((((((ruled .attach headed_attach (by decide)).add
    (ruled .plan headed_plan (by decide))).add
    (ruled .declaration headed_declaration (by decide))).add
    (ruled .simple headed_nameStatement (by decide))).add
    (ruled .check headed_check (by decide))).add
    (ruled .rework headed_rework (by decide))).add
    (ruled .checklist headed_checklist (by decide))).add
    (ruled .output headed_output (by decide))).add
    (ruled .submit headed_submit (by decide))).add
    (ruled .block headed_block (by decide))

/-- The tokens by which each rule for statements is found. -/
def statementHeads : StatementRule → List TokenKind
  | .declaration => [.file, .duration, .note, .status]
  | .simple => [.identifier]
  | .check => [.check]
  | .rework => [.rework]
  | .checklist => [.checklist]
  | .output => [.output]
  | .submit => [.submit]
  | .block => [.openCurly]
  | .attach => [.attach]
  | .plan => [.plan]
  | .statement | .call => []

/-- The table `statement?`, read backwards: a rule is found by its own `statementHeads` only. -/
theorem mem_statementHeads {kind : TokenKind} {rule : StatementRule}
    (h : Rules.standard.statement? kind = some rule) : kind ∈ statementHeads rule := by
  cases kind <;> cases h <;> decide

/-- What a rule for statements is meant for is a statement; `statement` and `call` are meant for
nothing here. -/
theorem mem_statement_of_mem {rule : StatementRule} {w : List TokenKind}
    (hw : w ∈ statementWords rule) : w ∈ statement.words := by
  rw [words_statement]
  cases rule with
  | statement | call => exact absurd hw (Language.notMem_zero w)
  | _ => simp only [statementWords, Language.mem_add] at hw ⊢; tauto

end DrLang.Grammar
