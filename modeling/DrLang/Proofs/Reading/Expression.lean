import DrLang.Proofs.Reading
import DrLang.Proofs.FirstTokens

/-!
# Expressions read expressions

The rules for expressions read the languages of the grammar. An expression whose operators
bind more tightly than a power reads a factor, a term or an expression, as the power says:
a factor first, and then a tail of operators with their operands.

- `powerWords`, `followers`: what an expression of some power reads, and what would go on
  with it.
- `reads_sums`, `reads_products`: the operators after an operand.
- `reads_expression`, `reads_condition`: whole expressions.
-/

namespace DrLang.Grammar

open scoped Computability
open Construct

/-! ### Powers -/

/-- The operators of a term with their operands. -/
def products : Language TokenKind :=
  (oneOf [.star, .slash] * factor.words)∗

/-- The operators of an expression with their operands. -/
def sums : Language TokenKind :=
  (oneOf [.plus, .dash] * term.words)∗

/-- What follows the first factor of an expression of some power. -/
def tailWords : BindingPower → Language TokenKind
  | .default => products * sums
  | .additive => products * 1
  | .multiplicative => 1

/-- What an expression of some power reads. -/
def powerWords : BindingPower → Language TokenKind
  | .default => expression.words
  | .additive => term.words
  | .multiplicative => factor.words

/-- The tokens that would go on with an expression of some power. -/
def followers : BindingPower → Set TokenKind
  | .default => {.plus, .dash, .star, .slash, .openParen}
  | .additive => {.star, .slash, .openParen}
  | .multiplicative => {.openParen}

/-- Whatever the power is, a factor comes first, and then `tailWords`; this is the order in which
a parse reads. -/
theorem powerWords_eq (power : BindingPower) :
    powerWords power = factor.words * tailWords power := by
  cases power with
  | default =>
    rw [powerWords, words_expression, tailWords, ← mul_assoc, products, ← words_term]
    rfl
  | additive =>
    rw [powerWords, words_term, tailWords, mul_one]
    rfl
  | multiplicative => rw [powerWords, tailWords, mul_one]

/-- One more factor, or no more: the star unfolded once, as `operatorsWithin` unfolds. -/
theorem products_eq : products = 1 + oneOf [.star, .slash] * factor.words * products :=
  (Language.one_add_self_mul_kstar_eq_kstar _).symm

/-- One more term, or no more; see `products_eq`. -/
theorem sums_eq : sums = 1 + oneOf [.plus, .dash] * term.words * sums :=
  (Language.one_add_self_mul_kstar_eq_kstar _).symm

/-- Both tails begin with their operators. -/
theorem headed_operators (kinds : List TokenKind) (L M : Language TokenKind) :
    Headed (oneOf kinds * L * M) {kind | kind ∈ kinds} :=
  ((headed_oneOf kinds).mul L).mul M

/-- Expressions of any power have a word, so one may be awaited. -/
theorem productive_powerWords (power : BindingPower) : Productive (powerWords power) := by
  cases power with
  | default => exact productive_expression
  | additive => exact productive_term
  | multiplicative => exact productive_factor

/-- The outermost expression is the one with most that would go on with it. -/
theorem followers_subset (power : BindingPower) : followers power ⊆ followers .default := by
  intro kind hkind
  cases power <;> simp only [followers, Set.mem_insert_iff, Set.mem_singleton_iff] at hkind ⊢ <;>
    tauto

/-- After a factor, no parenthesis opens. -/
theorem separates_tailWords (power : BindingPower) :
    Separates (tailWords power) (followers power) {.openParen} := by
  have hproducts : Separates products (followers .additive) {.openParen} :=
    ((headed_oneOf _).mul _).separates_star (by simp) (by simp [followers])
  cases power with
  | default =>
    refine hproducts.mul (((headed_oneOf _).mul _).separates_star ?_ (followers_subset _))
    simp [followers]
  | additive => exact hproducts.mul (separates_one subset_rfl)
  | multiplicative => exact separates_one subset_rfl

theorem productive_tailWords (power : BindingPower) : Productive (tailWords power) := by
  cases power with
  | default => exact (productive_star _).mul (productive_star _)
  | additive => exact (productive_star _).mul productive_one
  | multiplicative => exact productive_one

/-- The operators by their power. -/
theorem operator?_standard (kind : TokenKind) :
    kind ∈ [.plus, .dash] ∧ Rules.standard.operator? kind = some .additive ∨
      kind ∈ [.star, .slash] ∧ Rules.standard.operator? kind = some .multiplicative ∨
      (kind ∉ [.plus, .dash] ∧ kind ∉ [.star, .slash]) ∧ Rules.standard.operator? kind = none := by
  cases kind <;> decide

/-- A term goes on where an operator of a term follows. -/
theorem term_append_mem (w : List TokenKind) (hw : w ∈ term.words) {kind : TokenKind}
    (hkind : kind ∈ [.star, .slash]) : w ++ kind :: [.integer] ∈ term.words := by
  rw [words_term] at hw ⊢
  obtain ⟨u, hu, v, hv, rfl⟩ := Language.mem_mul.1 hw
  have hlast : kind :: [.integer] ∈ oneOf [.star, .slash] * factor.words :=
    Language.append_mem_mul (a := [kind]) ⟨kind, hkind, rfl⟩ integer_mem_factor
  rw [List.append_assoc]
  refine Language.append_mem_mul hu ?_
  rw [← Language.one_add_kstar_mul_self_eq_kstar]
  exact .inr (Language.append_mem_mul hv hlast)

/-- A term goes on behind a star or a slash, with an integer for instance. So a word that ends in
a term is not complete there. -/
theorem mul_term_append_mem {L : Language TokenKind} {w : List TokenKind}
    (hw : w ∈ L * term.words) {kind : TokenKind} (hkind : kind ∈ [.star, .slash]) :
    w ++ kind :: [.integer] ∈ L * term.words := by
  obtain ⟨u, hu, v, hv, rfl⟩ := Language.mem_mul.1 hw
  rw [List.append_assoc]
  exact Language.append_mem_mul hu (term_append_mem v hv hkind)

/-! ### Rules -/

section Rules

variable {inner : BindingPower → Parse Typed} {bound : Nat}
  (hinner : ∀ power s, Ready bound s → Reads (inner power) s (powerWords power) (followers power))
include hinner

/-- An operator and its right operand. The operand is of the operator's power `own`, so operators
of the same power are left to the loop. -/
theorem reads_binaryOf {s : Parser} {left : Typed} {kinds : List TokenKind}
    (hs : Ready (bound + 1) s) (hkind : s.cursor.current.kind ∈ kinds) (heof : .eof ∉ kinds)
    (own : BindingPower) :
    Reads (Parse.binaryOf inner left own) s (oneOf kinds * powerWords own) (followers own) := by
  refine Reads.advance_bind hs hkind heof (fun _ => ?_) (productive_powerWords own)
  refine (hinner own _ (hs.advance (ne_of_mem_of_not_mem hkind heof))).bind_silent fun right => ?_
  exact (Parse.silent_typeOrReport _ _).bind fun type => Parse.silent_pure _

omit hinner in
/-- Where no operator follows that binds tightly enough, nothing is read. -/
theorem reads_operators_stop {power : BindingPower} {m : Nat} {s : Parser} {left : Typed}
    (hm : Ready m s)
    (hstop : ∀ own, Rules.standard.operator? s.cursor.current.kind = some own → ¬ power < own)
    {F : Set TokenKind} : Reads (Parse.operatorsWithin inner .standard power m left) s 1 F := by
  cases m with
  | zero => exact absurd hm.fits (Nat.not_lt_zero _)
  | succ m =>
    refine Reads.currentKind_bind ?_
    split
    case h_1 => exact Reads.pure left s F
    case h_2 own hown =>
      rw [if_neg (hstop own hown)]
      exact Reads.pure left s F

/-- After a term, only the operators of an expression go on. -/
theorem reads_sums (m : Nat) {s : Parser} {left : Typed} (hs : Ready (bound + 1) s)
    (hm : Ready m s) (hkind : s.cursor.current.kind ∉ [.star, .slash]) :
    Reads (Parse.operatorsWithin inner .standard .default m left) s sums (followers .default) := by
  induction m generalizing s left with
  | zero => exact absurd hm.fits (Nat.not_lt_zero _)
  | succ m ih =>
    refine Reads.currentKind_bind ?_
    rw [sums_eq]
    rcases operator?_standard s.cursor.current.kind with ⟨hsum, hrule⟩ | ⟨h, -⟩ | ⟨⟨hsum, -⟩, hrule⟩
    · rw [hrule]
      have hfollower : s.cursor.current.kind ∈ followers .default := by
        rcases List.mem_pair.1 hsum with h | h <;> simp [followers, h]
      refine Reads.widen ?_ (.present hfollower _)
      refine (reads_binaryOf hinner hs hsum (by decide) .additive).bind
        (fun left' s' _ used heq hused => ?_) (productive_star _)
        (((headed_oneOf _).mul _).separates_star (by simp [followers]) (followers_subset _))
      have hm' := hm.of_headed heq ((headed_oneOf _).mul _) hused.mem
      refine ih (hs.of_append heq) hm' fun hmem => ?_
      -- An operator of a term would have been read with the term before it.
      exact hused.next_ne (fun w hw => mul_term_append_mem hw hmem) rfl
    · exact absurd h hkind
    · rw [hrule]
      exact (Reads.pure left s _).widen (.left (headed_operators _ _ _) hsum _ _)

/-- After a factor, the operators of a term go on, and after the term whatever `A` says. -/
theorem reads_products {power : BindingPower} {A : Language TokenKind}
    (hpower : power < .multiplicative)
    (hA : Separates A (followers power) (followers .additive)) (hAone : Productive A)
    (hrest : ∀ (m : Nat) (s : Parser) (left : Typed), Ready (bound + 1) s → Ready m s →
      s.cursor.current.kind ∉ [.star, .slash] →
      Reads (Parse.operatorsWithin inner .standard power m left) s A (followers power))
    (m : Nat) {s : Parser} {left : Typed} (hs : Ready (bound + 1) s) (hm : Ready m s) :
    Reads (Parse.operatorsWithin inner .standard power m left) s (products * A)
      (followers power) := by
  induction m generalizing s left with
  | zero => exact absurd hm.fits (Nat.not_lt_zero _)
  | succ m ih =>
    rw [products_eq, add_mul, one_mul, mul_assoc]
    by_cases hproduct : s.cursor.current.kind ∈ [.star, .slash]
    · -- What `A` says begins with no such operator, so the term goes on.
      refine Reads.currentKind_bind ?_
      have hrule : Rules.standard.operator? s.cursor.current.kind = some .multiplicative := by
        rcases List.mem_pair.1 hproduct with h | h <;> rw [h] <;> rfl
      have hfollower : s.cursor.current.kind ∈ followers .additive := by
        rcases List.mem_pair.1 hproduct with h | h <;> simp [followers, h]
      simp only [hrule, if_pos hpower]
      refine Reads.widen ?_ (.right_of_separates hA hfollower _)
      refine (reads_binaryOf hinner hs hproduct (by decide) .multiplicative).bind
        (fun left' s' _ used heq hused => ?_) ((productive_star _).mul hAone) ?_
      · exact ih (hs.of_append heq) (hm.of_headed heq ((headed_oneOf _).mul _) hused.mem)
      · have hproducts : Separates products (followers .additive) (followers .multiplicative) :=
          ((headed_oneOf _).mul _).separates_star (by simp [followers]) (by simp [followers])
        exact hproducts.mul hA
    · exact (hrest (m + 1) s left hs hm hproduct).widen
        (.left (headed_operators _ _ _) hproduct _ _)

/-- The operators after the first factor of an expression. -/
theorem reads_operators (power : BindingPower) (m : Nat) {s : Parser} {left : Typed}
    (hs : Ready (bound + 1) s) (hm : Ready m s) :
    Reads (Parse.operatorsWithin inner .standard power m left) s (tailWords power)
      (followers power) := by
  -- Each power takes the operators above it and leaves the others to its caller.
  cases power with
  | default =>
    refine reads_products hinner (by decide) ?_ (productive_star _)
      (fun m s left hs hm hkind => reads_sums hinner m hs hm hkind) m hs hm
    exact ((headed_oneOf _).mul _).separates_star (by simp [followers]) (followers_subset _)
  | additive =>
    refine reads_products hinner (by decide) (separates_one subset_rfl) productive_one
      (fun m s left _ hm hkind => reads_operators_stop hm ?_) m hs hm
    rcases operator?_standard s.cursor.current.kind with ⟨-, h⟩ | ⟨h, -⟩ | ⟨-, h⟩
    · rw [h]
      decide
    · exact absurd h hkind
    · simp [h]
  | multiplicative =>
    refine reads_operators_stop hm fun own _ => ?_
    cases own <;> decide

/-! ### Operands -/

omit hinner in
/-- What follows the name in a call, with the name. -/
def callAfter (inner : BindingPower → Parse Typed) (callee : Token) : Parse Node := do
  let _ ← Parse.resolve callee.value callee.line
  let _ ← Parse.expect .openParen
  let nodes ← Parse.arguments inner
  let _ ← Parse.expect .closeParen
  return ⟨"Call " ++ callee.value, .unknown, callee.line, nodes⟩

omit hinner in
theorem reads_literal {s : Parser} (hs : Ready bound s)
    (hkind : s.cursor.current.kind ∈ [.integer, .double, .string, .boolean]) (F : Set TokenKind) :
    Reads Parse.literal s Form.literal.words F := by
  refine Reads.currentKind_bind ?_
  have hliteral : ∀ kind ∈ [.integer, .double, .string, .boolean],
      (DataType.ofLiteral? kind).isSome := by decide
  obtain ⟨type, htype⟩ := Option.isSome_iff_exists.1 (hliteral _ hkind)
  rw [htype, Form.words_literal]
  exact (Reads.advance hs hkind (by decide) F).bind_silent fun token => Parse.silent_pure _

/-- One argument or more. -/
theorem reads_argumentsWithin (m : Nat) {s : Parser} (hs : Ready bound s) (hm : Ready m s) :
    Reads (Parse.argumentsWithin inner m) s
      (expression.words * (oneOf [.comma] * expression.words)∗)
      (insert .comma (followers .default)) := by
  induction m generalizing s with
  | zero => exact absurd hm.fits (Nat.not_lt_zero _)
  | succ m ih =>
    refine (hinner .default s hs).bind (fun argument s' _ used heq hused => ?_) (productive_star _)
      (((headed_oneOf _).mul _).separates_star (by simp [followers]) (Set.subset_insert _ _))
    refine Reads.currentKind_bind ?_
    -- The star is opened once: a comma chooses another argument, anything else ends the list.
    rw [← Language.one_add_self_mul_kstar_eq_kstar, mul_assoc]
    by_cases hcomma : s'.cursor.current.kind = .comma
    · rw [if_pos hcomma]
      refine Reads.widen ?_ (.present (by simp [hcomma]) _)
      refine Reads.advance_bind (hs.of_append heq) (List.mem_singleton.2 hcomma) (by decide)
        (fun hs' => ?_) (productive_expression.mul (productive_star _))
      have hm' := (hm.of_headed heq headed_expression hused.mem).advance_same (by simp [hcomma])
      exact (ih hs' hm').bind_silent fun others => Parse.silent_pure _
    · rw [if_neg hcomma]
      exact (Reads.pure _ s' _).widen (.left ((headed_oneOf _).mul _) (by simpa using hcomma) _ _)

/-- The arguments of a call, up to what closes them. -/
theorem reads_arguments {s : Parser} (hs : Ready bound s) :
    Reads (Parse.arguments inner) s
      (1 + expression.words * (oneOf [.comma] * expression.words)∗) {.closeParen}ᶜ := by
  refine Reads.currentKind_bind ?_
  by_cases hclose : s.cursor.current.kind = .closeParen
  · rw [if_pos hclose]
    refine (Reads.pure _ s _).widen (.left (headed_expression.mul _) ?_ _ _)
    rw [hclose]
    decide
  · rw [if_neg hclose]
    refine Reads.remaining_bind ?_
    refine Reads.widen ?_ (.present (by simpa using hclose) _)
    refine (reads_argumentsWithin hinner _ hs ⟨hs.ends, Nat.lt_succ_self _⟩).mono ?_
    simp [followers, Set.subset_def]

/-- What follows the name in a call. -/
theorem reads_callAfter (callee : Token) {s : Parser} (hs : Ready bound s) (F : Set TokenKind) :
    Reads (callAfter inner callee) s Form.arguments.words F := by
  refine Reads.silent_bind (Parse.silent_resolve _ _) fun _ s₁ hs₁ => ?_
  rw [Form.words_arguments]
  refine Reads.expect_bind (hs.of_cursor_eq hs₁) (by decide) (fun _ hs₂ => ?_)
    ((productive_one.add _).mul (productive_oneOf _ _))
  exact (reads_arguments hinner hs₂).bind_expect hs₂ (by decide) (by simp)
    fun _ _ => Parse.silent_pure _

/-- A name, or a call if a parenthesis follows the name. -/
theorem reads_nameOrCall {s : Parser} (hs : Ready (bound + 1) s) :
    Reads (Parse.nameOrCall inner) s (operandWords .name) {.openParen} := by
  refine Reads.peekKind_bind ?_
  by_cases hpeek : s.cursor.peekKind = .openParen
  · rw [if_pos hpeek]
    refine Reads.bind_silent ?_ fun node => Parse.silent_pure _
    refine Reads.expect_bind hs (by decide) (fun hkind _ => ?_) (productive_one.add _)
    have hs' := hs.advance (by simp [hkind])
    refine (reads_callAfter hinner _ hs' _).widen (.present ?_ _)
    simpa [hs.peekKind_eq (by simp [hkind])] using hpeek
  · rw [if_neg hpeek]
    refine Reads.expect_bind hs (by decide) (fun hkind _ => ?_) (productive_one.add _)
    -- A name without a parenthesis behind it has no arguments.
    refine Reads.widen (Reads.silent ((Parse.silent_resolve _ _).bind fun _ => Parse.silent_pure _)
      _ _) (.left headed_arguments ?_ _ _)
    simpa [hs.peekKind_eq (by simp [hkind])] using hpeek

/-- What stands in parentheses is an expression of power `default`, whatever the power outside is.
-/
theorem reads_grouping {s : Parser} (hs : Ready (bound + 1) s) (F : Set TokenKind) :
    Reads (Parse.grouping inner) s (operandWords .grouping) F := by
  refine Reads.expect_bind hs (by decide) (fun hkind _ => ?_)
    (productive_expression.mul (productive_oneOf _ _))
  have hs' := hs.advance (by simp [hkind])
  exact (hinner .default _ hs').bind_expect hs' (by decide) (by simp [followers])
    fun _ _ => Parse.silent_pure _

/-- The rule for the current token reads what begins with it. -/
theorem reads_operand {s : Parser} (hs : Ready (bound + 1) s) :
    Reads (Parse.operand inner .standard) s factor.words {.openParen} := by
  refine Reads.currentKind_bind ?_
  have selects (rule : OperandRule)
      (hrule : Rules.standard.operand? s.cursor.current.kind = some rule) :
      Selects s.cursor.current.kind (operandWords rule) factor.words {.openParen} :=
    ruled_factor.selects (fun w hw => mem_factor_of_mem hw) hrule _
  split
  case h_1 hnone =>
    -- A number could stand wherever an expression is expected.
    refine Reads.unexpected ?_ (ruled_factor.excludes hnone _)
    exact ⟨.integer, [], ⟨[], integer_mem_expression⟩, integer_mem_factor⟩
  case h_2 hrule => exact absurd hrule (operand?_ne_condition _)
  case h_3 hrule =>
    refine (reads_literal hs ?_ _).widen (selects _ hrule)
    exact mem_literals_of_operand? hrule
  case h_4 hrule => exact (reads_nameOrCall hinner hs).widen (selects _ hrule)
  case h_5 hrule => exact (reads_grouping hinner hs _).widen (selects _ hrule)

/-- An operand and the operators after it. -/
theorem reads_expressionOf (power : BindingPower) {s : Parser} (hs : Ready (bound + 1) s) :
    Reads (Parse.expressionOf inner .standard power) s (powerWords power) (followers power) := by
  rw [powerWords_eq]
  refine (reads_operand hinner hs).bind (fun left s' _ used heq _ => ?_)
    (productive_tailWords power) (separates_tailWords power)
  refine Reads.remaining_bind ?_
  have hs' := hs.of_append heq
  exact reads_operators hinner power _ hs' ⟨hs'.ends, Nat.lt_succ_self _⟩

end Rules

/-! ### Whole expressions -/

/-- With more levels than tokens, the place where no level is left is not reached. -/
theorem reads_expressionWithin (bound : Nat) (power : BindingPower) {s : Parser}
    (hs : Ready bound s) :
    Reads (Parse.expressionWithin .standard bound power) s (powerWords power)
      (followers power) := by
  induction bound generalizing power s with
  | zero =>
    -- There would have to be fewer than no tokens.
    exact absurd hs.fits (Nat.not_lt_zero _)
  | succ bound ih => exact reads_expressionOf (fun power s hs => ih power hs) power hs

theorem reads_expression (power : BindingPower) {bound : Nat} {s : Parser} (hs : Ready bound s) :
    Reads (Parse.expression .standard power) s (powerWords power) (followers power) :=
  Reads.remaining_bind (reads_expressionWithin _ power ⟨hs.ends, Nat.lt_succ_self _⟩)

/-- A comparison operator after a condition would go on with it. -/
theorem reads_condition {bound : Nat} {s : Parser} (hs : Ready bound s) :
    Reads (Parse.condition .standard) s condition.words
      ({kind | kind.isRelational} ∪ followers .default) := by
  rw [words_condition, Form.words_comparison]
  refine (reads_expression .default hs).bind (fun left s' _ used heq _ => ?_)
    (productive_one.add _) ?_
  · refine Reads.currentKind_bind ?_
    have hs' := hs.of_append heq
    -- A relational operator chooses the comparison, anything else the operand on its own.
    split
    case isTrue hrelational =>
      refine Reads.widen ?_ (.present (.inl hrelational) _)
      refine Reads.advance_bind hs' (isRelational_iff.1 hrelational) (by decide) (fun hs'' => ?_)
        productive_expression
      refine ((reads_expression .default hs'').mono Set.subset_union_right).bind_silent
        fun right => ?_
      exact (Parse.silent_typeOrReport _ _).bind fun type => Parse.silent_pure _
    case isFalse hrelational =>
      refine (Reads.pure _ s' _).widen (.left ((headed_oneOf _).mul _) ?_ _ _)
      exact fun hmem => hrelational (isRelational_iff.2 hmem)
  · refine (separates_one Set.subset_union_right).add (((headed_oneOf _).mul _).separates ?_ _)
    simp [followers]

end DrLang.Grammar
