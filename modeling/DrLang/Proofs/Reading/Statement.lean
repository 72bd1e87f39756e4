import DrLang.Proofs.Reading.Expression

/-!
# Statements read statements

Each rule for a statement reads the language that the grammar has for it. Statements
contain other statements only inside blocks, and the rules take the parser of a block as
an argument, so the hypothesis on that parser is the induction hypothesis of
`reads_blockWithin`.

- `reads_declaration`, `reads_simple`, `reads_checkOf`, ...: a rule each.
- `reads_allStatementsWithin`: statements up to the end of the input or of a block.
- `reads_block`: statements in braces.
-/

namespace DrLang.Grammar

open scoped Computability
open Construct

variable {bound : Nat} {s : Parser}

/-! ### Variables -/

/-- A token that may be left out. -/
theorem reads_skip (hs : Ready bound s) {kind : TokenKind} (hkind : kind ≠ .eof) :
    Reads (Parse.skip kind) s (1 + oneOf [kind]) {kind} := by
  refine Reads.currentKind_bind ?_
  split
  case isTrue h =>
    refine Reads.widen ?_ (.present (Set.mem_singleton_iff.2 h) _)
    have hadvance := Reads.advance hs (List.mem_singleton.2 h) (by simpa using hkind.symm) {kind}
    exact (hadvance.bind_silent fun _ => Parse.silent_pure ()).congr rfl
  case isFalse h =>
    exact (Reads.pure () s _).widen (.left (headed_oneOf _) (by simpa using h) _ _)

theorem reads_storedValue (hs : Ready bound s) :
    Reads (Parse.storedValue .standard) s Form.store.words (followers .default) := by
  rw [Form.words_store]
  refine (reads_skip hs (by decide)).bind (fun _ s' _ used heq _ => ?_)
    ((productive_oneOf _ _).mul productive_expression)
    (((headed_oneOf _).mul _).separates (by simp) _)
  refine Reads.expect_bind (hs.of_append heq) (by decide) (fun _ hs'' => ?_) productive_expression
  exact reads_expression .default hs''

/-- A value or none: `.dollar` and `.assignment` would go on with the empty word. -/
theorem reads_initializer (hs : Ready bound s) (name : Token) (type : DataType) :
    Reads (Parse.initializer .standard name type) s (1 + Form.store.words)
      ({.dollar, .assignment} ∪ followers .default) := by
  have reads_value : Reads (do
      let value ← Parse.storedValue .standard
      Parse.checkStore .initialization name type value.type
      return [value.node]) s Form.store.words ({.dollar, .assignment} ∪ followers .default) := by
    refine ((reads_storedValue hs).mono Set.subset_union_right).bind_silent fun value => ?_
    exact (Parse.silent_checkStore _ _ _ _).bind fun _ => Parse.silent_pure _
  refine Reads.currentKind_bind ?_
  -- What opens a store tells it from nothing at all.
  split
  case h_1 h => exact reads_value.widen (.present (by simp [h]) _)
  case h_2 h => exact reads_value.widen (.present (by simp [h]) _)
  case h_3 hdollar hassignment =>
    refine (Reads.pure _ s _).widen (.left headed_store ?_ _ _)
    simpa using And.intro hdollar hassignment

/-- A declaration ends at its semicolon, so any token may follow: `F` is arbitrary, here and
below. -/
theorem reads_declaration (hs : Ready bound s)
    (hkind : s.cursor.current.kind ∈ [.file, .duration, .note, .status]) (F : Set TokenKind) :
    Reads (Parse.declaration .standard) s declaration.words F := by
  have htypes : ∀ kind ∈ [.file, .duration, .note, .status],
      (DataType.ofKeyword? kind).isSome := by decide
  obtain ⟨type, htype⟩ := Option.isSome_iff_exists.1 (htypes _ hkind)
  rw [words_declaration]
  refine Reads.advance_bind hs hkind (by decide) (fun hs₁ => ?_) ((productive_oneOf _ _).mul
    ((productive_one.add _).mul (productive_oneOf _ _)))
  rw [htype]
  refine Reads.expect_bind hs₁ (by decide) (fun _ hs₂ => ?_)
    ((productive_one.add _).mul (productive_oneOf _ _))
  refine Reads.silent_bind (Parse.silent_bindName _) fun _ s₃ hs₃ => ?_
  have hs₃ := hs₂.of_cursor_eq hs₃
  exact (reads_initializer hs₃ _ type).bind_expect hs₃ (by decide) (by simp [followers])
    fun _ _ => Parse.silent_pure _

/-! ### Statements that begin with a name -/

/-- What follows the name in a simple statement. -/
def afterName : Language TokenKind :=
  Form.store.words + oneOf [.plusPlus, .minusMinus] + Form.arguments.words

theorem productive_afterName : Productive afterName :=
  (productive_store.add _).add _

/-- The tokens by which `Parse.simple` tells three statements apart. -/
theorem headed_afterName :
    Headed afterName
      {kind | kind ∈ [.dollar, .assignment, .plusPlus, .minusMinus, .openParen]} := by
  refine ((headed_store.mono ?_).add ((headed_oneOf _).mono ?_)).add (headed_arguments.mono ?_) <;>
    simp +contextual [Set.subset_def]

/-- The token after a name tells which of the simple statements is meant. -/
theorem selects_afterName {kind : TokenKind} (F : Set TokenKind) :
    (kind ∈ [.dollar, .assignment] → Selects kind Form.store.words afterName F) ∧
    (kind ∈ [.plusPlus, .minusMinus] → Selects kind (oneOf [.plusPlus, .minusMinus]) afterName F) ∧
    (kind ∈ [.openParen] → Selects kind Form.arguments.words afterName F) := by
  have hstore : kind ∉ [.dollar, .assignment] →
      Selects kind (oneOf [.plusPlus, .minusMinus])
        (Form.store.words + oneOf [.plusPlus, .minusMinus]) F :=
    fun h => .right headed_store h _ _
  have harguments : kind ∉ [.openParen] →
      Selects kind (Form.store.words + oneOf [.plusPlus, .minusMinus]) afterName F :=
    fun h => .left headed_arguments h _ _
  refine ⟨fun h => ?_, fun h => ?_, fun h => ?_⟩
  · refine Selects.trans (.left (headed_oneOf _) ?_ _ _) (harguments ?_) <;>
      rcases List.mem_pair.1 h with rfl | rfl <;> decide
  · refine (hstore ?_).trans (harguments ?_) <;>
      rcases List.mem_pair.1 h with rfl | rfl <;> decide
  · obtain rfl := List.mem_singleton.1 h
    exact .right ((headed_store.mono Set.subset_union_left).add
      ((headed_oneOf _).mono Set.subset_union_right)) (by simp) _ _

/-- An assignment reads the first of the alternatives of `afterName`; `hpeek` selects it. -/
theorem reads_assignment (hs : Ready bound s) (hkind : s.cursor.current.kind = .identifier)
    (hpeek : s.cursor.peekKind ∈ [.dollar, .assignment]) (site : StoreSite) :
    Reads (Parse.assignment .standard site) s (oneOf [.identifier] * afterName)
      (followers .default) := by
  refine Reads.advance_bind hs (List.mem_singleton.2 hkind) (by decide) (fun hs' => ?_)
    productive_afterName
  rw [hs.peekKind_eq (by simp [hkind])] at hpeek
  refine Reads.widen ?_ ((selects_afterName _).1 hpeek)
  refine Reads.silent_bind (Parse.silent_boundType? _ _) fun type? s'' hs'' => ?_
  refine (reads_storedValue (hs'.of_cursor_eq hs'')).bind_silent fun value => ?_
  exact (Parse.silent_checkStore? _ _ _ _).bind fun _ => Parse.silent_pure _

/-- A step reads the second alternative of `afterName`. -/
theorem reads_step (hs : Ready bound s) (hkind : s.cursor.current.kind = .identifier)
    (hpeek : s.cursor.peekKind ∈ [.plusPlus, .minusMinus]) (F : Set TokenKind) :
    Reads Parse.step s (oneOf [.identifier] * afterName) F := by
  refine Reads.advance_bind hs (List.mem_singleton.2 hkind) (by decide) (fun hs' => ?_)
    productive_afterName
  rw [hs.peekKind_eq (by simp [hkind])] at hpeek
  refine Reads.widen ?_ ((selects_afterName _).2.1 hpeek)
  refine Reads.silent_bind (Parse.silent_resolve _ _) fun type s'' hs'' => ?_
  have hkind' : s''.cursor.current.kind ∈ [.plusPlus, .minusMinus] := by
    rw [hs'']
    exact hpeek
  exact (Reads.advance (hs'.of_cursor_eq hs'') hkind' (by decide) F).bind_silent
    fun _ => Parse.silent_pure _

/-- A call reads the third alternative of `afterName`. -/
theorem reads_callStatement (hs : Ready bound s) (hkind : s.cursor.current.kind = .identifier)
    (hpeek : s.cursor.peekKind ∈ [.openParen]) (F : Set TokenKind) :
    Reads (Parse.call .standard) s (oneOf [.identifier] * afterName) F := by
  refine Reads.expect_bind hs (by decide) (fun _ hs' => ?_) productive_afterName
  rw [hs.peekKind_eq (by simp [hkind])] at hpeek
  refine Reads.widen ?_ ((selects_afterName _).2.2 hpeek)
  exact reads_callAfter (fun power _ hs => reads_expression power hs) _ hs' F

/-- A simple statement, by the token behind its name. With none of the five tokens of
`headed_afterName` there, the parse fails behind the name, and `assignmentOrCall` is what it
awaits. -/
theorem reads_simple (hs : Ready bound s) (site : StoreSite) :
    Reads (Parse.simple .standard site) s simple.words (followers .default) := by
  refine Reads.currentKind_bind ?_
  rw [words_simple]
  split
  case isTrue hkind =>
    refine Reads.peekKind_bind ?_
    split
    case h_1 hpeek => exact reads_callStatement hs hkind (by simp [hpeek]) _
    case h_2 hpeek => exact reads_assignment hs hkind (by simp [hpeek]) site
    case h_3 hpeek => exact reads_assignment hs hkind (by simp [hpeek]) site
    case h_4 hpeek => exact reads_step hs hkind (by simp [hpeek]) _
    case h_5 hpeek => exact reads_step hs hkind (by simp [hpeek]) _
    case h_6 h₁ h₂ h₃ h₄ h₅ =>
      -- The name is taken before the token behind it is blamed.
      refine Reads.advance_bind hs (List.mem_singleton.2 hkind) (by decide) (fun hs' => ?_)
        productive_afterName
      rw [hs.peekKind_eq (by simp [hkind])] at h₁ h₂ h₃ h₄ h₅
      refine Reads.unexpected ?_ (headed_afterName.excludes ?_ _)
      · exact ⟨.plusPlus, [], by simp [Expectation.Admits], .inl (.inr ⟨_, by simp, rfl⟩)⟩
      · simpa using ⟨h₂, h₃, h₄, h₅, h₁⟩
  case isFalse hkind =>
    refine Reads.unexpected ?_ (((headed_oneOf _).mul _).excludes (by simpa using hkind) _)
    obtain ⟨w, hw⟩ := productive_afterName
    have hname : [.identifier] ∈ oneOf [.identifier] := ⟨_, List.mem_singleton_self _, rfl⟩
    have hmem : [.identifier] ++ w ∈ oneOf [.identifier] * afterName :=
      Language.append_mem_mul hname hw
    exact ⟨.identifier, w, rfl, hmem⟩

theorem reads_simpleStatement (hs : Ready bound s) (F : Set TokenKind) :
    Reads (Parse.simpleStatement .standard) s nameStatement.words F := by
  rw [words_nameStatement]
  exact (reads_simple hs .assignment).bind_expect hs (by decide) (by simp [followers])
    fun _ _ => Parse.silent_pure _

/-! ### Output, result and attachment -/

/-- A word, an expression and a semicolon: this reads both `output.words` and `submit.words`. -/
theorem reads_keywordExpression (hs : Ready bound s) {kind : TokenKind}
    (hkind : s.cursor.current.kind ∈ [kind]) (heof : .eof ∉ [kind]) (label : String)
    (F : Set TokenKind) :
    Reads (Parse.keywordExpression .standard label) s
      (oneOf [kind] * (expression.words * oneOf [.semicolon])) F := by
  refine Reads.advance_bind hs hkind heof (fun hs' => ?_)
    (productive_expression.mul (productive_oneOf _ _))
  exact (reads_expression .default hs').bind_expect hs' (by decide) (by simp [followers])
    fun _ _ => Parse.silent_pure _

theorem reads_attach (hs : Ready bound s) (hkind : s.cursor.current.kind ∈ [.attach])
    (F : Set TokenKind) : Reads Parse.attach s attach.words F := by
  rw [words_attach]
  refine Reads.advance_bind hs hkind (by decide) (fun hs' => ?_) (productive_oneOf _ _)
  exact (Reads.expect hs' (by decide) F).bind_silent fun _ => Parse.silent_pure _

/-! ### Control -/

/-- A condition may be followed by a comparison, unless it has one; so comparison operators are
kept from what follows. -/
theorem reads_gate (hs : Ready bound s) (keyword : Token) :
    Reads (Parse.gate .standard keyword) s condition.words
      ({kind | kind.isRelational} ∪ followers .default) :=
  (reads_condition hs).bind_silent fun _ =>
    (Parse.silent_reportViolation _ _).bind fun _ => Parse.silent_pure _

/-- A condition ends before a token that goes on with neither it nor its last expression. -/
theorem separates_condition {kind : TokenKind} (h : kind ∉ followers .default)
    (hkind : kind.isRelational = false) (L : Language TokenKind) (G : Set TokenKind) :
    Separates (oneOf [kind] * L) G ({kind | kind.isRelational} ∪ followers .default) := by
  refine ((headed_oneOf _).mul _).separates (fun k hk => ?_) G
  obtain rfl := List.mem_singleton.1 hk
  simp [h, hkind]

section Body

variable {body : Parse Node}
  (hbody : ∀ s F, Ready bound s → Reads body s block.words F)
include hbody

/-- A branch. Only `.reject`, the word of an alternative, would go on with it. -/
theorem reads_checkOf (hs : Ready bound s) (hkind : s.cursor.current.kind ∈ [.check]) :
    Reads (Parse.checkOf .standard body) s check.words {.reject} := by
  have hbranch : Productive (block.words * (1 + oneOf [.reject] * block.words)) :=
    productive_block.mul (productive_one.add _)
  rw [words_check]
  refine Reads.advance_bind hs hkind (by decide) (fun hs₁ => ?_)
    ((productive_oneOf _ _).mul (productive_condition.mul ((productive_oneOf _ _).mul hbranch)))
  refine Reads.expect_bind hs₁ (by decide) (fun _ hs₂ => ?_)
    (productive_condition.mul ((productive_oneOf _ _).mul hbranch))
  refine (reads_gate hs₂ _).bind (fun decision s₃ _ _ heq _ => ?_)
    ((productive_oneOf _ _).mul hbranch) (separates_condition (by simp [followers]) rfl _ _)
  refine Reads.expect_bind (hs₂.of_append heq) (by decide) (fun _ hs₄ => ?_) hbranch
  -- A block ends at its brace, whatever stands behind it.
  refine (hbody _ ∅ hs₄).bind (fun node s₅ _ _ heq' _ => ?_) (productive_one.add _)
    (separates_empty _ _)
  refine Reads.currentKind_bind ?_
  split
  case isTrue hreject =>
    refine Reads.widen ?_ (.present (Set.mem_singleton_iff.2 hreject) _)
    refine Reads.advance_bind (hs₄.of_append heq') (List.mem_singleton.2 hreject) (by decide)
      (fun hs₆ => ?_) productive_block
    exact (hbody _ _ hs₆).bind_silent fun _ => Parse.silent_pure _
  case isFalse hreject =>
    exact (Reads.pure _ s₅ _).widen (.left ((headed_oneOf _).mul _) (by simpa using hreject) _ _)

theorem reads_reworkOf (hs : Ready bound s) (hkind : s.cursor.current.kind ∈ [.rework])
    (F : Set TokenKind) : Reads (Parse.reworkOf .standard body) s rework.words F := by
  rw [words_rework]
  refine Reads.advance_bind hs hkind (by decide) (fun hs₁ => ?_) ((productive_oneOf _ _).mul
    (productive_condition.mul ((productive_oneOf _ _).mul productive_block)))
  refine Reads.expect_bind hs₁ (by decide) (fun _ hs₂ => ?_)
    (productive_condition.mul ((productive_oneOf _ _).mul productive_block))
  refine (reads_gate hs₂ _).bind (fun decision s₃ _ _ heq _ => ?_)
    ((productive_oneOf _ _).mul productive_block)
    (separates_condition (by simp [followers]) rfl _ _)
  refine Reads.expect_bind (hs₂.of_append heq) (by decide) (fun _ hs₄ => ?_) productive_block
  exact (hbody _ F hs₄).bind_silent fun _ => Parse.silent_pure _

/-- A loop with a counter. In the parentheses the class of the current token is tested before the
declaration is parsed, so that a failure there awaits a declaration. -/
theorem reads_checklistOf (hs : Ready bound s) (hkind : s.cursor.current.kind ∈ [.checklist])
    (F : Set TokenKind) : Reads (Parse.checklistOf .standard body) s checklist.words F := by
  -- Whatever is awaited in the header, the rest of the loop can still follow.
  have hclosed : Productive (oneOf [.closeParen] * block.words) :=
    (productive_oneOf _ _).mul productive_block
  have hupdate : Productive (oneOf [.semicolon] * (simple.words *
      (oneOf [.closeParen] * block.words))) :=
    (productive_oneOf _ _).mul (productive_simple.mul hclosed)
  have hdecision := productive_condition.mul hupdate
  rw [words_checklist]
  refine Reads.advance_bind hs hkind (by decide) (fun hs₁ => ?_)
    ((productive_oneOf _ _).mul (productive_declaration.mul hdecision))
  refine Reads.expect_bind hs₁ (by decide) (fun _ hs₂ => ?_) (productive_declaration.mul hdecision)
  -- Opening a frame takes no token, so the cursor stands where it stood.
  refine Reads.silent_bind Parse.silent_enterScope fun _ s₃ heq₃ => ?_
  have hs₃ := hs₂.of_cursor_eq heq₃
  refine Reads.currentKind_bind ?_
  split
  case isTrue htype =>
    refine (reads_declaration hs₃ (isTypeKeyword_iff.1 htype) ∅).bind
      (fun counter s₄ _ _ heq₄ _ => ?_) hdecision (separates_empty _ _)
    have hs₄ := hs₃.of_append heq₄
    refine (reads_gate hs₄ _).bind (fun decision s₅ _ _ heq₅ _ => ?_) hupdate
      (separates_condition (by simp [followers]) rfl _ _)
    refine Reads.expect_bind (hs₄.of_append heq₅) (by decide) (fun _ hs₆ => ?_)
      (productive_simple.mul hclosed)
    refine (reads_simple hs₆ .update).bind (fun update s₇ _ _ heq₇ _ => ?_) hclosed
      (((headed_oneOf _).mul _).separates (by simp [followers]) _)
    refine Reads.expect_bind (hs₆.of_append heq₇) (by decide) (fun _ hs₈ => ?_) productive_block
    exact (hbody _ F hs₈).bind_silent fun _ =>
      Parse.silent_exitScope.bind fun _ => Parse.silent_pure _
  case isFalse htype =>
    -- No declaration begins here, and that is what the error names.
    refine Reads.unexpected ?_ ((headed_declaration.mul _).excludes ?_ _)
    · have hawaits : Awaits declaration.words [] .declaration :=
        awaits_of_headed productive_declaration headed_declaration fun _ z h => ⟨z, h⟩
      exact hawaits.mul_left hdecision
    · exact fun hmem => htype (isTypeKeyword_iff.2 hmem)

theorem reads_planOf (hs : Ready bound s) (hkind : s.cursor.current.kind ∈ [.plan])
    (F : Set TokenKind) : Reads (Parse.planOf body) s plan.words F := by
  have hclosed := (productive_oneOf .closeParen []).mul productive_block
  rw [words_plan]
  refine Reads.advance_bind hs hkind (by decide) (fun hs₁ => ?_)
    ((productive_oneOf _ _).mul ((productive_oneOf _ _).mul hclosed))
  refine Reads.expect_bind hs₁ (by decide) (fun _ hs₂ => ?_) ((productive_oneOf _ _).mul hclosed)
  refine Reads.expect_bind hs₂ (by decide) (fun _ hs₃ => ?_) hclosed
  refine Reads.expect_bind hs₃ (by decide) (fun _ hs₄ => ?_) productive_block
  refine Reads.silent_bind (Parse.silent_noteEntryPoint _) fun _ s₅ heq₅ => ?_
  refine Reads.silent_bind Parse.silent_enterScope fun _ s₆ heq₆ => ?_
  exact (hbody _ F (hs₄.of_cursor_eq (heq₆.trans heq₅))).bind_silent fun _ =>
    Parse.silent_exitScope.bind fun _ => Parse.silent_pure _

/-! ### One statement -/

/-- The rule for the current token reads what begins with it. -/
theorem reads_statementOf (hs : Ready bound s) :
    Reads (Parse.statementOf .standard body) s statement.words {.reject} := by
  refine Reads.currentKind_bind ?_
  have selects {rule : StatementRule}
      (hrule : Rules.standard.statement? s.cursor.current.kind = some rule) :
      Selects s.cursor.current.kind (statementWords rule) statement.words {.reject} :=
    ruled_statement.selects (fun w hw => mem_statement_of_mem hw) hrule _
  have heads {rule : StatementRule}
      (hrule : Rules.standard.statement? s.cursor.current.kind = some rule) :
      s.cursor.current.kind ∈ statementHeads rule :=
    mem_statementHeads hrule
  split
  case h_1 hnone =>
    -- No statement begins here, and one was possible.
    refine Reads.unexpected ?_ (ruled_statement.excludes hnone _)
    exact awaits_of_headed productive_statement ruled_statement.headed
      fun _ z h => ⟨z, h⟩
  -- The table names neither the rule for statements themselves nor the one for bare calls.
  case h_2 hrule => exact absurd (heads hrule) List.not_mem_nil
  case h_3 hrule => exact (reads_declaration hs (heads hrule) _).widen (selects hrule)
  case h_4 hrule => exact (reads_simpleStatement hs _).widen (selects hrule)
  case h_5 hrule => exact (reads_checkOf hbody hs (heads hrule)).widen (selects hrule)
  case h_6 hrule => exact (reads_reworkOf hbody hs (heads hrule) _).widen (selects hrule)
  case h_7 hrule => exact (reads_checklistOf hbody hs (heads hrule) _).widen (selects hrule)
  case h_8 hrule =>
    refine Reads.widen ?_ (selects hrule)
    rw [statementWords, words_output]
    exact reads_keywordExpression hs (heads hrule) (by decide) _ _
  case h_9 hrule =>
    refine Reads.widen ?_ (selects hrule)
    rw [statementWords, words_submit]
    exact reads_keywordExpression hs (heads hrule) (by decide) _ _
  case h_10 hrule => exact (hbody s _ hs).widen (selects hrule)
  case h_11 hrule => exact (reads_attach hs (heads hrule) _).widen (selects hrule)
  case h_12 hrule => exact (reads_planOf hbody hs (heads hrule) _).widen (selects hrule)
  case h_13 hrule => exact absurd (heads hrule) List.not_mem_nil

/-! ### Lists and blocks -/

/-- Whatever token is not taken, a statement could begin there if it does not close the
list. -/
theorem reads_allStatementsWithin (m : Nat) (hs : Ready bound s) (hm : Ready m s) :
    Reads (Parse.allStatementsWithin .standard body m) s statements.words
      {kind | kind ≠ .eof ∧ kind ≠ .closeCurly} := by
  have hheaded : Headed (statement.words * statement.words∗) _ := ruled_statement.headed.mul _
  induction m generalizing s with
  | zero => exact absurd hm.fits (Nat.not_lt_zero _)
  | succ m ih =>
    rw [words_statements, ← Language.one_add_self_mul_kstar_eq_kstar]
    by_cases hclosed : s.cursor.current.kind = .eof ∨ s.cursor.current.kind = .closeCurly
    · refine ((Reads.pure [] s _).widen (.left hheaded ?_ _ _)).congr ?_
      · rcases hclosed with h | h <;> rw [h] <;> decide
      · rw [Parse.runFrom_allStatementsWithin_succ, if_pos hclosed, Parse.runFrom_pure]
    · refine Reads.congr ((Parse.runFrom_allStatementsWithin_succ _ _ m s).trans
        (if_neg hclosed)) ?_
      refine Reads.widen ?_ (.present (by simpa using hclosed) _)
      refine (reads_statementOf hbody hs).bind (fun node s' _ used heq hused => ?_)
        (productive_star _) (ruled_statement.headed.separates_star ?_ (by simp))
      · have hm' := hm.of_headed heq ruled_statement.headed hused.mem
        have hothers := ih (hs.of_append heq) hm'
        rw [words_statements] at hothers
        exact hothers.bind_silent fun _ => Parse.silent_pure _
      · -- No statement begins with the word of an alternative.
        intro kind hkind hreject
        obtain rfl := Set.mem_singleton_iff.1 hreject
        exact absurd hkind (by decide)

/-- Statements end at a brace or at the end of the input; any other token would go on with them,
or is blamed. -/
theorem reads_allStatementsOf (hs : Ready bound s) :
    Reads (Parse.allStatementsOf .standard body) s statements.words
      {kind | kind ≠ .eof ∧ kind ≠ .closeCurly} :=
  (reads_allStatementsWithin hbody _ hs ⟨hs.ends, Nat.lt_succ_self _⟩).congr
    (Parse.runFrom_allStatementsOf _ _ s)

theorem reads_blockOf (hs : Ready (bound + 1) s) (F : Set TokenKind) :
    Reads (Parse.blockOf .standard body) s block.words F := by
  rw [words_block]
  refine Reads.expect_bind hs (by decide) (fun hkind _ => ?_) (?_ : Productive _)
  · have hs₁ := hs.advance (by simp [hkind])
    refine Reads.silent_bind Parse.silent_enterScope fun _ s₂ heq₂ => ?_
    have hs₂ := hs₁.of_cursor_eq heq₂
    exact (reads_allStatementsOf hbody hs₂).bind_expect hs₂ (by decide) (by simp)
      fun _ _ => Parse.silent_exitScope.bind fun _ => Parse.silent_pure _
  · rw [words_statements]
    exact (productive_star _).mul (productive_oneOf _ _)

end Body

/-- With more levels than tokens, the place where no level is left is not reached. -/
theorem reads_blockWithin (bound : Nat) {s : Parser} (hs : Ready bound s) (F : Set TokenKind) :
    Reads (Parse.blockWithin .standard bound) s block.words F := by
  induction bound generalizing s F with
  | zero => exact absurd hs.fits (Nat.not_lt_zero _)
  | succ bound ih => exact reads_blockOf (fun s F hs => ih hs F) hs F

theorem reads_block (hs : Ready bound s) (F : Set TokenKind) :
    Reads (Parse.block .standard) s block.words F :=
  Reads.remaining_bind (reads_blockWithin _ ⟨hs.ends, Nat.lt_succ_self _⟩ F)

/-- The statements of a program, up to the end of the input. -/
theorem reads_statements (hs : Ready bound s) :
    Reads (Parse.allStatementsOf .standard (Parse.block .standard)) s statements.words
      {kind | kind ≠ .eof ∧ kind ≠ .closeCurly} :=
  reads_allStatementsOf (fun _ F hs => reads_block hs F) hs

end DrLang.Grammar
