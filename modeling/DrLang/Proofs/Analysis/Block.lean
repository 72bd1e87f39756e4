import DrLang.Proofs.Analysis.Statement

/-!
# Statements with blocks are analysed as they are parsed

A block is walked from the situation inside a new frame, and what the walk of its
statements finds is kept when the frame is closed, except for the scope. So the walk needs
nothing but the scope around a block, where the parse closes a frame that it opened.

- `ExplainsBlock`: the walk of a block is what a parse from one state to another did.
- `ensures_checkOf`, `ensures_checklistOf`, ...: a rule each, for any parser of a block.
- `ensures_statementOf`: the rule for the first token.
- `ensures_block`: the recursion through blocks.
-/

namespace DrLang.Analysis

variable {s s' s₁ s₂ : Parser} {n : Node}

/-- The walk of a block is what a parse from one state to another did. -/
def ExplainsBlock (s s' : Parser) (n : Node) : Prop :=
  n.label = "Block" ∧ Accounts s s' (block s.situation n.outline) n

/-- The same of blocks, one after the other. -/
def ExplainsBlocks (s s' : Parser) (ns : List Node) : Prop :=
  Accounts s s' (blocks s.situation (ns.map Node.outline)) ns

/-- The same of statements, one after the other. -/
def ExplainsStatements (s s' : Parser) (ns : List Node) : Prop :=
  Accounts s s' (statements s.situation (ns.map Node.outline)) ns

/-! ### The walk of a statement with blocks, by its form -/

section Walk

variable {here : Situation} {label construct : String} {line : Nat} {body decision : Node}
  {bodies nodes : List Node} {errors : List SemanticError}

theorem statement_block (h : n.label = "Block") :
    statement here n.outline = block here n.outline := by
  obtain ⟨label, type, line, children⟩ := n
  obtain rfl : label = "Block" := h
  rfl

/-- The walk of a block that the parse has made: its statements, in a frame that `Outcome.close`
closes behind them. -/
theorem block_group :
    block here (Node.group "Block" line nodes).outline =
      (statements here.frame (nodes.map Node.outline)).close here (.group "Block" line) := by
  rw [Node.group, Node.outline_mk (by decide)]
  rfl

/-- The walk of a branch or a loop that the parse has made. The blocks follow the condition, each
in a frame of its own. -/
theorem statement_gated (hshape : statementShape label = .gated construct)
    (h : gate construct here.scope decision.outline = (decision, errors)) :
    statement here (Node.group label line (decision :: bodies)).outline =
      let inside := blocks here (bodies.map Node.outline)
      ⟨.group label line (decision :: inside.result), inside.behind, inside.symbols,
        errors ++ inside.errors⟩ := by
  have hlabel : label ≠ "Declaration" := by
    rintro rfl
    exact StatementShape.noConfusion hshape
  rw [Node.group, Node.outline_mk hlabel, List.map_cons, statement.eq_def]
  simp only [hshape, h]

/-- The walk of an entry point that the parse has made: its frame is opened between the note of
its line and its block. -/
theorem statement_plan :
    statement here (Node.group "PlanMain" line [body]).outline =
      let noted := entryPoint here line
      ((block noted.behind.frame body.outline).close noted.behind fun body =>
        .group "PlanMain" line [body]).after noted.errors := rfl

/-- The walk of a loop with a counter that the parse has made. The counter is declared in a frame
of its own, which is around the block too. -/
theorem statement_counted {counter update : Node} {errors' : List SemanticError}
    (hdecision : gate "CHECKLIST" (declaration here.frame counter.outline).behind.scope
      decision.outline = (decision, errors))
    (hupdate : simple .update (declaration here.frame counter.outline).behind.scope
      update.outline = (update, errors')) :
    statement here (Node.group "FOR" line [counter, decision, update, body]).outline =
      let counter := declaration here.frame counter.outline
      (counted "FOR" line counter (decision, errors) (update, errors')
        (block counter.behind body.outline)).close here id := by
  have hwalk : statement here (Node.group "FOR" line [counter, decision, update, body]).outline =
      let counter := declaration here.frame counter.outline
      (counted "FOR" line counter (gate "CHECKLIST" counter.behind.scope decision.outline)
        (simple .update counter.behind.scope update.outline)
        (block counter.behind body.outline)).close here id := rfl
  simp only [hwalk, hdecision, hupdate]

end Walk

/-! ### Conditions and their blocks -/

/-- A keyword and a condition in parentheses, and what comes behind them. -/
theorem ensures_header_bind {β : Type} {f : Token → Node → Parse β} {R : β → Parser → Prop}
    (hs : s.Fit) {word : String}
    (hword : (word, s.cursor.current.kind) ∈ conditionWords)
    (hf : ∀ decision errors s', gate word s.situation.scope decision.outline = (decision, errors) →
      Keeps s s' errors → Ensures (f s.cursor.current decision) s' R) :
    Ensures (do
      let keyword ← Parse.advance
      let _ ← Parse.expect .openParen
      let decision ← Parse.gate .standard keyword
      let _ ← Parse.expect .closeParen
      f keyword decision) s R := by
  refine ensures_advance.bind fun keyword s₁ h => ?_
  obtain ⟨rfl, hkeeps₁⟩ := h
  refine (ensures_expect _).bind fun _ s₂ h => ?_
  obtain ⟨-, -, hkeeps₂⟩ := h
  have hkeeps := hkeeps₁.trans hkeeps₂
  refine (ensures_gate (hkeeps.fit hs) _).bind fun decision s₃ h => ?_
  obtain ⟨errors, hwalk, hkeeps₃⟩ := h
  refine (ensures_expect _).bind fun _ s₄ h => ?_
  obtain ⟨-, -, hkeeps₄⟩ := h
  have hheader := (hkeeps.trans hkeeps₃).before_tokens hkeeps₄
  -- The analysis reads the gate in the scope at the keyword: the tokens between bind nothing.
  rw [hkeeps.symbols, value_of_fits hs.current hword] at hwalk
  exact hf decision errors s₄ hwalk hheader

/-- Branches and loops, from their conditions and their blocks: `statement_gated` for the walk,
`Extends.trans` for the parse. -/
theorem explains_gated {label construct : String} {line : Nat} {decision : Node}
    {bodies : List Node} {errors : List SemanticError}
    (hshape : statementShape label = .gated construct)
    (hwalk : gate construct s.situation.scope decision.outline = (decision, errors))
    (hkeeps : Keeps s s₁ errors) (hbodies : ExplainsBlocks s₁ s' bodies) :
    ExplainsStatement s s' (.group label line (decision :: bodies)) := by
  rw [ExplainsBlocks, hkeeps.situation] at hbodies
  rw [ExplainsStatement, statement_gated hshape hwalk]
  exact ⟨congrArg (fun bodies => Node.group label line (decision :: bodies)) hbodies.result,
    hbodies.behind, hkeeps.extends.trans hbodies.added⟩

/-- A loop with a counter, from its parts; its frame is not closed yet. -/
theorem accounts_counted (label : String) (line : Nat) (decision update : Node)
    {counter body : Outcome Node} {c b : Node} {errors errors' : List SemanticError}
    (hcounter : Accounts s s₁ counter c) (hheader : Keeps s₁ s₂ (errors ++ errors'))
    (hbody : Accounts s₂ s' body b) :
    Accounts s s' (counted label line counter (decision, errors) (update, errors') body)
      (.group label line [c, decision, update, b]) := by
  refine ⟨?_, hbody.behind, ?_⟩
  · rw [counted, hcounter.result, hbody.result]
  · have hadded := (hcounter.added.trans hheader.extends).trans hbody.added
    simpa [counted, List.append_assoc] using hadded

/-- The walk of the header of a loop, inside the frame of its variable. -/
def ExplainsHeader (s s' : Parser) (counter decision update : Node) : Prop :=
  ∃ s₁ errors errors', Accounts s s₁ (declaration s.situation counter.outline) counter ∧
    gate "CHECKLIST" (declaration s.situation counter.outline).behind.scope decision.outline =
      (decision, errors) ∧
    simple .update (declaration s.situation counter.outline).behind.scope update.outline =
      (update, errors') ∧
    Keeps s₁ s' (errors ++ errors')

/-- The header of a loop, and what comes behind it. -/
theorem ensures_loopHeader_bind {β : Type} {f : Node → Node → Node → Parse β}
    {R : β → Parser → Prop} (hs : s.Fit) {keyword : Token} (hkeyword : keyword.value = "CHECKLIST")
    (hf : ∀ counter decision update s', ExplainsHeader s s' counter decision update →
      Ensures (f counter decision update) s' R) :
    Ensures (do
      let counter ← Parse.declaration .standard
      let decision ← Parse.gate .standard keyword
      let _ ← Parse.expect .semicolon
      let update ← Parse.simple .standard .update
      let _ ← Parse.expect .closeParen
      f counter decision update) s R := by
  refine (ensures_declaration hs).bind fun counter s₁ h => ?_
  obtain ⟨-, hcounter⟩ := h
  -- The condition and the update have the variable in sight.
  have hscope : s₁.symbols.scope = (declaration s.situation counter.outline).behind.scope :=
    congrArg Situation.scope hcounter.behind.symm
  have hfit₁ := hcounter.added.fit hs
  refine (ensures_gate hfit₁ _).bind fun decision s₂ h => ?_
  obtain ⟨errors, hdecision, hkeeps₂⟩ := h
  rw [hkeyword, hscope] at hdecision
  refine (ensures_expect _).bind fun _ s₃ h => ?_
  obtain ⟨-, -, hkeeps₃⟩ := h
  have hkeeps := hkeeps₂.before_tokens hkeeps₃
  refine (ensures_simple .update (hkeeps.fit hfit₁)).bind fun update s₄ h => ?_
  obtain ⟨-, errors', hupdate, hkeeps₄⟩ := h
  rw [hkeeps.symbols, hscope] at hupdate
  refine (ensures_expect _).bind fun _ s₅ h => ?_
  obtain ⟨-, -, hkeeps₅⟩ := h
  exact hf counter decision update s₅ ⟨s₁, errors, errors', hcounter, hdecision, hupdate,
    (hkeeps.trans hkeeps₄).before_tokens hkeeps₅⟩

theorem explainsBlocks_nil (s : Parser) : ExplainsBlocks s s [] :=
  (Keeps.refl s).accounts rfl

theorem explainsBlocks_cons {ns : List Node} (hfirst : ExplainsBlock s s₁ n)
    (hothers : ExplainsBlocks s₁ s' ns) : ExplainsBlocks s s' (n :: ns) := by
  rw [ExplainsBlocks, ← hfirst.2.behind] at hothers
  show Accounts s s' ((block s.situation n.outline).cons (blocks _ (ns.map Node.outline))) (n :: ns)
  exact hfirst.2.cons hothers

theorem explainsStatements_nil (s : Parser) : ExplainsStatements s s [] :=
  (Keeps.refl s).accounts rfl

theorem explainsStatements_cons {ns : List Node} (hfirst : ExplainsStatement s s₁ n)
    (hothers : ExplainsStatements s₁ s' ns) : ExplainsStatements s s' (n :: ns) := by
  rw [ExplainsStatements, ← hfirst.behind] at hothers
  show Accounts s s' ((statement s.situation n.outline).cons
    (statements _ (ns.map Node.outline))) (n :: ns)
  exact hfirst.cons hothers

section Rules

variable {parseBody : Parse Node}
  (hbody : ∀ s : Parser, s.Fit → Ensures parseBody s fun n s' => ExplainsBlock s s' n)
include hbody

/-- A branch with one block or two. The name that an error would give to it is the text of its
word, which `Token.Fits` tells. -/
theorem ensures_checkOf (hs : s.Fit) (hkind : s.cursor.current.kind = .check) :
    Ensures (Parse.checkOf .standard parseBody) s fun n s' => ExplainsStatement s s' n := by
  have hword : ("CHECK", s.cursor.current.kind) ∈ conditionWords := by
    rw [hkind]
    decide
  refine ensures_header_bind hs hword fun decision errors s₁ hwalk hkeeps => ?_
  refine (hbody s₁ (hkeeps.fit hs)).bind fun block s₂ hblock => ?_
  refine ensures_currentKind_bind ?_
  split
  · refine ensures_advance.bind fun _ s₃ h => ?_
    obtain ⟨-, hkeeps₃⟩ := h
    -- The word of the alternative is taken behind the first block.
    have hadded := hblock.2.added.trans hkeeps₃.extends
    refine (hbody s₃ (hadded.fit (hkeeps.fit hs))).bind fun alternative s₄ halternative => ?_
    have hblock₃ : ExplainsBlock s₁ s₃ block := ⟨hblock.1, hblock.2.before_tokens hkeeps₃⟩
    have hblocks := explainsBlocks_cons hblock₃
      (explainsBlocks_cons halternative (explainsBlocks_nil s₄))
    exact ensures_pure (explains_gated rfl hwalk hkeeps hblocks)
  · have hblocks := explainsBlocks_cons hblock (explainsBlocks_nil s₂)
    exact ensures_pure (explains_gated rfl hwalk hkeeps hblocks)

theorem ensures_reworkOf (hs : s.Fit) (hkind : s.cursor.current.kind = .rework) :
    Ensures (Parse.reworkOf .standard parseBody) s fun n s' => ExplainsStatement s s' n := by
  have hword : ("REWORK", s.cursor.current.kind) ∈ conditionWords := by
    rw [hkind]
    decide
  refine ensures_header_bind hs hword fun decision errors s₁ hwalk hkeeps => ?_
  refine (hbody s₁ (hkeeps.fit hs)).bind fun block s₂ hblock => ?_
  have hblocks := explainsBlocks_cons hblock (explainsBlocks_nil s₂)
  exact ensures_pure (explains_gated rfl hwalk hkeeps hblocks)

/-- A loop with a counter: `ExplainsHeader` is about what stands in its parentheses, and
`Accounts.close` about the frame around all of it. -/
theorem ensures_checklistOf (hs : s.Fit) (hkind : s.cursor.current.kind = .checklist) :
    Ensures (Parse.checklistOf .standard parseBody) s fun n s' => ExplainsStatement s s' n := by
  refine ensures_advance.bind fun keyword s₁ h => ?_
  obtain ⟨rfl, hkeeps₁⟩ := h
  refine (ensures_expect _).bind fun _ s₂ h => ?_
  obtain ⟨-, -, hkeeps₂⟩ := h
  have hkeeps := hkeeps₁.trans hkeeps₂
  refine ensures_enterScope.bind fun _ s₃ henters => ?_
  -- The frame is opened before the counter is declared, so the header is walked in that frame.
  have hfit₃ := henters.fit (hkeeps.fit hs)
  have hsituation : s₃.situation = s.situation.frame := by
    rw [henters.situation, hkeeps.situation]
  refine ensures_currentKind_bind ?_
  split
  case isFalse => exact ensures_unexpected _
  case isTrue =>
    have hword : ("CHECKLIST", s.cursor.current.kind) ∈ conditionWords := by
      rw [hkind]
      decide
    refine ensures_loopHeader_bind hfit₃ (value_of_fits hs.current hword)
      fun counter decision update s₄ h => ?_
    obtain ⟨s', errors, errors', hcounter, hdecision, hupdate, hheader⟩ := h
    rw [hsituation] at hcounter hdecision hupdate
    refine (hbody s₄ (hheader.fit (hcounter.added.fit hfit₃))).bind fun block s₅ h => ?_
    obtain ⟨-, hblock⟩ := h
    rw [hheader.situation, ← hcounter.behind] at hblock
    refine ensures_exitScope.bind fun _ s₆ hexits => ensures_pure ?_
    rw [ExplainsStatement, statement_counted hdecision hupdate]
    -- The frame is closed behind the block, which leaves the scope of the keyword.
    have hcounted := accounts_counted "FOR" s.cursor.current.line decision update hcounter hheader
      hblock
    have hclosed := hcounted.close henters hexits id
    rw [hkeeps.situation] at hclosed
    exact hclosed.after_tokens hkeeps

theorem ensures_planOf (hs : s.Fit) :
    Ensures (Parse.planOf parseBody) s fun n s' => ExplainsStatement s s' n := by
  refine ensures_advance.bind fun keyword s₁ h => ?_
  obtain ⟨-, hkeeps₁⟩ := h
  refine (ensures_expect _).bind fun _ s₂ h => ?_
  obtain ⟨-, -, hkeeps₂⟩ := h
  refine (ensures_expect _).bind fun _ s₃ h => ?_
  obtain ⟨-, -, hkeeps₃⟩ := h
  refine (ensures_expect _).bind fun _ s₄ h => ?_
  obtain ⟨-, -, hkeeps₄⟩ := h
  have hkeeps := ((hkeeps₁.trans hkeeps₂).trans hkeeps₃).trans hkeeps₄
  refine (ensures_noteEntryPoint _).bind fun _ s₅ hnoted => ?_
  rw [hkeeps.situation] at hnoted
  refine ensures_enterScope.bind fun _ s₆ henters => ?_
  have hfit := henters.fit (hnoted.added.fit (hkeeps.fit hs))
  refine (hbody s₆ hfit).bind fun block s₇ h => ?_
  obtain ⟨-, hblock⟩ := h
  rw [henters.situation, ← hnoted.behind] at hblock
  refine ensures_exitScope.bind fun _ s₈ hexits => ?_
  -- The frame is the one around the block, opened once the entry point is noted.
  have hclosed := hblock.close henters hexits fun body => Node.group "PlanMain" keyword.line [body]
  rw [← hnoted.behind] at hclosed
  refine ensures_pure ?_
  rw [ExplainsStatement, statement_plan]
  refine ⟨hclosed.result, hclosed.behind, ?_⟩
  have hadded := (hkeeps.extends.trans hnoted.added).trans hclosed.added
  rw [entryPoint_symbols] at hadded
  exact hadded

/-! ### Lists and blocks -/

theorem ensures_statementOf (hs : s.Fit) :
    Ensures (Parse.statementOf .standard parseBody) s fun n s' => ExplainsStatement s s' n := by
  refine ensures_currentKind_bind ?_
  have heads {rule : StatementRule}
      (hrule : Rules.standard.statement? s.cursor.current.kind = some rule) :
      s.cursor.current.kind ∈ Grammar.statementHeads rule :=
    Grammar.mem_statementHeads hrule
  split
  case h_1 => exact ensures_unexpected _
  case h_2 => exact ensures_unexpected _
  case h_3 =>
    refine (ensures_declaration hs).imp fun n s' h => ?_
    rw [ExplainsStatement, statement_declaration h.1]
    exact h.2
  case h_4 => exact ensures_simpleStatement hs
  case h_5 hrule => exact ensures_checkOf hbody hs (List.mem_singleton.1 (heads hrule))
  case h_6 hrule => exact ensures_reworkOf hbody hs (List.mem_singleton.1 (heads hrule))
  case h_7 hrule => exact ensures_checklistOf hbody hs (List.mem_singleton.1 (heads hrule))
  case h_8 => exact ensures_keywordExpression (.inl rfl) hs
  case h_9 => exact ensures_keywordExpression (.inr rfl) hs
  case h_10 =>
    refine (hbody s hs).imp fun n s' h => ?_
    rw [ExplainsStatement, statement_block h.1]
    exact h.2
  case h_11 => exact ensures_attach
  case h_12 => exact ensures_planOf hbody hs
  -- No token leads to the rule of a bare call: calls are simple statements.
  case h_13 hrule => exact absurd (heads hrule) List.not_mem_nil

/-- Statements up to the end of a list, by induction on `bound`: `explainsStatements_cons` for
each one. -/
theorem ensures_allStatementsWithin (bound : Nat) (hs : s.Fit) :
    Ensures (Parse.allStatementsWithin .standard parseBody bound) s
      fun ns s' => ExplainsStatements s s' ns := by
  induction bound generalizing s with
  | zero => exact ensures_pure (explainsStatements_nil s)
  | succ bound ih =>
    have hrun := Parse.runFrom_allStatementsWithin_succ .standard parseBody bound s
    by_cases hclosed : s.cursor.current.kind = .eof ∨ s.cursor.current.kind = .closeCurly
    · rw [if_pos hclosed] at hrun
      exact Ensures.congr hrun (ensures_pure (explainsStatements_nil s))
    · rw [if_neg hclosed] at hrun
      refine Ensures.congr hrun ?_
      -- The others are walked from the situation behind the first one.
      refine (ensures_statementOf hbody hs).bind fun n s₁ hfirst => ?_
      refine (ih (hfirst.added.fit hs)).bind fun ns s₂ hothers => ?_
      exact ensures_pure (explainsStatements_cons hfirst hothers)

/-- As `ensures_allStatementsWithin`, with the bound that the tokens left give. -/
theorem ensures_allStatementsOf (hs : s.Fit) :
    Ensures (Parse.allStatementsOf .standard parseBody) s
      fun ns s' => ExplainsStatements s s' ns :=
  (ensures_allStatementsWithin hbody _ hs).congr (Parse.runFrom_allStatementsOf _ _ s)

theorem ensures_blockOf (hs : s.Fit) :
    Ensures (Parse.blockOf .standard parseBody) s fun n s' => ExplainsBlock s s' n := by
  refine (ensures_expect _).bind fun opening s₁ h => ?_
  obtain ⟨-, -, hkeeps₁⟩ := h
  refine ensures_enterScope.bind fun _ s₂ henters => ?_
  have hfit := henters.fit (hkeeps₁.fit hs)
  refine (ensures_allStatementsOf hbody hfit).bind fun nodes s₃ hnodes => ?_
  refine (ensures_expect _).bind fun _ s₄ h => ?_
  obtain ⟨-, -, hkeeps₄⟩ := h
  refine ensures_exitScope.bind fun _ s₅ hexits => ?_
  rw [ExplainsStatements, henters.situation, hkeeps₁.situation] at hnodes
  have hclosed := (hnodes.before_tokens hkeeps₄).close henters hexits
    (Node.group "Block" opening.line)
  rw [hkeeps₁.situation, ← block_group] at hclosed
  exact ensures_pure ⟨rfl, hclosed.after_tokens hkeeps₁⟩

end Rules

/-- Blocks inside blocks, to any depth. -/
theorem ensures_blockWithin (bound : Nat) (hs : s.Fit) :
    Ensures (Parse.blockWithin .standard bound) s fun n s' => ExplainsBlock s s' n := by
  induction bound generalizing s with
  | zero => exact ensures_unexpected _
  | succ bound ih => exact ensures_blockOf (fun s hs => ih hs) hs

theorem ensures_block (hs : s.Fit) :
    Ensures (Parse.block .standard) s fun n s' => ExplainsBlock s s' n :=
  ensures_remaining_bind (ensures_blockWithin _ hs)

/-- The statements of a program. -/
theorem ensures_statements (hs : s.Fit) :
    Ensures (Parse.allStatementsOf .standard (Parse.block .standard)) s
      fun ns s' => ExplainsStatements s s' ns :=
  ensures_allStatementsOf (fun _ hs => ensures_block hs) hs

end DrLang.Analysis
