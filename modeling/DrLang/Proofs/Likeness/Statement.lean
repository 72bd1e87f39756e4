import DrLang.Proofs.Likeness.Expression
import DrLang.Proofs.Reading.Statement

/-!
# Statements in different surroundings

A statement ends at its semicolon or its brace, so nothing behind it matters, but for the word of
an alternative behind a branch. The rules take the parser of a block as an argument, and the
hypothesis on that parser is the induction hypothesis of `Alike.blockWithin`.

- `Alike.declaration`, `Alike.simpleStatement`, `Alike.checkOf`, ...: a rule each.
- `Alike.statementOf`: one statement.
- `Alike.block`, `Alike.statement`: the recursion.
-/

namespace DrLang

open Parse

namespace Alike

variable {L : Likeness} {F : Set TokenKind} {m m' : Nat} {s t : Parser}

/-! ### Variables -/

/-- A token that may be left out. It is not the end of the input, so `advance` moves both cursors.
-/
theorem skip {kind : TokenKind} (hs : Ready m s) (ht : Ready m' t) (hkind : kind ≠ .eof) :
    Alike L Set.univ (fun _ _ => True) (skip kind) (skip kind) s t := by
  refine currentKind_bind (of_token fun htoken => ?_)
  rw [← L.kind_eq htoken]
  split
  case isTrue hcurrent =>
    have htakes : Alike L Set.univ (fun _ _ => True) (advance >>= fun _ => Pure.pure ())
        (advance >>= fun _ => Pure.pure ()) s t :=
      advance_bind hs ht (hcurrent ▸ hkind) fun _ _ _ => pure trivial
    exact htakes.congr rfl rfl
  case isFalse => exact pure trivial

/-- The value that is stored behind a name, up to the token behind it. -/
theorem storedValue (hs : Ready m s) (ht : Ready m' t) :
    Alike L Set.univ L.expression (storedValue .standard) (storedValue .standard) s t := by
  refine (skip hs ht (by decide)).bind_open fun _ _ s₁ t₁ u u' hu hu' _ => ?_
  exact expect_bind (hs.of_append hu) (ht.of_append hu') (by decide) fun _ _ hs₂ ht₂ =>
    expression .default hs₂ ht₂

section Name

variable {name name' : Token} (hname : L.token name name') (hkind : name.kind = .identifier)
include hname hkind

/-- The value of a declaration or none, by the class of the current token; the value is checked by
`Likeness.store`. -/
theorem initializer (type : DataType) (hs : Ready m s) (ht : Ready m' t) :
    Alike L Set.univ L.nodes (initializer .standard name type)
      (initializer .standard name' type) s t := by
  -- The value is read behind `$` as behind `=`: the two branches are one.
  have hvalue : Alike L Set.univ L.nodes
      (do
        let value ← Parse.storedValue .standard
        checkStore .initialization name type value.type
        return [value.node])
      (do
        let value ← Parse.storedValue .standard
        checkStore .initialization name' type value.type
        return [value.node]) s t := by
    refine (storedValue hs ht).bind_open fun value value' _ _ _ _ _ _ h => ?_
    have htype : L.Same (some type) (some type) := fun _ => rfl
    have hstore := L.store .initialization hname hkind htype h.2
    exact silent_bind hstore fun _ _ _ _ _ _ _ => pure (L.nodes_cons h.1 L.nodes_nil)
  refine currentKind_bind (of_token fun htoken => ?_)
  rw [← L.kind_eq htoken]
  split
  case h_1 => exact hvalue
  case h_2 => exact hvalue
  case h_3 => exact pure L.nodes_nil

end Name

/-- Where a type stands, a declaration goes on with a name. -/
theorem runFrom_declaration {type : DataType}
    (htype : DataType.ofKeyword? s.cursor.current.kind = some type) :
    (declaration .standard).runFrom s =
      (do
        let _ ← advance
        let name ← expect .identifier
        bindName ⟨name.value, type, name.line⟩
        let value ← Parse.initializer .standard name type
        let _ ← expect .semicolon
        return Node.group "Declaration" name.line
          (.leaf name.value name.line type :: value)).runFrom s := by
  rw [declaration, runFrom_bind, runFrom_bind, runFrom_advance]
  simp only [htype]

/-- The test `isTypeKeyword` that guards a declaration and the table `ofKeyword?` of its types are
about the same words. -/
theorem exists_ofKeyword? {kind : TokenKind} (hkind : kind.isTypeKeyword) :
    ∃ type, DataType.ofKeyword? kind = some type := by
  rw [← DataType.isSome_ofKeyword?] at hkind
  exact Option.isSome_iff_exists.1 hkind

theorem suffix_declaration (hkind : s.cursor.current.kind.isTypeKeyword) :
    ((Parse.declaration .standard).runFrom s).2.cursor.tokens <:+ s.cursor.advance.tokens := by
  obtain ⟨type, htype⟩ := exists_ofKeyword? hkind
  rw [runFrom_declaration htype]
  exact suffix_advance_bind

/-- A declaration ends at its semicolon, so nothing behind it matters: `F` is any set, here and
below. -/
theorem declaration (hs : Ready m s) (ht : Ready m' t)
    (hkind : s.cursor.current.kind.isTypeKeyword)
    (htoken : L.token s.cursor.current t.cursor.current) :
    Alike L F L.node (declaration .standard) (declaration .standard) s t := by
  obtain ⟨type, htype⟩ := exists_ofKeyword? hkind
  have htype' : DataType.ofKeyword? t.cursor.current.kind = some type := L.kind_eq htoken ▸ htype
  have hne : s.cursor.current.kind ≠ .eof := by
    intro heof
    simp [heof, TokenKind.isTypeKeyword] at hkind
  refine congr (runFrom_declaration htype) (runFrom_declaration htype') ?_
  refine advance_bind hs ht hne fun _ hs₁ ht₁ => ?_
  refine expect_bind hs₁ ht₁ (by decide) fun hname hnamed hs₂ ht₂ => ?_
  -- Binding the name may report it, and moves neither cursor.
  refine silent_bind (L.binding type hnamed hname) fun _ _ s₃ t₃ hs₃ ht₃ _ => ?_
  have hs₃ := hs₂.of_cursor_eq hs₃
  have ht₃ := ht₂.of_cursor_eq ht₃
  refine (initializer hnamed hname type hs₃ ht₃).bind_expect hs₃ ht₃ (by decide)
    fun value value' _ _ hvalue _ _ _ => pure ?_
  have hlabel := L.label_name hnamed hname
  have hsame : L.Same type type := fun _ => rfl
  exact L.node_group (by decide) (L.line_token hnamed)
    (L.nodes_cons (L.node_leaf hlabel hsame (L.line_token hnamed)) hvalue)

/-! ### Statements that begin with a name -/

/-- An assignment ends with an expression, so the token behind that matters. -/
theorem assignment (site : StoreSite) (hs : Ready m s) (ht : Ready m' t)
    (hkind : s.cursor.current.kind = .identifier) :
    Alike L Set.univ L.node (assignment .standard site) (assignment .standard site) s t := by
  refine advance_bind hs ht (by simp [hkind]) fun htoken hs₁ ht₁ => ?_
  refine silent_bind (L.bound htoken hkind) fun type? type?' s₂ t₂ hs₂ ht₂ htype => ?_
  refine (storedValue (hs₁.of_cursor_eq hs₂) (ht₁.of_cursor_eq ht₂)).bind_open
    fun value value' _ _ _ _ _ _ hvalue => ?_
  refine silent_bind (L.store site htoken hkind htype hvalue.2) fun _ _ _ _ _ _ _ => pure ?_
  have htype' : L.Same (type?.getD .unknown) (type?'.getD .unknown) := fun htyped => by
    rw [htype htyped]
  have htarget := L.node_leaf (L.label_name htoken hkind) htype' (L.line_token htoken)
  exact L.node_group (by decide) (L.line_token htoken)
    (L.nodes_cons htarget (L.nodes_cons hvalue.1 L.nodes_nil))

/-- A step takes two tokens, neither of them the end of the input. -/
theorem step (hs : Ready m s) (ht : Ready m' t) (hkind : s.cursor.current.kind = .identifier)
    (hnext : s.cursor.advance.current.kind ≠ .eof) :
    Alike L F L.node step step s t := by
  refine advance_bind hs ht (by simp [hkind]) fun htoken hs₁ ht₁ => ?_
  refine silent_bind (L.respects_resolve htoken hkind) fun type type' s₂ t₂ hs₂ ht₂ htype => ?_
  refine advance_bind (hs₁.of_cursor_eq hs₂) (ht₁.of_cursor_eq ht₂) (by rwa [hs₂])
    fun hoperator _ _ => ?_
  have htarget := L.node_leaf (L.label_name htoken hkind) htype (L.line_token htoken)
  rw [← L.kind_eq hoperator]
  refine pure (L.node_group ?_ (L.line_token htoken) (L.nodes_cons htarget L.nodes_nil))
  split <;> decide

/-- The name is taken, whatever follows it. -/
theorem suffix_simple (site : StoreSite) (hkind : s.cursor.current.kind = .identifier) :
    ((simple .standard site).runFrom s).2.cursor.tokens <:+ s.cursor.advance.tokens := by
  rw [simple, runFrom_currentKind_bind, if_pos hkind, runFrom_peekKind_bind]
  have hforward : Forward (Parse.arguments (Parse.expression .standard)) :=
    (calm_arguments (calm_expression _)).forward
  split
  · exact suffix_expect_bind hkind
  · exact suffix_advance_bind
  · exact suffix_advance_bind
  · exact suffix_advance_bind
  · exact suffix_advance_bind
  · exact suffix_advance_bind

/-- The token behind the name tells what follows; it is among the tokens taken, or the one that is
blamed. -/
theorem simple (site : StoreSite) (hs : Ready m s) (ht : Ready m' t) :
    Alike L Set.univ L.node (simple .standard site) (simple .standard site) s t := by
  refine of_token fun htoken => ?_
  by_cases hkind : s.cursor.current.kind = .identifier
  · have hkind' := (L.kind_eq htoken).symm.trans hkind
    have hne : s.cursor.current.kind ≠ .eof := by simp [hkind]
    -- Which statement it is depends on the token behind the name.
    refine of_peek hs ht hne (suffix_simple site hkind) fun _ hpeek => currentKind_bind ?_
    rw [if_pos hkind, if_pos hkind']
    refine peekKind_bind ?_
    rw [← hpeek]
    split
    case h_1 => exact call hs ht
    case h_2 => exact assignment site hs ht hkind
    case h_3 => exact assignment site hs ht hkind
    case h_4 h => exact step hs ht hkind (by simp [← hs.peekKind_eq hne, h])
    case h_5 h => exact step hs ht hkind (by simp [← hs.peekKind_eq hne, h])
    case h_6 => exact advance_bind hs ht hne fun _ _ _ => unexpected _
  · refine currentKind_bind ?_
    rw [if_neg hkind, if_neg (L.kind_ne htoken hkind)]
    exact unexpected _

/-- A simple statement and its semicolon, behind which nothing matters. -/
theorem simpleStatement (hs : Ready m s) (ht : Ready m' t) :
    Alike L F L.node (simpleStatement .standard) (simpleStatement .standard) s t :=
  (simple .assignment hs ht).bind_expect hs ht (by decide) fun _ _ _ _ hnode _ _ _ => pure hnode

/-! ### Output, result and attachment -/

theorem keywordExpression {label : String} (hlabel : label ∈ constructLabels) (hs : Ready m s)
    (ht : Ready m' t) (hkind : s.cursor.current.kind ≠ .eof) :
    Alike L F L.node (keywordExpression .standard label) (keywordExpression .standard label)
      s t := by
  refine advance_bind hs ht hkind fun htoken hs₁ ht₁ => ?_
  exact (expression .default hs₁ ht₁).bind_expect hs₁ ht₁ (by decide) fun _ _ _ _ hvalue _ _ _ =>
    pure (L.node_group hlabel (L.line_token htoken) (L.nodes_cons hvalue.1 L.nodes_nil))

theorem attach (hs : Ready m s) (ht : Ready m' t) (hkind : s.cursor.current.kind ≠ .eof) :
    Alike L F L.node attach attach s t := by
  refine advance_bind hs ht hkind fun htoken hs₁ ht₁ => ?_
  refine expect_bind hs₁ ht₁ (by decide) fun hname htarget _ _ => pure ?_
  have hsame : L.Same DataType.attachment .attachment := fun _ => rfl
  have hleaf := L.node_leaf (L.label_attach htarget hname) hsame (L.line_token htarget)
  exact L.node_group (by decide) (L.line_token htoken) (L.nodes_cons hleaf L.nodes_nil)

/-! ### Control -/

/-- The condition of a construct; the name of the construct is the text of `keyword`. -/
theorem gate {keyword keyword' : Token} (hkeyword : L.token keyword keyword') (hs : Ready m s)
    (ht : Ready m' t) :
    Alike L Set.univ L.node (gate .standard keyword) (gate .standard keyword') s t := by
  refine (condition hs ht).bind_open fun e e' _ _ _ _ _ _ he => ?_
  exact silent_bind (L.violation hkeyword (L.node_line he.1) he.2) fun _ _ _ _ _ _ _ => pure he.1

section Body

variable {body body' : Parse Node} [Forward body]
  (hbody : ∀ s t, Ready m s → Ready m' t → Alike L ∅ L.node body body' s t)
include hbody

/-- Behind a branch the word of an alternative matters, and nothing else: `F` is `{.reject}`. -/
theorem checkOf (hs : Ready m s) (ht : Ready m' t) (hkind : s.cursor.current.kind ≠ .eof) :
    Alike L {.reject} L.node (checkOf .standard body) (checkOf .standard body') s t := by
  refine advance_bind hs ht hkind fun hkeyword hs₁ ht₁ => ?_
  have hline := L.line_token hkeyword
  refine expect_bind hs₁ ht₁ (by decide) fun _ _ hs₂ ht₂ => ?_
  refine (gate hkeyword hs₂ ht₂).bind_expect hs₂ ht₂ (by decide)
    fun decision decision' _ _ hdecision _ hs₃ ht₃ => ?_
  refine (hbody _ _ hs₃ ht₃).bind (fun block block' s₄ t₄ u u' _ hu hu' _ hblock => ?_)
    (.inl (Set.empty_subset _))
  have hparts (others others' : List Node) (h : L.nodes others others') :
      L.nodes (decision :: block :: others) (decision' :: block' :: others') :=
    L.nodes_cons hdecision (L.nodes_cons hblock h)
  refine currentKind_bind (of_current fun hcurrent => ?_)
  -- Neither is the word of an alternative, or both are.
  have hreject : t₄.cursor.current.kind = .reject ↔ s₄.cursor.current.kind = .reject := by
    rcases hcurrent with htoken | ⟨hs, ht⟩
    · rw [L.kind_eq htoken]
    · exact iff_of_false ht hs
  by_cases halternative : s₄.cursor.current.kind = .reject
  · rw [if_pos halternative, if_pos (hreject.2 halternative)]
    refine advance_bind (hs₃.of_append hu) (ht₃.of_append hu') (by simp [halternative])
      fun _ hs₅ ht₅ => ?_
    refine (hbody _ _ hs₅ ht₅).bind (fun _ _ _ _ _ _ _ _ _ _ halternative => pure ?_)
      (.inl (Set.empty_subset _))
    exact L.node_group (by decide) hline (hparts _ _ (L.nodes_cons halternative L.nodes_nil))
  · rw [if_neg halternative, if_neg (mt hreject.1 halternative)]
    exact pure (L.node_group (by decide) hline (hparts _ _ L.nodes_nil))

theorem reworkOf (hs : Ready m s) (ht : Ready m' t) (hkind : s.cursor.current.kind ≠ .eof) :
    Alike L F L.node (reworkOf .standard body) (reworkOf .standard body') s t := by
  refine advance_bind hs ht hkind fun hkeyword hs₁ ht₁ => ?_
  refine expect_bind hs₁ ht₁ (by decide) fun _ _ hs₂ ht₂ => ?_
  refine (gate hkeyword hs₂ ht₂).bind_expect hs₂ ht₂ (by decide)
    fun decision decision' _ _ hdecision _ hs₃ ht₃ => ?_
  refine (hbody _ _ hs₃ ht₃).bind (fun _ _ _ _ _ _ _ _ _ _ hblock => pure ?_)
    (.inl (Set.empty_subset _))
  exact L.node_group (by decide) (L.line_token hkeyword)
    (L.nodes_cons hdecision (L.nodes_cons hblock L.nodes_nil))

theorem checklistOf (hs : Ready m s) (ht : Ready m' t) (hkind : s.cursor.current.kind ≠ .eof) :
    Alike L F L.node (checklistOf .standard body) (checklistOf .standard body') s t := by
  refine advance_bind hs ht hkind fun hkeyword hs₁ ht₁ => ?_
  refine expect_bind hs₁ ht₁ (by decide) fun _ _ hs₂ ht₂ => ?_
  refine silent_bind L.enter fun _ _ s₃ t₃ hs₃ ht₃ _ => ?_
  have hs₃ := hs₂.of_cursor_eq hs₃
  have ht₃ := ht₂.of_cursor_eq ht₃
  refine currentKind_bind (of_taken (fun a s' hrun => ?_) fun htoken => ?_)
  · split at hrun
    case isTrue htype =>
      obtain rfl : _ = s' := congrArg Prod.snd hrun
      -- Nothing but a declaration succeeds here, and it takes its keyword.
      refine hs₃.tokens_ne ?_ (suffix_bind (suffix_declaration htype))
      intro heof
      simp [heof, TokenKind.isTypeKeyword] at htype
    case isFalse => simp at hrun
  rw [← L.kind_eq htoken]
  split
  case isFalse => exact unexpected _
  case isTrue htype =>
    refine (declaration hs₃ ht₃ htype htoken).bind
      (fun counter counter' s₄ t₄ u u' _ hu hu' _ hcounter => ?_) (.inl (Set.empty_subset _))
    have hs₄ := hs₃.of_append hu
    have ht₄ := ht₃.of_append hu'
    refine (gate hkeyword hs₄ ht₄).bind_expect hs₄ ht₄ (by decide)
      fun decision decision' _ _ hdecision _ hs₅ ht₅ => ?_
    refine (simple .update hs₅ ht₅).bind_expect hs₅ ht₅ (by decide)
      fun update update' _ _ hupdate _ hs₆ ht₆ => ?_
    refine (hbody _ _ hs₆ ht₆).bind (fun block block' _ _ _ _ _ _ _ _ hblock => ?_)
      (.inl (Set.empty_subset _))
    -- Both frames are closed, whatever was bound in them.
    refine silent_bind L.exit fun _ _ _ _ _ _ _ => pure ?_
    exact L.node_group (by decide) (L.line_token hkeyword) (L.nodes_cons hcounter
      (L.nodes_cons hdecision (L.nodes_cons hupdate (L.nodes_cons hblock L.nodes_nil))))

theorem planOf (hs : Ready m s) (ht : Ready m' t) (hkind : s.cursor.current.kind ≠ .eof) :
    Alike L F L.node (planOf body) (planOf body') s t := by
  refine advance_bind hs ht hkind fun hkeyword hs₁ ht₁ => ?_
  refine expect_bind hs₁ ht₁ (by decide) fun _ _ hs₂ ht₂ => ?_
  refine expect_bind hs₂ ht₂ (by decide) fun _ _ hs₃ ht₃ => ?_
  refine expect_bind hs₃ ht₃ (by decide) fun _ _ hs₄ ht₄ => ?_
  refine silent_bind (L.entryPoint hkeyword) fun _ _ s₅ t₅ hs₅ ht₅ _ => ?_
  refine silent_bind L.enter fun _ _ s₆ t₆ hs₆ ht₆ _ => ?_
  have hs₆ := hs₄.of_cursor_eq (hs₆.trans hs₅)
  have ht₆ := ht₄.of_cursor_eq (ht₆.trans ht₅)
  refine (hbody _ _ hs₆ ht₆).bind (fun block block' _ _ _ _ _ _ _ _ hblock => ?_)
    (.inl (Set.empty_subset _))
  refine silent_bind L.exit fun _ _ _ _ _ _ _ => pure ?_
  exact L.node_group (by decide) (L.line_token hkeyword) (L.nodes_cons hblock L.nodes_nil)

end Body

end Alike

/-! ### One statement -/

/-- No rule begins with the end of the input, so the first token of a statement is taken: by cases
on `kind`. -/
theorem ne_eof_of_statement? {kind : TokenKind} {rule : StatementRule}
    (h : Rules.standard.statement? kind = some rule) : kind ≠ .eof := by
  rintro rfl
  simp [Rules.standard] at h

section Body

variable {L : Likeness} {m m' : Nat} {s t : Parser} {body body' : Parse Node}
  (hreads : ∀ s F, Ready m s → Reads body s Grammar.Construct.block.words F)
include hreads

/-- A statement takes a token. -/
theorem exists_used_of_statementOf (hs : Ready m s) {n : Node} {s' : Parser}
    (hrun : (statementOf .standard body).runFrom s = (.ok n, s')) :
    ∃ used, s.cursor.tokens = used ++ s'.cursor.tokens ∧ used ≠ [] := by
  obtain ⟨used, heq, hused⟩ := (Grammar.reads_statementOf hreads hs).accepted hrun
  refine ⟨used, heq, ?_⟩
  rintro rfl
  exact Grammar.ruled_statement.headed.ne_nil hused.mem rfl

namespace Alike

variable (hlevel : ∀ s, Level AnyKind body s)
  (hbody : ∀ s t, Ready m s → Ready m' t → Alike L ∅ L.node body body' s t)
include hlevel hbody

/-- The rule for the current token. -/
theorem statementOf (hs : Ready m s) (ht : Ready m' t) :
    Alike L {.reject} L.node (statementOf .standard body) (statementOf .standard body') s t := by
  have hforward : Forward body := Guards.forward hlevel
  refine of_taken (fun n s' hrun hsame => ?_) fun htoken => currentKind_bind ?_
  · obtain ⟨used, heq, hne⟩ := exists_used_of_statementOf hreads hs hrun
    rw [hsame] at heq
    -- An accepted statement is not empty, so its first token is among those used.
    exact hne (List.self_eq_append_left.1 heq)
  rw [← L.kind_eq htoken]
  split
  case h_1 => exact unexpected _
  case h_2 => exact unexpected _
  case h_3 hrule =>
    have hkind := Grammar.mem_statementHeads hrule
    exact declaration hs ht (Grammar.isTypeKeyword_iff.2 hkind) htoken
  case h_4 => exact simpleStatement hs ht
  case h_5 hrule => exact checkOf hbody hs ht (ne_eof_of_statement? hrule)
  case h_6 hrule => exact reworkOf hbody hs ht (ne_eof_of_statement? hrule)
  case h_7 hrule => exact checklistOf hbody hs ht (ne_eof_of_statement? hrule)
  case h_8 hrule => exact keywordExpression (by decide) hs ht (ne_eof_of_statement? hrule)
  case h_9 hrule => exact keywordExpression (by decide) hs ht (ne_eof_of_statement? hrule)
  case h_10 => exact (hbody s t hs ht).mono (Set.empty_subset _)
  case h_11 hrule => exact attach hs ht (ne_eof_of_statement? hrule)
  case h_12 hrule => exact planOf hbody hs ht (ne_eof_of_statement? hrule)
  case h_13 => exact call hs ht

/-! ### Lists and blocks -/

/-- Statements up to the end of a list, by induction on the bound `n` of the left side. A statement
takes as many tokens on both sides, and at least one, so that neither bound is reached. -/
theorem allStatementsWithin {n n' : Nat} (hs : Ready m s) (ht : Ready m' t) (hn : Ready n s)
    (hn' : Ready n' t) :
    Alike L Set.univ L.nodes (allStatementsWithin .standard body n)
      (allStatementsWithin .standard body' n') s t := by
  have hforward : Forward (Parse.statementOf .standard body) :=
    Guards.forward fun _ => guards_statementOf hlevel fun _ _ => trivial
  have hforward' (n : Nat) : Forward (Parse.allStatementsWithin .standard body n) :=
    Guards.forward fun _ => guards_allStatementsWithin hlevel (fun _ _ => trivial) n
  induction n generalizing n' s t with
  | zero => exact absurd hn.fits (Nat.not_lt_zero _)
  | succ n ih =>
    cases n' with
    | zero => exact absurd hn'.fits (Nat.not_lt_zero _)
    | succ n' =>
      refine of_token fun htoken => ?_
      have hrun := runFrom_allStatementsWithin_succ .standard body n s
      have hrun' := runFrom_allStatementsWithin_succ .standard body' n' t
      rw [← L.kind_eq htoken] at hrun'
      by_cases hclosed : s.cursor.current.kind = .eof ∨ s.cursor.current.kind = .closeCurly
      · rw [if_pos hclosed] at hrun hrun'
        exact congr hrun hrun' (pure L.nodes_nil)
      · rw [if_neg hclosed] at hrun hrun'
        refine congr hrun hrun' ?_
        refine (statementOf hreads hlevel hbody hs ht).bind
          (fun node node' s₁ t₁ u u' hfirst hu hu' hlength hnode => ?_) (.inl (Set.subset_univ _))
        -- Both take as many tokens, and the first one takes some.
        obtain ⟨used, heq, hne⟩ := exists_used_of_statementOf hreads hs hfirst
        obtain rfl : used = u := List.append_cancel_right (heq.symm.trans hu)
        have hne' : u' ≠ [] := by
          rintro rfl
          exact hne (List.length_eq_zero_iff.1 hlength)
        exact (ih (hs.of_append hu) (ht.of_append hu') (hn.of_ne_nil hu hne)
          (hn'.of_ne_nil hu' hne')).bind_open fun _ _ _ _ _ _ _ _ hothers =>
            pure (L.nodes_cons hnode hothers)

/-- As `allStatementsWithin`, with the bounds that the tokens left give. -/
theorem allStatementsOf (hs : Ready m s) (ht : Ready m' t) :
    Alike L Set.univ L.nodes (allStatementsOf .standard body) (allStatementsOf .standard body')
      s t :=
  congr (runFrom_allStatementsOf _ _ s) (runFrom_allStatementsOf _ _ t)
    (allStatementsWithin hreads hlevel hbody hs ht ⟨hs.ends, Nat.lt_succ_self _⟩
      ⟨ht.ends, Nat.lt_succ_self _⟩)

/-- A block ends at its brace: behind it, nothing matters, so `F` is empty. -/
theorem blockOf (hs : Ready (m + 1) s) (ht : Ready (m' + 1) t) :
    Alike L ∅ L.node (blockOf .standard body) (blockOf .standard body') s t := by
  have hforward : Forward (Parse.allStatementsOf .standard body) :=
    Guards.forward fun _ => guards_allStatementsOf hlevel fun _ _ => trivial
  refine expect_bind hs ht (by decide) fun hkind hopening _ _ => ?_
  have hne : s.cursor.current.kind ≠ .eof := by simp [hkind]
  refine silent_bind L.enter fun _ _ s₂ t₂ hs₂ ht₂ _ => ?_
  have hs₂ := (hs.advance hne).of_cursor_eq hs₂
  have ht₂ := (ht.advance (L.kind_ne hopening hne)).of_cursor_eq ht₂
  refine (allStatementsOf hreads hlevel hbody hs₂ ht₂).bind_expect hs₂ ht₂ (by decide)
    fun nodes nodes' _ _ hnodes _ _ _ => ?_
  refine silent_bind L.exit fun _ _ _ _ _ _ _ => pure ?_
  exact L.node_group (by decide) (L.line_token hopening) hnodes

end Alike

end Body

namespace Alike

variable {L : Likeness} {m m' : Nat} {s t : Parser}

/-- Blocks inside blocks, to any depth. -/
theorem blockWithin (hs : Ready m s) (ht : Ready m' t) :
    Alike L ∅ L.node (blockWithin .standard m) (blockWithin .standard m') s t := by
  induction m generalizing m' s t with
  | zero => exact absurd hs.fits (Nat.not_lt_zero _)
  | succ m ih =>
    cases m' with
    | zero => exact absurd ht.fits (Nat.not_lt_zero _)
    | succ m' =>
      exact blockOf (fun _ F hs => Grammar.reads_blockWithin m hs F)
        (fun _ => level_blockWithin (fun _ _ => trivial) m) (fun _ _ hs ht => ih hs ht) hs ht

theorem block (hs : Ready m s) (ht : Ready m' t) :
    Alike L ∅ L.node (block .standard) (block .standard) s t :=
  remaining_bind (blockWithin ⟨hs.ends, Nat.lt_succ_self _⟩ ⟨ht.ends, Nat.lt_succ_self _⟩)

/-- One statement, with the token behind it if that could be the word of an alternative. -/
theorem statement (hs : Ready m s) (ht : Ready m' t) :
    Alike L {.reject} L.node (statement .standard) (statement .standard) s t :=
  statementOf (fun _ F hs => Grammar.reads_block hs F) (fun _ => level_block fun _ _ => trivial)
    (fun _ _ hs ht => block hs ht) hs ht

end Alike

end DrLang
