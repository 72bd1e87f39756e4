import DrLang.Proofs.Acceptance
import DrLang.Proofs.Likeness.Statement
import DrLang.Proofs.Likeness.Surroundings
import DrLang.Proofs.Printing

/-!
# Statements that declare nothing

A statement that is neither a declaration nor the entry point leaves the open scopes and the entry
point as they were, whatever it declares or gets wrong inside. So the statements behind it are
parsed as if it were not there, and it may be put in or left out between any two of them.

- `Steps`: statements one after the other.
- `Steps.before`, `Steps.exists_after`, `Steps.exists_beside`: the same statements in other
  surroundings.
- `Steps.inert`: what statements that declare nothing leave as it was.
- `parse_insert`: a program with such statements put in.
-/

namespace DrLang

open Parse

/-! ### Statements one after the other -/

/-- From one state, some statements are parsed in turn, and another state is reached. -/
inductive Steps : Parser → List Node → Parser → Prop
  | nil (s : Parser) : Steps s [] s
  | cons {s s₁ s' : Parser} {n : Node} {ns : List Node}
      (hopen : ¬ (s.cursor.current.kind = .eof ∨ s.cursor.current.kind = .closeCurly))
      (hrun : (statement .standard).runFrom s = (.ok n, s₁)) (hrest : Steps s₁ ns s') :
      Steps s (n :: ns) s'

namespace Steps

variable {s s' s'' t : Parser} {ns ms : List Node} {m m' : Nat}

/-- Statements behind statements. -/
theorem append (h : Steps s ns s') (h' : Steps s' ms s'') : Steps s (ns ++ ms) s'' := by
  induction h with
  | nil => exact h'
  | cons hopen hrun _ ih => exact .cons hopen hrun (ih h')

/-- A statement notes the entry point at its word `plan` only, by the heads of `statement?`. -/
theorem guards_statement (s : Parser) :
    Guards (· = .plan) s (statement .standard) s (Behind s) := by
  have hplan (kind : TokenKind) (hrule : Rules.standard.statement? kind = some .plan) :
      kind = .plan :=
    List.mem_singleton.1 (Grammar.mem_statementHeads hrule)
  exact guards_statementOf (fun _ => level_block hplan) hplan

/-- The entry point is noted at its word only, so `Grows` asks for `plan`. -/
theorem grows (h : Steps s ns s') : Grows (· = .plan) s s' := by
  induction h with
  | nil s => exact .refl s
  | @cons s _ _ _ _ _ hrun _ ih =>
    have hgrows := (guards_statement s).grows
    rw [hrun] at hgrows
    exact hgrows.trans ih

/-- Only a `Declaration` binds names in the frame that is open around it. -/
theorem sameFrames (h : Steps s ns s') (hns : ∀ n ∈ ns, n.label ≠ "Declaration") :
    SameFrames s s' := by
  induction h with
  | nil s => rfl
  | @cons s s₁ _ n _ _ hrun _ ih =>
    obtain ⟨hn, hothers⟩ := List.forall_mem_cons.1 hns
    have hsame : SameFrames s s₁ := ((guards_statement s).ensures n s₁ hrun).2 hn
    exact hsame.trans (ih hothers)

/-- A statement takes a token. -/
theorem exists_used (hs : Ready m s) {n : Node} {s₁ : Parser}
    (hrun : (statement .standard).runFrom s = (.ok n, s₁)) :
    ∃ used, s.cursor.tokens = used ++ s₁.cursor.tokens ∧ used ≠ [] :=
  exists_used_of_statementOf (fun _ F hs => Grammar.reads_block hs F) hs hrun

/-- What `allStatementsWithin` parses in one run, `Steps` tell statement by statement, and they
end where the list does. By induction on the bound `m`. -/
theorem of_run (hs : Ready m s)
    (hrun : (allStatementsWithin .standard (block .standard) m).runFrom s = (.ok ns, s')) :
    Steps s ns s' ∧ (s'.cursor.current.kind = .eof ∨ s'.cursor.current.kind = .closeCurly) := by
  induction m generalizing s ns with
  | zero => exact absurd hs.fits (Nat.not_lt_zero _)
  | succ m ih =>
    rw [runFrom_allStatementsWithin_succ] at hrun
    -- Either the loop stops here or it takes a statement, which is not empty.
    by_cases hclosed : s.cursor.current.kind = .eof ∨ s.cursor.current.kind = .closeCurly
    · rw [if_pos hclosed] at hrun
      obtain ⟨hnodes, rfl⟩ := Prod.mk.inj hrun
      obtain rfl := Except.ok.inj hnodes
      exact ⟨.nil s, hclosed⟩
    · rw [if_neg hclosed, runFrom_bind] at hrun
      split at hrun
      case h_2 => simp at hrun
      case h_1 n s₁ hfirst =>
        rw [runFrom_bind] at hrun
        split at hrun
        case h_2 => simp at hrun
        case h_1 others s₂ hothers =>
          obtain ⟨hnodes, rfl⟩ := Prod.mk.inj hrun
          obtain rfl := Except.ok.inj hnodes
          obtain ⟨used, heq, hne⟩ := exists_used hs hfirst
          obtain ⟨hsteps, hclosed'⟩ := ih (hs.of_ne_nil heq hne) hothers
          exact ⟨.cons hclosed hfirst hsteps, hclosed'⟩

/-- The converse of `of_run`, for any bound that is not reached: `Ready m` says so at each
statement. -/
theorem run (h : Steps s ns s')
    (hclosed : s'.cursor.current.kind = .eof ∨ s'.cursor.current.kind = .closeCurly)
    (hs : Ready m s) :
    (allStatementsWithin .standard (block .standard) m).runFrom s = (.ok ns, s') := by
  induction h generalizing m with
  | nil s =>
    cases m with
    | zero => exact absurd hs.fits (Nat.not_lt_zero _)
    | succ m => rw [runFrom_allStatementsWithin_succ, if_pos hclosed]
  -- A bound is left for every statement, since each takes a token.
  | @cons s _ _ _ _ hopen hrun _ ih =>
    cases m with
    | zero => exact absurd hs.fits (Nat.not_lt_zero _)
    | succ m =>
      obtain ⟨used, heq, hne⟩ := exists_used hs hrun
      have hstep : (statementOf .standard (block .standard)).runFrom s = _ := hrun
      rw [runFrom_allStatementsWithin_succ, if_neg hopen, runFrom_bind, hstep]
      simp only [runFrom_bind, ih hclosed (hs.of_ne_nil heq hne), runFrom_pure]

/-- Statements are alike where each one is. The induction is on `Steps`, with the tokens split
behind each statement. -/
theorem alike {L : Likeness} (h : Steps s ns s') (hs : Ready m s) (ht : Ready m' t)
    (hnotes : L.notes s.notes t.notes) {used used' ahead : List Token} {next : Token}
    (hused : s.cursor.tokens = used ++ s'.cursor.tokens)
    (htokens : List.Forall₂ L.token used used') (htused : t.cursor.tokens = used' ++ next :: ahead)
    (hnext : s'.cursor.current.kind ≠ .reject) (hnext' : next.kind ≠ .reject) :
    ∃ ms n, Steps t ms (n.at ⟨next, ahead⟩) ∧ L.notes s'.notes n ∧ L.nodes ns ms := by
  induction h generalizing t used used' with
  | nil s =>
    obtain rfl := List.self_eq_append_left.1 hused
    cases htokens with
    | nil =>
      obtain ⟨rfl, rfl⟩ := List.cons.inj htused
      exact ⟨[], t.notes, .nil t, hnotes, L.nodes_nil⟩
  | @cons s s₁ s' n ns hopen hrun hrest ih =>
    obtain ⟨u, hu, hne⟩ := exists_used hs hrun
    obtain ⟨v, hv⟩ := hrest.grows.tokens
    -- Behind the first statement, the lists go on alike, or with the tokens behind all of them,
    -- which are no words of an alternative.
    obtain ⟨u', v', next₁, ahead₁, ht₁, hahead, hu', hv', hbetween⟩ :=
      Alike.exists_between hu hv.symm hused htokens htused
    have hnext₁ : L.token s₁.cursor.current next₁ ∨
        s₁.cursor.current.kind ∉ ({.reject} : Set TokenKind) ∧
          next₁.kind ∉ ({.reject} : Set TokenKind) := by
      rcases hbetween with htoken | ⟨-, hcurrent, rfl⟩
      · exact .inl htoken
      · rw [hcurrent]
        exact .inr ⟨hnext, hnext'⟩
    -- A statement takes a token, so both lists begin with alike ones.
    have hcurrent : L.token s.cursor.current t.cursor.current := by
      refine (Alike.heads hu hu' ht₁).resolve_right fun h => hne ?_
      exact List.append_left_eq_self.1 (hu.symm.trans h.1.symm)
    obtain ⟨r, n₁, hrun', hnotes₁, houtcome⟩ := Alike.statement hs ht hnotes _ s₁ hrun u u' next₁
      ahead₁ hu hu' ht₁ (hnext₁.imp_right fun h => ⟨rfl, h⟩)
    cases houtcome with
    | @ok _ b hnode =>
      obtain ⟨ms, n', hsteps, hnotes', hnodes⟩ := ih (hs.of_append hu)
        (t := n₁.at ⟨next₁, ahead₁⟩) (ht.of_append ht₁) hnotes₁ hv.symm hv' hahead hnext
      rw [L.kind_eq hcurrent] at hopen
      exact ⟨b :: ms, n', .cons hopen hrun' hsteps, hnotes', L.nodes_cons hnode hnodes⟩

end Steps

/-! ### Tokens ahead -/

/-- Nothing noted. -/
def Notes.blank : Notes where
  symbols := .empty
  diagnostics := []
  entryPoint? := none
  log := []

/-- The state with these notes that has some tokens and then the end of the input ahead. -/
def Notes.facing (n : Notes) (tokens : List Token) (line : Nat) : Parser :=
  n.at (.ofTokens (tokens ++ [.endOfInput line]))

/-- Tokens that no branch before them takes for its alternative. -/
def Unattached (tokens : List Token) : Prop :=
  ∀ t ∈ tokens.head?, t.kind ≠ .reject

/-- Tokens in front of others are the ones that a branch before them sees. -/
theorem Unattached.append {X Y : List Token} (hX : Unattached X) (hY : Unattached Y) :
    Unattached (X ++ Y) := by
  cases X with
  | nil => exact hY
  | cons t X => exact hX

section Facing

variable {n n' m : Notes} {X Y : List Token} {line line' : Nat} {ns : List Node}

/-- `facing` has the given tokens ahead, and the end of the input behind them. -/
theorem tokens_facing (n : Notes) (X : List Token) (line : Nat) :
    (n.facing X line).cursor.tokens = X ++ [.endOfInput line] := by
  show (Cursor.ofTokens _).tokens = _
  rw [Cursor.tokens_ofTokens, Cursor.closed, List.getLast?_concat]
  exact if_pos rfl

/-- A cursor is told by all that it has ahead. -/
theorem Cursor.eq_of_tokens {c d : Cursor} (h : c.tokens = d.tokens) : c = d := by
  obtain ⟨current, rest⟩ := c
  obtain ⟨rfl, rfl⟩ := List.cons.inj h
  rfl

/-- The bound with which `allStatementsOf` begins is enough. -/
theorem ready_facing (n : Notes) (X : List Token) (line : Nat) :
    Ready ((n.facing X line).cursor.remaining + 1) (n.facing X line) where
  ends := by
    rw [tokens_facing]
    simp [Token.endOfInput]
  fits := Nat.lt_succ_self _

/-- A parse begins with nothing noted. -/
theorem exists_start_eq (hX : ∀ t ∈ X, t.kind ≠ .eof) :
    ∃ line, Parser.start X = Notes.blank.facing X line := by
  have hclosed : ∃ line, Cursor.closed X = X ++ [.endOfInput line] := by
    rw [Cursor.closed]
    -- The token that is added stands on the line of the last one, or on line 1 of nothing.
    split
    case h_1 hnone =>
      obtain rfl := List.getLast?_eq_none_iff.1 hnone
      exact ⟨1, rfl⟩
    case h_2 last hlast =>
      rw [if_neg (hX last (List.mem_of_getLast? hlast))]
      exact ⟨last.line, rfl⟩
  obtain ⟨line, hline⟩ := hclosed
  have hcursor : (Notes.blank.facing X line).cursor = .ofTokens X := by
    refine Cursor.eq_of_tokens ?_
    rw [tokens_facing, Cursor.tokens_ofTokens, hline]
  refine ⟨line, ?_⟩
  rw [Parser.start, ← hcursor]
  rfl

/-- A state is told by its notes and its tokens ahead. -/
theorem facing_eq {c : Cursor} (h : c.tokens = X ++ [.endOfInput line]) :
    n.facing X line = n.at c :=
  congrArg n.at (Cursor.eq_of_tokens ((tokens_facing n X line).trans h.symm))

theorem current_facing_nil (n : Notes) (line : Nat) :
    (n.facing [] line).cursor.current = .endOfInput line := rfl

namespace Steps

/-- No statement begins with the word of an alternative. -/
theorem unattached (h : Steps (n.facing X line) ns (n'.facing [] line')) : Unattached X := by
  intro t ht hreject
  have hcurrent : (n.facing X line).cursor.current = t := by
    have hhead := congrArg List.head? (tokens_facing n X line)
    rw [List.head?_append, Option.mem_def.1 ht] at hhead
    exact Option.some.inj hhead
  generalize n.facing X line = s at h hcurrent
  generalize hs' : n'.facing [] line' = s' at h
  cases h with
  | nil =>
    have heof : t.kind = .eof := by
      rw [← hcurrent, ← hs', current_facing_nil]
      rfl
    simp [heof] at hreject
  | cons _ hrun _ =>
    -- The word is no key of the rules, and no expression begins with it.
    rw [statement, statementOf, runFrom_currentKind_bind, hcurrent, hreject] at hrun
    simp [Rules.standard] at hrun

/-- Statements up to the end of the input, with other tokens behind them and after other notes:
`alike` for a whole program. -/
theorem carry {L : Likeness} {X' : List Token} (htokens : List.Forall₂ L.token X X')
    (h : Steps (n.facing X line) ns (n'.facing [] line)) (hnotes : L.notes n m)
    (hY : Unattached Y) (line' : Nat) :
    ∃ (ms : List Node) (m' : Notes), Steps (m.facing (X' ++ Y) line') ms (m'.facing Y line') ∧
      L.notes n' m' ∧ L.nodes ns ms := by
  obtain ⟨next, ahead, hahead⟩ :=
    List.exists_cons_of_ne_nil (show Y ++ [Token.endOfInput line'] ≠ [] by simp)
  -- `reject` must not stand behind the statements: a `CHECK` at their end would go on with it.
  have hnext : next.kind ≠ .reject := by
    have hend : Unattached [Token.endOfInput line'] := by
      rintro _ ⟨⟩
      nofun
    exact hY.append hend next (by rw [hahead]; rfl)
  have hused : (n.facing X line).cursor.tokens = X ++ (n'.facing [] line).cursor.tokens := by
    rw [tokens_facing, tokens_facing]
    rfl
  have htused : (m.facing (X' ++ Y) line').cursor.tokens = X' ++ next :: ahead := by
    rw [tokens_facing, List.append_assoc, hahead]
  obtain ⟨ms, m', hsteps, hnotes', hnodes⟩ :=
    h.alike (ready_facing n X line) (ready_facing m (X' ++ Y) line') hnotes hused htokens htused
      nofun hnext
  have hfacing : m'.facing Y line' = m'.at ⟨next, ahead⟩ := facing_eq hahead.symm
  exact ⟨ms, m', hfacing ▸ hsteps, hnotes', hnodes⟩

section Carry

variable (h : Steps (n.facing X line) ns (n'.facing [] line))
include h

/-- What stands behind statements does not matter to them. -/
theorem before (hY : Unattached Y) (line' : Nat) :
    Steps (n.facing (X ++ Y) line') ns (n'.facing Y line') := by
  obtain ⟨ms, m', hsteps, hbeside, hnodes⟩ :=
    h.carry (L := .beside n n) (List.forall₂_same.2 fun _ _ => rfl) (.refl rfl rfl) hY line'
  obtain rfl := Likeness.eq_of_nodes hnodes
  obtain rfl := Beside.eq hbeside
  exact hsteps

/-- Statements may be parsed after any notes, if at the expense of their types: `carry` for the
likeness of `shape`. -/
theorem exists_after (m : Notes) (line' : Nat) :
    ∃ (ms : List Node) (m' : Notes), Steps (m.facing X line') ms (m'.facing [] line') ∧
      ms.map Node.label = ns.map Node.label := by
  obtain ⟨ms, m', hsteps, -, hnodes⟩ :=
    h.carry (L := .shape) (m := m) (Y := []) (List.forall₂_same.2 fun _ _ => rfl) trivial
      (by rintro _ ⟨⟩) line'
  rw [List.append_nil] at hsteps
  exact ⟨ms, m', hsteps, Likeness.map_label_of_shape hnodes⟩

/-- After notes with the same scopes and the same entry point, statements are the same: `carry`
for the likeness `beside` the two. -/
theorem exists_beside (hframes : m.symbols.frames = n.symbols.frames)
    (hentry : m.entryPoint? = n.entryPoint?) (line' : Nat) :
    ∃ m' : Notes, Steps (m.facing X line') ns (m'.facing [] line') ∧ Beside n m n' m' := by
  obtain ⟨ms, m', hsteps, hbeside, hnodes⟩ :=
    h.carry (L := .beside n m) (Y := []) (List.forall₂_same.2 fun _ _ => rfl)
      (.refl hframes hentry) (by rintro _ ⟨⟩) line'
  obtain rfl := Likeness.eq_of_nodes hnodes
  rw [List.append_nil] at hsteps
  exact ⟨m', hsteps, hbeside⟩

/-- Statements that declare nothing leave the scopes and the entry point as they were:
`sameFrames` and `grows`. -/
theorem inert (hplan : ∀ t ∈ X, t.kind ≠ .plan) (hns : ∀ c ∈ ns, c.label ≠ "Declaration") :
    n'.symbols.frames = n.symbols.frames ∧ n'.entryPoint? = n.entryPoint? := by
  refine ⟨h.sameFrames hns, h.grows.entryPoint.resolve_right ?_⟩
  rintro ⟨-, t, ht, hkind, -⟩
  rw [tokens_facing, List.mem_append, List.mem_singleton] at ht
  rcases ht with ht | rfl
  · exact hplan t ht hkind
  · simp [Token.endOfInput] at hkind

/-- What was reported and declared before stays. -/
theorem exists_added : (∃ errors, n'.diagnostics = n.diagnostics ++ errors) ∧
    ∃ symbols, n'.symbols.declared = n.symbols.declared ++ symbols := by
  obtain ⟨errors, herrors⟩ := h.grows.diagnostics
  obtain ⟨symbols, hsymbols⟩ := h.grows.declared
  exact ⟨⟨errors, herrors.symm⟩, symbols, hsymbols.symm⟩

end Carry

/-- Statements that declare nothing, and others behind them. After the same notes, the others are
the same without them. -/
theorem exists_insert {cX cY : List Node} {nX nY : Notes} {lineX lineY : Nat}
    (hX : Steps (Notes.blank.facing X lineX) cX (nX.facing [] lineX))
    (hY : Steps (Notes.blank.facing Y lineY) cY (nY.facing [] lineY))
    (hplan : ∀ t ∈ X, t.kind ≠ .plan) (hdeclares : ∀ c ∈ cX, c.label ≠ "Declaration")
    (n : Notes) (line line' : Nat) :
    ∃ (cX' cY' : List Node) (m m' k : Notes),
      Steps (n.facing (X ++ Y) line') cX' (m.facing Y line') ∧
      Steps (m.facing Y line') cY' (m'.facing [] line') ∧
      Steps (n.facing Y line) cY' (k.facing [] line) ∧ Beside n m k m' ∧
      (∃ errors, m.diagnostics = n.diagnostics ++ errors) ∧
      (∃ symbols, m.symbols.declared = n.symbols.declared ++ symbols) ∧
      cX'.map Node.label = cX.map Node.label ∧ cY'.map Node.label = cY.map Node.label := by
  obtain ⟨cX', m, hX', hlabelsX⟩ := hX.exists_after n line'
  obtain ⟨cY', k, hY', hlabelsY⟩ := hY.exists_after n line
  -- The types may be others after `n`, but the labels tell whether anything is declared.
  have hdeclares' : ∀ c ∈ cX', c.label ≠ "Declaration" := by
    intro c hc hlabel
    have hmem : c.label ∈ cX.map Node.label := hlabelsX ▸ List.mem_map_of_mem hc
    obtain ⟨c', hc', hlabel'⟩ := List.mem_map.1 hmem
    exact hdeclares c' hc' (hlabel'.trans hlabel)
  obtain ⟨hframes, hentry⟩ := hX'.inert hplan hdeclares'
  obtain ⟨m', hbehind, hbeside⟩ := hY'.exists_beside hframes hentry line'
  obtain ⟨herrors, hsymbols⟩ := hX'.exists_added
  exact ⟨cX', cY', m, m', k, hX'.before hY.unattached line', hbehind, hY', hbeside, herrors,
    hsymbols, hlabelsX, hlabelsY⟩

end Steps

/-! ### Whole programs -/

/-- Behind the statements, the end of the input is taken and `parsed` is logged. -/
theorem parse_eq_of_run {s : Parser}
    (hrun : (allStatementsOf .standard (block .standard)).runFrom (.start X) = (.ok ns, s))
    (hkind : s.cursor.current.kind = .eof) :
    ∃ p, parse X = (.ok (.group "Program" 0 ns), p) ∧ p.symbols = s.symbols ∧
      p.diagnostics = s.diagnostics := by
  rw [parse_run, hrun]
  exact ⟨_, if_pos hkind, rfl, rfl⟩

/-- A program that was parsed is `Steps` from nothing noted to the end of the input. What the
parse notes behind the last statement is an event only. -/
theorem exists_steps_of_start {T : List Token} (hstart : Parser.start T = Notes.blank.facing X line)
    (hX : ∀ t ∈ X, t.kind ≠ .eof) {tree : Node} {p : Parser} (hparse : parse T = (.ok tree, p)) :
    ∃ (ns : List Node) (n : Notes),
      Steps (Notes.blank.facing X line) ns (n.facing [] line) ∧
        tree = .group "Program" 0 ns ∧ p.symbols = n.symbols ∧ p.diagnostics = n.diagnostics := by
  have hok := parse_eq T
  rw [hparse] at hok
  split at hok
  case h_2 => simp at hok
  case h_1 ns s hrun =>
    by_cases hkind : s.cursor.current.kind = .eof
    case neg => simp [if_neg hkind] at hok
    obtain ⟨p', hparse', hsymbols, hdiagnostics⟩ := parse_eq_of_run hrun hkind
    obtain ⟨htree, rfl⟩ := Prod.mk.inj (hparse.symm.trans hparse')
    rw [hstart, runFrom_allStatementsOf] at hrun
    obtain ⟨hsteps, -⟩ := Steps.of_run (ready_facing _ X line) hrun
    -- The end of the input is reached once all tokens before it are taken.
    obtain ⟨used, hused⟩ := hsteps.grows.tokens
    rw [tokens_facing] at hused
    have hends : EndsOnce (X ++ [.endOfInput line]) := ⟨X, _, rfl, rfl, hX⟩
    have hrest : s.cursor.rest = [] := hends.eq_nil_of_append hused.symm hkind
    have hlast : s.cursor.tokens = [] ++ [.endOfInput line] := by
      have hconcat : used ++ [s.cursor.current] = X ++ [.endOfInput line] := by
        rw [← hused, Cursor.tokens, hrest]
      rw [Cursor.tokens, hrest, (List.append_inj' hconcat rfl).2]
      rfl
    have hfacing : s.notes.facing [] line = s := facing_eq hlast
    refine ⟨ns, s.notes, ?_, Except.ok.inj htree, hsymbols, hdiagnostics⟩
    rwa [hfacing]

/-- As `exists_steps_of_start`, for a token list to which the end of the input is added. -/
theorem exists_steps_of_parse (hX : ∀ t ∈ X, t.kind ≠ .eof) {tree : Node} {p : Parser}
    (hparse : parse X = (.ok tree, p)) :
    ∃ (ns : List Node) (n : Notes) (line : Nat),
      Steps (Notes.blank.facing X line) ns (n.facing [] line) ∧
        tree = .group "Program" 0 ns ∧ p.symbols = n.symbols ∧ p.diagnostics = n.diagnostics := by
  obtain ⟨line, hstart⟩ := exists_start_eq hX
  obtain ⟨ns, n, hsteps, htree, hnotes⟩ := exists_steps_of_start hstart hX hparse
  exact ⟨ns, n, line, hsteps, htree, hnotes⟩

/-- The converse of `exists_steps_of_start`. -/
theorem parse_of_steps {T : List Token} (hstart : Parser.start T = Notes.blank.facing X line)
    (h : Steps (Notes.blank.facing X line) ns (n.facing [] line)) :
    ∃ p, parse T = (.ok (.group "Program" 0 ns), p) ∧ p.symbols = n.symbols ∧
      p.diagnostics = n.diagnostics := by
  refine parse_eq_of_run (s := n.facing [] line) ?_ rfl
  rw [hstart, runFrom_allStatementsOf]
  exact h.run (.inl rfl) (ready_facing _ X line)

end Facing

/-! ### Results -/

/-- **Inert statements**: statements that declare nothing, and are not the entry point, may be put
between any two statements of a program. It is parsed with them as without them: what stands before
and behind them has the same annotated trees, errors and declarations. -/
theorem parse_insert {A S B : List Token} (hA : ∀ t ∈ A, t.kind ≠ .eof)
    (hS : ∀ t ∈ S, t.kind ≠ .eof) (hB : ∀ t ∈ B, t.kind ≠ .eof)
    {treeA treeS treeB : Node} {pA pS pB : Parser} (hparseA : parse A = (.ok treeA, pA))
    (hparseS : parse S = (.ok treeS, pS)) (hparseB : parse B = (.ok treeB, pB))
    (hplan : ∀ t ∈ S, t.kind ≠ .plan) (hdeclares : ∀ n ∈ treeS.children, n.label ≠ "Declaration") :
    ∃ cS cB eS eB dS dB p q,
      parse (A ++ S ++ B) = (.ok (.group "Program" 0 (treeA.children ++ cS ++ cB)), p) ∧
      p.diagnostics = pA.diagnostics ++ eS ++ eB ∧
      p.symbols.declared = pA.symbols.declared ++ dS ++ dB ∧
      parse (A ++ B) = (.ok (.group "Program" 0 (treeA.children ++ cB)), q) ∧
      q.diagnostics = pA.diagnostics ++ eB ∧ q.symbols.declared = pA.symbols.declared ++ dB ∧
      cS.map Node.label = treeS.children.map Node.label ∧
      cB.map Node.label = treeB.children.map Node.label := by
  obtain ⟨cA, nA, _, hstepsA, rfl, hsymbolsA, hdiagnosticsA⟩ := exists_steps_of_parse hA hparseA
  obtain ⟨cS₀, nS₀, _, hstepsS₀, rfl, -, -⟩ := exists_steps_of_parse hS hparseS
  obtain ⟨cB₀, nB₀, _, hstepsB₀, rfl, -, -⟩ := exists_steps_of_parse hB hparseB
  have hABeof : ∀ t ∈ A ++ B, t.kind ≠ .eof := List.forall_mem_append.2 ⟨hA, hB⟩
  have hASBeof : ∀ t ∈ A ++ (S ++ B), t.kind ≠ .eof :=
    List.forall_mem_append.2 ⟨hA, List.forall_mem_append.2 ⟨hS, hB⟩⟩
  -- The token that closes the input stands on a line of its own in each of the two runs.
  obtain ⟨line, hstart⟩ := exists_start_eq hABeof
  obtain ⟨line', hstart'⟩ := exists_start_eq hASBeof
  obtain ⟨cS, cB, nS, nB', nB, hstepsS, hstepsB', hstepsB, hbeside, ⟨eS, heS⟩, ⟨dS, hdS⟩, hlabelsS,
    hlabelsB⟩ := hstepsS₀.exists_insert hstepsB₀ hplan hdeclares nA line line'
  -- What B adds to the notes is the same in both runs.
  obtain ⟨eB, heB, heB'⟩ := hbeside.diagnostics
  obtain ⟨dB, hdB, hdB'⟩ := hbeside.declared
  have hSB : Unattached (S ++ B) := hstepsS₀.unattached.append hstepsB₀.unattached
  -- A, S and B in one run, and A and B in the other.
  have hwith := ((hstepsA.before hSB line').append hstepsS).append hstepsB'
  have hwithout := (hstepsA.before hstepsB₀.unattached line).append hstepsB
  obtain ⟨p, hparse, hsymbols, hdiagnostics⟩ := parse_of_steps hstart' hwith
  obtain ⟨q, hparse', hsymbols', hdiagnostics'⟩ := parse_of_steps hstart hwithout
  refine ⟨cS, cB, eS, eB, dS, dB, p, q, ?_, ?_, ?_, hparse', ?_, ?_, hlabelsS, hlabelsB⟩
  · rw [List.append_assoc]
    exact hparse
  · rw [hdiagnostics, heB', heS, hdiagnosticsA]
  · rw [hsymbols, hdB', hdS, hsymbolsA]
  · rw [hdiagnostics', heB, hdiagnosticsA]
  · rw [hsymbols', hdB, hsymbolsA]

/-- A declaration of a name. -/
def naming : List Token :=
  [⟨.file, "file", 1⟩, ⟨.identifier, "x", 1⟩, ⟨.semicolon, ";", 1⟩]

/-- A block that hides the name, with an error in it. -/
def shadowing : List Token :=
  [⟨.openCurly, "\x7b", 2⟩, ⟨.note, "note", 2⟩, ⟨.identifier, "x", 2⟩, ⟨.assignment, "=", 2⟩,
    ⟨.integer, "1", 2⟩, ⟨.semicolon, ";", 2⟩, ⟨.closeCurly, "\x7d", 2⟩]

/-- A use of the name. -/
def storing : List Token :=
  [⟨.identifier, "x", 3⟩, ⟨.assignment, "=", 3⟩, ⟨.string, "a", 3⟩, ⟨.semicolon, ";", 3⟩]

/-- Behind the block, the name has the type of its declaration before the block. -/
theorem parse_insert_shadowing :
    ∃ cS cB eS p, parse (naming ++ shadowing ++ storing) =
        (.ok (.group "Program" 0
          ([.group "Declaration" 1 [.leaf "x" 1 .file]] ++ cS ++ cB)), p) ∧
      cS.map Node.label = ["Block"] ∧ cB.map Node.label = ["Assignment"] ∧
      p.diagnostics = eS ++ [⟨3, .typeMismatch .assignment "x" .file .string⟩] := by
  have whole (X : List Token) {tree : Node} (h : (parse X).1 = .ok tree) :
      parse X = (.ok tree, (parse X).2) := by rw [← h]
  have hnaming : (parse naming).1 =
      .ok (.group "Program" 0 [.group "Declaration" 1 [.leaf "x" 1 .file]]) := by
    decide +kernel
  have hshadowing : (parse shadowing).1 =
      .ok (.group "Program" 0 [.group "Block" 2 [.group "Declaration" 2
        [.leaf "x" 2 .note, .leaf "1" 2 .int]]]) := by
    decide +kernel
  have hstoring : (parse storing).1 =
      .ok (.group "Program" 0 [.group "Assignment" 3
        [.leaf "x" 3 .unknown, .leaf "\"a\"" 3 .string]]) := by
    decide +kernel
  obtain ⟨cS, cB, eS, eB, _, _, p, q, hparse, hp, -, hparse', hq, -, hcS, hcB⟩ :=
    parse_insert (A := naming) (S := shadowing) (B := storing) (by decide) (by decide) (by decide)
      (whole _ hnaming) (whole _ hshadowing) (whole _ hstoring) (by decide) (by decide)
  have hdiagnostics : (parse (naming ++ storing)).2.diagnostics =
      [⟨3, .typeMismatch .assignment "x" .file .string⟩] := by
    decide +kernel
  have hnone : (parse naming).2.diagnostics = [] := by decide +kernel
  rw [hparse'] at hdiagnostics
  have heB : eB = [⟨3, .typeMismatch .assignment "x" .file .string⟩] := by
    simpa [hnone] using hq.symm.trans hdiagnostics
  refine ⟨cS, cB, eS, p, hparse, hcS, hcB, ?_⟩
  rw [hp, hnone, heB, List.nil_append]

end DrLang
