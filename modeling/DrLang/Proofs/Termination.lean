import DrLang.Proofs.Acceptance
import DrLang.Proofs.Unrolling

/-!
# The cursor is always in range, and parsing ends

A parser may be used by other callers than a parse: they may take tokens, look ahead, start any
parsing function on whatever the last one left behind, and go on after a failure. Whatever the
calls are, the cursor is a place in the token list that the parser began with. It never moves
back, and it moves on where a tree was made. So each recursion comes to an end from wherever the
calls have led.

- `Place`: an index into a token list, with what a cursor does at it.
- `Makes`, `Call`: the parsing functions that make a tree, and all calls.
- `Visited`: a state that some calls lead to.
- `visited_ends`: what is true of all of them.
-/

namespace DrLang

open Parse

/-! ### Places -/

/-- A place in a token list: an index below its length. -/
structure Place (tokens : List Token) where
  index : Nat
  inRange : index < tokens.length

namespace Place

variable {tokens : List Token} (place : Place tokens)

/-- The token at an index, or the last token for an index past it. -/
def token (i : Nat) : Token :=
  tokens.get ⟨min i (tokens.length - 1), by have := place.inRange; omega⟩

/-- The current token. -/
def current : Token :=
  place.token place.index

/-- The class of the token after the current one. -/
def peekKind : TokenKind :=
  (place.token (place.index + 1)).kind

/-- The next place, unless this is the last. -/
def advance : Place tokens :=
  if h : place.index < tokens.length - 1 then ⟨place.index + 1, by omega⟩ else place

/-- The cursor at a place. -/
def cursor : Cursor where
  current := place.current
  rest := tokens.drop (place.index + 1)

theorem token_of_lt {i : Nat} (h : i < tokens.length) : place.token i = tokens[i] := by
  have hmin : min i (tokens.length - 1) = i := by omega
  simp only [token, hmin, List.get_eq_getElem]

theorem tokens_cursor : place.cursor.tokens = tokens.drop place.index := by
  rw [Cursor.tokens, cursor, current, place.token_of_lt place.inRange]
  exact (List.drop_eq_getElem_cons place.inRange).symm

/-- How much is behind the current token at a place. -/
theorem remaining_cursor : place.cursor.remaining = tokens.length - 1 - place.index := by
  simp only [Cursor.remaining, cursor, List.length_drop]
  omega

/-- Behind the last place there is no token. -/
theorem rest_cursor_of_last (h : ¬place.index + 1 < tokens.length) : place.cursor.rest = [] :=
  List.drop_eq_nil_of_le (Nat.le_of_not_lt h)

/-- Before the last place, the next token is the first of the rest. -/
theorem rest_cursor_of_lt (h : place.index + 1 < tokens.length) :
    place.cursor.rest = place.token (place.index + 1) :: tokens.drop (place.index + 2) := by
  rw [place.token_of_lt h]
  exact List.drop_eq_getElem_cons h

/-- Looking ahead at a cursor is looking ahead at its place, by cases on whether `place` is the
last. -/
theorem peekKind_cursor : place.cursor.peekKind = place.peekKind := by
  by_cases h : place.index + 1 < tokens.length
  · rw [Cursor.peekKind, place.rest_cursor_of_lt h, peekKind]
  · -- The last token is followed by itself.
    have hmin :
        min (place.index + 1) (tokens.length - 1) = min place.index (tokens.length - 1) := by
      have := place.inRange
      omega
    rw [Cursor.peekKind, place.rest_cursor_of_last h]
    simp only [cursor, current, peekKind, token, hmin]

theorem cursor_advance : place.advance.cursor = place.cursor.advance := by
  by_cases h : place.index + 1 < tokens.length
  · have hlt : place.index < tokens.length - 1 := by omega
    rw [Cursor.advance, place.rest_cursor_of_lt h, advance, dif_pos hlt]
    rfl
  · have hlast : ¬place.index < tokens.length - 1 := by omega
    rw [Cursor.advance, place.rest_cursor_of_last h, advance, dif_neg hlast]

/-- What is ahead of a cursor is all of a token list from some place on. -/
theorem exists_cursor_eq {c : Cursor} (h : c.tokens <:+ tokens) :
    ∃ place : Place tokens, c = place.cursor := by
  obtain ⟨before, rfl⟩ := h
  have hlt : before.length < (before ++ c.tokens).length := by
    simp [Cursor.tokens]
  refine ⟨⟨before.length, hlt⟩, ?_⟩
  have htokens := tokens_cursor ⟨before.length, hlt⟩
  rw [List.drop_left] at htokens
  obtain ⟨hcurrent, hrest⟩ := List.cons.inj htokens
  exact (Cursor.mk.injEq _ _ _ _).mpr ⟨hcurrent.symm, hrest.symm⟩

end Place

/-! ### Calls -/

/-- The parsing functions that make a tree, which are all that may be started anywhere but the
list of statements. What follows a name in a statement is only started at that name. -/
inductive Makes : {α : Type} → Parse α → Prop where
  | literal : Makes literal
  | nameOrCall : Makes (nameOrCall (expression .standard))
  | grouping : Makes (grouping (expression .standard))
  | binary (left : Typed) (power : BindingPower) : Makes (binary .standard left power)
  | expression (power : BindingPower) : Makes (expression .standard power)
  | condition : Makes (condition .standard)
  | call : Makes (call .standard)
  | declaration : Makes (declaration .standard)
  | simple (site : StoreSite) : Makes (simple .standard site)
  | simpleStatement : Makes (simpleStatement .standard)
  | check : Makes (check .standard)
  | rework : Makes (rework .standard)
  | checklist : Makes (checklist .standard)
  | output : Makes (output .standard)
  | submit : Makes (submit .standard)
  | attach : Makes attach
  | plan : Makes (plan .standard)
  | block : Makes (block .standard)
  | statement : Makes (statement .standard)

/-- What may be asked of a parser: to look at tokens or take them, to start a parsing function,
or to note something. -/
inductive Call : {α : Type} → Parse α → Prop where
  | currentKind : Call currentKind
  | peekKind : Call peekKind
  | advance : Call advance
  | expect (kind : TokenKind) : Call (expect kind)
  | makes {α : Type} {p : Parse α} (hp : Makes p) : Call p
  | statements : Call (statements .standard)
  | notes {α : Type} {p : Parse α} (hp : Silent p) : Call p

variable {α : Type} {p : Parse α}

/-- No parsing function that makes a tree moves back, one instance of `Forward` for each
constructor. -/
theorem Makes.forward (h : Makes p) : Forward p := by
  cases h with
  | check => exact inferInstanceAs (Forward (checkOf _ _))
  | rework => exact inferInstanceAs (Forward (reworkOf _ _))
  | checklist => exact inferInstanceAs (Forward (checklistOf _ _))
  | plan => exact inferInstanceAs (Forward (planOf _))
  | statement => exact inferInstanceAs (Forward (statementOf _ _))
  | binary left power => exact inferInstanceAs (Forward (binaryOf _ left power))
  | _ => infer_instance

/-- Each parsing function that makes a tree moves on where it succeeds, one lemma of
`DrLang.Proofs.Consuming` for each constructor. -/
theorem Makes.consumes (h : Makes p) : Consumes p := by
  cases h with
  | literal => exact consumes_literal
  | nameOrCall => exact consumes_nameOrCall
  | grouping => exact consumes_grouping
  | binary left power => exact consumes_binary left power
  | expression power => exact consumes_expression power
  | condition => exact consumes_condition
  | call => exact consumes_call
  | declaration => exact consumes_declaration
  | simple site => exact consumes_simple site
  | simpleStatement => exact consumes_simpleStatement
  | check => exact consumes_checkOf
  | rework => exact consumes_reworkOf
  | checklist => exact consumes_checklistOf
  | output => exact consumes_keywordExpression _
  | submit => exact consumes_keywordExpression _
  | attach => exact consumes_attach
  | plan => exact consumes_planOf
  | block => exact consumes_block
  | statement => exact consumes_statement

/-- No call moves back: each one is `Forward`. -/
theorem Call.forward (h : Call p) : Forward p := by
  cases h with
  | makes hp => exact hp.forward
  | statements => exact inferInstanceAs (Forward (Parse.remaining >>= fun _ => _))
  | notes hp => exact hp.forward
  | _ => infer_instance

/-- A state that calls on the parser of a token list lead to, whether they succeed or fail. -/
inductive Visited (tokens : List Token) : Parser → Prop where
  | start : Visited tokens (.start tokens)
  | call {α : Type} {p : Parse α} {s : Parser} (hs : Visited tokens s) (hp : Call p) :
    Visited tokens (p.runFrom s).2

/-- Whatever was called, what is ahead is the end of the closed list, by induction on `Visited`
and `Call.forward`. -/
theorem Visited.suffix {tokens : List Token} {s : Parser} (h : Visited tokens s) :
    s.cursor.tokens <:+ Cursor.closed tokens := by
  induction h with
  | start => exact (Cursor.tokens_ofTokens tokens).symm ▸ List.suffix_refl _
  | call _ hp ih => exact (hp.forward.suffix _).trans ih

/-- The end of the input is always ahead, so each state is `Ready` for some bound. -/
theorem Visited.ends {tokens : List Token} {s : Parser} (h : Visited tokens s) :
    s.cursor.tokens.getLast?.map Token.kind = some .eof := by
  obtain ⟨used, hused⟩ := h.suffix
  have hstart : Ready _ (.start tokens) := ready_start tokens
  exact hstart.ends_of_append ((Cursor.tokens_ofTokens tokens).trans hused.symm)

/-! ### Whole programs -/

/-- A whole program, with a parser for the blocks in it. -/
def programOver (body : Parse Node) : Parse Node := do
  let nodes ← allStatementsOf .standard body
  let _ ← expect .eof
  record (.parsed nodes.length (← get).diagnostics.length)
  return .group "Program" 0 nodes

theorem agrees_programOver {n : Nat} {body body' : Parse Node} (hforward : Forward body)
    (h : Agrees n body body') : Agrees n (programOver body) (programOver body') :=
  (agrees_allStatementsOf hforward h).bind inferInstance fun _ => .refl _ _

/-! ### Every call -/

/-- If what is ahead at `place'` is the end of what is ahead at `place`, it is not before it: the
lengths tell. -/
theorem Place.index_le_of_suffix {tokens : List Token} {place place' : Place tokens}
    (h : place'.cursor.tokens <:+ place.cursor.tokens) : place.index ≤ place'.index := by
  have hlength := h.length_le
  have := place.inRange
  rw [tokens_cursor, tokens_cursor, List.length_drop, List.length_drop] at hlength
  omega

/-- A call leads from a place to one that is not before it, and behind it where a tree was made,
by `Makes.consumes`. -/
theorem Call.exists_place {tokens : List Token} {s : Parser} {place : Place (Cursor.closed tokens)}
    (hp : Call p) (hs : Visited tokens s) (hplace : s.cursor = place.cursor) :
    ∃ place' : Place (Cursor.closed tokens), (p.runFrom s).2.cursor = place'.cursor ∧
      place.index ≤ place'.index ∧
      (Makes p → ∀ a, (p.runFrom s).1 = .ok a → place.index < place'.index) := by
  obtain ⟨place', hplace'⟩ := Place.exists_cursor_eq (hs.call hp).suffix
  refine ⟨place', hplace', ?_, ?_⟩
  · apply Place.index_le_of_suffix
    rw [← hplace, ← hplace']
    exact hp.forward.suffix s
  · intro hmakes a hok
    have hready : Ready (s.cursor.remaining + 1) s := ⟨hs.ends, Nat.lt_succ_self _⟩
    have hfits := (hmakes.consumes _ s hready a _ (Prod.ext hok rfl)).fits
    rw [hplace, hplace', Place.remaining_cursor, Place.remaining_cursor] at hfits
    omega

/-- **Parsing ends, and stays in range**: whatever calls were made on the parser of a token list,
whether they succeeded or failed, the list is the one it began with, which is not empty and ends
with the end of the input, and the cursor is at a place in it. From there, looking at tokens and
taking one is done at indices below the length of the list, no call moves back, and each that
makes a tree moves on. The two recursions and the three loops all take a token before they go on,
so that as many turns as there are tokens left are all, and a parse of any list ends. -/
theorem visited_ends :
    (∀ tokens : List Token, Cursor.closed tokens ≠ [] ∧
      (Cursor.closed tokens).getLast?.map Token.kind = some .eof) ∧
    (∀ tokens s, Visited tokens s →
      ∃ place : Place (Cursor.closed tokens), s.cursor = place.cursor ∧
        s.cursor.current = place.current ∧ s.cursor.peekKind = place.peekKind ∧
        s.cursor.advance = place.advance.cursor ∧
        (∀ {α : Type} {p : Parse α}, Call p →
          ∃ place' : Place (Cursor.closed tokens), (p.runFrom s).2.cursor = place'.cursor ∧
            place.index ≤ place'.index ∧
            (Makes p → ∀ a, (p.runFrom s).1 = .ok a → place.index < place'.index)) ∧
        ∀ {ι α : Type} {turn : (ι → Parse α) → ι → Parse α} {p : ι → Parse α},
          Terminates turn p → ∀ depth, (Cursor.closed tokens).length - place.index ≤ depth →
            ∀ beyond i, (turn^[depth] beyond i).runFrom s = (p i).runFrom s) ∧
    Terminates expressionTurn (expression .standard) ∧
    (∀ power, Terminates (operatorsTurn (expression .standard) power)
      (operatorsAfter (expression .standard) power)) ∧
    Terminates (argumentsTurn (expression .standard))
      (fun _ => someArguments (expression .standard)) ∧
    Terminates blockTurn (fun _ => block .standard) ∧
    Terminates (statementsTurn (block .standard)) (fun _ => statements .standard) ∧
    ∀ tokens depth beyond, (Cursor.closed tokens).length ≤ depth →
      (programOver (blockTurn^[depth] beyond ())).runFrom (.start tokens) = parse tokens := by
  refine ⟨fun tokens => ⟨Cursor.closed_ne_nil tokens, Cursor.getLast_closed tokens⟩, ?_,
    terminates_expression, terminates_operators, terminates_arguments, terminates_block,
    terminates_statements consumes_block, ?_⟩
  · intro tokens s hs
    -- What is left of the closed list is a tail of it, and so its place is an index.
    obtain ⟨place, hplace⟩ := Place.exists_cursor_eq hs.suffix
    refine ⟨place, hplace, congrArg Cursor.current hplace, ?_, ?_, ?_, ?_⟩
    · rw [hplace, place.peekKind_cursor]
    · rw [hplace, place.cursor_advance]
    · exact fun hp => hp.exists_place hs hplace
    · intro ι α turn p hterminates depth hdepth beyond i
      have hinRange := place.inRange
      -- The tokens left are those of the closed list behind the place.
      have hfits : s.cursor.remaining < depth := by
        rw [hplace, Place.remaining_cursor]
        omega
      exact hterminates.unrolls beyond depth i s ⟨hs.ends, hfits⟩
  · intro tokens depth beyond hdepth
    have hlength := congrArg List.length (Cursor.tokens_ofTokens tokens)
    have hfits : (Cursor.ofTokens tokens).remaining < depth := by
      simp only [Cursor.tokens, List.length_cons] at hlength
      unfold Cursor.remaining
      omega
    have hready : Ready depth (.start tokens) := ⟨(ready_start tokens).ends, hfits⟩
    have hunrolled : Agrees depth (block .standard) (blockTurn^[depth] beyond ()) :=
      (terminates_block.unrolls beyond depth ()).symm
    exact (agrees_programOver inferInstance hunrolled _ hready).symm

/-- A token list that does not end with the end of the input, but has one inside. -/
def interrupted : List Token :=
  [⟨.eof, "EOF", 1⟩, ⟨.identifier, "x", 2⟩]

/-- After a failure and a move past the end of the input inside, a name is still found. -/
theorem visited_ends_interrupted :
    ∃ s, Visited interrupted s ∧ s.cursor.current = ⟨.identifier, "x", 2⟩ ∧
      ∃ place' : Place (Cursor.closed interrupted),
        ((expression .standard .default).runFrom s).2.cursor = place'.cursor ∧
          place'.current = .endOfInput 2 ∧ 1 < place'.index := by
  have hfailed : Visited interrupted ((expect .identifier).runFrom (.start interrupted)).2 :=
    Visited.start.call (.expect .identifier)
  have hvisited := hfailed.call .advance
  obtain ⟨place, hplace, -, -, -, hcalls, -⟩ := visited_ends.2.1 interrupted _ hvisited
  obtain ⟨place', hplace', -, hmoves⟩ := hcalls (.makes (.expression .default))
  have hlt := hmoves (.expression .default) _ rfl
  have hindex : 1 = 3 - 1 - place.index := by
    rw [show 3 = (Cursor.closed interrupted).length from rfl, ← place.remaining_cursor, ← hplace]
    rfl
  refine ⟨_, hvisited, rfl, place', hplace', ?_, by omega⟩
  rw [show place'.current = place'.cursor.current from rfl, ← hplace']
  rfl

end DrLang
