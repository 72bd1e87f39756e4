import DrLang.Proofs.Calm
import DrLang.Compilation

/-!
# Scope discipline

A construct that opens a frame closes it again, unless it fails on the way. In either case the
frames below the innermost one are not touched, the innermost one is never robbed of a name, and
what was reported, declared or noted before stays. So the frame of a block is always on top when
the block ends, and the global scope is never asked to be closed.

- `Grows`: what a state keeps of an earlier one.
- `Guards`: a step that leaves it so, whether it succeeds or fails, with what holds if it succeeds.
- `level_blockOf`, `level_checklistOf`, `guards_statementOf`, ...: the rules for statements, for any
  tables.
- `Routine`: the parsing functions.
- `routine_grows`: each of them keeps to the discipline.
-/

namespace DrLang

open Parse

/-! ### Frames and states that grow -/

/-- Every name that is bound in a frame has the same binding in another one. -/
def Frame.Gains (frame frame' : Frame) : Prop :=
  ∀ name symbol, frame.find? name = some symbol → frame'.find? name = some symbol

namespace Frame.Gains

variable {frame frame' frame'' : Frame}

theorem refl (frame : Frame) : frame.Gains frame := fun _ _ h => h

/-- A frame that gained names twice has the names that it began with. -/
theorem trans (h : frame.Gains frame') (h' : frame'.Gains frame'') : frame.Gains frame'' :=
  fun name symbol hfound => h' name symbol (h name symbol hfound)

/-- A name that is not bound yet hides none, so the frame `Gains` it. -/
theorem cons {symbol : Symbol} (h : frame.find? symbol.name = none) :
    frame.Gains (symbol :: frame) := by
  intro name found hfound
  have hne : symbol.name ≠ name := by
    rintro rfl
    rw [h] at hfound
    simp at hfound
  rw [← hfound, find?, List.find?_cons_of_neg (by simpa using hne)]
  rfl

end Frame.Gains

/-- What a state keeps of an earlier one: the frames below the innermost one, the innermost one
with its names, all that was declared, reported and logged, and the entry point. An entry point
that was not known may be known now; its line is that of a token that was ahead, of a class that
`K` admits. -/
structure Grows (K : TokenKind → Prop) (s s' : Parser) : Prop where
  tokens : s'.cursor.tokens <:+ s.cursor.tokens
  frames : ∃ opened innermost, s'.symbols.frames = opened ++ innermost :: s.symbols.outer ∧
    s.symbols.innermost.Gains innermost
  declared : s.symbols.declared <+: s'.symbols.declared
  diagnostics : s.diagnostics <+: s'.diagnostics
  entryPoint : s'.entryPoint? = s.entryPoint? ∨
    s.entryPoint? = none ∧ ∃ t ∈ s.cursor.tokens, K t.kind ∧ s'.entryPoint? = some t.line
  log : LogGrows s s'

/-- Two states with the same frames open. -/
def SameFrames (s s' : Parser) : Prop :=
  s'.symbols.frames = s.symbols.frames

/-- Two states with the same frames open below the innermost one. -/
def SameOuter (s s' : Parser) : Prop :=
  s'.symbols.outer = s.symbols.outer

/-- With the same frames open, the ones below the innermost are the same. -/
theorem SameFrames.outer {s s' : Parser} (h : SameFrames s s') : SameOuter s s' :=
  (List.cons.inj h).2

theorem SameFrames.trans {s s' s'' : Parser} (h : SameFrames s s') (h' : SameFrames s' s'') :
    SameFrames s s'' :=
  Eq.trans h' h

/-- The frames below the innermost one, which may itself gain names in both steps. -/
theorem SameOuter.trans {s s' s'' : Parser} (h : SameOuter s s') (h' : SameOuter s' s'') :
    SameOuter s s'' :=
  Eq.trans h' h

/-- In the later state, one frame more is open on top of those of the earlier one. -/
def Opens (s s' : Parser) : Prop :=
  s'.symbols.outer = s.symbols.frames

/-- A frame that is on top stays there while only names are bound in it. This is what the closing
brace of a block counts on. -/
theorem Opens.behind {s s' s'' : Parser} (h : Opens s s') (h' : SameOuter s' s'') : Opens s s'' :=
  Eq.trans h' h

theorem Stays.sameFrames {s s' : Parser} (h : Stays s s') : SameFrames s s' :=
  congrArg SymbolTable.frames h.symbols

namespace Grows

variable {K : TokenKind → Prop} {s s' s'' : Parser}

/-- If more frames are `opened`, the innermost of the first state is further below, and still has
its names. -/
theorem frames_trans {t t' t'' : SymbolTable}
    (h : ∃ opened innermost, t'.frames = opened ++ innermost :: t.outer ∧
      t.innermost.Gains innermost)
    (h' : ∃ opened innermost, t''.frames = opened ++ innermost :: t'.outer ∧
      t'.innermost.Gains innermost) :
    ∃ opened innermost, t''.frames = opened ++ innermost :: t.outer ∧
      t.innermost.Gains innermost := by
  obtain ⟨opened, innermost, hframes, hgains⟩ := h
  obtain ⟨opened', innermost', hframes', hgains'⟩ := h'
  cases opened with
  | nil =>
    -- The innermost frame is the same one, and has gained twice.
    obtain ⟨rfl, houter⟩ := List.cons.inj hframes
    exact ⟨opened', innermost', by rw [hframes', houter], hgains.trans hgains'⟩
  | cons top opened =>
    obtain ⟨-, houter⟩ := List.cons.inj hframes
    refine ⟨opened' ++ innermost' :: opened, innermost, ?_, hgains⟩
    rw [hframes', houter, List.append_assoc]
    rfl

theorem of_stays (h : Stays s s') : Grows K s s' := by
  obtain ⟨⟨errors, hkeeps⟩, hlog⟩ := h
  refine ⟨hkeeps.tokens, ⟨[], s.symbols.innermost, ?_, .refl _⟩, ?_, ?_,
    .inl hkeeps.entryPoint, hlog⟩
  · rw [hkeeps.symbols]
    rfl
  · rw [hkeeps.symbols]
  · rw [hkeeps.diagnostics]
    exact List.prefix_append _ _

theorem refl (s : Parser) : Grows K s s := of_stays (.refl s)

/-- What is kept twice is kept. For `entryPoint?`: it was known before, or is noted in one of the
two steps, at a token that was ahead of the first state. -/
theorem trans (h : Grows K s s') (h' : Grows K s' s'') : Grows K s s'' where
  tokens := h'.tokens.trans h.tokens
  frames := frames_trans h.frames h'.frames
  declared := h.declared.trans h'.declared
  diagnostics := h.diagnostics.trans h'.diagnostics
  entryPoint := by
    rcases h.entryPoint with hsame | ⟨hnone, t, ht, hK, hsome⟩
    · rcases h'.entryPoint with hsame' | ⟨hnone', t, ht, hK, hsome⟩
      · exact .inl (hsame'.trans hsame)
      · exact .inr ⟨hsame ▸ hnone', t, h.tokens.subset ht, hK, hsome⟩
    · rcases h'.entryPoint with hsame' | ⟨hnone', -⟩
      · exact .inr ⟨hnone, t, ht, hK, hsame'.trans hsome⟩
      · simp [hnone'] at hsome
  log := h.log.trans h'.log

theorem stays (h : Grows K s s') (h' : Stays s' s'') : Grows K s s'' :=
  h.trans (of_stays h')

/-- No step that keeps the discipline ends with fewer frames than it began with: `frames` counts
those on top. -/
theorem depth_le (h : Grows K s s') : s.symbols.depth ≤ s'.symbols.depth := by
  obtain ⟨opened, innermost, hframes, -⟩ := h.frames
  have hlength := congrArg List.length hframes
  simp only [SymbolTable.frames, SymbolTable.depth, List.length_append, List.length_cons] at *
  omega

/-- An entry point that is known stays. -/
theorem entryPoint_of_some (h : Grows K s s') {line : Nat} (hline : s.entryPoint? = some line) :
    s'.entryPoint? = some line := by
  rcases h.entryPoint with hsame | ⟨hnone, -⟩
  · rw [hsame, hline]
  · simp [hnone] at hline

end Grows

/-- The number of frames does not count what is in the innermost. -/
theorem SameOuter.depth_eq {s s' : Parser} (h : SameOuter s s') :
    s'.symbols.depth = s.symbols.depth :=
  congrArg (fun outer => outer.length + 1) h

/-! ### Steps that keep what was there -/

section Guards

variable {α β : Type} {K : TokenKind → Prop} {s₀ s : Parser} {p : Parse α} {f : α → Parse β}
  {P Q : α → Parser → Prop} {R : β → Parser → Prop}

/-- From a state `s` that came of `s₀`, whether a step succeeds or fails, what `s₀` had is kept.
If it succeeds, its result and the state behind it satisfy `Q`. -/
structure Guards (K : TokenKind → Prop) (s₀ : Parser) (p : Parse α) (s : Parser)
    (Q : α → Parser → Prop) : Prop where
  grows : Grows K s₀ (p.runFrom s).2
  ensures : Ensures p s Q

/-- To grow is an invariant like others: `Guards` is `Upholds` for it. -/
theorem guards_iff_upholds : Guards K s₀ p s Q ↔ Upholds (Grows K s₀) p s Q :=
  ⟨fun h => ⟨h.grows, h.ensures⟩, fun h => ⟨h.invariant, h.ensures⟩⟩

/-- A sequence of steps: from the state between them, the second one is compared with `s₀` still.
If the first one fails, what it left is what is kept. -/
theorem Guards.bind (hp : Guards K s₀ p s P)
    (hf : ∀ a s', Grows K s₀ s' → P a s' → Guards K s₀ (f a) s' R) :
    Guards K s₀ (p >>= f) s R := by
  have hbind : Upholds (Grows K s₀) (p >>= f) s R :=
    (guards_iff_upholds.1 hp).bind fun a s' hgrows hP => guards_iff_upholds.1 (hf a s' hgrows hP)
  exact guards_iff_upholds.2 hbind

theorem Guards.imp (hp : Guards K s₀ p s P) (hPQ : ∀ a s', P a s' → Q a s') :
    Guards K s₀ p s Q :=
  ⟨hp.grows, hp.ensures.imp hPQ⟩

theorem Guards.congr {q : Parse α} (heq : p.runFrom s = q.runFrom s) (h : Guards K s₀ q s Q) :
    Guards K s₀ p s Q :=
  guards_iff_upholds.2 ((guards_iff_upholds.1 h).congr heq)

/-- What keeps all that `s` had keeps what `s₀` had before it. -/
theorem Guards.behind (h : Guards K s p s Q) (hs : Grows K s₀ s) : Guards K s₀ p s Q :=
  ⟨hs.trans h.grows, h.ensures⟩

/-- A calm step may stand anywhere in a construct: `Grows.stays` adds it to what was there. -/
theorem Calm.guards (hp : Calm p) (hs : Grows K s₀ s) :
    Guards K s₀ p s fun _ s' => Stays s s' := by
  refine ⟨hs.stays (hp s), fun a s' hrun => ?_⟩
  have hstays := hp s
  rw [hrun] at hstays
  exact hstays

theorem guards_pure {a : α} (hs : Grows K s₀ s) (h : Q a s) : Guards K s₀ (pure a) s Q :=
  ⟨hs, ensures_pure h⟩

theorem guards_currentKind_bind {f : TokenKind → Parse β}
    (h : Guards K s₀ (f s.cursor.current.kind) s R) : Guards K s₀ (currentKind >>= f) s R :=
  h.congr (runFrom_currentKind_bind s f)

/-- A failure keeps all there is, so what `Grows` up to it is enough. -/
theorem guards_unexpected (expected : Expectation) (hs : Grows K s₀ s) :
    Guards K s₀ (unexpected expected : Parse α) s Q :=
  ⟨hs, ensures_unexpected expected⟩

/-! ### Bindings and the entry point -/

/-- A symbol is bound on top, or its name has a binding there already. -/
theorem guards_bindName (symbol : Symbol) :
    Guards K s (bindName symbol) s fun _ s' => SameOuter s s' := by
  have hown : s.notes.symbols.innermost = s.symbols.innermost := rfl
  cases h : s.symbols.innermost.find? symbol.name with
  | none =>
    have hdeclare : s.notes.symbols.declare symbol = _ := SymbolTable.declare_of_none h
    have hyields := yields_bindName_of_ok hdeclare
    refine ⟨?_, hyields.ensures rfl⟩
    rw [show (bindName symbol).runFrom s = _ from hyields s.cursor]
    exact ⟨List.suffix_refl _, ⟨[], _, rfl, .cons h⟩, List.prefix_append _ _,
      List.prefix_refl _, .inl rfl, .of_eq rfl⟩
  | some previous =>
    have hdeclare : s.notes.symbols.declare symbol = _ := SymbolTable.declare_of_some h
    have hyields := yields_bindName_of_error hdeclare
    refine ⟨?_, hyields.ensures rfl⟩
    rw [show (bindName symbol).runFrom s = _ from hyields s.cursor]
    -- A repeated name is reported and nothing is bound.
    exact .of_stays ⟨⟨_, keeps_report s _ _⟩, .of_event rfl (by simp)⟩

/-- The entry point is noted on the line of a token that was ahead of `s₀`, of a class that `K`
admits. -/
theorem guards_noteEntryPoint {t : Token} (hs : Grows K s₀ s) (ht : t ∈ s₀.cursor.tokens)
    (hK : K t.kind) : Guards K s₀ (noteEntryPoint t.line) s fun _ s' => SameFrames s s' := by
  cases h : s.entryPoint? with
  | none =>
    have hyields : Yields (noteEntryPoint t.line) s.notes ()
        { s.notes with entryPoint? := some t.line } :=
      yields_noteEntryPoint_of_none h
    refine ⟨?_, hyields.ensures rfl⟩
    rw [show (noteEntryPoint t.line).runFrom s = _ from hyields s.cursor]
    -- Entry points are never forgotten: had there been one before, there would be one now.
    have hnone : s₀.entryPoint? = none := by
      cases h₀ : s₀.entryPoint? with
      | none => rfl
      | some line => simp [hs.entryPoint_of_some h₀] at h
    exact ⟨hs.tokens, hs.frames, hs.declared, hs.diagnostics, .inr ⟨hnone, t, ht, hK, rfl⟩, hs.log⟩
  | some previous =>
    have hyields : Yields (noteEntryPoint t.line) s.notes ()
        (s.notes.report t.line (.entryPointRedefined previous)) :=
      yields_noteEntryPoint_of_some h
    refine ⟨?_, hyields.ensures rfl⟩
    rw [show (noteEntryPoint t.line).runFrom s = _ from hyields s.cursor]
    exact hs.stays ⟨⟨_, keeps_report s _ _⟩, .of_event rfl (by simp)⟩

/-! ### Frames -/

/-- A frame is opened on top of those of `s`. -/
theorem guards_enterScope (hs : Grows K s₀ s) :
    Guards K s₀ enterScope s fun _ s' => Opens s s' ∧ Grows K s s' := by
  have hgrows : Grows K s (enterScope.runFrom s).2 :=
    ⟨List.suffix_refl _, ⟨[[]], _, rfl, .refl _⟩, List.prefix_refl _, List.prefix_refl _, .inl rfl,
      .of_event rfl (by simp [SymbolTable.enterEvent])⟩
  refine ⟨hs.trans hgrows, fun _ s' hrun => ?_⟩
  rw [runFrom_enterScope] at hrun hgrows
  obtain ⟨-, rfl⟩ := Prod.mk.inj hrun
  exact ⟨rfl, hgrows⟩

/-- Where the frames below the innermost one are those of `s₀`, closing it brings them back. -/
theorem guards_exitScope (hs : Grows K s₀ s) (hopens : Opens s₀ s) :
    Guards K s₀ exitScope s fun _ s' => SameFrames s₀ s' := by
  -- The frame that was opened lies on top of those of `s₀`, so closing it brings them back.
  have hexit : s.symbols.exit = ⟨s₀.symbols.innermost, s₀.symbols.outer, s.symbols.declared⟩ := by
    rw [SymbolTable.exit, show s.symbols.outer = s₀.symbols.frames from hopens]
    rfl
  have hevent : s.symbols.exitEvent ≠ .globalScopeKept := by
    rw [SymbolTable.exitEvent, show s.symbols.outer = s₀.symbols.frames from hopens]
    simp [SymbolTable.frames]
  constructor
  · rw [runFrom_exitScope, hexit]
    exact ⟨hs.tokens, ⟨[], _, rfl, .refl _⟩, hs.declared, hs.diagnostics, hs.entryPoint,
      hs.log.trans (.of_event rfl hevent)⟩
  · intro _ s' hrun
    rw [runFrom_exitScope, hexit] at hrun
    obtain ⟨-, rfl⟩ := Prod.mk.inj hrun
    rfl

/-! ### Steps that close what they open -/

/-- A step that keeps what was there and, if it succeeds, leaves the frames as they were. -/
def Level (K : TokenKind → Prop) (p : Parse α) (s : Parser) : Prop :=
  Guards K s p s fun _ s' => SameFrames s s'

theorem Calm.level (hp : Calm p) : Level K p s :=
  (hp.guards (.refl s)).imp fun _ _ h => h.sameFrames

theorem Level.bind (hp : Level K p s) (hf : ∀ a s', Level K (f a) s') : Level K (p >>= f) s := by
  refine Guards.bind hp fun a s' hgrows hsame => ?_
  exact ((hf a s').behind hgrows).imp fun _ _ hsame' => hsame.trans hsame'

/-- A frame around what is done inside it: with `Opens`, its end may be reached. -/
theorem level_enterScope_bind {f : Unit → Parse β}
    (hf : ∀ s', Grows K s s' → Opens s s' →
      Guards K s (f ()) s' fun _ s'' => SameFrames s s'') : Level K (enterScope >>= f) s :=
  (guards_enterScope (.refl s)).bind fun _ s' hgrows h => hf s' hgrows h.1

end Guards

/-! ### Statements -/

section Rules

variable {K : TokenKind → Prop} {rules : Rules} {s : Parser}

/-- A declaration may bind a name in the innermost frame, and in no other: `SameOuter`, not
`SameFrames`. -/
theorem guards_declaration :
    Guards K s (declaration rules) s fun n s' => n.label = "Declaration" ∧ SameOuter s s' := by
  refine (calm_advance.guards (.refl s)).bind fun keyword s₁ hgrows₁ hstays₁ => ?_
  split
  case h_1 => exact ⟨hgrows₁, ensures_throw _⟩
  case h_2 type _ =>
    refine ((calm_expect _).guards hgrows₁).bind fun name s₂ hgrows₂ hstays₂ => ?_
    refine ((guards_bindName _).behind hgrows₂).bind fun _ s₃ hgrows₃ houter => ?_
    have hvalue : Calm (initializer rules name type) := calm_initializer rules name type
    refine (hvalue.guards hgrows₃).bind fun value s₄ hgrows₄ hstays₄ => ?_
    refine ((calm_expect _).guards hgrows₄).bind fun _ s₅ hgrows₅ hstays₅ => ?_
    have hbefore : SameOuter s s₂ := (hstays₁.trans hstays₂).sameFrames.outer
    have hbehind : SameOuter s₃ s₅ := (hstays₄.trans hstays₅).sameFrames.outer
    exact guards_pure hgrows₅ ⟨rfl, (hbefore.trans houter).trans hbehind⟩

variable {body : Parse Node} (hbody : ∀ s, Level K body s)
include hbody

theorem level_checkOf : Level K (checkOf rules body) s := by
  refine calm_advance.level.bind fun keyword s₁ => (calm_expect _).level.bind fun _ s₂ => ?_
  refine (calm_gate rules keyword).level.bind fun decision s₃ => ?_
  refine (calm_expect _).level.bind fun _ s₄ => (hbody s₄).bind fun block s₅ => ?_
  refine calm_currentKind.level.bind fun kind s₆ => ?_
  split
  · refine calm_advance.level.bind fun _ s₇ => (hbody s₇).bind fun alternative s₈ => ?_
    exact (calm_pure _).level
  · exact (calm_pure _).level

theorem level_reworkOf : Level K (reworkOf rules body) s := by
  refine calm_advance.level.bind fun keyword s₁ => (calm_expect _).level.bind fun _ s₂ => ?_
  refine (calm_gate rules keyword).level.bind fun decision s₃ => ?_
  refine (calm_expect _).level.bind fun _ s₄ => (hbody s₄).bind fun block s₅ => ?_
  exact (calm_pure _).level

/-- The frame of the header is open around the block, whose own frame comes on top of it. -/
theorem level_checklistOf : Level K (checklistOf rules body) s := by
  refine calm_advance.level.bind fun keyword s₁ => (calm_expect _).level.bind fun _ s₂ => ?_
  refine level_enterScope_bind fun s₃ hgrows₃ hopens₃ => ?_
  refine guards_currentKind_bind ?_
  split
  case isFalse => exact guards_unexpected _ hgrows₃
  case isTrue =>
    refine (guards_declaration.behind hgrows₃).bind fun counter s₄ hgrows₄ h => ?_
    refine ((calm_gate rules keyword).guards hgrows₄).bind fun decision s₅ hgrows₅ hstays₅ => ?_
    refine ((calm_expect _).guards hgrows₅).bind fun _ s₆ hgrows₆ hstays₆ => ?_
    refine ((calm_simple rules _).guards hgrows₆).bind fun update s₇ hgrows₇ hstays₇ => ?_
    refine ((calm_expect _).guards hgrows₇).bind fun _ s₈ hgrows₈ hstays₈ => ?_
    refine ((hbody s₈).behind hgrows₈).bind fun block s₉ hgrows₉ hsame => ?_
    -- The header binds the counter in the new frame and leaves those below it alone.
    have hheader : SameOuter s₃ s₈ :=
      h.2.trans (((hstays₅.trans hstays₆).trans hstays₇).trans hstays₈).sameFrames.outer
    have hopens := hopens₃.behind (hheader.trans hsame.outer)
    refine (guards_exitScope hgrows₉ hopens).bind fun _ s₁₀ hgrows₁₀ hexits => ?_
    exact guards_pure hgrows₁₀ hexits

/-- The entry point opens a frame around its block and closes it; in between, `Opens` says that it
is on top. -/
theorem level_planOf (hK : K s.cursor.current.kind) : Level K (planOf body) s := by
  have htaken : Guards K s advance s fun t s' => t = s.cursor.current ∧ Keeps s s' [] :=
    ⟨.of_stays (calm_advance s), ensures_advance⟩
  refine Guards.bind htaken fun keyword s₁ hgrows₁ h => ?_
  obtain ⟨rfl, hkeeps₁⟩ := h
  refine ((calm_expect _).guards hgrows₁).bind fun _ s₂ hgrows₂ hstays₂ => ?_
  refine ((calm_expect _).guards hgrows₂).bind fun _ s₃ hgrows₃ hstays₃ => ?_
  refine ((calm_expect _).guards hgrows₃).bind fun _ s₄ hgrows₄ hstays₄ => ?_
  have htaken : SameFrames s s₁ := congrArg SymbolTable.frames hkeeps₁.symbols
  have hheader := htaken.trans ((hstays₂.trans hstays₃).trans hstays₄).sameFrames
  have hnoted := guards_noteEntryPoint hgrows₄ (List.mem_cons_self : s.cursor.current ∈ _) hK
  refine hnoted.bind fun _ s₅ hgrows₅ hsame₅ => ?_
  -- The frame is opened once the entry point is noted.
  have hframed : Level K (enterScope >>= fun _ => body >>= fun block => exitScope >>= fun _ =>
      pure (Node.group "PlanMain" s.cursor.current.line [block])) s₅ := by
    refine level_enterScope_bind fun s₆ hgrows₆ hopens₆ => ?_
    refine ((hbody s₆).behind hgrows₆).bind fun block s₇ hgrows₇ hsame₇ => ?_
    have hopens := hopens₆.behind hsame₇.outer
    refine (guards_exitScope hgrows₇ hopens).bind fun _ s₈ hgrows₈ hexits => ?_
    exact guards_pure hgrows₈ hexits
  exact (hframed.behind hgrows₅).imp fun _ _ h => (hheader.trans hsame₅).trans h

/-! ### Lists and blocks -/

/-- What holds behind a statement: only a declaration may have bound a name. -/
def Behind (s : Parser) (n : Node) (s' : Parser) : Prop :=
  SameOuter s s' ∧ (n.label ≠ "Declaration" → SameFrames s s')

omit hbody in
/-- What leaves the frames leaves them also if it is no declaration. -/
theorem Level.behind {p : Parse Node} (h : Level K p s) : Guards K s p s (Behind s) :=
  h.imp fun _ _ hsame => ⟨hsame.outer, fun _ => hsame⟩

variable (hplan : ∀ kind, rules.statement? kind = some .plan → K kind)
include hplan

/-- One statement: declarations by `guards_declaration`, all others by `Level.behind`. -/
theorem guards_statementOf : Guards K s (statementOf rules body) s (Behind s) := by
  refine guards_currentKind_bind ?_
  split
  case h_1 => exact guards_unexpected _ (.refl s)
  case h_2 => exact guards_unexpected _ (.refl s)
  case h_3 => exact guards_declaration.imp fun n s' h => ⟨h.2, fun hne => absurd h.1 hne⟩
  case h_4 => exact (calm_simpleStatement rules).level.behind
  case h_5 => exact (level_checkOf hbody).behind
  case h_6 => exact (level_reworkOf hbody).behind
  case h_7 => exact (level_checklistOf hbody).behind
  case h_8 => exact (calm_keywordExpression rules _).level.behind
  case h_9 => exact (calm_keywordExpression rules _).level.behind
  case h_10 => exact (hbody s).behind
  case h_11 => exact calm_attach.level.behind
  case h_12 hrule => exact (level_planOf hbody (hplan _ hrule)).behind
  case h_13 => exact (calm_call rules).level.behind

/-- Statements bind names in the frame that is open around them, and in no other. By induction on
`bound`. -/
theorem guards_allStatementsWithin (bound : Nat) :
    Guards K s (allStatementsWithin rules body bound) s fun _ s' => SameOuter s s' := by
  induction bound generalizing s with
  | zero => exact guards_pure (.refl s) rfl
  | succ bound ih =>
    have hrun := runFrom_allStatementsWithin_succ rules body bound s
    by_cases hclosed : s.cursor.current.kind = .eof ∨ s.cursor.current.kind = .closeCurly
    · rw [if_pos hclosed] at hrun
      exact Guards.congr hrun (guards_pure (.refl s) rfl)
    · rw [if_neg hclosed] at hrun
      refine Guards.congr hrun ?_
      refine (guards_statementOf hbody hplan).bind fun n s₁ hgrows₁ hfirst => ?_
      refine (ih.behind hgrows₁).bind fun ns s₂ hgrows₂ hothers => ?_
      exact guards_pure hgrows₂ (hfirst.1.trans hothers)

/-- As `guards_allStatementsWithin`, with the bound that the tokens left give. -/
theorem guards_allStatementsOf :
    Guards K s (allStatementsOf rules body) s fun _ s' => SameOuter s s' :=
  (guards_allStatementsWithin hbody hplan _).congr (runFrom_allStatementsOf _ _ s)

/-- A block closes the frame it opened: behind its statements `Opens` still holds, by
`Opens.behind`. -/
theorem level_blockOf : Level K (blockOf rules body) s := by
  refine (calm_expect _).level.bind fun opening s₁ => ?_
  refine level_enterScope_bind fun s₂ hgrows₂ hopens₂ => ?_
  refine ((guards_allStatementsOf hbody hplan).behind hgrows₂).bind fun nodes s₃ hgrows₃ hsame => ?_
  refine ((calm_expect _).guards hgrows₃).bind fun _ s₄ hgrows₄ hstays₄ => ?_
  have hopens := hopens₂.behind (hsame.trans hstays₄.sameFrames.outer)
  refine (guards_exitScope hgrows₄ hopens).bind fun _ s₅ hgrows₅ hexits => ?_
  exact guards_pure hgrows₅ hexits

omit hbody

/-- Blocks inside blocks, to any depth: the induction is on the bound, and each one is `Level`
over the next. -/
theorem level_blockWithin (bound : Nat) : Level K (blockWithin rules bound) s := by
  induction bound generalizing s with
  | zero => exact (calm_unexpected _).level
  | succ bound ih => exact level_blockOf (fun s => ih) hplan

theorem level_block : Level K (block rules) s :=
  calm_remaining.level.bind fun _ _ => level_blockWithin hplan _

/-- The statements of a program, which stand in the global frame. -/
theorem guards_statements :
    Guards K s (allStatementsOf rules (block rules)) s fun _ s' => SameOuter s s' :=
  guards_allStatementsOf (fun _ => level_block hplan) hplan

end Rules

/-! ### The parsing functions -/

/-- The parsing functions: statements up to the end of a block or of the input, one statement,
each rule for a statement, and those for the parts of statements. -/
inductive Routine (rules : Rules) : {α : Type} → Parse α → Prop where
  | statements : Routine rules (allStatementsOf rules (block rules))
  | statement : Routine rules (statement rules)
  | declaration : Routine rules (declaration rules)
  | simpleStatement : Routine rules (simpleStatement rules)
  | simple (site : StoreSite) : Routine rules (simple rules site)
  | check : Routine rules (check rules)
  | rework : Routine rules (rework rules)
  | checklist : Routine rules (checklist rules)
  | output : Routine rules (output rules)
  | submit : Routine rules (submit rules)
  | block : Routine rules (block rules)
  | attach : Routine rules attach
  | plan : Routine rules (plan rules)
  | expression (power : BindingPower) : Routine rules (expression rules power)
  | condition : Routine rules (condition rules)
  | call : Routine rules (call rules)

/-- The class of any token may lead to the entry point: the rule for it takes whatever comes. -/
def AnyKind (_ : TokenKind) : Prop := True

/-- All parsing functions, one case for each constructor of `Routine`. -/
theorem Routine.guards {rules : Rules} {α : Type} {p : Parse α} (h : Routine rules p) (s : Parser) :
    Guards AnyKind s p s fun _ s' => SameOuter s s' := by
  have hplan : ∀ kind, rules.statement? kind = some .plan → AnyKind kind := fun _ _ => trivial
  have hblock (s : Parser) : Level AnyKind (Parse.block rules) s := level_block hplan
  have level {α : Type} {p : Parse α} (h : Level AnyKind p s) :
      Guards AnyKind s p s fun _ s' => SameOuter s s' := h.imp fun _ _ hsame => hsame.outer
  cases h with
  | statements => exact guards_statements hplan
  | statement => exact (guards_statementOf hblock hplan).imp fun _ _ h => h.1
  | declaration => exact guards_declaration.imp fun _ _ h => h.2
  | simpleStatement => exact level (calm_simpleStatement rules).level
  | simple site => exact level (calm_simple rules site).level
  | check => exact level (level_checkOf hblock)
  | rework => exact level (level_reworkOf hblock)
  | checklist => exact level (level_checklistOf hblock)
  | output => exact level (calm_keywordExpression rules _).level
  | submit => exact level (calm_keywordExpression rules _).level
  | block => exact level (hblock s)
  | attach => exact level calm_attach.level
  | plan => exact level (level_planOf hblock trivial)
  | expression power => exact level (calm_expression rules power).level
  | condition => exact level (calm_condition rules).level
  | call => exact level (calm_call rules).level

/-- A whole program is parsed in the global scope, and ends there if it is accepted. -/
theorem guards_program (rules : Rules) (s : Parser) :
    Guards AnyKind s (program rules) s fun _ s' => SameOuter s s' := by
  refine (Routine.statements.guards s).bind fun nodes s₁ hgrows₁ houter => ?_
  refine ((calm_expect _).guards hgrows₁).bind fun _ s₂ hgrows₂ hstays₂ => ?_
  refine (calm_get.guards hgrows₂).bind fun state s₃ hgrows₃ hstays₃ => ?_
  refine ((calm_record (by simp)).guards hgrows₃).bind fun _ s₄ hgrows₄ hstays₄ => ?_
  exact guards_pure hgrows₄
    (houter.trans ((hstays₂.trans hstays₃).trans hstays₄).sameFrames.outer)

/-- The warning about the global scope is never logged: `LogGrows` excludes it from all that a
parse logs, and the scan of a source logs other events. -/
theorem globalScopeKept_notMem_compileLog (source : String) :
    .globalScopeKept ∉ compileLog source := by
  have htokens (tokens : List Token) : .globalScopeKept ∉ tokens.map Event.tokenRead := by simp
  unfold compileLog
  split
  case h_1 tokens e _ => exact htokens tokens
  case h_2 tokens _ =>
    obtain ⟨events, hlog, hnot⟩ := (guards_program .standard (.start tokens)).grows.log
    have hparse : (parse tokens).2.log = events := hlog
    rw [hparse, List.mem_append, List.mem_cons]
    rintro (hmem | hmem | hmem)
    · exact htokens tokens hmem
    · simp at hmem
    · exact hnot hmem

/-- **Scope discipline**: whatever a parsing function is started on, and whether it succeeds or
fails, the open frames, the declarations, the errors, the entry point and the log only grow as
`Grows` says, and the depth is not smaller than before. If it succeeds, the depth is as before.
So an accepted program ends in the global scope, and no compilation tries to close that. -/
theorem routine_grows :
    (∀ {rules : Rules} {α : Type} {p : Parse α}, Routine rules p → ∀ s r s', p.runFrom s = (r, s') →
      Grows AnyKind s s' ∧ s.symbols.depth ≤ s'.symbols.depth ∧
        ∀ a, r = .ok a → s'.symbols.depth = s.symbols.depth) ∧
    (∀ tokens tree s, parse tokens = (.ok tree, s) → s.symbols.depth = 1) ∧
    ∀ source, .globalScopeKept ∉ compileLog source := by
  refine ⟨fun {rules α p} hp s r s' hrun => ?_, fun tokens tree s hparse => ?_,
    globalScopeKept_notMem_compileLog⟩
  · have hguards := hp.guards s
    have hgrows := hguards.grows
    rw [hrun] at hgrows
    refine ⟨hgrows, hgrows.depth_le, fun a ha => ?_⟩
    -- Only a run that succeeds closes what it opened: a failed one may stop inside a block.
    subst ha
    exact SameOuter.depth_eq (hguards.ensures a s' hrun)
  · have houter := (guards_program .standard (.start tokens)).ensures tree s hparse
    exact SameOuter.depth_eq houter

/-- A state inside the global scope, with a name in it and a block ahead that is never closed. -/
def unclosed : Parser where
  cursor := .ofTokens [⟨.file, "file", 2⟩, ⟨.identifier, "y", 2⟩, ⟨.semicolon, ";", 2⟩,
    ⟨.openCurly, "\x7b", 2⟩, ⟨.status, "status", 3⟩, ⟨.identifier, "x", 3⟩, ⟨.semicolon, ";", 3⟩]
  symbols := ⟨[⟨"x", .note, 1⟩], [], [⟨"x", .note, 1⟩]⟩
  diagnostics := []
  entryPoint? := none
  log := []

/-- The block leaves its frame open when it fails, over one that has a name more. -/
theorem routine_grows_unclosed :
    ∃ e s', (allStatementsOf .standard (block .standard)).runFrom unclosed = (.error e, s') ∧
      s'.symbols.frames = [[⟨"x", .status, 3⟩], [⟨"y", .file, 2⟩, ⟨"x", .note, 1⟩]] ∧
      Grows AnyKind unclosed s' ∧ unclosed.symbols.depth ≤ s'.symbols.depth := by
  have hframes : ((allStatementsOf .standard (block .standard)).runFrom unclosed).2.symbols.frames =
      [[⟨"x", .status, 3⟩], [⟨"y", .file, 2⟩, ⟨"x", .note, 1⟩]] := by
    decide +kernel
  cases hrun : (allStatementsOf .standard (block .standard)).runFrom unclosed with
  | mk r s' =>
    rw [hrun] at hframes
    obtain ⟨hgrows, hdepth, hok⟩ := routine_grows.1 .statements unclosed r s' hrun
    cases r with
    | error e => exact ⟨e, s', rfl, hframes, hgrows, hdepth⟩
    | ok nodes =>
      -- Two frames are open, where success would have left one.
      have hlength := congrArg List.length hframes
      have hsame := hok nodes rfl
      simp [SymbolTable.frames, SymbolTable.depth, unclosed] at hlength hsame
      exact absurd hlength (by simp [hsame])

end DrLang
