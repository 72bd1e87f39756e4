import DrLang.Proofs.Likeness

/-!
# Two kinds of surroundings

The same tokens may be parsed after different beginnings. Whatever was noted before, the trees
have the same shape. If in addition the open scopes and the entry point are the same, the trees
are equal, and the same errors, declarations and events are added to what was there.

- `Likeness.shape`: the same tokens after any notes.
- `Guise.likeness`: tokens that look alike in any way, after any notes.
- `Beside`: notes that came of two pasts in the same way.
- `Likeness.beside`: the same tokens after such notes.
- `Likeness.map_label_of_shape`, `Likeness.eq_of_nodes`: what the trees have in common.
-/

namespace DrLang

open Parse

/-! ### Silent steps in sequence -/

section Respects

variable {α β γ δ : Type} {notes : Notes → Notes → Prop} {P : α → β → Prop} {R : γ → δ → Prop}
  {p : Parse α} {q : Parse β} {f : α → Parse γ} {g : β → Parse δ}

theorem respects_pure {a : α} {b : β} (h : P a b) : Respects notes P (pure a) (pure b) :=
  fun n m hnotes => ⟨a, n, b, m, yields_pure a n, yields_pure b m, h, hnotes⟩

/-- Silent steps in sequence, beside silent steps in sequence. -/
theorem Respects.bind (hp : Respects notes P p q)
    (hf : ∀ a b, P a b → Respects notes R (f a) (g b)) : Respects notes R (p >>= f) (q >>= g) := by
  intro n m hnotes
  obtain ⟨a, n', b, m', hyields, hyields', hP, hnotes'⟩ := hp n m hnotes
  obtain ⟨c, n'', d, m'', hthen, hthen', hR, hnotes''⟩ := hf a b hP n' m' hnotes'
  exact ⟨c, n'', d, m'', hyields.bind hthen, hyields'.bind hthen', hR, hnotes''⟩

theorem Respects.imp {Q : α → β → Prop} (hp : Respects notes P p q) (hPQ : ∀ a b, P a b → Q a b) :
    Respects notes Q p q := by
  intro n m hnotes
  obtain ⟨a, n', b, m', hyields, hyields', hP, hnotes'⟩ := hp n m hnotes
  exact ⟨a, n', b, m', hyields, hyields', hPQ a b hP, hnotes'⟩

/-- Silent steps leave some notes, and have some results. -/
theorem Parse.Silent.respects (hp : Silent p) (hq : Silent q) (h : ∀ a b, P a b) :
    Respects (fun _ _ => True) P p q := by
  intro n m _
  obtain ⟨a, n', hyields⟩ := hp n
  obtain ⟨b, m', hyields'⟩ := hq m
  exact ⟨a, n', b, m', hyields, hyields', h a b, trivial⟩

end Respects

/-! ### The same shape -/

/-- The same tokens, whatever was noted before. The types may be others. -/
def Likeness.shape : Likeness where
  token := Eq
  label := Eq
  line := Eq
  typed := False
  notes _ _ := True
  kind_eq h := congrArg Token.kind h
  line_token h := congrArg Token.line h
  label_literal h := congrArg literalLabel h
  label_call h _ := by rw [h]
  label_attach h _ := by rw [h]
  label_construct _ _ := rfl
  bound _ _ := (silent_boundType? _ _).respects (silent_boundType? _ _) fun _ _ => False.elim
  arithmetic _ _ _ :=
    (silent_typeOrReport _ _).respects (silent_typeOrReport _ _) fun _ _ => False.elim
  relational _ _ _ :=
    (silent_typeOrReport _ _).respects (silent_typeOrReport _ _) fun _ _ => False.elim
  binding _ _ _ := (silent_bindName _).respects (silent_bindName _) fun _ _ => trivial
  store _ _ _ _ _ :=
    (silent_checkStore? _ _ _ _).respects (silent_checkStore? _ _ _ _) fun _ _ => trivial
  violation _ _ _ :=
    (silent_reportViolation _ _).respects (silent_reportViolation _ _) fun _ _ => trivial
  entryPoint _ := (silent_noteEntryPoint _).respects (silent_noteEntryPoint _) fun _ _ => trivial
  enter := silent_enterScope.respects silent_enterScope fun _ _ => trivial
  exit := silent_exitScope.respects silent_exitScope fun _ _ => trivial

/-- How tokens, labels and lines are alike, with nothing said of types and notes. -/
structure Guise where
  token : Token → Token → Prop
  label : String → String → Prop
  line : Nat → Nat → Prop
  kind_eq {t u : Token} : token t u → t.kind = u.kind
  line_token {t u : Token} : token t u → line t.line u.line
  label_literal {t u : Token} : token t u → label (literalLabel t) (literalLabel u)
  label_call {t u : Token} : token t u → label ("Call " ++ t.value) ("Call " ++ u.value)
  label_attach {t u : Token} : token t u → label ("#ATTACH " ++ t.value) ("#ATTACH " ++ u.value)
  label_construct : ∀ l ∈ constructLabels, label l l

/-- What is noted never turns a parse aside, so a guise is a likeness after any notes. The types
may be others. -/
def Guise.likeness (g : Guise) : Likeness where
  token := g.token
  label := g.label
  line := g.line
  typed := False
  notes _ _ := True
  kind_eq := g.kind_eq
  line_token := g.line_token
  label_literal := g.label_literal
  label_call h _ := g.label_call h
  label_attach h _ := g.label_attach h
  label_construct := g.label_construct
  bound _ _ := (silent_boundType? _ _).respects (silent_boundType? _ _) fun _ _ => False.elim
  arithmetic _ _ _ :=
    (silent_typeOrReport _ _).respects (silent_typeOrReport _ _) fun _ _ => False.elim
  relational _ _ _ :=
    (silent_typeOrReport _ _).respects (silent_typeOrReport _ _) fun _ _ => False.elim
  binding _ _ _ := (silent_bindName _).respects (silent_bindName _) fun _ _ => trivial
  store _ _ _ _ _ :=
    (silent_checkStore? _ _ _ _).respects (silent_checkStore? _ _ _ _) fun _ _ => trivial
  violation _ _ _ :=
    (silent_reportViolation _ _).respects (silent_reportViolation _ _) fun _ _ => trivial
  entryPoint _ := (silent_noteEntryPoint _).respects (silent_noteEntryPoint _) fun _ _ => trivial
  enter := silent_enterScope.respects silent_enterScope fun _ _ => trivial
  exit := silent_exitScope.respects silent_exitScope fun _ _ => trivial

/-! ### The same additions -/

/-- Two lists that go on in the same way behind two beginnings. -/
def SameTail {α : Type} (before before' l l' : List α) : Prop :=
  ∃ tail, l = before ++ tail ∧ l' = before' ++ tail

namespace SameTail

variable {α : Type} {before before' l l' : List α}

theorem refl : SameTail before before' before before' :=
  ⟨[], (List.append_nil _).symm, (List.append_nil _).symm⟩

theorem concat (h : SameTail before before' l l') (x : α) :
    SameTail before before' (l ++ [x]) (l' ++ [x]) := by
  obtain ⟨tail, rfl, rfl⟩ := h
  exact ⟨tail ++ [x], List.append_assoc _ _ _, List.append_assoc _ _ _⟩

theorem eq (h : SameTail before before l l') : l' = l := by
  obtain ⟨tail, rfl, rfl⟩ := h
  rfl

end SameTail

/-- Notes that came of two pasts in the same way: the open scopes and the entry point are the
same, and so is all that was added to the pasts. -/
structure Beside (past past' n m : Notes) : Prop where
  frames : m.symbols.frames = n.symbols.frames
  entryPoint : m.entryPoint? = n.entryPoint?
  diagnostics : SameTail past.diagnostics past'.diagnostics n.diagnostics m.diagnostics
  declared : SameTail past.symbols.declared past'.symbols.declared n.symbols.declared
    m.symbols.declared
  log : SameTail past.log past'.log n.log m.log

namespace Beside

variable {past past' n m : Notes}

/-- At the pasts themselves, if scopes and entry point are the same. -/
theorem refl (hframes : past'.symbols.frames = past.symbols.frames)
    (hentry : past'.entryPoint? = past.entryPoint?) : Beside past past' past past' :=
  ⟨hframes, hentry, .refl, .refl, .refl⟩

/-- After one past, there is one way to go on. -/
theorem eq (h : Beside past past n m) : m = n := by
  obtain ⟨⟨innermost, outer, declared⟩, diagnostics, entryPoint?, log⟩ := n
  obtain ⟨⟨innermost', outer', declared'⟩, diagnostics', entryPoint?', log'⟩ := m
  obtain ⟨rfl, rfl⟩ : innermost = innermost' ∧ outer = outer' := List.cons.inj h.frames.symm
  obtain rfl := h.entryPoint
  obtain rfl := h.diagnostics.eq
  obtain rfl := h.declared.eq
  obtain rfl := h.log.eq
  rfl

theorem report (h : Beside past past' n m) (line : Nat) (cause : SemanticCause) :
    Beside past past' (n.report line cause) (m.report line cause) :=
  ⟨h.frames, h.entryPoint, h.diagnostics.concat _, h.declared, h.log.concat _⟩

/-- A frame is opened on both sides. The event tells how many are open, which is read off
`frames`. -/
theorem enter (h : Beside past past' n m) : Beside past past' n.enter m.enter := by
  obtain ⟨⟨innermost, outer, declared⟩, diagnostics, entryPoint?, log⟩ := n
  obtain ⟨⟨innermost', outer', declared'⟩, diagnostics', entryPoint?', log'⟩ := m
  obtain ⟨rfl, rfl⟩ : innermost = innermost' ∧ outer = outer' := List.cons.inj h.frames.symm
  exact ⟨rfl, h.entryPoint, h.diagnostics, h.declared, h.log.concat _⟩

/-- A frame is closed on both sides, if there is one besides the global; `frames` tells which. -/
theorem exit (h : Beside past past' n m) : Beside past past' n.exit m.exit := by
  obtain ⟨⟨innermost, outer, declared⟩, diagnostics, entryPoint?, log⟩ := n
  obtain ⟨⟨innermost', outer', declared'⟩, diagnostics', entryPoint?', log'⟩ := m
  obtain ⟨rfl, rfl⟩ : innermost = innermost' ∧ outer = outer' := List.cons.inj h.frames.symm
  cases outer with
  | nil => exact ⟨rfl, h.entryPoint, h.diagnostics, h.declared, h.log.concat _⟩
  | cons frame outer => exact ⟨rfl, h.entryPoint, h.diagnostics, h.declared, h.log.concat _⟩

/-! ### What is noted beside each other -/

theorem respects_report (line : Nat) (cause : SemanticCause) :
    Respects (Beside past past') Eq (Parse.report line cause) (Parse.report line cause) :=
  fun n m h => ⟨(), _, (), _, yields_report n line cause, yields_report m line cause, rfl,
    h.report line cause⟩

/-- A name is looked up in the frames, which are the same, so both sides find the same symbol. -/
theorem respects_lookup? (name : String) :
    Respects (Beside past past') Eq (lookup? name) (lookup? name) := by
  intro n m h
  have hlookup : n.symbols.lookup? name = m.symbols.lookup? name := by
    rw [SymbolTable.lookup?, SymbolTable.lookup?, h.frames]
  exact ⟨_, n, _, m, yields_lookup? n name, yields_lookup? m name, hlookup, h⟩

/-- A symbol is bound on both sides or on none, since `SymbolTable.declare` looks at the frames,
which are the same. -/
theorem respects_declare? (symbol : Symbol) :
    Respects (Beside past past') Eq (declare? symbol) (declare? symbol) := by
  intro n m h
  obtain ⟨⟨innermost, outer, declared⟩, diagnostics, entryPoint?, log⟩ := n
  obtain ⟨⟨innermost', outer', declared'⟩, diagnostics', entryPoint?', log'⟩ := m
  -- The frames are equal, and whether a name is free is read off the frames alone.
  obtain ⟨rfl, rfl⟩ : innermost = innermost' ∧ outer = outer' := List.cons.inj h.frames.symm
  cases hfind : innermost.find? symbol.name with
  | none =>
    have hdeclare (declared : List Symbol) :
        SymbolTable.declare ⟨innermost, outer, declared⟩ symbol =
          .ok ⟨symbol :: innermost, outer, declared ++ [symbol]⟩ :=
      SymbolTable.declare_of_none hfind
    exact ⟨none, _, none, _, yields_declare?_of_ok (hdeclare _), yields_declare?_of_ok (hdeclare _),
      rfl, rfl, h.entryPoint, h.diagnostics, h.declared.concat symbol, h.log⟩
  | some existing =>
    have hdeclare (declared : List Symbol) :
        SymbolTable.declare ⟨innermost, outer, declared⟩ symbol = .error existing :=
      SymbolTable.declare_of_some hfind
    exact ⟨some existing, _, some existing, _, yields_declare?_of_error (hdeclare _),
      yields_declare?_of_error (hdeclare _), rfl, h⟩

theorem respects_defineEntryPoint? (line : Nat) :
    Respects (Beside past past') Eq (defineEntryPoint? line) (defineEntryPoint? line) := by
  intro n m h
  cases hentry : n.entryPoint? with
  | none =>
    have hentry' : m.entryPoint? = none := h.entryPoint.trans hentry
    exact ⟨none, _, none, _, yields_defineEntryPoint?_of_none hentry,
      yields_defineEntryPoint?_of_none hentry', rfl, h.frames, rfl, h.diagnostics, h.declared,
      h.log⟩
  | some previous =>
    have hentry' : m.entryPoint? = some previous := h.entryPoint.trans hentry
    exact ⟨some previous, n, some previous, m, yields_defineEntryPoint?_of_some hentry,
      yields_defineEntryPoint?_of_some hentry', rfl, h⟩

theorem respects_boundType? (name : String) (line : Nat) :
    Respects (Beside past past') Eq (boundType? name line) (boundType? name line) := by
  refine (respects_lookup? name).bind ?_
  rintro symbol? _ rfl
  cases symbol? with
  | none => exact (respects_report line _).bind fun _ _ _ => respects_pure rfl
  | some symbol => exact respects_pure rfl

/-- The rule has one `result`, which is used on both sides. -/
theorem respects_typeOrReport (line : Nat) (result : Except SemanticCause DataType) :
    Respects (Beside past past') Eq (typeOrReport line result) (typeOrReport line result) := by
  cases result with
  | ok type => exact respects_pure rfl
  | error cause => exact (respects_report line cause).bind fun _ _ _ => respects_pure rfl

/-- A declaration binds the same symbol, or is the same error: `respects_declare?`, and then
`respects_report`. -/
theorem respects_bindName (symbol : Symbol) :
    Respects (Beside past past') Eq (bindName symbol) (bindName symbol) := by
  refine (respects_declare? symbol).bind ?_
  rintro previous? _ rfl
  cases previous? with
  | none => exact respects_pure rfl
  | some previous => exact respects_report _ _

theorem respects_checkStore? (site : StoreSite) (name : Token) (target? : Option DataType)
    (source : DataType) :
    Respects (Beside past past') Eq (checkStore? site name target? source)
      (checkStore? site name target? source) := by
  cases target? with
  | none => exact respects_pure rfl
  | some target =>
    rw [checkStore?, checkStore]
    split
    · exact respects_pure rfl
    · exact respects_report _ _

/-- A condition is allowed on both sides, or is the same error. -/
theorem respects_reportViolation (line : Nat) (result : Except SemanticCause Unit) :
    Respects (Beside past past') Eq (reportViolation line result)
      (reportViolation line result) := by
  cases result with
  | ok => exact respects_pure rfl
  | error cause => exact respects_report line cause

/-- The entry point is noted on both sides, or is the same error: `respects_defineEntryPoint?`,
and then `respects_report`. -/
theorem respects_noteEntryPoint (line : Nat) :
    Respects (Beside past past') Eq (noteEntryPoint line) (noteEntryPoint line) := by
  refine (respects_defineEntryPoint? line).bind ?_
  rintro previous? _ rfl
  cases previous? with
  | none => exact respects_pure rfl
  | some previous => exact respects_report _ _

end Beside

/-- The same tokens, where notes came of two pasts in the same way. -/
def Likeness.beside (past past' : Notes) : Likeness where
  token := Eq
  label := Eq
  line := Eq
  typed := True
  notes := Beside past past'
  kind_eq h := congrArg Token.kind h
  line_token h := congrArg Token.line h
  label_literal h := congrArg literalLabel h
  label_call h _ := by rw [h]
  label_attach h _ := by rw [h]
  label_construct _ _ := rfl
  bound h _ := by
    obtain rfl := h
    exact (Beside.respects_boundType? _ _).imp fun _ _ h _ => h
  arithmetic h hl hr := by
    obtain rfl := h
    obtain rfl := hl trivial
    obtain rfl := hr trivial
    exact (Beside.respects_typeOrReport _ _).imp fun _ _ h _ => h
  relational h hl hr := by
    obtain rfl := h
    obtain rfl := hl trivial
    obtain rfl := hr trivial
    exact (Beside.respects_typeOrReport _ _).imp fun _ _ h _ => h
  binding type h _ := by
    obtain rfl := h
    exact (Beside.respects_bindName _).imp fun _ _ _ => trivial
  store site h _ htarget hsource := by
    obtain rfl := h
    obtain rfl := htarget trivial
    obtain rfl := hsource trivial
    exact (Beside.respects_checkStore? _ _ _ _).imp fun _ _ _ => trivial
  violation h hline htype := by
    obtain rfl := h
    obtain rfl := hline
    obtain rfl := htype trivial
    exact (Beside.respects_reportViolation _ _).imp fun _ _ _ => trivial
  entryPoint h := by
    obtain rfl := h
    exact (Beside.respects_noteEntryPoint _).imp fun _ _ _ => trivial
  enter n m h := ⟨(), _, (), _, yields_enterScope n, yields_enterScope m, trivial, h.enter⟩
  exit n m h := ⟨(), _, (), _, yields_exitScope n, yields_exitScope m, trivial, h.exit⟩

/-! ### Trees that are alike -/

namespace Likeness

theorem map_label_of_shape {ns ms : List Node} (h : shape.nodes ns ms) :
    ms.map Node.label = ns.map Node.label := by
  induction ns generalizing ms with
  | nil =>
    cases ms with
    | nil => rfl
    | cons m ms => simp [nodes] at h
  | cons n ns ih =>
    cases ms with
    | nil => simp [nodes] at h
    | cons m ms =>
      rw [nodes] at h
      have hlabel : n.label = m.label := node_label h.1
      rw [List.map_cons, List.map_cons, hlabel, ih h.2]

/-- After pasts with the same scopes and entry point, trees are equal. -/
theorem eq_of_nodes {past past' : Notes} {ns ms : List Node} (h : (beside past past').nodes ns ms) :
    ms = ns := by
  have heq : (beside past past').Passes Eq := by
    rintro ⟨label, type, line, children⟩ ⟨_, type', _, children'⟩ rfl htype rfl hchildren
    obtain rfl : type = type' := htype trivial
    obtain rfl : children = children' := List.forall₂_eq_eq_eq ▸ hchildren
    rfl
  have hnodes : List.Forall₂ Eq ns ms := heq.rel_of_nodes ns ms h
  rw [List.forall₂_eq_eq_eq] at hnodes
  exact hnodes.symm

end Likeness

end DrLang
