import DrLang.Proofs.Record.Expression
import DrLang.Proofs.ScopeDiscipline

/-!
# Statements have on record what they record

Which frames are open at a declaration is not to be seen in the tree, but it need not be: the
innermost one has the names of the declarations that stand before it in the same scope, and no
other. So the table of open frames and the tree agree on which declarations count.

- `Mirrors`: the innermost frame has the names of given symbols.
- `Registers`: between two states all is recorded that trees have on record.
- `Contained`: a construct that declares nothing in the scope that it stands in.
- `registers_declaration`, `contained_checkOf`, `registers_statementOf`, ...: the rules for
  statements, for any tables.
-/

namespace DrLang

open Parse Node

/-! ### Names and the entry point -/

/-- The names that the innermost frame has are those of some symbols, each bound to the first one
with it. -/
def Mirrors (s : Parser) (earlier : List Symbol) : Prop :=
  s.symbols.innermost.find? = Frame.find? earlier

/-- What leaves the frames alone leaves the names of the innermost one, which is all that
`Mirrors` looks at. -/
theorem SameFrames.mirrors {s s' : Parser} (h : SameFrames s s') {earlier : List Symbol}
    (hs : Mirrors s earlier) : Mirrors s' earlier := by
  rw [Mirrors, (List.cons.inj h).1]
  exact hs

/-- A new frame has no names. -/
theorem Enters.mirrors {s s' : Parser} (h : Enters s s') : Mirrors s' [] := by
  rw [Mirrors, h.symbols]
  rfl

section Walk

open Analysis

variable (here : Situation)

/-- A binding adds to the innermost frame what it has not got. -/
theorem binding_own (symbol : Symbol) (name : String) :
    (binding here symbol).behind.scope.own name =
      (here.scope.own name).or (if symbol.name = name then some symbol else none) := by
  rw [binding]
  by_cases hname : symbol.name = name
  · subst hname
    cases hown : here.scope.own symbol.name <;> simp [Scope.bind, hown]
  · cases here.scope.own symbol.name <;> simp [Scope.bind, hname]

theorem binding_entryPoint (symbol : Symbol) :
    (binding here symbol).behind.entryPoint? = here.entryPoint? := by
  rw [binding]
  cases here.scope.own symbol.name <;> rfl

theorem binding_symbols (symbol : Symbol) :
    (binding here symbol).symbols =
      Declaration.counted [⟨symbol, here.scope.own symbol.name⟩] := by
  rw [binding]
  cases here.scope.own symbol.name <;> rfl

/-- A binding reports the symbol if its frame has the name: `redeclaration?` of the declaration
that it is. -/
theorem binding_errors (symbol : Symbol) :
    (binding here symbol).errors =
      [(⟨symbol, here.scope.own symbol.name⟩ : Declaration)].filterMap
        Declaration.redeclaration? := by
  rw [binding]
  cases here.scope.own symbol.name <;> rfl

theorem entryPoint_behind (line : Nat) :
    (entryPoint here line).behind.entryPoint? = (here.entryPoint?.toList ++ [line]).head? := by
  rw [entryPoint]
  cases h : here.entryPoint? with
  | none => rfl
  | some previous => exact h

theorem entryPoint_errors (line : Nat) :
    (entryPoint here line).errors = redefinitions (here.entryPoint?.toList ++ [line]) := by
  rw [entryPoint]
  cases here.entryPoint? <;> rfl

end Walk

section Names

variable {s : Parser} {earlier : List Symbol}

/-- The innermost frame and the symbols beside each other agree on what a declaration repeats, and
do so behind it as well. -/
theorem adds_bindName (hs : Mirrors s earlier) (symbol : Symbol) :
    Ensures (bindName symbol) s fun _ s' =>
      Adds s s' [.behind earlier symbol] [] ∧ Mirrors s' (earlier ++ [symbol]) := by
  refine (ensures_bindName symbol).imp fun _ s' h => ?_
  obtain ⟨-, hbehind, hadded⟩ := h
  have hown : s.situation.scope.own = Frame.find? earlier := hs
  constructor
  · -- What the frame has of the name is the first declaration of it.
    have hfirst : Declaration.behind earlier symbol =
        ⟨symbol, s.situation.scope.own symbol.name⟩ := by
      rw [hown]
      rfl
    have hentry := congrArg Analysis.Situation.entryPoint? hbehind
    rw [binding_entryPoint] at hentry
    rw [binding_symbols, binding_errors] at hadded
    rw [hfirst]
    exact adds_of_declared hadded.declared hentry.symm hadded.diagnostics
      (filter_redeclarations _) (filter_redeclarations_isRedefinition _)
  · have hscope : _ = s'.symbols.innermost.find? := congrArg (fun here => here.scope.own) hbehind
    rw [Mirrors, ← hscope]
    funext name
    rw [binding_own, hown, Frame.find?, Frame.find?, List.find?_append, List.find?_singleton]
    simp

theorem adds_noteEntryPoint (line : Nat) :
    Ensures (noteEntryPoint line) s fun _ s' => Adds s s' [] [line] := by
  refine (ensures_noteEntryPoint line).imp fun _ s' h => ?_
  obtain ⟨-, hbehind, hadded⟩ := h
  rw [Analysis.entryPoint_symbols, entryPoint_errors] at hadded
  have hline : _ = s'.entryPoint? := congrArg Analysis.Situation.entryPoint? hbehind
  refine ⟨hadded.declared, ?_, ?_, ?_⟩
  · rw [hadded.diagnostics, List.filter_append, filter_redefinitions_isRedeclaration]
    rfl
  · rw [← hline, entryPoint_behind]
    rfl
  · rw [hadded.diagnostics, List.filter_append, filter_redefinitions]
    rfl

end Names

/-! ### Trees and what is recorded of them -/

/-- Between two states all is recorded that neighbouring trees have on record, which stand behind
earlier declarations of the same scope. -/
def Registers (earlier : List Symbol) (s s' : Parser) (ns : List Node) : Prop :=
  Adds s s' (declarationsAmong earlier ns) (listing entryLine? ns)

section Registers

variable {α β : Type} {p : Parse α} {f : α → Parse β} {trees : α → List Node}
  {R : β → Parser → Prop} {s s' s₀ : Parser} {earlier : List Symbol} {n : Node} {ns ms : List Node}

theorem registers_nil (earlier : List Symbol) (s : Parser) : Registers earlier s s [] :=
  (Keeps.refl s).adds ⟨rfl, rfl⟩

/-- Trees side by side. Those behind have the declarations of those in front before them, added to
`earlier`. -/
theorem Registers.append (h : Registers earlier s₀ s ns)
    (h' : Registers (earlier ++ ns.flatMap fun n => n.declared?.toList) s s' ms) :
    Registers earlier s₀ s' (ns ++ ms) := by
  rw [Registers, declarationsAmong_append, listing_append]
  exact h.trans h'

/-- A construct has on record what its parts have, in a scope of their own. -/
theorem registers_node {label : String} {type : DataType} {line : Nat}
    (hlabel : label ∉ recordLabels) (h : Registers [] s s' ns) :
    Registers earlier s s' [⟨label, type, line, ns⟩] := by
  rw [Registers, declarationsAmong_singleton, declared?_of_label hlabel, listing_singleton,
    entryLine?_of_label hlabel, declarations_eq]
  exact h

/-- If a step succeeds, all is recorded on its way that the trees in its result have on record,
whatever stands before them. -/
def Enrolls (p : Parse α) (trees : α → List Node) : Prop :=
  ∀ s, Ensures p s fun a s' => ∀ earlier, Registers earlier s s' (trees a)

/-- Where nothing is recorded and nothing is on record, the two agree: `Adds` with empty lists. -/
theorem Plainly.enrolls (hp : Plainly p trees) : Enrolls p trees := by
  refine fun s => (hp s).imp fun a s' h earlier => ?_
  rw [Registers, h.1.declarationsAmong, h.1.2]
  exact h.2

/-- Behind a step, its trees stand behind those before it. -/
theorem Enrolls.step (hp : Enrolls p trees) (hs : Registers earlier s₀ s ns)
    (hf : ∀ a s', Registers earlier s₀ s' (ns ++ trees a) → Ensures (f a) s' R) :
    Ensures (p >>= f) s R :=
  (hp s).bind fun a s' h => hf a s' (hs.append (h _))

theorem enrolls_enterScope : Enrolls enterScope fun _ => [] :=
  fun _ => ensures_enterScope.imp fun _ _ h _ => h.adds

theorem enrolls_exitScope : Enrolls exitScope fun _ => [] :=
  fun _ => ensures_exitScope.imp fun _ _ h _ => h.adds

end Registers

/-! ### Declarations -/

section Rules

variable {rules : Rules} {s : Parser} {earlier : List Symbol}

/-- A declaration is met where its name is bound, before its value is looked at. -/
theorem registers_declaration (hs : Mirrors s earlier) :
    Ensures (declaration rules) s fun n s' =>
      Registers earlier s s' [n] ∧ Mirrors s' (earlier ++ n.declared?.toList) := by
  refine ensures_advance.bind fun keyword s₁ h₁ => ?_
  split
  case h_1 => exact ensures_throw _
  case h_2 type _ =>
    refine (ensures_expect _).bind fun name s₂ h₂ => ?_
    have hkeeps : Keeps s s₂ [] := h₁.2.trans h₂.2.2
    have hs₂ : Mirrors s₂ earlier := by
      rw [Mirrors, hkeeps.symbols]
      exact hs
    refine (adds_bindName hs₂ _).bind fun _ s₃ h₃ => ?_
    -- The frame has the name now, and the value changes nothing about it.
    have hframes := (calm_initializer rules name type).level (K := AnyKind) (s := s₃)
    refine ((plainly_initializer rules name type s₃).and hframes.ensures).bind
      fun values s₄ h₄ => ?_
    refine (ensures_expect _).bind fun _ s₅ h₅ => ensures_pure ?_
    obtain ⟨⟨hvalues, hadds₄⟩, hsame⟩ := h₄
    have hadds₅ : Adds s₄ s₅ [] [] := h₅.2.2.adds ⟨rfl, rfl⟩
    have hplain : Plain (.leaf name.value name.line type :: values) := plain_leaf.cons hvalues
    have hdeclared : (Node.group "Declaration" name.line
        (.leaf name.value name.line type :: values)).declared? =
          some ⟨name.value, type, name.line⟩ := declared?_declaration _ _ _
    rw [Registers, declarationsAmong_singleton, listing_singleton, declarations_eq, hdeclared,
      entryLine?_declaration]
    constructor
    · have hall := (((hkeeps.adds ⟨rfl, rfl⟩).trans h₃.1).trans hadds₄).trans hadds₅
      simpa [Node.group, hplain.declarationsAmong, hplain.2] using hall
    · have hs₄ := SameFrames.mirrors hsame h₃.2
      rw [Mirrors, h₅.2.2.symbols]
      exact hs₄

/-! ### Constructs -/

/-- A construct that declares nothing in the scope that it stands in, and of which all is
recorded. -/
def Contained (p : Parse Node) : Prop :=
  ∀ s, Ensures p s fun n s' => n.declared? = none ∧ ∀ earlier, Registers earlier s s' [n]

/-- What declares nothing around itself still has all on record that is recorded in it. -/
theorem Contained.enrolls {p : Parse Node} (hp : Contained p) : Enrolls p fun n => [n] :=
  fun s => (hp s).imp fun _ _ h => h.2

theorem Plainly.contained {p : Parse Node} (hp : Plainly p fun n => [n]) : Contained p := by
  refine fun s => ((hp s).and (hp.enrolls s)).imp fun n s' h => ⟨?_, h.2⟩
  have hlisting := h.1.1.1
  rw [listing_singleton, List.append_eq_nil_iff] at hlisting
  exact Option.toList_eq_nil_iff.1 hlisting.1

/-- The parts of a construct are together in a scope of their own. -/
theorem contained_node {label : String} {line : Nat} {s s' : Parser} {ns : List Node}
    (hlabel : label ∉ recordLabels) (h : Registers [] s s' ns) :
    Ensures (pure (.group label line ns)) s' fun n s'' =>
      n.declared? = none ∧ ∀ earlier, Registers earlier s s'' [n] :=
  ensures_pure ⟨declared?_of_label hlabel _ _ _, fun _ => registers_node hlabel h⟩

/-- Behind a construct the frame around it has the names that it had. -/
theorem Contained.registers {p : Parse Node} (hp : Contained p) (hlevel : Level AnyKind p s)
    (hs : Mirrors s earlier) :
    Ensures p s fun n s' => Registers earlier s s' [n] ∧
      Mirrors s' (earlier ++ n.declared?.toList) := by
  refine ((hp s).and hlevel.ensures).imp fun n s' h => ⟨h.1.2 earlier, ?_⟩
  rw [h.1.1, Option.toList_none, List.append_nil]
  exact SameFrames.mirrors h.2 hs

variable {body : Parse Node} (hbody : Contained body)
include hbody

theorem contained_checkOf : Contained (checkOf rules body) := by
  intro s
  refine plainly_advance.enrolls.step (registers_nil [] s) fun keyword s₁ h₁ => ?_
  refine (plainly_expect _).enrolls.step h₁ fun _ s₂ h₂ => ?_
  refine (plainly_gate rules keyword).enrolls.step h₂ fun decision s₃ h₃ => ?_
  refine (plainly_expect _).enrolls.step h₃ fun _ s₄ h₄ => ?_
  refine hbody.enrolls.step h₄ fun block s₅ h₅ => ?_
  refine plainly_currentKind.enrolls.step h₅ fun kind s₆ h₆ => ?_
  split
  · refine plainly_advance.enrolls.step h₆ fun _ s₇ h₇ => ?_
    exact hbody.enrolls.step h₇ fun alternative s₈ h₈ => contained_node (by decide) h₈
  · exact contained_node (by decide) h₆

theorem contained_reworkOf : Contained (reworkOf rules body) := by
  intro s
  refine plainly_advance.enrolls.step (registers_nil [] s) fun keyword s₁ h₁ => ?_
  refine (plainly_expect _).enrolls.step h₁ fun _ s₂ h₂ => ?_
  refine (plainly_gate rules keyword).enrolls.step h₂ fun decision s₃ h₃ => ?_
  refine (plainly_expect _).enrolls.step h₃ fun _ s₄ h₄ => ?_
  exact hbody.enrolls.step h₄ fun block s₅ h₅ => contained_node (by decide) h₅

/-- The variable of the loop is the only one in the frame of its header. -/
theorem contained_checklistOf : Contained (checklistOf rules body) := by
  intro s
  refine plainly_advance.enrolls.step (registers_nil [] s) fun keyword s₁ h₁ => ?_
  refine (plainly_expect _).enrolls.step h₁ fun _ s₂ h₂ => ?_
  refine ensures_enterScope.bind fun _ s₃ henters => ?_
  have h₃ : Registers [] s s₃ [] := h₂.trans henters.adds
  refine ensures_currentKind_bind ?_
  split
  case isFalse => exact ensures_unexpected _
  case isTrue =>
    -- Nothing stands before the variable in the frame of the header.
    refine (registers_declaration henters.mirrors).bind fun counter s₄ h => ?_
    have h₄ : Registers [] s s₄ [counter] := h₃.append h.1
    refine (plainly_gate rules keyword).enrolls.step h₄ fun decision s₅ h₅ => ?_
    refine (plainly_expect _).enrolls.step h₅ fun _ s₆ h₆ => ?_
    refine (plainly_simple rules _).enrolls.step h₆ fun update s₇ h₇ => ?_
    refine (plainly_expect _).enrolls.step h₇ fun _ s₈ h₈ => ?_
    refine hbody.enrolls.step h₈ fun block s₉ h₉ => ?_
    exact enrolls_exitScope.step h₉ fun _ s₁₀ h₁₀ => contained_node (by decide) h₁₀

/-- The entry point is met before those inside it. -/
theorem contained_planOf : Contained (planOf body) := by
  intro s
  refine plainly_advance.enrolls.step (registers_nil [] s) fun keyword s₁ h₁ => ?_
  refine (plainly_expect _).enrolls.step h₁ fun _ s₂ h₂ => ?_
  refine (plainly_expect _).enrolls.step h₂ fun _ s₃ h₃ => ?_
  refine (plainly_expect _).enrolls.step h₃ fun _ s₄ h₄ => ?_
  refine (adds_noteEntryPoint _).bind fun _ s₅ hnoted => ?_
  refine enrolls_enterScope.step (registers_nil [] s₅) fun _ s₆ h₆ => ?_
  refine hbody.enrolls.step h₆ fun block s₇ h₇ => ?_
  refine enrolls_exitScope.step h₇ fun _ s₈ h₈ => ensures_pure ⟨rfl, fun earlier => ?_⟩
  -- The line is noted before the block is parsed, and listed before what is listed of the block.
  have hheader : Adds s s₅ [] [keyword.line] := h₄.trans hnoted
  have hblock : Adds s₅ s₈ (declarationsAmong [] [block]) (listing entryLine? [block]) := h₈
  rw [Registers, declarationsAmong_singleton, listing_singleton, declarations_eq]
  exact hheader.trans hblock

/-! ### Lists and blocks -/

variable (hlevel : ∀ s, Level AnyKind body s)
include hlevel

/-- One statement: a declaration adds to the names of its scope, all others are `Contained` and
leave them. -/
theorem registers_statementOf (hs : Mirrors s earlier) :
    Ensures (statementOf rules body) s fun n s' => Registers earlier s s' [n] ∧
      Mirrors s' (earlier ++ n.declared?.toList) := by
  refine ensures_currentKind_bind ?_
  split
  case h_1 => exact ensures_unexpected _
  case h_2 => exact ensures_unexpected _
  case h_3 => exact registers_declaration hs
  -- Every other statement declares nothing in the scope that it stands in.
  case h_4 =>
    exact (plainly_simpleStatement rules).contained.registers (calm_simpleStatement rules).level hs
  case h_5 => exact (contained_checkOf hbody).registers (level_checkOf hlevel) hs
  case h_6 => exact (contained_reworkOf hbody).registers (level_reworkOf hlevel) hs
  case h_7 => exact (contained_checklistOf hbody).registers (level_checklistOf hlevel) hs
  case h_8 =>
    have hlabel : "OUTPUT" ∉ recordLabels := by decide
    exact (plainly_keywordExpression rules hlabel).contained.registers
      (calm_keywordExpression rules _).level hs
  case h_9 =>
    have hlabel : "RETURN" ∉ recordLabels := by decide
    exact (plainly_keywordExpression rules hlabel).contained.registers
      (calm_keywordExpression rules _).level hs
  case h_10 => exact hbody.registers (hlevel s) hs
  case h_11 => exact plainly_attach.contained.registers calm_attach.level hs
  case h_12 => exact (contained_planOf hbody).registers (level_planOf hlevel trivial) hs
  case h_13 => exact (plainly_call rules).contained.registers (calm_call rules).level hs

/-- Statements one after the other, by induction on `bound`, with the names of the scope growing
on both sides: `Mirrors` in the state, `earlier` in the tree. -/
theorem registers_allStatementsWithin (bound : Nat) (hs : Mirrors s earlier) :
    Ensures (allStatementsWithin rules body bound) s fun ns s' => Registers earlier s s' ns := by
  induction bound generalizing s earlier with
  | zero => exact ensures_pure (registers_nil _ s)
  | succ bound ih =>
    have hrun := runFrom_allStatementsWithin_succ rules body bound s
    by_cases hclosed : s.cursor.current.kind = .eof ∨ s.cursor.current.kind = .closeCurly
    · rw [if_pos hclosed] at hrun
      exact Ensures.congr hrun (ensures_pure (registers_nil _ s))
    · rw [if_neg hclosed] at hrun
      refine Ensures.congr hrun ?_
      refine (registers_statementOf hbody hlevel hs).bind fun n s₁ hfirst => ?_
      -- What the first statement declares stands before the others in their scope.
      refine (ih hfirst.2).bind fun ns s₂ hothers => ensures_pure ?_
      exact hfirst.1.append (by simpa using hothers)

/-- As `registers_allStatementsWithin`, with the bound that the tokens left give. -/
theorem registers_allStatementsOf (hs : Mirrors s earlier) :
    Ensures (allStatementsOf rules body) s fun ns s' => Registers earlier s s' ns :=
  (registers_allStatementsWithin hbody hlevel _ hs).congr (runFrom_allStatementsOf _ _ s)

/-- A block is a scope of its own, in which no name is declared at first: `Mirrors` holds with no
symbol. -/
theorem contained_blockOf : Contained (blockOf rules body) := by
  intro s
  refine (plainly_expect _).enrolls.step (registers_nil [] s) fun opening s₁ h₁ => ?_
  refine ensures_enterScope.bind fun _ s₂ henters => ?_
  have h₂ : Registers [] s s₂ [] := h₁.trans henters.adds
  refine (registers_allStatementsOf hbody hlevel henters.mirrors).bind fun nodes s₃ hnodes => ?_
  have h₃ : Registers [] s s₃ nodes := h₂.append hnodes
  refine (plainly_expect _).enrolls.step h₃ fun _ s₄ h₄ => ?_
  refine enrolls_exitScope.step h₄ fun _ s₅ h₅ => contained_node (by decide) ?_
  simpa using h₅

omit hbody hlevel

variable (rules)

/-- Blocks inside blocks, to any depth. -/
theorem contained_blockWithin (bound : Nat) : Contained (blockWithin rules bound) := by
  induction bound with
  | zero => exact fun _ => ensures_unexpected _
  | succ bound ih =>
    exact contained_blockOf ih fun _ => level_blockWithin (fun _ _ => trivial) bound

theorem contained_block : Contained (block rules) :=
  fun s => (contained_blockWithin rules _ s).congr (runFrom_remaining_bind s _)

end Rules

end DrLang
