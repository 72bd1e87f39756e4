import DrLang.Proofs.Printing.Expression
import DrLang.Proofs.Analysis.Statement

/-!
# Statements are printed as they were read

Where a rule for statements succeeds, the tokens that it took are those that the printer
gives for the tree that it made, the dollar signs left out.

- `ensures_declaration`, `ensures_simple`, `ensures_checkOf`, ...: a rule each.
- `ensures_statementOf`: the rule for the first token.
- `ensures_block`, `ensures_statements`: the recursion through blocks.
-/

namespace DrLang.Printing

variable {s : Parser} {n : Node}

/-! ### The printer, by the form of a statement -/

section Forms

variable {label : String} {counter decision update body : Outline} {os : List Outline}

/-- A declaration is printed from its declared type, which the sketch keeps. -/
theorem declaration_cons {type : DataType} :
    declaration ⟨"Declaration", none, 0, ⟨label, some type, 0, []⟩ :: os⟩ =
      fixed type.name :: (.identifier, label) ::
        (os.flatMap (fun value => fixed "=" :: expression value) ++ [fixed ";"]) := rfl

/-- What is neither an assignment nor a step is printed as an expression. -/
theorem simple_call (h : statementShape n.label = .call) :
    simple n.sketch = expression n.sketch := by
  obtain ⟨label, type, line, children⟩ := n
  rw [Node.sketch, Node.unlined, Node.outline, Node.outlineAs, simple.eq_def]
  simp only [show statementShape label = .call from h]

theorem statement_declaration (h : n.label = "Declaration") :
    statement n.sketch = declaration n.sketch := by
  obtain ⟨label, type, line, children⟩ := n
  obtain rfl : label = "Declaration" := h
  rfl

/-- A statement that begins with a name is printed with its semicolon, whichever of the three it
is. -/
theorem statement_simple (h : Analysis.IsSimple n.label) :
    statement n.sketch = simple n.sketch ++ [fixed ";"] := by
  obtain ⟨label, type, line, children⟩ := n
  have hshape : statementShape label = .assignment ∨ statementShape label = .step ∨
      statementShape label = .call := by
    simpa [Analysis.IsSimple] using h
  rw [Node.sketch, Node.unlined, Node.outline, Node.outlineAs, statement.eq_def]
  rcases hshape with hshape | hshape | hshape <;> simp only [hshape]

theorem statement_block (h : n.label = "Block") : statement n.sketch = block n.sketch := by
  obtain ⟨label, type, line, children⟩ := n
  obtain rfl : label = "Block" := h
  rfl

/-- A branch is printed under the word of its construct, not under its label. -/
theorem statement_check :
    statement ⟨"IF", none, 0, decision :: os⟩ =
      fixed "CHECK" :: fixed "(" :: (condition decision ++ fixed ")" :: branches os) := rfl

theorem statement_rework :
    statement ⟨"WHILE", none, 0, decision :: os⟩ =
      fixed "REWORK" :: fixed "(" :: (condition decision ++ fixed ")" :: branches os) := rfl

theorem statement_checklist :
    statement ⟨"FOR", none, 0, [counter, decision, update, body]⟩ =
      fixed "CHECKLIST" :: fixed "(" :: (declaration counter ++ condition decision ++
        fixed ";" :: (simple update ++ fixed ")" :: block body)) := rfl

/-- The name of an attachment is read out of its label. -/
theorem statement_attach (name : String) :
    statement ⟨"Include", none, 0, [⟨"#ATTACH " ++ name, none, 0, []⟩]⟩ =
      [fixed "#ATTACH", (.identifier, name)] := by
  have hname : ("#ATTACH " ++ name).toList.drop "#ATTACH ".length = name.toList := by
    rw [String.toList_append, List.drop_append_of_le_length (by decide)]
    rfl
  have hprint : statement ⟨"Include", none, 0, [⟨"#ATTACH " ++ name, none, 0, []⟩]⟩ =
      [fixed "#ATTACH", (.identifier,
        String.ofList (("#ATTACH " ++ name).toList.drop "#ATTACH ".length))] := rfl
  rw [hprint, hname, String.ofList_toList]

end Forms

/-! ### Variables -/

/-- A dollar sign is not printed. -/
theorem ensures_skipDollar (hs : s.Legible) :
    Ensures (Parse.skip .dollar) s fun _ s' => Takes s s' [] := by
  refine ensures_currentKind_bind ?_
  split
  case isTrue hdollar =>
    have hadvance : (discard Parse.advance).runFrom s =
        (Parse.advance >>= fun _ => pure ()).runFrom s := rfl
    refine Ensures.congr hadvance ((ensures_take hs (by simp [hdollar])).bind fun t s' h => ?_)
    obtain ⟨rfl, htakes⟩ := h
    refine ensures_pure ?_
    simpa [spellingsOf, hdollar] using htakes
  case isFalse => exact ensures_pure (Takes.refl s)

/-- The value of a variable, with its equals sign. -/
theorem ensures_storedValue (hs : s.Legible) :
    Ensures (Parse.storedValue .standard) s
      fun e s' => PrintsAs (fun value => fixed "=" :: expression value) s s' e.node := by
  refine (ensures_skipDollar hs).bind fun _ s₁ hdollar => ?_
  have hs₁ := hdollar.legible hs
  refine (ensures_expectFixed "=" hs₁ rfl (by decide)).bind fun _ s₂ hsign => ?_
  refine (ensures_expression .default (hsign.legible hs₁)).imp fun e s₃ hvalue => ?_
  exact (hdollar.trans hsign).trans hvalue

/-- The initial values of a declaration, which are one or none. -/
def PrintsValues (s s' : Parser) (values : List Node) : Prop :=
  Takes s s' ((values.map Node.sketch).flatMap fun value => fixed "=" :: expression value)

/-- The value of a declaration, with the equals sign. A dollar sign in front of that is taken and
not printed. -/
theorem ensures_initialValue (hs : s.Legible) (name : Token) (type : DataType) :
    Ensures (do
      let value ← Parse.storedValue .standard
      Parse.checkStore .initialization name type value.type
      return [value.node]) s fun values s' => PrintsValues s s' values := by
  refine (ensures_storedValue hs).bind fun value s₁ hvalue => ?_
  refine (Parse.silent_checkStore _ _ _ _).ensures_takes.bind fun _ s₂ hsilent => ensures_pure ?_
  simpa [PrintsValues] using hvalue.trans_nil hsilent

theorem ensures_initializer (hs : s.Legible) (name : Token) (type : DataType) :
    Ensures (Parse.initializer .standard name type) s
      fun values s' => PrintsValues s s' values := by
  refine ensures_currentKind_bind ?_
  split
  · exact ensures_initialValue hs name type
  · exact ensures_initialValue hs name type
  · exact ensures_pure (Takes.refl s)

/-- A declaration: its keyword has a fixed text, which is the name of its type. -/
theorem ensures_declaration (hs : s.Legible) :
    Ensures (Parse.declaration .standard) s
      fun n s' => n.label = "Declaration" ∧ PrintsAs declaration s s' n := by
  cases htype : DataType.ofKeyword? s.cursor.current.kind with
  | none =>
    refine ensures_advance.bind fun keyword s₁ h => ?_
    rw [h.1, htype]
    exact ensures_throw _
  | some type =>
    -- The keyword of a type is printed as the type itself, which the leaf of the name keeps.
    have hkinds : ∀ kind ∈ TokenKind.all, ∀ type ∈ DataType.ofKeyword? kind,
        kind.fixedText? = some type.name ∧ kind ∉ [.eof, .dollar] := by decide
    obtain ⟨htext, hkind⟩ := hkinds _ (TokenKind.mem_all _) type htype
    refine (ensures_takeFixed hs htext hkind).bind fun keyword s₁ h => ?_
    obtain ⟨rfl, hkeyword⟩ := h
    rw [htype]
    have hs₁ := hkeyword.legible hs
    refine (ensures_expectName hs₁).bind fun name s₂ h => ?_
    have hname := (hkeyword.trans h.2)
    refine (Parse.silent_bindName _).ensures_takes.bind fun _ s₃ hsilent => ?_
    have hheader := hname.trans_nil hsilent
    have hs₃ := hheader.legible hs
    refine (ensures_initializer hs₃ name type).bind fun values s₄ hvalues => ?_
    have hs₄ := hvalues.legible hs₃
    refine (ensures_expectFixed ";" hs₄ rfl (by decide)).bind fun _ s₅ hclose => ?_
    refine ensures_pure ⟨rfl, ?_⟩
    rw [PrintsAs, Node.sketch_declaration, declaration_cons]
    simpa using (hheader.trans hvalues).trans hclose

/-! ### Statements that begin with a name -/

/-- What is printed of a statement that begins with a name, without what closes it. -/
def PrintsSimple (s s' : Parser) (n : Node) : Prop :=
  Analysis.IsSimple n.label ∧ PrintsAs simple s s' n

/-- An assignment, with the equals sign behind its name. -/
theorem ensures_assignment (site : StoreSite) (hs : s.Legible)
    (hkind : s.cursor.current.kind = .identifier) :
    Ensures (Parse.assignment .standard site) s fun n s' => PrintsSimple s s' n := by
  refine (ensures_takeName hs hkind).bind fun name s₁ h => ?_
  obtain ⟨-, hname⟩ := h
  refine (Parse.silent_boundType? _ _).ensures_takes.bind fun type? s₂ hsilent => ?_
  have hs₂ := hsilent.legible (hname.legible hs)
  refine (ensures_storedValue hs₂).bind fun value s₃ hvalue => ?_
  refine (Parse.silent_checkStore? _ _ _ _).ensures_takes.bind fun _ s₄ hsilent' => ?_
  refine ensures_pure ⟨Analysis.isSimple_assignment, ?_⟩
  rw [PrintsAs, Node.group, Node.sketch_mk (by decide)]
  exact ((hname.trans_nil hsilent).trans hvalue).trans_nil hsilent'

/-- The sign of a step tells which label it has. -/
theorem ensures_step (hs : s.Legible) (hkind : s.cursor.current.kind = .identifier)
    (hpeek : s.cursor.peekKind = .plusPlus ∨ s.cursor.peekKind = .minusMinus) :
    Ensures Parse.step s fun n s' => PrintsSimple s s' n := by
  have hready : Ready (s.cursor.remaining + 1) s := ⟨hs.ends, Nat.lt_succ_self _⟩
  -- The sign was seen before the name was taken, and resolving the name does not move on.
  have hnext : Ensures Parse.advance s fun t s' => s'.cursor.current.kind = s.cursor.peekKind := by
    intro t s' hrun
    obtain ⟨-, rfl⟩ := Prod.mk.inj hrun
    exact (hready.peekKind_eq (by simp [hkind])).symm
  refine ((ensures_takeName hs hkind).and hnext).bind fun name s₁ h => ?_
  obtain ⟨⟨-, hname⟩, hnext⟩ := h
  refine (Parse.silent_resolve _ _).ensures_stays.bind fun type s₂ hstays => ?_
  rw [← hnext, ← hstays] at hpeek
  have hnamed := hname.trans_nil (.of_cursor_eq hstays)
  have hs₂ := hnamed.legible hs
  rcases hpeek with hplus | hminus
  · have htext : s₂.cursor.current.kind.fixedText? = some "++" := congrArg _ hplus
    refine (ensures_takeFixed hs₂ htext (by simp [hplus])).bind fun operator s₃ h => ?_
    obtain ⟨rfl, hsign⟩ := h
    rw [if_pos hplus]
    exact ensures_pure ⟨Analysis.isSimple_step (.inl rfl), hnamed.trans hsign⟩
  · have htext : s₂.cursor.current.kind.fixedText? = some "--" := congrArg _ hminus
    refine (ensures_takeFixed hs₂ htext (by simp [hminus])).bind fun operator s₃ h => ?_
    obtain ⟨rfl, hsign⟩ := h
    rw [if_neg (by simp [hminus])]
    exact ensures_pure ⟨Analysis.isSimple_step (.inr rfl), hnamed.trans hsign⟩

/-- A statement that begins with a name, by the token behind it, which is taken with the name. -/
theorem ensures_simple (site : StoreSite) (hs : s.Legible) :
    Ensures (Parse.simple .standard site) s fun n s' => PrintsSimple s s' n := by
  refine ensures_currentKind_bind ?_
  split
  case isTrue hkind =>
    refine ensures_peekKind_bind ?_
    split
    case h_1 =>
      refine (ensures_call hs).imp fun n s' h => ?_
      obtain ⟨hcallee, hprints⟩ := h
      refine ⟨Analysis.isSimple_of_callee hcallee, ?_⟩
      rw [PrintsAs, simple_call (Analysis.statementShape_of_callee hcallee)]
      exact hprints
    case h_2 => exact ensures_assignment site hs hkind
    case h_3 => exact ensures_assignment site hs hkind
    case h_4 hplus => exact ensures_step hs hkind (.inl hplus)
    case h_5 hminus => exact ensures_step hs hkind (.inr hminus)
    case h_6 => exact ensures_advance.bind fun _ _ _ => ensures_unexpected _
  case isFalse => exact ensures_unexpected _

/-! ### Statements without blocks -/

theorem ensures_simpleStatement (hs : s.Legible) :
    Ensures (Parse.simpleStatement .standard) s fun n s' => PrintsAs statement s s' n := by
  refine (ensures_simple .assignment hs).bind fun n s₁ h => ?_
  obtain ⟨hsimple, hprints⟩ := h
  have hs₁ := hprints.legible hs
  refine (ensures_expectFixed ";" hs₁ rfl (by decide)).bind fun _ s₂ hclose => ?_
  refine ensures_pure ?_
  rw [PrintsAs, statement_simple hsimple]
  exact hprints.trans hclose

/-- An output or a result, by the word that it begins with. -/
theorem ensures_keywordExpression {label word : String}
    (hlabel : label = "OUTPUT" ∧ word = "SHOW" ∨ label = "RETURN" ∧ word = "SUBMIT")
    (hs : s.Legible) (htext : s.cursor.current.kind.fixedText? = some word)
    (hkind : s.cursor.current.kind ∉ [.eof, .dollar]) :
    Ensures (Parse.keywordExpression .standard label) s fun n s' => PrintsAs statement s s' n := by
  refine (ensures_takeFixed hs htext hkind).bind fun keyword s₁ h => ?_
  obtain ⟨-, hword⟩ := h
  have hs₁ := hword.legible hs
  refine (ensures_expression .default hs₁).bind fun value s₂ hvalue => ?_
  have hs₂ := hvalue.legible hs₁
  refine (ensures_expectFixed ";" hs₂ rfl (by decide)).bind fun _ s₃ hclose => ?_
  refine ensures_pure ?_
  have hprinted := (hword.trans hvalue).trans hclose
  rcases hlabel with ⟨rfl, rfl⟩ | ⟨rfl, rfl⟩
  · rw [PrintsAs, Node.group, Node.sketch_mk (by decide)]
    exact hprinted
  · rw [PrintsAs, Node.group, Node.sketch_mk (by decide)]
    exact hprinted

/-- An attachment: `statement_attach` reads the name out of the label that the parse has made. -/
theorem ensures_attach (hs : s.Legible) (hkind : s.cursor.current.kind = .attach) :
    Ensures Parse.attach s fun n s' => PrintsAs statement s s' n := by
  have htext : s.cursor.current.kind.fixedText? = some "#ATTACH" := congrArg _ hkind
  refine (ensures_takeFixed hs htext (by simp [hkind])).bind fun keyword s₁ h => ?_
  obtain ⟨-, hkeyword⟩ := h
  refine (ensures_expectName (hkeyword.legible hs)).bind fun name s₂ h => ensures_pure ?_
  rw [PrintsAs, Node.group, Node.sketch_mk (by decide), List.map_singleton, Node.sketch_leaf,
    statement_attach]
  exact hkeyword.trans h.2

/-! ### Statements with blocks -/

/-- A keyword and a condition in parentheses, and what comes behind them. -/
theorem ensures_header_bind {β : Type} {f : Token → Node → Parse β} {R : β → Parser → Prop}
    (hs : s.Legible) {word : String} (htext : s.cursor.current.kind.fixedText? = some word)
    (hkind : s.cursor.current.kind ∉ [.eof, .dollar])
    (hf : ∀ decision s',
      Takes s s' (fixed word :: fixed "(" :: (condition decision.sketch ++ [fixed ")"])) →
      Ensures (f s.cursor.current decision) s' R) :
    Ensures (do
      let keyword ← Parse.advance
      let _ ← Parse.expect .openParen
      let decision ← Parse.gate .standard keyword
      let _ ← Parse.expect .closeParen
      f keyword decision) s R := by
  refine (ensures_takeFixed hs htext hkind).bind fun keyword s₁ h => ?_
  obtain ⟨rfl, hkeyword⟩ := h
  have hs₁ := hkeyword.legible hs
  refine (ensures_expectFixed "(" hs₁ rfl (by decide)).bind fun _ s₂ hopen => ?_
  have hs₂ := hopen.legible hs₁
  refine (ensures_gate hs₂ _).bind fun decision s₃ hdecision => ?_
  have hs₃ := hdecision.legible hs₂
  refine (ensures_expectFixed ")" hs₃ rfl (by decide)).bind fun _ s₄ hclose => ?_
  refine hf decision s₄ ?_
  simpa using ((hkeyword.trans hopen).trans hdecision).trans hclose

/-- A block, which prints alike as a statement and as a part of one. -/
def PrintsBlock (s s' : Parser) (n : Node) : Prop :=
  n.label = "Block" ∧ PrintsAs block s s' n

section Rules

variable {parseBody : Parse Node}
  (hbody : ∀ s : Parser, s.Legible → Ensures parseBody s fun n s' => PrintsBlock s s' n)
include hbody

/-- A branch with one block or two; `branches` prints the word of the alternative between them. -/
theorem ensures_checkOf (hs : s.Legible) (hkind : s.cursor.current.kind = .check) :
    Ensures (Parse.checkOf .standard parseBody) s fun n s' => PrintsAs statement s s' n := by
  have htext : s.cursor.current.kind.fixedText? = some "CHECK" := congrArg _ hkind
  refine ensures_header_bind hs htext (by simp [hkind]) fun decision s₁ hheader => ?_
  have hs₁ := hheader.legible hs
  refine (hbody s₁ hs₁).bind fun body s₂ hblock => ?_
  have hs₂ := hblock.2.legible hs₁
  refine ensures_currentKind_bind ?_
  split
  case isTrue hreject =>
    have hword : s₂.cursor.current.kind.fixedText? = some "REJECT" := congrArg _ hreject
    refine (ensures_takeFixed hs₂ hword (by simp [hreject])).bind fun _ s₃ h => ?_
    obtain ⟨-, hword⟩ := h
    refine (hbody s₃ (hword.legible hs₂)).bind fun alternative s₄ halternative => ensures_pure ?_
    have hprinted := ((hheader.trans hblock.2).trans hword).trans halternative.2
    rw [PrintsAs, Node.group, Node.sketch_mk (by decide)]
    simp only [List.map_cons, List.map_nil, statement_check, branches]
    simpa using hprinted
  case isFalse =>
    refine ensures_pure ?_
    rw [PrintsAs, Node.group, Node.sketch_mk (by decide)]
    simp only [List.map_cons, List.map_nil, statement_check, branches]
    simpa using hheader.trans hblock.2

theorem ensures_reworkOf (hs : s.Legible) (hkind : s.cursor.current.kind = .rework) :
    Ensures (Parse.reworkOf .standard parseBody) s fun n s' => PrintsAs statement s s' n := by
  have htext : s.cursor.current.kind.fixedText? = some "REWORK" := congrArg _ hkind
  refine ensures_header_bind hs htext (by simp [hkind]) fun decision s₁ hheader => ?_
  refine (hbody s₁ (hheader.legible hs)).bind fun body s₂ hblock => ensures_pure ?_
  rw [PrintsAs, Node.group, Node.sketch_mk (by decide)]
  simp only [List.map_cons, List.map_nil, statement_rework, branches]
  simpa using hheader.trans hblock.2

/-- A loop with a counter. The declaration has its own semicolon, the condition one that is
printed behind it. -/
theorem ensures_checklistOf (hs : s.Legible) (hkind : s.cursor.current.kind = .checklist) :
    Ensures (Parse.checklistOf .standard parseBody) s fun n s' => PrintsAs statement s s' n := by
  have htext : s.cursor.current.kind.fixedText? = some "CHECKLIST" := congrArg _ hkind
  refine (ensures_takeFixed hs htext (by simp [hkind])).bind fun keyword s₁ h => ?_
  obtain ⟨-, hkeyword⟩ := h
  have hs₁ := hkeyword.legible hs
  refine (ensures_expectFixed "(" hs₁ rfl (by decide)).bind fun _ s₂ hopen => ?_
  have hopened := hkeyword.trans hopen
  -- Opening and closing the frame prints nothing.
  refine Parse.silent_enterScope.ensures_takes.bind fun _ s₃ henters => ?_
  have hs₃ := (hopened.trans_nil henters).legible hs
  refine ensures_currentKind_bind ?_
  split
  case isFalse => exact ensures_unexpected _
  case isTrue =>
    refine (ensures_declaration hs₃).bind fun counter s₄ h => ?_
    obtain ⟨-, hcounter⟩ := h
    have hs₄ := hcounter.legible hs₃
    refine (ensures_gate hs₄ _).bind fun decision s₅ hdecision => ?_
    have hs₅ := hdecision.legible hs₄
    refine (ensures_expectFixed ";" hs₅ rfl (by decide)).bind fun _ s₆ hsemicolon => ?_
    have hs₆ := hsemicolon.legible hs₅
    refine (ensures_simple .update hs₆).bind fun update s₇ h => ?_
    obtain ⟨-, hupdate⟩ := h
    have hs₇ := hupdate.legible hs₆
    refine (ensures_expectFixed ")" hs₇ rfl (by decide)).bind fun _ s₈ hclose => ?_
    refine (hbody s₈ (hclose.legible hs₇)).bind fun body s₉ hblock => ?_
    refine Parse.silent_exitScope.ensures_takes.bind fun _ s₁₀ hexits => ensures_pure ?_
    have hheader := (((hcounter.trans hdecision).trans hsemicolon).trans hupdate).trans hclose
    have hprinted := ((hopened.trans_nil henters).trans hheader).trans
      (hblock.2.trans_nil hexits)
    rw [PrintsAs, Node.group, Node.sketch_mk (by decide)]
    simp only [List.map_cons, List.map_nil, statement_checklist]
    simpa using hprinted

/-- The entry point: the four tokens of its head have fixed texts. -/
theorem ensures_planOf (hs : s.Legible) (hkind : s.cursor.current.kind = .plan) :
    Ensures (Parse.planOf parseBody) s fun n s' => PrintsAs statement s s' n := by
  have htext : s.cursor.current.kind.fixedText? = some "plan" := congrArg _ hkind
  refine (ensures_takeFixed hs htext (by simp [hkind])).bind fun keyword s₁ h => ?_
  obtain ⟨-, hkeyword⟩ := h
  have hs₁ := hkeyword.legible hs
  refine (ensures_expectFixed "MORNING_COFFEE" hs₁ rfl (by decide)).bind
    fun _ s₂ hcoffee => ?_
  have hs₂ := hcoffee.legible hs₁
  refine (ensures_expectFixed "(" hs₂ rfl (by decide)).bind fun _ s₃ hopen => ?_
  have hs₃ := hopen.legible hs₂
  refine (ensures_expectFixed ")" hs₃ rfl (by decide)).bind fun _ s₄ hclose => ?_
  have hheader := ((hkeyword.trans hcoffee).trans hopen).trans hclose
  refine (Parse.silent_noteEntryPoint _).ensures_takes.bind fun _ s₅ hnoted => ?_
  refine Parse.silent_enterScope.ensures_takes.bind fun _ s₆ henters => ?_
  have hinside := (hheader.trans_nil hnoted).trans_nil henters
  refine (hbody s₆ (hinside.legible hs)).bind fun body s₇ hblock => ?_
  refine Parse.silent_exitScope.ensures_takes.bind fun _ s₈ hexits => ensures_pure ?_
  rw [PrintsAs, Node.group, Node.sketch_mk (by decide)]
  exact (hinside.trans hblock.2).trans_nil hexits

/-! ### Lists and blocks -/

/-- One statement, by the rule for its first token, with the heads of each rule for the class of
that token. -/
theorem ensures_statementOf (hs : s.Legible) :
    Ensures (Parse.statementOf .standard parseBody) s fun n s' => PrintsAs statement s s' n := by
  refine ensures_currentKind_bind ?_
  have heads {rule : StatementRule}
      (hrule : Rules.standard.statement? s.cursor.current.kind = some rule) :
      s.cursor.current.kind ∈ Grammar.statementHeads rule :=
    Grammar.mem_statementHeads hrule
  split
  case h_1 => exact ensures_unexpected _
  case h_2 => exact ensures_unexpected _
  case h_3 =>
    refine (ensures_declaration hs).imp fun n s' h => ?_
    rw [PrintsAs, statement_declaration h.1]
    exact h.2
  case h_4 => exact ensures_simpleStatement hs
  case h_5 hrule => exact ensures_checkOf hbody hs (List.mem_singleton.1 (heads hrule))
  case h_6 hrule => exact ensures_reworkOf hbody hs (List.mem_singleton.1 (heads hrule))
  case h_7 hrule => exact ensures_checklistOf hbody hs (List.mem_singleton.1 (heads hrule))
  case h_8 hrule =>
    have hkind := List.mem_singleton.1 (heads hrule)
    exact ensures_keywordExpression (.inl ⟨rfl, rfl⟩) hs (congrArg _ hkind) (by simp [hkind])
  case h_9 hrule =>
    have hkind := List.mem_singleton.1 (heads hrule)
    exact ensures_keywordExpression (.inr ⟨rfl, rfl⟩) hs (congrArg _ hkind) (by simp [hkind])
  case h_10 =>
    refine (hbody s hs).imp fun n s' h => ?_
    rw [PrintsAs, statement_block h.1]
    exact h.2
  case h_11 hrule => exact ensures_attach hs (List.mem_singleton.1 (heads hrule))
  case h_12 hrule => exact ensures_planOf hbody hs (List.mem_singleton.1 (heads hrule))
  -- No token leads to the rule of a bare call: calls are simple statements.
  case h_13 hrule => exact absurd (heads hrule) List.not_mem_nil

/-- The statements of a list, one after the other. -/
def PrintsStatements (s s' : Parser) (ns : List Node) : Prop :=
  Takes s s' (statements (ns.map Node.sketch))

/-- Statements up to the end of a list, by induction on `bound`. -/
theorem ensures_allStatementsWithin (bound : Nat) (hs : s.Legible) :
    Ensures (Parse.allStatementsWithin .standard parseBody bound) s
      fun ns s' => PrintsStatements s s' ns := by
  induction bound generalizing s with
  | zero => exact ensures_pure (Takes.refl s)
  | succ bound ih =>
    have hrun := Parse.runFrom_allStatementsWithin_succ .standard parseBody bound s
    by_cases hclosed : s.cursor.current.kind = .eof ∨ s.cursor.current.kind = .closeCurly
    · rw [if_pos hclosed] at hrun
      exact Ensures.congr hrun (ensures_pure (Takes.refl s))
    · rw [if_neg hclosed] at hrun
      refine Ensures.congr hrun ?_
      refine (ensures_statementOf hbody hs).bind fun n s₁ hfirst => ?_
      refine (ih (hfirst.legible hs)).bind fun ns s₂ hothers => ?_
      exact ensures_pure (hfirst.trans hothers)

theorem ensures_allStatementsOf (hs : s.Legible) :
    Ensures (Parse.allStatementsOf .standard parseBody) s fun ns s' => PrintsStatements s s' ns :=
  (ensures_allStatementsWithin hbody _ hs).congr (Parse.runFrom_allStatementsOf _ _ s)

/-- A block, with its braces around its statements. -/
theorem ensures_blockOf (hs : s.Legible) :
    Ensures (Parse.blockOf .standard parseBody) s fun n s' => PrintsBlock s s' n := by
  refine (ensures_expectFixed "\x7b" hs rfl (by decide)).bind fun opening s₁ hopen => ?_
  refine Parse.silent_enterScope.ensures_takes.bind fun _ s₂ henters => ?_
  have hs₂ := (hopen.trans_nil henters).legible hs
  refine (ensures_allStatementsOf hbody hs₂).bind fun nodes s₃ hnodes => ?_
  have hs₃ := hnodes.legible hs₂
  refine (ensures_expectFixed "\x7d" hs₃ rfl (by decide)).bind fun _ s₄ hclose => ?_
  refine Parse.silent_exitScope.ensures_takes.bind fun _ s₅ hexits => ensures_pure ⟨rfl, ?_⟩
  have hprinted := (((hopen.trans_nil henters).trans hnodes).trans hclose).trans_nil hexits
  rw [PrintsAs, Node.group, Node.sketch_mk (by decide)]
  simpa [block] using hprinted

end Rules

/-- Blocks inside blocks, to any depth. -/
theorem ensures_blockWithin (bound : Nat) (hs : s.Legible) :
    Ensures (Parse.blockWithin .standard bound) s fun n s' => PrintsBlock s s' n := by
  induction bound generalizing s with
  | zero => exact ensures_unexpected _
  | succ bound ih => exact ensures_blockOf (fun s hs => ih hs) hs

theorem ensures_block (hs : s.Legible) :
    Ensures (Parse.block .standard) s fun n s' => PrintsBlock s s' n :=
  ensures_remaining_bind (ensures_blockWithin _ hs)

/-- The statements of a program. -/
theorem ensures_statements (hs : s.Legible) :
    Ensures (Parse.allStatementsOf .standard (Parse.block .standard)) s
      fun ns s' => PrintsStatements s s' ns :=
  ensures_allStatementsOf (fun _ hs => ensures_block hs) hs

end DrLang.Printing
