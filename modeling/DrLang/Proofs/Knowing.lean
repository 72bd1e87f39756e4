import DrLang.Proofs.Ensures
import DrLang.Proofs.LiveSymbols
import DrLang.Proofs.Reading

/-!
# What is known of types

A type may be unknown for two reasons: something was reported, or a call is involved. While no
name stands for something of an unknown type, there is no other reason, and an unknown type is
never reported again.

- `Node.Settled`: trees in which all types are known, but for those with calls in them.
- `Passes`: what was taken and what was reported from one state to another, and whether there is
  a call among the tokens taken.
- `Parser.Knows`: no name of an unknown type is in sight, and no error was reported because of
  an unknown type.
- `knows_resolve`, `knows_typeOrReport`, ...: the actions that find types and check them.
-/

namespace DrLang

open Parse

/-! ### Calls in trees -/

namespace Node

/-- A node is a part of itself and of the nodes above it. -/
inductive Part (m : Node) : Node → Prop where
  | self : Part m m
  | child {n c : Node} : c ∈ n.children → Part m c → Part m n

/-- A call is a part of a tree. -/
def HasCall (n : Node) : Prop :=
  ∃ (call : Node) (name : String),
    call.Part n ∧ call.label = "Call " ++ name ∧ call.type = .unknown

/-- Each part of a tree has a known type, or has a call in it. -/
def Settled (n : Node) : Prop :=
  ∀ m : Node, m.Part n → m.type = .unknown → m.HasCall

variable {label : String} {type : DataType} {line : Nat} {n : Node} {ns : List Node}

theorem HasCall.of_child {c : Node} (hc : c ∈ n.children) (h : c.HasCall) : n.HasCall := by
  obtain ⟨call, name, hpart, hlabel⟩ := h
  exact ⟨call, name, .child hc hpart, hlabel⟩

/-- What has a call in it is a call or has a child with a call in it. -/
theorem HasCall.unknown_or_child (h : (Node.mk label type line ns).HasCall) :
    type = .unknown ∨ ∃ c ∈ ns, c.HasCall := by
  obtain ⟨call, name, hpart, hcall⟩ := h
  cases hpart with
  | self => exact .inl hcall.2
  | child hc hpart => exact .inr ⟨_, hc, call, name, hpart, hcall⟩

/-- Of a node without children a call can only be the node itself, by `HasCall.unknown_or_child`.
-/
theorem HasCall.unknown_of_leaf (h : (leaf label line type).HasCall) : type = .unknown := by
  rcases h.unknown_or_child with htype | ⟨c, hc, -⟩
  · exact htype
  · exact absurd hc List.not_mem_nil

/-- Parentheses and conditions with one part have the type of that part, so a call in it makes
both unknown. -/
theorem HasCall.unknown_of_wrapped (h : (Node.mk label type line [n]).HasCall)
    (hn : n.HasCall → type = .unknown) : type = .unknown := by
  rcases h.unknown_or_child with htype | ⟨c, hc, hcall⟩
  · exact htype
  · rw [List.mem_singleton.1 hc] at hcall
    exact hn hcall

/-- The whole is a part of itself, by `Part.self`. -/
theorem Settled.hasCall (h : n.Settled) (htype : n.type = .unknown) : n.HasCall :=
  h n .self htype

/-- A node is settled if its children are and its own type is known or due to a call, which
`HasCall` is about. -/
theorem settled_mk (htype : type = .unknown → (Node.mk label type line ns).HasCall)
    (hchildren : ∀ c ∈ ns, c.Settled) : (Node.mk label type line ns).Settled := by
  intro m hpart hm
  cases hpart with
  | self => exact htype hm
  | child hc hpart => exact hchildren _ hc m hpart hm

theorem settled_leaf (h : type ≠ .unknown) : (leaf label line type).Settled :=
  settled_mk (fun htype => absurd htype h) (by simp)

/-- Constructs are of type `void`, which is not the unknown one. -/
theorem settled_group (h : ∀ c ∈ ns, c.Settled) : (group label line ns).Settled :=
  settled_mk (fun htype => absurd htype (by decide)) h

/-- A call is a reason by itself, so nothing is asked of its type to be `Settled`. -/
theorem settled_call (name : String) (h : ∀ c ∈ ns, c.Settled) :
    (Node.mk ("Call " ++ name) .unknown line ns).Settled :=
  settled_mk (fun _ => ⟨_, name, .self, rfl, rfl⟩) h

/-- A node of the type of its only child. -/
theorem settled_wrapped (hn : n.Settled) (htype : type = n.type) :
    (Node.mk label type line [n]).Settled := by
  refine settled_mk (fun hunknown => ?_) (by simpa using hn)
  exact (hn.hasCall (htype.symm.trans hunknown)).of_child (by simp)

/-- Two nodes with an operator between them, whose type is known if theirs are. -/
theorem settled_joined {left right : Node} {operator : Token} (hleft : left.Settled)
    (hright : right.Settled)
    (htype : type = .unknown → left.type = .unknown ∨ right.type = .unknown) :
    (Node.mk label type line
      [left, .leaf operator.value operator.line .void, right]).Settled := by
  refine settled_mk (fun hunknown => ?_) ?_
  · rcases htype hunknown with h | h
    · exact (hleft.hasCall h).of_child (by simp)
    · exact (hright.hasCall h).of_child (by simp)
  · have hoperator : (leaf operator.value operator.line .void).Settled :=
      settled_leaf (by decide)
    simp [hleft, hoperator, hright]

end Node

/-! ### Calls among tokens -/

/-- Among some tokens, a name is followed by an opening parenthesis. -/
def CallAmong (tokens : List Token) : Prop :=
  [.identifier, .openParen] <:+: kindsOf tokens

section CallAmong

variable {t : Token} {u v : List Token}

/-- Two tokens at least are needed. -/
theorem not_callAmong_of_length (h : v.length ≤ 1) : ¬ CallAmong v := by
  intro hcall
  have hlength := hcall.length_le
  simp only [List.length_cons, List.length_map, List.length_nil] at hlength
  omega

/-- A call does not stretch over the seam of two lists if the second one does not begin with a
parenthesis. This is why `Continues` and `Passes` say how pieces begin. -/
theorem callAmong_append (hv : ∀ t ∈ v.head?, t.kind ≠ .openParen) :
    CallAmong (u ++ v) ↔ CallAmong u ∨ CallAmong v := by
  rw [CallAmong, kindsOf, List.map_append, List.infix_append_iff, ← or_assoc]
  refine or_iff_left_of_imp ?_
  rintro ⟨l, l', heq, hl, hl'⟩
  -- The name and the parenthesis are on the same side, or the name ends the first list.
  cases l with
  | nil => exact .inr (heq ▸ hl'.isInfix)
  | cons kind l =>
    obtain ⟨-, hrest⟩ := List.cons.inj heq
    cases l with
    | nil =>
      -- The parenthesis would come first in the second list.
      have hopen : [.openParen] <+: kindsOf v := hrest ▸ hl'
      cases v with
      | nil => simp at hopen
      | cons t v => exact absurd (List.cons_prefix_cons.1 hopen).1.symm (hv t rfl)
    | cons kind' l =>
      have hnil : l = [] ∧ l' = [] := by simpa using (List.cons.inj hrest).2.symm
      rw [hnil.2, List.append_nil] at heq
      exact .inl (heq ▸ hl.isInfix)

theorem CallAmong.append (h : CallAmong u) (v : List Token) : CallAmong (u ++ v) := by
  rw [CallAmong, kindsOf, List.map_append]
  exact h.trans (List.prefix_append _ _).isInfix

theorem callAmong_cons (ht : t.kind ≠ .identifier) : CallAmong (t :: v) ↔ CallAmong v := by
  rw [CallAmong, kindsOf, List.map_cons, List.infix_cons_iff]
  refine or_iff_right fun hprefix => ?_
  exact ht (List.cons_prefix_cons.1 hprefix).1.symm

end CallAmong

/-! ### From one state to another -/

/-- From one state to another `used` are the tokens taken and `errors` those reported, and no name
is bound. -/
structure Spends (s s' : Parser) (used : List Token) (errors : List SemanticError) : Prop where
  tokens : s.cursor.tokens = used ++ s'.cursor.tokens
  symbols : s'.symbols = s.symbols
  diagnostics : s'.diagnostics = s.diagnostics ++ errors

/-- From one state to another the current token is taken, unless it is the last one. -/
def MovesPast (s s' : Parser) (t : Token) : Prop :=
  Spends s s' [] [] ∨ Spends s s' [t] []

/-- From one state to another `errors` are reported, and among the tokens taken is a call or there
is none. -/
def Passes (s s' : Parser) (called : Prop) (errors : List SemanticError) : Prop :=
  ∃ used, Spends s s' used errors ∧ (called ↔ CallAmong used)

section Passes

variable {s s' s'' : Parser} {t : Token} {used used' : List Token}
  {errors errors' : List SemanticError} {called called' : Prop}

namespace Spends

theorem refl (s : Parser) : Spends s s [] [] :=
  ⟨rfl, rfl, (List.append_nil _).symm⟩

theorem trans (h : Spends s s' used errors) (h' : Spends s' s'' used' errors') :
    Spends s s'' (used ++ used') (errors ++ errors') where
  tokens := by rw [h.tokens, h'.tokens, List.append_assoc]
  symbols := h'.symbols.trans h.symbols
  diagnostics := by rw [h'.diagnostics, h.diagnostics, List.append_assoc]

/-- If tokens are taken, the current one is the first of them. -/
theorem eq_current (h : Spends s s' used errors) : ∀ t ∈ used.head?, t = s.cursor.current := by
  intro t ht
  cases used with
  | nil => simp at ht
  | cons u used =>
    obtain rfl : u = t := by simpa using ht
    exact (List.cons.inj h.tokens).1.symm

end Spends

/-- One token is taken at most. -/
theorem MovesPast.exists_used (h : MovesPast s s' t) :
    ∃ used, Spends s s' used [] ∧ used.length ≤ 1 := by
  rcases h with h | h
  · exact ⟨[], h, Nat.zero_le 1⟩
  · exact ⟨[t], h, Nat.le_refl 1⟩

/-- One token is no call, by `not_callAmong_of_length`. -/
theorem MovesPast.passes (h : MovesPast s s' t) : Passes s s' False [] := by
  obtain ⟨used, hspends, hlength⟩ := h.exists_used
  exact ⟨used, hspends, iff_of_false not_false (not_callAmong_of_length hlength)⟩

namespace Passes

/-- Where no token is taken, there is no call among them: `Spends` with `[]`. -/
theorem of_silent (h : Spends s s' [] errors) : Passes s s' False errors :=
  ⟨[], h, iff_of_false not_false (not_callAmong_of_length (Nat.zero_le 1))⟩

theorem refl (s : Parser) : Passes s s False [] := of_silent (.refl s)

/-- Where no parenthesis is opened in between, no call begins in one piece and goes on in the
next one. -/
theorem trans (h : Passes s s' called errors) (h' : Passes s' s'' called' errors')
    (hbetween : s'.cursor.current.kind ≠ .openParen ∨ s''.cursor = s'.cursor) :
    Passes s s'' (called ∨ called') (errors ++ errors') := by
  obtain ⟨used, hspends, hcalled⟩ := h
  obtain ⟨used', hspends', hcalled'⟩ := h'
  refine ⟨used ++ used', hspends.trans hspends', ?_⟩
  -- If anything is taken behind the first piece, it begins with the token that stands there.
  have hhead : ∀ t ∈ used'.head?, t.kind ≠ .openParen := by
    rcases hbetween with hkind | hcursor
    · intro t ht
      rwa [hspends'.eq_current t ht]
    · have htokens := hspends'.tokens
      rw [hcursor, List.self_eq_append_left] at htokens
      simp [htokens]
  rw [callAmong_append hhead, hcalled, hcalled']

/-- No call begins with another token than a name, so what `Passes` behind one has all the calls
there are. -/
theorem after (hmoves : MovesPast s s' t) (ht : t.kind ≠ .identifier)
    (h : Passes s' s'' called errors) : Passes s s'' called errors := by
  obtain ⟨used, hspends, hcalled⟩ := h
  rcases hmoves with hmoves | hmoves
  · exact ⟨used, hmoves.trans hspends, hcalled⟩
  · exact ⟨t :: used, hmoves.trans hspends, hcalled.trans (callAmong_cons ht).symm⟩

/-- A token that is taken behind a piece does not complete a call unless it is a parenthesis. -/
theorem before (h : Passes s s' called errors) (hmoves : MovesPast s' s'' s'.cursor.current)
    (ht : s'.cursor.current.kind ≠ .openParen) : Passes s s'' called errors := by
  have hpasses := h.trans hmoves.passes (.inl ht)
  rwa [or_false, List.append_nil] at hpasses

/-- What is reported without a token being taken. -/
theorem then_silent (h : Passes s s' called errors) (h' : Spends s' s'' [] errors')
    (hcursor : s''.cursor = s'.cursor) : Passes s s'' called (errors ++ errors') := by
  have hpasses := h.trans (.of_silent h') (.inr hcursor)
  rwa [or_false] at hpasses

end Passes

end Passes

/-! ### What is known -/

/-- No name in sight stands for something of an unknown type. -/
def SymbolTable.Known (t : SymbolTable) : Prop :=
  t.AllLive fun symbol => symbol.type ≠ .unknown

/-- Where a rule was broken by operands, by a value or by a condition, their types are known. -/
def SemanticCause.Known : SemanticCause → Prop
  | .typeMismatch _ _ _ found | .nonBooleanCondition _ found => found ≠ .unknown
  | .arithmeticOperands left _ right | .relationalOperands left _ right =>
    left ≠ .unknown ∧ right ≠ .unknown
  | .redeclaration _ _ | .undeclared _ | .entryPointRedefined _ => True

/-- No name in sight is of an unknown type, and behind the errors `before` nothing was reported
because of an unknown type. -/
structure Parser.Knows (before : List SemanticError) (s : Parser) : Prop where
  symbols : s.symbols.Known
  errors : ∃ errors, s.diagnostics = before ++ errors ∧ ∀ e ∈ errors, e.cause.Known

section Knows

variable {before : List SemanticError} {s : Parser}

theorem Parser.knows_self (hs : s.symbols.Known) : s.Knows s.diagnostics :=
  ⟨hs, [], (List.append_nil _).symm, by simp⟩

theorem Parser.Knows.report (hs : s.Knows before) (line : Nat) (cause : SemanticCause)
    (hcause : cause.Known) : Parser.Knows before ((s.notes.report line cause).at s.cursor) := by
  obtain ⟨errors, hdiagnostics, herrors⟩ := hs.errors
  refine ⟨hs.symbols, errors ++ [⟨line, cause⟩], ?_, ?_⟩
  · show s.diagnostics ++ [⟨line, cause⟩] = before ++ (errors ++ [⟨line, cause⟩])
    rw [hdiagnostics, List.append_assoc]
  · intro e he
    rcases List.mem_append.1 he with he | he
    · exact herrors e he
    · rw [List.mem_singleton.1 he]
      exact hcause

/-! ### Tokens -/

theorem movesPast_advance (s : Parser) :
    MovesPast s { s with cursor := s.cursor.advance } s.cursor.current := by
  obtain ⟨⟨current, rest⟩, symbols, diagnostics, entryPoint?, log⟩ := s
  cases rest with
  | nil => exact .inl ⟨rfl, rfl, (List.append_nil _).symm⟩
  | cons next rest => exact .inr ⟨rfl, rfl, (List.append_nil _).symm⟩

/-- The token that is taken, and where the cursor is then; `MovesPast` leaves open whether it was
the last. -/
theorem knows_advance (hs : s.Knows before) :
    Upholds (Parser.Knows before) advance s fun t s' =>
      t = s.cursor.current ∧ s'.cursor = s.cursor.advance ∧ MovesPast s s' s.cursor.current := by
  refine ⟨⟨hs.symbols, hs.errors⟩, fun t s' hrun => ?_⟩
  obtain ⟨hok, rfl⟩ := Prod.mk.inj hrun
  exact ⟨(Except.ok.inj hok).symm, rfl, movesPast_advance s⟩

/-- As `knows_advance`; behind a failure the state is the one before. -/
theorem knows_expect (kind : TokenKind) (hs : s.Knows before) :
    Upholds (Parser.Knows before) (expect kind) s fun t s' =>
      s.cursor.current.kind = kind ∧ t = s.cursor.current ∧ s'.cursor = s.cursor.advance ∧
        MovesPast s s' s.cursor.current := by
  refine upholds_currentKind_bind ?_
  split
  case isTrue hkind => exact (knows_advance hs).imp fun t s' h => ⟨hkind, h⟩
  case isFalse => exact upholds_unexpected _ hs

/-! ### Names -/

theorem spends_report (s : Parser) (line : Nat) (cause : SemanticCause) :
    Spends s ((s.notes.report line cause).at s.cursor) [] [⟨line, cause⟩] :=
  ⟨rfl, rfl, rfl⟩

theorem knows_report (line : Nat) (cause : SemanticCause) (hcause : cause.Known)
    (hs : s.Knows before) :
    Upholds (Parser.Knows before) (report line cause) s fun _ s' =>
      s'.cursor = s.cursor ∧ Spends s s' [] [⟨line, cause⟩] :=
  (yields_report s.notes line cause).upholds (hs.report line cause hcause)
    ⟨rfl, spends_report s line cause⟩

/-- Either a name stands for something of a known type, or that it does not is reported. -/
theorem knows_boundType? (name : String) (line : Nat) (hs : s.Knows before) :
    Upholds (Parser.Knows before) (boundType? name line) s fun type? s' =>
      s'.cursor = s.cursor ∧
        ∃ errors, Spends s s' [] errors ∧ (type?.getD .unknown = .unknown ↔ errors ≠ []) := by
  cases h : s.symbols.lookup? name with
  | some symbol =>
    have hknown : symbol.type ≠ .unknown := hs.symbols.lookup? h
    exact (yields_boundType?_of_some h).upholds hs ⟨rfl, [], .refl s, by simp [hknown]⟩
  | none =>
    exact (yields_boundType?_of_none h).upholds (hs.report line (.undeclared name) trivial)
      ⟨rfl, _, spends_report s line _, by simp⟩

/-- A name is of type `unknown` exactly where its use is reported: names in sight are all of known
types. -/
theorem knows_resolve (name : String) (line : Nat) (hs : s.Knows before) :
    Upholds (Parser.Knows before) (resolve name line) s fun type s' =>
      s'.cursor = s.cursor ∧
        ∃ errors, Spends s s' [] errors ∧ (type = .unknown ↔ errors ≠ []) :=
  (knows_boundType? name line hs).bind fun _ _ hs' h => upholds_pure hs' h

/-! ### Operators -/

/-- A rule for two operands gives an unknown type exactly where one of theirs is, and is broken
only where both are known. -/
def Tolerant (left right : DataType) : Except SemanticCause DataType → Prop
  | .ok type => type = .unknown ↔ left = .unknown ∨ right = .unknown
  | .error cause => left ≠ .unknown ∧ right ≠ .unknown ∧ cause.Known

/-- No operator is applied to a type that is unknown and reported for it: `unknown` goes through.
-/
theorem tolerant_arithmetic (left right : DataType) (operator : String) :
    Tolerant left right (Typing.arithmetic left operator right) := by
  unfold Typing.arithmetic
  split
  case isTrue h => simpa [Tolerant] using h
  case isFalse h =>
    obtain ⟨hleft, hright⟩ : left ≠ .unknown ∧ right ≠ .unknown := by simpa using h
    split
    · split <;> simp [Tolerant, hleft, hright]
    · split
      · simp [Tolerant, hleft, hright]
      · exact ⟨hleft, hright, hleft, hright⟩

/-- As `tolerant_arithmetic`, for comparisons. -/
theorem tolerant_relational (left right : DataType) (operator : String) :
    Tolerant left right (Typing.relational left operator right) := by
  unfold Typing.relational
  split
  case isTrue h => simpa [Tolerant] using h
  case isFalse h =>
    obtain ⟨hleft, hright⟩ : left ≠ .unknown ∧ right ≠ .unknown := by simpa using h
    split
    · simp [Tolerant, hleft, hright]
    · exact ⟨hleft, hright, hleft, hright⟩

/-- The type of an operation is unknown exactly where one of its operands is of an unknown type,
or where its rule is broken, which is reported. -/
theorem knows_typeOrReport {left right : DataType} (line : Nat)
    {result : Except SemanticCause DataType} (hresult : Tolerant left right result)
    (hs : s.Knows before) :
    Upholds (Parser.Knows before) (typeOrReport line result) s fun type s' =>
      s'.cursor = s.cursor ∧ ∃ errors, Spends s s' [] errors ∧
        (type = .unknown ↔ left = .unknown ∨ right = .unknown ∨ errors ≠ []) := by
  cases result with
  | ok type =>
    -- Nothing is reported, so the rule speaks for itself.
    have htype : type = .unknown ↔ left = .unknown ∨ right = .unknown := hresult
    exact upholds_pure hs ⟨rfl, [], .refl s, by simp [htype]⟩
  | error cause =>
    obtain ⟨-, -, hcause⟩ := hresult
    refine (knows_report line cause hcause hs).bind fun _ s₁ hs₁ h => upholds_pure hs₁ ?_
    exact ⟨h.1, _, h.2, by simp⟩

end Knows

end DrLang
