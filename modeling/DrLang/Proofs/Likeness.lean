import DrLang.Proofs.Forward

/-!
# Parses that are alike

Two parses of the same tokens in different surroundings, of tokens that differ in their lines
only, or of token lists that part at some point go through the same rules in the same order. What
they have in common is said once, for any way in which tokens, labels, lines and notes are alike:
a step from one state and a step from another are alike if they end in the same way as long as
the tokens that the first one looks at are.

What a step looks at are the tokens that it takes and the one behind them. For the last of these
it may be enough that neither list goes on with certain classes: behind a block, only the word of
an alternative matters.

- `Likeness`: a way of being alike that the actions of a parse respect.
- `Alike`: two steps that end in the same way.
- `Alike.bind`, `Alike.expect_bind`, `Alike.silent_bind`: steps in sequence.
-/

namespace DrLang

open Parse

/-! ### Ways of being alike -/

/-- From notes that are alike, two steps that take no token leave notes that are alike and have
results that are related. -/
def Respects {α β : Type} (notes : Notes → Notes → Prop) (R : α → β → Prop) (p : Parse α)
    (q : Parse β) : Prop :=
  ∀ n m, notes n m → ∃ a n' b m', Yields p n a n' ∧ Yields q m b m' ∧ R a b ∧ notes n' m'

/-- Two steps end in the same way if both succeed, with results that are related by `R`, or if both
fail at tokens that are related by `token`, where the same was expected. Nothing else of a likeness
or a kinship matters for this, so `Alike` and `Lockstep` share it. -/
inductive EndAlike (token : Token → Token → Prop) {α β : Type} (R : α → β → Prop) :
    Except FatalError α → Except FatalError β → Prop where
  | ok {a : α} {b : β} : R a b → EndAlike token R (.ok a) (.ok b)
  | error {t u : Token} (expected : Expectation) : token t u →
      EndAlike token R (.error (.atToken expected t)) (.error (.atToken expected u))

/-- Where two steps succeed, `EndAlike` may say less of their results. -/
theorem EndAlike.imp {token : Token → Token → Prop} {α β : Type} {R Q : α → β → Prop}
    {r : Except FatalError α} {r' : Except FatalError β} (h : EndAlike token R r r')
    (hRQ : ∀ a b, R a b → Q a b) : EndAlike token Q r r' := by
  cases h with
  | ok hR => exact .ok (hRQ _ _ hR)
  | error expected htoken => exact .error expected htoken

/-- Expressions whose trees are related by `node` and whose types are related by `type`. -/
def Typed.Related (node : Node → Node → Prop) (type : DataType → DataType → Prop)
    (e e' : Typed) : Prop :=
  node e.node e'.node ∧ type e.type e'.type

/-- The labels of constructs, which do not come from tokens. -/
def constructLabels : List String :=
  ["Paren", "Condition", "BinaryExpr", "Declaration", "Assignment", "Increment", "Decrement",
    "OUTPUT", "RETURN", "Include", "IF", "WHILE", "FOR", "PlanMain", "Block"]

/-- A way in which tokens, labels, lines and notes of two parses are alike, such that what is made
of alike ones is alike. Types are the same, or may be anything. -/
structure Likeness where
  token : Token → Token → Prop
  label : String → String → Prop
  line : Nat → Nat → Prop
  /-- Whether types are the same. -/
  typed : Prop
  notes : Notes → Notes → Prop
  kind_eq {t u : Token} : token t u → t.kind = u.kind
  line_token {t u : Token} : token t u → line t.line u.line
  label_literal {t u : Token} : token t u → label (literalLabel t) (literalLabel u)
  label_call {t u : Token} : token t u → t.kind = .identifier →
    label ("Call " ++ t.value) ("Call " ++ u.value)
  label_attach {t u : Token} : token t u → t.kind = .identifier →
    label ("#ATTACH " ++ t.value) ("#ATTACH " ++ u.value)
  label_construct : ∀ l ∈ constructLabels, label l l
  bound {t u : Token} : token t u → t.kind = .identifier →
    Respects notes (fun a b => typed → a = b) (boundType? t.value t.line)
      (boundType? u.value u.line)
  arithmetic {t u : Token} {l l' r r' : DataType} : token t u → (typed → l = l') →
    (typed → r = r') →
    Respects notes (fun a b => typed → a = b)
      (typeOrReport t.line (Typing.arithmetic l t.value r))
      (typeOrReport u.line (Typing.arithmetic l' u.value r'))
  relational {t u : Token} {l l' r r' : DataType} : token t u → (typed → l = l') →
    (typed → r = r') →
    Respects notes (fun a b => typed → a = b)
      (typeOrReport t.line (Typing.relational l t.value r))
      (typeOrReport u.line (Typing.relational l' u.value r'))
  binding {t u : Token} (type : DataType) : token t u → t.kind = .identifier →
    Respects notes (fun _ _ => True) (bindName ⟨t.value, type, t.line⟩)
      (bindName ⟨u.value, type, u.line⟩)
  store {t u : Token} {target? target?' : Option DataType} {source source' : DataType}
    (site : StoreSite) : token t u → t.kind = .identifier → (typed → target? = target?') →
    (typed → source = source') →
    Respects notes (fun _ _ => True) (checkStore? site t target? source)
      (checkStore? site u target?' source')
  violation {t u : Token} {n n' : Nat} {type type' : DataType} : token t u → line n n' →
    (typed → type = type') →
    Respects notes (fun _ _ => True) (reportViolation n (Typing.condition t.value type))
      (reportViolation n' (Typing.condition u.value type'))
  entryPoint {t u : Token} : token t u →
    Respects notes (fun _ _ => True) (noteEntryPoint t.line) (noteEntryPoint u.line)
  enter : Respects notes (fun _ _ => True) enterScope enterScope
  exit : Respects notes (fun _ _ => True) exitScope exitScope

namespace Likeness

variable (L : Likeness)

/-- Values that are the same if types are. -/
def Same {α : Type} (a b : α) : Prop :=
  L.typed → a = b

mutual

/-- Trees of the same shape whose labels and lines are alike, and whose types may be. -/
def node : Node → Node → Prop
  | ⟨label, type, line, children⟩, ⟨label', type', line', children'⟩ =>
    L.label label label' ∧ L.Same type type' ∧ L.line line line' ∧ nodes children children'

/-- The same of trees, one after the other. -/
def nodes : List Node → List Node → Prop
  | [], [] => True
  | n :: ns, m :: ms => node n m ∧ nodes ns ms
  | _, _ => False

end

/-- What `Alike` says of two expressions: `Typed.Related` by the likeness. -/
abbrev expression : Typed → Typed → Prop :=
  Typed.Related L.node L.Same

variable {L}

/-- A class that one token does not have, a token like it does not have either. -/
theorem kind_ne {t u : Token} (h : L.token t u) {kind : TokenKind} (hkind : t.kind ≠ kind) :
    u.kind ≠ kind :=
  L.kind_eq h ▸ hkind

/-- All texts but those of strings are labels as they stand, so `label_literal` is about them too.
-/
theorem label_value {t u : Token} (h : L.token t u) (hkind : t.kind ≠ .string) :
    L.label t.value u.value := by
  have hliteral := L.label_literal h
  have hkind' : u.kind ≠ .string := L.kind_eq h ▸ hkind
  rwa [literalLabel, literalLabel, if_neg hkind, if_neg hkind'] at hliteral

theorem label_name {t u : Token} (h : L.token t u) (hkind : t.kind = .identifier) :
    L.label t.value u.value :=
  label_value h (by simp [hkind])

/-- Trees are alike if labels, types, lines and children are: the definition of `Likeness.node`,
from its parts. -/
theorem node_mk {label label' : String} {line line' : Nat} {type type' : DataType}
    {ns ms : List Node} (hlabel : L.label label label') (htype : L.Same type type')
    (hline : L.line line line') (hchildren : L.nodes ns ms) :
    L.node ⟨label, type, line, ns⟩ ⟨label', type', line', ms⟩ := by
  rw [node]
  exact ⟨hlabel, htype, hline, hchildren⟩

theorem nodes_nil : L.nodes [] [] := by
  rw [nodes]
  trivial

theorem nodes_cons {n m : Node} {ns ms : List Node} (h : L.node n m) (hs : L.nodes ns ms) :
    L.nodes (n :: ns) (m :: ms) := by
  rw [nodes]
  exact ⟨h, hs⟩

theorem node_leaf {label label' : String} {line line' : Nat} {type type' : DataType}
    (hlabel : L.label label label') (htype : L.Same type type') (hline : L.line line line') :
    L.node (.leaf label line type) (.leaf label' line' type') :=
  node_mk hlabel htype hline nodes_nil

/-- Two parts with an operator between them. -/
theorem node_operation {label : String} (hlabel : label ∈ constructLabels) {line line' : Nat}
    {t u : Token} {type type' : DataType} {left left' right right' : Node} (htoken : L.token t u)
    (hkind : t.kind ≠ .string) (htype : L.Same type type') (hline : L.line line line')
    (hleft : L.node left left') (hright : L.node right right') :
    L.node ⟨label, type, line, [left, .leaf t.value t.line .void, right]⟩
      ⟨label, type', line', [left', .leaf u.value u.line .void, right']⟩ := by
  have hoperator : L.node (.leaf t.value t.line .void) (.leaf u.value u.line .void) :=
    node_leaf (label_value htoken hkind) (fun _ => rfl) (L.line_token htoken)
  exact node_mk (L.label_construct label hlabel) htype hline
    (nodes_cons hleft (nodes_cons hoperator (nodes_cons hright nodes_nil)))

/-- A construct over alike parts. -/
theorem node_group {label : String} (hlabel : label ∈ constructLabels) {line line' : Nat}
    {ns ms : List Node} (hline : L.line line line') (hchildren : L.nodes ns ms) :
    L.node (.group label line ns) (.group label line' ms) :=
  node_mk (L.label_construct label hlabel) (fun _ => rfl) hline hchildren

/-- Trees that are alike have lines that are; a parse asks for the line of what it has parsed. -/
theorem node_line {n m : Node} (h : L.node n m) : L.line n.line m.line := by
  obtain ⟨label, type, line, children⟩ := n
  obtain ⟨label', type', line', children'⟩ := m
  rw [node] at h
  exact h.2.2.1

theorem node_label {n m : Node} (h : L.node n m) : L.label n.label m.label := by
  obtain ⟨label, type, line, children⟩ := n
  obtain ⟨label', type', line', children'⟩ := m
  rw [node] at h
  exact h.1

/-- A relation between nodes that passes from the children of alike nodes to the nodes. -/
def Passes (L : Likeness) (S : Node → Node → Prop) : Prop :=
  ∀ n m, L.label n.label m.label → L.Same n.type m.type → L.line n.line m.line →
    List.Forall₂ S n.children m.children → S n m

mutual

/-- What passes from children to nodes holds of all trees that are alike. The induction is on the
trees, with a list of children beside it. -/
theorem Passes.rel_of_node {S : Node → Node → Prop} (hS : L.Passes S) :
    (n m : Node) → L.node n m → S n m
  | ⟨_, _, _, children⟩, ⟨_, _, _, children'⟩, h => by
    rw [node] at h
    exact hS _ _ h.1 h.2.1 h.2.2.1 (hS.rel_of_nodes children children' h.2.2.2)

/-- What passes from children to nodes holds of trees that are alike. -/
theorem Passes.rel_of_nodes {S : Node → Node → Prop} (hS : L.Passes S) :
    (ns ms : List Node) → L.nodes ns ms → List.Forall₂ S ns ms
  | [], [], _ => .nil
  | n :: ns, m :: ms, h => by
    rw [nodes] at h
    exact .cons (hS.rel_of_node n m h.1) (hS.rel_of_nodes ns ms h.2)
  | [], _ :: _, h => by simp [nodes] at h
  | _ :: _, [], h => by simp [nodes] at h

end

end Likeness

/-! ### Steps that are alike -/

section Alike

variable {α β γ δ : Type} {L : Likeness} {F G : Set TokenKind} {P : α → β → Prop}
  {R : γ → δ → Prop} {p : Parse α} {q : Parse β} {f : α → Parse γ} {g : β → Parse δ}
  {s t : Parser}

/-- A step from `s` and a step from `t` end in the same way, if the tokens that the first one
takes and the one behind them are alike. If the first one succeeds, the tokens behind may also
differ, as long as neither is of a class in `F`. -/
def Alike (L : Likeness) (F : Set TokenKind) (P : α → β → Prop) (p : Parse α) (q : Parse β)
    (s t : Parser) : Prop :=
  L.notes s.notes t.notes → ∀ r s', p.runFrom s = (r, s') → ∀ used used' next ahead,
    s.cursor.tokens = used ++ s'.cursor.tokens → List.Forall₂ L.token used used' →
    t.cursor.tokens = used' ++ next :: ahead →
    (L.token s'.cursor.current next ∨
      r.isOk = true ∧ s'.cursor.current.kind ∉ F ∧ next.kind ∉ F) →
    ∃ r' n', q.runFrom t = (r', n'.at ⟨next, ahead⟩) ∧ L.notes s'.notes n' ∧ EndAlike L.token P r r'

namespace Alike

theorem congr {p' : Parse α} {q' : Parse β} (hp : p.runFrom s = p'.runFrom s)
    (hq : q.runFrom t = q'.runFrom t) (h : Alike L F P p' q' s t) : Alike L F P p q s t := by
  intro hnotes r s' hrun used used' next ahead hused htokens ht hnext
  rw [hp] at hrun
  rw [hq]
  exact h hnotes r s' hrun used used' next ahead hused htokens ht hnext

/-- If fewer classes are allowed behind, less is to be shown: `G` has all classes of `F`. -/
theorem mono (h : Alike L F P p q s t) (hFG : F ⊆ G) : Alike L G P p q s t := by
  intro hnotes r s' hrun used used' next ahead hused htokens ht hnext
  refine h hnotes r s' hrun used used' next ahead hused htokens ht (hnext.imp_right ?_)
  rintro ⟨hok, hcurrent, hnext⟩
  exact ⟨hok, fun hmem => hcurrent (hFG hmem), fun hmem => hnext (hFG hmem)⟩

/-- The current tokens are alike if any are taken. If none is, they are the ones behind. -/
theorem heads {c c' d : Cursor} {used used' ahead : List Token} {next : Token}
    (hused : c.tokens = used ++ c'.tokens) (htokens : List.Forall₂ L.token used used')
    (ht : d.tokens = used' ++ next :: ahead) :
    L.token c.current d.current ∨ c'.tokens = c.tokens ∧ c.current = c'.current ∧
      d.current = next := by
  cases htokens with
  | nil =>
    obtain ⟨hcurrent, -⟩ := List.cons.inj hused
    obtain ⟨hcurrent', -⟩ := List.cons.inj ht
    exact .inr ⟨hused.symm, hcurrent, hcurrent'⟩
  | cons htoken _ =>
    obtain ⟨rfl, -⟩ := List.cons.inj hused
    obtain ⟨rfl, -⟩ := List.cons.inj ht
    exact .inl htoken

/-- The current tokens are alike, or both are such that the steps need not look at them. -/
theorem of_current (h : L.token s.cursor.current t.cursor.current ∨
    s.cursor.current.kind ∉ F ∧ t.cursor.current.kind ∉ F → Alike L F P p q s t) :
    Alike L F P p q s t := by
  intro hnotes r s' hrun used used' next ahead hused htokens ht hnext
  refine h ?_ hnotes r s' hrun used used' next ahead hused htokens ht hnext
  rcases heads hused htokens ht with htoken | ⟨-, hcurrent, hcurrent'⟩
  · exact .inl htoken
  · rw [hcurrent, hcurrent']
    exact hnext.imp_right And.right

/-- Where every class counts, the current tokens are alike: no kind is outside `Set.univ`. -/
theorem of_token (h : L.token s.cursor.current t.cursor.current → Alike L Set.univ P p q s t) :
    Alike L Set.univ P p q s t :=
  of_current fun hcurrent => h (hcurrent.resolve_right fun hneither => hneither.1 trivial)

/-- Where a token is taken, the current ones are alike. -/
theorem of_taken
    (htakes : ∀ a s', p.runFrom s = (.ok a, s') → s'.cursor.tokens ≠ s.cursor.tokens)
    (h : L.token s.cursor.current t.cursor.current → Alike L F P p q s t) :
    Alike L F P p q s t := by
  intro hnotes r s' hrun used used' next ahead hused htokens ht hnext
  refine h ?_ hnotes r s' hrun used used' next ahead hused htokens ht hnext
  rcases heads hused htokens ht with htoken | ⟨hsame, hcurrent, hcurrent'⟩
  · exact htoken
  · rw [hcurrent, hcurrent']
    refine hnext.resolve_right fun hdiffer => ?_
    cases r with
    | ok a => exact htakes a s' hrun hsame
    | error e => exact Bool.false_ne_true hdiffer.1

/-- What is alike when the current token is taken: the token itself, and what is left of `used`
behind it. -/
theorem taken {m m' : Nat} (hs : Ready m s) (ht : Ready m' t)
    (hkind : s.cursor.current.kind ≠ .eof) {c : Cursor} {used used' ahead : List Token}
    {next : Token} (htakes : c.tokens <:+ s.cursor.advance.tokens)
    (hused : s.cursor.tokens = used ++ c.tokens) (htokens : List.Forall₂ L.token used used')
    (htused : t.cursor.tokens = used' ++ next :: ahead) :
    L.token s.cursor.current t.cursor.current ∧ t.cursor.current.kind ≠ .eof ∧
      ∃ v v', s.cursor.advance.tokens = v ++ c.tokens ∧ List.Forall₂ L.token v v' ∧
        t.cursor.advance.tokens = v' ++ next :: ahead := by
  obtain ⟨v, hv⟩ := htakes
  have htaken : s.cursor.tokens = (s.cursor.current :: v) ++ c.tokens := by
    rw [hs.tokens_eq hkind, ← hv]
    rfl
  -- What was used begins with the token at hand: both ends of the split are known.
  obtain rfl : used = s.cursor.current :: v := List.append_cancel_right (hused.symm.trans htaken)
  cases htokens with
  | @cons _ u _ v' htoken hrest =>
    obtain ⟨rfl, -⟩ := List.cons.inj htused
    have hne : t.cursor.current.kind ≠ .eof := L.kind_eq htoken ▸ hkind
    have hahead : t.cursor.advance.tokens = v' ++ next :: ahead :=
      (List.cons.inj ((ht.tokens_eq hne).symm.trans htused)).2
    exact ⟨htoken, hne, v, v', hv.symm, hrest, hahead⟩

/-- Where the current token is taken and every class counts behind, the next ones are alike. -/
theorem of_peek {m m' : Nat} (hs : Ready m s) (ht : Ready m' t)
    (hkind : s.cursor.current.kind ≠ .eof)
    (htakes : (p.runFrom s).2.cursor.tokens <:+ s.cursor.advance.tokens)
    (h : L.token s.cursor.current t.cursor.current → s.cursor.peekKind = t.cursor.peekKind →
      Alike L Set.univ P p q s t) :
    Alike L Set.univ P p q s t := by
  intro hnotes r s' hrun used used' next ahead hused htokens htused hnext
  rw [hrun] at htakes
  obtain ⟨htoken, hne, v, v', hv, hrest, hahead⟩ :=
    taken hs ht hkind htakes hused htokens htused
  have hpeek : L.token s.cursor.advance.current t.cursor.advance.current := by
    -- The token behind is either one of those used or the one that stands next to them.
    rcases heads hv hrest hahead with htoken | ⟨-, hcurrent, hcurrent'⟩
    · exact htoken
    · rw [hcurrent, hcurrent']
      exact hnext.resolve_right fun hneither => hneither.2.1 trivial
  refine h htoken ?_ hnotes r s' hrun used used' next ahead hused htokens htused hnext
  rw [hs.peekKind_eq hkind, ht.peekKind_eq hne, L.kind_eq hpeek]

/-- Behind a failure, the tokens are alike. -/
theorem token_of_error {e : FatalError} {token other : Prop}
    (h : token ∨ (Except.error e : Except FatalError α).isOk = true ∧ other) : token :=
  h.resolve_right fun hok => Bool.false_ne_true hok.1

/-! ### Steps that take no token -/

/-- Results that are related may be given; no token is taken, so `F` does not matter. -/
theorem pure {a : α} {b : β} (h : P a b) : Alike L F P (pure a) (pure b) s t := by
  intro hnotes r s' hrun used used' next ahead hused htokens ht _
  obtain ⟨rfl, rfl⟩ := Prod.mk.inj hrun
  obtain rfl := List.self_eq_append_left.1 hused
  cases htokens with
  | nil =>
    obtain ⟨rfl, rfl⟩ := List.cons.inj ht
    exact ⟨.ok b, t.notes, rfl, hnotes, .ok h⟩

/-- A failure looks at one token, the one that it blames, so that one is alike on both sides, as
`EndAlike.error` asks. -/
theorem unexpected (expected : Expectation) :
    Alike L F P (unexpected expected) (unexpected expected) s t := by
  intro hnotes r s' hrun used used' next ahead hused htokens ht hnext
  obtain ⟨rfl, rfl⟩ := Prod.mk.inj hrun
  obtain rfl := List.self_eq_append_left.1 hused
  cases htokens with
  | nil =>
    obtain ⟨rfl, rfl⟩ := List.cons.inj ht
    have htoken := token_of_error hnext
    exact ⟨_, t.notes, rfl, hnotes, .error expected htoken⟩

/-- Silent steps before steps that are alike. What `Respects` the notes leaves both cursors where
they are. -/
theorem silent_bind (hp : Respects L.notes P p q)
    (hf : ∀ a b s₁ t₁, s₁.cursor = s.cursor → t₁.cursor = t.cursor → P a b →
      Alike L F R (f a) (g b) s₁ t₁) :
    Alike L F R (p >>= f) (q >>= g) s t := by
  intro hnotes r s' hrun used used' next ahead hused htokens ht hnext
  obtain ⟨a, n, b, m, hp, hq, hP, hnotes'⟩ := hp _ _ hnotes
  have hstep : p.runFrom s = (.ok a, n.at s.cursor) := hp s.cursor
  have hstep' : q.runFrom t = (.ok b, m.at t.cursor) := hq t.cursor
  rw [runFrom_bind, hstep] at hrun
  rw [runFrom_bind, hstep']
  exact hf a b (n.at s.cursor) (m.at t.cursor) rfl rfl hP hnotes' r s' hrun used used' next ahead
    hused htokens ht hnext

/-! ### Steps in sequence -/

/-- Where both lists are alike up to some point, so are their pieces. -/
theorem exists_append_of_forall₂ {T : Token → Token → Prop} {u v w : List Token}
    (h : List.Forall₂ T (u ++ v) w) :
    ∃ u' v', w = u' ++ v' ∧ List.Forall₂ T u u' ∧ List.Forall₂ T v v' := by
  induction u generalizing w with
  | nil => exact ⟨[], w, rfl, .nil, h⟩
  | cons x u ih =>
    cases h with
    | cons hx h =>
      obtain ⟨u', v', rfl, hu, hv⟩ := ih h
      exact ⟨_ :: u', v', rfl, .cons hx hu, hv⟩

/-- A point among the tokens of one list, and the same point among those of the other one. -/
theorem exists_between {c c₁ c' d : Cursor} {u v used used' ahead : List Token} {next : Token}
    (hu : c.tokens = u ++ c₁.tokens) (hv : c₁.tokens = v ++ c'.tokens)
    (hused : c.tokens = used ++ c'.tokens) (htokens : List.Forall₂ L.token used used')
    (ht : d.tokens = used' ++ next :: ahead) :
    ∃ u' v' next₁ ahead₁, d.tokens = u' ++ next₁ :: ahead₁ ∧
      next₁ :: ahead₁ = v' ++ next :: ahead ∧ List.Forall₂ L.token u u' ∧
      List.Forall₂ L.token v v' ∧
      (L.token c₁.current next₁ ∨ c'.tokens = c₁.tokens ∧ c₁.current = c'.current ∧
        next₁ = next) := by
  -- One split of the tokens used, and related lists are split at the same place.
  obtain rfl : used = u ++ v := by
    rw [hu, hv, ← List.append_assoc] at hused
    exact (List.append_cancel_right hused).symm
  obtain ⟨u', v', rfl, hu', hv'⟩ := exists_append_of_forall₂ htokens
  obtain ⟨next₁, ahead₁, hahead⟩ :=
    List.exists_cons_of_ne_nil (show v' ++ next :: ahead ≠ [] by simp)
  refine ⟨u', v', next₁, ahead₁, ?_, hahead.symm, hu', hv', ?_⟩
  · rw [ht, List.append_assoc, hahead]
  · exact heads (d := ⟨next₁, ahead₁⟩) hv hv' hahead.symm

/-- A step and what follows it. What follows takes a token if it succeeds, or at least looks at
the current one wherever the first step does. -/
theorem bind [hforward : Forward p] [hforward' : ∀ a, Forward (f a)] (hp : Alike L F P p q s t)
    (hf : ∀ a b s₁ t₁ u u', p.runFrom s = (.ok a, s₁) → s.cursor.tokens = u ++ s₁.cursor.tokens →
      t.cursor.tokens = u' ++ t₁.cursor.tokens → u.length = u'.length → P a b →
      Alike L G R (f a) (g b) s₁ t₁)
    (hsep : F ⊆ G ∨ ∀ a s₁, p.runFrom s = (.ok a, s₁) → ∀ c s₂,
      (f a).runFrom s₁ = (.ok c, s₂) → s₂.cursor.tokens ≠ s₁.cursor.tokens) :
    Alike L G R (p >>= f) (q >>= g) s t := by
  intro hnotes r s' hrun used used' next ahead hused htokens ht hnext
  rw [runFrom_bind] at hrun
  split at hrun
  case h_1 a s₁ hstep =>
    obtain ⟨u, hu⟩ := hforward.suffix s
    obtain ⟨v, hv⟩ := (hforward' a).suffix s₁
    rw [hstep] at hu
    rw [hrun] at hv
    obtain ⟨u', v', next₁, ahead₁, ht₁, hahead, hu', hv', hbetween⟩ :=
      exists_between hu.symm hv.symm hused htokens ht
    have hnext₁ : L.token s₁.cursor.current next₁ ∨
        (Except.ok a : Except FatalError α).isOk = true ∧ s₁.cursor.current.kind ∉ F ∧
          next₁.kind ∉ F := by
      rcases hbetween with htoken | ⟨hsame, hcurrent, rfl⟩
      · exact .inl htoken
      · -- Nothing is taken any more, so the token behind is the same one for both steps.
        rw [hcurrent]
        refine hnext.imp_right fun hdiffer => ?_
        rcases hsep with hsub | htakes
        · exact ⟨rfl, fun hmem => hdiffer.2.1 (hsub hmem), fun hmem => hdiffer.2.2 (hsub hmem)⟩
        · cases r with
          | ok c => exact absurd hsame (htakes a s₁ hstep c s' hrun)
          | error e => exact absurd hdiffer.1 Bool.false_ne_true
    obtain ⟨r₁, n₁, hq, hnotes₁, houtcome⟩ :=
      hp hnotes _ s₁ hstep u u' next₁ ahead₁ hu.symm hu' ht₁ hnext₁
    cases houtcome with
    | @ok _ b hP =>
      have hfollows := hf a b s₁ (n₁.at ⟨next₁, ahead₁⟩) u u' hstep hu.symm ht₁ hu'.length_eq hP
      rw [runFrom_bind, hq]
      exact hfollows hnotes₁ r s' hrun v v' next ahead hv.symm hv' hahead hnext
  case h_2 e s₁ hstep =>
    obtain ⟨rfl, rfl⟩ := Prod.mk.inj hrun
    have htoken := token_of_error hnext
    obtain ⟨r₁, n₁, hq, hnotes₁, houtcome⟩ :=
      hp hnotes _ s₁ hstep used used' next ahead hused htokens ht (.inl htoken)
    rw [runFrom_bind, hq]
    cases houtcome with
    | error expected htoken => exact ⟨_, n₁, rfl, hnotes₁, .error expected htoken⟩

/-! ### Looking at tokens -/

/-- Both sides may look at their current tokens; which branches they take then is left open. -/
theorem currentKind_bind {f : TokenKind → Parse γ} {g : TokenKind → Parse δ}
    (h : Alike L F R (f s.cursor.current.kind) (g t.cursor.current.kind) s t) :
    Alike L F R (currentKind >>= f) (currentKind >>= g) s t :=
  h.congr (runFrom_currentKind_bind s f) (runFrom_currentKind_bind t g)

/-- As `currentKind_bind`, for the tokens behind. -/
theorem peekKind_bind {f : TokenKind → Parse γ} {g : TokenKind → Parse δ}
    (h : Alike L F R (f s.cursor.peekKind) (g t.cursor.peekKind) s t) :
    Alike L F R (peekKind >>= f) (peekKind >>= g) s t :=
  h.congr (runFrom_peekKind_bind s f) (runFrom_peekKind_bind t g)

/-- As `currentKind_bind`. The two numbers need not be the same: the lists may part far behind. -/
theorem remaining_bind {f : Nat → Parse γ} {g : Nat → Parse δ}
    (h : Alike L F R (f s.cursor.remaining) (g t.cursor.remaining) s t) :
    Alike L F R (remaining >>= f) (remaining >>= g) s t :=
  h.congr (runFrom_remaining_bind s f) (runFrom_remaining_bind t g)

/-! ### Taking tokens -/

section Tokens

variable {m m' : Nat} {kind : TokenKind} {f : Token → Parse γ} {g : Token → Parse δ}

/-- Two steps that take the current token, and what follows them. `advance_bind` and `expect_bind`
are the two cases. -/
theorem take_bind {p q : Parse Token} [hforward : Forward (f s.cursor.current)] (hs : Ready m s)
    (ht : Ready m' t) (hkind : s.cursor.current.kind ≠ .eof)
    (hp : p.runFrom s = advance.runFrom s)
    (hq : t.cursor.current.kind = s.cursor.current.kind → q.runFrom t = advance.runFrom t)
    (hf : L.token s.cursor.current t.cursor.current →
      Ready m { s with cursor := s.cursor.advance } →
      Ready m' { t with cursor := t.cursor.advance } →
      Alike L F R (f s.cursor.current) (g t.cursor.current)
        { s with cursor := s.cursor.advance } { t with cursor := t.cursor.advance }) :
    Alike L F R (p >>= f) (q >>= g) s t := by
  intro hnotes r s' hrun used used' next ahead hused htokens htused hnext
  have hsuffix : ((advance >>= f).runFrom s).2.cursor.tokens <:+ s.cursor.advance.tokens :=
    suffix_advance_bind
  rw [runFrom_bind, ← hp, ← runFrom_bind, hrun] at hsuffix
  rw [runFrom_bind, hp, runFrom_advance] at hrun
  obtain ⟨htoken, hne, v, v', hv, hrest, hahead⟩ :=
    taken hs ht hkind hsuffix hused htokens htused
  -- The other run takes its token as well, and by then both stand behind it.
  rw [runFrom_bind, hq (L.kind_eq htoken).symm, runFrom_advance]
  exact hf htoken (hs.advance_same hkind) (ht.advance_same hne) hnotes r s' hrun v v' next ahead hv
    hrest hahead hnext

/-- The current token, whatever it is, and what follows it. -/
theorem advance_bind [Forward (f s.cursor.current)] (hs : Ready m s) (ht : Ready m' t)
    (hkind : s.cursor.current.kind ≠ .eof)
    (hf : L.token s.cursor.current t.cursor.current →
      Ready m { s with cursor := s.cursor.advance } →
      Ready m' { t with cursor := t.cursor.advance } →
      Alike L F R (f s.cursor.current) (g t.cursor.current)
        { s with cursor := s.cursor.advance } { t with cursor := t.cursor.advance }) :
    Alike L F R (advance >>= f) (advance >>= g) s t :=
  take_bind hs ht hkind rfl (fun _ => rfl) hf

/-- A token that must be there, and what follows it. -/
theorem expect_bind [Forward (f s.cursor.current)] (hs : Ready m s) (ht : Ready m' t)
    (hkind : kind ≠ .eof)
    (hf : s.cursor.current.kind = kind → L.token s.cursor.current t.cursor.current →
      Ready m { s with cursor := s.cursor.advance } →
      Ready m' { t with cursor := t.cursor.advance } →
      Alike L F R (f s.cursor.current) (g t.cursor.current)
        { s with cursor := s.cursor.advance } { t with cursor := t.cursor.advance }) :
    Alike L F R (expect kind >>= f) (expect kind >>= g) s t := by
  by_cases hcurrent : s.cursor.current.kind = kind
  · refine take_bind hs ht (hcurrent ▸ hkind) ?_ (fun hsame => ?_) (hf hcurrent)
    · rw [runFrom_expect, if_pos hcurrent, runFrom_advance]
    · rw [runFrom_expect, if_pos (hsame.trans hcurrent), runFrom_advance]
  · -- Both steps fail at the current token.
    intro hnotes r s' hrun used used' next ahead hused htokens htused hnext
    rw [runFrom_bind, runFrom_expect, if_neg hcurrent] at hrun
    obtain ⟨rfl, rfl⟩ := Prod.mk.inj hrun
    obtain rfl := List.self_eq_append_left.1 hused
    cases htokens with
    | nil =>
      obtain ⟨rfl, rfl⟩ := List.cons.inj htused
      have htoken := token_of_error hnext
      have hcurrent' : t.cursor.current.kind ≠ kind := L.kind_eq htoken ▸ hcurrent
      rw [runFrom_bind, runFrom_expect, if_neg hcurrent']
      exact ⟨_, t.notes, rfl, hnotes, .error _ htoken⟩

end Tokens

/-- A step and what follows it, where every class counts behind both: `bind` for `Set.univ`. -/
theorem bind_open [Forward p] [∀ a, Forward (f a)] (hp : Alike L Set.univ P p q s t)
    (hf : ∀ a b (s₁ t₁ : Parser) u u', s.cursor.tokens = u ++ s₁.cursor.tokens →
      t.cursor.tokens = u' ++ t₁.cursor.tokens → P a b → Alike L Set.univ R (f a) (g b) s₁ t₁) :
    Alike L Set.univ R (p >>= f) (q >>= g) s t :=
  hp.bind (fun a b s₁ t₁ u u' _ hu hu' _ hP => hf a b s₁ t₁ u u' hu hu' hP)
    (.inl (Set.subset_univ _))

/-- A step that counts every class behind it, and the token that closes it. -/
theorem bind_expect {m m' : Nat} {kind : TokenKind} {f : α → Token → Parse γ}
    {g : β → Token → Parse δ} [Forward p] [∀ a token, Forward (f a token)]
    (hp : Alike L Set.univ P p q s t) (hs : Ready m s) (ht : Ready m' t) (hkind : kind ≠ .eof)
    (hf : ∀ a b (s₁ t₁ : Parser), P a b → L.token s₁.cursor.current t₁.cursor.current →
      Ready m { s₁ with cursor := s₁.cursor.advance } →
      Ready m' { t₁ with cursor := t₁.cursor.advance } →
      Alike L G R (f a s₁.cursor.current) (g b t₁.cursor.current)
        { s₁ with cursor := s₁.cursor.advance } { t₁ with cursor := t₁.cursor.advance }) :
    Alike L G R (p >>= fun a => expect kind >>= f a) (q >>= fun b => expect kind >>= g b) s t := by
  refine hp.bind (fun a b s₁ t₁ u u' _ hu hu' _ hP => ?_)
    (.inr fun a s₁ hrun c s₂ hrun' => ?_)
  · exact expect_bind (hs.of_append hu) (ht.of_append hu') hkind fun _ => hf a b s₁ t₁ hP
  · -- The token that closes the step is taken.
    obtain ⟨u, hu⟩ := Forward.suffix (p := p) s
    rw [hrun] at hu
    have hs₁ : Ready m s₁ := hs.of_append hu.symm
    by_cases hcurrent : s₁.cursor.current.kind = kind
    · have hsuffix := suffix_expect_bind (f := f a) hcurrent
      rw [hrun'] at hsuffix
      exact hs₁.tokens_ne (hcurrent ▸ hkind) hsuffix
    · rw [runFrom_bind, runFrom_expect, if_neg hcurrent] at hrun'
      simp at hrun'

end Alike

end Alike

end DrLang
