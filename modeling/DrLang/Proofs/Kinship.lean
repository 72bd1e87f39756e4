import DrLang.Proofs.Likeness

/-!
# Kinship of parses

Two parses whose tokens correspond one by one make trees that correspond, and note what
corresponds, as long as each step does. A likeness says how labels, lines and types are alike, one
by one; where what happens to a label depends on the type beside it, or where something is said of
one parse alone, trees are to be related as a whole.

- `Kinship`: a way in which tokens, trees, types and notes of two parses correspond, that all
  steps of a parse respect.
- `Likeness.kinship`: what is alike corresponds.
-/

namespace DrLang

open Parse

/-- A way in which tokens, trees, types and notes of two parses correspond, such that what is made
of tokens that correspond does. -/
structure Kinship where
  token : Token → Token → Prop
  /-- The tokens that may give a construct its name. -/
  keyword : Token → Prop
  node : Node → Node → Prop
  /-- Types of expressions. -/
  type : DataType → DataType → Prop
  /-- Types of names, which may stand for nothing. -/
  type? : Option DataType → Option DataType → Prop
  notes : Notes → Notes → Prop
  kind_eq {t u : Token} : token t u → t.kind = u.kind
  keyword_of_kind {t : Token} : t.kind ∈ [.check, .rework, .checklist] → keyword t
  type_literal {kind : TokenKind} {a : DataType} : DataType.ofLiteral? kind = some a → type a a
  type_keyword {kind : TokenKind} {a : DataType} : DataType.ofKeyword? kind = some a → type a a
  type_unknown : type .unknown .unknown
  type?_some {a b : DataType} : type a b → type? (some a) (some b)
  type_getD {a b : Option DataType} : type? a b → type (a.getD .unknown) (b.getD .unknown)
  literal {t u : Token} {a : DataType} : token t u → DataType.ofLiteral? t.kind = some a →
    node (.leaf (literalLabel t) t.line a) (.leaf (literalLabel u) u.line a)
  name {t u : Token} {a b : DataType} : token t u → t.kind = .identifier → type a b →
    node (.leaf t.value t.line a) (.leaf u.value u.line b)
  call {t u : Token} {ns ms : List Node} : token t u → t.kind = .identifier →
    List.Forall₂ node ns ms →
    node ⟨"Call " ++ t.value, .unknown, t.line, ns⟩ ⟨"Call " ++ u.value, .unknown, u.line, ms⟩
  attached {t u : Token} : token t u → t.kind = .identifier →
    node (.leaf ("#ATTACH " ++ t.value) t.line .attachment)
      (.leaf ("#ATTACH " ++ u.value) u.line .attachment)
  /-- An expression in a parenthesis or a condition. -/
  wrapped {label : String} {n m : Node} {a b : DataType} : label ∈ ["Paren", "Condition"] →
    type a b → node n m → node ⟨label, a, n.line, [n]⟩ ⟨label, b, m.line, [m]⟩
  compared {t u : Token} {n m n' m' : Node} {a b : DataType} : token t u →
    t.kind.isRelational = true → type a b → node n m → node n' m' →
    node ⟨"Condition", a, n.line, [n, .leaf t.value t.line .void, n']⟩
      ⟨"Condition", b, m.line, [m, .leaf u.value u.line .void, m']⟩
  joined {t u : Token} {n m n' m' : Node} {a b : DataType} : token t u →
    (Rules.standard.operator? t.kind).isSome = true → type a b → node n m → node n' m' →
    node ⟨"BinaryExpr", a, t.line, [n, .leaf t.value t.line .void, n']⟩
      ⟨"BinaryExpr", b, u.line, [m, .leaf u.value u.line .void, m']⟩
  group {label : String} {t u : Token} {ns ms : List Node} : label ∈ constructLabels → token t u →
    List.Forall₂ node ns ms → node (.group label t.line ns) (.group label u.line ms)
  bound {t u : Token} : token t u → t.kind = .identifier →
    Respects notes type? (boundType? t.value t.line) (boundType? u.value u.line)
  arithmetic {t u : Token} {a b a' b' : DataType} : token t u →
    (Rules.standard.operator? t.kind).isSome = true → type a b → type a' b' →
    Respects notes type (typeOrReport t.line (Typing.arithmetic a t.value a'))
      (typeOrReport u.line (Typing.arithmetic b u.value b'))
  relational {t u : Token} {a b a' b' : DataType} : token t u → t.kind.isRelational = true →
    type a b → type a' b' →
    Respects notes type (typeOrReport t.line (Typing.relational a t.value a'))
      (typeOrReport u.line (Typing.relational b u.value b'))
  binding {t u : Token} {kind : TokenKind} {a : DataType} : token t u → t.kind = .identifier →
    DataType.ofKeyword? kind = some a →
    Respects notes (fun _ _ => True) (bindName ⟨t.value, a, t.line⟩) (bindName ⟨u.value, a, u.line⟩)
  store {t u : Token} {target? target?' : Option DataType} {a b : DataType} (site : StoreSite) :
    token t u → t.kind = .identifier → type? target? target?' → type a b →
    Respects notes (fun _ _ => True) (checkStore? site t target? a) (checkStore? site u target?' b)
  violation {t u : Token} {n m : Node} {a b : DataType} : token t u → keyword t → node n m →
    type a b →
    Respects notes (fun _ _ => True) (reportViolation n.line (Typing.condition t.value a))
      (reportViolation m.line (Typing.condition u.value b))
  entryPoint {t u : Token} : token t u →
    Respects notes (fun _ _ => True) (noteEntryPoint t.line) (noteEntryPoint u.line)
  enter : Respects notes (fun _ _ => True) enterScope enterScope
  exit : Respects notes (fun _ _ => True) exitScope exitScope

namespace Kinship

variable (K : Kinship)

/-- What `Lockstep` says of two expressions: `Typed.Related` by the kinship. -/
abbrev expression : Typed → Typed → Prop :=
  Typed.Related K.node K.type

variable {K}

/-- `resolve` is `boundType?` with a default, and `type_getD` says that the default corresponds to
itself. -/
theorem respects_resolve {t u : Token} (h : K.token t u) (hkind : t.kind = .identifier) :
    Respects K.notes K.type (resolve t.value t.line) (resolve u.value u.line) := by
  intro n m hnotes
  obtain ⟨type?, n', type?', m', hp, hq, htype, hnotes'⟩ := K.bound h hkind n m hnotes
  exact ⟨_, n', _, m', hp.bind (yields_pure _ _), hq.bind (yields_pure _ _), K.type_getD htype,
    hnotes'⟩

end Kinship

/-! ### Likeness as kinship -/

namespace Likeness

variable {L : Likeness}

/-- A likeness has a relation of its own on lists of trees, `Likeness.nodes`; it follows from
`Likeness.node` tree by tree. -/
theorem nodes_of_forall₂ {ns ms : List Node} (h : List.Forall₂ L.node ns ms) : L.nodes ns ms := by
  induction h with
  | nil => exact nodes_nil
  | cons hnode _ ih => exact nodes_cons hnode ih

/-- Parentheses and conditions with one side have the type and the line of what they are put
around, so no token is needed to compare them. -/
theorem node_wrapped {label : String} (hlabel : label ∈ ["Paren", "Condition"]) {n m : Node}
    {a b : DataType} (htype : L.Same a b) (h : L.node n m) :
    L.node ⟨label, a, n.line, [n]⟩ ⟨label, b, m.line, [m]⟩ := by
  have hconstruct : label ∈ constructLabels := by
    revert label
    decide
  exact node_mk (L.label_construct label hconstruct) htype (node_line h) (nodes_cons h nodes_nil)

/-- What is alike corresponds. -/
def kinship (L : Likeness) : Kinship where
  token := L.token
  keyword _ := True
  node := L.node
  type := L.Same
  type? := L.Same
  notes := L.notes
  kind_eq := L.kind_eq
  keyword_of_kind _ := trivial
  type_literal _ _ := rfl
  type_keyword _ _ := rfl
  type_unknown _ := rfl
  type?_some h htyped := congrArg some (h htyped)
  type_getD h htyped := by rw [h htyped]
  literal h _ := node_leaf (L.label_literal h) (fun _ => rfl) (L.line_token h)
  name h hkind htype := node_leaf (label_name h hkind) htype (L.line_token h)
  call h hkind hnodes :=
    node_mk (L.label_call h hkind) (fun _ => rfl) (L.line_token h) (nodes_of_forall₂ hnodes)
  attached h hkind := node_leaf (L.label_attach h hkind) (fun _ => rfl) (L.line_token h)
  wrapped hlabel htype h := node_wrapped hlabel htype h
  compared h hkind htype hn hn' := by
    refine node_operation (by decide) h ?_ htype (node_line hn) hn hn'
    intro hstring
    simp [hstring, TokenKind.isRelational] at hkind
  joined h hkind htype hn hn' := by
    refine node_operation (by decide) h ?_ htype (L.line_token h) hn hn'
    intro hstring
    simp [hstring, Rules.standard] at hkind
  group hlabel h hnodes := node_group hlabel (L.line_token h) (nodes_of_forall₂ hnodes)
  bound := L.bound
  arithmetic h _ := L.arithmetic h
  relational h _ := L.relational h
  binding h hkind _ := L.binding _ h hkind
  store := L.store
  violation h _ hnode := L.violation h (node_line hnode)
  entryPoint := L.entryPoint
  enter := L.enter
  exit := L.exit

instance : Coe Likeness Kinship := ⟨kinship⟩

end Likeness

end DrLang
