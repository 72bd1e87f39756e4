import DrLang.Node
import DrLang.Token
import DrLang.SymbolTable
import DrLang.Diagnostic.Semantic

/-!
# What a tree has on record

A tree shows every declaration and every entry point, those as well that a parse reports. Which
of them it reports shows in the tree too: the declarations of one scope stand side by side, and of
those with the same name the first one counts; of all entry points the first one does.

- `Node.listing`: what is found in trees, in document order.
- `Node.declared?`, `Node.entryLine?`: what a node declares, and the line of an entry point.
- `Node.recordLabels`: the labels of these nodes.
- `Node.declarations`: the declarations in a tree, each with the one that it repeats.
- `Plain`: trees with nothing on record.
- `redefinitions`: the errors of the entry points on given lines.
- `cites_declarationsAmong`: a declaration that is repeated stands before, and repeats none itself.
-/

namespace DrLang

/-! ### Listings -/

namespace Node

variable {α : Type} (f : Node → Option α)

/-- What is found in neighbouring trees, in document order. -/
def listing (ns : List Node) : List α :=
  (walkAll 0 ns).filterMap fun (_, m) => f m

mutual

/-- At what depth a walk begins does not matter for the nodes that are met. -/
theorem map_snd_walk (depth depth' : Nat) :
    (n : Node) → (walk depth n).map Prod.snd = (walk depth' n).map Prod.snd
  | ⟨_, _, _, children⟩ => by
    simp only [walk, List.map_cons, map_snd_walkAll (depth + 1) (depth' + 1) children]

theorem map_snd_walkAll (depth depth' : Nat) :
    (ns : List Node) → (walkAll depth ns).map Prod.snd = (walkAll depth' ns).map Prod.snd
  | [] => rfl
  | n :: ns => by
    simp only [walkAll, List.map_append, map_snd_walk depth depth' n,
      map_snd_walkAll depth depth' ns]

end

/-- What is found in trees does not depend on their depth, so `listing` may begin its walk at
zero. -/
theorem filterMap_walkAll (depth : Nat) (ns : List Node) :
    ((walkAll depth ns).filterMap fun (_, m) => f m) = listing f ns := by
  have hsnd := map_snd_walkAll depth 0 ns
  have hmap (l : List (Nat × Node)) :
      (l.filterMap fun (_, m) => f m) = (l.map Prod.snd).filterMap f := by
    rw [List.filterMap_map]
    rfl
  rw [listing, hmap, hmap, hsnd]

@[simp] theorem listing_nil : listing f [] = [] := rfl

/-- A tree is walked from its root through its children, and then the trees beside it: the order
of `walkAll`. -/
theorem listing_cons (n : Node) (ns : List Node) :
    listing f (n :: ns) = (f n).toList ++ listing f n.children ++ listing f ns := by
  rw [listing, walkAll, List.filterMap_append, walk_eq, List.filterMap_cons]
  simp only [filterMap_walkAll]
  cases f n <;> rfl

theorem listing_singleton (n : Node) :
    listing f [n] = (f n).toList ++ listing f n.children := by
  rw [listing_cons, listing_nil, List.append_nil]

/-- What is found in trees side by side is found in one after the other, by `listing_cons` and
induction. -/
theorem listing_append (ns ms : List Node) :
    listing f (ns ++ ms) = listing f ns ++ listing f ms := by
  induction ns with
  | nil => rfl
  | cons n ns ih => simp only [List.cons_append, listing_cons, ih, List.append_assoc]

/-! ### Declarations and entry points -/

/-- What a node declares. A name may be spelled like the label of a declaration, but has no
parts. -/
def declared? (n : Node) : Option Symbol :=
  if n.label = "Declaration" then n.children.head?.map fun name => ⟨name.label, name.type, n.line⟩
  else none

/-- The line of an entry point, which has a part as well. -/
def entryLine? (n : Node) : Option Nat :=
  if n.label = "PlanMain" then n.children.head?.map fun _ => n.line else none

/-- The labels of the nodes that put something on record. -/
def recordLabels : List String :=
  ["Declaration", "PlanMain"]

section Labels

variable {label : String} (h : label ∉ recordLabels) (type : DataType) (line : Nat)
  (children : List Node)
include h

theorem declared?_of_label : (Node.mk label type line children).declared? = none := by
  have hne : label ≠ "Declaration" := fun heq => h (by simp [recordLabels, heq])
  exact if_neg hne

theorem entryLine?_of_label : (Node.mk label type line children).entryLine? = none := by
  have hne : label ≠ "PlanMain" := fun heq => h (by simp [recordLabels, heq])
  exact if_neg hne

end Labels

/-- A declaration as a parse makes it declares the name in front of it. -/
theorem declared?_declaration (line : Nat) (name : Node) (values : List Node) :
    (group "Declaration" line (name :: values)).declared? = some ⟨name.label, name.type, line⟩ :=
  if_pos rfl

theorem entryLine?_declaration (line : Nat) (children : List Node) :
    (group "Declaration" line children).entryLine? = none :=
  if_neg (show "Declaration" ≠ "PlanMain" by decide)

end Node

/-- A declaration in a tree. -/
structure Declaration where
  symbol : Symbol
  /-- The first one of the same name that stands before it in the same scope. -/
  first? : Option Symbol
deriving DecidableEq, Repr

namespace Declaration

/-- A declaration behind others of the same scope. -/
def behind (earlier : List Symbol) (symbol : Symbol) : Declaration where
  symbol := symbol
  first? := earlier.find? fun other => other.name == symbol.name

/-- The error of a declaration that repeats another one. -/
def redeclaration? (d : Declaration) : Option SemanticError :=
  d.first?.map fun first => ⟨d.symbol.line, .redeclaration d.symbol.name first.line⟩

/-- The symbols of the declarations that repeat none. -/
def counted (ds : List Declaration) : List Symbol :=
  (ds.filter fun d => d.first?.isNone).map symbol

@[simp] theorem counted_append (ds ds' : List Declaration) :
    counted (ds ++ ds') = counted ds ++ counted ds' := by
  simp [counted]

end Declaration

namespace Node

mutual

/-- The declarations below a node, in document order. Its children are in one scope: those of the
root are global, and besides these only a block and the header of a loop have declarations as
children. -/
def declarations : Node → List Declaration
  | ⟨_, _, _, children⟩ => declarationsAmong [] children

/-- The declarations in neighbouring trees, behind others of the same scope. -/
def declarationsAmong (earlier : List Symbol) : List Node → List Declaration
  | [] => []
  | n :: ns =>
    n.declared?.toList.map (.behind earlier) ++ n.declarations ++
      declarationsAmong (earlier ++ n.declared?.toList) ns

end

/-- The declarations in a tree are those among its children, in a scope that begins there:
`declarationsAmong []`. -/
theorem declarations_eq (n : Node) : n.declarations = declarationsAmong [] n.children := by
  cases n
  rfl

/-- A node declares in the scope that it stands in, where `earlier` came before, and its parts in
scopes of their own. -/
theorem declarationsAmong_singleton (earlier : List Symbol) (n : Node) :
    declarationsAmong earlier [n] =
      n.declared?.toList.map (.behind earlier) ++ n.declarations := by
  simp only [declarationsAmong, List.append_nil]

/-- Trees behind others come behind what those declare in their scope. -/
theorem declarationsAmong_append (earlier : List Symbol) (ns ms : List Node) :
    declarationsAmong earlier (ns ++ ms) = declarationsAmong earlier ns ++
      declarationsAmong (earlier ++ ns.flatMap fun n => n.declared?.toList) ms := by
  induction ns generalizing earlier with
  | nil => simp [declarationsAmong]
  | cons n ns ih => simp [declarationsAmong, ih]

mutual

/-- The declarations in a tree, without what they repeat, are what `declared?` finds in it. -/
theorem map_symbol_declarations :
    (n : Node) → n.declarations.map Declaration.symbol = listing declared? n.children
  | ⟨_, _, _, children⟩ => map_symbol_declarationsAmong [] children

/-- No declaration is left out. -/
theorem map_symbol_declarationsAmong (earlier : List Symbol) : (ns : List Node) →
    (declarationsAmong earlier ns).map Declaration.symbol = listing declared? ns
  | [] => rfl
  | n :: ns => by
    have hbehind : Declaration.symbol ∘ Declaration.behind earlier = id := rfl
    rw [declarationsAmong, listing_cons, List.map_append, List.map_append, List.map_map, hbehind,
      List.map_id, map_symbol_declarations n, map_symbol_declarationsAmong _ ns]

end

end Node

/-! ### Trees with nothing on record -/

/-- Trees without declarations and entry points. -/
def Plain (ns : List Node) : Prop :=
  Node.listing Node.declared? ns = [] ∧ Node.listing Node.entryLine? ns = []

section Plain

variable {n : Node} {ns : List Node} {label : String} {type : DataType} {line : Nat}

theorem plain_nil : Plain [] := ⟨rfl, rfl⟩

theorem Plain.cons (h : Plain [n]) (hs : Plain ns) : Plain (n :: ns) := by
  have hcons {α : Type} {f : Node → Option α} (hn : Node.listing f [n] = [])
      (hns : Node.listing f ns = []) : Node.listing f (n :: ns) = [] := by
    rw [Node.listing_cons, ← Node.listing_singleton, hn, hns]
    rfl
  exact ⟨hcons h.1 hs.1, hcons h.2 hs.2⟩

/-- A node of another label than `recordLabels` has on record what its children have. -/
theorem plain_node (hlabel : label ∉ Node.recordLabels) (h : Plain ns) :
    Plain [⟨label, type, line, ns⟩] := by
  constructor
  · rw [Node.listing_singleton, Node.declared?_of_label hlabel]
    exact h.1
  · rw [Node.listing_singleton, Node.entryLine?_of_label hlabel]
    exact h.2

/-- A name may have any label. -/
theorem plain_leaf : Plain [.leaf label line type] := by
  constructor
  · rw [Node.listing_singleton, Node.declared?]
    split <;> rfl
  · rw [Node.listing_singleton, Node.entryLine?]
    split <;> rfl

/-- Two parts with an operator between them. -/
theorem plain_operation {left right : Node} {operator : Token} {type' : DataType}
    (hlabel : label ∉ Node.recordLabels) (hleft : Plain [left]) (hright : Plain [right]) :
    Plain [⟨label, type, line, [left, .leaf operator.value operator.line type', right]⟩] :=
  plain_node hlabel (hleft.cons (plain_leaf.cons hright))

/-- Trees without declarations declare nothing, whatever `earlier` is. -/
theorem Plain.declarationsAmong (h : Plain ns) (earlier : List Symbol) :
    Node.declarationsAmong earlier ns = [] := by
  have hsymbols := Node.map_symbol_declarationsAmong earlier ns
  rw [h.1] at hsymbols
  exact List.map_eq_nil_iff.1 hsymbols

end Plain

/-! ### Errors of names and entry points -/

/-- Whether an error is that of a name declared again. -/
def SemanticError.isRedeclaration (e : SemanticError) : Bool :=
  match e.cause with
  | .redeclaration _ _ => true
  | _ => false

/-- Whether an error is that of an entry point defined again. -/
def SemanticError.isRedefinition (e : SemanticError) : Bool :=
  match e.cause with
  | .entryPointRedefined _ => true
  | _ => false

/-- The errors of entry points on given lines: each one but the first is reported, and that is
told where the first one is. -/
def redefinitions : List Nat → List SemanticError
  | [] => []
  | first :: others => others.map fun line => ⟨line, .entryPointRedefined first⟩

/-- The errors of declarations are all of the kind that `isRedeclaration` keeps. -/
theorem filter_redeclarations (ds : List Declaration) :
    (ds.filterMap Declaration.redeclaration?).filter SemanticError.isRedeclaration =
      ds.filterMap Declaration.redeclaration? := by
  refine List.filter_eq_self.2 fun e he => ?_
  obtain ⟨d, -, hd⟩ := List.mem_filterMap.1 he
  obtain ⟨first, -, rfl⟩ := Option.map_eq_some_iff.1 hd
  rfl

theorem filter_redeclarations_isRedefinition (ds : List Declaration) :
    (ds.filterMap Declaration.redeclaration?).filter SemanticError.isRedefinition = [] := by
  refine List.filter_eq_nil_iff.2 fun e he => ?_
  obtain ⟨d, -, hd⟩ := List.mem_filterMap.1 he
  obtain ⟨first, -, rfl⟩ := Option.map_eq_some_iff.1 hd
  exact Bool.false_ne_true

theorem mem_redefinitions {lines : List Nat} {e : SemanticError} (h : e ∈ redefinitions lines) :
    ∃ line first, e = ⟨line, .entryPointRedefined first⟩ := by
  cases lines with
  | nil => simp [redefinitions] at h
  | cons first others =>
    obtain ⟨line, -, rfl⟩ := List.mem_map.1 h
    exact ⟨line, first, rfl⟩

/-- The errors of entry points are all of the kind that `isRedefinition` keeps. -/
theorem filter_redefinitions (lines : List Nat) :
    (redefinitions lines).filter SemanticError.isRedefinition = redefinitions lines := by
  refine List.filter_eq_self.2 fun e he => ?_
  obtain ⟨line, first, rfl⟩ := mem_redefinitions he
  rfl

theorem filter_redefinitions_isRedeclaration (lines : List Nat) :
    (redefinitions lines).filter SemanticError.isRedeclaration = [] := by
  refine List.filter_eq_nil_iff.2 fun e he => ?_
  obtain ⟨line, first, rfl⟩ := mem_redefinitions he
  exact Bool.false_ne_true

/-- Of the entry points before, only the first one matters. -/
theorem redefinitions_append (lines lines' : List Nat) :
    redefinitions (lines ++ lines') =
      redefinitions lines ++ redefinitions (lines.head?.toList ++ lines') := by
  cases lines with
  | nil => rfl
  | cons first others => exact List.map_append

/-! ### What is cited -/

/-- Behind declarations, each further one that repeats another repeats one of the same name which
stands before it and repeats none. -/
def Cites (past : List Declaration) : List Declaration → Prop
  | [] => True
  | d :: ds =>
    (∀ first, d.first? = some first → first.name = d.symbol.name ∧ ⟨first, none⟩ ∈ past) ∧
      Cites (past ++ [d]) ds

/-- The declarations of two pieces, the second of which has the first in its past, as `past ++
ds`. -/
theorem Cites.append {past ds ds' : List Declaration} (h : Cites past ds)
    (h' : Cites (past ++ ds) ds') : Cites past (ds ++ ds') := by
  induction ds generalizing past with
  | nil => simpa using h'
  | cons d ds ih => exact ⟨h.1, ih h.2 (by simpa using h')⟩

/-- What a declaration repeats stands in the past or in front of it. -/
theorem Cites.mem {past front ds : List Declaration} {d : Declaration}
    (h : Cites past (front ++ d :: ds)) {first : Symbol} (hfirst : d.first? = some first) :
    first.name = d.symbol.name ∧ ⟨first, none⟩ ∈ past ++ front := by
  induction front generalizing past with
  | nil => simpa using h.1 first hfirst
  | cons d' front ih => simpa using ih h.2

/-- Of the earlier symbols of a scope, the first one of each name is among the declarations that
repeat none. -/
def Covers (past : List Declaration) (earlier : List Symbol) : Prop :=
  ∀ name first, (earlier.find? fun other => other.name == name) = some first →
    ⟨first, none⟩ ∈ past

/-- One symbol more in the scope: either its name is new and `behind` gives it no first, or the
first of its name is covered already. -/
theorem Covers.behind {past : List Declaration} {earlier : List Symbol}
    (h : Covers past earlier) (symbol : Symbol) :
    Covers (past ++ [.behind earlier symbol]) (earlier ++ [symbol]) := by
  intro name first hfirst
  rw [List.find?_append, Option.or_eq_some_iff] at hfirst
  rcases hfirst with hearlier | ⟨hnone, hsymbol⟩
  · exact List.mem_append_left _ (h name first hearlier)
  · -- The symbol is the first one of its name.
    obtain rfl := List.mem_singleton.1 (List.mem_of_find?_eq_some hsymbol)
    have hname : first.name = name := by simpa using List.find?_some hsymbol
    have hbehind : Declaration.behind earlier first = ⟨first, none⟩ := by
      rw [Declaration.behind, hname, hnone]
    rw [hbehind]
    exact List.mem_append_right _ List.mem_cons_self

theorem Covers.mono {past past' : List Declaration} {earlier : List Symbol}
    (h : Covers past earlier) : Covers (past ++ past') earlier :=
  fun name first hfirst => List.mem_append_left _ (h name first hfirst)

/-- Where the past covers the scope, a further declaration repeats something of the past. -/
theorem Covers.cites {past : List Declaration} {earlier : List Symbol} (h : Covers past earlier)
    (symbol : Symbol) : Cites past [.behind earlier symbol] := by
  refine ⟨fun first hfirst => ?_, trivial⟩
  have hname : first.name = symbol.name := by simpa using List.find?_some hfirst
  exact ⟨hname, h symbol.name first hfirst⟩

namespace Node

mutual

/-- All declarations in a tree cite earlier ones, since each scope begins with nothing to cover:
`cites_declarationsAmong`, from `[]`. -/
theorem cites_declarations (past : List Declaration) : (n : Node) → Cites past n.declarations
  | ⟨_, _, _, children⟩ => cites_declarationsAmong past [] (by simp [Covers]) children

/-- What is repeated by a declaration is one that counts. -/
theorem cites_declarationsAmong (past : List Declaration) (earlier : List Symbol)
    (h : Covers past earlier) : (ns : List Node) → Cites past (declarationsAmong earlier ns)
  | [] => trivial
  | n :: ns => by
    rw [declarationsAmong]
    cases n.declared? with
    | none =>
      have hothers := cites_declarationsAmong (past ++ n.declarations) earlier h.mono ns
      simpa using (cites_declarations past n).append hothers
    | some symbol =>
      -- The declaration itself, what is below it, and what stands behind it.
      have hown := (h.cites symbol).append (cites_declarations _ n)
      refine hown.append (cites_declarationsAmong _ _ ?_ ns)
      simpa using (h.behind symbol).mono

end

end Node

end DrLang
