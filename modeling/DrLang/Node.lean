import DrLang.DataType
import DrLang.Text.Column

/-!
# The annotated parse tree

Each node has a label, a type, a line and its children. Everything that is read off a
tree is read off its walk: the list of its nodes in document order, each with its
depth.

- `Node.walk`: the nodes of a tree in document order.
- `Node.find?`: the first node with a given label.
- `Node.pretty`: one line per node, indented by depth.
-/

namespace DrLang

/-- A tree of labelled, typed nodes. -/
structure Node where
  label : String
  type : DataType
  line : Nat
  children : List Node
deriving BEq, Repr, Inhabited

namespace Node

/-- A node without children. -/
def leaf (label : String) (line : Nat) (type : DataType) : Node where
  label := label
  type := type
  line := line
  children := []

/-- A node without a value. -/
def group (label : String) (line : Nat) (children : List Node) : Node where
  label := label
  type := .void
  line := line
  children := children

instance : ToString Node :=
  ⟨fun n => n.label ++ " : " ++ n.type.name ++ " (line " ++ toString n.line ++ ")"⟩

/-! ### Equality of trees -/

mutual

/-- Whether two trees are the same. Deriving the instance does not get through the list of
children, so that trees and lists of trees are compared by turns. -/
def decEq : (n m : Node) → Decidable (n = m)
  | ⟨label, type, line, children⟩, ⟨label', type', line', children'⟩ =>
    have := decEqAll children children'
    decidable_of_iff (label = label' ∧ type = type' ∧ line = line' ∧ children = children')
      (.of_eq (Node.mk.injEq ..).symm)

/-- Whether trees are the same, one by one. -/
def decEqAll : (ns ms : List Node) → Decidable (ns = ms)
  | [], [] => isTrue rfl
  | [], _ :: _ | _ :: _, [] => isFalse nofun
  | n :: ns, m :: ms =>
    have := n.decEq m
    have := decEqAll ns ms
    decidable_of_iff (n = m ∧ ns = ms) List.cons_eq_cons.symm

end

instance : DecidableEq Node := decEq

/-! ### Document order -/

mutual

/-- The nodes of a tree in document order, a parent before its children, each with its
depth below a root at depth `depth`. -/
def walk (depth : Nat) : Node → List (Nat × Node)
  | ⟨label, type, line, children⟩ =>
    (depth, ⟨label, type, line, children⟩) :: walkAll (depth + 1) children

/-- The nodes of neighbouring trees in document order. -/
def walkAll (depth : Nat) : List Node → List (Nat × Node)
  | [] => []
  | n :: ns => walk depth n ++ walkAll depth ns

end

theorem walk_eq (depth : Nat) (n : Node) :
    n.walk depth = (depth, n) :: walkAll (depth + 1) n.children := by
  cases n; rfl

/-- The first node with a given label in document order, the root included. -/
def find? (n : Node) (label : String) : Option Node :=
  ((n.walk 0).map Prod.snd).find? fun m => m.label == label

/-- A node on a line of its own, indented by two spaces for each level. -/
def indented (depth : Nat) (n : Node) : String :=
  Text.spaces (2 * depth) ++ toString n ++ "\n"

/-- A tree as text, one line for each node. -/
def pretty (n : Node) : String :=
  String.join ((n.walk 0).map fun (depth, m) => m.indented depth)

end Node

end DrLang
