import DrLang.Node
import DrLang.Source.Line
import Mathlib.Data.List.DropRight

/-!
# Reading a tree back from its text

A tree is shown by one line for each node. All that can be known of the tree is in these lines. A
line is read from its end: the number of the line and the type are single words, so what stands in
front of them is the label, whatever it contains. Which nodes are children of which is told by the
indentation alone, and found from the last line to the first: a node takes the trees behind it as
its children as far as they are deeper.

- `ReadableLabel`, `Node.Readable`: labels that do not run over lines or look like indentation.
- `lastWord`, `readLine?`: a line read back.
- `Node.gather`: a node in front of trees that are read already.
- `Node.ofPretty?`: a whole text read back.
- `Node.ofPretty?_pretty`: what is read is the tree that was shown.
-/

namespace DrLang

/-! ### Trees that can be read -/

/-- A label that stands on a line by itself and does not look like its indentation. -/
structure ReadableLabel (label : String) : Prop where
  ne_empty : label ≠ ""
  newline_notMem : '\n' ∉ label.toList
  head?_ne : label.toList.head? ≠ some ' '

/-- The three conditions of `ReadableLabel` as a conjunction, which is decidable. -/
theorem readableLabel_iff {label : String} : ReadableLabel label ↔
    label ≠ "" ∧ '\n' ∉ label.toList ∧ label.toList.head? ≠ some ' ' :=
  ⟨fun h => ⟨h.ne_empty, h.newline_notMem, h.head?_ne⟩, fun ⟨hempty, hfeed, hblank⟩ =>
    ⟨hempty, hfeed, hblank⟩⟩

instance (label : String) : Decidable (ReadableLabel label) :=
  decidable_of_iff _ readableLabel_iff.symm

/-- It is told by its first character that a label is neither empty nor begins with a blank. -/
theorem ReadableLabel.of_cons {label : String} {c : Char} {cs : List Char}
    (h : label.toList = c :: cs) (hc : c ≠ ' ') (hfeed : '\n' ∉ label.toList) :
    ReadableLabel label := by
  refine ⟨?_, hfeed, ?_⟩
  · rintro rfl
    simp at h
  · rw [h, List.head?_cons]
    simpa using hc

/-- A readable label begins with some other character than a blank, where the indentation ends. -/
theorem ReadableLabel.exists_cons {label : String} (h : ReadableLabel label) :
    ∃ c cs, label.toList = c :: cs ∧ c ≠ ' ' := by
  obtain ⟨c, cs, hlabel⟩ := List.exists_cons_of_ne_nil (mt String.toList_eq_nil_iff.1 h.ne_empty)
  have hfirst := h.head?_ne
  rw [hlabel, List.head?_cons] at hfirst
  exact ⟨c, cs, hlabel, fun hc => hfirst (congrArg some hc)⟩

/-- A tree all of whose labels are such. -/
inductive Node.Readable : Node → Prop where
  | intro {n : Node} : ReadableLabel n.label → (∀ m ∈ n.children, Readable m) → Readable n

/-- The label of a readable tree. -/
theorem Node.Readable.label {n : Node} (h : n.Readable) : ReadableLabel n.label := by
  cases h with
  | intro hlabel _ => exact hlabel

/-- The parts of a readable tree are readable. -/
theorem Node.Readable.children {n : Node} (h : n.Readable) : ∀ m ∈ n.children, m.Readable := by
  cases h with
  | intro _ hchildren => exact hchildren

/-! ### Lines -/

/-- What stands in front of the last blank of a line, and the word behind it. -/
def lastWord (line : List Char) : List Char × List Char :=
  ((line.rdropWhile (· != ' ')).dropLast, line.rtakeWhile (· != ' '))

/-- A word without blanks behind one blank is the last word, whatever stands in front:
`rtakeWhile` stops at that blank. -/
theorem lastWord_append {word : List Char} (h : ' ' ∉ word) (before : List Char) :
    lastWord (before ++ ' ' :: word) = (before, word) := by
  have hword : ∀ c ∈ word.reverse, (c != ' ') = true := by
    intro c hc
    rw [bne_iff_ne]
    rintro rfl
    exact h (List.mem_reverse.1 hc)
  have hreverse : (before ++ ' ' :: word).reverse = word.reverse ++ ' ' :: before.reverse := by
    simp
  simp only [lastWord, List.rdropWhile, List.rtakeWhile, hreverse]
  rw [List.dropWhile_append_of_pos hword, List.takeWhile_append_of_pos hword]
  simp

/-- The depth of a node and the node without its children, from its line. -/
def readLine? (line : List Char) : Option (Nat × Node) :=
  let depth := (line.takeWhile (· == ' ')).length / 2
  let (beforeNumber, number) := lastWord (line.dropWhile (· == ' '))
  let (beforeWord, _) := lastWord beforeNumber
  let (beforeType, type) := lastWord beforeWord
  let (label, _) := lastWord beforeType
  (DataType.ofName? (String.ofList type)).map fun type =>
    (depth, .leaf (String.ofList label) (Nat.ofDigitChars 10 number.dropLast 0) type)

/-- The line of a node, without the line feed that ends it. -/
def Node.dumpLine (depth : Nat) (n : Node) : List Char :=
  List.replicate (2 * depth) ' ' ++ (toString n).toList

/-- A line of a dump, as characters: `dumpLine` is `indented` without its line feed. -/
theorem Node.toList_indented (depth : Nat) (n : Node) :
    (n.indented depth).toList = n.dumpLine depth ++ ['\n'] := by
  simp only [indented, dumpLine, String.toList_append, Text.toList_spaces]
  rfl

/-- A node is shown as its label with four words behind it. -/
theorem Node.toList_toString (n : Node) :
    (toString n).toList = (((n.label.toList ++ ' ' :: [':']) ++ ' ' :: n.type.name.toList) ++
      ' ' :: "(line".toList) ++ ' ' :: ((toString n.line).toList ++ [')']) := by
  show (n.label ++ " : " ++ n.type.name ++ " (line " ++ toString n.line ++ ")").toList = _
  simp only [String.toList_append, List.append_assoc]
  rfl

/-- The names of types are single words, by going through `DataType.all`. -/
theorem DataType.blank_notMem_name (type : DataType) : ' ' ∉ type.name.toList :=
  (by decide : ∀ type ∈ all, ' ' ∉ type.name.toList) type (mem_all type)

/-- The names of types keep to one line. -/
theorem DataType.newline_notMem_name (type : DataType) : '\n' ∉ type.name.toList :=
  (by decide : ∀ type ∈ all, '\n' ∉ type.name.toList) type (mem_all type)

/-- A line of a dump is one line if its label keeps to one. -/
theorem Node.newline_notMem_dumpLine {n : Node} (h : ReadableLabel n.label) (depth : Nat) :
    '\n' ∉ n.dumpLine depth := by
  have hindent : '\n' ∉ List.replicate (2 * depth) ' ' := by simp
  have hnumber : '\n' ∉ (toString n.line).toList := Text.notMem_toString (by decide) n.line
  rw [dumpLine, toList_toString]
  simp only [List.mem_append, List.mem_cons, not_or]
  refine ⟨hindent, ⟨⟨⟨h.newline_notMem, ?_⟩, ?_, n.type.newline_notMem_name⟩, ?_⟩, ?_, hnumber, ?_⟩
  all_goals decide

/-- The blanks at the start of a line are its indentation, since the label behind them begins with
none: `ReadableLabel.exists_cons`. -/
theorem Node.span_dumpLine {n : Node} (h : ReadableLabel n.label) (depth : Nat) :
    (n.dumpLine depth).takeWhile (· == ' ') = List.replicate (2 * depth) ' ' ∧
      (n.dumpLine depth).dropWhile (· == ' ') = (toString n).toList := by
  have hindent : ∀ c ∈ List.replicate (2 * depth) ' ', (c == ' ') = true := by
    intro c hc
    rw [List.eq_of_mem_replicate hc]
    rfl
  -- A label begins with something other than a blank, so the indentation ends there.
  obtain ⟨c, cs, hlabel, hc⟩ := h.exists_cons
  have hfirst : ¬ (c == ' ') = true := by simpa using hc
  have hhead : ∃ others, (toString n).toList = c :: others := by
    rw [toList_toString, hlabel]
    exact ⟨_, rfl⟩
  obtain ⟨others, hothers⟩ := hhead
  rw [dumpLine, List.takeWhile_append_of_pos hindent, List.dropWhile_append_of_pos hindent,
    hothers, List.takeWhile_cons_of_neg (p := (· == ' ')) hfirst,
    List.dropWhile_cons_of_neg (p := (· == ' ')) hfirst]
  exact ⟨List.append_nil _, rfl⟩

/-- A line is read back, whatever its label contains: `span_dumpLine` gives the depth, and the
four words behind the label are taken from the end. -/
theorem readLine?_dumpLine {n : Node} (h : ReadableLabel n.label) (depth : Nat) :
    readLine? (n.dumpLine depth) = some (depth, .leaf n.label n.line n.type) := by
  have hnumber : ' ' ∉ (toString n.line).toList ++ [')'] := by
    rw [List.mem_append, not_or]
    exact ⟨Text.notMem_toString (by decide) n.line, by decide⟩
  obtain ⟨hindent, hshown⟩ := n.span_dumpLine h depth
  simp only [readLine?, hindent, hshown, n.toList_toString]
  -- From the end: the number, the word in front of it, the type and the colon.
  rw [lastWord_append hnumber, lastWord_append (by decide),
    lastWord_append n.type.blank_notMem_name, lastWord_append (by decide)]
  simp [Nat.ofDigitChars_ten_toDigits]

/-! ### Children -/

namespace Node

/-- A node put in front of trees, which are its children as far as they are deeper. -/
def gather (entry : Nat × Node) (trees : List (Nat × Node)) : List (Nat × Node) :=
  (entry.1, { entry.2 with children := (trees.takeWhile (entry.1 < ·.1)).map Prod.snd }) ::
    trees.dropWhile (entry.1 < ·.1)

/-- A node of a walk, without its children. -/
def head (entry : Nat × Node) : Nat × Node :=
  (entry.1, .leaf entry.2.label entry.2.line entry.2.type)

/-- Trees that do not begin with one below depth `depth`. -/
def Above (depth : Nat) (trees : List (Nat × Node)) : Prop :=
  ∀ entry ∈ trees.head?, entry.1 ≤ depth

/-- What is not below one depth is not below a greater one. -/
theorem Above.succ {depth : Nat} {trees : List (Nat × Node)} (h : Above depth trees) :
    Above (depth + 1) trees :=
  fun entry hentry => Nat.le_succ_of_le (h entry hentry)

/-- Neighbours are on one depth. -/
theorem Above.map_append {depth : Nat} {trees : List (Nat × Node)} (h : Above depth trees)
    (ns : List Node) : Above depth (ns.map (depth, ·) ++ trees) := by
  cases ns with
  | nil => exact h
  | cons n ns =>
    intro entry hentry
    obtain rfl := Option.some.inj hentry
    exact Nat.le_refl depth

/-- No such tree is a child of a node on that depth, which is where `gather` stops. -/
theorem Above.span {depth : Nat} {trees : List (Nat × Node)} (h : Above depth trees) :
    trees.takeWhile (fun entry => decide (depth < entry.1)) = [] ∧
      trees.dropWhile (fun entry => decide (depth < entry.1)) = trees := by
  cases trees with
  | nil => exact ⟨rfl, rfl⟩
  | cons entry trees =>
    have hle := h entry rfl
    have hshallow : ¬ decide (depth < entry.1) = true := by simpa using hle
    exact ⟨List.takeWhile_cons_of_neg hshallow, List.dropWhile_cons_of_neg hshallow⟩

/-- A node takes back its children, and nothing of what stands behind them: these are one level
deeper, those are `Above`. -/
theorem gather_head {depth : Nat} (n : Node) {trees : List (Nat × Node)} (h : Above depth trees) :
    gather (head (depth, n)) (n.children.map (depth + 1, ·) ++ trees) = (depth, n) :: trees := by
  -- Children stand one level deeper, and what was gathered before does not: the run ends between
  -- them.
  have hdeeper : ∀ entry ∈ n.children.map (depth + 1, ·),
      decide (depth < entry.1) = true := by
    intro entry hentry
    obtain ⟨m, -, rfl⟩ := List.mem_map.1 hentry
    exact decide_eq_true (Nat.lt_succ_self depth)
  obtain ⟨htaken, hdropped⟩ := h.span
  show (depth, Node.mk n.label n.type n.line (((n.children.map (depth + 1, ·) ++ trees).takeWhile
      fun entry => decide (depth < entry.1)).map Prod.snd)) ::
    (n.children.map (depth + 1, ·) ++ trees).dropWhile (fun entry => decide (depth < entry.1)) = _
  have hback : (n.children.map (depth + 1, ·)).map Prod.snd = n.children := by
    rw [List.map_map]
    exact List.map_id _
  rw [List.takeWhile_append_of_pos hdeeper, List.dropWhile_append_of_pos hdeeper, htaken,
    hdropped, List.append_nil, hback]
  cases n
  rfl

mutual

/-- From the last node of a walk to the first, the trees are put together again, by `gather_head`
at each node. -/
theorem foldr_gather_walk (depth : Nat) (n : Node) {trees : List (Nat × Node)}
    (h : Above depth trees) :
    ((n.walk depth).map head).foldr gather trees = (depth, n) :: trees := by
  cases n with
  | mk label type line children =>
    rw [walk, List.map_cons, List.foldr_cons, foldr_gather_walkAll (depth + 1) children h.succ]
    exact gather_head _ h

/-- Trees of one depth are gathered from their walk, whatever stands behind them at that depth or
above. The induction is mutual with `foldr_gather_walk`, over the trees and the trees in them. -/
theorem foldr_gather_walkAll (depth : Nat) (ns : List Node) {trees : List (Nat × Node)}
    (h : Above depth trees) :
    ((walkAll depth ns).map head).foldr gather trees = ns.map (depth, ·) ++ trees := by
  cases ns with
  | nil => rfl
  | cons n ns =>
    -- The neighbours are put together first, and are not below the tree in front of them.
    rw [walkAll, List.map_append, List.foldr_append, foldr_gather_walkAll depth ns h,
      foldr_gather_walk depth n (h.map_append ns)]
    rfl

end

/-! ### Whole trees -/

mutual

/-- All nodes of a readable tree have readable labels. -/
theorem Readable.walk {n : Node} (h : n.Readable) (depth : Nat) :
    ∀ entry ∈ n.walk depth, ReadableLabel entry.2.label := by
  cases n with
  | mk label type line children =>
    intro entry hentry
    rcases List.mem_cons.1 hentry with rfl | hentry
    · exact h.label
    · exact readable_walkAll h.children (depth + 1) entry hentry

/-- All nodes of a walk through readable trees have readable labels. -/
theorem readable_walkAll {ns : List Node} (h : ∀ n ∈ ns, n.Readable) (depth : Nat) :
    ∀ entry ∈ walkAll depth ns, ReadableLabel entry.2.label := by
  cases ns with
  | nil => simp [walkAll]
  | cons n ns =>
    obtain ⟨hnode, hnodes⟩ := List.forall_mem_cons.1 h
    intro entry hentry
    rcases List.mem_append.1 hentry with hentry | hentry
    · exact hnode.walk depth entry hentry
    · exact readable_walkAll hnodes depth entry hentry

end

/-- A tree from its text, if the text is one of a tree. -/
def ofPretty? (text : String) : Option Node :=
  match ((linesOf text.toList).filterMap readLine?).foldr gather [] with
  | [(_, n)] => some n
  | _ => none

/-- The text of a tree, as one `dumpLine` for each node of its `walk`. -/
theorem toList_pretty (n : Node) :
    n.pretty.toList = (n.walk 0).flatMap fun entry => entry.2.dumpLine entry.1 ++ ['\n'] := by
  rw [pretty, String.toList_join, List.flatMap_map]
  simp only [toList_indented]

/-- An empty line is that of no node: there is no type in it. -/
theorem readLine?_nil : readLine? [] = none := by
  have hname : DataType.ofName? (String.ofList []) = none := by decide
  unfold readLine?
  exact Option.map_eq_none_iff.2 hname

/-- The lines of some nodes are read back, by `readLine?_dumpLine`, and nothing stands behind the
last one. -/
theorem filterMap_readLine? (entries : List (Nat × Node))
    (h : ∀ entry ∈ entries, ReadableLabel entry.2.label) :
    (linesOf (entries.flatMap fun entry => entry.2.dumpLine entry.1 ++ ['\n'])).filterMap
      readLine? = entries.map head := by
  induction entries with
  | nil =>
    show [[]].filterMap readLine? = []
    rw [List.filterMap_cons, readLine?_nil]
    rfl
  | cons entry entries ih =>
    obtain ⟨hlabel, hlabels⟩ := List.forall_mem_cons.1 h
    rw [List.flatMap_cons, List.append_assoc, List.singleton_append,
      linesOf_line (newline_notMem_dumpLine hlabel entry.1), List.filterMap_cons,
      readLine?_dumpLine hlabel, ih hlabels]
    rfl

/-- What is read is the tree that was shown: `filterMap_readLine?` and then `foldr_gather_walk`.
-/
theorem ofPretty?_pretty {n : Node} (h : n.Readable) : ofPretty? n.pretty = some n := by
  have hwalk : ((n.walk 0).map head).foldr gather [] = [(0, n)] :=
    foldr_gather_walk 0 n (by simp [Above])
  rw [ofPretty?, toList_pretty, filterMap_readLine? _ (h.walk 0), hwalk]

end Node

end DrLang
