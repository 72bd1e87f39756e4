import DrLang.Proofs.Labels
import DrLang.Proofs.LiveSymbols
import DrLang.Proofs.Silent
import DrLang.Diagnostic.Fatal

/-!
# Relabelled programs

The lines of a program and its names may be replaced by others, in its tokens and in all that is
made of them. Where a name stands in a tree is told by the labels around it.

- `Relabelling`: a replacement of lines and names, with what it makes of tokens, symbols, errors,
  events and trees.
- `Relabelling.label_name`, `Relabelling.label_call`, `Relabelling.label_attached`: the labels
  that have a name in them.
- `Relabelling.find?_frame`, `Relabelling.lookup?_table`, `Relabelling.declare_table`: a
  relabelled symbol table.
-/

namespace DrLang

open Parse

/-- A text that may be a name: a word that is not reserved. -/
def IsName (text : String) : Prop :=
  text.toList ∈ Pattern.word.language ∧ ∀ kind, (text, kind) ∉ reservedWords

/-- The name in the label of an attachment. -/
def attachedOf? (label : String) : Option String :=
  match label.toList with
  | '#' :: 'A' :: 'T' :: 'T' :: 'A' :: 'C' :: 'H' :: ' ' :: name => some (String.ofList name)
  | _ => none

/-- A line for each line, and a name for each name. -/
structure Relabelling where
  line : Nat → Nat
  name : String → String

namespace Relabelling

variable (r : Relabelling)

/-! ### Tokens, symbols and errors -/

/-- A token has its line replaced, and its text if that is a name. -/
def token (t : Token) : Token where
  kind := t.kind
  value := if t.kind = .identifier then r.name t.value else t.value
  line := r.line t.line

/-- A symbol has its name and its line replaced, and keeps its type. -/
def symbol (s : Symbol) : Symbol where
  name := r.name s.name
  type := s.type
  line := r.line s.line

/-- A table is relabelled frame by frame; what was declared is relabelled as well. -/
def table (t : SymbolTable) : SymbolTable where
  innermost := t.innermost.map r.symbol
  outer := t.outer.map (List.map r.symbol)
  declared := t.declared.map r.symbol

/-- A broken rule speaks of names and of earlier lines. -/
def semanticCause : SemanticCause → SemanticCause
  | .redeclaration name previousLine => .redeclaration (r.name name) (r.line previousLine)
  | .undeclared name => .undeclared (r.name name)
  | .typeMismatch site name expected found => .typeMismatch site (r.name name) expected found
  | .entryPointRedefined previousLine => .entryPointRedefined (r.line previousLine)
  | .nonBooleanCondition construct found => .nonBooleanCondition construct found
  | .arithmeticOperands left operator right => .arithmeticOperands left operator right
  | .relationalOperands left operator right => .relationalOperands left operator right

/-- An error has the line it is reported on replaced, and what its `cause` speaks of. -/
def semanticError (e : SemanticError) : SemanticError where
  line := r.line e.line
  cause := r.semanticCause e.cause

/-- What was found is a name only where it is a token of that class. -/
def fatalCause : FatalCause → FatalCause
  | .unrecognised text => .unrecognised text
  | .unexpected expected found value =>
    .unexpected expected found (if found = .identifier then r.name value else value)

/-- A fatal error has its line replaced, and the text of the token it blames. -/
def fatalError (e : FatalError) : FatalError where
  line := r.line e.line
  cause := r.fatalCause e.cause

/-- An event speaks of tokens and errors; counts and depths are not replaced. -/
def event : Event → Event
  | .tokenRead t => .tokenRead (r.token t)
  | .reported error => .reported (r.semanticError error)
  | .tokenized count => .tokenized count
  | .scopeEntered depth => .scopeEntered depth
  | .scopeExited depth => .scopeExited depth
  | .globalScopeKept => .globalScopeKept
  | .parsed statements errors => .parsed statements errors

/-- All that is noted is relabelled, each part by its own replacement. -/
def notes (n : Notes) : Notes where
  symbols := r.table n.symbols
  diagnostics := n.diagnostics.map r.semanticError
  entryPoint? := n.entryPoint?.map r.line
  log := n.log.map r.event

/-- A cursor is relabelled token by token, and stands at the same place. -/
def cursor (c : Cursor) : Cursor where
  current := r.token c.current
  rest := c.rest.map r.token

/-- A state is relabelled in its notes and in the tokens ahead. -/
def parser (s : Parser) : Parser :=
  (r.notes s.notes).at (r.cursor s.cursor)

/-! ### Trees -/

/-- The label of a node. Nodes without a value are labelled with the words of constructs and
operators, and literals with their texts. A call and an attachment have a name in their label, and
of the others the leaves are names. -/
def label (label : String) (type : DataType) (isLeaf : Bool) : String :=
  if type = .void ∨ (literalType? label).isSome then label
  else
    match calleeOf? label, attachedOf? label with
    | some callee, _ => "Call " ++ r.name callee
    | none, some target => "#ATTACH " ++ r.name target
    | none, none => if isLeaf then r.name label else label

mutual

/-- A tree has its lines replaced, and the names in its labels by `Relabelling.label`, which asks
whether a node is a leaf. -/
def node : Node → Node
  | ⟨label, type, line, children⟩ =>
    ⟨r.label label type children.isEmpty, type, r.line line, nodes children⟩

/-- Each tree of a list is relabelled by `node`. -/
def nodes : List Node → List Node
  | [] => []
  | n :: ns => node n :: nodes ns

end

/-- The root of a whole tree comes from no token, and keeps its line. -/
def tree (n : Node) : Node :=
  { r.node n with line := n.line }

/-- Trees that are relabelled one by one are relabelled as a list. -/
theorem nodes_of_forall₂ {ns ms : List Node} (h : List.Forall₂ (fun n m => m = r.node n) ns ms) :
    ms = r.nodes ns := by
  induction h with
  | nil => rfl
  | cons hnode _ ih => rw [nodes, hnode, ih]

end Relabelling

/-! ### Labels -/

section Labels

variable {label : String}

theorem attachedOf?_attach (name : String) : attachedOf? ("#ATTACH " ++ name) = some name := by
  have hlabel : ("#ATTACH " ++ name).toList =
      '#' :: 'A' :: 'T' :: 'T' :: 'A' :: 'C' :: 'H' :: ' ' :: name.toList := by
    rw [String.toList_append]
    rfl
  simp [attachedOf?, hlabel]

/-- No attachment is labelled with a text that begins otherwise. -/
theorem attachedOf?_of_head {c : Char} {v : List Char} (h : label.toList = c :: v) (hc : c ≠ '#') :
    attachedOf? label = none := by
  unfold attachedOf?
  split
  case h_1 name heq =>
    rw [h] at heq
    exact absurd (List.cons.inj heq).1 hc
  case h_2 => rfl

/-- A label that begins as no literal does shows none: the tests of `literalType?` on the first
character, and two words. -/
theorem literalType?_of_head {c : Char} {v : List Char} (h : label.toList = c :: v)
    (hc : c ≠ '"' ∧ c ≠ 't' ∧ c ≠ 'f' ∧ ¬ c.isDigit = true) : literalType? label = none := by
  have htrue : label ≠ "true" := by
    rintro rfl
    exact hc.2.1 (List.cons.inj h).1.symm
  have hfalse : label ≠ "false" := by
    rintro rfl
    exact hc.2.2.1 (List.cons.inj h).1.symm
  simp [literalType?, h, hc, htrue, hfalse]

/-- `Token.Fits` says of a name what `IsName` says of its text. -/
theorem Token.Fits.name {t : Token} (h : t.Fits) (hkind : t.kind = .identifier) :
    IsName t.value := by
  obtain ⟨kind, value, line⟩ := t
  obtain rfl : kind = .identifier := hkind
  exact h

/-- A name shows no literal, no call and no attachment, so it is replaced as the whole label. -/
theorem IsName.labels (h : IsName label) :
    literalType? label = none ∧ calleeOf? label = none ∧ attachedOf? label = none := by
  have hfits : (⟨.identifier, label, 0⟩ : Token).Fits := h
  obtain ⟨hliteral, hcallee⟩ := literalType?_of_identifier hfits rfl
  obtain ⟨c, v, hlabel, hc, -⟩ := Pattern.mem_word.1 h.1
  refine ⟨hliteral, hcallee, attachedOf?_of_head hlabel ?_⟩
  rintro rfl
  exact absurd hc (by decide)

end Labels

namespace Relabelling

section Label

variable {r : Relabelling} {type : DataType} {text : String}

/-- Words of constructs and operators stay: their nodes have type `void`. -/
theorem label_void (isLeaf : Bool) : r.label text .void isLeaf = text :=
  if_pos (.inl rfl)

theorem label_literal (h : (literalType? text).isSome = true) (isLeaf : Bool) :
    r.label text type isLeaf = text :=
  if_pos (.inr h)

/-- A leaf with a value that shows no literal is a name: `IsName.labels` excludes the other
branches of `Relabelling.label`. -/
theorem label_name (h : IsName text) (htype : type ≠ .void) :
    r.label text type true = r.name text := by
  obtain ⟨hliteral, hcallee, hattached⟩ := h.labels
  simp [Relabelling.label, htype, hliteral, hcallee, hattached]

theorem label_call (name : String) (isLeaf : Bool) :
    r.label ("Call " ++ name) .unknown isLeaf = "Call " ++ r.name name := by
  have hlabel : ("Call " ++ name).toList = 'C' :: ("all ".toList ++ name.toList) := by
    rw [String.toList_append]
    rfl
  have hliteral : literalType? ("Call " ++ name) = none :=
    literalType?_of_head hlabel (by decide)
  simp [Relabelling.label, hliteral]

theorem label_attached (name : String) (isLeaf : Bool) :
    r.label ("#ATTACH " ++ name) .attachment isLeaf = "#ATTACH " ++ r.name name := by
  have hlabel : ("#ATTACH " ++ name).toList = '#' :: ("ATTACH ".toList ++ name.toList) := by
    rw [String.toList_append]
    rfl
  have hliteral : literalType? ("#ATTACH " ++ name) = none :=
    literalType?_of_head hlabel (by decide)
  have hcallee : calleeOf? ("#ATTACH " ++ name) = none := calleeOf?_of_head hlabel (by decide)
  simp [Relabelling.label, hliteral, hcallee, attachedOf?_attach]

/-- The other expressions with parts are labelled with their constructs. -/
theorem label_construct (h : text ∈ ["Paren", "Condition", "BinaryExpr"]) (type : DataType) :
    r.label text type false = text := by
  have hnone : ∀ text ∈ ["Paren", "Condition", "BinaryExpr"],
      calleeOf? text = none ∧ attachedOf? text = none := by decide
  obtain ⟨hcallee, hattached⟩ := hnone text h
  simp [Relabelling.label, hcallee, hattached]

end Label

end Relabelling

/-! ### Symbol tables -/

/-- The names in the open frames are names, and stand for something that has a value. -/
def SymbolTable.Named (t : SymbolTable) : Prop :=
  t.AllLive fun symbol => IsName symbol.name ∧ symbol.type ≠ .void

namespace Relabelling

variable {r : Relabelling}

section Tables

variable (hr : Set.InjOn r.name {text | IsName text})
include hr

/-- Different names stay different, so a name is found where it was found before. -/
theorem find?_frame {frame : Frame} {name : String}
    (hframe : ∀ symbol ∈ frame, IsName symbol.name) (hname : IsName name) :
    Frame.find? (frame.map r.symbol) (r.name name) = (frame.find? name).map r.symbol := by
  rw [Frame.find?, Frame.find?, List.find?_map]
  refine congrArg (Option.map r.symbol) ?_
  -- Each symbol is the one looked for before exactly if it is afterwards.
  induction frame with
  | nil => rfl
  | cons symbol frame ih =>
    have heq : ((r.symbol symbol).name == r.name name) = (symbol.name == name) := by
      rw [Bool.eq_iff_iff, beq_iff_eq, beq_iff_eq]
      exact hr.eq_iff (hframe symbol List.mem_cons_self) hname
    rw [List.find?_cons, List.find?_cons, ih fun s hs => hframe s (List.mem_cons_of_mem _ hs),
      Function.comp_apply, heq]

/-- A relabelled table answers for the new name what the table answered for the old one. That
different names stay different is needed here: otherwise another binding could be found first. -/
theorem lookup?_table {t : SymbolTable} (ht : t.Named) {name : String} (hname : IsName name) :
    (r.table t).lookup? (r.name name) = (t.lookup? name).map r.symbol := by
  have hframes : (r.table t).frames = t.frames.map (List.map r.symbol) := rfl
  rw [SymbolTable.lookup?, SymbolTable.lookup?, hframes]
  rw [SymbolTable.Named, SymbolTable.AllLive] at ht
  generalize t.frames = frames at ht
  induction frames with
  | nil => rfl
  | cons frame frames ih =>
    have hfind := find?_frame hr (fun s hs => (ht frame List.mem_cons_self s hs).1) hname
    rw [List.map_cons, List.findSome?_cons, List.findSome?_cons, hfind]
    cases frame.find? name with
    | some symbol => rfl
    | none => exact ih fun f hf => ht f (List.mem_cons_of_mem _ hf)

/-- A relabelled table accepts the symbols that the table accepted, relabelled. -/
theorem declare_table {t : SymbolTable} (ht : t.Named) {symbol : Symbol}
    (hname : IsName symbol.name) :
    (r.table t).declare (r.symbol symbol) =
      match t.declare symbol with
      | .ok t' => .ok (r.table t')
      | .error existing => .error (r.symbol existing) := by
  -- The renaming is one-to-one on the names of the table, so a frame finds the same entry.
  have hfind : (r.table t).innermost.find? (r.symbol symbol).name =
      (t.innermost.find? symbol.name).map r.symbol :=
    find?_frame hr (fun s hs => (ht _ List.mem_cons_self s hs).1) hname
  cases h : t.innermost.find? symbol.name with
  | some existing =>
    rw [h] at hfind
    rw [SymbolTable.declare_of_some h, SymbolTable.declare_of_some hfind]
  | none =>
    rw [h] at hfind
    rw [SymbolTable.declare_of_none h, SymbolTable.declare_of_none hfind]
    simp [Relabelling.table]

end Tables

theorem enter_notes (n : Notes) : (r.notes n).enter = r.notes n.enter := by
  simp [Relabelling.notes, Notes.enter, Relabelling.table, SymbolTable.enter,
    SymbolTable.enterEvent, SymbolTable.depth, Relabelling.event]

/-- Closing a frame commutes with a relabelling, also where `exit` keeps the global one. -/
theorem exit_notes (n : Notes) : (r.notes n).exit = r.notes n.exit := by
  obtain ⟨⟨innermost, outer, declared⟩, diagnostics, entryPoint?, log⟩ := n
  cases outer <;>
    simp [Relabelling.notes, Notes.exit, Relabelling.table, SymbolTable.exit,
      SymbolTable.exitEvent, SymbolTable.depth, Relabelling.event]

theorem report_notes (n : Notes) (line : Nat) (cause : SemanticCause) :
    (r.notes n).report (r.line line) (r.semanticCause cause) =
      r.notes (n.report line cause) := by
  simp [Relabelling.notes, Notes.report, Relabelling.semanticError, Relabelling.event]

end Relabelling

end DrLang
