import DrLang.Proofs.Relabelling
import DrLang.Proofs.PrintedTrees
import DrLang.Proofs.Likeness.Surroundings
import DrLang.Proofs.Lockstep.Statement

/-!
# Parsing relabelled programs

Lines are copied from tokens to whatever is made of them, and names are compared with each other.
Nothing else is done with either: where each line is replaced by another one, and each name by
another one such that different names stay different, the tree, the symbols and the errors are
those of the program before, with the same replacements. So the layout of a program never changes
its meaning, and all that counts of names is which of them are equal.

- `Relabelling.Noted`: notes and the same notes relabelled, with a lemma for each silent action.
- `Relabelling.kinship`: a parse and the same parse relabelled.
- `parse_relabel`: whole programs.
-/

namespace DrLang

open Parse

namespace Relabelling

variable {r : Relabelling}

/-! ### What is noted -/

/-- Notes and the same notes relabelled. -/
def Noted (r : Relabelling) (n m : Notes) : Prop :=
  m = r.notes n ∧ n.symbols.Named

/-- The same error is reported on the new line, with its cause relabelled: `report_notes`. -/
theorem respects_report (line : Nat) {cause cause' : SemanticCause}
    (h : cause' = r.semanticCause cause) :
    Respects r.Noted (fun _ _ => True) (report line cause) (report (r.line line) cause') := by
  subst h
  rintro n _ ⟨rfl, hnamed⟩
  exact ⟨(), _, (), _, yields_report n line cause, yields_report _ _ _, trivial,
    report_notes n line cause, hnamed⟩

/-- A type that an expression may have, the same in both parses. -/
def SameValue (a b : DataType) : Prop :=
  a = b ∧ a ≠ .void

/-- A typing rule looks at types, which stay, so it has one `result`. The types that it gives are
not `void`. -/
theorem respects_typeOrReport (line : Nat) {type? : Option DataType} {cause : SemanticCause}
    {result : Except SemanticCause DataType}
    (hresult : result = match type? with
      | some type => .ok type
      | none => .error cause)
    (htype : type? ≠ some .void) (hcause : r.semanticCause cause = cause) :
    Respects r.Noted SameValue (typeOrReport line result) (typeOrReport (r.line line) result) := by
  subst hresult
  cases type? with
  | some type => exact respects_pure ⟨rfl, fun h => htype (congrArg some h)⟩
  | none =>
    exact (respects_report line hcause.symm).bind fun _ _ _ => respects_pure ⟨rfl, by decide⟩

theorem respects_reportViolation (line : Nat) (construct : String) (type : DataType) :
    Respects r.Noted (fun _ _ => True) (reportViolation line (Typing.condition construct type))
      (reportViolation (r.line line) (Typing.condition construct type)) := by
  rw [condition_eq]
  split
  · exact respects_pure trivial
  · exact respects_report line rfl

/-- A store is judged by types, and its error speaks of the new name. -/
theorem respects_checkStore? (site : StoreSite) (name : Token) (hkind : name.kind = .identifier)
    (target? : Option DataType) (source : DataType) :
    Respects r.Noted (fun _ _ => True) (checkStore? site name target? source)
      (checkStore? site (r.token name) target? source) := by
  cases target? with
  | none => exact respects_pure trivial
  | some target =>
    rw [checkStore?, checkStore?, checkStore, checkStore]
    split
    · exact respects_pure trivial
    · refine respects_report _ ?_
      rw [Relabelling.token, if_pos hkind, Relabelling.semanticCause]

/-- The entry point is the first on both sides or on none; `Relabelling.notes` has replaced the
line of the first. -/
theorem respects_noteEntryPoint (line : Nat) :
    Respects r.Noted (fun _ _ => True) (noteEntryPoint line) (noteEntryPoint (r.line line)) := by
  rintro n _ ⟨rfl, hnamed⟩
  have hentry : (r.notes n).entryPoint? = n.entryPoint?.map r.line := rfl
  cases h : n.entryPoint? with
  | none =>
    rw [h] at hentry
    exact ⟨(), _, (), _, yields_noteEntryPoint_of_none h, yields_noteEntryPoint_of_none hentry,
      trivial, rfl, hnamed⟩
  | some previous =>
    rw [h] at hentry
    exact ⟨(), _, (), _, yields_noteEntryPoint_of_some h, yields_noteEntryPoint_of_some hentry,
      trivial, report_notes n line (.entryPointRedefined previous), hnamed⟩

/-- Opening a frame, by `enter_notes`. -/
theorem respects_enterScope : Respects r.Noted (fun _ _ => True) enterScope enterScope := by
  rintro n _ ⟨rfl, hnamed⟩
  exact ⟨(), _, (), _, yields_enterScope n, yields_enterScope _, trivial, enter_notes n,
    hnamed.enter⟩

/-- Closing a frame, by `exit_notes`; the frames that are left are among those before, so they are
`Named`. -/
theorem respects_exitScope : Respects r.Noted (fun _ _ => True) exitScope exitScope := by
  rintro n _ ⟨rfl, hnamed⟩
  exact ⟨(), _, (), _, yields_exitScope n, yields_exitScope _, trivial, exit_notes n, hnamed.exit⟩

section Names

variable (hr : Set.InjOn r.name {text | IsName text})
include hr

/-- A name is bound on both sides or on none, by `lookup?_table`. -/
theorem respects_boundType? {name : String} (hname : IsName name) (line : Nat) :
    Respects r.Noted (fun a b => a = b ∧ a ≠ some .void) (boundType? name line)
      (boundType? (r.name name) (r.line line)) := by
  rintro n _ ⟨rfl, hnamed⟩
  have hlookup : (r.notes n).symbols.lookup? (r.name name) =
      (n.symbols.lookup? name).map r.symbol := lookup?_table hr hnamed hname
  cases h : n.symbols.lookup? name with
  | some symbol =>
    rw [h] at hlookup
    refine ⟨_, n, _, _, yields_boundType?_of_some h, yields_boundType?_of_some hlookup,
      ⟨rfl, ?_⟩, rfl, hnamed⟩
    -- No symbol of the table has the type `void`.
    exact fun heq => (hnamed.lookup? h).2 (Option.some.inj heq)
  | none =>
    rw [h] at hlookup
    exact ⟨none, _, none, _, yields_boundType?_of_none h, yields_boundType?_of_none hlookup,
      ⟨rfl, by simp⟩, report_notes n line (.undeclared name), hnamed⟩

/-- A name is new on both sides or on none, by `declare_table`. -/
theorem respects_bindName {symbol : Symbol} (hname : IsName symbol.name)
    (htype : symbol.type ≠ .void) :
    Respects r.Noted (fun _ _ => True) (bindName symbol) (bindName (r.symbol symbol)) := by
  rintro n _ ⟨rfl, hnamed⟩
  have hdeclare : (r.notes n).symbols.declare (r.symbol symbol) = _ :=
    declare_table hr hnamed hname
  cases h : n.symbols.declare symbol with
  | ok t =>
    rw [h] at hdeclare
    exact ⟨(), _, (), _, yields_bindName_of_ok h, yields_bindName_of_ok hdeclare, trivial, rfl,
      hnamed.declare ⟨hname, htype⟩ h⟩
  | error existing =>
    rw [h] at hdeclare
    exact ⟨(), _, (), _, yields_bindName_of_error h, yields_bindName_of_error hdeclare, trivial,
      report_notes n symbol.line (.redeclaration symbol.name existing.line), hnamed⟩

end Names

/-! ### Relabelling as kinship -/

/-- Of tokens that are no names, only `line` is replaced. -/
theorem token_of_ne {t : Token} (h : t.kind ≠ .identifier) :
    r.token t = { t with line := r.line t.line } := by
  rw [Relabelling.token, if_neg h]

theorem token_of_identifier {t : Token} (h : t.kind = .identifier) :
    r.token t = ⟨t.kind, r.name t.value, r.line t.line⟩ := by
  rw [Relabelling.token, if_pos h]

theorem node_mk (text : String) (type : DataType) (line : Nat) (ns : List Node) :
    r.node ⟨text, type, line, ns⟩ =
      ⟨r.label text type ns.isEmpty, type, r.line line, r.nodes ns⟩ := by
  rw [node]

/-- A leaf may be a name, so its label is replaced as one of a leaf: `isEmpty` is true of no
children. -/
theorem node_leaf (text : String) (type : DataType) (line : Nat) :
    r.node (.leaf text line type) = .leaf (r.label text type true) (r.line line) type := by
  rw [Node.leaf, node_mk, nodes]
  rfl

theorem node_group (text : String) (line : Nat) (ns : List Node) :
    r.node (.group text line ns) = .group text (r.line line) (r.nodes ns) := by
  rw [Node.group, node_mk, label_void]
  rfl

theorem node_line (n : Node) : (r.node n).line = r.line n.line := by
  obtain ⟨label, type, line, children⟩ := n
  rw [node]

/-- The leaf of an operator keeps its text, since it has no value. -/
theorem node_operator {t : Token} (h : t.kind ≠ .identifier) :
    r.node (.leaf t.value t.line .void) =
      .leaf (r.token t).value (r.token t).line .void := by
  rw [node_leaf, label_void, token_of_ne h]

/-- No row of `ofLiteral?` gives `void`, so a literal has a value. -/
theorem ne_void_of_literal {kind : TokenKind} {a : DataType}
    (h : DataType.ofLiteral? kind = some a) : a ≠ .void := by
  rintro rfl
  exact absurd (mem_of_ofLiteral? h) (by decide)

/-- No row of `ofKeyword?` gives `void`, so a variable has a value. -/
theorem ne_void_of_keyword {kind : TokenKind} {a : DataType}
    (h : DataType.ofKeyword? kind = some a) : a ≠ .void := by
  rintro rfl
  exact absurd (mem_of_ofKeyword? h) (by decide)

/-- No comparison operator is a name, so `token_of_ne` leaves its text; the same for other
operators below. -/
theorem ne_identifier_of_isRelational {kind : TokenKind} (h : kind.isRelational = true) :
    kind ≠ .identifier := by
  rintro rfl
  exact absurd h (by decide)

theorem ne_identifier_of_operator? {kind : TokenKind}
    (h : (Rules.standard.operator? kind).isSome = true) : kind ≠ .identifier := by
  rintro rfl
  exact absurd h (by decide)

theorem arithmeticType?_ne_void (operator : String) (left right : DataType) :
    arithmeticType? operator left right ≠ some .void := by
  unfold arithmeticType?
  split
  all_goals try split
  all_goals simp

theorem comparisonType?_ne_void (left right : DataType) :
    comparisonType? left right ≠ some .void := by
  unfold comparisonType?
  split
  all_goals try split
  all_goals simp

/-- Each token and each node is relabelled, and types stay what they are. -/
def kinship (hr : Set.InjOn r.name {text | IsName text}) : Kinship where
  token t u := t.Fits ∧ u = r.token t
  keyword t := t.kind ≠ .identifier
  node n m := m = r.node n
  type := SameValue
  type? a b := a = b ∧ a ≠ some .void
  notes := r.Noted
  kind_eq := by
    rintro t _ ⟨-, rfl⟩
    rfl
  keyword_of_kind hkind heq := by simp [heq] at hkind
  type_literal h := ⟨rfl, ne_void_of_literal h⟩
  type_keyword h := ⟨rfl, ne_void_of_keyword h⟩
  type_unknown := ⟨rfl, by decide⟩
  type?_some h := ⟨congrArg some h.1, fun heq => h.2 (Option.some.inj heq)⟩
  type_getD {a b} h := by
    obtain ⟨rfl, hne⟩ := h
    cases a with
    | none => exact ⟨rfl, by decide⟩
    | some a => exact ⟨rfl, fun heq => hne (congrArg some heq)⟩
  literal := by
    rintro t _ a ⟨hfits, rfl⟩ ha
    have hkind : t.kind ≠ .identifier := by
      intro heq
      simp [heq, DataType.ofLiteral?] at ha
    -- The text of a literal shows that it is none of the names.
    have hliteral := (literalType?_of_fits hfits ha).1
    rw [node_leaf, label_literal (by rw [hliteral]; rfl), token_of_ne hkind]
    rfl
  name := by
    rintro t _ a _ ⟨hfits, rfl⟩ hkind ⟨rfl, ha⟩
    have hname : IsName t.value := hfits.name hkind
    rw [node_leaf, label_name hname ha, token_of_identifier hkind]
  call := by
    rintro t _ ns ms ⟨-, rfl⟩ hkind hnodes
    rw [node_mk, label_call, token_of_identifier hkind, nodes_of_forall₂ r hnodes]
  attached := by
    rintro t _ ⟨-, rfl⟩ hkind
    rw [node_leaf, label_attached, token_of_identifier hkind]
  wrapped := by
    rintro label n _ a _ hlabel ⟨rfl, -⟩ rfl
    have hconstruct : label ∈ ["Paren", "Condition", "BinaryExpr"] := by
      revert label
      decide
    rw [node_mk, nodes, nodes, node_line]
    exact congrArg (Node.mk · _ _ _) (label_construct hconstruct a).symm
  compared := by
    rintro t _ n _ n' _ a _ ⟨-, rfl⟩ hkind ⟨rfl, -⟩ rfl rfl
    have hne := ne_identifier_of_isRelational hkind
    rw [node_mk, nodes, nodes, nodes, nodes, node_line, node_operator hne]
    exact congrArg (Node.mk · _ _ _) (label_construct (by decide) a).symm
  joined := by
    rintro t _ n _ n' _ a _ ⟨-, rfl⟩ hkind ⟨rfl, -⟩ rfl rfl
    have hne := ne_identifier_of_operator? hkind
    rw [node_mk, nodes, nodes, nodes, nodes, node_operator hne]
    exact congrArg (Node.mk · _ _ _) (label_construct (by decide) a).symm
  group := by
    rintro label t _ ns ms - ⟨-, rfl⟩ hnodes
    rw [node_group, nodes_of_forall₂ r hnodes]
    rfl
  bound := by
    rintro t _ ⟨hfits, rfl⟩ hkind
    rw [token_of_identifier hkind]
    exact respects_boundType? hr (hfits.name hkind) t.line
  arithmetic := by
    rintro t _ a _ a' _ ⟨-, rfl⟩ hkind ⟨rfl, -⟩ ⟨rfl, -⟩
    have hne := ne_identifier_of_operator? hkind
    rw [token_of_ne hne]
    exact respects_typeOrReport t.line (arithmetic_eq a a' t.value)
      (arithmeticType?_ne_void _ _ _) rfl
  relational := by
    rintro t _ a _ a' _ ⟨-, rfl⟩ hkind ⟨rfl, -⟩ ⟨rfl, -⟩
    have hne := ne_identifier_of_isRelational hkind
    rw [token_of_ne hne]
    exact respects_typeOrReport t.line (relational_eq a a' t.value)
      (comparisonType?_ne_void _ _) rfl
  binding := by
    rintro t _ kind a ⟨hfits, rfl⟩ hkind ha
    rw [token_of_identifier hkind]
    let symbol : Symbol := ⟨t.value, a, t.line⟩
    have hname : IsName symbol.name := hfits.name hkind
    exact respects_bindName hr hname (ne_void_of_keyword ha)
  store := by
    rintro t _ target? _ a _ site ⟨-, rfl⟩ hkind ⟨rfl, -⟩ ⟨rfl, -⟩
    exact respects_checkStore? site t hkind target? a
  violation := by
    rintro t _ n _ a _ ⟨-, rfl⟩ hkeyword rfl ⟨rfl, -⟩
    rw [token_of_ne hkeyword, node_line]
    exact respects_reportViolation n.line t.value a
  entryPoint := by
    rintro t _ ⟨-, rfl⟩
    exact respects_noteEntryPoint t.line
  enter := respects_enterScope
  exit := respects_exitScope

/-! ### Whole programs -/

/-- What a parse gives, relabelled. -/
def result (r : Relabelling) : Except FatalError Node → Except FatalError Node
  | .ok tree => .ok (r.tree tree)
  | .error e => .error (r.fatalError e)

theorem tree_program (ns : List Node) :
    r.tree (.group "Program" 0 ns) = .group "Program" 0 (r.nodes ns) := by
  rw [tree, node_group]
  rfl

theorem respects_parsed (count : Nat) :
    Respects r.Noted (fun _ _ => True)
      (do record (.parsed count (← get).diagnostics.length))
      (do record (.parsed count (← get).diagnostics.length)) := by
  rintro n _ ⟨rfl, hnamed⟩
  refine ⟨(), n.record (.parsed count n.diagnostics.length), (),
    (r.notes n).record (.parsed count (r.notes n).diagnostics.length), fun _ => rfl, fun _ => rfl,
    trivial, ?_, hnamed⟩
  simp [Relabelling.notes, Notes.record, Relabelling.event]

/-- A parse and the relabelled one begin abreast: the tokens are relabelled one by one, and
nothing is noted yet. `EndsOnce` keeps `Cursor.closed` from adding a token of its own. -/
theorem abreast_start (hr : Set.InjOn r.name {text | IsName text}) {tokens : List Token}
    (hends : EndsOnce tokens) (hfits : ∀ t ∈ tokens, t.Fits) :
    Abreast (kinship hr) (.start tokens) (.start (tokens.map r.token)) := by
  have hkinds : kindsOf (tokens.map r.token) = kindsOf tokens := by
    rw [kindsOf, kindsOf, List.map_map]
    rfl
  refine ⟨?_, rfl, SymbolTable.allLive_empty _⟩
  rw [hends.tokens_start, (hends.of_kindsOf_eq hkinds).tokens_start]
  exact List.forall₂_map_right_iff.2 (List.forall₂_same.2 fun t ht => ⟨hfits t ht, rfl⟩)

/-- Two states that are abreast are a state and the same one relabelled, which is all that the
theorem asks for. -/
theorem eq_parser_of_abreast {hr : Set.InjOn r.name {text | IsName text}} {s t : Parser}
    (h : Abreast (kinship hr) s t) : t = r.parser s := by
  have htokens : t.cursor.tokens = s.cursor.tokens.map r.token := by
    have hall := h.tokens
    generalize s.cursor.tokens = ts, t.cursor.tokens = us at hall
    induction hall with
    | nil => rfl
    | cons htoken _ ih => rw [List.map_cons, ← ih, htoken.2]
  have hcursor : t.cursor = r.cursor s.cursor := by
    obtain ⟨hcurrent, hrest⟩ := List.cons.inj htokens
    exact congrArg₂ Cursor.mk hcurrent hrest
  have hnotes : t.notes = r.notes s.notes := h.notes.1
  rw [parser, ← hcursor, ← hnotes]
  rfl

end Relabelling

/-- **Parsing commutes with relabelling**: where each line of a token list is replaced by another
one, and each name by another one such that different names stay different, so is everything that
a parse gives. -/
theorem parse_relabel {source : String} {tokens : List Token} (h : tokenize source = .ok tokens)
    (r : Relabelling) (hr : Set.InjOn r.name {text | IsName text}) :
    parse (tokens.map r.token) = (r.result (parse tokens).1, r.parser (parse tokens).2) := by
  have hends := (wellFormed_of_tokenize h).endsOnce
  have habreast := Relabelling.abreast_start hr hends (fits_of_tokenize h)
  obtain ⟨houtcome, hbehind⟩ := Lockstep.program Relabelling.respects_parsed habreast
  have hparser := Relabelling.eq_parser_of_abreast hbehind
  refine Prod.ext ?_ hparser
  -- The states are settled. Of the results, both are trees or both are errors.
  rw [parse, parse]
  generalize ((program .standard).runFrom (.start tokens)).1 = result,
    ((program .standard).runFrom (.start (tokens.map r.token))).1 = result' at houtcome
  cases houtcome with
  | ok hnodes =>
    obtain ⟨ns, ms, hnodes, rfl, rfl⟩ := hnodes
    rw [Relabelling.nodes_of_forall₂ r hnodes, Relabelling.result, Relabelling.tree_program]
  | error expected htoken =>
    obtain ⟨-, rfl⟩ := htoken
    rfl

/-- Two names that change places, on lines that are counted backwards. -/
def Relabelling.swapped : Relabelling where
  line n := 9 - n
  name := Equiv.swap "a" "b"

/-- The same errors, of the other name and in the order in which they were. -/
theorem parse_swapped :
    Set.InjOn Relabelling.swapped.name {text | IsName text} ∧
    ∃ tokens s t, tokenize "file a = b(a);\nnote a = b;\nSHOW a b" = .ok tokens ∧
      parse tokens = (.error ⟨3, .unexpected (.token .semicolon) .identifier "b"⟩, s) ∧
      s.diagnostics = [⟨1, .undeclared "b"⟩, ⟨2, .redeclaration "a" 1⟩, ⟨2, .undeclared "b"⟩] ∧
      parse (tokens.map Relabelling.swapped.token) =
        (.error ⟨6, .unexpected (.token .semicolon) .identifier "a"⟩, t) ∧
      t.diagnostics = [⟨8, .undeclared "a"⟩, ⟨7, .redeclaration "b" 8⟩, ⟨7, .undeclared "a"⟩] := by
  have hinj : Set.InjOn Relabelling.swapped.name {text | IsName text} :=
    (Equiv.swap "a" "b").injective.injOn
  have hrun : (tokenize "file a = b(a);\nnote a = b;\nSHOW a b").map (fun tokens =>
      ((match (parse tokens).1 with
        | .ok _ => none
        | .error e => some e), (parse tokens).2.diagnostics)) =
      .ok (some ⟨3, .unexpected (.token .semicolon) .identifier "b"⟩,
        [⟨1, .undeclared "b"⟩, ⟨2, .redeclaration "a" 1⟩, ⟨2, .undeclared "b"⟩]) := by
    decide +kernel
  obtain ⟨tokens, htokens, hfound⟩ := exists_eq_ok_of_map hrun
  obtain ⟨hfailure, hdiagnostics⟩ := Prod.mk.inj hfound
  have hswapped := parse_relabel htokens Relabelling.swapped hinj
  rcases hparse : parse tokens with ⟨e | tree, s⟩
  · simp only [hparse] at hdiagnostics hfailure hswapped
    obtain rfl := Option.some.inj hfailure
    refine ⟨hinj, tokens, s, Relabelling.swapped.parser s, htokens, hparse, hdiagnostics, ?_, ?_⟩
    · rw [hswapped]
      rfl
    · have hmapped : (Relabelling.swapped.parser s).diagnostics =
          s.diagnostics.map Relabelling.swapped.semanticError := rfl
      rw [hmapped, hdiagnostics]
      decide +kernel
  · simp [hparse] at hfailure

end DrLang
