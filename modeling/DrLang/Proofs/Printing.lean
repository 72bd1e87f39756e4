import DrLang.Proofs.Ensures
import DrLang.Proofs.Reading

/-!
# Trees as token lists

A tree can be printed as the tokens that it was made of. The printer has labels, the types
that declarations give to their names, and the order of the parts to go by, but no lines and
no other types. What it cannot tell is whether a dollar sign stood before an equals sign, since
trees do not say so.

- `Node.sketch`: a tree without its lines and its types.
- `Printing.expression`, `Printing.statement`: the tokens of a tree.
- `Printing.program`: those of a whole program.
- `Takes`: what a parse takes off the front between two states.
-/

namespace DrLang

/-! ### Trees without lines -/

mutual

/-- A tree with its lines erased. -/
def Node.unlined : Node → Node
  | ⟨label, type, _, children⟩ => ⟨label, type, 0, Node.unlinedAll children⟩

/-- Trees with their lines erased. -/
def Node.unlinedAll : List Node → List Node
  | [] => []
  | n :: ns => n.unlined :: Node.unlinedAll ns

end

namespace Node

/-- The lines are taken from trees one by one. -/
theorem unlinedAll_eq_map (ns : List Node) : unlinedAll ns = ns.map unlined := by
  induction ns with
  | nil => rfl
  | cons n ns ih => rw [unlinedAll, ih, List.map_cons]

/-- A tree without its lines, and without its types but for those that declarations give. -/
def sketch (n : Node) : Outline :=
  n.unlined.outline

@[simp] theorem sketch_leaf (label : String) (line : Nat) (type : DataType) :
    (leaf label line type).sketch = ⟨label, none, 0, []⟩ := rfl

/-- The sketch of any node but a declaration has neither lines nor types. -/
theorem sketch_mk {label : String} (h : label ≠ "Declaration") (type : DataType) (line : Nat)
    (children : List Node) :
    (Node.mk label type line children).sketch = ⟨label, none, 0, children.map sketch⟩ := by
  rw [sketch, unlined, outline_mk h, unlinedAll_eq_map, List.map_map]
  rfl

/-- The sketch of a declaration has one type, the declared one; that is what its keyword is
printed from. -/
theorem sketch_declaration (line : Nat) (name : String) (nameLine : Nat) (type : DataType)
    (values : List Node) :
    (group "Declaration" line (leaf name nameLine type :: values)).sketch =
      ⟨"Declaration", none, 0, ⟨name, some type, 0, []⟩ :: values.map sketch⟩ := by
  rw [sketch, group, unlined, unlinedAll, outline_declaration, unlinedAll_eq_map, List.map_map]
  rfl

end Node

/-! ### Spellings -/

/-- A token without its line. -/
abbrev Spelling := TokenKind × String

/-- The class and the text of a token. -/
def Token.spelling (t : Token) : Spelling :=
  (t.kind, t.value)

/-- Tokens without their lines, the dollar signs left out. -/
def spellingsOf (tokens : List Token) : List Spelling :=
  (tokens.filter (·.kind ≠ .dollar)).map Token.spelling

/-- The class with a single text, if there is one. -/
def TokenKind.ofFixedText? (text : String) : Option TokenKind :=
  all.find? fun kind => kind.fixedText? = some text

/-- The token that has this text as the only one of its class. -/
def fixed (text : String) : Spelling :=
  ((TokenKind.ofFixedText? text).getD .eof, text)

/-- Different classes have different fixed texts, so a text tells its class. -/
theorem ofFixedText?_of_fixedText? : ∀ kind ∈ TokenKind.all, ∀ text ∈ kind.fixedText?,
    TokenKind.ofFixedText? text = some kind := by
  decide

namespace Token

/-- A token of a class with one text has this text. -/
theorem fixedText?_of_spelled {t : Token} (ht : t.Spelled) (h : t.kind.fixedText?.isSome) :
    t.kind.fixedText? = some t.value := by
  obtain ⟨kind, value, line⟩ := t
  cases kind <;> first | exact ht | simp [TokenKind.fixedText?] at h

/-- A token of a class with a single text is told by that text. -/
theorem spelling_eq_fixed {t : Token} (ht : t.Spelled) {text : String}
    (h : t.kind.fixedText? = some text) : t.spelling = fixed text := by
  obtain rfl : t.value = text := by
    rw [fixedText?_of_spelled ht (by rw [h]; rfl)] at h
    exact Option.some.inj h
  rw [spelling, fixed, ofFixedText?_of_fixedText? _ (TokenKind.mem_all _) _ h]
  rfl

end Token

/-! ### The printer -/

namespace Printing

/-- A literal or a name, which its label tells apart. -/
def operand (label : String) : Spelling :=
  match literalType? label with
  | some .int => (.integer, label)
  | some .double => (.double, label)
  | some .string => (.string, String.ofList label.toList.tail.dropLast)
  | some .bool => (.boolean, label)
  | _ => (.identifier, label)

mutual

/-- An expression. Its form shows in its label if it is a call, and else in the number of its
parts. -/
def expression : Outline → List Spelling
  | ⟨label, _, _, children⟩ =>
    match calleeOf? label, children with
    | some callee, arguments =>
      (.identifier, callee) :: fixed "(" :: (expressions arguments ++ [fixed ")"])
    | none, [] => [operand label]
    | none, [inner] => fixed "(" :: (expression inner ++ [fixed ")"])
    | none, [left, operator, right] =>
      expression left ++ fixed operator.label :: expression right
    | none, _ => []

/-- Expressions with commas between them. -/
def expressions : List Outline → List Spelling
  | [] => []
  | o :: os => expression o ++ furtherExpressions os

/-- Expressions with a comma before each of them. -/
def furtherExpressions : List Outline → List Spelling
  | [] => []
  | o :: os => fixed "," :: (expression o ++ furtherExpressions os)

end

/-- An expression or a comparison of two. -/
def condition : Outline → List Spelling
  | ⟨_, _, _, [operand]⟩ => expression operand
  | ⟨_, _, _, [left, operator, right]⟩ =>
    expression left ++ fixed operator.label :: expression right
  | _ => []

/-- A declaration, with its initial value if it has one. -/
def declaration : Outline → List Spelling
  | ⟨_, _, _, name :: values⟩ =>
    fixed (name.declared?.getD .unknown).name :: (.identifier, name.label) ::
      (values.flatMap (fun value => fixed "=" :: expression value) ++ [fixed ";"])
  | ⟨_, _, _, []⟩ => []

/-- An assignment, a step or a call, without what closes it. -/
def simple : Outline → List Spelling
  | ⟨label, declared?, line, children⟩ =>
    match statementShape label, children with
    | .assignment, [name, value] => (.identifier, name.label) :: fixed "=" :: expression value
    | .step, [name] =>
      [(.identifier, name.label), fixed (if label = "Increment" then "++" else "--")]
    | _, children => expression ⟨label, declared?, line, children⟩

mutual

/-- A statement. -/
def statement : Outline → List Spelling
  | ⟨label, declared?, line, children⟩ =>
    match statementShape label, children with
    | .attach, [name] =>
      [fixed "#ATTACH", (.identifier, String.ofList (name.label.toList.drop "#ATTACH ".length))]
    | .plan, [body] =>
      fixed "plan" :: fixed "MORNING_COFFEE" :: fixed "(" :: fixed ")" :: block body
    | .declaration, children => declaration ⟨label, declared?, line, children⟩
    | .gated construct, decision :: bodies =>
      fixed construct :: fixed "(" :: (condition decision ++ fixed ")" :: branches bodies)
    | .counted, [counter, decision, update, body] =>
      fixed "CHECKLIST" :: fixed "(" :: (declaration counter ++ condition decision ++
        fixed ";" :: (simple update ++ fixed ")" :: block body))
    | .output, [value] =>
      fixed (if label = "OUTPUT" then "SHOW" else "SUBMIT") :: (expression value ++ [fixed ";"])
    | .block, children => fixed "\x7b" :: (statements children ++ [fixed "\x7d"])
    | _, children => simple ⟨label, declared?, line, children⟩ ++ [fixed ";"]

/-- Statements in braces. -/
def block : Outline → List Spelling
  | ⟨_, _, _, children⟩ => fixed "\x7b" :: (statements children ++ [fixed "\x7d"])

/-- A block, and the one of the alternative if there is one. -/
def branches : List Outline → List Spelling
  | [] => []
  | [body] => block body
  | body :: alternative :: _ => block body ++ fixed "REJECT" :: block alternative

/-- Statements, one after the other. -/
def statements : List Outline → List Spelling
  | [] => []
  | o :: os => statement o ++ statements os

end

/-- A whole program. -/
def program : Outline → List Spelling
  | ⟨_, _, _, children⟩ => statements children

/-! ### The printer, by the form of a tree -/

section Forms

variable {label : String} {o left operator right : Outline} {os : List Outline}

theorem expression_leaf (h : calleeOf? label = none) :
    expression ⟨label, none, 0, []⟩ = [operand label] := by
  rw [expression.eq_def]
  simp only [h]

/-- A call is printed with its parentheses and commas. -/
theorem expression_call (callee : String) :
    expression ⟨"Call " ++ callee, none, 0, os⟩ =
      (.identifier, callee) :: fixed "(" :: (expressions os ++ [fixed ")"]) := by
  rw [expression.eq_def]
  simp only [calleeOf?_call]

/-- A comma stands in front of all arguments but the first, so `os` has to have one. -/
theorem expressions_cons (h : os ≠ []) :
    expressions (o :: os) = expression o ++ fixed "," :: expressions os := by
  cases os with
  | nil => exact absurd rfl h
  | cons => rfl

theorem expression_grouping :
    expression ⟨"Paren", none, 0, [o]⟩ = fixed "(" :: (expression o ++ [fixed ")"]) := rfl

theorem expression_binary :
    expression ⟨"BinaryExpr", none, 0, [left, operator, right]⟩ =
      expression left ++ fixed operator.label :: expression right := rfl

/-- The text of a literal shows which token it is. -/
theorem operand_literalLabel {t : Token} (ht : t.Spelled) {type : DataType}
    (htype : DataType.ofLiteral? t.kind = some type) : operand (literalLabel t) = t.spelling := by
  obtain ⟨hliteral, -⟩ := literalType?_of_fits ht.fits htype
  obtain ⟨kind, value, line⟩ := t
  cases kind with
  | integer | double | boolean =>
    obtain rfl := Option.some.inj htype
    simp only [operand, hliteral]
    rfl
  | string =>
    obtain rfl := Option.some.inj htype
    have hlabel : (literalLabel ⟨.string, value, line⟩).toList =
        '"' :: (value.toList ++ ['"']) := by
      rw [literalLabel, if_pos rfl, String.toList_append, String.toList_append]
      rfl
    simp only [operand, hliteral, hlabel, List.tail_cons, List.dropLast_concat,
      String.ofList_toList]
    rfl
  | _ => simp [DataType.ofLiteral?] at htype

/-- A name shows no literal, by `literalType?`, so it is printed as a name. -/
theorem operand_identifier {t : Token} (ht : t.Spelled) (hkind : t.kind = .identifier) :
    operand t.value = (.identifier, t.value) := by
  simp only [operand, (literalType?_of_identifier ht.fits hkind).1]

end Forms

end Printing

/-! ### Tokens taken off the front -/

@[simp] theorem spellingsOf_append (ts us : List Token) :
    spellingsOf (ts ++ us) = spellingsOf ts ++ spellingsOf us := by
  rw [spellingsOf, List.filter_append, List.map_append]
  rfl

/-- A state with the end of the input ahead, and spelled tokens before it. -/
structure Parser.Legible (s : Parser) : Prop where
  ends : s.cursor.tokens.getLast?.map Token.kind = some .eof
  spelled : ∀ t ∈ s.cursor.tokens, t.Spelled

/-- The current token is one of those ahead; `Parser.Legible` is used through this. -/
theorem Parser.Legible.current {s : Parser} (hs : s.Legible) : s.cursor.current.Spelled :=
  hs.spelled _ List.mem_cons_self

/-- From one state to another, tokens with these spellings are taken. -/
def Takes (s s' : Parser) (w : List Spelling) : Prop :=
  ∃ used, s.cursor.tokens = used ++ s'.cursor.tokens ∧ spellingsOf used = w

namespace Takes

variable {s s' s'' : Parser} {v w : List Spelling}

theorem refl (s : Parser) : Takes s s [] := ⟨[], rfl, rfl⟩

/-- Where the cursor does not move, nothing is taken. -/
theorem of_cursor_eq (h : s'.cursor = s.cursor) : Takes s s' [] := ⟨[], by rw [h]; rfl, rfl⟩

/-- Tokens of two steps in turn, one behind the other. -/
theorem trans (h : Takes s s' v) (h' : Takes s' s'' w) : Takes s s'' (v ++ w) := by
  obtain ⟨used, heq, rfl⟩ := h
  obtain ⟨used', heq', rfl⟩ := h'
  exact ⟨used ++ used', by rw [heq, heq', List.append_assoc], spellingsOf_append used used'⟩

/-- Dollar signs are taken and not spelled, so they may be left out behind a piece. -/
theorem trans_nil (h : Takes s s' w) (h' : Takes s' s'' []) : Takes s s'' w := by
  simpa using h.trans h'

/-- Where something is taken, fewer tokens are left. -/
theorem remaining_le (h : Takes s s' w) : s'.cursor.remaining + w.length ≤ s.cursor.remaining := by
  obtain ⟨used, heq, rfl⟩ := h
  have hremaining := Ready.remaining_of_append heq
  have hlength : (spellingsOf used).length ≤ used.length := by
    rw [spellingsOf, List.length_map]
    exact List.length_filter_le _ _
  omega

/-- The tokens that are left are those that were ahead, up to the end of the input. -/
theorem legible (h : Takes s s' w) (hs : s.Legible) : s'.Legible := by
  obtain ⟨used, heq, -⟩ := h
  have hready : Ready (s.cursor.remaining + 1) s := ⟨hs.ends, Nat.lt_succ_self _⟩
  refine ⟨hready.ends_of_append heq, fun t ht => hs.spelled t ?_⟩
  rw [heq]
  exact List.mem_append_right used ht

end Takes

section Steps

open Parse

variable {α : Type} {p : Parse α} {s : Parser} {kind : TokenKind}

theorem Parse.Silent.ensures_stays (hp : Silent p) :
    Ensures p s fun _ s' => s'.cursor = s.cursor := by
  obtain ⟨a, n', -, hyields⟩ := hp.yields s
  exact hyields.ensures rfl

/-- Naming and typing take no token: by `Silent.yields`, the cursor stays. -/
theorem Parse.Silent.ensures_takes (hp : Silent p) : Ensures p s fun _ s' => Takes s s' [] :=
  hp.ensures_stays.imp fun _ _ => .of_cursor_eq

/-- Any token but the last one can be taken. -/
theorem ensures_take (hs : s.Legible) (hkind : s.cursor.current.kind ≠ .eof) :
    Ensures advance s fun t s' => t = s.cursor.current ∧ Takes s s' (spellingsOf [t]) := by
  have hready : Ready (s.cursor.remaining + 1) s := ⟨hs.ends, Nat.lt_succ_self _⟩
  intro t s' hrun
  obtain ⟨hok, rfl⟩ := Prod.mk.inj hrun
  obtain rfl := Except.ok.inj hok
  exact ⟨rfl, [s.cursor.current], hready.tokens_eq hkind, rfl⟩

/-- Any token but a dollar sign is spelled. -/
theorem spellingsOf_singleton {t : Token} (h : t.kind ≠ .dollar) :
    spellingsOf [t] = [t.spelling] := by
  simp [spellingsOf, h]

/-- A token whose class has a single text. -/
theorem ensures_takeFixed (hs : s.Legible) {text : String}
    (htext : s.cursor.current.kind.fixedText? = some text)
    (hkind : s.cursor.current.kind ∉ [.eof, .dollar]) :
    Ensures advance s fun t s' => t = s.cursor.current ∧ Takes s s' [fixed text] := by
  have hne : s.cursor.current.kind ≠ .eof ∧ s.cursor.current.kind ≠ .dollar := by
    simpa using hkind
  refine (ensures_take hs hne.1).imp fun t s' h => ?_
  obtain ⟨rfl, htakes⟩ := h
  rw [spellingsOf_singleton hne.2, Token.spelling_eq_fixed hs.current htext] at htakes
  exact ⟨rfl, htakes⟩

/-- A token that must be there, and whose class has a single text. -/
theorem ensures_expectFixed (text : String) (hs : s.Legible) (htext : kind.fixedText? = some text)
    (hkind : kind ∉ [.eof, .dollar]) :
    Ensures (expect kind) s fun _ s' => Takes s s' [fixed text] := by
  by_cases h : s.cursor.current.kind = kind
  · have htake := ensures_takeFixed hs (h ▸ htext) (h ▸ hkind)
    refine Ensures.congr ?_ (htake.imp fun _ _ h => h.2)
    rw [runFrom_expect, if_pos h, runFrom_advance]
  · intro t s' hrun
    rw [runFrom_expect, if_neg h] at hrun
    simp at hrun

/-- A name. -/
theorem ensures_takeName (hs : s.Legible) (hkind : s.cursor.current.kind = .identifier) :
    Ensures advance s fun t s' => t = s.cursor.current ∧ Takes s s' [(.identifier, t.value)] := by
  refine (ensures_take hs (by simp [hkind])).imp fun t s' h => ?_
  obtain ⟨rfl, htakes⟩ := h
  rw [spellingsOf_singleton (by simp [hkind]), Token.spelling, hkind] at htakes
  exact ⟨rfl, htakes⟩

/-- A name that must be there. -/
theorem ensures_expectName (hs : s.Legible) :
    Ensures (expect .identifier) s fun t s' =>
      (t.Spelled ∧ t.kind = .identifier) ∧ Takes s s' [(.identifier, t.value)] := by
  by_cases h : s.cursor.current.kind = .identifier
  · have htake := ensures_takeName hs h
    refine Ensures.congr ?_ (htake.imp fun t s' htakes => ?_)
    · rw [runFrom_expect, if_pos h, runFrom_advance]
    · obtain ⟨rfl, htakes⟩ := htakes
      exact ⟨⟨hs.current, h⟩, htakes⟩
  · intro t s' hrun
    rw [runFrom_expect, if_neg h] at hrun
    simp at hrun

end Steps

end DrLang
