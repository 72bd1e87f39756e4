import DrLang.Token
import DrLang.Token.Reader

/-!
# Patterns of lexemes

The kinds of text that DR source is made of. A pattern says how much of the text at
hand belongs to it and which token, if any, that lexeme stands for.

- `Pattern.lexeme?`: the lexeme of a pattern at the start of a text.
- `Pattern.token?`: the token of a lexeme; blanks, line breaks and comments have none.
- `Pattern.stride`, `Pattern.lineFeeds`: how far a lexeme moves a scan, in bytes and in lines.
- `patterns`: all patterns, in the order in which they are tried.
- `firstLexeme?`: the first pattern that matches, with its lexeme.
-/

namespace DrLang

/-! ### Classes of characters -/

/-- Whether a character begins a word: an ASCII letter or an underscore. -/
def isWordStart (c : Char) : Bool :=
  c.isAlpha || c == '_'

/-- Whether a character continues a word. -/
def isWordPart (c : Char) : Bool :=
  isWordStart c || c.isDigit

/-- Whether a character is skipped between tokens; line breaks are counted, and so
are a pattern of their own. -/
def isGap (c : Char) : Bool :=
  c == ' ' || c == '\t' || c == '\r'

/-! ### Lexemes -/

/-- A class of lexemes. -/
inductive Pattern where
  /-- A letter or underscore, then letters, underscores and digits. -/
  | word
  /-- Digits, a point and digits. -/
  | decimal
  /-- Digits. -/
  | digits
  /-- Spaces, tabs and carriage returns. -/
  | gap
  /-- One line feed. -/
  | lineBreak
  /-- Two double quotes and what is between them, line breaks included. -/
  | quote
  /-- Two slashes and the rest of the line. -/
  | comment
  /-- A fixed text. -/
  | fixed (text : String) (kind : TokenKind)
deriving DecidableEq, Repr, Inhabited

/-- The longest start of a text whose characters all satisfy `p`, unless it is empty. -/
def run? (p : Char → Bool) (text : List Char) : Option (List Char) :=
  match text.takeWhile p with
  | [] => none
  | lexeme => some lexeme

namespace Pattern

/-- A word at the start of a text. -/
def word? : List Char → Option (List Char)
  | [] => none
  | c :: cs => if isWordStart c then some (c :: cs.takeWhile isWordPart) else none

/-- A number with a decimal point at the start of a text. -/
def decimal? (text : List Char) : Option (List Char) :=
  match run? Char.isDigit text, text.dropWhile Char.isDigit with
  | some whole, '.' :: rest =>
    match run? Char.isDigit rest with
    | some fraction => some (whole ++ '.' :: fraction)
    | none => none
  | _, _ => none

/-- A text literal at the start of a text. -/
def quote? : List Char → Option (List Char)
  | '"' :: rest =>
    match rest.dropWhile (· != '"') with
    | '"' :: _ => some ('"' :: (rest.takeWhile (· != '"') ++ ['"']))
    | _ => none
  | _ => none

/-- A comment at the start of a text. -/
def comment? : List Char → Option (List Char)
  | '/' :: '/' :: rest => some ('/' :: '/' :: rest.takeWhile (· != '\n'))
  | _ => none

/-- The lexeme of a pattern at the start of a text, as long as the pattern allows. -/
def lexeme? : Pattern → List Char → Option (List Char)
  | word, text => word? text
  | decimal, text => decimal? text
  | digits, text => run? Char.isDigit text
  | gap, text => run? isGap text
  | lineBreak, text => if text.head? = some '\n' then some ['\n'] else none
  | quote, text => quote? text
  | comment, text => comment? text
  | fixed literal _, text => if literal.toList.isPrefixOf text then some literal.toList else none

/-- What stands between the quotes of a text literal, which take a byte each. -/
def contents? (lexeme : List Char) : Option (List Char) :=
  byteSlice? 1 (byteLength lexeme - 1) lexeme

/-- The token that a lexeme of a pattern stands for, if it starts on line `line`. -/
def token? (p : Pattern) (lexeme : List Char) (line : Nat) : Option Token :=
  match p with
  | word => some ⟨wordKind (String.ofList lexeme), String.ofList lexeme, line⟩
  | decimal => some ⟨.double, String.ofList lexeme, line⟩
  | digits => some ⟨.integer, String.ofList lexeme, line⟩
  | gap | lineBreak | comment => none
  | quote => (contents? lexeme).map fun contents => ⟨.string, String.ofList contents, line⟩
  | fixed literal kind => some ⟨kind, literal, line⟩

/-- The number of bytes by which a lexeme of a pattern moves a scan: a fixed text goes by its
own length, and not by that of the lexeme. -/
def stride (p : Pattern) (lexeme : List Char) : Nat :=
  match p with
  | fixed literal _ => byteLength literal.toList
  | _ => byteLength lexeme

/-- The number of lines by which a lexeme of a pattern moves a scan. Only line breaks and text
literals are looked at. -/
def lineFeeds (p : Pattern) (lexeme : List Char) : Nat :=
  match p with
  | lineBreak => 1
  | quote => ((contents? lexeme).getD []).count '\n'
  | _ => 0

/-- Between its quotes, a text literal is whole. -/
@[simp] theorem contents?_quoted (contents : List Char) :
    contents? ('"' :: (contents ++ ['"'])) = some contents := by
  have hlength : byteLength ('"' :: (contents ++ ['"'])) - 1 =
      byteLength ['"'] + byteLength contents := by
    have hquote : '"'.utf8Size = 1 := rfl
    simp only [byteLength_cons, byteLength_append, byteLength_nil, hquote]
    omega
  rw [contents?, hlength]
  exact byteSlice?_append ['"'] contents ['"']

end Pattern

/-! ### The table -/

/-- All patterns, in the order in which they are tried: a text of two characters
stands before the texts of one that begin it, and a comment before a slash. -/
def patterns : List Pattern :=
  [.word, .fixed "#ATTACH" .attach, .decimal, .digits, .gap, .lineBreak, .quote, .comment,
    .fixed "++" .plusPlus, .fixed "--" .minusMinus, .fixed "<=" .lessEquals,
    .fixed ">=" .greaterEquals, .fixed "==" .equals, .fixed "!=" .notEquals,
    .fixed "(" .openParen, .fixed ")" .closeParen, .fixed "\x7b" .openCurly,
    .fixed "\x7d" .closeCurly, .fixed ";" .semicolon, .fixed "," .comma, .fixed "$" .dollar,
    .fixed "=" .assignment, .fixed "<" .less, .fixed ">" .greater, .fixed "+" .plus,
    .fixed "-" .dash, .fixed "*" .star, .fixed "/" .slash]

/-- The first pattern of the table with a lexeme at the start of a text, and that
lexeme. -/
def firstLexeme? (text : List Char) : Option (Pattern × List Char) :=
  patterns.findSome? fun p => (p.lexeme? text).map (p, ·)

/-! ### Lexemes are parts of the text -/

/-- The fixed text of a pattern that has one. -/
def Pattern.literal? : Pattern → Option String
  | fixed literal _ => some literal
  | _ => none

/-- No fixed text of the table is empty. -/
theorem Pattern.literal?_ne_empty : ∀ p ∈ patterns, p.literal? ≠ some "" := by decide

theorem run?_eq_some_iff {p : Char → Bool} {text lexeme : List Char} :
    run? p text = some lexeme ↔ lexeme = text.takeWhile p ∧ lexeme ≠ [] := by
  unfold run?
  split <;> grind

theorem run?_begins {p : Char → Bool} {text lexeme : List Char}
    (h : run? p text = some lexeme) : lexeme <+: text ∧ lexeme ≠ [] := by
  obtain ⟨rfl, hne⟩ := run?_eq_some_iff.1 h
  exact ⟨List.takeWhile_prefix p, hne⟩

/-- The number before the point and the number after it, with the point between them,
begin the text. -/
theorem Pattern.decimal?_begins {text lexeme : List Char} (h : decimal? text = some lexeme) :
    lexeme <+: text ∧ lexeme ≠ [] := by
  unfold decimal? at h
  split at h
  case h_1 whole rest hwhole hrest =>
    split at h
    case h_1 fraction hfraction =>
      obtain ⟨rfl, -⟩ := run?_eq_some_iff.1 hwhole
      obtain ⟨tail, htail⟩ := (run?_begins hfraction).1
      obtain rfl := Option.some.inj h
      refine ⟨⟨tail, ?_⟩, by simp⟩
      rw [List.append_assoc, List.cons_append, htail, ← hrest, List.takeWhile_append_dropWhile]
    case h_2 => simp at h
  case h_2 => simp at h

/-- A text literal begins the text. -/
theorem Pattern.quote?_begins {text lexeme : List Char} (h : quote? text = some lexeme) :
    lexeme <+: text ∧ lexeme ≠ [] := by
  unfold quote? at h
  split at h
  case h_1 rest =>
    split at h
    case h_1 tail htail =>
      obtain rfl := Option.some.inj h
      refine ⟨⟨tail, ?_⟩, by simp⟩
      rw [List.cons_append, List.append_assoc, List.singleton_append, ← htail,
        List.takeWhile_append_dropWhile]
    case h_2 => simp at h
  case h_2 => simp at h

end DrLang
