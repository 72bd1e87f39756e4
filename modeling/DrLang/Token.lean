/-!
# Tokens of the DR language

DR is a small instructional language: four type keywords (`file`, `duration`,
`note`, `status`), statements led by office words (`CHECK`, `REWORK`, `SHOW`,
...) and a single entry point, `plan MORNING_COFFEE()`.

- `TokenKind`: the classes of tokens, with the name each is shown under.
- `Token`: a class together with its text and the line it starts on.
- `reservedWords`: the words that are never identifiers.
-/

namespace DrLang

/-! ### Token classes -/

/-- The class of a token. Words of the language carry the word itself as their
name here; the name they are shown under is `TokenKind.name`. -/
inductive TokenKind where
  /-- End of the input; closes every token list. -/
  | eof
  /-- A name that is not a reserved word. -/
  | identifier
  /-- A text literal. -/
  | string
  /-- A whole-number literal. -/
  | integer
  /-- A literal with a decimal point. -/
  | double
  /-- One of the words for truth and falsehood. -/
  | boolean
  | openCurly
  | closeCurly
  | openParen
  | closeParen
  | assignment
  | equals
  | notEquals
  | less
  | lessEquals
  | greater
  | greaterEquals
  | semicolon
  | comma
  | dollar
  | plusPlus
  | minusMinus
  | plus
  | dash
  | slash
  | star
  | plan
  | morningCoffee
  /-- The word `SHOW`. -/
  | output
  /-- The word `RECEIVE`, reserved but part of no statement. -/
  | input
  | check
  | reject
  | rework
  | checklist
  | submit
  /-- The word `OFFICE`, reserved but part of no statement. -/
  | office
  /-- The word `#ATTACH`. -/
  | attach
  | file
  | duration
  | note
  | status
deriving DecidableEq, Repr, Inhabited

namespace TokenKind

/-- The name a class is shown under in messages and listings. -/
def name : TokenKind → String
  | eof => "EOF"
  | identifier => "Identifier"
  | string => "String"
  | integer => "Integer"
  | double => "Double"
  | boolean => "Boolean"
  | openCurly => "OpenCurly"
  | closeCurly => "CloseCurly"
  | openParen => "OpenParen"
  | closeParen => "CloseParen"
  | assignment => "Assignment"
  | equals => "Equals"
  | notEquals => "NotEquals"
  | less => "Less"
  | lessEquals => "LessEquals"
  | greater => "Greater"
  | greaterEquals => "GreaterEquals"
  | semicolon => "Semicolon"
  | comma => "Comma"
  | dollar => "Dollar"
  | plusPlus => "PlusPlus"
  | minusMinus => "MinusMinus"
  | plus => "Plus"
  | dash => "Dash"
  | slash => "Slash"
  | star => "Star"
  | plan => "Plan"
  | morningCoffee => "Main"
  | output => "Output"
  | input => "Input"
  | check => "If"
  | reject => "Else"
  | rework => "While"
  | checklist => "For"
  | submit => "Return"
  | office => "Namespace"
  | attach => "Include"
  | file => "File"
  | duration => "Duration"
  | note => "Note"
  | status => "Status"

instance : ToString TokenKind := ⟨name⟩

/-- All classes, each once. -/
def all : List TokenKind :=
  [eof, identifier, string, integer, double, boolean, openCurly, closeCurly, openParen,
    closeParen, assignment, equals, notEquals, less, lessEquals, greater, greaterEquals,
    semicolon, comma, dollar, plusPlus, minusMinus, plus, dash, slash, star, plan,
    morningCoffee, output, input, check, reject, rework, checklist, submit, office, attach,
    file, duration, note, status]

theorem mem_all (k : TokenKind) : k ∈ all := by cases k <;> decide

/-- The class shown under `text`, if there is one. -/
def ofName? (text : String) : Option TokenKind :=
  all.find? fun k => k.name == text

/-- Whether a class is one of the four words that begin a declaration. -/
def isTypeKeyword : TokenKind → Bool
  | file | duration | note | status => true
  | _ => false

/-- Whether a class is one of the six comparison operators. -/
def isRelational : TokenKind → Bool
  | equals | notEquals | less | lessEquals | greater | greaterEquals => true
  | _ => false

/-- Whether a short listing shows the text of tokens of this class: literals and
identifiers do, all other classes are told by their name alone. -/
def showsText : TokenKind → Bool
  | string | identifier | integer | double | boolean => true
  | _ => false

end TokenKind

/-! ### Tokens -/

/-- A token: its class, its text (a text literal without its quotes) and the
line, counted from one, on which it starts. -/
structure Token where
  kind : TokenKind
  value : String
  line : Nat
deriving DecidableEq, Repr, Inhabited

namespace Token

instance : ToString Token :=
  ⟨fun t => t.kind.name ++ " (" ++ t.value ++ ") at line " ++ toString t.line⟩

/-- The short form of a token, without its line. -/
def summary (t : Token) : String :=
  t.kind.name ++ " (" ++ (if t.kind.showsText then t.value else "") ++ ")"

/-- The token that closes a list ending on line `line`. -/
def endOfInput (line : Nat) : Token where
  kind := .eof
  value := "EOF"
  line := line

@[simp] theorem endOfInput_kind (line : Nat) : (endOfInput line).kind = .eof := rfl

@[simp] theorem endOfInput_line (line : Nat) : (endOfInput line).line = line := rfl

end Token

/-! ### Reserved words -/

/-- The words that look like identifiers but have a class of their own. Case
matters, and only the whole word counts. -/
def reservedWords : List (String × TokenKind) :=
  [("plan", .plan), ("MORNING_COFFEE", .morningCoffee), ("SHOW", .output), ("RECEIVE", .input),
    ("CHECK", .check), ("REJECT", .reject), ("REWORK", .rework), ("CHECKLIST", .checklist),
    ("SUBMIT", .submit), ("OFFICE", .office), ("file", .file), ("duration", .duration),
    ("note", .note), ("status", .status), ("true", .boolean), ("false", .boolean)]

/-- The class of the reserved word `word`, if it is one. -/
def reserved? (word : String) : Option TokenKind :=
  reservedWords.lookup word

/-- The class of a word: its own if it is reserved, else that of identifiers. -/
def wordKind (word : String) : TokenKind :=
  (reserved? word).getD .identifier

end DrLang
