import DrLang.Token.Pattern
import DrLang.Token.Reader
import DrLang.Diagnostic.Fatal

/-!
# From source text to tokens

The source is read lexeme by lexeme, each time with the first pattern that matches,
until it is used up or nothing matches. The tokens read before a failure are kept,
since the log tells of them.

- `Scanner`: a reader together with the current line.
- `Scanner.next?`: the pattern and the lexeme at a position.
- `Scan`: the tokens that were read, and the error that stopped the reading, if any.
- `tokenize`: the tokens of a source text, or the error.
-/

namespace DrLang

/-- A position in a source text, with the line it is on. -/
structure Scanner where
  reader : Reader
  line : Nat
deriving DecidableEq, Repr, Inhabited

namespace Scanner

/-- The start of a source text. -/
def start (source : List Char) : Scanner where
  reader := .ofText source
  line := 1

/-- The position behind a lexeme of a pattern. -/
def behind (s : Scanner) (p : Pattern) (lexeme : List Char) : Scanner where
  reader := s.reader.advance (p.stride lexeme)
  line := s.line + p.lineFeeds lexeme

/-- The pattern that matches at a position, with its lexeme. -/
def next? (s : Scanner) : Option (Pattern × List Char) :=
  s.reader.remainder?.bind firstLexeme?

/-- The error at a position where no pattern matches: it blames one character. -/
def failure (s : Scanner) : FatalError where
  line := s.line
  cause := .unrecognised (String.ofList (s.reader.text.take 1))

end Scanner

/-- The outcome of reading a source text. -/
structure Scan where
  tokens : List Token
  failure? : Option FatalError
deriving DecidableEq, Repr, Inhabited

namespace Scan

/-- A scan with more tokens in front. -/
def prepend (front : List Token) (s : Scan) : Scan where
  tokens := front ++ s.tokens
  failure? := s.failure?

/-- The scan of a used-up text: the closing token alone. -/
def finished (line : Nat) : Scan where
  tokens := [.endOfInput line]
  failure? := none

/-- The scan from a position, over at most `bound` lexemes. The number of bytes that
are left is bound enough, since no lexeme is empty. -/
def within : Nat → Scanner → Scan
  | 0, s => finished s.line
  | bound + 1, s =>
    if s.reader.atEnd then finished s.line
    else
      match s.next? with
      | none => ⟨[], some s.failure⟩
      | some (p, lexeme) =>
        (within bound (s.behind p lexeme)).prepend (p.token? lexeme s.line).toList

end Scan

/-- The scan of a source text. -/
def scan (source : String) : Scan :=
  Scan.within (byteLength source.toList) (.start source.toList)

/-- The tokens of a source text, closed by the end of input, or the error at the first
place where no token can be read. -/
def tokenize (source : String) : Except FatalError (List Token) :=
  match scan source with
  | ⟨tokens, none⟩ => .ok tokens
  | ⟨_, some e⟩ => .error e

end DrLang
