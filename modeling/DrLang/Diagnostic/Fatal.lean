import DrLang.Token
import DrLang.Text.Quoted

/-!
# Fatal errors

An error that ends a compilation: a character that begins no token, or a token that
the grammar does not allow where it stands. There is no recovery from either.

- `Expectation`: what was required in place of the token that was found.
- `FatalError`: the cause and the line, with its message and, for some causes, a tip.
- `exists_eq_ok_of_map`: a phase did not fail if an image of its result is known.
-/

namespace DrLang

/-! ### Expectations -/

/-- What a production required where it met the wrong token. -/
inductive Expectation where
  | token (kind : TokenKind)
  | statement
  | expression
  | declaration
  /-- How a statement may go on after the identifier that begins it. -/
  | assignmentOrCall
deriving DecidableEq, Repr, Inhabited

/-- The wording of an expectation. -/
def Expectation.text : Expectation → String
  | token kind => kind.name
  | statement => "statement"
  | expression => "expression"
  | declaration => "declaration"
  | assignmentOrCall => "assignment, increment, or call"

instance : ToString Expectation := ⟨Expectation.text⟩

/-! ### Causes -/

/-- Why a compilation cannot go on. -/
inductive FatalCause where
  /-- No token begins with this text. -/
  | unrecognised (text : String)
  /-- The grammar wants something else than the token found. -/
  | unexpected (expected : Expectation) (found : TokenKind) (value : String)
deriving DecidableEq, Repr, Inhabited

namespace FatalCause

/-- The name of a cause. -/
def name : FatalCause → String
  | unrecognised _ => "UnrecognisedToken"
  | unexpected _ _ _ => "UnexpectedToken"

/-- The phase of a compilation in which a cause arises. -/
def phase : FatalCause → String
  | unrecognised _ => "Lexical"
  | unexpected _ _ _ => "Syntax"

/-- What was required, where the grammar was concerned. -/
def expected? : FatalCause → Option Expectation
  | unrecognised _ => none
  | unexpected expected _ _ => some expected

/-- The class of the token found, where there was a token. -/
def found? : FatalCause → Option TokenKind
  | unrecognised _ => none
  | unexpected _ found _ => some found

/-- The text that the cause is about. -/
def value : FatalCause → String
  | unrecognised text => text
  | unexpected _ _ value => value

/-- The wording of a cause. -/
def message : FatalCause → String
  | unrecognised text => "unexpected token " ++ Text.quoted text
  | unexpected expected found value =>
    "expected " ++ expected.text ++ " but found " ++ found.name ++
      " (" ++ Text.quoted value ++ ")"

/-- A hint at the likely mistake, for the causes that have one. -/
def tip? : FatalCause → Option String
  | unrecognised text => some ("`" ++ text ++ "` is not part of the DR alphabet")
  | unexpected (.token .semicolon) _ value =>
    some ("Unexpected token: `" ++ value ++ "`, did you miss a semicolon?")
  | unexpected .statement _ _ =>
    some "statements start with a type, an identifier, or a keyword such as CHECK or SHOW"
  | unexpected _ _ _ => none

end FatalCause

/-! ### Errors -/

/-- A cause and the line on which it was met. -/
structure FatalError where
  line : Nat
  cause : FatalCause
deriving DecidableEq, Repr, Inhabited

namespace FatalError

/-- The error at a token that stands where something else is required. -/
def atToken (expected : Expectation) (token : Token) : FatalError where
  line := token.line
  cause := .unexpected expected token.kind token.value

/-- The cause under the name of its phase, without the line. -/
def headline (e : FatalError) : String :=
  e.cause.phase ++ " error: " ++ e.cause.message

instance : ToString FatalError :=
  ⟨fun e => e.cause.phase ++ " error at line " ++ toString e.line ++ ": " ++ e.cause.message⟩

end FatalError

/-! ### Phases that succeed -/

/-- A phase did not fail if an image of its result is known. Neither `Compilation` nor `Parser` has
decidable equality, so runs on given sources are decided by such images. -/
theorem exists_eq_ok_of_map {α β : Type} {result : Except FatalError α} {f : α → β} {b : β}
    (h : result.map f = .ok b) : ∃ a, result = .ok a ∧ f a = b := by
  cases result with
  | error e => exact absurd h nofun
  | ok a => exact ⟨a, rfl, Except.ok.inj h⟩

end DrLang
