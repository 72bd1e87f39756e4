import DrLang.Cli.Listing
import DrLang.Cli.Document
import DrLang.Source.Excerpt

/-!
# What the command line answers

The texts that a request writes, and the status it ends with: 0 for a clean
compilation, 1 for one with semantic errors and for a source that cannot be read, 2 for
a fatal error and for arguments that make no sense.

- `ReadFailure`: why a source could not be read.
- `Answer`: the texts and the status.
- `Settings.answer`: the answer of a compilation.
-/

namespace DrLang.Cli

/-! ### Sources -/

/-- Why a source could not be read. -/
inductive ReadFailure where
  | notFound
  | isDirectory
  /-- Something inside a file was asked for. -/
  | notDirectory
  /-- The path, or a name in it, has too many bytes. -/
  | nameTooLong
  /-- The bytes are not UTF-8. -/
  | notText
  | other (reason : String)
deriving DecidableEq, Repr, Inhabited

/-- The wording of a failure, as the system has it. -/
def ReadFailure.message : ReadFailure → String
  | notFound => "No such file or directory (os error 2)"
  | isDirectory => "Is a directory (os error 21)"
  | notDirectory => "Not a directory (os error 20)"
  | nameTooLong => "File name too long (os error 36)"
  | notText => "stream did not contain valid UTF-8"
  | other reason => reason

/-- The text of a source that was read as bytes. -/
def decode (bytes : ByteArray) : Except ReadFailure String :=
  match String.fromUTF8? bytes with
  | some text => .ok text
  | none => .error .notText

/-- The name under which a source is shown. -/
def sourceName (input? : Option String) : String :=
  input?.getD "<stdin>"

/-- What cannot be read, in the words of a failure. -/
def sourcePhrase (input? : Option String) : String :=
  input?.getD "source from stdin"

/-! ### Answers -/

/-- What is written, and the status at the end. -/
structure Answer where
  exit : UInt8
  stdout : String
  stderr : String
deriving DecidableEq, Repr, Inhabited

/-- The answer when a source could not be read. -/
def ReadFailure.answer (input? : Option String) (failure : ReadFailure) : Answer where
  exit := 1
  stdout := ""
  stderr := "Error: failed to read " ++ sourcePhrase input? ++ "\n\nCaused by:\n    " ++
    failure.message ++ "\n"

namespace Settings

/-- The answer of a compilation that was not stopped. -/
def success (s : Settings) (c : Compilation) : Answer where
  exit := if c.isClean then 0 else 1
  stdout :=
    match s.format with
    | .json => c.document.pretty ++ "\n"
    | .text => listing s.sections c
  stderr := ""

/-- The answer of a compilation that a fatal error stopped. As JSON the error is a
result like any other; as text it goes to the error stream. -/
def failure (s : Settings) (source : String) (e : FatalError) : Answer :=
  match s.format with
  | .json => ⟨2, e.document.pretty ++ "\n", ""⟩
  | .text => ⟨2, "", e.excerpt source (sourceName s.input?)⟩

/-- The answer of a compilation, from what reading its source gave. -/
def answer (s : Settings) (input : Except ReadFailure String) : Answer :=
  match input with
  | .error failure => failure.answer s.input?
  | .ok source =>
    match compile source with
    | .ok c => s.success c
    | .error e => s.failure source e

end Settings

/-- The name and the version of the program. -/
def versionText : String :=
  "drc 0.1.0\n"

/-- How to use the program. -/
def usageText : String :=
  "Usage: drc [--format text|json] [--emit tokens,tree,symbols,errors] [-v]... [INPUT]\n"

/-- The answer of a request. The source is asked for only when there is one to compile,
by its path, or by none for standard input. -/
def Request.answer {m : Type → Type} [Monad m] (request : Request)
    (readSource : Option String → m (Except ReadFailure String)) : m Answer :=
  match request with
  | .misuse => pure ⟨2, "", usageText⟩
  | .help => pure ⟨0, usageText, ""⟩
  | .version => pure ⟨0, versionText, ""⟩
  | .compile settings => do
    return settings.answer (← readSource settings.input?)

end DrLang.Cli
