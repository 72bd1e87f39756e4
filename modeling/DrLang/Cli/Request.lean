/-!
# Requests on the command line

What a list of command-line arguments asks for. Arguments are read from left to right,
and the first one that settles the request, or is at fault, decides it.

- `Settings`: what to compile, and how to show the result.
- `Request.ofArguments`: the request that a list of arguments makes.
-/

namespace DrLang.Cli

/-! ### Settings -/

/-- How a result is shown. -/
inductive OutputFormat where
  | text
  | json
deriving DecidableEq, Repr, Inhabited

/-- The format of a given name. -/
def OutputFormat.ofName? : String → Option OutputFormat
  | "text" => some text
  | "json" => some json
  | _ => none

/-- A part of a result that is shown as text. -/
inductive Section where
  | tokens
  | tree
  | symbols
  | errors
deriving DecidableEq, Repr, Inhabited

namespace Section

/-- All sections, in the order in which they are shown. -/
def all : List Section :=
  [tokens, tree, symbols, errors]

/-- The section of a given name. -/
def ofName? : String → Option Section
  | "tokens" => some tokens
  | "tree" => some tree
  | "symbols" => some symbols
  | "errors" => some errors
  | _ => none

end Section

/-- What to compile, and how to show the result. -/
structure Settings where
  /-- The file to compile; without one, standard input is. -/
  input? : Option String
  /-- The format asked for. -/
  format? : Option OutputFormat
  /-- The sections asked for. -/
  emit : List Section
  /-- How often more talk was asked for. -/
  verbosity : Nat
deriving DecidableEq, Repr, Inhabited

namespace Settings

/-- The settings before any argument is read. -/
def initial : Settings where
  input? := none
  format? := none
  emit := []
  verbosity := 0

/-- The format in which to show the result: text, if none was asked for. -/
def format (s : Settings) : OutputFormat :=
  s.format?.getD .text

/-- The sections to show, in order: all, if none was asked for. -/
def sections (s : Settings) : List Section :=
  if s.emit.isEmpty then Section.all else Section.all.filter fun part => s.emit.contains part

/-- The settings with an input file. There is room for one, and it has a name. -/
def withInput? (s : Settings) (path : String) : Option Settings :=
  if s.input?.isSome || path.isEmpty then none else some { s with input? := some path }

/-- The settings with the format of a given name. There is room for one. -/
def withFormat? (s : Settings) (name : String) : Option Settings :=
  if s.format?.isSome then none
  else (OutputFormat.ofName? name).map fun format => { s with format? := some format }

/-- The settings with more sections, whose names are joined by commas. -/
def withSections? (s : Settings) (names : String) : Option Settings :=
  ((names.splitOn ",").mapM Section.ofName?).map fun parts => { s with emit := s.emit ++ parts }

/-- The settings with more talk. -/
def moreVerbose (s : Settings) : Settings :=
  { s with verbosity := s.verbosity + 1 }

end Settings

/-! ### Arguments -/

/-- The form of an argument. -/
inductive Argument where
  /-- Two dashes: what follows is no option. -/
  | endOfOptions
  /-- An option by its name, perhaps with a value after an equals sign. -/
  | long (name : String) (attached? : Option String)
  /-- Options by their letters. -/
  | letters (flags : List Char)
  /-- Anything else: a value, or the input file. -/
  | value (text : String)
deriving DecidableEq, Repr, Inhabited

/-- The name of an option, and the value after the first equals sign if there is one. -/
def splitAttached (text : List Char) : String × Option String :=
  match text.dropWhile (· != '=') with
  | [] => (String.ofList text, none)
  | _ :: value => (String.ofList (text.takeWhile (· != '=')), some (String.ofList value))

/-- The form of an argument. A lone dash is a value. -/
def Argument.ofText (text : String) : Argument :=
  match text.toList with
  | ['-', '-'] => endOfOptions
  | '-' :: '-' :: rest => long (splitAttached rest).1 (splitAttached rest).2
  | '-' :: flag :: flags => letters (flag :: flags)
  | _ => value text

/-! ### Requests -/

/-- What a list of arguments asks for. -/
inductive Request where
  /-- The arguments make no sense. -/
  | misuse
  /-- How to use the program. -/
  | help
  /-- Which version of the program this is. -/
  | version
  | compile (settings : Settings)
deriving DecidableEq, Repr, Inhabited

namespace Request

/-- The request of input files alone, which is at fault if there are too many. -/
def ofPaths (s : Settings) : List String → Request
  | [] => compile s
  | path :: paths =>
    match s.withInput? path with
    | none => misuse
    | some s => ofPaths s paths

/-- The effect of option letters: they decide the request, or change the settings. -/
def readLetters (s : Settings) : List Char → Except Request Settings
  | [] => .ok s
  | 'v' :: flags => readLetters s.moreVerbose flags
  | 'V' :: _ => .error version
  | 'h' :: _ => .error help
  | _ :: _ => .error misuse

/-- The effect of an option on the settings that needs a value. -/
def valueOption? : String → Option (Settings → String → Option Settings)
  | "format" => some Settings.withFormat?
  | "emit" => some Settings.withSections?
  | _ => none

/-- The effect of an option without a value: it decides the request, or changes the
settings. -/
def readFlag (s : Settings) : String → Except Request Settings
  | "verbose" => .ok s.moreVerbose
  | "version" => .error version
  | "help" => .error help
  | _ => .error misuse

/-- The request of the arguments after those that led to the settings `s`. A value may
follow its option as an argument of its own, unless it looks like an option. -/
def read (s : Settings) : List String → Request
  | [] => compile s
  | argument :: rest =>
    match Argument.ofText argument with
    | .endOfOptions => ofPaths s rest
    | .letters flags =>
      match readLetters s flags with
      | .error request => request
      | .ok s => read s rest
    | .value path =>
      match s.withInput? path with
      | none => misuse
      | some s => read s rest
    | .long name attached? =>
      match valueOption? name, attached?, rest with
      | none, some _, _ => misuse
      | none, none, rest =>
        match readFlag s name with
        | .error request => request
        | .ok s => read s rest
      | some change, some value, rest =>
        match change s value with
        | none => misuse
        | some s => read s rest
      | some _, none, [] => misuse
      | some change, none, next :: rest =>
        match Argument.ofText next with
        | .value value =>
          match change s value with
          | none => misuse
          | some s => read s rest
        | _ => misuse

/-- The request that a list of arguments makes. -/
def ofArguments (arguments : List String) : Request :=
  read .initial arguments

end Request

end DrLang.Cli
