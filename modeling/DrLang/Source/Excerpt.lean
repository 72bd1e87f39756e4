import DrLang.Source.Line
import DrLang.Diagnostic.Fatal
import DrLang.Text.Blank
import DrLang.Text.Column

/-!
# Fatal errors beside the line they blame

The form in which a fatal error is shown to a person: what is wrong, in which file,
and the line itself between two bars.

- `FatalError.excerpt`: the whole text.
-/

namespace DrLang.FatalError

/-- What is wrong, with the tip if there is one. -/
def heading (e : FatalError) : String :=
  match e.cause.tip? with
  | none => e.headline ++ "\n"
  | some tip => e.headline ++ " (" ++ tip ++ ")\n"

/-- A bar under the bar that follows the line number. -/
def gutter (e : FatalError) : String :=
  Text.alignedRight ((toString e.line).length + 2) "|" ++ "\n"

/-- A fatal error, the file it is in and the line it blames. An error whose line the
source does not have is shown without one. -/
def excerpt (e : FatalError) (source file : String) : String :=
  e.heading ++ "-> " ++ file ++ "\n" ++ e.gutter ++
    match getLine? source e.line with
    | none => ""
    | some text => toString e.line ++ " | " ++ Text.trimmed text ++ "\n" ++ e.gutter

end DrLang.FatalError
