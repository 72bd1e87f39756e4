import DrLang.Cli.Request
import DrLang.Compilation

/-!
# Compilations as text

The sections of a compilation that the command line shows, each under its title.
-/

namespace DrLang.Cli

/-- Texts with a line feed after each. -/
def lines (texts : List String) : String :=
  String.join (texts.map fun text => text ++ "\n")

/-- A token in columns: its line to the right, its class to the left, its text. -/
def tokenRow (token : Token) : String :=
  Text.alignedRight 4 (toString token.line) ++ "  " ++
    Text.alignedLeft 14 token.kind.name ++ " " ++ token.value

/-- The text of a section. -/
def Section.listing (c : Compilation) : Section → String
  | tokens => "=== Tokens ===\n" ++ lines (c.tokens.map tokenRow)
  | tree => "=== Parse Tree ===\n" ++ c.tree.pretty
  | symbols => "=== Symbol Table ===\n" ++ lines (c.symbols.map toString)
  | errors =>
    if c.isClean then "No semantic errors.\n"
    else "=== Semantic Errors ===\n" ++ lines (c.errors.map toString)

/-- The text of several sections. -/
def listing (sections : List Section) (c : Compilation) : String :=
  String.join (sections.map fun part => part.listing c)

end DrLang.Cli
