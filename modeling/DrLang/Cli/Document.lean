import DrLang.Compilation
import DrLang.Json

/-!
# Compilations as JSON

The documents of a compilation, of its parts, and of a fatal error. A semantic error
is told by its message alone.
-/

namespace DrLang

/-- The document of a token. -/
def Token.document (t : Token) : Json :=
  .object [("kind", .string t.kind.name), ("value", .string t.value), ("line", .number t.line)]

/-- The document of a symbol. -/
def Symbol.document (s : Symbol) : Json :=
  .object [("name", .string s.name), ("data_type", .string s.type.name),
    ("line", .number s.line)]

/-- The document of a semantic error. -/
def SemanticError.document (e : SemanticError) : Json :=
  .object [("line", .number e.line), ("message", .string e.message)]

/-- The document of a fatal error. What was expected and found is null where no token
was read. -/
def FatalError.document (e : FatalError) : Json :=
  .object [("kind", .string e.cause.phase), ("line", .number e.line),
    ("expected", .ofOption (e.cause.expected?.map fun x => .string x.text)),
    ("found", .ofOption (e.cause.found?.map fun k => .string k.name)),
    ("value", .string e.cause.value)]

mutual

/-- The document of a tree. -/
def Node.document : Node → Json
  | ⟨label, type, line, children⟩ =>
    .object [("label", .string label), ("data_type", .string type.name), ("line", .number line),
      ("children", .array (documents children))]

/-- The documents of neighbouring trees. -/
def Node.documents : List Node → List Json
  | [] => []
  | n :: ns => document n :: documents ns

end

/-- The document of a compilation. -/
def Compilation.document (c : Compilation) : Json :=
  .object [("tokens", .array (c.tokens.map Token.document)), ("tree", c.tree.document),
    ("symbols", .array (c.symbols.map Symbol.document)),
    ("errors", .array (c.errors.map SemanticError.document))]

end DrLang
