import DrLang.Text.Column

/-!
# JSON documents

The part of JSON that compilations need, and its indented text: two spaces for each
level, one item to a line, and empty arrays and objects closed on the spot.
-/

namespace DrLang

/-- A JSON document. Numbers are natural numbers. -/
inductive Json where
  | null
  | number (n : Nat)
  | string (text : String)
  | array (items : List Json)
  /-- Fields in the order in which they are written. -/
  | object (fields : List (String × Json))
deriving BEq, Repr, Inhabited

namespace Json

/-- A missing value is null. -/
def ofOption : Option Json → Json
  | none => null
  | some j => j

/-! ### Strings -/

/-- How a single character is written in a string. -/
def escaped (c : Char) : List Char :=
  if c = '"' then ['\\', '"']
  else if c = '\\' then ['\\', '\\']
  else if c = '\x08' then ['\\', 'b']
  else if c = '\x0c' then ['\\', 'f']
  else if c = '\n' then ['\\', 'n']
  else if c = '\r' then ['\\', 'r']
  else if c = '\t' then ['\\', 't']
  else if c.toNat < 0x10 then ['\\', 'u', '0', '0', '0'] ++ Nat.toDigits 16 c.toNat
  else if c.toNat < 0x20 then ['\\', 'u', '0', '0'] ++ Nat.toDigits 16 c.toNat
  else [c]

/-- A text in double quotes, with controls spelled out. -/
def quoted (text : String) : String :=
  String.ofList ('"' :: (text.toList.flatMap escaped ++ ['"']))

/-! ### Indented text -/

/-- Parts in brackets, each on a line of its own one level below `depth`. -/
def bracketed (left right : String) (depth : Nat) (parts : List String) : String :=
  if parts.isEmpty then left ++ right
  else
    left ++ "\n" ++
      String.intercalate ",\n" (parts.map fun part => Text.spaces (2 * depth + 2) ++ part) ++
      "\n" ++ Text.spaces (2 * depth) ++ right

mutual

/-- The text of a document that stands `depth` levels deep. -/
def prettyAt (depth : Nat) : Json → String
  | null => "null"
  | number n => toString n
  | string text => quoted text
  | array items => bracketed "[" "]" depth (prettyItems (depth + 1) items)
  | object fields => bracketed "\x7b" "\x7d" depth (prettyFields (depth + 1) fields)

/-- The texts of the items of an array. -/
def prettyItems (depth : Nat) : List Json → List String
  | [] => []
  | item :: items => prettyAt depth item :: prettyItems depth items

/-- The texts of the fields of an object. -/
def prettyFields (depth : Nat) : List (String × Json) → List String
  | [] => []
  | (name, value) :: fields =>
    (quoted name ++ ": " ++ prettyAt depth value) :: prettyFields depth fields

end

/-- The text of a document. -/
def pretty (j : Json) : String :=
  j.prettyAt 0

example : (array [number 1, array []]).pretty = "[\n  1,\n  []\n]" := by decide

end Json

end DrLang
