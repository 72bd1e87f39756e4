import DrLang.Cli.Answer

/-!
# Folders in memory

A folder of text files, in which paths are followed step by step as in a file system,
so that the command line can be run on files that are nowhere stored. Files stand
directly in the folder or in folders inside it; the name of a file is its path from
the folder. Around the folder there are only the folders that lead to it, up to the
root, which is its own parent.

- `Folder.follow`: the place one step further on.
- `Folder.read`: the text of the file at a path.
-/

namespace DrLang.Cli

/-- The greatest number of bytes in the name of a file. -/
def longestName : Nat := 255

/-- The greatest number of bytes in a path. -/
def longestPath : Nat := 4095

/-- The steps of a path. Empty steps, and those to where one is, lead nowhere. -/
def steps (path : String) : List String :=
  (path.splitOn "/").filter fun step => step != "" && step != "."

/-- Whether a path asks for a folder: it ends in a slash, or in a step to where one
is. -/
def asksForFolder (path : String) : Bool :=
  path.endsWith "/" || path.endsWith "/."

/-- The files of a folder, each with its path and its text. -/
structure Folder where
  files : List (String × String)
deriving Repr, Inhabited

/-- What a path leads to. -/
inductive Place where
  /-- The folder or one inside it, by the steps to it. -/
  | inside (steps : List String)
  /-- A folder around the folder. -/
  | around
  | file (text : String)
deriving DecidableEq, Repr, Inhabited

namespace Folder

/-- The place of a name in the folder that the steps `here` lead to. -/
def find (f : Folder) (here : List String) (name : String) : Except ReadFailure Place :=
  let there := here ++ [name]
  match f.files.find? fun file => steps file.1 == there with
  | some file => .ok (.file file.2)
  | none =>
    if f.files.any fun file => there.isPrefixOf (steps file.1) then .ok (.inside there)
    else .error .notFound

/-- The place one step further on. A step from a file fails before the name is looked
at, and a name that is too long fails before it is searched for. -/
def follow (f : Folder) (place : Place) (step : String) : Except ReadFailure Place :=
  match place with
  | .file _ => .error .notDirectory
  | .around =>
    if step = ".." then .ok .around
    else if longestName < step.utf8ByteSize then .error .nameTooLong
    else .error .notFound
  | .inside here =>
    if step = ".." then .ok (if here.isEmpty then .around else .inside here.dropLast)
    else if longestName < step.utf8ByteSize then .error .nameTooLong
    else f.find here step

/-- The place that a path leads to. -/
def locate (f : Folder) (path : String) : Except ReadFailure Place :=
  if longestPath < path.utf8ByteSize then .error .nameTooLong
  else (steps path).foldlM f.follow (if path.startsWith "/" then .around else .inside [])

/-- The text of the file at a path. -/
def read (f : Folder) (path : String) : Except ReadFailure String := do
  match ← f.locate path with
  | .file text => if asksForFolder path then throw .notDirectory else return text
  | .inside _ | .around => throw .isDirectory

end Folder

end DrLang.Cli
