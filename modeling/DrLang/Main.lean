import DrLang.Cli.Answer

/-!
# The program

Reads the command line and the source, and writes the answer.
-/

namespace DrLang.Cli

/-- The number of a system error, which may be reported with a minus sign. -/
def systemNumber (code : UInt32) : Nat :=
  if code < 0x80000000 then code.toNat else 0x100000000 - code.toNat

/-- The failure that a system error stands for. -/
def failureOf (e : IO.Error) : ReadFailure :=
  match e with
  | .noFileOrDirectory .. => .notFound
  | .inappropriateType _ code _ => if systemNumber code = 21 then .isDirectory else .notDirectory
  | .invalidArgument _ code _ =>
    if systemNumber code = 36 then .nameTooLong else .other (toString e)
  | .permissionDenied .. => .other "Permission denied (os error 13)"
  | _ => .other (toString e)

/-- The source at a path, or that on standard input. -/
def readSource (input? : Option String) : IO (Except ReadFailure String) := do
  try
    match input? with
    | some path => return decode (← IO.FS.readBinFile path)
    | none => return decode (← (← IO.getStdin).readBinToEnd)
  catch e => return .error (failureOf e)

end DrLang.Cli

/-- Compiles DR source as the arguments ask. -/
def main (arguments : List String) : IO UInt32 := do
  let answer ← (DrLang.Cli.Request.ofArguments arguments).answer DrLang.Cli.readSource
  IO.print answer.stdout
  IO.eprint answer.stderr
  return answer.exit.toUInt32
