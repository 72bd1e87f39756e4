import DrLang.Parse.Statement

/-!
# Programs

A program is a list of statements that fills its token list.
-/

namespace DrLang

/-- A whole program: statements up to the end of the input. -/
def Parse.program (rules : Rules) : Parse Node := do
  let nodes ← allStatementsOf rules (block rules)
  let _ ← expect .eof
  record (.parsed nodes.length (← get).diagnostics.length)
  return .group "Program" 0 nodes

/-- The tree of a token list or the error that stopped its parse, and the state in
which the parse ended. -/
def parse (tokens : List Token) : Except FatalError Node × Parser :=
  (Parse.program .standard).runFrom (.start tokens)

end DrLang
