import DrLang.Token.Scan
import DrLang.Parse.Program

/-!
# Compilations

A source text is compiled into its tokens, its annotated tree, the record of all its
declarations and its semantic errors. Only a fatal error prevents that; a program with
semantic errors is compiled all the same, but is not clean.

- `compile`: the compilation of a source text, or the fatal error.
- `compile_eq_ok_iff`, `compile_eq_error_iff`: the parts of a compilation, or why it fails.
- `compileLog`: the events of the same compilation.
-/

namespace DrLang

/-- What a source text is compiled into. -/
structure Compilation where
  tokens : List Token
  tree : Node
  /-- Every declaration in the order of the source, those of closed scopes included. -/
  symbols : List Symbol
  /-- The semantic errors in the order in which they were met. -/
  errors : List SemanticError
deriving Repr, Inhabited

/-- Whether no semantic error was met. -/
def Compilation.isClean (c : Compilation) : Bool :=
  c.errors.isEmpty

/-- Compiles a source text. -/
def compile (source : String) : Except FatalError Compilation :=
  match tokenize source with
  | .error e => .error e
  | .ok tokens =>
    match parse tokens with
    | (.error e, _) => .error e
    | (.ok tree, parser) => .ok ⟨tokens, tree, parser.symbols.declared, parser.diagnostics⟩

/-- What a compilation consists of comes from the scan and from the parse. -/
theorem compile_eq_ok_iff {source : String} {c : Compilation} :
    compile source = .ok c ↔ tokenize source = .ok c.tokens ∧
      ∃ s, parse c.tokens = (.ok c.tree, s) ∧ s.symbols.declared = c.symbols ∧
        s.diagnostics = c.errors := by
  constructor
  · intro h
    -- A failed phase returns its own error, so an accepted run went through both.
    unfold compile at h
    split at h
    case h_1 => simp at h
    case h_2 tokens htokens =>
      split at h
      case h_1 => simp at h
      case h_2 tree s hparse =>
        obtain rfl := Except.ok.inj h
        exact ⟨htokens, s, hparse, rfl, rfl⟩
  · rintro ⟨htokens, s, hparse, hsymbols, herrors⟩
    simp only [compile, htokens, hparse, hsymbols, herrors]

/-- A compilation fails where the scan does, or where the parse of its tokens does. -/
theorem compile_eq_error_iff {source : String} {e : FatalError} :
    compile source = .error e ↔ tokenize source = .error e ∨
      ∃ tokens, tokenize source = .ok tokens ∧ (parse tokens).1 = .error e := by
  unfold compile
  cases tokenize source with
  | error e' => simp
  | ok tokens => rcases hparse : parse tokens with ⟨_ | tree, s⟩ <;> simp [hparse]

/-- The events of a compilation, in order: each token as it is read, their number once
all are read, and those of the parse. -/
def compileLog (source : String) : List Event :=
  match scan source with
  | ⟨tokens, some _⟩ => tokens.map .tokenRead
  | ⟨tokens, none⟩ =>
    tokens.map .tokenRead ++ .tokenized tokens.length :: (parse tokens).2.log

end DrLang
