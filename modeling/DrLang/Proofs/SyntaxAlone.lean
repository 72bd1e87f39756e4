import DrLang.Proofs.Lockstep.Statement
import DrLang.Proofs.Likeness.Surroundings

/-!
# Syntax depends on the classes of tokens alone

Naming and typing happen on the way of a parse, and could turn it aside. They do not: whatever
the texts and the lines of the tokens are and whatever was declared and reported before, two parses
over the same classes of tokens take the same way.

- `Node.SameShape`: trees with the same number of children everywhere.
- `Likeness.kinds`: tokens of the same classes, with anything else being different.
- `Builds`: the parsing functions with the trees that they give.
- `Builds.related`: two runs of a parsing function over tokens that correspond.
- `builds_in_lockstep`: two runs of a parsing function over the same classes.
-/

namespace DrLang

open Parse

/-! ### Shapes -/

/-- Two trees with the same number of children at every node. -/
inductive Node.SameShape : Node → Node → Prop where
  | intro {n m : Node} : List.Forall₂ SameShape n.children m.children → SameShape n m

/-- Tokens of the same classes. Their texts and lines, and all that was noted, may be different. -/
def Likeness.kinds : Likeness :=
  Guise.likeness
    { token := fun t u => t.kind = u.kind
      label := fun _ _ => True
      line := fun _ _ => True
      kind_eq := id
      line_token := fun _ => trivial
      label_literal := fun _ => trivial
      label_call := fun _ => trivial
      label_attach := fun _ => trivial
      label_construct := fun _ _ => trivial }

/-- Where labels, lines and types may be anything, what is left is the shape. -/
theorem Likeness.sameShape_of_nodes {ns ms : List Node} (h : kinds.nodes ns ms) :
    List.Forall₂ Node.SameShape ns ms := by
  have hshape : kinds.Passes Node.SameShape := fun _ _ _ _ _ hchildren => .intro hchildren
  exact hshape.rel_of_nodes ns ms h

/-! ### The parsing functions and their trees -/

/-- The parsing functions, each with the trees in its result. -/
inductive Builds (rules : Rules) : {α : Type} → Parse α → (α → List Node) → Prop where
  | program : Builds rules (program rules) fun n => [n]
  | statements : Builds rules (allStatementsOf rules (block rules)) fun ns => ns
  | statement : Builds rules (statement rules) fun n => [n]
  | declaration : Builds rules (declaration rules) fun n => [n]
  | simpleStatement : Builds rules (simpleStatement rules) fun n => [n]
  | simple (site : StoreSite) : Builds rules (simple rules site) fun n => [n]
  | check : Builds rules (check rules) fun n => [n]
  | rework : Builds rules (rework rules) fun n => [n]
  | checklist : Builds rules (checklist rules) fun n => [n]
  | output : Builds rules (output rules) fun n => [n]
  | submit : Builds rules (submit rules) fun n => [n]
  | block : Builds rules (block rules) fun n => [n]
  | attach : Builds rules attach fun n => [n]
  | plan : Builds rules (plan rules) fun n => [n]
  | expression (power : BindingPower) : Builds rules (expression rules power) fun e => [e.node]
  | condition : Builds rules (condition rules) fun e => [e.node]
  | call : Builds rules (call rules) fun n => [n]

namespace Builds

variable {rules : Rules} {α : Type} {p : Parse α} {trees : α → List Node}

/-- Tokens are taken one after the other. -/
theorem suffix (h : Builds rules p trees) (s : Parser) :
    (p.runFrom s).2.cursor.tokens <:+ s.cursor.tokens := by
  have routine {α : Type} {p : Parse α} (hp : Routine rules p) :
      (p.runFrom s).2.cursor.tokens <:+ s.cursor.tokens := (hp.guards s).grows.tokens
  cases h with
  | program => exact (guards_program rules s).grows.tokens
  | statements => exact routine .statements
  | statement => exact routine .statement
  | declaration => exact routine .declaration
  | simpleStatement => exact routine .simpleStatement
  | simple site => exact routine (.simple site)
  | check => exact routine .check
  | rework => exact routine .rework
  | checklist => exact routine .checklist
  | output => exact routine .output
  | submit => exact routine .submit
  | block => exact routine .block
  | attach => exact routine .attach
  | plan => exact routine .plan
  | expression power => exact routine (.expression power)
  | condition => exact routine .condition
  | call => exact routine .call

/-- Where any token may give a construct its name, and programs correspond as their statements do,
so do the trees of all parsing functions. -/
theorem related {K : Kinship} (hkeyword : ∀ token, K.keyword token)
    (hprogram : ∀ ns ms, List.Forall₂ K.node ns ms →
      K.node (.group "Program" 0 ns) (.group "Program" 0 ms))
    (hparsed : ∀ count : Nat, Respects K.notes (fun _ _ => True)
      (do record (.parsed count (← get).diagnostics.length))
      (do record (.parsed count (← get).diagnostics.length)))
    (h : Builds .standard p trees) (s t : Parser) :
    Lockstep K (fun a b => List.Forall₂ K.node (trees a) (trees b)) p p s t := by
  have node {p : Parse Node} (hp : Lockstep K K.node p p s t) :
      Lockstep K (fun n m => List.Forall₂ K.node [n] [m]) p p s t :=
    hp.imp fun _ _ h => .cons h .nil
  have typed {p : Parse Typed} (hp : Lockstep K K.expression p p s t) :
      Lockstep K (fun e e' => List.Forall₂ K.node [e.node] [e'.node]) p p s t :=
    hp.imp fun _ _ h => .cons h.1 .nil
  cases h with
  | program =>
    refine node ((Lockstep.program hparsed).imp ?_)
    -- The root is a node over the statements, which are related first.
    rintro _ _ ⟨ns, ms, hnodes, rfl, rfl⟩
    exact hprogram ns ms hnodes
  | statements => exact Lockstep.statements
  | statement => exact node Lockstep.statement
  | declaration => exact node Lockstep.declaration
  | simpleStatement => exact node Lockstep.simpleStatement
  | simple site => exact node (Lockstep.simple site)
  | check => exact node (Lockstep.checkOf (fun _ _ => Lockstep.block) (hkeyword _))
  | rework => exact node (Lockstep.reworkOf (fun _ _ => Lockstep.block) (hkeyword _))
  | checklist => exact node (Lockstep.checklistOf (fun _ _ => Lockstep.block) (hkeyword _))
  | output => exact node (Lockstep.keywordExpression (by decide))
  | submit => exact node (Lockstep.keywordExpression (by decide))
  | block => exact node Lockstep.block
  | attach => exact node Lockstep.attach
  | plan => exact node (Lockstep.planOf fun _ _ => Lockstep.block)
  | expression power => exact typed (Lockstep.expression power)
  | condition => exact typed Lockstep.condition
  | call => exact node Lockstep.call

theorem lockstep (h : Builds .standard p trees) (s t : Parser) :
    Lockstep Likeness.kinds (fun a b => Likeness.kinds.nodes (trees a) (trees b)) p p s t := by
  have hparsed (count : Nat) : Respects Likeness.kinds.notes (fun _ _ => True)
      (do record (.parsed count (← get).diagnostics.length))
      (do record (.parsed count (← get).diagnostics.length)) :=
    (silent_parsed count).respects (silent_parsed count) fun _ _ => trivial
  have hprogram (ns ms : List Node) (h : List.Forall₂ Likeness.kinds.node ns ms) :
      Likeness.kinds.node (.group "Program" 0 ns) (.group "Program" 0 ms) :=
    Likeness.node_mk (by trivial) False.elim (by trivial) (Likeness.nodes_of_forall₂ h)
  have hrelated := related (K := Likeness.kinds) (fun _ => trivial) hprogram hparsed h s t
  exact hrelated.imp fun _ _ => Likeness.nodes_of_forall₂

end Builds

/-! ### Two runs -/

/-- **Syntax alone**: from two states with tokens of the same classes ahead, whatever their texts
and lines and whatever was declared, reported and noted before, a parsing function takes as many
tokens. Either both runs succeed, with trees of the same shape, or both fail, where the same was
expected and a token of the same class was found. -/
theorem builds_in_lockstep {α : Type} {p : Parse α} {trees : α → List Node}
    (h : Builds .standard p trees) {s t : Parser}
    (hkinds : kindsOf s.cursor.tokens = kindsOf t.cursor.tokens) :
    (∃ k, (p.runFrom s).2.cursor.tokens = s.cursor.tokens.drop k ∧
      (p.runFrom t).2.cursor.tokens = t.cursor.tokens.drop k) ∧
    match (p.runFrom s).1, (p.runFrom t).1 with
    | .ok a, .ok b => List.Forall₂ Node.SameShape (trees a) (trees b)
    | .error e, .error e' => ∃ expected found value value',
        e.cause = .unexpected expected found value ∧ e'.cause = .unexpected expected found value'
    | _, _ => False := by
  have habreast : Abreast Likeness.kinds s t := by
    refine ⟨?_, trivial⟩
    have heq := List.forall₂_eq_eq_eq ▸ hkinds
    rw [List.forall₂_map_left_iff, List.forall₂_map_right_iff] at heq
    exact heq
  obtain ⟨houtcome, hbehind⟩ := h.lockstep s t habreast
  constructor
  · -- As many tokens are left on both sides, so as many were taken.
    have hs := List.suffix_iff_eq_drop.1 (h.suffix s)
    have ht := List.suffix_iff_eq_drop.1 (h.suffix t)
    rw [← habreast.tokens.length_eq, ← hbehind.tokens.length_eq] at ht
    exact ⟨_, hs, ht⟩
  · generalize (p.runFrom s).1 = r, (p.runFrom t).1 = r' at houtcome
    cases houtcome with
    | ok hnodes => exact Likeness.sameShape_of_nodes hnodes
    | @error u v expected hkind =>
      have hkind : u.kind = v.kind := hkind
      exact ⟨expected, u.kind, u.value, v.value, rfl, by rw [hkind]; rfl⟩

/-- A branch over a name that is declared, in a new program. -/
def declared : Parser where
  cursor := .ofTokens [⟨.check, "CHECK", 1⟩, ⟨.openParen, "(", 1⟩, ⟨.identifier, "a", 1⟩,
    ⟨.closeParen, ")", 1⟩, ⟨.openCurly, "\x7b", 1⟩, ⟨.file, "file", 1⟩, ⟨.identifier, "b", 1⟩,
    ⟨.assignment, "=", 1⟩, ⟨.integer, "1", 1⟩, ⟨.semicolon, ";", 1⟩, ⟨.closeCurly, "\x7d", 1⟩]
  symbols := ⟨[⟨"a", .file, 1⟩], [], [⟨"a", .file, 1⟩]⟩
  diagnostics := []
  entryPoint? := none
  log := []

/-- A branch over a name that is not, on other lines and behind an error. -/
def undeclared : Parser where
  cursor := .ofTokens [⟨.check, "CHECK", 7⟩, ⟨.openParen, "(", 7⟩, ⟨.identifier, "total", 8⟩,
    ⟨.closeParen, ")", 8⟩, ⟨.openCurly, "\x7b", 8⟩, ⟨.file, "file", 9⟩, ⟨.identifier, "total", 9⟩,
    ⟨.assignment, "=", 9⟩, ⟨.integer, "42", 9⟩, ⟨.semicolon, ";", 9⟩, ⟨.closeCurly, "\x7d", 10⟩]
  symbols := ⟨[], [[⟨"x", .note, 2⟩]], [⟨"x", .note, 2⟩]⟩
  diagnostics := [⟨6, .undeclared "y"⟩]
  entryPoint? := some 5
  log := []

/-- An error more, and the same tree but for what it says. -/
theorem declared_like_undeclared :
    ∃ n m s' t', (statement .standard).runFrom declared = (.ok n, s') ∧
      (statement .standard).runFrom undeclared = (.ok m, t') ∧
      s'.diagnostics = [] ∧ t'.diagnostics = [⟨6, .undeclared "y"⟩, ⟨8, .undeclared "total"⟩] ∧
      List.Forall₂ Node.SameShape [n] [m] := by
  have hkinds : kindsOf declared.cursor.tokens = kindsOf undeclared.cursor.tokens := by decide
  have hlockstep := builds_in_lockstep .statement hkinds
  have hdeclared : (((statement .standard).runFrom declared).1.isOk,
      ((statement .standard).runFrom declared).2.diagnostics) = (true, []) := by
    decide +kernel
  have hundeclared : ((statement .standard).runFrom undeclared).2.diagnostics =
      [⟨6, .undeclared "y"⟩, ⟨8, .undeclared "total"⟩] := by
    decide +kernel
  obtain ⟨hok, hnone⟩ := Prod.mk.inj hdeclared
  rcases hs : (statement .standard).runFrom declared with ⟨_ | n, s'⟩
  · simp [hs, Except.isOk, Except.toBool] at hok
  rcases ht : (statement .standard).runFrom undeclared with ⟨_ | m, t'⟩
  · rw [hs, ht] at hlockstep
    exact absurd hlockstep.2 id
  rw [hs, ht] at hlockstep
  rw [hs] at hnone
  rw [ht] at hundeclared
  exact ⟨n, m, s', t', rfl, rfl, hnone, hundeclared, hlockstep.2⟩

end DrLang
