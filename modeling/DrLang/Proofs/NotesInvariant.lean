import DrLang.Proofs.Likeness.Surroundings
import DrLang.Proofs.Lockstep.Statement

/-!
# Invariants of what is noted

A parse notes things in five ways: it reports an error, binds a name, notes the entry point, opens
a scope and closes one. What each of these keeps is kept by all statements, wherever they begin and
whether they succeed or fail.

- `Kept`: a property of notes that each of the five keeps.
- `Holds`: a silent step that keeps a property.
- `Kept.likeness`: a parse beside itself, with the property on both sides.
- `Kept.statements`: what is kept holds behind all statements.
-/

namespace DrLang

open Parse

/-- A property of notes that is kept whatever is noted. -/
structure Kept (I : Notes → Prop) : Prop where
  reported {n : Notes} (h : I n) (line : Nat) (cause : SemanticCause) : I (n.report line cause)
  declared {n : Notes} (h : I n) {symbol : Symbol} {t : SymbolTable}
    (hdeclare : n.symbols.declare symbol = .ok t) : I { n with symbols := t }
  defined {n : Notes} (h : I n) (line : Nat) : I { n with entryPoint? := some line }
  entered {n : Notes} (h : I n) : I n.enter
  exited {n : Notes} (h : I n) : I n.exit

section Holds

variable {α β : Type} {I : Notes → Prop} {p : Parse α} {q : Parse β}

/-- A silent step behind which a property holds that held before it. -/
def Holds (I : Notes → Prop) (p : Parse α) : Prop :=
  ∀ n, I n → ∃ a n', Yields p n a n' ∧ I n'

/-- Two steps that keep a property keep it on both sides. -/
theorem Holds.respects (hp : Holds I p) (hq : Holds I q) {R : α → β → Prop} (hR : ∀ a b, R a b) :
    Respects (fun n m => I n ∧ I m) R p q := by
  rintro n m ⟨hn, hm⟩
  obtain ⟨a, n', hyields, hn'⟩ := hp n hn
  obtain ⟨b, m', hyields', hm'⟩ := hq m hm
  exact ⟨a, n', b, m', hyields, hyields', hR a b, hn', hm'⟩

theorem holds_pure (a : α) : Holds I (pure a : Parse α) :=
  fun n hn => ⟨a, n, yields_pure a n, hn⟩

namespace Kept

variable (hI : Kept I)
include hI

theorem holds_report (line : Nat) (cause : SemanticCause) : Holds I (report line cause) :=
  fun n hn => ⟨(), _, yields_report n line cause, hI.reported hn line cause⟩

/-- The use of a name notes at most an error, so `Kept.reported` is all that is needed. The same
goes for the typing rules and the checks below. -/
theorem holds_boundType? (name : String) (line : Nat) : Holds I (boundType? name line) := by
  intro n hn
  cases h : n.symbols.lookup? name with
  | none => exact ⟨none, _, yields_boundType?_of_none h, hI.reported hn _ _⟩
  | some symbol => exact ⟨some symbol.type, n, yields_boundType?_of_some h, hn⟩

theorem holds_typeOrReport (line : Nat) (result : Except SemanticCause DataType) :
    Holds I (typeOrReport line result) := by
  cases result with
  | ok type => exact holds_pure type
  | error cause =>
    intro n hn
    exact ⟨_, _, (yields_report n line cause).bind (yields_pure _ _), hI.reported hn line cause⟩

/-- A declaration binds its name or is an error: `Kept.declared` and `Kept.reported`. -/
theorem holds_bindName (symbol : Symbol) : Holds I (bindName symbol) := by
  intro n hn
  cases h : n.symbols.declare symbol with
  | ok t => exact ⟨(), _, yields_bindName_of_ok h, hI.declared hn h⟩
  | error existing => exact ⟨(), _, yields_bindName_of_error h, hI.reported hn _ _⟩

theorem holds_checkStore? (site : StoreSite) (name : Token) (target? : Option DataType)
    (source : DataType) : Holds I (checkStore? site name target? source) := by
  cases target? with
  | none => exact holds_pure ()
  | some target =>
    show Holds I (checkStore site name target source)
    unfold checkStore
    split
    · exact holds_pure ()
    · exact hI.holds_report _ _

theorem holds_reportViolation (line : Nat) (result : Except SemanticCause Unit) :
    Holds I (reportViolation line result) := by
  cases result with
  | ok => exact holds_pure ()
  | error cause => exact hI.holds_report line cause

/-- The entry point is noted or is an error: `Kept.defined` and `Kept.reported`. -/
theorem holds_noteEntryPoint (line : Nat) : Holds I (noteEntryPoint line) := by
  intro n hn
  cases h : n.entryPoint? with
  | none => exact ⟨(), _, yields_noteEntryPoint_of_none h, hI.defined hn line⟩
  | some previous => exact ⟨(), _, yields_noteEntryPoint_of_some h, hI.reported hn _ _⟩

theorem holds_enterScope : Holds I enterScope :=
  fun n hn => ⟨(), _, yields_enterScope n, hI.entered hn⟩

theorem holds_exitScope : Holds I exitScope :=
  fun n hn => ⟨(), _, yields_exitScope n, hI.exited hn⟩

omit hI

/-- A parse beside itself, with the property on both sides. -/
def likeness (hI : Kept I) : Likeness :=
  { Likeness.shape with
    notes := fun n m => I n ∧ I m
    bound := fun _ _ =>
      (hI.holds_boundType? _ _).respects (hI.holds_boundType? _ _) fun _ _ => False.elim
    arithmetic := fun _ _ _ =>
      (hI.holds_typeOrReport _ _).respects (hI.holds_typeOrReport _ _) fun _ _ => False.elim
    relational := fun _ _ _ =>
      (hI.holds_typeOrReport _ _).respects (hI.holds_typeOrReport _ _) fun _ _ => False.elim
    binding := fun _ _ _ => (hI.holds_bindName _).respects (hI.holds_bindName _) fun _ _ => trivial
    store := fun _ _ _ _ _ =>
      (hI.holds_checkStore? _ _ _ _).respects (hI.holds_checkStore? _ _ _ _) fun _ _ => trivial
    violation := fun _ _ _ =>
      (hI.holds_reportViolation _ _).respects (hI.holds_reportViolation _ _) fun _ _ => trivial
    entryPoint := fun _ =>
      (hI.holds_noteEntryPoint _).respects (hI.holds_noteEntryPoint _) fun _ _ => trivial
    enter := hI.holds_enterScope.respects hI.holds_enterScope fun _ _ => trivial
    exit := hI.holds_exitScope.respects hI.holds_exitScope fun _ _ => trivial }

/-- What is kept holds behind all statements, whether they succeed or fail. -/
theorem statements (hI : Kept I) {s : Parser} (hs : I s.notes) :
    I ((allStatementsOf .standard (block .standard)).runFrom s).2.notes := by
  have habreast : Abreast hI.likeness s s := ⟨List.forall₂_same.2 fun _ _ => rfl, hs, hs⟩
  obtain ⟨-, hbehind⟩ := Lockstep.statements habreast
  exact hbehind.notes.1

end Kept

end Holds

end DrLang
