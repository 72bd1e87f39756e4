import DrLang.Proofs.Reading
import DrLang.Proofs.ScopeDiscipline

/-!
# Steps that move on

No step moves the cursor back, whether it succeeds or fails. So a step that takes a token, and
whatever follows it, leaves less ahead than there was.

- `Forward`: a step that never moves back, as a class, so that it is found for steps in sequence.
- `suffix_advance_bind`, `suffix_expect_bind`: what is left ahead once a token is taken.
-/

namespace DrLang

open Parse

/-- A step that never moves the cursor back, whether it succeeds or fails. -/
class Forward {α : Type} (p : Parse α) : Prop where
  suffix (s : Parser) : (p.runFrom s).2.cursor.tokens <:+ s.cursor.tokens

section Forward

variable {α β : Type}

/-- A calm step keeps what is ahead, up to tokens taken: `Keeps.tokens`. -/
theorem Calm.forward {p : Parse α} (hp : Calm p) : Forward p where
  suffix s := by
    obtain ⟨errors, hkeeps⟩ := (hp s).keeps
    exact hkeeps.tokens

/-- A silent step leaves the cursor where it is. -/
theorem Parse.Silent.forward {p : Parse α} (hp : Silent p) : Forward p where
  suffix s := by
    obtain ⟨a, n', hrun, -⟩ := hp.yields s
    rw [hrun]
    exact List.suffix_refl _

/-- What grows has only taken tokens: `Grows.tokens`. -/
theorem Guards.forward {p : Parse α} {Q : Parser → α → Parser → Prop}
    (h : ∀ s, Guards AnyKind s p s (Q s)) : Forward p where
  suffix s := (h s).grows.tokens

/-- What follows a step leaves no more ahead than the step does. -/
theorem suffix_bind {s : Parser} {p : Parse α} {f : α → Parse β} [hf : ∀ a, Forward (f a)]
    {tokens : List Token} (hp : (p.runFrom s).2.cursor.tokens <:+ tokens) :
    ((p >>= f).runFrom s).2.cursor.tokens <:+ tokens := by
  rw [runFrom_bind]
  split
  case h_1 a s' hrun =>
    rw [hrun] at hp
    exact ((hf a).suffix s').trans hp
  case h_2 e s' hrun =>
    rw [hrun] at hp
    exact hp

/-! ### Sequences and choices -/

instance {p : Parse α} {f : α → Parse β} [hp : Forward p] [∀ a, Forward (f a)] :
    Forward (p >>= f) where
  suffix s := suffix_bind (hp.suffix s)

instance {p q : Parse α} {c : Prop} [Decidable c] [hp : Forward p] [hq : Forward q] :
    Forward (if c then p else q) := by
  split
  · exact hp
  · exact hq

/-! ### Actions -/

instance (a : α) : Forward (pure a) := (calm_pure a).forward

instance (expected : Expectation) : Forward (unexpected expected : Parse α) :=
  (calm_unexpected expected).forward

instance : Forward currentKind := calm_currentKind.forward

instance : Forward remaining := calm_remaining.forward

instance : Forward advance := calm_advance.forward

instance (kind : TokenKind) : Forward (expect kind) := (calm_expect kind).forward

instance (kind : TokenKind) : Forward (skip kind) := (calm_skip kind).forward

instance (name : String) (line : Nat) : Forward (boundType? name line) :=
  (silent_boundType? name line).forward

instance (name : String) (line : Nat) : Forward (resolve name line) :=
  (silent_resolve name line).forward

instance (line : Nat) (result : Except SemanticCause DataType) :
    Forward (typeOrReport line result) :=
  (silent_typeOrReport line result).forward

instance (site : StoreSite) (name : Token) (target source : DataType) :
    Forward (checkStore site name target source) :=
  (silent_checkStore site name target source).forward

instance (site : StoreSite) (name : Token) (target? : Option DataType) (source : DataType) :
    Forward (checkStore? site name target? source) :=
  (silent_checkStore? site name target? source).forward

instance (line : Nat) (result : Except SemanticCause Unit) :
    Forward (reportViolation line result) :=
  (silent_reportViolation line result).forward

instance (symbol : Symbol) : Forward (bindName symbol) := (silent_bindName symbol).forward

instance (line : Nat) : Forward (noteEntryPoint line) := (silent_noteEntryPoint line).forward

instance : Forward enterScope := silent_enterScope.forward

instance : Forward exitScope := silent_exitScope.forward

/-! ### Rules -/

variable (rules : Rules)

instance (power : BindingPower) : Forward (expression rules power) :=
  (calm_expression rules power).forward

instance : Forward (condition rules) := (calm_condition rules).forward

instance : Forward (storedValue rules) := (calm_storedValue rules).forward

instance (name : Token) (type : DataType) : Forward (initializer rules name type) :=
  (calm_initializer rules name type).forward

instance (site : StoreSite) : Forward (simple rules site) := (calm_simple rules site).forward

instance (keyword : Token) : Forward (gate rules keyword) := (calm_gate rules keyword).forward

instance : Forward (declaration rules) := Guards.forward fun _ => guards_declaration

/-! ### Frames

The rules that open a frame are the longest sequences. The instances for their parts are named,
and each of the rules is inferred through these. -/

variable {rules} {body : Parse Node} [hbody : Forward body]

/-- A frame that is opened, filled by `body` and closed again, as in `planOf`. -/
instance forward_frame (construct : Node → Node) :
    Forward (do enterScope; let block ← body; exitScope; return construct block) :=
  inferInstance

/-- The header of a `CHECKLIST` from its counter on, up to where `checklistOf` closes the frame. -/
instance forward_header (keyword : Token) (construct : Node → Node → Node → Node → Node) :
    Forward (do
      if (← currentKind).isTypeKeyword then
        let counter ← declaration rules
        let decision ← gate rules keyword
        let _ ← expect .semicolon
        let update ← simple rules .update
        let _ ← expect .closeParen
        let block ← body
        exitScope
        return construct counter decision update block
      else
        unexpected .declaration) :=
  inferInstance

end Forward

/-! ### Taking a token -/

section Taking

variable {α : Type} {s : Parser} {f : Token → Parse α} [Forward (f s.cursor.current)]

/-- Once a token is taken, the parse goes on from the next one. -/
theorem suffix_advance_bind :
    ((advance >>= f).runFrom s).2.cursor.tokens <:+ s.cursor.advance.tokens := by
  rw [runFrom_bind, runFrom_advance]
  exact Forward.suffix { s with cursor := s.cursor.advance }

/-- Behind a token that `expect` takes, at least that one is no longer ahead. -/
theorem suffix_expect_bind {kind : TokenKind} (hkind : s.cursor.current.kind = kind) :
    ((expect kind >>= f).runFrom s).2.cursor.tokens <:+ s.cursor.advance.tokens := by
  rw [runFrom_bind, runFrom_expect, if_pos hkind]
  exact Forward.suffix { s with cursor := s.cursor.advance }

end Taking

/-- A step that goes on from the next token has taken the current one. -/
theorem Ready.tokens_ne {m : Nat} {s s' : Parser} (hs : Ready m s)
    (hkind : s.cursor.current.kind ≠ .eof) (h : s'.cursor.tokens <:+ s.cursor.advance.tokens) :
    s'.cursor.tokens ≠ s.cursor.tokens := by
  intro heq
  have hlength := h.length_le
  rw [heq, hs.tokens_eq hkind, List.length_cons] at hlength
  omega

end DrLang
