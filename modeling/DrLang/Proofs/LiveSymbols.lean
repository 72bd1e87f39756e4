import DrLang.SymbolTable

/-!
# What holds of all live bindings

A property of all symbols that are bound in some open scope is kept when scopes are opened and
closed, and when a symbol with that property is bound.

- `SymbolTable.AllLive`: every symbol that a name may be found to stand for has a property.
-/

namespace DrLang.SymbolTable

variable {P : Symbol → Prop} {t t' : SymbolTable}

/-- Every symbol that is bound in an open scope satisfies `P`. -/
def AllLive (P : Symbol → Prop) (t : SymbolTable) : Prop :=
  ∀ frame ∈ t.frames, ∀ symbol ∈ frame, P symbol

/-- At first no symbol is bound, in one frame. -/
theorem allLive_empty (P : Symbol → Prop) : empty.AllLive P := by
  intro frame hframe symbol hsymbol
  obtain rfl := List.mem_singleton.1 hframe
  exact absurd hsymbol List.not_mem_nil

namespace AllLive

theorem enter (h : t.AllLive P) : t.enter.AllLive P := by
  intro frame hframe symbol hsymbol
  rcases List.mem_cons.1 hframe with rfl | hframe
  · exact absurd hsymbol List.not_mem_nil
  · exact h frame hframe symbol hsymbol

/-- The frames that are left were there before. The global one is kept by `SymbolTable.exit`,
whatever is closed. -/
theorem exit (h : t.AllLive P) : t.exit.AllLive P := by
  obtain ⟨innermost, outer, declared⟩ := t
  cases outer with
  | nil => exact h
  | cons frame outer => exact fun f hf => h f (List.mem_cons_of_mem _ hf)

/-- A symbol that is bound is the only one that is new; the frames around it are the same. -/
theorem declare {symbol : Symbol} (h : t.AllLive P) (hsymbol : P symbol)
    (hdeclare : t.declare symbol = .ok t') : t'.AllLive P := by
  unfold SymbolTable.declare at hdeclare
  split at hdeclare
  case h_1 => simp at hdeclare
  case h_2 =>
    obtain rfl := Except.ok.inj hdeclare
    intro frame hframe s hs
    rcases List.mem_cons.1 hframe with rfl | hframe
    · rcases List.mem_cons.1 hs with rfl | hs
      · exact hsymbol
      · exact h _ List.mem_cons_self s hs
    · exact h frame (List.mem_cons_of_mem _ hframe) s hs

/-- Any name that is found stands for a symbol of some open frame. This is what an invariant
`AllLive P` is good for. -/
theorem lookup? {name : String} {symbol : Symbol} (h : t.AllLive P)
    (hlookup : t.lookup? name = some symbol) : P symbol := by
  obtain ⟨frame, hframe, hfind⟩ := List.exists_of_findSome?_eq_some hlookup
  exact h frame hframe symbol (List.mem_of_find?_eq_some hfind)

end AllLive

end DrLang.SymbolTable
