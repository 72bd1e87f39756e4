import DrLang.Proofs.Grammar
import DrLang.Diagnostic.Fatal

/-!
# One token of lookahead

What can be said of a language once some tokens of a word were read and the next one is
seen. Languages are read one after the other, so each statement holds for every language
`C` of what may come behind, as long as no word of `C` begins with one of the tokens that
would have gone on with the language itself.

- `Completes`: the tokens read are a word, and no longer word was possible.
- `Excludes`: no word goes on like this.
- `Awaits`: what was expected in place of the next token leads on to a word.
- `Completes.mul`, `Completes.excludes_mul`, `Awaits.mul_right`: the same for two languages
  in sequence.
- `Selects`: the next token tells which of several languages is meant.
-/

namespace DrLang

open Grammar

/-- Whether a token of class `kind` is, or begins, what an expectation asks for. -/
def Expectation.Admits : Expectation → TokenKind → Prop
  | .token kind, k => k = kind
  | .statement, k => ∃ z, Derives (.construct .statement) (k :: z)
  | .expression, k => ∃ z, Derives (.construct .expression) (k :: z)
  | .declaration, k => ∃ z, Derives (.construct .declaration) (k :: z)
  | .assignmentOrCall, k => k ∈ [.dollar, .assignment, .plusPlus, .minusMinus, .openParen]

namespace Grammar

open scoped Computability

variable {L M C : Language TokenKind} {S F G : Set TokenKind}

/-! ### Languages with words -/

/-- A language that has a word. -/
def Productive (L : Language TokenKind) : Prop :=
  ∃ w, w ∈ L

/-- The empty word is one. -/
theorem productive_one : Productive 1 := ⟨[], Language.nil_mem_one⟩

theorem productive_oneOf (kind : TokenKind) (kinds : List TokenKind) :
    Productive (oneOf (kind :: kinds)) :=
  ⟨[kind], kind, List.mem_cons_self, rfl⟩

/-- Repeating nothing is a word. -/
theorem productive_star (L : Language TokenKind) : Productive L∗ := ⟨[], Language.nil_mem_kstar L⟩

/-- Of two languages in sequence, each has to have a word; of alternatives, by `Productive.add`,
one is enough. -/
theorem Productive.mul (hL : Productive L) (hM : Productive M) : Productive (L * M) := by
  obtain ⟨u, hu⟩ := hL
  obtain ⟨v, hv⟩ := hM
  exact ⟨u ++ v, Language.append_mem_mul hu hv⟩

theorem Productive.add (hL : Productive L) (M : Language TokenKind) : Productive (L + M) := by
  obtain ⟨w, hw⟩ := hL
  exact ⟨w, .inl hw⟩

/-! ### First tokens -/

/-- No word of `C` begins with a token of `F`. -/
def Avoids (C : Language TokenKind) (F : Set TokenKind) : Prop :=
  ∀ kind ∈ F, ∀ z, kind :: z ∉ C

/-- Every word of `L` begins with a token of `S`. -/
def Headed (L : Language TokenKind) (S : Set TokenKind) : Prop :=
  ∀ w ∈ L, ∃ kind ∈ S, ∃ z, w = kind :: z

theorem headed_oneOf (kinds : List TokenKind) : Headed (oneOf kinds) {k | k ∈ kinds} := by
  rintro w ⟨kind, hkind, rfl⟩
  exact ⟨kind, hkind, [], rfl⟩

/-- Every word of `L` has a first token, so what stands behind it does not matter. -/
theorem Headed.mul (h : Headed L S) (M : Language TokenKind) : Headed (L * M) S := by
  rintro w hw
  obtain ⟨u, hu, v, -, rfl⟩ := Language.mem_mul.1 hw
  obtain ⟨kind, hkind, z, rfl⟩ := h u hu
  exact ⟨kind, hkind, z ++ v, rfl⟩

/-- Both alternatives have to begin with tokens of `S`. -/
theorem Headed.add (h : Headed L S) (h' : Headed M S) : Headed (L + M) S := by
  rintro w (hw | hw)
  · exact h w hw
  · exact h' w hw

theorem Headed.mono (h : Headed L S) {T : Set TokenKind} (hST : S ⊆ T) : Headed L T := by
  intro w hw
  obtain ⟨kind, hkind, z, rfl⟩ := h w hw
  exact ⟨kind, hST hkind, z, rfl⟩

/-- A token that begins a word of `L` and more is one of those that begin words of `L`. -/
theorem Headed.mem_of_cons (h : Headed L S) {kind : TokenKind} {z : List TokenKind}
    (hz : kind :: z ∈ L * C) : kind ∈ S := by
  obtain ⟨k, hk, z', heq⟩ := h.mul C _ hz
  obtain ⟨rfl, -⟩ := List.cons.inj heq
  exact hk

theorem Headed.ne_nil (h : Headed L S) {w : List TokenKind} (hw : w ∈ L) : w ≠ [] := by
  obtain ⟨kind, -, z, rfl⟩ := h w hw
  exact List.cons_ne_nil kind z

/-- What comes behind a word of `L` being no token of `G`, the whole begins with no token
of `F`. -/
def Separates (L : Language TokenKind) (G F : Set TokenKind) : Prop :=
  ∀ ⦃C : Language TokenKind⦄, Avoids C G → Avoids (L * C) F

/-- A language whose words begin outside of `F` keeps `F` away, whatever comes behind. -/
theorem Headed.separates (h : Headed L S) (hF : ∀ kind ∈ S, kind ∉ F) (G : Set TokenKind) :
    Separates L G F := by
  intro C _ kind hkind z hz
  exact hF kind (h.mem_of_cons hz) hkind

/-- Where nothing stands between, what comes behind has to be told apart by itself. -/
theorem separates_one (h : F ⊆ G) : Separates 1 G F := by
  intro C hC kind hkind z hz
  rw [one_mul] at hz
  exact hC kind (h hkind) z hz

theorem separates_empty (L : Language TokenKind) (G : Set TokenKind) : Separates L G ∅ :=
  fun _ _ _ hkind => absurd hkind (Set.notMem_empty _)

/-- Both alternatives have to keep `F` away. -/
theorem Separates.add (h : Separates L G F) (h' : Separates M G F) : Separates (L + M) G F := by
  intro C hC kind hkind z hz
  rw [add_mul] at hz
  rcases hz with hz | hz
  · exact h hC kind hkind z hz
  · exact h' hC kind hkind z hz

/-- From back to front: `M` keeps `F` away from what comes behind it, and `L` keeps `E` away from
that. -/
theorem Separates.mul {E : Set TokenKind} (h : Separates L F E) (h' : Separates M G F) :
    Separates (L * M) G E := by
  intro C hC
  rw [mul_assoc]
  exact h (h' hC)

/-- Any number of words that begin with no token of `F`. -/
theorem Headed.separates_star (h : Headed L S) (hF : ∀ kind ∈ S, kind ∉ F) (hFG : F ⊆ G) :
    Separates L∗ G F := by
  rw [← Language.one_add_self_mul_kstar_eq_kstar]
  exact (separates_one hFG).add ((h.mul _).separates hF G)

/-! ### After some tokens -/

/-- The tokens `used` are a word of `L`, and with `next` behind them they are all of it:
whatever word of `L` and more begins with these tokens goes on with the more from `next`. -/
structure Completes (L : Language TokenKind) (F : Set TokenKind) (used : List TokenKind)
    (next : TokenKind) : Prop where
  mem : used ∈ L
  follows {C : Language TokenKind} (hC : Avoids C F) {z : List TokenKind} :
    used ++ next :: z ∈ L * C → next :: z ∈ C

/-- No word of `L` and more begins with the tokens `used` and then `found`. -/
def Excludes (L : Language TokenKind) (F : Set TokenKind) (used : List TokenKind)
    (found : TokenKind) : Prop :=
  ∀ ⦃C : Language TokenKind⦄, Avoids C F → ∀ z, used ++ found :: z ∉ L * C

/-- Some token that the expectation admits leads on from `used` to a word of `L`. -/
def Awaits (L : Language TokenKind) (used : List TokenKind) (expected : Expectation) : Prop :=
  ∃ kind z, expected.Admits kind ∧ used ++ kind :: z ∈ L

variable {used rest : List TokenKind} {next found kind : TokenKind} {expected : Expectation}

/-- Nothing was read, and nothing more is possible. -/
theorem completes_one (F : Set TokenKind) (next : TokenKind) : Completes 1 F [] next where
  mem := Language.nil_mem_one
  follows _ _ h := by simpa using h

theorem completes_oneOf {kinds : List TokenKind} (h : kind ∈ kinds) (F : Set TokenKind)
    (next : TokenKind) : Completes (oneOf kinds) F [kind] next where
  mem := ⟨kind, h, rfl⟩
  follows _ z hz := by
    obtain ⟨u, ⟨k, -, rfl⟩, v, hv, heq⟩ := Language.mem_mul.1 hz
    obtain ⟨-, rfl⟩ := List.cons.inj heq
    exact hv

/-- A token of another class is no word. -/
theorem excludes_oneOf {kinds : List TokenKind} (h : found ∉ kinds) (F : Set TokenKind) :
    Excludes (oneOf kinds) F [] found :=
  fun _ _ _ hz => h ((headed_oneOf kinds).mem_of_cons hz)

/-- A token that no word begins with cannot go on from nothing. -/
theorem Headed.excludes (h : Headed L S) (hfound : found ∉ S) (F : Set TokenKind) :
    Excludes L F [] found :=
  fun _ _ _ hz => hfound (h.mem_of_cons hz)

/-- A list that ends with `next` and begins with `kind`, whatever stands behind it. -/
theorem append_cons_eq_cons {w : List TokenKind} (h : (w ++ [next]).head? = some kind)
    (z : List TokenKind) : ∃ z', w ++ next :: z = kind :: z' := by
  cases w with
  | nil =>
    obtain rfl := Option.some.inj h
    exact ⟨z, rfl⟩
  | cons k w =>
    obtain rfl := Option.some.inj h
    exact ⟨w ++ next :: z, rfl⟩

/-! ### One language after the other -/

section Sequence

variable (hsep : Separates M G F)
include hsep

/-- One language is complete where the other one begins: `kind` is the token seen there, which is
the first of `rest`, or `next` if `rest` is empty. -/
theorem Completes.mul (h : Completes L F used kind) (h' : Completes M G rest next)
    (hkind : (rest ++ [next]).head? = some kind) : Completes (L * M) G (used ++ rest) next where
  mem := Language.append_mem_mul h.mem h'.mem
  follows {C} hC z hz := by
    rw [List.append_assoc, mul_assoc] at hz
    -- The second part begins with the token that the first one is complete before.
    obtain ⟨z', hz'⟩ := append_cons_eq_cons hkind z
    rw [hz'] at hz
    have hrest := h.follows (hsep hC) hz
    rw [← hz'] at hrest
    exact h'.follows hC hrest

/-- If no word of `L` goes on like this, none of `L * M` does: what stands behind `L` is `M * C`.
-/
theorem Excludes.mul_left (h : Excludes L F used found) : Excludes (L * M) G used found := by
  intro C hC z hz
  rw [mul_assoc] at hz
  exact h (hsep hC) z hz

/-- Where `L` is complete, what `M` excludes is excluded; compare `Completes.mul`. -/
theorem Completes.excludes_mul (h : Completes L F used kind) (h' : Excludes M G rest found)
    (hkind : (rest ++ [found]).head? = some kind) :
    Excludes (L * M) G (used ++ rest) found := by
  intro C hC z hz
  rw [List.append_assoc, mul_assoc] at hz
  obtain ⟨z', hz'⟩ := append_cons_eq_cons hkind z
  rw [hz'] at hz
  have hrest := h.follows (hsep hC) hz
  rw [← hz'] at hrest
  exact h' hC z hrest

end Sequence

/-- What leads on to a word of `L` leads on to one of `L * M`, if `M` has any. -/
theorem Awaits.mul_left (h : Awaits L used expected) (hM : Productive M) :
    Awaits (L * M) used expected := by
  obtain ⟨kind, z, hkind, hz⟩ := h
  obtain ⟨w, hw⟩ := hM
  refine ⟨kind, z ++ w, hkind, ?_⟩
  have := Language.append_mem_mul hz hw
  rwa [List.append_assoc] at this

/-- Behind a word of `L`, what leads on in `M` leads on in `L * M`. -/
theorem Awaits.mul_right (hused : used ∈ L) (h : Awaits M rest expected) :
    Awaits (L * M) (used ++ rest) expected := by
  obtain ⟨kind, z, hkind, hz⟩ := h
  refine ⟨kind, z, hkind, ?_⟩
  rw [List.append_assoc]
  exact Language.append_mem_mul hused hz

/-- What begins the words of a language may be expected before any of them. -/
theorem awaits_of_headed (hL : Productive L) (h : Headed L S)
    (hadmits : ∀ kind z, kind :: z ∈ L → expected.Admits kind) : Awaits L [] expected := by
  obtain ⟨w, hw⟩ := hL
  obtain ⟨kind, -, z, rfl⟩ := h w hw
  exact ⟨kind, z, hadmits kind z hw, hw⟩

/-! ### One language among others -/

/-- A word of `M` and more that begins with `kind` is a word of `L` and more. -/
structure Selects (kind : TokenKind) (L M : Language TokenKind) (F : Set TokenKind) : Prop where
  mem : ∀ w ∈ L, w ∈ M
  only {C : Language TokenKind} (hC : Avoids C F) {z : List TokenKind} :
    kind :: z ∈ M * C → kind :: z ∈ L * C

namespace Selects

/-- The second alternative cannot begin with the token. -/
theorem left (h : Headed M S) (hkind : kind ∉ S) (L : Language TokenKind) (F : Set TokenKind) :
    Selects kind L (L + M) F where
  mem _ hw := .inl hw
  only _ z hz := by
    rw [add_mul] at hz
    exact hz.resolve_right fun hz => hkind (h.mem_of_cons hz)

/-- The first alternative cannot begin with the token. -/
theorem right (h : Headed L S) (hkind : kind ∉ S) (M : Language TokenKind) (F : Set TokenKind) :
    Selects kind M (L + M) F where
  mem _ hw := .inr hw
  only _ z hz := by
    rw [add_mul] at hz
    exact hz.resolve_left fun hz => hkind (h.mem_of_cons hz)

/-- The token cannot begin what follows the first alternative either. -/
theorem right_of_separates (h : Separates L F G) (hkind : kind ∈ G) (M : Language TokenKind) :
    Selects kind M (L + M) F where
  mem _ hw := .inr hw
  only hC z hz := by
    rw [add_mul] at hz
    exact hz.resolve_left (h hC kind hkind z)

/-- What may be left out is there, since the token cannot come behind. -/
theorem present (hkind : kind ∈ F) (L : Language TokenKind) : Selects kind L (1 + L) F :=
  right_of_separates (separates_one subset_rfl) hkind L

/-- A language of which only the words that begin with `kind` are known. -/
theorem of_forall (hLM : ∀ w ∈ L, w ∈ M) (hM : Headed M S) (h : ∀ z, kind :: z ∈ M → kind :: z ∈ L)
    (F : Set TokenKind) : Selects kind L M F where
  mem := hLM
  only _ z hz := by
    obtain ⟨u, hu, v, hv, heq⟩ := Language.mem_mul.1 hz
    obtain ⟨k, -, z', rfl⟩ := hM u hu
    obtain ⟨rfl, -⟩ := List.cons.inj heq
    rw [← heq]
    exact Language.append_mem_mul (h z' hu) hv

/-- A choice among alternatives may be made step by step: from `N` to `M`, and from there to `L`.
-/
theorem trans {N : Language TokenKind} (h : Selects kind L M F) (h' : Selects kind M N F) :
    Selects kind L N F where
  mem w hw := h'.mem w (h.mem w hw)
  only hC _ hz := h.only hC (h'.only hC hz)

end Selects

section Widen

variable (hsel : Selects kind L M F)
include hsel

/-- What is complete for the alternative that `kind` selects is complete for all of them: the
first token is the one that was seen. -/
theorem Completes.widen (h : Completes L F used next)
    (hkind : (used ++ [next]).head? = some kind) : Completes M F used next where
  mem := hsel.mem _ h.mem
  follows hC z hz := by
    obtain ⟨z', hz'⟩ := append_cons_eq_cons hkind z
    rw [hz'] at hz
    have hselected := hsel.only hC hz
    rw [← hz'] at hselected
    exact h.follows hC hselected

/-- As `Completes.widen`, for what is excluded. -/
theorem Excludes.widen (h : Excludes L F used found)
    (hkind : (used ++ [found]).head? = some kind) : Excludes M F used found := by
  intro C hC z hz
  obtain ⟨z', hz'⟩ := append_cons_eq_cons hkind z
  rw [hz'] at hz
  have hselected := hsel.only hC hz
  rw [← hz'] at hselected
  exact h hC z hselected

end Widen

/-- What leads on in the alternative `L` leads on in all of `M`. -/
theorem Awaits.mono (h : Awaits L used expected) (hLM : ∀ w ∈ L, w ∈ M) :
    Awaits M used expected := by
  obtain ⟨kind, z, hkind, hz⟩ := h
  exact ⟨kind, z, hkind, hLM _ hz⟩

theorem Avoids.mono (h : Avoids C G) (hFG : F ⊆ G) : Avoids C F :=
  fun kind hkind => h kind (hFG hkind)

/-- The larger `G` is, the more tokens are kept from what comes behind, and the less is to be
shown. -/
theorem Completes.mono (h : Completes L F used next) (hFG : F ⊆ G) : Completes L G used next where
  mem := h.mem
  follows hC _ hz := h.follows (hC.mono hFG) hz

/-- As `Completes.mono`. -/
theorem Excludes.mono (h : Excludes L F used found) (hFG : F ⊆ G) : Excludes L G used found :=
  fun _ hC => h (hC.mono hFG)

/-- Where a word can be made longer by `next` and more, it is not complete before `next`. -/
theorem Completes.next_ne (h : Completes L F used next) {z : List TokenKind}
    (hlonger : ∀ w ∈ L, w ++ kind :: z ∈ L) : next ≠ kind := by
  rintro rfl
  -- With nothing behind the language, the longer word would leave something over.
  have hone : Avoids 1 F := fun k _ z hz => List.cons_ne_nil k z hz
  have hword : used ++ next :: z ∈ L * 1 := by
    rw [mul_one]
    exact hlonger used h.mem
  exact List.cons_ne_nil next z (h.follows hone hword)

end Grammar

end DrLang
