import DrLang.Proofs.Lookahead
import DrLang.Proofs.Silent

/-!
# Steps that read a language

A step of a parse reads a language if, wherever it succeeds, the tokens that it took are a
word of the language with nothing more to it, and wherever it fails, the token it blames is
the first one that no word goes on with. The two statements of `DrLang.Proofs.Lookahead`
about languages in sequence then say the same of steps in sequence.

- `Ready`: a state from which the end of the input is ahead, with so many tokens before it.
- `Reads`: a step reads a language from a state.
- `Reads.bind`, `Reads.expect_bind`, `Reads.advance_bind`: steps in sequence.
- `Reads.widen`: a step that reads the alternative which the current token selects.
-/

namespace DrLang

open Grammar

/-- The classes of the tokens of a list. -/
abbrev kindsOf (tokens : List Token) : List TokenKind :=
  tokens.map Token.kind

/-- A state in which the end of the input is the last token ahead, and fewer than `bound`
tokens follow the current one. -/
structure Ready (bound : Nat) (s : Parser) : Prop where
  ends : s.cursor.tokens.getLast?.map Token.kind = some .eof
  fits : s.cursor.remaining < bound

namespace Ready

variable {bound : Nat} {s s' : Parser}

theorem mono (h : Ready bound s) {bound' : Nat} (hle : bound ≤ bound') : Ready bound' s where
  ends := h.ends
  fits := Nat.lt_of_lt_of_le h.fits hle

/-- `Ready` is about the cursor alone. -/
theorem of_cursor_eq (h : Ready bound s) (heq : s'.cursor = s.cursor) : Ready bound s' where
  ends := heq ▸ h.ends
  fits := heq ▸ h.fits

section Used

variable {used : List Token} (heq : s.cursor.tokens = used ++ s'.cursor.tokens)
include heq

/-- What was taken off the front leaves the end of the input where it was. -/
theorem ends_of_append (h : Ready bound s) :
    s'.cursor.tokens.getLast?.map Token.kind = some .eof := by
  have hends := h.ends
  rw [heq, Cursor.tokens, List.getLast?_append] at hends
  simpa [Cursor.tokens] using hends

/-- What is taken is no longer ahead; the current token is not counted. -/
theorem remaining_of_append : s.cursor.remaining = used.length + s'.cursor.remaining := by
  have hlength := congrArg List.length heq
  simp only [Cursor.tokens, Cursor.remaining, List.length_append, List.length_cons] at *
  omega

/-- The end of the input stays ahead, whatever is taken before it, so a state is no less `Ready`.
-/
theorem of_append (h : Ready bound s) : Ready bound s' where
  ends := h.ends_of_append heq
  fits := by
    have := remaining_of_append heq
    have := h.fits
    omega

/-- If some token was taken, one token less follows. -/
theorem of_ne_nil (h : Ready (bound + 1) s) (hne : used ≠ []) : Ready bound s' where
  ends := h.ends_of_append heq
  fits := by
    have := remaining_of_append heq
    have := h.fits
    have := List.length_pos_iff.2 hne
    omega

/-- If a word of a language was taken that has no empty word, one token less follows. `Headed` is
how such languages are told. -/
theorem of_headed (h : Ready (bound + 1) s) {L : Language TokenKind} {S : Set TokenKind}
    (hL : Headed L S) (hused : kindsOf used ∈ L) : Ready bound s' := by
  refine h.of_ne_nil heq ?_
  rintro rfl
  exact hL.ne_nil hused rfl

end Used

/-- Where the current token is not the end of the input, another one follows. -/
theorem tokens_eq (h : Ready bound s) (hkind : s.cursor.current.kind ≠ .eof) :
    s.cursor.tokens = s.cursor.current :: s.cursor.advance.tokens := by
  obtain ⟨⟨current, rest⟩, symbols, diagnostics, entryPoint?, log⟩ := s
  cases rest with
  | nil => exact absurd (by simpa [Cursor.tokens] using h.ends) hkind
  | cons next rest => rfl

/-- Past a token that is not the end of the input, one token less follows. -/
theorem advance (h : Ready (bound + 1) s) (hkind : s.cursor.current.kind ≠ .eof) :
    Ready bound { s with cursor := s.cursor.advance } where
  ends := by
    rw [Cursor.getLast_tokens_advance]
    exact h.ends
  fits := by
    have hlength := congrArg List.length (h.tokens_eq hkind)
    have hfits := h.fits
    simp only [Cursor.tokens, Cursor.remaining, List.length_cons] at *
    omega

/-- A move leaves a state as `Ready` as it was. -/
theorem advance_same (h : Ready bound s) (hkind : s.cursor.current.kind ≠ .eof) :
    Ready bound { s with cursor := s.cursor.advance } :=
  (h.mono (Nat.le_succ bound)).advance hkind

/-- The token after the current one is the current one of the next state. -/
theorem peekKind_eq (h : Ready bound s) (hkind : s.cursor.current.kind ≠ .eof) :
    s.cursor.peekKind = s.cursor.advance.current.kind := by
  obtain ⟨⟨current, rest⟩, symbols, diagnostics, entryPoint?, log⟩ := s
  cases rest with
  | nil => exact absurd (by simpa [Cursor.tokens] using h.ends) hkind
  | cons next rest => rfl

end Ready

/-- From a state, a step reads a language that no token of `F` may follow. Where it fails, it
stands at the token that it blames. -/
structure Reads {α : Type} (p : Parse α) (s : Parser) (L : Language TokenKind)
    (F : Set TokenKind) : Prop where
  accepted {a : α} {s' : Parser} (run : p.runFrom s = (.ok a, s')) :
    ∃ used, s.cursor.tokens = used ++ s'.cursor.tokens ∧
      Completes L F (kindsOf used) s'.cursor.current.kind
  refused {e : FatalError} {s' : Parser} (run : p.runFrom s = (.error e, s')) :
    ∃ used expected, s.cursor.tokens = used ++ s'.cursor.tokens ∧
      e = .atToken expected s'.cursor.current ∧ Awaits L (kindsOf used) expected ∧
      Excludes L F (kindsOf used) s'.cursor.current.kind

namespace Reads

variable {α β : Type} {p : Parse α} {f : α → Parse β} {bound : Nat} {s : Parser}
  {L M : Language TokenKind} {F G : Set TokenKind} {kind : TokenKind}

/-- The tokens read and the next one begin with the current token, as `Completes` asks. -/
theorem head?_kindsOf {c : Cursor} {used ahead : List Token} {next : Token}
    (h : c.tokens = used ++ next :: ahead) :
    (kindsOf used ++ [next.kind]).head? = some c.current.kind := by
  cases used with
  | nil =>
    obtain ⟨rfl, -⟩ := List.cons.inj h
    rfl
  | cons first used =>
    obtain ⟨rfl, -⟩ := List.cons.inj h
    rfl

/-! ### From one step to another -/

theorem congr {q : Parse α} (heq : p.runFrom s = q.runFrom s) (h : Reads q s L F) :
    Reads p s L F where
  accepted run := h.accepted (heq ▸ run)
  refused run := h.refused (heq ▸ run)

theorem mono (h : Reads p s L F) (hFG : F ⊆ G) : Reads p s L G where
  accepted run := by
    obtain ⟨used, heq, hused⟩ := h.accepted run
    exact ⟨used, heq, hused.mono hFG⟩
  refused run := by
    obtain ⟨used, expected, heq, he, hawaits, hexcludes⟩ := h.refused run
    exact ⟨used, expected, heq, he, hawaits, hexcludes.mono hFG⟩

/-- Which alternative is read is seen from the current token, by `Selects`; so the step reads all
of them. -/
theorem widen (h : Reads p s L F) (hsel : Selects s.cursor.current.kind L M F) :
    Reads p s M F where
  accepted run := by
    obtain ⟨used, heq, hused⟩ := h.accepted run
    exact ⟨used, heq, hused.widen hsel (head?_kindsOf heq)⟩
  refused run := by
    obtain ⟨used, expected, heq, he, hawaits, hexcludes⟩ := h.refused run
    exact ⟨used, expected, heq, he, hawaits.mono hsel.mem,
      hexcludes.widen hsel (head?_kindsOf heq)⟩

/-! ### Steps in sequence -/

/-- A step and what follows it. What can follow in `M` must not go on with a word of `L`, which
`Separates` excludes. -/
theorem bind (hp : Reads p s L F)
    (hf : ∀ a s', p.runFrom s = (.ok a, s') → ∀ used, s.cursor.tokens = used ++ s'.cursor.tokens →
      Completes L F (kindsOf used) s'.cursor.current.kind → Reads (f a) s' M G)
    (hM : Productive M) (hsep : Separates M G F) : Reads (p >>= f) s (L * M) G where
  accepted {b s''} run := by
    rw [Parse.runFrom_bind] at run
    split at run
    case h_1 a s' hrun =>
      obtain ⟨used, heq, hused⟩ := hp.accepted hrun
      obtain ⟨rest, heq', hrest⟩ := (hf a s' hrun used heq hused).accepted run
      refine ⟨used ++ rest, by rw [heq, heq', List.append_assoc], ?_⟩
      rw [kindsOf, List.map_append]
      exact hused.mul hsep hrest (head?_kindsOf heq')
    case h_2 => simp at run
  refused {e s''} run := by
    rw [Parse.runFrom_bind] at run
    split at run
    case h_1 a s' hrun =>
      obtain ⟨used, heq, hused⟩ := hp.accepted hrun
      obtain ⟨rest, expected, heq', he, hawaits, hexcludes⟩ :=
        (hf a s' hrun used heq hused).refused run
      refine ⟨used ++ rest, expected, by rw [heq, heq', List.append_assoc], he, ?_⟩
      rw [kindsOf, List.map_append]
      -- What `f a` awaits is awaited behind the word of `p`, and `p` has no longer word to go on
      -- with.
      exact ⟨hawaits.mul_right hused.mem, hused.excludes_mul hsep hexcludes (head?_kindsOf heq')⟩
    case h_2 e' s' hrun =>
      obtain ⟨he', rfl⟩ := Prod.mk.inj run
      obtain rfl := Except.error.inj he'
      obtain ⟨used, expected, heq, he, hawaits, hexcludes⟩ := hp.refused hrun
      -- `p` itself failed: something of `M` can always follow what it awaited.
      exact ⟨used, expected, heq, he, hawaits.mul_left hM, hexcludes.mul_left hsep⟩

/-- Nothing read. -/
theorem pure (a : α) (s : Parser) (F : Set TokenKind) : Reads (pure a) s 1 F where
  accepted run := by
    obtain ⟨-, rfl⟩ := Prod.mk.inj run
    exact ⟨[], rfl, completes_one F _⟩
  refused run := by simp at run

/-- A `Silent` step before a step that reads. -/
theorem silent_bind (hp : Parse.Silent p) (hf : ∀ a s', s'.cursor = s.cursor → Reads (f a) s' L F) :
    Reads (p >>= f) s L F := by
  obtain ⟨a, n', hrun, -⟩ := hp.yields s
  have hread := hf a (n'.at s.cursor) rfl
  have hbind : (p >>= f).runFrom s = (f a).runFrom (n'.at s.cursor) := by
    rw [Parse.runFrom_bind, hrun]
  exact ⟨fun run => hread.accepted (hbind ▸ run), fun run => hread.refused (hbind ▸ run)⟩

/-- A `Silent` step reads nothing: the language is `1`. -/
theorem silent (hp : Parse.Silent p) (s : Parser) (F : Set TokenKind) : Reads p s 1 F := by
  obtain ⟨a, n', hrun, -⟩ := hp.yields s
  constructor
  · intro a' s' run
    obtain ⟨-, rfl⟩ := Prod.mk.inj (hrun.symm.trans run)
    exact ⟨[], rfl, completes_one F _⟩
  · intro e s' run
    obtain ⟨hok, -⟩ := Prod.mk.inj (hrun.symm.trans run)
    simp at hok

/-- A step that reads before `Silent` ones. -/
theorem bind_silent (hp : Reads p s L F) (hf : ∀ a, Parse.Silent (f a)) :
    Reads (p >>= f) s L F := by
  rw [← mul_one L]
  exact hp.bind (fun a s' _ _ _ _ => silent (hf a) s' F) productive_one (separates_one subset_rfl)

/-! ### Looking at tokens -/

theorem currentKind_bind {f : TokenKind → Parse β} (h : Reads (f s.cursor.current.kind) s L F) :
    Reads (Parse.currentKind >>= f) s L F :=
  h.congr (Parse.runFrom_currentKind_bind s f)

theorem peekKind_bind {f : TokenKind → Parse β} (h : Reads (f s.cursor.peekKind) s L F) :
    Reads (Parse.peekKind >>= f) s L F :=
  h.congr (Parse.runFrom_peekKind_bind s f)

theorem remaining_bind {f : Nat → Parse β} (h : Reads (f s.cursor.remaining) s L F) :
    Reads (Parse.remaining >>= f) s L F :=
  h.congr (Parse.runFrom_remaining_bind s f)

/-! ### Taking a token -/

/-- A failure at the current token. -/
theorem unexpected {expected : Expectation} (hawaits : Awaits L [] expected)
    (hexcludes : Excludes L F [] s.cursor.current.kind) :
    Reads (Parse.unexpected expected : Parse α) s L F where
  accepted run := by simp at run
  refused run := by
    obtain ⟨he, rfl⟩ := Prod.mk.inj run
    exact ⟨[], expected, rfl, (Except.error.inj he).symm, hawaits, hexcludes⟩

/-- Taking a token of one of the classes that may stand here. -/
theorem advance {kinds : List TokenKind} (hs : Ready bound s)
    (hkind : s.cursor.current.kind ∈ kinds) (heof : .eof ∉ kinds) (F : Set TokenKind) :
    Reads Parse.advance s (oneOf kinds) F where
  accepted run := by
    obtain ⟨-, rfl⟩ := Prod.mk.inj run
    exact ⟨[s.cursor.current], hs.tokens_eq (ne_of_mem_of_not_mem hkind heof),
      completes_oneOf hkind F _⟩
  refused run := by simp at run

/-- Taking a token of the one class that may stand here, if it does. -/
theorem expect (hs : Ready bound s) (hkind : kind ≠ .eof) (F : Set TokenKind) :
    Reads (Parse.expect kind) s (oneOf [kind]) F := by
  by_cases h : s.cursor.current.kind = kind
  · refine (advance hs (List.mem_singleton.2 h) (by simpa using hkind.symm) F).congr ?_
    rw [Parse.runFrom_expect, if_pos h, Parse.runFrom_advance]
  · have hawaits : Awaits (oneOf [kind]) [] (.token kind) :=
      ⟨kind, [], rfl, kind, List.mem_singleton_self kind, rfl⟩
    have hexcludes : Excludes (oneOf [kind]) F [] s.cursor.current.kind :=
      excludes_oneOf (by simpa using h) F
    refine (unexpected hawaits hexcludes).congr ?_
    rw [Parse.runFrom_expect, if_neg h, Parse.runFrom_unexpected]

/-- A step and the token that closes it. -/
theorem bind_expect {f : α → Token → Parse β} (hp : Reads p s L F) (hs : Ready bound s)
    (hkind : kind ≠ .eof) (hF : kind ∉ F) (hf : ∀ a token, Parse.Silent (f a token)) :
    Reads (p >>= fun a => Parse.expect kind >>= f a) s (L * oneOf [kind]) G := by
  refine hp.bind (fun a s' _ used heq _ => ?_) (productive_oneOf _ _)
    ((headed_oneOf _).separates (by simpa using hF) _)
  exact (expect (hs.of_append heq) hkind G).bind_silent (hf a)

/-- A token and what follows it. What follows it starts from the next token. -/
theorem advance_bind {kinds : List TokenKind} {f : Token → Parse β} (hs : Ready bound s)
    (hkind : s.cursor.current.kind ∈ kinds) (heof : .eof ∉ kinds)
    (hf : Ready bound { s with cursor := s.cursor.advance } →
      Reads (f s.cursor.current) { s with cursor := s.cursor.advance } L F)
    (hL : Productive L) : Reads (Parse.advance >>= f) s (oneOf kinds * L) F := by
  refine (advance hs hkind heof ∅).bind (fun a s' run _ _ _ => ?_) hL (separates_empty L F)
  obtain ⟨hok, rfl⟩ := Prod.mk.inj run
  obtain rfl := Except.ok.inj hok
  exact hf (hs.advance_same (ne_of_mem_of_not_mem hkind heof))

/-- A required token and what follows it. -/
theorem expect_bind {f : Token → Parse β} (hs : Ready bound s) (hkind : kind ≠ .eof)
    (hf : s.cursor.current.kind = kind → Ready bound { s with cursor := s.cursor.advance } →
      Reads (f s.cursor.current) { s with cursor := s.cursor.advance } L F)
    (hL : Productive L) : Reads (Parse.expect kind >>= f) s (oneOf [kind] * L) F := by
  refine (expect hs hkind ∅).bind (fun a s' run _ _ _ => ?_) hL (separates_empty L F)
  rw [Parse.runFrom_expect] at run
  split at run
  case isTrue h =>
    obtain ⟨hok, rfl⟩ := Prod.mk.inj run
    obtain rfl := Except.ok.inj hok
    exact hf h (hs.advance_same (h ▸ hkind))
  case isFalse => simp at run

end Reads

end DrLang
