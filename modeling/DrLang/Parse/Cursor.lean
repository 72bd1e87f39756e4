import DrLang.Token

/-!
# The cursor

The place in a token list where parsing stands. There is always a current token, and
the last token of the list, which closes the input, is never left behind.

- `Cursor.ofTokens`: the first token of a list, closed if it was not.
- `Cursor.advance`: moves past the current token, unless it is the last.
-/

namespace DrLang

/-- The current token and the tokens after it. -/
structure Cursor where
  current : Token
  rest : List Token
deriving DecidableEq, Repr, Inhabited

namespace Cursor

/-- A token list that ends with the end of input; a list that does not is closed on
the line of its last token. -/
def closed (tokens : List Token) : List Token :=
  match tokens.getLast? with
  | none => [.endOfInput 1]
  | some last => if last.kind = .eof then tokens else tokens ++ [.endOfInput last.line]

/-- The start of a token list. -/
def ofTokens (tokens : List Token) : Cursor :=
  match closed tokens with
  | [] => ⟨.endOfInput 1, []⟩
  | first :: rest => ⟨first, rest⟩

/-- The current token and all tokens after it. -/
def tokens (c : Cursor) : List Token :=
  c.current :: c.rest

/-- The class of the token after the current one; the last token is followed by
itself. -/
def peekKind (c : Cursor) : TokenKind :=
  match c.rest with
  | [] => c.current.kind
  | next :: _ => next.kind

/-- The cursor past the current token, or the same if that is the last. -/
def advance (c : Cursor) : Cursor :=
  match c.rest with
  | [] => c
  | next :: rest => ⟨next, rest⟩

/-- The number of tokens after the current one. -/
def remaining (c : Cursor) : Nat :=
  c.rest.length

/-! ### Moving on -/

/-- What lies ahead after a move lay ahead before it. -/
theorem tokens_advance_suffix (c : Cursor) : c.advance.tokens <:+ c.tokens := by
  obtain ⟨current, rest⟩ := c
  cases rest with
  | nil => exact List.suffix_refl _
  | cons next rest => exact List.suffix_cons _ _

/-- A move keeps the last token in sight. -/
@[simp] theorem getLast_tokens_advance (c : Cursor) :
    c.advance.tokens.getLast? = c.tokens.getLast? := by
  obtain ⟨current, rest⟩ := c
  cases rest <;> simp [advance, tokens]

/-- A list to parse is never empty. -/
theorem closed_ne_nil (tokens : List Token) : closed tokens ≠ [] := by
  unfold closed
  split
  case h_1 => simp
  case h_2 last h =>
    split
    · rintro rfl
      simp at h
    · simp

/-- From its start, a cursor has all tokens of the closed list ahead. -/
@[simp] theorem tokens_ofTokens (tokens : List Token) :
    (ofTokens tokens).tokens = closed tokens := by
  unfold ofTokens
  split
  case h_1 h => exact absurd h (closed_ne_nil tokens)
  case h_2 first rest h => exact h.symm

end Cursor

end DrLang
