/-!
# Reading a text by bytes

A text is read forward, and how far is counted in bytes of its UTF-8 form. A byte
count may end inside a character or past the end of the text; from there nothing can
be read, but reading on can reach the next character again.

- `splitAtByte?`, `byteSlice?`: the pieces of a text between byte positions.
- `Reader.advance`: moves forward by a number of bytes.
- `Reader.remainder?`: what is left, if the position is a character boundary.
- `Reader.advance_byteLength`: moving over exactly a piece of the text leaves the rest.
-/

namespace DrLang

/-- The number of bytes of a text in UTF-8. -/
def byteLength : List Char → Nat
  | [] => 0
  | c :: cs => c.utf8Size + byteLength cs

@[simp] theorem byteLength_nil : byteLength [] = 0 := rfl

@[simp] theorem byteLength_cons (c : Char) (cs : List Char) :
    byteLength (c :: cs) = c.utf8Size + byteLength cs := rfl

@[simp] theorem byteLength_append (cs ds : List Char) :
    byteLength (cs ++ ds) = byteLength cs + byteLength ds := by
  induction cs with
  | nil => simp
  | cons c cs ih => simp [ih, Nat.add_assoc]

/-- Every character takes at least one byte. -/
theorem length_le_byteLength (cs : List Char) : cs.length ≤ byteLength cs := by
  induction cs with
  | nil => simp
  | cons c cs ih =>
    have := c.utf8Size_pos
    simp only [List.length_cons, byteLength_cons]
    omega

/-! ### Pieces of a text -/

/-- The two pieces into which a byte position splits a text, if it is a character boundary
of the text. -/
def splitAtByte? (n : Nat) : List Char → Option (List Char × List Char)
  | [] => if n = 0 then some ([], []) else none
  | c :: cs =>
    if n = 0 then some ([], c :: cs)
    else if c.utf8Size ≤ n then
      (splitAtByte? (n - c.utf8Size) cs).map fun (front, behind) => (c :: front, behind)
    else none

/-- The piece of a text between two byte positions, if both are character boundaries and the
second one does not stand in front of the first. -/
def byteSlice? (start stop : Nat) (text : List Char) : Option (List Char) :=
  if start ≤ stop then
    (splitAtByte? start text).bind fun (_, behind) =>
      (splitAtByte? (stop - start) behind).map fun (piece, _) => piece
  else none

@[simp] theorem splitAtByte?_zero (cs : List Char) : splitAtByte? 0 cs = some ([], cs) := by
  cases cs <;> rfl

/-- The character boundaries of a text are where its pieces end. -/
@[simp] theorem splitAtByte?_eq_some_iff {n : Nat} {text front behind : List Char} :
    splitAtByte? n text = some (front, behind) ↔
      text = front ++ behind ∧ n = byteLength front := by
  induction text generalizing n front behind with
  | nil => cases front <;> simp [splitAtByte?, eq_comm, and_comm]
  | cons c cs ih =>
    have hc := c.utf8Size_pos
    -- Every character has at least one byte, so the split is at the front just for `n = 0`.
    by_cases hzero : n = 0
    · subst hzero
      cases front with
      | nil => simp [eq_comm]
      | cons d front =>
        have hd := d.utf8Size_pos
        simp [Nat.ne_of_lt (Nat.add_pos_left hd _)]
    · simp only [splitAtByte?, if_neg hzero, Option.ite_none_right_eq_some, Option.map_eq_some_iff,
        Prod.exists, Prod.mk.injEq, ih]
      constructor
      · rintro ⟨hle, front', _, ⟨rfl, hn⟩, rfl, rfl⟩
        exact ⟨rfl, by simp only [byteLength_cons]; omega⟩
      · rintro ⟨htext, rfl⟩
        cases front with
        | nil => exact absurd rfl hzero
        | cons d front =>
          obtain ⟨rfl, rfl⟩ := List.cons.inj htext
          exact ⟨by simp, front, behind, ⟨rfl, by simp⟩, rfl, rfl⟩

/-- The piece of a text that stands between two others. -/
theorem byteSlice?_append (front piece behind : List Char) :
    byteSlice? (byteLength front) (byteLength front + byteLength piece)
      (front ++ (piece ++ behind)) = some piece := by
  have hfront : splitAtByte? (byteLength front) (front ++ (piece ++ behind)) =
      some (front, piece ++ behind) := splitAtByte?_eq_some_iff.2 ⟨rfl, rfl⟩
  have hpiece : splitAtByte? (byteLength piece) (piece ++ behind) = some (piece, behind) :=
    splitAtByte?_eq_some_iff.2 ⟨rfl, rfl⟩
  simp [byteSlice?, hfront, hpiece]

/-! ### Positions -/

/-- A position in a text. -/
structure Reader where
  /-- The number of bytes read. -/
  pos : Nat
  /-- The text from the last character boundary that `pos` has reached. -/
  text : List Char
  /-- The number of bytes of `pos` beyond that boundary: inside the first character
  of `text`, or past the end. -/
  inside : Nat
deriving DecidableEq, Repr, Inhabited

namespace Reader

/-- The start of a text. -/
def ofText (text : List Char) : Reader where
  pos := 0
  text := text
  inside := 0

/-- The last character boundary that lies at most `n` bytes into a text: the text from
there, and the bytes beyond it. -/
def settle : Nat → List Char → List Char × Nat
  | n, [] => ([], n)
  | n, c :: cs => if c.utf8Size ≤ n then settle (n - c.utf8Size) cs else (c :: cs, n)

/-- The position `n` bytes further on. -/
def advance (r : Reader) (n : Nat) : Reader where
  pos := r.pos + n
  text := (settle (r.inside + n) r.text).1
  inside := (settle (r.inside + n) r.text).2

/-- Whether the position is at or past the end. -/
def atEnd (r : Reader) : Bool :=
  r.text.isEmpty

/-- What is left to read, if the position is a character boundary of the text. -/
def remainder? (r : Reader) : Option (List Char) :=
  if r.inside = 0 then some r.text else none

/-- On a character boundary, all of the text at hand is left to read. -/
@[simp] theorem remainder?_mk_zero (pos : Nat) (cs : List Char) :
    (Reader.mk pos cs 0).remainder? = some cs := rfl

/-! ### Positions after a move -/

@[simp] theorem settle_zero (cs : List Char) : settle 0 cs = (cs, 0) := by
  cases cs with
  | nil => rfl
  | cons c cs =>
    have := c.utf8Size_pos
    simp only [settle]
    rw [if_neg (by omega)]

/-- Moving over exactly a piece of the text ends on its boundary. -/
@[simp] theorem settle_byteLength_append (cs ds : List Char) :
    settle (byteLength cs) (cs ++ ds) = (ds, 0) := by
  induction cs with
  | nil => simp
  | cons c cs ih => simp [settle, ih]

/-- Moving over exactly a piece of the text leaves the rest. -/
theorem advance_byteLength (pos : Nat) (cs ds : List Char) :
    (Reader.mk pos (cs ++ ds) 0).advance (byteLength cs) =
      Reader.mk (pos + byteLength cs) ds 0 := by
  simp [advance]

end Reader

end DrLang
