import DrLang.Proofs.Tiling

/-!
# Scans keep to character boundaries

Patterns match characters, and a scan moves by bytes. It starts on a character boundary, and each
turn moves it over exactly what was matched, a byte at least. So it never stands inside a character
or behind the end, and has no more turns than the source has bytes: the bound on the lexemes of a
scan is never what ends it.

- `byteLength_toList`, `isValid_byteLength`: bytes and boundaries as the standard library has them.
- `Scanner.Visits`: the positions of a scan, with the turns and the tokens up to there.
- `Scanner.StandsAt.behind`: what one turn preserves.
- `Scanner.Visits.standsAt`: what all turns do.
- `scan_keeps_to_boundaries`: positions, slices and turns of a scan.
-/

namespace DrLang

/-! ### Bytes -/

/-- `byteLength` is the size that the standard library gives to a text of these characters. -/
theorem utf8ByteSize_ofList (cs : List Char) :
    (String.ofList cs).utf8ByteSize = byteLength cs := by
  induction cs with
  | nil => rfl
  | cons c cs ih =>
    rw [← List.singleton_append, String.ofList_append, String.utf8ByteSize_append, ih,
      ← String.singleton_eq_ofList, String.utf8ByteSize_singleton]
    rfl

theorem byteLength_toList (text : String) : byteLength text.toList = text.utf8ByteSize := by
  rw [← utf8ByteSize_ofList, String.ofList_toList]

/-- A byte position behind a piece of a text is on a boundary of the text, as `IsValid` asks. -/
theorem isValid_byteLength {text : String} {before rest : List Char}
    (h : text.toList = before ++ rest) :
    (String.Pos.Raw.mk (byteLength before)).IsValid text := by
  refine String.Pos.Raw.isValid_iff_exists_append.2
    ⟨String.ofList before, String.ofList rest, ?_, ?_⟩
  · rw [← String.ofList_append, ← h, String.ofList_toList]
  · rw [String.rawEndPos, utf8ByteSize_ofList]

namespace Scanner

/-! ### The turns of a scan -/

/-- The positions that a scan comes to from `s`, each with the number of turns and the tokens
that it has taken to get there. -/
inductive Visits (s : Scanner) : Nat → List Token → Scanner → Prop where
  | start : Visits s 0 [] s
  | turn {n : Nat} {tokens : List Token} {t : Scanner} {p : Pattern} {lexeme : List Char} :
      Visits s n tokens t → t.reader.atEnd = false → t.next? = some (p, lexeme) →
      Visits s (n + 1) (tokens ++ (p.token? lexeme t.line).toList) (t.behind p lexeme)

/-- A scan that has no turn left: it has come to the end, or nothing matches. -/
def Halts (s : Scanner) : Prop :=
  s.reader.atEnd = true ∨ s.next? = none

/-- What a scan without a turn left comes to. -/
def outcome (s : Scanner) : Scan :=
  if s.reader.atEnd then .finished s.line else ⟨[], some s.failure⟩

/-- The scan from a position goes on from each position that it visits. -/
theorem Visits.within_eq {s t : Scanner} {n : Nat} {tokens : List Token} (h : s.Visits n tokens t)
    (bound : Nat) : Scan.within (n + bound) s = (Scan.within bound t).prepend tokens := by
  induction h generalizing bound with
  | start => simp [Scan.prepend]
  | @turn n tokens t p lexeme _ hend hnext ih =>
    rw [Nat.add_assoc, Nat.add_comm 1, ih]
    simp [Scan.within, hend, hnext, Scan.prepend]

/-- A scan without a turn left comes to its `outcome`, for any bound that lets it look for a
lexeme. -/
theorem Halts.within_eq {s : Scanner} (h : s.Halts) {bound : Nat}
    (hbound : s.reader.atEnd = true ∨ 0 < bound) : Scan.within bound s = s.outcome := by
  cases bound with
  | zero => simp_all [Scan.within, outcome]
  | succ bound =>
    unfold Scan.within outcome
    split
    case isTrue => rfl
    case isFalse hend =>
      obtain hend' | hnext := h
      · exact absurd hend' hend
      · rw [hnext]

/-! ### Where a scan stands -/

variable {before rest : List Char} {s : Scanner} {p : Pattern} {lexeme : List Char}

/-- A scan stands on the boundary between what it has read of a source and what is left. -/
structure StandsAt (before rest : List Char) (s : Scanner) : Prop where
  pos : s.reader.pos = byteLength before
  text : s.reader.text = rest
  inside : s.reader.inside = 0

namespace StandsAt

/-- On a boundary, where `inside` is zero, all that is left can be read. -/
theorem remainder? (h : s.StandsAt before rest) : s.reader.remainder? = some rest := by
  rw [Reader.remainder?, if_pos h.inside, h.text]

/-- On a boundary, the next lexeme is the `firstLexeme?` of what is left. -/
theorem next? (h : s.StandsAt before rest) : s.next? = firstLexeme? rest := by
  rw [Scanner.next?, h.remainder?, Option.bind_some]

/-- What matches is what the text at hand begins with, and the scan moves over it. -/
theorem behind (h : s.StandsAt before rest) (hnext : s.next? = some (p, lexeme)) :
    ∃ others, rest = lexeme ++ others ∧ lexeme ∈ p.language ∧ 1 ≤ byteLength lexeme ∧
      (s.behind p lexeme).StandsAt (before ++ lexeme) others := by
  rw [h.next?] at hnext
  obtain ⟨hp, hmem, hlongest⟩ := isLongest_of_firstLexeme? hnext
  obtain ⟨others, rfl⟩ := hlongest.begins
  have hlength := List.length_pos_iff.2 (Pattern.ne_nil_of_mem_language hp hmem)
  obtain ⟨⟨pos, text, inside⟩, line⟩ := s
  obtain ⟨rfl, rfl, rfl⟩ := h
  refine ⟨others, rfl, hmem, Nat.le_trans hlength (length_le_byteLength lexeme), ?_⟩
  rw [behind_lexeme hp hmem]
  exact ⟨by simp, rfl, rfl⟩

end StandsAt

/-- Wherever a scan comes to, it `StandsAt` a boundary of the source, and it has read a byte at
least in each turn. -/
theorem Visits.standsAt {source : List Char} {n : Nat} {tokens : List Token} {s : Scanner}
    (h : (Scanner.start source).Visits n tokens s) :
    ∃ before rest, source = before ++ rest ∧ s.StandsAt before rest ∧ n ≤ byteLength before := by
  induction h with
  | start => exact ⟨[], source, rfl, ⟨rfl, rfl, rfl⟩, Nat.le_refl 0⟩
  | @turn n tokens t p lexeme _ _ hnext ih =>
    obtain ⟨before, rest, rfl, hstands, hturns⟩ := ih
    obtain ⟨others, rfl, -, hpositive, hbehind⟩ := hstands.behind hnext
    refine ⟨before ++ lexeme, others, by simp, hbehind, ?_⟩
    rw [byteLength_append]
    omega

/-- A scan that did not halt would have more turns than there are bytes. -/
theorem exists_visits_halts (source : List Char) :
    ∃ n tokens s, (Scanner.start source).Visits n tokens s ∧ s.Halts := by
  by_contra hnever
  -- If no turn were the last, there would be turns of every number, and each takes a byte.
  have hturns : ∀ n, ∃ tokens s, (Scanner.start source).Visits n tokens s := by
    intro n
    induction n with
    | zero => exact ⟨[], _, .start⟩
    | succ n ih =>
      obtain ⟨tokens, s, hvisits⟩ := ih
      have hgoes : ¬ s.Halts := fun hhalts => hnever ⟨n, tokens, s, hvisits, hhalts⟩
      rw [Halts, not_or, Bool.not_eq_true] at hgoes
      obtain ⟨⟨p, lexeme⟩, hnext⟩ := Option.ne_none_iff_exists'.1 hgoes.2
      exact ⟨_, _, hvisits.turn hgoes.1 hnext⟩
  obtain ⟨tokens, s, hvisits⟩ := hturns (byteLength source + 1)
  obtain ⟨before, rest, rfl, -, hle⟩ := hvisits.standsAt
  rw [byteLength_append] at hle
  omega

end Scanner

/-! ### Whole sources -/

/-- The bytes of a source are enough turns, and one that is left finds where the scan halts, by
`Visits.within_eq`. -/
theorem within_of_visits {source : List Char} {n : Nat} {tokens : List Token} {s : Scanner}
    (h : (Scanner.start source).Visits n tokens s) (hhalts : s.Halts) {bound : Nat}
    (hbound : byteLength source ≤ bound) :
    Scan.within bound (.start source) = s.outcome.prepend tokens := by
  obtain ⟨before, rest, rfl, hstands, hturns⟩ := h.standsAt
  rw [byteLength_append] at hbound
  obtain ⟨left, rfl⟩ := Nat.exists_eq_add_of_le (show n ≤ bound by omega)
  rw [h.within_eq, hhalts.within_eq]
  cases rest with
  | nil => exact .inl (by rw [Reader.atEnd, hstands.text, List.isEmpty_nil])
  | cons c rest =>
    have hpositive := c.utf8Size_pos
    rw [byteLength_cons] at hbound
    exact .inr (by omega)

/-- **Scans keep to character boundaries**: wherever a scan comes to, the byte position is on a
boundary of the source and not behind its end, so what is left is there to be read. What matches is
moved over byte for byte, a fixed text by its own length, and the quotes of a text literal can be
taken off. So the scan halts after no more turns than the source has bytes, and no larger number of
turns makes a difference. -/
theorem scan_keeps_to_boundaries (source : String) :
    (∀ n tokens s, (Scanner.start source.toList).Visits n tokens s →
      n ≤ s.reader.pos ∧ s.reader.pos ≤ source.utf8ByteSize ∧
      (String.Pos.Raw.mk s.reader.pos).IsValid source ∧
      (s.reader.atEnd = true ↔ source.utf8ByteSize ≤ s.reader.pos) ∧
      (∃ before rest, source.toList = before ++ rest ∧ byteLength before = s.reader.pos ∧
        s.reader.remainder? = some rest) ∧
      ∀ p lexeme, s.next? = some (p, lexeme) →
        (s.behind p lexeme).reader.pos = s.reader.pos + byteLength lexeme ∧
        1 ≤ byteLength lexeme ∧ p.stride lexeme = byteLength lexeme ∧
        (∀ text ∈ p.literal?, text.toList = lexeme) ∧
        (p = .quote → ∃ contents, Pattern.contents? lexeme = some contents ∧
          '"' :: (contents ++ ['"']) = lexeme)) ∧
    ∃ n tokens s, (Scanner.start source.toList).Visits n tokens s ∧ s.Halts ∧
      n ≤ source.utf8ByteSize ∧ ∀ bound, source.utf8ByteSize ≤ bound →
        Scan.within bound (.start source.toList) = s.outcome.prepend tokens := by
  constructor
  · intro n tokens s h
    -- Every visited place splits the source into whole characters: each part reads that split.
    obtain ⟨before, rest, hsource, hstands, hturns⟩ := h.standsAt
    have hbytes : source.utf8ByteSize = byteLength before + byteLength rest := by
      rw [← byteLength_toList, hsource, byteLength_append]
    have hlength := length_le_byteLength rest
    refine ⟨?_, ?_, ?_, ?_, ⟨before, rest, hsource, hstands.pos.symm, hstands.remainder?⟩, ?_⟩
    · rw [hstands.pos]
      exact hturns
    · rw [hstands.pos, hbytes]
      exact Nat.le_add_right _ _
    · rw [hstands.pos]
      exact isValid_byteLength hsource
    · rw [Reader.atEnd, hstands.text, hstands.pos, List.isEmpty_iff]
      constructor
      · rintro rfl
        rw [hbytes, byteLength_nil, Nat.add_zero]
      · intro hle
        exact List.length_eq_zero_iff.1 (by omega)
    · intro p lexeme hnext
      -- What a turn takes is a word of its pattern's language, and that fixes the stride.
      obtain ⟨others, -, hmem, hpositive, hbehind⟩ := hstands.behind hnext
      refine ⟨?_, hpositive, Pattern.stride_of_mem_language hmem, fun text htext => ?_, ?_⟩
      · rw [hbehind.pos, hstands.pos, byteLength_append]
      · exact (Pattern.eq_toList_of_literal? htext hmem).symm
      · rintro rfl
        obtain ⟨contents, rfl, -⟩ := Pattern.mem_quote.1 hmem
        exact ⟨contents, Pattern.contents?_quoted contents, rfl⟩
  · obtain ⟨n, tokens, s, hvisits, hhalts⟩ := Scanner.exists_visits_halts source.toList
    obtain ⟨before, rest, hsource, -, hturns⟩ := hvisits.standsAt
    have hbytes := congrArg byteLength hsource
    rw [byteLength_append] at hbytes
    rw [← byteLength_toList]
    exact ⟨n, tokens, s, hvisits, hhalts, by omega, fun _ => within_of_visits hvisits hhalts⟩

/-- A text literal with a character of two bytes in it, and a comment with one of three. -/
def accented : String := "\"é\"//€"

/-- Two turns take it all, and the first of them ends between the two. -/
theorem scan_keeps_to_boundaries_accented :
    ∃ s t, (Scanner.start accented.toList).Visits 1 [⟨.string, "é", 1⟩] s ∧
      (Scanner.start accented.toList).Visits 2 [⟨.string, "é", 1⟩] t ∧
      (String.Pos.Raw.mk s.reader.pos).IsValid accented ∧ s.reader.pos = 4 ∧
      s.reader.remainder? = some ['/', '/', '€'] ∧ t.reader.pos = accented.utf8ByteSize := by
  let s := (Scanner.start accented.toList).behind .quote ['"', 'é', '"']
  have hquote : (Scanner.start accented.toList).next? = some (.quote, ['"', 'é', '"']) := by decide
  have hcomment : s.next? = some (.comment, ['/', '/', '€']) := by decide
  have hs : (Scanner.start accented.toList).Visits 1 [⟨.string, "é", 1⟩] s :=
    .turn .start rfl hquote
  have ht : (Scanner.start accented.toList).Visits 2 [⟨.string, "é", 1⟩]
      (s.behind .comment ['/', '/', '€']) :=
    .turn hs rfl hcomment
  obtain ⟨hvisited, -⟩ := scan_keeps_to_boundaries accented
  obtain ⟨-, -, hvalid, -⟩ := hvisited _ _ _ hs
  obtain ⟨-, hle, -, hend, -⟩ := hvisited _ _ _ ht
  exact ⟨s, _, hs, ht, hvalid, rfl, rfl, Nat.le_antisymm hle (hend.1 rfl)⟩

end DrLang
