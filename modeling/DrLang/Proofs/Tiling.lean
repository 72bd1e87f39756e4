import DrLang.Proofs.Lexemes
import DrLang.Token.Scan

/-!
# Lexemes tile the source

A scan takes the longest lexeme, and goes on behind it, until no pattern matches. What it
took then lies side by side from the start of the source, and the line that it counts is
the number of line feeds on the way. One step and the induction over it carry both.

- `Tiling`: longest lexemes one after the other, with the tokens that they stand for.
- `exists_tiling_within`: what a scan makes of a text.
- `Tiling.unique`: that a text is tiled in one way, up to where nothing matches.
- `tokenize_tiles`: the same of a whole source.
-/

namespace DrLang

/-- Behind the text `before` and in front of the text `rest`, each of the lexemes is the
longest one where it stands, and the tokens are what the lexemes stand for, in order and on
the lines on which they start. -/
inductive Tiling (rest : List Char) : List Char → List (List Char) → List Token → Prop where
  | nil (before : List Char) : Tiling rest before [] []
  | cons {before lexeme : List Char} {lexemes : List (List Char)} {token? : Option Token}
      {tokens : List Token} :
      IsLongest lexemeWords (lexeme ++ (lexemes.flatten ++ rest)) lexeme →
      Denotes (1 + before.count '\n') lexeme token? →
      Tiling rest (before ++ lexeme) lexemes tokens →
      Tiling rest before (lexeme :: lexemes) (token?.toList ++ tokens)

/-- The scan that has read some tokens and has come, on line `line`, to a text where nothing
matches: its end, or a character that is blamed. -/
def Scan.stop (tokens : List Token) (line : Nat) : List Char → Scan
  | [] => ⟨tokens ++ [.endOfInput line], none⟩
  | c :: _ => ⟨tokens, some ⟨line, .unrecognised (String.singleton c)⟩⟩

theorem Scan.prepend_stop (front tokens : List Token) (line : Nat) (rest : List Char) :
    (Scan.stop tokens line rest).prepend front = Scan.stop (front ++ tokens) line rest := by
  cases rest with
  | nil => simp [Scan.stop, Scan.prepend]
  | cons c rest => rfl

/-- No lexeme begins an empty text. -/
theorem not_prefix_nil {w : List Char} (hw : w ∈ lexemeWords) : ¬ w <+: [] := by
  intro h
  obtain ⟨p, hp, hw⟩ := hw
  exact Pattern.ne_nil_of_mem_language hp hw (List.prefix_nil.1 h)

/-- Behind a lexeme that begins the text at hand, a scan stands on the rest of that text, and has
counted the line feeds of the lexeme, by `lineFeeds_of_mem_language`. -/
theorem Scanner.behind_lexeme {p : Pattern} {lexeme : List Char} (hp : p ∈ patterns)
    (h : lexeme ∈ p.language) (pos line : Nat) (rest : List Char) :
    (Scanner.mk ⟨pos, lexeme ++ rest, 0⟩ line).behind p lexeme =
      ⟨⟨pos + byteLength lexeme, rest, 0⟩, line + lexeme.count '\n'⟩ := by
  simp only [behind, Pattern.stride_of_mem_language h, Pattern.lineFeeds_of_mem_language hp h,
    Reader.advance_byteLength]

/-- A scan from any position, with enough steps for the bytes that are left: it tiles the
text as far as anything matches, and stops there. -/
theorem exists_tiling_within (bound pos : Nat) (before text : List Char)
    (hbound : byteLength text ≤ bound) :
    ∃ lexemes tokens rest, text = lexemes.flatten ++ rest ∧ Tiling rest before lexemes tokens ∧
      (∀ w ∈ lexemeWords, ¬ w <+: rest) ∧
      Scan.within bound ⟨⟨pos, text, 0⟩, 1 + before.count '\n'⟩ =
        Scan.stop tokens (1 + (before ++ lexemes.flatten).count '\n') rest := by
  induction bound generalizing pos before text with
  | zero =>
    have hlength := length_le_byteLength text
    obtain rfl : text = [] := List.length_eq_zero_iff.1 (by omega)
    exact ⟨[], [], [], rfl, .nil before, fun w hw => not_prefix_nil hw,
      by simp [Scan.within, Scan.finished, Scan.stop]⟩
  | succ bound ih =>
    cases text with
    | nil =>
      exact ⟨[], [], [], rfl, .nil before, fun w hw => not_prefix_nil hw,
        by simp [Scan.within, Scan.finished, Scan.stop, Reader.atEnd]⟩
    | cons c cs =>
      cases hfirst : firstLexeme? (c :: cs) with
      | none =>
        refine ⟨[], [], c :: cs, rfl, .nil before,
          fun w hw => not_prefix_of_firstLexeme? hfirst hw, ?_⟩
        simp [Scan.within, Scan.stop, Reader.atEnd, Scanner.next?, hfirst, Scanner.failure]
      | some found =>
        obtain ⟨p, lexeme⟩ := found
        obtain ⟨hp, hmem, hlongest⟩ := isLongest_of_firstLexeme? hfirst
        obtain ⟨others, hothers⟩ := hlongest.begins
        -- A lexeme is not empty, so what is left has fewer bytes.
        have hbytes : byteLength others ≤ bound := by
          have hsum := congrArg byteLength hothers
          have hpositive := length_le_byteLength lexeme
          have hlength := List.length_pos_iff.2 (Pattern.ne_nil_of_mem_language hp hmem)
          rw [byteLength_append] at hsum
          omega
        obtain ⟨lexemes, tokens, rest, rfl, htiling, hrest, hscan⟩ :=
          ih (pos + byteLength lexeme) (before ++ lexeme) others hbytes
        refine ⟨lexeme :: lexemes, (p.token? lexeme (1 + before.count '\n')).toList ++ tokens, rest,
          ?_, .cons (hothers ▸ hlongest) (Pattern.denotes_token? hp hmem _) htiling, hrest, ?_⟩
        · rw [List.flatten_cons, List.append_assoc, hothers]
        · -- One step of the scan, and then the scan of what is left.
          have hstep : Scan.within (bound + 1) ⟨⟨pos, c :: cs, 0⟩, 1 + before.count '\n'⟩ =
              (Scan.within bound ((Scanner.mk ⟨pos, c :: cs, 0⟩ (1 + before.count '\n')).behind p
                lexeme)).prepend (p.token? lexeme (1 + before.count '\n')).toList := by
            simp [Scan.within, Reader.atEnd, Scanner.next?, hfirst]
          rw [hstep, ← hothers, Scanner.behind_lexeme hp hmem, Nat.add_assoc, ← List.count_append,
            hscan, Scan.prepend_stop, List.flatten_cons, List.append_assoc]

/-! ### One tiling -/

/-- A text is tiled in one way, up to where nothing matches: each lexeme is told by
`IsLongest.unique`, its token by `Denotes.unique`. -/
theorem Tiling.unique {rest rest' before : List Char} {lexemes lexemes' : List (List Char)}
    {tokens tokens' : List Token} (h : Tiling rest before lexemes tokens)
    (h' : Tiling rest' before lexemes' tokens')
    (htext : lexemes.flatten ++ rest = lexemes'.flatten ++ rest')
    (hrest : ∀ w ∈ lexemeWords, ¬ w <+: rest) (hrest' : ∀ w ∈ lexemeWords, ¬ w <+: rest') :
    lexemes = lexemes' ∧ tokens = tokens' ∧ rest = rest' := by
  induction h generalizing lexemes' tokens' with
  | nil before =>
    cases h' with
    | nil => exact ⟨rfl, rfl, htext⟩
    | cons hlongest' =>
      rw [List.flatten_nil, List.nil_append, List.flatten_cons, List.append_assoc] at htext
      rw [htext] at hrest
      exact absurd hlongest'.begins (hrest _ hlongest'.mem)
  | cons hlongest hdenotes _ ih =>
    rw [List.flatten_cons, List.append_assoc] at htext
    cases h' with
    | nil =>
      rw [List.flatten_nil, List.nil_append] at htext
      rw [← htext] at hrest'
      exact absurd hlongest.begins (hrest' _ hlongest.mem)
    | cons hlongest' hdenotes' htiling' =>
      rw [List.flatten_cons, List.append_assoc] at htext
      -- Both lexemes are the longest one at the start of the same text.
      rw [htext] at hlongest
      obtain rfl := hlongest.unique hlongest'
      obtain rfl := hdenotes.unique hdenotes'
      obtain ⟨rfl, rfl, rfl⟩ := ih htiling' (List.append_cancel_left htext)
      exact ⟨rfl, rfl, rfl⟩

/-! ### Whole sources -/

theorem exists_tiling_scan (source : String) :
    ∃ lexemes tokens rest, source.toList = lexemes.flatten ++ rest ∧
      Tiling rest [] lexemes tokens ∧ (∀ w ∈ lexemeWords, ¬ w <+: rest) ∧
      scan source = Scan.stop tokens (1 + lexemes.flatten.count '\n') rest :=
  exists_tiling_within (byteLength source.toList) 0 [] source.toList (Nat.le_refl _)

/-- A source that can be tiled up to where nothing matches is scanned like that, since
`Tiling.unique` leaves no other way. -/
theorem scan_of_tiling {source : String} {rest : List Char} {lexemes : List (List Char)}
    {tokens : List Token} (h : Tiling rest [] lexemes tokens)
    (hsource : source.toList = lexemes.flatten ++ rest)
    (hrest : ∀ w ∈ lexemeWords, ¬ w <+: rest) :
    scan source = Scan.stop tokens (1 + lexemes.flatten.count '\n') rest := by
  obtain ⟨lexemes', tokens', rest', hsource', htiling, hrest', hscan⟩ := exists_tiling_scan source
  obtain ⟨rfl, rfl, rfl⟩ := h.unique htiling (hsource.symm.trans hsource') hrest hrest'
  exact hscan

/-- A source that can be tiled to its end has the tokens of its tiles: `scan_of_tiling` with
nothing left. -/
theorem tokenize_of_tiling {source : String} {lexemes : List (List Char)} {tokens : List Token}
    (h : Tiling [] [] lexemes tokens) (hsource : source.toList = lexemes.flatten) :
    tokenize source = .ok (tokens ++ [.endOfInput (1 + source.toList.count '\n')]) := by
  have hwhole : source.toList = lexemes.flatten ++ [] := by rw [hsource, List.append_nil]
  rw [tokenize, scan_of_tiling h hwhole fun w hw => not_prefix_nil hw, hsource]
  rfl

/-- A source that has tokens is tiled to its end. -/
theorem exists_tiling_of_tokenize {source : String} {tokens : List Token}
    (h : tokenize source = .ok tokens) :
    ∃ lexemes front, source.toList = lexemes.flatten ∧ Tiling [] [] lexemes front ∧
      tokens = front ++ [.endOfInput (1 + source.toList.count '\n')] := by
  obtain ⟨lexemes, front, rest, hsource, htiling, -, hscan⟩ := exists_tiling_scan source
  rw [tokenize, hscan] at h
  cases rest with
  | cons => simp [Scan.stop] at h
  | nil =>
    rw [List.append_nil] at hsource
    rw [← hsource] at h
    exact ⟨lexemes, front, hsource, htiling, (Except.ok.inj h).symm⟩

/-- The lexemes of a source cover it from its start, each the longest that any pattern of the
table matches there, with its token on the line on which it starts. If they cover all of the
source, its tokens are theirs and the end of the input; if not, the character behind them is
blamed, where no pattern matches. -/
theorem tokenize_tiles (source : String) :
    ∃ lexemes tokens rest, source.toList = lexemes.flatten ++ rest ∧
      Tiling rest [] lexemes tokens ∧
      (∀ p ∈ patterns, ∀ w ∈ p.language, ¬ w <+: rest) ∧
      tokenize source =
        match rest with
        | [] => .ok (tokens ++ [.endOfInput (1 + source.toList.count '\n')])
        | c :: _ => .error ⟨1 + lexemes.flatten.count '\n', .unrecognised (String.singleton c)⟩ := by
  obtain ⟨lexemes, tokens, rest, hsource, htiling, hrest, hscan⟩ := exists_tiling_scan source
  refine ⟨lexemes, tokens, rest, hsource, htiling, fun p hp w hw => hrest w ⟨p, hp, hw⟩, ?_⟩
  rw [tokenize, hscan]
  cases rest with
  | nil => rw [hsource, List.append_nil]; rfl
  | cons c rest => rfl

end DrLang
