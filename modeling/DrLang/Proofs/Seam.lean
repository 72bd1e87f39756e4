import DrLang.Proofs.PrintedTokens

/-!
# Sources one behind the other

A line feed ends every lexeme but a text literal, and a text literal that is closed is not
reopened. So a source that has tokens may be followed by a line feed and any other text: its lexemes
stay the longest ones, and those of the text behind it are what they are by themselves, only on
later lines.

- `IsLongest.before_lineFeed`: no lexeme goes on with a line feed behind the source.
- `Tiling.append`, `Tiling.raise`: tilings one behind the other, and on later lines.
- `Tiling.seam`: a source, a line feed and another text.
- `scan_seam`: the scan of two sources.
- `tokenize_append_lineFeed`: their tokens, or the error of the second one.
-/

namespace DrLang

/-- A token some lines further down. -/
def Token.raise (n : Nat) (t : Token) : Token :=
  { t with line := t.line + n }

/-- What is longest in a text stays so if a line feed and anything else follow the text. -/
theorem IsLongest.before_lineFeed {text lexeme : List Char}
    (h : IsLongest lexemeWords text lexeme) (rest : List Char) :
    IsLongest lexemeWords (text ++ '\n' :: rest) lexeme := by
  refine ⟨h.mem, h.begins.trans (List.prefix_append _ _), ?_⟩
  rintro v ⟨q, hq, hv⟩ hpre
  by_cases hshort : v.length ≤ text.length
  · have hwithin := List.prefix_of_prefix_length_le hpre (List.prefix_append _ _) hshort
    exact h.length_le ⟨q, hq, hv⟩ hwithin
  -- A longer word would have all of the text in it, and the line feed.
  have hfeed : text ++ ['\n'] <+: v := by
    have hprefix : text ++ ['\n'] <+: text ++ '\n' :: rest := ⟨rest, by simp⟩
    refine List.prefix_of_prefix_length_le hprefix hpre ?_
    simp only [List.length_append, List.length_singleton]
    omega
  obtain ⟨u, rfl⟩ := hfeed
  obtain ⟨p, hp, hw⟩ := h.mem
  obtain ⟨behind, rfl⟩ := h.begins
  obtain ⟨c, w, rfl⟩ := List.exists_cons_of_ne_nil (Pattern.ne_nil_of_mem_language hp hw)
  by_cases hkind : q ∉ [.lineBreak, .quote]
  · exact absurd (by simp) (Pattern.lineFeed_notMem hq hkind hv)
  · simp only [List.mem_cons, List.not_mem_nil, or_false, not_not] at hkind
    rcases hkind with rfl | rfl
    · have heq : c :: w ++ behind ++ ['\n'] ++ u = ['\n'] := hv
      simp at heq
    · have hhead : p.head = Pattern.quote.head :=
        (Pattern.headOf_eq_head hw).symm.trans (Pattern.headOf_eq_head hv)
      obtain rfl := eq_of_head p hp .quote (by decide) hhead
      obtain ⟨d, others, heq⟩ :=
        List.exists_cons_of_ne_nil (show behind ++ ['\n'] ++ u ≠ [] by simp)
      have hlonger : c :: w ++ behind ++ ['\n'] ++ u = c :: w ++ d :: others := by
        rw [← heq]
        simp
      exact absurd (hlonger ▸ hv) (append_notMem_quote hw)

/-- What a lexeme stands for, some lines further down: `Token.raise` moves the line and nothing
else. -/
theorem Denotes.raise {line : Nat} {lexeme : List Char} {token? : Option Token}
    (h : Denotes line lexeme token?) (n : Nat) :
    Denotes (line + n) lexeme (token?.map (Token.raise n)) := by
  cases h with
  | reserved hword => exact .reserved hword
  | identifier hword hnot => exact .identifier hword hnot
  | integer hnumber => exact .integer hnumber
  | double hnumber => exact .double hnumber
  | string hquote => exact .string hquote
  | symbol hsymbol => exact .symbol hsymbol
  | gap hblanks => exact .gap hblanks
  | lineBreak => exact .lineBreak
  | comment htext => exact .comment htext

namespace Tiling

variable {rest before : List Char} {lexemes lexemes' : List (List Char)}
  {tokens tokens' : List Token}

theorem before_lineFeed (h : Tiling [] before lexemes tokens) (rest : List Char) :
    Tiling ('\n' :: rest) before lexemes tokens := by
  induction h with
  | nil before => exact .nil before
  | cons hlongest hdenotes _ ih =>
    refine .cons ?_ hdenotes ih
    have hlongest' := hlongest.before_lineFeed rest
    rwa [List.append_nil, List.append_assoc] at hlongest'

theorem append (h : Tiling (lexemes'.flatten ++ rest) before lexemes tokens)
    (h' : Tiling rest (before ++ lexemes.flatten) lexemes' tokens') :
    Tiling rest before (lexemes ++ lexemes') (tokens ++ tokens') := by
  induction h with
  | nil before => simpa using h'
  | @cons before lexeme lexemes token? tokens hlongest hdenotes _ ih =>
    rw [List.cons_append, List.append_assoc]
    refine .cons ?_ hdenotes (ih ?_)
    · rwa [List.flatten_append, List.append_assoc]
    · rwa [List.append_assoc]

/-- Lexemes do not depend on what stands before them, but for the lines of their tokens:
`Denotes.raise` for each. -/
theorem raise (h : Tiling rest before lexemes tokens) {before' : List Char} {n : Nat}
    (hcount : before'.count '\n' = before.count '\n' + n) :
    Tiling rest before' lexemes (tokens.map (Token.raise n)) := by
  induction h generalizing before' with
  | nil => exact .nil before'
  | @cons before lexeme lexemes token? tokens hlongest hdenotes _ ih =>
    -- Every line is counted from the front, where `n` more line feeds stand.
    have hline : 1 + before'.count '\n' = 1 + before.count '\n' + n := by omega
    have htokens : (token?.toList ++ tokens).map (Token.raise n) =
        (token?.map (Token.raise n)).toList ++ tokens.map (Token.raise n) := by
      cases token? <;> rfl
    rw [htokens]
    refine .cons hlongest ?_ (ih ?_)
    · rw [hline]
      exact hdenotes.raise n
    · simp only [List.count_append]
      omega

/-- A text behind a source that is tiled to its end, with a line feed between them:
`IsLongest.before_lineFeed` keeps the first lexemes longest. -/
theorem seam (h : Tiling [] [] lexemes tokens) (h' : Tiling rest [] lexemes' tokens') :
    Tiling rest [] (lexemes ++ ['\n'] :: lexemes')
      (tokens ++ tokens'.map (Token.raise (1 + lexemes.flatten.count '\n'))) := by
  have hfront := h.before_lineFeed (lexemes'.flatten ++ rest)
  have hbehind : Tiling rest (lexemes.flatten ++ ['\n']) lexemes'
      (tokens'.map (Token.raise (1 + lexemes.flatten.count '\n'))) :=
    h'.raise (by simp [Nat.add_comm])
  have hfeed := Tiling.gap (isLongest_lineFeed _) .lineBreak hbehind
  exact Tiling.append (by simpa using hfront) (by simpa using hfeed)

end Tiling

/-! ### Two sources -/

/-- A fatal error some lines further down. -/
def FatalError.raise (n : Nat) (e : FatalError) : FatalError :=
  { e with line := e.line + n }

/-- A scan some lines further down. -/
def Scan.raise (n : Nat) (s : Scan) : Scan where
  tokens := s.tokens.map (Token.raise n)
  failure? := s.failure?.map (FatalError.raise n)

theorem Scan.raise_stop (n : Nat) (tokens : List Token) (line : Nat) (rest : List Char) :
    (Scan.stop tokens line rest).raise n =
      Scan.stop (tokens.map (Token.raise n)) (line + n) rest := by
  cases rest with
  | nil => simp [Scan.stop, Scan.raise, Token.raise, Token.endOfInput]
  | cons c rest => rfl

/-- Behind a source that has tokens and a line feed, another source is scanned as it is by itself,
on the lines behind: `Tiling.seam`. -/
theorem scan_seam {a : String} {front : List Token} {n : Nat}
    (ha : tokenize a = .ok (front ++ [.endOfInput n])) (b : String) :
    scan (a ++ "\n" ++ b) = ((scan b).raise n).prepend front := by
  obtain ⟨lexemes, front', hsource, htiling, hfront⟩ := exists_tiling_of_tokenize ha
  obtain ⟨lexemes', behind, rest, hsource', htiling', hrest, hscan⟩ := exists_tiling_scan b
  obtain ⟨rfl, hend⟩ := List.append_inj' hfront rfl
  obtain rfl : n = 1 + a.toList.count '\n' := congrArg Token.line (List.cons.inj hend).1
  have htext : (a ++ "\n" ++ b).toList = (lexemes ++ ['\n'] :: lexemes').flatten ++ rest := by
    simp [String.toList_append, hsource, hsource']
  have hline : 1 + (lexemes ++ ['\n'] :: lexemes').flatten.count '\n' =
      1 + lexemes'.flatten.count '\n' + (1 + lexemes.flatten.count '\n') := by
    simp only [List.flatten_append, List.flatten_cons, List.count_append, List.count_singleton_self]
    omega
  rw [scan_of_tiling (htiling.seam htiling') htext hrest, hscan, Scan.raise_stop,
    Scan.prepend_stop, hline, hsource]

theorem tokenize_eq_ok_iff {source : String} {tokens : List Token} :
    tokenize source = .ok tokens ↔ scan source = ⟨tokens, none⟩ := by
  unfold tokenize
  rcases scan source with ⟨found, _ | e⟩ <;> simp

/-- The tokens of two sources with a line feed between them: those of the first one without the end
of the input, and those of the second one on the lines behind. -/
theorem tokenize_seam {a b : String} {front tokens : List Token} {n : Nat}
    (ha : tokenize a = .ok (front ++ [.endOfInput n])) (hb : tokenize b = .ok tokens) :
    tokenize (a ++ "\n" ++ b) = .ok (front ++ tokens.map (Token.raise n)) := by
  rw [tokenize_eq_ok_iff, scan_seam ha b, tokenize_eq_ok_iff.1 hb]
  rfl

/-- **Scanning is compositional at line breaks**: behind a source that has tokens and a line feed,
any other source has the tokens that it has by itself, or fails as it fails by itself, with the
lines of the first one counted. -/
theorem tokenize_append_lineFeed {a : String} {tokens : List Token} (h : tokenize a = .ok tokens) :
    ∃ front n, tokens = front ++ [.endOfInput n] ∧ ∀ b, tokenize (a ++ "\n" ++ b) =
      match tokenize b with
      | .ok others => .ok (front ++ others.map (Token.raise n))
      | .error e => .error (e.raise n) := by
  obtain ⟨front, n, rfl, -⟩ := (wellFormed_of_tokenize h).exists_concat
  refine ⟨front, n, rfl, fun b => ?_⟩
  rw [tokenize, scan_seam h b, tokenize]
  rcases scan b with ⟨others, _ | e⟩ <;> rfl

/-- A comment and an open parenthesis over two lines. -/
def unfinished : String := "x = (\n// one"

/-- The comment ends, and neither what comes behind it nor what cannot be read there is lost. -/
theorem tokenize_unfinished_append :
    tokenize unfinished = .ok [⟨.identifier, "x", 1⟩, ⟨.assignment, "=", 1⟩, ⟨.openParen, "(", 1⟩,
      .endOfInput 2] ∧
    tokenize (unfinished ++ "\n" ++ "/ 2") = .ok [⟨.identifier, "x", 1⟩, ⟨.assignment, "=", 1⟩,
      ⟨.openParen, "(", 1⟩, ⟨.slash, "/", 3⟩, ⟨.integer, "2", 3⟩, .endOfInput 3] ∧
    tokenize (unfinished ++ "\n" ++ "\n\"two") = .error ⟨4, .unrecognised "\""⟩ := by
  have hfront : tokenize unfinished = .ok [⟨.identifier, "x", 1⟩, ⟨.assignment, "=", 1⟩,
      ⟨.openParen, "(", 1⟩, .endOfInput 2] := by
    decide +kernel
  have hbehind : tokenize "/ 2" = .ok [⟨.slash, "/", 1⟩, ⟨.integer, "2", 1⟩, .endOfInput 1] := by
    decide +kernel
  have hfails : tokenize "\n\"two" = .error ⟨2, .unrecognised "\""⟩ := by
    decide +kernel
  obtain ⟨front, n, htokens, happend⟩ := tokenize_append_lineFeed hfront
  have hsplit : [⟨.identifier, "x", 1⟩, ⟨.assignment, "=", 1⟩, ⟨.openParen, "(", 1⟩] ++
      [.endOfInput 2] = front ++ [.endOfInput n] := htokens
  obtain ⟨rfl, hend⟩ := List.append_inj' hsplit rfl
  obtain rfl : 2 = n := congrArg Token.line (List.cons.inj hend).1
  exact ⟨hfront, by rw [happend, hbehind]; rfl, by rw [happend, hfails]; rfl⟩

end DrLang
