import DrLang.Proofs.Spelling

/-!
# Token lists as sources

A well-formed token list can be printed as a source that is scanned back into it, lines and
all. Between two tokens stand a space and the line feeds that bring the second one to its
line, so no lexeme goes on behind a token, and no two tokens become one.

- `printTokens`: a token list as a source.
- `isLongest_before_blank`: no lexeme goes on with the space behind a token.
- `exists_tiling_printFrom`: how the lexemes of a printed list lie.
- `exists_tokenize_eq_ok_iff`: which token lists sources have.
-/

namespace DrLang

/-! ### Printing -/

/-- Tokens as a source has them, if it has come to line `line`: the line feeds that are missing
stand before a token, and a space behind it. The end of the input is not written. -/
def printFrom (line : Nat) : List Token → List Char
  | [] => []
  | t :: ts =>
    List.replicate (t.line - line) '\n' ++
      if t.kind = .eof then []
      else t.written ++ ' ' :: printFrom (t.line + t.value.toList.count '\n') ts

/-- A token list as a source. -/
def printTokens (tokens : List Token) : String :=
  String.ofList (printFrom 1 tokens)

/-! ### Where lexemes end -/

/-- Gaps, line breaks and text literals are told from all other lexemes by their first
character. -/
theorem eq_of_head : ∀ p ∈ patterns, ∀ q ∈ [.gap, .lineBreak, .quote], p.head = q.head → p = q := by
  decide

/-- A space is in no word but those of gaps, text literals and comments: `notMem_language` for the
space. -/
theorem blank_notMem {q : Pattern} (hq : q ∈ patterns) (hkind : q ∉ [.gap, .quote, .comment])
    {w : List Char} (hw : w ∈ q.language) : ' ' ∉ w := by
  by_cases hfeed : q = .lineBreak
  · subst hfeed
    obtain rfl : w = ['\n'] := hw
    decide
  · exact Pattern.notMem_language (by decide) (by decide) (by decide) hq (by simp_all) hw

/-- A text literal ends at its second quote. -/
theorem append_notMem_quote {w : List Char} (hw : w ∈ Pattern.quote.language) {c : Char}
    {rest : List Char} : w ++ c :: rest ∉ Pattern.quote.language := by
  intro h
  obtain ⟨u, rfl, -⟩ := Pattern.mem_quote.1 hw
  obtain ⟨v, heq, hv⟩ := Pattern.mem_quote.1 h
  have heq' : u ++ '"' :: c :: rest = v ++ ['"'] := by simpa using heq
  -- The quote that ends the shorter literal is inside the longer one.
  have hmem : '"' ∈ v := by
    have hdrop := congrArg List.dropLast heq'
    rw [List.dropLast_concat] at hdrop
    rw [← hdrop, List.dropLast_append_of_ne_nil (by simp), List.dropLast_cons_of_ne_nil (by simp)]
    simp
  exact hv '"' hmem rfl

/-- No lexeme goes on with the space behind a token: `blank_notMem`, and `append_notMem_quote` for
text literals. -/
theorem isLongest_before_blank {p : Pattern} (hp : p ∈ patterns)
    (htoken : p ∉ [.gap, .lineBreak, .comment]) {w : List Char} (hw : w ∈ p.language)
    (rest : List Char) : IsLongest lexemeWords (w ++ ' ' :: rest) w := by
  refine ⟨⟨p, hp, hw⟩, List.prefix_append _ _, ?_⟩
  rintro v ⟨q, hq, hv⟩ hpre
  by_contra hlt
  -- A longer word would have the whole token in it, and the space.
  have hblank : w ++ [' '] <+: v := by
    have hprefix : w ++ [' '] <+: w ++ ' ' :: rest := ⟨rest, by simp⟩
    refine List.prefix_of_prefix_length_le hprefix hpre ?_
    simp only [List.length_append, List.length_singleton]
    omega
  obtain ⟨u, rfl⟩ := hblank
  obtain ⟨c, w', rfl⟩ := List.exists_cons_of_ne_nil (Pattern.ne_nil_of_mem_language hp hw)
  have hhead : p.head = q.head :=
    (Pattern.headOf_eq_head hw).symm.trans (Pattern.headOf_eq_head hv)
  by_cases hkind : q ∉ [.gap, .quote, .comment]
  · exact blank_notMem hq hkind hv (by simp)
  · simp only [List.mem_cons, List.not_mem_nil, or_false, not_not] at hkind
    rcases hkind with rfl | rfl | rfl
    · obtain rfl := eq_of_head p hp .gap (by decide) hhead
      simp at htoken
    · obtain rfl := eq_of_head p hp .quote (by decide) hhead
      exact append_notMem_quote hw (by simpa using hv)
    · -- One slash does not begin a comment if a space follows it.
      have hslash : ∀ p ∈ patterns, p ∉ [.gap, .lineBreak, .comment] →
          p.head = Pattern.comment.head → p = .fixed "/" .slash := by decide
      obtain rfl := hslash p hp htoken hhead
      obtain rfl : w' = [] := (List.cons.inj (show c :: w' = ['/'] from hw)).2
      obtain ⟨v, heq, -⟩ := Pattern.mem_comment.1 hv
      simp at heq

theorem blank_mem_gap : [' '] ∈ Pattern.gap.language :=
  mem_runOf.2 ⟨List.cons_ne_nil _ _, List.forall_mem_singleton.2 rfl⟩

/-- A space is a lexeme of its own if no other gap follows. -/
theorem isLongest_blank {text : List Char} (h : ∀ c ∈ text.head?, isGap c = false) :
    IsLongest lexemeWords (' ' :: text) [' '] := by
  refine ⟨⟨.gap, by decide, blank_mem_gap⟩, ⟨text, rfl⟩, ?_⟩
  rintro v ⟨q, hq, hv⟩ hpre
  obtain ⟨c, v, rfl⟩ := List.exists_cons_of_ne_nil (Pattern.ne_nil_of_mem_language hq hv)
  obtain ⟨rfl, hpre'⟩ := List.cons_prefix_cons.1 hpre
  obtain rfl := eq_of_head q hq .gap (by decide) (Pattern.headOf_eq_head hv).symm
  cases v with
  | nil => exact Nat.le_refl _
  | cons d v =>
    obtain ⟨rest, rfl⟩ := hpre'
    have hgap : isGap d = true := (mem_runOf.1 hv).2 d (by simp)
    rw [h d rfl] at hgap
    exact absurd hgap Bool.false_ne_true

/-- A line feed is a lexeme of its own, whatever follows. -/
theorem isLongest_lineFeed (text : List Char) :
    IsLongest lexemeWords ('\n' :: text) ['\n'] := by
  refine ⟨⟨.lineBreak, by decide, rfl⟩, ⟨text, rfl⟩, ?_⟩
  rintro v ⟨q, hq, hv⟩ hpre
  obtain ⟨c, v, rfl⟩ := List.exists_cons_of_ne_nil (Pattern.ne_nil_of_mem_language hq hv)
  obtain ⟨rfl, -⟩ := List.cons_prefix_cons.1 hpre
  obtain rfl := eq_of_head q hq .lineBreak (by decide) (Pattern.headOf_eq_head hv).symm
  exact Nat.le_of_eq (congrArg List.length (show '\n' :: v = ['\n'] from hv))

/-- The pattern that a written token is a word of, from `denotes_written`. -/
theorem exists_pattern_written {t : Token} (h : t.Spelled) (hkind : t.kind ≠ .eof) :
    ∃ p ∈ patterns, p ∉ [.gap, .lineBreak, .comment] ∧ t.written ∈ p.language := by
  obtain ⟨p, hp, hmem, htoken⟩ := (denotes_written h hkind).exists_pattern
  refine ⟨p, hp, fun hnone => ?_, hmem⟩
  simp only [List.mem_cons, List.not_mem_nil, or_false] at hnone
  rcases hnone with rfl | rfl | rfl <;> simp [Pattern.token?] at htoken

/-- No token begins with a gap. -/
theorem isGap_head?_written {t : Token} (h : t.Spelled) (hkind : t.kind ≠ .eof) :
    ∃ c w, t.written = c :: w ∧ isGap c = false := by
  obtain ⟨p, hp, hnone, hmem⟩ := exists_pattern_written h hkind
  obtain ⟨c, w, heq⟩ := List.exists_cons_of_ne_nil (Pattern.ne_nil_of_mem_language hp hmem)
  refine ⟨c, w, heq, ?_⟩
  by_contra hgap
  rw [heq] at hmem
  have hhead := (Pattern.headOf_eq_head hmem).symm.trans (headOf_of_isGap (by simpa using hgap))
  obtain rfl := eq_of_head p hp .gap (by decide) hhead
  simp at hnone

/-- So no printed list does. -/
theorem isGap_head?_printFrom {line : Nat} {tokens : List Token} (h : WellFormed line tokens) :
    ∀ c ∈ (printFrom line tokens).head?, isGap c = false := by
  have hfeeds : ∀ (n : Nat) (text : List Char), (∀ c ∈ text.head?, isGap c = false) →
      ∀ c ∈ (List.replicate n '\n' ++ text).head?, isGap c = false := by
    intro n text htext
    cases n with
    | zero => simpa using htext
    | succ n => simp [List.replicate_succ, isGap]
  cases h with
  | ends => exact hfeeds _ _ (by simp)
  | cons _ hkind hspelled _ =>
    obtain ⟨c, w, heq, hgap⟩ := isGap_head?_written hspelled hkind
    refine hfeeds _ _ ?_
    simpa [if_neg hkind, heq] using hgap

/-! ### Tilings of printed lists -/

/-- A lexeme that stands for nothing adds no token. -/
theorem Tiling.gap {rest before lexeme : List Char} {lexemes : List (List Char)}
    {tokens : List Token}
    (hlongest : IsLongest lexemeWords (lexeme ++ (lexemes.flatten ++ rest)) lexeme)
    (hdenotes : Denotes (1 + before.count '\n') lexeme none)
    (h : Tiling rest (before ++ lexeme) lexemes tokens) :
    Tiling rest before (lexeme :: lexemes) tokens :=
  Tiling.cons hlongest hdenotes h

theorem Tiling.lineFeeds {rest before : List Char} {lexemes : List (List Char)}
    {tokens : List Token} (n : Nat)
    (h : Tiling rest (before ++ List.replicate n '\n') lexemes tokens) :
    Tiling rest before (List.replicate n ['\n'] ++ lexemes) tokens := by
  induction n generalizing before with
  | zero => simpa using h
  | succ n ih =>
    refine .gap (isLongest_lineFeed _) .lineBreak (ih ?_)
    simpa [List.replicate_succ] using h

/-- A token and the space behind it. -/
theorem Tiling.written {before : List Char} {lexemes : List (List Char)} {tokens : List Token}
    {t : Token} (hspelled : t.Spelled) (hkind : t.kind ≠ .eof)
    (hline : t.line = 1 + before.count '\n')
    (hrest : ∀ c ∈ lexemes.flatten.head?, isGap c = false)
    (h : Tiling [] (before ++ t.written ++ [' ']) lexemes tokens) :
    Tiling [] before (t.written :: [' '] :: lexemes) (t :: tokens) := by
  obtain ⟨p, hp, hnone, hmem⟩ := exists_pattern_written hspelled hkind
  refine Tiling.cons ?_ (hline ▸ denotes_written hspelled hkind)
    (.gap ?_ (.gap blank_mem_gap) h)
  · rw [List.flatten_cons, List.append_nil, List.singleton_append]
    exact isLongest_before_blank hp hnone hmem _
  · rw [List.append_nil, List.singleton_append]
    exact isLongest_blank hrest

/-- A printed list is tiled by its tokens and by what stands between them: `Tiling.written` for
each token. -/
theorem exists_tiling_printFrom {line : Nat} {tokens : List Token} (h : WellFormed line tokens)
    (before : List Char) (hbefore : 1 + before.count '\n' = line) :
    ∃ lexemes front, printFrom line tokens = lexemes.flatten ∧ Tiling [] before lexemes front ∧
      tokens = front ++ [.endOfInput (1 + (before ++ lexemes.flatten).count '\n')] := by
  induction h generalizing before with
  | @ends line last hle =>
    refine ⟨List.replicate (last - line) ['\n'], [], ?_, ?_, ?_⟩
    · simp [printFrom]
    · simpa using Tiling.lineFeeds (last - line) (.nil _)
    · have hcount : 1 + (before ++ (List.replicate (last - line) ['\n']).flatten).count '\n' =
          last := by
        simp
        omega
      rw [hcount, List.nil_append]
  | @cons line t ts hle hkind hspelled hothers ih =>
    -- The line feeds that are printed first bring the count of lines up to the token's own.
    have hline : 1 + (before ++ List.replicate (t.line - line) '\n').count '\n' = t.line := by
      simp
      omega
    -- Behind it the next line is counted: a string may have taken line feeds of its own.
    have hnext : 1 + (before ++ List.replicate (t.line - line) '\n' ++ t.written ++ [' ']).count
        '\n' = t.line + t.value.toList.count '\n' := by
      rw [List.append_assoc, List.count_append, ← Nat.add_assoc, hline, List.count_append,
        t.count_newline_written]
      rfl
    obtain ⟨lexemes, front, hprint, htiling, htokens⟩ := ih _ hnext
    have hgap := isGap_head?_printFrom hothers
    rw [hprint] at hgap
    refine ⟨List.replicate (t.line - line) ['\n'] ++ t.written :: [' '] :: lexemes, t :: front,
      ?_, (htiling.written hspelled hkind hline.symm hgap).lineFeeds _, ?_⟩
    · simp [printFrom, hkind, hprint]
    · simp [htokens]

theorem tokenize_printTokens {tokens : List Token} (h : WellFormed 1 tokens) :
    tokenize (printTokens tokens) = .ok tokens := by
  obtain ⟨lexemes, front, hprint, htiling, htokens⟩ := exists_tiling_printFrom h [] rfl
  have hsource : (printTokens tokens).toList = lexemes.flatten := by
    rw [printTokens, String.toList_ofList, hprint]
  rw [tokenize_of_tiling htiling hsource, hsource, htokens]
  simp

/-- **The token lists of sources** are the well-formed ones, and each of them is that of the
source that `printTokens` makes of it. -/
theorem exists_tokenize_eq_ok_iff (tokens : List Token) :
    ((∃ source, tokenize source = .ok tokens) ↔ WellFormed 1 tokens) ∧
      (WellFormed 1 tokens → tokenize (printTokens tokens) = .ok tokens) := by
  refine ⟨⟨?_, fun h => ⟨printTokens tokens, tokenize_printTokens h⟩⟩, tokenize_printTokens⟩
  rintro ⟨source, h⟩
  exact wellFormed_of_tokenize h

/-- Slashes side by side stay two tokens, and what looks like a comment stays in its text
literal, with the line break behind it. -/
theorem tokenize_slashes_and_quote :
    WellFormed 1 [⟨.slash, "/", 2⟩, ⟨.slash, "/", 2⟩, ⟨.string, "// a\n", 2⟩, ⟨.identifier, "Plan", 3⟩,
      .endOfInput 5] ∧
    (∃ source, tokenize source = .ok [⟨.slash, "/", 2⟩, ⟨.slash, "/", 2⟩, ⟨.string, "// a\n", 2⟩,
      ⟨.identifier, "Plan", 3⟩, .endOfInput 5]) ∧
    tokenize "\n/ / \"// a\n\" Plan \n\n" = .ok [⟨.slash, "/", 2⟩, ⟨.slash, "/", 2⟩,
      ⟨.string, "// a\n", 2⟩, ⟨.identifier, "Plan", 3⟩, .endOfInput 5] := by
  have hname : (Token.mk .identifier "Plan" 3).Spelled := by
    refine ⟨Pattern.mem_word.2 ⟨'P', ['l', 'a', 'n'], rfl, rfl, ?_⟩, by simp [reservedWords]⟩
    simp [isWordPart, isWordStart]
  have hquote : (Token.mk .string "// a\n" 2).Spelled := by
    show '"' ∉ "// a\n".toList
    decide
  have hwell : WellFormed 1 [⟨.slash, "/", 2⟩, ⟨.slash, "/", 2⟩, ⟨.string, "// a\n", 2⟩,
      ⟨.identifier, "Plan", 3⟩, .endOfInput 5] :=
    .cons (by decide) (by decide) rfl <| .cons (by decide) (by decide) rfl <|
      .cons (by decide) (by decide) hquote <| .cons (by decide) (by decide) hname <|
        .ends (by decide)
  refine ⟨hwell, (exists_tokenize_eq_ok_iff _).1.2 hwell, ?_⟩
  exact (exists_tokenize_eq_ok_iff _).2 hwell

end DrLang
