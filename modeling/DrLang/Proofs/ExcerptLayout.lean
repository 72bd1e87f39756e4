import DrLang.Proofs.ReportedLines

/-!
# The layout of excerpts

Below the heading of a fatal error stand the file and the line that is blamed, with two bars over
and under the bar behind its number. What is put into these lines comes from the source, and must
not break them. The message quotes it, and the line that is blamed holds no line feed. A tip has it
as it is. That does no harm unless it runs over lines, as only text literals do, and only one tip
repeats these: where a semicolon is missing, the heading has all the lines of the literal.

- `FatalCause.OnOneLine`: causes whose text, but for text literals, has no line feed.
- `onOneLine_of_compile`: no other fatal errors end a compilation.
- `FatalError.LaidOut`: the layout below a heading of so many lines.
- `laidOut_iff`: the number of lines of the heading.
- `excerpt_keeps_layout_iff`: when it is one, and how many they are otherwise.
-/

namespace DrLang

/-! ### What is blamed -/

/-- Only a text literal is blamed with line feeds in it. -/
def FatalCause.OnOneLine : FatalCause → Prop
  | .unrecognised text => '\n' ∉ text.toList
  | .unexpected _ found value => found ≠ .string → '\n' ∉ value.toList

/-- A scan blames a character that begins no token. -/
theorem unrecognised_of_tokenize {source : String} {e : FatalError}
    (h : tokenize source = .error e) : ∃ text, e.cause = .unrecognised text := by
  obtain ⟨lexemes, tokens, rest, -, -, -, hscan⟩ := exists_tiling_scan source
  rw [tokenize, hscan] at h
  cases rest with
  | nil => simp [Scan.stop] at h
  | cons c rest =>
    obtain rfl := Except.error.inj h
    exact ⟨_, rfl⟩

/-- A fatal error of a scan blames a character that begins no lexeme, and a line feed begins one;
one of a parse blames a token, and only literals run over lines. -/
theorem onOneLine_of_compile {source : String} {e : FatalError} (h : compile source = .error e) :
    e.cause.OnOneLine := by
  rcases compile_eq_error_iff.1 h with hscanned | ⟨tokens, htokens, hresult⟩
  · obtain ⟨text, hcause⟩ := unrecognised_of_tokenize hscanned
    -- The character is found in a line as it is shown.
    obtain ⟨line, hline, hshown⟩ := (isSome_of_fatalError h).2 text hcause
    rw [hcause]
    exact fun hmem => newline_notMem_of_getLine? hline (hshown.subset hmem)
  · have hwellFormed := wellFormed_of_tokenize htokens
    obtain ⟨used, found, ahead, expected, htokens, rfl, -⟩ :=
      blamed_of_parse hwellFormed.endsOnce hresult
    have hspelled : found.Spelled := hwellFormed.spelled found (by simp [htokens])
    exact fun hkind => hspelled.newline_notMem hkind

/-! ### The heading -/

/-- The line feeds of a text that a tip repeats as it stands in the source. -/
def FatalCause.feedsRepeated : FatalCause → Nat
  | .unexpected (.token .semicolon) .string value => value.toList.count '\n'
  | _ => 0

/-- The names of the classes are a table; this goes through it. -/
theorem newline_notMem_kindName (kind : TokenKind) : '\n' ∉ kind.name.toList :=
  (by decide : ∀ kind ∈ TokenKind.all, '\n' ∉ kind.name.toList) kind (TokenKind.mem_all kind)

/-- What is expected is told by the name of a class or by fixed words. -/
theorem newline_notMem_expectation (expected : Expectation) : '\n' ∉ expected.text.toList := by
  cases expected with
  | token kind => exact newline_notMem_kindName kind
  | statement => show '\n' ∉ "statement".toList; decide
  | expression => show '\n' ∉ "expression".toList; decide
  | declaration => show '\n' ∉ "declaration".toList; decide
  | assignmentOrCall => show '\n' ∉ "assignment, increment, or call".toList; decide

/-- A message has everything from the source in quotes. -/
theorem newline_notMem_message (cause : FatalCause) : '\n' ∉ cause.message.toList := by
  cases cause with
  | unrecognised text =>
    show '\n' ∉ ("unexpected token " ++ Text.quoted text).toList
    simp only [String.toList_append, List.mem_append, not_or]
    exact ⟨by decide, Text.newline_notMem_quoted text⟩
  | unexpected expected found value =>
    show '\n' ∉ ("expected " ++ expected.text ++ " but found " ++ found.name ++ " (" ++
      Text.quoted value ++ ")").toList
    simp only [String.toList_append, List.mem_append, or_assoc, not_or]
    exact ⟨by decide, newline_notMem_expectation expected, by decide, newline_notMem_kindName found,
      by decide, Text.newline_notMem_quoted value, by decide⟩

/-- The headline has the line and the message, which quotes what was found: `quoted` escapes line
feeds. -/
theorem newline_notMem_headline (e : FatalError) : '\n' ∉ e.headline.toList := by
  have hphase : '\n' ∉ e.cause.phase.toList := by
    cases e.cause with
    | unrecognised => show '\n' ∉ "Lexical".toList; decide
    | unexpected => show '\n' ∉ "Syntax".toList; decide
  simp only [FatalError.headline, String.toList_append, List.mem_append, not_or]
  exact ⟨⟨hphase, by decide⟩, newline_notMem_message e.cause⟩

/-- A tip has as many line feeds as what it repeats of the source. -/
theorem count_newline_tip {cause : FatalCause} (h : cause.OnOneLine) :
    ∀ tip ∈ cause.tip?, tip.toList.count '\n' = cause.feedsRepeated := by
  intro tip htip
  unfold FatalCause.tip? at htip
  split at htip
  case h_1 text =>
    obtain rfl := Option.some.inj htip
    apply List.count_eq_zero.2
    simp only [String.toList_append, List.mem_append, not_or]
    exact ⟨⟨by decide, h⟩, by decide⟩
  case h_2 found value =>
    obtain rfl := Option.some.inj htip
    have hfront : "Unexpected token: `".toList.count '\n' = 0 := by decide
    have hbehind : "`, did you miss a semicolon?".toList.count '\n' = 0 := by decide
    simp only [String.toList_append, List.count_append, hfront, hbehind, Nat.zero_add, Nat.add_zero]
    -- Only a string can hold a line feed, and the tip repeats its value as it is.
    by_cases hfound : found = .string
    · rw [hfound]
      rfl
    · rw [List.count_eq_zero.2 (h hfound)]
      simp [FatalCause.feedsRepeated, hfound]
  case h_3 =>
    obtain rfl := Option.some.inj htip
    exact List.count_eq_zero.2 (by decide)
  case h_4 => simp at htip

/-- Without a tip, nothing is repeated. -/
theorem feedsRepeated_of_tip?_eq_none {cause : FatalCause} (h : cause.tip? = none) :
    cause.feedsRepeated = 0 := by
  unfold FatalCause.feedsRepeated
  split
  case h_1 => simp [FatalCause.tip?] at h
  case h_2 => rfl

/-- The heading ends its last line, and has no other line feeds than its tip. -/
theorem exists_heading {e : FatalError} (h : e.cause.OnOneLine) :
    ∃ text, e.heading.toList = text ++ ['\n'] ∧ text.count '\n' = e.cause.feedsRepeated := by
  have hheadline : e.headline.toList.count '\n' = 0 :=
    List.count_eq_zero.2 (newline_notMem_headline e)
  unfold FatalError.heading
  split
  case h_1 htip =>
    refine ⟨e.headline.toList, by simp, ?_⟩
    rw [hheadline, feedsRepeated_of_tip?_eq_none htip]
  case h_2 tip htip =>
    refine ⟨e.headline.toList ++ ' ' :: '(' :: (tip.toList ++ [')']), by simp, ?_⟩
    simp [hheadline, count_newline_tip h tip htip]

/-! ### The lines below -/

/-- A line with a bar in some column and nothing else. -/
def barAt (column : Nat) : List Char :=
  List.replicate column ' ' ++ ['|']

/-- A gutter is a bar, as far to the right as the line number is long, and a line feed. -/
theorem toList_gutter (e : FatalError) :
    e.gutter.toList = barAt ((toString e.line).length + 1) ++ ['\n'] := by
  have hwidth : (toString e.line).length + 2 - "|".length = (toString e.line).length + 1 := rfl
  simp only [FatalError.gutter, Text.alignedRight, hwidth, String.toList_append,
    Text.toList_spaces]
  rfl

/-- A line of the source behind its number and a bar. -/
def numbered (line : Nat) (text : String) : List Char :=
  (toString line ++ " | " ++ Text.trimmed text).toList

/-- The bar behind a line number is one column behind its digits. -/
theorem idxOf_bar_numbered (line : Nat) (text : String) :
    (numbered line text).idxOf '|' = (toString line).length + 1 := by
  have hnumber : '|' ∉ (toString line).toList := Text.notMem_toString (by decide) line
  simp only [numbered, String.toList_append, List.append_assoc]
  rw [List.idxOf_append_of_notMem hnumber, String.length_toList]
  rfl

/-- A line of the source that `getLine?` finds has no line feed, and neither has its number. -/
theorem newline_notMem_numbered {source text : String} {line : Nat}
    (h : getLine? source line = some text) : '\n' ∉ numbered line text := by
  have hnumber : '\n' ∉ (toString line).toList := Text.notMem_toString (by decide) line
  have htext : '\n' ∉ (Text.trimmed text).toList :=
    fun hmem => newline_notMem_of_getLine? h (Text.mem_of_mem_trimmed hmem)
  simp only [numbered, String.toList_append, List.mem_append, not_or]
  exact ⟨⟨hnumber, by decide⟩, htext⟩

theorem newline_notMem_barAt (column : Nat) : '\n' ∉ barAt column := by
  simp [barAt]

/-- The heading, and below it four lines that end with a line feed each. -/
theorem linesOf_excerpt {source text file : String} {e : FatalError} {heading : List Char}
    (hheading : e.heading.toList = heading ++ ['\n']) (hfile : '\n' ∉ file.toList)
    (hline : getLine? source e.line = some text) :
    linesOf (e.excerpt source file).toList = linesOf heading ++ [("-> " ++ file).toList,
      barAt ((toString e.line).length + 1), numbered e.line text,
      barAt ((toString e.line).length + 1), []] := by
  have hpath : '\n' ∉ ("-> " ++ file).toList := by simp [hfile]
  have hlayout : (e.excerpt source file).toList = heading ++ '\n' :: (("-> " ++ file).toList ++
      '\n' :: (barAt ((toString e.line).length + 1) ++ '\n' :: (numbered e.line text ++
        '\n' :: (barAt ((toString e.line).length + 1) ++ '\n' :: [])))) := by
    simp only [FatalError.excerpt, hline, String.toList_append, hheading, toList_gutter, numbered,
      List.append_assoc]
    rfl
  -- The heading ends with a line feed, so the lines behind it are split off one by one.
  rw [hlayout, linesOf_append, linesOf_line hpath, linesOf_line (newline_notMem_barAt _),
    linesOf_line (newline_notMem_numbered hline), linesOf_line (newline_notMem_barAt _),
    linesOf_nil]

/-! ### The layout -/

/-- The layout of an excerpt: the given number of lines in front, then the file, and the line that
is blamed behind its number and a bar, with a bar in the same column on the lines around it. Each
of the lines ends with a line feed, and nothing stands behind the last one. -/
def FatalError.LaidOut (e : FatalError) (source file : String) (headingLines : Nat) : Prop :=
  ∃ heading text column, heading.length = headingLines ∧ getLine? source e.line = some text ∧
    linesOf (e.excerpt source file).toList = heading ++ [("-> " ++ file).toList, barAt column,
      numbered e.line text, barAt column, []] ∧
    (numbered e.line text).idxOf '|' = column

/-- The excerpt tells how many lines its heading has. -/
theorem laidOut_iff {source : String} {e : FatalError} (h : compile source = .error e)
    {file : String} (hfile : '\n' ∉ file.toList) {headingLines : Nat} :
    e.LaidOut source file headingLines ↔ headingLines = 1 + e.cause.feedsRepeated := by
  obtain ⟨heading, hheading, hcount⟩ := exists_heading (onOneLine_of_compile h)
  obtain ⟨text, hline⟩ := Option.isSome_iff_exists.1 (isSome_of_fatalError h).1
  have hlines := linesOf_excerpt hheading hfile hline
  have hlength : (linesOf heading).length = 1 + e.cause.feedsRepeated := by
    rw [length_linesOf, hcount, Nat.add_comm]
  constructor
  · -- Below any heading there are as many lines, so all lines tell how many are above.
    rintro ⟨front, _, _, rfl, -, hfront, -⟩
    rw [hlines] at hfront
    have hlengths := congrArg List.length hfront
    simp only [List.length_append, List.length_cons, List.length_nil] at hlengths
    omega
  · rintro rfl
    exact ⟨linesOf heading, text, _, hlength, hline, hlines, idxOf_bar_numbered _ _⟩

/-- Only a string that runs over lines, where a semicolon was expected, repeats a line feed. -/
theorem feedsRepeated_eq_zero_iff {cause : FatalCause} : cause.feedsRepeated = 0 ↔
    ∀ value, cause = .unexpected (.token .semicolon) .string value → '\n' ∉ value.toList := by
  constructor
  · rintro h value rfl
    exact List.count_eq_zero.1 h
  · intro h
    unfold FatalCause.feedsRepeated
    split
    case h_1 value => exact List.count_eq_zero.2 (h value rfl)
    case h_2 => rfl

/-- **The layout of excerpts**: whatever ends a compilation is shown in the same layout. Its heading
is a single line, but where a semicolon was expected and a text literal found that runs over lines:
there it has a line more for each line feed of the literal. -/
theorem excerpt_keeps_layout_iff {source : String} {e : FatalError}
    (h : compile source = .error e) {file : String} (hfile : '\n' ∉ file.toList) :
    (e.LaidOut source file 1 ↔ ∀ value,
      e.cause = .unexpected (.token .semicolon) .string value → '\n' ∉ value.toList) ∧
    e.LaidOut source file (1 + e.cause.feedsRepeated) := by
  refine ⟨?_, (laidOut_iff h hfile).2 rfl⟩
  rw [laidOut_iff h hfile, ← feedsRepeated_eq_zero_iff]
  omega

/-- Fatal errors can be compared, and so they are run for. -/
theorem compile_eq_error_of_match {source : String} {e : FatalError}
    (h : (match compile source with
      | .error e => some e
      | .ok _ => none) = some e) : compile source = .error e := by
  split at h
  case h_1 e' hcompile => rw [hcompile, Option.some.inj h]
  case h_2 => simp at h

/-- A text literal over two lines, on the tenth line, where a parenthesis must stand. -/
def unopened : String :=
  "\n\n\n\n\n\n\n\n\nCHECK \"a\nb\""

/-- The literal is quoted in the message, and the bars stand behind two digits. -/
theorem unopened_keeps_layout : ∃ e : FatalError, compile unopened = .error e ∧
    e.line = 10 ∧ e.cause.value = "a\nb" ∧ e.LaidOut unopened "demo.dr" 1 := by
  have hcompile : compile unopened =
      .error ⟨10, .unexpected (.token .openParen) .string "a\nb"⟩ :=
    compile_eq_error_of_match (by decide +kernel)
  refine ⟨_, hcompile, rfl, rfl, (excerpt_keeps_layout_iff hcompile (by decide)).1.2 ?_⟩
  simp

/-- A declaration that is not ended, in front of a text literal over two lines. -/
def unended : String :=
  "file x = 5 \"a\nb\""

/-- The tip repeats the literal, and the heading breaks in it. -/
theorem not_forall_keeps_layout : ¬ ∀ (source file : String) (e : FatalError),
    compile source = .error e → '\n' ∉ file.toList → e.LaidOut source file 1 := by
  have hcompile : compile unended =
      .error ⟨1, .unexpected (.token .semicolon) .string "a\nb"⟩ :=
    compile_eq_error_of_match (by decide +kernel)
  have hfile : '\n' ∉ "demo.dr".toList := by decide
  intro hall
  have hone := (laidOut_iff hcompile hfile).1 (hall unended "demo.dr" _ hcompile hfile)
  exact absurd hone (by decide)

end DrLang
