import DrLang.Proofs.Tiling

/-!
# How tokens are spelled

The text of a token fits its class: most classes have a single text, and the texts of the
others are told by their characters. A scan makes no other tokens, and each such token but
the end of the input is what some lexeme stands for.

- `TokenKind.fixedText?`: the text of a class that has only one.
- `Token.Spelled`: a token whose text fits its class.
- `Denotes.spelled`, `denotes_written`: these are the tokens that lexemes stand for.
- `Token.Spelled.newline_notMem`: which of them keep to one line.
- `WellFormed`: lists of such tokens that keep to their lines.
- `wellFormed_of_tokenize`: a scan gives no other lists.
-/

namespace DrLang

/-- The text of the tokens of a class, if all have the same. -/
def TokenKind.fixedText? : TokenKind → Option String
  | identifier | string | integer | double | boolean => none
  | eof => some "EOF"
  | openCurly => some "\x7b"
  | closeCurly => some "\x7d"
  | openParen => some "("
  | closeParen => some ")"
  | assignment => some "="
  | equals => some "=="
  | notEquals => some "!="
  | less => some "<"
  | lessEquals => some "<="
  | greater => some ">"
  | greaterEquals => some ">="
  | semicolon => some ";"
  | comma => some ","
  | dollar => some "$"
  | plusPlus => some "++"
  | minusMinus => some "--"
  | plus => some "+"
  | dash => some "-"
  | slash => some "/"
  | star => some "*"
  | plan => some "plan"
  | morningCoffee => some "MORNING_COFFEE"
  | output => some "SHOW"
  | input => some "RECEIVE"
  | check => some "CHECK"
  | reject => some "REJECT"
  | rework => some "REWORK"
  | checklist => some "CHECKLIST"
  | submit => some "SUBMIT"
  | office => some "OFFICE"
  | attach => some "#ATTACH"
  | file => some "file"
  | duration => some "duration"
  | note => some "note"
  | status => some "status"

namespace Token

/-- Whether the text of a token fits its class. -/
def Spelled (t : Token) : Prop :=
  match t.kind with
  | .identifier => t.value.toList ∈ Pattern.word.language ∧ ∀ kind, (t.value, kind) ∉ reservedWords
  | .integer => t.value.toList ∈ Pattern.digits.language
  | .double => t.value.toList ∈ Pattern.decimal.language
  | .boolean => t.value = "true" ∨ t.value = "false"
  | .string => '"' ∉ t.value.toList
  | kind => kind.fixedText? = some t.value

/-- A token as a source has it: a text literal stands in its quotes. -/
def written (t : Token) : List Char :=
  if t.kind = .string then '"' :: (t.value.toList ++ ['"']) else t.value.toList

/-- A token with the fixed text of its class is spelled; the classes with other rules have none.
-/
theorem spelled_of_fixedText? {t : Token} (h : t.kind.fixedText? = some t.value) : t.Spelled := by
  obtain ⟨kind, value, line⟩ := t
  cases kind <;> first | exact h | simp [TokenKind.fixedText?] at h

/-- The end of the input has a fixed text, too, though no lexeme stands for it. -/
theorem spelled_endOfInput (line : Nat) : (endOfInput line).Spelled :=
  spelled_of_fixedText? rfl

/-- Only strings are written in quotes: `written` is the value of every other token. -/
theorem written_of_ne {t : Token} (h : t.kind ≠ .string) : t.written = t.value.toList :=
  if_neg h

/-- The quotes of a text literal are on the lines of the text. -/
theorem count_newline_written (t : Token) : t.written.count '\n' = t.value.toList.count '\n' := by
  unfold written
  split
  · simp
  · rfl

end Token

/-! ### Lexemes and spelled tokens -/

/-- The class of the tokens that a fixed text stands for. -/
def Pattern.kind? : Pattern → Option TokenKind
  | fixed _ kind => some kind
  | _ => none

/-- The reserved words are the texts of their classes, but for the two of `boolean`. -/
theorem fixedText?_of_reserved : ∀ entry ∈ reservedWords,
    entry.2.fixedText? = some entry.1 ∨
      entry.2 = .boolean ∧ (entry.1 = "true" ∨ entry.1 = "false") := by
  decide

/-- So are the fixed texts of the table. -/
theorem fixedText?_of_kind? : ∀ p ∈ patterns, ∀ kind ∈ p.kind?, kind.fixedText? = p.literal? := by
  decide

/-- A class with a `fixedText?` is that of a reserved word or of a symbol. -/
theorem reserved_or_symbol : ∀ kind ∈ TokenKind.all, ∀ text ∈ kind.fixedText?,
    kind = .eof ∨ (text, kind) ∈ reservedWords ∨ .fixed text kind ∈ patterns := by
  decide

variable {line : Nat} {lexeme text : List Char} {t : Token}

/-- Where a lexeme stands for a token, the token is spelled like it. -/
theorem Denotes.spelled (h : Denotes line lexeme (some t)) : t.Spelled := by
  cases h with
  | @reserved word kind hword =>
    rcases fixedText?_of_reserved _ hword with hfixed | ⟨rfl, htruth⟩
    · exact Token.spelled_of_fixedText? hfixed
    · exact htruth
  | identifier hword hnot => exact ⟨hword, hnot⟩
  | integer hnumber => exact hnumber
  | double hnumber => exact hnumber
  | string hquote => exact hquote
  | @symbol text kind hsymbol =>
    exact Token.spelled_of_fixedText? (fixedText?_of_kind? _ hsymbol kind rfl)

/-- A lexeme is what is `written` of its token, and starts on its line. -/
theorem Denotes.written (h : Denotes line lexeme (some t)) :
    t.written = lexeme ∧ t.line = line ∧ t.kind ≠ .eof := by
  cases h with
  | @reserved word kind hword =>
    have hkinds : ∀ entry ∈ reservedWords, entry.2 ∉ [.string, .eof] := by decide
    have hkind := hkinds _ hword
    simp only [List.mem_cons, List.not_mem_nil, or_false, not_or] at hkind
    exact ⟨Token.written_of_ne hkind.1, rfl, hkind.2⟩
  | identifier | integer | double => exact ⟨rfl, rfl, by simp⟩
  | string => exact ⟨if_pos rfl, rfl, by simp⟩
  | @symbol text kind hsymbol =>
    have hkinds : ∀ p ∈ patterns, ∀ kind ∈ p.kind?, kind ∉ [.string, .eof] := by decide
    have hkind := hkinds _ hsymbol kind rfl
    simp only [List.mem_cons, List.not_mem_nil, or_false, not_or] at hkind
    exact ⟨Token.written_of_ne hkind.1, rfl, hkind.2⟩

/-- A fixed text is a word of the table of reserved words or of the patterns, so it is a lexeme of
its class. -/
theorem denotes_of_fixedText? {kind : TokenKind} {value : String}
    (hkind : kind ≠ .eof) (h : kind.fixedText? = some value) :
    Denotes line value.toList (some ⟨kind, value, line⟩) := by
  rcases reserved_or_symbol kind (TokenKind.mem_all kind) value h with heof | hword | hsymbol
  · exact absurd heof hkind
  · exact .reserved hword
  · exact .symbol hsymbol

/-- Every spelled token is what its written form stands for, except for the end of the input.
`Denotes.written` is the other direction. -/
theorem denotes_written (h : t.Spelled) (hkind : t.kind ≠ .eof) :
    Denotes t.line t.written (some t) := by
  obtain ⟨kind, value, line⟩ := t
  cases kind with
  | eof => exact absurd rfl hkind
  | identifier => exact .identifier h.1 h.2
  | string => exact .string h
  | integer => exact .integer h
  | double => exact .double h
  | boolean =>
    have hwords : ("true", .boolean) ∈ reservedWords ∧ ("false", .boolean) ∈ reservedWords := by
      decide
    rcases h with rfl | rfl
    · exact .reserved hwords.1
    · exact .reserved hwords.2
  | _ => exact denotes_of_fixedText? hkind h

/-- Only text literals run over lines, by `lineFeed_notMem`. -/
theorem Token.Spelled.newline_notMem (h : t.Spelled) (hkind : t.kind ≠ .string) :
    '\n' ∉ t.value.toList := by
  by_cases heof : t.kind = .eof
  · obtain ⟨kind, value, line⟩ := t
    obtain rfl : kind = .eof := heof
    obtain rfl : "EOF" = value := Option.some.inj h
    show '\n' ∉ "EOF".toList
    decide
  · -- Only line breaks and quotes take line feeds: those make no token, these make a string.
    obtain ⟨p, hp, hmem, htoken⟩ := (denotes_written h heof).exists_pattern
    rw [written_of_ne hkind] at hmem
    refine Pattern.lineFeed_notMem hp ?_ hmem
    simp only [List.mem_cons, List.not_mem_nil, or_false, not_or]
    constructor
    · rintro rfl
      simp [Pattern.token?] at htoken
    · rintro rfl
      obtain ⟨contents, -, htext⟩ := Option.map_eq_some_iff.1 htoken
      exact hkind (congrArg Token.kind htext).symm

/-! ### Token lists of sources -/

/-- A token list that is closed once, at its end, whose tokens are spelled like their classes,
and which keeps to its lines: the first token stands on line `line` or behind it, and each
other one where the one before it ends or behind that. -/
inductive WellFormed : Nat → List Token → Prop where
  | ends {line last : Nat} : line ≤ last → WellFormed line [.endOfInput last]
  | cons {line : Nat} {t : Token} {ts : List Token} :
      line ≤ t.line → t.kind ≠ .eof → t.Spelled →
      WellFormed (t.line + t.value.toList.count '\n') ts → WellFormed line (t :: ts)

namespace WellFormed

variable {line line' : Nat} {tokens : List Token}

/-- A list that may begin on a later line may begin on an earlier one. -/
theorem mono (h : WellFormed line tokens) (hle : line' ≤ line) : WellFormed line' tokens := by
  cases h with
  | ends hline => exact .ends (Nat.le_trans hle hline)
  | cons hline hkind hspelled hothers =>
    exact .cons (Nat.le_trans hle hline) hkind hspelled hothers

/-- Each token is spelled; the last one is the end of the input. -/
theorem spelled (h : WellFormed line tokens) : ∀ t ∈ tokens, t.Spelled := by
  induction h with
  | ends =>
    intro t ht
    rw [List.mem_singleton.1 ht]
    exact Token.spelled_endOfInput _
  | cons _ _ hspelled _ ih => exact List.forall_mem_cons.2 ⟨hspelled, ih⟩

/-- The end of the input is the last token, and no other token is one. -/
theorem exists_concat {line : Nat} {tokens : List Token} (h : WellFormed line tokens) :
    ∃ before last, tokens = before ++ [.endOfInput last] ∧ ∀ t ∈ before, t.kind ≠ .eof := by
  induction h with
  | @ends _ last => exact ⟨[], last, rfl, by simp⟩
  | @cons _ t _ _ hkind _ _ ih =>
    obtain ⟨before, last, rfl, hbefore⟩ := ih
    exact ⟨t :: before, last, rfl, List.forall_mem_cons.2 ⟨hkind, hbefore⟩⟩

end WellFormed

/-! ### Scans give well-formed lists -/

/-- The tokens that a scan has found keep to their lines: each one starts where its lexeme does,
and line feeds are counted in between, by `count_newline_written`. -/
theorem Tiling.wellFormed {rest before : List Char} {lexemes : List (List Char)}
    {tokens : List Token} (h : Tiling rest before lexemes tokens) :
    WellFormed (1 + before.count '\n')
      (tokens ++ [.endOfInput (1 + (before ++ lexemes.flatten).count '\n')]) := by
  induction h with
  | nil before => exact .ends (by simp)
  | @cons before lexeme lexemes token? tokens _ hdenotes _ ih =>
    rw [List.append_assoc, ← List.flatten_cons] at ih
    cases token? with
    | none => exact ih.mono (by simp)
    | some t =>
      obtain ⟨hwritten, hline, hkind⟩ := hdenotes.written
      refine .cons (Nat.le_of_eq hline.symm) hkind hdenotes.spelled ?_
      -- The next lexeme starts on the line on which this one ends.
      rwa [hline, ← t.count_newline_written, hwritten, Nat.add_assoc, ← List.count_append]

/-- The token list of a source, from `tokenize_tiles` and `Tiling.wellFormed`. -/
theorem wellFormed_of_tokenize {source : String} {tokens : List Token}
    (h : tokenize source = .ok tokens) : WellFormed 1 tokens := by
  obtain ⟨lexemes, front, hsource, htiling, rfl⟩ := exists_tiling_of_tokenize h
  rw [hsource]
  exact htiling.wellFormed

end DrLang
