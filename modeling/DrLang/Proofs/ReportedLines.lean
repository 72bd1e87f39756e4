import DrLang.Proofs.Relabelling.Parse
import DrLang.Proofs.ShownLines
import DrLang.Source.Excerpt

/-!
# Reported lines

Every line that a compilation speaks of is the line of one of its tokens: of a node, a symbol, a
semantic error, an earlier declaration that an error refers to, and of a fatal error. So it is a
line of the source, and can be shown.

That each rule copies its lines need not be gone through again. A replacement of lines that leaves
the lines of the tokens alone leaves the tokens alone, and so all that is made of them; if it moves
every other line, no other line is there.

- `Compilation.lines`: all lines of a compilation.
- `Relabelling.raising`: a replacement that moves all lines but those of a list.
- `mem_lines_of_tree`, `mem_lines_of_symbol`, `mem_lines_of_error`: all lines of a parse are lines
  of its tokens.
- `reported_lines_shown`: every reported line exists, and shows the text that it is reported for.
-/

namespace DrLang

open Parse

/-! ### The lines of a compilation -/

/-- The line of an earlier definition, in the errors that refer to one. -/
def SemanticCause.previousLine? : SemanticCause → Option Nat
  | .redeclaration _ previousLine => some previousLine
  | .entryPointRedefined previousLine => some previousLine
  | _ => none

/-- The lines that an error speaks of: the one it is reported on, and that of an earlier
definition. -/
def SemanticError.lines (e : SemanticError) : List Nat :=
  e.line :: e.cause.previousLine?.toList

/-- The lines of some trees, in document order. -/
def Node.linesAll (ns : List Node) : List Nat :=
  (Node.walkAll 0 ns).map fun (_, n) => n.line

/-- All lines that a compilation speaks of. Only the root of the tree is on none. -/
def Compilation.lines (c : Compilation) : List Nat :=
  c.tokens.map Token.line ++ Node.linesAll c.tree.children ++ c.symbols.map Symbol.line ++
    c.errors.flatMap SemanticError.lines

/-! ### Lines that are left alone -/

namespace Relabelling

/-- Every line but those of a list is moved, and no name is replaced. -/
def raising (lines : List Nat) : Relabelling where
  line l := if l ∈ lines then l else l + 1
  name := id

section Raising

variable {lines : List Nat}

/-- A line that stays where it is, is one of those that are not moved. -/
theorem mem_of_line_raising {l : Nat} (h : (raising lines).line l = l) : l ∈ lines := by
  by_contra hnot
  have hmoved : (raising lines).line l = l + 1 := if_neg hnot
  omega

/-- A token on one of the lines is left as it is by `raising`. -/
theorem token_raising {t : Token} (h : t.line ∈ lines) : (raising lines).token t = t := by
  have hline : (raising lines).line t.line = t.line := if_pos h
  obtain ⟨kind, value, line⟩ := t
  by_cases hkind : kind = .identifier
  · rw [token_of_identifier hkind, hline]
    rfl
  · rw [token_of_ne hkind, hline]

/-- If an error is left as it is, all its lines are on the list, the one that its cause refers to
as well. -/
theorem mem_of_semanticError_raising {e : SemanticError}
    (h : (raising lines).semanticError e = e) {l : Nat} (hl : l ∈ e.lines) : l ∈ lines := by
  obtain ⟨line, cause⟩ := e
  obtain ⟨hline, hcause⟩ := (SemanticError.mk.injEq _ _ _ _).mp h
  rcases List.mem_cons.1 hl with rfl | hl
  · exact mem_of_line_raising hline
  · rw [Option.mem_toList] at hl
    cases cause with
    | redeclaration name previousLine =>
      obtain rfl := Option.some.inj hl
      exact mem_of_line_raising ((SemanticCause.redeclaration.injEq _ _ _ _).mp hcause).2
    | entryPointRedefined previousLine =>
      obtain rfl := Option.some.inj hl
      exact mem_of_line_raising ((SemanticCause.entryPointRedefined.injEq _ _).mp hcause)
    | _ => simp [SemanticCause.previousLine?] at hl

mutual

/-- If a tree is left as it is, the lines of all its nodes are on the list, by induction on the
tree. -/
theorem mem_of_node_raising {n : Node} (h : (raising lines).node n = n) (depth : Nat) :
    ∀ entry ∈ n.walk depth, entry.2.line ∈ lines := by
  obtain ⟨label, type, line, children⟩ := n
  rw [node_mk] at h
  obtain ⟨-, -, hline, hchildren⟩ := (Node.mk.injEq _ _ _ _ _ _ _ _).mp h
  intro entry hentry
  rcases List.mem_cons.1 hentry with rfl | hentry
  · exact mem_of_line_raising hline
  · exact mem_of_nodes_raising hchildren (depth + 1) entry hentry

/-- The same of trees, one after the other. -/
theorem mem_of_nodes_raising {ns : List Node} (h : (raising lines).nodes ns = ns) (depth : Nat) :
    ∀ entry ∈ Node.walkAll depth ns, entry.2.line ∈ lines := by
  cases ns with
  | nil => simp [Node.walkAll]
  | cons n ns =>
    obtain ⟨hnode, hnodes⟩ := List.cons.inj h
    intro entry hentry
    rcases List.mem_append.1 hentry with hentry | hentry
    · exact mem_of_node_raising hnode depth entry hentry
    · exact mem_of_nodes_raising hnodes depth entry hentry

end

end Raising

end Relabelling

/-! ### The lines of a parse -/

section Parse

variable {source : String} {tokens : List Token} (h : tokenize source = .ok tokens)
include h

/-- A parse goes on beside itself, with every line moved by `raising` that is not one of its
tokens. -/
theorem lockstep_raising :
    let K := Relabelling.kinship (r := .raising (tokens.map Token.line)) (Set.injOn_id _)
    EndAlike K.token (fun n m => ∃ ns ms, List.Forall₂ K.node ns ms ∧ n = .group "Program" 0 ns ∧
      m = .group "Program" 0 ms) (parse tokens).1 (parse tokens).1 ∧
    Abreast K (parse tokens).2 (parse tokens).2 := by
  intro K
  have hends := (wellFormed_of_tokenize h).endsOnce
  have habreast := Relabelling.abreast_start (r := .raising (tokens.map Token.line))
    (Set.injOn_id _) hends (fits_of_tokenize h)
  have hkept : tokens.map (Relabelling.raising (tokens.map Token.line)).token = tokens :=
    (List.map_congr_left fun t ht => Relabelling.token_raising (List.mem_map_of_mem ht)).trans
      (List.map_id tokens)
  rw [hkept] at habreast
  exact Lockstep.program Relabelling.respects_parsed habreast

/-- The lines of the tokens are left alone, so `lockstep_raising` compares a parse with itself,
and says that what it notes is left alone too. -/
theorem parser_raising :
    (Relabelling.raising (tokens.map Token.line)).parser (parse tokens).2 = (parse tokens).2 :=
  (Relabelling.eq_parser_of_abreast (lockstep_raising h).2).symm

/-- The nodes of a tree are on lines of the tokens: `lockstep_raising` gives the same tree with
all others moved. -/
theorem mem_lines_of_tree {tree : Node} (hparse : (parse tokens).1 = .ok tree) :
    ∀ line ∈ Node.linesAll tree.children, line ∈ tokens.map Token.line := by
  obtain ⟨houtcome, -⟩ := lockstep_raising h
  rw [hparse] at houtcome
  cases houtcome with
  | ok hnodes =>
    obtain ⟨ns, ms, hnodes, rfl, hsame⟩ := hnodes
    obtain ⟨-, -, -, rfl⟩ := (Node.mk.injEq _ _ _ _ _ _ _ _).mp hsame
    have hkept := (Relabelling.nodes_of_forall₂ _ hnodes).symm
    intro line hline
    obtain ⟨entry, hentry, rfl⟩ := List.mem_map.1 hline
    exact Relabelling.mem_of_nodes_raising hkept 0 entry hentry

/-- Symbols are declared on lines of the tokens. -/
theorem mem_lines_of_symbol {symbol : Symbol}
    (hsymbol : symbol ∈ (parse tokens).2.symbols.declared) :
    symbol.line ∈ tokens.map Token.line := by
  have hdeclared := congrArg (fun s => s.symbols.declared) (parser_raising h)
  have hkept := List.map_inj_left.1 (hdeclared.trans (List.map_id _).symm) symbol hsymbol
  exact Relabelling.mem_of_line_raising (congrArg Symbol.line hkept)

/-- Errors are reported on lines of the tokens, and refer to such lines:
`mem_of_semanticError_raising` for each. -/
theorem mem_lines_of_error {e : SemanticError} (he : e ∈ (parse tokens).2.diagnostics) :
    ∀ line ∈ e.lines, line ∈ tokens.map Token.line := by
  have hdiagnostics := congrArg Parser.diagnostics (parser_raising h)
  have hkept := List.map_inj_left.1 (hdiagnostics.trans (List.map_id _).symm) e he
  exact fun _ hline => Relabelling.mem_of_semanticError_raising hkept hline

/-- A parse fails on the line of a token, the one that is blamed in `blamed_of_parse`. -/
theorem mem_lines_of_fatalError {e : FatalError} (hparse : (parse tokens).1 = .error e) :
    e.line ∈ tokens.map Token.line := by
  have hends := (wellFormed_of_tokenize h).endsOnce
  obtain ⟨used, found, ahead, expected, rfl, rfl, -⟩ := blamed_of_parse hends hparse
  exact List.mem_map.2 ⟨found, by simp, rfl⟩

end Parse

/-! ### The lines of tokens -/

/-- Every token of a tiling stands for one of the lexemes. -/
theorem Tiling.exists_lexeme {rest before : List Char} {lexemes : List (List Char)}
    {tokens : List Token} (h : Tiling rest before lexemes tokens) {t : Token} (ht : t ∈ tokens) :
    ∃ front lexeme behind, lexemes = front ++ lexeme :: behind ∧
      Denotes (1 + (before ++ front.flatten).count '\n') lexeme (some t) := by
  induction h with
  | nil => simp at ht
  | @cons before lexeme lexemes token? tokens hlongest hdenotes _ ih =>
    rcases List.mem_append.1 ht with ht | ht
    · rw [Option.mem_toList] at ht
      obtain rfl : token? = some t := ht
      exact ⟨[], lexeme, lexemes, rfl, by simpa using hdenotes⟩
    · obtain ⟨front, later, behind, rfl, hlater⟩ := ih ht
      refine ⟨lexeme :: front, later, behind, rfl, ?_⟩
      rwa [List.flatten_cons, ← List.append_assoc]

/-- A token starts on the line that its lexeme starts on, so `shows_lexeme` says what is found
there. -/
theorem shows_token {source : String} {rest : List Char} {lexemes front behind : List (List Char)}
    {lexeme : List Char} {t : Token} (hsource : source.toList = lexemes.flatten ++ rest)
    (hlexemes : lexemes = front ++ lexeme :: behind)
    (h : Denotes (1 + front.flatten.count '\n') lexeme (some t)) :
    Shows source t.line (onFirstLine lexeme) := by
  rw [h.written.2.1]
  have hsplit : source.toList = front.flatten ++ (lexeme ++ (behind.flatten ++ rest)) := by
    rw [hsource, hlexemes]
    simp
  exact shows_lexeme hsplit h.getLast?_ne

/-- A text that is found on a line is found on one that exists. -/
theorem isSome_of_shows {source : String} {line : Nat} {w : List Char} (h : Shows source line w) :
    (getLine? source line).isSome := by
  obtain ⟨text, htext, -⟩ := h
  rw [htext]
  rfl

/-- Every token is on a line of its source: its lexeme is found there by `shows_token`, and the
end of the input is on the last line. -/
theorem isSome_of_mem_tokens {source : String} {tokens : List Token}
    (h : tokenize source = .ok tokens) {line : Nat} (hline : line ∈ tokens.map Token.line) :
    (getLine? source line).isSome := by
  obtain ⟨lexemes, front, hsource, htiling, rfl⟩ := exists_tiling_of_tokenize h
  obtain ⟨t, ht, rfl⟩ := List.mem_map.1 hline
  rcases List.mem_append.1 ht with ht | ht
  · obtain ⟨before, lexeme, behind, hlexemes, hdenotes⟩ := htiling.exists_lexeme ht
    have htext : source.toList = lexemes.flatten ++ [] := by rw [hsource, List.append_nil]
    exact isSome_of_shows (shows_token htext hlexemes hdenotes)
  · obtain rfl := List.mem_singleton.1 ht
    rw [isSome_getLine?_iff]
    exact ⟨Nat.le_add_right 1 _, le_rfl⟩

/-! ### Every line -/

/-- All lines of a compilation exist, since all of them are lines of tokens and those exist. -/
theorem isSome_of_mem_lines {source : String} {c : Compilation} (h : compile source = .ok c) :
    ∀ line ∈ c.lines, (getLine? source line).isSome := by
  obtain ⟨htokens, s, hparse, hsymbols, herrors⟩ := compile_eq_ok_iff.1 h
  have hresult : (parse c.tokens).1 = .ok c.tree := by rw [hparse]
  intro line hline
  apply isSome_of_mem_tokens htokens
  simp only [Compilation.lines, List.mem_append, List.mem_map, List.mem_flatMap] at hline
  rcases hline with ((⟨t, ht, rfl⟩ | htree) | ⟨symbol, hsymbol, rfl⟩) | ⟨e, he, hline⟩
  · exact List.mem_map_of_mem ht
  · exact mem_lines_of_tree htokens hresult line htree
  · apply mem_lines_of_symbol htokens
    rwa [hparse, hsymbols]
  · refine mem_lines_of_error htokens ?_ line hline
    rwa [hparse, herrors]

/-- A fatal error is the character where the scan stopped, or comes from the parse:
`mem_lines_of_fatalError`. -/
theorem isSome_of_fatalError {source : String} {e : FatalError} (h : compile source = .error e) :
    (getLine? source e.line).isSome ∧
      ∀ text, e.cause = .unrecognised text → Shows source e.line text.toList := by
  rcases compile_eq_error_iff.1 h with hscanned | ⟨tokens, htokens, hresult⟩
  · obtain ⟨lexemes, tokens, rest, hsource, htiling, hrest, hscan⟩ := exists_tiling_scan source
    rw [tokenize, hscan] at hscanned
    cases rest with
    | nil => simp [Scan.stop] at hscanned
    | cons c rest =>
      obtain rfl := Except.error.inj hscanned
      have hshows := shows_blamed hsource hrest
      refine ⟨isSome_of_shows hshows, ?_⟩
      rintro _ hcause
      obtain rfl := FatalCause.unrecognised.inj hcause
      simpa using hshows
  · refine ⟨isSome_of_mem_tokens htokens (mem_lines_of_fatalError htokens hresult), ?_⟩
    intro text hcause
    -- The parser never blames a character, so its errors have none to show.
    have hends := (wellFormed_of_tokenize htokens).endsOnce
    obtain ⟨used, found, ahead, expected, -, rfl, -⟩ := blamed_of_parse hends hresult
    simp [FatalError.atToken] at hcause

/-- **Reported lines are shown**: the lexeme of each token, as far as it stands on its first line,
is found in the line of the token as it is shown. Every line of a compilation is a line of its
source, and so is the line of a fatal error; a character that was not recognised is found there.
So whoever is shown a fatal error beside its source is shown the line. -/
theorem reported_lines_shown (source : String) :
    (∃ lexemes tokens rest, source.toList = lexemes.flatten ++ rest ∧
      Tiling rest [] lexemes tokens ∧ (∀ w ∈ lexemeWords, ¬ w <+: rest) ∧
      ∀ t ∈ (scan source).tokens, t.kind ≠ .eof →
        ∃ front lexeme behind, lexemes = front ++ lexeme :: behind ∧
          Denotes (1 + front.flatten.count '\n') lexeme (some t) ∧
          Shows source t.line (onFirstLine lexeme)) ∧
    (∀ c, compile source = .ok c → ∀ line ∈ c.lines, (getLine? source line).isSome) ∧
    ∀ e, compile source = .error e →
      (∀ text, e.cause = .unrecognised text → Shows source e.line text.toList) ∧
      ∃ line, getLine? source e.line = some line ∧ ∀ file, e.excerpt source file =
        e.heading ++ "-> " ++ file ++ "\n" ++ e.gutter ++
          (toString e.line ++ " | " ++ Text.trimmed line ++ "\n" ++ e.gutter) := by
  refine ⟨?_, fun c h => isSome_of_mem_lines h, fun e h => ?_⟩
  · obtain ⟨lexemes, tokens, rest, hsource, htiling, hrest, hscan⟩ := exists_tiling_scan source
    refine ⟨lexemes, tokens, rest, hsource, htiling, hrest, fun t ht hkind => ?_⟩
    -- The token that closes the input is the only one that no lexeme stands for.
    have hmem : t ∈ tokens := by
      rw [hscan] at ht
      cases rest with
      | cons => exact ht
      | nil =>
        rcases List.mem_append.1 ht with ht | ht
        · exact ht
        · obtain rfl := List.mem_singleton.1 ht
          exact absurd rfl hkind
    obtain ⟨front, lexeme, behind, hlexemes, hdenotes⟩ := htiling.exists_lexeme hmem
    exact ⟨front, lexeme, behind, hlexemes, hdenotes, shows_token hsource hlexemes hdenotes⟩
  · obtain ⟨hline, hshows⟩ := isSome_of_fatalError h
    obtain ⟨line, hfound⟩ := Option.isSome_iff_exists.1 hline
    refine ⟨hshows, line, hfound, fun file => ?_⟩
    unfold FatalError.excerpt
    rw [hfound]

/-- A text literal over three lines, with returns before the line feeds, and a stray character
behind it. -/
def strayed : String :=
  "note s = \"a\r\n b\r\n\"; @"

/-- The text is found in the first line, and the character in the third one. -/
theorem reported_lines_shown_strayed :
    Shows strayed 1 ['"', 'a'] ∧ Shows strayed 3 ['@'] := by
  have hscanned : (⟨.string, "a\r\n b\r\n", 1⟩ : Token) ∈ (scan strayed).tokens := by
    decide +kernel
  have hfails : (match compile strayed with
      | .error e => some e
      | .ok _ => none) = some ⟨3, .unrecognised "@"⟩ := by
    decide +kernel
  obtain ⟨⟨lexemes, tokens, rest, -, -, -, htokens⟩, -, herrors⟩ := reported_lines_shown strayed
  constructor
  · obtain ⟨front, lexeme, behind, -, hdenotes, hshows⟩ := htokens _ hscanned (by decide)
    rw [← hdenotes.written.1] at hshows
    exact hshows
  · cases hcompile : compile strayed with
    | ok c => simp [hcompile] at hfails
    | error e =>
      rw [hcompile] at hfails
      obtain rfl := Option.some.inj hfails
      exact (herrors _ hcompile).1 "@" rfl

end DrLang
