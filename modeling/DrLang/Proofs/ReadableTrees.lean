import DrLang.Proofs.TreeDump
import DrLang.Proofs.SyntaxAlone
import DrLang.Proofs.PrintedTokens
import DrLang.Proofs.PrintedTrees

/-!
# Trees that can be read back

The labels of a compiled tree are words for constructs and texts of tokens, perhaps with a word in
front or in quotes. No token begins with a blank, and only text literals run over lines. So a tree
of a source in which none does is told by its text.

- `Token.OnOneLine`: tokens that do not run over lines.
- `Likeness.readable`: what is made of such tokens has readable labels.
- `readable_of_compile`: the trees of sources.
- `pretty_determines_tree`: what the text of a tree tells.
-/

namespace DrLang

open Parse

/-! ### Labels made of tokens -/

/-- A spelled token that does not run over lines. -/
structure Token.OnOneLine (t : Token) : Prop where
  spelled : t.Spelled
  literal : t.kind = .string → '\n' ∉ t.value.toList

variable {t : Token}

/-- No token but a literal has a line feed in it, by `Token.Spelled.newline_notMem`. -/
theorem Token.OnOneLine.newline_notMem (h : t.OnOneLine) : '\n' ∉ t.value.toList := by
  by_cases hkind : t.kind = .string
  · exact h.literal hkind
  · exact h.spelled.newline_notMem hkind

/-- Only the beginning of a label may not be a blank. -/
theorem ReadableLabel.append {label text : String} (h : ReadableLabel label)
    (htext : '\n' ∉ text.toList) : ReadableLabel (label ++ text) := by
  obtain ⟨c, cs, hlabel, hc⟩ := h.exists_cons
  have hboth : (label ++ text).toList = c :: (cs ++ text.toList) := by
    rw [String.toList_append, hlabel, List.cons_append]
  refine .of_cons hboth hc ?_
  rw [String.toList_append, List.mem_append, not_or]
  exact ⟨h.newline_notMem, htext⟩

/-- The text of a token is not empty and begins with no blank, since it is a lexeme. -/
theorem readable_value (h : t.Spelled) (hkind : t.kind ≠ .string) : ReadableLabel t.value := by
  by_cases heof : t.kind = .eof
  · obtain ⟨kind, value, line⟩ := t
    obtain rfl : kind = .eof := heof
    obtain rfl : "EOF" = value := Option.some.inj h
    show ReadableLabel "EOF"
    decide
  · obtain ⟨c, w, hvalue, hgap⟩ := isGap_head?_written h heof
    rw [Token.written_of_ne hkind] at hvalue
    refine .of_cons hvalue ?_ (h.newline_notMem hkind)
    rintro rfl
    exact absurd hgap (by decide)

/-- A string is put in quotes, so its label begins with one, even if the string is empty or begins
with a blank. -/
theorem readable_literalLabel (h : t.OnOneLine) : ReadableLabel (literalLabel t) := by
  unfold literalLabel
  split
  case isTrue =>
    have hquote : ReadableLabel "\"" := by decide
    exact (hquote.append h.newline_notMem).append (by decide)
  case isFalse hkind => exact readable_value h.spelled hkind

/-- The labels of constructs are fixed words, so this is decided by going through
`constructLabels`. -/
theorem readable_construct : ∀ label ∈ constructLabels, ReadableLabel label := by
  decide

/-! ### Trees made of tokens -/

/-- Tokens that do not run over lines, and trees whose labels are readable. The second parse is
another look at the first one. -/
def Likeness.readable : Likeness :=
  Guise.likeness
    { token := fun t u => t.kind = u.kind ∧ t.OnOneLine
      label := fun label _ => ReadableLabel label
      line := fun _ _ => True
      kind_eq := And.left
      line_token := fun _ => trivial
      label_literal := fun h => readable_literalLabel h.2
      label_call := fun h => ReadableLabel.append (by decide) h.2.newline_notMem
      label_attach := fun h => ReadableLabel.append (by decide) h.2.newline_notMem
      label_construct := readable_construct }

/-- What is made of tokens on one line has readable labels: `Node.Readable` passes from children
to nodes, by `Passes.rel_of_node`. -/
theorem Likeness.readable_of_node {n m : Node} (h : readable.node n m) : n.Readable := by
  have hreadable : readable.Passes fun n _ => n.Readable := by
    intro n m hlabel _ _ hchildren
    have hpaired := hchildren.imp fun _ _ h => And.intro h trivial
    exact .intro hlabel ((List.forall₂_and_left _ _).1 hpaired).1
  exact hreadable.rel_of_node n m h

/-- Where no text literal runs over lines, the tree of a source is readable. -/
theorem readable_of_compile {source : String} {c : Compilation} (h : compile source = .ok c)
    (hliteral : ∀ t ∈ c.tokens, t.kind = .string → '\n' ∉ t.value.toList) : c.tree.Readable := by
  obtain ⟨htokens, s, hparse, -, -⟩ := compile_eq_ok_iff.1 h
  have hwellFormed := wellFormed_of_tokenize htokens
  -- A run in lockstep with itself: the relation is a property that both sides have.
  have habreast : Abreast Likeness.readable (.start c.tokens) (.start c.tokens) := by
    refine ⟨?_, trivial⟩
    rw [hwellFormed.endsOnce.tokens_start]
    exact List.forall₂_same.2 fun t ht => ⟨rfl, hwellFormed.spelled t ht, hliteral t ht⟩
  have hprogram (ns ms : List Node) (h : List.Forall₂ Likeness.readable.node ns ms) :
      Likeness.readable.node (.group "Program" 0 ns) (.group "Program" 0 ms) := by
    have hlabel : ReadableLabel "Program" := by decide
    exact Likeness.node_mk hlabel False.elim (by trivial) (Likeness.nodes_of_forall₂ h)
  have hparsed (count : Nat) := (silent_parsed count).respects (silent_parsed count)
    (P := fun _ _ => True) fun _ _ => trivial
  have hrelated := Builds.related (K := Likeness.readable) (fun _ => trivial) hprogram hparsed
    .program (.start c.tokens) (.start c.tokens)
  obtain ⟨houtcome, -⟩ := hrelated habreast
  rw [parse] at hparse
  rw [hparse] at houtcome
  cases houtcome with
  | ok hnodes => exact Likeness.readable_of_node (List.forall₂_cons.1 hnodes).1

/-- **The text of a tree tells the tree**: where no label is empty, runs over lines or begins with a
blank, trees with the same text are equal, and the tree is read back from the text. All trees of
sources are such whose text literals do not run over lines. -/
theorem pretty_determines_tree :
    (∀ n m : Node, n.Readable → m.Readable → n.pretty = m.pretty → n = m) ∧
    (∀ n : Node, n.Readable → Node.ofPretty? n.pretty = some n) ∧
    ∀ source c, compile source = .ok c →
      (∀ t ∈ c.tokens, t.kind = .string → '\n' ∉ t.value.toList) → c.tree.Readable := by
  refine ⟨fun n m hn hm heq => ?_, fun _ => Node.ofPretty?_pretty, fun _ _ => readable_of_compile⟩
  have hread := Node.ofPretty?_pretty hn
  rw [heq, Node.ofPretty?_pretty hm] at hread
  exact (Option.some.inj hread).symm

/-- A call with a text literal that looks like the end of a line, and a declaration behind it. -/
def lookalike : String :=
  "SHOW f(\"x : int (line 9)\", 2);\nnote y;"

/-- The text of its tree. -/
def lookalikeText : String :=
  "Program : void (line 0)\n  OUTPUT : void (line 1)\n    Call f : unknown (line 1)\n" ++
    "      \"x : int (line 9)\" : string (line 1)\n      2 : int (line 1)\n" ++
    "  Declaration : void (line 2)\n    y : note (line 2)\n"

/-- Each line is read from its end, so the literal is not mistaken for one, and no other tree has
this text. -/
theorem pretty_determines_lookalike :
    ∃ c, compile lookalike = .ok c ∧ c.tree.pretty = lookalikeText ∧
      Node.ofPretty? lookalikeText = some c.tree ∧
      ∀ n : Node, n.Readable → n.pretty = lookalikeText → n = c.tree := by
  have hrun : (compile lookalike).map (fun c => (c.tree.pretty,
      decide (∀ t ∈ c.tokens, t.kind = .string → '\n' ∉ t.value.toList))) =
        .ok (lookalikeText, true) := by
    decide +kernel
  obtain ⟨c, hcompile, hfound⟩ := exists_eq_ok_of_map hrun
  obtain ⟨hpretty, hliteral⟩ := Prod.mk.inj hfound
  obtain ⟨hdetermines, hread, hsources⟩ := pretty_determines_tree
  have hreadable := hsources lookalike c hcompile (of_decide_eq_true hliteral)
  rw [← hpretty]
  exact ⟨c, hcompile, rfl, hread c.tree hreadable, fun n hn => hdetermines n c.tree hn hreadable⟩

end DrLang
