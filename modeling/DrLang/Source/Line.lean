/-!
# Lines of a source text

A source text is a list of lines with line feeds between them. Lines are counted from
one, and shown without the carriage returns at their end.

- `splitLines`: the lines of a text.
- `getLine?`: one line of a source text, as it is shown.
-/

namespace DrLang

/-- The first line of a text and the lines after it. There is always a first line,
though it may be empty. -/
def splitLines : List Char → List Char × List (List Char)
  | [] => ([], [])
  | c :: cs =>
    let (first, others) := splitLines cs
    if c = '\n' then ([], first :: others) else (c :: first, others)

/-- The lines of a text. -/
def linesOf (text : List Char) : List (List Char) :=
  (splitLines text).1 :: (splitLines text).2

/-- A line without the carriage returns at its end. -/
def dropReturns (line : List Char) : List Char :=
  (line.reverse.dropWhile (· == '\r')).reverse

/-- Line number `line` of a source text, if the text has so many lines. -/
def getLine? (source : String) (line : Nat) : Option String :=
  match line with
  | 0 => none
  | index + 1 => (linesOf source.toList)[index]?.map fun text => String.ofList (dropReturns text)

/-! ### Lines and line feeds -/

@[simp] theorem linesOf_nil : linesOf [] = [[]] := rfl

@[simp] theorem linesOf_newline (cs : List Char) : linesOf ('\n' :: cs) = [] :: linesOf cs := rfl

/-- Any other character is added to the first line. -/
theorem linesOf_cons {c : Char} (h : c ≠ '\n') (cs : List Char) :
    linesOf (c :: cs) = (c :: (splitLines cs).1) :: (splitLines cs).2 := by
  simp [linesOf, splitLines, h]

/-- A line feed stands between the lines in front of it and those behind it. -/
theorem linesOf_append (before behind : List Char) :
    linesOf (before ++ '\n' :: behind) = linesOf before ++ linesOf behind := by
  induction before with
  | nil => rfl
  | cons c cs ih =>
    by_cases h : c = '\n'
    · subst h
      rw [List.cons_append, linesOf_newline, ih, linesOf_newline, List.cons_append]
    · -- The first line of the rest is lengthened, and nothing else is changed.
      obtain ⟨hfirst, hothers⟩ := List.cons.inj ih
      rw [List.cons_append, linesOf_cons h, linesOf_cons h, hfirst, hothers]
      rfl

/-- A text without a line feed is one line. -/
theorem linesOf_of_notMem {text : List Char} (h : '\n' ∉ text) : linesOf text = [text] := by
  induction text with
  | nil => rfl
  | cons c cs ih =>
    rw [List.mem_cons, not_or] at h
    obtain ⟨hfirst, hothers⟩ := List.cons.inj (ih h.2)
    rw [linesOf_cons (Ne.symm h.1), hfirst, hothers]

/-- A line of its own in front of a text. -/
theorem linesOf_line {line : List Char} (h : '\n' ∉ line) (behind : List Char) :
    linesOf (line ++ '\n' :: behind) = line :: linesOf behind := by
  rw [linesOf_append, linesOf_of_notMem h]
  rfl

/-- There is one line more than there are line feeds. -/
@[simp] theorem length_linesOf (text : List Char) :
    (linesOf text).length = text.count '\n' + 1 := by
  induction text with
  | nil => rfl
  | cons c cs ih =>
    by_cases h : c = '\n'
    · subst h
      simp [ih]
    · simpa [linesOf, splitLines, h] using ih

/-- No line holds a line feed. -/
theorem newline_notMem_of_mem_linesOf {text line : List Char} (h : line ∈ linesOf text) :
    '\n' ∉ line := by
  induction text generalizing line with
  | nil => simp_all
  | cons c cs ih =>
    by_cases hc : c = '\n'
    · subst hc
      rw [linesOf_newline] at h
      rcases List.mem_cons.1 h with rfl | h
      · simp
      · exact ih h
    · simp only [linesOf, splitLines, if_neg hc, List.mem_cons] at h
      rcases h with rfl | h
      · have := ih (List.mem_cons_self (l := (splitLines cs).2))
        simp [this, Ne.symm hc]
      · exact ih (List.mem_cons_of_mem _ h)

/-- A line as `getLine?` shows it has no line feed in it. -/
theorem newline_notMem_of_getLine? {source text : String} {line : Nat}
    (h : getLine? source line = some text) : '\n' ∉ text.toList := by
  cases line with
  | zero => simp [getLine?] at h
  | succ index =>
    obtain ⟨found, hfound, rfl⟩ := Option.map_eq_some_iff.1 h
    intro hmem
    rw [String.toList_ofList, dropReturns, List.mem_reverse] at hmem
    have hline := (List.dropWhile_sublist _).subset hmem
    exact newline_notMem_of_mem_linesOf (List.mem_of_getElem? hfound) (List.mem_reverse.1 hline)

end DrLang
