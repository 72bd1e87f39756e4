import DrLang.Proofs.Grammar

/-!
# What no sentence has

The grammar leaves out more than its productions say at first sight: two reserved words, a
brace that closes nothing, an alternative without its branch, a comparison of a comparison.
Each is shown by languages that are closed under the productions, and so hold whatever the
productions derive.

- `Derives.mem_interpret`: languages closed under the productions hold all that is derived.
- `Compositional`: a property of words that their parts have as well.
- `Orderly`: what holds of every sentence.
- `orderly_of_derives`: that it does.
-/

namespace DrLang.Grammar

open scoped Computability
open Construct

/-! ### Languages closed under the productions -/

/-- The language of a form, once each construct is given one. -/
def Form.interpret (I : Construct → Language TokenKind) : Form → Language TokenKind
  | token kind => oneOf [kind]
  | construct c => I c
  | sequence f g => f.interpret I * g.interpret I
  | either f g => f.interpret I + g.interpret I
  | optional f => 1 + f.interpret I
  | many f => (f.interpret I)∗

namespace Form

variable {I : Construct → Language TokenKind} {f g : Form} {w : List TokenKind}

@[simp] theorem mem_interpret_token {kind : TokenKind} :
    w ∈ (token kind).interpret I ↔ w = [kind] := by
  simp [interpret]

@[simp] theorem mem_interpret_construct {c : Construct} :
    w ∈ (construct c).interpret I ↔ w ∈ I c := Iff.rfl

@[simp] theorem mem_interpret_sequence :
    w ∈ (f ++ g).interpret I ↔ ∃ u ∈ f.interpret I, ∃ v ∈ g.interpret I, u ++ v = w := Iff.rfl

@[simp] theorem mem_interpret_either :
    w ∈ (f ||| g).interpret I ↔ w ∈ f.interpret I ∨ w ∈ g.interpret I := Iff.rfl

@[simp] theorem mem_interpret_optional :
    w ∈ (optional f).interpret I ↔ w = [] ∨ w ∈ f.interpret I := Iff.rfl

end Form

/-- What holds of each token and each construct of a form. -/
def Form.Mentions (onToken : TokenKind → Prop) (onConstruct : Construct → Prop) : Form → Prop
  | token kind => onToken kind
  | construct c => onConstruct c
  | sequence f g => f.Mentions onToken onConstruct ∧ g.Mentions onToken onConstruct
  | either f g => f.Mentions onToken onConstruct ∧ g.Mentions onToken onConstruct
  | optional f => f.Mentions onToken onConstruct
  | many f => f.Mentions onToken onConstruct

namespace Form

variable {onToken onToken' : TokenKind → Prop} {onConstruct onConstruct' : Construct → Prop}

/-- What holds of each part of a form may be replaced by what follows from it, by induction on the
form `f`. -/
theorem Mentions.mono (htoken : ∀ kind, onToken kind → onToken' kind)
    (hconstruct : ∀ c, onConstruct c → onConstruct' c) {f : Form}
    (h : f.Mentions onToken onConstruct) : f.Mentions onToken' onConstruct' := by
  induction f with
  | token kind => exact htoken kind h
  | construct c => exact hconstruct c h
  | sequence f g ihf ihg => exact ⟨ihf h.1, ihg h.2⟩
  | either f g ihf ihg => exact ⟨ihf h.1, ihg h.2⟩
  | optional f ih => exact ih h
  | many f ih => exact ih h

/-- What a form mentions is found by going through it, so tables such as `production` are checked by
`decide`. -/
instance decidableMentions [DecidablePred onToken] [DecidablePred onConstruct] :
    ∀ f : Form, Decidable (f.Mentions onToken onConstruct)
  | token kind => inferInstanceAs (Decidable (onToken kind))
  | construct c => inferInstanceAs (Decidable (onConstruct c))
  | sequence f g | either f g =>
    have := decidableMentions f
    have := decidableMentions g
    inferInstanceAs (Decidable (f.Mentions onToken onConstruct ∧ g.Mentions onToken onConstruct))
  | optional f | many f => decidableMentions f

end Form

variable {I : Construct → Language TokenKind} {f : Form} {u v w : List TokenKind}

/-- Languages that hold what the productions make of them hold all that is derived. -/
theorem Derives.mem_interpret
    (hI : ∀ c w, Derives (production c) w → w ∈ (production c).interpret I → w ∈ I c)
    (h : Derives f w) : w ∈ f.interpret I := by
  induction h with
  | token kind => exact ⟨kind, List.mem_singleton_self kind, rfl⟩
  | construct h ih => exact hI _ _ h ih
  | sequence _ _ ihf ihg => exact Language.append_mem_mul ihf ihg
  | left _ ih => exact .inl ih
  | right _ ih => exact .inr ih
  | absent => exact .inl Language.nil_mem_one
  | present _ ih => exact .inr ih
  | done => exact Language.nil_mem_kstar _
  -- The star is unrolled once, for the part in front.
  | @again f u v _ _ ihu ihv =>
    have hmem : u ++ v ∈ 1 + f.interpret I * (f.interpret I)∗ :=
      .inr (Language.append_mem_mul ihu ihv)
    rwa [Language.one_add_self_mul_kstar_eq_kstar] at hmem

/-! ### Productions with brackets -/

/-- What a block is made of. The four lemmas of this form read the production of a construct that
an argument below takes apart. -/
theorem mem_interpret_block (h : w ∈ (production .block).interpret I) :
    ∃ u ∈ I .statements, w = [.openCurly] ++ u ++ [.closeCurly] := by
  simp only [production, Form.mem_interpret_sequence, Form.mem_interpret_token,
    Form.mem_interpret_construct, exists_eq_left] at h
  obtain ⟨_, ⟨u, hu, rfl⟩, rfl⟩ := h
  exact ⟨u, hu, rfl⟩

theorem mem_interpret_check (h : w ∈ (production .check).interpret I) :
    ∃ decision ∈ I .condition, ∃ branch ∈ I .block, ∃ alternative,
      (alternative = [] ∨ ∃ v ∈ I .block, alternative = [.reject] ++ v) ∧
      w = [.check] ++ [.openParen] ++ decision ++ [.closeParen] ++ branch ++ alternative := by
  simp only [production, Form.mem_interpret_sequence, Form.mem_interpret_token,
    Form.mem_interpret_construct, Form.mem_interpret_optional, exists_eq_left] at h
  obtain ⟨_, ⟨_, ⟨_, ⟨_, rfl, decision, hdecision, rfl⟩, rfl⟩, branch, hbranch, rfl⟩,
    alternative, halternative, rfl⟩ := h
  refine ⟨decision, hdecision, branch, hbranch, alternative, ?_, rfl⟩
  rcases halternative with rfl | ⟨v, hv, rfl⟩
  · exact .inl rfl
  · exact .inr ⟨v, hv, rfl⟩

theorem mem_interpret_rework (h : w ∈ (production .rework).interpret I) :
    ∃ decision ∈ I .condition, ∃ body ∈ I .block,
      w = [.rework] ++ [.openParen] ++ decision ++ [.closeParen] ++ body := by
  simp only [production, Form.mem_interpret_sequence, Form.mem_interpret_token,
    Form.mem_interpret_construct, exists_eq_left] at h
  obtain ⟨_, ⟨_, ⟨_, rfl, decision, hdecision, rfl⟩, rfl⟩, body, hbody, rfl⟩ := h
  exact ⟨decision, hdecision, body, hbody, rfl⟩

theorem mem_interpret_checklist (h : w ∈ (production .checklist).interpret I) :
    ∃ counter ∈ I .declaration, ∃ decision ∈ I .condition, ∃ update ∈ I .simple,
      ∃ body ∈ I .block, w = [.checklist] ++ [.openParen] ++ counter ++ decision ++
        [.semicolon] ++ update ++ [.closeParen] ++ body := by
  simp only [production, Form.mem_interpret_sequence, Form.mem_interpret_token,
    Form.mem_interpret_construct, exists_eq_left] at h
  obtain ⟨_, ⟨_, ⟨_, ⟨_, ⟨_, ⟨_, rfl, counter, hcounter, rfl⟩, decision, hdecision, rfl⟩, rfl⟩,
    update, hupdate, rfl⟩, rfl⟩, body, hbody, rfl⟩ := h
  exact ⟨counter, hcounter, decision, hdecision, update, hupdate, body, hbody, rfl⟩

/-! ### Properties of parts -/

/-- A property of the empty word and of two words in sequence. -/
structure Compositional (P : List TokenKind → Prop) : Prop where
  nil : P []
  append {u v : List TokenKind} : P u → P v → P (u ++ v)

/-- What the parts of a form have, the form has. -/
theorem Compositional.of_interpret {P : List TokenKind → Prop} (hP : Compositional P)
    (hf : f.Mentions (fun kind => P [kind]) fun c => ∀ w ∈ I c, P w)
    (hw : w ∈ f.interpret I) : P w := by
  induction f generalizing w with
  | token kind =>
    obtain ⟨_, hkind, rfl⟩ := hw
    obtain rfl := List.mem_singleton.1 hkind
    exact hf
  | construct c => exact hf w hw
  | sequence f g ihf ihg =>
    obtain ⟨u, hu, v, hv, rfl⟩ := Language.mem_mul.1 hw
    exact hP.append (ihf hf.1 hu) (ihg hf.2 hv)
  | either f g ihf ihg =>
    rcases hw with hw | hw
    · exact ihf hf.1 hw
    · exact ihg hf.2 hw
  | optional f ih =>
    rcases hw with rfl | hw
    · exact hP.nil
    · exact ih hf hw
  | many f ih =>
    -- An induction over the words that the form repeats.
    obtain ⟨parts, rfl, hparts⟩ := hw
    induction parts with
    | nil => exact hP.nil
    | cons part parts ihparts =>
      obtain ⟨hpart, hrest⟩ := List.forall_mem_cons.1 hparts
      exact hP.append (ih hf hpart) (ihparts hrest)

/-- The words of a construct that have a property. -/
def Construct.wordsWith (P : List TokenKind → Prop) (c : Construct) : Language TokenKind :=
  {w | Derives (.construct c) w ∧ P w}

/-- A property of words that all tokens have but those of one production. -/
theorem Compositional.of_derives {P : List TokenKind → Prop} (hP : Compositional P)
    (special : Construct)
    (hspecial : ∀ w ∈ (production special).interpret (wordsWith P), P w)
    (hothers : ∀ c ≠ special, (production c).Mentions (fun kind => P [kind]) fun _ => True)
    {c : Construct} (h : w ∈ c.words) : P w := by
  have hmem : w ∈ (Form.construct c).interpret (wordsWith P) := by
    refine Derives.mem_interpret (fun c w hw hmem => ⟨.construct hw, ?_⟩) h
    by_cases hc : c = special
    · subst hc
      exact hspecial w hmem
    · exact hP.of_interpret ((hothers c hc).mono (fun _ h => h) fun _ _ _ hw => hw.2) hmem
  exact hmem.2

/-! ### Braces -/

/-- No brace closes what was not opened before it. -/
def ClosesOpened (w : List TokenKind) : Prop :=
  ∀ u, u <+: w → u.count .closeCurly ≤ u.count .openCurly

/-- Two words in sequence: a beginning that reaches into `v` has all of `u` in front, whose braces
are counted already. -/
theorem compositional_closesOpened : Compositional ClosesOpened where
  nil u hu := by simp [List.prefix_nil.1 hu]
  append {u v} hu hv x hx := by
    rcases List.prefix_or_prefix_of_prefix hx (List.prefix_append u v) with h | ⟨y, rfl⟩
    · exact hu x h
    · have hcount := hu u List.prefix_rfl
      have hcount' := hv y ((List.prefix_append_right_inj u).1 hx)
      simp only [List.count_append]
      omega

/-- In braces, one more is open all the way. -/
theorem closesOpened_braces (hu : ClosesOpened u) :
    ClosesOpened (.openCurly :: (u ++ [.closeCurly])) := by
  intro x hx
  cases x with
  | nil => simp
  | cons kind x =>
    obtain ⟨rfl, hx'⟩ := List.cons_prefix_cons.1 hx
    -- The closing brace is in the whole word only.
    rcases List.prefix_concat_iff.1 hx' with rfl | h
    · have hcount := hu u List.prefix_rfl
      simpa using hcount
    · have hcount := hu x h
      simp
      omega

theorem closesOpened_singleton {kind : TokenKind} (h : kind ≠ .closeCurly) :
    ClosesOpened [kind] := by
  intro u hu
  have hcount := hu.sublist.count_le .closeCurly
  rw [List.count_singleton, if_neg (by simpa using h)] at hcount
  omega

/-- All constructs, by `Compositional.of_derives`: the closing brace stands in one production
only, behind an opening one. -/
theorem closesOpened_of_mem {c : Construct} (h : w ∈ c.words) : ClosesOpened w := by
  refine compositional_closesOpened.of_derives .block (fun w hw => ?_) (fun c hc => ?_) h
  · obtain ⟨u, hu, rfl⟩ := mem_interpret_block hw
    exact closesOpened_braces hu.2
  · have hproduction : (production c).Mentions (· ≠ .closeCurly) fun _ => True := by
      cases c <;> first | exact absurd rfl hc | decide
    exact hproduction.mono (fun _ => closesOpened_singleton) fun _ => id

/-! ### Words that no statement uses -/

/-- The two words are reserved, and no production mentions them. -/
def AvoidsUnused (w : List TokenKind) : Prop :=
  .input ∉ w ∧ .office ∉ w

theorem compositional_avoidsUnused : Compositional AvoidsUnused where
  nil := ⟨List.not_mem_nil, List.not_mem_nil⟩
  append hu hv := by
    simp only [AvoidsUnused, List.mem_append, not_or]
    exact ⟨⟨hu.1, hv.1⟩, hu.2, hv.2⟩

/-- All constructs, since no `production` mentions the two words. -/
theorem avoidsUnused_of_mem {c : Construct} (h : w ∈ c.words) : AvoidsUnused w := by
  have hproduction (c : Construct) :
      (production c).Mentions (fun kind => AvoidsUnused [kind]) fun _ => True := by
    have hmentions : (production c).Mentions (fun kind => kind ≠ .input ∧ kind ≠ .office)
        fun _ => True := by
      cases c <;> decide
    refine hmentions.mono (fun kind hkind => ?_) fun _ => id
    exact ⟨by simpa using hkind.1.symm, by simpa using hkind.2.symm⟩
  refine compositional_avoidsUnused.of_derives .program (fun w hw => ?_)
    (fun c _ => hproduction c) h
  exact compositional_avoidsUnused.of_interpret
    ((hproduction .program).mono (fun _ => id) fun _ _ _ hw => hw.2) hw

/-! ### Alternatives -/

/-- A word that ends with a branch. -/
def EndsWithBranch (w : List TokenKind) : Prop :=
  ∃ before decision branch,
    w = before ++ .check :: .openParen :: (decision ++ .closeParen :: branch) ∧
      Derives (.construct .condition) decision ∧ Derives (.construct .block) branch

/-- Each alternative stands right behind a branch. -/
def FollowsBranch (w : List TokenKind) : Prop :=
  ∀ u v, w = u ++ .reject :: v → EndsWithBranch u

theorem EndsWithBranch.append_left (h : EndsWithBranch w) (u : List TokenKind) :
    EndsWithBranch (u ++ w) := by
  obtain ⟨before, decision, branch, rfl, hdecision, hbranch⟩ := h
  exact ⟨u ++ before, decision, branch, (List.append_assoc _ _ _).symm, hdecision, hbranch⟩

theorem EndsWithBranch.ne_nil (h : EndsWithBranch w) : w ≠ [] := by
  obtain ⟨before, decision, branch, rfl, -⟩ := h
  simp

/-- Two words in sequence: an alternative stands in one of them, and the branch before it in the
same, by `EndsWithBranch.append_left`. -/
theorem compositional_followsBranch : Compositional FollowsBranch where
  nil u v h := by simp at h
  append {x y} hx hy u v h := by
    rcases List.append_eq_append_iff.1 h with ⟨z, rfl, hz⟩ | ⟨z, hz, hv⟩
    · exact (hy z v hz).append_left x
    · cases z with
      | nil =>
        -- At the start of the second word, nothing would stand before the alternative.
        exact absurd rfl (hy [] v hv.symm).ne_nil
      | cons kind z =>
        obtain ⟨rfl, -⟩ := List.cons.inj hv
        exact hx u z hz

/-- An alternative, where a branch stands before it. -/
theorem followsBranch_append_reject (hu : FollowsBranch u) (hbranch : EndsWithBranch u)
    (hv : FollowsBranch v) : FollowsBranch (u ++ .reject :: v) := by
  intro x y h
  rcases List.append_eq_append_iff.1 h with ⟨z, rfl, hz⟩ | ⟨z, hz, hy⟩
  · -- The alternative is this one, or one behind it.
    cases z with
    | nil => simpa using hbranch
    | cons kind z =>
      obtain ⟨rfl, hz'⟩ := List.cons.inj hz
      have := (hv z y hz').append_left (u ++ [.reject])
      simpa using this
  · cases z with
    | nil =>
      rw [List.append_nil] at hz
      exact hz ▸ hbranch
    | cons kind z =>
      obtain ⟨rfl, -⟩ := List.cons.inj hy
      exact hu x z hz

theorem followsBranch_singleton {kind : TokenKind} (h : kind ≠ .reject) :
    FollowsBranch [kind] := by
  intro u v huv
  have hmem : .reject ∈ [kind] := by simp [huv]
  exact absurd (List.mem_singleton.1 hmem).symm h

/-- All constructs, since the word of an alternative stands in the production of `check` only,
behind the block of a branch. -/
theorem followsBranch_of_mem {c : Construct} (h : w ∈ c.words) : FollowsBranch w := by
  refine compositional_followsBranch.of_derives .check (fun w hw => ?_) (fun c hc => ?_) h
  · obtain ⟨decision, hdecision, branch, hbranch, alternative, halternative, rfl⟩ :=
      mem_interpret_check hw
    have append {u v : List TokenKind} (hu : FollowsBranch u) (hv : FollowsBranch v) :=
      compositional_followsBranch.append hu hv
    have hopening : FollowsBranch ([.check] ++ [.openParen]) :=
      append (followsBranch_singleton (by decide)) (followsBranch_singleton (by decide))
    have hclosing : FollowsBranch [.closeParen] := followsBranch_singleton (by decide)
    have hfollows := append (append (append hopening hdecision.2) hclosing) hbranch.2
    -- Without an alternative there is nothing to show; with one, its branch stands before it.
    rcases halternative with rfl | ⟨v, hv, rfl⟩
    · simpa using hfollows
    · refine followsBranch_append_reject hfollows ?_ hv.2
      exact ⟨[], decision, branch, by simp, hdecision.1, hbranch.1⟩
  · -- The word of an alternative is a token of the production of `check` only.
    have hproduction : (production c).Mentions (· ≠ .reject) fun _ => True := by
      cases c <;> first | exact absurd rfl hc | decide
    exact hproduction.mono (fun _ => followsBranch_singleton) fun _ => id

/-! ### Comparisons -/

/-- Reads a word with the knowledge whether a comparison came last, without a semicolon or
an opening brace behind it. A comparison there ends the reading. -/
def scan : Bool → List TokenKind → Option Bool
  | compared, [] => some compared
  | compared, kind :: rest =>
    if kind.isRelational then
      if compared then none else scan true rest
    else if kind = .semicolon ∨ kind = .openCurly then scan false rest
    else scan compared rest

/-- A word `u` is read up to its end, and `v` with what is known there. -/
theorem scan_append (compared : Bool) (u v : List TokenKind) :
    scan compared (u ++ v) = (scan compared u).bind (scan · v) := by
  induction u generalizing compared with
  | nil => rfl
  | cons kind u ih =>
    simp only [List.cons_append, scan]
    split
    · split
      · rfl
      · exact ih true
    · split
      · exact ih false
      · exact ih compared

/-- A word without comparisons that leaves an earlier one as it was. -/
def Neutral (w : List TokenKind) : Prop :=
  ∀ compared, scan compared w = some compared

/-- A word in which each comparison is closed by a semicolon or an opening brace. -/
def Closed (w : List TokenKind) : Prop :=
  scan false w = some false

/-- A word that closes an earlier comparison as well. -/
def Closing (w : List TokenKind) : Prop :=
  ∀ compared, scan compared w = some false

/-- A word with at most one comparison that is not closed. -/
def Comparing (w : List TokenKind) : Prop :=
  (scan false w).isSome

theorem Neutral.closed (h : Neutral w) : Closed w := h false

theorem Neutral.comparing (h : Neutral w) : Comparing w := by
  rw [Comparing, h false]
  rfl

theorem Closing.closed (h : Closing w) : Closed w := h false

theorem compositional_neutral : Compositional Neutral where
  nil _ := rfl
  append hu hv compared := by rw [scan_append, hu, Option.bind_some, hv]

theorem compositional_closed : Compositional Closed where
  nil := rfl
  append hu hv := by
    rw [Closed, scan_append, hu, Option.bind_some]
    exact hv

/-- What the words of each construct do to comparisons. -/
def comparisons (c : Construct) : Language TokenKind :=
  match c with
  | .expression | .term | .factor | .simple => {w | Neutral w}
  | .condition => {w | Comparing w}
  | .block => {w | Closing w}
  | _ => {w | Closed w}

/-- Any token alone that `scan` passes over. -/
theorem neutral_singleton {kind : TokenKind}
    (h : kind.isRelational = false ∧ kind ≠ .semicolon ∧ kind ≠ .openCurly) : Neutral [kind] := by
  intro compared
  simp [scan, h]

theorem closed_singleton {kind : TokenKind} (h : kind.isRelational = false) : Closed [kind] := by
  simp [Closed, scan, h]

/-- `Form.comparison` derives one token, which is such an operator. -/
theorem mem_interpret_comparison (h : w ∈ Form.comparison.interpret I) :
    ∃ kind, kind.isRelational = true ∧ w = [kind] := by
  simp only [Form.comparison, Form.mem_interpret_either, Form.mem_interpret_token] at h
  rcases h with ((((rfl | rfl) | rfl) | rfl) | rfl) | rfl <;> exact ⟨_, rfl, rfl⟩

/-- A comparison of two expressions. -/
theorem comparing_comparison {kind : TokenKind} (hu : Neutral u) (hkind : kind.isRelational = true)
    (hv : Neutral v) : Comparing (u ++ ([kind] ++ v)) := by
  have hcomparison : scan false [kind] = some true := by simp [scan, hkind]
  simp only [Comparing, scan_append, hu false, Option.bind_some, hcomparison, hv true,
    Option.isSome_some]

/-- A gate in parentheses and the block that it guards. -/
theorem closed_gate {decision branch : List TokenKind} (hu : Closed u) (hd : Comparing decision)
    (hb : Closing branch) : Closed (u ++ decision ++ [.closeParen] ++ branch) := by
  obtain ⟨compared, hscan⟩ := Option.isSome_iff_exists.1 hd
  have hparen : scan compared [.closeParen] = some compared := by
    simp [scan, TokenKind.isRelational]
  rw [Closed] at hu
  simp only [Closed, scan_append, hu, Option.bind_some, hscan, hparen, hb compared]

/-- The header of a loop: its condition ends at a semicolon. -/
theorem closed_header {decision update : List TokenKind} (hu : Closed u)
    (hd : Comparing decision) (hv : Neutral update) :
    Closed (u ++ decision ++ [.semicolon] ++ update ++ [.closeParen]) := by
  obtain ⟨compared, hscan⟩ := Option.isSome_iff_exists.1 hd
  have hsemicolon : scan compared [.semicolon] = some false := by
    simp [scan, TokenKind.isRelational]
  have hparen : scan false [.closeParen] = some false := by simp [scan, TokenKind.isRelational]
  rw [Closed] at hu
  simp only [Closed, scan_append, hu, Option.bind_some, hscan, hsemicolon, hv false, hparen]

/-- An opening brace closes any comparison. -/
theorem closing_braces (hu : Closed u) : Closing ([.openCurly] ++ u ++ [.closeCurly]) := by
  intro compared
  have hopen : scan compared [.openCurly] = some false := by simp [scan, TokenKind.isRelational]
  have hclose : scan false [.closeCurly] = some false := by simp [scan, TokenKind.isRelational]
  rw [Closed] at hu
  simp only [scan_append, hopen, Option.bind_some, hu, hclose]

/-- The productions keep what the words of each construct do to comparisons. -/
theorem mem_comparisons {c : Construct} (h : w ∈ (production c).interpret comparisons) :
    w ∈ comparisons c := by
  -- Where a production mentions no comparison and no gate, its parts tell all of it.
  have neutral (hform : (production c).Mentions
      (fun kind => kind.isRelational = false ∧ kind ≠ .semicolon ∧ kind ≠ .openCurly)
      (· ∈ [.expression, .term, .factor])) : Neutral w := by
    refine compositional_neutral.of_interpret (hform.mono (fun _ => neutral_singleton) ?_) h
    intro c hc w hw
    simp only [List.mem_cons, List.not_mem_nil, or_false] at hc
    obtain rfl | rfl | rfl := hc <;> exact hw
  have closed (hform : (production c).Mentions (fun kind => kind.isRelational = false)
      (· ≠ .condition)) : Closed w := by
    refine compositional_closed.of_interpret (hform.mono (fun _ => closed_singleton) ?_) h
    intro c hc w hw
    cases c with
    | condition => exact absurd rfl hc
    | expression | term | factor | simple => exact Neutral.closed hw
    | block => exact Closing.closed hw
    | _ => exact hw
  have token {kind : TokenKind} (h : kind.isRelational = false) : Closed [kind] :=
    closed_singleton h
  have append {u v : List TokenKind} (hu : Closed u) (hv : Closed v) : Closed (u ++ v) :=
    compositional_closed.append hu hv
  cases c with
  | expression | term | factor | simple => exact neutral (by decide)
  | condition =>
    simp only [production, Form.mem_interpret_sequence, Form.mem_interpret_optional,
      Form.mem_interpret_construct] at h
    obtain ⟨u, hu, v, rfl | ⟨_, hcomparison, v, hv, rfl⟩, rfl⟩ := h
    · have hneutral : Neutral u := hu
      rw [List.append_nil]
      exact hneutral.comparing
    · obtain ⟨kind, hkind, rfl⟩ := mem_interpret_comparison hcomparison
      exact comparing_comparison hu hkind hv
  | block =>
    obtain ⟨u, hu, rfl⟩ := mem_interpret_block h
    exact closing_braces hu
  | check =>
    obtain ⟨decision, hdecision, branch, hbranch, alternative, halternative, rfl⟩ :=
      mem_interpret_check h
    refine append (closed_gate (append (token rfl) (token rfl)) hdecision hbranch) ?_
    rcases halternative with rfl | ⟨v, hv, rfl⟩
    · exact compositional_closed.nil
    · exact append (token rfl) (Closing.closed hv)
  | rework =>
    obtain ⟨decision, hdecision, body, hbody, rfl⟩ := mem_interpret_rework h
    exact closed_gate (append (token rfl) (token rfl)) hdecision hbody
  | checklist =>
    obtain ⟨counter, hcounter, decision, hdecision, update, hupdate, body, hbody, rfl⟩ :=
      mem_interpret_checklist h
    have hopening : Closed ([.checklist] ++ [.openParen] ++ counter) :=
      append (append (token rfl) (token rfl)) hcounter
    exact append (closed_header hopening hdecision hupdate) (Closing.closed hbody)
  | _ => exact closed (by decide)

/-- After a comparison, another one ends the reading unless something closes the first. -/
theorem scan_true_eq_none {kind : TokenKind} (hkind : kind.isRelational = true)
    (hu : .semicolon ∉ u ∧ .openCurly ∉ u) : scan true (u ++ kind :: v) = none := by
  induction u with
  | nil => simp [scan, hkind]
  | cons k u ih =>
    simp only [List.mem_cons, not_or] at hu
    rw [List.cons_append, scan]
    split
    · rfl
    · rw [if_neg (by tauto)]
      exact ih ⟨hu.1.2, hu.2.2⟩

/-- Between two comparisons stands a semicolon or an opening brace. -/
def ComparesOnce (w : List TokenKind) : Prop :=
  ∀ u kind m kind' v, w = u ++ kind :: (m ++ kind' :: v) → kind.isRelational = true →
    kind'.isRelational = true → .semicolon ∈ m ∨ .openCurly ∈ m

/-- Read by `scan` from the first of two comparisons to the second, a closed word has something
between them that closes the first one. -/
theorem Closed.comparesOnce (h : Closed w) : ComparesOnce w := by
  rintro u kind m kind' v rfl hkind hkind'
  by_contra hm
  rw [not_or] at hm
  rw [Closed, scan_append] at h
  obtain ⟨compared, hu, hrest⟩ := Option.bind_eq_some_iff.1 h
  cases compared with
  | true => simp [scan, hkind] at hrest
  | false => simp [scan, hkind, scan_true_eq_none hkind' hm] at hrest

/-! ### Sentences -/

/-- What holds of every sentence. -/
structure Orderly (w : List TokenKind) : Prop where
  unused : AvoidsUnused w
  braces : ClosesOpened w
  alternatives : FollowsBranch w
  comparisons : ComparesOnce w

theorem orderly_of_derives (h : Derives (.construct .program) w) : Orderly w where
  unused := avoidsUnused_of_mem h
  braces := closesOpened_of_mem h
  alternatives := followsBranch_of_mem h
  comparisons := by
    have hclosed : w ∈ (Form.construct .program).interpret comparisons :=
      h.mem_interpret fun _ _ _ hw => mem_comparisons hw
    exact Closed.comparesOnce hclosed

end DrLang.Grammar
