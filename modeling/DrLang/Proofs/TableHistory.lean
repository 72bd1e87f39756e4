import DrLang.SymbolTable
import Mathlib.Data.List.Induction

/-!
# A symbol table against its history

The state of a symbol table is a stack of frames and a record. What it answers can be said without
the stack, of the calls that were made: an opening is matched by the first closing behind it that
closes nothing opened in between, a frame is known by the calls behind its opening, and a binding
is a declaration that succeeded.

- `TableCall`: the calls that change a table, and `SymbolTable.after`: the table after some.
- `Closes`, `unmatched`: how openings and closings match.
- `Declares`: a declaration that succeeded, with the calls before and behind it.
- `SymbolTable.binding_after`: which declarations the frames hold.
- `SymbolTable.table_of_history`: depth, declaration, search and record, of the calls alone.
-/

namespace DrLang

/-! ### Calls -/

/-- A call that changes a symbol table. -/
inductive TableCall where
  | enter
  | exit
  | declare (symbol : Symbol)
deriving DecidableEq, Repr

namespace SymbolTable

/-- The table after a call. A declaration that fails leaves it as it was. -/
def apply (t : SymbolTable) : TableCall → SymbolTable
  | .enter => t.enter
  | .exit => t.exit
  | .declare symbol =>
    match t.declare symbol with
    | .ok t' => t'
    | .error _ => t

/-- The table after some calls on a new one. -/
def after (calls : List TableCall) : SymbolTable :=
  calls.foldl apply empty

variable {t t' : SymbolTable} {symbol existing : Symbol}

/-- A declaration that succeeds puts its symbol in front of the innermost frame and at the end of
`declared`. -/
theorem eq_of_declare_eq_ok (h : t.declare symbol = .ok t') :
    t' = ⟨symbol :: t.innermost, t.outer, t.declared ++ [symbol]⟩ := by
  cases hfind : t.innermost.find? symbol.name with
  | none => exact Except.ok.inj (h.symm.trans (declare_of_none hfind))
  | some existing => simp [declare_of_some hfind] at h

theorem apply_declare_of_ok (h : t.declare symbol = .ok t') : t.apply (.declare symbol) = t' := by
  rw [apply, h]

theorem apply_declare_of_error (h : t.declare symbol = .error existing) :
    t.apply (.declare symbol) = t := by
  rw [apply, h]

/-- A history may be cut anywhere: `after` is a fold. -/
theorem after_append (calls later : List TableCall) :
    after (calls ++ later) = later.foldl apply (after calls) := by
  rw [after, List.foldl_append, after]

/-- The last call is made on the table that the others lead to. The inductions below are on the
history from its end, as `after` folds it. -/
theorem after_concat (calls : List TableCall) (call : TableCall) :
    after (calls ++ [call]) = (after calls).apply call := by
  rw [after_append, List.foldl_cons, List.foldl_nil]

end SymbolTable

/-! ### How openings and closings match -/

/-- Behind an opening, its frame is closed by these calls: at some point there were more closings
than openings. -/
def Closes (later : List TableCall) : Prop :=
  ∃ start, start <+: later ∧ start.count .enter < start.count .exit

/-- The number of closings among some calls that close nothing opened among them. -/
def surplus : List TableCall → Nat
  | [] => 0
  | .enter :: later => surplus later - 1
  | .exit :: later => surplus later + 1
  | .declare _ :: later => surplus later

/-- What `surplus` counts, said of beginnings of the calls: at some point, closings exceeded
openings by more than `k`. By induction on the calls, with `k` one more behind an opening and one
less behind a closing. -/
theorem exists_prefix_iff_lt_surplus (k : Nat) (later : List TableCall) :
    (∃ start, start <+: later ∧ start.count .enter + k < start.count .exit) ↔
      k < surplus later := by
  induction later generalizing k with
  | nil =>
    simp only [List.prefix_nil, exists_eq_left, surplus, List.count_nil]
    omega
  | cons call later ih =>
    -- The empty beginning has no closing, so the first call belongs to the one looked for.
    have hcons : (∃ start, start <+: call :: later ∧
        start.count .enter + k < start.count .exit) ↔
        ∃ start, start <+: later ∧
          (call :: start).count .enter + k < (call :: start).count .exit := by
      constructor
      · rintro ⟨start, hstart, hcount⟩
        obtain rfl | ⟨rest, rfl, hrest⟩ := List.prefix_cons_iff.1 hstart
        · simp at hcount
        · exact ⟨rest, hrest, hcount⟩
      · rintro ⟨start, hstart, hcount⟩
        exact ⟨call :: start, List.cons_prefix_cons.2 ⟨rfl, hstart⟩, hcount⟩
    rw [hcons]
    cases call with
    | enter =>
      have hih := ih (k + 1)
      simp only [List.count_cons, beq_iff_eq, reduceCtorEq, if_true, if_false, surplus,
        Nat.add_zero, Nat.add_assoc, Nat.add_comm 1 k]
      rw [hih]
      omega
    | exit =>
      simp only [List.count_cons, beq_iff_eq, reduceCtorEq, if_true, if_false, surplus]
      cases k with
      | zero => exact ⟨fun _ => by omega, fun _ => ⟨[], List.nil_prefix, by simp⟩⟩
      | succ k =>
        have hih := ih k
        simp only [← Nat.add_assoc, Nat.add_zero, Nat.add_lt_add_iff_right]
        exact hih
    | declare symbol =>
      simpa only [List.count_cons, beq_iff_eq, reduceCtorEq, if_false, Nat.add_zero, surplus]
        using ih k

/-- A frame is closed if some closing behind its opening is left over. -/
theorem closes_iff_surplus_pos (later : List TableCall) : Closes later ↔ 0 < surplus later :=
  exists_prefix_iff_lt_surplus 0 later

instance (later : List TableCall) : Decidable (Closes later) :=
  decidable_of_iff _ (closes_iff_surplus_pos later).symm

/-- The number of openings that no closing matches. -/
def unmatched : List TableCall → Nat
  | [] => 0
  | .enter :: later => if Closes later then unmatched later else unmatched later + 1
  | .exit :: later => unmatched later
  | .declare _ :: later => unmatched later

/-- What a piece closes too often closes frames that were opened before it. -/
theorem surplus_unmatched_append (calls later : List TableCall) :
    surplus (calls ++ later) = surplus calls + (surplus later - unmatched calls) ∧
      unmatched (calls ++ later) = (unmatched calls - surplus later) + unmatched later := by
  induction calls with
  | nil => simp [surplus, unmatched]
  | cons call calls ih =>
    obtain ⟨hsurplus, hunmatched⟩ := ih
    cases call with
    -- An `enter` is closed within the calls behind it or left open, and both counts tell which.
    | enter =>
      simp only [List.cons_append, surplus, unmatched, closes_iff_surplus_pos, hsurplus, hunmatched]
      constructor <;> split_ifs <;> omega
    | exit =>
      refine ⟨?_, hunmatched⟩
      simp only [List.cons_append, surplus, unmatched, hsurplus]
      omega
    | declare symbol => exact ⟨hsurplus, hunmatched⟩

/-- The closings left over among later calls match openings of the earlier ones first. The first
half of `surplus_unmatched_append`. -/
theorem surplus_append (calls later : List TableCall) :
    surplus (calls ++ later) = surplus calls + (surplus later - unmatched calls) :=
  (surplus_unmatched_append calls later).1

/-- As `surplus_append`, for the openings: `surplus later` of them are closed by the later calls.
-/
theorem unmatched_append (calls later : List TableCall) :
    unmatched (calls ++ later) = (unmatched calls - surplus later) + unmatched later :=
  (surplus_unmatched_append calls later).2

section Concat

variable (calls : List TableCall) (symbol : Symbol)

/-- An opening at the end is matched by nothing yet. These six lemmas are the two laws of
`surplus_append` and `unmatched_append` for one call more. -/
theorem surplus_concat_enter : surplus (calls ++ [.enter]) = surplus calls := by
  simp [surplus_append, surplus]

theorem unmatched_concat_enter : unmatched (calls ++ [.enter]) = unmatched calls + 1 := by
  have hcloses : ¬ Closes [] := by decide
  simp [unmatched_append, surplus, unmatched, hcloses]

/-- A closing at the end is left over if `unmatched calls` is zero. -/
theorem surplus_concat_exit :
    surplus (calls ++ [.exit]) = surplus calls + (1 - unmatched calls) := by
  simp [surplus_append, surplus]

/-- A closing at the end matches the last opening that was left. -/
theorem unmatched_concat_exit : unmatched (calls ++ [.exit]) = unmatched calls - 1 := by
  simp [unmatched_append, surplus, unmatched]

theorem surplus_concat_declare : surplus (calls ++ [.declare symbol]) = surplus calls := by
  simp [surplus_append, surplus]

theorem unmatched_concat_declare : unmatched (calls ++ [.declare symbol]) = unmatched calls := by
  simp [unmatched_append, surplus, unmatched]

end Concat

/-! ### Declarations in a history -/

/-- A declaration among some calls that succeeded, with the calls before and behind it. -/
structure Declares (calls before : List TableCall) (symbol : Symbol) (since : List TableCall) :
    Prop where
  split : calls = before ++ .declare symbol :: since
  succeeds : ∃ t, (SymbolTable.after before).declare symbol = .ok t

/-- The frame that was the innermost one after `before` was closed by the calls `since`. The global
frame is not closed. -/
def Exited (before since : List TableCall) : Prop :=
  0 < unmatched before ∧ Closes since

/-- The frame that was the innermost one after `before` is the innermost one after `since`, too. -/
def IsCurrent (before since : List TableCall) : Prop :=
  ¬ Exited before since ∧ unmatched since = 0

/-- The symbols that were declared with success, in order. -/
def successes (t : SymbolTable) : List TableCall → List Symbol
  | [] => []
  | .enter :: later => successes t.enter later
  | .exit :: later => successes t.exit later
  | .declare symbol :: later =>
    match t.declare symbol with
    | .ok t' => symbol :: successes t' later
    | .error _ => successes t later

/-- A declaration that succeeded in a frame with `level` open frames inside it. -/
def Binds (calls : List TableCall) (level : Nat) (name : String) (symbol : Symbol) : Prop :=
  ∃ before since, Declares calls before symbol since ∧ symbol.name = name ∧
    ¬ Exited before since ∧ unmatched since = level

section Declares

variable {calls before before' since since' : List TableCall} {symbol symbol' : Symbol}
  {name : String} {level : Nat}

/-- Whether a frame is closed, by counting: `closes_iff_surplus_pos`. -/
theorem exited_iff : Exited before since ↔ 0 < unmatched before ∧ 0 < surplus since := by
  rw [Exited, closes_iff_surplus_pos]

/-- What was declared before a call, and what this call declares: `Declares` with one call more at
the end. -/
theorem declares_concat {call : TableCall} :
    Declares (calls ++ [call]) before symbol since ↔
      (∃ since₀, since = since₀ ++ [call] ∧ Declares calls before symbol since₀) ∨
      (since = [] ∧ before = calls ∧ call = .declare symbol ∧
        ∃ t, (SymbolTable.after calls).declare symbol = .ok t) := by
  constructor
  · rintro ⟨hsplit, hsucceeds⟩
    -- The declaring call is the last one, or it stands among the others.
    obtain rfl | ⟨since₀, last, rfl⟩ := since.eq_nil_or_concat
    · obtain ⟨rfl, hcall⟩ := List.append_inj' hsplit rfl
      exact .inr ⟨rfl, rfl, List.head_eq_of_cons_eq hcall, hsucceeds⟩
    · rw [List.concat_eq_append, ← List.cons_append, ← List.append_assoc] at hsplit
      obtain ⟨hcalls, hlast⟩ := List.append_inj' hsplit rfl
      obtain rfl := List.head_eq_of_cons_eq hlast
      exact .inl ⟨since₀, List.concat_eq_append, hcalls, hsucceeds⟩
  · rintro (⟨since₀, rfl, hsplit, hsucceeds⟩ | ⟨rfl, rfl, rfl, hsucceeds⟩)
    · exact ⟨by rw [hsplit, List.append_assoc, List.cons_append], hsucceeds⟩
    · exact ⟨rfl, hsucceeds⟩

/-- How many frames are open, counted from a declaration among the calls: `unmatched_append` at
that point. -/
theorem Declares.unmatched_eq (h : Declares calls before symbol since) :
    unmatched calls = (unmatched before - surplus since) + unmatched since := by
  rw [h.split, unmatched_append, surplus, unmatched]

/-- Nothing is declared on the way to the same place a second time: the length of `before` tells
the declaration. -/
theorem Declares.ext (h : Declares calls before symbol since)
    (h' : Declares calls before' symbol' since') (hlength : before'.length = before.length) :
    before' = before ∧ symbol' = symbol ∧ since' = since := by
  obtain ⟨hbefore, hrest⟩ := List.append_inj (h'.split.symm.trans h.split) hlength
  obtain ⟨hcall, hsince⟩ := List.cons.inj hrest
  exact ⟨hbefore, TableCall.declare.inj hcall, hsince⟩

/-- The calls between two declarations. -/
theorem Declares.exists_between (h : Declares calls before symbol since)
    (h' : Declares calls before' symbol' since') (hlength : before.length < before'.length) :
    ∃ between, before' = before ++ .declare symbol :: between ∧
      since = between ++ .declare symbol' :: since' := by
  have hprefix : before <+: before' := by
    refine List.prefix_of_prefix_length_le ⟨_, h.split.symm⟩ ⟨_, h'.split.symm⟩ (by omega)
  obtain ⟨rest, rfl⟩ := hprefix
  have hrest := h.split.symm.trans h'.split
  rw [List.append_assoc] at hrest
  have hrest := List.append_cancel_left hrest
  cases rest with
  | nil => simp at hlength
  | cons call between =>
    obtain ⟨rfl, hsince⟩ := List.cons.inj hrest
    exact ⟨between, rfl, hsince⟩

end Declares

namespace SymbolTable

/-! ### Frames by their level -/

/-- The binding of a name in the frame with `level` open frames inside it. -/
def binding (t : SymbolTable) (level : Nat) (name : String) : Option Symbol :=
  t.frames[level]?.bind (·.find? name)

section Binding

variable {t t' : SymbolTable} {symbol existing : Symbol} {name : String} {level : Nat}

theorem binding_zero (t : SymbolTable) (name : String) :
    t.binding 0 name = t.innermost.find? name := rfl

theorem binding_enter_zero (t : SymbolTable) (name : String) : t.enter.binding 0 name = none := rfl

theorem binding_enter_succ (t : SymbolTable) (level : Nat) (name : String) :
    t.enter.binding (level + 1) name = t.binding level name := rfl

theorem exit_of_depth_eq_one (h : t.depth = 1) : t.exit = t := by
  have houter : t.outer = [] := by simpa [depth] using h
  simp [exit, houter]

/-- Closing a frame brings all others one level further in, if there is one besides the global. -/
theorem binding_exit (h : t.depth ≠ 1) (level : Nat) (name : String) :
    t.exit.binding level name = t.binding (level + 1) name := by
  obtain ⟨innermost, _ | ⟨frame, outer⟩, declared⟩ := t
  · exact absurd rfl h
  · rfl

/-- A declaration that succeeds binds its name in the innermost frame, `level` zero, and leaves
the other names there. -/
theorem binding_declare_zero (h : t.declare symbol = .ok t') :
    t'.binding 0 name = if symbol.name = name then some symbol else t.binding 0 name := by
  obtain rfl := eq_of_declare_eq_ok h
  by_cases hname : symbol.name = name <;> simp [binding_zero, Frame.find?, hname]

theorem binding_declare_succ (h : t.declare symbol = .ok t') :
    t'.binding (level + 1) name = t.binding (level + 1) name := by
  obtain rfl := eq_of_declare_eq_ok h
  rfl

/-- A declaration fails where its name is bound in the innermost frame, and gives that binding:
`binding 0`. -/
theorem declare_eq_error_iff :
    t.declare symbol = .error existing ↔ t.binding 0 symbol.name = some existing := by
  rw [binding_zero, declare]
  cases t.innermost.find? symbol.name <;> simp

/-- A declaration succeeds where its name is not bound in the innermost frame; compare
`declare_eq_error_iff`. -/
theorem declare_eq_ok_iff :
    (∃ t', t.declare symbol = .ok t') ↔ t.binding 0 symbol.name = none := by
  rw [binding_zero, declare]
  cases t.innermost.find? symbol.name <;> simp

/-- A search goes through the frames by their levels, and stops at the first `binding`. -/
theorem lookup?_eq_some_iff :
    t.lookup? name = some symbol ↔
      ∃ level, t.binding level name = some symbol ∧ ∀ m < level, t.binding m name = none := by
  rw [lookup?, List.findSome?_eq_some_iff]
  constructor
  · rintro ⟨inside, frame, outside, hframes, hfind, hnone⟩
    -- The level of a frame is the number of frames inside it.
    refine ⟨inside.length, by simp [binding, hframes, hfind], fun m hm => ?_⟩
    have hframe : t.frames[m]? = some inside[m] := by
      rw [hframes, List.getElem?_append_left hm, List.getElem?_eq_getElem hm]
    rw [binding, hframe]
    exact hnone _ (List.getElem_mem hm)
  · rintro ⟨level, hlevel, hless⟩
    obtain ⟨frame, hframe, hfind⟩ := Option.bind_eq_some_iff.1 hlevel
    obtain ⟨hlt, hframe⟩ := List.getElem?_eq_some_iff.1 hframe
    refine ⟨t.frames.take level, frame, t.frames.drop (level + 1), ?_, hfind,
      fun inner hinner => ?_⟩
    · rw [← hframe, List.getElem_cons_drop, List.take_append_drop]
    · obtain ⟨m, hm, rfl⟩ := List.mem_take_iff_getElem.1 hinner
      have hnone := hless m (by omega)
      rwa [binding, List.getElem?_eq_getElem (by omega)] at hnone

theorem lookup?_eq_none_iff : t.lookup? name = none ↔ ∀ level, t.binding level name = none := by
  constructor
  · intro h level
    rw [lookup?, List.findSome?_eq_none_iff] at h
    cases hframe : t.frames[level]? with
    | none => simp [binding, hframe]
    | some frame => simpa [binding, hframe] using h frame (List.mem_of_getElem? hframe)
  · intro h
    rw [Option.eq_none_iff_forall_ne_some]
    intro symbol hlookup
    obtain ⟨level, hlevel, -⟩ := lookup?_eq_some_iff.1 hlookup
    simp [h level] at hlevel

end Binding

/-! ### The frames of a history -/

section After

variable {calls before before' since since' later : List TableCall}
  {symbol symbol' existing : Symbol} {name : String} {level : Nat}

/-- As many frames are open as openings are `unmatched`, besides the global one. -/
theorem depth_after (calls : List TableCall) : (after calls).depth = 1 + unmatched calls := by
  induction calls using List.reverseRecOn with
  | nil => rfl
  | append_singleton calls call ih =>
    rw [after_concat]
    cases call with
    | enter => rw [apply, depth_enter, ih, unmatched_concat_enter, Nat.add_assoc]
    | exit =>
      rw [apply, depth_exit, ih, unmatched_concat_exit]
      omega
    | declare symbol =>
      -- Declaring may succeed or fail, and opens no frame either way.
      have hdepth : ((after calls).apply (.declare symbol)).depth = (after calls).depth := by
        cases h : (after calls).declare symbol with
        | error existing => rw [apply_declare_of_error h]
        | ok t =>
          rw [apply_declare_of_ok h]
          obtain rfl := eq_of_declare_eq_ok h
          rfl
      rw [hdepth, ih, unmatched_concat_declare]

/-- A call that declares nothing changes the levels of the declarations before it. -/
theorem binds_concat_of_ne {call : TableCall} (h : ∀ symbol, call ≠ .declare symbol) :
    Binds (calls ++ [call]) level name symbol ↔
      ∃ before since, Declares calls before symbol since ∧ symbol.name = name ∧
        ¬ Exited before (since ++ [call]) ∧ unmatched (since ++ [call]) = level := by
  constructor
  · rintro ⟨before, since, hdeclares, hname, hlive, hlevel⟩
    rcases declares_concat.1 hdeclares with ⟨since, rfl, hdeclares'⟩ | ⟨-, -, hcall, -⟩
    · exact ⟨before, since, hdeclares', hname, hlive, hlevel⟩
    · exact absurd hcall (h symbol)
  · rintro ⟨before, since, hdeclares, hname, hlive, hlevel⟩
    exact ⟨before, _, declares_concat.2 (.inl ⟨since, rfl, hdeclares⟩), hname, hlive, hlevel⟩

theorem binds_concat_enter_zero : ¬ Binds (calls ++ [.enter]) 0 name symbol := by
  rw [binds_concat_of_ne (by simp)]
  rintro ⟨before, since, -, -, -, hlevel⟩
  rw [unmatched_concat_enter] at hlevel
  omega

/-- Behind an opening, what was bound is one level further out. -/
theorem binds_concat_enter_succ :
    Binds (calls ++ [.enter]) (level + 1) name symbol ↔ Binds calls level name symbol := by
  rw [binds_concat_of_ne (by simp)]
  simp only [Binds, exited_iff, surplus_concat_enter, unmatched_concat_enter,
    Nat.add_right_cancel_iff]

/-- A closing that matches no opening closes nothing. -/
theorem binds_concat_exit_of_eq_zero (h : unmatched calls = 0) :
    Binds (calls ++ [.exit]) level name symbol ↔ Binds calls level name symbol := by
  rw [binds_concat_of_ne (by simp)]
  refine exists_congr fun before => exists_congr fun since => and_congr_right fun hdeclares =>
    and_congr_right fun _ => ?_
  have heq := hdeclares.unmatched_eq
  rw [exited_iff, exited_iff, surplus_concat_exit, unmatched_concat_exit]
  omega

theorem binds_concat_exit (h : unmatched calls ≠ 0) :
    Binds (calls ++ [.exit]) level name symbol ↔ Binds calls (level + 1) name symbol := by
  rw [binds_concat_of_ne (by simp)]
  refine exists_congr fun before => exists_congr fun since => and_congr_right fun hdeclares =>
    and_congr_right fun _ => ?_
  have heq := hdeclares.unmatched_eq
  rw [exited_iff, exited_iff, surplus_concat_exit, unmatched_concat_exit]
  omega

/-- A declaration changes no level, and stands in the innermost frame itself if it succeeds. -/
theorem binds_concat_declare {declared : Symbol} :
    Binds (calls ++ [.declare declared]) level name symbol ↔
      Binds calls level name symbol ∨
      (symbol = declared ∧ declared.name = name ∧ level = 0 ∧
        ∃ t, (after calls).declare declared = .ok t) := by
  constructor
  · rintro ⟨before, since, hdeclares, hname, hlive, hlevel⟩
    rcases declares_concat.1 hdeclares with ⟨since, rfl, hdeclares'⟩ | ⟨rfl, rfl, hcall, hok⟩
    · rw [exited_iff, surplus_concat_declare, ← exited_iff] at hlive
      rw [unmatched_concat_declare] at hlevel
      exact .inl ⟨before, since, hdeclares', hname, hlive, hlevel⟩
    · obtain rfl := TableCall.declare.inj hcall
      exact .inr ⟨rfl, hname, hlevel.symm, hok⟩
  · rintro (⟨before, since, hdeclares, hname, hlive, hlevel⟩ | ⟨rfl, hname, rfl, hok⟩)
    · rw [exited_iff, ← surplus_concat_declare since declared, ← exited_iff] at hlive
      rw [← unmatched_concat_declare since declared] at hlevel
      exact ⟨before, _, declares_concat.2 (.inl ⟨since, rfl, hdeclares⟩), hname, hlive, hlevel⟩
    · have hlive : ¬ Exited calls [] := by simp [exited_iff, surplus]
      exact ⟨calls, [], declares_concat.2 (.inr ⟨rfl, rfl, rfl, hok⟩), hname, hlive, rfl⟩

/-- **The frames of a history**: a frame holds the declarations that succeeded in it. The
induction is on the last call, by what is said above of `Binds` with a call more. -/
theorem binding_after (calls : List TableCall) (level : Nat) (name : String) (symbol : Symbol) :
    (after calls).binding level name = some symbol ↔ Binds calls level name symbol := by
  induction calls using List.reverseRecOn generalizing level symbol with
  | nil =>
    have hnone : (after []).binding level name = none := by cases level <;> rfl
    rw [hnone]
    constructor
    · simp
    · rintro ⟨before, since, hdeclares, -⟩
      simpa using hdeclares.split
  | append_singleton calls call ih =>
    rw [after_concat]
    cases call with
    | enter =>
      cases level with
      | zero => simp [apply, binding_enter_zero, binds_concat_enter_zero]
      | succ level => rw [apply, binding_enter_succ, binds_concat_enter_succ, ih]
    | exit =>
      have hdepth := depth_after calls
      by_cases h : unmatched calls = 0
      · rw [apply, exit_of_depth_eq_one (by omega), binds_concat_exit_of_eq_zero h, ih]
      · rw [apply, binding_exit (by omega), binds_concat_exit h, ih]
    | declare declared =>
      rw [binds_concat_declare]
      cases h : (after calls).declare declared with
      | error existing => simp [apply_declare_of_error h, ih]
      | ok t =>
        rw [apply_declare_of_ok h]
        cases level with
        | succ level => simp [binding_declare_succ h, ih]
        | zero =>
          have hfree : (after calls).binding 0 declared.name = none := declare_eq_ok_iff.1 ⟨t, h⟩
          rw [binding_declare_zero h]
          split
          case isTrue hname =>
            -- The innermost frame did not bind the name before.
            subst hname
            have hnot : ¬ Binds calls 0 declared.name symbol := by simp [← ih, hfree]
            simp [hnot, eq_comm]
          case isFalse hname => simp [hname, ih]

/-! ### Search -/

/-- Of two declarations of a name in open frames, the later one is in a frame further inside: in
the same frame it would have failed, by `binding_after`. -/
theorem unmatched_lt_of_length_lt (h : Declares calls before symbol since)
    (h' : Declares calls before' symbol' since') (hname : symbol'.name = symbol.name)
    (hlive : ¬ Exited before since) (hlive' : ¬ Exited before' since')
    (hlength : before.length < before'.length) : unmatched since' < unmatched since := by
  obtain ⟨between, rfl, rfl⟩ := h.exists_between h' hlength
  -- Otherwise the first one was in the innermost frame when the second one was made.
  have hnot : ¬ Binds (before ++ .declare symbol :: between) 0 symbol'.name symbol := by
    have hfree := declare_eq_ok_iff.1 h'.succeeds
    rw [← binding_after, hfree]
    simp
  have hbinds (hcurrent : IsCurrent before between) :
      Binds (before ++ .declare symbol :: between) 0 symbol'.name symbol :=
    ⟨before, between, ⟨rfl, h.succeeds⟩, hname.symm, hcurrent.1, hcurrent.2⟩
  have hcurrent : ¬ IsCurrent before between := fun hcurrent => hnot (hbinds hcurrent)
  simp only [IsCurrent, exited_iff, surplus_append, unmatched_append, surplus, unmatched]
    at hlive hlive' hcurrent ⊢
  omega

/-- A search finds the most recent declaration in a frame that is still open: `binding_after` for
the level, `unmatched_lt_of_length_lt` for the order. -/
theorem lookup?_after_eq_some_iff :
    (after calls).lookup? name = some symbol ↔
      ∃ before since, Declares calls before symbol since ∧ symbol.name = name ∧
        ¬ Exited before since ∧
        ∀ before' symbol' since', Declares calls before' symbol' since' → symbol'.name = name →
          ¬ Exited before' since' → before'.length ≤ before.length := by
  rw [lookup?_eq_some_iff]
  constructor
  · rintro ⟨level, hlevel, hless⟩
    obtain ⟨before, since, hdeclares, hname, hlive, rfl⟩ := (binding_after _ _ _ _).1 hlevel
    refine ⟨before, since, hdeclares, hname, hlive, ?_⟩
    intro before' symbol' since' hdeclares' hname' hlive'
    -- A later live declaration of the name would be in a frame further in, and found first.
    by_contra hlonger
    have hinside := unmatched_lt_of_length_lt hdeclares hdeclares' (hname'.trans hname.symm) hlive
      hlive' (by omega)
    have hbinding := (binding_after _ _ _ _).2 ⟨before', since', hdeclares', hname', hlive', rfl⟩
    rw [hless _ hinside] at hbinding
    simp at hbinding
  · rintro ⟨before, since, hdeclares, hname, hlive, hlatest⟩
    refine ⟨unmatched since,
      (binding_after _ _ _ _).2 ⟨before, since, hdeclares, hname, hlive, rfl⟩, fun m hm => ?_⟩
    rw [Option.eq_none_iff_forall_ne_some]
    intro symbol' hbinding
    obtain ⟨before', since', hdeclares', hname', hlive', rfl⟩ := (binding_after _ _ _ _).1 hbinding
    -- A binding further in would be the same declaration or an earlier one: neither is further in.
    have hle := hlatest before' symbol' since' hdeclares' hname' hlive'
    rcases Nat.eq_or_lt_of_le hle with heq | hlt
    · obtain ⟨-, -, rfl⟩ := hdeclares.ext hdeclares' heq
      omega
    · have hinside := unmatched_lt_of_length_lt hdeclares' hdeclares (hname.trans hname'.symm)
        hlive' hlive hlt
      omega

/-- A name is not found if and only if the frame of each declaration of it was closed again, by
`Exited`. -/
theorem lookup?_after_eq_none_iff :
    (after calls).lookup? name = none ↔
      ∀ before symbol since, Declares calls before symbol since → symbol.name = name →
        Exited before since := by
  rw [lookup?_eq_none_iff]
  constructor
  · intro h before symbol since hdeclares hname
    by_contra hlive
    have hbinding := (binding_after _ _ _ _).2 ⟨before, since, hdeclares, hname, hlive, rfl⟩
    simp [h] at hbinding
  · intro h level
    rw [Option.eq_none_iff_forall_ne_some]
    intro symbol hbinding
    obtain ⟨before, since, hdeclares, hname, hlive, -⟩ := (binding_after _ _ _ _).1 hbinding
    exact hlive (h before symbol since hdeclares hname)

/-! ### Declaration -/

/-- A declaration fails if and only if one of the same name succeeded in the frame that is
innermost now, by `IsCurrent`. -/
theorem declare_after_eq_error_iff :
    (after calls).declare symbol = .error existing ↔
      ∃ before since, Declares calls before existing since ∧ existing.name = symbol.name ∧
        IsCurrent before since := by
  rw [declare_eq_error_iff, binding_after]
  exact Iff.rfl

/-! ### The record -/

/-- From any table `t` on, the record grows by the declarations that succeed, in order. -/
theorem declared_foldl (t : SymbolTable) (later : List TableCall) :
    (later.foldl apply t).declared = t.declared ++ successes t later := by
  induction later generalizing t with
  | nil => simp [successes]
  | cons call later ih =>
    rw [List.foldl_cons, ih]
    cases call with
    | enter => rfl
    | exit => rw [apply, declared_exit, successes]
    | declare symbol =>
      rw [successes]
      -- Only a call that succeeds is logged.
      cases h : t.declare symbol with
      | error existing => simp [apply_declare_of_error h]
      | ok t' =>
        obtain rfl := eq_of_declare_eq_ok h
        simp [apply_declare_of_ok h]

/-- The record of a new table is the list of all declarations that succeeded: `declared_foldl`
from `empty`. -/
theorem declared_after (calls : List TableCall) :
    (after calls).declared = successes empty calls := by
  rw [after, declared_foldl]
  rfl

/-- Nothing is ever taken from the record. -/
theorem declared_prefix_after (calls later : List TableCall) :
    (after calls).declared <+: (after (calls ++ later)).declared := by
  rw [after_append, declared_foldl]
  exact List.prefix_append _ _

/-- A declaration that succeeded is on record, whatever was closed since. -/
theorem mem_declared_of_declares (h : Declares calls before symbol since) :
    symbol ∈ (after calls).declared := by
  obtain ⟨t, hok⟩ := h.succeeds
  have hmem : symbol ∈ (after (before ++ [.declare symbol])).declared := by
    rw [after_concat, apply_declare_of_ok hok, eq_of_declare_eq_ok hok]
    simp
  have hprefix := declared_prefix_after (before ++ [.declare symbol]) since
  rw [List.append_assoc, List.singleton_append, ← h.split] at hprefix
  exact hprefix.subset hmem

/-- What a frame binds is on record, by `binding_after`. -/
theorem mem_declared_of_binding (h : (after calls).binding level name = some symbol) :
    symbol ∈ (after calls).declared := by
  obtain ⟨before, since, hdeclares, -⟩ := (binding_after _ _ _ _).1 h
  exact mem_declared_of_declares hdeclares

end After

/-- **A symbol table is its history**, after any calls on a new one. Its depth counts the openings
that nothing matched. A declaration fails if and only if the current frame has one of that name
that succeeded, which is then the answer, and nothing is changed. A search finds the most recent
declaration of a name that succeeded in a frame that was not closed, and nothing if there is none.
The record lists all that succeeded, so it has every symbol in a frame, and never gets shorter. -/
theorem table_of_history (calls : List TableCall) :
    (after calls).depth = 1 + unmatched calls ∧
    (∀ symbol existing, (after calls).declare symbol = .error existing ↔
      ∃ before since, Declares calls before existing since ∧ existing.name = symbol.name ∧
        IsCurrent before since) ∧
    (∀ symbol existing, (after calls).declare symbol = .error existing →
      after (calls ++ [.declare symbol]) = after calls) ∧
    (∀ name symbol, (after calls).lookup? name = some symbol ↔
      ∃ before since, Declares calls before symbol since ∧ symbol.name = name ∧
        ¬ Exited before since ∧
        ∀ before' symbol' since', Declares calls before' symbol' since' → symbol'.name = name →
          ¬ Exited before' since' → before'.length ≤ before.length) ∧
    (∀ name, (after calls).lookup? name = none ↔
      ∀ before symbol since, Declares calls before symbol since → symbol.name = name →
        Exited before since) ∧
    (after calls).declared = successes empty calls ∧
    (∀ level name symbol, (after calls).binding level name = some symbol →
      symbol ∈ (after calls).declared) ∧
    ∀ later, (after calls).declared <+: (after (calls ++ later)).declared := by
  refine ⟨depth_after calls, fun _ _ => declare_after_eq_error_iff, ?_,
    fun _ _ => lookup?_after_eq_some_iff, fun _ => lookup?_after_eq_none_iff, declared_after calls,
    fun _ _ _ => mem_declared_of_binding, declared_prefix_after calls⟩
  intro symbol existing h
  rw [after_concat, apply_declare_of_error h]

/-- A closing too many, and a name that is bound in two frames, one of which is closed. -/
def shadowing : List TableCall :=
  [.exit, .declare ⟨"a", .file, 1⟩, .enter, .declare ⟨"a", .note, 2⟩, .exit, .enter,
    .declare ⟨"b", .status, 3⟩]

/-- The name of the closed frame is free again, and a second declaration in the open one fails. -/
theorem table_of_shadowing :
    (after shadowing).depth = 2 ∧ (after shadowing).lookup? "a" = some ⟨"a", .file, 1⟩ ∧
    (∃ before since, Declares shadowing before ⟨"a", .file, 1⟩ since ∧ ¬ Exited before since) ∧
    (after shadowing).declare ⟨"b", .note, 4⟩ = .error ⟨"b", .status, 3⟩ ∧
    after (shadowing ++ [.declare ⟨"b", .note, 4⟩]) = after shadowing ∧
    ⟨"a", .note, 2⟩ ∈ (after shadowing).declared := by
  obtain ⟨hdepth, -, hunchanged, hlookup, -, hdeclared, -⟩ := table_of_history shadowing
  have hfound : (after shadowing).lookup? "a" = some ⟨"a", .file, 1⟩ := by decide
  have hfails : (after shadowing).declare ⟨"b", .note, 4⟩ = .error ⟨"b", .status, 3⟩ := rfl
  obtain ⟨before, since, hdeclares, -, hlive, -⟩ := (hlookup "a" _).1 hfound
  refine ⟨hdepth.trans (by decide), hfound, ⟨before, since, hdeclares, hlive⟩, hfails,
    hunchanged _ _ hfails, ?_⟩
  rw [hdeclared]
  decide

end SymbolTable

end DrLang
