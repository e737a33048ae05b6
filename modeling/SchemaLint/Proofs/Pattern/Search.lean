import SchemaLint.Pattern.Search

/-!
# What a search comes to

A search is bounded by its fuel and by its budget of returns. `Ends k c stack r o` says that `k`
tasks of fuel are enough for the search from `c` with a stack, and that it goes back `r` times
before it finds `o`, or finds nothing; with a budget below `r` it is given up. The rules below
follow a search task by task, so that the cost of a program adds up from the costs of its parts.
-/

namespace SchemaLint.Pattern

/-- The place between two texts, the nearest character of the first one first. -/
def Place.between (before after : List Char) : Place :=
  { offset := before.length, before, after }

/-- A state of a search without groups. -/
def Config.between (todo : List Task) (before after : List Char) : Config :=
  { todo, place := .between before after, opened := [], closed := [] }

open Pattern.Config (between)

/-- What a search comes to that goes back `r` times before it finds `o`, or nothing. -/
def settle (r : Nat) (o : Option Config) (budget : Nat) : Outcome :=
  if budget < r then .givenUp
  else match o with
    | some c => .found c (budget - r)
    | none => .exhausted (budget - r)

/-- The search goes on from the top of its stack. -/
def resume (fuel budget : Nat) : List Config → Outcome
  | [] => .exhausted budget
  | c :: stack =>
    match budget with
    | 0 => .givenUp
    | budget + 1 => search fuel budget c stack

/-- From `c` with a stack the search goes back `r` times and finds `o`. -/
def Ends (k : Nat) (c : Config) (stack : List Config) (r : Nat) (o : Option Config) : Prop :=
  ∀ fuel, k ≤ fuel → ∀ budget, search fuel budget c stack = settle r o budget

/-- From a stack the search goes back `r` times and finds `o`. -/
def Resumes (k : Nat) (stack : List Config) (r : Nat) (o : Option Config) : Prop :=
  ∀ fuel, k ≤ fuel → ∀ budget, resume fuel budget stack = settle r o budget

/-- Tells whether a task needs no search of its own. -/
def Task.isPlain : Task → Bool
  | .run (.look _ true _) => false
  | .run (.atomic _) => false
  | .run (.cond ..) => false
  | _ => true

variable {k k' n m r r' : Nat} {c c' : Config} {stack : List Config} {o : Option Config}
  {task : Task} {todo todo' : List Task} {b b' b'' a a' a'' : List Char}

theorem settle_of_lt {budget : Nat} (h : budget < r) : settle r o budget = .givenUp :=
  if_pos h

theorem settle_some {budget : Nat} (h : r ≤ budget) :
    settle r (some c) budget = .found c (budget - r) := by
  simp only [settle, if_neg (Nat.not_lt.mpr h)]

theorem settle_none {budget : Nat} (h : r ≤ budget) :
    settle r none budget = .exhausted (budget - r) := by
  simp only [settle, if_neg (Nat.not_lt.mpr h)]

/-- What is left of a budget settles what comes after. -/
theorem settle_add {budget : Nat} (h : r ≤ budget) :
    settle (r + r') o budget = settle r' o (budget - r) := by
  unfold settle
  rw [Nat.sub_sub]
  by_cases hlt : budget < r + r'
  · rw [if_pos hlt, if_pos (by omega)]
  · rw [if_neg hlt, if_neg (by omega)]

theorem Ends.mono (h : Ends k c stack r o) (hle : k ≤ k') : Ends k' c stack r o :=
  fun fuel hf budget => h fuel (Nat.le_trans hle hf) budget

theorem Resumes.mono (h : Resumes k stack r o) (hle : k ≤ k') : Resumes k' stack r o :=
  fun fuel hf budget => h fuel (Nat.le_trans hle hf) budget

/-! ## One task -/

/-- The search takes the first of some ways, or goes back. -/
def follow (fuel budget : Nat) (stack : List Config) : List Config → Outcome
  | [] => resume fuel budget stack
  | c :: others => search fuel budget c (others ++ stack)

theorem search_plain (fuel budget : Nat) (hp : task.isPlain = true) (ht : c.todo = task :: todo) :
    search (fuel + 1) budget c stack = follow fuel budget stack ({ c with todo }.ways task) := by
  obtain ⟨_, place, opened, closed⟩ := c
  cases ht
  cases stack <;> cases budget <;>
    match task, hp with
    | .run (.char _), _ | .run (.anchor _), _ | .run (.whole _), _ | .run (.sees _), _
    | .run (.seq _), _ | .run (.alt _), _ | .run (.group ..), _ | .run (.rep ..), _
    | .run (.look _ false _), _ | .run (.backref ..), _ | .run (.isSet _), _ | .again .., _
    | .back _, _ | .close _, _ => rfl

theorem Ends.found (h : c.todo = []) : Ends 1 c stack 0 (some c) := by
  intro fuel hf budget
  obtain ⟨fuel, rfl⟩ := Nat.exists_eq_add_of_le' hf
  rw [settle_some (Nat.zero_le _)]
  simp only [search, h, Nat.sub_zero]

/-- The preferred way of a task is searched, the others are kept on the stack. -/
theorem Ends.of_way {others : List Config} (hp : task.isPlain = true) (ht : c.todo = task :: todo)
    (hw : { c with todo }.ways task = c' :: others) (h : Ends k c' (others ++ stack) r o) :
    Ends (k + 1) c stack r o := by
  intro fuel hf budget
  obtain ⟨fuel, rfl⟩ := Nat.exists_eq_add_of_le' (Nat.le_trans (Nat.le_add_left 1 k) hf)
  rw [search_plain fuel budget hp ht, hw]
  exact h fuel (by omega) budget

theorem Ends.of_only_way (hp : task.isPlain = true) (ht : c.todo = task :: todo)
    (hw : { c with todo }.ways task = [c']) (h : Ends k c' stack r o) : Ends (k + 1) c stack r o :=
  .of_way hp ht hw h

/-- A task without a way sends the search back to its stack. -/
theorem Ends.of_stuck (hp : task.isPlain = true) (ht : c.todo = task :: todo)
    (hw : { c with todo }.ways task = []) (h : Resumes k stack r o) : Ends (k + 1) c stack r o := by
  intro fuel hf budget
  obtain ⟨fuel, rfl⟩ := Nat.exists_eq_add_of_le' (Nat.le_trans (Nat.le_add_left 1 k) hf)
  rw [search_plain fuel budget hp ht, hw]
  exact h fuel (by omega) budget

theorem Resumes.nil : Resumes 0 [] 0 none := by
  intro fuel _ budget
  rw [settle_none (Nat.zero_le _)]
  rfl

theorem Resumes.cons (h : Ends k c stack r o) : Resumes k (c :: stack) (r + 1) o := by
  intro fuel hf budget
  cases budget with
  | zero => rw [settle_of_lt (Nat.succ_pos r)]; rfl
  | succ budget =>
    rw [Nat.add_comm r 1, settle_add (Nat.succ_pos budget)]
    exact h fuel hf budget

/-! ## Looking for an absence -/

/-- The search goes on after it has looked for what should be absent. -/
def afterLook (fuel : Nat) (c : Config) (stack : List Config) : Outcome → Outcome
  | .found _ budget => resume fuel budget stack
  | .exhausted (budget + 1) => search fuel budget c stack
  | .exhausted 0 => .givenUp
  | .givenUp => .givenUp

theorem search_absence (fuel budget : Nat) (p : Program)
    (ht : c.todo = .run (.look 0 true p) :: todo) :
    search (fuel + 1) budget c stack =
      afterLook fuel { c with todo } stack (search fuel budget { c with todo := [.run p] } []) := by
  obtain ⟨_, place, opened, closed⟩ := c
  cases ht
  generalize hl : search fuel budget { todo := [.run p], place, opened, closed } [] = outcome
  simp only [search, Place.back?, Option.elim_some, hl]
  match outcome, stack with
  | .found _ 0, [] | .found _ (_ + 1), [] | .found _ 0, _ :: _ | .found _ (_ + 1), _ :: _ => rfl
  | .exhausted 0, _ | .exhausted (_ + 1), _ | .givenUp, _ => rfl

/-- What is absent costs the search for it and one return. -/
theorem Ends.of_absent {p : Program} (ht : c.todo = .run (.look 0 true p) :: todo)
    (hp : Ends k { c with todo := [.run p] } [] r none) (h : Ends k { c with todo } stack r' o) :
    Ends (k + 1) c stack (r + 1 + r') o := by
  intro fuel hf budget
  obtain ⟨fuel, rfl⟩ := Nat.exists_eq_add_of_le' (Nat.le_trans (Nat.le_add_left 1 k) hf)
  rw [search_absence fuel budget p ht, hp fuel (by omega) budget]
  rcases Nat.lt_or_ge budget r with hlt | hge
  · rw [settle_of_lt hlt, settle_of_lt (by omega)]
    rfl
  · rw [settle_none hge]
    cases hb : budget - r with
    | zero => rw [settle_of_lt (by omega)]; rfl
    | succ left =>
      rw [settle_add (r := r + 1) (by omega), show budget - (r + 1) = left by omega]
      exact h fuel (by omega) left

/-- What is present costs the search for it and sends the search back to its stack. -/
theorem Ends.of_present {p : Program} (ht : c.todo = .run (.look 0 true p) :: todo)
    (hp : Ends k { c with todo := [.run p] } [] r (some c')) (h : Resumes k stack r' o) :
    Ends (k + 1) c stack (r + r') o := by
  intro fuel hf budget
  obtain ⟨fuel, rfl⟩ := Nat.exists_eq_add_of_le' (Nat.le_trans (Nat.le_add_left 1 k) hf)
  rw [search_absence fuel budget p ht, hp fuel (by omega) budget]
  rcases Nat.lt_or_ge budget r with hlt | hge
  · rw [settle_of_lt hlt, settle_of_lt (by omega)]
    rfl
  · rw [settle_some hge, settle_add hge]
    exact h fuel (by omega) (budget - r)

end SchemaLint.Pattern
