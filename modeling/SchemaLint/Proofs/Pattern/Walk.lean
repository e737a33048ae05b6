import SchemaLint.Proofs.Pattern.Search

/-!
# Walks and loops of a search

Characters and anchors leave no choice: `walk` passes them one after the other or fails. A loop over
the characters of a set tries its longest run first and keeps a rung for every shorter one, so a
search that fails behind the loop comes back down the rungs one by one. Searching everywhere is a
lazy loop that climbs instead.
-/

namespace SchemaLint.Pattern

open Pattern.Config (between)

/-- Every search from the first state ends as the one from the second state does, `n` tasks later. -/
def Reaches (n : Nat) (todo : List Task) (b a : List Char) (todo' : List Task)
    (b' a' : List Char) : Prop :=
  ∀ k stack r o, Ends k (between todo' b' a') stack r o →
    Ends (k + n) (between todo b a) stack r o

/-- Every search from a state is back at its stack within `n` tasks and `e` returns. -/
def Fails (n e : Nat) (todo : List Task) (b a : List Char) : Prop :=
  ∀ k stack r o, Resumes k stack r o → Ends (k + n) (between todo b a) stack (r + e) o

variable {k n m e r : Nat} {stack : List Config} {o : Option Config} {p : Program} {s : CharSet}
  {ps : List Program} {task : Task} {todo todo' todo'' : List Task}
  {b b' b'' a a' a'' run tail : List Char}

theorem Reaches.trans (h : Reaches n todo b a todo' b' a')
    (h' : Reaches m todo' b' a' todo'' b'' a'') : Reaches (n + m) todo b a todo'' b'' a'' := by
  intro k stack r o he
  rw [Nat.add_comm n m, ← Nat.add_assoc]
  exact h _ _ _ _ (h' _ _ _ _ he)

theorem Reaches.fails (h : Reaches n todo b a todo' b' a') (h' : Fails m e todo' b' a') :
    Fails (n + m) e todo b a := by
  intro k stack r o he
  rw [Nat.add_comm n m, ← Nat.add_assoc]
  exact h _ _ _ _ (h' _ _ _ _ he)

theorem Fails.mono (h : Fails n e todo b a) (hle : n ≤ m) : Fails m e todo b a :=
  fun k stack r o hr => (h k stack r o hr).mono (Nat.add_le_add_left hle k)

theorem reaches_seq (ht : todo' = ps.map .run ++ todo) :
    Reaches 1 (.run (.seq ps) :: todo) b a todo' b a := by
  subst ht
  exact fun _ _ _ _ h => .of_only_way rfl rfl rfl h

/-! ## Characters and anchors -/

/-- Tells whether a program is a character or an anchor. -/
def Program.isStep : Program → Bool
  | .char _ => true
  | .anchor _ => true
  | _ => false

/-- Where characters and anchors lead from a place, if they let a search pass. -/
def walk : List Program → List Char → List Char → Option (List Char × List Char)
  | .char s :: ps, b, c :: a => if s.mem c then walk ps (c :: b) a else none
  | .anchor x :: ps, b, a => if x.holds (.between b a) then walk ps b a else none
  | [], b, a => some (b, a)
  | _, _, _ => none

theorem reaches_char {c : Char} (h : s.mem c = true) :
    Reaches 1 (.run (.char s) :: todo) b (c :: a) todo (c :: b) a := by
  intro k stack r o he
  refine .of_only_way rfl rfl ?_ he
  exact if_pos h

theorem fails_char (h : a.head?.any s.mem = false) : Fails 1 0 (.run (.char s) :: todo) b a := by
  intro k stack r o hr
  refine Ends.of_stuck rfl rfl ?_ hr
  cases a with
  | nil => rfl
  | cons c a => exact if_neg (by simpa using h)

theorem reaches_anchor {x : Anchor} (h : x.holds (.between b a) = true) :
    Reaches 1 (.run (.anchor x) :: todo) b a todo b a := by
  intro k stack r o he
  refine .of_only_way rfl rfl ?_ he
  exact if_pos h

theorem fails_anchor {x : Anchor} (h : x.holds (.between b a) = false) :
    Fails 1 0 (.run (.anchor x) :: todo) b a := by
  intro k stack r o hr
  refine Ends.of_stuck rfl rfl ?_ hr
  exact if_neg (ne_true_of_eq_false h)

theorem reaches_of_walk (ht : todo' = ps.map .run ++ todo) (hs : ps.all Program.isStep = true)
    (h : walk ps b a = some (b', a')) : Reaches ps.length todo' b a todo b' a' := by
  subst ht
  induction ps generalizing b a with
  | nil =>
    obtain ⟨rfl, rfl⟩ : b = b' ∧ a = a' := by simpa [walk] using h
    exact fun _ _ _ _ he => he
  | cons p ps ih =>
    simp only [List.all_cons, Bool.and_eq_true] at hs
    rw [List.length_cons, Nat.add_comm]
    match p, a, hs with
    | .char s, c :: a, hs =>
      rw [walk] at h
      split at h
      · rename_i hc
        exact (reaches_char hc).trans (ih hs.2 h)
      · exact absurd h (by simp)
    | .char s, [], hs => exact absurd h (by simp [walk])
    | .anchor x, a, hs =>
      rw [walk] at h
      split at h
      · rename_i hx
        exact (reaches_anchor hx).trans (ih hs.2 h)
      · exact absurd h (by simp)

theorem fails_of_walk (ht : todo' = ps.map .run ++ todo) (hs : ps.all Program.isStep = true)
    (h : walk ps b a = none) : Fails ps.length 0 todo' b a := by
  subst ht
  induction ps generalizing b a with
  | nil => exact absurd h (by simp [walk])
  | cons p ps ih =>
    simp only [List.all_cons, Bool.and_eq_true] at hs
    rw [List.length_cons, Nat.add_comm]
    match p, a, hs with
    | .char s, c :: a, hs =>
      rw [walk] at h
      split at h
      · rename_i hc
        exact (reaches_char hc).fails (ih hs.2 h)
      · rename_i hc
        exact (fails_char (by simpa using hc)).mono (Nat.le_add_right 1 _)
    | .char s, [], hs => exact (fails_char rfl).mono (Nat.le_add_right 1 _)
    | .anchor x, a, hs =>
      rw [walk] at h
      split at h
      · rename_i hx
        exact (reaches_anchor hx).fails (ih hs.2 h)
      · rename_i hx
        exact (fails_anchor (by simpa using hx)).mono (Nat.le_add_right 1 _)

/-! ## Greedy loops -/

/-- The states that a loop keeps while it passes a run of characters, the last one on top. -/
def rungs (todo : List Task) (tail : List Char) :
    List Char → List Char → List Config → List Config
  | _, [], stack => stack
  | b, c :: run, stack =>
    rungs todo tail (c :: b) run (between todo b (c :: run ++ tail) :: stack)

theorem ways_again_greedy {lo count : Nat} {seen : Option Nat} (hlo : lo ≤ count) :
    (between todo b a).ways (.again p lo none true false count seen) =
      [between (.run p :: .again p lo none true false (count + 1) (some b.length) :: todo) b a,
        between todo b a] := by
  simp only [Config.ways, Config.repeatWays, Bool.false_and, Bool.false_eq_true, if_false,
    if_neg (Nat.not_lt.mpr hlo), if_true]
  rfl

/-- A loop passes its longest run and costs one return at the end of the run. -/
theorem Ends.of_loop {lo count : Nat} {seen : Option Nat} (hlo : lo ≤ count)
    (hrun : ∀ c ∈ run, s.mem c = true) (htail : tail.head?.any s.mem = false)
    (h : Ends k (between todo (run.reverse ++ b) tail) (rungs todo tail b run stack) r o) :
    Ends (k + 2 * run.length + 2)
      (between (.again (.char s) lo none true false count seen :: todo) b (run ++ tail)) stack
      (r + 1) o := by
  induction run generalizing b stack count seen with
  | nil =>
    refine Ends.of_way rfl rfl (ways_again_greedy hlo) ?_
    exact fails_char htail _ _ _ _ (Resumes.cons h)
  | cons c run ih =>
    have hrest : Ends (k + 2 * run.length + 2)
        (between (.again (.char s) lo none true false (count + 1) (some b.length) :: todo) (c :: b)
          (run ++ tail)) (between todo b (c :: run ++ tail) :: stack) (r + 1) o := by
      refine ih (Nat.le_succ_of_le hlo) (fun d hd => hrun d (List.mem_cons_of_mem c hd)) ?_
      simpa [rungs] using h
    have hchar := reaches_char (hrun c List.mem_cons_self) _ _ _ _ hrest
    refine (Ends.of_way rfl rfl (ways_again_greedy hlo) hchar).mono ?_
    simp only [List.length_cons]
    omega

/-- A repetition begins as a loop that has passed nothing. -/
theorem Ends.of_rep {lo : Nat} {hi : Option Nat} {greedy guarded : Bool}
    (h : Ends k (between (.again p lo hi greedy guarded 0 none :: todo) b a) stack r o) :
    Ends k (between (.run (.rep p lo hi greedy guarded) :: todo) b a) stack r o := by
  intro fuel hf budget
  rw [← h fuel hf budget]
  cases fuel with
  | zero => rfl
  | succ fuel =>
    rw [search_plain (c := between _ b a) fuel budget rfl rfl,
      search_plain (c := between _ b a) fuel budget rfl rfl]
    rfl

/-- A loop that must pass a character begins with it. -/
theorem Ends.of_rep_once {c : Char} (hc : s.mem c = true)
    (h : Ends k (between (.again (.char s) 1 none true false 1 none :: todo) (c :: b) a) stack r o) :
    Ends (k + 2) (between (.run (.rep (.char s) 1 none true false) :: todo) b (c :: a)) stack r o :=
  .of_only_way rfl rfl rfl (reaches_char hc _ _ _ _ h)

/-- Rungs that all fail cost one return each. -/
theorem Resumes.of_rungs
    (hf : ∀ u c v, run = u ++ c :: v → Fails n 0 todo (u.reverse ++ b) (c :: v ++ tail))
    (h : Resumes k stack r o) :
    Resumes (k + n * run.length) (rungs todo tail b run stack) (r + run.length) o := by
  induction run generalizing b stack k r with
  | nil => exact h
  | cons c run ih =>
    have hc := hf [] c run rfl
    have hrest := ih (b := c :: b) ?_ (Resumes.cons (hc _ _ _ _ h))
    · simp only [List.length_cons, Nat.mul_succ, rungs]
      rw [show k + (n * run.length + n) = k + n + n * run.length by omega,
        show r + (run.length + 1) = r + 0 + 1 + run.length by omega]
      exact hrest
    · intro u d v huv
      simpa using hf (c :: u) d v (by rw [huv]; rfl)

/-- Among rungs that fail or lead to a find, one that does makes a find of all that is above it. -/
theorem Resumes.of_rungs_find (hs : ps.all Program.isStep = true)
    (h : (∃ u c v, run = u ++ c :: v ∧ (walk ps (u.reverse ++ b) (c :: v ++ tail)).isSome) ∨
      ∃ r c, Resumes k stack r (some c)) :
    ∃ r c, Resumes (k + (ps.length + 1) * (run.length + 1)) (rungs (ps.map .run) tail b run stack) r
      (some c) := by
  induction run generalizing b stack k with
  | nil =>
    rcases h with ⟨u, c, v, huv, -⟩ | ⟨r, c, h⟩
    · exact absurd huv (by simp)
    · exact ⟨r, c, h.mono (Nat.le_add_right k _)⟩
  | cons c run ih =>
    have hstep : (∃ u d v, run = u ++ d :: v ∧
          (walk ps (u.reverse ++ c :: b) (d :: v ++ tail)).isSome) ∨
        ∃ r d, Resumes (k + (ps.length + 1)) (between (ps.map .run) b (c :: run ++ tail) :: stack) r
          (some d) := by
      cases hw : walk ps b (c :: run ++ tail) with
      | some place =>
        have hreach := reaches_of_walk (List.append_nil _).symm hs hw
        have hfound := hreach _ stack _ _ (Ends.found rfl)
        exact .inr ⟨_, _, (Resumes.cons hfound).mono (by omega)⟩
      | none =>
        have hfail := fails_of_walk (List.append_nil _).symm hs hw
        rcases h with ⟨u, d, v, huv, hsome⟩ | ⟨r, d, h⟩
        · cases u with
          | nil =>
            obtain ⟨rfl, rfl⟩ := List.cons.inj huv
            exact absurd hsome (by simpa using hw)
          | cons e u =>
            obtain ⟨rfl, rfl⟩ := List.cons.inj huv
            exact .inl ⟨u, d, v, rfl, by simpa using hsome⟩
        · exact .inr ⟨_, d, (Resumes.cons (hfail _ _ _ _ h)).mono (by omega)⟩
    obtain ⟨r, d, hr⟩ := ih hstep
    refine ⟨r, d, hr.mono ?_⟩
    rw [List.length_cons, Nat.mul_succ (ps.length + 1) (run.length + 1)]
    omega

/-! ## Lazy loops -/

/-- A lazy loop that is to pass the next character. -/
def climb (p : Program) (count : Nat) (seen : Option Nat) (b a : List Char) : Config :=
  between [.run (.char .any), .again (.char .any) 0 none false false count seen, .run p] b a

/-- A program that fails at every later place costs one return for each. -/
theorem ends_climb (count : Nat) (seen : Option Nat)
    (hp : ∀ b a, b ≠ [] → Fails n 0 [.run p] b a) :
    Ends ((n + 2) * (a.length + 1)) (climb p count seen b a) [] a.length none := by
  induction a generalizing b count seen with
  | nil =>
    have hend : Ends (0 + 1) (climb p count seen b []) [] (0 + 0) none :=
      fails_char rfl _ _ _ _ Resumes.nil
    exact hend.mono (by rw [List.length_nil]; omega)
  | cons c a ih =>
    have hrest := ih (b := c :: b) (count + 1) (some (c :: b).length)
    have hplace := hp (c :: b) a (List.cons_ne_nil c b) _ _ _ _ (Resumes.cons hrest)
    have hagain : Ends ((n + 2) * (a.length + 1) + n + 1)
        (between (.again (.char .any) 0 none false false count seen :: [.run p]) (c :: b) a) []
        (a.length + 1) none :=
      Ends.of_way rfl rfl rfl hplace
    refine (reaches_char rfl _ _ _ _ hagain).mono ?_
    rw [List.length_cons, Nat.mul_succ (n + 2) (a.length + 1)]
    omega

/-- The first place is tried before the lazy loop climbs. -/
theorem ends_anywhere (h : Ends k (between [.run p] [] a) [climb p 1 (some 0) [] a] r o) :
    Ends (k + 2) (between [.run p.anywhere] [] a) [] r o := by
  have hloop : Ends (k + 1) (between [.run (.rep (.char .any) 0 none false false), .run p] [] a) [] r
      o :=
    .of_rep (.of_way rfl rfl rfl h)
  exact reaches_seq rfl _ _ _ _ hloop

end SchemaLint.Pattern
