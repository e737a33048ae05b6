import SchemaLint.Proofs.Pattern.Words

/-!
# Patterns that require a word

Such a pattern matches a line unless the line begins with a head and has no whole word after it.
Where the word is missing the search comes to nothing, and the number of its returns is known: twice
over the rest of the line, once for the word and once for a later place to begin at. Past the budget
of returns the line counts as a match.
-/

namespace SchemaLint.Pattern

open Pattern.Config (between)

/-- What is left of a line. -/
def lineRest : Program :=
  .rep (.char (.compl (.single '\n'))) 0 none true false

/-- A whole word is not on what is left of the line. -/
def lacking (w : String) : Program :=
  .look 0 true (.seq (lineRest :: wholeWord w))

/-- A line whose beginning is the head has the word after it. -/
def requirement (head : List Program) (w : String) : Program :=
  .seq [.whole (.seq [.anchor .textStart]), .look 0 true (.seq (head ++ [lacking w])), lineRest,
    .whole (.seq [.anchor .textEnd])]

variable {k r : Nat} {stack : List Config} {o : Option Config} {c : Config} {todo : List Task}
  {head : List Program} {w : String} {a b : List Char}

theorem Ends.of_absent_between {p : Program} {r' : Nat}
    (hp : Ends k (between [.run p] b a) [] r none) (h : Ends k (between todo b a) stack r' o) :
    Ends (k + 1) (between (.run (.look 0 true p) :: todo) b a) stack (r + 1 + r') o :=
  .of_absent rfl hp h

theorem Ends.of_present_between {p : Program} {r' : Nat}
    (hp : Ends k (between [.run p] b a) [] r (some c)) (h : Resumes k stack r' o) :
    Ends (k + 1) (between (.run (.look 0 true p) :: todo) b a) stack (r + r') o :=
  .of_present rfl hp h

/-! ## The rest of a line -/

theorem mem_of_line (hnl : '\n' ∉ a) :
    ∀ c ∈ a, (CharSet.compl (.single '\n')).mem c = true := by
  intro c hc
  have hne : '\n' ≠ c := fun h => hnl (h ▸ hc)
  simp [CharSet.mem, CharSet.mem_single, hne]

theorem Ends.of_lineRest (hnl : '\n' ∉ a)
    (h : Ends k (between todo (a.reverse ++ b) []) (rungs todo [] b a stack) r o) :
    Ends (k + 2 * a.length + 2) (between (.run lineRest :: todo) b a) stack (r + 1) o := by
  have hloop : Ends (k + 2 * a.length + 2)
      (between (.again (.char (.compl (.single '\n'))) 0 none true false 0 none :: todo) b (a ++ []))
      stack (r + 1) o :=
    .of_loop (Nat.le_refl 0) (mem_of_line hnl) rfl h
  rw [List.append_nil] at hloop
  exact .of_rep hloop

theorem all_isStep_wholeWord (w : String) : (wholeWord w).all Program.isStep = true := by
  simp only [wholeWord, letters, List.cons_append, List.all_cons, List.all_append, List.all_map,
    List.all_nil, Program.isStep, Bool.and_true, Bool.true_and]
  exact List.all_eq_true.mpr fun _ _ => rfl

/-- The tasks that a search for a whole word takes at each place. -/
def wordCost (w : String) : Nat :=
  (wholeWord w).length + 5

theorem reaches_lacking_body :
    Reaches 1 [.run (.seq (lineRest :: wholeWord w))] b a
      (.run lineRest :: (wholeWord w).map .run) b a :=
  reaches_seq (List.append_nil ((lineRest :: wholeWord w).map Task.run)).symm

section Word

variable (hw : ∀ l ∈ w.toList, Unicode.IsPlainLetter l) (hne : w.toList ≠ [])

include hw hne

theorem walk_wholeWord_eq_none (hno : somewhere (isWordAt w) b.head? a = false) {u v : List Char}
    (huv : a = u ++ v) : walk (wholeWord w) (u.reverse ++ b) v = none := by
  rw [← Option.not_isSome_iff_eq_none, isSome_walk_wholeWord hw hne]
  intro h
  exact Bool.false_ne_true (hno ▸ (somewhere_iff _ b a).mpr ⟨u, v, huv, h⟩)

/-- To see that a word is missing costs one return for each place of the line and two more. -/
theorem Ends.of_lacking (hnl : '\n' ∉ a) (hno : somewhere (isWordAt w) b.head? a = false)
    (h : Ends k (between todo b a) stack r o) :
    Ends (k + wordCost w * (a.length + 2)) (between (.run (lacking w) :: todo) b a) stack
      (a.length + 2 + r) o := by
  have hfail : ∀ u v, a = u ++ v →
      Fails (wholeWord w).length 0 ((wholeWord w).map .run) (u.reverse ++ b) v :=
    fun u v huv => fails_of_walk (List.append_nil _).symm (all_isStep_wholeWord w)
      (walk_wholeWord_eq_none hw hne hno huv)
  have hrungs : Resumes (0 + (wholeWord w).length * a.length)
      (rungs ((wholeWord w).map .run) [] b a []) (0 + a.length) none :=
    .of_rungs (fun u c v huv => by simpa using hfail u (c :: v) huv) .nil
  have htop := hfail a [] (List.append_nil a).symm _ _ _ _ hrungs
  have hbody : Ends (k + wordCost w * (a.length + 2) - 1)
      (between [.run (.seq (lineRest :: wholeWord w))] b a) [] (a.length + 1) none := by
    have hseq := reaches_lacking_body _ _ _ _ (Ends.of_lineRest hnl htop)
    rw [Nat.zero_add, Nat.add_zero, Nat.zero_add] at hseq
    refine hseq.mono ?_
    simp only [wordCost, Nat.add_mul, Nat.mul_add]
    omega
  have hrest : Ends (k + wordCost w * (a.length + 2) - 1) (between todo b a) stack r o := by
    refine h.mono ?_
    simp only [wordCost, Nat.add_mul, Nat.mul_add]
    omega
  refine (Ends.of_absent_between hbody hrest).mono ?_
  simp only [wordCost, Nat.add_mul, Nat.mul_add]
  omega

/-- A word that stands on the line sends the search back. -/
theorem exists_fails_lacking (hnl : '\n' ∉ a) (hyes : somewhere (isWordAt w) b.head? a = true) :
    ∃ e, Fails (wordCost w * (a.length + 2)) e (.run (lacking w) :: todo) b a := by
  obtain ⟨u, v, huv, hat⟩ := (somewhere_iff _ b a).mp hyes
  have hwalk : (walk (wholeWord w) (u.reverse ++ b) v).isSome = true := by
    rw [isSome_walk_wholeWord hw hne]
    exact hat
  have hend : ∀ b, walk (wholeWord w) b [] = none := by
    intro b
    rw [← Option.not_isSome_iff_eq_none, isSome_walk_wholeWord hw hne]
    cases hl : w.toList with
    | nil => exact absurd hl hne
    | cons l rest => simp [isWordAt, hl, Text.startsIgnoringCase]
  obtain ⟨c, v, rfl⟩ : ∃ c v', v = c :: v' := by
    cases v with
    | nil => simp [hend] at hwalk
    | cons c v => exact ⟨c, v, rfl⟩
  have hfind : (∃ u' c' v', a = u' ++ c' :: v' ∧
        (walk (wholeWord w) (u'.reverse ++ b) (c' :: v' ++ [])).isSome) ∨
      ∃ r d, Resumes 0 [] r (some d) :=
    .inl ⟨u, c, v, huv, by rwa [List.append_nil]⟩
  obtain ⟨r, d, hrungs⟩ := Resumes.of_rungs_find (all_isStep_wholeWord w) hfind
  have htop := fails_of_walk (List.append_nil _).symm (all_isStep_wholeWord w)
    (hend (a.reverse ++ b)) _ _ _ _ hrungs
  have hseq := reaches_lacking_body _ _ _ _ (Ends.of_lineRest hnl htop)
  refine ⟨r + 0 + 1, fun k stack r' o h => ?_⟩
  have hbody : Ends (k + wordCost w * (a.length + 2) - 1)
      (between [.run (.seq (lineRest :: wholeWord w))] b a) [] (r + 0 + 1) (some d) := by
    refine hseq.mono ?_
    simp only [wordCost, Nat.add_mul, Nat.mul_add]
    omega
  have hback : Resumes (k + wordCost w * (a.length + 2) - 1) stack r' o := by
    refine h.mono ?_
    simp only [wordCost, Nat.add_mul, Nat.mul_add]
    omega
  rw [Nat.add_comm r' _]
  refine (Ends.of_present_between hbody hback).mono ?_
  simp only [wordCost, Nat.add_mul, Nat.mul_add]
  omega

end Word

/-! ## The ends of a line -/

theorem members_one (n : Nat) : Overlay.members n 1 = [0] := by
  have hlater : ∀ m ∈ (List.range n).map Nat.succ, ¬ Nat.testBit 1 m = true := by
    intro m hm
    obtain ⟨i, -, rfl⟩ := List.mem_map.mp hm
    simp [Nat.testBit_succ]
  rw [Overlay.members, List.range_succ_eq_map, List.filter_cons_of_pos rfl,
    List.filter_eq_nil_iff.mpr hlater]

theorem members_zero (n : Nat) : Overlay.members n 0 = [] := by
  simp [Overlay.members]

theorem places_mod_two (a : List Char) : Overlay.places a % 2 = 1 := by
  have h : (Overlay.places a).testBit 0 = true := by simp [Overlay.places, Nat.one_shiftLeft]
  rwa [Nat.testBit_zero, decide_eq_true_eq] at h

theorem after_between : (Place.between b a).after = a := rfl

/-- An anchor taken whole stays at its place if it holds there. -/
theorem preferredEnd_anchor (x : Anchor) :
    (Expr.seq [.anchor x]).preferredEnd? (.between b a) =
      if (Overlay.anchored (.between b a) x).testBit 0 then some (.between b a) else none := by
  simp only [Expr.preferredEnd?, Overlay.ofExpr, Overlay.ofExprs, Overlay.pick, Overlay.pickAll,
    Overlay.ends, Overlay.endsOfAll, Overlay.viable, after_between]
  generalize Overlay.anchored _ x = m
  simp only [Nat.testBit_zero, Nat.one_shiftLeft, Nat.pow_zero, Nat.one_and_eq_mod_two]
  rcases Nat.mod_two_eq_zero_or_one m with h | h
  · simp [h, members_zero]
  · simp [h, members_one, places_mod_two, Place.ahead]

theorem reaches_anchor_whole {x : Anchor}
    (h : (Overlay.anchored (.between b a) x).testBit 0 = true) :
    Reaches 1 (.run (.whole (.seq [.anchor x])) :: todo) b a todo b a := by
  intro k stack r o he
  refine .of_only_way rfl rfl ?_ he
  have hend := (preferredEnd_anchor x).trans (if_pos h)
  simp only [Config.ways, between, hend, Option.toList_some, List.map_cons, List.map_nil]

theorem fails_anchor_whole {x : Anchor}
    (h : (Overlay.anchored (.between b a) x).testBit 0 = false) :
    Fails 1 0 (.run (.whole (.seq [.anchor x])) :: todo) b a := by
  intro k stack r o hr
  refine Ends.of_stuck rfl rfl ?_ hr
  have hend := (preferredEnd_anchor (b := b) (a := a) x).trans (if_neg (by simp [h]))
  simp only [Config.ways, between, hend, Option.toList_none, List.map_nil]

theorem reaches_textStart :
    Reaches 1 (.run (.whole (.seq [.anchor .textStart])) :: todo) [] a todo [] a :=
  reaches_anchor_whole (by simp [Overlay.anchored, Place.between])

/-! ## The whole pattern -/

theorem reaches_requirement :
    Reaches 1 [.run (requirement head w)] b a
      [.run (.whole (.seq [.anchor .textStart])),
        .run (.look 0 true (.seq (head ++ [lacking w]))), .run lineRest,
        .run (.whole (.seq [.anchor .textEnd]))] b a :=
  reaches_seq rfl

/-- A requirement is met nowhere but at the start of a line. -/
theorem fails_requirement (hb : b ≠ []) : Fails 2 0 [.run (requirement head w)] b a := by
  refine reaches_requirement.fails (fails_anchor_whole ?_)
  cases b with
  | nil => exact absurd rfl hb
  | cons c b => simp [Overlay.anchored, Place.between]

/-- A line with the head and without the word is searched from each of its places. -/
theorem ends_of_violation
    (h : Ends k (between [.run (.seq (head ++ [lacking w]))] [] a) [] r (some c)) :
    Ends (k + 5 * (a.length + 2)) (between [.run (requirement head w).anywhere] [] a) []
      (r + (a.length + 1)) none := by
  have hclimb : Ends (4 * (a.length + 1)) (climb (requirement head w) 1 (some 0) [] a) []
      a.length none :=
    ends_climb 1 (some 0) fun _ _ => fails_requirement
  have hbody := h.mono (Nat.le_add_right k (4 * (a.length + 1)))
  have hlook : Ends (k + 4 * (a.length + 1) + 1)
      (between [.run (.look 0 true (.seq (head ++ [lacking w]))), .run lineRest,
        .run (.whole (.seq [.anchor .textEnd]))] [] a) [climb (requirement head w) 1 (some 0) [] a]
      (r + (a.length + 1)) none :=
    .of_present_between hbody ((Resumes.cons hclimb).mono (Nat.le_add_left _ k))
  have hstart := reaches_requirement _ _ _ _ (reaches_textStart _ _ _ _ hlook)
  exact (ends_anywhere hstart).mono (by omega)

/-- A line without the head, or with the word, is matched from its start. -/
theorem ends_of_observance (hnl : '\n' ∉ a)
    (h : Ends k (between [.run (.seq (head ++ [lacking w]))] [] a) [] r none) :
    ∃ r d, Ends (k + 5 * (a.length + 2)) (between [.run (requirement head w).anywhere] [] a) [] r
      (some d) := by
  have hdone : ∀ stack, Ends 2 (between [.run (.whole (.seq [.anchor .textEnd]))]
      (a.reverse ++ []) []) stack 0 (some (between [] (a.reverse ++ []) [])) :=
    fun stack => reaches_anchor_whole (by simp [Overlay.anchored, Place.between]) 1 stack 0 _
      (.found rfl)
  have hline := Ends.of_lineRest hnl
    (hdone (rungs _ [] [] a [climb (requirement head w) 1 (some 0) [] a]))
  have hlook := Ends.of_absent_between (h.mono (Nat.le_add_right k (2 + 2 * a.length + 2)))
    (hline.mono (Nat.le_add_left _ k))
  have hstart := reaches_requirement _ _ _ _ (reaches_textStart _ _ _ _ hlook)
  exact ⟨_, _, (ends_anywhere hstart).mono (by omega)⟩

/-! ## Acceptance -/

theorem searchIn_eq {p : Program} (hk : k ≤ maxReturns * (a.length + 2))
    (h : Ends k (between [.run p.anywhere] [] a) [] r o) : p.searchIn a = settle r o maxReturns := by
  have hbudget := Nat.mul_le_mul_right (a.length + 2) (Nat.le_add_right maxReturns 1)
  have hweight := Nat.le_mul_of_pos_right ((maxReturns + 1) * (a.length + 2))
    (Nat.succ_pos (p.weight + 7))
  simp only [Program.searchIn]
  exact h _ (Nat.le_trans hk (Nat.le_trans hbudget hweight)) maxReturns

/-- Tells whether a text counts as a match after a search. -/
def Outcome.isMatch : Outcome → Bool
  | .exhausted _ => false
  | _ => true

-- the definition is opened without its arguments, else the search itself would be evaluated
theorem accepts_eq_isMatch : Program.accepts = fun p text => (p.searchIn text).isMatch := by
  delta Program.accepts
  funext p text
  generalize p.searchIn text = outcome
  cases outcome <;> rfl

theorem accepts_eq (p : Program) (a : List Char) : p.accepts a = (p.searchIn a).isMatch :=
  congrFun (congrFun accepts_eq_isMatch p) a

theorem accepts_of_find {p : Program} (hk : k ≤ maxReturns * (a.length + 2))
    (h : Ends k (between [.run p.anywhere] [] a) [] r (some c)) : p.accepts a = true := by
  rw [accepts_eq, searchIn_eq hk h]
  generalize maxReturns = budget
  rcases Nat.lt_or_ge budget r with hlt | hge
  · rw [settle_of_lt hlt]
    rfl
  · rw [settle_some hge]
    rfl

/-- A search that finds nothing rejects its text as long as its returns are within the budget. -/
theorem accepts_of_none {p : Program} (hk : k ≤ maxReturns * (a.length + 2))
    (h : Ends k (between [.run p.anywhere] [] a) [] r none) :
    p.accepts a = decide (maxReturns < r) := by
  rw [accepts_eq, searchIn_eq hk h]
  generalize maxReturns = budget
  rcases Nat.lt_or_ge budget r with hlt | hge
  · rw [settle_of_lt hlt, decide_eq_true hlt]
    rfl
  · rw [settle_none hge, decide_eq_false (Nat.not_lt.mpr hge)]
    rfl

end SchemaLint.Pattern
