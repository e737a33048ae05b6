import Mathlib.Order.WellFounded
import SchemaLint.Ancestry.Inquiry
import SchemaLint.Proofs.Ancestry

/-!
# What is asked for

Whoever locates the sources of ancestors may change with every question and answer whatever it
likes. `Series` tells what may come of it: the requests with their answers, and the walk that is
left. Asking gives such a series (`pursue_noting`), and everything else is said of all of them: the
requests are no more than the questions left, those for one class stand together and are no more
than the attempts, and a class that has been taken is never asked for.

The attempts are counted for the class asked for last only, so the bound for one class needs that
the walk does not come back to a class that it has gone on from (`Inquiry.Sound.left_behind`).
-/

namespace SchemaLint

/-- A class that was asked for, and the source that was given. -/
structure SourceRequest where
  name : String
  answer : Option String
  deriving DecidableEq, Repr

/-- Notes each request with its answer. -/
def noting {σ : Type} (locate : String → StateM σ (Option String)) (name : String) :
    StateM (σ × List SourceRequest) (Option String) := do
  let (s, log) ← get
  let (answer, s) := (locate name).run s
  set (s, log ++ [⟨name, answer⟩])
  return answer

/-- The calls of a walk that asks and is answered. -/
def rounds (log : List SourceRequest) : List WalkCall :=
  log.flatMap fun request => [.next, .supply request.answer]

namespace Inquiry

open AncestorWalk

/-- An inquiry is followed by what it is after an answer, while there are attempts left. -/
def Follows (maxAttempts : Nat) (later earlier : Inquiry) : Prop :=
  ∃ name source, earlier.request? = some name ∧ earlier.attemptsFor name ≤ maxAttempts ∧
    later = earlier.answered name source

theorem wellFounded_follows (maxAttempts : Nat) : WellFounded (Follows maxAttempts) := by
  refine (InvImage.wf (questionsLeft maxAttempts) wellFounded_lt).mono ?_
  rintro later earlier ⟨name, source, hrequest, hmax, rfl⟩
  exact questionsLeft_answered_lt hrequest hmax source

/-- The requests that an inquiry may make, and the walk that is left. -/
inductive Series (maxAttempts : Nat) : Inquiry → List SourceRequest → AncestorWalk → Prop
  | finished {q : Inquiry} (h : q.request? = none) : Series maxAttempts q [] q.walk.next
  | exhausted {q : Inquiry} {name : String} (h : q.request? = some name)
      (hmax : maxAttempts < q.attemptsFor name) : Series maxAttempts q [] q.walk.next.abort
  | asked {q : Inquiry} {name : String} {answer : Option String} {log : List SourceRequest}
      {w : AncestorWalk} (h : q.request? = some name) (hmax : q.attemptsFor name ≤ maxAttempts)
      (hrest : Series maxAttempts (q.answered name answer) log w) :
      Series maxAttempts q (⟨name, answer⟩ :: log) w

section Pursue

variable {σ : Type} (locate : String → StateM σ (Option String)) (maxAttempts : Nat)

/-- Asking gives a series of requests, each answered as the locator does in some state, and noting
them changes nothing else. -/
theorem pursue_noting (q : Inquiry) (s : σ) : ∃ log w s',
    Series maxAttempts q log w ∧
      (∀ request ∈ log, ∃ t, request.answer = ((locate request.name).run t).1) ∧
      (q.pursue locate maxAttempts).run s = (w, s') ∧
      ∀ before, (q.pursue (noting locate) maxAttempts).run (s, before) = (w, s', before ++ log) := by
  induction q using (wellFounded_follows maxAttempts).induction generalizing s with
  | _ q ih =>
    cases hrequest : q.request? with
    | none =>
      refine ⟨[], q.walk.next, s, .finished hrequest, by simp, ?_, fun before => ?_⟩
      · rw [pursue_of_not_request hrequest]
        rfl
      · rw [pursue_of_not_request hrequest, List.append_nil]
        rfl
    | some name =>
      rw [pursue_of_request hrequest, pursue_of_request hrequest]
      by_cases hmax : q.attemptsFor name ≤ maxAttempts
      · rw [if_pos hmax, if_pos hmax]
        obtain ⟨log, w, s', hseries, hanswers, hrun, hnoted⟩ :=
          ih _ ⟨name, ((locate name).run s).1, hrequest, hmax, rfl⟩ ((locate name).run s).2
        refine ⟨⟨name, ((locate name).run s).1⟩ :: log, w, s', .asked hrequest hmax hseries, ?_,
          hrun, fun before => ?_⟩
        · intro request hmem
          rcases List.mem_cons.mp hmem with rfl | hmem
          · exact ⟨s, rfl⟩
          · exact hanswers request hmem
        · rw [List.append_cons]
          exact hnoted _
      · rw [if_neg hmax, if_neg hmax]
        refine ⟨[], q.walk.next.abort, s, .exhausted hrequest (Nat.not_le.mp hmax), by simp, rfl,
          fun before => ?_⟩
        rw [List.append_nil]
        rfl

end Pursue

/-! ## Classes left behind -/

/-- An inquiry on a sound walk that has taken the class asked for last if it asks for another. -/
structure Sound (first : Option String) (maxDepth : Nat) (q : Inquiry) : Prop where
  walk : AncestorWalk.Sound first maxDepth q.walk
  left_behind : ∀ name other, q.current = some name → q.request? = some other → other ≠ name →
    name ∈ q.walk.visited

section Sound

variable {first : Option String} {maxDepth maxAttempts : Nat} {q : Inquiry} {name : String}

theorem sound_start (source : String) (maxDepth : Nat) :
    Sound (ClassSource.outline source).name maxDepth (start source maxDepth) where
  walk := AncestorWalk.sound_start source maxDepth
  left_behind _ _ hcurrent := by cases hcurrent

theorem Sound.awaiting (h : Sound first maxDepth q) (hrequest : q.request? = some name) :
    q.walk.next.state = .awaiting name ∧ name ∉ q.walk.visited ∧
      q.walk.ancestors.length < maxDepth := by
  have hstate := request?_eq_some.mp hrequest
  refine ⟨hstate, ?_, ?_⟩
  · have hnew := h.walk.next.named_new name (by rw [hstate]; rfl)
    rwa [next_visited] at hnew
  · have hroom := h.walk.next.awaiting_lt name hstate
    rwa [next_ancestors] at hroom

theorem Sound.answered (h : Sound first maxDepth q) (hrequest : q.request? = some name)
    (source : Option String) : Sound first maxDepth (q.answered name source) where
  walk := h.walk.next.supply source
  left_behind other later hcurrent hlater hne := by
    obtain rfl : name = other := Option.some.inj hcurrent
    exact (answered_walk hrequest source).mem_visited (h.awaiting hrequest).1 hlater hne

/-- Whatever is asked of a sound walk, there is room for all the questions that are left. -/
theorem Sound.questionsLeft_le (h : Sound first maxDepth q) :
    q.questionsLeft maxAttempts ≤ (maxDepth - q.walk.ancestors.length) * maxAttempts := by
  cases hrequest : q.request? with
  | none =>
    rw [questionsLeft_of_not_request hrequest]
    exact Nat.zero_le _
  | some name =>
    have hroom := (h.awaiting hrequest).2.2
    have hfirst := q.one_le_attemptsFor name
    rw [questionsLeft_of_request hrequest, h.walk.maxDepth_eq]
    have hspare : maxDepth - q.walk.ancestors.length =
        maxDepth - q.walk.ancestors.length - 1 + 1 := by omega
    rw [hspare, Nat.add_mul, Nat.add_sub_cancel]
    omega

end Sound

/-! ## Series of requests -/

/-- Between two requests for one class there are none for others. -/
def Consecutive (names : List String) : Prop :=
  ∀ before name between after, names = before ++ name :: (between ++ name :: after) →
    ∀ other ∈ between, other = name

theorem Consecutive.cons {names : List String} (h : Consecutive names) {name : String}
    (hname : ∀ between after, names = between ++ name :: after → ∀ other ∈ between, other = name) :
    Consecutive (name :: names) := by
  intro before other between after hnames
  cases before with
  | nil =>
    obtain ⟨rfl, hrest⟩ := List.cons.inj hnames
    exact hname between after hrest
  | cons _ before => exact h before other between after (List.cons.inj hnames).2

namespace Series

variable {first : Option String} {maxDepth maxAttempts : Nat} {q : Inquiry} {log : List SourceRequest}
  {w : AncestorWalk} (h : Series maxAttempts q log w)

include h in
theorem length_le : log.length ≤ q.questionsLeft maxAttempts := by
  induction h with
  | finished _ => exact Nat.zero_le _
  | exhausted _ _ => exact Nat.zero_le _
  | @asked _ _ answer _ _ hrequest hmax _ ih =>
    exact Nat.succ_le_of_lt (ih.trans_lt (questionsLeft_answered_lt hrequest hmax answer))

include h in
/-- The result is that of a walk that is asked and answered in the same way. -/
theorem finish_eq : w.finish = (q.walk.run (rounds log ++ [.next])).finish := by
  induction h with
  | finished _ => rfl
  | @exhausted q _ _ _ => exact finish_abort q.walk.next
  | asked _ _ _ ih => exact ih

include h in
/-- Each request is for the class that the walk waits for then. -/
theorem awaiting {before after : List SourceRequest} {request : SourceRequest}
    (hlog : log = before ++ request :: after) :
    (q.walk.run (rounds before ++ [.next])).state = .awaiting request.name := by
  induction h generalizing before with
  | finished _ => simp at hlog
  | exhausted _ _ => simp at hlog
  | asked hrequest _ _ ih =>
    cases before with
    | nil =>
      obtain ⟨rfl, -⟩ := List.cons.inj hlog
      exact request?_eq_some.mp hrequest
    | cons earlier before =>
      obtain ⟨rfl, hrest⟩ := List.cons.inj hlog
      exact ih hrest

include h in
/-- A class that has been taken is not asked for. -/
theorem not_mem_visited (hsound : Sound first maxDepth q) :
    ∀ name ∈ log.map (·.name), name ∉ q.walk.visited := by
  induction h with
  | finished _ => simp
  | exhausted _ _ => simp
  | @asked q asked answer _ _ hrequest _ _ ih =>
    intro name hmem
    rw [List.map_cons] at hmem
    rcases List.mem_cons.mp hmem with rfl | hmem
    · exact (hsound.awaiting hrequest).2.1
    · have hlater := ih (hsound.answered hrequest answer) name hmem
      have hkept := (answered_walk hrequest answer).visited_subset
      rw [next_visited] at hkept
      exact fun hvisited => hlater (hkept hvisited)

include h in
/-- A class that is left behind is not asked for again. -/
theorem not_mem_of_left_behind (hsound : Sound first maxDepth q) {name other : String}
    (hcurrent : q.current = some name) (hrequest : q.request? = some other) (hne : other ≠ name) :
    name ∉ log.map (·.name) :=
  fun hmem => h.not_mem_visited hsound name hmem
    (hsound.left_behind name other hcurrent hrequest hne)

include h in
theorem count_le (hsound : Sound first maxDepth q) (name : String) :
    (log.map (·.name)).count name ≤ maxAttempts + 1 - q.attemptsFor name := by
  induction h with
  | finished _ => exact Nat.zero_le _
  | exhausted _ _ => exact Nat.zero_le _
  | @asked q asked answer log w hrequest hmax hrest ih =>
    have hlater := ih (hsound.answered hrequest answer)
    by_cases hname : asked = name
    · subst hname
      rw [attemptsFor_answered_self] at hlater
      rw [List.map_cons, List.count_cons_self]
      omega
    · by_cases hcurrent : q.current = some name
      · -- The attempts for the class are used up in part, but it is left behind now.
        have hnot := (Series.asked hrequest hmax hrest).not_mem_of_left_behind hsound hcurrent
          hrequest hname
        rw [List.count_eq_zero_of_not_mem hnot]
        exact Nat.zero_le _
      · rw [attemptsFor_answered_of_ne answer (Ne.symm hname)] at hlater
        rw [List.map_cons, List.count_cons_of_ne hname, attemptsFor, if_neg hcurrent]
        exact hlater

include h in
/-- A class that is still waited for in the end has been asked for as often as possible. -/
theorem count_eq (hsound : Sound first maxDepth q) {name : String}
    (hstate : (q.walk.run (rounds log ++ [.next])).state = .awaiting name) :
    (log.map (·.name)).count name = maxAttempts + 1 - q.attemptsFor name := by
  induction h with
  | @finished q hnone =>
    have hrequest : q.request? = some name := request?_eq_some.mpr hstate
    rw [hnone] at hrequest
    cases hrequest
  | @exhausted q other hrequest hmax =>
    have hname : q.request? = some name := request?_eq_some.mpr hstate
    obtain rfl : other = name := Option.some.inj (hrequest.symm.trans hname)
    rw [List.map_nil, List.count_nil]
    omega
  | @asked q asked answer log w hrequest hmax hrest ih =>
    have hlater := ih (hsound.answered hrequest answer) hstate
    by_cases hname : asked = name
    · subst hname
      rw [attemptsFor_answered_self] at hlater
      rw [List.map_cons, List.count_cons_self]
      omega
    · rw [attemptsFor_answered_of_ne answer (Ne.symm hname)] at hlater
      rw [List.map_cons, List.count_cons_of_ne hname, hlater]
      by_cases hcurrent : q.current = some name
      · -- The class is left behind, so it is not asked for later, and there are no attempts at all.
        have hnot := (Series.asked hrequest hmax hrest).not_mem_of_left_behind hsound hcurrent
          hrequest hname
        have hzero := List.count_eq_zero_of_not_mem hnot
        rw [List.map_cons, List.count_cons_of_ne hname, hlater] at hzero
        have hfirst := q.one_le_attemptsFor asked
        omega
      · rw [attemptsFor, if_neg hcurrent]

include h in
/-- Before a further request for the class that was asked for last there are none for others. -/
theorem leading (hsound : Sound first maxDepth q) {name : String} (hcurrent : q.current = some name)
    {between after : List String} (hnames : log.map (·.name) = between ++ name :: after) :
    ∀ other ∈ between, other = name := by
  induction h generalizing between with
  | finished _ => simp at hnames
  | exhausted _ _ => simp at hnames
  | @asked q asked answer log w hrequest hmax hrest ih =>
    by_cases hname : asked = name
    · cases between with
      | nil => simp
      | cons other between =>
        obtain ⟨hother, hrest⟩ := List.cons.inj hnames
        have hlater := ih (hsound.answered hrequest answer) (congrArg some hname) hrest
        exact List.forall_mem_cons.mpr ⟨hother.symm.trans hname, hlater⟩
    · have hnot := (Series.asked hrequest hmax hrest).not_mem_of_left_behind hsound hcurrent
        hrequest hname
      rw [hnames] at hnot
      exact absurd (List.mem_append_right between List.mem_cons_self) hnot

include h in
theorem consecutive (hsound : Sound first maxDepth q) : Consecutive (log.map (·.name)) := by
  induction h with
  | finished _ => simp [Consecutive]
  | exhausted _ _ => simp [Consecutive]
  | @asked _ asked answer _ _ hrequest _ hrest ih =>
    have hlater := hsound.answered hrequest answer
    exact (ih hlater).cons fun _ _ hnames => hrest.leading hlater rfl hnames

end Series

end Inquiry

/-! ## The requests made -/

/-- The requests that are made to complete the fields of a class, in order. -/
def requests {σ : Type} (locate : String → StateM σ (Option String)) (source : String)
    (maxDepth maxAttempts : Nat) (s : σ) : List SourceRequest :=
  ((AncestorWalk.resolve (noting locate) source maxDepth maxAttempts).run (s, [])).2.2

namespace AncestorWalk

theorem run_resolve_of_pursue {σ : Type} {locate : String → StateM σ (Option String)}
    {source : String} {maxDepth maxAttempts : Nat} {s s' : σ} {w : AncestorWalk}
    (h : ((Inquiry.start source maxDepth).pursue locate maxAttempts).run s = (w, s')) :
    (resolve locate source maxDepth maxAttempts).run s = (w.finish, s') := by
  unfold resolve
  rw [StateT.run_bind, h]
  rfl

/-- What is made of the series of requests that are made. -/
theorem series_requests {σ : Type} (locate : String → StateM σ (Option String)) (source : String)
    (maxDepth maxAttempts : Nat) (s : σ) :
    let log := requests locate source maxDepth maxAttempts s
    ∃ w s', Inquiry.Series maxAttempts (.start source maxDepth) log w ∧
      (∀ request ∈ log, ∃ t, request.answer = ((locate request.name).run t).1) ∧
      (resolve locate source maxDepth maxAttempts).run s = (w.finish, s') ∧
      (resolve (noting locate) source maxDepth maxAttempts).run (s, []) = (w.finish, s', log) := by
  obtain ⟨log, w, s', hseries, hanswers, hrun, hnoted⟩ :=
    Inquiry.pursue_noting locate maxAttempts (.start source maxDepth) s
  have hresolve := run_resolve_of_pursue (hnoted [])
  have hlog : requests locate source maxDepth maxAttempts s = log := by
    rw [requests, hresolve]
    rfl
  rw [hlog]
  exact ⟨w, s', hseries, hanswers, run_resolve_of_pursue hrun, hresolve⟩

/-- Whatever the locator does, an inquiry comes to its end, and the result is that of a walk that is
asked and answered alike. The locator is called at most as often as there are attempts for all
ancestors allowed, for one class at most as often as there are attempts and in a row, just as often
if the class is given up, and neither for the first class nor for an ancestor that has been taken by
then. -/
theorem resolve_requests_bounded {σ : Type} (locate : String → StateM σ (Option String))
    (source : String) (maxDepth maxAttempts : Nat) (s : σ) :
    let log : List SourceRequest := requests locate source maxDepth maxAttempts s
    let r := (resolve locate source maxDepth maxAttempts).run s
    let first := (ClassSource.outline source).name
    WellFounded (Inquiry.Follows maxAttempts) ∧
      (resolve (noting locate) source maxDepth maxAttempts).run (s, []) = (r.1, r.2, log) ∧
      r.1 = ((start source maxDepth).run (rounds log ++ [.next])).finish ∧
      log.length ≤ maxDepth * maxAttempts ∧
      (∀ name, (log.map (·.name)).count name ≤ maxAttempts) ∧
      (∀ name, ((start source maxDepth).run (rounds log ++ [.next])).state = .awaiting name →
        (log.map (·.name)).count name = maxAttempts) ∧
      Inquiry.Consecutive (log.map (·.name)) ∧
      ∀ before request after, log = before ++ request :: after →
        first ≠ some request.name ∧
          request.name ∉ ((start source maxDepth).run (rounds before)).ancestors := by
  intro log r first
  obtain ⟨w, s', hseries, -, hresolve, hnoted⟩ :=
    series_requests locate source maxDepth maxAttempts s
  have hsound := Inquiry.sound_start source maxDepth
  have hresult : r = (w.finish, s') := hresolve
  have hfirst : ∀ name, (Inquiry.start source maxDepth).attemptsFor name = 1 := fun _ => if_neg nofun
  refine ⟨Inquiry.wellFounded_follows maxAttempts, ?_, ?_, ?_, fun name => ?_, fun name hstate => ?_,
    hseries.consecutive hsound, fun before request after hlog => ?_⟩
  · rw [hnoted, hresult]
  · rw [hresult]
    exact hseries.finish_eq
  · have hroom : (start source maxDepth).ancestors.length = 0 := by
      unfold start
      rw [(absorbed_absorb _ _).ancestors_eq, List.length_nil]
    calc log.length
      _ ≤ (Inquiry.start source maxDepth).questionsLeft maxAttempts := hseries.length_le
      _ ≤ (maxDepth - (start source maxDepth).ancestors.length) * maxAttempts :=
        hsound.questionsLeft_le
      _ = maxDepth * maxAttempts := by rw [hroom, Nat.sub_zero]
  · have hcount := hseries.count_le hsound name
    rwa [hfirst, Nat.add_sub_cancel] at hcount
  · have hcount := hseries.count_eq hsound hstate
    rwa [hfirst, Nat.add_sub_cancel] at hcount
  · have hstate := hseries.awaiting hlog
    change ((start source maxDepth).run (rounds before ++ [.next])).state = _ at hstate
    have hwalk := (sound_start source maxDepth).run (rounds before ++ [.next])
    have hnew := hwalk.named_new request.name (by rw [hstate]; rfl)
    rw [hwalk.chain.mem_visited, run_append] at hnew
    have hancestors := ((start source maxDepth).run (rounds before)).next_ancestors
    exact ⟨fun hfirst => hnew (.inl hfirst), fun hmem => hnew (.inr (hancestors ▸ hmem))⟩

/-- A locator that gives one ancestor and then the same wrong source for ever. -/
theorem resolve_requests_bounded_wrong :
    let locate : String → StateM Bool (Option String) := fun name => modifyGet fun asked =>
      (if asked then some "class D \x7b \x7d"
        else some ("class " ++ name ++ " extends C \x7b \x7d"), true)
    let source := "class A extends B \x7b private int a; \x7d"
    let log := requests locate source 2 3 false
    log.map (·.name) = ["B", "C", "C", "C"] ∧ log.length ≤ 2 * 3 ∧
      (log.map (·.name)).count "C" = 3 ∧
      "C" ∉ ((start source 2).run (rounds (log.take 1))).ancestors := by
  intro locate source log
  have hlog : log = log.take 1 ++ ⟨"C", some "class D \x7b \x7d"⟩ :: log.drop 2 := by
    decide +kernel
  have hstate : ((start source 2).run (rounds log ++ [.next])).state = .awaiting "C" := by
    decide +kernel
  obtain ⟨-, -, -, hlength, -, hspent, -, htaken⟩ :=
    resolve_requests_bounded locate source 2 3 false
  exact ⟨by decide +kernel, hlength, hspent "C" hstate, (htaken _ _ _ hlog).2⟩

end AncestorWalk

end SchemaLint
