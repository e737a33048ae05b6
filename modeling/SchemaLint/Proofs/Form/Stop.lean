import SchemaLint.Proofs.Form
import SchemaLint.Proofs.Text

/-!
# Forms that stop at a character

A form stops at a character (`StopsAt`) when it never reads past it: whatever text follows the
character, the ways of the form are the same, and what they leave ends in that text. Forms that are put
together from forms that stop stop as well. For a repetition this needs that its form reads something
each time (`Reads`), as the number of times it may be read is bounded by the length of the whole text
(`upTo_eq_star`).

A form that ends with a character that none of its other parts reads ends at it (`EndsAt`): in front of the
first such character its ways differ in what was read, and not in what is left.

Where a form does not fit up to some place of a text, it is looked for from that place on
(`findAll_append`). Whether it fits up to there may depend on the character at the place, if a form needs
one to end at, but not on more of the text (`FitsAlike`).
-/

namespace SchemaLint.Form

variable {α β : Type}

/-! ## Repetitions -/

/-- A form that reads something in each of its ways. -/
def Reads (f : Form (List Char)) : Prop :=
  ∀ s, ∀ w ∈ f s, w.2.length < s.length

theorem reads_char (p : Char → Bool) : Reads (char p) := by
  rintro s ⟨x, r⟩ hw
  obtain ⟨d, -, -, rfl⟩ := mem_char.mp hw
  exact Nat.lt_succ_self _

theorem Keeps.length_le {f : Form (List Char)} (hf : f.Keeps) {s x r : List Char}
    (h : (x, r) ∈ f s) : r.length ≤ s.length := by
  rw [hf s x r h, List.length_append]
  exact Nat.le_add_left _ _

theorem Reads.append {f g : Form (List Char)} (hf : Reads f) (hg : g.Keeps) : Reads (f ++ g) := by
  rintro s ⟨z, r⟩ hw
  obtain ⟨x, y, t, hx, hy, -⟩ := mem_append.mp hw
  have hlt := hf s (x, t) hx
  exact Nat.lt_of_le_of_lt (hg.length_le hy) hlt

theorem Keeps.reads_append {f g : Form (List Char)} (hf : f.Keeps) (hg : Reads g) :
    Reads (f ++ g) := by
  rintro s ⟨z, r⟩ hw
  obtain ⟨x, y, t, hx, hy, -⟩ := mem_append.mp hw
  have hlt := hg t (y, r) hy
  exact Nat.lt_of_lt_of_le hlt (hf.length_le hx)

theorem upTo_succ (f : Form (List Char)) (n : Nat) (s : List Char) :
    upTo f (n + 1) s = (f s).flatMap (fun w => (upTo f n w.2).map fun v => (w.1 ++ v.1, v.2)) ++ [([], s)] :=
  rfl

section Star

variable {f : Form (List Char)} (hf : Reads f)

include hf

theorem Reads.eq_nil : f [] = [] :=
  List.eq_nil_iff_forall_not_mem.mpr fun w hw => absurd (hf [] w hw) (Nat.not_lt_zero _)

/-- A bound above the length of the text bounds nothing. -/
theorem upTo_eq_of_length_le {n m : Nat} {s : List Char} (hn : s.length ≤ n) (hm : s.length ≤ m) :
    upTo f n s = upTo f m s := by
  induction n generalizing m s with
  | zero =>
    obtain rfl : s = [] := List.eq_nil_of_length_eq_zero (Nat.le_zero.mp hn)
    cases m with
    | zero => rfl
    | succ m => rw [upTo_succ, hf.eq_nil, List.flatMap_nil]; rfl
  | succ n ih =>
    cases m with
    | zero =>
      obtain rfl : s = [] := List.eq_nil_of_length_eq_zero (Nat.le_zero.mp hm)
      rw [upTo_succ, hf.eq_nil, List.flatMap_nil]
      rfl
    | succ m =>
      rw [upTo_succ, upTo_succ]
      refine congrArg (· ++ [([], s)]) (List.flatMap_congr fun w hw => ?_)
      have hlt := hf s w hw
      rw [ih (m := m) (by omega) (by omega)]

/-- A repetition reads its form once and is repeated, or reads nothing. -/
theorem star_eq (s : List Char) :
    star f s = (f s).flatMap (fun w => (star f w.2).map fun v => (w.1 ++ v.1, v.2)) ++ [([], s)] := by
  rw [star, upTo_eq_of_length_le hf (Nat.le_refl _) (Nat.le_succ _), upTo_succ]
  refine congrArg (· ++ [([], s)]) (List.flatMap_congr fun w hw => ?_)
  rw [star, upTo_eq_of_length_le hf (Nat.le_of_lt (hf s w hw)) (Nat.le_refl _)]

end Star

/-! ## Stopping -/

/-- The ways of a form in front of a character do not depend on what follows it. -/
def StopsAt (c : Char) (f : Form α) : Prop :=
  ∀ x, ∃ ways : List (α × List Char), ∀ t, f (x ++ c :: t) = ways.map fun w => (w.1, w.2 ++ c :: t)

section StopsAt

variable {c : Char} {p : Char → Bool}

theorem exists_ways_flatMap (ways : List (α × List Char))
    {g : List Char → α × List Char → List (β × List Char)}
    (h : ∀ w ∈ ways, ∃ later : List (β × List Char),
      ∀ t, g t w = later.map fun v => (v.1, v.2 ++ c :: t)) :
    ∃ later : List (β × List Char), ∀ t, ways.flatMap (g t) = later.map fun v => (v.1, v.2 ++ c :: t) := by
  induction ways with
  | nil => exact ⟨[], fun t => rfl⟩
  | cons w ways ih =>
    obtain ⟨first, hfirst⟩ := h w List.mem_cons_self
    obtain ⟨later, hlater⟩ := ih fun v hv => h v (List.mem_cons_of_mem w hv)
    exact ⟨first ++ later, fun t => by rw [List.flatMap_cons, hfirst, hlater, List.map_append]⟩

theorem stopsAt_pure (a : α) : StopsAt c (pure a) :=
  fun x => ⟨[(a, x)], fun _ => rfl⟩

theorem StopsAt.bind {f : Form α} {g : α → Form β} (hf : StopsAt c f) (hg : ∀ a, StopsAt c (g a)) :
    StopsAt c (f >>= g) := by
  intro x
  obtain ⟨ways, hways⟩ := hf x
  have hlater := exists_ways_flatMap (c := c) ways
    (g := fun t w => g w.1 (w.2 ++ c :: t)) fun w _ => hg w.1 w.2
  obtain ⟨later, hlater⟩ := hlater
  refine ⟨later, fun t => ?_⟩
  rw [bind_apply, hways, List.flatMap_map, ← hlater]

theorem StopsAt.append {f g : Form (List Char)} (hf : StopsAt c f) (hg : StopsAt c g) :
    StopsAt c (f ++ g) := by
  intro x
  obtain ⟨ways, hways⟩ := hf x
  have hlater := exists_ways_flatMap (c := c) ways
    (g := fun t w => (g (w.2 ++ c :: t)).map fun v => (w.1 ++ v.1, v.2)) fun w _ => by
      obtain ⟨later, hlater⟩ := hg w.2
      refine ⟨later.map fun v => (w.1 ++ v.1, v.2), fun t => ?_⟩
      rw [hlater, List.map_map, List.map_map]
      rfl
  obtain ⟨later, hlater⟩ := hlater
  refine ⟨later, fun t => ?_⟩
  rw [append_apply, hways, List.flatMap_map, ← hlater]

theorem stopsAt_oneOf {fs : List (Form α)} (h : ∀ f ∈ fs, StopsAt c f) : StopsAt c (oneOf fs) := by
  intro x
  induction fs with
  | nil => exact ⟨[], fun t => rfl⟩
  | cons f fs ih =>
    obtain ⟨first, hfirst⟩ := h f List.mem_cons_self x
    obtain ⟨later, hlater⟩ := ih fun g hg => h g (List.mem_cons_of_mem f hg)
    refine ⟨first ++ later, fun t => ?_⟩
    rw [List.map_append, ← hfirst, ← hlater]
    rfl

theorem StopsAt.opt {f : Form (List Char)} (hf : StopsAt c f) : StopsAt c (opt f) := by
  intro x
  obtain ⟨ways, hways⟩ := hf x
  refine ⟨ways ++ [([], x)], fun t => ?_⟩
  rw [Form.opt, hways, List.map_append]
  rfl

section Test

variable (hc : p c = false)

include hc

theorem stopsAt_char : StopsAt c (char p) := by
  intro x
  cases x with
  | nil => exact ⟨[], fun t => by rw [List.nil_append, char, hc]; rfl⟩
  | cons d x =>
    by_cases hd : p d = true
    · exact ⟨[([d], x)], fun t => by rw [List.cons_append, char, if_pos hd]; rfl⟩
    · exact ⟨[], fun t => by rw [List.cons_append, char, if_neg hd]; rfl⟩

theorem stopsAt_run : StopsAt c (run p) := by
  intro x
  induction x with
  | nil => exact ⟨[([], [])], fun t => by rw [List.nil_append, run, hc]; rfl⟩
  | cons d x ih =>
    obtain ⟨ways, hways⟩ := ih
    by_cases hd : p d = true
    · refine ⟨(ways.map fun w => (d :: w.1, w.2)) ++ [([], d :: x)], fun t => ?_⟩
      rw [List.cons_append, run, if_pos hd, hways, List.map_append, List.map_map, List.map_map]
      rfl
    · exact ⟨[([], d :: x)], fun t => by rw [List.cons_append, run, if_neg hd]; rfl⟩

theorem stopsAt_span : StopsAt c (span p) := by
  intro x
  refine ⟨[(x.takeWhile p, x.dropWhile p)], fun t => ?_⟩
  induction x with
  | nil => simp [span, hc]
  | cons d x ih =>
    by_cases hd : p d = true
    · simpa [span, hd] using ih
    · simp [span, hd]

end Test

theorem stopsAt_folded {w : List Char} (h : ∀ l ∈ w, Unicode.sameFold l c = false) :
    StopsAt c (folded w) := by
  induction w with
  | nil => exact stopsAt_pure []
  | cons l w ih =>
    exact (stopsAt_char (h l List.mem_cons_self)).append
      (ih fun m hm => h m (List.mem_cons_of_mem l hm))

theorem stopsAt_exact {w : List Char} (h : c ∉ w) : StopsAt c (exact w) := by
  induction w with
  | nil => exact stopsAt_pure []
  | cons l w ih =>
    have hl : c ≠ l := List.ne_of_not_mem_cons h
    exact (stopsAt_char (p := (· == l)) (beq_false_of_ne hl)).append (ih (List.not_mem_of_not_mem_cons h))

theorem StopsAt.star {f : Form (List Char)} (hf : StopsAt c f) (hreads : Reads f) :
    StopsAt c (star f) := by
  intro x
  induction hn : x.length using Nat.strongRecOn generalizing x with
  | ind n ih =>
    obtain ⟨ways, hways⟩ := hf x
    have hlater := exists_ways_flatMap (c := c) ways
      (g := fun t w => (Form.star f (w.2 ++ c :: t)).map fun v => (w.1 ++ v.1, v.2)) fun w hw => by
        have hlt := hreads (x ++ c :: []) (w.1, w.2 ++ c :: []) (by
          rw [hways]
          exact List.mem_map_of_mem hw)
        obtain ⟨later, hlater⟩ := ih w.2.length (by simpa [← hn] using hlt) w.2 rfl
        refine ⟨later.map fun v => (w.1 ++ v.1, v.2), fun t => ?_⟩
        rw [hlater, List.map_map, List.map_map]
        rfl
    obtain ⟨later, hlater⟩ := hlater
    refine ⟨later ++ [([], x)], fun t => ?_⟩
    rw [star_eq hreads, hways, List.flatMap_map, List.map_append, ← hlater]
    rfl

/-! ## Ending -/

/-- The ways of a form in front of a character are to read up to it and the character itself. -/
def EndsAt (c : Char) (f : Form α) : Prop :=
  ∀ x, c ∉ x → ∃ as : List α, ∀ t, f (x ++ c :: t) = as.map fun a => (a, t)

theorem endsAt_exact : EndsAt c (exact [c]) := by
  intro x hx
  cases x with
  | nil => exact ⟨[[c]], fun t => by simp [exact, append_apply, char, Form.pure]⟩
  | cons d x =>
    have hd : d ≠ c := (List.ne_of_not_mem_cons hx).symm
    exact ⟨[], fun t => append_eq_nil _ (char_eq_nil (by simpa using hd))⟩

/-- What is left in front of the character by a form that stops is a part of the text. -/
theorem StopsAt.exists_ways {f : Form (List Char)} (hf : StopsAt c f) (hk : f.Keeps) {x : List Char} (hx : c ∉ x) :
    ∃ ways : List (List Char × List Char), (∀ w ∈ ways, c ∉ w.2) ∧
      ∀ t, f (x ++ c :: t) = ways.map fun w => (w.1, w.2 ++ c :: t) := by
  obtain ⟨ways, hways⟩ := hf x
  refine ⟨ways, fun w hw hmem => hx ?_, hways⟩
  have hread : (w.1, w.2 ++ c :: []) ∈ f (x ++ c :: []) := by
    rw [hways]
    exact List.mem_map_of_mem hw
  have hsplit := hk _ _ _ hread
  rw [← List.append_assoc] at hsplit
  rw [List.append_cancel_right hsplit]
  exact List.mem_append_right w.1 hmem

theorem exists_map_flatMap {γ : Type} (ways : List γ) {g : List Char → γ → List (β × List Char)}
    (h : ∀ w ∈ ways, ∃ bs : List β, ∀ t, g t w = bs.map fun b => (b, t)) :
    ∃ bs : List β, ∀ t, ways.flatMap (g t) = bs.map fun b => (b, t) := by
  induction ways with
  | nil => exact ⟨[], fun t => rfl⟩
  | cons w ways ih =>
    obtain ⟨first, hfirst⟩ := h w List.mem_cons_self
    obtain ⟨later, hlater⟩ := ih fun v hv => h v (List.mem_cons_of_mem w hv)
    exact ⟨first ++ later, fun t => by rw [List.flatMap_cons, hfirst, hlater, List.map_append]⟩

theorem StopsAt.endsAt_bind {f : Form (List Char)} {g : List Char → Form β} (hf : StopsAt c f) (hk : f.Keeps)
    (hg : ∀ a, EndsAt c (g a)) : EndsAt c (f >>= g) := by
  intro x hx
  obtain ⟨ways, hfree, hways⟩ := hf.exists_ways hk hx
  obtain ⟨bs, hbs⟩ := exists_map_flatMap ways (g := fun t w => g w.1 (w.2 ++ c :: t)) fun w hw =>
    hg w.1 w.2 (hfree w hw)
  refine ⟨bs, fun t => ?_⟩
  rw [bind_apply, hways, List.flatMap_map, ← hbs]

theorem StopsAt.endsAt_append {f g : Form (List Char)} (hf : StopsAt c f) (hk : f.Keeps) (hg : EndsAt c g) :
    EndsAt c (f ++ g) := by
  intro x hx
  obtain ⟨ways, hfree, hways⟩ := hf.exists_ways hk hx
  have hlater := exists_map_flatMap ways
    (g := fun t w => (g (w.2 ++ c :: t)).map fun v => (w.1 ++ v.1, v.2)) fun w hw => by
      obtain ⟨later, hlater⟩ := hg w.2 (hfree w hw)
      refine ⟨later.map (w.1 ++ ·), fun t => ?_⟩
      rw [hlater, List.map_map, List.map_map]
      rfl
  obtain ⟨bs, hbs⟩ := hlater
  refine ⟨bs, fun t => ?_⟩
  rw [append_apply, hways, List.flatMap_map, ← hbs]

theorem EndsAt.bind_pure {f : Form α} (hf : EndsAt c f) (h : α → β) : EndsAt c (f >>= fun a => pure (h a)) := by
  intro x hx
  obtain ⟨as, has⟩ := hf x hx
  refine ⟨as.map h, fun t => ?_⟩
  rw [bind_apply, has, List.flatMap_map, List.map_map]
  exact List.flatMap_pure_eq_map _ _

end StopsAt

/-! ## Where forms fit -/

section Fit

variable {c : Char} {s r : List Char}

theorem Only.exact (cs r : List Char) : Only (exact cs) (cs ++ r) cs r := by
  induction cs with
  | nil => exact rfl
  | cons c cs ih => exact (Only.char (beq_self_eq_true c)).append ih

theorem exact_eq_nil {d : Char} {cs : List Char} (h : ∀ c ∈ s.head?, c ≠ d) :
    exact (d :: cs) s = [] :=
  append_eq_nil _ (char_eq_nil fun c hc => beq_eq_false_iff_ne.mpr (h c hc))

theorem span1_eq_nil_iff {p : Char → Bool} : span1 p s = [] ↔ ∀ c ∈ s.head?, p c = false := by
  cases s with
  | nil => exact iff_of_true rfl (by simp)
  | cons c s =>
    by_cases hc : p c = true
    · have hread : Only (span1 p) (c :: s) _ _ := (Only.char (s := s) hc).append rfl
      rw [show span1 p (c :: s) = _ from hread]
      simp [hc]
    · exact iff_of_true (append_eq_nil _ (char_eq_nil (by simpa using hc))) (by simpa using hc)

theorem bind_eq_nil_iff {f : Form α} {g : α → Form β} :
    (f >>= g) s = [] ↔ ∀ w ∈ f s, g w.1 w.2 = [] :=
  List.flatMap_eq_nil_iff

theorem append_eq_nil_iff {f g : Form (List Char)} : (f ++ g) s = [] ↔ ∀ w ∈ f s, g w.2 = [] := by
  rw [append_apply, List.flatMap_eq_nil_iff]
  simp only [List.map_eq_nil_iff]

theorem Prefers.ne_nil {f : Form α} {a : α} (h : Prefers f s a r) : f s ≠ [] := by
  obtain ⟨ways, hways⟩ := h.exists_cons
  rw [hways]
  exact List.cons_ne_nil _ _

/-- Whether a form fits in front of a character does not depend on what follows the character. -/
def FitsAlike (c : Char) (f : Form α) : Prop :=
  ∀ x t, f (x ++ c :: t) = [] ↔ f (x ++ [c]) = []

theorem fitsAlike_span1 (p : Char → Bool) : FitsAlike c (span1 p) := by
  intro x t
  have hhead : (x ++ c :: t).head? = (x ++ [c]).head? := by cases x <;> rfl
  rw [span1_eq_nil_iff, span1_eq_nil_iff, hhead]

/-- A form that fits alike may follow one that stops at the character. -/
theorem StopsAt.fitsAlike_append {f g : Form (List Char)} (hf : StopsAt c f) (hg : FitsAlike c g) :
    FitsAlike c (f ++ g) := by
  intro x t
  obtain ⟨ways, hways⟩ := hf x
  rw [append_eq_nil_iff, append_eq_nil_iff, hways, hways, List.forall_mem_map, List.forall_mem_map]
  exact forall₂_congr fun w _ => hg w.2 t

/-! ## Finding -/

section Find

variable {f : Option Char → Form α} {before : Option Char}

/-- A form that does not fit up to a character is looked for from there on. -/
theorem findAll_append {pre : List Char}
    (hf : ∀ before x, x ≠ [] → f before (x ++ [c]) = [] → f before (x ++ s) = [])
    (h : findAll f 0 before (pre ++ [c]) = []) :
    findAll f 0 before (pre ++ s) = findAll f 0 (pre.getLast?.or before) s := by
  induction pre generalizing before with
  | nil => rfl
  | cons d pre ih =>
    rw [List.cons_append, findAll] at h
    split at h
    · cases h
    · next hnone =>
      have hhere : f before (d :: pre ++ s) = [] :=
        hf before (d :: pre) (List.cons_ne_nil d pre) (List.head?_eq_none_iff.mp hnone)
      rw [Text.getLast?_cons_or, ← ih h, List.cons_append, findAll, ← List.cons_append, hhere]
      rfl

theorem head?_findAll {a : α} (h : Prefers (f before) (c :: s) a r) :
    (findAll f 0 before (c :: s)).head? = some a := by
  rw [findAll, show (f before (c :: s)).head? = some (a, r) from h]
  rfl

end Find

end Fit

end SchemaLint.Form
