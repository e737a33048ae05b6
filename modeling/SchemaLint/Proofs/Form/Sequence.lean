import SchemaLint.Proofs.Form.Stop

/-!
# Forms in sequence

What a form reads is made of characters that pass a test if this holds of its parts (`Over`), and a
repetition reads a list of what its form reads (`exists_of_mem_star`). The preferred way of a repetition reads its
form as long as it fits (`Prefers.star_cons`), and a run in front of a closing character goes on to the last
one of these that it can reach (`prefers_run_exact`). In a text in which forms are looked for, those that
stand there are found one after another (`findAll_of_prefers`), and what stands between them is passed over
(`findAll_of_quiet`).
-/

namespace SchemaLint.Form

variable {α β : Type} {f g : Form (List Char)} {p : Char → Bool} {s r t x y : List Char}

/-! ## What is read -/

theorem mem_span (h : (x, r) ∈ span p s) : s = x ++ r ∧ ∀ c ∈ x, p c = true := by
  refine ⟨keeps_span p s x r h, ?_⟩
  obtain ⟨rfl, -⟩ := Prod.mk.inj (List.mem_singleton.mp h)
  exact fun c hc => List.mem_takeWhile_imp hc

theorem mem_span1 (h : (x, r) ∈ span1 p s) : s = x ++ r ∧ x ≠ [] ∧ ∀ c ∈ x, p c = true := by
  obtain ⟨y, z, t, hy, hz, rfl⟩ := mem_append.mp h
  obtain ⟨c, hc, rfl, rfl⟩ := mem_char.mp hy
  obtain ⟨rfl, hall⟩ := mem_span hz
  refine ⟨rfl, by simp, ?_⟩
  simpa [hc] using hall

theorem mem_opt (h : (x, r) ∈ opt f s) : (x, r) ∈ f s ∨ x = [] ∧ r = s := by
  rcases List.mem_append.mp h with h | h
  · exact .inl h
  · exact .inr (Prod.mk.inj (List.mem_singleton.mp h))

/-- A repetition reads a list of what its form reads. -/
theorem exists_of_mem_star {text : α → List Char} (hf : ∀ s x r, (x, r) ∈ f s → ∃ a, x = text a)
    (h : (x, r) ∈ star f s) : ∃ as : List α, x = as.flatMap text := by
  unfold star at h
  generalize s.length = n at h
  induction n generalizing s x with
  | zero =>
    obtain ⟨rfl, -⟩ := Prod.mk.inj (List.mem_singleton.mp h)
    exact ⟨[], rfl⟩
  | succ n ih =>
    rcases mem_opt (f := f ++ upTo f n) h with h | ⟨rfl, -⟩
    · obtain ⟨y, z, t, hy, hz, rfl⟩ := mem_append.mp h
      obtain ⟨a, rfl⟩ := hf s y t hy
      obtain ⟨as, rfl⟩ := ih hz
      exact ⟨a :: as, rfl⟩
    · exact ⟨[], rfl⟩

/-! ## Forms that read characters of a kind -/

/-- In each of its ways a form reads only characters that pass a test. -/
def Over (p : Char → Bool) (f : Form (List Char)) : Prop :=
  ∀ s x r, (x, r) ∈ f s → ∀ c ∈ x, p c = true

section Over

theorem Over.append (hf : Over p f) (hg : Over p g) : Over p (f ++ g) := by
  intro s z r h c hc
  obtain ⟨x, y, t, hx, hy, rfl⟩ := mem_append.mp h
  rcases List.mem_append.mp hc with hc | hc
  · exact hf s x t hx c hc
  · exact hg t y r hy c hc

theorem Over.opt (hf : Over p f) : Over p (opt f) := by
  intro s x r h
  rcases mem_opt h with h | ⟨rfl, -⟩
  · exact hf s x r h
  · simp

theorem Over.star (hf : Over p f) : Over p (star f) := by
  intro s x r h c hc
  have htext : ∀ s x r, (x, r) ∈ f s → ∃ a : { x : List Char // ∀ c ∈ x, p c = true }, x = a.val :=
    fun s x r h => ⟨⟨x, hf s x r h⟩, rfl⟩
  obtain ⟨as, rfl⟩ := exists_of_mem_star htext h
  obtain ⟨a, -, hc⟩ := List.mem_flatMap.mp hc
  exact a.2 c hc

theorem over_exact {cs : List Char} (h : cs.all p = true) : Over p (exact cs) := by
  intro s x r hx
  obtain ⟨rfl, -⟩ := mem_exact.mp hx
  exact List.all_eq_true.mp h

theorem over_char {q : Char → Bool} (h : ∀ c, q c = true → p c = true) : Over p (char q) := by
  intro s x r hx
  obtain ⟨c, hc, rfl, -⟩ := mem_char.mp hx
  simpa using h c hc

theorem over_run {q : Char → Bool} (h : ∀ c, q c = true → p c = true) : Over p (run q) :=
  fun _ _ _ hx c hc => h c ((mem_run hx).2 c hc)

theorem over_span {q : Char → Bool} (h : ∀ c, q c = true → p c = true) : Over p (span q) :=
  fun _ _ _ hx c hc => h c ((mem_span hx).2 c hc)

theorem keeps_span1 (p : Char → Bool) : (span1 p).Keeps :=
  (keeps_char p).append (keeps_span p)

theorem reads_span1 (p : Char → Bool) : Reads (span1 p) :=
  (reads_char p).append (keeps_span p)

end Over

/-! ## Repetitions and runs preferred -/

/-- A repetition prefers to read its form first. -/
theorem Prefers.star_cons (hreads : Reads f) (hf : Prefers f s x t) (hstar : Prefers (Form.star f) t y r) :
    Prefers (Form.star f) s (x ++ y) r := by
  have hfirst : Prefers (f ++ Form.star f) s (x ++ y) r := hf.append hstar
  rw [Prefers, star_eq hreads]
  exact hfirst.opt

/-- Of several forms the one that fits with what follows is read. -/
theorem prefers_oneOf_append {k : α → Form (List Char)} {as : List α} {a : α} (ha : a ∈ as)
    (hread : Prefers (k a ++ g) s x r) (hother : ∀ b ∈ as, b ≠ a → (k b ++ g) s = []) :
    Prefers (oneOf (as.map k) ++ g) s x r := by
  induction as with
  | nil => cases ha
  | cons b as ih =>
    have hsplit : (oneOf ((b :: as).map k) ++ g) s = (k b ++ g) s ++ (oneOf (as.map k) ++ g) s := by
      simp [append_apply, oneOf]
    by_cases hb : b = a
    · subst hb
      rw [Prefers, hsplit, List.head?_append, show ((k b ++ g) s).head? = _ from hread]
      rfl
    · have hlater : a ∈ as := (List.mem_cons.mp ha).resolve_left (Ne.symm hb)
      rw [Prefers, hsplit, hother b List.mem_cons_self hb]
      exact ih hlater fun d hd => hother d (List.mem_cons_of_mem b hd)

theorem run_append_cons {c : Char} (hc : p c = true) (h : Prefers (run p ++ g) s y r) :
    Prefers (run p ++ g) (c :: s) (c :: y) r := by
  obtain ⟨ways, hways⟩ := h.exists_cons
  have hlater : (run p (c :: s)).flatMap (fun w => (g w.2).map fun v => (w.1 ++ v.1, v.2)) =
      ((run p ++ g) s).map (fun w => (c :: w.1, w.2)) ++ (g (c :: s)).map fun v => ([] ++ v.1, v.2) := by
    rw [run, if_pos hc, List.flatMap_append, List.flatMap_singleton, append_apply, List.flatMap_map,
      List.map_flatMap]
    simp only [List.map_map, Function.comp_def, List.cons_append]
  rw [Prefers, append_apply, hlater, hways]
  rfl

/-- A run in front of a closing character goes on to the last closing character that it can reach. -/
theorem prefers_run_exact {c : Char} {u v : List Char} (hx : ∀ e ∈ x, p e = true) (hc : p c = true)
    (hu : ∀ e ∈ u, p e = true ∧ e ≠ c) (hv : ∀ e ∈ v.head?, p e = false) :
    Prefers (run p ++ exact [c]) (x ++ c :: (u ++ v)) (x ++ [c]) (u ++ v) := by
  induction x with
  | nil =>
    have hreach : (u ++ v).takeWhile p = u := by
      rw [List.takeWhile_append_of_pos fun e he => (hu e he).1]
      cases v with
      | nil => exact List.append_nil u
      | cons d v => rw [List.takeWhile_cons_of_neg (by simp [hv d rfl]), List.append_nil]
    have hnone : (run p ++ exact [c]) (u ++ v) = [] := by
      rw [append_eq_nil_iff]
      rintro ⟨y, r⟩ hy
      obtain ⟨hsplit, hall⟩ := mem_run hy
      refine exact_eq_nil fun e he => ?_
      rintro rfl
      obtain ⟨r, rfl⟩ := List.head?_eq_some_iff.mp he
      rw [hsplit, List.takeWhile_append_of_pos hall, List.takeWhile_cons_of_pos hc] at hreach
      exact (hu e (by rw [← hreach]; simp)).2 rfl
    have hclose : exact [c] (c :: (u ++ v)) = [([c], u ++ v)] := Only.exact [c] (u ++ v)
    rw [List.nil_append, Prefers, append_apply, run, if_pos hc, List.flatMap_append, List.flatMap_map,
      List.flatMap_singleton, hclose]
    rw [append_eq_nil_iff] at hnone
    rw [List.flatMap_eq_nil_iff.mpr fun w hw => by rw [hnone w hw, List.map_nil]]
    rfl
  | cons d x ih =>
    exact run_append_cons (hx d List.mem_cons_self) (ih fun e he => hx e (List.mem_cons_of_mem d he))

/-! ## Forms found -/

section Find

variable {h : Option Char → Form α} {before : Option Char}

theorem findAll_append_left (x : List Char) :
    findAll h x.length before (x ++ s) = findAll h 0 (x.getLast?.or before) s := by
  induction x generalizing before with
  | nil => rfl
  | cons c x ih =>
    rw [Text.getLast?_cons_or, ← ih]
    cases x <;> rfl

/-- A form that stands at a place is found there, and forms are looked for behind it. -/
theorem findAll_of_prefers {a : α} (hx : x ≠ []) (hread : Prefers (h before) (x ++ s) a s) :
    findAll h 0 before (x ++ s) = a :: findAll h 0 x.getLast? s := by
  obtain ⟨c, x, rfl⟩ := List.exists_cons_of_ne_nil hx
  have hlength : (x ++ s).length - s.length = x.length := by simp
  rw [List.cons_append] at hread ⊢
  rw [findAll, show (h before (c :: (x ++ s))).head? = some (a, s) from hread]
  dsimp only
  rw [hlength, findAll_append_left, List.getLast?_cons]
  cases x.getLast? <;> rfl

/-- A form that fits at no place of a text is looked for behind the text. -/
theorem findAll_of_quiet (hquiet : ∀ y z, x = y ++ z → z ≠ [] → ∀ before, h before (z ++ s) = []) :
    findAll h 0 before (x ++ s) = findAll h 0 (x.getLast?.or before) s := by
  induction x generalizing before with
  | nil => rfl
  | cons c x ih =>
    have hhere : h before (c :: (x ++ s)) = [] := hquiet [] (c :: x) rfl (List.cons_ne_nil c x) before
    have hlater := @ih (some c) fun y z hx => hquiet (c :: y) z (congrArg _ hx)
    rw [List.cons_append, findAll, hhere, Text.getLast?_cons_or]
    exact hlater

/-- Where a form ends at a character, what is found up to the character does not depend on what follows it,
and the form is looked for behind it anew. -/
theorem findAll_of_endsAt {c : Char} (hends : ∀ before, EndsAt c (h before)) (hx : c ∉ x) :
    findAll h 0 before (x ++ c :: s) = findAll h 0 before (x ++ [c]) ++ findAll h 0 (some c) s := by
  induction x generalizing before with
  | nil =>
    obtain ⟨as, has⟩ := hends before [] List.not_mem_nil
    have hhere : h before [c] = as.map fun a => (a, []) := has []
    have hthere : h before (c :: s) = as.map fun a => (a, s) := has s
    cases as with
    | nil => simp [findAll, hhere, hthere]
    | cons a as => simp [findAll, hhere, hthere]
  | cons d x ih =>
    obtain ⟨as, has⟩ := hends before (d :: x) hx
    cases as with
    | nil =>
      have hnone : ∀ t, (h before (d :: (x ++ c :: t))).head? = none := fun t => by
        rw [← List.cons_append, has t]
        rfl
      have hlater := @ih (some d) (List.not_mem_of_not_mem_cons hx)
      rw [List.cons_append, List.cons_append, findAll, findAll, hnone, hnone]
      exact hlater
    | cons a as =>
      -- What is read ends with the character, so nothing else is found up to it.
      have hread : ∀ t, Prefers (h before) ((d :: x ++ [c]) ++ t) a t := fun t => by
        rw [List.append_assoc]
        exact congrArg List.head? (has t)
      have hwhole := findAll_of_prefers (by simp) (hread s)
      have hpart := findAll_of_prefers (by simp) (hread [])
      rw [List.append_assoc, List.getLast?_concat] at hwhole
      rw [List.append_nil] at hpart
      rw [hpart]
      exact hwhole

theorem mem_findAll {skip : Nat} {a : α} (ha : a ∈ findAll h skip before s) :
    ∃ before' s' r, (a, r) ∈ h before' s' := by
  fun_induction findAll h skip before s with
  | case1 => cases ha
  | case2 skip before c s ih => exact ih ha
  | case3 before c s b r hread ih =>
    rcases List.mem_cons.mp ha with rfl | ha
    · exact ⟨before, c :: s, r, List.mem_of_head? hread⟩
    · exact ih ha
  | case4 before c s hnone ih => exact ih ha

/-- A form that fits somewhere is found. -/
theorem findAll_ne_nil (hx : s ≠ []) (hfits : h (x.getLast?.or before) s ≠ []) :
    findAll h 0 before (x ++ s) ≠ [] := by
  induction x generalizing before with
  | nil =>
    obtain ⟨c, s, rfl⟩ := List.exists_cons_of_ne_nil hx
    obtain ⟨w, ways, hways⟩ := List.exists_cons_of_ne_nil hfits
    rw [List.getLast?_nil, Option.none_or] at hways
    rw [List.nil_append, findAll, hways]
    exact List.cons_ne_nil _ _
  | cons c x ih =>
    rw [List.cons_append, findAll]
    split
    · exact List.cons_ne_nil _ _
    · refine ih ?_
      rwa [Text.getLast?_cons_or] at hfits

end Find

end SchemaLint.Form
