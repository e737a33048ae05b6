import Mathlib.Data.List.Basic
import Mathlib.Data.List.TakeWhile
import SchemaLint.Form

/-!
# What forms read

A way of a form in a text is a part of the text from its start (`mem_append`, `mem_run`, …). The
preferred way of a larger form is put together from the preferred ways of its parts (`Prefers`); a
run prefers all characters that pass its test. Where every part has one way only (`Only`) or one of
them has none, so has the whole.
-/

namespace SchemaLint.Form

/-! ## All ways -/

section Ways

variable {α β : Type} {s r : List Char}

theorem mem_pure {a b : α} : (b, r) ∈ (pure a : Form α) s ↔ b = a ∧ r = s := by
  change (b, r) ∈ [(a, s)] ↔ _
  rw [List.mem_singleton, Prod.mk.injEq]

theorem mem_bind {f : Form α} {g : α → Form β} {b : β} :
    (b, r) ∈ (f >>= g) s ↔ ∃ a t, (a, t) ∈ f s ∧ (b, r) ∈ g a t := by
  change (b, r) ∈ (f s).flatMap (fun p => g p.1 p.2) ↔ _
  rw [List.mem_flatMap, Prod.exists]

theorem mem_append {f g : Form (List Char)} {z : List Char} :
    (z, r) ∈ (f ++ g) s ↔ ∃ x y t, (x, t) ∈ f s ∧ (y, r) ∈ g t ∧ z = x ++ y := by
  change (z, r) ∈ (f s).flatMap (fun p => (g p.2).map fun q => (p.1 ++ q.1, q.2)) ↔ _
  rw [List.mem_flatMap]
  constructor
  · rintro ⟨⟨x, t⟩, hx, hz⟩
    obtain ⟨⟨y, u⟩, hy, heq⟩ := List.mem_map.mp hz
    obtain ⟨rfl, rfl⟩ := Prod.mk.inj heq
    exact ⟨x, y, t, hx, hy, rfl⟩
  · rintro ⟨x, y, t, hx, hy, rfl⟩
    exact ⟨(x, t), hx, List.mem_map.mpr ⟨(y, r), hy, rfl⟩⟩

theorem mem_oneOf {fs : List (Form α)} {a : α} : (a, r) ∈ oneOf fs s ↔ ∃ f ∈ fs, (a, r) ∈ f s :=
  List.mem_flatMap

theorem mem_char {p : Char → Bool} {x : List Char} :
    (x, r) ∈ char p s ↔ ∃ c, p c = true ∧ x = [c] ∧ s = c :: r := by
  cases s with
  | nil => simp [char]
  | cons c s =>
    rw [char]
    split
    · next h =>
      rw [List.mem_singleton, Prod.mk.injEq]
      constructor
      · rintro ⟨rfl, rfl⟩
        exact ⟨c, h, rfl, rfl⟩
      · rintro ⟨d, -, rfl, heq⟩
        obtain ⟨rfl, rfl⟩ := List.cons.inj heq
        exact ⟨rfl, rfl⟩
    · next h =>
      constructor
      · intro hmem
        cases hmem
      · rintro ⟨d, hd, -, heq⟩
        obtain ⟨rfl, rfl⟩ := List.cons.inj heq
        exact absurd hd h

theorem mem_run {p : Char → Bool} {x : List Char} (h : (x, r) ∈ run p s) :
    s = x ++ r ∧ ∀ c ∈ x, p c = true := by
  induction s generalizing x with
  | nil =>
    obtain ⟨rfl, rfl⟩ := Prod.mk.inj (List.mem_singleton.mp h)
    exact ⟨rfl, by simp⟩
  | cons c s ih =>
    rw [run] at h
    split at h
    · next hc =>
      rcases List.mem_append.mp h with h | h
      · obtain ⟨⟨y, t⟩, hy, heq⟩ := List.mem_map.mp h
        obtain ⟨rfl, rfl⟩ := Prod.mk.inj heq
        obtain ⟨hs, hall⟩ := ih hy
        refine ⟨by rw [hs, List.cons_append], ?_⟩
        simpa [hc] using hall
      · obtain ⟨rfl, rfl⟩ := Prod.mk.inj (List.mem_singleton.mp h)
        exact ⟨rfl, by simp⟩
    · obtain ⟨rfl, rfl⟩ := Prod.mk.inj (List.mem_singleton.mp h)
      exact ⟨rfl, by simp⟩

/-- A run may stop at once. -/
theorem mem_run_nil {p : Char → Bool} (s : List Char) : ([], s) ∈ run p s := by
  cases s with
  | nil => exact List.mem_singleton_self _
  | cons c s =>
    rw [run]
    split
    · exact List.mem_append_right _ (List.mem_singleton_self _)
    · exact List.mem_singleton_self _

theorem mem_run1 {p : Char → Bool} {x : List Char} (h : (x, r) ∈ run1 p s) :
    s = x ++ r ∧ x ≠ [] ∧ ∀ c ∈ x, p c = true := by
  obtain ⟨y, z, t, hy, hz, rfl⟩ := mem_append.mp h
  obtain ⟨c, hc, rfl, rfl⟩ := mem_char.mp hy
  obtain ⟨rfl, hall⟩ := mem_run hz
  refine ⟨rfl, by simp, ?_⟩
  simpa [hc] using hall

theorem mem_exact {cs x : List Char} : (x, r) ∈ exact cs s ↔ x = cs ∧ s = cs ++ r := by
  induction cs generalizing s x with
  | nil =>
    rw [exact, List.nil_append]
    change (x, r) ∈ [([], s)] ↔ _
    rw [List.mem_singleton, Prod.mk.injEq, eq_comm (a := r)]
  | cons c cs ih =>
    rw [exact, mem_append]
    constructor
    · rintro ⟨y, z, t, hy, hz, rfl⟩
      obtain ⟨d, hd, rfl, rfl⟩ := mem_char.mp hy
      obtain ⟨rfl, rfl⟩ := ih.mp hz
      obtain rfl := beq_iff_eq.mp hd
      exact ⟨rfl, rfl⟩
    · rintro ⟨rfl, rfl⟩
      exact ⟨[c], cs, cs ++ r, mem_char.mpr ⟨c, beq_self_eq_true c, rfl, rfl⟩,
        ih.mpr ⟨rfl, rfl⟩, rfl⟩

end Ways

/-! ## Forms that keep what they read -/

/-- In each of its ways a form cuts the text into what was read and what is left. -/
def Keeps (f : Form (List Char)) : Prop :=
  ∀ s x r, (x, r) ∈ f s → s = x ++ r

section Keeps

variable {f g : Form (List Char)} {p : Char → Bool}

theorem keeps_char (p : Char → Bool) : (char p).Keeps := by
  intro s x r h
  obtain ⟨c, -, rfl, rfl⟩ := mem_char.mp h
  rfl

theorem Keeps.append (hf : f.Keeps) (hg : g.Keeps) : (f ++ g).Keeps := by
  intro s z r h
  obtain ⟨x, y, t, hx, hy, rfl⟩ := mem_append.mp h
  rw [hf s x t hx, hg t y r hy, List.append_assoc]

theorem Keeps.opt (hf : f.Keeps) : (opt f).Keeps := by
  intro s x r h
  rcases List.mem_append.mp h with h | h
  · exact hf s x r h
  · obtain ⟨rfl, rfl⟩ := Prod.mk.inj (List.mem_singleton.mp h)
    rfl

theorem keeps_oneOf {fs : List (Form (List Char))} (hfs : ∀ f ∈ fs, f.Keeps) :
    (oneOf fs).Keeps := by
  intro s x r h
  obtain ⟨f, hf, hx⟩ := mem_oneOf.mp h
  exact hfs f hf s x r hx

theorem Keeps.upTo (hf : f.Keeps) (n : Nat) : (upTo f n).Keeps := by
  induction n with
  | zero =>
    intro s x r h
    obtain ⟨rfl, rfl⟩ := Prod.mk.inj (List.mem_singleton.mp h)
    rfl
  | succ n ih => exact (hf.append ih).opt

theorem Keeps.star (hf : f.Keeps) : (star f).Keeps :=
  fun s x r h => hf.upTo s.length s x r h

theorem keeps_run (p : Char → Bool) : (run p).Keeps :=
  fun _ _ _ h => (mem_run h).1

theorem keeps_span (p : Char → Bool) : (span p).Keeps := by
  intro s x r h
  obtain ⟨rfl, rfl⟩ := Prod.mk.inj (List.mem_singleton.mp h)
  exact List.takeWhile_append_dropWhile.symm

theorem keeps_fewest (p : Char → Bool) : (fewest p).Keeps := by
  intro s x r h
  induction s generalizing x with
  | nil =>
    obtain ⟨rfl, rfl⟩ := Prod.mk.inj (List.mem_singleton.mp h)
    rfl
  | cons c s ih =>
    rcases List.mem_cons.mp h with heq | h
    · obtain ⟨rfl, rfl⟩ := Prod.mk.inj heq
      rfl
    · split at h
      · obtain ⟨⟨y, t⟩, hy, heq⟩ := List.mem_map.mp h
        obtain ⟨rfl, rfl⟩ := Prod.mk.inj heq
        rw [ih y hy, List.cons_append]
      · cases h

theorem keeps_folded (cs : List Char) : (folded cs).Keeps := by
  induction cs with
  | nil =>
    intro s x r h
    obtain ⟨rfl, rfl⟩ := Prod.mk.inj (List.mem_singleton.mp h)
    rfl
  | cons c cs ih => exact (keeps_char _).append ih

theorem keeps_exact (cs : List Char) : (exact cs).Keeps := by
  intro s x r h
  obtain ⟨rfl, rfl⟩ := mem_exact.mp h
  rfl

theorem keeps_word (w : String) : (word w).Keeps :=
  keeps_folded w.toList

theorem keeps_blanks : blanks.Keeps :=
  keeps_run _

theorem keeps_blanks1 : blanks1.Keeps :=
  (keeps_char _).append (keeps_run _)

/-- What is read behind a form that keeps what it reads is read behind a part of the text. -/
theorem Keeps.mem_bind {α : Type} {k : List Char → Form α} (hf : f.Keeps) {s r : List Char} {a : α}
    (h : (a, r) ∈ (f >>= k) s) : ∃ x t, s = x ++ t ∧ (x, t) ∈ f s ∧ (a, r) ∈ k x t := by
  obtain ⟨x, t, hx, ha⟩ := Form.mem_bind.mp h
  exact ⟨x, t, hf s x t hx, hx, ha⟩

end Keeps

/-! ## The preferred way -/

/-- The preferred way of a form in a text. -/
def Prefers {α : Type} (f : Form α) (s : List Char) (a : α) (r : List Char) : Prop :=
  (f s).head? = some (a, r)

namespace Prefers

variable {α β : Type} {s r : List Char}

theorem exists_cons {f : Form α} {a : α} (h : Prefers f s a r) : ∃ ways, f s = (a, r) :: ways :=
  List.head?_eq_some_iff.mp h

theorem bind {f : Form α} {g : α → Form β} {a : α} {b : β} {t : List Char} (hf : Prefers f s a t)
    (hg : Prefers (g a) t b r) : Prefers (f >>= g) s b r := by
  obtain ⟨ways, hways⟩ := hf.exists_cons
  obtain ⟨ways', hways'⟩ := hg.exists_cons
  change ((f s).flatMap fun w => g w.1 w.2).head? = _
  rw [hways, List.flatMap_cons]
  exact congrArg (fun first : List (β × List Char) => (first ++ _).head?) hways'

theorem append {f g : Form (List Char)} {x y t : List Char} (hf : Prefers f s x t)
    (hg : Prefers g t y r) : Prefers (f ++ g) s (x ++ y) r := by
  obtain ⟨ways, hways⟩ := hf.exists_cons
  obtain ⟨ways', hways'⟩ := hg.exists_cons
  change ((f s).flatMap fun w => (g w.2).map fun v => (w.1 ++ v.1, v.2)).head? = _
  rw [hways, List.flatMap_cons, hways', List.map_cons, List.cons_append, List.head?_cons]

/-- A form whose first choice does not fit prefers what the others prefer. -/
theorem oneOf_cons_of_nil {f : Form α} {fs : List (Form α)} {a : α} (hf : f s = [])
    (hfs : Prefers (oneOf fs) s a r) : Prefers (oneOf (f :: fs)) s a r := by
  rw [Prefers, oneOf, List.flatMap_cons, hf, List.nil_append]
  exact hfs

theorem oneOf_cons {f : Form α} {fs : List (Form α)} {a : α} (hf : Prefers f s a r) :
    Prefers (oneOf (f :: fs)) s a r := by
  obtain ⟨ways, hways⟩ := hf.exists_cons
  rw [Prefers, oneOf, List.flatMap_cons, hways, List.cons_append, List.head?_cons]

theorem exact (cs r : List Char) : Prefers (exact cs) (cs ++ r) cs r := by
  induction cs with
  | nil => exact rfl
  | cons c cs ih =>
    have hc : Prefers (char (· == c)) (c :: (cs ++ r)) [c] (cs ++ r) := by
      rw [Prefers, char, if_pos (beq_self_eq_true c), List.head?_cons]
    exact hc.append ih

/-- A run prefers the longest run. -/
theorem run {p : Char → Bool} {x : List Char} (hx : ∀ c ∈ x, p c = true)
    (hr : ∀ c ∈ r.head?, p c = false) : Prefers (run p) (x ++ r) x r := by
  induction x with
  | nil =>
    cases r with
    | nil => exact rfl
    | cons c r =>
      have hc : p c = false := hr c rfl
      rw [List.nil_append, Prefers, Form.run, if_neg (by simp [hc]), List.head?_cons]
  | cons c x ih =>
    obtain ⟨ways, hways⟩ := (ih fun d hd => hx d (List.mem_cons_of_mem c hd)).exists_cons
    rw [List.cons_append, Prefers, Form.run, if_pos (hx c List.mem_cons_self), hways,
      List.map_cons, List.cons_append, List.head?_cons]

theorem run1 {p : Char → Bool} {x : List Char} (hne : x ≠ []) (hx : ∀ c ∈ x, p c = true)
    (hr : ∀ c ∈ r.head?, p c = false) : Prefers (run1 p) (x ++ r) x r := by
  obtain ⟨c, x, rfl⟩ := List.exists_cons_of_ne_nil hne
  have hc : Prefers (char p) (c :: (x ++ r)) [c] (x ++ r) := by
    rw [Prefers, char, if_pos (hx c List.mem_cons_self), List.head?_cons]
  exact hc.append (run (fun d hd => hx d (List.mem_cons_of_mem c hd)) hr)

theorem opt {f : Form (List Char)} {x : List Char} (hf : Prefers f s x r) :
    Prefers (opt f) s x r := by
  obtain ⟨ways, hways⟩ := hf.exists_cons
  rw [Prefers, Form.opt, hways, List.cons_append, List.head?_cons]

theorem rest1 (hne : s ≠ []) : Prefers rest1 s s [] := by
  rw [Prefers, Form.rest1, if_neg (by simpa using hne), List.head?_cons]

theorem read?_eq {f : Form α} {a : α} (hf : Prefers f s a r) : f.read? s = some a := by
  unfold Form.read?
  rw [show (f s).head? = some (a, r) from hf]
  rfl

end Prefers

/-! ## No way -/

section Nil

variable {α β : Type} {s : List Char}

theorem append_apply (f g : Form (List Char)) (s : List Char) :
    (f ++ g) s = (f s).flatMap fun w => (g w.2).map fun v => (w.1 ++ v.1, v.2) :=
  rfl

theorem bind_apply (f : Form α) (g : α → Form β) (s : List Char) :
    (f >>= g) s = (f s).flatMap fun w => g w.1 w.2 :=
  rfl

theorem append_assoc (f g h : Form (List Char)) : f ++ g ++ h = f ++ (g ++ h) := by
  funext s
  simp only [append_apply, List.flatMap_assoc, List.flatMap_map, List.map_flatMap, List.map_map,
    Function.comp_def, List.append_assoc]

theorem append_bind (f g : Form (List Char)) (h : List Char → Form β) :
    (f ++ g) >>= h = f >>= fun x => g >>= fun y => h (x ++ y) := by
  funext s
  simp only [append_apply, bind_apply, List.flatMap_assoc, List.flatMap_map]

theorem append_eq_nil {f : Form (List Char)} (g : Form (List Char)) (hf : f s = []) :
    (f ++ g) s = [] := by
  rw [append_apply, hf, List.flatMap_nil]

theorem bind_eq_nil {f : Form α} (g : α → Form β) (hf : f s = []) : (f >>= g) s = [] := by
  rw [bind_apply, hf, List.flatMap_nil]

theorem oneOf_eq_nil {fs : List (Form α)} (h : ∀ f ∈ fs, f s = []) : oneOf fs s = [] :=
  List.flatMap_eq_nil_iff.mpr h

theorem oneOf_append_eq_nil {fs : List (Form (List Char))} {g : Form (List Char)}
    (h : ∀ f ∈ fs, (f ++ g) s = []) : (oneOf fs ++ g) s = [] := by
  rw [append_apply, oneOf, List.flatMap_assoc, List.flatMap_eq_nil_iff]
  exact h

/-- A form after an optional one has the ways behind that one and the ways without it. -/
theorem opt_append (f g : Form (List Char)) : (opt f ++ g) s = (f ++ g) s ++ g s := by
  simp [append_apply, opt]

theorem char_eq_nil {p : Char → Bool} (h : ∀ c ∈ s.head?, p c = false) : char p s = [] := by
  cases s with
  | nil => rfl
  | cons c s => rw [char, if_neg (by simp [h c rfl])]

/-- A form behind a run that fits only where the run has come to its end. -/
theorem run_bind {p : Char → Bool} {g : List Char → Form β} {x : List Char}
    (hx : ∀ c ∈ x, p c = true) (hs : ∀ c ∈ s.head?, p c = false)
    (hg : ∀ y c t, p c = true → g y (c :: t) = []) : (run p >>= g) (x ++ s) = g x s := by
  induction x generalizing g with
  | nil =>
    have hrun : run p s = [([], s)] := by
      cases s with
      | nil => rfl
      | cons c s => rw [run, if_neg (by simp [hs c rfl])]
    rw [List.nil_append, bind_apply, hrun, List.flatMap_singleton]
  | cons c x ih =>
    have hc := hx c List.mem_cons_self
    have hlater := @ih (fun y => g (c :: y)) (fun d hd => hx d (List.mem_cons_of_mem c hd))
      fun y d t hd => hg (c :: y) d t hd
    rw [bind_apply] at hlater
    rw [List.cons_append, bind_apply, run, if_pos hc, List.flatMap_append, List.flatMap_map, hlater,
      List.flatMap_singleton, hg [] c (x ++ s) hc, List.append_nil]

/-- Behind as few characters as possible, a form is read at the first place where it fits. -/
theorem prefers_fewest_bind {p : Char → Bool} {g : List Char → Form β} {x r : List Char}
    (hx : ∀ c ∈ x, p c = true) (hg : g x r ≠ []) :
    ∃ y z b t, x ++ r = y ++ z ∧ y.length ≤ x.length ∧ (b, t) ∈ g y z ∧
      Prefers (fewest p >>= g) (x ++ r) b t := by
  induction x generalizing g with
  | nil =>
    obtain ⟨⟨b, t⟩, ways, hways⟩ := List.exists_cons_of_ne_nil hg
    refine ⟨[], r, b, t, rfl, Nat.le_refl 0, by rw [hways]; exact List.mem_cons_self, ?_⟩
    have hfirst : ∃ later, fewest p r = ([], r) :: later := by
      cases r with
      | nil => exact ⟨[], rfl⟩
      | cons c r => exact ⟨_, rfl⟩
    obtain ⟨later, hlater⟩ := hfirst
    rw [List.nil_append, Prefers, bind_apply, hlater, List.flatMap_cons, hways, List.cons_append,
      List.head?_cons]
  | cons c x ih =>
    have hc : p c = true := hx c List.mem_cons_self
    by_cases hhere : g [] (c :: (x ++ r)) = []
    · obtain ⟨y, z, b, t, hsplit, hlen, hmem, hprefers⟩ :=
        @ih (fun y => g (c :: y)) (fun d hd => hx d (List.mem_cons_of_mem c hd)) hg
      refine ⟨c :: y, z, b, t, by rw [List.cons_append, hsplit]; rfl, Nat.succ_le_succ hlen, hmem, ?_⟩
      rw [Prefers, bind_apply] at hprefers
      rw [List.cons_append, Prefers, bind_apply, fewest, if_pos hc, List.flatMap_cons, hhere,
        List.nil_append, List.flatMap_map]
      exact hprefers
    · obtain ⟨⟨b, t⟩, ways, hways⟩ := List.exists_cons_of_ne_nil hhere
      refine ⟨[], c :: (x ++ r), b, t, rfl, Nat.zero_le _, by rw [hways]; exact List.mem_cons_self, ?_⟩
      rw [List.cons_append, Prefers, bind_apply, fewest, List.flatMap_cons, hways, List.cons_append,
        List.head?_cons]

end Nil

/-! ## The only way -/

/-- The only way of a form in a text. -/
def Only {α : Type} (f : Form α) (s : List Char) (a : α) (r : List Char) : Prop :=
  f s = [(a, r)]

namespace Only

variable {α β : Type} {s r t : List Char}

theorem prefers {f : Form α} {a : α} (h : Only f s a r) : Prefers f s a r := by
  rw [Prefers, show f s = [(a, r)] from h, List.head?_cons]

theorem append {f g : Form (List Char)} {x y : List Char} (hf : Only f s x t) (hg : Only g t y r) :
    Only (f ++ g) s (x ++ y) r := by
  rw [Only, append_apply, show f s = [(x, t)] from hf, List.flatMap_singleton,
    show g t = [(y, r)] from hg]
  rfl

theorem append_eq_nil {f g : Form (List Char)} {x : List Char} (hf : Only f s x t)
    (hg : g t = []) : (f ++ g) s = [] := by
  rw [append_apply, show f s = [(x, t)] from hf, List.flatMap_singleton, hg, List.map_nil]

theorem bind_eq_nil {f : Form α} {g : α → Form β} {a : α} (hf : Only f s a t)
    (hg : g a t = []) : (f >>= g) s = [] := by
  rw [bind_apply, show f s = [(a, t)] from hf, List.flatMap_singleton, hg]

theorem bind_eq {f : Form α} {g : α → Form β} {a : α} (hf : Only f s a t) :
    (f >>= g) s = g a t := by
  rw [bind_apply, show f s = [(a, t)] from hf, List.flatMap_singleton]

/-- An optional form that does not fit reads nothing. -/
theorem opt_nil {f : Form (List Char)} (hf : f s = []) : Only (opt f) s [] s := by
  rw [Only, Form.opt, hf, List.nil_append]

/-- A repetition of a form that does not fit reads nothing. -/
theorem star_nil {f : Form (List Char)} (hf : f s = []) : Only (star f) s [] s := by
  rw [Only, star]
  cases s.length with
  | zero => rfl
  | succ n => rw [upTo, hf, List.flatMap_nil, List.nil_append]

theorem char {p : Char → Bool} {c : Char} (h : p c = true) : Only (char p) (c :: s) [c] s := by
  rw [Only, Form.char, if_pos h]

theorem span {p : Char → Bool} {x : List Char} (hx : ∀ c ∈ x, p c = true)
    (hr : ∀ c ∈ r.head?, p c = false) : Only (span p) (x ++ r) x r := by
  rw [Only, Form.span, List.takeWhile_append_of_pos hx, List.dropWhile_append_of_pos hx]
  cases r with
  | nil => simp
  | cons d r => simp [hr d rfl]

theorem span1 {p : Char → Bool} {x : List Char} (hne : x ≠ []) (hx : ∀ c ∈ x, p c = true)
    (hr : ∀ c ∈ r.head?, p c = false) : Only (span1 p) (x ++ r) x r := by
  obtain ⟨c, x, rfl⟩ := List.exists_cons_of_ne_nil hne
  have hspan : Only (Form.span p) (x ++ r) x r :=
    span (fun d hd => hx d (List.mem_cons_of_mem c hd)) hr
  exact (char (s := x ++ r) (hx c List.mem_cons_self)).append hspan

/-- There are no blanks to read before a character that is none. -/
theorem blanks_nil (hr : ∀ c ∈ r.head?, Text.isBlank c = false) : Only blanks r [] r := by
  cases r with
  | nil => exact rfl
  | cons c r => rw [Only, blanks, run, if_neg (by simp [hr c rfl])]

/-- A single blank. -/
theorem blanks1 (hr : ∀ c ∈ r.head?, Text.isBlank c = false) : Only blanks1 (' ' :: r) [' '] r :=
  (char (by decide)).append (blanks_nil hr)

end Only

end SchemaLint.Form
