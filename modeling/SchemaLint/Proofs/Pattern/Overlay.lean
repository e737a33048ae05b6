import SchemaLint.Proofs.Pattern.Leads
import SchemaLint.Proofs.Pattern.Step

/-!
# Overlays compute where expressions lead

The overlay of a character or of an anchor is the set of the places that it lets pass. By induction on
the expression, one lemma for each kind, the overlay of a regular expression computes where it leads
(`Overlay.computes_ofExpr`). So an expression occurs in a text if and only if it leads from some place
of the text to another (`Expr.occursIn_iff`), and one between the anchors for both ends if and only if
the text is of its language (`Expr.occursIn_whole`).
-/

namespace SchemaLint.Pattern

namespace Overlay

/-! ## Places ahead -/

section Places

variable {p : Place} {i j : Nat} {a : Anchor} {test : Char → Bool} {s : List Char}

theorem after_ahead (h : i ≤ p.after.length) : (p.ahead i).after = p.after.drop i := by
  have hafter := (Place.reads_ahead h).after_eq
  rw [← List.take_append_drop i p.after, List.take_left' (List.length_take_of_le h)] at hafter
  exact (List.append_cancel_left hafter).symm

theorem before_ahead (h : i ≤ p.after.length) :
    (p.ahead i).before = (p.after.take i).reverse ++ p.before :=
  (Place.reads_ahead h).before_eq

theorem offset_ahead (h : i ≤ p.after.length) : (p.ahead i).offset = p.offset + i := by
  rw [(Place.reads_ahead h).offset_eq, List.length_take_of_le h]

theorem ahead_inj (hi : i ≤ p.after.length) (hj : j ≤ p.after.length) (h : p.ahead i = p.ahead j) :
    i = j := by
  have hoffset := congrArg Place.offset h
  rw [offset_ahead hi, offset_ahead hj] at hoffset
  omega

theorem next?_ahead (h : i ≤ p.after.length) :
    (p.ahead i).next? = p.after[i]?.map fun c => (c, p.ahead (i + 1)) := by
  rcases Nat.lt_or_eq_of_le h with hlt | rfl
  · have hreads := Place.reads_ahead (p := p) hlt
    rw [List.take_succ_eq_append_getElem hlt, Place.reads_append] at hreads
    obtain ⟨q, hq, hnext⟩ := hreads
    obtain rfl : q = p.ahead i := by
      rw [hq.eq_ahead, List.length_take_of_le h]
    rw [Place.reads_singleton.mp hnext, List.getElem?_eq_getElem hlt]
    rfl
  · have hafter : (p.ahead p.after.length).after = [] := by rw [after_ahead h, List.drop_length]
    rw [Place.next?, hafter, List.getElem?_eq_none (Nat.le_refl _)]
    rfl

theorem testBit_zero_add (b : Bool) (m : Nat) :
    ((if b then 1 else 0) + 2 * m).testBit 0 = b := by
  cases b <;> simp [Nat.testBit_zero, Nat.add_mod]

theorem testBit_succ_add (b : Bool) (m i : Nat) :
    ((if b then 1 else 0) + 2 * m).testBit (i + 1) = m.testBit i := by
  have hdiv : ((if b then 1 else 0) + 2 * m) / 2 = m := by split <;> omega
  rw [Nat.testBit_succ, hdiv]

theorem testBit_before : (before test s).testBit i = (s[i]?).any test := by
  induction s generalizing i with
  | nil => simp [before]
  | cons c s ih =>
    cases i with
    | zero => rw [before, testBit_zero_add]; rfl
    | succ i => rw [before, testBit_succ_add, ih, List.getElem?_cons_succ]

theorem before_lt (test : Char → Bool) (s : List Char) : before test s < 2 ^ s.length := by
  induction s with
  | nil => exact Nat.one_pos
  | cons c s ih =>
    rw [before, List.length_cons, Nat.pow_succ]
    split <;> omega

theorem testBit_anchored (ha : a.isIrregular = false) (h : i ≤ p.after.length) :
    (anchored p a).testBit i = a.holds (p.ahead i) := by
  -- Of what is read last is told by its last character.
  have hlast : ∀ k, i = k + 1 → ∃ x, p.after[k]? = some x ∧
      (p.ahead i).before = x :: ((p.after.take k).reverse ++ p.before) := by
    rintro k rfl
    refine ⟨p.after[k], List.getElem?_eq_getElem h, ?_⟩
    rw [before_ahead h, List.take_succ_eq_append_getElem h, List.reverse_append, List.reverse_singleton,
      List.singleton_append, List.cons_append]
  cases a with
  | textStart =>
    simp only [anchored, Anchor.holds]
    cases i with
    | zero =>
      change _ = p.before.isEmpty
      cases p.before.isEmpty <;> rfl
    | succ k =>
      obtain ⟨x, -, hx⟩ := hlast k rfl
      rw [hx]
      split <;> simp [Nat.testBit_succ]
  | textEnd =>
    simp only [anchored, Anchor.holds, after_ahead h, Nat.one_shiftLeft, Nat.testBit_two_pow]
    rw [Bool.eq_iff_iff, decide_eq_true_eq, List.isEmpty_iff, List.drop_eq_nil_iff]
    omega
  | lineStart =>
    rw [anchored]
    cases i with
    | zero => rw [testBit_zero_add]; rfl
    | succ k =>
      obtain ⟨x, hget, hx⟩ := hlast k rfl
      rw [testBit_succ_add, testBit_before, hget, Anchor.holds, hx]
      rfl
  | lineEnd =>
    have hdisjoint : 1 <<< p.after.length + before (· == '\n') p.after =
        2 ^ p.after.length ||| before (· == '\n') p.after := by
      have hor := Nat.two_pow_add_eq_or_of_lt (before_lt (· == '\n') p.after) 1
      rw [Nat.mul_one] at hor
      rw [Nat.one_shiftLeft, hor]
    simp only [anchored, Anchor.holds, after_ahead h, hdisjoint, Nat.testBit_or, Nat.testBit_two_pow,
      testBit_before]
    rw [List.head?_drop]
    rcases Nat.lt_or_eq_of_le h with hlt | rfl
    · rw [List.getElem?_eq_getElem hlt, decide_eq_false (Nat.ne_of_gt hlt)]
      rfl
    · rw [List.getElem?_eq_none (Nat.le_refl _)]
      simp
  | _ => cases ha

end Places

/-! ## Overlays of expressions -/

/-- An expression leads from one place to another, both told by how far they are ahead. -/
def LeadsAt (p : Place) (e : Expr) (i j : Nat) : Prop :=
  i ≤ p.after.length ∧ j ≤ p.after.length ∧ e.Leads (p.ahead i) (p.ahead j)

section Overlays

variable {p q : Place} {e : Expr} {es : List Expr} {i j k : Nat}

theorem exists_ahead (hi : i ≤ p.after.length) (h : e.Leads (p.ahead i) q) :
    ∃ j, i ≤ j ∧ j ≤ p.after.length ∧ q = p.ahead j := by
  obtain ⟨x, hx⟩ := h.exists_reads
  have hreads : p.Reads (p.after.take i ++ x) q :=
    Place.reads_append.mpr ⟨_, Place.reads_ahead hi, hx⟩
  have hlength := congrArg List.length hreads.after_eq
  have htake := List.length_take_of_le hi
  rw [List.length_append, List.length_append, htake] at hlength
  refine ⟨i + x.length, Nat.le_add_right i _, by omega, ?_⟩
  rw [hreads.eq_ahead, List.length_append, htake]

theorem LeadsAt.forward (h : LeadsAt p e i j) : i ≤ j ∧ j ≤ p.after.length := by
  obtain ⟨hi, hj, hleads⟩ := h
  obtain ⟨j', hle, hj', heq⟩ := exists_ahead hi hleads
  rw [ahead_inj hj hj' heq]
  exact ⟨hle, hj'⟩

theorem leadsAt_nil : LeadsAt p (.seq []) i j ↔ i = j ∧ j ≤ p.after.length := by
  rw [LeadsAt, Expr.leads_nil]
  constructor
  · rintro ⟨hi, hj, heq⟩
    exact ⟨ahead_inj hi hj heq.symm, hj⟩
  · rintro ⟨rfl, hj⟩
    exact ⟨hj, hj, rfl⟩

theorem leadsAt_cons : LeadsAt p (.seq (e :: es)) i j ↔
    ∃ k, LeadsAt p e i k ∧ LeadsAt p (.seq es) k j := by
  constructor
  · rintro ⟨hi, hj, h⟩
    obtain ⟨q, hq, hes⟩ := Expr.leads_cons.mp h
    obtain ⟨k, -, hk, rfl⟩ := exists_ahead hi hq
    exact ⟨k, ⟨hi, hk, hq⟩, hk, hj, hes⟩
  · rintro ⟨k, ⟨hi, -, he⟩, -, hj, hes⟩
    exact ⟨hi, hj, .cons he hes⟩

theorem leadsAt_replicate : LeadsAt p (.seq (List.replicate k e)) i j ↔
    j ≤ p.after.length ∧ Steps (LeadsAt p e) k i j := by
  induction k generalizing i with
  | zero => rw [List.replicate_zero, leadsAt_nil, Steps, and_comm]
  | succ k ih =>
    rw [List.replicate_succ, leadsAt_cons, Steps]
    simp only [ih]
    constructor
    · rintro ⟨l, hl, hj, hsteps⟩
      exact ⟨hj, l, hl, hsteps⟩
    · rintro ⟨hj, l, hl, hsteps⟩
      exact ⟨l, hl, hj, hsteps⟩

/-- What a step computes may be told in another way. -/
theorem Computes.congr {n : Nat} {step : Nat → Nat} {R R' : Nat → Nat → Prop}
    (h : Computes n step R) (hR : ∀ i j, R i j ↔ R' i j) : Computes n step R' := by
  obtain rfl : R = R' := funext₂ fun i j => propext (hR i j)
  exact h

/-! ### One lemma for each kind of expression -/

theorem computes_char (p : Place) (c : CharSet) : Computes p.after.length
    (ends p.after.length (.move (before c.mem p.after))) (LeadsAt p (.char c)) := by
  refine ⟨fun i j => LeadsAt.forward, fun m hm j => ?_⟩
  have hleads : ∀ i, LeadsAt p (.char c) i j ↔ j = i + 1 ∧ (p.after[i]?).any c.mem = true := by
    intro i
    constructor
    · rintro ⟨hi, hj, h⟩
      obtain ⟨x, hnext, hmem⟩ := Expr.leads_char.mp h
      rw [next?_ahead hi] at hnext
      obtain ⟨x', hget, heq⟩ := Option.map_eq_some_iff.mp hnext
      obtain ⟨rfl, hahead⟩ := Prod.mk.inj heq
      obtain ⟨hlt, -⟩ := List.getElem?_eq_some_iff.mp hget
      exact ⟨(ahead_inj hlt hj hahead).symm, by rw [hget]; exact hmem⟩
    · rintro ⟨rfl, hany⟩
      obtain ⟨x, hget, hmem⟩ := (Option.any_eq_true _ _).mp hany
      obtain ⟨hlt, -⟩ := List.getElem?_eq_some_iff.mp hget
      have hi := Nat.le_of_lt hlt
      exact ⟨hi, hlt, .char (by rw [next?_ahead hi, hget]; rfl) hmem⟩
  simp only [hleads]
  rw [ends]
  cases j with
  | zero => simp
  | succ k =>
    rw [Nat.testBit_succ, Nat.mul_div_cancel_left _ Nat.two_pos, Nat.testBit_and, testBit_before,
      Bool.and_eq_true]
    constructor
    · rintro ⟨hk, hany⟩
      exact ⟨k, hk, rfl, hany⟩
    · rintro ⟨i, hi, hik, hany⟩
      obtain rfl := Nat.succ.inj hik
      exact ⟨hi, hany⟩

theorem computes_anchor (p : Place) {a : Anchor} (ha : a.isIrregular = false) :
    Computes p.after.length (ends p.after.length (.stay (anchored p a))) (LeadsAt p (.anchor a)) := by
  refine ⟨fun i j => LeadsAt.forward, fun m hm j => ?_⟩
  rw [ends, Nat.testBit_and, Bool.and_eq_true]
  constructor
  · rintro ⟨hj, hanchored⟩
    rw [testBit_anchored ha (hm j hj)] at hanchored
    exact ⟨j, hj, hm j hj, hm j hj, .anchor hanchored⟩
  · rintro ⟨i, hi, hin, hjn, hleads⟩
    obtain ⟨heq, hholds⟩ := Expr.leads_anchor.mp hleads
    obtain rfl := ahead_inj hjn hin heq
    exact ⟨hi, (testBit_anchored ha hin).trans hholds⟩

theorem computes_nil (p : Place) :
    Computes p.after.length (endsOfAll p.after.length []) (LeadsAt p (.seq [])) := by
  refine ⟨fun i j => LeadsAt.forward, fun m hm j => ?_⟩
  simp only [endsOfAll, leadsAt_nil]
  constructor
  · exact fun hj => ⟨j, hj, rfl, hm j hj⟩
  · rintro ⟨i, hi, rfl, -⟩
    exact hi

variable {o : Overlay} {os : List Overlay}

theorem Computes.cons (ho : Computes p.after.length (ends p.after.length o) (LeadsAt p e))
    (hos : Computes p.after.length (endsOfAll p.after.length os) (LeadsAt p (.seq es))) :
    Computes p.after.length (endsOfAll p.after.length (o :: os)) (LeadsAt p (.seq (e :: es))) := by
  refine ⟨fun i j => LeadsAt.forward, fun m hm j => ?_⟩
  rw [endsOfAll, hos.testBit_iff _ (ho.within hm)]
  simp only [ho.testBit_iff m hm, leadsAt_cons]
  constructor
  · rintro ⟨k, ⟨i, hi, hk⟩, hj⟩
    exact ⟨i, hi, k, hk, hj⟩
  · rintro ⟨i, hi, k, hk, hj⟩
    exact ⟨k, ⟨i, hi, hk⟩, hj⟩

theorem leadsAt_alt : LeadsAt p (.alt es) i j ↔ ∃ e ∈ es, LeadsAt p e i j := by
  simp only [LeadsAt, Expr.leads_alt]
  constructor
  · rintro ⟨hi, hj, e, he, h⟩
    exact ⟨e, he, hi, hj, h⟩
  · rintro ⟨e, he, hi, hj, h⟩
    exact ⟨hi, hj, e, he, h⟩

theorem computes_none (p : Place) :
    Computes p.after.length (endsOfSome p.after.length []) (LeadsAt p (.alt [])) := by
  refine ⟨fun i j => LeadsAt.forward, fun m hm j => ?_⟩
  simp [endsOfSome, leadsAt_alt]

theorem Computes.or (ho : Computes p.after.length (ends p.after.length o) (LeadsAt p e))
    (hos : Computes p.after.length (endsOfSome p.after.length os) (LeadsAt p (.alt es))) :
    Computes p.after.length (endsOfSome p.after.length (o :: os)) (LeadsAt p (.alt (e :: es))) := by
  refine ⟨fun i j => LeadsAt.forward, fun m hm j => ?_⟩
  rw [endsOfSome, Nat.testBit_or, Bool.or_eq_true, ho.testBit_iff m hm, hos.testBit_iff m hm]
  simp only [leadsAt_alt, List.exists_mem_cons_iff, and_or_left, exists_or]

theorem Computes.rep (ho : Computes p.after.length (ends p.after.length o) (LeadsAt p e)) (lo : Nat)
    (hi : Option Nat) (greedy : Bool) : Computes p.after.length
      (ends p.after.length (.rep o lo hi greedy)) (LeadsAt p (.rep e lo hi greedy)) := by
  refine (ho.repeated lo hi).congr fun i j => ?_
  simp only [LeadsAt, Expr.leads_rep]
  constructor
  · rintro ⟨hin, k, hlo, hbound, hsteps⟩
    have hj := ho.le_of_steps hin hsteps
    exact ⟨hin, hj, k, hlo, hbound, (leadsAt_replicate.mpr ⟨hj, hsteps⟩).2.2⟩
  · rintro ⟨hin, hj, k, hlo, hbound, h⟩
    exact ⟨hin, k, hlo, hbound, (leadsAt_replicate.mp ⟨hin, hj, h⟩).2⟩

end Overlays

/-! ### Every regular expression -/

mutual

/-- The overlay of a regular expression computes where the expression leads. -/
theorem computes_ofExpr (p : Place) (referred : List Nat) :
    ∀ e : Expr, e.isIrregular referred = false →
      Computes p.after.length (ends p.after.length (ofExpr p e)) (LeadsAt p e)
  | .empty, _ => (computes_nil p).congr fun i j => by
    rw [LeadsAt, LeadsAt, Expr.leads_nil, Expr.leads_empty]
  | .char c, _ => computes_char p c
  | .anchor a, h => computes_anchor p h
  | .seq es, h => computes_ofExprs_all p referred es h
  | .alt es, h => computes_ofExprs_some p referred es h
  | .group n e, h =>
    (computes_ofExpr p referred e (Bool.or_eq_false_iff.mp h).1).congr fun i j => by
      rw [LeadsAt, LeadsAt, Expr.leads_group]
  | .rep e lo hi greedy, h => (computes_ofExpr p referred e h).rep lo hi greedy

theorem computes_ofExprs_all (p : Place) (referred : List Nat) :
    ∀ es : List Expr, Expr.someIrregular referred es = false →
      Computes p.after.length (endsOfAll p.after.length (ofExprs p es)) (LeadsAt p (.seq es))
  | [], _ => computes_nil p
  | e :: es, h =>
    have hboth := Bool.or_eq_false_iff.mp h
    (computes_ofExpr p referred e hboth.1).cons (computes_ofExprs_all p referred es hboth.2)

theorem computes_ofExprs_some (p : Place) (referred : List Nat) :
    ∀ es : List Expr, Expr.someIrregular referred es = false →
      Computes p.after.length (endsOfSome p.after.length (ofExprs p es)) (LeadsAt p (.alt es))
  | [], _ => computes_none p
  | e :: es, h =>
    have hboth := Bool.or_eq_false_iff.mp h
    (computes_ofExpr p referred e hboth.1).or (computes_ofExprs_some p referred es hboth.2)

end

theorem testBit_places {s : List Char} {i : Nat} : (places s).testBit i = decide (i ≤ s.length) := by
  rw [places, Nat.one_shiftLeft, Nat.testBit_two_pow_sub_one, Bool.eq_iff_iff, decide_eq_true_eq,
    decide_eq_true_eq, Nat.lt_succ_iff]

end Overlay

namespace Expr

/-! ## Occurrences in texts -/

section Occurrences

open Overlay

variable {e : Expr} {es : List Expr} {l : Language Char} {referred : List Nat} {text : List Char}

/-- A regular expression occurs in a text if it leads from a place of the text to another. -/
theorem occursIn_iff (he : e.isIrregular referred = false) : e.occursIn text = true ↔
    ∃ x p q, (Place.start text).Reads x p ∧ e.Leads p q := by
  have hcomputes := computes_ofExpr (Place.start text) referred e he
  have hplaces : Within text.length (places text) := fun i hi => by
    rwa [testBit_places, decide_eq_true_eq] at hi
  have hends : ∀ j, (ends text.length (ofExpr (Place.start text) e) (places text)).testBit j = true ↔
      ∃ i, (places text).testBit i = true ∧ LeadsAt (Place.start text) e i j :=
    hcomputes.testBit_iff _ hplaces
  have hbits : e.occursIn text = true ↔ ∃ i j, LeadsAt (Place.start text) e i j := by
    rw [occursIn, bne_iff_ne, Ne, Overlay.eq_zero_iff, not_forall]
    simp only [Bool.not_eq_false, hends, testBit_places, decide_eq_true_eq]
    constructor
    · rintro ⟨j, i, -, h⟩
      exact ⟨i, j, h⟩
    · rintro ⟨i, j, h⟩
      exact ⟨j, i, h.1, h⟩
  rw [hbits]
  constructor
  · rintro ⟨i, j, hi, -, h⟩
    exact ⟨_, _, _, Place.reads_ahead hi, h⟩
  · rintro ⟨x, p, q, hx, h⟩
    obtain rfl := hx.eq_ahead
    have hi : x.length ≤ text.length := by
      rw [show text = x ++ _ from hx.after_eq, List.length_append]
      exact Nat.le_add_right _ _
    obtain ⟨j, -, hj, rfl⟩ := exists_ahead hi h
    exact ⟨_, j, hi, hj, h⟩

theorem someIrregular_append (es fs : List Expr) : someIrregular referred (es ++ fs) =
    (someIrregular referred es || someIrregular referred fs) := by
  induction es with
  | nil => rfl
  | cons e es ih => rw [List.cons_append, someIrregular, someIrregular, ih, Bool.or_assoc]

/-- A pattern between the anchors for both ends of a text matches the texts of its language. -/
theorem occursIn_whole (he : someIrregular referred es = false) (hes : Spells (.seq es) l) :
    (seq (.anchor .textStart :: (es ++ [.anchor .textEnd]))).occursIn text = true ↔ text ∈ l := by
  have hregular : isIrregular referred (seq (.anchor .textStart :: (es ++ [.anchor .textEnd]))) =
      false := by
    rw [isIrregular, someIrregular, someIrregular_append, he]
    rfl
  rw [occursIn_iff hregular]
  simp only [leads_cons, leads_append, leads_nil, leads_anchor]
  constructor
  · rintro ⟨x, p, q, hx, _, ⟨rfl, hstart⟩, r, hleads, _, ⟨rfl, hend⟩, -⟩
    obtain ⟨y, hy, hreads⟩ := (hes _ _).mp hleads
    have hbefore := hx.before_eq
    rw [List.isEmpty_iff.mp hstart] at hbefore
    obtain rfl : x = [] := by
      rw [eq_comm, List.append_eq_nil_iff, List.reverse_eq_nil_iff] at hbefore
      exact hbefore.1
    have hafter := hreads.after_eq
    rw [Place.reads_nil.mp hx, List.isEmpty_iff.mp hend, List.append_nil] at hafter
    rwa [show text = y from hafter]
  · intro htext
    obtain ⟨q, hq⟩ : ∃ q, (Place.start text).Reads text q ∧ q.after = [] :=
      ⟨⟨text.length, text.reverse, []⟩, ⟨by simp [Place.start], by simp [Place.start],
        by simp [Place.start]⟩, rfl⟩
    have hleads : (seq es).Leads (Place.start text) q := (hes _ q).mpr ⟨text, htext, hq.1⟩
    exact ⟨[], _, q, Place.reads_nil.mpr rfl, _, ⟨rfl, rfl⟩, q, hleads, q,
      ⟨rfl, List.isEmpty_iff.mpr hq.2⟩, rfl⟩

end Occurrences

end Expr

end SchemaLint.Pattern
