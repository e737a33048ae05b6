import Mathlib.Computability.Language
import SchemaLint.Pattern.Place

/-!
# What expressions read

A regular expression leads from one place of a text to another (`Expr.Leads`). An expression without
anchors does so by reading a text of its language (`Expr.Spells`), whatever stands around it; the
languages of larger expressions are put together from those of their parts.
-/

namespace SchemaLint.Pattern

variable {p q r : Place} {x y : List Char} {c : Char}

/-! ## Texts between places -/

namespace Place

/-- One place lies behind another with a text between them. -/
structure Reads (p : Place) (x : List Char) (q : Place) : Prop where
  after_eq : p.after = x ++ q.after
  before_eq : q.before = x.reverse ++ p.before
  offset_eq : q.offset = p.offset + x.length

theorem reads_nil : p.Reads [] q ↔ q = p := by
  constructor
  · rintro ⟨hafter, hbefore, hoffset⟩
    obtain ⟨offset, before, after⟩ := q
    obtain rfl : p.after = after := hafter
    obtain rfl : before = p.before := hbefore
    obtain rfl : offset = p.offset := hoffset
    rfl
  · rintro rfl
    exact ⟨rfl, rfl, rfl⟩

theorem reads_singleton : p.Reads [c] q ↔ p.next? = some (c, q) := by
  obtain ⟨offset, before, after⟩ := q
  obtain ⟨offset', before', after'⟩ := p
  cases after' with
  | nil => exact ⟨fun h => absurd h.after_eq (by simp), by rintro ⟨⟩⟩
  | cons d s =>
    constructor
    · rintro ⟨hafter, hbefore, hoffset⟩
      obtain ⟨rfl, rfl⟩ := List.cons.inj hafter
      obtain rfl : before = d :: before' := hbefore
      obtain rfl : offset = offset' + 1 := hoffset
      rfl
    · rintro ⟨⟩
      exact ⟨rfl, rfl, rfl⟩

theorem reads_append : p.Reads (x ++ y) r ↔ ∃ q, p.Reads x q ∧ q.Reads y r := by
  constructor
  · rintro ⟨hafter, hbefore, hoffset⟩
    refine ⟨⟨p.offset + x.length, x.reverse ++ p.before, y ++ r.after⟩, ⟨?_, rfl, rfl⟩, rfl, ?_, ?_⟩
    · rw [hafter, List.append_assoc]
    · rw [hbefore, List.reverse_append, List.append_assoc]
    · rw [hoffset, List.length_append, Nat.add_assoc]
  · rintro ⟨q, hx, hy⟩
    refine ⟨?_, ?_, ?_⟩
    · rw [hx.after_eq, hy.after_eq, List.append_assoc]
    · rw [hy.before_eq, hx.before_eq, List.reverse_append, List.append_assoc]
    · rw [hy.offset_eq, hx.offset_eq, List.length_append, Nat.add_assoc]

/-- Where a text ends that begins at a place. -/
theorem Reads.eq_ahead (h : p.Reads x q) : q = p.ahead x.length := by
  induction x generalizing p with
  | nil => exact reads_nil.mp h
  | cons c x ih =>
    obtain ⟨r, hc, hx⟩ := reads_append.mp (show p.Reads ([c] ++ x) q from h)
    rw [List.length_cons, ahead, reads_singleton.mp hc]
    exact ih hx

theorem reads_ahead {n : Nat} (h : n ≤ p.after.length) : p.Reads (p.after.take n) (p.ahead n) := by
  let q : Place := ⟨p.offset + n, (p.after.take n).reverse ++ p.before, p.after.drop n⟩
  have hlength : (p.after.take n).length = n := List.length_take_of_le h
  have hreads : p.Reads (p.after.take n) q :=
    ⟨(List.take_append_drop n p.after).symm, rfl, congrArg _ hlength.symm⟩
  have hq := hreads.eq_ahead
  rw [hlength] at hq
  rwa [← hq]

end Place

/-! ## Where expressions lead -/

namespace Expr

/-- An expression leads from one place of a text to another. A repetition whose bound is below what
it asks for at least is taken as often as it asks. -/
inductive Leads : Expr → Place → Place → Prop where
  | empty {p : Place} : Leads .empty p p
  | char {s : CharSet} {c : Char} {p q : Place} :
      p.next? = some (c, q) → s.mem c = true → Leads (.char s) p q
  | anchor {a : Anchor} {p : Place} : a.holds p = true → Leads (.anchor a) p p
  | nil {p : Place} : Leads (.seq []) p p
  | cons {e : Expr} {es : List Expr} {p q r : Place} :
      Leads e p q → Leads (.seq es) q r → Leads (.seq (e :: es)) p r
  | alt {e : Expr} {es : List Expr} {p q : Place} : e ∈ es → Leads e p q → Leads (.alt es) p q
  | group {n : Nat} {e : Expr} {p q : Place} : Leads e p q → Leads (.group n e) p q
  | rep {e : Expr} {lo : Nat} {hi : Option Nat} {greedy : Bool} {k : Nat} {p q : Place} :
      lo ≤ k → (∀ h ∈ hi, k ≤ max lo h) → Leads (.seq (List.replicate k e)) p q →
        Leads (.rep e lo hi greedy) p q

section Leads

variable {e : Expr} {es : List Expr} {s : CharSet} {a : Anchor} {n lo : Nat} {hi : Option Nat}
  {greedy : Bool}

theorem leads_empty : Leads .empty p q ↔ q = p := by
  constructor
  · rintro ⟨⟩
    rfl
  · rintro rfl
    exact .empty

theorem leads_char : Leads (.char s) p q ↔ ∃ c, p.next? = some (c, q) ∧ s.mem c = true := by
  constructor
  · rintro ⟨⟩
    next c hc hmem => exact ⟨c, hmem, hc⟩
  · rintro ⟨c, hnext, hmem⟩
    exact .char hnext hmem

theorem leads_anchor : Leads (.anchor a) p q ↔ q = p ∧ a.holds p = true := by
  constructor
  · rintro ⟨⟩
    exact ⟨rfl, ‹_›⟩
  · rintro ⟨rfl, h⟩
    exact .anchor h

theorem leads_nil : Leads (.seq []) p q ↔ q = p := by
  constructor
  · rintro ⟨⟩
    rfl
  · rintro rfl
    exact .nil

theorem leads_cons : Leads (.seq (e :: es)) p r ↔ ∃ q, Leads e p q ∧ Leads (.seq es) q r := by
  constructor
  · rintro ⟨⟩
    exact ⟨_, ‹_›, ‹_›⟩
  · rintro ⟨q, he, hes⟩
    exact .cons he hes

theorem leads_append {fs : List Expr} :
    Leads (.seq (es ++ fs)) p r ↔ ∃ q, Leads (.seq es) p q ∧ Leads (.seq fs) q r := by
  induction es generalizing p with
  | nil => simp only [List.nil_append, leads_nil, exists_eq_left]
  | cons e es ih =>
    simp only [List.cons_append, leads_cons, ih]
    constructor
    · rintro ⟨q, he, q', hes, hfs⟩
      exact ⟨q', ⟨q, he, hes⟩, hfs⟩
    · rintro ⟨q', ⟨q, he, hes⟩, hfs⟩
      exact ⟨q, he, q', hes, hfs⟩

theorem leads_alt : Leads (.alt es) p q ↔ ∃ e ∈ es, Leads e p q := by
  constructor
  · rintro ⟨⟩
    exact ⟨_, ‹_›, ‹_›⟩
  · rintro ⟨e, he, h⟩
    exact .alt he h

theorem leads_group : Leads (.group n e) p q ↔ Leads e p q :=
  ⟨by rintro ⟨⟩; assumption, .group⟩

theorem leads_rep : Leads (.rep e lo hi greedy) p q ↔
    ∃ k, lo ≤ k ∧ (∀ h ∈ hi, k ≤ max lo h) ∧ Leads (.seq (List.replicate k e)) p q := by
  constructor
  · rintro ⟨⟩
    exact ⟨_, ‹_›, ‹_›, ‹_›⟩
  · rintro ⟨k, hlo, hhi, h⟩
    exact .rep hlo hhi h

/-- An expression leads forward. -/
theorem Leads.exists_reads (h : Leads e p q) : ∃ x, p.Reads x q := by
  induction h with
  | empty | nil | anchor => exact ⟨[], Place.reads_nil.mpr rfl⟩
  | @char s c p q hnext _ => exact ⟨[c], Place.reads_singleton.mpr hnext⟩
  | cons _ _ ih ih' =>
    obtain ⟨x, hx⟩ := ih
    obtain ⟨y, hy⟩ := ih'
    exact ⟨x ++ y, Place.reads_append.mpr ⟨_, hx, hy⟩⟩
  | alt _ _ ih | group _ ih | rep _ _ _ ih => exact ih

end Leads

/-! ## Languages -/

/-- An expression leads from a place to those that lie behind it with a text of a language between
them. -/
def Spells (e : Expr) (l : Language Char) : Prop :=
  ∀ p q, Leads e p q ↔ ∃ x ∈ l, p.Reads x q

section Spells

variable {e : Expr} {es : List Expr} {l m : Language Char} {s : CharSet} {n lo : Nat}
  {hi : Option Nat} {greedy : Bool}

/-- The texts with a property. -/
def textsWith (P : List Char → Prop) : Language Char :=
  {x | P x}

theorem mem_textsWith {P : List Char → Prop} : x ∈ textsWith P ↔ P x :=
  Iff.rfl

/-- The texts of one character of a set. -/
def oneOf (s : CharSet) : Language Char :=
  textsWith fun x => ∃ c, s.mem c = true ∧ x = [c]

theorem spells_char (s : CharSet) : Spells (.char s) (oneOf s) := by
  intro p q
  rw [leads_char]
  constructor
  · rintro ⟨c, hnext, hmem⟩
    exact ⟨[c], ⟨c, hmem, rfl⟩, Place.reads_singleton.mpr hnext⟩
  · rintro ⟨x, ⟨c, hmem, rfl⟩, hreads⟩
    exact ⟨c, Place.reads_singleton.mp hreads, hmem⟩

theorem spells_nil : Spells (.seq []) 1 := by
  intro p q
  rw [leads_nil, ← Place.reads_nil]
  constructor
  · exact fun h => ⟨[], Language.nil_mem_one, h⟩
  · rintro ⟨x, hx, h⟩
    rwa [(Language.mem_one x).mp hx] at h

theorem Spells.append {fs : List Expr} (hes : Spells (.seq es) l) (hfs : Spells (.seq fs) m) :
    Spells (.seq (es ++ fs)) (l * m) := by
  intro p r
  rw [leads_append]
  constructor
  · rintro ⟨q, hpq, hqr⟩
    obtain ⟨x, hx, hpx⟩ := (hes p q).mp hpq
    obtain ⟨y, hy, hqy⟩ := (hfs q r).mp hqr
    exact ⟨x ++ y, Language.append_mem_mul hx hy, Place.reads_append.mpr ⟨q, hpx, hqy⟩⟩
  · rintro ⟨_, hxy, hpr⟩
    obtain ⟨x, hx, y, hy, rfl⟩ := Language.mem_mul.mp hxy
    obtain ⟨q, hpq, hqr⟩ := Place.reads_append.mp hpr
    exact ⟨q, (hes p q).mpr ⟨x, hx, hpq⟩, (hfs q r).mpr ⟨y, hy, hqr⟩⟩

theorem Spells.single (he : Spells e l) : Spells (.seq [e]) l := by
  intro p q
  simp only [leads_cons, leads_nil, exists_eq_right', he p q]

theorem Spells.cons (he : Spells e l) (hes : Spells (.seq es) m) : Spells (.seq (e :: es)) (l * m) :=
  he.single.append hes

theorem spells_alt_nil : Spells (.alt []) 0 := by
  intro p q
  rw [leads_alt]
  constructor
  · rintro ⟨e, he, -⟩
    cases he
  · rintro ⟨x, hx, -⟩
    exact absurd hx (Language.notMem_zero x)

theorem Spells.alt_cons (he : Spells e l) (hes : Spells (.alt es) m) :
    Spells (.alt (e :: es)) (l + m) := by
  intro p q
  simp only [leads_alt, List.exists_mem_cons_iff, Language.mem_add, or_and_right, exists_or]
  rw [he p q, ← leads_alt, hes p q]

theorem Spells.group (he : Spells e l) : Spells (.group n e) l :=
  fun p q => leads_group.trans (he p q)

theorem Spells.replicate (he : Spells e l) (k : Nat) : Spells (.seq (List.replicate k e)) (l ^ k) := by
  induction k with
  | zero => exact spells_nil
  | succ k ih =>
    rw [List.replicate_succ, pow_succ']
    exact he.cons ih

theorem Spells.rep (he : Spells e l) : Spells (.rep e lo hi greedy)
    (textsWith fun x => ∃ k, lo ≤ k ∧ (∀ h ∈ hi, k ≤ max lo h) ∧ x ∈ l ^ k) := by
  intro p q
  simp only [leads_rep, mem_textsWith]
  constructor
  · rintro ⟨k, hlo, hhi, h⟩
    obtain ⟨x, hx, hreads⟩ := (he.replicate k p q).mp h
    exact ⟨x, ⟨k, hlo, hhi, hx⟩, hreads⟩
  · rintro ⟨x, ⟨k, hlo, hhi, hx⟩, hreads⟩
    exact ⟨k, hlo, hhi, (he.replicate k p q).mpr ⟨x, hx, hreads⟩⟩

theorem Spells.congr (he : Spells e l) (h : ∀ x, x ∈ l ↔ x ∈ m) : Spells e m :=
  Language.ext h ▸ he

/-- An optional expression. -/
theorem Spells.opt (he : Spells e l) : Spells (.rep e 0 (some 1) greedy) (1 + l) := by
  refine he.rep.congr fun x => ?_
  rw [mem_textsWith, Language.mem_add]
  constructor
  · rintro ⟨k, -, hk, hx⟩
    match k, hk 1 rfl with
    | 0, _ => exact .inl hx
    | 1, _ => exact .inr (pow_one l ▸ hx)
  · rintro (hx | hx)
    · exact ⟨0, Nat.le_refl 0, fun h _ => Nat.zero_le _, hx⟩
    · exact ⟨1, Nat.zero_le 1, by rintro h ⟨⟩; exact Nat.le_refl 1, (pow_one l).symm ▸ hx⟩

theorem mem_oneOf_pow {k : Nat} {x : List Char} :
    x ∈ oneOf s ^ k ↔ x.length = k ∧ ∀ c ∈ x, s.mem c = true := by
  induction k generalizing x with
  | zero =>
    rw [pow_zero, Language.mem_one, List.length_eq_zero_iff]
    exact ⟨by rintro rfl; simp, And.left⟩
  | succ k ih =>
    rw [pow_succ', Language.mem_mul]
    constructor
    · rintro ⟨_, ⟨c, hc, rfl⟩, y, hy, rfl⟩
      obtain ⟨hlength, hmem⟩ := ih.mp hy
      exact ⟨by simp [hlength], List.forall_mem_cons.mpr ⟨hc, hmem⟩⟩
    · rintro ⟨hlength, hmem⟩
      cases x with
      | nil => cases hlength
      | cons c x =>
        obtain ⟨hc, hmem⟩ := List.forall_mem_cons.mp hmem
        exact ⟨[c], ⟨c, hc, rfl⟩, x, ih.mpr ⟨Nat.succ.inj hlength, hmem⟩, rfl⟩

/-- A run of characters of a set. -/
theorem spells_run (s : CharSet) (lo : Nat) :
    Spells (.rep (.char s) lo none greedy)
      (textsWith fun x => lo ≤ x.length ∧ ∀ c ∈ x, s.mem c = true) := by
  refine (spells_char s).rep.congr fun x => ?_
  simp only [mem_oneOf_pow, mem_textsWith]
  constructor
  · rintro ⟨k, hlo, -, rfl, hmem⟩
    exact ⟨hlo, hmem⟩
  · rintro ⟨hlo, hmem⟩
    exact ⟨x.length, hlo, by simp, rfl, hmem⟩

theorem mem_single {c d : Char} : (CharSet.single c).mem d = true ↔ d = c := by
  rw [CharSet.single, CharSet.mem, Bool.and_eq_true, decide_eq_true_eq, decide_eq_true_eq]
  exact ⟨fun h => Char.le_antisymm h.2 h.1, by rintro rfl; exact ⟨Char.le_refl d, Char.le_refl d⟩⟩

theorem mem_oneOf_single {c : Char} : x ∈ oneOf (.single c) ↔ x = [c] := by
  constructor
  · rintro ⟨d, hd, rfl⟩
    rw [mem_single.mp hd]
  · rintro rfl
    exact ⟨c, mem_single.mpr rfl, rfl⟩

/-- The characters of a text one after another. -/
theorem spells_letters (w : List Char) :
    Spells (.seq (w.map fun c => .char (.single c))) (textsWith (· = w)) := by
  induction w with
  | nil => exact spells_nil
  | cons c w ih =>
    refine ((spells_char (.single c)).cons ih).congr fun x => ?_
    simp only [Language.mem_mul, mem_oneOf_single, mem_textsWith]
    constructor
    · rintro ⟨_, rfl, y, rfl, rfl⟩
      rfl
    · rintro rfl
      exact ⟨[c], rfl, w, rfl, rfl⟩

end Spells

end Expr

end SchemaLint.Pattern
