import SchemaLint.Footprint
import SchemaLint.Proofs.Nesting.Place
import SchemaLint.Proofs.Text

/-!
# Texts scattered in a text

Texts are scattered in a text when they stand in it one behind the other, with something between each
and the next (`Scattered`). Whoever cuts a text into pieces gets scattered pieces if what stands
between them is dropped, and pieces of scattered pieces are scattered in the whole
(`Scattered.flatMap`). So each way to cut a text needs one lemma only, about what it cuts.
-/

namespace SchemaLint

/-- Texts that stand in a text one behind the other, with something between each and the next. -/
inductive Scattered : List (List Char) → List Char → Prop
  | none (s : List Char) : Scattered [] s
  | last (a v b : List Char) : Scattered [v] (a ++ (v ++ b))
  | more (a v : List Char) (g : Char) {vs : List (List Char)} {s : List Char}
      (rest : Scattered vs s) : Scattered (v :: vs) (a ++ (v ++ g :: s))

namespace Scattered

variable {vs ws : List (List Char)} {s t v : List Char}

theorem of_isInfix (h : v <:+: s) : Scattered [v] s := by
  obtain ⟨a, b, rfl⟩ := h
  rw [List.append_assoc]
  exact last a v b

theorem prepend (h : Scattered vs s) (a : List Char) : Scattered vs (a ++ s) := by
  cases h with
  | none s => exact none _
  | last a' v b =>
    rw [← List.append_assoc]
    exact last _ v b
  | more a' v g rest =>
    rw [← List.append_assoc]
    exact more _ v g rest

theorem append_right (h : Scattered vs s) (b : List Char) : Scattered vs (s ++ b) := by
  induction h with
  | none s => exact none _
  | last a v b' =>
    rw [List.append_assoc, List.append_assoc]
    exact last a v _
  | more a v g _ ih =>
    rw [List.append_assoc, List.append_assoc, List.cons_append]
    exact more a v g ih

theorem mono (h : Scattered vs s) (hst : s <:+: t) : Scattered vs t := by
  obtain ⟨a, b, rfl⟩ := hst
  exact (h.prepend a).append_right b

/-- What is scattered in two texts is scattered in both with something between them. -/
theorem append (h : Scattered vs s) (g : Char) (h' : Scattered ws t) :
    Scattered (vs ++ ws) (s ++ g :: t) := by
  induction h with
  | none s => exact (h'.prepend [g]).prepend s
  | last a v b =>
    -- What follows the last text begins what stands before the next one.
    rw [List.append_assoc, List.append_assoc]
    cases b with
    | nil => exact more a v g h'
    | cons c b => exact more a v c ((h'.prepend [g]).prepend b)
  | more a v c _ ih =>
    rw [List.append_assoc, List.append_assoc, List.cons_append]
    exact more a v c ih

theorem cons_cases (h : Scattered (v :: vs) s) :
    (vs = [] ∧ ∃ a b, s = a ++ (v ++ b)) ∨ ∃ a g t, s = a ++ (v ++ g :: t) ∧ Scattered vs t := by
  cases h with
  | last a v b => exact .inl ⟨rfl, a, b, rfl⟩
  | more a v g rest => exact .inr ⟨a, g, _, rfl, rest⟩

theorem tail (h : Scattered (v :: vs) s) : Scattered vs s := by
  rcases h.cons_cases with ⟨rfl, -⟩ | ⟨a, g, t, rfl, rest⟩
  · exact none s
  · exact ((rest.prepend [g]).prepend v).prepend a

/-- Some of the texts are scattered too. -/
theorem sublist (h : Scattered vs s) (hws : ws.Sublist vs) : Scattered ws s := by
  induction hws generalizing s with
  | slnil => exact h
  | cons v _ ih => exact ih h.tail
  | cons_cons v hsub ih =>
    rcases h.cons_cases with ⟨rfl, a, b, rfl⟩ | ⟨a, g, t, rfl, rest⟩
    · rw [List.sublist_nil.mp hsub]
      exact last a v b
    · exact more a v g (ih rest)

theorem isInfix_of_mem (h : Scattered vs s) (hv : v ∈ vs) : v <:+: s := by
  rcases (h.sublist (List.singleton_sublist.mpr hv)).cons_cases with
    ⟨-, a, b, rfl⟩ | ⟨a, g, t, rfl, -⟩
  · exact ⟨a, b, by simp⟩
  · exact ⟨a, g :: t, by simp⟩

/-- What is scattered in scattered pieces is scattered in the whole. -/
theorem flatMap {α : Type} {text : α → List Char} {f : α → List (List Char)} {l : List α}
    (h : Scattered (l.map text) s) (hf : ∀ a ∈ l, Scattered (f a) (text a)) :
    Scattered (l.flatMap f) s := by
  induction l generalizing s with
  | nil => exact none s
  | cons x l ih =>
    have hx := hf x List.mem_cons_self
    have hl : ∀ a ∈ l, Scattered (f a) (text a) := fun a ha => hf a (List.mem_cons_of_mem x ha)
    rw [List.flatMap_cons]
    rcases h.cons_cases with ⟨hnil, a, b, rfl⟩ | ⟨a, g, t, rfl, rest⟩
    · rw [List.map_eq_nil_iff.mp hnil, List.flatMap_nil, List.append_nil]
      exact (hx.append_right b).prepend a
    · exact (hx.append g (ih rest hl)).prepend a

/-- What is scattered in each of the texts is scattered in the whole. -/
theorem bind {f : List Char → List (List Char)} (h : Scattered vs s) (hf : ∀ v, Scattered (f v) v) :
    Scattered (vs.flatMap f) s := by
  rw [← List.map_id vs] at h
  exact h.flatMap fun v _ => hf v

/-- Each text may be cut further. -/
theorem map {part : List Char → List Char} (h : Scattered vs s) (hpart : ∀ v, part v <:+: v) :
    Scattered (vs.map part) s := by
  rw [List.map_eq_flatMap]
  exact h.bind fun v => of_isInfix (hpart v)

end Scattered

/-! ## Ways to cut a text -/

theorem Text.trim_isInfix (s : List Char) : Text.trim s <:+: s := by
  obtain ⟨gap, gap', -, -, h⟩ := Text.exists_append_trim s
  exact ⟨gap, gap', h.symm⟩

section Cuts

variable {test : PlaceTest} {s x y : List Char}

/-- Where a text is cut, the character of the place is dropped with what is dropped at all. -/
theorem exists_of_firstCut? (h : firstCut? test s = some (x, y)) :
    ∃ g t, s = x ++ g :: t ∧ y = g :: t := by
  obtain ⟨rfl, ⟨g, t, rfl, -, -⟩, -⟩ := firstCut?_eq_some_iff.mp h
  exact ⟨g, t, rfl, rfl⟩

theorem exists_of_cutAtTop? {c : Char} (h : cutAtTop? c s = some (x, y)) :
    ∃ g, s = x ++ g :: y := by
  obtain ⟨⟨x', y'⟩, hcut, heq⟩ := Option.map_eq_some_iff.mp h
  obtain ⟨g, t, rfl, rfl⟩ := exists_of_firstCut? hcut
  obtain ⟨rfl, rfl⟩ := Prod.mk.inj heq
  exact ⟨g, rfl⟩

theorem exists_of_cutAtKeyword? {w : String} (hw : 0 < w.length)
    (h : cutAtKeyword? w s = some (x, y)) : ∃ g t, s = x ++ g :: t ∧ y <:+ t := by
  obtain ⟨⟨x', y'⟩, hcut, heq⟩ := Option.map_eq_some_iff.mp h
  obtain ⟨g, t, rfl, rfl⟩ := exists_of_firstCut? hcut
  obtain ⟨rfl, rfl⟩ := Prod.mk.inj heq
  obtain ⟨n, hn⟩ := Nat.exists_eq_add_of_lt hw
  rw [Nat.zero_add] at hn
  exact ⟨g, t, rfl, by rw [hn, List.drop_succ_cons]; exact List.drop_suffix n t⟩

/-- All parts but the first begin where the text is cut. -/
theorem ne_nil_of_parts {n : Nesting} {before : Option Char} {p : List Char}
    {ps : List (List Char)} (h : n.parts test before s = p :: ps) : ∀ q ∈ ps, q ≠ [] := by
  induction s generalizing n before p ps with
  | nil =>
    obtain ⟨-, rfl⟩ := List.cons.inj h
    simp
  | cons c s ih =>
    obtain ⟨p', ps', hlater⟩ := List.exists_cons_of_ne_nil
      (parts_ne_nil_from test (n.next c) (some c) s)
    rw [Nesting.parts, hlater, Text.consHead] at h
    split at h
    · obtain ⟨-, rfl⟩ := List.cons.inj h
      exact List.forall_mem_cons.mpr ⟨List.cons_ne_nil c p', ih hlater⟩
    · obtain ⟨-, rfl⟩ := List.cons.inj h
      exact ih hlater

/-- Parts of which all but the first lose their first character. -/
theorem scattered_drop_one (p : List Char) {ps : List (List Char)} (hps : ∀ q ∈ ps, q ≠ []) :
    Scattered (p :: ps.map (·.drop 1)) (p :: ps).flatten := by
  induction ps generalizing p with
  | nil => exact .of_isInfix (by simp)
  | cons q ps ih =>
    obtain ⟨g, q, rfl⟩ := List.exists_cons_of_ne_nil (hps q List.mem_cons_self)
    exact .more [] p g (ih q fun r hr => hps r (List.mem_cons_of_mem _ hr))

theorem scattered_segments (sep : Char) (s : List Char) : Scattered (segments sep s) s := by
  have hflatten := flatten_parts (standsAt sep) s
  unfold segments
  cases hparts : parts (standsAt sep) s with
  | nil => exact .none s
  | cons p ps =>
    rw [hparts] at hflatten
    rw [← hflatten]
    exact scattered_drop_one p (ne_nil_of_parts hparts)

theorem scattered_splitTop (sep : Char) (s : List Char) : Scattered (splitTop sep s) s := by
  have htrimmed : Scattered ((segments sep s).map Text.trim) s :=
    (scattered_segments sep s).map Text.trim_isInfix
  exact htrimmed.sublist List.filter_sublist

theorem isInfix_of_mem_splitTop {sep : Char} {item : List Char} (h : item ∈ splitTop sep s) :
    item <:+: s :=
  (scattered_splitTop sep s).isInfix_of_mem h

end Cuts

/-! ## Values that mentions are written with -/

/-- The values of some mentions, as written. -/
def writtenValues (mentions : List Mention) : List (List Char) :=
  mentions.filterMap fun m => m.value?.map (·.2.toList)

@[simp] theorem writtenValues_nil : writtenValues [] = [] :=
  rfl

theorem writtenValues_append (ms ms' : List Mention) :
    writtenValues (ms ++ ms') = writtenValues ms ++ writtenValues ms' :=
  List.filterMap_append

theorem writtenValues_flatMap {α : Type} (f : α → List Mention) (l : List α) :
    writtenValues (l.flatMap f) = l.flatMap fun a => writtenValues (f a) :=
  List.filterMap_flatMap

theorem writtenValues_map {α : Type} (f : α → Mention) (l : List α) :
    writtenValues (l.map f) = l.flatMap fun a => writtenValues [f a] := by
  rw [List.map_eq_flatMap, writtenValues_flatMap]

theorem writtenValues_filterMap {α : Type} (f : α → Option Mention) (l : List α) :
    writtenValues (l.filterMap f) = l.flatMap fun a => writtenValues (f a).toList := by
  rw [List.filterMap_eq_flatMap_toList, writtenValues_flatMap]

/-- Mentions without values add none. -/
theorem writtenValues_eq_nil {ms : List Mention} (h : ∀ m ∈ ms, m.value? = none) :
    writtenValues ms = [] :=
  List.filterMap_eq_nil_iff.mpr fun m hm => by rw [h m hm, Option.map_none]

/-- The values of a footprint, as written. -/
def Footprint.writtenValues (p : Footprint) : List (List Char) :=
  p.values.map (·.2.toList)

/-- The values of a footprint are those that are written to a field with a name. -/
theorem Footprint.writtenValues_ofMentions (target : String) (ms : List Mention) :
    (ofMentions target ms).writtenValues = SchemaLint.writtenValues (ms.filter (·.field != "")) := by
  unfold Footprint.writtenValues ofMentions SchemaLint.writtenValues
  rw [List.map_filterMap]

theorem Scattered.ofMentions {ms : List Mention} {s : List Char} (h : Scattered (writtenValues ms) s)
    (target : String) : Scattered (Footprint.ofMentions target ms).writtenValues s := by
  rw [Footprint.writtenValues_ofMentions]
  exact h.sublist (List.filter_sublist.filterMap _)

end SchemaLint
