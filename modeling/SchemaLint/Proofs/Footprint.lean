import Mathlib.Data.List.Basic
import SchemaLint.Footprint

/-!
# What mentions amount to

The fields of a footprint are the fields mentioned, each where it is mentioned first
(`foldl_addField`). Naming a field again changes nothing (`foldl_addField_of_contains`), so mentions
that come in groups of one field each amount to the fields of the groups (`ofMentions_flatMap`), and
columns named before their values amount to themselves (`ofMentions_columns`).
-/

namespace SchemaLint.Footprint

theorem foldl_addField_from (fs acc : List String) :
    fs.foldl addField acc = acc ++ (fs.filter (!acc.contains ·)).eraseDups := by
  induction fs generalizing acc with
  | nil => simp
  | cons f fs ih =>
    rw [List.foldl_cons, ih, addField]
    by_cases hf : acc.contains f = true
    · rw [if_pos hf, List.filter_cons_of_neg (by simp only [hf, Bool.not_true]; decide)]
    · rw [if_neg hf, List.filter_cons_of_pos (by simpa using hf), List.eraseDups_cons,
        List.filter_filter, List.append_assoc, List.singleton_append]
      simp only [List.contains_append, List.contains_cons, List.contains_nil, Bool.or_false,
        Bool.not_or, Bool.and_comm]

/-- Adding fields one by one gives them without repeats, in the order of first mention. -/
theorem foldl_addField (fs : List String) : fs.foldl addField [] = fs.eraseDups := by
  rw [foldl_addField_from, List.nil_append]
  simp

theorem foldl_addField_of_contains {acc fs : List String} (h : ∀ f ∈ fs, acc.contains f = true) :
    fs.foldl addField acc = acc := by
  induction fs with
  | nil => rfl
  | cons f fs ih =>
    rw [List.foldl_cons, addField, if_pos (h f List.mem_cons_self),
      ih fun g hg => h g (List.mem_cons_of_mem f hg)]

theorem foldl_addField_of_nodup {acc fs : List String} (h : (acc ++ fs).Nodup) :
    fs.foldl addField acc = acc ++ fs := by
  induction fs generalizing acc with
  | nil => exact (List.append_nil acc).symm
  | cons f fs ih =>
    have hnew : acc.contains f = false := by
      rw [← Bool.not_eq_true, List.contains_iff_mem]
      exact fun hf => (List.nodup_append.mp h).2.2 f hf f List.mem_cons_self rfl
    rw [List.append_cons] at h
    rw [List.foldl_cons, addField, hnew, if_neg Bool.false_ne_true, ih h, ← List.append_cons]

/-- A field named any number of times in a row is added once. -/
theorem foldl_addField_repeat {f : String} {fs : List String} (acc : List String)
    (h : ∀ g ∈ fs, g = f) : (f :: fs).foldl addField acc = addField acc f := by
  rw [List.foldl_cons]
  have hacc : (addField acc f).contains f = true := by
    unfold addField
    split
    · next hacc => exact hacc
    · simp
  exact foldl_addField_of_contains fun g hg => h g hg ▸ hacc

/-- The fields of a footprint are those that are mentioned and have a name. -/
theorem mem_fields_ofMentions {target f : String} {mentions : List Mention} :
    f ∈ (ofMentions target mentions).fields ↔ f ≠ "" ∧ ∃ m ∈ mentions, m.field = f := by
  unfold ofMentions
  simp only [foldl_addField, List.mem_eraseDups, List.mem_map, List.mem_filter, bne_iff_ne]
  constructor
  · rintro ⟨m, ⟨hm, hne⟩, rfl⟩
    exact ⟨hne, m, hm, rfl⟩
  · rintro ⟨hne, m, hm, rfl⟩
    exact ⟨m, ⟨hm, hne⟩, rfl⟩

/-- Mentions that all name a field all count. -/
theorem ofMentions_of_named {mentions : List Mention} (h : ∀ m ∈ mentions, m.field ≠ "")
    (target : String) : ofMentions target mentions = {
      target := some target
      fields := (mentions.map Mention.field).foldl addField []
      values := mentions.filterMap Mention.value? } := by
  have hnamed : mentions.filter (·.field != "") = mentions :=
    List.filter_eq_self.mpr fun m hm => bne_iff_ne.mpr (h m hm)
  unfold ofMentions
  rw [hnamed]

/-- Columns that are named once each, before the values written to them. -/
theorem ofMentions_columns {columns : List String} {values : List (String × String)}
    (hnodup : columns.Nodup) (hne : ∀ c ∈ columns, c ≠ "") (hvalues : ∀ p ∈ values, p.1 ∈ columns)
    (target : String) :
    ofMentions target (columns.map .touch ++ values.map fun p => .assign p.1 p.2) =
      { target := some target, fields := columns, values } := by
  have hnamed : ∀ m ∈ columns.map .touch ++ values.map fun p => Mention.assign p.1 p.2,
      m.field ≠ "" := by
    intro m hm
    rcases List.mem_append.mp hm with hm | hm
    · obtain ⟨c, hc, rfl⟩ := List.mem_map.mp hm
      exact hne c hc
    · obtain ⟨p, hp, rfl⟩ := List.mem_map.mp hm
      exact hne p.1 (hvalues p hp)
  have hcolumns : (columns.map Mention.touch).map Mention.field = columns := by
    rw [List.map_map]
    exact List.map_id _
  have hlater : ∀ f ∈ (values.map fun p => Mention.assign p.1 p.2).map Mention.field,
      columns.contains f = true := by
    intro f hf
    rw [List.map_map] at hf
    obtain ⟨p, hp, rfl⟩ := List.mem_map.mp hf
    exact List.contains_iff_mem.mpr (hvalues p hp)
  have htouched : (columns.map Mention.touch).filterMap Mention.value? = [] := by
    rw [List.filterMap_eq_nil_iff]
    intro m hm
    obtain ⟨c, -, rfl⟩ := List.mem_map.mp hm
    rfl
  have hassigned : (values.map fun p => Mention.assign p.1 p.2).filterMap Mention.value? = values := by
    rw [List.filterMap_map]
    exact List.filterMap_some
  have hfirst : columns.foldl addField [] = [] ++ columns := foldl_addField_of_nodup hnodup
  rw [ofMentions_of_named hnamed, List.map_append, List.foldl_append, hcolumns, hfirst,
    List.nil_append, foldl_addField_of_contains hlater, List.filterMap_append, htouched, hassigned,
    List.nil_append]

/-! ## Mentions of one field after another -/

section Groups

variable {α : Type} {field : α → String} {mentions : α → List Mention}
  (hnil : ∀ x, mentions x ≠ []) (hfield : ∀ x, ∀ m ∈ mentions x, m.field = field x)

include hnil hfield

theorem foldl_addField_flatMap (xs : List α) (acc : List String) :
    ((xs.flatMap mentions).map Mention.field).foldl addField acc =
      (xs.map field).foldl addField acc := by
  induction xs generalizing acc with
  | nil => rfl
  | cons x xs ih =>
    obtain ⟨m, ms, hms⟩ := List.exists_cons_of_ne_nil (hnil x)
    have hsame : ∀ g ∈ ms.map Mention.field, g = field x := by
      intro g hg
      obtain ⟨m', hm', rfl⟩ := List.mem_map.mp hg
      exact hfield x m' (by rw [hms]; exact List.mem_cons_of_mem m hm')
    have hfirst : m.field = field x := hfield x m (by rw [hms]; exact List.mem_cons_self)
    rw [List.flatMap_cons, List.map_append, List.foldl_append, hms, List.map_cons, hfirst,
      foldl_addField_repeat acc hsame, ih, List.map_cons, List.foldl_cons]

/-- Where mentions come in groups of one field each, the footprint has the fields of the groups
without repeats, and all values. -/
theorem ofMentions_flatMap (hne : ∀ x, field x ≠ "") (target : String) (xs : List α) :
    ofMentions target (xs.flatMap mentions) = {
      target := some target
      fields := (xs.map field).eraseDups
      values := xs.flatMap fun x => (mentions x).filterMap Mention.value? } := by
  have hnamed : ∀ m ∈ xs.flatMap mentions, m.field ≠ "" := by
    intro m hm
    obtain ⟨x, -, hm⟩ := List.mem_flatMap.mp hm
    rw [hfield x m hm]
    exact hne x
  rw [ofMentions_of_named hnamed, List.filterMap_flatMap, foldl_addField_flatMap hnil hfield,
    foldl_addField]

end Groups

end SchemaLint.Footprint
