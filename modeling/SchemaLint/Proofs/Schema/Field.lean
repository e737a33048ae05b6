import Mathlib.Data.List.Basic
import Mathlib.Data.List.Nodup
import SchemaLint.Schema.Table

/-!
# Lists of fields

A list of fields is well-formed when no name is empty or repeated (`Field.WellFormed`). Merging any
fields gives a well-formed list and leaves a well-formed list as it is (`merge_of_wellFormed`); every
edit of a table keeps its fields well-formed.
-/

namespace SchemaLint

namespace Field

/-- The names of some fields. -/
def names (fields : List Field) : List String :=
  fields.map (·.name)

/-- No name is empty, and none is repeated. -/
structure WellFormed (fields : List Field) : Prop where
  name_ne : ∀ f ∈ fields, f.name ≠ ""
  nodup : (names fields).Nodup

theorem has_iff {fields : List Field} {name : String} :
    has fields name = true ↔ name ∈ names fields := by
  simp [has, names]

theorem has_eq_false {fields : List Field} {name : String} (h : name ∉ names fields) :
    has fields name = false := by
  cases hh : has fields name with
  | false => rfl
  | true => exact absurd (has_iff.mp hh) h

theorem wellFormed_nil : WellFormed [] :=
  ⟨by simp, List.nodup_nil⟩

/-- A field with a new name may be added at the end. -/
theorem WellFormed.concat {fields : List Field} (h : WellFormed fields) {f : Field}
    (hname : f.name ≠ "") (hnew : f.name ∉ names fields) : WellFormed (fields ++ [f]) := by
  refine ⟨fun g hg => ?_, ?_⟩
  · rcases List.mem_append.mp hg with hg | hg
    · exact h.name_ne g hg
    · rw [List.mem_singleton.mp hg]
      exact hname
  · rw [names, List.map_append, List.map_singleton, List.nodup_append]
    refine ⟨h.nodup, List.nodup_singleton _, ?_⟩
    rintro a ha b hb rfl
    exact hnew (by rwa [List.mem_singleton.mp hb] at ha)

theorem WellFormed.filter {fields : List Field} (h : WellFormed fields) (p : Field → Bool) :
    WellFormed (fields.filter p) :=
  ⟨fun f hf => h.name_ne f (List.mem_of_mem_filter hf),
    h.nodup.sublist (List.filter_sublist.map _)⟩

/-! ## Merging -/

theorem WellFormed.add {fields : List Field} (h : WellFormed fields) (f : Field) :
    WellFormed (add fields f) := by
  unfold Field.add
  split
  · next hnew =>
    simp only [isNew, Bool.and_eq_true, bne_iff_ne, Bool.not_eq_true'] at hnew
    refine h.concat hnew.1 fun hmem => ?_
    rw [has_iff.mpr hmem] at hnew
    cases hnew.2
  · exact h

theorem WellFormed.merge {fields : List Field} (h : WellFormed fields) (more : List Field) :
    WellFormed (merge fields more) := by
  induction more generalizing fields with
  | nil => exact h
  | cons f more ih => exact ih (h.add f)

theorem merge_of_wellFormed_append {fields more : List Field} (h : WellFormed (fields ++ more)) :
    merge fields more = fields ++ more := by
  induction more generalizing fields with
  | nil => rw [List.append_nil]; rfl
  | cons f more ih =>
    have hname : f.name ≠ "" := h.name_ne f (by simp)
    have hnew : f.name ∉ names fields := by
      intro hmem
      have hnodup := h.nodup
      rw [names, List.map_append, List.nodup_append] at hnodup
      exact hnodup.2.2 _ hmem f.name (by simp) rfl
    have hadd : add fields f = fields ++ [f] := by
      rw [add, isNew, has_eq_false hnew, bne_iff_ne.mpr hname]
      rfl
    have hshape : fields ++ f :: more = (fields ++ [f]) ++ more := by simp
    rw [hshape] at h ⊢
    rw [merge, List.foldl_cons, hadd]
    exact ih h

/-- Merging leaves a well-formed list as it is. -/
theorem merge_of_wellFormed {fields : List Field} (h : WellFormed fields) : merge [] fields = fields :=
  merge_of_wellFormed_append h

end Field

/-! ## Edits of a table -/

namespace Table

open SchemaLint.Field

variable {t t' : Table}

theorem wellFormed_ofFields (d : Dialect) (fields : List Field) :
    WellFormed (ofFields d fields).fields :=
  wellFormed_nil.merge fields

/-- A table is what its well-formed fields make it. -/
theorem ofFields_fields (h : WellFormed t.fields) : ofFields t.dialect t.fields = t := by
  rw [ofFields, merge_of_wellFormed h]

section Edits

variable (h : WellFormed t.fields)

include h in
theorem wellFormed_addField {f : Field} (hadd : t.addField f = .ok t') : WellFormed t'.fields := by
  unfold addField at hadd
  split at hadd
  · cases hadd
  · next hname =>
    split at hadd
    · cases hadd
    · next hnew =>
      cases hadd
      exact h.concat (by simpa using hname) fun hmem => hnew (has_iff.mpr hmem)

include h in
theorem wellFormed_removeField {name : String} (hremove : t.removeField name = .ok t') :
    WellFormed t'.fields := by
  unfold removeField at hremove
  split at hremove
  · cases hremove
    exact h.filter _
  · cases hremove

/-- A change of one field is made to the names of all fields with its name. -/
theorem names_change {name : String} {g : Field → Field} {newName : String}
    (hg : ∀ f, f.name = name → (g f).name = newName) (fields : List Field) :
    names (fields.map fun f => if f.name == name then g f else f) =
      (names fields).map fun n => if n = name then newName else n := by
  simp only [names, List.map_map]
  refine List.map_congr_left fun f _ => ?_
  by_cases hf : f.name = name
  · simp [hf, hg f hf]
  · simp [hf]

include h in
/-- Changing a field keeps the fields well-formed when its new name is its old one or new. -/
theorem wellFormed_change {name newName : String} {g : Field → Field}
    (hg : ∀ f, f.name = name → (g f).name = newName) (hname : newName ≠ "")
    (hnew : newName = name ∨ newName ∉ names t.fields) (hchange : t.change name g = .ok t') :
    WellFormed t'.fields := by
  unfold change at hchange
  split at hchange
  · cases hchange
    refine ⟨fun f hf => ?_, ?_⟩
    · obtain ⟨f₀, hf₀, rfl⟩ := List.mem_map.mp hf
      by_cases heq : f₀.name = name
      · simp only [heq, beq_self_eq_true, if_true, hg f₀ heq]
        exact hname
      · simp only [beq_iff_eq, heq, if_false]
        exact h.name_ne f₀ hf₀
    · rw [names_change hg]
      apply List.Nodup.map_on _ h.nodup
      intro x hx y hy hxy
      rcases hnew with rfl | hnew
      · split at hxy <;> split at hxy <;> simp_all
      · split at hxy
        · split at hxy
          · simp_all
          · exact absurd (hxy ▸ hy) hnew
        · split at hxy
          · exact absurd (hxy ▸ hx) hnew
          · exact hxy
  · cases hchange

include h in
theorem wellFormed_renameField {name newName : String}
    (hrename : t.renameField name newName = .ok t') : WellFormed t'.fields := by
  unfold renameField at hrename
  split at hrename
  · cases hrename
  · next hname =>
    split at hrename
    · cases hrename
    · next htaken =>
      refine wellFormed_change h (g := fun f => { f with name := newName }) (fun _ _ => rfl)
        (by simpa using hname) ?_ hrename
      by_cases heq : newName = name
      · exact .inl heq
      · refine .inr fun hmem => htaken ?_
        rw [Bool.and_eq_true]
        exact ⟨bne_iff_ne.mpr (Ne.symm heq), has_iff.mpr hmem⟩

include h in
theorem wellFormed_setFieldType {name type : String}
    (hset : t.setFieldType name type = .ok t') : WellFormed t'.fields := by
  by_cases hname : name = ""
  · subst hname
    unfold setFieldType change at hset
    split at hset
    · next hhas =>
      obtain ⟨f, hf, hempty⟩ := List.mem_map.mp (has_iff.mp hhas)
      exact absurd hempty (h.name_ne f hf)
    · cases hset
  · exact wellFormed_change h (g := fun f => { f with type }) (fun _ heq => heq) hname (.inl rfl) hset

end Edits

end Table

end SchemaLint
