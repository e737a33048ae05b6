import SchemaLint.Proofs.Schema.Field

/-!
# Merged fields

Merging several lists one after another is the same as merging what the later ones merge to
(`merge_assoc`): a field that is not added to a list for its name is not added to any list with the
same names either. In merged fields each name is looked up in the first list and then in the second
(`find?_merge`), and the second list adds its fields with new names, in their order
(`merge_eq_append`).
-/

namespace SchemaLint.Field

variable {fields more : List Field} {f : Field} {name : String}

theorem isNew_iff : isNew fields f = true ↔ f.name ≠ "" ∧ f.name ∉ names fields := by
  rw [isNew, Bool.and_eq_true, bne_iff_ne, Bool.not_eq_true', ← Bool.not_eq_true, has_iff]

theorem add_of_isNew (h : isNew fields f = true) : add fields f = fields ++ [f] :=
  if_pos h

theorem add_of_not_isNew (h : ¬isNew fields f = true) : add fields f = fields :=
  if_neg h

theorem merge_append (fields more further : List Field) :
    merge fields (more ++ further) = merge (merge fields more) further :=
  List.foldl_append

/-! ## Names -/

theorem mem_names_add :
    name ∈ names (add fields f) ↔ name ∈ names fields ∨ name ≠ "" ∧ name = f.name := by
  by_cases hnew : isNew fields f = true
  · rw [add_of_isNew hnew, names, List.map_append, List.mem_append, List.map_singleton,
      List.mem_singleton]
    apply or_congr_right
    constructor
    · rintro rfl
      exact ⟨(isNew_iff.mp hnew).1, rfl⟩
    · exact And.right
  · rw [add_of_not_isNew hnew]
    refine (or_iff_left_of_imp ?_).symm
    rintro ⟨hname, rfl⟩
    by_contra hmem
    exact hnew (isNew_iff.mpr ⟨hname, hmem⟩)

theorem mem_names_merge :
    name ∈ names (merge fields more) ↔ name ∈ names fields ∨ name ≠ "" ∧ name ∈ names more := by
  induction more generalizing fields with
  | nil => simp [merge, names]
  | cons f more ih =>
    change name ∈ names (merge (add fields f) more) ↔ _
    have hcons : name ∈ names (f :: more) ↔ name = f.name ∨ name ∈ names more := List.mem_cons
    rw [ih, mem_names_add, hcons]
    tauto

/-! ## Merging in turn -/

theorem add_merge (fields more : List Field) (f : Field) :
    add (merge fields more) f = merge fields (add more f) := by
  by_cases hnew : isNew more f = true
  · rw [add_of_isNew hnew, merge_append]
    rfl
  · rw [add_of_not_isNew hnew, add_of_not_isNew]
    intro hmerged
    obtain ⟨hname, hmem⟩ := isNew_iff.mp hmerged
    rw [mem_names_merge, not_or] at hmem
    exact hnew (isNew_iff.mpr ⟨hname, fun hin => hmem.2 ⟨hname, hin⟩⟩)

theorem merge_assoc (fields more further : List Field) :
    merge (merge fields more) further = merge fields (merge more further) := by
  induction further generalizing more with
  | nil => rfl
  | cons f further ih =>
    calc merge (merge fields more) (f :: further)
      _ = merge (add (merge fields more) f) further := rfl
      _ = merge (merge fields (add more f)) further := by rw [add_merge]
      _ = merge fields (merge (add more f) further) := ih (add more f)

/-! ## What is found -/

theorem find?_add (hname : f.name ≠ "") (name : String) :
    find? (add fields f) name = (find? fields name).or (find? [f] name) := by
  by_cases hnew : isNew fields f = true
  · rw [add_of_isNew hnew]
    exact List.find?_append
  · rw [add_of_not_isNew hnew]
    by_cases hf : f.name = name
    · have hmem : name ∈ names fields := by
        by_contra hmem
        exact hnew (isNew_iff.mpr ⟨hname, hf ▸ hmem⟩)
      have hfound : (find? fields name).isSome = true := by
        rw [find?, List.find?_isSome]
        obtain ⟨g, hg, hgname⟩ := List.mem_map.mp hmem
        exact ⟨g, hg, beq_iff_eq.mpr hgname⟩
      exact (Option.or_of_isSome hfound).symm
    · simp [find?, hf]

/-- A name is looked up in the first fields, and in the other ones if they do not have it. -/
theorem find?_merge (hmore : ∀ f ∈ more, f.name ≠ "") (name : String) :
    find? (merge fields more) name = (find? fields name).or (find? more name) := by
  induction more generalizing fields with
  | nil => simp [merge, find?]
  | cons f more ih =>
    obtain ⟨hname, hrest⟩ := List.forall_mem_cons.mp hmore
    calc find? (merge fields (f :: more)) name
      _ = (find? (add fields f) name).or (find? more name) := ih hrest
      _ = ((find? fields name).or (find? [f] name)).or (find? more name) := by rw [find?_add hname]
      _ = (find? fields name).or ((find? [f] name).or (find? more name)) := Option.or_assoc
      _ = (find? fields name).or (find? (f :: more) name) := by
        congr 1
        exact List.find?_append.symm

/-- Well-formed fields add those of them whose names are new, in their order. -/
theorem merge_eq_append (h : WellFormed more) :
    merge fields more = fields ++ more.filter (·.name ∉ names fields) := by
  induction more generalizing fields with
  | nil => simp [merge]
  | cons f more ih =>
    have hname : f.name ≠ "" := h.name_ne f List.mem_cons_self
    have hrest : WellFormed more :=
      ⟨fun g hg => h.name_ne g (List.mem_cons_of_mem f hg), (List.nodup_cons.mp h.nodup).2⟩
    have hlater : ∀ g ∈ more, g.name ≠ f.name := by
      intro g hg heq
      exact (List.nodup_cons.mp h.nodup).1 (List.mem_map.mpr ⟨g, hg, heq⟩)
    change merge (add fields f) more = _
    rw [ih hrest]
    by_cases hmem : f.name ∈ names fields
    · have hold : ¬isNew fields f = true := fun hnew => (isNew_iff.mp hnew).2 hmem
      rw [add_of_not_isNew hold, List.filter_cons_of_neg (by simpa using hmem)]
    · rw [add_of_isNew (isNew_iff.mpr ⟨hname, hmem⟩), List.filter_cons_of_pos (by simpa using hmem),
        List.append_assoc, List.singleton_append]
      congr 2
      refine List.filter_congr fun g hg => ?_
      simp [names, hlater g hg]

/-- Adding fields with names in turn keeps the first field of each name. -/
theorem merge_eq_eraseDupsBy (h : ∀ f ∈ more, f.name ≠ "") :
    merge [] more = more.eraseDupsBy fun f g => f.name == g.name := by
  -- The fields that are kept already are held in reverse.
  suffices hloop : ∀ kept : List Field, merge kept.reverse more =
      List.eraseDupsBy.loop (fun f g => f.name == g.name) more kept from hloop []
  induction more with
  | nil => exact fun kept => rfl
  | cons f more ih =>
    obtain ⟨hname, hrest⟩ := List.forall_mem_cons.mp h
    intro kept
    have hnew : isNew kept.reverse f = !kept.any fun g => f.name == g.name := by
      rw [isNew, has, List.any_reverse, bne_iff_ne.mpr hname, Bool.true_and]
      exact congrArg (!kept.any ·) (funext fun g => Bool.beq_comm)
    change merge (add kept.reverse f) more = _
    rw [List.eraseDupsBy.loop]
    cases htaken : kept.any fun g => f.name == g.name with
    | true =>
      rw [add_of_not_isNew (by rw [hnew, htaken]; decide)]
      exact ih hrest kept
    | false =>
      rw [add_of_isNew (by rw [hnew, htaken]; decide), ← List.reverse_cons]
      exact ih hrest (f :: kept)

end SchemaLint.Field
