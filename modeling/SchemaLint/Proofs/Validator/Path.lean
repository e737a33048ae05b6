import SchemaLint.Proofs.Validator.Comment

/-!
# Paths into documents

A field of a document is looked up by its first segment, and a field that is just `_id` is not looked
up at all (`Validator.lookedUp`). The diagnostic of a line lists the names that the table does not
have, each once and in the order in which they are looked up first. So a path is judged like its first
segment alone, unless that is `_id` and the table has no such field: a path into `_id` is listed, and
`_id` itself is not (`Validator.path_judged_as_first_segment_iff`).
-/

namespace SchemaLint

/-- Without the repeats, what is left of a list stands in the order of the first places. -/
theorem pairwise_eraseDups_filter {α : Type} [BEq α] [LawfulBEq α] (p : α → Bool) (as : List α) :
    (as.filter p).eraseDups.Pairwise fun a b => as.idxOf a < as.idxOf b := by
  induction as generalizing p with
  | nil => simp
  | cons c as ih =>
    -- What stands behind the first element moves by one place.
    have hshift : ∀ q : α → Bool, q c = false →
        (as.filter q).eraseDups.Pairwise fun a b => (c :: as).idxOf a < (c :: as).idxOf b := by
      intro q hq
      have hne : ∀ a ∈ (as.filter q).eraseDups, a ≠ c := by
        rintro a ha rfl
        rw [(List.mem_filter.mp (List.mem_eraseDups.mp ha)).2] at hq
        cases hq
      refine (ih q).imp_of_mem fun {a b} ha hb hlt => ?_
      rw [List.idxOf_cons_ne _ (hne a ha).symm, List.idxOf_cons_ne _ (hne b hb).symm]
      exact Nat.succ_lt_succ hlt
    cases hc : p c with
    | false =>
      rw [List.filter_cons_of_neg (by simp [hc])]
      exact hshift p hc
    | true =>
      rw [List.filter_cons_of_pos hc, List.eraseDups_cons, List.filter_filter, List.pairwise_cons]
      refine ⟨fun b hb => ?_, hshift _ (by simp)⟩
      have hne : b ≠ c := by
        rintro rfl
        simpa using (List.mem_filter.mp (List.mem_eraseDups.mp hb)).2
      rw [List.idxOf_cons_self, List.idxOf_cons_ne _ hne.symm]
      exact Nat.succ_pos _

namespace Validator

/-! ## Names looked up -/

/-- What stands in front of the first dot of a path. -/
def firstSegment (path : String) : String :=
  String.ofList (path.toList.takeWhile (· != '.'))

/-- The names under which the fields of a document are looked up. -/
def lookedUp (fields : List String) : List String :=
  (fields.filter (· != "_id")).map firstSegment

variable {t : Table} {fields : List String} {s : String}

theorem mem_lookedUp : s ∈ lookedUp fields ↔ ∃ f ∈ fields, f ≠ "_id" ∧ firstSegment f = s := by
  simp [lookedUp, and_assoc]

theorem unknownFields_eq (t : Table) (fields : List String) :
    unknownFields .mongodb t fields = ((lookedUp fields).filter (!t.has ·)).eraseDups := by
  have hlooked : fields.filterMap (schemaName? .mongodb) = lookedUp fields := by
    induction fields with
    | nil => rfl
    | cons f fields ih =>
      unfold lookedUp at ih ⊢
      by_cases hf : f = "_id"
      · rw [List.filterMap_cons_none (by simp [schemaName?, hf]), ih,
          List.filter_cons_of_neg (by simp [hf])]
      · rw [List.filterMap_cons_some (b := firstSegment f) (by simp [schemaName?, hf, firstSegment]), ih,
          List.filter_cons_of_pos (by simpa using hf), List.map_cons]
  rw [unknownFields, hlooked]

theorem mem_unknownFields :
    s ∈ unknownFields .mongodb t fields ↔ t.has s = false ∧ s ∈ lookedUp fields := by
  rw [unknownFields_eq, List.mem_eraseDups, List.mem_filter, and_comm]
  simp

/-! ## Paths -/

section Path

variable (hs : '.' ∉ s.toList)

include hs

theorem firstSegment_self : firstSegment s = s := by
  have hne : ∀ c ∈ s.toList, (c != '.') = true := by
    rintro c hc
    rw [bne_iff_ne]
    rintro rfl
    exact hs hc
  rw [firstSegment, List.takeWhile_eq_self_iff.mpr hne, String.ofList_toList]

theorem firstSegment_path (rest : String) : firstSegment (s ++ "." ++ rest) = s := by
  have hsplit : (s ++ "." ++ rest).toList = s.toList ++ '.' :: rest.toList := by simp
  have hwhole : s.toList.takeWhile (· != '.') = s.toList := by
    simpa [firstSegment] using congrArg String.toList (firstSegment_self hs)
  rw [firstSegment, hsplit, List.takeWhile_append, hwhole]
  simp

end Path

theorem path_ne_id (s rest : String) : s ++ "." ++ rest ≠ "_id" := by
  intro h
  have hdot : '.' ∈ (s ++ "." ++ rest).toList := by simp
  rw [h] at hdot
  exact absurd hdot (by decide)

/-! ## Diagnostics -/

/-- A diagnostic lists some names, and no others, as names of fields that the schema does not have. -/
def Lists (d : Diagnostic) (names : List String) : Prop :=
  d.issues.filter (·.code == .fieldUnknown) =
    if names.isEmpty then []
    else [.plain .fieldUnknown ("fields not in schema: " ++ ", ".intercalate names)]

theorem code_of_lineIssues {v : Validator} {text : String} {i : Issue} (h : i ∈ v.lineIssues text) :
    i.code = .syntaxViolation := by
  obtain ⟨r, -, rfl⟩ := List.mem_map.mp h
  rfl

theorem code_of_structureIssues {v : Validator} {line : List Char} {i : Issue}
    (h : i ∈ v.structureIssues line) : i.code = .syntaxViolation := by
  unfold structureIssues at h
  split at h
  · obtain ⟨m, -, rfl⟩ := List.mem_map.mp h
    rfl
  · cases h

/-- Fields that the table does not have are listed by the check of the fields only. -/
theorem lists_judge {v : Validator} {line : List Char} (n : Nat)
    (htarget : (footprint v.dialect line).target.bind v.schema.target? = some t) :
    Lists (v.judge n line) (unknownFields v.dialect t (footprint v.dialect line).fields) := by
  obtain ⟨target, hprint, htable⟩ := Option.bind_eq_some_iff.mp htarget
  have hother : ∀ is : List Issue, (∀ i ∈ is, i.code ≠ .fieldUnknown) →
      is.filter (·.code == .fieldUnknown) = [] := by
    intro is h
    rw [List.filter_eq_nil_iff]
    intro i hi
    simpa using h i hi
  have hvalues := hother (v.valueIssues t (footprint v.dialect line)) fun i hi => by
    rw [code_of_valueIssues hi]
    decide
  have hline := hother (v.lineIssues (String.ofList line)) fun i hi => by
    rw [code_of_lineIssues hi]
    decide
  have hstructure := hother (v.structureIssues line) fun i hi => by
    rw [code_of_structureIssues hi]
    decide
  rw [Lists, issues_judge]
  simp only [issues, hprint, htable, String.toList_ofList, List.filter_append, hvalues, hline,
    hstructure, List.append_nil]
  unfold fieldIssues
  cases unknownFields v.dialect t (footprint v.dialect line).fields with
  | nil => rfl
  | cons name names => rfl

/-! ## Paths and their first segments -/

/-- A path at any place among the fields counts as its first segment there, where that is looked up
like any other name or is a field of the table. -/
theorem unknownFields_path (hs : '.' ∉ s.toList) (hid : s ≠ "_id" ∨ t.has s = true)
    (rest : String) (before after : List String) :
    unknownFields .mongodb t (before ++ (s ++ "." ++ rest) :: after) =
      unknownFields .mongodb t (before ++ s :: after) := by
  have hpath : lookedUp ((s ++ "." ++ rest) :: after) = s :: lookedUp after := by
    rw [lookedUp, List.filter_cons_of_pos (by simpa using path_ne_id s rest), List.map_cons,
      firstSegment_path hs, lookedUp]
  have happend : ∀ fields, lookedUp (before ++ fields) = lookedUp before ++ lookedUp fields := by
    simp [lookedUp]
  rw [unknownFields_eq, unknownFields_eq, happend, happend, hpath, List.filter_append,
    List.filter_append]
  by_cases hfield : s = "_id"
  · -- The bare name is passed over, and behind a path the table has it.
    have hhas : t.has s = true := hid.resolve_left fun h => h hfield
    have hbare : lookedUp (s :: after) = lookedUp after := by
      rw [lookedUp, List.filter_cons_of_neg (by simp [hfield]), lookedUp]
    rw [hbare, List.filter_cons_of_neg (by simp [hhas])]
  · have hbare : lookedUp (s :: after) = s :: lookedUp after := by
      rw [lookedUp, List.filter_cons_of_pos (by simpa using hfield), List.map_cons,
        firstSegment_self hs, lookedUp]
    rw [hbare]

theorem mem_unknownFields_of_path (hs : '.' ∉ s.toList) {rest : String}
    (h : s ++ "." ++ rest ∈ fields) :
    s ∈ unknownFields .mongodb t fields ↔ t.has s = false := by
  rw [mem_unknownFields, mem_lookedUp]
  exact and_iff_left ⟨_, h, path_ne_id s rest, firstSegment_path hs rest⟩

theorem mem_unknownFields_of_bare (hs : '.' ∉ s.toList) (h : s ∈ fields) :
    s ∈ unknownFields .mongodb t fields ↔
      t.has s = false ∧ (s ≠ "_id" ∨ ∃ f ∈ fields, f ≠ s ∧ firstSegment f = s) := by
  rw [mem_unknownFields, mem_lookedUp]
  refine and_congr_right fun _ => ⟨?_, ?_⟩
  · rintro ⟨f, hf, hfield, hfirst⟩
    by_cases hne : s = "_id"
    · exact .inr ⟨f, hf, hne ▸ hfield, hfirst⟩
    · exact .inl hne
  · rintro (hne | ⟨f, hf, hne, hfirst⟩)
    · exact ⟨s, h, hne, firstSegment_self hs⟩
    · refine ⟨f, hf, ?_, hfirst⟩
      -- Only the bare name is passed over, and it is its own first segment.
      rintro rfl
      exact hne ((firstSegment_self (s := "_id") (by decide)).symm.trans hfirst)

/-- The diagnostic of a line lists the names looked up that the table does not have, each once and in
the order in which they are looked up first. A path into a field is judged like the field alone if and
only if the field is not `_id`, or is a field of the table, or is named by another path all the same. -/
theorem path_judged_as_first_segment_iff (v : Validator) (t : Table) (hv : v.dialect = .mongodb) :
    (∀ line n, (footprint .mongodb line).target.bind v.schema.target? = some t →
      Lists (v.judge n line) (unknownFields .mongodb t (footprint .mongodb line).fields)) ∧
    (∀ fields,
      (∀ s, s ∈ unknownFields .mongodb t fields ↔ t.has s = false ∧ s ∈ lookedUp fields) ∧
      (unknownFields .mongodb t fields).Pairwise fun a b =>
        (lookedUp fields).idxOf a < (lookedUp fields).idxOf b) ∧
    (∀ s rest before after, '.' ∉ s.toList → s ≠ "_id" ∨ t.has s = true →
      unknownFields .mongodb t (before ++ (s ++ "." ++ rest) :: after) =
        unknownFields .mongodb t (before ++ s :: after)) ∧
    ∀ s rest fields fields', '.' ∉ s.toList → s ++ "." ++ rest ∈ fields → s ∈ fields' →
      ((s ∈ unknownFields .mongodb t fields ↔ s ∈ unknownFields .mongodb t fields') ↔
        s ≠ "_id" ∨ t.has s = true ∨ ∃ f ∈ fields', f ≠ s ∧ firstSegment f = s) := by
  refine ⟨fun line n htarget => ?_, fun fields => ⟨fun s => mem_unknownFields, ?_⟩,
    fun s rest before after hs hid => unknownFields_path hs hid rest before after,
    fun s rest fields fields' hs hpath hbare => ?_⟩
  · have h : Lists (v.judge n line) (unknownFields v.dialect t (footprint v.dialect line).fields) :=
      lists_judge n (by rwa [hv])
    rwa [hv] at h
  · rw [unknownFields_eq]
    exact pairwise_eraseDups_filter _ _
  · rw [mem_unknownFields_of_path hs hpath, mem_unknownFields_of_bare hs hbare]
    cases t.has s with
    | true => simp
    | false => simp

theorem path_into_id_listed :
    let t : Table := .ofFields .mongodb [⟨"name", "String"⟩]
    let v := ofTable .mongodb (Schema.empty.insert "users" t) .builtin true
    let line := "db.users.find(\x7b\"_id.x\": 1, name: 'a'\x7d)".toList
    (footprint .mongodb line).fields = ["_id.x", "name"] ∧
      Lists (v.judge 1 line) ["_id"] ∧
      unknownFields .mongodb t (["name"] ++ "age.years" :: ["age"]) =
        unknownFields .mongodb t (["name"] ++ "age" :: ["age"]) ∧
      ¬("_id" ∈ unknownFields .mongodb t ["_id.x", "name"] ↔
        "_id" ∈ unknownFields .mongodb t ["_id", "name"]) := by
  intro t v line
  obtain ⟨hlists, -, hpath, hiff⟩ := path_judged_as_first_segment_iff v t rfl
  have hread : (footprint .mongodb line).fields = ["_id.x", "name"] := by decide +kernel
  have hunknown : unknownFields .mongodb t ["_id.x", "name"] = ["_id"] := by decide +kernel
  refine ⟨hread, ?_, hpath "age" "years" _ _ (by decide) (.inl (by decide)), ?_⟩
  · have h := hlists line 1 (by decide +kernel)
    rwa [hread, hunknown] at h
  · rw [hiff "_id" "x" ["_id.x", "name"] ["_id", "name"] (by decide) (by decide) (by decide)]
    decide +kernel

end Validator

end SchemaLint
