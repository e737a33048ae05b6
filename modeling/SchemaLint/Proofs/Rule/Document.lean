import Mathlib.Data.List.Duplicate
import SchemaLint.Proofs.Json.RoundTrip
import SchemaLint.Rule.Store

/-!
# Tables of rules and their documents

A table has distinct ids when no bucket holds an id twice (`RuleTable.DistinctIds`). Such a table
comes back from its document with the same buckets (`ofDocument_toDocument`), and what any document
holds is such a table (`distinctIds_ofDocument`), as is what an edit makes of one
(`DistinctIds.edit`). The document of any other table is refused, and a repeated id is named
(`exists_repeated?`).
-/

namespace SchemaLint

open Json (Canonical mapM_map_of_readBack)

/-! ## Rules -/

theorem Severity.ofName?_name (s : Severity) : Severity.ofName? s.name = some s := by
  cases s <;> rfl

theorem ValueKind.ofName?_name (k : ValueKind) : ValueKind.ofName? k.name = some k := by
  cases k <;> rfl

namespace Rule

theorem canonical_toJson (r : Rule) : Canonical r.toJson := by
  refine .ofKeys (fun v hv => ?_) (by decide)
  simp only [List.mem_cons, List.not_mem_nil, or_false] at hv
  rcases hv with rfl | rfl | rfl | rfl | rfl | rfl <;> exact .string _

/-- A rule is what its document means. -/
theorem ofJson?_toJson (r : Rule) : ofJson? r.toJson = some r := by
  have hrecord : r.toJson.record? keys = some [some (.ofString r.id), some (.ofString r.name),
      some (.ofString r.description), some (.ofString r.pattern), some (.ofString r.message),
      some (.ofString r.severity.name)] := rfl
  have hseverity : (Json.Value.ofString r.severity.name).name?.bind Severity.ofName? =
      some r.severity := r.severity.ofName?_name
  unfold ofJson?
  rw [hrecord]
  simp only [Option.bind_eq_bind, Option.bind_some, hseverity]
  rfl

end Rule

namespace RuleTable

/-! ## Sections -/

/-- A bucket as a member of its section. -/
def bucketJson (b : ValueKind × List Rule) : String × Json.Value :=
  (b.1.name, .array (b.2.map Rule.toJson))

theorem bucketOfJson?_bucketJson (b : ValueKind × List Rule) :
    bucketOfJson? (some (bucketJson b).1, (bucketJson b).2) = some b := by
  have hrules := mapM_map_of_readBack fun (r : Rule) (_ : r ∈ b.2) => r.ofJson?_toJson
  simp only [bucketJson, bucketOfJson?, ValueKind.ofName?_name, Json.Value.items?, hrules,
    Option.bind_eq_bind, Option.bind_some]
  rfl

/-- A section is read back as the buckets of its dialect. -/
theorem sectionOfJson?_sectionJson (t : RuleTable) (d : Dialect) :
    sectionOfJson? (t.sectionJson d) = some (t.buckets d) := by
  have hmembers : (t.sectionJson d).members? =
      some ((t.buckets d).map fun b => (some (bucketJson b).1, (bucketJson b).2)) := by
    simp [sectionJson, bucketJson, Json.Value.ofMembers, Json.Value.members?]
  unfold sectionOfJson?
  rw [hmembers, Option.bind_some, mapM_map_of_readBack fun b _ => bucketOfJson?_bucketJson b]

theorem find?_buckets (t : RuleTable) (d : Dialect) (k : ValueKind) (kinds : List ValueKind) :
    ((kinds.filterMap fun k => (t.bucket? d k).map fun rules => (k, rules)).find? (·.1 == k)).map
      (·.2) = if k ∈ kinds then t.bucket? d k else none := by
  induction kinds with
  | nil => rfl
  | cons k' kinds ih =>
    rw [List.filterMap_cons]
    by_cases hk : k' = k
    · subst hk
      cases hb : t.bucket? d k' with
      | none =>
        rw [hb] at ih
        simp only [Option.map_none, ih, ite_self]
      | some rules => simp
    · have hne : ¬ k = k' := fun h => hk h.symm
      cases hb : t.bucket? d k' with
      | none => simp only [Option.map_none, ih, List.mem_cons, hne, false_or]
      | some rules =>
        rw [Option.map_some, List.find?_cons_of_neg (by simpa using hk), ih]
        simp [hne]

theorem mem_all (k : ValueKind) : k ∈ ValueKind.all := by
  cases k <;> decide

/-- The buckets of a table make the table, absent ones included. -/
theorem ofSections_eq {t : RuleTable} {sections : Dialect → List (ValueKind × List Rule)}
    (h : ∀ d, sections d = t.buckets d) : ofSections sections = t := by
  ext1
  funext d k
  change ((sections d).find? (·.1 == k)).map (·.2) = t.bucket? d k
  rw [h, buckets, find?_buckets, if_pos (mem_all k)]

/-! ## Distinct ids -/

/-- No bucket holds an id twice. -/
def DistinctIds (t : RuleTable) : Prop :=
  ∀ d k, ((t.rules d k).map (·.id)).Nodup

theorem firstRepeated?_eq_none {seen : List String} {rules : List Rule} :
    firstRepeated? seen rules = none ↔
      (rules.map (·.id)).Nodup ∧ ∀ r ∈ rules, r.id ∉ seen := by
  induction rules generalizing seen with
  | nil => simp [firstRepeated?]
  | cons r rules ih =>
    rw [firstRepeated?]
    split
    · next hseen =>
      constructor
      · intro h
        cases h
      · intro h
        exact absurd (List.contains_iff_mem.mp hseen) (h.2 r List.mem_cons_self)
    · next hnew =>
      have hr : r.id ∉ seen := fun hmem => hnew (List.contains_iff_mem.mpr hmem)
      rw [ih, List.map_cons, List.nodup_cons]
      constructor
      · rintro ⟨hnodup, hdisj⟩
        refine ⟨⟨fun hmem => ?_, hnodup⟩, fun x hx => ?_⟩
        · obtain ⟨x, hx, heq⟩ := List.mem_map.mp hmem
          exact hdisj x hx (heq ▸ List.mem_cons_self)
        · rcases List.mem_cons.mp hx with rfl | hx
          · exact hr
          · exact fun hmem => hdisj x hx (List.mem_cons_of_mem _ hmem)
      · rintro ⟨⟨hfresh, hnodup⟩, hdisj⟩
        refine ⟨hnodup, fun x hx hmem => ?_⟩
        rcases List.mem_cons.mp hmem with heq | hmem
        · exact hfresh (heq ▸ List.mem_map_of_mem hx)
        · exact hdisj x (List.mem_cons_of_mem r hx) hmem

theorem mem_buckets {t : RuleTable} {d : Dialect} {b : ValueKind × List Rule} :
    b ∈ t.buckets d ↔ t.bucket? d b.1 = some b.2 := by
  rw [buckets, List.mem_filterMap]
  constructor
  · rintro ⟨k, -, hk⟩
    obtain ⟨rules, hrules, rfl⟩ := Option.map_eq_some_iff.mp hk
    exact hrules
  · intro h
    exact ⟨b.1, mem_all b.1, by rw [h]; rfl⟩

theorem distinctIds_iff {t : RuleTable} :
    t.DistinctIds ↔ ∀ d, ∀ b ∈ t.buckets d, (b.2.map (·.id)).Nodup := by
  constructor
  · intro h d b hb
    have := h d b.1
    rwa [rules, mem_buckets.mp hb] at this
  · intro h d k
    rw [rules]
    cases hb : t.bucket? d k with
    | none => exact List.nodup_nil
    | some rules => exact h d (k, rules) (mem_buckets.mpr hb)

/-- Nothing is said against a table just when its ids are distinct. -/
theorem repeated?_eq_none {t : RuleTable} : t.repeated? = none ↔ t.DistinctIds := by
  have hall : ∀ d, d ∈ Dialect.all := fun d => by cases d <;> decide
  rw [distinctIds_iff, repeated?, List.findSome?_eq_none_iff]
  constructor
  · intro h d b hb
    have hd := List.findSome?_eq_none_iff.mp (h d (hall d)) b hb
    exact (firstRepeated?_eq_none.mp (Option.map_eq_none_iff.mp hd)).1
  · intro h d _
    rw [List.findSome?_eq_none_iff]
    intro b hb
    rw [Option.map_eq_none_iff, firstRepeated?_eq_none]
    exact ⟨h d b hb, by simp⟩

/-- An id that is found to be repeated was seen before or stands twice. -/
theorem firstRepeated?_eq_some {seen : List String} {rules : List Rule} {id : String}
    (h : firstRepeated? seen rules = some id) :
    (id ∈ seen ∧ id ∈ rules.map (·.id)) ∨ (rules.map (·.id)).Duplicate id := by
  induction rules generalizing seen with
  | nil => cases h
  | cons r rules ih =>
    rw [firstRepeated?] at h
    rw [List.map_cons]
    split at h
    · next hseen =>
      obtain rfl : r.id = id := Option.some.inj h
      exact .inl ⟨List.contains_iff_mem.mp hseen, List.mem_cons_self⟩
    · rcases ih h with ⟨hseen, hmem⟩ | hdup
      · rcases List.mem_cons.mp hseen with rfl | hseen
        · exact .inr (.cons_mem hmem)
        · exact .inl ⟨hseen, List.mem_cons_of_mem _ hmem⟩
      · exact .inr (.cons_duplicate hdup)

/-- What is said against a table whose ids are not distinct names an id and a bucket that holds it
twice. -/
theorem exists_repeated? {t : RuleTable} (h : ¬ t.DistinctIds) :
    ∃ id d k, t.repeated? = some (.duplicateId id d k) ∧
      ((t.rules d k).map (·.id)).Duplicate id := by
  have hsome : t.repeated? ≠ none := fun hnone => h (repeated?_eq_none.mp hnone)
  obtain ⟨e, he⟩ := Option.ne_none_iff_exists'.mp hsome
  obtain ⟨d, -, hd⟩ := List.exists_of_findSome?_eq_some he
  obtain ⟨⟨k, rules⟩, hb, hk⟩ := List.exists_of_findSome?_eq_some hd
  obtain ⟨id, hid, rfl⟩ := Option.map_eq_some_iff.mp hk
  refine ⟨id, d, k, he, ?_⟩
  rw [RuleTable.rules, mem_buckets.mp hb, Option.getD_some]
  exact (firstRepeated?_eq_some hid).resolve_left fun hseen => absurd hseen.1 List.not_mem_nil

/-! ## Writing and reading back -/

/-- The value that a table is written as. -/
def toJson (t : RuleTable) : Json.Value :=
  .ofMembers (Dialect.all.map fun d => (d.name, t.sectionJson d))

theorem buckets_sublist (t : RuleTable) (d : Dialect) (kinds : List ValueKind) :
    ((kinds.filterMap fun k => (t.bucket? d k).map fun rules => (k, rules)).map (·.1)).Sublist
      kinds := by
  induction kinds with
  | nil => exact List.Sublist.slnil
  | cons k kinds ih =>
    rw [List.filterMap_cons]
    cases t.bucket? d k with
    | none => exact ih.cons k
    | some rules => exact ih.cons_cons k

theorem canonical_sectionJson (t : RuleTable) (d : Dialect) : Canonical (t.sectionJson d) := by
  refine .object (fun m hm => ?_) ?_
  · obtain ⟨b, -, rfl⟩ := List.mem_map.mp hm
    refine .array fun v hv => ?_
    obtain ⟨r, -, rfl⟩ := List.mem_map.mp hv
    exact r.canonical_toJson
  · rw [List.map_map]
    have hnames : (ValueKind.all.map ValueKind.name).Nodup := by decide
    have hsub := (t.buckets_sublist d ValueKind.all).map ValueKind.name
    rw [List.map_map] at hsub
    exact hnames.sublist hsub

theorem canonical_toJson (t : RuleTable) : Canonical t.toJson := by
  refine .object (fun m hm => ?_) ?_
  · obtain ⟨d, -, rfl⟩ := List.mem_map.mp hm
    exact t.canonical_sectionJson d
  · change ["MySQL", "MongoDB"].Nodup
    decide

theorem depth_toJson_le (t : RuleTable) : t.toJson.depth ≤ Json.Value.maxDepth := by
  have hdepth : t.toJson.depth ≤ 4 := by
    refine Json.depth_ofMembers_le fun m hm => ?_
    obtain ⟨d, -, rfl⟩ := List.mem_map.mp hm
    refine Json.depth_ofMembers_le fun m hm => ?_
    obtain ⟨b, -, rfl⟩ := List.mem_map.mp hm
    refine Json.depth_array_le fun v hv => ?_
    obtain ⟨r, -, rfl⟩ := List.mem_map.mp hv
    exact Nat.le_refl 1
  exact Nat.le_trans hdepth (by decide)

/-- A document is read back as its table unless something is said against that table. -/
theorem ofDocument_toDocument_eq (t : RuleTable) :
    ofDocument t.toDocument = t.repeated?.elim (.ok t) .error := by
  have hread : Json.readDocument? t.toDocument = some t.toJson :=
    Json.readDocument?_write t.canonical_toJson t.depth_toJson_le
  have hmysql : t.toJson.get? Dialect.mysql.name = some (t.sectionJson .mysql) := rfl
  have hmongodb : t.toJson.get? Dialect.mongodb.name = some (t.sectionJson .mongodb) := rfl
  have hobject : t.toJson.members?.isNone = false := rfl
  unfold ofDocument
  rw [hread]
  simp only [hobject, hmysql, hmongodb, ofValues, sectionOfJson?_sectionJson]
  rw [ofSections_eq (t := t) (fun d => by cases d <;> rfl)]
  cases t.repeated? <;> rfl

/-- A table with distinct ids comes back from its document, absent buckets included. -/
theorem ofDocument_toDocument {t : RuleTable} (h : t.DistinctIds) :
    ofDocument t.toDocument = .ok t := by
  rw [ofDocument_toDocument_eq, repeated?_eq_none.mpr h, Option.elim_none]

/-- What a document holds has distinct ids. -/
theorem distinctIds_ofDocument {document : String} {t : RuleTable}
    (h : ofDocument document = .ok t) : t.DistinctIds := by
  unfold ofDocument at h
  split at h
  · cases h
  split at h
  · cases h
  split at h
  · cases h
  · cases h
  · unfold ofValues at h
    split at h
    · dsimp only at h
      split at h
      · cases h
      · next hnone =>
        cases h
        exact repeated?_eq_none.mp hnone
    · cases h

/-- A table with distinct ids comes back from its document as it was, every document that is read
gives such a table, and the document of any other table is refused for an id that stands twice in a
bucket. -/
theorem documents_keep_distinctIds :
    (∀ t : RuleTable, t.DistinctIds → ofDocument t.toDocument = .ok t) ∧
      (∀ document t, ofDocument document = .ok t → t.DistinctIds) ∧
      ∀ t : RuleTable, ¬ t.DistinctIds → ∃ id d k,
        ofDocument t.toDocument = .error (.duplicateId id d k) ∧
          ((t.rules d k).map (·.id)).Duplicate id := by
  refine ⟨fun t => ofDocument_toDocument, fun _ t => distinctIds_ofDocument, fun t h => ?_⟩
  obtain ⟨id, d, k, hrepeated, hdup⟩ := exists_repeated? h
  refine ⟨id, d, k, ?_, hdup⟩
  rw [ofDocument_toDocument_eq, hrepeated, Option.elim_some]

/-- A table with an empty bucket and a rule that needs escapes, and the table in which that rule
stands twice. -/
theorem documents_keep_distinctIds_escaped :
    let rule : Rule :=
      { id := "\"1\"", name := "\t", description := "", pattern := "^\\d+\\.\\S$", message := "\x01é"
        severity := .warning }
    let once := (empty.put .mysql .string [rule]).put .mongodb .line []
    let twice := once.put .mongodb .line [rule, rule]
    once.DistinctIds ∧ ofDocument once.toDocument = .ok once ∧ ¬ twice.DistinctIds ∧
      ∃ id d k, ofDocument twice.toDocument = .error (.duplicateId id d k) ∧
        ((twice.rules d k).map (·.id)).Duplicate id := by
  intro rule once twice
  obtain ⟨hkeeps, hdistinct, hrefuses⟩ := documents_keep_distinctIds
  have honce : once.DistinctIds := by
    intro d k
    cases d <;> cases k <;> simp [once, rules, put, empty]
  have htwice : ¬ twice.DistinctIds := by
    intro h
    have hline := h .mongodb .line
    simp [twice, rules, put] at hline
  have hread := hkeeps once honce
  exact ⟨hdistinct _ once hread, hread, htwice, hrefuses twice htwice⟩

/-! ## Edits -/

theorem distinctIds_empty : empty.DistinctIds := fun _ _ => List.nodup_nil

theorem distinctIds_builtin : builtin.DistinctIds := by
  intro d k
  cases d <;> cases k <;> decide

theorem rules_put (t : RuleTable) (d d' : Dialect) (k k' : ValueKind) (rules : List Rule) :
    (t.put d k rules).rules d' k' = if d' = d ∧ k' = k then rules else t.rules d' k' := by
  unfold RuleTable.rules put
  dsimp only
  split <;> rfl

section Edits

variable {t : RuleTable} (h : t.DistinctIds) (d : Dialect) (k : ValueKind)

include h in
/-- A bucket with distinct ids may be put in place of any other. -/
theorem DistinctIds.put {rules : List Rule} (hrules : (rules.map (·.id)).Nodup) :
    (t.put d k rules).DistinctIds := by
  intro d' k'
  rw [rules_put]
  split
  · exact hrules
  · exact h d' k'

theorem has_iff {id : String} : t.has d k id = true ↔ id ∈ (t.rules d k).map (·.id) := by
  simp [has]

include h in
theorem DistinctIds.add {r : Rule} {t' : RuleTable} (hadd : t.add d k r = .ok t') :
    t'.DistinctIds := by
  unfold RuleTable.add at hadd
  split at hadd
  · cases hadd
  · next hnew =>
    cases hadd
    refine h.put d k ?_
    rw [List.map_append, List.map_singleton, List.nodup_append]
    refine ⟨h d k, List.nodup_singleton _, ?_⟩
    rintro a ha b hb rfl
    rw [List.mem_singleton.mp hb] at ha
    exact hnew ((has_iff d k).mpr ha)

include h in
theorem DistinctIds.replace {r : Rule} {t' : RuleTable} (hreplace : t.replace d k r = .ok t') :
    t'.DistinctIds := by
  unfold RuleTable.replace at hreplace
  split at hreplace
  · cases hreplace
    refine h.put d k ?_
    -- The rule that is replaced has the id of the new one, so the ids stay as they are.
    have hids : ((t.rules d k).map fun old => if old.id == r.id then r else old).map (·.id) =
        (t.rules d k).map (·.id) := by
      rw [List.map_map]
      refine List.map_congr_left fun old _ => ?_
      by_cases hold : old.id = r.id
      · simp [hold]
      · simp [hold]
    rw [hids]
    exact h d k
  · cases hreplace

include h in
theorem DistinctIds.remove {id : String} {t' : RuleTable} (hremove : t.remove d k id = .ok t') :
    t'.DistinctIds := by
  unfold RuleTable.remove at hremove
  split at hremove
  · cases hremove
    exact h.put d k ((h d k).sublist (List.filter_sublist.map _))
  · cases hremove

include h in
/-- An edit of a table with distinct ids makes such a table. -/
theorem DistinctIds.edit {e : RuleEdit} {t' : RuleTable} (hedit : t.edit e = .ok t') :
    t'.DistinctIds := by
  cases e with
  | reset =>
    cases hedit
    exact distinctIds_builtin
  | add d k rule => exact h.add d k hedit
  | update d k rule => exact h.replace d k hedit
  | remove d k id => exact h.remove d k hedit

end Edits

end RuleTable

end SchemaLint
