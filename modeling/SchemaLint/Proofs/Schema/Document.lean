import SchemaLint.Proofs.Json.RoundTrip
import SchemaLint.Proofs.Schema.Field
import SchemaLint.Schema.Store

/-!
# Schemas and their documents

A schema is well-formed when the fields of all its tables are (`Schema.WellFormed`). A well-formed
schema comes back from its document (`ofDocument_toDocument`), and what any document holds is
well-formed (`wellFormed_ofDocument`), as is what an edit makes of a well-formed schema
(`WellFormed.edit`).
-/

namespace SchemaLint

open Json (Canonical)

/-! ## Fields and tables -/

theorem Field.canonical_toJson (f : Field) : Canonical f.toJson := by
  refine .object (fun m hm => ?_) ?_
  · rcases List.mem_cons.mp hm with rfl | hm
    · exact .string _
    · rw [List.mem_singleton.mp hm]
      exact .string _
  · change ["name", "type"].Nodup
    decide

theorem Field.ofJson?_toJson (f : Field) : Field.ofJson? f.toJson = some f :=
  rfl

theorem Table.canonical_toJson (t : Table) : Canonical t.toJson := by
  refine .object (fun m hm => ?_) ?_
  · rcases List.mem_cons.mp hm with rfl | hm
    · exact .string _
    · rw [List.mem_singleton.mp hm]
      refine .array fun v hv => ?_
      obtain ⟨f, -, rfl⟩ := List.mem_map.mp hv
      exact f.canonical_toJson
  · change ["type", "fields"].Nodup
    decide

theorem Table.depth_toJson_le (t : Table) : t.toJson.depth ≤ 3 := by
  refine Json.depth_ofMembers_le fun m hm => ?_
  rcases List.mem_cons.mp hm with rfl | hm
  · exact Nat.zero_le _
  · rw [List.mem_singleton.mp hm]
    refine Json.depth_array_le fun v hv => ?_
    obtain ⟨f, -, rfl⟩ := List.mem_map.mp hv
    exact Nat.le_refl 1

theorem Dialect.read?_name (d : Dialect) : Dialect.read? d.name = some d := by
  cases d <;> rfl

/-- A table with well-formed fields is what its document means. -/
theorem Table.ofJson?_toJson {t : Table} (h : Field.WellFormed t.fields) :
    Table.ofJson? t.toJson = some t := by
  have hfields : t.toJson.get? "fields" = some (.array (t.fields.map Field.toJson)) := rfl
  have htype : t.toJson.get? "type" = some (.ofString t.dialect.name) := rfl
  have hall : (t.fields.map Field.toJson).filterMap Field.ofJson? = t.fields := by
    rw [List.filterMap_map, List.filterMap_congr fun f _ =>
      show (Field.ofJson? ∘ Field.toJson) f = some f from f.ofJson?_toJson]
    exact List.filterMap_some
  unfold ofJson?
  simp only [hfields, htype, Option.bind_eq_bind, Option.bind_some, Json.Value.items?, hall]
  simp only [Json.Value.ofString, Json.Value.string?, Dialect.read?_name, Option.bind_some,
    ofFields_fields h]
  rfl

theorem Table.wellFormed_ofJson? {v : Json.Value} {t : Table} (h : Table.ofJson? v = some t) :
    Field.WellFormed t.fields := by
  unfold ofJson? at h
  simp only [Option.bind_eq_bind, Option.bind_eq_some_iff, Option.pure_def] at h
  obtain ⟨_, _, _, _, h⟩ := h
  split at h
  · obtain ⟨d, -, heq⟩ := Option.bind_eq_some_iff.mp h
    rw [← Option.some.inj heq]
    exact wellFormed_ofFields d _
  · rw [← Option.some.inj h]
    exact wellFormed_ofFields _ _

/-! ## Schemas -/

namespace Schema

/-- The fields of every table are well-formed. -/
def WellFormed (s : Schema) : Prop :=
  ∀ t ∈ s.tables, Field.WellFormed t.2.fields

theorem wellFormed_empty : WellFormed empty := by
  simp [WellFormed, empty]

theorem WellFormed.insert {s : Schema} (h : s.WellFormed) (name : String) {t : Table}
    (ht : Field.WellFormed t.fields) : (s.insert name t).WellFormed :=
  NamedTable.forall_mem_insert (P := fun t => Field.WellFormed t.2.fields) h ht

theorem eq_of_tables_eq {s s' : Schema} (h : s.tables = s'.tables) : s = s' := by
  cases s
  cases s'
  congr

/-! ### Writing and reading back -/

/-- The value that a schema is written as. -/
def toJson (s : Schema) : Json.Value :=
  .ofMembers (s.tables.map fun (name, t) => (name, t.toJson))

theorem canonical_toJson (s : Schema) : Canonical s.toJson := by
  refine .object (fun m hm => ?_) ?_
  · obtain ⟨t, -, rfl⟩ := List.mem_map.mp hm
    exact t.2.canonical_toJson
  · rw [List.map_map]
    have hnames : s.tables.Pairwise fun a b => a.1 ≠ b.1 :=
      s.ascending.imp fun hlt => String.ne_of_lt hlt
    exact List.pairwise_map.mpr hnames

theorem depth_toJson_le (s : Schema) : s.toJson.depth ≤ Json.Value.maxDepth := by
  have hdepth : s.toJson.depth ≤ 4 := by
    refine Json.depth_ofMembers_le fun m hm => ?_
    obtain ⟨t, -, rfl⟩ := List.mem_map.mp hm
    exact t.2.depth_toJson_le
  exact Nat.le_trans hdepth (by decide)

/-- A name above all others goes to the end. -/
theorem insert_of_forall_lt {name : String} {t : Table} {tables : List NamedTable}
    (h : ∀ x ∈ tables, x.1 < name) : NamedTable.insert name t tables = tables ++ [(name, t)] := by
  induction tables with
  | nil => rfl
  | cons x rest ih =>
    have hx : x.1 < name := h x List.mem_cons_self
    rw [NamedTable.insert, if_neg (Ne.symm (String.ne_of_lt hx)), if_neg (String.lt_asymm hx),
      ih fun y hy => h y (List.mem_cons_of_mem x hy), List.cons_append]

/-- Inserting ascending tables one after the other gives all of them in order. -/
theorem foldl_insertEntry (tables : List NamedTable) (s : Schema)
    (hasc : NamedTable.Ascending (s.tables ++ tables))
    (hwell : ∀ t ∈ tables, Field.WellFormed t.2.fields) :
    ((tables.map fun (name, t) => ((some name : Json.Text), t.toJson)).foldl insertEntry s).tables =
      s.tables ++ tables := by
  induction tables generalizing s with
  | nil => simp
  | cons x rest ih =>
    have hlt : ∀ y ∈ s.tables, y.1 < x.1 := fun y hy =>
      (List.pairwise_append.mp hasc).2.2 y hy x List.mem_cons_self
    have hinsert : insertEntry s (some x.1, x.2.toJson) = s.insert x.1 x.2 := by
      rw [insertEntry, Table.ofJson?_toJson (hwell x List.mem_cons_self)]
      rfl
    have htables : (s.insert x.1 x.2).tables = s.tables ++ [x] := insert_of_forall_lt hlt
    have hshape : s.tables ++ x :: rest = (s.insert x.1 x.2).tables ++ rest := by
      rw [htables, List.append_assoc, List.singleton_append]
    rw [List.map_cons, List.foldl_cons, hinsert, hshape]
    exact ih _ (hshape ▸ hasc) fun t ht => hwell t (List.mem_cons_of_mem x ht)

/-- A well-formed schema comes back from its document. -/
theorem ofDocument_toDocument {s : Schema} (h : s.WellFormed) : ofDocument s.toDocument = .ok s := by
  have hread : Json.readDocument? s.toDocument = some s.toJson :=
    Json.readDocument?_write s.canonical_toJson s.depth_toJson_le
  have hmembers : s.toJson.members? =
      some (s.tables.map fun (name, t) => ((some name : Json.Text), t.toJson)) := by
    simp [toJson, Json.Value.ofMembers, Json.Value.members?]
  have htables := foldl_insertEntry s.tables empty s.ascending h
  unfold ofDocument
  rw [hread]
  simp only [hmembers]
  exact congrArg Except.ok (eq_of_tables_eq htables)

theorem wellFormed_foldl_insertEntry (entries : List (Json.Text × Json.Value)) {s : Schema}
    (h : s.WellFormed) : (entries.foldl insertEntry s).WellFormed := by
  induction entries generalizing s with
  | nil => exact h
  | cons e entries ih =>
    refine ih ?_
    obtain ⟨_ | name, v⟩ := e
    · exact h
    · rw [insertEntry]
      cases ht : Table.ofJson? v with
      | none => exact h
      | some t => exact h.insert name (Table.wellFormed_ofJson? ht)

/-- What a document holds is well-formed. -/
theorem wellFormed_ofDocument {document : String} {s : Schema} (h : ofDocument document = .ok s) :
    s.WellFormed := by
  unfold ofDocument at h
  split at h
  · cases h
  · split at h
    · cases h
      exact wellFormed_foldl_insertEntry _ wellFormed_empty
    · cases h

/-- A well-formed schema comes back from its document as it was, and every document that is read
gives a well-formed schema, whose own document is the same after it is read and written again. -/
theorem documents_keep_wellFormed :
    (∀ s : Schema, s.WellFormed → ofDocument s.toDocument = .ok s) ∧
      ∀ document s, ofDocument document = .ok s →
        s.WellFormed ∧
          ∃ s', ofDocument s.toDocument = .ok s' ∧ s'.toDocument = s.toDocument := by
  refine ⟨fun s => ofDocument_toDocument, fun document s h => ?_⟩
  have hwell : s.WellFormed := wellFormed_ofDocument h
  exact ⟨hwell, s, ofDocument_toDocument hwell, rfl⟩

/-- A document with fields that are names alone, a field without a type, repeated and nameless
fields, names that need escapes, and entries that are passed over. -/
def lenientDocument : String :=
  "\x7b\"u\\u0001\\\"\": \x7b\"type\": \" sql \", \"fields\": [\"id\", \x7b\"name\": \"a\\n\"\x7d, " ++
    "\"id\", \"\", 42]\x7d, \"v\": \x7b\"type\": \"MySQL\"\x7d, " ++
    "\"w\": \x7b\"type\": \"Oracle\", \"fields\": []\x7d, \"a\": \x7b\"fields\": []\x7d\x7d"

theorem documents_keep_wellFormed_lenient :
    ∃ s, ofDocument lenientDocument = .ok s ∧
      s.tables = [("a", ⟨.mongodb, []⟩), ("u\x01\"", ⟨.mysql, [⟨"id", "String"⟩, ⟨"a\n", ""⟩]⟩)] ∧
      s.WellFormed ∧ ofDocument s.toDocument = .ok s := by
  have htables : (ofDocument lenientDocument).toOption.map (·.tables) =
      some [("a", ⟨.mongodb, []⟩), ("u\x01\"", ⟨.mysql, [⟨"id", "String"⟩, ⟨"a\n", ""⟩]⟩)] := by
    decide +kernel
  cases hread : ofDocument lenientDocument with
  | error e =>
    rw [hread] at htables
    cases htables
  | ok s =>
    rw [hread] at htables
    obtain ⟨hkeeps, hreads⟩ := documents_keep_wellFormed
    have hwell : s.WellFormed := (hreads _ s hread).1
    exact ⟨s, rfl, Option.some.inj htables, hwell, hkeeps s hwell⟩

/-! ### Edits -/

theorem mem_tables_of_get? {s : Schema} {name : String} {t : Table} (h : s.get? name = some t) :
    ∃ x ∈ s.tables, x.2 = t := by
  obtain ⟨x, hx, rfl⟩ := Option.map_eq_some_iff.mp h
  exact ⟨x, List.mem_of_find?_eq_some hx, rfl⟩

theorem WellFormed.editTable {s s' : Schema} (h : s.WellFormed) {name : String}
    {change : Table → Except EditError Table}
    (hchange : ∀ t t', Field.WellFormed t.fields → change t = .ok t' → Field.WellFormed t'.fields)
    (hedit : s.editTable name change = .ok s') : s'.WellFormed := by
  unfold Schema.editTable at hedit
  split at hedit
  · cases hedit
  · next t hget =>
    obtain ⟨x, hx, rfl⟩ := mem_tables_of_get? hget
    cases hc : change x.2 with
    | error e => rw [hc] at hedit; cases hedit
    | ok t' =>
      rw [hc] at hedit
      cases hedit
      exact h.insert name (hchange _ _ (h x hx) hc)

/-- An edit makes a well-formed schema of a well-formed one. -/
theorem WellFormed.edit {s s' : Schema} (h : s.WellFormed) {e : SchemaEdit}
    (hedit : s.edit e = .ok s') : s'.WellFormed := by
  cases e with
  | upsert name d fields =>
    cases hedit
    exact h.insert name (Table.wellFormed_ofFields d fields)
  | remove name =>
    simp only [Schema.edit] at hedit
    split at hedit
    · cases hedit
      exact fun t ht => h t (List.mem_of_mem_filter ht)
    · cases hedit
  | addField name f => exact h.editTable (fun _ _ ht hc => Table.wellFormed_addField ht hc) hedit
  | removeField name field =>
    exact h.editTable (fun _ _ ht hc => Table.wellFormed_removeField ht hc) hedit
  | renameField name field newName =>
    exact h.editTable (fun _ _ ht hc => Table.wellFormed_renameField ht hc) hedit
  | setFieldType name field type =>
    exact h.editTable (fun _ _ ht hc => Table.wellFormed_setFieldType ht hc) hedit

end Schema

end SchemaLint
