import SchemaLint.Proofs.Rule.Document
import SchemaLint.Proofs.Schema.Document
import SchemaLint.Proofs.Store.Session

/-!
# Sessions on schemas and rules

Schemas with well-formed fields are kept faithfully (`Schema.faithful`), and so are tables of rules with
distinct ids (`RuleTable.faithful`). A session on either stays in step with its document, whatever is
asked of it and whenever the store refuses to save.
-/

namespace SchemaLint.Schema

theorem faithful : Session.Faithful format edit WellFormed where
  initial := wellFormed_empty
  read h := by
    dsimp only [format] at h
    exact wellFormed_ofDocument h
  edit h hedit := h.edit hedit
  read_write h := by
    dsimp only [format]
    exact ofDocument_toDocument h

/-- After every request of a session that begins with what its store holds, the document is read as
the schema in memory, a request that failed has changed nothing, the document of a changed schema is
what the schema is written as, and no field name of a table is empty or repeated. -/
theorem session_keeps_document {s : Session Schema} (h : s.Opens format EditError)
    (requests : List (Bool × Request SchemaEdit)) (saves : Bool) (r : Request SchemaEdit) :
    let before := s.run format edit requests
    let after := before.step format edit saves r
    Session.AfterRequest format WellFormed before after.2 r after.1 :=
  Session.afterRequest_run faithful h requests saves r

/-- A session on an empty store in which a table is put and one of its fields is renamed in vain. -/
theorem session_keeps_document_refused :
    let s : Session Schema := { value := empty, store := Memory.empty }
    let requests := [(true, Request.edit (.upsert "users" .mysql [⟨"id", "INT"⟩]))]
    let r := Request.edit (.renameField "users" "id" "key")
    let before := s.run format edit requests
    let after := before.step format edit false r
    s.Opens format EditError ∧ Session.AfterRequest format WellFormed before after.2 r after.1 := by
  have hopens : Session.Opens format EditError { value := empty, store := Memory.empty } := rfl
  exact ⟨hopens, session_keeps_document hopens
    [(true, .edit (.upsert "users" .mysql [⟨"id", "INT"⟩]))] false
    (.edit (.renameField "users" "id" "key"))⟩

end SchemaLint.Schema

namespace SchemaLint.RuleTable

theorem faithful : Session.Faithful format edit DistinctIds where
  initial := distinctIds_empty
  read h := by
    dsimp only [format] at h
    exact distinctIds_ofDocument h
  edit h hedit := h.edit hedit
  read_write h := by
    dsimp only [format]
    exact ofDocument_toDocument h

/-- After every request of a session that begins with what its store holds, the document is read as
the table in memory with the same buckets, a request that failed has changed nothing, the document
of a changed table is what the table is written as, and no bucket holds an id twice. -/
theorem session_keeps_rules {s : Session RuleTable} (h : s.Opens format RuleEditError)
    (requests : List (Bool × Request RuleEdit)) (saves : Bool) (r : Request RuleEdit) :
    let before := s.run format edit requests
    let after := before.step format edit saves r
    Session.AfterRequest format DistinctIds before after.2 r after.1 :=
  Session.afterRequest_run faithful h requests saves r

/-- A session on an empty store in which the built-in rules are taken and one of them is added
again. -/
theorem session_keeps_rules_refused :
    let s : Session RuleTable := { value := empty, store := Memory.empty }
    let rule : Rule :=
      { id := "4", name := "", description := "", pattern := "", message := "", severity := .info }
    let r := Request.edit (.add .mysql .boolean rule)
    let before := s.run format edit [(true, .edit .reset)]
    let after := before.step format edit true r
    s.Opens format RuleEditError ∧
      Session.AfterRequest format DistinctIds before after.2 r after.1 := by
  have hopens : Session.Opens format RuleEditError { value := empty, store := Memory.empty } := rfl
  exact ⟨hopens, session_keeps_rules hopens [(true, .edit .reset)] true
    (.edit (.add .mysql .boolean _))⟩

end SchemaLint.RuleTable
