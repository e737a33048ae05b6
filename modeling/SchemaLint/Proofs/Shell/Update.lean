import SchemaLint.Proofs.Footprint
import SchemaLint.Script

/-!
# The fields that an update writes

An update is an object or an array of stages, and the shape of a call allows both. What it writes
are the keys under its operators, in every stage of an array, and its own keys that are no operators
(`writtenFields`). The footprint of the call has all of these but the ones that are passed over: a
stage is not looked into, and where operators stand, the values of all entries are looked into in
place of the keys beside the operators (`passedOver`). A field that is passed over is in the footprint
only when the query mentions it (`written_fields_touched`).
-/

namespace SchemaLint.Shell

/-! ## Entries -/

theorem key_ne_nil {document key value : List Char} (h : (key, value) ∈ entries document) :
    key ≠ [] := by
  unfold entries at h
  split at h
  · obtain ⟨s, -, hs⟩ := List.mem_filterMap.mp h
    unfold entry? at hs
    split at hs
    · split at hs
      · cases hs
      · next hkey =>
        obtain ⟨rfl, -⟩ := Prod.mk.inj (Option.some.inj hs)
        intro hnil
        rw [hnil] at hkey
        exact hkey rfl
    · cases hs
  · cases h

theorem entries_of_array {document stages : List Char} (h : Value.ofText document = .array stages) :
    entries document = [] := by
  have hbraced : braced? document = none := by
    unfold Value.ofText at h
    split at h
    · cases h
    · next hnone => simpa using hnone
  rw [entries, hbraced]

def keys (document : List Char) : List (List Char) :=
  (entries document).map (·.1)

/-- The keys under the operators of an object. -/
def operandFields (document : List Char) : List (List Char) :=
  (entries document).flatMap fun (key, operand) => if isOperator key then keys operand else []

/-- The keys under all keys of an object. -/
def valueFields (document : List Char) : List (List Char) :=
  (entries document).flatMap fun (_, value) => keys value

/-- The keys of an object that are no operators. -/
def plainFields (document : List Char) : List (List Char) :=
  (keys document).filter (!isOperator ·)

/-- The fields that an update writes. -/
def writtenFields (update : List Char) : List (List Char) :=
  match Value.ofText update with
  | .object _ => operandFields update ++ plainFields update
  | .array stages => (splitTop ',' stages).flatMap operandFields
  | .scalar _ => []

/-- The fields that an update writes and that are not looked at. -/
def passedOver (update : List Char) : List (List Char) :=
  match Value.ofText update with
  | .object _ =>
    if (keys update).any isOperator then
      (plainFields update).filter fun field => !(valueFields update).contains field
    else []
  | .array stages => (splitTop ',' stages).flatMap operandFields
  | .scalar _ => []

variable {update field : List Char}

theorem mem_keys {document key : List Char} :
    key ∈ keys document ↔ ∃ value, (key, value) ∈ entries document := by
  simp [keys]

theorem ne_nil_of_mem_keys {document : List Char} (h : field ∈ keys document) : field ≠ [] := by
  obtain ⟨value, hentry⟩ := mem_keys.mp h
  exact key_ne_nil hentry

theorem mem_operandFields : field ∈ operandFields update ↔
    ∃ key operand, (key, operand) ∈ entries update ∧ isOperator key = true ∧ field ∈ keys operand := by
  unfold operandFields
  rw [List.mem_flatMap]
  constructor
  · rintro ⟨⟨key, operand⟩, hentry, hfield⟩
    by_cases hop : isOperator key = true
    · exact ⟨key, operand, hentry, hop, by simpa [hop] using hfield⟩
    · simp [hop] at hfield
  · rintro ⟨key, operand, hentry, hop, hfield⟩
    exact ⟨(key, operand), hentry, by simpa [hop] using hfield⟩

theorem mem_valueFields :
    field ∈ valueFields update ↔ ∃ key value, (key, value) ∈ entries update ∧ field ∈ keys value := by
  simp [valueFields]

theorem mem_valueFields_of_mem_operandFields (h : field ∈ operandFields update) :
    field ∈ valueFields update := by
  obtain ⟨key, operand, hentry, -, hfield⟩ := mem_operandFields.mp h
  exact mem_valueFields.mpr ⟨key, operand, hentry, hfield⟩

theorem any_isOperator_of_mem_operandFields (h : field ∈ operandFields update) :
    (keys update).any isOperator = true := by
  obtain ⟨key, operand, hentry, hop, -⟩ := mem_operandFields.mp h
  exact List.any_eq_true.mpr ⟨key, mem_keys.mpr ⟨operand, hentry⟩, hop⟩

theorem ne_nil_of_mem_valueFields (h : field ∈ valueFields update) : field ≠ [] := by
  obtain ⟨key, value, -, hfield⟩ := mem_valueFields.mp h
  exact ne_nil_of_mem_keys hfield

theorem ne_nil_of_mem_writtenFields (h : field ∈ writtenFields update) : field ≠ [] := by
  unfold writtenFields at h
  split at h
  · rcases List.mem_append.mp h with h | h
    · exact ne_nil_of_mem_valueFields (mem_valueFields_of_mem_operandFields h)
    · exact ne_nil_of_mem_keys (List.mem_filter.mp h).1
  · obtain ⟨stage, -, h⟩ := List.mem_flatMap.mp h
    exact ne_nil_of_mem_valueFields (mem_valueFields_of_mem_operandFields h)
  · cases h

theorem mem_writtenFields_of_mem_passedOver (h : field ∈ passedOver update) :
    field ∈ writtenFields update := by
  unfold passedOver at h
  unfold writtenFields
  split at h
  · split at h
    · exact List.mem_append_right _ (List.mem_filter.mp h).1
    · cases h
  · exact h
  · cases h

theorem passedOver_eq_nil (hobject : isObject update = true)
    (huniform : (∀ key ∈ keys update, isOperator key = true) ∨
      ∀ key ∈ keys update, isOperator key = false) : passedOver update = [] := by
  unfold isObject at hobject
  unfold passedOver
  cases hvalue : Value.ofText update with
  | object text =>
    simp only
    rcases huniform with hall | hnone
    · have hplain : plainFields update = [] := by
        rw [plainFields, List.filter_eq_nil_iff]
        intro key hkey
        simp [hall key hkey]
      rw [hplain]
      split <;> rfl
    · have hany : (keys update).any isOperator = false := by
        rw [List.any_eq_false]
        intro key hkey
        simp [hnone key hkey]
      rw [hany]
      rfl
  | array stages =>
    rw [hvalue] at hobject
    cases hobject
  | scalar text => rfl

/-! ## What is mentioned -/

/-- Tells whether some mentions name a field. -/
def Names (mentions : List Mention) (field : List Char) : Prop :=
  ∃ m ∈ mentions, m.field = String.ofList field

theorem field_writtenMention (field value : List Char) :
    (writtenMention field value).field = String.ofList field := by
  unfold writtenMention
  split <;> rfl

theorem ofList_inj {s t : List Char} : String.ofList s = String.ofList t ↔ s = t := by
  constructor
  · intro h
    simpa using congrArg String.toList h
  · rintro rfl
    rfl

theorem names_documentMentions : Names (documentMentions update) field ↔ field ∈ plainFields update := by
  unfold Names documentMentions plainFields
  simp only [List.mem_filterMap, List.mem_filter, mem_keys]
  constructor
  · rintro ⟨m, ⟨⟨key, value⟩, hentry, hm⟩, hfield⟩
    simp only at hm
    split at hm
    · cases hm
    · next hop =>
      rw [← Option.some.inj hm, field_writtenMention, ofList_inj] at hfield
      rw [← hfield]
      exact ⟨⟨value, hentry⟩, by simpa using hop⟩
  · rintro ⟨⟨value, hentry⟩, hop⟩
    rw [Bool.not_eq_true'] at hop
    refine ⟨writtenMention field value, ⟨(field, value), hentry, ?_⟩, field_writtenMention field value⟩
    simp [hop]

/-- With operators the keys under all entries are named, without operators the keys themselves. -/
theorem names_updateMentions : Names (updateMentions update) field ↔
    if (keys update).any isOperator then field ∈ valueFields update
    else field ∈ plainFields update := by
  have hany : (entries update).any (fun (key, _) => isOperator key) = (keys update).any isOperator := by
    rw [keys, List.any_map]
    rfl
  have hfield : ∀ key f value : List Char, (if isAmong assigningOperators key then
      writtenMention f value else touched f).field = String.ofList f := by
    intro key f value
    split
    · exact field_writtenMention f value
    · rfl
  unfold updateMentions
  simp only [hany]
  split
  · rw [mem_valueFields]
    simp only [Names, List.mem_flatMap, List.mem_map, mem_keys]
    constructor
    · rintro ⟨-, ⟨⟨key, operand⟩, hentry, ⟨f, value⟩, hvalue, rfl⟩, hname⟩
      rw [hfield, ofList_inj] at hname
      exact ⟨key, operand, hentry, value, hname ▸ hvalue⟩
    · rintro ⟨key, operand, hentry, value, hvalue⟩
      exact ⟨_, ⟨(key, operand), hentry, (field, value), hvalue, rfl⟩, hfield key field value⟩
  · exact names_documentMentions

/-- What an update writes is named by it unless it is passed over. -/
theorem names_updateMentions_of_written (h : field ∈ writtenFields update) :
    Names (updateMentions update) field ↔ field ∉ passedOver update := by
  rw [names_updateMentions]
  unfold writtenFields at h
  unfold passedOver
  cases hvalue : Value.ofText update with
  | object text =>
    simp only [hvalue] at h ⊢
    rcases List.mem_append.mp h with hoperand | hplain
    · rw [any_isOperator_of_mem_operandFields hoperand]
      simp [mem_valueFields_of_mem_operandFields hoperand]
    · split
      · simp [hplain]
      · simp [hplain]
  | array stages =>
    have hkeys : keys update = [] := by
      rw [keys, entries_of_array hvalue]
      rfl
    simp only [hvalue] at h ⊢
    simp [plainFields, hkeys, h]
  | scalar text =>
    simp only [hvalue] at h
    cases h

/-! ## Calls -/

def updateVerbs : List String :=
  ["update", "updateOne", "updateMany", "findOneAndUpdate"]

theorem layout_of_read? {statement : List Char} {c : Call} (h : Call.read? statement = some c) :
    Layout.ofVerb? c.verb = some c.layout := by
  unfold Call.read? at h
  obtain ⟨⟨⟨collection, verb⟩, rest⟩, -, h⟩ := Option.bind_eq_some_iff.mp h
  obtain ⟨layout, hlayout, h⟩ := Option.bind_eq_some_iff.mp h
  obtain ⟨cut, -, h⟩ := Option.bind_eq_some_iff.mp h
  rw [← Option.some.inj h]
  exact hlayout

theorem layout_of_mem_updateVerbs {statement : List Char} {c : Call}
    (h : Call.read? statement = some c) (hverb : c.verb ∈ updateVerbs) : c.layout = .update := by
  have hlayout := layout_of_read? h
  simp only [updateVerbs, List.mem_cons, List.not_mem_nil, or_false] at hverb
  rcases hverb with hverb | hverb | hverb | hverb
  all_goals
    rw [hverb] at hlayout
    exact (Option.some.inj hlayout).symm

theorem mem_fields_footprint {line : List Char} {c : Call}
    (h : Call.read? (statementOf line) = some c) (hne : field ≠ []) :
    String.ofList field ∈ (SchemaLint.footprint .mongodb line).fields ↔ Names c.mentions field := by
  have hprint : SchemaLint.footprint .mongodb line = .ofMentions c.collection c.mentions := by
    change footprint line = _
    rw [footprint, h]
    rfl
  have hname : String.ofList field ≠ "" := by
    intro heq
    exact hne (ofList_inj.mp heq)
  rw [hprint, Footprint.mem_fields_ofMentions, and_iff_right hname, Names]

/-- A field that an update writes is in the footprint of the line unless it is passed over; then it
is there only when the query mentions it. So all of them are there exactly when the query mentions
those that are passed over. None is in an object that has operators only, or no operators. -/
theorem written_fields_touched (line : List Char) (c : Call)
    (hread : Call.read? (statementOf line) = some c) (hverb : c.verb ∈ updateVerbs) :
    (∀ field ∈ writtenFields (c.arg 1),
      String.ofList field ∈ (SchemaLint.footprint .mongodb line).fields ↔
        field ∉ passedOver (c.arg 1) ∨ Names (queryMentions (c.arg 0)) field) ∧
    ((∀ field ∈ writtenFields (c.arg 1),
        String.ofList field ∈ (SchemaLint.footprint .mongodb line).fields) ↔
      ∀ field ∈ passedOver (c.arg 1), Names (queryMentions (c.arg 0)) field) ∧
    (isObject (c.arg 1) = true →
      (∀ key ∈ keys (c.arg 1), isOperator key = true) ∨
        (∀ key ∈ keys (c.arg 1), isOperator key = false) →
      ∀ field ∈ writtenFields (c.arg 1),
        String.ofList field ∈ (SchemaLint.footprint .mongodb line).fields) := by
  have hmentions : c.mentions = queryMentions (c.arg 0) ++ updateMentions (c.arg 1) := by
    rw [Call.mentions, layout_of_mem_updateVerbs hread hverb]
  have htouched : ∀ field ∈ writtenFields (c.arg 1),
      String.ofList field ∈ (SchemaLint.footprint .mongodb line).fields ↔
        field ∉ passedOver (c.arg 1) ∨ Names (queryMentions (c.arg 0)) field := by
    intro field hfield
    have hsplit : Names c.mentions field ↔
        Names (queryMentions (c.arg 0)) field ∨ Names (updateMentions (c.arg 1)) field := by
      simp only [Names, hmentions, List.mem_append, or_and_right, exists_or]
    rw [mem_fields_footprint hread (ne_nil_of_mem_writtenFields hfield), hsplit,
      names_updateMentions_of_written hfield, or_comm]
  refine ⟨htouched, ⟨?_, ?_⟩, ?_⟩
  · intro hall field hpassed
    have hwritten := mem_writtenFields_of_mem_passedOver hpassed
    rcases (htouched field hwritten).mp (hall field hwritten) with hnot | hquery
    · exact absurd hpassed hnot
    · exact hquery
  · intro hquery field hwritten
    by_cases hpassed : field ∈ passedOver (c.arg 1)
    · exact (htouched field hwritten).mpr (.inr (hquery field hpassed))
    · exact (htouched field hwritten).mpr (.inl hpassed)
  · intro hobject huniform field hwritten
    apply (htouched field hwritten).mpr
    rw [passedOver_eq_nil hobject huniform]
    exact .inl List.not_mem_nil

/-- The stages of an update pass the check of its shape, but their fields are not touched. -/
theorem stage_fields_not_touched :
    SchemaLint.shapeProblems .mongodb "db.users.updateMany(\x7b\x7d, [\x7b$set: \x7bn: 1\x7d\x7d])".toList = [] ∧
      ['n'] ∈ writtenFields "[\x7b$set: \x7bn: 1\x7d\x7d]".toList ∧
      "n" ∉ (SchemaLint.footprint .mongodb
        "db.users.updateMany(\x7b\x7d, [\x7b$set: \x7bn: 1\x7d\x7d])".toList).fields := by
  have hread : Call.read? (statementOf "db.users.updateMany(\x7b\x7d, [\x7b$set: \x7bn: 1\x7d\x7d])".toList) =
      some {
        collection := "users", verb := "updateMany", layout := .update
        args := ["\x7b\x7d".toList, "[\x7b$set: \x7bn: 1\x7d\x7d]".toList] } := by decide +kernel
  have hwritten : ['n'] ∈ writtenFields "[\x7b$set: \x7bn: 1\x7d\x7d]".toList := by decide +kernel
  have htouched := (written_fields_touched _ _ hread (by decide)).1 ['n'] hwritten
  refine ⟨by decide +kernel, hwritten, ?_⟩
  intro hfield
  rcases htouched.mp hfield with hpassed | ⟨m, hm, -⟩
  · exact hpassed (by decide +kernel)
  · have hquery : queryMentions "\x7b\x7d".toList = [] := by decide +kernel
    have hnone : m ∈ ([] : List Mention) := hquery ▸ hm
    cases hnone

end SchemaLint.Shell
