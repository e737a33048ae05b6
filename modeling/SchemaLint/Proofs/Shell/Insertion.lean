import SchemaLint.Proofs.Balance.Partner
import SchemaLint.Proofs.Shell.Query

/-!
# Documents that calls write

A document (`Document`) is a list of fields, each with a scalar or with something nested: an object or
an array with any text inside in which nothing is unbalanced. Reading it mentions its fields one by one
and looks at the scalars only (`documentMentions_text`, `updateMentions_text`). So the footprint of a
call that writes documents is what their outlines say (`footprint_written`), and two calls whose
documents differ only inside of what is nested have the same.
-/

namespace SchemaLint.Shell

open Nesting Text

/-! ## Documents and their texts -/

/-- What a field of a document holds. -/
inductive Content where
  | scalar (value : Scalar)
  /-- An object by the text between its braces. -/
  | object (inside : List Char) (closed : unbalanced inside = [])
  /-- An array by the text between its brackets. -/
  | array (inside : List Char) (closed : unbalanced inside = [])

def Content.text : Content → List Char
  | scalar value => value.text
  | object inside _ => '\x7b' :: (inside ++ ['\x7d'])
  | array inside _ => '[' :: (inside ++ [']'])

/-- The text of a scalar; what is nested is not told apart. -/
def Content.scalar? : Content → Option (List Char)
  | scalar value => some value.text
  | _ => none

/-- A field of a document with what it holds. -/
structure DocumentField where
  name : FieldName
  content : Content

abbrev Document := List DocumentField

theorem Content.isItem (c : Content) : IsItem c.text := by
  cases c with
  | scalar value => exact value.isItem
  | object inside closed => exact isItem_bracketed rfl rfl (balanced_of_unbalanced closed)
  | array inside closed => exact isItem_bracketed rfl rfl (balanced_of_unbalanced closed)

/-- A field as an entry of an object. -/
def DocumentField.member (f : DocumentField) : Member :=
  { key := inQuotes f.name.name, name := f.name.name, value := f.content.text
    isKey := f.name.isKey, isItem := f.content.isItem }

def Document.text (sp : Spacing) (d : Document) : List Char :=
  objectText sp (d.map DocumentField.member)

theorem isItem_documents (sp : Spacing) (ds : List Document) :
    ∀ x ∈ ds.map (Document.text sp), IsItem x :=
  List.forall_mem_map.mpr fun _ _ => isItem_objectText sp _

theorem Document.entries_text (sp : Spacing) (d : Document) :
    entries (d.text sp) = d.map fun f => (f.name.name, f.content.text) := by
  have hentries : entries (d.text sp) = _ := entries_object sp (d.map DocumentField.member)
  rw [hentries, List.map_map]
  rfl

/-! ## What documents mention -/

/-- What a field mentions: its name, and its value if that is a scalar. -/
def DocumentField.mention (f : DocumentField) : Mention :=
  match f.content.scalar? with
  | some value => .assign (String.ofList f.name.name) (String.ofList value)
  | none => .touch (String.ofList f.name.name)

theorem writtenMention_field (f : DocumentField) :
    writtenMention f.name.name f.content.text = f.mention := by
  unfold writtenMention DocumentField.mention
  cases hcontent : f.content with
  | scalar value =>
    simp only [Content.text, Content.scalar?, ofText_scalar]
    rw [assigned, value.isItem.trimmed.trim_eq]
  | object inside closed =>
    simp only [Content.text, Content.scalar?, ofText_braced (balanced_of_unbalanced closed)]
    rfl
  | array inside closed =>
    simp only [Content.text, Content.scalar?, ofText_bracketed (balanced_of_unbalanced closed)]
    rfl

theorem documentMentions_text (sp : Spacing) (d : Document) :
    documentMentions (d.text sp) = d.map DocumentField.mention := by
  have hfield : ∀ f ∈ d, (if isOperator f.name.name then none
      else some (writtenMention f.name.name f.content.text)) = some f.mention := by
    intro f _
    rw [f.name.not_among_operators.2, if_neg Bool.false_ne_true, writtenMention_field]
  rw [documentMentions, d.entries_text, List.filterMap_map]
  exact (List.filterMap_congr hfield).trans (congrFun List.filterMap_eq_map' d)

/-- The update that sets the fields of a document. -/
def Document.update (sp : Spacing) (d : Document) : List Char :=
  objectText sp [{
    key := operatorKey sp ['$', 's', 'e', 't'], name := ['$', 's', 'e', 't'], value := d.text sp
    isKey := IsOperatorName.isKey ⟨rfl, List.all_eq_true.mp rfl⟩ sp
    isItem := isItem_objectText sp _ }]

theorem updateMentions_text (sp : Spacing) (d : Document) :
    updateMentions (d.update sp) = d.map DocumentField.mention := by
  have hentries : entries (d.update sp) = [(['$', 's', 'e', 't'], d.text sp)] := entries_object sp _
  have hassigning : isAmong assigningOperators ['$', 's', 'e', 't'] = true := by decide
  have hoperator : [(['$', 's', 'e', 't'], d.text sp)].any (fun e => isOperator e.1) = true := rfl
  unfold updateMentions
  simp only [hentries, hoperator, if_true, List.flatMap_singleton, hassigning, d.entries_text,
    List.map_map]
  exact List.map_congr_left fun f _ => writtenMention_field f

/-! ## Calls that write documents -/

/-- A call that writes documents. -/
inductive WritingCall where
  | insertOne (document : Document)
  | insertMany (documents : List Document)
  /-- A document in place of the first one. -/
  | replaceOne (document : Document)
  /-- An update of the first document that sets fields. -/
  | updateOne (document : Document)

namespace WritingCall

def documents : WritingCall → List Document
  | insertOne d | replaceOne d | updateOne d => [d]
  | insertMany ds => ds

def verb : WritingCall → String
  | insertOne _ => "insertOne"
  | insertMany _ => "insertMany"
  | replaceOne _ => "replaceOne"
  | updateOne _ => "updateOne"

def layout : WritingCall → Layout
  | insertOne _ => .insertOne
  | insertMany _ => .insertMany
  | replaceOne _ => .replace
  | updateOne _ => .update

/-- The arguments; a query is empty. -/
def args (sp : Spacing) : WritingCall → List (List Char)
  | insertOne d => [d.text sp]
  | insertMany ds => [enclose sp '[' ']' (ds.map (Document.text sp))]
  | replaceOne d => [Query.text sp [], d.text sp]
  | updateOne d => [Query.text sp [], d.update sp]

/-- The text of a call on a collection. -/
def text (t : Target) (sp : Spacing) (c : WritingCall) : List Char :=
  t.call c.verb.toList (sp.edge ++ separated sp (c.args sp) ++ sp.edge)

/-- All fields that are written, from left to right. -/
def fields (c : WritingCall) : List DocumentField :=
  c.documents.flatten

theorem ofVerb?_verb (c : WritingCall) : Layout.ofVerb? c.verb = some c.layout := by
  cases c <;> rfl

theorem isVerb (c : WritingCall) : IsVerb c.verb.toList :=
  isVerb_of_ofVerb? c.ofVerb?_verb

theorem isItem_args (sp : Spacing) (c : WritingCall) : ∀ x ∈ c.args sp, IsItem x := by
  have hdocument : ∀ d : Document, IsItem (d.text sp) := fun d => isItem_objectText sp _
  have hquery : IsItem (Query.text sp []) := isItem_objectText sp _
  cases c with
  | insertOne d => exact List.forall_mem_singleton.mpr (hdocument d)
  | insertMany ds =>
    exact List.forall_mem_singleton.mpr (isItem_enclose sp rfl rfl (isItem_documents sp ds))
  | replaceOne d => exact List.forall_mem_cons.mpr ⟨hquery, List.forall_mem_singleton.mpr (hdocument d)⟩
  | updateOne d =>
    have hupdate : IsItem (d.update sp) := isItem_objectText sp _
    exact List.forall_mem_cons.mpr ⟨hquery, List.forall_mem_singleton.mpr hupdate⟩

/-- The call as it is read. -/
def call (t : Target) (sp : Spacing) (c : WritingCall) : Call :=
  { collection := String.ofList t.collection.name, verb := c.verb, layout := c.layout, args := c.args sp }

theorem read?_text (t : Target) (sp : Spacing) (c : WritingCall) :
    Call.read? (statementOf (c.text t sp)) = some (c.call t sp) := by
  have hargs := c.isItem_args sp
  have hlayout : Layout.ofVerb? (String.ofList c.verb.toList) = some c.layout := by
    rw [String.ofList_toList, c.ofVerb?_verb]
  unfold text
  rw [t.statementOf_call c.isVerb (balanced_inside sp hargs),
    t.read?_call c.isVerb (balanced_inside sp hargs) hlayout,
    splitTop_separated sp hargs sp.isBlank_edge sp.isBlank_edge, String.ofList_toList]
  rfl

theorem mentions_call (t : Target) (sp : Spacing) (c : WritingCall) :
    (c.call t sp).mentions = c.fields.map DocumentField.mention := by
  have hquery : queryMentions (Query.text sp []) = [] := queryMentions_text sp []
  cases c with
  | insertOne d =>
    change documentMentions (d.text sp) = _
    rw [documentMentions_text, fields, documents, List.flatten_singleton]
  | insertMany ds =>
    change (Value.ofText (enclose sp '[' ']' (ds.map (Document.text sp)))).items.flatMap
      documentMentions = _
    rw [items_array sp (isItem_documents sp ds), List.flatMap_map, fields, documents, ← List.flatMap_id,
      List.map_flatMap]
    exact List.flatMap_congr fun d _ => documentMentions_text sp d
  | replaceOne d =>
    change queryMentions (Query.text sp []) ++ documentMentions (d.text sp) = _
    rw [hquery, List.nil_append, documentMentions_text, fields, documents, List.flatten_singleton]
  | updateOne d =>
    change queryMentions (Query.text sp []) ++ updateMentions (d.update sp) = _
    rw [hquery, List.nil_append, updateMentions_text, fields, documents, List.flatten_singleton]

end WritingCall

/-! ## Footprints -/

/-- A field with its value, if that is a scalar. -/
def DocumentField.value? (f : DocumentField) : Option (String × String) :=
  f.content.scalar?.map fun value => (String.ofList f.name.name, String.ofList value)

/-- What is left of a field when nobody looks into what is nested. -/
def DocumentField.outline (f : DocumentField) : List Char × Option (List Char) :=
  (f.name.name, f.content.scalar?)

theorem DocumentField.field_mention (f : DocumentField) :
    f.mention.field = String.ofList f.name.name := by
  unfold mention
  split <;> rfl

theorem DocumentField.value?_mention (f : DocumentField) : f.mention.value? = f.value? := by
  unfold mention value?
  split
  · next value hvalue => rw [hvalue]; rfl
  · next hnone => rw [hnone]; rfl

theorem ofMentions_fields (target : String) (fs : List DocumentField) :
    Footprint.ofMentions target (fs.map DocumentField.mention) = {
      target := some target
      fields := (fs.map fun f => String.ofList f.name.name).eraseDups
      values := fs.filterMap DocumentField.value? } := by
  have hsingle : ∀ f : DocumentField, ∀ m ∈ [f.mention], m.field = String.ofList f.name.name := by
    intro f m hm
    rw [List.mem_singleton.mp hm, f.field_mention]
  have hvalue : ∀ f : DocumentField, [f.mention].filterMap Mention.value? = f.value?.toList := by
    intro f
    rw [List.filterMap_cons, f.value?_mention]
    cases f.value? <;> rfl
  have h := Footprint.ofMentions_flatMap (fun f => List.cons_ne_nil f.mention []) hsingle
    (fun f => by simpa using f.name.ne_nil) target fs
  simp only [hvalue] at h
  rw [List.map_eq_flatMap, h, List.filterMap_eq_flatMap_toList]

/-- Fields of the same outlines amount to the same. -/
theorem ofMentions_of_outline {target : String} {fs fs' : List DocumentField}
    (h : fs'.map DocumentField.outline = fs.map DocumentField.outline) :
    Footprint.ofMentions target (fs'.map DocumentField.mention) =
      Footprint.ofMentions target (fs.map DocumentField.mention) := by
  have hmention : ∀ l : List DocumentField, l.map DocumentField.mention =
      (l.map DocumentField.outline).map fun o => match o.2 with
        | some value => Mention.assign (String.ofList o.1) (String.ofList value)
        | none => Mention.touch (String.ofList o.1) := by
    intro l
    rw [List.map_map]
    rfl
  rw [hmention, h, ← hmention]

theorem footprint_eq_ofMentions (t : Target) (sp : Spacing) (c : WritingCall) :
    SchemaLint.footprint .mongodb (c.text t sp) =
      Footprint.ofMentions (String.ofList t.collection.name) (c.fields.map DocumentField.mention) := by
  change footprint (c.text t sp) = _
  rw [footprint, c.read?_text, Option.map_some, Option.getD_some, c.mentions_call]
  rfl

/-- A call that writes documents touches their fields in the order of first mention and assigns their
scalars in order. Another such call on the collection whose documents differ from them only inside of
objects and arrays does the same. -/
theorem footprint_written (t : Target) (sp : Spacing) (c : WritingCall) :
    SchemaLint.footprint .mongodb (c.text t sp) = {
      target := some (String.ofList t.collection.name)
      fields := (c.fields.map fun f => String.ofList f.name.name).eraseDups
      values := c.fields.filterMap DocumentField.value? } ∧
    ∀ (sp' : Spacing) (c' : WritingCall),
      c'.fields.map DocumentField.outline = c.fields.map DocumentField.outline →
      SchemaLint.footprint .mongodb (c'.text t sp') = SchemaLint.footprint .mongodb (c.text t sp) := by
  refine ⟨?_, fun sp' c' h => ?_⟩
  · rw [footprint_eq_ofMentions, ofMentions_fields]
  · rw [footprint_eq_ofMentions, footprint_eq_ofMentions, ofMentions_of_outline h]

/-- An object with an operator, a comma and a quoted brace inside, and an array in its place. -/
theorem footprint_written_nested :
    let field (c : Char) (h : c ≠ '$' ∧ c ≠ '\x22' ∧ c ≠ '\\') : FieldName :=
      ⟨[c], List.cons_ne_nil c [], by simpa using h.1, by simpa using h.2⟩
    let blank : Spacing := ⟨[], [], [' '], false, by simp, by simp, isBlank_space⟩
    let t : Target :=
      CollectionName.target ⟨['u'], by decide, List.forall_mem_singleton.mpr rfl⟩
    let a : DocumentField := ⟨field 'a' (by decide), .scalar (.bool true)⟩
    let object : DocumentField :=
      ⟨field 'b' (by decide), .object "$set: [\"\x7d\"], b: 1".toList (by decide +kernel)⟩
    let array : DocumentField := ⟨field 'b' (by decide), .array "1, :".toList (by decide +kernel)⟩
    let written := WritingCall.insertOne [a, object]
    let changed := WritingCall.insertOne [a, array]
    changed.fields.map DocumentField.outline = written.fields.map DocumentField.outline ∧
      SchemaLint.footprint .mongodb (changed.text t blank) =
        SchemaLint.footprint .mongodb (written.text t blank) ∧
      (SchemaLint.footprint .mongodb (written.text t blank)).values = [("a", "true")] := by
  intro field blank t a object array written changed
  have houtline : changed.fields.map DocumentField.outline =
      written.fields.map DocumentField.outline := by decide
  have hprint := footprint_written t blank written
  exact ⟨houtline, hprint.2 blank changed houtline, by rw [hprint.1]; decide⟩

end SchemaLint.Shell
