import SchemaLint.Proofs.Footprint
import SchemaLint.Proofs.Shell.Call
import SchemaLint.Script

/-!
# Queries

A query (`Query`) is a list of entries: a field with a scalar, a field with tests by operators, or a
connective with an array of queries. Its leaves (`Query.leaves`) are its fields from left to right,
each with the scalars that it is compared with. Reading a written query mentions exactly the leaves
(`queryMentions_text`), so a `find` call with a written query has them as its footprint
(`footprint_find`).

The induction is on the query. What carries it is that a query inside another is an item of an array
that is an item of an object, and that each is taken apart again by itself.
-/

namespace SchemaLint.Shell

open Nesting Text

/-! ## Queries and their texts -/

/-- A comparison with one value. -/
inductive Comparison where
  | eq | ne | gt | gte | lt | lte
  deriving DecidableEq

/-- The operator of a comparison. -/
def Comparison.operator : Comparison → List Char
  | eq => ['$', 'e', 'q']
  | ne => ['$', 'n', 'e']
  | gt => ['$', 'g', 't']
  | gte => ['$', 'g', 't', 'e']
  | lt => ['$', 'l', 't']
  | lte => ['$', 'l', 't', 'e']

/-- A comparison with the items of an array. -/
inductive Membership where
  | isIn | notIn
  deriving DecidableEq

/-- The operator of a membership. -/
def Membership.operator : Membership → List Char
  | isIn => ['$', 'i', 'n']
  | notIn => ['$', 'n', 'i', 'n']

/-- What joins queries. -/
inductive Connective where
  | and | or | nor
  deriving DecidableEq

/-- The operator of a connective. -/
def Connective.operator : Connective → List Char
  | and => ['$', 'a', 'n', 'd']
  | or => ['$', 'o', 'r']
  | nor => ['$', 'n', 'o', 'r']

/-- A test of a field by one operator. -/
inductive FieldTest where
  | compare (op : Comparison) (value : Scalar)
  | member (op : Membership) (values : List Scalar)

/-- The scalars that a test compares a field with. -/
def FieldTest.values : FieldTest → List Scalar
  | compare _ v => [v]
  | member _ vs => vs

/-- What a query asks of a field: that it equals a scalar, or one or more tests. -/
inductive Condition where
  | equals (value : Scalar)
  | tests (first : FieldTest) (others : List FieldTest)

/-- The scalars that a condition compares a field with. -/
def Condition.values : Condition → List Scalar
  | equals v => [v]
  | tests t ts => (t :: ts).flatMap FieldTest.values

/-- An entry of a query: a field with a condition, or queries that are joined. -/
inductive QueryEntry where
  | field (name : FieldName) (condition : Condition)
  | join (connective : Connective) (queries : List (List QueryEntry))

/-- A query by its entries. -/
abbrev Query := List QueryEntry

theorem Comparison.isOperatorName (op : Comparison) : IsOperatorName op.operator := by
  cases op <;> exact ⟨rfl, List.all_eq_true.mp rfl⟩

theorem Membership.isOperatorName (op : Membership) : IsOperatorName op.operator := by
  cases op <;> exact ⟨rfl, List.all_eq_true.mp rfl⟩

theorem Connective.isOperatorName (op : Connective) : IsOperatorName op.operator := by
  cases op <;> exact ⟨rfl, List.all_eq_true.mp rfl⟩

/-- Scalars in brackets. -/
def scalarArray (sp : Spacing) (vs : List Scalar) : List Char :=
  enclose sp '[' ']' (vs.map Scalar.text)

theorem isItem_scalars (vs : List Scalar) : ∀ x ∈ vs.map Scalar.text, IsItem x := by
  intro x hx
  obtain ⟨v, -, rfl⟩ := List.mem_map.mp hx
  exact v.isItem

/-- The text of an object with the given entries. -/
def objectText (sp : Spacing) (ms : List Member) : List Char :=
  enclose sp '\x7b' '\x7d' (ms.map (Member.text sp))

theorem isItem_members (sp : Spacing) (ms : List Member) :
    ∀ x ∈ ms.map (Member.text sp), IsItem x := by
  intro x hx
  obtain ⟨m, -, rfl⟩ := List.mem_map.mp hx
  exact m.isItem_text sp

theorem isItem_objectText (sp : Spacing) (ms : List Member) : IsItem (objectText sp ms) :=
  isItem_enclose sp rfl rfl (isItem_members sp ms)

theorem isItem_objectTexts (sp : Spacing) (mss : List (List Member)) :
    ∀ x ∈ mss.map (objectText sp), IsItem x := by
  intro x hx
  obtain ⟨ms, -, rfl⟩ := List.mem_map.mp hx
  exact isItem_objectText sp ms

/-- A test as an entry of the object of its field. -/
def FieldTest.entry (sp : Spacing) : FieldTest → Member
  | compare op v =>
    { key := operatorKey sp op.operator, name := op.operator, value := v.text
      isKey := op.isOperatorName.isKey sp, isItem := v.isItem }
  | member op vs =>
    { key := operatorKey sp op.operator, name := op.operator, value := scalarArray sp vs
      isKey := op.isOperatorName.isKey sp
      isItem := isItem_enclose sp rfl rfl (isItem_scalars vs) }

/-- The text of a condition. -/
def Condition.text (sp : Spacing) : Condition → List Char
  | equals v => v.text
  | tests t ts => objectText sp ((t :: ts).map (FieldTest.entry sp))

theorem Condition.isItem_text (sp : Spacing) (c : Condition) : IsItem (c.text sp) := by
  cases c with
  | equals v => exact v.isItem
  | tests t ts => exact isItem_objectText sp _

mutual

/-- An entry of a query as an entry of its object. -/
def QueryEntry.member (sp : Spacing) : QueryEntry → Member
  | .field f c =>
    { key := inQuotes f.name, name := f.name, value := c.text sp
      isKey := f.isKey, isItem := c.isItem_text sp }
  | .join op qs =>
    { key := operatorKey sp op.operator, name := op.operator
      value := enclose sp '[' ']' ((QueryEntry.memberLists sp qs).map (objectText sp))
      isKey := op.isOperatorName.isKey sp
      isItem := isItem_enclose sp rfl rfl (isItem_objectTexts sp (QueryEntry.memberLists sp qs)) }

/-- The entries of a query as entries of its object. -/
def QueryEntry.members (sp : Spacing) : List QueryEntry → List Member
  | [] => []
  | e :: es => QueryEntry.member sp e :: QueryEntry.members sp es

/-- The entries of several queries. -/
def QueryEntry.memberLists (sp : Spacing) : List (List QueryEntry) → List (List Member)
  | [] => []
  | q :: qs => QueryEntry.members sp q :: QueryEntry.memberLists sp qs

end

/-- The text of a query. -/
def Query.text (sp : Spacing) (q : Query) : List Char :=
  objectText sp (QueryEntry.members sp q)

mutual

/-- The leaves of an entry: its fields from left to right with their conditions. -/
def QueryEntry.leaves : QueryEntry → List (FieldName × Condition)
  | .field f c => [(f, c)]
  | .join _ qs => QueryEntry.leavesOfQueries qs

/-- The leaves of a query. -/
def Query.leaves : Query → List (FieldName × Condition)
  | [] => []
  | e :: es => QueryEntry.leaves e ++ Query.leaves es

/-- The leaves of several queries. -/
def QueryEntry.leavesOfQueries : List (List QueryEntry) → List (FieldName × Condition)
  | [] => []
  | q :: qs => Query.leaves q ++ QueryEntry.leavesOfQueries qs

end

/-! ## Conditions -/

/-- What a leaf mentions: a field with tests is also mentioned by itself. -/
def leafMentions (f : FieldName) (c : Condition) : List Mention :=
  let values := c.values.map fun v => Mention.assign (String.ofList f.name) (String.ofList v.text)
  match c with
  | .equals _ => values
  | .tests _ _ => .touch (String.ofList f.name) :: values

theorem memberMention?_scalar (field : List Char) (v : Scalar) :
    memberMention? field v.text =
      some (.assign (String.ofList field) (String.ofList v.text)) := by
  unfold memberMention? assigned
  rw [ofText_scalar]
  simp only [v.isItem.trimmed.trim_eq]

theorem operatorMentions_entry (sp : Spacing) (field : List Char) (t : FieldTest) :
    operatorMentions field (t.entry sp).name (t.entry sp).value =
      t.values.map fun v => .assign (String.ofList field) (String.ofList v.text) := by
  cases t with
  | compare op v =>
    have hop : isAmong comparisonOperators op.operator = true := by
      cases op <;> decide
    simp only [operatorMentions, FieldTest.entry, FieldTest.values, hop, if_true,
      memberMention?_scalar, Option.toList_some, List.map_cons, List.map_nil]
  | member op vs =>
    have hcomparison : isAmong comparisonOperators op.operator = false := by
      cases op <;> decide
    have hmembership : isAmong membershipOperators op.operator = true := by
      cases op <;> decide
    have hitems : (Value.ofText (scalarArray sp vs)).items = vs.map Scalar.text :=
      items_array sp (isItem_scalars vs)
    simp only [operatorMentions, FieldTest.entry, FieldTest.values, hcomparison, hmembership,
      Bool.false_eq_true, if_false, if_true, hitems, List.filterMap_map]
    rw [List.filterMap_congr fun v _ => show (memberMention? field ∘ Scalar.text) v = some _ from
      memberMention?_scalar field v, List.filterMap_eq_map']

theorem isOperator_entry (sp : Spacing) (t : FieldTest) : isOperator (t.entry sp).name = true := by
  cases t with
  | compare op v => cases op <;> rfl
  | member op vs => cases op <;> rfl

theorem conditionMentions_tests (sp : Spacing) (field : List Char) (ts : List FieldTest) :
    conditionMentions field (objectText sp (ts.map (FieldTest.entry sp))) =
      touched field :: (ts.flatMap FieldTest.values).map fun v =>
        .assign (String.ofList field) (String.ofList v.text) := by
  have hall : ((ts.map (FieldTest.entry sp)).map fun m => (m.name, m.value)).all
      (fun e => isOperator e.1) = true := by
    simp [isOperator_entry]
  unfold conditionMentions objectText
  simp only [entries_object, hall, if_true]
  rw [List.flatMap_map, List.flatMap_map, List.map_flatMap]
  simp only [operatorMentions_entry]

/-- A field with its condition mentions a leaf. -/
theorem fieldMentions_text (sp : Spacing) (f : FieldName) (c : Condition) :
    fieldMentions f.name (c.text sp) = leafMentions f c := by
  cases c with
  | equals v =>
    have hregex : isRegexLiteral v.text = false := by
      have hhead : (v.text.head? == some '/') = false :=
        beq_eq_false_iff_ne.mpr v.head?_text.2.2
      rw [isRegexLiteral, hhead, Bool.false_and]
    unfold fieldMentions Condition.text
    simp only [ofText_scalar, hregex, Bool.false_eq_true, if_false]
    simp [assigned, leafMentions, Condition.values, v.isItem.trimmed.trim_eq]
  | tests t ts =>
    have hobject := ofText_object sp (isItem_members sp ((t :: ts).map (FieldTest.entry sp)))
    have htests := conditionMentions_tests sp f.name (t :: ts)
    unfold objectText at htests
    unfold fieldMentions Condition.text objectText
    rw [hobject]
    exact htests

/-! ## Queries -/

/-- What an entry of a query mentions, queries inside it nested up to a depth. -/
def entryMentions (depth : Nat) (e : List Char × List Char) : List Mention :=
  if isAmong logicalOperators e.1 then (Value.ofText e.2).items.flatMap (queryMentionsTo depth)
  else if isOperator e.1 then []
  else fieldMentions e.1 e.2

theorem queryMentionsTo_succ (depth : Nat) (query : List Char) :
    queryMentionsTo (depth + 1) query = (entries query).flatMap (entryMentions depth) :=
  rfl

theorem length_lt_enclose (sp : Spacing) (o c : Char) {xs : List (List Char)} {x : List Char}
    (h : x ∈ xs) : x.length < (enclose sp o c xs).length := by
  have hsep : x.length ≤ (separated sp xs).length := by
    induction xs with
    | nil => cases h
    | cons y ys ih =>
      cases ys with
      | nil => rw [List.mem_singleton.mp h, separated]
      | cons z zs =>
        rw [separated]
        rcases List.mem_cons.mp h with rfl | h
        · simp only [List.length_append]
          omega
        · have := ih h
          simp only [List.length_append, List.length_cons]
          omega
  simp only [enclose, List.length_cons, List.length_append]
  omega

/-- The values in an object are shorter than the object. -/
theorem length_value_lt (sp : Spacing) {ms : List Member} {m : Member} (h : m ∈ ms) :
    m.value.length < (objectText sp ms).length := by
  have htext := length_lt_enclose sp '\x7b' '\x7d' (List.mem_map_of_mem (f := Member.text sp) h)
  have hvalue : m.value.length ≤ (m.text sp).length := by
    simp only [Member.text, List.length_append, List.length_cons]
    omega
  exact Nat.lt_of_le_of_lt hvalue htext

theorem FieldName.not_among_operators (f : FieldName) :
    isAmong logicalOperators f.name = false ∧ isOperator f.name = false := by
  have hop : isOperator f.name = false := beq_eq_false_iff_ne.mpr f.not_operator
  refine ⟨?_, hop⟩
  cases h : isAmong logicalOperators f.name with
  | false => rfl
  | true =>
    have hmem : String.ofList f.name ∈ logicalOperators := by
      simpa [isAmong] using h
    have hname : ∀ s ∈ logicalOperators, isOperator s.toList = true := by decide
    have := hname _ hmem
    rw [String.toList_ofList, hop] at this
    cases this

/-- The mentions of leaves, from left to right. -/
def mentionsOf (leaves : List (FieldName × Condition)) : List Mention :=
  leaves.flatMap fun (f, c) => leafMentions f c

mutual

theorem entryMentions_member (sp : Spacing) (e : QueryEntry) (depth : Nat)
    (h : (e.member sp).value.length ≤ depth) :
    entryMentions depth ((e.member sp).name, (e.member sp).value) = mentionsOf e.leaves := by
  cases e with
  | field f c =>
    have hf := f.not_among_operators
    simp only [QueryEntry.member, entryMentions, hf.1, hf.2, Bool.false_eq_true, if_false,
      fieldMentions_text]
    simp [QueryEntry.leaves, mentionsOf]
  | join op qs =>
    have hop : isAmong logicalOperators op.operator = true := by
      cases op <;> decide
    have hitems := items_array sp (isItem_objectTexts sp (QueryEntry.memberLists sp qs))
    have hinner := flatMap_queryMentionsTo sp qs depth fun x hx =>
      Nat.lt_of_lt_of_le (length_lt_enclose sp '[' ']' hx) h
    simp only [QueryEntry.member, entryMentions, hop, if_true, hitems, hinner, QueryEntry.leaves]

theorem flatMap_entryMentions (sp : Spacing) (es : List QueryEntry) (depth : Nat)
    (h : ∀ m ∈ QueryEntry.members sp es, m.value.length ≤ depth) :
    ((QueryEntry.members sp es).map fun m => (m.name, m.value)).flatMap (entryMentions depth) =
      mentionsOf (Query.leaves es) := by
  cases es with
  | nil => rfl
  | cons e es =>
    rw [QueryEntry.members] at h ⊢
    rw [List.map_cons, List.flatMap_cons, entryMentions_member sp e depth (h _ List.mem_cons_self),
      flatMap_entryMentions sp es depth fun m hm => h m (List.mem_cons_of_mem _ hm), Query.leaves]
    simp [mentionsOf]

theorem flatMap_queryMentionsTo (sp : Spacing) (qs : List (List QueryEntry)) (depth : Nat)
    (h : ∀ x ∈ (QueryEntry.memberLists sp qs).map (objectText sp), x.length < depth) :
    ((QueryEntry.memberLists sp qs).map (objectText sp)).flatMap (queryMentionsTo depth) =
      mentionsOf (QueryEntry.leavesOfQueries qs) := by
  cases qs with
  | nil => rfl
  | cons q qs =>
    rw [QueryEntry.memberLists, List.map_cons] at h ⊢
    have hlater := flatMap_queryMentionsTo sp qs depth fun x hx => h x (List.mem_cons_of_mem _ hx)
    have hq := h _ List.mem_cons_self
    obtain ⟨k, rfl⟩ : ∃ k, depth = k + 1 := ⟨depth - 1, by omega⟩
    have hfirst := flatMap_entryMentions sp q k fun m hm => by
      have := length_value_lt sp hm
      omega
    have hentries : entries (objectText sp (QueryEntry.members sp q)) = _ :=
      entries_object sp (QueryEntry.members sp q)
    rw [List.flatMap_cons, hlater, queryMentionsTo_succ, hentries, hfirst,
      QueryEntry.leavesOfQueries]
    simp [mentionsOf]

end

/-- A written query mentions its leaves from left to right, and nothing else. -/
theorem queryMentions_text (sp : Spacing) (q : Query) :
    queryMentions (q.text sp) = mentionsOf q.leaves := by
  have hentries : entries (q.text sp) = _ := entries_object sp (QueryEntry.members sp q)
  rw [queryMentions, queryMentionsTo_succ, hentries]
  exact flatMap_entryMentions sp q _ fun m hm => Nat.le_of_lt (length_value_lt sp hm)

/-! ## Footprints -/

/-- The values of leaves, each with its field. -/
def valuesOf (leaves : List (FieldName × Condition)) : List (String × String) :=
  leaves.flatMap fun (f, c) => c.values.map fun v => (String.ofList f.name, String.ofList v.text)

theorem leafMentions_ne_nil (f : FieldName) (c : Condition) : leafMentions f c ≠ [] := by
  cases c <;> exact List.cons_ne_nil _ _

/-- A leaf mentions no field but its own. -/
theorem field_leafMentions (f : FieldName) (c : Condition) :
    ∀ m ∈ leafMentions f c, m.field = String.ofList f.name := by
  have hvalue : ∀ m ∈ c.values.map fun v => Mention.assign (String.ofList f.name) (String.ofList v.text),
      m.field = String.ofList f.name := by
    intro m hm
    obtain ⟨v, -, rfl⟩ := List.mem_map.mp hm
    rfl
  intro m hm
  cases c with
  | equals v => exact hvalue m hm
  | tests t ts =>
    rcases List.mem_cons.mp hm with rfl | hm
    · rfl
    · exact hvalue m hm

theorem values_leafMentions (f : FieldName) (c : Condition) :
    (leafMentions f c).filterMap Mention.value? =
      c.values.map fun v => (String.ofList f.name, String.ofList v.text) := by
  cases c with
  | equals v => rfl
  | tests t ts =>
    simp [leafMentions, List.filterMap_cons, List.filterMap_map, Mention.value?, Function.comp_def]

/-- The footprint of the leaves of a query: their fields without repeats, and all their values. -/
theorem ofMentions_mentionsOf (target : String) (leaves : List (FieldName × Condition)) :
    Footprint.ofMentions target (mentionsOf leaves) = {
      target := some target
      fields := (leaves.map fun l => String.ofList l.1.name).eraseDups
      values := valuesOf leaves } := by
  have h := Footprint.ofMentions_flatMap (fun l => leafMentions_ne_nil l.1 l.2)
    (fun l : FieldName × Condition => field_leafMentions l.1 l.2)
    (fun l => by simpa using l.1.ne_nil) target leaves
  simp only [values_leafMentions] at h
  exact h

/-- A `find` call with a written query touches its collection, the fields of the leaves in the order
of first mention, and the scalars of the leaves in order, each with its field. -/
theorem footprint_find (sp : Spacing) (coll : CollectionName) (q : Query) :
    SchemaLint.footprint .mongodb (findCall coll (q.text sp)) = {
      target := some (String.ofList coll.name)
      fields := (q.leaves.map fun l => String.ofList l.1.name).eraseDups
      values := valuesOf q.leaves } := by
  have hitem : IsItem (q.text sp) := isItem_objectText sp _
  have hprojection : projectionMentions [] = [] := by decide
  unfold SchemaLint.footprint Shell.footprint
  simp only [statementOf_findCall coll hitem, read?_findCall coll hitem, Option.map_some,
    Option.getD_some]
  simp only [Call.mentions, Call.arg, List.getD_cons_zero, List.getD_cons_succ, List.getD_nil,
    hprojection, List.append_nil, queryMentions_text]
  exact ofMentions_mentionsOf _ _

theorem footprint_find_nested :
    SchemaLint.footprint .mongodb
        "db.t.find(\x7b$or:[\x7b\"n\":\x7b$gt:-1,$in:[null]\x7d\x7d,\x7b\"s\":\"x, \x7d\"\x7d],\"n\":0\x7d)".toList = {
      target := some "t"
      fields := ["n", "s"]
      values := [("n", "-1"), ("n", "null"), ("s", "\"x, \x7d\""), ("n", "0")] } := by
  let number : FieldName := ⟨['n'], by decide, by decide, by simp⟩
  let text : FieldName := ⟨['s'], by decide, by decide, by simp⟩
  let tests : Condition :=
    .tests (.compare .gt (.number "-1".toList (by decide) (List.all_eq_true.mp rfl)))
      [.member .isIn [.null]]
  have hread := footprint_find .tight ⟨['t'], by decide, List.all_eq_true.mp (by decide +kernel)⟩
    [.join .or [[.field number tests],
        [.field text (.equals (.string "x, \x7d".toList (escaped_of_plain (by simp))))]],
      .field number (.equals (.number ['0'] (by decide) (List.all_eq_true.mp rfl)))]
  refine (congrArg (SchemaLint.footprint .mongodb) ?_).trans (hread.trans ?_) <;> decide +kernel

end SchemaLint.Shell
