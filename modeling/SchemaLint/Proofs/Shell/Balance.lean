import SchemaLint.Proofs.Balance.Cut
import SchemaLint.Proofs.Shell.Values
import SchemaLint.Script

/-!
# Values of balanced calls

Nothing is unbalanced in the values of a call in whose statement nothing is unbalanced
(`values_of_balanced_call`). Each part that a reader of documents takes from a text is cut out of it at
brackets that are partners or at separators outside quotes and brackets, so the property passes from
the statement to its arguments, and from an argument to its items and the values of its entries, for
as long as they are taken apart.
-/

namespace SchemaLint.Shell

/-- Nothing is unbalanced in the values of some mentions. -/
def BalancedValues (ms : List Mention) : Prop :=
  ∀ v ∈ writtenValues ms, unbalanced v = []

section Mentions

variable {ms ms' : List Mention}

theorem balancedValues_nil : BalancedValues [] := by
  intro v hv
  cases hv

theorem balancedValues_touched (field : List Char) : BalancedValues [touched field] := by
  intro v hv
  cases hv

theorem BalancedValues.append (h : BalancedValues ms) (h' : BalancedValues ms') :
    BalancedValues (ms ++ ms') := by
  intro v hv
  rw [writtenValues_append] at hv
  rcases List.mem_append.mp hv with hv | hv
  · exact h v hv
  · exact h' v hv

theorem balancedValues_flatMap {α : Type} {f : α → List Mention} {l : List α}
    (h : ∀ a ∈ l, BalancedValues (f a)) : BalancedValues (l.flatMap f) := by
  intro v hv
  rw [writtenValues_flatMap] at hv
  obtain ⟨a, ha, hv⟩ := List.mem_flatMap.mp hv
  exact h a ha v hv

end Mentions

/-! ## Parts of documents -/

section Parts

variable {s : List Char} (h : unbalanced s = [])

include h

theorem unbalanced_of_enclosed? {opener closer : Char} {inner : List Char}
    (hinner : enclosed? opener closer s = some inner) : unbalanced inner = [] := by
  unfold enclosed? at hinner
  split at hinner
  · next inner' c hcut =>
    split at hinner
    · obtain rfl := Option.some.inj hinner
      exact unbalanced_of_cutAtPartner? (a := []) h hcut
    · cases hinner
  · cases hinner

theorem unbalanced_ofText : unbalanced (Value.ofText s).text = [] := by
  have htrim := unbalanced_trim.mpr h
  unfold Value.ofText
  split
  · exact htrim
  · split
    · next items hitems => exact unbalanced_of_enclosed? htrim hitems
    · exact htrim

theorem unbalanced_of_mem_items {x : List Char} (hx : x ∈ (Value.ofText s).items) :
    unbalanced x = [] := by
  have htext := unbalanced_ofText h
  cases hvalue : Value.ofText s with
  | array items =>
    rw [hvalue] at hx htext
    exact unbalanced_of_mem_splitTop (by decide) htext hx
  | object _ => rw [hvalue] at hx; cases hx
  | scalar _ => rw [hvalue] at hx; cases hx

theorem unbalanced_of_entry? {entry : List Char × List Char} (hentry : entry? s = some entry) :
    unbalanced entry.2 = [] := by
  unfold entry? at hentry
  split at hentry
  · next key value hcut =>
    split at hentry
    · cases hentry
    · obtain rfl := Option.some.inj hentry
      exact unbalanced_trim.mpr (unbalanced_of_cutAtTop? (by decide) h hcut).2
  · cases hentry

theorem unbalanced_of_mem_entries {entry : List Char × List Char} (hentry : entry ∈ entries s) :
    unbalanced entry.2 = [] := by
  unfold entries at hentry
  split at hentry
  · next inner hinner =>
    obtain ⟨item, hitem, hread⟩ := List.mem_filterMap.mp hentry
    have hinside := unbalanced_of_enclosed? (unbalanced_trim.mpr h) hinner
    exact unbalanced_of_entry? (unbalanced_of_mem_splitTop (by decide) hinside hitem) hread
  · cases hentry

/-- What is mentioned entry by entry. -/
theorem balancedValues_flatMap_entries {f : List Char × List Char → List Mention}
    (hf : ∀ key value, unbalanced value = [] → BalancedValues (f (key, value))) :
    BalancedValues ((entries s).flatMap f) :=
  balancedValues_flatMap fun (key, value) hentry => hf key value (unbalanced_of_mem_entries h hentry)

/-! ## Queries -/

theorem balancedValues_assigned (field : List Char) : BalancedValues [assigned field s] := by
  intro v hv
  obtain rfl : v = (String.ofList (Text.trim s)).toList := List.mem_singleton.mp hv
  rw [String.toList_ofList]
  exact unbalanced_trim.mpr h

theorem balancedValues_memberMention? (field : List Char) :
    BalancedValues (memberMention? field s).toList := by
  have htext := unbalanced_ofText h
  unfold memberMention?
  split
  · next text hvalue =>
    rw [hvalue] at htext
    exact balancedValues_assigned htext field
  · exact balancedValues_nil

theorem balancedValues_operatorMentions (field operator : List Char) :
    BalancedValues (operatorMentions field operator s) := by
  unfold operatorMentions
  split
  · exact balancedValues_memberMention? h field
  · split
    · rw [List.filterMap_eq_flatMap_toList]
      exact balancedValues_flatMap fun item hitem =>
        balancedValues_memberMention? (unbalanced_of_mem_items h hitem) field
    · exact balancedValues_nil

theorem balancedValues_conditionMentions (field : List Char) :
    BalancedValues (conditionMentions field s) := by
  have hoperators : BalancedValues ((entries s).flatMap fun entry =>
      operatorMentions field entry.1 entry.2) :=
    balancedValues_flatMap_entries h fun operator operand hoperand =>
      balancedValues_operatorMentions hoperand field operator
  have htouched := balancedValues_touched field
  unfold conditionMentions
  dsimp only
  split
  · exact htouched.append hoperators
  · exact htouched.append balancedValues_nil

theorem balancedValues_fieldMentions (field : List Char) : BalancedValues (fieldMentions field s) := by
  have htext := unbalanced_ofText h
  unfold fieldMentions
  split
  · next text hvalue =>
    rw [hvalue] at htext
    split
    · exact balancedValues_touched field
    · exact balancedValues_assigned htext field
  · exact balancedValues_touched field
  · next body hvalue =>
    rw [hvalue] at htext
    exact balancedValues_conditionMentions htext field

theorem balancedValues_queryMentionsTo (depth : Nat) : BalancedValues (queryMentionsTo depth s) := by
  -- A query inside another is an item of the value of an entry, so it is balanced in its turn.
  induction depth generalizing s with
  | zero => exact balancedValues_nil
  | succ depth ih =>
    rw [queryMentionsTo]
    refine balancedValues_flatMap_entries h fun key value hvalue => ?_
    dsimp only
    split
    · exact balancedValues_flatMap fun item hitem => ih (unbalanced_of_mem_items hvalue hitem)
    · split
      · exact balancedValues_nil
      · exact balancedValues_fieldMentions hvalue key

/-! ## Documents and updates -/

theorem balancedValues_writtenMention (field : List Char) :
    BalancedValues [writtenMention field s] := by
  have htext := unbalanced_ofText h
  unfold writtenMention
  split
  · next text hvalue =>
    rw [hvalue] at htext
    exact balancedValues_assigned htext field
  · exact balancedValues_touched field

theorem balancedValues_documentMentions : BalancedValues (documentMentions s) := by
  rw [documentMentions, List.filterMap_eq_flatMap_toList]
  refine balancedValues_flatMap_entries h fun field value hvalue => ?_
  dsimp only
  split
  · exact balancedValues_nil
  · exact balancedValues_writtenMention hvalue field

theorem balancedValues_updateMentions : BalancedValues (updateMentions s) := by
  unfold updateMentions
  dsimp only
  split
  · refine balancedValues_flatMap_entries h fun operator body hbody => ?_
    rw [List.map_eq_flatMap]
    refine balancedValues_flatMap_entries hbody fun field value hvalue => ?_
    dsimp only
    split
    · exact balancedValues_writtenMention hvalue field
    · exact balancedValues_touched field
  · exact balancedValues_documentMentions h

end Parts

theorem balancedValues_projectionMentions (projection : List Char) :
    BalancedValues (projectionMentions projection) := by
  intro v hv
  rw [writtenValues_projectionMentions] at hv
  cases hv

/-! ## Calls -/

section Calls

variable {c : Call}

theorem unbalanced_arg (h : ∀ arg ∈ c.args, unbalanced arg = []) (index : Nat) :
    unbalanced (c.arg index) = [] := by
  rw [Call.arg, List.getD_eq_getElem?_getD]
  cases hget : c.args[index]? with
  | none => rfl
  | some arg => exact h arg (List.mem_of_getElem? hget)

theorem balancedValues_mentions (h : ∀ arg ∈ c.args, unbalanced arg = []) :
    BalancedValues c.mentions := by
  have hfirst := unbalanced_arg h 0
  have hsecond := unbalanced_arg h 1
  have hquery : BalancedValues (queryMentions (c.arg 0)) := balancedValues_queryMentionsTo hfirst _
  unfold Call.mentions
  split
  · exact hquery.append (balancedValues_projectionMentions (c.arg 1))
  · exact hquery
  · exact hquery
  · exact hquery.append (balancedValues_updateMentions hsecond)
  · exact hquery.append (balancedValues_documentMentions hsecond)
  · exact balancedValues_documentMentions hfirst
  · exact balancedValues_flatMap fun document hdocument =>
      balancedValues_documentMentions (unbalanced_of_mem_items hfirst hdocument)

theorem unbalanced_of_mem_args {statement : List Char} (h : unbalanced statement = [])
    (hread : Call.read? statement = some c) : ∀ arg ∈ c.args, unbalanced arg = [] := by
  unfold Call.read? at hread
  obtain ⟨⟨⟨collection, verb⟩, rest⟩, -, hread⟩ := Option.bind_eq_some_iff.mp hread
  obtain ⟨layout, -, hread⟩ := Option.bind_eq_some_iff.mp hread
  obtain ⟨⟨arguments, behind⟩, hcut, hread⟩ := Option.bind_eq_some_iff.mp hread
  obtain rfl := Option.some.inj hread
  have hsplit := List.take_append_drop (statement.length - rest.length - 1) statement
  rw [← hsplit] at h
  intro arg harg
  exact unbalanced_of_mem_splitTop (by decide) (unbalanced_of_cutAtPartner? h hcut) harg

end Calls

/-- A line whose statement has nothing unbalanced is never cut into values with an open bracket or
quote. -/
theorem values_of_balanced_call {line : List Char} (h : unbalanced (statementOf line) = []) :
    ∀ p ∈ (SchemaLint.footprint .mongodb line).values, unbalanced p.2.toList = [] := by
  intro p hp
  change p ∈ (footprint line).values at hp
  unfold footprint at hp
  cases hread : Call.read? (statementOf line) with
  | none =>
    rw [hread] at hp
    cases hp
  | some c =>
    rw [hread] at hp
    obtain ⟨m, hm, hvalue⟩ := List.mem_filterMap.mp hp
    refine balancedValues_mentions (unbalanced_of_mem_args h hread) p.2.toList ?_
    exact List.mem_filterMap.mpr ⟨m, (List.mem_filter.mp hm).1, by rw [hvalue]; rfl⟩

/-- A query whose strings hold brackets and the quote of the other kind. -/
theorem values_of_balanced_call_quoted :
    let line := ("db.c.updateOne(\x7ba: \x7b$in: [')', f(\"it's\")]\x7d\x7d, " ++
      "\x7b$set: \x7bb: '[\\''\x7d\x7d); // :(").toList
    unbalanced (statementOf line) = [] ∧
      (SchemaLint.footprint .mongodb line).values =
        [("a", "')'"), ("a", "f(\"it's\")"), ("b", "'[\\''")] ∧
      ∀ p ∈ (SchemaLint.footprint .mongodb line).values, unbalanced p.2.toList = [] := by
  intro line
  have h : unbalanced (statementOf line) = [] := by decide +kernel
  exact ⟨h, by decide +kernel, values_of_balanced_call h⟩

end SchemaLint.Shell
