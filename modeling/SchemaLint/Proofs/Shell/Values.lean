import SchemaLint.Proofs.Scattered
import SchemaLint.Shell.Footprint

/-!
# Values of calls

The values that an argument of a call mentions are scattered in the text of that argument, whatever
the text is: those of a query (`scattered_queryMentionsTo`), of a document and of an update. Keys are
no values, so it is the values of the entries in which those of an object are looked for
(`scattered_entries`).
-/

namespace SchemaLint.Shell

variable {s : List Char}

theorem scattered_assigned (field value : List Char) :
    Scattered (writtenValues [assigned field value]) value := by
  have htext : (String.ofList (Text.trim value)).toList <:+: value := by
    rw [String.toList_ofList]
    exact Text.trim_isInfix value
  exact .of_isInfix htext

/-! ## Values and entries -/

theorem isInfix_of_enclosed? {opener closer : Char} {inner : List Char}
    (h : enclosed? opener closer s = some inner) : inner <:+: s := by
  unfold enclosed? at h
  split at h
  · next inner c hcut =>
    obtain ⟨o, rfl⟩ := exists_of_cutAtPartner? hcut
    split at h
    · obtain rfl := Option.some.inj h
      exact ⟨[o], [c], rfl⟩
    · cases h
  · cases h

/-- The text of a value, without the brackets of an array. -/
def Value.text : Value → List Char
  | object text => text
  | array items => items
  | scalar text => text

theorem isInfix_of_ofText (s : List Char) : (Value.ofText s).text <:+: s := by
  unfold Value.ofText
  split
  · exact Text.trim_isInfix s
  · split
    · next items hitems => exact (isInfix_of_enclosed? hitems).trans (Text.trim_isInfix s)
    · exact Text.trim_isInfix s

theorem scattered_items (s : List Char) : Scattered (Value.ofText s).items s := by
  have htext := isInfix_of_ofText s
  cases hvalue : Value.ofText s with
  | array items =>
    rw [hvalue] at htext
    exact (scattered_splitTop ',' items).mono htext
  | object _ => exact .none s
  | scalar _ => exact .none s

theorem isInfix_entryValue {entry : List Char × List Char} (h : entry? s = some entry) :
    entry.2 <:+: s := by
  unfold entry? at h
  split at h
  · next key value hcut =>
    obtain ⟨g, rfl⟩ := exists_of_cutAtTop? hcut
    split at h
    · cases h
    · obtain rfl := Option.some.inj h
      exact (Text.trim_isInfix value).trans
        ((List.suffix_cons g value).trans (List.suffix_append key _)).isInfix
  · cases h

/-- The values of the entries of an object are scattered in it. -/
theorem scattered_entries (document : List Char) :
    Scattered ((entries document).map (·.2)) document := by
  unfold entries
  split
  · next inner hinner =>
    rw [List.filterMap_eq_flatMap_toList, List.map_flatMap]
    refine ((scattered_splitTop ',' inner).bind fun item => ?_).mono
      ((isInfix_of_enclosed? hinner).trans (Text.trim_isInfix document))
    cases hentry : entry? item with
    | none => exact .none item
    | some entry => exact .of_isInfix (isInfix_entryValue hentry)
  · exact .none document

/-- What is mentioned entry by entry, each time with values from the value of the entry. -/
theorem scattered_flatMap_entries {f : List Char × List Char → List Mention} (document : List Char)
    (hf : ∀ key value, Scattered (writtenValues (f (key, value))) value) :
    Scattered (writtenValues ((entries document).flatMap f)) document := by
  rw [writtenValues_flatMap]
  exact (scattered_entries document).flatMap fun (key, value) _ => hf key value

/-! ## Queries -/

theorem scattered_memberMention? (field item : List Char) :
    Scattered (writtenValues (memberMention? field item).toList) item := by
  have htext := isInfix_of_ofText item
  unfold memberMention?
  split
  · next text hvalue =>
    rw [hvalue] at htext
    exact (scattered_assigned field text).mono htext
  · exact .none item

theorem scattered_operatorMentions (field operator operand : List Char) :
    Scattered (writtenValues (operatorMentions field operator operand)) operand := by
  unfold operatorMentions
  split
  · exact scattered_memberMention? field operand
  · split
    · rw [writtenValues_filterMap]
      exact (scattered_items operand).bind (scattered_memberMention? field)
    · exact .none operand

theorem scattered_conditionMentions (field body : List Char) :
    Scattered (writtenValues (conditionMentions field body)) body := by
  unfold conditionMentions
  dsimp only
  split
  · exact scattered_flatMap_entries body (scattered_operatorMentions field)
  · exact .none body

theorem scattered_fieldMentions (field value : List Char) :
    Scattered (writtenValues (fieldMentions field value)) value := by
  have htext := isInfix_of_ofText value
  unfold fieldMentions
  split
  · next text hvalue =>
    rw [hvalue] at htext
    split
    · exact .none value
    · exact (scattered_assigned field text).mono htext
  · exact .none value
  · next body hvalue =>
    rw [hvalue] at htext
    exact (scattered_conditionMentions field body).mono htext

theorem scattered_queryMentionsTo (depth : Nat) (query : List Char) :
    Scattered (writtenValues (queryMentionsTo depth query)) query := by
  induction depth generalizing query with
  | zero => exact .none query
  | succ depth ih =>
    rw [queryMentionsTo]
    refine scattered_flatMap_entries query fun key value => ?_
    dsimp only
    split
    · rw [writtenValues_flatMap]
      exact (scattered_items value).bind ih
    · split
      · exact .none value
      · exact scattered_fieldMentions key value

/-! ## Documents and updates -/

theorem scattered_writtenMention (field value : List Char) :
    Scattered (writtenValues [writtenMention field value]) value := by
  have htext := isInfix_of_ofText value
  unfold writtenMention
  split
  · next text hvalue =>
    rw [hvalue] at htext
    exact (scattered_assigned field text).mono htext
  · exact .none value

theorem scattered_documentMentions (document : List Char) :
    Scattered (writtenValues (documentMentions document)) document := by
  rw [documentMentions, List.filterMap_eq_flatMap_toList]
  refine scattered_flatMap_entries document fun field value => ?_
  dsimp only
  split
  · exact .none value
  · exact scattered_writtenMention field value

theorem scattered_updateMentions (update : List Char) :
    Scattered (writtenValues (updateMentions update)) update := by
  unfold updateMentions
  dsimp only
  split
  · refine scattered_flatMap_entries update fun operator body => ?_
    rw [List.map_eq_flatMap]
    refine scattered_flatMap_entries body fun field value => ?_
    dsimp only
    split
    · exact scattered_writtenMention field value
    · exact .none value
  · exact scattered_documentMentions update

/-- A projection only names fields. -/
theorem writtenValues_projectionMentions (projection : List Char) :
    writtenValues (projectionMentions projection) = [] := by
  apply writtenValues_eq_nil
  intro m hm
  obtain ⟨⟨field, value⟩, -, hm⟩ := List.mem_filterMap.mp hm
  dsimp only at hm
  split at hm
  · cases hm
  · rw [← Option.some.inj hm]
    rfl

/-! ## Calls -/

/-- What the first two arguments mention, where an argument that is left out mentions nothing. -/
theorem scattered_arguments {args : List (List Char)} (h : Scattered args s)
    {f g : List Char → List (List Char)} (hf : ∀ t, Scattered (f t) t) (hg : ∀ t, Scattered (g t) t)
    (hfnil : f [] = []) (hgnil : g [] = []) :
    Scattered (f (args.getD 0 []) ++ g (args.getD 1 [])) s := by
  match args with
  | [] =>
    rw [List.getD_nil, List.getD_nil, hfnil, hgnil]
    exact .none s
  | [a] =>
    change Scattered (f a ++ g []) s
    rw [hgnil]
    exact h.bind hf
  | a :: b :: args =>
    have hpair : Scattered ([(f, a), (g, b)].map Prod.snd) s :=
      h.sublist (((List.nil_sublist args).cons_cons b).cons_cons a)
    have hboth := hpair.flatMap (f := fun p => p.1 p.2) (by simp [hf, hg])
    simpa using hboth

theorem scattered_firstArgument {args : List (List Char)} (h : Scattered args s)
    {f : List Char → List (List Char)} (hf : ∀ t, Scattered (f t) t) (hfnil : f [] = []) :
    Scattered (f (args.getD 0 [])) s := by
  have hfirst := scattered_arguments h (g := fun _ => []) hf (fun t => .none t) hfnil rfl
  rwa [List.append_nil] at hfirst

theorem scattered_mentions {c : Call} (h : Scattered c.args s) :
    Scattered (writtenValues c.mentions) s := by
  have hquery (t : List Char) := scattered_queryMentionsTo (t.length + 1) t
  unfold Call.mentions Call.arg
  split
  · rw [writtenValues_append, writtenValues_projectionMentions, List.append_nil]
    exact scattered_firstArgument h hquery rfl
  · exact scattered_firstArgument h hquery rfl
  · exact scattered_firstArgument h hquery rfl
  · rw [writtenValues_append]
    exact scattered_arguments h hquery scattered_updateMentions rfl rfl
  · rw [writtenValues_append]
    exact scattered_arguments h hquery scattered_documentMentions rfl rfl
  · exact scattered_firstArgument h scattered_documentMentions rfl
  · have hdocuments (t : List Char) : Scattered
        (writtenValues ((Value.ofText t).items.flatMap documentMentions)) t := by
      rw [writtenValues_flatMap]
      exact (scattered_items t).bind scattered_documentMentions
    exact scattered_firstArgument h hdocuments rfl

/-- The arguments of a call are scattered in its statement. -/
theorem scattered_args {statement : List Char} {c : Call} (h : Call.read? statement = some c) :
    Scattered c.args statement := by
  unfold Call.read? at h
  obtain ⟨⟨⟨collection, verb⟩, rest⟩, -, h⟩ := Option.bind_eq_some_iff.mp h
  obtain ⟨layout, -, h⟩ := Option.bind_eq_some_iff.mp h
  obtain ⟨⟨arguments, behind⟩, hcut, h⟩ := Option.bind_eq_some_iff.mp h
  obtain rfl := Option.some.inj h
  obtain ⟨o, hdrop⟩ := exists_of_cutAtPartner?_from hcut
  have harguments : arguments <:+: statement.drop (statement.length - rest.length - 1) :=
    ⟨[o], behind, by rw [hdrop]; rfl⟩
  exact (scattered_splitTop ',' arguments).mono (harguments.trans (List.drop_suffix _ _).isInfix)

end SchemaLint.Shell
