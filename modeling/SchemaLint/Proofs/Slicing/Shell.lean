import SchemaLint.Proofs.Shell.Head
import SchemaLint.Proofs.Shell.Values
import SchemaLint.Proofs.Slicing.Scan
import SchemaLint.Shell.Shape

/-!
# Reading shell statements by byte offsets

The readers of values, entries and calls, of what they mention, and the checks of shape, on texts that
are cut at byte offsets. A query may hold queries, which are shorter (`length_of_mem_items`), so a
bound on the nesting that is behind the length of the query is never met.
-/

namespace SchemaLint.Slicing.Shell

open SchemaLint.Shell Nesting Text

/-! ## Values and entries -/

def isEnclosed? (opener closer : Char) (s : List Char) : Option Bool :=
  if s.head? == some opener && s.getLast? == some closer then endsAtPartner? s else some false

def valueOf? (text : List Char) : Option Value := do
  let s := trim text
  if ← isEnclosed? '\x7b' '\x7d' s then return .object s
  else if ← isEnclosed? '[' ']' s then return .array (← inner? s)
  else return .scalar s

def items? : Value → Option (List (List Char))
  | .array items => splitTop? ',' items
  | _ => some []

/-- The key and value of one entry, if it is one. -/
def entry? (s : List Char) : Option (Option (List Char × List Char)) :=
  match findTop? ':' s with
  | none => some none
  | some k => do
    let key ← unquote? (← slice? s 0 k)
    let value ← slice? s (k + 1) (utf8Length s)
    return if key.isEmpty then none else some (key, trim value)

def entries? (document : List Char) : Option (List (List Char × List Char)) := do
  let document := trim document
  if ← isEnclosed? '\x7b' '\x7d' document then
    (← splitTop? ',' (← inner? document)).filterMapM entry?
  else return []

section Values

theorem isEnclosed?_cases (opener closer : Char) (s : List Char) :
    (isEnclosed? opener closer s = some true ∧ ∃ inner, inner? s = some inner ∧
      enclosed? opener closer s = some inner) ∨
    (isEnclosed? opener closer s = some false ∧ enclosed? opener closer s = none) := by
  unfold isEnclosed? enclosed?
  by_cases hends : s.head? = some opener ∧ s.getLast? = some closer
  · have hne : s ≠ [] := by
      rintro rfl
      cases hends.1
    rw [if_pos (by simpa using hends)]
    rcases endsAtPartner?_cases hne with ⟨hpartner, o, x, c, rfl, ho, hc, hcut⟩ | ⟨hpartner, hcut⟩
    · left
      obtain ⟨hopener, hcloser⟩ := hends
      obtain rfl : c = closer := by
        rw [← List.cons_append, List.getLast?_concat] at hcloser
        exact Option.some.inj hcloser
      refine ⟨hpartner, x, inner?_eq (utf8Size_of_isOpener ho) (utf8Size_of_isCloser hc) x, ?_⟩
      rw [hcut]
      dsimp only
      rw [hopener, if_pos (by simp)]
    · refine .inr ⟨hpartner, ?_⟩
      split
      · next inner c hpartner => exact absurd hpartner (hcut inner c)
      · rfl
  · refine .inr ⟨if_neg (by simpa using hends), ?_⟩
    split
    · next inner c hcut =>
      obtain ⟨o, rfl⟩ := exists_of_cutAtPartner? hcut
      refine if_neg fun h => hends ?_
      rw [← List.cons_append, List.getLast?_concat]
      simpa using h
    · rfl

theorem valueOf?_eq (text : List Char) : valueOf? text = some (Value.ofText text) := by
  unfold valueOf? Value.ofText braced? bracketed?
  dsimp only
  rcases isEnclosed?_cases '\x7b' '\x7d' (trim text) with ⟨his, inner, hinner, hbraced⟩ | ⟨his, hbraced⟩
  · rw [his, hbraced]
    rfl
  · rw [his, hbraced]
    rcases isEnclosed?_cases '[' ']' (trim text) with ⟨his, items, hitems, hbracketed⟩ | ⟨his, hbracketed⟩
    · rw [his, hbracketed, hitems]
      rfl
    · rw [his, hbracketed]
      rfl

theorem items?_eq (value : Value) : items? value = some value.items := by
  cases value with
  | array items => exact splitTop?_eq ',' items
  | object _ => rfl
  | scalar _ => rfl

theorem entry?_eq (s : List Char) : entry? s = some (SchemaLint.Shell.entry? s) := by
  unfold entry? SchemaLint.Shell.entry?
  rcases findTop?_cases ':' s with ⟨hcut, hfind⟩ | ⟨key, value, rfl, hcut, hfind⟩
  · rw [hcut, hfind]
  · rw [hcut, hfind]
    dsimp only [Option.bind_eq_bind]
    rw [slice?_front, slice?_behind_char key rfl value, Option.bind_some, unquote?_eq]
    rfl

theorem entries?_eq (document : List Char) : entries? document = some (entries document) := by
  unfold entries? entries braced?
  dsimp only
  rcases isEnclosed?_cases '\x7b' '\x7d' (trim document) with
    ⟨his, inner, hinner, hbraced⟩ | ⟨his, hbraced⟩
  · rw [his, hbraced, hinner]
    dsimp only [Option.bind_eq_bind, Option.bind_some]
    rw [if_pos rfl, splitTop?_eq]
    exact filterMapM_eq_some fun item _ => entry?_eq item
  · rw [his, hbraced]
    rfl

end Values

/-! ## Queries -/

def memberMention? (field item : List Char) : Option (Option Mention) := do
  match ← valueOf? item with
  | .scalar text => return some (assigned field text)
  | _ => return none

def operatorMentions? (field operator operand : List Char) : Option (List Mention) :=
  if isAmong comparisonOperators operator then do
    return (← memberMention? field operand).toList
  else if isAmong membershipOperators operator then do
    (← items? (← valueOf? operand)).filterMapM (memberMention? field)
  else some []

def conditionMentions? (field body : List Char) : Option (List Mention) := do
  let operators ← entries? body
  if operators.all fun (key, _) => isOperator key then
    let mentions ← operators.mapM fun (key, operand) => operatorMentions? field key operand
    return touched field :: mentions.flatten
  else return [touched field]

def fieldMentions? (field value : List Char) : Option (List Mention) := do
  match ← valueOf? value with
  | .scalar text => return if isRegexLiteral text then [touched field] else [assigned field text]
  | .array _ => return [touched field]
  | .object body => conditionMentions? field body

def entryMentions? (ofQuery : List Char → Option (List Mention)) (entry : List Char × List Char) :
    Option (List Mention) :=
  if isAmong logicalOperators entry.1 then do
    return (← (← items? (← valueOf? entry.2)).mapM ofQuery).flatten
  else if isOperator entry.1 then some []
  else fieldMentions? entry.1 entry.2

/-- What a query mentions. Queries nested deeper than a bound are none. -/
def queryMentionsTo? : Nat → List Char → Option (List Mention)
  | 0, _ => none
  | depth + 1, query => do
    return (← (← entries? query).mapM (entryMentions? (queryMentionsTo? depth))).flatten

def queryMentions? (query : List Char) : Option (List Mention) :=
  queryMentionsTo? (query.length + 1) query

section Queries

theorem memberMention?_eq (field item : List Char) :
    memberMention? field item = some (SchemaLint.Shell.memberMention? field item) := by
  rw [memberMention?, valueOf?_eq, SchemaLint.Shell.memberMention?]
  cases Value.ofText item <;> rfl

theorem operatorMentions?_eq (field operator operand : List Char) :
    operatorMentions? field operator operand = some (operatorMentions field operator operand) := by
  unfold operatorMentions? operatorMentions
  split
  · rw [memberMention?_eq]
    rfl
  · split
    · rw [valueOf?_eq, Option.bind_eq_bind, Option.bind_some, items?_eq]
      exact filterMapM_eq_some fun item _ => memberMention?_eq field item
    · rfl

theorem conditionMentions?_eq (field body : List Char) :
    conditionMentions? field body = some (conditionMentions field body) := by
  unfold conditionMentions? conditionMentions
  rw [entries?_eq, Option.bind_eq_bind, Option.bind_some]
  dsimp only
  split
  · rw [mapM_eq_some fun entry _ => operatorMentions?_eq field entry.1 entry.2]
    rfl
  · rfl

theorem fieldMentions?_eq (field value : List Char) :
    fieldMentions? field value = some (fieldMentions field value) := by
  rw [fieldMentions?, valueOf?_eq, fieldMentions]
  cases Value.ofText value with
  | object body => exact conditionMentions?_eq field body
  | array _ => rfl
  | scalar _ => rfl

theorem length_of_enclosed? {opener closer : Char} {s inner : List Char}
    (h : enclosed? opener closer s = some inner) : inner.length < s.length := by
  unfold enclosed? at h
  split at h
  · next x c hcut =>
    obtain ⟨o, rfl⟩ := exists_of_cutAtPartner? hcut
    split at h
    · obtain rfl := Option.some.inj h
      simp only [List.length_cons, List.length_append]
      omega
    · cases h
  · cases h

/-- The items of an array are shorter than the array. -/
theorem length_of_mem_items {s item : List Char} (h : item ∈ (Value.ofText s).items) :
    item.length < s.length := by
  unfold Value.ofText at h
  split at h
  · cases h
  · split at h
    · next items hitems =>
      have hitem := (isInfix_of_mem_splitTop h).length_le
      have hinner := length_of_enclosed? hitems
      have htrim := (trim_isInfix s).length_le
      omega
    · cases h

theorem queryMentionsTo?_eq {query : List Char} {depth : Nat} (h : query.length < depth) :
    queryMentionsTo? depth query = some (queryMentionsTo depth query) := by
  induction depth generalizing query with
  | zero => exact absurd h (Nat.not_lt_zero _)
  | succ depth ih =>
    have hentry : ∀ entry ∈ entries query, entryMentions? (queryMentionsTo? depth) entry =
        some (if isAmong logicalOperators entry.1 then
            (Value.ofText entry.2).items.flatMap (queryMentionsTo depth)
          else if isOperator entry.1 then []
          else fieldMentions entry.1 entry.2) := by
      intro entry hentry
      have hvalue : entry.2.length ≤ query.length :=
        ((scattered_entries query).isInfix_of_mem (List.mem_map_of_mem hentry)).length_le
      unfold entryMentions?
      split
      · have hitems : ∀ item ∈ (Value.ofText entry.2).items,
            queryMentionsTo? depth item = some (queryMentionsTo depth item) := by
          intro item hitem
          have hlength := length_of_mem_items hitem
          exact ih (by omega)
        rw [valueOf?_eq, Option.bind_eq_bind, Option.bind_some, items?_eq, Option.bind_eq_bind,
          Option.bind_some, mapM_eq_some hitems]
        rfl
      · split
        · rfl
        · exact fieldMentions?_eq entry.1 entry.2
    rw [queryMentionsTo?, entries?_eq, Option.bind_eq_bind, Option.bind_some, mapM_eq_some hentry]
    rfl

theorem queryMentions?_eq (query : List Char) : queryMentions? query = some (queryMentions query) :=
  queryMentionsTo?_eq (Nat.lt_succ_self query.length)

end Queries

/-! ## Documents and updates -/

/-- What a field written with a value mentions; only some operators assign it. -/
def writtenMention? (assigns : Bool) (field value : List Char) : Option Mention := do
  match ← valueOf? value with
  | .scalar text => return if assigns then assigned field text else touched field
  | _ => return touched field

def documentMention? (entry : List Char × List Char) : Option (Option Mention) :=
  if isOperator entry.1 then some none
  else do return some (← writtenMention? true entry.1 entry.2)

def documentMentions? (document : List Char) : Option (List Mention) := do
  (← entries? document).filterMapM documentMention?

def updateMention? (update : List Char × List Char) : Option (List Mention) := do
  (← entries? update.2).mapM fun (field, value) =>
    writtenMention? (isAmong assigningOperators update.1) field value

def updateMentions? (update : List Char) : Option (List Mention) := do
  let operators ← entries? update
  if operators.any fun (key, _) => isOperator key then
    return (← operators.mapM updateMention?).flatten
  else documentMentions? update

def projectionMentions? (projection : List Char) : Option (List Mention) := do
  return (← entries? projection).filterMap fun (field, _) =>
    if isOperator field then none else some (touched field)

section Documents

theorem writtenMention?_eq (assigns : Bool) (field value : List Char) : writtenMention? assigns field value =
    some (if assigns then writtenMention field value else touched field) := by
  rw [writtenMention?, valueOf?_eq, writtenMention]
  cases Value.ofText value <;> cases assigns <;> rfl

theorem documentMentions?_eq (document : List Char) :
    documentMentions? document = some (documentMentions document) := by
  rw [documentMentions?, entries?_eq]
  refine filterMapM_eq_some fun entry _ => ?_
  unfold documentMention?
  dsimp only
  split
  · rfl
  · rw [writtenMention?_eq]
    rfl

theorem updateMention?_eq (update : List Char × List Char) : updateMention? update =
    some ((entries update.2).map fun (field, value) =>
      if isAmong assigningOperators update.1 then writtenMention field value else touched field) := by
  rw [updateMention?, entries?_eq]
  exact mapM_eq_some fun entry _ => writtenMention?_eq _ entry.1 entry.2

theorem updateMentions?_eq (update : List Char) :
    updateMentions? update = some (updateMentions update) := by
  unfold updateMentions? updateMentions
  rw [entries?_eq, Option.bind_eq_bind, Option.bind_some]
  dsimp only
  split
  · rw [mapM_eq_some fun operator _ => updateMention?_eq operator]
    rfl
  · exact documentMentions?_eq update

theorem projectionMentions?_eq (projection : List Char) :
    projectionMentions? projection = some (projectionMentions projection) := by
  rw [projectionMentions?, entries?_eq]
  rfl

end Documents

/-! ## Calls -/

/-- The call that a statement is, if it is one. The form of a call ends with the parenthesis that opens
its arguments. -/
def callOf? (statement : List Char) : Option (Option Call) :=
  match (callForm statement).head? with
  | none => some none
  | some ((collection, verb), rest) =>
    match Layout.ofVerb? (String.ofList verb) with
    | none => some none
    | some layout => do
      let opener ← (utf8Length statement - utf8Length rest).ppred
      match partnerOffset? statement opener with
      | none => return none
      | some closer =>
        let args ← splitTop? ',' (← slice? statement (opener + 1) closer)
        return some { collection := String.ofList collection, verb := String.ofList verb, layout, args }

def itemsMentions? (arg : List Char) : Option (List Mention) := do
  return (← (← items? (← valueOf? arg)).mapM documentMentions?).flatten

def mentions? (c : Call) : Option (List Mention) :=
  match c.layout with
  | .find => do return (← queryMentions? (c.arg 0)) ++ (← projectionMentions? (c.arg 1))
  | .query | .count => queryMentions? (c.arg 0)
  | .update => do return (← queryMentions? (c.arg 0)) ++ (← updateMentions? (c.arg 1))
  | .replace => do return (← queryMentions? (c.arg 0)) ++ (← documentMentions? (c.arg 1))
  | .insertOne => documentMentions? (c.arg 0)
  | .insertMany => itemsMentions? (c.arg 0)

def footprint? (line : List Char) : Option Footprint := do
  match ← callOf? (← statementOf? line) with
  | some c => return .ofMentions c.collection (← mentions? c)
  | none => return .unrecognized

section Calls

theorem callOf?_eq (statement : List Char) : callOf? statement = some (Call.read? statement) := by
  unfold callOf? Call.read?
  cases hform : (callForm statement).head? with
  | none => rfl
  | some form =>
    obtain ⟨⟨collection, verb⟩, rest⟩ := form
    dsimp only [Option.bind_eq_bind, Option.bind_some]
    cases Layout.ofVerb? (String.ofList verb) with
    | none => rfl
    | some layout =>
      obtain ⟨-, a, rfl, -⟩ := exists_head (List.mem_of_head? hform)
      have hopener : utf8Length (a ++ '(' :: rest) - utf8Length rest = utf8Length a + 1 := by
        have hsize : utf8Length ('(' :: rest) = 1 + utf8Length rest := rfl
        rw [utf8Length_append, hsize]
        omega
      have hchars : (a ++ '(' :: rest).length - rest.length - 1 = a.length := by
        simp only [List.length_append, List.length_cons]
        omega
      dsimp only [Option.bind_some]
      rw [hopener, Nat.ppred_succ, hchars, List.take_left, List.drop_left]
      dsimp only [Option.bind_some]
      rw [partnerOffset?_append]
      cases hcut : (start.after a).cutAtPartner? ('(' :: rest) with
      | none => rfl
      | some cut =>
        obtain ⟨arguments, behind⟩ := cut
        obtain ⟨o, hcons⟩ := exists_of_cutAtPartner?_from hcut
        obtain ⟨rfl, rfl⟩ := List.cons.inj hcons
        dsimp only [Option.map_some, Option.bind_some]
        rw [slice?_inside a rfl, Option.bind_some, splitTop?_eq]
        rfl

theorem mentions?_eq (c : Call) : mentions? c = some c.mentions := by
  unfold mentions? Call.mentions
  cases c.layout with
  | find =>
    dsimp only
    rw [queryMentions?_eq, projectionMentions?_eq]
    rfl
  | query => exact queryMentions?_eq (c.arg 0)
  | count => exact queryMentions?_eq (c.arg 0)
  | update =>
    dsimp only
    rw [queryMentions?_eq, updateMentions?_eq]
    rfl
  | replace =>
    dsimp only
    rw [queryMentions?_eq, documentMentions?_eq]
    rfl
  | insertOne => exact documentMentions?_eq (c.arg 0)
  | insertMany =>
    dsimp only
    rw [itemsMentions?, valueOf?_eq, Option.bind_eq_bind, Option.bind_some, items?_eq,
      Option.bind_eq_bind, Option.bind_some, mapM_eq_some fun item _ => documentMentions?_eq item]
    rfl

theorem footprint?_eq (line : List Char) : footprint? line = some (footprint line) := by
  rw [footprint?, statementOf?_eq, Option.bind_eq_bind, Option.bind_some, callOf?_eq, footprint]
  cases Call.read? (statementOf line) with
  | none => rfl
  | some c =>
    rw [Option.bind_eq_bind, Option.bind_some]
    dsimp only
    rw [mentions?_eq]
    rfl

end Calls

/-! ## Shapes -/

def isObject? (arg : List Char) : Option Bool := do
  return (← valueOf? arg).isObject

def isArray? (arg : List Char) : Option Bool := do
  match ← valueOf? arg with
  | .array _ => return true
  | _ => return false

def isOptionalObject? (arg : List Char) : Option Bool := do
  return arg.isEmpty || (← isObject? arg)

def argumentsFit? (c : Call) : Option Bool :=
  match c.layout with
  | .find => do return (← isOptionalObject? (c.arg 0)) && (← isOptionalObject? (c.arg 1))
  | .query => isObject? (c.arg 0)
  | .count => isOptionalObject? (c.arg 0)
  | .update => do
    return (← isObject? (c.arg 0)) && ((← isObject? (c.arg 1)) || (← isArray? (c.arg 1)))
  | .replace => do return (← isObject? (c.arg 0)) && (← isObject? (c.arg 1))
  | .insertOne => isObject? (c.arg 0)
  | .insertMany => isArray? (c.arg 0)

def operandProblem? (entry : List Char × List Char) : Option (Option ShapeProblem) := do
  let object ← isObject? entry.2
  return if isOperator entry.1 && !object then some (.operatorOperand (String.ofList entry.1)) else none

def operandProblems? (update : List Char) : Option (List ShapeProblem) := do
  (← entries? update).filterMapM operandProblem?

def callProblems? (c : Call) : Option (List ShapeProblem) := do
  let arguments := if ← argumentsFit? c then [] else [.callArguments c.verb c.layout.expected]
  if c.layout = .update then return arguments ++ (← operandProblems? (c.arg 1)) else return arguments

def shapeProblems? (statement : List Char) : Option (List ShapeProblem) := do
  match ← callOf? statement with
  | some c => callProblems? c
  | none => return []

section Shapes

theorem isObject?_eq (arg : List Char) : isObject? arg = some (isObject arg) := by
  rw [isObject?, valueOf?_eq]
  rfl

theorem isArray?_eq (arg : List Char) : isArray? arg = some (isArray arg) := by
  rw [isArray?, valueOf?_eq, isArray]
  cases Value.ofText arg <;> rfl

theorem isOptionalObject?_eq (arg : List Char) : isOptionalObject? arg = some (isOptionalObject arg) := by
  rw [isOptionalObject?, isObject?_eq]
  rfl

theorem argumentsFit?_eq (c : Call) : argumentsFit? c = some c.argumentsFit := by
  unfold argumentsFit? Call.argumentsFit
  simp only [isObject?_eq, isArray?_eq, isOptionalObject?_eq]
  cases c.layout <;> rfl

theorem operandProblems?_eq (update : List Char) :
    operandProblems? update = some (operandProblems update) := by
  rw [operandProblems?, entries?_eq]
  refine filterMapM_eq_some fun entry _ => ?_
  rw [operandProblem?, isObject?_eq]
  rfl

theorem callProblems?_eq (c : Call) : callProblems? c = some c.shapeProblems := by
  rw [callProblems?, argumentsFit?_eq, Call.shapeProblems]
  by_cases hupdate : c.layout = .update
  · rw [if_pos hupdate, operandProblems?_eq]
    simp [hupdate]
  · simp [hupdate]

theorem shapeProblems?_eq (statement : List Char) :
    shapeProblems? statement = some (shapeProblems statement) := by
  rw [shapeProblems?, callOf?_eq, shapeProblems]
  cases Call.read? statement with
  | none => rfl
  | some c => exact callProblems?_eq c

end Shapes

end SchemaLint.Slicing.Shell
