import SchemaLint.Proofs.Shell.Head
import SchemaLint.Script

/-!
# Calls

A call is its head and an argument list. It is read from these alone: from the opening bracket on, the
text up to its partner are the arguments (`Target.read?_append`), and what follows the partner changes
neither the call nor where the statement begins (`text_behind_call_ignored`). A written call
(`Target.call`) with balanced arguments is a statement of its own (`Target.statementOf_call`) and is
read as that call (`Target.read?_call`).
-/

namespace SchemaLint.Shell

open Form Nesting Text

/-! ## Reading a call -/

section Reading

variable (t : Target) {verb r x y : List Char} (hverb : IsVerb verb)

include hverb

theorem Target.cutAtPartner?_append (hcut : (atDepth 1).cutAtCloser? 0 r = some (x, y)) :
    (start.after (t.head verb)).cutAtPartner? ('(' :: r) = some (x, y) := by
  have hpartner : (atDepth 0).cutAtPartner? ('(' :: r) = (atDepth 1).cutAtCloser? 0 r := rfl
  rw [start_eq, (t.inert_head hverb).balanced.after_eq, hpartner, hcut]

/-- A call is read from its head and the text up to the bracket that closes it. -/
theorem Target.read?_append (hcut : (atDepth 1).cutAtCloser? 0 r = some (x, y)) :
    Call.read? (t.head verb ++ '(' :: r) = (Layout.ofVerb? (String.ofList verb)).map fun layout => {
      collection := String.ofList t.collection.name, verb := String.ofList verb, layout
      args := splitTop ',' x } := by
  have hhead : (callForm (t.head verb ++ '(' :: r)).head? = some ((t.collection.name, verb), r) :=
    t.prefers_callForm hverb r
  have hopener : (t.head verb ++ '(' :: r).length - r.length - 1 = (t.head verb).length := by
    simp only [List.length_append, List.length_cons]
    omega
  have hpartner := t.cutAtPartner?_append hverb hcut
  unfold Call.read?
  rw [hhead]
  simp only [Option.bind_eq_bind, Option.bind_some, hopener, List.take_left', List.drop_left',
    hpartner]
  cases Layout.ofVerb? (String.ofList verb) <;> rfl

/-- No statement ends in a call. -/
theorem Target.hides_append (hcut : (atDepth 1).cutAtCloser? 0 r = some (x, [')'])) :
    Hides endsStatement (t.head verb ++ '(' :: r) := by
  have hhead := t.inert_head hverb
  refine hhead.hides.append hhead.balanced fun m hm htop => ?_
  obtain rfl := append_of_cutAtCloser? hcut
  rw [SchemaLint.marks, start_eq, Nesting.marks, next_opener 0 rfl, marks_append] at hm
  rcases List.mem_cons.mp hm with rfl | hm
  · decide
  · rcases List.mem_append.mp hm with hm | hm
    · have hdepth := lt_depth_of_cutAtCloser? (Nat.zero_lt_one) hcut m hm
      simp only [Mark.isTop, Bool.and_eq_true, beq_iff_eq] at htop
      omega
    · rw [Nesting.marks, Nesting.marks, List.mem_singleton] at hm
      rw [hm, mark_ch]
      decide

end Reading

/-! ## Text behind a call -/

section Behind

variable {s : List Char}

theorem trimEnd_append_of_last (h : ∀ c ∈ s.getLast?, isBlank c = false) (u : List Char) :
    trimEnd (s ++ u) = s ++ trimEnd u := by
  have hdrop : s.reverse.dropWhile isBlank = s.reverse :=
    dropWhile_of_head? fun c hc => h c (by simpa using hc)
  rw [trimEnd, trimEnd, List.reverse_append, List.dropWhile_append, hdrop]
  split
  · next hblank => simp [List.isEmpty_iff.mp hblank]
  · simp

/-- Behind a text in which no statement ends the statement goes on. -/
theorem exists_beforeEnd_append (h : Hides endsStatement s) (t : List Char) :
    ∃ u, beforeEnd (s ++ t) = s ++ u := by
  unfold beforeEnd
  cases hcut : firstCut? statementEndsAt (s ++ t) with
  | none => exact ⟨t, rfl⟩
  | some cut =>
    obtain ⟨heq, ⟨c, z, hy, htop, htest⟩, -⟩ := firstCut?_eq_some_iff.mp hcut
    change ∃ u, cut.1 = s ++ u
    rcases List.append_eq_append_iff.mp heq with ⟨u, hu, -⟩ | ⟨u, hs, hu⟩
    · exact ⟨u, hu⟩
    · cases u with
      | nil => exact ⟨[], by simp [hs]⟩
      | cons d u =>
        -- The place would be one of the text itself.
        rw [hu] at hy
        obtain ⟨rfl, -⟩ := List.cons.inj hy
        have hd := h _ (hs ▸ mem_marks_append_cons start cut.1 u d) htop
        rw [hu] at htest
        rw [mark_ch, needs_statementEndsAt _ _ _ htest] at hd
        cases hd

theorem exists_statementOf_append (hs : Trimmed s) (hne : s ≠ []) (h : Hides endsStatement s)
    (t : List Char) : ∃ u, statementOf (s ++ t) = s ++ u := by
  obtain ⟨u, hu⟩ := exists_beforeEnd_append h t
  have hhead : ∀ c ∈ (s ++ u).head?, isBlank c = false := by
    rw [List.head?_append_of_ne_nil _ hne]
    exact hs.head
  refine ⟨trimEnd u, ?_⟩
  rw [statementOf_eq, hu, trim, trimStart_of_head hhead, trimEnd_append_of_last hs.last]

/-- A call, up to its last character, stands between a letter and a bracket. -/
theorem Target.trimmed_append (t : Target) {verb : List Char} (x : List Char) :
    Trimmed (t.head verb ++ '(' :: (x ++ [')'])) := by
  have hlast : (t.head verb ++ '(' :: (x ++ [')'])).getLast? = some ')' := by
    rw [← List.cons_append, ← List.append_assoc, List.getLast?_concat]
  refine ⟨fun c hc => ?_, fun c hc => ?_⟩
  · obtain rfl : 'd' = c := Option.some.inj hc
    decide
  · rw [hlast] at hc
    obtain rfl := Option.some.inj hc
    decide

/-- What a statement that begins with a call ends with: the text from the bracket on that closes the
arguments. -/
def closing? (statement : List Char) : Option (List Char) := do
  let (_, rest) ← (callForm statement).head?
  let opener := statement.length - rest.length - 1
  let (_, closing) ←
    (Nesting.start.after (statement.take opener)).cutAtPartner? (statement.drop opener)
  return closing

theorem exists_head_of_closing? {y : List Char} (h : closing? s = some y) :
    ∃ (t : Target) (verb r x : List Char), IsVerb verb ∧ s = t.head verb ++ '(' :: r ∧
      (atDepth 1).cutAtCloser? 0 r = some (x, y) := by
  unfold closing? at h
  obtain ⟨⟨⟨name, verb⟩, r⟩, hform, h⟩ := Option.bind_eq_some_iff.mp h
  obtain ⟨⟨x, y'⟩, hcut, h⟩ := Option.bind_eq_some_iff.mp h
  obtain rfl := Option.some.inj h
  obtain ⟨hverb, a, rfl, hhead⟩ := exists_head (List.mem_of_head? hform)
  have hopener : (a ++ '(' :: r).length - r.length - 1 = a.length := by
    simp only [List.length_append, List.length_cons]
    omega
  simp only [hopener, List.take_left', List.drop_left'] at hcut
  rcases hhead with ⟨t, -, rfl⟩ | hquoted
  · rw [start_eq, (t.inert_head hverb).balanced.after_eq] at hcut
    exact ⟨t, verb, r, x, hverb, rfl, hcut⟩
  · rw [Nesting.cutAtPartner?, hquoted] at hcut
    cases hcut

/-- Behind the parenthesis that closes a call nothing is looked at: with any text appended the line
touches what it touches without, and its shape has the same problems. -/
theorem text_behind_call_ignored (hclosing : closing? s = some [')']) (more : List Char) :
    SchemaLint.footprint .mongodb (s ++ more) = SchemaLint.footprint .mongodb s ∧
      SchemaLint.shapeProblems .mongodb (s ++ more) = SchemaLint.shapeProblems .mongodb s := by
  obtain ⟨t, verb, r, x, hverb, rfl, hcut⟩ := exists_head_of_closing? hclosing
  have hhides := t.hides_append hverb hcut
  obtain rfl := append_of_cutAtCloser? hcut
  -- Whatever the statement on the line goes on with, the call in front of it is the same.
  have hread : ∀ more, Call.read? (statementOf (t.head verb ++ '(' :: (x ++ [')']) ++ more)) =
      Call.read? (t.head verb ++ '(' :: (x ++ [')'])) := by
    intro more
    obtain ⟨u, hu⟩ := exists_statementOf_append (t.trimmed_append x) (List.cons_ne_nil _ _) hhides more
    rw [hu, List.append_assoc, List.cons_append, t.read?_append hverb hcut,
      t.read?_append hverb (cutAtCloser?_append_right hcut u)]
  have halone := hread []
  rw [List.append_nil] at halone
  unfold SchemaLint.footprint SchemaLint.shapeProblems footprint shapeProblems
  simp only [hread more, halone, and_self]

/-- The text behind the call closes brackets and opens a quote. -/
theorem text_behind_call_ignored_quoted :
    let s := "db.getCollection(\"it's\").find(\x7b a: ')' \x7d)".toList
    closing? s = some [')'] ∧ (SchemaLint.footprint .mongodb s).values = [("a", "')'")] ∧
      SchemaLint.footprint .mongodb (s ++ ".sort(]\x7d); \"#".toList) =
        SchemaLint.footprint .mongodb s := by
  intro s
  have hclosing : closing? s = some [')'] := by decide +kernel
  exact ⟨hclosing, by decide +kernel, (text_behind_call_ignored hclosing _).1⟩

end Behind

/-! ## Written calls -/

/-- A call with the given text between its parentheses. -/
def Target.call (t : Target) (verb arguments : List Char) : List Char :=
  t.head verb ++ '(' :: (arguments ++ [')'])

theorem isVerb_of_ofVerb? {verb : String} {layout : Layout} (h : Layout.ofVerb? verb = some layout) :
    IsVerb verb.toList := by
  unfold Layout.ofVerb? at h
  split at h
  all_goals first
    | exact ⟨by decide, List.all_eq_true.mp (by decide)⟩
    | cases h

section Written

variable (t : Target) {verb arguments : List Char} (hverb : IsVerb verb) (harg : Balanced arguments)

include harg in
theorem cutAtCloser?_arguments (u : List Char) :
    (atDepth 1).cutAtCloser? 0 (arguments ++ ')' :: u) = some (arguments, ')' :: u) :=
  cutAtPartner?_atDepth 0 (o := '(') rfl rfl harg u

include hverb harg

/-- The statement on a line with a call is the call. -/
theorem Target.statementOf_call : statementOf (t.call verb arguments) = t.call verb arguments := by
  have hhides : Hides endsStatement (t.call verb arguments) :=
    t.hides_append hverb (cutAtCloser?_arguments harg [])
  have htrimmed : Trimmed (t.call verb arguments) := t.trimmed_append arguments
  unfold statementOf
  rw [htrimmed.trim_eq, firstCut?_eq_none needs_statementEndsAt hhides]
  exact trimEnd_of_last htrimmed.last

theorem Target.read?_call {layout : Layout}
    (hlayout : Layout.ofVerb? (String.ofList verb) = some layout) :
    Call.read? (t.call verb arguments) = some {
      collection := String.ofList t.collection.name, verb := String.ofList verb, layout
      args := splitTop ',' arguments } := by
  unfold Target.call
  rw [t.read?_append hverb (cutAtCloser?_arguments harg []), hlayout, Option.map_some]

end Written

/-! ## A plain call of `find` -/

/-- What stands before the argument of a `find` call. -/
def findHead (coll : CollectionName) : List Char :=
  'd' :: 'b' :: '.' :: (coll.name ++ ['.', 'f', 'i', 'n', 'd'])

/-- A `find` call with one argument. -/
def findCall (coll : CollectionName) (argument : List Char) : List Char :=
  findHead coll ++ '(' :: (argument ++ [')'])

/-- A collection written plainly and without blanks. -/
def CollectionName.target (coll : CollectionName) : Target :=
  let none : Gap := ⟨[], by simp⟩
  { collection := .plain coll, afterDb := none, beforeName := none, afterName := none
    beforeVerb := none, afterVerb := none }

theorem findCall_eq (coll : CollectionName) (argument : List Char) :
    findCall coll argument = coll.target.call ['f', 'i', 'n', 'd'] argument := by
  simp [findCall, findHead, Target.call, Target.head, CollectionName.target, Collection.text]

theorem isVerb_find : IsVerb ['f', 'i', 'n', 'd'] :=
  ⟨List.cons_ne_nil _ _, List.all_eq_true.mp (by decide)⟩

section Find

variable (coll : CollectionName) {argument : List Char} (harg : IsItem argument)

include harg

theorem statementOf_findCall : statementOf (findCall coll argument) = findCall coll argument := by
  rw [findCall_eq, coll.target.statementOf_call isVerb_find harg.balanced]

/-- A `find` call is read as the call it is, with its argument as the only one. -/
theorem read?_findCall :
    Call.read? (findCall coll argument) = some {
      collection := String.ofList coll.name, verb := "find", layout := .find
      args := [argument] } := by
  have hargs : splitTop ',' argument = [argument] := by
    rw [splitTop_of_hides harg.hides_comma (by rw [harg.trimmed.trim_eq]; exact harg.ne_nil),
      harg.trimmed.trim_eq]
  rw [findCall_eq,
    coll.target.read?_call isVerb_find harg.balanced (show _ = some Layout.find from rfl), hargs]
  rfl

end Find

end SchemaLint.Shell
