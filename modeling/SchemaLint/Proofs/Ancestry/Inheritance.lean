import SchemaLint.Proofs.Ancestry.Lineage
import SchemaLint.Proofs.Ancestry.Requests

/-!
# What a class inherits

When every source is determined by the name of its class, a walk that is asked and answered takes the
lineage of the class it starts from (`Inquiry.Series.takenBy_eq`). It is followed class by class: an
inquiry that has come to a class (`Inquiry.At`) either goes on with its parent, or the lineage ends
there. Asking again for a source that declares another class does not help, since the answer stays
the same; one attempt for each ancestor is enough.
-/

namespace SchemaLint

namespace AncestorWalk.Answered

variable {w w' : AncestorWalk} {name : String} {source : Option String}
  (h : Answered w name source w')

include h in
/-- After an answer without a class to take, the same class is asked for or none. -/
theorem kept (hstate : w.state = .awaiting name)
    (hnone : ClassSource.outlineOf? name source = none) :
    w'.visited = w.visited ∧ w'.ancestors = w.ancestors ∧ w'.maxDepth = w.maxDepth ∧
      ∀ other, w'.next.request? = some other → other = name := by
  cases h with
  | declined => exact ⟨rfl, rfl, rfl, nofun⟩
  | parseFailed _ => exact ⟨rfl, rfl, rfl, nofun⟩
  | mismatch _ _ =>
    refine ⟨rfl, rfl, rfl, fun other hother => ?_⟩
    exact Option.some.inj (hother.symm.trans (request?_next_of_awaiting hstate))
  | taken hname _ =>
    rw [ClassSource.outlineOf?_of_name hname] at hnone
    cases hnone

include h in
theorem absorbed {o : ClassOutline} (hsome : ClassSource.outlineOf? name source = some o) :
    Absorbed { w with ancestors := w.ancestors ++ [name] } o w' := by
  cases h with
  | declined => cases hsome
  | parseFailed hname =>
    rw [ClassSource.outlineOf?_of_name_ne (by rw [hname]; nofun)] at hsome
    cases hsome
  | mismatch hname hne =>
    rw [ClassSource.outlineOf?_of_name_ne (by rwa [hname, Ne, Option.some.injEq])] at hsome
    cases hsome
  | taken hname habsorbed =>
    rw [ClassSource.outlineOf?_of_name hname] at hsome
    obtain rfl := Option.some.inj hsome
    exact habsorbed

end AncestorWalk.Answered

namespace Inquiry

open AncestorWalk

/-- An inquiry whose walk has come to a class of the lineage, with so many ancestors to go. Either the
parent of the class may be asked for, or the lineage ends with the class. -/
structure At (sources : String → Option String) (maxAttempts : Nat) (q : Inquiry) (depth : Nat)
    (chain : List String) (o : ClassOutline) : Prop where
  request : ∀ name, q.request? = some name → o.parent = some name
  mem_chain : ∀ name, name ∈ chain ↔ name ∈ q.walk.visited
  length_add : q.walk.ancestors.length + depth = q.walk.maxDepth
  goes_on : (∃ name, q.request? = some name ∧ q.attemptsFor name ≤ maxAttempts) ∨ depth = 0 ∨
    o.parentIn? sources chain = none

section At

variable {sources : String → Option String} {maxAttempts depth : Nat} {q : Inquiry}
  {chain : List String} {o above : ClassOutline} {w : AncestorWalk} {name : String}

/-- A walk that has just taken a class has come to it. -/
theorem at_of_absorbed (hattempts : 0 < maxAttempts) (habsorbed : Absorbed w o q.walk)
    (hcurrent : ∀ name, q.request? = some name → q.current ≠ some name)
    (hchain : ∀ name, name ∈ chain ↔ name ∈ visit w.visited o.name)
    (hdepth : w.ancestors.length + depth = w.maxDepth) :
    At sources maxAttempts q depth chain o := by
  have hvisited : ∀ name, name ∈ chain ↔ name ∈ q.walk.visited := by
    rw [habsorbed.visited_eq]
    exact hchain
  have hlength : q.walk.ancestors.length + depth = q.walk.maxDepth := by
    rw [habsorbed.ancestors_eq, habsorbed.maxDepth_eq]
    exact hdepth
  rcases habsorbed.next_request? with ⟨hnone, hend⟩ | ⟨parent, hrequest, hparent, -, -⟩
  · refine ⟨fun name hname => ?_, hvisited, hlength, .inr ?_⟩
    · rw [request?, hnone] at hname
      cases hname
    · unfold ClassOutline.parentIn?
      cases hparent : o.parent with
      | none => exact .inr rfl
      | some parent =>
        rcases hend parent hparent with hmem | hfull
        · exact .inr (if_pos ((hchain parent).mpr hmem))
        · exact .inl (by omega)
  · refine ⟨fun name hname => ?_, hvisited, hlength, .inl ⟨parent, hrequest, ?_⟩⟩
    · obtain rfl : parent = name := Option.some.inj (hrequest.symm.trans hname)
      exact hparent
    · rw [attemptsFor, if_neg (hcurrent parent hrequest)]
      exact hattempts

/-- What is asked for is the parent, and it is in the lineage if its source declares it. -/
theorem At.parentIn? (h : At sources maxAttempts q depth chain o)
    (hrequest : q.request? = some name) (hnew : name ∉ q.walk.visited) :
    o.parentIn? sources chain = ClassSource.outlineOf? name (sources name) := by
  rw [ClassOutline.parentIn?, h.request name hrequest, Option.bind_some,
    if_neg fun hmem => hnew ((h.mem_chain name).mp hmem)]

/-- The lineage ends with a class whose parent may not be asked for any more. -/
theorem At.lineage_eq (h : At sources maxAttempts q depth chain o)
    (hended : ∀ name, q.request? = some name → maxAttempts < q.attemptsFor name) :
    lineage sources depth chain o = [o] := by
  rcases h.goes_on with ⟨name, hrequest, hmax⟩ | rfl | hend
  · exact absurd hmax (Nat.not_le.mpr (hended name hrequest))
  · rfl
  · exact lineage_of_parentIn?_eq_none hend

/-- A walk that has been answered without a class to take stays where it is. -/
theorem At.answered_of_none (h : At sources maxAttempts q depth chain o)
    (hrequest : q.request? = some name) (hnew : name ∉ q.walk.visited)
    (hnone : ClassSource.outlineOf? name (sources name) = none) :
    At sources maxAttempts (q.answered name (sources name)) depth chain o := by
  obtain ⟨hvisited, hancestors, hdepth, hsame⟩ :=
    (answered_walk hrequest (sources name)).kept (request?_eq_some.mp hrequest) hnone
  rw [next_visited] at hvisited
  rw [next_ancestors] at hancestors
  rw [next_maxDepth] at hdepth
  refine ⟨fun other hother => ?_, ?_, ?_, .inr (.inr ?_)⟩
  · rw [hsame other hother]
    exact h.request name hrequest
  · rw [hvisited]
    exact h.mem_chain
  · rw [hancestors, hdepth]
    exact h.length_add
  · rw [h.parentIn? hrequest hnew, hnone]

/-- A walk that has been answered with the parent has come to the parent. -/
theorem At.answered_of_some (h : At sources maxAttempts q (depth + 1) chain o)
    (hattempts : 0 < maxAttempts) (hrequest : q.request? = some name)
    (hsome : ClassSource.outlineOf? name (sources name) = some above) :
    At sources maxAttempts (q.answered name (sources name)) depth (above.name.toList ++ chain)
      above := by
  have habsorbed := (answered_walk hrequest (sources name)).absorbed hsome
  have hname : above.name = some name := (ClassSource.outlineOf?_eq_some hsome).1
  refine at_of_absorbed hattempts habsorbed (fun other hother => ?_) (fun other => ?_) ?_
  · rcases habsorbed.next_request? with ⟨hnone, -⟩ | ⟨parent, hparent, -, hnew, -⟩
    · rw [request?, hnone] at hother
      cases hother
    · obtain rfl : parent = other := Option.some.inj (hparent.symm.trans hother)
      rw [hname] at hnew
      intro hcurrent
      obtain rfl : name = parent := Option.some.inj hcurrent
      exact hnew (mem_visit.mpr (.inl rfl))
  · rw [mem_visit, List.mem_append, Option.mem_toList, h.mem_chain, next_visited]
  · have hlength := h.length_add
    rw [next_ancestors, next_maxDepth, List.length_append, List.length_singleton]
    omega

end At

theorem takenBy_rounds_cons {q : Inquiry} {name : String} (hrequest : q.request? = some name)
    (answer : Option String) (log : List SourceRequest) :
    takenBy q.walk (rounds (⟨name, answer⟩ :: log) ++ [.next]) =
      (ClassSource.outlineOf? name answer).toList ++
        takenBy (q.answered name answer).walk (rounds log ++ [.next]) := by
  rw [← taken?_supply (request?_eq_some.mp hrequest)]
  rfl

/-- A walk that is answered by the same sources throughout takes the lineage. -/
theorem Series.takenBy_eq {sources : String → Option String} {maxAttempts depth maxDepth : Nat}
    {first : Option String} {q : Inquiry} {chain : List String} {o : ClassOutline}
    {log : List SourceRequest} {w : AncestorWalk} (h : Series maxAttempts q log w)
    (hanswers : ∀ request ∈ log, request.answer = sources request.name)
    (hattempts : 0 < maxAttempts) (hsound : Sound first maxDepth q)
    (hat : At sources maxAttempts q depth chain o) :
    o :: takenBy q.walk (rounds log ++ [.next]) = lineage sources depth chain o := by
  induction h generalizing depth chain o with
  | finished hnone =>
    refine (hat.lineage_eq fun name hname => ?_).symm
    rw [hnone] at hname
    cases hname
  | @exhausted _ name hrequest hmax =>
    refine (hat.lineage_eq fun other hother => ?_).symm
    rwa [← Option.some.inj (hrequest.symm.trans hother)]
  | @asked q name answer log w hrequest hmax hrest ih =>
    obtain ⟨hanswer, hlater⟩ := List.forall_mem_cons.mp hanswers
    obtain rfl : answer = sources name := hanswer
    obtain ⟨-, hnew, hroom⟩ := hsound.awaiting hrequest
    have hnext := hsound.answered hrequest (sources name)
    have hparent := hat.parentIn? hrequest hnew
    rw [takenBy_rounds_cons hrequest]
    -- An answer without a class to take leaves the walk where it is; with one it goes up the lineage.
    cases hdeclared : ClassSource.outlineOf? name (sources name) with
    | none => exact ih hlater hnext (hat.answered_of_none hrequest hnew hdeclared)
    | some above =>
      -- The walk had room for the class when it asked for it.
      have hdepth : depth ≠ 0 := by
        have hlength := hat.length_add
        rw [hsound.walk.maxDepth_eq] at hlength
        omega
      obtain ⟨depth, rfl⟩ := Nat.exists_eq_succ_of_ne_zero hdepth
      rw [lineage_of_parentIn?_eq_some (hparent.trans hdeclared)]
      exact congrArg (o :: ·) (ih hlater hnext (hat.answered_of_some hattempts hrequest hdeclared))

end Inquiry

namespace AncestorWalk

open Inquiry

/-- The result is merged from the lineage, and the ancestors are the later part of the lineage. -/
theorem resolve_eq_lineage {σ : Type} {locate : String → StateM σ (Option String)}
    {sources : String → Option String} (hlocate : ∀ name s, ((locate name).run s).1 = sources name)
    (source : String) (maxDepth : Nat) {maxAttempts : Nat} (hattempts : 0 < maxAttempts) (s : σ) :
    let first := ClassSource.outline source
    let r := ((resolve locate source maxDepth maxAttempts).run s).1
    let line := lineage sources maxDepth first.name.toList first
    r.fields = mergeAll line ∧ r.ancestors.map some = line.tail.map (·.name) := by
  intro first r line
  obtain ⟨w, s', hseries, hanswers, hresolve, -⟩ :=
    series_requests locate source maxDepth maxAttempts s
  have hsources : ∀ request ∈ requests locate source maxDepth maxAttempts s,
      request.answer = sources request.name := by
    intro request hmem
    obtain ⟨t, ht⟩ := hanswers request hmem
    rw [ht, hlocate]
  have hat : At sources maxAttempts (.start source maxDepth) maxDepth first.name.toList first := by
    refine at_of_absorbed hattempts (absorbed_absorb _ _) nofun (fun name => ?_) (Nat.zero_add _)
    rw [mem_visit, Option.mem_toList]
    exact (or_iff_left List.not_mem_nil).symm
  have htaken := hseries.takenBy_eq hsources hattempts (Inquiry.sound_start source maxDepth) hat
  have haccounts := (accounts_start source maxDepth).run
    (rounds (requests locate source maxDepth maxAttempts s) ++ [.next])
  have hresult : r = _ := (congrArg Prod.fst hresolve).trans hseries.finish_eq
  constructor
  · rw [hresult, finish_fields]
    exact haccounts.fields.trans (congrArg mergeAll htaken)
  · have hline : line = first :: takenBy (start source maxDepth) _ := htaken.symm
    rw [hresult, finish_ancestors, hline]
    exact haccounts.names.symm

/-- The fields of a class are its own merged with those of its parent, which are found in the same
way. A name has the type that the nearest class of the lineage gives it, the fields of nearer classes
come first, and going less deep gives the first part of the fields. -/
theorem resolve_inherits {σ : Type} {locate : String → StateM σ (Option String)}
    {sources : String → Option String} (hlocate : ∀ name s, ((locate name).run s).1 = sources name)
    (source : String) (maxDepth : Nat) {maxAttempts : Nat} (hattempts : 0 < maxAttempts) (s : σ) :
    let first : ClassOutline := ClassSource.outline source
    let result := fun depth => ((resolve locate source depth maxAttempts).run s).1
    let line := lineage sources maxDepth first.name.toList first
    (result maxDepth).fields = inherited sources maxDepth first.name.toList first ∧
      (result maxDepth).ancestors.map some = line.tail.map (·.name) ∧
      (∀ name, Field.find? (result maxDepth).fields name =
        line.findSome? fun o => Field.find? o.fields name) ∧
      (result maxDepth).fields = newFields [] line ∧
      ∀ less ≤ maxDepth, (result less).fields <+: (result maxDepth).fields := by
  intro first result line
  have hfirst : Field.WellFormed first.fields := ClassSource.wellFormed_outline source
  have hline : ∀ o ∈ line, Field.WellFormed o.fields := wellFormed_lineage hfirst
  obtain ⟨hfields, hancestors⟩ := resolve_eq_lineage hlocate source maxDepth hattempts s
  change (result maxDepth).fields = mergeAll line at hfields
  refine ⟨hfields.trans (mergeAll_lineage hfirst), hancestors, fun name => ?_, ?_,
    fun less hless => ?_⟩
  · rw [hfields, find?_mergeAll hline]
  · rw [hfields, mergeAll_eq_newFields hline]
  · have hlessFields := (resolve_eq_lineage hlocate source less hattempts s).1
    change (result less).fields = _ at hlessFields
    rw [hfields, hlessFields]
    exact prefix_mergeAll (prefix_lineage hless)

/-- A chain of three classes that share field names, before a class for which there is only a wrong
source. -/
theorem resolve_inherits_wrong :
    let sources : String → Option String := fun name =>
      if name = "B" then some "class B extends C \x7b private String a; private Long b; \x7d"
      else if name = "C" then some "class C extends D \x7b private int b; private Date c; \x7d"
      else some "class E \x7b private Long d; \x7d"
    let locate : String → StateM Nat (Option String) :=
      fun name => modifyGet fun asked => (sources name, asked + 1)
    let source := "class A extends B \x7b private int a; \x7d"
    let first := ClassSource.outline source
    let result := fun depth => ((resolve locate source depth 2).run 0).1
    (result 9).fields = [⟨"a", "Integer"⟩, ⟨"b", "Long"⟩, ⟨"c", "Date"⟩] ∧
      (result 9).fields = inherited sources 9 first.name.toList first ∧
      (result 1).fields <+: (result 9).fields := by
  intro sources locate source first result
  have hlocate : ∀ name s, ((locate name).run s).1 = sources name := fun _ _ => rfl
  obtain ⟨hfields, -, -, -, hless⟩ := resolve_inherits hlocate source 9 (by decide : 0 < 2) 0
  exact ⟨by decide +kernel, hfields, hless 1 (by decide)⟩

end AncestorWalk

end SchemaLint
