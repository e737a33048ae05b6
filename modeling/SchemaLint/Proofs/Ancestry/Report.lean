import SchemaLint.Ancestry.Calls
import SchemaLint.Proofs.Ancestry

/-!
# What a walk reports

A walk may be cut short in six ways (`CutShort`): the first class or one taken later extends a class
of the chain, the chain is full, a request is declined or answered by a source without a class, or
the walk is given up. Whichever it is, the result names the class that was left out once, and it
keeps the fields of all classes taken before.

The classes taken are told from the calls alone (`takenBy`). A walk is at its end without a report
exactly when the last of them extends none, since the class that the last one extends is the one
that the walk stands before (`Accounts`).
-/

namespace SchemaLint

/-- The class that a walk stands before, asked for or left out. -/
def WalkState.subject? : WalkState → Option String
  | pending name => some name
  | awaiting name => some name
  | resolved => none
  | skipped name _ => some name

/-- What is to be reported of a walk that stands there. -/
def WalkState.unresolved : WalkState → List ExtractionWarning
  | skipped name reason => [.unresolved name reason]
  | _ => []

namespace WalkState

variable {state : WalkState} {name : String} (h : state.named? = some name)

include h in
theorem subject?_of_named : state.subject? = some name := by
  cases state with
  | pending _ => exact h
  | awaiting _ => exact h
  | resolved => cases h
  | skipped _ _ => cases h

include h in
theorem unresolved_of_named : state.unresolved = [] := by
  cases state with
  | skipped _ _ => cases h
  | _ => rfl

end WalkState

/-- The warnings about ancestors that are left out. -/
def ExtractionWarning.leftOut (warnings : List ExtractionWarning) : List ExtractionWarning :=
  warnings.filter (·.isUnresolved)

section LeftOut

open ExtractionWarning

variable {warnings : List ExtractionWarning}

theorem ExtractionWarning.unresolved_mem_leftOut {name : String} {reason : UnresolvedReason} :
    .unresolved name reason ∈ leftOut warnings ↔ .unresolved name reason ∈ warnings := by
  rw [leftOut, List.mem_filter]
  exact and_iff_left rfl

theorem ExtractionWarning.leftOut_append (more : List ExtractionWarning) :
    leftOut (warnings ++ more) = leftOut warnings ++ leftOut more :=
  List.filter_append ..

end LeftOut

/-- The outline of a source that is given and declares a class first. -/
def ClassSource.outlineOf? (name : String) (source : Option String) : Option ClassOutline :=
  (source.map outline).filter (·.name = some name)

section OutlineOf

open ClassSource

variable {name source : String}

theorem ClassSource.outlineOf?_of_name (h : (outline source).name = some name) :
    outlineOf? name (some source) = some (outline source) := by
  simp [outlineOf?, h]

theorem ClassSource.outlineOf?_of_name_ne (h : (outline source).name ≠ some name) :
    outlineOf? name (some source) = none := by
  simp [outlineOf?, h]

end OutlineOf

namespace AncestorWalk

open ExtractionWarning

/-- The class that is taken by a call, if there is one. -/
def taken? (w : AncestorWalk) : WalkCall → Option ClassOutline
  | .supply source => w.request?.bind (ClassSource.outlineOf? · source)
  | _ => none

/-- The classes that are taken by calls, in order. -/
def takenBy : AncestorWalk → List WalkCall → List ClassOutline
  | _, [] => []
  | w, call :: calls => (w.taken? call).toList ++ takenBy (w.perform call) calls

/-- The fields of several classes, each name as the first of them has it. -/
def mergeAll (classes : List ClassOutline) : List Field :=
  classes.foldl (fun fields o => Field.merge fields o.fields) []

/-! ## Accounts of the classes taken -/

/-- What the parts of a walk say about the classes that it has taken, the first one and later ones. -/
structure Accounts (first : ClassOutline) (later : List ClassOutline) (w : AncestorWalk) : Prop where
  names : later.map (·.name) = w.ancestors.map some
  fields : w.fields = mergeAll (first :: later)
  subject : w.state.subject? = (later.getLast?.getD first).parent
  reported : leftOut w.warnings = w.state.unresolved

section Accounts

variable {first o : ClassOutline} {later : List ClassOutline} {w w' : AncestorWalk} {name : String}

theorem leftOut_skip (w : AncestorWalk) (reason : UnresolvedReason) :
    leftOut (w.skip name reason).warnings = leftOut w.warnings ++ [.unresolved name reason] := by
  rw [skip, leftOut_append]
  rfl

/-- A walk that stops before the class named has that to report and nothing else. -/
theorem Accounts.skip (h : Accounts first later w) (hnamed : w.state.named? = some name)
    (reason : UnresolvedReason) : Accounts first later (w.skip name reason) where
  names := h.names
  fields := h.fields
  subject := (WalkState.subject?_of_named hnamed).symm.trans h.subject
  reported := by
    rw [leftOut_skip, h.reported, WalkState.unresolved_of_named hnamed]
    rfl

/-- Taking a class gives an account that ends with this class. -/
theorem accounts_absorbed (habsorbed : Absorbed w o w')
    (hnames : later.map (·.name) = w.ancestors.map some)
    (hfields : Field.merge w.fields o.fields = mergeAll (first :: later))
    (hlast : later.getLast?.getD first = o) (hquiet : leftOut w.warnings = []) :
    Accounts first later w' := by
  cases habsorbed with
  | resolved hparent => exact ⟨hnames, hfields, by rw [hlast, hparent]; rfl, hquiet⟩
  | pending hparent _ => exact ⟨hnames, hfields, by rw [hlast, hparent]; rfl, hquiet⟩
  | cycle hparent _ =>
    refine ⟨hnames, hfields, by rw [hlast, hparent]; rfl, ?_⟩
    rw [leftOut_skip]
    exact congrArg (· ++ _) hquiet

theorem accounts_start (source : String) (maxDepth : Nat) :
    Accounts (ClassSource.outline source) [] (start source maxDepth) := by
  unfold start
  exact accounts_absorbed (absorbed_absorb _ _) rfl rfl rfl rfl

theorem Accounts.next (h : Accounts first later w) : Accounts first later w.next := by
  rcases w.next_cases with ⟨name, hstate, -, heq⟩ | ⟨name, hstate, -, heq⟩ | ⟨-, heq⟩
  · rw [heq]
    exact h.skip (by rw [hstate]; rfl) _
  · rw [heq]
    exact ⟨h.names, h.fields, by rw [← h.subject, hstate]; rfl, by rw [h.reported, hstate]; rfl⟩
  · rwa [heq]

theorem Accounts.abort (h : Accounts first later w) : Accounts first later w.abort := by
  cases hnamed : w.state.named? with
  | some name =>
    rw [abort_of_named hnamed]
    exact h.skip hnamed _
  | none => rwa [abort_of_not_named hnamed]

theorem taken?_of_not_awaiting (h : ∀ name, w.state ≠ .awaiting name) (call : WalkCall) :
    w.taken? call = none := by
  have hrequest : w.request? = none :=
    Option.eq_none_iff_forall_ne_some.mpr fun name hname => h name (request?_eq_some.mp hname)
  unfold taken?
  split
  · rw [hrequest]
    rfl
  · rfl

theorem taken?_supply (hstate : w.state = .awaiting name) (source : Option String) :
    w.taken? (.supply source) = ClassSource.outlineOf? name source := by
  rw [taken?, request?_eq_some.mpr hstate, Option.bind_some]

theorem Accounts.answered (h : Accounts first later w) (hstate : w.state = .awaiting name)
    {source : Option String} (hanswered : Answered w name source w') :
    Accounts first (later ++ (w.taken? (.supply source)).toList) w' := by
  have hnamed : w.state.named? = some name := by
    rw [hstate]
    rfl
  rw [taken?_supply hstate]
  cases hanswered with
  | declined => exact (List.append_nil later).symm ▸ h.skip hnamed _
  | parseFailed hname =>
    rw [ClassSource.outlineOf?_of_name_ne (by rw [hname]; nofun), Option.toList_none,
      List.append_nil]
    exact h.skip hnamed _
  | mismatch hname hne =>
    rw [ClassSource.outlineOf?_of_name_ne (by rwa [hname, Ne, Option.some.injEq]),
      Option.toList_none, List.append_nil]
    refine ⟨h.names, h.fields, h.subject, ?_⟩
    rw [leftOut_append, h.reported]
    exact List.append_nil _
  | taken hname habsorbed =>
    rw [ClassSource.outlineOf?_of_name hname, Option.toList_some]
    apply accounts_absorbed habsorbed
    · rw [List.map_append, List.map_append, h.names, List.map_singleton, List.map_singleton, hname]
    · rw [h.fields]
      simp [mergeAll]
    · rw [List.getLast?_concat]
      rfl
    · rw [h.reported, WalkState.unresolved_of_named hnamed]

/-- A call keeps the accounts of a walk, with the class that it takes. -/
theorem Accounts.perform (h : Accounts first later w) (call : WalkCall) :
    Accounts first (later ++ (w.taken? call).toList) (w.perform call) := by
  cases call with
  | next => exact (List.append_nil later).symm ▸ h.next
  | abort => exact (List.append_nil later).symm ▸ h.abort
  | supply source =>
    change Accounts first _ (w.supply source)
    rcases w.supply_cases source with ⟨name, hstate, hanswered⟩ | ⟨hclosed, heq⟩
    · exact h.answered hstate hanswered
    · rwa [taken?_of_not_awaiting hclosed, Option.toList_none, List.append_nil, heq]

theorem Accounts.run (h : Accounts first later w) (calls : List WalkCall) :
    Accounts first (later ++ takenBy w calls) (w.run calls) := by
  induction calls generalizing later w with
  | nil => exact (List.append_nil later).symm ▸ h
  | cons call calls ih =>
    rw [takenBy, ← List.append_assoc]
    exact ih (h.perform call)

end Accounts

/-! ## What cuts a walk short -/

/-- A call cuts a walk short before a class for a reason. -/
inductive CutBy (first : Option String) (w : AncestorWalk) :
    WalkCall → String → UnresolvedReason → Prop
  | depthExceeded {name : String} (hstate : w.state = .pending name)
      (hfull : w.ancestors.length = w.maxDepth) : CutBy first w .next name .depthExceeded
  | declined {name : String} (hstate : w.state = .awaiting name) :
      CutBy first w (.supply none) name .declined
  | parseFailed {name source : String} (hstate : w.state = .awaiting name)
      (hclass : (ClassSource.outline source).name = none) :
      CutBy first w (.supply (some source)) name .parseFailed
  /-- The class taken extends itself or a class taken before. -/
  | cycle {name taken source : String} (hstate : w.state = .awaiting taken)
      (hclass : (ClassSource.outline source).name = some taken)
      (hparent : (ClassSource.outline source).parent = some name)
      (hchain : name = taken ∨ first = some name ∨ name ∈ w.ancestors) :
      CutBy first w (.supply (some source)) name .cycle
  | cancelled {name : String} (hstate : w.state.named? = some name) :
      CutBy first w .abort name .cancelled

/-- A walk is cut short before a class for a reason: the first class extends itself, or one of the
calls cuts it short. -/
inductive CutShort (source : String) (maxDepth : Nat) (calls : List WalkCall) (name : String) :
    UnresolvedReason → Prop
  | loop (hclass : (ClassSource.outline source).name = some name)
      (hparent : (ClassSource.outline source).parent = some name) :
      CutShort source maxDepth calls name .cycle
  | call {before after : List WalkCall} {call : WalkCall} {reason : UnresolvedReason}
      (hcalls : calls = before ++ call :: after)
      (hcut : CutBy (ClassSource.outline source).name ((start source maxDepth).run before) call name
        reason) :
      CutShort source maxDepth calls name reason

section Causes

variable {first : Option String} {maxDepth : Nat} {w w' : AncestorWalk} {name : String}
  {reason : UnresolvedReason}

theorem Chain.mem_visit {visited ancestors : List String}
    (h : Chain first maxDepth visited ancestors) {taken : String} :
    name ∈ visit visited (some taken) ↔ name = taken ∨ first = some name ∨ name ∈ ancestors := by
  rw [AncestorWalk.mem_visit, h.mem_visited, Option.some.injEq, eq_comm]

theorem Absorbed.state_eq_skipped {o : ClassOutline} (h : Absorbed w o w') :
    w'.state = .skipped name reason ↔
      reason = .cycle ∧ o.parent = some name ∧ name ∈ visit w.visited o.name := by
  cases h with
  | resolved hparent => simp [hparent]
  | cycle hparent hmem =>
    rw [skip_state, WalkState.skipped.injEq, hparent, Option.some.injEq]
    constructor
    · rintro ⟨rfl, rfl⟩
      exact ⟨rfl, rfl, hmem⟩
    · rintro ⟨rfl, rfl, -⟩
      exact ⟨rfl, rfl⟩
  | pending hparent hnew =>
    rw [hparent, Option.some.injEq]
    constructor
    · nofun
    · rintro ⟨-, rfl, hmem⟩
      exact absurd hmem hnew

theorem next_state_eq_skipped (hsound : Sound first maxDepth w) :
    w.next.state = .skipped name reason ↔
      w.state = .skipped name reason ∨ CutBy first w .next name reason := by
  constructor
  · intro h
    rcases w.next_cases with ⟨other, hstate, hfull, heq⟩ | ⟨other, _, _, heq⟩ | ⟨_, heq⟩
    · rw [heq] at h
      cases h
      have hlength := hsound.chain.length_le
      rw [← hsound.maxDepth_eq] at hlength
      exact .inr (.depthExceeded hstate (Nat.le_antisymm hlength hfull))
    · rw [heq] at h
      cases h
    · rw [heq] at h
      exact .inl h
  · rintro (hstate | ⟨hstate, hfull⟩)
    · simp [next, hstate]
    · simp [next, hstate, hfull]

theorem abort_state_eq_skipped :
    w.abort.state = .skipped name reason ↔
      w.state = .skipped name reason ∨ CutBy first w .abort name reason := by
  constructor
  · intro h
    cases hnamed : w.state.named? with
    | none =>
      rw [abort_of_not_named hnamed] at h
      exact .inl h
    | some other =>
      rw [abort_of_named hnamed] at h
      cases h
      exact .inr (.cancelled hnamed)
  · rintro (hstate | hcut)
    · rwa [abort_of_not_named (by rw [hstate]; rfl)]
    · cases hcut with
      | cancelled hstate => rw [abort_of_named hstate, skip_state]

theorem Answered.cutBy (hsound : Sound first maxDepth w) {expected : String}
    (hstate : w.state = .awaiting expected) {source : Option String}
    (h : Answered w expected source w') (hskipped : w'.state = .skipped name reason) :
    CutBy first w (.supply source) name reason := by
  cases h with
  | declined =>
    cases hskipped
    exact .declined hstate
  | parseFailed hclass =>
    cases hskipped
    exact .parseFailed hstate hclass
  | mismatch _ _ =>
    rw [hstate] at hskipped
    cases hskipped
  | taken hclass habsorbed =>
    rw [habsorbed.state_eq_skipped, hclass, hsound.chain.mem_visit] at hskipped
    obtain ⟨rfl, hparent, hchain⟩ := hskipped
    exact .cycle hstate hclass hparent hchain

theorem CutBy.state_supply (hsound : Sound first maxDepth w) {source : Option String}
    (h : CutBy first w (.supply source) name reason) :
    (w.supply source).state = .skipped name reason := by
  cases h with
  | declined hstate => simp [supply, hstate]
  | parseFailed hstate hclass => simp [supply, hstate, hclass]
  | cycle hstate hclass hparent hchain =>
    rw [← hsound.chain.mem_visit] at hchain
    simp [supply, hstate, hclass, absorb, hparent, hchain]

theorem supply_state_eq_skipped (hsound : Sound first maxDepth w) (source : Option String) :
    (w.supply source).state = .skipped name reason ↔
      w.state = .skipped name reason ∨ CutBy first w (.supply source) name reason := by
  constructor
  · intro h
    rcases w.supply_cases source with ⟨expected, hstate, hanswered⟩ | ⟨_, heq⟩
    · exact .inr (hanswered.cutBy hsound hstate h)
    · rw [heq] at h
      exact .inl h
  · rintro (hstate | hcut)
    · rwa [supply_of_not_awaiting (by rw [hstate]; nofun)]
    · exact hcut.state_supply hsound

/-- A call leaves a walk stopped if it was stopped before or if the call cuts it short. -/
theorem perform_state_eq_skipped (hsound : Sound first maxDepth w) (call : WalkCall) :
    (w.perform call).state = .skipped name reason ↔
      w.state = .skipped name reason ∨ CutBy first w call name reason := by
  cases call with
  | next => exact next_state_eq_skipped hsound
  | abort => exact abort_state_eq_skipped
  | supply source => exact supply_state_eq_skipped hsound source

theorem run_state_eq_skipped (hsound : Sound first maxDepth w) (calls : List WalkCall) :
    (w.run calls).state = .skipped name reason ↔
      w.state = .skipped name reason ∨
        ∃ before call after, calls = before ++ call :: after ∧
          CutBy first (w.run before) call name reason := by
  induction calls generalizing w with
  | nil =>
    refine (or_iff_left ?_).symm
    rintro ⟨before, call, after, hcalls, -⟩
    simp at hcalls
  | cons call calls ih =>
    change ((w.perform call).run calls).state = _ ↔ _
    rw [ih (hsound.perform call), perform_state_eq_skipped hsound, or_assoc]
    apply or_congr_right
    constructor
    · rintro (hcut | ⟨before, later, after, rfl, hcut⟩)
      · exact ⟨[], call, calls, rfl, hcut⟩
      · exact ⟨call :: before, later, after, rfl, hcut⟩
    · rintro ⟨before, later, after, hcalls, hcut⟩
      cases before with
      | nil =>
        cases hcalls
        exact .inl hcut
      | cons _ before =>
        cases hcalls
        exact .inr ⟨before, later, after, rfl, hcut⟩

/-- A walk stops before a class for a reason if and only if it is cut short there. -/
theorem run_start_state_eq_skipped (source : String) (maxDepth : Nat) (calls : List WalkCall) :
    ((start source maxDepth).run calls).state = .skipped name reason ↔
      CutShort source maxDepth calls name reason := by
  have hstart : (start source maxDepth).state = .skipped name reason ↔
      reason = .cycle ∧ (ClassSource.outline source).parent = some name ∧
        name ∈ visit [] (ClassSource.outline source).name := by
    unfold start
    exact (absorbed_absorb _ _).state_eq_skipped
  have hchain : Chain (ClassSource.outline source).name maxDepth _ [] := chain_first
  rw [run_state_eq_skipped (sound_start source maxDepth), hstart, hchain.mem_visited]
  constructor
  · rintro (⟨rfl, hparent, hclass | hmem⟩ | ⟨before, call, after, hcalls, hcut⟩)
    · exact .loop hclass hparent
    · cases hmem
    · exact .call hcalls hcut
  · rintro (⟨hclass, hparent⟩ | ⟨hcalls, hcut⟩)
    · exact .inl ⟨rfl, hparent, .inl hclass⟩
    · exact .inr ⟨_, _, _, hcalls, hcut⟩

end Causes

/-! ## The result -/

section Finish

variable {w : AncestorWalk} {name : String} {reason : UnresolvedReason}

theorem leftOut_finish : leftOut w.finish.warnings = leftOut w.abort.warnings := by
  unfold finish
  dsimp only
  split
  · exact (leftOut_append _).trans (List.append_nil _)
  · rfl

theorem unresolved_eq_singleton : w.state.unresolved = [.unresolved name reason] ↔
    w.state = .skipped name reason := by
  unfold WalkState.unresolved
  split
  · next hstate => simp [hstate]
  · next hstate => exact ⟨nofun, fun h => absurd h (hstate name reason)⟩

theorem unresolved_eq_cons {warning : ExtractionWarning} {rest : List ExtractionWarning}
    (h : w.state.unresolved = warning :: rest) : ∃ name reason, w.state = .skipped name reason := by
  unfold WalkState.unresolved at h
  split at h
  · next name reason hstate => exact ⟨name, reason, hstate⟩
  · cases h

theorem unresolved_eq_nil_of_isFinished (h : w.isFinished = true) :
    w.state.unresolved = [] ↔ w.state.subject? = none := by
  unfold isFinished at h
  split at h
  · next hstate => simp [hstate, WalkState.unresolved, WalkState.subject?]
  · next hstate => simp [hstate, WalkState.unresolved, WalkState.subject?]
  · cases h

end Finish

end AncestorWalk

theorem Resolution.isComplete_iff {r : Resolution} :
    r.isComplete = true ↔ ExtractionWarning.leftOut r.warnings = [] := by
  simp [isComplete, ExtractionWarning.leftOut, List.filter_eq_nil_iff]

namespace AncestorWalk

open ExtractionWarning

/-- Whatever the calls, the warnings name an ancestor that is left out if and only if the walk has
stopped before it, and then this one only. The result is complete exactly when the last class taken
extends none; otherwise it reports once what cut the walk short, giving up included. It has the
fields of all classes taken, in front the ones that were there at any time before. -/
theorem finish_reports_cut (source : String) (maxDepth : Nat) (calls : List WalkCall) :
    let first := ClassSource.outline source
    let w := (start source maxDepth).run calls
    let later := takenBy (start source maxDepth) calls
    ((∃ name reason, .unresolved name reason ∈ w.warnings) ↔
        ∃ name reason, w.state = .skipped name reason) ∧
      (∀ name reason, w.state = .skipped name reason →
        leftOut w.warnings = [.unresolved name reason]) ∧
      later.map (·.name) = w.ancestors.map some ∧
      (w.finish.isComplete = true ↔ (later.getLast?.getD first).parent = none) ∧
      (∀ name reason, leftOut w.finish.warnings = [.unresolved name reason] ↔
        CutShort source maxDepth (calls ++ [.abort]) name reason) ∧
      (w.finish.isComplete = false → ∃ name reason,
        CutShort source maxDepth (calls ++ [.abort]) name reason) ∧
      w.finish.fields = mergeAll (first :: later) ∧
      ∀ before after, calls = before ++ after →
        ((start source maxDepth).run before).fields <+: w.finish.fields := by
  intro first w later
  have haccounts : Accounts first later w := (accounts_start source maxDepth).run calls
  have habort : Accounts first later w.abort := haccounts.abort
  -- The result is that of the walk given up, which is one call more.
  have hrun : (start source maxDepth).run (calls ++ [.abort]) = w.abort := run_append _ _ _
  have hreported : leftOut w.finish.warnings = w.abort.state.unresolved :=
    leftOut_finish.trans habort.reported
  have hcut : ∀ name reason, leftOut w.finish.warnings = [.unresolved name reason] ↔
      CutShort source maxDepth (calls ++ [.abort]) name reason := by
    intro name reason
    rw [hreported, unresolved_eq_singleton, ← hrun, run_start_state_eq_skipped]
  refine ⟨?_, fun name reason hstate => ?_, haccounts.names, ?_, hcut, fun hcomplete => ?_, ?_, ?_⟩
  · constructor
    · rintro ⟨name, reason, hmem⟩
      rw [← unresolved_mem_leftOut, haccounts.reported] at hmem
      obtain ⟨warning, rest, hcons⟩ := List.exists_cons_of_ne_nil (List.ne_nil_of_mem hmem)
      exact unresolved_eq_cons hcons
    · rintro ⟨name, reason, hstate⟩
      refine ⟨name, reason, ?_⟩
      rw [← unresolved_mem_leftOut, haccounts.reported, unresolved_eq_singleton.mpr hstate]
      exact List.mem_singleton_self _
  · rw [haccounts.reported, unresolved_eq_singleton.mpr hstate]
  · rw [Resolution.isComplete_iff, hreported,
      unresolved_eq_nil_of_isFinished (isFinished_abort w), habort.subject]
  · have hne : leftOut w.finish.warnings ≠ [] := by
      rw [Ne, ← Resolution.isComplete_iff, hcomplete]
      exact Bool.false_ne_true
    obtain ⟨warning, rest, hcons⟩ := List.exists_cons_of_ne_nil (hreported ▸ hne)
    obtain ⟨name, reason, hstate⟩ := unresolved_eq_cons hcons
    exact ⟨name, reason, (hcut name reason).mp (hreported.trans (unresolved_eq_singleton.mpr hstate))⟩
  · rw [finish_fields, haccounts.fields]
  · rintro before after rfl
    rw [finish_fields]
    change _ <+: ((start source maxDepth).run (before ++ after)).fields
    rw [run_append]
    exact prefix_run _ after

/-- A walk with room for one ancestor, which is answered by a wrong source first. It stops before the
ancestor of that one, and giving up changes nothing more. -/
theorem finish_reports_cut_full :
    let source := "class A extends B \x7b private int a; \x7d"
    let parent := "class B extends C \x7b private String a; private Long b; \x7d"
    let calls := [.next, .supply (some "class D \x7b \x7d"), .supply (some parent), .next]
    let w := (start source 1).run calls
    leftOut w.warnings = [.unresolved "C" .depthExceeded] ∧
      (∃ name reason, CutShort source 1 (calls ++ [.abort]) name reason) ∧
      w.fields = [⟨"a", "Integer"⟩, ⟨"b", "Long"⟩] ∧
      ((start source 1).run [.next]).fields <+: w.finish.fields := by
  intro source parent calls w
  have hstate : w.state = .skipped "C" .depthExceeded := by decide +kernel
  have hcomplete : w.finish.isComplete = false := by decide +kernel
  obtain ⟨-, hreport, -, -, -, hcause, -, hkept⟩ := finish_reports_cut source 1 calls
  exact ⟨hreport "C" .depthExceeded hstate, hcause hcomplete, by decide +kernel,
    hkept [.next] _ rfl⟩

end AncestorWalk

end SchemaLint
