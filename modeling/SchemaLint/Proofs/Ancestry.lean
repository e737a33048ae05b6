import Mathlib.Data.List.Basic
import Mathlib.Data.List.Nodup
import SchemaLint.Ancestry.Calls
import SchemaLint.Proofs.Schema.Field

/-!
# Walks along ancestors

Whoever answers the requests of a walk may give wrong sources, give up early or answer when nothing
was asked. Whatever the calls and their order, the classes taken are the one the walk started from
and its ancestors, each once (`Chain`), and the class that a walk asks for is none of them (`Sound`).
A call keeps a sound walk sound (`Sound.perform`), only adds fields at the end (`prefix_perform`),
and does nothing to a walk that has come to its end (`perform_of_isFinished`).

The depth is looked at only when a class is asked for, so a sound walk that waits for a source has
room for one more ancestor.
-/

namespace SchemaLint

/-- Fields are merged behind those that are there. -/
theorem Field.prefix_merge (fields more : List Field) : fields <+: Field.merge fields more := by
  induction more generalizing fields with
  | nil => exact List.prefix_refl fields
  | cons f more ih =>
    have hadd : fields <+: Field.add fields f := by
      unfold Field.add
      split
      · exact List.prefix_append fields [f]
      · exact List.prefix_refl fields
    exact hadd.trans (ih (Field.add fields f))

/-- The class that is named and not taken yet. -/
def WalkState.named? : WalkState → Option String
  | pending name => some name
  | awaiting name => some name
  | _ => none

/-- A call on a walk. -/
inductive WalkCall where
  /-- To ask for the next class. -/
  | next
  /-- To answer by a source or by none, whether something was asked or not. -/
  | supply (source : Option String)
  /-- To give up. -/
  | abort
  deriving DecidableEq, Repr

namespace AncestorWalk

/-- The walk after a call. -/
def perform (w : AncestorWalk) : WalkCall → AncestorWalk
  | .next => w.next
  | .supply source => w.supply source
  | .abort => w.abort

/-- The walk after several calls. -/
def run (w : AncestorWalk) (calls : List WalkCall) : AncestorWalk :=
  calls.foldl perform w

/-! ## Giving up -/

section Abort

variable {w : AncestorWalk} {name : String}

theorem abort_of_named (hnamed : w.state.named? = some name) :
    w.abort = w.skip name .cancelled := by
  cases hstate : w.state with
  | pending other =>
    rw [hstate] at hnamed
    obtain rfl : other = name := Option.some.inj hnamed
    simp only [abort, hstate]
  | awaiting other =>
    rw [hstate] at hnamed
    obtain rfl : other = name := Option.some.inj hnamed
    simp only [abort, hstate]
  | resolved =>
    rw [hstate] at hnamed
    cases hnamed
  | skipped _ _ =>
    rw [hstate] at hnamed
    cases hnamed

theorem abort_of_not_named (hnamed : w.state.named? = none) : w.abort = w := by
  cases hstate : w.state with
  | pending _ =>
    rw [hstate] at hnamed
    cases hnamed
  | awaiting _ =>
    rw [hstate] at hnamed
    cases hnamed
  | resolved => simp only [abort, hstate]
  | skipped _ _ => simp only [abort, hstate]

/-- Giving up changes nothing but the state and the warnings. -/
theorem abort_eq (w : AncestorWalk) :
    w.abort = { w with warnings := w.abort.warnings, state := w.abort.state } := by
  cases hnamed : w.state.named? with
  | some name =>
    rw [abort_of_named hnamed]
    rfl
  | none => rw [abort_of_not_named hnamed]

end Abort

/-! ## The classes taken -/

/-- The classes taken are the first one, if it has a name, and its ancestors, which are not too many
and of which none is repeated. -/
structure Chain (first : Option String) (maxDepth : Nat) (visited ancestors : List String) :
    Prop where
  mem_visited : ∀ name, name ∈ visited ↔ first = some name ∨ name ∈ ancestors
  nodup : ancestors.Nodup
  first_not_mem : ∀ name ∈ ancestors, first ≠ some name
  length_le : ancestors.length ≤ maxDepth

section Chains

variable {first : Option String} {maxDepth : Nat} {visited ancestors : List String}

theorem mem_visit {taken : Option String} {name : String} :
    name ∈ visit visited taken ↔ taken = some name ∨ name ∈ visited := by
  cases taken with
  | none => simp [visit]
  | some other => simp [visit, eq_comm]

theorem chain_first : Chain first maxDepth (visit [] first) [] :=
  ⟨fun _ => mem_visit, List.nodup_nil, by simp, Nat.zero_le _⟩

/-- A class that is not taken yet may be taken while there is room. -/
theorem Chain.concat (h : Chain first maxDepth visited ancestors) {name : String}
    (hnew : name ∉ visited) (hroom : ancestors.length < maxDepth) :
    Chain first maxDepth (visit visited (some name)) (ancestors ++ [name]) := by
  have hfirst : first ≠ some name := fun heq => hnew ((h.mem_visited name).mpr (.inl heq))
  have hmem : name ∉ ancestors := fun hin => hnew ((h.mem_visited name).mpr (.inr hin))
  refine ⟨fun other => ?_, ?_, fun other hother => ?_, ?_⟩
  · rw [mem_visit, h.mem_visited, List.mem_append, List.mem_singleton, Option.some.injEq,
      eq_comm (a := name)]
    tauto
  · rw [List.nodup_append]
    refine ⟨h.nodup, List.nodup_singleton name, ?_⟩
    rintro a ha b hb rfl
    rw [List.mem_singleton.mp hb] at ha
    exact hmem ha
  · rcases List.mem_append.mp hother with hin | heq
    · exact h.first_not_mem other hin
    · rwa [List.mem_singleton.mp heq]
  · rw [List.length_append, List.length_singleton]
    exact hroom

end Chains

/-! ## Sound walks -/

/-- A walk that takes each class and each field once, and that never asks for a class it took. -/
structure Sound (first : Option String) (maxDepth : Nat) (w : AncestorWalk) : Prop where
  maxDepth_eq : w.maxDepth = maxDepth
  fields : Field.WellFormed w.fields
  chain : Chain first maxDepth w.visited w.ancestors
  named_new : ∀ name, w.state.named? = some name → name ∉ w.visited
  /-- Who waits for a source has room for its class. -/
  awaiting_lt : ∀ name, w.state = .awaiting name → w.ancestors.length < maxDepth

section Sound

variable {first : Option String} {maxDepth : Nat} {w w' : AncestorWalk}

/-- A walk on which no class is named is sound when its chain and its fields are. -/
theorem sound_of_not_named (hdepth : w.maxDepth = maxDepth) (hfields : Field.WellFormed w.fields)
    (hchain : Chain first maxDepth w.visited w.ancestors) (hstate : w.state.named? = none) :
    Sound first maxDepth w where
  maxDepth_eq := hdepth
  fields := hfields
  chain := hchain
  named_new name hnamed := by
    rw [hstate] at hnamed
    cases hnamed
  awaiting_lt name hawaiting := by
    rw [hawaiting] at hstate
    cases hstate

theorem Sound.skip (h : Sound first maxDepth w) (name : String) (reason : UnresolvedReason) :
    Sound first maxDepth (w.skip name reason) :=
  sound_of_not_named h.maxDepth_eq h.fields h.chain rfl

/-- Taking a class gives a sound walk when the class continues the chain. -/
theorem sound_absorbed {o : ClassOutline} (habsorbed : Absorbed w o w')
    (hdepth : w.maxDepth = maxDepth) (hfields : Field.WellFormed w.fields)
    (hchain : Chain first maxDepth (visit w.visited o.name) w.ancestors) :
    Sound first maxDepth w' := by
  have hmerge := hfields.merge o.fields
  cases habsorbed with
  | resolved _ => exact sound_of_not_named hdepth hmerge hchain rfl
  | cycle _ _ => exact sound_of_not_named hdepth hmerge hchain rfl
  | pending _ hnew =>
    refine ⟨hdepth, hmerge, hchain, fun name hnamed => ?_, fun name hawaiting => ?_⟩
    · rwa [← Option.some.inj hnamed]
    · cases hawaiting

theorem sound_start (source : String) (maxDepth : Nat) :
    Sound (ClassSource.outline source).name maxDepth (start source maxDepth) := by
  apply sound_absorbed (absorbed_absorb _ _)
  · rfl
  · exact Field.wellFormed_nil
  · exact chain_first

theorem Sound.next (h : Sound first maxDepth w) : Sound first maxDepth w.next := by
  rcases w.next_cases with ⟨name, -, -, heq⟩ | ⟨name, hstate, hroom, heq⟩ | ⟨-, heq⟩
  · rw [heq]
    exact h.skip name _
  · rw [heq]
    refine ⟨h.maxDepth_eq, h.fields, h.chain, fun other hnamed => ?_, fun _ _ => ?_⟩
    · rw [← Option.some.inj hnamed]
      exact h.named_new name (by rw [hstate]; rfl)
    · rw [← h.maxDepth_eq]
      exact hroom
  · rwa [heq]

theorem Sound.answered (h : Sound first maxDepth w) {name : String} (hstate : w.state = .awaiting name)
    {source : Option String} (hanswered : Answered w name source w') : Sound first maxDepth w' := by
  cases hanswered with
  | declined => exact h.skip name _
  | parseFailed _ => exact h.skip name _
  | mismatch _ _ => exact ⟨h.maxDepth_eq, h.fields, h.chain, h.named_new, h.awaiting_lt⟩
  | taken hname habsorbed =>
    -- The class waited for was new when it was named and had room when it was asked for.
    have hnew := h.named_new name (by rw [hstate]; rfl)
    have hchain := h.chain.concat hnew (h.awaiting_lt name hstate)
    rw [← hname] at hchain
    exact sound_absorbed habsorbed h.maxDepth_eq h.fields hchain

theorem Sound.supply (h : Sound first maxDepth w) (source : Option String) :
    Sound first maxDepth (w.supply source) := by
  rcases w.supply_cases source with ⟨name, hstate, hanswered⟩ | ⟨-, heq⟩
  · exact h.answered hstate hanswered
  · rwa [heq]

theorem Sound.abort (h : Sound first maxDepth w) : Sound first maxDepth w.abort := by
  cases hnamed : w.state.named? with
  | some name =>
    rw [abort_of_named hnamed]
    exact h.skip name _
  | none => rwa [abort_of_not_named hnamed]

/-- Every call keeps a sound walk sound. -/
theorem Sound.perform (h : Sound first maxDepth w) (call : WalkCall) :
    Sound first maxDepth (w.perform call) := by
  cases call with
  | next => exact h.next
  | supply source => exact h.supply source
  | abort => exact h.abort

theorem Sound.run (h : Sound first maxDepth w) (calls : List WalkCall) :
    Sound first maxDepth (w.run calls) := by
  induction calls generalizing w with
  | nil => exact h
  | cons call calls ih => exact ih (h.perform call)

end Sound

/-! ## Single calls -/

theorem Absorbed.prefix_fields {w w' : AncestorWalk} {o : ClassOutline} (h : Absorbed w o w') :
    w.fields <+: w'.fields := by
  have hmerge := Field.prefix_merge w.fields o.fields
  cases h with
  | resolved _ => exact hmerge
  | cycle _ _ => exact hmerge
  | pending _ _ => exact hmerge

theorem Answered.prefix_fields {w w' : AncestorWalk} {name : String} {source : Option String}
    (h : Answered w name source w') : w.fields <+: w'.fields := by
  cases h with
  | declined => exact List.prefix_rfl
  | parseFailed _ => exact List.prefix_rfl
  | mismatch _ _ => exact List.prefix_rfl
  | taken _ habsorbed => exact habsorbed.prefix_fields

theorem fields_next (w : AncestorWalk) : w.next.fields = w.fields := by
  rw [next_eq]

theorem fields_abort (w : AncestorWalk) : w.abort.fields = w.fields := by
  rw [abort_eq]

theorem prefix_supply (w : AncestorWalk) (source : Option String) :
    w.fields <+: (w.supply source).fields := by
  rcases w.supply_cases source with ⟨_, -, hanswered⟩ | ⟨-, heq⟩
  · exact hanswered.prefix_fields
  · exact congrArg AncestorWalk.fields heq ▸ List.prefix_rfl

/-- A call keeps all fields where they are. -/
theorem prefix_perform (w : AncestorWalk) (call : WalkCall) :
    w.fields <+: (w.perform call).fields := by
  cases call with
  | next =>
    change w.fields <+: w.next.fields
    exact w.fields_next ▸ List.prefix_rfl
  | supply source => exact prefix_supply w source
  | abort =>
    change w.fields <+: w.abort.fields
    exact w.fields_abort ▸ List.prefix_rfl

/-- Nothing more happens to a walk that has come to its end. -/
theorem perform_of_isFinished {w : AncestorWalk} (h : w.isFinished = true) (call : WalkCall) :
    w.perform call = w := by
  unfold isFinished at h
  split at h
  · next hstate => cases call <;> simp only [perform, next, supply, abort, hstate]
  · next hstate => cases call <;> simp only [perform, next, supply, abort, hstate]
  · cases h

/-! ## The end of a walk -/

section Finish

variable {w : AncestorWalk}

theorem isFinished_iff : w.isFinished = true ↔ w.state.named? = none := by
  unfold isFinished WalkState.named?
  cases w.state <;> simp

theorem isFinished_abort (w : AncestorWalk) : w.abort.isFinished = true := by
  rw [isFinished_iff]
  cases hnamed : w.state.named? with
  | some name =>
    rw [abort_of_named hnamed]
    rfl
  | none => rwa [abort_of_not_named hnamed]

theorem finish_abort (w : AncestorWalk) : w.abort.finish = w.finish := by
  have habort : w.abort.abort = w.abort := perform_of_isFinished (isFinished_abort w) .abort
  unfold finish
  rw [habort]

@[simp] theorem finish_fields : w.finish.fields = w.fields :=
  fields_abort w

@[simp] theorem finish_ancestors : w.finish.ancestors = w.ancestors := by
  change w.abort.ancestors = w.ancestors
  rw [abort_eq]

end Finish

/-! ## All calls -/

theorem prefix_run (w : AncestorWalk) (calls : List WalkCall) :
    w.fields <+: (w.run calls).fields := by
  induction calls generalizing w with
  | nil => exact List.prefix_rfl
  | cons call calls ih => exact (prefix_perform w call).trans (ih (w.perform call))

theorem run_append (w : AncestorWalk) (calls more : List WalkCall) :
    w.run (calls ++ more) = (w.run calls).run more :=
  List.foldl_append

/-- After any calls the field names are non-empty and distinct, the ancestors are distinct, not too
many, and none of them is the first class; the class named next is none of these. A further call
keeps the fields where they are, and does nothing once the walk has come to its end. -/
theorem walk_keeps_chain (source : String) (maxDepth : Nat) (calls : List WalkCall)
    (call : WalkCall) :
    let first := (ClassSource.outline source).name
    let w := (start source maxDepth).run calls
    Field.WellFormed w.fields ∧
      w.ancestors.Nodup ∧ (∀ name ∈ w.ancestors, first ≠ some name) ∧
      w.ancestors.length ≤ maxDepth ∧
      (∀ name, w.state = .pending name ∨ w.state = .awaiting name →
        first ≠ some name ∧ name ∉ w.ancestors) ∧
      w.fields <+: (w.perform call).fields ∧
      (w.isFinished = true → w.perform call = w) := by
  intro first w
  have hsound : Sound first maxDepth w := (sound_start source maxDepth).run calls
  have hchain := hsound.chain
  refine ⟨hsound.fields, hchain.nodup, hchain.first_not_mem, hchain.length_le,
    fun name hstate => ?_, prefix_perform w call,
    fun hfinished => perform_of_isFinished hfinished call⟩
  have hnew : name ∉ w.visited := by
    refine hsound.named_new name ?_
    rcases hstate with hstate | hstate <;> rw [hstate] <;> rfl
  exact ⟨fun heq => hnew ((hchain.mem_visited name).mpr (.inl heq)),
    fun hmem => hnew ((hchain.mem_visited name).mpr (.inr hmem))⟩

/-- A walk that is answered before it asks, by a wrong source, and by a parent that extends the class
that the walk started from; it ends in a cycle, and a request after that changes nothing. -/
theorem walk_keeps_chain_cycle :
    let source := "class A extends B \x7b private int a; \x7d"
    let parent := "class B extends A \x7b private String a; private Long b; \x7d"
    let calls := [.supply none, .next, .supply (some "class C \x7b \x7d"), .supply (some parent)]
    let w := (start source 4).run calls
    w.isFinished = true ∧ w.ancestors = ["B"] ∧ w.fields = [⟨"a", "Integer"⟩, ⟨"b", "Long"⟩] ∧
      w.perform .next = w := by
  have hfinished : ((start "class A extends B \x7b private int a; \x7d" 4).run
      [.supply none, .next, .supply (some "class C \x7b \x7d"),
        .supply (some "class B extends A \x7b private String a; private Long b; \x7d")]).isFinished =
        true := by
    decide +kernel
  obtain ⟨-, -, -, -, -, -, hunchanged⟩ := walk_keeps_chain
    "class A extends B \x7b private int a; \x7d" 4 [.supply none, .next,
      .supply (some "class C \x7b \x7d"),
      .supply (some "class B extends A \x7b private String a; private Long b; \x7d")] .next
  exact ⟨hfinished, by decide +kernel, by decide +kernel, hunchanged hfinished⟩

end AncestorWalk

end SchemaLint
