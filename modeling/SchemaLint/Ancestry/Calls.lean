import SchemaLint.Ancestry

/-!
# What the calls of a walk do

Each call of a walk is taken apart once. Asking ends in one of three ways (`next_cases`), taking a
class in one of three (`Absorbed`), and a walk that waits for a class takes an answer in one of four
(`Answered`); any other walk ignores it (`supply_cases`).
-/

namespace SchemaLint.AncestorWalk

variable {w w' : AncestorWalk} {name : String}

@[simp] theorem skip_state (reason : UnresolvedReason) :
    (w.skip name reason).state = .skipped name reason :=
  rfl

/-! ## Asking for a class -/

@[simp] theorem request?_eq_some : w.request? = some name ↔ w.state = .awaiting name := by
  unfold request?
  split
  · next other hstate => simp [hstate]
  · next hstate => exact ⟨nofun, fun h => absurd h (hstate name)⟩

/-- Asking stops a walk whose chain is full, names the class to wait for, or does nothing. -/
theorem next_cases (w : AncestorWalk) :
    (∃ name, w.state = .pending name ∧ w.maxDepth ≤ w.ancestors.length ∧
      w.next = w.skip name .depthExceeded) ∨
    (∃ name, w.state = .pending name ∧ w.ancestors.length < w.maxDepth ∧
      w.next = { w with state := .awaiting name }) ∨
    (∀ name, w.state ≠ .pending name) ∧ w.next = w := by
  unfold next
  split
  · next name hstate =>
    split
    · next hfull => exact .inl ⟨name, hstate, hfull, rfl⟩
    · next hroom => exact .inr (.inl ⟨name, hstate, Nat.not_le.mp hroom, rfl⟩)
  · next hpending => exact .inr (.inr ⟨hpending, rfl⟩)

/-- Asking changes nothing but the state and the warnings. -/
theorem next_eq (w : AncestorWalk) :
    w.next = { w with warnings := w.next.warnings, state := w.next.state } := by
  rcases w.next_cases with ⟨_, _, _, h⟩ | ⟨_, _, _, h⟩ | ⟨_, h⟩
  · rw [h]
    rfl
  · rw [h]
  · rw [h]

@[simp] theorem next_ancestors : w.next.ancestors = w.ancestors := by
  rw [next_eq]

@[simp] theorem next_maxDepth : w.next.maxDepth = w.maxDepth := by
  rw [next_eq]

@[simp] theorem next_visited : w.next.visited = w.visited := by
  rw [next_eq]

/-- A class is waited for if it was before, or if it was named and the chain had room for it. -/
theorem next_state_eq_awaiting : w.next.state = .awaiting name ↔
    w.state = .awaiting name ∨ w.state = .pending name ∧ w.ancestors.length < w.maxDepth := by
  rcases w.next_cases with ⟨other, hstate, hfull, h⟩ | ⟨other, hstate, hroom, h⟩ | ⟨hpending, h⟩
  · simp [h, hstate, Nat.not_lt.mpr hfull]
  · simp [h, hstate, hroom]
  · simp [h, hpending]

theorem request?_next_of_awaiting (h : w.state = .awaiting name) :
    w.next.request? = some name := by
  rw [request?_eq_some, next_state_eq_awaiting]
  exact .inl h

/-! ## Taking a class -/

/-- A walk with the fields of one more class. -/
def including (w : AncestorWalk) (o : ClassOutline) : AncestorWalk :=
  { w with visited := visit w.visited o.name, fields := Field.merge w.fields o.fields }

/-- Where a walk stands once it has taken a class. -/
inductive Absorbed (w : AncestorWalk) (o : ClassOutline) : AncestorWalk → Prop
  | resolved (h : o.parent = none) : Absorbed w o { w.including o with state := .resolved }
  | cycle {parent : String} (h : o.parent = some parent) (hmem : parent ∈ visit w.visited o.name) :
      Absorbed w o ((w.including o).skip parent .cycle)
  | pending {parent : String} (h : o.parent = some parent)
      (hnew : parent ∉ visit w.visited o.name) :
      Absorbed w o { w.including o with state := .pending parent }

theorem absorbed_absorb (w : AncestorWalk) (o : ClassOutline) : Absorbed w o (w.absorb o) := by
  unfold absorb
  dsimp only
  split
  · next hparent => exact .resolved hparent
  · next parent hparent =>
    split
    · next hmem => exact .cycle hparent (List.contains_iff_mem.mp hmem)
    · next hnew => exact .pending hparent fun hmem => hnew (List.contains_iff_mem.mpr hmem)

namespace Absorbed

variable {o : ClassOutline} (h : Absorbed w o w')

include h in
theorem ancestors_eq : w'.ancestors = w.ancestors := by
  cases h <;> rfl

include h in
theorem maxDepth_eq : w'.maxDepth = w.maxDepth := by
  cases h <;> rfl

include h in
theorem visited_eq : w'.visited = visit w.visited o.name := by
  cases h <;> rfl

include h in
/-- A class that is asked for next is the parent, it is a new one, and there is room for it. -/
theorem next_request? :
    (w'.next.request? = none ∧ ∀ parent, o.parent = some parent →
      parent ∈ visit w.visited o.name ∨ w.maxDepth ≤ w.ancestors.length) ∨
    ∃ parent, w'.next.request? = some parent ∧ o.parent = some parent ∧
      parent ∉ visit w.visited o.name ∧ w.ancestors.length < w.maxDepth := by
  cases h with
  | resolved hparent =>
    rw [hparent]
    exact .inl ⟨rfl, nofun⟩
  | cycle hparent hmem =>
    refine .inl ⟨rfl, fun other hother => .inl ?_⟩
    rw [hparent] at hother
    exact Option.some.inj hother ▸ hmem
  | @pending parent hparent hnew =>
    by_cases hroom : w.ancestors.length < w.maxDepth
    · refine .inr ⟨parent, ?_, hparent, hnew, hroom⟩
      rw [request?_eq_some, next_state_eq_awaiting]
      exact .inr ⟨rfl, hroom⟩
    · refine .inl ⟨?_, fun _ _ => .inr (Nat.not_lt.mp hroom)⟩
      rw [Option.eq_none_iff_forall_ne_some]
      intro other hother
      rw [request?_eq_some, next_state_eq_awaiting] at hother
      rcases hother with hawaiting | hpending
      · cases hawaiting
      · exact hroom hpending.2

end Absorbed

/-! ## Answering a request -/

theorem supply_of_not_awaiting (h : ∀ name, w.state ≠ .awaiting name) (source : Option String) :
    w.supply source = w := by
  unfold supply
  split
  · next name hstate => exact absurd hstate (h name)
  · rfl

/-- What an answer does to a walk that waits for the source of a class. -/
inductive Answered (w : AncestorWalk) (name : String) : Option String → AncestorWalk → Prop
  | declined : Answered w name none (w.skip name .declined)
  | parseFailed {source : String} (h : (ClassSource.outline source).name = none) :
      Answered w name (some source) (w.skip name .parseFailed)
  | mismatch {source found : String} (h : (ClassSource.outline source).name = some found)
      (hne : found ≠ name) :
      Answered w name (some source) { w with warnings := w.warnings ++ [.mismatch name found] }
  | taken {source : String} {w' : AncestorWalk} (h : (ClassSource.outline source).name = some name)
      (habsorbed : Absorbed { w with ancestors := w.ancestors ++ [name] }
        (ClassSource.outline source) w') :
      Answered w name (some source) w'

theorem answered_supply (h : w.state = .awaiting name) (source : Option String) :
    Answered w name source (w.supply source) := by
  unfold supply
  split
  · next expected hstate =>
    obtain rfl : expected = name := by
      rw [hstate] at h
      injection h
    cases source with
    | none => exact .declined
    | some source =>
      dsimp only [Option.map_some]
      split
      · next hname => exact .parseFailed hname
      · next found hname =>
        split
        · next heq => exact .taken (by rw [hname, beq_iff_eq.mp heq]) (absorbed_absorb _ _)
        · next hne => exact .mismatch hname fun heq => hne (beq_iff_eq.mpr heq)
  · next hstate => exact absurd h (hstate name)

/-- A walk that waits for a class takes an answer, and any other ignores it. -/
theorem supply_cases (w : AncestorWalk) (source : Option String) :
    (∃ name, w.state = .awaiting name ∧ Answered w name source (w.supply source)) ∨
      (∀ name, w.state ≠ .awaiting name) ∧ w.supply source = w := by
  by_cases hawaiting : ∃ name, w.state = .awaiting name
  · obtain ⟨name, hstate⟩ := hawaiting
    exact .inl ⟨name, hstate, answered_supply hstate source⟩
  · have hclosed : ∀ name, w.state ≠ .awaiting name := fun name h => hawaiting ⟨name, h⟩
    exact .inr ⟨hclosed, supply_of_not_awaiting hclosed source⟩

namespace Answered

variable {source : Option String} (h : Answered w name source w')

include h in
theorem maxDepth_eq : w'.maxDepth = w.maxDepth := by
  cases h with
  | taken _ habsorbed => exact habsorbed.maxDepth_eq
  | _ => rfl

include h in
theorem visited_subset : w.visited ⊆ w'.visited := by
  cases h with
  | taken hname habsorbed =>
    rw [habsorbed.visited_eq, hname]
    exact fun _ hmem => List.mem_insert_of_mem hmem
  | _ => exact fun _ hmem => hmem

include h in
/-- After an answer nothing more is asked for, or the same class on the same chain, or another class
on a chain that is longer and has room for it. -/
theorem next_request? (hstate : w.state = .awaiting name) : w'.next.request? = none ∨
    (w'.next.request? = some name ∧ w'.ancestors = w.ancestors) ∨
    ∃ other, w'.next.request? = some other ∧ other ≠ name ∧
      w'.ancestors.length = w.ancestors.length + 1 ∧ w'.ancestors.length < w.maxDepth := by
  cases h with
  | declined => exact .inl rfl
  | parseFailed _ => exact .inl rfl
  | mismatch _ _ => exact .inr (.inl ⟨request?_next_of_awaiting hstate, rfl⟩)
  | taken hname habsorbed =>
    rcases habsorbed.next_request? with ⟨hnone, -⟩ | ⟨other, hother, -, hnew, hroom⟩
    · exact .inl hnone
    · rw [hname] at hnew
      have hne : other ≠ name := by
        rintro rfl
        exact hnew (List.mem_insert_self)
      refine .inr (.inr ⟨other, hother, hne, ?_, ?_⟩)
      · rw [habsorbed.ancestors_eq, List.length_append, List.length_singleton]
      · rw [habsorbed.ancestors_eq]
        exact hroom

include h in
/-- Who asks for another class after an answer has taken the one asked for before. -/
theorem mem_visited (hstate : w.state = .awaiting name) {other : String}
    (hother : w'.next.request? = some other) (hne : other ≠ name) : name ∈ w'.visited := by
  cases h with
  | declined => cases hother
  | parseFailed _ => cases hother
  | mismatch _ _ =>
    have hsame := hother.symm.trans (request?_next_of_awaiting hstate)
    exact absurd (Option.some.inj hsame) hne
  | taken hname habsorbed =>
    rw [habsorbed.visited_eq, hname]
    exact List.mem_insert_self

end Answered

end SchemaLint.AncestorWalk
