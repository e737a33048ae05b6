import SchemaLint.Proofs.Ancestry.Report
import SchemaLint.Proofs.Schema.Merge

/-!
# The lineage of a class

When the source of a class is determined by its name, so are the ancestors of a class: its parent, as
long as the parent is not on the chain and its source declares it, and the ancestors of that one.
The fields of a class are its own merged with those of its parent, which is a recursion from the
farthest ancestor down (`inherited`). Merging the classes of the lineage from the nearest one up
gives the same (`mergeAll_lineage`), and so does taking from each class the fields with new names
(`mergeAll_eq_newFields`).
-/

namespace SchemaLint

/-- The class that a class extends, if it may be taken: it is not on the chain yet, and its source is
given and declares it first. -/
def ClassOutline.parentIn? (sources : String → Option String) (chain : List String)
    (o : ClassOutline) : Option ClassOutline :=
  o.parent.bind fun parent =>
    if parent ∈ chain then none else ClassSource.outlineOf? parent (sources parent)

/-- A class and so many of its ancestors, the nearest first. -/
def lineage (sources : String → Option String) : Nat → List String → ClassOutline →
    List ClassOutline
  | 0, _, o => [o]
  | depth + 1, chain, o =>
    match o.parentIn? sources chain with
    | none => [o]
    | some above => o :: lineage sources depth (above.name.toList ++ chain) above

/-- The fields of a class merged with those of its parent. -/
def inherited (sources : String → Option String) : Nat → List String → ClassOutline → List Field
  | 0, _, o => o.fields
  | depth + 1, chain, o =>
    match o.parentIn? sources chain with
    | none => o.fields
    | some above =>
      Field.merge o.fields (inherited sources depth (above.name.toList ++ chain) above)

/-- The fields of classes in turn, of each one those whose names are new. -/
def newFields : List String → List ClassOutline → List Field
  | _, [] => []
  | seen, o :: classes =>
    o.fields.filter (·.name ∉ seen) ++ newFields (Field.names o.fields ++ seen) classes

theorem ClassSource.wellFormed_outline (source : String) :
    Field.WellFormed (outline source).fields := by
  unfold outline
  dsimp only
  split
  · exact Field.wellFormed_nil
  · exact Field.wellFormed_nil.merge _

theorem ClassSource.outlineOf?_eq_some {name : String} {source : Option String} {o : ClassOutline}
    (h : outlineOf? name source = some o) : o.name = some name ∧ ∃ text, o = outline text := by
  obtain ⟨hmap, hname⟩ := Option.filter_eq_some_iff.mp h
  obtain ⟨text, -, rfl⟩ := Option.map_eq_some_iff.mp hmap
  exact ⟨of_decide_eq_true hname, text, rfl⟩

/-! ## All classes merged -/

section MergeAll

open AncestorWalk SchemaLint.Field

variable {o : ClassOutline} {classes : List ClassOutline}

theorem foldl_merge (fields : List Field) (classes : List ClassOutline) :
    classes.foldl (fun fields o => merge fields o.fields) fields =
      merge fields (mergeAll classes) := by
  induction classes generalizing fields with
  | nil => rfl
  | cons o classes ih =>
    have hall : mergeAll (o :: classes) = merge (merge [] o.fields) (mergeAll classes) := ih _
    rw [List.foldl_cons, ih, hall, ← merge_assoc, ← merge_assoc]
    rfl

theorem mergeAll_append (classes more : List ClassOutline) :
    mergeAll (classes ++ more) = merge (mergeAll classes) (mergeAll more) := by
  rw [mergeAll, List.foldl_append, foldl_merge]
  rfl

theorem prefix_mergeAll {more : List ClassOutline} (h : classes <+: more) :
    mergeAll classes <+: mergeAll more := by
  obtain ⟨rest, rfl⟩ := h
  rw [mergeAll_append]
  exact prefix_merge _ _

theorem mergeAll_singleton (h : WellFormed o.fields) : mergeAll [o] = o.fields :=
  merge_of_wellFormed h

theorem mergeAll_cons (h : WellFormed o.fields) :
    mergeAll (o :: classes) = merge o.fields (mergeAll classes) := by
  rw [← List.singleton_append, mergeAll_append, mergeAll_singleton h]

theorem wellFormed_mergeAll (classes : List ClassOutline) : WellFormed (mergeAll classes) := by
  cases classes with
  | nil => exact wellFormed_nil
  | cons o classes =>
    rw [← List.singleton_append, mergeAll_append]
    exact (wellFormed_nil.merge o.fields).merge _

/-- A name is looked up in one class after the other. -/
theorem find?_mergeAll (h : ∀ o ∈ classes, WellFormed o.fields) (name : String) :
    find? (mergeAll classes) name = classes.findSome? fun o => find? o.fields name := by
  induction classes with
  | nil => rfl
  | cons o classes ih =>
    obtain ⟨ho, hrest⟩ := List.forall_mem_cons.mp h
    rw [mergeAll_cons ho, find?_merge (wellFormed_mergeAll classes).name_ne, ih hrest,
      List.findSome?_cons]
    cases find? o.fields name with
    | none => rfl
    | some f => rfl

theorem filter_mergeAll (h : ∀ o ∈ classes, WellFormed o.fields) (seen : List String) :
    (mergeAll classes).filter (·.name ∉ seen) = newFields seen classes := by
  induction classes generalizing seen with
  | nil => rfl
  | cons o classes ih =>
    obtain ⟨ho, hrest⟩ := List.forall_mem_cons.mp h
    rw [mergeAll_cons ho, merge_eq_append (wellFormed_mergeAll classes), List.filter_append,
      List.filter_filter, newFields, ← ih hrest]
    congr 1
    refine List.filter_congr fun f _ => ?_
    simp [and_comm]

/-- Merging takes from each class the fields whose names are new. -/
theorem mergeAll_eq_newFields (h : ∀ o ∈ classes, WellFormed o.fields) :
    mergeAll classes = newFields [] classes := by
  rw [← filter_mergeAll h]
  simp

end MergeAll

/-! ## The lineage merged -/

section Lineage

open AncestorWalk SchemaLint.Field

variable {sources : String → Option String} {depth : Nat} {chain : List String}
  {o above : ClassOutline}

theorem lineage_of_parentIn?_eq_none (h : o.parentIn? sources chain = none) :
    lineage sources depth chain o = [o] := by
  cases depth with
  | zero => rfl
  | succ depth => rw [lineage, h]

theorem lineage_of_parentIn?_eq_some (h : o.parentIn? sources chain = some above) :
    lineage sources (depth + 1) chain o =
      o :: lineage sources depth (above.name.toList ++ chain) above := by
  rw [lineage, h]

theorem parentIn?_eq_some (h : o.parentIn? sources chain = some above) :
    ∃ text, above = ClassSource.outline text := by
  obtain ⟨parent, -, hif⟩ := Option.bind_eq_some_iff.mp h
  split at hif
  · cases hif
  · exact (ClassSource.outlineOf?_eq_some hif).2

theorem wellFormed_lineage (h : WellFormed o.fields) :
    ∀ c ∈ lineage sources depth chain o, WellFormed c.fields := by
  induction depth generalizing chain o with
  | zero => simpa [lineage] using h
  | succ depth ih =>
    cases hparent : o.parentIn? sources chain with
    | none => simpa [lineage_of_parentIn?_eq_none hparent] using h
    | some above =>
      obtain ⟨text, rfl⟩ := parentIn?_eq_some hparent
      rw [lineage_of_parentIn?_eq_some hparent]
      exact List.forall_mem_cons.mpr ⟨h, ih (ClassSource.wellFormed_outline text)⟩

/-- Merging the lineage in turn gives what each class inherits. -/
theorem mergeAll_lineage (h : WellFormed o.fields) :
    mergeAll (lineage sources depth chain o) = inherited sources depth chain o := by
  induction depth generalizing chain o with
  | zero => exact mergeAll_singleton h
  | succ depth ih =>
    cases hparent : o.parentIn? sources chain with
    | none =>
      rw [lineage_of_parentIn?_eq_none hparent, inherited, hparent]
      exact mergeAll_singleton h
    | some above =>
      obtain ⟨text, rfl⟩ := parentIn?_eq_some hparent
      rw [lineage_of_parentIn?_eq_some hparent, mergeAll_cons h,
        ih (ClassSource.wellFormed_outline text), inherited, hparent]

/-- The lineage that goes less deep is the first part of the other. -/
theorem prefix_lineage {less : Nat} (h : less ≤ depth) :
    lineage sources less chain o <+: lineage sources depth chain o := by
  induction depth generalizing less chain o with
  | zero =>
    obtain rfl : less = 0 := Nat.le_zero.mp h
    exact List.prefix_rfl
  | succ depth ih =>
    cases hparent : o.parentIn? sources chain with
    | none =>
      have hend : ∀ depth, lineage sources depth chain o = [o] :=
        fun _ => lineage_of_parentIn?_eq_none hparent
      exact (hend less).trans (hend (depth + 1)).symm ▸ List.prefix_rfl
    | some above =>
      rw [lineage_of_parentIn?_eq_some hparent]
      cases less with
      | zero => exact List.prefix_append [o] _
      | succ less =>
        rw [lineage_of_parentIn?_eq_some hparent, List.cons_prefix_cons]
        exact ⟨rfl, ih (Nat.le_of_succ_le_succ h)⟩

end Lineage

end SchemaLint
