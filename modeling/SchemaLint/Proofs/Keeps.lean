import Mathlib.Order.Defs.Unbundled

/-!
# What programs keep

A program keeps a relation between states when it leaves a state related to the one that it began in.
For a reflexive and transitive relation a program keeps what its parts keep. A program that may fail
can also keep a relation only when it fails: its last part alone may break the relation, as long as
nothing fails after it (`KeepsOnError.run_bind`, `KeepsOnError.run_bind_succeeds`).
-/

namespace SchemaLint

variable {σ α β ε ε' : Type} (R : σ → σ → Prop)

/-- However a program ends, it leaves a state related to the one it began in. -/
def Keeps (x : StateM σ α) : Prop :=
  ∀ s, R s (x.run s).2

/-- A program that fails leaves a state related to the one it began in. -/
def KeepsOnError (x : StateM σ (Except ε α)) : Prop :=
  ∀ s e, (x.run s).1 = .error e → R s (x.run s).2

/-- A program that does not end in a certain way leaves a state related to the one it began in. -/
def KeepsUnless (a : α) (x : StateM σ α) : Prop :=
  ∀ s, (x.run s).1 ≠ a → R s (x.run s).2

/-- A program that may fail does not. -/
def Succeeds (x : StateM σ (Except ε α)) : Prop :=
  ∀ s, ∃ a, (x.run s).1 = .ok a

variable {R}

theorem Keeps.mono {R' : σ → σ → Prop} {x : StateM σ α} (hx : Keeps R x)
    (h : ∀ s s', R s s' → R' s s') : Keeps R' x :=
  fun s => h _ _ (hx s)

theorem KeepsOnError.mono {R' : σ → σ → Prop} {x : StateM σ (Except ε α)} (hx : KeepsOnError R x)
    (h : ∀ s s', R s s' → R' s s') : KeepsOnError R' x :=
  fun s e he => h _ _ (hx s e he)

theorem Keeps.ite {p : Prop} [Decidable p] {x y : StateM σ α} (hx : Keeps R x) (hy : Keeps R y) :
    Keeps R (if p then x else y) := by
  split
  · exact hx
  · exact hy

theorem Keeps.onError {x : StateM σ (Except ε α)} (hx : Keeps R x) : KeepsOnError R x :=
  fun s _ _ => hx s

theorem run_mapError (x : StateM σ (Except ε α)) (why : ε → ε') (s : σ) :
    StateT.run (do return (← x).mapError why) s = ((x.run s).1.mapError why, (x.run s).2) :=
  rfl

theorem Keeps.unless {x : StateM σ α} (hx : Keeps R x) (a : α) : KeepsUnless R a x :=
  fun s _ => hx s

/-- Giving another reason for a failure changes nothing else. -/
theorem KeepsOnError.mapError {x : StateM σ (Except ε α)} (hx : KeepsOnError R x) (why : ε → ε') :
    KeepsOnError R (do return (← x).mapError why) := by
  intro s e he
  rw [run_mapError] at he ⊢
  cases houtcome : (x.run s).1 with
  | error e' => exact hx s e' houtcome
  | ok a =>
    rw [houtcome] at he
    cases he

section Preorder

variable [IsPreorder σ R]

theorem Keeps.pure (a : α) : Keeps R (Pure.pure a : StateM σ α) :=
  fun s => refl_of R s

theorem Keeps.bind {x : StateM σ α} {f : α → StateM σ β} (hx : Keeps R x)
    (hf : ∀ a, Keeps R (f a)) : Keeps R (x >>= f) :=
  fun s => trans_of R (hx s) (hf (x.run s).1 (x.run s).2)

theorem KeepsOnError.bind {x : StateM σ α} {f : α → StateM σ (Except ε β)} (hx : Keeps R x)
    (hf : ∀ a, KeepsOnError R (f a)) : KeepsOnError R (x >>= f) :=
  fun s e he => trans_of R (hx s) (hf (x.run s).1 (x.run s).2 e he)

end Preorder

theorem run_bind_of_eq {x : StateM σ α} {s : σ} {a : α} (h : (x.run s).1 = a)
    (f : α → StateM σ β) : (x >>= f).run s = (f a).run (x.run s).2 := by
  rw [← h]
  rfl

theorem Succeeds.pure (a : α) : Succeeds (Pure.pure (.ok a) : StateM σ (Except ε α)) :=
  fun _ => ⟨a, rfl⟩

/-- After what does not fail it does not matter what would be done if it did. -/
theorem Succeeds.bind {x : StateM σ (Except ε α)} {f : Except ε α → StateM σ (Except ε' β)}
    (hx : Succeeds x) (hf : ∀ a, Succeeds (f (.ok a))) : Succeeds (x >>= f) := by
  intro s
  obtain ⟨a, ha⟩ := hx s
  rw [run_bind_of_eq ha]
  exact hf a _

/-! ## Programs that end where they fail -/

section Failing

theorem Keeps.run_lift {x : StateM σ α} (hx : Keeps R x) :
    Keeps R (liftM x : ExceptT ε (StateM σ) α).run :=
  hx

theorem Succeeds.run_lift (x : StateM σ α) : Succeeds (liftM x : ExceptT ε (StateM σ) α).run :=
  fun s => ⟨(x.run s).1, rfl⟩

theorem Succeeds.run_pure (a : α) : Succeeds (Pure.pure a : ExceptT ε (StateM σ) α).run :=
  .pure a

variable {x : ExceptT ε (StateM σ) α} {f : α → ExceptT ε (StateM σ) β}

/-- Nothing fails in what comes second, so what fails has failed in what comes first. -/
theorem KeepsOnError.run_bind_succeeds (hx : KeepsOnError R x.run) (hf : ∀ a, Succeeds (f a).run) :
    KeepsOnError R (x >>= f).run := by
  intro s e he
  rw [ExceptT.run_bind] at he ⊢
  cases houtcome : (x.run.run s).1 with
  | error e' =>
    rw [run_bind_of_eq houtcome]
    exact hx s e' houtcome
  | ok a =>
    obtain ⟨b, hb⟩ := hf a (x.run.run s).2
    rw [run_bind_of_eq houtcome] at he
    cases hb.symm.trans he

/-- What ends in one way unless it fails ends in another way only if it fails. -/
theorem KeepsOnError.run_return (hx : KeepsOnError R x.run) (b : β) :
    KeepsUnless R (.ok b) (do let _ ← x; return b : ExceptT ε (StateM σ) β).run := by
  intro s hne
  rw [ExceptT.run_bind] at hne ⊢
  cases houtcome : (x.run.run s).1 with
  | error e =>
    rw [run_bind_of_eq houtcome]
    exact hx s e houtcome
  | ok a =>
    rw [run_bind_of_eq houtcome] at hne
    exact absurd rfl hne

variable [IsPreorder σ R]

theorem Keeps.run_throw (e : ε) : Keeps R (throw e : ExceptT ε (StateM σ) α).run :=
  .pure _

/-- What would come after a failure is not run. -/
theorem Keeps.run_throw_bind (e : ε) (f : α → ExceptT ε (StateM σ) β) :
    Keeps R (throw e >>= f : ExceptT ε (StateM σ) β).run :=
  .pure _

theorem Keeps.run_bind (hx : Keeps R x.run) (hf : ∀ a, Keeps R (f a).run) :
    Keeps R (x >>= f).run := by
  rw [ExceptT.run_bind]
  refine hx.bind fun outcome => ?_
  cases outcome with
  | ok a => exact hf a
  | error e => exact .pure _

/-- A step may be left out. -/
theorem Keeps.run_optional {p : Prop} [Decidable p] {rest : ExceptT ε (StateM σ) β}
    (hx : Keeps R x.run) (hrest : Keeps R rest.run) :
    Keeps R (if p then x >>= fun _ => rest else rest).run := by
  split
  · exact hx.run_bind fun _ => hrest
  · exact hrest

theorem Keeps.run_forIn (as : List α) (init : β) {f : α → β → ExceptT ε (StateM σ) (ForInStep β)}
    (hf : ∀ a b, Keeps R (f a b).run) : Keeps R (forIn as init f).run := by
  induction as generalizing init with
  | nil => exact .pure _
  | cons a as ih =>
    rw [List.forIn_cons]
    refine (hf a init).run_bind fun step => ?_
    cases step with
    | done b => exact .pure _
    | yield b => exact ih b

theorem KeepsOnError.run_bind (hx : Keeps R x.run) (hf : ∀ a, KeepsOnError R (f a).run) :
    KeepsOnError R (x >>= f).run := by
  rw [ExceptT.run_bind]
  refine .bind hx fun outcome => ?_
  cases outcome with
  | ok a => exact hf a
  | error e => exact (Keeps.pure _).onError

theorem KeepsUnless.run_bind {b : β} (hx : Keeps R x.run) (hf : ∀ a, KeepsUnless R (.ok b) (f a).run) :
    KeepsUnless R (.ok b) (x >>= f).run := by
  intro s hne
  rw [ExceptT.run_bind] at hne ⊢
  cases houtcome : (x.run.run s).1 with
  | error e =>
    rw [run_bind_of_eq houtcome]
    exact hx s
  | ok a =>
    rw [run_bind_of_eq houtcome] at hne ⊢
    exact trans_of R (hx s) (hf a _ hne)

end Failing

end SchemaLint
