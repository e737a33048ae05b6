import Mathlib.Data.List.Basic
import SchemaLint.Store.Document
import SchemaLint.Store.Memory

/-!
# Sessions on a store

A session keeps a value in memory and its document in a store, and is asked to load the value again,
to take over a document, or to edit the value; each time the store may refuse to save
(`Session.step`). A request has one of three outcomes (`outcome_step`). When documents are read back
as what was written (`Faithful`), each of them keeps the document and the value in step
(`InStep.of_outcome`), so they are in step after any requests (`InStep.run`), and what is promised of
a request holds of every request (`afterRequest_run`).
-/

namespace SchemaLint

/-- What a session is asked to do. -/
inductive Request (ι : Type) where
  /-- To load the value from the store. -/
  | reload
  /-- To take over the value of a document. -/
  | replace (document : String)
  /-- To edit the value. -/
  | edit (e : ι)
  deriving DecidableEq

/-- A value in memory and the store that keeps its document. -/
structure Session (α : Type) where
  value : α
  store : Memory

namespace Session

variable {α ε ι κ : Type} (f : DocumentFormat α ε) (edit : α → ι → Except κ α)

/-- What is done with the value in memory when a request is made. -/
def perform : Request ι → StateT α (StateM Memory) (Except (StoreFault ε κ) Unit)
  | .reload => f.reload Memory.backend
  | .replace document => f.takeOver Memory.backend document
  | .edit e => f.change Memory.backend fun value => edit value e

/-- One request, during which the store saves or refuses to. -/
def step (s : Session α) (saves : Bool) (r : Request ι) :
    Except (StoreFault ε κ) Unit × Session α :=
  let ((outcome, value), store) :=
    ((perform f edit r).run s.value).run { s.store with isReadOnly := !saves }
  (outcome, { value, store })

/-- Several requests one after the other. -/
def run (s : Session α) (requests : List (Bool × Request ι)) : Session α :=
  requests.foldl (fun s (saves, r) => (step f edit s saves r).2) s

/-- The session begins with what its store holds. -/
def Opens (κ : Type) (s : Session α) : Prop :=
  (f.load (κ := κ) Memory.backend).run s.store = (.ok s.value, s.store)

/-! ## What a request does -/

/-- The document in a session. -/
def document (s : Session α) : Option String :=
  s.store.text? f.key

/-- The value that a request other than a reload makes of the one in memory. -/
def Yields (value : α) (next : α) : Request ι → Prop
  | .reload => False
  | .replace document => f.read document = .ok next
  | .edit e => edit value e = .ok next

variable {f edit}

/-- Committing a value puts its document into the store and the value into memory. When the store refuses,
neither is changed. -/
theorem run_commit (value : α) (store : Memory) (saves : Bool) (next : α) :
    ((f.commit (κ := κ) Memory.backend next).run value).run { store with isReadOnly := !saves } =
      if saves then
        ((.ok (), next), { store with isReadOnly := false }.put f.key (f.write next))
      else
        ((.error (.backend (.io f.key "read-only")), value), { store with isReadOnly := true }) := by
  cases saves <;> rfl

theorem run_load (store : Memory) :
    (f.load (κ := κ) Memory.backend).run store =
      ((f.decode (store.text? f.key)).mapError .document, store) :=
  rfl

/-- Reloading takes over the value of the document, and changes nothing when the document is none. -/
theorem run_reload (value : α) (store : Memory) :
    ((f.reload (κ := κ) Memory.backend).run value).run store =
      match f.decode (store.text? f.key) with
      | .error e => ((.error (.document e), value), store)
      | .ok next => ((.ok (), next), store) := by
  have hload : ((monadLift (f.load (κ := κ) Memory.backend) :
      StateT α (StateM Memory) (Except (StoreFault ε κ) α)).run value).run store =
        (((f.decode (store.text? f.key)).mapError .document, value), store) := rfl
  rw [DocumentFormat.reload, StateT.run_bind, StateT.run_bind, hload]
  cases f.decode (store.text? f.key) <;> rfl

theorem run_change (b : Backend (StateM Memory)) (change : α → Except κ α) (value : α) :
    (f.change b change).run value =
      match change value with
      | .error e => pure (.error (.edit e), value)
      | .ok next => (f.commit b next).run value := by
  have hrun : (f.change b change).run value =
      (match change value with
        | .error e => return .error (.edit e)
        | .ok next => f.commit b next : StateT α (StateM Memory) _).run value :=
    rfl
  rw [hrun]
  cases change value <;> rfl

variable (f edit) in
/-- What a request can do to a session. -/
inductive Outcome (s s' : Session α) (r : Request ι) : Except (StoreFault ε κ) Unit → Prop
  /-- It fails, and nothing changes. -/
  | failed (e : StoreFault ε κ) (hvalue : s'.value = s.value)
      (htexts : s'.store.text? = s.store.text?) : Outcome s s' r (.error e)
  /-- It loads the value that the document stands for. -/
  | loaded (hr : r = .reload) (hdecode : f.decode (s.document f) = .ok s'.value)
      (htexts : s'.store.text? = s.store.text?) : Outcome s s' r (.ok ())
  /-- It yields a value whose document it saves. -/
  | saved (hr : Yields f edit s.value s'.value r)
      (htexts : s'.store.text? = (s.store.put f.key (f.write s'.value)).text?) :
      Outcome s s' r (.ok ())

theorem outcome_commit (s : Session α) (saves : Bool) {r : Request ι} {next : α}
    (hperform : (perform f edit r).run s.value = (f.commit Memory.backend next).run s.value)
    (hr : Yields f edit s.value next r) :
    Outcome f edit s (step f edit s saves r).2 r (step f edit s saves r).1 := by
  unfold step
  rw [hperform, run_commit]
  cases saves with
  | false => exact .failed _ rfl rfl
  | true => exact .saved hr rfl

theorem outcome_refuse (s : Session α) (saves : Bool) {r : Request ι} {e : StoreFault ε κ}
    (hperform : (perform f edit r).run s.value = pure (.error e, s.value)) :
    Outcome f edit s (step f edit s saves r).2 r (step f edit s saves r).1 := by
  unfold step
  rw [hperform]
  exact .failed e rfl rfl

/-- Every request has one of the outcomes. -/
theorem outcome_step (s : Session α) (saves : Bool) (r : Request ι) :
    Outcome f edit s (step f edit s saves r).2 r (step f edit s saves r).1 := by
  cases r with
  | reload =>
    unfold step perform
    rw [run_reload]
    cases hdecode : f.decode (s.store.text? f.key) with
    | error e => exact .failed _ rfl rfl
    | ok value => exact .loaded rfl hdecode rfl
  | replace document =>
    cases hread : f.read document with
    | error e =>
      refine outcome_refuse s saves (e := .document e) ?_
      rw [perform, DocumentFormat.takeOver, hread]
      rfl
    | ok next =>
      refine outcome_commit s saves ?_ hread
      rw [perform, DocumentFormat.takeOver, hread]
  | edit e =>
    cases hedit : edit s.value e with
    | error e' =>
      refine outcome_refuse s saves (e := .edit e') ?_
      rw [perform, run_change, hedit]
    | ok next =>
      refine outcome_commit s saves ?_ hedit
      rw [perform, run_change, hedit]

/-! ## Values and documents in step -/

variable (f edit)

/-- Some values, among them all that documents and edits give, are read back from what is written
for them. -/
structure Faithful (Good : α → Prop) : Prop where
  initial : Good f.initial
  read : ∀ {document value}, f.read document = .ok value → Good value
  edit : ∀ {value value' : α} {e : ι}, Good value → edit value e = .ok value' → Good value'
  read_write : ∀ {value}, Good value → f.read (f.write value) = .ok value

/-- The document stands for the value, which is one of the good ones. -/
structure InStep (Good : α → Prop) (s : Session α) : Prop where
  decode_eq : f.decode (s.document f) = .ok s.value
  good : Good s.value

variable {f edit} {Good : α → Prop} (hf : Faithful f edit Good) {s s' : Session α}

include hf in
theorem Faithful.good_of_decode {document : Option String} {value : α}
    (h : f.decode document = .ok value) : Good value := by
  cases document with
  | none =>
    cases h
    exact hf.initial
  | some document => exact hf.read h

include hf in
theorem Faithful.good_of_yields {value next : α} {r : Request ι} (hgood : Good value)
    (h : Yields f edit value next r) : Good next := by
  cases r with
  | reload => exact h.elim
  | replace document => exact hf.read h
  | edit e => exact hf.edit hgood h

theorem document_of_saved (htexts : s'.store.text? = (s.store.put f.key (f.write s'.value)).text?) :
    s'.document f = some (f.write s'.value) := by
  rw [document, htexts, Memory.text?_put, if_pos rfl]

include hf in
/-- Whatever the outcome of a request, the document and the value stay in step. -/
theorem InStep.of_outcome {r : Request ι} {outcome : Except (StoreFault ε κ) Unit}
    (h : InStep f Good s) (ho : Outcome f edit s s' r outcome) :
    InStep f Good s' := by
  cases ho with
  | failed e hvalue htexts =>
    have hdocument : s'.document f = s.document f := by
      rw [document, htexts, ← document]
    exact ⟨by rw [hdocument, hvalue, h.decode_eq], by rw [hvalue]; exact h.good⟩
  | loaded hr hdecode htexts =>
    have hdocument : s'.document f = s.document f := by
      rw [document, htexts, ← document]
    exact ⟨by rw [hdocument, hdecode], hf.good_of_decode hdecode⟩
  | saved hr htexts =>
    have hgood := hf.good_of_yields h.good hr
    refine ⟨?_, hgood⟩
    rw [document_of_saved htexts, DocumentFormat.decode]
    exact hf.read_write hgood

include hf in
/-- The document and the value stay in step over any requests. -/
theorem InStep.run (h : InStep f Good s) (requests : List (Bool × Request ι)) :
    InStep f Good (run f edit s requests) := by
  induction requests generalizing s with
  | nil => exact h
  | cons request requests ih =>
    obtain ⟨saves, r⟩ := request
    exact ih (h.of_outcome hf (outcome_step s saves r))

include hf in
/-- A session is in step when it begins with what its store holds. -/
theorem InStep.of_opens (h : Opens f κ s) : InStep f Good s := by
  have hload := h
  rw [Opens, run_load, Prod.mk.injEq] at hload
  have hdecode : f.decode (s.store.text? f.key) = .ok s.value := by
    cases hd : f.decode (s.store.text? f.key) with
    | error e =>
      rw [hd] at hload
      cases hload.1
    | ok value =>
      rw [hd] at hload
      cases hload.1
      rfl
  exact ⟨hdecode, hf.good_of_decode hdecode⟩

variable (f) in
/-- What is promised of a request that leads from one session to another. -/
structure AfterRequest (Good : α → Prop) (s s' : Session α) (r : Request ι)
    (outcome : Except (StoreFault ε κ) Unit) : Prop where
  /-- The document is read as the value in memory. -/
  decode_eq : f.decode (s'.document f) = .ok s'.value
  /-- A request that fails changes neither the value nor any text of the store. -/
  unchanged : ∀ e, outcome = .error e → s'.value = s.value ∧ s'.store.text? = s.store.text?
  /-- The document of a value that was changed is exactly what the value is written as. -/
  saved : outcome = .ok () → r ≠ .reload → s'.document f = some (f.write s'.value)
  good : Good s'.value

include hf in
theorem AfterRequest.of_outcome {r : Request ι} {outcome : Except (StoreFault ε κ) Unit}
    (h : InStep f Good s) (ho : Outcome f edit s s' r outcome) :
    AfterRequest f Good s s' r outcome := by
  have hstep := h.of_outcome hf ho
  refine ⟨hstep.decode_eq, fun e he => ?_, fun hok hr => ?_, hstep.good⟩
  · cases ho with
    | failed _ hvalue htexts => exact ⟨hvalue, htexts⟩
    | loaded => cases he
    | saved => cases he
  · cases ho with
    | failed => cases hok
    | loaded heq => exact absurd heq hr
    | saved _ htexts => exact document_of_saved htexts

include hf in
/-- What is promised of a request holds of every request after any others. -/
theorem afterRequest_run (h : Opens f κ s) (requests : List (Bool × Request ι)) (saves : Bool)
    (r : Request ι) :
    AfterRequest f Good (s.run f edit requests) ((s.run f edit requests).step f edit saves r).2 r
      ((s.run f edit requests).step f edit saves r).1 :=
  .of_outcome hf ((InStep.of_opens hf h).run hf requests) (outcome_step _ saves r)

end Session

end SchemaLint
