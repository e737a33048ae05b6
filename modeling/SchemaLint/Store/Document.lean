import SchemaLint.Store.Backend

/-!
# Values kept as documents

A value lives in memory and is kept as one document under one key. A step on it runs with the value in
memory as its state, and every change is written before it takes effect: the value in memory is
replaced once the document of the new one is saved.
-/

namespace SchemaLint

/-- How values of a type are kept as documents. -/
structure DocumentFormat (α ε : Type) where
  /-- The key of the document. -/
  key : String
  /-- The value while there is no document. -/
  initial : α
  /-- The document of a value. -/
  write : α → String
  /-- The value of a document. -/
  read : String → Except ε α

/-- Why a step on a kept value fails. -/
inductive StoreFault (ε κ : Type) where
  /-- The document cannot be read. -/
  | document (e : ε)
  /-- The value cannot be edited in this way. -/
  | edit (e : κ)
  /-- The backend fails. -/
  | backend (e : StoreError)
  deriving DecidableEq, Repr

/-- What is said of a step that fails. -/
def StoreFault.message {ε κ : Type} (ofDocument : ε → String) (ofEdit : κ → String) :
    StoreFault ε κ → String
  | document e => ofDocument e
  | edit e => ofEdit e
  | backend e => e.message

/-- The value to which a step leads from another one, unless the step fails. -/
def valueAfter {m : Type → Type} [Monad m] {α ε : Type} (step : StateT α m (Except ε Unit)) (value : α) :
    m (Except ε α) := do
  let (outcome, next) ← step.run value
  return outcome.map fun () => next

namespace DocumentFormat

variable {m : Type → Type} [Monad m] {α ε κ : Type}

/-- The value that a document stands for, which may be absent. -/
def decode (f : DocumentFormat α ε) : Option String → Except ε α
  | none => .ok f.initial
  | some document => f.read document

/-- The value that a backend holds. -/
def load (f : DocumentFormat α ε) (b : Backend m) : m (Except (StoreFault ε κ) α) := do
  match ← b.load f.key with
  | .error e => return .error (.backend e)
  | .ok document => return (f.decode document).mapError .document

/-! Steps on the value in memory -/

/-- Takes over the value that the backend holds. -/
def reload (f : DocumentFormat α ε) (b : Backend m) : StateT α m (Except (StoreFault ε κ) Unit) := do
  match ← (f.load b : m _) with
  | .error e => return .error e
  | .ok value =>
    set value
    return .ok ()

/-- Saves the document of a value, which only then becomes the value in memory. -/
def commit (f : DocumentFormat α ε) (b : Backend m) (next : α) :
    StateT α m (Except (StoreFault ε κ) Unit) := do
  match ← b.save f.key (f.write next) with
  | .error e => return .error (.backend e)
  | .ok () =>
    set next
    return .ok ()

/-- Takes over the value of a document. -/
def takeOver (f : DocumentFormat α ε) (b : Backend m) (document : String) :
    StateT α m (Except (StoreFault ε κ) Unit) :=
  match f.read document with
  | .error e => return .error (.document e)
  | .ok next => f.commit b next

/-- Edits the value in memory. -/
def change (f : DocumentFormat α ε) (b : Backend m) (edit : α → Except κ α) :
    StateT α m (Except (StoreFault ε κ) Unit) := do
  match edit (← get) with
  | .error e => return .error (.edit e)
  | .ok next => f.commit b next

/-! Values that steps lead to -/

/-- The value that is in memory when that of a document is taken over. -/
def replace (f : DocumentFormat α ε) (b : Backend m) (document : String) :
    m (Except (StoreFault ε κ) α) :=
  valueAfter (f.takeOver b document) f.initial

/-- The value that is in memory when an edit with this outcome is made. -/
def edit (f : DocumentFormat α ε) (b : Backend m) (outcome : Except κ α) :
    m (Except (StoreFault ε κ) α) :=
  valueAfter (f.change b fun _ => outcome) f.initial

end DocumentFormat

end SchemaLint
