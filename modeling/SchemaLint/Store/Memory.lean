import SchemaLint.Store.Backend

/-!
# Memory backends

A memory maps keys to texts. While it is read-only it refuses to save, and a save that is refused
changes nothing.
-/

namespace SchemaLint

/-- Texts by key. -/
structure Memory where
  text? : String → Option String
  isReadOnly : Bool

namespace Memory

/-- The memory that holds nothing. -/
def empty : Memory :=
  { text? := fun _ => none, isReadOnly := false }

/-- Puts a text under a key. -/
def put (m : Memory) (key text : String) : Memory :=
  { m with text? := fun k => if k = key then some text else m.text? k }

/-- Drops the text of a key. -/
def drop (m : Memory) (key : String) : Memory :=
  { m with text? := fun k => if k = key then none else m.text? k }

@[simp] theorem text?_put (m : Memory) (key text k : String) :
    (m.put key text).text? k = if k = key then some text else m.text? k :=
  rfl

@[simp] theorem text?_drop (m : Memory) (key k : String) :
    (m.drop key).text? k = if k = key then none else m.text? k :=
  rfl

/-- The memory as a backend. -/
def backend : Backend (StateM Memory) where
  load key := do return .ok ((← get).text? key)
  save key text := do
    if (← get).isReadOnly then return .error (.io key "read-only")
    modify (·.put key text)
    return .ok ()
  remove key := do
    modify (·.drop key)
    return .ok ()

end Memory

end SchemaLint
