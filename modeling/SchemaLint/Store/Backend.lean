/-!
# Backends

A backend keeps texts under keys. What it does may fail and may have effects, so it is given by its
three operations in a monad; whatever is built on it works for memory and for files alike.
-/

namespace SchemaLint

/-- Why a backend cannot do what it is asked. -/
inductive StoreError where
  /-- The key is not one that the backend can use. -/
  | invalidKey (key : String)
  /-- Reading or writing the text of a key fails. -/
  | io (key reason : String)
  deriving DecidableEq, Repr

/-- What is said of a backend that fails. -/
def StoreError.message : StoreError → String
  | invalidKey key => "Invalid store key '" ++ key ++ "'"
  | io key reason => "IO error for key '" ++ key ++ "': " ++ reason

/-- A place that keeps texts under keys. -/
structure Backend (m : Type → Type) where
  /-- The text of a key, if there is one. -/
  load : String → m (Except StoreError (Option String))
  /-- Puts a text under a key in place of the one there. -/
  save : String → String → m (Except StoreError Unit)
  /-- Drops the text of a key, which need not be there. -/
  remove : String → m (Except StoreError Unit)

end SchemaLint
