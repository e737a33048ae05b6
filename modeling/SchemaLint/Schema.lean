import SchemaLint.Identifier
import SchemaLint.Schema.Table

/-!
# Schemas

A schema is a set of tables by name, in the ascending order of the names. What a statement names is
looked up as it is written and then by its last segment, so that the name of a database in front of
a table does not count.
-/

namespace SchemaLint

/-- A table with its name. -/
abbrev NamedTable := String × Table

namespace NamedTable

/-- Puts a table among tables in the order of their names, in place of the one of its name. -/
def insert (name : String) (t : Table) : List NamedTable → List NamedTable
  | [] => [(name, t)]
  | (other, u) :: rest =>
    if name = other then (name, t) :: rest
    else if name < other then (name, t) :: (other, u) :: rest
    else (other, u) :: insert name t rest

/-- Tells whether tables are in the strictly ascending order of their names. -/
def Ascending (tables : List NamedTable) : Prop :=
  tables.Pairwise fun a b => a.1 < b.1

/-- What holds of all tables and of the new one holds of all tables with the new one put among
them. -/
theorem forall_mem_insert {P : NamedTable → Prop} {name : String} {t : Table}
    {tables : List NamedTable} (h : ∀ x ∈ tables, P x) (ht : P (name, t)) :
    ∀ x ∈ insert name t tables, P x := by
  induction tables with
  | nil => simpa [insert] using ht
  | cons head rest ih =>
    obtain ⟨other, u⟩ := head
    have hrest : ∀ x ∈ rest, P x := fun x hx => h x (List.mem_cons_of_mem _ hx)
    intro x hx
    unfold insert at hx
    split at hx
    · rcases List.mem_cons.mp hx with rfl | hx
      · exact ht
      · exact hrest x hx
    · split at hx
      · rcases List.mem_cons.mp hx with rfl | hx
        · exact ht
        · exact h x hx
      · rcases List.mem_cons.mp hx with rfl | hx
        · exact h _ List.mem_cons_self
        · exact ih hrest x hx

/-- Putting a table among ascending ones keeps them ascending. -/
theorem Ascending.insert {tables : List NamedTable} (h : Ascending tables) (name : String)
    (t : Table) : Ascending (NamedTable.insert name t tables) := by
  induction tables with
  | nil => simp [Ascending, NamedTable.insert]
  | cons head rest ih =>
    obtain ⟨other, u⟩ := head
    obtain ⟨hhead, hrest⟩ := List.pairwise_cons.mp h
    unfold NamedTable.insert
    split
    · next heq =>
      subst heq
      exact List.pairwise_cons.mpr ⟨hhead, hrest⟩
    · next hne =>
      split
      · next hlt =>
        refine List.pairwise_cons.mpr ⟨fun x hx => ?_, h⟩
        rcases List.mem_cons.mp hx with rfl | hx
        · exact hlt
        · exact String.lt_trans hlt (hhead x hx)
      · next hnlt =>
        have hgt : other < name := Decidable.byContradiction fun hngt =>
          hne (String.le_antisymm (String.not_lt.mp hngt) (String.not_lt.mp hnlt))
        exact List.pairwise_cons.mpr ⟨forall_mem_insert hhead hgt, ih hrest⟩

/-- Leaving tables out keeps the others ascending. -/
theorem Ascending.filter {tables : List NamedTable} (h : Ascending tables)
    (p : NamedTable → Bool) : Ascending (tables.filter p) :=
  List.Pairwise.filter p h

end NamedTable

/-- A set of tables by name. -/
structure Schema where
  tables : List NamedTable
  ascending : NamedTable.Ascending tables

namespace Schema

/-- The schema without tables. -/
def empty : Schema :=
  { tables := [], ascending := List.Pairwise.nil }

/-- The names of the tables. -/
def names (s : Schema) : List String :=
  s.tables.map (·.1)

/-- The number of tables. -/
def size (s : Schema) : Nat :=
  s.tables.length

/-- The table of a name. -/
def get? (s : Schema) (name : String) : Option Table :=
  (s.tables.find? (·.1 == name)).map (·.2)

/-- Puts a table under a name, in place of the one there. -/
def insert (s : Schema) (name : String) (t : Table) : Schema :=
  { tables := NamedTable.insert name t s.tables, ascending := s.ascending.insert name t }

/-- Removes the table of a name. -/
def erase (s : Schema) (name : String) : Schema :=
  { tables := s.tables.filter (·.1 != name), ascending := s.ascending.filter _ }

/-- A name without the backquotes at its ends. -/
def withoutBackquotes (name : List Char) : List Char :=
  ((name.dropWhile (· == '\x60')).reverse.dropWhile (· == '\x60')).reverse

/-- The table that a statement names. -/
def target? (s : Schema) (name : String) : Option Table :=
  let name := withoutBackquotes name.toList
  (s.get? (String.ofList name)).or (s.get? (String.ofList (Identifier.unqualified name)))

end Schema

end SchemaLint
