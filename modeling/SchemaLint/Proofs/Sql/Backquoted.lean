import SchemaLint.Proofs.Text
import SchemaLint.Proofs.Shell.Call
import SchemaLint.Proofs.Sql.Named

/-!
# Columns in backquotes

Between backquotes a name may have any characters, which hide the commas, brackets and quotes among them
(`Backquoted.balanced`, `Backquoted.hides`). But a column is called by what stands behind its last dot,
without blanks, and the quotes are taken off only afterwards (`lastSegment`). So a name without blanks and
dots is reported as it is. A name with blanks loses them, and one with dots loses all up to the last of
them and keeps the backquote at its end (`Backquoted.fieldName_append`, `Backquoted.reported_eq_iff`).
-/

namespace SchemaLint.Sql

open Form Nesting Text

/-! ## Columns -/

def inBackquotes (s : List Char) : List Char :=
  '\x60' :: (s ++ ['\x60'])

/-- A column between backquotes, with its table in backquotes in front of it or alone. -/
structure Backquoted where
  table : Option (List Char)
  name : List Char
  name_ne_nil : name ≠ []
  name_chars : ∀ c ∈ name, c ≠ '\x60' ∧ c ≠ '\\'
  table_chars : ∀ t ∈ table, ∀ c ∈ t, c ≠ '\x60' ∧ c ≠ '\\'

namespace Backquoted

variable (b : Backquoted)

def qualifier : List Char :=
  (b.table.map fun t => inBackquotes t ++ ['.']).getD []

def text : List Char :=
  b.qualifier ++ inBackquotes b.name

/-- The name that the column is reported by. -/
def reported : List Char :=
  if '.' ∈ b.name then lastSegment b.name ++ ['\x60'] else lastSegment b.name

end Backquoted

/-! ## Last segments -/

theorem lastSegment_of_not_mem {s : List Char} (h : '.' ∉ s) :
    lastSegment s = s.filter (!isBlank ·) := by
  have hdot : '.' ∉ s.filter (!isBlank ·) := fun hmem => h (List.mem_of_mem_filter hmem)
  rw [lastSegment, flatten_words, Identifier.unqualified_of_not_mem hdot]

theorem lastSegment_append_dot (x y : List Char) : lastSegment (x ++ '.' :: y) = lastSegment y := by
  rw [lastSegment, lastSegment, flatten_words, flatten_words, List.filter_append,
    List.filter_cons_of_pos (by decide), Identifier.unqualified_append_dot]

theorem exists_last_dot {s : List Char} (h : '.' ∈ s) : ∃ x y, s = x ++ '.' :: y ∧ '.' ∉ y := by
  obtain ⟨y, x, hsplit, hy⟩ := List.eq_append_cons_of_mem (List.mem_reverse.mpr h)
  refine ⟨x.reverse, y.reverse, ?_, by simpa using hy⟩
  rw [← List.reverse_reverse s, hsplit]
  simp

/-- No quotes are taken off a text in which the backquote at its end is the only one. -/
theorem unquote_append_backquote {s : List Char} (hblank : ∀ c ∈ s, isBlank c = false)
    (htick : '\x60' ∉ s) : Identifier.unquote (s ++ ['\x60']) = s ++ ['\x60'] := by
  cases s with
  | nil => rfl
  | cons c s =>
    have htrimmed : Trimmed (c :: s ++ ['\x60']) := by
      refine ⟨fun d hd => ?_, fun d hd => ?_⟩
      · obtain rfl : c = d := Option.some.inj hd
        exact hblank c List.mem_cons_self
      · rw [List.getLast?_concat] at hd
        obtain rfl := Option.some.inj hd
        decide
    refine Identifier.unquote_eq_self htrimmed ?_
    rintro d ⟨⟩ -
    rw [List.cons_append, List.tail_cons, List.getLast?_concat]
    rintro ⟨⟩
    exact htick List.mem_cons_self

namespace Backquoted

variable (b : Backquoted)

theorem lastSegment_text : lastSegment b.text = lastSegment (inBackquotes b.name) := by
  unfold text qualifier
  cases b.table with
  | none => rfl
  | some t =>
    rw [Option.map_some, Option.getD_some, List.append_assoc, List.singleton_append,
      lastSegment_append_dot]

/-- The column is called by the name that it is reported by, and blanks behind it do not count. -/
theorem fieldName_append {gap : List Char} (hgap : ∀ c ∈ gap, isBlank c = true) :
    fieldName (b.text ++ gap) = String.ofList b.reported := by
  rw [fieldName_append_blank hgap, fieldName_eq, b.lastSegment_text, reported]
  congr 1
  split
  · next hdot =>
    obtain ⟨x, y, hname, hy⟩ := exists_last_dot hdot
    have hbehind : '.' ∉ y ++ ['\x60'] := by simp [hy]
    have htick : '\x60' ∉ y.filter (!isBlank ·) := by
      intro hmem
      refine (b.name_chars '\x60' ?_).1 rfl
      rw [hname]
      exact List.mem_append_right _ (List.mem_cons_of_mem _ (List.mem_of_mem_filter hmem))
    have hquoted : inBackquotes b.name = ('\x60' :: x) ++ '.' :: (y ++ ['\x60']) := by
      simp [inBackquotes, hname]
    rw [hquoted, hname, lastSegment_append_dot, lastSegment_append_dot, lastSegment_of_not_mem hbehind,
      lastSegment_of_not_mem hy, List.filter_append, List.filter_singleton]
    exact unquote_append_backquote (by simp) htick
  · next hdot =>
    have hquoted : '.' ∉ inBackquotes b.name := by simp [inBackquotes, hdot]
    rw [lastSegment_of_not_mem hquoted, lastSegment_of_not_mem hdot, inBackquotes,
      List.filter_cons_of_pos (by decide), List.filter_append, List.filter_singleton]
    exact Shell.unquote_quoted rfl _

/-- A name without blanks and dots. -/
def IsPlain : Prop :=
  ∀ c ∈ b.name, isBlank c = false ∧ c ≠ '.'

theorem reported_eq_iff : b.reported = b.name ↔ b.IsPlain := by
  unfold reported IsPlain
  split
  · next hdot =>
    refine iff_of_false (fun h => ?_) fun h => (h '.' hdot).2 rfl
    refine (b.name_chars '\x60' ?_).1 rfl
    rw [← h]
    simp
  · next hdot =>
    rw [lastSegment_of_not_mem hdot, List.filter_eq_self]
    refine forall₂_congr fun c hc => ?_
    have hne : c ≠ '.' := by
      rintro rfl
      exact hdot hc
    simp [hne]

theorem exists_cons : ∃ s, b.text = '\x60' :: s := by
  unfold text qualifier
  cases b.table with
  | none => exact ⟨_, rfl⟩
  | some t => exact ⟨_, rfl⟩

theorem trimmed : Trimmed b.text := by
  have hlast : b.text.getLast? = some '\x60' := by
    rw [text, inBackquotes, List.getLast?_append_of_ne_nil _ (List.cons_ne_nil _ _),
      ← List.cons_append, List.getLast?_concat]
  obtain ⟨s, hs⟩ := b.exists_cons
  refine ⟨?_, ?_⟩
  · rw [hs]
    rintro c ⟨⟩
    decide
  · rw [hlast]
    rintro c ⟨⟩
    decide

theorem escaped_chars {s : List Char} (h : ∀ c ∈ s, c ≠ '\x60' ∧ c ≠ '\\') :
    StaysQuoted '\x60' s :=
  (Shell.escaped_of_plain h).staysQuoted

theorem balanced : Balanced b.text := by
  have hname := Balanced.of_staysQuoted rfl (escaped_chars b.name_chars)
  unfold text qualifier
  cases htable : b.table with
  | none => exact hname
  | some t =>
    have ht := Balanced.of_staysQuoted rfl (escaped_chars (b.table_chars t htable))
    exact (ht.append (.of_plain (List.all_eq_true.mp (by decide)))).append hname

/-- Only the dot behind the table stands outside the backquotes. -/
theorem hides {p : Char → Bool} (hp : p '.' = false) : Hides p b.text := by
  have hname : Hides p (inBackquotes b.name) := .of_staysQuoted rfl (escaped_chars b.name_chars)
  unfold text qualifier
  cases htable : b.table with
  | none => exact hname
  | some t =>
    have hchars := escaped_chars (b.table_chars t htable)
    have ht : Balanced (inBackquotes t) := .of_staysQuoted rfl hchars
    have hdot : Hides p ['.'] := .of_forall (by simpa using hp)
    exact ((Hides.of_staysQuoted rfl hchars).append ht hdot).append
      (ht.append (.of_plain (List.all_eq_true.mp (by decide)))) hname

end Backquoted

end SchemaLint.Sql
