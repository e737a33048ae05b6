import Mathlib.Data.List.Forall2
import SchemaLint.Proofs.Shell.Values
import SchemaLint.Proofs.Sql.Values
import SchemaLint.Proofs.Statement
import SchemaLint.Script

/-!
# Where the values of a line stand

Texts that are scattered in a line have ranges there, counted in bytes, one behind the other
(`Scattered.exists_ranges`). The values found on a line are scattered in it, whatever the line is, so
each of them is a part of the line as it stands there, and no part of the line is found twice
(`values_stand_apart`).
-/

namespace SchemaLint

open Text

/-- A range of bytes. -/
structure ByteRange where
  start : Nat
  /-- The first byte behind the range. -/
  stop : Nat
  deriving DecidableEq, Repr

/-- Tells that the range of a line has a text. -/
def ByteRange.Holds (line : List Char) (r : ByteRange) (text : List Char) : Prop :=
  ∃ before behind, line = before ++ (text ++ behind) ∧
    utf8Length before = r.start ∧ r.start + utf8Length text = r.stop

/-- Texts that are scattered behind a part of a line have ranges behind that part. -/
theorem Scattered.exists_ranges {vs : List (List Char)} {s : List Char} (h : Scattered vs s)
    (before : List Char) : ∃ ranges : List ByteRange,
      List.Forall₂ (ByteRange.Holds (before ++ s)) ranges vs ∧
      ranges.Pairwise (fun r r' => r.stop < r'.start) ∧
      ∀ r ∈ ranges, utf8Length before ≤ r.start := by
  induction h generalizing before with
  | none s => exact ⟨[], .nil, .nil, by simp⟩
  | last a v b =>
    refine ⟨[⟨utf8Length (before ++ a), utf8Length (before ++ a) + utf8Length v⟩], ?_, by simp, ?_⟩
    · exact .cons ⟨before ++ a, b, by simp, rfl, rfl⟩ .nil
    · simp [utf8Length_append]
  | @more a v g vs s rest ih =>
    obtain ⟨ranges, hholds, hapart, hbehind⟩ := ih (before ++ a ++ v ++ [g])
    have hline : before ++ a ++ v ++ [g] ++ s = before ++ (a ++ (v ++ g :: s)) := by simp
    have hgap : utf8Length (before ++ a ++ v ++ [g]) =
        utf8Length (before ++ a) + utf8Length v + g.utf8Size := by
      rw [utf8Length_append, utf8Length_append]
      rfl
    rw [hline] at hholds
    rw [hgap] at hbehind
    have hg := g.utf8Size_pos
    refine ⟨⟨utf8Length (before ++ a), utf8Length (before ++ a) + utf8Length v⟩ :: ranges,
      .cons ⟨before ++ a, g :: s, by simp, rfl, rfl⟩ hholds, ?_, ?_⟩
    · refine hapart.cons fun r hr => ?_
      have hr := hbehind r hr
      dsimp only
      omega
    · intro r hr
      have hpart : utf8Length before ≤ utf8Length (before ++ a) := by
        rw [utf8Length_append]
        exact Nat.le_add_right _ _
      rcases List.mem_cons.mp hr with rfl | hr
      · exact hpart
      · have hr := hbehind r hr
        omega

theorem isInfix_statementOf (line : List Char) : statementOf line <:+: line := by
  obtain ⟨more, hmore⟩ := exists_append_statementOf line
  exact (List.IsPrefix.isInfix ⟨more, hmore.symm⟩).trans (trim_isInfix line)

/-- The values found on a line are scattered in it. -/
theorem scattered_footprint (d : Dialect) (line : List Char) :
    Scattered (footprint d line).writtenValues line := by
  refine Scattered.mono ?_ (isInfix_statementOf line)
  cases d with
  | mysql =>
    change Scattered (Sql.footprint line).writtenValues _
    unfold Sql.footprint
    cases hread : Sql.Statement.read? (statementOf line) with
    | none => exact .none _
    | some statement => exact Sql.scattered_statement hread
  | mongodb =>
    change Scattered (Shell.footprint line).writtenValues _
    unfold Shell.footprint
    cases hread : Shell.Call.read? (statementOf line) with
    | none => exact .none _
    | some c => exact (Shell.scattered_mentions (Shell.scattered_args hread)).ofMentions c.collection

/-- In either dialect each value found on a line is the text of a range of the line. The ranges are
in the order of the values, each ends before the next begins, and there is something between them;
so nothing is found twice and nothing that the line does not have. -/
theorem values_stand_apart (d : Dialect) (line : List Char) :
    ∃ ranges : List ByteRange,
      List.Forall₂ (fun r a => r.Holds line a.2.toList) ranges (footprint d line).values ∧
      ranges.Pairwise fun r r' => r.stop < r'.start := by
  obtain ⟨ranges, hholds, hapart, -⟩ := (scattered_footprint d line).exists_ranges []
  rw [Footprint.writtenValues, List.forall₂_map_right_iff] at hholds
  exact ⟨ranges, hholds, hapart⟩

end SchemaLint
