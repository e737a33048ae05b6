import SchemaLint.Proofs.Validator
import SchemaLint.Report

/-!
# Scripts

A script is read line by line. What its lines are is said by `LinesOf`, line end after line end; the
lines that are judged are these, trimmed, without the blank ones (`scriptLines_of_linesOf`). A
script in two parts is judged part by part: the second part keeps its findings, and its lines are
counted on from those of the first (`validate_append`).
-/

namespace SchemaLint

open Text

/-! ## The lines of a text -/

/-- The lines of a text. Each is ended by a line feed, which may follow a carriage return; the last
one may be ended by the text itself. -/
inductive LinesOf : List Char → List (List Char) → Prop
  | none : LinesOf [] []
  | last {l : List Char} (nonempty : l ≠ []) (plain : '\n' ∉ l) : LinesOf l [l]
  | ended {l s : List Char} {ls : List (List Char)} (plain : '\n' ∉ l)
      (bare : l.getLast? ≠ some '\r') (rest : LinesOf s ls) : LinesOf (l ++ '\n' :: s) (l :: ls)
  | endedByReturn {l s : List Char} {ls : List (List Char)} (plain : '\n' ∉ l)
      (rest : LinesOf s ls) : LinesOf (l ++ '\r' :: '\n' :: s) (l :: ls)

theorem LinesOf.cons {s : List Char} {ls : List (List Char)} (h : LinesOf s ls) (c : Char) :
    ∃ ls', LinesOf (c :: s) ls' := by
  -- The character is an empty line of its own, or it begins the first line.
  by_cases hc : c = '\n'
  · subst hc
    exact ⟨[] :: ls, .ended (l := []) List.not_mem_nil (by simp) h⟩
  · have hplain : ∀ {l : List Char}, '\n' ∉ l → '\n' ∉ c :: l := by
      intro l hl hmem
      rcases List.mem_cons.mp hmem with heq | hmem
      · exact hc heq.symm
      · exact hl hmem
    cases h with
    | none => exact ⟨[[c]], .last (by simp) (hplain List.not_mem_nil)⟩
    | last nonempty plain => exact ⟨_, .last (by simp) (hplain plain)⟩
    | @ended l s ls plain bare rest =>
      by_cases hreturn : c = '\r' ∧ l = []
      · obtain ⟨rfl, rfl⟩ := hreturn
        exact ⟨_, .endedByReturn (l := []) List.not_mem_nil rest⟩
      · refine ⟨_, .ended (l := c :: l) (hplain plain) ?_ rest⟩
        cases l with
        | nil => simpa using hreturn
        | cons d l => rwa [List.getLast?_cons_cons]
    | @endedByReturn l s ls plain rest => exact ⟨_, .endedByReturn (l := c :: l) (hplain plain) rest⟩

theorem exists_linesOf (s : List Char) : ∃ ls, LinesOf s ls := by
  induction s with
  | nil => exact ⟨[], .none⟩
  | cons c s ih =>
    obtain ⟨ls, h⟩ := ih
    exact h.cons c

namespace Validator

/-! ## The lines that are judged -/

/-- What is judged of some lines: the lines that are not blank, trimmed. -/
def judged (ls : List (List Char)) : List (List Char) :=
  (ls.map trim).filter (!·.isEmpty)

theorem judged_append (ls ls' : List (List Char)) : judged (ls ++ ls') = judged ls ++ judged ls' := by
  rw [judged, List.map_append, List.filter_append]
  rfl

theorem judged_cons_congr {l l' : List Char} (h : trim l = trim l') (ls : List (List Char)) :
    judged (l :: ls) = judged (l' :: ls) := by
  rw [judged, judged, List.map_cons, List.map_cons, h]

theorem scriptLines_eq (s : List Char) : scriptLines s = judged (pieces (· == '\n') s) := by
  obtain ⟨p, ps, hp⟩ := List.exists_cons_of_ne_nil (pieces_ne_nil (· == '\n') s)
  rw [scriptLines, lines, hp]
  change judged (if _ then _ else _) = _
  -- An empty piece behind the last line end is not judged, so it need not be dropped.
  split
  · next hlast =>
    rw [beq_iff_eq] at hlast
    obtain ⟨qs, hqs⟩ := List.getLast?_eq_some_iff.mp hlast
    rw [hqs, List.dropLast_concat, judged_append]
    exact (List.append_nil _).symm
  · rfl

theorem scriptLines_append (s t : List Char) :
    scriptLines (s ++ '\n' :: t) = scriptLines s ++ scriptLines t := by
  rw [scriptLines_eq, pieces_append_sep rfl, judged_append, ← scriptLines_eq, ← scriptLines_eq]

theorem scriptLines_of_plain {l : List Char} (h : '\n' ∉ l) : scriptLines l = judged [l] := by
  rw [scriptLines_eq, pieces_of_forall]
  intro c hc
  rw [beq_eq_false_iff_ne]
  rintro rfl
  exact h hc

/-- The lines that are judged are the lines of the script that are not blank, trimmed. A carriage
return in front of a line feed is trimmed away. -/
theorem scriptLines_of_linesOf {s : List Char} {ls : List (List Char)} (h : LinesOf s ls) :
    scriptLines s = judged ls := by
  induction h with
  | none => rfl
  | last _ plain => exact scriptLines_of_plain plain
  | @ended l s ls plain _ _ ih =>
    rw [scriptLines_append, scriptLines_of_plain plain, ih]
    exact (judged_append [l] ls).symm
  | @endedByReturn l s ls plain _ ih =>
    have hplain : '\n' ∉ l ++ ['\r'] := by simpa using plain
    have htrim : trim (l ++ ['\r']) = trim l := trim_append_blank (by simp; decide) l
    rw [List.append_cons, scriptLines_append, scriptLines_of_plain hplain, ih,
      judged_cons_congr htrim]
    exact (judged_append [l] ls).symm

end Validator

/-! ## The diagnostics of a script -/

/-- A diagnostic of a line that stands so many places further down. -/
def Diagnostic.movedDown (k : Nat) (d : Diagnostic) : Diagnostic :=
  { d with lineNumber := d.lineNumber + k }

theorem Diagnostic.movedDown_pushAll (k : Nat) (d : Diagnostic) (is : List Issue) :
    (d.pushAll is).movedDown k = (d.movedDown k).pushAll is := by
  induction is generalizing d with
  | nil => rfl
  | cons i is ih => exact ih (d.push i)

namespace Validator

variable (v : Validator)

theorem judge_add (n k : Nat) (line : List Char) :
    v.judge (n + k) line = (v.judge n line).movedDown k := by
  rw [judge, judge, Diagnostic.movedDown_pushAll]
  rfl

theorem length_validate (script : String) :
    (v.validate script).length = (scriptLines script.toList).length := by
  rw [validate, List.length_map, List.length_zipIdx]

theorem map_judge_zipIdx_add (ls : List (List Char)) (n k : Nat) :
    (ls.zipIdx (n + k)).map (fun (line, m) => v.judge m line) =
      ((ls.zipIdx n).map fun (line, m) => v.judge m line).map (·.movedDown k) := by
  induction ls generalizing n with
  | nil => rfl
  | cons l ls ih =>
    rw [List.zipIdx_cons, List.zipIdx_cons, List.map_cons, List.map_cons, List.map_cons,
      Nat.add_right_comm, ih]
    exact congrArg (· :: _) (v.judge_add n k l)

theorem validate_append (a b : String) : v.validate (a ++ "\n" ++ b) =
    v.validate a ++ (v.validate b).map (·.movedDown (v.validate a).length) := by
  have hlines : scriptLines (a ++ "\n" ++ b).toList =
      scriptLines a.toList ++ scriptLines b.toList := by
    rw [String.toList_append, String.toList_append, List.append_assoc]
    exact scriptLines_append a.toList b.toList
  rw [length_validate, validate, hlines, List.zipIdx_append, List.map_append, map_judge_zipIdx_add]
  rfl

theorem contents_validate (script : String) :
    (v.validate script).map (·.content.toList) = scriptLines script.toList := by
  have hcontent : ∀ x : List Char × Nat, (v.judge x.2 x.1).content.toList = x.1 :=
    fun x => v.content_judge x.2 x.1
  rw [validate, List.map_map]
  calc _ = ((scriptLines script.toList).zipIdx 1).map Prod.fst :=
        List.map_congr_left fun x _ => hcontent x
    _ = scriptLines script.toList := List.zipIdx_map_fst 1 _

theorem lineNumbers_validate (script : String) :
    (v.validate script).map (·.lineNumber) = List.range' 1 (v.validate script).length := by
  have hnumber : ∀ x : List Char × Nat, (v.judge x.2 x.1).lineNumber = x.2 :=
    fun x => Diagnostic.lineNumber_pushAll _ _
  rw [length_validate, validate, List.map_map]
  calc _ = ((scriptLines script.toList).zipIdx 1).map Prod.snd :=
        List.map_congr_left fun x _ => hnumber x
    _ = List.range' 1 (scriptLines script.toList).length := List.zipIdx_map_snd 1 _

theorem isValid_iff {script : String} {d : Diagnostic} (h : d ∈ v.validate script) :
    d.isValid = true ↔ d.issues = [] := by
  obtain ⟨⟨line, n⟩, -, rfl⟩ := List.mem_map.mp h
  exact v.isFlagged_judge n line

/-- The lines that are left when the valid ones are taken away are those on which something was found. -/
theorem invalid_validate (script : String) :
    (ReportSummary.ofDiagnostics (v.validate script)).invalid =
      (v.validate script).countP fun d => !d.issues.isEmpty := by
  have hcount := List.length_eq_countP_add_countP (l := v.validate script) (·.isValid)
  have hinvalid : (v.validate script).countP (fun d => decide ¬d.isValid = true) =
      (v.validate script).countP fun d => !d.issues.isEmpty := by
    apply List.countP_congr
    intro d hd
    rw [decide_eq_true_iff, isValid_iff v hd, Bool.not_eq_true', ← Bool.not_eq_true, List.isEmpty_iff]
  change (v.validate script).length - (v.validate script).countP (·.isValid) = _
  omega

/-- A script is judged line by line. A line feed between two scripts leaves the findings of both as
they are and counts the lines of the second on from those of the first. A line is valid when nothing
is found on it. The contents are the lines of the script that are not blank, trimmed, in order, and
they are counted from one on. The report counts each of them once, and the invalid ones are those on
which something was found. -/
theorem validate_line_by_line (a b timestamp : String) (source : Option String) :
    v.validate (a ++ "\n" ++ b) =
      v.validate a ++ (v.validate b).map (·.movedDown (v.validate a).length) ∧
    (∀ d ∈ v.validate a, d.isValid = true ↔ d.issues = []) ∧
    (∃ ls, LinesOf a.toList ls) ∧
    (∀ ls, LinesOf a.toList ls →
      (v.validate a).map (·.content.toList) = (ls.map trim).filter (!·.isEmpty)) ∧
    (v.validate a).map (·.lineNumber) = List.range' 1 (v.validate a).length ∧
    let report := Report.ofDiagnostics timestamp v.dialect (v.validate a) source
    report.summary.lines = (v.validate a).length ∧
    report.summary.lines = report.summary.valid + report.summary.invalid ∧
    report.summary.invalid = (v.validate a).countP (fun d => !d.issues.isEmpty) ∧
    (report.hasInvalidLines = true ↔ ∃ d ∈ v.validate a, d.issues ≠ []) := by
  refine ⟨validate_append v a b, fun d => isValid_iff v, exists_linesOf a.toList, ?_,
    lineNumbers_validate v a, rfl, ?_, invalid_validate v a, ?_⟩
  · intro ls hls
    rw [contents_validate, scriptLines_of_linesOf hls, judged]
  · exact (Nat.add_sub_of_le List.countP_le_length).symm
  · have hinvalid : (Report.ofDiagnostics timestamp v.dialect (v.validate a) source).hasInvalidLines =
        decide (0 < (v.validate a).countP fun d => !d.issues.isEmpty) := by
      rw [← invalid_validate]
      rfl
    rw [hinvalid, decide_eq_true_iff, List.countP_pos_iff]
    simp

end Validator

end SchemaLint
