import Mathlib.Algebra.Group.Nat.Defs
import SchemaLint.Proofs.Rule.Document
import SchemaLint.Report.Document

/-!
# Reports and their documents

A report is in range when its counts, the numbers of its lines and its version fit what documents
count with (`Report.InRange`). Such a report comes back from its document
(`Report.ofDocument?_toDocument`), what was left out for want of a value included.
-/

namespace SchemaLint

open Json (Canonical mapM_map_of_readBack)

theorem IssueCode.ofName?_name (c : IssueCode) : IssueCode.ofName? c.name = some c := by
  cases c <;> rfl

theorem Dialect.ofName?_name (d : Dialect) : Dialect.ofName? d.name = some d := by
  cases d <;> rfl

/-! ## Numbers and optional strings -/

namespace Json.Value

theorem nat?_ofNat {n limit : Nat} (h : n < limit) : (ofNat n).nat? limit = some n := by
  simp [ofNat, nat?, Number.toNat?, h]

theorem optionalString?_map (s : Option String) : optionalString? (s.map ofString) = some s := by
  cases s <;> rfl

end Json.Value

/-! ## Findings -/

namespace Issue

theorem canonical_toJson (i : Issue) : Canonical i.toJson := by
  refine .object (fun m hm => ?_) ?_
  · rcases List.mem_append.mp hm with hm | hm
    · simp only [List.mem_cons, List.not_mem_nil, or_false] at hm
      rcases hm with rfl | rfl | rfl <;> exact .string _
    · obtain ⟨id, -, rfl⟩ := List.mem_map.mp hm
      exact .string _
  · cases i.ruleId with
    | none => exact (by decide : ["code", "severity", "message"].Nodup)
    | some id => exact (by decide : keys.Nodup)

/-- A finding is what its document means, whether it comes from a rule or not. -/
theorem ofJson?_toJson (i : Issue) : ofJson? i.toJson = some i := by
  obtain ⟨code, severity, message, ruleId⟩ := i
  have hrecord : (toJson ⟨code, severity, message, ruleId⟩).record? keys =
      some [some (.ofString code.name), some (.ofString severity.name), some (.ofString message),
        ruleId.map .ofString] := by
    cases ruleId <;> rfl
  have hcode : (Json.Value.ofString code.name).name?.bind IssueCode.ofName? = some code :=
    code.ofName?_name
  have hseverity : (Json.Value.ofString severity.name).name?.bind Severity.ofName? = some severity :=
    severity.ofName?_name
  unfold ofJson?
  rw [hrecord]
  simp only [Option.bind_eq_bind, Option.bind_some, hcode, hseverity,
    Json.Value.optionalString?_map]
  rfl

end Issue

/-! ## Diagnostics -/

namespace Diagnostic

theorem canonical_toJson {d : Diagnostic} (h : d.lineNumber < countLimit) : Canonical d.toJson := by
  refine .ofKeys (fun v hv => ?_) (by decide)
  simp only [List.mem_cons, List.not_mem_nil, or_false] at hv
  rcases hv with rfl | rfl | rfl | rfl | rfl
  · exact .nat h
  · exact .string _
  · cases d.target with
    | none => exact .null
    | some name => exact .string name
  · exact .bool _
  · refine .array fun v hv => ?_
    obtain ⟨i, -, rfl⟩ := List.mem_map.mp hv
    exact i.canonical_toJson

/-- A diagnostic is what its document means, whether it has a target or not. -/
theorem ofJson?_toJson {d : Diagnostic} (h : d.lineNumber < countLimit) :
    ofJson? d.toJson = some d := by
  obtain ⟨lineNumber, content, target, isValid, issues⟩ := d
  have hrecord : (toJson ⟨lineNumber, content, target, isValid, issues⟩).record? keys =
      some [some (.ofNat lineNumber), some (.ofString content),
        some (target.elim .null .ofString), some (.bool isValid),
        some (.array (issues.map Issue.toJson))] := rfl
  have htarget : Json.Value.optionalString? (some (target.elim .null .ofString)) = some target := by
    cases target <;> rfl
  have hissues : (issues.map Issue.toJson).mapM Issue.ofJson? = some issues :=
    mapM_map_of_readBack fun i _ => i.ofJson?_toJson
  unfold ofJson?
  rw [hrecord]
  simp only [Option.bind_eq_bind, Option.bind_some, Json.Value.nat?_ofNat h, htarget,
    Json.Value.items?, hissues]
  rfl

end Diagnostic

/-! ## Versions and summaries -/

namespace ReportVersion

/-- The numbers of a version are below the limit of documents. -/
def InRange (v : ReportVersion) : Prop :=
  v.major < limit ∧ v.minor < limit

theorem inRange_current : current.InRange :=
  ⟨by decide, by decide⟩

theorem canonical_toJson {v : ReportVersion} (h : v.InRange) : Canonical v.toJson := by
  have hmajor := Nat.lt_trans h.1 (by decide : limit < UInt64.size)
  have hminor := Nat.lt_trans h.2 (by decide : limit < UInt64.size)
  refine .object (fun m hm => ?_) (by decide : ["major", "minor"].Nodup)
  simp only [List.mem_cons, List.not_mem_nil, or_false] at hm
  rcases hm with rfl | rfl
  · exact .nat hmajor
  · exact .nat hminor

theorem ofJson?_toJson {v : ReportVersion} (h : v.InRange) : ofJson? v.toJson = some v := by
  have hrecord : v.toJson.record? ["major", "minor"] =
      some [some (.ofNat v.major), some (.ofNat v.minor)] := rfl
  unfold ofJson?
  rw [hrecord]
  simp only [Option.bind_eq_bind, Option.bind_some, Json.Value.nat?_ofNat h.1,
    Json.Value.nat?_ofNat h.2]
  rfl

end ReportVersion

namespace ReportSummary

/-- The counts of a summary are below the limit of documents. -/
def InRange (s : ReportSummary) : Prop :=
  s.lines < countLimit ∧ s.valid < countLimit ∧ s.invalid < countLimit

theorem canonical_toJson {s : ReportSummary} (h : s.InRange) : Canonical s.toJson := by
  refine .ofKeys (fun v hv => ?_) (by decide)
  simp only [List.mem_cons, List.not_mem_nil, or_false] at hv
  rcases hv with rfl | rfl | rfl
  · exact .nat h.1
  · exact .nat h.2.1
  · exact .nat h.2.2

theorem ofJson?_toJson {s : ReportSummary} (h : s.InRange) : ofJson? s.toJson = some s := by
  have hrecord : s.toJson.record? keys =
      some [some (.ofNat s.lines), some (.ofNat s.valid), some (.ofNat s.invalid)] := rfl
  unfold ofJson?
  rw [hrecord]
  simp only [Option.bind_eq_bind, Option.bind_some, Json.Value.nat?_ofNat h.1,
    Json.Value.nat?_ofNat h.2.1, Json.Value.nat?_ofNat h.2.2]
  rfl

end ReportSummary

/-! ## Reports -/

namespace Report

/-- All numbers of a report are below the limits of documents. -/
structure InRange (r : Report) : Prop where
  version : r.version.InRange
  summary : r.summary.InRange
  lines : ∀ d ∈ r.diagnostics, d.lineNumber < countLimit

theorem canonical_toJson {r : Report} (h : r.InRange) : Canonical r.toJson := by
  refine .ofKeys (fun v hv => ?_) (by decide)
  rcases List.mem_append.mp hv with hv | hv
  · simp only [List.mem_cons, List.not_mem_nil, or_false] at hv
    rcases hv with rfl | rfl | rfl | rfl | rfl
    · exact ReportVersion.canonical_toJson h.version
    · exact .string _
    · exact .string _
    · exact ReportSummary.canonical_toJson h.summary
    · refine .array fun v hv => ?_
      obtain ⟨d, hd, rfl⟩ := List.mem_map.mp hv
      exact Diagnostic.canonical_toJson (h.lines d hd)
  · obtain ⟨source, -, rfl⟩ := List.mem_map.mp hv
    exact .string _

theorem ofJson?_toJson {r : Report} (h : r.InRange) : ofJson? r.toJson = some r := by
  obtain ⟨version, timestamp, dialect, summary, diagnostics, source⟩ := r
  have hrecord : (toJson ⟨version, timestamp, dialect, summary, diagnostics, source⟩).record? keys =
      some [some version.toJson, some (.ofString timestamp), some (.ofString dialect.name),
        some summary.toJson, some (.array (diagnostics.map Diagnostic.toJson)),
        source.map .ofString] := by
    cases source <;> rfl
  have hdialect : (Json.Value.ofString dialect.name).name?.bind Dialect.ofName? = some dialect :=
    dialect.ofName?_name
  have hdiagnostics : (diagnostics.map Diagnostic.toJson).mapM Diagnostic.ofJson? = some diagnostics :=
    mapM_map_of_readBack fun d hd => Diagnostic.ofJson?_toJson (h.lines d hd)
  unfold ofJson?
  rw [hrecord]
  simp only [Option.bind_eq_bind, Option.bind_some, ReportVersion.ofJson?_toJson h.version,
    hdialect, ReportSummary.ofJson?_toJson h.summary, Json.Value.items?, hdiagnostics,
    Json.Value.optionalString?_map]
  rfl

/-- A report whose numbers are in range comes back from its document. -/
theorem ofDocument?_toDocument {r : Report} (h : r.InRange) : ofDocument? r.toDocument = some r := by
  unfold ofDocument? toDocument
  rw [Json.read?_write (canonical_toJson h), Option.bind_some, ofJson?_toJson h]

theorem inRange_ofDiagnostics (timestamp : String) (dialect : Dialect) {ds : List Diagnostic}
    (source : Option String) (hlines : ∀ d ∈ ds, d.lineNumber < countLimit)
    (hcount : ds.length < countLimit) : (ofDiagnostics timestamp dialect ds source).InRange where
  version := ReportVersion.inRange_current
  summary :=
    ⟨hcount, Nat.lt_of_le_of_lt List.countP_le_length hcount, Nat.lt_of_le_of_lt (Nat.sub_le _ _) hcount⟩
  lines := hlines

/-- A report on any diagnostics, with or without a source, comes back from its document, and the
document of what comes back is the same. -/
theorem documents_keep_report (timestamp : String) (dialect : Dialect) {ds : List Diagnostic}
    (source : Option String) (hlines : ∀ d ∈ ds, d.lineNumber < countLimit)
    (hcount : ds.length < countLimit) :
    let r := ofDiagnostics timestamp dialect ds source
    ofDocument? r.toDocument = some r ∧
      ∀ r', ofDocument? r.toDocument = some r' → r'.toDocument = r.toDocument := by
  intro r
  have hread : ofDocument? r.toDocument = some r :=
    ofDocument?_toDocument (inRange_ofDiagnostics timestamp dialect source hlines hcount)
  refine ⟨hread, fun r' hr' => ?_⟩
  rw [hread] at hr'
  rw [Option.some.inj hr']

/-- A report without a source on the last line that can be counted, with characters that need
escapes, and on a line without a target on which a rule was failed. -/
theorem documents_keep_report_escaped :
    let ds : List Diagnostic :=
      [{ lineNumber := 2 ^ 64 - 1, content := "\"\x00é\n", target := some "", isValid := true
         issues := [] },
       { lineNumber := 0, content := "", target := none, isValid := true
         issues := [⟨.typeMismatch, .info, "\\", some "7"⟩, ⟨.targetUnknown, .error, "/", none⟩] }]
    let r := ofDiagnostics "" .mongodb ds none
    (∀ d ∈ ds, d.lineNumber < countLimit) ∧ ds.length < countLimit ∧
      ofDocument? r.toDocument = some r := by
  intro ds r
  have hlines : ∀ d ∈ ds, d.lineNumber < countLimit := by decide
  have hcount : ds.length < countLimit := by decide
  exact ⟨hlines, hcount, (documents_keep_report "" .mongodb none hlines hcount).1⟩

end Report

end SchemaLint
