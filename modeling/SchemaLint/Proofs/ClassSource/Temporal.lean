import SchemaLint.Proofs.ClassSource.TypeName
import SchemaLint.ValueKind

/-!
# Kinds of the types of dates and times

The kind of the values of a type is told by the first marker that occurs in its name
(`ValueKind.ofType?_eq_date_iff`). A class of the package of dates and times that is written with its package
keeps this name, where the package has a marker of dates in it. Its values are judged as dates if and only
if no marker that is tried earlier occurs in the name of the class itself (`ClassSource.temporal_kind_iff`);
none occurs in the package, or across its dots (`Text.occursIn_append_dot`).
-/

namespace SchemaLint

open Text

/-! ## Parts of dotted names -/

theorem Text.occursIn_iff {part s : List Char} : occursIn part s = true ↔ part <:+: s := by
  induction s with
  | nil => rw [occursIn, List.isEmpty_iff, List.infix_nil]
  | cons c s ih => rw [occursIn, Bool.or_eq_true, List.isPrefixOf_iff_prefix, ih, List.infix_cons_iff]

/-- What has no dot in it occurs in front of a dot or behind it. -/
theorem Text.occursIn_append_dot {part a b : List Char} (h : '.' ∉ part) :
    occursIn part (a ++ '.' :: b) = (occursIn part a || occursIn part b) := by
  rw [Bool.eq_iff_iff, Bool.or_eq_true, occursIn_iff, occursIn_iff, occursIn_iff]
  have hnil : ∀ u, u <+: '.' :: b → '.' ∉ u → u = [] := by
    intro u hu hdot
    cases u with
    | nil => rfl
    | cons c u =>
      obtain rfl := (List.cons_prefix_cons.mp hu).1
      exact absurd List.mem_cons_self hdot
  constructor
  · intro hpart
    rcases List.infix_append_iff.mp hpart with hfront | hbehind | ⟨u, v, rfl, hu, hv⟩
    · exact .inl hfront
    · rcases List.infix_cons_iff.mp hbehind with hstart | hlater
      · rw [hnil part hstart h]
        exact .inl (List.nil_infix)
      · exact .inr hlater
    · rw [hnil v hv fun hdot => h (List.mem_append_right u hdot), List.append_nil]
      exact .inl hu.isInfix
  · rintro (hfront | hbehind)
    · exact hfront.trans (List.prefix_append a _).isInfix
    · exact hbehind.trans ((List.suffix_cons '.' b).trans (List.suffix_append a _)).isInfix

namespace ValueKind

/-- The kinds that are tried before dates, with their markers. -/
def beforeDates : List (ValueKind × List String) :=
  markers.takeWhile (·.1 != date)

/-- The markers that are tried before those of dates. -/
def earlierMarkers : List String :=
  "objectid" :: beforeDates.flatMap (·.2)

/-- Of entries with one of a key, that one is found if and only if it passes and none in front of it does. -/
theorem find?_key_eq_iff {α β : Type} {p : α × β → Bool} {x : α × β} {front behind : List (α × β)}
    (hfront : ∀ q ∈ front, q.1 ≠ x.1) (hbehind : ∀ q ∈ behind, q.1 ≠ x.1) :
    ((front ++ x :: behind).find? p).map (·.1) = some x.1 ↔ (∀ q ∈ front, p q = false) ∧ p x = true := by
  rw [List.find?_append, List.find?_cons]
  cases hfound : front.find? p with
  | some q =>
    have hq : ¬q.1 = x.1 := hfront q (List.mem_of_find?_eq_some hfound)
    refine iff_of_false (fun hkey => hq (Option.some.inj hkey)) fun hnone => ?_
    have hpass := hnone.1 q (List.mem_of_find?_eq_some hfound)
    rw [List.find?_some hfound] at hpass
    cases hpass
  | none =>
    have hnone : ∀ q ∈ front, p q = false := fun q hq =>
      Bool.not_eq_true _ ▸ List.find?_eq_none.mp hfound q hq
    rw [Option.none_or, and_iff_right hnone]
    cases hx : p x with
    | true => exact iff_of_true rfl rfl
    | false =>
      refine iff_of_false (fun hkey => ?_) Bool.false_ne_true
      obtain ⟨q, hq, hkey⟩ := Option.map_eq_some_iff.mp hkey
      exact hbehind q (List.mem_of_find?_eq_some hq) hkey

/-- A type is one of dates if and only if it has a marker of dates and none that is tried earlier. -/
theorem ofType?_eq_date_iff (type : String) : ofType? type = some date ↔
    (∀ m ∈ earlierMarkers, occursIn m.toList (lower (trim type.toList)) = false) ∧
      ∃ m ∈ ["date", "time"], occursIn m.toList (lower (trim type.toList)) = true := by
  have hsplit : markers = beforeDates ++ (date, ["date", "time"]) :: markers.drop 4 := by decide
  unfold ofType? earlierMarkers
  simp only [List.forall_mem_cons, List.mem_flatMap]
  split
  · next hid => exact iff_of_false nofun fun h => by rw [hid] at h; cases h.1.1
  · next hid =>
    rw [hsplit, find?_key_eq_iff (x := (date, ["date", "time"])) (by decide) (by decide),
      Bool.not_eq_true] at *
    simp only [List.any_eq_true, List.any_eq_false, Bool.not_eq_true, hid, true_and, forall_exists_index,
      and_imp]
    exact and_congr_left' ⟨fun h m q hq hm => h q hq m hm, fun h q hq m hm => h m q hq hm⟩

end ValueKind

namespace ClassSource

open ValueKind

variable {n : List Char}

/-- A class of the package of dates and times, written with its package. -/
def temporal (n : List Char) : List Char :=
  "java.time.".toList ++ n

theorem forall_of_all {s : List Char} (h : s.all (fun c => !isBlank c && c != '<' && c != ']') = true) :
    ∀ c ∈ s, isBlank c = false ∧ c ≠ '<' ∧ c ≠ ']' := by
  simpa [and_assoc] using h

section Name

variable (hn : ∀ c ∈ n, isBlank c = false ∧ c ≠ '<' ∧ c ≠ ']')

include hn

theorem temporal_chars : ∀ c ∈ temporal n, isBlank c = false ∧ c ≠ '<' ∧ c ≠ ']' := by
  have hpackage : ∀ c ∈ "java.time.".toList, isBlank c = false ∧ c ≠ '<' ∧ c ≠ ']' :=
    forall_of_all (by decide)
  intro c hc
  rcases List.mem_append.mp hc with hc | hc
  · exact hpackage c hc
  · exact hn c hc

theorem trimmed_temporal : Trimmed (temporal n) :=
  ⟨fun c hc => (temporal_chars hn c (List.mem_of_mem_head? hc)).1,
    fun c hc => (temporal_chars hn c (List.mem_of_mem_getLast? hc)).1⟩

/-- A class of the package is stored under the name that is written. -/
theorem storedType_temporal : storedType (temporal n) = String.ofList (temporal n) := by
  have hloose : ¬"[]".toList <:+ temporal n := fun h =>
    (temporal_chars hn ']' (h.subset (by simp))).2.2 rfl
  have hangle : '<' ∉ temporal n := fun h => (temporal_chars hn '<' h).2.1 rfl
  have hjava : "java.".toList <+: "java.time.".toList := by decide
  have hdot : '.' ∈ "java.time.".toList := by decide
  have hother : ∃ c ∈ temporal n, c.isAlpha = false := ⟨'.', List.mem_append_left n hdot, by decide⟩
  have hstandard : standardPackages.any (fun p => p.toList.isPrefixOf (temporal n)) = true :=
    List.any_eq_true.mpr ⟨"java.", List.mem_cons_self,
      List.isPrefixOf_iff_prefix.mpr (hjava.trans (List.prefix_append _ n))⟩
  rw [storedType_eq (trimmed_temporal hn) hloose, baseType_of_not_mem (trimmed_temporal hn) hangle,
    find?_knownTypes_eq_none hother, hstandard]
  rfl

end Name

theorem occursIn_lower_temporal {m : String} (hm : m ∈ earlierMarkers) :
    occursIn m.toList (lower (temporal n)) = occursIn m.toList (lower n) := by
  have hapart : ∀ m ∈ earlierMarkers, '.' ∉ m.toList ∧
      occursIn m.toList "java".toList = false ∧ occursIn m.toList "time".toList = false := by decide
  obtain ⟨hdot, hjava, htime⟩ := hapart m hm
  have hlower : lower (temporal n) = "java".toList ++ '.' :: ("time".toList ++ '.' :: lower n) :=
    List.map_append
  rw [hlower, occursIn_append_dot hdot, occursIn_append_dot hdot, hjava, htime]
  rfl

/-- A class of the package of dates and times is stored under its full name, and its values are judged as
dates if and only if no marker of another kind that is tried earlier occurs in the name of the class. -/
theorem temporal_kind_iff (hn : ∀ c ∈ n, isBlank c = false ∧ c ≠ '<' ∧ c ≠ ']') :
    storedType (temporal n) = String.ofList (temporal n) ∧
      (ofType? (storedType (temporal n)) = some date ↔
        ∀ m ∈ earlierMarkers, occursIn m.toList (lower n) = false) := by
  have hword : occursIn "time".toList (lower "java.time.".toList) = true := by decide
  have htime : "time".toList <:+: lower "java.time.".toList := occursIn_iff.mp hword
  have hlater : lower "java.time.".toList <+: lower (temporal n) :=
    (List.prefix_append "java.time.".toList n).map Char.toLower
  have hdate : ∃ m ∈ ["date", "time"], occursIn m.toList (lower (temporal n)) = true :=
    ⟨"time", List.mem_cons_of_mem _ List.mem_cons_self, occursIn_iff.mpr (htime.trans hlater.isInfix)⟩
  refine ⟨storedType_temporal hn, ?_⟩
  rw [storedType_temporal hn, ofType?_eq_date_iff, String.toList_ofList, (trimmed_temporal hn).trim_eq,
    and_iff_left hdate]
  exact forall₂_congr fun m hm => by rw [occursIn_lower_temporal hm]

/-- Of the classes of the package these are not judged as dates. -/
example : (["Clock", "DayOfWeek", "Duration", "Instant", "LocalDate", "LocalDateTime", "LocalTime", "Month",
    "MonthDay", "OffsetDateTime", "OffsetTime", "Period", "Year", "YearMonth", "ZoneId", "ZoneOffset",
    "ZonedDateTime"].filter fun n => ofType? (storedType (temporal n.toList)) != some date) =
    ["OffsetDateTime", "OffsetTime", "ZoneOffset"] := by
  decide +kernel

/-- The marker of a set hides in an offset. -/
theorem offset_judged_as_array :
    ofType? (storedType (temporal "Instant".toList)) = some date ∧
      ofType? (storedType (temporal "OffsetDateTime".toList)) ≠ some date ∧
      ofType? (storedType (temporal "OffsetDateTime".toList)) = some array := by
  refine ⟨(temporal_kind_iff (forall_of_all (by decide))).2.mpr (by decide), fun hdate => ?_, by decide +kernel⟩
  have hset := (temporal_kind_iff (forall_of_all (by decide))).2.mp hdate "set" (by decide +kernel)
  exact absurd hset (by decide)

end ClassSource

end SchemaLint
