import Mathlib.Data.List.Basic
import SchemaLint.Rule.Compiled

/-!
# What compiled rules judge

The compiled bucket of a kind holds the rules of its bucket that compile. So a line fails exactly
the rules for lines whose patterns compile and do not match it. What compiled rules find is told
from the table itself by `Rule.fails` (`firstFailure?_ofTable`, `lineFailures_ofTable`).
-/

namespace SchemaLint

/-- Tells whether a text fails a rule: the pattern of the rule compiles and does not match. -/
def Rule.fails (r : Rule) (text : String) : Bool :=
  r.compile?.any fun c => !c.accepts text

namespace CompiledRules

variable {t : RuleTable} {d : Dialect} {k : ValueKind} {r : Rule}

theorem find?_buckets (ks : List ValueKind) :
    ((((ks.filterMap fun k => (t.bucket? d k).map fun rules => (k, rules)).map
      fun (k, rules) => (k, rules.filterMap Rule.compile?)).find? (·.1 == k)).map (·.2)).getD [] =
      if k ∈ ks then (t.rules d k).filterMap Rule.compile? else [] := by
  induction ks with
  | nil => rfl
  | cons k' ks ih =>
    by_cases hk : k = k'
    · subst hk
      cases hb : t.bucket? d k with
      | none =>
        have hnone : (t.rules d k).filterMap Rule.compile? = [] := by simp [RuleTable.rules, hb]
        rw [hnone, ite_self] at ih ⊢
        simpa [hb] using ih
      | some rules => simp [hb, RuleTable.rules]
    · cases hb : t.bucket? d k' with
      | none => simpa [hb, hk] using ih
      | some rules => simpa [hb, hk, Ne.symm hk] using ih

theorem bucket_ofTable : (ofTable t d).bucket k = (t.rules d k).filterMap Rule.compile? := by
  have hk : k ∈ ValueKind.all := by cases k <;> decide
  exact (find?_buckets ValueKind.all).trans (if_pos hk)

theorem mem_bucket {c : CompiledRule} :
    c ∈ (ofTable t d).bucket k ↔
      c.rule ∈ t.rules d k ∧ Pattern.compile? c.rule.pattern = some c.pattern := by
  rw [bucket_ofTable, List.mem_filterMap]
  constructor
  · rintro ⟨r, hr, hc⟩
    obtain ⟨p, hp, rfl⟩ := Option.map_eq_some_iff.mp hc
    exact ⟨hr, hp⟩
  · rintro ⟨hr, hp⟩
    exact ⟨c.rule, hr, by rw [Rule.compile?, hp, Option.map_some]⟩

/-- A line fails a rule for lines that compiles and does not match it. -/
theorem mem_lineFailures {line : String} :
    r ∈ (ofTable t d).lineFailures line ↔
      r ∈ t.rules d .line ∧
        ∃ p, Pattern.compile? r.pattern = some p ∧ p.accepts line.toList = false := by
  rw [lineFailures, List.mem_map]
  constructor
  · rintro ⟨c, hc, rfl⟩
    obtain ⟨hmem, hfail⟩ := List.mem_filter.mp hc
    obtain ⟨hr, hp⟩ := mem_bucket.mp hmem
    exact ⟨hr, c.pattern, hp, by simpa [CompiledRule.accepts] using hfail⟩
  · rintro ⟨hr, p, hp, hfail⟩
    have hmem : ⟨r, p⟩ ∈ (ofTable t d).bucket .line := mem_bucket.mpr ⟨hr, hp⟩
    exact ⟨⟨r, p⟩, List.mem_filter.mpr ⟨hmem, by simpa [CompiledRule.accepts] using hfail⟩, rfl⟩

/-! ## In terms of the table -/

theorem rule_of_compile? {c : CompiledRule} (h : r.compile? = some c) : c.rule = r := by
  obtain ⟨p, -, rfl⟩ := Option.map_eq_some_iff.mp h
  rfl

theorem map_filter_compile? (text : String) (rules : List Rule) :
    ((rules.filterMap Rule.compile?).filter fun c => !c.accepts text).map (·.rule) =
      rules.filter (·.fails text) := by
  induction rules with
  | nil => rfl
  | cons r rules ih =>
    cases hc : r.compile? with
    | none =>
      have hpass : r.fails text = false := by rw [Rule.fails, hc, Option.any_none]
      rw [List.filterMap_cons_none hc, List.filter_cons, hpass, ih]
      rfl
    | some c =>
      have hfails : r.fails text = !c.accepts text := by rw [Rule.fails, hc, Option.any_some]
      rw [List.filterMap_cons_some hc, List.filter_cons, List.filter_cons, hfails]
      cases c.accepts text with
      | false => exact congrArg₂ List.cons (rule_of_compile? hc) ih
      | true => exact ih

theorem map_find?_compile? (text : String) (rules : List Rule) :
    ((rules.filterMap Rule.compile?).find? fun c => !c.accepts text).map (·.rule) =
      rules.find? (·.fails text) := by
  rw [← List.head?_filter, ← List.head?_map, map_filter_compile?, List.head?_filter]

/-- A value is told by the first rule of its kind that it fails. -/
theorem firstFailure?_ofTable (value : String) :
    (ofTable t d).firstFailure? k value = (t.rules d k).find? (·.fails value) := by
  rw [firstFailure?, bucket_ofTable, map_find?_compile?]

/-- A line is told by all rules for lines that it fails. -/
theorem lineFailures_ofTable (line : String) :
    (ofTable t d).lineFailures line = (t.rules d .line).filter (·.fails line) := by
  rw [lineFailures, bucket_ofTable, map_filter_compile?]

/-- A rule that a value fails is of its bucket. -/
theorem mem_rules_of_firstFailure? {value : String} (h : (ofTable t d).firstFailure? k value = some r) :
    r ∈ t.rules d k := by
  obtain ⟨c, hc, rfl⟩ := Option.map_eq_some_iff.mp h
  exact (mem_bucket.mp (List.mem_of_find?_eq_some hc)).1

end CompiledRules

end SchemaLint
