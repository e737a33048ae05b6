import SchemaLint.Proofs.Rule.Compiled
import SchemaLint.Validator

/-!
# Rules that cannot be compiled

A rule whose pattern cannot be compiled is set aside and listed. The other rules of its dialect are
compiled in their order and judge as they do in the table without it (`ofTable_compilable`), so
scripts are judged alike under both tables (`Validator.broken_rules_set_aside`).
-/

namespace SchemaLint

/-- Tells whether the pattern of a rule can be compiled. -/
def Rule.compiles (r : Rule) : Bool :=
  (Pattern.compile? r.pattern).isSome

/-- A table without the rules of a dialect that cannot be compiled. -/
def RuleTable.compilable (t : RuleTable) (d : Dialect) : RuleTable :=
  { bucket? := fun d' k =>
      if d' = d then (t.bucket? d' k).map (·.filter Rule.compiles) else t.bucket? d' k }

variable {t : RuleTable} {d : Dialect} {k : ValueKind} {r : Rule}

theorem Rule.isSome_compile? (r : Rule) : r.compile?.isSome = r.compiles := by
  rw [compile?, Option.isSome_map, compiles]

theorem Rule.isNone_compile? (r : Rule) : (Pattern.compile? r.pattern).isNone = !r.compiles := by
  rw [compiles, Option.not_isSome]

/-! ## Compiling what is left -/

theorem filterMap_compile?_filter (rules : List Rule) :
    (rules.filter Rule.compiles).filterMap Rule.compile? = rules.filterMap Rule.compile? := by
  rw [List.filterMap_filter]
  refine List.filterMap_congr fun r _ => ?_
  rw [← r.isSome_compile?]
  cases r.compile? <;> rfl

theorem map_rule_filterMap_compile? (rules : List Rule) :
    (rules.filterMap Rule.compile?).map (·.rule) = rules.filter Rule.compiles := by
  induction rules with
  | nil => rfl
  | cons r rules ih =>
    rw [List.filter_cons, ← r.isSome_compile?]
    cases hc : r.compile? with
    | none => rw [List.filterMap_cons_none hc, ih]; rfl
    | some c =>
      rw [List.filterMap_cons_some hc, List.map_cons, CompiledRules.rule_of_compile? hc, ih]
      rfl

namespace RuleTable

theorem rules_compilable : (t.compilable d).rules d k = (t.rules d k).filter Rule.compiles := by
  rw [rules, rules, compilable]
  cases h : t.bucket? d k <;> simp [h]

theorem buckets_compilable : (t.compilable d).buckets d =
    (t.buckets d).map fun (k, rules) => (k, rules.filter Rule.compiles) := by
  rw [buckets, buckets, List.map_filterMap]
  refine List.filterMap_congr fun k _ => ?_
  cases h : t.bucket? d k <;> simp [compilable, h]

/-- A bucket that is absent has no rules, so nothing of it could be set aside. -/
theorem flatMap_buckets {α : Type} (f : ValueKind → List Rule → List α) (h : ∀ k, f k [] = []) :
    ((t.buckets d).flatMap fun (k, rules) => f k rules) =
      ValueKind.all.flatMap fun k => f k (t.rules d k) := by
  rw [buckets]
  induction ValueKind.all with
  | nil => rfl
  | cons k ks ih =>
    rw [List.flatMap_cons, ← ih, rules]
    cases hb : t.bucket? d k <;> simp [hb, h]

end RuleTable

namespace CompiledRules

theorem skipped_ofTable : (ofTable t d).skipped =
    ValueKind.all.flatMap fun k =>
      ((t.rules d k).filter (!·.compiles)).map fun r => (k, r.id) := by
  rw [ofTable]
  simp only [Rule.isNone_compile?]
  exact RuleTable.flatMap_buckets (fun k rules => (rules.filter (!·.compiles)).map fun r => (k, r.id))
    fun _ => rfl

theorem map_rule_bucket :
    ((ofTable t d).bucket k).map (·.rule) = (t.compilable d).rules d k := by
  rw [bucket_ofTable, map_rule_filterMap_compile?, RuleTable.rules_compilable]

/-- What is compiled from a table is what is compiled from the rules that can be, but for the list of
those set aside. -/
theorem ofTable_compilable :
    ofTable (t.compilable d) d = { ofTable t d with skipped := [] } := by
  have hbuckets : (ofTable (t.compilable d) d).buckets = (ofTable t d).buckets := by
    simp only [ofTable, RuleTable.buckets_compilable, List.map_map]
    refine List.map_congr_left fun b _ => ?_
    exact congrArg (Prod.mk b.1) (filterMap_compile?_filter b.2)
  have hskipped : (ofTable (t.compilable d) d).skipped = [] := by
    rw [skipped_ofTable, List.flatMap_eq_nil_iff]
    intro k _
    rw [RuleTable.rules_compilable, List.filter_filter, List.map_eq_nil_iff, List.filter_eq_nil_iff]
    simp
  exact congrArg₂ CompiledRules.mk hbuckets hskipped

end CompiledRules

namespace Validator

/-- Compiled rules judge by their buckets alone; the list of rules set aside is not looked at. -/
theorem validate_skipped (v : Validator) (skipped : List (ValueKind × String)) (script : String) :
    { v with rules := { v.rules with skipped } }.validate script = v.validate script :=
  rfl

/-- Scripts are judged under a table as they are under the table without the rules of the dialect that
cannot be compiled. The rules set aside are listed with their kinds and ids, kind after kind in the order
of the table, and none is set aside of the other table. Each bucket is compiled to the rules that are left
in it, in their order, with their own patterns. -/
theorem broken_rules_set_aside (t : RuleTable) (d : Dialect) :
    (∀ schema checks script, (ofTable d schema t checks).validate script =
      (ofTable d schema (t.compilable d) checks).validate script) ∧
    (CompiledRules.ofTable t d).skipped =
      (ValueKind.all.flatMap fun k =>
        ((t.rules d k).filter (!·.compiles)).map fun r => (k, r.id)) ∧
    (CompiledRules.ofTable (t.compilable d) d).skipped = [] ∧
    ∀ k, ((CompiledRules.ofTable t d).bucket k).map (·.rule) = (t.compilable d).rules d k ∧
      ∀ c ∈ (CompiledRules.ofTable t d).bucket k, Pattern.compile? c.rule.pattern = some c.pattern := by
  refine ⟨fun schema checks script => ?_, CompiledRules.skipped_ofTable, ?_, fun k => ⟨?_, ?_⟩⟩
  · rw [ofTable, ofTable, CompiledRules.ofTable_compilable]
    exact (validate_skipped (ofTable d schema t checks) [] script).symm
  · rw [CompiledRules.ofTable_compilable]
  · exact CompiledRules.map_rule_bucket
  · exact fun c hc => (CompiledRules.mem_bucket.mp hc).2

/-- A rule whose group is not closed is set aside. -/
example :
    let rule : String → String → Rule := fun id pattern =>
      { id, name := "", description := "", pattern, message := "", severity := .error }
    let table := RuleTable.empty.put .mysql .string [rule "1" "^'", rule "2" "(unclosed", rule "3" "'$"]
    (CompiledRules.ofTable table .mysql).skipped = [(.string, "2")] := by
  decide +kernel

end Validator

end SchemaLint
