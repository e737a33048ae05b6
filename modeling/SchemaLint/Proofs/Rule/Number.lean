import Mathlib
import SchemaLint.Proofs.Pattern.Overlay
import SchemaLint.Proofs.Rule.Compiled
import SchemaLint.Rule.Builtin

/-!
# The rules for numbers

Of the rules for numbers in both dialects the first one lets pass what neither begins nor ends with a
quote, and the second one what is a number as it is written there. Numbers have no quotes at their
ends, so of the two messages the one about quotes is given exactly for a value that is empty or has a
quote at an end (`RuleTable.number_rules_decide`).
-/

namespace SchemaLint

/-! ## Numbers as they are written -/

/-- Digits of any script, at least one. -/
def IsDigits (x : List Char) : Prop :=
  1 ≤ x.length ∧ ∀ c ∈ x, Unicode.isDigit c = true

/-- A number with or without a sign and a fraction. -/
def IsNumeral (x : List Char) : Prop :=
  ∃ sign whole fraction, x = sign ++ (whole ++ fraction) ∧ (sign = [] ∨ sign = ['-']) ∧
    IsDigits whole ∧ (fraction = [] ∨ ∃ digits, fraction = '.' :: digits ∧ IsDigits digits)

/-- A call of one of the constructors of numbers, with any arguments. -/
def IsNumberCall (x : List Char) : Prop :=
  ∃ kind ∈ ["Int", "Long", "Decimal"], ∃ arguments : List Char,
    x = "Number".toList ++ (kind.toList ++ '(' :: (arguments ++ [')']))

/-- A quote stands at one end of a value, or there is no value. -/
def IsQuotedOrEmpty (x : List Char) : Prop :=
  x = [] ∨ (∃ c ∈ x.head?, c = '\x27' ∨ c = '"') ∨ ∃ c ∈ x.getLast?, c = '\x27' ∨ c = '"'

theorem not_isQuotedOrEmpty_iff {x : List Char} : ¬ IsQuotedOrEmpty x ↔
    x ≠ [] ∧ (∀ c ∈ x.head?, ¬ (c = '\x27' ∨ c = '"')) ∧
      ∀ c ∈ x.getLast?, ¬ (c = '\x27' ∨ c = '"') := by
  simp only [IsQuotedOrEmpty, not_or, not_exists, not_and]

namespace Pattern.Expr

def unquotedSet : CharSet :=
  .compl (.union (.union .empty (.single '\x27')) (.single '"'))

def inLineSet : CharSet :=
  .compl (.single '\n')

def digitRun : Expr :=
  .rep (.char .digit) 1 none true

/-- A value without a quote at its ends. -/
def unquotedParts : List Expr :=
  [.char unquotedSet,
   .rep (.group 1 (.seq [.rep (.char inLineSet) 0 none true, .char unquotedSet])) 0 (some 1) true]

/-- A number, its fraction in a group. -/
def numeralParts (group : Nat) : List Expr :=
  [.rep (.char (.single '-')) 0 (some 1) true, digitRun,
   .rep (.group group (.seq [.char (.single '.'), digitRun])) 0 (some 1) true]

def lettersOf (w : String) : List Expr :=
  w.toList.map fun c => .char (.single c)

/-- A call of a constructor of numbers. -/
def numberCallParts : List Expr :=
  lettersOf "Number" ++
    [.group 3 (.alt [.seq (lettersOf "Int"), .seq (lettersOf "Long"), .seq (lettersOf "Decimal")]),
     .char (.single '('), .rep (.char inLineSet) 0 none true, .char (.single ')')]

/-- Parts between the anchors for both ends. -/
def whole (es : List Expr) : Expr :=
  .seq (.anchor .textStart :: (es ++ [.anchor .textEnd]))

set_option maxRecDepth 100000 in
theorem compile_unquoted : compile? r#"^[^'"](.*[^'"])?$"# = some (.regular (whole unquotedParts)) := by
  cbv

set_option maxRecDepth 100000 in
theorem compile_numeral : compile? r"^-?\d+(\.\d+)?$" = some (.regular (whole (numeralParts 1))) := by
  cbv

set_option maxRecDepth 100000 in
theorem compile_number : compile? r"^(-?\d+(\.\d+)?|Number(Int|Long|Decimal)\(.*\))$" =
    some (.regular (whole [.group 1 (.alt [.seq (numeralParts 2), .seq numberCallParts])])) := by
  cbv

/-! ## Languages of the patterns -/

section Languages

variable {c : Char} {text : List Char}

theorem mem_unquotedSet : unquotedSet.mem c = true ↔ ¬ (c = '\x27' ∨ c = '"') := by
  rw [← mem_single, ← mem_single (d := c)]
  simp [unquotedSet, CharSet.mem]

theorem mem_inLineSet : inLineSet.mem c = true ↔ c ≠ '\n' := by
  rw [Ne, ← mem_single]
  simp [inLineSet, CharSet.mem]

theorem spells_digitRun : Spells digitRun (textsWith IsDigits) :=
  spells_run .digit 1

theorem spells_numeral (group : Nat) : Spells (.seq (numeralParts group)) (textsWith IsNumeral) := by
  have hsign : Spells (.rep (.char (.single '-')) 0 (some 1) true) (1 + oneOf (.single '-')) :=
    (spells_char _).opt
  have hfraction : Spells (.rep (.group group (.seq [.char (.single '.'), digitRun])) 0 (some 1) true)
      (1 + oneOf (.single '.') * textsWith IsDigits) :=
    ((spells_char _).cons spells_digitRun.single).group.opt
  refine (hsign.cons (spells_digitRun.cons hfraction.single)).congr fun x => ?_
  simp only [Language.mem_mul, Language.mem_add, Language.mem_one, mem_oneOf_single, mem_textsWith]
  constructor
  · rintro ⟨sign, hsign, _, ⟨whole, hwhole, fraction, hfraction, rfl⟩, rfl⟩
    refine ⟨sign, whole, fraction, rfl, hsign, hwhole, hfraction.imp id ?_⟩
    rintro ⟨_, rfl, digits, hdigits, rfl⟩
    exact ⟨digits, rfl, hdigits⟩
  · rintro ⟨sign, whole, fraction, rfl, hsign, hwhole, hfraction⟩
    refine ⟨sign, hsign, _, ⟨whole, hwhole, fraction, hfraction.imp id ?_, rfl⟩, rfl⟩
    rintro ⟨digits, rfl, hdigits⟩
    exact ⟨['.'], rfl, digits, hdigits, rfl⟩

theorem spells_numberCall : Spells (.seq numberCallParts) (textsWith fun x =>
    ∃ kind ∈ ["Int", "Long", "Decimal"], ∃ arguments : List Char, '\n' ∉ arguments ∧
      x = "Number".toList ++ (kind.toList ++ '(' :: (arguments ++ [')']))) := by
  have hword : ∀ w : String, Spells (.seq (lettersOf w)) (textsWith (· = w.toList)) :=
    fun w => spells_letters w.toList
  have hkind := ((hword "Int").alt_cons ((hword "Long").alt_cons
    ((hword "Decimal").alt_cons spells_alt_nil))).group (n := 3)
  have harguments : Spells (.rep (.char inLineSet) 0 none true) _ := spells_run inLineSet 0
  refine ((hword "Number").append (hkind.cons ((spells_char (.single '(')).cons
    (harguments.cons (spells_char (.single ')')).single)))).congr fun x => ?_
  simp only [Language.mem_mul, Language.mem_add, Language.notMem_zero, or_false, mem_oneOf_single,
    mem_textsWith, mem_inLineSet]
  constructor
  · rintro ⟨_, rfl, _, ⟨kind, hkind, _, ⟨_, rfl, _, ⟨arguments, ⟨-, hline⟩, _, rfl, rfl⟩, rfl⟩, rfl⟩, rfl⟩
    have hnot : '\n' ∉ arguments := fun hmem => hline _ hmem rfl
    rcases hkind with rfl | rfl | rfl
    · exact ⟨"Int", by simp, arguments, hnot, rfl⟩
    · exact ⟨"Long", by simp, arguments, hnot, rfl⟩
    · exact ⟨"Decimal", by simp, arguments, hnot, rfl⟩
  · rintro ⟨kind, hkind, arguments, hnot, rfl⟩
    have hline : ∀ c ∈ arguments, c ≠ '\n' := fun c hc heq => hnot (heq ▸ hc)
    refine ⟨_, rfl, _, ⟨kind.toList, ?_, _, ⟨['('], rfl, _, ⟨arguments, ⟨Nat.zero_le _, hline⟩,
      [')'], rfl, rfl⟩, rfl⟩, rfl⟩, rfl⟩
    simp only [List.mem_cons, List.not_mem_nil, or_false] at hkind
    rcases hkind with rfl | rfl | rfl <;> simp

theorem mem_oneOf_unquoted {x : List Char} :
    x ∈ oneOf unquotedSet ↔ ∃ c, ¬ (c = '\x27' ∨ c = '"') ∧ x = [c] := by
  simp only [oneOf, mem_textsWith, mem_unquotedSet]

/-- A text in a line matches if it has no quote at either end. -/
theorem occursIn_unquoted (htext : '\n' ∉ text) :
    (whole unquotedParts).occursIn text = true ↔ ¬ IsQuotedOrEmpty text := by
  have hrun : Spells (.rep (.char inLineSet) 0 none true) _ := spells_run inLineSet 0
  have hrest : Spells (.rep (.group 1 (.seq [.rep (.char inLineSet) 0 none true, .char unquotedSet])) 0
      (some 1) true) _ := (hrun.cons (spells_char unquotedSet).single).group.opt
  rw [whole, occursIn_whole (by decide : someIrregular [] unquotedParts = false)
    ((spells_char unquotedSet).cons hrest.single)]
  simp only [Language.mem_mul, Language.mem_add, Language.mem_one, mem_oneOf_unquoted, mem_textsWith,
    mem_inLineSet]
  rw [not_isQuotedOrEmpty_iff]
  constructor
  · rintro ⟨_, ⟨c, hc, rfl⟩, _, rfl | ⟨middle, -, _, ⟨d, hd, rfl⟩, rfl⟩, rfl⟩
    · refine ⟨List.cons_ne_nil c _, ?_, ?_⟩ <;> (rintro e ⟨⟩; exact hc)
    · refine ⟨List.cons_ne_nil c _, by rintro e ⟨⟩; exact hc, fun e he => ?_⟩
      rw [← List.append_assoc, List.getLast?_concat] at he
      exact Option.some.inj he ▸ hd
  · rintro ⟨hne, hhead, hlast⟩
    obtain ⟨c, rest, rfl⟩ := List.exists_cons_of_ne_nil hne
    refine ⟨[c], ⟨c, hhead c rfl, rfl⟩, rest, ?_, rfl⟩
    rcases List.eq_nil_or_concat' rest with rfl | ⟨middle, d, rfl⟩
    · exact .inl rfl
    · have hd := hlast d (by rw [← List.cons_append, List.getLast?_concat]; rfl)
      have hline : ∀ e ∈ middle, e ≠ '\n' := by
        rintro e he rfl
        exact htext (by simp [he])
      exact .inr ⟨middle, ⟨Nat.zero_le _, hline⟩, [d], ⟨d, hd, rfl⟩, rfl⟩

theorem occursIn_numeral : (whole (numeralParts 1)).occursIn text = true ↔ IsNumeral text :=
  occursIn_whole (by decide : someIrregular [] (numeralParts 1) = false) (spells_numeral 1)

theorem occursIn_number (htext : '\n' ∉ text) :
    (whole [.group 1 (.alt [.seq (numeralParts 2), .seq numberCallParts])]).occursIn text = true ↔
      IsNumeral text ∨ IsNumberCall text := by
  have hspells := (((spells_numeral 2).alt_cons (spells_numberCall.alt_cons spells_alt_nil)).group
    (n := 1)).single
  rw [whole, occursIn_whole (by decide : someIrregular [] _ = false) hspells]
  simp only [Language.mem_add, Language.notMem_zero, or_false, mem_textsWith]
  refine or_congr_right ⟨?_, ?_⟩
  · rintro ⟨kind, hkind, arguments, -, rfl⟩
    exact ⟨kind, hkind, arguments, rfl⟩
  · rintro ⟨kind, hkind, arguments, rfl⟩
    exact ⟨kind, hkind, arguments, fun hmem => htext (by simp [hmem]), rfl⟩

end Languages

end Pattern.Expr

/-! ## Verdicts -/

theorem ne_quote_of_isDigit {c : Char} (h : Unicode.isDigit c = true) : ¬ (c = '\x27' ∨ c = '"') := by
  rintro (rfl | rfl) <;> exact absurd h (by decide +kernel)

theorem IsDigits.ne_nil {x : List Char} (h : IsDigits x) : x ≠ [] :=
  List.ne_nil_of_length_pos h.1

/-- A number begins with its sign or a digit and ends with a digit. -/
theorem not_isQuotedOrEmpty_of_isNumeral {x : List Char} (h : IsNumeral x) : ¬ IsQuotedOrEmpty x := by
  obtain ⟨sign, whole, fraction, rfl, hsign, hwhole, hfraction⟩ := h
  have hne : whole ++ fraction ≠ [] := List.append_ne_nil_of_left_ne_nil hwhole.ne_nil _
  refine not_isQuotedOrEmpty_iff.mpr ⟨List.append_ne_nil_of_right_ne_nil _ hne, fun c hc => ?_,
    fun c hc => ?_⟩
  · rcases hsign with rfl | rfl
    · rw [List.nil_append, List.head?_append_of_ne_nil _ hwhole.ne_nil] at hc
      exact ne_quote_of_isDigit (hwhole.2 c (List.mem_of_head? hc))
    · obtain rfl : '-' = c := Option.some.inj hc
      decide
  · rw [List.getLast?_append_of_ne_nil _ hne] at hc
    rcases hfraction with rfl | ⟨digits, rfl, hdigits⟩
    · rw [List.append_nil] at hc
      exact ne_quote_of_isDigit (hwhole.2 c (List.mem_of_getLast? hc))
    · rw [← List.singleton_append, ← List.append_assoc,
        List.getLast?_append_of_ne_nil _ hdigits.ne_nil] at hc
      exact ne_quote_of_isDigit (hdigits.2 c (List.mem_of_getLast? hc))

theorem not_isQuotedOrEmpty_of_isNumberCall {x : List Char} (h : IsNumberCall x) :
    ¬ IsQuotedOrEmpty x := by
  obtain ⟨kind, -, arguments, rfl⟩ := h
  refine not_isQuotedOrEmpty_iff.mpr ⟨List.cons_ne_nil _ _, fun c hc => ?_, fun c hc => ?_⟩
  · obtain rfl : 'N' = c := Option.some.inj hc
    decide
  · rw [← List.cons_append, ← List.append_assoc, ← List.append_assoc, List.getLast?_concat] at hc
    obtain rfl : ')' = c := Option.some.inj hc
    decide

namespace RuleTable

variable {t : RuleTable} {d : Dialect} {k : ValueKind} {first second : Rule} {e e' : Pattern.Expr}

/-- Of two rules with regular patterns the first one that does not match is told. -/
theorem firstFailure?_pair (hrules : t.rules d k = [first, second])
    (hfirst : Pattern.compile? first.pattern = some (.regular e))
    (hsecond : Pattern.compile? second.pattern = some (.regular e')) (v : String) :
    (CompiledRules.ofTable t d).firstFailure? k v =
      if e.occursIn v.toList then if e'.occursIn v.toList then none else some second
      else some first := by
  have hfails : ∀ {r : Rule} {e : Pattern.Expr}, Pattern.compile? r.pattern = some (.regular e) →
      r.fails v = !e.occursIn v.toList := by
    intro r e h
    rw [Rule.fails, Rule.compile?, h]
    rfl
  rw [CompiledRules.firstFailure?_ofTable, hrules, List.find?_cons, List.find?_cons, List.find?_nil,
    hfails hfirst, hfails hsecond]
  cases e.occursIn v.toList <;> cases e'.occursIn v.toList <;> rfl

/-- A verdict is none for what is accepted, one rule for what is quoted or empty, and another rule for
all else. -/
structure Verdict (verdict : Option Rule) (accepted quoted : Prop) (quotedId otherId : String) :
    Prop where
  none_iff : verdict = none ↔ accepted
  quoted_iff : verdict.map (·.id) = some quotedId ↔ quoted
  other_iff : verdict.map (·.id) = some otherId ↔ ¬ accepted ∧ ¬ quoted

/-- Of two rules with regular patterns the first one tells what is quoted or empty, and the second one
all else that it does not accept. -/
theorem verdict_pair (hrules : t.rules d k = [first, second])
    (hfirst : Pattern.compile? first.pattern = some (.regular e))
    (hsecond : Pattern.compile? second.pattern = some (.regular e')) (hid : first.id ≠ second.id)
    {v : String} {accepted quoted : Prop} (hquoted : e.occursIn v.toList = true ↔ ¬ quoted)
    (haccepted : e'.occursIn v.toList = true ↔ accepted) (hapart : accepted → ¬ quoted) :
    Verdict ((CompiledRules.ofTable t d).firstFailure? k v) accepted quoted first.id second.id := by
  rw [firstFailure?_pair hrules hfirst hsecond]
  by_cases hq : quoted
  · have hout : e.occursIn v.toList = false := by rw [← Bool.not_eq_true, hquoted]; exact not_not.mpr hq
    rw [hout]
    have hnot : ¬ accepted := fun h => hapart h hq
    constructor <;> simp [hq, hnot, hid]
  · rw [hquoted.mpr hq]
    by_cases ha : accepted
    · rw [haccepted.mpr ha]
      constructor <;> simp [hq, ha]
    · have hout : e'.occursIn v.toList = false := by rw [← Bool.not_eq_true, haccepted]; exact ha
      rw [hout]
      constructor <;> simp [hq, ha, hid.symm]

/-- The two rules for numbers of a dialect. -/
theorem exists_number_rules : (∃ first second, builtin.rules .mysql .number = [first, second] ∧
      first.id = "2" ∧ first.pattern = r#"^[^'"](.*[^'"])?$"# ∧
      second.id = "18" ∧ second.pattern = r"^-?\d+(\.\d+)?$") ∧
    ∃ first second, builtin.rules .mongodb .number = [first, second] ∧
      first.id = "10" ∧ first.pattern = r#"^[^'"](.*[^'"])?$"# ∧
      second.id = "19" ∧
      second.pattern = r"^(-?\d+(\.\d+)?|Number(Int|Long|Decimal)\(.*\))$" :=
  ⟨⟨_, _, rfl, rfl, rfl, rfl, rfl⟩, _, _, rfl, rfl, rfl, rfl, rfl⟩

/-- The verdict on a value without a line end, by the built-in rules for numbers. -/
theorem number_rules_decide (v : String) (hv : '\n' ∉ v.toList) :
    Verdict ((CompiledRules.ofTable builtin .mysql).firstFailure? .number v)
        (IsNumeral v.toList) (IsQuotedOrEmpty v.toList) "2" "18" ∧
      Verdict ((CompiledRules.ofTable builtin .mongodb).firstFailure? .number v)
        (IsNumeral v.toList ∨ IsNumberCall v.toList) (IsQuotedOrEmpty v.toList) "10" "19" := by
  obtain ⟨⟨first, second, hrules, hid, hpattern, hid', hpattern'⟩, hmongodb⟩ := exists_number_rules
  constructor
  · rw [← hid, ← hid']
    exact verdict_pair hrules (hpattern ▸ Pattern.Expr.compile_unquoted)
      (hpattern' ▸ Pattern.Expr.compile_numeral) (by rw [hid, hid']; decide)
      (Pattern.Expr.occursIn_unquoted hv) Pattern.Expr.occursIn_numeral not_isQuotedOrEmpty_of_isNumeral
  · obtain ⟨first, second, hrules, hid, hpattern, hid', hpattern'⟩ := hmongodb
    rw [← hid, ← hid']
    exact verdict_pair hrules (hpattern ▸ Pattern.Expr.compile_unquoted)
      (hpattern' ▸ Pattern.Expr.compile_number) (by rw [hid, hid']; decide)
      (Pattern.Expr.occursIn_unquoted hv) (Pattern.Expr.occursIn_number hv) fun h =>
        h.elim not_isQuotedOrEmpty_of_isNumeral not_isQuotedOrEmpty_of_isNumberCall

theorem numbers_judged :
    '\n' ∉ "-1.5".toList ∧ '\n' ∉ "'1".toList ∧
      (CompiledRules.ofTable builtin .mysql).firstFailure? .number "-1.5" = none ∧
      ((CompiledRules.ofTable builtin .mysql).firstFailure? .number "'1").map (·.id) = some "2" ∧
      ((CompiledRules.ofTable builtin .mongodb).firstFailure? .number "'1").map (·.id) = some "10" := by
  have hplain : '\n' ∉ "-1.5".toList := by decide
  have hquoted : '\n' ∉ "'1".toList := by decide
  have hnumeral : IsNumeral "-1.5".toList :=
    ⟨['-'], ['1'], ['.', '5'], rfl, .inr rfl, ⟨by decide, List.forall_mem_singleton.mpr (by decide)⟩,
      .inr ⟨['5'], rfl, by decide, List.forall_mem_singleton.mpr (by decide)⟩⟩
  have hquote : IsQuotedOrEmpty "'1".toList := .inr (.inl ⟨'\x27', rfl, .inl rfl⟩)
  exact ⟨hplain, hquoted, (number_rules_decide _ hplain).1.none_iff.mpr hnumeral,
    (number_rules_decide _ hquoted).1.quoted_iff.mpr hquote,
    (number_rules_decide _ hquoted).2.quoted_iff.mpr hquote⟩

end RuleTable

end SchemaLint
