import Mathlib
import SchemaLint.Pattern
import SchemaLint.Proofs.Pattern.Requirement
import SchemaLint.Proofs.Rule.Compiled
import SchemaLint.Rule.Builtin

/-!
# The rules that ask for a condition

The rules for `UPDATE` and `DELETE` see a line as it stands: the word `WHERE` counts wherever it is,
in a quote or a comment too, and a `DELETE` counts only when `FROM` follows at once. A line without
the word is rejected unless it is too long for the search to come to an end.
-/

namespace SchemaLint.Pattern

open Pattern.Config (between)

/-- Any number of blanks. -/
def blankRun : Program :=
  .rep (.char .blank) 0 none true false

/-- At least one blank. -/
def blankRun1 : Program :=
  .rep (.char .blank) 1 none true false

/-- A word with an edge after it. -/
def wordAndEdge (w : String) : List Program :=
  letters w ++ [.anchor .wordEdge]

/-- The beginning of an `UPDATE`. -/
def updateHead : List Program :=
  blankRun :: wordAndEdge "UPDATE"

/-- The beginning of a plain `DELETE`. -/
def deleteHead : List Program :=
  blankRun :: (letters "DELETE" ++ blankRun1 :: wordAndEdge "FROM")

variable {k n e r : Nat} {stack : List Config} {o : Option Config} {c : Config} {todo : List Task}
  {w : String} {line verb gap tail v a b : List Char} {g d : Char}

/-! ## Blanks -/

theorem Ends.of_no_blank (h : a.head?.any Text.isBlank = false)
    (hr : Ends k (between todo b a) stack r o) :
    Ends (k + 2) (between (.run blankRun :: todo) b a) stack (r + 1) o := by
  have hloop : Ends (k + 2)
      (between (.again (.char .blank) 0 none true false 0 none :: todo) b ([] ++ a)) stack (r + 1) o :=
    .of_loop (Nat.le_refl 0) (fun _ h => absurd h List.not_mem_nil) h hr
  exact .of_rep hloop

/-- A run of blanks is passed whole, and a shorter one fails before a letter. -/
theorem Ends.of_blankRun1 (hgap : ∀ c ∈ g :: gap, Text.isBlank c = true)
    (htail : tail.head?.any Text.isBlank = false)
    (h : Ends k (between todo ((g :: gap).reverse ++ b) tail) (rungs todo tail (g :: b) gap stack) r
      o) :
    Ends (k + 2 * gap.length + 4) (between (.run blankRun1 :: todo) b (g :: gap ++ tail)) stack
      (r + 1) o := by
  have hloop : Ends (k + 2 * gap.length + 2)
      (between (.again (.char .blank) 1 none true false 1 none :: todo) (g :: b) (gap ++ tail)) stack
      (r + 1) o :=
    .of_loop (Nat.le_refl 1) (fun c hc => hgap c (List.mem_cons_of_mem g hc)) htail
      (by simpa using h)
  exact .of_rep_once (hgap g List.mem_cons_self) hloop

theorem toLower_ne_of_isBlank {l : Char} (hl : Unicode.IsPlainLetter l)
    (hg : Text.isBlank g = true) : g.toLower ≠ l.toLower := by
  intro h
  have hword := Unicode.isWord_of_toLower (h ▸ hl.isAlpha_toLower)
  rw [Unicode.isWord_of_isBlank hg] at hword
  exact Bool.false_ne_true hword

theorem fails_letter_of_isBlank {l : Char} (hl : Unicode.IsPlainLetter l)
    (hg : Text.isBlank g = true) : Fails 1 0 (.run (letter l) :: todo) b (g :: a) := by
  refine fails_char ?_
  rw [List.head?_cons, Option.any_some, CharSet.mem_folded_single hl]
  exact beq_false_of_ne (toLower_ne_of_isBlank hl hg)

/-! ## Letters -/

theorem plain_where : ∀ l ∈ "WHERE".toList, Unicode.IsPlainLetter l :=
  Unicode.plain_of_all (by decide)

theorem plain_update : ∀ l ∈ "UPDATE".toList, Unicode.IsPlainLetter l :=
  Unicode.plain_of_all (by decide)

theorem plain_delete : ∀ l ∈ "DELETE".toList, Unicode.IsPlainLetter l :=
  Unicode.plain_of_all (by decide)

theorem plain_from : ∀ l ∈ "FROM".toList, Unicode.IsPlainLetter l :=
  Unicode.plain_of_all (by decide)

/-- A word before a blank is passed up to the edge after it. -/
theorem walk_before_blank (hw : ∀ l ∈ w.toList, Unicode.IsPlainLetter l) (hne : w.toList ≠ [])
    (h : Text.lower v = Text.lower w.toList) (hg : Text.isBlank g = true) :
    walk (wordAndEdge w) b (v ++ g :: a) = some (v.reverse ++ b, g :: a) := by
  have hafter := isAfterWord_of_startsIgnoringCase (b := b) (a := v ++ g :: a) hw hne
    (Text.startsIgnoringCase_append h)
  rw [← Text.length_eq_of_lower h, List.take_left] at hafter
  rw [wordAndEdge, letters, walk_letters_append hw h, walk, holds_wordEdge, hafter, List.head?_cons,
    Option.any_some, Unicode.isWord_of_isBlank hg]
  rfl

theorem toLower_ne_of_lower {l : Char} (h : Text.lower v = Text.lower w.toList)
    (hl : (Text.lower w.toList).all (· != l) = true) : ∀ c ∈ v, c.toLower ≠ l := by
  intro c hc
  have hmem : c.toLower ∈ Text.lower w.toList := h ▸ List.mem_map_of_mem hc
  exact bne_iff_ne.mp (List.all_eq_true.mp hl _ hmem)

theorem head_not_blank (hw : ∀ l ∈ w.toList, Unicode.IsPlainLetter l) (hne : w.toList ≠ [])
    (h : Text.lower v = Text.lower w.toList) : (v ++ a).head?.any Text.isBlank = false := by
  have hword := isBeforeWord_of_startsIgnoringCase (a := v ++ a) hw hne (Text.startsIgnoringCase_append h)
  cases hc : (v ++ a).head? with
  | none => rfl
  | some c =>
    rw [hc, Option.any_some] at hword
    rw [Option.any_some, Bool.eq_false_iff]
    intro hb
    rw [Unicode.isWord_of_isBlank hb] at hword
    exact Bool.false_ne_true hword

theorem wordCost_where : wordCost "WHERE" = 12 := rfl

/-- The fuel of a search is far above what a rule needs. -/
theorem fuel_le (n : Nat) : 40 * (n + 2) ≤ maxReturns * (n + 2) :=
  Nat.mul_le_mul_right (n + 2) (by decide)

/-! ## `UPDATE` -/

theorem reaches_update :
    Reaches 1 [.run (.seq (updateHead ++ [lacking "WHERE"]))] b a
      (.run blankRun :: ((wordAndEdge "UPDATE").map .run ++ [.run (lacking "WHERE")])) b a :=
  reaches_seq (by simp [updateHead])

section Update

variable (hverb : Text.lower verb = Text.lower "UPDATE".toList) (hg : Text.isBlank g = true)

include hverb hg

/-- Behind its verb an `UPDATE` is searched for the word from there on. -/
theorem Ends.of_update (h : Ends k (between [.run (lacking "WHERE")] verb.reverse (g :: a)) [] r o) :
    Ends (k + 10) (between [.run (.seq (updateHead ++ [lacking "WHERE"]))] [] (verb ++ g :: a)) []
      (r + 1) o := by
  have hblank := head_not_blank (a := g :: a) plain_update (by simp) hverb
  have hwalk := walk_before_blank (b := []) (a := a) plain_update (by simp) hverb hg
  rw [List.append_nil] at hwalk
  have hletters := reaches_of_walk rfl (by decide) hwalk _ _ _ _ h
  exact reaches_update _ _ _ _ (.of_no_blank hblank hletters)

omit hg in
theorem hasWord_update :
    hasWord "WHERE" (verb ++ a) = somewhere (isWordAt "WHERE") verb.reverse.head? a := by
  have hskip : somewhere (isWordAt "WHERE") none (verb ++ a) =
      somewhere (isWordAt "WHERE") (verb.reverse ++ []).head? a :=
    somewhere_append rfl verb [] (toLower_ne_of_lower hverb (by decide))
  rwa [List.append_nil] at hskip

/-- An `UPDATE` without the word is rejected while the search comes to an end. -/
theorem accepts_update (hnl : '\n' ∉ verb ++ g :: a) :
    (requirement updateHead "WHERE").accepts (verb ++ g :: a) =
      (hasWord "WHERE" (verb ++ g :: a) ||
        decide (maxReturns < 2 * (verb ++ g :: a).length - 2)) := by
  have hlen : verb.length = 6 := Text.length_eq_of_lower hverb
  have hnl' : '\n' ∉ g :: a := fun h => hnl (List.mem_append_right verb h)
  rw [hasWord_update hverb]
  cases hword : somewhere (isWordAt "WHERE") verb.reverse.head? (g :: a) with
  | true =>
    obtain ⟨e, he⟩ := exists_fails_lacking plain_where (by simp) hnl' hword
    have hbody := Ends.of_update hverb hg (he _ _ _ _ .nil)
    obtain ⟨r, d, hends⟩ := ends_of_observance hnl hbody
    refine accepts_of_find (Nat.le_trans ?_ (fuel_le _)) hends
    simp only [wordCost_where, List.length_append, List.length_cons, hlen]
    omega
  | false =>
    have hdone : Ends 1 (between [] verb.reverse (g :: a)) [] 0 _ := .found rfl
    have hlack := Ends.of_lacking plain_where (by simp) hnl' hword hdone
    have hends := ends_of_violation (Ends.of_update hverb hg hlack)
    rw [Bool.false_or, accepts_of_none (Nat.le_trans ?_ (fuel_le _)) hends]
    · congr 2
      simp only [List.length_append, List.length_cons, hlen]
      omega
    · simp only [wordCost_where, List.length_append, List.length_cons, hlen]
      omega

end Update

/-! ## `DELETE` -/

/-- What a plain `DELETE` is searched for behind the blanks after its verb. -/
def fromTasks : List Task :=
  (wordAndEdge "FROM").map .run ++ [.run (lacking "WHERE")]

theorem reaches_delete :
    Reaches 1 [.run (.seq (deleteHead ++ [lacking "WHERE"]))] b a
      (.run blankRun :: ((letters "DELETE").map .run ++ .run blankRun1 :: fromTasks)) b a :=
  reaches_seq (by simp [deleteHead, fromTasks])

section Delete

variable (hverb : Text.lower verb = Text.lower "DELETE".toList)
  (hgap : ∀ c ∈ g :: gap, Text.isBlank c = true)

include hgap in
/-- Behind fewer blanks than there are no `FROM` stands. -/
theorem resumes_rungs_from :
    Resumes gap.length (rungs fromTasks tail (g :: b) gap []) gap.length none := by
  have hrung : ∀ u c v, gap = u ++ c :: v →
      Fails 1 0 fromTasks (u.reverse ++ g :: b) (c :: v ++ tail) := by
    intro u c v huv
    refine fails_letter_of_isBlank (l := 'F') (by decide) (hgap c ?_)
    rw [huv]
    simp
  have hrungs := Resumes.of_rungs hrung .nil
  rwa [Nat.one_mul, Nat.zero_add] at hrungs

include hverb hgap

theorem Ends.of_delete (htail : tail.head?.any Text.isBlank = false)
    (h : Ends k (between fromTasks ((g :: gap).reverse ++ verb.reverse) tail)
      (rungs fromTasks tail (g :: verb.reverse) gap []) r o) :
    Ends (k + 2 * gap.length + 13)
      (between [.run (.seq (deleteHead ++ [lacking "WHERE"]))] [] (verb ++ (g :: gap ++ tail))) []
      (r + 2) o := by
  have hblank := head_not_blank (a := g :: gap ++ tail) plain_delete (by simp) hverb
  have hwalk : walk (letters "DELETE") [] (verb ++ (g :: gap ++ tail)) =
      some (verb.reverse, g :: gap ++ tail) := by
    have hletters : walk (letters "DELETE" ++ []) [] (verb ++ (g :: gap ++ tail)) =
        walk [] (verb.reverse ++ []) (g :: gap ++ tail) :=
      walk_letters_append plain_delete hverb
    rwa [List.append_nil, List.append_nil, walk] at hletters
  have hgap := Ends.of_blankRun1 hgap htail h
  have hletters := reaches_of_walk rfl (by decide) hwalk _ _ _ _ hgap
  exact reaches_delete _ _ _ _ (.of_no_blank hblank hletters)

/-- What comes to nothing behind the blanks is no plain `DELETE`, or has the word. -/
theorem accepts_of_fails (hnl : '\n' ∉ verb ++ (g :: gap ++ tail))
    (htail : tail.head?.any Text.isBlank = false)
    (hn : n ≤ 12 * (tail.length + 2) + 5)
    (hf : Fails n e fromTasks ((g :: gap).reverse ++ verb.reverse) tail) :
    (requirement deleteHead "WHERE").accepts (verb ++ (g :: gap ++ tail)) = true := by
  have hrungs : Resumes gap.length (rungs fromTasks tail (g :: verb.reverse) gap []) gap.length
      none :=
    resumes_rungs_from hgap
  have htop := hf _ _ _ _ hrungs
  obtain ⟨r, d, hends⟩ := ends_of_observance hnl (Ends.of_delete hverb hgap htail htop)
  refine accepts_of_find (Nat.le_trans ?_ (fuel_le _)) hends
  simp only [List.length_append, List.length_cons]
  omega

/-- A `DELETE` with a modifier before `FROM` is not looked at. -/
theorem accepts_delete_modified (hnl : '\n' ∉ verb ++ (g :: gap ++ tail))
    (htail : tail.head?.any Text.isBlank = false)
    (hfrom : Text.startsIgnoringCase "FROM".toList tail = false) :
    (requirement deleteHead "WHERE").accepts (verb ++ (g :: gap ++ tail)) = true := by
  have hwalk : walk (wordAndEdge "FROM") ((g :: gap).reverse ++ verb.reverse) tail = none := by
    rw [wordAndEdge, letters, walk_letters plain_from, hfrom]
    rfl
  exact accepts_of_fails hverb hgap hnl htail (Nat.le_add_left 5 _)
    (fails_of_walk rfl (by decide) hwalk)

theorem hasWord_delete (hfrom : Text.lower v = Text.lower "FROM".toList) :
    hasWord "WHERE" (verb ++ (g :: gap ++ (v ++ a))) =
      somewhere (isWordAt "WHERE") (v.reverse ++ ((g :: gap).reverse ++ verb.reverse)).head? a := by
  have hskip : somewhere (isWordAt "WHERE") none (verb ++ g :: gap ++ v ++ a) =
      somewhere (isWordAt "WHERE") ((verb ++ g :: gap ++ v).reverse ++ []).head? a := by
    refine somewhere_append rfl _ [] fun c hc => ?_
    rcases List.mem_append.mp hc with hc | hc
    · rcases List.mem_append.mp hc with hc | hc
      · exact toLower_ne_of_lower hverb (by decide) c hc
      · exact toLower_ne_of_isBlank (by decide) (hgap c hc)
    · exact toLower_ne_of_lower hfrom (by decide) c hc
  simpa [hasWord] using hskip

/-- A plain `DELETE` without the word is rejected while the search comes to an end. -/
theorem accepts_delete (hfrom : Text.lower v = Text.lower "FROM".toList)
    (hd : Text.isBlank d = true) (hnl : '\n' ∉ verb ++ (g :: gap ++ (v ++ d :: a))) :
    (requirement deleteHead "WHERE").accepts (verb ++ (g :: gap ++ (v ++ d :: a))) =
      (hasWord "WHERE" (verb ++ (g :: gap ++ (v ++ d :: a))) ||
        decide (maxReturns <
          2 * (verb ++ (g :: gap ++ (v ++ d :: a))).length - (g :: gap).length - 5)) := by
  have hlen : verb.length = 6 := Text.length_eq_of_lower hverb
  have hlen' : v.length = 4 := Text.length_eq_of_lower hfrom
  have htail := head_not_blank (a := d :: a) plain_from (by simp) hfrom
  have hnl' : '\n' ∉ d :: a :=
    fun h => hnl (List.mem_append_right _ (List.mem_append_right _ (List.mem_append_right _ h)))
  have hreach : Reaches 5 fromTasks ((g :: gap).reverse ++ verb.reverse) (v ++ d :: a)
      [.run (lacking "WHERE")] (v.reverse ++ ((g :: gap).reverse ++ verb.reverse)) (d :: a) :=
    reaches_of_walk rfl (by decide) (walk_before_blank plain_from (by simp) hfrom hd)
  rw [hasWord_delete hverb hgap hfrom]
  cases hword : somewhere (isWordAt "WHERE")
      (v.reverse ++ ((g :: gap).reverse ++ verb.reverse)).head? (d :: a) with
  | true =>
    obtain ⟨e, he⟩ := exists_fails_lacking plain_where (by simp) hnl' hword
    refine accepts_of_fails hverb hgap hnl htail ?_ (hreach.fails he)
    simp only [wordCost_where, List.length_append, List.length_cons, hlen']
    omega
  | false =>
    have hdone : ∀ stack, Ends 1 (between [] (v.reverse ++ ((g :: gap).reverse ++ verb.reverse))
      (d :: a)) stack 0 _ := fun _ => .found rfl
    have hlack := fun stack => Ends.of_lacking plain_where (by simp) hnl' hword (hdone stack)
    have hends := ends_of_violation (Ends.of_delete hverb hgap htail (hreach _ _ _ _ (hlack _)))
    rw [Bool.false_or, accepts_of_none (Nat.le_trans ?_ (fuel_le _)) hends]
    · congr 2
      simp only [List.length_append, List.length_cons, hlen, hlen']
      omega
    · simp only [wordCost_where, List.length_append, List.length_cons, hlen, hlen']
      omega

end Delete

/-! ## The rules -/

set_option maxRecDepth 100000 in
theorem compile_update :
    compile? r"(?i)^(?!\s*UPDATE\b(?!.*\bWHERE\b)).*$" =
      some (.stepwise (requirement updateHead "WHERE")) := by
  cbv

set_option maxRecDepth 100000 in
theorem compile_delete :
    compile? r"(?i)^(?!\s*DELETE\s+FROM\b(?!.*\bWHERE\b)).*$" =
      some (.stepwise (requirement deleteHead "WHERE")) := by
  cbv

end SchemaLint.Pattern

namespace SchemaLint.RuleTable

open Pattern (requirement updateHead deleteHead)

/-- The rule for `UPDATE` is the only one of its id. -/
theorem compile?_of_id_update {r : Rule} (hr : r ∈ sqlRules .line) (hid : r.id = "6") :
    Pattern.compile? r.pattern = some (.stepwise (requirement updateHead "WHERE")) := by
  simp only [sqlRules, List.mem_cons, List.not_mem_nil, or_false] at hr
  rcases hr with rfl | rfl | rfl | rfl
  · exact absurd hid (by decide)
  · exact Pattern.compile_update
  · exact absurd hid (by decide)
  · exact absurd hid (by decide)

/-- The rule for `DELETE` is the only one of its id. -/
theorem compile?_of_id_delete {r : Rule} (hr : r ∈ sqlRules .line) (hid : r.id = "7") :
    Pattern.compile? r.pattern = some (.stepwise (requirement deleteHead "WHERE")) := by
  simp only [sqlRules, List.mem_cons, List.not_mem_nil, or_false] at hr
  rcases hr with rfl | rfl | rfl | rfl
  · exact absurd hid (by decide)
  · exact absurd hid (by decide)
  · exact Pattern.compile_delete
  · exact absurd hid (by decide)

/-- A line fails a rule of the built-in table as its pattern says. -/
theorem exists_lineFailure_iff {id : String} {p : Pattern.Program} {line : String}
    (hex : ∃ r ∈ sqlRules .line, r.id = id)
    (hp : ∀ r ∈ sqlRules .line, r.id = id → Pattern.compile? r.pattern = some (.stepwise p)) :
    (∃ r ∈ (CompiledRules.ofTable builtin .mysql).lineFailures line, r.id = id) ↔
      p.accepts line.toList = false := by
  constructor
  · rintro ⟨r, hr, hid⟩
    obtain ⟨hmem, q, hq, hfail⟩ := CompiledRules.mem_lineFailures.mp hr
    rw [hp r hmem hid] at hq
    obtain rfl := Option.some.inj hq
    exact hfail
  · intro hfail
    obtain ⟨r, hr, hid⟩ := hex
    exact ⟨r, CompiledRules.mem_lineFailures.mpr ⟨hr, _, hp r hr hid, hfail⟩, hid⟩

end SchemaLint.RuleTable
