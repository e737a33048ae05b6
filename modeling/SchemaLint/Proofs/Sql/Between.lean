import SchemaLint.Proofs.Sql.Column
import SchemaLint.Proofs.Sql.Joined

/-!
# Conditions with two bounds

`column [NOT] BETWEEN low AND high` is cut twice. A clause keeps it in one piece whatever stands in
its bounds, as they are numbers or quoted texts (`Between.piece`). The reader of the condition then
looks for an `AND` between blanks and takes the first one, in a quoted text as well. So the bounds are
recorded as they are written if and only if the low one has no such `AND` in it
(`Between.clauseMentions_between_iff`).
-/

namespace SchemaLint.Sql

open Form Nesting Text

/-! ## Bounds -/

/-- A bound as it is written. -/
inductive Bound where
  /-- A number: digits with signs, a point and an exponent. -/
  | number (text : List Char) (head : ∃ c ∈ text.head?, isDecimalChar c = true)
      (chars : ∀ c ∈ text, Shell.isNumberChar c = true)
  /-- A text by what it says. -/
  | string (contents : List Char)

/-- An `AND` stands between blanks in the text. -/
def HasSpacedAnd (s : List Char) : Prop :=
  ∃ x b, ∃ k : Cased "AND", ∃ b' y, isBlank b = true ∧ isBlank b' = true ∧
    s = x ++ b :: (k.text ++ b' :: y)

/-- A letter that `AND` or `OR` begins with. -/
def beginsConnective (c : Char) : Bool :=
  c.toLower == 'a' || c.toLower == 'o'

theorem needs_connectiveAt : connectiveAt.Needs beginsConnective := by
  intro before c r h
  rcases Bool.or_eq_true_iff.mp h with h | h <;>
    simp only [isKeywordAt, Bool.and_eq_true] at h
  · have hstart : ('A'.toLower == c.toLower) = true := (Bool.and_eq_true_iff.mp h.1.1).1
    simp [beginsConnective, ← beq_iff_eq.mp hstart]
  · have hstart : ('O'.toLower == c.toLower) = true := (Bool.and_eq_true_iff.mp h.1.1).1
    simp [beginsConnective, ← beq_iff_eq.mp hstart]

theorem beginsConnective_numberChar {c : Char} (h : Shell.isNumberChar c = true) :
    beginsConnective c = false :=
  forall_ascii (P := fun c => Shell.isNumberChar c = true → beginsConnective c = false)
    (by decide +kernel) (Shell.toNat_lt_of_isNumberChar h) h

namespace Bound

variable (v : Bound)

def text : Bound → List Char
  | number text _ _ => text
  | string contents => '\x27' :: (doubled contents ++ ['\x27'])

theorem isItem : Shell.IsItem v.text := by
  cases v with
  | number text head chars =>
    refine Shell.isItem_of_word (fun c hc => Shell.isWordChar_of_isNumberChar (chars c hc)) ?_
    rintro rfl
    obtain ⟨c, hc, -⟩ := head
    cases hc
  | string contents => exact Shell.isItem_of_staysQuoted rfl (staysQuoted_doubled contents)

theorem head?_text : ∀ c ∈ v.text.head?, isNameStart c = false ∧ (c == '\x60') = false := by
  cases v with
  | number text head chars =>
    obtain ⟨d, hd, hdecimal⟩ := head
    intro c hc
    obtain rfl : d = c := Option.some.inj (hd.symm.trans hc)
    exact isNameStart_of_isDecimalChar hdecimal
  | string contents =>
    rintro c ⟨⟩
    decide

theorem mention (field : String) :
    valueMention field v.text = .assign field (String.ofList v.text) :=
  valueMention_of_head v.head?_text field v.isItem.trimmed.trim_eq

/-- No connective is seen in a bound. -/
theorem skips : connectiveAt.Skips v.text := by
  refine ⟨v.isItem.balanced.after_eq 0, firstCut?_eq_none needs_connectiveAt ?_⟩
  cases v with
  | number text head chars => exact .of_forall fun c hc => beginsConnective_numberChar (chars c hc)
  | string contents => exact .of_staysQuoted rfl (staysQuoted_doubled contents)

/-- An `AND` between blanks that begins in a bound ends in it. -/
theorem hasSpacedAnd_of_split {x z t g g' r : List Char} (hsplit : v.text = x ++ z) (hz : z ≠ [])
    (k : Cased "AND") (hg : ∀ c ∈ g, isBlank c = true) (hgne : g ≠ [])
    (hg' : ∀ c ∈ g', isBlank c = true) (hgne' : g' ≠ []) (h : z ++ t = g ++ (k.text ++ (g' ++ r))) :
    HasSpacedAnd v.text := by
  obtain ⟨b', g', rfl⟩ := List.exists_cons_of_ne_nil hgne'
  have hb' : isBlank b' = true := hg' b' List.mem_cons_self
  have hshape : z ++ t = (g ++ (k.text ++ [b'])) ++ (g' ++ r) := by
    rw [h]
    simp
  cases v with
  | number text head chars =>
    -- A number has no blanks at all.
    obtain ⟨c, z, rfl⟩ := List.exists_cons_of_ne_nil hz
    obtain ⟨b, g, rfl⟩ := List.exists_cons_of_ne_nil hgne
    obtain ⟨rfl, -⟩ := List.cons.inj hshape
    have hc : c ∈ text := by
      rw [show text = x ++ c :: z from hsplit]
      simp
    have hplain := Shell.isWordChar_of_isNumberChar (chars c hc)
    rw [Shell.isWordChar, hg c List.mem_cons_self] at hplain
    simp at hplain
  | string contents =>
    rcases List.append_eq_append_iff.mp hshape with ⟨w, hw, -⟩ | ⟨w, rfl, -⟩
    · -- The quote behind the text would be a blank or a letter of the word.
      exfalso
      have hquote : '\x27' ∈ g ++ (k.text ++ [b']) := by
        have hlast : (text (string contents)).getLast? = some '\x27' := by
          rw [text, ← List.cons_append, List.getLast?_concat]
        rw [hsplit, List.getLast?_append_of_ne_nil _ hz] at hlast
        rw [hw]
        exact List.mem_append_left _ (List.mem_of_getLast? hlast)
      rcases List.mem_append.mp hquote with hc | hc
      · exact absurd (hg _ hc) (by decide)
      · rcases List.mem_append.mp hc with hc | hc
        · exact absurd (k.isIdentChar_of_mem (by decide) _ hc) (by decide)
        · rw [← List.mem_singleton.mp hc] at hb'
          exact absurd hb' (by decide)
    · rcases List.eq_nil_or_concat g with rfl | ⟨g, b, rfl⟩
      · exact absurd rfl hgne
      · exact ⟨x ++ g, b, k, b', w, hg b (by simp), hb', by rw [hsplit]; simp⟩

end Bound

/-! ## Reading bounds -/

/-- Reads the bounds behind `BETWEEN`. -/
def boundsForm (column : List Char) : Form Condition := do
  let low ← fewest1 fun _ => true
  let _ ← blanks1 ++ word "AND" ++ blanks1
  return .between column low (← rest1)

/-- Reads the rest of a condition behind its low bound. -/
def highForm (column low : List Char) : Form Condition := do
  let _ ← blanks1 ++ word "AND" ++ blanks1
  return .between column low (← rest1)

theorem mem_highForm {column low s r : List Char} {c : Condition}
    (h : (c, r) ∈ highForm column low s) : ∃ high, c = .between column low high ∧
      ∃ g, ∃ k : Cased "AND", ∃ g' t, s = g ++ (k.text ++ (g' ++ t)) ∧
        (∀ c ∈ g, isBlank c = true) ∧ g ≠ [] ∧ (∀ c ∈ g', isBlank c = true) ∧ g' ≠ [] := by
  obtain ⟨z, t, hz, h⟩ := mem_bind.mp h
  obtain ⟨high, u, hhigh, h⟩ := mem_bind.mp h
  obtain ⟨rfl, rfl⟩ := mem_pure.mp h
  obtain ⟨y, g', t', hy, hg', rfl⟩ := mem_append.mp hz
  obtain ⟨g, k, t'', hg, hk, rfl⟩ := mem_append.mp hy
  obtain ⟨rfl, hgne, hgblank⟩ := mem_run1 hg
  obtain ⟨rfl, hlower⟩ := mem_folded (Unicode.plain_of_all (by decide)) hk
  obtain ⟨rfl, hgne', hgblank'⟩ := mem_run1 hg'
  exact ⟨high, rfl, g, ⟨k, hlower⟩, g', t, rfl, hgblank, hgne, hgblank', hgne'⟩

theorem only_highForm (column low : List Char) (k : Cased "AND") {w : List Char} (hne : w ≠ [])
    (hw : ∀ c ∈ w.head?, isBlank c = false) :
    Only (highForm column low) (' ' :: (k.text ++ ' ' :: w)) (.between column low w) [] := by
  have hbefore : Only blanks1 (' ' :: (k.text ++ ' ' :: w)) [' '] (k.text ++ ' ' :: w) :=
    .blanks1 fun c hc => (head?_keyword k (by decide) _ c hc).1
  have hand := (hbefore.append (k.only_word (by decide))).append (Only.blanks1 hw)
  have hrest : rest1 w = [(w, [])] := by
    rw [rest1, if_neg (by simpa using hne)]
  unfold highForm
  rw [Only, hand.bind_eq, bind_apply, hrest, List.flatMap_singleton]
  rfl

theorem highForm_ne_nil (column low : List Char) {b b' : Char} (hb : isBlank b = true)
    (hb' : isBlank b' = true) (k : Cased "AND") {t : List Char} (ht : t ≠ []) :
    highForm column low (b :: (k.text ++ b' :: t)) ≠ [] := by
  have hgap : ∀ {b : Char} (s : List Char), isBlank b = true → ([b], s) ∈ blanks1 (b :: s) :=
    fun {b} s hb => mem_append.mpr ⟨[b], [], s, mem_char.mpr ⟨b, hb, rfl, rfl⟩, mem_run_nil s, rfl⟩
  have hword : (k.text, b' :: t) ∈ word "AND" (k.text ++ b' :: t) := by
    rw [k.only_word (by decide)]
    exact List.mem_singleton_self _
  have hand : ([b] ++ k.text ++ [b'], t) ∈ (blanks1 ++ word "AND" ++ blanks1) (b :: (k.text ++ b' :: t)) :=
    mem_append.mpr ⟨_, [b'], b' :: t, mem_append.mpr ⟨[b], k.text, _, hgap _ hb, hword, rfl⟩,
      hgap t hb', rfl⟩
  have hrest : (t, []) ∈ rest1 t := by
    rw [rest1, if_neg (by simpa using ht)]
    exact List.mem_singleton_self _
  exact List.ne_nil_of_mem (mem_bind.mpr ⟨_, t, hand, mem_bind.mpr
    ⟨t, [], hrest, mem_pure.mpr ⟨rfl, rfl⟩⟩⟩)

/-- The low bound ends at the first place where an `AND` between blanks follows. -/
theorem prefers_boundsForm (column : List Char) {c : Char} {x r : List Char}
    (h : highForm column (c :: x) r ≠ []) :
    ∃ y z high t, x ++ r = y ++ z ∧ y.length ≤ x.length ∧
      (.between column (c :: y) high, t) ∈ highForm column (c :: y) z ∧
      Prefers (boundsForm column) (c :: (x ++ r)) (.between column (c :: y) high) t := by
  obtain ⟨y, z, b, t, hsplit, hlen, hmem, hprefers⟩ :=
    prefers_fewest_bind (p := fun _ => true) (g := fun y => highForm column (c :: y)) (x := x)
      (fun _ _ => rfl) h
  obtain ⟨high, rfl, -⟩ := mem_highForm hmem
  refine ⟨y, z, high, t, hsplit, hlen, hmem, ?_⟩
  have hform : boundsForm column = (char (fun _ => true) ++ fewest fun _ => true) >>= highForm column :=
    rfl
  have hchar : Only (char fun _ => true) (c :: (x ++ r)) [c] (x ++ r) := .char rfl
  rw [hform, append_bind, Prefers, hchar.bind_eq]
  exact hprefers

section Bounds

variable (column : List Char) (v w : Bound) (k : Cased "AND")

theorem prefers_bounds (h : ¬ HasSpacedAnd v.text) :
    Prefers (boundsForm column) (v.text ++ ' ' :: (k.text ++ ' ' :: w.text))
      (.between column v.text w.text) [] := by
  obtain ⟨c, x, hcons⟩ := List.exists_cons_of_ne_nil v.isItem.ne_nil
  have hhigh := only_highForm column (c :: x) k w.isItem.ne_nil w.isItem.trimmed.head
  obtain ⟨y, z, high, t, hsplit, hlen, hmem, hprefers⟩ := prefers_boundsForm column (c := c) (x := x)
    (r := ' ' :: (k.text ++ ' ' :: w.text)) (by rw [hhigh]; exact List.cons_ne_nil _ _)
  obtain ⟨x', rfl, rfl⟩ : ∃ x', x = y ++ x' ∧ z = x' ++ ' ' :: (k.text ++ ' ' :: w.text) := by
    rcases List.append_eq_append_iff.mp hsplit with ⟨u, rfl, hu⟩ | ⟨u, hu, hz⟩
    · obtain rfl : u = [] := by
        rw [List.length_append] at hlen
        exact List.eq_nil_of_length_eq_zero (by omega)
      exact ⟨[], by simp, by simpa using hu.symm⟩
    · exact ⟨u, hu, hz⟩
  rw [hcons, List.cons_append]
  by_cases hx' : x' = []
  · subst hx'
    rw [List.append_nil] at hhigh hprefers ⊢
    rw [List.nil_append, hhigh, List.mem_singleton, Prod.mk.injEq] at hmem
    obtain ⟨heq, rfl⟩ := hmem
    rwa [heq] at hprefers
  · -- A shorter low bound would end at an `AND` in the bound.
    obtain ⟨-, -, g, k', g', s, hs, hg, hgne, hg', hgne'⟩ := mem_highForm hmem
    have hv : v.text = (c :: y) ++ x' := hcons
    exact absurd (v.hasSpacedAnd_of_split hv hx' k' hg hgne hg' hgne' hs) h

/-- An `AND` between blanks in the low bound cuts it off. -/
theorem prefers_cut_bound (h : HasSpacedAnd v.text) :
    ∃ low high t, Prefers (boundsForm column) (v.text ++ ' ' :: (k.text ++ ' ' :: w.text))
      (.between column low high) t ∧ low ≠ [] ∧ low <+: v.text ∧ low.length < v.text.length := by
  obtain ⟨x, b, k', b', y, hb, hb', hsplit⟩ := h
  cases x with
  | nil =>
    rw [List.nil_append] at hsplit
    have := v.isItem.trimmed.head b (by rw [hsplit]; rfl)
    rw [hb] at this
    cases this
  | cons c x =>
    set r := b :: (k'.text ++ b' :: (y ++ ' ' :: (k.text ++ ' ' :: w.text))) with hr
    have hshape : v.text ++ ' ' :: (k.text ++ ' ' :: w.text) = c :: (x ++ r) := by
      rw [hsplit, hr]
      simp
    obtain ⟨low, z, high, t, hcut, hlen, -, hprefers⟩ := prefers_boundsForm column (c := c) (x := x)
      (r := r) (highForm_ne_nil column _ hb hb' k' (by simp))
    have hlow : low <+: x := List.prefix_of_prefix_length_le ⟨z, hcut.symm⟩ ⟨r, rfl⟩ hlen
    obtain ⟨x', rfl⟩ := hlow
    refine ⟨c :: low, high, t, hshape ▸ hprefers, List.cons_ne_nil _ _, ?_, ?_⟩
    · exact ⟨x' ++ b :: (k'.text ++ b' :: y), by rw [hsplit]; simp⟩
    · rw [hsplit]
      simp only [List.length_append, List.length_cons]
      omega

end Bounds

/-! ## Conditions with two bounds -/

theorem eq_space_of_toLower {c : Char} (h : c.toLower = ' ') : c = ' ' := by
  by_cases hc : c.toNat < 128
  · exact forall_ascii (P := fun c => c.toLower = ' ' → c = ' ') (by decide +kernel) hc h
  · rwa [Unicode.toLower_of_le (Nat.not_lt.mp hc)] at h

/-- A column that shows no connective and is not the word `NOT`. -/
structure Column extends Reference where
  and_free : hasKeyword "AND" toReference.text = false
  or_free : hasKeyword "OR" toReference.text = false
  not_negation : lower toReference.text ≠ lower "NOT".toList

namespace Column

variable (c : Column)

theorem skips : connectiveAt.Skips c.text :=
  skips_connectiveAt (c.balanced.after_eq 0) c.and_free c.or_free

/-- A column has no blank that could stand behind `NOT`. -/
theorem not_startsNot (r : List Char) :
    startsIgnoringCase ['n', 'o', 't', ' '] (c.text ++ ' ' :: r) = false := by
  have hblank := c.not_blank_of_mem
  have hne := c.not_negation
  rw [← Bool.not_eq_true]
  intro h
  rcases htext : c.text with _ | ⟨a, _ | ⟨b, _ | ⟨d, _ | ⟨e, s⟩⟩⟩⟩ <;> rw [htext] at h hblank hne
  case cons.cons.cons.cons =>
    have he : ' ' = e.toLower := by
      simp only [startsIgnoringCase, List.cons_append, Bool.and_eq_true, beq_iff_eq] at h
      exact h.2.2.2.1
    have hspace := hblank e (by simp)
    rw [eq_space_of_toLower he.symm] at hspace
    cases hspace
  all_goals simp [startsIgnoringCase, lower] at h hne
  exact hne h.1.symm h.2.1.symm h.2.2.symm

end Column

/-- `column [NOT] BETWEEN low AND high`. -/
structure Between where
  column : Column
  not : Option (Cased "NOT")
  word : Cased "BETWEEN"
  low : Bound
  connective : Cased "AND"
  high : Bound

namespace Between

variable (b : Between)

def text : List Char :=
  b.column.text ++ ' ' :: negated b.not
    (b.word.text ++ ' ' :: (b.low.text ++ ' ' :: (b.connective.text ++ ' ' :: b.high.text)))

/-- The condition up to its low bound. -/
def lead : List Char :=
  b.column.text ++ ' ' :: negated b.not (b.word.text ++ ' ' :: b.low.text)

theorem skips_lead : connectiveAt.Skips b.lead := by
  have hspaced : ∀ {s t : List Char}, connectiveAt.Skips s → connectiveAt.Skips t →
      connectiveAt.Skips (s ++ ' ' :: t) := fun hs ht =>
    hs.spaced within_connectiveAt endsAtBlank_connectiveAt (by decide) ht
  have hword : connectiveAt.Skips b.word.text :=
    within_connectiveAt.skips_of_lacks (b.word.phrase (by decide) (by decide)).lacks
  refine hspaced b.column.skips ?_
  cases hnot : b.not with
  | none => exact hspaced hword b.low.skips
  | some k =>
    have hk : connectiveAt.Skips k.text :=
      within_connectiveAt.skips_of_lacks (k.phrase (by decide) (by decide)).lacks
    exact hspaced hk (hspaced hword b.low.skips)

theorem hasKeyword_lead : hasKeyword "BETWEEN" b.lead = true := by
  unfold lead
  cases b.not with
  | none => exact hasKeyword_spaced (by decide) (b.column.balanced.after_eq 0) b.word b.low.text
  | some k =>
    have hclosed : start.after (b.column.text ++ ' ' :: k.text) = start := by
      have hk : Phrase [] k.text := k.phrase (by decide) (by simp)
      exact (b.column.balanced.append (.cons (by decide) hk.lacks.balanced)).after_eq 0
    have h := hasKeyword_spaced (by decide) hclosed b.word b.low.text
    rwa [List.append_assoc] at h

/-- A clause keeps a condition with two bounds in one piece. -/
def piece : Piece :=
  .bounded b.lead b.skips_lead b.hasKeyword_lead b.connective b.high.text b.high.skips

theorem text_piece : b.piece.text = b.text := by
  have hpiece : b.piece.text = b.lead ++ ' ' :: (b.connective.text ++ ' ' :: b.high.text) := rfl
  rw [hpiece, lead, text]
  cases b.not <;> simp [negated]

/-! ### Reading -/

/-- What stands behind the column and a blank. -/
def predicate : List Char :=
  negated b.not (b.word.text ++ ' ' :: (b.low.text ++ ' ' :: (b.connective.text ++ ' ' :: b.high.text)))

theorem head?_predicate : ∀ c ∈ b.predicate.head?, isBlank c = false ∧ c ≠ '.' :=
  head?_negated b.not (head?_keyword b.word (by decide) _)

theorem trimmed_text : Trimmed b.text := by
  refine ⟨?_, ?_⟩
  · rw [text, List.head?_append_of_ne_nil _ b.column.text_ne_nil]
    exact b.column.trimmed.head
  · rw [← b.text_piece, show b.piece.text = b.lead ++ ' ' :: (b.connective.text ++ ' ' :: b.high.text)
      from rfl, List.getLast?_append_of_ne_nil _ (List.cons_ne_nil _ _), List.append_cons,
      ← List.cons_append, List.append_cons, List.getLast?_append_of_ne_nil _ b.high.isItem.ne_nil]
    exact b.high.isItem.trimmed.last

theorem head?_text_ne : b.text.head? ≠ some '(' := by
  rw [text, List.head?_append_of_ne_nil _ b.column.text_ne_nil]
  intro h
  rcases b.column.mem_text (List.mem_of_head? h) with h | h | h <;> exact absurd h (by decide)

/-- Behind an unfinished name no form of a condition goes on with blanks. -/
theorem blanks1_unfinished {r : List Char} (h : Unfinished r) : blanks1 r = [] := by
  obtain ⟨c, hc, hdot⟩ := h
  refine append_eq_nil _ (char_eq_nil fun d hd => ?_)
  obtain rfl : c = d := Option.some.inj (hc.symm.trans hd)
  rcases hdot with rfl | rfl <;> decide

theorem endsName_blank (s : List Char) : EndsName (' ' :: s) := by
  rintro c ⟨⟩
  decide

/-- No other form of a condition fits before that with two bounds. -/
theorem isNullForm_eq_nil : Condition.isNullForm b.text = [] := by
  have hblank : Only blanks1 (' ' :: b.predicate) [' '] b.predicate :=
    .blanks1 fun c hc => (b.head?_predicate c hc).1
  have hword : Form.word "IS" b.predicate = [] :=
    word_negated_eq_nil b.not (by decide) (b.word.word_eq_nil (by decide))
  refine b.column.name_bind_eq_nil (endsName_blank _) (dot_eq_nil b.head?_predicate) ?_ ?_
  · exact bind_eq_nil _ (append_eq_nil _ (append_eq_nil _ (append_eq_nil _
      (hblank.append_eq_nil hword))))
  · exact fun x r hr => bind_eq_nil _ (append_eq_nil _ (append_eq_nil _ (append_eq_nil _
      (append_eq_nil _ (blanks1_unfinished hr)))))

/-- The condition is read with the bounds that its form finds. -/
theorem read?_text {low high t : List Char}
    (h : Prefers (boundsForm b.column.text)
      (b.low.text ++ ' ' :: (b.connective.text ++ ' ' :: b.high.text))
      (.between b.column.text low high) t) :
    Condition.read? b.text = some (.between b.column.text low high) := by
  obtain ⟨x, hx⟩ := prefers_ownWord b.word (by decide) b.not
    (b.low.text ++ ' ' :: (b.connective.text ++ ' ' :: b.high.text))
  have hafter : Prefers blanks1 (' ' :: (b.low.text ++ ' ' :: (b.connective.text ++ ' ' :: b.high.text)))
      [' '] _ := (Only.blanks1 fun c hc => by
    rw [List.head?_append_of_ne_nil _ b.low.isItem.ne_nil] at hc
    exact b.low.isItem.trimmed.head c hc).prefers
  have hname : Prefers name b.text b.column.text (' ' :: b.predicate) :=
    b.column.prefers_name (endsName_blank _) (dot_eq_nil b.head?_predicate)
  have hbetween : Prefers Condition.betweenForm b.text (.between b.column.text low high) t :=
    hname.bind ((hx.append hafter).bind h)
  have hforms : Prefers (oneOf forms) b.text (.between b.column.text low high) t :=
    .oneOf_cons_of_nil b.isNullForm_eq_nil (.oneOf_cons hbetween)
  rw [read?_eq b.trimmed_text (b.column.not_startsNot _) b.head?_text_ne]
  exact hforms.read?_eq

/-! ### Mentions -/

/-- The column with each of its bounds. -/
def mentions : List Mention :=
  [.assign (String.ofList b.column.last.chars) (String.ofList b.low.text),
    .assign (String.ofList b.column.last.chars) (String.ofList b.high.text)]

/-- A condition mentions its column with the bounds that its form finds. -/
theorem clauseMentions_text {low high t : List Char}
    (h : Prefers (boundsForm b.column.text)
      (b.low.text ++ ' ' :: (b.connective.text ++ ' ' :: b.high.text))
      (.between b.column.text low high) t) :
    clauseMentions b.text = [valueMention (String.ofList b.column.last.chars) low,
      valueMention (String.ofList b.column.last.chars) high] := by
  have hne : b.text ≠ [] := List.append_ne_nil_of_left_ne_nil b.column.text_ne_nil _
  have hconditions : conditions b.text = [b.text] := by
    rw [← b.text_piece, b.piece.conditions_text, b.text_piece, b.trimmed_text.trim_eq]
    simp [hne]
  rw [clauseMentions_eq, hconditions, List.flatMap_singleton, conditionMentions, b.read?_text h,
    ← b.column.fieldName_text]
  rfl

/-- What is recorded for a low bound that is cut off is shorter than the bound. -/
theorem valueMention_cut_ne (v : Bound) (field : String) {low : List Char} (hlow : low <+: v.text)
    (hne : low ≠ []) (hlen : low.length < v.text.length) :
    valueMention field low ≠ .assign field (String.ofList v.text) := by
  have hhead : low.head? = v.text.head? := by
    obtain ⟨t, ht⟩ := hlow
    rw [← ht, List.head?_append_of_ne_nil _ hne]
  have htrim : trim low = trimEnd low := by
    unfold trim
    rw [trimStart_of_head fun c hc => v.isItem.trimmed.head c (hhead ▸ hc)]
  have hstart : ∀ c ∈ (trim low).head?, isNameStart c = false ∧ (c == '\x60') = false := by
    rw [htrim]
    intro c hc
    have htext : trimEnd low ≠ [] := List.ne_nil_of_mem (List.mem_of_head? hc)
    rw [head?_trimEnd htext, hhead] at hc
    exact v.head?_text c hc
  rw [valueMention_of_head hstart field rfl]
  intro heq
  have htext : trim low = v.text := String.ofList_injective (Mention.assign.inj heq).2
  have hle := (trim_isInfix low).length_le
  rw [htext] at hle
  omega

/-- Both bounds are recorded as they are written if and only if the low one has no `AND` between
blanks in it. -/
theorem clauseMentions_text_iff : clauseMentions b.text = b.mentions ↔ ¬ HasSpacedAnd b.low.text := by
  constructor
  · intro h hspaced
    obtain ⟨low, high, t, hprefers, hne, hlow, hlen⟩ :=
      prefers_cut_bound b.column.text b.low b.high b.connective hspaced
    rw [b.clauseMentions_text hprefers, mentions] at h
    exact valueMention_cut_ne b.low _ hlow hne hlen (List.cons.inj h).1
  · intro h
    rw [b.clauseMentions_text (prefers_bounds b.column.text b.low b.high b.connective h),
      b.low.mention, b.high.mention, mentions]

/-- What stands behind a condition. -/
def trail : Option (Connective × List Char) → List Char
  | none => []
  | some (k, r) => ' ' :: (k.text ++ ' ' :: r)

/-- What stands around a condition changes nothing of what it mentions. -/
theorem clauseMentions_joined (before : List (Piece × Connective))
    (after : Option (Connective × List Char)) :
    clauseMentions (Piece.lead before ++ (b.text ++ trail after)) =
      (before.flatMap fun p => clauseMentions p.1.text) ++
        (clauseMentions b.text ++ (after.map fun a => clauseMentions a.2).getD []) := by
  rw [Piece.clauseMentions_lead]
  cases after with
  | none => rw [trail, List.append_nil, Option.map_none, Option.getD_none, List.append_nil]
  | some a =>
    have hpiece := b.piece.clauseMentions_append a.1 a.2
    rw [b.text_piece] at hpiece
    rw [trail, hpiece]
    rfl

/-- A condition with two bounds, between other conditions or alone, is recorded with both bounds as
they are written if and only if the low one has no `AND` between blanks in it. -/
theorem clauseMentions_between_iff (before : List (Piece × Connective))
    (after : Option (Connective × List Char)) :
    clauseMentions (Piece.lead before ++ (b.text ++ trail after)) =
        (before.flatMap fun p => clauseMentions p.1.text) ++
          (b.mentions ++ (after.map fun a => clauseMentions a.2).getD []) ↔
      ¬ HasSpacedAnd b.low.text := by
  rw [b.clauseMentions_joined, List.append_cancel_left_eq, List.append_cancel_right_eq]
  exact b.clauseMentions_text_iff

/-- A text with the word between blanks is cut there; one with the word inside another word is not. -/
theorem text_bounds_recorded :
    clauseMentions "c BETWEEN 'x and y' AND 'z' OR d = 1".toList ≠
      [.assign "c" "'x and y'", .assign "c" "'z'", .assign "d" "1"] ∧
    clauseMentions "c BETWEEN 'candy' AND -1 OR d = 1".toList =
      [.assign "c" "'candy'", .assign "c" "-1", .assign "d" "1"] := by
  let column : Column := {
    first := ⟨['c'], false, by decide, List.all_eq_true.mp (by decide +kernel)⟩
    later := []
    and_free := by decide
    or_free := by decide
    not_negation := by decide }
  have hbounds := fun low high => clauseMentions_between_iff
    ⟨column, none, ⟨"BETWEEN".toList, rfl⟩, low, ⟨"AND".toList, rfl⟩, high⟩ []
    (some (.or ⟨"OR".toList, rfl⟩, "d = 1".toList))
  constructor
  · intro h
    refine (hbounds (.string "x and y".toList) (.string ['z'])).mp (h.trans (by decide +kernel)) ?_
    exact ⟨['\x27', 'x'], ' ', ⟨"and".toList, by decide⟩, ' ', ['y', '\x27'], rfl, rfl, by decide⟩
  · have hwhole := hbounds (.string "candy".toList)
      (.number "-1".toList ⟨'-', rfl, rfl⟩ (List.all_eq_true.mp rfl))
    refine (hwhole.mpr ?_).trans (by decide +kernel)
    rintro ⟨x, b, k, b', y, hb, -, hsplit⟩
    have hmem : b ∈ "'candy'".toList := by
      rw [show "'candy'".toList = x ++ b :: (k.text ++ b' :: y) from hsplit]
      simp
    exact absurd (List.any_eq_true.mpr ⟨b, hmem, hb⟩) (by decide)

end Between

end SchemaLint.Sql
