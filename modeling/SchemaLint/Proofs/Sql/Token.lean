import Mathlib.Data.List.Chain
import Mathlib.Data.List.Infix
import SchemaLint.Proofs.Keyword
import SchemaLint.Proofs.Nesting.Place
import SchemaLint.Proofs.Unicode.CodePoints
import SchemaLint.Sql.Form

/-!
# Statements as tokens

A statement is written in tokens: words, which are runs of name characters, single signs, quoted
texts and bracketed texts. Where no two words run together (`Separate`), a text is cut at a keyword
exactly in front of the tokens that are this word (`parts_keyword`, `parts_of_free`), and the
statement on a line goes on to the end of its tokens unless a `;` or a comment stands between them
(`statementOf_textOf`).

Keywords are looked for with the ASCII name characters only. So a word with other letters may show
a keyword that it is not, as `éjoin` shows `join` (`Token.shows`).
-/

namespace SchemaLint.Sql

open Nesting Text

/-! ## What quotes and brackets contain -/

/-- The contents of a quoted text: its quote stands in them only behind a backslash or twice. -/
inductive Quoted (q : Char) : List Char → Prop
  | nil : Quoted q []
  | plain {c : Char} {s : List Char} (hq : c ≠ q) (hb : c ≠ '\\') (h : Quoted q s) :
      Quoted q (c :: s)
  | escape {c : Char} {s : List Char} (h : Quoted q s) : Quoted q ('\\' :: c :: s)
  | twice {s : List Char} (h : Quoted q s) : Quoted q (q :: q :: s)

theorem Quoted.staysQuoted {q : Char} {s : List Char} (hquote : isQuote q = true)
    (h : Quoted q s) : StaysQuoted q s := by
  induction h with
  | nil => exact .nil
  | plain hq hb _ ih => exact (Escaped.plain hq hb .nil).staysQuoted.append ih
  | escape _ ih => exact (Escaped.escape .nil).staysQuoted.append ih
  | twice _ ih => exact (StaysQuoted.twice hquote).append ih

/-- The contents of brackets: brackets and quotes in them are closed. -/
inductive Nested : List Char → Prop
  | nil : Nested []
  | plain {c : Char} {s : List Char} (hc : isPlain c = true) (h : Nested s) : Nested (c :: s)
  | quoted {q : Char} {x s : List Char} (hq : isQuote q = true) (hx : Quoted q x) (h : Nested s) :
      Nested (q :: (x ++ [q]) ++ s)
  | bracketed {x s : List Char} (hx : Nested x) (h : Nested s) : Nested ('(' :: (x ++ [')']) ++ s)

theorem Nested.balanced {s : List Char} (h : Nested s) : Balanced s := by
  induction h with
  | nil => exact .nil
  | plain hc _ ih => exact .cons hc ih
  | quoted hq hx _ ih => exact (Balanced.of_staysQuoted hq (hx.staysQuoted hq)).append ih
  | bracketed _ _ ihx ih => exact (Balanced.bracketed rfl rfl ihx).append ih

/-! ## Tokens -/

/-- A token of a statement. -/
inductive Token where
  | word (x : List Char) (ne_nil : x ≠ []) (chars : ∀ c ∈ x, isNameChar c = true)
  | sign (c : Char) (plain : isPlain c = true) (apart : isNameChar c = false)
  | quoted (q : Char) (x : List Char) (quote : isQuote q = true) (contents : Quoted q x)
  | bracketed (x : List Char) (contents : Nested x)

theorem isNameChar_of_isIdentChar {c : Char} (h : isIdentChar c = true) : isNameChar c = true := by
  have hword : Unicode.isWord c = (c.isAlphanum || c == '_') :=
    if_pos (toNat_lt_of_isIdentChar h)
  rw [isNameChar, hword]
  exact h

theorem isIdentChar_eq_false {c : Char} (h : isNameChar c = false) : isIdentChar c = false := by
  rw [← Bool.not_eq_true]
  intro hident
  rw [isNameChar_of_isIdentChar hident] at h
  cases h

theorem isPlain_of_isNameChar {c : Char} (h : isNameChar c = true) : isPlain c = true :=
  isPlain_of_kind (by decide) h

/-- A name character that a keyword or the end of a statement begins with is one of keywords. -/
theorem isIdentChar_of_isStop {c : Char} (h : isNameChar c = true) (hstop : isStop c = true) :
    isIdentChar c = true := by
  simp only [isStop, Bool.or_eq_true, beq_iff_eq] at hstop
  rcases hstop with ((hident | rfl) | rfl) | rfl
  · exact hident
  all_goals exact absurd h (by decide)

theorem isNameChar_of_isBlank {c : Char} (h : isBlank c = true) : isNameChar c = false := by
  have hne : c ≠ '$' := by
    rintro rfl
    exact absurd h (by decide)
  rw [isNameChar, Unicode.isWord_of_isBlank h, beq_false_of_ne hne]
  rfl

/-- Characters of keywords are one run of such characters. -/
theorem pieces_run {y : List Char} (hy : ∀ c ∈ y, isIdentChar c = true) :
    pieces (!isIdentChar ·) y = [y] :=
  pieces_of_forall fun c hc => by rw [hy c hc, Bool.not_true]

/-- The sign that a blank is. -/
def Token.blank (c : Char) (h : isBlank c = true) : Token :=
  .sign c (isPlain_of_isBlank h) (isNameChar_of_isBlank h)

/-- The word that a keyword is. -/
def keywordToken {w : String} (hw : IsKeyword w) (k : Cased w) : Token :=
  .word k.text (k.text_ne_nil hw) fun c hc =>
    isNameChar_of_isIdentChar (k.isIdentChar_of_mem hw c hc)

theorem not_isBlank_keyword {w : String} (hw : IsKeyword w) (k : Cased w) :
    ∀ c ∈ k.text, isBlank c = false :=
  fun c hc => (isPlain_of_isStop (isStop_of_isIdentChar (k.isIdentChar_of_mem hw c hc))).2

namespace Token

def text : Token → List Char
  | word x _ _ => x
  | sign c _ _ => [c]
  | quoted q x _ _ => q :: (x ++ [q])
  | bracketed x _ => '(' :: (x ++ [')'])

def isWord : Token → Bool
  | word _ _ _ => true
  | _ => false

def isBlank : Token → Bool
  | sign c _ _ => Text.isBlank c
  | _ => false

/-- A search for the keyword finds it in the token: one of the runs of keyword characters that make
up a word is the keyword. -/
def shows (w : String) : Token → Bool
  | word x _ _ => (pieces (!isIdentChar ·) x).any (sameIgnoringCase w.toList)
  | _ => false

theorem shows_keywordToken {v w : String} (hw : IsKeyword w) (k : Cased w) :
    (keywordToken hw k).shows v = sameIgnoringCase v.toList w.toList := by
  rw [keywordToken, shows, pieces_run (k.isIdentChar_of_mem hw), List.any_cons, List.any_nil, Bool.or_false, sameIgnoringCase,
    k.lower_eq]
  rfl

theorem shows_of_isBlank {v : String} {t : Token} (h : t.isBlank = true) : t.shows v = false := by
  cases t with
  | sign c hc ha => rfl
  | _ => cases h

variable (t : Token)

theorem text_ne_nil : t.text ≠ [] := by
  cases t with
  | word x hx _ => exact hx
  | _ => exact List.cons_ne_nil _ _

theorem balanced : Balanced t.text := by
  cases t with
  | word x _ hx => exact .of_plain fun c hc => isPlain_of_isNameChar (hx c hc)
  | sign c hc _ => exact .cons hc .nil
  | quoted q x hq hx => exact .of_staysQuoted hq (hx.staysQuoted hq)
  | bracketed x hx => exact .bracketed rfl rfl hx.balanced

/-- Only words begin with a name character, and only words end with one. -/
theorem isNameChar_ends (h : t.isWord = false) :
    (∀ c ∈ t.text.head?, isNameChar c = false) ∧ ∀ c ∈ t.text.getLast?, isNameChar c = false := by
  have hquote : ∀ q, isQuote q = true → isNameChar q = false := by
    intro q hq
    simp only [isQuote, Bool.or_eq_true, beq_iff_eq] at hq
    rcases hq with (rfl | rfl) | rfl <;> decide
  cases t with
  | word x _ _ => cases h
  | sign c _ hc =>
    refine ⟨?_, ?_⟩ <;> rintro d ⟨⟩ <;> exact hc
  | quoted q x hq _ =>
    rw [text, ← List.cons_append, List.getLast?_concat]
    refine ⟨?_, ?_⟩ <;> rintro d ⟨⟩ <;> exact hquote q hq
  | bracketed x _ =>
    rw [text, ← List.cons_append, List.getLast?_concat]
    refine ⟨?_, ?_⟩ <;> rintro d ⟨⟩ <;> decide

end Token

/-! ## Texts of tokens -/

/-- The text of tokens one after the other. -/
def textOf (ts : List Token) : List Char :=
  ts.flatMap Token.text

/-- No two words run together. -/
def Separate (ts : List Token) : Prop :=
  ts.IsChain fun a b => a.isWord = true → b.isWord = false

section TextOf

variable {t : Token} {ts us vs : List Token}

@[simp] theorem textOf_nil : textOf [] = [] :=
  rfl

@[simp] theorem textOf_cons : textOf (t :: ts) = t.text ++ textOf ts :=
  rfl

@[simp] theorem textOf_append (us vs : List Token) :
    textOf (us ++ vs) = textOf us ++ textOf vs :=
  List.flatMap_append

theorem balanced_textOf (ts : List Token) : Balanced (textOf ts) := by
  induction ts with
  | nil => exact .nil
  | cons t ts ih => exact t.balanced.append ih

theorem textOf_ne_nil (h : ts ≠ []) : textOf ts ≠ [] := by
  obtain ⟨t, ts, rfl⟩ := List.exists_cons_of_ne_nil h
  exact List.append_ne_nil_of_left_ne_nil t.text_ne_nil (textOf ts)

theorem isBlank_textOf (h : ∀ t ∈ ts, t.isBlank = true) : ∀ c ∈ textOf ts, isBlank c = true := by
  intro c hc
  obtain ⟨t, ht, hct⟩ := List.mem_flatMap.mp hc
  have hblank := h t ht
  cases t with
  | sign d _ _ => rwa [List.mem_singleton.mp hct]
  | _ => cases hblank

theorem head?_textOf (h : ∀ t ∈ ts.head?, t.isWord = false) :
    ∀ c ∈ (textOf ts).head?, isNameChar c = false := by
  cases ts with
  | nil => simp
  | cons t ts =>
    rw [textOf_cons, List.head?_append_of_ne_nil _ t.text_ne_nil]
    exact (t.isNameChar_ends (h t rfl)).1

theorem getLast?_textOf_concat : (textOf (us ++ [t])).getLast? = t.text.getLast? := by
  rw [textOf_append, textOf_cons, textOf_nil, List.append_nil,
    List.getLast?_append_of_ne_nil _ t.text_ne_nil]

theorem getLast?_textOf (h : ∀ t ∈ ts.getLast?, t.isWord = false) :
    ∀ c ∈ (textOf ts).getLast?, isNameChar c = false := by
  rcases List.eq_nil_or_concat ts with rfl | ⟨us, t, rfl⟩
  · simp
  · rw [List.concat_eq_append] at h ⊢
    rw [getLast?_textOf_concat]
    exact (t.isNameChar_ends (h t List.getLast?_concat)).2

theorem Separate.left (h : Separate (us ++ vs)) : Separate us :=
  List.IsChain.left_of_append h

theorem Separate.right (h : Separate (us ++ vs)) : Separate vs :=
  List.IsChain.right_of_append h

theorem Separate.tail (h : Separate (t :: ts)) : Separate ts :=
  List.IsChain.tail h

theorem Separate.head?_right (h : Separate (us ++ t :: vs)) (ht : t.isWord = true) :
    ∀ c ∈ (textOf vs).head?, isNameChar c = false :=
  head?_textOf fun u hu => (List.isChain_cons.mp h.right).1 u hu ht

theorem Separate.getLast?_left (h : Separate (us ++ t :: vs)) (ht : t.isWord = true) :
    ∀ c ∈ (textOf us).getLast?, isNameChar c = false := by
  refine getLast?_textOf fun u hu => ?_
  rw [← Bool.not_eq_true]
  intro hword
  have := (List.isChain_append.mp h).2.2 u hu t rfl hword
  rw [ht] at this
  cases this

/-- Between two texts of tokens no word runs on. -/
theorem Separate.ends (h : Separate (us ++ vs)) :
    (∀ c ∈ (textOf us).getLast?, isNameChar c = false) ∨
      ∀ c ∈ (textOf vs).head?, isNameChar c = false := by
  rcases List.eq_nil_or_concat us with rfl | ⟨us, t, rfl⟩
  · exact .inl (by simp)
  · rw [List.concat_eq_append] at h ⊢
    cases ht : t.isWord with
    | true =>
      have hnext := (List.isChain_append.mp h).2.2 t (by simp)
      exact .inr (head?_textOf fun u hu => hnext u hu ht)
    | false =>
      rw [getLast?_textOf_concat]
      exact .inl (t.isNameChar_ends ht).2

end TextOf

/-! ## Tokens that are passed over -/

section Passed

variable {test : PlaceTest} {us : List Token} {r : List Char}

/-- No place of a token passes a test, in front of a given text. -/
def Token.PassedBy (test : PlaceTest) (t : Token) (r : List Char) : Prop :=
  ∀ before, start.parts test before (t.text ++ r) =
    t.text.foldr consHead (start.parts test (t.text.getLast?.or before) r)

/-- A token that hides what a test needs is passed over. -/
theorem Token.passedBy_of_hides {t : Token} {p : Char → Bool} (htest : test.Needs p)
    (h : Hides p t.text) (r : List Char) : t.PassedBy test r := by
  intro before
  rw [parts_append_of_hides htest h, start_eq, t.balanced.after_eq, ← start_eq]

/-- Tokens that are passed over one after the other stay in front of the first part of what
follows. -/
theorem parts_append_tokens (before : Option Char)
    (h : ∀ as t bs, us = as ++ t :: bs → t.PassedBy test (textOf bs ++ r)) :
    start.parts test before (textOf us ++ r) =
      (textOf us).foldr consHead (start.parts test ((textOf us).getLast?.or before) r) := by
  induction us generalizing before with
  | nil => simp
  | cons t us ih =>
    have hlater := ih (t.text.getLast?.or before) fun as u bs hus =>
      h (t :: as) u bs (by rw [hus, List.cons_append])
    rw [textOf_cons, List.append_assoc, h [] t us rfl before, hlater, List.foldr_append,
      List.getLast?_append, Option.or_assoc]

end Passed

/-! ## Keywords in tokens -/

section Keywords

variable {w : String} {ts us vs : List Token} {x r : List Char}

/-- A keyword does not stand where no word begins. -/
theorem isKeywordAt_of_head (hw : IsKeyword w) (hr : ∀ c ∈ r.head?, isIdentChar c = false)
    (before : Option Char) : isKeywordAt w before r = false := by
  rw [← Bool.not_eq_true]
  intro hpass
  simp only [isKeywordAt, Bool.and_eq_true] at hpass
  obtain ⟨v, t, rfl, hv⟩ := exists_append_of_startsIgnoringCase hpass.1.1
  have hne : v ≠ [] := by
    rintro rfl
    exact hw.1 (List.map_eq_nil_iff.mp hv.symm)
  obtain ⟨c, v, rfl⟩ := List.exists_cons_of_ne_nil hne
  have hident := isIdentChar_of_lower_eq hw.2 hv c List.mem_cons_self
  rw [hr c rfl] at hident
  cases hident

/-- Where no word is continued the next place need not look back. -/
theorem parts_before (hw : IsKeyword w) (hr : ∀ c ∈ r.head?, isIdentChar c = false)
    (before : Option Char) :
    start.parts (isKeywordAt w) before r = parts (isKeywordAt w) r := by
  cases r with
  | nil => rfl
  | cons c r =>
    rw [SchemaLint.parts, Nesting.parts, Nesting.parts, isKeywordAt_of_head hw hr before,
      isKeywordAt_of_head hw hr none]

/-- A word whose runs of keyword characters are none of some keywords lacks these. -/
theorem lacks_word {ws : List String} {y : List Char} (hx : ∀ c ∈ x, isNameChar c = true)
    (hy : ∀ c ∈ y, isIdentChar c = true)
    (h : ∀ p ∈ pieces (!isIdentChar ·) (y ++ x), ∀ w ∈ ws, lower p ≠ lower w.toList) :
    Lacks ws (y ++ x) := by
  -- The run that is being read is `y`.
  induction x generalizing y with
  | nil =>
    rw [List.append_nil] at h ⊢
    exact .singleWord hy (h y (by rw [pieces_run hy]; exact List.mem_singleton_self y))
  | cons c x ih =>
    have hlater : ∀ d ∈ x, isNameChar d = true := fun d hd => hx d (List.mem_cons_of_mem c hd)
    cases hc : isIdentChar c with
    | true =>
      have hyc : ∀ d ∈ y ++ [c], isIdentChar d = true := by
        intro d hd
        rcases List.mem_append.mp hd with hd | hd
        · exact hy d hd
        · rwa [List.mem_singleton.mp hd]
      rw [List.append_cons] at h ⊢
      exact ih hlater hyc h
    | false =>
      rw [pieces_append_sep (by rw [hc, Bool.not_false]), pieces_run hy] at h
      have hname := hx c List.mem_cons_self
      have hstop : isStop c = false := by
        rw [← Bool.not_eq_true]
        intro hstop
        rw [isIdentChar_of_isStop hname hstop] at hc
        cases hc
      have hrest : Lacks ws ([] ++ x) :=
        ih hlater (by simp) fun p hp => h p (List.mem_append_right [y] hp)
      have hsign : ∀ d ∈ [c], isPlain d = true ∧ isStop d = false := by
        intro d hd
        rw [List.mem_singleton.mp hd]
        exact ⟨isPlain_of_isNameChar hname, hstop⟩
      refine .word hy (h y List.mem_cons_self) (by rintro d ⟨⟩; exact hc) ?_
      exact .symbols (x := [c]) hsign hrest

/-- A token is passed over that shows none of the keywords a test looks for, and that is no sign at
which the test passes. -/
theorem Token.passedBy_of_within {test : PlaceTest} {ws : List String} (htest : test.Within ws)
    {t : Token} (h : ∀ w ∈ ws, t.shows w = false)
    (hr : t.isWord = true → ∀ c ∈ r.head?, isNameChar c = false)
    (hsign : t.isWord = false → ∀ before, test before (t.text ++ r) = false) :
    t.PassedBy test r := by
  cases t with
  | word x hne hx =>
    have hlacks : Lacks ws ([] ++ x) := by
      refine lacks_word hx (by simp) fun p hp w hw heq => ?_
      have hp' := List.any_eq_false.mp (h w hw) p hp
      rw [sameIgnoringCase, heq, beq_self_eq_true] at hp'
      exact hp' rfl
    have hhead : ∀ c ∈ r.head?, isIdentChar c = false :=
      fun c hc => isIdentChar_eq_false (hr rfl c hc)
    exact fun before => parts_append_of_lacks htest hlacks hhead before
  | sign c hc _ => exact fun before => parts_cons_plain hc before (hsign rfl before)
  | quoted q x hq hx =>
    exact passedBy_of_hides htest.needs (.of_staysQuoted hq (hx.staysQuoted hq)) r
  | bracketed x hx =>
    refine passedBy_of_hides htest.needs (.bracketed rfl rfl hx.balanced ?_ ?_) r <;> decide

theorem Token.passedBy_isKeywordAt (hw : IsKeyword w) {t : Token} (h : t.shows w = false)
    (hr : t.isWord = true → ∀ c ∈ r.head?, isNameChar c = false) :
    t.PassedBy (isKeywordAt w) r := by
  refine passedBy_of_within (within_isKeywordAt hw) (by simpa using h) hr fun hword before => ?_
  refine isKeywordAt_of_head hw (fun c hc => ?_) before
  rw [List.head?_append_of_ne_nil _ t.text_ne_nil] at hc
  exact isIdentChar_eq_false ((t.isNameChar_ends hword).1 c hc)

/-- Tokens without a keyword stay in front of the first part of what follows. -/
theorem parts_append_free (hw : IsKeyword w) (hfree : ∀ t ∈ us, t.shows w = false)
    (hsep : Separate us)
    (hr : ∀ t ∈ us.getLast?, t.isWord = true → ∀ c ∈ r.head?, isNameChar c = false) :
    parts (isKeywordAt w) (textOf us ++ r) =
      (textOf us).foldr consHead (start.parts (isKeywordAt w) (textOf us).getLast? r) := by
  have hpassed : ∀ as t bs, us = as ++ t :: bs → t.PassedBy (isKeywordAt w) (textOf bs ++ r) := by
    rintro as t bs rfl
    refine Token.passedBy_isKeywordAt hw (hfree t (by simp)) fun hword => ?_
    cases bs with
    | nil => exact hr t List.getLast?_concat hword
    | cons b bs =>
      rw [textOf_cons, List.append_assoc, List.head?_append_of_ne_nil _ b.text_ne_nil]
      have hhead := hsep.head?_right hword
      rwa [textOf_cons, List.head?_append_of_ne_nil _ b.text_ne_nil] at hhead
  have h := parts_append_tokens none hpassed
  rwa [Option.or_none] at h

/-- A keyword with no word on either side begins a part. -/
theorem parts_text_append (hw : IsKeyword w) (k : Cased w) {before : Option Char}
    (hbefore : ∀ c ∈ before, isIdentChar c = false) (hr : ∀ c ∈ r.head?, isIdentChar c = false) :
    start.parts (isKeywordAt w) before (k.text ++ r) =
      [] :: k.text.foldr consHead (parts (isKeywordAt w) r) := by
  have hpass := k.isKeywordAt_text hbefore hr
  have hident := k.isIdentChar_of_mem hw
  obtain ⟨c, x, hk⟩ := List.exists_cons_of_ne_nil (k.text_ne_nil hw)
  rw [hk] at hpass hident ⊢
  have hplain : ∀ d ∈ c :: x, isPlain d = true := fun d hd => isPlain_of_isIdentChar (hident d hd)
  have hx : Balanced x := .of_plain fun d hd => hplain d (List.mem_cons_of_mem c hd)
  have htop : ((start.mark c).isTop && isKeywordAt w before (c :: (x ++ r))) = true := by
    rw [show isKeywordAt w before (c :: (x ++ r)) = true from hpass, start_eq,
      mark_plain 0 (hplain c List.mem_cons_self)]
    rfl
  -- Behind its first character the keyword does not stand again.
  have hinside := (within_isKeywordAt hw).inside_word (hident c List.mem_cons_self)
    (fun d hd => hident d (List.mem_cons_of_mem c hd)) r
  rw [List.cons_append, Nesting.parts, htop, if_pos rfl, start_eq,
    next_plain 0 (hplain c List.mem_cons_self), ← start_eq, parts_append_balanced hx r _ hinside,
    parts_before hw hr]
  rfl

/-- The first of some tokens that is a keyword begins the second part. -/
theorem parts_keyword {hw : IsKeyword w} {k : Cased w}
    (hsep : Separate (us ++ keywordToken hw k :: vs)) (hfree : ∀ t ∈ us, t.shows w = false) :
    parts (isKeywordAt w) (textOf (us ++ keywordToken hw k :: vs)) =
      textOf us :: k.text.foldr consHead (parts (isKeywordAt w) (textOf vs)) := by
  have hbefore : ∀ c ∈ (textOf us).getLast?, isIdentChar c = false :=
    fun c hc => isIdentChar_eq_false (hsep.getLast?_left rfl c hc)
  have hafter : ∀ c ∈ (textOf vs).head?, isIdentChar c = false :=
    fun c hc => isIdentChar_eq_false (hsep.head?_right rfl c hc)
  have hlast : ∀ t ∈ us.getLast?, t.isWord = true →
      ∀ c ∈ (k.text ++ textOf vs).head?, isNameChar c = false := by
    intro t ht hword
    have := (List.isChain_append.mp hsep).2.2 t ht (keywordToken hw k) rfl hword
    cases this
  rw [textOf_append, textOf_cons, keywordToken, Token.text,
    parts_append_free hw hfree hsep.left hlast, parts_text_append hw k hbefore hafter,
    foldr_consHead, List.append_nil]

theorem parts_of_free (hw : IsKeyword w) (hsep : Separate ts)
    (hfree : ∀ t ∈ ts, t.shows w = false) :
    parts (isKeywordAt w) (textOf ts) = [textOf ts] := by
  have h := parts_append_free (r := []) hw hfree hsep (by simp)
  rw [List.append_nil, Nesting.parts, foldr_consHead, List.append_nil] at h
  exact h

theorem hasKeyword_of_free (hw : IsKeyword w) (hsep : Separate ts)
    (hfree : ∀ t ∈ ts, t.shows w = false) : hasKeyword w (textOf ts) = false := by
  rw [hasKeyword, firstCut?, parts_of_free hw hsep hfree]
  rfl

/-- A keyword stands where a token is this word. -/
theorem hasKeyword_of_mem {hw : IsKeyword w} {k : Cased w} (hsep : Separate ts)
    (hmem : keywordToken hw k ∈ ts) : hasKeyword w (textOf ts) = true := by
  obtain ⟨us, vs, rfl⟩ := List.append_of_mem hmem
  have hbefore : ∀ c ∈ (textOf us).getLast?, isIdentChar c = false :=
    fun c hc => isIdentChar_eq_false (hsep.getLast?_left rfl c hc)
  have hafter : ∀ c ∈ (textOf vs).head?, isIdentChar c = false :=
    fun c hc => isIdentChar_eq_false (hsep.head?_right rfl c hc)
  obtain ⟨c, x, hk⟩ := List.exists_cons_of_ne_nil (k.text_ne_nil hw)
  have hplain : isPlain c = true :=
    isPlain_of_isIdentChar (k.isIdentChar_of_mem hw c (by rw [hk]; exact List.mem_cons_self))
  rw [hasKeyword_iff]
  refine ⟨textOf us, k.text ++ textOf vs, by rw [textOf_append]; rfl, c, x ++ textOf vs, ?_, ?_, ?_⟩
  · rw [hk, List.cons_append]
  · rw [start_eq, (balanced_textOf us).after_eq, mark_plain 0 hplain]
    rfl
  · rw [Option.or_none]
    exact k.isKeywordAt_text hbefore hafter

end Keywords

/-! ## Statements of tokens -/

section Statements

variable {ts : List Token}

/-- No token begins with a `;` or a comment. -/
def Unended (ts : List Token) : Prop :=
  ∀ vs ∈ ts.tails, statementEndsAt none (textOf vs) = false

theorem firstCut?_of_unended (h : Unended ts) (hsep : Separate ts) :
    firstCut? statementEndsAt (textOf ts) = none := by
  have hpassed : ∀ as t bs, ts = as ++ t :: bs →
      t.PassedBy statementEndsAt (textOf bs ++ []) := by
    rintro as t bs rfl
    rw [List.append_nil]
    refine Token.passedBy_of_within within_statementEndsAt (by simp) hsep.head?_right ?_
    exact fun _ _ => h (t :: bs) ((List.mem_tails _ _).mpr ⟨as, rfl⟩)
  have hparts := parts_append_tokens none hpassed
  rw [List.append_nil, Nesting.parts, foldr_consHead, List.append_nil] at hparts
  rw [firstCut?, SchemaLint.parts, hparts]

/-- A trimmed text without a `;` or a comment is a statement to its end. -/
theorem statementOf_textOf (h : Unended ts) (hsep : Separate ts) (htrimmed : Trimmed (textOf ts)) :
    statementOf (textOf ts) = textOf ts := by
  unfold statementOf
  rw [htrimmed.trim_eq, firstCut?_of_unended h hsep]
  exact trimEnd_of_last htrimmed.last

end Statements

end SchemaLint.Sql
