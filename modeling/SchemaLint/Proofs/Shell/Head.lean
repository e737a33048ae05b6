import SchemaLint.Proofs.Form
import SchemaLint.Proofs.Shell.Document
import SchemaLint.Proofs.Statement
import SchemaLint.Proofs.Unicode.CodePoints
import SchemaLint.Shell.Call

/-!
# Heads of calls

The head of a call (`Target.head`) is what stands in front of its arguments: `db`, the collection,
written plainly or in quotes, and the verb, with blanks between them. A head is read as what it names,
whatever follows it (`Target.prefers_callForm`). Where the parenthesis behind what was read stands
outside quotes, there is nothing else that is read (`exists_head`); it stands inside a quote only when
a backslash at the end of the name keeps the quote of the name open.
-/

namespace SchemaLint.Shell

open Form Nesting Text

/-! ## Names of collections -/

/-- Characters of the name of a collection. -/
def isCollectionChar (c : Char) : Bool :=
  Unicode.isWord c || c == '$'

/-- The name of a collection that is written as it is. -/
structure CollectionName where
  name : List Char
  ne_nil : name ≠ []
  chars : ∀ c ∈ name, isCollectionChar c = true

/-- The name of a collection in quotes. -/
structure QuotedName where
  quote : Char
  name : List Char
  quote_eq : quote = '\x22' ∨ quote = '\x27'
  ne_nil : name ≠ []
  chars : ∀ c ∈ name, c ≠ quote
  escaped : Escaped quote name

theorem ne_of_isCollectionChar {c d : Char} (h : isCollectionChar c = true)
    (hd : isCollectionChar d = false) : c ≠ d := by
  rintro rfl
  rw [h] at hd
  cases hd

theorem isCollectionChar_of_isBlank {c : Char} (h : isBlank c = true) :
    isCollectionChar c = false := by
  have hdollar : (c == '$') = false := by
    rw [beq_eq_false_iff_ne]
    rintro rfl
    exact absurd h (by decide)
  rw [isCollectionChar, Unicode.isWord_of_isBlank h, hdollar, Bool.or_false]

theorem isBlank_of_isCollectionChar {c : Char} (h : isCollectionChar c = true) :
    isBlank c = false := by
  cases hb : isBlank c with
  | false => rfl
  | true => rw [isCollectionChar_of_isBlank hb] at h; cases h

theorem isPlain_of_isCollectionChar {c : Char} (h : isCollectionChar c = true) : isPlain c = true :=
  isPlain_of_kind (by decide) h

theorem isCollectionChar_of_isWord {c : Char} (h : Unicode.isWord c = true) :
    isCollectionChar c = true := by
  rw [isCollectionChar, h, Bool.true_or]

theorem QuotedName.isQuote_quote (coll : QuotedName) : isQuote coll.quote = true := by
  rcases coll.quote_eq with h | h <;> rw [h] <;> decide

/-! ## The text of a head -/

/-- Blanks. -/
structure Gap where
  text : List Char
  isBlank : ∀ c ∈ text, isBlank c = true

/-- A collection as a call names it. -/
inductive Collection where
  | plain (coll : CollectionName)
  /-- A name in quotes, with blanks around its parentheses. -/
  | quoted (coll : QuotedName) (outside before after : Gap)

def Collection.name : Collection → List Char
  | plain coll => coll.name
  | quoted coll _ _ _ => coll.name

def getCollection : List Char :=
  "getCollection".toList

/-- A name in quotes as `getCollection` takes it. -/
def quotedText (q : Char) (name : List Char) (outside before after : Gap) : List Char :=
  getCollection ++ (outside.text ++
    '(' :: (before.text ++ (q :: (name ++ [q])) ++ after.text ++ [')']))

def Collection.text : Collection → List Char
  | plain coll => coll.name
  | quoted coll outside before after => quotedText coll.quote coll.name outside before after

/-- A collection with the blanks around the dots and the verb of a call. -/
structure Target where
  collection : Collection
  afterDb : Gap
  beforeName : Gap
  afterName : Gap
  beforeVerb : Gap
  afterVerb : Gap

/-- What stands in front of the arguments of a call. -/
def Target.head (t : Target) (verb : List Char) : List Char :=
  'd' :: 'b' :: (t.afterDb.text ++ '.' :: (t.beforeName.text ++ (t.collection.text ++
    (t.afterName.text ++ '.' :: (t.beforeVerb.text ++ (verb ++ t.afterVerb.text))))))

/-- A verb is a word. -/
structure IsVerb (verb : List Char) : Prop where
  ne_nil : verb ≠ []
  chars : ∀ c ∈ verb, Unicode.isWord c = true

theorem Target.head_append (t : Target) (verb s : List Char) : t.head verb ++ s =
    'd' :: 'b' :: (t.afterDb.text ++ '.' :: (t.beforeName.text ++ (t.collection.text ++
      (t.afterName.text ++ '.' :: (t.beforeVerb.text ++ (verb ++ (t.afterVerb.text ++ s))))))) := by
  simp [Target.head]

/-! ## Heads are read -/

section Reading

variable {p : Char → Bool} {c : Char} {s r : List Char}

/-- What follows a run ends it when it begins with blanks or a sign that the run does not take. -/
theorem head?_blank_append {gap : List Char} (hgap : ∀ d ∈ gap, isBlank d = true)
    (hblank : ∀ d, isBlank d = true → p d = false) (hc : p c = false) :
    ∀ d ∈ (gap ++ c :: s).head?, p d = false := by
  cases gap with
  | nil =>
    rintro d ⟨⟩
    exact hc
  | cons e gap =>
    rintro d ⟨⟩
    exact hblank e (hgap e List.mem_cons_self)

theorem prefers_gap (g : Gap) (hs : ∀ d ∈ s.head?, isBlank d = false) :
    Prefers blanks (g.text ++ s) g.text s :=
  .run g.isBlank hs

theorem isBlank_head?_cons (hc : isBlank c = false) : ∀ d ∈ (c :: s).head?, isBlank d = false := by
  rintro d ⟨⟩
  exact hc

theorem exact_eq_nil {d : Char} (h : d ≠ c) (cs : List Char) : Form.exact (c :: cs) (d :: s) = [] := by
  rw [Form.exact]
  exact append_eq_nil _ (char_eq_nil (by rintro e ⟨⟩; exact beq_eq_false_iff_ne.mpr h))

theorem dropWhile_of_head? (h : ∀ d ∈ s.head?, p d = false) : s.dropWhile p = s := by
  cases s with
  | nil => rfl
  | cons d s => exact List.dropWhile_cons_of_neg (by rw [h d rfl]; exact Bool.false_ne_true)

/-- A plain name in front of a dot does not begin a call of `getCollection`. -/
theorem getCollectionForm_eq_nil (coll : CollectionName) (g : Gap) (s : List Char) :
    getCollectionForm (coll.name ++ (g.text ++ '.' :: s)) = [] := by
  rw [List.eq_nil_iff_forall_not_mem]
  rintro ⟨name, r⟩ hmem
  obtain ⟨z, t, hz, -⟩ := mem_bind.mp hmem
  obtain ⟨z₃, b₂, t₃, hz₃, -, -⟩ := mem_append.mp hz
  obtain ⟨z₂, p, t₂, hz₂, hp, -⟩ := mem_append.mp hz₃
  obtain ⟨w, b, t₁, hw, hb, -⟩ := mem_append.mp hz₂
  obtain ⟨-, hs⟩ := mem_exact.mp hw
  obtain ⟨rfl, hblank⟩ := mem_run hb
  obtain ⟨-, rfl⟩ := mem_exact.mp hp
  have hword : ∀ c ∈ "getCollection".toList, isCollectionChar c = true :=
    List.all_eq_true.mp (by decide)
  -- Behind the longest word and the blanks comes the dot on the one side, a parenthesis on the other.
  have hname := congrArg (List.dropWhile isCollectionChar) hs
  rw [List.dropWhile_append_of_pos coll.chars, List.dropWhile_append_of_pos hword,
    dropWhile_of_head? (head?_blank_append g.isBlank (fun _ => isCollectionChar_of_isBlank)
      (by decide)), List.singleton_append,
    dropWhile_of_head? (head?_blank_append hblank (fun _ => isCollectionChar_of_isBlank)
      (by decide))] at hname
  have hdot := congrArg (List.dropWhile isBlank) hname
  rw [List.dropWhile_append_of_pos g.isBlank, List.dropWhile_append_of_pos hblank,
    dropWhile_of_head? (isBlank_head?_cons (by decide)),
    dropWhile_of_head? (isBlank_head?_cons (by decide))] at hdot
  exact absurd (List.cons.inj hdot).1 (by decide)

theorem prefers_quotedName (coll : QuotedName) (r : List Char) :
    Prefers (quotedName coll.quote) (coll.quote :: (coll.name ++ coll.quote :: r)) coll.name r := by
  have hname : Prefers (run1 (· != coll.quote)) (coll.name ++ coll.quote :: r) coll.name
      (coll.quote :: r) :=
    .run1 coll.ne_nil (fun c hc => bne_iff_ne.mpr (coll.chars c hc)) (by rintro d ⟨⟩; simp)
  exact (Prefers.exact [coll.quote] _).bind (hname.bind ((Prefers.exact [coll.quote] r).bind rfl))

theorem prefers_getCollectionForm (coll : QuotedName) (outside before after : Gap) (r : List Char) :
    Prefers getCollectionForm (quotedText coll.quote coll.name outside before after ++ r)
      coll.name r := by
  have hquote : isBlank coll.quote = false :=
    isBlank_eq_false (by simp [isPlain, coll.isQuote_quote])
  have hshape : quotedText coll.quote coll.name outside before after ++ r =
      getCollection ++ (outside.text ++ ['('] ++ (before.text ++ (coll.quote :: (coll.name ++
        coll.quote :: (after.text ++ [')'] ++ r))))) := by
    simp [quotedText]
  rw [hshape, List.append_assoc outside.text]
  have hopen := (((Prefers.exact getCollection _).append
    (prefers_gap outside (isBlank_head?_cons (by decide)))).append (.exact ['('] _)).append
    (prefers_gap before (s := coll.quote :: (coll.name ++ coll.quote :: (after.text ++ [')'] ++ r)))
      (isBlank_head?_cons hquote))
  have hname : Prefers (oneOf [quotedName '\x22', quotedName '\x27'])
      (coll.quote :: (coll.name ++ coll.quote :: (after.text ++ [')'] ++ r))) coll.name
      (after.text ++ [')'] ++ r) := by
    have hread := prefers_quotedName coll (after.text ++ [')'] ++ r)
    rcases coll.quote_eq with hq | hq <;> rw [hq] at hread ⊢
    · exact .oneOf_cons hread
    · have hother :
          quotedName '\x22' ('\x27' :: (coll.name ++ '\x27' :: (after.text ++ [')'] ++ r))) = [] :=
        bind_eq_nil _ (exact_eq_nil (by decide) _)
      exact .oneOf_cons_of_nil hother (.oneOf_cons hread)
  have hclose : Prefers (blanks ++ Form.exact [')']) (after.text ++ [')'] ++ r)
      (after.text ++ [')']) r := by
    rw [List.append_assoc]
    exact (prefers_gap after (isBlank_head?_cons (by decide))).append (.exact [')'] r)
  exact hopen.bind (hname.bind (hclose.bind rfl))

theorem Collection.prefers (coll : Collection) (g : Gap) (s : List Char) :
    Prefers (oneOf [getCollectionForm, run1 isCollectionChar]) (coll.text ++ (g.text ++ '.' :: s))
      coll.name (g.text ++ '.' :: s) := by
  cases coll with
  | plain coll =>
    have hend : ∀ d ∈ (g.text ++ '.' :: s).head?, isCollectionChar d = false :=
      head?_blank_append g.isBlank (fun _ => isCollectionChar_of_isBlank) (by decide)
    exact .oneOf_cons_of_nil (getCollectionForm_eq_nil coll g s)
      (.oneOf_cons (.run1 coll.ne_nil coll.chars hend))
  | quoted coll outside before after =>
    exact .oneOf_cons (prefers_getCollectionForm coll outside before after _)

theorem Collection.isBlank_head? (coll : Collection) (s : List Char) :
    ∀ d ∈ (coll.text ++ s).head?, isBlank d = false := by
  cases coll with
  | plain coll =>
    obtain ⟨c, name, hname⟩ := List.exists_cons_of_ne_nil coll.ne_nil
    have hc := isBlank_of_isCollectionChar (coll.chars c (by rw [hname]; exact List.mem_cons_self))
    rw [text, hname]
    exact isBlank_head?_cons hc
  | quoted coll outside before after => exact isBlank_head?_cons (by decide)

/-- A head is read as the collection and the verb that it names. -/
theorem Target.prefers_callForm (t : Target) {verb : List Char} (hverb : IsVerb verb)
    (r : List Char) :
    Prefers callForm (t.head verb ++ '(' :: r) (t.collection.name, verb) r := by
  rw [t.head_append]
  have hopen := (prefers_gap t.afterVerb (s := '(' :: r) (isBlank_head?_cons (by decide))).append
    (.exact ['('] r)
  have hword : Prefers (run1 Unicode.isWord) (verb ++ (t.afterVerb.text ++ '(' :: r)) verb
      (t.afterVerb.text ++ '(' :: r) :=
    .run1 hverb.ne_nil hverb.chars
      (head?_blank_append t.afterVerb.isBlank (fun _ => Unicode.isWord_of_isBlank) (by decide))
  have hword_head : ∀ d ∈ (verb ++ (t.afterVerb.text ++ '(' :: r)).head?, isBlank d = false := by
    obtain ⟨c, verb, rfl⟩ := List.exists_cons_of_ne_nil hverb.ne_nil
    have hc := isCollectionChar_of_isWord (hverb.chars c List.mem_cons_self)
    exact isBlank_head?_cons (isBlank_of_isCollectionChar hc)
  generalize verb ++ (t.afterVerb.text ++ '(' :: r) = s at hword hword_head
  have hdot := ((prefers_gap t.afterName (s := '.' :: (t.beforeVerb.text ++ s))
    (isBlank_head?_cons (by decide))).append (.exact ['.'] _)).append
    (prefers_gap t.beforeVerb hword_head)
  have hcoll := t.collection.prefers t.afterName (t.beforeVerb.text ++ s)
  have hcoll_head := t.collection.isBlank_head? (t.afterName.text ++ '.' :: (t.beforeVerb.text ++ s))
  generalize t.collection.text ++ (t.afterName.text ++ '.' :: (t.beforeVerb.text ++ s)) = u
    at hcoll hcoll_head
  have hdb := (((Prefers.exact ['d', 'b'] (t.afterDb.text ++ '.' :: (t.beforeName.text ++ u))).append
    (prefers_gap t.afterDb (isBlank_head?_cons (by decide)))).append (.exact ['.'] _)).append
    (prefers_gap t.beforeName hcoll_head)
  exact hdb.bind (hcoll.bind (hdot.bind (hword.bind (hopen.bind rfl))))

end Reading

/-! ## What a head does to a reader -/

/-- What a statement ends at. -/
def endsStatement (c : Char) : Bool :=
  c == ';' || c == '#' || c == '-'

theorem needs_statementEndsAt : statementEndsAt.Needs endsStatement := by
  intro before c s h
  rcases eq_of_statementEndsAt h with rfl | rfl | ⟨rfl, -⟩ <;> decide

/-- A text that leaves its reader where he was and in which no statement ends. -/
structure Inert (s : List Char) : Prop where
  balanced : Balanced s
  hides : Hides endsStatement s

namespace Inert

variable {c : Char} {s t : List Char}

theorem append (hs : Inert s) (ht : Inert t) : Inert (s ++ t) :=
  ⟨hs.balanced.append ht.balanced, hs.hides.append hs.balanced ht.hides⟩

theorem of_forall (h : ∀ c ∈ s, isPlain c = true ∧ endsStatement c = false) : Inert s :=
  ⟨.of_plain fun c hc => (h c hc).1, .of_forall fun c hc => (h c hc).2⟩

theorem cons (hplain : isPlain c = true) (hend : endsStatement c = false) (hs : Inert s) :
    Inert (c :: s) :=
  append (s := [c]) (.of_forall (by simpa using ⟨hplain, hend⟩)) hs

theorem of_collectionChars (h : ∀ c ∈ s, isCollectionChar c = true) : Inert s := by
  refine .of_forall fun c hc => ⟨isPlain_of_isCollectionChar (h c hc), ?_⟩
  have hne : ∀ d, isCollectionChar d = false → (c == d) = false := fun d hd =>
    beq_eq_false_iff_ne.mpr (ne_of_isCollectionChar (h c hc) hd)
  rw [endsStatement, hne ';' (by decide), hne '#' (by decide), hne '-' (by decide)]
  rfl

theorem of_blank (h : ∀ c ∈ s, isBlank c = true) : Inert s := by
  refine .of_forall fun c hc => ⟨isPlain_of_isBlank (h c hc), ?_⟩
  rw [← Bool.not_eq_true]
  intro hend
  have hblank := h c hc
  simp only [endsStatement, Bool.or_eq_true, beq_iff_eq] at hend
  rcases hend with (rfl | rfl) | rfl <;> exact absurd hblank (by decide)

end Inert

theorem inert_getCollection : Inert getCollection :=
  .of_collectionChars (List.all_eq_true.mp (by decide))

theorem Collection.inert_text (coll : Collection) : Inert coll.text := by
  cases coll with
  | plain coll => exact .of_collectionChars coll.chars
  | quoted coll outside before after =>
    have hname : Balanced (coll.quote :: (coll.name ++ [coll.quote])) :=
      .of_staysQuoted coll.isQuote_quote coll.escaped.staysQuoted
    have hinside := ((Balanced.of_blank before.isBlank).append hname).append (.of_blank after.isBlank)
    have hbrackets : Inert ('(' :: (before.text ++ (coll.quote :: (coll.name ++ [coll.quote])) ++
        after.text ++ [')'])) :=
      ⟨.bracketed rfl rfl hinside, .bracketed rfl rfl hinside (by decide) (by decide)⟩
    exact inert_getCollection.append ((Inert.of_blank outside.isBlank).append hbrackets)

theorem Target.inert_head (t : Target) {verb : List Char} (hverb : IsVerb verb) :
    Inert (t.head verb) := by
  have hword : Inert verb :=
    .of_collectionChars fun c hc => isCollectionChar_of_isWord (hverb.chars c hc)
  have htail := (Inert.of_blank t.beforeVerb.isBlank).append
    (hword.append (.of_blank t.afterVerb.isBlank))
  have hname := t.collection.inert_text.append
    ((Inert.of_blank t.afterName.isBlank).append (htail.cons (c := '.') (by decide) (by decide)))
  have hdb := (Inert.of_blank t.afterDb.isBlank).append
    (((Inert.of_blank t.beforeName.isBlank).append hname).cons (c := '.') (by decide) (by decide))
  exact (hdb.cons (by decide) (by decide)).cons (by decide) (by decide)

/-! ## Nothing else is read -/

section Inversion

variable {q sign : Char} {a s r z word name verb : List Char}

theorem mem_gap_sign (h : (z, r) ∈ (blanks ++ Form.exact [sign]) s) :
    ∃ g : Gap, s = g.text ++ sign :: r := by
  obtain ⟨gap, y, t, hgap, hy, -⟩ := mem_append.mp h
  obtain ⟨rfl, hblank⟩ := mem_run hgap
  obtain ⟨-, rfl⟩ := mem_exact.mp hy
  exact ⟨⟨gap, hblank⟩, rfl⟩

theorem mem_gap_sign_gap (h : (z, r) ∈ (blanks ++ Form.exact [sign] ++ blanks) s) :
    ∃ g g' : Gap, s = g.text ++ sign :: (g'.text ++ r) := by
  obtain ⟨x, gap, t, hx, hgap, -⟩ := mem_append.mp h
  obtain ⟨g, rfl⟩ := mem_gap_sign hx
  obtain ⟨rfl, hblank⟩ := mem_run hgap
  exact ⟨g, ⟨gap, hblank⟩, rfl⟩

theorem mem_word_sign (h : (z, r) ∈ (Form.exact word ++ blanks ++ Form.exact [sign] ++ blanks) s) :
    ∃ g g' : Gap, s = word ++ (g.text ++ sign :: (g'.text ++ r)) := by
  rw [append_assoc, append_assoc, ← append_assoc blanks] at h
  obtain ⟨x, y, t, hx, hy, -⟩ := mem_append.mp h
  obtain ⟨-, rfl⟩ := mem_exact.mp hx
  obtain ⟨g, g', rfl⟩ := mem_gap_sign_gap hy
  exact ⟨g, g', rfl⟩

theorem mem_quotedName (h : (name, r) ∈ quotedName q s) :
    s = q :: (name ++ q :: r) ∧ name ≠ [] ∧ ∀ c ∈ name, c ≠ q := by
  obtain ⟨x, t, hx, hrest⟩ := mem_bind.mp h
  obtain ⟨-, rfl⟩ := mem_exact.mp hx
  obtain ⟨z, t₁, hz, hclose⟩ := mem_bind.mp hrest
  obtain ⟨rfl, hne, hchars⟩ := mem_run1 hz
  obtain ⟨y, t₂, hy, hend⟩ := mem_bind.mp hclose
  obtain ⟨-, rfl⟩ := mem_exact.mp hy
  obtain ⟨rfl, rfl⟩ := mem_pure.mp hend
  exact ⟨rfl, hne, fun c hc => bne_iff_ne.mp (hchars c hc)⟩

theorem mem_getCollectionForm (h : (name, r) ∈ getCollectionForm s) :
    ∃ (q : Char) (outside before after : Gap), (q = '\x22' ∨ q = '\x27') ∧ name ≠ [] ∧
      (∀ c ∈ name, c ≠ q) ∧ s = quotedText q name outside before after ++ r := by
  obtain ⟨z, t, hz, hrest⟩ := mem_bind.mp h
  obtain ⟨outside, before, rfl⟩ := mem_word_sign hz
  obtain ⟨name', t', hname, hclose⟩ := mem_bind.mp hrest
  obtain ⟨z', t'', hz', hend⟩ := mem_bind.mp hclose
  obtain ⟨after, rfl⟩ := mem_gap_sign hz'
  obtain ⟨rfl, rfl⟩ := mem_pure.mp hend
  obtain ⟨q, hq, hquoted⟩ : ∃ q, (q = '\x22' ∨ q = '\x27') ∧
      (name, after.text ++ ')' :: r) ∈ quotedName q t := by
    obtain ⟨f, hf, hread⟩ := mem_oneOf.mp hname
    rcases List.mem_pair.mp hf with rfl | rfl
    · exact ⟨'\x22', .inl rfl, hread⟩
    · exact ⟨'\x27', .inr rfl, hread⟩
  obtain ⟨rfl, hne, hchars⟩ := mem_quotedName hquoted
  refine ⟨q, outside, before, after, hq, hne, hchars, ?_⟩
  change getCollection ++ _ = _
  simp [quotedText]

/-- In a name without its quote every backslash escapes a character, or the last one is left over. -/
theorem escaped_or_after (d : Nat) : ∀ s : List Char, (∀ c ∈ s, c ≠ q) →
    Escaped q s ∨ (inQuote d q).after s = { inQuote d q with escaped := true }
  | [], _ => .inl .nil
  | [c], h => by
    by_cases hc : c = '\\'
    · subst hc
      exact .inr (by simp [next, inQuote])
    · exact .inl (.plain (h c List.mem_cons_self) hc .nil)
  | c :: e :: s, h => by
    by_cases hc : c = '\\'
    · subst hc
      rw [after_cons, after_cons, next_next_inQuote_escape]
      exact (escaped_or_after d s fun c hc => h c (by simp [hc])).imp_left .escape
    · have hq := h c List.mem_cons_self
      rw [after_cons, next_inQuote_plain d hq hc]
      exact (escaped_or_after d (e :: s) fun c hc => h c (List.mem_cons_of_mem _ hc)).imp_left
        (.plain hq hc)

/-- Plain characters other than the backslash change nothing inside of a quote. -/
theorem after_inQuote_of_plain (hq : isQuote q = true)
    (h : ∀ c ∈ s, isQuote c = false ∧ c ≠ '\\') (d : Nat) :
    (inQuote d q).after s = inQuote d q := by
  refine (escaped_of_plain fun c hc => ⟨?_, (h c hc).2⟩).after_eq d
  rintro rfl
  rw [(h c hc).1] at hq
  cases hq

theorem Gap.after_inQuote (g : Gap) (hq : isQuote q = true) (d : Nat) :
    (inQuote d q).after g.text = inQuote d q := by
  refine after_inQuote_of_plain hq (fun c hc => ?_) d
  have hblank := g.isBlank c hc
  have hplain := isPlain_of_isBlank hblank
  simp only [isPlain, Bool.and_eq_true, Bool.not_eq_true'] at hplain
  refine ⟨hplain.1.1, ?_⟩
  rintro rfl
  exact absurd hblank (by decide)

theorem next_inQuote_sign (hq : isQuote q = true) {c : Char} (hc : isQuote c = false ∧ c ≠ '\\')
    (d : Nat) : (inQuote d q).next c = inQuote d q :=
  after_inQuote_of_plain (s := [c]) hq (by simpa using hc) d

/-- A name whose last backslash is left over keeps its quote open behind the parenthesis. -/
theorem after_quotedText (hq : isQuote q = true) (outside before after : Gap)
    (h : (inQuote 1 q).after name = { inQuote 1 q with escaped := true }) :
    start.after (quotedText q name outside before after) = inQuote 1 q := by
  have hescaped : Nesting.next { inQuote 1 q with escaped := true } q = inQuote 1 q := by
    simp [next, inQuote]
  have hopen : (atDepth 1).after (before.text ++ (q :: (name ++ [q]))) = inQuote 1 q := by
    rw [after_append, (Balanced.of_blank before.isBlank).after_eq, after_cons, next_quote 1 hq,
      after_append, h, after_cons, hescaped, after_nil]
  have hinside : (atDepth 1).after (before.text ++ (q :: (name ++ [q])) ++ after.text ++ [')']) =
      inQuote 1 q := by
    rw [after_append, after_append, hopen, after.after_inQuote hq, after_cons,
      next_inQuote_sign hq (by decide), after_nil]
  rw [quotedText, after_append, start_eq, inert_getCollection.balanced.after_eq 0, after_append,
    (Balanced.of_blank outside.isBlank).after_eq 0, after_cons, next_opener 0 rfl, hinside]

/-- A collection is read from its text, or a backslash keeps the quote of its name open. -/
theorem exists_collection (h : (name, r) ∈ oneOf [getCollectionForm, run1 isCollectionChar] s) :
    (∃ coll : Collection, coll.name = name ∧ s = coll.text ++ r) ∨
      ∃ a q, isQuote q = true ∧ s = a ++ r ∧ start.after a = inQuote 1 q := by
  obtain ⟨f, hf, hread⟩ := mem_oneOf.mp h
  simp only [List.mem_cons, List.not_mem_nil, or_false] at hf
  rcases hf with rfl | rfl
  · obtain ⟨q, outside, before, after, hq, hne, hchars, rfl⟩ := mem_getCollectionForm hread
    rcases escaped_or_after 1 name hchars with hescaped | hopen
    · exact .inl ⟨.quoted ⟨q, name, hq, hne, hchars, hescaped⟩ outside before after, rfl, rfl⟩
    · have hquote : isQuote q = true := by rcases hq with rfl | rfl <;> decide
      exact .inr ⟨_, q, hquote, rfl, after_quotedText hquote outside before after hopen⟩
  · obtain ⟨rfl, hne, hchars⟩ := mem_run1 hread
    exact .inl ⟨.plain ⟨name, hne, hchars⟩, rfl, rfl⟩

/-- A quote that a collection leaves open is open at the parenthesis behind the verb. -/
theorem quoted_mark_of_open (hq : isQuote q = true) (ha : start.after a = inQuote 1 q)
    (hverb : IsVerb verb) (afterDb beforeName afterName beforeVerb afterVerb : Gap) :
    ((start.after ('d' :: 'b' :: (afterDb.text ++ '.' :: beforeName.text) ++ a ++ (afterName.text ++
      '.' :: (beforeVerb.text ++ (verb ++ afterVerb.text))))).mark '(').quoted = true := by
  have hgaps : Inert (afterDb.text ++ '.' :: beforeName.text) :=
    (Inert.of_blank afterDb.isBlank).append
      ((Inert.of_blank beforeName.isBlank).cons (by decide) (by decide))
  have hbefore : start.after ('d' :: 'b' :: (afterDb.text ++ '.' :: beforeName.text)) = start :=
    ((hgaps.cons (by decide) (by decide)).cons (by decide) (by decide)).balanced.after_eq 0
  have hword : (inQuote 1 q).after verb = inQuote 1 q := by
    refine after_inQuote_of_plain hq (fun c hc => ?_) 1
    have hchar := isCollectionChar_of_isWord (hverb.chars c hc)
    have hplain := isPlain_of_isCollectionChar hchar
    simp only [isPlain, Bool.and_eq_true, Bool.not_eq_true'] at hplain
    exact ⟨hplain.1.1, ne_of_isCollectionChar hchar (by decide)⟩
  have hbehind : (inQuote 1 q).after (afterName.text ++ '.' :: (beforeVerb.text ++
      (verb ++ afterVerb.text))) = inQuote 1 q := by
    rw [after_append, afterName.after_inQuote hq, after_cons, next_inQuote_sign hq (by decide),
      after_append, beforeVerb.after_inQuote hq, after_append, hword, afterVerb.after_inQuote hq]
  rw [after_append, after_append start, hbefore, ha, hbehind]
  rfl

/-- What the form of a call fits on begins with a head, if the parenthesis behind what was read stands
outside quotes. -/
theorem exists_head (h : ((name, verb), r) ∈ callForm s) :
    IsVerb verb ∧ ∃ a, s = a ++ '(' :: r ∧
      ((∃ t : Target, t.collection.name = name ∧ a = t.head verb) ∨
        ((start.after a).mark '(').quoted = true) := by
  obtain ⟨z, t, hz, hrest⟩ := mem_bind.mp h
  obtain ⟨afterDb, beforeName, rfl⟩ := mem_word_sign hz
  obtain ⟨name', t', hname, hdot⟩ := mem_bind.mp hrest
  obtain ⟨z', t'', hz', hverb⟩ := mem_bind.mp hdot
  obtain ⟨afterName, beforeVerb, rfl⟩ := mem_gap_sign_gap hz'
  obtain ⟨verb', t₁, hword, hopen⟩ := mem_bind.mp hverb
  obtain ⟨rfl, hne, hchars⟩ := mem_run1 hword
  obtain ⟨z'', t₂, hz'', hend⟩ := mem_bind.mp hopen
  obtain ⟨afterVerb, rfl⟩ := mem_gap_sign hz''
  obtain ⟨heq, rfl⟩ := mem_pure.mp hend
  obtain ⟨rfl, rfl⟩ := Prod.mk.inj heq
  refine ⟨⟨hne, hchars⟩, ?_⟩
  rcases exists_collection hname with ⟨coll, rfl, rfl⟩ | ⟨a, q, hq, rfl, hafter⟩
  · let target : Target := { collection := coll, afterDb, beforeName, afterName, beforeVerb, afterVerb }
    exact ⟨target.head verb, by simp [target, Target.head], .inl ⟨target, rfl, rfl⟩⟩
  · exact ⟨_, by simp, .inr (quoted_mark_of_open hq hafter ⟨hne, hchars⟩ afterDb beforeName afterName
      beforeVerb afterVerb)⟩

end Inversion

end SchemaLint.Shell
