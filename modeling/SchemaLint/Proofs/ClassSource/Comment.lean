import Mathlib.Data.List.Basic
import Mathlib.Data.List.Infix
import SchemaLint.ClassSource

/-!
# Comments taken out of class sources

Taking comments out of a text a second time changes nothing (`ClassSource.withoutComments_twice`), and all
line ends stay (`ClassSource.count_withoutComments`). Behind a text at whose end a reader stands in code,
unless a slash there runs into what follows, the rest of a source is read as if it stood alone
(`ClassSource.withoutComments_append`). So of a block comment put there nothing is left but a blank and its
line ends (`ClassSource.code_commented`), and what is taken from the source does not depend
on what the comment says (`ClassSource.comments_leave_no_trace`).
-/

namespace SchemaLint.ClassSource

/-- Where a reader of a class source stands behind a text. -/
def Mode.after : Mode → List Char → Mode
  | m, [] => m
  | .code, '/' :: '/' :: s => after .lineComment s
  | .code, '/' :: '*' :: s => after .blockComment s
  | .code, c :: s => after (.afterCode c) s
  | .lineComment, c :: s => if c == '\n' then after .code s else after .lineComment s
  | .blockComment, '*' :: '/' :: s => after .code s
  | .blockComment, _ :: s => after .blockComment s
  | .literal quote, ['\\'] => .literal quote
  | .literal quote, '\\' :: _ :: s => after (.literal quote) s
  | .literal quote, c :: s => after (.afterLiteral quote c) s

section Read

variable {c : Char} {s : List Char}

/-! ## Characters read one at a time -/

theorem withoutComments_nil (m : Mode) : withoutComments m [] = [] := by
  unfold withoutComments
  rfl

/-- A character of code that begins no comment is kept. -/
theorem withoutComments_code_cons (h : c = '/' → ∀ d ∈ s.head?, d ≠ '/' ∧ d ≠ '*') :
    withoutComments .code (c :: s) = c :: withoutComments (.afterCode c) s := by
  rw [withoutComments]
  · rintro t rfl rfl
    exact (h rfl '/' rfl).1 rfl
  · rintro t rfl rfl
    exact (h rfl '*' rfl).2 rfl

/-- A character of a comment that does not end it is kept if it is a line end. -/
theorem withoutComments_block_cons (h : c = '*' → ∀ d ∈ s.head?, d ≠ '/') :
    withoutComments .blockComment (c :: s) =
      [c].filter (· == '\n') ++ withoutComments .blockComment s := by
  rw [withoutComments]
  · by_cases hc : c = '\n' <;> simp [hc]
  · rintro t rfl rfl
    exact h rfl '/' rfl rfl

theorem withoutComments_literal_cons {quote : Char} (h : c = '\\' → s = []) :
    withoutComments (.literal quote) (c :: s) = c :: withoutComments (.afterLiteral quote c) s := by
  rw [withoutComments]
  rintro d t rfl rfl
  cases h rfl

theorem ne_of_mem_head? (h : ∀ t, s = c :: t → False) : ∀ d ∈ s.head?, d ≠ c := by
  rintro d hd rfl
  obtain ⟨t, hs⟩ := List.head?_eq_some_iff.mp hd
  exact h t hs

theorem head?_withoutComments_code (h : ∀ d ∈ s.head?, d ≠ '/') :
    (withoutComments .code s).head? = s.head? := by
  cases s with
  | nil => rfl
  | cons d s =>
    rw [withoutComments_code_cons fun hd => absurd hd (h d rfl)]
    rfl

end Read

/-- Without a slash there are no comments. -/
theorem withoutComments_of_not_mem {m : Mode} {s : List Char}
    (hm : m ≠ .lineComment ∧ m ≠ .blockComment) (h : '/' ∉ s) : withoutComments m s = s := by
  fun_induction withoutComments m s with
  | case1 => rfl
  | case2 | case3 => simp at h
  | case4 c s _ _ ih =>
    rw [ih ?_ fun hmem => h (List.mem_cons_of_mem _ hmem)]
    unfold Mode.afterCode
    split <;> simp
  | case5 | case6 => exact absurd rfl hm.1
  | case7 | case8 | case9 => exact absurd rfl hm.2
  | case10 quote c s ih => rw [ih (by simp) fun hmem => h (by simp [hmem])]
  | case11 quote c s _ ih =>
    rw [ih ?_ fun hmem => h (List.mem_cons_of_mem _ hmem)]
    unfold Mode.afterLiteral
    split <;> simp

theorem code_of_not_mem {source : String} (h : '/' ∉ source.toList) : code source = source.toList :=
  withoutComments_of_not_mem (by simp) h

/-! ## Line ends, and comments taken out twice -/

/-- All line ends stay. -/
theorem count_withoutComments (m : Mode) (s : List Char) :
    (withoutComments m s).count '\n' = s.count '\n' := by
  fun_induction withoutComments m s with
  | case1 => rfl
  | case2 s ih | case7 s ih => simpa using ih
  | case3 s ih => simpa using ih
  | case4 c s _ _ ih | case11 quote c s _ ih => simp [List.count_cons, ih]
  | case5 c s hc ih | case8 c s _ hc ih => simp [List.count_cons, ih, hc]
  | case6 c s hc ih | case9 c s _ hc ih => simpa [List.count_cons, hc] using ih
  | case10 quote c s ih => simp [List.count_cons, ih]

/-- Where a reader of a text without comments stands when a reader of the text itself stands in `m`. -/
def Mode.uncommented : Mode → Mode
  | .code | .lineComment | .blockComment => .code
  | .literal quote => .literal quote

theorem Mode.uncommented_afterCode (c : Char) : (afterCode c).uncommented = afterCode c := by
  unfold afterCode
  split <;> rfl

theorem Mode.uncommented_afterLiteral (quote c : Char) :
    (afterLiteral quote c).uncommented = afterLiteral quote c := by
  unfold afterLiteral
  split <;> rfl

/-- A text without comments has no comments. The induction is on the reading of the text; what has been
taken out never brings a slash in front of another slash or a star. -/
theorem withoutComments_twice (m : Mode) (s : List Char) :
    withoutComments m.uncommented (withoutComments m s) = withoutComments m s := by
  fun_induction withoutComments m s with
  | case1 m => exact withoutComments_nil _
  | case2 s ih => exact ih
  | case3 s ih =>
    rw [Mode.uncommented, withoutComments_code_cons (by rintro ⟨⟩)]
    exact congrArg _ ih
  | case4 c s hline hblock ih =>
    rw [Mode.uncommented_afterCode] at ih
    rw [Mode.uncommented, withoutComments_code_cons, ih]
    rintro rfl d hd
    have hslash := ne_of_mem_head? fun t ht => hline t rfl ht
    rw [show Mode.afterCode '/' = .code from rfl, head?_withoutComments_code hslash] at hd
    exact ⟨hslash d hd, ne_of_mem_head? (fun t ht => hblock t rfl ht) d hd⟩
  | case5 c s hc ih =>
    rw [Mode.uncommented, withoutComments_code_cons (by rintro ⟨⟩)]
    exact congrArg _ ih
  | case6 c s hc ih => exact ih
  | case7 s ih => exact ih
  | case8 c s _ hc ih =>
    rw [Mode.uncommented, withoutComments_code_cons (by rintro ⟨⟩)]
    exact congrArg _ ih
  | case9 c s _ hc ih => exact ih
  | case10 quote c s ih =>
    rw [Mode.uncommented, withoutComments]
    exact congrArg (fun t => _ :: _ :: t) ih
  | case11 quote c s hescape ih =>
    rw [Mode.uncommented_afterLiteral] at ih
    rw [Mode.uncommented, withoutComments_literal_cons, ih]
    rintro rfl
    cases s with
    | nil => exact withoutComments_nil _
    | cons d s => exact absurd rfl (hescape d s rfl)

/-! ## Texts put together -/

theorem getLast?_of_cons {c a : Char} {p : List Char} (h : (a :: p).getLast? ≠ some c) :
    p.getLast? ≠ some c := by
  cases p with
  | nil => simp
  | cons b p => simpa using h

/-- Behind a text at whose end a reader stands in code, what follows is read as if it stood alone. -/
theorem withoutComments_append {m : Mode} {p : List Char} (hp : m.after p = .code)
    (hlast : p.getLast? ≠ some '/') (s : List Char) :
    withoutComments m (p ++ s) = withoutComments m p ++ withoutComments .code s := by
  fun_induction Mode.after m p with
  | case1 m =>
    obtain rfl : m = .code := hp
    rfl
  | case2 p ih =>
    exact ih hp (getLast?_of_cons (getLast?_of_cons hlast))
  | case3 p ih =>
    exact congrArg _ (ih hp (getLast?_of_cons (getLast?_of_cons hlast)))
  | case4 c p hline hblock ih =>
    have hslash : c = '/' → ∀ d ∈ p.head?, d ≠ '/' ∧ d ≠ '*' := fun hc d hd =>
      ⟨ne_of_mem_head? (fun t ht => hline t hc ht) d hd, ne_of_mem_head? (fun t ht => hblock t hc ht) d hd⟩
    have hbehind : c = '/' → (p ++ s).head? = p.head? := by
      rintro rfl
      refine List.head?_append_of_ne_nil _ ?_
      rintro rfl
      exact hlast rfl
    rw [List.cons_append, withoutComments_code_cons fun hc => by rw [hbehind hc]; exact hslash hc,
      withoutComments_code_cons hslash, ih hp (getLast?_of_cons hlast), List.cons_append]
  | case5 c p hc ih =>
    rw [List.cons_append, withoutComments, if_pos hc, withoutComments, if_pos hc,
      ih hp (getLast?_of_cons hlast), List.cons_append]
  | case6 c p hc ih =>
    rw [List.cons_append, withoutComments, if_neg hc, withoutComments, if_neg hc,
      ih hp (getLast?_of_cons hlast)]
  | case7 p ih => exact ih hp (getLast?_of_cons (getLast?_of_cons hlast))
  | case8 c p hend ih =>
    have hstar : c = '*' → ∀ d ∈ p.head?, d ≠ '/' := fun hc =>
      ne_of_mem_head? fun t ht => hend t hc ht
    have hbehind : c = '*' → (p ++ s).head? = p.head? := by
      rintro rfl
      refine List.head?_append_of_ne_nil _ ?_
      rintro rfl
      cases hp
    rw [List.cons_append, withoutComments_block_cons fun hc => by rw [hbehind hc]; exact hstar hc,
      withoutComments_block_cons hstar, ih hp (getLast?_of_cons hlast), List.append_assoc]
  | case9 quote => cases hp
  | case10 quote c p ih =>
    exact congrArg (fun t => _ :: _ :: t) (ih hp (getLast?_of_cons (getLast?_of_cons hlast)))
  | case11 quote c p hlone hescape ih =>
    have hkept : c ≠ '\\' := by
      rintro rfl
      cases p with
      | nil => exact hlone rfl rfl
      | cons d p => exact hescape d p rfl rfl
    rw [List.cons_append, withoutComments_literal_cons fun hc => absurd hc hkept,
      withoutComments_literal_cons fun hc => absurd hc hkept, ih hp (getLast?_of_cons hlast),
      List.cons_append]

section Block

variable {p q b b' : List Char}

/-- Of what a block comment says its line ends are left. -/
theorem withoutComments_block_append (hb : ¬"*/".toList <:+: b) (s : List Char) :
    withoutComments .blockComment (b ++ ("*/".toList ++ s)) =
      b.filter (· == '\n') ++ withoutComments .code s := by
  induction b with
  | nil => rfl
  | cons c b ih =>
    have hstar : c = '*' → ∀ d ∈ (b ++ ("*/".toList ++ s)).head?, d ≠ '/' := by
      rintro rfl d hd rfl
      cases b with
      | nil => simp at hd
      | cons e b =>
        obtain rfl := Option.some.inj hd
        exact hb (List.prefix_append _ b).isInfix
    have hlater : ¬"*/".toList <:+: b := fun h => hb (h.trans (List.suffix_cons c b).isInfix)
    rw [List.cons_append, withoutComments_block_cons hstar, ih hlater, ← List.append_assoc,
      ← List.filter_append]
    rfl

/-- A source with a block comment. -/
def commented (p b q : List Char) : String :=
  String.ofList (p ++ ("/*".toList ++ (b ++ ("*/".toList ++ q))))

/-- Of a block comment a blank and its line ends are left. -/
theorem code_commented (hp : Mode.code.after p = .code) (hlast : p.getLast? ≠ some '/')
    (hb : ¬"*/".toList <:+: b) : code (commented p b q) =
      withoutComments .code p ++ ' ' :: (b.filter (· == '\n') ++ withoutComments .code q) := by
  have hopen : withoutComments .code ("/*".toList ++ (b ++ ("*/".toList ++ q))) =
      ' ' :: withoutComments .blockComment (b ++ ("*/".toList ++ q)) := rfl
  rw [code, commented, String.toList_ofList, withoutComments_append hp hlast, hopen,
    withoutComments_block_append hb]

theorem code_commented_congr (hp : Mode.code.after p = .code) (hlast : p.getLast? ≠ some '/')
    (hb : ¬"*/".toList <:+: b) (hb' : ¬"*/".toList <:+: b') (hlines : b.count '\n' = b'.count '\n') :
    code (commented p b q) = code (commented p b' q) := by
  rw [code_commented hp hlast hb, code_commented hp hlast hb', List.filter_beq, List.filter_beq, hlines]

end Block

/-- Taking comments out is done once for all and keeps all line ends. Two block comments with the same
number of lines, put at the same place of the code of a source, leave the same text, so that the same is
taken from the source and the same classes are declared in it. -/
theorem comments_leave_no_trace :
    (∀ source, code (String.ofList (code source)) = code source ∧
      (code source).count '\n' = source.toList.count '\n') ∧
    ∀ p q b b' : List Char, Mode.code.after p = .code → p.getLast? ≠ some '/' →
      ¬"*/".toList <:+: b → ¬"*/".toList <:+: b' → b.count '\n' = b'.count '\n' →
      code (commented p b q) = code (commented p b' q) ∧
        outline (commented p b q) = outline (commented p b' q) ∧
        ∀ name, declares (commented p b q) name = declares (commented p b' q) name := by
  refine ⟨fun source => ⟨?_, count_withoutComments _ _⟩, fun p q b b' hp hlast hb hb' hlines => ?_⟩
  · rw [code, String.toList_ofList]
    exact withoutComments_twice .code source.toList
  · have hcode := code_commented_congr (q := q) hp hlast hb hb' hlines
    exact ⟨hcode, by rw [outline, outline, hcode], fun name => by rw [declares, declares, hcode]⟩

/-- Behind a literal that shows how a comment begins, fields in a comment are not read. -/
theorem field_in_comment_unread :
    Mode.code.after "class A \x7b String s = \"/*\\\"\"; ".toList = .code ∧
      outline "class A \x7b String s = \"/*\\\"\"; /*private int x;\n*/private int y; \x7d" =
        outline "class A \x7b String s = \"/*\\\"\"; /*//'\n \" **/private int y; \x7d" := by
  have hcode : Mode.code.after "class A \x7b String s = \"/*\\\"\"; ".toList = .code := by decide
  exact ⟨hcode, (comments_leave_no_trace.2 _ "private int y; \x7d".toList "private int x;\n".toList
    "//'\n \" *".toList hcode (by decide) (by decide) (by decide) (by decide)).2.1⟩

end SchemaLint.ClassSource
