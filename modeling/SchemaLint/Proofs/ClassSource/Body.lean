import SchemaLint.Proofs.ClassSource.Field
import SchemaLint.Proofs.Schema.Merge

/-!
# Bodies of classes read

What is read for a declaration of a field is a declaration as it is written whose names are words
(`ClassSource.exists_of_mem_fieldDeclaration`). So none begins in blanks, none in front of a brace that stands
before the next value or end, such as the header of a class, none without a visibility, and none behind the
last end. One of whose names is no word is passed over up to its type, for whatever is read in front of a type
and a name has this type and this name (`ClassSource.FieldText.fieldDeclaration_wording_eq_nil`).

A declaration ends at the first semicolon, so the declarations in the body of a class are read one after
another (`ClassSource.findAll_lines`): those whose names are words as they are written, and of the others what
is declared behind their modifiers, such as in their values. The fields of the class are the first ones of each
name among them (`ClassSource.fields_of_class`).
-/

namespace SchemaLint.ClassSource

open Form Text

/-! ## What is read for declarations of fields -/

section Parts

theorem keeps_freshWord (ws : List String) (before : Option Char) : (freshWord ws before).Keeps := by
  unfold freshWord
  split
  · exact keeps_oneOf (by simp)
  · exact keeps_oneOf (by simp [keeps_exact])

theorem keeps_visibility (before : Option Char) : (freshWord visibilities before ++ space1).Keeps :=
  (keeps_freshWord _ _).append (keeps_span1 _)

theorem keeps_modifier : modifier.Keeps :=
  (keeps_oneOf (by simp [keeps_exact])).append (keeps_span1 _)

theorem keeps_typeArguments : typeArguments.Keeps :=
  ((((keeps_span _).append (keeps_exact _)).append (keeps_run _))).append (keeps_exact _)

theorem keeps_brackets : brackets.Keeps :=
  ((((keeps_span _).append (keeps_exact _)).append (keeps_span _))).append (keeps_exact _)

theorem keeps_typeName : typeName.Keeps :=
  ((keeps_span1 _).append keeps_typeArguments.opt).append keeps_brackets.star

end Parts

variable {before : Option Char} {s r : List Char}

theorem mem_freshWord {ws : List String} {x : List Char} (h : (x, r) ∈ freshWord ws before s) :
    ∃ w ∈ ws, x = w.toList := by
  unfold freshWord at h
  split at h
  · cases h
  · obtain ⟨f, hf, hx⟩ := mem_oneOf.mp h
    obtain ⟨w, hw, rfl⟩ := List.mem_map.mp hf
    exact ⟨w, hw, (mem_exact.mp hx).1⟩

theorem mem_visibility {x : List Char} (h : (x, r) ∈ (freshWord visibilities before ++ space1) s) :
    ∃ v : SpacedWord visibilities, x = v.text := by
  obtain ⟨w, gap, _, hw, hgap, rfl⟩ := mem_append.mp h
  obtain ⟨w, hmem, rfl⟩ := mem_freshWord hw
  obtain ⟨-, hne, hblank⟩ := mem_span1 hgap
  exact ⟨⟨w, gap, hmem, hne, hblank⟩, rfl⟩

theorem mem_modifier {x : List Char} (h : (x, r) ∈ modifier s) :
    ∃ m : SpacedWord modifierWords, x = m.text := by
  obtain ⟨w, gap, _, hw, hgap, rfl⟩ := mem_append.mp h
  obtain ⟨f, hf, hw⟩ := mem_oneOf.mp hw
  obtain ⟨v, hmem, rfl⟩ := List.mem_map.mp hf
  obtain ⟨rfl, -⟩ := mem_exact.mp hw
  obtain ⟨-, hne, hblank⟩ := mem_span1 hgap
  exact ⟨⟨v, gap, hmem, hne, hblank⟩, rfl⟩

/-- What ends a declaration: its value, if it has one, and a semicolon. -/
theorem mem_ending {x : List Char} (h : (x, r) ∈ (space ++ opt initializer ++ exact [';']) s) :
    ∃ (gap : List Char) (value : Option (List Char)), (∀ b ∈ gap, isBlank b = true) ∧ (∀ v ∈ value, ';' ∉ v) ∧
      s = gap ++ ((value.map ('=' :: ·)).getD [] ++ ';' :: r) := by
  obtain ⟨y, z, t, hy, hz, -⟩ := mem_append.mp h
  obtain ⟨-, rfl⟩ := mem_exact.mp hz
  obtain ⟨gap, v, u, hgap, hv, -⟩ := mem_append.mp hy
  obtain ⟨rfl, hblank⟩ := mem_span hgap
  rcases mem_opt hv with hv | ⟨-, rfl⟩
  · obtain ⟨sign, value, q, hsign, hvalue, -⟩ := mem_append.mp hv
    obtain ⟨-, rfl⟩ := mem_exact.mp hsign
    obtain ⟨rfl, hchars⟩ := mem_span hvalue
    refine ⟨gap, some value, hblank, ?_, by simp⟩
    rintro v ⟨⟩ hmem
    exact absurd (hchars ';' hmem) (by decide)
  · exact ⟨gap, none, hblank, nofun, rfl⟩

theorem isNameChar_of_isWord {c : Char} (h : Unicode.isWord c = true) : isNameChar c = true := by
  have hsigns : ";=()\x7b\x7d<>[],".toList.any Unicode.isWord = false := by decide
  have hmem : c ∉ ";=()\x7b\x7d<>[],".toList := fun hmem => List.any_eq_false.mp hsigns c hmem h
  rw [isNameChar, Unicode.isBlank_of_isWord h, List.contains_eq_mem, decide_eq_false hmem]
  rfl

/-- What is read for a declaration of a field is a declaration as it is written whose names are words. -/
theorem exists_of_mem_fieldDeclaration {a : FieldDeclaration} (h : (a, r) ∈ fieldDeclaration before s) :
    ∃ e : FieldText, e.Legible ∧ s = e.text ++ r ∧ a = e.declaration := by
  obtain ⟨_, s₁, rfl, hvisibility, h₁⟩ := (keeps_visibility before).mem_bind h
  obtain ⟨v, rfl⟩ := mem_visibility hvisibility
  obtain ⟨_, s₂, rfl, hmodifiers, h₂⟩ := keeps_modifier.star.mem_bind h₁
  obtain ⟨ms, rfl⟩ := exists_of_mem_star (fun _ _ _ h => mem_modifier h) hmodifiers
  obtain ⟨_, s₃, rfl, htype, h₃⟩ := keeps_typeName.mem_bind h₂
  obtain ⟨type, rfl⟩ := mem_typeName htype
  obtain ⟨gap, s₄, rfl, hgap, h₄⟩ := (keeps_span1 _).mem_bind h₃
  obtain ⟨-, hgap_ne, hblank⟩ := mem_span1 hgap
  obtain ⟨name, s₅, rfl, hname, h₅⟩ := (keeps_span1 _).mem_bind h₄
  obtain ⟨-, hname_ne, hword⟩ := mem_span1 hname
  obtain ⟨_, _, hending, hpure⟩ := Form.mem_bind.mp h₅
  obtain ⟨rfl, rfl⟩ := mem_pure.mp hpure
  obtain ⟨gap', value, hblank', hvalue, rfl⟩ := mem_ending hending
  have hbase : ∀ c ∈ type.name, isNameChar c = true := by
    intro c hc
    rcases Bool.or_eq_true_iff.mp (type.name_chars c hc) with h | h
    · exact isNameChar_of_isWord h
    · rw [beq_iff_eq.mp h]
      decide
  let e : FieldText :=
    { visibility := v, modifiers := ms, base := type.name, arguments := type.arguments, suffix := type.suffix
      gap, name, gap', value, base_ne_nil := type.name_ne_nil, base_chars := hbase
      gap_ne_nil := hgap_ne, isBlank_gap := hblank, name_ne_nil := hname_ne
      name_chars := fun c hc => isNameChar_of_isWord (hword c hc), isBlank_gap' := hblank', value_chars := hvalue }
  have hlegible : e.Legible := ⟨type.name_chars, hword⟩
  have htext : e.type = type.text := hlegible.text_typeText.symm
  refine ⟨e, hlegible, ?_, ?_⟩
  · simp [FieldText.text, FieldText.typed, FieldText.named, FieldText.ending, htext, e]
  · rw [FieldText.declaration, htext, ← words_flatMap_text isWord_modifierWords (by decide) ms]

namespace FieldText

variable (d : FieldText)

/-- A declaration from its type up to its value or its end. -/
def front : List Char :=
  d.type ++ (d.gap ++ (d.name ++ d.gap'))

theorem typed_eq : d.typed = d.front ++ d.ending := by
  simp [typed, front, named]

theorem isArgumentChar_type : ∀ c ∈ d.type, isArgumentChar c = true := by
  have hbase : ∀ c ∈ d.base, isArgumentChar c = true := fun c hc =>
    (isArgumentChar_of (d.base_chars c hc) (by decide)).1
  have hblank : ∀ {c}, isBlank c = true → isArgumentChar c = true := fun h => (isArgumentChar_of_isBlank h).1
  intro c hc
  rcases List.mem_append.mp hc with hc | hc
  · exact hbase c hc
  rcases List.mem_append.mp hc with hc | hc
  · cases harguments : d.arguments with
    | none =>
      rw [harguments] at hc
      cases hc
    | some a =>
      rw [harguments, Option.map_some, Option.getD_some, Arguments.text] at hc
      simp only [List.mem_append, List.mem_cons, List.not_mem_nil, or_false] at hc
      rcases hc with hc | rfl | hc | rfl
      · exact hblank (a.isBlank_gap c hc)
      · decide
      · exact a.inside_chars c hc
      · decide
  · obtain ⟨b, -, hc⟩ := List.mem_flatMap.mp hc
    simp only [Brackets.text, List.mem_append, List.mem_cons, List.not_mem_nil, or_false] at hc
    rcases hc with hc | rfl | hc | rfl
    · exact hblank (b.isBlank_gap c hc)
    · decide
    · exact hblank (b.isBlank_inside c hc)
    · decide

/-- Up to its value or its end a declaration has only characters that may stand between angle brackets. -/
theorem isArgumentChar_front : ∀ c ∈ d.front, isArgumentChar c = true := by
  simp only [front, List.forall_mem_append]
  exact ⟨d.isArgumentChar_type, fun c hc => (isArgumentChar_of_isBlank (d.isBlank_gap c hc)).1,
    fun c hc => (isArgumentChar_of (d.name_chars c hc) (by decide)).1,
    fun c hc => (isArgumentChar_of_isBlank (d.isBlank_gap' c hc)).1⟩

/-- A declaration up to its type. -/
def lead : List Char :=
  d.visibility.text ++ d.modifiers.flatMap SpacedWord.text

theorem text_eq : d.text = d.lead ++ d.typed := by
  rw [text, lead, List.append_assoc]

end FieldText

/-! ## Names that are no words -/

/-- Words and blanks only. -/
def IsWording (x : List Char) : Prop :=
  ∀ c ∈ x, Unicode.isWord c = true ∨ isBlank c = true

theorem isWording_text {ws : List String} (hws : ∀ v ∈ ws, ∀ c ∈ v.toList, Unicode.isWord c = true)
    (w : SpacedWord ws) : IsWording w.text := by
  intro c hc
  rcases List.mem_append.mp hc with hc | hc
  · exact .inl (hws _ w.mem c hc)
  · exact .inr (w.isBlank_gap c hc)

theorem IsWording.not_mem {x : List Char} (h : IsWording x) {c : Char}
    (hword : Unicode.isWord c = false) (hblank : isBlank c = false) : c ∉ x := by
  intro hc
  rcases h c hc with hc | hc
  · rw [hword] at hc
    cases hc
  · rw [hblank] at hc
    cases hc

/-- What passes a test is told apart from what begins with a character that does not. -/
theorem append_inj_of_head {p : Char → Bool} {x y u v : List Char} (hx : ∀ c ∈ x, p c = true)
    (hy : ∀ c ∈ y, p c = true) (hu : ∀ c ∈ u.head?, p c = false) (hv : ∀ c ∈ v.head?, p c = false)
    (h : x ++ u = y ++ v) : x = y := by
  have hspan : Only (span p) (x ++ u) x u := .span hx hu
  have hspan' : Only (span p) (y ++ v) y v := .span hy hv
  rw [h] at hspan
  exact (Prod.mk.inj (List.singleton_inj.mp (hspan.symm.trans hspan'))).1

namespace FieldText

variable {d e : FieldText} {z : List Char}

theorem isWording_lead (d : FieldText) : IsWording d.lead := by
  intro c hc
  rcases List.mem_append.mp hc with hc | hc
  · exact isWording_text isWord_visibilities d.visibility c hc
  · obtain ⟨m, -, hc⟩ := List.mem_flatMap.mp hc
    exact isWording_text isWord_modifierWords m c hc

theorem isBlank_of_isNameChar {c : Char} (h : isNameChar c = true) : isBlank c = false := by
  rw [isNameChar, Bool.and_eq_true, Bool.not_eq_true'] at h
  exact h.1

/-- The last word in front of the value or the end is the name. -/
theorem words_append_front (d : FieldText) (z : List Char) :
    words (z ++ d.front) = words (z ++ d.type) ++ [d.name] := by
  have hname : words (d.name ++ d.gap') = [d.name] := by
    rw [words_append_blank d.isBlank_gap',
      words_of_forall d.name_ne_nil fun c hc => isBlank_of_isNameChar (d.name_chars c hc)]
  rw [front, ← List.append_assoc, words_append_spaced d.gap_ne_nil d.isBlank_gap, hname]

/-- Where the names are words, only words, dots and blanks stand in front of the first bracket. -/
theorem Legible.exists_bracket (h : e.Legible) : ∃ x y, e.front = x ++ y ∧
    (∀ c ∈ x, (Unicode.isWord c || c == '.') = true ∨ isBlank c = true) ∧ ∀ c ∈ y.head?, c = '<' ∨ c = '[' := by
  have hbase : ∀ c ∈ e.base, (Unicode.isWord c || c == '.') = true ∨ isBlank c = true :=
    fun c hc => .inl (h.1 c hc)
  have hblank : ∀ {gap : List Char}, (∀ c ∈ gap, isBlank c = true) →
      ∀ c ∈ gap, (Unicode.isWord c || c == '.') = true ∨ isBlank c = true :=
    fun hgap c hc => .inr (hgap c hc)
  cases harguments : e.arguments with
  | some a =>
    refine ⟨e.base ++ a.gap, '<' :: (a.inside ++ '>' :: (e.suffix.flatMap Brackets.text ++
      (e.gap ++ (e.name ++ e.gap')))), ?_, List.forall_mem_append.mpr ⟨hbase, hblank a.isBlank_gap⟩, ?_⟩
    · simp [front, type, harguments, Arguments.text]
    · rintro c ⟨⟩
      exact .inl rfl
  | none =>
    cases hsuffix : e.suffix with
    | cons b bs =>
      refine ⟨e.base ++ b.gap, '[' :: (b.inside ++ ']' :: (bs.flatMap Brackets.text ++
        (e.gap ++ (e.name ++ e.gap')))), ?_, List.forall_mem_append.mpr ⟨hbase, hblank b.isBlank_gap⟩, ?_⟩
      · simp [front, type, harguments, hsuffix, Brackets.text]
      · rintro c ⟨⟩
        exact .inr rfl
    | nil =>
      refine ⟨e.front, [], (List.append_nil _).symm, ?_, by simp⟩
      simp only [front, type, harguments, hsuffix, Option.map_none, Option.getD_none, List.flatMap_nil,
        List.append_nil, List.forall_mem_append]
      exact ⟨hbase, hblank e.isBlank_gap, fun c hc => .inl (by rw [h.2 c hc]; rfl), hblank e.isBlank_gap'⟩

/-- In front of a value or an end one type and one name stand: if they are read as words, they are words. -/
theorem Legible.of_front_eq (h : e.Legible) (hz : IsWording z) (heq : z ++ d.front = e.lead ++ e.front) :
    d.Legible := by
  have hname : d.name = e.name := by
    have hwords := congrArg words heq
    rw [words_append_front, words_append_front] at hwords
    exact List.singleton_inj.mp (List.append_inj_right' hwords rfl)
  refine ⟨fun c hc => ?_, by rw [hname]; exact h.2⟩
  obtain ⟨x, y, hfront, hx, hy⟩ := h.exists_bracket
  have hsplit : (z ++ d.base) ++ (((d.arguments.map Arguments.text).getD [] ++ d.suffix.flatMap Brackets.text) ++
      (d.gap ++ (d.name ++ d.gap'))) = (e.lead ++ x) ++ y := by
    rw [List.append_assoc e.lead, ← hfront, ← heq]
    simp [front, type]
  -- The type's name stands in front of the first bracket, so it is part of what is read there.
  have hmem : c ∈ e.lead ++ x := by
    rcases List.append_eq_append_iff.mp hsplit with ⟨v, hv, -⟩ | ⟨v, hv, hyv⟩
    · rw [hv]
      exact List.mem_append_left v (List.mem_append_right z hc)
    · cases v with
      | nil =>
        rw [List.append_nil] at hv
        rw [← hv]
        exact List.mem_append_right z hc
      | cons b v =>
        have hb : b = '<' ∨ b = '[' := hy b (by rw [hyv]; rfl)
        have hmem : b ∈ z ++ d.base := by
          rw [hv]
          simp
        rcases List.mem_append.mp hmem with hmem | hmem
        · refine absurd hmem (hz.not_mem ?_ ?_) <;> rcases hb with rfl | rfl <;> decide
        · have hchar := d.base_chars b hmem
          rcases hb with rfl | rfl <;> exact absurd hchar (by decide)
  have hblank := isBlank_of_isNameChar (d.base_chars c hc)
  rcases List.mem_append.mp hmem with hmem | hmem
  · rcases e.isWording_lead c hmem with hword | hb
    · rw [hword]
      rfl
    · rw [hblank] at hb
      cases hb
  · rcases hx c hmem with hword | hb
    · exact hword
    · rw [hblank] at hb
      cases hb

theorem isArgumentChar_of_isWording (hz : IsWording z) : ∀ c ∈ z, isArgumentChar c = true := by
  intro c hc
  rcases hz c hc with hword | hblank
  · exact (isArgumentChar_of_isWord hword).1
  · exact (isArgumentChar_of_isBlank hblank).1

theorem head?_ending_append (d : FieldText) (t : List Char) :
    ∀ c ∈ (d.ending ++ t).head?, isArgumentChar c = false := by
  obtain ⟨c, r, hending, hc, -, -⟩ := d.exists_ending t
  rw [hending]
  rintro _ ⟨⟩
  exact hc

/-- At words in front of a type a declaration is only read if the names that follow are words. -/
theorem fieldDeclaration_wording_eq_nil (hz : IsWording z) (h : ¬d.Legible) (t : List Char) :
    fieldDeclaration before (z ++ (d.typed ++ t)) = [] := by
  refine List.eq_nil_iff_forall_not_mem.mpr fun way hway => h ?_
  obtain ⟨e, he, hs, -⟩ := exists_of_mem_fieldDeclaration (a := way.1) (r := way.2) hway
  refine he.of_front_eq hz (append_inj_of_head (p := isArgumentChar) (u := d.ending ++ t) (v := e.ending ++ way.2)
    ?_ ?_ (d.head?_ending_append t) (e.head?_ending_append way.2) ?_)
  · exact List.forall_mem_append.mpr ⟨isArgumentChar_of_isWording hz, d.isArgumentChar_front⟩
  · exact List.forall_mem_append.mpr
      ⟨isArgumentChar_of_isWording e.isWording_lead, e.isArgumentChar_front⟩
  · simpa [text_eq, typed_eq] using hs

end FieldText

/-! ## Texts without declarations of fields -/

theorem fieldDeclaration_eq_nil (h : ∀ w ∈ visibilities, ∀ x c t, s = w.toList ++ (x ++ c :: t) →
    (∀ e ∈ x, isArgumentChar e = true) → c = '=' ∨ c = ';' → ';' ∈ c :: t → False) :
    fieldDeclaration before s = [] := by
  refine List.eq_nil_iff_forall_not_mem.mpr fun way hway => ?_
  obtain ⟨e, -, rfl, -⟩ := exists_of_mem_fieldDeclaration (a := way.1) (r := way.2) hway
  have hmodifiers : ∀ c ∈ e.modifiers.flatMap SpacedWord.text, isArgumentChar c = true := fun c hc =>
    FieldText.isArgumentChar_of_isWording e.isWording_lead c (List.mem_append_right _ hc)
  have hx : ∀ c ∈ e.visibility.gap ++ (e.modifiers.flatMap SpacedWord.text ++ e.front), isArgumentChar c = true := by
    simp only [List.forall_mem_append]
    exact ⟨fun c hc => (isArgumentChar_of_isBlank (e.visibility.isBlank_gap c hc)).1, hmodifiers,
      e.isArgumentChar_front⟩
  have hs : e.text ++ way.2 = e.visibility.word.toList ++
      ((e.visibility.gap ++ (e.modifiers.flatMap SpacedWord.text ++ e.front)) ++ (e.ending ++ way.2)) := by
    simp [FieldText.text, FieldText.typed_eq, SpacedWord.text]
  unfold FieldText.ending at hs
  cases hvalue : e.value with
  | none => exact h _ e.visibility.mem _ ';' way.2 (by simpa [hvalue] using hs) hx (.inr rfl) List.mem_cons_self
  | some v =>
    exact h _ e.visibility.mem _ '=' (v ++ ';' :: way.2) (by simpa [hvalue] using hs) hx (.inl rfl) (by simp)

/-- Nothing is declared in blanks. -/
theorem findAll_blank_append {gap : List Char} (hgap : ∀ c ∈ gap, isBlank c = true) :
    findAll fieldDeclaration 0 before (gap ++ s) = findAll fieldDeclaration 0 (gap.getLast?.or before) s := by
  refine findAll_of_quiet fun y z hsplit hz before => fieldDeclaration_eq_nil fun w hw x c t hs _ _ _ => ?_
  have hne : ∀ w ∈ visibilities, w.toList ≠ [] := by decide
  obtain ⟨b, z, rfl⟩ := List.exists_cons_of_ne_nil hz
  obtain ⟨l, v, hword⟩ := List.exists_cons_of_ne_nil (hne w hw)
  rw [hword] at hs
  obtain ⟨rfl, -⟩ := List.cons.inj hs
  have hblank := hgap b (by rw [hsplit]; simp)
  rw [Unicode.isBlank_of_isWord (isWord_visibilities w hw b (by rw [hword]; exact List.mem_cons_self))] at hblank
  cases hblank

/-- A brace is no part of what is read in front of a value or an end. -/
theorem ne_append_brace {z u t : List Char} {c : Char} (hz : '=' ∉ z ∧ ';' ∉ z)
    (hu : ∀ e ∈ u, isArgumentChar e = true) (hc : c = '=' ∨ c = ';') : u ++ c :: t ≠ z ++ '\x7b' :: s := by
  intro hs
  have hcz : c ∉ z := by
    rcases hc with rfl | rfl
    · exact hz.1
    · exact hz.2
  have hbrace : c ≠ '\x7b' := by
    rintro rfl
    exact absurd hc (by decide)
  rcases List.append_eq_append_iff.mp hs with ⟨v, rfl, hv⟩ | ⟨v, rfl, hv⟩
  · cases v with
    | nil => exact hbrace (List.cons.inj hv).1
    | cons d v =>
      obtain ⟨rfl, -⟩ := List.cons.inj hv
      exact hcz (by simp)
  · cases v with
    | nil => exact hbrace (List.cons.inj hv).1.symm
    | cons d v =>
      obtain ⟨rfl, -⟩ := List.cons.inj hv
      exact absurd (hu '\x7b' (by simp)) (by decide)

/-- Nothing is declared up to a brace without a value and without an end. -/
theorem findAll_append_brace {front : List Char} (hfront : '=' ∉ front ∧ ';' ∉ front) :
    findAll fieldDeclaration 0 before (front ++ '\x7b' :: s) =
      findAll fieldDeclaration 0 (some '\x7b') s := by
  have hword : ∀ w ∈ visibilities, ∀ c ∈ w.toList, isArgumentChar c = true :=
    fun w hw c hc => (isArgumentChar_of_isWord (isWord_visibilities w hw c hc)).1
  have hquiet : findAll fieldDeclaration 0 before (front ++ ['\x7b'] ++ s) =
      findAll fieldDeclaration 0 ((front ++ ['\x7b']).getLast?.or before) s := by
    refine findAll_of_quiet fun y z hsplit hz before => fieldDeclaration_eq_nil fun w hw x c t hs hx hc _ => ?_
    obtain ⟨z, e, rfl⟩ := (List.eq_nil_or_concat z).resolve_left hz
    rw [List.concat_eq_append, ← List.append_assoc] at hsplit
    obtain ⟨rfl, hbrace⟩ := List.append_inj' hsplit rfl
    obtain rfl := List.singleton_inj.mp hbrace
    have hfree : '=' ∉ z ∧ ';' ∉ z :=
      ⟨fun hmem => hfront.1 (List.mem_append_right y hmem), fun hmem => hfront.2 (List.mem_append_right y hmem)⟩
    refine ne_append_brace (s := s) (t := t) hfree (List.forall_mem_append.mpr ⟨hword w hw, hx⟩) hc ?_
    rw [List.append_assoc, ← hs, List.concat_eq_append, List.append_assoc]
    rfl
  simpa using hquiet

/-- Nothing is declared without an end. -/
theorem findAll_of_not_mem (h : ';' ∉ s) : findAll fieldDeclaration 0 before s = [] := by
  have hquiet : findAll fieldDeclaration 0 before (s ++ []) =
      findAll fieldDeclaration 0 (s.getLast?.or before) [] := by
    refine findAll_of_quiet fun y z hsplit _ before => fieldDeclaration_eq_nil fun w _ x c t hs _ _ hend => h ?_
    rw [hsplit, ← List.append_nil z, hs]
    simp only [List.mem_append]
    exact .inr (.inr (.inr hend))
  simpa [findAll] using hquiet

/-- Nothing is declared where no visibility is written. -/
theorem findAll_append_of_visibilities {front : List Char}
    (hfront : ∀ w ∈ visibilities, ¬w.toList <:+: front)
    (hends : front.getLast?.any Unicode.isWord = false) :
    findAll fieldDeclaration 0 before (front ++ s) =
      findAll fieldDeclaration 0 (front.getLast?.or before) s := by
  refine findAll_of_quiet fun y z hsplit hz before => fieldDeclaration_eq_nil fun w hw x c t hs _ _ _ => ?_
  rcases List.append_eq_append_iff.mp hs with ⟨v, hword, -⟩ | ⟨v, rfl, -⟩
  · -- the text ends inside of the word
    obtain ⟨z, e, rfl⟩ := (List.eq_nil_or_concat z).resolve_left hz
    rw [hsplit, List.concat_eq_append, ← List.append_assoc, List.getLast?_concat, Option.any_some,
      isWord_visibilities w hw e (by rw [hword]; simp)] at hends
    cases hends
  · exact hfront w hw ⟨y, v, by rw [hsplit, List.append_assoc]⟩

/-! ## The end of a declaration -/

theorem stopsAt_space : StopsAt ';' space :=
  stopsAt_span (by decide)

theorem stopsAt_space1 : StopsAt ';' space1 :=
  (stopsAt_char (by decide)).append (stopsAt_span (by decide))

theorem stopsAt_words {ws : List String} (hws : ∀ w ∈ ws, ';' ∉ w.toList) :
    StopsAt ';' (oneOf (ws.map fun w => exact w.toList)) :=
  stopsAt_oneOf (List.forall_mem_map.mpr fun w hw => stopsAt_exact (hws w hw))

theorem stopsAt_visibility (before : Option Char) : StopsAt ';' (freshWord visibilities before ++ space1) := by
  unfold freshWord
  split
  · exact (stopsAt_oneOf (by simp)).append stopsAt_space1
  · exact (stopsAt_words (by decide)).append stopsAt_space1

theorem stopsAt_modifier : StopsAt ';' modifier :=
  have hwords : StopsAt ';' (oneOf (modifierWords.map fun w => exact w.toList)) := stopsAt_words (by decide)
  hwords.append stopsAt_space1

theorem stopsAt_typeName : StopsAt ';' typeName := by
  have hname : StopsAt ';' dottedName := (stopsAt_char (by decide)).append (stopsAt_span (by decide))
  have harguments : StopsAt ';' typeArguments :=
    ((stopsAt_space.append (stopsAt_exact (by decide))).append (stopsAt_run (by decide))).append
      (stopsAt_exact (by decide))
  have hbrackets : StopsAt ';' brackets :=
    ((stopsAt_space.append (stopsAt_exact (by decide))).append stopsAt_space).append (stopsAt_exact (by decide))
  exact (hname.append harguments.opt).append (hbrackets.star reads_brackets)

theorem stopsAt_identifier : StopsAt ';' identifier :=
  (stopsAt_char (by decide)).append (stopsAt_span (by decide))

theorem stopsAt_initializer : StopsAt ';' initializer :=
  (stopsAt_exact (by decide)).append (stopsAt_span (by decide))

/-- A declaration ends at the first semicolon behind its start. -/
theorem endsAt_fieldDeclaration (before : Option Char) : EndsAt ';' (fieldDeclaration before) := by
  have hvalue : (space ++ opt initializer).Keeps :=
    (keeps_span _).append ((keeps_exact _).append (keeps_span _)).opt
  have hending : EndsAt ';' (space ++ opt initializer ++ exact [';']) :=
    (stopsAt_space.append stopsAt_initializer.opt).endsAt_append hvalue endsAt_exact
  refine (stopsAt_visibility before).endsAt_bind (keeps_visibility before) fun _ => ?_
  refine (stopsAt_modifier.star reads_modifier).endsAt_bind keeps_modifier.star fun m => ?_
  refine stopsAt_typeName.endsAt_bind keeps_typeName fun type => ?_
  refine stopsAt_space1.endsAt_bind (keeps_span1 _) fun _ => ?_
  refine stopsAt_identifier.endsAt_bind (keeps_span1 _) fun name => ?_
  exact hending.bind_pure fun _ => ({ modifiers := words m, type, name } : FieldDeclaration)

/-! ## Declarations one after another -/

namespace FieldText

variable (d : FieldText)

/-- What is found in a declaration: the declaration itself if its names are words, and otherwise what is
declared behind its modifiers. -/
def found : List FieldDeclaration :=
  if d.Legible then [d.declaration] else occurrences fieldDeclaration d.typed

theorem getLast?_text : d.text.getLast? = some ';' := by
  rw [text, typed, named, ending]
  simp only [← List.append_assoc, List.getLast?_concat]

/-- The semicolon at the end is the first one. -/
theorem exists_typed_eq : ∃ x, ';' ∉ x ∧ d.typed = x ++ [';'] := by
  have hfront : ';' ∉ d.front := fun hmem => absurd (d.isArgumentChar_front _ hmem) (by decide)
  refine ⟨d.front ++ (d.value.map ('=' :: ·)).getD [], ?_, by rw [typed_eq, ending, List.append_assoc]⟩
  rw [List.mem_append, not_or]
  refine ⟨hfront, ?_⟩
  cases hvalue : d.value with
  | none => exact List.not_mem_nil
  | some v => simpa using d.value_chars v hvalue

variable {d}

/-- A declaration one of whose names is no word is passed over up to its type. -/
theorem findAll_lead (h : ¬d.Legible) (t : List Char) : findAll fieldDeclaration 0 before (d.text ++ t) =
    findAll fieldDeclaration 0 (d.lead.getLast?.or before) (d.typed ++ t) := by
  rw [text_eq, List.append_assoc]
  refine findAll_of_quiet fun y z hsplit _ before => fieldDeclaration_wording_eq_nil ?_ h t
  exact fun c hc => d.isWording_lead c (by rw [hsplit]; exact List.mem_append_right y hc)

/-- Nothing is declared at the type, whatever stands in front of it. -/
theorem findAll_typed (h : ¬d.Legible) (before before' : Option Char) (t : List Char) :
    findAll fieldDeclaration 0 before (d.typed ++ t) = findAll fieldDeclaration 0 before' (d.typed ++ t) := by
  have hnone : ∀ before, fieldDeclaration before (d.typed ++ t) = [] := fun _ =>
    fieldDeclaration_wording_eq_nil (z := []) (by simp [IsWording]) h t
  cases hs : d.typed ++ t with
  | nil => rfl
  | cons c s => rw [findAll, findAll, ← hs, hnone, hnone]

theorem findAll_text (hbase : ∀ w ∈ modifierWords, w.toList ≠ d.base)
    (hbefore : before.any Unicode.isWord = false) (t : List Char) :
    findAll fieldDeclaration 0 before (d.text ++ t) = d.found ++ findAll fieldDeclaration 0 (some ';') t := by
  unfold found
  split
  · next h =>
    have hne : d.text ≠ [] := by
      intro hnil
      have hend := d.getLast?_text
      rw [hnil] at hend
      cases hend
    rw [findAll_of_prefers hne (d.prefers_fieldDeclaration h hbase hbefore t), d.getLast?_text]
    rfl
  · next h =>
    obtain ⟨x, hx, htyped⟩ := d.exists_typed_eq
    have hends : findAll fieldDeclaration 0 none (x ++ ';' :: t) = _ :=
      findAll_of_endsAt endsAt_fieldDeclaration hx
    have hend : d.typed ++ t = x ++ ';' :: t := by
      rw [htyped, List.append_assoc]
      rfl
    rw [findAll_lead h, findAll_typed h _ none, hend, hends, htyped]
    rfl

end FieldText

/-- A declaration of a field behind blanks, such as the end of a line and an indent. The name of its type is
no modifier. -/
structure FieldLine where
  indent : List Char := "\n    ".toList
  field : FieldText
  isBlank_indent : ∀ c ∈ indent, isBlank c = true := by exact List.all_eq_true.mp (by decide)
  base_not_modifier : ∀ w ∈ modifierWords, w.toList ≠ field.base := by decide

def FieldLine.text (l : FieldLine) : List Char :=
  l.indent ++ l.field.text

/-- What is found in declarations one after another is what is found in each of them. -/
theorem findAll_lines (ls : List FieldLine) {closing : List Char} (hclosing : ';' ∉ closing)
    (hbefore : before.any Unicode.isWord = false) :
    findAll fieldDeclaration 0 before (ls.flatMap FieldLine.text ++ closing) =
      ls.flatMap (·.field.found) := by
  induction ls generalizing before with
  | nil => exact findAll_of_not_mem hclosing
  | cons l ls ih =>
    have hindent : (l.indent.getLast?.or before).any Unicode.isWord = false := by
      cases hend : l.indent.getLast? with
      | none => exact hbefore
      | some b => exact Unicode.isWord_of_isBlank (l.isBlank_indent b (List.mem_of_mem_getLast? hend))
    rw [List.flatMap_cons, FieldLine.text, List.append_assoc, List.append_assoc,
      findAll_blank_append l.isBlank_indent, FieldText.findAll_text l.base_not_modifier hindent, ih (by decide)]
    rfl

/-! ## Fields of a class -/

/-- What stands in front of the body of a class: something in which no visibility is written, such as
the package and what is imported, and the header of the class, in which nothing is given a value. -/
structure ClassOpening where
  preface : List Char := []
  /-- The modifiers of the class. -/
  front : List Char := []
  gap : List Char := [' ']
  name : List Char
  /-- What stands behind the name, such as the class that is extended. -/
  behind : List Char := [' ']
  preface_visibilities : ∀ w ∈ visibilities, ¬w.toList <:+: preface := by decide
  preface_ends : preface.getLast?.any Unicode.isWord = false := by decide
  front_chars : '=' ∉ front ∧ ';' ∉ front := by decide
  front_ends : front.getLast?.any Unicode.isWord = false := by decide
  gap_ne_nil : gap ≠ [] := by decide
  isBlank_gap : ∀ c ∈ gap, isBlank c = true := by exact List.all_eq_true.mp (by decide)
  name_ne_nil : name ≠ [] := by decide
  name_chars : ∀ c ∈ name, Unicode.isWord c = true := by exact List.all_eq_true.mp (by decide)
  behind_chars : '=' ∉ behind ∧ ';' ∉ behind := by decide
  behind_starts : behind.head?.any Unicode.isWord = false := by decide

namespace ClassOpening

variable (o : ClassOpening)

def header : List Char :=
  o.front ++ ("class".toList ++ (o.gap ++ (o.name ++ o.behind)))

def text : List Char :=
  o.preface ++ (o.header ++ ['\x7b'])

theorem header_chars : '=' ∉ o.header ∧ ';' ∉ o.header := by
  have hclass : '=' ∉ "class".toList ∧ ';' ∉ "class".toList := by decide
  have hgap : ∀ c, isBlank c = false → c ∉ o.gap := by
    intro c hc hmem
    rw [o.isBlank_gap c hmem] at hc
    cases hc
  have hname : ∀ c, Unicode.isWord c = false → c ∉ o.name := by
    intro c hc hmem
    rw [o.name_chars c hmem] at hc
    cases hc
  simp only [header, List.mem_append, not_or]
  exact ⟨⟨o.front_chars.1, hclass.1, hgap _ (by decide), hname _ (by decide), o.behind_chars.1⟩,
    ⟨o.front_chars.2, hclass.2, hgap _ (by decide), hname _ (by decide), o.behind_chars.2⟩⟩

/-- The class is declared. -/
theorem classDeclaration_ne_nil (t : List Char) : occurrences classDeclaration (o.text ++ t) ≠ [] := by
  have hsplit : o.text ++ t = (o.preface ++ o.front) ++
      ("class".toList ++ (o.gap ++ (o.name ++ (o.behind ++ '\x7b' :: t)))) := by
    simp [text, header]
  have hbefore : ((o.preface ++ o.front).getLast?.or none).any Unicode.isWord = false := by
    rw [Option.or_none, List.getLast?_append]
    cases hfront : o.front.getLast? with
    | some c =>
      rw [Option.some_or, ← hfront]
      exact o.front_ends
    | none => exact o.preface_ends
  have hbehind : ∀ c ∈ (o.behind ++ '\x7b' :: t).head?, Unicode.isWord c = false := by
    intro c hc
    cases hcase : o.behind with
    | nil =>
      rw [hcase] at hc
      cases hc
      decide
    | cons e behind =>
      rw [hcase] at hc
      cases hc
      simpa [hcase] using o.behind_starts
  obtain ⟨r, hr⟩ := prefers_classDeclaration hbefore o.gap_ne_nil o.isBlank_gap o.name_ne_nil o.name_chars hbehind
  rw [hsplit]
  exact findAll_ne_nil (by simp) hr.ne_nil

/-- Nothing is declared in front of the body. -/
theorem findAll_text (t : List Char) : occurrences fieldDeclaration (o.text ++ t) =
    findAll fieldDeclaration 0 (some '\x7b') t := by
  rw [text, occurrences, List.append_assoc, List.append_assoc,
    findAll_append_of_visibilities o.preface_visibilities o.preface_ends]
  exact findAll_append_brace o.header_chars

end ClassOpening

namespace FieldText

variable (d : FieldText)

/-- The field that is declared, unless it is static or named like the keyword `class`. -/
def field? : Option Field :=
  if d.modifiers.any (·.word == "static") || d.name == "class".toList then none
  else some { name := String.ofList d.name, type := storedType d.type }

theorem field?_declaration : d.declaration.field? = d.field? := by
  have hstatic : d.declaration.modifiers.contains "static".toList = d.modifiers.any (·.word == "static") := by
    rw [Bool.eq_iff_iff, List.contains_iff_mem, List.any_eq_true]
    refine List.mem_map.trans (exists_congr fun m => and_congr_right fun _ => ?_)
    rw [beq_iff_eq, String.toList_inj]
  have hname : (d.declaration.name == "class".toList) = (d.name == "class".toList) := rfl
  rw [FieldDeclaration.field?, hstatic, hname, field?]
  rfl

/-- The fields that a declaration gives: the one that it declares if its names are words, and otherwise those
that are declared behind its modifiers, such as in its value. -/
def fields : List Field :=
  if d.Legible then d.field?.toList else (occurrences fieldDeclaration d.typed).filterMap (·.field?)

theorem filterMap_found : d.found.filterMap (·.field?) = d.fields := by
  unfold found fields
  split
  · rw [← d.field?_declaration]
    cases hfield : d.declaration.field? with
    | none => exact List.filterMap_cons_none hfield
    | some f => exact List.filterMap_cons_some hfield
  · rfl

variable {d} in
/-- A field is lost when one of the names of its declaration is no word and no other declaration begins
behind its modifiers. -/
theorem fields_eq_nil (h : ¬d.Legible) (hquiet : ∀ w ∈ visibilities, ¬w.toList <:+: d.typed) :
    d.fields = [] := by
  obtain ⟨x, -, htyped⟩ := d.exists_typed_eq
  have hends : d.typed.getLast?.any Unicode.isWord = false := by
    rw [htyped, List.getLast?_concat]
    decide
  have hnone : findAll fieldDeclaration 0 none (d.typed ++ []) = _ :=
    findAll_append_of_visibilities hquiet hends
  rw [List.append_nil] at hnone
  rw [fields, if_neg h, occurrences, hnone]
  rfl

end FieldText

/-- The name of each field that is declared is written. -/
theorem name_ne_of_mem_occurrences {a : FieldDeclaration} {f : Field} (ha : a ∈ occurrences fieldDeclaration s)
    (hf : a.field? = some f) : f.name ≠ "" := by
  obtain ⟨_, _, _, hread⟩ := mem_findAll ha
  obtain ⟨e, -, -, rfl⟩ := exists_of_mem_fieldDeclaration hread
  rw [e.field?_declaration, FieldText.field?] at hf
  split at hf
  · cases hf
  · obtain rfl := Option.some.inj hf
    exact fun hempty => e.name_ne_nil (String.ofList_eq_empty_iff.mp hempty)

/-- The fields of a class are those that the declarations in its body give. A declaration whose names are
words gives its field, unless it is static or named like the keyword `class`, under the type that follows from
the one that is written; any other one only gives what is declared behind its modifiers, which is nothing when
no visibility stands there. The fields stand in the order of their declarations, and the first one of each
name stays. -/
theorem fields_of_class (o : ClassOpening) (ls : List FieldLine) (closing : List Char)
    (hclosing : ';' ∉ closing) {source : String}
    (hcode : code source = o.text ++ (ls.flatMap FieldLine.text ++ closing)) :
    (outline source).fields =
        (ls.flatMap (·.field.fields)).eraseDupsBy (fun f g => f.name == g.name) ∧
      ∀ l ∈ ls, ¬l.field.Legible → (∀ w ∈ visibilities, ¬w.toList <:+: l.field.typed) →
        l.field.fields = [] := by
  refine ⟨?_, fun _ _ => FieldText.fields_eq_nil⟩
  obtain ⟨d, ds, hclass⟩ := List.exists_cons_of_ne_nil
    (o.classDeclaration_ne_nil (ls.flatMap FieldLine.text ++ closing))
  have hfields : (outline source).fields =
      Field.merge [] ((occurrences fieldDeclaration (code source)).filterMap (·.field?)) := by
    unfold outline
    dsimp only
    rw [hcode, hclass]
    rfl
  have hfound : occurrences fieldDeclaration (code source) = ls.flatMap (·.field.found) := by
    rw [hcode, o.findAll_text, findAll_lines ls hclosing (by decide)]
  have hdeclared : (ls.flatMap (·.field.found)).filterMap (·.field?) = ls.flatMap (·.field.fields) := by
    rw [List.filterMap_flatMap]
    exact List.flatMap_congr fun l _ => l.field.filterMap_found
  rw [hfields, Field.merge_eq_eraseDupsBy, hfound, hdeclared]
  intro f hf
  obtain ⟨a, ha, hfield⟩ := List.mem_filterMap.mp hf
  exact name_ne_of_mem_occurrences ha hfield

/-- A class with a constant, arguments in arguments, an array with a value, a name that is taken, and names
with a sign that words do not have. -/
theorem fields_of_small_class : (outline "public class A \x7b
    private static final int N = 1;
    private Map<String, List<Long>> x;
    protected byte[] y = \x7b\x7d;
    private int x;
    private int a$b;
    private B$C z = null;
\x7d").fields = [{ name := "x", type := "Object" }, { name := "y", type := "Array" }] := by
  exact (fields_of_class { front := "public ".toList, name := "A".toList }
    [{ field := {
        visibility := { word := "private" }
        modifiers := [{ word := "static" }, { word := "final" }]
        base := "int".toList
        name := "N".toList
        gap' := [' ']
        value := some " 1".toList } },
      { field := {
        visibility := { word := "private" }
        base := "Map".toList
        arguments := some { inside := "String, List<Long>".toList }
        name := "x".toList } },
      { field := {
        visibility := { word := "protected" }
        base := "byte".toList
        suffix := [{}]
        name := "y".toList
        gap' := [' ']
        value := some " \x7b\x7d".toList } },
      { field := { visibility := { word := "private" }, base := "int".toList, name := "x".toList } },
      { field := { visibility := { word := "private" }, base := "int".toList, name := "a$b".toList } },
      { field := {
        visibility := { word := "private" }
        base := "B$C".toList
        name := "z".toList
        gap' := [' ']
        value := some " null".toList } }]
    "\n\x7d".toList (by decide)
    ((code_of_not_mem (by decide +kernel)).trans (by decide +kernel))).1.trans (by decide +kernel)

end SchemaLint.ClassSource
