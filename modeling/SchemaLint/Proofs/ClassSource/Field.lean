import SchemaLint.Proofs.Ancestry.Declaration
import SchemaLint.Proofs.ClassSource.TypeName

/-!
# Declarations of fields read

A declaration of a field is written (`ClassSource.FieldText`) as a visibility, modifiers, a type, a name and
possibly a value, with blanks between them. If its names are words (`ClassSource.FieldText.Legible`) and it
stands behind no word it is read as a whole, whatever follows it
(`ClassSource.FieldText.prefers_fieldDeclaration`): each modifier is read as one since the name of the type is
none, and the arguments of the type, however they are nested, are read up to their last closing bracket since
none follows before the declaration ends.
-/

namespace SchemaLint.ClassSource

open Form Text

/-! ## Words in front of blanks -/

/-- Where another word stands, a word with blanks behind it is not read. -/
theorem exact_space_eq_nil {w name t : List Char} (hne : w ≠ name)
    (hname : ∀ c ∈ name, isBlank c = false) (ht : ∀ c ∈ t.head?, c ∉ w) :
    (exact w ++ space1) (name ++ t) = [] := by
  rw [append_eq_nil_iff]
  rintro ⟨x, r⟩ hx
  obtain ⟨rfl, hsplit⟩ := mem_exact.mp hx
  refine span1_eq_nil_iff.mpr fun c hc => ?_
  obtain ⟨r, rfl⟩ := List.head?_eq_some_iff.mp hc
  rcases List.append_eq_append_iff.mp hsplit with ⟨v, rfl, hv⟩ | ⟨v, rfl, hv⟩
  · -- the other word is a part of this one
    cases v with
    | nil => exact absurd (List.append_nil name) hne
    | cons d v => exact absurd (by simp) (ht d (by rw [hv]; rfl))
  · -- this word goes on
    cases v with
    | nil => exact absurd (List.append_nil x).symm hne
    | cons d v =>
      obtain ⟨rfl, -⟩ := List.cons.inj hv
      exact hname c (by simp)

section Words

variable {ws : List String}

theorem words_eq_nil {name t : List Char} (hname : ∀ c ∈ name, isBlank c = false)
    (hmem : ∀ w ∈ ws, w.toList ≠ name) (ht : ∀ w ∈ ws, ∀ c ∈ t.head?, c ∉ w.toList) :
    (oneOf (ws.map fun w => exact w.toList) ++ space1) (name ++ t) = [] := by
  refine oneOf_append_eq_nil fun f hf => ?_
  obtain ⟨w, hw, rfl⟩ := List.mem_map.mp hf
  exact exact_space_eq_nil (hmem w hw) hname (ht w hw)

/-- One of several words with blanks behind it. -/
structure SpacedWord (ws : List String) where
  word : String
  gap : List Char := [' ']
  mem : word ∈ ws := by decide
  gap_ne_nil : gap ≠ [] := by decide
  isBlank_gap : ∀ c ∈ gap, isBlank c = true := by exact List.all_eq_true.mp (by decide)

def SpacedWord.text (w : SpacedWord ws) : List Char :=
  w.word.toList ++ w.gap

/-- One of several words is read, and the blanks behind it. -/
theorem SpacedWord.prefers (w : SpacedWord ws) (hws : ∀ v ∈ ws, ∀ c ∈ v.toList, Unicode.isWord c = true)
    {t : List Char} (ht : ∀ c ∈ t.head?, isBlank c = false) :
    Prefers (oneOf (ws.map fun v => exact v.toList) ++ space1) (w.text ++ t) w.text t := by
  have hspace : Only space1 (w.gap ++ t) w.gap t := .span1 w.gap_ne_nil w.isBlank_gap ht
  have hread : Prefers (exact w.word.toList ++ space1) (w.text ++ t) w.text t := by
    rw [SpacedWord.text, List.append_assoc]
    exact (Prefers.exact _ _).append hspace.prefers
  refine prefers_oneOf_append w.mem hread fun v hv hne => ?_
  rw [SpacedWord.text, List.append_assoc]
  refine exact_space_eq_nil (fun h => hne (String.toList_injective h))
    (fun c hc => Unicode.isBlank_of_isWord (hws _ w.mem c hc)) fun c hc hmem => ?_
  rw [List.head?_append_of_ne_nil _ w.gap_ne_nil] at hc
  have hblank := w.isBlank_gap c (List.mem_of_mem_head? hc)
  rw [Unicode.isBlank_of_isWord (hws v hv c hmem)] at hblank
  cases hblank

/-- Words with blanks behind them are told apart by the blanks. -/
theorem words_flatMap_text (hws : ∀ v ∈ ws, ∀ c ∈ v.toList, Unicode.isWord c = true)
    (hne : ∀ v ∈ ws, v.toList ≠ []) (as : List (SpacedWord ws)) :
    words (as.flatMap SpacedWord.text) = as.map (·.word.toList) := by
  induction as with
  | nil => rfl
  | cons w as ih =>
    rw [List.flatMap_cons, SpacedWord.text, List.append_assoc, words_append_spaced w.gap_ne_nil w.isBlank_gap,
      words_of_forall (hne _ w.mem) fun c hc => Unicode.isBlank_of_isWord (hws _ w.mem c hc), ih]
    rfl

end Words

/-! ## Types in front of names -/

theorem isArgumentChar_iff {c : Char} :
    isArgumentChar c = true ↔ c ∉ [';', '=', '(', ')', '\x7b', '\x7d'] := by
  simp [isArgumentChar, and_assoc]

theorem isArgumentChar_of {p : Char → Bool} {c : Char} (h : p c = true)
    (hp : [';', '=', '(', ')', '\x7b', '\x7d', '>'].any p = false) :
    isArgumentChar c = true ∧ c ≠ '>' := by
  have hc : c ∉ [';', '=', '(', ')', '\x7b', '\x7d', '>'] := fun hmem =>
    List.any_eq_false.mp hp c hmem h
  exact ⟨isArgumentChar_iff.mpr fun hmem => hc (List.mem_append_left ['>'] hmem),
    fun heq => hc (by simp [heq])⟩

theorem isArgumentChar_of_isBlank {c : Char} (h : isBlank c = true) : isArgumentChar c = true ∧ c ≠ '>' :=
  isArgumentChar_of h (by decide)

theorem isArgumentChar_of_isWord {c : Char} (h : Unicode.isWord c = true) :
    isArgumentChar c = true ∧ c ≠ '>' :=
  isArgumentChar_of h (by decide)

/-- No closing angle bracket stands in front of the character that ends arguments. -/
def ReachesNone (t : List Char) : Prop :=
  ∃ u v, t = u ++ v ∧ (∀ c ∈ u, isArgumentChar c = true ∧ c ≠ '>') ∧
    ∀ c ∈ v.head?, isArgumentChar c = false

theorem ReachesNone.append {s t : List Char} (hs : ∀ c ∈ s, isArgumentChar c = true ∧ c ≠ '>')
    (ht : ReachesNone t) : ReachesNone (s ++ t) := by
  obtain ⟨u, v, rfl, hu, hv⟩ := ht
  refine ⟨s ++ u, v, (List.append_assoc s u v).symm, ?_, hv⟩
  intro c hc
  rcases List.mem_append.mp hc with hc | hc
  · exact hs c hc
  · exact hu c hc

/-- What stands behind the name of a type and its arguments: no name goes on, and blanks lead to something
else than arguments. -/
structure FollowsElement (t : List Char) : Prop where
  endsName : EndsName t
  next : ∃ gap c r, (∀ b ∈ gap, isBlank b = true) ∧ isBlank c = false ∧ c ≠ '<' ∧ t = gap ++ c :: r
  reaches : ReachesNone t

/-- What stands behind a type: blanks and then a name. -/
structure FollowsType (t : List Char) : Prop where
  next : ∃ gap c r, gap ≠ [] ∧ (∀ b ∈ gap, isBlank b = true) ∧ Unicode.isWord c = true ∧ t = gap ++ c :: r
  reaches : ReachesNone t

theorem FollowsType.followsElement {t : List Char} (h : FollowsType t) : FollowsElement t := by
  obtain ⟨gap, c, r, hne, hgap, hc, rfl⟩ := h.next
  refine ⟨?_, ⟨gap, c, r, hgap, Unicode.isBlank_of_isWord hc, ?_, rfl⟩, h.reaches⟩
  · obtain ⟨b, gap, rfl⟩ := List.exists_cons_of_ne_nil hne
    exact endsName_of_isBlank (hgap b List.mem_cons_self) _
  · rintro rfl
    exact absurd hc (by decide)

theorem FollowsElement.brackets_append (b : Brackets) {t : List Char} (h : FollowsElement t) :
    FollowsElement (b.text ++ t) := by
  have htext : b.text ++ t = b.gap ++ '[' :: (b.inside ++ ']' :: t) := by simp [Brackets.text]
  refine ⟨?_, ⟨b.gap, '[', _, b.isBlank_gap, by decide, by decide, htext⟩, h.reaches.append ?_⟩
  · rw [htext]
    exact .blank_append b.isBlank_gap (endsName_cons (by decide) _)
  · intro c hc
    simp only [Brackets.text, List.mem_append, List.mem_cons] at hc
    rcases hc with hc | rfl | hc | rfl | hc
    · exact isArgumentChar_of_isBlank (b.isBlank_gap c hc)
    · decide
    · exact isArgumentChar_of_isBlank (b.isBlank_inside c hc)
    · decide
    · cases hc

theorem FollowsElement.suffix_append (bs : List Brackets) {t : List Char} (h : FollowsElement t) :
    FollowsElement (bs.flatMap Brackets.text ++ t) := by
  induction bs with
  | nil => exact h
  | cons b bs ih =>
    rw [List.flatMap_cons, List.append_assoc]
    exact ih.brackets_append b

theorem Brackets.prefers (b : Brackets) (t : List Char) : Prefers brackets (b.text ++ t) b.text t := by
  have hgap : Only space (b.gap ++ '[' :: (b.inside ++ ']' :: t)) b.gap _ :=
    only_space b.isBlank_gap (by rintro c ⟨⟩; decide)
  have hinside : Only space (b.inside ++ ']' :: t) b.inside _ :=
    only_space b.isBlank_inside (by rintro c ⟨⟩; decide)
  have hread : Only brackets _ _ t :=
    ((hgap.append (.exact ['['] _)).append hinside).append (.exact [']'] t)
  simpa [Brackets.text] using hread.prefers

theorem reads_brackets : Reads brackets :=
  ((((keeps_span _).append (keeps_exact _)).append (keeps_span _))).reads_append
    ((reads_char _).append (keeps_exact _))

/-- The arguments of a type are read up to their last closing bracket. -/
theorem prefers_typeArguments (o : Option Arguments) {v : List Char} (hv : FollowsElement v) :
    Prefers (opt typeArguments) ((o.map Arguments.text).getD [] ++ v) ((o.map Arguments.text).getD []) v := by
  cases o with
  | none =>
    obtain ⟨gap, c, r, hgap, hc, hangle, rfl⟩ := hv.next
    have hspace : Only space (gap ++ c :: r) gap (c :: r) := only_space hgap (by rintro d ⟨⟩; exact hc)
    have hnone : typeArguments (gap ++ c :: r) = [] := by
      refine append_eq_nil _ (append_eq_nil _ (hspace.append_eq_nil (exact_eq_nil ?_)))
      rintro d ⟨⟩
      exact hangle
    exact (Only.opt_nil hnone).prefers
  | some a =>
    obtain ⟨x, y, rfl, hx, hy⟩ := hv.reaches
    have hspace : Only space (a.gap ++ '<' :: (a.inside ++ '>' :: (x ++ y))) a.gap _ :=
      only_space a.isBlank_gap (by rintro c ⟨⟩; decide)
    have hread := (hspace.append (.exact ['<'] _)).prefers.append
      (prefers_run_exact a.inside_chars (by decide) hx hy)
    rw [← append_assoc] at hread
    change Prefers typeArguments _ _ _ at hread
    refine .opt ?_
    simpa [Arguments.text] using hread

section Written

variable {u : List Char} (hu : FollowsType u)

include hu

theorem prefers_suffix (bs : List Brackets) :
    Prefers (star brackets) (bs.flatMap Brackets.text ++ u) (bs.flatMap Brackets.text) u := by
  induction bs with
  | nil =>
    obtain ⟨gap, c, r, -, hgap, hc, rfl⟩ := hu.next
    have hspace : Only space (gap ++ c :: r) gap (c :: r) :=
      only_space hgap (by rintro d ⟨⟩; exact Unicode.isBlank_of_isWord hc)
    have hnone : brackets (gap ++ c :: r) = [] := by
      refine append_eq_nil _ (append_eq_nil _ (hspace.append_eq_nil (exact_eq_nil ?_)))
      rintro d ⟨⟩ rfl
      exact absurd hc (by decide)
    exact (Only.star_nil hnone).prefers
  | cons b bs ih =>
    rw [List.flatMap_cons, List.append_assoc]
    exact .star_cons reads_brackets (b.prefers _) ih

theorem endsName_behind_name (t : TypeText) :
    EndsName ((t.arguments.map Arguments.text).getD [] ++ (t.suffix.flatMap Brackets.text ++ u)) := by
  cases t.arguments with
  | none => exact (hu.followsElement.suffix_append t.suffix).endsName
  | some a =>
    rw [Option.map_some, Option.getD_some, Arguments.text, List.append_assoc]
    exact .blank_append a.isBlank_gap (endsName_cons (by decide) _)

/-- A type in front of a name is read as a whole. -/
theorem prefers_typeName (t : TypeText) : Prefers typeName (t.text ++ u) t.text u := by
  have hname : Only dottedName _ t.name _ :=
    .span1 t.name_ne_nil t.name_chars fun c hc => by
      simpa using endsName_behind_name hu t c hc
  have hread := (hname.prefers.append
    (prefers_typeArguments t.arguments (hu.followsElement.suffix_append t.suffix))).append
    (prefers_suffix hu t.suffix)
  change Prefers typeName _ _ _ at hread
  simpa [TypeText.text, TypeText.element] using hread

end Written

/-! ## Declarations -/

def visibilities : List String :=
  ["public", "protected", "private"]

def modifierWords : List String :=
  ["static", "final", "transient", "volatile"]

theorem isWord_visibilities : ∀ w ∈ visibilities, ∀ c ∈ w.toList, Unicode.isWord c = true := by
  have hall : ∀ w ∈ visibilities, w.toList.all Unicode.isWord = true := by decide
  exact fun w hw => List.all_eq_true.mp (hall w hw)

theorem isWord_modifierWords : ∀ w ∈ modifierWords, ∀ c ∈ w.toList, Unicode.isWord c = true := by
  have hall : ∀ w ∈ modifierWords, w.toList.all Unicode.isWord = true := by decide
  exact fun w hw => List.all_eq_true.mp (hall w hw)

theorem reads_modifier : Reads modifier :=
  (keeps_oneOf (by simp [keeps_exact])).reads_append (reads_span1 _)

/-- Modifiers stand in front of something that is no blank. -/
theorem isBlank_head_modifiers (ms : List (SpacedWord modifierWords)) {u : List Char}
    (hu : ∀ c ∈ u.head?, isBlank c = false) :
    ∀ c ∈ (ms.flatMap SpacedWord.text ++ u).head?, isBlank c = false := by
  have hne : ∀ w ∈ modifierWords, w.toList ≠ [] := by decide
  cases ms with
  | nil => exact hu
  | cons m ms =>
    intro c hc
    rw [List.flatMap_cons, SpacedWord.text, List.append_assoc, List.append_assoc,
      List.head?_append_of_ne_nil _ (hne _ m.mem)] at hc
    exact Unicode.isBlank_of_isWord (isWord_modifierWords _ m.mem c (List.mem_of_mem_head? hc))

/-- Characters that names are written with: all but blanks and the signs that stand between names. -/
def isNameChar (c : Char) : Bool :=
  !isBlank c && !";=()\x7b\x7d<>[],".toList.contains c

/-- A declaration of a field as it is written. Its names are any, words or not. -/
structure FieldText where
  visibility : SpacedWord visibilities
  modifiers : List (SpacedWord modifierWords) := []
  /-- The name of the type. -/
  base : List Char
  arguments : Option Arguments := none
  suffix : List Brackets := []
  gap : List Char := [' ']
  name : List Char
  gap' : List Char := []
  /-- What stands between the sign and the end of the declaration. -/
  value : Option (List Char) := none
  base_ne_nil : base ≠ [] := by decide
  base_chars : ∀ c ∈ base, isNameChar c = true := by exact List.all_eq_true.mp (by decide)
  gap_ne_nil : gap ≠ [] := by decide
  isBlank_gap : ∀ c ∈ gap, isBlank c = true := by exact List.all_eq_true.mp (by decide)
  name_ne_nil : name ≠ [] := by decide
  name_chars : ∀ c ∈ name, isNameChar c = true := by exact List.all_eq_true.mp (by decide)
  isBlank_gap' : ∀ c ∈ gap', isBlank c = true := by exact List.all_eq_true.mp (by decide)
  value_chars : ∀ v ∈ value, ';' ∉ v := by decide

namespace FieldText

variable (d : FieldText)

/-- The type as it is written. -/
def type : List Char :=
  d.base ++ ((d.arguments.map Arguments.text).getD [] ++ d.suffix.flatMap Brackets.text)

/-- The end of a declaration, from its value on. -/
def ending : List Char :=
  ((d.value.map ('=' :: ·)).getD []) ++ [';']

/-- A declaration from its name on. -/
def named : List Char :=
  d.name ++ (d.gap' ++ d.ending)

/-- A declaration from its type on. -/
def typed : List Char :=
  d.type ++ (d.gap ++ d.named)

def text : List Char :=
  d.visibility.text ++ (d.modifiers.flatMap SpacedWord.text ++ d.typed)

/-- What is declared. -/
def declaration : FieldDeclaration :=
  { modifiers := d.modifiers.map (·.word.toList), type := d.type, name := d.name }

/-- The names are words, and that of the type may have dots. -/
def Legible : Prop :=
  (∀ c ∈ d.base, (Unicode.isWord c || c == '.') = true) ∧ ∀ c ∈ d.name, Unicode.isWord c = true

instance : Decidable d.Legible :=
  decidable_of_iff
    (d.base.all (fun c => Unicode.isWord c || c == '.') = true ∧ d.name.all Unicode.isWord = true)
    (and_congr List.all_eq_true List.all_eq_true)

variable {d} in
/-- The type of a declaration whose names are words. -/
def Legible.typeText (h : d.Legible) : TypeText :=
  { name := d.base, arguments := d.arguments, suffix := d.suffix, name_ne_nil := d.base_ne_nil, name_chars := h.1 }

theorem Legible.text_typeText {d : FieldText} (h : d.Legible) : h.typeText.text = d.type := by
  simp [TypeText.text, TypeText.element, Legible.typeText, type]

/-- A declaration ends with its value, or at once, and no other sign stands before. -/
theorem exists_ending (t : List Char) :
    ∃ c r, d.ending ++ t = c :: r ∧ isArgumentChar c = false ∧ isBlank c = false ∧ Unicode.isWord c = false := by
  unfold ending
  cases d.value with
  | none => exact ⟨';', t, rfl, by decide, by decide, by decide⟩
  | some v => exact ⟨'=', v ++ [';'] ++ t, rfl, by decide, by decide, by decide⟩

section Legible

variable {d} (h : d.Legible)

include h

theorem followsType (t : List Char) : FollowsType (d.gap ++ (d.named ++ t)) := by
  obtain ⟨c, r, hending, hc, -, -⟩ := d.exists_ending t
  have hnamed : d.named ++ t = d.name ++ (d.gap' ++ c :: r) := by
    rw [named, List.append_assoc, List.append_assoc, hending]
  obtain ⟨e, name, hname⟩ := List.exists_cons_of_ne_nil d.name_ne_nil
  refine ⟨⟨d.gap, e, name ++ (d.gap' ++ c :: r), d.gap_ne_nil, d.isBlank_gap,
    h.2 e (by rw [hname]; exact List.mem_cons_self), by rw [hnamed, hname, List.cons_append]⟩, ?_⟩
  have hstop : ReachesNone (c :: r) := ⟨[], c :: r, rfl, by simp, by rintro e ⟨⟩; exact hc⟩
  rw [hnamed]
  exact ((hstop.append fun e he => isArgumentChar_of_isBlank (d.isBlank_gap' e he)).append
    fun e he => isArgumentChar_of_isWord (h.2 e he)).append
    fun e he => isArgumentChar_of_isBlank (d.isBlank_gap e he)

/-- The name of a type is not read as a modifier. -/
theorem modifier_eq_nil (hbase : ∀ w ∈ modifierWords, w.toList ≠ d.base) (t : List Char) :
    modifier (d.typed ++ t) = [] := by
  have hshape : d.typed ++ t =
      d.base ++ ((d.arguments.map Arguments.text).getD [] ++
        (d.suffix.flatMap Brackets.text ++ (d.gap ++ (d.named ++ t)))) := by
    simp [typed, type]
  rw [hshape]
  refine words_eq_nil h.typeText.isBlank_name hbase fun w hw c hc hmem => ?_
  have hends := (endsName_behind_name (followsType h t) h.typeText c hc).1
  rw [isWord_modifierWords w hw c hmem] at hends
  cases hends

theorem isBlank_head_typed (t : List Char) : ∀ c ∈ (d.typed ++ t).head?, isBlank c = false := by
  rw [typed, type, List.append_assoc, List.append_assoc, List.head?_append_of_ne_nil _ d.base_ne_nil]
  exact h.typeText.trimmed_name.head

theorem prefers_modifiers (hbase : ∀ w ∈ modifierWords, w.toList ≠ d.base) (t : List Char) :
    Prefers (star modifier) (d.modifiers.flatMap SpacedWord.text ++ (d.typed ++ t))
      (d.modifiers.flatMap SpacedWord.text) (d.typed ++ t) := by
  induction d.modifiers with
  | nil => exact (Only.star_nil (modifier_eq_nil h hbase t)).prefers
  | cons m ms ih =>
    rw [List.flatMap_cons, List.append_assoc]
    exact .star_cons reads_modifier
      (m.prefers isWord_modifierWords (isBlank_head_modifiers ms (isBlank_head_typed h t))) ih

end Legible

theorem prefers_ending (t : List Char) :
    ∃ x, Prefers (space ++ opt initializer ++ exact [';']) (d.gap' ++ (d.ending ++ t)) x t := by
  obtain ⟨c, r, hending, -, hblank, -⟩ := d.exists_ending t
  have hspace : Only space (d.gap' ++ (d.ending ++ t)) d.gap' (d.ending ++ t) :=
    only_space d.isBlank_gap' (by rw [hending]; rintro e ⟨⟩; exact hblank)
  have hvalue : ∃ x, Prefers (opt initializer) (d.ending ++ t) x (';' :: t) := by
    unfold ending
    cases hcase : d.value with
    | none =>
      have hnone : initializer (';' :: t) = [] := append_eq_nil _ (exact_eq_nil (by rintro e ⟨⟩; decide))
      exact ⟨_, (Only.opt_nil hnone).prefers⟩
    | some v =>
      have hspan : Only (span (· != ';')) (v ++ ';' :: t) v (';' :: t) := by
        refine .span (fun e he => bne_iff_ne.mpr ?_) (by rintro e ⟨⟩; decide)
        rintro rfl
        exact d.value_chars v hcase he
      have hread : Only initializer ('=' :: (v ++ ';' :: t)) _ (';' :: t) := (Only.exact ['='] _).append hspan
      exact ⟨_, by simpa using hread.prefers.opt⟩
  obtain ⟨x, hx⟩ := hvalue
  exact ⟨_, (hspace.prefers.append hx).append (Prefers.exact [';'] t)⟩

/-- A declaration whose names are words is read as a whole where it stands behind no word. -/
theorem prefers_fieldDeclaration (h : d.Legible) (hbase : ∀ w ∈ modifierWords, w.toList ≠ d.base)
    {before : Option Char} (hbefore : before.any Unicode.isWord = false) (t : List Char) :
    Prefers (fieldDeclaration before) (d.text ++ t) d.declaration t := by
  have htext : d.text ++ t =
      d.visibility.text ++ (d.modifiers.flatMap SpacedWord.text ++ (d.typed ++ t)) := by
    simp [text]
  have htyped : d.typed ++ t = d.type ++ (d.gap ++ (d.named ++ t)) := by
    simp [typed]
  have hnamed : d.named ++ t = d.name ++ (d.gap' ++ (d.ending ++ t)) := by
    simp [named]
  obtain ⟨x, hending⟩ := d.prefers_ending t
  have hword : ∀ c ∈ (d.gap' ++ (d.ending ++ t)).head?, Unicode.isWord c = false := by
    intro c hc
    obtain ⟨e, r, hhead, -, -, hno⟩ := d.exists_ending t
    cases hgap : d.gap' with
    | nil =>
      rw [hgap, List.nil_append, hhead] at hc
      cases hc
      exact hno
    | cons b gap =>
      rw [hgap, List.cons_append, List.head?_cons] at hc
      obtain rfl := Option.some.inj hc
      exact Unicode.isWord_of_isBlank (d.isBlank_gap' b (by rw [hgap]; exact List.mem_cons_self))
  have hname : Only identifier (d.named ++ t) d.name (d.gap' ++ (d.ending ++ t)) := by
    rw [hnamed]
    exact .span1 d.name_ne_nil h.2 hword
  have hspace : Only space1 (d.gap ++ (d.named ++ t)) d.gap (d.named ++ t) := by
    refine .span1 d.gap_ne_nil d.isBlank_gap fun c hc => ?_
    rw [hnamed, List.head?_append_of_ne_nil _ d.name_ne_nil] at hc
    exact Unicode.isBlank_of_isWord (h.2 c (List.mem_of_mem_head? hc))
  have hvisibility : Prefers (freshWord visibilities before ++ space1) (d.text ++ t) d.visibility.text
      (d.modifiers.flatMap SpacedWord.text ++ (d.typed ++ t)) := by
    rw [freshWord, hbefore, htext]
    exact d.visibility.prefers isWord_visibilities (isBlank_head_modifiers d.modifiers (isBlank_head_typed h t))
  have htype : Prefers typeName (d.typed ++ t) d.type (d.gap ++ (d.named ++ t)) := by
    rw [htyped, ← h.text_typeText]
    exact prefers_typeName (followsType h t) h.typeText
  have hwords : words (d.modifiers.flatMap SpacedWord.text) = d.modifiers.map (·.word.toList) :=
    words_flatMap_text isWord_modifierWords (by decide) d.modifiers
  rw [declaration, ← hwords]
  exact hvisibility.bind ((prefers_modifiers h hbase t).bind (htype.bind
    (hspace.prefers.bind (hname.prefers.bind (hending.bind rfl)))))

end FieldText

end SchemaLint.ClassSource
