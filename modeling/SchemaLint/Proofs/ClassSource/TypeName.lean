import SchemaLint.ClassSource
import SchemaLint.Proofs.Form.Sequence
import SchemaLint.Proofs.Text
import SchemaLint.Proofs.Unicode.CodePoints

/-!
# Stored types of written types

A type is written (`ClassSource.TypeText`) as a dotted name, arguments in angle brackets and pairs of
brackets, with blanks in front of and inside of the brackets. It is stored as an array if its last
brackets enclose nothing; otherwise the name decides if there are arguments, and what is written is no
known type if there are none (`ClassSource.TypeText.storedType_text_eq_array_iff`). The type of each
declaration that is recognized is written that way, so this holds of all fields that are read
(`ClassSource.array_kind_iff`), those with a blank between their brackets included.
-/

namespace SchemaLint.ClassSource

open Text

/-! ## Names of types -/

theorem isAlpha_known : ∀ p ∈ knownTypes, ∀ name ∈ p.2, ∀ c ∈ name.toList, c.isAlpha = true := by
  have hall : ∀ p ∈ knownTypes, ∀ name ∈ p.2, name.toList.all Char.isAlpha = true := by decide
  exact fun p hp name hname => List.all_eq_true.mp (hall p hp name hname)

/-- A text with other characters than letters is no known type. -/
theorem find?_knownTypes_eq_none {base : List Char} (h : ∃ c ∈ base, c.isAlpha = false) :
    (knownTypes.find? fun (_, names) => names.contains (String.ofList base)) = none := by
  obtain ⟨c, hc, hother⟩ := h
  rw [List.find?_eq_none]
  intro p hp hmem
  rw [List.contains_iff_mem] at hmem
  have halpha := isAlpha_known p hp _ hmem c (by rwa [String.toList_ofList])
  rw [hother] at halpha
  cases halpha

/-- The base of a text without angle brackets is the text. -/
theorem baseType_of_not_mem {s : List Char} (hs : Trimmed s) (h : '<' ∉ s) : baseType s = s := by
  have hall : s.takeWhile (· != '<') = s := by
    refine List.takeWhile_eq_self_iff.mpr fun c hc => bne_iff_ne.mpr ?_
    rintro rfl
    exact h hc
  rw [baseType, hs.trim_eq, hall, hs.trim_eq]

/-- What is stored for a text that is no array follows from its base. -/
theorem storedType_eq {s : List Char} (hs : Trimmed s) (h : ¬"[]".toList <:+ s) : storedType s =
    ((knownTypes.find? fun (_, names) => names.contains (String.ofList (baseType s))).map (·.1)).getD
      (if standardPackages.any (fun p => p.toList.isPrefixOf (baseType s)) then
        String.ofList (baseType s) else "Object") := by
  have hsuffix : ¬"[]".toList.isSuffixOf (trim s) = true := by
    rwa [hs.trim_eq, List.isSuffixOf_iff_suffix]
  rw [storedType, if_neg hsuffix]
  simp only [String.toList_ofList]
  split
  · next heq => rw [heq]; rfl
  · next heq => rw [heq]; rfl

/-! ## Written types -/

/-- A pair of brackets. -/
structure Brackets where
  gap : List Char := []
  inside : List Char := []
  isBlank_gap : ∀ c ∈ gap, isBlank c = true := by exact List.all_eq_true.mp (by decide)
  isBlank_inside : ∀ c ∈ inside, isBlank c = true := by exact List.all_eq_true.mp (by decide)

def Brackets.text (b : Brackets) : List Char :=
  b.gap ++ '[' :: (b.inside ++ [']'])

/-- The arguments of a type; angle brackets may be nested in them. -/
structure Arguments where
  gap : List Char := []
  inside : List Char
  isBlank_gap : ∀ c ∈ gap, isBlank c = true := by exact List.all_eq_true.mp (by decide)
  inside_chars : ∀ c ∈ inside, isArgumentChar c = true := by exact List.all_eq_true.mp (by decide)

def Arguments.text (a : Arguments) : List Char :=
  a.gap ++ '<' :: (a.inside ++ ['>'])

/-- A type as it is written. -/
structure TypeText where
  name : List Char
  arguments : Option Arguments := none
  suffix : List Brackets := []
  name_ne_nil : name ≠ [] := by decide
  name_chars : ∀ c ∈ name, (Unicode.isWord c || c == '.') = true := by exact List.all_eq_true.mp (by decide)

namespace TypeText

variable (t : TypeText)

/-- The type of the elements. -/
def element : List Char :=
  t.name ++ (t.arguments.map Arguments.text).getD []

def text : List Char :=
  t.element ++ t.suffix.flatMap Brackets.text

/-- The last brackets enclose nothing. -/
def EndsTight : Prop :=
  ∃ b ∈ t.suffix.getLast?, b.inside = []

theorem isBlank_name : ∀ c ∈ t.name, isBlank c = false := by
  intro c hc
  rcases Bool.or_eq_true_iff.mp (t.name_chars c hc) with h | h
  · exact Unicode.isBlank_of_isWord h
  · rw [beq_iff_eq.mp h]
    decide

theorem not_mem_name {c : Char} (h : Unicode.isWord c = false ∧ c ≠ '.') : c ∉ t.name := by
  intro hc
  rcases Bool.or_eq_true_iff.mp (t.name_chars c hc) with hword | hdot
  · rw [h.1] at hword
    cases hword
  · exact h.2 (beq_iff_eq.mp hdot)

theorem trimmed_name : Trimmed t.name :=
  ⟨fun c hc => t.isBlank_name c (List.mem_of_mem_head? hc),
    fun c hc => t.isBlank_name c (List.mem_of_mem_getLast? hc)⟩

theorem element_ne_nil : t.element ≠ [] :=
  List.append_ne_nil_of_left_ne_nil t.name_ne_nil _

/-- The type of the elements ends with a character of its name or with an angle bracket. -/
theorem mem_getLast?_element : ∀ c ∈ t.element.getLast?, isBlank c = false ∧ c ≠ ']' := by
  intro c hc
  unfold element at hc
  cases harguments : t.arguments with
  | none =>
    rw [harguments, Option.map_none, Option.getD_none, List.append_nil] at hc
    have hmem := List.mem_of_mem_getLast? hc
    refine ⟨t.isBlank_name c hmem, ?_⟩
    rintro rfl
    exact t.not_mem_name (by decide) hmem
  | some a =>
    rw [harguments, Option.map_some, Option.getD_some, Arguments.text, ← List.cons_append,
      ← List.append_assoc, ← List.append_assoc, List.getLast?_concat] at hc
    obtain rfl := Option.some.inj hc
    decide

theorem trimmed_element : Trimmed t.element := by
  constructor
  · intro c hc
    rw [element, List.head?_append_of_ne_nil _ t.name_ne_nil] at hc
    exact t.trimmed_name.head c hc
  · exact fun c hc => (t.mem_getLast?_element c hc).1

/-- What is written for a type with brackets ends with the last of them. -/
theorem exists_text_eq (h : t.suffix ≠ []) :
    ∃ b ∈ t.suffix.getLast?, ∃ x, t.text = x ++ '[' :: (b.inside ++ [']']) := by
  obtain ⟨bs, b, hb⟩ := List.eq_nil_or_concat t.suffix |>.resolve_left h
  rw [List.concat_eq_append] at hb
  refine ⟨b, by rw [hb, List.getLast?_concat]; rfl, t.element ++ (bs.flatMap Brackets.text ++ b.gap), ?_⟩
  simp [text, hb, Brackets.text]

theorem trimmed_text : Trimmed t.text := by
  by_cases h : t.suffix = []
  · rw [text, h, List.flatMap_nil, List.append_nil]
    exact t.trimmed_element
  · obtain ⟨b, -, x, hx⟩ := t.exists_text_eq h
    refine ⟨fun c hc => ?_, fun c hc => ?_⟩
    · rw [text, List.head?_append_of_ne_nil _ t.element_ne_nil] at hc
      exact t.trimmed_element.head c hc
    · rw [hx, ← List.cons_append, ← List.append_assoc, List.getLast?_concat] at hc
      obtain rfl := Option.some.inj hc
      decide

theorem endsTight_iff {b : Brackets} (hb : b ∈ t.suffix.getLast?) : t.EndsTight ↔ b.inside = [] := by
  constructor
  · rintro ⟨d, hd, hinside⟩
    obtain rfl := Option.some.inj (hb.symm.trans hd)
    exact hinside
  · exact fun hinside => ⟨b, hb, hinside⟩

theorem suffix_text_iff : "[]".toList <:+ t.text ↔ t.EndsTight := by
  by_cases h : t.suffix = []
  · have htext : t.text = t.element := by rw [text, h, List.flatMap_nil, List.append_nil]
    have hloose : ¬t.EndsTight := by
      rintro ⟨b, hb, -⟩
      rw [h] at hb
      cases hb
    refine iff_of_false ?_ hloose
    rintro ⟨x, hx⟩
    have hlast : t.element.getLast? = some ']' := by
      rw [← htext, ← hx, show x ++ "[]".toList = (x ++ ['[']) ++ [']'] by simp, List.getLast?_concat]
    exact (t.mem_getLast?_element ']' hlast).2 rfl
  · obtain ⟨b, hb, x, hx⟩ := t.exists_text_eq h
    rw [hx, t.endsTight_iff hb]
    constructor
    · rintro ⟨y, hy⟩
      rcases List.eq_nil_or_concat b.inside with hnil | ⟨i, c, hc⟩
      · exact hnil
      · -- A blank stands in front of the closing bracket.
        have hblank := b.isBlank_inside c (by rw [hc, List.concat_eq_append]; simp)
        have hend : (y ++ ['[']) ++ [']'] = (x ++ '[' :: i ++ [c]) ++ [']'] := by
          simpa [hc, List.concat_eq_append] using hy
        have hlast := (List.append_inj' (List.append_cancel_right hend) rfl).2
        rw [← List.singleton_inj.mp hlast] at hblank
        exact absurd hblank (by decide)
    · intro hinside
      exact ⟨x, by rw [hinside]; rfl⟩

/-! ## Stored types -/

theorem storedType_of_endsTight (h : t.EndsTight) : storedType t.text = "Array" := by
  rw [storedType, t.trimmed_text.trim_eq, if_pos (List.isSuffixOf_iff_suffix.mpr (t.suffix_text_iff.mpr h))]

/-- The name of a type as a type of its own. -/
def bare : TypeText :=
  { t with arguments := none, suffix := [] }

theorem text_bare : t.bare.text = t.name := by
  simp [text, element, bare]

theorem not_endsTight_bare : ¬t.bare.EndsTight := by
  rintro ⟨b, hb, -⟩
  cases hb

/-- The base of a type with arguments is its name. -/
theorem baseType_text {a : Arguments} (ha : t.arguments = some a) : baseType t.text = t.name := by
  have htext : t.text = (t.name ++ a.gap) ++ '<' :: (a.inside ++ '>' :: t.suffix.flatMap Brackets.text) := by
    simp [text, element, ha, Arguments.text]
  have hangle : ∀ c ∈ t.name ++ a.gap, (c != '<') = true := by
    intro c hc
    rw [bne_iff_ne]
    rintro rfl
    rcases List.mem_append.mp hc with hc | hc
    · exact t.not_mem_name (by decide) hc
    · exact absurd (a.isBlank_gap '<' hc) (by decide)
  rw [baseType, t.trimmed_text.trim_eq, htext, List.takeWhile_append_of_pos hangle, List.takeWhile_cons,
    if_neg (by decide), List.append_nil, trim_append_blank a.isBlank_gap, t.trimmed_name.trim_eq]

theorem storedType_of_arguments (h : ¬t.EndsTight) (ha : t.arguments.isSome) :
    storedType t.text = storedType t.name := by
  obtain ⟨a, ha⟩ := Option.isSome_iff_exists.mp ha
  have hname : baseType t.name = t.name :=
    baseType_of_not_mem t.trimmed_name (t.not_mem_name (by decide))
  have hloose : ¬"[]".toList <:+ t.name := by
    rw [← t.text_bare, suffix_text_iff]
    exact t.not_endsTight_bare
  rw [storedType_eq t.trimmed_text (mt t.suffix_text_iff.mp h), storedType_eq t.trimmed_name hloose,
    t.baseType_text ha, hname]

/-- A type with brackets and no arguments is no known type by what is written. -/
theorem storedType_of_no_arguments (h : ¬t.EndsTight) (ha : t.arguments = none) (hs : t.suffix ≠ []) :
    storedType t.text =
      if standardPackages.any (fun p => p.toList.isPrefixOf t.text) then String.ofList t.text
      else "Object" := by
  obtain ⟨b, -, x, hx⟩ := t.exists_text_eq hs
  have hangle : '<' ∉ t.text := by
    rw [text, element, ha, Option.map_none, Option.getD_none, List.append_nil, List.mem_append,
      List.mem_flatMap]
    rintro (hc | ⟨d, -, hd⟩)
    · exact t.not_mem_name (by decide) hc
    · simp only [Brackets.text, List.mem_append, List.mem_cons] at hd
      rcases hd with hd | hd | hd | hd | hd
      · exact absurd (d.isBlank_gap _ hd) (by decide)
      · exact absurd hd (by decide)
      · exact absurd (d.isBlank_inside _ hd) (by decide)
      · exact absurd hd (by decide)
      · cases hd
  rw [storedType_eq t.trimmed_text (mt t.suffix_text_iff.mp h), baseType_of_not_mem t.trimmed_text hangle,
    find?_knownTypes_eq_none ⟨'[', by rw [hx]; simp, by decide⟩]
  rfl

/-- A type with brackets is stored as an array if and only if its last brackets enclose nothing, or it has
arguments and its name alone stands for an array. -/
theorem storedType_text_eq_array_iff (hs : t.suffix ≠ []) :
    storedType t.text = "Array" ↔ t.EndsTight ∨ t.arguments.isSome ∧ storedType t.name = "Array" := by
  by_cases h : t.EndsTight
  · exact iff_of_true (t.storedType_of_endsTight h) (.inl h)
  · rw [or_iff_right h]
    cases ha : t.arguments with
    | some a => rw [t.storedType_of_arguments h (by rw [ha]; rfl)]; simp
    | none =>
      refine iff_of_false (fun harray => ?_) (by simp)
      obtain ⟨b, -, x, hx⟩ := t.exists_text_eq hs
      rw [t.storedType_of_no_arguments h ha hs] at harray
      split at harray
      · have hmem : '[' ∈ "Array".toList := by
          rw [← harray, String.toList_ofList, hx]
          simp
        exact absurd hmem (by decide)
      · exact absurd harray (by decide)

end TypeText

/-! ## Types read -/

open Form

section Read

variable {x r s : List Char}

/-- What is read between two signs, and the blanks in front of the first one. -/
theorem exists_of_mem_enclosed {left right : List Char} {f : Form (List Char)}
    (h : (x, r) ∈ (space ++ exact left ++ f ++ exact right) s) :
    ∃ gap inside t t', (∀ c ∈ gap, isBlank c = true) ∧ (inside, t') ∈ f t ∧
      x = gap ++ left ++ inside ++ right := by
  obtain ⟨y, z, t, hy, hz, rfl⟩ := mem_append.mp h
  obtain ⟨u, inside, t', hu, hinside, rfl⟩ := mem_append.mp hy
  obtain ⟨gap, w, t'', hgap, hw, rfl⟩ := mem_append.mp hu
  obtain ⟨rfl, -⟩ := mem_exact.mp hw
  obtain ⟨rfl, -⟩ := mem_exact.mp hz
  exact ⟨gap, inside, t', t, (mem_span hgap).2, hinside, rfl⟩

theorem mem_brackets (h : (x, r) ∈ brackets s) : ∃ b : Brackets, x = b.text := by
  obtain ⟨gap, inside, t, t', hgap, hinside, rfl⟩ := exists_of_mem_enclosed h
  exact ⟨⟨gap, inside, hgap, (mem_span hinside).2⟩, by simp [Brackets.text]⟩

theorem mem_typeArguments (h : (x, r) ∈ typeArguments s) : ∃ a : Arguments, x = a.text := by
  obtain ⟨gap, inside, t, t', hgap, hinside, rfl⟩ := exists_of_mem_enclosed h
  exact ⟨⟨gap, inside, hgap, (mem_run hinside).2⟩, by simp [Arguments.text]⟩

/-- What is read for a type is a type as it is written. -/
theorem mem_typeName (h : (x, r) ∈ typeName s) : ∃ t : TypeText, x = t.text := by
  obtain ⟨y, z, t, hy, hz, rfl⟩ := mem_append.mp h
  obtain ⟨name, w, t', hname, hw, rfl⟩ := mem_append.mp hy
  obtain ⟨-, hne, hchars⟩ := mem_span1 hname
  obtain ⟨suffix, rfl⟩ := exists_of_mem_star (fun _ _ _ h => mem_brackets h) hz
  have harguments : ∃ o : Option Arguments, w = (o.map Arguments.text).getD [] := by
    rcases mem_opt hw with hw | ⟨rfl, -⟩
    · obtain ⟨a, rfl⟩ := mem_typeArguments hw
      exact ⟨some a, rfl⟩
    · exact ⟨none, rfl⟩
  obtain ⟨arguments, rfl⟩ := harguments
  exact ⟨⟨name, arguments, suffix, hne, hchars⟩, rfl⟩

/-- The type of a declaration is a type as it is written. -/
theorem exists_typeText {before : Option Char} {d : FieldDeclaration}
    (h : (d, r) ∈ fieldDeclaration before s) : ∃ t : TypeText, d.type = t.text := by
  obtain ⟨_, _, _, h⟩ := mem_bind.mp h
  obtain ⟨_, _, _, h⟩ := mem_bind.mp h
  obtain ⟨type, _, htype, h⟩ := mem_bind.mp h
  obtain ⟨_, _, _, h⟩ := mem_bind.mp h
  obtain ⟨_, _, _, h⟩ := mem_bind.mp h
  obtain ⟨_, _, _, h⟩ := mem_bind.mp h
  obtain ⟨rfl, -⟩ := mem_pure.mp h
  exact mem_typeName htype

end Read

/-- The type of each declaration that is recognized in a source is written as a name with arguments and
brackets. If it has brackets, the field is stored as an array if and only if the last of them enclose
nothing, or the type has arguments and its name alone stands for an array. -/
theorem array_kind_iff (source : String) (d : FieldDeclaration)
    (hd : d ∈ occurrences fieldDeclaration (code source)) :
    (∃ t : TypeText, d.type = t.text) ∧ ∀ t : TypeText, d.type = t.text → t.suffix ≠ [] →
      ∀ f ∈ d.field?, f.type = "Array" ↔
        t.EndsTight ∨ t.arguments.isSome ∧ storedType t.name = "Array" := by
  obtain ⟨before, s, r, hread⟩ := mem_findAll hd
  refine ⟨exists_typeText hread, fun t ht hsuffix f hf => ?_⟩
  have hstored : f.type = storedType d.type := by
    unfold FieldDeclaration.field? at hf
    split at hf
    · cases hf
    · obtain rfl := Option.some.inj hf
      rfl
  rw [hstored, ht]
  exact t.storedType_text_eq_array_iff hsuffix

/-- Brackets with a blank in them are read as those of an array, and no array is stored. -/
theorem loose_brackets_stored_as_document :
    { modifiers := [], type := "byte[ ]".toList, name := "raw".toList } ∈
        occurrences fieldDeclaration (code "class A \x7b private byte[ ] raw; \x7d") ∧
      storedType "byte[ ]".toList ≠ "Array" ∧
      (outline "class A \x7b private byte[ ] raw; \x7d").fields = [{ name := "raw", type := "Object" }] := by
  have hread : { modifiers := [], type := "byte[ ]".toList, name := "raw".toList } ∈
      occurrences fieldDeclaration (code "class A \x7b private byte[ ] raw; \x7d") := by
    decide +kernel
  have hkind := (array_kind_iff _ _ hread).2 { name := "byte".toList, suffix := [{ inside := [' '] }] }
    (by decide) (by simp) { name := "raw", type := storedType "byte[ ]".toList } rfl
  refine ⟨hread, fun harray => ?_, by decide +kernel⟩
  rcases hkind.mp harray with ⟨b, hb, hinside⟩ | ⟨hsome, -⟩
  · obtain rfl := Option.some.inj hb
    cases hinside
  · cases hsome

end SchemaLint.ClassSource
