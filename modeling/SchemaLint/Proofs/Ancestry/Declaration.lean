import SchemaLint.Proofs.ClassSource.Comment
import SchemaLint.Proofs.Form.Stop
import SchemaLint.Proofs.Text
import SchemaLint.Proofs.Unicode.CodePoints

/-!
# Declarations of classes read

A declaration of a class is read with its name and with the class that is extended behind its arguments
(`ClassSource.prefers_classDeclaration`), and the first one in a source gives the name and the parent of
the source (`ClassSource.outline_eq`). The arguments end at their first closing bracket, and there are
none if a brace stands in front of it.
-/

namespace SchemaLint

open Form Text

namespace ClassSource

/-! ## Declarations read -/

/-- What is left of a text behind the arguments of a class, if it begins with such. -/
def afterArguments (t : List Char) : List Char :=
  ((classArguments t).head?.map (·.2)).getD t

/-- The class that is extended at the beginning of a text. -/
def parentAt (t : List Char) : Option (List Char) :=
  (extended.read? t).join

theorem prefers_arguments (t : List Char) :
    ∃ x, Prefers (opt classArguments) t x (afterArguments t) := by
  unfold Prefers afterArguments
  rw [opt, List.head?_append]
  cases (classArguments t).head? with
  | none => exact ⟨[], rfl⟩
  | some w => exact ⟨w.1, rfl⟩

theorem prefers_parent (t : List Char) :
    ∃ r, Prefers (oneOf [extended, Form.pure none]) t (parentAt t) r := by
  unfold Prefers parentAt Form.read?
  rw [oneOf, List.flatMap_cons, List.head?_append]
  cases (extended t).head? with
  | none => exact ⟨t, rfl⟩
  | some w => exact ⟨w.2, rfl⟩

theorem prefers_behind_name (name t : List Char) : ∃ r, Prefers
    (opt classArguments >>= fun _ => oneOf [extended, Form.pure none] >>= fun parent =>
      (pure { name, parent } : Form ClassDeclaration))
    t { name, parent := parentAt (afterArguments t) } r := by
  obtain ⟨x, hx⟩ := prefers_arguments t
  obtain ⟨r, hr⟩ := prefers_parent (afterArguments t)
  exact ⟨r, hx.bind (hr.bind rfl)⟩

section Declaration

variable {before : Option Char} {gap name t : List Char}

/-- A declaration is read with its name, and with the class that is extended behind its arguments. -/
theorem prefers_classDeclaration (hbefore : before.any Unicode.isWord = false)
    (hne : gap ≠ []) (hgap : ∀ c ∈ gap, isBlank c = true)
    (hname : name ≠ []) (hword : ∀ c ∈ name, Unicode.isWord c = true)
    (ht : ∀ c ∈ t.head?, Unicode.isWord c = false) :
    ∃ r, Prefers (classDeclaration before) ("class".toList ++ (gap ++ (name ++ t)))
      { name, parent := parentAt (afterArguments t) } r := by
  have hclass : Prefers (freshWord ["class"] before) ("class".toList ++ (gap ++ (name ++ t)))
      "class".toList (gap ++ (name ++ t)) := by
    rw [freshWord, hbefore]
    exact .oneOf_cons (Only.exact "class".toList _).prefers
  have hspace : Only space1 (gap ++ (name ++ t)) gap (name ++ t) := by
    refine .span1 hne hgap fun c hc => ?_
    rw [List.head?_append_of_ne_nil _ hname] at hc
    exact Unicode.isBlank_of_isWord (hword c (List.mem_of_mem_head? hc))
  have hread : Only identifier (name ++ t) name t := .span1 hname hword ht
  obtain ⟨r, hr⟩ := prefers_behind_name name t
  exact ⟨r, (hclass.append hspace.prefers).bind (hread.prefers.bind hr)⟩

theorem classDeclaration_eq_nil_iff {s : List Char} :
    classDeclaration before s = [] ↔ (freshWord ["class"] before ++ space1 ++ identifier) s = [] := by
  unfold classDeclaration
  rw [bind_eq_nil_iff, append_eq_nil_iff]
  refine forall₂_congr fun w _ => ?_
  rw [bind_eq_nil_iff]
  constructor
  · intro h
    refine List.eq_nil_iff_forall_not_mem.mpr fun v hv => ?_
    obtain ⟨r, hr⟩ := prefers_behind_name v.1 v.2
    exact hr.ne_nil (h v hv)
  · intro h v hv
    rw [h] at hv
    cases hv

/-- Whether a declaration begins in front of the letter that it begins with does not depend on what
follows the letter. -/
theorem classDeclaration_append_eq_nil {x : List Char} (hx : x ≠ []) (t : List Char) :
    classDeclaration before (x ++ 'c' :: t) = [] ↔ classDeclaration before (x ++ ['c']) = [] := by
  obtain ⟨d, x, rfl⟩ := List.exists_cons_of_ne_nil hx
  have hlater : FitsAlike 'c' (exact "lass".toList ++ space1 ++ identifier) :=
    ((stopsAt_exact (by decide)).append ((stopsAt_char (by decide)).append
      (stopsAt_span (by decide)))).fitsAlike_append (fitsAlike_span1 _)
  rw [classDeclaration_eq_nil_iff, classDeclaration_eq_nil_iff, freshWord]
  split
  · exact iff_of_true rfl rfl
  · have hword : oneOf (["class"].map fun w => exact w.toList) = char (· == 'c') ++ exact "lass".toList := by
      funext s
      exact List.append_nil _
    rw [hword, append_assoc, append_assoc, ← append_assoc (exact _), append_eq_nil_iff, append_eq_nil_iff]
    by_cases hd : (d == 'c') = true
    · have hread : ∀ s, char (· == 'c') (d :: s) = [([d], s)] := fun s => Only.char hd
      rw [List.cons_append, List.cons_append, hread, hread, List.forall_mem_singleton,
        List.forall_mem_singleton]
      exact hlater x t
    · have hread : ∀ s, char (· == 'c') (d :: s) = [] := fun s => by rw [char, if_neg hd]
      rw [List.cons_append, List.cons_append, hread, hread]

/-- What stands in front of the first declaration of a class: it does not end with a word, and no
declaration begins in it, whatever word it may run into. -/
structure IsPreamble (pre : List Char) : Prop where
  ends : pre.getLast?.any Unicode.isWord = false
  free : occurrences classDeclaration (pre ++ ['c']) = []

theorem outline_eq {source : String} {pre : List Char} (hpre : IsPreamble pre)
    (hcode : code source = pre ++ ("class".toList ++ (gap ++ (name ++ t))))
    (hne : gap ≠ []) (hgap : ∀ c ∈ gap, isBlank c = true)
    (hname : name ≠ []) (hword : ∀ c ∈ name, Unicode.isWord c = true)
    (ht : ∀ c ∈ t.head?, Unicode.isWord c = false) :
    (outline source).name = some (String.ofList name) ∧ (outline source).parent =
      (parentAt (afterArguments t)).map fun p => String.ofList (Identifier.unqualified p) := by
  obtain ⟨r, hr⟩ := prefers_classDeclaration hpre.ends hne hgap hname hword ht
  have hbegin : "class".toList ++ (gap ++ (name ++ t)) = 'c' :: ("lass".toList ++ (gap ++ (name ++ t))) :=
    List.cons_append
  rw [hbegin] at hr hcode
  have hfind : (occurrences classDeclaration (code source)).head? =
      some { name, parent := parentAt (afterArguments t) } := by
    rw [hcode, occurrences, findAll_append
      (fun _ x hx h => (classDeclaration_append_eq_nil hx _).mpr h) hpre.free, Option.or_none]
    exact head?_findAll hr
  unfold outline
  dsimp only
  split
  · next hnone =>
    rw [hnone] at hfind
    cases hfind
  · next d hsome =>
    obtain rfl := Option.some.inj (hsome.symm.trans hfind)
    dsimp only
    exact ⟨rfl, rfl⟩

end Declaration

/-! ## Arguments and parents -/

/-- No name with dots goes on into a text. -/
def EndsName (t : List Char) : Prop :=
  ∀ c ∈ t.head?, Unicode.isWord c = false ∧ c ≠ '.'

theorem endsName_cons {c : Char} (hc : Unicode.isWord c = false ∧ c ≠ '.') (t : List Char) :
    EndsName (c :: t) := by
  rintro d ⟨⟩
  exact hc

theorem endsName_of_isBlank {c : Char} (hc : isBlank c = true) (t : List Char) : EndsName (c :: t) := by
  refine endsName_cons ⟨Unicode.isWord_of_isBlank hc, ?_⟩ t
  rintro rfl
  exact absurd hc (by decide)

section Behind

variable {gap t : List Char} (hgap : ∀ c ∈ gap, isBlank c = true)

include hgap

theorem EndsName.blank_append (ht : EndsName t) : EndsName (gap ++ t) := by
  cases gap with
  | nil => exact ht
  | cons b gap => exact endsName_of_isBlank (hgap b List.mem_cons_self) _

theorem only_space (ht : ∀ c ∈ t.head?, isBlank c = false) : Only space (gap ++ t) gap t :=
  .span hgap ht

/-- Arguments are read as far as the first closing bracket or brace. -/
theorem only_argumentsStart {x : List Char} {d : Char} (hx : ∀ c ∈ x, c ≠ '>' ∧ c ≠ '\x7b')
    (hd : d = '>' ∨ d = '\x7b') :
    Only (space ++ exact ['<'] ++ span fun c => !(c == '>' || c == '\x7b'))
      (gap ++ '<' :: (x ++ d :: t)) (gap ++ ['<'] ++ x) (d :: t) := by
  have hspace : Only space (gap ++ '<' :: (x ++ d :: t)) gap _ :=
    only_space hgap (by rintro c ⟨⟩; decide)
  have hspan : Only (span fun c => !(c == '>' || c == '\x7b')) (x ++ d :: t) x (d :: t) :=
    .span (fun c hc => by simpa using hx c hc) (by rintro c ⟨⟩; rcases hd with rfl | rfl <;> decide)
  exact (hspace.append (.exact ['<'] (x ++ d :: t))).append hspan

/-- Arguments are read up to the first closing bracket. -/
theorem afterArguments_closed {x : List Char} (hx : ∀ c ∈ x, c ≠ '>' ∧ c ≠ '\x7b') :
    afterArguments (gap ++ '<' :: (x ++ '>' :: t)) = t := by
  have hread : Only classArguments (gap ++ '<' :: (x ++ '>' :: t)) _ t :=
    (only_argumentsStart hgap hx (.inl rfl)).append (.exact ['>'] t)
  rw [afterArguments, show classArguments _ = _ from hread]
  rfl

/-- There are no arguments if a brace stands in front of the first closing bracket. -/
theorem afterArguments_brace {x : List Char} (hx : ∀ c ∈ x, c ≠ '>' ∧ c ≠ '\x7b') :
    afterArguments (gap ++ '<' :: (x ++ '\x7b' :: t)) = gap ++ '<' :: (x ++ '\x7b' :: t) := by
  have hread : classArguments (gap ++ '<' :: (x ++ '\x7b' :: t)) = [] :=
    (only_argumentsStart hgap hx (.inr rfl)).append_eq_nil (exact_eq_nil (by rintro c ⟨⟩; decide))
  rw [afterArguments, hread]
  rfl

theorem afterArguments_of_head (ht : ∀ c ∈ t.head?, isBlank c = false ∧ c ≠ '<') :
    afterArguments (gap ++ t) = gap ++ t := by
  have hspace := only_space hgap fun c hc => (ht c hc).1
  have hread : classArguments (gap ++ t) = [] :=
    append_eq_nil _ (append_eq_nil _ (hspace.append_eq_nil (exact_eq_nil fun c hc => (ht c hc).2)))
  rw [afterArguments, hread]
  rfl

theorem parentAt_of_head (ht : ∀ c ∈ t.head?, isBlank c = false ∧ c ≠ 'e') :
    parentAt (gap ++ t) = none := by
  have hread : (space1 ++ exact "extends".toList) (gap ++ t) = [] := by
    cases gap with
    | nil =>
      refine append_eq_nil _ (span1_eq_nil_iff.mpr fun c hc => (ht c hc).1)
    | cons b gap =>
      have hspace : Only space1 (b :: gap ++ t) (b :: gap) t :=
        .span1 (List.cons_ne_nil b gap) hgap fun c hc => (ht c hc).1
      exact hspace.append_eq_nil (exact_eq_nil fun c hc => (ht c hc).2)
  rw [parentAt, read?, extended, bind_eq_nil _ (append_eq_nil _ hread)]
  rfl

/-- A dotted name behind the word `extends` is read as a whole. -/
theorem parentAt_extends (hne : gap ≠ []) {gap' name : List Char} (hne' : gap' ≠ [])
    (hgap' : ∀ c ∈ gap', isBlank c = true) (hname : name ≠ [])
    (hchars : ∀ c ∈ name, Unicode.isWord c = true ∨ c = '.') (ht : EndsName t) :
    parentAt (gap ++ ("extends".toList ++ (gap' ++ (name ++ t)))) = some name := by
  have hblank : ∀ c ∈ (name ++ t).head?, isBlank c = false := by
    intro c hc
    rw [List.head?_append_of_ne_nil _ hname] at hc
    rcases hchars c (List.mem_of_mem_head? hc) with h | rfl
    · exact Unicode.isBlank_of_isWord h
    · decide
  have hspace : Only space1 (gap ++ ("extends".toList ++ (gap' ++ (name ++ t)))) gap _ :=
    .span1 hne hgap (by rintro c ⟨⟩; decide)
  have hspace' : Only space1 (gap' ++ (name ++ t)) gap' (name ++ t) := .span1 hne' hgap' hblank
  have hread : Only dottedName (name ++ t) name t :=
    .span1 hname (fun c hc => by simpa using hchars c hc) fun c hc => by simpa using ht c hc
  have hextended : Prefers extended (gap ++ ("extends".toList ++ (gap' ++ (name ++ t)))) (some name) t :=
    ((hspace.append (.exact _ _)).append hspace').prefers.bind (hread.prefers.bind rfl)
  rw [parentAt, hextended.read?_eq]
  rfl

end Behind

/-- A class is extended only behind blanks and the word `extends`. -/
theorem exists_of_parentAt {t name : List Char} (h : parentAt t = some name) :
    ∃ gap r, (∀ c ∈ gap, isBlank c = true) ∧ t = gap ++ ("extends".toList ++ r) := by
  obtain ⟨⟨a, u⟩, hfirst, -⟩ := Option.map_eq_some_iff.mp (Option.join_eq_some_iff.mp h)
  obtain ⟨x, v, hx, -⟩ := mem_bind.mp (List.mem_of_head? hfirst)
  obtain ⟨y, -, w, hy, -⟩ := mem_append.mp hx
  obtain ⟨gap, z, q, hgap, hword, -⟩ := mem_append.mp hy
  obtain ⟨b, g, r, hb, hg, rfl⟩ := mem_append.mp hgap
  obtain ⟨d, hd, rfl, rfl⟩ := mem_char.mp hb
  obtain ⟨rfl, rfl⟩ := Prod.mk.inj (List.mem_singleton.mp hg)
  obtain ⟨rfl, hrest⟩ := mem_exact.mp hword
  refine ⟨d :: r.takeWhile isBlank, w, ?_, ?_⟩
  · rintro c hc
    rcases List.mem_cons.mp hc with rfl | hc
    · exact hd
    · exact List.mem_takeWhile_imp hc
  · rw [← hrest, List.cons_append, List.takeWhile_append_dropWhile]

/-- What is extended in front of a closing bracket does not depend on what follows the bracket. -/
theorem parentAt_append_closed (x t : List Char) : parentAt (x ++ '>' :: t) = parentAt (x ++ ['>']) := by
  have hstops : StopsAt '>' extended :=
    (((stopsAt_char (by decide)).append (stopsAt_span (by decide))).append
      (stopsAt_exact (by decide))).append ((stopsAt_char (by decide)).append
        (stopsAt_span (by decide))) |>.bind fun _ =>
      ((stopsAt_char (by decide)).append (stopsAt_span (by decide))).bind fun _ => stopsAt_pure _
  obtain ⟨ways, hways⟩ := hstops x
  rw [parentAt, parentAt, read?, read?, hways, hways]
  cases ways <;> rfl

end ClassSource

end SchemaLint
