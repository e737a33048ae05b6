import SchemaLint.Proofs.Ancestry.Declaration

/-!
# Headers of classes

The header of a class (`ClassHeader`) has a name, a list of type parameters in which angle brackets are
nested to any depth (`Angled`), and a class that it extends. The name is always read. The parameters are
read up to their first closing bracket. If no bracket is nested in them, they are read as a whole, and
the class that is extended is the parent. Otherwise what is extended is not reached, and there is no
parent unless one is read inside the parameters (`ClassSource.class_header_read`).
-/

namespace SchemaLint.ClassSource

open Form Text

/-! ## Lists of types -/

/-- Texts in which each angle bracket has its partner, nested to any depth. -/
inductive Angled : List Char → Prop
  | nil : Angled []
  | char {c : Char} {s : List Char} (hc : c ≠ '<' ∧ c ≠ '>') (hs : Angled s) : Angled (c :: s)
  | nested {s t : List Char} (hs : Angled s) (ht : Angled t) : Angled ('<' :: (s ++ '>' :: t))

theorem Angled.of_forall {s : List Char} (h : ∀ c ∈ s, c ≠ '<' ∧ c ≠ '>') : Angled s := by
  induction s with
  | nil => exact .nil
  | cons c s ih =>
    exact .char (h c List.mem_cons_self) (ih fun d hd => h d (List.mem_cons_of_mem c hd))

theorem Angled.append {s t : List Char} (hs : Angled s) (ht : Angled t) : Angled (s ++ t) := by
  induction hs with
  | nil => exact ht
  | char hc _ ih => exact .char hc ih
  | nested hs _ _ ih =>
    rw [List.cons_append, List.append_assoc, List.cons_append]
    exact .nested hs ih

theorem Angled.not_mem {s : List Char} (h : Angled s) (hopen : '<' ∉ s) : '>' ∉ s := by
  induction h with
  | nil => exact List.not_mem_nil
  | char hc _ ih =>
    rw [List.mem_cons, not_or]
    exact ⟨hc.2.symm, ih fun hmem => hopen (List.mem_cons_of_mem _ hmem)⟩
  | nested => exact absurd List.mem_cons_self hopen

theorem Angled.mem {s : List Char} (h : Angled s) (hopen : '<' ∈ s) : '>' ∈ s := by
  induction h with
  | nil => cases hopen
  | char hc _ ih =>
    rcases List.mem_cons.mp hopen with rfl | hopen
    · exact absurd rfl hc.1
    · exact List.mem_cons_of_mem _ (ih hopen)
  | nested => simp

/-- A list of types in angle brackets. -/
structure TypeList where
  gap : List Char
  inside : List Char
  isBlank_gap : ∀ c ∈ gap, isBlank c = true
  angled : Angled inside

namespace TypeList

variable (p : TypeList)

def text : List Char :=
  p.gap ++ '<' :: (p.inside ++ ['>'])

def textOf (o : Option TypeList) : List Char :=
  (o.map text).getD []

theorem endsName_textOf (o : Option TypeList) {t : List Char} (ht : EndsName t) :
    EndsName (textOf o ++ t) := by
  cases o with
  | none => exact ht
  | some p =>
    rw [textOf, Option.map_some, Option.getD_some, text, List.append_assoc]
    exact .blank_append p.isBlank_gap (endsName_cons (by decide) _)

/-- A list in which no brackets are nested, and no braces. -/
def IsFlat : Prop :=
  '<' ∉ p.inside ∧ '\x7b' ∉ p.inside

instance : Decidable p.IsFlat :=
  inferInstanceAs (Decidable (_ ∧ _))

/-- The types up to the first closing bracket. -/
def opening : List Char :=
  p.inside.takeWhile (· != '>')

/-- What stands behind the first closing bracket. -/
def remaining : List Char :=
  ((p.inside ++ ['>']).dropWhile (· != '>')).drop 1

/-- The class that is extended right behind the first closing bracket. -/
def parent : Option (List Char) :=
  if '\x7b' ∈ p.opening then none else parentAt p.remaining

/-- Right behind the first closing bracket stands the word `extends`. -/
def Extends : Prop :=
  ∃ gap r, (∀ c ∈ gap, isBlank c = true) ∧ p.remaining = gap ++ ("extends".toList ++ r)

theorem parent_eq_none (h : ¬p.Extends) : p.parent = none := by
  unfold parent
  split
  · rfl
  · cases hread : parentAt p.remaining with
    | none => rfl
    | some name => exact absurd (exists_of_parentAt hread) h

theorem ne_of_mem_opening : ∀ c ∈ p.opening, c ≠ '>' := by
  intro c hc
  simpa using List.mem_takeWhile_imp hc

theorem opening_append : p.inside ++ ['>'] = p.opening ++ '>' :: p.remaining := by
  unfold opening remaining
  induction p.inside with
  | nil => rfl
  | cons c s ih =>
    by_cases hc : c = '>'
    · simp [hc]
    · simpa [hc] using ih

variable {p}

theorem IsFlat.opening_eq (h : p.IsFlat) : p.opening = p.inside := by
  have hclosing := p.angled.not_mem h.1
  refine List.takeWhile_eq_self_iff.mpr fun c hc => ?_
  rw [bne_iff_ne]
  rintro rfl
  exact hclosing hc

/-- In a list that is not flat the first closing bracket is not the last one, or a brace stands in
front of it. -/
theorem exists_remaining (h : ¬p.IsFlat) : '\x7b' ∈ p.opening ∨ ∃ x, p.remaining = x ++ ['>'] := by
  have hsplit := p.opening_append
  rcases List.eq_nil_or_concat p.remaining with hnil | ⟨x, d, hlast⟩
  · rw [hnil, List.append_cancel_right_eq] at hsplit
    have hclosing : '>' ∉ p.inside := fun hmem => p.ne_of_mem_opening _ (hsplit ▸ hmem) rfl
    have hopen : '<' ∉ p.inside := fun hmem => hclosing (p.angled.mem hmem)
    left
    rw [← hsplit]
    by_contra hbrace
    exact h ⟨hopen, hbrace⟩
  · rw [List.concat_eq_append] at hlast
    rw [hlast, ← List.cons_append, ← List.append_assoc] at hsplit
    obtain ⟨-, hd⟩ := List.append_inj' hsplit rfl
    exact .inr ⟨x, by rw [hlast, ← List.singleton_inj.mp hd]⟩

theorem IsFlat.afterArguments_append (h : p.IsFlat) (t : List Char) : afterArguments (p.text ++ t) = t := by
  have hx : ∀ c ∈ p.inside, c ≠ '>' ∧ c ≠ '\x7b' := by
    rintro c hc
    refine ⟨p.ne_of_mem_opening c (by rwa [h.opening_eq]), ?_⟩
    rintro rfl
    exact h.2 hc
  have hshape : p.text ++ t = p.gap ++ '<' :: (p.inside ++ '>' :: t) := by simp [text]
  rw [hshape, afterArguments_closed p.isBlank_gap hx]

/-- Behind a list that is not flat the parent is the one that is read in it, whatever follows. -/
theorem parentAt_append (h : ¬p.IsFlat) (t : List Char) :
    parentAt (afterArguments (p.text ++ t)) = p.parent := by
  have hshape : p.text ++ t = p.gap ++ '<' :: (p.opening ++ '>' :: (p.remaining ++ t)) := by
    have hsplit := p.opening_append
    simp only [text, List.append_assoc, List.cons_append, hsplit]
  unfold TypeList.parent
  split
  · next hbrace =>
    obtain ⟨x, y, hopening, hx⟩ := List.eq_append_cons_of_mem hbrace
    have hbefore : ∀ c ∈ x, c ≠ '>' ∧ c ≠ '\x7b' := by
      intro c hc
      refine ⟨p.ne_of_mem_opening c (by rw [hopening]; exact List.mem_append_left _ hc), ?_⟩
      rintro rfl
      exact hx hc
    rw [hshape, hopening, List.append_assoc, List.cons_append,
      afterArguments_brace p.isBlank_gap hbefore]
    exact parentAt_of_head p.isBlank_gap (by rintro c ⟨⟩; decide)
  · next hbrace =>
    have hx : ∀ c ∈ p.opening, c ≠ '>' ∧ c ≠ '\x7b' := by
      rintro c hc
      refine ⟨p.ne_of_mem_opening c hc, ?_⟩
      rintro rfl
      exact hbrace hc
    obtain ⟨x, hlast⟩ := (exists_remaining h).resolve_left hbrace
    rw [hshape, afterArguments_closed p.isBlank_gap hx, hlast, List.append_assoc,
      List.singleton_append, parentAt_append_closed]

end TypeList

/-! ## Headers -/

/-- The class that a header extends. -/
structure Superclass where
  /-- The blanks around the word `extends`. -/
  gap : List Char
  gap' : List Char
  package : Option (List Char)
  simple : List Char
  arguments : Option TypeList
  gap_ne_nil : gap ≠ []
  isBlank_gap : ∀ c ∈ gap, isBlank c = true
  gap'_ne_nil : gap' ≠ []
  isBlank_gap' : ∀ c ∈ gap', isBlank c = true
  package_chars : ∀ q ∈ package, ∀ c ∈ q, Unicode.isWord c = true ∨ c = '.'
  simple_ne_nil : simple ≠ []
  simple_chars : ∀ c ∈ simple, Unicode.isWord c = true

namespace Superclass

variable (s : Superclass)

def name : List Char :=
  (s.package.map fun q => q ++ ['.']).getD [] ++ s.simple

def text : List Char :=
  s.gap ++ ("extends".toList ++ (s.gap' ++ (s.name ++ TypeList.textOf s.arguments)))

theorem name_ne_nil : s.name ≠ [] :=
  List.append_ne_nil_of_right_ne_nil _ s.simple_ne_nil

theorem name_chars : ∀ c ∈ s.name, Unicode.isWord c = true ∨ c = '.' := by
  intro c hc
  rcases List.mem_append.mp hc with hc | hc
  · cases hpackage : s.package with
    | none =>
      rw [hpackage] at hc
      cases hc
    | some q =>
      rw [hpackage] at hc
      rcases List.mem_append.mp hc with hc | hc
      · exact s.package_chars q hpackage c hc
      · exact .inr (List.mem_singleton.mp hc)
  · exact .inl (s.simple_chars c hc)

theorem unqualified_name : Identifier.unqualified s.name = s.simple := by
  have hsimple : '.' ∉ s.simple := by
    intro hmem
    exact absurd (s.simple_chars '.' hmem) (by decide)
  unfold name
  cases s.package with
  | none => exact Identifier.unqualified_of_not_mem hsimple
  | some q =>
    rw [Option.map_some, Option.getD_some, List.append_assoc, List.singleton_append,
      Identifier.unqualified_append_dot, Identifier.unqualified_of_not_mem hsimple]

end Superclass

/-- The header of a class, up to the brace that opens its body. -/
structure ClassHeader where
  gap : List Char
  name : List Char
  parameters : Option TypeList
  superclass : Option Superclass
  gap' : List Char
  gap_ne_nil : gap ≠ []
  isBlank_gap : ∀ c ∈ gap, isBlank c = true
  name_ne_nil : name ≠ []
  name_chars : ∀ c ∈ name, Unicode.isWord c = true
  isBlank_gap' : ∀ c ∈ gap', isBlank c = true

namespace ClassHeader

variable (h : ClassHeader) (body : List Char)

/-- What stands behind the parameters. -/
def behind : List Char :=
  (h.superclass.map Superclass.text).getD [] ++ (h.gap' ++ '\x7b' :: body)

def text : List Char :=
  "class".toList ++ (h.gap ++ (h.name ++ (TypeList.textOf h.parameters ++ h.behind body)))

/-- A header whose parameters have no nested brackets and no braces, or that has no parameters. -/
def IsFlat : Prop :=
  ∀ p ∈ h.parameters, p.IsFlat

/-- The class that is extended, without its package. -/
def parentName : Option String :=
  h.superclass.map fun s => String.ofList s.simple

theorem endsName_brace : EndsName (h.gap' ++ '\x7b' :: body) :=
  .blank_append h.isBlank_gap' (endsName_cons (by decide) _)

theorem endsName_behind : EndsName (h.behind body) := by
  unfold behind
  cases h.superclass with
  | none => exact h.endsName_brace body
  | some s =>
    obtain ⟨b, gap, hgap⟩ := List.exists_cons_of_ne_nil s.gap_ne_nil
    rw [Option.map_some, Option.getD_some, Superclass.text, hgap]
    exact endsName_of_isBlank (s.isBlank_gap b (by rw [hgap]; exact List.mem_cons_self)) _

theorem afterArguments_behind : afterArguments (h.behind body) = h.behind body := by
  unfold behind
  cases h.superclass with
  | none =>
    rw [Option.map_none, Option.getD_none, List.nil_append]
    exact afterArguments_of_head h.isBlank_gap' (by rintro c ⟨⟩; decide)
  | some s =>
    rw [Option.map_some, Option.getD_some, Superclass.text, List.append_assoc]
    exact afterArguments_of_head s.isBlank_gap (by rintro c ⟨⟩; decide)

theorem parentAt_behind : parentAt (h.behind body) = h.superclass.map Superclass.name := by
  unfold behind
  cases h.superclass with
  | none =>
    rw [Option.map_none, Option.getD_none, List.nil_append]
    exact parentAt_of_head h.isBlank_gap' (by rintro c ⟨⟩; decide)
  | some s =>
    simp only [Option.map_some, Option.getD_some, Superclass.text, List.append_assoc]
    exact parentAt_extends s.isBlank_gap s.gap_ne_nil s.gap'_ne_nil s.isBlank_gap' s.name_ne_nil
      s.name_chars (TypeList.endsName_textOf _ (h.endsName_brace body))

theorem parentAt_of_isFlat (hflat : h.IsFlat) :
    parentAt (afterArguments (TypeList.textOf h.parameters ++ h.behind body)) =
      h.superclass.map Superclass.name := by
  cases hparameters : h.parameters with
  | none =>
    rw [TypeList.textOf, Option.map_none, Option.getD_none, List.nil_append, afterArguments_behind,
      parentAt_behind]
  | some p =>
    rw [TypeList.textOf, Option.map_some, Option.getD_some,
      (hflat p hparameters).afterArguments_append, parentAt_behind]

end ClassHeader

/-- A source in which the header of a class is the first declaration has the name of the class. If no
brackets are nested in its parameters, and no braces stand in them, the parent is the class that is
extended, without its package, and there is none if none is extended. Otherwise the parent is what is
read behind the first closing bracket of the parameters, whatever class is extended, and there is none
unless the word `extends` stands there. -/
theorem class_header_read (h : ClassHeader) (source : String) (pre body : List Char)
    (hcode : code source = pre ++ h.text body) (hpre : IsPreamble pre) :
    (outline source).name = some (String.ofList h.name) ∧
      (h.IsFlat → (outline source).parent = h.parentName) ∧
      ∀ p ∈ h.parameters, ¬p.IsFlat →
        (outline source).parent = p.parent.map (fun q => String.ofList (Identifier.unqualified q)) ∧
          (¬p.Extends → (outline source).parent = none) := by
  obtain ⟨hname, hparent⟩ := outline_eq hpre hcode h.gap_ne_nil h.isBlank_gap h.name_ne_nil h.name_chars
    fun c hc => (TypeList.endsName_textOf _ (h.endsName_behind body) c hc).1
  refine ⟨hname, fun hflat => ?_, fun p hp hnested => ?_⟩
  · rw [hparent, h.parentAt_of_isFlat body hflat, Option.map_map, ClassHeader.parentName]
    exact congrArg (Option.map · h.superclass) (funext fun s => by simp [s.unqualified_name])
  · rw [hparent, show h.parameters = some p from hp, TypeList.textOf, Option.map_some, Option.getD_some,
      TypeList.parentAt_append hnested]
    exact ⟨rfl, fun hextends => by rw [p.parent_eq_none hextends, Option.map_none]⟩

/-- The parent behind nested parameters is lost. -/
theorem parent_lost_behind_nested_parameters :
    (outline "public class A<T> extends b.Base<T> \x7b\n\x7d").parent = some "Base" ∧
      (outline "public class A<T extends C<T>> extends b.Base<T> \x7b\n\x7d").name = some "A" ∧
      (outline "public class A<T extends C<T>> extends b.Base<T> \x7b\n\x7d").parent = none := by
  let flat : TypeList := ⟨[], ['T'], by simp, .of_forall (by simp)⟩
  let nested : TypeList := ⟨[], "T extends C<T>".toList, by simp,
    (Angled.of_forall (s := "T extends C".toList) (by simp)).append (.nested (s := ['T']) flat.angled .nil)⟩
  let base : Superclass := ⟨[' '], [' '], some ['b'], "Base".toList, some flat, by simp, isBlank_space,
    by simp, isBlank_space, by rintro q ⟨⟩; exact List.forall_mem_singleton.mpr (.inl (by decide)),
    by simp, List.all_eq_true.mp (by decide)⟩
  let header (p : TypeList) : ClassHeader := ⟨[' '], ['A'], some p, some base, [' '], by simp,
    isBlank_space, by simp, List.forall_mem_singleton.mpr (by decide), isBlank_space⟩
  have hpre : IsPreamble "public ".toList := ⟨by decide, by decide +kernel⟩
  have hflat := class_header_read (header flat) "public class A<T> extends b.Base<T> \x7b\n\x7d"
    "public ".toList "\n\x7d".toList (code_of_not_mem (by decide)) hpre
  have hnested := class_header_read (header nested)
    "public class A<T extends C<T>> extends b.Base<T> \x7b\n\x7d" "public ".toList "\n\x7d".toList
    (code_of_not_mem (by decide)) hpre
  refine ⟨hflat.2.1 ?_, hnested.1, (hnested.2.2 nested rfl (by decide)).2 ?_⟩
  · rintro p ⟨⟩
    decide
  · rintro ⟨gap, r, -, hsplit⟩
    have hremaining : nested.remaining = ['>'] := by decide
    have hlength := congrArg List.length (hremaining.symm.trans hsplit)
    simp at hlength
    omega

end SchemaLint.ClassSource
