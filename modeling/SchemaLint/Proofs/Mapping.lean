import Mathlib.Data.List.Infix
import SchemaLint.Mapping
import SchemaLint.Proofs.Form.Sequence
import SchemaLint.Proofs.Schema.Merge
import SchemaLint.Proofs.Text
import SchemaLint.Proofs.Unicode.CodePoints

/-!
# Mapping documents read

A comment ends where it is closed, and nothing is left of it (`dropComments_comment`). A tag of a
binding holds its attributes (`prefers_binding`), each of which is found where it stands
(`occurrences_attributes`), so the tag stands for the field that its attributes tell
(`Binding.field?_inside`). The fields of a document of bindings and comments are those of its bindings,
the first one of each name (`fields_of_document`).
-/

namespace SchemaLint.Mapping

open Form Text

/-! ## Documents -/

/-- The attributes of a binding that are read. -/
inductive Key where
  | property
  | column
  | jdbcType
  deriving DecidableEq

namespace Key

def name : Key → String
  | property => "property"
  | column => "column"
  | jdbcType => "jdbcType"

end Key

/-- A value as it is written, in quotes of either kind. -/
structure Value where
  quote : Char
  quote_eq : quote = '"' ∨ quote = '\x27'
  text : List Char
  ne_nil : text ≠ []
  trimmed : Trimmed text
  chars : ∀ c ∈ text, c ≠ quote ∧ c ≠ '<' ∧ c ≠ '>'

/-- An attribute as it is written, with the blanks in front of it and around its sign. -/
structure Attribute where
  gap : List Char
  gap_ne_nil : gap ≠ []
  gap_isBlank : ∀ c ∈ gap, isBlank c = true
  key : Key
  beforeSign : List Char
  beforeSign_isBlank : ∀ c ∈ beforeSign, isBlank c = true
  afterSign : List Char
  afterSign_isBlank : ∀ c ∈ afterSign, isBlank c = true
  value : Value

def Value.written (v : Value) : List Char :=
  v.quote :: (v.text ++ [v.quote])

/-- An attribute from its name on. -/
def Attribute.core (a : Attribute) : List Char :=
  a.key.name.toList ++ (a.beforeSign ++ '=' :: (a.afterSign ++ a.value.written))

def Attribute.text (a : Attribute) : List Char :=
  a.gap ++ a.core

/-- A binding as it is written: a tag with at least one of a property and a column. -/
structure Binding where
  tag : String
  tag_eq : tag = "id" ∨ tag = "result"
  attributes : List Attribute
  nodup : (attributes.map (·.key)).Nodup
  named : ∃ a ∈ attributes, a.key = .property ∨ a.key = .column
  gap : List Char
  gap_isBlank : ∀ c ∈ gap, isBlank c = true

namespace Binding

variable (b : Binding)

/-- What stands in the tag after its name. -/
def inside : List Char :=
  b.attributes.flatMap Attribute.text ++ (b.gap ++ ['/'])

def text : List Char :=
  '<' :: (b.tag.toList ++ (b.inside ++ ['>']))

/-- The value that a binding gives for an attribute. -/
def value? (key : Key) : Option (List Char) :=
  (b.attributes.find? (·.key == key)).map (·.value.text)

/-- The field that a binding stands for. -/
def field : Field where
  name := String.ofList (((b.value? .property).or (b.value? .column)).getD [])
  type := ((b.value? .jdbcType).map String.ofList).getD "VARCHAR"

end Binding

/-- A piece of a document: a binding, a comment, or text without tags. -/
inductive Piece where
  | binding (b : Binding)
  | comment (body : List Char) (not_closed : ¬ "-->".toList <:+: body)
  | between (x : List Char) (no_tag : '<' ∉ x)

namespace Piece

def text : Piece → List Char
  | binding b => b.text
  | comment body _ => "<!--".toList ++ (body ++ "-->".toList)
  | between x _ => x

/-- What is left of a piece without comments. -/
def kept : Piece → List Char
  | binding b => b.text
  | comment _ _ => []
  | between x _ => x

def binding? : Piece → Option Binding
  | binding b => some b
  | comment _ _ => none
  | between _ _ => none

end Piece

/-! ## Comments -/

section Comments

variable {c : Char} {s x body : List Char}

/-- A comment that is not closed inside of its text is closed behind it. -/
theorem afterComment?_append (h : ¬ "-->".toList <:+: body) (s : List Char) :
    afterComment? (body ++ ("-->".toList ++ s)) = some s := by
  induction body with
  | nil => rfl
  | cons c body ih =>
    have hlater := ih fun hin => h (hin.trans (List.suffix_cons c body).isInfix)
    rw [List.cons_append, afterComment?]
    · exact hlater
    · rintro t rfl ht
      -- An end that begins in the text and is not all of it in the text would have to begin again.
      match body with
      | [] => cases ht
      | [d] => cases ht
      | d :: e :: body =>
        obtain ⟨rfl, hrest⟩ := List.cons.inj ht
        obtain ⟨rfl, -⟩ := List.cons.inj hrest
        exact h ⟨[], body, rfl⟩

theorem dropComments_append_left (x s : List Char) :
    dropComments x.length (x ++ s) = dropComments 0 s := by
  induction x with
  | nil => rfl
  | cons c x ih => exact ih

/-- Nothing is left of a comment. -/
theorem dropComments_comment (h : ¬ "-->".toList <:+: body) (s : List Char) :
    dropComments 0 ("<!--".toList ++ (body ++ "-->".toList) ++ s) = dropComments 0 s := by
  have hshape : "<!--".toList ++ (body ++ "-->".toList) ++ s =
      '<' :: '!' :: '-' :: '-' :: (body ++ ("-->".toList ++ s)) := by
    simp
  have hskip := dropComments_append_left ("!--".toList ++ (body ++ "-->".toList)) s
  have hbehind : "!--".toList ++ (body ++ "-->".toList) ++ s =
      '!' :: '-' :: '-' :: (body ++ ("-->".toList ++ s)) := by
    simp
  have hlength : ('!' :: '-' :: '-' :: (body ++ ("-->".toList ++ s))).length - s.length =
      ("!--".toList ++ (body ++ "-->".toList)).length := by
    rw [← hbehind, List.length_append, Nat.add_sub_cancel]
  rw [hshape, dropComments, afterComment?_append h]
  dsimp only
  rw [hlength, ← hbehind, hskip]

/-- A character that begins no comment is kept. -/
theorem dropComments_cons (h : c = '<' → ∀ d ∈ s.head?, d ≠ '!') :
    dropComments 0 (c :: s) = c :: dropComments 0 s := by
  rw [dropComments]
  rintro t rfl rfl
  exact h rfl '!' rfl rfl

theorem dropComments_append (h : '<' ∉ x) (s : List Char) :
    dropComments 0 (x ++ s) = x ++ dropComments 0 s := by
  induction x with
  | nil => rfl
  | cons c x ih =>
    rw [List.mem_cons, not_or] at h
    rw [List.cons_append, dropComments_cons fun hc => absurd hc.symm h.1, ih h.2, List.cons_append]

end Comments

/-! ## Attributes -/

section Attributes

variable {s r x : List Char}

theorem isWord_name (key : Key) : ∀ c ∈ key.name.toList, Unicode.isWord c = true := by
  have hall : key.name.toList.all Unicode.isWord = true := by cases key <;> decide +kernel
  exact List.all_eq_true.mp hall

theorem name_ne_nil (key : Key) : key.name.toList ≠ [] := by
  cases key <;> decide

theorem name_injective {key key' : Key} (h : key.name = key'.name) : key = key' := by
  cases key <;> cases key' <;> first | rfl | exact absurd h (by decide)

/-- Where no word begins, no attribute does. -/
theorem attributePair_eq_nil (h : ∀ c ∈ s.head?, Unicode.isWord c = false) : attributePair s = [] :=
  bind_eq_nil _ (append_eq_nil _ (char_eq_nil h))

theorem isBlank_quote (v : Value) : isBlank v.quote = false := by
  rcases v.quote_eq with h | h <;> rw [h] <;> decide

theorem prefers_quotedValue {quote : Char} (hx : ∀ c ∈ x, c ≠ quote) (r : List Char) :
    Prefers (quotedValue quote) (quote :: (x ++ quote :: r)) x r := by
  have hopen : Prefers (exact [quote]) (quote :: (x ++ quote :: r)) [quote] (x ++ quote :: r) :=
    Prefers.exact [quote] _
  have hvalue : Prefers (span (· != quote)) (x ++ quote :: r) x (quote :: r) :=
    (Only.span (fun c hc => bne_iff_ne.mpr (hx c hc)) (by rintro c ⟨⟩; simp)).prefers
  have hclose : Prefers (exact [quote]) (quote :: r) [quote] r := Prefers.exact [quote] r
  exact hopen.bind (hvalue.bind (hclose.bind rfl))

theorem prefers_value (v : Value) (r : List Char) :
    Prefers (oneOf [quotedValue '"', quotedValue '\x27']) (v.written ++ r) v.text r := by
  have hread := prefers_quotedValue (fun c hc => (v.chars c hc).1) r
  have hshape : v.written ++ r = v.quote :: (v.text ++ v.quote :: r) := by simp [Value.written]
  rw [hshape]
  rcases v.quote_eq with hquote | hquote <;> rw [hquote] at hread ⊢
  · exact Prefers.oneOf_cons hread
  · exact Prefers.oneOf_cons_of_nil rfl (Prefers.oneOf_cons hread)

theorem prefers_attribute (a : Attribute) (r : List Char) :
    Prefers attributePair (a.core ++ r) (a.key.name.toList, a.value.text) r := by
  have hshape : a.core ++ r = a.key.name.toList ++
      (a.beforeSign ++ '=' :: (a.afterSign ++ (a.value.written ++ r))) := by
    simp [Attribute.core]
  have hends : ∀ c ∈ (a.beforeSign ++ '=' :: (a.afterSign ++ (a.value.written ++ r))).head?,
      Unicode.isWord c = false := by
    cases hgap : a.beforeSign with
    | nil => rintro c ⟨⟩; decide +kernel
    | cons d gap =>
      rintro c ⟨⟩
      exact Unicode.isWord_of_isBlank (a.beforeSign_isBlank d (by simp [hgap]))
  have hquote : ∀ c ∈ (a.value.written ++ r).head?, isBlank c = false := by
    rintro c ⟨⟩
    exact isBlank_quote a.value
  have hname := (Only.span1 (name_ne_nil a.key) (isWord_name a.key) hends).prefers
  have hbefore := (Only.span (r := '=' :: (a.afterSign ++ (a.value.written ++ r)))
    a.beforeSign_isBlank (by rintro c ⟨⟩; decide)).prefers
  have hsign := Prefers.exact ['='] (a.afterSign ++ (a.value.written ++ r))
  have hafter := (Only.span a.afterSign_isBlank hquote).prefers
  have hpair : Prefers (pure (a.key.name.toList, trim a.value.text) : Form _) r
      (a.key.name.toList, a.value.text) r := by
    rw [a.value.trimmed.trim_eq]
    rfl
  rw [hshape]
  exact hname.bind (((hbefore.append hsign).append hafter).bind
    ((prefers_value a.value r).bind hpair))

/-- No attribute begins in blanks in front of an attribute. -/
theorem findAll_gap {gap : List Char} (hgap : ∀ c ∈ gap, isBlank c = true) (before : Option Char)
    (s : List Char) : findAll (fun _ => attributePair) 0 before (gap ++ s) =
      findAll (fun _ => attributePair) 0 (gap.getLast?.or before) s := by
  refine findAll_of_quiet ?_
  rintro y z rfl hz before
  obtain ⟨c, z, rfl⟩ := List.exists_cons_of_ne_nil hz
  refine attributePair_eq_nil ?_
  rintro d ⟨⟩
  exact Unicode.isWord_of_isBlank (hgap c (by simp))

/-- The attributes in a tag are found where they stand. -/
theorem findAll_attributes (as : List Attribute) {gap : List Char}
    (hgap : ∀ c ∈ gap, isBlank c = true) (before : Option Char) :
    findAll (fun _ => attributePair) 0 before (as.flatMap Attribute.text ++ (gap ++ ['/'])) =
      as.map fun a => (a.key.name.toList, a.value.text) := by
  induction as generalizing before with
  | nil =>
    have hslash : attributePair ['/'] = [] :=
      attributePair_eq_nil (by rintro c ⟨⟩; decide +kernel)
    rw [List.flatMap_nil, List.nil_append, findAll_gap hgap, findAll, hslash]
    rfl
  | cons a as ih =>
    have hne : a.core ≠ [] := List.append_ne_nil_of_left_ne_nil (name_ne_nil a.key) _
    rw [List.flatMap_cons, Attribute.text, List.append_assoc, List.append_assoc,
      findAll_gap a.gap_isBlank,
      findAll_of_prefers (h := fun _ => attributePair) hne (prefers_attribute a _), ih, List.map_cons]

theorem occurrences_inside (b : Binding) : occurrences (fun _ => attributePair) b.inside =
    b.attributes.map fun a => (a.key.name.toList, a.value.text) :=
  findAll_attributes b.attributes b.gap_isBlank none

end Attributes

/-! ## Bindings -/

/-- Where an element is alone in passing a test, it is found from either end. -/
theorem find?_reverse {α β : Type} [DecidableEq β] {key : α → β} {as : List α}
    (h : (as.map key).Nodup) (k : β) : as.reverse.find? (key · == k) = as.find? (key · == k) := by
  induction as with
  | nil => rfl
  | cons a as ih =>
    rw [List.map_cons, List.nodup_cons] at h
    rw [List.reverse_cons, List.find?_append, ih h.2, List.find?_cons]
    by_cases hk : key a = k
    · have hnone : as.find? (key · == k) = none := by
        rw [List.find?_eq_none]
        rintro a' ha' hkey
        rw [hk, ← beq_iff_eq.mp hkey] at h
        exact h.1 (List.mem_map_of_mem ha')
      simp [hnone, hk]
    · have hkey : (key a == k) = false := beq_false_of_ne hk
      simp [hkey]

namespace Binding

variable (b : Binding)

theorem value?_pairs (key : Key) :
    Mapping.value? (b.attributes.map fun a => (a.key.name.toList, a.value.text)) key.name =
      b.value? key := by
  have hkey : ∀ a : Attribute, (a.key.name.toList == key.name.toList) = (a.key == key) := by
    intro a
    rw [Bool.eq_iff_iff, beq_iff_eq, beq_iff_eq, String.toList_inj]
    exact ⟨name_injective, congrArg Key.name⟩
  rw [Mapping.value?, ← List.map_reverse, List.find?_map, Option.map_map]
  simp only [Function.comp_def, hkey]
  -- The last attribute of a name is the one that counts; here there is no other.
  rw [find?_reverse b.nodup]
  rfl

theorem ne_nil_of_value? {key : Key} {x : List Char} (h : b.value? key = some x) : x ≠ [] := by
  obtain ⟨a, -, rfl⟩ := Option.map_eq_some_iff.mp h
  exact a.value.ne_nil

theorem isSome_value? {a : Attribute} (ha : a ∈ b.attributes) : (b.value? a.key).isSome = true := by
  rw [value?, Option.isSome_map, List.find?_isSome]
  exact ⟨a, ha, beq_self_eq_true a.key⟩

theorem filter_value? (key : Key) : (b.value? key).filter (!·.isEmpty) = b.value? key := by
  cases h : b.value? key with
  | none => rfl
  | some x => simp [b.ne_nil_of_value? h]

/-- A binding has a name. -/
theorem exists_name : ∃ x, (b.value? .property).or (b.value? .column) = some x ∧ x ≠ [] := by
  have hsome : ((b.value? .property).or (b.value? .column)).isSome = true := by
    obtain ⟨a, ha, hkey⟩ := b.named
    have hvalue := b.isSome_value? ha
    rw [Option.isSome_or, Bool.or_eq_true]
    rcases hkey with hkey | hkey <;> rw [hkey] at hvalue
    · exact .inl hvalue
    · exact .inr hvalue
  obtain ⟨x, hx⟩ := Option.isSome_iff_exists.mp hsome
  refine ⟨x, hx, ?_⟩
  rcases Option.or_eq_some_iff.mp hx with hvalue | ⟨-, hvalue⟩
  · exact b.ne_nil_of_value? hvalue
  · exact b.ne_nil_of_value? hvalue

/-- A tag stands for the field that its attributes tell. -/
theorem field?_inside : field? b.inside = some b.field := by
  obtain ⟨x, hx, hne⟩ := b.exists_name
  have hproperty : Mapping.value? _ "property" = b.value? .property := b.value?_pairs .property
  have hcolumn : Mapping.value? _ "column" = b.value? .column := b.value?_pairs .column
  have htype : Mapping.value? _ "jdbcType" = b.value? .jdbcType := b.value?_pairs .jdbcType
  rw [field?, occurrences_inside, hproperty, hcolumn, htype, hx, filter_value?, field, hx]
  simp [hne, defaultType]

/-! ### The tag -/

theorem isBlank_or_slash : ∀ c ∈ b.inside.head?, isBlank c = true ∨ c = '/' := by
  rw [inside]
  cases b.attributes with
  | nil =>
    cases hgap : b.gap with
    | nil => rintro c ⟨⟩; exact .inr rfl
    | cons d gap => rintro c ⟨⟩; exact .inl (b.gap_isBlank d (by simp [hgap]))
  | cons a as =>
    obtain ⟨d, gap, hgap⟩ := List.exists_cons_of_ne_nil a.gap_ne_nil
    rw [List.flatMap_cons, Attribute.text, hgap]
    rintro c ⟨⟩
    exact .inl (a.gap_isBlank d (by simp [hgap]))

/-- No tag begins or ends between the name of a tag and its end. -/
theorem forall_mem_inside : ∀ c ∈ b.inside, c ≠ '<' ∧ c ≠ '>' := by
  have hblank : ∀ c, isBlank c = true → c ≠ '<' ∧ c ≠ '>' := by
    rintro c hc
    constructor <;> (rintro rfl; exact absurd hc (by decide))
  have hname : ∀ key : Key, ∀ c ∈ key.name.toList, c ≠ '<' ∧ c ≠ '>' := by
    intro key c hc
    constructor <;> (rintro rfl; exact absurd (isWord_name key _ hc) (by decide +kernel))
  have hquote : ∀ v : Value, v.quote ≠ '<' ∧ v.quote ≠ '>' := by
    intro v
    rcases v.quote_eq with h | h <;> rw [h] <;> decide
  intro c hc
  simp only [inside, Attribute.text, Attribute.core, Value.written, List.mem_append, List.mem_flatMap,
    List.mem_cons, List.not_mem_nil, or_false] at hc
  rcases hc with ⟨a, -, hgap | hkey | hbefore | rfl | hafter | rfl | hvalue | rfl⟩ | hgap | rfl
  · exact hblank c (a.gap_isBlank c hgap)
  · exact hname a.key c hkey
  · exact hblank c (a.beforeSign_isBlank c hbefore)
  · decide
  · exact hblank c (a.afterSign_isBlank c hafter)
  · exact hquote a.value
  · exact (a.value.chars c hvalue).2
  · exact hquote a.value
  · exact hblank c (b.gap_isBlank c hgap)
  · decide

theorem forall_mem_tag : ∀ c ∈ b.tag.toList, c ≠ '<' ∧ c ≠ '!' := by
  have hall : b.tag.toList.all (fun c => c != '<' && c != '!') = true := by
    rcases b.tag_eq with h | h <;> rw [h] <;> decide
  simpa using hall

theorem tag_ne_nil : b.tag.toList ≠ [] := by
  rcases b.tag_eq with h | h <;> rw [h] <;> decide

theorem prefers_tag (r : List Char) :
    Prefers (exact ['<'] ++ oneOf [exact "id".toList, exact "result".toList])
      ('<' :: (b.tag.toList ++ r)) ('<' :: b.tag.toList) r := by
  have hopen : Prefers (exact ['<']) ('<' :: (b.tag.toList ++ r)) ['<'] (b.tag.toList ++ r) :=
    Prefers.exact ['<'] _
  refine hopen.append (y := b.tag.toList) ?_
  rcases b.tag_eq with htag | htag <;> rw [htag]
  · exact Prefers.oneOf_cons (Prefers.exact "id".toList r)
  · exact Prefers.oneOf_cons_of_nil rfl (Prefers.oneOf_cons (Prefers.exact "result".toList r))

/-- The tag of a binding is read as a whole. -/
theorem prefers_binding (r : List Char) : Prefers binding (b.text ++ r) b.inside r := by
  have hshape : b.text ++ r = '<' :: (b.tag.toList ++ (b.inside ++ '>' :: r)) := by simp [text]
  have hahead : Prefers (ahead (!Unicode.isWord ·)) (b.inside ++ '>' :: r) () (b.inside ++ '>' :: r) := by
    have hedge : ∀ c ∈ (b.inside ++ '>' :: r).head?, Unicode.isWord c = false := by
      have hne : b.inside ≠ [] := by simp [inside]
      intro c hc
      rw [List.head?_append_of_ne_nil _ hne] at hc
      rcases b.isBlank_or_slash c hc with hblank | rfl
      · exact Unicode.isWord_of_isBlank hblank
      · decide +kernel
    rw [Prefers, ahead, if_pos]
    · rfl
    · cases hhead : (b.inside ++ '>' :: r).head? with
      | none => rfl
      | some c => simp [hedge c hhead]
  have hinside : Prefers (span (· != '>')) (b.inside ++ '>' :: r) b.inside ('>' :: r) :=
    (Only.span (fun c hc => bne_iff_ne.mpr (b.forall_mem_inside c hc).2)
      (by rintro c ⟨⟩; decide)).prefers
  have hclose : Prefers (exact ['>']) ('>' :: r) ['>'] r := Prefers.exact ['>'] r
  rw [hshape]
  exact (b.prefers_tag _).bind (hahead.bind (hinside.bind (hclose.bind rfl)))

end Binding

/-! ## Documents read -/

theorem binding_eq_nil {s : List Char} (h : ∀ c ∈ s.head?, c ≠ '<') : binding s = [] :=
  bind_eq_nil _ (append_eq_nil _ (exact_eq_nil h))

/-- Without its comments a document has the pieces that are none. -/
theorem dropComments_flatMap (ps : List Piece) :
    dropComments 0 (ps.flatMap Piece.text) = ps.flatMap Piece.kept := by
  induction ps with
  | nil => rfl
  | cons p ps ih =>
    rw [List.flatMap_cons, List.flatMap_cons]
    cases p with
    | binding b =>
      rw [Piece.text, Piece.kept, Binding.text, List.cons_append, List.cons_append, dropComments_cons,
        dropComments_append, ih]
      · intro hmem
        simp only [List.mem_append, List.mem_singleton] at hmem
        rcases hmem with htag | hinside | hclose
        · exact (b.forall_mem_tag _ htag).1 rfl
        · exact (b.forall_mem_inside _ hinside).1 rfl
        · exact absurd hclose (by decide)
      · intro _ c hc
        rw [List.append_assoc, List.head?_append_of_ne_nil _ b.tag_ne_nil] at hc
        exact (b.forall_mem_tag c (List.mem_of_head? hc)).2
    | comment body hclosed => exact (dropComments_comment hclosed _).trans ih
    | between x hx => rw [Piece.text, dropComments_append hx, ih, Piece.kept]

/-- The bindings of a document are found where they stand. -/
theorem findAll_kept (ps : List Piece) (before : Option Char) :
    findAll (fun _ => binding) 0 before (ps.flatMap Piece.kept) =
      (ps.filterMap Piece.binding?).map Binding.inside := by
  induction ps generalizing before with
  | nil => rfl
  | cons p ps ih =>
    rw [List.flatMap_cons]
    cases p with
    | binding b =>
      have hne : b.text ≠ [] := List.cons_ne_nil _ _
      rw [Piece.kept, findAll_of_prefers (h := fun _ => binding) hne (b.prefers_binding _), ih]
      rfl
    | comment body _ => exact ih before
    | between x hx =>
      have hquiet : ∀ y z, x = y ++ z → z ≠ [] → ∀ before : Option Char,
          (fun _ : Option Char => binding) before (z ++ ps.flatMap Piece.kept) = [] := by
        rintro y z rfl hz -
        refine binding_eq_nil fun c hc => ?_
        rw [List.head?_append_of_ne_nil _ hz] at hc
        rintro rfl
        exact hx (List.mem_append_right y (List.mem_of_head? hc))
      rw [Piece.kept, findAll_of_quiet hquiet, ih]
      rfl

/-- The fields of a document of bindings and comments are the first ones of each name among those of
its bindings. -/
theorem fields_of_document (ps : List Piece) :
    fields (String.ofList (ps.flatMap Piece.text)) =
      ((ps.filterMap Piece.binding?).map Binding.field).eraseDupsBy fun f g => f.name == g.name := by
  have hfields : ((ps.filterMap Piece.binding?).map Binding.inside).filterMap field? =
      (ps.filterMap Piece.binding?).map Binding.field := by
    rw [List.filterMap_map]
    simp only [Function.comp_def, Binding.field?_inside]
    exact congrFun List.filterMap_eq_map _
  rw [fields, String.toList_ofList, dropComments_flatMap, occurrences, findAll_kept, hfields]
  refine Field.merge_eq_eraseDupsBy fun f hf => ?_
  obtain ⟨b, -, rfl⟩ := List.mem_map.mp hf
  obtain ⟨x, hx, hne⟩ := b.exists_name
  intro hname
  rw [Binding.field, hx] at hname
  exact hne (String.ofList_eq_empty_iff.mp hname)

/-- A binding in a comment stands for no field, and the second one of a name for none. -/
theorem fields_of_small_map :
    fields "<id column='key' property='id' jdbcType='BIGINT'/><!--<id column='x'/>-->
<result column='note' /><result column='id' />" =
      [{ name := "id", type := "BIGINT" }, { name := "note", type := "VARCHAR" }] := by
  let quoted (key : Key) (text : List Char) (hne : text ≠ []) (htrimmed : Trimmed text)
      (hchars : text.all (fun c => c != '\x27' && c != '<' && c != '>') = true) : Attribute :=
    { gap := [' '], gap_ne_nil := by decide, gap_isBlank := isBlank_space, key := key
      beforeSign := [], beforeSign_isBlank := isBlank_nil
      afterSign := [], afterSign_isBlank := isBlank_nil
      value := ⟨'\x27', .inr rfl, text, hne, htrimmed, by simpa [and_assoc] using hchars⟩ }
  let typed : Binding :=
    { tag := "id", tag_eq := .inl rfl
      attributes := [quoted .column "key".toList (by decide) (by decide) (by decide),
        quoted .property "id".toList (by decide) (by decide) (by decide),
        quoted .jdbcType "BIGINT".toList (by decide) (by decide) (by decide)]
      nodup := by decide, named := ⟨_, List.mem_cons_self, .inr rfl⟩
      gap := [], gap_isBlank := isBlank_nil }
  let untyped (column : Attribute) (h : column.key = .column) : Binding :=
    { tag := "result", tag_eq := .inr rfl
      attributes := [column]
      nodup := List.nodup_singleton _, named := ⟨column, List.mem_singleton_self _, .inr h⟩
      gap := [' '], gap_isBlank := isBlank_space }
  have hread := fields_of_document [.binding typed, .comment "<id column='x'/>".toList (by decide),
    .between ['\n'] (by decide),
    .binding (untyped (quoted .column "note".toList (by decide) (by decide) (by decide)) rfl),
    .binding (untyped (quoted .column "id".toList (by decide) (by decide) (by decide)) rfl)]
  refine (congrArg fields ?_).trans (hread.trans ?_) <;> decide +kernel

end SchemaLint.Mapping
