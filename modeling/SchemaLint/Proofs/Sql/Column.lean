import SchemaLint.Proofs.Shell.Document
import SchemaLint.Proofs.Sql.Name
import SchemaLint.Proofs.Sql.Token

/-!
# Columns with qualifiers and backquotes

A column (`Reference`) is written as segments with dots between them, each in backquotes or not. The
form of names prefers to read all of it, and each of its other ways stops in front of a dot or of a
backquote (`Reference.name_ways`). So a form that goes on behind a name with something else reads the
whole column or does not fit. The column is called by its last segment (`Reference.fieldName_text`).
-/

namespace SchemaLint.Sql

open Form Nesting Text

/-! ## Segments -/

/-- A part of a name between dots, as it is written. -/
structure Segment where
  chars : List Char
  backquoted : Bool
  ne_nil : chars ≠ []
  isNameChar : ∀ c ∈ chars, isNameChar c = true

/-- A text that begins with a dot or a backquote. -/
def Unfinished (r : List Char) : Prop :=
  ∃ c ∈ r.head?, c = '.' ∨ c = '\x60'

namespace Segment

variable (g : Segment) {t : List Char}

def text : List Char :=
  if g.backquoted then '\x60' :: (g.chars ++ ['\x60']) else g.chars

theorem ne_tick_of_mem : ∀ c ∈ g.chars, c ≠ '\x60' := by
  rintro c hc rfl
  exact absurd (g.isNameChar _ hc) (by decide)

theorem mem_text {c : Char} (hc : c ∈ g.text) : c = '\x60' ∨ Sql.isNameChar c = true := by
  unfold text at hc
  split at hc
  · simp only [List.mem_cons, List.mem_append, List.not_mem_nil, or_false] at hc
    rcases hc with rfl | hc | rfl
    · exact .inl rfl
    · exact .inr (g.isNameChar c hc)
    · exact .inl rfl
  · exact .inr (g.isNameChar c hc)

theorem text_ne_nil : g.text ≠ [] := by
  unfold text
  split
  · exact List.cons_ne_nil _ _
  · exact g.ne_nil

theorem not_blank_of_mem : ∀ c ∈ g.text, isBlank c = false := by
  intro c hc
  rw [← Bool.not_eq_true]
  intro hblank
  rcases g.mem_text hc with rfl | hname
  · exact absurd hblank (by decide)
  · rw [isNameChar_of_isBlank hblank] at hname
    cases hname

theorem ne_dot_of_mem : ∀ c ∈ g.text, c ≠ '.' := by
  rintro c hc rfl
  rcases g.mem_text hc with h | h <;> exact absurd h (by decide)

theorem ne_dot_of_mem_chars : ∀ c ∈ g.chars, c ≠ '.' := by
  rintro c hc rfl
  exact absurd (g.isNameChar _ hc) (by decide)

theorem balanced : Balanced g.text := by
  unfold text
  split
  · refine .of_staysQuoted rfl (Shell.escaped_of_plain fun c hc => ⟨g.ne_tick_of_mem c hc, ?_⟩).staysQuoted
    rintro rfl
    exact absurd (g.isNameChar _ hc) (by decide)
  · exact .of_plain fun c hc => isPlain_of_isNameChar (g.isNameChar c hc)

theorem head?_append (s : List Char) : ∀ c ∈ (g.text ++ s).head?, isBlank c = false := by
  intro c hc
  rw [List.head?_append_of_ne_nil _ g.text_ne_nil] at hc
  exact g.not_blank_of_mem c (List.mem_of_head? hc)

/-- A segment is read as a whole, or without the backquote behind it. -/
theorem segment_text (ht : EndsName t) : ∃ ways, segment (g.text ++ t) = (g.text, t) :: ways ∧
    ∀ w ∈ ways, w.2 = '\x60' :: t := by
  have htick : tick t = [] := char_eq_nil fun c hc => beq_eq_false_iff_ne.mpr (ht c hc).2
  have hopen : ∀ s, tick (g.chars ++ s) = [] := fun s => by
    refine char_eq_nil fun c hc => beq_eq_false_iff_ne.mpr ?_
    rw [List.head?_append_of_ne_nil _ g.ne_nil] at hc
    exact g.ne_tick_of_mem c (List.mem_of_head? hc)
  unfold text
  split
  · have hspan : Only (span1 Sql.isNameChar) (g.chars ++ '\x60' :: t) g.chars ('\x60' :: t) :=
      .span1 g.ne_nil g.isNameChar (by rintro c ⟨⟩; decide)
    have hspan' : span1 Sql.isNameChar ('\x60' :: (g.chars ++ '\x60' :: t)) = [] :=
      append_eq_nil _ (char_eq_nil (by rintro c ⟨⟩; decide))
    have hshape : '\x60' :: (g.chars ++ ['\x60']) ++ t = '\x60' :: (g.chars ++ '\x60' :: t) := by
      simp
    have hopen' : opt tick ('\x60' :: (g.chars ++ '\x60' :: t)) =
        [(['\x60'], g.chars ++ '\x60' :: t), ([], '\x60' :: (g.chars ++ '\x60' :: t))] := rfl
    have hclose : opt tick ('\x60' :: t) = [(['\x60'], t), ([], '\x60' :: t)] := rfl
    refine ⟨[('\x60' :: g.chars, '\x60' :: t)], ?_, by rintro w hw; rw [List.mem_singleton.mp hw]⟩
    rw [hshape, segment, append_assoc, append_apply, hopen', List.flatMap_cons, List.flatMap_cons,
      append_apply, hspan, append_eq_nil _ hspan', List.flatMap_cons, hclose]
    simp
  · have hspan : Only (span1 Sql.isNameChar) (g.chars ++ t) g.chars t :=
      .span1 g.ne_nil g.isNameChar fun c hc => (ht c hc).1
    have hread := ((Only.opt_nil (hopen t)).append hspan).append (Only.opt_nil htick)
    rw [List.nil_append, List.append_nil] at hread
    exact ⟨[], hread, by simp⟩

theorem unquote_text : Identifier.unquote g.text = g.chars := by
  unfold text
  split
  · exact Shell.unquote_quoted rfl _
  · obtain ⟨c, x, hcons⟩ := List.exists_cons_of_ne_nil g.ne_nil
    have hblank : ∀ c ∈ g.chars, isBlank c = false := by
      intro c hc
      rw [← Bool.not_eq_true]
      intro hblank
      have := isNameChar_of_isBlank hblank
      rw [g.isNameChar c hc] at this
      cases this
    have htrimmed : Trimmed g.chars :=
      ⟨fun c hc => hblank c (List.mem_of_head? hc), fun c hc => hblank c (List.mem_of_getLast? hc)⟩
    have hplain := isPlain_of_isNameChar (g.isNameChar c (by rw [hcons]; exact List.mem_cons_self))
    have hquote : isQuote c = false := by
      simp only [isPlain, Bool.and_eq_true, Bool.not_eq_true'] at hplain
      exact hplain.1.1
    unfold Identifier.unquote
    rw [htrimmed.trim_eq, hcons]
    simp [hquote]

end Segment

/-! ## Columns -/

/-- A column as it is written. -/
structure Reference where
  first : Segment
  /-- The segments that have a dot in front of them. -/
  later : List Segment

/-- Segments with a dot in front of each. -/
def dotted (gs : List Segment) : List Char :=
  gs.flatMap fun g => '.' :: g.text

theorem endsName_dotted (gs : List Segment) {t : List Char} (ht : EndsName t) :
    EndsName (dotted gs ++ t) := by
  cases gs with
  | nil => exact ht
  | cons g gs =>
    rintro c ⟨⟩
    decide

theorem length_le_dotted (gs : List Segment) : gs.length ≤ (dotted gs).length := by
  induction gs with
  | nil => exact Nat.le_refl 0
  | cons g gs ih =>
    rw [dotted, List.flatMap_cons, ← dotted, List.length_append, List.length_cons, List.length_cons]
    omega

theorem dot_eq_nil_tick (t : List Char) : dot ('\x60' :: t) = [] :=
  dot_gap_eq_nil isBlank_nil (by rintro c ⟨⟩; decide)

theorem only_dot {r : List Char} (hr : ∀ c ∈ r.head?, isBlank c = false) :
    Only dot ('.' :: r) ['.'] r :=
  have hbefore : Only blanks ('.' :: r) [] ('.' :: r) := .blanks_nil (by rintro c ⟨⟩; decide)
  have hexact : Only (exact ['.']) ('.' :: r) ['.'] r := rfl
  (hbefore.append hexact).append (.blanks_nil hr)

theorem unfinished_tick (t : List Char) : Unfinished ('\x60' :: t) :=
  ⟨'\x60', rfl, .inr rfl⟩

/-- Where no dot can be read, a repetition of dotted segments reads nothing. -/
theorem upTo_of_dot_eq_nil {r : List Char} (hr : dot r = []) (n : Nat) :
    upTo (dot ++ segment) n r = [([], r)] := by
  cases n with
  | zero => rfl
  | succ n => rw [upTo, append_eq_nil _ hr, List.flatMap_nil, List.nil_append]

/-- Dotted segments are read as a whole, or up to a dot or a backquote. -/
theorem upTo_dotted (gs : List Segment) {t : List Char} (ht : EndsName t) (hdot : dot t = []) {n : Nat}
    (hn : gs.length ≤ n) : ∃ ways, upTo (dot ++ segment) n (dotted gs ++ t) = (dotted gs, t) :: ways ∧
      ∀ w ∈ ways, Unfinished w.2 := by
  induction gs generalizing n with
  | nil => exact ⟨[], upTo_of_dot_eq_nil hdot n, by simp⟩
  | cons g gs ih =>
    obtain ⟨n, rfl⟩ : ∃ m, n = m + 1 := ⟨n - 1, by simp only [List.length_cons] at hn; omega⟩
    obtain ⟨later, hlater, hunfinished⟩ := ih (Nat.le_of_succ_le_succ hn)
    obtain ⟨ways, hsegment, hways⟩ := g.segment_text (endsName_dotted gs ht)
    have hshape : dotted (g :: gs) ++ t = '.' :: (g.text ++ (dotted gs ++ t)) := by
      simp [dotted]
    have hread : (dot ++ segment) ('.' :: (g.text ++ (dotted gs ++ t))) =
        ('.' :: g.text, dotted gs ++ t) :: ways.map fun w => ('.' :: w.1, w.2) := by
      rw [append_apply, only_dot (g.head?_append _), List.flatMap_singleton, hsegment]
      rfl
    -- The other ways of the segment stop in front of its backquote, and no dot follows there.
    have hcut : ∀ w ∈ ways, upTo (dot ++ segment) n w.2 = [([], w.2)] ∧ Unfinished w.2 := by
      intro w hw
      rw [hways w hw]
      exact ⟨upTo_of_dot_eq_nil (dot_eq_nil_tick _) n, unfinished_tick _⟩
    have hstep : upTo (dot ++ segment) (n + 1) ('.' :: (g.text ++ (dotted gs ++ t))) =
        (dot ++ segment ++ upTo (dot ++ segment) n) ('.' :: (g.text ++ (dotted gs ++ t))) ++
          [([], '.' :: (g.text ++ (dotted gs ++ t)))] := rfl
    rw [hshape, hstep, append_apply, hread, List.flatMap_cons, hlater, List.map_cons,
      List.cons_append, List.cons_append]
    refine ⟨_, rfl, fun w hw => ?_⟩
    simp only [List.mem_append, List.mem_map, List.mem_flatMap, List.mem_singleton] at hw
    rcases hw with (⟨v, hv, rfl⟩ | ⟨_, ⟨u, hu, rfl⟩, v, hv, rfl⟩) | rfl
    · exact hunfinished v hv
    · obtain ⟨hstop, hunfinished⟩ := hcut u hu
      rw [hstop, List.mem_singleton] at hv
      rw [hv]
      exact hunfinished
    · exact ⟨'.', rfl, .inl rfl⟩

theorem segments_dotted {x : List Char} {xs : List (List Char)} (hx : ∀ c ∈ x, c ≠ '.')
    (hxs : ∀ y ∈ xs, ∀ c ∈ y, c ≠ '.') :
    Identifier.segments (x ++ xs.flatMap ('.' :: ·)) = x :: xs := by
  induction xs generalizing x with
  | nil =>
    rw [List.flatMap_nil, List.append_nil]
    exact segments_of_ne_dot hx
  | cons y xs ih =>
    have hlater := ih (hxs y List.mem_cons_self) fun z hz => hxs z (List.mem_cons_of_mem y hz)
    have hfirst := segments_of_ne_dot hx
    unfold Identifier.segments at hlater hfirst ⊢
    rw [List.flatMap_cons, List.cons_append, pieces_append_sep rfl, hlater, hfirst]
    rfl

theorem intercalate_dotted (x : List Char) (xs : List (List Char)) :
    ['.'].intercalate (x :: xs) = x ++ xs.flatMap ('.' :: ·) := by
  induction xs generalizing x with
  | nil => simp
  | cons y xs ih => rw [List.intercalate_cons_cons, ih, List.flatMap_cons, List.append_assoc]; rfl

namespace Reference

variable (c : Reference) {t : List Char}

def text : List Char :=
  c.first.text ++ dotted c.later

/-- The segment that the column is called by. -/
def last : Segment :=
  c.later.getLast?.getD c.first

/-- A column is read as a whole, or up to a dot or a backquote. -/
theorem name_ways (ht : EndsName t) (hdot : dot t = []) :
    ∃ ways, name (c.text ++ t) = (c.text, t) :: ways ∧ ∀ w ∈ ways, Unfinished w.2 := by
  have hlength : c.later.length ≤ (dotted c.later ++ t).length := by
    rw [List.length_append]
    exact Nat.le_add_right_of_le (length_le_dotted c.later)
  obtain ⟨later, hlater, hunfinished⟩ := upTo_dotted c.later ht hdot hlength
  obtain ⟨ways, hsegment, hways⟩ := c.first.segment_text (endsName_dotted c.later ht)
  have hcut : ∀ w ∈ ways, Form.star (dot ++ segment) w.2 = [([], w.2)] ∧ Unfinished w.2 := by
    intro w hw
    rw [hways w hw]
    exact ⟨upTo_of_dot_eq_nil (dot_eq_nil_tick _) _, unfinished_tick _⟩
  rw [text, List.append_assoc, name, append_apply, hsegment, List.flatMap_cons, Form.star, hlater,
    List.map_cons, List.cons_append]
  refine ⟨_, rfl, fun w hw => ?_⟩
  simp only [List.mem_append, List.mem_map, List.mem_flatMap] at hw
  rcases hw with ⟨v, hv, rfl⟩ | ⟨u, hu, v, hv, rfl⟩
  · exact hunfinished v hv
  · obtain ⟨hstop, hunfinished⟩ := hcut u hu
    rw [hstop, List.mem_singleton] at hv
    rw [hv]
    exact hunfinished

theorem prefers_name (ht : EndsName t) (hdot : dot t = []) : Prefers name (c.text ++ t) c.text t := by
  obtain ⟨ways, hname, -⟩ := c.name_ways ht hdot
  rw [Prefers, hname, List.head?_cons]

/-- A form that asks for a name and then for what is no dot and no backquote reads the whole
column. -/
theorem name_bind_eq_nil {α : Type} {k : List Char → Form α} (ht : EndsName t) (hdot : dot t = [])
    (hk : k c.text t = []) (hunfinished : ∀ x r, Unfinished r → k x r = []) :
    (name >>= k) (c.text ++ t) = [] := by
  obtain ⟨ways, hname, hways⟩ := c.name_ways ht hdot
  rw [bind_apply, hname, List.flatMap_cons, hk, List.nil_append, List.flatMap_eq_nil_iff]
  exact fun w hw => hunfinished w.1 w.2 (hways w hw)

theorem mem_text {d : Char} (hd : d ∈ c.text) : d = '.' ∨ d = '\x60' ∨ Sql.isNameChar d = true := by
  rcases List.mem_append.mp hd with hd | hd
  · exact .inr (c.first.mem_text hd)
  · obtain ⟨g, -, hd⟩ := List.mem_flatMap.mp hd
    rcases List.mem_cons.mp hd with rfl | hd
    · exact .inl rfl
    · exact .inr (g.mem_text hd)

theorem not_blank_of_mem : ∀ d ∈ c.text, isBlank d = false := by
  intro d hd
  rcases c.mem_text hd with rfl | rfl | hname
  · decide
  · decide
  · rw [← Bool.not_eq_true]
    intro hblank
    rw [isNameChar_of_isBlank hblank] at hname
    cases hname

theorem text_ne_nil : c.text ≠ [] :=
  List.append_ne_nil_of_left_ne_nil c.first.text_ne_nil _

theorem trimmed : Trimmed c.text :=
  ⟨fun d hd => c.not_blank_of_mem d (List.mem_of_head? hd),
    fun d hd => c.not_blank_of_mem d (List.mem_of_getLast? hd)⟩

theorem balanced : Balanced c.text := by
  refine c.first.balanced.append ?_
  unfold dotted
  induction c.later with
  | nil => exact .nil
  | cons g gs ih =>
    rw [List.flatMap_cons]
    exact (Balanced.cons (by decide) g.balanced).append ih

theorem hides {sep : Char} (hname : Sql.isNameChar sep = false) (hne : sep ≠ '.' ∧ sep ≠ '\x60') :
    Hides (· == sep) c.text := by
  refine .of_forall fun d hd => beq_eq_false_iff_ne.mpr ?_
  rintro rfl
  rcases c.mem_text hd with hdot | htick | hchar
  · exact hne.1 hdot
  · exact hne.2 htick
  · rw [hname] at hchar
    cases hchar

theorem isItem : Shell.IsItem c.text :=
  ⟨c.balanced, c.hides (by decide) (by decide), c.trimmed, c.text_ne_nil⟩

/-- A column with a value that is written to it. -/
def set (sp : Shell.Spacing) (v : List Char) : List Char :=
  c.text ++ sp.before ++ '=' :: (sp.after ++ v)

theorem isItem_set (sp : Shell.Spacing) {v : List Char} (hv : Shell.IsItem v) :
    Shell.IsItem (c.set sp v) :=
  Shell.isItem_pair sp (by decide) (by decide) c.isItem hv

/-- A column is called by its last segment. -/
theorem fieldName_text : fieldName c.text = String.ofList c.last.chars := by
  have hwords : (words c.text).flatten = c.text := by
    rw [flatten_words, List.filter_eq_self]
    exact fun d hd => by rw [c.not_blank_of_mem d hd, Bool.not_false]
  have hsegments : Identifier.segments c.text = c.first.text :: c.later.map Segment.text := by
    have hdotted : dotted c.later = (c.later.map Segment.text).flatMap ('.' :: ·) := by
      rw [List.flatMap_map, dotted]
    rw [text, hdotted]
    refine segments_dotted c.first.ne_dot_of_mem fun x hx => ?_
    obtain ⟨g, -, rfl⟩ := List.mem_map.mp hx
    exact g.ne_dot_of_mem
  have hunquote : (c.first.text :: c.later.map Segment.text).map Identifier.unquote =
      c.first.chars :: c.later.map Segment.chars := by
    rw [List.map_cons, c.first.unquote_text, List.map_map]
    exact congrArg _ (List.map_congr_left fun g _ => g.unquote_text)
  have hnames : Identifier.segments (Identifier.normalize c.text) =
      c.first.chars :: c.later.map Segment.chars := by
    rw [Identifier.normalize, hsegments, hunquote, intercalate_dotted]
    refine segments_dotted c.first.ne_dot_of_mem_chars fun x hx => ?_
    obtain ⟨g, -, rfl⟩ := List.mem_map.mp hx
    exact g.ne_dot_of_mem_chars
  rw [fieldName, hwords, Identifier.unqualified, hnames, last, List.getLast?_cons, List.getLast?_map]
  cases c.later.getLast? <;> rfl

end Reference

end SchemaLint.Sql
