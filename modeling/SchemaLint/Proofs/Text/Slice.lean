import SchemaLint.Proofs.Keyword

/-!
# Slices of a text

A slice of a text is given by two byte offsets. There is none (`slice?_eq_none_iff`) when the first
offset is behind the second, when the second is behind the end of the text, or when one of them is
inside of a character that takes several bytes. Otherwise the text is what is in front of the slice, the
slice, and what is behind it (`slice?_eq_some_iff`).

A byte of a text may be looked at without regard to characters. The byte in front of an offset and the
byte at it tell whether the character there continues an identifier (`isWordByte_before`,
`isWordByte_after`), since a character that takes several bytes has no byte of an ASCII character.
-/

namespace SchemaLint.Text

/-- A text cut at a byte offset. There is no cut behind its end and none inside of a character. -/
def cutAtByte? : Nat → List Char → Option (List Char × List Char)
  | 0, s => some ([], s)
  | _ + 1, [] => none
  | k + 1, c :: s =>
    if c.utf8Size ≤ k + 1 then (cutAtByte? (k + 1 - c.utf8Size) s).map fun (x, y) => (c :: x, y)
    else none

/-- The text between two byte offsets. -/
def slice? (s : List Char) (i j : Nat) : Option (List Char) := do
  let (front, _) ← cutAtByte? j s
  let (_, slice) ← cutAtByte? i front
  return slice

/-- An offset inside of a character. -/
def InsideChar (s : List Char) (k : Nat) : Prop :=
  ∃ x c y, s = x ++ c :: y ∧ utf8Length x < k ∧ k < utf8Length x + c.utf8Size

/-- The bytes of a text in UTF-8. -/
def bytes (s : List Char) : List UInt8 :=
  s.flatMap String.utf8EncodeChar

/-- Tells whether a byte is an ASCII character that continues an identifier. -/
def isWordByte (b : UInt8) : Bool :=
  isIdentChar (Char.ofNat b.toNat)

section Cut

variable {s t x y : List Char} {i j k : Nat}

theorem cutAtByte?_append (x y : List Char) : cutAtByte? (utf8Length x) (x ++ y) = some (x, y) := by
  induction x with
  | nil => simp [utf8Length, cutAtByte?]
  | cons c x ih =>
    obtain ⟨k, hk⟩ := Nat.exists_eq_add_one_of_ne_zero
      (Nat.ne_of_gt (Nat.add_pos_left c.utf8Size_pos (utf8Length x)))
    have hle : c.utf8Size ≤ k + 1 := by omega
    have hrest : k + 1 - c.utf8Size = utf8Length x := by omega
    rw [utf8Length, hk, List.cons_append, cutAtByte?, if_pos hle, hrest, ih]
    rfl

theorem cutAtByte?_eq_some_iff : cutAtByte? k s = some (x, y) ↔ s = x ++ y ∧ utf8Length x = k := by
  constructor
  · intro h
    induction s generalizing k x with
    | nil =>
      cases k with
      | zero =>
        obtain ⟨rfl, rfl⟩ := Prod.mk.inj (Option.some.inj h)
        exact ⟨rfl, rfl⟩
      | succ k => cases h
    | cons c s ih =>
      cases k with
      | zero =>
        obtain ⟨rfl, rfl⟩ := Prod.mk.inj (Option.some.inj h)
        exact ⟨rfl, rfl⟩
      | succ k =>
        rw [cutAtByte?] at h
        split at h
        · next hle =>
          obtain ⟨⟨x', y'⟩, hcut, heq⟩ := Option.map_eq_some_iff.mp h
          obtain ⟨rfl, rfl⟩ := Prod.mk.inj heq
          obtain ⟨rfl, hlen⟩ := ih hcut
          refine ⟨rfl, ?_⟩
          rw [utf8Length, hlen]
          omega
        · cases h
  · rintro ⟨rfl, rfl⟩
    exact cutAtByte?_append x y

/-- A text is cut everywhere but behind its end and inside of its characters. -/
theorem cutAtByte?_eq_none_iff : cutAtByte? k s = none ↔ utf8Length s < k ∨ InsideChar s k := by
  constructor
  · intro h
    induction s generalizing k with
    | nil =>
      cases k with
      | zero => cases h
      | succ k => exact .inl (Nat.succ_pos k)
    | cons c s ih =>
      cases k with
      | zero => cases h
      | succ k =>
        rw [cutAtByte?] at h
        split at h
        · next hle =>
          rcases ih (Option.map_eq_none_iff.mp h) with hlt | ⟨x, d, y, rfl, hx, hd⟩
          · left
            rw [utf8Length]
            omega
          · refine .inr ⟨c :: x, d, y, rfl, ?_, ?_⟩ <;> rw [utf8Length] <;> omega
        · next hlt => exact .inr ⟨[], c, s, rfl, Nat.succ_pos k, by simpa [utf8Length] using hlt⟩
  · intro h
    rw [Option.eq_none_iff_forall_ne_some]
    rintro ⟨x, y⟩ hcut
    obtain ⟨rfl, rfl⟩ := cutAtByte?_eq_some_iff.mp hcut
    rcases h with hlt | ⟨a, c, b, hs, ha, hc⟩
    · rw [utf8Length_append] at hlt
      omega
    -- The two ways to write the text put one of the cuts in front of the other.
    · rcases List.append_eq_append_iff.mp hs with ⟨z, rfl, -⟩ | ⟨z, rfl, hz⟩
      · rw [utf8Length_append] at ha
        omega
      · cases z with
        | nil => simp at ha
        | cons d z =>
          obtain ⟨rfl, -⟩ := List.cons.inj hz
          rw [utf8Length_append, utf8Length] at hc
          omega

theorem slice?_eq_some_iff : slice? s i j = some t ↔
    ∃ x y, s = x ++ (t ++ y) ∧ utf8Length x = i ∧ utf8Length x + utf8Length t = j := by
  simp only [slice?, Option.bind_eq_bind, Option.bind_eq_some_iff, Prod.exists, Option.pure_def,
    Option.some.injEq, cutAtByte?_eq_some_iff]
  constructor
  · rintro ⟨front, y, ⟨rfl, rfl⟩, x, t, ⟨rfl, rfl⟩, rfl⟩
    exact ⟨x, y, List.append_assoc x t y, rfl, (utf8Length_append x t).symm⟩
  · rintro ⟨x, y, rfl, rfl, rfl⟩
    exact ⟨x ++ t, y, ⟨(List.append_assoc x t y).symm, utf8Length_append x t⟩, x, t, ⟨rfl, rfl⟩, rfl⟩

/-- There is no slice when it starts behind its end, when its end is behind the end of the text, and
when it starts or ends inside of a character. -/
theorem slice?_eq_none_iff : slice? s i j = none ↔
    j < i ∨ utf8Length s < j ∨ InsideChar s i ∨ InsideChar s j := by
  constructor
  · intro h
    cases hfront : cutAtByte? j s with
    | none => exact .inr ((cutAtByte?_eq_none_iff.mp hfront).imp_right .inr)
    | some cut =>
      obtain ⟨front, y⟩ := cut
      obtain ⟨rfl, rfl⟩ := cutAtByte?_eq_some_iff.mp hfront
      cases hslice : cutAtByte? i front with
      | none =>
        rcases cutAtByte?_eq_none_iff.mp hslice with hlt | ⟨x, c, z, rfl, hinside⟩
        · exact .inl hlt
        · exact .inr (.inr (.inl ⟨x, c, z ++ y, by simp, hinside⟩))
      | some cut => simp [slice?, hfront, hslice] at h
  · intro h
    rw [Option.eq_none_iff_forall_ne_some]
    intro t ht
    obtain ⟨x, y, rfl, rfl, rfl⟩ := slice?_eq_some_iff.mp ht
    have hi := cutAtByte?_append x (t ++ y)
    have hj := cutAtByte?_append (x ++ t) y
    rw [utf8Length_append, List.append_assoc] at hj
    rcases h with h | h | h | h
    · omega
    · rw [cutAtByte?_eq_none_iff.mpr (.inl h)] at hj
      cases hj
    · rw [cutAtByte?_eq_none_iff.mpr (.inr h)] at hi
      cases hi
    · rw [cutAtByte?_eq_none_iff.mpr (.inr h)] at hj
      cases hj

example : slice? ['é', 'a'] 1 3 = none :=
  rfl

theorem slice?_append (x t y : List Char) :
    slice? (x ++ (t ++ y)) (utf8Length x) (utf8Length x + utf8Length t) = some t :=
  slice?_eq_some_iff.mpr ⟨x, y, rfl, rfl, rfl⟩

theorem slice?_front (x y : List Char) : slice? (x ++ y) 0 (utf8Length x) = some x :=
  slice?_eq_some_iff.mpr ⟨[], y, rfl, rfl, Nat.zero_add _⟩

theorem slice?_whole (s : List Char) : slice? s 0 (utf8Length s) = some s :=
  slice?_eq_some_iff.mpr ⟨[], [], by rw [List.append_nil, List.nil_append], rfl, Nat.zero_add _⟩

theorem slice?_back (x y : List Char) :
    slice? (x ++ y) (utf8Length x) (utf8Length (x ++ y)) = some y :=
  slice?_eq_some_iff.mpr ⟨x, [], by rw [List.append_nil], rfl, (utf8Length_append x y).symm⟩

/-- The text behind another of known length. -/
theorem slice?_behind (x : List Char) {v : List Char} (hv : utf8Length v = k) (y : List Char) :
    slice? (x ++ (v ++ y)) (utf8Length x + k) (utf8Length (x ++ (v ++ y))) = some y := by
  have h := slice?_back (x ++ v) y
  rwa [List.append_assoc, utf8Length_append x v, hv] at h

/-- A text behind a character of one byte. -/
theorem slice?_inside (x : List Char) {o : Char} (ho : o.utf8Size = 1) (t y : List Char) :
    slice? (x ++ o :: (t ++ y)) (utf8Length x + 1) (utf8Length x + 1 + utf8Length t) = some t := by
  have h := slice?_append (x ++ [o]) t y
  rwa [utf8Length_append, utf8Length, utf8Length, ho, List.append_assoc, List.singleton_append] at h

/-- All of the text behind a character of one byte. -/
theorem slice?_behind_char (x : List Char) {c : Char} (hc : c.utf8Size = 1) (y : List Char) :
    slice? (x ++ c :: y) (utf8Length x + 1) (utf8Length (x ++ c :: y)) = some y :=
  slice?_behind x (v := [c]) hc y

end Cut

/-! ## Sizes -/

section Size

variable {c d : Char} {v w y : List Char}

theorem utf8Size_of_isOpener (h : isOpener c = true) : c.utf8Size = 1 := by
  simp only [isOpener, Bool.or_eq_true, beq_iff_eq] at h
  rcases h with (rfl | rfl) | rfl <;> rfl

theorem utf8Size_of_isCloser (h : isCloser c = true) : c.utf8Size = 1 := by
  simp only [isCloser, Bool.or_eq_true, beq_iff_eq] at h
  rcases h with (rfl | rfl) | rfl <;> rfl

theorem utf8Size_of_isQuote (h : isQuote c = true) : c.utf8Size = 1 := by
  simp only [isQuote, Bool.or_eq_true, beq_iff_eq] at h
  rcases h with (rfl | rfl) | rfl <;> rfl

theorem utf8Size_toLower (c : Char) : c.toLower.utf8Size = c.utf8Size :=
  Unicode.apply_toLower (by decide +kernel) c

theorem utf8Length_lower (s : List Char) : utf8Length (lower s) = utf8Length s := by
  induction s with
  | nil => rfl
  | cons c s ih =>
    rw [utf8Length, ← ih, ← utf8Size_toLower]
    rfl

/-- The case of its letters does not change how long a text is. -/
theorem utf8Length_of_lower_eq (h : lower v = lower w) : utf8Length v = utf8Length w := by
  rw [← utf8Length_lower v, h, utf8Length_lower]

/-- A text starts with a word if and only if its first bytes, as many as the word has, are the word. -/
theorem startsIgnoringCase_append_of_length (h : utf8Length v = utf8Length w) :
    startsIgnoringCase w (v ++ y) = sameIgnoringCase v w := by
  rw [Bool.eq_iff_iff, sameIgnoringCase, beq_iff_eq]
  constructor
  · intro hstarts
    obtain ⟨v', r, hv', hlower⟩ := exists_append_of_startsIgnoringCase hstarts
    obtain rfl : v = v' := append_inj_of_utf8Length hv' (h.trans (utf8Length_of_lower_eq hlower).symm)
    exact hlower
  · exact startsIgnoringCase_append

/-- The slice of a word's length at a place, and what it says of the word. -/
theorem slice?_word (x r w : List Char) :
    (slice? (x ++ r) (utf8Length x) (utf8Length x + utf8Length w) = none ∧
      startsIgnoringCase w r = false) ∨
    ∃ v y, r = v ++ y ∧ utf8Length v = utf8Length w ∧
      slice? (x ++ r) (utf8Length x) (utf8Length x + utf8Length w) = some v := by
  cases hslice : slice? (x ++ r) (utf8Length x) (utf8Length x + utf8Length w) with
  | none =>
    refine .inl ⟨rfl, ?_⟩
    rw [← Bool.not_eq_true]
    intro hstarts
    obtain ⟨v, y, rfl, hlower⟩ := exists_append_of_startsIgnoringCase hstarts
    rw [← utf8Length_of_lower_eq hlower, slice?_append] at hslice
    cases hslice
  | some v =>
    obtain ⟨x', y, hs, hx, hv⟩ := slice?_eq_some_iff.mp hslice
    obtain rfl : x = x' := append_inj_of_utf8Length hs hx.symm
    exact .inr ⟨v, y, List.append_cancel_left hs, Nat.add_left_cancel hv, rfl⟩

end Size

/-! ## Bytes -/

section Bytes

variable {c : Char} {x y : List Char}

theorem bytes_append (x y : List Char) : bytes (x ++ y) = bytes x ++ bytes y :=
  List.flatMap_append

theorem length_bytes (s : List Char) : (bytes s).length = utf8Length s := by
  induction s with
  | nil => rfl
  | cons c s ih =>
    rw [bytes, List.flatMap_cons, List.length_append, String.length_utf8EncodeChar, utf8Length, ← ih,
      bytes]

theorem bytes_of_ascii (hc : c.toNat < 128) : String.utf8EncodeChar c = [UInt8.ofNat c.toNat] :=
  if_pos (Nat.le_of_lt_succ hc)

/-- No byte of a character outside ASCII is an ASCII character. -/
theorem le_of_mem_bytes (hc : 128 ≤ c.toNat) : ∀ b ∈ String.utf8EncodeChar c, 128 ≤ b.toNat := by
  have hv : ¬ c.val.toNat ≤ 0x7f := Nat.not_le.mpr hc
  unfold String.utf8EncodeChar
  dsimp only
  rw [if_neg hv]
  split
  · simp
    omega
  · split
    · simp
      omega
    · simp
      omega

/-- A byte of a character continues an identifier if and only if the character does. -/
theorem isWordByte_of_mem {b : UInt8} (hb : b ∈ String.utf8EncodeChar c) :
    isWordByte b = isIdentChar c := by
  by_cases hc : c.toNat < 128
  · rw [bytes_of_ascii hc, List.mem_singleton] at hb
    have hn : b.toNat = c.toNat := by
      rw [hb, UInt8.toNat_ofNat', Nat.mod_eq_of_lt (by omega)]
    rw [isWordByte, hn, Char.ofNat_toNat]
  · have hle := le_of_mem_bytes (Nat.not_lt.mp hc) b hb
    have hbytes : ∀ n < 256, 128 ≤ n → isIdentChar (Char.ofNat n) = false := by decide +kernel
    have hbyte : isWordByte b = false := hbytes b.toNat b.toNat_lt hle
    rw [hbyte, Eq.comm, ← Bool.not_eq_true]
    exact fun h => hc (toNat_lt_of_isIdentChar h)

/-- The byte in front of an offset belongs to the character in front of it. -/
theorem isWordByte_before {k : Nat} (hk : k + 1 = utf8Length (x ++ [c])) (y : List Char) :
    ∃ b, (bytes (x ++ c :: y))[k]? = some b ∧ isWordByte b = isIdentChar c := by
  have hsize : k - (bytes x).length < (String.utf8EncodeChar c).length := by
    have hpos := c.utf8Size_pos
    simp only [utf8Length_append, utf8Length] at hk
    rw [length_bytes, String.length_utf8EncodeChar]
    omega
  have hle : (bytes x).length ≤ k := by
    have hpos := c.utf8Size_pos
    simp only [utf8Length_append, utf8Length] at hk
    rw [length_bytes]
    omega
  refine ⟨_, ?_, isWordByte_of_mem (List.getElem_mem hsize)⟩
  rw [bytes_append, List.getElem?_append_right hle, bytes, List.flatMap_cons,
    List.getElem?_append_left hsize, List.getElem?_eq_getElem hsize]

/-- The byte at an offset belongs to the character behind it. -/
theorem isWordByte_after (x y : List Char) :
    (bytes (x ++ y))[utf8Length x]?.any isWordByte = y.head?.any isIdentChar := by
  rw [bytes_append, List.getElem?_append_right (Nat.le_of_eq (length_bytes x)), length_bytes,
    Nat.sub_self]
  cases y with
  | nil => rfl
  | cons c y =>
    obtain ⟨b, bs, hb⟩ := List.exists_cons_of_ne_nil (String.utf8EncodeChar_ne_nil (c := c))
    rw [bytes, List.flatMap_cons, hb]
    exact isWordByte_of_mem (hb ▸ List.mem_cons_self)

end Bytes

end SchemaLint.Text
