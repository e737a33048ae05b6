import Mathlib.Data.List.Nodup
import SchemaLint.Proofs.Json.Lexeme

/-!
# Documents that are read back

A value is canonical (`Canonical`) when it is made of texts, natural numbers of machine size,
truth values, arrays, and objects without repeated keys. What is written for a canonical value is
read back as that value, whatever follows it (`value?_pretty`), so a canonical value is read back
from its text (`read?_write`) and, when its depth is moderate, from its document
(`readDocument?_write`).
-/

namespace SchemaLint.Json

/-- Values that documents are made of. -/
inductive Canonical : Value → Prop
  | null : Canonical .null
  | bool (b : Bool) : Canonical (.bool b)
  | nat {n : Nat} (h : n < UInt64.size) : Canonical (.ofNat n)
  | string (s : String) : Canonical (.ofString s)
  | array {vs : List Value} (h : ∀ v ∈ vs, Canonical v) : Canonical (.array vs)
  | object {members : List (String × Value)} (h : ∀ m ∈ members, Canonical m.2)
      (hkeys : (members.map (·.1)).Nodup) : Canonical (.ofMembers members)

theorem map_fst_zip_sublist {α β : Type} (as : List α) (bs : List β) :
    ((as.zip bs).map Prod.fst).Sublist as := by
  rw [List.zip_eq_zip_take_min, List.map_fst_zip (by simp)]
  exact List.take_sublist _ as

/-- An object with the values of distinct keys, in order; keys at the end may be left out. -/
theorem Canonical.ofKeys {keys : List String} {vs : List Value} (hvs : ∀ v ∈ vs, Canonical v)
    (hkeys : keys.Nodup) : Canonical (.ofMembers (keys.zip vs)) :=
  .object (fun _ hm => hvs _ (List.of_mem_zip hm).2) (hkeys.sublist (map_fst_zip_sublist keys vs))

/-- A list is read back item by item. -/
theorem mapM_map_of_readBack {α β : Type} {write : α → β} {read : β → Option α} {as : List α}
    (h : ∀ a ∈ as, read (write a) = some a) : (as.map write).mapM read = some as := by
  induction as with
  | nil => rfl
  | cons a as ih =>
    rw [List.map_cons, List.mapM_cons, h a List.mem_cons_self,
      ih fun x hx => h x (List.mem_cons_of_mem a hx)]
    rfl

/-! ## Reading past blanks -/

/-- Nothing but blanks. -/
def IsGap (s : List Char) : Prop :=
  ∀ c ∈ s, isSpace c = true

theorem isGap_nil : IsGap [] := by
  simp [IsGap]

theorem isGap_newline (level : Nat) : IsGap (newline level) := by
  intro c hc
  rcases List.mem_cons.mp hc with rfl | hc
  · decide
  · rw [List.eq_of_mem_replicate hc]
    decide

theorem skip_append {gap : List Char} (h : IsGap gap) (s : List Char) : skip (gap ++ s) = skip s :=
  List.dropWhile_append_of_pos h

theorem skip_cons {c : Char} (h : isSpace c = false) (s : List Char) : skip (c :: s) = c :: s :=
  List.dropWhile_cons_of_neg (by simp [h])

/-- Reading a value passes over blanks in front of it. -/
theorem value?_append {gap : List Char} (h : IsGap gap) (fuel : Nat) (s : List Char) :
    value? fuel (gap ++ s) = value? fuel s := by
  cases fuel with
  | zero => rfl
  | succ fuel => simp only [value?, skip_append h]

/-! ## What follows a value -/

theorem endsNumber_nil : EndsNumber [] := by
  rintro c ⟨⟩

theorem endsNumber_newline (level : Nat) (s : List Char) : EndsNumber (newline level ++ s) := by
  intro c hc
  obtain rfl : '\n' = c := by simpa [newline] using hc
  decide

theorem endsNumber_comma (s : List Char) : EndsNumber (',' :: s) := by
  rintro c ⟨⟩
  decide

/-! ## Values -/

/-- A value is read back from what is written for it. -/
def IsReadBack (v : Value) : Prop :=
  ∀ level fuel rest, (pretty level v).length ≤ fuel → EndsNumber rest →
    value? fuel (pretty level v ++ rest) = some (v, rest)

/-- What is written for a value begins neither with a blank nor with a closing bracket. -/
def StartsValue (s : List Char) : Prop :=
  ∃ c t, s = c :: t ∧ isSpace c = false ∧ c ≠ ']'

theorem startsValue_pretty {v : Value} (h : Canonical v) (level : Nat) :
    StartsValue (pretty level v) := by
  cases h with
  | null => exact ⟨'n', _, rfl, by decide, by decide⟩
  | bool b => cases b <;> exact ⟨_, _, rfl, by decide, by decide⟩
  | @nat n _ =>
    obtain ⟨d, ds, hds⟩ := List.exists_cons_of_ne_nil (Nat.toDigits_ne_nil (b := 10) (n := n))
    have hd : d.isDigit = true := isDigit_toDigits n d (by rw [hds]; exact List.mem_cons_self)
    refine ⟨d, ds, hds, ?_, ?_⟩
    · cases hspace : isSpace d with
      | false => rfl
      | true =>
        simp only [isSpace, Bool.or_eq_true, beq_iff_eq] at hspace
        rcases hspace with ((rfl | rfl) | rfl) | rfl <;> exact absurd hd (by decide)
    · rintro rfl
      exact absurd hd (by decide)
  | string s => exact ⟨'"', _, rfl, by decide, by decide⟩
  | @array vs _ => cases vs <;> exact ⟨'[', _, rfl, by decide, by decide⟩
  | @object members _ _ => cases members <;> exact ⟨'\x7b', _, rfl, by decide, by decide⟩

theorem endsNumber_items (level outer : Nat) (vs : List Value) (s : List Char) :
    EndsNumber (prettyItems level vs ++ (newline outer ++ s)) := by
  cases vs with
  | nil => exact endsNumber_newline outer s
  | cons v vs =>
    rw [prettyItems]
    simp only [List.append_assoc, List.singleton_append]
    exact endsNumber_comma _

/-- The items of an array are read back up to its closing bracket. -/
theorem items?_pretty (level outer : Nat) {v : Value} {vs : List Value} {gap : List Char}
    (hgap : IsGap gap) (h : ∀ w ∈ v :: vs, IsReadBack w) (fuel : Nat) (rest : List Char)
    (hfuel : (pretty level v ++ prettyItems level vs).length < fuel) :
    items? fuel (gap ++ (pretty level v ++ (prettyItems level vs ++ (newline outer ++ ']' :: rest)))) =
      some (v :: vs, rest) := by
  induction vs generalizing v gap fuel with
  | nil =>
    obtain ⟨fuel, rfl⟩ : ∃ k, fuel = k + 1 := ⟨fuel - 1, by omega⟩
    rw [prettyItems, List.append_nil] at hfuel
    have hv := h v List.mem_cons_self level fuel (newline outer ++ ']' :: rest) (by omega)
      (endsNumber_newline _ _)
    simp only [items?, prettyItems, List.nil_append, value?_append hgap, hv, Option.bind_eq_bind,
      Option.bind_some, skip_append (isGap_newline outer), skip_cons (show isSpace ']' = false by decide)]
    rfl
  | cons w vs ih =>
    obtain ⟨fuel, rfl⟩ : ∃ k, fuel = k + 1 := ⟨fuel - 1, by omega⟩
    rw [List.length_append] at hfuel
    have hv := h v List.mem_cons_self level fuel
      (prettyItems level (w :: vs) ++ (newline outer ++ ']' :: rest)) (by omega)
      (endsNumber_items _ _ _ _)
    rw [prettyItems] at hfuel hv ⊢
    simp only [List.length_append, List.length_singleton] at hfuel
    have hrest := ih (isGap_newline level) (fun x hx => h x (List.mem_cons_of_mem v hx)) fuel (by
      rw [List.length_append]
      omega)
    simp only [List.append_assoc, List.cons_append, List.nil_append] at hv ⊢
    simp only [items?, value?_append hgap, hv, Option.bind_eq_bind, Option.bind_some,
      skip_cons (show isSpace ',' = false by decide), hrest]
    rfl

/-- A member of an object as it is written. -/
def memberText (level : Nat) (m : String × Value) : List Char :=
  quoted m.1 ++ ([':', ' '] ++ pretty level m.2)

theorem memberText_append (level : Nat) (m : String × Value) (tail : List Char) :
    memberText level m ++ tail = '"' :: (m.1.toList.flatMap encodeChar ++
      '"' :: ':' :: ' ' :: (pretty level m.2 ++ tail)) := by
  simp only [memberText, quoted, List.append_assoc, List.cons_append, List.nil_append]

theorem isGap_space : IsGap [' '] := by
  intro c hc
  rw [List.mem_singleton.mp hc]
  decide

/-- The value of a member is read back after its colon. -/
theorem value?_memberText (level : Nat) {m : String × Value} (h : IsReadBack m.2) {fuel : Nat}
    (hfuel : (memberText level m).length ≤ fuel) {tail : List Char} (htail : EndsNumber tail) :
    value? fuel (' ' :: (pretty level m.2 ++ tail)) = some (m.2, tail) := by
  have hlen : (pretty level m.2).length ≤ fuel := by
    simp only [memberText, List.length_append] at hfuel
    omega
  exact (value?_append isGap_space fuel _).trans (h level fuel tail hlen htail)

/-- Members with the texts of their keys. -/
def keyed (ms : List (String × Value)) : List (Text × Value) :=
  ms.map fun (key, v) => (some key, v)

/-- The members of an object are read back up to its closing brace. -/
theorem members?_pretty (level outer : Nat) {m : String × Value} {ms : List (String × Value)}
    {gap : List Char} (hgap : IsGap gap) (h : ∀ x ∈ m :: ms, IsReadBack x.2) (fuel : Nat)
    (rest : List Char)
    (hfuel : (memberText level m ++ prettyMembers level (keyed ms)).length < fuel) :
    members? fuel (gap ++ (memberText level m ++
        (prettyMembers level (keyed ms) ++ (newline outer ++ '\x7d' :: rest)))) =
      some (keyed (m :: ms), rest) := by
  induction ms generalizing m gap fuel with
  | nil =>
    obtain ⟨fuel, rfl⟩ : ∃ k, fuel = k + 1 := ⟨fuel - 1, by omega⟩
    rw [List.length_append] at hfuel
    have hlen : (memberText level m).length ≤ fuel := by omega
    have hvalue := value?_memberText level (h m List.mem_cons_self) hlen
      (endsNumber_newline outer ('\x7d' :: rest))
    rw [keyed, List.map_nil, prettyMembers, List.nil_append]
    simp only [members?, skip_append hgap, memberText_append level m,
      skip_cons (show isSpace '"' = false by decide), string?_encode, Option.bind_eq_bind, Option.bind_some,
      skip_cons (show isSpace ':' = false by decide), hvalue, skip_append (isGap_newline outer),
      skip_cons (show isSpace '\x7d' = false by decide)]
    rfl
  | cons x ms ih =>
    obtain ⟨fuel, rfl⟩ : ∃ k, fuel = k + 1 := ⟨fuel - 1, by omega⟩
    have hshape : prettyMembers level (keyed (x :: ms)) =
        ',' :: (newline level ++ (memberText level x ++ prettyMembers level (keyed ms))) := by
      simp [keyed, prettyMembers, memberText]
    rw [hshape] at hfuel ⊢
    simp only [List.length_cons, List.length_append] at hfuel
    have hrest := ih (isGap_newline level) (fun y hy => h y (List.mem_cons_of_mem m hy)) fuel (by
      rw [List.length_append]
      omega)
    simp only [List.append_assoc, List.cons_append]
    have hlen : (memberText level m).length ≤ fuel := by omega
    have hvalue := value?_memberText level (h m List.mem_cons_self) hlen
      (endsNumber_comma (newline level ++ (memberText level x ++
        (prettyMembers level (keyed ms) ++ (newline outer ++ '\x7d' :: rest)))))
    simp only [members?, skip_append hgap, memberText_append level m,
      skip_cons (show isSpace '"' = false by decide), string?_encode, Option.bind_eq_bind, Option.bind_some,
      skip_cons (show isSpace ':' = false by decide), hvalue,
      skip_cons (show isSpace ',' = false by decide), hrest]
    rfl

/-! ## Whole values -/

theorem length_pos_of_startsValue {s : List Char} (h : StartsValue s) : 0 < s.length := by
  obtain ⟨c, t, rfl, -, -⟩ := h
  exact Nat.succ_pos _

theorem StartsValue.append {s : List Char} (h : StartsValue s) (t : List Char) :
    StartsValue (s ++ t) := by
  obtain ⟨c, u, rfl, hspace, hclose⟩ := h
  exact ⟨c, u ++ t, rfl, hspace, hclose⟩

/-- A text that begins with a digit is read as a number. -/
theorem value?_digit {d : Char} (hd : d.isDigit = true) (hspace : isSpace d = false) (fuel : Nat)
    (s : List Char) :
    value? (fuel + 1) (d :: s) = (number? (d :: s)).map fun (n, s) => (.number n, s) := by
  have hne : ∀ c : Char, c.isDigit = false → ∀ t, d :: s = c :: t → False := by
    intro c hc t heq
    rw [(List.cons.inj heq).1, hc] at hd
    cases hd
  rw [value?, skip_cons hspace]
  split
  · next heq => exact (hne 'n' (by decide) _ heq).elim
  · next heq => exact (hne 't' (by decide) _ heq).elim
  · next heq => exact (hne 'f' (by decide) _ heq).elim
  · next heq => exact (hne '"' (by decide) _ heq).elim
  · next heq => exact (hne '[' (by decide) _ heq).elim
  · next heq => exact (hne '\x7b' (by decide) _ heq).elim
  · rfl

/-- A bracket before the start of a value begins an array. -/
theorem value?_bracket {gap s : List Char} (hgap : IsGap gap) (hs : StartsValue s) (fuel : Nat) :
    value? (fuel + 1) ('[' :: (gap ++ s)) = (items? fuel s).map fun (vs, s) => (.array vs, s) := by
  obtain ⟨c, t, rfl, hspace, hclose⟩ := hs
  rw [value?, skip_cons (by decide)]
  simp only [skip_append hgap, skip_cons hspace]
  split
  · next heq => exact absurd (List.cons.inj heq).1 hclose
  · rfl

/-- A brace before a quote begins an object. -/
theorem value?_brace {gap : List Char} (hgap : IsGap gap) (s : List Char) (fuel : Nat) :
    value? (fuel + 1) ('\x7b' :: (gap ++ '"' :: s)) =
      (members? fuel ('"' :: s)).map fun (members, s) => (.object members, s) := by
  rw [value?, skip_cons (by decide)]
  simp only [skip_append hgap, skip_cons (show isSpace '"' = false by decide)]
  rfl

/-- What is written for a value is not empty, so fuel that is enough for it is not used up. -/
theorem isReadBack_of_succ {v : Value} (hv : Canonical v)
    (h : ∀ level fuel rest, (pretty level v).length ≤ fuel + 1 → EndsNumber rest →
      value? (fuel + 1) (pretty level v ++ rest) = some (v, rest)) : IsReadBack v := by
  intro level fuel rest hfuel hrest
  have hpos := length_pos_of_startsValue (startsValue_pretty hv level)
  obtain ⟨fuel, rfl⟩ : ∃ k, fuel = k + 1 := ⟨fuel - 1, by omega⟩
  exact h level fuel rest hfuel hrest

theorem isReadBack_nat {n : Nat} (hn : n < UInt64.size) : IsReadBack (.ofNat n) := by
  refine isReadBack_of_succ (.nat hn) fun level fuel rest _ hrest => ?_
  obtain ⟨d, ds, hds⟩ := List.exists_cons_of_ne_nil (Nat.toDigits_ne_nil (b := 10) (n := n))
  have hd : d.isDigit = true := isDigit_toDigits n d (by rw [hds]; exact List.mem_cons_self)
  have hspace : isSpace d = false := by
    obtain ⟨c, t, hct, hspace, -⟩ := startsValue_pretty (.nat hn) level
    have heq : d :: ds = c :: t := hds.symm.trans hct
    rw [(List.cons.inj heq).1]
    exact hspace
  have hread := number?_toDigits n hrest
  rw [hds, List.cons_append] at hread
  have hshape : pretty level (.ofNat n) ++ rest = d :: (ds ++ rest) := by
    rw [Value.ofNat, pretty, numberText, hds, List.cons_append]
  rw [hshape, value?_digit hd hspace, hread]
  rfl

theorem isReadBack_string (s : String) : IsReadBack (.ofString s) := by
  refine isReadBack_of_succ (.string s) fun level fuel rest _ _ => ?_
  have hshape : pretty level (.ofString s) ++ rest =
      '"' :: (s.toList.flatMap encodeChar ++ '"' :: rest) := by
    simp [Value.ofString, pretty, quoted]
  rw [hshape, value?, skip_cons (by decide)]
  simp only [string?_encode, Option.map_some]
  rfl

theorem isReadBack_array {vs : List Value} (hvs : ∀ v ∈ vs, Canonical v)
    (hback : ∀ v ∈ vs, IsReadBack v) : IsReadBack (.array vs) := by
  refine isReadBack_of_succ (.array hvs) fun level fuel rest hfuel _ => ?_
  cases vs with
  | nil => rfl
  | cons v vs =>
    have hshape : ∀ tail, pretty level (.array (v :: vs)) ++ tail = '[' :: (newline (level + 1) ++
        (pretty (level + 1) v ++ (prettyItems (level + 1) vs ++ (newline level ++ ']' :: tail)))) := by
      intro tail
      simp [pretty]
    have hlen := congrArg List.length (hshape [])
    simp only [List.append_nil, List.length_cons, List.length_append] at hlen
    have hitems := items?_pretty (level + 1) level isGap_nil hback fuel rest (by
      rw [List.length_append]
      omega)
    have hstart := (startsValue_pretty (hvs v List.mem_cons_self) (level + 1)).append
      (prettyItems (level + 1) vs ++ (newline level ++ ']' :: rest))
    rw [hshape, value?_bracket (isGap_newline _) hstart]
    rw [List.nil_append] at hitems
    rw [hitems]
    rfl

theorem isReadBack_object {members : List (String × Value)} (hmembers : ∀ m ∈ members, Canonical m.2)
    (hkeys : (members.map (·.1)).Nodup) (hback : ∀ m ∈ members, IsReadBack m.2) :
    IsReadBack (.ofMembers members) := by
  refine isReadBack_of_succ (.object hmembers hkeys) fun level fuel rest hfuel _ => ?_
  cases members with
  | nil => rfl
  | cons m ms =>
    have hshape : ∀ tail, pretty level (.ofMembers (m :: ms)) ++ tail = '\x7b' ::
        (newline (level + 1) ++ (memberText (level + 1) m ++
          (prettyMembers (level + 1) (keyed ms) ++ (newline level ++ '\x7d' :: tail)))) := by
      intro tail
      simp [Value.ofMembers, pretty, memberText, keyed]
    have hlen := congrArg List.length (hshape [])
    simp only [List.append_nil, List.length_cons, List.length_append] at hlen
    have hread := members?_pretty (level + 1) level isGap_nil hback fuel rest (by
      rw [List.length_append]
      omega)
    rw [List.nil_append, memberText_append] at hread
    rw [hshape, memberText_append, value?_brace (isGap_newline _), hread]
    rfl

/-- A canonical value is read back from what is written for it, whatever follows. -/
theorem value?_pretty {v : Value} (h : Canonical v) : IsReadBack v := by
  induction h with
  | null => exact isReadBack_of_succ .null fun _ _ _ _ _ => rfl
  | bool b => exact isReadBack_of_succ (.bool b) fun _ _ _ _ _ => by cases b <;> rfl
  | nat hn => exact isReadBack_nat hn
  | string s => exact isReadBack_string s
  | array hvs ih => exact isReadBack_array hvs ih
  | object hmembers hkeys ih => exact isReadBack_object hmembers hkeys ih

/-! ## Documents -/

theorem isFinite_ofNat {n : Nat} (h : n < UInt64.size) :
    ({ negative := false, digits := n, exponent := 0, isInteger := true } : Number).isFinite = true := by
  have hlen : (Nat.toDigits 10 n).length ≤ 20 :=
    (Nat.length_toDigits_le_iff (by decide) (by decide)).mpr (Nat.lt_trans h (by decide))
  unfold Number.isFinite
  rw [if_pos]
  rw [Bool.or_eq_true, decide_eq_true_eq]
  right
  simp only [Int.add_zero]
  omega

theorem arePlain_of_forall {vs : List Value} (h : ∀ v ∈ vs, v.isPlain = true) :
    Value.arePlain vs = true := by
  induction vs with
  | nil => rfl
  | cons v vs ih =>
    rw [Value.arePlain, h v List.mem_cons_self, ih fun w hw => h w (List.mem_cons_of_mem v hw),
      Bool.and_true]

theorem membersArePlain_of_forall {ms : List (String × Value)} (h : ∀ m ∈ ms, m.2.isPlain = true) :
    Value.membersArePlain (keyed ms) = true := by
  induction ms with
  | nil => rfl
  | cons m ms ih =>
    have htail := ih fun x hx => h x (List.mem_cons_of_mem m hx)
    rw [keyed] at htail
    rw [keyed, List.map_cons, Value.membersArePlain, h m List.mem_cons_self, htail]
    rfl

theorem Canonical.isPlain {v : Value} (h : Canonical v) : v.isPlain = true := by
  induction h with
  | null => rfl
  | bool b => rfl
  | nat h => exact isFinite_ofNat h
  | string s => rfl
  | array _ ih => exact arePlain_of_forall ih
  | object _ _ ih => exact membersArePlain_of_forall ih

/-- Keeping the last of repeated keys keeps all members when no key is repeated. -/
theorem keepLast_of_nodup {ms : List (Text × Value)} (h : (ms.map (·.1)).Nodup) :
    Value.keepLast ms = ms := by
  induction ms with
  | nil => rfl
  | cons m ms ih =>
    rw [List.map_cons, List.nodup_cons] at h
    have htail := ih h.2
    have hnew : ms.any (·.1 == m.1) = false := by
      rw [List.any_eq_false]
      intro x hx hkey
      exact h.1 (List.mem_map.mpr ⟨x, hx, beq_iff_eq.mp hkey⟩)
    unfold Value.keepLast at htail ⊢
    rw [List.foldr_cons, htail, hnew]
    rfl

theorem lastWinsAll_eq_self {vs : List Value} (h : ∀ v ∈ vs, v.lastWins = v) :
    Value.lastWinsAll vs = vs := by
  induction vs with
  | nil => rfl
  | cons v vs ih =>
    rw [Value.lastWinsAll, h v List.mem_cons_self, ih fun w hw => h w (List.mem_cons_of_mem v hw)]

theorem lastWinsMembers_eq_self {ms : List (String × Value)} (h : ∀ m ∈ ms, m.2.lastWins = m.2) :
    Value.lastWinsMembers (keyed ms) = keyed ms := by
  induction ms with
  | nil => rfl
  | cons m ms ih =>
    have htail := ih fun x hx => h x (List.mem_cons_of_mem m hx)
    rw [keyed] at htail
    rw [keyed, List.map_cons, Value.lastWinsMembers, h m List.mem_cons_self, htail]

theorem nodup_keyed {ms : List (String × Value)} (h : (ms.map (·.1)).Nodup) :
    ((keyed ms).map (·.1)).Nodup := by
  have heq : (keyed ms).map (·.1) = (ms.map (·.1)).map some := by
    simp [keyed, Function.comp_def]
  rw [heq]
  exact h.map fun _ _ heq => Option.some.inj heq

/-- Nothing is lost from a canonical value when the last of repeated keys is kept. -/
theorem Canonical.lastWins_eq {v : Value} (h : Canonical v) : v.lastWins = v := by
  induction h with
  | null => rfl
  | bool b => rfl
  | nat h => rfl
  | string s => rfl
  | array _ ih => rw [Value.lastWins, lastWinsAll_eq_self ih]
  | @object ms _ hkeys ih =>
    change Value.object (Value.keepLast (Value.lastWinsMembers (keyed ms))) = .object (keyed ms)
    rw [lastWinsMembers_eq_self ih, keepLast_of_nodup (nodup_keyed hkeys)]

theorem depth_array_le {vs : List Value} {k : Nat} (h : ∀ v ∈ vs, v.depth ≤ k) :
    (Value.array vs).depth ≤ k + 1 := by
  have hdepths : Value.depths vs ≤ k := by
    induction vs with
    | nil => exact Nat.zero_le k
    | cons v vs ih =>
      rw [Value.depths]
      exact Nat.max_le.mpr ⟨h v List.mem_cons_self, ih fun w hw => h w (List.mem_cons_of_mem v hw)⟩
  rw [Value.depth]
  omega

theorem depth_ofMembers_le {ms : List (String × Value)} {k : Nat} (h : ∀ m ∈ ms, m.2.depth ≤ k) :
    (Value.ofMembers ms).depth ≤ k + 1 := by
  have hdepths : Value.memberDepths (keyed ms) ≤ k := by
    induction ms with
    | nil => exact Nat.zero_le k
    | cons m ms ih =>
      have htail := ih fun x hx => h x (List.mem_cons_of_mem m hx)
      rw [keyed] at htail
      rw [keyed, List.map_cons, Value.memberDepths]
      exact Nat.max_le.mpr ⟨h m List.mem_cons_self, htail⟩
  change 1 + Value.memberDepths (keyed ms) ≤ k + 1
  omega

/-- A canonical value is read back from the text that it is written as. -/
theorem read?_write {v : Value} (h : Canonical v) : read? (write v) = some v := by
  have hvalue := value?_pretty h 0 (2 * (pretty 0 v).length + 2) [] (by omega) endsNumber_nil
  rw [List.append_nil] at hvalue
  unfold read? write
  simp only [String.toList_ofList, hvalue, Option.bind_eq_bind, Option.bind_some]
  rfl

/-- A canonical value comes back from its document. -/
theorem readDocument?_write {v : Value} (h : Canonical v) (hdepth : v.depth ≤ Value.maxDepth) :
    readDocument? (write v) = some v := by
  have hsound : v.isSound = true := by
    rw [Value.isSound, h.isPlain, Bool.true_and, decide_eq_true_eq]
    exact hdepth
  unfold readDocument?
  rw [read?_write h, Option.filter_some_pos hsound, Option.map_some, h.lastWins_eq]

end SchemaLint.Json
