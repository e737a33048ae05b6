import SchemaLint.Proofs.Form.Stop
import SchemaLint.Sql.Form

/-!
# Statements that go on

The head of a statement ends in front of its first parenthesis or equals sign: none of its forms reads
past one. So what is put behind a statement that has one is put behind its body
(`Statement.read?_append`), whatever modifiers, names and aliases its head has.
-/

namespace SchemaLint.Sql

open Form

/-! ## Heads -/

/-- A word of a head: no letter of it can be read off a parenthesis or an equals sign. -/
def staysInHead (w : String) : Bool :=
  w.toList.all fun l => !Unicode.sameFold l '(' && !Unicode.sameFold l '='

section Head

variable {c : Char} (hc : c = '(' ∨ c = '=')

include hc

theorem stopsAt_word {w : String} (hw : staysInHead w = true) : StopsAt c (word w) := by
  simp only [staysInHead, List.all_eq_true, Bool.and_eq_true, Bool.not_eq_true'] at hw
  refine stopsAt_folded fun l hl => ?_
  rcases hc with rfl | rfl
  · exact (hw l hl).1
  · exact (hw l hl).2

theorem stopsAt_blanks : StopsAt c blanks :=
  stopsAt_run (by rcases hc with rfl | rfl <;> decide)

theorem stopsAt_blanks1 : StopsAt c blanks1 :=
  (stopsAt_char (by rcases hc with rfl | rfl <;> decide)).append (stopsAt_blanks hc)

theorem stopsAt_tick : StopsAt c tick :=
  stopsAt_char (by rcases hc with rfl | rfl <;> decide)

theorem stopsAt_segment : StopsAt c segment := by
  have hchars : isNameChar c = false := by rcases hc with rfl | rfl <;> decide
  exact ((stopsAt_tick hc).opt.append ((stopsAt_char hchars).append (stopsAt_span hchars))).append
    (stopsAt_tick hc).opt

theorem stopsAt_dot : StopsAt c dot :=
  ((stopsAt_blanks hc).append (stopsAt_exact (by rcases hc with rfl | rfl <;> decide))).append
    (stopsAt_blanks hc)

end Head

theorem reads_segment : Reads segment :=
  ((keeps_char _).opt.reads_append ((reads_char _).append (keeps_span _))).append (keeps_char _).opt

theorem reads_dotted : Reads (dot ++ segment) :=
  ((keeps_blanks.append (keeps_exact _)).append keeps_blanks).reads_append reads_segment

theorem reads_modifier (words : List String) : Reads (oneOf (words.map word) ++ blanks1) := by
  refine (keeps_oneOf fun f hf => ?_).reads_append ((reads_char _).append (keeps_run _))
  obtain ⟨w, -, rfl⟩ := List.mem_map.mp hf
  exact keeps_word w

section Head

variable {c : Char} (hc : c = '(' ∨ c = '=')

include hc

theorem stopsAt_name : StopsAt c name :=
  (stopsAt_segment hc).append (((stopsAt_dot hc).append (stopsAt_segment hc)).star reads_dotted)

theorem stopsAt_modifiers {words : List String} (hw : words.all staysInHead = true) :
    StopsAt c (modifiers words) := by
  refine StopsAt.star (.append (stopsAt_oneOf fun f hf => ?_) (stopsAt_blanks1 hc))
    (reads_modifier words)
  obtain ⟨w, hmem, rfl⟩ := List.mem_map.mp hf
  exact stopsAt_word hc (List.all_eq_true.mp hw w hmem)

theorem stopsAt_otherName : StopsAt c otherName := by
  have hchars : Unicode.isWord c = false := by rcases hc with rfl | rfl <;> decide
  exact ((stopsAt_blanks1 hc).append
    ((stopsAt_word hc (by decide)).append (stopsAt_blanks1 hc)).opt).append
      ((stopsAt_char hchars).append (stopsAt_span hchars))

end Head

/-! ## Bodies -/

/-- A statement with a text behind its body. -/
def Statement.append (t : List Char) : Statement → Statement
  | update table body => update table (body ++ t)
  | insert table body => insert table (body ++ t)
  | delete table body => delete table (body ++ t)
  | select body => select (body ++ t)

/-- What follows a character is put behind the body of a statement. -/
def HandsOn (c : Char) (f : Form Statement) : Prop :=
  ∀ x t t', f (x ++ c :: (t ++ t')) = (f (x ++ c :: t)).map fun w => (w.1.append t', w.2)

section HandsOn

variable {c : Char} {α : Type}

theorem handsOn_rest {k : List Char → Statement} (hk : ∀ b t, (k b).append t = k (b ++ t)) :
    HandsOn c (rest >>= fun b => pure (k b)) := by
  intro x t t'
  change [(k (x ++ c :: (t ++ t')), [])] = [((k (x ++ c :: t)).append t', [])]
  rw [hk, List.append_assoc, List.cons_append]

theorem HandsOn.bind {f : Form α} {g : α → Form Statement} (hf : StopsAt c f)
    (hg : ∀ a, HandsOn c (g a)) : HandsOn c (f >>= g) := by
  intro x t t'
  obtain ⟨ways, hways⟩ := hf x
  rw [bind_apply, bind_apply, hways, hways, List.flatMap_map, List.flatMap_map, List.map_flatMap]
  exact List.flatMap_congr fun w _ => hg w.1 w.2 t t'

theorem handsOn_oneOf {fs : List (Form Statement)} (h : ∀ f ∈ fs, HandsOn c f) :
    HandsOn c (oneOf fs) := by
  intro x t t'
  unfold oneOf
  rw [List.map_flatMap]
  exact List.flatMap_congr fun f hf => h f hf x t t'

end HandsOn

section Forms

variable {c : Char} (hc : c = '(' ∨ c = '=')

include hc

theorem handsOn_update : HandsOn c updateForm := by
  refine .bind (((stopsAt_word hc (by decide)).append (stopsAt_blanks1 hc)).append
    (stopsAt_modifiers hc (by decide))) fun _ => .bind (stopsAt_name hc) fun table => ?_
  refine .bind ((((stopsAt_otherName hc).opt.append (stopsAt_blanks1 hc)).append
    (stopsAt_word hc (by decide))).append (stopsAt_blanks1 hc)) fun _ => ?_
  exact handsOn_rest fun _ _ => rfl

theorem handsOn_insert : HandsOn c insertForm := by
  have hverb : StopsAt c (oneOf [word "INSERT", word "REPLACE"]) := by
    refine stopsAt_oneOf fun f hf => ?_
    rcases List.mem_pair.mp hf with rfl | rfl <;> exact stopsAt_word hc (by decide)
  refine .bind ((((hverb.append (stopsAt_blanks1 hc)).append (stopsAt_modifiers hc (by decide))).append
    (stopsAt_word hc (by decide))).append (stopsAt_blanks1 hc)) fun _ => ?_
  exact .bind (stopsAt_name hc) fun table => handsOn_rest fun _ _ => rfl

theorem handsOn_delete : HandsOn c deleteForm := by
  refine .bind (((((stopsAt_word hc (by decide)).append (stopsAt_blanks1 hc)).append
    (stopsAt_modifiers hc (by decide))).append (stopsAt_word hc (by decide))).append
      (stopsAt_blanks1 hc)) fun _ => ?_
  exact .bind (stopsAt_name hc) fun table => handsOn_rest fun _ _ => rfl

theorem handsOn_select : HandsOn c selectForm :=
  .bind ((stopsAt_word hc (by decide)).append (stopsAt_blanks1 hc)) fun _ =>
    handsOn_rest fun _ _ => rfl

end Forms

/-- What is put behind a statement that has a parenthesis or an equals sign is put behind its body. -/
theorem Statement.read?_append {s : List Char} (hs : '(' ∈ s ∨ '=' ∈ s) (t : List Char) :
    Statement.read? (s ++ t) = (Statement.read? s).map (Statement.append t) := by
  obtain ⟨c, hc, hmem⟩ : ∃ c, (c = '(' ∨ c = '=') ∧ c ∈ s := by
    rcases hs with h | h
    · exact ⟨'(', .inl rfl, h⟩
    · exact ⟨'=', .inr rfl, h⟩
  obtain ⟨x, y, rfl⟩ := List.append_of_mem hmem
  have hforms : HandsOn c (oneOf [updateForm, insertForm, deleteForm, selectForm]) := by
    refine handsOn_oneOf fun f hf => ?_
    simp only [List.mem_cons, List.not_mem_nil, or_false] at hf
    rcases hf with rfl | rfl | rfl | rfl
    · exact handsOn_update hc
    · exact handsOn_insert hc
    · exact handsOn_delete hc
    · exact handsOn_select hc
  rw [List.append_assoc, List.cons_append, Statement.read?, Statement.read?, Form.read?, Form.read?,
    hforms, List.head?_map, Option.map_map, Option.map_map]
  rfl

end SchemaLint.Sql
