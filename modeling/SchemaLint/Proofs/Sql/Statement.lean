import SchemaLint.Proofs.Form
import SchemaLint.Proofs.Unicode.CodePoints
import SchemaLint.Proofs.Unicode.Fold
import SchemaLint.Sql.Form
import SchemaLint.Text.Ascii

/-!
# How statements begin

A text that is read as an `UPDATE` or a `DELETE` begins with the verb and a blank. Behind the blanks
after a `DELETE` stands `FROM` or the first letter of a modifier. What is read as a statement ends with
the body that it leaves to be read (`Statement.body_suffix`).
-/

namespace SchemaLint.Unicode

open Text (forall_ascii toNat_lt_of_isAlpha)

/-- A plain letter that is asked for is found in the characters of the same lower case. -/
theorem toLower_of_sameFold {l c : Char} (hl : IsPlainLetter l) (h : sameFold l c = true) :
    c.toLower = l.toLower := by
  have hlt := toNat_lt_of_isAlpha hl.1
  have hall := forall_ascii (P := fun l => IsPlainLetter l →
    (asciiCycle l).all (fun c => c.toLower == l.toLower) = true) (by decide +kernel) hlt
  rw [sameFold, foldCycle, if_pos hlt, List.contains_iff_mem] at h
  exact beq_iff_eq.mp (List.all_eq_true.mp (hall hl) c h)

end SchemaLint.Unicode

namespace SchemaLint.Form

variable {s r x : List Char}

/-- A word of plain letters is read in any case. -/
theorem mem_folded {w : List Char} (hw : ∀ l ∈ w, Unicode.IsPlainLetter l)
    (h : (x, r) ∈ folded w s) : s = x ++ r ∧ Text.lower x = Text.lower w := by
  induction w generalizing s x with
  | nil =>
    obtain ⟨rfl, rfl⟩ := Prod.mk.inj (List.mem_singleton.mp h)
    exact ⟨rfl, rfl⟩
  | cons l w ih =>
    obtain ⟨y, z, t, hy, hz, rfl⟩ := mem_append.mp h
    obtain ⟨c, hc, rfl, rfl⟩ := mem_char.mp hy
    obtain ⟨rfl, hlower⟩ := ih (fun m hm => hw m (List.mem_cons_of_mem l hm)) hz
    have hhead := Unicode.toLower_of_sameFold (hw l List.mem_cons_self) hc
    exact ⟨rfl, congrArg₂ List.cons hhead hlower⟩

/-- The first letter of a word that is read. -/
theorem head_of_mem_folded {l : Char} {w : List Char} (h : (x, r) ∈ folded (l :: w) s) :
    ∃ c t, s = c :: t ∧ Unicode.sameFold l c = true := by
  obtain ⟨y, z, t, hy, -, -⟩ := mem_append.mp h
  obtain ⟨c, hc, -, rfl⟩ := mem_char.mp hy
  exact ⟨c, t, rfl, hc⟩

theorem mem_upTo {f : Form (List Char)} {n : Nat} (h : (x, r) ∈ upTo f n s) :
    r = s ∨ ∃ y t, (y, t) ∈ f s := by
  cases n with
  | zero =>
    obtain ⟨-, rfl⟩ := Prod.mk.inj (List.mem_singleton.mp h)
    exact .inl rfl
  | succ n =>
    rcases List.mem_append.mp h with h | h
    · obtain ⟨⟨y, t⟩, hy, -⟩ := List.mem_flatMap.mp h
      exact .inr ⟨y, t, hy⟩
    · obtain ⟨-, rfl⟩ := Prod.mk.inj (List.mem_singleton.mp h)
      exact .inl rfl

/-- A repetition reads nothing, or its form fits. -/
theorem mem_star {f : Form (List Char)} (h : (x, r) ∈ star f s) : r = s ∨ ∃ y t, (y, t) ∈ f s :=
  mem_upTo h

end SchemaLint.Form

namespace SchemaLint.Sql

open Form

/-- What stands behind the head of a statement. -/
def Statement.body : Statement → List Char
  | update _ body => body
  | insert _ body => body
  | delete _ body => body
  | select body => body

/-- The form that a statement is read by. -/
def Statement.form : Statement → Form Statement
  | update _ _ => updateForm
  | insert _ _ => insertForm
  | delete _ _ => deleteForm
  | select _ => selectForm

variable {text table body r : List Char} {statement : Statement}

theorem mem_updateForm (h : (statement, r) ∈ updateForm text) :
    (∃ table body, statement = .update table body) ∧
      ∃ z t, (z, t) ∈ (word "UPDATE" ++ blanks1 ++ modifiers ["LOW_PRIORITY", "IGNORE"]) text := by
  obtain ⟨z, t, hz, h⟩ := mem_bind.mp h
  obtain ⟨table, t₁, -, h⟩ := mem_bind.mp h
  obtain ⟨-, t₂, -, h⟩ := mem_bind.mp h
  obtain ⟨body, t₃, -, h⟩ := mem_bind.mp h
  obtain ⟨rfl, -⟩ := mem_pure.mp h
  exact ⟨⟨table, body, rfl⟩, z, t, hz⟩

theorem mem_insertForm (h : (statement, r) ∈ insertForm text) :
    ∃ table body, statement = .insert table body := by
  obtain ⟨-, t, -, h⟩ := mem_bind.mp h
  obtain ⟨table, t₁, -, h⟩ := mem_bind.mp h
  obtain ⟨body, t₂, -, h⟩ := mem_bind.mp h
  obtain ⟨rfl, -⟩ := mem_pure.mp h
  exact ⟨table, body, rfl⟩

theorem mem_deleteForm (h : (statement, r) ∈ deleteForm text) :
    (∃ table body, statement = .delete table body) ∧
      ∃ z t, (z, t) ∈ (word "DELETE" ++ blanks1 ++ modifiers ["LOW_PRIORITY", "QUICK", "IGNORE"] ++
        word "FROM" ++ blanks1) text := by
  obtain ⟨z, t, hz, h⟩ := mem_bind.mp h
  obtain ⟨table, t₁, -, h⟩ := mem_bind.mp h
  obtain ⟨body, t₂, -, h⟩ := mem_bind.mp h
  obtain ⟨rfl, -⟩ := mem_pure.mp h
  exact ⟨⟨table, body, rfl⟩, z, t, hz⟩

theorem mem_selectForm (h : (statement, r) ∈ selectForm text) :
    ∃ body, statement = .select body := by
  obtain ⟨-, t, -, h⟩ := mem_bind.mp h
  obtain ⟨body, t₁, -, h⟩ := mem_bind.mp h
  obtain ⟨rfl, -⟩ := mem_pure.mp h
  exact ⟨body, rfl⟩

/-- A statement comes from one of the four forms. -/
theorem mem_of_read? (h : Statement.read? text = some statement) :
    ∃ r, (statement, r) ∈ updateForm text ∨ (statement, r) ∈ insertForm text ∨
      (statement, r) ∈ deleteForm text ∨ (statement, r) ∈ selectForm text := by
  rw [Statement.read?, Form.read?, Option.map_eq_some_iff] at h
  obtain ⟨⟨_, r⟩, hhead, rfl⟩ := h
  obtain ⟨f, hf, hmem⟩ := mem_oneOf.mp (List.mem_of_head? hhead)
  refine ⟨r, ?_⟩
  simp only [List.mem_cons, List.not_mem_nil, or_false] at hf
  rcases hf with rfl | rfl | rfl | rfl
  · exact .inl hmem
  · exact .inr (.inl hmem)
  · exact .inr (.inr (.inl hmem))
  · exact .inr (.inr (.inr hmem))

theorem mem_form_of_read? (h : Statement.read? text = some statement) :
    ∃ r, (statement, r) ∈ statement.form text := by
  obtain ⟨r, hmem⟩ := mem_of_read? h
  refine ⟨r, ?_⟩
  rcases hmem with hmem | hmem | hmem | hmem
  · obtain ⟨⟨_, _, rfl⟩, -⟩ := mem_updateForm hmem
    exact hmem
  · obtain ⟨_, _, rfl⟩ := mem_insertForm hmem
    exact hmem
  · obtain ⟨⟨_, _, rfl⟩, -⟩ := mem_deleteForm hmem
    exact hmem
  · obtain ⟨_, rfl⟩ := mem_selectForm hmem
    exact hmem

/-- An `UPDATE` begins with its verb and a blank. -/
theorem update_shape (h : Statement.read? text = some (.update table body)) :
    ∃ verb g rest, text = verb ++ g :: rest ∧ Text.lower verb = Text.lower "UPDATE".toList ∧
      Text.isBlank g = true := by
  obtain ⟨r, hmem⟩ := mem_form_of_read? h
  obtain ⟨-, z, t, hz⟩ := mem_updateForm hmem
  obtain ⟨y, m, t₁, hy, -, -⟩ := mem_append.mp hz
  obtain ⟨verb, gap, t₂, hverb, hgap, -⟩ := mem_append.mp hy
  obtain ⟨rfl, hlower⟩ := mem_folded (Unicode.plain_of_all (by decide)) hverb
  obtain ⟨rfl, hne, hblank⟩ := mem_run1 hgap
  obtain ⟨g, gap, rfl⟩ := List.exists_cons_of_ne_nil hne
  exact ⟨verb, g, gap ++ t₁, rfl, hlower, hblank g List.mem_cons_self⟩

/-- The modifiers of a `DELETE` are none or begin with a letter of their own. -/
theorem modifiers_shape {z s : List Char}
    (h : (z, r) ∈ modifiers ["LOW_PRIORITY", "QUICK", "IGNORE"] s) :
    r = s ∨ ∃ l t, s = l :: t ∧ (l.toLower = 'l' ∨ l.toLower = 'q' ∨ l.toLower = 'i') := by
  rcases mem_star h with rfl | ⟨y, t, hy⟩
  · exact .inl rfl
  · obtain ⟨w, b, u, hw, -, -⟩ := mem_append.mp hy
    obtain ⟨f, hf, hmem⟩ := mem_oneOf.mp hw
    simp only [List.map_cons, List.map_nil, List.mem_cons, List.not_mem_nil, or_false] at hf
    rcases hf with rfl | rfl | rfl
    · obtain ⟨c, t, rfl, hc⟩ := head_of_mem_folded (l := 'L') hmem
      exact .inr ⟨c, t, rfl, .inl (Unicode.toLower_of_sameFold (by decide) hc)⟩
    · obtain ⟨c, t, rfl, hc⟩ := head_of_mem_folded (l := 'Q') hmem
      exact .inr ⟨c, t, rfl, .inr (.inl (Unicode.toLower_of_sameFold (by decide) hc))⟩
    · obtain ⟨c, t, rfl, hc⟩ := head_of_mem_folded (l := 'I') hmem
      exact .inr ⟨c, t, rfl, .inr (.inr (Unicode.toLower_of_sameFold (by decide) hc))⟩

/-- Behind the blanks after its verb a `DELETE` has `FROM` or the first letter of a modifier. -/
theorem delete_shape (h : Statement.read? text = some (.delete table body)) :
    ∃ verb g gap tail, text = verb ++ (g :: gap ++ tail) ∧
      Text.lower verb = Text.lower "DELETE".toList ∧ (∀ c ∈ g :: gap, Text.isBlank c = true) ∧
      ((∃ v d rest, tail = v ++ d :: rest ∧ Text.lower v = Text.lower "FROM".toList ∧
          Text.isBlank d = true) ∨
        ∃ l rest, tail = l :: rest ∧ (l.toLower = 'l' ∨ l.toLower = 'q' ∨ l.toLower = 'i')) := by
  obtain ⟨r, hmem⟩ := mem_form_of_read? h
  obtain ⟨-, z, t, hz⟩ := mem_deleteForm hmem
  obtain ⟨z₁, after, t₁, hz₁, hafter, -⟩ := mem_append.mp hz
  obtain ⟨z₂, v, t₂, hz₂, hv, -⟩ := mem_append.mp hz₁
  obtain ⟨z₃, m, t₃, hz₃, hm, -⟩ := mem_append.mp hz₂
  obtain ⟨verb, gap, t₄, hverb, hgap, -⟩ := mem_append.mp hz₃
  obtain ⟨rfl, hlower⟩ := mem_folded (Unicode.plain_of_all (by decide)) hverb
  obtain ⟨rfl, hne, hblank⟩ := mem_run1 hgap
  obtain ⟨g, gap, rfl⟩ := List.exists_cons_of_ne_nil hne
  refine ⟨verb, g, gap, t₃, rfl, hlower, hblank, ?_⟩
  rcases modifiers_shape hm with rfl | hmodifier
  · obtain ⟨rfl, hfrom⟩ := mem_folded (Unicode.plain_of_all (by decide)) hv
    obtain ⟨rfl, hne', hblank'⟩ := mem_run1 hafter
    obtain ⟨d, after, rfl⟩ := List.exists_cons_of_ne_nil hne'
    exact .inl ⟨v, d, _, rfl, hfrom, hblank' d List.mem_cons_self⟩
  · exact .inr hmodifier

/-! ## What is left behind a head -/

theorem keeps_name : name.Keeps := by
  have hsegment : segment.Keeps :=
    ((keeps_char _).opt.append ((keeps_char _).append (keeps_span _))).append (keeps_char _).opt
  have hdot : dot.Keeps := (keeps_blanks.append (keeps_exact _)).append keeps_blanks
  exact hsegment.append (hdot.append hsegment).star

theorem keeps_words (ws : List String) : (oneOf (ws.map word)).Keeps := by
  refine keeps_oneOf fun f hf => ?_
  obtain ⟨w, -, rfl⟩ := List.mem_map.mp hf
  exact keeps_word w

theorem keeps_modifiers (ws : List String) : (modifiers ws).Keeps :=
  ((keeps_words ws).append keeps_blanks1).star

/-- A table and what stands behind it, after blanks. -/
theorem exists_of_tableForm {source table rest : List Char}
    (h : tableForm.read? source = some (table, rest)) :
    ∃ gap, source = gap ++ (table ++ rest) ∧ (table, rest) ∈ name (table ++ rest) := by
  obtain ⟨⟨a, r⟩, hhead, ha⟩ := Option.map_eq_some_iff.mp h
  obtain ⟨gap, t, rfl, -, h⟩ := keeps_blanks.mem_bind (List.mem_of_head? hhead)
  obtain ⟨name, t, rfl, hname, h⟩ := keeps_name.mem_bind h
  obtain ⟨left, u, hleft, h⟩ := mem_bind.mp h
  obtain ⟨rfl, -⟩ := mem_pure.mp h
  obtain ⟨rfl, -⟩ := Prod.mk.inj (List.mem_singleton.mp hleft)
  obtain ⟨rfl, rfl⟩ := Prod.mk.inj ha
  exact ⟨gap, rfl, hname⟩

/-- A form reads statements whose bodies are what is left behind their heads. -/
def LeavesBody (f : Form Statement) : Prop :=
  ∀ s a r, (a, r) ∈ f s → a.body <:+ s

section LeavesBody

variable {make : List Char → Statement} {g : List Char → Form Statement} {f : Form (List Char)}

theorem leavesBody_rest (hmake : ∀ x, (make x).body = x) :
    LeavesBody (do return make (← rest)) := by
  intro s a r h
  obtain ⟨x, u, hx, h⟩ := mem_bind.mp h
  obtain ⟨rfl, -⟩ := mem_pure.mp h
  obtain ⟨rfl, -⟩ := Prod.mk.inj (List.mem_singleton.mp hx)
  exact ⟨[], hmake x⟩

theorem LeavesBody.bind (hf : f.Keeps) (hg : ∀ x, LeavesBody (g x)) : LeavesBody (f >>= g) := by
  intro s a r h
  obtain ⟨x, t, rfl, -, h⟩ := hf.mem_bind h
  exact (hg x t a r h).trans (List.suffix_append x t)

/-- A verb with its modifiers, a table, and all that is left. -/
theorem leavesBody_verb (hf : f.Keeps) {make : List Char → List Char → Statement}
    (hmake : ∀ table x, (make table x).body = x) :
    LeavesBody (do
      let _ ← f
      let table ← name
      return make table (← rest)) :=
  .bind hf fun _ => .bind keeps_name fun table => leavesBody_rest (hmake table)

end LeavesBody

theorem leavesBody_update : LeavesBody updateForm := by
  have hverb := ((keeps_word "UPDATE").append keeps_blanks1).append
    (keeps_modifiers ["LOW_PRIORITY", "IGNORE"])
  have hother : otherName.Keeps :=
    (keeps_blanks1.append ((keeps_word "AS").append keeps_blanks1).opt).append
      ((keeps_char _).append (keeps_span _))
  have hset := ((hother.opt.append keeps_blanks1).append (keeps_word "SET")).append keeps_blanks1
  exact .bind hverb fun _ => .bind keeps_name fun table => .bind hset fun _ =>
    leavesBody_rest fun _ => rfl

theorem leavesBody_insert : LeavesBody insertForm := by
  have hwords := keeps_words ["INSERT", "REPLACE"]
  exact leavesBody_verb ((((hwords.append keeps_blanks1).append (keeps_modifiers
    ["LOW_PRIORITY", "DELAYED", "HIGH_PRIORITY", "IGNORE"])).append (keeps_word "INTO")).append
    keeps_blanks1) fun _ _ => rfl

theorem leavesBody_delete : LeavesBody deleteForm :=
  leavesBody_verb (((((keeps_word "DELETE").append keeps_blanks1).append (keeps_modifiers
    ["LOW_PRIORITY", "QUICK", "IGNORE"])).append (keeps_word "FROM")).append keeps_blanks1)
    fun _ _ => rfl

theorem leavesBody_select : LeavesBody selectForm :=
  .bind ((keeps_word "SELECT").append keeps_blanks1) fun _ => leavesBody_rest fun _ => rfl

/-- What is read as a statement ends with its body. -/
theorem Statement.body_suffix (h : read? text = some statement) : statement.body <:+ text := by
  obtain ⟨r, h⟩ := mem_of_read? h
  rcases h with h | h | h | h
  · exact leavesBody_update _ _ _ h
  · exact leavesBody_insert _ _ _ h
  · exact leavesBody_delete _ _ _ h
  · exact leavesBody_select _ _ _ h

end SchemaLint.Sql
