import SchemaLint.Proofs.Balance.Partner

/-!
# Segments of a text

A text cut at a separator outside quotes and brackets is its segments with the separator between them,
and each segment, taken as a text of its own, has the marks that it has inside of the whole
(`segments_read_alone`). The whole may close brackets that it never opened and may end inside of a
quote: all that counts is that a reader behind a separator knows what he knew in front of the text. That
holds of every separator but an opening bracket, behind which he is one level deeper
(`Nesting.next_eq_start_of_isTop`); behind a closing bracket he may have come out of one.

Blanks change nothing for a reader outside of quotes, so a trimmed segment hides the separator as the
segment does, and is its only piece when it is split again.
-/

namespace SchemaLint

open Nesting Text

/-- The mark of a character outside quotes and brackets. -/
def Mark.atTop (c : Char) : Mark :=
  { ch := c, depth := 0, quoted := false }

namespace Nesting

variable {n : Nesting} {sep c : Char} {before : Option Char} {s p : List Char}
  {ps : List (List Char)}

/-- Behind a character outside quotes and brackets that opens no bracket everything is as it was at
the start. -/
theorem next_eq_start_of_isTop (hn : n.quote = none → n.escaped = false) (hc : isOpener c = false)
    (htop : (n.mark c).isTop = true) : n.next c = start ∧ n.mark c = Mark.atTop c := by
  rw [Mark.isTop, Bool.and_eq_true, beq_iff_eq, Bool.not_eq_true'] at htop
  obtain ⟨hdepth, hquoted⟩ := htop
  have hquote := quote_eq_none_of_mark hquoted
  have hescaped := hn hquote
  cases n with
  | mk depth quote escaped =>
    subst hquote hescaped
    unfold mark next start Mark.atTop at *
    grind

/-- A text as segments with a separator between them, for a reader in front of it: the first segment
has the marks that it has for him, every other one those of a text of its own, and in none of them the
separator stands outside quotes and brackets. -/
structure CutInto (n : Nesting) (sep : Char) (s p : List Char) (ps : List (List Char)) : Prop where
  text_eq : s = [sep].intercalate (p :: ps)
  marks_eq : n.marks s = [Mark.atTop sep].intercalate (n.marks p :: ps.map SchemaLint.marks)
  hides_first : ∀ m ∈ n.marks p, m.isTop = true → (m.ch == sep) = false
  hides_later : ∀ q ∈ ps, Hides (· == sep) q

namespace CutInto

theorem nil : n.CutInto sep [] [] [] := by
  constructor <;> simp [marks]

/-- The reader stands at a separator. -/
theorem cut (hn : n.quote = none → n.escaped = false) (hsep : isOpener sep = false)
    (htop : (n.mark sep).isTop = true) (h : start.CutInto sep s p ps) :
    n.CutInto sep (sep :: s) [] (p :: ps) := by
  obtain ⟨hnext, hmark⟩ := next_eq_start_of_isTop hn hsep htop
  refine ⟨?_, ?_, by simp [marks], ?_⟩
  · rw [List.intercalate_cons_cons, ← h.text_eq]
    rfl
  · have hs : start.marks s =
        [Mark.atTop sep].intercalate ((p :: ps).map SchemaLint.marks) := h.marks_eq
    simp only [marks, hmark, hnext]
    rw [hs, List.map_cons, List.intercalate_cons_cons]
    rfl
  · exact List.forall_mem_cons.mpr ⟨h.hides_first, h.hides_later⟩

theorem cons (hc : (n.mark c).isTop = true → (c == sep) = false) (h : (n.next c).CutInto sep s p ps) :
    n.CutInto sep (c :: s) (c :: p) ps := by
  refine ⟨?_, ?_, ?_, h.hides_later⟩
  · rw [h.text_eq]
    cases ps <;> simp
  · rw [marks, h.marks_eq, marks]
    cases ps <;> simp
  · rw [marks, List.forall_mem_cons, mark_ch]
    exact ⟨hc, h.hides_first⟩

end CutInto

theorem cutInto_of_parts (hn : n.quote = none → n.escaped = false) (hsep : isOpener sep = false)
    (h : n.parts (standsAt sep) before s = p :: ps) : n.CutInto sep s p (ps.map (·.drop 1)) := by
  induction s generalizing n before p ps with
  | nil =>
    obtain ⟨rfl, rfl⟩ := List.cons.inj h
    exact .nil
  | cons c s ih =>
    obtain ⟨q, qs, hparts⟩ := List.exists_cons_of_ne_nil
      (parts_ne_nil_from (standsAt sep) (n.next c) (some c) s)
    have hrest := ih (escaped_next hn c) hparts
    rw [Nesting.parts, hparts, consHead] at h
    split at h
    · next hhere =>
      simp only [standsAt, List.head?_cons, Option.some_beq_some, Bool.and_eq_true, beq_iff_eq] at hhere
      obtain ⟨htop, rfl⟩ := hhere
      obtain ⟨rfl, rfl⟩ := List.cons.inj h
      rw [(next_eq_start_of_isTop hn hsep htop).1] at hrest
      exact .cut hn hsep htop hrest
    · next hhere =>
      obtain ⟨rfl, rfl⟩ := List.cons.inj h
      refine .cons (fun htop => ?_) hrest
      simpa [standsAt, htop] using hhere

end Nesting

section Split

variable {sep : Char} {s x : List Char}

theorem Hides.of_blank_append {p : Char → Bool} {gap : List Char} (hgap : ∀ c ∈ gap, isBlank c = true)
    (h : Hides p (gap ++ s)) : Hides p s := by
  have hafter : start.after gap = start := (Balanced.of_blank hgap).after_eq 0
  intro m hm
  apply h m
  rw [SchemaLint.marks, marks_append, hafter]
  exact List.mem_append_right _ hm

theorem Hides.trim {p : Char → Bool} (h : Hides p s) : Hides p (trim s) := by
  obtain ⟨gap, gap', hgap, -, hs⟩ := exists_append_trim s
  rw [hs, List.append_assoc] at h
  exact (h.of_blank_append hgap).of_append

/-- A text is segments with the separator between them. The marks of the text are the marks that the
segments have as texts of their own, with those of the separators between them, which are outside
quotes and brackets, and no other separator is. Splitting the text gives the segments, trimmed and the
blank ones dropped, and splitting one of them again gives that one alone. -/
theorem segments_read_alone (hsep : isOpener sep = false) (s : List Char) :
    (∃ segs : List (List Char), segs ≠ [] ∧ s = [sep].intercalate segs ∧
      marks s = [Mark.atTop sep].intercalate (segs.map marks) ∧
      (∀ seg ∈ segs, Hides (· == sep) seg) ∧
      splitTop sep s = (segs.map trim).filter (!·.isEmpty)) ∧
    ∀ x ∈ splitTop sep s, splitTop sep x = [x] := by
  obtain ⟨p, ps, hparts⟩ := List.exists_cons_of_ne_nil (parts_ne_nil (standsAt sep) s)
  have hcut := cutInto_of_parts (n := start) (fun _ => rfl) hsep hparts
  have hsegments : segments sep s = p :: ps.map (·.drop 1) := by rw [segments, hparts]
  have hhides : ∀ seg ∈ segments sep s, Hides (· == sep) seg := by
    rw [hsegments]
    exact List.forall_mem_cons.mpr ⟨hcut.hides_first, hcut.hides_later⟩
  refine ⟨⟨segments sep s, segments_ne_nil sep s, ?_, ?_, hhides, rfl⟩, fun x hx => ?_⟩
  · rw [hsegments]
    exact hcut.text_eq
  · rw [hsegments]
    exact hcut.marks_eq
  · obtain ⟨hmem, hne⟩ := List.mem_filter.mp hx
    obtain ⟨seg, hseg, rfl⟩ := List.mem_map.mp hmem
    have htrim := (trimmed_trim seg).trim_eq
    rw [splitTop_of_hides (hhides seg hseg).trim, htrim]
    simpa [htrim] using hne

/-- A closing bracket as separator, of which one closes a bracket, one closes nothing and one is quoted;
the quote is not closed. -/
theorem segments_read_alone_closing :
    let s := "f(é) g ) \\, 'h\\')".toList
    isOpener ')' = false ∧ splitTop ')' s = ["f(é".toList, "g".toList, "\\, 'h\\')".toList] ∧
      ∀ x ∈ splitTop ')' s, splitTop ')' x = [x] := by
  intro s
  exact ⟨rfl, by decide, (segments_read_alone rfl s).2⟩

end Split

end SchemaLint
