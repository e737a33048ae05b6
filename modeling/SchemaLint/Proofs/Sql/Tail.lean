import SchemaLint.Proofs.Balance.Cut
import SchemaLint.Proofs.Shell.Document
import SchemaLint.Proofs.Skip

/-!
# Texts behind a list

A text put behind a list goes into the last item of the list, up to the first comma of the text
(`upToComma`); what comes behind that comma (`behindComma`) is split like any other list
(`splitTop_eq`, `Shell.splitTop_separated_append`). Whole statements (`Whole`) may be put together with
a blank between them, and are still read to their end.
-/

namespace SchemaLint

open Nesting Text
open Shell (IsItem Spacing separated)

/-! ## The first comma -/

/-- What stands in front of the first comma outside quotes and brackets. -/
def upToComma (t : List Char) : List Char :=
  ((cutAtTop? ',' t).map (·.1)).getD t

/-- What stands behind the first comma outside quotes and brackets. -/
def behindComma (t : List Char) : List Char :=
  ((cutAtTop? ',' t).map (·.2)).getD []

section Comma

variable {x s : List Char}

theorem upToComma_append (hafter : start.after x = start) (hx : Hides (· == ',') x) (t : List Char) :
    upToComma (x ++ t) = x ++ upToComma t := by
  unfold upToComma
  rw [cutAtTop?_hidden_append hafter hx]
  cases cutAtTop? ',' t <;> rfl

theorem behindComma_append (hafter : start.after x = start) (hx : Hides (· == ',') x)
    (t : List Char) : behindComma (x ++ t) = behindComma t := by
  unfold behindComma
  rw [cutAtTop?_hidden_append hafter hx]
  cases cutAtTop? ',' t <;> rfl

/-- Words with blanks between them are closed and hide commas. -/
theorem closed_words (h : ∀ c ∈ x, isIdentChar c = true ∨ c = ' ') :
    Balanced x ∧ Hides (· == ',') x := by
  have hchar : ∀ c ∈ x, isPlain c = true ∧ c ≠ ',' := by
    intro c hc
    rcases h c hc with hident | rfl
    · refine ⟨isPlain_of_isIdentChar hident, ?_⟩
      rintro rfl
      exact absurd hident (by decide)
    · decide
  exact ⟨.of_plain fun c hc => (hchar c hc).1,
    .of_forall fun c hc => beq_eq_false_iff_ne.mpr (hchar c hc).2⟩

theorem upToComma_keyword {w : String} (hw : IsKeyword w) (k : Cased w) (r : List Char) :
    upToComma (k.text ++ ' ' :: r) = k.text ++ ' ' :: upToComma r := by
  obtain ⟨hbalanced, hhides⟩ := closed_words (x := k.text ++ [' ']) fun c hc =>
    (List.mem_append.mp hc).imp (k.isIdentChar_of_mem hw c) List.mem_singleton.mp
  have happend := upToComma_append (hbalanced.after_eq 0) hhides r
  rwa [List.append_assoc, List.append_assoc] at happend

/-- A list is its first item and what stands behind the first comma. -/
theorem splitTop_eq (h : trim (upToComma s) ≠ []) :
    splitTop ',' s = trim (upToComma s) :: splitTop ',' (behindComma s) := by
  unfold upToComma behindComma at *
  cases hcut : firstCut? (standsAt ',') s with
  | none =>
    have hhides := hides_of_clear (firstCut?_eq_none_iff.mp hcut)
    rw [cutAtTop?, hcut] at h ⊢
    exact splitTop_of_hides hhides h
  | some cut =>
    obtain ⟨p, q⟩ := cut
    obtain ⟨t, rfl, rfl, hafter, hhides⟩ := exists_of_firstCut?_standsAt (by decide) hcut
    rw [cutAtTop?, hcut] at h ⊢
    have hp : trim p ≠ [] := h
    rw [splitTop, segments_append_sep (by decide) hafter hhides, List.map_cons,
      List.filter_cons_of_pos (by simpa using hp)]
    rfl

/-- The first item of a list stands in front of the first comma, and the others behind it. -/
theorem first_separated (sp : Spacing) (hx : IsItem x) {xs : List (List Char)}
    (hxs : ∀ y ∈ xs, IsItem y) :
    (∃ gap, (∀ c ∈ gap, isBlank c = true) ∧ upToComma (separated sp (x :: xs)) = x ++ gap) ∧
      splitTop ',' (behindComma (separated sp (x :: xs))) = xs := by
  have hafter : start.after x = start := hx.balanced.after_eq 0
  cases xs with
  | nil =>
    have hup := upToComma_append hafter hx.hides_comma []
    have hbehind := behindComma_append hafter hx.hides_comma []
    rw [List.append_nil] at hup hbehind
    exact ⟨⟨[], by simp, hup⟩, congrArg (splitTop ',') hbehind⟩
  | cons y ys =>
    have hbefore := Balanced.of_blank sp.isBlank_before
    have hclosed : start.after (x ++ sp.before) = start := (hx.balanced.append hbefore).after_eq 0
    have hhides : Hides (· == ',') (x ++ sp.before) :=
      hx.hides_comma.append hx.balanced (.of_blank sp.isBlank_before (by decide))
    have hcomma : ∀ r, upToComma (',' :: r) = [] ∧ behindComma (',' :: r) = r := by
      intro r
      have hcut : cutAtTop? ',' ([] ++ ',' :: r) = some ([], r) :=
        cutAtTop?_append (by decide) .nil (.of_forall (by simp)) r
      rw [List.nil_append] at hcut
      rw [upToComma, behindComma, hcut]
      exact ⟨rfl, rfl⟩
    rw [Shell.separated_cons sp x (List.cons_ne_nil y ys), upToComma_append hclosed hhides,
      behindComma_append hclosed hhides, (hcomma _).1, (hcomma _).2, List.append_nil]
    have hsplit := Shell.splitTop_separated sp hxs sp.isBlank_after isBlank_nil
    rw [List.append_nil] at hsplit
    exact ⟨⟨sp.before, sp.isBlank_before, rfl⟩, hsplit⟩

end Comma

/-! ## Whole statements -/

/-- A text that is all of the statement on its line. -/
structure Whole (s : List Char) : Prop where
  skipped : statementEndsAt.Skips s
  trimmed : Trimmed s
  ne_nil : s ≠ []

instance (s : List Char) : Decidable (Whole s) :=
  decidable_of_iff (statementEndsAt.Skips s ∧ Trimmed s ∧ s ≠ [])
    ⟨fun h => ⟨h.1, h.2.1, h.2.2⟩, fun h => ⟨h.skipped, h.trimmed, h.ne_nil⟩⟩

theorem Phrase.whole {ws : List String} {s : List Char} (h : Phrase ws s) : Whole s :=
  ⟨within_statementEndsAt.skips_of_lacks (h.mono (List.nil_subset ws)).lacks, h.trimmed, h.ne_nil⟩

namespace Whole

variable {s t : List Char}

theorem spaced (hs : Whole s) (ht : Whole t) : Whole (s ++ ' ' :: t) :=
  ⟨hs.skipped.spaced within_statementEndsAt endsAtBlank_statementEndsAt (by decide) ht.skipped,
    hs.trimmed.spaced ht.trimmed hs.ne_nil ht.ne_nil, by simp⟩

theorem statementOf_eq (hs : Whole s) : statementOf s = s := by
  rw [SchemaLint.statementOf_eq, beforeEnd, hs.skipped.firstCut?_eq]
  exact hs.trimmed.trim_eq

end Whole

end SchemaLint
