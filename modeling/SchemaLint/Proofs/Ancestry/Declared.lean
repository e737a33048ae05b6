import SchemaLint.Proofs.Ancestry.Inheritance

/-!
# Sources that declare several classes

A source declares the classes of all its class declarations (`ClassSource.declaredNames`), but only
the first of them names it (`ClassSource.outline_name`). So a source that declares the class a walk
waits for is taken exactly when it declares that class first
(`AncestorWalk.declaring_source_taken_iff_first`). A source that declares it behind another is
refused each time it is given, and a locator that knows no other source makes the walk be given up.
-/

namespace SchemaLint

namespace ClassSource

/-- The names of the classes that a source declares, nested ones included, in their order. -/
def declaredNames (source : String) : List String :=
  (Form.occurrences classDeclaration (code source)).map fun d => String.ofList d.name

theorem declares_iff {source name : String} :
    declares source name = true ↔ name ∈ declaredNames source := by
  rw [declares, declaredNames, List.any_eq_true, List.mem_map]
  constructor
  · rintro ⟨d, hd, hname⟩
    exact ⟨d, hd, by rw [beq_iff_eq.mp hname, String.ofList_toList]⟩
  · rintro ⟨d, hd, rfl⟩
    exact ⟨d, hd, by rw [String.toList_ofList, beq_iff_eq]⟩

/-- The first class declared names the source. -/
theorem outline_name (source : String) : (outline source).name = (declaredNames source).head? := by
  rw [declaredNames, List.head?_map]
  unfold outline
  dsimp only
  split
  · next hnone => rw [hnone]; rfl
  · next d hsome => rw [hsome]; rfl

end ClassSource

open ClassSource

namespace AncestorWalk

/-- A walk that was given the source of another class for the one it waits for so many times. -/
def refusing (w : AncestorWalk) (name first : String) (times : Nat) : AncestorWalk :=
  { w with warnings := w.warnings ++ List.replicate times (.mismatch name first) }

section Refusing

variable {w w' : AncestorWalk} {name first source : String}

theorem refusing_zero (w : AncestorWalk) (name first : String) : w.refusing name first 0 = w := by
  simp only [refusing, List.replicate_zero, List.append_nil]

theorem refusing_succ (w : AncestorWalk) (name first : String) (times : Nat) :
    (w.refusing name first 1).refusing name first times = w.refusing name first (times + 1) := by
  simp only [refusing, List.append_assoc, List.replicate_succ, List.replicate_zero,
    List.cons_append, List.nil_append]

/-- A source is refused when another class names it. -/
theorem Answered.eq_refusing (h : Answered w name (some source) w')
    (hfirst : (outline source).name = some first) (hne : first ≠ name) :
    w' = w.refusing name first 1 := by
  cases h with
  | parseFailed hname =>
    rw [hname] at hfirst
    cases hfirst
  | mismatch hname _ =>
    rw [Option.some.inj (hfirst.symm.trans hname)]
    rfl
  | taken hname _ => exact absurd (Option.some.inj (hfirst.symm.trans hname)) hne

theorem Absorbed.fields_eq {o : ClassOutline} (h : Absorbed w o w') :
    w'.fields = Field.merge w.fields o.fields := by
  cases h <;> rfl

/-- Taking a class notes no mismatch. -/
theorem Absorbed.mem_mismatch {o : ClassOutline} (h : Absorbed w o w') {expected found : String}
    (hmem : .mismatch expected found ∈ w'.warnings) : .mismatch expected found ∈ w.warnings := by
  cases h with
  | resolved _ => exact hmem
  | pending _ _ => exact hmem
  | cycle _ _ =>
    rcases List.mem_append.mp hmem with hmem | hmem
    · exact hmem
    · cases List.mem_singleton.mp hmem

theorem next_of_awaiting (h : w.state = .awaiting name) : w.next = w := by
  simp only [next, h]

end Refusing

end AncestorWalk

namespace Inquiry

open AncestorWalk

variable {m : Type → Type} [Monad m] [LawfulMonad m] {locate : String → m (Option String)}
  {maxAttempts : Nat} {name first source : String}

/-- A locator that has nothing but a source of another class is asked as often as possible. -/
theorem pursue_of_name_ne (hlocate : locate name = pure (some source))
    (hfirst : (outline source).name = some first) (hne : first ≠ name) (q : Inquiry)
    (hrequest : q.request? = some name) :
    q.pursue locate maxAttempts = pure
      (q.walk.next.refusing name first (maxAttempts + 1 - q.attemptsFor name)).abort := by
  -- The walk stays where it is, so that all that an attempt leaves behind is one warning more.
  induction hleft : maxAttempts + 1 - q.attemptsFor name generalizing q with
  | zero => rw [pursue_of_request hrequest, if_neg (by omega), refusing_zero]
  | succ left ih =>
    have hawaiting : q.walk.next.state = .awaiting name := request?_eq_some.mp hrequest
    have hrefused : (q.answered name (some source)).walk = q.walk.next.refusing name first 1 :=
      (answered_walk hrequest (some source)).eq_refusing hfirst hne
    have hagain : (q.answered name (some source)).walk.next = q.walk.next.refusing name first 1 := by
      rw [hrefused]
      exact next_of_awaiting hawaiting
    have hsame : (q.answered name (some source)).request? = some name := by
      rw [request?, hagain, request?_eq_some]
      exact hawaiting
    have hattempts : (q.answered name (some source)).attemptsFor name = q.attemptsFor name + 1 :=
      attemptsFor_answered_self (some source)
    rw [pursue_of_request hrequest, if_pos (by omega), hlocate, pure_bind, ih _ hsame (by omega),
      hagain, refusing_succ]

end Inquiry

namespace AncestorWalk

/-- A walk that waits for a class is given a source that declares the class. If the source declares
it first, the class is taken and no mismatch is noted. If it declares it behind another, the source
is refused as a source of the other class, and nothing else happens; a locator that gives no other
source is asked again until there are no attempts left, each is noted as a mismatch, and the walk is
given up before the class. -/
theorem declaring_source_taken_iff_first (w : AncestorWalk) (name source : String)
    (hawaiting : w.state = .awaiting name) (hdeclares : declares source name = true) :
    ∃ first rest, declaredNames source = first :: rest ∧
      (first = name →
        (w.supply (some source)).ancestors = w.ancestors ++ [name] ∧
        (w.supply (some source)).fields = Field.merge w.fields (outline source).fields ∧
        ∀ expected found, .mismatch expected found ∈ (w.supply (some source)).warnings →
          .mismatch expected found ∈ w.warnings) ∧
      (first ≠ name →
        w.supply (some source) = { w with warnings := w.warnings ++ [.mismatch name first] } ∧
        ∀ (locate : String → Id (Option String)) (maxAttempts : Nat), locate name = some source →
          let q : Inquiry := { walk := w, current := none, attempts := 0 }
          q.pursue locate maxAttempts = (w.refusing name first maxAttempts).skip name .cancelled) := by
  obtain ⟨first, rest, hnames⟩ := List.exists_cons_of_ne_nil
    (List.ne_nil_of_mem (declares_iff.mp hdeclares))
  have hfirst : (outline source).name = some first := by rw [outline_name, hnames, List.head?_cons]
  have hanswered := answered_supply hawaiting (some source)
  refine ⟨first, rest, hnames, ?_, ?_⟩
  · rintro rfl
    have habsorbed := hanswered.absorbed (outlineOf?_of_name hfirst)
    exact ⟨habsorbed.ancestors_eq, habsorbed.fields_eq, fun _ _ hmem => habsorbed.mem_mismatch hmem⟩
  · intro hne
    refine ⟨hanswered.eq_refusing hfirst hne, ?_⟩
    intro locate maxAttempts hlocate q
    have hnext : q.walk.next = w := next_of_awaiting hawaiting
    have hrequest : q.request? = some name := by
      rw [Inquiry.request?, hnext, request?_eq_some]
      exact hawaiting
    have hattempts : q.attemptsFor name = 1 := if_neg (Option.some_ne_none name).symm
    rw [Inquiry.pursue_of_name_ne hlocate hfirst hne q hrequest, hnext, hattempts,
      Nat.add_sub_cancel]
    exact abort_of_named (by rw [refusing, hawaiting]; rfl)

/-- A class that is declared behind a helper is not taken from the source that declares it. -/
theorem declared_behind_helper_refused :
    let source := "class Helper \x7b\x7d class Base \x7b private int x; \x7d"
    let w := (start "class A extends Base \x7b\x7d" 32).next
    w.state = .awaiting "Base" ∧ declares source "Base" = true ∧
      (w.supply (some source)).warnings = [.mismatch "Base" "Helper"] := by
  intro source w
  have hawaiting : w.state = .awaiting "Base" := by decide +kernel
  have hdeclares : declares source "Base" = true := by decide +kernel
  have hnames : declaredNames source = ["Helper", "Base"] := by decide +kernel
  have hwarnings : w.warnings = [] := by decide +kernel
  clear_value source w
  obtain ⟨first, rest, hfirst, -, hrefused⟩ :=
    declaring_source_taken_iff_first w "Base" source hawaiting hdeclares
  obtain ⟨rfl, -⟩ := List.cons.inj (hnames.symm.trans hfirst)
  refine ⟨hawaiting, hdeclares, ?_⟩
  rw [(hrefused (by decide)).1, hwarnings, List.nil_append]

end AncestorWalk

end SchemaLint
