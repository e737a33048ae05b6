import SchemaLint.Program
import SchemaLint.Proofs.Ancestry.Requests
import SchemaLint.Proofs.File.Map

/-!
# Steps that change no file

On a host whose files are a map, nothing that the program does to find its configuration and its
input changes a file, however it ends: what locates the sources of classes (`Locator.locate_keeps`),
what asks for them (`Inquiry.pursue_keeps`), and what loads the configuration (`loadConfig_keeps`).
-/

namespace SchemaLint

variable {σ γ : Type}

/-! ## Finding the sources of classes -/

/-- Asking keeps what locating a source keeps. -/
theorem Inquiry.pursue_keeps {R : σ → σ → Prop} [IsPreorder σ R]
    {locate : String → StateM σ (Option String)} (hlocate : ∀ name, Keeps R (locate name))
    (maxAttempts : Nat) (q : Inquiry) : Keeps R (q.pursue locate maxAttempts) := by
  induction q using (wellFounded_follows maxAttempts).induction with
  | _ q ih =>
    cases hrequest : q.request? with
    | none =>
      rw [pursue_of_not_request hrequest]
      exact .pure _
    | some name =>
      rw [pursue_of_request hrequest]
      split
      · next hmax =>
        exact (hlocate name).bind fun source => ih _ ⟨name, source, hrequest, hmax, rfl⟩
      · exact .pure _

theorem AncestorWalk.resolve_keeps {R : σ → σ → Prop} [IsPreorder σ R]
    {locate : String → StateM σ (Option String)} (hlocate : ∀ name, Keeps R (locate name))
    (source : String) (maxDepth maxAttempts : Nat) :
    Keeps R (resolve locate source maxDepth maxAttempts) :=
  (Inquiry.pursue_keeps hlocate maxAttempts _).bind fun _ => .pure _

variable {h : Host (StateM σ)} {cwd : Place} {ofText : String → γ} {file? : σ → Place → Option γ}
  (hh : h.IsMap cwd ofText file?)

include hh

namespace Locator

theorem firstDeclaring_keeps (name : String) (paths : List String) :
    Keeps (SameFiles file?) (firstDeclaring h.files name paths) := by
  induction paths with
  | nil => exact .pure _
  | cons path paths ih =>
    refine (hh.read_keeps path).bind fun outcome => ?_
    cases outcome with
    | error e => exact ih
    | ok source => exact .ite (.pure _) ih

theorem search_keeps (name : String) (dirs : List String) :
    Keeps (SameFiles file?) (search h.files name dirs) := by
  induction dirs with
  | nil => exact .pure _
  | cons dir dirs ih =>
    refine (hh.filesBelow_keeps dir).bind fun paths => ?_
    refine (firstDeclaring_keeps hh name _).bind fun found => ?_
    cases found with
    | none => exact ih
    | some source => exact .pure _

theorem ask_keeps (name : String) (more : Nat) : Keeps (SameFiles file?) (ask h name more) := by
  induction more with
  | zero => exact .pure _
  | succ more ih =>
    refine (hh.tell_keeps _).bind fun _ => hh.readLine_keeps.bind fun line => ?_
    cases line with
    | none => exact .pure _
    | some line =>
      refine .ite (.pure _) ((hh.read_keeps _).bind fun outcome => ?_)
      cases outcome with
      | ok source => exact .pure _
      | error e => exact (hh.tell_keeps _).bind fun _ => ih

theorem locate_keeps (l : Locator) (name : String) :
    Keeps (SameFiles file?) (l.locate h name) := by
  refine (search_keeps hh name _).bind fun found => ?_
  cases found with
  | some source => exact .pure _
  | none => exact .ite (ask_keeps hh name _) (.pure _)

end Locator

namespace Program

variable {α ε : Type}

omit hh in
theorem attempt_keeps {R : σ → σ → Prop} [IsPreorder σ R] {action : StateM σ (Except ε α)}
    (haction : Keeps R action) (why : ε → Failure) : Keeps R (attempt why action).run :=
  haction.bind fun _ => .pure _

theorem ofFile_keeps (root path : String) :
    Keeps (SameFiles file?) (Config.ofFile h.files root path) := by
  refine (hh.read_keeps path).bind fun outcome => ?_
  cases outcome with
  | error e => exact .pure _
  | ok document =>
    dsimp only
    split
    · exact .pure _
    · exact .pure _

theorem loadConfig_keeps (named : Option String) (isVerbose : Bool) :
    Keeps (SameFiles file?) (loadConfig h named isVerbose).run := by
  refine hh.cwd_keeps.run_lift.run_bind fun root => ?_
  cases named with
  | some path => exact attempt_keeps (ofFile_keeps hh root path) _
  | none =>
    refine (hh.isPresent_keeps _).run_lift.run_bind fun found => ?_
    cases found with
    | true => exact attempt_keeps (ofFile_keeps hh root _) _
    | false =>
      cases isVerbose with
      | true => exact (hh.tell_keeps _).run_lift.run_bind fun _ => .pure _
      | false => exact .pure _

end Program

end SchemaLint
