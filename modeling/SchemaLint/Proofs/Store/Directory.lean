import SchemaLint.Proofs.File.Map
import SchemaLint.Store.Directory
import SchemaLint.Store.Memory

/-!
# Directories as memories

Every key that has a file has one of its own in the directory (`DirectoryStore.place_path`), so a
directory mirrors a memory (`Mirrors`): a call with such a key is answered alike by both and changes
no other file (`Mirrors.call`), and a call with another key is refused and changes nothing at all. Over
a fresh directory this holds after any calls (`answers_as_memory`).
-/

namespace SchemaLint

namespace DirectoryStore

/-! ## The files of keys -/

section Keys

variable {key key' : String}

theorem isName_file (h : isKey key = true) : Path.IsName (key ++ ".json") := by
  have hall : ∀ c ∈ key.toList, isKeyChar c = true := by
    rw [isKey, Bool.and_eq_true] at h
    exact List.all_eq_true.mp h.2
  have hlength : 5 ≤ (key ++ ".json").length := by
    rw [String.length_append]
    exact Nat.le_add_left 5 key.length
  refine ⟨fun hslash => ?_, ?_, ?_, ?_⟩
  · rw [String.toList_append, List.mem_append] at hslash
    rcases hslash with hkey | hend
    · exact absurd (hall '/' hkey) (by decide)
    · exact absurd hend (by decide)
  all_goals
    intro heq
    rw [heq] at hlength
    exact absurd hlength (by decide)

/-- The file of a key is in the directory. -/
theorem place_path (cwd : Place) (dir : String) (h : isKey key = true) :
    Path.place cwd (path dir key) = Path.place cwd dir ++ [key ++ ".json"] :=
  Path.place_join cwd dir (isName_file h)

/-- No two keys share a file, not even in different directories. -/
theorem place_path_ne (cwd : Place) (dir dir' : String) (h : isKey key = true)
    (h' : isKey key' = true) (hne : key ≠ key') :
    Path.place cwd (path dir key) ≠ Path.place cwd (path dir' key') := by
  rw [place_path cwd dir h, place_path cwd dir' h']
  intro heq
  have hfile : key ++ ".json" = key' ++ ".json" :=
    List.singleton_inj.mp (List.append_inj_right' heq rfl)
  exact hne (String.append_left_inj ".json" |>.mp hfile)

end Keys

/-! ## What the operations of a directory do to the files -/

section Files

variable {σ γ : Type} {fs : FileSystem (StateM σ)} {cwd : Place} {ofText : String → γ}
  {file? : σ → Place → Option γ} (h : fs.IsMap cwd ofText file?) {s : σ} {dir key text : String}

include h

theorem load_keeps : Keeps (SameFiles file?) (load fs dir key) := by
  unfold load
  split
  · refine (h.read_keeps _).bind fun outcome => ?_
    split
    · exact .pure _
    · exact .pure _
    · exact .pure _
  · exact .pure _

/-- Nothing is loaded only where there is nothing. -/
theorem load_none (hnone : ((load fs dir key).run s).1 = .ok none) :
    file? s (Path.place cwd (path dir key)) = none := by
  unfold load at hnone
  split at hnone
  · refine h.read_notFound ?_
    cases houtcome : ((fs.read (path dir key)).run s).1 with
    | ok text =>
      rw [run_bind_of_eq houtcome] at hnone
      cases hnone
    | error e =>
      rw [run_bind_of_eq houtcome] at hnone
      cases e with
      | notFound => rfl
      | _ => cases hnone
  · cases hnone

theorem save_keeps : KeepsOnError (SameFiles file?) (save fs dir key text) := by
  unfold save
  split
  · refine .bind (h.makeDirectories_keeps dir) fun outcome => ?_
    cases outcome with
    | error e => exact (Keeps.pure _).onError
    | ok _ => exact (h.write_keeps _ text).mapError _
  · exact (Keeps.pure _).onError

theorem save_ok (hok : ((save fs dir key text).run s).1 = .ok ()) :
    file? ((save fs dir key text).run s).2 =
      Function.update (file? s) (Path.place cwd (path dir key)) (some (ofText text)) := by
  have hmade : file? ((fs.makeDirectories dir).run s).2 = file? s := h.makeDirectories_keeps dir s
  unfold save at hok ⊢
  split at hok
  · next hkey =>
    rw [if_pos hkey]
    cases hmake : ((fs.makeDirectories dir).run s).1 with
    | error e =>
      rw [run_bind_of_eq hmake] at hok
      cases hok
    | ok _ =>
      rw [run_bind_of_eq hmake] at hok ⊢
      cases hwrite : ((fs.write (path dir key) text).run ((fs.makeDirectories dir).run s).2).1 with
      | error e =>
        rw [run_mapError, hwrite] at hok
        cases hok
      | ok _ =>
        rw [← hmade]
        exact h.write_ok hwrite
  · cases hok

end Files

end DirectoryStore

/-! ## Calls of backends -/

/-- What may be asked of a backend. -/
inductive StoreCall where
  | load (key : String)
  | save (key text : String)
  | remove (key : String)
  deriving DecidableEq, Repr

/-- The key that a call is about. -/
def StoreCall.key : StoreCall → String
  | load key => key
  | save key _ => key
  | remove key => key

namespace Backend

/-- What a backend answers to a call: a text only if one is loaded. -/
def call {m : Type → Type} [Monad m] (b : Backend m) :
    StoreCall → m (Except StoreError (Option String))
  | .load key => b.load key
  | .save key text => return (← b.save key text).map fun _ => none
  | .remove key => return (← b.remove key).map fun _ => none

/-- The state after calls one after the other. -/
def after {σ : Type} (b : Backend (StateM σ)) (s : σ) (calls : List StoreCall) : σ :=
  calls.foldl (fun s c => ((b.call c).run s).2) s

variable {σ : Type} (b : Backend (StateM σ)) (key text : String) (s : σ)

theorem run_call_save : (b.call (.save key text)).run s =
    (((b.save key text).run s).1.map fun _ => none, ((b.save key text).run s).2) :=
  rfl

theorem run_call_remove : (b.call (.remove key)).run s =
    (((b.remove key).run s).1.map fun _ => none, ((b.remove key).run s).2) :=
  rfl

end Backend

/-- What a memory that is not read-only answers, and what it is after the call. -/
theorem Memory.run_call {m : Memory} (h : m.isReadOnly = false) (c : StoreCall) :
    (Memory.backend.call c).run m = match c with
      | .load key => (.ok (m.text? key), m)
      | .save key text => (.ok none, m.put key text)
      | .remove key => (.ok none, m.drop key) := by
  cases c with
  | load key => rfl
  | save key text =>
    obtain ⟨text?, isReadOnly⟩ := m
    cases h
    rfl
  | remove key => rfl

namespace DirectoryStore

section Mirror

variable {σ γ : Type} {fs : FileSystem (StateM σ)} {cwd : Place} {ofText : String → γ}
  {file? : σ → Place → Option γ}

section Faultless

variable (hmap : fs.IsMap cwd ofText file?) (h : fs.IsFaultless cwd ofText file?) {s : σ}
  (dir : String) {key : String} (hkey : isKey key = true)

include h hkey

theorem load_answer {text? : Option String}
    (hfile : file? s (Path.place cwd (path dir key)) = text?.map ofText) :
    ((load fs dir key).run s).1 = .ok text? := by
  rw [load, if_pos hkey]
  cases text? with
  | none =>
    rw [run_bind_of_eq (h.read_none hfile)]
    rfl
  | some text =>
    rw [run_bind_of_eq (h.read_text hfile)]
    rfl

theorem save_succeeds (text : String) : Succeeds (save fs dir key text) := by
  rw [save, if_pos hkey]
  refine (h.makeDirectories_succeeds dir).bind fun _ => ?_
  exact (h.write _ text).bind fun _ => .pure ()

include hmap

theorem remove_succeeds : ((remove fs dir key).run s).1 = .ok () ∧
    file? ((remove fs dir key).run s).2 =
      Function.update (file? s) (Path.place cwd (path dir key)) none := by
  rw [remove, if_pos hkey]
  cases hfile : file? s (Path.place cwd (path dir key)) with
  | none =>
    have hanswer := h.remove_none hfile
    rw [run_bind_of_eq hanswer]
    have hsame : file? ((fs.remove (path dir key)).run s).2 = file? s :=
      hmap.remove_keeps _ s _ hanswer
    refine ⟨rfl, hsame.trans ?_⟩
    rw [← hfile, Function.update_eq_self]
  | some content =>
    have hanswer := h.remove_some hfile
    rw [run_bind_of_eq hanswer]
    exact ⟨rfl, hmap.remove_ok hanswer⟩

end Faultless

variable (cwd ofText file?) in
/-- A memory has the texts of the files that the keys have in a directory. -/
structure Mirrors (dir : String) (s : σ) (m : Memory) : Prop where
  isReadOnly_eq : m.isReadOnly = false
  file?_eq : ∀ {key}, isKey key = true →
    file? s (Path.place cwd (path dir key)) = (m.text? key).map ofText

variable (hmap : fs.IsMap cwd ofText file?) (h : fs.IsFaultless cwd ofText file?) {s : σ}
  {dir : String} {c : StoreCall}

include hmap h

/-- What the files are after a call. -/
theorem file?_call (hkey : isKey c.key = true) :
    file? (((backend fs dir).call c).run s).2 = match c with
      | .load _ => file? s
      | .save key text =>
        Function.update (file? s) (Path.place cwd (path dir key)) (some (ofText text))
      | .remove key => Function.update (file? s) (Path.place cwd (path dir key)) none := by
  cases c with
  | load key => exact load_keeps hmap s
  | save key text =>
    obtain ⟨⟨⟩, hok⟩ := save_succeeds h dir hkey text s
    exact save_ok hmap hok
  | remove key => exact (remove_succeeds hmap h dir hkey).2

/-- A call changes no file but that of its key. -/
theorem file?_call_of_ne (hkey : isKey c.key = true) {place : Place}
    (hne : place ≠ Path.place cwd dir ++ [c.key ++ ".json"]) :
    file? (((backend fs dir).call c).run s).2 place = file? s place := by
  rw [← place_path cwd dir hkey] at hne
  rw [file?_call hmap h hkey]
  cases c with
  | load key => rfl
  | save key text => exact Function.update_of_ne hne _ _
  | remove key => exact Function.update_of_ne hne _ _

/-- A directory answers a call with a key that has a file as its mirror does, and they stay alike. -/
theorem Mirrors.call {m : Memory} (hm : Mirrors cwd ofText file? dir s m)
    (hkey : isKey c.key = true) :
    (((backend fs dir).call c).run s).1 = ((Memory.backend.call c).run m).1 ∧
      Mirrors cwd ofText file? dir (((backend fs dir).call c).run s).2
        ((Memory.backend.call c).run m).2 := by
  rw [Memory.run_call hm.isReadOnly_eq]
  refine ⟨?_, ?_, fun {k} hk => ?_⟩
  · cases c with
    | load key => exact load_answer h dir hkey (hm.file?_eq hkey)
    | save key text =>
      obtain ⟨⟨⟩, hok⟩ := save_succeeds h dir hkey text s
      exact congrArg (Except.map fun _ => none) hok
    | remove key =>
      exact congrArg (Except.map fun _ => none) (remove_succeeds hmap h dir hkey).1
  · cases c <;> exact hm.isReadOnly_eq
  · by_cases heq : k = c.key
    · subst heq
      rw [file?_call hmap h hkey]
      cases c with
      | load key => exact hm.file?_eq hk
      | save key text => simp [StoreCall.key]
      | remove key => simp [StoreCall.key]
    · have hne := place_path_ne cwd dir dir hk hkey heq
      rw [place_path cwd dir hkey] at hne
      rw [file?_call_of_ne hmap h hkey hne, hm.file?_eq hk]
      cases c with
      | load key => rfl
      | save key text =>
        have hother : k ≠ key := heq
        rw [Memory.text?_put, if_neg hother]
      | remove key =>
        have hother : k ≠ key := heq
        rw [Memory.text?_drop, if_neg hother]

omit hmap h in
/-- A call with a key that has no file is refused and changes nothing. -/
theorem run_call_of_not_isKey (hkey : isKey c.key = false) :
    ((backend fs dir).call c).run s = (.error (.invalidKey c.key), s) := by
  have hnot : ¬ isKey c.key = true := by
    rw [hkey]
    exact Bool.false_ne_true
  cases c with
  | load key =>
    have hload : (backend fs dir).load key = pure (.error (.invalidKey key)) := if_neg hnot
    exact congrArg (·.run s) hload
  | save key text =>
    have hsave : (backend fs dir).save key text = pure (.error (.invalidKey key)) := if_neg hnot
    rw [Backend.run_call_save, hsave]
    rfl
  | remove key =>
    have hremove : (backend fs dir).remove key = pure (.error (.invalidKey key)) := if_neg hnot
    rw [Backend.run_call_remove, hremove]
    rfl

/-- After any calls a directory and the memory that was given those with a key that has a file are
alike. -/
theorem Mirrors.after {m : Memory} (hm : Mirrors cwd ofText file? dir s m)
    (calls : List StoreCall) :
    Mirrors cwd ofText file? dir ((backend fs dir).after s calls)
      (Memory.backend.after m (calls.filter (isKey ·.key))) := by
  induction calls generalizing s m with
  | nil => exact hm
  | cons c calls ih =>
    rw [List.filter_cons]
    split
    · next hkey => exact ih (hm.call hmap h hkey).2
    · next hkey =>
      rw [Backend.after, List.foldl_cons, run_call_of_not_isKey (Bool.eq_false_iff.mpr hkey)]
      exact ih hm

omit hmap in
/-- A call about one key leaves what another key loads. -/
theorem load_eq_of_file?_eq {m : Memory} {s' : σ} {key : String}
    (hm : Mirrors cwd ofText file? dir s m)
    (hfile : isKey key = true →
      file? s' (Path.place cwd (path dir key)) = file? s (Path.place cwd (path dir key))) :
    (((backend fs dir).load key).run s').1 = (((backend fs dir).load key).run s).1 := by
  cases hkey : isKey key with
  | true =>
    have hbefore := hm.file?_eq hkey
    exact (load_answer h dir hkey ((hfile hkey).trans hbefore)).trans
      (load_answer h dir hkey hbefore).symm
  | false =>
    have hrefused (state : σ) :
        (((backend fs dir).call (.load key)).run state).1 = .error (.invalidKey key) :=
      congrArg Prod.fst (run_call_of_not_isKey (c := .load key) hkey)
    exact (hrefused s').trans (hrefused s).symm

omit hmap h in
theorem Mirrors.of_fresh (hfresh : ∀ name, file? s (Path.place cwd dir ++ [name]) = none) :
    Mirrors cwd ofText file? dir s .empty where
  isReadOnly_eq := rfl
  file?_eq {key} hkey := by
    rw [place_path cwd dir hkey, hfresh]
    rfl

/-- Over a fresh directory a call after any others is answered as by a memory that was given the
calls with a key that has a file; it changes neither another file nor what another key loads. A call
with a key that has no file is refused and changes nothing. -/
theorem answers_as_memory (hfresh : ∀ name, file? s (Path.place cwd dir ++ [name]) = none)
    (calls : List StoreCall) (c : StoreCall) :
    let b := backend fs dir
    let before := b.after s calls
    let after := ((b.call c).run before).2
    (isKey c.key = true →
      ((b.call c).run before).1 = ((Memory.backend.call c).run
        (Memory.backend.after .empty (calls.filter (isKey ·.key)))).1 ∧
      (∀ place, place ≠ Path.place cwd dir ++ [c.key ++ ".json"] →
        file? after place = file? before place) ∧
      ∀ key, key ≠ c.key → ((b.load key).run after).1 = ((b.load key).run before).1) ∧
    (isKey c.key = false → (b.call c).run before = (.error (.invalidKey c.key), before)) := by
  intro b before after
  have hmirrors := (Mirrors.of_fresh hfresh).after hmap h calls
  have hothers (hkey : isKey c.key = true) (place : Place)
      (hne : place ≠ Path.place cwd dir ++ [c.key ++ ".json"]) :
      file? after place = file? before place :=
    file?_call_of_ne hmap h hkey hne
  refine ⟨fun hkey => ⟨(hmirrors.call hmap h hkey).1, hothers hkey, fun key hne => ?_⟩,
    run_call_of_not_isKey⟩
  refine load_eq_of_file?_eq h hmirrors fun hvalid => hothers hkey _ ?_
  rw [← place_path cwd dir hkey]
  exact place_path_ne cwd dir dir hvalid hkey hne

end Mirror

/-- A key that leads out of the directory, and a file of the same name beside it. -/
theorem answers_as_memory_beside :
    let fs := FileMap.system ["home"]
    let file? : FileMap → Place → Option String := fun files place => files.lookup place
    let s : FileMap := (∅ : FileMap).insert ["home", "a.json"] "beside"
    let calls : List StoreCall := [.save "../a" "1", .save "a" "2", .save "A" "3", .remove "b"]
    fs.IsMap ["home"] id file? ∧ fs.IsFaultless ["home"] id file? ∧
      (∀ name, file? s (Path.place ["home"] "store/" ++ [name]) = none) ∧
      (((backend fs "store/").call (.load "a")).run
        ((backend fs "store/").after s calls)).1 = .ok (some "2") := by
  intro fs file? s calls
  have hmap : fs.IsMap ["home"] id file? := FileMap.isMap_system ["home"]
  have hfaultless : fs.IsFaultless ["home"] id file? := FileMap.isFaultless_system ["home"]
  have hfresh (name : String) : file? s (Path.place ["home"] "store/" ++ [name]) = none := by
    have hne : Path.place ["home"] "store/" ++ [name] ≠ ["home", "a.json"] := by
      intro heq
      have hdir := congrArg List.dropLast heq
      rw [List.dropLast_concat] at hdir
      exact absurd hdir (by decide)
    exact AList.lookup_insert_ne hne
  have hanswer := ((answers_as_memory hmap hfaultless hfresh calls (.load "a")).1 (by decide)).1
  exact ⟨hmap, hfaultless, hfresh, hanswer.trans (by decide)⟩

end DirectoryStore

end SchemaLint
