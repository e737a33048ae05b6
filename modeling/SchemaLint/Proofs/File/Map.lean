import Mathlib.Data.List.AList
import SchemaLint.File.Tree
import SchemaLint.Host
import SchemaLint.Proofs.Keeps

/-!
# Files as a map

A path leads to a place part by part (`Path.place`). File systems of many kinds are maps from places
to contents (`FileSystem.IsMap`): an operation that fails changes no file, and one that does not
changes the file that it names and no other. Nothing is said of when operations fail; a map without
faults is one in which they fail only for what is not there (`FileSystem.IsFaultless`). Texts by place
are such a map (`FileMap.isMap_system`).
-/

namespace SchemaLint

/-! ## Places of paths -/

namespace Path

/-- The place that a part of a path leads to. -/
def enter (place : Place) (part : String) : Place :=
  if part == "" || part == "." then place
  else if part == ".." then place.dropLast
  else place ++ [part]

/-- The place that a path leads to from a working directory. -/
def place (cwd : Place) (path : String) : Place :=
  (segments path).foldl enter (if isAbsolute path then [] else cwd)

/-- A text that is one part of a path and leads to a place of its own. -/
structure IsName (name : String) : Prop where
  slash_notMem : '/' ∉ name.toList
  ne_empty : name ≠ ""
  ne_here : name ≠ "."
  ne_above : name ≠ ".."

theorem enter_name (place : Place) {name : String} (h : IsName name) :
    enter place name = place ++ [name] := by
  simp [enter, h.ne_empty, h.ne_here, h.ne_above]

theorem segments_name {name : String} (h : IsName name) : segments name = [name] := by
  rw [segments, List.splitOn_eq_singleton h.slash_notMem, List.map_singleton, String.ofList_toList]

theorem segments_append_slash (dir path : String) :
    segments (dir ++ "/" ++ path) = segments dir ++ segments path := by
  have hsplit : (dir.toList ++ '/' :: path.toList).splitOn '/' =
      dir.toList.splitOn '/' ++ path.toList.splitOn '/' :=
    List.splitOnP_append_cons _ _ rfl
  have htext : (dir ++ "/" ++ path).toList = dir.toList ++ '/' :: path.toList := by
    simp [String.toList_append]
  rw [segments, htext, hsplit, List.map_append, segments, segments]

theorem isAbsolute_append {dir : String} (h : dir ≠ "") (path : String) :
    isAbsolute (dir ++ path) = isAbsolute dir := by
  have hdir : dir.toList ≠ [] := fun hnil => h (String.toList_eq_nil_iff.mp hnil)
  rw [isAbsolute, isAbsolute, String.toList_append, List.head?_append_of_ne_nil _ hdir]

theorem isAbsolute_name {name : String} (h : IsName name) : isAbsolute name = false := by
  rw [isAbsolute, beq_eq_false_iff_ne]
  exact fun hslash => h.slash_notMem (List.mem_of_head? hslash)

/-- A name joined to a path leads to what has that name in the place of the path. -/
theorem place_join (cwd : Place) (dir : String) {name : String} (h : IsName name) :
    place cwd (join dir name) = place cwd dir ++ [name] := by
  rw [join, isAbsolute_name h, Bool.false_or]
  split
  · next hempty =>
    have hsame : place cwd name = enter cwd name := by
      rw [place, isAbsolute_name h, segments_name h]
      rfl
    rw [hsame, enter_name _ h, beq_iff_eq.mp hempty]
    rfl
  · next hdir =>
    have hdir : dir ≠ "" := by simpa using hdir
    split
    · next hslash =>
      -- The slash at the end of the directory sets the name off.
      obtain ⟨front, hfront⟩ : ∃ front, dir.toList = front ++ ['/'] :=
        List.getLast?_eq_some_iff.mp (beq_iff_eq.mp hslash)
      have hends : dir = String.ofList front ++ "/" := by
        rw [← String.ofList_toList (s := dir), hfront, String.ofList_append]
      have hsegments : segments dir = segments (String.ofList front) ++ [""] := by
        have := segments_append_slash (String.ofList front) ""
        rwa [String.append_empty, ← hends] at this
      rw [place, isAbsolute_append hdir, place, hsegments]
      rw [hends, segments_append_slash, segments_name h]
      simp only [List.foldl_append, List.foldl_cons, List.foldl_nil]
      rw [enter_name _ h]
      rfl
    · rw [place, String.append_assoc, isAbsolute_append hdir, ← String.append_assoc,
        segments_append_slash, segments_name h, List.foldl_append, place]
      exact enter_name _ h

end Path

/-! ## File systems that are maps -/

section Systems

variable {σ γ : Type}

/-- The files are the same in two states. -/
def SameFiles (file? : σ → Place → Option γ) (s s' : σ) : Prop :=
  file? s' = file? s

instance (file? : σ → Place → Option γ) : IsPreorder σ (SameFiles file?) where
  refl _ := rfl
  trans _ _ _ h h' := h'.trans h

namespace FileSystem

variable (fs : FileSystem (StateM σ)) (cwd : Place) (ofText : String → γ)
  (file? : σ → Place → Option γ)

/-- The files of a system are a map from places to contents, some of which are texts. What is read
is what is there, and what changes is the file that is written or removed, and only if that does not
fail. -/
structure IsMap : Prop where
  read_keeps : ∀ path, Keeps (SameFiles file?) (fs.read path)
  read_ok : ∀ {path s text}, ((fs.read path).run s).1 = .ok text →
    file? s (Path.place cwd path) = some (ofText text)
  read_notFound : ∀ {path s}, ((fs.read path).run s).1 = .error .notFound →
    file? s (Path.place cwd path) = none
  write_keeps : ∀ path text, KeepsOnError (SameFiles file?) (fs.write path text)
  write_ok : ∀ {path text s}, ((fs.write path text).run s).1 = .ok () →
    file? ((fs.write path text).run s).2 =
      Function.update (file? s) (Path.place cwd path) (some (ofText text))
  remove_keeps : ∀ path, KeepsOnError (SameFiles file?) (fs.remove path)
  remove_ok : ∀ {path s}, ((fs.remove path).run s).1 = .ok () →
    file? ((fs.remove path).run s).2 = Function.update (file? s) (Path.place cwd path) none
  makeDirectory_keeps : ∀ path, Keeps (SameFiles file?) (fs.makeDirectory path)
  isDirectory_keeps : ∀ path, Keeps (SameFiles file?) (fs.isDirectory path)
  isPresent_keeps : ∀ path, Keeps (SameFiles file?) (fs.isPresent path)
  filesBelow_keeps : ∀ path, Keeps (SameFiles file?) (fs.filesBelow path)

/-- What is there is read or removed, what is not there is said to be missing, and files are written
and directories made without fail. -/
structure IsFaultless : Prop where
  read_text : ∀ {path s text}, file? s (Path.place cwd path) = some (ofText text) →
    ((fs.read path).run s).1 = .ok text
  read_none : ∀ {path s}, file? s (Path.place cwd path) = none →
    ((fs.read path).run s).1 = .error .notFound
  write : ∀ path text, Succeeds (fs.write path text)
  remove_some : ∀ {path s content}, file? s (Path.place cwd path) = some content →
    ((fs.remove path).run s).1 = .ok ()
  remove_none : ∀ {path s}, file? s (Path.place cwd path) = none →
    ((fs.remove path).run s).1 = .error .notFound
  makeUnlessThere : ∀ path, Succeeds (fs.makeUnlessThere path)

variable {fs cwd ofText file?}

namespace IsMap

variable (h : fs.IsMap cwd ofText file?)

include h

theorem makeUnlessThere_keeps (path : String) :
    Keeps (SameFiles file?) (fs.makeUnlessThere path) := by
  refine (h.makeDirectory_keeps path).bind fun outcome => ?_
  cases outcome with
  | ok _ => exact .pure _
  | error e =>
    refine (h.isDirectory_keeps path).bind fun found => ?_
    cases found with
    | true => exact .pure _
    | false => exact .pure _

theorem makeBelow_keeps (above : List String) (path : String) :
    Keeps (SameFiles file?) (fs.makeBelow above path) := by
  induction above generalizing path with
  | nil =>
    rw [makeBelow]
    split
    · exact .pure _
    · exact h.makeUnlessThere_keeps path
  | cons next rest ih =>
    rw [makeBelow]
    split
    · exact .pure _
    · refine (h.makeUnlessThere_keeps path).bind fun outcome => ?_
      split
      · refine (ih next).bind fun made => ?_
        cases made with
        | ok _ => exact h.makeUnlessThere_keeps path
        | error e => exact .pure _
      · exact .pure _

theorem makeDirectories_keeps (path : String) :
    Keeps (SameFiles file?) (fs.makeDirectories path) :=
  h.makeBelow_keeps _ path

end IsMap

theorem IsFaultless.makeDirectories_succeeds (h : fs.IsFaultless cwd ofText file?) (path : String) :
    Succeeds (fs.makeDirectories path) := by
  unfold makeDirectories
  cases Path.parents path with
  | nil =>
    rw [makeBelow]
    split
    · exact .pure ()
    · exact h.makeUnlessThere path
  | cons next rest =>
    rw [makeBelow]
    split
    · exact .pure ()
    · exact (h.makeUnlessThere path).bind fun _ => .pure ()

end FileSystem

/-- A host whose files are a map, and that keeps them whatever else it is asked. -/
structure Host.IsMap (h : Host (StateM σ)) (cwd : Place) (ofText : String → γ)
    (file? : σ → Place → Option γ) : Prop extends h.files.IsMap cwd ofText file? where
  cwd_keeps : Keeps (SameFiles file?) h.cwd
  readLine_keeps : Keeps (SameFiles file?) h.readLine
  print_keeps : ∀ text, Keeps (SameFiles file?) (h.print text)
  tell_keeps : ∀ text, Keeps (SameFiles file?) (h.tell text)
  now_keeps : Keeps (SameFiles file?) h.now

end Systems

/-! ## Texts by place -/

/-- Texts by place. Directories are there wherever they are named. -/
abbrev FileMap := AList fun _ : Place => String

namespace FileMap

/-- The texts as a file system, seen from a working directory. -/
def system (cwd : Place) : FileSystem (StateM FileMap) where
  read path := return ((← get).lookup (Path.place cwd path)).elim (.error .notFound) .ok
  write path text := do
    modify (·.insert (Path.place cwd path) text)
    return .ok ()
  remove path := do
    let place := Path.place cwd path
    if ((← get).lookup place).isNone then return .error .notFound
    modify (·.erase place)
    return .ok ()
  makeDirectory _ := return .ok ()
  isDirectory path := return ((← get).lookup (Path.place cwd path)).isNone
  isPresent path := return ((← get).lookup (Path.place cwd path)).isSome
  filesBelow path := do
    let place := Path.place cwd path
    let below := (← get).keys.filter place.isPrefixOf
    return below.map fun p => (p.drop place.length).foldl Path.join path

variable (cwd : Place)

theorem run_read (path : String) (files : FileMap) :
    ((system cwd).read path).run files =
      ((files.lookup (Path.place cwd path)).elim (.error .notFound) .ok, files) :=
  rfl

theorem run_remove (path : String) (files : FileMap) :
    ((system cwd).remove path).run files =
      if (files.lookup (Path.place cwd path)).isNone then (.error .notFound, files)
      else (.ok (), files.erase (Path.place cwd path)) := by
  cases hfound : files.lookup (Path.place cwd path) with
  | none =>
    simp only [system, StateT.run_bind, StateT.run_get, pure_bind, hfound]
    rfl
  | some text =>
    simp only [system, StateT.run_bind, StateT.run_get, pure_bind, hfound]
    rfl

theorem lookup_insert (place : Place) (text : String) (files : FileMap) :
    (fun q => (files.insert place text).lookup q) =
      Function.update (fun q => files.lookup q) place (some text) := by
  funext q
  by_cases hq : q = place
  · subst hq
    rw [Function.update_self]
    exact AList.lookup_insert files
  · rw [Function.update_of_ne hq]
    exact AList.lookup_insert_ne hq

theorem lookup_erase (place : Place) (files : FileMap) :
    (fun q => (files.erase place).lookup q) = Function.update (fun q => files.lookup q) place none := by
  funext q
  by_cases hq : q = place
  · subst hq
    rw [Function.update_self]
    exact AList.lookup_erase _ files
  · rw [Function.update_of_ne hq]
    exact AList.lookup_erase_ne hq

theorem isMap_system : (system cwd).IsMap cwd id fun files place => files.lookup place where
  read_keeps _ _ := rfl
  read_ok {path s text} h := by
    rw [run_read] at h
    cases hfound : s.lookup (Path.place cwd path) with
    | none =>
      rw [hfound] at h
      cases h
    | some text' =>
      rw [hfound] at h
      cases h
      rfl
  read_notFound {path s} h := by
    rw [run_read] at h
    cases hfound : s.lookup (Path.place cwd path) with
    | none => rfl
    | some text' =>
      rw [hfound] at h
      cases h
  write_keeps _ _ _ _ h := by cases h
  write_ok {path text s} _ := lookup_insert (Path.place cwd path) text s
  remove_keeps path s e h := by
    rw [run_remove] at h ⊢
    split at h
    · next hnone => rw [if_pos hnone]; rfl
    · cases h
  remove_ok {path s} h := by
    rw [run_remove] at h ⊢
    split at h
    · cases h
    · next hsome =>
      rw [if_neg hsome]
      exact lookup_erase (Path.place cwd path) s
  makeDirectory_keeps _ _ := rfl
  isDirectory_keeps _ _ := rfl
  isPresent_keeps _ _ := rfl
  filesBelow_keeps _ _ := rfl

theorem isFaultless_system :
    (system cwd).IsFaultless cwd id fun files place => files.lookup place where
  read_text {path s text} h := by
    rw [run_read, h]
    rfl
  read_none {path s} h := by
    rw [run_read, h]
    rfl
  write _ _ _ := ⟨(), rfl⟩
  remove_some {path s content} h := by
    rw [run_remove, h]
    rfl
  remove_none {path s} h := by
    rw [run_remove, h]
    rfl
  makeUnlessThere _ _ := ⟨(), rfl⟩

/-- A host with these files on which nothing is typed in. -/
def host : Host (StateM FileMap) where
  files := system cwd
  cwd := return "/" ++ "/".intercalate cwd
  readLine := return none
  print _ := return ()
  tell _ := return ()
  now := return ""

theorem isMap_host : (host cwd).IsMap cwd id fun files place => files.lookup place where
  toIsMap := isMap_system cwd
  cwd_keeps _ := rfl
  readLine_keeps _ := rfl
  print_keeps _ _ := rfl
  tell_keeps _ _ := rfl
  now_keeps _ := rfl

end FileMap

end SchemaLint
