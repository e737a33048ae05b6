import SchemaLint.Proofs.Program.Reading
import SchemaLint.Proofs.Store.Directory

/-!
# Runs that fail

A run that fails leaves the stored documents as it found them, but for the built-in rules that the
first use of the rules puts there (`run_spares_documents`). Every command saves as the last thing that
can fail, so up to there it spares the documents however it ends, and what it saves it has saved only
if it does not fail.
-/

namespace SchemaLint

/-- The file that a command writes to, apart from the stored documents. -/
def Command.output? : Command → Option String
  | .validate _ _ output => output
  | .rules (.write output) => output
  | .schema (.write output) => output
  | _ => none

namespace Program

variable {σ γ α : Type}

section Spares

variable (cwd : Place) (ofText : String → γ) (file? : σ → Place → Option γ) (dir : String)

/-- The place of a document that is stored in a directory under a key. -/
abbrev documentPlace (key : String) : Place :=
  Path.place cwd (DirectoryStore.path dir key)

/-- A path leads to neither of the documents that are stored in a directory. -/
structure IsApart (path : String) : Prop where
  schema_ne : Path.place cwd path ≠ documentPlace cwd dir Schema.format.key
  rules_ne : Path.place cwd path ≠ documentPlace cwd dir RuleTable.format.key

/-- The schema that is stored in a directory is as it was, and so are the rules unless there were none
and now there are the built-in ones. -/
structure Spares (s s' : σ) : Prop where
  schema_eq : file? s' (documentPlace cwd dir Schema.format.key) =
    file? s (documentPlace cwd dir Schema.format.key)
  rules_eq : file? s' (documentPlace cwd dir RuleTable.format.key) =
      file? s (documentPlace cwd dir RuleTable.format.key) ∨
    file? s (documentPlace cwd dir RuleTable.format.key) = none ∧
      file? s' (documentPlace cwd dir RuleTable.format.key) =
        some (ofText RuleTable.builtin.toDocument)

end Spares

variable {cwd : Place} {ofText : String → γ} {file? : σ → Place → Option γ} {dir : String}

theorem Spares.of_sameFiles {s s' : σ} (h : SameFiles file? s s') :
    Spares cwd ofText file? dir s s' :=
  ⟨congrFun h _, .inl (congrFun h _)⟩

theorem Spares.of_keeps {x : StateM σ α} (hx : Keeps (SameFiles file?) x) :
    Keeps (Spares cwd ofText file? dir) x :=
  hx.mono fun _ _ => .of_sameFiles

theorem Spares.of_keepsOnError {ε : Type} {x : StateM σ (Except ε α)}
    (hx : KeepsOnError (SameFiles file?) x) : KeepsOnError (Spares cwd ofText file? dir) x :=
  hx.mono fun _ _ => .of_sameFiles

theorem Spares.trans {s s' s'' : σ} (h : Spares cwd ofText file? dir s s')
    (h' : Spares cwd ofText file? dir s' s'') : Spares cwd ofText file? dir s s'' := by
  refine ⟨h'.schema_eq.trans h.schema_eq, ?_⟩
  rcases h.rules_eq with hsame | ⟨hnone, hbuiltin⟩
  · rw [← hsame]
    exact h'.rules_eq
  · -- Once the built-in rules are there they stay.
    rcases h'.rules_eq with hsame | ⟨hnone', -⟩
    · exact .inr ⟨hnone, hsame.trans hbuiltin⟩
    · rw [hbuiltin] at hnone'
      cases hnone'

instance : IsPreorder σ (Spares cwd ofText file? dir) where
  refl _ := .of_sameFiles rfl
  trans _ _ _ := Spares.trans

theorem Spares.of_update {s s' : σ} {place : Place} {content : Option γ}
    (hfiles : file? s' = Function.update (file? s) place content)
    (hschema : place ≠ documentPlace cwd dir Schema.format.key)
    (hrules : place ≠ documentPlace cwd dir RuleTable.format.key) :
    Spares cwd ofText file? dir s s' where
  schema_eq := by rw [hfiles, Function.update_of_ne hschema.symm]
  rules_eq := .inl (by rw [hfiles, Function.update_of_ne hrules.symm])

/-- Putting the built-in rules where there are none spares the documents. -/
theorem Spares.of_builtin {s s' : σ} {dir' : String}
    (hnone : file? s (documentPlace cwd dir' RuleTable.format.key) = none)
    (hfiles : file? s' = Function.update (file? s) (documentPlace cwd dir' RuleTable.format.key)
      (some (ofText RuleTable.builtin.toDocument))) :
    Spares cwd ofText file? dir s s' := by
  have hne : documentPlace cwd dir Schema.format.key ≠ documentPlace cwd dir' RuleTable.format.key :=
    DirectoryStore.place_path_ne cwd dir dir' (by decide) (by decide) (by decide)
  refine ⟨by rw [hfiles, Function.update_of_ne hne], ?_⟩
  by_cases hplace : documentPlace cwd dir RuleTable.format.key =
      documentPlace cwd dir' RuleTable.format.key
  · right
    rw [hplace, hfiles, Function.update_self]
    exact ⟨hnone, rfl⟩
  · left
    rw [hfiles, Function.update_of_ne hplace]

/-! ## Stored documents -/

section Store

variable {ε κ : Type}

/-- The value after a commit is the one that is committed, unless its document cannot be saved. -/
theorem valueAfter_commit (f : DocumentFormat α ε) (b : Backend (StateM σ)) (next value : α) :
    valueAfter (f.commit (κ := κ) b next) value = (do
      match ← b.save f.key (f.write next) with
      | .error e => return .error (.backend e)
      | .ok () => return .ok next) := by
  have hstep : valueAfter (f.commit (κ := κ) b next) value =
      b.save f.key (f.write next) >>= fun saved =>
        valueAfter (match saved with
          | .error e => return .error (.backend e)
          | .ok () => do
            set next
            return .ok ()) value :=
    rfl
  rw [hstep]
  refine bind_congr fun saved => ?_
  cases saved <;> rfl

variable {fs : FileSystem (StateM σ)} (hmap : fs.IsMap cwd ofText file?)
  (f : DocumentFormat α ε) (store : String)

include hmap

theorem commit_keeps (next value : α) : KeepsOnError (SameFiles file?)
    (valueAfter (f.commit (κ := κ) (DirectoryStore.backend fs store) next) value) := by
  intro s e he
  rw [valueAfter_commit] at he ⊢
  cases hsave : (((DirectoryStore.backend fs store).save f.key (f.write next)).run s).1 with
  | error e' =>
    rw [run_bind_of_eq hsave]
    exact DirectoryStore.save_keeps hmap s e' hsave
  | ok _ =>
    rw [run_bind_of_eq hsave] at he
    cases he

theorem commit_ok {s : σ} {next value value' : α}
    (hok : ((valueAfter (f.commit (κ := κ) (DirectoryStore.backend fs store) next) value).run s).1 =
      .ok value') :
    file? ((valueAfter (f.commit (κ := κ) (DirectoryStore.backend fs store) next) value).run s).2 =
      Function.update (file? s) (documentPlace cwd store f.key) (some (ofText (f.write next))) := by
  rw [valueAfter_commit] at hok ⊢
  cases hsave : (((DirectoryStore.backend fs store).save f.key (f.write next)).run s).1 with
  | error e =>
    rw [run_bind_of_eq hsave] at hok
    cases hok
  | ok _ =>
    rw [run_bind_of_eq hsave]
    exact DirectoryStore.save_ok hmap hsave

theorem edit_keeps (outcome : Except κ α) : KeepsOnError (SameFiles file?)
    (f.edit (DirectoryStore.backend fs store) outcome) := by
  cases outcome with
  | error e => exact (Keeps.pure _).onError
  | ok next => exact commit_keeps hmap f store next f.initial

theorem replace_keeps (document : String) : KeepsOnError (SameFiles file?)
    (f.replace (κ := κ) (DirectoryStore.backend fs store) document) := by
  unfold DocumentFormat.replace DocumentFormat.takeOver
  split
  · exact (Keeps.pure _).onError
  · exact commit_keeps hmap f store _ f.initial

theorem load_keeps : Keeps (SameFiles file?)
    (f.load (κ := κ) (DirectoryStore.backend fs store)) := by
  refine (DirectoryStore.load_keeps hmap).bind fun outcome => ?_
  cases outcome with
  | error e => exact .pure _
  | ok document => exact .pure _

/-- The first use of the rules spares the documents, whether the built-in rules are saved or not. -/
theorem openStore_spares : Keeps (Spares cwd ofText file? dir)
    (RuleTable.openStore (DirectoryStore.backend fs store)) := by
  intro s
  have hkept : SameFiles file? s
      (((DirectoryStore.backend fs store).load RuleTable.format.key).run s).2 :=
    DirectoryStore.load_keeps hmap s
  unfold RuleTable.openStore
  cases hload : (((DirectoryStore.backend fs store).load RuleTable.format.key).run s).1 with
  | error e =>
    rw [run_bind_of_eq hload]
    exact .of_sameFiles hkept
  | ok document =>
    rw [run_bind_of_eq hload]
    cases document with
    | some document => exact .of_sameFiles hkept
    | none =>
      -- The rules are saved in the state that the load leaves, where they are still missing.
      have hnone := DirectoryStore.load_none hmap hload
      refine (Spares.of_sameFiles hkept).trans ?_
      rw [← hkept] at hnone
      generalize (((DirectoryStore.backend fs store).load RuleTable.format.key).run s).2 = s'
        at hnone ⊢
      cases hcommit : ((valueAfter (RuleTable.format.commit (κ := RuleEditError)
          (DirectoryStore.backend fs store) RuleTable.builtin) RuleTable.empty).run s').1 with
      | error e => exact .of_sameFiles (commit_keeps hmap _ store _ _ s' e hcommit)
      | ok value => exact .of_builtin hnone (commit_ok hmap _ store hcommit)

/-- Writing a file apart from the documents spares them, whether it is written or not. -/
theorem write_spares {path : String} (hpath : IsApart cwd dir path) (text : String) :
    Keeps (Spares cwd ofText file? dir) (fs.write path text) := by
  intro s
  cases hwrite : ((fs.write path text).run s).1 with
  | error e => exact .of_sameFiles (hmap.write_keeps path text s e hwrite)
  | ok _ => exact .of_update (hmap.write_ok hwrite) hpath.schema_ne hpath.rules_ne

end Store

/-! ## The steps of a session -/

namespace Session

variable {s : Session (StateM σ)} (hh : s.host.IsMap cwd ofText file?)

include hh

theorem detail_keeps (message : String) : Keeps (SameFiles file?) (s.detail message).run := by
  unfold detail
  split
  · exact (hh.tell_keeps _).run_lift
  · exact .pure _

theorem read_keeps (file : String) : Keeps (SameFiles file?) (s.read file).run :=
  attempt_keeps (hh.toIsMap.read_keeps file) _

theorem schema_keeps : Keeps (SameFiles file?) s.schema.run :=
  attempt_keeps (load_keeps hh.toIsMap _ _) _

theorem rules_spares : Keeps (Spares cwd ofText file? dir) s.rules.run :=
  attempt_keeps (openStore_spares hh.toIsMap _) _

theorem editSchema_keeps (current : Schema) (e : SchemaEdit) :
    KeepsOnError (SameFiles file?) (s.editSchema current e).run :=
  .run_bind_succeeds ((edit_keeps hh.toIsMap _ _ _).mapError _) fun _ => .run_pure ()

theorem editRules_keeps (current : RuleTable) (e : RuleEdit) :
    KeepsOnError (SameFiles file?) (s.editRules current e).run :=
  (edit_keeps hh.toIsMap _ _ _).mapError _

theorem saveTable_keeps (name : String) (dialect : Option Dialect) (fields : List Field) :
    KeepsOnError (SameFiles file?) (s.saveTable name dialect fields).run := by
  refine .run_bind (hh.print_keeps _).run_lift fun _ => ?_
  refine .run_bind (schema_keeps hh) fun current => ?_
  exact .run_bind_succeeds (editSchema_keeps hh current _) fun _ => .run_lift _

theorem extractMapping_keeps (file table : String) (dialect : Option Dialect) :
    KeepsOnError (SameFiles file?) (s.extractMapping file table dialect).run := by
  refine .run_bind (read_keeps hh file) fun source => ?_
  have hsave := saveTable_keeps hh table dialect (Mapping.fields source)
  dsimp only
  split
  · exact (Keeps.run_throw_bind _ _).onError
  · exact hsave

/-- What follows a detail that is told in some cases only. -/
theorem detail_bind_keeps {c : Prop} [Decidable c] (message : String)
    {next : Attempt (StateM σ) Unit} (h : KeepsOnError (SameFiles file?) next.run) :
    KeepsOnError (SameFiles file?)
      (if c then s.detail message >>= fun _ => next else next).run := by
  split
  · exact .run_bind (detail_keeps hh message) fun _ => h
  · exact h

theorem extractClass_keeps (file : String) (table : Option String) (dialect : Option Dialect)
    (asks : Bool) :
    KeepsOnError (SameFiles file?) (s.extractClass file table dialect asks).run := by
  refine .run_bind (read_keeps hh file) fun source => ?_
  refine .run_bind (detail_keeps hh _) fun _ => ?_
  refine .run_bind (Keeps.run_lift ?_) fun resolution => ?_
  · exact AncestorWalk.resolve_keeps (Locator.locate_keeps hh _) source _ _
  refine .run_bind (Keeps.run_forIn _ _ fun warning _ => ?_) fun _ => ?_
  · exact .run_bind (hh.tell_keeps _).run_lift fun _ => .pure _
  dsimp only
  split
  · exact (Keeps.run_throw_bind _ _).onError
  · cases table.or resolution.className with
    | none => exact detail_bind_keeps hh _ (Keeps.run_throw _).onError
    | some name => exact detail_bind_keeps hh _ (saveTable_keeps hh name dialect resolution.fields)

theorem validate_spares (file : String) (dialect : Option Dialect) {output : Option String}
    (houtput : ∀ path, output = some path → IsApart cwd dir path) :
    Keeps (Spares cwd ofText file? dir) (s.validate file dialect output).run := by
  refine (Spares.of_keeps (read_keeps hh file)).run_bind fun script => ?_
  refine (Spares.of_keeps (schema_keeps hh)).run_bind fun schema => ?_
  refine (rules_spares hh).run_bind fun rules => ?_
  -- From here on the report is all that is written.
  refine .run_optional (Spares.of_keeps (hh.tell_keeps _)).run_lift ?_
  refine (Spares.of_keeps (detail_keeps hh _)).run_bind fun _ => ?_
  refine Keeps.run_bind (.run_forIn _ _ fun skipped _ => ?_) fun _ => ?_
  · exact (Spares.of_keeps (hh.tell_keeps _)).run_lift.run_bind fun _ => .pure _
  refine (Spares.of_keeps hh.now_keeps).run_lift.run_bind fun now => ?_
  cases output with
  | none => exact (Spares.of_keeps (hh.print_keeps _)).run_lift.run_bind fun _ => .pure _
  | some path =>
    refine (attempt_keeps (write_spares hh.toIsMap (houtput path rfl) _) _).run_bind fun _ => ?_
    refine (Spares.of_keeps (detail_keeps hh _)).run_bind fun _ => ?_
    exact (Spares.of_keeps (hh.print_keeps _)).run_lift.run_bind fun _ => .pure _

theorem output_spares {output : Option String}
    (houtput : ∀ path, output = some path → IsApart cwd dir path) (document : String) :
    Keeps (Spares cwd ofText file? dir) (s.write output document).run := by
  cases output with
  | none => exact (Spares.of_keeps (hh.print_keeps _)).run_lift
  | some path =>
    refine (attempt_keeps (write_spares hh.toIsMap (houtput path rfl) _) _).run_bind fun _ => ?_
    exact (Spares.of_keeps (hh.tell_keeps _)).run_lift

theorem runRules_spares (command : RulesCommand)
    (houtput : ∀ path, (Command.rules command).output? = some path → IsApart cwd dir path) :
    KeepsOnError (Spares cwd ofText file? dir) (s.runRules command).run := by
  refine .run_bind (rules_spares hh) fun current => ?_
  have hedit (e : RuleEdit) :
      KeepsOnError (Spares cwd ofText file? dir) (s.editRules current e).run :=
    Spares.of_keepsOnError (editRules_keeps hh current e)
  cases command with
  | list dialect kind asJson =>
    cases asJson with
    | true => exact (Spares.of_keeps (hh.print_keeps _)).onError
    | false => exact (Spares.of_keeps (hh.print_keeps _)).onError
  | write output => exact (output_spares hh houtput _).onError
  | replace file =>
    refine .run_bind (Spares.of_keeps (read_keeps hh file)) fun document => ?_
    refine .run_bind_succeeds ?_ fun _ => .run_lift _
    exact Spares.of_keepsOnError ((replace_keeps hh.toIsMap _ _ document).mapError _)
  | reset => exact (hedit _).run_bind_succeeds fun _ => .run_lift _
  | add dialect kind rule => exact (hedit _).run_bind_succeeds fun _ => .run_lift _
  | remove dialect kind id => exact (hedit _).run_bind_succeeds fun _ => .run_lift _

theorem runSchema_spares (command : SchemaCommand)
    (houtput : ∀ path, (Command.schema command).output? = some path → IsApart cwd dir path) :
    KeepsOnError (Spares cwd ofText file? dir) (s.runSchema command).run := by
  refine .run_bind (Spares.of_keeps (schema_keeps hh)) fun current => ?_
  cases command with
  | list => exact (Spares.of_keeps (hh.print_keeps _)).onError
  | describe name =>
    dsimp only
    split
    · exact (Keeps.run_throw _).onError
    · exact (Spares.of_keeps (hh.print_keeps _)).onError
  | write output => exact (output_spares hh houtput _).onError
  | replace file =>
    refine .run_bind (Spares.of_keeps (read_keeps hh file)) fun document => ?_
    refine .run_bind_succeeds ?_ fun _ => .run_lift _
    exact Spares.of_keepsOnError ((replace_keeps hh.toIsMap _ _ document).mapError _)
  | remove name =>
    refine .run_bind_succeeds ?_ fun _ => .run_lift _
    exact Spares.of_keepsOnError (editSchema_keeps hh current _)

/-- A command that does not find everything well spares the documents. -/
theorem run_spares (command : Command)
    (houtput : ∀ path, command.output? = some path → IsApart cwd dir path) :
    KeepsUnless (Spares cwd ofText file? dir) (.ok true) (s.run command).run := by
  cases command with
  | extractClass file table dialect asks =>
    exact (Spares.of_keepsOnError (extractClass_keeps hh file table dialect asks)).run_return true
  | extractMapping file table dialect =>
    exact (Spares.of_keepsOnError (extractMapping_keeps hh file table dialect)).run_return true
  | validate file dialect output => exact (validate_spares hh file dialect houtput).unless _
  | rules command => exact (runRules_spares hh command houtput).run_return true
  | schema command => exact (runSchema_spares hh command houtput).run_return true

end Session

/-! ## Whole runs -/

section Runs

variable {h : Host (StateM σ)} (hh : h.IsMap cwd ofText file?)

include hh

theorem invoke_spares (i : Invocation)
    (houtput : ∀ path, i.command.output? = some path → IsApart cwd dir path) :
    KeepsUnless (Spares cwd ofText file? dir) (.ok true) (invoke h i).run := by
  refine .run_bind (Spares.of_keeps (loadConfig_keeps hh _ _)) fun config => ?_
  have hsession : (Session.mk h config i.isVerbose).host.IsMap cwd ofText file? := hh
  refine .run_bind (Spares.of_keeps (Session.detail_keeps hsession _)) fun _ => ?_
  exact Session.run_spares hsession i.command houtput

/-- A run that does not succeed, and whose output is no document of a directory, leaves the schema
stored there as it was, and the rules too unless there were none and the built-in ones were put there.
This holds of every directory, so of the one that is configured. -/
theorem run_spares_documents (args : List String)
    (houtput : ∀ i path, Invocation.read args = .ok i → i.command.output? = some path →
      IsApart cwd dir path) {s : σ} (hfail : ((run h args).run s).1 ≠ .success) :
    Spares cwd ofText file? dir s ((run h args).run s).2 := by
  unfold run at hfail ⊢
  cases hread : Invocation.read args with
  | error halt =>
    rw [hread] at hfail
    cases halt with
    | answer flag => exact absurd rfl hfail
    | misuse =>
      have hkeeps : Keeps (SameFiles file?) (do h.tellLine help; return Exit.misuse) :=
        (hh.tell_keeps _).bind fun _ => .pure _
      exact .of_sameFiles (hkeeps s)
  | ok i =>
    rw [hread] at hfail
    dsimp only at hfail ⊢
    have hinvoke : KeepsUnless (Spares cwd ofText file? dir) (.ok true) (invoke h i).run :=
      invoke_spares hh i (houtput i · hread)
    have hrun := hinvoke s
    cases houtcome : ((invoke h i).run.run s).1 with
    | error e =>
      rw [houtcome] at hrun
      rw [run_bind_of_eq houtcome]
      have htell : Keeps (SameFiles file?)
          (do h.tellLine ("Error: " ++ e.message); return Exit.failure) :=
        (hh.tell_keeps _).bind fun _ => .pure _
      exact (hrun nofun).trans (.of_sameFiles (htell _))
    | ok isWell =>
      rw [houtcome] at hrun
      rw [run_bind_of_eq houtcome] at hfail ⊢
      cases isWell with
      | false => exact hrun nofun
      | true => exact absurd rfl hfail

end Runs

/-- A report on an invalid line, where no rules were stored before. -/
theorem run_spares_documents_invalid :
    let h := FileMap.host ["home"]
    let file? : FileMap → Place → Option String := fun files place => files.lookup place
    let args := ["validate", "s.sql", "-o", "r.json"]
    let s : FileMap := (∅ : FileMap).insert ["home", "s.sql"] "SELECT ("
    h.IsMap ["home"] id file? ∧
      (∀ i path, Invocation.read args = .ok i → i.command.output? = some path →
        IsApart ["home"] "/home/.scriptrefly" path) ∧
      ((run h args).run s).1 ≠ .success ∧
      Spares ["home"] id file? "/home/.scriptrefly" s ((run h args).run s).2 := by
  intro h file? args s
  have hmap : h.IsMap ["home"] id file? := FileMap.isMap_host ["home"]
  have hread : Invocation.read args =
      .ok ⟨none, false, .validate "s.sql" none (some "r.json")⟩ := by decide +kernel
  have houtput (i : Invocation) (path : String) (hi : Invocation.read args = .ok i)
      (hpath : i.command.output? = some path) :
      IsApart ["home"] "/home/.scriptrefly" path := by
    rw [hread] at hi
    cases hi
    cases hpath
    exact ⟨by decide, by decide⟩
  have hfail : ((run h args).run s).1 ≠ .success := by decide +kernel
  exact ⟨hmap, houtput, hfail, run_spares_documents hmap args houtput hfail⟩

end Program

end SchemaLint
