import Straightline.Proofs.Project.Files
import Straightline.Proofs.Project.Outcomes
import Straightline.Proofs.Script.Lowering
import Straightline.Text.Utf8

/-!
# Builds

What the commands do on a tree of files.

* `Job.on` is what comes of a job on a tree, and the tree afterwards.
* `FileTree.Fails` says why the script of a command cannot be compiled: its settings, its text or
  the script itself.
* `build_all_or_nothing`: then all commands fail with this, and nothing changes. Else the output of
  a build is the one file that changes, and it is what is emitted.
-/

namespace Straightline

/-! ### Jobs on trees -/

/-- What comes of a job on a tree of files, and the tree afterwards. -/
def Job.on {α : Type} {workingDirectory : List String}
    (job : Job (StateM (FileTree workingDirectory)) α) (t : FileTree workingDirectory) :
    Except Failure α × FileTree workingDirectory :=
  job.outcome.run.run t

section

variable {σ α β : Type} {t : σ} {x : ExceptT Failure (StateM σ) α}
  {f : α → ExceptT Failure (StateM σ) β}

/-- What only looks at a tree and then at what it found only looks at the tree. -/
theorem run_bind_of_look {result : Except Failure α} {next : α → Except Failure β}
    (hx : x.run.run t = (result, t)) (hf : ∀ a, (f a).run.run t = (next a, t)) :
    (x >>= f).run.run t = (result >>= next, t) := by
  cases result with
  | error e => exact bind_of_error hx
  | ok a => exact (bind_of_ok hx).trans (hf a)

/-- What only looks at a tree and then changes its result only looks at the tree. -/
theorem run_map_of_look {result : Except Failure α} (g : α → β) (hx : x.run.run t = (result, t)) :
    (g <$> x).run.run t = (g <$> result, t) := by
  rw [map_eq_pure_bind, map_eq_pure_bind]
  exact run_bind_of_look hx fun a => rfl

end

namespace FileTree

variable {workingDirectory : List String} (t : FileTree workingDirectory)

/-! ### What is found in a tree -/

/-- The contents of a file as text. -/
def text (path : String) : Except FileError String :=
  match t.read path with
  | .error e => .error e
  | .ok bytes =>
    match String.fromUTF8? bytes with
    | some text => .ok text
    | none => .error .notUtf8

/-- `t.text path = .ok s` iff the file holds the bytes of `s`. -/
theorem text_eq_ok_iff {path s : String} :
    t.text path = .ok s ↔ t.read path = .ok s.toByteArray := by
  unfold text
  cases t.read path with
  | error e => simp
  | ok bytes =>
    rw [Except.ok.injEq, ← Text.fromUTF8?_eq_some_iff]
    cases h : String.fromUTF8? bytes <;> simp [h]

/-- The settings in a file. -/
def settingsAt (path : String) : Except Failure Settings :=
  (t.text path).mapError (.settingsUnreadable path) >>= Settings.ofFile path

/-- The settings for a script: those of the given file, else those beside the script, else the
    defaults. -/
def settings (script : String) : Option String → Except Failure Settings
  | some path => t.settingsAt path
  | none =>
    if t.isFile (settingsBeside script) then t.settingsAt (settingsBeside script) else .ok {}

/-- The text of the module of a script. -/
def moduleText (script : String) (config : Option String) (reads : Option ReadPolicy) :
    Except Failure String := do
  let settings ← t.settings script config
  let source ← (t.text script).mapError (.sourceUnreadable script)
  (·.text) <$> (compile source (settings.options reads)).mapError (.script script)

/-- Why a script cannot be compiled. The settings come before the text, and the text before what it
    says. -/
inductive Fails (script : String) (config : Option String) (reads : Option ReadPolicy) :
    Failure → Prop
  | settings {f : Failure} : t.settings script config = .error f → Fails script config reads f
  | source {settings : Settings} {e : FileError} :
    t.settings script config = .ok settings → t.text script = .error e →
      Fails script config reads (.sourceUnreadable script e)
  | script {settings : Settings} {source : String} {e : ScriptError} :
    t.settings script config = .ok settings → t.text script = .ok source →
      compile source (settings.options reads) = .error e →
        Fails script config reads (.script script e)

variable {t}

section

variable {script : String} {config : Option String} {reads : Option ReadPolicy}

/-- `t.moduleText` succeeds iff settings, text and compilation do, and gives `module.text`. -/
theorem moduleText_eq_ok_iff {text : String} :
    t.moduleText script config reads = .ok text ↔ ∃ settings source module,
      t.settings script config = .ok settings ∧ t.text script = .ok source ∧
        compile source (settings.options reads) = .ok module ∧ module.text = text := by
  simp only [moduleText, bind_eq_ok_iff, map_eq_ok_iff, mapError_eq_ok_iff]
  constructor
  · rintro ⟨settings, hsettings, source, hsource, module, hmodule, htext⟩
    exact ⟨settings, source, module, hsettings, hsource, hmodule, htext⟩
  · rintro ⟨settings, source, module, hsettings, hsource, hmodule, htext⟩
    exact ⟨settings, hsettings, source, hsource, module, hmodule, htext⟩

/-- `t.Fails script config reads f` iff `t.moduleText script config reads = .error f`. -/
theorem fails_iff {f : Failure} :
    t.Fails script config reads f ↔ t.moduleText script config reads = .error f := by
  constructor
  · -- Each way to fail stops `moduleText` where it says.
    rintro (hsettings | ⟨hsettings, htext⟩ | ⟨hsettings, htext, hcompile⟩)
    · rw [moduleText, hsettings]
      rfl
    · rw [moduleText, hsettings, htext]
      rfl
    · rw [moduleText, hsettings, htext]
      show (·.text) <$> (compile _ _).mapError _ = _
      rw [hcompile]
      rfl
  · intro h
    -- Else follow the three steps to the first one that fails.
    unfold moduleText at h
    cases hsettings : t.settings script config with
    | error e =>
      rw [hsettings] at h
      obtain rfl := Except.error.inj h
      exact .settings hsettings
    | ok settings =>
      rw [hsettings] at h
      cases htext : t.text script with
      | error e =>
        rw [htext] at h
        obtain rfl := Except.error.inj h
        exact .source hsettings htext
      | ok source =>
        rw [htext] at h
        change (·.text) <$> (compile source (settings.options reads)).mapError _ = _ at h
        cases hcompile : compile source (settings.options reads) with
        | error e =>
          rw [hcompile] at h
          obtain rfl := Except.error.inj h
          exact .script hsettings htext hcompile
        | ok module =>
          rw [hcompile] at h
          cases h

end

/-! ### Looking at a tree -/

/-- `readText` gives `t.text path` and leaves the tree. -/
theorem run_readText (path : String) :
    (readText path : StateM (FileTree workingDirectory) _).run t = (t.text path, t) := by
  have hread : (FileSystem.read path : StateM (FileTree workingDirectory) _).run t =
      (t.read path, t) := rfl
  unfold readText text
  rw [StateT.run_bind, hread]
  cases t.read path with
  | error e => rfl
  | ok bytes =>
    cases h : String.fromUTF8? bytes <;> simp only [h, bind] <;> rfl

/-- `readText`, with its failure blamed as `blame` says, gives `t.text path` and leaves the tree. -/
theorem run_file (blame : FileError → Failure) (path : String) :
    (ExceptT.mk (Except.mapError blame <$> readText path) :
      ExceptT Failure (StateM (FileTree workingDirectory)) _).run.run t =
      ((t.text path).mapError blame, t) := by
  rw [ExceptT.run_mk, StateT.run_map, run_readText]
  rfl

/-- `FileSystem.write` leaves the tree that `t.write` gives. -/
theorem run_write_of_ok {path : String} {bytes : ByteArray} {t' : FileTree workingDirectory}
    (h : t.write path bytes = .ok t') :
    (FileSystem.write path bytes : StateM (FileTree workingDirectory) _).run t = (.ok (), t') := by
  simp only [FileSystem.write, StateT.run_bind, StateT.run_get, pure_bind, h]
  rfl

/-- If `t.write` fails, `FileSystem.write` fails with the same error and leaves the tree. -/
theorem run_write_of_error {path : String} {bytes : ByteArray} {e : FileError}
    (h : t.write path bytes = .error e) :
    (FileSystem.write path bytes : StateM (FileTree workingDirectory) _).run t = (.error e, t) := by
  simp only [FileSystem.write, StateT.run_bind, StateT.run_get, pure_bind, h]
  rfl

/-- A failure to write is blamed as `blame` says, and the tree is what the write left. -/
theorem run_blaming_write (blame : FileError → Failure) {path : String} {bytes : ByteArray}
    {result : Except FileError Unit} {t' : FileTree workingDirectory}
    (h : (FileSystem.write path bytes : StateM (FileTree workingDirectory) _).run t =
      (result, t')) :
    (ExceptT.mk (Except.mapError blame <$> FileSystem.write path bytes) :
      ExceptT Failure (StateM (FileTree workingDirectory)) _).run.run t =
        (result.mapError blame, t') := by
  rw [ExceptT.run_mk, StateT.run_map, h]
  rfl

/-- `loadSettings` gives `t.settingsAt` and leaves the tree. -/
theorem loadSettings_on (path : String) : (loadSettings path).on t = (t.settingsAt path, t) := by
  rw [Job.on, (amountsTo_loadSettings path).outcome_eq]
  exact run_bind_of_look (run_file _ path) fun source => rfl

/-- `settingsFor` gives `t.settings` and leaves the tree. -/
theorem settingsFor_on (script : String) (config : Option String) :
    (settingsFor script config).on t = (t.settings script config, t) := by
  cases config with
  | some path => exact loadSettings_on path
  | none =>
    have hfound :
        ((FileSystem.isFile (settingsBeside script) : StateM (FileTree workingDirectory) Bool) :
        ExceptT Failure (StateM (FileTree workingDirectory)) Bool).run.run t =
          (.ok (t.isFile (settingsBeside script)), t) := rfl
    rw [Job.on, (amountsTo_settingsFor_none script).outcome_eq]
    refine (bind_of_ok hfound).trans ?_
    rw [settings]
    split
    · exact loadSettings_on _
    · rfl

/-- `emitFile` gives the text of the module that `compile` makes of `t.text script`, and leaves the
    tree. -/
theorem emitFile_on (script : String) (options : Options) :
    (emitFile script options).on t =
      ((t.text script).mapError (.sourceUnreadable script) >>= fun source =>
        (·.text) <$> (compile source options).mapError (.script script), t) := by
  rw [Job.on, (amountsTo_emitFile script options).outcome_eq,
    (amountsTo_readSource script).outcome_eq]
  exact run_bind_of_look (run_file _ script) fun source => run_map_of_look _ rfl

section

variable (script : String) (config : Option String) (reads : Option ReadPolicy) (verbosity : Nat)

/-- `emit` gives `t.moduleText` and leaves the tree. -/
theorem emit_on :
    (perform ⟨.emit, script, reads, config, verbosity⟩).on t =
      ((fun text => (text, 0)) <$> t.moduleText script config reads, t) := by
  rw [Job.on, (amountsTo_emit script config reads verbosity).outcome_eq,
    (amountsTo_optionsFor script config reads).outcome_eq]
  have hsettings := run_map_of_look (·.options reads) (settingsFor_on (t := t) script config)
  rw [run_bind_of_look hsettings fun options => run_map_of_look _ (emitFile_on script options)]
  simp [moduleText]

/-- `emit` prints `text` iff `t.moduleText` gives it. -/
theorem emit_on_iff {text : String} :
    (perform ⟨.emit, script, reads, config, verbosity⟩).on t = (.ok (text, 0), t) ↔
      t.moduleText script config reads = .ok text := by
  rw [emit_on, Prod.mk.injEq, map_eq_ok_iff]
  simp

/-- `check` succeeds iff `t.moduleText` does, prints nothing and leaves the tree. -/
theorem check_on :
    (perform ⟨.check, script, reads, config, verbosity⟩).on t =
      ((fun _ => ("", 0)) <$> t.moduleText script config reads, t) := by
  have hemit := emit_on (t := t) script config reads verbosity
  rw [Job.on] at hemit
  rw [Job.on, outcome_check, run_map_of_look _ hemit, Functor.map_map]

/-- If there is no `t.moduleText`, `build` fails in the same way and leaves the tree. -/
theorem build_on_of_error {f : Failure} (h : t.moduleText script config reads = .error f)
    (output : Option String) :
    (perform ⟨.build output, script, reads, config, verbosity⟩).on t = (.error f, t) := by
  have hemit := emit_on (t := t) script config reads verbosity
  rw [h] at hemit
  rw [Job.on, outcome_build]
  exact bind_of_error hemit

/-- If `t.write` takes `t.moduleText` to `t'`, `build` succeeds and leaves `t'`. -/
theorem build_on_of_written {text : String} {t' : FileTree workingDirectory}
    (h : t.moduleText script config reads = .ok text) {output : Option String}
    (hwrite : t.write (output.getD (defaultOutput script)) text.toByteArray = .ok t') :
    (perform ⟨.build output, script, reads, config, verbosity⟩).on t = (.ok ("", 0), t') := by
  have hemit := emit_on (t := t) script config reads verbosity
  rw [h] at hemit
  rw [Job.on, outcome_build]
  exact (bind_of_ok hemit).trans (bind_of_ok (run_blaming_write _ (run_write_of_ok hwrite)))

/-- If `t.write` fails with `e`, `build` fails with `outputUnwritable` and leaves the tree. -/
theorem build_on_of_unwritten {text : String} {e : FileError}
    (h : t.moduleText script config reads = .ok text) {output : Option String}
    (hwrite : t.write (output.getD (defaultOutput script)) text.toByteArray = .error e) :
    (perform ⟨.build output, script, reads, config, verbosity⟩).on t =
      (.error (.outputUnwritable (output.getD (defaultOutput script)) e), t) := by
  have hemit := emit_on (t := t) script config reads verbosity
  rw [h] at hemit
  rw [Job.on, outcome_build]
  exact (bind_of_ok hemit).trans (bind_of_error (run_blaming_write _ (run_write_of_error hwrite)))

end

end FileTree

/-- On every file system, to build is to emit and to write what was emitted to the output, and to
    check is to emit and to drop it. On a tree of files: if the settings, the text of the script or
    the script itself are to blame, all three fail with this and nothing changes. Else emitting and
    checking succeed and change nothing, and a build either fails because the output cannot be
    written and changes nothing, or makes the output what is emitted and changes no other file. -/
theorem build_all_or_nothing (script : String) (config : Option String) (reads : Option ReadPolicy)
    (chosen : Option String) (verbosity : Nat) :
    let output := chosen.getD (defaultOutput script)
    let emit : Invocation := ⟨.emit, script, reads, config, verbosity⟩
    let check : Invocation := ⟨.check, script, reads, config, verbosity⟩
    let build : Invocation := ⟨.build chosen, script, reads, config, verbosity⟩
    (∀ (m : Type → Type) [Monad m] [LawfulMonad m] [FileSystem m],
      (perform check : Job m _).outcome = (fun _ => ("", 0)) <$> (perform emit).outcome ∧
      (perform build : Job m _).outcome = (do
        let emitted ← (perform emit).outcome
        ExceptT.mk (Except.mapError (.outputUnwritable output) <$>
          FileSystem.write output emitted.1.toByteArray)
        return ("", 0))) ∧
    ∀ (workingDirectory : List String) (t : FileTree workingDirectory),
      (∀ f, t.Fails script config reads f →
        (perform build).on t = (.error f, t) ∧ (perform emit).on t = (.error f, t) ∧
          (perform check).on t = (.error f, t)) ∧
      ((∀ f, ¬ t.Fails script config reads f) → ∃ text,
        (perform emit).on t = (.ok (text, 0), t) ∧ (perform check).on t = (.ok ("", 0), t) ∧
        ((∃ e, t.write output text.toByteArray = .error e ∧
            (perform build).on t = (.error (.outputUnwritable output e), t)) ∨
          ∃ t' p, t.write output text.toByteArray = .ok t' ∧
            (perform build).on t = (.ok ("", 0), t') ∧
            t.Replaces output text.toByteArray t' p)) := by
  intro output emit check build
  refine ⟨fun m _ _ _ => ⟨outcome_check .., outcome_build ..⟩,
    fun _ t => ⟨fun f hf => ?_, fun hf => ?_⟩⟩
  · -- A failure is the error of `moduleText`, on which all three commands stop with it.
    have hmodule := FileTree.fails_iff.mp hf
    refine ⟨FileTree.build_on_of_error _ _ _ _ hmodule _, ?_, ?_⟩
    · rw [FileTree.emit_on, hmodule]
      rfl
    · rw [FileTree.check_on, hmodule]
      rfl
  · -- Without one there is a text, and only `build` can fail still, when it is written.
    cases hmodule : t.moduleText script config reads with
    | error f => exact absurd (FileTree.fails_iff.mpr hmodule) (hf f)
    | ok text =>
      refine ⟨text, ?_, ?_, ?_⟩
      · rw [FileTree.emit_on, hmodule]
        rfl
      · rw [FileTree.check_on, hmodule]
        rfl
      · cases hwrite : t.write output text.toByteArray with
        | error e => exact .inl ⟨e, rfl, FileTree.build_on_of_unwritten _ _ _ _ hmodule hwrite⟩
        | ok t' =>
          obtain ⟨p, hp⟩ := FileTree.replaces_of_write hwrite
          exact .inr ⟨t', p, rfl, FileTree.build_on_of_written _ _ _ _ hmodule hwrite, hp⟩

/-- `sampleSource` has a `t.moduleText` with the default settings, wherever it is read from. -/
theorem exists_moduleText_sample {workingDirectory : List String}
    {t : FileTree workingDirectory} {script : String} (hsettings : t.settings script none = .ok {})
    (hread : t.read script = .ok sampleSource.toByteArray) :
    ∃ text, t.moduleText script none none = .ok text := by
  have hcompile := parsesTo_sample.compile_eq_ok fun h : ({} : Options).reads = .error => by cases h
  exact ⟨_, FileTree.moduleText_eq_ok_iff.mpr ⟨{}, _, _, hsettings, (t.text_eq_ok_iff).mpr hread,
    hcompile, rfl⟩⟩

/-- A tree with a script in its working directory. -/
def sampleTree : FileTree ["home"] := ⟨[(["home", "a.ssc"], sampleSource.toByteArray)]⟩

/-- A script that is missing, and one that is there. -/
theorem build_all_or_nothing_sample :
    (sampleTree.Fails "b.ssc" none none (.sourceUnreadable "b.ssc" .notFound) ∧
      (perform ⟨.build none, "b.ssc", none, none, 0⟩).on sampleTree =
        (.error (.sourceUnreadable "b.ssc" .notFound), sampleTree)) ∧
    (∀ f, ¬ sampleTree.Fails "a.ssc" none none f) ∧
      ∃ text t' p, (perform ⟨.emit, "a.ssc", none, none, 0⟩).on sampleTree =
        (.ok (text, 0), sampleTree) ∧
        (perform ⟨.build none, "a.ssc", none, none, 0⟩).on sampleTree = (.ok ("", 0), t') ∧
        sampleTree.Replaces "a.ll" text.toByteArray t' p := by
  have hmissing : sampleTree.Fails "b.ssc" none none (.sourceUnreadable "b.ssc" .notFound) :=
    .source rfl rfl
  have hthere : ∀ f, ¬ sampleTree.Fails "a.ssc" none none f := by
    intro f hf
    obtain ⟨text, htext⟩ : ∃ text, sampleTree.moduleText "a.ssc" none none = .ok text :=
      exists_moduleText_sample rfl rfl
    rw [FileTree.fails_iff, htext] at hf
    cases hf
  refine ⟨⟨hmissing,
    (((build_all_or_nothing "b.ssc" none none none 0).2 _ sampleTree).1 _ hmissing).1⟩, hthere, ?_⟩
  obtain ⟨text, hemit, -, h⟩ :=
    ((build_all_or_nothing "a.ssc" none none none 0).2 _ sampleTree).2 hthere
  rcases h with ⟨e, hwrite, -⟩ | ⟨t', p, -, hbuild, hp⟩
  · cases hwrite
  · exact ⟨text, t', p, hemit, hbuild, hp⟩

end Straightline
