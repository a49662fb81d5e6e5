import Straightline.CommandLine.Command

/-!
# What comes of a job

* `Job.outcome` is what comes of a job, without what it reports, and `Job.AmountsTo` says so of jobs
  for which nothing that was reported before makes a difference. `Job.AmountsTo.bind`: jobs in a row
  amount to what they amount to in a row.
* `outcome_build` and `outcome_check`: on every file system, to build is to emit and then to write
  what was emitted to the output, and to check is to emit and then to drop it.
-/

namespace Straightline

variable {m : Type → Type} [Monad m]

namespace Job

variable {α β : Type}

/-- What comes of a job, without what it reports. -/
def outcome (job : Job m α) : ExceptT Failure m α := ExceptT.mk (Prod.fst <$> job.run.run #[])

/-- `job.AmountsTo work`: the job does what `work` does, whatever was reported before. -/
def AmountsTo (job : Job m α) (work : ExceptT Failure m α) : Prop :=
  ∀ notices : Array Notice, Prod.fst <$> job.run.run notices = work.run

/-- A job that amounts to `work` has it as `outcome`. -/
theorem AmountsTo.outcome_eq {job : Job m α} {work : ExceptT Failure m α} (h : job.AmountsTo work) :
    job.outcome = work :=
  h #[]

/-- A job that amounts to something amounts to its `outcome`. -/
theorem AmountsTo.amountsTo_outcome {job : Job m α} {work : ExceptT Failure m α}
    (h : job.AmountsTo work) :
    job.AmountsTo job.outcome := by
  rwa [h.outcome_eq]

variable [LawfulMonad m]

/-- `AmountsTo` goes through `>>=`. -/
theorem AmountsTo.bind {x : Job m α} {f : α → Job m β} {work : ExceptT Failure m α}
    {next : α → ExceptT Failure m β} (hx : x.AmountsTo work) (hf : ∀ a, (f a).AmountsTo (next a)) :
    (x >>= f).AmountsTo (work >>= next) := by
  intro notices
  simp only [ExceptT.run_bind, StateT.run_bind, map_bind, ← hx notices, bind_map_left]
  refine bind_congr fun ⟨result, notices'⟩ => ?_
  cases result with
  | ok a => exact hf a notices'
  | error e => simp

/-- `pure a` amounts to itself. -/
theorem amountsTo_pure (a : α) : (pure a : Job m α).AmountsTo (pure a) := fun notices => by simp

/-- `throw e` amounts to itself. -/
theorem amountsTo_throw (e : Failure) : (throw e : Job m α).AmountsTo (throw e) :=
  fun notices => by simp

/-- What is lifted from `m` amounts to itself. -/
theorem amountsTo_lift (work : m α) : (liftM work : Job m α).AmountsTo (liftM work) :=
  fun notices => by
  simp [liftM, monadLift, MonadLift.monadLift]

/-- `note n` amounts to nothing. -/
theorem amountsTo_note (n : Notice) : (note n : Job m Unit).AmountsTo (pure ()) := fun notices => by
  change Prod.fst <$> ((pure ((), notices.push n) : m _) >>= fun r => pure (Except.ok r.1, r.2)) = _
  simp

/-- A note makes no difference in front of a job. -/
theorem AmountsTo.after_note {job : Job m α} {work : ExceptT Failure m α} (h : job.AmountsTo work)
    (n : Notice) :
    (note n >>= fun _ => job).AmountsTo work := by
  have := (amountsTo_note (m := m) n).bind fun _ => h
  rwa [pure_bind] at this

/-- A whole log of notes amounts to nothing. -/
theorem amountsTo_notes (log : Array Event) :
    (log.forM fun e => note (.event e) : Job m Unit).AmountsTo (pure ()) := by
  obtain ⟨events⟩ := log
  simp only [List.size_toArray, List.forM_toArray']
  induction events with
  | nil => exact amountsTo_pure ()
  | cons e events ih => exact ih.after_note (.event e)

/-- `file blame work` amounts to `work` with its failure blamed as `blame` says. -/
theorem amountsTo_file (blame : FileError → Failure) (work : m (Except FileError α)) :
    (file blame work).AmountsTo (ExceptT.mk (Except.mapError blame <$> work)) := by
  intro notices
  -- Unfolded down to `m`, the work is done once and the notices are handed on.
  have hrun : (file blame work).run.run notices =
      work >>= fun result => pure (result.mapError blame, notices) := by
    simp only [file, ExceptT.run_bind, StateT.run_bind]
    simp only [liftM, monadLift, MonadLift.monadLift, ExceptT.run_lift, StateT.run_map,
      StateT.run_lift, map_bind, bind_assoc, map_pure, pure_bind]
    refine bind_congr fun result => ?_
    cases result <;> rfl
  rw [hrun]
  simp

end Job

variable [LawfulMonad m]

/-! ### Jobs on the text of a script -/

/-- `compileScript` amounts to `compile`, whose errors it blames on the script. -/
theorem amountsTo_compileScript (source name : String) (options : Options) :
    (compileScript source name options : Job m Module).AmountsTo
      (ExceptT.mk (pure ((compile source options).mapError (.script name)))) := by
  unfold compileScript compile
  generalize compilation source options = result
  obtain ⟨outcome, c⟩ := result
  have hnotes := Job.amountsTo_notes (m := m) c.log
  cases outcome with
  | ok _ =>
    have h := hnotes.bind fun _ => Job.amountsTo_pure c.module
    rwa [pure_bind] at h
  | error e =>
    have h := hnotes.bind fun _ =>
      (Job.amountsTo_throw (.script name e) : (throw _ : Job m Module).AmountsTo _)
    rwa [pure_bind] at h

/-- `emitScript` amounts to `Module.text` of what `compile` gives. -/
theorem amountsTo_emitScript (source name : String) (options : Options) :
    (emitScript source name options : Job m String).AmountsTo
      ((·.text) <$> ExceptT.mk (pure ((compile source options).mapError (.script name)))) := by
  rw [map_eq_pure_bind]
  exact (amountsTo_compileScript source name options).bind fun _ =>
    (Job.amountsTo_pure _).after_note _

/-- `checkScript` amounts to `compile` and drops the module. -/
theorem amountsTo_checkScript (source name : String) (options : Options) :
    (checkScript source name options : Job m Unit).AmountsTo
      ((fun _ => ()) <$> ExceptT.mk (pure ((compile source options).mapError (.script name)))) := by
  rw [map_eq_pure_bind]
  exact (amountsTo_compileScript source name options).bind fun _ => Job.amountsTo_pure ()

/-! ### Jobs on files -/

variable [FileSystem m]

/-- The settings in the text of a settings file. -/
def Settings.ofFile (path source : String) : Except Failure Settings :=
  match Settings.ofSource? source with
  | none => .error (.settingsInvalid path)
  | some settings => .ok settings

/-- `loadSettings` amounts to `readText` and `Settings.ofFile`. -/
theorem amountsTo_loadSettings (path : String) :
    (loadSettings path : Job m Settings).AmountsTo (do
      let source ← ExceptT.mk (Except.mapError (.settingsUnreadable path) <$> readText path)
      ExceptT.mk (pure (Settings.ofFile path source))) := by
  refine (Job.amountsTo_file _ _).bind fun source => ?_
  unfold Settings.ofFile
  cases Settings.ofSource? source with
  | none => exact Job.amountsTo_throw _
  | some settings => exact (Job.amountsTo_pure settings).after_note _

/-- Where the settings file of a script is looked for. -/
def settingsBeside (script : String) : String :=
  Path.join ((Path.parent? script).getD ".") settingsFile

/-- Without a given file, `settingsFor` amounts to `loadSettings` of the file beside the script, or
    to the defaults if there is none. -/
theorem amountsTo_settingsFor_none (script : String) :
    (settingsFor script none : Job m Settings).AmountsTo (do
      let found ← (FileSystem.isFile (settingsBeside script) : m Bool)
      if found then (loadSettings (settingsBeside script)).outcome else pure {}) := by
  refine (Job.amountsTo_lift _).bind fun found => ?_
  cases found with
  | true => exact (amountsTo_loadSettings _).amountsTo_outcome
  | false => exact Job.amountsTo_pure _

/-- `settingsFor` does not depend on what was reported. -/
theorem amountsTo_settingsFor (script : String) (config : Option String) :
    (settingsFor script config : Job m Settings).AmountsTo (settingsFor script config).outcome := by
  cases config with
  | some path => exact (amountsTo_loadSettings path).amountsTo_outcome
  | none => exact (amountsTo_settingsFor_none script).amountsTo_outcome

/-- The options that settings make with a policy that is given beside them. -/
def Settings.options (settings : Settings) (reads : Option ReadPolicy) : Options :=
  { settings.compile with reads := reads.getD settings.compile.reads }

/-- `optionsFor` amounts to `Settings.options` of what `settingsFor` gives. -/
theorem amountsTo_optionsFor (script : String) (config : Option String)
    (reads : Option ReadPolicy) :
    (optionsFor script config reads : Job m Options).AmountsTo
      ((·.options reads) <$> (settingsFor script config).outcome) := by
  rw [map_eq_pure_bind]
  exact (amountsTo_settingsFor script config).bind fun _ => Job.amountsTo_pure _

/-- `readSource` amounts to `readText`. -/
theorem amountsTo_readSource (path : String) :
    (readSource path : Job m String).AmountsTo
      (ExceptT.mk (Except.mapError (.sourceUnreadable path) <$> readText path)) :=
  Job.amountsTo_file _ _

/-- `emitFile` amounts to `readSource`, `compile` and `Module.text`. -/
theorem amountsTo_emitFile (path : String) (options : Options) :
    (emitFile path options : Job m String).AmountsTo (do
      let source ← (readSource path).outcome
      (·.text) <$> ExceptT.mk (pure ((compile source options).mapError (.script path)))) :=
  (amountsTo_readSource path).amountsTo_outcome.bind fun _ => amountsTo_emitScript _ _ _

/-- `checkFile` amounts to `emitFile` and drops the text. -/
theorem amountsTo_checkFile (path : String) (options : Options) :
    (checkFile path options : Job m Unit).AmountsTo
      ((fun _ => ()) <$> (emitFile path options).outcome) := by
  have h : (checkFile path options : Job m Unit).AmountsTo _ :=
    (amountsTo_readSource path).amountsTo_outcome.bind fun source =>
      amountsTo_checkScript source path options
  rw [(amountsTo_emitFile path options).outcome_eq]
  simpa using h

/-- `buildFile` amounts to `emitFile` and a write of the text. -/
theorem amountsTo_buildFile (path output : String) (options : Options) :
    (buildFile path output options : Job m Unit).AmountsTo (do
      let text ← (emitFile path options).outcome
      ExceptT.mk (Except.mapError (.outputUnwritable output) <$>
        FileSystem.write output text.toByteArray)) := by
  refine (amountsTo_emitFile path options).amountsTo_outcome.bind fun text => ?_
  have h := (Job.amountsTo_file (.outputUnwritable output)
    (FileSystem.write (m := m) output text.toByteArray)).bind
    fun _ => Job.amountsTo_note (.event (.moduleWritten path output))
  simpa using h

/-! ### Commands -/

section

variable (script : String) (config : Option String) (reads : Option ReadPolicy) (verbosity : Nat)

/-- `emit` amounts to `optionsFor` and `emitFile`. -/
theorem amountsTo_emit :
    (perform ⟨.emit, script, reads, config, verbosity⟩ : Job m _).AmountsTo (do
      let options ← (optionsFor script config reads).outcome
      (fun text => (text, 0)) <$> (emitFile script options).outcome) := by
  simp only [map_eq_pure_bind]
  exact (amountsTo_optionsFor script config reads).amountsTo_outcome.bind fun _ =>
    (amountsTo_emitFile _ _).amountsTo_outcome.bind fun _ => Job.amountsTo_pure _

/-- The outcome of `check` is that of `emit` without what was emitted. -/
theorem outcome_check :
    (perform ⟨.check, script, reads, config, verbosity⟩ : Job m _).outcome =
      (fun _ => ("", 0)) <$> (perform ⟨.emit, script, reads, config, verbosity⟩ :
        Job m _).outcome := by
  have h : (perform ⟨.check, script, reads, config, verbosity⟩ : Job m _).AmountsTo _ :=
    (amountsTo_optionsFor script config reads).amountsTo_outcome.bind fun options =>
      ((amountsTo_checkFile script options).bind
        fun _ => (Job.amountsTo_pure _).after_note _).after_note _
  rw [(amountsTo_emit script config reads verbosity).outcome_eq]
  simpa using h.outcome_eq

/-- The outcome of `build` is that of `emit`, and then what was emitted is written to the output. -/
theorem outcome_build (output : Option String) :
    (perform ⟨.build output, script, reads, config, verbosity⟩ : Job m _).outcome = (do
      let emitted ← (perform ⟨.emit, script, reads, config, verbosity⟩ : Job m _).outcome
      let output := output.getD (defaultOutput script)
      ExceptT.mk (Except.mapError (.outputUnwritable output) <$>
        FileSystem.write output emitted.1.toByteArray)
      return ("", 0)) := by
  have h : (perform ⟨.build output, script, reads, config, verbosity⟩ : Job m _).AmountsTo _ :=
    (amountsTo_optionsFor script config reads).amountsTo_outcome.bind fun options =>
      ((amountsTo_buildFile script _ options).bind
        fun _ => (Job.amountsTo_pure _).after_note _).after_note _
  rw [(amountsTo_emit script config reads verbosity).outcome_eq]
  simpa using h.outcome_eq

end

end Straightline
