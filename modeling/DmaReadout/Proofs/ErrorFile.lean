import DmaReadout.Proofs.Accounting
import DmaReadout.Proofs.Files
import DmaReadout.Proofs.Outcome

/-! # The file of mismatches

The log of a run is written whatever came of the run. A run that fails keeps its own failure and leaves
in the file what its verifier had found by then.

* `Bench.keeps_run`: a run leaves the folders as they are, so that the log can still be written.
* `Bench.Found`: what a run has found; `Bench.kept_of_found`: its log keeps the first mismatches found.
* `error_file_written`: the main statement. -/

namespace DmaReadout

/-! ### The folders -/

theorem Mapping.keeps_save (mapping : Mapping) (files : Files) :
    files.Keeps (mapping.save files) := by
  unfold save
  split
  · exact .refl _
  · exact Files.keeps_setContent _ _ _

theorem keeps_createDump {files : Files} {mode : DumpMode} {folder : String}
    {d : Option (Dump × String) × Files} (h : createDump files mode folder = .ok d) :
    files.Keeps d.2 := by
  unfold createDump at h
  split at h
  · cases h
    exact .refl _
  · dsimp only at h
    split at h
    · cases h
    · rename_i hwrite
      cases h
      exact Files.keeps_write hwrite

theorem keeps_saveDump (files : Files) (dump? : Option Dump) (path? : Option String) :
    files.Keeps (saveDump files dump? path?) := by
  unfold saveDump
  split
  · rename_i d path
    cases hwrite : files.write path d.sink.taken with
    | error e => exact .refl _
    | ok files' => exact Files.keeps_write hwrite
  · exact .refl _

namespace Bench

variable {σ : Type} [Channel σ] {b : Bench} {timing : Timing σ} {s : Setup} {c : σ}
  {mapping : Mapping} {files : Files}

/-- A run leaves the folders as they are. -/
theorem keeps_run (b : Bench) (timing : Timing σ) (c : σ) (mapping : Mapping) (files : Files) :
    files.Keeps (b.run timing c mapping files).files := by
  cases hs : b.setup (Channel.family c) (Channel.bar c) mapping.memory.size (mapping.save files) with
  | error e =>
    rw [run_of_setup_error hs]
    exact .refl _
  | ok s =>
    have hsetup := (mapping.keeps_save files).trans (keeps_createDump (setup_eq_ok hs).2.2.2)
    rcases hstart : Channel.start c with ⟨_ | _, c'⟩
    · rw [run_of_start_error hs hstart]
      exact hsetup
    · rw [run_of_start hs hstart]
      exact (hsetup.trans (Mapping.keeps_save _ _)).trans (keeps_saveDump _ _ _)

/-! ### The mismatches of a run -/

/-- The two tasks of a run on a started channel before their first step. -/
def begun (b : Bench) (timing : Timing σ) (s : Setup) (channel : σ) (mapping : Mapping) : Machine σ :=
  .start (b.pipeline (s.withRoom timing.copyRoom?) channel (mapping.reload s.files).memory)

/-- **What a run has found**: nothing if it was rejected or the channel could not be started, otherwise
the mismatches in the pages that were read until both tasks had ended. -/
inductive Found (b : Bench) (timing : Timing σ) (c : σ) (mapping : Mapping) (files : Files) :
    List Mismatch → Prop where
  | rejected {e : Error} (hsetup : b.setup (Channel.family c) (Channel.bar c) mapping.memory.size
      (mapping.save files) = .error e) : Found b timing c mapping files []
  | idle {s : Setup} {e : Error} {c' : σ} (hsetup : b.setup (Channel.family c) (Channel.bar c)
      mapping.memory.size (mapping.save files) = .ok s)
    (hstart : Channel.start c = (.error e, c')) : Found b timing c mapping files []
  | ran {s : Setup} {c' : σ} (hsetup : b.setup (Channel.family c) (Channel.bar c)
      mapping.memory.size (mapping.save files) = .ok s) (hstart : Channel.start c = (.ok (), c'))
    (turns : List Turn)
    (hturns : b.ended timing s c' mapping = (b.begun timing s c' mapping).run b.plan turns) :
    Found b timing c mapping files ((b.begun timing s c' mapping).mismatchesFound b.plan turns)

theorem Found.eq_nil_of_rejected {found : List Mismatch} {e : Error}
    (h : b.Found timing c mapping files found)
    (he : b.setup (Channel.family c) (Channel.bar c) mapping.memory.size (mapping.save files) =
      .error e) : found = [] := by
  cases h with
  | rejected | idle => rfl
  | ran hsetup => exact absurd (hsetup.symm.trans he) nofun

theorem exists_found (hruns : timing.Runs b.plan) (c : σ) (mapping : Mapping) (files : Files) :
    ∃ found, b.Found timing c mapping files found := by
  cases hs : b.setup (Channel.family c) (Channel.bar c) mapping.memory.size (mapping.save files) with
  | error e => exact ⟨_, .rejected hs⟩
  | ok s =>
    rcases hstart : Channel.start c with ⟨e | ⟨⟩, c'⟩
    · exact ⟨_, .idle hs hstart⟩
    · obtain ⟨⟨turns, hturns⟩, -⟩ := hruns (b.pipeline (s.withRoom timing.copyRoom?) c'
        (mapping.reload s.files).memory)
      exact ⟨_, .ran hs hstart turns hturns⟩

/-- A setup that checks pages has a fresh verifier. -/
theorem verifier_of_setup (hcheck : b.config.errorCheck = true) {family : Family} {bar : Bar}
    {size : Nat} (h : b.setup family bar size files = .ok s) :
    s.verifier? = some ⟨family, b.config.pattern, b.config.resync, none,
      { limit := b.config.limits.maxRecorded }⟩ := by
  have hverifier := (setup_eq_ok h).2.1
  rw [verifier?, if_pos hcheck] at hverifier
  cases hcreate : Verifier.create family b.config.pattern b.config.resync
      b.config.limits.maxRecorded with
  | error e =>
    rw [hcreate] at hverifier
    cases hverifier
  | ok v =>
    obtain ⟨-, rfl⟩ := Verifier.create_eq_ok hcreate
    rw [hcreate] at hverifier
    exact (Except.ok.inj hverifier).symm

theorem verifier_pipeline (b : Bench) (s : Setup) (c : σ) (memory : Memory) :
    (b.pipeline s c memory).verifier? = s.verifier? ∧ (b.pipeline s c memory).stats.errors = 0 := by
  unfold pipeline
  cases s.hammer? <;> exact ⟨rfl, rfl⟩

/-- The log of a transfer is that of its tasks. -/
theorem log_transfer (family : Family) (mapping : Mapping) (p : Pipeline σ) :
    (b.transfer timing s family mapping p).log =
      ((timing.tasks b.plan (.start p)).shared.verifier?.map (·.log)).getD .silent := by
  rw [← (Pipeline.shutdown_keeps b.plan
    (timing.drainRounds (timing.tasks b.plan (.start p)).shared) _).2]
  rfl

/-- The log of a run keeps the first of the mismatches found. -/
theorem kept_of_found (hcheck : b.config.errorCheck = true) {found : List Mismatch}
    (h : b.Found timing c mapping files found) :
    (b.run timing c mapping files).log.kept.toList =
      found.take b.config.limits.maxRecorded := by
  cases h with
  | rejected hsetup =>
    rw [run_of_setup_error hsetup]
    exact List.take_nil.symm
  | idle hsetup hstart =>
    rw [run_of_start_error hsetup hstart]
    exact List.take_nil.symm
  | @ran s c' hsetup hstart turns hturns =>
    have hv := verifier_of_setup hcheck hsetup
    obtain ⟨hpipeline, herrors⟩ := b.verifier_pipeline (s.withRoom timing.copyRoom?) c'
      (mapping.reload s.files).memory
    obtain ⟨⟨v', hv', hlog⟩, -⟩ := Machine.Logs.run b.plan turns
      (⟨⟨_, hpipeline.trans hv, rfl⟩, herrors⟩ : Machine.Logs
        { limit := b.config.limits.maxRecorded } 0 (b.begun timing s c' mapping))
    rw [run_of_start hsetup hstart, log_transfer,
      show timing.tasks b.plan (.start _) = b.ended timing s c' mapping from rfl, hturns, hv']
    exact (congrArg (·.kept.toList) hlog).trans (ErrorLog.kept_recordAll _ _)

/-- The report of a run has its log. -/
theorem log_of_report {report : Report} (h : (b.run timing c mapping files).result = .ok report) :
    report.log = (b.run timing c mapping files).log := by
  obtain ⟨s, c', -, -, hrun⟩ := run_eq_ok h
  rw [hrun] at h ⊢
  obtain ⟨-, reclaimed, -, rfl⟩ := transfer_eq_ok h
  rfl

/-! ### The main statement -/

/-- What stands in the file of a log that was written. -/
theorem read_written (hsound : files.Sound) {written : Files}
    (h : (b.run timing c mapping files).files.write b.errorPath
      (b.run timing c mapping files).log.text.toUTF8 = .ok written) :
    ((b.runLogged timing c mapping files).files.read? b.errorPath).map Content.toBytes =
      some (b.run timing c mapping files).log.text.toUTF8 := by
  rw [(runLogged_of_written h).1]
  exact Files.read_write ((b.keeps_run timing c mapping files).sound hsound) h

/-- **The log survives.** With checked pages, on any channel and however the steps of the tasks fall:

* a run that fails keeps its own failure, whatever comes of writing the log;
* a run that succeeds with its log written names the file, and the file has the text of its report;
* if the path of the log can be written, a run that succeeds does so with its log written, and the file
  has the lines of the first mismatches found, as many as are kept, whatever came of the run. It is
  empty if the run was rejected. -/
theorem error_file_written {σ : Type} [Channel σ] (b : Bench) (hcheck : b.config.errorCheck = true)
    (timing : Timing σ) (hruns : timing.Runs b.plan) (c : σ) (mapping : Mapping) (files : Files)
    (hsound : files.Sound) :
    (∀ e, (b.run timing c mapping files).result = .error e →
      (b.runLogged timing c mapping files).result = .error e) ∧
    (∀ report, (b.runLogged timing c mapping files).result = .ok report →
      report.errorFile? = some b.errorPath ∧
        ((b.runLogged timing c mapping files).files.read? b.errorPath).map Content.toBytes =
          some report.log.text.toUTF8) ∧
    (files.Writable b.errorPath →
      (∀ report, (b.run timing c mapping files).result = .ok report →
        (b.runLogged timing c mapping files).result =
          .ok { report with errorFile? := some b.errorPath }) ∧
      (∃ found, b.Found timing c mapping files found) ∧
      ∀ found, b.Found timing c mapping files found →
        ((b.runLogged timing c mapping files).files.read? b.errorPath).map Content.toBytes =
          some (lines (found.take b.config.limits.maxRecorded)).toUTF8 ∧
        ((∃ e, b.setup (Channel.family c) (Channel.bar c) mapping.memory.size (mapping.save files) =
          .error e) → found = [])) := by
  refine ⟨fun e he => ?_, fun report hreport => ?_, fun hwritable => ?_⟩
  · rcases b.runLogged_cases timing c mapping files with ⟨e', hrun, hlogged⟩ | ⟨report, hrun, -⟩
    · rw [hlogged, ← hrun, he]
    · cases hrun.symm.trans he
  · rcases b.runLogged_cases timing c mapping files with ⟨e, -, hlogged⟩ |
      ⟨r, hrun, ⟨fault, hlogged⟩ | ⟨written, hwrite, hlogged⟩⟩
    · cases hlogged.symm.trans hreport
    · cases hlogged.symm.trans hreport
    · obtain rfl := Except.ok.inj (hlogged.symm.trans hreport)
      rw [read_written hsound hwrite]
      exact ⟨rfl, congrArg (fun l => some l.text.toUTF8) (log_of_report hrun).symm⟩
  · obtain ⟨written, hwrite⟩ := Files.write_of_writable
      ((b.keeps_run timing c mapping files).writable hwritable)
      (b.run timing c mapping files).log.text.toUTF8
    refine ⟨fun report hreport => ?_, exists_found hruns c mapping files,
      fun found hfound => ⟨?_, fun ⟨e, he⟩ => hfound.eq_nil_of_rejected he⟩⟩
    · rw [(runLogged_of_written hwrite).2, hreport, Except.map]
    · rw [read_written hsound hwrite, ErrorLog.text_eq, kept_of_found hcheck hfound]

/-- Checks the pages of a run that reads three of them. -/
def checking : Bench :=
  ⟨{ card := .emulated .cru, channel := 0, maxPages? := some 3 }, .small⟩

/-- A channel that fills one superpage and one page of the next one, and cannot be stopped. -/
def unstoppable : Scripted where
  family := .cru
  pageSize := 40
  budget? := some 3
  failsStop := true
  bar := .zeroed .cru

/-- The reader gets two pages in which nothing was written, then the channel cannot be stopped. -/
theorem error_file_written_small :
    (checking.runLogged (.steady false .zero) unstoppable ⟨{ size := 160 }, none, none, false⟩
        .start).result = .error (.channel (.other "stop failed")) ∧
      ((checking.runLogged (.steady false .zero) unstoppable ⟨{ size := 160 }, none, none, false⟩
        .start).files.read? "./readout_errors.txt").map Content.toBytes =
          some ("event:0 i:8 cnt:0 exp:0x1 val:0x0\nevent:1 i:0 cnt:1 exp:0x100 val:0x0\n").toUTF8 := by
  obtain ⟨herror, -, hwritten⟩ := error_file_written checking rfl (.steady false .zero)
    (Timing.steady_runs _ _ _) unstoppable ⟨{ size := 160 }, none, none, false⟩ .start
      Files.sound_start
  have hplace : Files.start.filePlace "./readout_errors.txt" = .ok ["home", "readout_errors.txt"] := by
    rw [Files.filePlace, Files.locate, Files.names_eq, String.any, String.contains_bool_eq]
    decide +kernel
  have hpath : checking.errorPath = "./readout_errors.txt" := by decide +kernel
  obtain ⟨-, ⟨found, hfound⟩, hread⟩ := hwritten ⟨_, hpath ▸ hplace⟩
  have hkept : found.take 1000 = [⟨0, 8, 0, 1, 0⟩, ⟨1, 0, 1, 0x100, 0⟩] :=
    (kept_of_found rfl hfound).symm.trans (by decide +kernel)
  refine ⟨herror _ (failureOf_eq_some.1 (by decide +kernel)), ?_⟩
  rw [← hpath, (hread found hfound).1, show checking.config.limits.maxRecorded = 1000 from rfl, hkept]
  exact congrArg (fun text => some (String.toUTF8 text)) (by decide +kernel)

end Bench

end DmaReadout
