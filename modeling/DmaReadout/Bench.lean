import DmaReadout.Config
import DmaReadout.Hammer
import DmaReadout.Lock
import DmaReadout.Mapping
import DmaReadout.Monitor
import DmaReadout.Pipeline.Schedule
import DmaReadout.Pipeline.Shutdown
import DmaReadout.Report

/-! # Runs

* `Bench`: a configuration that may be started, with its layout.
* `Timing`: how the steps of the tasks fall, and how often the channel is looked at in the end.
* `Bench.run`: a run on a channel and a buffer; `Bench.runLogged`: with the log of mismatches
  written in any case; `Bench.execute`: with its own memory and channel. -/

namespace DmaReadout

/-- A configuration that may be started. -/
structure Bench where
  /-- The configuration. -/
  config : Config
  /-- The division of the buffer. -/
  layout : Layout
  deriving Repr, DecidableEq

/-- How the steps of a run fall, and how its file takes the copy. -/
structure Timing (σ : Type) where
  /-- The steps of the two tasks, until both are at their end. -/
  tasks : Plan → Machine σ → Machine σ
  /-- The number of looks at the running channel after that. -/
  drainRounds : Pipeline σ → Nat
  /-- The bytes that the file takes during the run; none if there is no limit. -/
  copyRoom? : Option Nat := none
  /-- What comes of the last write to the file, after the run. -/
  flush : Dump → Except FileFault Unit := fun _ => .ok ()

/-- What is left after a run. -/
structure Outcome (σ : Type) where
  /-- The report, or the first failure. -/
  result : Except Error Report
  /-- The buffer. -/
  mapping : Mapping
  /-- The channel. -/
  channel : σ
  /-- The folders and files. -/
  files : Files
  /-- The mismatches found, also by a run that failed. -/
  log : ErrorLog := .silent
  /-- What brought the whole run down, if anything did; then there is no result. -/
  misuse? : Option Misuse := none

/-- What is made before the transfer starts. -/
structure Setup where
  /-- Checks the pages. -/
  verifier? : Option Verifier
  /-- Stresses the registers. -/
  hammer? : Option Hammer
  /-- Copies the pages, with the path of the copy. -/
  dump? : Option (Dump × String)
  /-- The folders and files. -/
  files : Files

/-- The setup with a copy that takes no more than so many bytes. -/
def Setup.withRoom (s : Setup) (room? : Option Nat) : Setup :=
  { s with dump? := s.dump?.map fun (d, path) => ({ d with sink := { d.sink with room? } }, path) }

/-- The copy for a mode in a folder, with its path, and the files with it. -/
def createDump (fs : Files) (mode : DumpMode) (folder : String) :
    Except Error (Option (Dump × String) × Files) :=
  match mode.fileName? with
  | none => .ok (none, fs)
  | some name =>
    let path := Files.join folder name
    match fs.write path .empty with
    | .error e => .error (.file e)
    | .ok fs => .ok (some (⟨mode, {}, false⟩, path), fs)

/-- The files with the bytes of a copy. -/
def saveDump (fs : Files) (dump? : Option Dump) (path? : Option String) : Files :=
  match dump?, path? with
  | some d, some path => ((fs.write path d.sink.taken).toOption).getD fs
  | _, _ => fs

namespace Machine

variable {σ : Type}

/-- The failure of the first task that failed, the reader before the feeder. -/
def failure? (m : Machine σ) : Option Error :=
  let ofReader := match m.reader with
    | .done f => f
    | _ => none
  let ofFeeder := match m.feeder with
    | .done f => f
    | _ => none
  ofReader.or ofFeeder

end Machine

namespace Timing

variable {σ : Type} [Channel σ]

/-- What comes of the end of a copy, if there is one. -/
def finish (timing : Timing σ) : Option Dump → Except Error Unit
  | none => .ok ()
  | some d => (timing.flush d).mapError .file

/-- More rounds than any run without a limit takes. -/
def endlessRounds : Nat := 1 <<< 62

/-- The feeder is faster than the reader. A run that is interrupted ends at once; at the end the
channel is looked at as long as it may hold filled superpages, if there is time at all. -/
def steady (interrupted : Bool) (drainTimeout : Duration) : Timing σ where
  tasks plan m :=
    let rounds := if plan.limit?.isSome then Machine.enoughRounds plan else endlessRounds
    m.feederFirst plan (if interrupted then 0 else rounds)
  drainRounds p := if drainTimeout.nanos = 0 then 0 else Channel.queued p.channel + 1

end Timing

namespace Bench

/-- The run of a configuration, if it may be started. -/
def create (config : Config) : Except Error Bench :=
  config.prepare.map fun layout => ⟨config, layout⟩

/-- What does not change during a run. -/
def plan (b : Bench) : Plan :=
  ⟨b.layout, b.config.maxPages?, b.config.pageReset⟩

/-- The verifier of a run on a card, if pages are checked. -/
def verifier? (b : Bench) (family : Family) : Except Error (Option Verifier) :=
  if b.config.errorCheck then
    (Verifier.create family b.config.pattern b.config.resync b.config.limits.maxRecorded).map some
  else .ok none

/-- The register stress of a run on a card, if it is asked for. -/
def hammer? (b : Bench) (family : Family) (bar : Bar) : Except Error (Option Hammer) :=
  if b.config.barHammer then
    (Hammer.create family bar b.config.limits.hammerMultiplier).map some
  else .ok none

/-- Everything that can be refused before the transfer starts. -/
def setup (b : Bench) (family : Family) (bar : Bar) (size : Nat) (files : Files) :
    Except Error Setup :=
  if size < b.layout.bytes then .error (.config (.bufferTooSmall size b.layout.count))
  else do
    let verifier? ← b.verifier? family
    let hammer? ← b.hammer? family bar
    let (dump?, files) ← createDump files b.config.dump b.config.outputFolder
    return { verifier?, hammer?, dump?, files }

/-- An empty queue for all superpages. -/
def queue (b : Bench) : Ring Nat :=
  .ofSlots (b.layout.count + 1) (by have := b.layout.count_pos; omega)

/-- The pipeline at the start, with all superpages free. The register stress has written its first
round. -/
def pipeline {σ : Type} [Channel σ] (b : Bench) (s : Setup) (channel : σ) (memory : Memory) :
    Pipeline σ :=
  let hammered := s.hammer?.map (Hammer.rounds {} 1)
  { memory
    channel := (hammered.map fun h => Channel.withBar channel h.1.bar).getD channel
    free := b.queue.pushAll b.layout.offsets
    ready := b.queue
    stats := (hammered.map (·.2)).getD {}
    verifier? := s.verifier?
    dump? := s.dump?.map (·.1) }

/-- The report of a run that ended without a failure. -/
def report {σ : Type} (b : Bench) (family : Family) (s : Setup) (p : Pipeline σ)
    (reclaimed : Reclaimed) : Report where
  family
  pageSize := b.layout.pageSize
  elapsed := .zero
  stats := p.stats
  errorCheck := b.config.errorCheck
  barHammer := b.config.barHammer
  drainedPages := reclaimed.pages
  superpages := b.layout.count
  reclaimed := reclaimed.offsets
  log := (p.verifier?.map (·.log)).getD .silent
  dumpFile? := s.dump?.map (·.2)

/-- What brings the whole run down once the transfer was started: pauses or looks of the monitor
that the clock cannot tell. -/
def misuse? (b : Bench) : Option Misuse :=
  let pauses := if b.config.randomPause then PauseSchedule.begun? b.config.limits.pause else .ok ()
  match pauses, Clock.after Clock.now b.config.limits.monitorInterval with
  | .error e, _ => some e
  | _, .error e => some e
  | .ok _, .ok _ => none

/-- The transfer after the channel was started: the tasks, then the shutdown whatever failed, then the
end of the copy. -/
def transfer {σ : Type} [Channel σ] (b : Bench) (timing : Timing σ) (s : Setup) (family : Family)
    (mapping : Mapping) (p : Pipeline σ) : Outcome σ :=
  match timing.tasks b.plan { shared := p } with
  | m =>
    let failure? := m.failure?
    match m.shared.shutdown b.plan (timing.drainRounds m.shared) with
    | (reclaimed, p) =>
      let result := match failure? with
        | some e => .error e
        | none => do
          let reclaimed ← reclaimed
          timing.finish p.dump?
          return b.report family s p reclaimed
      let mapping := { mapping with memory := p.memory }
      let files := saveDump (mapping.save s.files) p.dump? (s.dump?.map (·.2))
      { result
        log := (p.verifier?.map (·.log)).getD .silent
        files
        mapping := mapping.reload files
        channel := p.channel
        misuse? := b.misuse? }

/-- A run on a channel and a buffer. -/
def run {σ : Type} [Channel σ] (b : Bench) (timing : Timing σ) (channel : σ) (mapping : Mapping)
    (files : Files) : Outcome σ :=
  let family := Channel.family channel
  match b.setup family (Channel.bar channel) mapping.memory.size (mapping.save files) with
  | .error e => { result := .error e, mapping, channel, files }
  | .ok s =>
    let mapping := mapping.reload s.files
    match Channel.start channel with
    | (.error e, channel) => { result := .error e, mapping, channel, files := s.files }
    | (.ok _, channel) =>
      b.transfer timing s family mapping
        (b.pipeline (s.withRoom timing.copyRoom?) channel mapping.memory)

/-- A run with its log of mismatches written to the output folder. A run that fails keeps its own
failure, also if the log cannot be written. -/
def runLogged {σ : Type} [Channel σ] (b : Bench) (timing : Timing σ) (channel : σ)
    (mapping : Mapping) (files : Files) : Outcome σ :=
  let o := b.run timing channel mapping files
  match writeErrorFile o.files o.log b.config.outputFolder with
  | .ok (path, files) =>
    { o with
      result := o.result.map fun report => { report with errorFile? := some path }
      mapping := o.mapping.reload files
      files }
  | .error e => { o with result := o.result.bind fun _ => .error e }

/-- The memory for a run: without a file for an emulated card, unless a path is given. -/
def mapBuffer (b : Bench) (files : Files) : Except Error Mapping × Files :=
  match b.config.bufferPath?, b.config.card.family? with
  | none, some _ => (Mapping.anonymous b.config.buffer.bytes, files)
  | _, _ =>
    Mapping.ofFile files b.config.bufferPath b.config.buffer.bytes b.config.removePagesFile

/-- The channel for a run, reset if that is asked for, and the locks with its lock. -/
def openChannel (b : Bench) (size : Nat) (locks : LockTable) :
    Except Error (Emulated × Lock) × LockTable :=
  match locks.openChannel Files.scratch b.config.card b.config.channel size b.config.pageSize
    b.config.pattern with
  | (.error e, locks) => (.error e, locks)
  | (.ok (channel, lock), locks) =>
    if b.config.reset then
      match channel.reset with
      | (.error e, _) => (.error e, locks.release lock)
      | (.ok _, channel) => (.ok (channel, lock), locks)
    else (.ok (channel, lock), locks)

/-- A whole run with its own memory and channel, and the locks after it. -/
def execute (b : Bench) (timing : Timing Emulated) (locks : LockTable) :
    Except Misuse (Except Error Report) × LockTable :=
  match b.mapBuffer locks.files with
  | (.error e, files) => (.ok (.error e), { locks with files })
  | (.ok mapping, files) =>
    match b.openChannel mapping.memory.size { locks with files } with
    | (.error e, locks) => (.ok (.error e), { locks with files := mapping.drop locks.files })
    | (.ok (channel, lock), locks) =>
      let o := b.runLogged timing channel mapping locks.files
      let result := match o.misuse? with
        | some e => .error e
        | none => .ok o.result
      (result, { locks.release lock with files := o.mapping.drop o.files })

end Bench

end DmaReadout
