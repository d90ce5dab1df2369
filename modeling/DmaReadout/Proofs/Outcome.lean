import DmaReadout.Proofs.Ending

/-! # The outcome of a run

A run may fail at any of its stages, on a channel that may do anything. Once the channel was started it
is stopped before the run ends, and just once; what comes of the run is the first failure of its stages,
and each of them fails for one reason only.

* `Timing.failures`: what failed, stage by stage.
* `Bench.setup_eq_error`, `Bench.setup_eq_ok`: what a setup comes to; `Bench.run_eq_ok`,
  `Bench.transfer_eq_ok`: a run and a transfer in which nothing failed.
* `Bench.Completes`, `Bench.transfer_completes`: what comes of a transfer.
* `Bench.runLogged_cases`: what comes of a run with its log.
* `dma_stopped`: the main statement. -/

namespace DmaReadout

namespace Machine

variable {σ : Type}

/-- The failure that the reader ended with. -/
def readerFailure? (m : Machine σ) : Option Error :=
  match m.reader with
  | .done failure? => failure?
  | _ => none

/-- The failure that the feeder ended with. -/
def feederFailure? (m : Machine σ) : Option Error :=
  match m.feeder with
  | .done failure? => failure?
  | _ => none

/-- The failure of the tasks is that of the reader, else that of the feeder. -/
theorem failure?_eq (m : Machine σ) :
    m.failure? = [m.readerFailure?, m.feederFailure?].findSome? id := by
  show m.readerFailure?.or m.feederFailure? = _
  cases m.readerFailure? <;> cases m.feederFailure? <;> rfl

end Machine

namespace Timing

variable {σ : Type} (timing : Timing σ)

/-- What failed in a run whose tasks have ended with `m` and in which `x` came back, stage by stage: the
reader, the feeder, the four stages of the shutdown, the last write of the copy. -/
def failures (m : Machine σ) (x : Ending) : List (Option Error) :=
  [m.readerFailure?, m.feederFailure?] ++ x.failures m.shared ++
    [m.shared.dump?.bind fun d => (failureOf (timing.flush d)).map Error.file]

/-- Without a copy nothing is left to write; otherwise the last write may fail. -/
theorem failureOf_finish (dump? : Option Dump) : failureOf (timing.finish dump?) =
    dump?.bind fun d => (failureOf (timing.flush d)).map Error.file := by
  cases dump? with
  | none => rfl
  | some d =>
    show failureOf ((timing.flush d).mapError Error.file) = (failureOf (timing.flush d)).map Error.file
    cases timing.flush d <;> rfl

end Timing

/-! ### What comes of a transfer -/

section Completes

variable {σ : Type} {b : Bench} {timing : Timing (Traced σ)} {m : Machine (Traced σ)} {x : Ending}
  {o : Outcome (Traced σ)}

/-- A transfer whose tasks ended with `m` and in which `x` came back. -/
structure Bench.Completes (b : Bench) (timing : Timing (Traced σ)) (m : Machine (Traced σ)) (x : Ending)
    (o : Outcome (Traced σ)) : Prop where
  /-- The channel is started, the tasks move superpages, then the channel is looked at, and stopped. -/
  calls : ∃ tasks looks,
    m.shared.channel.calls = .start none :: tasks ∧
    o.channel.calls = .start none :: (tasks ++ (looks ++ x.calls)) ∧
    (∀ call ∈ tasks, call.moves = true ∧
      ∀ e, call.refusal? = some e → m.feederFailure? = some e) ∧
    (∀ call ∈ looks, call.looks = true) ∧ looks.filterMap Call.given? = x.drained
  /-- The first failure counts. -/
  failure : failureOf o.result = (timing.failures m x).findSome? id
  /-- The report tells what came back. -/
  report : ∀ report, o.result = .ok report →
    report.reclaimed = (x.offsets m.shared).mergeSort ∧
    report.drainedPages = ((x.drained ++ x.reclaimed).map (Pipeline.receivedPages b.plan)).sum

namespace Bench.Completes

theorem succeeds (h : Completes b timing m x o) :
    (∃ report, o.result = .ok report) ↔ ∀ failure? ∈ timing.failures m x, failure? = none := by
  rw [← failureOf_eq_none, h.failure]
  exact List.findSome?_eq_none_iff

theorem fails (h : Completes b timing m x o) (e : Error) :
    o.result = .error e ↔ (timing.failures m x).findSome? id = some e := by
  rw [← failureOf_eq_some, h.failure]

/-- The channel is stopped just once. -/
theorem stopped (h : Completes b timing m x o) : o.channel.calls.countP Call.isStop = 1 := by
  obtain ⟨tasks, looks, -, hcalls, htasks, hlooks, -⟩ := h.calls
  have hnone : ∀ calls : List Call, (∀ call ∈ calls, call.moves = true) →
      calls.countP Call.isStop = 0 := fun calls hmoves =>
    List.countP_eq_zero.2 fun call hcall =>
      Bool.eq_false_iff.1 (Call.not_isStop_of_moves (hmoves call hcall))
  rw [hcalls, List.countP_cons_of_neg Bool.false_ne_true, List.countP_append, List.countP_append,
    hnone tasks fun call hcall => (htasks call hcall).1,
    hnone looks fun call hcall => Call.moves_of_looks (hlooks call hcall), x.countP_isStop_calls]

/-- If no stage failed, the channel refused nothing. -/
theorem unrefused (h : Completes b timing m x o) (hok : ∃ report, o.result = .ok report) :
    ∀ call ∈ o.channel.calls, call.refusal? = none := by
  obtain ⟨tasks, looks, -, hcalls, htasks, hlooks, -⟩ := h.calls
  have hall := h.succeeds.1 hok
  have hfeeder : m.feederFailure? = none := hall _ (by simp [Timing.failures])
  have hstop : x.refusal? = none := hall _ (by simp [Timing.failures, Ending.failures])
  rw [hcalls]
  intro call hcall
  rcases List.mem_cons.1 hcall with rfl | hcall
  · rfl
  rcases List.mem_append.1 hcall with hcall | hcall
  · refine Option.eq_none_iff_forall_ne_some.2 fun e he => ?_
    rw [(htasks call hcall).2 e he] at hfeeder
    cases hfeeder
  rcases List.mem_append.1 hcall with hcall | hcall
  · exact Call.refusal?_of_looks (hlooks call hcall)
  rcases Ending.mem_calls hcall with rfl | ⟨s?, rfl⟩
  · exact hstop
  · rfl

end Bench.Completes

end Completes

namespace Bench

variable {σ : Type} [Channel σ] {b : Bench} {timing : Timing σ} {s : Setup} {c : σ}
  {mapping : Mapping} {files : Files} {e : Error}

/-- The two tasks of a run on a started channel at their end. -/
def ended (b : Bench) (timing : Timing σ) (s : Setup) (channel : σ) (mapping : Mapping) : Machine σ :=
  timing.tasks b.plan
    (.start (b.pipeline (s.withRoom timing.copyRoom?) channel (mapping.reload s.files).memory))

/-- What is rejected before the transfer starts: a buffer that is too small, a pattern that cannot be
checked, the register stress on a card without it, a copy whose file cannot be made. -/
def Rejects (b : Bench) (family : Family) (size : Nat) (files : Files) : Prop :=
  size < b.layout.bytes ∨ (b.config.errorCheck = true ∧ b.config.pattern = .random) ∨
    (b.config.barHammer = true ∧ family = .crorc) ∨
    ∃ name e, b.config.dump.fileName? = some name ∧
      files.write (Files.join b.config.outputFolder name) .empty = .error e

theorem verifier?_eq_error (family : Family) :
    (∃ e, b.verifier? family = .error e) ↔
      b.config.errorCheck = true ∧ b.config.pattern = .random := by
  unfold verifier? Verifier.create Pattern.verifiable
  cases b.config.errorCheck <;> cases b.config.pattern <;> simp [Except.map]

theorem hammer?_eq_error (family : Family) (bar : Bar) :
    (∃ e, b.hammer? family bar = .error e) ↔ b.config.barHammer = true ∧ family = .crorc := by
  unfold hammer? Hammer.create Family.supportsHammer
  cases b.config.barHammer <;> cases family <;> simp [Except.map]

theorem createDump_eq_error (files : Files) (mode : DumpMode) (folder : String) :
    (∃ e, createDump files mode folder = .error e) ↔
      ∃ name e, mode.fileName? = some name ∧
        files.write (Files.join folder name) .empty = .error e := by
  unfold createDump
  cases mode.fileName? with
  | none => simp
  | some name => cases hw : files.write (Files.join folder name) .empty <;> simp [hw]

/-- A setup is refused for one of four reasons. -/
theorem setup_eq_error (family : Family) (bar : Bar) (size : Nat) (files : Files) :
    (∃ e, b.setup family bar size files = .error e) ↔ b.Rejects family size files := by
  rw [Rejects, ← verifier?_eq_error family, ← hammer?_eq_error family bar,
    ← createDump_eq_error files]
  unfold setup
  by_cases hsize : size < b.layout.bytes
  · simp [hsize]
  rw [if_neg hsize]
  cases b.verifier? family with
  | error e => simp [bind, Except.bind]
  | ok v =>
    cases b.hammer? family bar with
    | error e => simp [bind, Except.bind]
    | ok h =>
      cases createDump files b.config.dump b.config.outputFolder with
      | error e => simp [bind, Except.bind]
      | ok d => simp [hsize, bind, Except.bind, pure, Except.pure]

/-- A setup has room for all superpages, and is made of three parts. -/
theorem setup_eq_ok {family : Family} {bar : Bar} {size : Nat} {files : Files}
    (h : b.setup family bar size files = .ok s) :
    b.layout.bytes ≤ size ∧ b.verifier? family = .ok s.verifier? ∧
      b.hammer? family bar = .ok s.hammer? ∧
      createDump files b.config.dump b.config.outputFolder = .ok (s.dump?, s.files) := by
  unfold setup at h
  split at h
  · cases h
  rename_i hsize
  obtain ⟨v, hv, h⟩ := bind_eq_ok h
  obtain ⟨hammer, hh, h⟩ := bind_eq_ok h
  obtain ⟨d, hd, h⟩ := bind_eq_ok h
  cases h
  exact ⟨Nat.not_lt.1 hsize, hv, hh, hd⟩

theorem run_of_setup_error (h : b.setup (Channel.family c) (Channel.bar c) mapping.memory.size
      (mapping.save files) = .error e) :
    b.run timing c mapping files = { result := .error e, mapping, channel := c, files } := by
  unfold run
  simp only [h]

theorem run_of_start_error {c' : σ} (h : b.setup (Channel.family c) (Channel.bar c)
      mapping.memory.size (mapping.save files) = .ok s) (hstart : Channel.start c = (.error e, c')) :
    b.run timing c mapping files =
      { result := .error e, mapping := mapping.reload s.files, channel := c', files := s.files } := by
  unfold run
  simp only [h, hstart]

theorem run_of_start {c' : σ} (h : b.setup (Channel.family c) (Channel.bar c)
      mapping.memory.size (mapping.save files) = .ok s) (hstart : Channel.start c = (.ok (), c')) :
    b.run timing c mapping files = b.transfer timing s (Channel.family c) (mapping.reload s.files)
      (b.pipeline (s.withRoom timing.copyRoom?) c' (mapping.reload s.files).memory) := by
  unfold run
  simp only [h, hstart]

/-- A run with a report has passed its setup and started the channel. -/
theorem run_eq_ok {report : Report} (h : (b.run timing c mapping files).result = .ok report) :
    ∃ s c', b.setup (Channel.family c) (Channel.bar c) mapping.memory.size (mapping.save files) = .ok s ∧
      Channel.start c = (.ok (), c') ∧
      b.run timing c mapping files = b.transfer timing s (Channel.family c) (mapping.reload s.files)
        (b.pipeline (s.withRoom timing.copyRoom?) c' (mapping.reload s.files).memory) := by
  cases hsetup : b.setup (Channel.family c) (Channel.bar c) mapping.memory.size (mapping.save files) with
  | error e =>
    rw [run_of_setup_error hsetup] at h
    cases h
  | ok s =>
    rcases hstart : Channel.start c with ⟨_ | _, c'⟩
    · rw [run_of_start_error hsetup hstart] at h
      cases h
    · exact ⟨s, c', rfl, rfl, run_of_start hsetup hstart⟩

theorem transfer_result (family : Family) (mapping : Mapping) (p : Pipeline σ) :
    (b.transfer timing s family mapping p).result =
      match (timing.tasks b.plan (.start p)).failure? with
      | some e => .error e
      | none => do
        let r ← ((timing.tasks b.plan (.start p)).shared.shutdown b.plan
          (timing.drainRounds (timing.tasks b.plan (.start p)).shared)).1
        timing.finish ((timing.tasks b.plan (.start p)).shared.shutdown b.plan
          (timing.drainRounds (timing.tasks b.plan (.start p)).shared)).2.dump?
        return b.report family s ((timing.tasks b.plan (.start p)).shared.shutdown b.plan
          (timing.drainRounds (timing.tasks b.plan (.start p)).shared)).2 r := rfl

/-- What comes of a transfer is the failure of its tasks, else that of its shutdown, else that of the
end of its copy. -/
theorem failureOf_transfer (family : Family) (mapping : Mapping) (p : Pipeline σ) :
    failureOf (b.transfer timing s family mapping p).result =
      ((timing.tasks b.plan (.start p)).failure?.or
        (failureOf ((timing.tasks b.plan (.start p)).shared.shutdown b.plan
          (timing.drainRounds (timing.tasks b.plan (.start p)).shared)).1)).or
        (failureOf (timing.finish ((timing.tasks b.plan (.start p)).shared.shutdown b.plan
          (timing.drainRounds (timing.tasks b.plan (.start p)).shared)).2.dump?)) := by
  rw [transfer_result]
  generalize timing.tasks b.plan (.start p) = m
  cases m.failure? with
  | some e => rfl
  | none =>
    cases (m.shared.shutdown b.plan (timing.drainRounds m.shared)).1 with
    | error e => rfl
    | ok r =>
      cases timing.finish (m.shared.shutdown b.plan (timing.drainRounds m.shared)).2.dump? <;> rfl

/-- A transfer that succeeds had no failure in its tasks, and ends with the report of its shutdown. -/
theorem transfer_eq_ok {family : Family} {p : Pipeline σ} {report : Report}
    (h : (b.transfer timing s family mapping p).result = .ok report) :
    (timing.tasks b.plan (.start p)).failure? = none ∧
      ∃ reclaimed, ((timing.tasks b.plan (.start p)).shared.shutdown b.plan
          (timing.drainRounds (timing.tasks b.plan (.start p)).shared)).1 = .ok reclaimed ∧
        report = b.report family s ((timing.tasks b.plan (.start p)).shared.shutdown b.plan
          (timing.drainRounds (timing.tasks b.plan (.start p)).shared)).2 reclaimed := by
  rw [transfer_result] at h
  generalize timing.tasks b.plan (.start p) = m at h ⊢
  cases hfailure : m.failure? with
  | some e =>
    rw [hfailure] at h
    cases h
  | none =>
    rw [hfailure] at h
    obtain ⟨reclaimed, hshutdown, h⟩ := bind_eq_ok h
    obtain ⟨_, -, h⟩ := bind_eq_ok h
    cases h
    exact ⟨rfl, reclaimed, hshutdown, rfl⟩

theorem calls_pipeline (b : Bench) (s : Setup) (c : Traced σ) (memory : Memory) :
    (b.pipeline s c memory).channel.calls = c.calls := by
  unfold pipeline
  cases s.hammer? <;> rfl

/-- **The transfer.** -/
theorem transfer_completes {timing : Timing (Traced σ)} (hruns : timing.Runs b.plan) (family : Family)
    (mapping : Mapping) {p : Pipeline (Traced σ)} (hp : p.channel.calls = [.start none]) :
    ∃ x, Completes b timing (timing.tasks b.plan (.start p)) x
      (b.transfer timing s family mapping p) := by
  have hmoved := (hruns p).1.moved
  have hfailure : failureOf (b.transfer timing s family mapping p).result = _ :=
    failureOf_transfer family mapping p
  have hreport : ∀ report, (b.transfer timing s family mapping p).result = .ok report → _ :=
    fun _ => transfer_eq_ok
  have hchannel : (b.transfer timing s family mapping p).channel =
    ((timing.tasks b.plan (.start p)).shared.shutdown b.plan
      (timing.drainRounds (timing.tasks b.plan (.start p)).shared)).2.channel := rfl
  generalize b.transfer timing s family mapping p = o at hfailure hreport hchannel ⊢
  generalize timing.tasks b.plan (.start p) = m at hmoved hfailure hreport hchannel ⊢
  obtain ⟨x, hends⟩ := m.shared.ends b.plan (timing.drainRounds m.shared)
  obtain ⟨tasks, htasks, hmoves⟩ := hmoved
  rw [show (Machine.start p).shared.channel.calls = _ from hp, List.singleton_append] at htasks
  obtain ⟨looks, hcalls, hlooks, hgiven⟩ := hends.calls
  refine ⟨x, ⟨tasks, looks, htasks, ?_, fun call hcall => ⟨(hmoves call hcall).1, fun e he => ?_⟩, hlooks,
    hgiven⟩, ?_, fun report hok => ?_⟩
  · rw [hchannel, hcalls, htasks, List.cons_append]
  · rw [Machine.feederFailure?, (hmoves call hcall).2 e he]
  · rw [timing.failureOf_finish, hends.dump, hends.failure] at hfailure
    rw [hfailure, m.failure?_eq, Timing.failures, List.findSome?_append, List.findSome?_append,
      List.findSome?_singleton]
    rfl
  · obtain ⟨-, reclaimed, hfound, rfl⟩ := hreport report hok
    obtain ⟨hoffsets, hpages⟩ := hends.found reclaimed hfound
    exact ⟨hoffsets, hpages⟩

/-! ### Writing the log -/

/-- Where the log of a run is written. -/
def errorPath (b : Bench) : String :=
  Files.join b.config.outputFolder errorFileName

theorem runLogged_of_written {written : Files}
    (h : (b.run timing c mapping files).files.write b.errorPath
      (b.run timing c mapping files).log.text.toUTF8 = .ok written) :
    (b.runLogged timing c mapping files).files = written ∧
      (b.runLogged timing c mapping files).result =
        (b.run timing c mapping files).result.map fun report =>
          { report with errorFile? := some b.errorPath } := by
  rw [errorPath] at h
  constructor <;> simp only [runLogged, writeErrorFile, h, errorPath]

theorem runLogged_of_unwritten {e : FileFault}
    (h : (b.run timing c mapping files).files.write b.errorPath
      (b.run timing c mapping files).log.text.toUTF8 = .error e) :
    (b.runLogged timing c mapping files).result =
      (b.run timing c mapping files).result.bind fun _ => .error (.file e) := by
  rw [errorPath] at h
  simp only [runLogged, writeErrorFile, h]

/-- What comes of a run with its log: its own failure, or the one of writing its log, or its report with
the path of the log. -/
theorem runLogged_cases (b : Bench) (timing : Timing σ) (c : σ) (mapping : Mapping) (files : Files) :
    (∃ e, (b.run timing c mapping files).result = .error e ∧
      (b.runLogged timing c mapping files).result = .error e) ∨
    ∃ report, (b.run timing c mapping files).result = .ok report ∧
      ((∃ fault, (b.runLogged timing c mapping files).result = .error (.file fault)) ∨
        ∃ written, (b.run timing c mapping files).files.write b.errorPath
            (b.run timing c mapping files).log.text.toUTF8 = .ok written ∧
          (b.runLogged timing c mapping files).result =
            .ok { report with errorFile? := some b.errorPath }) := by
  cases hwrite : (b.run timing c mapping files).files.write b.errorPath
      (b.run timing c mapping files).log.text.toUTF8 with
  | error fault =>
    rw [runLogged_of_unwritten hwrite]
    cases (b.run timing c mapping files).result with
    | error e => exact Or.inl ⟨e, rfl, rfl⟩
    | ok report => exact Or.inr ⟨report, rfl, Or.inl ⟨fault, rfl⟩⟩
  | ok written =>
    rw [(runLogged_of_written hwrite).2]
    cases (b.run timing c mapping files).result with
    | error e => exact Or.inl ⟨e, rfl, rfl⟩
    | ok report => exact Or.inr ⟨report, rfl, Or.inr ⟨written, rfl, rfl⟩⟩

/-! ### The main statement -/

/-- **The channel is stopped, and the first failure counts.** What is rejected before the transfer is
rejected without a call to the channel. If the channel cannot be started, that is what comes of the run,
and there is no further call. Otherwise, whatever the channel does and however the steps of the tasks
fall, it is started once, then superpages move, then it is stopped once, then it is popped until it gives
nothing. The run succeeds just if no stage failed, and then the channel refused nothing; otherwise it
fails with the first failure in the order of the stages. -/
theorem dma_stopped {σ : Type} [Channel σ] (b : Bench) (timing : Timing (Traced σ))
    (hruns : timing.Runs b.plan) (c : σ) (mapping : Mapping) (files : Files) :
    (b.Rejects (Channel.family c) mapping.memory.size (mapping.save files) →
      (b.run timing ⟨c, []⟩ mapping files).channel.calls = [] ∧
        ∃ e, (b.run timing ⟨c, []⟩ mapping files).result = .error e) ∧
    ∀ s, b.setup (Channel.family c) (Channel.bar c) mapping.memory.size (mapping.save files) = .ok s →
      (∀ e, (Channel.start c).1 = .error e →
        (b.run timing ⟨c, []⟩ mapping files).result = .error e ∧
          (b.run timing ⟨c, []⟩ mapping files).channel.calls = [.start (some e)] ∧
          (b.run timing ⟨c, []⟩ mapping files).mapping = mapping.reload s.files) ∧
      ((Channel.start c).1 = .ok () →
        ∃ x, Completes b timing (b.ended timing s ⟨(Channel.start c).2, [.start none]⟩ mapping) x
            (b.run timing ⟨c, []⟩ mapping files) ∧
          (b.run timing ⟨c, []⟩ mapping files).channel.calls.countP Call.isStop = 1 ∧
          ((∃ report, (b.run timing ⟨c, []⟩ mapping files).result = .ok report) →
            ∀ call ∈ (b.run timing ⟨c, []⟩ mapping files).channel.calls, call.refusal? = none) ∧
          ((∃ report, (b.run timing ⟨c, []⟩ mapping files).result = .ok report) ↔
            ∀ failure? ∈ timing.failures
              (b.ended timing s ⟨(Channel.start c).2, [.start none]⟩ mapping) x, failure? = none) ∧
          ∀ e, (b.run timing ⟨c, []⟩ mapping files).result = .error e ↔
            (timing.failures
              (b.ended timing s ⟨(Channel.start c).2, [.start none]⟩ mapping) x).findSome? id =
                some e) := by
  have hstart : ∀ r, (Channel.start c).1 = r → Channel.start (⟨c, []⟩ : Traced σ) =
      (r, ⟨(Channel.start c).2, [.start (failureOf r)]⟩) := by
    rintro _ rfl
    rfl
  refine ⟨fun hrejects => ?_, fun s hs => ⟨fun e he => ?_, fun hok => ?_⟩⟩
  · obtain ⟨e, he⟩ := (setup_eq_error _ (Channel.bar c) _ _).2 hrejects
    rw [run_of_setup_error (c := (⟨c, []⟩ : Traced σ)) he]
    exact ⟨rfl, e, rfl⟩
  · rw [run_of_start_error (c := (⟨c, []⟩ : Traced σ)) hs (hstart _ he)]
    exact ⟨rfl, rfl, rfl⟩
  · rw [run_of_start (c := (⟨c, []⟩ : Traced σ)) hs (hstart _ hok)]
    obtain ⟨x, hx⟩ := transfer_completes (b := b) (s := s) hruns (Channel.family (⟨c, []⟩ : Traced σ))
      (mapping.reload s.files) (p := b.pipeline (s.withRoom timing.copyRoom?)
        (⟨(Channel.start c).2, [.start none]⟩ : Traced σ) (mapping.reload s.files).memory)
      (calls_pipeline b _ _ _)
    exact ⟨x, hx, hx.stopped, hx.unrefused, hx.succeeds, hx.fails⟩

/-- A run on two superpages that reads three pages. -/
def small : Bench :=
  ⟨{ card := .emulated .cru, channel := 0, maxPages? := some 3, errorCheck := false }, .small⟩

/-- A channel that refuses every push, and cannot be stopped either. -/
def refusing : Scripted where
  family := .cru
  pageSize := 40
  acceptedPushes? := some 0
  failsStop := true
  bar := .zeroed .cru

/-- The feeder fails at its first push; that the channel cannot be stopped after that does not count. -/
theorem dma_stopped_small :
    (small.run (.steady false .zero) (⟨refusing, []⟩ : Traced Scripted)
        ⟨{ size := 160 }, none, none, false⟩ ⟨[], #[]⟩).channel.calls.countP Call.isStop = 1 ∧
      (small.run (.steady false .zero) (⟨refusing, []⟩ : Traced Scripted)
        ⟨{ size := 160 }, none, none, false⟩ ⟨[], #[]⟩).result =
          .error (.channel (.other "rejected")) := by
  obtain ⟨-, hrun⟩ := dma_stopped small (.steady false .zero) (Timing.steady_runs _ _ _) refusing
    ⟨{ size := 160 }, none, none, false⟩ ⟨[], #[]⟩
  obtain ⟨x, -, hcount, -, -, hfails⟩ := (hrun ⟨none, none, none, ⟨[], #[]⟩⟩ rfl).2 rfl
  refine ⟨hcount, (hfails _).2 ?_⟩
  have hreader : (small.ended (.steady false .zero) ⟨none, none, none, ⟨[], #[]⟩⟩
      (⟨(Channel.start refusing).2, [.start none]⟩ : Traced Scripted)
        ⟨{ size := 160 }, none, none, false⟩).readerFailure? = none := by decide +kernel
  have hfeeder : (small.ended (.steady false .zero) ⟨none, none, none, ⟨[], #[]⟩⟩
      (⟨(Channel.start refusing).2, [.start none]⟩ : Traced Scripted)
        ⟨{ size := 160 }, none, none, false⟩).feederFailure? =
          some (.channel (.other "rejected")) := by decide +kernel
  simp [Timing.failures, hreader, hfeeder]

end Bench

end DmaReadout
