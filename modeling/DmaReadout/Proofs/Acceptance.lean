import DmaReadout.Options
import DmaReadout.Proofs.Files
import DmaReadout.Proofs.Outcome

/-! # Accepted configurations

What a configuration is asked before a run is enough for everything that the run relies on later.

* `Layout.pageStart`: where a page begins; `Layout.Tiles`: the pages fill the layout without overlap
  and can all be viewed; `Layout.tiles_of_ofSizes`.
* `Config.prepare_eq_ok`: what an accepted configuration was asked; `Options.bytes_lt`: the sizes that
  options can give.
* `Bench.file_of_setup`, `Bench.file_of_transfer`: what can still fail is a file.
* `accepted_suffices`: the main statement. -/

namespace DmaReadout

/-! ### The pages of a layout -/

namespace Layout

variable (l : Layout)

/-- Where page `j` of superpage `i` begins. -/
def pageStart (i j : Nat) : Nat :=
  l.offset i + j * l.pageSize

theorem pageStart_eq (i j : Nat) :
    l.pageStart i j = (i * l.pagesPerSuperpage + j) * l.pageSize := by
  rw [pageStart, offset, Nat.add_mul, Nat.mul_assoc, pagesPerSuperpage_mul]

variable {l}

theorem number_lt_pages {i j : Nat} (hi : i < l.count) (hj : j < l.pagesPerSuperpage) :
    i * l.pagesPerSuperpage + j < l.pages := by
  have hle : (i + 1) * l.pagesPerSuperpage ≤ l.pages := Nat.mul_le_mul_right _ hi
  rw [Nat.succ_mul] at hle
  omega

theorem pageStart_add_le {i j : Nat} (hi : i < l.count) (hj : j < l.pagesPerSuperpage) :
    l.pageStart i j + l.pageSize ≤ l.bytes := by
  rw [pageStart_eq, ← Nat.succ_mul, ← pages_mul]
  exact Nat.mul_le_mul_right _ (number_lt_pages hi hj)

/-- Different pages do not overlap. -/
theorem pageStart_disjoint {i j i' j' : Nat} (hj : j < l.pagesPerSuperpage)
    (hj' : j' < l.pagesPerSuperpage) (hne : (i, j) ≠ (i', j')) :
    l.pageStart i j + l.pageSize ≤ l.pageStart i' j' ∨
      l.pageStart i' j' + l.pageSize ≤ l.pageStart i j := by
  have hsuperpage : ∀ n k, k < l.pagesPerSuperpage →
      (n * l.pagesPerSuperpage + k) / l.pagesPerSuperpage = n := by
    intro n k hk
    rw [Nat.mul_comm, Nat.mul_add_div l.pagesPerSuperpage_pos, Nat.div_eq_of_lt hk, Nat.add_zero]
  have hnumber : i * l.pagesPerSuperpage + j ≠ i' * l.pagesPerSuperpage + j' := by
    intro heq
    obtain rfl : i = i' := by rw [← hsuperpage i j hj, heq, hsuperpage i' j' hj']
    exact hne (congrArg (Prod.mk i) (Nat.add_left_cancel heq))
  rw [pageStart_eq, pageStart_eq, ← Nat.succ_mul, ← Nat.succ_mul]
  rcases Nat.lt_or_gt_of_ne hnumber with h | h
  · exact Or.inl (Nat.mul_le_mul_right _ h)
  · exact Or.inr (Nat.mul_le_mul_right _ h)

/-- The pages fill just the bytes of the layout. -/
theorem lt_bytes_iff (k : Nat) :
    k < l.bytes ↔ ∃ i < l.count, ∃ j < l.pagesPerSuperpage,
      l.pageStart i j ≤ k ∧ k < l.pageStart i j + l.pageSize := by
  constructor
  · intro hk
    have hpage : k / l.pageSize < l.pages := by
      rw [Nat.div_lt_iff_lt_mul l.page_pos, pages_mul]
      exact hk
    have hnumber : k / l.pageSize / l.pagesPerSuperpage * l.pagesPerSuperpage +
        k / l.pageSize % l.pagesPerSuperpage = k / l.pageSize := by
      rw [Nat.mul_comm]
      exact Nat.div_add_mod _ _
    refine ⟨k / l.pageSize / l.pagesPerSuperpage, ?_, k / l.pageSize % l.pagesPerSuperpage,
      Nat.mod_lt _ l.pagesPerSuperpage_pos, ?_⟩
    · rw [Nat.div_lt_iff_lt_mul l.pagesPerSuperpage_pos]
      exact hpage
    · rw [pageStart_eq, hnumber]
      exact ⟨Nat.div_mul_le_self k _, Nat.lt_div_mul_add l.page_pos⟩
  · rintro ⟨i, hi, j, hj, -, hlt⟩
    exact lt_of_lt_of_le hlt (pageStart_add_le hi hj)

/-- **A layout for a buffer of `size` bytes.** All its numbers are addressable; its pages can be
viewed, do not overlap and fill just the bytes of its superpages. -/
structure Tiles (l : Layout) (size : Nat) : Prop where
  count_pos : 1 ≤ l.count
  slots_lt : l.count + 1 < 2 ^ 64
  bytes_le : l.bytes ≤ size
  size_lt : size < 2 ^ 64
  superpage_inside : ∀ i < l.count, l.offset i + l.superpageSize ≤ l.bytes
  page_inside : ∀ i < l.count, ∀ j < l.pagesPerSuperpage, l.pageStart i j + l.pageSize ≤ l.bytes
  granted : ∀ m : Memory, m.size = size → ∀ i < l.count, ∀ j < l.pagesPerSuperpage,
    m.view (l.pageStart i j) l.pageSize = .ok ⟨l.pageStart i j / 4, l.pageSize / 4⟩
  disjoint : ∀ i j i' j', j < l.pagesPerSuperpage → j' < l.pagesPerSuperpage →
    (i, j) ≠ (i', j') → l.pageStart i j + l.pageSize ≤ l.pageStart i' j' ∨
      l.pageStart i' j' + l.pageSize ≤ l.pageStart i j
  fill : ∀ k, k < l.bytes ↔ ∃ i < l.count, ∃ j < l.pagesPerSuperpage,
    l.pageStart i j ≤ k ∧ k < l.pageStart i j + l.pageSize
  contains_iff : ∀ o, l.contains o = true ↔ o ∈ l.offsets

/-- A layout with whole words in every page tiles every buffer that is large enough. -/
theorem tiles {size : Nat} (haligned : l.pageSize % 4 = 0) (hbytes : l.bytes ≤ size)
    (hsize : size < 2 ^ 64) : l.Tiles size where
  count_pos := l.count_pos
  slots_lt := by
    have hword : 4 ≤ l.superpageSize := by
      have := Nat.le_of_dvd l.superpage_pos (Nat.dvd_of_mod_eq_zero l.page_dvd)
      have := l.page_pos
      omega
    have : l.count * 4 ≤ l.bytes := Nat.mul_le_mul_left _ hword
    omega
  bytes_le := hbytes
  size_lt := hsize
  superpage_inside i hi := by
    have := l.nth_add_le i
    rwa [nth, Nat.mod_eq_of_lt hi] at this
  page_inside i hi j hj := pageStart_add_le hi hj
  granted m hm i hi j hj := by
    have hend := pageStart_add_le hi hj
    have hword : l.pageStart i j % 4 = 0 := by
      rw [pageStart_eq, Nat.mul_mod, haligned, Nat.mul_zero, Nat.zero_mod]
    exact Memory.view_eq_ok_iff.2 ⟨by omega, by omega, hword, haligned, rfl⟩
  disjoint i j i' j' hj hj' hne := pageStart_disjoint hj hj' hne
  fill := lt_bytes_iff
  contains_iff := l.contains_iff_mem

theorem of_ofSizes {buffer superpage page : Nat} (h : ofSizes buffer superpage page = .ok l) :
    l.count = buffer / superpage ∧ l.superpageSize = superpage ∧ l.pageSize = page := by
  unfold ofSizes at h
  split at h
  · split at h <;> cases h
    exact ⟨rfl, rfl, rfl⟩
  · cases h

end Layout

/-! ### What is asked of a configuration -/

theorem Config.pageSize_of_validate {c : Config} (h : c.validate = .ok ()) :
    0 < c.pageSize ∧ c.pageSize % 4 = 0 := by
  unfold validate at h
  split at h
  · cases h
  · omega

/-- What was asked of a configuration that may be started. -/
theorem Config.prepare_eq_ok {c : Config} {l : Layout} (h : c.prepare = .ok l) :
    c.validate = .ok () ∧ Layout.ofSizes c.buffer.bytes c.superpageSize c.pageSize = .ok l ∧
      (c.errorCheck = true → c.pattern.verifiable = true) ∧ c.hammerRefused? = none := by
  unfold prepare at h
  split at h
  · cases h
  rename_i hvalid
  split at h
  · cases h
  rename_i layout hlayout
  split at h
  · cases h
  rename_i hpattern
  split at h
  · cases h
  rename_i hhammer
  cases h
  exact ⟨hvalid, hlayout, by simpa using hpattern, hhammer⟩

theorem BufferSize.bytes_lt {text : String} {s : BufferSize} (h : parse text = .ok s) :
    s.bytes < sizeLimit := by
  unfold parse at h
  split at h
  · cases h
  split at h
  · cases h
  split at h
  · cases h
  dsimp only at h
  split at h <;> cases h
  assumption

/-- Options never ask for a buffer that cannot be addressed. -/
theorem Options.bytes_lt {o : Options} {c : Config} (h : o.toConfig = .ok c) :
    c.buffer.bytes < sizeLimit := by
  obtain ⟨card, -, h⟩ := bind_eq_ok h
  obtain ⟨buffer, hbuffer, h⟩ := bind_eq_ok h
  obtain ⟨superpageSize, -, h⟩ := bind_eq_ok h
  obtain ⟨pageSize, -, h⟩ := bind_eq_ok h
  obtain ⟨dump, -, h⟩ := bind_eq_ok h
  cases h
  exact BufferSize.bytes_lt hbuffer

/-! ### What can still fail -/

namespace Bench

variable {b : Bench} {e : Error}

theorem file_of_createDump {files : Files} {mode : DumpMode} {folder : String}
    (h : createDump files mode folder = .error e) : ∃ f, e = .file f := by
  unfold createDump at h
  split at h
  · cases h
  · dsimp only at h
    split at h <;> cases h
    exact ⟨_, rfl⟩

/-- With a pattern that can be checked and a card that allows the register stress if it is asked for,
a setup can only fail because of the file that takes the copy. -/
theorem file_of_setup {family : Family} {bar : Bar} {size : Nat} {files : Files}
    (hsize : b.layout.bytes ≤ size)
    (hpattern : b.config.errorCheck = true → b.config.pattern.verifiable = true)
    (hhammer : b.config.barHammer = true → family.supportsHammer = true)
    (h : b.setup family bar size files = .error e) : ∃ f, e = .file f := by
  unfold setup at h
  rw [if_neg (Nat.not_lt.2 hsize)] at h
  cases hv : b.verifier? family with
  | error e' =>
    obtain ⟨hcheck, hrandom⟩ := (verifier?_eq_error family).1 ⟨e', hv⟩
    have := hpattern hcheck
    rw [hrandom] at this
    cases this
  | ok v =>
    cases hh : b.hammer? family bar with
    | error e' =>
      obtain ⟨hasked, rfl⟩ := (hammer?_eq_error family bar).1 ⟨e', hh⟩
      cases hhammer hasked
    | ok hammer =>
      cases hd : createDump files b.config.dump b.config.outputFolder with
      | error e' =>
        rw [hv, hh, hd] at h
        cases h
        exact file_of_createDump hd
      | ok d =>
        rw [hv, hh, hd] at h
        cases h

theorem file_of_finish {σ : Type} [Channel σ] {timing : Timing σ} {dump? : Option Dump}
    (h : timing.finish dump? = .error e) : ∃ f, e = .file f := by
  cases dump? with
  | none => cases h
  | some d =>
    rw [Timing.finish] at h
    cases hflush : timing.flush d with
    | ok u =>
      rw [hflush] at h
      cases h
    | error f =>
      rw [hflush] at h
      cases h
      exact ⟨f, rfl⟩

/-- A transfer that begins with all superpages free can only fail because of the file that takes the
copy. -/
theorem file_of_transfer {timing : Timing Emulated} (hruns : timing.Runs b.plan) {s : Setup}
    {family : Family} {mapping : Mapping} {p : Pipeline Emulated} (hp : Prefilled b.layout p)
    (h : (b.transfer timing s family mapping p).result = .error e) : ∃ f, e = .file f := by
  obtain ⟨⟨turns, hturns⟩, hf, hr⟩ := hruns p
  have hcirculates : ((Machine.start p).run b.plan turns).Circulates b.plan
    ((Machine.start p).tally b.plan {} turns) := Machine.circulates_run hp turns
  rw [← failureOf_eq_some, failureOf_transfer] at h
  rw [hturns] at h hf hr
  obtain ⟨r, q, hshutdown, -⟩ := (hcirculates.gathered hf hr).shutdown
    (timing.drainRounds ((Machine.start p).run b.plan turns).shared)
  generalize (Machine.start p).run b.plan turns = m at *
  rw [hshutdown] at h
  obtain ⟨shared, feeder, reader⟩ := m
  cases feeder <;> cases hf
  cases reader <;> cases hr
  rename_i feederFailure? readerFailure?
  obtain rfl : feederFailure? = none := hcirculates.feeder_holds
  cases readerFailure? with
  | some e' =>
    obtain ⟨hfile, -⟩ := hcirculates.reader_holds
    cases h
    exact hfile e rfl
  | none =>
    have hfinish : failureOf (timing.finish q.dump?) = some e := by
      simpa [Machine.failure?, failureOf] using h
    exact file_of_finish (failureOf_eq_some.1 hfinish)

end Bench

/-! ### Opened channels -/

namespace Emulated

/-- A channel that was opened for a layout and did nothing yet. -/
structure Opened (l : Layout) (family : Family) (c : Emulated) : Prop where
  family_eq : c.generator.family = family
  idle : c.running = false
  queue_nil : c.queue.toList = []
  pageSize_eq : c.generator.pageSize = l.pageSize
  bytes_le : l.bytes ≤ c.bufferSize
  capacity_pos : 0 < c.capacity

variable {l : Layout} {family : Family} {c : Emulated}

theorem Opened.start_eq (h : c.Opened l family) :
    c.start = (.ok (), { c with running := true }) := by
  rw [start, h.idle]
  rfl

theorem Opened.serves (h : c.Opened l family) : ({ c with running := true } : Emulated).Serves l :=
  ⟨rfl, h.pageSize_eq, h.bytes_le, h.capacity_pos⟩

/-- An empty channel takes every superpage of the layout, also before it is started. -/
theorem Opened.push (h : c.Opened l family) (hl : l.bytes < 2 ^ 64) {i : Nat} (hi : i < l.count)
    (running : Bool) :
    (({ c with running } : Emulated).push ⟨l.offset i, l.superpageSize, 0⟩).1 = .ok () := by
  have hfits := h.serves.fits hl i 0
  rw [Layout.nth, Nat.mod_eq_of_lt hi] at hfits
  have hfits : ({ c with running } : Emulated).fits ⟨l.offset i, l.superpageSize, 0⟩ = true := hfits
  have hroom : ¬ c.capacity ≤ c.queue.length := by
    rw [← Fifo.length_toList, h.queue_nil]
    exact Nat.not_le.2 h.capacity_pos
  unfold Emulated.push
  rw [if_neg hroom, hfits]
  rfl

theorem opened_of_create {size : Nat} {pattern : Pattern}
    (h : create family size l.pageSize pattern = .ok c) (hl : l.bytes ≤ size) :
    c.Opened l family := by
  obtain ⟨-, rfl⟩ := create_eq_ok.1 h
  exact ⟨rfl, rfl, rfl, rfl, hl, (by decide : 0 < defaultCapacity)⟩

theorem Opened.withLimits (h : c.Opened l family) (capacity interval : Nat) :
    ((c.withCapacity capacity).withFaultInterval interval).Opened l family :=
  ⟨h.family_eq, h.idle, h.queue_nil, h.pageSize_eq, h.bytes_le, le_max_right capacity 1⟩

theorem Opened.reset (h : c.Opened l family) : c.reset.2.Opened l family := by
  rw [Emulated.reset, if_neg (by rw [h.idle]; decide)]
  exact ⟨h.family_eq, h.idle, h.queue_nil, h.pageSize_eq, h.bytes_le, h.capacity_pos⟩

end Emulated

/-! ### Runs -/

namespace Bench

variable {b : Bench} {family : Family} {e : Error}

/-- What a run relies on that was settled when its configuration was accepted. -/
structure Ready (b : Bench) (family : Family) (size : Nat) : Prop where
  card_eq : b.config.card = .emulated family
  pageSize_eq : b.config.pageSize = b.layout.pageSize
  page : 0 < b.layout.pageSize ∧ b.layout.pageSize % 4 = 0
  tiles : b.layout.Tiles size
  verifiable : b.config.errorCheck = true → b.config.pattern.verifiable = true
  hammers : b.config.barHammer = true → family.supportsHammer = true

theorem create_eq_ok {config : Config} (h : create config = .ok b) :
    b.config = config ∧ config.prepare = .ok b.layout := by
  unfold create at h
  cases hprepare : config.prepare with
  | error e =>
    rw [hprepare] at h
    cases h
  | ok l =>
    rw [hprepare] at h
    cases h
    exact ⟨rfl, rfl⟩

theorem sizes_of_create {config : Config} (h : create config = .ok b) :
    b.layout.count = config.buffer.bytes / config.superpageSize ∧
      b.layout.superpageSize = config.superpageSize ∧ b.layout.pageSize = config.pageSize :=
  Layout.of_ofSizes (Config.prepare_eq_ok (create_eq_ok h).2).2.1

theorem ready_of_create {config : Config} (hcard : config.card = .emulated family)
    (hsize : config.buffer.bytes < 2 ^ 64) (h : create config = .ok b) :
    b.config = config ∧ b.Ready family config.buffer.bytes := by
  obtain ⟨hcount, hsuperpage, hpage⟩ := sizes_of_create h
  obtain ⟨rfl, hprepare⟩ := create_eq_ok h
  obtain ⟨hvalid, -, hpattern, hhammer⟩ := Config.prepare_eq_ok hprepare
  have hpos := Config.pageSize_of_validate hvalid
  rw [← hpage] at hpos
  have hbytes : b.layout.bytes ≤ b.config.buffer.bytes := by
    rw [Layout.bytes, hcount, hsuperpage]
    exact Nat.div_mul_le_self _ _
  refine ⟨rfl, hcard, hpage.symm, hpos, Layout.tiles hpos.2 hbytes hsize, hpattern, fun hasked => ?_⟩
  by_contra hno
  simp [Config.hammerRefused?, hcard, CardId.family?, hasked, hno] at hhammer

/-- Once the channel is open, a run can only fail because of a file. -/
theorem Ready.file_of_run {timing : Timing Emulated} {c : Emulated} {mapping : Mapping}
    {files : Files} {size : Nat} (h : b.Ready family size) (hruns : timing.Runs b.plan)
    (hc : c.Opened b.layout family) (hsize : mapping.memory.size = size)
    (herror : (b.run timing c mapping files).result = .error e) : ∃ f, e = .file f := by
  cases hs : b.setup (Channel.family c) (Channel.bar c) mapping.memory.size (mapping.save files) with
  | error e' =>
    rw [run_of_setup_error hs] at herror
    cases herror
    refine file_of_setup (hsize ▸ h.tiles.bytes_le) h.verifiable (fun hasked => ?_) hs
    rw [show Channel.family c = family from hc.family_eq]
    exact h.hammers hasked
  | ok s =>
    rw [run_of_start hs hc.start_eq] at herror
    refine file_of_transfer hruns (b.prefilled_pipeline _ h.page.2 ?_ ?_ hc.serves hc.queue_nil) herror
    · rw [Mapping.size_reload, hsize]
      exact h.tiles.size_lt
    · rw [Mapping.size_reload, hsize]
      exact h.tiles.bytes_le

theorem Ready.file_of_runLogged {timing : Timing Emulated} {c : Emulated} {mapping : Mapping}
    {files : Files} {size : Nat} (h : b.Ready family size) (hruns : timing.Runs b.plan)
    (hc : c.Opened b.layout family) (hsize : mapping.memory.size = size)
    (herror : (b.runLogged timing c mapping files).result = .error e) : ∃ f, e = .file f := by
  rcases b.runLogged_cases timing c mapping files with ⟨e', hrun, hlogged⟩ |
    ⟨report, -, ⟨fault, hlogged⟩ | ⟨written, -, hlogged⟩⟩
  · obtain rfl : e' = e := Except.error.inj (hlogged.symm.trans herror)
    exact h.file_of_run hruns hc hsize hrun
  · exact ⟨fault, Except.error.inj (herror.symm.trans hlogged)⟩
  · cases hlogged.symm.trans herror

theorem size_of_mapBuffer {files files' : Files} {mapping : Mapping}
    (h : b.mapBuffer files = (.ok mapping, files')) :
    mapping.memory.size = b.config.buffer.bytes := by
  have hfile : ∀ path size remove, Mapping.ofFile files path size remove = (.ok mapping, files') →
      mapping.memory.size = size := by
    intro path size remove h
    unfold Mapping.ofFile at h
    split at h
    · cases h
    split at h
    · cases h
    split at h <;> cases h
    rfl
  unfold mapBuffer at h
  split at h
  · have h := congrArg Prod.fst h
    dsimp only at h
    unfold Mapping.anonymous at h
    split at h
    · cases h
    split at h <;> cases h
    rfl
  · exact hfile _ _ _ h

/-- The channel that a run opens did nothing yet, whether it was reset or not. -/
theorem Ready.opened {size : Nat} (h : b.Ready family size) {locks locks' : LockTable}
    {c : Emulated} {lock : Lock} (hopen : b.openChannel size locks = (.ok (c, lock), locks')) :
    c.Opened b.layout family := by
  have hcreated : ∀ {t t' : LockTable} {c : Emulated} {lock : Lock},
      t.openChannel Files.scratch b.config.card b.config.channel size b.config.pageSize
        b.config.pattern = (.ok (c, lock), t') → c.Opened b.layout family := by
    intro t t' c lock hlocked
    unfold LockTable.openChannel at hlocked
    rw [h.card_eq, h.pageSize_eq] at hlocked
    dsimp only [CardId.family?] at hlocked
    split at hlocked
    · cases hlocked
    split at hlocked
    · cases hlocked
    · rename_i hc
      cases hlocked
      exact Emulated.opened_of_create hc h.tiles.bytes_le
  unfold openChannel at hopen
  split at hopen
  · cases hopen
  rename_i hlocked
  split at hopen
  · split at hopen
    · cases hopen
    · rename_i hreset
      cases hopen
      have := (hcreated hlocked).reset
      rwa [hreset] at this
  · cases hopen
    exact hcreated hlocked

/-- **An accepted configuration is enough.** For an emulated card and a buffer that can be addressed, as
is every one that options ask for: the pages of the layout fill it without overlap, as far as whole
superpages go, and every one of them can be viewed. The emulated channel of the configuration can be
made, and takes every superpage of the layout while it is empty; a run begins with all superpages free,
nothing counted and a generator that has written nothing. Once the channel is open, a run on a buffer of
the configured size, whether it is given one or makes its own, only ever fails because of a file. -/
theorem accepted_suffices {config : Config} (hcard : config.card = .emulated family)
    (haddressable : config.buffer.bytes < 2 ^ 64 ∨ ∃ o : Options, o.toConfig = .ok config)
    (haccepted : create config = .ok b) :
    b.layout.superpageSize = config.superpageSize ∧ b.layout.pageSize = config.pageSize ∧
      b.layout.count = config.buffer.bytes / config.superpageSize ∧
      b.layout.Tiles config.buffer.bytes ∧
      (∃ c, Emulated.create family config.buffer.bytes config.pageSize config.pattern = .ok c ∧
        ∀ capacity interval opened,
          opened = (c.withCapacity capacity).withFaultInterval interval →
          opened.queue.toList = [] ∧
          (∀ i < b.layout.count, ∀ running,
            (({ opened with running } : Emulated).push
              ⟨b.layout.offset i, b.layout.superpageSize, 0⟩).1 = .ok ()) ∧
          (∀ (s : Setup) (memory : Memory), memory.size = config.buffer.bytes →
            Prefilled b.layout (b.pipeline s opened.start.2 memory) ∧
              (b.pipeline s opened.start.2 memory).stats.read = 0 ∧
              (b.pipeline s opened.start.2 memory).stats.pushed = 0 ∧
              (b.pipeline s opened.start.2 memory).channel.generator =
                { family, pattern := config.pattern, pageSize := b.layout.pageSize
                  faultInterval? := if interval = 0 then none else some interval }) ∧
          ∀ (timing : Timing Emulated) (mapping : Mapping) (files : Files), timing.Runs b.plan →
            mapping.memory.size = config.buffer.bytes →
            ∀ e, (b.runLogged timing opened mapping files).result = .error e → ∃ f, e = .file f) ∧
      ∀ (timing : Timing Emulated) (locks locks' : LockTable) (mapping : Mapping) (files : Files)
        (opened : Emulated × Lock), timing.Runs b.plan →
        b.mapBuffer locks.files = (.ok mapping, files) →
        b.openChannel mapping.memory.size { locks with files } = (.ok opened, locks') →
        ∀ e, (b.execute timing locks).1 = .ok (.error e) → ∃ f, e = .file f := by
  have hsize : config.buffer.bytes < 2 ^ 64 := by
    rcases haddressable with h | ⟨o, ho⟩
    · exact h
    · exact Options.bytes_lt ho
  obtain ⟨rfl, hready⟩ := ready_of_create hcard hsize haccepted
  obtain ⟨hcount, hsuperpage, hpage⟩ := sizes_of_create haccepted
  refine ⟨hsuperpage, hpage, hcount, hready.tiles, ?_, ?_⟩
  · obtain ⟨c, hcreated⟩ : ∃ c, Emulated.create family b.config.buffer.bytes b.layout.pageSize
        b.config.pattern = .ok c := ⟨_, Emulated.create_eq_ok.2 ⟨hready.page, rfl⟩⟩
    refine ⟨c, by rw [hready.pageSize_eq, hcreated], ?_⟩
    rintro capacity interval opened rfl
    have hopened := (Emulated.opened_of_create hcreated hready.tiles.bytes_le).withLimits capacity
      interval
    have hbytes := lt_of_le_of_lt hready.tiles.bytes_le hready.tiles.size_lt
    refine ⟨hopened.queue_nil, fun i hi running => hopened.push hbytes hi running,
      fun s memory hm => b.prefilled_of_create s hcreated hm hsize hready.tiles.bytes_le capacity interval,
      fun timing mapping files hruns hm e he => hready.file_of_runLogged hruns hopened hm he⟩
  · rintro timing locks locks' mapping files ⟨c, lock⟩ hruns hmap hopen e he
    have hm : mapping.memory.size = b.config.buffer.bytes := size_of_mapBuffer hmap
    unfold execute at he
    simp only [hmap, hopen] at he
    split at he
    · cases he
    · exact hready.file_of_runLogged hruns (hready.opened (hm ▸ hopen)) hm (Except.ok.inj he)

/-- A buffer of a hundred bytes for superpages of three pages, with four bytes left over, and a copy in a
folder that is not there. -/
def hundred : Bench :=
  ⟨{ card := .emulated .crorc, channel := 0, buffer := ⟨100, .small⟩, superpageSize := 24
     pageSize := 8, dump := .binary, outputFolder := "nowhere" },
    ⟨4, 24, 8, by decide, by decide, by decide, by decide⟩⟩

/-- The copy cannot be made. -/
theorem hundred_fails {σ : Type} [Channel σ] (timing : Timing σ) (c : σ) {files : Files}
    (h : files.entry? ["home", "nowhere"] = none) :
    (∃ e, (hundred.runLogged timing c ⟨{ size := 100 }, none, none, false⟩ files).result = .error e) ∧
      (hundred.runLogged timing c ⟨{ size := 100 }, none, none, false⟩ files).misuse? = none := by
  have henter : files.enter ["home"] "nowhere" = .error .notFound := by
    rw [Files.enter, if_neg (by decide), if_neg (by decide), if_neg (by decide)]
    simp only [List.cons_append, List.nil_append, h]
  have hlocate : files.locate "nowhere/readout_data.bin" = .error .notFound := by
    have hpath : "nowhere/readout_data.bin".any (· == '\x00') = false ∧
        Files.origin "nowhere/readout_data.bin" = ["home"] := by
      rw [String.any, String.contains_bool_eq]
      decide +kernel
    have hnames : Files.names "nowhere/readout_data.bin" = ["nowhere", "readout_data.bin"] := by
      rw [Files.names_eq]
      decide +kernel
    rw [Files.locate, hpath.1, hpath.2, hnames]
    show (do let parent ← [("nowhere" : String)].foldlM files.enter ["home"]; _) = _
    rw [List.foldlM_cons, henter]
    rfl
  have hwrite : files.write (Files.join "nowhere" "readout_data.bin") .empty = .error .notFound := by
    rw [show Files.join "nowhere" "readout_data.bin" = "nowhere/readout_data.bin" by decide +kernel,
      Files.write, Files.openOrCreate, Files.filePlace, hlocate]
    rfl
  obtain ⟨e, he⟩ := (setup_eq_error (b := hundred) (Channel.family c) (Channel.bar c) 100 files).2
    (Or.inr (Or.inr (Or.inr ⟨_, _, rfl, hwrite⟩)))
  have hrun : hundred.run timing c ⟨{ size := 100 }, none, none, false⟩ files = _ :=
    run_of_setup_error he
  refine ⟨?_, ?_⟩
  · rcases runLogged_cases hundred timing c ⟨{ size := 100 }, none, none, false⟩ files with
      ⟨e', -, hlogged⟩ | ⟨report, hok, -⟩
    · exact ⟨e', hlogged⟩
    · rw [hrun] at hok
      cases hok
  · unfold runLogged
    rw [hrun]
    dsimp only
    split <;> rfl

/-- The last page of the last superpage can be viewed, the bytes behind it are in no page, and the channel
takes the last superpage. A run fails because of its copy, on this channel or on one of its own. -/
theorem accepted_suffices_small :
    create hundred.config = .ok hundred ∧
      ({ size := 100 } : Memory).view (hundred.layout.pageStart 3 2) 8 = .ok ⟨22, 2⟩ ∧
      (¬ ∃ i < 4, ∃ j < 3, hundred.layout.pageStart i j ≤ 96 ∧
        96 < hundred.layout.pageStart i j + 8) ∧
      (∃ c, Emulated.create .crorc 100 8 .incremental = .ok c ∧
        (({ (c.withCapacity 2).withFaultInterval 3 with running := true } : Emulated).push
          ⟨72, 24, 0⟩).1 = .ok () ∧
        ∃ f, (hundred.runLogged (.steady false .zero) ((c.withCapacity 2).withFaultInterval 3)
          ⟨{ size := 100 }, none, none, false⟩ .start).result = .error (.file f)) ∧
      ∃ f, (hundred.execute (.steady false .zero) ⟨.start, []⟩).1 = .ok (.error (.file f)) := by
  have haccepted : create hundred.config = .ok hundred := by decide +kernel
  obtain ⟨-, -, -, htiles, ⟨c, hc, hchannel⟩, hexecute⟩ :=
    accepted_suffices (show hundred.config.card = .emulated .crorc from rfl) (Or.inl (by decide)) haccepted
  have hruns := Timing.steady_runs (σ := Emulated) false .zero hundred.plan
  obtain ⟨-, htakes, -, hfile⟩ := hchannel 2 3 _ rfl
  refine ⟨haccepted, htiles.granted { size := 100 } rfl 3 (by decide) 2 (by decide),
    (htiles.fill 96).not.1 (by decide), ⟨c, hc, htakes 3 (by decide) true, ?_⟩, ?_⟩
  · have hnowhere : Files.start.entry? ["home", "nowhere"] = none := by decide +kernel
    obtain ⟨⟨e, he⟩, -⟩ :=
      hundred_fails (.steady false .zero) ((c.withCapacity 2).withFaultInterval 3) hnowhere
    obtain ⟨f, rfl⟩ := hfile _ _ .start hruns rfl e he
    exact ⟨f, he⟩
  · have hmap : hundred.mapBuffer .start = (.ok ⟨{ size := 100 }, none, none, false⟩, .start) := rfl
    obtain ⟨hgiven, hentries⟩ : (hundred.openChannel 100 ⟨.start, []⟩).1.toOption.isSome = true ∧
        (hundred.openChannel 100 ⟨.start, []⟩).2.files.entries =
          [(["tmp", "roc-dma-bench_id=emu-crorc_chan=0.lock"], .file 0), (["home"], .folder),
            (["tmp"], .folder)] := by
      simp only [openChannel, LockTable.openChannel, LockTable.acquire, Files.openAt?,
        Files.openOrCreate, Files.filePlace, Files.locate, Files.names_eq, String.any,
        String.contains_bool_eq]
      decide +kernel
    rcases hopen : hundred.openChannel 100 ⟨.start, []⟩ with ⟨opened, locks⟩
    rw [hopen] at hgiven hentries
    cases opened with
    | error e => cases hgiven
    | ok opened =>
      have hnowhere : locks.files.entry? ["home", "nowhere"] = none := by
        unfold Files.entry?
        rw [hentries]
        decide +kernel
      obtain ⟨⟨e, he⟩, hmisuse⟩ := hundred_fails (.steady false .zero) opened.1 hnowhere
      have hfailed : (hundred.execute (.steady false .zero) ⟨.start, []⟩).1 = .ok (.error e) := by
        unfold execute
        simp only [hmap, hopen, hmisuse, he]
      obtain ⟨f, rfl⟩ := hexecute _ _ _ _ _ _ hruns hmap hopen e hfailed
      exact ⟨f, hfailed⟩

end Bench

end DmaReadout
