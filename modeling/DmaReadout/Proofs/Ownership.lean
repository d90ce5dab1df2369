import DmaReadout.Proofs.Emulated
import DmaReadout.Proofs.LockFiles

/-! # Exclusive ownership of channels

A channel of a card belongs to one holder at a time: to a lock that was acquired, or to a channel that was
opened together with its lock. Any number of holders may acquire, open and drop in any order.

* `Holder`, `Triple`: who holds a channel, and what is held: a folder, a card and a channel number.
* `Registry`: the locks that are held and their holders; `Registry.act`: one deed, `Registry.run`: any
  sequence of them.
* `Registry.Acts`: what a deed does; `Registry.acts`.
* `Registry.Sound`: the invariant; `Sound.act`, `Sound.run`.
* `exclusive`: the main statement. -/

namespace DmaReadout

/-! ### Holders -/

/-- A lock that was acquired, or a channel that was opened together with its lock. -/
structure Holder where
  lock : Lock
  card : CardId
  channel : UInt32
  /-- The channel, if one was opened. -/
  device? : Option Emulated

/-- One channel of a card, for the locks in one folder. -/
structure Triple where
  folder : Place
  card : CardId
  channel : UInt32
  deriving DecidableEq

/-- What a holder holds; the folder is the one in which its lock file stands. -/
def Holder.triple (o : Holder) : Triple :=
  ⟨o.lock.place.dropLast, o.card, o.channel⟩

/-- Where the lock file of a channel stands. -/
def Triple.place (t : Triple) : Place :=
  t.folder ++ [t.card.lockName t.channel]

/-- The locks that are held, and who holds them. -/
structure Registry where
  table : LockTable
  holders : List Holder
  /-- The places where nobody can open a file. -/
  refuses : Files.Refusal

/-- What somebody can do. -/
inductive Deed where
  /-- Acquires the lock of a channel. -/
  | acquire (folder : String) (card : CardId) (channel : UInt32)
  /-- Opens a channel for a buffer of the given size. -/
  | openChannel (folder : String) (card : CardId) (channel : UInt32) (bufferSize pageSize : Nat)
      (pattern : Pattern)
  /-- Drops the lock or the channel of a holder. -/
  | drop (i : Nat)

/-- What comes of a deed. -/
inductive Deed.Result where
  | taken (o : Holder)
  | failed (e : Error)
  | dropped (o? : Option Holder)

namespace Deed

/-- A deed on a card with a proper card id, if on any. -/
def Proper : Deed → Prop
  | acquire _ card _ | openChannel _ card _ _ _ _ => card.Proper
  | drop _ => True

/-- The channel that somebody wants: to acquire its lock, or to open it on an emulated card with a valid
page size. -/
def wanted? : Deed → Option (String × CardId × UInt32)
  | acquire folder card channel => some (folder, card, channel)
  | openChannel folder card channel _ pageSize _ =>
    if card.family?.isSome ∧ 0 < pageSize ∧ pageSize % 4 = 0 then some (folder, card, channel) else none
  | drop _ => none

end Deed

namespace Registry

/-- The registry after somebody got a lock or a failure. -/
def grant (r : Registry) (table : LockTable) : Except Error Holder → Deed.Result × Registry
  | .ok o => (.taken o, { r with table, holders := o :: r.holders })
  | .error e => (.failed e, { r with table })

/-- One deed. Dropping a lock or a channel gives the lock up. -/
def act (r : Registry) : Deed → Deed.Result × Registry
  | .acquire folder card channel =>
    let step := r.table.acquire folder card channel r.refuses
    r.grant step.2 (step.1.map fun lock => ⟨lock, card, channel, none⟩)
  | .openChannel folder card channel bufferSize pageSize pattern =>
    let step := r.table.openChannel folder card channel bufferSize pageSize pattern r.refuses
    r.grant step.2 (step.1.map fun opened => ⟨opened.2, card, channel, some opened.1⟩)
  | .drop i =>
    match r.holders[i]? with
    | none => (.dropped none, r)
    | some o =>
      (.dropped (some o), { r with table := r.table.release o.lock, holders := r.holders.eraseIdx i })

/-- Any sequence of deeds. -/
def run (r : Registry) (deeds : List Deed) : Registry :=
  deeds.foldl (fun r deed => (r.act deed).2) r

/-- A registry without holders. -/
def start (files : Files) (refuses : Files.Refusal := .never) : Registry :=
  ⟨⟨files, []⟩, [], refuses⟩

end Registry

/-! ### Locks -/

namespace LockTable

variable (t : LockTable) (folder : String) (card : CardId) (channel : UInt32)
  (refuses : Files.Refusal)

theorem acquire_cases :
    (t.files.openAt? refuses (Files.join folder (card.lockName channel)) = none ∧
      t.acquire folder card channel refuses =
        (.error (.buffer (.openingLock (Files.join folder (card.lockName channel)))), t)) ∨
    ∃ place files,
      t.files.openAt? refuses (Files.join folder (card.lockName channel)) = some (place, files) ∧
      (place ∈ t.held ∧ t.acquire folder card channel refuses =
          (.error (.capability (.inUse channel card)), ⟨files, t.held⟩) ∨
        place ∉ t.held ∧ t.acquire folder card channel refuses =
          (.ok ⟨Files.join folder (card.lockName channel), place⟩, ⟨files, place :: t.held⟩)) := by
  unfold acquire
  cases hopen : t.files.openAt? refuses (Files.join folder (card.lockName channel)) with
  | none => exact Or.inl ⟨rfl, by simp only [hopen]⟩
  | some opened =>
    obtain ⟨place, files⟩ := opened
    refine Or.inr ⟨place, files, rfl, ?_⟩
    simp only [hopen]
    by_cases hheld : place ∈ t.held
    · exact Or.inl ⟨hheld, if_pos hheld⟩
    · exact Or.inr ⟨hheld, if_neg hheld⟩

variable {t folder card channel refuses} {family : Family} {table : LockTable} {lock : Lock} {e : Error}
  (bufferSize : Nat) {pageSize : Nat} (pattern : Pattern)

theorem openChannel_of_other (h : card.family? = none) :
    t.openChannel folder card channel bufferSize pageSize pattern refuses =
      (.error (.capability (.noDriver card)), t) := by
  unfold openChannel
  rw [h]

theorem openChannel_of_refused (h : card.family? = some family)
    (ha : t.acquire folder card channel refuses = (.error e, table)) :
    t.openChannel folder card channel bufferSize pageSize pattern refuses = (.error e, table) := by
  unfold openChannel
  rw [h]
  simp only [ha]

theorem openChannel_of_valid (h : card.family? = some family)
    (ha : t.acquire folder card channel refuses = (.ok lock, table))
    (hvalid : 0 < pageSize ∧ pageSize % 4 = 0) : ∃ c, t.openChannel folder card channel bufferSize
      pageSize pattern refuses = (.ok (c, lock), table) := by
  obtain ⟨c, hcreate⟩ : ∃ c, Emulated.create family bufferSize pageSize pattern = .ok c :=
    ⟨_, Emulated.create_eq_ok.2 ⟨hvalid, rfl⟩⟩
  unfold openChannel
  rw [h]
  simp only [ha, hcreate]
  exact ⟨c, rfl⟩

/-- The lock is given up again if the page size is not valid. -/
theorem openChannel_of_invalid (h : card.family? = some family)
    (ha : t.acquire folder card channel refuses = (.ok lock, table))
    (hinvalid : ¬(0 < pageSize ∧ pageSize % 4 = 0)) :
    t.openChannel folder card channel bufferSize pageSize pattern refuses =
      (.error (.config (.channelPageSize pageSize)), table.release lock) := by
  have hcreate : Emulated.create family bufferSize pageSize pattern =
      .error (.config (.channelPageSize pageSize)) := by
    unfold Emulated.create
    rw [if_pos (by omega)]
  unfold openChannel
  rw [h]
  simp only [ha, hcreate]

end LockTable

/-! ### Deeds -/

namespace Registry

variable {r : Registry} {deed : Deed}

/-- **What a deed does**: what comes of it, and the registry after that. A channel that is wanted is not
given if its lock file cannot be opened, or if its lock is held. -/
inductive Acts (r : Registry) : Deed → Deed.Result → Registry → Prop where
  | fails {deed : Deed} {e : Error} {files : Files}
    (hcause : ∀ folder card channel, deed.wanted? = some (folder, card, channel) →
      (r.table.files.openAt? r.refuses (Files.join folder (card.lockName channel)) = none ∧
        e = .buffer (.openingLock (Files.join folder (card.lockName channel)))) ∨
      ∃ place ∈ r.table.held,
        r.table.files.openAt? r.refuses (Files.join folder (card.lockName channel)) =
          some (place, files) ∧ e = .capability (.inUse channel card)) :
    Acts r deed (.failed e) { r with table := ⟨files, r.table.held⟩ }
  | takes {deed : Deed} {o : Holder} {folder : String} {files : Files}
    (hwanted : deed.wanted? = some (folder, o.card, o.channel))
    (hopen : r.table.files.openAt? r.refuses (Files.join folder (o.card.lockName o.channel)) =
      some (o.lock.place, files))
    (hfree : o.lock.place ∉ r.table.held) :
    Acts r deed (.taken o)
      { r with table := ⟨files, o.lock.place :: r.table.held⟩, holders := o :: r.holders }
  | drops {i : Nat} {o : Holder} (ho : r.holders[i]? = some o) :
    Acts r (.drop i) (.dropped (some o))
      { r with table := r.table.release o.lock, holders := r.holders.eraseIdx i }
  | nobody {i : Nat} (hnone : r.holders[i]? = none) : Acts r (.drop i) (.dropped none) r

theorem acts (r : Registry) (deed : Deed) : Acts r deed (r.act deed).1 (r.act deed).2 := by
  cases deed with
  | acquire folder card channel =>
    simp only [act]
    rcases r.table.acquire_cases folder card channel r.refuses with ⟨hopen, h⟩ |
      ⟨place, files, hopen, ⟨hheld, h⟩ | ⟨hfree, h⟩⟩ <;> rw [h]
    · refine .fails ?_
      rintro _ _ _ ⟨⟩
      exact Or.inl ⟨hopen, rfl⟩
    · refine .fails ?_
      rintro _ _ _ ⟨⟩
      exact Or.inr ⟨place, hheld, hopen, rfl⟩
    · exact .takes rfl hopen hfree
  | openChannel folder card channel bufferSize pageSize pattern =>
    simp only [act]
    cases hfamily : card.family? with
    | none =>
      rw [LockTable.openChannel_of_other bufferSize pattern hfamily]
      refine .fails ?_
      intro _ _ _ hwanted
      simp [Deed.wanted?, hfamily] at hwanted
    | some family =>
      have hwants : 0 < pageSize ∧ pageSize % 4 = 0 →
          (Deed.openChannel folder card channel bufferSize pageSize pattern).wanted? =
            some (folder, card, channel) :=
        fun hvalid => if_pos ⟨by rw [hfamily]; rfl, hvalid⟩
      have hwanted : ∀ {folder' card' channel'},
          (Deed.openChannel folder card channel bufferSize pageSize pattern).wanted? =
            some (folder', card', channel') → folder' = folder ∧ card' = card ∧ channel' = channel := by
        intro _ _ _ h
        simp only [Deed.wanted?] at h
        split at h <;> cases h
        exact ⟨rfl, rfl, rfl⟩
      rcases r.table.acquire_cases folder card channel r.refuses with ⟨hopen, ha⟩ |
        ⟨place, files, hopen, ⟨hheld, ha⟩ | ⟨hfree, ha⟩⟩
      · rw [LockTable.openChannel_of_refused bufferSize pattern hfamily ha]
        refine .fails fun folder' card' channel' h => ?_
        obtain ⟨rfl, rfl, rfl⟩ := hwanted h
        exact Or.inl ⟨hopen, rfl⟩
      · rw [LockTable.openChannel_of_refused bufferSize pattern hfamily ha]
        refine .fails fun folder' card' channel' h => ?_
        obtain ⟨rfl, rfl, rfl⟩ := hwanted h
        exact Or.inr ⟨place, hheld, hopen, rfl⟩
      · by_cases hvalid : 0 < pageSize ∧ pageSize % 4 = 0
        · obtain ⟨c, hchannel⟩ :=
            LockTable.openChannel_of_valid bufferSize pattern hfamily ha hvalid
          rw [hchannel]
          exact .takes (hwants hvalid) hopen hfree
        · rw [LockTable.openChannel_of_invalid bufferSize pattern hfamily ha hvalid]
          -- the lock that was taken first is given up again
          have hrelease : LockTable.release ⟨files, place :: r.table.held⟩
              ⟨Files.join folder (card.lockName channel), place⟩ = ⟨files, r.table.held⟩ := by
            simp [LockTable.release]
          rw [hrelease]
          refine .fails fun folder' card' channel' h => ?_
          simp [Deed.wanted?, hvalid] at h
  | drop i =>
    simp only [act]
    cases ho : r.holders[i]? with
    | none => exact .nobody ho
    | some o => exact .drops ho

/-- Nobody changes what is refused. -/
theorem refuses_run (deeds : List Deed) : ∀ r : Registry, (r.run deeds).refuses = r.refuses := by
  induction deeds with
  | nil => exact fun _ => rfl
  | cons deed deeds ih =>
    intro r
    refine (ih _).trans ?_
    show (r.act deed).2.refuses = r.refuses
    have hacts := r.acts deed
    generalize (r.act deed).1 = outcome, (r.act deed).2 = r' at hacts ⊢
    cases hacts <;> rfl

/-! ### The invariant -/

/-- What holds of a registry at any time: the locks that are held are those of the holders, no two of
them stand at one place, and each is where the lock file of its channel belongs. -/
structure Sound (r : Registry) : Prop where
  held_perm : r.table.held.Perm (r.holders.map (·.lock.place))
  nodup_held : r.table.held.Nodup
  proper : ∀ o ∈ r.holders, o.card.Proper
  place_eq : ∀ o ∈ r.holders, o.lock.place = o.triple.place

theorem sound_start (files : Files) (refuses : Files.Refusal) : (start files refuses).Sound :=
  ⟨.nil, .nil, nofun, nofun⟩

theorem proper_of_wanted {folder : String} {card : CardId} {channel : UInt32} (h : deed.Proper)
    (hwanted : deed.wanted? = some (folder, card, channel)) : card.Proper := by
  cases deed with
  | acquire => cases hwanted; exact h
  | openChannel =>
    simp only [Deed.wanted?] at hwanted
    split at hwanted <;> cases hwanted
    exact h
  | drop => cases hwanted

/-- The lock file of a channel that was taken stands where it belongs. -/
theorem place_of_taken {folder : String} {o : Holder} {files : Files} (h : o.card.Proper)
    (hopen : r.table.files.openAt? r.refuses (Files.join folder (o.card.lockName o.channel)) =
      some (o.lock.place, files)) : o.lock.place = o.triple.place :=
  Files.place_of_join (CardId.lockName_spec h o.channel).1 (CardId.lockName_ne h o.channel).1
    (Files.openAt?_eq_some hopen).1

/-- A holder that drops out leaves the others. -/
theorem perm_of_drop {i : Nat} {o : Holder} (ho : r.holders[i]? = some o) :
    r.holders.Perm (o :: r.holders.eraseIdx i) := by
  obtain ⟨hi, rfl⟩ := List.getElem?_eq_some_iff.1 ho
  exact (List.getElem_cons_eraseIdx_perm hi).symm

/-- **A deed** keeps the invariant. -/
theorem Sound.act (h : r.Sound) (hproper : deed.Proper) : (r.act deed).2.Sound := by
  have hacts := r.acts deed
  generalize (r.act deed).1 = outcome, (r.act deed).2 = r' at hacts
  cases hacts with
  | fails hcause => exact ⟨h.held_perm, h.nodup_held, h.proper, h.place_eq⟩
  | takes hwanted hopen hfree =>
    have hcard := proper_of_wanted hproper hwanted
    refine ⟨h.held_perm.cons _, h.nodup_held.cons hfree, ?_, ?_⟩
    · rintro x hx
      rcases List.mem_cons.1 hx with rfl | hx
      · exact hcard
      · exact h.proper x hx
    · rintro x hx
      rcases List.mem_cons.1 hx with rfl | hx
      · exact place_of_taken hcard hopen
      · exact h.place_eq x hx
  | drops ho =>
    rename_i i o
    have hmem : ∀ x ∈ r.holders.eraseIdx i, x ∈ r.holders := fun x hx => List.mem_of_mem_eraseIdx hx
    refine ⟨?_, h.nodup_held.erase _, fun x hx => h.proper x (hmem x hx),
      fun x hx => h.place_eq x (hmem x hx)⟩
    have hperm := h.held_perm.trans ((perm_of_drop ho).map (·.lock.place))
    rw [List.map_cons] at hperm
    have hrest := hperm.erase o.lock.place
    rw [List.erase_cons_head] at hrest
    exact hrest
  | nobody hnone => exact h

/-- **Any sequence of deeds** keeps the invariant. -/
theorem Sound.run (deeds : List Deed) : ∀ {r : Registry}, r.Sound → (∀ deed ∈ deeds, deed.Proper) →
    (r.run deeds).Sound := by
  induction deeds with
  | nil => exact fun h _ => h
  | cons deed deeds ih =>
    intro r h hproper
    exact ih (h.act (hproper deed List.mem_cons_self))
      fun deed' hdeed => hproper deed' (List.mem_cons_of_mem deed hdeed)

/-! ### What is held -/

/-- A place belongs to one channel only. -/
theorem place_inj {s t : Triple} (hs : s.card.Proper) (ht : t.card.Proper) (h : s.place = t.place) :
    s = t := by
  obtain ⟨hfolder, hname⟩ := List.append_inj' h rfl
  obtain ⟨hcard, hchannel⟩ := CardId.lockName_injective hs ht (List.head_eq_of_cons_eq hname)
  obtain ⟨folder, card, channel⟩ := s
  obtain rfl : folder = t.folder := hfolder
  obtain rfl : card = t.card := hcard
  obtain rfl : channel = t.channel := hchannel
  rfl

/-- A lock is held exactly if its channel has a holder. -/
theorem Sound.mem_held_iff (h : r.Sound) {t : Triple} (ht : t.card.Proper) :
    t.place ∈ r.table.held ↔ t ∈ r.holders.map Holder.triple := by
  rw [h.held_perm.mem_iff, List.mem_map, List.mem_map]
  constructor
  · rintro ⟨o, ho, hplace⟩
    exact ⟨o, ho, place_inj (h.proper o ho) ht ((h.place_eq o ho).symm.trans hplace)⟩
  · rintro ⟨o, ho, rfl⟩
    exact ⟨o, ho, h.place_eq o ho⟩

/-- **No channel has two holders.** -/
theorem Sound.nodup_triples (h : r.Sound) : (r.holders.map Holder.triple).Nodup := by
  have hplaces := (h.held_perm.nodup_iff).1 h.nodup_held
  have heq : r.holders.map (·.lock.place) = (r.holders.map Holder.triple).map Triple.place := by
    rw [List.map_map]
    exact List.map_congr_left fun o ho => h.place_eq o ho
  rw [heq] at hplaces
  exact hplaces.of_map Triple.place

/-- The lock file of a channel in a folder can be opened. -/
def Opens (r : Registry) (folder : String) (card : CardId) (channel : UInt32) : Prop :=
  (r.table.files.openAt? r.refuses (Files.join folder (card.lockName channel))).isSome = true

/-- When the lock file of a channel can be opened in a folder that is there. -/
theorem opens_iff {folder : String} {card : CardId} {channel : UInt32} {place : Place}
    (hcard : card.Proper) (hfolder : r.table.files.folder? folder = some place) :
    r.Opens folder card channel ↔
      (Files.join folder (card.lockName channel)).utf8ByteSize < 4096 ∧
        r.table.files.entry? (place ++ [card.lockName channel]) ≠ some .folder ∧
        r.refuses r.table.files (place ++ [card.lockName channel]) = false := by
  have hjoin : (r.table.files.openAt? r.refuses (Files.join folder (card.lockName channel))).map (·.1) =
      _ := Files.openAt?_join hfolder (CardId.lockName_spec hcard channel).1
    (CardId.lockName_spec hcard channel).2.1 (CardId.lockName_ne hcard channel)
    (CardId.lockName_not_long hcard channel)
  rw [Opens, ← Option.isSome_map (f := (·.1)), hjoin]
  split
  · rename_i hclosed
    refine iff_of_false Bool.false_ne_true ?_
    rintro ⟨hsize, hentry, hrefused⟩
    rcases hclosed with h | h | h
    · exact absurd hsize (Nat.not_lt.2 h)
    · exact hentry h
    · rw [hrefused] at h
      cases h
  · rename_i hopen
    rw [not_or, not_or] at hopen
    exact iff_of_true rfl ⟨Nat.not_le.1 hopen.1, hopen.2.1, Bool.eq_false_iff.2 hopen.2.2⟩

/-- A lock file that is open stands in its folder. -/
theorem openAt?_of_opens {folder : String} {card : CardId} {channel : UInt32} {place : Place}
    (hcard : card.Proper) (hfolder : r.table.files.folder? folder = some place)
    (hopens : r.Opens folder card channel) : ∃ files,
    r.table.files.openAt? r.refuses (Files.join folder (card.lockName channel)) =
      some (Triple.place ⟨place, card, channel⟩, files) := by
  obtain ⟨⟨p, files⟩, hopen⟩ := Option.isSome_iff_exists.1 hopens
  obtain ⟨hlocate, -⟩ := Files.filePlace_eq_ok (Files.openAt?_eq_some hopen).1
  rw [Files.locate_join hfolder (CardId.lockName_spec hcard channel).1
    (CardId.lockName_spec hcard channel).2.1 (CardId.lockName_ne hcard channel)] at hlocate
  split at hlocate <;> cases hlocate
  exact ⟨files, hopen⟩

/-- What comes of wanting a channel whose lock file can be opened. -/
theorem Sound.act_of_opens (h : r.Sound) {folder : String} {card : CardId} {channel : UInt32}
    {place : Place} (hwanted : deed.wanted? = some (folder, card, channel)) (hcard : card.Proper)
    (hfolder : r.table.files.folder? folder = some place) (hopens : r.Opens folder card channel) :
    (⟨place, card, channel⟩ ∉ r.holders.map Holder.triple → ∃ o, (r.act deed).1 = .taken o ∧
        o.triple = ⟨place, card, channel⟩ ∧ (r.act deed).2.holders = o :: r.holders) ∧
      (⟨place, card, channel⟩ ∈ r.holders.map Holder.triple →
        (r.act deed).1 = .failed (.capability (.inUse channel card))) := by
  obtain ⟨files, hopen⟩ := openAt?_of_opens hcard hfolder hopens
  have hheld := h.mem_held_iff (t := ⟨place, card, channel⟩) hcard
  have hacts := r.acts deed
  generalize (r.act deed).1 = outcome, (r.act deed).2 = r' at hacts ⊢
  cases hacts with
  | fails hcause =>
    rcases hcause _ _ _ hwanted with ⟨hnone, -⟩ | ⟨p, hp, hopen', rfl⟩
    · cases hopen.symm.trans hnone
    · cases hopen.symm.trans hopen'
      exact ⟨fun hfree => absurd (hheld.1 hp) hfree, fun _ => rfl⟩
  | @takes _ o _ _ hwanted' hopen' hfree =>
    cases hwanted.symm.trans hwanted'
    have hlock : Triple.place ⟨place, o.card, o.channel⟩ = o.lock.place :=
      (Prod.ext_iff.1 (Option.some.inj (hopen.symm.trans hopen'))).1
    refine ⟨fun _ => ⟨o, rfl, ?_, rfl⟩, fun htaken => ?_⟩
    · rw [Holder.triple, ← hlock, Triple.place, List.dropLast_concat]
    · rw [← hlock] at hfree
      exact absurd (hheld.2 htaken) hfree
  | drops ho => cases hwanted
  | nobody hnone => cases hwanted

/-- What comes of wanting a channel whose lock file cannot be opened. -/
theorem act_of_not_opens {folder : String} {card : CardId} {channel : UInt32}
    (hwanted : deed.wanted? = some (folder, card, channel)) (hopens : ¬r.Opens folder card channel) :
    (r.act deed).1 =
      .failed (.buffer (.openingLock (Files.join folder (card.lockName channel)))) := by
  have hnone := Option.not_isSome_iff_eq_none.1 hopens
  have hacts := r.acts deed
  generalize (r.act deed).1 = outcome, (r.act deed).2 = r' at hacts ⊢
  cases hacts with
  | fails hcause =>
    rcases hcause _ _ _ hwanted with ⟨-, rfl⟩ | ⟨p, -, hopen, -⟩
    · rfl
    · cases hnone.symm.trans hopen
  | takes hwanted' hopen hfree =>
    cases hwanted.symm.trans hwanted'
    cases hnone.symm.trans hopen
  | drops ho => cases hwanted
  | nobody hnone => cases hwanted

/-! ### Other channels -/

/-- The channel that a deed is about, if its lock file can be opened or it has a holder. -/
def concerns? (r : Registry) : Deed → Option Triple
  | .acquire folder card channel | .openChannel folder card channel _ _ _ =>
    (r.table.files.openAt? r.refuses (Files.join folder (card.lockName channel))).map fun opened =>
      ⟨opened.1.dropLast, card, channel⟩
  | .drop i => r.holders[i]?.map Holder.triple

theorem concerns_of_wanted {folder : String} {card : CardId} {channel : UInt32}
    (hwanted : deed.wanted? = some (folder, card, channel)) : r.concerns? deed =
      (r.table.files.openAt? r.refuses (Files.join folder (card.lockName channel))).map fun opened =>
        ⟨opened.1.dropLast, card, channel⟩ := by
  cases deed with
  | acquire =>
    cases hwanted
    rfl
  | openChannel =>
    simp only [Deed.wanted?] at hwanted
    split at hwanted <;> cases hwanted
    rfl
  | drop => cases hwanted

theorem filter_eraseIdx {α : Type} {p : α → Bool} {l : List α} {i : Nat} {x : α} (hx : l[i]? = some x)
    (hp : p x = false) : (l.eraseIdx i).filter p = l.filter p := by
  obtain ⟨hi, rfl⟩ := List.getElem?_eq_some_iff.1 hx
  have hl : l = l.take i ++ l[i] :: l.drop (i + 1) := by simp
  rw [List.eraseIdx_eq_take_drop_succ, List.filter_append]
  conv_rhs => rw [hl, List.filter_append, List.filter_cons_of_neg (by simp [hp])]

/-- **A deed** leaves the holders of all other channels. -/
theorem act_elsewhere {t : Triple} (h : r.concerns? deed ≠ some t) :
    (r.act deed).2.holders.filter (·.triple = t) = r.holders.filter (·.triple = t) := by
  have hacts := r.acts deed
  generalize (r.act deed).1 = outcome, (r.act deed).2 = r' at hacts ⊢
  cases hacts with
  | fails hcause => rfl
  | takes hwanted hopen hfree =>
    have hconcerns := concerns_of_wanted (r := r) hwanted
    rw [hopen] at hconcerns
    refine List.filter_cons_of_neg ?_
    rw [decide_eq_true_eq]
    rintro rfl
    exact h hconcerns
  | drops ho =>
    refine filter_eraseIdx ho (decide_eq_false ?_)
    rintro rfl
    exact h (by simp only [concerns?, ho, Option.map_some])
  | nobody hnone => rfl

/-! ### Long paths -/

/-- The folder in which paths begin, with a path of many slashes. -/
def slashes (n : Nat) : String := String.ofList ('.' :: List.replicate n '/')

theorem names_slashes (n : Nat) : Files.names (slashes n) = ["."] := by
  rw [Files.names_eq, slashes, String.toList_ofList]
  induction n with
  | zero => decide
  | succ n ih =>
    have hcut : ('.' :: List.replicate (n + 1) '/').splitOnP (· == '/') =
        ('.' :: List.replicate n '/').splitOnP (· == '/') ++ [[]] := by
      rw [List.replicate_succ', ← List.cons_append]
      exact List.splitOnP_append_cons _ [] rfl
    rw [hcut, List.map_append, List.filter_append, ih]
    rfl

theorem utf8ByteSize_slashes (n : Nat) : (slashes n).utf8ByteSize = n + 1 := by
  have hslashes : ∀ n, String.utf8Len (List.replicate n '/') = n := by
    intro n
    induction n with
    | zero => rfl
    | succ n ih =>
      rw [List.replicate_succ, String.utf8Len_cons, ih]
      rfl
  rw [slashes, String.utf8ByteSize_ofList, String.utf8Len_cons, hslashes]
  rfl

theorem folder_slashes (files : Files) {n : Nat} (hn : n < 4095) :
    files.folder? (slashes n) = some Files.home := by
  have hnul : (slashes n).any (· == '\x00') = false := by
    rw [String.any, String.contains_bool_eq, slashes, String.toList_ofList]
    simp
  have hempty : slashes n ≠ "" := by
    intro hempty
    have hsize := utf8ByteSize_slashes n
    rw [hempty] at hsize
    cases hsize
  have horigin : Files.origin (slashes n) = Files.home := by
    have hstart : (slashes n).startsWith "/" = false := by
      have hchars : (slashes n).toList = '.' :: List.replicate n '/' := String.toList_ofList
      rw [Bool.eq_false_iff, ne_eq, String.startsWith_string_iff, hchars]
      show ¬['/'] <+: '.' :: _
      rw [List.cons_prefix_cons]
      exact fun h => absurd h.1 (by decide)
    rw [Files.origin, hstart]
    rfl
  unfold Files.folder? Files.locate
  rw [hnul, if_neg Bool.false_ne_true, if_neg hempty, utf8ByteSize_slashes, if_neg (by omega),
    names_slashes, horigin]
  rfl

/-! ### Exclusive ownership -/

/-- **Channels are owned exclusively.** Locks are acquired, channels are opened and either is dropped, in
any folders and in any sequence. At any time, no channel has two holders, and the locks that are held are
those of the holders. Wanting a channel in a folder that is there, where the lock file can be opened,
succeeds if the channel has no holder, and fails with the answer that it is in use if it has one; where
the lock file cannot be opened it fails. A failure changes neither locks nor holders, and no deed changes
the holders of a channel that it is not about. Opening a card without a driver does not touch the locks,
opening with a page size that is not valid fails, and dropping gives the channel free. -/
theorem exclusive (files : Files) (refuses : Files.Refusal) {deeds : List Deed}
    (hproper : ∀ deed ∈ deeds, deed.Proper)
    {r : Registry} (hr : (start files refuses).run deeds = r) :
    (r.holders.map Holder.triple).Nodup ∧
      (∀ t : Triple, t.card.Proper →
        (t.place ∈ r.table.held ↔ t ∈ r.holders.map Holder.triple)) ∧
      (∀ deed folder card channel place, deed.wanted? = some (folder, card, channel) → card.Proper →
        r.table.files.folder? folder = some place →
        r.Opens folder card channel →
        (⟨place, card, channel⟩ ∉ r.holders.map Holder.triple → ∃ o, (r.act deed).1 = .taken o ∧
          o.triple = ⟨place, card, channel⟩ ∧ (r.act deed).2.holders = o :: r.holders) ∧
        (⟨place, card, channel⟩ ∈ r.holders.map Holder.triple →
          (r.act deed).1 = .failed (.capability (.inUse channel card)))) ∧
      (∀ deed folder card channel, deed.wanted? = some (folder, card, channel) →
        ¬r.Opens folder card channel → (r.act deed).1 =
          .failed (.buffer (.openingLock (Files.join folder (card.lockName channel))))) ∧
      (∀ deed e, (r.act deed).1 = .failed e →
        (r.act deed).2.table.held = r.table.held ∧ (r.act deed).2.holders = r.holders) ∧
      (∀ deed t, r.concerns? deed ≠ some t →
        (r.act deed).2.holders.filter (·.triple = t) = r.holders.filter (·.triple = t)) ∧
      (∀ folder card channel bufferSize pageSize pattern, card.family? = none →
        r.act (.openChannel folder card channel bufferSize pageSize pattern) =
          (.failed (.capability (.noDriver card)), r)) ∧
      (∀ folder card channel bufferSize pageSize pattern, ¬(0 < pageSize ∧ pageSize % 4 = 0) →
        ∃ e, (r.act (.openChannel folder card channel bufferSize pageSize pattern)).1 = .failed e) ∧
      (∀ i o, r.holders[i]? = some o →
        o.triple ∉ (r.act (.drop i)).2.holders.map Holder.triple) := by
  have hsound : r.Sound := hr ▸ (sound_start files refuses).run deeds hproper
  refine ⟨hsound.nodup_triples, fun t ht => hsound.mem_held_iff ht, ?_, ?_, ?_,
    fun deed t => act_elsewhere, ?_, ?_, ?_⟩
  · intro deed folder card channel place hwanted hcard hfolder hopens
    exact hsound.act_of_opens hwanted hcard hfolder hopens
  · intro deed folder card channel hwanted hopens
    exact act_of_not_opens hwanted hopens
  · intro deed e hfailed
    have hacts := r.acts deed
    rw [hfailed] at hacts
    generalize (r.act deed).2 = r' at hacts ⊢
    cases hacts
    exact ⟨rfl, rfl⟩
  · intro folder card channel bufferSize pageSize pattern hother
    simp only [act, LockTable.openChannel_of_other bufferSize pattern hother]
    rfl
  · intro folder card channel bufferSize pageSize pattern hinvalid
    have hacts := r.acts (.openChannel folder card channel bufferSize pageSize pattern)
    generalize (r.act _).1 = outcome, (r.act _).2 = r' at hacts ⊢
    cases hacts with
    | fails hcause => exact ⟨_, rfl⟩
    | takes hwanted hopen hfree => simp [Deed.wanted?, hinvalid] at hwanted
  · intro i o ho hmem
    have hnodup := ((perm_of_drop ho).map Holder.triple).nodup_iff.1 hsound.nodup_triples
    rw [List.map_cons, List.nodup_cons] at hnodup
    have hholders : (r.act (.drop i)).2.holders = r.holders.eraseIdx i := by
      simp only [act, ho]
    rw [hholders] at hmem
    exact hnodup.1 hmem

/-- The second of three channels is not given, because the first has the same number. -/
def smallDeeds : List Deed :=
  [.acquire "." (.emulated .cru) 0, .openChannel "." (.emulated .cru) 0 64 8 .incremental,
    .openChannel "." (.emulated .cru) 1 64 8 .incremental]

/-- The channel that was opened is in use for others, and its number is free for another card. -/
theorem exclusive_small :
    ((start .start).run smallDeeds).holders.map Holder.triple =
        [⟨["home"], .emulated .cru, 1⟩, ⟨["home"], .emulated .cru, 0⟩] ∧
      (((start .start).run smallDeeds).act (.acquire "." (.emulated .cru) 1)).1 =
        .failed (.capability (.inUse 1 (.emulated .cru))) ∧
      ∃ o, (((start .start).run smallDeeds).act (.acquire "." (.emulated .crorc) 1)).1 = .taken o := by
  have hproper : ∀ deed ∈ smallDeeds, deed.Proper := by
    simp [smallDeeds, Deed.Proper, CardId.Proper]
  have hholders : ((start .start).run smallDeeds).holders.map Holder.triple =
      [⟨["home"], .emulated .cru, 1⟩, ⟨["home"], .emulated .cru, 0⟩] := by
    simp only [smallDeeds, run, List.foldl, act, LockTable.acquire, LockTable.openChannel,
      Files.openAt?, Files.openOrCreate, Files.filePlace, Files.locate, Files.names_eq, String.any,
      String.contains_bool_eq]
    decide +kernel
  have hfolder : ((start .start).run smallDeeds).table.files.folder? "." = some Files.home :=
    folder_slashes _ (n := 0) (by decide)
  have hopens : ∀ f : Family, ((start .start).run smallDeeds).Opens "." (.emulated f) 1 := by
    have hentries : ((start .start).run smallDeeds).table.files.entries = [(["home",
        "roc-dma-bench_id=emu-cru_chan=1.lock"], .file 1), (["home",
        "roc-dma-bench_id=emu-cru_chan=0.lock"], .file 0), (["home"], .folder), (["tmp"], .folder)] := by
      simp only [smallDeeds, run, List.foldl, act, LockTable.acquire, LockTable.openChannel,
        Files.openAt?, Files.openOrCreate, Files.filePlace, Files.locate, Files.names_eq, String.any,
        String.contains_bool_eq]
      decide +kernel
    intro f
    rw [opens_iff (show (CardId.emulated f).Proper from trivial) hfolder, refuses_run]
    unfold Files.entry?
    rw [hentries]
    cases f <;> decide +kernel
  obtain ⟨-, -, hwanting, -⟩ := exclusive .start .never hproper rfl
  obtain ⟨-, hinUse⟩ := hwanting (.acquire "." (.emulated .cru) 1) _ _ _ _ rfl trivial hfolder
    (hopens .cru)
  obtain ⟨hfree, -⟩ := hwanting (.acquire "." (.emulated .crorc) 1) _ _ _ _ rfl trivial hfolder
    (hopens .crorc)
  obtain ⟨o, htaken, -⟩ := hfree (by rw [hholders]; decide)
  exact ⟨hholders, hinUse (by rw [hholders]; decide), o, htaken⟩

/-- In a folder that is there, the lock of a channel that nobody holds cannot be acquired if the path of
its lock file is too long; and card ids that are not proper can share a lock file. -/
theorem lock_file_not_opened :
    Files.start.folder? (slashes 4080) = some Files.home ∧ (start .start).holders = [] ∧
      ((start .start).act (.acquire (slashes 4080) (.emulated .cru) 0)).1 =
        .failed (.buffer (.openingLock (Files.join (slashes 4080)
          ((CardId.emulated .cru).lockName 0)))) ∧
      Triple.place ⟨Files.home, .pci "12345", 0⟩ = Triple.place ⟨Files.home, .serial 12345, 0⟩ := by
  have hfolder := folder_slashes .start (n := 4080) (by decide)
  have hjoin : (slashes 4080).utf8ByteSize + ((CardId.emulated .cru).lockName 0).utf8ByteSize ≤
      (Files.join (slashes 4080) ((CardId.emulated .cru).lockName 0)).utf8ByteSize := by
    unfold Files.join
    split
    · rw [String.utf8ByteSize_append]
    · rw [String.utf8ByteSize_append, String.utf8ByteSize_append]
      omega
  have hname : ((CardId.emulated .cru).lockName 0).utf8ByteSize = 36 := by decide +kernel
  rw [utf8ByteSize_slashes, hname] at hjoin
  refine ⟨hfolder, rfl, act_of_not_opens rfl ?_, by decide +kernel⟩
  have hiff : (start .start).Opens (slashes 4080) (.emulated .cru) 0 ↔ _ :=
    opens_iff (show (CardId.emulated .cru).Proper from trivial) hfolder
  rw [hiff]
  rintro ⟨hsize, -⟩
  omega

end Registry

end DmaReadout
