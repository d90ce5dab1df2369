import DmaReadout.Proofs.Sinks
import DmaReadout.Status

/-! # The status display scrolls

The display writes its header once and then one line over the other. It moves to a new line at an update
whose second is a whole number of intervals, if the update before it came at another second. An interval
that ends between two updates, and one of a single second, ends without a new line.

* `Plain`: texts without the marks of the header; `plain_statusLine`.
* `StatusDisplay.updates`: one update after the other; `update_eq_ok`: a single one.
* `rows`: the lines as they are written; `count_rows`: the new lines among them.
* `StatusDisplay.newlines_counted`: the main statement; `StatusDisplay.newline_missed`: intervals that
  end without a new line. -/

namespace DmaReadout

/-! ### The text of a line -/

/-- A text without the marks of the header: the end of a line and the first letter of a column. -/
def Plain (s : String) : Prop := '\n' ∉ s.toList ∧ 'T' ∉ s.toList

instance (s : String) : Decidable (Plain s) := inferInstanceAs (Decidable (_ ∧ _))

namespace Plain

variable {s t : String}

theorem append (hs : Plain s) (ht : Plain t) : Plain (s ++ t) := by
  unfold Plain
  rw [String.toList_append, List.mem_append, List.mem_append]
  exact ⟨not_or.2 ⟨hs.1, ht.1⟩, not_or.2 ⟨hs.2, ht.2⟩⟩

theorem of_all {p : Char → Bool} (hs : s.toList.all p = true) (hend : p '\n' = false)
    (hmark : p 'T' = false) : Plain s := by
  have hall := List.all_eq_true.1 hs
  refine ⟨fun h => ?_, fun h => ?_⟩
  · rw [hall _ h] at hend
    cases hend
  · rw [hall _ h] at hmark
    cases hmark

theorem repr (n : Nat) : Plain n.repr := by
  refine of_all (p := Char.isDigit) ?_ (by decide) (by decide)
  rw [Nat.toList_repr]
  exact List.all_eq_true.2 fun c hc => Nat.isDigit_of_mem_toDigits (by decide) (by decide) hc

theorem replicate (n : Nat) {c : Char} (hend : c ≠ '\n') (hmark : c ≠ 'T') :
    Plain (String.ofList (List.replicate n c)) := by
  unfold Plain
  rw [String.toList_ofList]
  exact ⟨fun h => hend (List.eq_of_mem_replicate h).symm,
    fun h => hmark (List.eq_of_mem_replicate h).symm⟩

theorem padRight (width : Nat) (hs : Plain s) : Plain (Text.padRight width s) :=
  hs.append (replicate _ (by decide) (by decide))

theorem padZero (width : Nat) (hs : Plain s) : Plain (Text.padZero width s) :=
  (replicate _ (by decide) (by decide)).append hs

end Plain

theorem plain_statusColumns {a b c d : String} (ha : Plain a) (hb : Plain b) (hc : Plain c)
    (hd : Plain d) : Plain (statusColumns a b c d) := by
  have gap : Plain "  " := by decide
  unfold statusColumns
  exact (((((((ha.padRight 12).append gap).append (hb.padRight 12)).append gap).append
    (hc.padRight 12)).append gap).append (hd.padRight 5))

theorem plain_clockText (seconds : Nat) : Plain (clockText seconds) := by
  have two : ∀ n : Nat, Plain (Text.padZero 2 n.repr) := fun n => (Plain.repr n).padZero 2
  have colon : Plain ":" := by decide
  exact ((((two _).append colon).append (two _)).append colon).append (two _)

theorem plain_fixed (places : Nat) (x : Decimal.Number) : Plain (Decimal.fixed places x) := by
  cases x with
  | nan => exact (by decide : Plain "NaN")
  | infinite negative => cases negative with
    | false => exact (by decide : Plain "inf")
    | true => exact (by decide : Plain "-inf")
  | finite negative m e narrow =>
    have hsign : Plain (if negative = true then "-" else "") := by
      cases negative with
      | false => exact (by decide : Plain "")
      | true => exact (by decide : Plain "-")
    have hplaced : ∀ n, Plain (Decimal.placed places n) := by
      intro n
      unfold Decimal.placed
      split
      · exact Plain.repr n
      · exact ((Plain.repr _).append (by decide : Plain ".")).append ((Plain.repr _).padZero places)
    exact hsign.append (hplaced _)

theorem plain_temperatureText (bits? : Option UInt32) : Plain (temperatureText bits?) := by
  cases bits? with
  | none => exact (by decide : Plain "n/a")
  | some bits => exact plain_fixed 1 _

theorem plain_errorCountText (errorCheck : Bool) (errors : UInt64) :
    Plain (errorCountText errorCheck errors) := by
  cases errorCheck with
  | false => exact (by decide : Plain "n/a")
  | true => exact Plain.repr _

/-- A status line is no header and does not end itself. -/
theorem plain_statusLine (errorCheck : Bool) (elapsed : Duration) (stats : Stats)
    (temperature? : Option UInt32) : Plain (statusLine errorCheck elapsed stats temperature?) := by
  have hcolumns := plain_statusColumns (Plain.repr stats.pushed.toNat) (Plain.repr stats.read.toNat)
    (plain_errorCountText errorCheck stats.errors) (plain_temperatureText temperature?)
  unfold statusLine
  exact (((by decide : Plain "\r  ").append (plain_clockText _)).append
    (by decide : Plain "   ")).append hcolumns

/-! ### Updates -/

/-- What the display is told at one update. -/
structure StatusUpdate where
  elapsed : Duration
  stats : Stats
  temperature? : Option UInt32

/-- The line of an update. -/
def StatusUpdate.line (errorCheck : Bool) (u : StatusUpdate) : String :=
  statusLine errorCheck u.elapsed u.stats u.temperature?

/-- Whether an update moves to a new line, by its second and that of the update before. -/
def scrolls (span before second : Nat) : Bool :=
  before % span != 0 && second % span == 0

theorem scrolls_zero (span second : Nat) : scrolls span 0 second = false := by
  rw [scrolls, Nat.zero_mod]
  rfl

/-- The lines of updates, with the new lines among them. -/
def rows (errorCheck : Bool) (span : Nat) : (before : Nat) → List StatusUpdate → String
  | _, [] => ""
  | before, u :: us =>
    u.line errorCheck ++ (if scrolls span before u.elapsed.seconds then "\n" else "") ++
      rows errorCheck span u.elapsed.seconds us

namespace StatusDisplay

/-- The display after updates, one after the other. The first one that fails is the last one. -/
def updates (d : StatusDisplay) : List StatusUpdate → Except FileFault StatusDisplay
  | [] => .ok d
  | u :: us =>
    match d.update u.elapsed u.stats u.temperature? with
    | (.error e, _) => .error e
    | (.ok _, d) => d.updates us

variable {d d' : StatusDisplay} {text : String}

theorem write_eq_ok (h : d.write text = (.ok (), d')) :
    ∃ sink, d' = { d with sink } ∧ sink.taken = d.sink.taken ++ text.toUTF8 := by
  have hresult : (d.sink.takeText text).1 = .ok () := congrArg Prod.fst h
  have hafter : { d with sink := (d.sink.takeText text).2 } = d' := congrArg Prod.snd h
  exact ⟨_, hafter.symm, Sink.taken_of_ok hresult⟩

theorem head_eq_ok (h : d.head = (.ok (), d')) :
    ∃ sink, d' = { d with sink, headed := true } ∧
      sink.taken = d.sink.taken ++ (if d.headed then "" else statusHeader).toUTF8 := by
  unfold head at h
  split at h
  · rename_i hheaded
    cases h
    obtain ⟨sink, errorCheck, interval, headed, pending⟩ := d
    obtain rfl : headed = true := hheaded
    exact ⟨sink, rfl, ByteArray.append_empty.symm⟩
  · rename_i hheaded
    split at h
    · cases h
    · rename_i hwrite
      obtain ⟨sink, rfl, htaken⟩ := write_eq_ok hwrite
      cases h
      rw [if_neg hheaded]
      exact ⟨sink, rfl, htaken⟩

theorem scroll_eq_ok {phase : Nat} (h : d.scroll phase = (.ok (), d')) :
    ∃ sink, d' = { d with sink, pending := d.pending && phase != 0 } ∧
      sink.taken = d.sink.taken ++ (if d.pending && phase == 0 then "\n" else "").toUTF8 := by
  obtain ⟨sink, errorCheck, interval, headed, pending⟩ := d
  unfold scroll at h
  split at h
  · rename_i hnow
    split at h
    · cases h
    · rename_i hwrite
      obtain ⟨sink, rfl, htaken⟩ := write_eq_ok hwrite
      cases h
      obtain ⟨rfl, hphase⟩ := Bool.and_eq_true_iff.1 hnow
      obtain rfl := of_decide_eq_true hphase
      exact ⟨sink, rfl, htaken⟩
  · rename_i hnow
    cases h
    cases pending with
    | false => exact ⟨sink, rfl, ByteArray.append_empty.symm⟩
    | true =>
      have hphase : phase ≠ 0 := fun h0 => hnow (decide_eq_true h0)
      dsimp only
      rw [bne_iff_ne.2 hphase, beq_eq_false_iff_ne.2 hphase]
      exact ⟨sink, rfl, ByteArray.append_empty.symm⟩

/-- **One update** writes the header if there is none yet, its line, and a new line if one is due. A new
line is due behind an update at another second than the end of an interval. -/
theorem update_eq_ok {u : StatusUpdate}
    (h : d.update u.elapsed u.stats u.temperature? = (.ok (), d')) :
    ∃ sink, d' = { d with sink, headed := true, pending := u.elapsed.seconds % d.interval != 0 } ∧
      sink.taken = d.sink.taken ++ ((if d.headed then "" else statusHeader) ++
        (u.line d.errorCheck ++
          if d.pending && u.elapsed.seconds % d.interval == 0 then "\n" else "")).toUTF8 := by
  unfold update at h
  split at h
  · cases h
  rename_i hhead
  obtain ⟨sink₁, rfl, htaken₁⟩ := head_eq_ok hhead
  split at h
  · cases h
  rename_i hwrite
  obtain ⟨sink₂, rfl, htaken₂⟩ := write_eq_ok hwrite
  dsimp only at h
  split at h
  · cases h
  rename_i hscroll
  obtain ⟨sink₃, rfl, htaken₃⟩ := scroll_eq_ok hscroll
  refine ⟨sink₃, ?_, ?_⟩
  · have hafter := (congrArg Prod.snd h).symm
    dsimp only at hafter
    split at hafter
    · rename_i hphase
      rw [bne_iff_ne.2 (Nat.ne_of_gt hphase)]
      exact hafter
    · rename_i hphase
      -- at the end of an interval nothing is due any more, whether something was or not
      have hend : u.elapsed.seconds % d.interval = 0 := Nat.lt_one_iff.1 (Nat.not_le.1 hphase)
      rw [hafter, hend, bne_self_eq_false, Bool.and_false]
  · rw [htaken₃, htaken₂, htaken₁, ByteArray.append_assoc, ByteArray.append_assoc]
    exact congrArg (d.sink.taken ++ ·)
      (String.toByteArray_append.trans (congrArg (_ ++ ·) String.toByteArray_append)).symm

theorem updates_cons_eq_ok {u : StatusUpdate} {us : List StatusUpdate} (h : d.updates (u :: us) = .ok d') :
    ∃ d₁, d.update u.elapsed u.stats u.temperature? = (.ok (), d₁) ∧ d₁.updates us = .ok d' := by
  rw [updates] at h
  split at h
  · cases h
  · rename_i d₁ hupdate
    exact ⟨d₁, hupdate, h⟩

/-- **Further updates** write their lines, if what is due was left by an update at second `before`. -/
theorem updates_of_headed {us : List StatusUpdate} : ∀ {d : StatusDisplay} {before : Nat},
    d.headed = true → d.pending = (before % d.interval != 0) → d.updates us = .ok d' →
    d'.sink.taken = d.sink.taken ++ (rows d.errorCheck d.interval before us).toUTF8 := by
  induction us with
  | nil =>
    intro d before _ _ h
    cases h
    exact ByteArray.append_empty.symm
  | cons u us ih =>
    intro d before hheaded hpending h
    obtain ⟨d₁, hupdate, hrest⟩ := updates_cons_eq_ok h
    obtain ⟨sink, rfl, htaken⟩ := update_eq_ok hupdate
    have hrows := ih rfl rfl hrest
    dsimp only at hrows
    rw [hrows, htaken, hheaded, hpending, if_pos rfl, ByteArray.append_assoc]
    refine congrArg (d.sink.taken ++ ·) ?_
    rw [rows, String.empty_append]
    exact String.toByteArray_append.symm

/-- **All updates** of a new display write the header and their lines. -/
theorem updates_create {sink : Sink} {errorCheck : Bool} {interval : Duration} {us : List StatusUpdate}
    (hne : us ≠ []) (h : (create sink errorCheck interval).updates us = .ok d') :
    d'.sink.taken = sink.taken ++
      (statusHeader ++ rows errorCheck (max interval.seconds 1) 0 us).toUTF8 := by
  obtain ⟨u, us, rfl⟩ := List.exists_cons_of_ne_nil hne
  obtain ⟨d₁, hupdate, hrest⟩ := updates_cons_eq_ok h
  obtain ⟨sink₁, rfl, htaken⟩ := update_eq_ok hupdate
  rw [updates_of_headed rfl rfl hrest, htaken, ByteArray.append_assoc, rows, scrolls_zero]
  refine congrArg (sink.taken ++ ·) ?_
  show (statusHeader ++ (u.line errorCheck ++ "")).toByteArray ++ String.toByteArray _ = _
  rw [← String.toByteArray_append, String.append_assoc]
  rfl

section Unlimited

variable (h : d.sink.room? = none)

include h

theorem write_unlimited (text : String) : ∃ d', d.write text = (.ok (), d') ∧ d'.sink.room? = none := by
  obtain ⟨hresult, hroom⟩ := Sink.take_unlimited h text.toUTF8
  exact ⟨_, Prod.ext hresult rfl, hroom⟩

theorem head_unlimited : ∃ d', d.head = (.ok (), d') ∧ d'.sink.room? = none := by
  unfold head
  split
  · exact ⟨d, rfl, h⟩
  · obtain ⟨d', hwrite, hroom⟩ := write_unlimited h statusHeader
    rw [hwrite]
    exact ⟨_, rfl, hroom⟩

theorem scroll_unlimited (phase : Nat) : ∃ d', d.scroll phase = (.ok (), d') ∧ d'.sink.room? = none := by
  unfold scroll
  split
  · obtain ⟨d', hwrite, hroom⟩ := write_unlimited h "\n"
    rw [hwrite]
    exact ⟨_, rfl, hroom⟩
  · exact ⟨d, rfl, h⟩

theorem update_unlimited (elapsed : Duration) (stats : Stats) (temperature? : Option UInt32) :
    ∃ d', d.update elapsed stats temperature? = (.ok (), d') ∧ d'.sink.room? = none := by
  obtain ⟨d₁, hhead, h₁⟩ := head_unlimited h
  obtain ⟨d₂, hwrite, h₂⟩ := write_unlimited h₁ (statusLine d₁.errorCheck elapsed stats temperature?)
  obtain ⟨d₃, hscroll, h₃⟩ := scroll_unlimited h₂ (elapsed.seconds % d₂.interval)
  unfold update
  rw [hhead]
  dsimp only
  rw [hwrite]
  dsimp only
  rw [hscroll]
  refine ⟨_, rfl, ?_⟩
  split
  · exact h₃
  · exact h₃

end Unlimited

/-- A display whose sink has no limit is always brought up to date. -/
theorem updates_unlimited (us : List StatusUpdate) {d : StatusDisplay} (h : d.sink.room? = none) :
    ∃ d', d.updates us = .ok d' := by
  induction us generalizing d with
  | nil => exact ⟨d, rfl⟩
  | cons u us ih =>
    obtain ⟨d₁, hupdate, hroom⟩ := update_unlimited h u.elapsed u.stats u.temperature?
    obtain ⟨d', hrest⟩ := ih hroom
    exact ⟨d', by rw [updates, hupdate]; exact hrest⟩

end StatusDisplay

/-! ### New lines -/

/-- The entries of a list, each with the one behind it. -/
def neighbours (xs : List Nat) : List (Nat × Nat) := xs.zip xs.tail

/-- The number of entries of a list that stand in a relation to the one before them. -/
def countNext (p : Nat → Nat → Bool) (xs : List Nat) : Nat :=
  (neighbours xs).countP fun x => p x.1 x.2

/-- Whether an interval has ended between two seconds. -/
def intervalEnds (span before second : Nat) : Bool :=
  before / span < second / span

/-- Whether an interval has ended without a new line. -/
def missed (span before second : Nat) : Bool :=
  intervalEnds span before second && !scrolls span before second

theorem countNext_cons_cons (p : Nat → Nat → Bool) (a b : Nat) (xs : List Nat) :
    countNext p (a :: b :: xs) = countNext p (b :: xs) + if p a b then 1 else 0 :=
  List.countP_cons

/-- The new lines among the lines of updates. -/
theorem count_rows (errorCheck : Bool) (span before : Nat) (us : List StatusUpdate) :
    (rows errorCheck span before us).toList.count '\n' =
      countNext (scrolls span) (before :: us.map (·.elapsed.seconds)) := by
  induction us generalizing before with
  | nil => rfl
  | cons u us ih =>
    have hline : (u.line errorCheck).toList.count '\n' = 0 :=
      List.count_eq_zero.2 (plain_statusLine errorCheck u.elapsed u.stats u.temperature?).1
    rw [rows, String.toList_append, String.toList_append, List.count_append, List.count_append, ih,
      hline, Nat.zero_add, List.map_cons, countNext_cons_cons, Nat.add_comm]
    split <;> rfl

theorem mark_not_mem_rows (errorCheck : Bool) (span before : Nat) (us : List StatusUpdate) :
    'T' ∉ (rows errorCheck span before us).toList := by
  induction us generalizing before with
  | nil => exact (by decide : 'T' ∉ "".toList)
  | cons u us ih =>
    have hline := (plain_statusLine errorCheck u.elapsed u.stats u.temperature?).2
    have hend : 'T' ∉ (if scrolls span before u.elapsed.seconds then "\n" else "").toList := by
      split
      · decide
      · decide
    rw [rows, String.toList_append, String.toList_append]
    simp only [List.mem_append, not_or]
    exact ⟨⟨hline, hend⟩, ih _⟩

/-- Neighbours in an ordered list are in order. -/
theorem le_of_mem_neighbours : ∀ {xs : List Nat}, xs.Pairwise (· ≤ ·) → ∀ x ∈ neighbours xs, x.1 ≤ x.2
  | [], _, _, hx => nomatch hx
  | [_], _, _, hx => nomatch hx
  | a :: b :: xs, h, x, hx => by
    obtain ⟨hfirst, hrest⟩ := List.pairwise_cons.1 h
    rcases List.mem_cons.1 hx with rfl | hx
    · exact hfirst b List.mem_cons_self
    · exact le_of_mem_neighbours hrest x hx

section Seconds

variable {span a b : Nat}

theorem scrolls_iff : scrolls span a b = true ↔ a % span ≠ 0 ∧ b % span = 0 := by
  unfold scrolls
  rw [Bool.and_eq_true, bne_iff_ne, beq_iff_eq]

theorem intervalEnds_iff : intervalEnds span a b = true ↔ a / span < b / span :=
  decide_eq_true_iff

/-- Where the display scrolls, an interval has ended. -/
theorem intervalEnds_of_scrolls (hpos : 0 < span) (hle : a ≤ b) (h : scrolls span a b = true) :
    intervalEnds span a b = true := by
  obtain ⟨ha, hb⟩ := scrolls_iff.1 h
  have hlt : a < b := Nat.lt_of_le_of_ne hle fun heq => ha (heq ▸ hb)
  rw [intervalEnds_iff, Nat.div_lt_iff_lt_mul hpos, Nat.div_mul_cancel (Nat.dvd_of_mod_eq_zero hb)]
  exact hlt

/-- The end of an interval has a new line or is missed, and not both. -/
theorem scrolls_add_missed (hpos : 0 < span) (hle : a ≤ b) :
    (if scrolls span a b then 1 else 0) + (if missed span a b then 1 else 0) =
      if intervalEnds span a b then 1 else 0 := by
  unfold missed
  cases hscrolls : scrolls span a b with
  | true =>
    rw [intervalEnds_of_scrolls hpos hle hscrolls]
    rfl
  | false =>
    rw [Bool.not_false, Bool.and_true]
    exact Nat.zero_add _

/-- An interval of two seconds at least is not missed if no second is skipped. -/
theorem not_missed (hspan : 2 ≤ span) (hstep : b ≤ a + 1) : missed span a b = false := by
  unfold missed
  cases hends : intervalEnds span a b with
  | false => rfl
  | true =>
    have hdiv := intervalEnds_iff.1 hends
    have hlt : a < b := Nat.lt_of_not_le fun hle => Nat.not_lt.2 (Nat.div_le_div_right hle) hdiv
    obtain rfl : b = a + 1 := Nat.le_antisymm hstep hlt
    have hb : span ∣ a + 1 := by
      refine Decidable.byContradiction fun hnot => ?_
      rw [Nat.succ_div_of_not_dvd hnot] at hdiv
      exact Nat.lt_irrefl _ hdiv
    have ha : a % span ≠ 0 := by
      intro ha
      have hone : span ∣ 1 := (Nat.dvd_add_right (Nat.dvd_of_mod_eq_zero ha)).1 hb
      exact absurd (Nat.le_of_dvd Nat.one_pos hone) (by omega)
    rw [scrolls_iff.2 ⟨ha, Nat.mod_eq_zero_of_dvd hb⟩]
    rfl

end Seconds

/-- The ends of intervals are those with a new line and those that are missed. -/
theorem countNext_scrolls_add_missed {span : Nat} (hpos : 0 < span) {xs : List Nat}
    (horder : xs.Pairwise (· ≤ ·)) :
    countNext (scrolls span) xs + countNext (missed span) xs = countNext (intervalEnds span) xs := by
  have hle := le_of_mem_neighbours horder
  unfold countNext
  generalize neighbours xs = pairs at hle ⊢
  induction pairs with
  | nil => rfl
  | cons x pairs ih =>
    obtain ⟨hx, hpairs⟩ := List.forall_mem_cons.1 hle
    have hone := scrolls_add_missed hpos hx
    rw [List.countP_cons, List.countP_cons, List.countP_cons, ← ih hpairs, ← hone]
    omega

namespace StatusDisplay

/-- The number of updates that stand in a relation to the one before, by their seconds. -/
def countUpdates (p : (span before second : Nat) → Bool) (interval : Duration) (us : List StatusUpdate) :
    Nat :=
  countNext (p (max interval.seconds 1)) (us.map (·.elapsed.seconds))

/-- The first update of a display does not scroll. -/
theorem count_rows_eq (errorCheck : Bool) (interval : Duration) (us : List StatusUpdate) :
    (rows errorCheck (max interval.seconds 1) 0 us).toList.count '\n' =
      countUpdates scrolls interval us := by
  rw [count_rows, countUpdates]
  cases us with
  | nil => rfl
  | cons u us =>
    rw [List.map_cons, countNext_cons_cons, scrolls_zero]
    rfl

/-- **New lines.** A display that is brought up to date again and again, at times that do not go back, and
whose writer does not fail, writes its header once, before the first line. Behind the header it moves to a
new line as often as an update at the end of an interval follows one at another second. These are the
updates before which an interval has ended, but for those that are missed; if no second is skipped and an
interval has two seconds or more, none is missed. -/
theorem newlines_counted (sink : Sink) (errorCheck : Bool) (interval : Duration) {us : List StatusUpdate}
    (hne : us ≠ []) (horder : us.Pairwise fun u v => u.elapsed.nanos ≤ v.elapsed.nanos) :
    (sink.room? = none → ∃ d, (create sink errorCheck interval).updates us = .ok d) ∧
      ∀ d, (create sink errorCheck interval).updates us = .ok d →
        ∃ text, d.sink.taken = sink.taken ++ (statusHeader ++ text).toUTF8 ∧
          text = rows errorCheck (max interval.seconds 1) 0 us ∧ 'T' ∉ text.toList ∧
          text.toList.count '\n' = countUpdates scrolls interval us ∧
          text.toList.count '\n' + countUpdates missed interval us =
            countUpdates intervalEnds interval us ∧
          (2 ≤ interval.seconds → (∀ x ∈ neighbours (us.map (·.elapsed.seconds)), x.2 ≤ x.1 + 1) →
            text.toList.count '\n' = countUpdates intervalEnds interval us) := by
  have hsorted : (us.map (·.elapsed.seconds)).Pairwise (· ≤ ·) :=
    List.pairwise_map.2 (horder.imp fun hle => Nat.div_le_div_right hle)
  have hsum : countUpdates scrolls interval us + countUpdates missed interval us =
      countUpdates intervalEnds interval us :=
    countNext_scrolls_add_missed (Nat.le_max_right _ _) hsorted
  refine ⟨fun hroom => updates_unlimited us hroom, fun d h =>
    ⟨_, updates_create hne h, rfl, mark_not_mem_rows _ _ _ _, count_rows_eq _ _ _, ?_, ?_⟩⟩
  · rw [count_rows_eq, hsum]
  · intro hspan hstep
    have hnone : countUpdates missed interval us = 0 := by
      refine List.countP_eq_zero.2 fun x hx => ?_
      rw [not_missed (Nat.le_trans hspan (Nat.le_max_left _ _)) (hstep x hx)]
      exact Bool.false_ne_true
    rw [count_rows_eq, ← hsum, hnone, Nat.add_zero]

/-- An update at a second, with nothing counted. -/
def updateAt (second : Nat) : StatusUpdate := ⟨.ofParts second 0, {}, none⟩

/-- Updates around the end of a minute, with none skipped. -/
theorem newlines_counted_small : ∃ d text,
    (create {} true (.ofParts 60 0)).updates ([59, 60, 60, 61].map updateAt) = .ok d ∧
      d.sink.taken = (statusHeader ++ text).toUTF8 ∧ text.toList.count '\n' = 1 := by
  obtain ⟨hfits, hwritten⟩ := newlines_counted {} true (.ofParts 60 0)
    (show [59, 60, 60, 61].map updateAt ≠ [] by decide) (by decide)
  obtain ⟨d, hd⟩ := hfits rfl
  obtain ⟨text, htaken, -, -, -, -, hcount⟩ := hwritten d hd
  refine ⟨d, text, hd, ?_, (hcount (by decide) (by decide)).trans (by decide)⟩
  rw [htaken]
  exact ByteArray.empty_append

/-- **A missed new line.** From second 59 to second 61 the minute has ended, but there is no new line
behind the header; and there is none at all if an interval has one second. -/
theorem newline_missed :
    (∃ d text, (create {} true (.ofParts 60 0)).updates ([59, 61].map updateAt) = .ok d ∧
      d.sink.taken = (statusHeader ++ text).toUTF8 ∧ text.toList.count '\n' = 0 ∧
      countUpdates intervalEnds (.ofParts 60 0) ([59, 61].map updateAt) = 1) ∧
    ∃ d text, (create {} true (.ofParts 1 0)).updates ([0, 1, 2].map updateAt) = .ok d ∧
      d.sink.taken = (statusHeader ++ text).toUTF8 ∧ text.toList.count '\n' = 0 ∧
      countUpdates intervalEnds (.ofParts 1 0) ([0, 1, 2].map updateAt) = 2 := by
  have hshown : ∀ interval us, us ≠ [] → ∃ d text,
      (create {} true interval).updates us = .ok d ∧ d.sink.taken = (statusHeader ++ text).toUTF8 ∧
        text.toList.count '\n' = countUpdates scrolls interval us := by
    intro interval us hne
    obtain ⟨d, hd⟩ := updates_unlimited us (d := create {} true interval) rfl
    refine ⟨d, _, hd, ?_, count_rows_eq true interval us⟩
    rw [updates_create hne hd]
    exact ByteArray.empty_append
  obtain ⟨d, text, hd, htaken, hcount⟩ := hshown (.ofParts 60 0) ([59, 61].map updateAt) (by decide)
  obtain ⟨d', text', hd', htaken', hcount'⟩ := hshown (.ofParts 1 0) ([0, 1, 2].map updateAt) (by decide)
  exact ⟨⟨d, text, hd, htaken, hcount, by decide⟩, d', text', hd', htaken', hcount', by decide⟩

end StatusDisplay

end DmaReadout
