import DmaReadout.Lock
import DmaReadout.Proofs.Addresses
import DmaReadout.Proofs.Files
import DmaReadout.Proofs.LogText

/-! # Where lock files stand

Every channel of a card has a lock file of its own in every folder: the names of lock files tell cards and
channels apart, and a name in a folder that is there leads to that folder and no further.

* `CardId.Proper`: card ids whose addresses have the form of one; `ofText?_proper`: texts give no others.
* `CardId.channelKey_injective`, `CardId.lockName_injective`: different channels have different names.
* `Files.folder?`: the folder that a path leads to; `Files.locate_join`: a name in it;
  `Files.openAt?_join`: when a file of this name can be opened. -/

namespace DmaReadout

namespace CardId

/-! ### Proper card ids -/

/-- A card id whose address, if it has one, is of the form `bus:device.function`. -/
def Proper : CardId → Prop
  | pci address => isAddress address.toList = true
  | serial _ | emulated _ => True

theorem isAddress_spec {cs : List Char} (h : isAddress cs = true) :
    ':' ∈ cs ∧ cs.length ≤ 9 ∧ ∀ c ∈ cs, isAddressChar c = true := by
  obtain ⟨p, hp, rfl⟩ := isAddress_iff.1 h
  refine ⟨p.colon_mem_text, ?_, hp.isAddressChar⟩
  have hbus := hp.length_bus
  have hdevice := hp.length_device
  simp only [AddressParts.text, List.length_append, List.length_cons, List.length_nil]
  omega

theorem ofText?_proper {s : String} {id : CardId} (h : ofText? s = some id) : id.Proper := by
  obtain ⟨cs, -, hdenotes⟩ := ofText?_eq_some_iff.1 h
  cases hdenotes with
  | cru | crorc | number => trivial
  | address hp =>
    show isAddress (String.ofList _).toList = true
    rw [String.toList_ofList]
    exact isAddress_iff.2 ⟨_, hp, rfl⟩

/-! ### Names of lock files -/

/-- The decimal digits of a number can stand in an address; a colon, a dash and `=` are none. -/
theorem isAddressChar_of_digit {n : Nat} {c : Char} (h : c ∈ Nat.toDigits 10 n) :
    isAddressChar c = true ∧ c ≠ ':' ∧ c ≠ '-' ∧ c ≠ '=' := by
  obtain ⟨d, hd, rfl⟩ := exists_digit_of_mem (by decide) h
  have hall : ∀ d : Fin 10, isAddressChar (Nat.digitChar d) = true ∧ Nat.digitChar d ≠ ':' ∧
      Nat.digitChar d ≠ '-' ∧ Nat.digitChar d ≠ '=' := by decide
  exact hall ⟨d, hd⟩

theorem length_toDigits_word (w : UInt32) : (Nat.toDigits 10 w.toNat).length ≤ 10 :=
  (Nat.length_toDigits_le_iff (by decide) (by decide)).2
    (Nat.lt_trans w.toNat_lt (by decide))

/-- The text of a proper card id is short, and it stays within one name of a path. -/
theorem Proper.render_spec {id : CardId} (h : id.Proper) :
    id.render.toList.length ≤ 10 ∧ '/' ∉ id.render.toList ∧ '\x00' ∉ id.render.toList := by
  have outside : ∀ {cs : List Char}, (∀ c ∈ cs, isAddressChar c = true) →
      '/' ∉ cs ∧ '\x00' ∉ cs := by
    intro cs hcs
    exact ⟨fun hc => absurd (hcs _ hc) (by decide), fun hc => absurd (hcs _ hc) (by decide)⟩
  cases id with
  | pci address =>
    obtain ⟨-, hlen, hchars⟩ := isAddress_spec h
    exact ⟨Nat.le_trans hlen (by decide), outside hchars⟩
  | serial number =>
    rw [render, Nat.toList_repr]
    exact ⟨length_toDigits_word number, outside fun c hc => (isAddressChar_of_digit hc).1⟩
  | emulated family => cases family <;> decide

/-- The text of a proper card id tells the card. -/
theorem render_inj {id id' : CardId} (h : id.Proper) (h' : id'.Proper)
    (heq : id.render = id'.render) : id = id' := by
  have heq := congrArg String.toList heq
  -- an address has a colon, the name of an emulated card a dash, and a number has neither
  have colon : ∀ {address : String}, (pci address).Proper → ':' ∈ (pci address).render.toList :=
    fun h => (isAddress_spec h).1
  have digits : ∀ {n : UInt32} {c : Char}, c ∈ (serial n).render.toList → c ≠ ':' ∧ c ≠ '-' := by
    intro n c hc
    rw [render, Nat.toList_repr] at hc
    exact ⟨(isAddressChar_of_digit hc).2.1, (isAddressChar_of_digit hc).2.2.1⟩
  have named : ∀ f : Family, '-' ∈ (emulated f).render.toList ∧
      ':' ∉ (emulated f).render.toList := by
    intro f
    cases f <;> decide
  cases id with
  | pci address =>
    have hcolon := colon h
    rw [heq] at hcolon
    cases id' with
    | pci address' => exact congrArg pci (String.toList_inj.1 heq)
    | serial n => exact absurd rfl (digits hcolon).1
    | emulated f => exact absurd hcolon (named f).2
  | serial n =>
    cases id' with
    | pci address =>
      have hcolon := colon h'
      rw [← heq] at hcolon
      exact absurd rfl (digits hcolon).1
    | serial m =>
      rw [render, render, Nat.toList_repr, Nat.toList_repr] at heq
      exact congrArg serial (UInt32.toNat_inj.1 (toDigits_injective (by decide) (by decide) heq))
    | emulated f =>
      have hdash := (named f).1
      rw [← heq] at hdash
      exact absurd rfl (digits hdash).2
  | emulated f =>
    cases id' with
    | pci address =>
      have hcolon := colon h'
      rw [← heq] at hcolon
      exact absurd hcolon (named f).2
    | serial n =>
      have hdash := (named f).1
      rw [heq] at hdash
      exact absurd rfl (digits hdash).2
    | emulated g => cases f <;> cases g <;> first | rfl | exact absurd heq (by decide)

/-- A list is cut in one way only behind the last place of a value. -/
theorem append_sep_inj_last {α : Type} {a : α} {xs ys us vs : List α} (hx : a ∉ xs) (hy : a ∉ ys)
    (h : us ++ a :: xs = vs ++ a :: ys) : us = vs ∧ xs = ys := by
  have hrev : xs.reverse ++ a :: us.reverse = ys.reverse ++ a :: vs.reverse := by
    simpa using congrArg List.reverse h
  obtain ⟨hend, hstart⟩ :=
    append_sep_inj (mt List.mem_reverse.1 hx) (mt List.mem_reverse.1 hy) hrev
  exact ⟨List.reverse_injective hstart, List.reverse_injective hend⟩

theorem toList_channelKey (id : CardId) (channel : UInt32) :
    (id.channelKey channel).toList = "roc-dma-bench_id=".toList ++ ((id.render.toList ++
      "_chan".toList) ++ '=' :: Nat.toDigits 10 channel.toNat) := by
  unfold channelKey
  rw [String.toList_append, String.toList_append, String.toList_append, Nat.toList_repr]
  simp only [List.append_assoc]
  rfl

theorem toList_lockName (id : CardId) (channel : UInt32) :
    (id.lockName channel).toList = "roc-dma-bench_id=".toList ++ ((id.render.toList ++
      "_chan".toList) ++ '=' :: Nat.toDigits 10 channel.toNat ++ ".lock".toList) := by
  rw [lockName, String.toList_append, toList_channelKey]
  simp only [List.append_assoc]

/-- **The key of a channel** tells the card and the channel. -/
theorem channelKey_injective {id id' : CardId} {channel channel' : UInt32} (h : id.Proper)
    (h' : id'.Proper) (heq : id.channelKey channel = id'.channelKey channel') :
    id = id' ∧ channel = channel' := by
  have hchars := congrArg String.toList heq
  rw [toList_channelKey, toList_channelKey] at hchars
  have hdigits : ∀ n : UInt32, '=' ∉ Nat.toDigits 10 n.toNat :=
    fun n hn => (isAddressChar_of_digit hn).2.2.2 rfl
  obtain ⟨hcard, hchannel⟩ := append_sep_inj_last (hdigits channel) (hdigits channel')
    (List.append_cancel_left hchars)
  exact ⟨render_inj h h' (String.toList_inj.1 (List.append_cancel_right hcard)),
    UInt32.toNat_inj.1 (toDigits_injective (by decide) (by decide) hchannel)⟩

/-- **The name of a lock file** tells the card and the channel. -/
theorem lockName_injective {id id' : CardId} {channel channel' : UInt32} (h : id.Proper)
    (h' : id'.Proper) (heq : id.lockName channel = id'.lockName channel') :
    id = id' ∧ channel = channel' := by
  have hchars := congrArg String.toList heq
  rw [lockName, lockName, String.toList_append, String.toList_append] at hchars
  exact channelKey_injective h h' (String.toList_inj.1 (List.append_cancel_right hchars))

/-- The name of a lock file is one name of a path. -/
theorem lockName_spec {id : CardId} (h : id.Proper) (channel : UInt32) :
    '/' ∉ (id.lockName channel).toList ∧ '\x00' ∉ (id.lockName channel).toList ∧
      15 < (id.lockName channel).toList.length ∧ (id.lockName channel).toList.length ≤ 48 := by
  obtain ⟨hlen, hslash, hnul⟩ := h.render_spec
  have hchannel := length_toDigits_word channel
  have outside : ∀ {c : Char}, isAddressChar c = false → c ∉ Nat.toDigits 10 channel.toNat := by
    intro c hc hmem
    rw [(isAddressChar_of_digit hmem).1] at hc
    cases hc
  have hlens : "roc-dma-bench_id=".toList.length = 17 ∧ "_chan".toList.length = 5 ∧
      ".lock".toList.length = 5 := by decide
  obtain ⟨hhead, hmiddle, hend⟩ := hlens
  rw [toList_lockName]
  simp only [List.length_append, List.length_cons, List.mem_append, List.mem_cons, not_or]
  refine ⟨⟨by decide, ⟨⟨hslash, by decide⟩, by decide, outside (by decide)⟩, by decide⟩,
    ⟨by decide, ⟨⟨hnul, by decide⟩, by decide, outside (by decide)⟩, by decide⟩, ?_, ?_⟩ <;> omega

/-- The name of a lock file is none of those that mean a folder. -/
theorem lockName_ne {id : CardId} (h : id.Proper) (channel : UInt32) :
    id.lockName channel ≠ "" ∧ id.lockName channel ≠ "." ∧ id.lockName channel ≠ ".." := by
  obtain ⟨-, -, hlen, -⟩ := lockName_spec h channel
  refine ⟨?_, ?_, ?_⟩ <;> intro heq <;> rw [heq] at hlen <;> exact absurd hlen (by decide)

/-- The name of a lock file is short enough. -/
theorem lockName_not_long {id : CardId} (h : id.Proper) (channel : UInt32) :
    Files.isLong (id.lockName channel) = false := by
  obtain ⟨-, -, -, hlen⟩ := lockName_spec h channel
  have hbytes : ∀ cs : List Char, String.utf8Len cs ≤ 4 * cs.length := by
    intro cs
    induction cs with
    | nil => exact Nat.le_refl 0
    | cons c cs ih =>
      have hc := c.utf8Size_le_four
      rw [String.utf8Len_cons, List.length_cons]
      omega
  have hsize := hbytes (id.lockName channel).toList
  rw [String.utf8Len_toList] at hsize
  exact decide_eq_false (by omega)

end CardId

/-! ### Names in folders -/

namespace Files

variable {fs : Files} {folder name : String} {place : Place}

/-- The folder that a path leads to, if it is there. -/
def folder? (fs : Files) (path : String) : Option Place :=
  match fs.locate path with
  | .error _ => none
  | .ok (.folder p) => some p
  | .ok (.name p _) =>
    if isLong (p.getLastD "") then none
    else if fs.entry? p = some .folder then some p
    else none

theorem enter_of_folder {parent : Place} (hpoint : name ≠ ".") (hpoints : name ≠ "..")
    (hlong : isLong name = false) (hentry : fs.entry? (parent ++ [name]) = some .folder) :
    fs.enter parent name = .ok (parent ++ [name]) := by
  rw [enter, if_neg hpoint, if_neg hpoints, hlong, if_neg Bool.false_ne_true, hentry]

theorem walk_of_locate {path : String} {t : Target} (h : fs.locate path = .ok t) :
    path ≠ "" ∧ '\x00' ∉ path.toList ∧
      match t with
      | .folder p => (names path).foldlM fs.enter (origin path) = .ok p
      | .name p _ => ∃ parent last, p = parent ++ [last] ∧ (names path).getLast? = some last ∧
          last ≠ "." ∧ last ≠ ".." ∧
          (names path).foldlM fs.enter (origin path) = fs.enter parent last := by
  unfold locate at h
  split at h
  · cases h
  rename_i hnul
  split at h
  · cases h
  rename_i hempty
  split at h
  · cases h
  have hnul' : '\x00' ∉ path.toList := by
    intro hmem
    refine hnul ?_
    rw [String.any, String.contains_bool_eq, List.any_eq_true]
    exact ⟨_, hmem, rfl⟩
  refine ⟨hempty, hnul', ?_⟩
  split at h
  · rename_i hnone
    cases h
    rw [List.getLast?_eq_none_iff.1 hnone]
    rfl
  · rename_i last hlast
    have hnames : names path = (names path).dropLast ++ [last] :=
      (List.dropLast_append_getLast? last hlast).symm
    obtain ⟨parent, hparent, h⟩ := bind_eq_ok h
    have hwalk : (names path).foldlM fs.enter (origin path) = fs.enter parent last := by
      rw [hnames, List.foldlM_append, hparent]
      show ([last].foldlM fs.enter parent) = _
      rw [List.foldlM_cons]
      cases fs.enter parent last <;> rfl
    split at h
    · rename_i hpoint
      cases h
      rw [hwalk, enter, if_pos hpoint]
    rename_i hpoint
    split at h
    · rename_i hpoints
      cases h
      rw [hwalk, enter, if_neg hpoint, if_pos hpoints]
    · rename_i hpoints
      cases h
      exact ⟨parent, last, rfl, hlast, hpoint, hpoints, hwalk⟩

/-- Walking along the names of a path ends in the folder that it leads to. -/
theorem walk_of_folder (h : fs.folder? folder = some place) :
    folder ≠ "" ∧ '\x00' ∉ folder.toList ∧
      (names folder).foldlM fs.enter (origin folder) = .ok place := by
  unfold folder? at h
  split at h
  · cases h
  · rename_i p hlocate
    cases h
    exact walk_of_locate hlocate
  · rename_i p closed hlocate
    obtain ⟨hempty, hnul, parent, last, rfl, -, hpoint, hpoints, hwalk⟩ := walk_of_locate hlocate
    rw [List.getLastD_concat] at h
    split at h
    · cases h
    rename_i hlong
    split at h
    · rename_i hentry
      cases h
      exact ⟨hempty, hnul, hwalk.trans
        (enter_of_folder hpoint hpoints (Bool.eq_false_iff.2 hlong) hentry)⟩
    · cases h

/-- A path goes on with a name. -/
theorem toList_join (hfolder : folder ≠ "") (name : String) : ∃ front, (join folder name).toList =
    front ++ '/' :: name.toList ∧ (folder.toList = front ∨ folder.toList = front ++ ['/']) := by
  unfold join
  cases hend : folder.endsWith "/" with
  | true =>
    rw [Bool.or_true, if_pos rfl]
    rw [String.endsWith_eq_endsWith_toSlice, String.Slice.endsWith_string_iff] at hend
    obtain ⟨front, hfront⟩ := hend
    have hfront : front ++ ['/'] = folder.toList := by simpa using hfront
    refine ⟨front, ?_, Or.inr hfront.symm⟩
    rw [String.toList_append, ← hfront, List.append_assoc, List.singleton_append]
  | false =>
    rw [Bool.or_false, decide_eq_false hfolder, if_neg Bool.false_ne_true]
    refine ⟨folder.toList, ?_, Or.inl rfl⟩
    rw [String.toList_append, String.toList_append, List.append_assoc]
    rfl

theorem splitOnP_of_not_mem {cs : List Char} (h : '/' ∉ cs) :
    cs.splitOnP (· == '/') = [cs] := by
  refine List.splitOnP_eq_singleton fun c hc => ?_
  rw [beq_eq_false_iff_ne]
  rintro rfl
  exact h hc

/-- The names of a path that goes on behind a slash. -/
theorem names_join (hfolder : folder ≠ "") (hslash : '/' ∉ name.toList) (hname : name ≠ "") :
    names (join folder name) = names folder ++ [name] := by
  obtain ⟨front, hjoin, hfront⟩ := toList_join hfolder name
  have hone : name.toList.splitOnP (· == '/') = [name.toList] := splitOnP_of_not_mem hslash
  have hcut : ∀ rest : List Char, (front ++ '/' :: rest).splitOnP (· == '/') =
      front.splitOnP (· == '/') ++ rest.splitOnP (· == '/') :=
    fun rest => List.splitOnP_append_cons front rest rfl
  have hnames : names folder = ((front.splitOnP (· == '/')).map String.ofList).filter (· ≠ "") := by
    rcases hfront with hfront | hfront
    · rw [names_eq, hfront]
    · rw [names_eq, hfront, hcut]
      simp
  rw [names_eq, hjoin, hcut, hone, hnames]
  simp [hname]

/-- A file in a folder stands there under its name. -/
theorem place_of_join (hslash : '/' ∉ name.toList) (hname : name ≠ "")
    (h : fs.filePlace (join folder name) = .ok place) : place = place.dropLast ++ [name] := by
  have hlast : (names (join folder name)).getLast? = some name := by
    by_cases hfolder : folder = ""
    · have hone : name.toList.splitOnP (· == '/') = [name.toList] :=
        splitOnP_of_not_mem hslash
      rw [hfolder, show join "" name = name from String.empty_append, names_eq, hone]
      simp [hname]
    · rw [names_join hfolder hslash hname, List.getLast?_concat]
  obtain ⟨hlocate, -⟩ := filePlace_eq_ok h
  obtain ⟨-, -, parent, last, rfl, hlast', -⟩ := walk_of_locate hlocate
  obtain rfl := Option.some.inj (hlast.symm.trans hlast')
  rw [List.dropLast_concat]

theorem origin_join (hfolder : folder ≠ "") : origin (join folder name) = origin folder := by
  obtain ⟨front, hjoin, hfront⟩ := toList_join hfolder name
  have hstart : (join folder name).startsWith "/" = folder.startsWith "/" := by
    rw [Bool.eq_iff_iff, String.startsWith_string_iff, String.startsWith_string_iff, hjoin]
    cases front with
    | nil =>
      rcases hfront with hfront | hfront
      · exact absurd (String.toList_eq_nil_iff.1 hfront) hfolder
      · rw [hfront]
        exact ⟨fun _ => ⟨[], rfl⟩, fun _ => ⟨name.toList, rfl⟩⟩
    | cons c front =>
      have hone : ∀ rest : List Char, "/".toList <+: c :: rest ↔ '/' = c := by
        intro rest
        show ['/'] <+: c :: rest ↔ _
        rw [List.cons_prefix_cons]
        exact and_iff_left (List.nil_prefix)
      rcases hfront with hfront | hfront
      · rw [hfront, List.cons_append, hone, hone]
      · rw [hfront, List.cons_append, List.cons_append, hone, hone]
  rw [origin, origin, hstart]

theorem endsWith_join (hfolder : folder ≠ "") (hslash : '/' ∉ name.toList) (hname : name ≠ "") :
    (join folder name).endsWith "/" = false := by
  obtain ⟨front, hjoin, -⟩ := toList_join hfolder name
  rw [String.endsWith_eq_endsWith_toSlice, String.Slice.endsWith_string_eq_false_iff,
    String.copy_toSlice, hjoin]
  rintro ⟨rest, hrest⟩
  rcases List.eq_nil_or_concat name.toList with hnil | ⟨cs, c, hcs⟩
  · exact hname (String.toList_eq_nil_iff.1 hnil)
  · rw [List.concat_eq_append] at hcs
    rw [hcs, ← List.cons_append, ← List.append_assoc] at hrest
    obtain rfl : '/' = c := List.head_eq_of_cons_eq (List.append_inj_right' hrest rfl)
    exact hslash (by rw [hcs]; exact List.mem_append_right cs List.mem_cons_self)

/-- **A name in a folder** that is there leads to its place in the folder, if the path is not too
long. -/
theorem locate_join (h : fs.folder? folder = some place) (hslash : '/' ∉ name.toList)
    (hnul : '\x00' ∉ name.toList) (hname : name ≠ "" ∧ name ≠ "." ∧ name ≠ "..") :
    fs.locate (join folder name) =
      if 4096 ≤ (join folder name).utf8ByteSize then .error .nameTooLong
      else .ok (.name (place ++ [name]) false) := by
  obtain ⟨hempty, hfoldernul, hwalk⟩ := walk_of_folder h
  obtain ⟨hne, hpoint, hpoints⟩ := hname
  obtain ⟨front, hjoin, hfront⟩ := toList_join hempty name
  have hpathnul : (join folder name).any (· == '\x00') = false := by
    rw [String.any, String.contains_bool_eq, hjoin, List.any_eq_false]
    rintro c hc hzero
    obtain rfl : c = '\x00' := of_decide_eq_true hzero
    rcases List.mem_append.1 hc with hc | hc
    · refine hfoldernul ?_
      rcases hfront with hfront | hfront
      · rw [hfront]
        exact hc
      · rw [hfront]
        exact List.mem_append_left _ hc
    · rcases List.mem_cons.1 hc with hc | hc
      · cases hc
      · exact hnul hc
  have hpath : join folder name ≠ "" := by
    intro hpath
    rw [hpath] at hjoin
    cases front <;> cases hjoin
  rw [locate, hpathnul, if_neg Bool.false_ne_true, if_neg hpath, names_join hempty hslash hne,
    List.getLast?_concat, List.dropLast_concat, origin_join hempty, hwalk]
  dsimp only [bind, Except.bind]
  rw [if_neg hpoint, if_neg hpoints, endsWith_join hempty hslash hne]
  rfl

/-- What is open stands at the place of its path, and no folder has changed. -/
theorem openAt?_eq_some {refuses : Refusal} {path : String} {files : Files}
    (h : fs.openAt? refuses path = some (place, files)) :
    fs.filePlace path = .ok place ∧ fs.Keeps files := by
  unfold openAt? at h
  split at h
  · rename_i hplace hopen
    split at h <;> cases h
    exact ⟨hplace, (openOrCreate_eq_ok hopen).1⟩
  · cases h

/-- **A file in a folder** that is there can be opened just if its path is not too long, no folder stands
at its place, and this is not refused. -/
theorem openAt?_join {refuses : Refusal} (h : fs.folder? folder = some place)
    (hslash : '/' ∉ name.toList) (hnul : '\x00' ∉ name.toList)
    (hname : name ≠ "" ∧ name ≠ "." ∧ name ≠ "..") (hlong : isLong name = false) :
    (fs.openAt? refuses (join folder name)).map (·.1) =
      if 4096 ≤ (join folder name).utf8ByteSize ∨ fs.entry? (place ++ [name]) = some .folder ∨
        refuses fs (place ++ [name]) = true then none else some (place ++ [name]) := by
  have hlocate := locate_join h hslash hnul hname
  by_cases hsize : 4096 ≤ (join folder name).utf8ByteSize
  · rw [if_pos (Or.inl hsize), openAt?, filePlace, hlocate, if_pos hsize]
    rfl
  by_cases hentry : fs.entry? (place ++ [name]) = some .folder
  · rw [if_pos (Or.inr (Or.inl hentry)), openAt?, filePlace, hlocate, if_neg hsize]
    dsimp only
    rw [List.getLastD_concat, hlong, hentry]
    rfl
  have hplace : fs.filePlace (join folder name) = .ok (place ++ [name]) := by
    rw [filePlace, hlocate, if_neg hsize]
    dsimp only
    rw [List.getLastD_concat, hlong, if_neg hentry]
    rfl
  obtain ⟨n, files, hopen⟩ := openOrCreate_of_place hplace
  rw [openAt?, hplace, hopen]
  dsimp only
  cases hrefused : refuses fs (place ++ [name]) <;> simp [hsize, hentry]

end Files

end DmaReadout
