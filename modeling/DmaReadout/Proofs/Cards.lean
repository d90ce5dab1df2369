import DmaReadout.Config
import DmaReadout.Proofs.Ownership
import DmaReadout.Reading

/-! # Cards and their resources

A card is addressed by a text, and the lock files and buffers of its channels are named after it.

* `CardId.defaultBufferPath_injective`: the usual path of a buffer tells the pages, the card and the
  channel.
* `CardId.identifies`: which texts address a card, and that no two cards share a resource.
* `CardId.At`: the slot on the bus that an address means; two spellings can mean the same.
* `CardId.one_lock_per_spelling`, `CardId.two_locks_for_one_slot`: the resources of a card go by the
  spelling of its address. -/

namespace DmaReadout.CardId

open Text

/-! ### Names of resources -/

theorem parse_eq_ok_iff {s : String} {id : CardId} : parse s = .ok id ↔ ofText? s = some id := by
  unfold parse
  cases ofText? s with
  | none => exact iff_of_false nofun nofun
  | some id' =>
    show Except.ok id' = .ok id ↔ _
    rw [Except.ok.injEq, Option.some.injEq]

/-- **The usual path of a buffer** tells the size of the pages, the card and the channel. -/
theorem defaultBufferPath_injective {page page' : HugePage} {id id' : CardId}
    {channel channel' : UInt32} (h : id.Proper) (h' : id'.Proper)
    (heq : defaultBufferPath page id channel = defaultBufferPath page' id' channel') :
    page = page' ∧ id = id' ∧ channel = channel' := by
  have hchars := congrArg String.toList heq
  simp only [defaultBufferPath, String.toList_append] at hchars
  have hkeys := List.append_cancel_right hchars
  simp only [List.append_assoc] at hkeys
  have hlabels := List.append_cancel_left (List.append_cancel_left hkeys)
  have hlength : page.label.toList.length = page'.label.toList.length := by
    cases page <;> cases page' <;> rfl
  obtain ⟨hlabel, hrest⟩ := List.append_inj hlabels hlength
  have hpage : page = page' := by
    cases page <;> cases page' <;> first | rfl | exact absurd hlabel (by decide)
  exact ⟨hpage, channelKey_injective h h' (String.toList_inj.1 (List.append_cancel_left hrest))⟩

/-- **Texts identify cards.** A text is accepted exactly if, without the blanks around it, it is the name of
an emulated card in either case, has the form `bus:device.function` of an address, or is a numeral below
`2 ^ 32`; any other is a fault that names it. The text of a card that was read is read back. Neither the
lock files nor the usual buffers of two cards or of two channels have the same name. -/
theorem identifies :
    (∀ s id, parse s = .ok id ↔ ∃ cs, Trimmed s.toList cs ∧ Denotes cs id) ∧
      (∀ s e, parse s = .error e → e = .config (.unknownCard s)) ∧
      (∀ s id, parse s = .ok id → parse id.render = .ok id) ∧
      ∀ s t a b, parse s = .ok a → parse t = .ok b → ∀ m n : UInt32,
        (a.lockName m = b.lockName n → a = b ∧ m = n) ∧
          ∀ g h : HugePage, defaultBufferPath g a m = defaultBufferPath h b n →
            g = h ∧ a = b ∧ m = n := by
  refine ⟨fun s id => parse_eq_ok_iff.trans ofText?_eq_some_iff, fun s e h => ?_, fun s id h => ?_, ?_⟩
  · unfold parse at h
    cases htext : ofText? s with
    | none => rw [htext] at h; cases h; rfl
    | some id => rw [htext] at h; cases h
  · exact parse_eq_ok_iff.2 (ofText?_render (parse_eq_ok_iff.1 h))
  · intro s t a b ha hb m n
    have hproper := ofText?_proper (parse_eq_ok_iff.1 ha)
    have hproper' := ofText?_proper (parse_eq_ok_iff.1 hb)
    exact ⟨lockName_injective hproper hproper', fun g h => defaultBufferPath_injective hproper hproper'⟩

/-- A serial number is read with a sign, zeros and blanks, and its own text is read back; two channels of
two cards have different lock files although their names have the same digits. -/
theorem identifies_small :
    parse " +007\n" = .ok (.serial 7) ∧ parse "7" = .ok (.serial 7) ∧
      (serial 7).lockName 71 ≠ (serial 77).lockName 1 := by
  obtain ⟨htexts, -, hback, hapart⟩ := identifies
  have hnumeral : Numeral "+007".toList 7 := natural?_eq_some_iff.1 (by decide)
  have htrimmed : Trimmed " +007\n".toList "+007".toList := trimChars_eq_iff.1 (by decide)
  have hseven : parse " +007\n" = .ok (.serial 7) :=
    (htexts _ _).2 ⟨_, htrimmed, .number hnumeral (by decide)⟩
  have hother : parse "77" = .ok (.serial 77) :=
    (htexts _ _).2 ⟨_, trimmed_self (isBlank_of_all rfl), .number (numeral_toDigits 77) (by decide)⟩
  refine ⟨hseven, hback _ _ hseven, fun hname => ?_⟩
  obtain ⟨-, hchannel⟩ := (hapart _ _ _ _ hseven hother 71 1).1 hname
  exact absurd hchannel (by decide)

/-! ### Slots on the bus -/

/-- The value of a hexadecimal digit of either case. -/
def hexDigitValue (c : Char) : Nat :=
  if isDigit c then c.toNat - '0'.toNat else c.toLower.toNat - 'a'.toNat + 10

/-- The value of hexadecimal digits, the most significant first. -/
def hexValue (cs : List Char) : Nat :=
  cs.foldl (fun n c => 16 * n + hexDigitValue c) 0

/-- A slot on the bus. -/
structure Slot where
  bus : Nat
  device : Nat
  function : Nat
  deriving DecidableEq

/-- The slot of an address. -/
def AddressParts.slot (p : AddressParts) : Slot :=
  ⟨hexValue p.bus, hexValue p.device, hexDigitValue p.function⟩

/-- A card id that is an address of a slot. -/
def At (id : CardId) (slot : Slot) : Prop :=
  ∃ p : AddressParts, p.Valid ∧ id = .pci (String.ofList p.text) ∧ p.slot = slot

/-- An address has one way to be cut into its parts. -/
theorem AddressParts.text_inj {p q : AddressParts} (hp : p.Valid) (hq : q.Valid)
    (h : p.text = q.text) : p = q := by
  have hout : ∀ {c : Char} {cs : List Char}, isHexDigit c = false → (∀ d ∈ cs, isHexDigit d = true) →
      c ∉ cs := by
    intro c cs hc hcs hmem
    rw [hcs c hmem] at hc
    cases hc
  obtain ⟨hbus, hrest⟩ := append_sep_inj (hout rfl hp.hex_bus) (hout rfl hq.hex_bus) h
  obtain ⟨hdevice, hfunction⟩ := append_sep_inj (hout rfl hp.hex_device) (hout rfl hq.hex_device) hrest
  obtain ⟨bus, device, function⟩ := p
  obtain rfl : bus = q.bus := hbus
  obtain rfl : device = q.device := hdevice
  obtain rfl : function = q.function := List.head_eq_of_cons_eq hfunction
  rfl

/-- A card id addresses one slot at most. -/
theorem At.unique {id : CardId} {slot slot' : Slot} (h : id.At slot) (h' : id.At slot') :
    slot = slot' := by
  obtain ⟨p, hp, rfl, rfl⟩ := h
  obtain ⟨q, hq, heq, rfl⟩ := h'
  rw [pci.injEq, String.ofList_inj] at heq
  rw [AddressParts.text_inj hp hq heq]

/-- An address that was read is the text without the blanks around it, and it addresses a slot. -/
theorem address_of_parse {s address : String} (h : parse s = .ok (.pci address)) :
    address = trim s ∧ ∃ slot, (pci address).At slot := by
  obtain ⟨cs, htrim, hdenotes⟩ := ofText?_eq_some_iff.1 (parse_eq_ok_iff.1 h)
  cases hdenotes with
  | address hp => exact ⟨by rw [trim, htrim.trimChars_eq], _, _, hp, rfl, rfl⟩

/-- **The resources of a card go by the spelling of its address.** Of two texts with addresses, each
addresses a slot, and the same one if they are spelled alike but for the blanks around. Exactly then the
lock files and the usual buffers of a channel have the same names. When somebody holds a channel under the
first address, whoever wants it under the second one fails if that is spelled alike, and gets a lock of its
own if nobody holds the channel under this spelling. -/
theorem one_lock_per_spelling {s s' address address' : String}
    (h : parse s = .ok (.pci address)) (h' : parse s' = .ok (.pci address')) (channel : UInt32) :
    (∃ slot slot', (pci address).At slot ∧ (pci address').At slot' ∧
        (trim s = trim s' → slot = slot')) ∧
      ((pci address).lockName channel = (pci address').lockName channel ↔ trim s = trim s') ∧
      (∀ page, defaultBufferPath page (pci address) channel =
        defaultBufferPath page (pci address') channel ↔ trim s = trim s') ∧
      ∀ (files : Files) (refuses : Files.Refusal) (deeds : List Deed) (r : Registry)
        (folder : String) (place : Place),
        (∀ deed ∈ deeds, deed.Proper) → (Registry.start files refuses).run deeds = r →
        r.table.files.folder? folder = some place → r.Opens folder (pci address') channel →
        ⟨place, pci address, channel⟩ ∈ r.holders.map Holder.triple →
        (trim s = trim s' → (r.act (.acquire folder (pci address') channel)).1 =
          .failed (.capability (.inUse channel (pci address')))) ∧
        (⟨place, pci address', channel⟩ ∉ r.holders.map Holder.triple →
          ∃ o, (r.act (.acquire folder (pci address') channel)).1 = .taken o ∧
            o.triple = ⟨place, pci address', channel⟩) := by
  obtain ⟨hspelled, slot, hslot⟩ := address_of_parse h
  obtain ⟨hspelled', slot', hslot'⟩ := address_of_parse h'
  have hproper := ofText?_proper (parse_eq_ok_iff.1 h)
  have hproper' := ofText?_proper (parse_eq_ok_iff.1 h')
  rw [← hspelled, ← hspelled']
  refine ⟨⟨slot, slot', hslot, hslot', ?_⟩, ⟨fun hname => ?_, ?_⟩, fun page => ⟨fun hpath => ?_, ?_⟩, ?_⟩
  · rintro rfl
    exact hslot.unique hslot'
  · exact pci.inj (lockName_injective hproper hproper' hname).1
  · rintro rfl
    rfl
  · exact pci.inj (defaultBufferPath_injective hproper hproper' hpath).2.1
  · rintro rfl
    rfl
  · intro files refuses deeds r folder place hdeeds hr hfolder hopens hheld
    have hsound : r.Sound := hr ▸ (Registry.sound_start files refuses).run deeds hdeeds
    have hwanted : (Deed.acquire folder (pci address') channel).wanted? =
        some (folder, pci address', channel) := rfl
    obtain ⟨hfree, htaken⟩ := hsound.act_of_opens hwanted hproper' hfolder hopens
    constructor
    · rintro rfl
      exact htaken hheld
    · intro hnobody
      obtain ⟨o, ho, htriple, -⟩ := hfree hnobody
      exact ⟨o, ho, htriple⟩

/-- Somebody holds a channel of a card under one spelling of its address. -/
def oneHolder : Registry :=
  (Registry.start .start).run [.acquire "." (pci "3b:00.0") 0]

theorem oneHolder_proper : ∀ deed ∈ [Deed.acquire "." (pci "3b:00.0") 0], deed.Proper := by
  have haddress : isAddress "3b:00.0".toList = true := by decide +kernel
  exact List.forall_mem_singleton.2 haddress

theorem oneHolder_spec : oneHolder.holders.map Holder.triple = [⟨["home"], pci "3b:00.0", 0⟩] ∧
    oneHolder.table.files.folder? "." = some Files.home ∧
    ∀ address ∈ ["3b:00.0", "3B:0.0"], oneHolder.Opens "." (pci address) 0 := by
  have hrun : oneHolder.holders.map Holder.triple = [⟨["home"], pci "3b:00.0", 0⟩] ∧
      oneHolder.table.files.entries =
        [(["home", "roc-dma-bench_id=3b:00.0_chan=0.lock"], .file 0), (["home"], .folder),
          (["tmp"], .folder)] := by
    simp only [oneHolder, Registry.run, List.foldl, Registry.act, LockTable.acquire,
      Files.openAt?, Files.openOrCreate, Files.filePlace, Files.locate, Files.names_eq, String.any,
      String.contains_bool_eq]
    decide +kernel
  obtain ⟨hholders, hentries⟩ := hrun
  have hfolder : oneHolder.table.files.folder? "." = some Files.home :=
    Registry.folder_slashes _ (n := 0) (by decide)
  have hproper : ∀ address ∈ ["3b:00.0", "3B:0.0"], (pci address).Proper := by
    unfold Proper
    decide +kernel
  refine ⟨hholders, hfolder, fun address haddress => ?_⟩
  rw [Registry.opens_iff (hproper address haddress) hfolder, oneHolder, Registry.refuses_run,
    ← oneHolder]
  unfold Files.entry?
  rw [hentries]
  revert address
  decide +kernel

/-- Blanks around an address do not make another card of it. -/
theorem one_lock_per_spelling_blank :
    parse "3b:00.0" = .ok (pci "3b:00.0") ∧ parse " 3b:00.0\n" = .ok (pci "3b:00.0") ∧
      (oneHolder.act (.acquire "." (pci "3b:00.0") 0)).1 =
        .failed (.capability (.inUse 0 (pci "3b:00.0"))) := by
  have hfirst : parse "3b:00.0" = .ok (pci "3b:00.0") := by decide +kernel
  have hsecond : parse " 3b:00.0\n" = .ok (pci "3b:00.0") := by decide +kernel
  obtain ⟨hholders, hfolder, hopens⟩ := oneHolder_spec
  obtain ⟨-, -, -, hwanting⟩ := one_lock_per_spelling hfirst hsecond 0
  obtain ⟨hinUse, -⟩ := hwanting .start .never [.acquire "." (pci "3b:00.0") 0] oneHolder "." Files.home
    oneHolder_proper rfl hfolder (hopens _ List.mem_cons_self) (by rw [hholders]; decide)
  exact ⟨hfirst, hsecond, hinUse (by decide +kernel)⟩

/-- Two spellings of one slot have different lock files and buffers, and while somebody holds a channel
under the one, somebody else can have it under the other. -/
theorem two_locks_for_one_slot :
    parse "3b:00.0" = .ok (pci "3b:00.0") ∧ parse "3B:0.0" = .ok (pci "3B:0.0") ∧
      (pci "3b:00.0").At ⟨0x3b, 0, 0⟩ ∧ (pci "3B:0.0").At ⟨0x3b, 0, 0⟩ ∧
      (pci "3b:00.0").lockName 0 ≠ (pci "3B:0.0").lockName 0 ∧
      defaultBufferPath .small (pci "3b:00.0") 0 ≠ defaultBufferPath .small (pci "3B:0.0") 0 ∧
      (⟨["home"], pci "3b:00.0", 0⟩ : Triple) ∈ oneHolder.holders.map Holder.triple ∧
      ∃ o, (oneHolder.act (.acquire "." (pci "3B:0.0") 0)).1 = .taken o := by
  have haddress : isAddress "3B:0.0".toList = true := by decide +kernel
  obtain ⟨hholders, hfolder, hopens⟩ := oneHolder_spec
  have hsound : oneHolder.Sound := (Registry.sound_start .start .never).run _ oneHolder_proper
  have hwanted : (Deed.acquire "." (pci "3B:0.0") 0).wanted? = some (".", pci "3B:0.0", 0) := rfl
  obtain ⟨hfree, -⟩ := hsound.act_of_opens hwanted haddress hfolder (hopens "3B:0.0" (by decide))
  obtain ⟨o, htaken, -⟩ := hfree (by rw [hholders]; decide)
  refine ⟨by decide +kernel, by decide +kernel, ⟨⟨['3', 'b'], ['0', '0'], '0'⟩, ?_, rfl, by decide⟩,
    ⟨⟨['3', 'B'], ['0'], '0'⟩, ?_, rfl, by decide⟩, by decide +kernel, by decide +kernel,
    by rw [hholders]; decide, o, htaken⟩
  · exact ⟨by decide, List.all_eq_true.1 rfl, by decide, List.all_eq_true.1 rfl, by decide⟩
  · exact ⟨by decide, List.all_eq_true.1 rfl, by decide, List.all_eq_true.1 rfl, by decide⟩

end DmaReadout.CardId
