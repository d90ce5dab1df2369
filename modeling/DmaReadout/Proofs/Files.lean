import DmaReadout.Proofs.Content
import Mathlib.Data.String.Basic

/-! # Writing and reading files

A file that is written is read back, and writing it changes no folder: what could be written before can
be written after.

* `Files.Sound`: every file that stands somewhere has a content.
* `Files.names_eq`: the names of a path by its characters.
* `Files.Keeps`: the folders stay, and so does soundness; `Keeps.filePlace`: paths lead to the same
  places; `keeps_write`, `keeps_setContent`: the operations on files.
* `Files.read_write`: what was written is read. -/

namespace DmaReadout

namespace Files

variable {fs fs' fs'' : Files} {path : String} {bytes : ByteArray}

/-- Every file that stands somewhere has a content. -/
def Sound (fs : Files) : Prop :=
  ∀ e ∈ fs.entries, ∀ n, e.2 = .file n → n < fs.contents.size

/-- Files with the same folders, in which every file has a content if that was so before. -/
structure Keeps (fs fs' : Files) : Prop where
  folder_iff : ∀ p, fs'.entry? p = some .folder ↔ fs.entry? p = some .folder
  sound : fs.Sound → fs'.Sound

/-- A path that leads to a file or to a name that is free. -/
def Writable (fs : Files) (path : String) : Prop :=
  ∃ p, fs.filePlace path = .ok p

theorem sound_start : start.Sound := by
  intro e he n hn
  simp only [start, List.mem_cons, List.not_mem_nil, or_false] at he
  rcases he with rfl | rfl <;> cases hn

/-! ### Names -/

open String (ofList utf8Len) in
theorem splitOnAux_slash (r : List Char) : ∀ (l m : List Char) (acc : List String),
    String.splitOnAux (ofList (l ++ m ++ r)) "/" ⟨utf8Len l⟩ ⟨utf8Len (l ++ m)⟩ 0 acc =
      acc.reverse ++ (List.splitOnPPrepend (· == '/') r m.reverse).map ofList := by
  have hget : String.Pos.Raw.get "/" 0 = '/' := by decide +kernel
  have hnext : String.Pos.Raw.next "/" 0 = ⟨1⟩ := by decide +kernel
  have hend : String.Pos.Raw.atEnd "/" ⟨1⟩ = true := by decide +kernel
  have hsize : Char.utf8Size '/' = 1 := rfl
  -- over the characters that are left; `l` is behind the last slash, `m` the name so far
  induction r with
  | nil =>
    intro l m acc
    have hextract := String.extract_of_valid l m []
    rw [String.splitOnAux, if_pos ((String.atEnd_of_valid _ _).2 rfl), String.utf8Len_append, hextract]
    simp
  | cons c r ih =>
    intro l m acc
    have hcut := String.extract_of_valid l m (c :: r)
    have hstep : String.Pos.Raw.next (ofList (l ++ m ++ c :: r)) ⟨utf8Len (l ++ m)⟩ =
        ⟨utf8Len (l ++ m ++ [c])⟩ := by
      rw [String.next_of_valid, String.utf8Len_append (l ++ m)]
      simp
    rw [String.splitOnAux, if_neg (by rw [String.atEnd_of_valid]; exact List.cons_ne_nil _ _),
      String.get_of_valid, hget, List.headD_cons]
    by_cases hc : c = '/'
    · subst hc
      have hback : String.Pos.Raw.unoffsetBy ⟨utf8Len (l ++ m ++ ['/'])⟩ ⟨1⟩ =
          ⟨utf8Len l + utf8Len m⟩ := by
        simp [String.Pos.Raw.unoffsetBy, hsize, ← Nat.add_assoc]
      have hrest := ih (l ++ m ++ ['/']) [] (ofList m :: acc)
      rw [List.append_nil, List.append_assoc (l ++ m), List.singleton_append] at hrest
      simp only [beq_self_eq_true, if_true, hstep, hnext, hend, hback, hcut]
      rw [hrest]
      simp [List.splitOnPPrepend_cons_eq_if]
    · have hback : String.Pos.Raw.unoffsetBy ⟨utf8Len (l ++ m)⟩ 0 = ⟨utf8Len (l ++ m)⟩ := rfl
      have hrest := ih l (m ++ [c]) acc
      rw [← List.append_assoc l m, List.append_assoc (l ++ m), List.singleton_append] at hrest
      rw [if_neg (by simpa using hc), hback, hstep, hrest]
      simp [List.splitOnPPrepend_cons_eq_if, hc]

theorem splitOn_slash (s : String) :
    s.splitOn "/" = (s.toList.splitOnP (· == '/')).map String.ofList := by
  have h := splitOnAux_slash s.toList [] [] []
  simpa [String.splitOn] using h

/-- The names of a path by its characters. -/
theorem names_eq (path : String) :
    names path = ((path.toList.splitOnP (· == '/')).map String.ofList).filter (· ≠ "") := by
  rw [names, splitOn_slash]

/-! ### Places -/

theorem Sound.number_lt (h : fs.Sound) {p : Place} {n : Nat} (hp : fs.entry? p = some (.file n)) :
    n < fs.contents.size := by
  cases p with
  | nil => cases hp
  | cons name names =>
    obtain ⟨e, he, hn⟩ := Option.map_eq_some_iff.1 hp
    exact h e (List.mem_of_find?_eq_some he) n hn

theorem entry?_cons {p q : Place} {e : Entry} {entries : List (Place × Entry)}
    {contents : Array Content} (hq : q ≠ []) :
    entry? ⟨(p, e) :: entries, contents⟩ q =
      if p = q then some e else entry? ⟨entries, contents⟩ q := by
  cases q with
  | nil => exact absurd rfl hq
  | cons name names =>
    by_cases hpq : p = name :: names
    · simp [ entry?, hpq]
    · simp [ entry?, hpq]

theorem filePlace_eq_ok {p : Place} (h : fs.filePlace path = .ok p) :
    fs.locate path = .ok (.name p false) ∧ fs.entry? p ≠ some .folder := by
  unfold filePlace at h
  split at h
  · cases h
  · cases h
  · rename_i hlocate
    split at h
    · cases h
    rename_i hopen
    split at h
    · cases h
    split at h
    · cases h
    rename_i hfolder
    cases h
    exact ⟨by rw [hlocate, Bool.eq_false_iff.2 hopen], hfolder⟩

namespace Keeps

theorem refl (fs : Files) : Keeps fs fs := ⟨fun _ => Iff.rfl, id⟩

theorem trans (h : Keeps fs fs') (h' : Keeps fs' fs'') : Keeps fs fs'' :=
  ⟨fun p => (h'.folder_iff p).trans (h.folder_iff p), fun hs => h'.sound (h.sound hs)⟩

theorem enter (h : Keeps fs fs') {place place' : Place} {name : String}
    (he : fs.enter place name = .ok place') : fs'.enter place name = .ok place' := by
  unfold Files.enter at he ⊢
  split at he
  · rename_i hname
    rw [if_pos hname, he]
  rename_i hpoint
  rw [if_neg hpoint]
  split at he
  · rename_i hname
    rw [if_pos hname, he]
  rename_i hpoints
  rw [if_neg hpoints]
  split at he
  · cases he
  rename_i hlong
  rw [if_neg hlong]
  split at he
  · cases he
  · cases he
  · rename_i hfolder
    rw [(h.folder_iff _).2 hfolder]
    exact he

theorem foldlM_enter (h : Keeps fs fs') : ∀ {names : List String} {place place' : Place},
    names.foldlM fs.enter place = .ok place' → names.foldlM fs'.enter place = .ok place'
  | [], _, _, he => he
  | name :: names, place, place', he => by
    rw [List.foldlM_cons] at he ⊢
    obtain ⟨next, hn, he⟩ := bind_eq_ok he
    rw [h.enter hn]
    exact foldlM_enter h he

theorem locate (h : Keeps fs fs') {t : Target} (ht : fs.locate path = .ok t) :
    fs'.locate path = .ok t := by
  unfold Files.locate at ht ⊢
  split at ht
  · cases ht
  rename_i hnul
  rw [if_neg hnul]
  split at ht
  · cases ht
  rename_i hempty
  rw [if_neg hempty]
  split at ht
  · cases ht
  rename_i hlong
  rw [if_neg hlong]
  split at ht
  · exact ht
  · obtain ⟨parent, hparent, ht⟩ := bind_eq_ok ht
    rw [h.foldlM_enter hparent]
    exact ht

/-- What could be written can still be written, and stands at the same place. -/
theorem filePlace (h : Keeps fs fs') {p : Place} (hp : fs.filePlace path = .ok p) :
    fs'.filePlace path = .ok p := by
  obtain ⟨hlocate, hfolder⟩ := filePlace_eq_ok hp
  unfold Files.filePlace at hp ⊢
  rw [hlocate] at hp
  rw [h.locate hlocate]
  dsimp only at hp ⊢
  split at hp
  · cases hp
  · split at hp
    · cases hp
    · rename_i hopen hlong
      rw [if_neg hopen, if_neg hlong, if_neg fun hf => hfolder ((h.folder_iff p).1 hf)]

theorem writable (h : Keeps fs fs') (hw : fs.Writable path) : fs'.Writable path :=
  hw.imp fun _ hp => h.filePlace hp

end Keeps

/-! ### The operations -/

theorem keeps_setContent (fs : Files) (n : Nat) (c : Content) : Keeps fs (fs.setContent n c) := by
  refine ⟨fun p => Iff.rfl, fun hs e he k hk => ?_⟩
  show k < (fs.contents.setIfInBounds n c).size
  rw [Array.size_setIfInBounds]
  exact hs e he k hk

/-- What is open stands at the place of its path, and no folder has changed. -/
theorem openOrCreate_eq_ok {n : Nat} (h : fs.openOrCreate path = .ok (n, fs')) :
    Keeps fs fs' ∧ ∃ p, fs.filePlace path = .ok p ∧ fs'.entry? p = some (.file n) := by
  unfold openOrCreate at h
  split at h
  · cases h
  rename_i p hplace
  obtain ⟨-, hfolder⟩ := filePlace_eq_ok hplace
  split at h
  · rename_i hfile
    cases h
    exact ⟨.refl _, p, hplace, hfile⟩
  · cases h
    have hp : p ≠ [] := by
      rintro rfl
      exact hfolder rfl
    refine ⟨⟨fun q => ?_, fun hs e he k hk => ?_⟩, p, hplace, ?_⟩
    · cases q with
      | nil => exact Iff.rfl
      | cons name names =>
        rw [entry?_cons (List.cons_ne_nil name names)]
        split
        · rename_i hpq
          exact ⟨nofun, fun h => absurd (hpq ▸ h) hfolder⟩
        · exact Iff.rfl
    · show k < (fs.contents.push .empty).size
      rw [Array.size_push]
      rcases List.mem_cons.1 he with rfl | he
      · cases hk
        exact Nat.lt_succ_self _
      · exact Nat.lt_succ_of_lt (hs e he k hk)
    · rw [entry?_cons hp, if_pos rfl]

/-- A path that leads to a place can be opened. -/
theorem openOrCreate_of_place {p : Place} (h : fs.filePlace path = .ok p) :
    ∃ n opened, fs.openOrCreate path = .ok (n, opened) := by
  unfold openOrCreate
  rw [h]
  dsimp only
  split <;> exact ⟨_, _, rfl⟩

theorem write_eq_ok (h : fs.write path bytes = .ok fs') :
    ∃ n opened, fs.openOrCreate path = .ok (n, opened) ∧
      fs' = opened.setContent n (.ofBytes bytes) := by
  unfold write at h
  cases hopen : fs.openOrCreate path with
  | error e =>
    rw [hopen] at h
    cases h
  | ok r =>
    rw [hopen] at h
    cases h
    exact ⟨r.1, r.2, rfl, rfl⟩

theorem keeps_write (h : fs.write path bytes = .ok fs') : Keeps fs fs' := by
  obtain ⟨n, opened, hopen, rfl⟩ := write_eq_ok h
  exact (openOrCreate_eq_ok hopen).1.trans (keeps_setContent _ _ _)

theorem write_of_writable (h : fs.Writable path) (bytes : ByteArray) :
    ∃ fs', fs.write path bytes = .ok fs' := by
  obtain ⟨p, hp⟩ := h
  obtain ⟨n, opened, hopen⟩ := openOrCreate_of_place hp
  rw [write, hopen]
  exact ⟨_, rfl⟩

/-- **What was written is read.** -/
theorem read_write (hs : fs.Sound) (h : fs.write path bytes = .ok fs') :
    (fs'.read? path).map Content.toBytes = some bytes := by
  obtain ⟨n, opened, hopen, rfl⟩ := write_eq_ok h
  obtain ⟨hkeeps, p, hplace, hentry⟩ := openOrCreate_eq_ok hopen
  have hset := keeps_setContent opened n (.ofBytes bytes)
  obtain ⟨hlocate, -⟩ := filePlace_eq_ok ((hkeeps.trans hset).filePlace hplace)
  have hentry' : Files.entry? (opened.setContent n (.ofBytes bytes)) p = some (.file n) := hentry
  have hlt : n < opened.contents.size := (hkeeps.sound hs).number_lt hentry
  have hcontent : (opened.setContent n (.ofBytes bytes)).content n = .ofBytes bytes := by
    show (opened.contents.setIfInBounds n (.ofBytes bytes)).getD n .empty = _
    rw [Array.getD_eq_getD_getElem?, Array.getElem?_setIfInBounds_self_of_lt hlt]
    rfl
  rw [read?, number?, hlocate]
  dsimp only
  rw [hentry']
  dsimp only [Option.map_some]
  rw [hcontent, Content.toBytes_ofBytes]

end Files

end DmaReadout
