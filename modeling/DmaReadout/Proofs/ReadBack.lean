import DmaReadout.Dump
import DmaReadout.Proofs.Content
import DmaReadout.Proofs.LogText
import DmaReadout.Proofs.Sinks
import DmaReadout.Text.Numeral

/-! # Reading copies back

The copies of pages, as text and as bytes, are read back by functions that know nothing but the copy.

* `endedBy?`: the parts of a list that each have a mark behind them. The text is read with it three
  times: its lines end with line ends, its pages with empty lines, its words with blanks.
* `readText?`, `readBytes?`: the pages of a text, the words of raw bytes.
* `readText?_flatMap`: pages in lines of eight are read; `asciiPage_lines`: the text of a page is that of
  lines of eight.
* `Dump.writePages`: copies of pages in a row; `Dump.complete`: all that is written for them.
* `Dump.reads_back`: the main result. -/

namespace DmaReadout

/-! ### Parts with a mark behind them -/

section Parts

variable {α : Type} [DecidableEq α]

/-- The parts of a list that have a mark behind them and none inside; nothing if something else follows
the last mark. -/
def endedBy? (mark : α) : List α → Option (List (List α))
  | [] => some []
  | a :: rest =>
    if a = mark then (endedBy? mark rest).map ([] :: ·)
    else match endedBy? mark rest with
      | some (part :: parts) => some ((a :: part) :: parts)
      | _ => none

theorem endedBy?_part {mark : α} (rest : List α) : ∀ {part : List α}, mark ∉ part →
    endedBy? mark (part ++ mark :: rest) = (endedBy? mark rest).map (part :: ·)
  | [], _ => if_pos rfl
  | a :: part, h => by
    have ih := endedBy?_part rest (List.not_mem_of_not_mem_cons h)
    rw [List.cons_append, endedBy?, if_neg (List.ne_of_not_mem_cons h).symm, ih]
    cases endedBy? mark rest <;> rfl

/-- Parts without the mark are found again when each has the mark behind it. -/
theorem endedBy?_flatMap {mark : α} : ∀ {parts : List (List α)}, (∀ part ∈ parts, mark ∉ part) →
    endedBy? mark (parts.flatMap (· ++ [mark])) = some parts
  | [], _ => rfl
  | part :: parts, h => by
    rw [List.flatMap_cons, List.append_assoc, List.singleton_append,
      endedBy?_part _ (h part List.mem_cons_self),
      endedBy?_flatMap fun p hp => h p (List.mem_cons_of_mem part hp)]
    rfl

end Parts

/-- A list is read back if each of its values is. -/
theorem mapM_map_eq_some {α β : Type} {f : β → Option α} {g : α → β} : ∀ {l : List α},
    (∀ a ∈ l, f (g a) = some a) → (l.map g).mapM f = some l
  | [], _ => rfl
  | a :: l, h => by
    rw [List.map_cons, List.mapM_cons, h a List.mem_cons_self,
      mapM_map_eq_some fun b hb => h b (List.mem_cons_of_mem a hb)]
    rfl

/-! ### Reading -/

/-- A page read from a copy. -/
structure DumpedPage where
  /-- The number of the page. -/
  event : UInt64
  /-- The words of its lines. -/
  lines : List (List Word)
  deriving DecidableEq

namespace DumpedPage

/-- The words of a page, line by line. -/
def words (p : DumpedPage) : List Word :=
  p.lines.flatten

/-- Every line has a word and no more than eight, and all but the last have eight. -/
structure Lined (p : DumpedPage) : Prop where
  length_of_mem : ∀ line ∈ p.lines, 0 < line.length ∧ line.length ≤ wordsPerLine
  length_of_mem_dropLast : ∀ line ∈ p.lines.dropLast, line.length = wordsPerLine

end DumpedPage

/-- The value of decimal digits that is below a bound. -/
def digitsBelow? (bound : Nat) (cs : List Char) : Option Nat :=
  (Text.digits? cs).filter (· < bound)

/-- The word of its digits. -/
def readWord? (cs : List Char) : Option Word :=
  (digitsBelow? UInt32.size cs).map Nat.toUInt32

/-- The number in the first line of a page. -/
def readEvent? (line : List Char) : Option UInt64 := do
  (digitsBelow? UInt64.size (← "Event #".toList.isPrefixOf? line)).map Nat.toUInt64

/-- The words of a line, each with a blank behind it. -/
def readLine? (line : List Char) : Option (List Word) := do
  (← endedBy? ' ' line).mapM readWord?

/-- The page of its lines, without the empty one. -/
def readPage? : List (List Char) → Option DumpedPage
  | [] => none
  | head :: lines => return ⟨← readEvent? head, ← lines.mapM readLine?⟩

/-- The pages of a text, each with an empty line behind it. -/
def readText? (cs : List Char) : Option (List DumpedPage) := do
  (← endedBy? [] (← endedBy? '\n' cs)).mapM readPage?

/-- The pages of the bytes of a text. -/
def readAscii? (bytes : ByteArray) : Option (List DumpedPage) := do
  readText? (← String.fromUTF8? bytes).toList

/-- The words of raw bytes, four bytes each. -/
def readWords? : List UInt8 → Option (List Word)
  | [] => some []
  | a :: b :: c :: d :: rest => (readWords? rest).map (Word.ofBytes a b c d :: ·)
  | _ => none

/-- The words of raw bytes. -/
def readBytes? (bytes : ByteArray) : Option (List Word) :=
  readWords? bytes.data.toList

theorem readWords?_flatMap : ∀ ws : List Word, readWords? (ws.flatMap Word.bytes) = some ws
  | [] => rfl
  | w :: ws => by
    rw [List.flatMap_cons]
    show (readWords? (ws.flatMap Word.bytes)).map (Word.ofBytes _ _ _ _ :: ·) = _
    rw [readWords?_flatMap ws, Word.ofBytes_bytes]
    rfl

/-! ### Numbers and lines -/

/-- The digits of a number are read back. -/
theorem digitsBelow?_toDigits {bound n : Nat} (h : n < bound) :
    digitsBelow? bound (Nat.toDigits 10 n) = some n := by
  rw [digitsBelow?, Text.digits?_toDigits]
  exact Option.filter_some_pos (decide_eq_true h)

theorem readWord?_toDigits (w : Word) : readWord? (Nat.toDigits 10 w.toNat) = some w := by
  rw [readWord?, digitsBelow?_toDigits w.toNat_lt]
  exact congrArg some UInt32.ofNat_toNat

/-- The first line of a page. -/
def eventLine (event : UInt64) : List Char :=
  "Event #".toList ++ Nat.toDigits 10 event.toNat

theorem readEvent?_eventLine (event : UInt64) : readEvent? (eventLine event) = some event := by
  have hcut : "Event #".toList.isPrefixOf? (eventLine event) = some (Nat.toDigits 10 event.toNat) :=
    rfl
  rw [readEvent?, hcut, Option.bind_eq_bind, Option.bind_some,
    digitsBelow?_toDigits event.toNat_lt]
  exact congrArg some UInt64.ofNat_toNat

/-- A line of words, each with a blank behind it. -/
def wordLine (ws : List Word) : List Char :=
  (ws.map fun w => Nat.toDigits 10 w.toNat).flatMap (· ++ [' '])

theorem readLine?_wordLine (ws : List Word) : readLine? (wordLine ws) = some ws := by
  have hparts : ∀ part ∈ ws.map (fun w => Nat.toDigits 10 w.toNat), ' ' ∉ part := by
    intro part hpart
    obtain ⟨w, -, rfl⟩ := List.mem_map.1 hpart
    exact separator_not_mem (by decide) (by decide) (Or.inl rfl)
  rw [readLine?, wordLine, endedBy?_flatMap hparts]
  exact mapM_map_eq_some fun w _ => readWord?_toDigits w

theorem lineEnd_not_mem_wordLine (ws : List Word) : '\n' ∉ wordLine ws := by
  intro h
  obtain ⟨part, hpart, hmem⟩ := List.mem_flatMap.1 h
  obtain ⟨w, -, rfl⟩ := List.mem_map.1 hpart
  rcases List.mem_append.1 hmem with hmem | hmem
  · exact separator_not_mem (by decide) (by decide) (Or.inr rfl) hmem
  · exact absurd (List.mem_singleton.1 hmem) (by decide)

theorem wordLine_ne_nil {ws : List Word} (h : 0 < ws.length) : wordLine ws ≠ [] := by
  obtain ⟨w, rest, rfl⟩ := List.exists_cons_of_length_pos h
  simp [wordLine]

/-! ### Pages of text -/

namespace DumpedPage

/-- The lines of the text of a page, without the empty one. -/
def textLines (p : DumpedPage) : List (List Char) :=
  eventLine p.event :: p.lines.map wordLine

/-- The text of a page: its lines and an empty one. -/
def text (p : DumpedPage) : List Char :=
  (p.textLines ++ [[]]).flatMap (· ++ ['\n'])

theorem lineEnd_not_mem_textLines (p : DumpedPage) : ∀ line ∈ p.textLines, '\n' ∉ line := by
  intro line hline
  rcases List.mem_cons.1 hline with rfl | hline
  · intro h
    rcases List.mem_append.1 h with h | h
    · exact absurd h (by decide)
    · exact separator_not_mem (by decide) (by decide) (Or.inr rfl) h
  · obtain ⟨ws, -, rfl⟩ := List.mem_map.1 hline
    exact lineEnd_not_mem_wordLine ws

theorem Lined.nil_not_mem_textLines {p : DumpedPage} (h : p.Lined) : [] ∉ p.textLines := by
  intro hmem
  rcases List.mem_cons.1 hmem with hnil | hmem
  · exact absurd hnil.symm (List.append_ne_nil_of_left_ne_nil (by decide) _)
  · obtain ⟨ws, hws, hnil⟩ := List.mem_map.1 hmem
    exact wordLine_ne_nil (h.length_of_mem ws hws).1 hnil

theorem readPage?_textLines (p : DumpedPage) : readPage? p.textLines = some p := by
  show (do return ⟨← readEvent? _, ← (p.lines.map wordLine).mapM readLine?⟩ : Option DumpedPage) = _
  rw [readEvent?_eventLine, mapM_map_eq_some fun ws _ => readLine?_wordLine ws]
  rfl

end DumpedPage

/-- **The text of pages in lines of eight is read back.** -/
theorem readText?_flatMap {pages : List DumpedPage} (h : ∀ p ∈ pages, p.Lined) :
    readText? (pages.flatMap DumpedPage.text) = some pages := by
  have hlines : ∀ line ∈ pages.flatMap fun p => p.textLines ++ [[]], '\n' ∉ line := by
    intro line hline
    obtain ⟨p, -, hline⟩ := List.mem_flatMap.1 hline
    rcases List.mem_append.1 hline with hline | hline
    · exact p.lineEnd_not_mem_textLines line hline
    · rw [List.mem_singleton.1 hline]
      exact List.not_mem_nil
  have hpages : ∀ lines ∈ pages.map DumpedPage.textLines, [] ∉ lines := by
    intro lines hmem
    obtain ⟨p, hp, rfl⟩ := List.mem_map.1 hmem
    exact (h p hp).nil_not_mem_textLines
  have htext : pages.flatMap DumpedPage.text =
      (pages.flatMap fun p => p.textLines ++ [[]]).flatMap (· ++ ['\n']) :=
    List.flatMap_assoc.symm
  have hparts : pages.flatMap (fun p => p.textLines ++ [[]]) =
      (pages.map DumpedPage.textLines).flatMap (· ++ [[]]) :=
    (List.flatMap_map DumpedPage.textLines (· ++ [[]]) pages).symm
  rw [readText?, htext, endedBy?_flatMap hlines, Option.bind_eq_bind, Option.bind_some, hparts,
    endedBy?_flatMap hpages]
  exact mapM_map_eq_some fun p _ => p.readPage?_textLines

/-! ### The text of a page -/

/-- What is put behind the text of the words so far for one more word: the word and a blank, and the end
of the line once there are eight. -/
def addWord (x : String × Nat) (w : Word) : String × Nat :=
  if x.2 + 1 = wordsPerLine then (x.1 ++ asciiWord w ++ "\n", 0) else (x.1 ++ asciiWord w, x.2 + 1)

/-- The text of words that were put down so far: lines of eight, and the words of a line that is not
full yet. -/
structure PutDown (words : List Word) (x : String × Nat) (lines : List (List Word)) (rest : List Word) :
    Prop where
  words_eq : words = lines.flatten ++ rest
  text_eq : x.1.toList = (lines.map wordLine).flatMap (· ++ ['\n']) ++ wordLine rest
  length_rest : rest.length = x.2
  rest_lt : rest.length < wordsPerLine
  length_of_mem : ∀ line ∈ lines, line.length = wordsPerLine

theorem PutDown.next {words : List Word} {x : String × Nat} {lines : List (List Word)}
    {rest : List Word} (h : PutDown words x lines rest) (w : Word) :
    ∃ lines rest, PutDown (words ++ [w]) (addWord x w) lines rest := by
  obtain ⟨hwords, htext, hlength, hlt, hlines⟩ := h
  have hword : (asciiWord w).toList = wordLine [w] := by
    simp [asciiWord, wordLine]
  have hadd : (x.1 ++ asciiWord w).toList =
      (lines.map wordLine).flatMap (· ++ ['\n']) ++ wordLine (rest ++ [w]) := by
    rw [String.toList_append, htext, hword, List.append_assoc]
    simp [wordLine]
  have hmore : (rest ++ [w]).length = x.2 + 1 := by rw [List.length_append, hlength]; rfl
  unfold addWord
  split
  · rename_i hfull
    refine ⟨lines ++ [rest ++ [w]], [], ?_, ?_, rfl, Nat.zero_lt_succ _, ?_⟩
    · rw [hwords]
      simp
    · rw [String.toList_append, hadd]
      simp [wordLine]
    · intro line hline
      rcases List.mem_append.1 hline with hline | hline
      · exact hlines line hline
      · rw [List.mem_singleton.1 hline, hmore, hfull]
  · rename_i hfull
    refine ⟨lines, rest ++ [w], ?_, hadd, hmore, by omega, hlines⟩
    rw [hwords, List.append_assoc]

theorem putDown_foldl (words : List Word) : ∀ {before : List Word} {x : String × Nat}
    {lines : List (List Word)} {rest : List Word}, PutDown before x lines rest →
    ∃ lines rest, PutDown (before ++ words) (words.foldl addWord x) lines rest := by
  induction words with
  | nil =>
    intro before x lines rest h
    rw [List.append_nil]
    exact ⟨lines, rest, h⟩
  | cons w words ih =>
    intro before x lines rest h
    obtain ⟨lines, rest, hnext⟩ := h.next w
    rw [List.append_cons]
    exact ih hnext

/-- The words of a page stand in lines of eight. -/
theorem asciiWords_lines (page : Array Word) (event : UInt64) : ∃ p : DumpedPage, p.Lined ∧
    p.event = event ∧ p.words = page.toList ∧
    (asciiWords page).toList = (p.lines.map wordLine).flatMap (· ++ ['\n']) := by
  have hstart : PutDown [] ("", 0) [] [] := ⟨rfl, rfl, rfl, Nat.zero_lt_succ _, by simp⟩
  obtain ⟨lines, rest, hwords, htext, hlength, hlt, hlines⟩ := putDown_foldl page.toList hstart
  have hfold : asciiWords page =
      if (page.toList.foldl addWord ("", 0)).2 = 0 then (page.toList.foldl addWord ("", 0)).1
      else (page.toList.foldl addWord ("", 0)).1 ++ "\n" := by
    rw [Array.foldl_toList]
    rfl
  rw [hfold]
  split
  · rename_i hnone
    rw [hnone, List.length_eq_zero_iff] at hlength
    subst hlength
    refine ⟨⟨event, lines⟩, ⟨fun line hline => ?_, fun line hline => ?_⟩, rfl, ?_, ?_⟩
    · have := hlines line hline
      unfold wordsPerLine at this ⊢
      omega
    · exact hlines line (List.dropLast_subset _ hline)
    · rw [← List.nil_append page.toList, hwords, List.append_nil]
      rfl
    · rw [htext]
      exact List.append_nil _
  · rename_i hsome
    refine ⟨⟨event, lines ++ [rest]⟩, ⟨fun line hline => ?_, fun line hline => ?_⟩, rfl, ?_, ?_⟩
    · rcases List.mem_append.1 hline with hline | hline
      · have := hlines line hline
        unfold wordsPerLine at this ⊢
        omega
      · rw [List.mem_singleton.1 hline]
        omega
    · rw [List.dropLast_concat] at hline
      exact hlines line hline
    · rw [← List.nil_append page.toList, hwords]
      simp [DumpedPage.words]
    · rw [String.toList_append, htext]
      simp

/-- The text of a page is that of its number and its words in lines of eight. -/
theorem asciiPage_lines (event : UInt64) (page : Array Word) : ∃ p : DumpedPage, p.Lined ∧
    p.event = event ∧ p.words = page.toList ∧ (asciiPage event page).toList = p.text := by
  obtain ⟨p, hlined, rfl, hwords, htext⟩ := asciiWords_lines page event
  refine ⟨p, hlined, rfl, hwords, ?_⟩
  have hlines : p.text =
      eventLine p.event ++ ['\n'] ++ (p.lines.map wordLine).flatMap (· ++ ['\n']) ++ ['\n'] := by
    simp [DumpedPage.text, DumpedPage.textLines]
  have hevent : ("Event #" ++ p.event.toNat.repr ++ "\n").toList = eventLine p.event ++ ['\n'] := by
    rw [String.toList_append, String.toList_append, Nat.toList_repr]
    rfl
  rw [asciiPage, String.toList_append, String.toList_append, hevent, htext, hlines]
  rfl

/-! ### Copies of pages in a row -/

namespace Dump

/-- The copy after pages in a row, and for each of them whether all of it could be written. -/
def writePages (d : Dump) : List (UInt64 × Array Word) → List (Except Error Unit) × Dump
  | [] => ([], d)
  | p :: pages =>
    let (result, d) := d.writePage p.1 p.2
    let (results, d) := d.writePages pages
    (result :: results, d)

/-- All that is written for pages in a row where there is room for everything. -/
def complete (mode : DumpMode) (pages : List (UInt64 × Array Word)) : ByteArray :=
  (writePages ⟨mode, ⟨none, .empty⟩, false⟩ pages).2.sink.taken

/-- The bytes of pages, one page after the other. -/
def bytesOf (mode : DumpMode) : List (UInt64 × Array Word) → ByteArray
  | [] => .empty
  | p :: pages => pageBytes mode p.1 p.2 ++ bytesOf mode pages

variable {mode : DumpMode}

/-- A page is offered to the sink as a whole. -/
theorem writePage_sink (sink : Sink) (event : UInt64) (page : Array Word) :
    (writePage ⟨mode, sink, false⟩ event page).2 =
        ⟨mode, (sink.take (pageBytes mode event page)).2, false⟩ ∧
      ((writePage ⟨mode, sink, false⟩ event page).1 = .ok () ↔
        (sink.take (pageBytes mode event page)).1 = .ok ()) := by
  dsimp only [writePage]
  rcases sink.take (pageBytes mode event page) with ⟨e | _, after⟩
  · exact ⟨rfl, by simp⟩
  · exact ⟨rfl, iff_of_true rfl rfl⟩

/-- Pages in a row reach the sink as if they were offered at once. -/
theorem writePages_sink (pages : List (UInt64 × Array Word)) : ∀ sink : Sink,
    (writePages ⟨mode, sink, false⟩ pages).2 = ⟨mode, (sink.take (bytesOf mode pages)).2, false⟩ := by
  induction pages with
  | nil =>
    intro sink
    rw [bytesOf, Sink.take_empty]
    rfl
  | cons p pages ih =>
    intro sink
    show (writePages (writePage ⟨mode, sink, false⟩ p.1 p.2).2 pages).2 = _
    rw [(writePage_sink sink p.1 p.2).1, ih, Sink.take_append]
    rfl

theorem length_writePages (d : Dump) (pages : List (UInt64 × Array Word)) :
    (d.writePages pages).1.length = pages.length := by
  induction pages generalizing d with
  | nil => rfl
  | cons p pages ih => exact congrArg (· + 1) (ih (d.writePage p.1 p.2).2)

/-- Whether a page could be written is told by the sink behind the pages before it. -/
theorem writePages_result {pages : List (UInt64 × Array Word)} : ∀ (sink : Sink) {i : Nat}
    {p : UInt64 × Array Word}, pages[i]? = some p →
    ((writePages ⟨mode, sink, false⟩ pages).1[i]? = some (.ok ()) ↔
      ((sink.take (bytesOf mode (pages.take i))).2.take (pageBytes mode p.1 p.2)).1 = .ok ()) := by
  induction pages with
  | nil => exact fun _ _ _ h => nomatch h
  | cons q pages ih =>
    intro sink i p h
    obtain ⟨hafter, hresult⟩ := writePage_sink sink q.1 q.2
    cases i with
    | zero =>
      obtain rfl : q = p := Option.some.inj h
      rw [List.take_zero, bytesOf, Sink.take_empty, ← hresult]
      exact Option.some_inj
    | succ i =>
      have hrest := ih (sink.take (pageBytes mode q.1 q.2)).2 h
      rw [List.take_succ_cons, bytesOf, ← Sink.take_append, ← hrest, ← hafter]
      rfl

theorem complete_eq (pages : List (UInt64 × Array Word)) : complete mode pages = bytesOf mode pages := by
  rw [complete, writePages_sink]
  exact ByteArray.empty_append

theorem bytesOf_append (a b : List (UInt64 × Array Word)) :
    bytesOf mode (a ++ b) = bytesOf mode a ++ bytesOf mode b := by
  induction a with
  | nil => exact ByteArray.empty_append.symm
  | cons p a ih => rw [List.cons_append, bytesOf, ih, ← ByteArray.append_assoc, bytesOf]

/-! ### Reading them back -/

/-- The pages of a copy in text are read back. -/
theorem readAscii?_bytesOf (pages : List (UInt64 × Array Word)) : ∃ decoded : List DumpedPage,
    readAscii? (bytesOf .ascii pages) = some decoded ∧ (∀ p ∈ decoded, p.Lined) ∧
      decoded.map (fun p => (p.event, p.words)) = pages.map fun p => (p.1, p.2.toList) := by
  have htext : ∃ (text : String) (decoded : List DumpedPage),
      bytesOf .ascii pages = text.toUTF8 ∧ text.toList = decoded.flatMap DumpedPage.text ∧
        (∀ p ∈ decoded, p.Lined) ∧
        decoded.map (fun p => (p.event, p.words)) = pages.map fun p => (p.1, p.2.toList) := by
    induction pages with
    | nil => exact ⟨"", [], rfl, rfl, nofun, rfl⟩
    | cons p pages ih =>
      obtain ⟨text, decoded, hbytes, htext, hlined, hwords⟩ := ih
      obtain ⟨q, hq, hevent, hpage, hqtext⟩ := asciiPage_lines p.1 p.2
      refine ⟨asciiPage p.1 p.2 ++ text, q :: decoded, ?_, ?_, ?_, ?_⟩
      · rw [bytesOf, hbytes]
        exact String.toByteArray_append.symm
      · rw [String.toList_append, hqtext, htext, List.flatMap_cons]
      · exact List.forall_mem_cons.2 ⟨hq, hlined⟩
      · rw [List.map_cons, List.map_cons, hwords, hevent, hpage]
  obtain ⟨text, decoded, hbytes, htext, hlined, hwords⟩ := htext
  have hvalid : String.fromUTF8? text.toUTF8 = some text := dif_pos text.isValidUTF8
  refine ⟨decoded, ?_, hlined, hwords⟩
  rw [readAscii?, hbytes, hvalid, Option.bind_eq_bind, Option.bind_some, htext]
  exact readText?_flatMap hlined

/-- The bytes of a copy in raw bytes are those of the words. -/
theorem toList_bytesOf_binary (pages : List (UInt64 × Array Word)) :
    (bytesOf .binary pages).data.toList = (pages.flatMap (·.2.toList)).flatMap Word.bytes := by
  induction pages with
  | nil => rfl
  | cons p pages ih =>
    have hpage : (pageBytes .binary p.1 p.2).data.toList = p.2.toList.flatMap Word.bytes := by
      show (bytesOfWords p.2).data.toList = _
      rw [bytesOfWords, ← Array.foldl_toList, toList_foldl_pushWord]
      rfl
    rw [bytesOf, ByteArray.data_append, Array.toList_append, hpage, ih, List.flatMap_cons,
      List.flatMap_append]

/-- **Copies are read back.** From a copy in text the numbers and the words of all pages are read, line
by line; a copy in raw bytes has the bytes of the same words and no others, and the words read from both
are the same. A sink with a limit takes what is in front of it, and a page is written without an error
just if everything up to its end fits, or if there is nothing to write for it. -/
theorem reads_back (pages : List (UInt64 × Array Word)) :
    (∃ decoded : List DumpedPage,
      readAscii? (complete .ascii pages) = some decoded ∧
        decoded.map (fun p => (p.event, p.words)) = pages.map (fun p => (p.1, p.2.toList)) ∧
        (∀ p ∈ decoded, p.Lined) ∧
        (complete .binary pages).data.toList = (pages.flatMap (·.2.toList)).flatMap Word.bytes ∧
        readBytes? (complete .binary pages) = some (decoded.flatMap (·.words))) ∧
      ∀ (mode : DumpMode) (room : Nat) (results : List (Except Error Unit)) (d : Dump),
        writePages ⟨mode, ⟨some room, .empty⟩, false⟩ pages = (results, d) →
        d.sink.taken = (complete mode pages).extract 0 room ∧
          results.length = pages.length ∧
          ∀ (i : Nat) (p : UInt64 × Array Word), pages[i]? = some p →
            (results[i]? = some (.ok ()) ↔
              (complete mode (pages.take (i + 1))).size ≤ room ∨
                (pageBytes mode p.1 p.2).size = 0) := by
  constructor
  · obtain ⟨decoded, hread, hlined, hwords⟩ := readAscii?_bytesOf pages
    have hsame : decoded.map DumpedPage.words = pages.map (·.2.toList) := by
      have := congrArg (List.map Prod.snd) hwords
      rwa [List.map_map, List.map_map] at this
    have hbinary := toList_bytesOf_binary pages
    simp only [complete_eq]
    refine ⟨decoded, hread, hwords, hlined, hbinary, ?_⟩
    rw [readBytes?, hbinary, readWords?_flatMap, List.flatMap_def, List.flatMap_def, hsame]
  · intro mode room results d hrun
    obtain rfl : (writePages ⟨mode, ⟨some room, .empty⟩, false⟩ pages).1 = results :=
      congrArg Prod.fst hrun
    obtain rfl : (writePages ⟨mode, ⟨some room, .empty⟩, false⟩ pages).2 = d :=
      congrArg Prod.snd hrun
    refine ⟨?_, length_writePages _ pages, fun i p hp => ?_⟩
    · rw [writePages_sink, complete_eq]
      exact (Sink.taken_limited room .empty _).trans ByteArray.empty_append
    · have hupTo : bytesOf mode (pages.take (i + 1)) =
          bytesOf mode (pages.take i) ++ pageBytes mode p.1 p.2 := by
        rw [List.take_add_one, hp, bytesOf_append]
        exact congrArg (_ ++ ·) ByteArray.append_empty
      rw [writePages_result _ hp, Sink.fits_behind_iff, complete_eq, hupTo]

/-- A page without words and one with nine. -/
def unevenPages : List (UInt64 × Array Word) :=
  [(3, #[]), (4, #[10, 11, 12, 13, 14, 15, 16, 17, 18])]

/-- Twenty bytes take all of the first page, which has ten, and not all of the second one. -/
theorem reads_back_small :
    ∃ results d, writePages ⟨.ascii, ⟨some 20, .empty⟩, false⟩ unevenPages = (results, d) ∧
      results[0]? = some (.ok ()) ∧ results[1]? ≠ some (.ok ()) := by
  have hfits : (complete .ascii (unevenPages.take 1)).size ≤ 20 := by decide +kernel
  have hfull : ¬(complete .ascii (unevenPages.take 2)).size ≤ 20 := by decide +kernel
  have hsome : (pageBytes .ascii 4 #[10, 11, 12, 13, 14, 15, 16, 17, 18]).size ≠ 0 := by decide +kernel
  obtain ⟨-, -, hresults⟩ := (reads_back unevenPages).2 .ascii 20 _ _ rfl
  refine ⟨_, _, rfl, (hresults 0 _ rfl).2 (Or.inl hfits), fun hok => ?_⟩
  exact ((hresults 1 _ rfl).1 hok).elim hfull hsome

end Dump

end DmaReadout
