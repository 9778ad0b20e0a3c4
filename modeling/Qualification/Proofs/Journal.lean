import Qualification.Journal
import Qualification.Proofs.FileTree
import Qualification.Proofs.Run.Event
import Qualification.Proofs.Text.Lines
/-!
# Journals are read as they were written

Events that were added to a journal one after the other are read from it in that order, whatever
their texts are, and also when blank lines stand between them.

* `Journal.Entry`: an event or a blank line, and `Journal.writeAll`, which writes many of them;
* `eventOf?_line`: each of them is one line, which is read as the event that it was written for;
* `Journal.Holds`: what a journal keeps from one event to the next;
* `holds_openIn`, `Holds.write`: a journal begins that way, and adding an entry keeps it;
* **`replay_writeAll`**: the events of a journal are those that were added to it.
-/

namespace Qualification.Journal

open Text (bytes withoutReturn)

/-! ## Entries -/

/-- What is written into the file of events: an event, or a blank line that is none. -/
inductive Entry where
  | event (e : Event)
  | blank (line : String)

namespace Entry

def line : Entry → String
  | event e => e.toJson.compact
  | blank line => line

/-- The line with its end. -/
def text (entry : Entry) : String := entry.line ++ "\n"

def event? : Entry → Option Event
  | event e => some e
  | blank _ => none

/-- Whether an event can be written, or a line is one line and blank. -/
def Writable : Entry → Prop
  | event e => e.Writable
  | blank line => Text.isBlankText line = true ∧ '\n' ∉ line.toList

/-- The line of an event holds no control characters. -/
theorem notMem_compact {e : Event} (h : e.Writable) {c : Char} (hc : c.toNat < 32) :
    c ∉ e.toJson.compact.toList := by
  intro hmem
  rw [Json.compact, String.toList_ofList] at hmem
  have hge : 32 ≤ c.toNat := Json.noControl_compactChars e.toJson (Event.plain_toJson h) c hmem
  omega

theorem newline_notMem_line {entry : Entry} (h : entry.Writable) : '\n' ∉ entry.line.toList := by
  cases entry with
  | event e => exact notMem_compact h (by decide)
  | blank line => exact h.2

/-- An entry is one line of the file. -/
theorem linesAt_text {entry : Entry} (h : entry.Writable) :
    Text.linesAt 10 13 (bytes entry.text) = [bytes (withoutReturn entry.line)] :=
  Text.linesAt_bytes (newline_notMem_line h)

theorem withoutReturn_compact {e : Event} (h : e.Writable) :
    withoutReturn e.toJson.compact = e.toJson.compact :=
  Text.withoutReturn_of_notMem (notMem_compact h (by decide))

/-- **The line of an entry is read as its event**; a blank one has none. -/
theorem eventOf?_line {entry : Entry} (h : entry.Writable) :
    eventOf? (bytes (withoutReturn entry.line)) = .ok entry.event? := by
  unfold eventOf?
  rw [Text.decode?_bytes]
  cases entry with
  | event e =>
    have hblank : Text.isBlankText e.toJson.compact = false := by
      simp [Text.isBlankText, Json.compact, Event.toJson, Json.compactChars, Text.isBlank]
    simp only [line, withoutReturn_compact h, hblank, Event.parse?_compact h, event?]
    rfl
  | blank line =>
    have hblank : Text.isBlankText (withoutReturn line) = true := Text.isBlankText_withoutReturn h.1
    simp only [Entry.line, hblank, if_true, event?]

end Entry

/-! ## The file of events -/

variable {j : Journal} {files files' : FileTree}

@[simp]
theorem eventsPlace_ne_nil (j : Journal) : j.eventsPlace ≠ [] := by simp [eventsPlace]

@[simp]
theorem dropLast_eventsPlace (j : Journal) : j.eventsPlace.dropLast = j.place := by
  simp [eventsPlace]

theorem place_ne_eventsPlace (j : Journal) : j.place ≠ j.eventsPlace := by simp [eventsPlace]

/-- The bytes of the file of events; none where there is no file. -/
def content (j : Journal) (files : FileTree) : List UInt8 :=
  ((files.read? j.eventsPlace).getD ByteArray.empty).data.toList

/-- The lines of the file of events. -/
def lines (j : Journal) (files : FileTree) : List (List UInt8) :=
  Text.linesAt 10 13 (j.content files)

theorem replay_eq_eventsOfLines (h : files.isDirectory j.eventsPlace = false) :
    j.replay files = eventsOfLines (j.lines files) := by
  unfold replay lines content FileTree.read?
  cases hentry : files.entry? j.eventsPlace with
  | none => rfl
  | some e =>
    cases e with
    | directory => simp [FileTree.isDirectory, hentry] at h
    | file b => rfl

theorem eventsOfLines_append {ls ls' : List (List UInt8)} {es es' : List Event}
    (h : eventsOfLines ls = .ok es) (h' : eventsOfLines ls' = .ok es') :
    eventsOfLines (ls ++ ls') = .ok (es ++ es') := by
  induction ls generalizing es with
  | nil =>
    cases h
    exact h'
  | cons l ls ih =>
    rw [eventsOfLines] at h
    cases hevent : eventOf? l with
    | error err => simp [hevent, bind, Except.bind] at h
    | ok event =>
      cases hevents : eventsOfLines ls with
      | error err => simp [hevent, hevents, bind, Except.bind] at h
      | ok events =>
        simp only [hevent, hevents, bind, Except.bind, Except.ok.injEq] at h
        simp [eventsOfLines, hevent, ih hevents, bind, Except.bind, ← h]

/-! ## Writing -/

/-- Writes an entry at the end of the file: an event as the journal adds it, and a blank line by
other means. -/
def write (j : Journal) (files : FileTree) : Entry → Except JournalError FileTree
  | .event e => j.append e files
  | .blank line =>
    match files.append? j.eventsPlace (Text.encode (line ++ "\n")) with
    | some files => .ok files
    | none => .error (.notOpened j.eventsPath)

/-- Writes entries one after the other. -/
def writeAll (j : Journal) (files : FileTree) (entries : List Entry) :
    Except JournalError FileTree :=
  entries.foldlM j.write files

theorem writeAll_cons {entry : Entry} {entries : List Entry}
    (h : j.write files entry = .ok files') :
    j.writeAll files (entry :: entries) = j.writeAll files' entries := by
  rw [writeAll, List.foldlM_cons, h]
  rfl

theorem writeAll_append {before after : List Entry} (h : j.writeAll files before = .ok files') :
    j.writeAll files (before ++ after) = j.writeAll files' after := by
  rw [writeAll] at h
  rw [writeAll, List.foldlM_append, h]
  rfl

theorem write_eq {entry : Entry}
    (h : files.append? j.eventsPlace (Text.encode entry.text) = some files') :
    j.write files entry = .ok files' := by
  cases entry with
  | event e =>
    rw [write, append, show lineOf e = (Entry.event e).text from rfl, h]
  | blank line =>
    rw [write, show line ++ "\n" = (Entry.blank line).text from rfl, h]

/-- What a journal keeps from one entry to the next: the directory of its run is there, the last
line of its file has its end, and the file is read as the events `es`. -/
structure Holds (j : Journal) (files : FileTree) (es : List Event) : Prop where
  directory : files.isDirectory j.place = true
  file : files.isDirectory j.eventsPlace = false
  closed : Text.Closed 10 (j.content files)
  events : eventsOfLines (j.lines files) = .ok es

/-- How a line is added to the file of events: its bytes and its end come after those that were
there, it is one line more, and nothing else changes. -/
structure AddsLine (j : Journal) (line : String) (files files' : FileTree) : Prop where
  content : j.content files' = j.content files ++ bytes (line ++ "\n")
  lines : j.lines files' = j.lines files ++ [bytes (withoutReturn line)]
  elsewhere : ∀ place, place ≠ j.eventsPlace → files'.entry? place = files.entry? place

namespace Holds

variable {es : List Event}

/-- **An entry is added as one line**, and its event comes after those that were there. -/
theorem write (h : j.Holds files es) {entry : Entry} (hentry : entry.Writable) :
    ∃ files', j.write files entry = .ok files' ∧ j.AddsLine entry.line files files' ∧
      j.Holds files' (es ++ entry.event?.toList) := by
  let old := (files.read? j.eventsPlace).getD ByteArray.empty
  let files' := files.put j.eventsPlace (.file (old ++ Text.encode entry.text))
  have hstands : ∀ place, files'.entry? place =
      if place = j.eventsPlace then some (.file (old ++ Text.encode entry.text))
      else files.entry? place :=
    FileTree.entry?_put (eventsPlace_ne_nil j) _
  have hcontent : j.content files' = j.content files ++ bytes entry.text := by
    simp [content, FileTree.read?, hstands, bytes, old]
  have hlines : j.lines files' = j.lines files ++ [bytes (withoutReturn entry.line)] := by
    rw [lines, hcontent, Text.linesAt_append h.closed, Entry.linesAt_text hentry, lines]
  have hline : eventsOfLines [bytes (withoutReturn entry.line)] = .ok entry.event?.toList := by
    simp [eventsOfLines, Entry.eventOf?_line hentry, bind, Except.bind]
  refine ⟨files', write_eq (FileTree.append?_eq (eventsPlace_ne_nil j) ?_ h.file _),
    ⟨hcontent, hlines, fun place hplace => ?_⟩, ?_, ?_, ?_, ?_⟩
  · rw [dropLast_eventsPlace]
    exact h.directory
  · rw [hstands, if_neg hplace]
  · rw [FileTree.isDirectory, hstands, if_neg (place_ne_eventsPlace j)]
    exact h.directory
  · simp [FileTree.isDirectory, hstands]
  · rw [hcontent]
    exact h.closed.append (.inr ⟨bytes entry.line, by rw [Entry.text, Text.bytes_append]; rfl⟩)
  · rw [hlines]
    exact eventsOfLines_append h.events hline

/-- Entries are all added, and their events come after those that were there. -/
theorem writeAll (h : j.Holds files es) {entries : List Entry}
    (hentries : ∀ entry ∈ entries, entry.Writable) :
    ∃ files', j.writeAll files entries = .ok files' ∧
      j.Holds files' (es ++ entries.filterMap Entry.event?) := by
  induction entries generalizing files es with
  | nil => exact ⟨files, rfl, by simpa using h⟩
  | cons entry entries ih =>
    obtain ⟨hentry, hentries⟩ := List.forall_mem_cons.mp hentries
    obtain ⟨files₁, hwrite, -, h₁⟩ := h.write hentry
    obtain ⟨files', hwriteAll, h'⟩ := ih h₁ hentries
    refine ⟨files', (writeAll_cons hwrite).trans hwriteAll, ?_⟩
    have hevents : es ++ (entry :: entries).filterMap Entry.event? =
        es ++ entry.event?.toList ++ entries.filterMap Entry.event? := by
      cases hevent : entry.event? <;> simp [hevent]
    rwa [hevents]

end Holds

/-! ## Opening -/

variable {cwd : Place} {base : String} {runId : Uuid} {opened : FileTree}

/-- Opening makes the directory of the run and finds its place. -/
theorem makeDirs?_openIn (h : openIn files cwd base runId = .ok (j, opened)) :
    files.makeDirs? cwd (Path.join base runId.render) = some opened ∧
      opened.resolve? cwd (Path.join base runId.render) = some j.place := by
  unfold openIn at h
  generalize Path.join base runId.render = path at h ⊢
  simp only at h
  split at h
  next => cases h
  next made hmake =>
    split at h
    next => cases h
    next place hresolve =>
      obtain ⟨rfl, rfl⟩ := Prod.mk.inj (Except.ok.inj h)
      exact ⟨hmake, hresolve⟩

theorem isDirectory_openIn (h : openIn files cwd base runId = .ok (j, opened)) :
    opened.isDirectory j.place = true := by
  obtain ⟨hmake, hresolve⟩ := makeDirs?_openIn h
  obtain ⟨hslash, hlength⟩ := Uuid.render_spec runId
  have hname : ∀ s : String, s.toList.length ≠ 36 → runId.render ≠ s := by
    rintro s hs rfl
    exact hs hlength
  obtain ⟨front, hnames⟩ :=
    Path.names_join base hslash (hname "" (by decide)) (hname "." (by decide))
  exact FileTree.isDirectory_of_makeDirs? hnames (hname ".." (by decide)) hmake hresolve

/-- **A journal whose file is still to come holds no events.** -/
theorem holds_openIn (h : openIn files cwd base runId = .ok (j, opened))
    (hfresh : opened.entry? j.eventsPlace = none) : j.Holds opened [] := by
  have hcontent : j.content opened = [] := by simp [content, FileTree.read?, hfresh]
  exact ⟨isDirectory_openIn h, by simp [FileTree.isDirectory, hfresh], .inl hcontent,
    by rw [lines, hcontent]; rfl⟩

/-- **The events of a journal are those that were added to it**, in order and whatever their texts
are, also where blank lines were written before, between and after them. Each event is added as one
line that is its text, after the bytes that were there, and nothing else changes. -/
theorem replay_writeAll (hopen : openIn files cwd base runId = .ok (j, opened))
    (hfresh : opened.entry? j.eventsPlace = none) {entries : List Entry}
    (hentries : ∀ entry ∈ entries, entry.Writable) :
    ∃ last, j.writeAll opened entries = .ok last ∧
      j.replay last = .ok (entries.filterMap Entry.event?) ∧
      ∀ before e after, entries = before ++ .event e :: after →
        ∃ s s', j.writeAll opened before = .ok s ∧ j.append e s = .ok s' ∧
          j.writeAll s' after = .ok last ∧
          j.content s' = j.content s ++ bytes (lineOf e) ∧
          j.lines s' = j.lines s ++ [bytes e.toJson.compact] ∧
          ∀ place, place ≠ j.eventsPlace → s'.entry? place = s.entry? place := by
  have hopened : j.Holds opened [] := holds_openIn hopen hfresh
  obtain ⟨last, hlast, hholds⟩ := hopened.writeAll hentries
  refine ⟨last, hlast, ?_, ?_⟩
  · rw [replay_eq_eventsOfLines hholds.file, hholds.events]
    rfl
  · rintro before e after rfl
    obtain ⟨hbefore, he, hafter⟩ := by
      simpa only [List.forall_mem_append, List.forall_mem_cons] using hentries
    obtain ⟨s, hs, hholds⟩ := hopened.writeAll hbefore
    obtain ⟨s', hs', hline, -⟩ := hholds.write he
    refine ⟨s, s', hs, hs', ?_, hline.content, ?_, hline.elsewhere⟩
    · calc j.writeAll s' after
          = j.writeAll s (.event e :: after) := (writeAll_cons hs').symm
        _ = j.writeAll opened (before ++ .event e :: after) := (writeAll_append hs).symm
        _ = .ok last := hlast
    · rw [hline.lines, Entry.line, Entry.withoutReturn_compact he]

/-- An event with texts that hold quotes, backslashes, line breaks, control characters and
characters beyond ASCII. -/
def harshEvent : Event where
  id := .ofNat 0
  timestamp := ⟨253402300799, 999999999⟩
  runId := ⟨.allOnes 128⟩
  stage := some "\n\r\n"
  stageIndex := some 3
  kind := .stageFailed
  summary := "\"\\\"\u0000\u001f\u2028ü€😀"
  log := some
    { stage := "\x7b\"status\": 0\x7d", section_ := "", status := -2147483648, stdout := "\\n\n",
      stderr := "\\", extra := Dict.empty.insert "\r" "\u0085",
      startedAt := some ⟨-62167219200, 1⟩, finishedAt := none, durationMs := some 0 }
  definitionHash := none

theorem replay_writeAll_harshEvent : ∃ j opened last,
    openIn .empty [] "/runs" (.ofNat 7) = .ok (j, opened) ∧
    j.writeAll opened [.event harshEvent, .blank "\t\r", .blank "", .event harshEvent] = .ok last ∧
    j.replay last = .ok [harshEvent, harshEvent] := by
  have hfresh : (match openIn .empty [] "/runs" (.ofNat 7) with
      | .ok (j, opened) => Option.isNone ( opened.entry? j.eventsPlace)
      | .error _ => false) = true := by decide +kernel
  have he : harshEvent.Writable := by
    refine ⟨by decide +kernel, by simp [harshEvent, Word.count64], ?_⟩
    rintro l ⟨⟩
    refine ⟨by decide, ?_, by simp, by simp [Word.count64]⟩
    rintro t ⟨⟩
    decide +kernel
  have hentries : ∀ entry ∈ [Entry.event harshEvent, .blank "\t\r", .blank "", .event harshEvent],
      entry.Writable := by
    simp only [List.forall_mem_cons]
    exact ⟨he, ⟨by decide, by decide⟩, ⟨by decide, by decide⟩, he, by simp⟩
  split at hfresh
  next j opened hopen =>
    obtain ⟨last, hlast, hevents, -⟩ :=
      replay_writeAll hopen (Option.isNone_iff_eq_none.mp hfresh) hentries
    exact ⟨j, opened, last, hopen, hlast, hevents⟩
  next => cases hfresh

end Qualification.Journal
