import Qualification.Proofs.Json.Record
import Qualification.Proofs.Json.RoundTrip
import Qualification.Proofs.Time.Text
import Qualification.Proofs.Uuid
import Qualification.Run.Event
/-!
# Events and their text

Logs and events are read from the JSON values that they are written as, and these values are plain.

* `Log.Writable`, `Event.Writable`: what can be written, which is what fits the words of a machine
  and the years of the calendar;
* **`Log.ofJson?_toJson`**, **`Event.ofJson?_toJson`**: what is read is what was written;
* **`Event.parse?_compact`**: an event is read from its text.
-/

namespace Qualification

/-! ## What can be written -/

/-- Whether the numbers of a log are those of their words, and its instants have a text. -/
structure Log.Writable (l : Log) : Prop where
  status : Word.isInt32 l.status = true
  startedAt : ∀ t ∈ l.startedAt, t.Proper
  finishedAt : ∀ t ∈ l.finishedAt, t.Proper
  durationMs : ∀ n ∈ l.durationMs, n < Word.count64

/-- Whether the numbers of an event are those of their words, and its instants have a text. -/
structure Event.Writable (e : Event) : Prop where
  timestamp : e.timestamp.Proper
  stageIndex : ∀ n ∈ e.stageIndex, n < Word.count64
  log : ∀ l ∈ e.log, l.Writable

namespace Json

theorem plain_ofOption {α : Type} {write : α → Json} {o : Option α}
    (h : ∀ a ∈ o, (write a).Plain) : (ofOption write o).Plain := by
  cases o with
  | none => trivial
  | some a => exact h a rfl

theorem plain_ofNat {n : Nat} (h : n < Word.count64) : (ofNat n).Plain := by
  simp only [ofNat, Plain, InWords]
  omega

theorem plain_ofDict (d : Dict String) : (ofDict d).Plain := by
  have hfields : ∀ es : List (String × String), PlainFields (es.map fun e => (e.1, text e.2)) := by
    intro es
    induction es with
    | nil => trivial
    | cons e es ih => exact ⟨trivial, ih⟩
  exact hfields d.toList

theorem asInstant?_ofInstant {t : Instant} (h : t.Proper) : (ofInstant t).asInstant? = some t := by
  rw [asInstant?, ofInstant, asText?, Option.bind_some, Instant.parse?_render h]

theorem asUuid?_ofUuid (u : Uuid) : (ofUuid u).asUuid? = some u := by
  rw [asUuid?, ofUuid, asText?, Option.bind_some, Uuid.parse?_render u]

end Json

theorem EventKind.ofLabel?_label (k : EventKind) : ofLabel? k.label = some k := by
  cases k <;> decide

open Json

/-! ## Logs -/

/-- **A log is read as it was written.** -/
theorem Log.ofJson?_toJson {l : Log} (h : l.Writable) : ofJson? l.toJson = some l := by
  obtain ⟨r, hr, hget⟩ := record?_of_asObject? (j := l.toJson) rfl (by simp) ["stage", "section",
    "status", "stdout", "stderr", "extra", "started_at", "finished_at", "duration_ms"]
  have hstarted : (ofOption ofInstant l.startedAt).asOption? asInstant? = some l.startedAt :=
    asOption?_ofOption fun t ht => ⟨by simp [ofInstant], asInstant?_ofInstant (h.startedAt t ht)⟩
  have hfinished : (ofOption ofInstant l.finishedAt).asOption? asInstant? = some l.finishedAt :=
    asOption?_ofOption fun t ht => ⟨by simp [ofInstant], asInstant?_ofInstant (h.finishedAt t ht)⟩
  have hduration : (ofOption ofNat l.durationMs).asOption? asNat? = some l.durationMs :=
    asOption?_ofOption fun n hn => ⟨by simp [ofNat], asNat?_ofNat (h.durationMs n hn)⟩
  simp only [List.forall_mem_cons] at hget
  rw [ofJson?, hr]
  simp [Record.required, Record.withDefault, Record.optional, hget, List.lookup_cons, asText?,
    hstarted, hfinished, hduration, asInt32?_int h.status, asDict?_ofDict]

/-- The JSON value of a log is plain. -/
theorem Log.plain_toJson {l : Log} (h : l.Writable) : l.toJson.Plain := by
  have hstatus : (int l.status).Plain := by
    have hword := h.status
    simp only [Word.isInt32, Bool.and_eq_true, decide_eq_true_eq, Word.half32] at hword
    simp only [Plain, InWords, Word.half64, Word.count64]
    omega
  have hstarted : (ofOption ofInstant l.startedAt).Plain := plain_ofOption fun _ _ => trivial
  have hfinished : (ofOption ofInstant l.finishedAt).Plain := plain_ofOption fun _ _ => trivial
  have hduration : (ofOption ofNat l.durationMs).Plain :=
    plain_ofOption fun n hn => plain_ofNat (h.durationMs n hn)
  exact ⟨trivial, trivial, hstatus, trivial, trivial, plain_ofDict l.extra, hstarted, hfinished,
    hduration, trivial⟩

/-! ## Events -/

/-- **An event is read as it was written.** -/
theorem Event.ofJson?_toJson {e : Event} (h : e.Writable) : ofJson? e.toJson = some e := by
  have hstage : (ofOption text e.stage).asOption? asText? = some e.stage :=
    asOption?_ofOption fun s _ => ⟨by simp, rfl⟩
  have hindex : (ofOption ofNat e.stageIndex).asOption? asNat? = some e.stageIndex :=
    asOption?_ofOption fun n hn => ⟨by simp [ofNat], asNat?_ofNat (h.stageIndex n hn)⟩
  have hlog : (ofOption Log.toJson e.log).asOption? Log.ofJson? = some e.log :=
    asOption?_ofOption fun l hl => ⟨by simp [Log.toJson], Log.ofJson?_toJson (h.log l hl)⟩
  have hkind : EventKind.ofJson? (.text e.kind.label) = some e.kind := e.kind.ofLabel?_label
  obtain ⟨r, hr, hget⟩ := record?_of_asObject? (j := e.toJson) rfl
    (by cases e.definitionHash <;> simp) ["id", "timestamp", "run_id", "stage", "stage_index",
      "event_type", "summary", "log", "definition_hash"]
  have hdigest : r.withDefault "definition_hash" none (asOption? asText?) =
      some e.definitionHash := by
    rw [Record.withDefault, (hget "definition_hash" (by simp)).1]
    cases e.definitionHash with
    | none => simp [List.lookup_cons]
    | some digest => simp [List.lookup_cons, asOption?, asText?]
  simp only [List.forall_mem_cons] at hget
  rw [ofJson?, hr]
  simp [Record.required, Record.optional, hget, List.lookup_cons, asText?, hstage, hindex, hlog,
    hkind, hdigest, asUuid?_ofUuid, asInstant?_ofInstant h.timestamp]

/-- The JSON value of an event is plain. -/
theorem Event.plain_toJson {e : Event} (h : e.Writable) : e.toJson.Plain := by
  have hstage : (ofOption text e.stage).Plain := plain_ofOption fun _ _ => trivial
  have hindex : (ofOption ofNat e.stageIndex).Plain :=
    plain_ofOption fun n hn => plain_ofNat (h.stageIndex n hn)
  have hlog : (ofOption Log.toJson e.log).Plain :=
    plain_ofOption fun l hl => Log.plain_toJson (h.log l hl)
  rw [toJson]
  cases e.definitionHash with
  | none => exact ⟨trivial, trivial, trivial, hstage, hindex, trivial, trivial, hlog, trivial⟩
  | some digest =>
    exact ⟨trivial, trivial, trivial, hstage, hindex, trivial, trivial, hlog, trivial, trivial⟩

/-- **An event is read from its text.** -/
theorem Event.parse?_compact {e : Event} (h : e.Writable) :
    (parse? e.toJson.compact).bind ofJson? = some e := by
  rw [Json.parse?_compact (plain_toJson h), Option.bind_some, ofJson?_toJson h]

end Qualification
