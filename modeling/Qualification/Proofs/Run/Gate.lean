import Mathlib.Logic.Relation
import Qualification.Proofs.Run.Failure
/-!
# Parents over whole runs

A section whose parent is missing or failed is held back, and its own log then holds back others. So
what stands behind an invoked section has run and succeeded.

* `heldBack?_eq_none_iff`, `status_of_heldBack`: when a section is held back, and its status then;
* `Attended.Succeeded`, `succeeded_attend`: a plugin that came to its end with success;
* `attend_of_append`: a visited section finds the logs of those before it;
* `Follows`, `Inherits`: how a section may stand to those before it;
* `gated_of_append`: the gate of a visited section;
* `succeeded_of_follows`, `status_of_inherits`: one step back to a parent, and the chains of them;
* **`gated_run`**: parents gate sections over whole runs.
-/

namespace Qualification

/-! ## The gate -/

section HeldBack

variable {stage title parent : String} {values : Dict String} {logs : List Log}

/-- A section with a parent is not held back exactly if logs are related to the parent and all of
them are successes. -/
theorem heldBack?_eq_none_iff (h : parentOf? values = some parent) :
    heldBack? stage title values logs = none ↔
      relatedLogs parent logs ≠ [] ∧ ∀ l ∈ relatedLogs parent logs, l.status = 0 := by
  simp only [heldBack?, h]
  cases hrelated : relatedLogs parent logs with
  | nil => simp
  | cons l ls => simp [Log.succeeded]

/-- What is held back has the status of the first failure of its parent, or that of a section that
was left out. -/
theorem status_of_heldBack (h : parentOf? values = some parent) {log : Log}
    (hheld : heldBack? stage title values logs = some log) :
    log.status = (((relatedLogs parent logs).find? fun l => l.status != 0).map Log.status).getD
      skippedStatus := by
  simp only [heldBack?, h] at hheld
  split at hheld
  next hempty =>
    cases hheld
    rw [List.isEmpty_iff.mp hempty]
    rfl
  next =>
    obtain ⟨failed, hfailed, rfl⟩ := Option.map_eq_some_iff.mp hheld
    have hfind : (relatedLogs parent logs).find? (fun l => l.status != 0) = some failed := hfailed
    rw [hfind]
    rfl

/-- A section that is held back has failed. -/
theorem status_ne_zero_of_heldBack {log : Log}
    (hheld : heldBack? stage title values logs = some log) : log.status ≠ 0 := by
  cases hparent : parentOf? values with
  | none => simp [heldBack?, hparent] at hheld
  | some parent =>
    rw [status_of_heldBack hparent hheld]
    cases hfind : (relatedLogs parent logs).find? fun l => l.status != 0 with
    | none => simp [skippedStatus]
    | some failed => simpa using List.find?_some hfind

end HeldBack

variable {σ ρ : Type}

/-! ## Plugins that succeed -/

theorem dispatch_of_not_invoked {r : Registry σ} {unit : Registered σ} {values : Dict String}
    (h : r.invoked? unit values = none) (c : Context σ) (limits : Limits) (title : String)
    (w : World σ) : (dispatch r c limits unit title values w).1.status = 1 := by
  unfold Registry.invoked? at h
  cases hselected : selectedPlugin? unit.key values with
  | none => simp [hselected] at h
  | some plugin =>
    rw [hselected] at h
    rw [dispatch_of_missing c limits title w hselected h]
    rfl

/-- Whether an instance, invoked for a section of a stage, comes to its end without an error and
with status 0. -/
def Instance.Succeeds (inst : Instance σ) (c : Context σ) (limits : Limits) (stage title : String)
    (values : Dict String) : Prop :=
  ∃ (template log : Log) (w w' : World σ), template.IsOf stage title ∧
    withLimit (limits.stageTimeout inst.plugin.timeout)
      (inst.plugin.execute inst.id c.services template
        (Context.resolveFor title inst.plugin.options values).1) w = (.done (log, .ok ()), w') ∧
    log.status = 0

/-- A log with status 0 is what a plugin left that came to its end. -/
theorem succeeds_of_executeStage {c : Context σ} {limits : Limits} {stage title : String}
    {inst : Instance σ} {values : Dict String} {w : World σ}
    (h : (executeStage c limits stage title inst values w).1.status = 0) :
    inst.Succeeds c limits stage title values := by
  unfold executeStage at h
  dsimp only at h
  generalize hout : withLimit _ _ _ = out at h
  obtain ⟨ending, w'⟩ := out
  cases ending with
  | done a =>
    obtain ⟨log, result⟩ := a
    cases result with
    | ok => exact ⟨_, log, _, w', ⟨rfl, rfl⟩, hout, h⟩
    | error fault => simp [Ending.log, Log.fail, faultStatus] at h
  | panicked payload => simp [Ending.log, Log.fail, faultStatus] at h
  | cut => simp [Ending.log, Log.fail, timeoutStatus] at h

/-- Whether a visited section invoked a plugin that succeeded. -/
def Attended.Succeeded (p : Pipeline σ ρ) (x : Attended σ) : Prop :=
  x.manner = .invoked ∧
    ∃ inst, p.registry.invoked? x.visit.unit x.visit.sect.values = some inst ∧
      inst.Succeeds p.context p.policy.limits x.visit.key x.visit.title x.visit.sect.values

namespace Pipeline

variable {p : Pipeline σ ρ}

/-- How a visited section was dealt with, and the log that came of it. -/
theorem attend_cases {v : Visit σ} {s s' : Stand σ} {x : Attended σ} (h : p.attend v s = (x, s')) :
    x.manner = .expired ∨
    (x.manner = .heldBack ∧ v.heldBack? s.logs = some x.log) ∨
    (x.manner = .invoked ∧ v.heldBack? s.logs = none ∧ ∃ w, x.log =
      (dispatch p.registry p.context p.policy.limits v.unit v.title v.sect.values w).1) := by
  obtain rfl : (p.attend v s).1 = x := by rw [h]
  let s₁ : Stand σ := { s with world := (p.startEvent v.key v.index v.title s.world).2 }
  have hmanner : (p.attend v s).1.manner = (p.deal v s₁).1 := rfl
  have hlog : (p.attend v s).1.log = (p.deal v s₁).2.1 := rfl
  rw [hmanner, hlog]
  rcases p.deal_cases v s₁ with ⟨_, hviolation⟩ | ⟨hnone, log, hheld⟩ | ⟨hnone, hclear⟩
  · rw [deal_of_expired hviolation]
    exact .inl rfl
  · rw [deal_of_heldBack hnone hheld]
    exact .inr (.inl ⟨rfl, hheld⟩)
  · rw [deal_of_clear hnone hclear]
    exact .inr (.inr ⟨rfl, hclear, _, rfl⟩)

/-- **A log with status 0 comes from a plugin that succeeded.** -/
theorem succeeded_attend {v : Visit σ} {s s' : Stand σ} {x : Attended σ}
    (h : p.attend v s = (x, s')) (hstatus : x.log.status = 0) : x.Succeeded p := by
  obtain rfl := visit_of_attend h
  rcases attend_cases h with hexpired | ⟨-, hheld⟩ | ⟨hinvoked, -, w, hlog⟩
  · rw [expired_attend h hexpired] at hstatus
    cases hstatus
  · exact absurd hstatus (status_ne_zero_of_heldBack hheld)
  · rw [hlog] at hstatus
    cases hinst : p.registry.invoked? x.visit.unit x.visit.sect.values with
    | none =>
      rw [dispatch_of_not_invoked hinst] at hstatus
      cases hstatus
    | some inst =>
      rw [(dispatch_of_invoked _ _ _ _ hinst).1] at hstatus
      exact ⟨hinvoked, inst, hinst, succeeds_of_executeStage hstatus⟩

/-- A visited section finds the logs of those that were visited before it. -/
theorem attend_of_append {route : List (Visit σ)} {s : Stand σ} {before after : List (Attended σ)}
    {x : Attended σ} (h : (p.walk route s).visited = before ++ x :: after) :
    ∃ s₁ s₂, p.attend x.visit s₁ = (x, s₂) ∧ s₁.logs = s.logs ++ before.map Attended.log := by
  obtain ⟨s₁, s₂, hbefore, hx⟩ := walk_before h
  have hlogs := p.logs_walk (before.map Attended.visit) s
  rw [hbefore] at hlogs
  exact ⟨s₁, s₂, hx, hlogs⟩

end Pipeline

/-! ## Parents -/

/-- The visited sections that a parent stands for: those with its title or else those of the stage
with its key. -/
def relatedTo (parent : String) (xs : List (Attended σ)) : List (Attended σ) :=
  let titled := xs.filter fun x => x.log.section_ == parent
  if titled.isEmpty then xs.filter fun x => x.log.stage == parent else titled

theorem mem_of_mem_relatedTo {parent : String} {xs : List (Attended σ)} {x : Attended σ}
    (h : x ∈ relatedTo parent xs) : x ∈ xs := by
  simp only [relatedTo] at h
  split at h
  · exact List.mem_of_mem_filter h
  · exact List.mem_of_mem_filter h

/-- The related logs are those of the sections that the parent stands for. -/
theorem map_log_relatedTo (parent : String) (xs : List (Attended σ)) :
    (relatedTo parent xs).map Attended.log = relatedLogs parent (xs.map Attended.log) := by
  simp only [relatedTo, relatedLogs, List.filter_map, List.isEmpty_map, Function.comp_def]
  split <;> rfl

/-- A parent that is the title of one section stands for that. -/
theorem relatedTo_of_filter_eq {parent : String} {xs : List (Attended σ)} {x : Attended σ}
    (h : xs.filter (fun y => y.log.section_ == parent) = [x]) : relatedTo parent xs = [x] := by
  simp [relatedTo, h]

/-- Of two visited sections, the second one is among those that the parent of the first one stood
for when that was visited. -/
def Follows (visited : List (Attended σ)) (x y : Attended σ) : Prop :=
  ∃ before after parent, visited = before ++ x :: after ∧
    parentOf? x.visit.sect.values = some parent ∧ y ∈ relatedTo parent before

/-- Of two visited sections, the parent of the second one is the title of the first one and of no
other one before it, and it comes in time. -/
def Inherits (visited : List (Attended σ)) (y x : Attended σ) : Prop :=
  ∃ before after parent, visited = before ++ x :: after ∧ x.manner ≠ .expired ∧
    parentOf? x.visit.sect.values = some parent ∧
    before.filter (fun z => z.log.section_ == parent) = [y]

namespace Pipeline

variable {p : Pipeline σ ρ} {w : World σ} {before after : List (Attended σ)} {x y : Attended σ}
  {parent : String}

/-- What a parent does to a section that comes in time: the plugin is invoked exactly if there are
related logs and all of them are successes, and else the section takes over the first failure. -/
def Gated (x : Attended σ) (related : List Log) : Prop :=
  (x.manner = .invoked ↔ related ≠ [] ∧ ∀ l ∈ related, l.status = 0) ∧
  (x.manner ≠ .invoked → x.manner = .heldBack ∧
    x.log.status = ((related.find? fun l => l.status != 0).map Log.status).getD skippedStatus)

/-- **Parents gate every section that comes in time.** -/
theorem gated_of_append (h : (p.journey w).visited = before ++ x :: after)
    (hparent : parentOf? x.visit.sect.values = some parent) (hintime : x.manner ≠ .expired) :
    Gated x (relatedLogs parent (before.map Attended.log)) := by
  obtain ⟨s₁, s₂, hx, hlogs⟩ := attend_of_append h
  have hlogs : s₁.logs = before.map Attended.log := hlogs
  have hclear : heldBack? x.visit.key x.visit.title x.visit.sect.values
        (before.map Attended.log) = none ↔ _ :=
    heldBack?_eq_none_iff hparent
  rcases attend_cases hx with hexpired | ⟨hheldBack, hheld⟩ | ⟨hinvoked, hnone, -⟩
  · exact absurd hexpired hintime
  · rw [hlogs] at hheld
    refine ⟨⟨fun hinvoked => ?_, fun hrelated => ?_⟩, fun _ => ⟨hheldBack, ?_⟩⟩
    · rw [hheldBack] at hinvoked
      cases hinvoked
    · rw [Visit.heldBack?, hclear.mpr hrelated] at hheld
      cases hheld
    · exact status_of_heldBack hparent hheld
  · rw [hlogs] at hnone
    exact ⟨⟨fun _ => hclear.mp hnone, fun _ => hinvoked⟩, fun h => absurd hinvoked h⟩

theorem succeeded_of_mem (h : x ∈ (p.journey w).visited) (hstatus : x.log.status = 0) :
    x.Succeeded p := by
  obtain ⟨v, -, s₁, s₂, hx⟩ := attend_of_mem_walk h
  exact succeeded_attend hx hstatus

/-- What stands behind an invoked section succeeded. -/
theorem succeeded_of_follows (h : Follows (p.journey w).visited x y)
    (hinvoked : x.manner = .invoked) : y.log.status = 0 ∧ y.Succeeded p := by
  obtain ⟨before, after, parent, hvisited, hparent, hy⟩ := h
  have hgate := gated_of_append hvisited hparent (by simp [hinvoked])
  have hlog : y.log ∈ relatedLogs parent (before.map Attended.log) := by
    rw [← map_log_relatedTo]
    exact List.mem_map_of_mem hy
  have hstatus : y.log.status = 0 := (hgate.1.mp hinvoked).2 _ hlog
  have hmem : y ∈ (p.journey w).visited := by
    rw [hvisited]
    exact List.mem_append_left _ (mem_of_mem_relatedTo hy)
  exact ⟨hstatus, succeeded_of_mem hmem hstatus⟩

/-- **All that stands behind an invoked section succeeded.** -/
theorem succeeded_of_transGen (hinvoked : x.manner = .invoked)
    (h : Relation.TransGen (Follows (p.journey w).visited) x y) :
    y.log.status = 0 ∧ y.Succeeded p := by
  induction h with
  | single h => exact succeeded_of_follows h hinvoked
  | tail _ h ih => exact succeeded_of_follows h ih.2.1

/-- A section takes over the failure of its only parent. -/
theorem status_of_inherits (h : Inherits (p.journey w).visited y x) (hfailed : y.log.status ≠ 0) :
    x.log.status = y.log.status := by
  obtain ⟨before, after, parent, hvisited, hintime, hparent, hy⟩ := h
  have hrelated : relatedLogs parent (before.map Attended.log) = [y.log] := by
    rw [← map_log_relatedTo, relatedTo_of_filter_eq hy, List.map_singleton]
  obtain ⟨hinvoked, hheld⟩ := gated_of_append hvisited hparent hintime
  rw [hrelated] at hinvoked hheld
  have hnot : x.manner ≠ .invoked := fun hx => hfailed (by simpa using hinvoked.mp hx)
  rw [(hheld hnot).2]
  simp [hfailed]

/-- **A failure is passed down a chain of parents.** -/
theorem status_of_reflTransGen (hfailed : y.log.status ≠ 0)
    (h : Relation.ReflTransGen (Inherits (p.journey w).visited) y x) :
    x.log.status = y.log.status := by
  induction h with
  | refl => rfl
  | tail _ h ih => rw [status_of_inherits h (by rwa [ih]), ih]

/-- **Parents gate sections over whole runs.** A section that comes in time and has a parent is
dealt with as the logs of that say. A log with status 0 comes from a plugin that was invoked and
succeeded; so do all logs that stand behind an invoked section, however far. A failure is passed
down a chain of sections of which each is the only parent of the next one. What plugins do for
sections that they are not invoked for has no part in it. -/
theorem gated_run (p : Pipeline σ ρ) (w : World σ) (journal : ρ) :
    let visited := (p.journey w).visited
    (p.run w journal).1.logs = visited.map Attended.log ∧
    (∀ before x after parent, visited = before ++ x :: after →
      parentOf? x.visit.sect.values = some parent → x.manner ≠ .expired →
      Gated x (relatedLogs parent (before.map Attended.log))) ∧
    (∀ x ∈ visited, x.log.status = 0 → x.Succeeded p) ∧
    (∀ x y, x.manner = .invoked → Relation.TransGen (Follows visited) x y →
      y.log.status = 0 ∧ y.Succeeded p) ∧
    (∀ y x, y.log.status ≠ 0 → Relation.ReflTransGen (Inherits visited) y x →
      x.log.status = y.log.status) ∧
    ∀ other, (p.elsewhere (p.journey w).invokes other).run w journal = p.run w journal := by
  intro visited
  exact ⟨p.logs_run w journal, fun _ _ _ _ hvisited hparent => gated_of_append hvisited hparent,
    fun _ => succeeded_of_mem, fun _ _ => succeeded_of_transGen,
    fun _ _ => status_of_reflTransGen, fun other => p.run_elsewhere other w journal⟩

/-! ## A run with parents -/

/-- Two stages that go on after a failure. The second section of the first stage fails; of those of
the second one, the first has a parent that succeeded, and each other one that before it. -/
def twoStages (recorder : Recorder ρ) : Pipeline Unit ρ where
  policy := ⟨"two stages", true, Limits.unlimited, none⟩
  registry :=
    let first := ((Registry.new Dict.empty).register "B" .stage (Plugin.failing "A:2")).registry
    (first.register "A" .stage (Plugin.failing "A:2")).registry
  context := ⟨Uuid.ofNat 1, Sections.ofList [("A:1", Dict.empty), ("A:2", Dict.empty),
    ("B:1", Dict.ofList [("parent", "A:1")]), ("B:2", Dict.ofList [("parent", " A:2 ")]),
    ("B:3", Dict.ofList [("parent", "B:2")]), ("B:4", Dict.ofList [("parent", "A")])],
    fun _ host => (⟨0, .ok ⟨0, "", "", false⟩⟩, host), none, none, Dict.empty, Dict.empty⟩
  recorder := recorder

/-- The third section of the second stage takes over a failure from the first stage, by way of the
second section; the fourth one waits for a whole stage. -/
theorem gated_run_twoStages :
    let p : Pipeline Unit Unit := twoStages fun _ _ => ()
    let w : World Unit := World.start () ⟨0, 0⟩ false
    let visited := (p.journey w).visited
    ∃ a₁ a₂ b₁ b₂ b₃ b₄, visited = [a₁, a₂, b₁, b₂, b₃, b₄] ∧
      visited.map (fun x => x.log.status) = [0, 4, 0, 4, 4, 4] ∧
      (p.run w ()).1.logs = visited.map Attended.log ∧
      Gated b₄ [a₁.log, a₂.log] ∧
      (Relation.TransGen (Follows visited) b₁ a₁ ∧ a₁.Succeeded p) ∧
      (Relation.ReflTransGen (Inherits visited) a₂ b₃ ∧ b₃.log.status = a₂.log.status) := by
  intro p w visited
  have hfound : ((twoStages fun _ _ => ()).journey (World.start () ⟨0, 0⟩ false)).visited.map
      (fun x => (parentOf? x.visit.sect.values, x.manner, x.log.stage, x.log.section_,
        x.log.status)) =
      [(none, .invoked, "A", "A:1", 0), (none, .invoked, "A", "A:2", 4),
        (some "A:1", .invoked, "B", "B:1", 0), (some "A:2", .heldBack, "B", "B:2", 4),
        (some "B:2", .heldBack, "B", "B:3", 4), (some "A", .heldBack, "B", "B:4", 4)] := by
    decide +kernel
  obtain ⟨hlogs, hgated, -, hsucceeded, hinherited, -⟩ := p.gated_run w ()
  change visited.map _ = _ at hfound
  obtain ⟨xs, hvisited⟩ : ∃ xs, visited = xs := ⟨_, rfl⟩
  rw [hvisited] at hfound
  simp only [List.map_eq_cons_iff, List.map_eq_nil_iff, Prod.mk.injEq] at hfound
  obtain ⟨a₁, _, rfl, ⟨-, -, hstage₁, htitle₁, ha₁⟩, a₂, _, rfl, ⟨-, -, hstage₂, htitle₂, ha₂⟩,
    b₁, _, rfl, ⟨hparent₁, hmanner₁, hstage₃, htitle₃, hb₁⟩,
    b₂, _, rfl, ⟨hparent₂, hmanner₂, hstage₄, htitle₄, hb₂⟩,
    b₃, _, rfl, ⟨hparent₃, hmanner₃, hstage₅, htitle₅, hb₃⟩,
    b₄, _, rfl, ⟨hparent₄, hmanner₄, -, -, hb₄⟩, rfl⟩ := hfound
  have hfollows : Follows visited b₁ a₁ :=
    ⟨[a₁, a₂], [b₂, b₃, b₄], "A:1", hvisited, hparent₁, by simp [relatedTo, htitle₁, htitle₂]⟩
  have hchain₂ : Inherits visited a₂ b₂ := ⟨[a₁, a₂, b₁], [b₃, b₄], "A:2", hvisited,
    by simp [hmanner₂], hparent₂, by simp [htitle₁, htitle₂, htitle₃]⟩
  have hchain₃ : Inherits visited b₂ b₃ := ⟨[a₁, a₂, b₁, b₂], [b₄], "B:2", hvisited,
    by simp [hmanner₃], hparent₃, by simp [htitle₁, htitle₂, htitle₃, htitle₄]⟩
  have hchain : Relation.ReflTransGen (Inherits visited) a₂ b₃ :=
    .tail (.single hchain₂) hchain₃
  have hgate := hgated [a₁, a₂, b₁, b₂, b₃] b₄ [] "A" hvisited hparent₄ (by simp [hmanner₄])
  have hrelated : relatedLogs "A" ([a₁, a₂, b₁, b₂, b₃].map Attended.log) = [a₁.log, a₂.log] := by
    simp [relatedLogs, htitle₁, htitle₂, htitle₃, htitle₄, htitle₅, hstage₁, hstage₂, hstage₃,
      hstage₄, hstage₅]
  refine ⟨a₁, a₂, b₁, b₂, b₃, b₄, hvisited, ?_, hlogs, ?_, ⟨?_, ?_⟩, hchain, ?_⟩
  · simp [hvisited, ha₁, ha₂, hb₁, hb₂, hb₃, hb₄]
  · rwa [hrelated] at hgate
  · exact .single hfollows
  · exact (hsucceeded b₁ a₁ hmanner₁ (.single hfollows)).2
  · exact hinherited a₂ b₃ (by simp [ha₂]) hchain

end Pipeline

end Qualification
