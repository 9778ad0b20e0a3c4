import Qualification.Proofs.Run.Position
/-!
# How runs end

The final state of a run, its logs and its exit code agree. A run is aborted exactly if its last
visited section ended it; where failures are not passed over that is the only failed section, and
where they are it came too late.

* `exitCode_eq_zero_iff`, `exitCode_bounds`, `exitCode_of_first`: exit codes of reports;
* `Lawful.aborted_iff`, `Lawful.aborts_iff`, `Lawful.goesOn`: which section ends a walk;
* `Pipeline.Consistent`: what holds of a run that ended;
* `abortedAt_run`, `aborts_run`: when a run is aborted;
* **`consistent_run`**: it holds of every run;
* `Pipeline.lapsed`, `ending_of_relabelled`: what a plugin may write into the last log, and a limit
  that is over too late to end the run.
-/

namespace Qualification

variable {σ ρ : Type}

/-! ## Exit codes -/

namespace RunReport

variable {r : RunReport}

theorem exitCode_eq_zero_iff (r : RunReport) :
    r.exitCode = 0 ↔ ∀ log ∈ r.logs, log.status = 0 := by
  have hall : r.firstFailure? = none ↔ ∀ log ∈ r.logs, log.status = 0 := by
    simp [firstFailure?, Log.succeeded]
  unfold exitCode
  rw [← hall]
  cases r.firstFailure? with
  | none => simp
  | some log =>
    -- A failure's own status is taken from 1 on only.
    dsimp only
    split_ifs with hstatus
    · simpa using (Int.lt_of_lt_of_le Int.zero_lt_one hstatus.1).ne'
    · simp

theorem exitCode_bounds (r : RunReport) : 0 ≤ r.exitCode ∧ r.exitCode ≤ 255 := by
  unfold exitCode
  split
  · decide
  · split_ifs <;> omega

/-- The first failure's status is the exit code, if a process can end with it. -/
theorem exitCode_of_first {before after : List Log} {log : Log}
    (h : r.logs = before ++ log :: after) (hbefore : ∀ l ∈ before, l.status = 0)
    (hstatus : 1 ≤ log.status ∧ log.status ≤ 255) : r.exitCode = log.status := by
  have hfailed : (!log.succeeded) = true := by
    simpa [Log.succeeded] using (Int.lt_of_lt_of_le Int.zero_lt_one hstatus.1).ne'
  have hnone : before.find? (fun l => !l.succeeded) = none := by
    simpa [Log.succeeded] using hbefore
  have hfound : (log :: after).find? (fun l => !l.succeeded) = some log :=
    List.find?_cons_of_pos hfailed
  have hfirst : r.firstFailure? = some log := by
    rw [firstFailure?, h, List.find?_append, hnone, hfound, Option.none_or]
  simp only [exitCode, hfirst, hstatus, and_self, if_true]

end RunReport

/-! ## The section that ends a walk -/

/-- A run ends with a section that comes too late, or fails where failures are not passed over. -/
theorem Attended.ends_iff (policy : RunPolicy) (x : Attended σ) : x.ends policy = true ↔
    x.manner = .expired ∨ x.log.status ≠ 0 ∧ policy.continueOnFailure = false := by
  simp [ends, Log.succeeded]

theorem Outcome.state_eq_abortedAt_iff {o : Outcome} {index : Nat} {title : String} :
    o.state = .abortedAt index title ↔ o = .aborted index title := by
  cases o <;> simp [state]

theorem Outcome.state_cases (o : Outcome) :
    o.state = .completed ∨ ∃ index title, o.state = .abortedAt index title := by
  cases o with
  | through => exact .inl rfl
  | stopped title => exact .inl rfl
  | aborted index title => exact .inr ⟨index, title, rfl⟩

namespace Pipeline

namespace Lawful

variable {p : Pipeline σ ρ} {route : List (Visit σ)} {j : Journey σ} {x : Attended σ}

theorem aborted_iff (h : p.Lawful route j) (index : Nat) (title : String) :
    j.outcome = .aborted index title ↔ ∃ before x, j.visited = before ++ [x] ∧
      x.ends p.policy = true ∧ x.visit.index = index ∧ x.visit.title = title := by
  constructor
  · exact h.aborted index title
  · rintro ⟨before, x, hvisited, hends, rfl, rfl⟩
    exact (h.last before x [] hvisited hends).2

theorem aborts_iff (h : p.Lawful route j) :
    (∃ index title, j.outcome = .aborted index title) ↔
      ∃ x ∈ j.visited, x.ends p.policy = true := by
  constructor
  · rintro ⟨index, title, houtcome⟩
    obtain ⟨before, x, hvisited, hends, -⟩ := h.aborted index title houtcome
    exact ⟨x, by simp [hvisited], hends⟩
  · rintro ⟨x, hx, hends⟩
    obtain ⟨before, after, hvisited⟩ := List.append_of_mem hx
    exact ⟨_, _, (h.last before x after hvisited hends).2⟩

/-- No section but the last one ends a walk. -/
theorem goesOn (h : p.Lawful route j) (hx : x ∈ j.visited.dropLast) : x.ends p.policy = false := by
  obtain ⟨before, after, hdrop⟩ := List.append_of_mem hx
  have hne : j.visited ≠ [] := by
    intro hnil
    rw [hnil] at hx
    cases hx
  have hvisited : j.visited = before ++ x :: (after ++ [j.visited.getLast hne]) := by
    rw [← List.cons_append, ← List.append_assoc, ← hdrop, List.dropLast_append_getLast]
  by_contra hends
  have hnil := (h.last _ _ _ hvisited (Bool.eq_true_of_not_eq_false hends)).1
  exact absurd hnil (by simp)

end Lawful

/-! ## Runs that ended -/

/-- How the end of a run with a report agrees with its visited sections `xs`. -/
structure Consistent (p : Pipeline σ ρ) (w : World σ) (report : RunReport)
    (xs : List (Attended σ)) : Prop where
  logs : report.logs = xs.map Attended.log
  state : report.state = .completed ∨ ∃ index title, report.state = .abortedAt index title
  /-- The run is aborted if and where its last section ended it. -/
  aborted : ∀ index title, report.state = .abortedAt index title ↔
    ∃ before x, xs = before ++ [x] ∧
      (x.manner = .expired ∨ x.log.status ≠ 0 ∧ p.policy.continueOnFailure = false) ∧
      x.visit.index = index ∧ x.visit.title = title
  /-- That section has the stage and the title of the state, and its log tells a failure. -/
  last : ∀ index title, report.state = .abortedAt index title → ∃ before x, xs = before ++ [x] ∧
    x.log.status ≠ 0 ∧ p.registry.ordered[index]? = some x.visit.unit ∧ x.visit.title = title
  /-- A section comes too late exactly if the limit of the run is exceeded after the sections before
  it, and its log says so. -/
  expired : ∀ before x after, xs = before ++ x :: after → (x.manner = .expired ↔
    ∃ violation, p.violation? (p.walk (before.map Attended.visit) (p.outset w)).stand =
      some violation ∧
        x.log = (Log.new x.visit.key x.visit.title).fail timeoutStatus violation.message)
  notPassing : p.policy.continueOnFailure = false →
    (∀ log ∈ report.logs.dropLast, log.status = 0) ∧
    ((∃ index title, report.state = .abortedAt index title) ↔ ∃ log ∈ report.logs, log.status ≠ 0)
  passing : p.policy.continueOnFailure = true →
    ((∃ index title, report.state = .abortedAt index title) ↔ ∃ x ∈ xs, x.manner = .expired)
  exitCode : 0 ≤ report.exitCode ∧ report.exitCode ≤ 255
  exitCode_zero : report.exitCode = 0 ↔ ∀ log ∈ report.logs, log.status = 0
  exitCode_first : ∀ before log after, report.logs = before ++ log :: after →
    (∀ l ∈ before, l.status = 0) → 1 ≤ log.status ∧ log.status ≤ 255 →
      report.exitCode = log.status

variable {p : Pipeline σ ρ} {w : World σ} {x : Attended σ}

/-- A section comes too late exactly if it finds the limit of the run exceeded. -/
theorem expired_iff {v : Visit σ} {s s' : Stand σ} (h : p.attend v s = (x, s')) :
    x.manner = .expired ↔ ∃ violation, p.violation? s = some violation ∧
      x.log = (Log.new v.key v.title).fail timeoutStatus violation.message := by
  have hdeal : ∀ s, (p.deal v s).1 = .expired ↔ ∃ violation, p.violation? s = some violation ∧
      (p.deal v s).2.1 = (Log.new v.key v.title).fail timeoutStatus violation.message := by
    intro s
    rcases p.deal_cases v s with ⟨violation, h⟩ | ⟨h, _, hheld⟩ | ⟨h, hclear⟩
    · simp [deal_of_expired h, h]
    · simp [deal_of_heldBack h hheld, h]
    · simp [deal_of_clear h hclear, h]
  obtain rfl : (p.attend v s).1 = x := by rw [h]
  exact hdeal _

theorem expired_iff_of_journey {before after : List (Attended σ)}
    (h : (p.journey w).visited = before ++ x :: after) : x.manner = .expired ↔
      ∃ violation, p.violation? (p.walk (before.map Attended.visit) (p.outset w)).stand =
        some violation ∧
          x.log = (Log.new x.visit.key x.visit.title).fail timeoutStatus violation.message := by
  obtain ⟨s₁, s₂, hbefore, hx⟩ := walk_before h
  rw [hbefore]
  exact expired_iff hx

/-- A section that ends the run did not succeed. -/
theorem status_of_ends (h : x ∈ (p.journey w).visited) (hends : x.ends p.policy = true) :
    x.log.status ≠ 0 := by
  rcases (x.ends_iff p.policy).mp hends with hexpired | ⟨hstatus, -⟩
  · rw [expired_journey h hexpired]
    decide
  · exact hstatus

/-- Where failures are not passed over, a section ends the run exactly if it failed. -/
theorem ends_iff_of_notPassing (hpolicy : p.policy.continueOnFailure = false)
    (h : x ∈ (p.journey w).visited) : x.ends p.policy = true ↔ x.log.status ≠ 0 :=
  ⟨status_of_ends h, fun hstatus => (x.ends_iff p.policy).mpr (.inr ⟨hstatus, hpolicy⟩)⟩

/-- Where failures are passed over, a section ends the run exactly if it comes too late. -/
theorem ends_iff_of_passing (hpolicy : p.policy.continueOnFailure = true) (x : Attended σ) :
    x.ends p.policy = true ↔ x.manner = .expired := by
  simp [Attended.ends_iff, hpolicy]

/-! ## The end of a run -/

section Run

variable (p : Pipeline σ ρ) (w : World σ) (journal : ρ)

theorem state_run : (p.run w journal).1.state = (p.journey w).outcome.state := by
  rw [run_eq]

/-- A run is aborted by the last section that it visited. -/
theorem abortedAt_run (index : Nat) (title : String) :
    (p.run w journal).1.state = .abortedAt index title ↔ ∃ before x,
      (p.journey w).visited = before ++ [x] ∧ x.ends p.policy = true ∧
        x.visit.index = index ∧ x.visit.title = title := by
  rw [state_run, Outcome.state_eq_abortedAt_iff, (p.lawful_journey w).aborted_iff]

theorem aborts_run : (∃ index title, (p.run w journal).1.state = .abortedAt index title) ↔
    ∃ x ∈ (p.journey w).visited, x.ends p.policy = true := by
  simp only [state_run, Outcome.state_eq_abortedAt_iff]
  exact (p.lawful_journey w).aborts_iff

variable {p w journal}

/-- Where failures are not passed over, no log but the last one tells a failure. -/
theorem status_of_mem_dropLast (hpolicy : p.policy.continueOnFailure = false) {log : Log}
    (h : log ∈ (p.run w journal).1.logs.dropLast) : log.status = 0 := by
  rw [logs_run, ← List.map_dropLast] at h
  obtain ⟨x, hx, rfl⟩ := List.mem_map.mp h
  have hgoesOn := (p.lawful_journey w).goesOn hx
  by_contra hstatus
  rw [(ends_iff_of_notPassing hpolicy (List.dropLast_subset _ hx)).mpr hstatus] at hgoesOn
  cases hgoesOn

/-- Where failures are not passed over, a run is aborted exactly if there is one. -/
theorem aborts_iff_of_notPassing (hpolicy : p.policy.continueOnFailure = false) :
    (∃ index title, (p.run w journal).1.state = .abortedAt index title) ↔
      ∃ log ∈ (p.run w journal).1.logs, log.status ≠ 0 := by
  rw [aborts_run, logs_run]
  simp only [List.mem_map, exists_exists_and_eq_and]
  exact exists_congr fun x => and_congr_right (ends_iff_of_notPassing hpolicy)

/-- Where failures are passed over, a run is aborted exactly if its time is over. -/
theorem aborts_iff_of_passing (hpolicy : p.policy.continueOnFailure = true) :
    (∃ index title, (p.run w journal).1.state = .abortedAt index title) ↔
      ∃ x ∈ (p.journey w).visited, x.manner = .expired := by
  rw [aborts_run]
  simp only [ends_iff_of_passing hpolicy]

end Run

theorem consistent_journey (p : Pipeline σ ρ) (w : World σ) (journal : ρ) :
    p.Consistent w (p.run w journal).1 (p.journey w).visited := by
  refine {
    logs := p.logs_run w journal
    state := ?state
    aborted := ?aborted
    last := ?last
    expired := fun _ _ _ => expired_iff_of_journey
    notPassing := fun hpolicy =>
      ⟨fun log => status_of_mem_dropLast hpolicy, aborts_iff_of_notPassing hpolicy⟩
    passing := aborts_iff_of_passing
    exitCode := RunReport.exitCode_bounds _
    exitCode_zero := RunReport.exitCode_eq_zero_iff _
    exitCode_first := fun _ _ _ => RunReport.exitCode_of_first }
  case state =>
    rw [state_run]
    exact Outcome.state_cases _
  case aborted =>
    intro index title
    rw [abortedAt_run]
    simp only [Attended.ends_iff]
  case last =>
    intro index title hstate
    obtain ⟨before, x, hvisited, hends, rfl, htitle⟩ := (p.abortedAt_run w journal _ _).mp hstate
    have hx : x ∈ (p.journey w).visited := by simp [hvisited]
    exact ⟨before, x, hvisited, status_of_ends hx hends, ordered_journey hx, htitle⟩

/-- **State, logs and exit code of a run agree.** The run is completed, or it was aborted by the
last section that it visited, under whose index and title it says so. Where failures are not passed
over, at most the last log tells a failure, and the run is aborted exactly if it does; where they
are, it is aborted exactly if a section found its time over. The exit code is 0 exactly if no log
tells a failure, and else the status of the first one that does, if a process can end with that. The
last log of an aborted run is under the stage and the title of the state, if the plugin that wrote
it left these alone. -/
theorem consistent_run (p : Pipeline σ ρ) (w : World σ) (journal : ρ) :
    let report := (p.run w journal).1
    p.Consistent w report (p.journey w).visited ∧
    ∀ index title, report.state = .abortedAt index title →
      ∀ x, (p.journey w).visited.getLast? = some x → x.KeepsLabels p.registry →
        report.logs.getLast? = some x.log ∧ x.log.section_ = title ∧
          p.registry.ordered[index]?.map Registered.key = some x.log.stage := by
  intro report
  refine ⟨p.consistent_journey w journal, fun index title hstate x hlast hkeeps => ?_⟩
  obtain ⟨before, y, hvisited, -, hunit, htitle⟩ :=
    (p.consistent_journey w journal).last index title hstate
  have hyx : y = x := by simpa [hvisited] using hlast
  subst hyx
  have hlabels := labelled_journey (List.mem_of_getLast? hlast) hkeeps
  refine ⟨?_, hlabels.title.trans htitle, ?_⟩
  · rw [p.logs_run w journal, List.getLast?_map, hlast, Option.map_some]
  · rw [hunit, hlabels.stage]
    rfl

/-- The run is aborted in its only stage, which the last log is under. -/
theorem consistent_run_fourSections :
    let p : Pipeline Unit Unit := fourSections fun _ _ => ()
    let w : World Unit := World.start () ⟨0, 0⟩ false
    let report := (p.run w ()).1
    report.state = .abortedAt 0 "A:3" ∧ p.Consistent w report (p.journey w).visited ∧
    ∃ x, (p.journey w).visited.getLast? = some x ∧ x.KeepsLabels p.registry ∧
      report.logs.getLast? = some x.log ∧ x.log.section_ = "A:3" ∧ x.log.stage = "A" := by
  intro p w report
  have hp : p.registry.KeepsLabels :=
    (Registry.Every.new _).register _ _ (Plugin.keepsLabels_failing _)
  have hkeys : p.registry.ordered[0]?.map Registered.key = some "A" := by decide +kernel
  have hstate : report.state = .abortedAt 0 "A:3" := by decide +kernel
  obtain ⟨hconsistent, hlabels⟩ := p.consistent_run w ()
  obtain ⟨before, x, hvisited, -⟩ := hconsistent.last 0 "A:3" hstate
  have hlast : (p.journey w).visited.getLast? = some x := by rw [hvisited, List.getLast?_concat]
  have hkeeps := keepsLabels_journey hp (List.mem_of_getLast? hlast)
  obtain ⟨hlog, htitle, hstage⟩ := hlabels 0 "A:3" hstate x hlast hkeeps
  exact ⟨hstate, hconsistent, x, hlast, hkeeps, hlog, htitle,
    (Option.some.inj (hkeys.symm.trans hstage)).symm⟩

/-- A stage that works for two seconds, in a run with a limit of one second in which failures are
passed over. -/
def lapsed : Pipeline Unit Unit where
  policy := ⟨"lapsed", true, ⟨none, some 1⟩, none⟩
  registry := ((Registry.new Dict.empty).register "A" .stage (Plugin.slow 2000)).registry
  context := ⟨Uuid.ofNat 1, Sections.empty, fun _ host => (⟨0, .ok ⟨0, "", "", false⟩⟩, host),
    none, none, Dict.empty, Dict.empty⟩
  recorder := fun _ _ => ()

/-- The log of the section that ended a run may be under another stage and another title than the
state; and a limit that is over only at the end of the last section does not end a run. -/
theorem ending_of_relabelled :
    let p : Pipeline Unit Unit := relabelled fun _ _ => ()
    let report := (p.run (World.start () ⟨0, 0⟩ false) ()).1
    let (report', g) := lapsed.run (World.start () ⟨0, 0⟩ true) ()
    (report.state = .abortedAt 0 "A" ∧ p.registry.ordered.map Registered.key = ["A"] ∧
      report.logs.map (fun log => (log.stage, log.section_)) = [("B", "B:1")]) ∧
    lapsed.policy.continueOnFailure = true ∧ report'.state = .completed ∧
      lapsed.policy.limits.check (g.tracker.elapsedSeconds g.world.wallMillis) =
        some (.runTimeout 2 1) := by
  decide +kernel

/-- One failure, which ends the run or is passed over. -/
example :
    let p : Pipeline Unit Unit := fourSections fun _ _ => ()
    let ending := ((p.passing false).run (World.start () ⟨0, 0⟩ false) ()).1
    let going := ((p.passing true).run (World.start () ⟨0, 0⟩ false) ()).1
    ending.state = .abortedAt 0 "A:3" ∧ ending.exitCode = 4 ∧
      going.state = .completed ∧ going.exitCode = 4 := by
  decide +kernel

end Pipeline

end Qualification
