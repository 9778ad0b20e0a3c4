import Qualification.Proofs.Run.Visited
/-!
# Runs with and without failures passed over

Two runs of one pipeline, of which one ends with the first failure and the other one goes on. Up to
the first failure they are one run.

* `throughFirst`: a list up to its first element of a class;
* `Pipeline.passing`: the pipeline with failures passed over, or not;
* `Attended.execution?`, `executions`: the plugins that visited sections invoke;
* `walk_passing`: the two walks along one route;
* **`run_passing`**: the logs of the run that ends early are those of the other one, cut after the
  first failure, and both runs give the same exit code.
-/

namespace Qualification

/-! ## Lists up to the first element of a class -/

section ThroughFirst

variable {α β : Type} {c : α → Bool}

/-- A list up to its first element of a class and with that; the whole list if there is none. -/
def throughFirst (c : α → Bool) (l : List α) : List α := l.take (l.findIdx c + 1)

theorem throughFirst_cons_of_pos {a : α} (h : c a = true) (l : List α) :
    throughFirst c (a :: l) = [a] := by
  simp [throughFirst, List.findIdx_cons, h]

theorem throughFirst_cons_of_neg {a : α} (h : c a = false) (l : List α) :
    throughFirst c (a :: l) = a :: throughFirst c l := by
  simp [throughFirst, List.findIdx_cons, h]

theorem throughFirst_map (f : β → α) (l : List β) :
    throughFirst c (l.map f) = (throughFirst (c ∘ f) l).map f := by
  simp [throughFirst, List.findIdx_map, List.map_take]

theorem throughFirst_isPrefix (l : List α) : throughFirst c l <+: l := List.take_prefix _ _

/-- The first element of the class stays the first one. -/
theorem find?_throughFirst (l : List α) : (throughFirst c l).find? c = l.find? c := by
  induction l with
  | nil => rfl
  | cons a l ih =>
    cases h : c a with
    | true => rw [throughFirst_cons_of_pos h, List.find?_cons_of_pos h, List.find?_cons_of_pos h]
    | false =>
      have hneg : ¬ c a = true := by simp [h]
      rw [throughFirst_cons_of_neg h, List.find?_cons_of_neg hneg, List.find?_cons_of_neg hneg, ih]

end ThroughFirst

variable {σ ρ : Type}

/-! ## The two runs -/

namespace Attended

/-- Whether the section failed. -/
def failed (x : Attended σ) : Bool := !x.log.succeeded

/-- The plugin that the section invoked, if it invoked one that is there. -/
def execution? (r : Registry σ) (x : Attended σ) : Option (Visit σ × Instance σ) :=
  if x.manner = .invoked then
    (r.invoked? x.visit.unit x.visit.sect.values).map fun inst => (x.visit, inst)
  else none

end Attended

/-- The plugins that visited sections invoked, in order. -/
def executions (r : Registry σ) (xs : List (Attended σ)) : List (Visit σ × Instance σ) :=
  xs.filterMap (Attended.execution? r)

namespace Pipeline

/-- The pipeline with failures passed over, or not. -/
def passing (p : Pipeline σ ρ) (goOn : Bool) : Pipeline σ ρ :=
  { p with policy := { p.policy with continueOnFailure := goOn } }

variable {p : Pipeline σ ρ} {x : Attended σ}

/-- A section that comes too late failed. -/
theorem failed_of_expired {v : Visit σ} {s s' : Stand σ} (h : p.attend v s = (x, s'))
    (hexpired : x.manner = .expired) : x.failed = true := by
  simp [Attended.failed, Log.succeeded, expired_attend h hexpired, timeoutStatus]

/-- Without failures passed over a section ends the run exactly if it failed. -/
theorem ends_of_not_passing {v : Visit σ} {s s' : Stand σ} (h : p.attend v s = (x, s')) :
    x.ends (p.passing false).policy = x.failed := by
  have hends : x.ends (p.passing false).policy = (x.manner == .expired || x.failed) := by
    simp [Attended.ends, Attended.failed, passing]
  rw [hends]
  cases hexpired : x.manner == .expired with
  | true => rw [failed_of_expired h (eq_of_beq hexpired), Bool.or_true]
  | false => exact Bool.false_or _

/-- With failures passed over a section that did not fail does not end the run. -/
theorem ends_of_passing {v : Visit σ} {s s' : Stand σ} (h : p.attend v s = (x, s'))
    (hfailed : x.failed = false) : x.ends (p.passing true).policy = false := by
  have hends : x.ends (p.passing true).policy = (x.manner == .expired) := by
    simp [Attended.ends, passing]
  rw [hends]
  cases hexpired : x.manner == .expired with
  | true =>
    rw [failed_of_expired h (eq_of_beq hexpired)] at hfailed
    cases hfailed
  | false => rfl

section Walk

variable {v : Visit σ} {s s' : Stand σ} (hstops : v.stops = false) (hx : p.attend v s = (x, s'))

include hstops hx

theorem visited_walk_cons (rest : List (Visit σ)) :
    ∃ more, (p.walk (v :: rest) s).visited = x :: more := by
  cases hends : x.ends p.policy with
  | true => exact ⟨[], by rw [walk_cons_of_ends hstops hx hends]⟩
  | false => exact ⟨_, by rw [walk_cons_of_onward hstops hx hends]⟩

theorem walk_singleton : (p.walk [v] s).visited = [x] ∧ (p.walk [v] s).stand = s' := by
  cases hends : x.ends p.policy with
  | true =>
    rw [walk_cons_of_ends hstops hx hends]
    exact ⟨rfl, rfl⟩
  | false =>
    rw [walk_cons_of_onward hstops hx hends]
    exact ⟨rfl, rfl⟩

end Walk

/-- **The walk that ends with the first failure** visits what the other one visits up to there, and
finds everything as the other one does after a first part of the route. -/
theorem walk_passing (p : Pipeline σ ρ) (route : List (Visit σ)) (s : Stand σ) :
    let ending := (p.passing false).walk route s
    ending.visited = throughFirst Attended.failed ((p.passing true).walk route s).visited ∧
    ∃ part, part <+: route ∧ ((p.passing true).walk part s).visited = ending.visited ∧
      ((p.passing true).walk part s).stand = ending.stand := by
  induction route generalizing s with
  | nil => exact ⟨rfl, [], List.nil_prefix, rfl, rfl⟩
  | cons v rest ih =>
    cases hstops : v.stops with
    | true =>
      rw [walk_cons_of_stops hstops, walk_cons_of_stops hstops]
      exact ⟨rfl, [], List.nil_prefix, rfl, rfl⟩
    | false =>
      -- Both walks visit the section alike; only whether they go on differs.
      rcases hx : p.attend v s with ⟨x, s'⟩
      have hattend : ∀ goOn, (p.passing goOn).attend v s = (x, s') := fun _ => hx
      cases hfailed : x.failed with
      | true =>
        have hends : x.ends (p.passing false).policy = true := by
          rw [ends_of_not_passing hx, hfailed]
        obtain ⟨more, hmore⟩ := visited_walk_cons hstops (hattend true) rest
        rw [walk_cons_of_ends hstops (hattend false) hends, hmore]
        exact ⟨(throughFirst_cons_of_pos hfailed more).symm, [v], by simp,
          walk_singleton hstops (hattend true)⟩
      | false =>
        have hends : x.ends (p.passing false).policy = false := by
          rw [ends_of_not_passing hx, hfailed]
        have hends' : x.ends (p.passing true).policy = false :=
          ends_of_passing hx hfailed
        obtain ⟨hvisited, part, hpart, hsame, hstand⟩ := ih s'
        rw [walk_cons_of_onward hstops (hattend false) hends,
          walk_cons_of_onward hstops (hattend true) hends']
        refine ⟨?_, v :: part, List.cons_prefix_cons.mpr ⟨rfl, hpart⟩, ?_, ?_⟩
        · rw [throughFirst_cons_of_neg hfailed, ← hvisited]
        · rw [walk_cons_of_onward hstops (hattend true) hends', hsame]
        · rw [walk_cons_of_onward hstops (hattend true) hends', hstand]

/-! ## The reports -/

theorem logs_run (p : Pipeline σ ρ) (w : World σ) (journal : ρ) :
    (p.run w journal).1.logs = (p.journey w).visited.map Attended.log := by
  have hlogs := p.logs_walk p.route (p.outset w)
  rw [run_eq]
  exact hlogs

/-- **A run that ends with the first failure is the run that passes over failures, up to there.** It
visits the same sections and leaves the same logs, it invokes the same plugins, and it finds
everything as the other run does then. Both runs have one exit code. What they visit is what they
have logs of, and they ask plugins for nothing else. -/
theorem run_passing (p : Pipeline σ ρ) (w : World σ) (journal journal' : ρ) :
    let ending := (p.passing false).run w journal
    let going := (p.passing true).run w journal'
    let visited := ((p.passing true).journey w).visited
    ending.1.logs = throughFirst (fun l => l.status != 0) going.1.logs ∧
    ((p.passing false).journey w).visited = throughFirst Attended.failed visited ∧
    executions p.registry ((p.passing false).journey w).visited =
      executions p.registry (throughFirst Attended.failed visited) ∧
    executions p.registry ((p.passing false).journey w).visited <+:
      executions p.registry visited ∧
    (∃ part, part <+: p.route ∧
      ((p.passing true).walk part (p.outset w)).visited = ((p.passing false).journey w).visited ∧
      ((p.passing true).walk part (p.outset w)).stand = ((p.passing false).journey w).stand) ∧
    ending.1.exitCode = going.1.exitCode ∧
    ∀ goOn, ((p.passing goOn).run w journal).1.logs =
        ((p.passing goOn).journey w).visited.map Attended.log ∧
      ∀ other, ((p.passing goOn).elsewhere ((p.passing goOn).journey w).invokes other).run w
        journal = (p.passing goOn).run w journal := by
  intro ending going visited
  obtain ⟨hvisited, hpart⟩ := p.walk_passing p.route (p.outset w)
  have hlogs : ending.1.logs = throughFirst (fun l => !l.succeeded) going.1.logs := by
    rw [logs_run, logs_run, throughFirst_map]
    exact congrArg (List.map Attended.log) hvisited
  have hfirst : ending.1.firstFailure? = going.1.firstFailure? := by
    rw [RunReport.firstFailure?, RunReport.firstFailure?, hlogs, find?_throughFirst]
  refine ⟨hlogs, hvisited, congrArg _ hvisited, ?_, hpart, ?_, fun goOn =>
    ⟨(p.passing goOn).logs_run w journal, fun other => (p.passing goOn).run_elsewhere other w journal⟩⟩
  · rw [show ((p.passing false).journey w).visited = _ from hvisited]
    exact (throughFirst_isPrefix visited).filterMap _
  · rw [RunReport.exitCode, RunReport.exitCode, hfirst]

/-- Two of three sections come before the end of a run that fails in the second one. -/
theorem run_passing_fourSections :
    let p : Pipeline Unit Unit := fourSections fun _ _ => ()
    let w : World Unit := World.start () ⟨0, 0⟩ false
    let ending := ((p.passing false).run w ()).1
    let going := ((p.passing true).run w ()).1
    ending.logs.map (fun l => l.status) = [0, 4] ∧ going.logs.map (fun l => l.status) = [0, 4, 0] ∧
    ending.logs = throughFirst (fun l => l.status != 0) going.logs ∧
    ending.exitCode = 4 ∧ ending.exitCode = going.exitCode := by
  intro p w ending going
  obtain ⟨hlogs, -, -, -, -, hcode, -⟩ := p.run_passing w () ()
  have hstatuses : ((((fourSections fun _ _ => ()).passing false).run
      (World.start () ⟨0, 0⟩ false) ()).1.logs.map fun l => l.status) = [0, 4] := by decide +kernel
  have hstatuses' : ((((fourSections fun _ _ => ()).passing true).run
      (World.start () ⟨0, 0⟩ false) ()).1.logs.map fun l => l.status) = [0, 4, 0] := by
    decide +kernel
  exact ⟨hstatuses, hstatuses', hlogs, by decide +kernel, hcode⟩

end Pipeline

end Qualification
