import Qualification.Proofs.Run.Invocation
import Qualification.Proofs.Run.Walk
/-!
# The visited sections

Which sections a run visits, why it visits no more, and what comes of those.

* `Pipeline.Lawful`, `lawful_walk`: the rule of a walk along its route;
* `logs_walk`, `isOf_journey`: a walk leaves one log for each visited section;
* `walk_before`: the walk up to a visited section;
* `Pipeline.mapPlugins`, `route_mapPlugins`: the route does not depend on what plugins do;
* `walk_elsewhere`, `run_elsewhere`: plugins are asked for nothing but the visited sections;
* **`run_walk`**: a run is its walk, with everything that the rule says of that.
-/

namespace Qualification

variable {σ ρ : Type}

/-- Whether a walk invoked a section of a stage. -/
def Journey.invokes (j : Journey σ) (stage title : String) : Bool :=
  j.visited.any fun x => x.manner == .invoked && x.visit.key == stage && x.visit.title == title

namespace Pipeline

/-- What the rule says of a walk along a route. -/
structure Lawful (p : Pipeline σ ρ) (route : List (Visit σ)) (j : Journey σ) : Prop where
  /-- The visited sections are the first ones of the route. -/
  first : j.visited.map Attended.visit <+: route
  /-- None of them stops the run. -/
  passed : ∀ x ∈ j.visited, x.visit.stops = false
  /-- Nothing is visited after a section that ends the run. -/
  last : ∀ before x after, j.visited = before ++ x :: after → x.ends p.policy = true →
    after = [] ∧ j.outcome = .aborted x.visit.index x.visit.title
  through : j.outcome = .through → j.visited.map Attended.visit = route
  stopped : ∀ title, j.outcome = .stopped title → ∃ v rest,
    route = j.visited.map Attended.visit ++ v :: rest ∧ v.stops = true ∧ v.title = title
  aborted : ∀ index title, j.outcome = .aborted index title → ∃ before x,
    j.visited = before ++ [x] ∧ x.ends p.policy = true ∧ x.visit.index = index ∧
      x.visit.title = title

variable (p : Pipeline σ ρ)

/-! ## One section -/

theorem visit_of_attend {p : Pipeline σ ρ} {v : Visit σ} {s s' : Stand σ} {x : Attended σ}
    (h : p.attend v s = (x, s')) : x.visit = v := by
  rw [show x = (p.attend v s).1 by rw [h]]
  rfl

theorem expired_attend {p : Pipeline σ ρ} {v : Visit σ} {s s' : Stand σ} {x : Attended σ}
    (h : p.attend v s = (x, s')) (hexpired : x.manner = .expired) :
    x.log.status = timeoutStatus := by
  have hdeal : ∀ s, (p.deal v s).1 = .expired → (p.deal v s).2.1.status = timeoutStatus := by
    intro s hs
    rcases p.deal_cases v s with ⟨_, h⟩ | ⟨h, _, hheld⟩ | ⟨h, hclear⟩
    · rw [deal_of_expired h]
      rfl
    · rw [deal_of_heldBack h hheld] at hs
      cases hs
    · rw [deal_of_clear h hclear] at hs
      cases hs
  rw [show x = (p.attend v s).1 by rw [h]] at hexpired ⊢
  exact hdeal _ hexpired

theorem isOf_deal {p : Pipeline σ ρ} {v : Visit σ} {s : Stand σ}
    (h : (p.deal v s).1 = .invoked → ∀ inst,
      p.registry.invoked? v.unit v.sect.values = some inst → inst.plugin.KeepsLabels) :
    (p.deal v s).2.1.IsOf v.key v.title := by
  rcases p.deal_cases v s with ⟨_, hviolation⟩ | ⟨hnone, _, hheld⟩ | ⟨hnone, hclear⟩
  · rw [deal_of_expired hviolation]
    exact (Log.isOf_new _ _).fail _ _
  · rw [deal_of_heldBack hnone hheld]
    exact isOf_heldBack hheld
  · rw [deal_of_clear hnone hclear] at h ⊢
    exact isOf_dispatch_of_invoked _ _ (h rfl) _ _

theorem isOf_attend {p : Pipeline σ ρ} (hp : p.registry.KeepsLabels) {v : Visit σ}
    (hv : v.unit.inst.plugin.KeepsLabels) (s : Stand σ) :
    (p.attend v s).1.log.IsOf v.key v.title :=
  isOf_deal fun _ _ hinst => hp.invoked hv hinst

/-! ## The rule -/

section Lawful

variable {v : Visit σ} {rest : List (Visit σ)} {s : Stand σ} {x : Attended σ}

theorem lawful_stop (hstops : v.stops = true) :
    p.Lawful (v :: rest) ⟨[], .stopped v.title, s⟩ where
  first := List.nil_prefix
  passed := by simp
  last := by simp
  through := by simp
  stopped := by
    intro title htitle
    cases htitle
    exact ⟨v, rest, rfl, hstops, rfl⟩
  aborted := by simp

theorem lawful_end (hstops : x.visit.stops = false) (hends : x.ends p.policy = true) :
    p.Lawful (x.visit :: rest) ⟨[x], .aborted x.visit.index x.visit.title, s⟩ where
  first := by simp
  passed := by simpa using hstops
  last := by
    intro before y after hy _
    cases before with
    | nil =>
      obtain ⟨rfl, rfl⟩ := List.cons.inj hy
      exact ⟨rfl, rfl⟩
    | cons z before => simp at hy
  through := by simp
  stopped := by simp
  aborted := by
    intro index title h
    cases h
    exact ⟨[], x, rfl, hends, rfl, rfl⟩

theorem Lawful.cons {j : Journey σ} (h : p.Lawful rest j) (hstops : x.visit.stops = false)
    (hends : x.ends p.policy = false) :
    p.Lawful (x.visit :: rest) ⟨x :: j.visited, j.outcome, j.stand⟩ where
  first := by simpa using h.first
  passed := List.forall_mem_cons.mpr ⟨hstops, h.passed⟩
  last := by
    intro before y after hy hyends
    cases before with
    | nil =>
      obtain ⟨rfl, -⟩ := List.cons.inj hy
      rw [hends] at hyends
      cases hyends
    | cons z before => exact h.last before y after (List.cons.inj hy).2 hyends
  through := fun hthrough => congrArg (x.visit :: ·) (h.through hthrough)
  stopped := by
    intro title htitle
    obtain ⟨u, after, hroute, hu⟩ := h.stopped title htitle
    exact ⟨u, after, congrArg (x.visit :: ·) hroute, hu⟩
  aborted := by
    intro index title haborted
    obtain ⟨before, y, hy, hrest⟩ := h.aborted index title haborted
    exact ⟨x :: before, y, congrArg (x :: ·) hy, hrest⟩

/-- **A walk keeps to the rule.** -/
theorem lawful_walk (route : List (Visit σ)) (s : Stand σ) : p.Lawful route (p.walk route s) := by
  induction route generalizing s with
  | nil => exact ⟨List.nil_prefix, by simp [walk], by simp [walk], fun _ => rfl, by simp [walk],
      by simp [walk]⟩
  | cons v rest ih =>
    rcases p.walk_cons v rest s with ⟨hstops, hwalk⟩ | ⟨x, s', hx, hstops, hwalk⟩
    · rw [hwalk]
      exact p.lawful_stop hstops
    · obtain rfl := visit_of_attend hx
      rcases hwalk with ⟨hends, hwalk⟩ | ⟨hends, hwalk⟩
      · rw [hwalk]
        exact p.lawful_end hstops hends
      · rw [hwalk]
        exact (ih s').cons p hstops hends

end Lawful

/-! ## The logs -/

/-- A walk leaves one log for each visited section, after those that were there. -/
theorem logs_walk (route : List (Visit σ)) (s : Stand σ) :
    (p.walk route s).stand.logs = s.logs ++ (p.walk route s).visited.map Attended.log := by
  induction route generalizing s with
  | nil => simp [walk]
  | cons v rest ih =>
    rcases p.walk_cons v rest s with ⟨-, hwalk⟩ | ⟨x, s', hx, -, hwalk⟩
    · simp [hwalk]
    · have hlogs : s'.logs = s.logs ++ [x.log] := by simpa [hx] using p.attend_logs v s
      rcases hwalk with ⟨-, hwalk⟩ | ⟨-, hwalk⟩
      · simp [hwalk, hlogs]
      · simp [hwalk, ih, hlogs]

/-- A walk up to one of the sections that it visits visits those before it, and that section finds
what is there then. -/
theorem walk_before {p : Pipeline σ ρ} {route : List (Visit σ)} {s : Stand σ}
    {before after : List (Attended σ)} {x : Attended σ}
    (h : (p.walk route s).visited = before ++ x :: after) :
    ∃ s₁ s₂, p.walk (before.map Attended.visit) s = ⟨before, .through, s₁⟩ ∧
      p.attend x.visit s₁ = (x, s₂) := by
  induction route generalizing s before with
  | nil => simp [walk] at h
  | cons v rest ih =>
    rcases p.walk_cons v rest s with ⟨-, hwalk⟩ | ⟨y, s', hy, hstops, hwalk⟩
    · simp [hwalk] at h
    · obtain rfl := visit_of_attend hy
      cases before with
      | nil =>
        have hyx : y = x := by
          rcases hwalk with ⟨-, hwalk⟩ | ⟨-, hwalk⟩
          · rw [hwalk] at h
            exact (List.cons.inj h).1
          · rw [hwalk] at h
            exact (List.cons.inj h).1
        exact ⟨s, s', rfl, hyx ▸ hy⟩
      | cons z before =>
        -- The walk went on after the first section, for another one was visited.
        rcases hwalk with ⟨-, hwalk⟩ | ⟨hends, hwalk⟩
        · simp [hwalk] at h
        · rw [hwalk] at h
          obtain ⟨rfl, hrest⟩ := List.cons.inj h
          obtain ⟨s₁, s₂, hbefore, hx⟩ := ih hrest
          refine ⟨s₁, s₂, ?_, hx⟩
          rw [List.map_cons, walk_cons_of_onward hstops hy hends, hbefore]

theorem keepsLabels_of_mem_route {p : Pipeline σ ρ} (hp : p.registry.KeepsLabels) {v : Visit σ}
    (h : v ∈ p.route) : v.unit.inst.plugin.KeepsLabels :=
  hp _ _ _ (Registry.lookup?_of_mem_ordered (unit_of_mem_routeFrom h))

/-- A section that comes too late is told so. -/
theorem expired_journey {p : Pipeline σ ρ} {w : World σ} {x : Attended σ}
    (h : x ∈ (p.journey w).visited) (hexpired : x.manner = .expired) :
    x.log.status = timeoutStatus := by
  obtain ⟨_, _, _, _, hx⟩ := attend_of_mem_walk h
  exact expired_attend hx hexpired

/-- The log of a visited section is under its stage and its title. -/
theorem isOf_journey {p : Pipeline σ ρ} (hp : p.registry.KeepsLabels) {w : World σ} {x : Attended σ}
    (h : x ∈ (p.journey w).visited) : x.log.IsOf x.visit.key x.visit.title := by
  obtain ⟨v, hv, s, s', hx⟩ := attend_of_mem_walk h
  have hlog := isOf_attend hp (keepsLabels_of_mem_route hp hv) s
  rwa [hx, ← visit_of_attend hx] at hlog

end Pipeline

/-! ## Other plugins -/

section MapPlugins

variable (f : Plugin σ → Plugin σ)

def Visit.mapPlugin (v : Visit σ) : Visit σ := { v with unit := v.unit.mapPlugin f }

namespace Pipeline

/-- A pipeline with other plugins in the same places. -/
def mapPlugins (p : Pipeline σ ρ) : Pipeline σ ρ := { p with registry := p.registry.mapPlugins f }

variable (p : Pipeline σ ρ)

theorem visitsOf_mapPlugins (index : Nat) (unit : Registered σ) :
    (p.mapPlugins f).visitsOf index (unit.mapPlugin f) =
      (p.visitsOf index unit).map (Visit.mapPlugin f) := by
  simp only [visitsOf, List.map_map]
  rfl

theorem routeFrom_mapPlugins (index : Nat) (units : List (Registered σ)) :
    (p.mapPlugins f).routeFrom index (units.map (Registered.mapPlugin f)) =
      (p.routeFrom index units).map (Visit.mapPlugin f) := by
  induction units generalizing index with
  | nil => rfl
  | cons unit units ih =>
    rw [List.map_cons, routeFrom_cons, routeFrom_cons, ih, visitsOf_mapPlugins, List.map_append]

theorem route_mapPlugins : (p.mapPlugins f).route = p.route.map (Visit.mapPlugin f) := by
  rw [route, route, ← routeFrom_mapPlugins, mapPlugins, Registry.ordered_mapPlugins]

theorem unmatched_mapPlugins : (p.mapPlugins f).unmatched = p.unmatched := by
  simp only [unmatched, mapPlugins, Registry.containsKey_mapPlugins]

theorem outset_mapPlugins (w : World σ) : (p.mapPlugins f).outset w = p.outset w := by
  rw [outset, outset, unmatched_mapPlugins]
  rfl

end Pipeline

end MapPlugins

/-! ## Other sections -/

section Elsewhere

variable (here : String → String → Bool) (other : Execution σ)

def Visit.elsewhere (v : Visit σ) : Visit σ := { v with unit := v.unit.elsewhere here other }

def Attended.elsewhere (x : Attended σ) : Attended σ :=
  { x with visit := x.visit.elsewhere here other }

def Journey.elsewhere (j : Journey σ) : Journey σ :=
  { j with visited := j.visited.map (Attended.elsewhere here other) }

theorem Journey.events_elsewhere (j : Journey σ) : (j.elsewhere here other).events = j.events := by
  unfold Journey.events
  rw [Journey.elsewhere, List.flatMap_map]
  rfl

namespace Pipeline

/-- A pipeline in which every plugin does something else except for some sections. -/
def elsewhere (p : Pipeline σ ρ) : Pipeline σ ρ :=
  { p with registry := p.registry.elsewhere here other }

variable (p : Pipeline σ ρ)

theorem route_elsewhere :
    (p.elsewhere here other).route = p.route.map (Visit.elsewhere here other) :=
  p.route_mapPlugins (Plugin.elsewhere here other)

theorem unmatched_elsewhere : (p.elsewhere here other).unmatched = p.unmatched :=
  p.unmatched_mapPlugins (Plugin.elsewhere here other)

theorem outset_elsewhere (w : World σ) : (p.elsewhere here other).outset w = p.outset w :=
  p.outset_mapPlugins (Plugin.elsewhere here other) w

variable {here}

theorem deal_elsewhere (v : Visit σ) (s : Stand σ)
    (h : (p.deal v s).1 = .invoked → here v.key v.title = true) :
    (p.elsewhere here other).deal (v.elsewhere here other) s = p.deal v s := by
  rcases p.deal_cases v s with ⟨_, hviolation⟩ | ⟨hnone, _, hheld⟩ | ⟨hnone, hclear⟩
  · rw [deal_of_expired hviolation, deal_of_expired (by exact hviolation)]
    rfl
  · rw [deal_of_heldBack hnone hheld, deal_of_heldBack (by exact hnone) (by exact hheld)]
  · rw [deal_of_clear hnone hclear] at h
    rw [deal_of_clear hnone hclear, deal_of_clear (by exact hnone) (by exact hclear),
      ← dispatch_elsewhere other p.registry p.context p.policy.limits v.unit (h rfl)]
    rfl

theorem attend_elsewhere (v : Visit σ) (s : Stand σ)
    (h : (p.attend v s).1.manner = .invoked → here v.key v.title = true) :
    (p.elsewhere here other).attend (v.elsewhere here other) s =
      ((p.attend v s).1.elsewhere here other, (p.attend v s).2) := by
  have hdeal := p.deal_elsewhere other v
    { s with world := (p.startEvent v.key v.index v.title s.world).2 } h
  unfold attend
  dsimp only
  rw [show ((p.elsewhere here other).startEvent (v.elsewhere here other).key
    (v.elsewhere here other).index (v.elsewhere here other).title s.world) =
    p.startEvent v.key v.index v.title s.world from rfl, hdeal]
  rfl

/-- **A walk asks plugins for nothing but the sections that it visits.** -/
theorem walk_elsewhere (route : List (Visit σ)) (s : Stand σ)
    (h : ∀ x ∈ (p.walk route s).visited, x.manner = .invoked →
      here x.visit.key x.visit.title = true) :
    (p.elsewhere here other).walk (route.map (Visit.elsewhere here other)) s =
      (p.walk route s).elsewhere here other := by
  induction route generalizing s with
  | nil => rfl
  | cons v rest ih =>
    rw [List.map_cons]
    rcases p.walk_cons v rest s with ⟨hstops, hwalk⟩ | ⟨x, s', hx, hstops, hwalk⟩
    · rw [hwalk, walk_cons_of_stops (by exact hstops)]
      rfl
    · have hattend : (p.attend v s).1.manner = .invoked → here v.key v.title = true := by
        intro hinvoked
        rw [hx] at hinvoked
        rw [← visit_of_attend hx]
        rcases hwalk with ⟨-, hwalk⟩ | ⟨-, hwalk⟩
        · exact h x (by simp [hwalk]) hinvoked
        · exact h x (by simp [hwalk]) hinvoked
      have hx' := p.attend_elsewhere other v s hattend
      rw [hx] at hx'
      rcases hwalk with ⟨hends, hwalk⟩ | ⟨hends, hwalk⟩
      · rw [hwalk, walk_cons_of_ends (by exact hstops) hx' (by exact hends)]
        rfl
      · have hrest := ih s' fun y hy => h y (by simp [hwalk, hy])
        rw [hwalk, walk_cons_of_onward (by exact hstops) hx' (by exact hends), hrest]
        rfl

/-- **A run asks plugins for nothing but the sections that it visits.** -/
theorem run_elsewhere (w : World σ) (journal : ρ) :
    (p.elsewhere (p.journey w).invokes other).run w journal = p.run w journal := by
  have hjourney : (p.elsewhere (p.journey w).invokes other).journey w =
      (p.journey w).elsewhere (p.journey w).invokes other := by
    rw [journey, route_elsewhere, outset_elsewhere, walk_elsewhere]
    · rfl
    · intro x hx hinvoked
      exact List.any_eq_true.mpr ⟨x, hx, by simp [hinvoked]⟩
  have hevents : (p.elsewhere (p.journey w).invokes other).events w = p.events w := by
    rw [events, events, hjourney, unmatched_elsewhere]
    simp only [Journey.events_elsewhere]
    rfl
  rw [run_eq, run_eq, hevents, hjourney]
  rfl

/-- **A run is its walk.** It visits the sections of its route until the first one that stops it,
that comes too late, or that fails where failures are not passed over, and one log comes of each of
them; what plugins do for other sections has no part in it. -/
theorem run_walk (hp : p.registry.KeepsLabels) (w : World σ) (journal : ρ) :
    let j := p.journey w
    p.run w journal =
      (⟨p.context.runId, p.policy.name, j.outcome.state, j.visited.map Attended.log⟩,
        ⟨(p.closing j.outcome j.stand.world).2, p.record (p.events w) journal, j.stand.tracker,
          j.outcome.state, j.visited.map Attended.log⟩) ∧
    p.Lawful p.route j ∧
    (∀ x ∈ j.visited, x.manner = .expired → x.log.status = timeoutStatus) ∧
    (∀ x ∈ j.visited, x.log.IsOf x.visit.key x.visit.title) ∧
    ∀ other, (p.elsewhere j.invokes other).run w journal = p.run w journal := by
  intro j
  have hlogs : j.stand.logs = j.visited.map Attended.log := p.logs_walk p.route (p.outset w)
  refine ⟨?_, p.lawful_walk _ _, fun _ => expired_journey, fun _ => isOf_journey hp,
    fun other => p.run_elsewhere other w journal⟩
  rw [run_eq]
  simp only [← hlogs]
  rfl

end Pipeline

end Elsewhere

/-! ## A run that fails -/

/-- A plugin that fails in the section with a title. -/
def Plugin.failing (title : String) : Plugin Unit := Plugin.simple "failing" fun _ _ log _ =>
  Act.pure ({ log with status := if log.section_ = title then 4 else 0 }, .ok ())

theorem Plugin.keepsLabels_failing (title : String) : (Plugin.failing title).KeepsLabels := by
  intro id services log options
  exact Act.yields_pure ⟨rfl, rfl⟩

/-- A plugin that works for some milliseconds. -/
def Plugin.slow (ms : Nat) : Plugin Unit := Plugin.simple "slow" fun _ _ log _ =>
  Act.bind (Act.wait ms) fun _ => Act.pure (log, .ok ())

namespace Pipeline

/-- A stage with four sections, of which one is left out and the next one fails. -/
def fourSections (recorder : Recorder ρ) : Pipeline Unit ρ where
  policy := ⟨"four sections", false, Limits.unlimited, none⟩
  registry := ((Registry.new Dict.empty).register "A" .stage (Plugin.failing "A:3")).registry
  context := ⟨Uuid.ofNat 1, Sections.ofList [("A:1", Dict.empty), ("SKIP A:2", Dict.empty),
    ("A:3", Dict.empty), ("A:4", Dict.empty)], fun _ host => (⟨0, .ok ⟨0, "", "", false⟩⟩, host),
    none, none, Dict.empty, Dict.empty⟩
  recorder := recorder

/-- The second of two visited sections ends the run. -/
theorem run_walk_fourSections :
    let p : Pipeline Unit Unit := fourSections fun _ _ => ()
    let w : World Unit := World.start () ⟨0, 0⟩ false
    let j := p.journey w
    p.registry.KeepsLabels ∧
    j.visited.map (fun x => (x.visit.title, x.log.status)) = [("A:1", 0), ("A:3", 4)] ∧
    j.outcome = .aborted 0 "A:3" ∧
    (p.run w ()).1 =
      ⟨Uuid.ofNat 1, "four sections", .abortedAt 0 "A:3", j.visited.map Attended.log⟩ ∧
    p.Lawful p.route j ∧
    (∀ x ∈ j.visited, x.log.IsOf x.visit.key x.visit.title) ∧
    ∀ other, (p.elsewhere j.invokes other).run w () = p.run w () := by
  intro p w j
  have hp : p.registry.KeepsLabels :=
    (Registry.Every.new _).register _ _ (Plugin.keepsLabels_failing _)
  obtain ⟨hrun, hlawful, -, hlabels, helsewhere⟩ := p.run_walk hp w ()
  have hvisited : ((fourSections fun _ _ => ()).journey (World.start () ⟨0, 0⟩ false)).visited.map
      (fun x => (x.visit.title, x.log.status)) = [("A:1", 0), ("A:3", 4)] := by decide +kernel
  have houtcome : ((fourSections fun _ _ => ()).journey (World.start () ⟨0, 0⟩ false)).outcome =
      .aborted 0 "A:3" := by decide +kernel
  refine ⟨hp, hvisited, houtcome, ?_, hlawful, hlabels, helsewhere⟩
  rw [hrun]
  simp only
  rw [show (p.journey w).outcome = .aborted 0 "A:3" from houtcome]
  rfl

end Pipeline

end Qualification
