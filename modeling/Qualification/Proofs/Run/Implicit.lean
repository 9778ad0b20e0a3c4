import Qualification.Proofs.Registry.Balance
import Qualification.Proofs.Run.Failure
import Qualification.Proofs.Section.Title
/-!
# Stages without sections

A stage that no section is addressed to is invoked for a section of its own, which is titled with
the key and empty. The title is read as all titles are, so a key that reads as one with a qualifier
is left out, or ends the run.

* `Sections.implicit`, `visitsOf_of_unaddressed`: the section of such a stage on the route;
* `executeStage_empty`: a plugin is executed with its defaults;
* `Pipeline.RunsOnce`: a stage is invoked once, with its defaults, and the run goes on;
* `runsOnce_of_plain`, `journey_of_skip`, `journey_of_stop`: the three kinds of keys;
* `plainKeys`, `keys_walk`: which stages a run visits without a configuration;
* **`unaddressed_run`**: a stage without sections runs once exactly if its key has no qualifier.
-/

namespace Qualification

namespace Sections

/-- The section of a stage that no section is addressed to. -/
def implicit (key : String) : Addressed := ⟨key, Title.parse key, Dict.empty⟩

theorem visits_of_unaddressed {s : Sections} {key : String} (h : s.addressedTo key = []) :
    s.visits key = [implicit key] := by
  simp [visits, h, implicit]

end Sections

/-- The defaults of declared options. -/
def OptionSpec.defaults (s : OptionSpec) : Dict String := s.map fun _ d => d.default

variable {σ ρ : Type}

/-- **Without values a plugin is executed with its defaults**, on a log that has nothing else in
it. -/
theorem executeStage_empty (c : Context σ) (limits : Limits) (stage title : String)
    (inst : Instance σ) (w : World σ) : ∃ w₁ w₂ ending,
      let template := { Log.new stage title with startedAt := some w₁.instant }
      let limit := limits.stageTimeout inst.plugin.timeout
      withLimit limit (inst.plugin.execute inst.id c.services template
        ⟨inst.plugin.options.defaults, Dict.empty⟩) w₁ = (ending, w₂) ∧
      executeStage c limits stage title inst Dict.empty w =
        ({ ending.log template limit with
            finishedAt := some w₂.instant
            durationMs := some (w₂.wallMillis - w₁.wallMillis) }, w₂) :=
  ⟨w.notice [], _, _, rfl, rfl⟩

namespace Pipeline

variable {p : Pipeline σ ρ}

/-! ## The route -/

theorem routeFrom_append (p : Pipeline σ ρ) (index : Nat) (a b : List (Registered σ)) :
    p.routeFrom index (a ++ b) = p.routeFrom index a ++ p.routeFrom (index + a.length) b := by
  simp [routeFrom, List.zipIdx_append]

/-- The visit of a stage that no section is addressed to. -/
def implicitVisit (index : Nat) (unit : Registered σ) : Visit σ :=
  ⟨index, unit, Sections.implicit unit.key⟩

theorem visitsOf_of_unaddressed {unit : Registered σ}
    (h : p.context.config.addressedTo unit.key = []) (index : Nat) :
    p.visitsOf index unit =
      if (Title.parse unit.key).qualifier = some .skip then [] else [implicitVisit index unit] := by
  rw [visitsOf, Sections.visits_of_unaddressed h]
  split
  next hskip => simp [Sections.implicit, hskip]
  next hskip => simp [Sections.implicit, hskip, implicitVisit]

theorem journey_split {before after : List (Registered σ)} {u : Registered σ}
    (h : p.registry.ordered = before ++ u :: after) (w : World σ) :
    p.journey w = (p.walk (p.routeFrom 0 before) (p.outset w)).andThen
      (p.walk (p.visitsOf before.length u ++ p.routeFrom (before.length + 1) after)) := by
  rw [journey, route, h, routeFrom_append, walk_append, routeFrom_cons, Nat.zero_add]

theorem heldBack?_implicitVisit (index : Nat) (u : Registered σ) (logs : List Log) :
    (implicitVisit index u).heldBack? logs = none := rfl

/-- A section that comes in time and is not held back is invoked. -/
theorem attend_of_clear {v : Visit σ} {s : Stand σ} (h : p.violation? s = none)
    (hclear : v.heldBack? s.logs = none) :
    (p.attend v s).1.manner = .invoked ∧ (p.attend v s).1.log =
      (dispatch p.registry p.context p.policy.limits v.unit v.title v.sect.values
        (p.startEvent v.key v.index v.title s.world).2).1 := by
  have hdeal := deal_of_clear (p := p) (v := v)
    (s := { s with world := (p.startEvent v.key v.index v.title s.world).2 }) h hclear
  have hmanner : (p.attend v s).1.manner = (p.deal v
      { s with world := (p.startEvent v.key v.index v.title s.world).2 }).1 := rfl
  have hlog : (p.attend v s).1.log = (p.deal v
      { s with world := (p.startEvent v.key v.index v.title s.world).2 }).2.1 := rfl
  rw [hmanner, hlog, hdeal]
  exact ⟨rfl, rfl⟩

theorem unit_of_mem_walk {index : Nat} {units : List (Registered σ)} {s : Stand σ}
    {x : Attended σ} (h : x ∈ (p.walk (p.routeFrom index units) s).visited) :
    x.visit.unit ∈ units := by
  obtain ⟨v, hv, s₁, s₂, hx⟩ := attend_of_mem_walk h
  rw [visit_of_attend hx]
  exact unit_of_mem_routeFrom hv

/-! ## One stage -/

/-- Whether a run that comes to a stage `u` after those `before` it invokes the plugin of that
once, with its defaults and for a section that is titled with its key, and goes on with the stages
`after` it. The visited section is `x`, and `s` is what is there after it. -/
structure RunsOnce (p : Pipeline σ ρ) (w : World σ) (before : List (Registered σ))
    (u : Registered σ) (after : List (Registered σ)) (x : Attended σ) (s : Stand σ) : Prop where
  /-- It is the only section of the stage. -/
  visited : (p.journey w).visited.filter (fun y => y.visit.key == u.key) = [x]
  title : x.visit.title = u.key
  /-- No other section invokes the plugin; where every registration brings a new instance, that is
  told by its number. -/
  executed : (executions p.registry (p.journey w).visited).filter (fun e => e.2.id == u.inst.id) =
    [(x.visit, u.inst)]
  /-- Its log is what the plugin makes of a new one with its defaults. -/
  log : ∃ w₁ w₂ ending,
    let template := { Log.new u.key u.key with startedAt := some w₁.instant }
    let limit := p.policy.limits.stageTimeout u.inst.plugin.timeout
    withLimit limit (u.inst.plugin.execute u.inst.id p.context.services template
      ⟨u.inst.plugin.options.defaults, Dict.empty⟩) w₁ = (ending, w₂) ∧
    x.log = { ending.log template limit with
      finishedAt := some w₂.instant
      durationMs := some (w₂.wallMillis - w₁.wallMillis) }
  /-- Unless it fails and failures are not passed over, the run goes on. -/
  onward : x.log.status = 0 ∨ p.policy.continueOnFailure = true →
    let start := p.walk (p.routeFrom 0 before) (p.outset w)
    let next := p.walk (p.routeFrom (before.length + 1) after) s
    p.journey w = ⟨start.visited ++ x :: next.visited, next.outcome, next.stand⟩

theorem execution?_of_implicit {r : Registry σ} {u : Registered σ} {index : Nat} {x : Attended σ}
    (hmanner : x.manner = .invoked) (hvisit : x.visit = implicitVisit index u) :
    x.execution? r = some (x.visit, u.inst) := by
  unfold Attended.execution?
  rw [if_pos hmanner, hvisit]
  rfl

section Unaddressed

variable {catalog : Catalog σ} {reqs : List (Registry.Request σ)}
  {before after : List (Registered σ)} {u : Registered σ} {w : World σ}

/-- Sections of other stages do not invoke the plugin of a stage. -/
theorem id_ne_of_execution (hp : p.registry = (Registry.new catalog).serveAll reqs)
    (hu : u ∈ p.registry.ordered) {y : Attended σ} (hy : y.visit.unit ∈ p.registry.ordered)
    (hkey : y.visit.unit.key ≠ u.key) {e : Visit σ × Instance σ}
    (he : y.execution? p.registry = some e) : e.2.id ≠ u.inst.id := by
  have hstage := Registry.lookup?_of_mem_ordered hu
  have hother : ∀ role key inst, p.registry.lookup? role key = some inst →
      (role = .stage → key ≠ u.key) → inst.id ≠ u.inst.id := by
    intro role key inst hinst hne hid
    rw [hp] at hinst hstage
    obtain ⟨hrole, hsame⟩ := Registry.eq_of_id hinst hstage hid
    exact hne hrole hsame
  unfold Attended.execution? at he
  split_ifs at he with hinvoked
  obtain ⟨inst, hinst, rfl⟩ := Option.map_eq_some_iff.mp he
  unfold Registry.invoked? at hinst
  cases hselected : selectedPlugin? y.visit.unit.key y.visit.sect.values with
  | none =>
    rw [hselected] at hinst
    cases hinst
    exact hother .stage _ _ (Registry.lookup?_of_mem_ordered hy) fun _ => hkey
  | some plugin =>
    rw [hselected] at hinst
    rcases Option.or_eq_some_iff.mp hinst with hinst | ⟨-, hinst⟩
    · exact hother .tool _ _ hinst nofun
    · exact hother .utility _ _ hinst nofun

variable (hp : p.registry = (Registry.new catalog).serveAll reqs)
  (hsplit : p.registry.ordered = before ++ u :: after)

include hp hsplit in
theorem key_ne_of_split {v : Registered σ} (hv : v ∈ before ∨ v ∈ after) : v.key ≠ u.key := by
  have hsound := Registry.sound_serveAll catalog reqs
  have hkeys : (p.registry.ordered.map Registered.key).Nodup := by
    rw [hp, hsound.ordered_keys]
    exact hsound.order.distinct
  rw [hsplit, List.map_append, List.map_cons, List.nodup_append] at hkeys
  obtain ⟨-, hafter, hbefore⟩ := hkeys
  rcases hv with hv | hv
  · exact hbefore _ (List.mem_map_of_mem hv) _ List.mem_cons_self
  · intro hkey
    exact (List.nodup_cons.mp hafter).1 (hkey ▸ List.mem_map_of_mem hv)

include hp hsplit in
/-- Neither the sections nor the plugin of a stage are among what the other stages visit. -/
theorem filter_of_others {xs : List (Attended σ)}
    (h : ∀ x ∈ xs, x.visit.unit ∈ before ∨ x.visit.unit ∈ after) :
    xs.filter (fun y => y.visit.key == u.key) = [] ∧
      (executions p.registry xs).filter (fun e => e.2.id == u.inst.id) = [] := by
  have hordered : ∀ v, v ∈ before ∨ v ∈ after → v ∈ p.registry.ordered := by
    intro v hv
    rw [hsplit]
    rcases hv with hv | hv
    · exact List.mem_append_left _ hv
    · exact List.mem_append_right _ (List.mem_cons_of_mem u hv)
  constructor
  · refine List.filter_eq_nil_iff.mpr fun y hy => ?_
    simpa [Visit.key] using key_ne_of_split hp hsplit (h y hy)
  · refine List.filter_eq_nil_iff.mpr fun e he => ?_
    obtain ⟨y, hy, hexecution⟩ := List.mem_filterMap.mp he
    have hu : u ∈ p.registry.ordered := hsplit ▸ List.mem_append_right _ List.mem_cons_self
    simpa using id_ne_of_execution hp hu (hordered _ (h y hy))
      (key_ne_of_split hp hsplit (h y hy)) hexecution

section Reached

variable (hnone : p.context.config.addressedTo u.key = [])
  (hreached : (p.walk (p.routeFrom 0 before) (p.outset w)).outcome = .through)

include hsplit hnone in
theorem journey_of_skip (h : (Title.parse u.key).qualifier = some .skip) :
    p.journey w = (p.walk (p.routeFrom 0 before) (p.outset w)).andThen
      (p.walk (p.routeFrom (before.length + 1) after)) := by
  rw [journey_split hsplit, visitsOf_of_unaddressed hnone, if_pos h, List.nil_append]

include hsplit hnone hreached in
theorem journey_of_stop (h : (Title.parse u.key).qualifier = some .stop) :
    let start := p.walk (p.routeFrom 0 before) (p.outset w)
    p.journey w = ⟨start.visited, .stopped u.key, start.stand⟩ := by
  intro start
  have hstops : (implicitVisit before.length u).stops = true := by
    simp [Visit.stops, implicitVisit, Sections.implicit, h]
  rw [journey_split hsplit, visitsOf_of_unaddressed hnone, if_neg (by simp [h]),
    List.singleton_append, Journey.andThen_of_through hreached, walk_cons_of_stops hstops,
    List.append_nil]
  rfl

include hp hsplit hnone hreached in
/-- **A stage without sections runs once** if its key has no qualifier. -/
theorem runsOnce_of_plain
    (hintime : p.violation? (p.walk (p.routeFrom 0 before) (p.outset w)).stand = none)
    (h : (Title.parse u.key).qualifier = none) : ∃ x s, p.RunsOnce w before u after x s := by
  have hstops : (implicitVisit before.length u).stops = false := by
    simp [Visit.stops, implicitVisit, Sections.implicit, h]
  have hjourney : p.journey w = (p.walk (p.routeFrom 0 before) (p.outset w)).andThen
      (p.walk (implicitVisit before.length u :: p.routeFrom (before.length + 1) after)) := by
    rw [journey_split hsplit, visitsOf_of_unaddressed hnone, if_neg (by simp [h]),
      List.singleton_append]
  rw [Journey.andThen_of_through hreached] at hjourney
  obtain ⟨start, hstart⟩ : ∃ start, start = p.walk (p.routeFrom 0 before) (p.outset w) := ⟨_, rfl⟩
  have hbefore : ∀ y ∈ start.visited, y.visit.unit ∈ before ∨ y.visit.unit ∈ after :=
    fun y hy => .inl (unit_of_mem_walk (hstart ▸ hy))
  rw [← hstart] at hintime hjourney
  -- The stage has no parents, so time alone could keep its section from being invoked.
  obtain ⟨hmanner, hlog⟩ := attend_of_clear hintime
    (heldBack?_implicitVisit before.length u start.stand.logs)
  rcases hx : p.attend (implicitVisit before.length u) start.stand with ⟨x, s⟩
  rw [hx] at hmanner hlog
  change x.manner = .invoked at hmanner
  have hvisit : x.visit = implicitVisit before.length u := visit_of_attend hx
  obtain ⟨more, hvisited, hmore⟩ : ∃ more, (p.journey w).visited = start.visited ++ x :: more ∧
      ∀ y ∈ more, y.visit.unit ∈ before ∨ y.visit.unit ∈ after := by
    cases hends : x.ends p.policy with
    | true =>
      rw [hjourney, walk_cons_of_ends hstops hx hends]
      exact ⟨[], rfl, List.forall_mem_nil _⟩
    | false =>
      rw [hjourney, walk_cons_of_onward hstops hx hends]
      exact ⟨_, rfl, fun y hy => .inr (unit_of_mem_walk hy)⟩
  -- Of the three parts of the run only the one in the middle is about the stage.
  obtain ⟨hkeys, hexecutions⟩ := filter_of_others hp hsplit hbefore
  obtain ⟨hkeys', hexecutions'⟩ := filter_of_others hp hsplit hmore
  refine ⟨x, s, ?_, ?_, ?_, ?_, ?_⟩
  · have hkey : (x.visit.key == u.key) = true := by
      rw [hvisit]
      exact beq_self_eq_true u.key
    rw [hvisited, List.filter_append, hkeys, List.filter_cons, if_pos hkey, hkeys', List.nil_append]
  · rw [hvisit]
    rfl
  · rw [executions] at hexecutions hexecutions'
    rw [hvisited, executions, List.filterMap_append,
      List.filterMap_cons_some (execution?_of_implicit hmanner hvisit), List.filter_append,
      hexecutions, List.filter_cons, if_pos (beq_self_eq_true u.inst.id), hexecutions',
      List.nil_append]
  · rw [dispatch_of_own _ _ _ _ rfl] at hlog
    obtain ⟨w₁, w₂, ending, hending, hstage⟩ := executeStage_empty p.context p.policy.limits u.key
      u.key u.inst (p.startEvent u.key before.length u.key start.stand.world).2
    exact ⟨w₁, w₂, ending, hending, hlog.trans (congrArg Prod.fst hstage)⟩
  · intro honward
    have hends : x.ends p.policy = false := by
      rcases honward with hstatus | hpolicy
      · simp [Attended.ends, hmanner, Log.succeeded, hstatus]
      · simp [Attended.ends, hmanner, hpolicy]
    rw [hjourney, walk_cons_of_onward hstops hx hends, hstart]

include hp hsplit hnone hreached in
/-- A stage whose key has a qualifier is not visited. -/
theorem not_runsOnce_of_qualifier {q : Qualifier}
    (h : (Title.parse u.key).qualifier = some q) (x : Attended σ) (s : Stand σ) :
    ¬ p.RunsOnce w before u after x s := by
  intro hruns
  have hbefore : ∀ y ∈ (p.walk (p.routeFrom 0 before) (p.outset w)).visited,
      y.visit.unit ∈ before ∨ y.visit.unit ∈ after := fun y hy => .inl (unit_of_mem_walk hy)
  have hothers : ∀ y ∈ (p.journey w).visited, y.visit.unit ∈ before ∨ y.visit.unit ∈ after := by
    cases q with
    | skip =>
      rw [journey_of_skip hsplit hnone h, Journey.andThen_of_through hreached]
      intro y hy
      rcases List.mem_append.mp hy with hy | hy
      · exact hbefore y hy
      · exact .inr (unit_of_mem_walk hy)
    | stop =>
      rw [journey_of_stop hsplit hnone hreached h]
      exact hbefore
  have hvisited := hruns.visited
  rw [(filter_of_others hp hsplit hothers).1] at hvisited
  cases hvisited

end Reached

end Unaddressed

/-! ## Runs without a configuration -/

/-- The keys without a qualifier, up to the first one that stops a run. -/
def plainKeys (keys : List String) : List String :=
  (keys.takeWhile fun k => (Title.parse k).qualifier != some .stop).filter
    fun k => (Title.parse k).qualifier == none

theorem plainKeys_cons_of_plain {key : String} (h : (Title.parse key).qualifier = none)
    (keys : List String) : plainKeys (key :: keys) = key :: plainKeys keys := by
  simp [plainKeys, h]

theorem plainKeys_cons_of_skip {key : String} (h : (Title.parse key).qualifier = some .skip)
    (keys : List String) : plainKeys (key :: keys) = plainKeys keys := by
  simp [plainKeys, h]

theorem plainKeys_cons_of_stop {key : String} (h : (Title.parse key).qualifier = some .stop)
    (keys : List String) : plainKeys (key :: keys) = [] := by
  simp [plainKeys, h]

theorem length_plainKeys_iff {keys : List String} : (plainKeys keys).length = keys.length ↔
    ∀ k ∈ keys, (Title.parse k).qualifier = none := by
  constructor
  · intro h
    have hsub : (plainKeys keys).Sublist keys :=
      List.filter_sublist.trans (List.takeWhile_sublist _)
    rw [← hsub.eq_of_length h]
    intro k hk
    simpa using (List.mem_filter.mp hk).2
  · intro h
    induction keys with
    | nil => rfl
    | cons k keys ih =>
      rw [plainKeys_cons_of_plain (h k List.mem_cons_self), List.length_cons, List.length_cons,
        ih fun k' hk' => h k' (List.mem_cons_of_mem k hk')]

/-- **Without a configuration** and without a failure, a walk visits the stages whose keys have no
qualifier, up to one that stops it. -/
theorem keys_walk {units : List (Registered σ)}
    (hunaddressed : ∀ u ∈ units, p.context.config.addressedTo u.key = []) (index : Nat)
    (s : Stand σ)
    (hok : ∀ x ∈ (p.walk (p.routeFrom index units) s).visited, x.ends p.policy = false) :
    (p.walk (p.routeFrom index units) s).visited.map (fun x => x.visit.key) =
      plainKeys (units.map Registered.key) := by
  induction units generalizing index s with
  | nil => rfl
  | cons u units ih =>
    have hrest := fun v hv => hunaddressed v (List.mem_cons_of_mem u hv)
    rw [routeFrom_cons, visitsOf_of_unaddressed (hunaddressed u List.mem_cons_self)] at hok ⊢
    rw [List.map_cons]
    cases hq : (Title.parse u.key).qualifier with
    | none =>
      have hstops : (implicitVisit index u).stops = false := by
        simp [Visit.stops, implicitVisit, Sections.implicit, hq]
      have hkept : (none : Option Qualifier) ≠ some .skip := (Option.some_ne_none _).symm
      rw [hq, if_neg hkept, List.singleton_append] at hok
      rw [if_neg hkept, List.singleton_append]
      rcases hx : p.attend (implicitVisit index u) s with ⟨x, s'⟩
      obtain ⟨more, hmore⟩ := visited_walk_cons hstops hx (p.routeFrom (index + 1) units)
      have hends : x.ends p.policy = false := hok x (hmore ▸ List.mem_cons_self)
      rw [walk_cons_of_onward hstops hx hends] at hok ⊢
      rw [plainKeys_cons_of_plain hq, List.map_cons, visit_of_attend hx,
        ih hrest _ _ fun y hy => hok y (List.mem_cons_of_mem x hy)]
      rfl
    | some q =>
      cases q with
      | skip =>
        rw [hq, if_pos rfl, List.nil_append] at hok
        rw [if_pos rfl, List.nil_append, plainKeys_cons_of_skip hq]
        exact ih hrest _ _ hok
      | stop =>
        have hstops : (implicitVisit index u).stops = true := by
          simp [Visit.stops, implicitVisit, Sections.implicit, hq]
        rw [if_neg (by simp), List.singleton_append, walk_cons_of_stops hstops,
          plainKeys_cons_of_stop hq]
        rfl

theorem ends_of_status {x : Attended σ} {w : World σ} (h : x ∈ (p.journey w).visited)
    (hstatus : x.log.status = 0) : x.ends p.policy = false := by
  have hexpired : (x.manner == .expired) = false := by
    refine beq_eq_false_iff_ne.mpr fun hexpired => ?_
    have htimeout := expired_journey h hexpired
    rw [hstatus] at htimeout
    cases htimeout
  simp [Attended.ends, hexpired, Log.succeeded, hstatus]

/-- **A stage without sections** that a run comes to in time runs once, with its defaults and under
its key, exactly if its key does not begin with a qualifier; otherwise it is left out, or the run
stops there. Without a configuration and with plugins that succeed, there are as many logs as stages
exactly if no key begins so. The run has the logs and the ending of what it visits, and asks plugins
for nothing else. -/
theorem unaddressed_run {catalog : Catalog σ} {reqs : List (Registry.Request σ)}
    (hp : p.registry = (Registry.new catalog).serveAll reqs) (w : World σ) (journal : ρ) :
    (∀ before u after, p.registry.ordered = before ++ u :: after →
      p.context.config.addressedTo u.key = [] →
      let start := p.walk (p.routeFrom 0 before) (p.outset w)
      start.outcome = .through → p.violation? start.stand = none →
      ((∃ x s, p.RunsOnce w before u after x s) ↔ ∀ q : Qualifier, ¬ q.Heads u.key) ∧
      (Qualifier.skip.Heads u.key →
        p.journey w = start.andThen (p.walk (p.routeFrom (before.length + 1) after))) ∧
      (Qualifier.stop.Heads u.key →
        p.journey w = ⟨start.visited, .stopped u.key, start.stand⟩)) ∧
    (p.context.config.entries = [] → (∀ log ∈ (p.run w journal).1.logs, log.status = 0) →
      (p.journey w).visited.map (fun x => x.visit.key) =
        plainKeys (p.registry.ordered.map Registered.key) ∧
      ((p.run w journal).1.logs.length = p.registry.stages.size ↔
        ∀ u ∈ p.registry.ordered, ∀ q : Qualifier, ¬ q.Heads u.key)) ∧
    (p.run w journal).1.logs = (p.journey w).visited.map Attended.log ∧
    (p.run w journal).1.state = (p.journey w).outcome.state ∧
    ∀ other, (p.elsewhere (p.journey w).invokes other).run w journal = p.run w journal := by
  refine ⟨?_, ?_, p.logs_run w journal, by rw [run_eq], fun other =>
    p.run_elsewhere other w journal⟩
  · intro before u after hsplit hnone start hreached hintime
    rw [← Title.qualifier_parse_eq_none_iff, ← Title.qualifier_parse_eq_some_iff,
      ← Title.qualifier_parse_eq_some_iff]
    refine ⟨⟨?_, runsOnce_of_plain hp hsplit hnone hreached hintime⟩,
      journey_of_skip hsplit hnone, journey_of_stop hsplit hnone hreached⟩
    rintro ⟨x, s, hruns⟩
    cases hq : (Title.parse u.key).qualifier with
    | none => rfl
    | some q => exact absurd hruns (not_runsOnce_of_qualifier hp hsplit hnone hreached hq x s)
  · intro hempty hsucceeded
    rw [logs_run] at hsucceeded ⊢
    have hunaddressed : ∀ u ∈ p.registry.ordered, p.context.config.addressedTo u.key = [] := by
      intro u _
      rw [Sections.addressedTo, hempty]
      rfl
    have hok : ∀ x ∈ (p.journey w).visited, x.ends p.policy = false :=
      fun x hx => ends_of_status hx (hsucceeded _ (List.mem_map_of_mem hx))
    have hkeys := keys_walk hunaddressed 0 (p.outset w) hok
    refine ⟨hkeys, ?_⟩
    have hsize : p.registry.stages.size = (p.registry.ordered.map Registered.key).length := by
      rw [hp, List.length_map, (Registry.sound_serveAll catalog reqs).ordered_perm.length_eq,
        List.length_map]
      rfl
    have hlogs : ((p.journey w).visited.map Attended.log).length =
        (plainKeys (p.registry.ordered.map Registered.key)).length := by
      rw [← hkeys, List.length_map, List.length_map]
      rfl
    rw [hlogs, hsize, length_plainKeys_iff, List.forall_mem_map]
    exact forall₂_congr fun _ _ => Title.qualifier_parse_eq_none_iff

/-! ## Stages with nothing but a key -/

/-- Requests that register idle stages under keys, the last one first: of stages with one ordering
key the latest comes first. -/
def idleStages (keys : List String) : List (Registry.Request Unit) :=
  keys.reverse.map fun key => .register key .stage Registry.idle

/-- A pipeline of idle stages that has no configuration. -/
def unconfigured (keys : List String) : Pipeline Unit Unit where
  policy := ⟨"unconfigured", false, Limits.unlimited, none⟩
  registry := (Registry.new Dict.empty).serveAll (idleStages keys)
  context := ⟨Uuid.ofNat 1, Sections.empty, fun _ host => (⟨0, .ok ⟨0, "", "", false⟩⟩, host),
    none, none, Dict.empty, Dict.empty⟩
  recorder := fun _ _ => ()

/-- A key with a colon is one like any other. -/
theorem unaddressed_run_colon :
    let p := unconfigured ["A", "C:1"]
    let w : World Unit := World.start () ⟨0, 0⟩ false
    ∃ a c, a.key = "A" ∧ c.key = "C:1" ∧ p.registry.ordered = [a] ++ c :: [] ∧
      (∃ x s, p.RunsOnce w [a] c [] x s) ∧
      (∀ log ∈ (p.run w ()).1.logs, log.status = 0) ∧
      (p.run w ()).1.logs.length = p.registry.stages.size ∧ p.registry.stages.size = 2 := by
  intro p w
  have hkeys : (unconfigured ["A", "C:1"]).registry.ordered.map Registered.key = ["A", "C:1"] := by
    decide +kernel
  have hstart : let p := unconfigured ["A", "C:1"]
      let start := p.walk (p.routeFrom 0 (p.registry.ordered.take 1))
        (p.outset (World.start () ⟨0, 0⟩ false))
      start.outcome = .through ∧ p.violation? start.stand = none := by decide +kernel
  have hlogs : ∀ log ∈ ((unconfigured ["A", "C:1"]).run (World.start () ⟨0, 0⟩ false) ()).1.logs,
      log.status = 0 := by decide +kernel
  obtain ⟨a, rest, hordered, ha, hrest⟩ := List.map_eq_cons_iff.mp hkeys
  obtain ⟨c, _, rfl, hc, hnil⟩ := List.map_eq_cons_iff.mp hrest
  obtain rfl := List.map_eq_nil_iff.mp hnil
  change p.registry.ordered = [a] ++ c :: [] at hordered
  have hplain : ∀ u ∈ p.registry.ordered, ∀ q : Qualifier, ¬ q.Heads u.key := by
    rw [hordered]
    refine List.forall_mem_cons.mpr ⟨?_, List.forall_mem_singleton.mpr ?_⟩
    · exact Title.qualifier_parse_eq_none_iff.mp (ha ▸ by decide)
    · exact Title.qualifier_parse_eq_none_iff.mp (hc ▸ by decide)
  have hp : p.registry = (Registry.new Dict.empty).serveAll (idleStages ["A", "C:1"]) := rfl
  obtain ⟨honce, hall, -⟩ := unaddressed_run hp w ()
  have hfirst : p.registry.ordered.take 1 = [a] := by rw [hordered]; rfl
  obtain ⟨hreached, hintime⟩ := hstart
  rw [hfirst] at hreached hintime
  refine ⟨a, c, ha, hc, hordered, ?_, hlogs, ?_, by decide +kernel⟩
  · exact (honce [a] c [] hordered rfl hreached hintime).1.mpr
      (hplain c (hordered ▸ List.mem_append_right _ List.mem_cons_self))
  · exact (hall rfl hlogs).2.mpr hplain

/-- **Keys with a qualifier.** Without a configuration two of five idle stages run: one is left out
for its key, another one stops the run, and the last one is never come to. -/
theorem unaddressed_run_qualifiers :
    let p := unconfigured ["A", "SKIP B", "C", "STOP D", "E"]
    let w : World Unit := World.start () ⟨0, 0⟩ false
    p.registry.ordered.map Registered.key = ["A", "SKIP B", "C", "STOP D", "E"] ∧
    p.context.config.entries = [] ∧
    (p.run w ()).1.logs.map (fun log => (log.section_, log.status)) = [("A", 0), ("C", 0)] ∧
    (p.run w ()).1.logs.length ≠ p.registry.stages.size ∧
    ∃ before u after, p.registry.ordered = before ++ u :: after ∧ u.key = "SKIP B" ∧
      (p.walk (p.routeFrom 0 before) (p.outset w)).outcome = .through ∧
      p.violation? (p.walk (p.routeFrom 0 before) (p.outset w)).stand = none ∧
      ∀ x s, ¬ p.RunsOnce w before u after x s := by
  intro p w
  have hkeys : (unconfigured ["A", "SKIP B", "C", "STOP D", "E"]).registry.ordered.map
      Registered.key = ["A", "SKIP B", "C", "STOP D", "E"] := by decide +kernel
  have hstart : let p := unconfigured ["A", "SKIP B", "C", "STOP D", "E"]
      let start := p.walk (p.routeFrom 0 (p.registry.ordered.take 1))
        (p.outset (World.start () ⟨0, 0⟩ false))
      start.outcome = .through ∧ p.violation? start.stand = none := by decide +kernel
  refine ⟨hkeys, rfl, by decide +kernel, by decide +kernel, ?_⟩
  obtain ⟨a, rest, hordered, -, hrest⟩ := List.map_eq_cons_iff.mp hkeys
  obtain ⟨b, after, rfl, hb, -⟩ := List.map_eq_cons_iff.mp hrest
  change p.registry.ordered = [a] ++ b :: after at hordered
  have hfirst : p.registry.ordered.take 1 = [a] := by rw [hordered]; rfl
  obtain ⟨hreached, hintime⟩ := hstart
  rw [hfirst] at hreached hintime
  refine ⟨[a], b, after, hordered, hb, hreached, hintime, ?_⟩
  refine not_runsOnce_of_qualifier (q := .skip) rfl hordered rfl hreached ?_
  rw [hb]
  decide

end Pipeline

end Qualification
