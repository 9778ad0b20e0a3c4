import Mathlib.Data.List.Perm.Subperm
import Qualification.Proofs.Plugin.Blind
import Qualification.Proofs.Run.Failure
/-!
# Sections that match nothing

A configuration may hold a section whose key no plugin has, neither as it is written nor as it is
read. A run notices it and is otherwise the run without it: the stages find their sections, and the
tools and utilities their values, in the other sections.

* `Sections.AddsUnmatched`, `addressedTo_of_addsUnmatched`, `get?_of_addsUnmatched`: sections among
  which there are new ones, and what is found in them;
* `invoke_withSections`, `walk_withSections`: the same walk of both pipelines through one world;
* `Stand.Alike`, `dispatch_alike`, `walk_alike`: the same walk of one pipeline through two worlds
  that are one but for their notices;
* `Pipeline.noting`: a pipeline whose plugins note what they are executed with;
* `Pipeline.SameRun`, **`run_unmatched`**: the run with the new sections is the run without them.

What plugins can know of the sections are their options and what they invoke: the notices, which
tell of the new ones, are not for them.
-/

namespace Qualification

variable {σ ρ : Type}

/-! ## The sections -/

/-- Whether some sections are others with new ones anywhere among them, which stand for no known
key: neither by their titles nor by what they are addressed to. -/
structure Sections.AddsUnmatched (known : String → Bool) (s s' : Sections) : Prop where
  kept : s.entries.Sublist s'.entries
  unmatched : ∀ e ∈ s'.entries,
    e ∈ s.entries ∨ (known e.1 = false ∧ known (Title.parse e.1).stage = false)

namespace Sections

variable {known : String → Bool} {s s' : Sections}

/-- A test that only sections of known keys pass does not see the new ones. -/
theorem AddsUnmatched.filter_entries (h : s.AddsUnmatched known s')
    {test : String × Dict String → Bool}
    (htest : ∀ e, test e = true → known e.1 = true ∨ known (Title.parse e.1).stage = true) :
    s'.entries.filter test = s.entries.filter test := by
  have hnodup : (s'.entries.filter test).Nodup :=
    List.Nodup.filter test (List.Nodup.of_map Prod.fst s'.distinct)
  have hsub : s'.entries.filter test ⊆ s.entries.filter test := by
    intro e he
    obtain ⟨hmem, hpass⟩ := List.mem_filter.mp he
    refine List.mem_filter.mpr ⟨?_, hpass⟩
    rcases h.unmatched e hmem with hold | ⟨htitle, hkey⟩
    · exact hold
    · rcases htest e hpass with hknown | hknown
      · rw [htitle] at hknown
        cases hknown
      · rw [hkey] at hknown
        cases hknown
  exact ((h.kept.filter test).eq_of_length_le (List.subperm_of_subset hnodup hsub).length_le).symm

theorem addressedTo_of_addsUnmatched (h : s.AddsUnmatched known s') {key : String}
    (hkey : known key = true) : s'.addressedTo key = s.addressedTo key := by
  unfold addressedTo
  rw [List.filter_map, List.filter_map, h.filter_entries]
  intro e he
  exact .inr (eq_of_beq he ▸ hkey)

theorem get?_of_addsUnmatched (h : s.AddsUnmatched known s') {title : String}
    (htitle : known title = true) : s'.get? title = s.get? title := by
  have hsame : ∀ t : Sections, ∀ values, t.get? title = some values ↔
      (title, values) ∈ t.entries.filter fun e => title == e.1 := by
    intro t values
    rw [get?_eq_some_iff, List.mem_filter, beq_self_eq_true, and_iff_left rfl]
  refine Option.ext fun values => ?_
  rw [hsame, hsame, h.filter_entries]
  intro e he
  exact .inl (eq_of_beq he ▸ htitle)

theorem visits_of_addsUnmatched (h : s.AddsUnmatched known s') {key : String}
    (hkey : known key = true) : s'.visits key = s.visits key := by
  unfold visits
  rw [addressedTo_of_addsUnmatched h hkey]

end Sections

/-! ## Two pipelines in one world -/

namespace Registry

theorem containsKey_of_lookup? {r : Registry σ} {role : Role} {key : String} {i : Instance σ}
    (h : r.lookup? role key = some i) : r.containsKey key = true := by
  refine List.any_eq_true.mpr ⟨role, by cases role <;> decide, ?_⟩
  rw [Dict.contains, show (r.byRole role).get? key = some i from h, Option.isSome_some]

end Registry

namespace Context

/-- The context with other sections. -/
def withSections (c : Context σ) (s : Sections) : Context σ := { c with config := s }

/-- Whether the tools and utilities of a context are those of a registry. -/
structure PluginsOf (c : Context σ) (r : Registry σ) : Prop where
  tools : c.tools = r.tools
  utilities : c.utilities = r.utilities

theorem PluginsOf.lookup? {c : Context σ} {r : Registry σ} (h : c.PluginsOf r) {role : Role}
    {key : String} {i : Instance σ} (hi : c.toolbox? role key = some i) :
    r.lookup? role key = some i := by
  cases role with
  | stage => cases hi
  | tool =>
    change c.tools.get? key = some i at hi
    rwa [h.tools] at hi
  | utility =>
    change c.utilities.get? key = some i at hi
    rwa [h.utilities] at hi

section WithSections

variable {c : Context σ} {r : Registry σ} {s : Sections} (hc : c.PluginsOf r)
  (h : c.config.AddsUnmatched r.containsKey s)

include hc h

theorem invokeAt_withSections (depth : Nat) :
    (c.withSections s).invokeAt depth = c.invokeAt depth := by
  induction depth with
  | zero => rfl
  | succ depth ih =>
    funext role key overrides
    have hsame : (c.withSections s).toolbox? role key = c.toolbox? role key := rfl
    unfold invokeAt
    rw [ih, hsame]
    cases htoolbox : c.toolbox? role key with
    | none => rfl
    | some inst =>
      -- Only for keys that have a plugin the sections are asked, by the title that is the key.
      have hknown := Registry.containsKey_of_lookup? (hc.lookup? htoolbox)
      have hget : (c.withSections s).config.get? key = c.config.get? key :=
        Sections.get?_of_addsUnmatched h hknown
      simp only [hget]
      rfl

/-- **The new sections have no part in what plugins invoke.** -/
theorem invoke_withSections : (c.withSections s).invoke = c.invoke :=
  invokeAt_withSections hc h nestingLimit

theorem services_withSections : (c.withSections s).services = c.services := by
  unfold services
  rw [invoke_withSections hc h]
  rfl

end WithSections

end Context

theorem dispatch_of_services {r : Registry σ} {c c' : Context σ} (h : c'.services = c.services) :
    dispatch r c' = dispatch r c := by
  funext limits unit title values w
  unfold dispatch executeStage
  rw [h]

namespace Pipeline

/-- The pipeline with other sections. -/
def withSections (p : Pipeline σ ρ) (s : Sections) : Pipeline σ ρ :=
  { p with context := p.context.withSections s }

section WithSections

variable {p : Pipeline σ ρ} {s : Sections} (hp : p.context.PluginsOf p.registry)
  (h : p.context.config.AddsUnmatched p.registry.containsKey s)

include h in
theorem route_withSections : (p.withSections s).route = p.route := by
  have hfrom : ∀ (units : List (Registered σ)) index,
      (∀ u ∈ units, p.registry.containsKey u.key = true) →
        (p.withSections s).routeFrom index units = p.routeFrom index units := by
    intro units
    induction units with
    | nil => exact fun _ _ => rfl
    | cons u units ih =>
      intro index hunits
      obtain ⟨hu, hunits⟩ := List.forall_mem_cons.mp hunits
      have hvisits : (p.withSections s).context.config.visits u.key =
          p.context.config.visits u.key := Sections.visits_of_addsUnmatched h hu
      rw [routeFrom_cons, routeFrom_cons, ih _ hunits, visitsOf, hvisits, visitsOf]
  exact hfrom _ 0 fun u hu =>
    Registry.containsKey_of_lookup? (Registry.lookup?_of_mem_ordered hu)

include hp h

theorem deal_withSections (v : Visit σ) (s₀ : Stand σ) :
    (p.withSections s).deal v s₀ = p.deal v s₀ := by
  have hdispatch : dispatch p.registry (p.context.withSections s) = dispatch p.registry p.context :=
    dispatch_of_services (Context.services_withSections hp h)
  rcases p.deal_cases v s₀ with ⟨_, hviolation⟩ | ⟨hnone, _, hheld⟩ | ⟨hnone, hclear⟩
  · rw [deal_of_expired hviolation, deal_of_expired (by exact hviolation)]
  · rw [deal_of_heldBack hnone hheld, deal_of_heldBack (by exact hnone) hheld]
  · rw [deal_of_clear hnone hclear, deal_of_clear (by exact hnone) hclear]
    simp only [withSections, hdispatch]

theorem attend_withSections (v : Visit σ) (s₀ : Stand σ) :
    (p.withSections s).attend v s₀ = p.attend v s₀ := by
  unfold attend
  simp only [deal_withSections hp h]
  rfl

/-- **The walk of both pipelines along one route is the same** from one world. -/
theorem walk_withSections (route : List (Visit σ)) (s₀ : Stand σ) :
    (p.withSections s).walk route s₀ = p.walk route s₀ := by
  induction route generalizing s₀ with
  | nil => rfl
  | cons v rest ih =>
    have hstep : (p.withSections s).step v s₀ = p.step v s₀ := by
      unfold step
      simp only [attend_withSections hp h]
      rfl
    rw [walk, walk, hstep, funext ih]

end WithSections

end Pipeline

/-! ## One pipeline in two worlds -/

section Alike

variable {w w' : World σ}

theorem World.Alike.instant (h : w.Alike w') : w'.instant = w.instant := by
  obtain ⟨ns, rfl⟩ := h
  rfl

theorem World.Alike.wallMillis (h : w.Alike w') : w'.wallMillis = w.wallMillis := by
  obtain ⟨ns, rfl⟩ := h
  rfl

/-- An activity under a time limit. -/
theorem Act.Blind.withLimit {α : Type} {x : Act σ α} (hx : x.Blind) (limit : Option Duration) :
    Act.Blind (Qualification.withLimit limit x) := by
  intro w w' h
  have hbegin : World.Alike
      { w with deadline := (limit.map Duration.millisUp).map (w.now + ·), inStage := true }
      { w' with deadline := (limit.map Duration.millisUp).map (w'.now + ·), inStage := true } := by
    obtain ⟨ns, rfl⟩ := h
    exact ⟨ns, rfl⟩
  obtain ⟨hending, ns, hworld⟩ := hx _ _ hbegin
  unfold Qualification.withLimit
  dsimp only
  split_ifs
  · exact ⟨rfl, h.settle⟩
  · refine ⟨hending, World.Alike.settle ?_⟩
    rw [hworld]
    exact ⟨ns, rfl⟩

/-- What blind plugins invoke is blind. -/
theorem Context.blind_invokeAt {c : Context σ} {r : Registry σ} (hc : c.PluginsOf r)
    (hr : r.Blind) (depth : Nat) (role : Role) (key : String) (overrides : Dict String) :
    (c.invokeAt depth role key overrides).Blind := by
  induction depth generalizing role key overrides with
  | zero => exact Act.blind_panicWith none
  | succ depth ih =>
    unfold invokeAt
    dsimp only
    split
    · exact Act.blind_pure _
    · rename_i inst htoolbox
      have hinst : inst.plugin.Blind := hr role key inst (hc.lookup? htoolbox)
      refine (Act.blind_modify fun _ _ hw => hw.notice _ _).bind fun _ =>
        (hinst _ _ _ _ ih).bind fun x => ?_
      split
      · exact Act.blind_pure _
      · exact Act.blind_pure _

section Dispatch

variable {c : Context σ} {r : Registry σ} (hc : c.PluginsOf r) (hr : r.Blind)

include hc hr

theorem executeStage_alike (limits : Limits) (stage title : String) {inst : Instance σ}
    (hinst : inst.plugin.Blind) (values : Dict String) (h : w.Alike w') :
    (executeStage c limits stage title inst values w').1 =
        (executeStage c limits stage title inst values w).1 ∧
      (executeStage c limits stage title inst values w).2.Alike
        (executeStage c limits stage title inst values w').2 := by
  unfold executeStage
  dsimp only
  rw [h.instant, h.wallMillis]
  have hblind := Act.Blind.withLimit (hinst inst.id c.services
      { Log.new stage title with
        extra := (Context.resolveFor title inst.plugin.options values).1.passthrough
        startedAt := some w.instant }
      (Context.resolveFor title inst.plugin.options values).1
      (Context.blind_invokeAt hc hr Context.nestingLimit))
    (limits.stageTimeout inst.plugin.timeout)
  obtain ⟨hending, hworld⟩ := hblind _ _ (h.notice
    (Context.resolveFor title inst.plugin.options values).2
    (Context.resolveFor title inst.plugin.options values).2)
  rw [hending, hworld.instant, hworld.wallMillis]
  exact ⟨rfl, hworld⟩

/-- **An invocation is the same in both worlds**, whichever plugin it selects. -/
theorem dispatch_alike (limits : Limits) {unit : Registered σ} (hunit : unit.inst.plugin.Blind)
    (title : String) (values : Dict String) (h : w.Alike w') :
    (dispatch r c limits unit title values w').1 = (dispatch r c limits unit title values w).1 ∧
      (dispatch r c limits unit title values w).2.Alike
        (dispatch r c limits unit title values w').2 := by
  cases hselected : selectedPlugin? unit.key values with
  | none =>
    rw [dispatch_of_own c limits title w hselected, dispatch_of_own c limits title w' hselected]
    exact executeStage_alike hc hr limits unit.key title hunit values h
  | some plugin =>
    cases hchosen : r.chosen? plugin with
    | none =>
      rw [dispatch_of_missing c limits title w hselected hchosen,
        dispatch_of_missing c limits title w' hselected hchosen]
      exact ⟨rfl, h⟩
    | some inst =>
      have hinst : inst.plugin.Blind := Registry.Every.chosen hr hchosen
      obtain ⟨hlog, hworld⟩ := executeStage_alike hc hr limits unit.key title hinst values h
      rw [dispatch_of_chosen c limits title w hselected hchosen,
        dispatch_of_chosen c limits title w' hselected hchosen]
      exact ⟨congrArg (Log.withExtra · "plugin" plugin) hlog, hworld⟩

end Dispatch

/-- Whether what two sections find is one but for the notices of the world. -/
structure Stand.Alike (s s' : Stand σ) : Prop where
  world : s.world.Alike s'.world
  tracker : s'.tracker = s.tracker
  logs : s'.logs = s.logs

/-- Whether two walks are one but for the notices of the world. -/
structure Journey.Alike (j j' : Journey σ) : Prop where
  visited : j'.visited = j.visited
  outcome : j'.outcome = j.outcome
  stand : j.stand.Alike j'.stand

theorem Journey.Alike.andThen {j j' : Journey σ} (h : j.Alike j') {next : Stand σ → Journey σ}
    (hnext : ∀ s s', s.Alike s' → (next s).Alike (next s')) :
    (j.andThen next).Alike (j'.andThen next) := by
  by_cases hthrough : j.outcome = .through
  · have hrest := hnext _ _ h.stand
    rw [andThen_of_through hthrough, andThen_of_through (h.outcome.trans hthrough)]
    exact ⟨by rw [h.visited, hrest.visited], hrest.outcome, hrest.stand⟩
  · rw [andThen_of_ne hthrough, andThen_of_ne (h.outcome ▸ hthrough)]
    exact h

namespace Pipeline

variable {p : Pipeline σ ρ}

theorem event_alike (kind : EventKind) (summary : String) (stage : Option (String × Nat))
    (log : Option Log) (digest : Option String) (h : w.Alike w') :
    (p.event kind summary stage log digest w').1 = (p.event kind summary stage log digest w).1 ∧
      (p.event kind summary stage log digest w).2.Alike
        (p.event kind summary stage log digest w').2 := by
  obtain ⟨ns, rfl⟩ := h
  exact ⟨rfl, ns, rfl⟩

theorem logEvent_alike (key : String) (index : Nat) (title : String) (log : Log)
    (h : w.Alike w') :
    (p.logEvent key index title log w').1 = (p.logEvent key index title log w).1 ∧
      (p.logEvent key index title log w).2.Alike (p.logEvent key index title log w').2 := by
  unfold logEvent
  split
  · exact event_alike _ _ _ _ _ h
  · exact event_alike _ _ _ _ _ h

theorem closing_alike (outcome : Outcome) (h : w.Alike w') :
    (p.closing outcome w').1 = (p.closing outcome w).1 ∧
      (p.closing outcome w).2.Alike (p.closing outcome w').2 := by
  cases outcome with
  | through => exact event_alike _ _ _ _ _ h
  | stopped title => exact event_alike _ _ _ _ _ h
  | aborted index title => exact event_alike _ _ _ _ _ h

variable (hp : p.context.PluginsOf p.registry) (hblind : p.registry.Blind)

include hp hblind

theorem deal_alike {v : Visit σ} (hv : v.unit.inst.plugin.Blind) {s s' : Stand σ}
    (h : s.Alike s') : (p.deal v s').1 = (p.deal v s).1 ∧ (p.deal v s').2.1 = (p.deal v s).2.1 ∧
      (p.deal v s).2.2.Alike (p.deal v s').2.2 := by
  have hviolation : p.violation? s' = p.violation? s := by
    rw [violation?, violation?, h.tracker, h.world.wallMillis]
  rcases p.deal_cases v s with ⟨violation, hs⟩ | ⟨hs, log, hheld⟩ | ⟨hs, hclear⟩
  · rw [deal_of_expired hs, deal_of_expired (hviolation.trans hs)]
    exact ⟨rfl, rfl, h⟩
  · rw [deal_of_heldBack hs hheld, deal_of_heldBack (hviolation.trans hs) (h.logs ▸ hheld)]
    exact ⟨rfl, rfl, h⟩
  · obtain ⟨hlog, hworld⟩ :=
      dispatch_alike hp hblind p.policy.limits hv v.title v.sect.values h.world
    rw [deal_of_clear hs hclear, deal_of_clear (hviolation.trans hs) (h.logs ▸ hclear)]
    exact ⟨rfl, hlog, hworld, congrArg Tracker.recordStage h.tracker, h.logs⟩

theorem attend_alike {v : Visit σ} (hv : v.unit.inst.plugin.Blind) {s s' : Stand σ}
    (h : s.Alike s') :
    (p.attend v s').1 = (p.attend v s).1 ∧ (p.attend v s).2.Alike (p.attend v s').2 := by
  obtain ⟨hopened, hworld⟩ := event_alike (p := p) .stageStarted
    s!"Section '{v.title}' started" (some (v.key, v.index)) none none h.world
  have hbegun : Stand.Alike { s with world := (p.startEvent v.key v.index v.title s.world).2 }
      { s' with world := (p.startEvent v.key v.index v.title s'.world).2 } :=
    ⟨hworld, h.tracker, h.logs⟩
  obtain ⟨hmanner, hlog, hstand⟩ := deal_alike hp hblind hv hbegun
  unfold attend
  dsimp only
  rw [hmanner, hlog]
  obtain ⟨hclosed, hend⟩ := logEvent_alike (p := p) v.key v.index v.title (p.deal v
    { s with world := (p.startEvent v.key v.index v.title s.world).2 }).2.1 hstand.world
  rw [hclosed, hstand.logs]
  exact ⟨congrArg (Attended.mk v _ _ · _) hopened, hend, hstand.tracker, rfl⟩

/-- **The walks through both worlds are one** along a route of blind plugins. -/
theorem walk_alike {route : List (Visit σ)} (hroute : ∀ v ∈ route, v.unit.inst.plugin.Blind)
    {s s' : Stand σ} (h : s.Alike s') : (p.walk route s).Alike (p.walk route s') := by
  induction route generalizing s s' with
  | nil => exact ⟨rfl, rfl, h⟩
  | cons v rest ih =>
    obtain ⟨hv, hrest⟩ := List.forall_mem_cons.mp hroute
    have hstep : (p.step v s).Alike (p.step v s') := by
      unfold step
      split
      · exact ⟨rfl, rfl, h⟩
      · obtain ⟨hattend, hstand⟩ := attend_alike hp hblind hv h
        dsimp only
        rw [hattend]
        exact ⟨rfl, rfl, hstand⟩
    exact hstep.andThen fun _ _ => ih hrest

end Pipeline

end Alike

/-! ## What plugins are executed with -/

section Noting

/-- A plugin that first notes its number and its options. -/
def Plugin.noting (note : Nat → Resolved → σ → σ) (p : Plugin σ) : Plugin σ :=
  { p with execute := fun id services log options => do
      Act.modify fun w => { w with host := note id options w.host }
      p.execute id services log options }

theorem Plugin.Blind.noting {p : Plugin σ} (h : p.Blind) (note : Nat → Resolved → σ → σ) :
    (p.noting note).Blind := fun id services log options hs =>
  (Act.blind_modify fun _ _ ⟨ns, h⟩ => ⟨ns, by rw [h]⟩).bind fun _ => h id services log options hs

variable (note : Nat → Resolved → σ → σ)

/-- A context whose plugins note what they are executed with. -/
def Context.noting (c : Context σ) : Context σ :=
  { c with
    tools := c.tools.map fun _ => Instance.mapPlugin (Plugin.noting note)
    utilities := c.utilities.map fun _ => Instance.mapPlugin (Plugin.noting note) }

theorem Context.PluginsOf.noting {c : Context σ} {r : Registry σ} (h : c.PluginsOf r) :
    (c.noting note).PluginsOf (r.mapPlugins (Plugin.noting note)) where
  tools := by rw [Context.noting, h.tools]; rfl
  utilities := by rw [Context.noting, h.utilities]; rfl

/-- A pipeline whose plugins note what they are executed with, those that stages invoke and those
that plugins invoke. -/
def Pipeline.noting (p : Pipeline σ ρ) : Pipeline σ ρ :=
  { p with
    registry := p.registry.mapPlugins (Plugin.noting note)
    context := p.context.noting note }

end Noting

namespace Pipeline

/-- The plugins that a run executes for the sections that it visits, each with its options. -/
def executed (p : Pipeline σ ρ) (w : World σ) : List (Visit σ × Instance σ × Resolved) :=
  (executions p.registry (p.journey w).visited).map fun e =>
    (e.1, e.2, resolve e.2.plugin.options e.1.sect.values)

/-! ## The runs -/

/-- Whether the runs of two pipelines in a world are one but for what they notice. -/
structure SameRun (p q : Pipeline σ ρ) (w : World σ) (j : ρ) : Prop where
  /-- The logs and the state are the same. -/
  report : (q.run w j).1 = (p.run w j).1
  journal : (q.run w j).2.journal = (p.run w j).2.journal
  visited : (q.journey w).visited = (p.journey w).visited
  executed : q.executed w = p.executed w
  env : (q.run w j).2.world.env = (p.run w j).2.world.env
  world : (p.run w j).2.world.Alike (q.run w j).2.world

variable {p : Pipeline σ ρ} {s : Sections}

theorem sameRun_withSections (hp : p.context.PluginsOf p.registry) (hblind : p.registry.Blind)
    (h : p.context.config.AddsUnmatched p.registry.containsKey s) (w : World σ) (journal : ρ) :
    p.SameRun (p.withSections s) w journal := by
  obtain ⟨hopening, hworld⟩ := event_alike (p := p) .runStarted p.policy.name none none
    p.policy.digest ((World.Alike.refl w).notice p.unmatched (p.withSections s).unmatched)
  have hroute : ∀ v ∈ p.route, v.unit.inst.plugin.Blind := by
    intro v hv
    exact hblind _ _ _ (Registry.lookup?_of_mem_ordered (unit_of_mem_routeFrom hv))
  have hjourney : (p.journey w).Alike ((p.withSections s).journey w) := by
    rw [journey, journey, route_withSections h, walk_withSections hp h]
    exact walk_alike hp hblind hroute ⟨hworld, rfl, rfl⟩
  obtain ⟨hclosing, hend⟩ := closing_alike (p := p) (p.journey w).outcome hjourney.stand.world
  have hevents : (p.withSections s).events w = p.events w := by
    unfold events Journey.events
    simp only [hjourney.visited, hjourney.outcome]
    exact congrArg₂ (fun e e' => e :: (_ ++ [e'])) hopening hclosing
  have halike : (p.run w journal).2.world.Alike ((p.withSections s).run w journal).2.world := by
    rw [run_eq, run_eq]
    simp only [hjourney.outcome]
    exact hend
  constructor
  case report =>
    rw [run_eq, run_eq]
    simp only [hjourney.outcome, hjourney.stand.logs]
    rfl
  case journal =>
    rw [run_eq, run_eq]
    simp only [hevents]
    rfl
  case visited => exact hjourney.visited
  case executed =>
    unfold executed
    rw [hjourney.visited]
    rfl
  case env => exact halike.env
  case world => exact halike

/-- **Sections that match nothing do not disturb a run.** However many of them stand anywhere in a
configuration and whatever they hold, the run has the same report and executes the same plugins
with the same options, those too that plugins invoke, and it leaves the same world but for its
notices. -/
theorem run_unmatched (hp : p.context.PluginsOf p.registry) (hblind : p.registry.Blind)
    (h : p.context.config.AddsUnmatched p.registry.containsKey s) (w : World σ) (journal : ρ) :
    let q := p.withSections s
    p.SameRun q w journal ∧ q.context.invoke = p.context.invoke ∧
    ∀ note : Nat → Resolved → σ → σ, (p.noting note).SameRun (q.noting note) w journal := by
  intro q
  refine ⟨sameRun_withSections hp hblind h w journal, Context.invoke_withSections hp h, ?_⟩
  intro note
  refine sameRun_withSections (p := p.noting note) (hp.noting note)
    (hblind.mapPlugins fun _ hplugin => hplugin.noting note) ?_ w journal
  have hknown : (p.noting note).registry.containsKey = p.registry.containsKey :=
    funext (p.registry.containsKey_mapPlugins (Plugin.noting note))
  rw [hknown]
  exact h

/-! ## A stage with a tool -/

/-- A stage that invokes a tool in each of its two sections. What actors are asked for is noted. -/
def stageWithTool : Pipeline (List String) Unit :=
  let note := fun call calls => calls ++ [call]
  let tool : Actor := ⟨.tool, "T", 0, OptionSpec.declare Dict.empty "level" "1" "", none, none,
    { Part.idle with env := Dict.ofList [("T", "on")] }⟩
  let stage : Actor := ⟨.stage, "A", 0, Dict.empty, none, none,
    { Part.idle with invocations := [(.tool, "T", Dict.empty)] }⟩
  let r := ((Registry.new Dict.empty).register "A" .stage (stage.plugin note)).registry
  let r := (r.register "T" .tool (tool.plugin note)).registry
  { policy := ⟨"stage with tool", false, Limits.unlimited, none⟩
    registry := r
    context := ⟨Uuid.ofNat 1, Sections.ofList [("A:1", Dict.empty),
      ("T", Dict.ofList [("level", "2")]), ("A:2", Dict.ofList [("parent", "A:1")])],
      fun _ host => (⟨0, .ok ⟨0, "", "", false⟩⟩, host), none, none, r.tools, r.utilities⟩
    recorder := fun _ _ => () }

/-- Its sections, with three new ones among them. -/
def sectionsAmongOthers : Sections := Sections.ofList [("STOP Elsewhere", Dict.empty),
  ("A:1", Dict.empty), ("SKIP Nowhere:1", Dict.ofList [("plugin", "T")]),
  ("T", Dict.ofList [("level", "2")]), ("Nowhere", Dict.ofList [("parent", "A:1")]),
  ("A:2", Dict.ofList [("parent", "A:1")])]

/-- Notes the number of a plugin with the values of its options. -/
def noteValues (id : Nat) (options : Resolved) (calls : List String) : List String :=
  calls ++ [s!"{id}: {Actor.valuesLine options}"]

/-- Stage and tool are executed twice each, and three notices are all that comes of the others. -/
theorem run_unmatched_stageWithTool :
    let p := stageWithTool
    let q := p.withSections sectionsAmongOthers
    let w : World (List String) := World.start [] ⟨0, 0⟩ false
    p.context.PluginsOf p.registry ∧ p.registry.Blind ∧
    p.context.config.AddsUnmatched p.registry.containsKey sectionsAmongOthers ∧
    p.unmatched.length = 0 ∧ q.unmatched.length = 3 ∧
    (p.run w ()).1.logs.map (fun log => (log.section_, log.status)) = [("A:1", 0), ("A:2", 0)] ∧
    p.SameRun q w () ∧
    ((q.noting noteValues).run w ()).2.world.host =
      ["0: ", "execute A", "1: level=2", "execute T", "0: ", "execute A", "1: level=2",
        "execute T"] := by
  have hplugins : stageWithTool.context.PluginsOf stageWithTool.registry := ⟨rfl, rfl⟩
  have hblind : stageWithTool.registry.Blind :=
    ((Registry.Every.new Dict.empty).register _ _ (blind_actor _ _)).register _ _ (blind_actor _ _)
  have hadds : stageWithTool.context.config.AddsUnmatched stageWithTool.registry.containsKey
      sectionsAmongOthers := ⟨by decide +kernel, by decide +kernel⟩
  have hunmatched : stageWithTool.unmatched.length = 0 ∧
      (stageWithTool.withSections sectionsAmongOthers).unmatched.length = 3 := by decide +kernel
  have hlogs : (stageWithTool.run (World.start [] ⟨0, 0⟩ false) ()).1.logs.map
      (fun log => (log.section_, log.status)) = [("A:1", 0), ("A:2", 0)] := by decide +kernel
  have hhost : ((stageWithTool.noting noteValues).run (World.start [] ⟨0, 0⟩ false)
      ()).2.world.host = ["0: ", "execute A", "1: level=2", "execute T", "0: ", "execute A",
        "1: level=2", "execute T"] := by decide +kernel
  obtain ⟨hsame, -, hnoting⟩ :=
    run_unmatched hplugins hblind hadds (World.start [] ⟨0, 0⟩ false) ()
  exact ⟨hplugins, hblind, hadds, hunmatched.1, hunmatched.2, hlogs, hsame,
    (hnoting noteValues).world.host.trans hhost⟩

end Pipeline

end Qualification
