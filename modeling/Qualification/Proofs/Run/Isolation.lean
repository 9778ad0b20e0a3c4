import Mathlib.Data.List.Forall2
import Qualification.Proofs.Run.Failure
import Qualification.Proofs.Run.Upshot
/-!
# What plugins write into their logs

Two runs are compared whose plugins do the same but write other things into the logs of some
sections. Nothing of this comes into another log, but for a status that fails: the sections whose
parent failed tell it on.

* `Plugin.Rewrites`: plugins that differ in what they write;
* `Log.Kin`, `heldBack?_kin`: what a section that is held back tells of other logs;
* `executeStage_rewrites`, `dispatch_rewrites`, `attend_rewrites`, **`walk_rewrites`**: from one
  invocation to a run;
* **`upshot_isolated`**: what comes of an invocation, and where that is told.
-/

namespace Qualification

variable {σ ρ : Type}

/-! ## Plugins -/

/-- Whether two endings of a plugin are one but for what is written into the log, where it is free
to write something else. -/
inductive Ending.SameBut (free : Bool) (R : Int → Int → Prop) :
    Ending (Log × Except Fault Unit) → Ending (Log × Except Fault Unit) → Prop where
  | same (e : Ending (Log × Except Fault Unit)) : SameBut free R e e
  | written {log log' : Log} {result : Except Fault Unit} (hfree : free = true)
      (hstage : log'.stage = log.stage) (htitle : log'.section_ = log.section_)
      (hstatus : R log.status log'.status) :
      SameBut free R (.done (log, result)) (.done (log', result))

/-- Whether a plugin does what another one does, and writes something else into the logs of some
sections only, with statuses that are related. -/
structure Plugin.Rewrites (here : String → String → Bool) (R : Int → Int → Prop)
    (p q : Plugin σ) : Prop where
  options : q.options = p.options
  timeout : q.timeout = p.timeout
  world : ∀ id s log r w, (q.execute id s log r w).2 = (p.execute id s log r w).2
  ending : ∀ id s log r w, Ending.SameBut (here log.stage log.section_) R
    (p.execute id s log r w).1 (q.execute id s log r w).1

/-- Whether two logs are those of one section, with related statuses. -/
structure Log.Kin (R : Int → Int → Prop) (l l' : Log) : Prop where
  stage : l'.stage = l.stage
  title : l'.section_ = l.section_
  status : R l.status l'.status

/-- Whether statuses are related to themselves, and to failures only if they are failures. -/
structure KeepsSuccess (R : Int → Int → Prop) : Prop where
  refl : ∀ s, R s s
  zero : ∀ s s', R s s' → (s = 0 ↔ s' = 0)

variable {R : Int → Int → Prop}

theorem Log.Kin.refl (hR : KeepsSuccess R) (l : Log) : l.Kin R l := ⟨rfl, rfl, hR.refl _⟩

theorem Log.Kin.succeeded {l l' : Log} (hR : KeepsSuccess R) (h : l.Kin R l') :
    l'.succeeded = l.succeeded := by
  rw [Log.succeeded, Log.succeeded, Bool.eq_iff_iff, beq_iff_eq, beq_iff_eq,
    hR.zero _ _ h.status]

/-! ## Sections that are held back -/

section HeldBack

/-- The log of a section whose parent has failed with a status. -/
def failedParent (stage title parent : String) (status : Int) : Log :=
  (Log.new stage title).fail status s!"Parent stage '{parent}' failed: {describeStatus status}"

/-- Whether two logs of a section tell of statuses of its parent that are related. -/
def Told (R : Int → Int → Prop) (stage title : String) (values : Dict String) (l l' : Log) : Prop :=
  ∃ parent s s', parentOf? values = some parent ∧ R s s' ∧
    l = failedParent stage title parent s ∧ l' = failedParent stage title parent s'

/-- Whether two logs of a section that is held back are one, or tell of related statuses. -/
def Held (R : Int → Int → Prop) (stage title : String) (values : Dict String) (l l' : Log) : Prop :=
  l' = l ∨ Told R stage title values l l'

variable {stage title : String} {values : Dict String} {logs logs' : List Log}

theorem Held.kin {l l' : Log} (hR : KeepsSuccess R) (h : Held R stage title values l l') :
    l.Kin R l' := by
  rcases h with rfl | ⟨parent, s, s', -, hs, rfl, rfl⟩
  · exact Log.Kin.refl hR _
  · exact ⟨rfl, rfl, hs⟩

/-- Where statuses are the same, so is what is told of them. -/
theorem Held.eq {l l' : Log} (hR : ∀ s s', R s s' → s' = s) (h : Held R stage title values l l') :
    l' = l := by
  rcases h with rfl | ⟨parent, s, s', -, hs, rfl, rfl⟩
  · rfl
  · rw [hR s s' hs]

theorem isEmpty_kin (h : List.Forall₂ (Log.Kin R) logs logs') : logs'.isEmpty = logs.isEmpty := by
  cases h with
  | nil => rfl
  | cons _ _ => rfl

theorem relatedLogs_kin (parent : String) (h : List.Forall₂ (Log.Kin R) logs logs') :
    List.Forall₂ (Log.Kin R) (relatedLogs parent logs) (relatedLogs parent logs') := by
  have hsect := List.rel_filter (p := fun l : Log => l.section_ == parent)
    (q := fun l : Log => l.section_ == parent) (fun l l' hl => by simp [hl.title]) h
  have hstage := List.rel_filter (p := fun l : Log => l.stage == parent)
    (q := fun l : Log => l.stage == parent) (fun l l' hl => by simp [hl.stage]) h
  unfold relatedLogs
  dsimp only
  rw [isEmpty_kin hsect]
  split
  · exact hstage
  · exact hsect

theorem firstFailure_kin (hR : KeepsSuccess R) (h : List.Forall₂ (Log.Kin R) logs logs') :
    Option.Rel (Log.Kin R) (logs.find? fun l => !l.succeeded)
      (logs'.find? fun l => !l.succeeded) := by
  induction h with
  | nil => exact .none
  | cons hlog _ ih =>
    rw [List.find?_cons, List.find?_cons, hlog.succeeded hR]
    split
    · exact .some hlog
    · exact ih

/-- **A section is held back in both runs or in none,** and tells of its parent's status only. -/
theorem heldBack?_kin (hR : KeepsSuccess R) (h : List.Forall₂ (Log.Kin R) logs logs') :
    Option.Rel (Held R stage title values) (heldBack? stage title values logs)
      (heldBack? stage title values logs') := by
  unfold heldBack?
  split
  · exact .none
  · rename_i parent hparent
    have hrelated := relatedLogs_kin parent h
    dsimp only
    rw [isEmpty_kin hrelated]
    split
    · exact .some (.inl rfl)
    · have hfirst := firstFailure_kin hR hrelated
      generalize (relatedLogs parent logs).find? _ = failed at hfirst ⊢
      generalize (relatedLogs parent logs').find? _ = failed' at hfirst ⊢
      cases hfirst with
      | none => exact .none
      | some hlog => exact .some (.inr ⟨parent, _, _, hparent, hlog.status, rfl, rfl⟩)

end HeldBack

/-! ## Invocations -/

section Invocations

variable {here : String → String → Bool} {f : Plugin σ → Plugin σ}

/-- Whether two logs are one, unless they may differ, and of one section with related statuses. -/
structure Log.Rewritten (free : Bool) (R : Int → Int → Prop) (l l' : Log) : Prop where
  kept : free = false → l' = l
  kin : l.Kin R l'

theorem Ending.SameBut.log {free : Bool} {e e' : Ending (Log × Except Fault Unit)}
    (hR : KeepsSuccess R) (h : Ending.SameBut free R e e') (template : Log)
    (limit : Option Duration) :
    (e.log template limit).Rewritten free R (e'.log template limit) := by
  cases h with
  | same => exact ⟨fun _ => rfl, Log.Kin.refl hR _⟩
  | @written _ _ result hfree hstage htitle hstatus =>
    refine ⟨fun hkept => by simp [hfree] at hkept, ?_⟩
    cases result with
    | ok => exact ⟨hstage, htitle, hstatus⟩
    | error fault => exact ⟨hstage, htitle, hR.refl _⟩

/-- Plugins that do the same do the same under a limit. -/
theorem withLimit_sameBut {free : Bool} {x y : Act σ (Log × Except Fault Unit)}
    (h : ∀ w, (y w).2 = (x w).2 ∧ Ending.SameBut free R (x w).1 (y w).1)
    (limit : Option Duration) (w : World σ) :
    (withLimit limit y w).2 = (withLimit limit x w).2 ∧
      Ending.SameBut free R (withLimit limit x w).1 (withLimit limit y w).1 := by
  by_cases hnone : limit.map Duration.millisUp = some 0
  · rw [withLimit_of_none _ _ hnone, withLimit_of_none _ _ hnone]
    exact ⟨rfl, .same _⟩
  · rw [withLimit_of_begun _ _ hnone, withLimit_of_begun _ _ hnone]
    obtain ⟨hworld, hending⟩ := h (w.under limit)
    exact ⟨congrArg World.after hworld, hending⟩

theorem executeStage_rewrites (hR : KeepsSuccess R) {inst : Instance σ}
    (h : inst.plugin.Rewrites here R (f inst.plugin)) (c : Context σ) (limits : Limits)
    (stage title : String) (values : Dict String) (w : World σ) :
    (executeStage c limits stage title (inst.mapPlugin f) values w).2 =
        (executeStage c limits stage title inst values w).2 ∧
      (executeStage c limits stage title inst values w).1.Rewritten (here stage title) R
        (executeStage c limits stage title (inst.mapPlugin f) values w).1 := by
  have hoptions : (inst.mapPlugin f).plugin.options = inst.plugin.options := h.options
  have hlimit : (inst.mapPlugin f).limit limits = inst.limit limits := by
    rw [Instance.limit, show (inst.mapPlugin f).plugin.timeout = inst.plugin.timeout from h.timeout,
      Instance.limit]
  have htask : ∀ w₁, ((inst.mapPlugin f).task c stage title values w.instant w₁).2 =
        (inst.task c stage title values w.instant w₁).2 ∧
      Ending.SameBut (here stage title) R (inst.task c stage title values w.instant w₁).1
        ((inst.mapPlugin f).task c stage title values w.instant w₁).1 := by
    intro w₁
    unfold Instance.task
    rw [hoptions]
    exact ⟨h.world _ _ _ _ _,
      h.ending inst.id c.services (blankLog stage title _ w.instant) _ w₁⟩
  obtain ⟨hworld, hending⟩ := withLimit_sameBut htask (inst.limit limits)
    (w.notice (Context.resolveFor title inst.plugin.options values).2)
  rw [executeStage_eq, executeStage_eq]
  simp only [Instance.invocation, hlimit, hoptions, hworld, true_and]
  have hlog := hending.log hR
    (blankLog stage title (resolve inst.plugin.options values) w.instant) (inst.limit limits)
  refine ⟨fun hkept => ?_, hlog.kin.stage, hlog.kin.title, hlog.kin.status⟩
  rw [hlog.kept hkept]

/-- **An invocation is the same in both runs** but for what is written into its log. -/
theorem dispatch_rewrites (hR : KeepsSuccess R) {r : Registry σ} {unit : Registered σ}
    {values : Dict String}
    (h : ∀ inst, r.invoked? unit values = some inst → inst.plugin.Rewrites here R (f inst.plugin))
    (c : Context σ) (limits : Limits) (title : String) (w : World σ) :
    (dispatch (r.mapPlugins f) c limits (unit.mapPlugin f) title values w).2 =
        (dispatch r c limits unit title values w).2 ∧
      (dispatch r c limits unit title values w).1.Rewritten (here unit.key title) R
        (dispatch (r.mapPlugins f) c limits (unit.mapPlugin f) title values w).1 := by
  have hkey : (unit.mapPlugin f).key = unit.key := rfl
  unfold Registry.invoked? at h
  cases hselected : selectedPlugin? unit.key values with
  | none =>
    rw [hselected] at h
    rw [dispatch_of_own c limits title w hselected,
      dispatch_of_own c limits title w (by rwa [hkey])]
    exact executeStage_rewrites hR (h _ rfl) c limits unit.key title values w
  | some plugin =>
    rw [hselected] at h
    have hchosen' := r.chosen?_mapPlugins f plugin
    cases hchosen : r.chosen? plugin with
    | none =>
      rw [hchosen] at hchosen'
      rw [dispatch_of_missing c limits title w hselected hchosen,
        dispatch_of_missing c limits title w (by rwa [hkey]) hchosen', hkey]
      exact ⟨rfl, fun _ => rfl, Log.Kin.refl hR _⟩
    | some inst =>
      rw [hchosen] at hchosen'
      rw [dispatch_of_chosen c limits title w hselected hchosen,
        dispatch_of_chosen c limits title w (by rwa [hkey]) hchosen', hkey]
      obtain ⟨hworld, hlog⟩ :=
        executeStage_rewrites hR (h inst hchosen) c limits unit.key title values w
      exact ⟨hworld, fun hkept => congrArg (Log.withExtra · "plugin" plugin) (hlog.kept hkept),
        hlog.kin.stage, hlog.kin.title, hlog.kin.status⟩

end Invocations

/-! ## Runs -/

section Runs

variable (f : Plugin σ → Plugin σ) (here : String → String → Bool) (R : Int → Int → Prop)

/-- Whether a section that was visited in two runs is one but for what was written into logs. -/
structure Attended.Rewritten (x x' : Attended σ) : Prop where
  visit : x'.visit = x.visit.mapPlugin f
  manner : x'.manner = x.manner
  kin : x.log.Kin R x'.log
  /-- The log of a section is the same unless its own plugin writes something else. -/
  invoked : x.manner = .invoked → here x.visit.key x.visit.title = false → x'.log = x.log
  expired : x.manner = .expired → x'.log = x.log
  /-- A section that is held back tells of the status of its parent, and of nothing else. -/
  heldBack : x.manner = .heldBack →
    Held R x.visit.key x.visit.title x.visit.sect.values x.log x'.log

/-- Whether what sections find in two runs is one but for the logs. -/
structure Stand.Rewritten (s s' : Stand σ) : Prop where
  world : s'.world = s.world
  tracker : s'.tracker = s.tracker
  logs : List.Forall₂ (Log.Kin R) s.logs s'.logs

/-- Whether two walks are one but for what was written into logs. -/
structure Journey.Rewritten (j j' : Journey σ) : Prop where
  visited : List.Forall₂ (Attended.Rewritten f here R) j.visited j'.visited
  outcome : j'.outcome = j.outcome
  stand : j.stand.Rewritten R j'.stand

namespace Pipeline

variable {f here R} {p : Pipeline σ ρ} {v : Visit σ} {s s' : Stand σ}

/-- What becomes of a section in both runs, whatever the events of it are. -/
theorem deal_rewrites (hR : KeepsSuccess R)
    (hv : ∀ inst, p.registry.invoked? v.unit v.sect.values = some inst →
      inst.plugin.Rewrites here R (f inst.plugin)) (h : s.Rewritten R s') :
    let x := p.deal v s
    let x' := (p.mapPlugins f).deal (v.mapPlugin f) s'
    (∀ e₁ e₂ e₁' e₂', Attended.Rewritten f here R ⟨v, x.1, x.2.1, e₁, e₂⟩
      ⟨v.mapPlugin f, x'.1, x'.2.1, e₁', e₂'⟩) ∧
    x'.2.2.world = x.2.2.world ∧ x'.2.2.tracker = x.2.2.tracker := by
  have hviolation : (p.mapPlugins f).violation? s' = p.violation? s := by
    rw [violation?, violation?, h.tracker, h.world]
    rfl
  have hback : Option.Rel (Held R v.key v.title v.sect.values) (v.heldBack? s.logs)
      ((v.mapPlugin f).heldBack? s'.logs) := heldBack?_kin hR h.logs
  rcases p.deal_cases v s with ⟨violation, hs⟩ | ⟨hs, log, hheld⟩ | ⟨hs, hclear⟩
  · rw [deal_of_expired hs, deal_of_expired (hviolation.trans hs)]
    exact ⟨fun _ _ _ _ => ⟨rfl, rfl, Log.Kin.refl hR _, by simp, fun _ => rfl, by simp⟩, h.world,
      h.tracker⟩
  · rw [hheld] at hback
    generalize hheld' : (v.mapPlugin f).heldBack? s'.logs = held at hback
    cases hback with
    | some hlog =>
      rw [deal_of_heldBack hs hheld, deal_of_heldBack (hviolation.trans hs) hheld']
      exact ⟨fun _ _ _ _ => ⟨rfl, rfl, hlog.kin hR, by simp, by simp, fun _ => hlog⟩, h.world,
        h.tracker⟩
  · rw [hclear] at hback
    generalize hclear' : (v.mapPlugin f).heldBack? s'.logs = held at hback
    cases hback with
    | none =>
      obtain ⟨hworld, hlog⟩ :=
        dispatch_rewrites hR hv p.context p.policy.limits v.title s.world
      rw [deal_of_clear hs hclear, deal_of_clear (hviolation.trans hs) hclear', h.world, h.tracker]
      exact ⟨fun _ _ _ _ => ⟨rfl, rfl, hlog.kin, fun _ => hlog.kept, by simp, by simp⟩, hworld,
        rfl⟩

/-- Every log takes one event. -/
theorem world_logEvent (p : Pipeline σ ρ) (key : String) (index : Nat) (title : String) (log : Log)
    (w : World σ) : (p.logEvent key index title log w).2 = w.freshUuid.2 := by
  unfold logEvent
  split
  · rfl
  · rfl

theorem attend_rewrites (hR : KeepsSuccess R)
    (hv : ∀ inst, p.registry.invoked? v.unit v.sect.values = some inst →
      inst.plugin.Rewrites here R (f inst.plugin)) (h : s.Rewritten R s') :
    Attended.Rewritten f here R (p.attend v s).1
        ((p.mapPlugins f).attend (v.mapPlugin f) s').1 ∧
      (p.attend v s).2.Rewritten R ((p.mapPlugins f).attend (v.mapPlugin f) s').2 := by
  have hbegun : Stand.Rewritten R
      { s with world := (p.startEvent v.key v.index v.title s.world).2 }
      { s' with world := (p.startEvent v.key v.index v.title s'.world).2 } :=
    ⟨by rw [h.world], h.tracker, h.logs⟩
  obtain ⟨hrewritten, hworld, htracker⟩ := deal_rewrites hR hv hbegun
  have hattended : Attended.Rewritten f here R (p.attend v s).1
      ((p.mapPlugins f).attend (v.mapPlugin f) s').1 := hrewritten _ _ _ _
  refine ⟨hattended, ?_, htracker, ?_⟩
  · unfold attend
    simp only [world_logEvent]
    exact congrArg (fun w : World σ => w.freshUuid.2) hworld
  · rw [attend_logs, attend_logs]
    exact List.rel_append h.logs (.cons hattended.kin .nil)

theorem ends_rewritten (hR : KeepsSuccess R) {x x' : Attended σ}
    (h : Attended.Rewritten f here R x x') (policy : RunPolicy) :
    x'.ends policy = x.ends policy := by
  rw [Attended.ends, Attended.ends, h.manner, h.kin.succeeded hR]

theorem step_rewrites (hR : KeepsSuccess R)
    (hv : ∀ inst, p.registry.invoked? v.unit v.sect.values = some inst →
      inst.plugin.Rewrites here R (f inst.plugin)) (h : s.Rewritten R s') :
    (p.step v s).Rewritten f here R ((p.mapPlugins f).step (v.mapPlugin f) s') := by
  have hstops : (v.mapPlugin f).stops = v.stops := rfl
  unfold step
  rw [hstops]
  split
  · exact ⟨.nil, rfl, h⟩
  · obtain ⟨hattended, hstand⟩ := attend_rewrites hR hv h
    refine ⟨.cons hattended .nil, ?_, hstand⟩
    dsimp only
    rw [ends_rewritten hR hattended]
    rfl

end Pipeline

theorem Journey.Rewritten.andThen {j j' : Journey σ} (h : j.Rewritten f here R j')
    {next next' : Stand σ → Journey σ}
    (hnext : ∀ s s', s.Rewritten R s' → (next s).Rewritten f here R (next' s')) :
    (j.andThen next).Rewritten f here R (j'.andThen next') := by
  by_cases hthrough : j.outcome = .through
  · have hrest := hnext _ _ h.stand
    rw [andThen_of_through hthrough, andThen_of_through (h.outcome.trans hthrough)]
    exact ⟨List.rel_append h.visited hrest.visited, hrest.outcome, hrest.stand⟩
  · rw [andThen_of_ne hthrough, andThen_of_ne (h.outcome ▸ hthrough)]
    exact h

namespace Pipeline

variable {f here R} {p : Pipeline σ ρ}

theorem walk_rewrites (hR : KeepsSuccess R) {route : List (Visit σ)}
    (hroute : ∀ v ∈ route, ∀ inst, p.registry.invoked? v.unit v.sect.values = some inst →
      inst.plugin.Rewrites here R (f inst.plugin)) {s s' : Stand σ} (h : s.Rewritten R s') :
    (p.walk route s).Rewritten f here R
      ((p.mapPlugins f).walk (route.map (Visit.mapPlugin f)) s') := by
  induction route generalizing s s' with
  | nil => exact ⟨.nil, rfl, h⟩
  | cons v rest ih =>
    obtain ⟨hv, hrest⟩ := List.forall_mem_cons.mp hroute
    exact Journey.Rewritten.andThen f here R (step_rewrites hR hv h) fun _ _ hs => ih hrest hs

/-- **Nothing that a plugin writes into its log comes into another one,** but for a status that
fails. -/
theorem journey_rewrites (hR : KeepsSuccess R)
    (h : p.registry.Every fun q => q.Rewrites here R (f q)) (w : World σ) :
    (p.journey w).Rewritten f here R ((p.mapPlugins f).journey w) := by
  rw [journey, journey, route_mapPlugins, outset_mapPlugins]
  refine walk_rewrites hR (fun v hv inst hinst => ?_) ⟨rfl, rfl, .nil⟩
  exact Registry.Every.invoked h
    (h _ _ _ (Registry.lookup?_of_mem_ordered (unit_of_mem_routeFrom hv))) hinst

/-- Where statuses stay the same, so do all logs but those that are written in another way. -/
theorem others_of_rewritten (hR : ∀ s s', R s s' → s' = s) {x x' : Attended σ}
    (h : Attended.Rewritten f here R x x')
    (hother : x.manner = .invoked → here x.visit.key x.visit.title = false) : x'.log = x.log := by
  cases hmanner : x.manner with
  | invoked => exact h.invoked hmanner (hother hmanner)
  | expired => exact h.expired hmanner
  | heldBack => exact (h.heldBack hmanner).eq hR

end Pipeline

end Runs

/-- **However a plugin ends, one log comes of its invocation, and it stays in its place.** Of two
runs whose plugins do the same, and write other things into the logs of some sections, all other
logs are the same if the statuses are; if a status fails in another way, this is told by the
sections that it holds back, and by no others. -/
theorem upshot_isolated :
    (∀ (c : Context σ) (limits : Limits) (stage title : String) (inst : Instance σ)
      (values : Dict String) (w : World σ),
      Upshot c limits stage title inst values w
        (executeStage c limits stage title inst values w)) ∧
    ∀ (p : Pipeline σ ρ) (f : Plugin σ → Plugin σ) (here : String → String → Bool)
      (R : Int → Int → Prop), KeepsSuccess R →
      p.registry.Every (fun q => q.Rewrites here R (f q)) → ∀ (w : World σ) (journal : ρ),
      let j := p.journey w
      let j' := (p.mapPlugins f).journey w
      (p.run w journal).1.logs = j.visited.map Attended.log ∧
      ((p.mapPlugins f).run w journal).1.logs = j'.visited.map Attended.log ∧
      j.Rewritten f here R j' ∧
      ((∀ s s', R s s' → s' = s) → List.Forall₂ (fun x x' =>
        (x.manner = .invoked → here x.visit.key x.visit.title = false) → x'.log = x.log)
        j.visited j'.visited) := by
  refine ⟨upshot_executeStage, fun p f here R hR h w journal => ?_⟩
  have hrewritten := Pipeline.journey_rewrites hR h w
  exact ⟨p.logs_run w journal, (p.mapPlugins f).logs_run w journal, hrewritten,
    fun hsame => hrewritten.visited.imp fun _ _ hx => Pipeline.others_of_rewritten hsame hx⟩

/-! ## A parent and its child -/

section ParentAndChild

/-- A plugin that writes something else into the logs of some sections. -/
def Plugin.rewriting (here : String → String → Bool) (g : Log → Log) (p : Plugin σ) : Plugin σ :=
  { p with execute := fun id services log options => do
      let x ← p.execute id services log options
      return (if here log.stage log.section_ then g x.1 else x.1, x.2) }

theorem Plugin.rewrites_rewriting {R : Int → Int → Prop} {here : String → String → Bool}
    {g : Log → Log} (hg : ∀ l : Log, l.Kin R (g l)) (p : Plugin σ) :
    p.Rewrites here R (p.rewriting here g) := by
  have hboth : ∀ id s log r w, ((p.rewriting here g).execute id s log r w).2 =
        (p.execute id s log r w).2 ∧
      Ending.SameBut (here log.stage log.section_) R (p.execute id s log r w).1
        ((p.rewriting here g).execute id s log r w).1 := by
    intro id s log r w
    change (Act.bind (p.execute id s log r) _ w).2 = _ ∧
      Ending.SameBut _ R _ (Act.bind (p.execute id s log r) _ w).1
    unfold Act.bind
    generalize p.execute id s log r w = out
    obtain ⟨ending, w'⟩ := out
    cases ending with
    | panicked payload => exact ⟨rfl, .same _⟩
    | cut => exact ⟨rfl, .same _⟩
    | done x =>
      refine ⟨rfl, ?_⟩
      cases hhere : here log.stage log.section_ with
      | false => exact .same _
      | true => exact .written rfl (hg x.1).stage (hg x.1).title (hg x.1).status
  exact ⟨rfl, rfl, fun id s log r w => (hboth id s log r w).1,
    fun id s log r w => (hboth id s log r w).2⟩

/-- A stage that fails, and another one whose parent it is; the run passes over failures. -/
def parentAndChild : Pipeline Unit Unit :=
  let stage (ordering status : Int) : Plugin Unit :=
    { Plugin.simple "stage" fun _ _ log _ => Act.pure ({ log with status }, .ok ()) with ordering }
  let r := ((Registry.new Dict.empty).register "A" .stage (stage 1 7)).registry
  { policy := ⟨"parent and child", true, Limits.unlimited, none⟩
    registry := (r.register "B" .stage (stage 2 0)).registry
    context := ⟨Uuid.ofNat 1, Sections.ofList [("A", Dict.empty),
      ("B", Dict.ofList [("parent", "A")])], fun _ host => (⟨0, .ok ⟨0, "", "", false⟩⟩, host),
      none, none, Dict.empty, Dict.empty⟩
    recorder := fun _ _ => () }

/-- The sections of the parent. -/
def ofParent (stage _title : String) : Bool := stage == "A"

/-- What the parent puts out is not told by its child. -/
theorem upshot_isolated_parentAndChild :
    let p := parentAndChild
    let f := Plugin.rewriting (σ := Unit) ofParent fun l => { l with stdout := "put out" }
    let w : World Unit := World.start () ⟨0, 0⟩ false
    KeepsSuccess (· = ·) ∧ p.registry.Every (fun q => q.Rewrites ofParent (· = ·) (f q)) ∧
    ((p.mapPlugins f).run w ()).1.logs.map (fun l => (l.stage, l.stdout)) =
      [("A", "put out"), ("B", "")] ∧
    List.Forall₂ (fun x x' =>
      (x.manner = .invoked → ofParent x.visit.key x.visit.title = false) → x'.log = x.log)
      (p.journey w).visited ((p.mapPlugins f).journey w).visited := by
  intro p f w
  have hR : KeepsSuccess (· = ·) := ⟨fun _ => rfl, fun s s' h => by rw [h]⟩
  have hkin : ∀ l : Log, l.Kin (· = ·) { l with stdout := "put out" } := fun l => ⟨rfl, rfl, rfl⟩
  have hevery : p.registry.Every (fun q => q.Rewrites ofParent (· = ·) (f q)) :=
    fun _ _ inst _ => Plugin.rewrites_rewriting hkin inst.plugin
  obtain ⟨-, -, -, hothers⟩ := upshot_isolated.2 p f ofParent (· = ·) hR hevery w ()
  exact ⟨hR, hevery, by decide +kernel, hothers fun _ _ h => h.symm⟩

/-- **The status of a parent is told by its child;** and a plugin may take the start out of its
log. -/
theorem status_told_by_child :
    let p := parentAndChild
    let f := Plugin.rewriting (σ := Unit) ofParent fun l =>
      { l with status := if l.status = 7 then 8 else l.status }
    let w : World Unit := World.start () ⟨0, 0⟩ false
    p.registry.Every (fun q => q.Rewrites ofParent (fun s s' => s = 0 ↔ s' = 0) (f q)) ∧
    ofParent "B" "B" = false ∧
    (p.run w ()).1.logs.map (fun l => (l.stage, l.status, l.stderr)) =
      [("A", 7, ""), ("B", 7, "Parent stage 'A' failed: failed (7)")] ∧
    ((p.mapPlugins f).run w ()).1.logs.map (fun l => (l.stage, l.status, l.stderr)) =
      [("A", 8, ""), ("B", 8, "Parent stage 'A' failed: failed (8)")] ∧
    (executeStage p.context Limits.unlimited "A" "A"
      ⟨0, .stage, Plugin.simple "A" fun _ _ log _ =>
        Act.pure ({ log with startedAt := none }, .ok ())⟩ Dict.empty w).1.startedAt = none := by
  intro p f w
  have hkin : ∀ l : Log, l.Kin (fun s s' => s = 0 ↔ s' = 0)
      { l with status := if l.status = 7 then 8 else l.status } := by
    intro l
    refine ⟨rfl, rfl, ?_⟩
    dsimp only
    split
    next h => simp [h]
    next => rfl
  exact ⟨fun _ _ inst _ => Plugin.rewrites_rewriting hkin inst.plugin, rfl, by decide +kernel,
    by decide +kernel, by decide +kernel⟩

end ParentAndChild

end Qualification
