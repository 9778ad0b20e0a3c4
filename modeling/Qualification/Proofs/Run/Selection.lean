import Qualification.Proofs.Run.Gate
import Qualification.Proofs.Run.Position
import Qualification.Proofs.Run.Upshot
/-!
# The plugin that a section selects

A section may name a plugin. It then invokes the tool of that name, or else the utility, in the
place of the plugin of its stage; the log is that of the stage all the same, and tells the name.

* `namedPlugin?`, `selectedPlugin?_eq_none`, `selectedPlugin?_eq_some`: names that select another
  plugin than that of the stage;
* `dispatch_of_stages`, `dispatch_of_other`: the stages of a registry are never selected, and the
  plugin of the stage has no part in what another one does;
* `Selects`, `selects_dispatch`: what is invoked for a section, and what its log tells;
* **`invoked_of_section`**: every invocation, and those of a run;
* `restless`: a tool whose log is not that of the section, and one that is cut off.
-/

namespace Qualification

variable {σ ρ : Type}

/-- The plugin that a section names, without the blanks around it. -/
def namedPlugin? (values : Dict String) : Option String := (values.get? "plugin").map Text.trim

/-- Whether a section names another plugin than that of its stage. -/
structure Names (stage : String) (values : Dict String) (name : String) : Prop where
  named : namedPlugin? values = some name
  nonempty : name ≠ ""
  other : name ≠ stage

/-- Whether a section leaves its stage the plugin of that. -/
def NamesOwn (stage : String) (values : Dict String) : Prop :=
  namedPlugin? values = none ∨ namedPlugin? values = some "" ∨ namedPlugin? values = some stage

section Selected

variable {stage name : String} {values : Dict String}

theorem selectedPlugin?_eq_some :
    selectedPlugin? stage values = some name ↔ Names stage values name := by
  rw [selectedPlugin?, Option.filter_eq_some_iff]
  constructor
  · rintro ⟨hnamed, htest⟩
    obtain ⟨hnonempty, hother⟩ : name ≠ "" ∧ name ≠ stage := by simpa using htest
    exact ⟨hnamed, hnonempty, hother⟩
  · rintro ⟨hnamed, hnonempty, hother⟩
    exact ⟨hnamed, by simp [hnonempty, hother]⟩

theorem selectedPlugin?_eq_none : selectedPlugin? stage values = none ↔ NamesOwn stage values := by
  rw [selectedPlugin?, Option.filter_eq_none_iff, NamesOwn]
  cases hnamed : namedPlugin? values with
  | none => simp [show (values.get? "plugin").map Text.trim = none from hnamed]
  | some name =>
    simp [show (values.get? "plugin").map Text.trim = some name from hnamed, or_iff_not_imp_left]

end Selected

/-! ## What has no part in an invocation -/

section Independent

variable (r : Registry σ) (c : Context σ) (limits : Limits) (unit : Registered σ)
  (title : String) (values : Dict String) (w : World σ)

/-- **Stages are not selected**: which of them there are makes no difference to an invocation. -/
theorem dispatch_of_stages (stages : Dict (Instance σ)) :
    dispatch { r with stages } c limits unit title values w =
      dispatch r c limits unit title values w := by
  cases hselected : selectedPlugin? unit.key values with
  | none =>
    rw [dispatch_of_own c limits title w hselected, dispatch_of_own c limits title w hselected]
  | some name =>
    have hchosen : ({ r with stages } : Registry σ).chosen? name = r.chosen? name := rfl
    cases h : r.chosen? name with
    | none =>
      rw [dispatch_of_missing c limits title w hselected h,
        dispatch_of_missing c limits title w hselected (hchosen.trans h)]
    | some inst =>
      rw [dispatch_of_chosen c limits title w hselected h,
        dispatch_of_chosen c limits title w hselected (hchosen.trans h)]

variable {values}

/-- The plugin of the stage has no part in a section that names another one. -/
theorem dispatch_of_other {name : String} (h : Names unit.key values name) (inst : Instance σ) :
    dispatch r c limits { unit with inst } title values w =
      dispatch r c limits unit title values w := by
  have hselected := selectedPlugin?_eq_some.mpr h
  cases hchosen : r.chosen? name with
  | none =>
    rw [dispatch_of_missing c limits title w hselected hchosen,
      dispatch_of_missing c limits title w (by exact hselected) hchosen]
  | some inst' =>
    rw [dispatch_of_chosen c limits title w hselected hchosen,
      dispatch_of_chosen c limits title w (by exact hselected) hchosen]

end Independent

/-! ## What is invoked -/

section Selects

variable (r : Registry σ) (c : Context σ) (limits : Limits) (unit : Registered σ)
  (title : String) (values : Dict String) (w : World σ)

/-- What comes of a section of a stage: the log and the world. -/
structure Selects (x : Log × World σ) : Prop where
  /-- Without a name, or with its own key, the plugin of the stage is executed. -/
  own : NamesOwn unit.key values → Upshot c limits unit.key title unit.inst values w x
  /-- With another name the tool of that name is executed, with its own options and limit. -/
  tool : ∀ name inst, Names unit.key values name → r.lookup? .tool name = some inst →
    ∃ log, Upshot c limits unit.key title inst values w (log, x.2) ∧
      x.1 = log.withExtra "plugin" name
  /-- Where there is no tool, this is the utility. -/
  utility : ∀ name inst, Names unit.key values name → r.lookup? .tool name = none →
    r.lookup? .utility name = some inst →
    ∃ log, Upshot c limits unit.key title inst values w (log, x.2) ∧
      x.1 = log.withExtra "plugin" name
  /-- Where there is neither, nothing happens. -/
  missing : ∀ name, Names unit.key values name → r.lookup? .tool name = none →
    r.lookup? .utility name = none →
    x.2 = w ∧ x.1 = ((Log.new unit.key title).withExtra "plugin" name).fail 1 ("Plugin '" ++ name ++
      "' is not registered as stage '" ++ unit.key ++ "', a tool or a utility")
  /-- The log tells the name, whatever was executed and however that ended. -/
  extra : ∀ name, Names unit.key values name → x.1.extra.get? "plugin" = some name

theorem selects_dispatch :
    Selects r c limits unit title values w (dispatch r c limits unit title values w) where
  own h := by
    rw [dispatch_of_own c limits title w (selectedPlugin?_eq_none.mpr h)]
    exact upshot_executeStage c limits unit.key title unit.inst values w
  tool name inst h htool := by
    have hchosen : r.chosen? name = some inst := by rw [Registry.chosen?, htool, Option.some_or]
    rw [dispatch_of_chosen c limits title w (selectedPlugin?_eq_some.mpr h) hchosen]
    exact ⟨_, upshot_executeStage c limits unit.key title inst values w, rfl⟩
  utility name inst h htool hutility := by
    have hchosen : r.chosen? name = some inst := by
      rw [Registry.chosen?, htool, Option.none_or, hutility]
    rw [dispatch_of_chosen c limits title w (selectedPlugin?_eq_some.mpr h) hchosen]
    exact ⟨_, upshot_executeStage c limits unit.key title inst values w, rfl⟩
  missing name h htool hutility := by
    have hchosen : r.chosen? name = none := by
      rw [Registry.chosen?, htool, Option.none_or, hutility]
    rw [dispatch_of_missing c limits title w (selectedPlugin?_eq_some.mpr h) hchosen]
    exact ⟨rfl, rfl⟩
  extra name h := by
    have hselected := selectedPlugin?_eq_some.mpr h
    cases hchosen : r.chosen? name with
    | none =>
      rw [dispatch_of_missing c limits title w hselected hchosen]
      simp [Log.withExtra, Log.fail]
    | some inst =>
      rw [dispatch_of_chosen c limits title w hselected hchosen]
      simp [Log.withExtra]

/-- **What is invoked for a section.** The plugin of its stage, or else the tool or the utility that
it names, is executed with its own options and under its own limit, or under that of the run if it
has none; and one log comes of it, which is that of the section in its stage if the plugin leaves
these two alone. Neither the other stages nor, for a section with a name, the plugin of the stage
have a part in this; nor have tools and utilities for one without. The logs of a run come about
so. -/
theorem invoked_of_section :
    (let x := dispatch r c limits unit title values w
     Selects r c limits unit title values w x ∧
     (∀ stages, dispatch { r with stages } c limits unit title values w = x) ∧
     (NamesOwn unit.key values → ∀ r', dispatch r' c limits unit title values w = x) ∧
     (∀ name, Names unit.key values name → ∀ inst,
       dispatch r c limits { unit with inst } title values w = x) ∧
     ((∀ inst, r.invoked? unit values = some inst → inst.plugin.KeepsLabels) →
       x.1.IsOf unit.key title)) ∧
    (∀ inst : Instance σ,
      (∀ own, inst.plugin.timeout = some own → inst.limit limits = some own) ∧
      (inst.plugin.timeout = none →
        inst.limit limits = limits.stageSeconds.map Duration.ofSeconds)) ∧
    ∀ (p : Pipeline σ ρ) (w : World σ), ∀ y ∈ (p.journey w).visited, y.manner = .invoked →
      (∃ w₁ w₂, Selects p.registry p.context p.policy.limits y.visit.unit y.visit.title
        y.visit.sect.values w₁ (y.log, w₂)) ∧
      (y.KeepsLabels p.registry → y.log.IsOf y.visit.key y.visit.title) := by
  refine ⟨⟨selects_dispatch r c limits unit title values w,
      dispatch_of_stages r c limits unit title values w, fun h r' => ?own,
      fun _ h inst => dispatch_of_other r c limits unit title w h inst,
      fun hkeeps => isOf_dispatch_of_invoked c limits hkeeps title w⟩,
    fun inst => ⟨fun _ hown => Instance.limit_of_own hown limits,
      fun hnone => Instance.limit_of_none hnone limits⟩,
    fun p w y hy hmanner => ⟨?run, Pipeline.labelled_journey hy⟩⟩
  case own =>
    have hselected := selectedPlugin?_eq_none.mpr h
    rw [dispatch_of_own c limits title w hselected, dispatch_of_own c limits title w hselected]
  case run =>
    obtain ⟨v, -, s, s', hattend⟩ := Pipeline.attend_of_mem_walk hy
    rcases Pipeline.attend_cases hattend with hexpired | ⟨hheld, -⟩ | ⟨-, -, w₁, hlog⟩
    · simp [hexpired] at hmanner
    · simp [hheld] at hmanner
    · rw [hlog, Pipeline.visit_of_attend hattend]
      exact ⟨w₁, _, selects_dispatch ..⟩

end Selects

/-! ## A key in every role -/

/-- An actor of each role under one key, and what they are asked for is noted. -/
def inEveryRole : Registry (List String) :=
  let actor (role : Role) : Plugin (List String) := Actor.plugin
    ⟨role, role.label, 0, Dict.empty, none, none, { Part.idle with
      extra := Dict.ofList [("plugin", "its own")], fault := ["out of order"] }⟩
    fun call calls => calls ++ [call]
  let r := ((Registry.new Dict.empty).register "B" .stage (actor .stage)).registry
  let r := (r.register "B" .tool (actor .tool)).registry
  (r.register "B" .utility (actor .utility)).registry

/-- The tool is executed, and the log tells its name though it wrote another one and failed. -/
theorem invoked_of_section_inEveryRole :
    let r := inEveryRole
    let c : Context (List String) := ⟨Uuid.ofNat 1, Sections.ofList [],
      fun _ host => (⟨0, .ok ⟨0, "", "", false⟩⟩, host), none, none, r.tools, r.utilities⟩
    let unit : Registered (List String) := ⟨"A", ⟨7, .stage, Plugin.simple "A" fun _ _ _ _ =>
      Act.panicWith none⟩⟩
    let values := Dict.ofList [("plugin", " B ")]
    let x := dispatch r c Limits.unlimited unit "A:1" values (World.start [] ⟨0, 0⟩ false)
    Names unit.key values "B" ∧ x.1.extra.get? "plugin" = some "B" ∧
      (∀ stages, dispatch { r with stages } c Limits.unlimited unit "A:1" values
        (World.start [] ⟨0, 0⟩ false) = x) ∧
      x.1.IsOf "A" "A:1" ∧ x.1.status = faultStatus ∧ x.2.host = ["execute tool"] := by
  intro r c unit values x
  have hnames : Names unit.key values "B" := ⟨by decide +kernel, by decide, by decide⟩
  have hr : r.KeepsLabels := (((Registry.Every.new _).register _ _ (keepsLabels_actor _ _)).register
    _ _ (keepsLabels_actor _ _)).register _ _ (keepsLabels_actor _ _)
  have hunit : unit.inst.plugin.KeepsLabels := fun _ _ _ _ => Act.yields_panicWith none
  obtain ⟨⟨hselects, hstages, -, -, hlabels⟩, -⟩ := invoked_of_section (ρ := Unit) r c
    Limits.unlimited unit "A:1" values (World.start [] ⟨0, 0⟩ false)
  exact ⟨hnames, hselects.extra "B" hnames, hstages, hlabels fun _ => hr.invoked hunit,
    by decide +kernel, by decide +kernel⟩

/-- A tool that puts its log under another stage and another section, and one that works for five
seconds and has no limit of its own. -/
def restless : Registry Unit :=
  let r := ((Registry.new Dict.empty).register "Relabelling" .tool
    (Plugin.relabelling "C" "C:1" 0)).registry
  (r.register "Slow" .tool (Plugin.slow 5000)).registry

/-- The log of a tool need not be that of the section; and the limit of the run cuts off a tool that
has none. -/
theorem invoked_of_restless :
    let c : Context Unit := ⟨Uuid.ofNat 1, Sections.empty,
      fun _ host => (⟨0, .ok ⟨0, "", "", false⟩⟩, host), none, none, restless.tools, Dict.empty⟩
    let unit : Registered Unit := ⟨"A", ⟨7, .stage, Plugin.slow 0⟩⟩
    let log (name : String) : Log := (dispatch restless c ⟨some 1, none⟩ unit "A:1"
      (Dict.ofList [("plugin", name)]) (World.start () ⟨0, 0⟩ false)).1
    ((log "Relabelling").stage = "C" ∧ (log "Relabelling").section_ = "C:1") ∧
    (restless.lookup? .tool "Slow").map (fun inst => inst.plugin.timeout) = some none ∧
      (log "Slow").status = timeoutStatus ∧ (log "Slow").stderr = "Stage 'A:1' timed out after 1s" := by
  decide +kernel

end Qualification
