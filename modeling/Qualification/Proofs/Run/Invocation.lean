import Qualification.Proofs.Plugin.Labels
import Qualification.Run.Dispatch
import Qualification.Run.Gate
/-!
# Invocations

An invocation leaves one log, under the stage and the section that it was made for, and nothing but
what the plugin does for this section comes into it.

* `Registry.invoked?`: the plugin of a section;
* `dispatch_of_own`, `dispatch_of_chosen`, `dispatch_of_missing`: the three ways of an invocation;
* `isOf_heldBack`, **`isOf_dispatch_of_invoked`**: logs are those of their sections;
* `Registry.mapPlugins`: a registry with other plugins in the same places;
* `Plugin.elsewhere`, `Registry.elsewhere`: plugins that may do anything for other sections;
* **`dispatch_elsewhere`**: they are invoked for a section as the plugins themselves.
-/

namespace Qualification

variable {σ : Type}

/-! ## The stage and the section of a log -/

theorem isOf_heldBack {stage title : String} {values : Dict String} {logs : List Log} {log : Log}
    (h : heldBack? stage title values logs = some log) : log.IsOf stage title := by
  unfold heldBack? at h
  split at h
  · cases h
  · dsimp only at h
    split at h
    · cases h
      exact (Log.isOf_new stage title).fail _ _
    · obtain ⟨failed, -, rfl⟩ := Option.map_eq_some_iff.mp h
      exact (Log.isOf_new stage title).fail _ _

/-- What is done under a time limit is done. -/
theorem Act.Yields.withLimit {α : Type} {x : Act σ α} {P : α → Prop} (h : x.Yields P)
    (limit : Option Duration) : Act.Yields (Qualification.withLimit limit x) P := by
  intro w a w' hdone
  unfold Qualification.withLimit at hdone
  dsimp only at hdone
  split at hdone
  · cases hdone
  · generalize hx : x _ = out at hdone
    obtain ⟨ending, w₁⟩ := out
    cases hdone
    exact h _ _ _ hx

theorem isOf_executeStage (c : Context σ) (limits : Limits) (stage title : String)
    {inst : Instance σ} (h : inst.plugin.KeepsLabels) (values : Dict String) (w : World σ) :
    (executeStage c limits stage title inst values w).1.IsOf stage title := by
  unfold executeStage
  dsimp only
  generalize hout : withLimit _ _ _ = out
  obtain ⟨ending, w'⟩ := out
  cases ending with
  | done a =>
    obtain ⟨log, result⟩ := a
    have hlog : log.IsOf stage title := (h _ _ _ _).withLimit _ _ _ _ hout
    cases result with
    | ok => exact ⟨hlog.stage, hlog.title⟩
    | error fault => exact ⟨hlog.stage, hlog.title⟩
  | panicked payload => exact ⟨rfl, rfl⟩
  | cut => exact ⟨rfl, rfl⟩

/-! ## The plugin of a section -/

/-- The tool or else the utility of a key. -/
def Registry.chosen? (r : Registry σ) (key : String) : Option (Instance σ) :=
  (r.lookup? .tool key).or (r.lookup? .utility key)

/-- The plugin that a section of a stage invokes, if it is there: the one that the section selects,
or else that of the stage. -/
def Registry.invoked? (r : Registry σ) (unit : Registered σ) (values : Dict String) :
    Option (Instance σ) :=
  match selectedPlugin? unit.key values with
  | none => some unit.inst
  | some plugin => r.chosen? plugin

section Dispatch

variable {r : Registry σ} {unit : Registered σ} {values : Dict String} {plugin : String}
  (c : Context σ) (limits : Limits) (title : String) (w : World σ)

theorem dispatch_of_own (h : selectedPlugin? unit.key values = none) :
    dispatch r c limits unit title values w =
      executeStage c limits unit.key title unit.inst values w := by
  simp only [dispatch, h]

theorem dispatch_of_chosen (h : selectedPlugin? unit.key values = some plugin) {inst : Instance σ}
    (hchosen : r.chosen? plugin = some inst) : dispatch r c limits unit title values w =
      let x := executeStage c limits unit.key title inst values w
      (x.1.withExtra "plugin" plugin, x.2) := by
  unfold Registry.chosen? at hchosen
  simp only [dispatch, h, hchosen]

theorem dispatch_of_missing (h : selectedPlugin? unit.key values = some plugin)
    (hchosen : r.chosen? plugin = none) : dispatch r c limits unit title values w =
      (((Log.new unit.key title).withExtra "plugin" plugin).fail 1
        s!"Plugin '{plugin}' is not registered as stage '{unit.key}', a tool or a utility", w) := by
  unfold Registry.chosen? at hchosen
  simp only [dispatch, h, hchosen]

/-- An invocation has the status and the world of the plugin that is invoked. -/
theorem dispatch_of_invoked {inst : Instance σ} (h : r.invoked? unit values = some inst) :
    (dispatch r c limits unit title values w).1.status =
        (executeStage c limits unit.key title inst values w).1.status ∧
      (dispatch r c limits unit title values w).2 =
        (executeStage c limits unit.key title inst values w).2 := by
  unfold Registry.invoked? at h
  cases hselected : selectedPlugin? unit.key values with
  | none =>
    rw [hselected] at h
    cases h
    rw [dispatch_of_own c limits title w hselected]
    exact ⟨rfl, rfl⟩
  | some plugin =>
    rw [hselected] at h
    rw [dispatch_of_chosen c limits title w hselected h]
    exact ⟨rfl, rfl⟩

end Dispatch

theorem Registry.Every.chosen {P : Plugin σ → Prop} {r : Registry σ} (hr : r.Every P)
    {key : String} {inst : Instance σ} (hinst : r.chosen? key = some inst) : P inst.plugin := by
  rcases Option.or_eq_some_iff.mp hinst with hinst | ⟨-, hinst⟩
  · exact hr _ _ _ hinst
  · exact hr _ _ _ hinst

theorem Registry.Every.invoked {P : Plugin σ → Prop} {r : Registry σ} (hr : r.Every P)
    {unit : Registered σ} (h : P unit.inst.plugin) {values : Dict String} {inst : Instance σ}
    (hinst : r.invoked? unit values = some inst) : P inst.plugin := by
  unfold Registry.invoked? at hinst
  split at hinst
  · cases hinst
    exact h
  · exact hr.chosen hinst

theorem Registry.KeepsLabels.invoked {r : Registry σ} (hr : r.KeepsLabels) {unit : Registered σ}
    (h : unit.inst.plugin.KeepsLabels) {values : Dict String} {inst : Instance σ}
    (hinst : r.invoked? unit values = some inst) : inst.plugin.KeepsLabels :=
  Every.invoked hr h hinst

/-- **The log of a section is under the key of its stage and its title** if the plugin that it
invokes leaves these alone. -/
theorem isOf_dispatch_of_invoked {r : Registry σ} (c : Context σ) (limits : Limits)
    {unit : Registered σ} {values : Dict String}
    (h : ∀ inst, r.invoked? unit values = some inst → inst.plugin.KeepsLabels) (title : String)
    (w : World σ) : (dispatch r c limits unit title values w).1.IsOf unit.key title := by
  unfold Registry.invoked? at h
  cases hselected : selectedPlugin? unit.key values with
  | none =>
    rw [hselected] at h
    rw [dispatch_of_own c limits title w hselected]
    exact isOf_executeStage c limits unit.key title (h _ rfl) values w
  | some plugin =>
    rw [hselected] at h
    cases hchosen : r.chosen? plugin with
    | none =>
      rw [dispatch_of_missing c limits title w hselected hchosen]
      exact ((Log.isOf_new unit.key title).withExtra _ _).fail _ _
    | some inst =>
      rw [dispatch_of_chosen c limits title w hselected hchosen]
      exact (isOf_executeStage c limits unit.key title (h _ hchosen) values w).withExtra _ _

/-! ## Other plugins -/

section MapPlugins

/-- An instance of another plugin. -/
def Instance.mapPlugin (f : Plugin σ → Plugin σ) (i : Instance σ) : Instance σ :=
  { i with plugin := f i.plugin }

def Registered.mapPlugin (f : Plugin σ → Plugin σ) (u : Registered σ) : Registered σ :=
  { u with inst := u.inst.mapPlugin f }

/-- A registry with other plugins in the same places. -/
def Registry.mapPlugins (f : Plugin σ → Plugin σ) (r : Registry σ) : Registry σ :=
  { r with
    stages := r.stages.map fun _ => Instance.mapPlugin f
    tools := r.tools.map fun _ => Instance.mapPlugin f
    utilities := r.utilities.map fun _ => Instance.mapPlugin f }

namespace Registry

variable (f : Plugin σ → Plugin σ) (r : Registry σ)

theorem byRole_mapPlugins (role : Role) :
    (r.mapPlugins f).byRole role = (r.byRole role).map fun _ => Instance.mapPlugin f := by
  cases role <;> rfl

theorem lookup?_mapPlugins (role : Role) (key : String) :
    (r.mapPlugins f).lookup? role key = (r.lookup? role key).map (Instance.mapPlugin f) := by
  rw [lookup?, byRole_mapPlugins, Dict.get?_map, lookup?]

theorem chosen?_mapPlugins (key : String) :
    (r.mapPlugins f).chosen? key = (r.chosen? key).map (Instance.mapPlugin f) := by
  rw [chosen?, lookup?_mapPlugins, lookup?_mapPlugins, chosen?]
  cases r.lookup? .tool key <;> rfl

theorem containsKey_mapPlugins (key : String) :
    (r.mapPlugins f).containsKey key = r.containsKey key := by
  have h : ∀ role, ((r.mapPlugins f).byRole role).contains key = (r.byRole role).contains key := by
    intro role
    rw [byRole_mapPlugins, Dict.contains, Dict.get?_map, Option.isSome_map, Dict.contains]
  simp only [containsKey, h]

theorem ordered_mapPlugins :
    (r.mapPlugins f).ordered = r.ordered.map (Registered.mapPlugin f) := by
  have h : ∀ name, (r.mapPlugins f).stages.get? name =
      (r.stages.get? name).map (Instance.mapPlugin f) := r.lookup?_mapPlugins f .stage
  unfold ordered
  rw [List.map_filterMap]
  simp only [h, Option.map_map]
  rfl

variable {f r}

theorem Every.mapPlugins {P Q : Plugin σ → Prop} (h : r.Every P) (hf : ∀ p, P p → Q (f p)) :
    (r.mapPlugins f).Every Q := by
  intro role key inst hinst
  rw [lookup?_mapPlugins] at hinst
  obtain ⟨i, hi, rfl⟩ := Option.map_eq_some_iff.mp hinst
  exact hf _ (h role key i hi)

end Registry

end MapPlugins

/-! ## Other sections -/

/-- What a plugin does on a log. -/
abbrev Execution (σ : Type) : Type :=
  Nat → Services σ → Log → Resolved → Act σ (Log × Except Fault Unit)

section Elsewhere

variable (here : String → String → Bool) (other : Execution σ)

/-- A plugin that does something else except for some sections. -/
def Plugin.elsewhere (p : Plugin σ) : Plugin σ :=
  { p with execute := fun id services log options =>
      if here log.stage log.section_ then p.execute id services log options
      else other id services log options }

def Instance.elsewhere (i : Instance σ) : Instance σ :=
  { i with plugin := i.plugin.elsewhere here other }

def Registered.elsewhere (u : Registered σ) : Registered σ :=
  { u with inst := u.inst.elsewhere here other }

/-- A registry in which every plugin does something else except for some sections. -/
def Registry.elsewhere (r : Registry σ) : Registry σ :=
  { r with
    stages := r.stages.map fun _ => Instance.elsewhere here other
    tools := r.tools.map fun _ => Instance.elsewhere here other
    utilities := r.utilities.map fun _ => Instance.elsewhere here other }

namespace Registry

variable (r : Registry σ)

theorem chosen?_elsewhere (key : String) : (r.elsewhere here other).chosen? key =
    (r.chosen? key).map (Instance.elsewhere here other) :=
  r.chosen?_mapPlugins (Plugin.elsewhere here other) key

end Registry

variable {here : String → String → Bool}

theorem executeStage_elsewhere (c : Context σ) (limits : Limits) {stage title : String}
    (h : here stage title = true) (inst : Instance σ) (values : Dict String) (w : World σ) :
    executeStage c limits stage title (inst.elsewhere here other) values w =
      executeStage c limits stage title inst values w := by
  simp [executeStage, Instance.elsewhere, Plugin.elsewhere, Log.new, h]

/-- **What plugins do for other sections has no part in an invocation.** -/
theorem dispatch_elsewhere (r : Registry σ) (c : Context σ) (limits : Limits) (unit : Registered σ)
    {title : String} (h : here unit.key title = true) (values : Dict String) (w : World σ) :
    dispatch (r.elsewhere here other) c limits (unit.elsewhere here other) title values w =
      dispatch r c limits unit title values w := by
  have hkey : (unit.elsewhere here other).key = unit.key := rfl
  cases hselected : selectedPlugin? unit.key values with
  | none =>
    rw [dispatch_of_own c limits title w hselected,
      dispatch_of_own c limits title w (by rwa [hkey])]
    exact executeStage_elsewhere other c limits h unit.inst values w
  | some plugin =>
    have hchosen' := r.chosen?_elsewhere here other plugin
    cases hchosen : r.chosen? plugin with
    | none =>
      rw [hchosen] at hchosen'
      rw [dispatch_of_missing c limits title w hselected hchosen,
        dispatch_of_missing c limits title w (by rwa [hkey]) hchosen', hkey]
    | some inst =>
      rw [hchosen] at hchosen'
      rw [dispatch_of_chosen c limits title w hselected hchosen,
        dispatch_of_chosen c limits title w (by rwa [hkey]) hchosen', hkey,
        executeStage_elsewhere other c limits h inst values w]

end Elsewhere

end Qualification
