import Qualification.Catalog
import Qualification.Proofs.Registry.History
/-!
# What all plugins have in common

A property of plugins is true of all registered ones, if it is true of those that are registered one
by one and of those that the catalog builds.

* `Factory.Builds`, `Catalog.Builds`, `Registry.Every`;
* `Every.serve`: every call keeps it;
* **`every_serveAll`**: it is true of all plugins after any calls;
* `Plugin.Standard`, **`every_standard`**: a property of the standard plugins is true of the
  standard registry after any calls that bring no others.
-/

namespace Qualification

variable {σ : Type} {P : Plugin σ → Prop}

/-- Whether a property is true of all plugins that an implementation builds. -/
def Factory.Builds (P : Plugin σ → Prop) (factory : Factory σ) : Prop :=
  ∀ role key d role' plugin, factory role key d = .ok (role', plugin) → P plugin

/-- Whether a property is true of all plugins that a catalog builds. -/
def Catalog.Builds (P : Plugin σ → Prop) (catalog : Catalog σ) : Prop :=
  ∀ name factory, catalog.get? name = some factory → Factory.Builds P factory

namespace Catalog.Builds

theorem empty : Catalog.Builds P Dict.empty := by
  intro name factory h
  cases h

theorem insert {catalog : Catalog σ} (h : catalog.Builds P) (name : String) {factory : Factory σ}
    (hfactory : factory.Builds P) : Catalog.Builds P (Dict.insert catalog name factory) := by
  intro name' factory' h'
  rw [Dict.get?_insert] at h'
  split_ifs at h'
  · cases h'
    exact hfactory
  · exact h name' factory' h'

end Catalog.Builds

/-- Whether a property is true of all registered plugins. -/
def Registry.Every (P : Plugin σ → Prop) (r : Registry σ) : Prop :=
  ∀ role key inst, r.lookup? role key = some inst → P inst.plugin

/-- A candidate's plugin is built by the catalog. -/
theorem Candidate.of_load {catalog : Catalog σ} (hbuilds : catalog.Builds P) {files : FileTree}
    {c : Candidate} {plugin : Plugin σ} (h : c.load files catalog = .ok (some plugin)) :
    P plugin := by
  obtain ⟨_, _, _, _, hb⟩ := load_eq_some h
  obtain ⟨-, -, factory, hfactory, hbuilt⟩ := build_eq_ok hb
  exact hbuilds _ factory hfactory _ _ _ _ _ hbuilt

namespace Registry

/-- Whether a property is true of the plugin that a call brings. -/
def Request.Brings (P : Plugin σ → Prop) : Request σ → Prop
  | .register _ _ plugin => P plugin
  | _ => True

namespace Every

variable {r : Registry σ}

theorem new (catalog : Catalog σ) : (Registry.new catalog).Every P := by
  intro role key inst h
  cases role <;> cases h

theorem skip (h : r.Every P) (n : Nat) : ({ r with nextInstance := n } : Registry σ).Every P :=
  fun role key inst hinst => h role key inst (by simpa [lookup?] using hinst)

theorem commit (h : r.Every P) {u : Registered σ} (hu : P u.inst.plugin) :
    (r.commit u).1.Every P := by
  intro role key inst hinst
  rw [lookup?_commit] at hinst
  split_ifs at hinst
  · cases hinst
    exact hu
  · exact h role key inst hinst

theorem commitAll {us : List (Registered σ)} (h : r.Every P) (hus : ∀ u ∈ us, P u.inst.plugin) :
    (r.commitAll us).1.Every P := by
  induction us generalizing r with
  | nil => exact h
  | cons u us ih =>
    obtain ⟨hu, hus⟩ := List.forall_mem_cons.mp hus
    exact ih (h.commit hu) hus

theorem register (h : r.Every P) (key : String) (role : Role) {plugin : Plugin σ}
    (hplugin : P plugin) : (r.register key role plugin).registry.Every P := by
  obtain hr | ⟨-, hr⟩ := registry_register role r key plugin
  · rw [hr]
    exact h.skip _
  · rw [hr]
    exact (h.skip _).commit hplugin

theorem discover (h : r.Every P) (hbuilds : r.catalog.Builds P) (files : FileTree) (cwd : Place)
    (root : String) : (r.discover files cwd root).registry.Every P := by
  obtain ⟨n, -, hr⟩ | ⟨cs, s, hf, -, hr⟩ := r.registry_discover files cwd root
  · rw [hr]
    exact h.skip n
  · have hstaged : ∀ u ∈ s.units, P u.inst.plugin := by
      refine of_foldlM_stage (P := fun s => ∀ u ∈ s.units, P u.inst.plugin) ?_ (by simp) hf
      intro s s' c hs hstage
      obtain ⟨-, rfl⟩ | ⟨plugin, hl, -, rfl⟩ := stage_ok hstage
      · exact hs
      · simpa [or_imp, forall_and] using ⟨hs, Candidate.of_load hbuilds hl⟩
    rw [hr]
    exact (h.skip _).commitAll hstaged

theorem takeOut (h : r.Every P) (role : Role) (key : String) : (r.takeOut role key).Every P := by
  intro role' key' inst hinst
  rw [lookup?_takeOut] at hinst
  split_ifs at hinst
  exact h role' key' inst hinst

/-- **Every call keeps it.** -/
theorem serve (h : r.Every P) (hbuilds : r.catalog.Builds P) {req : Request σ}
    (hreq : req.Brings P) : (r.serve req).Every P := by
  cases req with
  | register key role plugin => exact h.register key role hreq
  | discover files cwd root => exact h.discover hbuilds files cwd root
  | unregister role key => exact h.takeOut role key
  | shutdown => exact (new r.catalog).skip _

end Every

theorem catalog_commitAll (r : Registry σ) (us : List (Registered σ)) :
    (r.commitAll us).1.catalog = r.catalog := by
  induction us generalizing r with
  | nil => rfl
  | cons u us ih => exact (ih _).trans (catalog_commit r u)

/-- No call changes the catalog. -/
theorem catalog_serve (r : Registry σ) (req : Request σ) : (r.serve req).catalog = r.catalog := by
  cases req with
  | register key role plugin =>
    change (r.register key role plugin).registry.catalog = r.catalog
    obtain hr | ⟨-, hr⟩ := registry_register role r key plugin
    · rw [hr]
    · rw [hr, catalog_commit]
  | discover files cwd root =>
    change (r.discover files cwd root).registry.catalog = r.catalog
    obtain ⟨n, -, hr⟩ | ⟨cs, s, -, -, hr⟩ := r.registry_discover files cwd root
    · rw [hr]
    · rw [hr, catalog_commitAll]
  | unregister role key =>
    change (r.takeOut role key).catalog = r.catalog
    cases hl : r.lookup? role key with
    | none => rw [takeOut_of_none hl]
    | some i => rw [takeOut_of_some hl, catalog_withRole]
  | shutdown => rfl

/-- **A property is true of all plugins after any calls**, if it is true of those that the calls
bring and of those that the catalog builds. -/
theorem every_serveAll {catalog : Catalog σ} (hbuilds : catalog.Builds P)
    (reqs : List (Request σ)) (hreqs : ∀ req ∈ reqs, req.Brings P) :
    ((Registry.new catalog).serveAll reqs).Every P := by
  have hall : ∀ r : Registry σ, r.catalog = catalog → r.Every P → (r.serveAll reqs).Every P := by
    induction reqs with
    | nil => exact fun _ _ h => h
    | cons req reqs ih =>
      obtain ⟨hreq, hreqs⟩ := List.forall_mem_cons.mp hreqs
      intro r hr h
      refine ih hreqs (r.serve req) ((catalog_serve r req).trans hr) ?_
      exact h.serve (hr ▸ hbuilds) hreq
  exact hall _ rfl (Every.new catalog)

end Registry

/-! ## The standard registry -/

/-- Whether a property is true of all standard plugins. -/
structure Plugin.Standard (P : Plugin σ → Prop) : Prop where
  commandLine : ∀ c : CommandLine, P c.plugin
  snippet : P Snippet.plugin
  environ : P Environ.plugin
  harasser : P HarasserUtility.plugin

theorem builds_commandLine (h : ∀ c : CommandLine, P c.plugin) : CommandLine.factory.Builds P := by
  intro role key d role' plugin hbuilt
  unfold CommandLine.factory at hbuilt
  split at hbuilt
  · cases hbuilt
  · cases hbuilt
    exact h _

theorem builds_only {plugin : Plugin σ} (h : P plugin) (allowed : Role)
    (implementation article : String) :
    (Catalog.only allowed implementation article plugin).Builds P := by
  intro role key d role' plugin' hbuilt
  unfold Catalog.only at hbuilt
  split at hbuilt
  · cases hbuilt
    exact h
  · cases hbuilt

theorem builds_standard (h : Plugin.Standard P) : Catalog.standard.Builds P := by
  unfold Catalog.standard Dict.ofList Dict.insertAll
  simp only [List.foldl_cons, List.foldl_nil]
  refine Catalog.Builds.insert ?_ _ (builds_only h.harasser _ _ _)
  refine Catalog.Builds.insert ?_ _ (builds_only h.environ _ _ _)
  refine Catalog.Builds.insert ?_ _ (builds_only h.snippet _ _ _)
  exact Catalog.Builds.empty.insert _ (builds_commandLine h.commandLine)

/-- **A property of the standard plugins** is true of the standard registry after any calls that
bring no others. -/
theorem Registry.every_standard (h : Plugin.Standard P) (reqs : List (Request σ))
    (hreqs : ∀ req ∈ reqs, req.Brings P) : (Registry.standard.serveAll reqs).Every P := by
  have hstandard : (Registry.standard (σ := σ)).serveAll reqs =
      (Registry.new Catalog.standard).serveAll ([.register "Shell" .tool Snippet.plugin,
        .register "Environ" .utility Environ.plugin,
        .register "Harasser" .utility HarasserUtility.plugin] ++ reqs) := rfl
  rw [hstandard]
  refine every_serveAll (builds_standard h) _ ?_
  intro req hreq
  rcases List.mem_append.mp hreq with hreq | hreq
  · simp only [List.mem_cons, List.not_mem_nil, or_false] at hreq
    rcases hreq with rfl | rfl | rfl
    · exact h.snippet
    · exact h.environ
    · exact h.harasser
  · exact hreqs req hreq

end Qualification
