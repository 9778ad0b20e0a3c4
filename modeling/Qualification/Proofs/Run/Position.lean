import Qualification.Proofs.Run.Failure
/-!
# The places of logs

Each visited section stands at the index of its stage in the order of the stages, and sections are
visited by ascending index. Its log is under its stage and its title, unless the plugin that it
invoked writes others into it.

* `Attended.KeepsLabels`, `labelled_journey`: the stage and the title of a log;
* `ordered_journey`: the stage of an index;
* **`ascending_journey`**: indexes never decrease;
* `Pipeline.relabelled`: a run with a log under another stage.
-/

namespace Qualification

variable {σ ρ : Type}

/-- Whether the plugin that a visited section invoked, if it invoked one, leaves the stage and the
section of its log alone. -/
def Attended.KeepsLabels (r : Registry σ) (x : Attended σ) : Prop :=
  ∀ e, x.execution? r = some e → e.2.plugin.KeepsLabels

namespace Pipeline

variable {p : Pipeline σ ρ} {w : World σ} {x : Attended σ}

/-! ## Labels -/

theorem labelled_attend {v : Visit σ} {s s' : Stand σ} (h : p.attend v s = (x, s'))
    (hkeeps : x.KeepsLabels p.registry) : x.log.IsOf x.visit.key x.visit.title := by
  obtain rfl : (p.attend v s).1 = x := by rw [h]
  refine isOf_deal fun hmanner inst hinst => hkeeps (v, inst) ?_
  rw [Attended.execution?, if_pos (by exact hmanner)]
  exact Option.map_eq_some_iff.mpr ⟨inst, hinst, rfl⟩

/-- The log of a visited section is under its stage and its title, if the plugin that it invoked
leaves these alone. -/
theorem labelled_journey (h : x ∈ (p.journey w).visited) (hkeeps : x.KeepsLabels p.registry) :
    x.log.IsOf x.visit.key x.visit.title := by
  obtain ⟨_, _, _, _, hx⟩ := attend_of_mem_walk h
  exact labelled_attend hx hkeeps

/-- Where all plugins keep their labels, those that a run invoked do. -/
theorem keepsLabels_journey (hp : p.registry.KeepsLabels) (h : x ∈ (p.journey w).visited) :
    x.KeepsLabels p.registry := by
  obtain ⟨v, hv, _, _, hx⟩ := attend_of_mem_walk h
  intro e he
  unfold Attended.execution? at he
  split at he
  · obtain ⟨inst, hinst, rfl⟩ := Option.map_eq_some_iff.mp he
    rw [visit_of_attend hx] at hinst
    exact hp.invoked (keepsLabels_of_mem_route hp hv) hinst
  · cases he

/-! ## Indexes -/

theorem index_of_mem_visitsOf {index : Nat} {unit : Registered σ} {v : Visit σ}
    (h : v ∈ p.visitsOf index unit) : v.index = index := by
  obtain ⟨sect, -, rfl⟩ := List.mem_map.mp h
  rfl

theorem ordered_of_mem_routeFrom {index : Nat} {units : List (Registered σ)} {v : Visit σ}
    (h : v ∈ p.routeFrom index units) :
    index ≤ v.index ∧ units[v.index - index]? = some v.unit := by
  obtain ⟨⟨unit, i⟩, hunit, hv⟩ := List.mem_flatMap.mp h
  obtain ⟨sect, -, rfl⟩ := List.mem_map.mp hv
  exact List.mk_mem_zipIdx_iff_le_and_getElem?_sub.mp hunit

theorem ascending_routeFrom (p : Pipeline σ ρ) (index : Nat) (units : List (Registered σ)) :
    (p.routeFrom index units).Pairwise fun u v => u.index ≤ v.index := by
  induction units generalizing index with
  | nil => exact List.Pairwise.nil
  | cons unit units ih =>
    rw [routeFrom_cons, List.pairwise_append]
    refine ⟨?_, ih (index + 1), ?_⟩
    · refine List.pairwise_of_forall_mem_list fun u hu v hv => ?_
      rw [index_of_mem_visitsOf hu, index_of_mem_visitsOf hv]
    · intro u hu v hv
      rw [index_of_mem_visitsOf hu]
      exact Nat.le_of_succ_le (ordered_of_mem_routeFrom hv).1

/-- The stage of a visited section stands at its index. -/
theorem ordered_journey (h : x ∈ (p.journey w).visited) :
    p.registry.ordered[x.visit.index]? = some x.visit.unit := by
  obtain ⟨v, hv, _, _, hx⟩ := attend_of_mem_walk h
  rw [visit_of_attend hx]
  exact (ordered_of_mem_routeFrom hv).2

theorem lawful_journey (p : Pipeline σ ρ) (w : World σ) : p.Lawful p.route (p.journey w) :=
  p.lawful_walk p.route (p.outset w)

/-- **Sections are visited by ascending index.** -/
theorem ascending_journey (p : Pipeline σ ρ) (w : World σ) :
    ((p.journey w).visited.map fun x => x.visit.index).Pairwise (· ≤ ·) := by
  have hroute := (p.ascending_routeFrom 0 p.registry.ordered).sublist
    (p.lawful_journey w).first.sublist
  rw [List.pairwise_map] at hroute ⊢
  exact hroute

/-! ## A run with a log under another stage -/

/-- A stage whose plugin puts its log under another stage and another section, and fails. -/
def relabelled (recorder : Recorder ρ) : Pipeline Unit ρ where
  policy := ⟨"relabelled", false, Limits.unlimited, none⟩
  registry :=
    ((Registry.new Dict.empty).register "A" .stage (Plugin.relabelling "B" "B:1" 4)).registry
  context := ⟨Uuid.ofNat 1, Sections.empty, fun _ host => (⟨0, .ok ⟨0, "", "", false⟩⟩, host),
    none, none, Dict.empty, Dict.empty⟩
  recorder := recorder

end Pipeline

end Qualification
