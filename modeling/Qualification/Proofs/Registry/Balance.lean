import Qualification.Proofs.Registry.RollBack
/-!
# The balance of instances

Every instance that was activated is in one place: registered, handed back, or deactivated. A
history is a registry with all the calls in the lives of plugins that led to it. Every registration
and every factory brings a new instance here; of one that comes twice nothing of this is true.

* `LifeCall.activated`, `LifeCall.deactivated`: the instances of calls, in order;
* `Registry.instances`, `instances_commit`, `instances_commitAll`, `instances_takeOut`: what an
  operation does to the registered instances;
* `History`, `Registry.answer`, `History.serve`, `History.serveAll`: histories of requests;
* `Turn`, `turn_answer`: what one call does; `History.Balanced`, `Balanced.serve`: what all of them
  keep;
* **`balanced_serveAll`**: after any requests every instance was activated and deactivated at most
  once, and it was deactivated exactly if it left the registry without being handed back;
* `eq_of_id`: an instance is registered in one place.
-/

namespace Qualification

variable {σ : Type}

/-- Whether an instance can be activated. -/
def Instance.activates (i : Instance σ) : Bool :=
  match i.plugin.activation i.id with
  | .ok () => true
  | .error _ => false

theorem Instance.activates_iff {i : Instance σ} :
    i.activates = true ↔ i.plugin.activation i.id = .ok () := by
  unfold Instance.activates
  cases i.plugin.activation i.id <;> simp

/-! ## The instances of calls -/

namespace LifeCall

/-- The instances that are activated, in order. -/
def activated (calls : List (LifeCall σ)) : List (Instance σ) :=
  calls.filterMap fun c => match c with
    | activate i => some i
    | deactivate _ => none

/-- The instances that are deactivated, in order. -/
def deactivated (calls : List (LifeCall σ)) : List (Instance σ) :=
  calls.filterMap fun c => match c with
    | activate _ => none
    | deactivate i => some i

@[simp] theorem activated_append (a b : List (LifeCall σ)) :
    activated (a ++ b) = activated a ++ activated b := List.filterMap_append

@[simp] theorem deactivated_append (a b : List (LifeCall σ)) :
    deactivated (a ++ b) = deactivated a ++ deactivated b := List.filterMap_append

@[simp] theorem activated_activate (is : List (Instance σ)) :
    activated (is.map activate) = is := by
  rw [activated, List.filterMap_map]
  exact List.filterMap_some

@[simp] theorem activated_deactivate (is : List (Instance σ)) :
    activated (is.map deactivate) = [] := by
  rw [activated, List.filterMap_map]
  exact List.filterMap_eq_nil_iff.mpr fun _ _ => rfl

@[simp] theorem deactivated_activate (is : List (Instance σ)) :
    deactivated (is.map activate) = [] := by
  rw [deactivated, List.filterMap_map]
  exact List.filterMap_eq_nil_iff.mpr fun _ _ => rfl

@[simp] theorem deactivated_deactivate (is : List (Instance σ)) :
    deactivated (is.map deactivate) = is := by
  rw [deactivated, List.filterMap_map]
  exact List.filterMap_some

theorem mem_activated {calls : List (LifeCall σ)} {i : Instance σ} :
    i ∈ activated calls ↔ activate i ∈ calls := by
  rw [activated, List.mem_filterMap]
  constructor
  · rintro ⟨c, hc, hi⟩
    cases c with
    | activate j => cases hi; exact hc
    | deactivate j => cases hi
  · exact fun h => ⟨_, h, rfl⟩

theorem activations_eq_count (id : Nat) (calls : List (LifeCall σ)) :
    activations id calls = ((activated calls).map Instance.id).count id := by
  induction calls with
  | nil => rfl
  | cons c calls ih =>
    cases c with
    | activate i => simp [activations, activated, List.countP_cons, List.count_cons] at ih ⊢; omega
    | deactivate i => simpa [activations, activated, List.countP_cons] using ih

theorem deactivations_eq_count (id : Nat) (calls : List (LifeCall σ)) :
    deactivations id calls = ((deactivated calls).map Instance.id).count id := by
  induction calls with
  | nil => rfl
  | cons c calls ih =>
    cases c with
    | activate i => simpa [deactivations, deactivated, List.countP_cons] using ih
    | deactivate i =>
      simp [deactivations, deactivated, List.countP_cons, List.count_cons] at ih ⊢; omega

end LifeCall

namespace Registry

open LifeCall

/-! ## The registered instances -/

/-- All registered instances. -/
def instances (r : Registry σ) : List (Instance σ) := r.all.map Registered.inst

theorem instances_eq (r : Registry σ) :
    r.instances = r.stages.values ++ (r.tools.values ++ r.utilities.values) := by
  simp [instances, Registry.all, Role.all, byRole, Dict.values, Dict.toList, Function.comp_def]

theorem mem_instances {r : Registry σ} {i : Instance σ} :
    i ∈ r.instances ↔ ∃ role key, r.lookup? role key = some i := by
  rw [instances_eq, List.mem_append, List.mem_append]
  simp only [Dict.mem_values_iff]
  constructor
  · rintro (⟨key, h⟩ | ⟨key, h⟩ | ⟨key, h⟩)
    · exact ⟨.stage, key, h⟩
    · exact ⟨.tool, key, h⟩
    · exact ⟨.utility, key, h⟩
  · rintro ⟨role, key, h⟩
    cases role with
    | stage => exact .inl ⟨key, h⟩
    | tool => exact .inr (.inl ⟨key, h⟩)
    | utility => exact .inr (.inr ⟨key, h⟩)

/-- What comes and goes in one role comes and goes in the registry. -/
theorem instances_withRole {r : Registry σ} {role : Role} {d : Dict (Instance σ)}
    {gone came : List (Instance σ)}
    (h : (d.values ++ gone).Perm (came ++ (r.byRole role).values)) :
    ((r.withRole role d).instances ++ gone).Perm (came ++ r.instances) := by
  classical
  rw [List.perm_iff_count] at h ⊢
  intro i
  have hi := h i
  cases role with
  | stage => simp only [instances_eq, withRole, byRole, List.count_append] at hi ⊢; omega
  | tool => simp only [instances_eq, withRole, byRole, List.count_append] at hi ⊢; omega
  | utility => simp only [instances_eq, withRole, byRole, List.count_append] at hi ⊢; omega

theorem instances_commit (r : Registry σ) (u : Registered σ) :
    ((r.commit u).1.instances ++ deactivated (r.commit u).2).Perm (u.inst :: r.instances) := by
  have hcalls : deactivated (r.commit u).2 = (r.lookup? u.inst.role u.key).toList := by
    cases h : r.lookup? u.inst.role u.key <;> simp [commit, h, deactivated]
  rw [hcalls]
  have hd := (r.byRole u.inst.role).values_insert_perm u.key u.inst
  rw [← List.singleton_append] at hd ⊢
  exact instances_withRole hd

theorem instances_commitAll (r : Registry σ) (us : List (Registered σ)) :
    ((r.commitAll us).1.instances ++ deactivated (r.commitAll us).2).Perm
      (us.map Registered.inst ++ r.instances) := by
  induction us generalizing r with
  | nil => simp [commitAll, deactivated]
  | cons u us ih =>
    have hfirst := r.instances_commit u
    have hrest := ih (r.commit u).1
    classical
    rw [List.perm_iff_count] at hfirst hrest ⊢
    intro i
    have h1 := hfirst i
    have h2 := hrest i
    simp only [commitAll, deactivated_append, List.map_cons, List.cons_append, List.count_cons,
      List.count_append] at h1 h2 ⊢
    omega

theorem instances_takeOut (r : Registry σ) (role : Role) (key : String) :
    ((r.takeOut role key).instances ++ (r.lookup? role key).toList).Perm r.instances := by
  cases h : r.lookup? role key with
  | none => simp [takeOut_of_none h]
  | some i =>
    rw [takeOut_of_some h]
    have hd := (r.byRole role).values_erase_perm key
    rw [show (r.byRole role).get? key = some i from h] at hd
    exact @instances_withRole σ _ _ _ _ [] (by simpa using hd)

/-- Commits only deactivate. -/
theorem calls_commitAll (r : Registry σ) (us : List (Registered σ)) :
    (r.commitAll us).2 = (deactivated (r.commitAll us).2).map deactivate := by
  induction us generalizing r with
  | nil => rfl
  | cons u us ih =>
    have hu : (r.commit u).2 = (deactivated (r.commit u).2).map deactivate := by
      cases h : r.lookup? u.inst.role u.key <;> simp [commit, h, deactivated]
    have hus := ih (r.commit u).1
    simp only [commitAll, deactivated_append, List.map_append, ← hu, ← hus]


/-! ## Histories -/

end Registry

/-- A registry with its past: the calls in the lives of plugins, in order, and the instances that
were handed back. -/
structure History (σ : Type) where
  registry : Registry σ
  calls : List (LifeCall σ)
  returned : List (Instance σ)

/-- What comes of one request. -/
def Registry.answer (r : Registry σ) : Registry.Request σ → History σ
  | .register key role plugin =>
    let x := r.register key role plugin
    ⟨x.registry, x.calls, []⟩
  | .discover files cwd root =>
    let x := r.discover files cwd root
    ⟨x.registry, x.calls, []⟩
  | .unregister role key =>
    let (returned, r) := r.unregister role key
    ⟨r, [], returned.toList⟩
  | .shutdown =>
    let (r, calls) := r.shutdown
    ⟨r, calls, []⟩

namespace History

open LifeCall Registry

/-- The history of a registry that begins empty. -/
def begin (catalog : Catalog σ) : History σ := ⟨Registry.new catalog, [], []⟩

/-- The history after one more request. -/
def serve (h : History σ) (req : Registry.Request σ) : History σ :=
  let x := h.registry.answer req
  ⟨x.registry, h.calls ++ x.calls, h.returned ++ x.returned⟩

/-- The history after more requests. -/
def serveAll (h : History σ) (reqs : List (Registry.Request σ)) : History σ := reqs.foldl serve h

theorem registry_serve (h : History σ) (req : Registry.Request σ) :
    (h.serve req).registry = h.registry.serve req := by
  cases req <;> rfl

theorem registry_serveAll (h : History σ) (reqs : List (Registry.Request σ)) :
    (h.serveAll reqs).registry = h.registry.serveAll reqs := by
  induction reqs generalizing h with
  | nil => rfl
  | cons req reqs ih =>
    show ((h.serve req).serveAll reqs).registry = (h.registry.serve req).serveAll reqs
    rw [ih, registry_serve]

end History

/-! ## One request -/

namespace Registry

open LifeCall

/-- What one request does to a registry: new instances are activated, and then instances are
deactivated. What was there or could be activated is there, was handed back, or was deactivated. -/
structure Turn (r : Registry σ) (x : History σ) (up down : List (Instance σ)) : Prop where
  calls : x.calls = up.map activate ++ down.map deactivate
  ascending : (up.map Instance.id).Pairwise (· < ·)
  fresh : ∀ i ∈ up, r.nextInstance ≤ i.id ∧ i.id < x.registry.nextInstance
  spent : r.nextInstance ≤ x.registry.nextInstance
  balance : (up.filter Instance.activates ++ r.instances).Perm
    (x.registry.instances ++ (x.returned ++ down))

@[simp] theorem instances_nextInstance (r : Registry σ) (n : Nat) :
    ({ r with nextInstance := n } : Registry σ).instances = r.instances := by
  simp only [instances_eq]

theorem nextInstance_commitAll (r : Registry σ) (us : List (Registered σ)) :
    (r.commitAll us).1.nextInstance = r.nextInstance := by
  induction us generalizing r with
  | nil => rfl
  | cons u us ih => exact (ih _).trans (r.nextInstance_commit u)

theorem commitAll_singleton (r : Registry σ) (u : Registered σ) : r.commitAll [u] = r.commit u := by
  simp [commitAll]

theorem filter_activates {is : List (Instance σ)}
    (h : ∀ i ∈ is, i.plugin.activation i.id = .ok ()) : is.filter Instance.activates = is :=
  List.filter_eq_self.mpr fun i hi => Instance.activates_iff.mpr (h i hi)

variable {r : Registry σ}

/-- New instances that could be activated are put under their keys. -/
theorem turn_commitAll {us : List (Registered σ)} {n : Nat}
    (hok : ∀ u ∈ us, u.inst.plugin.activation u.inst.id = .ok ())
    (hids : (us.map fun u => u.inst.id) = List.range' r.nextInstance us.length)
    (hn : n = r.nextInstance + us.length) :
    let x := ({ r with nextInstance := n } : Registry σ).commitAll us
    r.Turn ⟨x.1, us.map (fun u => .activate u.inst) ++ x.2, []⟩ (us.map Registered.inst)
      (deactivated x.2) where
  calls := by
    rw [← calls_commitAll, List.map_map]
    rfl
  ascending := by
    rw [List.map_map]
    exact hids ▸ List.pairwise_lt_range'
  fresh := by
    intro i hi
    have hid : i.id ∈ (us.map Registered.inst).map Instance.id := List.mem_map_of_mem hi
    rw [List.map_map, show us.map (Instance.id ∘ Registered.inst) = _ from hids,
      List.mem_range'_1] at hid
    rw [nextInstance_commitAll]
    exact hn ▸ hid
  spent := by
    rw [nextInstance_commitAll]
    show r.nextInstance ≤ n
    omega
  balance := by
    rw [filter_activates (by simpa using hok)]
    simpa using (instances_commitAll ({ r with nextInstance := n } : Registry σ) us).symm

/-- New instances that could be activated are deactivated again. -/
theorem turn_undo {done : List (Instance σ)} {failed : Option (Instance σ)} {n : Nat}
    (hok : ∀ i ∈ done, i.plugin.activation i.id = .ok ())
    (hfailed : ∀ i ∈ failed, ∃ fault, i.plugin.activation i.id = .error fault)
    (hids : (done ++ failed.toList).map Instance.id =
      List.range' r.nextInstance (done.length + failed.toList.length))
    (hn : n = r.nextInstance + (done.length + failed.toList.length)) :
    r.Turn ⟨{ r with nextInstance := n },
        (done ++ failed.toList).map .activate ++ done.map .deactivate, []⟩
      (done ++ failed.toList) done where
  calls := rfl
  ascending := hids ▸ List.pairwise_lt_range'
  fresh := by
    intro i hi
    have hid : i.id ∈ (done ++ failed.toList).map Instance.id := List.mem_map_of_mem hi
    rw [hids, List.mem_range'_1] at hid
    exact hn ▸ hid
  spent := by
    show r.nextInstance ≤ n
    omega
  balance := by
    have hnone : failed.toList.filter Instance.activates = [] := by
      refine List.filter_eq_nil_iff.mpr fun i hi hact => ?_
      obtain ⟨fault, hfault⟩ := hfailed i (by simpa using hi)
      rw [Instance.activates_iff, hfault] at hact
      cases hact
    rw [List.filter_append, filter_activates hok, hnone, List.append_nil, instances_nextInstance]
    exact List.perm_append_comm

/-- Nothing but a number is used up. -/
theorem turn_skip (r : Registry σ) {n : Nat} (h : r.nextInstance ≤ n) :
    r.Turn ⟨{ r with nextInstance := n }, [], []⟩ [] [] where
  calls := rfl
  ascending := List.Pairwise.nil
  fresh _ hi := nomatch hi
  spent := h
  balance := by simp

theorem turn_register (key : String) (role : Role) (plugin : Plugin σ) :
    ∃ up down, r.Turn (r.answer (.register key role plugin)) up down := by
  let x := r.register key role plugin
  change ∃ up down, r.Turn ⟨x.registry, x.calls, []⟩ up down
  cases hb : Text.isBlankText key with
  | true =>
    rw [show x = _ from register_of_blank role hb]
    exact ⟨[], [], r.turn_skip (Nat.le_add_right _ 1)⟩
  | false =>
    let inst : Instance σ := ⟨r.nextInstance, role, plugin⟩
    cases ha : plugin.activation r.nextInstance with
    | error fault =>
      rw [show x = _ from register_of_error role hb ha]
      have hfailed : ∀ i ∈ some inst, ∃ fault, i.plugin.activation i.id = .error fault := by
        simpa using ⟨fault, ha⟩
      exact ⟨[inst], [], turn_undo (List.forall_mem_nil _) hfailed rfl rfl⟩
    | ok =>
      rw [show x = _ from register_of_ok role hb ha]
      have hok : ∀ u ∈ [(⟨key, inst⟩ : Registered σ)],
          u.inst.plugin.activation u.inst.id = .ok () := by
        simpa using ha
      have h := turn_commitAll (r := r) hok rfl rfl
      simp only [commitAll_singleton] at h
      exact ⟨_, _, h⟩

theorem turn_discover (files : FileTree) (cwd : Place) (root : String) :
    ∃ up down, r.Turn (r.answer (.discover files cwd root)) up down := by
  change ∃ up down, r.Turn ⟨(r.discover files cwd root).registry,
    (r.discover files cwd root).calls, []⟩ up down
  cases hscan : Candidate.scan files cwd root with
  | error e =>
    rw [discover_of_error hscan]
    exact ⟨[], [], r.turn_skip le_rfl⟩
  | ok cs =>
    rw [discover_of_scan hscan]
    cases hf : cs.foldlM (stage files r.catalog) ⟨[], [], r.nextInstance⟩ with
    | error x =>
      obtain ⟨e, s⟩ := x
      obtain ⟨failed, hs⟩ := failed_of_foldlM hf
      have hok : ∀ i ∈ s.units.map Registered.inst, i.plugin.activation i.id = .ok () := by
        simpa using hs.activated
      have h := turn_undo hok hs.refused (by simpa using hs.ids) (by simpa using hs.next)
      rw [List.map_map] at h
      rw [discoverAll_of_error hf, hs.calls]
      exact ⟨_, _, h⟩
    | ok s =>
      have hs := (Staged.Sound.empty r.nextInstance).foldlM hf
      rw [discoverAll_of_ok hf, hs.calls]
      exact ⟨_, _, turn_commitAll hs.activated hs.ids hs.next⟩

theorem turn_unregister (role : Role) (key : String) :
    ∃ up down, r.Turn (r.answer (.unregister role key)) up down := by
  refine ⟨[], [], rfl, List.Pairwise.nil, fun _ hi => (nomatch hi), ?_, ?_⟩
  · exact (r.nextInstance_takeOut role key).ge
  · have hreturned : (r.unregister role key).1 = r.lookup? role key := by
      unfold unregister
      cases h : r.lookup? role key <;> rfl
    have h := r.instances_takeOut role key
    rw [← hreturned] at h
    simpa [answer, takeOut] using h.symm

theorem turn_shutdown : ∃ up down, r.Turn (r.answer .shutdown) up down := by
  refine ⟨[], r.instances, ?_, List.Pairwise.nil, fun _ hi => (nomatch hi), le_rfl, ?_⟩
  · simp only [answer, shutdown, instances, List.map_map, List.map_nil, List.nil_append]
    rfl
  · simp [answer, shutdown, instances_eq, Registry.new, Dict.values, Dict.empty]

/-- **What one request does**, whichever it is. -/
theorem turn_answer (r : Registry σ) (req : Request σ) :
    ∃ up down, r.Turn (r.answer req) up down := by
  cases req with
  | register key role plugin => exact turn_register key role plugin
  | discover files cwd root => exact turn_discover files cwd root
  | unregister role key => exact turn_unregister role key
  | shutdown => exact turn_shutdown

end Registry

/-! ## All requests -/

namespace History

open LifeCall Registry

/-- Whether calls deactivate only what some calls before them, or `known` ones, activated. -/
def Timely (known : List (Instance σ)) : List (LifeCall σ) → Prop
  | [] => True
  | .activate i :: calls => Timely (known ++ [i]) calls
  | .deactivate i :: calls => (i ∈ known ∧ i.activates = true) ∧ Timely known calls

theorem timely_append {known : List (Instance σ)} {a b : List (LifeCall σ)} :
    Timely known (a ++ b) ↔ Timely known a ∧ Timely (known ++ activated a) b := by
  induction a generalizing known with
  | nil => simp [Timely, activated]
  | cons c a ih =>
    cases c with
    | activate i => simp [Timely, activated, ih]
    | deactivate i => simp [Timely, activated, ih, and_assoc]

theorem timely_activate (known up : List (Instance σ)) : Timely known (up.map .activate) := by
  induction up generalizing known with
  | nil => trivial
  | cons i up ih => exact ih (known ++ [i])

theorem timely_deactivate {known down : List (Instance σ)}
    (h : ∀ i ∈ down, i ∈ known ∧ i.activates = true) : Timely known (down.map .deactivate) := by
  induction down with
  | nil => trivial
  | cons i down ih =>
    obtain ⟨hi, hdown⟩ := List.forall_mem_cons.mp h
    exact ⟨hi, ih hdown⟩

/-- What every history keeps. What could be activated is registered, was handed back, or was
deactivated. -/
structure Balanced (h : History σ) : Prop where
  ascending : ((activated h.calls).map Instance.id).Pairwise (· < ·)
  issued : ∀ i ∈ activated h.calls, i.id < h.registry.nextInstance
  balance : ((activated h.calls).filter Instance.activates).Perm
    (h.registry.instances ++ (h.returned ++ deactivated h.calls))
  timely : Timely [] h.calls

theorem balanced_begin (catalog : Catalog σ) : (begin catalog).Balanced where
  ascending := List.Pairwise.nil
  issued _ hi := nomatch hi
  balance := by
    simp [begin, activated, deactivated, instances_eq, Registry.new, Dict.values, Dict.empty]
  timely := trivial

variable {h : History σ}

/-- **Every request keeps the balance.** -/
theorem Balanced.serve (hb : h.Balanced) (req : Registry.Request σ) :
    (h.serve req).Balanced := by
  obtain ⟨up, down, ht⟩ := h.registry.turn_answer req
  have hcalls : (h.serve req).calls = h.calls ++ (up.map activate ++ down.map deactivate) :=
    congrArg (h.calls ++ ·) ht.calls
  have hup : activated (h.serve req).calls = activated h.calls ++ up := by simp [hcalls]
  have hdown : deactivated (h.serve req).calls = deactivated h.calls ++ down := by simp [hcalls]
  have hreturned : (h.serve req).returned = h.returned ++ (h.registry.answer req).returned := rfl
  refine ⟨?_, ?_, ?_, ?_⟩
  · rw [hup, List.map_append, List.pairwise_append]
    refine ⟨hb.ascending, ht.ascending, fun a ha b hb' => ?_⟩
    obtain ⟨i, hi, rfl⟩ := List.mem_map.mp ha
    obtain ⟨j, hj, rfl⟩ := List.mem_map.mp hb'
    exact Nat.lt_of_lt_of_le (hb.issued i hi) (ht.fresh j hj).1
  · intro i hi
    rw [hup, List.mem_append] at hi
    rcases hi with hi | hi
    · exact Nat.lt_of_lt_of_le (hb.issued i hi) ht.spent
    · exact (ht.fresh i hi).2
  · have h1 := hb.balance
    have h2 := ht.balance
    rw [hup, hdown, hreturned, List.filter_append]
    show List.Perm _ ((h.registry.answer req).registry.instances ++ _)
    classical
    rw [List.perm_iff_count] at h1 h2 ⊢
    intro i
    have h1 := h1 i
    have h2 := h2 i
    simp only [List.count_append] at h1 h2 ⊢
    omega
  · rw [hcalls, timely_append, timely_append, activated_activate, List.nil_append]
    refine ⟨hb.timely, timely_activate _ _, timely_deactivate fun i hi => ?_⟩
    -- What is deactivated was registered before, or was activated in this turn.
    have hmem : i ∈ up.filter Instance.activates ++ h.registry.instances := by
      refine ht.balance.mem_iff.mpr ?_
      exact List.mem_append_right _ (List.mem_append_right _ hi)
    rcases List.mem_append.mp hmem with hi | hi
    · obtain ⟨hi, hact⟩ := List.mem_filter.mp hi
      exact ⟨List.mem_append_right _ hi, hact⟩
    · obtain ⟨hi, hact⟩ := List.mem_filter.mp (hb.balance.mem_iff.mpr (List.mem_append_left _ hi))
      exact ⟨List.mem_append_left _ hi, hact⟩

theorem Balanced.serveAll (hb : h.Balanced) (reqs : List (Registry.Request σ)) :
    (h.serveAll reqs).Balanced := by
  induction reqs generalizing h with
  | nil => exact hb
  | cons req reqs ih => exact ih (hb.serve req)

namespace Balanced

variable (hb : h.Balanced)

include hb

theorem activations_le_one (id : Nat) : activations id h.calls ≤ 1 := by
  rw [activations_eq_count]
  exact List.nodup_iff_count_le_one.mp (hb.ascending.imp fun {_ _} => Nat.ne_of_lt) id

/-- No instance is in two places. -/
theorem nodup :
    ((h.registry.instances ++ (h.returned ++ deactivated h.calls)).map Instance.id).Nodup := by
  refine (hb.balance.map Instance.id).nodup_iff.mp ?_
  exact (hb.ascending.imp fun {_ _} => Nat.ne_of_lt).sublist (List.filter_sublist.map _)

theorem deactivated_nodup : ((deactivated h.calls).map Instance.id).Nodup := by
  refine hb.nodup.sublist (List.Sublist.map _ ?_)
  exact (List.sublist_append_right _ _).trans (List.sublist_append_right _ _)

theorem deactivations_le_one (id : Nat) : deactivations id h.calls ≤ 1 := by
  rw [deactivations_eq_count]
  exact List.nodup_iff_count_le_one.mp hb.deactivated_nodup id

theorem deactivations_of_mem {i : Instance σ} (hi : i ∈ deactivated h.calls) :
    deactivations i.id h.calls = 1 := by
  rw [deactivations_eq_count]
  exact List.count_eq_one_of_mem hb.deactivated_nodup (List.mem_map_of_mem hi)

/-- What is registered or was handed back was never deactivated. -/
theorem deactivations_eq_zero {i : Instance σ} (hi : i ∈ h.registry.instances ++ h.returned) :
    deactivations i.id h.calls = 0 := by
  have hn := hb.nodup
  rw [← List.append_assoc, List.map_append, List.nodup_append] at hn
  rw [deactivations_eq_count, List.count_eq_zero]
  exact fun hd => hn.2.2 _ (List.mem_map_of_mem hi) _ hd rfl

/-- What was deactivated or handed back is not registered. -/
theorem not_mem_instances {i : Instance σ} (hi : i ∈ h.returned ++ deactivated h.calls) :
    i ∉ h.registry.instances := by
  have hn := hb.nodup
  rw [List.map_append, List.nodup_append] at hn
  exact fun hr => hn.2.2 _ (List.mem_map_of_mem hr) _ (List.mem_map_of_mem hi) rfl

theorem activated_of_deactivate {before after : List (LifeCall σ)} {i : Instance σ}
    (hcalls : h.calls = before ++ .deactivate i :: after) :
    .activate i ∈ before ∧ i.plugin.activation i.id = .ok () := by
  have ht := hb.timely
  rw [hcalls, timely_append] at ht
  obtain ⟨⟨hi, hact⟩, -⟩ := ht.2
  exact ⟨mem_activated.mp hi, Instance.activates_iff.mp hact⟩

/-- An instance that was activated and not handed back is registered or was deactivated. -/
theorem place {i : Instance σ} (hi : .activate i ∈ h.calls)
    (hok : i.plugin.activation i.id = .ok ()) (hreturned : i ∉ h.returned) :
    i ∈ h.registry.instances ∨ i ∈ deactivated h.calls := by
  have hmem : i ∈ (activated h.calls).filter Instance.activates :=
    List.mem_filter.mpr ⟨mem_activated.mpr hi, Instance.activates_iff.mpr hok⟩
  rw [hb.balance.mem_iff, List.mem_append, List.mem_append] at hmem
  rcases hmem with hi | hi | hi
  · exact .inl hi
  · exact absurd hi hreturned
  · exact .inr hi

end Balanced

theorem instances_shutdown (h : History σ) : (h.serve .shutdown).registry.instances = [] := by
  simp [serve, answer, shutdown, instances_eq, Registry.new, Dict.values, Dict.empty]

end History

namespace Registry

open LifeCall

/-- Whether an instance is registered. -/
def Holds (r : Registry σ) (i : Instance σ) : Prop := ∃ role key, r.lookup? role key = some i

/-- **The lives of instances are balanced after any requests.** Each of them was activated and
deactivated at most once, and deactivated only after it was activated with success. One that was not
handed back is registered and was not deactivated, or it is not registered and was deactivated; and
after a shutdown nothing is registered. -/
theorem balanced_serveAll (catalog : Catalog σ) (reqs : List (Request σ)) :
    let h := (History.begin catalog).serveAll reqs
    let s := h.serve .shutdown
    h.registry = (Registry.new catalog).serveAll reqs ∧
    (∀ id, activations id h.calls ≤ 1 ∧ deactivations id h.calls ≤ 1) ∧
    (∀ before i after, h.calls = before ++ .deactivate i :: after →
      .activate i ∈ before ∧ i.plugin.activation i.id = .ok ()) ∧
    (∀ i, .activate i ∈ h.calls → i.plugin.activation i.id = .ok () → i ∉ h.returned →
      (h.registry.Holds i ∧ deactivations i.id h.calls = 0) ∨
      (¬ h.registry.Holds i ∧ deactivations i.id h.calls = 1)) ∧
    (∀ i ∈ h.returned, ¬ h.registry.Holds i ∧ deactivations i.id h.calls = 0) ∧
    s.registry.all = [] ∧
    ∀ i, .activate i ∈ s.calls → i.plugin.activation i.id = .ok () → i ∉ s.returned →
      deactivations i.id s.calls = 1 := by
  intro h s
  have hb : h.Balanced := (History.balanced_begin catalog).serveAll reqs
  have hs : s.Balanced := hb.serve .shutdown
  have hempty : s.registry.instances = [] := h.instances_shutdown
  refine ⟨History.registry_serveAll _ reqs,
    fun id => ⟨hb.activations_le_one id, hb.deactivations_le_one id⟩,
    fun _ _ _ => hb.activated_of_deactivate, ?_, ?_, List.map_eq_nil_iff.mp hempty, ?_⟩
  · intro i hi hok hreturned
    rcases hb.place hi hok hreturned with hi | hi
    · exact .inl ⟨mem_instances.mp hi, hb.deactivations_eq_zero (List.mem_append_left _ hi)⟩
    · refine .inr ⟨fun hholds => ?_, hb.deactivations_of_mem hi⟩
      exact hb.not_mem_instances (List.mem_append_right _ hi) (mem_instances.mpr hholds)
  · intro i hi
    refine ⟨fun hholds => ?_, hb.deactivations_eq_zero (List.mem_append_right _ hi)⟩
    exact hb.not_mem_instances (List.mem_append_left _ hi) (mem_instances.mpr hholds)
  · intro i hi hok hreturned
    rcases hs.place hi hok hreturned with hi | hi
    · rw [hempty] at hi
      cases hi
    · exact hs.deactivations_of_mem hi

/-! ## Instances by number -/

theorem mem_all_of_lookup? {r : Registry σ} {role : Role} {key : String} {i : Instance σ}
    (h : r.lookup? role key = some i) : ⟨key, i⟩ ∈ r.all := by
  refine List.mem_flatMap.mpr ⟨role, by cases role <;> decide, ?_⟩
  exact List.mem_map.mpr ⟨(key, i), Dict.mem_toList_iff.mpr h, rfl⟩

/-- Over a whole history no number is given twice, so none is registered twice. -/
theorem nodup_instances (catalog : Catalog σ) (reqs : List (Request σ)) :
    (((Registry.new catalog).serveAll reqs).instances.map Instance.id).Nodup := by
  have hnodup := ((History.balanced_begin catalog).serveAll reqs).nodup
  rw [List.map_append, History.registry_serveAll] at hnodup
  exact (List.nodup_append.mp hnodup).1

/-- Where no number is registered twice, an instance is registered in one place. -/
theorem Sound.eq_of_nodup {r : Registry σ} (h : r.Sound)
    (hids : (r.instances.map Instance.id).Nodup) {role role' : Role} {key key' : String}
    {i j : Instance σ} (hi : r.lookup? role key = some i) (hj : r.lookup? role' key' = some j)
    (hid : i.id = j.id) : role = role' ∧ key = key' := by
  rw [instances, List.map_map] at hids
  have heq : (⟨key, i⟩ : Registered σ) = ⟨key', j⟩ :=
    List.inj_on_of_nodup_map hids (mem_all_of_lookup? hi) (mem_all_of_lookup? hj) hid
  obtain ⟨rfl, rfl⟩ := Registered.mk.inj heq
  exact ⟨(h.role hi).symm.trans (h.role hj), rfl⟩

/-- **An instance is registered in one place.** -/
theorem eq_of_id {catalog : Catalog σ} {reqs : List (Request σ)} {role role' : Role}
    {key key' : String} {i j : Instance σ}
    (hi : ((Registry.new catalog).serveAll reqs).lookup? role key = some i)
    (hj : ((Registry.new catalog).serveAll reqs).lookup? role' key' = some j)
    (h : i.id = j.id) : role = role' ∧ key = key' :=
  (sound_serveAll catalog reqs).eq_of_nodup (nodup_instances catalog reqs) hi hj h

/-! ## Coming and going -/

/-- A tool is replaced by another one, a stage cannot be activated, a directory cannot be read, and
a stage comes and is handed back. -/
def comingAndGoing : List (Request Unit) := [
  .register "A" .tool idle, .register "A" .tool idle, .register "B" .stage unwilling,
  .discover halfReadable [] "plugins", .register "B" .stage idle, .unregister .stage "B"]

/-- What becomes of four instances: the second one stays until the end. -/
theorem balanced_comingAndGoing :
    let h := (History.begin Dict.empty).serveAll comingAndGoing
    let i : Instance Unit := ⟨1, .tool, idle⟩
    (List.range 4).map (fun id => (activations id h.calls, deactivations id h.calls)) =
      [(1, 1), (1, 0), (1, 0), (1, 0)] ∧
    h.returned.map Instance.id = [3] ∧
    .activate i ∈ h.calls ∧ i.plugin.activation i.id = .ok () ∧ i ∉ h.returned ∧
    h.registry.Holds i ∧ deactivations i.id (h.serve .shutdown).calls = 1 := by
  intro h i
  obtain ⟨-, -, -, hplace, -, -, hshutdown⟩ := balanced_serveAll Dict.empty comingAndGoing
  have hcounts : (List.range 4).map (fun id => (activations id h.calls, deactivations id h.calls)) =
      [(1, 1), (1, 0), (1, 0), (1, 0)] := by decide +kernel
  have hreturned : h.returned.map Instance.id = [3] := by decide +kernel
  have hcalls : h.calls = [.activate ⟨0, .tool, idle⟩, .activate i, .deactivate ⟨0, .tool, idle⟩,
    .activate ⟨2, .stage, unwilling⟩, .activate ⟨3, .stage, idle⟩] := rfl
  have hactivated : LifeCall.activate i ∈ h.calls := by simp [hcalls]
  have hkept : i ∉ h.returned := fun hi => by
    have := hreturned ▸ List.mem_map_of_mem (f := Instance.id) hi
    simp [i] at this
  have hstays : h.registry.Holds i := by
    rcases hplace i hactivated rfl hkept with ⟨hholds, -⟩ | ⟨-, hgone⟩
    · exact hholds
    · exact absurd hgone (by decide +kernel)
  refine ⟨hcounts, hreturned, hactivated, rfl, hkept, hstays, ?_⟩
  refine hshutdown i (List.mem_append_left _ hactivated) rfl ?_
  simpa [History.serve, answer] using hkept

end Registry

end Qualification
