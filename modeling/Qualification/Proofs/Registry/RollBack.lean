import Qualification.Proofs.Registry.History
/-!
# Calls that fail

A registration or a discovery that fails leaves the registry as it was, and takes back what it did
to the instances that it had already activated. An instance that was there before is spared only if
the call does not bring it again; so what is said of instances rests on an explicit condition, that
those that a call brings are new.

* `LifeCall.activations`, `LifeCall.deactivations`: how often an instance was called;
* `Registry.Brings`, `Registry.Fails`: what candidates bring one after the other, and how the first
  one fails that does; `brings_of_foldlM`, `foldlM_of_brings`: both as a pass;
* `Registry.RolledBack`, `rolledBack_of_calls`: what a failed call leaves, and all that it calls;
* `Supply.New`, `Registry.Spared`, `spared_of_new`: what becomes of instances if all are new;
* **`rolledBack_of_error`**: every registration and every discovery that fails is rolled back;
* **`shared_instance_called`**: an instance that comes twice is called twice.
-/

namespace Qualification

variable {σ α : Type}

namespace LifeCall

/-- The instance that is called. -/
def inst : LifeCall σ → Instance σ
  | activate i => i
  | deactivate i => i

/-- How often the instance of a number is activated. -/
def activations (id : Nat) (calls : List (LifeCall σ)) : Nat :=
  calls.countP fun c => match c with
    | activate i => i.id == id
    | deactivate _ => false

/-- How often the instance of a number is deactivated. -/
def deactivations (id : Nat) (calls : List (LifeCall σ)) : Nat :=
  calls.countP fun c => match c with
    | activate _ => false
    | deactivate i => i.id == id

theorem activations_append (id : Nat) (a b : List (LifeCall σ)) :
    activations id (a ++ b) = activations id a + activations id b := List.countP_append

theorem deactivations_append (id : Nat) (a b : List (LifeCall σ)) :
    deactivations id (a ++ b) = deactivations id a + deactivations id b := List.countP_append

theorem activations_activate (id : Nat) (is : List (Instance σ)) :
    activations id (is.map activate) = (is.map Instance.id).count id := by
  rw [activations, List.countP_map, List.count, List.countP_map]
  rfl

theorem activations_deactivate (id : Nat) (is : List (Instance σ)) :
    activations id (is.map deactivate) = 0 := by
  simp [activations, List.countP_map]

theorem deactivations_activate (id : Nat) (is : List (Instance σ)) :
    deactivations id (is.map activate) = 0 := by
  simp [deactivations, List.countP_map]

theorem deactivations_deactivate (id : Nat) (is : List (Instance σ)) :
    deactivations id (is.map deactivate) = (is.map Instance.id).count id := by
  rw [deactivations, List.countP_map, List.count, List.countP_map]
  rfl

end LifeCall

namespace Registry

open LifeCall

/-! ## What a pass brings -/

/-- The plugins that candidates bring one after the other, each of which can be activated, from one
number of a loading to another. -/
inductive Brings (supply : Supply σ) (files : FileTree) (catalog : Catalog σ) :
    Nat → List Candidate → List (Registered σ) → Nat → Prop where
  | nil {n : Nat} : Brings supply files catalog n [] [] n
  /-- The file of a candidate has no entry for it. -/
  | skip {n m : Nat} {c : Candidate} {cs : List Candidate} {us : List (Registered σ)}
    (load : c.load files catalog = .ok none) (rest : Brings supply files catalog n cs us m) :
    Brings supply files catalog n (c :: cs) us m
  | bring {n m : Nat} {c : Candidate} {cs : List Candidate} {us : List (Registered σ)}
    {plugin : Plugin σ} (load : c.load files catalog = .ok (some plugin))
    (activated : supply.outcome n plugin = .ok ())
    (rest : Brings supply files catalog (n + 1) cs us m) :
    Brings supply files catalog n (c :: cs) (⟨c.key, supply.inst n c.role plugin⟩ :: us) m

/-- How a candidate fails: before it has an instance, or by the activation of that. -/
inductive Fails (supply : Supply σ) (files : FileTree) (catalog : Catalog σ) (n : Nat)
    (c : Candidate) : DiscoveryError → Option (Instance σ) → Prop where
  | load {e : DiscoveryError} (load : c.load files catalog = .error e) :
    Fails supply files catalog n c e none
  | activation {plugin : Plugin σ} {fault : Fault} (load : c.load files catalog = .ok (some plugin))
    (refused : supply.outcome n plugin = .error fault) :
    Fails supply files catalog n c (.activation c.stem fault.message)
      (some (supply.inst n c.role plugin))

section Pass

variable {supply : Supply σ} {files : FileTree} {catalog : Catalog σ} {n m : Nat}
  {c : Candidate} {cs : List Candidate} {us : List (Registered σ)} {s s' : Staged σ}
  {e : DiscoveryError} {failed : Option (Instance σ)}

/-- What candidates bring is staged. -/
theorem foldlM_of_brings (h : Brings supply files catalog n cs us m) (units : List (Registered σ))
    (calls : List (LifeCall σ)) : cs.foldlM (stageFrom supply files catalog) ⟨units, calls, n⟩ =
      .ok ⟨units ++ us, calls ++ (us.map Registered.inst).map activate, m⟩ := by
  induction h generalizing units calls with
  | nil => simp [pure, Except.pure]
  | skip load rest ih =>
    rw [List.foldlM_cons, stageFrom, load]
    exact ih units calls
  | bring load activated rest ih =>
    rw [List.foldlM_cons, stageFrom, load]
    dsimp only
    rw [activated]
    refine (ih _ _).trans ?_
    simp

/-- What is staged was brought by candidates. -/
theorem brings_of_foldlM (h : cs.foldlM (stageFrom supply files catalog) s = .ok s') :
    ∃ us, Brings supply files catalog s.nextInstance cs us s'.nextInstance ∧
      s'.units = s.units ++ us ∧ s'.calls = s.calls ++ (us.map Registered.inst).map activate := by
  induction cs generalizing s with
  | nil =>
    cases h
    exact ⟨[], .nil, by simp, by simp⟩
  | cons c cs ih =>
    rw [List.foldlM_cons] at h
    cases hc : stageFrom supply files catalog s c with
    | error x =>
      rw [hc] at h
      cases h
    | ok s₁ =>
      rw [hc] at h
      obtain ⟨us, hbrings, hunits, hcalls⟩ := ih h
      obtain ⟨hload, rfl⟩ | ⟨plugin, hload, hactivated, rfl⟩ := stageFrom_ok hc
      · exact ⟨us, hbrings.skip hload, hunits, hcalls⟩
      · exact ⟨_, hbrings.bring hload hactivated, by simp [hunits], by simp [hcalls]⟩

theorem stageFrom_of_fails (h : Fails supply files catalog s.nextInstance c e failed) :
    ∃ k, stageFrom supply files catalog s c =
      .error (e, ⟨s.units, s.calls ++ failed.toList.map activate, k⟩) := by
  cases h with
  | load load =>
    rw [stageFrom, load]
    exact ⟨s.nextInstance, by simp⟩
  | activation load refused =>
    rw [stageFrom, load]
    dsimp only
    rw [refused]
    exact ⟨_, rfl⟩

theorem fails_of_stageFrom (h : stageFrom supply files catalog s c = .error (e, s')) :
    ∃ failed, Fails supply files catalog s.nextInstance c e failed := by
  obtain ⟨hload, -⟩ | ⟨plugin, fault, hload, hrefused, rfl, -⟩ := stageFrom_error h
  · exact ⟨none, .load hload⟩
  · exact ⟨_, .activation hload hrefused⟩

end Pass

/-! ## What a failed call leaves -/

/-- What a failed call leaves that activated the instances `done` and failed to activate another
one, if any. Every answer of the registry is what it was. What was activated is deactivated, what
could not be is not, and nothing else is called. -/
structure RolledBack (r : Registry σ) (done : List (Instance σ)) (failed : Option (Instance σ))
    (x : Registration σ α) : Prop where
  units : ∀ role, x.registry.byRole role = r.byRole role
  order : x.registry.order = r.order
  lookup : ∀ role key, x.registry.lookup? role key = r.lookup? role key
  listing : x.registry.all = r.all
  ordered : x.registry.ordered = r.ordered
  calls : x.calls = (done ++ failed.toList).map activate ++ done.map deactivate

variable {r : Registry σ} {done : List (Instance σ)} {failed : Option (Instance σ)}

theorem rolledBack_of_calls {x : Registration σ α} {n : Nat}
    (hr : x.registry = { r with nextInstance := n })
    (hcalls : x.calls = (done ++ failed.toList).map activate ++ done.map deactivate) :
    r.RolledBack done failed x where
  units := by simp [hr]
  order := by rw [hr]
  lookup role key := by simp [hr, lookup?]
  listing := by simp [hr, Registry.all]
  ordered := by
    rw [hr]
    rfl
  calls := hcalls

/-- How many numbers are used up is of no account. -/
theorem RolledBack.of_nextInstance {x : Registration σ α} {n : Nat}
    (h : ({ r with nextInstance := n } : Registry σ).RolledBack done failed x) :
    r.RolledBack done failed x where
  units role := (h.units role).trans (by simp)
  order := h.order
  lookup role key := (h.lookup role key).trans (by simp [lookup?])
  listing := h.listing.trans (by simp [Registry.all])
  ordered := h.ordered
  calls := h.calls

/-- A discovery fails where a candidate does, and is rolled back. -/
theorem discoverFrom_of_fails {supply : Supply σ} {files : FileTree} {cwd : Place} {root : String}
    {before after : List Candidate} {c : Candidate} {us : List (Registered σ)} {m : Nat}
    {e : DiscoveryError} (hscan : Candidate.scan files cwd root = .ok (before ++ c :: after))
    (hbrings : Brings supply files r.catalog r.nextInstance before us m)
    (hfails : Fails supply files r.catalog m c e failed) :
    (r.discoverFrom supply files cwd root).result = .error e ∧
      r.RolledBack (us.map Registered.inst) failed (r.discoverFrom supply files cwd root) := by
  obtain ⟨k, hc⟩ := stageFrom_of_fails
    (s := ⟨[] ++ us, [] ++ (us.map Registered.inst).map activate, m⟩) hfails
  have hfold : (before ++ c :: after).foldlM (stageFrom supply files r.catalog)
      ⟨[], [], r.nextInstance⟩ = .error (e, ⟨us,
        (us.map Registered.inst).map activate ++ failed.toList.map activate, k⟩) := by
    rw [List.foldlM_append, foldlM_of_brings hbrings]
    show (c :: after).foldlM (stageFrom supply files r.catalog) _ = _
    rw [List.foldlM_cons, hc]
    rfl
  rw [discoverFrom_of_scan supply hscan, discoverAllFrom_of_error hfold]
  exact ⟨rfl, rolledBack_of_calls rfl (by simp)⟩

/-- Everything that a failed discovery can fail of. -/
theorem fails_of_discoverFrom {supply : Supply σ} {files : FileTree} {cwd : Place} {root : String}
    {e : DiscoveryError} (h : (r.discoverFrom supply files cwd root).result = .error e) :
    r.discoverFrom supply files cwd root = ⟨r, .error e, []⟩ ∨
    ∃ before c after us m failed, Candidate.scan files cwd root = .ok (before ++ c :: after) ∧
      Brings supply files r.catalog r.nextInstance before us m ∧
      Fails supply files r.catalog m c e failed := by
  cases hscan : Candidate.scan files cwd root with
  | error e' =>
    rw [discoverFrom_of_error supply hscan] at h ⊢
    cases h
    exact .inl rfl
  | ok cs =>
    rw [discoverFrom_of_scan supply hscan] at h
    cases hf : cs.foldlM (stageFrom supply files r.catalog) ⟨[], [], r.nextInstance⟩ with
    | ok s =>
      rw [discoverAllFrom_of_ok hf] at h
      cases h
    | error x =>
      obtain ⟨e', s⟩ := x
      rw [discoverAllFrom_of_error hf] at h
      cases h
      obtain ⟨before, c, after, s₁, rfl, hb, hc⟩ := foldlM_stageFrom_error hf
      obtain ⟨us, hbrings, -⟩ := brings_of_foldlM hb
      obtain ⟨failed, hfails⟩ := fails_of_stageFrom hc
      exact .inr ⟨before, c, after, us, _, failed, rfl, hbrings, hfails⟩

/-! ## New instances -/

end Registry

/-- Whether a supply hands out a new instance each time, from a number of the loading on: no two are
one, and none is among those that are `known` before. -/
structure Supply.New (supply : Supply σ) (known : Nat → Prop) (first : Nat) : Prop where
  distinct : ∀ n m p q, first ≤ n → n < m → supply.id n p ≠ supply.id m q
  unknown : ∀ n p, first ≤ n → ¬ known (supply.id n p)

/-- Instances that are numbered from those on that were given out before are new. -/
theorem Supply.new_fresh (first : Nat) : (fresh : Supply σ).New (· < first) first where
  distinct _ _ _ _ _ := Nat.ne_of_lt
  unknown _ _ := Nat.not_lt.mpr

namespace Registry

open LifeCall

/-- What becomes of instances in a failed call that brought new ones only. None that was known
before is called. What was activated in the call is deactivated once, and what could not be
activated is not. -/
structure Spared (known : Nat → Prop) (done : List (Instance σ)) (failed : Option (Instance σ))
    (calls : List (LifeCall σ)) : Prop where
  untouched : ∀ c ∈ calls, ¬ known c.inst.id
  once : ∀ i ∈ done ++ failed.toList, activations i.id calls = 1
  undone : ∀ i ∈ done, deactivations i.id calls = 1
  refused : ∀ i ∈ failed, deactivations i.id calls = 0

section New

variable {known : Nat → Prop} {r : Registry σ} {done : List (Instance σ)}
  {failed : Option (Instance σ)}

/-- **New instances that are activated and deactivated again leave nothing behind.** -/
theorem spared_of_new {x : Registration σ α} (h : r.RolledBack done failed x)
    (hids : ((done ++ failed.toList).map Instance.id).Nodup)
    (hnew : ∀ i ∈ done ++ failed.toList, ¬ known i.id) : Spared known done failed x.calls := by
  have hcount : ∀ i : Instance σ,
      deactivations i.id x.calls = (done.map Instance.id).count i.id := by
    intro i
    rw [h.calls, deactivations_append, deactivations_activate, deactivations_deactivate,
      Nat.zero_add]
  obtain ⟨hdoneIds, -, hdisjoint⟩ := List.nodup_append.mp (List.map_append ▸ hids)
  constructor
  case untouched =>
    intro c hc
    rw [h.calls, List.mem_append] at hc
    rcases hc with hc | hc
    · obtain ⟨i, hi, rfl⟩ := List.mem_map.mp hc
      exact hnew i hi
    · obtain ⟨i, hi, rfl⟩ := List.mem_map.mp hc
      exact hnew i (List.mem_append_left _ hi)
  case once =>
    intro i hi
    rw [h.calls, activations_append, activations_activate, activations_deactivate, Nat.add_zero]
    exact List.count_eq_one_of_mem hids (List.mem_map_of_mem hi)
  case undone =>
    intro i hi
    rw [hcount]
    exact List.count_eq_one_of_mem hdoneIds (List.mem_map_of_mem hi)
  case refused =>
    intro i hi
    rw [hcount, List.count_eq_zero]
    exact fun h => hdisjoint _ h _ (List.mem_map_of_mem (Option.mem_toList.mpr hi)) rfl

variable {supply : Supply σ} {files : FileTree} {catalog : Catalog σ} {n m : Nat}
  {cs : List Candidate} {us : List (Registered σ)}

/-- The instances of a pass are handed out by its loadings. -/
theorem Brings.ids (h : Brings supply files catalog n cs us m) :
    n ≤ m ∧ ∀ u ∈ us, ∃ k p, n ≤ k ∧ k < m ∧ u.inst.id = supply.id k p := by
  induction h with
  | nil => exact ⟨le_rfl, List.forall_mem_nil _⟩
  | skip _ _ ih => exact ih
  | @bring n m c cs us plugin _ _ _ ih =>
    obtain ⟨hle, hids⟩ := ih
    refine ⟨Nat.le_of_succ_le hle, List.forall_mem_cons.mpr ⟨⟨n, plugin, le_rfl, hle, rfl⟩, ?_⟩⟩
    intro u hu
    obtain ⟨k, p, hk, hm, hid⟩ := hids u hu
    exact ⟨k, p, Nat.le_of_succ_le hk, hm, hid⟩

/-- No instance comes twice in a pass if each is a new one. -/
theorem Brings.nodup (h : Brings supply files catalog n cs us m)
    (hdistinct : ∀ k l p q, n ≤ k → k < l → supply.id k p ≠ supply.id l q) :
    (us.map fun u => u.inst.id).Nodup := by
  induction h with
  | nil => exact List.nodup_nil
  | skip _ _ ih => exact ih hdistinct
  | @bring n m c cs us plugin _ _ rest ih =>
    rw [List.map_cons, List.nodup_cons]
    refine ⟨fun hmem => ?_, ih fun k l p q hk => hdistinct k l p q (Nat.le_of_succ_le hk)⟩
    obtain ⟨u, hu, hid⟩ := List.mem_map.mp hmem
    obtain ⟨k, p, hk, -, hkid⟩ := rest.ids.2 u hu
    exact hdistinct n k plugin p le_rfl hk (hid.symm.trans hkid)

/-- The instance whose activation fails is handed out by the loading of its candidate. -/
theorem Fails.id {c : Candidate} {e : DiscoveryError} (h : Fails supply files catalog n c e failed) :
    ∀ i ∈ failed, ∃ p, i.id = supply.id n p := by
  cases h with
  | load => exact nofun
  | @activation plugin =>
    rintro i ⟨⟩
    exact ⟨plugin, rfl⟩

/-- A pass that fails spares all instances that were known, if each that it brings is new. -/
theorem spared_of_fails {x : Registration σ α} {c : Candidate} {e : DiscoveryError}
    (hx : r.RolledBack (us.map Registered.inst) failed x)
    (hbrings : Brings supply files catalog n cs us m)
    (hfails : Fails supply files catalog m c e failed) (hnew : supply.New known n) :
    Spared known (us.map Registered.inst) failed x.calls := by
  obtain ⟨hle, hids⟩ := hbrings.ids
  have hdone : ∀ i ∈ us.map Registered.inst, ∃ k p, n ≤ k ∧ k < m ∧ i.id = supply.id k p :=
    List.forall_mem_map.mpr hids
  have hfailed : ∀ i ∈ failed.toList, ∃ p, i.id = supply.id m p :=
    fun i hi => hfails.id i (Option.mem_toList.mp hi)
  refine spared_of_new hx ?_ fun i hi => ?_
  · rw [List.map_append, List.nodup_append]
    refine ⟨?_, ?_, ?_⟩
    · rw [List.map_map]
      exact hbrings.nodup hnew.distinct
    · cases failed <;> simp
    · intro a ha b hb
      obtain ⟨i, hi, rfl⟩ := List.mem_map.mp ha
      obtain ⟨j, hj, rfl⟩ := List.mem_map.mp hb
      obtain ⟨k, p, hk, hm, hi⟩ := hdone i hi
      obtain ⟨q, hj⟩ := hfailed j hj
      rw [hi, hj]
      exact hnew.distinct k m p q hk hm
  · rcases List.mem_append.mp hi with hi | hi
    · obtain ⟨k, p, hk, -, hi⟩ := hdone i hi
      exact hi ▸ hnew.unknown k p hk
    · obtain ⟨p, hi⟩ := hfailed i hi
      exact hi ▸ hnew.unknown m p hle

end New

/-- A registration that fails is rolled back. -/
theorem rolledBack_takeIn {r : Registry σ} {key : String} {inst : Instance σ}
    {outcome : Except Fault Unit} {e : DiscoveryError}
    (he : (r.takeIn key inst outcome).result = .error e) : ∃ failed : Option (Instance σ),
      r.RolledBack [] failed (r.takeIn key inst outcome) ∧ ∀ i ∈ failed, i = inst ∧
        ∃ fault, outcome = .error fault ∧ e = .activation key fault.message := by
  unfold takeIn at he ⊢
  split_ifs at he ⊢
  · exact ⟨none, rolledBack_of_calls rfl rfl, nofun⟩
  · cases outcome with
    | ok => cases he
    | error fault =>
      cases he
      refine ⟨some inst, rolledBack_of_calls rfl rfl, ?_⟩
      rintro i ⟨⟩
      exact ⟨rfl, fault, rfl, rfl⟩

/-- A registration of an instance that was not known spares all that were. -/
theorem spared_takeIn {r : Registry σ} {known : Nat → Prop} {key : String} {inst : Instance σ}
    {outcome : Except Fault Unit} {failed : Option (Instance σ)}
    (h : r.RolledBack [] failed (r.takeIn key inst outcome)) (hfailed : ∀ i ∈ failed, i = inst)
    (hnew : ¬ known inst.id) : Spared known [] failed (r.takeIn key inst outcome).calls := by
  refine spared_of_new h ?_ fun i hi => ?_
  · cases failed <;> simp
  · rw [hfailed i (by simpa using hi)]
    exact hnew

/-- A discovery that fails is rolled back. -/
theorem rolledBack_discoverFrom {r : Registry σ} {supply : Supply σ} {files : FileTree}
    {cwd : Place} {root : String} {e : DiscoveryError}
    (he : (r.discoverFrom supply files cwd root).result = .error e) :
    ∃ done failed, r.RolledBack done failed (r.discoverFrom supply files cwd root) ∧
      ∀ known, supply.New known r.nextInstance →
        Spared known done failed (r.discoverFrom supply files cwd root).calls := by
  rcases fails_of_discoverFrom he with hscan | ⟨before, c, after, us, m, failed, hscan, hbrings,
    hfails⟩
  · have hrolledBack : r.RolledBack [] none (r.discoverFrom supply files cwd root) := by
      rw [hscan]
      exact rolledBack_of_calls rfl rfl
    exact ⟨[], none, hrolledBack, fun _ _ => spared_of_new hrolledBack (by simp) (by simp)⟩
  · have hrolledBack := (discoverFrom_of_fails hscan hbrings hfails).2
    exact ⟨_, failed, hrolledBack, fun _ => spared_of_fails hrolledBack hbrings hfails⟩

/-- **Every registration and every discovery that fails is rolled back**, whatever the registry is
and whichever instances come: all its answers are what they were, and what was activated is
deactivated again. If the call brings new instances only, none that was `known` before is called,
what was activated is deactivated once, and what could not be activated is not; instances that are
numbered one by one are such. A discovery fails wherever one of its candidates does. -/
theorem rolledBack_of_error (r : Registry σ) (known : Nat → Prop) :
    (∀ key inst outcome e, (r.takeIn key inst outcome).result = .error e →
      ∃ failed : Option (Instance σ), r.RolledBack [] failed (r.takeIn key inst outcome) ∧
        (∀ i ∈ failed, i = inst ∧ ∃ fault, outcome = .error fault ∧
          e = .activation key fault.message) ∧
        (¬ known inst.id → Spared known [] failed (r.takeIn key inst outcome).calls)) ∧
    (∀ supply files cwd root e, (r.discoverFrom supply files cwd root).result = .error e →
      ∃ done failed, r.RolledBack done failed (r.discoverFrom supply files cwd root) ∧
        (supply.New known r.nextInstance →
          Spared known done failed (r.discoverFrom supply files cwd root).calls)) ∧
    (∀ supply files cwd root before c after us m e failed,
      Candidate.scan files cwd root = .ok (before ++ c :: after) →
      Brings supply files r.catalog r.nextInstance before us m →
      Fails supply files r.catalog m c e failed →
      (r.discoverFrom supply files cwd root).result = .error e ∧
        r.RolledBack (us.map Registered.inst) failed (r.discoverFrom supply files cwd root)) ∧
    (∀ key role plugin e, (r.register key role plugin).result = .error e →
      ∃ failed, r.RolledBack [] failed (r.register key role plugin) ∧
        Spared (· < r.nextInstance) [] failed (r.register key role plugin).calls) ∧
    ∀ files cwd root e, (r.discover files cwd root).result = .error e →
      ∃ done failed, r.RolledBack done failed (r.discover files cwd root) ∧
        Spared (· < r.nextInstance) done failed (r.discover files cwd root).calls := by
  refine ⟨fun key inst outcome e he => ?_, fun supply files cwd root e he => ?_,
    fun _ _ _ _ _ _ _ _ _ _ _ => discoverFrom_of_fails, fun key role plugin e he => ?_,
    fun files cwd root e he => ?_⟩
  · obtain ⟨failed, hrolledBack, hfailed⟩ := rolledBack_takeIn he
    exact ⟨failed, hrolledBack, hfailed, spared_takeIn hrolledBack fun i hi => (hfailed i hi).1⟩
  · obtain ⟨done, failed, hrolledBack, hspared⟩ := rolledBack_discoverFrom he
    exact ⟨done, failed, hrolledBack, hspared known⟩
  · obtain ⟨failed, hrolledBack, hfailed⟩ := rolledBack_takeIn he
    exact ⟨failed, hrolledBack.of_nextInstance,
      spared_takeIn hrolledBack (fun i hi => (hfailed i hi).1) (Nat.lt_irrefl _)⟩
  · obtain ⟨done, failed, hrolledBack, hspared⟩ := rolledBack_discoverFrom he
    exact ⟨done, failed, hrolledBack, hspared _ (Supply.new_fresh r.nextInstance)⟩

/-! ## Three files -/

/-- A plugin that cannot be activated. -/
def unwilling : Plugin Unit :=
  { Plugin.simple "unwilling" (fun _ _ log _ => Act.pure (log, .ok ())) with
    activation := fun _ => .error (.ofText "not today") }

/-- Two files of which the second is no text. -/
def halfReadable : FileTree := ⟨[(["plugins"], .directory),
  (["plugins", "ATool.yaml"], .file ByteArray.empty),
  (["plugins", "BTool.yaml"], .file ⟨#[255]⟩)]⟩

/-- A plugin that does nothing. -/
def idle : Plugin Unit := Plugin.simple "idle" fun _ _ log _ => Act.pure (log, .ok ())

/-- One implementation, which builds idle plugins. -/
def idleCatalog : Catalog Unit := Dict.ofList [("command", fun role _ _ => .ok (role, idle))]

/-- The text of a file with an empty entry for a tool. -/
def entryText : String := "'ATool':"

/-- What such a file holds. -/
def entryDocument : Yaml.Document :=
  ⟨some (.mapping none [(.scalar none "ATool" .singleQuoted, .scalar none "" .plain)]), [], 4⟩

theorem value?_entryText : Yaml.value? entryText = some (.mapping [(.text "ATool", .null)]) := by
  have htokens : Yaml.tokens? entryText = some [.blockMapping, .key,
      .scalar "ATool".toList .singleQuoted, .value, .blockEnd, .streamEnd] := by decide +kernel
  have hdocument : Yaml.document? entryText = some entryDocument := by
    rw [Yaml.document?, htokens]
    rfl
  have hnull : Yaml.plainValue? "" = some .null := rfl
  rw [Yaml.value?, hdocument]
  simp [entryDocument, Yaml.Document.value?, Yaml.Document.maxDepth, Yaml.Document.valueOf?,
    Yaml.Document.follow?, Yaml.Document.entriesOf?, Yaml.Document.withTag, Yaml.scalarValue?,
    hnull]

/-- A candidate in such a file has an idle plugin. -/
theorem load_of_entryText {files : FileTree} {c : Candidate}
    (h : (files.read? c.place).bind Text.decode? = some entryText) (hstem : c.stem = "ATool")
    (hrole : c.role = .tool) (hkey : c.key = "A") :
    c.load files idleCatalog = .ok (some idle) := by
  have hdefinition : PluginDefinition.ofYaml? .null = some PluginDefinition.empty := rfl
  have hblank : Text.isBlankText "A" = false := by decide +kernel
  have hentry : Candidate.entry? files c = .ok (some .null) := by
    unfold Candidate.entry?
    rw [h, hstem]
    simp only [value?_entryText]
    rfl
  unfold Candidate.load
  rw [hentry]
  simp only [hdefinition]
  unfold Candidate.build
  rw [hkey, hblank, hrole]
  rfl

/-- Two files for one tool, and after them one that is no text. -/
def threeFiles : FileTree := ⟨[(["p"], .directory), (["p", "a"], .directory),
  (["p", "a", "ATool.yaml"], .file entryText.toUTF8), (["p", "b"], .directory),
  (["p", "b", "ATool.yaml"], .file entryText.toUTF8), (["p", "c"], .directory),
  (["p", "c", "BTool.yaml"], .file ⟨#[255]⟩)]⟩

/-- The candidate of one of the files. -/
def ofThree (directory stem key : String) : Candidate :=
  ⟨[directory, stem ++ ".yaml"], "p/" ++ directory ++ "/" ++ stem ++ ".yaml",
    ["p", directory, stem ++ ".yaml"], stem, .tool, key⟩

theorem scan_threeFiles : Candidate.scan threeFiles [] "p" =
    .ok ([ofThree "a" "ATool" "A", ofThree "b" "ATool" "A"] ++ ofThree "c" "BTool" "B" :: []) := by
  decide +kernel

/-- The first two files bring an idle tool each, if it can be activated. -/
theorem brings_threeFiles (supply : Supply Unit) (h : ∀ n, supply.outcome n idle = .ok ())
    (n : Nat) : Brings supply threeFiles idleCatalog n
      [ofThree "a" "ATool" "A", ofThree "b" "ATool" "A"]
      [⟨"A", supply.inst n .tool idle⟩, ⟨"A", supply.inst (n + 1) .tool idle⟩] (n + 2) :=
  .bring (load_of_entryText (by decide +kernel) rfl rfl rfl) (h n)
    (.bring (load_of_entryText (by decide +kernel) rfl rfl rfl) (h (n + 1)) .nil)

/-- The third one cannot be read. -/
theorem fails_threeFiles (supply : Supply Unit) (n : Nat) :
    Fails supply threeFiles idleCatalog n (ofThree "c" "BTool" "B")
      (.unreadable "p/c/BTool.yaml") none := .load rfl

/-- An instance that cannot be activated, and a directory in which the last of three files cannot be
read, after another instance is there: each of two new ones is activated and deactivated. -/
theorem rolledBack_unwilling_threeFiles :
    let r := ((Registry.new idleCatalog).register "A" .tool idle).registry
    let x := r.takeIn "B" ⟨1, .stage, unwilling⟩ (.error (.ofText "not today"))
    let y := r.discoverFrom .fresh threeFiles [] "p"
    let found := [⟨1, .tool, idle⟩, ⟨2, .tool, idle⟩]
    (¬ (1 < 1) ∧ (Supply.fresh : Supply Unit).New (· < 1) r.nextInstance ∧ r.nextInstance = 1) ∧
    (x.result = .error (.activation "B" "not today") ∧
      ∃ failed, r.RolledBack [] failed x ∧ Spared (· < 1) [] failed x.calls) ∧
    (y.result = .error (.unreadable "p/c/BTool.yaml") ∧ r.RolledBack found none y) ∧
    ∃ done failed, r.RolledBack done failed y ∧ Spared (· < 1) done failed y.calls := by
  intro r x y found
  obtain ⟨htakeIn, hdiscover, hfails, -⟩ := rolledBack_of_error r (· < 1)
  have hnew : (Supply.fresh : Supply Unit).New (· < 1) r.nextInstance := Supply.new_fresh 1
  obtain ⟨failed, hx, -, hspared⟩ := htakeIn "B" ⟨1, .stage, unwilling⟩
    (.error (.ofText "not today")) (.activation "B" "not today") rfl
  have hy := hfails .fresh threeFiles [] "p" _ _ _ _ _ _ none scan_threeFiles
    (brings_threeFiles .fresh (fun _ => rfl) 1) (fails_threeFiles .fresh 3)
  obtain ⟨done, failed', hy', hspared'⟩ := hdiscover .fresh threeFiles [] "p" _ hy.1
  exact ⟨⟨by decide, hnew, rfl⟩, ⟨rfl, failed, hx, hspared (by decide)⟩, hy, done, failed', hy',
    hspared' hnew⟩

/-- **An instance that comes twice is called twice.** A tool that is there under one key is
registered under another one as well and cannot be activated again; and factories that hand out one
instance for two files have it deactivated twice. -/
theorem shared_instance_called :
    let tool : Instance Unit := ⟨0, .tool, idle⟩
    let r := ((Registry.new idleCatalog).takeIn "A" tool (.ok ())).registry
    let x := r.takeIn "B" tool (.error (.ofText "busy"))
    let shared : Supply Unit := ⟨fun _ _ => 7, fun _ _ => .ok ()⟩
    let y := (Registry.new idleCatalog).discoverFrom shared threeFiles [] "p"
    (r.lookup? .tool "A" = some tool ∧ x.result = .error (.activation "B" "busy") ∧
      .activate tool ∈ x.calls) ∧
    y.result = .error (.unreadable "p/c/BTool.yaml") ∧ activations 7 y.calls = 2 ∧
      deactivations 7 y.calls = 2 := by
  intro tool r x shared y
  obtain ⟨hresult, hy⟩ := discoverFrom_of_fails (r := Registry.new idleCatalog) scan_threeFiles
    (brings_threeFiles shared (fun _ => rfl) 0) (fails_threeFiles shared 2)
  refine ⟨⟨rfl, rfl, List.mem_singleton.mpr rfl⟩, hresult, ?_, ?_⟩
  · rw [show y.calls = _ from hy.calls]
    decide
  · rw [show y.calls = _ from hy.calls]
    decide

end Registry

end Qualification
