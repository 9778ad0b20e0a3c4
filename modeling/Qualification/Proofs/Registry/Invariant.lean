import Qualification.Proofs.Registry.Order
import Qualification.Registry.Basic
/-!
# What every registry keeps

The plugins and the order of the stages are changed by different statements of the same operation.
`Registry.Sound` says that they agree, and every operation keeps it.

* `lookup?_commit`, `order_commit`, `lookup?_takeOut`: what an operation does to the look-ups;
* `Registry.Sound`, `Sound.commit`, `Sound.commitAll`, `Sound.takeOut`, `sound_new`;
* **`ordered_entries`**, **`ordered_perm`**: the stages in order are the registered ones.
-/

namespace Qualification.Registry

variable {σ : Type} {r : Registry σ}

/-! ## Look-ups after a change -/

@[simp] theorem byRole_withRole (r : Registry σ) (role role' : Role) (d : Dict (Instance σ)) :
    (r.withRole role d).byRole role' = if role' = role then d else r.byRole role' := by
  cases role <;> cases role' <;> rfl

@[simp] theorem order_withRole (r : Registry σ) (role : Role) (d : Dict (Instance σ)) :
    (r.withRole role d).order = r.order := by
  cases role <;> rfl

@[simp] theorem nextInstance_withRole (r : Registry σ) (role : Role) (d : Dict (Instance σ)) :
    (r.withRole role d).nextInstance = r.nextInstance := by
  cases role <;> rfl

@[simp] theorem catalog_withRole (r : Registry σ) (role : Role) (d : Dict (Instance σ)) :
    (r.withRole role d).catalog = r.catalog := by
  cases role <;> rfl

@[simp] theorem byRole_order (r : Registry σ) (o : Order) (role : Role) :
    ({ r with order := o } : Registry σ).byRole role = r.byRole role := by
  cases role <;> rfl

@[simp] theorem byRole_nextInstance (r : Registry σ) (n : Nat) (role : Role) :
    ({ r with nextInstance := n } : Registry σ).byRole role = r.byRole role := by
  cases role <;> rfl

/-- The plugin of a key after another one was put under a key. -/
theorem lookup?_commit (r : Registry σ) (u : Registered σ) (role : Role) (key : String) :
    (r.commit u).1.lookup? role key =
      if role = u.inst.role ∧ key = u.key then some u.inst else r.lookup? role key := by
  simp only [lookup?, commit, byRole_withRole, byRole_order]
  by_cases hr : role = u.inst.role
  · simp [hr]
  · simp [hr]

@[simp] theorem nextInstance_commit (r : Registry σ) (u : Registered σ) :
    (r.commit u).1.nextInstance = r.nextInstance := by
  simp [commit]

@[simp] theorem catalog_commit (r : Registry σ) (u : Registered σ) :
    (r.commit u).1.catalog = r.catalog := by
  simp [commit]

/-- Only a stage has a place in the order. -/
theorem order_commit (r : Registry σ) (u : Registered σ) : (r.commit u).1.order =
    if u.inst.role = .stage then r.order.insert u.key u.inst.plugin.ordering else r.order := by
  simp only [commit, order_withRole, Instance.orderingKey?]
  split_ifs <;> rfl

/-- The registry after a plugin was taken out. -/
def takeOut (r : Registry σ) (role : Role) (key : String) : Registry σ := (r.unregister role key).2

theorem takeOut_of_none {role : Role} {key : String} (h : r.lookup? role key = none) :
    r.takeOut role key = r := by
  rw [takeOut, unregister, h]

theorem takeOut_of_some {role : Role} {key : String} {i : Instance σ}
    (h : r.lookup? role key = some i) : r.takeOut role key =
      { r with order := if role = Role.stage then r.order.remove key else r.order }.withRole role
        ((r.byRole role).erase key) := by
  rw [takeOut, unregister, h]

/-- The plugin of a key after one was taken out. -/
theorem lookup?_takeOut (r : Registry σ) (role : Role) (key : String) (role' : Role)
    (key' : String) : (r.takeOut role key).lookup? role' key' =
      if role' = role ∧ key' = key then none else r.lookup? role' key' := by
  cases hl : r.lookup? role key with
  | none =>
    rw [takeOut_of_none hl]
    split_ifs with h
    · rw [h.1, h.2, hl]
    · rfl
  | some i =>
    rw [takeOut_of_some hl]
    simp only [lookup?, byRole_withRole, byRole_order]
    by_cases hr : role' = role
    · simp [hr]
    · simp [hr]

@[simp] theorem nextInstance_takeOut (r : Registry σ) (role : Role) (key : String) :
    (r.takeOut role key).nextInstance = r.nextInstance := by
  cases hl : r.lookup? role key with
  | none => rw [takeOut_of_none hl]
  | some i => rw [takeOut_of_some hl, nextInstance_withRole]

theorem order_takeOut (r : Registry σ) (role : Role) (key : String) : (r.takeOut role key).order =
    if role = .stage ∧ (r.lookup? role key).isSome then r.order.remove key else r.order := by
  cases hl : r.lookup? role key with
  | none => simp [takeOut_of_none hl]
  | some i => simp [takeOut_of_some hl]

/-- A stage in order is one that can be looked up. -/
theorem lookup?_of_mem_ordered {u : Registered σ} (h : u ∈ r.ordered) :
    r.lookup? .stage u.key = some u.inst := by
  obtain ⟨name, -, hname⟩ := List.mem_filterMap.mp h
  obtain ⟨inst, hinst, rfl⟩ := Option.map_eq_some_iff.mp hname
  exact hinst

/-! ## The invariant -/

/-- The order holds the stages under their keys with their ordering keys; plugins are registered in
their own roles, under keys that are not blank, and their numbers are spent. -/
structure Sound (r : Registry σ) : Prop where
  order : r.order.Sound
  keyOf : ∀ name, r.order.keyOf? name = (r.lookup? .stage name).map fun i => i.plugin.ordering
  role : ∀ {role key i}, r.lookup? role key = some i → i.role = role
  key : ∀ {role key i}, r.lookup? role key = some i → Text.isBlankText key = false
  issued : ∀ {role key i}, r.lookup? role key = some i → i.id < r.nextInstance

theorem sound_new (catalog : Catalog σ) (n : Nat) :
    ({ Registry.new catalog with nextInstance := n } : Registry σ).Sound := by
  have hnone : ∀ role key,
      ({ Registry.new catalog with nextInstance := n } : Registry σ).lookup? role key = none := by
    intro role key
    cases role <;> rfl
  refine ⟨Order.sound_empty, fun name => ?_, ?_, ?_, ?_⟩
  · rw [hnone]
    rfl
  all_goals
    intro role key i h
    rw [hnone] at h
    cases h

namespace Sound

/-- Numbers may be spent without a plugin. -/
theorem skip (h : r.Sound) {n : Nat} (hn : r.nextInstance ≤ n) :
    ({ r with nextInstance := n } : Registry σ).Sound where
  order := h.order
  keyOf name := h.keyOf name
  role {role key i} hi := h.role (by simpa [lookup?] using hi)
  key {role key i} hi := h.key (by simpa [lookup?] using hi)
  issued {role key i} hi := Nat.lt_of_lt_of_le (h.issued (by simpa [lookup?] using hi)) hn

/-- **Putting a plugin under a key keeps a registry sound.** -/
theorem commit (h : r.Sound) {u : Registered σ} (hkey : Text.isBlankText u.key = false)
    (hid : u.inst.id < r.nextInstance) : (r.commit u).1.Sound where
  order := by
    rw [order_commit]
    split_ifs
    · exact h.order.insert _ _
    · exact h.order
  keyOf name := by
    rw [order_commit, lookup?_commit]
    by_cases hr : u.inst.role = .stage
    · by_cases hn : name = u.key
      · simp [hr, hn, h.order.keyOf?_insert]
      · simp [hr, hn, h.order.keyOf?_insert, h.keyOf]
    · simp [hr, Ne.symm hr, h.keyOf]
  role {role key i} hi := by
    rw [lookup?_commit] at hi
    split_ifs at hi with hu
    · cases hi
      exact hu.1.symm
    · exact h.role hi
  key {role key i} hi := by
    rw [lookup?_commit] at hi
    split_ifs at hi with hu
    · exact hu.2 ▸ hkey
    · exact h.key hi
  issued {role key i} hi := by
    rw [lookup?_commit] at hi
    rw [nextInstance_commit]
    split_ifs at hi with hu
    · cases hi
      exact hid
    · exact h.issued hi

theorem commitAll {us : List (Registered σ)} (h : r.Sound)
    (hkey : ∀ u ∈ us, Text.isBlankText u.key = false) (hid : ∀ u ∈ us, u.inst.id < r.nextInstance) :
    (r.commitAll us).1.Sound := by
  induction us generalizing r with
  | nil => exact h
  | cons u us ih =>
    have hu := h.commit (hkey u List.mem_cons_self) (hid u List.mem_cons_self)
    have hid' : ∀ v ∈ us, v.inst.id < (r.commit u).1.nextInstance := fun v hv => by
      rw [nextInstance_commit]
      exact hid v (List.mem_cons_of_mem _ hv)
    exact ih hu (fun v hv => hkey v (List.mem_cons_of_mem _ hv)) hid'

/-- **Taking a plugin out keeps a registry sound.** -/
theorem takeOut (h : r.Sound) (role : Role) (key : String) : (r.takeOut role key).Sound where
  order := by
    rw [order_takeOut]
    split_ifs
    · exact h.order.remove _
    · exact h.order
  keyOf name := by
    rw [order_takeOut, lookup?_takeOut]
    by_cases hr : role = .stage
    · subst hr
      by_cases hn : name = key
      · subst hn
        cases hl : r.lookup? .stage name with
        | none => simp [h.keyOf, hl]
        | some i => simp [h.order.keyOf?_remove]
      · cases hl : r.lookup? .stage key with
        | none => simp [hn, h.keyOf]
        | some i => simp [hn, h.order.keyOf?_remove, h.keyOf]
    · simp [hr, Ne.symm hr, h.keyOf]
  role {role' key' i} hi := by
    rw [lookup?_takeOut] at hi
    split_ifs at hi
    exact h.role hi
  key {role' key' i} hi := by
    rw [lookup?_takeOut] at hi
    split_ifs at hi
    exact h.key hi
  issued {role' key' i} hi := by
    rw [lookup?_takeOut] at hi
    rw [nextInstance_takeOut]
    split_ifs at hi
    exact h.issued hi

/-! ## The stages in order -/

theorem keyOf?_eq_some_iff (h : r.Sound) {name : String} {key : Int} :
    r.order.keyOf? name = some key ↔
    ∃ i, r.lookup? .stage name = some i ∧ i.plugin.ordering = key := by
  rw [h.keyOf, Option.map_eq_some_iff]

theorem mem_names_iff (h : r.Sound) {name : String} :
    name ∈ r.order.names ↔ ∃ i, r.lookup? .stage name = some i := by
  simp [h.order.mem_names_iff, h.keyOf?_eq_some_iff]

/-- The names in the order are the keys of the stages, each once. -/
theorem names_perm (h : r.Sound) : r.order.names.Perm r.stages.keys := by
  refine (List.perm_ext_iff_of_nodup h.order.distinct r.stages.keys_nodup).mpr fun name => ?_
  rw [h.mem_names_iff, Dict.mem_keys_iff, Option.isSome_iff_exists]
  rfl

theorem mem_ordered_iff (h : r.Sound) {u : Registered σ} :
    u ∈ r.ordered ↔ r.lookup? .stage u.key = some u.inst := by
  refine ⟨lookup?_of_mem_ordered, fun hu => List.mem_filterMap.mpr ?_⟩
  exact ⟨u.key, h.mem_names_iff.mpr ⟨_, hu⟩, Option.map_eq_some_iff.mpr ⟨u.inst, hu, rfl⟩⟩

/-- **The stages in order have the entries of the order.** -/
theorem ordered_entries (h : r.Sound) :
    (r.ordered.map fun u => (u.key, u.inst.plugin.ordering)) = r.order.entries := by
  unfold ordered
  rw [← h.order.map_fst_entries, List.filterMap_map, List.map_filterMap]
  calc _ = r.order.entries.filterMap some := by
        refine List.filterMap_congr fun e he => ?_
        obtain ⟨i, hi, hkey⟩ := h.keyOf?_eq_some_iff.mp (h.order.keyOf?_eq_some_iff.mpr he)
        have hi' : r.stages.get? e.1 = some i := hi
        simp [hi', hkey]
    _ = _ := List.filterMap_some

theorem ordered_keys (h : r.Sound) : r.ordered.map Registered.key = r.order.names := by
  rw [← h.order.map_fst_entries, ← h.ordered_entries, List.map_map]
  rfl

theorem ordered_ascending (h : r.Sound) :
    r.ordered.Pairwise fun a b => a.inst.plugin.ordering ≤ b.inst.plugin.ordering := by
  have hs := h.order.ascending_entries
  rw [← h.ordered_entries, List.pairwise_map] at hs
  exact hs

/-- **The stages in order are the registered ones**, each once. -/
theorem ordered_perm (h : r.Sound) :
    r.ordered.Perm (r.stages.toList.map fun e => (⟨e.1, e.2⟩ : Registered σ)) := by
  have hd : r.ordered.Nodup := List.Nodup.of_map _ (h.ordered_keys ▸ h.order.distinct)
  have hd' : (r.stages.toList.map fun e => (⟨e.1, e.2⟩ : Registered σ)).Nodup := by
    refine List.Nodup.of_map Registered.key ?_
    rw [List.map_map]
    exact r.stages.keys_nodup
  refine (List.perm_ext_iff_of_nodup hd hd').mpr fun u => ?_
  rw [h.mem_ordered_iff, List.mem_map]
  constructor
  · intro hu
    exact ⟨(u.key, u.inst), Dict.mem_toList_iff.mpr hu, rfl⟩
  · rintro ⟨e, he, rfl⟩
    exact Dict.mem_toList_iff.mp he

end Sound

end Qualification.Registry
