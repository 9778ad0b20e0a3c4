import Qualification.Proofs.Registry.Discovery
/-!
# Histories of a registry

A registry begins empty and answers requests in any order, of which some may fail.

* `Registry.Request`, `Registry.serve`, `Registry.serveAll`;
* `register_of_blank`, `register_of_error`, `register_of_ok`: the three ways of a registration;
* `Sound.serve`, **`sound_serveAll`**: every registry that there can be is sound;
* **`order_serveAll`**: after any requests the order holds the stages, and the stages in order are
  the registered ones.
-/

namespace Qualification.Registry

variable {σ : Type}

/-- A call on a registry. -/
inductive Request (σ : Type) where
  | register (key : String) (role : Role) (plugin : Plugin σ)
  | discover (files : FileTree) (cwd : Place) (root : String)
  | unregister (role : Role) (key : String)
  | shutdown

/-- The registry after a call. -/
def serve (r : Registry σ) : Request σ → Registry σ
  | .register key role plugin => (r.register key role plugin).registry
  | .discover files cwd root => (r.discover files cwd root).registry
  | .unregister role key => (r.unregister role key).2
  | .shutdown => r.shutdown.1

/-- The registry after calls, one after the other. -/
def serveAll (r : Registry σ) (reqs : List (Request σ)) : Registry σ := reqs.foldl serve r

variable {r : Registry σ}

/-! ## Registrations -/

section Register

variable {key : String} (role : Role) {plugin : Plugin σ}

theorem register_of_blank (h : Text.isBlankText key = true) : r.register key role plugin =
    ⟨{ r with nextInstance := r.nextInstance + 1 },
      .error (.invalid plugin.display "registry key is empty"), []⟩ := by
  simp [register, instantiate, takeIn, h]

theorem register_of_error (h : Text.isBlankText key = false) {fault : Fault}
    (ha : plugin.activation r.nextInstance = .error fault) : r.register key role plugin =
    ⟨{ r with nextInstance := r.nextInstance + 1 }, .error (.activation key fault.message),
      [.activate ⟨r.nextInstance, role, plugin⟩]⟩ := by
  simp [register, instantiate, takeIn, h, ha]

theorem register_of_ok (h : Text.isBlankText key = false)
    (ha : plugin.activation r.nextInstance = .ok ()) : r.register key role plugin =
    let u : Registered σ := ⟨key, ⟨r.nextInstance, role, plugin⟩⟩
    ⟨({ r with nextInstance := r.nextInstance + 1 }.commit u).1, .ok (),
      .activate u.inst :: ({ r with nextInstance := r.nextInstance + 1 }.commit u).2⟩ := by
  simp [register, instantiate, takeIn, h, ha]

/-- Everything that a registration can do to a registry. -/
theorem registry_register (r : Registry σ) (key : String) (plugin : Plugin σ) :
    (r.register key role plugin).registry = { r with nextInstance := r.nextInstance + 1 } ∨
    Text.isBlankText key = false ∧ (r.register key role plugin).registry =
      ({ r with nextInstance := r.nextInstance + 1 }.commit
        ⟨key, ⟨r.nextInstance, role, plugin⟩⟩).1 := by
  cases hb : Text.isBlankText key with
  | true => exact .inl (by rw [register_of_blank role hb])
  | false =>
    cases ha : plugin.activation r.nextInstance with
    | error fault => exact .inl (by rw [register_of_error role hb ha])
    | ok => exact .inr ⟨rfl, by rw [register_of_ok role hb ha]⟩

end Register

namespace Sound

theorem register (h : r.Sound) (key : String) (role : Role) (plugin : Plugin σ) :
    (r.register key role plugin).registry.Sound := by
  have hskip := h.skip (Nat.le_add_right r.nextInstance 1)
  obtain hr | ⟨hkey, hr⟩ := registry_register role r key plugin
  · rw [hr]
    exact hskip
  · rw [hr]
    exact hskip.commit hkey (Nat.lt_succ_self _)

/-- **Every call keeps a registry sound.** -/
theorem serve (h : r.Sound) (req : Request σ) : (r.serve req).Sound := by
  cases req with
  | register key role plugin => exact h.register key role plugin
  | discover files cwd root => exact h.discover files cwd root
  | unregister role key => exact h.takeOut role key
  | shutdown => exact sound_new r.catalog r.nextInstance

theorem serveAll (h : r.Sound) (reqs : List (Request σ)) : (r.serveAll reqs).Sound := by
  induction reqs generalizing r with
  | nil => exact h
  | cons req reqs ih => exact ih (h.serve req)

end Sound

/-- **Every registry that calls can lead to is sound.** -/
theorem sound_serveAll (catalog : Catalog σ) (reqs : List (Request σ)) :
    ((Registry.new catalog).serveAll reqs).Sound :=
  (sound_new catalog 0).serveAll reqs

/-- **After any calls the names in the order are the keys of the stages, each once and with the
ordering key of its stage, and no key is blank.** So the stages in order are the registered stages,
each once and no other plugin, by ascending ordering key. -/
theorem order_serveAll (catalog : Catalog σ) (reqs : List (Request σ)) :
    let r := (Registry.new catalog).serveAll reqs
    (r.order.names.Nodup ∧ r.order.names.Perm r.stages.keys) ∧
    (∀ name key, r.order.keyOf? name = some key ↔
      ∃ i, r.lookup? .stage name = some i ∧ i.plugin.ordering = key) ∧
    (∀ role key i, r.lookup? role key = some i → Text.isBlankText key = false) ∧
    ((r.ordered.map Registered.key).Nodup ∧
      r.ordered.Perm (r.stages.toList.map fun e => ⟨e.1, e.2⟩)) ∧
    (∀ u ∈ r.ordered, u.inst.role = .stage) ∧
    r.ordered.Pairwise fun a b => a.inst.plugin.ordering ≤ b.inst.plugin.ordering := by
  intro r
  have h : r.Sound := sound_serveAll catalog reqs
  refine ⟨⟨h.order.distinct, h.names_perm⟩, fun _ _ => h.keyOf?_eq_some_iff, fun _ _ _ => h.key,
    ⟨?_, h.ordered_perm⟩, fun u hu => h.role (h.mem_ordered_iff.mp hu), h.ordered_ascending⟩
  rw [h.ordered_keys]
  exact h.order.distinct

end Qualification.Registry
