import Qualification.Manifest
import Qualification.Registry.Order
/-!
# The registry of plugins

The registry holds plugins by role and key, and the order of the stages. A plugin is activated when
it comes in, and deactivated when another one takes its place, when the discovery that brought it
fails, or at the end; these calls are returned as a list.

Instances come from outside, and nothing keeps one instance from coming twice: `Registry.takeIn` and
`Registry.discoverFrom` take whatever they are handed. `Registry.register` and `Registry.discover`
are these two where every instance is a new one.

* `Registry.takeIn`, `Registry.register`: one plugin;
* `Supply`, `Registry.discoverFrom`, `Registry.discover`: the plugins described below a directory;
* `Registry.unregister`, `Registry.shutdown`;
* `Registry.lookup?`, `Registry.ordered`.
-/

namespace Qualification

/-- A call in the life of an instance. -/
inductive LifeCall (σ : Type) where
  | activate (i : Instance σ)
  | deactivate (i : Instance σ)

/-- Plugins by role and key, and the order of the stages. -/
structure Registry (σ : Type) where
  stages : Dict (Instance σ)
  tools : Dict (Instance σ)
  utilities : Dict (Instance σ)
  order : Order
  catalog : Catalog σ
  /-- The number of the next instance. -/
  nextInstance : Nat

/-- A registry after a call, what came of the call, and the calls in the lives of plugins. -/
structure Registration (σ : Type) (α : Type) where
  registry : Registry σ
  result : Except DiscoveryError α
  calls : List (LifeCall σ)

namespace Registry

variable {σ : Type}

/-- An empty registry. -/
def new (catalog : Catalog σ) : Registry σ :=
  ⟨Dict.empty, Dict.empty, Dict.empty, Order.empty, catalog, 0⟩

/-- The plugins of a role. -/
def byRole (r : Registry σ) : Role → Dict (Instance σ)
  | .stage => r.stages
  | .tool => r.tools
  | .utility => r.utilities

/-- The registry with other plugins of a role. -/
def withRole (r : Registry σ) (role : Role) (d : Dict (Instance σ)) : Registry σ :=
  match role with
  | .stage => { r with stages := d }
  | .tool => { r with tools := d }
  | .utility => { r with utilities := d }

/-- The plugin of a role and key. -/
def lookup? (r : Registry σ) (role : Role) (key : String) : Option (Instance σ) :=
  (r.byRole role).get? key

/-- Whether a key has a plugin in any role. -/
def containsKey (r : Registry σ) (key : String) : Bool :=
  Role.all.any fun role => (r.byRole role).contains key

/-- The stages in the order of execution. -/
def ordered (r : Registry σ) : List (Registered σ) :=
  r.order.names.filterMap fun name => (r.stages.get? name).map fun i => ⟨name, i⟩

/-- All plugins: stages, tools and utilities, each by key. -/
def all (r : Registry σ) : List (Registered σ) :=
  Role.all.flatMap fun role => (r.byRole role).toList.map fun e => ⟨e.1, e.2⟩

def size (r : Registry σ) : Nat := r.all.length

/-- Puts an instance under its key; the one that was there is deactivated. -/
def commit (r : Registry σ) (u : Registered σ) : Registry σ × List (LifeCall σ) :=
  let order := match u.inst.orderingKey? with
    | some key => r.order.insert u.key key
    | none => r.order
  let previous := r.lookup? u.inst.role u.key
  let r := { r with order }.withRole u.inst.role ((r.byRole u.inst.role).insert u.key u.inst)
  (r, (previous.map LifeCall.deactivate).toList)

/-- Puts instances under their keys, one after the other. -/
def commitAll (r : Registry σ) : List (Registered σ) → Registry σ × List (LifeCall σ)
  | [] => (r, [])
  | u :: us =>
    let (r, calls) := r.commit u
    let (r, more) := r.commitAll us
    (r, calls ++ more)

/-- Puts an instance under a key that is not blank if it could be activated; `outcome` is what comes
of activating it. -/
def takeIn (r : Registry σ) (key : String) (inst : Instance σ) (outcome : Except Fault Unit) :
    Registration σ Unit :=
  if Text.isBlankText key then
    ⟨r, .error (.invalid inst.plugin.display "registry key is empty"), []⟩
  else
    match outcome with
    | .error fault => ⟨r, .error (.activation key fault.message), [.activate inst]⟩
    | .ok () =>
      let (r, calls) := r.commit ⟨key, inst⟩
      ⟨r, .ok (), .activate inst :: calls⟩

/-- Brings a plugin into being. -/
def instantiate (r : Registry σ) (role : Role) (plugin : Plugin σ) : Instance σ × Registry σ :=
  (⟨r.nextInstance, role, plugin⟩, { r with nextInstance := r.nextInstance + 1 })

/-- Activates a new instance of a plugin and puts it under a key that is not blank. -/
def register (r : Registry σ) (key : String) (role : Role) (plugin : Plugin σ) :
    Registration σ Unit :=
  let (inst, r) := r.instantiate role plugin
  r.takeIn key inst (plugin.activation inst.id)

end Registry

/-- The instances that factories hand out in a pass of discovery, by the number of the loading. A
factory may hand out an instance again that it or another one has handed out before. -/
structure Supply (σ : Type) where
  /-- The number of the instance of a plugin. -/
  id : Nat → Plugin σ → Nat
  /-- What comes of activating it. -/
  outcome : Nat → Plugin σ → Except Fault Unit

namespace Supply

variable {σ : Type}

/-- A new instance each time. -/
def fresh : Supply σ := ⟨fun n _ => n, fun n plugin => plugin.activation n⟩

/-- The instance of a plugin in a role. -/
def inst (supply : Supply σ) (n : Nat) (role : Role) (plugin : Plugin σ) : Instance σ :=
  ⟨supply.id n plugin, role, plugin⟩

@[simp] theorem inst_fresh (n : Nat) (role : Role) (plugin : Plugin σ) :
    fresh.inst n role plugin = ⟨n, role, plugin⟩ := rfl

end Supply

namespace Registry

variable {σ : Type}

/-- What discovery has found so far: the plugins that it has activated, and the calls. -/
structure Staged (σ : Type) where
  units : List (Registered σ)
  calls : List (LifeCall σ)
  nextInstance : Nat

/-- Loads and activates the plugin of a candidate, if there is one. -/
def stageFrom (supply : Supply σ) (files : FileTree) (catalog : Catalog σ) (s : Staged σ)
    (c : Candidate) : Except (DiscoveryError × Staged σ) (Staged σ) :=
  match c.load files catalog with
  | .error e => .error (e, s)
  | .ok none => .ok s
  | .ok (some plugin) =>
    let inst := supply.inst s.nextInstance c.role plugin
    let outcome := supply.outcome s.nextInstance plugin
    let s := { s with calls := s.calls ++ [.activate inst], nextInstance := s.nextInstance + 1 }
    match outcome with
    | .error fault => .error (.activation c.stem fault.message, s)
    | .ok () => .ok { s with units := s.units ++ [⟨c.key, inst⟩] }

/-- The same with a new instance for each plugin. -/
def stage : FileTree → Catalog σ → Staged σ → Candidate →
    Except (DiscoveryError × Staged σ) (Staged σ) := stageFrom .fresh

/-- Registers the plugins of candidates: all of them, or after a failure none. -/
def discoverAllFrom (r : Registry σ) (supply : Supply σ) (files : FileTree)
    (candidates : List Candidate) : Registration σ Nat :=
  match candidates.foldlM (stageFrom supply files r.catalog) ⟨[], [], r.nextInstance⟩ with
  | .error (e, s) =>
    ⟨{ r with nextInstance := s.nextInstance }, .error e,
      s.calls ++ s.units.map fun u => .deactivate u.inst⟩
  | .ok s =>
    let (r, calls) := { r with nextInstance := s.nextInstance }.commitAll s.units
    ⟨r, .ok s.units.length, s.calls ++ calls⟩

/-- The same with a new instance for each plugin. -/
def discoverAll (r : Registry σ) : FileTree → List Candidate → Registration σ Nat :=
  r.discoverAllFrom .fresh

/-- Registers the plugins described below a directory: all of them, or after a failure none. -/
def discoverFrom (r : Registry σ) (supply : Supply σ) (files : FileTree) (cwd : Place)
    (root : String) : Registration σ Nat :=
  match Candidate.scan files cwd root with
  | .error e => ⟨r, .error e, []⟩
  | .ok candidates => r.discoverAllFrom supply files candidates

/-- The same with a new instance for each plugin. -/
def discover (r : Registry σ) : FileTree → Place → String → Registration σ Nat :=
  r.discoverFrom .fresh

/-- Takes a plugin out, without deactivating it. -/
def unregister (r : Registry σ) (role : Role) (key : String) : Option (Instance σ) × Registry σ :=
  match r.lookup? role key with
  | none => (none, r)
  | some i =>
    let order := if role = .stage then r.order.remove key else r.order
    (some i, { r with order }.withRole role ((r.byRole role).erase key))

/-- Deactivates every plugin and empties the registry. -/
def shutdown (r : Registry σ) : Registry σ × List (LifeCall σ) :=
  ({ Registry.new r.catalog with nextInstance := r.nextInstance },
    r.all.map fun u => .deactivate u.inst)

end Registry

namespace LifeCall

variable {σ : Type}

/-- What a call in the life of an instance does to the world. -/
def effect (w : World σ) : LifeCall σ → World σ
  | .activate i => i.plugin.engage w
  | .deactivate i => i.plugin.release i.id w

/-- What calls do to the world, one after the other. -/
def effects (w : World σ) (calls : List (LifeCall σ)) : World σ := calls.foldl effect w

end LifeCall

end Qualification
