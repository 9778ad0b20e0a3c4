import Qualification.Proofs.Plugin.Alone
import Qualification.Rehearsal.Actor
/-!
# How plugins invoke others

What a plugin does in a context is laid open as a conduct: activities of its own, invocations of
other plugins, each of which gives it a log to go on with, and its ending. Nothing in a conduct
knows how invocations come about, and nothing in it can go on after a panic.

* `Act.Uncut`: activities that are only cut off by a limit;
* `Conduct`, `Conduct.act`: conducts, and the activities that they are;
* `Context.Performs`: what a plugin does in a context is a conduct;
* `Conduct.uncut_act`: a conduct is only cut off by a limit;
* `Actor.conduct`, **`Actor.performs`**: rehearsed plugins;
* `Plugin.Conducts`, **`conducts_standard`**: the plugins of registries.
-/

namespace Qualification

variable {σ α β : Type}

/-! ## Activities that are only cut off by a limit -/

namespace Act

/-- Whether an activity is not cut off where there is no limit, and sets none. -/
def Uncut (x : Act σ α) : Prop :=
  ∀ w : World σ, w.deadline = none → (x w).1 ≠ .cut ∧ (x w).2.deadline = none

theorem Ends.uncut {x : Act σ α} (h : x.Ends) : x.Uncut := by
  intro w hw
  obtain ⟨a, w', hx, hw'⟩ := h w hw
  rw [hx]
  exact ⟨nofun, hw'⟩

theorem uncut_panicWith (payload : Option String) : (panicWith payload : Act σ α).Uncut :=
  fun _ hw => ⟨nofun, hw⟩

theorem Uncut.bind {x : Act σ α} {f : α → Act σ β} (hx : x.Uncut) (hf : ∀ a, (f a).Uncut) :
    (x >>= f).Uncut := by
  intro w hw
  obtain ⟨hending, hdeadline⟩ := hx w hw
  change (Act.bind x f w).1 ≠ .cut ∧ (Act.bind x f w).2.deadline = none
  unfold Act.bind
  revert hending hdeadline
  rcases x w with ⟨ending, w₁⟩
  cases ending with
  | done a => exact fun _ hdeadline => hf a w₁ hdeadline
  | panicked payload => exact fun _ hdeadline => ⟨nofun, hdeadline⟩
  | cut => exact fun hending => absurd rfl hending

end Act

/-! ## Conducts -/

/-- What a plugin does. -/
inductive Conduct (σ : Type) : Type 1 where
  | ended (log : Log) (result : Except Fault Unit)
  /-- Something of its own, which may also panic. -/
  | own {α : Type} (x : Act σ α) (uncut : x.Uncut) (next : α → Conduct σ)
  /-- Invokes another plugin and goes on with the log that it gets. -/
  | invoke (role : Role) (key : String) (overrides : Dict String) (next : Log → Conduct σ)

namespace Conduct

/-- A conduct as an activity, by what invocations do. -/
def act (invoked : Role → String → Dict String → Act σ Log) :
    Conduct σ → Act σ (Log × Except Fault Unit)
  | ended log result => Pure.pure (log, result)
  | own x _ next => x >>= fun a => (next a).act invoked
  | invoke role key overrides next =>
    invoked role key overrides >>= fun log => (next log).act invoked

end Conduct

/-- Whether an instance does in a context what a script says, for every log and all options that it
is given. -/
def Context.Performs (c : Context σ) (inst : Instance σ) (script : Log → Resolved → Conduct σ) :
    Prop :=
  ∀ invoked log options,
    inst.plugin.execute inst.id ⟨invoked, c.executor, c.moduleCommand, c.scratchDir⟩ log options =
      (script log options).act invoked

/-! ## Rehearsed plugins -/

namespace Actor

/-- Invokes other plugins and writes what came of them into the log; the first one has a number. -/
def invocations : Nat → List (Role × String × Dict String) → Log → (Log → Conduct σ) → Conduct σ
  | _, [], log, next => next log
  | number, (role, key, overrides) :: rest, log, next =>
    .invoke role key overrides fun inner => invocations (number + 1) rest
      (log.withExtra s!"invoke.{number}" s!"{inner.status}|{inner.stdout}|{inner.stderr}") next

theorem act_invocations (s : Services σ) (number : Nat) (is : List (Role × String × Dict String))
    (log : Log) (next : Log → Conduct σ) : (invocations number is log next).act s.invoke =
      invokeAll s number is log >>= fun log => (next log).act s.invoke := by
  induction is generalizing number log with
  | nil => rfl
  | cons i is ih =>
    obtain ⟨role, key, overrides⟩ := i
    rw [invocations, invokeAll, Conduct.act, bind_assoc]
    exact congrArg (s.invoke role key overrides >>= ·) (funext fun inner => ih _ _)

variable (a : Actor)

/-- What an actor does at last. -/
def finale (log : Log) : Conduct σ :=
  match a.part.panic with
  | some payload => .own (Act.panicWith payload : Act σ Empty) (Act.uncut_panicWith payload) nofun
  | none =>
    if a.part.fault.isEmpty then .ended { log with status := a.part.status } (.ok ())
    else .ended log (.error ⟨a.part.fault⟩)

/-- What an actor does. -/
def conduct (note : String → σ → σ) (log : Log) (r : Resolved) : Conduct σ :=
  let written := { log with
    stdout := a.part.stdout.getD (valuesLine r)
    stderr := a.part.stderr
    extra := log.extra.union a.part.extra }
  .own (Act.modify fun w => { w with host := note s!"execute {a.display}" w.host })
    (Act.ends_modify fun _ => rfl).uncut fun _ =>
  .own (Act.modify fun w => { w with env := w.env.union a.part.env })
    (Act.ends_modify fun _ => rfl).uncut fun _ =>
  invocations 0 a.part.invocations written fun log =>
  .own (Act.wait a.part.sleepMs) (Act.ends_wait _).uncut fun _ => a.finale log

/-- **Rehearsed plugins** are such plugins. -/
theorem performs (note : String → σ → σ) (c : Context σ) (id : Nat) (role : Role) :
    c.Performs ⟨id, role, a.plugin note⟩ (a.conduct note) := by
  intro invoked log options
  refine congrArg (Act.modify _ >>= ·) (funext fun _ => congrArg (Act.modify _ >>= ·)
    (funext fun _ => ?_))
  refine Eq.trans ?_ (act_invocations ⟨invoked, c.executor, c.moduleCommand, c.scratchDir⟩ 0
    a.part.invocations _ _).symm
  refine congrArg (invokeAll _ 0 a.part.invocations _ >>= ·) (funext fun log => ?_)
  refine congrArg (Act.wait a.part.sleepMs >>= ·) (funext fun _ => ?_)
  unfold finale
  cases a.part.panic with
  | some payload => rfl
  | none =>
    dsimp only
    split_ifs <;> rfl

end Actor

/-! ## Registries -/

/-- Whether what the instances of a plugin do is a conduct, in any context. -/
def Plugin.Conducts (p : Plugin σ) : Prop :=
  ∀ (c : Context σ) id role, ∃ script, c.Performs ⟨id, role, p⟩ script

theorem Plugin.Alone.conducts {p : Plugin σ} (h : p.Alone) : p.Conducts := by
  intro c id role
  refine ⟨fun log options => .own (p.execute id c.services log options)
    (h.ends id _ log options).uncut fun x => .ended x.1 x.2, fun invoked log options => ?_⟩
  have hsame : p.execute id { c.services with invoke := invoked } log options =
      p.execute id c.services log options := h.uninvoked id c.services invoked log options
  exact hsame.trans (bind_pure _).symm

theorem conducts_actor (a : Actor) (note : String → σ → σ) : (a.plugin note).Conducts :=
  fun c id role => ⟨a.conduct note, a.performs note c id role⟩

/-- **All plugins of the standard registry** do this, after any calls that bring no others. -/
theorem conducts_standard (reqs : List (Registry.Request σ))
    (hreqs : ∀ req ∈ reqs, req.Brings Plugin.Conducts) :
    (Registry.standard.serveAll reqs).Every Plugin.Conducts :=
  Registry.every_standard ⟨fun c => (standard_alone.commandLine c).conducts,
    standard_alone.snippet.conducts, standard_alone.environ.conducts,
    standard_alone.harasser.conducts⟩ reqs hreqs

end Qualification
