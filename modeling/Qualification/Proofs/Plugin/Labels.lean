import Qualification.Proofs.Registry.Plugins
import Qualification.Rehearsal.Actor
/-!
# The stage and the section of a log

A log is made for a section of a stage, and a plugin is expected to leave these two alone. All
standard plugins do, and so do the rehearsed ones; but nothing makes a plugin do so.

* `Log.IsOf`: the stage and the section of a log;
* `Act.Yields`: what is true of every result of an activity;
* `Plugin.KeepsLabels`, `Registry.KeepsLabels`;
* `keepsLabels_commandLine`, `keepsLabels_snippet`, `keepsLabels_environ`, `keepsLabels_harasser`,
  `keepsLabels_actor`;
* **`keepsLabels_standard`**: the standard registry, after any discoveries in it;
* `Plugin.relabelling`: a plugin that does not leave them alone.
-/

namespace Qualification

variable {σ α β : Type}

/-- Whether a log is that of a section of a stage. -/
structure Log.IsOf (l : Log) (stage title : String) : Prop where
  stage : l.stage = stage
  title : l.section_ = title

namespace Log

variable {l : Log} {stage title : String}

theorem isOf_self (l : Log) : l.IsOf l.stage l.section_ := ⟨rfl, rfl⟩

theorem isOf_new (stage title : String) : (Log.new stage title).IsOf stage title := ⟨rfl, rfl⟩

theorem IsOf.fail (h : l.IsOf stage title) (status : Int) (stderr : String) :
    (l.fail status stderr).IsOf stage title := ⟨h.stage, h.title⟩

theorem IsOf.withExtra (h : l.IsOf stage title) (key value : String) :
    (l.withExtra key value).IsOf stage title := ⟨h.stage, h.title⟩

end Log

/-! ## Results of activities -/

namespace Act

/-- Whether every result of an activity is as `P` says. -/
def Yields (x : Act σ α) (P : α → Prop) : Prop := ∀ w a w', x w = (.done a, w') → P a

variable {x : Act σ α} {f : α → Act σ β} {P : β → Prop}

theorem yields_pure {P : α → Prop} {a : α} (h : P a) : (Pure.pure a : Act σ α).Yields P := by
  intro w b w' hb
  cases hb
  exact h

theorem yields_panicWith {P : α → Prop} (payload : Option String) :
    (panicWith payload : Act σ α).Yields P := by
  intro w a w' h
  cases h

theorem Yields.bind {Q : α → Prop} (hx : x.Yields Q) (h : ∀ a, Q a → (f a).Yields P) :
    (x >>= f).Yields P := by
  intro w b w' hb
  change Act.bind x f w = _ at hb
  unfold Act.bind at hb
  split at hb
  · rename_i a w₁ ha
    exact h a (hx _ _ _ ha) _ _ _ hb
  · cases hb
  · cases hb

/-- Where nothing is known of the first result. -/
theorem yields_bind (h : ∀ a, (f a).Yields P) : (x >>= f).Yields P :=
  Yields.bind (Q := fun _ => True) (fun _ _ _ _ => trivial) fun a _ => h a

end Act

/-- Whether a plugin leaves the stage and the section of its log alone. -/
def Plugin.KeepsLabels (p : Plugin σ) : Prop :=
  ∀ id services log options,
    (p.execute id services log options).Yields fun x => x.1.IsOf log.stage log.section_

/-- Whether all plugins leave the stage and the section of their logs alone. -/
def Registry.KeepsLabels (r : Registry σ) : Prop := r.Every Plugin.KeepsLabels

/-! ## The standard plugins -/

section Standard

variable {stage title : String} {log : Log} (h : log.IsOf stage title)
include h

theorem isOf_runCommand (c : CommandLine) (s : Services σ) (r : Resolved) :
    (c.runCommand s log r).Yields fun x => x.1.IsOf stage title := by
  unfold CommandLine.runCommand
  split
  · exact Act.yields_pure h
  · refine Act.yields_bind fun w => Act.yields_bind fun result => ?_
    split
    · exact Act.yields_pure (h.withExtra _ _)
    · exact Act.yields_pure ⟨h.stage, h.title⟩

theorem isOf_commandLine (c : CommandLine) (s : Services σ) (r : Resolved) :
    (c.execute s log r).Yields fun x => x.1.IsOf stage title := by
  unfold CommandLine.execute
  dsimp only
  split
  · exact isOf_runCommand h c s r
  · refine Act.yields_bind fun loaded => ?_
    split
    · exact Act.yields_pure h
    · refine Act.yields_bind fun _ => ?_
      split
      · exact Act.yields_pure (h.fail _ _)
      · refine (isOf_runCommand h c s r).bind fun x hx => Act.yields_bind fun unloaded => ?_
        split
        · refine Act.yields_bind fun _ => ?_
          split
          · exact Act.yields_pure (hx.fail _ _)
          · exact Act.yields_pure hx
        · split
          · exact Act.yields_pure hx
          · exact Act.yields_pure hx

theorem isOf_snippet (s : Services σ) (r : Resolved) :
    (Snippet.execute s log r).Yields fun x => x.1.IsOf stage title := by
  unfold Snippet.execute
  split
  · exact Act.yields_pure (h.fail _ _)
  · refine Act.yields_bind fun w => Act.yields_bind fun result => ?_
    split
    · exact Act.yields_pure h
    · exact Act.yields_pure ⟨h.stage, h.title⟩

theorem isOf_environ (r : Resolved) :
    (Environ.execute (σ := σ) log r).Yields fun x => x.1.IsOf stage title :=
  Act.yields_bind fun _ => Act.yields_pure ⟨h.stage, h.title⟩

theorem isOf_start (owner : Nat) (s : Services σ) (r : Resolved) :
    (HarasserUtility.start owner s log r).Yields fun l => l.IsOf stage title := by
  refine Act.yields_bind fun ids => Act.yields_pure ?_
  exact ⟨h.stage, h.title⟩

theorem isOf_stop (owner : Nat) (s : Services σ) (r : Resolved) :
    (HarasserUtility.stop owner s log r).Yields fun l => l.IsOf stage title := by
  refine Act.yields_bind fun crew => Act.yields_bind fun failures => ?_
  dsimp only
  split
  · exact Act.yields_pure ⟨h.stage, h.title⟩
  · exact Act.yields_pure ⟨h.stage, h.title⟩

theorem isOf_check (owner : Nat) (s : Services σ) (r : Resolved) :
    (HarasserUtility.check owner s log r).Yields fun l => l.IsOf stage title := by
  refine Act.yields_bind fun crew => Act.yields_bind fun w => Act.yields_bind fun dead =>
    Act.yields_bind fun _ => ?_
  split
  · exact Act.yields_bind fun _ => Act.yields_pure ⟨h.stage, h.title⟩
  · exact (isOf_stop h owner s r).bind fun l hl => Act.yields_pure (hl.fail _ _)

theorem isOf_harasser (owner : Nat) (s : Services σ) (r : Resolved) :
    (HarasserUtility.execute owner s log r).Yields fun x => x.1.IsOf stage title := by
  unfold HarasserUtility.execute
  dsimp only
  split
  · exact (isOf_start h owner s r).bind fun l hl => Act.yields_pure hl
  · exact (isOf_check h owner s r).bind fun l hl => Act.yields_pure hl
  · exact (isOf_stop h owner s r).bind fun l hl => Act.yields_pure hl
  · exact Act.yields_pure h

theorem isOf_invokeAll (s : Services σ) (number : Nat)
    (invocations : List (Role × String × Dict String)) :
    (Actor.invokeAll s number invocations log).Yields fun l => l.IsOf stage title := by
  induction invocations generalizing number log with
  | nil => exact Act.yields_pure h
  | cons invocation rest ih =>
    obtain ⟨role, key, overrides⟩ := invocation
    exact Act.yields_bind fun inner => ih (h.withExtra _ _) (number + 1)

theorem isOf_actor (a : Actor) (note : String → σ → σ) (s : Services σ) (r : Resolved) :
    (a.play note s log r).Yields fun x => x.1.IsOf stage title := by
  have hwritten : Log.IsOf { log with
      stdout := a.part.stdout.getD (Actor.valuesLine r)
      stderr := a.part.stderr
      extra := log.extra.union a.part.extra } stage title := ⟨h.stage, h.title⟩
  refine Act.yields_bind fun _ => Act.yields_bind fun _ => ?_
  refine (isOf_invokeAll hwritten s 0 a.part.invocations).bind fun l hl => ?_
  refine Act.yields_bind fun _ => ?_
  split
  · exact Act.yields_panicWith _
  · split
    · exact Act.yields_pure ⟨hl.stage, hl.title⟩
    · exact Act.yields_pure hl

end Standard

theorem keepsLabels_commandLine (c : CommandLine) : (c.plugin (σ := σ)).KeepsLabels :=
  fun _ s log r => isOf_commandLine log.isOf_self c s r

theorem keepsLabels_snippet : (Snippet.plugin (σ := σ)).KeepsLabels :=
  fun _ s log r => isOf_snippet log.isOf_self s r

theorem keepsLabels_environ : (Environ.plugin (σ := σ)).KeepsLabels :=
  fun _ _ log r => isOf_environ log.isOf_self r

theorem keepsLabels_harasser : (HarasserUtility.plugin (σ := σ)).KeepsLabels := by
  intro id s log r
  simp only [HarasserUtility.plugin, Plugin.simple]
  exact isOf_harasser log.isOf_self id s r

theorem keepsLabels_actor (a : Actor) (note : String → σ → σ) : (a.plugin note).KeepsLabels :=
  fun _ s log r => isOf_actor log.isOf_self a note s r

/-- **All plugins of the standard registry keep the stage and the section of their logs**, after any
calls that bring no others. -/
theorem keepsLabels_standard (reqs : List (Registry.Request σ))
    (hreqs : ∀ req ∈ reqs, req.Brings Plugin.KeepsLabels) :
    (Registry.standard.serveAll reqs).KeepsLabels :=
  Registry.every_standard ⟨keepsLabels_commandLine, keepsLabels_snippet, keepsLabels_environ,
    keepsLabels_harasser⟩ reqs hreqs

/-- A plugin that puts its log under another stage and another section, and ends with a status. -/
def Plugin.relabelling (stage title : String) (status : Int) : Plugin σ :=
  Plugin.simple "relabelling" fun _ _ log _ =>
    Act.pure ({ log with stage, section_ := title, status }, .ok ())

end Qualification
