import Qualification.Proofs.Plugin.Labels
/-!
# Plugins and notices

Notices are told to those who watch a run, and not to its plugins. An activity is blind if it goes
the same way whatever was noticed before it. All standard plugins are, and so are the rehearsed
ones.

* `World.Alike`: two worlds that are one but for their notices;
* `Act.Blind`, `Blind.bind`, `blind_get`: blind activities, and what is made of them;
* `Plugin.Blind`: a plugin that is blind if what it invokes is;
* `blind_commandLine`, `blind_snippet`, `blind_environ`, `blind_harasser`, `blind_actor`;
* **`blind_standard`**: the standard registry, after any discoveries in it.
-/

namespace Qualification

variable {σ α β : Type}

/-! ## Worlds -/

namespace World

/-- Whether two worlds are one but for their notices. -/
def Alike (w w' : World σ) : Prop := ∃ ns, w' = { w with notices := ns }

namespace Alike

variable {w w₁ w₂ : World σ}

theorem refl (w : World σ) : w.Alike w := ⟨w.notices, rfl⟩

theorem trans (h : w.Alike w₁) (h' : w₁.Alike w₂) : w.Alike w₂ := by
  obtain ⟨_, rfl⟩ := h
  obtain ⟨ns, rfl⟩ := h'
  exact ⟨ns, rfl⟩

/-- Whatever is noticed. -/
theorem notice (h : w.Alike w₁) (ns ns' : List Notice) : (w.notice ns).Alike (w₁.notice ns') := by
  obtain ⟨_, rfl⟩ := h
  exact ⟨_, rfl⟩

theorem env (h : w.Alike w₁) : w₁.env = w.env := by
  obtain ⟨ns, rfl⟩ := h
  rfl

theorem host (h : w.Alike w₁) : w₁.host = w.host := by
  obtain ⟨ns, rfl⟩ := h
  rfl

theorem settle (h : w.Alike w₁) : w.settle.Alike w₁.settle := by
  obtain ⟨ns, rfl⟩ := h
  exact ⟨ns, rfl⟩

theorem moveTo (h : w.Alike w₁) (time : Nat) (also : Task σ → Bool) :
    (w.moveTo time also).Alike (w₁.moveTo time also) := by
  obtain ⟨ns, rfl⟩ := h
  exact ⟨ns, rfl⟩

theorem phase (h : w.Alike w₁) (id : Nat) : w₁.phase id = w.phase id := by
  obtain ⟨ns, rfl⟩ := h
  rfl

theorem abort (h : w.Alike w₁) (id : Nat) : (w.abort id).Alike (w₁.abort id) := by
  obtain ⟨ns, rfl⟩ := h
  exact ⟨ns, rfl⟩

theorem abortAll (h : w.Alike w₁) (ids : List Nat) : (w.abortAll ids).Alike (w₁.abortAll ids) := by
  unfold World.abortAll
  induction ids generalizing w w₁ with
  | nil => exact h
  | cons id ids ih => exact ih (h.abort id)

end Alike

end World

/-! ## Activities -/

/-- Whether an activity goes the same way whatever was noticed before it. -/
def Act.Blind (x : Act σ α) : Prop :=
  ∀ w w', w.Alike w' → (x w').1 = (x w).1 ∧ (x w).2.Alike (x w').2

namespace Act

theorem blind_pure (a : α) : (Pure.pure a : Act σ α).Blind := fun _ _ h => ⟨rfl, h⟩

theorem blind_panicWith (payload : Option String) : (panicWith payload : Act σ α).Blind :=
  fun _ _ h => ⟨rfl, h⟩

theorem Blind.bind {x : Act σ α} {f : α → Act σ β} (hx : x.Blind) (hf : ∀ a, (f a).Blind) :
    (x >>= f).Blind := by
  intro w w' h
  obtain ⟨hending, hworld⟩ := hx w w' h
  change (Act.bind x f w').1 = (Act.bind x f w).1 ∧ (Act.bind x f w).2.Alike (Act.bind x f w').2
  unfold Act.bind
  generalize x w = out at hending hworld ⊢
  generalize x w' = out' at hending hworld ⊢
  obtain ⟨ending, w₁⟩ := out
  obtain ⟨ending', w₁'⟩ := out'
  obtain rfl : ending' = ending := hending
  cases ending' with
  | done a => exact hf a w₁ w₁' hworld
  | panicked payload => exact ⟨rfl, hworld⟩
  | cut => exact ⟨rfl, hworld⟩

/-- Something that takes no time, and that reads and writes no notices. -/
theorem blind_ofState {f : World σ → α × World σ}
    (h : ∀ w ns, f { w with notices := ns } = ((f w).1, { (f w).2 with notices := ns })) :
    (ofState f).Blind := by
  rintro w _ ⟨ns, rfl⟩
  unfold ofState
  dsimp only
  rw [h w ns]
  exact ⟨rfl, ns, rfl⟩

theorem blind_modify {f : World σ → World σ} (h : ∀ w w', w.Alike w' → (f w).Alike (f w')) :
    (modify f).Blind := fun w w' hw => ⟨rfl, h w w' hw⟩

/-- What goes on with the world goes on with everything in it but the notices. -/
theorem blind_get {f : World σ → Act σ α} (hsame : ∀ w ns, f { w with notices := ns } = f w)
    (h : ∀ w, (f w).Blind) : (Act.get >>= f).Blind := by
  rintro w _ ⟨ns, rfl⟩
  change (f _ _).1 = (f w w).1 ∧ (f w w).2.Alike (f _ _).2
  rw [hsame]
  exact h w w _ ⟨ns, rfl⟩

theorem Blind.orElseUndo {x : Act σ α} (hx : x.Blind) {undo : World σ → World σ}
    (h : ∀ w w', w.Alike w' → (undo w).Alike (undo w')) : (x.orElseUndo undo).Blind := by
  intro w w' hw
  obtain ⟨hending, hworld⟩ := hx w w' hw
  unfold Act.orElseUndo
  generalize x w = out at hending hworld ⊢
  generalize x w' = out' at hending hworld ⊢
  obtain ⟨ending, w₁⟩ := out
  obtain ⟨ending', w₁'⟩ := out'
  obtain rfl : ending' = ending := hending
  cases ending' with
  | done a => exact ⟨rfl, hworld⟩
  | panicked payload => exact ⟨rfl, h _ _ hworld⟩
  | cut => exact ⟨rfl, h _ _ hworld⟩

/-! ### Activities that take time -/

theorem blind_wait (ms : Nat) : (wait ms : Act σ Unit).Blind := by
  rintro w _ ⟨ns, rfl⟩
  unfold wait
  split_ifs
  · exact ⟨rfl, ns, rfl⟩
  · dsimp only
    have hends : endsBy (World.settle { w with notices := ns }) (w.now + ms) =
        endsBy w.settle (w.now + ms) := rfl
    rw [hends]
    split
    · exact ⟨rfl, ns, rfl⟩
    · exact ⟨rfl, ns, rfl⟩

theorem blind_perform (executor : Executor σ) (request : Request) :
    (perform executor request).Blind :=
  (blind_ofState fun _ _ => rfl).bind fun _ => (blind_wait _).bind fun _ => blind_pure _

theorem blind_join (id : Nat) : (join id : Act σ Int).Blind := by
  rintro w _ ⟨ns, rfl⟩
  unfold join
  have hphase : (World.phase { w with notices := ns } id) = w.phase id := rfl
  have hsettled : ((World.settle { w with notices := ns }).phase id) = w.settle.phase id := rfl
  rw [hphase]
  split
  · exact ⟨rfl, ns, rfl⟩
  · dsimp only
    rw [hsettled]
    split
    · rename_i due status _
      have hends : endsBy (World.settle { w with notices := ns }) due = endsBy w.settle due := rfl
      rw [hends]
      split
      · exact ⟨rfl, ns, rfl⟩
      · exact ⟨rfl, ns, rfl⟩
    · exact ⟨rfl, ns, rfl⟩

theorem blind_joinWithin (id ms : Nat) : (joinWithin id ms : Act σ (Option Int)).Blind := by
  rintro w _ ⟨ns, rfl⟩
  unfold joinWithin
  have hphase : (World.phase { w with notices := ns } id) = w.phase id := rfl
  have hsettled : ((World.settle { w with notices := ns }).phase id) = w.settle.phase id := rfl
  rw [hphase]
  split
  · exact ⟨rfl, ns, rfl⟩
  · split_ifs
    · exact ⟨rfl, ns, rfl⟩
    · dsimp only
      rw [hsettled]
      split
      · rename_i due status _
        have hnow : (World.settle { w with notices := ns }).now = w.settle.now := rfl
        have hends : endsBy (World.settle { w with notices := ns }) (min due (w.settle.now + ms)) =
          endsBy w.settle (min due (w.settle.now + ms)) := rfl
        rw [hnow, hends]
        split
        · exact ⟨rfl, ns, rfl⟩
        · split_ifs
          · exact ⟨rfl, ns, rfl⟩
          · exact ⟨rfl, ns, rfl⟩
      · exact ⟨rfl, ns, rfl⟩

theorem blind_stopWithin (id ms : Nat) : (stopWithin id ms : Act σ Int).Blind := by
  refine (blind_joinWithin id ms).bind fun status => ?_
  cases status with
  | some status => exact blind_pure status
  | none => exact (blind_modify fun _ _ h => h.abort id).bind fun _ => blind_pure _

end Act

/-! ## Plugins -/

/-- Whether a plugin is blind, if what it invokes is. -/
def Plugin.Blind (p : Plugin σ) : Prop :=
  ∀ id (s : Services σ) log options,
    (∀ role key overrides, (s.invoke role key overrides).Blind) →
      (p.execute id s log options).Blind

/-- Whether all plugins are blind. -/
def Registry.Blind (r : Registry σ) : Prop := r.Every Plugin.Blind

section Standard

open Act

theorem blind_runCommand (c : CommandLine) (s : Services σ) (log : Log) (r : Resolved) :
    (c.runCommand s log r).Blind := by
  unfold CommandLine.runCommand
  split
  · exact blind_pure _
  · refine blind_get (fun _ _ => rfl) fun w => (blind_perform _ _).bind fun result => ?_
    split
    · exact blind_pure _
    · exact blind_pure _

theorem blind_runFrom (executor : Executor σ) (command : List String) (action : Modules.Action)
    (o : Modules.Outcome) (modules : List String) :
    (Modules.runFrom executor command action o modules).Blind := by
  induction modules generalizing o with
  | nil => exact blind_pure _
  | cons m ms ih =>
    refine (blind_perform _ _).bind fun result => ?_
    split
    · exact blind_pure _
    · split
      · exact ih _
      · exact blind_pure _

theorem blind_modulesRun (executor : Executor σ) (command : Option (List String))
    (action : Modules.Action) (modules : List String) :
    (Modules.run executor command action modules).Blind := by
  unfold Modules.run
  split
  · exact blind_pure _
  · exact blind_runFrom _ _ _ _ _

theorem blind_applyChanges (cs : List EnvChange) : (CommandLine.applyChanges (σ := σ) cs).Blind :=
  blind_modify fun _ _ ⟨ns, h⟩ => ⟨ns, by rw [h]⟩

theorem blind_commandLine (c : CommandLine) : (c.plugin (σ := σ)).Blind := by
  intro _ s log r _
  change (c.execute s log r).Blind
  unfold CommandLine.execute
  dsimp only
  split
  · exact blind_runCommand c s log r
  · refine (blind_modulesRun _ _ _ _).bind fun loaded => ?_
    split
    · exact blind_pure _
    · refine (blind_applyChanges _).bind fun _ => ?_
      split
      · exact blind_pure _
      · refine (blind_runCommand c s log r).bind fun _ =>
          (blind_modulesRun _ _ _ _).bind fun unloaded => ?_
        split
        · refine (blind_applyChanges _).bind fun _ => ?_
          split
          · exact blind_pure _
          · exact blind_pure _
        · split
          · exact blind_pure _
          · exact blind_pure _

theorem blind_snippet : (Snippet.plugin (σ := σ)).Blind := by
  intro _ s log r _
  change (Snippet.execute s log r).Blind
  unfold Snippet.execute
  split
  · exact blind_pure _
  · refine blind_get (fun _ _ => rfl) fun w => (blind_perform _ _).bind fun result => ?_
    split
    · exact blind_pure _
    · exact blind_pure _

theorem blind_environ : (Environ.plugin (σ := σ)).Blind := by
  intro _ s log r _
  exact (blind_modify fun _ _ ⟨ns, h⟩ => ⟨ns, by rw [h]⟩).bind fun _ => blind_pure _

section Harasser

open HarasserUtility

theorem blind_takeCrew (owner : Nat) : (takeCrew owner : Act σ (List Harasser)).Blind :=
  blind_ofState fun _ _ => rfl

theorem blind_addCrew (owner : Nat) (hs : List Harasser) : (addCrew owner hs : Act σ Unit).Blind :=
  blind_modify fun _ _ ⟨ns, h⟩ => ⟨ns, by rw [h]; rfl⟩

theorem blind_startPairs (owner : Nat) (s : Services σ) (pairs : List (String × String)) :
    (startPairs owner s pairs).Blind := by
  induction pairs with
  | nil => exact blind_pure _
  | cons pair rest ih =>
    obtain ⟨trigger, stopScript⟩ := pair
    unfold startPairs
    split
    · exact ih
    · refine blind_get (fun _ _ => rfl) fun w => (blind_ofState fun _ _ => rfl).bind fun id =>
        (blind_addCrew _ _).bind fun _ => ih.bind fun ids => blind_pure _

theorem blind_runStopScript (s : Services σ) (h : Harasser) : (runStopScript s h).Blind := by
  unfold runStopScript
  split
  · exact blind_pure _
  · exact blind_get (fun _ _ => rfl) fun w => (blind_perform _ _).bind fun _ => blind_pure _

theorem blind_stopOne (s : Services σ) (limit : Option Nat) (h : Harasser) :
    (stopOne s limit h).Blind := by
  refine (blind_runStopScript s h).bind fun status => ?_
  split
  · refine Blind.bind ?_ fun _ => blind_pure _
    unfold joinOrAbort
    cases limit with
    | none => exact (blind_join _).bind fun _ => blind_pure _
    | some ms => exact (blind_stopWithin _ _).bind fun _ => blind_pure _
  · exact (blind_modify fun _ _ h => h.abort _).bind fun _ => blind_pure _

theorem blind_stopEach (s : Services σ) (limit : Option Nat) (hs : List Harasser) :
    (stopEach s limit hs).Blind := by
  induction hs with
  | nil => exact blind_pure _
  | cons h hs ih =>
    exact ((blind_stopOne s limit h).orElseUndo fun _ _ hw => hw.abortAll _).bind fun _ =>
      ih.bind fun _ => blind_pure _

theorem blind_stop (owner : Nat) (s : Services σ) (log : Log) (r : Resolved) :
    (stop owner s log r).Blind := by
  refine (blind_takeCrew owner).bind fun crew => (blind_stopEach _ _ _).bind fun failures => ?_
  dsimp only
  split
  · exact blind_pure _
  · exact blind_pure _

theorem blind_deathNotices (hs : List Harasser) :
    (deathNotices hs : Act σ (List String)).Blind := by
  induction hs with
  | nil => exact blind_pure _
  | cons h hs ih => exact (blind_join _).bind fun _ => ih.bind fun _ => blind_pure _

theorem blind_check (owner : Nat) (s : Services σ) (log : Log) (r : Resolved) :
    (check owner s log r).Blind := by
  refine (blind_takeCrew owner).bind fun crew => blind_get (fun _ _ => rfl) fun w =>
    (blind_deathNotices _).bind fun dead => (blind_addCrew _ _).bind fun _ => ?_
  split
  · exact blind_get (fun _ _ => rfl) fun w => blind_pure _
  · exact (blind_stop owner s log r).bind fun log => blind_pure _

theorem blind_harasser : (HarasserUtility.plugin (σ := σ)).Blind := by
  intro owner s log r _
  simp only [HarasserUtility.plugin, Plugin.simple]
  unfold execute
  dsimp only
  split
  · exact (Blind.bind (blind_startPairs _ _ _) fun ids => blind_pure _).bind fun _ => blind_pure _
  · exact (blind_check owner s log r).bind fun _ => blind_pure _
  · exact (blind_stop owner s log r).bind fun _ => blind_pure _
  · exact blind_pure _

end Harasser

theorem blind_invokeAll {s : Services σ}
    (hs : ∀ role key overrides, (s.invoke role key overrides).Blind) (number : Nat)
    (invocations : List (Role × String × Dict String)) (log : Log) :
    (Actor.invokeAll s number invocations log).Blind := by
  induction invocations generalizing number log with
  | nil => exact blind_pure _
  | cons invocation rest ih =>
    obtain ⟨role, key, overrides⟩ := invocation
    exact (hs role key overrides).bind fun inner => ih _ _

theorem blind_actor (a : Actor) (note : String → σ → σ) : (a.plugin note).Blind := by
  intro _ s log r hs
  change (a.play note s log r).Blind
  refine (blind_modify fun _ _ ⟨ns, h⟩ => ⟨ns, by rw [h]⟩).bind fun _ =>
    (blind_modify fun _ _ ⟨ns, h⟩ => ⟨ns, by rw [h]⟩).bind fun _ =>
      (blind_invokeAll hs _ _ _).bind fun _ => (blind_wait _).bind fun _ => ?_
  split
  · exact blind_panicWith _
  · split
    · exact blind_pure _
    · exact blind_pure _

end Standard

/-- **All plugins of the standard registry are blind**, after any calls that bring no others. -/
theorem blind_standard (reqs : List (Registry.Request σ))
    (hreqs : ∀ req ∈ reqs, req.Brings Plugin.Blind) : (Registry.standard.serveAll reqs).Blind :=
  Registry.every_standard ⟨blind_commandLine, blind_snippet, blind_environ, blind_harasser⟩ reqs
    hreqs

end Qualification
