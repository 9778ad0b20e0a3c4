import Qualification.Proofs.Plugin.Verdict
/-!
# Plugins that keep to themselves

None of the standard plugins invokes another one, and each of them comes to its end if there is no
limit.

* `Act.ends_join`, `Act.ends_stopWithin`, `Ends.orElseUndo`: activities that wait for tasks;
* `HarasserUtility.ends_execute`, `Snippet.ends_execute`: what plugins do;
* `Plugin.Alone`, **`standard_alone`**: the standard plugins.
-/

namespace Qualification

variable {σ α β : Type}

/-! ## Activities without a limit -/

namespace Act

theorem ends_get : (get : Act σ (World σ)).Ends := fun w hw => ⟨w, w, rfl, hw⟩

theorem ends_ofState {f : World σ → α × World σ} (hf : ∀ w, (f w).2.deadline = w.deadline) :
    (ofState f).Ends := fun w hw => ⟨(f w).1, (f w).2, rfl, (hf w).trans hw⟩

theorem Ends.orElseUndo {x : Act σ α} (hx : x.Ends) (undo : World σ → World σ) :
    (x.orElseUndo undo).Ends := by
  intro w hw
  obtain ⟨a, w', ha, hw'⟩ := hx w hw
  exact ⟨a, w', orElseUndo_of_done ha undo, hw'⟩

theorem ends_join (id : Nat) : (join id : Act σ Int).Ends := by
  intro w hw
  rcases join_cases id w with ⟨status, w₁, hdone, hjoined, -⟩ | hcut
  · exact ⟨status, w₁, hdone, (hjoined.steady World.steady_deadline).trans hw⟩
  · exact absurd hw hcut.limited

theorem ends_joinWithin (id ms : Nat) : (joinWithin id ms : Act σ (Option Int)).Ends := by
  intro w hw
  rcases joinWithin_cases id ms w with
    ⟨status, w₁, hdone, hjoined, -⟩ | ⟨w₁, hdone, hlapses, -⟩ | hcut
  · exact ⟨some status, w₁, hdone, (hjoined.steady World.steady_deadline).trans hw⟩
  · exact ⟨none, w₁, hdone, (hlapses.steady World.steady_deadline).trans hw⟩
  · exact absurd hw hcut.limited

theorem ends_abort (id : Nat) : (modify (·.abort id) : Act σ Unit).Ends :=
  ends_modify fun _ => rfl

theorem ends_stopWithin (id ms : Nat) : (stopWithin id ms : Act σ Int).Ends := by
  refine (ends_joinWithin id ms).bind fun status => ?_
  cases status with
  | some status => exact ends_pure _
  | none => exact (ends_abort id).bind fun _ => ends_pure _

end Act

/-! ## What the standard plugins do -/

section Harasser

open HarasserUtility Act

theorem ends_addCrew (owner : Nat) (hs : List Harasser) : (addCrew owner hs : Act σ Unit).Ends :=
  ends_modify fun _ => rfl

theorem ends_startPairs (owner : Nat) (s : Services σ) (pairs : List (String × String)) :
    (startPairs owner s pairs).Ends := by
  induction pairs with
  | nil => exact ends_pure _
  | cons pair rest ih =>
    obtain ⟨trigger, stopScript⟩ := pair
    unfold startPairs
    split
    · exact ih
    · exact ends_get.bind fun w => (ends_ofState fun _ => rfl).bind fun id =>
        (ends_addCrew _ _).bind fun _ => ih.bind fun ids => ends_pure _

theorem ends_stopOne (s : Services σ) (limit : Option Nat) (h : Harasser) :
    (stopOne s limit h).Ends := by
  have hscript : (runStopScript s h).Ends := by
    unfold runStopScript
    split
    · exact ends_pure _
    · exact ends_get.bind fun w => (ends_perform _ _).bind fun _ => ends_pure _
  refine hscript.bind fun status => ?_
  split_ifs
  · refine Ends.bind ?_ fun _ => ends_pure _
    cases limit with
    | none => exact (ends_join _).bind fun _ => ends_pure _
    | some ms => exact (ends_stopWithin _ _).bind fun _ => ends_pure _
  · exact (ends_abort h.task).bind fun _ => ends_pure _

theorem ends_stop (owner : Nat) (s : Services σ) (log : Log) (r : Resolved) :
    (stop owner s log r).Ends := by
  have heach : ∀ hs, (stopEach s (joinTimeout? r) hs).Ends := by
    intro hs
    induction hs with
    | nil => exact ends_pure _
    | cons h hs ih =>
      exact ((ends_stopOne s _ h).orElseUndo _).bind fun _ => ih.bind fun _ => ends_pure _
  refine (ends_ofState fun _ => rfl).bind fun crew => (heach crew).bind fun failures => ?_
  dsimp only
  split_ifs
  · exact ends_pure _
  · exact ends_pure _

theorem ends_check (owner : Nat) (s : Services σ) (log : Log) (r : Resolved) :
    (check owner s log r).Ends := by
  have hnotices : ∀ hs, (deathNotices hs : Act σ (List String)).Ends := by
    intro hs
    induction hs with
    | nil => exact ends_pure _
    | cons h hs ih => exact (ends_join _).bind fun _ => ih.bind fun _ => ends_pure _
  refine (ends_ofState fun _ => rfl).bind fun crew => ends_get.bind fun w =>
    (hnotices _).bind fun dead => (ends_addCrew _ _).bind fun _ => ?_
  split_ifs
  · exact ends_get.bind fun w => ends_pure _
  · exact (ends_stop owner s log r).bind fun log => ends_pure _

theorem HarasserUtility.ends_execute (owner : Nat) (s : Services σ) (log : Log) (r : Resolved) :
    (execute owner s log r).Ends := by
  unfold execute
  dsimp only
  split
  · exact (Ends.bind (ends_startPairs _ _ _) fun ids => ends_pure _).bind fun _ => ends_pure _
  · exact (ends_check owner s log r).bind fun _ => ends_pure _
  · exact (ends_stop owner s log r).bind fun _ => ends_pure _
  · exact ends_pure _

end Harasser

theorem Snippet.ends_execute (s : Services σ) (log : Log) (r : Resolved) :
    (execute s log r).Ends := by
  unfold execute
  split
  · exact Act.ends_pure _
  · refine Act.ends_get.bind fun w => (Act.ends_perform _ _).bind fun result => ?_
    split
    · exact Act.ends_pure _
    · exact Act.ends_pure _

/-! ## Plugins -/

/-- Whether a plugin comes to its end if there is no limit, and invokes no others. -/
structure Plugin.Alone (p : Plugin σ) : Prop where
  ends : ∀ id s log r, (p.execute id s log r).Ends
  uninvoked : ∀ id (s : Services σ) invoked log r,
    p.execute id { s with invoke := invoked } log r = p.execute id s log r

/-- The plugins that have commands run. -/
theorem Errand.alone (e : Errand) : (e.plugin : Plugin σ).Alone where
  ends id s log r := by
    cases e with
    | commandLine c => exact c.ends_execute s log r
    | snippet => exact Snippet.ends_execute s log r
    | harasser =>
      simp only [Errand.plugin, HarasserUtility.plugin, Plugin.simple]
      exact HarasserUtility.ends_execute id s log r
  uninvoked id s invoked log r := by rw [e.execute_eq, e.execute_eq]

theorem alone_environ : (Environ.plugin (σ := σ)).Alone where
  ends _ _ _ _ _ hw := ⟨_, _, rfl, hw⟩
  uninvoked _ _ _ _ _ := rfl

/-- **The standard plugins** keep to themselves. -/
theorem standard_alone : Plugin.Standard (σ := σ) Plugin.Alone where
  commandLine c := (Errand.commandLine c).alone
  snippet := Errand.snippet.alone
  environ := alone_environ
  harasser := Errand.harasser.alone

end Qualification
