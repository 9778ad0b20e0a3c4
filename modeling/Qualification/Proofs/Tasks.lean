import Mathlib.Data.List.Forall2
import Qualification.Proofs.Activity
/-!
# Background tasks

Tasks have the numbers of their places. A task that has ended or was aborted is over, and stays so
whatever happens next.

* `World.Knows`, `World.Over`, `World.Numbered`, `World.Onward`;
* `onward_of_forall₂`: tasks that age one by one;
* `onward_abort`, `onward_spawn`, `onward_settle`, `onward_moveTo`: changes of the tasks;
* `World.Steady`: what holds from one world to the next while activities wait; `steady_eq`,
  `steady_env`, `steady_crew`, `steady_deadline`: what stays as it is.
-/

namespace Qualification

variable {σ : Type}

namespace World

/-- Whether there is a task of a number. -/
def Knows (w : World σ) (id : Nat) : Prop := id ∈ w.tasks.map Task.id

instance (w : World σ) (id : Nat) : Decidable (w.Knows id) :=
  inferInstanceAs (Decidable (id ∈ w.tasks.map Task.id))

/-- Whether a task has ended or was aborted. -/
def Over (w : World σ) (id : Nat) : Prop := w.Knows id ∧ (w.phase id).isAlive = false

instance (w : World σ) (id : Nat) : Decidable (w.Over id) :=
  inferInstanceAs (Decidable (w.Knows id ∧ (w.phase id).isAlive = false))

/-- Whether tasks have the numbers of their places. -/
def Numbered (w : World σ) : Prop := w.tasks.map Task.id = List.range w.tasks.length

/-- Whether a world may come after another one: tasks stay, and those that are over stay so. -/
structure Onward (w w' : World σ) : Prop where
  knows : ∀ id, w.Knows id → w'.Knows id
  ended : ∀ id, w.Over id → w'.Over id
  numbered : w.Numbered → w'.Numbered

theorem Onward.refl (w : World σ) : w.Onward w := ⟨fun _ => id, fun _ => id, id⟩

theorem Onward.trans {w w₁ w₂ : World σ} (h : w.Onward w₁) (h' : w₁.Onward w₂) : w.Onward w₂ where
  knows i hi := h'.knows i (h.knows i hi)
  ended i hi := h'.ended i (h.ended i hi)
  numbered hw := h'.numbered (h.numbered hw)

/-- Whether a task may become another one. -/
def Ages (t t' : Task σ) : Prop :=
  t'.id = t.id ∧ (t.phase.isAlive = false → t'.phase.isAlive = false)

theorem Ages.refl (t : Task σ) : Ages t t := ⟨rfl, id⟩

theorem ids_of_ages {ts ts' : List (Task σ)} (h : List.Forall₂ Ages ts ts') :
    ts'.map Task.id = ts.map Task.id := by
  induction h with
  | nil => rfl
  | cons hage _ ih => rw [List.map_cons, List.map_cons, hage.1, ih]

theorem find?_of_ages {ts ts' : List (Task σ)} (h : List.Forall₂ Ages ts ts') {id : Nat}
    {t : Task σ} (ht : ts.find? (fun t => t.id == id) = some t) :
    ∃ t', ts'.find? (fun t => t.id == id) = some t' ∧ Ages t t' := by
  induction h with
  | nil => cases ht
  | cons hage _ ih =>
    rw [List.find?_cons, ← hage.1] at ht
    rw [List.find?_cons]
    split at ht
    · cases ht
      exact ⟨_, rfl, hage⟩
    · exact ih ht

theorem knows_iff {w : World σ} {id : Nat} :
    w.Knows id ↔ ∃ t, w.tasks.find? (fun t => t.id == id) = some t := by
  rw [← Option.isSome_iff_exists, List.find?_isSome, Knows, List.mem_map]
  simp

theorem phase_of_find? {w : World σ} {id : Nat} {t : Task σ}
    (h : w.tasks.find? (fun t => t.id == id) = some t) : w.phase id = t.phase := by
  rw [phase, h]

theorem onward_of_tasks_eq {w w' : World σ} (h : w'.tasks = w.tasks) : w.Onward w' where
  knows id hid := by
    rw [Knows, h]
    exact hid
  ended id hid := by
    rw [Over, Knows, phase, h]
    exact hid
  numbered hw := by
    rw [Numbered, h]
    exact hw

/-- Tasks that age one by one. -/
theorem onward_of_forall₂ {w w' : World σ} (h : List.Forall₂ Ages w.tasks w'.tasks) :
    w.Onward w' where
  knows id hid := by
    rw [Knows, ids_of_ages h]
    exact hid
  ended id hid := by
    obtain ⟨hknows, halive⟩ := hid
    obtain ⟨t, ht⟩ := knows_iff.mp hknows
    obtain ⟨t', ht', hage⟩ := find?_of_ages h ht
    refine ⟨knows_iff.mpr ⟨t', ht'⟩, ?_⟩
    rw [phase_of_find? ht] at halive
    rw [phase_of_find? ht']
    exact hage.2 halive
  numbered hw := by
    rw [Numbered, ids_of_ages h, ← h.length_eq]
    exact hw

/-- A change of tasks that leaves their numbers changes the one of a number. -/
theorem find?_map {f : Task σ → Task σ} (hf : ∀ t, (f t).id = t.id) (ts : List (Task σ))
    (id : Nat) : (ts.map f).find? (fun t => t.id == id) = (ts.find? fun t => t.id == id).map f := by
  have hsame : ((fun t : Task σ => t.id == id) ∘ f) = fun t => t.id == id := by
    funext t
    rw [Function.comp_apply, hf]
  rw [List.find?_map, hsame]

theorem ages_map {f : Task σ → Task σ} (hf : ∀ t, Ages t (f t)) (ts : List (Task σ)) :
    List.Forall₂ Ages ts (ts.map f) := by
  rw [List.forall₂_map_right_iff, List.forall₂_same]
  exact fun t _ => hf t

theorem onward_map {w w' : World σ} {f : Task σ → Task σ} (hf : ∀ t, Ages t (f t))
    (h : w'.tasks = w.tasks.map f) : w.Onward w' :=
  onward_of_forall₂ (h ▸ ages_map hf w.tasks)

theorem ages_abortTask (t : Task σ) :
    Ages t (abortTask t) ∧ (abortTask t).phase.isAlive = false := by
  unfold abortTask Ages
  cases halive : t.phase.isAlive with
  | true => exact ⟨⟨rfl, fun _ => rfl⟩, rfl⟩
  | false => exact ⟨⟨rfl, fun _ => halive⟩, halive⟩

theorem ages_abortWhen (id : Nat) (t : Task σ) :
    Ages t (if t.id == id then abortTask t else t) := by
  split_ifs
  · exact (ages_abortTask t).1
  · exact Ages.refl t

theorem onward_abort (w : World σ) (id : Nat) : w.Onward (w.abort id) :=
  onward_map (ages_abortWhen id) rfl

/-- A task that is aborted is not alive, even if there is none of its number. -/
theorem isAlive_phase_abort (w : World σ) (id : Nat) :
    ((w.abort id).phase id).isAlive = false := by
  unfold phase
  rw [abort, find?_map fun t => (ages_abortWhen id t).1]
  cases hfind : w.tasks.find? (fun t => t.id == id) with
  | none => rfl
  | some t =>
    have hid : (t.id == id) = true := List.find?_some (p := fun t : Task σ => t.id == id) hfind
    rw [Option.map_some, if_pos hid]
    exact (ages_abortTask t).2

/-- A task that is aborted is over. -/
theorem over_abort {w : World σ} {id : Nat} (h : w.Knows id) : (w.abort id).Over id :=
  ⟨(w.onward_abort id).knows id h, isAlive_phase_abort w id⟩

/-- The end of a task that is alive, with some status. -/
def finish (w : World σ) (id : Nat) (status : Int) : World σ :=
  { w with tasks := w.tasks.map fun t =>
      if t.id == id && t.phase.isAlive then { t with phase := .ended status } else t }

theorem onward_finish (w : World σ) (id : Nat) (status : Int) : w.Onward (w.finish id status) := by
  refine onward_map (fun t => ?_) rfl
  split_ifs
  · exact ⟨rfl, fun _ => rfl⟩
  · exact Ages.refl t

theorem crew_abortAll (w : World σ) (ids : List Nat) : (w.abortAll ids).crew = w.crew := by
  induction ids generalizing w with
  | nil => rfl
  | cons id ids ih => exact ih (w.abort id)

theorem onward_abortAll (w : World σ) (ids : List Nat) : w.Onward (w.abortAll ids) := by
  induction ids generalizing w with
  | nil => exact Onward.refl w
  | cons id ids ih => exact (w.onward_abort id).trans (ih (w.abort id))

theorem over_abortAll {w : World σ} {ids : List Nat} (h : ∀ id ∈ ids, w.Knows id) {id : Nat}
    (hid : id ∈ ids) : (w.abortAll ids).Over id := by
  induction ids generalizing w with
  | nil => cases hid
  | cons id' ids ih =>
    have honward : w.Onward (w.abort id') := w.onward_abort id'
    rcases List.mem_cons.mp hid with rfl | hmem
    · exact (onward_abortAll _ ids).ended id (over_abort (h id List.mem_cons_self))
    · exact ih (fun i hi => honward.knows i (h i (List.mem_cons_of_mem id' hi))) hmem

theorem onward_spawn (w : World σ) (begin : σ → (Nat × Int) × σ) :
    w.Onward (w.spawn begin).2 where
  knows id hid := by
    rw [Knows, spawn, List.map_append]
    exact List.mem_append_left _ hid
  ended id hid := by
    obtain ⟨hknows, halive⟩ := hid
    obtain ⟨t, ht⟩ := knows_iff.mp hknows
    have ht' : (w.spawn begin).2.tasks.find? (fun t => t.id == id) = some t := by
      rw [spawn, List.find?_append, ht]
      rfl
    refine ⟨knows_iff.mpr ⟨t, ht'⟩, ?_⟩
    rw [phase_of_find? ht', ← phase_of_find? ht]
    exact halive
  numbered hw := by
    rw [Numbered, spawn, List.map_append, hw, List.length_append, List.length_singleton,
      List.range_succ]
    rfl

/-- The number of a task that is started is a new one. -/
theorem knows_spawn {w : World σ} (hw : w.Numbered) (begin : σ → (Nat × Int) × σ) :
    ¬ w.Knows (w.spawn begin).1 ∧ (w.spawn begin).2.Knows (w.spawn begin).1 := by
  constructor
  · rw [Knows, hw]
    exact List.not_mem_range_self
  · rw [Knows, spawn, List.map_append]
    exact List.mem_append_right _ List.mem_cons_self

/-! ## Time -/

theorem ages_wake (isDue : Task σ → Nat → Bool) (t : Task σ) : Ages t (wake isDue t) := by
  unfold wake
  split
  · rename_i due status hphase
    split_ifs
    · exact ⟨rfl, fun _ => rfl⟩
    · exact Ages.refl t
  · exact Ages.refl t

theorem onward_moveTo (w : World σ) (time : Nat) (also : Task σ → Bool) :
    w.Onward (w.moveTo time also) :=
  onward_map (ages_wake _) rfl

/-- What the clock makes of a running task. -/
theorem phase_moveTo_running {w : World σ} {id due : Nat} {status : Int}
    (h : w.phase id = .running due status) (time : Nat) (also : Bool) :
    (w.moveTo time fun _ => also).phase id =
      if due < time || (due == time && also) then .ended status else .running due status := by
  unfold phase at h ⊢
  split at h
  next t ht =>
    rw [moveTo, find?_map fun t => (ages_wake _ t).1, ht, Option.map_some]
    unfold wake
    rw [h]
    dsimp only
    split_ifs
    · rfl
    · exact h
  next => cases h

/-- A task has ended when the clock has moved to where it falls due. -/
theorem phase_moveTo {w : World σ} {id due : Nat} {status : Int}
    (h : w.phase id = .running due status) :
    (w.moveTo due fun _ => true).phase id = .ended status := by
  rw [phase_moveTo_running h, beq_self_eq_true, Bool.and_self, Bool.or_true, if_pos rfl]

theorem ages_startQueued (now : Nat) (ts : List (Task σ)) (host : σ) :
    List.Forall₂ Ages ts (startQueued now ts host).1 := by
  induction ts generalizing host with
  | nil => exact .nil
  | cons t ts ih =>
    unfold startQueued
    split
    · rename_i hphase
      refine .cons ⟨rfl, fun halive => ?_⟩ (ih _)
      rw [hphase] at halive
      cases halive
    · exact .cons (Ages.refl t) (ih host)

theorem onward_settle (w : World σ) : w.Onward w.settle := by
  have hwake : w.Onward { w with tasks := w.tasks.map (wake fun _ due => due ≤ w.now) } :=
    onward_map (ages_wake _) rfl
  exact hwake.trans (onward_of_forall₂ (ages_startQueued _ _ _))

theorem not_queued_startQueued (now : Nat) (ts : List (Task σ)) (host : σ) :
    ∀ t ∈ (startQueued now ts host).1, t.phase ≠ .queued := by
  induction ts generalizing host with
  | nil => exact List.forall_mem_nil _
  | cons t ts ih =>
    unfold startQueued
    split
    · refine List.forall_mem_cons.mpr ⟨?_, ih _⟩
      dsimp only
      split_ifs <;> exact Phase.noConfusion
    · rename_i hphase
      exact List.forall_mem_cons.mpr ⟨hphase, ih host⟩

/-- Once every task acts that can act, none is queued. -/
theorem phase_settle (w : World σ) (id : Nat) : w.settle.phase id ≠ .queued := by
  unfold phase
  split
  · rename_i t ht
    exact not_queued_startQueued _ _ _ t (List.mem_of_find?_eq_some ht)
  · exact Phase.noConfusion

/-! ## Waits -/

/-- Whether a relation holds from one world to the next while activities wait. -/
structure Steady (R : World σ → World σ → Prop) : Prop where
  refl : ∀ w, R w w
  trans : ∀ {w w₁ w₂}, R w w₁ → R w₁ w₂ → R w w₂
  settle : ∀ w, R w w.settle
  moveTo : ∀ w time also, R w (w.moveTo time also)
  abort : ∀ w id, R w (w.abort id)

namespace Steady

variable {α β : Type} {R : World σ → World σ → Prop} (hR : Steady R)

include hR

theorem bind {x : Act σ α} {f : α → Act σ β} (hx : ∀ w, R w (x w).2)
    (hf : ∀ a w, R w (f a w).2) (w : World σ) : R w ((x >>= f) w).2 := by
  rcases Act.bind_cases x f w with ⟨a, w₁, ha, hbind⟩ | ⟨-, -, hbind⟩
  · have hw := hx w
    rw [ha] at hw
    rw [hbind]
    exact hR.trans hw (hf a w₁)
  · rw [hbind]
    exact hx w

end Steady

/-- What settlements, the clock and aborts leave as it is. -/
theorem steady_eq {γ : Type} {f : World σ → γ} (hsettle : ∀ w, f w.settle = f w)
    (hmoveTo : ∀ w time also, f (w.moveTo time also) = f w)
    (habort : ∀ w id, f (w.abort id) = f w) : Steady fun w w' => f w' = f w where
  refl _ := rfl
  trans h h' := h'.trans h
  settle := hsettle
  moveTo := hmoveTo
  abort := habort

theorem steady_env : Steady fun w w' : World σ => w'.env = w.env :=
  steady_eq (fun _ => rfl) (fun _ _ _ => rfl) fun _ _ => rfl

theorem steady_crew : Steady fun w w' : World σ => w'.crew = w.crew :=
  steady_eq (fun _ => rfl) (fun _ _ _ => rfl) fun _ _ => rfl

theorem steady_deadline : Steady fun w w' : World σ => w'.deadline = w.deadline :=
  steady_eq (fun _ => rfl) (fun _ _ _ => rfl) fun _ _ => rfl

end World

end Qualification
