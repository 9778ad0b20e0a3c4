import Qualification.Proofs.Tasks
/-!
# Time that passes

While an activity waits, queued tasks begin and running ones come to their ends. Nothing else
happens to them: a task that is over stays as it was, and none is aborted.

* `Phase.Passes`, `World.Lapses`: how a task goes on by itself, and how all of them do in a wait;
* `Lapses.steady`: what holds from one world to the next then;
* `steady_over`: what is over stays as it is;
* `World.Joined`: a task was waited for, and aborted if that took too long;
* `Act.CutOff`, `Act.wait_cases`, **`Act.join_cases`**, **`Act.joinWithin_cases`**: what comes of
  activities that wait;
* `Act.exists_of_perform`, `Act.joined_join`, `Act.joined_stopWithin`: those that come to their end;
* `Steady.wait`, `Steady.join`, `Steady.stopWithin`: what holds however they end.
-/

namespace Qualification

variable {σ : Type}

namespace Phase

/-- Whether a phase may become another one by itself. -/
structure Passes (p p' : Phase) : Prop where
  stays : p.isAlive = false → p' = p
  unaborted : p' = .aborted → p = .aborted

theorem Passes.refl (p : Phase) : p.Passes p := ⟨fun _ => rfl, id⟩

theorem Passes.trans {p p₁ p' : Phase} (h : p.Passes p₁) (h' : p₁.Passes p') : p.Passes p' where
  stays hp := by
    have heq : p₁ = p := h.stays hp
    exact (h'.stays (heq ▸ hp)).trans heq
  unaborted hp' := h.unaborted (h'.unaborted hp')

/-- A phase that was alive and is not any more has ended with a status. -/
theorem Passes.exists_ended {p p' : Phase} (h : p.Passes p') (hp : p.isAlive = true)
    (hp' : p'.isAlive = false) : ∃ status, p' = .ended status := by
  cases p' with
  | queued => cases hp'
  | running due status => cases hp'
  | ended status => exact ⟨status, rfl⟩
  | aborted =>
    rw [h.unaborted rfl] at hp
    cases hp

end Phase

namespace World

/-! ## Tasks that go on -/

/-- What holds of the phases of tasks one by one, holds of the phase of each number. -/
theorem phase_of_forall₂ {Q : Phase → Phase → Prop} (hQ : Q .aborted .aborted) {w w' : World σ}
    (h : List.Forall₂ (fun t t' : Task σ => t'.id = t.id ∧ Q t.phase t'.phase) w.tasks w'.tasks)
    (id : Nat) : Q (w.phase id) (w'.phase id) := by
  unfold phase
  generalize w.tasks = ts at h
  generalize w'.tasks = ts' at h
  induction h with
  | nil => exact hQ
  | @cons t t' ts ts' hhead _ ih =>
    rw [List.find?_cons, List.find?_cons, hhead.1]
    cases t.id == id with
    | true => exact hhead.2
    | false => exact ih

theorem passes_wake (isDue : Task σ → Nat → Bool) (t : Task σ) :
    (wake isDue t).id = t.id ∧ t.phase.Passes (wake isDue t).phase := by
  refine ⟨(ages_wake isDue t).1, ?_⟩
  unfold wake
  split
  · rename_i due status hphase
    split_ifs
    · rw [hphase]
      exact ⟨fun h => (nomatch h), fun h => (nomatch h)⟩
    · exact .refl _
  · exact .refl _

theorem passes_startQueued (now : Nat) (ts : List (Task σ)) (host : σ) :
    List.Forall₂ (fun t t' : Task σ => t'.id = t.id ∧ t.phase.Passes t'.phase) ts
      (startQueued now ts host).1 := by
  induction ts generalizing host with
  | nil => exact .nil
  | cons t ts ih =>
    unfold startQueued
    split
    · rename_i hphase
      refine .cons ⟨rfl, ?_⟩ (ih _)
      rw [hphase]
      dsimp only
      split_ifs
      · exact ⟨fun h => (nomatch h), fun h => (nomatch h)⟩
      · exact ⟨fun h => (nomatch h), fun h => (nomatch h)⟩
    · exact .cons ⟨rfl, .refl _⟩ (ih host)

theorem passes_map_wake (isDue : Task σ → Nat → Bool) {w w' : World σ}
    (h : w'.tasks = w.tasks.map (wake isDue)) (id : Nat) : (w.phase id).Passes (w'.phase id) := by
  refine phase_of_forall₂ (.refl _) ?_ id
  rw [h, List.forall₂_map_right_iff, List.forall₂_same]
  exact fun t _ => passes_wake isDue t

theorem passes_settle (w : World σ) (id : Nat) : (w.phase id).Passes (w.settle.phase id) := by
  have hwake : (w.phase id).Passes
      (({ w with tasks := w.tasks.map (wake fun _ due => due ≤ w.now) } : World σ).phase id) :=
    passes_map_wake _ rfl id
  exact hwake.trans (phase_of_forall₂ (.refl _) (passes_startQueued _ _ _) id)

/-- Once every task acts that can act, the others fall due later. -/
theorem now_lt_of_settle {w : World σ} {id due : Nat} {status : Int}
    (h : w.settle.phase id = .running due status) : w.now < due := by
  have hlater : ∀ (ts : List (Task σ)) (host : σ),
      (∀ t ∈ ts, ∀ due status, t.phase = .running due status → w.now < due) →
      ∀ t ∈ (startQueued w.now ts host).1, ∀ due status, t.phase = .running due status →
        w.now < due := by
    intro ts
    induction ts with
    | nil => exact fun _ hts => hts
    | cons t ts ih =>
      intro host hts
      obtain ⟨ht, hts⟩ := List.forall_mem_cons.mp hts
      unfold startQueued
      split
      · refine List.forall_mem_cons.mpr ⟨fun due status hphase => ?_, ih _ hts⟩
        dsimp only at hphase
        split_ifs at hphase with hdelay
        cases hphase
        omega
      · exact List.forall_mem_cons.mpr ⟨ht, ih host hts⟩
  have hwoken : ∀ t ∈ w.tasks.map (wake fun _ due => due ≤ w.now), ∀ due status,
      t.phase = .running due status → w.now < due := by
    intro t ht due status hphase
    obtain ⟨t', -, rfl⟩ := List.mem_map.mp ht
    unfold wake at hphase
    split at hphase
    · rename_i due' status' hphase'
      split_ifs at hphase with hdue
      rw [hphase'] at hphase
      cases hphase
      simpa using hdue
    · rename_i hother
      exact absurd hphase (hother due status)
  unfold phase at h
  split at h
  · rename_i t ht
    exact hlater _ _ hwoken t (List.mem_of_find?_eq_some ht) due status h
  · cases h

/-! ## Lapses of time -/

/-- Whether a world comes after another one when nothing but time came between. -/
inductive Lapses : World σ → World σ → Prop
  | refl (w : World σ) : Lapses w w
  | settle (w : World σ) : Lapses w w.settle
  | pass (w : World σ) {time : Nat} (also : Task σ → Bool) (h : w.now ≤ time) :
      Lapses w (w.settle.moveTo time also)

variable {w w' : World σ} {id : Nat}

theorem Lapses.steady {R : World σ → World σ → Prop} (h : Lapses w w') (hR : Steady R) :
    R w w' := by
  cases h with
  | refl => exact hR.refl w
  | settle => exact hR.settle w
  | pass also _ => exact hR.trans (hR.settle w) (hR.moveTo _ _ also)

/-- Tasks that are over stay what they were, also where others are aborted. -/
theorem steady_over : Steady fun w w' : World σ =>
    ∀ id, (w.phase id).isAlive = false → w'.phase id = w.phase id where
  refl _ _ _ := rfl
  trans h h' id hid := by
    have heq := h id hid
    exact (h' id (heq ▸ hid)).trans heq
  settle w id := (passes_settle w id).stays
  moveTo _ _ _ id := (passes_map_wake _ rfl id).stays
  abort w id' id := by
    refine phase_of_forall₂ (Q := fun p p' => p.isAlive = false → p' = p) (fun _ => rfl) ?_ id
    rw [abort, List.forall₂_map_right_iff, List.forall₂_same]
    refine fun t _ => ⟨(ages_abortWhen id' t).1, fun hover => ?_⟩
    have hsame : abortTask t = t := if_neg (by rw [hover]; exact Bool.false_ne_true)
    rw [hsame, ite_self]

/-! ## Waiting for a task -/

/-- Whether a task was waited for, from one world to another: it was over, it ended by itself and
before a limit, or it was aborted when the limit expired. -/
inductive Joined (limit : Option Nat) (id : Nat) : World σ → World σ → Prop
  | gone {w : World σ} (h : (w.phase id).isAlive = false) : Joined limit id w w
  | ended {w w' : World σ} {status : Int} (halive : (w.phase id).isAlive = true)
      (hlapses : w.Lapses w') (hended : w'.phase id = .ended status)
      (hintime : ∀ ms ∈ limit, w'.now < w.now + ms) : Joined limit id w w'
  | late {w w₁ : World σ} {ms : Nat} (hlimit : limit = some ms) (hlapses : w.Lapses w₁)
      (halive : (w₁.phase id).isAlive = true) (hnow : w₁.now = w.now + ms) :
      Joined limit id w (w₁.abort id)

theorem Joined.gone_after {limit : Option Nat} (h : Joined limit id w w') :
    (w'.phase id).isAlive = false := by
  cases h with
  | gone hover => exact hover
  | ended _ _ hended _ => rw [hended]; rfl
  | late => exact isAlive_phase_abort _ id

theorem Joined.steady {limit : Option Nat} {R : World σ → World σ → Prop}
    (h : Joined limit id w w') (hR : Steady R) : R w w' := by
  cases h with
  | gone => exact hR.refl w
  | ended _ hlapses _ _ => exact hlapses.steady hR
  | late _ hlapses _ _ => exact hR.trans (hlapses.steady hR) (hR.abort _ id)

end World

/-! ## Activities that wait -/

namespace Act

open World

variable {α : Type} {w w' : World σ} {id : Nat}

/-- Whether an activity that waits, and so came to an end, was cut off by the limit of its stage. -/
structure CutOff (w : World σ) (out : Ending α × World σ) : Prop where
  limited : w.deadline ≠ none
  undone : out.1.isDone = false
  moved : ∃ limit, out.2 = w.settle.moveTo limit fun _ => true

theorem cutOff_cutAt {time limit : Nat} (h : endsBy w.settle time = some limit) :
    CutOff w ((cutAt limit : Act σ α) w.settle) where
  limited hnone := by
    rw [endsBy, show w.settle.deadline = none from hnone] at h
    cases h
  undone := rfl
  moved := ⟨limit, rfl⟩

theorem CutOff.steady {out : Ending α × World σ} {R : World σ → World σ → Prop}
    (h : CutOff w out) (hR : Steady R) : R w out.2 := by
  obtain ⟨limit, hmoved⟩ := h.moved
  rw [hmoved]
  exact hR.trans (hR.settle w) (hR.moveTo _ _ _)

theorem CutOff.not_done {a : α} : ¬ CutOff w (Ending.done a, w') := fun h => nomatch h.undone

/-- What comes of a wait. -/
theorem wait_cases (ms : Nat) (w : World σ) :
    (∃ w₁, wait ms w = (.done (), w₁) ∧ w.Lapses w₁ ∧ w₁.now = w.now + ms) ∨
    CutOff w (wait ms w) := by
  unfold wait
  split_ifs with hms
  · exact .inl ⟨w, rfl, .refl w, by rw [hms]; rfl⟩
  · dsimp only
    split
    next limit hlimit => exact .inr (cutOff_cutAt hlimit)
    next => exact .inl ⟨_, rfl, .pass w _ (Nat.le_add_right _ _), rfl⟩

theorem isAlive_of_overStatus?_eq_none {p : Phase} (h : overStatus? p = none) :
    p.isAlive = true := by
  cases p with
  | queued => rfl
  | running due status => rfl
  | ended status => cases h
  | aborted => cases h

theorem isAlive_of_overStatus?_eq_some {p : Phase} {status : Int}
    (h : overStatus? p = some status) : p.isAlive = false := by
  cases p with
  | queued => cases h
  | running due status => cases h
  | ended status => rfl
  | aborted => rfl

/-- A task that was alive and is not running after a settlement has ended. -/
theorem exists_ended_of_settle (halive : (w.phase id).isAlive = true)
    (hrunning : ∀ due status, w.settle.phase id ≠ .running due status) :
    ∃ status, w.settle.phase id = .ended status := by
  refine (passes_settle w id).exists_ended halive ?_
  have hqueued := phase_settle w id
  cases hphase : w.settle.phase id with
  | queued => exact absurd hphase hqueued
  | running due status => exact absurd hphase (hrunning due status)
  | ended status => rfl
  | aborted => rfl

/-- **What comes of waiting for a task** without a limit. -/
theorem join_cases (id : Nat) (w : World σ) :
    (∃ status w₁, join id w = (.done status, w₁) ∧ w.Joined none id w₁ ∧
      overStatus? (w₁.phase id) = some status) ∨
    CutOff w (join id w) := by
  unfold join
  split
  next status hover =>
    exact .inl ⟨status, w, rfl, .gone (isAlive_of_overStatus?_eq_some hover), hover⟩
  next hnone =>
    have halive := isAlive_of_overStatus?_eq_none hnone
    have hintime : ∀ (w₁ : World σ), ∀ ms ∈ (none : Option Nat), w₁.now < w.now + ms :=
      fun _ _ hms => nomatch hms
    dsimp only
    split
    next due status hrunning =>
      split
      next limit hlimit => exact .inr (cutOff_cutAt hlimit)
      next =>
        have hended := phase_moveTo hrunning
        exact .inl ⟨status, _, rfl, .ended halive
          (.pass w _ (Nat.le_of_lt (now_lt_of_settle hrunning))) hended (hintime _),
          by rw [hended]; rfl⟩
    next hrunning =>
      obtain ⟨status, hended⟩ := exists_ended_of_settle halive hrunning
      rw [hended]
      exact .inl ⟨status, _, rfl, .ended halive (.settle w) hended (hintime _), by rw [hended]; rfl⟩

/-- A task that falls due at the end of a wait, or later, may still be running then. -/
theorem phase_moveTo_of_le {due time : Nat} {status : Int}
    (h : w.phase id = .running due status) (hle : time ≤ due) :
    (w.moveTo time fun _ => false).phase id = .running due status := by
  have hlater : ¬ (decide (due < time) || (due == time && false)) = true := by simpa using hle
  rw [phase_moveTo_running h, if_neg hlater]

/-- **What comes of waiting for a task** with a limit, after which it is still alive. -/
theorem joinWithin_cases (id ms : Nat) (w : World σ) :
    (∃ status w₁, joinWithin id ms w = (.done (some status), w₁) ∧ w.Joined (some ms) id w₁ ∧
      overStatus? (w₁.phase id) = some status) ∨
    (∃ w₁, joinWithin id ms w = (.done none, w₁) ∧ w.Lapses w₁ ∧
      (w₁.phase id).isAlive = true ∧ w₁.now = w.now + ms) ∨
    CutOff w (joinWithin id ms w) := by
  unfold joinWithin
  split
  next status hover =>
    exact .inl ⟨status, w, rfl, .gone (isAlive_of_overStatus?_eq_some hover), hover⟩
  next hnone =>
    have halive := isAlive_of_overStatus?_eq_none hnone
    split_ifs with hms
    · exact .inr (.inl ⟨w, rfl, .refl w, halive, by rw [hms]; rfl⟩)
    · dsimp only
      split
      next due status hrunning =>
        split
        next limit hlimit => exact .inr (.inr (cutOff_cutAt hlimit))
        next =>
          split_ifs with hdue
          · have hended := phase_moveTo hrunning
            refine .inl ⟨status, _, rfl, .ended halive
              (.pass w _ (Nat.le_of_lt (now_lt_of_settle hrunning))) hended ?_, by rw [hended]; rfl⟩
            rintro _ ⟨⟩
            exact hdue
          · have hlate := phase_moveTo_of_le hrunning (Nat.le_of_not_lt hdue)
            exact .inr (.inl ⟨_, rfl, .pass w _ (Nat.le_add_right _ _), by rw [hlate]; rfl, rfl⟩)
      next hrunning =>
        obtain ⟨status, hended⟩ := exists_ended_of_settle halive hrunning
        rw [hended]
        refine .inl ⟨status, _, rfl, .ended halive (.settle w) hended ?_, by rw [hended]; rfl⟩
        rintro _ ⟨⟩
        exact Nat.lt_add_of_pos_right (Nat.pos_of_ne_zero hms)

/-! ## Activities that came to their end -/

/-- A command was run once, and what came of it was waited for. -/
theorem exists_of_perform {x : Executor σ} {request : Request} {result : Except Fault Output}
    (h : perform x request w = (.done result, w')) : ∃ response host,
      x request w.host = (response, host) ∧ result = response.result ∧
      ({ w with host } : World σ).Lapses w' ∧ w'.now = w.now + response.after := by
  obtain ⟨response, w₁, hask, hrest⟩ := exists_of_bind h
  obtain ⟨_, w₂, hwait, hpure⟩ := exists_of_bind hrest
  cases hask
  cases hpure
  rcases wait_cases _ _ with ⟨w₁, hdone, hlapses, hnow⟩ | hcut
  · cases hdone.symm.trans hwait
    exact ⟨_, _, rfl, rfl, hlapses, hnow⟩
  · exact absurd (hwait ▸ hcut) CutOff.not_done

theorem joined_join {status : Int} (h : join id w = (.done status, w')) :
    w.Joined none id w' := by
  rcases join_cases id w with ⟨status', w₁, hdone, hjoined, -⟩ | hcut
  · cases hdone.symm.trans h
    exact hjoined
  · exact absurd (h ▸ hcut) CutOff.not_done

/-- Waiting for a task with a limit, after which it is aborted. -/
theorem joined_stopWithin {ms : Nat} {status : Int}
    (h : stopWithin id ms w = (.done status, w')) : w.Joined (some ms) id w' := by
  obtain ⟨answer, w₂, hwithin, hrest⟩ := exists_of_bind h
  rcases joinWithin_cases id ms w with
    ⟨status', w₁, hdone, hjoined, -⟩ | ⟨w₁, hdone, hlapses, halive, hnow⟩ | hcut
  · cases hdone.symm.trans hwithin
    cases hrest
    exact hjoined
  · cases hdone.symm.trans hwithin
    cases hrest
    exact .late rfl hlapses halive hnow
  · exact absurd (hwithin ▸ hcut) CutOff.not_done

end Act

/-! ## What holds however a wait ends -/

namespace World.Steady

open Act

variable {R : World σ → World σ → Prop} (hR : Steady R)

include hR

theorem wait (ms : Nat) (w : World σ) : R w (Act.wait ms w).2 := by
  rcases wait_cases ms w with ⟨w₁, hdone, hlapses, -⟩ | hcut
  · rw [hdone]
    exact hlapses.steady hR
  · exact hcut.steady hR

theorem join (id : Nat) (w : World σ) : R w (Act.join id w).2 := by
  rcases join_cases id w with ⟨status, w₁, hdone, hjoined, -⟩ | hcut
  · rw [hdone]
    exact hjoined.steady hR
  · exact hcut.steady hR

theorem joinWithin (id ms : Nat) (w : World σ) : R w (Act.joinWithin id ms w).2 := by
  rcases joinWithin_cases id ms w with
    ⟨status, w₁, hdone, hjoined, -⟩ | ⟨w₁, hdone, hlapses, -⟩ | hcut
  · rw [hdone]
    exact hjoined.steady hR
  · rw [hdone]
    exact hlapses.steady hR
  · exact hcut.steady hR

theorem stopWithin (id ms : Nat) (w : World σ) : R w (Act.stopWithin id ms w).2 := by
  refine hR.bind (hR.joinWithin id ms) (fun status w => ?_) w
  cases status with
  | some status => exact hR.refl w
  | none => exact hR.abort w id

end World.Steady

end Qualification
