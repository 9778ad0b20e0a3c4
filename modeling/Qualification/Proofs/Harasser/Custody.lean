import Qualification.Proofs.Harasser.Course
import Qualification.Proofs.Tasks
/-!
# Who has which harassers

A harasser is in the crew or in the hands of a call. What a call does hands harassers over from one
to the other, and lets go only of those that are over.

* `Handover`: harassers that pass between the crew and the hands of a call;
* `Await.Answers`: what may come of a wait;
* `Course.Tidy`: a course that only lets go of harassers that are over;
* **`tidy_stop`**, **`tidy_check`**: the courses of the calls are tidy.
-/

namespace Qualification.HarasserUtility

variable {σ α β : Type} {owner : Nat}

/-! ## Handovers -/

/-- Whether harassers pass between the crew and the hands of a call, or are over. -/
structure Handover (owner : Nat) (w : World σ) (hs : List Harasser) (w' : World σ)
    (hs' : List Harasser) : Prop where
  onward : w.Onward w'
  perm : ∃ gone, (w.crew owner ++ hs).Perm (w'.crew owner ++ hs' ++ gone) ∧
    ∀ h ∈ gone, w'.Over h.task

/-- Whether the harassers of the crew and of a call have tasks. -/
def Known (owner : Nat) (w : World σ) (hs : List Harasser) : Prop :=
  ∀ h ∈ w.crew owner ++ hs, w.Knows h.task

namespace Handover

variable {w w₁ w₂ : World σ} {hs hs₁ hs₂ : List Harasser}

theorem letGo {gone : List Harasser} (honward : w.Onward w₁) (hcrew : w₁.crew owner = w.crew owner)
    (hperm : hs.Perm (hs₁ ++ gone)) (hover : ∀ h ∈ gone, w₁.Over h.task) :
    Handover owner w hs w₁ hs₁ := by
  refine ⟨honward, gone, ?_, hover⟩
  rw [hcrew, List.append_assoc]
  exact hperm.append_left _

theorem exchange {crew : List Harasser} (hperm : (w.crew owner ++ hs).Perm (crew ++ hs₁)) :
    Handover owner w hs (setCrew w owner crew) hs₁ := by
  refine ⟨World.onward_of_tasks_eq rfl, [], ?_, List.forall_mem_nil _⟩
  have hcrew : (setCrew w owner crew).crew owner = crew := if_pos rfl
  rw [hcrew, List.append_nil]
  exact hperm

theorem refl (w : World σ) (hs : List Harasser) : Handover owner w hs w hs :=
  letGo (World.Onward.refl w) rfl (by rw [List.append_nil]) (List.forall_mem_nil _)

theorem trans (h : Handover owner w hs w₁ hs₁) (h' : Handover owner w₁ hs₁ w₂ hs₂) :
    Handover owner w hs w₂ hs₂ := by
  obtain ⟨gone, hperm, hover⟩ := h.perm
  obtain ⟨gone', hperm', hover'⟩ := h'.perm
  -- Those let go of first are over still, since the world only goes on.
  refine ⟨h.onward.trans h'.onward, gone' ++ gone, ?_, ?_⟩
  · rw [← List.append_assoc]
    exact hperm.trans (hperm'.append_right gone)
  · intro x hx
    rcases List.mem_append.mp hx with hx | hx
    · exact hover' x hx
    · exact h'.onward.ended _ (hover x hx)

theorem aborted {hs : List Harasser} (h : ∀ x ∈ hs, w.Knows x.task) :
    w.Onward (abortAll hs w) ∧ ∀ x ∈ hs, (abortAll hs w).Over x.task :=
  ⟨w.onward_abortAll _, fun _ hx => World.over_abortAll (List.forall_mem_map.mpr h)
    (List.mem_map_of_mem hx)⟩

theorem abandon (hknown : Known owner w hs) : Handover owner w hs (abortAll hs w) [] := by
  obtain ⟨honward, hover⟩ := aborted fun x hx => hknown x (List.mem_append_right _ hx)
  exact letGo honward (congrFun (w.crew_abortAll _) owner) (List.Perm.refl hs) hover

theorem release (hknown : Known owner w []) : Handover owner w [] (release owner w) [] := by
  obtain ⟨honward, hover⟩ := aborted fun x hx => hknown x (List.mem_append_left _ hx)
  have hcrew : (HarasserUtility.release owner w).crew owner = [] := if_pos rfl
  refine ⟨honward.trans (World.onward_of_tasks_eq rfl), w.crew owner, ?_, hover⟩
  rw [hcrew, List.append_nil]
  rfl

theorem known (h : Handover owner w hs w₁ hs₁) (hknown : Known owner w hs) :
    Known owner w₁ hs₁ := by
  obtain ⟨gone, hperm, -⟩ := h.perm
  intro x hx
  exact h.onward.knows _ (hknown x (hperm.mem_iff.mpr (List.mem_append_left gone hx)))

end Handover

/-! ## Tidy courses -/

/-- What may come of a wait, and how it changes the world. -/
inductive Await.Answers : Await → Int → World σ → World σ → Prop
  /-- A command may end with any status. -/
  | script (request : Request) (status : Int) (w : World σ) :
      Answers (.script request) status w w
  /-- A harasser is over. -/
  | join {id : Nat} {limit : Option Nat} {status : Int} {w : World σ}
      (hover : Act.overStatus? (w.phase id) = some status) : Answers (.join id limit) status w w
  /-- A harasser takes too long, however long it took. -/
  | late (id ms : Nat) (w : World σ) :
      Answers (.join id (some ms)) timeoutStatus w (w.abort id)

theorem Await.Answers.onward {on : Await} {status : Int} {w w' : World σ}
    (h : on.Answers status w w') : w.Onward w' ∧ w'.crew = w.crew := by
  cases h with
  | script request => exact ⟨World.Onward.refl w, rfl⟩
  | join hover => exact ⟨World.Onward.refl w, rfl⟩
  | late id ms => exact ⟨w.onward_abort id, rfl⟩

theorem Await.Answers.isOver {id : Nat} {limit : Option Nat} {status : Int} {w w' : World σ}
    (h : (Await.join id limit).Answers status w w') (hknows : w.Knows id) : w'.Over id := by
  cases h with
  | join hover =>
    refine ⟨hknows, ?_⟩
    cases hphase : w.phase id with
    | queued => rw [hphase] at hover; cases hover
    | running due status => rw [hphase] at hover; cases hover
    | ended status => rfl
    | aborted => rfl
  | late => exact World.over_abort hknows

namespace Course

/-- Whether a course, begun with some harassers in its hands, hands over all but those that are
over, and comes to its end with the ones that are left. -/
def Tidy (owner : Nat) (left : List Harasser) : Course σ α → List Harasser → Prop
  | ended _, hs => hs = left
  | now change next, hs => ∀ w, Known owner w hs →
      ∃ hs', Handover owner w hs (change w) hs' ∧ (next w).Tidy owner left hs'
  | await hands on next, hs => hs = hands ∧ ∀ (status : Int) (w w' : World σ), Known owner w hs →
      on.Answers status w w' →
        ∃ hs', Handover owner w hs w' hs' ∧ (next status).Tidy owner left hs'

theorem tidy_bind {c : Course σ α} {f : α → Course σ β} {hs mid left : List Harasser}
    (hc : c.Tidy owner mid hs) (hf : ∀ a, (f a).Tidy owner left mid) :
    (c.bind f).Tidy owner left hs := by
  induction c generalizing hs with
  | ended a => exact hc ▸ hf a
  | now change next ih =>
    intro w hknown
    obtain ⟨hs', hhand, hnext⟩ := hc w hknown
    exact ⟨hs', hhand, ih w hnext⟩
  | await hands on next ih =>
    refine ⟨hc.1, fun status w w' hknown hanswers => ?_⟩
    obtain ⟨hs', hhand, hnext⟩ := hc.2 status w w' hknown hanswers
    exact ⟨hs', hhand, ih status hnext⟩

/-- A course that waits for the first harasser in its hands and lets go of it. -/
theorem tidy_join {h : Harasser} {hs left : List Harasser} {limit : Option Nat}
    {next : Int → Course σ α} (hnext : ∀ status, (next status).Tidy owner left hs) :
    (await (h :: hs) (.join h.task limit) next).Tidy owner left (h :: hs) := by
  refine ⟨rfl, fun status w w' hknown hanswers => ⟨hs, ?_, hnext status⟩⟩
  have hmem : h ∈ w.crew owner ++ h :: hs := List.mem_append_right _ List.mem_cons_self
  obtain ⟨honward, hcrew⟩ := hanswers.onward
  refine Handover.letGo honward (congrFun hcrew owner) (List.perm_append_singleton h hs).symm ?_
  rintro _ (_ | ⟨_, ⟨⟩⟩)
  exact hanswers.isOver (hknown h hmem)

end Course

/-! ## The courses of calls -/

open Course

theorem tidy_afterScript (limit : Option Nat) (h : Harasser) (hs : List Harasser) (status : Int) :
    (afterScriptCourse limit h hs status : Course σ _).Tidy owner hs (h :: hs) := by
  unfold afterScriptCourse
  split_ifs
  · exact tidy_join fun _ => rfl
  · intro w hknown
    have hmem : h ∈ w.crew owner ++ h :: hs := List.mem_append_right _ List.mem_cons_self
    refine ⟨hs, ?_, rfl⟩
    refine Handover.letGo (w.onward_abort h.task) rfl (List.perm_append_singleton h hs).symm ?_
    rintro _ (_ | ⟨_, ⟨⟩⟩)
    exact World.over_abort (hknown h hmem)

theorem tidy_stopOne (limit : Option Nat) (h : Harasser) (hs : List Harasser) :
    (stopOneCourse limit h hs : Course σ _).Tidy owner hs (h :: hs) := by
  unfold stopOneCourse
  split
  · exact tidy_afterScript limit h hs 0
  · intro w _
    refine ⟨h :: hs, Handover.refl w _, rfl, fun status w₁ w₂ _ hanswers => ?_⟩
    obtain ⟨honward, hcrew⟩ := hanswers.onward
    exact ⟨h :: hs, Handover.letGo honward (congrFun hcrew owner) (by rw [List.append_nil])
      (List.forall_mem_nil _), tidy_afterScript limit h hs status⟩

theorem tidy_stopEach (limit : Option Nat) (hs : List Harasser) :
    (stopEachCourse limit hs : Course σ _).Tidy owner [] hs := by
  induction hs with
  | nil => rfl
  | cons h hs ih => exact tidy_bind (tidy_stopOne limit h hs) fun _ => tidy_bind ih fun _ => rfl

/-- **Stopping the crew** takes it in hand and lets go of harassers that are over. -/
theorem tidy_stop (owner : Nat) (log : Log) (r : Resolved) :
    (stopCourse owner log r : Course σ Log).Tidy owner [] [] := by
  intro w _
  refine ⟨w.crew owner, Handover.exchange (by rw [List.append_nil, List.nil_append]), ?_⟩
  refine tidy_bind (tidy_stopEach _ _) fun failures => ?_
  rfl

theorem tidy_notices (alive finished : List Harasser) :
    (noticesCourse alive finished : Course σ _).Tidy owner alive (finished ++ alive) := by
  induction finished with
  | nil => rfl
  | cons h finished ih => exact tidy_join fun _ => tidy_bind ih fun _ => rfl

theorem tidy_afterNotices (owner : Nat) (log : Log) (r : Resolved) (alive : List Harasser)
    (dead : List String) :
    (afterNoticesCourse owner log r alive dead : Course σ Log).Tidy owner [] alive := by
  intro w _
  refine ⟨[], Handover.exchange (by rw [List.append_nil]), ?_⟩
  cases dead.isEmpty with
  | true => rfl
  | false => exact tidy_bind (tidy_stop owner log r) fun _ => rfl

/-- **Checking the crew** takes it in hand, puts the living harassers back and lets go of others
only if they are over. -/
theorem tidy_check (owner : Nat) (log : Log) (r : Resolved) :
    (checkCourse owner log r : Course σ Log).Tidy owner [] [] := by
  intro w _
  obtain ⟨alive, finished, hparts⟩ : ∃ alive finished,
      (w.crew owner).partition (fun h => (w.phase h.task).isAlive) = (alive, finished) :=
    ⟨_, _, rfl⟩
  -- First the whole crew is in the hands, and then the living part of it goes back.
  refine ⟨finished ++ alive, Handover.exchange ?_, ?_⟩
  · rw [List.partition_eq_filter_filter, Prod.mk.injEq] at hparts
    have hperm := List.filter_append_perm (fun h => (w.phase h.task).isAlive) (w.crew owner)
    rw [← hparts.1, ← hparts.2, List.append_nil, List.nil_append]
    exact (List.perm_append_comm.trans hperm).symm
  · dsimp only
    rw [hparts]
    exact tidy_bind (tidy_notices alive finished) (tidy_afterNotices owner log r alive)

end Qualification.HarasserUtility
