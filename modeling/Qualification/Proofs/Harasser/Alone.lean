import Qualification.Proofs.Harasser.Interleaving
import Qualification.Proofs.Lapse
/-!
# Calls while all others wait

What a call does from its beginning to its end while all others wait is one of the runs of steps.

* `Passes`: what happens during a wait;
* `await_cases`: what comes of a wait;
* **`run_start`**, **`run_check`**, **`run_stop`**.
-/

namespace Qualification.HarasserUtility

variable {σ α β : Type} {owner : Nat} {s : Services σ}

open Course

/-- Whether a world may come after another one while nobody uses the crew. -/
def Passes (owner : Nat) (w w' : World σ) : Prop := w.Onward w' ∧ w'.crew owner = w.crew owner

theorem Passes.trans {w w₁ w₂ : World σ} (h : Passes owner w w₁) (h' : Passes owner w₁ w₂) :
    Passes owner w w₂ := ⟨h.1.trans h'.1, h'.2.trans h.2⟩

theorem steady_passes (owner : Nat) : World.Steady (Passes owner : World σ → World σ → Prop) where
  refl w := ⟨World.Onward.refl w, rfl⟩
  trans := Passes.trans
  settle w := ⟨w.onward_settle, rfl⟩
  moveTo w time also := ⟨w.onward_moveTo time also, rfl⟩
  abort w id := ⟨w.onward_abort id, rfl⟩

theorem passes_perform (executor : Executor σ) (request : Request) (w : World σ) :
    Passes owner w (Act.perform executor request w).2 :=
  (steady_passes owner).bind (fun _ => ⟨World.onward_of_tasks_eq rfl, rfl⟩)
    (fun _ => (steady_passes owner).bind ((steady_passes owner).wait _)
      fun _ => (steady_passes owner).refl) w

/-- What comes of a wait: an answer in its due time, or none. -/
theorem await_cases (owner : Nat) (executor : Executor σ) (on : Await) (w : World σ) :
    (∃ status w₁ w₂, on.act executor w = (.done status, w₂) ∧ Passes owner w w₁ ∧
      on.Answers status w₁ w₂) ∨
    ((on.act executor w).1.isDone = false ∧ Passes owner w (on.act executor w).2) := by
  cases on with
  | script request =>
    have hpasses : Passes owner w (Act.perform executor request w).2 := passes_perform _ _ w
    rcases Act.bind_cases (Act.perform executor request)
      (fun result => Pure.pure (scriptStatus result)) w with
      ⟨result, w₁, hresult, hbind⟩ | ⟨-, hends, hbind⟩
    · rw [hresult] at hpasses
      exact .inl ⟨scriptStatus result, w₁, w₁, hbind, hpasses, .script request _ w₁⟩
    · exact .inr ⟨hends, hbind ▸ hpasses⟩
  | join id limit =>
    cases limit with
    | none =>
      rcases Act.join_cases id w with ⟨status, w₁, hjoin, hjoined, hover⟩ | hcut
      · exact .inl ⟨status, w₁, w₁, hjoin, hjoined.steady (steady_passes owner), .join hover⟩
      · exact .inr ⟨hcut.undone, hcut.steady (steady_passes owner)⟩
    | some ms =>
      rcases Act.joinWithin_cases id ms w with ⟨status, w₁, hjoin, hjoined, hover⟩ |
        ⟨w₁, hjoin, hlapses, -⟩ | hcut
      · exact .inl ⟨status, w₁, w₁, Act.bind_of_done hjoin _,
          hjoined.steady (steady_passes owner), .join hover⟩
      · exact .inl ⟨timeoutStatus, w₁, w₁.abort id, Act.bind_of_done hjoin _,
          hlapses.steady (steady_passes owner), .late id ms w₁⟩
      · rcases Act.bind_cases (Act.joinWithin id ms) _ w with
          ⟨result, w₁, hresult, -⟩ | ⟨-, hundone, hbind⟩
        · exact absurd (hresult ▸ hcut) Act.CutOff.not_done
        · exact .inr ⟨hundone, hbind.symm ▸ hcut.steady (steady_passes owner)⟩

/-- A call goes on as a run of steps if all others wait. -/
theorem run_act (st : State σ) (c : Course σ Log) :
    Run owner s Move.GoesOn (st.call c) { st with world := (c.act s.executor st.world).2 } := by
  induction c generalizing st with
  | ended log =>
    change Run owner s Move.GoesOn { st with calls := st.calls ++ [] } st
    rw [List.append_nil]
    exact .refl
  | now change next ih => exact ih st.world { st with world := change st.world }
  | await hands on next ih =>
    rcases await_cases owner s.executor on st.world with
      ⟨status, w₁, w₂, hon, hpasses, hanswers⟩ | ⟨hends, hpasses⟩
    · have hact : (await hands on next).act s.executor st.world =
          (next status).act s.executor w₂ :=
        Act.bind_of_done (Act.orElseUndo_of_done hon _) _
      have hresume : Step owner s .resume { st.call (await hands on next) with world := w₁ }
          (State.call { st with world := w₂ } (next status)) := by
        have hstep := @Step.resume σ owner s { st.call (await hands on next) with world := w₁ }
          st.calls [] hands on next status w₂ rfl hanswers
        rw [List.append_nil] at hstep
        exact hstep
      rw [hact]
      exact .head ⟨.elsewhere, trivial, .elsewhere hpasses.1 hpasses.2⟩
        (.head ⟨.resume, trivial, hresume⟩ (ih status { st with world := w₂ }))
    · -- The call ends here, with harassers in its hands.
      obtain ⟨hundone, hundo⟩ := Act.orElseUndo_of_not_done hends (abortAll hands)
      have hact : ((await hands on next).act s.executor st.world).2 =
          abortAll hands (on.act s.executor st.world).2 := by
        rcases Act.bind_cases ((on.act s.executor).orElseUndo (abortAll hands))
          (fun status => (next status).act s.executor) st.world with
          ⟨status, w₁, hdone, -⟩ | ⟨-, -, hbind⟩
        · rw [hdone] at hundone
          cases hundone
        · exact hbind.trans hundo
      have hcancel : Step owner s .cancel
          { st.call (await hands on next) with world := (on.act s.executor st.world).2 }
          { st with world := abortAll hands (on.act s.executor st.world).2 } := by
        have hstep := @Step.cancel σ owner s
          { st.call (await hands on next) with world := (on.act s.executor st.world).2 }
          st.calls [] (await hands on next) rfl
        rw [List.append_nil] at hstep
        exact hstep
      rw [hact]
      exact .head ⟨.elsewhere, trivial, .elsewhere hpasses.1 hpasses.2⟩
        (.single ⟨.cancel, trivial, hcancel⟩)

/-- **Stopping the crew** while all others wait is a run of steps. -/
theorem run_stop (st : State σ) (log : Log) (r : Resolved) :
    Run owner s (fun _ => True) st { st with world := (stop owner s log r st.world).2 } := by
  rw [stop_eq]
  exact .head ⟨.stop, trivial, .stop st log r⟩ ((run_act st _).mono fun _ _ => trivial)

/-- **Checking the crew** while all others wait is a run of steps. -/
theorem run_check (st : State σ) (log : Log) (r : Resolved) :
    Run owner s (fun _ => True) st { st with world := (check owner s log r st.world).2 } := by
  rw [check_eq]
  exact .head ⟨.check, trivial, .check st log r⟩ ((run_act st _).mono fun _ _ => trivial)

/-- **Starting harassers** is a run of one step. -/
theorem run_start (st : State σ) (log : Log) (r : Resolved) :
    ∃ ids, Run owner s (fun _ => True) st { st with
      world := (start owner s log r st.world).2
      started := st.started ++ ids } := by
  obtain ⟨ids, w', hids⟩ := startPairs_done s owner
    ((r.list "trigger_scripts").zip (r.list "stop_scripts")) st.world
  have hstart : (start owner s log r st.world).2 = w' :=
    congrArg Prod.snd (Act.bind_of_done hids _)
  rw [hstart]
  exact ⟨ids, .single ⟨.start, trivial, .start hids⟩⟩

end Qualification.HarasserUtility
