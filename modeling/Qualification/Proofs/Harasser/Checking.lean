import Qualification.Proofs.Harasser.Stopping
import Qualification.Proofs.Text.Digits
import Qualification.Proofs.Text.Lines
/-!
# Checking the crew

A check parts the crew by where its harassers stand at that moment. If each one that is over ended
with status 0, the living ones are put back and nothing else happens. Otherwise the living ones are
stopped, and the log of that is overwritten by a line for each of the dead, but for the number of
harassers that were stopped.

* `living`, `dead`: the parts of the crew;
* `check_of_none`, `check_of_some`: the two ways that a check goes;
* `newline_notMem_notice`: a death notice is one line;
* **`check_account`**: what there is to tell of a check.
-/

namespace Qualification.HarasserUtility

variable {σ : Type}

/-- The harassers of the crew that may still act. -/
def living (owner : Nat) (w : World σ) : List Harasser :=
  (w.crew owner).filter fun h => (w.phase h.task).isAlive

/-- The harassers of the crew that ended with another status than 0. -/
def dead (owner : Nat) (w : World σ) : List Harasser :=
  (w.crew owner).filter fun h => !(w.phase h.task).isAlive && finalStatus w h != 0

section Check

variable (owner : Nat) (s : Services σ) (log : Log) (r : Resolved) (w : World σ)

/-- A check puts the living back, and then looks at the notices of the dead. -/
theorem check_eq_afterNotices : check owner s log r w =
    afterNotices s owner log r (living owner w) ((dead owner w).map (notice w))
      (setCrew w owner []) := by
  have hparts : (w.crew owner).partition (fun h => (w.phase h.task).isAlive) =
      (living owner w, (w.crew owner).filter fun h => !(w.phase h.task).isAlive) :=
    List.partition_eq_filter_filter
  have hnotices := deathNotices_done (w := setCrew w owner []) (over_of_partition hparts)
  rw [List.filter_filter] at hnotices
  have hdead : ((w.crew owner).filter fun h =>
      finalStatus (setCrew w owner []) h != 0 && !(w.phase h.task).isAlive) = dead owner w :=
    List.filter_congr fun h _ => Bool.and_comm _ _
  rw [hdead] at hnotices
  rw [check_of_partition s hparts, Act.bind_of_done hnotices]
  rfl

theorem setCrew_setCrew (hs hs' : List Harasser) :
    setCrew (setCrew w owner hs) owner hs' = setCrew w owner hs' := by
  have hcrew : (setCrew (setCrew w owner hs) owner hs').crew = (setCrew w owner hs').crew := by
    funext n
    simp only [setCrew]
    split_ifs <;> rfl
  exact congrArg (fun crew => { w with crew }) hcrew

theorem addCrew_living : addCrew owner (living owner w) (setCrew w owner []) =
    (.done (), setCrew w owner (living owner w)) := by
  have hempty : (setCrew w owner []).crew owner = [] := if_pos rfl
  change (Ending.done (), setCrew (setCrew w owner []) owner
    ((setCrew w owner []).crew owner ++ living owner w)) = _
  rw [hempty, List.nil_append, setCrew_setCrew]

/-- **Nobody died**: the living are in the crew again, and all else is as it was. -/
theorem check_of_none (h : dead owner w = []) : check owner s log r w =
    (.done { log with stdout := s!"{(living owner w).length} harasser(s) running", status := 0 },
      setCrew w owner (living owner w)) := by
  have hcrew : (setCrew w owner (living owner w)).crew owner = living owner w := if_pos rfl
  rw [check_eq_afterNotices, h, afterNotices, Act.bind_of_done (addCrew_living owner w),
    List.map_nil, if_pos (by rfl)]
  exact congrArg (fun crew : List Harasser => (Ending.done { log with
    stdout := s!"{crew.length} harasser(s) running", status := 0 }, _)) hcrew

/-- **Somebody died**: the living are stopped. -/
theorem check_of_some (h : dead owner w ≠ []) : check owner s log r w =
    (stop owner s log r >>= fun log =>
      Pure.pure (log.fail 1 (Text.joinWith "\n" ((dead owner w).map (notice w)))))
      (setCrew w owner (living owner w)) := by
  have hsome : ¬ ((dead owner w).map (notice w)).isEmpty = true := by
    rwa [List.isEmpty_iff, List.map_eq_nil_iff]
  rw [check_eq_afterNotices, afterNotices, Act.bind_of_done (addCrew_living owner w), if_neg hsome]

end Check

/-! ## Death notices -/

theorem newline_notMem_notice (w : World σ) (h : Harasser) : '\n' ∉ (notice w h).toList := by
  have htext : notice w h = "harasser " ++ toString h.task ++ " exited with status " ++
      toString (finalStatus w h) := rfl
  have hwords : '\n' ∉ "harasser ".toList ∧ '\n' ∉ " exited with status ".toList := by decide
  have hdigit : ¬ '\n'.isDigit = true := by decide
  simp only [htext, String.toList_append, List.mem_append]
  rintro (((hmem | hmem) | hmem) | hmem)
  · exact hwords.1 hmem
  · exact hdigit (isDigit_of_mem_toString hmem)
  · exact hwords.2 hmem
  · rcases cases_of_mem_toString hmem with hsign | hmem
    · cases hsign
    · exact hdigit hmem

/-- Of the log of a call that stops the crew only the number of harassers is left when it is made to
fail. -/
theorem Stopped.fail_eq {owner : Nat} {s : Services σ} {r : Resolved} {log log' : Log}
    {w w' : World σ} {visits : List Visit} (h : Stopped owner s r log w visits log' w')
    (stderr : String) : log'.fail 1 stderr = { log with
      stdout := s!"Stopped {(w.crew owner).length} harasser(s)", status := 1, stderr } := by
  rw [← h.visited, List.length_map]
  by_cases hall : ∀ v ∈ visits, v.status = 0
  · rw [h.succeeded hall]
    rfl
  · rw [h.failed (by simpa using hall)]
    rfl

/-- **Checking the crew.** If each harasser that is over ended with status 0, the living ones stay
in the crew and run on, no script is run, and the log tells how many they are. Otherwise the living
ones are stopped as a call to stop does, nobody is left in the crew, and whatever comes of the stop
scripts the log has status 1 and exactly one line for each of the dead, in the order of the crew. -/
theorem check_account (owner : Nat) (s : Services σ) (log : Log) (r : Resolved) (w : World σ) :
    (dead owner w = [] → check owner s log r w =
      (.done { log with
          stdout := s!"{(living owner w).length} harasser(s) running", status := 0 },
        setCrew w owner (living owner w))) ∧
    (dead owner w ≠ [] →
      (w.deadline = none → ∃ log' w', check owner s log r w = (.done log', w')) ∧
      ∀ log' w', check owner s log r w = (.done log', w') →
        (∃ visits log₁, Stopped owner s r log (setCrew w owner (living owner w)) visits log₁ w' ∧
          visits.map Visit.harasser = living owner w) ∧
        w'.crew owner = [] ∧
        log' = { log with
          stdout := s!"Stopped {(living owner w).length} harasser(s)"
          status := 1
          stderr := Text.joinWith "\n" ((dead owner w).map (notice w)) } ∧
        Text.splitOn '\n' log'.stderr = (dead owner w).map (notice w)) := by
  refine ⟨check_of_none owner s log r w, fun hdead => ⟨fun hw => ?_, fun log' w' h => ?_⟩⟩
  · obtain ⟨log', w', hdone, -⟩ := ends_check owner s log r w hw
    exact ⟨log', w', hdone⟩
  · rw [check_of_some owner s log r w hdead] at h
    obtain ⟨log₁, w₁, hstop, hpure⟩ := Act.exists_of_bind h
    cases hpure
    obtain ⟨visits, hstopped⟩ := exists_stopped hstop
    have hcrew : (setCrew w owner (living owner w)).crew owner = living owner w := if_pos rfl
    have hvisited : visits.map Visit.harasser = living owner w := hstopped.visited.trans hcrew
    refine ⟨⟨visits, log₁, hstopped, hvisited⟩, ?_, ?_, ?_⟩
    · rw [hstopped.crew]
      exact if_pos rfl
    · rw [hstopped.fail_eq, hcrew]
    · refine Text.splitOn_joinWith rfl (List.map_eq_nil_iff.not.mpr hdead) ?_
      exact List.forall_mem_map.mpr fun h _ => newline_notMem_notice w h

/-- A crew of which nobody died: one harasser ended with status 0. -/
def soundCrew : World (List Request) :=
  { mixedCrew with
    tasks := [
      ⟨0, fun host => ((0, 0), host), .running 500 3⟩,
      ⟨1, fun host => ((0, 0), host), .ended 0⟩,
      ⟨2, fun host => ((60000, 0), host), .queued⟩]
    crew := fun owner =>
      if owner = 7 then [⟨0, "unload cpu"⟩, ⟨1, "calm"⟩, ⟨2, "calm it"⟩] else [] }

/-- The living of the one crew are put back. Those of the other one are stopped, and that a stop
script fails is not told. -/
theorem check_account_mixed :
    let log := Log.new "" ""
    dead 7 soundCrew = [] ∧
    check 7 moodyServices log twoSeconds soundCrew =
      (.done { log with stdout := "2 harasser(s) running", status := 0 },
        setCrew soundCrew 7 [⟨0, "unload cpu"⟩, ⟨2, "calm it"⟩]) ∧
    dead 7 mixedCrew = [⟨1, "calm"⟩, ⟨4, "break it"⟩] ∧ mixedCrew.deadline = none ∧
    ∃ log' w', check 7 moodyServices log twoSeconds mixedCrew = (.done log', w') ∧
      (∃ visits log₁, Stopped 7 moodyServices twoSeconds log
          (setCrew mixedCrew 7 (living 7 mixedCrew)) visits log₁ w' ∧
        visits.map Visit.harasser =
          [⟨0, "unload cpu"⟩, ⟨2, "calm it"⟩, ⟨3, "fail"⟩, ⟨5, " "⟩]) ∧
      w'.crew 7 = [] ∧ log'.stdout = "Stopped 4 harasser(s)" ∧ log'.status = 1 ∧
      Text.splitOn '\n' log'.stderr =
        ["harasser 1 exited with status -1", "harasser 4 exited with status 5"] := by
  intro log
  have hsound : dead 7 soundCrew = [] := by decide +kernel
  have hrunning : living 7 soundCrew = [⟨0, "unload cpu"⟩, ⟨2, "calm it"⟩] := by decide +kernel
  have hmixed : dead 7 mixedCrew = [⟨1, "calm"⟩, ⟨4, "break it"⟩] := by decide +kernel
  have hliving : living 7 mixedCrew =
      [⟨0, "unload cpu"⟩, ⟨2, "calm it"⟩, ⟨3, "fail"⟩, ⟨5, " "⟩] := by decide +kernel
  have hnotices : (dead 7 mixedCrew).map (notice mixedCrew) =
      ["harasser 1 exited with status -1", "harasser 4 exited with status 5"] := by decide +kernel
  obtain ⟨hnone, -⟩ := check_account 7 moodyServices log twoSeconds soundCrew
  obtain ⟨-, hsome⟩ := check_account 7 moodyServices log twoSeconds mixedCrew
  obtain ⟨hends, hdone⟩ := hsome (by rw [hmixed]; exact List.cons_ne_nil _ _)
  obtain ⟨log', w', hcheck⟩ := hends rfl
  obtain ⟨⟨visits, log₁, hstopped, hvisits⟩, hcrew, hlog, hlines⟩ := hdone log' w' hcheck
  refine ⟨hsound, ?_, hmixed, rfl, log', w', hcheck,
    ⟨visits, log₁, hstopped, hvisits.trans hliving⟩, hcrew, ?_, ?_, hlines.trans hnotices⟩
  · rw [hnone hsound, hrunning]
    rfl
  · rw [hlog, hliving]
    rfl
  · rw [hlog]

end Qualification.HarasserUtility
