import Qualification.Proofs.Plugin.Verdict
/-!
# Lists of modules

Running the command for a list of modules asks for one command after another, up to the first that
does not succeed. What comes of it is told by the answers so far: all of their streams, the changes
of the modules that succeeded, and the status of the one that did not.

* `Outcome.followedBy`, `planFrom_followedBy`: what was there before goes in front of what comes;
* `Told`: what the answers for the first modules of a list come to;
* `told_plan`: a run that comes to its end tells of all its answers;
* `runAfter`, `run_append`: one list after another;
* **`run_upToFailure`**: all of this, for every list, executor and world.
-/

namespace Qualification.Modules

variable {σ : Type}

/-! ## One outcome after another -/

namespace Outcome

/-- An outcome with the streams and changes of an earlier one in front. -/
def followedBy (o o' : Outcome) : Outcome :=
  ⟨o'.status, o.stdout ++ o'.stdout, o.stderr ++ o'.stderr, o.changes ++ o'.changes⟩

theorem followedBy_nothing {o : Outcome} (h : o.succeeded = true) : o.followedBy nothing = o := by
  have hstatus : o.status = 0 := beq_iff_eq.mp h
  simp [followedBy, nothing, ← hstatus]

theorem followedBy_add (o o' : Outcome) (out : Output) :
    o.followedBy (o'.add out) = (o.followedBy o').add out := by
  simp [followedBy, add, String.append_assoc]

theorem followedBy_failAt (o o' : Outcome) (action : Action) (m : String) (out : Output) :
    o.followedBy (o'.failAt action m out) = (o.followedBy o').failAt action m out := by
  simp [followedBy, failAt, String.append_assoc]

end Outcome

variable (words : List String) (action : Action)

/-- **What was there before** goes in front of what comes of the modules. -/
theorem planFrom_followedBy (o o' : Outcome) (ms : List String) :
    (planFrom words action (o.followedBy o') ms : Plan σ _) =
      (planFrom words action o' ms).bind fun r => .ended (r.map o.followedBy) := by
  induction ms generalizing o' with
  | nil => rfl
  | cons m ms ih =>
    refine congrArg (Plan.ask .wrapper [] (request words action m)) (funext fun r => ?_)
    cases r with
    | error fault => rfl
    | ok out =>
      dsimp only
      cases out.succeeded with
      | true =>
        rw [if_pos rfl, if_pos rfl, ← Outcome.followedBy_add]
        exact ih (o'.add out)
      | false =>
        rw [if_neg Bool.false_ne_true, if_neg Bool.false_ne_true, ← Outcome.followedBy_failAt]
        rfl

/-! ## What the answers come to -/

/-- What a module that succeeded answers. -/
def answered (out : Output) : Option (Except Fault Output) := some (.ok out)

/-- What the answers for the first of some modules come to. -/
inductive Told (action : Action) (ms : List String) :
    List (Option (Except Fault Output)) → Option (Except Fault Outcome) → Prop where
  /-- Each module succeeded. -/
  | passed (outs : List Output) (all : outs.length = ms.length)
    (succeeded : ∀ out ∈ outs, out.succeeded = true) :
    Told action ms (outs.map answered) (some (.ok ⟨0, String.join (outs.map Output.stdout),
      String.join (outs.map Output.stderr), outs.flatMap fun out => EnvScript.changes out.stdout⟩))
  /-- One of them failed, after others that succeeded. Its output is not read for changes. -/
  | failed (outs : List Output) (out : Output) {m : String} (place : ms[outs.length]? = some m)
    (succeeded : ∀ out ∈ outs, out.succeeded = true) (failed : out.succeeded = false) :
    Told action ms ((outs ++ [out]).map answered) (some (.ok ⟨out.status,
      String.join ((outs ++ [out]).map Output.stdout),
      String.join ((outs ++ [out]).map Output.stderr) ++
        s!"Attempt to {action.word} environment module {m} failed",
      outs.flatMap fun out => EnvScript.changes out.stdout⟩))
  /-- One of them could not be run at all. -/
  | faulted (outs : List Output) (fault : Fault) (place : outs.length < ms.length)
    (succeeded : ∀ out ∈ outs, out.succeeded = true) :
    Told action ms (outs.map answered ++ [some (.error fault)]) (some (.error fault))
  /-- Nothing came of one of them. -/
  | cut (outs : List Output) (place : outs.length < ms.length)
    (succeeded : ∀ out ∈ outs, out.succeeded = true) :
    Told action ms (outs.map answered ++ [none]) none

/-- One more module in front, which succeeded. -/
theorem Told.cons {action : Action} {ms : List String}
    {answers : List (Option (Except Fault Output))} {r : Option (Except Fault Outcome)}
    (h : Told action ms answers r) (m : String) {out : Output} (hout : out.succeeded = true) :
    Told action (m :: ms) (answered out :: answers)
      (r.map fun r => r.map (Outcome.nothing.add out).followedBy) := by
  cases h with
  | passed outs all succeeded =>
    have htold : Told action (m :: ms) _ _ := .passed (out :: outs) (congrArg (· + 1) all)
      (List.forall_mem_cons.mpr ⟨hout, succeeded⟩)
    simpa [Except.map, Outcome.followedBy, Outcome.add, Outcome.nothing] using htold
  | failed outs last place succeeded failed =>
    have htold : Told action (m :: ms) _ _ := .failed (out :: outs) last
      ((List.getElem?_cons_succ).trans place) (List.forall_mem_cons.mpr ⟨hout, succeeded⟩) failed
    simpa [Except.map, Outcome.followedBy, Outcome.add, Outcome.nothing, String.append_assoc]
      using htold
  | faulted outs fault place succeeded =>
    exact .faulted (out :: outs) fault (Nat.succ_lt_succ place)
      (List.forall_mem_cons.mpr ⟨hout, succeeded⟩)
  | cut outs place succeeded =>
    exact .cut (out :: outs) (Nat.succ_lt_succ place)
      (List.forall_mem_cons.mpr ⟨hout, succeeded⟩)

/-- **What comes of a run** is what its answers come to. -/
theorem told_planFrom (executor : Executor σ) (ms : List String) (w : World σ) :
    let p : Plan σ (Except Fault Outcome) := planFrom words action .nothing ms
    Told action ms ((p.trace executor w).map Asked.answer) (p.act executor w).1.result? := by
  induction ms generalizing w with
  | nil => exact .passed [] rfl (List.forall_mem_nil _)
  | cons m ms ih =>
    intro p
    obtain ⟨next, hask, hfault, hok⟩ := planFrom_cons (σ := σ) words action .nothing m ms
    rw [show p = _ from hask]
    rcases Plan.ask_cases executor .wrapper [] (request words action m) next w with
      ⟨answer, w₁, hact, htrace⟩ | ⟨hend, htrace⟩
    · rw [hact, htrace]
      cases answer with
      | error fault =>
        rw [hfault]
        exact .faulted [] fault (Nat.zero_lt_succ _) (List.forall_mem_nil _)
      | ok out =>
        rw [hok]
        cases hout : out.succeeded with
        | true =>
          -- The streams and changes of this module go in front of what comes of the others.
          have hrest : (planFrom words action (Outcome.nothing.add out) ms : Plan σ _) =
              (planFrom words action .nothing ms).bind fun r =>
                .ended (r.map (Outcome.nothing.add out).followedBy) := by
            rw [← planFrom_followedBy, Outcome.followedBy_nothing rfl]
          obtain ⟨htrace', hresult⟩ := Plan.mapped_cases executor
            (planFrom words action .nothing ms : Plan σ _)
            (fun r => r.map (Outcome.nothing.add out).followedBy) w₁
          rw [if_pos rfl, hrest, htrace', hresult]
          exact (ih w₁).cons m hout
        | false =>
          rw [if_neg Bool.false_ne_true]
          have htold : Told action (m :: ms) _ _ :=
            .failed [] out rfl (List.forall_mem_nil _) hout
          change Told action (m :: ms) [answered out]
            (some (.ok (Outcome.nothing.failAt action m out)))
          simpa [Outcome.failAt, Outcome.nothing] using htold
    · rw [Ending.result?_eq_none hend, htrace]
      exact .cut [] (Nat.zero_lt_succ _) (List.forall_mem_nil _)

/-! ## One list after another -/

theorem named_append (l l' : List String) : named (l ++ l') = named l ++ named l' := by
  simp [named]

/-- Goes on with more modules after what came of others. -/
def planAfter (ms : List String) : Except Fault Outcome → Plan σ (Except Fault Outcome)
  | .error fault => .ended (.error fault)
  | .ok o => if o.succeeded then planFrom words action o ms else .ended (.ok o)

theorem planFrom_append {o : Outcome} (ho : o.succeeded = true) (ms ms' : List String) :
    (planFrom words action o (ms ++ ms') : Plan σ _) =
      (planFrom words action o ms).bind (planAfter words action ms') := by
  induction ms generalizing o with
  | nil => exact (if_pos ho).symm
  | cons m ms ih =>
    refine congrArg (Plan.ask .wrapper [] (request words action m)) (funext fun r => ?_)
    cases r with
    | error fault => rfl
    | ok out =>
      dsimp only
      cases hout : out.succeeded with
      | true => exact ih (o := o.add out) ho
      | false =>
        have hfailed : (o.failAt action m out).succeeded = false := hout
        exact (if_neg (Bool.eq_false_iff.mp hfailed)).symm

/-- Runs the command for more modules after what came of others: only if these succeeded, and with
their streams and changes in front. -/
def runAfter (executor : Executor σ) (command : Option (List String)) (action : Action)
    (modules : List String) : Except Fault Outcome → Act σ (Except Fault Outcome)
  | .error fault => return .error fault
  | .ok o => if o.succeeded then do
      let r ← run executor command action modules
      return r.map o.followedBy
    else return .ok o

/-- **One list after another** is the first list, and then the second one if the first succeeds. -/
theorem run_append (executor : Executor σ) (command : Option (List String)) (l l' : List String) :
    run executor command action (l ++ l') =
      run executor command action l >>= runAfter executor command action l' := by
  cases command with
  | none => rfl
  | some words =>
    rw [run_eq, run_eq]
    change (planFrom words action .nothing (named (l ++ l'))).act executor =
      (planFrom words action .nothing (named l)).act executor >>= _
    rw [named_append, planFrom_append words action rfl, Plan.act_bind]
    refine congrArg _ (funext fun r => ?_)
    cases r with
    | error fault => rfl
    | ok o =>
      unfold runAfter planAfter
      dsimp only
      cases ho : o.succeeded with
      | false => rfl
      | true =>
        rw [if_pos rfl, if_pos rfl, ← Outcome.followedBy_nothing ho, planFrom_followedBy,
          Plan.act_bind, Outcome.followedBy_nothing ho, run_eq]
        rfl

/-! ## Runs -/

theorem argv_request (words : List String) (action : Action) (m : String) :
    (request words action m).argv = words ++ [action.word, m] := by
  cases words <;> rfl

/-- The command lines of what is asked for up to the first failure. -/
theorem argv_of_upToFailure {words : List String} {action : Action} {ms : List String}
    {asked : List Asked} (h : UpToFailure (ms.map (request words action)) asked) :
    asked.map (fun a => a.request.argv) =
      (ms.take asked.length).map fun m => words ++ [action.word, m] := by
  have horder := List.prefix_iff_eq_take.mp h.order
  rw [List.length_map, ← List.map_take] at horder
  have hargv := congrArg (List.map Request.argv) horder
  rw [List.map_map, List.map_map] at hargv
  exact hargv.trans (List.map_congr_left fun m _ => argv_request words action m)

/-- **A run for a list of modules** asks for one command for each module that is not blank, in
order, up to the first that does not succeed; it comes to its end if there is no limit, and then it
tells of exactly these. An executor notes nothing else. One list after another is the first list,
and then the second one if the first succeeds. -/
theorem run_upToFailure (executor : Executor σ) (words : List String) (action : Action)
    (modules : List String) (w : World σ) :
    let asked := (plan (some words) action modules : Plan σ _).trace executor w
    let ended := (run executor (some words) action modules w).1
    UpToFailure ((named modules).map (request words action)) asked ∧
    asked.map (fun a => a.request.argv) =
      ((named modules).take asked.length).map (fun m => words ++ [action.word, m]) ∧
    (w.deadline = none → ended.isDone = true) ∧
    Told action (named modules) (asked.map Asked.answer) ended.result? ∧
    (∀ v : World (σ × List Request), v.Silent →
      (run executor.noting (some words) action modules v).2.host.2 = v.host.2 ++
        ((plan (some words) action modules : Plan (σ × List Request) _).trace executor.noting
          v).map Asked.request) ∧
    (∀ modules', run executor (some words) action (modules ++ modules') =
      run executor (some words) action modules >>=
        runAfter executor (some words) action modules') ∧
    run executor none action modules = Pure.pure (.ok .missing) := by
  intro asked ended
  have hupTo : UpToFailure ((named modules).map (request words action)) asked :=
    (carried_plan executor (some words) action modules w).1
  refine ⟨hupTo, argv_of_upToFailure hupTo, fun hw => ?_, ?_, fun v hv => ?_,
    fun modules' => run_append action executor (some words) modules modules', rfl⟩
  · obtain ⟨r, w', hr, -⟩ := ends_run executor (some words) action modules w hw
    change (run executor (some words) action modules w).1.isDone = true
    rw [hr]
    rfl
  · change Told action (named modules) (asked.map Asked.answer)
      (run executor (some words) action modules w).1.result?
    rw [run_eq]
    exact told_planFrom words action executor (named modules) w
  · have hasks : (plan (some words) action modules : Plan (σ × List Request) _).Asks
        fun a => a.purpose ≠ .trigger := asks_plan (fun _ _ _ _ _ => nofun) (some words) action
          modules
    rw [run_eq]
    exact ((World.Silent.along executor).act (hasks v) (hasks v).of_mem hv).2

/-- The modules of a list, one of which is blank and one of which cannot be loaded. -/
def brokenList : List String := ["gcc", " ", "mpi ", "gcc"]

/-- What comes of loading them. -/
def brokenOutcome : Outcome :=
  ⟨1, "export CC=gcc;", "unknown moduleAttempt to load environment module mpi failed",
    [.set "CC" "gcc"]⟩

/-- The second of three modules cannot be loaded, and the third is not tried. -/
theorem run_upToFailure_broken :
    let w : World Unit := World.start () ⟨0, 0⟩ false
    let v : World (Unit × List Request) := World.start ((), []) ⟨0, 0⟩ false
    let plan {τ : Type} : Plan τ (Except Fault Outcome) :=
      Modules.plan (some ["modulecmd"]) .load brokenList
    let asked := plan.trace moduleExecutor w
    w.deadline = none ∧ v.Silent ∧
    (run moduleExecutor (some ["modulecmd"]) .load brokenList w).1.result? =
      some (.ok brokenOutcome) ∧
    asked.map (fun a => a.request.argv) =
      [["modulecmd", "load", "gcc"], ["modulecmd", "load", "mpi"]] ∧
    Told .load (named brokenList) (asked.map Asked.answer) (some (.ok brokenOutcome)) ∧
    (run moduleExecutor.noting (some ["modulecmd"]) .load brokenList v).2.host.2 =
      v.host.2 ++ (plan.trace moduleExecutor.noting v).map Asked.request := by
  intro w v plan asked
  have hended : (run moduleExecutor (some ["modulecmd"]) .load brokenList w).1.result? =
      some (.ok brokenOutcome) := by decide +kernel
  have hsilent : v.Silent := List.forall_mem_nil _
  obtain ⟨-, -, -, htold, hnoted, -, -⟩ :=
    run_upToFailure moduleExecutor ["modulecmd"] .load brokenList w
  rw [hended] at htold
  exact ⟨rfl, hsilent, hended, by decide +kernel, htold, hnoted v hsilent⟩

end Qualification.Modules
