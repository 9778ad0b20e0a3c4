import Qualification.Plugin.HarasserUtility
import Qualification.Proofs.Activity
/-!
# The courses of calls

A call of the utility for harassers waits now and then, for a script or for a harasser, and what it
does between two waits it does at once. Its course lays this open: where it waits, with which
harassers in its hands, and what it does next.

* `Await`, `Course`, `Course.act`: courses, and the activities that they are;
* `Course.bind`, `Course.act_bind`: one course after another;
* `stopCourse`, `checkCourse`: the courses of two calls;
* `startPairs_done`: a call that starts harassers never waits;
* **`stop_eq`**, **`check_eq`**: the calls are the activities of these courses.
-/

namespace Qualification

variable {σ α β : Type}

namespace HarasserUtility

/-! ## Courses -/

/-- What a call waits for. -/
inductive Await where
  /-- A command. -/
  | script (request : Request)
  /-- A harasser; one that takes too long is aborted. -/
  | join (id : Nat) (limit : Option Nat)

/-- A wait as an activity; the answer is a status. -/
def Await.act (executor : Executor σ) : Await → Act σ Int
  | script request => do return scriptStatus (← Act.perform executor request)
  | join id none => Act.join id
  | join id (some ms) => Act.stopWithin id ms

/-- The course of a call. -/
inductive Course (σ α : Type) where
  | ended (a : α)
  /-- Changes the world at once. What follows may depend on how it was. -/
  | now (change : World σ → World σ) (next : World σ → Course σ α)
  /-- Waits with harassers in its hands, which are aborted if the call ends here. -/
  | await (hands : List Harasser) (on : Await) (next : Int → Course σ α)

namespace Course

/-- A course as an activity. -/
def act (executor : Executor σ) : Course σ α → Act σ α
  | ended a => Pure.pure a
  | now change next => fun w => (next w).act executor (change w)
  | await hands on next =>
    (on.act executor).orElseUndo (abortAll hands) >>= fun status => (next status).act executor

/-- One course after another. -/
def bind : Course σ α → (α → Course σ β) → Course σ β
  | ended a, f => f a
  | now change next, f => now change fun w => (next w).bind f
  | await hands on next, f => await hands on fun status => (next status).bind f

theorem act_bind (executor : Executor σ) (c : Course σ α) (f : α → Course σ β) :
    (c.bind f).act executor = c.act executor >>= fun a => (f a).act executor := by
  induction c with
  | ended a => rfl
  | now change next ih =>
    funext w
    change ((next w).bind f).act executor (change w) = _
    rw [ih]
    rfl
  | await hands on next ih =>
    have hnext : (fun status => ((next status).bind f).act executor) =
        fun status => (next status).act executor >>= fun a => (f a).act executor := funext ih
    rw [bind, act, act, hnext, bind_assoc]

end Course

/-! ## The courses of calls -/

/-- The course of a harasser after its script, with others in the hands too. -/
def afterScriptCourse (limit : Option Nat) (h : Harasser) (hs : List Harasser) (status : Int) :
    Course σ (Option String) :=
  if status = 0 then .await (h :: hs) (.join h.task limit) fun _ => .ended none
  else .now (·.abort h.task) fun _ => .ended (some
    s!"stop script '{h.stopScript}' for harasser {h.task} exited with status {status}")

/-- The course of stopping a harasser, with others in the hands too. -/
def stopOneCourse (limit : Option Nat) (h : Harasser) (hs : List Harasser) :
    Course σ (Option String) :=
  match Request.ofWords? (Text.words h.stopScript) with
  | none => afterScriptCourse limit h hs 0
  | some request => .now id fun w =>
    .await (h :: hs) (.script { request with env := w.env }) (afterScriptCourse limit h hs)

/-- The course of stopping harassers, in order. -/
def stopEachCourse (limit : Option Nat) : List Harasser → Course σ (List String)
  | [] => .ended []
  | h :: hs => (stopOneCourse limit h hs).bind fun failure =>
    (stopEachCourse limit hs).bind fun failures => .ended (failure.toList ++ failures)

/-- The course of stopping the crew. -/
def stopCourse (owner : Nat) (log : Log) (r : Resolved) : Course σ Log :=
  .now (setCrew · owner []) fun w =>
    (stopEachCourse (joinTimeout? r) (w.crew owner)).bind fun failures =>
      let log := { log with stdout := s!"Stopped {(w.crew owner).length} harasser(s)" }
      .ended (if failures.isEmpty then { log with status := 0 }
        else log.fail 1 (Text.joinWith "\n" failures))

/-- The course of waiting for harassers that are over, with living ones in the hands too. -/
def noticesCourse (alive : List Harasser) : List Harasser → Course σ (List String)
  | [] => .ended []
  | h :: hs => .await (h :: hs ++ alive) (.join h.task none) fun status =>
    (noticesCourse alive hs).bind fun more => .ended ((deathNotice? h status).toList ++ more)

/-- The course of a check after its notices: living harassers are put back, and all are stopped if
there was a death. -/
def afterNoticesCourse (owner : Nat) (log : Log) (r : Resolved) (alive : List Harasser)
    (dead : List String) : Course σ Log :=
  .now (fun w => setCrew w owner (w.crew owner ++ alive)) fun w =>
    if dead.isEmpty then
      .ended { log with
        stdout := s!"{(w.crew owner ++ alive).length} harasser(s) running", status := 0 }
    else (stopCourse owner log r).bind fun log =>
      .ended (log.fail 1 (Text.joinWith "\n" dead))

/-- The course of checking the crew. -/
def checkCourse (owner : Nat) (log : Log) (r : Resolved) : Course σ Log :=
  .now (setCrew · owner []) fun w =>
    let (alive, finished) := (w.crew owner).partition fun h => (w.phase h.task).isAlive
    (noticesCourse alive finished).bind (afterNoticesCourse owner log r alive)

/-! ## Calls that start harassers -/

variable (s : Services σ)

/-- The world with a harasser more in the crew. -/
def enlist (owner : Nat) (stopScript : String) (begin : σ → (Nat × Int) × σ) (w : World σ) :
    World σ :=
  setCrew (w.spawn begin).2 owner (w.crew owner ++ [⟨(w.spawn begin).1, stopScript⟩])

theorem startPairs_cons (owner : Nat) {trigger : String} {request : Request}
    (h : Request.ofWords? (Text.words trigger) = some request) (stopScript : String)
    (pairs : List (String × String)) (w : World σ) :
    ∃ request, startPairs owner s ((trigger, stopScript) :: pairs) w =
      (startPairs owner s pairs >>= fun ids => Pure.pure (w.tasks.length :: ids))
        (enlist owner stopScript (task s.executor request) w) := by
  rw [startPairs, h]
  exact ⟨{ request with env := w.env, cwd := s.scratchDir }, rfl⟩

/-- Starting harassers takes no time. -/
theorem startPairs_done (owner : Nat) (pairs : List (String × String)) (w : World σ) :
    ∃ ids w', startPairs owner s pairs w = (.done ids, w') := by
  induction pairs generalizing w with
  | nil => exact ⟨[], w, rfl⟩
  | cons pair pairs ih =>
    obtain ⟨trigger, stopScript⟩ := pair
    cases hrequest : Request.ofWords? (Text.words trigger) with
    | none =>
      rw [startPairs, hrequest]
      exact ih w
    | some request =>
      obtain ⟨request, hcons⟩ := startPairs_cons s owner hrequest stopScript pairs w
      obtain ⟨ids, w', hids⟩ := ih (enlist owner stopScript (task s.executor request) w)
      exact ⟨w.tasks.length :: ids, w', hcons.trans (Act.bind_of_done hids _)⟩

/-! ## Calls are activities of their courses -/

theorem joinOrAbort_eq (executor : Executor σ) (limit : Option Nat) (h : Harasser) :
    joinOrAbort limit h = (Await.join h.task limit).act executor >>= fun _ => Pure.pure () := by
  cases limit <;> rfl

def afterScript (limit : Option Nat) (h : Harasser) (status : Int) : Act σ (Option String) := do
  if status = 0 then
    joinOrAbort limit h
    return none
  else
    Act.modify (·.abort h.task)
    return some s!"stop script '{h.stopScript}' for harasser {h.task} exited with status {status}"

theorem afterScript_eq (limit : Option Nat) (h : Harasser) (hs : List Harasser) (status : Int) :
    (afterScript limit h status).orElseUndo (abortAll (h :: hs)) =
      (afterScriptCourse limit h hs status).act s.executor := by
  unfold afterScript afterScriptCourse
  split_ifs
  · rw [joinOrAbort_eq s.executor, bind_assoc, Act.orElseUndo_bind]
    rfl
  · rfl

theorem stopOne_eq (limit : Option Nat) (h : Harasser) (hs : List Harasser) :
    (stopOne s limit h).orElseUndo (abortAll (h :: hs)) =
      (stopOneCourse limit h hs).act s.executor := by
  have hstop : stopOne s limit h = runStopScript s h >>= afterScript limit h := rfl
  rw [hstop]
  unfold runStopScript stopOneCourse
  cases Request.ofWords? (Text.words h.stopScript) with
  | none => exact afterScript_eq s limit h hs 0
  | some request =>
    have hscript : ∀ request : Request,
        ((Await.script request).act s.executor >>= afterScript limit h).orElseUndo
          (abortAll (h :: hs)) = (Course.await (h :: hs) (.script request)
            (afterScriptCourse limit h hs)).act s.executor := by
      intro request
      rw [Act.orElseUndo_bind, Course.act]
      exact congrArg _ (funext fun status => afterScript_eq s limit h hs status)
    funext w
    exact congrFun (hscript { request with env := w.env }) w

theorem stopEach_eq (limit : Option Nat) (hs : List Harasser) :
    stopEach s limit hs = (stopEachCourse limit hs).act s.executor := by
  induction hs with
  | nil => rfl
  | cons h hs ih =>
    rw [stopEach, stopEachCourse, stopOne_eq, ih, Course.act_bind]
    simp only [Course.act_bind]
    rfl

/-- **Stopping the crew** is the activity of its course. -/
theorem stop_eq (owner : Nat) (log : Log) (r : Resolved) :
    stop owner s log r = (stopCourse owner log r).act s.executor := by
  funext w
  change (stopEach s (joinTimeout? r) (w.crew owner) >>= fun failures => _)
    (setCrew w owner []) = ((stopEachCourse (joinTimeout? r) (w.crew owner)).bind _).act s.executor
      (setCrew w owner [])
  rw [stopEach_eq, Course.act_bind]
  refine congrFun (congrArg _ (funext fun failures => ?_)) (setCrew w owner [])
  cases failures.isEmpty <;> rfl

theorem overStatus?_of_over {phase : Phase} (h : phase.isAlive = false) :
    ∃ status, Act.overStatus? phase = some status := by
  cases phase with
  | queued => cases h
  | running due status => cases h
  | ended status => exact ⟨status, rfl⟩
  | aborted => exact ⟨faultStatus, rfl⟩

theorem join_of_over {w : World σ} {id : Nat} {status : Int}
    (h : Act.overStatus? (w.phase id) = some status) : Act.join id w = (.done status, w) := by
  unfold Act.join
  rw [h]

/-- The status that a harasser ended with; one that was aborted has the status of a fault. -/
def finalStatus (w : World σ) (h : Harasser) : Int :=
  (Act.overStatus? (w.phase h.task)).getD faultStatus

/-- What a death notice says. -/
def notice (w : World σ) (h : Harasser) : String :=
  s!"harasser {h.task} exited with status {finalStatus w h}"

/-- Waiting for harassers that are over takes no time, and tells of each that did not end with
status 0. -/
theorem deathNotices_done {finished : List Harasser} {w : World σ}
    (hover : ∀ h ∈ finished, (w.phase h.task).isAlive = false) :
    deathNotices finished w =
      (.done ((finished.filter fun h => finalStatus w h != 0).map (notice w)), w) := by
  induction finished with
  | nil => rfl
  | cons h finished ih =>
    obtain ⟨hhead, hrest⟩ := List.forall_mem_cons.mp hover
    obtain ⟨status, hstatus⟩ := overStatus?_of_over hhead
    have hfinal : finalStatus w h = status := by rw [finalStatus, hstatus]; rfl
    rw [deathNotices, Act.bind_of_done (join_of_over hstatus), Act.bind_of_done (ih hrest),
      List.filter_cons, hfinal]
    by_cases hzero : status = 0
    · simp [deathNotice?, hzero]
      rfl
    · simp [deathNotice?, hzero, notice, hfinal]
      rfl

/-- The course of waiting for harassers that are over is what is done. -/
theorem deathNotices_eq (alive : List Harasser) {finished : List Harasser} {w : World σ}
    (hover : ∀ h ∈ finished, (w.phase h.task).isAlive = false) :
    deathNotices finished w = (noticesCourse alive finished).act s.executor w := by
  induction finished with
  | nil => rfl
  | cons h finished ih =>
    obtain ⟨hhead, hrest⟩ := List.forall_mem_cons.mp hover
    obtain ⟨status, hstatus⟩ := overStatus?_of_over hhead
    have hjoin : Act.join h.task w = (.done status, w) := join_of_over hstatus
    have hdead := deathNotices_done hrest
    have hact := (ih hrest).symm.trans hdead
    -- The harassers in the hands do not matter, for nobody is waited for.
    change _ = ((Act.join h.task).orElseUndo (abortAll (h :: finished ++ alive)) >>= fun status =>
      ((noticesCourse alive finished).bind fun more =>
        Course.ended ((deathNotice? h status).toList ++ more)).act s.executor) w
    rw [deathNotices, Act.bind_of_done hjoin, Act.bind_of_done hdead,
      Act.bind_of_done (Act.orElseUndo_of_done hjoin _), Course.act_bind, Act.bind_of_done hact]
    rfl

def afterNotices (owner : Nat) (log : Log) (r : Resolved) (alive : List Harasser)
    (dead : List String) : Act σ Log := do
  addCrew owner alive
  if dead.isEmpty then
    let running := ((← Act.get).crew owner).length
    return { log with stdout := s!"{running} harasser(s) running", status := 0 }
  else
    let log ← stop owner s log r
    return log.fail 1 (Text.joinWith "\n" dead)

theorem afterNotices_eq (owner : Nat) (log : Log) (r : Resolved) (alive : List Harasser)
    (dead : List String) : afterNotices s owner log r alive dead =
      (afterNoticesCourse owner log r alive dead).act s.executor := by
  funext w
  unfold afterNotices afterNoticesCourse
  cases dead.isEmpty with
  | true =>
    have hcrew : (setCrew w owner (w.crew owner ++ alive)).crew owner = w.crew owner ++ alive :=
      if_pos rfl
    change (fun crew : List Harasser => (Ending.done { log with
        stdout := s!"{crew.length} harasser(s) running", status := 0 },
      setCrew w owner (w.crew owner ++ alive)))
        ((setCrew w owner (w.crew owner ++ alive)).crew owner) = _
    rw [hcrew]
    rfl
  | false =>
    change (stop owner s log r >>= fun log => Pure.pure (log.fail 1 (Text.joinWith "\n" dead)))
      (setCrew w owner (w.crew owner ++ alive)) = ((stopCourse owner log r).bind fun log =>
        Course.ended (log.fail 1 (Text.joinWith "\n" dead))).act s.executor
          (setCrew w owner (w.crew owner ++ alive))
    rw [Course.act_bind, stop_eq]
    rfl

/-- A check with the crew parted into the living and the others. -/
theorem check_of_partition {owner : Nat} {w : World σ} {alive finished : List Harasser}
    (hparts : (w.crew owner).partition (fun h => (w.phase h.task).isAlive) = (alive, finished))
    (log : Log) (r : Resolved) : check owner s log r w =
      (deathNotices finished >>= afterNotices s owner log r alive) (setCrew w owner []) := by
  change (match (w.crew owner).partition (fun h : Harasser => (w.phase h.task).isAlive) with
    | (alive, finished) => deathNotices finished >>= afterNotices s owner log r alive)
      (setCrew w owner []) = _
  rw [hparts]

theorem over_of_partition {w : World σ} {crew alive finished : List Harasser}
    (hparts : crew.partition (fun h => (w.phase h.task).isAlive) = (alive, finished)) :
    ∀ h ∈ finished, (w.phase h.task).isAlive = false := by
  intro h hh
  rw [List.partition_eq_filter_filter, Prod.mk.injEq] at hparts
  rw [← hparts.2] at hh
  have hphase := (List.mem_filter.mp hh).2
  rw [Function.comp_apply, Bool.not_eq_true'] at hphase
  exact hphase

/-- **Checking the crew** is the activity of its course. -/
theorem check_eq (owner : Nat) (log : Log) (r : Resolved) :
    check owner s log r = (checkCourse owner log r).act s.executor := by
  funext w
  obtain ⟨alive, finished, hparts⟩ : ∃ alive finished,
      (w.crew owner).partition (fun h => (w.phase h.task).isAlive) = (alive, finished) :=
    ⟨_, _, rfl⟩
  have hdead := deathNotices_done (w := setCrew w owner []) (over_of_partition hparts)
  have heq := deathNotices_eq s (w := setCrew w owner []) alive (over_of_partition hparts)
  have hcourse : (checkCourse owner log r).act s.executor w =
      ((noticesCourse alive finished).bind (afterNoticesCourse owner log r alive)).act s.executor
        (setCrew w owner []) := by
    change (match (w.crew owner).partition (fun h : Harasser => (w.phase h.task).isAlive) with
      | (alive, finished) => (noticesCourse alive finished).bind
          (afterNoticesCourse owner log r alive)).act s.executor (setCrew w owner []) = _
    rw [hparts]
  rw [check_of_partition s hparts, hcourse, Course.act_bind, Act.bind_of_done hdead,
    Act.bind_of_done (heq ▸ hdead), afterNotices_eq]

end HarasserUtility

end Qualification
