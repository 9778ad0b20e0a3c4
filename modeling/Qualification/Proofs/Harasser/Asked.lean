import Qualification.Proofs.Harasser.Alone
/-!
# What calls ask for

A call that stops harassers asks for their stop scripts, each one once and in order. A check asks
for those of the living harassers if another one died, and else for none.

* `Executor.noting`, `World.Silent`: an executor that notes requests, and tasks that make none;
* `Passage`: the crew that is left, and the requests that are noted;
* **`passage_stop`**, **`passage_check`**: what the calls leave and ask for;
* `recruits`, **`passage_startPairs`**: the harassers that are started.
-/

namespace Qualification

variable {σ : Type}

/-- An executor that also notes what it is asked for. -/
def Executor.noting (x : Executor σ) : Executor (σ × List Request) := fun request host =>
  let (response, first) := x request host.1
  (response, first, host.2 ++ [request])

/-- The program of a command and its arguments. -/
def Request.argv (r : Request) : List String := r.program :: r.args

/-- The words of a harasser's stop script. -/
def Harasser.stopWords (h : Harasser) : List String := Text.words h.stopScript

/-- The command of a harasser's stop script, which a blank one does not have. -/
def Harasser.command? (h : Harasser) : Option (List String) :=
  (Request.ofWords? h.stopWords).map Request.argv

/-! ## Tasks that ask for nothing -/

namespace World

/-- Whether no background task changes what is seen of the host. -/
def Quiet {γ : Type} (f : σ → γ) (w : World σ) : Prop :=
  ∀ t ∈ w.tasks, ∀ host, f (t.begin host).2 = f host

/-- Whether no background task makes a request that is noted. -/
def Silent (w : World (σ × List Request)) : Prop :=
  ∀ t ∈ w.tasks, ∀ host, (t.begin host).2.2 = host.2

theorem Quiet.of_begins {γ : Type} {f : σ → γ} {w w' : World σ} (hw : w.Quiet f)
    (h : w'.tasks.map Task.begin = w.tasks.map Task.begin) : w'.Quiet f := by
  intro t ht
  have hmem : t.begin ∈ w.tasks.map Task.begin := h ▸ List.mem_map_of_mem ht
  obtain ⟨t', ht', hbegin⟩ := List.mem_map.mp hmem
  rw [← hbegin]
  exact hw t' ht'

theorem Silent.of_begins {w w' : World (σ × List Request)} (hw : w.Silent)
    (h : w'.tasks.map Task.begin = w.tasks.map Task.begin) : w'.Silent :=
  Quiet.of_begins (f := Prod.snd) hw h

theorem begins_map {f : Task σ → Task σ} (hf : ∀ t, (f t).begin = t.begin) (ts : List (Task σ)) :
    (ts.map f).map Task.begin = ts.map Task.begin := by
  rw [List.map_map]
  exact List.map_congr_left fun t _ => hf t

theorem begin_wake (isDue : Task σ → Nat → Bool) (t : Task σ) : (wake isDue t).begin = t.begin := by
  unfold wake
  split
  · split_ifs <;> rfl
  · rfl

theorem begin_abortWhen (id : Nat) (t : Task σ) :
    (if t.id == id then abortTask t else t).begin = t.begin := by
  unfold abortTask
  split_ifs <;> rfl

/-- Tasks that first run stay what they are. -/
theorem begins_startQueued (now : Nat) (ts : List (Task σ)) (host : σ) :
    (startQueued now ts host).1.map Task.begin = ts.map Task.begin := by
  induction ts generalizing host with
  | nil => rfl
  | cons t ts ih =>
    unfold startQueued
    split
    · exact congrArg (t.begin :: ·) (ih (t.begin host).2)
    · exact congrArg (t.begin :: ·) (ih host)

theorem begins_settle (w : World σ) :
    w.settle.tasks.map Task.begin = w.tasks.map Task.begin :=
  (begins_startQueued _ _ _).trans (begins_map (begin_wake _) w.tasks)

/-- Quiet tasks change nothing that is seen when they first run. -/
theorem view_startQueued {γ : Type} {f : σ → γ} (now : Nat) {ts : List (Task σ)}
    (hts : ∀ t ∈ ts, ∀ host, f (t.begin host).2 = f host) (host : σ) :
    f (startQueued now ts host).2 = f host := by
  induction ts generalizing host with
  | nil => rfl
  | cons t ts ih =>
    obtain ⟨ht, hts⟩ := List.forall_mem_cons.mp hts
    unfold startQueued
    split
    · exact (ih hts (t.begin host).2).trans (ht host)
    · exact ih hts host

theorem settle_of_quiet {γ : Type} {f : σ → γ} {w : World σ} (hw : w.Quiet f) :
    w.settle.Quiet f ∧ f w.settle.host = f w.host := by
  have hwoken : ({ w with tasks := w.tasks.map (wake fun _ due => due ≤ w.now) }).Quiet f :=
    hw.of_begins (begins_map (begin_wake _) w.tasks)
  exact ⟨hw.of_begins (begins_settle w), view_startQueued w.now hwoken w.host⟩

theorem settle_of_silent {w : World (σ × List Request)} (hw : w.Silent) :
    w.settle.Silent ∧ w.settle.host.2 = w.host.2 :=
  settle_of_quiet (f := Prod.snd) hw

end World

namespace HarasserUtility

variable {owner : Nat} {w w₁ w' : World (σ × List Request)}

/-! ## Passages -/

/-- Whether a world comes after another one, with a crew and after requests that were noted. -/
structure Passage (owner : Nat) (w w' : World (σ × List Request)) (crew : List Harasser)
    (rs : List Request) : Prop where
  onward : w.Onward w'
  crew : w'.crew owner = crew
  silent : w.Silent → w'.Silent
  notes : w.Silent → w'.host.2 = w.host.2 ++ rs

namespace Passage

variable {crew crew' : List Harasser} {rs rs' : List Request}

theorem trans (h : Passage owner w w₁ crew rs) (h' : Passage owner w₁ w' crew' rs') :
    Passage owner w w' crew' (rs ++ rs') where
  onward := h.onward.trans h'.onward
  crew := h'.crew
  silent hw := h'.silent (h.silent hw)
  notes hw := by rw [h'.notes (h.silent hw), h.notes hw, List.append_assoc]

/-- A passage to a world with the same tasks. -/
theorem of_tasks (htasks : w'.tasks = w.tasks) (hhost : w'.host.2 = w.host.2 ++ rs) :
    Passage owner w w' (w'.crew owner) rs where
  onward := World.onward_of_tasks_eq htasks
  crew := rfl
  silent hw := hw.of_begins (congrArg _ htasks)
  notes _ := hhost

theorem refl (w : World (σ × List Request)) : Passage owner w w (w.crew owner) [] :=
  of_tasks rfl (List.append_nil _).symm

theorem setCrew (w : World (σ × List Request)) (crew : List Harasser) :
    Passage owner w (setCrew w owner crew) crew [] := by
  have hcrew : (HarasserUtility.setCrew w owner crew).crew owner = crew := if_pos rfl
  have h : Passage owner w (HarasserUtility.setCrew w owner crew) _ [] :=
    of_tasks rfl (List.append_nil _).symm
  rwa [hcrew] at h

theorem of_map {f : Task (σ × List Request) → Task (σ × List Request)}
    (hf : ∀ t, World.Ages t (f t)) (hbegin : ∀ t, (f t).begin = t.begin)
    (htasks : w'.tasks = w.tasks.map f) (hcrew : w'.crew = w.crew) (hhost : w'.host = w.host) :
    Passage owner w w' (w.crew owner) [] where
  onward := World.onward_map hf htasks
  crew := congrFun hcrew owner
  silent hw := hw.of_begins (by rw [htasks, World.begins_map hbegin])
  notes _ := by rw [hhost, List.append_nil]

end Passage

/-- Waiting for something leaves the crew as it is, and asks for nothing. -/
theorem steady_passage (owner : Nat) : World.Steady fun w w' : World (σ × List Request) =>
    Passage owner w w' (w.crew owner) [] where
  refl := Passage.refl
  trans h h' := by
    have htrans := h.trans h'
    rwa [h.crew, List.append_nil] at htrans
  settle w :=
    ⟨w.onward_settle, rfl, fun hw => (World.settle_of_silent hw).1,
      fun hw => (World.settle_of_silent hw).2.trans (List.append_nil _).symm⟩
  moveTo _ _ _ := .of_map (World.ages_wake _) (World.begin_wake _) rfl rfl rfl
  abort _ id := .of_map (World.ages_abortWhen id) (World.begin_abortWhen id) rfl rfl rfl

/-! ## Calls -/

section Stop

variable (owner : Nat) {x : Executor σ} {s : Services (σ × List Request)}
  (hnoting : s.executor = x.noting)

include hnoting

theorem passage_perform (request : Request) (w : World (σ × List Request)) :
    Passage owner w (Act.perform s.executor request w).2 (w.crew owner) [request] := by
  rw [hnoting]
  have hasked : Passage owner w { w with host := (x.noting request w.host).2 } (w.crew owner)
      [request] := .of_tasks rfl rfl
  exact hasked.trans ((steady_passage owner).bind ((steady_passage owner).wait _)
    (fun _ => Passage.refl) { w with host := (x.noting request w.host).2 })

/-- A stop script is asked for, if it is not blank, whatever comes of it. -/
theorem passage_runStopScript (h : Harasser) (w : World (σ × List Request)) :
    ∃ rs, Passage owner w (runStopScript s h w).2 (w.crew owner) rs ∧
      rs.map Request.argv = h.command?.toList := by
  unfold runStopScript Harasser.command? Harasser.stopWords
  cases Request.ofWords? (Text.words h.stopScript) with
  | none => exact ⟨[], .refl w, rfl⟩
  | some request =>
    refine ⟨[{ request with env := w.env }], ?_, rfl⟩
    change Passage owner w ((Act.perform s.executor { request with env := w.env } >>=
      fun result => Pure.pure (scriptStatus result)) w).2 _ _
    rw [Act.snd_bind_pure]
    exact passage_perform owner hnoting _ w

omit hnoting in
theorem passage_joinOrAbort (limit : Option Nat) (h : Harasser) (w : World (σ × List Request)) :
    Passage owner w (joinOrAbort limit h w).2 (w.crew owner) [] := by
  cases limit with
  | none =>
    exact (steady_passage owner).bind ((steady_passage owner).join h.task) (fun _ => .refl) w
  | some ms =>
    exact (steady_passage owner).bind ((steady_passage owner).stopWithin h.task ms)
      (fun _ => .refl) w

omit hnoting in
theorem passage_afterScript (limit : Option Nat) (h : Harasser) (status : Int)
    (w : World (σ × List Request)) :
    Passage owner w (afterScript limit h status w).2 (w.crew owner) [] := by
  unfold afterScript
  split_ifs
  · exact (steady_passage owner).bind (passage_joinOrAbort owner limit h) (fun _ => .refl) w
  · exact (steady_passage owner).abort w h.task

theorem passage_stopOne (limit : Option Nat) (h : Harasser) (w : World (σ × List Request)) :
    ∃ rs, Passage owner w (stopOne s limit h w).2 (w.crew owner) rs ∧
      rs.map Request.argv = h.command?.toList := by
  obtain ⟨rs, hscript, hrs⟩ := passage_runStopScript owner hnoting h w
  refine ⟨rs, ?_, hrs⟩
  change Passage owner w ((runStopScript s h >>= afterScript limit h) w).2 _ _
  rcases Act.bind_cases (runStopScript s h) (afterScript limit h) w with
    ⟨status, w₁, hdone, hbind⟩ | ⟨-, -, hbind⟩
  · rw [hdone] at hscript
    have hafter := hscript.trans (passage_afterScript owner limit h status w₁)
    rw [hbind]
    rwa [hscript.crew, List.append_nil] at hafter
  · rw [hbind]
    exact hscript

/-- **Stopping harassers** asks for their stop scripts, in order. -/
theorem passage_stopEach {limit : Option Nat} {hs : List Harasser} {failures : List String}
    (h : stopEach s limit hs w = (.done failures, w')) :
    ∃ rs, Passage owner w w' (w.crew owner) rs ∧
      rs.map Request.argv = hs.filterMap Harasser.command? := by
  induction hs generalizing w failures with
  | nil =>
    cases h
    exact ⟨[], .refl _, rfl⟩
  | cons h₁ hs ih =>
    obtain ⟨failure, w₁, hone, hrest⟩ := Act.exists_of_bind h
    obtain ⟨more, w₂, heach, hpure⟩ := Act.exists_of_bind hrest
    cases hpure
    obtain ⟨rs, hfirst, hrs⟩ := passage_stopOne owner hnoting limit h₁ w
    rw [Act.of_orElseUndo hone] at hfirst
    obtain ⟨rs', hothers, hrs'⟩ := ih heach
    have hpassage := hfirst.trans hothers
    rw [hfirst.crew] at hpassage
    refine ⟨rs ++ rs', hpassage, ?_⟩
    rw [List.map_append, hrs, hrs', List.filterMap_cons]
    cases h₁.command? <;> rfl

/-- **Stopping the crew** asks for the stop scripts of all of it. -/
theorem passage_stop {log log' : Log} {r : Resolved} (h : stop owner s log r w = (.done log', w')) :
    ∃ rs, Passage owner w w' [] rs ∧
      rs.map Request.argv = (w.crew owner).filterMap Harasser.command? := by
  obtain ⟨crew, w₁, htake, hrest⟩ := Act.exists_of_bind h
  cases htake
  obtain ⟨failures, w₂, heach, hpure⟩ := Act.exists_of_bind hrest
  obtain rfl : w₂ = w' := by
    split_ifs at hpure <;> exact congrArg Prod.snd hpure
  obtain ⟨rs, hpassage, hrs⟩ := passage_stopEach owner hnoting heach
  have htaken : Passage owner w (setCrew w owner []) [] [] := .setCrew w []
  refine ⟨rs, ?_, hrs⟩
  have htrans := htaken.trans hpassage
  rwa [htaken.crew] at htrans

/-- **Checking the crew** lets go of the harassers that are over without asking for anything; if one
of them died, it asks for the stop scripts of the others and lets go of these too. -/
theorem passage_check {log log' : Log} {r : Resolved}
    (h : check owner s log r w = (.done log', w')) :
    let alive := (w.crew owner).filter fun h => (w.phase h.task).isAlive
    Passage owner w w' alive [] ∨
      ∃ rs, Passage owner w w' [] rs ∧ rs.map Request.argv = alive.filterMap Harasser.command? := by
  intro alive
  obtain ⟨finished, hparts⟩ : ∃ finished,
      (w.crew owner).partition (fun h => (w.phase h.task).isAlive) = (alive, finished) :=
    ⟨_, List.partition_eq_filter_filter⟩
  obtain ⟨dead, hdead⟩ : ∃ dead, deathNotices finished (setCrew w owner []) =
      (.done dead, setCrew w owner []) := ⟨_, deathNotices_done (over_of_partition hparts)⟩
  have htaken : Passage owner w (setCrew w owner []) [] [] := .setCrew w []
  rw [check_of_partition s hparts, Act.bind_of_done hdead] at h
  obtain ⟨_, w₁, hadd, hrest⟩ := Act.exists_of_bind h
  have hback : Passage owner w w₁ alive [] := by
    cases hadd
    show Passage owner w
      (setCrew (setCrew w owner []) owner ((setCrew w owner []).crew owner ++ alive)) alive []
    rw [htaken.crew, List.nil_append]
    exact htaken.trans (.setCrew _ alive)
  split_ifs at hrest
  · cases hrest
    exact .inl hback
  · obtain ⟨log₁, w₂, hstop, hpure⟩ := Act.exists_of_bind hrest
    cases hpure
    obtain ⟨rs, hpassage, hrs⟩ := passage_stop owner hnoting hstop
    exact .inr ⟨rs, hback.trans hpassage, hback.crew ▸ hrs⟩

end Stop

section Start

/-- The harassers of pairs of scripts, the first of which gets a number; a pair with a blank trigger
has none. -/
def recruits (n : Nat) (pairs : List (String × String)) : List Harasser :=
  ((pairs.filter fun e => (Request.ofWords? (Text.words e.1)).isSome).zipIdx n).map
    fun e => ⟨e.2, e.1.2⟩

variable (owner : Nat) {x : Executor σ} {s : Services (σ × List Request)}
  (honFirst : s.executor = x.onFirst)

include honFirst

theorem passage_enlist (stopScript : String) (request : Request)
    (w : World (σ × List Request)) :
    Passage owner w (enlist owner stopScript (task s.executor request) w)
      (w.crew owner ++ [⟨w.tasks.length, stopScript⟩]) [] where
  onward := (w.onward_spawn _).trans (World.onward_of_tasks_eq rfl)
  crew := if_pos rfl
  silent hw := by
    refine List.forall_mem_append.mpr ⟨hw, List.forall_mem_singleton.mpr fun host => ?_⟩
    show (task s.executor request host).2.2 = host.2
    rw [honFirst]
    rfl
  notes _ := (List.append_nil _).symm

/-- **Starting harassers** asks for nothing that is noted, and their tasks are new ones. -/
theorem passage_startPairs {pairs : List (String × String)} {ids : List Nat} (hw : w.Numbered)
    (h : startPairs owner s pairs w = (.done ids, w')) :
    let hs := recruits w.tasks.length pairs
    Passage owner w w' (w.crew owner ++ hs) [] ∧ (hs.map Harasser.task).Nodup ∧
      ∀ h ∈ hs, ¬ w.Knows h.task ∧ w'.Knows h.task := by
  induction pairs generalizing w ids with
  | nil =>
    cases h
    refine ⟨?_, List.nodup_nil, List.forall_mem_nil _⟩
    show Passage owner _ _ (_ ++ []) []
    rw [List.append_nil]
    exact .refl _
  | cons pair pairs ih =>
    obtain ⟨trigger, stopScript⟩ := pair
    cases hrequest : Request.ofWords? (Text.words trigger) with
    | none =>
      have hsame : recruits w.tasks.length ((trigger, stopScript) :: pairs) =
          recruits w.tasks.length pairs := by simp [recruits, hrequest]
      rw [startPairs, hrequest] at h
      rw [hsame]
      exact ih hw h
    | some request =>
      obtain ⟨request', hcons⟩ := startPairs_cons s owner hrequest stopScript pairs w
      have hpassage := passage_enlist owner honFirst stopScript request' w
      obtain ⟨hfresh, hknown⟩ := World.knows_spawn hw (task s.executor request')
      have hlength : (enlist owner stopScript (task s.executor request') w).tasks.length =
          w.tasks.length + 1 := List.length_append
      rw [hcons] at h
      obtain ⟨ids', w₂, hrest, hpure⟩ := Act.exists_of_bind h
      cases hpure
      obtain ⟨hothers, hnodup, hnew⟩ := ih (hpassage.onward.numbered hw) hrest
      rw [hlength] at hothers hnodup hnew
      have hrecruits : recruits w.tasks.length ((trigger, stopScript) :: pairs) =
          ⟨w.tasks.length, stopScript⟩ :: recruits (w.tasks.length + 1) pairs := by
        simp [recruits, hrequest]
      rw [hrecruits]
      refine ⟨?_, List.nodup_cons.mpr ⟨fun hmem => ?_, hnodup⟩, List.forall_mem_cons.mpr
        ⟨⟨hfresh, hothers.onward.knows _ hknown⟩, fun h hh => ?_⟩⟩
      · have htrans := hpassage.trans hothers
        rwa [hpassage.crew, List.append_assoc] at htrans
      · -- The number of the first one is known by the time that the others are started.
        obtain ⟨h, hh, htask⟩ := List.mem_map.mp hmem
        refine (hnew h hh).1 ?_
        rw [htask]
        exact hknown
      · exact ⟨fun hknows => (hnew h hh).1 (hpassage.onward.knows _ hknows), (hnew h hh).2⟩

end Start

end HarasserUtility

end Qualification
