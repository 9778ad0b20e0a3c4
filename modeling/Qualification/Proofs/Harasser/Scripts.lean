import Mathlib.Data.List.Nodup
import Qualification.Proofs.Harasser.Asked
import Qualification.Proofs.Options
/-!
# Stop scripts

Calls of the utility come one after the other, each with its own executor, and between them tasks
end as they like. Once a call has stopped the crew, the stop scripts of all harassers that were
launched have been run, once each, but for those of the harassers that a check found over: these are
never run.

* `Call`, `Call.Ends`, `Call.recruits`, `Call.findings`: calls, whom they launch and whom they find;
* `Account`, `Turn`, `History`: what was launched and found by any calls;
* `Account.Sound`, `Sound.turn`, `sound_history`: a harasser is in the crew, was found, or was
  stopped by its script;
* **`scripts_of_history`**: the scripts that have been run.
-/

namespace Qualification.HarasserUtility

variable {σ : Type} {owner : Nat}

/-! ## Calls -/

/-- What the utility does for an action. -/
def Action.act (owner : Nat) (s : Services σ) (log : Log) (r : Resolved) : Action → Act σ Log
  | start => HarasserUtility.start owner s log r
  | check => HarasserUtility.check owner s log r
  | stop => HarasserUtility.stop owner s log r

/-- A call of the utility. -/
structure Call (σ : Type) where
  executor : Executor σ
  services : Services (σ × List Request)
  log : Log
  options : Resolved

namespace Call

def action? (c : Call σ) : Option Action :=
  HarasserUtility.action? (Text.trim ((c.options.get? "action").getD "start"))

/-- The services of the call. Stop scripts are noted, and trigger scripts are not. -/
def watched (c : Call σ) : Services (σ × List Request) :=
  { c.services with
    executor := if c.action? = some .start then c.executor.onFirst else c.executor.noting }

/-- Whether the call comes to its end, and the world that is there then. -/
def Ends (owner : Nat) (c : Call σ) (w w' : World (σ × List Request)) : Prop :=
  ∃ log, execute owner c.watched c.log c.options w = (.done (log, .ok ()), w')

/-- The world after the call. -/
def world (owner : Nat) (c : Call σ) (w : World (σ × List Request)) : World (σ × List Request) :=
  (execute owner c.watched c.log c.options w).2

/-- The harassers that the call launches. -/
def recruits (c : Call σ) (w : World (σ × List Request)) : List Harasser :=
  if c.action? = some .start then
    HarasserUtility.recruits w.tasks.length
      ((c.options.list "trigger_scripts").zip (c.options.list "stop_scripts"))
  else []

/-- The harassers of the crew that the call finds over, if it is to check that. -/
def findings (owner : Nat) (c : Call σ) (w : World (σ × List Request)) : List Harasser :=
  if c.action? = some .check then
    (w.crew owner).filter fun h => !(w.phase h.task).isAlive
  else []

section Action

variable {c : Call σ}

theorem executor_of_start (h : c.action? = some .start) :
    c.watched.executor = c.executor.onFirst := by
  simp only [watched, h, if_true]

theorem executor_of_ne (h : c.action? ≠ some .start) : c.watched.executor = c.executor.noting := by
  simp only [watched, h, if_false]

end Action

/-- What the utility does, by the word of its `action` option. -/
theorem execute_eq (owner : Nat) (c : Call σ) :
    ∃ fault, execute owner c.watched c.log c.options = match c.action? with
      | some action =>
        action.act owner c.watched c.log c.options >>= fun log => Pure.pure (log, .ok ())
      | none => Pure.pure (c.log, .error fault) := by
  obtain ⟨word, hword⟩ : ∃ word, word = Text.trim ((c.options.get? "action").getD "start") :=
    ⟨_, rfl⟩
  unfold execute action?
  simp only [← hword]
  cases HarasserUtility.action? word with
  | none => exact ⟨_, rfl⟩
  | some action => cases action <;> exact ⟨.ofText "", rfl⟩

/-- A call that comes to its end has done what its action says. -/
theorem Ends.exists_action {c : Call σ} {w w' : World (σ × List Request)} (h : c.Ends owner w w') :
    ∃ action log, c.action? = some action ∧
      action.act owner c.watched c.log c.options w = (.done log, w') := by
  obtain ⟨log, h⟩ := h
  obtain ⟨fault, hexecute⟩ := c.execute_eq owner
  rw [hexecute] at h
  cases haction : c.action? with
  | none =>
    rw [haction] at h
    cases h
  | some action =>
    rw [haction] at h
    obtain ⟨log', w₁, hact, hpure⟩ := Act.exists_of_bind h
    cases hpure
    exact ⟨action, log, rfl, hact⟩

theorem worded_of_recruits {c : Call σ} {w : World (σ × List Request)} {h : Harasser}
    (hh : h ∈ c.recruits w) : h.stopWords ≠ [] := by
  unfold recruits at hh
  split_ifs at hh
  · obtain ⟨e, he, rfl⟩ := List.mem_map.mp hh
    have hpair := (List.mem_filter.mp (List.fst_mem_of_mem_zipIdx he)).1
    exact Resolved.words_ne_nil_of_mem_list (List.of_mem_zip hpair).2
  · cases hh

end Call

/-! ## Histories -/

/-- A world with the stop scripts that were asked for, and who was launched so far, and who was
found over by a check. -/
structure Account (σ : Type) where
  world : World (σ × List Request)
  launched : List Harasser
  found : List Harasser

namespace Account

/-- The account after a call. -/
def after (owner : Nat) (a : Account σ) (c : Call σ) (w : World (σ × List Request)) : Account σ :=
  ⟨w, a.launched ++ c.recruits a.world, a.found ++ c.findings owner a.world⟩

/-- The account after a call that is carried out. -/
def call (owner : Nat) (a : Account σ) (c : Call σ) : Account σ :=
  a.after owner c (c.world owner a.world)

/-- The stop scripts that have been run. -/
def scripts (a : Account σ) : List (List String) := a.world.host.2.map Request.argv

end Account

/-- What happens next: a call that comes to its end, or anything else that leaves the crew alone:
time passes, tasks end with any status, and others are started. -/
inductive Turn (owner : Nat) : Account σ → Account σ → Prop
  | call {a : Account σ} {c : Call σ} {w : World (σ × List Request)}
      (h : c.Ends owner a.world w) : Turn owner a (a.after owner c w)
  | elsewhere {a : Account σ} {w : World (σ × List Request)}
      (h : Passage owner a.world w (a.world.crew owner) []) : Turn owner a { a with world := w }

/-- Whether an account is that of calls one after the other. -/
def History (owner : Nat) : Account σ → Account σ → Prop := Relation.ReflTransGen (Turn owner)

/-- Whether nothing was launched yet. -/
structure Fresh (owner : Nat) (w : World (σ × List Request)) : Prop where
  numbered : w.Numbered
  crew : w.crew owner = []
  silent : w.Silent
  notes : w.host.2 = []

/-- Whether each harasser that was launched is in the crew, was found over, or has been stopped by
its script. -/
structure Account.Sound (owner : Nat) (a : Account σ) : Prop where
  numbered : a.world.Numbered
  silent : a.world.Silent
  nodup : (a.launched.map Harasser.task).Nodup
  known : ∀ h ∈ a.launched, a.world.Knows h.task
  worded : ∀ h ∈ a.launched, h.stopWords ≠ []
  parts : ∃ stopped, a.launched.Perm (stopped ++ a.found ++ a.world.crew owner) ∧
    a.scripts = stopped.filterMap Harasser.command?

namespace Account.Sound

variable {a b : Account σ} {w : World (σ × List Request)} {crew : List Harasser}
  {rs : List Request}

theorem fresh (h : Fresh owner w) : Sound owner ⟨w, [], []⟩ where
  numbered := h.numbered
  silent := h.silent
  nodup := List.nodup_nil
  known := List.forall_mem_nil _
  worded := List.forall_mem_nil _
  parts := ⟨[], by rw [h.crew]; rfl, by rw [scripts, h.notes]; rfl⟩

/-- Harassers of the crew are stopped by their scripts, or found. -/
theorem passage (hsound : a.Sound owner) (h : Passage owner a.world w crew rs)
    (stopped found : List Harasser)
    (hcrew : (a.world.crew owner).Perm (stopped ++ found ++ crew))
    (hrs : rs.map Request.argv = stopped.filterMap Harasser.command?) :
    Sound owner ⟨w, a.launched, a.found ++ found⟩ where
  numbered := h.onward.numbered hsound.numbered
  silent := h.silent hsound.silent
  nodup := hsound.nodup
  known x hx := h.onward.knows _ (hsound.known x hx)
  worded := hsound.worded
  parts := by
    obtain ⟨before, hperm, hscripts⟩ := hsound.parts
    refine ⟨before ++ stopped, List.perm_iff_count.mpr fun x => ?_, ?_⟩
    · have hlaunched := hperm.count_eq x
      have hparts := hcrew.count_eq x
      simp only [List.count_append] at hlaunched hparts
      simp only [List.count_append, h.crew]
      omega
    · change w.host.2.map Request.argv = _
      rw [h.notes hsound.silent, List.map_append, hrs, List.filterMap_append, ← hscripts]
      rfl

/-- Harassers are launched into the crew. -/
theorem launch (hsound : a.Sound owner) {hs : List Harasser}
    (h : Passage owner a.world w (a.world.crew owner ++ hs) [])
    (hnodup : (hs.map Harasser.task).Nodup)
    (hnew : ∀ x ∈ hs, ¬ a.world.Knows x.task ∧ w.Knows x.task)
    (hworded : ∀ x ∈ hs, x.stopWords ≠ []) : Sound owner ⟨w, a.launched ++ hs, a.found⟩ where
  numbered := h.onward.numbered hsound.numbered
  silent := h.silent hsound.silent
  nodup := by
    rw [List.map_append, List.nodup_append]
    refine ⟨hsound.nodup, hnodup, fun id hid id' hid' heq => ?_⟩
    obtain ⟨x, hx, rfl⟩ := List.mem_map.mp hid
    obtain ⟨y, hy, rfl⟩ := List.mem_map.mp hid'
    exact (hnew y hy).1 (heq ▸ hsound.known x hx)
  known := List.forall_mem_append.mpr
    ⟨fun x hx => h.onward.knows _ (hsound.known x hx), fun x hx => (hnew x hx).2⟩
  worded := List.forall_mem_append.mpr ⟨hsound.worded, hworded⟩
  parts := by
    obtain ⟨stopped, hperm, hscripts⟩ := hsound.parts
    refine ⟨stopped, ?_, ?_⟩
    · rw [show w.crew owner = _ from h.crew, ← List.append_assoc]
      exact hperm.append_right hs
    · change w.host.2.map Request.argv = _
      rw [h.notes hsound.silent, List.append_nil, ← hscripts]
      rfl

/-- **A call** keeps the account sound. -/
theorem call (hsound : a.Sound owner) {c : Call σ} (h : c.Ends owner a.world w) :
    (a.after owner c w).Sound owner := by
  obtain ⟨action, log, haction, hact⟩ := h.exists_action
  unfold after Call.recruits Call.findings
  cases action with
  | start =>
    have honFirst := Call.executor_of_start haction
    obtain ⟨ids, w₁, hpairs, hpure⟩ := Act.exists_of_bind hact
    cases hpure
    obtain ⟨hpassage, hnodup, hnew⟩ :=
      passage_startPairs owner honFirst hsound.numbered hpairs
    rw [if_pos haction, if_neg (by rw [haction]; decide), List.append_nil]
    refine hsound.launch hpassage hnodup hnew fun x hx => ?_
    refine Call.worded_of_recruits (c := c) (w := a.world) ?_
    rw [Call.recruits, if_pos haction]
    exact hx
  | check =>
    have hnoting := Call.executor_of_ne (c := c) (by rw [haction]; decide)
    let isAlive (h : Harasser) : Bool := (a.world.phase h.task).isAlive
    have hperm : (a.world.crew owner).Perm ((a.world.crew owner).filter isAlive ++
        (a.world.crew owner).filter fun h => !isAlive h) :=
      (List.filter_append_perm isAlive (a.world.crew owner)).symm
    rw [if_neg (by rw [haction]; decide), if_pos haction, List.append_nil]
    rcases passage_check owner hnoting hact with hpassage | ⟨rs, hpassage, hrs⟩
    · exact hsound.passage hpassage [] _ (hperm.trans List.perm_append_comm) rfl
    · refine hsound.passage hpassage _ _ ?_ hrs
      rw [List.append_nil]
      exact hperm
  | stop =>
    have hnoting := Call.executor_of_ne (c := c) (by rw [haction]; decide)
    obtain ⟨rs, hpassage, hrs⟩ := passage_stop owner hnoting hact
    rw [if_neg (by rw [haction]; decide), if_neg (by rw [haction]; decide), List.append_nil]
    refine hsound.passage hpassage _ _ ?_ hrs
    rw [List.append_nil, List.append_nil]

/-- **One turn** keeps the account sound. -/
theorem turn (hsound : a.Sound owner) (h : Turn owner a b) : b.Sound owner := by
  cases h with
  | call hends => exact hsound.call hends
  | elsewhere hpassage =>
    have hsame := hsound.passage hpassage [] [] (List.Perm.refl _) rfl
    rwa [List.append_nil] at hsame

end Account.Sound

/-- **Any calls** keep the account sound. -/
theorem sound_history {a b : Account σ} (ha : a.Sound owner) (h : History owner a b) :
    b.Sound owner := by
  induction h with
  | refl => exact ha
  | tail _ hturn hb => exact hb.turn hturn

/-! ## The scripts that have been run -/

theorem command?_of_worded {h : Harasser} (hworded : h.stopWords ≠ []) :
    h.command? = some h.stopWords := by
  unfold Harasser.command?
  cases hwords : h.stopWords with
  | nil => exact absurd hwords hworded
  | cons program args => rfl

/-- Of harassers with different scripts, a script counts once. -/
theorem count_stopWords {hs : List Harasser} (hnodup : hs.Nodup) {h : Harasser}
    (hapart : ∀ x ∈ hs, x.stopWords = h.stopWords → x = h) :
    (hs.map Harasser.stopWords).count h.stopWords = if h ∈ hs then 1 else 0 := by
  have hsame : ∀ x ∈ hs, (x.stopWords == h.stopWords) = (x == h) := by
    intro x hx
    rw [Bool.eq_iff_iff, beq_iff_eq, beq_iff_eq]
    exact ⟨hapart x hx, congrArg _⟩
  rw [List.count, List.countP_map, ← hnodup.count, List.count]
  exact List.countP_congr fun x hx => by rw [Function.comp_apply, hsame x hx]

/-- Once the crew is stopped, each harasser was found over or its script has been run. -/
theorem Account.Sound.perm_scripts {a : Account σ} (hsound : a.Sound owner)
    (hcrew : a.world.crew owner = []) :
    ∃ stopped : List Harasser, a.launched.Perm (stopped ++ a.found) ∧
      a.scripts = stopped.map Harasser.stopWords := by
  obtain ⟨stopped, hperm, hscripts⟩ := hsound.parts
  rw [hcrew, List.append_nil] at hperm
  refine ⟨stopped, hperm, hscripts.trans ?_⟩
  have hcommand : ∀ h ∈ stopped, h.command? = some h.stopWords := fun h hh =>
    command?_of_worded (hsound.worded h (hperm.mem_iff.mpr (List.mem_append_left _ hh)))
  rw [List.filterMap_congr hcommand]
  exact congrFun List.filterMap_eq_map _

theorem crew_of_stop {w w' : World (σ × List Request)} {c : Call σ}
    (hstop : c.action? = some .stop) (h : c.Ends owner w w') : w'.crew owner = [] := by
  obtain ⟨action, log, haction, hact⟩ := h.exists_action
  cases hstop.symm.trans haction
  have hnoting := Call.executor_of_ne (c := c) (by rw [hstop]; decide)
  obtain ⟨rs, hpassage, -⟩ := passage_stop owner hnoting hact
  exact hpassage.crew

/-- **The stop scripts that have been run** once a call has stopped the crew, after any calls: those
of all harassers that were launched, once each, but for the harassers that a check found over, of
which no script is run. So each script has been run once exactly if no check found anyone over. -/
theorem scripts_of_history {w w' : World (σ × List Request)} (hfresh : Fresh owner w)
    {a : Account σ} (h : History owner ⟨w, [], []⟩ a) {c : Call σ} (hstop : c.action? = some .stop)
    (hends : c.Ends owner a.world w') :
    let scripts := w'.host.2.map Request.argv
    w'.crew owner = [] ∧ (a.launched.map Harasser.task).Nodup ∧ a.found ⊆ a.launched ∧
      (scripts ++ a.found.map Harasser.stopWords).Perm (a.launched.map Harasser.stopWords) ∧
      (scripts.Perm (a.launched.map Harasser.stopWords) ↔ a.found = []) ∧
      ∀ x ∈ a.launched, (∀ y ∈ a.launched, y.stopWords = x.stopWords → y = x) →
        scripts.count x.stopWords = if x ∈ a.found then 0 else 1 := by
  intro scripts
  have hafter : a.after owner c w' = { a with world := w' } := by
    simp [Account.after, Call.recruits, Call.findings, hstop]
  have hsound : Account.Sound owner { a with world := w' } :=
    hafter ▸ (sound_history (.fresh hfresh) h).call hends
  have hcrew : w'.crew owner = [] := crew_of_stop hstop hends
  obtain ⟨stopped, hperm, hscripts⟩ := hsound.perm_scripts hcrew
  have hlaunched : a.launched.Nodup := List.Nodup.of_map _ hsound.nodup
  have hsubset : a.found ⊆ a.launched := fun x hx =>
    hperm.mem_iff.mpr (List.mem_append_right stopped hx)
  have hall : (scripts ++ a.found.map Harasser.stopWords).Perm
      (a.launched.map Harasser.stopWords) := by
    rw [show scripts = _ from hscripts, ← List.map_append]
    exact (hperm.map _).symm
  refine ⟨hcrew, hsound.nodup, hsubset, hall, ⟨fun honce => ?_, fun hnone => ?_⟩, ?_⟩
  · have hlength := hall.length_eq
    rw [List.length_append, honce.length_eq, Nat.add_eq_left] at hlength
    exact List.map_eq_nil_iff.mp (List.length_eq_zero_iff.mp hlength)
  · rwa [hnone, List.map_nil, List.append_nil] at hall
  · intro x hx hapart
    have hfound : a.found.Nodup := List.Nodup.of_append_right (hperm.nodup_iff.mp hlaunched)
    have hcount := hall.count_eq x.stopWords
    rw [List.count_append, count_stopWords hlaunched hapart, if_pos hx,
      count_stopWords hfound fun y hy => hapart y (hsubset hy)] at hcount
    split_ifs at hcount ⊢ <;> omega

/-! ## Scripts that are never run -/

/-- A task that ends asks for nothing. -/
theorem passage_finish (w : World (σ × List Request)) (id : Nat) (status : Int) :
    Passage owner w (w.finish id status) (w.crew owner) [] := by
  refine .of_map (f := fun t => if t.id == id && t.phase.isAlive then
    { t with phase := .ended status } else t) (fun t => ?_) (fun t => ?_) rfl rfl rfl
  · split_ifs
    · exact ⟨rfl, fun _ => rfl⟩
    · exact .refl t
  · split_ifs <;> rfl

/-- Whether a call came to its end. -/
def isOk : Ending (Log × Except Fault Unit) → Bool
  | .done (_, .ok ()) => true
  | _ => false

theorem Call.ends_world (c : Call σ) {w : World (σ × List Request)}
    (h : isOk (execute owner c.watched c.log c.options w).1 = true) :
    c.Ends owner w (c.world owner w) := by
  unfold Ends world
  generalize execute owner c.watched c.log c.options w = out at h ⊢
  obtain ⟨ending, w'⟩ := out
  change isOk ending = true at h
  unfold isOk at h
  split at h
  · exact ⟨_, rfl⟩
  · cases h

theorem Turn.of_isOk {a : Account σ} (c : Call σ)
    (h : isOk (execute owner c.watched c.log c.options a.world).1 = true) :
    Turn owner a (a.call owner c) := .call (c.ends_world h)

/-- A call for three harassers, where every command takes a minute and succeeds. -/
def threeHarassers (action : String) : Call Unit where
  executor := fun _ host => (⟨60000, .ok ⟨0, "", "", false⟩⟩, host)
  services := ⟨fun _ _ _ => Act.panicWith none, fun _ host => (⟨0, .ok default⟩, host), none, none⟩
  log := Log.new "" ""
  options := ⟨Dict.ofList [("action", action), ("trigger_scripts", "load, heat, flood"),
    ("stop_scripts", "unload, cool, drain")], Dict.empty⟩

/-- A check finds that the first harasser ended with status 0. Another one finds that the second one
died, and stops the third one. -/
def twoFound : Account Unit :=
  let a₀ : Account Unit := ⟨World.start ((), []) ⟨0, 0⟩ false, [], []⟩
  let a₁ := a₀.call 0 (threeHarassers "start")
  let a₂ := { a₁ with world := a₁.world.finish 0 0 }.call 0 (threeHarassers "check")
  { a₂ with world := a₂.world.finish 1 3 }.call 0 (threeHarassers "check")

theorem fresh_start (owner : Nat) (host : σ) (epoch : Instant) (wallMoves : Bool) :
    Fresh owner (World.start (host, []) epoch wallMoves) :=
  ⟨rfl, rfl, List.forall_mem_nil _, rfl⟩

theorem history_twoFound : History 0 ⟨World.start ((), []) ⟨0, 0⟩ false, [], []⟩ twoFound := by
  have h₁ : History 0 ⟨World.start ((), []) ⟨0, 0⟩ false, [], []⟩ _ :=
    .single (.of_isOk (threeHarassers "start") (by decide +kernel))
  have h₂ := h₁.tail (.elsewhere (passage_finish _ 0 0))
  have h₃ := h₂.tail (.of_isOk (threeHarassers "check") (by decide +kernel))
  have h₄ := h₃.tail (.elsewhere (passage_finish _ 1 3))
  exact h₄.tail (.of_isOk (threeHarassers "check") (by decide +kernel))

/-- The world after a call that then stops the crew. -/
def twoFoundStopped : World (Unit × List Request) :=
  (threeHarassers "stop").world 0 twoFound.world

theorem ends_twoFoundStopped :
    (threeHarassers "stop").Ends 0 twoFound.world twoFoundStopped :=
  (threeHarassers "stop").ends_world (by decide +kernel)

/-- Two of the three scripts are missing. -/
theorem scripts_of_history_twoFound :
    let scripts := twoFoundStopped.host.2.map Request.argv
    Fresh 0 (World.start ((), []) ⟨0, 0⟩ false : World (Unit × List Request)) ∧
    History 0 ⟨World.start ((), []) ⟨0, 0⟩ false, [], []⟩ twoFound ∧
    (threeHarassers "stop").action? = some .stop ∧
    (threeHarassers "stop").Ends 0 twoFound.world twoFoundStopped ∧
    twoFound.found = [⟨0, "unload"⟩, ⟨1, "cool"⟩] ∧ twoFoundStopped.crew 0 = [] ∧
    (scripts ++ twoFound.found.map Harasser.stopWords).Perm
      (twoFound.launched.map Harasser.stopWords) ∧
    ¬ scripts.Perm (twoFound.launched.map Harasser.stopWords) := by
  intro scripts
  have hfresh : Fresh 0 (World.start ((), []) ⟨0, 0⟩ false : World (Unit × List Request)) :=
    fresh_start 0 () _ _
  have hstop : (threeHarassers "stop").action? = some .stop := by decide +kernel
  have hfound : twoFound.found = [⟨0, "unload"⟩, ⟨1, "cool"⟩] := by decide +kernel
  obtain ⟨hcrew, -, -, hall, honce, -⟩ :=
    scripts_of_history hfresh history_twoFound hstop ends_twoFoundStopped
  refine ⟨hfresh, history_twoFound, hstop, ends_twoFoundStopped, hfound, hcrew, hall, ?_⟩
  rw [honce, hfound]
  exact List.cons_ne_nil _ _

/-- **Stop scripts may never be run**: neither that of a harasser that ended with status 0 and was
found by a check, nor that of one that died and was found. -/
theorem not_each_script_run : ∃ (w w' : World (Unit × List Request)) (a : Account Unit)
    (c : Call Unit), Fresh 0 w ∧ History 0 ⟨w, [], []⟩ a ∧ c.action? = some .stop ∧
      c.Ends 0 a.world w' ∧
      a.launched = [⟨0, "unload"⟩, ⟨1, "cool"⟩, ⟨2, "drain"⟩] ∧
      a.launched.map (fun h => a.world.phase h.task) = [.ended 0, .ended 3, .ended 0] ∧
      w'.host.2.map Request.argv = [["drain"]] :=
  ⟨World.start ((), []) ⟨0, 0⟩ false, twoFoundStopped, twoFound, threeHarassers "stop",
    fresh_start 0 () _ _, history_twoFound, by decide +kernel, ends_twoFoundStopped,
    by decide +kernel, by decide +kernel, by decide +kernel⟩

end Qualification.HarasserUtility
