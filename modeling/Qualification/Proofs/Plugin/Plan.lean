import Qualification.Proofs.Harasser.Asked
/-!
# The plans of plugins

What a plugin does is laid open as a plan: the changes that it makes at once, the commands that it
asks for and waits for, and the tasks that it sets going or waits for. A plan knows nothing of what
answers it. Everything that is asked for on the way is recorded, with the environment at that
moment.

* `Purpose`, `Asked`: one command that was asked for;
* `Plan`, `Plan.act`, `Plan.trace`: plans, the activities that they are, and what these ask for;
* `Plan.bind`, `act_bind`, `trace_bind`: one plan after another;
* `Plan.Asks`, `asks_bind`: what is true of all that a plan asks for;
* `Plan.Along`, **`Along.act`**: what holds from one world to the next along every plan;
* `Course.plan`, `act_plan`: a course is a plan that asks for stop scripts.
-/

namespace Qualification

variable {σ α β : Type}

open HarasserUtility (Await Course abortAll enlist scriptStatus task)

/-! ## What is asked for -/

/-- What a command is for. -/
inductive Purpose where
  /-- Loading or unloading a module. -/
  | wrapper
  /-- The command of a command line. -/
  | command
  | snippet
  /-- A harasser that runs in the background. -/
  | trigger
  | stopScript
  deriving DecidableEq

/-- A command that was asked for. -/
structure Asked where
  purpose : Purpose
  /-- The environment when it was asked for. -/
  overlay : Environment
  request : Request
  /-- What came of it, if it was waited for to the end. -/
  answer : Option (Except Fault Output)

/-- The result of an activity that came to its end. -/
def Ending.result? : Ending α → Option α
  | done a => some a
  | _ => none

theorem Ending.result?_eq_none {x : Ending α} (h : x.isDone = false) : x.result? = none := by
  cases x with
  | done a => cases h
  | panicked payload => rfl
  | cut => rfl

/-- What is asked for after an activity by what goes on with it. -/
def Ending.thenAsked (x : Ending α × World σ) (next : α → World σ → List Asked) : List Asked :=
  match x with
  | (done a, w) => next a w
  | _ => []

/-! ## Plans -/

/-- What a plugin does. -/
inductive Plan (σ α : Type) where
  | ended (a : α)
  /-- Changes the world at once. What follows may depend on how it was. -/
  | now (change : World σ → World σ) (next : World σ → Plan σ α)
  /-- Asks for a command and waits for it; the harassers in its hands are aborted if it ends
  here. -/
  | ask (purpose : Purpose) (hands : List Harasser) (request : Request)
    (next : Except Fault Output → Plan σ α)
  /-- Sets a harasser going, and tells the number of its task. -/
  | launch (owner : Nat) (stopScript : String) (request : Request) (next : Nat → Plan σ α)
  /-- Waits for a harasser; one that takes too long is aborted. -/
  | join (hands : List Harasser) (id : Nat) (limit : Option Nat) (next : Int → Plan σ α)

namespace Plan

variable {p : Plan σ α} {f : α → Plan σ β}

/-- A plan as an activity. -/
def act (executor : Executor σ) : Plan σ α → Act σ α
  | ended a => Pure.pure a
  | now change next => fun w => (next w).act executor (change w)
  | ask _ hands request next =>
    (Act.perform executor request).orElseUndo (abortAll hands) >>= fun r => (next r).act executor
  | launch owner stopScript request next => fun w =>
    (next w.tasks.length).act executor (enlist owner stopScript (task executor request) w)
  | join hands id limit next =>
    ((Await.join id limit).act executor).orElseUndo (abortAll hands) >>= fun status =>
      (next status).act executor

/-- What a plan asks for, in order. -/
def trace (executor : Executor σ) : Plan σ α → World σ → List Asked
  | ended _, _ => []
  | now change next, w => (next w).trace executor (change w)
  | ask purpose hands request next, w =>
    let x := (Act.perform executor request).orElseUndo (abortAll hands) w
    ⟨purpose, w.env, request, x.1.result?⟩ :: Ending.thenAsked x fun r => (next r).trace executor
  | launch owner stopScript request next, w =>
    ⟨.trigger, w.env, request, none⟩ ::
      (next w.tasks.length).trace executor (enlist owner stopScript (task executor request) w)
  | join hands id limit next, w =>
    let x := ((Await.join id limit).act executor).orElseUndo (abortAll hands) w
    Ending.thenAsked x fun status => (next status).trace executor

theorem orElseUndo_abortAll_nil (x : Act σ α) : x.orElseUndo (abortAll []) = x := by
  funext w
  unfold Act.orElseUndo
  rcases x w with ⟨ending, w'⟩
  cases ending <;> rfl

/-- A command that is waited for with nothing in the hands. -/
theorem act_ask_nil (executor : Executor σ) (purpose : Purpose) (request : Request)
    (next : Except Fault Output → Plan σ α) : (ask purpose [] request next).act executor =
      Act.perform executor request >>= fun r => (next r).act executor := by
  rw [act, orElseUndo_abortAll_nil]

/-! ## One plan after another -/

def bind : Plan σ α → (α → Plan σ β) → Plan σ β
  | ended a, f => f a
  | now change next, f => now change fun w => (next w).bind f
  | ask purpose hands request next, f => ask purpose hands request fun r => (next r).bind f
  | launch owner stopScript request next, f =>
    launch owner stopScript request fun id => (next id).bind f
  | join hands id limit next, f => join hands id limit fun status => (next status).bind f

theorem act_bind (executor : Executor σ) (p : Plan σ α) (f : α → Plan σ β) :
    (p.bind f).act executor = p.act executor >>= fun a => (f a).act executor := by
  induction p with
  | ended a => rfl
  | now change next ih =>
    funext w
    change ((next w).bind f).act executor (change w) = _
    rw [ih]
    rfl
  | ask purpose hands request next ih =>
    have hnext : (fun r => ((next r).bind f).act executor) =
        fun r => (next r).act executor >>= fun a => (f a).act executor := funext ih
    rw [bind, act, act, hnext, bind_assoc]
  | launch owner stopScript request next ih =>
    funext w
    change ((next w.tasks.length).bind f).act executor _ = _
    rw [ih]
    rfl
  | join hands id limit next ih =>
    have hnext : (fun status => ((next status).bind f).act executor) =
        fun status => (next status).act executor >>= fun a => (f a).act executor := funext ih
    rw [bind, act, act, hnext, bind_assoc]

/-- What is asked for after a wait, and what is asked for after that. -/
theorem thenAsked_bind {γ : Type} (x : Act σ γ) (w : World σ) (next : γ → Act σ α)
    (asked : γ → World σ → List Asked) (more : α → World σ → List Asked) :
    Ending.thenAsked (x w) (fun a w' => asked a w' ++ Ending.thenAsked (next a w') more) =
      Ending.thenAsked (x w) asked ++ Ending.thenAsked ((x >>= next) w) more := by
  rcases Act.bind_cases x next w with ⟨a, w₁, ha, hbind⟩ | ⟨hx, hbind, -⟩
  · rw [hbind, ha]
    rfl
  · revert hx hbind
    rcases x w with ⟨ending, w₁⟩
    rcases (x >>= next) w with ⟨ending', w₂⟩
    cases ending <;> cases ending' <;> simp [Ending.isDone, Ending.thenAsked]

/-- **One plan after another** asks for what the first one asks for, and then for what the second
one does where the first one has ended. -/
theorem trace_bind (executor : Executor σ) (p : Plan σ α) (f : α → Plan σ β) (w : World σ) :
    (p.bind f).trace executor w = p.trace executor w ++
      Ending.thenAsked (p.act executor w) fun a => (f a).trace executor := by
  induction p generalizing w with
  | ended a => rfl
  | now change next ih => exact ih w (change w)
  | ask purpose hands request next ih =>
    have hnext : (fun r => ((next r).bind f).trace executor) = fun r w' =>
        (next r).trace executor w' ++ Ending.thenAsked ((next r).act executor w') fun a =>
          (f a).trace executor := funext fun r => funext fun w' => ih r w'
    rw [bind, trace, hnext, thenAsked_bind]
    rfl
  | launch owner stopScript request next ih => exact congrArg _ (ih _ _)
  | join hands id limit next ih =>
    have hnext : (fun status => ((next status).bind f).trace executor) = fun status w' =>
        (next status).trace executor w' ++ Ending.thenAsked ((next status).act executor w') fun a =>
          (f a).trace executor := funext fun status => funext fun w' => ih status w'
    rw [bind, trace, hnext, thenAsked_bind]
    rfl

/-- How a plan goes on after something that it waits for. -/
theorem goesOn_cases {γ : Type} (executor : Executor σ) (x : Act σ γ) (next : γ → Plan σ α)
    (w : World σ) :
    let asked := Ending.thenAsked (x w) fun a => (next a).trace executor
    let go := x >>= fun a => (next a).act executor
    (∃ a w₁, x w = (.done a, w₁) ∧ go w = (next a).act executor w₁ ∧
      asked = (next a).trace executor w₁) ∨
    ((x w).1.isDone = false ∧ (go w).1.isDone = false ∧ (go w).2 = (x w).2 ∧ asked = []) := by
  intro asked go
  rcases Act.bind_cases x (fun a => (next a).act executor) w with
    ⟨a, w₁, ha, hbind⟩ | ⟨hx, hbind, hworld⟩
  · refine .inl ⟨a, w₁, ha, hbind, ?_⟩
    change Ending.thenAsked (x w) _ = _
    rw [ha]
    rfl
  · refine .inr ⟨hx, hbind, hworld, ?_⟩
    change Ending.thenAsked (x w) _ = _
    revert hx
    rcases x w with ⟨ending, w₁⟩
    cases ending <;> simp [Ending.isDone, Ending.thenAsked]

/-- How a plan goes on with the answer to what it asks for, if there is one. -/
theorem ask_cases (executor : Executor σ) (purpose : Purpose) (hands : List Harasser)
    (request : Request) (next : Except Fault Output → Plan σ α) (w : World σ) :
    let p := ask purpose hands request next
    (∃ r w₁, p.act executor w = (next r).act executor w₁ ∧
      p.trace executor w = ⟨purpose, w.env, request, some r⟩ :: (next r).trace executor w₁) ∨
    ((p.act executor w).1.isDone = false ∧
      p.trace executor w = [⟨purpose, w.env, request, none⟩]) := by
  intro p
  let x := (Act.perform executor request).orElseUndo (abortAll hands)
  have htrace : p.trace executor w = ⟨purpose, w.env, request, (x w).1.result?⟩ ::
    Ending.thenAsked (x w) fun r => (next r).trace executor := rfl
  rcases goesOn_cases executor x next w with ⟨r, w₁, hr, hgo, hasked⟩ | ⟨hend, hgo, -, hasked⟩
  · rw [hasked, hr] at htrace
    exact .inl ⟨r, w₁, hgo, htrace⟩
  · rw [hasked, Ending.result?_eq_none hend] at htrace
    exact .inr ⟨hgo, htrace⟩

/-- How one plan goes on with another. -/
theorem bind_cases (executor : Executor σ) (p : Plan σ α) (f : α → Plan σ β) (w : World σ) :
    (∃ a w₁, p.act executor w = (.done a, w₁) ∧
      (p.bind f).act executor w = (f a).act executor w₁ ∧
      (p.bind f).trace executor w = p.trace executor w ++ (f a).trace executor w₁) ∨
    ((p.act executor w).1.isDone = false ∧ ((p.bind f).act executor w).1.isDone = false ∧
      (p.bind f).trace executor w = p.trace executor w) := by
  rw [act_bind, trace_bind]
  rcases goesOn_cases executor (p.act executor) f w with
    ⟨a, w₁, ha, hgo, htrace⟩ | ⟨hp, hgo, -, htrace⟩
  · exact .inl ⟨a, w₁, ha, hgo, congrArg _ htrace⟩
  · exact .inr ⟨hp, hgo, (congrArg _ htrace).trans (List.append_nil _)⟩

/-- A plan whose result is changed at the end asks for the same. -/
theorem mapped_cases (executor : Executor σ) (p : Plan σ α) (f : α → β) (w : World σ) :
    let p' := p.bind fun a => .ended (f a)
    p'.trace executor w = p.trace executor w ∧
      (p'.act executor w).1.result? = (p.act executor w).1.result?.map f := by
  intro p'
  rcases bind_cases executor p (fun a => .ended (f a)) w with
    ⟨a, w₁, ha, hact, htrace⟩ | ⟨hend, hact, htrace⟩
  · refine ⟨htrace.trans (List.append_nil _), ?_⟩
    rw [show p'.act executor w = _ from hact, ha]
    rfl
  · refine ⟨htrace, ?_⟩
    rw [Ending.result?_eq_none hend, show (p'.act executor w).1.result? = none from
      Ending.result?_eq_none hact]
    rfl

/-! ## What is true of all that is asked for -/

/-- Whether a change is one that tasks and the executor do not notice. -/
def Unnoticed (w w' : World σ) : Prop :=
  w'.host = w.host ∧ w'.tasks.map Task.begin = w.tasks.map Task.begin

/-- Whether all that a plan asks for from a world on is as `P` says, and all that it does besides is
not noticed. -/
def AsksFrom (P : Asked → Prop) : Plan σ α → World σ → Prop
  | ended _, _ => True
  | now change next, w => Unnoticed w (change w) ∧ (next w).AsksFrom P (change w)
  | ask purpose _ request next, w =>
    (∀ answer, P ⟨purpose, w.env, request, answer⟩) ∧ ∀ r w', (next r).AsksFrom P w'
  | launch _ _ request next, w =>
    P ⟨.trigger, w.env, request, none⟩ ∧ ∀ id w', (next id).AsksFrom P w'
  | join _ _ _ next, _ => ∀ status w', (next status).AsksFrom P w'

/-- Whether this is so from every world on. -/
def Asks (P : Asked → Prop) (p : Plan σ α) : Prop := ∀ w, p.AsksFrom P w

variable {P : Asked → Prop}

theorem asks_ended (a : α) : (ended a : Plan σ α).Asks P := fun _ => trivial

/-- A change that is not noticed. -/
theorem asks_now {change : World σ → World σ} {next : World σ → Plan σ α}
    (hchange : ∀ w, Unnoticed w (change w)) (hnext : ∀ w, (next w).Asks P) :
    (now change next).Asks P := fun w => ⟨hchange w, hnext w (change w)⟩

/-- A command that is made out of the environment. -/
theorem asks_ask {purpose : Purpose} {hands : List Harasser} (request : Environment → Request)
    {next : Except Fault Output → Plan σ α}
    (hrequest : ∀ env answer, P ⟨purpose, env, request env, answer⟩)
    (hnext : ∀ r, (next r).Asks P) :
    (now id fun w => ask purpose hands (request w.env) next).Asks P :=
  fun w => ⟨⟨rfl, rfl⟩, hrequest w.env, fun r => hnext r⟩

/-- A harasser whose command is made out of the environment. -/
theorem asks_launch {owner : Nat} {stopScript : String} (request : Environment → Request)
    {next : Nat → Plan σ α} (hrequest : ∀ env, P ⟨.trigger, env, request env, none⟩)
    (hnext : ∀ id, (next id).Asks P) :
    (now id fun w => launch owner stopScript (request w.env) next).Asks P :=
  fun w => ⟨⟨rfl, rfl⟩, hrequest w.env, fun id => hnext id⟩

theorem asks_join {hands : List Harasser} {id : Nat} {limit : Option Nat} {next : Int → Plan σ α}
    (hnext : ∀ status, (next status).Asks P) : (join hands id limit next).Asks P :=
  fun _ status => hnext status

theorem AsksFrom.bind {w : World σ} (hp : p.AsksFrom P w) (hf : ∀ a, (f a).Asks P) :
    (p.bind f).AsksFrom P w := by
  induction p generalizing w with
  | ended a => exact hf a w
  | now change next ih => exact ⟨hp.1, ih w hp.2⟩
  | ask purpose hands request next ih => exact ⟨hp.1, fun r w' => ih r (hp.2 r w')⟩
  | launch owner stopScript request next ih => exact ⟨hp.1, fun id w' => ih id (hp.2 id w')⟩
  | join hands id limit next ih => exact fun status w' => ih status (hp status w')

theorem asks_bind (hp : p.Asks P) (hf : ∀ a, (f a).Asks P) : (p.bind f).Asks P :=
  fun w => (hp w).bind hf

theorem of_mem_thenAsked {x : Ending α × World σ} {next : α → World σ → List Asked} {a : Asked}
    (h : a ∈ Ending.thenAsked x next) : ∃ r w, a ∈ next r w := by
  obtain ⟨ending, w⟩ := x
  cases ending with
  | done r => exact ⟨r, w, h⟩
  | panicked payload => exact absurd h List.not_mem_nil
  | cut => exact absurd h List.not_mem_nil

/-- **What is true of all that a plan asks for** is true of its trace. -/
theorem AsksFrom.of_mem {executor : Executor σ} {w : World σ} (hp : p.AsksFrom P w) :
    ∀ a ∈ p.trace executor w, P a := by
  induction p generalizing w with
  | ended a => exact List.forall_mem_nil _
  | now change next ih => exact ih w hp.2
  | ask purpose hands request next ih =>
    refine List.forall_mem_cons.mpr ⟨hp.1 _, fun a ha => ?_⟩
    obtain ⟨r, w', ha⟩ := of_mem_thenAsked ha
    exact ih r (hp.2 r w') a ha
  | launch owner stopScript request next ih =>
    exact List.forall_mem_cons.mpr ⟨hp.1, ih _ (hp.2 _ _)⟩
  | join hands id limit next ih =>
    intro a ha
    obtain ⟨status, w', ha⟩ := of_mem_thenAsked ha
    exact ih status (hp status w') a ha

/-! ## From one world to the next -/

/-- Relations between worlds, by what was asked for in between, that hold along every plan. -/
structure Along (executor : Executor σ) (R : List Asked → World σ → World σ → Prop) : Prop where
  steady : World.Steady (R [])
  trans : ∀ {as as' w w₁ w'}, R as w w₁ → R as' w₁ w' → R (as ++ as') w w'
  unnoticed : ∀ {w w'}, Unnoticed w w' → R [] w w'
  ask : ∀ (a : Asked) (w : World σ), R [a] w { w with host := (executor a.request w.host).2 }
  launch : ∀ (a : Asked) (w : World σ) (owner : Nat) (stopScript : String), a.purpose = .trigger →
    R [a] w (enlist owner stopScript (task executor a.request) w)

theorem unnoticed_abort (id : Nat) (w : World σ) : Unnoticed w (w.abort id) :=
  ⟨rfl, World.begins_map (World.begin_abortWhen id) w.tasks⟩

namespace Along

variable {executor : Executor σ} {R : List Asked → World σ → World σ → Prop}
  (h : Along executor R)

include h

theorem orElseUndo {x : Act σ α} {as : List Asked} {w : World σ} (hx : R as w (x w).2)
    (hs : List Harasser) : R as w (x.orElseUndo (abortAll hs) w).2 := by
  have habort : ∀ w : World σ, R [] w (abortAll hs w) := by
    intro w
    unfold abortAll World.abortAll
    induction hs.map Harasser.task generalizing w with
    | nil => exact h.steady.refl w
    | cons id ids ih => exact h.steady.trans (h.steady.abort w id) (ih (w.abort id))
  have hundone : R as w (abortAll hs (x w).2) := by
    have htrans := h.trans hx (habort (x w).2)
    rwa [List.append_nil] at htrans
  unfold Act.orElseUndo
  revert hx hundone
  rcases x w with ⟨ending, w₁⟩
  intro hx hundone
  cases ending with
  | done a => exact hx
  | panicked payload => exact hundone
  | cut => exact hundone

theorem perform (a : Asked) (w : World σ) : R [a] w (Act.perform executor a.request w).2 :=
  h.trans (h.ask a w) (h.steady.bind (h.steady.wait _) (fun _ => h.steady.refl)
    { w with host := (executor a.request w.host).2 })

theorem join (id : Nat) (limit : Option Nat) (w : World σ) :
    R [] w ((Await.join id limit).act executor w).2 := by
  cases limit with
  | none => exact h.steady.join id w
  | some ms => exact h.steady.stopWithin id ms w

/-- **What holds along every plan** holds from its beginning to its end. -/
theorem act {w : World σ} (hp : p.AsksFrom P w) :
    R (p.trace executor w) w (p.act executor w).2 := by
  induction p generalizing w with
  | ended a => exact h.steady.refl w
  | now change next ih => exact h.trans (h.unnoticed hp.1) (ih w hp.2)
  | ask purpose hands request next ih =>
    rw [Plan.act, trace]
    have hasked : ∀ answer, R [⟨purpose, w.env, request, answer⟩] w
        ((Act.perform executor request).orElseUndo (abortAll hands) w).2 := fun answer =>
      h.orElseUndo (h.perform ⟨purpose, w.env, request, answer⟩ w) hands
    rcases goesOn_cases executor ((Act.perform executor request).orElseUndo (abortAll hands)) next w
      with ⟨r, w₁, hr, hgo, htrace⟩ | ⟨-, -, hgo, htrace⟩
    · rw [hr] at hasked
      rw [hgo, htrace]
      exact h.trans (hasked _) (ih r (hp.2 r w₁))
    · rw [hgo, htrace]
      exact hasked _
  | launch owner stopScript request next ih =>
    exact h.trans (h.launch ⟨.trigger, w.env, request, none⟩ w owner stopScript rfl)
      (ih _ (hp.2 _ _))
  | join hands id limit next ih =>
    rw [Plan.act, trace]
    have hjoined := h.orElseUndo (h.join id limit w) hands
    rcases goesOn_cases executor (((Await.join id limit).act executor).orElseUndo (abortAll hands))
      next w with ⟨status, w₁, hr, hgo, htrace⟩ | ⟨-, -, hgo, htrace⟩
    · rw [hr] at hjoined
      rw [hgo, htrace]
      exact h.trans hjoined (ih status (hp status w₁))
    · rw [hgo, htrace]
      exact hjoined

end Along

end Plan

/-! ## Courses as plans -/

namespace HarasserUtility.Course

/-- The plan of a course: every script that it waits for stops a harasser. -/
def plan : Course σ α → Plan σ α
  | ended a => .ended a
  | now change next => .now change fun w => (next w).plan
  | await hands (.script request) next =>
    .ask .stopScript hands request fun r => (next (scriptStatus r)).plan
  | await hands (.join id limit) next => .join hands id limit fun status => (next status).plan

theorem plan_bind (c : Course σ α) (f : α → Course σ β) :
    (c.bind f).plan = c.plan.bind fun a => (f a).plan := by
  induction c with
  | ended a => rfl
  | now change next ih => exact congrArg _ (funext ih)
  | await hands on next ih =>
    cases on with
    | script request => exact congrArg _ (funext fun r => ih (scriptStatus r))
    | join id limit => exact congrArg _ (funext ih)

theorem act_plan (executor : Executor σ) (c : Course σ α) :
    c.plan.act executor = c.act executor := by
  induction c with
  | ended a => rfl
  | now change next ih => exact funext fun w => congrFun (ih w) (change w)
  | await hands on next ih =>
    cases on with
    | script request =>
      have hnext : (fun r => (next (scriptStatus r)).plan.act executor) =
          fun r => (next (scriptStatus r)).act executor := funext fun r => ih (scriptStatus r)
      rw [plan, Plan.act, hnext, act, Await.act, Act.orElseUndo_bind, bind_assoc]
      rfl
    | join id limit =>
      have hnext : (fun status => (next status).plan.act executor) =
          fun status => (next status).act executor := funext ih
      rw [plan, Plan.act, hnext, act]

end HarasserUtility.Course

end Qualification
