import Qualification.Activity
import Mathlib.Tactic.SplitIfs
/-!
# Laws of activities

* `Act` is a lawful monad; `Act.orElseUndo_bind`: what is put right is so in every part;
* `Act.bind_of_done`, `Act.bind_of_panicked`, `Act.bind_cases`: how activities go on;
* `Act.Keeps`: what an activity leaves as it was, however it ends.
-/

namespace Qualification

variable {σ α β γ : Type}

/-- Whether an activity came to its end. -/
def Ending.isDone : Ending α → Bool
  | .done _ => true
  | _ => false

namespace Act

instance : LawfulMonad (Act σ) := by
  refine LawfulMonad.mk' _ (fun x => ?_) (fun _ _ => rfl) (fun x f g => ?_)
  · funext w
    change Act.bind x (fun a => Act.pure (id a)) w = x w
    unfold Act.bind
    rcases x w with ⟨ending, w'⟩
    cases ending <;> rfl
  · funext w
    change Act.bind (Act.bind x f) g w = Act.bind x (fun a => Act.bind (f a) g) w
    unfold Act.bind
    rcases x w with ⟨ending, w'⟩
    cases ending <;> rfl

/-- What is put right is so in every part. -/
theorem orElseUndo_bind (x : Act σ α) (f : α → Act σ β) (undo : World σ → World σ) :
    (x >>= f).orElseUndo undo = x.orElseUndo undo >>= fun a => (f a).orElseUndo undo := by
  funext w
  change (Act.bind x f).orElseUndo undo w =
    Act.bind (x.orElseUndo undo) (fun a => (f a).orElseUndo undo) w
  unfold Act.bind orElseUndo
  dsimp only
  rcases x w with ⟨ending, w'⟩
  cases ending <;> rfl

theorem bind_of_done {x : Act σ α} {w w' : World σ} {a : α} (h : x w = (.done a, w'))
    (f : α → Act σ β) : (x >>= f) w = f a w' := by
  change Act.bind x f w = f a w'
  rw [Act.bind, h]

/-- One activity after another: the second one begins where the first one ends, if that comes to its
end. -/
theorem bind_cases (x : Act σ α) (g : α → Act σ β) (w : World σ) :
    (∃ a w₁, x w = (.done a, w₁) ∧ (x >>= g) w = g a w₁) ∨
    ((x w).1.isDone = false ∧ ((x >>= g) w).1.isDone = false ∧ ((x >>= g) w).2 = (x w).2) := by
  change (∃ a w₁, x w = (.done a, w₁) ∧ Act.bind x g w = g a w₁) ∨
    ((x w).1.isDone = false ∧ (Act.bind x g w).1.isDone = false ∧ (Act.bind x g w).2 = (x w).2)
  unfold Act.bind
  rcases x w with ⟨ending, w₁⟩
  cases ending with
  | done a => exact .inl ⟨a, w₁, rfl, rfl⟩
  | panicked payload => exact .inr ⟨rfl, rfl, rfl⟩
  | cut => exact .inr ⟨rfl, rfl, rfl⟩

/-- One activity after another has come to its end: so have both of them. -/
theorem exists_of_bind {x : Act σ α} {f : α → Act σ β} {w w' : World σ} {b : β}
    (h : (x >>= f) w = (.done b, w')) :
    ∃ a w₁, x w = (.done a, w₁) ∧ f a w₁ = (.done b, w') := by
  rcases bind_cases x f w with ⟨a, w₁, ha, hbind⟩ | ⟨-, hundone, -⟩
  · exact ⟨a, w₁, ha, hbind.symm.trans h⟩
  · rw [h] at hundone
    cases hundone

/-- What is made of a result has no part in the world. -/
theorem snd_bind_pure (x : Act σ α) (f : α → β) (w : World σ) :
    ((x >>= fun a => Pure.pure (f a)) w).2 = (x w).2 := by
  rcases bind_cases x (fun a => Pure.pure (f a)) w with ⟨a, w₁, ha, hbind⟩ | ⟨-, -, hbind⟩
  · rw [hbind, ha]
    rfl
  · exact hbind

theorem orElseUndo_of_done {x : Act σ α} {w w' : World σ} {a : α} (h : x w = (.done a, w'))
    (undo : World σ → World σ) : x.orElseUndo undo w = (.done a, w') := by
  rw [orElseUndo, h]

theorem orElseUndo_of_not_done {x : Act σ α} {w : World σ} (h : (x w).1.isDone = false)
    (undo : World σ → World σ) :
    (x.orElseUndo undo w).1.isDone = false ∧ (x.orElseUndo undo w).2 = undo (x w).2 := by
  unfold orElseUndo
  revert h
  obtain ⟨ending, w'⟩ := x w
  intro h
  cases ending with
  | done a => cases h
  | panicked payload => exact ⟨rfl, rfl⟩
  | cut => exact ⟨rfl, rfl⟩

theorem of_orElseUndo {x : Act σ α} {undo : World σ → World σ} {w w' : World σ} {a : α}
    (h : x.orElseUndo undo w = (.done a, w')) : x w = (.done a, w') := by
  unfold orElseUndo at h
  split at h
  · rename_i hx
    rw [hx]
    exact h
  · cases h
  · cases h

/-! ## What activities keep -/

/-- Whether an activity leaves something of the world as it was, however it ends. -/
def Keeps (x : Act σ α) (f : World σ → γ) : Prop := ∀ w, f (x w).2 = f w

section Keeps

variable {f : World σ → γ}

theorem keeps_pure (a : α) : (Pure.pure a : Act σ α).Keeps f := fun _ => rfl

theorem Keeps.bind {x : Act σ α} {g : α → Act σ β} (hx : x.Keeps f) (hg : ∀ a, (g a).Keeps f) :
    (x >>= g).Keeps f := by
  intro w
  rcases bind_cases x g w with ⟨a, w₁, ha, hbind⟩ | ⟨-, -, hbind⟩
  · have hw := hx w
    rw [ha] at hw
    rw [hbind, hg a w₁, hw]
  · rw [hbind, hx w]

end Keeps

theorem keeps_wait (ms : Nat) : (wait ms : Act σ Unit).Keeps World.env := by
  intro w
  unfold wait
  split_ifs
  · rfl
  · dsimp only
    split
    · rfl
    · rfl

theorem keeps_perform (executor : Executor σ) (request : Request) :
    (perform executor request).Keeps World.env :=
  Keeps.bind (fun _ => rfl) fun _ => (keeps_wait _).bind fun _ => keeps_pure _

end Act

end Qualification
