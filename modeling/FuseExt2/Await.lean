import Mathlib

/-! A caller that waits for one answer: a loop of dispatches that ends when the
variables updated by the answer's closure say that it is done. -/

namespace Await

/-- The caller's variables, and the answer while it is on its way. -/
structure Waiting (σ α : Type*) where
  locals : σ
  answer : Option α

section Loop

variable {σ α : Type*} (closure : σ → α → σ) (isDone : σ → Bool)

def dispatchRun (arrives : Bool) (s : Waiting σ α) : Waiting σ α :=
  match arrives, s.answer with
  | true, some a => ⟨closure s.locals a, none⟩
  | _, _ => s

/-- The variables at the end of the loop, if it ends within the given dispatches. -/
def waitLoop : Waiting σ α → List Bool → Option σ
  | s, [] => if isDone s.locals then some s.locals else none
  | s, arrives :: rounds =>
    if isDone s.locals then some s.locals else waitLoop (dispatchRun closure arrives s) rounds

variable {closure isDone}

theorem waitLoop_of_done {s : Waiting σ α} (h : isDone s.locals = true) (rounds : List Bool) :
    waitLoop closure isDone s rounds = some s.locals := by
  cases rounds with
  | nil => rw [waitLoop, if_pos h]
  | cons arrives rounds => rw [waitLoop, if_pos h]

theorem waitLoop_of_answered {s : σ} (h : isDone s = false) (rounds : List Bool) :
    waitLoop closure isDone ⟨s, none⟩ rounds = none := by
  have hnot : ¬ isDone s = true := by simp [h]
  induction rounds with
  | nil => rw [waitLoop, if_neg hnot]
  | cons arrives rounds ih =>
    have hstep : dispatchRun closure arrives ⟨s, none⟩ = ⟨s, none⟩ := by cases arrives <;> rfl
    rw [waitLoop, if_neg hnot, hstep]
    exact ih

variable (closure isDone)

/-- Once the answer has arrived, the loop has ended if the closure says so, and else
never ends. -/
theorem waitLoop_of_arrives {s : σ} (h : isDone s = false) (a : α) {rounds : List Bool} (ha : true ∈ rounds) :
    waitLoop closure isDone ⟨s, some a⟩ rounds = if isDone (closure s a) then some (closure s a) else none := by
  have hnot : ¬ isDone s = true := by simp [h]
  induction rounds with
  | nil => exact absurd ha List.not_mem_nil
  | cons arrives rounds ih =>
    rw [waitLoop, if_neg hnot]
    cases arrives with
    | true =>
      have hstep : dispatchRun closure true ⟨s, some a⟩ = ⟨closure s a, none⟩ := rfl
      rw [hstep]
      cases hd : isDone (closure s a) with
      | true => exact waitLoop_of_done hd rounds
      | false => exact waitLoop_of_answered hd rounds
    | false =>
      have hrest : true ∈ rounds := by simpa using ha
      exact ih hrest

end Loop

end Await
