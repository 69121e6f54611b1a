import FuseExt2.Heaps

/-! A caller that holds values in a heap by handles, and runs of its calls against the same
calls on the values. The values that it has given up are `none`. -/

namespace Heaps

open Assertion

section Handles

variable {V : Type} {β : Type*} {D : Nat → β → Assertion V} {handles : List Nat} {values : List (Option β)} {k : Nat}

def slot (D : Nat → β → Assertion V) (p : Nat) : Option β → Assertion V
  | some b => D p b
  | none => 1

def held (D : Nat → β → Assertion V) (handles : List Nat) (values : List (Option β)) : Assertion V :=
  (List.zipWith (slot D) handles values).prod

def Holding (D : Nat → β → Assertion V) (handles : List Nat) (values : List (Option β)) : Assertion V :=
  such (handles.length = values.length) (held D handles values)

theorem holding_nil : Holding D [] [] = 1 := such_of_true rfl 1

theorem held_set_set (hlen : handles.length = values.length) (hk : k < values.length) (p : Nat) (value : Option β) :
    held D (handles.set k p) (values.set k value) = slot D p value * held D handles (values.set k none) := by
  induction values generalizing handles k with
  | nil => exact absurd hk (Nat.not_lt_zero k)
  | cons v values ih =>
    obtain ⟨q, handles, rfl⟩ := List.exists_cons_of_length_eq_add_one hlen
    have hlen' : handles.length = values.length := Nat.succ.inj hlen
    cases k with
    | zero =>
      simp only [held, List.set_cons_zero, List.zipWith_cons_cons, List.prod_cons]
      rw [slot.eq_2 D q, one_mul]
    | succ k =>
      have h := ih hlen' (Nat.lt_of_succ_lt_succ hk)
      simp only [held] at h
      simp only [held, List.set_cons_succ, List.zipWith_cons_cons, List.prod_cons]
      rw [h, mul_left_comm]

theorem held_set (hlen : handles.length = values.length) (hk : k < values.length) (value : Option β) :
    held D handles (values.set k value) = slot D (handles.getD k 0) value * held D handles (values.set k none) := by
  have hset : handles.set k (handles.getD k 0) = handles := by
    rw [List.getD_eq_getElem handles 0 (hk.trans_eq hlen.symm), List.set_getElem_self]
  rw [← held_set_set hlen hk, hset]

theorem held_focus (hlen : handles.length = values.length) {value : Option β} (hk : values[k]? = some value) :
    held D handles values = slot D (handles.getD k 0) value * held D handles (values.set k none) := by
  obtain ⟨hlt, hget⟩ := List.getElem?_eq_some_iff.mp hk
  rw [← held_set hlen hlt, ← hget, List.set_getElem_self]

theorem held_append (hlen : handles.length = values.length) (handles' : List Nat) (values' : List (Option β)) :
    held D (handles ++ handles') (values ++ values') = held D handles values * held D handles' values' := by
  rw [held, List.zipWith_append hlen, List.prod_append]
  rfl

theorem holding_append (hlen : handles.length = values.length) (p : Nat) (b : β) :
    D p b * held D handles values ≤ Holding D (handles ++ [p]) (values ++ [some b]) := by
  refine le_such ?_ (le_of_eq ?_)
  · rw [List.length_append, List.length_append, hlen]
    rfl
  · rw [held_append hlen, mul_comm]
    exact congrArg _ (mul_one _).symm

theorem holding_append_none (hlen : handles.length = values.length) (p : Nat) :
    held D handles values ≤ Holding D (handles ++ [p]) (values ++ [none]) := by
  refine le_such ?_ (le_of_eq ?_)
  · rw [List.length_append, List.length_append, hlen]
    rfl
  · rw [held_append hlen]
    exact (mul_one _).symm.trans (congrArg _ (mul_one _).symm)

theorem holding_set (hlen : handles.length = values.length) (hk : k < values.length) (p : Nat) (b : β) :
    D p b * held D handles (values.set k none) ≤ Holding D (handles.set k p) (values.set k (some b)) := by
  refine le_such ?_ (le_of_eq (held_set_set hlen hk p (some b)).symm)
  rw [List.length_set, List.length_set, hlen]

theorem held_of_forall (h : ∀ value ∈ values, value = none) : held D handles values = 1 := by
  refine List.prod_eq_one fun a ha => ?_
  obtain ⟨i, hi, rfl⟩ := List.mem_iff_getElem.mp ha
  rw [List.getElem_zipWith, h _ (List.getElem_mem _)]
  rfl

theorem getElem?_of_getD {b : β} (h : values.getD k none = some b) : values[k]? = some (some b) := by
  rw [List.getD_eq_getElem?_getD] at h
  cases hget : values[k]? with
  | none =>
    rw [hget] at h
    cases h
  | some value =>
    rw [hget] at h
    exact congrArg some h

end Handles

section Runs

variable {V ι A σ : Type} {β : Type} {ε : Type*}

def runAll (step : List Nat → ι → Program V (A × List Nat)) : List Nat → List ι → Program V (List A × List Nat)
  | handles, [] => pure ([], handles)
  | handles, call :: calls => do
    let (answer, handles) ← step handles call
    let (answers, handles) ← runAll step handles calls
    pure (answer :: answers, handles)

def serveAll (serve : σ → ι → Except ε (A × σ)) : σ → List ι → Except ε (List A × σ)
  | state, [] => .ok ([], state)
  | state, call :: calls => do
    let (answer, state) ← serve state call
    let (answers, state) ← serveAll serve state calls
    .ok (answer :: answers, state)

def allowedAll (allowed : σ → ι → Bool) (serve : σ → ι → Except ε (A × σ)) : σ → List ι → Bool
  | _, [] => true
  | state, call :: calls => allowed state call &&
    match serve state call with
    | .error _ => true
    | .ok (_, state) => allowedAll allowed serve state calls

/-- The program of each call does to what is held what the call does to the state. -/
def Serves (hold : List Nat → σ → Assertion V) (step : List Nat → ι → Program V (A × List Nat))
    (allowed : σ → ι → Bool) (serve : σ → ι → Except ε (A × σ)) : Prop :=
  ∀ handles state call, allowed state call = true →
    Computes (hold handles state) (step handles call) (serve state call)
      fun served result => such (result.1 = served.1) (hold result.2 served.2)

section Steps

variable {hold : List Nat → σ → Assertion V} {step : List Nat → ι → Program V (A × List Nat)}
  {allowed : σ → ι → Bool} {serve : σ → ι → Except ε (A × σ)}

theorem Serves.runAll (hs : Serves hold step allowed serve) :
    Serves hold (runAll step) (allowedAll allowed serve) (serveAll serve) := by
  intro handles state calls hallowed
  induction calls generalizing state handles with
  | nil => exact Spec.ret_of_le (le_such rfl le_rfl)
  | cons call calls ih =>
    obtain ⟨hfirst, hrest⟩ := Bool.and_eq_true_iff.mp hallowed
    refine Computes.bind (hs handles state call hfirst) fun served result hserved => ?_
    obtain ⟨answer, handles'⟩ := result
    obtain ⟨answer', state'⟩ := served
    refine Computes.such fun hanswer => ?_
    rw [hserved] at hrest
    refine Computes.bind (ih handles' state' hrest) fun served' result' _ => ?_
    obtain ⟨answers, handles''⟩ := result'
    obtain ⟨answers', state''⟩ := served'
    refine Spec.ret_of_le (such_le fun hanswers => le_such ?_ le_rfl)
    exact congrArg₂ List.cons hanswer hanswers

theorem Serves.run_from (hs : Serves hold step allowed serve) {state : σ} {calls : List ι}
    (hallowed : allowedAll allowed serve state calls = true) {handles : List Nat} {h : Heap V} {R : Assertion V}
    (hstart : (hold handles state * R).holds h.cells) :
    (∀ answers state', serveAll serve state calls = .ok (answers, state') →
      ∃ handles' h', Heaps.runAll step handles calls h = .ok ((answers, handles'), h') ∧
        (hold handles' state' * R).holds h'.cells) ∧
      ∀ e, serveAll serve state calls = .error e → ∃ fault, Heaps.runAll step handles calls h = .error fault := by
  have hc := hs.runAll handles state calls hallowed
  refine ⟨fun answers state' hserved => ?_, fun e hserved => ?_⟩
  · rw [hserved] at hc
    obtain ⟨⟨answers', handles'⟩, h', hrun, hend⟩ := hc R h hstart
    rw [such_mul] at hend
    obtain ⟨hanswers, hend⟩ := hend
    obtain rfl : answers' = answers := hanswers
    exact ⟨handles', h', hrun, hend⟩
  · rw [hserved] at hc
    exact hc R h hstart

end Steps

variable {D : Nat → β → Assertion V} {step : List Nat → ι → Program V (A × List Nat)}
  {allowed : List (Option β) → ι → Bool} {serve : List (Option β) → ι → Except ε (A × List (Option β))}

/-- A caller that starts with nothing. -/
theorem Serves.run (hs : Serves (Holding D) step allowed serve) {calls : List ι}
    (hallowed : allowedAll allowed serve [] calls = true) (h : Heap V) :
    (∀ answers values, serveAll serve [] calls = .ok (answers, values) →
      ∃ handles h', Heaps.runAll step [] calls h = .ok ((answers, handles), h') ∧
        handles.length = values.length ∧ (held D handles values * exactly h.cells).holds h'.cells) ∧
      ∀ e, serveAll serve [] calls = .error e → ∃ fault, Heaps.runAll step [] calls h = .error fault := by
  have hstart : (Holding D [] [] * exactly h.cells).holds h.cells := by
    rw [holding_nil, one_mul]
    rfl
  obtain ⟨hok, hfault⟩ := hs.run_from hallowed hstart
  refine ⟨fun answers values hserved => ?_, hfault⟩
  obtain ⟨handles, h', hrun, hend⟩ := hok answers values hserved
  rw [Holding, such_mul] at hend
  exact ⟨handles, h', hrun, hend.1, hend.2⟩

end Runs

end Heaps
