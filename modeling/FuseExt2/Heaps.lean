import Mathlib

/-! Programs over a heap of allocated cells, assertions about parts of a heap as a
commutative monoid, and the rules for specifications whose frame is implicit. -/

namespace Heaps

/-- `outside` is a fault of what a program computes without the heap. -/
inductive Fault
  | dangling
  | diverges
  | outside
  deriving DecidableEq, Repr

/-! Parts of a heap. -/

abbrev Cells (V : Type*) := Nat → Option V

section Cells

variable {V : Type*} {h k l : Cells V}

def Apart (h k : Cells V) : Prop := ∀ a, h a = none ∨ k a = none

def join (h k : Cells V) : Cells V := fun a => (h a).or (k a)

theorem Apart.symm (hk : Apart h k) : Apart k h := fun a => (hk a).symm

theorem join_comm (hk : Apart h k) : join h k = join k h := by
  funext a
  rcases hk a with ha | ha
  · simp [join, ha]
  · simp [join, ha]

theorem join_assoc (h k l : Cells V) : join (join h k) l = join h (join k l) := by
  funext a
  exact Option.or_assoc

theorem apart_join_left : Apart (join h k) l ↔ Apart h l ∧ Apart k l := by
  constructor
  · intro hl
    refine ⟨fun a => (hl a).imp_left fun ha => ?_, fun a => (hl a).imp_left fun ha => ?_⟩
    · exact (Option.or_eq_none_iff.mp ha).1
    · exact (Option.or_eq_none_iff.mp ha).2
  · rintro ⟨hh, hk⟩ a
    rcases hh a with ha | ha
    · exact (hk a).imp_left fun hka => Option.or_eq_none_iff.mpr ⟨ha, hka⟩
    · exact Or.inr ha

theorem apart_join_right : Apart h (join k l) ↔ Apart h k ∧ Apart h l := by
  constructor
  · intro hl
    obtain ⟨hk, hl'⟩ := apart_join_left.mp hl.symm
    exact ⟨hk.symm, hl'.symm⟩
  · rintro ⟨hk, hl⟩
    exact (apart_join_left.mpr ⟨hk.symm, hl.symm⟩).symm

end Cells

/-- What a part of the heap holds. -/
@[ext] structure Assertion (V : Type*) where
  holds : Cells V → Prop

namespace Assertion

variable {V : Type*}

/-- Two parts that have no cell in common. -/
instance : Mul (Assertion V) :=
  ⟨fun P Q => ⟨fun h => ∃ h₁ h₂, Apart h₁ h₂ ∧ join h₁ h₂ = h ∧ P.holds h₁ ∧ Q.holds h₂⟩⟩

instance : One (Assertion V) := ⟨⟨fun h => h = fun _ => none⟩⟩

theorem mul_symm (P Q : Assertion V) : P * Q = Q * P := by
  ext h
  constructor
  · rintro ⟨h₁, h₂, hapart, rfl, hP, hQ⟩
    exact ⟨h₂, h₁, hapart.symm, (join_comm hapart).symm, hQ, hP⟩
  · rintro ⟨h₁, h₂, hapart, rfl, hQ, hP⟩
    exact ⟨h₂, h₁, hapart.symm, (join_comm hapart).symm, hP, hQ⟩

theorem nothing_mul (P : Assertion V) : 1 * P = P := by
  ext h
  constructor
  · rintro ⟨_, h₂, -, rfl, rfl, hP⟩
    exact hP
  · intro hP
    exact ⟨fun _ => none, h, fun _ => Or.inl rfl, rfl, rfl, hP⟩

instance : CommMonoid (Assertion V) where
  mul_assoc P Q R := by
    ext h
    constructor
    · rintro ⟨_, h₃, hapart, rfl, ⟨h₁, h₂, hpq, rfl, hP, hQ⟩, hR⟩
      obtain ⟨hpr, hqr⟩ := apart_join_left.mp hapart
      exact ⟨h₁, join h₂ h₃, apart_join_right.mpr ⟨hpq, hpr⟩, (join_assoc _ _ _).symm, hP,
        h₂, h₃, hqr, rfl, hQ, hR⟩
    · rintro ⟨h₁, _, hapart, rfl, hP, h₂, h₃, hqr, rfl, hQ, hR⟩
      obtain ⟨hpq, hpr⟩ := apart_join_right.mp hapart
      exact ⟨join h₁ h₂, h₃, apart_join_left.mpr ⟨hpr, hqr⟩, join_assoc _ _ _, ⟨h₁, h₂, hpq, rfl, hP, hQ⟩, hR⟩
  one_mul := nothing_mul
  mul_one P := (mul_symm P 1).trans (nothing_mul P)
  mul_comm := mul_symm

instance : PartialOrder (Assertion V) where
  le P Q := ∀ h, P.holds h → Q.holds h
  le_refl P h hP := hP
  le_trans P Q R hPQ hQR h hP := hQR h (hPQ h hP)
  le_antisymm P Q hPQ hQP := by
    ext h
    exact ⟨hPQ h, hQP h⟩

instance : IsOrderedMonoid (Assertion V) where
  mul_le_mul_left P Q hPQ R := by
    rintro h ⟨h₁, h₂, hapart, rfl, hP, hR⟩
    exact ⟨h₁, h₂, hapart, rfl, hPQ h₁ hP, hR⟩

def cell (a : Nat) (v : V) : Assertion V := ⟨fun h => a ≠ 0 ∧ h = Function.update (fun _ => none) a (some v)⟩

def such (φ : Prop) (P : Assertion V) : Assertion V := ⟨fun h => φ ∧ P.holds h⟩

def any {α : Type*} (P : α → Assertion V) : Assertion V := ⟨fun h => ∃ a, (P a).holds h⟩

def exactly (k : Cells V) : Assertion V := ⟨fun h => h = k⟩

section Connectives

variable {α : Type*} {φ : Prop} {P Q : Assertion V} {F : α → Assertion V}

theorem such_mul (φ : Prop) (P Q : Assertion V) : such φ P * Q = such φ (P * Q) := by
  ext h
  constructor
  · rintro ⟨h₁, h₂, hapart, rfl, ⟨hφ, hP⟩, hQ⟩
    exact ⟨hφ, h₁, h₂, hapart, rfl, hP, hQ⟩
  · rintro ⟨hφ, h₁, h₂, hapart, rfl, hP, hQ⟩
    exact ⟨h₁, h₂, hapart, rfl, ⟨hφ, hP⟩, hQ⟩

theorem mul_such (φ : Prop) (P Q : Assertion V) : P * such φ Q = such φ (P * Q) := by
  rw [mul_comm, such_mul, mul_comm]

theorem any_mul (F : α → Assertion V) (Q : Assertion V) : any F * Q = any fun a => F a * Q := by
  ext h
  constructor
  · rintro ⟨h₁, h₂, hapart, rfl, ⟨a, hF⟩, hQ⟩
    exact ⟨a, h₁, h₂, hapart, rfl, hF, hQ⟩
  · rintro ⟨a, h₁, h₂, hapart, rfl, hF, hQ⟩
    exact ⟨h₁, h₂, hapart, rfl, ⟨a, hF⟩, hQ⟩

theorem mul_any (P : Assertion V) (F : α → Assertion V) : P * any F = any fun a => P * F a := by
  rw [mul_comm, any_mul]
  simp only [mul_comm]

theorem such_of_true (hφ : φ) (P : Assertion V) : such φ P = P := by
  ext h
  exact ⟨fun hP => hP.2, fun hP => ⟨hφ, hP⟩⟩

theorem le_such (hφ : φ) (hPQ : P ≤ Q) : P ≤ such φ Q := fun h hP => ⟨hφ, hPQ h hP⟩

theorem le_any (a : α) (hP : P ≤ F a) : P ≤ any F := fun h hh => ⟨a, hP h hh⟩

theorem such_le (h : φ → P ≤ Q) : such φ P ≤ Q := fun k hk => h hk.1 k hk.2

theorem any_le (h : ∀ a, F a ≤ Q) : any F ≤ Q := by
  rintro k ⟨a, ha⟩
  exact h a k ha

end Connectives

end Assertion

/-! Heaps and programs. -/

structure Heap (V : Type*) where
  cells : Cells V
  bound : Nat
  beyond : ∀ a, bound ≤ a → cells a = none
  null : cells 0 = none

/-- Any way to choose the address of a new cell. -/
structure Allocator (V : Type*) where
  fresh : Heap V → Nat
  ne_zero : ∀ h, fresh h ≠ 0
  unused : ∀ h : Heap V, h.cells (fresh h) = none

def Heap.empty (V : Type*) : Heap V where
  cells := fun _ => none
  bound := 0
  beyond _ _ := rfl
  null := rfl

/-- Cells one after the other, none of them used again. -/
def bump (V : Type*) : Allocator V where
  fresh h := h.bound + 1
  ne_zero _ := Nat.succ_ne_zero _
  unused h := h.beyond _ (Nat.le_succ _)

abbrev Program (V : Type) := StateT (Heap V) (Except Fault)

section Programs

variable {V : Type}

def Heap.set (h : Heap V) (a : Nat) (ha : a ≠ 0) (v : V) : Heap V where
  cells := Function.update h.cells a (some v)
  bound := max h.bound (a + 1)
  beyond b hb := by
    rw [Function.update_of_ne (by omega)]
    exact h.beyond b (by omega)
  null := by
    rw [Function.update_of_ne (Ne.symm ha)]
    exact h.null

def Heap.erase (h : Heap V) (a : Nat) : Heap V where
  cells := Function.update h.cells a none
  bound := h.bound
  beyond b hb := by
    by_cases hba : b = a
    · rw [hba, Function.update_self]
    · rw [Function.update_of_ne hba]
      exact h.beyond b hb
  null := by
    by_cases ha : 0 = a
    · rw [← ha, Function.update_self]
    · rw [Function.update_of_ne ha]
      exact h.null

def fail {α : Type} (fault : Fault) : Program V α := fun _ => .error fault

def lift {ε : Type*} {α : Type} (x : Except ε α) : Program V α :=
  match x with
  | .ok a => pure a
  | .error _ => fail .outside

def load (a : Nat) : Program V V := fun h =>
  match h.cells a with
  | some v => .ok (v, h)
  | none => .error .dangling

def store (a : Nat) (v : V) : Program V Unit := fun h =>
  if hz : a ≠ 0 ∧ (h.cells a).isSome then .ok ((), h.set a hz.1 v) else .error .dangling

def malloc (allocator : Allocator V) (v : V) : Program V Nat := fun h =>
  .ok (allocator.fresh h, h.set (allocator.fresh h) (allocator.ne_zero h) v)

/-- `free(NULL)` does nothing. -/
def free (a : Nat) : Program V Unit := fun h =>
  if a = 0 then .ok ((), h)
  else if (h.cells a).isSome then .ok ((), h.erase a)
  else .error .dangling

/-- More turns than there are cells to visit. -/
def turns : Program V Nat := fun h => .ok (h.bound + 1, h)

/-! Specifications: the cells that `P` does not speak of stay as they are. -/

open Assertion

def Spec {α : Type} (P : Assertion V) (c : Program V α) (Q : α → Assertion V) : Prop :=
  ∀ R (h : Heap V), (P * R).holds h.cells → ∃ a h', c h = .ok (a, h') ∧ (Q a * R).holds h'.cells

section Rules

variable {α β : Type} {P P' : Assertion V} {c : Program V α} {Q Q' : α → Assertion V}

theorem bind_of_ok {f : α → Program V β} {h h' : Heap V} {a : α} (hc : c h = .ok (a, h')) :
    (c >>= f) h = f a h' := by
  show (c h >>= fun x => f x.1 x.2) = f a h'
  rw [hc]
  rfl

theorem bind_of_error {f : α → Program V β} {h : Heap V} {fault : Fault} (hc : c h = .error fault) :
    (c >>= f) h = .error fault := by
  show (c h >>= fun x => f x.1 x.2) = .error fault
  rw [hc]
  rfl

theorem Spec.ret (a : α) : Spec (Q a) (pure a) Q := fun _ h hP => ⟨a, h, rfl, hP⟩

theorem Spec.bind {f : α → Program V β} {S : β → Assertion V} (hc : Spec P c Q) (hf : ∀ a, Spec (Q a) (f a) S) :
    Spec P (c >>= f) S := by
  intro R h hP
  obtain ⟨a, h₁, hrun, hQ⟩ := hc R h hP
  obtain ⟨b, h₂, hrun', hS⟩ := hf a R h₁ hQ
  exact ⟨b, h₂, (bind_of_ok hrun).trans hrun', hS⟩

theorem Spec.frame (hc : Spec P c Q) (F : Assertion V) : Spec (P * F) c fun a => Q a * F := by
  intro R h hP
  rw [mul_assoc] at hP
  obtain ⟨a, h', hrun, hQ⟩ := hc (F * R) h hP
  refine ⟨a, h', hrun, ?_⟩
  rw [mul_assoc]
  exact hQ

theorem Spec.weaken (hc : Spec P c Q) (hP : P' ≤ P) (hQ : ∀ a, Q a ≤ Q' a) : Spec P' c Q' := by
  intro R h hh
  obtain ⟨a, h', hrun, hpost⟩ := hc R h (mul_le_mul_left hP R h.cells hh)
  exact ⟨a, h', hrun, mul_le_mul_left (hQ a) R h'.cells hpost⟩

theorem Spec.post (hc : Spec P c Q) (hQ : ∀ a, Q a ≤ Q' a) : Spec P c Q' := hc.weaken le_rfl hQ

theorem Spec.pre (hc : Spec P c Q) (hP : P' ≤ P) : Spec P' c Q := hc.weaken hP fun _ => le_rfl

theorem Spec.ret_of_le {a : α} (h : P ≤ Q a) : Spec P (pure a) Q := (Spec.ret a).pre h

/-- A call whose result is known, next to the cells of `F`. -/
theorem Spec.call {v : α} {F : Assertion V} {f : α → Program V β} {S : β → Assertion V}
    (hc : Spec P c fun a => Assertion.such (a = v) P') (hf : Spec (P' * F) (f v) S) : Spec (P * F) (c >>= f) S := by
  refine (hc.frame F).bind fun a => ?_
  rw [such_mul]
  intro R h hP
  rw [such_mul] at hP
  obtain ⟨rfl, hP⟩ := hP
  exact hf R h hP

/-- A call that allocates, or whose result is not needed. -/
theorem Spec.step {F : Assertion V} {f : α → Program V β} {S : β → Assertion V} (hc : Spec P c Q)
    (hf : ∀ a, Spec (Q a * F) (f a) S) : Spec (P * F) (c >>= f) S := (hc.frame F).bind hf

/-- A call that allocates what it leaves. -/
theorem Spec.acquire {F : Assertion V} {f : α → Program V β} {S : β → Assertion V} (hc : Spec 1 c Q)
    (hf : ∀ a, Spec (Q a * F) (f a) S) : Spec F (c >>= f) S := by
  rw [← one_mul F]
  exact hc.step hf

/-- A call that gives back what it is given. -/
theorem Spec.release {F : Assertion V} {f : α → Program V β} {S : β → Assertion V} (hc : Spec P c fun _ => 1)
    (hf : ∀ a, Spec F (f a) S) : Spec (P * F) (c >>= f) S := by
  refine hc.step fun a => ?_
  rw [one_mul]
  exact hf a

theorem Spec.release_last (hc : Spec P c fun _ => 1) (F : Assertion V) : Spec (P * F) c fun _ => F := by
  refine (hc.frame F).post fun _ => ?_
  rw [one_mul]

theorem Spec.such {φ : Prop} (hc : φ → Spec P c Q) : Spec (such φ P) c Q := by
  intro R h hP
  rw [such_mul] at hP
  exact hc hP.1 R h hP.2

theorem Spec.any {ι : Type*} {F : ι → Assertion V} (hc : ∀ i, Spec (F i) c Q) : Spec (any F) c Q := by
  intro R h hP
  rw [any_mul] at hP
  obtain ⟨i, hi⟩ := hP
  exact hc i R h hi

/-! Programs that end in a fault, and programs that compute what a function does. -/

def Fails (P : Assertion V) (c : Program V α) : Prop :=
  ∀ R (h : Heap V), (P * R).holds h.cells → ∃ fault, c h = .error fault

theorem Fails.bind {f : α → Program V β} (hc : Fails P c) : Fails P (c >>= f) := by
  intro R h hP
  obtain ⟨fault, hrun⟩ := hc R h hP
  exact ⟨fault, bind_of_error hrun⟩

theorem Spec.bind_fails {f : α → Program V β} (hc : Spec P c Q) (hf : ∀ a, Fails (Q a) (f a)) :
    Fails P (c >>= f) := by
  intro R h hP
  obtain ⟨a, h', hrun, hQ⟩ := hc R h hP
  obtain ⟨fault, hfault⟩ := hf a R h' hQ
  exact ⟨fault, (bind_of_ok hrun).trans hfault⟩

theorem Fails.pre (hc : Fails P c) (hP : P' ≤ P) : Fails P' c :=
  fun R h hh => hc R h (mul_le_mul_left hP R h.cells hh)

theorem Fails.frame (hc : Fails P c) (F : Assertion V) : Fails (P * F) c := by
  intro R h hP
  rw [mul_assoc] at hP
  exact hc (F * R) h hP

theorem Fails.such {φ : Prop} (hc : φ → Fails P c) : Fails (such φ P) c := by
  intro R h hP
  rw [such_mul] at hP
  exact hc hP.1 R h hP.2

theorem Fails.any {ι : Type*} {F : ι → Assertion V} (hc : ∀ i, Fails (F i) c) : Fails (any F) c := by
  intro R h hP
  rw [any_mul] at hP
  obtain ⟨i, hi⟩ := hP
  exact hc i R h hi

theorem fails_fail (P : Assertion V) (fault : Fault) : Fails P (fail fault : Program V α) :=
  fun _ _ _ => ⟨fault, rfl⟩

theorem load_null (P : Assertion V) : Fails P (load 0 : Program V V) := by
  intro R h _
  exact ⟨.dangling, by rw [load, h.null]⟩

/-- The program gives what `x` is, up to the representation `Q`, or ends in a fault with it. -/
def Computes {ε : Type*} {γ : Type} (P : Assertion V) (c : Program V α) (x : Except ε γ)
    (Q : γ → α → Assertion V) : Prop :=
  match x with
  | .ok b => Spec P c (Q b)
  | .error _ => Fails P c

section Computes

variable {ε : Type*} {γ δ : Type} {x : Except ε γ} {A A' : γ → α → Assertion V}

/-- The faults of `x` are faults of `y`. -/
theorem Computes.call {f : α → Program V β} {y : Except ε δ} {S : δ → β → Assertion V} (hc : Computes P c x A)
    (hf : ∀ b a, x = .ok b → Computes (A b a) (f a) y S) (he : ∀ e, x = .error e → y = .error e) :
    Computes P (c >>= f) y S := by
  cases x with
  | error e =>
    rw [he e rfl]
    exact Fails.bind hc
  | ok b =>
    cases y with
    | error e => exact Spec.bind_fails hc fun a => hf b a rfl
    | ok d => exact Spec.bind hc fun a => hf b a rfl

theorem Computes.bind {f : α → Program V β} {g : γ → Except ε δ} {S : δ → β → Assertion V}
    (hc : Computes P c x A) (hf : ∀ b a, x = .ok b → Computes (A b a) (f a) (g b) S) :
    Computes P (c >>= f) (x >>= g) S := by
  refine hc.call (fun b a hx => ?_) fun e hx => by rw [hx]; rfl
  have hstep := hf b a hx
  rw [hx]
  exact hstep

theorem Computes.frame (hc : Computes P c x A) (F : Assertion V) : Computes (P * F) c x fun b a => A b a * F := by
  cases x with
  | error e => exact Fails.frame hc F
  | ok b => exact Spec.frame hc F

theorem Computes.pre (hc : Computes P c x A) (hP : P' ≤ P) : Computes P' c x A := by
  cases x with
  | error e => exact Fails.pre hc hP
  | ok b => exact Spec.pre hc hP

theorem Computes.post (hc : Computes P c x A) (hA : ∀ b a, A b a ≤ A' b a) : Computes P c x A' := by
  cases x with
  | error e => exact hc
  | ok b => exact Spec.post hc (hA b)

theorem Computes.such {φ : Prop} (hc : φ → Computes P c x A) : Computes (such φ P) c x A := by
  cases x with
  | error e => exact Fails.such hc
  | ok b => exact Spec.such hc

theorem Computes.any {ι : Type*} {F : ι → Assertion V} (hc : ∀ i, Computes (F i) c x A) : Computes (any F) c x A := by
  cases x with
  | error e => exact Fails.any hc
  | ok b => exact Spec.any hc

/-- A run that starts with no cells of its own. -/
theorem Computes.run (hc : Computes 1 c x A) (h : Heap V) :
    (∀ b, x = .ok b → ∃ a h', c h = .ok (a, h') ∧ (A b a * exactly h.cells).holds h'.cells) ∧
      ∀ e, x = .error e → ∃ fault, c h = .error fault := by
  have hstart : (1 * exactly h.cells).holds h.cells := by
    rw [one_mul]
    rfl
  constructor
  · rintro b rfl
    exact hc _ h hstart
  · rintro e rfl
    exact hc _ h hstart

theorem Spec.bind_computes {f : α → Program V β} {y : Except ε δ} {S : δ → β → Assertion V} (hc : Spec P c Q)
    (hf : ∀ a, Computes (Q a) (f a) y S) : Computes P (c >>= f) y S := by
  cases y with
  | error e => exact hc.bind_fails hf
  | ok d => exact hc.bind hf

theorem Spec.step_computes {f : α → Program V β} {y : Except ε δ} {S : δ → β → Assertion V} {F : Assertion V}
    (hc : Spec P c Q) (hf : ∀ a, Computes (Q a * F) (f a) y S) : Computes (P * F) (c >>= f) y S :=
  (hc.frame F).bind_computes hf

theorem Spec.acquire_computes {f : α → Program V β} {y : Except ε δ} {S : δ → β → Assertion V} {F : Assertion V}
    (hc : Spec 1 c Q) (hf : ∀ a, Computes (Q a * F) (f a) y S) : Computes F (c >>= f) y S := by
  rw [← one_mul F]
  exact hc.step_computes hf

theorem Spec.release_computes {f : α → Program V β} {y : Except ε δ} {S : δ → β → Assertion V} {F : Assertion V}
    (hc : Spec P c fun _ => 1) (hf : ∀ a, Computes F (f a) y S) : Computes (P * F) (c >>= f) y S := by
  refine hc.step_computes fun a => ?_
  rw [one_mul]
  exact hf a

/-- A call whose result is known, next to the cells of `F`. -/
theorem Spec.call_computes {v : α} {f : α → Program V β} {y : Except ε δ} {S : δ → β → Assertion V} {F : Assertion V}
    (hc : Spec P c fun a => Assertion.such (a = v) P') (hf : Computes (P' * F) (f v) y S) :
    Computes (P * F) (c >>= f) y S := by
  refine hc.step_computes fun a => ?_
  rw [such_mul]
  refine Computes.such ?_
  rintro rfl
  exact hf

theorem lift_ok_bind {ε : Type*} (a : α) (f : α → Program V β) : (lift (.ok a : Except ε α) >>= f) = f a := rfl

theorem lift_error_fails {ε : Type*} (P : Assertion V) (e : ε) (f : α → Program V β) :
    Fails P (lift (.error e : Except ε α) >>= f) := Fails.bind (fails_fail P .outside)

/-- What a program needed for its result is given back after it. -/
theorem Computes.cleanup {x : Except ε α} {c' : Program V Unit}
    (hc : Computes P c x fun b a => Assertion.such (a = b) P) (hc' : Spec P c' fun _ => P') :
    Computes P (c >>= fun a => c' >>= fun _ => pure a) x fun b a => Assertion.such (a = b) P' := by
  refine hc.call (fun b a hx => ?_) fun e he => he
  subst hx
  refine Computes.such ?_
  rintro rfl
  exact hc'.bind fun _ => Spec.ret_of_le (le_such rfl le_rfl)

theorem Computes.map (hc : Computes P c x A) (g : γ → δ) {A' : δ → α → Assertion V}
    (hA : ∀ b a, A b a ≤ A' (g b) a) : Computes P c (x >>= fun b => .ok (g b)) A' := by
  cases x with
  | error e => exact hc
  | ok b => exact Spec.post hc (hA b)

end Computes

/-! Functions that a caller passes. -/

/-- `misuse` is a call that the function is not made for, of which nothing is known. -/
inductive Stop
  | misuse
  | fault

def misused {γ : Type} : Except Stop γ → Bool
  | .error .misuse => true
  | _ => false

/-- As `Computes`, for the calls that are no misuse. -/
def Meets {γ : Type} (P : Assertion V) (c : Program V α) (x : Except Stop γ) (Q : γ → α → Assertion V) : Prop :=
  misused x = false → Computes P c x Q

section Callbacks

variable {γ δ S : Type} {x : Except Stop γ} {A : γ → α → Assertion V} {g : γ → Except Stop δ}

theorem misused_left (h : misused (x >>= g) = false) : misused x = false := by
  cases x with
  | error e => cases e with
    | misuse => exact h
    | fault => rfl
  | ok b => rfl

theorem Meets.bind {f : α → Program V β} {T : δ → β → Assertion V} (hc : Meets P c x A)
    (hf : ∀ b a, Meets (A b a) (f a) (g b) T) : Meets P (c >>= f) (x >>= g) T := by
  intro hnot
  refine Computes.bind (hc (misused_left hnot)) fun b a hx => hf b a ?_
  rw [hx] at hnot
  exact hnot

theorem Meets.frame (hc : Meets P c x A) (F : Assertion V) : Meets (P * F) c x fun b a => A b a * F :=
  fun hnot => (hc hnot).frame F

theorem Meets.pre (hc : Meets P c x A) (hP : P' ≤ P) : Meets P' c x A := fun hnot => (hc hnot).pre hP

theorem Meets.post {A' : γ → α → Assertion V} (hc : Meets P c x A) (hA : ∀ b a, A b a ≤ A' b a) : Meets P c x A' :=
  fun hnot => (hc hnot).post hA

theorem Meets.such {φ : Prop} (hc : φ → Meets P c x A) : Meets (such φ P) c x A :=
  fun hnot => Computes.such fun hφ => hc hφ hnot

theorem Meets.any {ι : Type*} {F : ι → Assertion V} (hc : ∀ i, Meets (F i) c x A) : Meets (any F) c x A :=
  fun hnot => Computes.any fun i => hc i hnot

theorem Meets.map (hc : Meets P c x A) (g : γ → δ) {A' : δ → α → Assertion V} (hA : ∀ b a, A b a ≤ A' (g b) a) :
    Meets P c (x >>= fun b => .ok (g b)) A' :=
  fun hnot => (hc (misused_left hnot)).map g hA

theorem Meets.of_map {g : γ → δ} {A : δ → α → Assertion V} (hc : Meets P c (x >>= fun b => .ok (g b)) A) :
    Meets P c x fun b a => A (g b) a := by
  intro hnot
  cases x with
  | error e => exact hc (by cases e <;> exact hnot)
  | ok b => exact hc rfl

theorem Meets.after {f : α → Program V β} {T : γ → β → Assertion V} (hc : Meets P c x A)
    (hf : ∀ b a, Spec (A b a) (f a) (T b)) : Meets P (c >>= f) x T := by
  intro hnot
  cases x with
  | error e => exact Fails.bind (hc hnot)
  | ok b => exact Spec.bind (hc hnot) (hf b)

theorem Spec.bind_meets {f : α → Program V β} {y : Except Stop δ} {T : δ → β → Assertion V} (hc : Spec P c Q)
    (hf : ∀ a, Meets (Q a) (f a) y T) : Meets P (c >>= f) y T :=
  fun hnot => hc.bind_computes fun a => hf a hnot

theorem Spec.acquire_meets {f : α → Program V β} {y : Except Stop δ} {T : δ → β → Assertion V} {F : Assertion V}
    (hc : Spec 1 c Q) (hf : ∀ a, Meets (Q a * F) (f a) y T) : Meets F (c >>= f) y T :=
  fun hnot => hc.acquire_computes fun a => hf a hnot

theorem Spec.call_meets {v : α} {f : α → Program V β} {y : Except Stop δ} {T : δ → β → Assertion V} {F : Assertion V}
    (hc : Spec P c fun a => Assertion.such (a = v) P') (hf : Meets (P' * F) (f v) y T) :
    Meets (P * F) (c >>= f) y T :=
  fun hnot => hc.call_computes (hf hnot)

/-- What a program does to cells that are `I s`, for the arguments in `xs`. -/
def Acts (I : S → Assertion V) (run : Nat → Program V α) (effect : Nat → StateT S (Except Stop) α)
    (xs : List Nat) : Prop :=
  ∀ x ∈ xs, ∀ s, Meets (I s) (run x) (effect x s) fun r a => Assertion.such (a = r.1) (I r.2)

/-- A function of a caller, with what it does to the caller's own cells. -/
structure Callback (I : S → Assertion V) (α : Type) where
  run : Nat → Program V α
  effect : Nat → StateT S (Except Stop) α
  meets : ∀ x s, Meets (I s) (run x) (effect x s) fun r a => Assertion.such (a = r.1) (I r.2)

theorem Callback.acts {I : S → Assertion V} (callback : Callback I α) (xs : List Nat) :
    Acts I callback.run callback.effect xs := fun x _ s => callback.meets x s

/-- A function that looks at no cell. -/
def Callback.ofFun {I : S → Assertion V} (f : Nat → α) : Callback I α where
  run x := pure (f x)
  effect x := pure (f x)
  meets _ _ _ := Spec.ret_of_le (le_such rfl le_rfl)

end Callbacks

end Rules

/-! The cell a program has to itself. -/

section Access

variable {a : Nat} {v v' : V} {R : Assertion V} {h : Cells V}

theorem holds_cell_mul : (cell a v * R).holds h ↔ a ≠ 0 ∧ h a = some v ∧ R.holds (Function.update h a none) := by
  constructor
  · rintro ⟨h₁, h₂, hapart, rfl, ⟨ha, rfl⟩, hR⟩
    have hnone : h₂ a = none := by
      rcases hapart a with hc | hc
      · simp at hc
      · exact hc
    refine ⟨ha, by simp [join], ?_⟩
    have hrest : Function.update (join (Function.update (fun _ => none) a (some v)) h₂) a none = h₂ := by
      funext b
      by_cases hb : b = a
      · rw [hb, Function.update_self, hnone]
      · simp [join, Function.update_of_ne hb]
    rw [hrest]
    exact hR
  · rintro ⟨ha, hv, hR⟩
    refine ⟨_, _, fun b => ?_, ?_, ⟨ha, rfl⟩, hR⟩
    · by_cases hb : b = a
      · exact Or.inr (by rw [hb, Function.update_self])
      · exact Or.inl (by rw [Function.update_of_ne hb])
    · funext b
      by_cases hb : b = a
      · simp [join, hb, hv]
      · simp [join, Function.update_of_ne hb]

theorem cell_le_ne_zero (a : Nat) (v : V) : cell a v ≤ such (a ≠ 0) (cell a v) := fun _ hh => ⟨hh.1, hh⟩

theorem load_spec (a : Nat) (v : V) : Spec (cell a v) (load a) fun r => such (r = v) (cell a v) := by
  intro R h hP
  obtain ⟨-, hv, -⟩ := holds_cell_mul.mp hP
  refine ⟨v, h, by rw [load, hv], ?_⟩
  show (Assertion.such (v = v) (cell a v) * R).holds h.cells
  rw [such_of_true rfl]
  exact hP

theorem store_spec (a : Nat) (v v' : V) : Spec (cell a v) (store a v') fun _ => cell a v' := by
  intro R h hP
  obtain ⟨ha, hv, hR⟩ := holds_cell_mul.mp hP
  have hlive : a ≠ 0 ∧ (h.cells a).isSome := ⟨ha, by rw [hv]; rfl⟩
  refine ⟨(), h.set a ha v', by rw [store, dif_pos hlive], holds_cell_mul.mpr ⟨ha, ?_, ?_⟩⟩
  · exact Function.update_self ..
  · rw [Heap.set, Function.update_idem]
    exact hR

theorem malloc_spec (allocator : Allocator V) (v : V) : Spec 1 (malloc allocator v) fun a => cell a v := by
  intro R h hP
  rw [one_mul] at hP
  have ha := allocator.ne_zero h
  refine ⟨_, _, rfl, holds_cell_mul.mpr ⟨ha, Function.update_self .., ?_⟩⟩
  have hsame : Function.update h.cells (allocator.fresh h) none = h.cells := by
    rw [← allocator.unused h, Function.update_eq_self]
  rw [Heap.set, Function.update_idem, hsame]
  exact hP

theorem free_spec (a : Nat) (v : V) : Spec (cell a v) (free a) fun _ => 1 := by
  intro R h hP
  obtain ⟨ha, hv, hR⟩ := holds_cell_mul.mp hP
  have hlive : (h.cells a).isSome := by
    rw [hv]
    rfl
  refine ⟨(), h.erase a, by rw [free, if_neg ha, if_pos hlive], ?_⟩
  rw [one_mul]
  exact hR

theorem Spec.owned {α : Type} {c : Program V α} {Q : α → Assertion V} (hc : a ≠ 0 → Spec (cell a v * R) c Q) :
    Spec (cell a v * R) c Q :=
  Spec.pre (Spec.such hc) ((mul_le_mul_left (cell_le_ne_zero a v) R).trans_eq (such_mul _ _ _))

def Owns (P : Assertion V) (a : Nat) : Prop := ∀ h, P.holds h → h a ≠ none

theorem owns_cell (a : Nat) (v : V) : Owns (cell a v) a := by
  rintro h ⟨-, rfl⟩
  rw [Function.update_self]
  exact Option.some_ne_none v

theorem Owns.mul {P : Assertion V} (hP : Owns P a) (Q : Assertion V) : Owns (P * Q) a := by
  rintro h ⟨h₁, h₂, -, rfl, hp, -⟩ hnone
  exact hP h₁ hp (Option.or_eq_none_iff.mp hnone).1

theorem Owns.any {ι : Type*} {F : ι → Assertion V} (hF : ∀ i, Owns (F i) a) : Owns (any F) a := by
  rintro h ⟨i, hi⟩
  exact hF i h hi

theorem Owns.not_both {P Q : Assertion V} (hP : Owns P a) (hQ : Owns Q a) : ¬ (P * Q).holds h := by
  rintro ⟨h₁, h₂, hapart, rfl, hp, hq⟩
  rcases hapart a with hn | hn
  · exact hP h₁ hp hn
  · exact hQ h₂ hq hn

theorem Spec.ne_zero {α : Type} {P : Assertion V} {c : Program V α} {Q : α → Assertion V} (hP : Owns P a)
    (hc : a ≠ 0 → Spec P c Q) : Spec P c Q := by
  intro R h hh
  have ha : a ≠ 0 := by
    rintro rfl
    exact hP.mul R h.cells hh h.null
  exact hc ha R h hh

theorem Computes.ne_zero {ε : Type*} {α γ : Type} {P : Assertion V} {c : Program V α} {x : Except ε γ}
    {A : γ → α → Assertion V} (hP : Owns P a) (hc : a ≠ 0 → Computes P c x A) : Computes P c x A := by
  cases x with
  | error e =>
    intro R h hh
    have ha : a ≠ 0 := by
      rintro rfl
      exact hP.mul R h.cells hh h.null
    exact hc ha R h hh
  | ok b => exact Spec.ne_zero hP hc

theorem Meets.owned {α γ : Type} {c : Program V α} {x : Except Stop γ} {A : γ → α → Assertion V}
    (hc : a ≠ 0 → Meets (cell a v * R) c x A) : Meets (cell a v * R) c x A :=
  fun hnot => Computes.ne_zero ((owns_cell a v).mul R) fun ha => hc ha hnot

theorem Spec.apart {α : Type} {P P' : Assertion V} {c : Program V α} {Q : α → Assertion V} {b : Nat} (hP : Owns P a)
    (hP' : Owns P' b) (hc : a ≠ b → Spec (P * P') c Q) : Spec (P * P') c Q := by
  intro R h hh
  have hab : a ≠ b := by
    rintro rfl
    rw [mul_assoc] at hh
    exact hP.not_both (hP'.mul R) hh
  exact hc hab R h hh

/-- A cell that was given back is gone, unless its address is given out again. -/
theorem load_freed {allocator : Allocator V} {h h' h'' : Heap V} {b : Nat} (ha : a ≠ 0)
    (hfree : free a h = .ok ((), h')) (hmalloc : malloc allocator v h' = .ok (b, h'')) (hne : a ≠ b) :
    load a h'' = .error .dangling := by
  rw [free, if_neg ha] at hfree
  split_ifs at hfree
  cases hfree
  cases hmalloc
  have hgone : ((h.erase a).set (allocator.fresh (h.erase a)) (allocator.ne_zero _) v).cells a = none :=
    (Function.update_of_ne hne _ _).trans (Function.update_self ..)
  rw [load, hgone]

end Access

/-! Records at given addresses, each with what it owns. -/

section Records

variable {β : Type*} {D : Nat → Assertion V} {xs : List Nat} {x : Nat}

def each (D : Nat → Assertion V) (xs : List Nat) : Assertion V := (xs.map D).prod

theorem each_nil (D : Nat → Assertion V) : each D [] = 1 := rfl

theorem each_cons (D : Nat → Assertion V) (x : Nat) (xs : List Nat) : each D (x :: xs) = D x * each D xs :=
  List.prod_cons

theorem each_erase (D : Nat → Assertion V) (hx : x ∈ xs) : each D xs = D x * each D (xs.erase x) :=
  (List.prod_map_erase D hx).symm

theorem owns_each (hD : ∀ x, Owns (D x) x) (hx : x ∈ xs) : Owns (each D xs) x := by
  rw [each_erase D hx]
  exact (hD x).mul _

theorem each_congr {D' : Nat → Assertion V} (h : ∀ x ∈ xs, D x = D' x) : each D xs = each D' xs :=
  congrArg List.prod (List.map_congr_left h)

theorem each_mono {D' : Nat → Assertion V} (h : ∀ x, D x ≤ D' x) (xs : List Nat) : each D xs ≤ each D' xs := by
  induction xs with
  | nil => exact le_rfl
  | cons x xs ih =>
    rw [each_cons, each_cons]
    exact mul_le_mul' (h x) ih

theorem not_mem_of_owns {P : Assertion V} {h : Cells V} (hP : Owns P x) (hD : ∀ y, Owns (D y) y)
    (hh : (P * each D xs).holds h) : x ∉ xs := fun hmem => hP.not_both (owns_each hD hmem) hh

theorem each_update (E : Nat → β → Assertion V) (valueOf : Nat → β) (b : β) (hx : x ∉ xs) :
    each (fun y => E y (Function.update valueOf x b y)) xs = each (fun y => E y (valueOf y)) xs :=
  each_congr fun y hy => by rw [Function.update_of_ne (ne_of_mem_of_not_mem hy hx)]

/-- What each record hides, as one function of its address. -/
theorem each_any_le {E : Nat → β → Assertion V} (hE : ∀ x b, Owns (E x b) x) (default : β) (xs : List Nat) :
    each (fun x => any (E x)) xs ≤ any fun valueOf : Nat → β => each (fun x => E x (valueOf x)) xs := by
  induction xs with
  | nil => exact le_any (fun _ => default) le_rfl
  | cons x xs ih =>
    rw [each_cons]
    refine (mul_le_mul_right ih _).trans ?_
    rw [any_mul]
    refine any_le fun b => ?_
    rw [mul_any]
    refine any_le fun valueOf h hh => ⟨Function.update valueOf x b, ?_⟩
    have hx := not_mem_of_owns (hE x b) (fun y => hE y (valueOf y)) hh
    dsimp only
    rw [each_cons, each_update E valueOf b hx, Function.update_self]
    exact hh

/-- The values `bs` are in records at addresses that satisfy `F`. -/
def recorded (E : Nat → β → Assertion V) (F : List Nat → Assertion V) (bs : List β) : Assertion V :=
  any fun xs => any fun valueOf : Nat → β => such (xs.map valueOf = bs) (F xs * each (fun x => E x (valueOf x)) xs)

/-- One more record, at an address that is not among the others. -/
theorem recorded_append {E : Nat → β → Assertion V} (hE : ∀ x b, Owns (E x b) x) (F : List Nat → Assertion V)
    (xs : List Nat) (valueOf : Nat → β) (q : Nat) (b : β) :
    F (xs ++ [q]) * (E q b * each (fun x => E x (valueOf x)) xs) ≤ recorded E F (xs.map valueOf ++ [b]) := by
  intro h hh
  have hq : q ∉ xs := by
    obtain ⟨-, h₂, -, -, -, hrest⟩ := hh
    exact not_mem_of_owns (hE q b) (fun x => hE x (valueOf x)) hrest
  refine ⟨xs ++ [q], Function.update valueOf q b, ?_, ?_⟩
  · have hkept : ∀ x ∈ xs, Function.update valueOf q b x = valueOf x :=
      fun x hx => Function.update_of_ne (ne_of_mem_of_not_mem hx hq) _ _
    rw [List.map_append, List.map_congr_left hkept, List.map_singleton, Function.update_self]
  · have hsplit : each (fun x => E x (Function.update valueOf q b x)) (xs ++ [q]) =
        E q b * each (fun x => E x (valueOf x)) xs := by
      rw [← each_update E valueOf b hq, mul_comm, each, List.map_append, List.prod_append, List.map_singleton,
        List.prod_singleton, Function.update_self]
      rfl
    rw [hsplit]
    exact hh

end Records

/-! How many cells there are. -/

def Sized (P : Assertion V) (n : Nat) : Prop :=
  ∀ h, P.holds h → ∃ s : Finset Nat, s.card = n ∧ ∀ a ∈ s, h a ≠ none

section Sizes

variable {P Q : Assertion V} {n k : Nat}

theorem sized_zero (P : Assertion V) : Sized P 0 := fun _ _ => ⟨∅, rfl, by simp⟩

theorem sized_cell (a : Nat) (v : V) : Sized (cell a v) 1 := by
  rintro h ⟨-, rfl⟩
  refine ⟨{a}, rfl, fun b hb => ?_⟩
  rw [Finset.mem_singleton.mp hb, Function.update_self]
  exact Option.some_ne_none v

theorem Sized.mul (hP : Sized P n) (hQ : Sized Q k) : Sized (P * Q) (n + k) := by
  rintro h ⟨h₁, h₂, hapart, rfl, hp, hq⟩
  obtain ⟨s, rfl, hs⟩ := hP h₁ hp
  obtain ⟨t, rfl, ht⟩ := hQ h₂ hq
  have hdisj : Disjoint s t := by
    rw [Finset.disjoint_left]
    intro a ha hta
    rcases hapart a with hc | hc
    · exact hs a ha hc
    · exact ht a hta hc
  refine ⟨s ∪ t, Finset.card_union_of_disjoint hdisj, fun a ha hnone => ?_⟩
  obtain ⟨h1, h2⟩ := Option.or_eq_none_iff.mp hnone
  rcases Finset.mem_union.mp ha with ha | ha
  · exact hs a ha h1
  · exact ht a ha h2

theorem Sized.any {ι : Type*} {F : ι → Assertion V} (hF : ∀ i, Sized (F i) n) : Sized (any F) n := by
  rintro h ⟨i, hi⟩
  exact hF i h hi

theorem sized_each {D : Nat → Assertion V} (hD : ∀ x, Sized (D x) 1) (xs : List Nat) : Sized (each D xs) xs.length := by
  induction xs with
  | nil => exact sized_zero _
  | cons x xs ih =>
    rw [each_cons, List.length_cons, Nat.add_comm]
    exact (hD x).mul ih

theorem turns_spec (hP : Sized P n) : Spec P turns fun k => such (n < k) P := by
  intro R h hh
  refine ⟨h.bound + 1, h, rfl, ?_⟩
  obtain ⟨s, hcard, hs⟩ := (hP.mul (sized_zero R)) h.cells hh
  have hsub : s ⊆ Finset.range h.bound := by
    intro a ha
    rw [Finset.mem_range]
    by_contra hle
    exact hs a ha (h.beyond a (Nat.le_of_not_lt hle))
  have hle := Finset.card_le_card hsub
  rw [Finset.card_range, hcard] at hle
  show (Assertion.such (n < h.bound + 1) P * R).holds h.cells
  rw [such_of_true (by omega)]
  exact hh

end Sizes

end Programs

end Heaps
