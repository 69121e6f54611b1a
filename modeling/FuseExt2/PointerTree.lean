import Mathlib

/-! Trees of pointers whose inner nodes all have the same number of children:
their nodes, their leaves from left to right, and the descent to a leaf by the
digits of its number. Nothing here depends on how a node is stored. -/

namespace PointerTree

theorem length_flatMap_range {β : Type*} {f : Nat → List β} {n : Nat} (hlen : ∀ j, (f j).length = n) (m : Nat) :
    ((List.range m).flatMap f).length = m * n := by
  rw [List.length_flatMap, List.map_congr_left (fun j _ => hlen j), List.map_const', List.length_range,
    List.sum_replicate, smul_eq_mul]

theorem getElem?_flatMap_range {β : Type*} {f : Nat → List β} {n : Nat} (hlen : ∀ j, (f j).length = n)
    (m : Nat) {q r : Nat} (hq : q < m) (hr : r < n) : ((List.range m).flatMap f)[q * n + r]? = (f q)[r]? := by
  induction m with
  | zero => exact absurd hq (Nat.not_lt_zero q)
  | succ m ih =>
    rw [List.range_succ, List.flatMap_append, List.flatMap_singleton]
    rcases Nat.lt_succ_iff_lt_or_eq.mp hq with hq | rfl
    · have hle := Nat.mul_le_mul_right n (Nat.succ_le_of_lt hq)
      rw [Nat.succ_mul] at hle
      rw [List.getElem?_append_left (by rw [length_flatMap_range hlen]; omega), ih hq]
    · rw [List.getElem?_append_right (by rw [length_flatMap_range hlen]; omega), length_flatMap_range hlen,
        Nat.add_sub_cancel_left]

theorem pow_pos_of_lt_pow_succ {arity level k : Nat} (hk : k < arity ^ (level + 1)) : 0 < arity ^ level := by
  refine Nat.pos_of_ne_zero fun h => ?_
  rw [Nat.pow_succ, h, Nat.zero_mul] at hk
  exact absurd hk (Nat.not_lt_zero k)

theorem digit_lt {arity level k : Nat} (hk : k < arity ^ (level + 1)) : k / arity ^ level < arity := by
  rw [Nat.div_lt_iff_lt_mul (pow_pos_of_lt_pow_succ hk), ← Nat.pow_succ']
  exact hk

section Tree

variable {α : Type*} (child : α → Nat → α) (arity : Nat)

def nodes : Nat → α → Set α
  | 0, a => {a}
  | level + 1, a => {b | b = a ∨ ∃ j < arity, b ∈ nodes level (child a j)}

def leaves : Nat → α → List α
  | 0, a => [a]
  | level + 1, a => (List.range arity).flatMap fun j => leaves level (child a j)

/-- The leaf whose number has the child indices on the way to it as its digits. -/
def descend : Nat → α → Nat → α
  | 0, a, _ => a
  | level + 1, a, k => descend level (child a (k / arity ^ level)) (k % arity ^ level)

theorem length_leaves (level : Nat) (a : α) : (leaves child arity level a).length = arity ^ level := by
  induction level generalizing a with
  | zero => rfl
  | succ level ih => rw [leaves, length_flatMap_range (fun j => ih (child a j)), Nat.pow_succ']

theorem getElem?_leaves (level : Nat) (a : α) {k : Nat} (hk : k < arity ^ level) :
    (leaves child arity level a)[k]? = some (descend child arity level a k) := by
  induction level generalizing a k with
  | zero =>
    obtain rfl : k = 0 := Nat.lt_one_iff.mp hk
    rfl
  | succ level ih =>
    have hr : k % arity ^ level < arity ^ level := Nat.mod_lt k (pow_pos_of_lt_pow_succ hk)
    have hflat := getElem?_flatMap_range (fun j => length_leaves child arity level (child a j)) arity (digit_lt hk) hr
    rw [Nat.mul_comm, Nat.div_add_mod] at hflat
    rw [leaves, hflat, ih _ hr, descend]

theorem child_subset_nodes {level : Nat} (a : α) {j : Nat} (hj : j < arity) :
    nodes child arity level (child a j) ⊆ nodes child arity (level + 1) a :=
  fun _ hb => Or.inr ⟨j, hj, hb⟩

theorem self_mem_nodes (level : Nat) (a : α) : a ∈ nodes child arity level a := by
  cases level with
  | zero => exact rfl
  | succ level => exact Or.inl rfl

end Tree

end PointerTree
