import Mathlib

/-! Stores indexed by addresses, sequences of stores and block copies, and
little-endian words of a byte memory. Nothing here depends on what the
memory holds. -/

namespace ByteStore

section Stores

variable {α β : Type*} [DecidableEq α]

/-- The first `n` stores `m[addr j] := val j`, in increasing order of `j`. -/
def storeSeq (m : α → β) (addr : Nat → α) (val : Nat → β) : Nat → α → β
  | 0 => m
  | n + 1 => Function.update (storeSeq m addr val n) (addr n) (val n)

@[simp] theorem storeSeq_zero (m : α → β) (addr : Nat → α) (val : Nat → β) :
    storeSeq m addr val 0 = m := rfl

theorem storeSeq_succ (m : α → β) (addr : Nat → α) (val : Nat → β) (n : Nat) :
    storeSeq m addr val (n + 1) = Function.update (storeSeq m addr val n) (addr n) (val n) := rfl

theorem foldl_update_range (m : α → β) (addr : Nat → α) (val : Nat → β) (n : Nat) :
    (List.range n).foldl (fun m j => Function.update m (addr j) (val j)) m = storeSeq m addr val n := by
  induction n with
  | zero => rfl
  | succ n ih => simp only [List.range_succ, List.foldl_append, List.foldl_cons, List.foldl_nil, ih, storeSeq_succ]

theorem storeSeq_add (m : α → β) (addr : Nat → α) (val : Nat → β) (n k : Nat) :
    storeSeq m addr val (n + k) =
      storeSeq (storeSeq m addr val n) (fun j => addr (n + j)) (fun j => val (n + j)) k := by
  induction k with
  | zero => rfl
  | succ k ih => rw [← Nat.add_assoc, storeSeq_succ, ih, storeSeq_succ]

theorem storeSeq_congr {m : α → β} {addr addr' : Nat → α} {val val' : Nat → β} {n : Nat}
    (ha : ∀ j < n, addr j = addr' j) (hv : ∀ j < n, val j = val' j) :
    storeSeq m addr val n = storeSeq m addr' val' n := by
  induction n with
  | zero => rfl
  | succ n ih =>
    rw [storeSeq_succ, storeSeq_succ, ha n (by omega), hv n (by omega),
      ih (fun j hj => ha j (by omega)) (fun j hj => hv j (by omega))]

theorem storeSeq_of_ne {m : α → β} {addr : Nat → α} {val : Nat → β} {n : Nat} {a : α}
    (h : ∀ j < n, addr j ≠ a) : storeSeq m addr val n a = m a := by
  induction n with
  | zero => rfl
  | succ n ih =>
    rw [storeSeq_succ, Function.update_of_ne (h n (by omega)).symm]
    exact ih (fun j hj => h j (by omega))

theorem storeSeq_of_last {m : α → β} {addr : Nat → α} {val : Nat → β} {n j : Nat} (hj : j < n)
    (h : ∀ i, j < i → i < n → addr i ≠ addr j) : storeSeq m addr val n (addr j) = val j := by
  obtain ⟨k, rfl⟩ := Nat.exists_eq_add_of_lt hj
  rw [show j + k + 1 = (j + 1) + k by omega, storeSeq_add,
    storeSeq_of_ne (fun i hi => h (j + 1 + i) (by omega) (by omega)), storeSeq_succ,
    Function.update_self]

theorem storeSeq_of_injOn {m : α → β} {addr : Nat → α} {val : Nat → β} {n j : Nat} (hj : j < n)
    (h : Set.InjOn addr (Set.Iio n)) : storeSeq m addr val n (addr j) = val j :=
  storeSeq_of_last hj (fun i hi hin he => absurd (h hin hj he) (by omega))

/-- Stores that copy from an update of the memory reach it with the first that
hits the updated address. -/
theorem storeSeq_update (m : α → β) (addr : Nat → α) (a : α) (v : β) (n : Nat) :
    (storeSeq m addr (fun j => Function.update m a v (addr j)) n = m ∧ ∀ j < n, addr j ≠ a) ∨
      (storeSeq m addr (fun j => Function.update m a v (addr j)) n = Function.update m a v ∧
        ∃ j < n, addr j = a) := by
  induction n with
  | zero => exact Or.inl ⟨rfl, by simp⟩
  | succ n ih =>
    rw [storeSeq_succ]
    by_cases hn : addr n = a
    · refine Or.inr ⟨?_, n, Nat.lt_succ_self n, hn⟩
      rw [hn, Function.update_self]
      rcases ih with ⟨he, -⟩ | ⟨he, -⟩
      · rw [he]
      · rw [he, Function.update_idem]
    · rcases ih with ⟨he, hne⟩ | ⟨he, j, hj, hja⟩
      · refine Or.inl ⟨?_, fun j hj => ?_⟩
        · rw [he, Function.update_of_ne hn, Function.update_eq_self]
        · rcases Nat.lt_succ_iff_lt_or_eq.mp hj with h | rfl
          · exact hne j h
          · exact hn
      · refine Or.inr ⟨?_, j, hj.trans (Nat.lt_succ_self n), hja⟩
        rw [he, Function.update_eq_self]

end Stores

def memcpy {β : Type*} (dst : Nat → β) (d : Nat) (src : Nat → β) (s n : Nat) : Nat → β :=
  fun a => if d ≤ a ∧ a < d + n then src (s + (a - d)) else dst a

theorem memcpy_eq_storeSeq {β : Type*} (dst : Nat → β) (d : Nat) (src : Nat → β) (s n : Nat) :
    memcpy dst d src s n = storeSeq dst (fun j => d + j) (fun j => src (s + j)) n := by
  funext a
  by_cases h : d ≤ a ∧ a < d + n
  · obtain ⟨j, rfl⟩ := Nat.exists_eq_add_of_le h.1
    have hinj : Set.InjOn (fun j => d + j) (Set.Iio n) := fun i _ k _ hik => Nat.add_left_cancel hik
    have hs := (storeSeq_of_injOn (by omega : j < n) hinj : storeSeq dst _ (fun j => src (s + j)) n (d + j) = _)
    rw [hs, memcpy, if_pos h, Nat.add_sub_cancel_left]
  · rw [storeSeq_of_ne (fun j hj he => h (by omega)), memcpy, if_neg h]

theorem memcpy_of_lt {β : Type*} (dst src : Nat → β) (s : Nat) {n j : Nat} (h : j < n) :
    memcpy dst 0 src s n j = src (s + j) := by
  rw [memcpy, if_pos (by omega), Nat.sub_zero]

theorem memcpy_zero {β : Type*} (dst : Nat → β) (d : Nat) (src : Nat → β) (s : Nat) :
    memcpy dst d src s 0 = dst := by
  rw [memcpy_eq_storeSeq, storeSeq_zero]

abbrev Memory := Nat → UInt8

def le16 (m : Memory) (a : Nat) : Nat := (m a).toNat + 256 * (m (a + 1)).toNat

def le32 (m : Memory) (a : Nat) : Nat := le16 m a + 65536 * le16 m (a + 2)

theorem le16_lt (m : Memory) (a : Nat) : le16 m a < 2 ^ 16 := by
  have h := (m a).toNat_lt
  have h' := (m (a + 1)).toNat_lt
  simp only [le16]
  omega

theorem le32_lt (m : Memory) (a : Nat) : le32 m a < 2 ^ 32 := by
  have h := le16_lt m a
  have h' := le16_lt m (a + 2)
  simp only [le32]
  omega

theorem le16_congr {m m' : Memory} {a : Nat} (h : Set.EqOn m m' (Set.Ico a (a + 2))) :
    le16 m a = le16 m' a := by
  rw [le16, le16, h (by simp), h (by simp)]

theorem le32_congr {m m' : Memory} {a : Nat} (h : Set.EqOn m m' (Set.Ico a (a + 4))) :
    le32 m a = le32 m' a := by
  rw [le32, le32, le16_congr (h.mono (Set.Ico_subset_Ico le_rfl (by omega))),
    le16_congr (h.mono (Set.Ico_subset_Ico (by omega) (by omega)))]

def putLe32 (m : Memory) (a v : Nat) : Memory :=
  memcpy m a (fun j => UInt8.ofNat (v / 256 ^ j)) 0 4

theorem eq_zero_of_le16 {m : Memory} {a : Nat} (h : le16 m 0 = 0) (ha : a < 2) : m a = 0 := by
  rw [le16, Nat.zero_add] at h
  have hlow : (m 0).toNat = 0 := by omega
  have hhigh : (m 1).toNat = 0 := by omega
  rcases Nat.lt_succ_iff_lt_or_eq.mp ha with h0 | rfl
  · rw [show a = 0 by omega]
    exact UInt8.toNat_inj.mp hlow
  · exact UInt8.toNat_inj.mp hhigh

theorem le32_mod (m : Memory) (a : Nat) : le32 m a % 2 ^ 16 = le16 m a := by
  have h := le16_lt m a
  simp only [le32]
  omega

theorem le16_putLe32 (m : Memory) (a v : Nat) : le16 (putLe32 m a v) a = v % 2 ^ 16 := by
  have h0 : putLe32 m a v a = UInt8.ofNat v := by
    rw [putLe32, memcpy, if_pos (by omega), Nat.sub_self, Nat.add_zero, pow_zero, Nat.div_one]
  have h1 : putLe32 m a v (a + 1) = UInt8.ofNat (v / 256) := by
    rw [putLe32, memcpy, if_pos (by omega), Nat.add_sub_cancel_left, Nat.zero_add, pow_one]
  rw [le16, h0, h1, UInt8.toNat_ofNat', UInt8.toNat_ofNat']
  omega

def readBytes (m : Memory) (a n : Nat) : List UInt8 := (List.range n).map (fun j => m (a + j))

@[simp] theorem readBytes_length (m : Memory) (a n : Nat) : (readBytes m a n).length = n := by
  simp [readBytes]

theorem readBytes_congr {m m' : Memory} {a n : Nat} (h : Set.EqOn m m' (Set.Ico a (a + n))) :
    readBytes m a n = readBytes m' a n := by
  apply List.map_congr_left
  intro j hj
  have := List.mem_range.mp hj
  exact h ⟨by omega, by omega⟩

theorem readBytes_append (m : Memory) (a n k : Nat) :
    readBytes m a (n + k) = readBytes m a n ++ readBytes m (a + n) k := by
  simp only [readBytes, List.range_add, List.map_append, List.map_map, Function.comp_def, Nat.add_assoc]

theorem readBytes_memcpy (dst src : Memory) (s n : Nat) : readBytes (memcpy dst 0 src s n) 0 n = readBytes src s n := by
  apply List.map_congr_left
  intro j hj
  rw [Nat.zero_add, memcpy_of_lt dst src s (List.mem_range.mp hj)]

/-- The memory with the given little-endian words at the given addresses and
zeros elsewhere; the first entry covering a byte decides it. -/
def ofWords : List (Nat × Nat) → Memory
  | [], _ => 0
  | (w, v) :: rest, a =>
    if w ≤ a ∧ a < w + 4 then UInt8.ofNat (v / 256 ^ (a - w)) else ofWords rest a

end ByteStore
