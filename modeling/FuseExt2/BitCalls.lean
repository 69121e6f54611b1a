import FuseExt2.FreeBlocks
import FuseExt2.WriteHistory

/-! Sequences of calls that set and clean bits: the bytes of a bit array hold a bit
for each index, and each bit is as its latest call leaves it. -/

namespace FuseExt2

open ByteStore WriteHistory

inductive BitCall
  | set (bit : Nat)
  | clean (bit : Nat)

def BitCall.bit : BitCall → Nat
  | .set bit => bit
  | .clean bit => bit

def BitCall.value : BitCall → Bool
  | .set _ => true
  | .clean _ => false

def bitCall (self : Bitarray) (m : Memory) : BitCall → Except Fault Memory
  | .set bit => bitarraySetBit m self bit
  | .clean bit => bitarrayCleanBit m self bit

/-- The value that a call gives to bit `j` of `bits` bits, if any. -/
def BitCall.bitAt (bits : Nat) (call : BitCall) (j : Nat) : Option Bool :=
  if call.bit < bits ∧ call.bit = j then some call.value else none

/-! One call. -/

section Call

variable {m m' : Memory} {bytes index n : Nat} {value : Bool} {call : BitCall}

theorem bitarrayTestBit_eq_arrayBit (m : Memory) (bytes n index : Nat) :
    bitarrayTestBit m ⟨some bytes, n⟩ index = .ok (arrayBit m bytes index) := rfl

theorem arrayBit_eq_bitmapBit (m : Memory) (bytes index : Nat) :
    arrayBit m bytes index = bitmapBit m bytes (mirroredBit index) := by
  have htest : bitarrayTestBit m ⟨some bytes, 0⟩ index = .ok (bitmapBit m bytes (mirroredBit index)) :=
    bitarrayTestBit_eq rfl
  exact Except.ok.inj htest

theorem OnlyBit.arrayBit_eq (h : OnlyBit m m' bytes (mirroredBit index) value) (j : Nat) :
    arrayBit m' bytes j = if j = index then value else arrayBit m bytes j := by
  have hinj : mirroredBit j = mirroredBit index ↔ j = index := by
    simp only [mirroredBit]
    omega
  simp only [arrayBit_eq_bitmapBit, h.1, hinj]

theorem bitarrayGetMaxBit_of_lt (hn : n * 8 < 2 ^ 32) (bytes : Option Nat) : bitarrayGetMaxBit ⟨bytes, n⟩ = n * 8 :=
  Nat.mod_eq_of_lt hn

theorem bitCall_of_le (hn : n * 8 < 2 ^ 32) (bytes : Option Nat) (m : Memory) (hle : n * 8 ≤ call.bit) :
    bitCall ⟨bytes, n⟩ m call = .ok m := by
  have hmax := bitarrayGetMaxBit_of_lt hn bytes
  cases call with
  | set bit => exact if_pos (hmax.trans_le hle)
  | clean bit => exact if_pos (hmax.trans_le hle)

theorem bitCall_onlyBit (hn : n * 8 < 2 ^ 32) (bytes : Nat) (m : Memory) (hlt : call.bit < n * 8) :
    ∃ m', bitCall ⟨some bytes, n⟩ m call = .ok m' ∧ OnlyBit m m' bytes (mirroredBit call.bit) call.value := by
  have hmax := hlt.trans_eq (bitarrayGetMaxBit_of_lt hn (some bytes)).symm
  cases call with
  | set bit => exact bitarraySetBit_onlyBit rfl hmax
  | clean bit => exact bitarrayCleanBit_onlyBit rfl hmax

/-- On the bits a call is the partial overwrite that it describes. -/
theorem bitCall_overwrites (hn : n * 8 < 2 ^ 32) (bytes : Nat) (m : Memory) (call : BitCall) :
    ∃ m', bitCall ⟨some bytes, n⟩ m call = .ok m' ∧ (∀ a < bytes, m' a = m a) ∧
      arrayBit m' bytes = overwrite (BitCall.bitAt (n * 8)) (arrayBit m bytes) call := by
  by_cases hlt : call.bit < n * 8
  · obtain ⟨m', hcall, honly⟩ := bitCall_onlyBit hn bytes m hlt
    refine ⟨m', hcall, honly.2, funext fun j => ?_⟩
    rw [honly.arrayBit_eq, overwrite, BitCall.bitAt]
    by_cases hj : j = call.bit
    · simp [hj, hlt]
    · simp [hj, Ne.symm hj]
  · refine ⟨m, bitCall_of_le hn (some bytes) m (Nat.not_lt.mp hlt), fun a _ => rfl, funext fun j => ?_⟩
    simp [overwrite, BitCall.bitAt, hlt]

end Call

/-! Sequences of calls. -/

/-- The latest call on bit `j` sets it. -/
def LatestSets (calls : List BitCall) (j : Nat) : Prop :=
  ∃ before after, calls = before ++ .set j :: after ∧ ∀ call ∈ after, call.bit ≠ j

theorem BitCall.bitAt_eq_none_iff {bits j : Nat} (hj : j < bits) {call : BitCall} :
    call.bitAt bits j = none ↔ call.bit ≠ j := by
  rw [BitCall.bitAt]
  by_cases he : call.bit = j
  · simp [he, hj]
  · simp [he]

theorem BitCall.bitAt_eq_true_iff {bits j : Nat} (hj : j < bits) {call : BitCall} :
    call.bitAt bits j = some true ↔ call = .set j := by
  cases call with
  | set bit =>
    by_cases he : bit = j
    · simp [BitCall.bitAt, BitCall.bit, BitCall.value, he, hj]
    · simp [BitCall.bitAt, BitCall.bit, he]
  | clean bit => simp [BitCall.bitAt, BitCall.value]

theorem latest_bitAt_eq_true_iff {bits j : Nat} (hj : j < bits) (calls : List BitCall) :
    latest (BitCall.bitAt bits) calls j = some true ↔ LatestSets calls j := by
  simp only [latest_eq_some_iff, BitCall.bitAt_eq_true_iff hj, BitCall.bitAt_eq_none_iff hj, LatestSets]
  constructor
  · intro h
    obtain ⟨before, call, after, hsplit, rfl, hafter⟩ := h
    exact ⟨before, after, hsplit, hafter⟩
  · intro h
    obtain ⟨before, after, hsplit, hafter⟩ := h
    exact ⟨before, .set j, after, hsplit, rfl, hafter⟩

theorem latest_bitAt_eq_none_iff {bits j : Nat} (hj : j < bits) (calls : List BitCall) :
    latest (BitCall.bitAt bits) calls j = none ↔ ∀ call ∈ calls, call.bit ≠ j := by
  simp only [latest_eq_none_iff, BitCall.bitAt_eq_none_iff hj]

theorem run_bitCall {n : Nat} (hn : n * 8 < 2 ^ 32) (bytes : Nat) (m : Memory) (calls : List BitCall) :
    ∃ m', run (bitCall ⟨some bytes, n⟩) m calls = .ok m' ∧ (∀ a < bytes, m' a = m a) ∧
      ∀ j, arrayBit m' bytes j = (latest (BitCall.bitAt (n * 8)) calls j).getD (arrayBit m bytes j) := by
  let store : Memory → Nat → Bool := fun m => arrayBit m bytes
  have hstep : ∀ s call, (∀ a < bytes, s a = m a) → True → ∃ s', bitCall ⟨some bytes, n⟩ s call = .ok s' ∧
      (∀ a < bytes, s' a = m a) ∧ store s' = overwrite (BitCall.bitAt (n * 8)) (store s) call := by
    intro s call hs _
    obtain ⟨s', hcall, hbelow, hbits⟩ := bitCall_overwrites hn bytes s call
    exact ⟨s', hcall, fun a ha => (hbelow a ha).trans (hs a ha), hbits⟩
  exact run_overwrites hstep (fun _ _ => rfl) (fun _ _ => trivial)

/-- What a sequence of calls leaves: a bit is true if its latest call sets it, or if it
was true and no call is on it. -/
def BitsAfter (self : Bitarray) (m m' : Memory) (calls : List BitCall) : Prop :=
  ∀ j < self.size * 8, ∃ b b', bitarrayTestBit m self j = .ok b ∧ bitarrayTestBit m' self j = .ok b' ∧
    (b' = true ↔ LatestSets calls j ∨ (∀ call ∈ calls, call.bit ≠ j) ∧ b = true)

/-- A call past the end changes nothing, and no call another bit than its own, be it in
the array, after it or in the bytes before it. -/
def OwnBitOnly (self : Bitarray) (bytes : Nat) (m : Memory) (call : BitCall) : Prop :=
  ∃ m', bitCall self m call = .ok m' ∧ (self.size * 8 ≤ call.bit → m' = m) ∧
    (∀ j, j ≠ call.bit → bitarrayTestBit m' self j = bitarrayTestBit m self j) ∧ ∀ a < bytes, m' a = m a

theorem bitCall_ownBitOnly {n : Nat} (hn : n * 8 < 2 ^ 32) (bytes : Nat) (m : Memory) (call : BitCall) :
    OwnBitOnly ⟨some bytes, n⟩ bytes m call := by
  by_cases hlt : call.bit < n * 8
  · obtain ⟨m', hcall, honly⟩ := bitCall_onlyBit hn bytes m hlt
    refine ⟨m', hcall, fun hle => absurd hle (Nat.not_le.mpr hlt), fun j hj => ?_, honly.2⟩
    rw [bitarrayTestBit_eq_arrayBit, bitarrayTestBit_eq_arrayBit, honly.arrayBit_eq, if_neg hj]
  · have hcall := bitCall_of_le hn (some bytes) m (Nat.not_lt.mp hlt)
    exact ⟨m, hcall, fun _ => rfl, fun _ _ => rfl, fun _ _ => rfl⟩

theorem run_bitCall_bitsAfter {n : Nat} (hn : n * 8 < 2 ^ 32) (bytes : Nat) (m : Memory) (calls : List BitCall) :
    ∃ m', run (bitCall ⟨some bytes, n⟩) m calls = .ok m' ∧ BitsAfter ⟨some bytes, n⟩ m m' calls := by
  obtain ⟨m', hrun, -, hbits⟩ := run_bitCall hn bytes m calls
  refine ⟨m', hrun, fun j hj => ⟨arrayBit m bytes j, arrayBit m' bytes j, rfl, rfl, ?_⟩⟩
  have hj : j < n * 8 := hj
  rw [hbits, ← latest_bitAt_eq_true_iff hj, ← latest_bitAt_eq_none_iff hj]
  cases latest (BitCall.bitAt (n * 8)) calls j with
  | none => simp
  | some b => simp

/-- The bytes of a bit array refine an array of bits. -/
theorem bitCalls_refine {n : Nat} (hn : n * 8 < 2 ^ 32) (bytes : Nat) (m : Memory) (calls : List BitCall) :
    (∃ m', run (bitCall ⟨some bytes, n⟩) m calls = .ok m' ∧ BitsAfter ⟨some bytes, n⟩ m m' calls) ∧
    ∀ m call, OwnBitOnly ⟨some bytes, n⟩ bytes m call :=
  ⟨run_bitCall_bitsAfter hn bytes m calls, bitCall_ownBitOnly hn bytes⟩

theorem bitCalls_refine_sample :
    (∃ m', run (bitCall ⟨some 3072, 1024⟩) (sampleImage []) [.clean 3, .set 8192, .set 12] = .ok m' ∧
      BitsAfter ⟨some 3072, 1024⟩ (sampleImage []) m' [.clean 3, .set 8192, .set 12]) ∧
    ∀ m call, OwnBitOnly ⟨some 3072, 1024⟩ 3072 m call :=
  bitCalls_refine (by decide) 3072 (sampleImage []) [.clean 3, .set 8192, .set 12]

end FuseExt2
