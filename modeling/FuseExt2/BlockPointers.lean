import FuseExt2.Accesses
import FuseExt2.Lookups

/-! Block numbers past the end of the device: at which lookup of a read, a write, a
listing or a walk the NULL of `ext2_get_block` is used, and when at none. -/

namespace FuseExt2

open ByteStore

/-- The entry of index `i` is found, and its number is that of a block of the device. -/
def BlockFound (fs : Ext2) (node i : Nat) : Prop :=
  (i < 12 ∨ Walkable fs i) ∧ entryValue fs node i % 2 ^ 16 < fs.blockcount

instance (fs : Ext2) (node i : Nat) : Decidable (BlockFound fs node i) := by unfold BlockFound; infer_instance

def blockAddress (fs : Ext2) (node i : Nat) : Nat := entryValue fs node i % 2 ^ 16 * fs.blockSize % 2 ^ 32

/-! One lookup. -/

section Lookup

variable {fs : Ext2} {node i : Nat}

theorem inSlotTable_of_entry (h : i < 12 ∨ Walkable fs i) : InSlotTable fs.entriesPerBlock i := by
  rcases h with h | h
  · exact Or.inl (by omega)
  · exact h.1

theorem ext2FindBlockEntry_error (he : 0 < fs.entriesPerBlock) (level : Nat) {base k : Nat} {fault : Fault}
    (hk : k / fs.entriesPerBlock ^ level < 2 ^ 31) (h : ext2FindBlockEntry fs base (level + 1) k = .error fault) :
    fault = .nullPointer := by
  induction level generalizing base k with
  | zero =>
    have hindex : ¬ 2 ^ 31 ≤ k := by
      rw [pow_zero, Nat.div_one] at hk
      omega
    simp only [ext2FindBlockEntry, Nat.pow_zero, Nat.one_ne_zero, if_false, Nat.div_one, hindex] at h
    cases hb : ext2GetBlock fs k with
    | none =>
      simp only [hb, deref_none] at h
      exact (Except.error.inj h).symm
    | some block =>
      cases hz : ext2GetBlock fs (k - k * 1) with
      | none =>
        simp only [hb, hz, deref_some, deref_none] at h
        exact (Except.error.inj h).symm
      | some first =>
        simp only [hb, hz, deref_some] at h
        cases h
  | succ level ih =>
    have hpos : fs.entriesPerBlock ^ (level + 1) ≠ 0 := (Nat.pow_pos he).ne'
    rw [ext2FindBlockEntry] at h
    simp only [hpos, if_false, Nat.not_le.mpr hk, ← Nat.mod_eq_sub_div_mul] at h
    cases hb : ext2GetBlock fs k with
    | none =>
      simp only [hb, deref_none] at h
      exact (Except.error.inj h).symm
    | some block =>
      simp only [hb, deref_some] at h
      exact ih (nextIndex_lt he level k) h

theorem ext2GetInodeBlockEntry_error (he : 0 < fs.entriesPerBlock) (hi : 12 ≤ i)
    (hin : InSlotTable fs.entriesPerBlock i) {fault : Fault} (h : ext2GetInodeBlockEntry fs node i = .error fault) :
    fault = .nullPointer := by
  obtain ⟨level, hlevel⟩ : ∃ level, slotLevel fs.entriesPerBlock i = level + 1 :=
    Nat.exists_eq_add_one.mpr (slotLevel_bounds fs.entriesPerBlock i).1
  have hlt := lt_of_inSlotTable (entriesPerBlock_lt fs) hin
  rw [ext2GetInodeBlockEntry] at h
  simp only [slotLoop_of_inSlotTable hi hin, indirectionLevel_slotLevel] at h
  rw [hlevel, if_neg (Nat.succ_ne_zero level)] at h
  exact ext2FindBlockEntry_error he level (lt_of_le_of_lt (Nat.div_le_self _ _) hlt) h

theorem ext2GetInodeBlockEntry_null_iff (he : 0 < fs.entriesPerBlock) :
    ext2GetInodeBlockEntry fs node i = .error .nullPointer ↔
      InSlotTable fs.entriesPerBlock i ∧ ¬ (i < 12 ∨ Walkable fs i) := by
  by_cases hi : i < 12
  · rw [ext2GetInodeBlockEntry_direct fs node hi]
    exact iff_of_false (fun h => by cases h) (fun h => h.2 (Or.inl hi))
  · by_cases hin : InSlotTable fs.entriesPerBlock i
    · have hok : ∀ n, ext2GetInodeBlockEntry fs node i = .ok n ↔ Walkable fs i ∧ n = le32 fs.device 0 :=
        fun n => ext2GetInodeBlockEntry_indirect he node (by omega)
      simp only [hin, hi, false_or, true_and]
      constructor
      · intro h hw
        cases h.symm.trans ((hok _).mpr ⟨hw, rfl⟩)
      · intro hw
        cases hentry : ext2GetInodeBlockEntry fs node i with
        | ok n => exact absurd ((hok n).mp hentry).1 hw
        | error fault => rw [ext2GetInodeBlockEntry_error he (by omega) hin hentry]
    · refine iff_of_false (fun h => ?_) (fun h => hin h.1)
      rw [ext2GetInodeBlockEntry] at h
      rcases slotLoop_of_not_inSlotTable hin with hs | hs
      · simp only [hs] at h
        cases h
      · simp only [hs, show EXT2_INODES_INDIRECTION_LEVEL[15]? = none from rfl] at h
        cases h

theorem dataToCopy_eq_ok_iff (he : 0 < fs.entriesPerBlock) {a : Nat} :
    dataToCopy fs node i = .ok a ↔ BlockFound fs node (i % 2 ^ 32) ∧ a = blockAddress fs node (i % 2 ^ 32) := by
  rw [dataToCopy, BlockFound]
  cases hentry : ext2GetInodeBlockEntry fs node (i % 2 ^ 32) with
  | error fault =>
    refine iff_of_false (fun h => by cases h) (fun h => ?_)
    cases hentry.symm.trans ((ext2GetInodeBlockEntry_eq_ok_iff he).mpr ⟨h.1.1, rfl⟩)
  | ok n =>
    obtain ⟨hfound, rfl⟩ := (ext2GetInodeBlockEntry_eq_ok_iff he).mp hentry
    simp only [hfound, true_and]
    by_cases hlt : entryValue fs node (i % 2 ^ 32) % 2 ^ 16 < fs.blockcount
    · simp only [ext2GetBlock_of_mod_lt hlt, deref_some, Except.ok.injEq, hlt, true_and, blockAddress, eq_comm]
    · simp only [ext2GetBlock_of_le hlt, deref_none, hlt, false_and, iff_false]
      exact fun h => by cases h

theorem dataToCopy_null_iff (he : 0 < fs.entriesPerBlock) :
    dataToCopy fs node i = .error .nullPointer ↔
      InSlotTable fs.entriesPerBlock (i % 2 ^ 32) ∧ ¬ BlockFound fs node (i % 2 ^ 32) := by
  have hnull : ext2GetInodeBlockEntry fs node (i % 2 ^ 32) = .error .nullPointer ↔ _ :=
    ext2GetInodeBlockEntry_null_iff he
  rw [dataToCopy, BlockFound]
  cases hentry : ext2GetInodeBlockEntry fs node (i % 2 ^ 32) with
  | error fault =>
    have hnot : ¬ (i % 2 ^ 32 < 12 ∨ Walkable fs (i % 2 ^ 32)) := by
      intro h
      cases hentry.symm.trans ((ext2GetInodeBlockEntry_eq_ok_iff he).mpr ⟨h, rfl⟩)
    rw [hentry] at hnull
    simp only [hnot, not_false_eq_true, and_true, false_and] at hnull ⊢
    exact hnull
  | ok n =>
    obtain ⟨hfound, rfl⟩ := (ext2GetInodeBlockEntry_eq_ok_iff he).mp hentry
    have hin := inSlotTable_of_entry hfound
    simp only [hfound, hin, true_and]
    by_cases hlt : entryValue fs node (i % 2 ^ 32) % 2 ^ 16 < fs.blockcount
    · simp only [ext2GetBlock_of_mod_lt hlt, deref_some, hlt, not_true_eq_false, iff_false]
      exact fun h => by cases h
    · simp only [ext2GetBlock_of_le hlt, deref_none, hlt, not_false_eq_true]

end Lookup

/-! The first lookup that fails. -/

/-- The run ends at the first step without a block. It never ends with NULL exactly if
each step has its block, as long as the steps are in the table. -/
theorem not_exists_first_null_iff {needed table found : Nat → Prop} (hneeded : ∀ t, needed (t + 1) → needed t)
    (htable : ∀ t, found t → table t) :
    (¬ ∃ t, needed t ∧ (table t ∧ ¬ found t) ∧ ∀ s < t, found s) ↔
      ∀ t, needed t → (∀ s ≤ t, table s) → found t := by
  constructor
  · intro h t
    -- the steps before a step without a block have theirs
    induction t using Nat.strong_induction_on with
    | _ t ih =>
      intro ht hin
      have hdown : ∀ s ≤ t, needed s := fun s hs => Nat.decreasingInduction (fun n _ hn => hneeded n hn) ht hs
      have hbefore : ∀ s < t, found s :=
        fun s hs => ih s hs (hdown s hs.le) fun r hr => hin r (hr.trans hs.le)
      by_contra hnot
      exact h ⟨t, ht, ⟨hin t le_rfl, hnot⟩, hbefore⟩
  · intro h hex
    obtain ⟨t, ht, ⟨hin, hnot⟩, hbefore⟩ := hex
    refine hnot (h t ht fun s hs => ?_)
    rcases Nat.lt_or_eq_of_le hs with hlt | rfl
    · exact htable s (hbefore s hlt)
    · exact hin

/-- After step `t` a needed step meets NULL, and the ones in between are found. -/
def NullAfter (needed null found : Nat → Prop) (t : Nat) : Prop :=
  ∃ s, t < s ∧ needed s ∧ null s ∧ ∀ r, t < r → r < s → found r

/-- The outcome of the lookup of a step: NULL, a block, or another fault. -/
structure LookupOutcome (outcome : Except Fault Nat) (null found : Prop) : Prop where
  null_iff : outcome = .error .nullPointer ↔ null
  found_iff : (∃ a, outcome = .ok a) ↔ found

section NullAfter

variable {needed null found : Nat → Prop} {t : Nat} {outcome : Except Fault Nat}

theorem nullAfter_iff (hn : needed (t + 1)) (h : LookupOutcome outcome (null (t + 1)) (found (t + 1))) :
    NullAfter needed null found t ↔
      outcome = .error .nullPointer ∨ (∃ a, outcome = .ok a) ∧ NullAfter needed null found (t + 1) := by
  rw [h.null_iff, h.found_iff]
  constructor
  · intro hafter
    obtain ⟨s, hs, hns, hnull, hbetween⟩ := hafter
    rcases Nat.eq_or_lt_of_le (Nat.succ_le_of_lt hs) with rfl | hlt
    · exact Or.inl hnull
    · exact Or.inr ⟨hbetween (t + 1) (by omega) hlt, s, hlt, hns, hnull, fun r h1 h2 => hbetween r (by omega) h2⟩
  · intro hcase
    rcases hcase with hnull | ⟨hfound, s, hs, hns, hnull, hbetween⟩
    · exact ⟨t + 1, Nat.lt_succ_self t, hn, hnull, fun r h1 h2 => absurd h2 (by omega)⟩
    · refine ⟨s, by omega, hns, hnull, fun r h1 h2 => ?_⟩
      rcases Nat.eq_or_lt_of_le (Nat.succ_le_of_lt h1) with rfl | hlt
      · exact hfound
      · exact hbetween r hlt h2

theorem exists_null_iff_nullAfter (hn : needed 0) (h : LookupOutcome outcome (null 0) (found 0)) :
    (∃ t, needed t ∧ null t ∧ ∀ s < t, found s) ↔
      outcome = .error .nullPointer ∨ (∃ a, outcome = .ok a) ∧ NullAfter needed null found 0 := by
  rw [h.null_iff, h.found_iff]
  constructor
  · intro hex
    obtain ⟨t, hnt, hnull, hbefore⟩ := hex
    rcases Nat.eq_zero_or_pos t with rfl | ht
    · exact Or.inl hnull
    · exact Or.inr ⟨hbefore 0 ht, t, ht, hnt, hnull, fun r _ hr => hbefore r hr⟩
  · intro hcase
    rcases hcase with hnull | ⟨hfound, t, ht, hnt, hnull, hbetween⟩
    · exact ⟨0, hn, hnull, fun s hs => absurd hs (Nat.not_lt_zero s)⟩
    · refine ⟨t, hnt, hnull, fun s hs => ?_⟩
      rcases Nat.eq_zero_or_pos s with rfl | hpos
      · exact hfound
      · exact hbetween s hpos hs

end NullAfter

/-- Block `t` of a copy from `offset` on is looked up if every block before it is found. -/
def Needed (fs : Ext2) (offset size t : Nat) : Prop :=
  t = 0 ∨ (offset / fs.blockSize + t) * fs.blockSize < offset + size

theorem needed_of_succ (fs : Ext2) (offset size t : Nat) (h : Needed fs offset size (t + 1)) :
    Needed fs offset size t := by
  rcases h with h | h
  · exact absurd h (Nat.succ_ne_zero t)
  · rw [← Nat.add_assoc, Nat.succ_mul] at h
    exact Or.inr (by omega)

theorem not_nullAfter_end {fs : Ext2} {offset size t n chunk : Nat} {null found : Nat → Prop}
    (hc : ChunkAt fs offset size (offset / fs.blockSize + t) n chunk) (hge : ¬ n + chunk < size) :
    ¬ NullAfter (Needed fs offset size) null found t := by
  intro h
  obtain ⟨s, hs, hneeded, -, -⟩ := h
  have hend := hc.end hge
  have hupper := hc.end_le
  have hle := Nat.mul_le_mul_right fs.blockSize
    (show offset / fs.blockSize + t + 1 ≤ offset / fs.blockSize + s by omega)
  rw [Nat.succ_mul] at hle
  rcases hneeded with rfl | hneeded <;> omega

/-- The block index of step `t`, cut to the 32 bits of the parameter. -/
def stepIndex (fs : Ext2) (offset t : Nat) : Nat := (offset / fs.blockSize + t) % 2 ^ 32

def LookupNull (fs : Ext2) (inode i : Nat) : Prop := InSlotTable fs.entriesPerBlock i ∧ ¬ BlockFound fs inode i

theorem dataToCopy_outcome {fs : Ext2} (he : 0 < fs.entriesPerBlock) (inode i : Nat) :
    LookupOutcome (dataToCopy fs inode i) (LookupNull fs inode (i % 2 ^ 32)) (BlockFound fs inode (i % 2 ^ 32)) where
  null_iff := dataToCopy_null_iff he
  found_iff := by
    simp only [dataToCopy_eq_ok_iff he, exists_and_left, exists_eq, and_true]

/-! Reads. -/

theorem readLoop_null_iff {fs : Ext2} (he : 0 < fs.entriesPerBlock) (inode : Nat) {offset size : Nat} (fuel t : Nat)
    {n chunk : Nat} (data : Nat) (buff : Memory) (hc : ChunkAt fs offset size (offset / fs.blockSize + t) n chunk)
    (hfuel : size - n < fuel) :
    readLoop fs inode size fuel (offset / fs.blockSize + t) n data chunk buff = .error .nullPointer ↔
      NullAfter (Needed fs offset size) (fun s => LookupNull fs inode (stepIndex fs offset s))
        (fun s => BlockFound fs inode (stepIndex fs offset s)) t := by
  induction fuel generalizing t n chunk data buff with
  | zero => omega
  | succ fuel ih =>
    rw [readLoop]
    by_cases hlt : n + chunk < size
    · have hnext := hc.next hlt
      have hstart := hc.boundary hlt
      have hpos := hc.pos (by omega)
      rw [Nat.add_assoc] at hnext hstart ⊢
      have hneeded : Needed fs offset size (t + 1) := Or.inr (by omega)
      rw [nullAfter_iff hneeded (dataToCopy_outcome he inode (offset / fs.blockSize + (t + 1)))]
      simp only [if_pos hlt]
      cases hd : dataToCopy fs inode (offset / fs.blockSize + (t + 1)) with
      | error fault => simp
      | ok data' =>
        have hrest := ih (t + 1) data' (memcpy buff n fs.device data chunk) hnext (by omega)
        simpa using hrest
    · simp only [if_neg hlt]
      exact iff_of_false (fun h => by cases h) (not_nullAfter_end hc hlt)

theorem read_null_iff {fs : Ext2} (he : 0 < fs.entriesPerBlock) (inode offset size : Nat) (buff : Memory) :
    ext2ReadInodeData fs inode offset size buff = .error .nullPointer ↔
      ∃ t, Needed fs offset size t ∧ LookupNull fs inode (stepIndex fs offset t) ∧
        ∀ s < t, BlockFound fs inode (stepIndex fs offset s) := by
  have hbs : 0 < fs.blockSize := Nat.zero_lt_of_lt (four_le_blockSize he)
  have houtcome := dataToCopy_outcome he inode (offset / fs.blockSize)
  rw [exists_null_iff_nullAfter (Or.inl rfl) houtcome, ext2ReadInodeData, if_neg hbs.ne']
  cases hd : dataToCopy fs inode (offset / fs.blockSize) with
  | error fault => simp [hd]
  | ok block =>
    have hrest := readLoop_null_iff he inode (size + 1) 0 (block + (offset - offset / fs.blockSize * fs.blockSize)) buff
      (ChunkAt.first hbs offset size) (by omega)
    simpa [hd] using hrest

/-- The lookups of a read all end with a block, as far as they are in the table. -/
def ReadInRange (fs : Ext2) (inode offset size : Nat) : Prop :=
  ∀ t, Needed fs offset size t → (∀ s ≤ t, InSlotTable fs.entriesPerBlock (stepIndex fs offset s)) →
    BlockFound fs inode (stepIndex fs offset t)

theorem read_ne_null_iff {fs : Ext2} (he : 0 < fs.entriesPerBlock) (inode offset size : Nat) (buff : Memory) :
    ext2ReadInodeData fs inode offset size buff ≠ .error .nullPointer ↔ ReadInRange fs inode offset size := by
  have hfirst := not_exists_first_null_iff (needed_of_succ fs offset size)
    (fun t (h : BlockFound fs inode (stepIndex fs offset t)) => inSlotTable_of_entry h.1)
  rw [ne_eq, read_null_iff he]
  exact hfirst

/-! Writes. -/

def copiedBefore (fs : Ext2) (offset t : Nat) : Nat := (offset / fs.blockSize + t) * fs.blockSize - offset

def chunkInside (fs : Ext2) (offset t : Nat) : Nat :=
  offset + copiedBefore fs offset t - (offset / fs.blockSize + t) * fs.blockSize

def chunkLength (fs : Ext2) (offset size t : Nat) : Nat :=
  min (fs.blockSize - chunkInside fs offset t) (size - copiedBefore fs offset t)

/-- The device at the lookup of step `t`, when each chunk before it is stored in the
block that the device of its own step gives. -/
def storedBefore (fs : Ext2) (inode : Nat) (buff : Memory) (offset size : Nat) (device : Memory) : Nat → Memory
  | 0 => device
  | t + 1 =>
    let stored := storedBefore fs inode buff offset size device t
    memcpy stored (blockAddress (fs.withDevice stored) inode (stepIndex fs offset t) + chunkInside fs offset t) buff
      (copiedBefore fs offset t) (chunkLength fs offset size t)

/-- The lookups of a write all end with a block of the device as it is by then. -/
def WriteInRange (fs : Ext2) (inode : Nat) (buff : Memory) (offset size : Nat) (device : Memory) : Prop :=
  ∀ t, Needed fs offset size t → (∀ s ≤ t, InSlotTable fs.entriesPerBlock (stepIndex fs offset s)) →
    BlockFound (fs.withDevice (storedBefore fs inode buff offset size device t)) inode (stepIndex fs offset t)

theorem ChunkAt.chunk_eq_chunkLength {fs : Ext2} {offset size t n chunk : Nat}
    (hc : ChunkAt fs offset size (offset / fs.blockSize + t) n chunk) (hn : n = copiedBefore fs offset t) :
    chunk = chunkLength fs offset size t := by
  have hl := hc.lower
  rw [hc.chunk_eq, chunkLength, chunkInside, ← hn]
  congr 1
  omega

theorem writeLoop_null_iff {fs : Ext2} (he : 0 < fs.entriesPerBlock) (inode : Nat) (buff : Memory) {offset size : Nat}
    (start : Memory) (fuel t : Nat) {n chunk : Nat} {device : Memory} {data : Nat}
    (hc : ChunkAt fs offset size (offset / fs.blockSize + t) n chunk) (hn : n = copiedBefore fs offset t)
    (hdevice : device = storedBefore fs inode buff offset size start t)
    (hdata : data = blockAddress (fs.withDevice device) inode (stepIndex fs offset t) + chunkInside fs offset t)
    (hfuel : size - n < fuel) :
    (writeLoop fs inode buff size fuel (offset / fs.blockSize + t) n data chunk device).1 = .error .nullPointer ↔
      NullAfter (Needed fs offset size)
        (fun s => LookupNull (fs.withDevice (storedBefore fs inode buff offset size start s)) inode
          (stepIndex fs offset s))
        (fun s => BlockFound (fs.withDevice (storedBefore fs inode buff offset size start s)) inode
          (stepIndex fs offset s)) t := by
  induction fuel generalizing t n chunk device data with
  | zero => omega
  | succ fuel ih =>
    rw [writeLoop]
    by_cases hlt : n + chunk < size
    · have hnext := hc.next hlt
      have hstart := hc.boundary hlt
      have hpos := hc.pos (by omega)
      rw [Nat.add_assoc] at hnext hstart ⊢
      have hneeded : Needed fs offset size (t + 1) := Or.inr (by omega)
      have hstored : memcpy device data buff n chunk = storedBefore fs inode buff offset size start (t + 1) := by
        rw [storedBefore, hdata, hc.chunk_eq_chunkLength hn, hn, hdevice]
      have hcopied : n + chunk = copiedBefore fs offset (t + 1) := by
        rw [copiedBefore]
        omega
      have hinside : chunkInside fs offset (t + 1) = 0 := by
        rw [chunkInside, ← hcopied]
        omega
      have he' : 0 < (fs.withDevice (storedBefore fs inode buff offset size start (t + 1))).entriesPerBlock := he
      rw [nullAfter_iff hneeded (dataToCopy_outcome he' inode (offset / fs.blockSize + (t + 1)))]
      simp only [if_pos hlt, hstored]
      cases hd : dataToCopy (fs.withDevice (storedBefore fs inode buff offset size start (t + 1))) inode
          (offset / fs.blockSize + (t + 1)) with
      | error fault => simp
      | ok data' =>
        have hdata' : data' = blockAddress
            (fs.withDevice (storedBefore fs inode buff offset size start (t + 1))) inode (stepIndex fs offset (t + 1)) +
              chunkInside fs offset (t + 1) := by
          rw [hinside, Nat.add_zero]
          exact ((dataToCopy_eq_ok_iff he').mp hd).2
        have hrest := ih (t + 1) hnext hcopied rfl hdata' (by omega)
        simpa using hrest
    · simp only [if_neg hlt]
      exact iff_of_false (fun h => by cases h) (not_nullAfter_end hc hlt)

/-- The resize of the file returns, and a lookup after it ends with NULL. -/
def WriteMeetsNull (calls : ClusterCalls) (fs : Ext2) (inode : Nat) (buff : Memory) (offset size : Nat) : Prop :=
  (resizedFor calls fs inode (offset + size)).1 = .ok () ∧
    (ext2WriteInodeData calls fs inode buff offset size).1 = .error .nullPointer

theorem write_null_iff (calls : ClusterCalls) {fs : Ext2} (he : 0 < fs.entriesPerBlock) (inode : Nat) (buff : Memory)
    (offset size : Nat) {device : Memory} (hresized : resizedFor calls fs inode (offset + size) = (.ok (), device)) :
    (ext2WriteInodeData calls fs inode buff offset size).1 = .error .nullPointer ↔
      ∃ t, Needed fs offset size t ∧
        LookupNull (fs.withDevice (storedBefore fs inode buff offset size device t)) inode (stepIndex fs offset t) ∧
        ∀ s < t, BlockFound (fs.withDevice (storedBefore fs inode buff offset size device s)) inode
          (stepIndex fs offset s) := by
  have hbs : 0 < fs.blockSize := Nat.zero_lt_of_lt (four_le_blockSize he)
  have he' : 0 < (fs.withDevice device).entriesPerBlock := he
  have hcopied : copiedBefore fs offset 0 = 0 := by
    rw [copiedBefore, Nat.add_zero, Nat.sub_eq_zero_of_le (Nat.div_mul_le_self _ _)]
  have hinside : chunkInside fs offset 0 = offset - offset / fs.blockSize * fs.blockSize := by
    rw [chunkInside, hcopied]
    rfl
  rw [exists_null_iff_nullAfter (Or.inl rfl) (dataToCopy_outcome he' inode (offset / fs.blockSize)),
    ext2WriteInodeData, if_neg hbs.ne', ← resizedFor, hresized]
  cases hd : dataToCopy (fs.withDevice device) inode (offset / fs.blockSize) with
  | error fault => simp [hd]
  | ok block =>
    have hdata : block + (offset - offset / fs.blockSize * fs.blockSize) =
        blockAddress (fs.withDevice device) inode (stepIndex fs offset 0) + chunkInside fs offset 0 := by
      rw [hinside, ((dataToCopy_eq_ok_iff he').mp hd).2]
      rfl
    have hrest := writeLoop_null_iff he inode buff device (size + 1) 0 (ChunkAt.first hbs offset size) hcopied.symm rfl
      hdata (by omega)
    simpa [hd, storedBefore] using hrest

theorem write_meetsNull_iff (calls : ClusterCalls) {fs : Ext2} (he : 0 < fs.entriesPerBlock) (inode : Nat)
    (buff : Memory) (offset size : Nat) :
    ¬ WriteMeetsNull calls fs inode buff offset size ↔
      ∀ device, resizedFor calls fs inode (offset + size) = (.ok (), device) →
        WriteInRange fs inode buff offset size device := by
  have hiff : ∀ device, resizedFor calls fs inode (offset + size) = (.ok (), device) →
      (¬ (ext2WriteInodeData calls fs inode buff offset size).1 = .error .nullPointer ↔
        WriteInRange fs inode buff offset size device) := by
    intro device hresized
    have hfirst := not_exists_first_null_iff (needed_of_succ fs offset size)
      (fun t (h : BlockFound (fs.withDevice (storedBefore fs inode buff offset size device t)) inode
        (stepIndex fs offset t)) => inSlotTable_of_entry h.1)
    rw [write_null_iff calls he inode buff offset size hresized]
    exact hfirst
  rw [WriteMeetsNull, not_and]
  constructor
  · intro h device hresized
    exact (hiff device hresized).mp (h (by rw [hresized]))
  · intro h hok
    have hresized : resizedFor calls fs inode (offset + size) =
        (.ok (), (resizedFor calls fs inode (offset + size)).2) := Prod.ext hok rfl
    exact (hiff _ hresized).mpr (h _ hresized)

/-! Listings and walks. -/

def SlotMeetsNull (fs : Ext2) (root i : Nat) : Prop :=
  ext2GetInodeBlockEntry fs root i = .error .nullPointer ∨
    ∃ n, ext2GetInodeBlockEntry fs root i = .ok n ∧ n ≠ 0 ∧ ext2GetBlock fs n = none

/-- An absent block has number 0. -/
def SlotInRange (fs : Ext2) (root i : Nat) : Prop :=
  (i < 12 ∨ Walkable fs i) ∧ (entryValue fs root i ≠ 0 → entryValue fs root i % 2 ^ 16 < fs.blockcount)

theorem ext2GetBlock_eq_none_iff {fs : Ext2} {n : Nat} : ext2GetBlock fs n = none ↔ ¬ n % 2 ^ 16 < fs.blockcount := by
  constructor
  · intro h hlt
    rw [ext2GetBlock_of_mod_lt hlt] at h
    cases h
  · exact ext2GetBlock_of_le

theorem slotMeetsNull_iff {fs : Ext2} (he : 0 < fs.entriesPerBlock) (root i : Nat) :
    SlotMeetsNull fs root i ↔ InSlotTable fs.entriesPerBlock i ∧ ¬ SlotInRange fs root i := by
  rw [SlotMeetsNull, SlotInRange, ext2GetInodeBlockEntry_null_iff he]
  simp only [ext2GetInodeBlockEntry_eq_ok_iff he, ext2GetBlock_eq_none_iff]
  by_cases hfound : i < 12 ∨ Walkable fs i
  · have hin := inSlotTable_of_entry hfound
    simp only [hfound, hin, not_true_eq_false, and_false, true_and, false_or, exists_eq_left, Classical.not_imp]
  · simp only [hfound, not_false_eq_true, and_true, false_and, exists_false, or_false]

def ListMeetsNull (fs : Ext2) (root : Nat) : Prop :=
  inodeHasModeFlag fs.device root EXT2_IFDIR = true ∧ shl32 2 fs.logBlockSize ≠ 0 ∧
    ∃ i < listedBlocks fs root, (∃ list, listInodeLoop fs root i 0 [] = .ok list) ∧ SlotMeetsNull fs root i

def ListInRange (fs : Ext2) (root : Nat) : Prop :=
  inodeHasModeFlag fs.device root EXT2_IFDIR = true → shl32 2 fs.logBlockSize ≠ 0 →
    ∀ i < listedBlocks fs root, (∀ j < i, SlotParses fs root j) → InSlotTable fs.entriesPerBlock i →
      SlotInRange fs root i

theorem list_meetsNull_iff {fs : Ext2} (he : 0 < fs.entriesPerBlock) (root : Nat) :
    ¬ ListMeetsNull fs root ↔ ListInRange fs root := by
  have hbs : 0 < fs.blockSize := Nat.zero_lt_of_lt (four_le_blockSize he)
  have hlisted : ∀ i, (∃ list, listInodeLoop fs root i 0 [] = .ok list) ↔ ∀ j < i, SlotParses fs root j := by
    intro i
    have h := exists_listInodeLoop_iff hbs root i 0 []
    simpa using h
  simp only [ListMeetsNull, ListInRange, hlisted, slotMeetsNull_iff he, not_and, not_exists, not_not]

/-- The walk uses the NULL at one of its levels; at the first one the subscript may
be negative besides. -/
def FindMeetsNull (fs : Ext2) (baseBlock level entryIndex : Nat) : Prop :=
  ext2GetBlock fs entryIndex = none ∨ ext2FindBlockEntry fs baseBlock level entryIndex = .error .nullPointer

def FindInRange (fs : Ext2) : Nat → Nat → Prop
  | 0, k => k % 2 ^ 16 < fs.blockcount
  | level + 1, k => k % 2 ^ 16 < fs.blockcount ∧ (k / fs.entriesPerBlock ^ level < 2 ^ 31 →
      ∀ b ∈ blocksLoaded fs.entriesPerBlock (level + 1) k, b % 2 ^ 16 < fs.blockcount)

theorem find_meetsNull_iff {fs : Ext2} (he : 0 < fs.entriesPerBlock) (base level k : Nat) :
    ¬ FindMeetsNull fs base level k ↔ FindInRange fs level k := by
  rw [FindMeetsNull, not_or, ext2GetBlock_eq_none_iff, not_not]
  cases level with
  | zero =>
    refine and_iff_left_of_imp fun hlt h => ?_
    simp only [ext2FindBlockEntry, ext2GetBlock_of_mod_lt hlt, deref_some] at h
    cases h
  | succ level =>
    refine and_congr_right fun _ => ?_
    by_cases hk : k / fs.entriesPerBlock ^ level < 2 ^ 31
    · have hok : ∀ n, ext2FindBlockEntry fs base (level + 1) k = .ok n ↔ _ :=
        fun n => ext2FindBlockEntry_eq_ok_iff_of_div he level hk
      simp only [hk, forall_const]
      constructor
      · intro h
        cases hwalk : ext2FindBlockEntry fs base (level + 1) k with
        | ok n => exact ((hok n).mp hwalk).1
        | error fault => exact absurd (ext2FindBlockEntry_error he level hk hwalk ▸ hwalk) h
      · intro h hnull
        cases hnull.symm.trans ((hok _).mpr ⟨h, rfl⟩)
    · have hpos : fs.entriesPerBlock ^ level ≠ 0 := (Nat.pow_pos he).ne'
      refine iff_of_true (fun h => ?_) (fun h => absurd h hk)
      rw [ext2FindBlockEntry] at h
      simp only [hpos, if_false, if_pos (Nat.not_lt.mp hk)] at h
      cases h

/-! All of them. -/

inductive BlockOperation
  | read (inode offset size : Nat) (buff : Memory)
  | write (inode : Nat) (buff : Memory) (offset size : Nat)
  | list (root : Nat)
  | find (baseBlock baseBlockLevel entryIndex : Nat)

def BlockOperation.MeetsNull (calls : ClusterCalls) (fs : Ext2) : BlockOperation → Prop
  | .read inode offset size buff => ext2ReadInodeData fs inode offset size buff = .error .nullPointer
  | .write inode buff offset size => WriteMeetsNull calls fs inode buff offset size
  | .list root => ListMeetsNull fs root
  | .find baseBlock level entryIndex => FindMeetsNull fs baseBlock level entryIndex

def BlockOperation.InRange (calls : ClusterCalls) (fs : Ext2) : BlockOperation → Prop
  | .read inode offset size _ => ReadInRange fs inode offset size
  | .write inode buff offset size => ∀ device, resizedFor calls fs inode (offset + size) = (.ok (), device) →
      WriteInRange fs inode buff offset size device
  | .list root => ListInRange fs root
  | .find _ level entryIndex => FindInRange fs level entryIndex

def BlockOperation.Returns (calls : ClusterCalls) (fs : Ext2) : BlockOperation → Prop
  | .read inode offset size buff => ∃ out, ext2ReadInodeData fs inode offset size buff = .ok out
  | .write inode buff offset size => (ext2WriteInodeData calls fs inode buff offset size).1 = .ok ()
  | .list root => ∃ list, ext2ListInode fs root = .ok list
  | .find baseBlock level entryIndex => ∃ n, ext2FindBlockEntry fs baseBlock level entryIndex = .ok n

theorem slotMeetsNull_not_slotParses {fs : Ext2} {root i : Nat} (h : SlotMeetsNull fs root i) :
    ¬ SlotParses fs root i := by
  intro hparses
  obtain ⟨n, hentry, hblock⟩ := hparses
  rcases h with hnull | ⟨n', hentry', hne, hnone⟩
  · cases hnull.symm.trans hentry
  · obtain rfl := Except.ok.inj (hentry.symm.trans hentry')
    obtain ⟨block, hsome, -⟩ := hblock hne
    cases hnone.symm.trans hsome

/-- After the NULL there is no result. -/
theorem BlockOperation.MeetsNull.not_returns {calls : ClusterCalls} {fs : Ext2} (he : 0 < fs.entriesPerBlock)
    {op : BlockOperation} (h : op.MeetsNull calls fs) : ¬ op.Returns calls fs := by
  have hbs : 0 < fs.blockSize := Nat.zero_lt_of_lt (four_le_blockSize he)
  intro hreturns
  cases op with
  | read inode offset size buff =>
    obtain ⟨out, hout⟩ := hreturns
    cases hout.symm.trans h
  | write inode buff offset size => cases h.2.symm.trans hreturns
  | list root =>
    obtain ⟨result, hresult⟩ := hreturns
    obtain ⟨hdir, hsectors, i, hi, -, hnull⟩ := h
    cases result with
    | none =>
      rw [ext2ListInode, if_pos hdir] at hresult
      simp only [hsectors, if_false] at hresult
      split at hresult <;> cases hresult
    | some list =>
      have hparses := ((exists_ext2ListInode_iff hbs root).mp ⟨list, hresult⟩).2.2 i hi
      exact slotMeetsNull_not_slotParses hnull hparses
  | find base level k =>
    obtain ⟨n, hn⟩ := hreturns
    rcases h with hnone | hnull
    · cases level with
      | zero => simp [ext2FindBlockEntry, hnone] at hn
      | succ level =>
        rw [ext2FindBlockEntry] at hn
        simp only [hnone, deref_none] at hn
        split at hn
        · cases hn
        · split at hn <;> cases hn
    · cases hnull.symm.trans hn

/-- Nothing contains a bad block number: an operation is free of the NULL exactly
where each block number it comes to is one of the device. -/
theorem not_meetsNull_iff (calls : ClusterCalls) {fs : Ext2} (he : 0 < fs.entriesPerBlock) (op : BlockOperation) :
    ¬ op.MeetsNull calls fs ↔ op.InRange calls fs := by
  cases op with
  | read inode offset size buff => exact read_ne_null_iff he inode offset size buff
  | write inode buff offset size => exact write_meetsNull_iff calls he inode buff offset size
  | list root => exact list_meetsNull_iff he root
  | find base level k => exact find_meetsNull_iff he base level k

theorem not_meetsNull_iff_sample :
    ¬ (BlockOperation.list 5248).MeetsNull keepClusters (sampleFs []) ↔
      (BlockOperation.list 5248).InRange keepClusters (sampleFs []) :=
  not_meetsNull_iff keepClusters (by decide) (.list 5248)

def symlinkFs : Ext2 := sampleFs [(6528, 0xA1FF), (6532, 4), (6568, 0x612F2E2E)]

/-- A symbolic link to "../a": its first block number is 11822 where the device ends at 65,
and the server reports a regular file. -/
theorem meetsNull_symlink : ext2GetElementInode symlinkFs [slash, 0x66] = .ok (some 6528) ∧
    inodeHasModeFlag symlinkFs.device 6528 EXT2_IFLNK = true ∧
    (ext2ServiceGetAttr symlinkFs ⟨[slash, 0x66]⟩).map (fun response => response.mode) =
      .ok (S_IFREG ||| FS_FULL_READ_PRIV ||| FS_FULL_WRITE_PRIV) ∧
    ext2ServiceRead symlinkFs ⟨[slash, 0x66], 0, 1⟩ = .error .nullPointer ∧
    ∃ op : BlockOperation, op.MeetsNull keepClusters symlinkFs := by
  have hread : ext2ReadInodeData symlinkFs 6528 0 1 (fun _ => 0) = .error .nullPointer := rfl
  exact ⟨rfl, by decide, rfl, rfl, .read 6528 0 1 (fun _ => 0), hread⟩

end FuseExt2
