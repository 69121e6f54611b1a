import FuseExt2.Device
import FuseExt2.PointerTree

/-! The map from file block indices to device blocks: the code's slot loop and
walk, the map of the ext2 format, and when the two agree. -/

namespace FuseExt2

open ByteStore

def ext2FindBlockEntry (fs : Ext2) : Nat → Nat → Nat → Except Fault Nat
  | _, 0, entryIndex =>
    match deref (ext2GetBlock fs entryIndex) with
    | .error fault => .error fault
    | .ok currentBlock => .ok (le32 fs.device (currentBlock + 4 * entryIndex))
  | _, level + 1, entryIndex =>
    let elementsInSublevels := fs.entriesPerBlock ^ level
    if elementsInSublevels = 0 then .error .divideByZero
    else
      let index := entryIndex / elementsInSublevels
      -- `index` is an int: from 2^31 on it is a negative subscript
      if 2 ^ 31 ≤ index then .error .outOfBounds
      else match deref (ext2GetBlock fs entryIndex) with
        | .error fault => .error fault
        | .ok currentBlock =>
          ext2FindBlockEntry fs (le32 fs.device (currentBlock + 4 * index)) level
            (entryIndex - index * elementsInSublevels)

/-- The loop over the remaining slots. The running offset is an int, and a sum
that does not fit has no defined conversion. -/
def slotLoop (fs : Ext2) (entryIndex : Nat) : List Nat → Nat → Nat → Except Fault Nat
  | [], baseBlockIndex, _ => .ok baseBlockIndex
  | level :: levels, baseBlockIndex, blocksOffset =>
    if blocksOffset < entryIndex then
      let blocksOffset := blocksOffset + fs.entriesPerBlock ^ level
      if 2 ^ 31 ≤ blocksOffset then .error .overflow
      else slotLoop fs entryIndex levels (baseBlockIndex + 1) blocksOffset
    else .ok baseBlockIndex

def ext2GetInodeBlockEntry (fs : Ext2) (node entryIndex : Nat) : Except Fault Nat :=
  match slotLoop fs entryIndex EXT2_INODES_INDIRECTION_LEVEL 0 0 with
  | .error fault => .error fault
  | .ok baseBlockIndex =>
    match EXT2_INODES_INDIRECTION_LEVEL[baseBlockIndex]? with
    | none => .error .outOfBounds
    | some level =>
      if level = 0 then .ok (inodeBlock fs.device node baseBlockIndex)
      else ext2FindBlockEntry fs (inodeBlock fs.device node baseBlockIndex) level entryIndex

/-! What the code computes. -/

theorem slotLoop_replicate (fs : Ext2) (i n : Nat) (levels : List Nat) {b : Nat} (hb : b ≤ i)
    (hlt : b + n < 2 ^ 31) :
    slotLoop fs i (List.replicate n 0 ++ levels) b b =
      if i < b + n then .ok i else slotLoop fs i levels (b + n) (b + n) := by
  induction n generalizing b with
  | zero => simp [hb]
  | succ n ih =>
    by_cases h : b < i
    · have hstep := ih (b := b + 1) h (by omega)
      rw [List.replicate_succ, List.cons_append, slotLoop, if_pos h, pow_zero, if_neg (by omega), hstep,
        show b + 1 + n = b + (n + 1) by omega]
    · have he : b = i := by omega
      rw [List.replicate_succ, List.cons_append, slotLoop, if_neg h, if_pos (by omega), he]

theorem slotLoop_levels (fs : Ext2) (i : Nat) :
    slotLoop fs i EXT2_INODES_INDIRECTION_LEVEL 0 0 =
      if i < 12 then .ok i else slotLoop fs i [1, 2, 3] 12 12 := by
  have h := slotLoop_replicate fs i 12 [1, 2, 3] (Nat.zero_le i) (by decide)
  rw [Nat.zero_add] at h
  exact h

theorem ext2GetInodeBlockEntry_direct (fs : Ext2) (node : Nat) {i : Nat} (hi : i < 12) :
    ext2GetInodeBlockEntry fs node i = .ok (inodeBlock fs.device node i) := by
  have hl : EXT2_INODES_INDIRECTION_LEVEL[i]? = some 0 := by
    interval_cases i <;> rfl
  rw [ext2GetInodeBlockEntry, slotLoop_levels, if_pos hi]
  simp only [hl, if_true]

/-- The block numbers the walk looks up from level `level` and index `k` on. -/
def blocksLoaded (e : Nat) : Nat → Nat → List Nat
  | 0, k => [k]
  | level + 1, k => k :: blocksLoaded e level (k % e ^ level)

theorem entriesPerBlock_lt (fs : Ext2) : fs.entriesPerBlock < 2 ^ 30 := by
  have h := fs.blockSize_lt
  rw [fs.entriesPerBlock_eq]
  omega

theorem four_le_blockSize {fs : Ext2} (he : 0 < fs.entriesPerBlock) : 4 ≤ fs.blockSize := by
  rw [fs.entriesPerBlock_eq] at he
  omega

theorem nextIndex_lt {fs : Ext2} (he : 0 < fs.entriesPerBlock) (level k : Nat) :
    k % fs.entriesPerBlock ^ (level + 1) / fs.entriesPerBlock ^ level < 2 ^ 31 := by
  have hrest : k % fs.entriesPerBlock ^ (level + 1) / fs.entriesPerBlock ^ level < fs.entriesPerBlock :=
    PointerTree.digit_lt (Nat.mod_lt k (Nat.pow_pos he))
  exact hrest.trans ((entriesPerBlock_lt fs).trans (by decide))

/-- The walk never uses the block it is given: it looks up its own index at each
level and ends at the first word of the device. -/
theorem ext2FindBlockEntry_eq_ok_iff_of_div {fs : Ext2} (he : 0 < fs.entriesPerBlock) (level : Nat)
    {base k n : Nat} (hk : k / fs.entriesPerBlock ^ level < 2 ^ 31) :
    ext2FindBlockEntry fs base (level + 1) k = .ok n ↔
      (∀ b ∈ blocksLoaded fs.entriesPerBlock (level + 1) k, b % 2 ^ 16 < fs.blockcount) ∧
        n = le32 fs.device 0 := by
  induction level generalizing base k with
  | zero =>
    have hl : blocksLoaded fs.entriesPerBlock 1 k = [k, 0] := by simp [blocksLoaded, Nat.mod_one]
    have hi : ¬ 2 ^ 31 ≤ k := by
      rw [pow_zero, Nat.div_one] at hk
      omega
    rw [hl]
    simp only [ext2FindBlockEntry, Nat.pow_zero, Nat.one_ne_zero, if_false, Nat.div_one, Nat.mul_one,
      Nat.sub_self, Nat.mul_zero, Nat.add_zero, hi]
    by_cases hk' : k % 2 ^ 16 < fs.blockcount
    · have h0 : 0 < fs.blockcount := by omega
      have hc : ∀ b ∈ [k, 0], b % 2 ^ 16 < fs.blockcount := by simpa using ⟨hk', h0⟩
      rw [ext2GetBlock_of_mod_lt hk', ext2GetBlock_zero h0]
      simp only [deref_some, Except.ok.injEq]
      exact ⟨fun h => ⟨hc, h.symm⟩, fun h => h.2.symm⟩
    · rw [ext2GetBlock_of_le hk', deref_none]
      exact ⟨fun h => (by cases h), fun h => absurd (h.1 k (by simp)) hk'⟩
  | succ level ih =>
    have hpos : fs.entriesPerBlock ^ (level + 1) ≠ 0 := (Nat.pow_pos he).ne'
    have hmod : k - k / fs.entriesPerBlock ^ (level + 1) * fs.entriesPerBlock ^ (level + 1) =
        k % fs.entriesPerBlock ^ (level + 1) := by
      rw [Nat.mod_eq_sub_div_mul]
    have hlt := nextIndex_lt he level k
    rw [ext2FindBlockEntry]
    simp only [hpos, if_false, hmod, Nat.not_le.mpr hk]
    rw [blocksLoaded]
    by_cases hk' : k % 2 ^ 16 < fs.blockcount
    · rw [ext2GetBlock_of_mod_lt hk', deref_some]
      simp only [List.forall_mem_cons, hk', true_and]
      exact ih hlt
    · rw [ext2GetBlock_of_le hk', deref_none]
      simp only [List.forall_mem_cons, hk', false_and, iff_false]
      exact fun h => by cases h

theorem ext2FindBlockEntry_eq_ok_iff {fs : Ext2} (he : 0 < fs.entriesPerBlock) (level : Nat)
    {base k n : Nat} (hk : k < 2 ^ 31) :
    ext2FindBlockEntry fs base (level + 1) k = .ok n ↔
      (∀ b ∈ blocksLoaded fs.entriesPerBlock (level + 1) k, b % 2 ^ 16 < fs.blockcount) ∧
        n = le32 fs.device 0 :=
  ext2FindBlockEntry_eq_ok_iff_of_div he level (lt_of_le_of_lt (Nat.div_le_self _ _) hk)

/-- The level of the tree the slot loop stops at, for indices from 12 on. -/
def slotLevel (e i : Nat) : Nat := if i ≤ 12 then 1 else if i ≤ 12 + e then 2 else 3

/-- The index stays inside the slot table, its running offset inside an int, and
every block the walk looks up is a block of the device. -/
def Walkable (fs : Ext2) (i : Nat) : Prop :=
  (i ≤ 12 + fs.entriesPerBlock ∨
    (i ≤ 12 + fs.entriesPerBlock + fs.entriesPerBlock ^ 2 ∧
      12 + fs.entriesPerBlock + fs.entriesPerBlock ^ 2 < 2 ^ 31)) ∧
  ∀ b ∈ blocksLoaded fs.entriesPerBlock (slotLevel fs.entriesPerBlock i) i, b % 2 ^ 16 < fs.blockcount

instance (fs : Ext2) (i : Nat) : Decidable (Walkable fs i) := by unfold Walkable; infer_instance

/-- The index stays inside the slot table, and the running offset inside an int. -/
def InSlotTable (e i : Nat) : Prop := i ≤ 12 + e ∨ (i ≤ 12 + e + e ^ 2 ∧ 12 + e + e ^ 2 < 2 ^ 31)

instance (e i : Nat) : Decidable (InSlotTable e i) := by unfold InSlotTable; infer_instance

theorem walkable_iff {fs : Ext2} {i : Nat} : Walkable fs i ↔ InSlotTable fs.entriesPerBlock i ∧
    ∀ b ∈ blocksLoaded fs.entriesPerBlock (slotLevel fs.entriesPerBlock i) i, b % 2 ^ 16 < fs.blockcount := Iff.rfl

theorem slotLoop_of_inSlotTable {fs : Ext2} {i : Nat} (hi : 12 ≤ i) (h : InSlotTable fs.entriesPerBlock i) :
    slotLoop fs i EXT2_INODES_INDIRECTION_LEVEL 0 0 = .ok (11 + slotLevel fs.entriesPerBlock i) := by
  have hlt := entriesPerBlock_lt fs
  rw [slotLoop_levels, if_neg (by omega), slotLevel, slotLoop]
  by_cases h1 : i ≤ 12
  · rw [if_neg (by omega), if_pos h1]
  · rw [if_pos (by omega), if_neg h1, pow_one]
    simp only [if_neg (show ¬ 2 ^ 31 ≤ 12 + fs.entriesPerBlock by omega)]
    rw [slotLoop]
    by_cases h2 : i ≤ 12 + fs.entriesPerBlock
    · rw [if_neg (by omega), if_pos h2]
    · obtain ⟨h3, hov⟩ := h.resolve_left h2
      rw [if_pos (by omega), if_neg h2]
      simp only [if_neg (Nat.not_le.mpr hov)]
      rw [slotLoop, if_neg (by omega)]

/-- Past the last tree the loop leaves the slot table, if its sum fits at all. -/
theorem slotLoop_of_not_inSlotTable {fs : Ext2} {i : Nat} (h : ¬ InSlotTable fs.entriesPerBlock i) :
    slotLoop fs i EXT2_INODES_INDIRECTION_LEVEL 0 0 = .error .overflow ∨
      slotLoop fs i EXT2_INODES_INDIRECTION_LEVEL 0 0 = .ok 15 := by
  have hlt := entriesPerBlock_lt fs
  have h2 : ¬ i ≤ 12 + fs.entriesPerBlock := fun hi => h (Or.inl hi)
  rw [slotLoop_levels, if_neg (by omega), slotLoop, if_pos (by omega), pow_one]
  simp only [if_neg (show ¬ 2 ^ 31 ≤ 12 + fs.entriesPerBlock by omega)]
  rw [slotLoop, if_pos (by omega)]
  by_cases hov : 12 + fs.entriesPerBlock + fs.entriesPerBlock ^ 2 < 2 ^ 31
  · have h3 : ¬ i ≤ 12 + fs.entriesPerBlock + fs.entriesPerBlock ^ 2 := fun hi => h (Or.inr ⟨hi, hov⟩)
    simp only [if_neg (Nat.not_le.mpr hov)]
    rw [slotLoop, if_pos (by omega)]
    by_cases hsum : 2 ^ 31 ≤ 12 + fs.entriesPerBlock + fs.entriesPerBlock ^ 2 + fs.entriesPerBlock ^ 3
    · simp only [if_pos hsum, true_or]
    · simp only [if_neg hsum, slotLoop, or_true]
  · simp only [if_pos (Nat.not_lt.mp hov), true_or]

theorem slotLevel_bounds (e i : Nat) : 0 < slotLevel e i ∧ slotLevel e i ≤ 3 := by
  rw [slotLevel]
  split
  · decide
  · split <;> decide

theorem lt_of_inSlotTable {e i : Nat} (he : e < 2 ^ 30) (h : InSlotTable e i) : i < 2 ^ 31 := by
  rcases h with h | h <;> omega

theorem indirectionLevel_slotLevel (e i : Nat) :
    EXT2_INODES_INDIRECTION_LEVEL[11 + slotLevel e i]? = some (slotLevel e i) := by
  rw [slotLevel]
  split
  · rfl
  · split <;> rfl

theorem ext2GetInodeBlockEntry_indirect {fs : Ext2} (he : 0 < fs.entriesPerBlock) (node : Nat)
    {i n : Nat} (hi : 12 ≤ i) :
    ext2GetInodeBlockEntry fs node i = .ok n ↔ Walkable fs i ∧ n = le32 fs.device 0 := by
  rw [ext2GetInodeBlockEntry, walkable_iff]
  by_cases h : InSlotTable fs.entriesPerBlock i
  · obtain ⟨level, hlevel⟩ : ∃ level, slotLevel fs.entriesPerBlock i = level + 1 :=
      Nat.exists_eq_add_one.mpr (slotLevel_bounds fs.entriesPerBlock i).1
    have hlt := lt_of_inSlotTable (entriesPerBlock_lt fs) h
    simp only [slotLoop_of_inSlotTable hi h, indirectionLevel_slotLevel, h, true_and]
    rw [hlevel, if_neg (Nat.succ_ne_zero level), ext2FindBlockEntry_eq_ok_iff he level hlt]
  · simp only [h, false_and, iff_false]
    rcases slotLoop_of_not_inSlotTable h with hs | hs
    · simp only [hs]
      exact fun h => by cases h
    · simp only [hs, show EXT2_INODES_INDIRECTION_LEVEL[15]? = none from rfl]
      exact fun h => by cases h

def entryValue (fs : Ext2) (node i : Nat) : Nat :=
  if i < 12 then inodeBlock fs.device node i else le32 fs.device 0

theorem ext2GetInodeBlockEntry_eq_ok_iff {fs : Ext2} (he : 0 < fs.entriesPerBlock) {node i n : Nat} :
    ext2GetInodeBlockEntry fs node i = .ok n ↔ (i < 12 ∨ Walkable fs i) ∧ n = entryValue fs node i := by
  by_cases hi : i < 12
  · rw [ext2GetInodeBlockEntry_direct fs node hi, entryValue, if_pos hi]
    exact ⟨fun h => ⟨Or.inl hi, (Except.ok.inj h).symm⟩, fun h => by rw [h.2]⟩
  · rw [ext2GetInodeBlockEntry_indirect he node (by omega), entryValue, if_neg hi]
    simp only [hi, false_or]

theorem ext2FindBlockEntry_congr {fs : Ext2} {m : Memory} (hcount : (fs.withDevice m).blockcount = fs.blockcount)
    (hword : le32 m 0 = le32 fs.device 0) (level base base' k : Nat) :
    ext2FindBlockEntry (fs.withDevice m) base' (level + 1) k = ext2FindBlockEntry fs base (level + 1) k := by
  have hget : ∀ n, ext2GetBlock (fs.withDevice m) n = ext2GetBlock fs n := by
    intro n
    simp only [ext2GetBlock, hcount, Ext2.withDevice_blockSize]
  induction level generalizing base base' k with
  | zero =>
    simp only [ext2FindBlockEntry, hget, Nat.pow_zero, Nat.one_ne_zero, if_false, Nat.div_one, Nat.mul_one,
      Nat.sub_self, Nat.mul_zero, Nat.add_zero]
    by_cases h0 : 0 < fs.blockcount
    · simp only [ext2GetBlock_zero h0, deref_some, Ext2.withDevice_device, hword]
    · have hnull : ext2GetBlock fs 0 = none := ext2GetBlock_of_le (by simpa using h0)
      simp only [hnull, deref_none]
  | succ level ih =>
    rw [ext2FindBlockEntry, ext2FindBlockEntry]
    simp only [hget, Ext2.withDevice_entriesPerBlock]
    split
    · rfl
    · split
      · rfl
      · cases deref (ext2GetBlock fs k) with
        | error fault => rfl
        | ok currentBlock => exact ih _ _ _

theorem slotLoop_withDevice (fs : Ext2) (m : Memory) (i : Nat) (levels : List Nat) (b offset : Nat) :
    slotLoop (fs.withDevice m) i levels b offset = slotLoop fs i levels b offset := by
  induction levels generalizing b offset with
  | nil => rfl
  | cons level levels ih => simp only [slotLoop, Ext2.withDevice_entriesPerBlock, ih]

theorem ext2GetInodeBlockEntry_congr {fs : Ext2} {m : Memory} {node i : Nat}
    (hsb : Set.EqOn fs.device m superblockBytes) (hnode : Set.EqOn fs.device m (inodeRecordBytes node))
    (hword : 12 ≤ i → Set.EqOn fs.device m (Set.Ico 0 4)) :
    ext2GetInodeBlockEntry (fs.withDevice m) node i = ext2GetInodeBlockEntry fs node i := by
  have hslot : ∀ k < 15, inodeBlock m node k = inodeBlock fs.device node k := fun k hk => inodeBlock_congr hnode hk
  by_cases hi : i < 12
  · rw [ext2GetInodeBlockEntry_direct _ node hi, ext2GetInodeBlockEntry_direct _ node hi, Ext2.withDevice_device,
      hslot i (by omega)]
  · have hz : le32 m 0 = le32 fs.device 0 := (le32_congr (hword (by omega))).symm
    rw [ext2GetInodeBlockEntry, ext2GetInodeBlockEntry, slotLoop_withDevice]
    cases slotLoop fs i EXT2_INODES_INDIRECTION_LEVEL 0 0 with
    | error fault => rfl
    | ok baseBlockIndex =>
      cases hl : EXT2_INODES_INDIRECTION_LEVEL[baseBlockIndex]? with
      | none => simp only [hl]
      | some level =>
        have hk : baseBlockIndex < 15 := (List.getElem?_eq_some_iff.mp hl).1
        simp only [hl]
        cases level with
        | zero => simp only [if_true, Ext2.withDevice_device, hslot baseBlockIndex hk]
        | succ level =>
          simp only [Nat.succ_ne_zero, if_false]
          exact ext2FindBlockEntry_congr (blockcount_congr hsb) hz level _ _ i

/-! The map of the ext2 format. -/

/-- The block numbers met on the way from `block` to leaf `k` of a tree of
`level` levels of indirect blocks, as far as they are nonzero. -/
def indirectPath (fs : Ext2) : Nat → Nat → Nat → List Nat
  | 0, block, _ => [block]
  | level + 1, block, k =>
    block :: if block = 0 then [] else
      indirectPath fs level
        (le32 fs.device (block * fs.blockSize + 4 * (k / fs.entriesPerBlock ^ level)))
        (k % fs.entriesPerBlock ^ level)

def referencePath (fs : Ext2) (node i : Nat) : List Nat :=
  let e := fs.entriesPerBlock
  if i < 12 then [inodeBlock fs.device node i]
  else if i < 12 + e then indirectPath fs 1 (inodeBlock fs.device node 12) (i - 12)
  else if i < 12 + e + e ^ 2 then indirectPath fs 2 (inodeBlock fs.device node 13) (i - 12 - e)
  else indirectPath fs 3 (inodeBlock fs.device node 14) (i - 12 - e - e ^ 2)

/-- The ext2 map: the last pointer on the path, which is 0 at a missing block. -/
def referenceBlock (fs : Ext2) (node i : Nat) : Nat := (referencePath fs node i).getLastD 0

def blockMapCapacity (fs : Ext2) : Nat :=
  12 + fs.entriesPerBlock + fs.entriesPerBlock ^ 2 + fs.entriesPerBlock ^ 3

theorem referenceBlock_direct (fs : Ext2) (node : Nat) {i : Nat} (hi : i < 12) :
    referenceBlock fs node i = inodeBlock fs.device node i := by
  simp [referenceBlock, referencePath, hi]

theorem entriesPerBlock_pos {fs : Ext2} (hbs : ∃ k, fs.blockSize = 1024 * 2 ^ k) :
    0 < fs.entriesPerBlock := by
  obtain ⟨k, hk⟩ := hbs
  have h := Nat.two_pow_pos k
  rw [fs.entriesPerBlock_eq]
  omega

theorem Ext2Sized.entriesPerBlock_pos {fs : Ext2} (h : Ext2Sized fs) : 0 < fs.entriesPerBlock :=
  FuseExt2.entriesPerBlock_pos h.powerOfTwo

theorem Ext2Sized.lt_blockMapCapacity {fs : Ext2} (hbs : Ext2Sized fs) {pos : Nat} (hpos : pos < 2 ^ 32) :
    pos / fs.blockSize < blockMapCapacity fs := by
  have hle := hbs.le.1
  have he : 256 ≤ fs.entriesPerBlock := by
    rw [fs.entriesPerBlock_eq]
    omega
  have hcube : 256 ^ 3 ≤ fs.entriesPerBlock ^ 3 := Nat.pow_le_pow_left he 3
  have hdiv : pos / fs.blockSize < 2 ^ 22 := by
    rw [Nat.div_lt_iff_lt_mul hbs.pos]
    omega
  simp only [blockMapCapacity]
  omega

/-- The last block of a path is not read. -/
theorem indirectPath_congr {fs : Ext2} {m : Memory} (hbs : ∃ k, fs.blockSize = 1024 * 2 ^ k) (level : Nat)
    {block k : Nat} (hk : k < fs.entriesPerBlock ^ level)
    (h : ∀ b ∈ (indirectPath fs level block k).dropLast, b ≠ 0 → Set.EqOn fs.device m (blockBytes fs b)) :
    indirectPath (fs.withDevice m) level block k = indirectPath fs level block k := by
  induction level generalizing block k with
  | zero => rfl
  | succ level ih =>
    rw [indirectPath] at h
    rw [indirectPath, indirectPath]
    by_cases hb : block = 0
    · rw [if_pos hb, if_pos hb]
    · have hrest : indirectPath fs level (le32 fs.device (block * fs.blockSize + 4 * (k / fs.entriesPerBlock ^ level)))
          (k % fs.entriesPerBlock ^ level) ≠ [] := by
        cases level <;> exact List.cons_ne_nil _ _
      rw [if_neg hb, List.dropLast_cons_of_ne_nil hrest, List.forall_mem_cons] at h
      have hpos : 0 < fs.entriesPerBlock ^ level := Nat.pow_pos (entriesPerBlock_pos hbs)
      have hindex : k / fs.entriesPerBlock ^ level < fs.entriesPerBlock := PointerTree.digit_lt hk
      have hsize : fs.blockSize = 4 * fs.entriesPerBlock := by
        obtain ⟨j, hj⟩ := hbs
        rw [fs.entriesPerBlock_eq]
        omega
      have hword := le32_congr ((h.1 hb).mono (Set.Ico_subset_Ico
        (Nat.le_add_right (block * fs.blockSize) (4 * (k / fs.entriesPerBlock ^ level))) (by omega)))
      rw [if_neg hb, if_neg hb, Ext2.withDevice_device, Ext2.withDevice_blockSize, Ext2.withDevice_entriesPerBlock,
        ← hword, ih (Nat.mod_lt k hpos) h.2]

theorem referencePath_congr {fs : Ext2} {m : Memory} (hbs : ∃ k, fs.blockSize = 1024 * 2 ^ k) {node i : Nat}
    (hi : i < blockMapCapacity fs) (hnode : Set.EqOn fs.device m (inodeRecordBytes node))
    (hpath : ∀ b ∈ (referencePath fs node i).dropLast, b ≠ 0 → Set.EqOn fs.device m (blockBytes fs b)) :
    referencePath (fs.withDevice m) node i = referencePath fs node i := by
  have hslot : ∀ j < 15, inodeBlock m node j = inodeBlock fs.device node j := fun j hj => inodeBlock_congr hnode hj
  simp only [referencePath, blockMapCapacity] at hi hpath ⊢
  simp only [Ext2.withDevice_device, Ext2.withDevice_entriesPerBlock, hslot 12 (by omega), hslot 13 (by omega),
    hslot 14 (by omega)]
  by_cases h0 : i < 12
  · simp only [if_pos h0, hslot i (by omega)]
  · simp only [if_neg h0] at hpath ⊢
    by_cases h1 : i < 12 + fs.entriesPerBlock
    · simp only [if_pos h1] at hpath ⊢
      exact indirectPath_congr hbs 1 (by rw [pow_one]; omega) hpath
    · simp only [if_neg h1] at hpath ⊢
      by_cases h2 : i < 12 + fs.entriesPerBlock + fs.entriesPerBlock ^ 2
      · simp only [if_pos h2] at hpath ⊢
        exact indirectPath_congr hbs 2 (by omega) hpath
      · simp only [if_neg h2] at hpath ⊢
        exact indirectPath_congr hbs 3 (by omega) hpath

/-- The code follows the ext2 map on the direct slots. From index 12 on it does
only where its walk stays on the device and the map happens to give the first
word of the device. -/
theorem ext2GetInodeBlockEntry_eq_reference_iff (fs : Ext2) (node i : Nat)
    (hbs : ∃ k, fs.blockSize = 1024 * 2 ^ k) :
    ext2GetInodeBlockEntry fs node i = .ok (referenceBlock fs node i) ↔
      i < 12 ∨ Walkable fs i ∧ referenceBlock fs node i = le32 fs.device 0 := by
  by_cases hi : i < 12
  · rw [ext2GetInodeBlockEntry_direct fs node hi, referenceBlock_direct fs node hi]
    simp [hi]
  · rw [ext2GetInodeBlockEntry_indirect (entriesPerBlock_pos hbs) node (by omega)]
    simp [hi]

/-- A device of 65 blocks of 1 KiB. The inode at byte 5120 has an indirect block,
block 20, whose first entry is block 21. -/
def thirteenBlockImage : Memory := ofWords
  [(1024, 16), (1028, 65), (1044, 1), (1048, 0), (1056, 64), (1064, 16), (1080, 0xEF53),
    (5208, 20), (20480, 21)]

def thirteenBlockFs : Ext2 := mountedHandle thirteenBlockImage 1

theorem ext2GetInodeBlockEntry_eq_reference_iff_direct :
    ext2GetInodeBlockEntry thirteenBlockFs 5120 3 = .ok (referenceBlock thirteenBlockFs 5120 3) ↔
      3 < 12 ∨ Walkable thirteenBlockFs 3 ∧
        referenceBlock thirteenBlockFs 5120 3 = le32 thirteenBlockFs.device 0 :=
  ext2GetInodeBlockEntry_eq_reference_iff thirteenBlockFs 5120 3 ⟨0, by decide⟩

theorem ext2GetInodeBlockEntry_ne_reference :
    ext2Create thirteenBlockImage = .ok thirteenBlockFs ∧
    (∃ k, thirteenBlockFs.blockSize = 1024 * 2 ^ k) ∧ 12 < blockMapCapacity thirteenBlockFs ∧
    (∀ b ∈ referencePath thirteenBlockFs 5120 12, b ≠ 0 → b < thirteenBlockFs.blockcount) ∧
    ext2GetInodeBlockEntry thirteenBlockFs 5120 12 ≠ .ok (referenceBlock thirteenBlockFs 5120 12) := by
  exact ⟨rfl, ⟨0, by decide⟩, by decide, by decide, by decide⟩

end FuseExt2
