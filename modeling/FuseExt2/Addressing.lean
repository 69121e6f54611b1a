import FuseExt2.Groups

/-! Addresses of blocks and of inode records against the numbers that name them:
which block numbers survive the 16-bit parameter and the 32-bit product, and
which inode numbers the record stride of 128 bytes. -/

namespace FuseExt2

open ByteStore

def BlockSizePowerOfTwo (fs : Ext2) : Prop := ∃ k, fs.blockSize = 1024 * 2 ^ k

def BlockAddressed (fs : Ext2) (n : Nat) : Prop :=
  ext2GetBlock fs n = if n < fs.blockcount then some (n * fs.blockSize) else none

/-- The number, or its rest where it is cut to 16 bits, leads where it should. -/
def BlockNumberFits (fs : Ext2) (n : Nat) : Prop :=
  n < 2 ^ 16 ∧ (n < fs.blockcount → n * fs.blockSize < 2 ^ 32) ∨
    2 ^ 16 ≤ n ∧ fs.blockcount ≤ n ∧ fs.blockcount ≤ n % 2 ^ 16

theorem blockAddressed_iff {fs : Ext2} (hbs : BlockSizePowerOfTwo fs) (n : Nat) :
    BlockAddressed fs n ↔ BlockNumberFits fs n := by
  obtain ⟨k, hk⟩ := hbs
  have hpos : 0 < fs.blockSize := by
    have := Nat.two_pow_pos k
    omega
  rw [BlockAddressed, BlockNumberFits]
  by_cases h16 : n < 2 ^ 16
  · have hmod : n % 2 ^ 16 = n := Nat.mod_eq_of_lt h16
    by_cases hn : n < fs.blockcount
    · rw [if_pos hn, ext2GetBlock_of_mod_lt (hmod.symm ▸ hn), hmod, Option.some.injEq]
      constructor
      · intro h
        refine Or.inl ⟨h16, fun _ => ?_⟩
        rw [← h]
        exact Nat.mod_lt _ (by decide)
      · intro h
        rcases h with ⟨-, h⟩ | ⟨h, -⟩
        · exact Nat.mod_eq_of_lt (h hn)
        · omega
    · rw [if_neg hn, ext2GetBlock_of_le (hmod.symm ▸ hn)]
      exact iff_of_true rfl (Or.inl ⟨h16, fun h => absurd h hn⟩)
  · have hlt : n % 2 ^ 16 < n := (Nat.mod_lt n (by decide)).trans_le (Nat.not_lt.mp h16)
    by_cases hm : n % 2 ^ 16 < fs.blockcount
    · -- the rest names a block of its own, below any address that `n` could have
      rw [ext2GetBlock_of_mod_lt hm]
      have hne : n % 2 ^ 16 * fs.blockSize % 2 ^ 32 ≠ n * fs.blockSize := by
        have h1 := Nat.mod_le (n % 2 ^ 16 * fs.blockSize) (2 ^ 32)
        have h2 := Nat.mul_lt_mul_of_pos_right hlt hpos
        omega
      constructor
      · intro h
        split at h
        · exact absurd (Option.some.inj h) hne
        · cases h
      · intro h
        omega
    · have hn : fs.blockcount ≤ n % 2 ^ 16 := Nat.not_lt.mp hm
      rw [ext2GetBlock_of_le hm, if_neg (by omega)]
      exact iff_of_true rfl (Or.inr ⟨by omega, by omega, hn⟩)

theorem disjoint_of_multiples (size : Nat) {a b n n' : Nat} (ha : a = n * size) (hb : b = n' * size) (hne : n ≠ n') :
    Disjoint (Set.Ico a (a + size)) (Set.Ico b (b + size)) := by
  rw [Set.Ico_disjoint_Ico]
  rcases Nat.lt_or_gt_of_ne hne with h | h
  · have := Nat.mul_le_mul_right size (Nat.succ_le_of_lt h)
    rw [Nat.succ_mul] at this
    omega
  · have := Nat.mul_le_mul_right size (Nat.succ_le_of_lt h)
    rw [Nat.succ_mul] at this
    omega

/-- Two block numbers get their own addresses, and so disjoint blocks, exactly
when both fit. -/
theorem blocksAddressed_iff {fs : Ext2} (hbs : BlockSizePowerOfTwo fs) (n n' : Nat) :
    (BlockAddressed fs n ∧ BlockAddressed fs n' ∧ (n ≠ n' → n < fs.blockcount → n' < fs.blockcount →
      ∃ a a', ext2GetBlock fs n = some a ∧ ext2GetBlock fs n' = some a' ∧
        Disjoint (Set.Ico a (a + fs.blockSize)) (Set.Ico a' (a' + fs.blockSize)))) ↔
      BlockNumberFits fs n ∧ BlockNumberFits fs n' := by
  rw [← blockAddressed_iff hbs, ← blockAddressed_iff hbs]
  constructor
  · intro h
    exact ⟨h.1, h.2.1⟩
  · intro h
    obtain ⟨h, h'⟩ := h
    refine ⟨h, h', fun hne hn hn' => ⟨n * fs.blockSize, n' * fs.blockSize, ?_, ?_, ?_⟩⟩
    · rw [h, if_pos hn]
    · rw [h', if_pos hn']
    · exact disjoint_of_multiples fs.blockSize rfl rfl hne

def largeImage : Memory := sampleImage [(1028, 70000), (1056, 8192)]

def largeFs : Ext2 := mountedHandle largeImage 8

theorem blocksAddressed_iff_large :
    (BlockAddressed largeFs 7 ∧ BlockAddressed largeFs 8 ∧ (7 ≠ 8 → 7 < largeFs.blockcount → 8 < largeFs.blockcount →
      ∃ a a', ext2GetBlock largeFs 7 = some a ∧ ext2GetBlock largeFs 8 = some a' ∧
        Disjoint (Set.Ico a (a + largeFs.blockSize)) (Set.Ico a' (a' + largeFs.blockSize)))) ↔
      BlockNumberFits largeFs 7 ∧ BlockNumberFits largeFs 8 :=
  blocksAddressed_iff ⟨0, by decide⟩ 7 8

/-- Block 65543 has the address of block 7. -/
theorem not_blockAddressed_large :
    ext2Create largeImage = .ok largeFs ∧ BlockSizePowerOfTwo largeFs ∧ 65543 < largeFs.blockcount ∧
    ¬ BlockAddressed largeFs 65543 ∧ ext2GetBlock largeFs 65543 = ext2GetBlock largeFs 7 := by
  have hbs : BlockSizePowerOfTwo largeFs := ⟨0, by decide⟩
  have hc : largeFs.blockcount = 70000 := by decide
  refine ⟨rfl, hbs, by omega, ?_, by decide⟩
  rw [blockAddressed_iff hbs, BlockNumberFits, hc]
  omega

/-! Inode records. -/

def inodeTableBytes (fs : Ext2) (group : Nat) : Set Nat :=
  Set.Ico (groupInodeTable fs group * fs.blockSize)
    (groupInodeTable fs group * fs.blockSize + fs.inodeperGroup * inodeStride fs)

structure ValidInodeTables (fs : Ext2) : Prop where
  revision : fs.revLevel = 0 ∨ fs.revLevel = 1 ∧ ∃ k, fs.inodeSize = 128 * 2 ^ k
  inodes : 0 < fs.inodeperGroup
  apart : ∀ group other, group * fs.inodeperGroup < fs.inodecount → other * fs.inodeperGroup < fs.inodecount →
    group ≠ other → Disjoint (inodeTableBytes fs group) (inodeTableBytes fs other)

def groupOf (fs : Ext2) (n : Nat) : Nat := (n - 1) / fs.inodeperGroup

def InodeAddressed (fs : Ext2) (n : Nat) : Prop :=
  ext2GetInode fs n =
    .ok (groupInodeTable fs (groupOf fs n) * fs.blockSize + (n - 1) % fs.inodeperGroup * inodeStride fs)

theorem ext2GetInode_of_located {fs : Ext2} {n : Nat} (hipg : 0 < fs.inodeperGroup) (h1 : 1 ≤ n)
    (hn : n ≤ fs.inodecount) (hloc : GroupLocated fs (groupOf fs n)) :
    ext2GetInode fs n =
      .ok (groupInodeTable fs (groupOf fs n) * fs.blockSize + inodeRecordSize * ((n - 1) % fs.inodeperGroup)) := by
  have hindex : (n + 2 ^ 32 - 1) % 2 ^ 32 = n - 1 := by
    have hlt : fs.inodecount < 2 ^ 32 := le32_lt _ _
    omega
  obtain ⟨blockGroup, hget, hblocks⟩ := hloc
  have htable : blockGroup.inodesTable = some (groupInodeTable fs (groupOf fs n) * fs.blockSize) := by
    simp only [BlockGroup.locations, primaryBlocks, List.map_cons, List.cons.injEq] at hblocks
    exact hblocks.2.2.1
  rw [groupOf] at hget
  simp only [ext2GetInode, if_neg hipg.ne', hindex, hget, inodesTableEntry, htable, deref_some]

theorem inodeAddressed_iff {fs : Ext2} {n : Nat} (hipg : 0 < fs.inodeperGroup) (h1 : 1 ≤ n)
    (hn : n ≤ fs.inodecount) (hloc : GroupLocated fs (groupOf fs n)) :
    InodeAddressed fs n ↔ inodeStride fs = inodeRecordSize ∨ (n - 1) % fs.inodeperGroup = 0 := by
  rw [InodeAddressed, ext2GetInode_of_located hipg h1 hn hloc, Except.ok.injEq, Nat.add_left_cancel_iff, Nat.mul_comm,
    mul_eq_mul_left_iff, eq_comm]

theorem inodeRecord_subset_table {fs : Ext2} (hipg : 0 < fs.inodeperGroup) (n : Nat) :
    Set.Ico (groupInodeTable fs (groupOf fs n) * fs.blockSize + (n - 1) % fs.inodeperGroup * inodeStride fs)
      (groupInodeTable fs (groupOf fs n) * fs.blockSize + (n - 1) % fs.inodeperGroup * inodeStride fs +
        inodeStride fs) ⊆ inodeTableBytes fs (groupOf fs n) := by
  have hlt := Nat.mod_lt (n - 1) hipg
  have hle := Nat.mul_le_mul_right (inodeStride fs) (Nat.succ_le_of_lt hlt)
  rw [Nat.succ_mul] at hle
  exact Set.Ico_subset_Ico (by omega) (by omega)

theorem inodeRecords_disjoint {fs : Ext2} (hv : ValidInodeTables fs) {n n' : Nat} (h1 : 1 ≤ n) (hn : n ≤ fs.inodecount)
    (h1' : 1 ≤ n') (hn' : n' ≤ fs.inodecount) (hne : n ≠ n') {a a' : Nat}
    (ha : a = groupInodeTable fs (groupOf fs n) * fs.blockSize + (n - 1) % fs.inodeperGroup * inodeStride fs)
    (ha' : a' = groupInodeTable fs (groupOf fs n') * fs.blockSize + (n' - 1) % fs.inodeperGroup * inodeStride fs) :
    Disjoint (Set.Ico a (a + inodeStride fs)) (Set.Ico a' (a' + inodeStride fs)) := by
  subst ha ha'
  by_cases hg : groupOf fs n = groupOf fs n'
  · have hi : (n - 1) % fs.inodeperGroup ≠ (n' - 1) % fs.inodeperGroup := by
      intro hi
      have hd := Nat.div_add_mod (n - 1) fs.inodeperGroup
      have hd' := Nat.div_add_mod (n' - 1) fs.inodeperGroup
      rw [groupOf, groupOf] at hg
      rw [hg, hi] at hd
      omega
    have hd := disjoint_of_multiples (inodeStride fs) rfl rfl hi
    rw [Set.Ico_disjoint_Ico] at hd ⊢
    rw [hg]
    omega
  · have hfirst : ∀ n, 1 ≤ n → n ≤ fs.inodecount → groupOf fs n * fs.inodeperGroup < fs.inodecount := by
      intro n h1 hn
      have := Nat.div_mul_le_self (n - 1) fs.inodeperGroup
      rw [groupOf]
      omega
    exact (hv.apart _ _ (hfirst n h1 hn) (hfirst n' h1' hn') hg).mono (inodeRecord_subset_table hv.inodes n)
      (inodeRecord_subset_table hv.inodes n')

/-- Two inode numbers get the records the superblock's stride gives them, and so
disjoint ones, exactly when that stride is 128 or both are the first of a group. -/
theorem inodesAddressed_iff {fs : Ext2} (hv : ValidInodeTables fs) {n n' : Nat} (h1 : 1 ≤ n) (hn : n ≤ fs.inodecount)
    (h1' : 1 ≤ n') (hn' : n' ≤ fs.inodecount) (hloc : GroupLocated fs (groupOf fs n))
    (hloc' : GroupLocated fs (groupOf fs n')) :
    (InodeAddressed fs n ∧ InodeAddressed fs n' ∧ (n ≠ n' → ∃ a a', ext2GetInode fs n = .ok a ∧
      ext2GetInode fs n' = .ok a' ∧ Disjoint (Set.Ico a (a + inodeStride fs)) (Set.Ico a' (a' + inodeStride fs)))) ↔
      inodeStride fs = 128 ∨ (n - 1) % fs.inodeperGroup = 0 ∧ (n' - 1) % fs.inodeperGroup = 0 := by
  have hiff := inodeAddressed_iff hv.inodes h1 hn hloc
  have hiff' := inodeAddressed_iff hv.inodes h1' hn' hloc'
  rw [inodeRecordSize] at hiff hiff'
  rw [or_and_left, ← hiff, ← hiff']
  constructor
  · intro h
    exact ⟨h.1, h.2.1⟩
  · intro h
    obtain ⟨h, h'⟩ := h
    exact ⟨h, h', fun hne => ⟨_, _, h, h', inodeRecords_disjoint hv h1 hn h1' hn' hne rfl rfl⟩⟩

def wideInodeImage : Memory := sampleImage [(1024, 8), (1064, 8), (1112, 256)]

def wideInodeFs : Ext2 := mountedHandle wideInodeImage 1

theorem wideInodeFs_valid : ValidInodeTables wideInodeFs where
  revision := Or.inr ⟨by decide, 1, by decide⟩
  inodes := by decide
  apart := by
    intro group other hg ho hne
    have hipg : wideInodeFs.inodeperGroup = 8 := by decide
    have hc : wideInodeFs.inodecount = 8 := by decide
    rw [hipg, hc] at hg ho
    omega

theorem wideInodeFs_located : GroupLocated wideInodeFs 0 := ⟨_, rfl, by decide⟩

theorem inodesAddressed_iff_wide :
    (InodeAddressed wideInodeFs 1 ∧ InodeAddressed wideInodeFs 2 ∧ (1 ≠ 2 → ∃ a a', ext2GetInode wideInodeFs 1 = .ok a ∧
      ext2GetInode wideInodeFs 2 = .ok a' ∧
      Disjoint (Set.Ico a (a + inodeStride wideInodeFs)) (Set.Ico a' (a' + inodeStride wideInodeFs)))) ↔
      inodeStride wideInodeFs = 128 ∨ (1 - 1) % wideInodeFs.inodeperGroup = 0 ∧
        (2 - 1) % wideInodeFs.inodeperGroup = 0 :=
  inodesAddressed_iff wideInodeFs_valid (by decide) (by decide) (by decide) (by decide)
    wideInodeFs_located wideInodeFs_located

/-- The root inode, number 2, is looked for in the middle of record 1. -/
theorem not_inodeAddressed_wide :
    ext2Create wideInodeImage = .ok wideInodeFs ∧ ValidInodeTables wideInodeFs ∧ 2 ≤ wideInodeFs.inodecount ∧
    GroupLocated wideInodeFs (groupOf wideInodeFs 2) ∧ ¬ InodeAddressed wideInodeFs 2 := by
  have hloc : GroupLocated wideInodeFs (groupOf wideInodeFs 2) := wideInodeFs_located
  refine ⟨rfl, wideInodeFs_valid, by decide, hloc, ?_⟩
  rw [inodeAddressed_iff (by decide) (by decide) (by decide) hloc]
  decide

end FuseExt2
