import FuseExt2.FileData
import FuseExt2.FreeBlocks
import FuseExt2.Namespace

/-! What a superblock must hold for the computations after the mount, against the
one test of it that the mount makes. -/

namespace FuseExt2

open ByteStore

def NoZeroDivisor {α : Type} (outcome : Except Fault α) : Prop := outcome ≠ .error .divideByZero

theorem noZeroDivisor_ok {α : Type} (a : α) : NoZeroDivisor (.ok a) := fun h => by cases h

theorem noZeroDivisor_deref {α : Type} (a : Option α) : NoZeroDivisor (deref a) := by
  cases a with
  | none => exact fun h => by cases h
  | some a => exact noZeroDivisor_ok a

theorem NoZeroDivisor.pass {α β : Type} {outcome : Except Fault α} {fault : Fault} (h : NoZeroDivisor outcome)
    (he : outcome = .error fault) : NoZeroDivisor (.error fault : Except Fault β) := by
  intro hz
  obtain rfl := Except.error.inj hz
  exact h he

section Divisions

variable {fs : Ext2}

theorem ext2FindBlockEntry_divides (he : 0 < fs.entriesPerBlock) (base level k : Nat) :
    NoZeroDivisor (ext2FindBlockEntry fs base level k) := by
  induction level generalizing base k with
  | zero =>
    rw [ext2FindBlockEntry]
    cases hb : deref (ext2GetBlock fs k) with
    | error fault => exact (noZeroDivisor_deref _).pass hb
    | ok block => exact noZeroDivisor_ok _
  | succ level ih =>
    simp only [ext2FindBlockEntry, if_neg (Nat.pow_pos he).ne']
    split
    · exact fun h => by cases h
    · cases hb : deref (ext2GetBlock fs k) with
      | error fault => exact (noZeroDivisor_deref _).pass hb
      | ok block => exact ih _ _

theorem slotLoop_divides (i : Nat) (levels : List Nat) (b offset : Nat) :
    NoZeroDivisor (slotLoop fs i levels b offset) := by
  induction levels generalizing b offset with
  | nil => exact noZeroDivisor_ok b
  | cons level levels ih =>
    rw [slotLoop]
    split
    · simp only
      split
      · exact fun h => by cases h
      · exact ih _ _
    · exact noZeroDivisor_ok b

theorem ext2GetInodeBlockEntry_divides (he : 0 < fs.entriesPerBlock) (node i : Nat) :
    NoZeroDivisor (ext2GetInodeBlockEntry fs node i) := by
  rw [ext2GetInodeBlockEntry]
  cases hs : slotLoop fs i EXT2_INODES_INDIRECTION_LEVEL 0 0 with
  | error fault => exact (slotLoop_divides _ _ _ _).pass hs
  | ok slot =>
    cases hlevel : EXT2_INODES_INDIRECTION_LEVEL[slot]? with
    | none =>
      simp only [hlevel]
      exact fun h => by cases h
    | some level =>
      simp only [hlevel]
      split
      · exact noZeroDivisor_ok _
      · exact ext2FindBlockEntry_divides he _ _ _

theorem dataToCopy_divides (he : 0 < fs.entriesPerBlock) (inode i : Nat) :
    NoZeroDivisor (dataToCopy fs inode i) := by
  rw [dataToCopy]
  cases hentry : ext2GetInodeBlockEntry fs inode (i % 2 ^ 32) with
  | error fault => exact (ext2GetInodeBlockEntry_divides he _ _).pass hentry
  | ok n => exact noZeroDivisor_deref _

theorem readLoop_divides (he : 0 < fs.entriesPerBlock) (inode size fuel b n data chunk : Nat) (buff : Memory) :
    NoZeroDivisor (readLoop fs inode size fuel b n data chunk buff) := by
  induction fuel generalizing b n data chunk buff with
  | zero => exact fun h => by cases h
  | succ fuel ih =>
    rw [readLoop]
    simp only
    split
    · cases hd : dataToCopy fs inode (b + 1) with
      | error fault => exact (dataToCopy_divides he _ _).pass hd
      | ok data => exact ih _ _ _ _ _
    · exact noZeroDivisor_ok _

theorem ext2ReadInodeData_divides (hbs : fs.blockSize ≠ 0) (he : 0 < fs.entriesPerBlock)
    (inode offset size : Nat) (buff : Memory) : NoZeroDivisor (ext2ReadInodeData fs inode offset size buff) := by
  rw [ext2ReadInodeData, if_neg hbs]
  simp only
  cases hd : dataToCopy fs inode (offset / fs.blockSize) with
  | error fault => exact (dataToCopy_divides he _ _).pass hd
  | ok block => exact readLoop_divides he _ _ _ _ _ _ _ _

theorem ext2GetInode_divides (hper : 0 < fs.inodeperGroup) (n : Nat) : NoZeroDivisor (ext2GetInode fs n) := by
  rw [ext2GetInode, if_neg hper.ne']
  rcases inodesTableEntry_cases fs (inodeGroup fs n) ((n + 2 ^ 32 - 1) % 2 ^ 32 % fs.inodeperGroup) with
    hnull | ⟨blockGroup, table, -, -, hentry⟩
  · exact fun h => by cases hnull.symm.trans h
  · exact fun h => by cases hentry.symm.trans h

theorem ext2InodeEntryCreate_divides (hper : 0 < fs.inodeperGroup) (dirEntry : Nat) :
    NoZeroDivisor (ext2InodeEntryCreate fs dirEntry) := by
  rw [ext2InodeEntryCreate]
  cases hget : ext2GetInode fs (directoryEntryInode fs.device dirEntry) with
  | error fault => exact (ext2GetInode_divides hper _).pass hget
  | ok inode => exact noZeroDivisor_ok _

theorem directoryEntrysLoop_divides (hper : 0 < fs.inodeperGroup) (block : Option Nat) (fuel offset : Nat)
    (list : List InodeEntry) : NoZeroDivisor (directoryEntrysLoop fs block fuel offset list) := by
  induction fuel generalizing block offset list with
  | zero => exact fun h => by cases h
  | succ fuel ih =>
    rw [directoryEntrysLoop]
    split
    · cases hb : deref block with
      | error fault => exact (noZeroDivisor_deref _).pass hb
      | ok address =>
        simp only
        split
        · cases hc : ext2InodeEntryCreate fs (address + offset) with
          | error fault => exact (ext2InodeEntryCreate_divides hper _).pass hc
          | ok entry => exact ih _ _ _
        · exact ih _ _ _
    · exact noZeroDivisor_ok _

theorem listInodeLoop_divides (he : 0 < fs.entriesPerBlock) (hper : 0 < fs.inodeperGroup) (root blocks index : Nat)
    (list : List InodeEntry) : NoZeroDivisor (listInodeLoop fs root blocks index list) := by
  induction blocks generalizing index list with
  | zero => exact noZeroDivisor_ok list
  | succ blocks ih =>
    rw [listInodeLoop]
    cases hentry : ext2GetInodeBlockEntry fs root index with
    | error fault => exact (ext2GetInodeBlockEntry_divides he _ _).pass hentry
    | ok n =>
      simp only
      split
      · cases hb : ext2GetBlockDirectoryEntrys fs (ext2GetBlock fs n) list with
        | error fault => exact (directoryEntrysLoop_divides hper _ _ _ _).pass hb
        | ok filled => exact ih _ _
      · exact ih _ _

theorem ext2ListInode_divides (hsectors : shl32 2 fs.logBlockSize ≠ 0) (he : 0 < fs.entriesPerBlock)
    (hper : 0 < fs.inodeperGroup) (root : Nat) : NoZeroDivisor (ext2ListInode fs root) := by
  rw [ext2ListInode]
  split
  · simp only [if_neg hsectors]
    cases hl : listInodeLoop fs root (inodeBlocks fs.device root / shl32 2 fs.logBlockSize) 0 [] with
    | error fault => exact (listInodeLoop_divides he hper _ _ _ _).pass hl
    | ok list => exact noZeroDivisor_ok _
  · exact noZeroDivisor_ok _

theorem blockGroupOffsetLoop_divides (hsize : fs.inodeSize ≠ 0) (g fuel index : Nat) :
    NoZeroDivisor (blockGroupOffsetLoop fs g fuel index) := by
  induction fuel generalizing index with
  | zero => exact fun h => by cases h
  | succ fuel ih =>
    by_cases hstop : g ≤ index ∧ index < 2 ^ 31
    · rw [blockGroupOffsetLoop_stop hstop]
      exact noZeroDivisor_ok _
    · rw [blockGroupOffsetLoop_turn hstop, if_neg hsize]
      exact ih _

theorem ext2GetBlockGroupOffset_divides (hsize : fs.inodeSize ≠ 0) (group : Nat) :
    NoZeroDivisor (ext2GetBlockGroupOffset fs group) := by
  rw [ext2GetBlockGroupOffset]
  cases hl : blockGroupOffsetLoop fs (group % 2 ^ 16) (2 ^ 32 + 1) 0 with
  | error fault => exact (blockGroupOffsetLoop_divides hsize _ _ _).pass hl
  | ok done => exact noZeroDivisor_ok _

end Divisions

/-! The test of the mount. -/

/-- The values of a handle are those of its superblock, and no computation with it
divides by zero. -/
structure ComputesSafely (fs : Ext2) : Prop where
  blockSize_ne : fs.blockSize ≠ 0
  entriesPerBlock_ne : fs.entriesPerBlock ≠ 0
  blockSize_eq : fs.blockSize = 1024 * 2 ^ fs.logBlockSize
  getInode : ∀ n, NoZeroDivisor (ext2GetInode fs n)
  listInode : ∀ root, NoZeroDivisor (ext2ListInode fs root)
  readInodeData : ∀ inode offset size buff, NoZeroDivisor (ext2ReadInodeData fs inode offset size buff)
  findBlockEntry : ∀ base level k, NoZeroDivisor (ext2FindBlockEntry fs base level k)
  blockGroupOffset : ∀ group, NoZeroDivisor (ext2GetBlockGroupOffset fs group)

/-- The mount counts the groups, and every computation after it is safe. -/
def MountsSafely (device : Memory) : Prop := ∃ fs, ext2Create device = .ok fs ∧ ComputesSafely fs

/-- What the computations rely on, field by field of the superblock. -/
structure SafeSuperblock (device : Memory) : Prop where
  logBlockSize_lt : le32 device (superblockAddress + 24) < 22
  blockperGroup_ne : le32 device (superblockAddress + 32) ≠ 0
  inodeperGroup_ne : le32 device (superblockAddress + 40) ≠ 0
  inodeSize_ne : le16 device (superblockAddress + 88) ≠ 0

theorem shl32_eq_of_lt {a k : Nat} (hk : k < 32) (h : a * 2 ^ k < 2 ^ 32) : shl32 a k = a * 2 ^ k := by
  rw [shl32, Nat.mod_eq_of_lt hk, Nat.mod_eq_of_lt h]

theorem ext2GetBlockGroupOffset_one {fs : Ext2} (hz : fs.inodeSize = 0) :
    ext2GetBlockGroupOffset fs 1 = .error .divideByZero := by
  rw [ext2GetBlockGroupOffset, blockGroupOffsetLoop_turn (by omega) (2 ^ 32), if_pos hz]

theorem ComputesSafely.safeSuperblock {device : Memory} {fs : Ext2} (hfs : ext2Create device = .ok fs)
    (h : ComputesSafely fs) : SafeSuperblock fs.device where
  logBlockSize_lt := by
    have hsize := fs.blockSize_lt
    rw [h.blockSize_eq] at hsize
    exact (Nat.pow_lt_pow_iff_right (by decide : 1 < 2)).mp (by omega : 2 ^ fs.logBlockSize < 2 ^ 22)
  blockperGroup_ne := by
    obtain ⟨-, hper, rfl⟩ := ext2Create_eq_ok_iff.mp hfs
    exact hper
  inodeperGroup_ne := by
    intro hz
    have hz : fs.inodeperGroup = 0 := hz
    refine h.getInode 1 ?_
    rw [ext2GetInode, if_pos hz]
  inodeSize_ne := fun hz => h.blockGroupOffset 1 (ext2GetBlockGroupOffset_one hz)

theorem SafeSuperblock.computesSafely {device : Memory} {fs : Ext2} (hfs : ext2Create device = .ok fs)
    (h : SafeSuperblock fs.device) : ComputesSafely fs := by
  have hlog : fs.logBlockSize < 22 := h.logBlockSize_lt
  have hpow : 2 ^ fs.logBlockSize < 2 ^ 22 := Nat.pow_lt_pow_right (by decide) hlog
  have hsize : fs.blockSize = 1024 * 2 ^ fs.logBlockSize := by
    have hshl : shl32 1024 fs.logBlockSize = 1024 * 2 ^ fs.logBlockSize := shl32_eq_of_lt (by omega) (by omega)
    obtain ⟨-, -, rfl⟩ := ext2Create_eq_ok_iff.mp hfs
    exact hshl
  have hpos := Nat.two_pow_pos fs.logBlockSize
  have hbs : fs.blockSize ≠ 0 := by omega
  have he : 0 < fs.entriesPerBlock := by
    rw [fs.entriesPerBlock_eq]
    omega
  have hper : 0 < fs.inodeperGroup := Nat.pos_of_ne_zero h.inodeperGroup_ne
  have hsectors : shl32 2 fs.logBlockSize ≠ 0 := by
    rw [shl32_eq_of_lt (by omega) (by omega)]
    omega
  exact {
    blockSize_ne := hbs
    entriesPerBlock_ne := he.ne'
    blockSize_eq := hsize
    getInode := ext2GetInode_divides hper
    listInode := ext2ListInode_divides hsectors he hper
    readInodeData := ext2ReadInodeData_divides hbs he
    findBlockEntry := ext2FindBlockEntry_divides he
    blockGroupOffset := ext2GetBlockGroupOffset_divides h.inodeSize_ne }

/-- The mount tests the magic number alone. A superblock that it accepts is safe to
compute with exactly where four fields of it are as the computations need them. -/
theorem mountsSafely_iff {device : Memory} (hmagic : le16 device (superblockAddress + 56) = EXT2_SUPER_MAGIC) :
    MountsSafely device ↔ SafeSuperblock device := by
  constructor
  · intro h
    obtain ⟨fs, hfs, hsafe⟩ := h
    have hdevice : fs.device = device := by
      obtain ⟨-, -, rfl⟩ := ext2Create_eq_ok_iff.mp hfs
      rfl
    exact hdevice ▸ hsafe.safeSuperblock hfs
  · intro h
    have hfs := ext2Create_eq_ok_iff.mpr ⟨hmagic, h.blockperGroup_ne, rfl⟩
    exact ⟨_, hfs, h.computesSafely hfs⟩

theorem mountsSafely_iff_sample : MountsSafely (sampleImage []) ↔ SafeSuperblock (sampleImage []) :=
  mountsSafely_iff (by decide)

/-- The sample image in revision 0, where the field of the inode size is not set. -/
theorem not_mountsSafely_revision :
    le16 (sampleImage [(1100, 0), (1112, 0)]) (superblockAddress + 56) = EXT2_SUPER_MAGIC ∧
    ext2Create (sampleImage [(1100, 0), (1112, 0)]) = .ok (sampleFs [(1100, 0), (1112, 0)]) ∧
    ext2GetBlockGroupOffset (sampleFs [(1100, 0), (1112, 0)]) 1 = .error .divideByZero ∧
    ¬ MountsSafely (sampleImage [(1100, 0), (1112, 0)]) := by
  have hzero : (sampleFs [(1100, 0), (1112, 0)]).inodeSize = 0 := by decide
  refine ⟨by decide, rfl, ?_, fun h => ?_⟩
  · exact ext2GetBlockGroupOffset_one hzero
  · obtain ⟨fs, hfs, hsafe⟩ := h
    obtain ⟨-, -, rfl⟩ := ext2Create_eq_ok_iff.mp hfs
    exact (hsafe.safeSuperblock hfs).inodeSize_ne hzero

end FuseExt2
