import FuseExt2.ByteStore

/-! The mounted device: the superblock, inode and descriptor records as the
code's packed structs lay them out, the `t_ext2` handle and its blocks.
Addresses are offsets from the start of the mapping. -/

namespace FuseExt2

open ByteStore

inductive Fault
  | nullPointer
  | outOfBounds
  | divideByZero
  | overflow
  | diverges
  | notExt2
  deriving DecidableEq, Repr

def deref {α : Type} : Option α → Except Fault α
  | some a => .ok a
  | none => .error .nullPointer

@[simp] theorem deref_some {α : Type} (a : α) : deref (some a) = .ok a := rfl

@[simp] theorem deref_none {α : Type} : deref (none : Option α) = .error .nullPointer := rfl

/-- `a << k` on 32-bit words as compiled for x86, which takes the count modulo 32. -/
def shl32 (a k : Nat) : Nat := a * 2 ^ (k % 32) % 2 ^ 32

def EXT2_SUPER_MAGIC : Nat := 0xEF53

def EXT2_ROOT_INODE_INDEX : Nat := 1

def EXT2_IFLNK : Nat := 0xA000

def EXT2_IFREG : Nat := 0x8000

def EXT2_IFDIR : Nat := 0x4000

/-- `t_ext2`: the mapped device and the values computed from it at mount time. -/
structure Ext2 where
  device : Memory
  blockSize : Nat
  inodeBlocksAmount : Nat
  entriesPerBlock : Nat
  numberOfBlockGroups : Nat
  blockSize_lt : blockSize < 2 ^ 32
  entriesPerBlock_eq : entriesPerBlock = blockSize / 4
  numberOfBlockGroups_lt : numberOfBlockGroups < 2 ^ 16

def Ext2.withDevice (fs : Ext2) (m : Memory) : Ext2 := { fs with device := m }

section WithDevice

variable (fs : Ext2) (m m' : Memory)

@[simp] theorem Ext2.withDevice_device : (fs.withDevice m).device = m := rfl

@[simp] theorem Ext2.withDevice_blockSize : (fs.withDevice m).blockSize = fs.blockSize := rfl

@[simp] theorem Ext2.withDevice_entriesPerBlock :
    (fs.withDevice m).entriesPerBlock = fs.entriesPerBlock := rfl

@[simp] theorem Ext2.withDevice_numberOfBlockGroups :
    (fs.withDevice m).numberOfBlockGroups = fs.numberOfBlockGroups := rfl

@[simp] theorem Ext2.withDevice_self : fs.withDevice fs.device = fs := rfl

@[simp] theorem Ext2.withDevice_withDevice :
    (fs.withDevice m).withDevice m' = fs.withDevice m' := rfl

end WithDevice

/-! The primary superblock, at byte 1024 of the device. -/

def superblockAddress : Nat := 1024

def superblockSize : Nat := 204

def Ext2.inodecount (fs : Ext2) : Nat := le32 fs.device superblockAddress

def Ext2.blockcount (fs : Ext2) : Nat := le32 fs.device (superblockAddress + 4)

def Ext2.firstDataBlock (fs : Ext2) : Nat := le32 fs.device (superblockAddress + 20)

def Ext2.logBlockSize (fs : Ext2) : Nat := le32 fs.device (superblockAddress + 24)

def Ext2.blockperGroup (fs : Ext2) : Nat := le32 fs.device (superblockAddress + 32)

def Ext2.inodeperGroup (fs : Ext2) : Nat := le32 fs.device (superblockAddress + 40)

def Ext2.magic (fs : Ext2) : Nat := le16 fs.device (superblockAddress + 56)

def Ext2.revLevel (fs : Ext2) : Nat := le32 fs.device (superblockAddress + 76)

def Ext2.inodeSize (fs : Ext2) : Nat := le16 fs.device (superblockAddress + 88)

def superblockBytes : Set Nat := Set.Ico superblockAddress (superblockAddress + superblockSize)

theorem superblock_word_congr {m m' : Memory} (h : Set.EqOn m m' superblockBytes) {k : Nat}
    (hk : k + 4 ≤ superblockSize) : le32 m' (superblockAddress + k) = le32 m (superblockAddress + k) :=
  (le32_congr (h.mono (Set.Ico_subset_Ico (by omega) (by omega)))).symm

/-! The fields of an inode record (`t_ext2_inode`, 128 bytes) at address `node`. -/

def inodeMode (m : Memory) (node : Nat) : Nat := le16 m node

def inodeDataSize (m : Memory) (node : Nat) : Nat := le32 m (node + 4)

def inodeLinksCount (m : Memory) (node : Nat) : Nat := le16 m (node + 26)

def inodeBlocks (m : Memory) (node : Nat) : Nat := le32 m (node + 28)

def inodeBlock (m : Memory) (node index : Nat) : Nat := le32 m (node + 40 + 4 * index)

def inodeFileAcl (m : Memory) (node : Nat) : Nat := le32 m (node + 104)

def inodeRecordSize : Nat := 128

def inodeRecordBytes (node : Nat) : Set Nat := Set.Ico node (node + inodeRecordSize)

def inodeHasModeFlag (m : Memory) (node flag : Nat) : Bool := inodeMode m node &&& 0xF000 == flag

section RecordCongr

variable {m m' : Memory} {node : Nat}

theorem inodeRecord_word_congr (h : Set.EqOn m m' (inodeRecordBytes node)) {k : Nat} (hk : k + 4 ≤ inodeRecordSize) :
    le32 m' (node + k) = le32 m (node + k) :=
  (le32_congr (h.mono (Set.Ico_subset_Ico (by omega) (by omega)))).symm

theorem inodeMode_congr (h : Set.EqOn m m' (inodeRecordBytes node)) : inodeMode m' node = inodeMode m node :=
  (le16_congr (h.mono (Set.Ico_subset_Ico le_rfl (by rw [inodeRecordSize]; omega)))).symm

theorem inodeDataSize_congr (h : Set.EqOn m m' (inodeRecordBytes node)) :
    inodeDataSize m' node = inodeDataSize m node := inodeRecord_word_congr h (by decide)

theorem inodeBlocks_congr (h : Set.EqOn m m' (inodeRecordBytes node)) : inodeBlocks m' node = inodeBlocks m node :=
  inodeRecord_word_congr h (by decide)

theorem inodeBlock_congr (h : Set.EqOn m m' (inodeRecordBytes node)) {index : Nat} (hi : index < 15) :
    inodeBlock m' node index = inodeBlock m node index := by
  rw [inodeBlock, inodeBlock, Nat.add_assoc]
  exact inodeRecord_word_congr h (by rw [inodeRecordSize]; omega)

end RecordCongr

/-! The first fields of a group descriptor (`t_ext2_block_group_descriptor`). -/

def descriptorBlockBitmap (m : Memory) (descriptor : Nat) : Nat := le32 m descriptor

def descriptorInodeBitmap (m : Memory) (descriptor : Nat) : Nat := le32 m (descriptor + 4)

def descriptorInodeTable (m : Memory) (descriptor : Nat) : Nat := le32 m (descriptor + 8)

def descriptorSize : Nat := 32

/-! Mounting. -/

def EXT2_INODES_INDIRECTION_LEVEL : List Nat := [0, 0, 0, 0, 0, 0, 0, 0, 0, 0, 0, 0, 1, 2, 3]

def ext2GetBlockSize (m : Memory) : Nat := shl32 1024 (le32 m (superblockAddress + 24))

/-- `powl` is exact on these arguments; the sum is kept in 32 bits. -/
def ext2GetInodeBlocksAmount (entriesPerBlock : Nat) : Nat :=
  EXT2_INODES_INDIRECTION_LEVEL.foldl (fun blocks level => (blocks + entriesPerBlock ^ level) % 2 ^ 32) 0

/-- The quotient of two 32-bit numbers in double precision has the exact floor.
The field it is stored in has 16 bits. -/
def ext2GetNumberOfBlockGroup (m : Memory) : Except Fault Nat :=
  let blockcount := le32 m (superblockAddress + 4)
  let firstDataBlock := le32 m (superblockAddress + 20)
  let blockperGroup := le32 m (superblockAddress + 32)
  if blockperGroup = 0 then .error .divideByZero
  else .ok ((blockcount + 2 ^ 32 - firstDataBlock) % 2 ^ 32 / blockperGroup)

def mountedHandle (device : Memory) (groups : Nat) : Ext2 where
  device := device
  blockSize := ext2GetBlockSize device
  inodeBlocksAmount := ext2GetInodeBlocksAmount (ext2GetBlockSize device / 4)
  entriesPerBlock := ext2GetBlockSize device / 4
  numberOfBlockGroups := groups % 2 ^ 16
  blockSize_lt := Nat.mod_lt _ (by decide)
  entriesPerBlock_eq := rfl
  numberOfBlockGroups_lt := Nat.mod_lt _ (by decide)

def ext2Create (device : Memory) : Except Fault Ext2 :=
  if le16 device (superblockAddress + 56) ≠ EXT2_SUPER_MAGIC then .error .notExt2
  else match ext2GetNumberOfBlockGroup device with
    | .error fault => .error fault
    | .ok groups => .ok (mountedHandle device groups)

theorem ext2Create_eq_ok_iff {device : Memory} {fs : Ext2} :
    ext2Create device = .ok fs ↔ le16 device (superblockAddress + 56) = EXT2_SUPER_MAGIC ∧
      le32 device (superblockAddress + 32) ≠ 0 ∧ fs = mountedHandle device
        ((le32 device (superblockAddress + 4) + 2 ^ 32 - le32 device (superblockAddress + 20)) % 2 ^ 32 /
          le32 device (superblockAddress + 32)) := by
  rw [ext2Create, ext2GetNumberOfBlockGroup]
  by_cases hmagic : le16 device (superblockAddress + 56) = EXT2_SUPER_MAGIC
  · by_cases hzero : le32 device (superblockAddress + 32) = 0
    · simp [hmagic, hzero]
    · simp [hmagic, hzero, eq_comm]
  · simp [hmagic]

/-- `ext2_get_block`: the parameter has 16 bits and the product 32. -/
def ext2GetBlock (fs : Ext2) (blockNumber : Nat) : Option Nat :=
  let blockNumber := blockNumber % 2 ^ 16
  if fs.blockcount ≤ blockNumber then none
  else some (blockNumber * fs.blockSize % 2 ^ 32)

theorem ext2GetBlock_of_mod_lt {fs : Ext2} {n : Nat} (h : n % 2 ^ 16 < fs.blockcount) :
    ext2GetBlock fs n = some (n % 2 ^ 16 * fs.blockSize % 2 ^ 32) := if_neg (Nat.not_le.mpr h)

theorem ext2GetBlock_of_le {fs : Ext2} {n : Nat} (h : ¬ n % 2 ^ 16 < fs.blockcount) :
    ext2GetBlock fs n = none := if_pos (Nat.not_lt.mp h)

theorem ext2GetBlock_zero {fs : Ext2} (h : 0 < fs.blockcount) : ext2GetBlock fs 0 = some 0 := by
  rw [ext2GetBlock_of_mod_lt (by simpa using h), Nat.zero_mod, Nat.zero_mul, Nat.zero_mod]

/-- The block sizes of the ext2 format, 1 KiB to 64 KiB. -/
def Ext2Sized (fs : Ext2) : Prop := ∃ k ≤ 6, fs.blockSize = 1024 * 2 ^ k

theorem Ext2Sized.powerOfTwo {fs : Ext2} (h : Ext2Sized fs) : ∃ k, fs.blockSize = 1024 * 2 ^ k := by
  obtain ⟨k, -, hk⟩ := h
  exact ⟨k, hk⟩

theorem Ext2Sized.le {fs : Ext2} (h : Ext2Sized fs) : 1024 ≤ fs.blockSize ∧ fs.blockSize ≤ 65536 := by
  obtain ⟨k, hk, he⟩ := h
  have h1 : 2 ^ k ≤ 2 ^ 6 := Nat.pow_le_pow_right (by decide) hk
  have h2 : 0 < 2 ^ k := Nat.two_pow_pos k
  omega

theorem Ext2Sized.pos {fs : Ext2} (h : Ext2Sized fs) : 0 < fs.blockSize := by
  have := h.le
  omega

def blockBytes (fs : Ext2) (blockNumber : Nat) : Set Nat :=
  Set.Ico (blockNumber * fs.blockSize) (blockNumber * fs.blockSize + fs.blockSize)

theorem ext2GetBlock_of_lt {fs : Ext2} (hbs : Ext2Sized fs) {n : Nat} (hn : n < fs.blockcount)
    (h16 : n < 2 ^ 16) : ext2GetBlock fs n = some (n * fs.blockSize) := by
  have hle := Nat.mul_le_mul (show n ≤ 65535 by omega) hbs.le.2
  have hlt : n * fs.blockSize < 2 ^ 32 := lt_of_le_of_lt hle (by decide)
  rw [ext2GetBlock_of_mod_lt (by rwa [Nat.mod_eq_of_lt h16]), Nat.mod_eq_of_lt h16, Nat.mod_eq_of_lt hlt]

theorem ext2GetBlock_eq {fs : Ext2} (hbs : Ext2Sized fs) (n : Nat) :
    ext2GetBlock fs n =
      if n % 2 ^ 16 < fs.blockcount then some (n % 2 ^ 16 * fs.blockSize) else none := by
  have hlt : n % 2 ^ 16 < 2 ^ 16 := Nat.mod_lt _ (by decide)
  by_cases h : n % 2 ^ 16 < fs.blockcount
  · rw [if_pos h, ← ext2GetBlock_of_lt hbs h hlt, ext2GetBlock, ext2GetBlock, Nat.mod_mod]
  · rw [if_neg h, ext2GetBlock_of_le h]

theorem eq_of_mem_blockBytes {fs : Ext2} {a n n' : Nat} (h : a ∈ blockBytes fs n)
    (h' : a ∈ blockBytes fs n') : n = n' := by
  obtain ⟨h1, h2⟩ := h
  obtain ⟨h3, h4⟩ := h'
  have hpos : 0 < fs.blockSize := by omega
  have e (b : Nat) (hl : b * fs.blockSize ≤ a) (hu : a < b * fs.blockSize + fs.blockSize) :
      a / fs.blockSize = b := by
    rw [Nat.div_eq_iff hpos]
    omega
  rw [← e n h1 h2, ← e n' h3 h4]

theorem blockcount_congr {fs : Ext2} {m : Memory} (h : Set.EqOn fs.device m superblockBytes) :
    (fs.withDevice m).blockcount = fs.blockcount := superblock_word_congr h (by decide)

theorem ext2GetBlock_congr {fs : Ext2} {m : Memory} (h : Set.EqOn fs.device m superblockBytes)
    (n : Nat) : ext2GetBlock (fs.withDevice m) n = ext2GetBlock fs n := by
  simp only [ext2GetBlock, blockcount_congr h, Ext2.withDevice_blockSize]

end FuseExt2
