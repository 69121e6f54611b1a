import FuseExt2.BlockMap

/-! The layout of the ext2 format: the primary descriptor table, the bitmaps,
the inode tables, and which blocks belong to which inode. -/

namespace FuseExt2

open ByteStore

def GroupExists (fs : Ext2) (group : Nat) : Prop :=
  fs.firstDataBlock + group * fs.blockperGroup < fs.blockcount

instance (fs : Ext2) (group : Nat) : Decidable (GroupExists fs group) := Nat.decLt _ _

/-- Entry `group` of the table that starts at block `first_data_block + 1`. -/
def primaryDescriptor (fs : Ext2) (group : Nat) : Nat :=
  (fs.firstDataBlock + 1) * fs.blockSize + descriptorSize * group

def groupBlockBitmap (fs : Ext2) (group : Nat) : Nat :=
  descriptorBlockBitmap fs.device (primaryDescriptor fs group)

def groupInodeBitmap (fs : Ext2) (group : Nat) : Nat :=
  descriptorInodeBitmap fs.device (primaryDescriptor fs group)

def groupInodeTable (fs : Ext2) (group : Nat) : Nat :=
  descriptorInodeTable fs.device (primaryDescriptor fs group)

/-- The stride of the records of an inode table: fixed in revision 0. -/
def inodeStride (fs : Ext2) : Nat := if fs.revLevel = 0 then 128 else fs.inodeSize

def inodeTableBlocks (fs : Ext2) : Nat :=
  (fs.inodeperGroup * inodeStride fs + fs.blockSize - 1) / fs.blockSize

/-- Bit `index` of a bitmap of the format: bit 0 is the lowest of byte 0. -/
def bitmapBit (m : Memory) (bitmap index : Nat) : Bool := (m (bitmap + index / 8)).toNat.testBit (index % 8)

/-- Blocks are numbered group by group, from `first_data_block` on. -/
def FreeBlock (fs : Ext2) (b : Nat) : Prop :=
  fs.firstDataBlock ≤ b ∧ b < fs.blockcount ∧
    bitmapBit fs.device (groupBlockBitmap fs ((b - fs.firstDataBlock) / fs.blockperGroup) * fs.blockSize)
      ((b - fs.firstDataBlock) % fs.blockperGroup) = false

instance (fs : Ext2) (b : Nat) : Decidable (FreeBlock fs b) := by unfold FreeBlock; infer_instance

def MetadataBlock (fs : Ext2) (b : Nat) : Prop :=
  b = 0 ∨ superblockAddress ∈ blockBytes fs b ∨ ∃ group, GroupExists fs group ∧
    (primaryDescriptor fs group ∈ blockBytes fs b ∨ b = groupBlockBitmap fs group ∨
      b = groupInodeBitmap fs group ∨
      groupInodeTable fs group ≤ b ∧ b < groupInodeTable fs group + inodeTableBlocks fs)

def metadataBytes (fs : Ext2) : Set Nat := {a | ∃ b, MetadataBlock fs b ∧ a ∈ blockBytes fs b}

/-- A symbolic link keeps a short target in the place of the map: then its only
block, if any, is the one of its access list. Blocks are counted in 512 bytes. -/
def FastSymlink (fs : Ext2) (node : Nat) : Prop :=
  inodeHasModeFlag fs.device node EXT2_IFLNK = true ∧
    inodeBlocks fs.device node = if inodeFileAcl fs.device node = 0 then 0 else fs.blockSize / 512

instance (fs : Ext2) (node : Nat) : Decidable (FastSymlink fs node) := by unfold FastSymlink; infer_instance

/-- Devices, pipes and sockets have no block map either. -/
def HasBlockMap (fs : Ext2) (node : Nat) : Prop :=
  inodeHasModeFlag fs.device node EXT2_IFREG = true ∨ inodeHasModeFlag fs.device node EXT2_IFDIR = true ∨
    inodeHasModeFlag fs.device node EXT2_IFLNK = true ∧ ¬ FastSymlink fs node

instance (fs : Ext2) (node : Nat) : Decidable (HasBlockMap fs node) := by unfold HasBlockMap; infer_instance

theorem HasBlockMap.not_fastSymlink {fs : Ext2} {node : Nat} (h : HasBlockMap fs node) : ¬ FastSymlink fs node := by
  rintro hfast
  have hlink : inodeMode fs.device node &&& 0xF000 = EXT2_IFLNK := beq_iff_eq.mp hfast.1
  rcases h with h | h | h
  · cases hlink.symm.trans (beq_iff_eq.mp h)
  · cases hlink.symm.trans (beq_iff_eq.mp h)
  · exact h.2 hfast

theorem hasBlockMap_congr {fs : Ext2} {m : Memory} {node : Nat} (h : Set.EqOn fs.device m (inodeRecordBytes node)) :
    HasBlockMap (fs.withDevice m) node ↔ HasBlockMap fs node := by
  have hacl : inodeFileAcl m node = inodeFileAcl fs.device node := inodeRecord_word_congr h (by decide)
  simp only [HasBlockMap, FastSymlink, inodeHasModeFlag, Ext2.withDevice_device, Ext2.withDevice_blockSize,
    inodeMode_congr h, inodeBlocks_congr h, hacl]

/-- The blocks the inode's map names, data blocks and indirect blocks. -/
def fileBlocks (fs : Ext2) (node : Nat) : Set Nat :=
  {b | HasBlockMap fs node ∧ b ≠ 0 ∧ ∃ i < blockMapCapacity fs, b ∈ referencePath fs node i}

def dataBlocks (fs : Ext2) (node : Nat) : Set Nat :=
  {b | HasBlockMap fs node ∧ b ≠ 0 ∧ ∃ i < blockMapCapacity fs, referenceBlock fs node i = b}

/-- Where the format keeps the byte of a file at `pos`: nowhere if that is in a hole. -/
def fileByteAddress (fs : Ext2) (node pos : Nat) : Option Nat :=
  if FastSymlink fs node then if pos < 60 then some (node + 40 + pos) else none
  else if HasBlockMap fs node ∧ pos / fs.blockSize < blockMapCapacity fs ∧
      referenceBlock fs node (pos / fs.blockSize) ≠ 0 then
    some (referenceBlock fs node (pos / fs.blockSize) * fs.blockSize + pos % fs.blockSize)
  else none

def fileByte (fs : Ext2) (node pos : Nat) : UInt8 := ((fileByteAddress fs node pos).map fs.device).getD 0

/-- `inodes` are the addresses of the inode records in use. -/
structure WellFormedImage (fs : Ext2) (inodes : Set Nat) : Prop where
  sized : Ext2Sized fs
  aligned : ∀ node ∈ inodes, inodeRecordSize ∣ node
  records : ∀ node ∈ inodes, inodeRecordBytes node ⊆ metadataBytes fs
  owned : ∀ node ∈ inodes, ∀ b ∈ fileBlocks fs node, b < fs.blockcount ∧ ¬ MetadataBlock fs b
  unique : ∀ node ∈ inodes, ∀ node' ∈ inodes, ∀ b ∈ fileBlocks fs node, b ∈ fileBlocks fs node' → node = node'
  free : ∀ b, FreeBlock fs b → ¬ MetadataBlock fs b ∧ ∀ node ∈ inodes, b ∉ fileBlocks fs node

theorem dataBlocks_subset_fileBlocks (fs : Ext2) (node : Nat) : dataBlocks fs node ⊆ fileBlocks fs node := by
  rintro b ⟨hmap, hne, i, hi, rfl⟩
  refine ⟨hmap, hne, i, hi, ?_⟩
  rw [referenceBlock] at hne ⊢
  cases hp : referencePath fs node i with
  | nil => exact absurd (by rw [hp]; rfl) hne
  | cons b bs =>
    rw [List.getLastD_cons]
    exact List.getLastD_mem_cons

theorem superblockBytes_subset_metadataBytes {fs : Ext2} (hbs : Ext2Sized fs) :
    superblockBytes ⊆ metadataBytes fs := by
  obtain ⟨k, -, hk⟩ := hbs
  rintro a ⟨hl, hu⟩
  have hpos := Nat.two_pow_pos k
  have hl' : 1024 ≤ a := hl
  have hu' : a < 1228 := hu
  rcases Nat.eq_zero_or_pos k with rfl | hk1
  · have hsb : superblockAddress = 1024 := rfl
    refine ⟨1, Or.inr (Or.inl ⟨?_, ?_⟩), ?_, ?_⟩ <;> omega
  · -- a block of 2 KiB or more: the superblock lies inside block 0
    have h2 : 2 ^ 1 ≤ 2 ^ k := Nat.pow_le_pow_right (by decide) hk1
    refine ⟨0, Or.inl rfl, ?_, ?_⟩ <;> omega

theorem word_subset_metadataBytes {fs : Ext2} (hbs : Ext2Sized fs) : Set.Ico 0 4 ⊆ metadataBytes fs := by
  rintro a ⟨-, hu⟩
  obtain ⟨hle, -⟩ := hbs.le
  refine ⟨0, Or.inl rfl, ?_, ?_⟩
  · omega
  · omega

theorem mem_fileBlocks_of_direct {fs : Ext2} {node b : Nat}
    (h : ∀ i, 12 ≤ i → i < 15 → inodeBlock fs.device node i = 0) (hb : b ∈ fileBlocks fs node) :
    ∃ i < 12, b = inodeBlock fs.device node i := by
  obtain ⟨-, hne, i, -, hi⟩ := hb
  by_cases hd : i < 12
  · refine ⟨i, hd, ?_⟩
    simpa [referencePath, hd] using hi
  · exfalso
    simp only [referencePath, hd, if_false, h 12 (by omega) (by omega), h 13 (by omega) (by omega),
      h 14 (by omega) (by omega), indirectPath, if_true] at hi
    refine hne ?_
    split at hi
    · exact List.mem_singleton.mp hi
    · split at hi
      · exact List.mem_singleton.mp hi
      · exact List.mem_singleton.mp hi

/-- A device of 65 blocks of 1 KiB in one group, with a root directory of one block
and an entry "f" for inode 12, a regular file. `words` add to it or replace. -/
def sampleImage (words : List (Nat × Nat)) : Memory := ofWords (words ++
  [(1024, 16), (1028, 65), (1044, 1), (1048, 0), (1056, 64), (1064, 16), (1080, 0xEF53), (1100, 1), (1112, 128),
    (2048, 3), (2052, 4), (2056, 5), (3072, 0x7F), (4096, 0xFFF),
    (5248, 0x41ED), (5252, 1024), (5272, 0x20000), (5276, 2), (5288, 7), (6528, 0x81A4), (6552, 0x10000),
    (7168, 2), (7172, 0x201000C), (7176, 0x2E), (7180, 2), (7184, 0x202000C), (7188, 0x2E2E),
    (7192, 12), (7196, 0x10103E8), (7200, 0x66)])

def sampleFs (words : List (Nat × Nat)) : Ext2 := mountedHandle (sampleImage words) 1

/-- The sample image with a file of `size` bytes whose first block is block 8. -/
def fileFs (size : Nat) : Ext2 := sampleFs [(3072, 0xFF), (6532, size), (6556, 2), (6568, 8)]

end FuseExt2
