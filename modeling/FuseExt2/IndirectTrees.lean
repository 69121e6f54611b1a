import FuseExt2.PointerTree
import FuseExt2.Layout

/-! The two halves of the block map at every index: where the slot loop stays in
its table, and what the walk of `ext2_find_block_entry` makes of a tree. -/

namespace FuseExt2

open ByteStore PointerTree

/-! The slot loop. -/

/-- The loop ends with a slot of the tables, and no sum of it leaves an int. -/
def FindsSlot (fs : Ext2) (entryIndex : Nat) : Prop :=
  ∃ slot < 15, slotLoop fs entryIndex EXT2_INODES_INDIRECTION_LEVEL 0 0 = .ok slot

theorem not_findsSlot {fs : Ext2} {entryIndex : Nat} (hout : ¬ InSlotTable fs.entriesPerBlock entryIndex) :
    ¬ FindsSlot fs entryIndex := by
  intro h
  obtain ⟨slot, hslot, hloop⟩ := h
  rcases slotLoop_of_not_inSlotTable hout with hs | hs
  · cases hs.symm.trans hloop
  · obtain rfl := Except.ok.inj (hs.symm.trans hloop)
    exact absurd hslot (Nat.lt_irrefl 15)

/-- The loop finds a slot up to the last index of the double indirect tree and one
more, if the offset there fits an int, and for no index after it. -/
theorem findsSlot_iff (fs : Ext2) (entryIndex : Nat) :
    FindsSlot fs entryIndex ↔ InSlotTable fs.entriesPerBlock entryIndex := by
  constructor
  · intro h
    by_contra hout
    exact not_findsSlot hout h
  · intro h
    by_cases hi : entryIndex < 12
    · refine ⟨entryIndex, by omega, ?_⟩
      rw [slotLoop_levels, if_pos hi]
    · refine ⟨11 + slotLevel fs.entriesPerBlock entryIndex, ?_, slotLoop_of_inSlotTable (by omega) h⟩
      have := slotLevel_bounds fs.entriesPerBlock entryIndex
      omega

/-- Index 65805 is in the triple indirect tree of the format. -/
theorem not_findsSlot_sample :
    ext2Create (sampleImage []) = .ok (sampleFs []) ∧ (sampleFs []).blockSize = 1024 ∧
    65805 < blockMapCapacity (sampleFs []) ∧ ¬ FindsSlot (sampleFs []) 65805 := by
  have hout : ¬ InSlotTable (sampleFs []).entriesPerBlock 65805 := by decide
  exact ⟨rfl, by decide, by decide, not_findsSlot hout⟩

/-! The trees. -/

def pointerAt (fs : Ext2) (block index : Nat) : Nat := le32 fs.device (block * fs.blockSize + 4 * index)

def treeBlocks (fs : Ext2) (level base : Nat) : Set Nat := nodes (pointerAt fs) fs.entriesPerBlock level base

def treeLeaves (fs : Ext2) (level base : Nat) : List Nat := leaves (pointerAt fs) fs.entriesPerBlock level base

def TreeAt (fs : Ext2) (level base : Nat) : Prop :=
  ∀ b ∈ treeBlocks fs level base, b ≠ 0 ∧ b < min fs.blockcount 65536

/-- The map of the format reaches the leaves of a tree in this order. -/
theorem getElem?_treeLeaves {fs : Ext2} (level : Nat) {base k : Nat} (htree : TreeAt fs level base)
    (hk : k < fs.entriesPerBlock ^ level) :
    (treeLeaves fs level base)[k]? = some ((indirectPath fs level base k).getLastD 0) := by
  rw [treeLeaves, getElem?_leaves _ _ _ _ hk]
  congr 1
  induction level generalizing base k with
  | zero => rfl
  | succ level ih =>
    have hsub : TreeAt fs level (pointerAt fs base (k / fs.entriesPerBlock ^ level)) :=
      fun b hb => htree b (child_subset_nodes _ _ base (digit_lt hk) hb)
    have hrest : k % fs.entriesPerBlock ^ level < fs.entriesPerBlock ^ level :=
      Nat.mod_lt k (pow_pos_of_lt_pow_succ hk)
    rw [descend, ih hsub hrest, indirectPath, if_neg (htree base (self_mem_nodes _ _ _ _)).1]
    cases level with
    | zero => rfl
    | succ level => rfl

def FindsLeaf (fs : Ext2) (level base k : Nat) : Prop :=
  ∃ leaf, (treeLeaves fs level base)[k]? = some leaf ∧ ext2FindBlockEntry fs base level k = .ok leaf

/-- No change outside the superblock and the blocks of the tree changes the result. -/
def DependsOnTree (fs : Ext2) (level base k : Nat) : Prop :=
  ∀ m, Set.EqOn fs.device m superblockBytes →
    (∀ b ∈ treeBlocks fs level base, Set.EqOn fs.device m (blockBytes fs b)) →
    ext2FindBlockEntry (fs.withDevice m) base level k = ext2FindBlockEntry fs base level k

theorem le32_update_ne (m : Memory) (a : Nat) : le32 (Function.update m a (m a + 1)) a ≠ le32 m a := by
  have hne : (m a + 1).toNat ≠ (m a).toNat := by
    rw [UInt8.toNat_add]
    have := (m a).toNat_lt
    simp only [UInt8.toNat_one]
    omega
  simp only [le32, le16, Function.update_self, Function.update_of_ne (show a + 1 ≠ a by omega),
    Function.update_of_ne (show a + 2 ≠ a by omega), Function.update_of_ne (show a + 2 + 1 ≠ a by omega)]
  omega

theorem ext2FindBlockEntry_in_tree {fs : Ext2} {level base k n : Nat} (hk : k < fs.entriesPerBlock ^ (level + 1)) :
    ext2FindBlockEntry fs base (level + 1) k = .ok n ↔
      (∀ b ∈ blocksLoaded fs.entriesPerBlock (level + 1) k, b % 2 ^ 16 < fs.blockcount) ∧ n = le32 fs.device 0 := by
  have hindex := digit_lt hk
  exact ext2FindBlockEntry_eq_ok_iff_of_div (Nat.zero_lt_of_lt hindex) level
    (hindex.trans ((entriesPerBlock_lt fs).trans (by decide)))

theorem not_dependsOnTree {fs : Ext2} {level base k n : Nat} (htree : TreeAt fs (level + 1) base)
    (hk : k < fs.entriesPerBlock ^ (level + 1)) (hfind : ext2FindBlockEntry fs base (level + 1) k = .ok n) :
    ¬ DependsOnTree fs (level + 1) base k := by
  intro hdep
  have hsize : 4 ≤ fs.blockSize := four_le_blockSize (Nat.zero_lt_of_lt (digit_lt hk))
  -- the first word of the device is in no block of the tree, and the walk ends there
  have hsb : Set.EqOn fs.device (Function.update fs.device 0 (fs.device 0 + 1)) superblockBytes := by
    intro a ha
    have hl : 1024 ≤ a := ha.1
    rw [Function.update_of_ne (by omega)]
  have hblocks : ∀ b ∈ treeBlocks fs (level + 1) base,
      Set.EqOn fs.device (Function.update fs.device 0 (fs.device 0 + 1)) (blockBytes fs b) := by
    intro b hb a ha
    have hl : b * fs.blockSize ≤ a := ha.1
    have hle := Nat.mul_le_mul_right fs.blockSize (Nat.one_le_iff_ne_zero.mpr (htree b hb).1)
    rw [Function.update_of_ne (by omega)]
  have hsame := hdep _ hsb hblocks
  have hword := ((ext2FindBlockEntry_in_tree hk).mp hfind).2
  have hchanged := ((ext2FindBlockEntry_in_tree (by exact hk)).mp (hsame.trans hfind)).2
  exact le32_update_ne fs.device 0 (hchanged.symm.trans hword)

/-- The walk never follows the tree. Where it returns a leaf at all, its own
indices name blocks of the device, and that leaf is the first word of the device. -/
theorem followsTree_never {fs : Ext2} {level base k : Nat} (hlevel : 0 < level) (htree : TreeAt fs level base)
    (hk : k < fs.entriesPerBlock ^ level) :
    ¬ (FindsLeaf fs level base k ∧ DependsOnTree fs level base k) ∧
    (FindsLeaf fs level base k ↔
      (∀ b ∈ blocksLoaded fs.entriesPerBlock level k, b % 2 ^ 16 < fs.blockcount) ∧
        (treeLeaves fs level base)[k]? = some (le32 fs.device 0)) := by
  obtain ⟨level, rfl⟩ := Nat.exists_eq_add_one.mpr hlevel
  constructor
  · intro h
    obtain ⟨⟨leaf, -, hfind⟩, hdep⟩ := h
    exact not_dependsOnTree htree hk hfind hdep
  · constructor
    · intro h
      obtain ⟨leaf, hleaf, hfind⟩ := h
      obtain ⟨hloaded, rfl⟩ := (ext2FindBlockEntry_in_tree hk).mp hfind
      exact ⟨hloaded, hleaf⟩
    · intro h
      exact ⟨_, h.2, (ext2FindBlockEntry_in_tree hk).mpr ⟨h.1, rfl⟩⟩

/-- The sample image with an indirect block, block 20, all of whose entries are block 21. -/
def treeImage : Memory := fun a => if 20480 ≤ a ∧ a < 21504 then (if a % 4 = 0 then 21 else 0) else sampleImage [] a

def treeFs : Ext2 := mountedHandle treeImage 1

theorem pointerAt_treeFs {index : Nat} (hi : index < 256) : pointerAt treeFs 20 index = 21 := by
  have hbyte : ∀ j < 4, treeFs.device (20480 + 4 * index + j) = if j = 0 then 21 else 0 := by
    intro j hj
    have hmod : (20480 + 4 * index + j) % 4 = j := by omega
    simp only [treeFs, mountedHandle, treeImage, if_pos (show 20480 ≤ 20480 + 4 * index + j ∧
      20480 + 4 * index + j < 21504 by omega), hmod]
  have hsize : 20 * treeFs.blockSize = 20480 := by decide
  have h0 := hbyte 0 (by decide)
  rw [Nat.add_zero] at h0
  rw [pointerAt, hsize, le32, le16, le16, h0, hbyte 1 (by decide), hbyte 2 (by decide),
    Nat.add_assoc _ 2 1, hbyte 3 (by decide)]
  rfl

theorem treeAt_treeFs : TreeAt treeFs 1 20 := by
  have hcount : treeFs.blockcount = 65 := rfl
  intro b hb
  rw [hcount]
  rcases hb with rfl | ⟨j, hj, hb⟩
  · decide
  · have hj : j < 256 := hj
    obtain rfl : b = 21 := (Set.mem_singleton_iff.mp hb).trans (pointerAt_treeFs hj)
    decide

theorem followsTree_never_sample :
    ¬ (FindsLeaf treeFs 1 20 3 ∧ DependsOnTree treeFs 1 20 3) ∧
    (FindsLeaf treeFs 1 20 3 ↔
      (∀ b ∈ blocksLoaded treeFs.entriesPerBlock 1 3, b % 2 ^ 16 < treeFs.blockcount) ∧
        (treeLeaves treeFs 1 20)[3]? = some (le32 treeFs.device 0)) :=
  followsTree_never (by decide) treeAt_treeFs (by decide)

/-- The walk to leaf 3 ends at word 0 of block 0 instead of word 3 of block 20. -/
theorem not_findsLeaf_sample : ext2Create treeImage = .ok treeFs ∧ TreeAt treeFs 1 20 ∧
    3 < treeFs.entriesPerBlock ^ 1 ∧ ext2FindBlockEntry treeFs 20 1 3 = .ok 0 ∧ ¬ FindsLeaf treeFs 1 20 3 := by
  have hfind : ext2FindBlockEntry treeFs 20 1 3 = .ok 0 := rfl
  refine ⟨rfl, treeAt_treeFs, by decide, hfind, fun h => ?_⟩
  obtain ⟨leaf, hleaf, hok⟩ := h
  obtain rfl := Except.ok.inj (hfind.symm.trans hok)
  have hthree : descend (pointerAt treeFs) treeFs.entriesPerBlock 1 20 3 = 21 := pointerAt_treeFs (by decide)
  rw [treeLeaves, getElem?_leaves _ _ 1 20 (by decide), hthree] at hleaf
  cases hleaf

end FuseExt2
