import FuseExt2.Bitarray
import FuseExt2.Layout

/-! Block groups and inode addresses: where the code looks for the bitmaps and
the inode table of a group, and when these are the blocks of the primary table. -/

namespace FuseExt2

open ByteStore

/-- `t_ext2_block_group`; its pointers are addresses on the device, or NULL. -/
structure BlockGroup where
  number : Nat
  firstBlock : Nat
  hasSuperblock : Bool
  superblock : Option Nat
  blockGroupDescriptor : Option Nat
  blockBitmap : Bitarray
  inodeBitmap : Bitarray
  inodesTable : Option Nat

def ext2HasSuperblock (groupNumber : Nat) : Bool :=
  if groupNumber = 0 ∨ groupNumber = 1 then true
  else if groupNumber % 3 = 0 ∨ groupNumber % 5 = 0 ∨ groupNumber % 7 = 0 then true
  else false

def groupFirstBlock (fs : Ext2) (groupNumber : Nat) : Nat :=
  (groupNumber * fs.blockperGroup + fs.firstDataBlock) % 2 ^ 32

def ext2GetBlockGroup (fs : Ext2) (groupNumber : Nat) : Except Fault (Option BlockGroup) :=
  let groupNumber := groupNumber % 2 ^ 16
  if fs.numberOfBlockGroups ≤ groupNumber then .ok none
  else
    let firstBlock := groupFirstBlock fs groupNumber
    if ext2HasSuperblock groupNumber then
      match deref (ext2GetBlock fs (firstBlock + 1)) with
      | .error fault => .error fault
      | .ok descriptor => .ok (some {
          number := groupNumber
          firstBlock := (firstBlock + 2) % 2 ^ 32
          hasSuperblock := true
          superblock := ext2GetBlock fs firstBlock
          blockGroupDescriptor := some descriptor
          blockBitmap := ⟨ext2GetBlock fs (descriptorBlockBitmap fs.device descriptor), fs.blockSize⟩
          inodeBitmap := ⟨ext2GetBlock fs (descriptorInodeBitmap fs.device descriptor), fs.blockSize⟩
          inodesTable := ext2GetBlock fs (descriptorInodeTable fs.device descriptor) })
    else .ok (some {
      number := groupNumber
      firstBlock := (firstBlock + 3) % 2 ^ 32
      hasSuperblock := false
      superblock := none
      blockGroupDescriptor := none
      blockBitmap := ⟨ext2GetBlock fs firstBlock, fs.blockSize⟩
      inodeBitmap := ⟨ext2GetBlock fs (firstBlock + 1), fs.blockSize⟩
      inodesTable := ext2GetBlock fs (firstBlock + 2) })

def inodesTableEntry (group : Except Fault (Option BlockGroup)) (index : Nat) : Except Fault Nat :=
  match group with
  | .error fault => .error fault
  | .ok none => .error .nullPointer
  | .ok (some blockGroup) =>
    match deref blockGroup.inodesTable with
    | .error fault => .error fault
    | .ok inodesTable => .ok (inodesTable + inodeRecordSize * index)

def ext2GetRootInode (fs : Ext2) : Except Fault Nat :=
  inodesTableEntry (ext2GetBlockGroup fs 0) EXT2_ROOT_INODE_INDEX

def ext2GetInode (fs : Ext2) (inodeIndex : Nat) : Except Fault Nat :=
  if fs.inodeperGroup = 0 then .error .divideByZero
  else
    let index := (inodeIndex + 2 ^ 32 - 1) % 2 ^ 32
    inodesTableEntry (ext2GetBlockGroup fs (index / fs.inodeperGroup)) (index % fs.inodeperGroup)

/-! The bitmaps and the inode table of a group. -/

def BlockGroup.locations (group : BlockGroup) : List (Option Nat) :=
  [group.blockBitmap.bitarray, group.inodeBitmap.bitarray, group.inodesTable]

def primaryBlocks (fs : Ext2) (group : Nat) : List Nat :=
  [groupBlockBitmap fs group, groupInodeBitmap fs group, groupInodeTable fs group]

def GroupLocated (fs : Ext2) (group : Nat) : Prop :=
  ∃ blockGroup, ext2GetBlockGroup fs group = .ok (some blockGroup) ∧
    blockGroup.locations = (primaryBlocks fs group).map (fun b => some (b * fs.blockSize))

def GroupsLocated (fs : Ext2) : Prop :=
  (∀ group < fs.numberOfBlockGroups, GroupLocated fs group) ∧
    ∀ group < fs.numberOfBlockGroups, ∀ other < fs.numberOfBlockGroups, group ≠ other →
      ∀ blockGroup otherGroup, ext2GetBlockGroup fs group = .ok (some blockGroup) →
        ext2GetBlockGroup fs other = .ok (some otherGroup) →
        ∀ location ∈ blockGroup.locations, location ∉ otherGroup.locations

/-- The numbers the code takes for the three blocks: the first descriptor of the
group's own copy of the table, or the first blocks of the group. -/
def namedBlocks (fs : Ext2) (group : Nat) : List Nat :=
  let firstBlock := groupFirstBlock fs group
  if ext2HasSuperblock group then
    let copy := (firstBlock + 1) % 2 ^ 16 * fs.blockSize
    [descriptorBlockBitmap fs.device copy, descriptorInodeBitmap fs.device copy, descriptorInodeTable fs.device copy]
  else [firstBlock, firstBlock + 1, firstBlock + 2]

def GroupLaidOut (fs : Ext2) (group : Nat) : Prop :=
  (ext2HasSuperblock group = true → (groupFirstBlock fs group + 1) % 2 ^ 16 < fs.blockcount) ∧
    (namedBlocks fs group).map (· % 2 ^ 16) = primaryBlocks fs group

structure ValidGroups (fs : Ext2) : Prop where
  sized : Ext2Sized fs
  onDevice : ∀ group < fs.numberOfBlockGroups, ∀ b ∈ primaryBlocks fs group, b < fs.blockcount
  distinct : ∀ group < fs.numberOfBlockGroups, ∀ other < fs.numberOfBlockGroups, group ≠ other →
    ∀ b ∈ primaryBlocks fs group, b ∉ primaryBlocks fs other

theorem ext2GetBlockGroup_of_lt {fs : Ext2} (hbs : Ext2Sized fs) {group : Nat} (hg : group < fs.numberOfBlockGroups)
    (hc : ext2HasSuperblock group = true → (groupFirstBlock fs group + 1) % 2 ^ 16 < fs.blockcount) :
    ∃ blockGroup, ext2GetBlockGroup fs group = .ok (some blockGroup) ∧
      blockGroup.locations = (namedBlocks fs group).map (ext2GetBlock fs) := by
  have hmod : group % 2 ^ 16 = group := Nat.mod_eq_of_lt (hg.trans fs.numberOfBlockGroups_lt)
  rw [ext2GetBlockGroup]
  simp only [hmod, if_neg (Nat.not_le.mpr hg)]
  cases hs : ext2HasSuperblock group with
  | true =>
    simp only [ext2GetBlock_eq hbs (groupFirstBlock fs group + 1), if_pos (hc hs), deref_some, if_true]
    refine ⟨_, rfl, ?_⟩
    simp only [BlockGroup.locations, namedBlocks, hs, if_true, List.map_cons, List.map_nil]
  | false =>
    refine ⟨_, rfl, ?_⟩
    simp [BlockGroup.locations, namedBlocks, hs]

theorem ext2GetBlockGroup_of_copy_off {fs : Ext2} {group : Nat} (hg : group < fs.numberOfBlockGroups)
    (hs : ext2HasSuperblock group = true) (hc : ¬ (groupFirstBlock fs group + 1) % 2 ^ 16 < fs.blockcount) :
    ext2GetBlockGroup fs group = .error .nullPointer := by
  have hmod : group % 2 ^ 16 = group := Nat.mod_eq_of_lt (hg.trans fs.numberOfBlockGroups_lt)
  rw [ext2GetBlockGroup]
  simp only [hmod, if_neg (Nat.not_le.mpr hg), hs, if_true, ext2GetBlock_of_le hc, deref_none]

theorem ext2GetBlockGroup_mod_lt {fs : Ext2} {group : Nat} {blockGroup : BlockGroup}
    (h : ext2GetBlockGroup fs group = .ok (some blockGroup)) : group % 2 ^ 16 < fs.numberOfBlockGroups := by
  by_contra hge
  rw [ext2GetBlockGroup, if_pos (Nat.not_lt.mp hge)] at h
  cases h

theorem ext2GetBlockGroup_mod (fs : Ext2) (group : Nat) :
    ext2GetBlockGroup fs (group % 2 ^ 16) = ext2GetBlockGroup fs group := by
  rw [ext2GetBlockGroup, ext2GetBlockGroup, Nat.mod_mod]

theorem ext2GetBlockGroup_error {fs : Ext2} {group : Nat} {fault : Fault}
    (h : ext2GetBlockGroup fs group = .error fault) : fault = .nullPointer := by
  simp only [ext2GetBlockGroup] at h
  split at h
  · cases h
  · split at h
    · cases hb : ext2GetBlock fs (groupFirstBlock fs (group % 2 ^ 16) + 1) with
      | none =>
        rw [hb] at h
        exact (Except.error.inj h).symm
      | some descriptor =>
        rw [hb] at h
        cases h
    · cases h

/-- The entry is in the table of a group, or a pointer on the way to it is NULL. -/
theorem inodesTableEntry_cases (fs : Ext2) (group index : Nat) :
    inodesTableEntry (ext2GetBlockGroup fs group) index = .error .nullPointer ∨
      ∃ blockGroup table, ext2GetBlockGroup fs group = .ok (some blockGroup) ∧ blockGroup.inodesTable = some table ∧
        inodesTableEntry (ext2GetBlockGroup fs group) index = .ok (table + inodeRecordSize * index) := by
  cases hget : ext2GetBlockGroup fs group with
  | error fault =>
    obtain rfl := ext2GetBlockGroup_error hget
    exact Or.inl rfl
  | ok found =>
    cases found with
    | none => exact Or.inl rfl
    | some blockGroup =>
      cases htable : blockGroup.inodesTable with
      | none =>
        refine Or.inl ?_
        rw [inodesTableEntry, htable]
        rfl
      | some table =>
        refine Or.inr ⟨blockGroup, table, rfl, htable, ?_⟩
        rw [inodesTableEntry, htable]
        rfl

theorem ext2GetBlock_eq_some_iff {fs : Ext2} (hbs : Ext2Sized fs) {n b : Nat} (hb : b < fs.blockcount) :
    ext2GetBlock fs n = some (b * fs.blockSize) ↔ n % 2 ^ 16 = b := by
  rw [ext2GetBlock_eq hbs]
  constructor
  · intro h
    split at h
    · exact Nat.eq_of_mul_eq_mul_right hbs.pos (Option.some.inj h)
    · cases h
  · intro h
    rw [h, if_pos hb]

theorem map_ext2GetBlock_eq_iff {fs : Ext2} (hbs : Ext2Sized fs) (named : List Nat) {blocks : List Nat}
    (hb : ∀ b ∈ blocks, b < fs.blockcount) :
    named.map (ext2GetBlock fs) = blocks.map (fun b => some (b * fs.blockSize)) ↔
      named.map (· % 2 ^ 16) = blocks := by
  induction named generalizing blocks with
  | nil =>
    cases blocks with
    | nil => simp
    | cons b blocks => simp
  | cons n named ih =>
    cases blocks with
    | nil => simp
    | cons b blocks =>
      have hhead := ext2GetBlock_eq_some_iff hbs (n := n) (hb b (by simp))
      have htail := ih (fun b' hb' => hb b' (List.mem_cons_of_mem b hb'))
      simp only [List.map_cons, List.cons.injEq, hhead, htail]

theorem groupLocated_iff {fs : Ext2} (hv : ValidGroups fs) {group : Nat} (hg : group < fs.numberOfBlockGroups) :
    GroupLocated fs group ↔ GroupLaidOut fs group := by
  have hmap := map_ext2GetBlock_eq_iff hv.sized (namedBlocks fs group) (hv.onDevice group hg)
  by_cases hc : ext2HasSuperblock group = true → (groupFirstBlock fs group + 1) % 2 ^ 16 < fs.blockcount
  · obtain ⟨blockGroup, hget, hloc⟩ := ext2GetBlockGroup_of_lt hv.sized hg hc
    constructor
    · intro h
      obtain ⟨found, hfound, heq⟩ := h
      obtain rfl := Option.some.inj (Except.ok.inj (hget.symm.trans hfound))
      exact ⟨hc, hmap.mp (hloc.symm.trans heq)⟩
    · intro h
      exact ⟨blockGroup, hget, hloc.trans (hmap.mpr h.2)⟩
  · -- the copy of the table is not on the device: the code reads through NULL
    constructor
    · intro h
      obtain ⟨found, hfound, -⟩ := h
      have hs : ext2HasSuperblock group = true := by
        by_contra hs
        exact hc (fun h => absurd h hs)
      rw [ext2GetBlockGroup_of_copy_off hg hs (fun h => hc (fun _ => h))] at hfound
      cases hfound
    · intro h
      exact absurd h.1 hc

/-- The groups are where the primary table puts them exactly when each one with a
superblock copy, by the code's rule, has its own blocks in the first descriptor of
its copy of the table, and each other one starts with its three blocks. -/
theorem groupsLocated_iff {fs : Ext2} (hv : ValidGroups fs) :
    GroupsLocated fs ↔ ∀ group < fs.numberOfBlockGroups, GroupLaidOut fs group := by
  constructor
  · intro h group hg
    exact (groupLocated_iff hv hg).mp (h.1 group hg)
  · intro h
    refine ⟨fun group hg => (groupLocated_iff hv hg).mpr (h group hg), ?_⟩
    intro group hg other ho hne blockGroup otherGroup hget hoget location hl hlo
    obtain ⟨found, hfound, heq⟩ := (groupLocated_iff hv hg).mpr (h group hg)
    obtain ⟨ofound, hofound, hoeq⟩ := (groupLocated_iff hv ho).mpr (h other ho)
    obtain rfl := Option.some.inj (Except.ok.inj (hget.symm.trans hfound))
    obtain rfl := Option.some.inj (Except.ok.inj (hoget.symm.trans hofound))
    rw [heq] at hl
    rw [hoeq] at hlo
    obtain ⟨b, hb, rfl⟩ := List.mem_map.mp hl
    obtain ⟨b', hb', he⟩ := List.mem_map.mp hlo
    have hbb : b' = b := Nat.eq_of_mul_eq_mul_right hv.sized.pos (Option.some.inj he)
    exact hv.distinct group hg other ho hne b hb (hbb ▸ hb')

/-- A faithful copy of the table starts with the entry of group 0, so the code
finds no group but group 0 through a copy. -/
theorem not_groupLaidOut_of_copy {fs : Ext2} (hv : ValidGroups fs) {group : Nat} (hg : group < fs.numberOfBlockGroups)
    (hne : group ≠ 0) (hcopy : namedBlocks fs group = primaryBlocks fs 0) (h16 : fs.blockcount ≤ 2 ^ 16) :
    ¬ GroupLaidOut fs group := by
  intro h
  have h0 : 0 < fs.numberOfBlockGroups := by omega
  have hlt : groupBlockBitmap fs 0 < 2 ^ 16 := lt_of_lt_of_le (hv.onDevice 0 h0 _ (by simp [primaryBlocks])) h16
  have hmap := h.2
  rw [hcopy] at hmap
  simp only [primaryBlocks, List.map_cons, List.cons.injEq, Nat.mod_eq_of_lt hlt] at hmap
  refine hv.distinct group hg 0 h0 hne (groupBlockBitmap fs group) (by simp [primaryBlocks]) ?_
  rw [← hmap.1]
  simp [primaryBlocks]

/-- The sample image with a second group of 64 blocks. Blocks 65 and 66 are copies
of the superblock and of the descriptor table. -/
def twoGroupImage : Memory := sampleImage [(1028, 129), (2080, 67), (2084, 68), (2088, 69),
  (67584, 3), (67588, 4), (67592, 5), (67616, 67), (67620, 68), (67624, 69)]

def twoGroupFs : Ext2 := mountedHandle twoGroupImage 2

theorem twoGroupFs_validGroups : ValidGroups twoGroupFs where
  sized := ⟨0, by decide, by decide⟩
  onDevice := by decide
  distinct := by
    have h : ∀ group ∈ [0, 1], ∀ other ∈ [0, 1], group ≠ other →
        ∀ b ∈ primaryBlocks twoGroupFs group, ¬ b ∈ primaryBlocks twoGroupFs other := by decide
    intro group hg other ho
    have hn : twoGroupFs.numberOfBlockGroups = 2 := rfl
    exact h group (by simp; omega) other (by simp; omega)

theorem groupsLocated_iff_two :
    GroupsLocated twoGroupFs ↔ ∀ group < twoGroupFs.numberOfBlockGroups, GroupLaidOut twoGroupFs group :=
  groupsLocated_iff twoGroupFs_validGroups

theorem not_groupsLocated_two :
    ext2Create twoGroupImage = .ok twoGroupFs ∧ ValidGroups twoGroupFs ∧ 1 < twoGroupFs.numberOfBlockGroups ∧
    ¬ GroupLocated twoGroupFs 1 ∧ ¬ GroupsLocated twoGroupFs := by
  have h : ¬ GroupLocated twoGroupFs 1 := by
    rw [groupLocated_iff twoGroupFs_validGroups (by decide)]
    exact not_groupLaidOut_of_copy twoGroupFs_validGroups (by decide) (by decide) (by decide) (by decide)
  exact ⟨rfl, twoGroupFs_validGroups, by decide, h, fun hl => h (hl.1 1 (by decide))⟩

end FuseExt2
