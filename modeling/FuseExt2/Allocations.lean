import FuseExt2.Directory
import FuseExt2.ListRemovals

/-! What the code allocates while it looks for inodes and lists directories: block
groups with their bit arrays, and lists of entries with their names. -/

namespace FuseExt2

open Heaps Assertion

namespace Allocated

/-- `t_ext2_block_group` with the addresses of its two bit arrays. -/
structure GroupRecord where
  number : Nat
  firstBlock : Nat
  hasSuperblock : Bool
  superblock : Option Nat
  blockGroupDescriptor : Option Nat
  blockBitmap : Nat
  inodeBitmap : Nat
  inodesTable : Option Nat

/-- `t_ext2_inode_entry`; `name` is the address of a string, `inode` one on the device. -/
structure EntryRecord where
  inodeIndex : Nat
  name : Nat
  inode : Nat

/-- `string` is a buffer of characters, `pointers` an array of addresses and `numbers`
one of 32-bit numbers. -/
inductive Record
  | blockGroup (group : GroupRecord)
  | bitarray (array : Bitarray)
  | inodeEntry (entry : EntryRecord)
  | string (text : List UInt8)
  | pointers (elements : List Nat)
  | numbers (elements : List Nat)

abbrev Code := Program (Object Record)

def group? : Object Record → Option GroupRecord
  | .other (.blockGroup group) => some group
  | _ => none

def bitarray? : Object Record → Option Bitarray
  | .other (.bitarray array) => some array
  | _ => none

def entry? : Object Record → Option EntryRecord
  | .other (.inodeEntry entry) => some entry
  | _ => none

def string? : Object Record → Option (List UInt8)
  | .other (.string text) => some text
  | _ => none

def pointers? : Object Record → Option (List Nat)
  | .other (.pointers elements) => some elements
  | _ => none

def read {α : Type} (select : Object Record → Option α) (self : Nat) : Code α := do
  match select (← load self) with
  | some a => pure a
  | none => fail .dangling

section Calls

variable (allocator : Allocator (Object Record))

def bitarrayCreate (bitarray : Option Nat) (size : Nat) : Code Nat :=
  malloc allocator (.other (.bitarray ⟨bitarray, size⟩))

def bitarrayDestroy (self : Nat) : Code Unit := free self

def ext2BlockGroupCreate (groupNumber firstBlock : Nat) (hasSuperblock : Bool) (blockBitmap inodeBitmap : Option Nat)
    (blockSize : Nat) : Code Nat := do
  let blockGroup ← malloc allocator (.other (.blockGroup ⟨0, 0, false, none, none, 0, 0, none⟩))
  let blockBitmap ← bitarrayCreate allocator blockBitmap blockSize
  let inodeBitmap ← bitarrayCreate allocator inodeBitmap blockSize
  store blockGroup (.other (.blockGroup
    ⟨groupNumber, firstBlock, hasSuperblock, none, none, blockBitmap, inodeBitmap, none⟩))
  pure blockGroup

/-- The addresses on the device are found before anything is allocated. -/
def ext2GetBlockGroup (fs : Ext2) (groupNumber : Nat) : Code Nat := do
  match ← lift (FuseExt2.ext2GetBlockGroup fs groupNumber) with
  | none => pure 0
  | some group =>
    let blockGroup ← ext2BlockGroupCreate allocator group.number group.firstBlock group.hasSuperblock
      group.blockBitmap.bitarray group.inodeBitmap.bitarray fs.blockSize
    let record ← read group? blockGroup
    store blockGroup (.other (.blockGroup {
      record with
      superblock := group.superblock
      blockGroupDescriptor := group.blockGroupDescriptor
      inodesTable := group.inodesTable }))
    pure blockGroup

def ext2BlockGroupFree (blockGroup : Nat) : Code Unit := do
  let record ← read group? blockGroup
  bitarrayDestroy record.blockBitmap
  bitarrayDestroy record.inodeBitmap
  free blockGroup

def inodesTableEntry (fs : Ext2) (groupNumber index : Nat) : Code Nat := do
  let blockGroup ← ext2GetBlockGroup allocator fs groupNumber
  let record ← read group? blockGroup
  let inodesTable ← lift (deref record.inodesTable)
  ext2BlockGroupFree blockGroup
  pure (inodesTable + inodeRecordSize * index)

def ext2GetRootInode (fs : Ext2) : Code Nat := inodesTableEntry allocator fs 0 EXT2_ROOT_INODE_INDEX

def ext2GetInode (fs : Ext2) (inodeIndex : Nat) : Code Nat :=
  if fs.inodeperGroup = 0 then fail .outside
  else
    let index := (inodeIndex + 2 ^ 32 - 1) % 2 ^ 32
    inodesTableEntry allocator fs (index / fs.inodeperGroup) (index % fs.inodeperGroup)

def ext2InodeEntryCreate (fs : Ext2) (dirEntry : Nat) : Code Nat := do
  let inodeIndex := directoryEntryInode fs.device dirEntry
  let inodeEntry ← malloc allocator (.other (.inodeEntry ⟨inodeIndex, 0, 0⟩))
  let name ← malloc allocator (.other (.string
    (directoryEntryName fs.device dirEntry (directoryEntryNameLen fs.device dirEntry) ++ [0])))
  let inode ← ext2GetInode allocator fs inodeIndex
  store inodeEntry (.other (.inodeEntry ⟨inodeIndex, name, inode⟩))
  pure inodeEntry

def ext2InodeEntryFree (self : Nat) : Code Unit := do
  let entry ← read entry? self
  free entry.name
  free self

def directoryEntrysLoop (fs : Ext2) (block : Option Nat) (listToFill : Nat) : Nat → Nat → Code Unit
  | 0, _ => fail .diverges
  | fuel + 1, offset =>
    if offset < fs.blockSize then do
      let start ← lift (deref block)
      let entry := start + offset
      let next := offset + directoryEntryRecLen fs.device entry
      if directoryEntryInode fs.device entry ≠ 0 then
        let inodeEntry ← ext2InodeEntryCreate allocator fs entry
        let _ ← listAdd allocator listToFill inodeEntry
        directoryEntrysLoop fs block listToFill fuel next
      else directoryEntrysLoop fs block listToFill fuel next
    else pure ()

def ext2GetBlockDirectoryEntrys (fs : Ext2) (block : Option Nat) (listToFill : Nat) : Code Unit :=
  directoryEntrysLoop allocator fs block listToFill (fs.blockSize + 1) 0

def listInodeLoop (fs : Ext2) (root list : Nat) : Nat → Nat → Code Unit
  | 0, _ => pure ()
  | blocks + 1, index => do
    let blockEntry ← lift (ext2GetInodeBlockEntry fs root index)
    if blockEntry ≠ 0 then
      ext2GetBlockDirectoryEntrys allocator fs (ext2GetBlock fs blockEntry) list
      listInodeLoop fs root list blocks (index + 1)
    else listInodeLoop fs root list blocks (index + 1)

def ext2ListInode (fs : Ext2) (root : Nat) : Code Nat :=
  if inodeHasModeFlag fs.device root EXT2_IFDIR then do
    let list ← listCreate allocator
    let sectors := shl32 2 fs.logBlockSize
    if sectors = 0 then fail .outside
    else
      listInodeLoop allocator fs root list (inodeBlocks fs.device root / sectors) 0
      pure list
  else pure 0

end Calls

/-! Block groups. -/

section Specs

variable {allocator : Allocator (Object Record)} {fs : Ext2}

theorem read_spec {α : Type} {select : Object Record → Option α} {v : Object Record} {b : α} (hv : select v = some b)
    (a : Nat) : Spec (cell a v) (read select a) fun r => such (r = b) (cell a v) := by
  refine (load_spec a v).bind fun r => Spec.such ?_
  rintro rfl
  rw [hv]
  exact Spec.ret_of_le (le_such rfl le_rfl)

theorem readGroup_spec (p : Nat) (group : GroupRecord) :
    Spec (cell p (.other (.blockGroup group))) (read group? p)
      fun r => such (r = group) (cell p (.other (.blockGroup group))) := read_spec (by rfl) p

theorem readEntry_spec (p : Nat) (entry : EntryRecord) :
    Spec (cell p (.other (.inodeEntry entry))) (read entry? p)
      fun r => such (r = entry) (cell p (.other (.inodeEntry entry))) := read_spec (by rfl) p

theorem readString_spec (p : Nat) (text : List UInt8) :
    Spec (cell p (.other (.string text))) (read string? p)
      fun r => such (r = text) (cell p (.other (.string text))) := read_spec (by rfl) p

theorem readPointers_spec (p : Nat) (elements : List Nat) :
    Spec (cell p (.other (.pointers elements))) (read pointers? p)
      fun r => such (r = elements) (cell p (.other (.pointers elements))) := read_spec (by rfl) p

theorem read_null {α : Type} (select : Object Record → Option α) (P : Assertion (Object Record)) :
    Fails P (read select 0) := Fails.bind (load_null P)

/-- The record of a group and its two bit arrays; NULL for a group that does not exist. -/
def isGroup (p : Nat) : Option BlockGroup → Assertion (Object Record)
  | none => such (p = 0) 1
  | some group => any fun blockBitmap => any fun inodeBitmap =>
      cell p (.other (.blockGroup ⟨group.number, group.firstBlock, group.hasSuperblock, group.superblock,
        group.blockGroupDescriptor, blockBitmap, inodeBitmap, group.inodesTable⟩)) *
      (cell blockBitmap (.other (.bitarray group.blockBitmap)) *
        cell inodeBitmap (.other (.bitarray group.inodeBitmap)))

theorem ext2BlockGroupCreate_spec (groupNumber firstBlock : Nat) (hasSuperblock : Bool)
    (blockBitmap inodeBitmap : Option Nat) (blockSize : Nat) :
    Spec 1 (ext2BlockGroupCreate allocator groupNumber firstBlock hasSuperblock blockBitmap inodeBitmap blockSize)
      fun p => any fun blocks => any fun inodes =>
        cell p (.other (.blockGroup ⟨groupNumber, firstBlock, hasSuperblock, none, none, blocks, inodes, none⟩)) *
        (cell blocks (.other (.bitarray ⟨blockBitmap, blockSize⟩)) *
          cell inodes (.other (.bitarray ⟨inodeBitmap, blockSize⟩))) := by
  refine (malloc_spec allocator _).bind fun p => ?_
  refine (malloc_spec allocator _).acquire fun blocks => ?_
  refine (malloc_spec allocator _).acquire fun inodes => ?_
  refine Spec.pre ?_ (le_of_eq (by rw [← mul_assoc, mul_comm]))
  refine (store_spec p _ _).step fun _ => Spec.ret_of_le (le_any blocks (le_any inodes (le_of_eq ?_)))
  rw [mul_comm (cell blocks _)]

theorem ext2GetBlockGroup_bitmaps {groupNumber : Nat} {group : BlockGroup}
    (h : FuseExt2.ext2GetBlockGroup fs groupNumber = .ok (some group)) :
    (⟨group.blockBitmap.bitarray, fs.blockSize⟩ : Bitarray) = group.blockBitmap ∧
      (⟨group.inodeBitmap.bitarray, fs.blockSize⟩ : Bitarray) = group.inodeBitmap := by
  simp only [FuseExt2.ext2GetBlockGroup] at h
  split at h
  · cases h
  · split at h
    · cases hb : ext2GetBlock fs (groupFirstBlock fs (groupNumber % 2 ^ 16) + 1) with
      | none =>
        rw [hb] at h
        cases h
      | some descriptor =>
        rw [hb, deref_some] at h
        obtain rfl := Option.some.inj (Except.ok.inj h)
        exact ⟨rfl, rfl⟩
    · obtain rfl := Option.some.inj (Except.ok.inj h)
      exact ⟨rfl, rfl⟩

theorem ext2GetBlockGroup_computes (allocator : Allocator (Object Record)) (fs : Ext2) (groupNumber : Nat) :
    Computes 1 (ext2GetBlockGroup allocator fs groupNumber) (FuseExt2.ext2GetBlockGroup fs groupNumber)
      fun group p => isGroup p group := by
  rw [ext2GetBlockGroup]
  cases hfound : FuseExt2.ext2GetBlockGroup fs groupNumber with
  | error fault => exact lift_error_fails 1 fault _
  | ok found =>
    cases found with
    | none => exact Spec.ret_of_le (le_such rfl le_rfl)
    | some group =>
      obtain ⟨hblocks, hinodes⟩ := ext2GetBlockGroup_bitmaps hfound
      rw [lift_ok_bind]
      refine (ext2BlockGroupCreate_spec _ _ _ _ _ _).bind fun p => Spec.any fun blocks => Spec.any fun inodes => ?_
      rw [hblocks, hinodes]
      refine (readGroup_spec p _).call ?_
      exact (store_spec p _ _).step fun _ => Spec.ret_of_le (le_any blocks (le_any inodes le_rfl))

theorem ext2BlockGroupFree_spec (p : Nat) (group : BlockGroup) :
    Spec (isGroup p (some group)) (ext2BlockGroupFree p) fun _ => 1 := by
  refine Spec.any fun blocks => Spec.any fun inodes => (readGroup_spec p _).call ?_
  rw [mul_left_comm]
  refine (free_spec blocks _).release fun _ => ?_
  rw [mul_comm]
  exact (free_spec inodes _).release fun _ => free_spec p _

theorem inodesTableEntry_computes (groupNumber index : Nat) :
    Computes 1 (inodesTableEntry allocator fs groupNumber index)
      (FuseExt2.inodesTableEntry (FuseExt2.ext2GetBlockGroup fs groupNumber) index)
      fun inode r => such (r = inode) 1 := by
  have hgroup := ext2GetBlockGroup_computes allocator fs groupNumber
  rw [inodesTableEntry]
  cases hfound : FuseExt2.ext2GetBlockGroup fs groupNumber with
  | error fault =>
    rw [hfound] at hgroup
    exact Fails.bind hgroup
  | ok found =>
    rw [hfound] at hgroup
    cases found with
    | none =>
      refine Spec.bind_fails hgroup fun p => Fails.such ?_
      rintro rfl
      exact Fails.bind (read_null group? 1)
    | some group =>
      cases htable : group.inodesTable with
      | none =>
        rw [FuseExt2.inodesTableEntry, htable]
        refine Spec.bind_fails hgroup fun p => Fails.any fun blocks => Fails.any fun inodes => ?_
        refine ((readGroup_spec p _).frame _).bind_fails fun record => ?_
        rw [such_mul]
        refine Fails.such ?_
        rintro rfl
        rw [htable]
        exact lift_error_fails _ Fault.nullPointer _
      | some table =>
        rw [FuseExt2.inodesTableEntry, htable]
        refine Spec.bind hgroup fun p => Spec.any fun blocks => Spec.any fun inodes => ?_
        refine (readGroup_spec p _).call ?_
        rw [htable, deref_some, lift_ok_bind, ← htable]
        exact ((ext2BlockGroupFree_spec p group).pre (le_any blocks (le_any inodes le_rfl))).bind fun _ =>
          Spec.ret_of_le (le_such rfl le_rfl)

theorem ext2GetRootInode_computes :
    Computes 1 (ext2GetRootInode allocator fs) (FuseExt2.ext2GetRootInode fs) fun inode r => such (r = inode) 1 :=
  inodesTableEntry_computes 0 EXT2_ROOT_INODE_INDEX

theorem ext2GetInode_computes (inodeIndex : Nat) :
    Computes 1 (ext2GetInode allocator fs inodeIndex) (FuseExt2.ext2GetInode fs inodeIndex)
      fun inode r => such (r = inode) 1 := by
  rw [ext2GetInode, FuseExt2.ext2GetInode]
  split_ifs with h
  · exact fails_fail 1 .outside
  · exact inodesTableEntry_computes _ _

/-! Entries. -/

def isEntry (p : Nat) (entry : InodeEntry) : Assertion (Object Record) :=
  any fun name => cell p (.other (.inodeEntry ⟨entry.inodeIndex, name, entry.inode⟩)) *
    cell name (.other (.string entry.name))

/-- The list that `entries` are in, with the records of the entries. -/
def isEntries (p : Nat) (entries : List InodeEntry) : Assertion (Object Record) :=
  recorded isEntry (isList p) entries

theorem ext2InodeEntryCreate_computes (dirEntry : Nat) :
    Computes 1 (ext2InodeEntryCreate allocator fs dirEntry) (FuseExt2.ext2InodeEntryCreate fs dirEntry)
      fun entry p => isEntry p entry := by
  rw [ext2InodeEntryCreate]
  refine (malloc_spec allocator _).bind_computes fun p => ?_
  refine (malloc_spec allocator _).acquire_computes fun name => ?_
  rw [← one_mul (cell name _ * _)]
  refine ((ext2GetInode_computes _).frame _).call (fun inode r hinode => ?_) fun fault hinode => ?_
  · rw [such_mul, one_mul, mul_comm, FuseExt2.ext2InodeEntryCreate, hinode]
    refine Computes.such ?_
    rintro rfl
    exact (store_spec p _ _).step fun _ => Spec.ret_of_le (le_any name le_rfl)
  · rw [FuseExt2.ext2InodeEntryCreate, hinode]

theorem ext2InodeEntryFree_spec (p : Nat) (entry : InodeEntry) :
    Spec (isEntry p entry) (ext2InodeEntryFree p) fun _ => 1 := by
  refine Spec.any fun name => (readEntry_spec p _).call ?_
  rw [mul_comm]
  exact (free_spec name _).release fun _ => free_spec p _

theorem owns_isEntry (p : Nat) (entry : InodeEntry) : Owns (isEntry p entry) p :=
  Owns.any fun _ => (owns_cell p _).mul _

theorem directoryEntrysLoop_computes (block : Option Nat) (p fuel offset : Nat) (entries : List InodeEntry) :
    Computes (isEntries p entries) (directoryEntrysLoop allocator fs block p fuel offset)
      (FuseExt2.directoryEntrysLoop fs block fuel offset entries) fun filled _ => isEntries p filled := by
  induction fuel generalizing offset entries with
  | zero => exact fails_fail _ .diverges
  | succ fuel ih =>
    rw [directoryEntrysLoop, FuseExt2.directoryEntrysLoop]
    split_ifs with hlt
    · cases block with
      | none => exact lift_error_fails _ Fault.nullPointer _
      | some block =>
        rw [deref_some, lift_ok_bind]
        dsimp only
        split_ifs with hused
        · rw [← one_mul (isEntries p entries)]
          refine ((ext2InodeEntryCreate_computes _).frame _).call (fun entry q hentry => ?_) fun fault hentry => ?_
          · rw [hentry, isEntries, recorded, mul_any]
            refine Computes.any fun xs => ?_
            rw [mul_any]
            refine Computes.any fun entryOf => ?_
            rw [mul_such]
            refine Computes.such ?_
            rintro rfl
            rw [mul_left_comm]
            refine (listAdd_spec p q xs).step_computes fun r => ?_
            rw [such_mul]
            exact Computes.such fun _ => (ih _ _).pre (recorded_append owns_isEntry _ _ _ _ _)
          · rw [hentry]
        · exact ih _ _
    · exact Spec.ret_of_le le_rfl

theorem listInodeLoop_computes (root p blocks index : Nat) (entries : List InodeEntry) :
    Computes (isEntries p entries) (listInodeLoop allocator fs root p blocks index)
      (FuseExt2.listInodeLoop fs root blocks index entries) fun filled _ => isEntries p filled := by
  induction blocks generalizing index entries with
  | zero => exact Spec.ret_of_le le_rfl
  | succ blocks ih =>
    rw [listInodeLoop, FuseExt2.listInodeLoop]
    cases ext2GetInodeBlockEntry fs root index with
    | error fault => exact lift_error_fails _ fault _
    | ok blockEntry =>
      rw [lift_ok_bind]
      dsimp only
      split_ifs with hused
      · refine (directoryEntrysLoop_computes (ext2GetBlock fs blockEntry) p _ 0 entries).call (fun filled _ h => ?_)
          fun fault h => ?_
        · rw [FuseExt2.ext2GetBlockDirectoryEntrys, h]
          exact ih _ _
        · rw [FuseExt2.ext2GetBlockDirectoryEntrys, h]
      · exact ih _ _

def isListing (p : Nat) : Option (List InodeEntry) → Assertion (Object Record)
  | none => such (p = 0) 1
  | some entries => isEntries p entries

theorem ext2ListInode_computes (root : Nat) :
    Computes 1 (ext2ListInode allocator fs root) (FuseExt2.ext2ListInode fs root)
      fun listing p => isListing p listing := by
  rw [ext2ListInode, FuseExt2.ext2ListInode]
  split_ifs with hdir
  · rw [← one_mul (1 : Assertion (Object Record))]
    refine listCreate_spec.step_computes fun p => ?_
    dsimp only
    split_ifs with hs
    · exact fails_fail _ .outside
    · have hempty : isList p [] * 1 ≤ isEntries p [] :=
        le_any [] (le_any (fun _ => ⟨0, [], 0⟩) (le_such rfl le_rfl))
      refine ((listInodeLoop_computes root p _ 0 []).pre hempty).call (fun filled _ h => ?_) fun fault h => ?_
      · rw [h]
        exact Spec.ret_of_le le_rfl
      · rw [h]
  · exact Spec.ret_of_le (le_such rfl le_rfl)

end Specs

end Allocated

end FuseExt2
