import FuseExt2.Groups

/-! Directory records and the listing of a directory. -/

namespace FuseExt2

open ByteStore

/-! The fields of a directory record (`t_ext2_directory_entry`) at address `entry`. -/

def directoryEntryInode (m : Memory) (entry : Nat) : Nat := le32 m entry

def directoryEntryRecLen (m : Memory) (entry : Nat) : Nat := le16 m (entry + 4)

def directoryEntryNameLen (m : Memory) (entry : Nat) : Nat := (m (entry + 6)).toNat

def directoryEntryName (m : Memory) (entry n : Nat) : List UInt8 := readBytes m (entry + 8) n

/-- The characters of a C string, up to the byte that ends it. -/
def cString (bytes : List UInt8) : List UInt8 := bytes.takeWhile (fun c => c != 0)

/-- `strcmp(s, t) == 0`. -/
def strcmpEq (s t : List UInt8) : Bool := cString s == cString t

/-- `t_ext2_inode_entry`; `name` is the whole buffer with its terminator. -/
structure InodeEntry where
  inodeIndex : Nat
  name : List UInt8
  inode : Nat

def ext2InodeEntryCreate (fs : Ext2) (dirEntry : Nat) : Except Fault InodeEntry :=
  let name := directoryEntryName fs.device dirEntry (directoryEntryNameLen fs.device dirEntry) ++ [0]
  match ext2GetInode fs (directoryEntryInode fs.device dirEntry) with
  | .error fault => .error fault
  | .ok inode => .ok { inodeIndex := directoryEntryInode fs.device dirEntry, name := name, inode := inode }

def directoryEntrysLoop (fs : Ext2) (block : Option Nat) :
    Nat → Nat → List InodeEntry → Except Fault (List InodeEntry)
  | 0, _, _ => .error .diverges
  | fuel + 1, offset, listToFill =>
    if offset < fs.blockSize then
      match deref block with
      | .error fault => .error fault
      | .ok block =>
        let entry := block + offset
        let next := offset + directoryEntryRecLen fs.device entry
        if directoryEntryInode fs.device entry ≠ 0 then
          match ext2InodeEntryCreate fs entry with
          | .error fault => .error fault
          | .ok inodeEntry => directoryEntrysLoop fs (some block) fuel next (listToFill ++ [inodeEntry])
        else directoryEntrysLoop fs (some block) fuel next listToFill
    else .ok listToFill

/-- A record of length 0 is visited for ever; any other moves the offset on. -/
def ext2GetBlockDirectoryEntrys (fs : Ext2) (block : Option Nat) (listToFill : List InodeEntry) :
    Except Fault (List InodeEntry) :=
  directoryEntrysLoop fs block (fs.blockSize + 1) 0 listToFill

def listInodeLoop (fs : Ext2) (root : Nat) : Nat → Nat → List InodeEntry → Except Fault (List InodeEntry)
  | 0, _, list => .ok list
  | blocks + 1, index, list =>
    match ext2GetInodeBlockEntry fs root index with
    | .error fault => .error fault
    | .ok blockEntry =>
      if blockEntry ≠ 0 then
        match ext2GetBlockDirectoryEntrys fs (ext2GetBlock fs blockEntry) list with
        | .error fault => .error fault
        | .ok list => listInodeLoop fs root blocks (index + 1) list
      else listInodeLoop fs root blocks (index + 1) list

/-- NULL (`none`) for an inode that is no directory. -/
def ext2ListInode (fs : Ext2) (root : Nat) : Except Fault (Option (List InodeEntry)) :=
  if inodeHasModeFlag fs.device root EXT2_IFDIR then
    let sectors := shl32 2 fs.logBlockSize
    if sectors = 0 then .error .divideByZero
    else
      match listInodeLoop fs root (inodeBlocks fs.device root / sectors) 0 [] with
      | .error fault => .error fault
      | .ok list => .ok (some list)
  else .ok none

/-! What one turn of each loop does. -/

section Steps

variable {fs : Ext2} {block offset fuel : Nat} {listToFill list : List InodeEntry}

theorem directoryEntrysLoop_deleted (hlt : offset < fs.blockSize)
    (hd : directoryEntryInode fs.device (block + offset) = 0) (fuel : Nat) :
    directoryEntrysLoop fs (some block) (fuel + 1) offset listToFill =
      directoryEntrysLoop fs (some block) fuel (offset + directoryEntryRecLen fs.device (block + offset))
        listToFill := by
  rw [directoryEntrysLoop, if_pos hlt]
  simp only [deref_some, hd, ne_eq, not_true_eq_false, if_false]

theorem directoryEntrysLoop_used (hlt : offset < fs.blockSize) {entry : InodeEntry}
    (hu : directoryEntryInode fs.device (block + offset) ≠ 0)
    (hc : ext2InodeEntryCreate fs (block + offset) = .ok entry) (fuel : Nat) :
    directoryEntrysLoop fs (some block) (fuel + 1) offset listToFill =
      directoryEntrysLoop fs (some block) fuel (offset + directoryEntryRecLen fs.device (block + offset))
        (listToFill ++ [entry]) := by
  rw [directoryEntrysLoop, if_pos hlt]
  simp only [deref_some, ne_eq, hu, not_false_eq_true, if_true, hc]

theorem directoryEntrysLoop_end (hend : fs.blockSize ≤ offset) (fuel : Nat) :
    directoryEntrysLoop fs (some block) (fuel + 1) offset listToFill = .ok listToFill := by
  rw [directoryEntrysLoop, if_neg (by omega)]

theorem directoryEntrysLoop_fuel {block : Option Nat}
    (h : directoryEntrysLoop fs block fuel offset listToFill = .ok list) : ∃ fuel', fuel = fuel' + 1 := by
  cases fuel with
  | zero => cases h
  | succ fuel => exact ⟨fuel, rfl⟩

theorem directoryEntrysLoop_succ_eq_ok (hlt : offset < fs.blockSize)
    (h : directoryEntrysLoop fs (some block) (fuel + 1) offset listToFill = .ok list) :
    ∃ filled, (if directoryEntryInode fs.device (block + offset) ≠ 0 then
        ∃ entry, ext2InodeEntryCreate fs (block + offset) = .ok entry ∧ filled = listToFill ++ [entry]
      else filled = listToFill) ∧
      directoryEntrysLoop fs (some block) fuel (offset + directoryEntryRecLen fs.device (block + offset)) filled =
        .ok list := by
  by_cases hd : directoryEntryInode fs.device (block + offset) = 0
  · rw [directoryEntrysLoop_deleted hlt hd] at h
    exact ⟨listToFill, by rw [if_neg (not_not.mpr hd)], h⟩
  · cases hc : ext2InodeEntryCreate fs (block + offset) with
    | error fault =>
      rw [directoryEntrysLoop, if_pos hlt] at h
      simp only [deref_some, ne_eq, hd, not_false_eq_true, if_true, hc] at h
      cases h
    | ok entry =>
      rw [directoryEntrysLoop_used hlt hd hc] at h
      exact ⟨listToFill ++ [entry], by rw [if_pos hd]; exact ⟨entry, rfl, rfl⟩, h⟩

theorem directoryEntrysLoop_null (hlt : offset < fs.blockSize) :
    directoryEntrysLoop fs none fuel offset listToFill ≠ .ok list := by
  intro h
  cases fuel with
  | zero => cases h
  | succ fuel =>
    rw [directoryEntrysLoop, if_pos hlt] at h
    cases h

theorem listInodeLoop_succ_eq_ok_iff {root blocks index : Nat} {list list' : List InodeEntry} :
    listInodeLoop fs root (blocks + 1) index list = .ok list' ↔
      ∃ n filled, ext2GetInodeBlockEntry fs root index = .ok n ∧
        (if n ≠ 0 then ext2GetBlockDirectoryEntrys fs (ext2GetBlock fs n) list else .ok list) = .ok filled ∧
        listInodeLoop fs root blocks (index + 1) filled = .ok list' := by
  rw [listInodeLoop]
  cases ext2GetInodeBlockEntry fs root index with
  | error fault => simp
  | ok n =>
    by_cases hz : n = 0
    · simp [hz]
    · cases hb : ext2GetBlockDirectoryEntrys fs (ext2GetBlock fs n) list with
      | error fault => simp [hz, hb]
      | ok filled => simp [hz, hb]

theorem ext2ListInode_eq_ok_iff {root : Nat} :
    ext2ListInode fs root = .ok (some list) ↔ inodeHasModeFlag fs.device root EXT2_IFDIR = true ∧
      shl32 2 fs.logBlockSize ≠ 0 ∧
      listInodeLoop fs root (inodeBlocks fs.device root / shl32 2 fs.logBlockSize) 0 [] = .ok list := by
  simp only [ext2ListInode]
  by_cases hdir : inodeHasModeFlag fs.device root EXT2_IFDIR = true
  · by_cases hs : shl32 2 fs.logBlockSize = 0
    · simp [hdir, hs]
    · cases listInodeLoop fs root (inodeBlocks fs.device root / shl32 2 fs.logBlockSize) 0 [] with
      | error fault => simp [hdir, hs]
      | ok list' => simp [hdir, hs]
  · simp [hdir]

end Steps

/-- What the code puts in a list: the entry found the inode its number names. -/
def InodeEntry.Made (fs : Ext2) (entry : InodeEntry) : Prop :=
  ext2GetInode fs entry.inodeIndex = .ok entry.inode

theorem ext2InodeEntryCreate_made {fs : Ext2} {dirEntry : Nat} {entry : InodeEntry}
    (h : ext2InodeEntryCreate fs dirEntry = .ok entry) : entry.Made fs := by
  rw [ext2InodeEntryCreate] at h
  cases hget : ext2GetInode fs (directoryEntryInode fs.device dirEntry) with
  | error fault =>
    rw [hget] at h
    cases h
  | ok inode =>
    rw [hget] at h
    obtain rfl := Except.ok.inj h
    exact hget

theorem directoryEntrysLoop_made {fs : Ext2} (block : Option Nat) (fuel offset : Nat)
    {listToFill list : List InodeEntry} (hmade : ∀ entry ∈ listToFill, entry.Made fs)
    (h : directoryEntrysLoop fs block fuel offset listToFill = .ok list) : ∀ entry ∈ list, entry.Made fs := by
  induction fuel generalizing offset listToFill with
  | zero => cases h
  | succ fuel ih =>
    by_cases hlt : offset < fs.blockSize
    · cases block with
      | none => exact absurd h (directoryEntrysLoop_null hlt)
      | some block =>
        obtain ⟨filled, hfilled, hrest⟩ := directoryEntrysLoop_succ_eq_ok hlt h
        refine ih _ ?_ hrest
        split at hfilled
        · obtain ⟨inodeEntry, hcreate, rfl⟩ := hfilled
          intro entry he
          rcases List.mem_append.mp he with he | he
          · exact hmade entry he
          · obtain rfl := List.mem_singleton.mp he
            exact ext2InodeEntryCreate_made hcreate
        · obtain rfl := hfilled
          exact hmade
    · rw [directoryEntrysLoop, if_neg hlt] at h
      obtain rfl := Except.ok.inj h
      exact hmade

theorem listInodeLoop_made {fs : Ext2} (root blocks index : Nat) {list list' : List InodeEntry}
    (hmade : ∀ entry ∈ list, entry.Made fs) (h : listInodeLoop fs root blocks index list = .ok list') :
    ∀ entry ∈ list', entry.Made fs := by
  induction blocks generalizing index list with
  | zero =>
    obtain rfl := Except.ok.inj h
    exact hmade
  | succ blocks ih =>
    obtain ⟨n, filled, -, hfilled, hrest⟩ := listInodeLoop_succ_eq_ok_iff.mp h
    refine ih _ ?_ hrest
    split at hfilled
    · exact directoryEntrysLoop_made _ _ _ hmade hfilled
    · obtain rfl := Except.ok.inj hfilled
      exact hmade

theorem ext2ListInode_made {fs : Ext2} {root : Nat} {list : List InodeEntry}
    (h : ext2ListInode fs root = .ok (some list)) : ∀ entry ∈ list, entry.Made fs := by
  obtain ⟨-, -, hloop⟩ := ext2ListInode_eq_ok_iff.mp h
  exact listInodeLoop_made root _ 0 (fun entry he => absurd he List.not_mem_nil) hloop

end FuseExt2
