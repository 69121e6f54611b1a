import FuseExt2.Server

/-! The bytes that path resolution reads, from the superblock to the directory
records, and that its result depends on no others. -/

namespace FuseExt2

open ByteStore

/-- The first descriptor of the group's copy of the table, where the code has one. -/
def groupReads (fs : Ext2) (group : Nat) : Set Nat :=
  {a | group % 2 ^ 16 < fs.numberOfBlockGroups ∧ ext2HasSuperblock (group % 2 ^ 16) = true ∧
    ∃ descriptor, ext2GetBlock fs (groupFirstBlock fs (group % 2 ^ 16) + 1) = some descriptor ∧
      a ∈ Set.Ico descriptor (descriptor + 12)}

def inodeGroup (fs : Ext2) (inodeIndex : Nat) : Nat := (inodeIndex + 2 ^ 32 - 1) % 2 ^ 32 / fs.inodeperGroup

/-- A deleted record is read up to its lengths; a used one with its name, and with
the descriptor its inode number leads to. -/
def recordReads (fs : Ext2) (entry : Nat) : Set Nat :=
  {a | a ∈ Set.Ico entry (entry + 8) ∨ directoryEntryInode fs.device entry ≠ 0 ∧
    (a ∈ Set.Ico (entry + 8) (entry + 8 + directoryEntryNameLen fs.device entry) ∨
      a ∈ groupReads fs (inodeGroup fs (directoryEntryInode fs.device entry)))}

/-- The offsets of a directory block that its records lead to. -/
inductive Visits (fs : Ext2) (block : Nat) : Nat → Prop
  | start : Visits fs block 0
  | next {offset : Nat} (hv : Visits fs block offset) (hlt : offset < fs.blockSize) :
      Visits fs block (offset + directoryEntryRecLen fs.device (block + offset))

def directoryReads (fs : Ext2) (block : Nat) : Set Nat :=
  {a | ∃ offset, Visits fs block offset ∧ offset < fs.blockSize ∧ a ∈ recordReads fs (block + offset)}

def listedBlocks (fs : Ext2) (node : Nat) : Nat := inodeBlocks fs.device node / shl32 2 fs.logBlockSize

/-- What the listing of an inode reads apart from the superblock. -/
def listingReads (fs : Ext2) (node : Nat) : Set Nat :=
  {a | a ∈ inodeRecordBytes node ∨ inodeHasModeFlag fs.device node EXT2_IFDIR = true ∧
    ∃ i < listedBlocks fs node, 12 ≤ i ∧ a ∈ Set.Ico 0 4 ∨
      ∃ n block, ext2GetInodeBlockEntry fs node i = .ok n ∧ n ≠ 0 ∧ ext2GetBlock fs n = some block ∧
        a ∈ directoryReads fs block}

inductive Reachable (fs : Ext2) : Nat → Prop
  | root {node : Nat} (hroot : ext2GetRootInode fs = .ok node) : Reachable fs node
  | entry {node : Nat} {list : List InodeEntry} {entry : InodeEntry} (hnode : Reachable fs node)
      (hlist : ext2ListInode fs node = .ok (some list)) (hentry : entry ∈ list) : Reachable fs entry.inode

theorem Reachable.mem_of_closed {fs : Ext2} {S : Set Nat} (hroot : ∀ node, ext2GetRootInode fs = .ok node → node ∈ S)
    (hlist : ∀ node ∈ S, ∀ list, ext2ListInode fs node = .ok (some list) → ∀ entry ∈ list, entry.inode ∈ S)
    {node : Nat} (hr : Reachable fs node) : node ∈ S := by
  induction hr with
  | root h => exact hroot _ h
  | entry _ hl he ih => exact hlist _ ih _ hl _ he

theorem Visits.mem_of_closed {fs : Ext2} {block : Nat} {S : Set Nat} (h0 : 0 ∈ S)
    (hnext : ∀ offset ∈ S, offset < fs.blockSize →
      offset + directoryEntryRecLen fs.device (block + offset) ∈ S) {offset : Nat} (hv : Visits fs block offset) :
    offset ∈ S := by
  induction hv with
  | start => exact h0
  | next _ hlt ih => exact hnext _ ih hlt

def namespaceBytes (fs : Ext2) : Set Nat :=
  {a | a ∈ superblockBytes ∨ a ∈ groupReads fs 0 ∨ ∃ node, Reachable fs node ∧ a ∈ listingReads fs node}

/-! Resolution after a change of other bytes. -/

section Congr

variable {fs : Ext2} {m : Memory}

theorem ext2GetBlockGroup_congr (hsb : Set.EqOn fs.device m superblockBytes) {group : Nat}
    (hg : Set.EqOn fs.device m (groupReads fs group)) :
    ext2GetBlockGroup (fs.withDevice m) group = ext2GetBlockGroup fs group := by
  have hfirst : ∀ g, groupFirstBlock (fs.withDevice m) g = groupFirstBlock fs g := by
    intro g
    have hb : (fs.withDevice m).blockperGroup = fs.blockperGroup := superblock_word_congr hsb (by decide)
    have hf : (fs.withDevice m).firstDataBlock = fs.firstDataBlock := superblock_word_congr hsb (by decide)
    rw [groupFirstBlock, groupFirstBlock, hb, hf]
  simp only [ext2GetBlockGroup, Ext2.withDevice_numberOfBlockGroups, hfirst, ext2GetBlock_congr hsb,
    Ext2.withDevice_device, Ext2.withDevice_blockSize]
  by_cases hn : fs.numberOfBlockGroups ≤ group % 2 ^ 16
  · rw [if_pos hn, if_pos hn]
  · rw [if_neg hn, if_neg hn]
    cases hs : ext2HasSuperblock (group % 2 ^ 16) with
    | false => rfl
    | true =>
      simp only [if_true]
      cases hd : ext2GetBlock fs (groupFirstBlock fs (group % 2 ^ 16) + 1) with
      | none => rfl
      | some descriptor =>
        have hbytes : ∀ k, k + 4 ≤ 12 → le32 m (descriptor + k) = le32 fs.device (descriptor + k) := by
          intro k hk
          refine (le32_congr fun a ha => hg ⟨Nat.lt_of_not_le hn, hs, descriptor, hd, ?_⟩).symm
          have h1 : descriptor + k ≤ a := ha.1
          have h2 : a < descriptor + k + 4 := ha.2
          exact ⟨by omega, by omega⟩
        have h0 : le32 m descriptor = le32 fs.device descriptor := hbytes 0 (by decide)
        simp only [deref_some, descriptorBlockBitmap, descriptorInodeBitmap, descriptorInodeTable, h0,
          hbytes 4 (by decide), hbytes 8 (by decide)]

theorem ext2GetInode_congr (hsb : Set.EqOn fs.device m superblockBytes) {inodeIndex : Nat}
    (hg : Set.EqOn fs.device m (groupReads fs (inodeGroup fs inodeIndex))) :
    ext2GetInode (fs.withDevice m) inodeIndex = ext2GetInode fs inodeIndex := by
  have hi : (fs.withDevice m).inodeperGroup = fs.inodeperGroup := superblock_word_congr hsb (by decide)
  have hgroup := ext2GetBlockGroup_congr hsb hg
  rw [inodeGroup] at hgroup
  simp only [ext2GetInode, hi, hgroup]

theorem ext2InodeEntryCreate_congr (hsb : Set.EqOn fs.device m superblockBytes) {entry : Nat}
    (he : Set.EqOn fs.device m (recordReads fs entry)) (hne : directoryEntryInode fs.device entry ≠ 0) :
    ext2InodeEntryCreate (fs.withDevice m) entry = ext2InodeEntryCreate fs entry := by
  have hhead : ∀ k < 8, m (entry + k) = fs.device (entry + k) := by
    intro k hk
    have hmem : entry + k ∈ Set.Ico entry (entry + 8) := ⟨by omega, by omega⟩
    exact (he (Or.inl hmem)).symm
  have hinode : directoryEntryInode m entry = directoryEntryInode fs.device entry := by
    refine (le32_congr fun a ha => he (Or.inl ⟨ha.1, ?_⟩)).symm
    have h2 : a < entry + 4 := ha.2
    omega
  have hlen : directoryEntryNameLen m entry = directoryEntryNameLen fs.device entry := by
    rw [directoryEntryNameLen, hhead 6 (by decide)]
    rfl
  have hname : directoryEntryName m entry (directoryEntryNameLen fs.device entry) =
      directoryEntryName fs.device entry (directoryEntryNameLen fs.device entry) :=
    (readBytes_congr (he.mono (fun a ha => Or.inr ⟨hne, Or.inl ha⟩ :
      Set.Ico (entry + 8) (entry + 8 + directoryEntryNameLen fs.device entry) ⊆ recordReads fs entry))).symm
  have hget := ext2GetInode_congr hsb (he.mono fun a ha => Or.inr ⟨hne, Or.inr ha⟩)
  simp only [ext2InodeEntryCreate, Ext2.withDevice_device, hinode, hlen, hname, hget]

theorem directoryEntrysLoop_congr (hsb : Set.EqOn fs.device m superblockBytes) {block : Nat}
    (hb : Set.EqOn fs.device m (directoryReads fs block)) (fuel : Nat) {offset : Nat} (hv : Visits fs block offset)
    (list : List InodeEntry) :
    directoryEntrysLoop (fs.withDevice m) (some block) fuel offset list =
      directoryEntrysLoop fs (some block) fuel offset list := by
  induction fuel generalizing offset list with
  | zero => rfl
  | succ fuel ih =>
    rw [directoryEntrysLoop, directoryEntrysLoop]
    by_cases hlt : offset < fs.blockSize
    · have hsub : recordReads fs (block + offset) ⊆ directoryReads fs block := fun a ha => ⟨offset, hv, hlt, ha⟩
      have hrecord : Set.EqOn fs.device m (recordReads fs (block + offset)) := hb.mono hsub
      have hinode : directoryEntryInode m (block + offset) = directoryEntryInode fs.device (block + offset) := by
        refine (le32_congr fun a ha => hrecord (Or.inl ⟨ha.1, ?_⟩)).symm
        have h2 : a < block + offset + 4 := ha.2
        omega
      have hrec : directoryEntryRecLen m (block + offset) = directoryEntryRecLen fs.device (block + offset) := by
        refine (le16_congr fun a ha => hrecord (Or.inl ?_)).symm
        have h1 : block + offset + 4 ≤ a := ha.1
        have h2 : a < block + offset + 4 + 2 := ha.2
        exact ⟨by omega, by omega⟩
      have hnext := ih (Visits.next hv hlt)
      simp only [Ext2.withDevice_blockSize, Ext2.withDevice_device, if_pos hlt, deref_some, hinode, hrec]
      by_cases hne : directoryEntryInode fs.device (block + offset) ≠ 0
      · rw [if_pos hne, if_pos hne, ext2InodeEntryCreate_congr hsb hrecord hne]
        cases ext2InodeEntryCreate fs (block + offset) with
        | error fault => rfl
        | ok inodeEntry => exact hnext _
      · rw [if_neg hne, if_neg hne]
        exact hnext list
    · have hlt' : ¬ offset < (fs.withDevice m).blockSize := hlt
      rw [if_neg hlt, if_neg hlt']

theorem listInodeLoop_congr (hsb : Set.EqOn fs.device m superblockBytes) {node : Nat}
    (hn : Set.EqOn fs.device m (listingReads fs node))
    (hdir : inodeHasModeFlag fs.device node EXT2_IFDIR = true) (blocks : Nat) {index : Nat}
    (hle : index + blocks ≤ listedBlocks fs node) (list : List InodeEntry) :
    listInodeLoop (fs.withDevice m) node blocks index list = listInodeLoop fs node blocks index list := by
  induction blocks generalizing index list with
  | zero => rfl
  | succ blocks ih =>
    have hi : index < listedBlocks fs node := by omega
    have hentry : ext2GetInodeBlockEntry (fs.withDevice m) node index = ext2GetInodeBlockEntry fs node index :=
      ext2GetInodeBlockEntry_congr hsb (hn.mono fun a ha => Or.inl ha)
        (fun h12 => hn.mono fun a ha => Or.inr ⟨hdir, index, hi, Or.inl ⟨h12, ha⟩⟩)
    have hrest : ∀ list, listInodeLoop (fs.withDevice m) node blocks (index + 1) list =
        listInodeLoop fs node blocks (index + 1) list := fun list => ih (by omega) list
    rw [listInodeLoop, listInodeLoop, hentry]
    cases he : ext2GetInodeBlockEntry fs node index with
    | error fault => rfl
    | ok n =>
      simp only [ext2GetBlock_congr hsb]
      by_cases hne : n ≠ 0
      · rw [if_pos hne, if_pos hne]
        have hfill : ext2GetBlockDirectoryEntrys (fs.withDevice m) (ext2GetBlock fs n) list =
            ext2GetBlockDirectoryEntrys fs (ext2GetBlock fs n) list := by
          cases hb : ext2GetBlock fs n with
          | none => rfl
          | some block =>
            have hreads : Set.EqOn fs.device m (directoryReads fs block) :=
              hn.mono fun a ha => Or.inr ⟨hdir, index, hi, Or.inr ⟨n, block, he, hne, hb, ha⟩⟩
            exact directoryEntrysLoop_congr hsb hreads (fs.blockSize + 1) Visits.start list
        rw [hfill]
        cases ext2GetBlockDirectoryEntrys fs (ext2GetBlock fs n) list with
        | error fault => rfl
        | ok filled => exact hrest filled
      · rw [if_neg hne, if_neg hne]
        exact hrest list

theorem ext2ListInode_congr (hsb : Set.EqOn fs.device m superblockBytes) {node : Nat}
    (hn : Set.EqOn fs.device m (listingReads fs node)) :
    ext2ListInode (fs.withDevice m) node = ext2ListInode fs node := by
  have hrecord : Set.EqOn fs.device m (inodeRecordBytes node) := hn.mono fun a ha => Or.inl ha
  have hmode := inodeMode_congr hrecord
  have hblocks := inodeBlocks_congr hrecord
  have hlog : (fs.withDevice m).logBlockSize = fs.logBlockSize := superblock_word_congr hsb (by decide)
  simp only [ext2ListInode, inodeHasModeFlag, Ext2.withDevice_device, hmode, hblocks, hlog]
  by_cases hdir : inodeHasModeFlag fs.device node EXT2_IFDIR = true
  · have hloop := listInodeLoop_congr hsb hn hdir (listedBlocks fs node) (Nat.zero_add _).le []
    rw [listedBlocks] at hloop
    rw [hloop]
    rfl
  · rw [inodeHasModeFlag] at hdir
    simp only [hdir]
    rfl

theorem namespace_superblock (hm : Set.EqOn fs.device m (namespaceBytes fs)) : Set.EqOn fs.device m superblockBytes :=
  hm.mono fun _ ha => Or.inl ha

theorem Reachable.ext2ListInode_congr {node : Nat} (hr : Reachable fs node)
    (hm : Set.EqOn fs.device m (namespaceBytes fs)) :
    ext2ListInode (fs.withDevice m) node = ext2ListInode fs node :=
  FuseExt2.ext2ListInode_congr (namespace_superblock hm) (hm.mono fun _ ha => Or.inr (Or.inr ⟨node, hr, ha⟩))

theorem ext2GetRootInode_congr (hm : Set.EqOn fs.device m (namespaceBytes fs)) :
    ext2GetRootInode (fs.withDevice m) = ext2GetRootInode fs := by
  rw [ext2GetRootInode, ext2GetRootInode,
    ext2GetBlockGroup_congr (namespace_superblock hm) (hm.mono fun _ ha => Or.inr (Or.inl ha))]

theorem ext2FindInode_congr {node : Nat} (hr : Reachable fs node) (hm : Set.EqOn fs.device m (namespaceBytes fs))
    (names : List (List UInt8)) :
    ext2FindInode (fs.withDevice m) node names = ext2FindInode fs node names := by
  induction names generalizing node with
  | nil => rfl
  | cons name names ih =>
    have hsame := hr.ext2ListInode_congr hm
    cases hlist : ext2ListInode fs node with
    | error fault => rw [ext2FindInode, ext2FindInode, hsame, hlist]
    | ok subelements =>
      cases subelements with
      | none => simp only [ext2FindInode, hsame, hlist, deref_none]
      | some list =>
        cases hfind : list.find? (fun entry => strcmpEq name entry.name) with
        | none => simp only [ext2FindInode, hsame, hlist, deref_some, hfind]
        | some entry =>
          rw [ext2FindInode_cons (hsame.trans hlist) hfind, ext2FindInode_cons hlist hfind]
          exact ih (Reachable.entry hr hlist (List.mem_of_find?_eq_some hfind))

theorem reachable_of_ext2FindInode {node last : Nat} {names : List (List UInt8)} (hr : Reachable fs node)
    (h : ext2FindInode fs node names = .ok (some last)) : Reachable fs last := by
  induction names generalizing node with
  | nil =>
    obtain rfl := Option.some.inj (Except.ok.inj h)
    exact hr
  | cons name names ih =>
    obtain ⟨list, entry, hlist, hfind, htail⟩ := ext2FindInode_cons_some h
    exact ih (Reachable.entry hr hlist (List.mem_of_find?_eq_some hfind)) htail

theorem reachable_of_ext2GetElementInode {path : List UInt8} {node : Nat}
    (h : ext2GetElementInode fs path = .ok (some node)) : Reachable fs node := by
  obtain ⟨root, hroot, ⟨-, rfl⟩ | ⟨-, c, text, -, hfind⟩⟩ := ext2GetElementInode_some h
  · exact Reachable.root hroot
  · exact reachable_of_ext2FindInode (Reachable.root hroot) hfind

theorem ext2GetElementInode_congr (hm : Set.EqOn fs.device m (namespaceBytes fs)) (path : List UInt8) :
    ext2GetElementInode (fs.withDevice m) path = ext2GetElementInode fs path := by
  rw [ext2GetElementInode, ext2GetElementInode, ext2GetRootInode_congr hm]
  cases hroot : ext2GetRootInode fs with
  | error fault => rfl
  | ok root =>
    simp only
    split
    · rfl
    · cases path with
      | nil => rfl
      | cons c text =>
        simp only [stringSplit_slash]
        exact ext2FindInode_congr (Reachable.root hroot) hm _

end Congr

/-- Every path resolves to the same inode, and every directory has the same
entries, with the same names and inode numbers. -/
def SameNamespace (fs fs' : Ext2) : Prop :=
  (∀ path, ext2GetElementInode fs' path = ext2GetElementInode fs path) ∧
    ∀ node, Reachable fs node → ext2ListInode fs' node = ext2ListInode fs node

theorem sameNamespace_of_eqOn {fs : Ext2} {m : Memory} (hm : Set.EqOn fs.device m (namespaceBytes fs)) :
    SameNamespace fs (fs.withDevice m) :=
  ⟨ext2GetElementInode_congr hm, fun _ hr => hr.ext2ListInode_congr hm⟩

theorem fileFs_reachable {size node : Nat} (hs : size = 10 ∨ size = 2048)
    (hr : Reachable (fileFs size) node) : node ∈ ({5248, 6528} : Set Nat) := by
  refine hr.mem_of_closed ?_ ?_
  · intro node h
    have hroot : ext2GetRootInode (fileFs size) = .ok 5248 := by rcases hs with rfl | rfl <;> rfl
    exact Or.inl (Except.ok.inj (h.symm.trans hroot))
  · rintro node (rfl | rfl) list hl entry he
    · obtain ⟨list', hlist, hinodes⟩ : ∃ list, ext2ListInode (fileFs size) 5248 = .ok (some list) ∧
          list.map InodeEntry.inode = [5248, 5248, 6528] := by
        rcases hs with rfl | rfl <;> exact ⟨_, rfl, rfl⟩
      obtain rfl := Option.some.inj (Except.ok.inj (hl.symm.trans hlist))
      have hmem := List.mem_map_of_mem (f := InodeEntry.inode) he
      rw [hinodes] at hmem
      simpa using hmem
    · have hnone : ext2ListInode (fileFs size) 6528 = .ok none := by rcases hs with rfl | rfl <;> rfl
      cases Except.ok.inj (hl.symm.trans hnone)

theorem fileFs_visits {size offset : Nat} (hs : size = 10 ∨ size = 2048)
    (hv : Visits (fileFs size) 7168 offset) :
    offset ∈ ({0, 12, 24, 1024} : Set Nat) := by
  refine hv.mem_of_closed (Or.inl rfl) ?_
  have h0 : directoryEntryRecLen (fileFs size).device 7168 = 12 := by rcases hs with rfl | rfl <;> rfl
  have h12 : directoryEntryRecLen (fileFs size).device 7180 = 12 := by rcases hs with rfl | rfl <;> rfl
  have h24 : directoryEntryRecLen (fileFs size).device 7192 = 1000 := by rcases hs with rfl | rfl <;> rfl
  have hbs : (fileFs size).blockSize = 1024 := by rcases hs with rfl | rfl <;> rfl
  rintro o (rfl | rfl | rfl | rfl) hlt
  · exact Or.inr (Or.inl (by rw [Nat.add_zero, h0]))
  · exact Or.inr (Or.inr (Or.inl (by rw [h12])))
  · exact Or.inr (Or.inr (Or.inr (by rw [h24]; rfl)))
  · omega

theorem fileFs_namespace {size a : Nat} (hs : size = 10 ∨ size = 2048)
    (ha : a ∈ namespaceBytes (fileFs size)) : a < 8192 := by
  have hgroup : ∀ a, a ∈ groupReads (fileFs size) 0 → a < 8192 := by
    rintro a ⟨-, -, descriptor, hd, -, hu⟩
    have hblock : ext2GetBlock (fileFs size) (groupFirstBlock (fileFs size) (0 % 2 ^ 16) + 1) = some 2048 := by
      rcases hs with rfl | rfl <;> rfl
    obtain rfl := Option.some.inj (hd.symm.trans hblock)
    omega
  have hrecord : ∀ entry ∈ [7168, 7180, 7192], ∀ a ∈ recordReads (fileFs size) entry, a < 8192 := by
    have hlen : ∀ entry ∈ [7168, 7180, 7192], directoryEntryNameLen (fileFs size).device entry ≤ 2 ∧
        inodeGroup (fileFs size) (directoryEntryInode (fileFs size).device entry) = 0 := by
      rcases hs with rfl | rfl <;> decide
    have hle : ∀ entry ∈ [7168, 7180, 7192], entry ≤ 7192 := by decide
    rintro entry he a (⟨-, hu⟩ | ⟨-, ⟨-, hu⟩ | hg⟩)
    · have := hle entry he
      omega
    · have := hle entry he
      have := (hlen entry he).1
      omega
    · rw [(hlen entry he).2] at hg
      exact hgroup a hg
  rcases ha with ⟨-, hu⟩ | hg | ⟨node, hr, ⟨-, hu⟩ | ⟨hdir, i, hi, hread⟩⟩
  · simp only [superblockAddress, superblockSize] at hu
    omega
  · exact hgroup a hg
  · simp only [inodeRecordSize] at hu
    rcases fileFs_reachable hs hr with rfl | rfl <;> omega
  · rcases fileFs_reachable hs hr with rfl | rfl
    · have hone : listedBlocks (fileFs size) 5248 = 1 := by rcases hs with rfl | rfl <;> rfl
      obtain rfl : i = 0 := by omega
      have hentry : ext2GetInodeBlockEntry (fileFs size) 5248 0 = .ok 7 := by rcases hs with rfl | rfl <;> rfl
      have hblock : ext2GetBlock (fileFs size) 7 = some 7168 := by rcases hs with rfl | rfl <;> rfl
      have hbs : (fileFs size).blockSize = 1024 := by rcases hs with rfl | rfl <;> rfl
      rcases hread with ⟨h12, -⟩ | ⟨n, block, hn, -, hb, offset, hv, hlt, hmem⟩
      · omega
      · obtain rfl := Except.ok.inj (hn.symm.trans hentry)
        obtain rfl := Option.some.inj (hb.symm.trans hblock)
        rcases fileFs_visits hs hv with rfl | rfl | rfl | rfl
        · exact hrecord _ (by decide) a hmem
        · exact hrecord _ (by decide) a hmem
        · exact hrecord _ (by decide) a hmem
        · omega
    · have hfile : inodeHasModeFlag (fileFs size).device 6528 EXT2_IFDIR = false := by
        rcases hs with rfl | rfl <;> rfl
      cases hdir.symm.trans hfile

end FuseExt2
