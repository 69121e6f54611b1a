import FuseExt2.DirectoryRecords

/-! The listing of a directory, against the records that its blocks hold. -/

namespace FuseExt2

open ByteStore

def SlotParses (fs : Ext2) (dir i : Nat) : Prop :=
  ∃ n, ext2GetInodeBlockEntry fs dir i = .ok n ∧
    (n ≠ 0 → ∃ block, ext2GetBlock fs n = some block ∧ Parses fs block)

/-- The blocks of a directory can be walked record by record. -/
def ListingParses (fs : Ext2) (dir : Nat) : Prop :=
  shl32 2 fs.logBlockSize ≠ 0 ∧ ∀ i < listedBlocks fs dir, SlotParses fs dir i

theorem exists_slotDirectoryEntrys_iff {fs : Ext2} (hpos : 0 < fs.blockSize) (n : Nat) (list : List InodeEntry) :
    (∃ filled, ext2GetBlockDirectoryEntrys fs (ext2GetBlock fs n) list = .ok filled) ↔
      ∃ block, ext2GetBlock fs n = some block ∧ Parses fs block := by
  cases hb : ext2GetBlock fs n with
  | none =>
    have hnull : ext2GetBlockDirectoryEntrys fs none list = .error .nullPointer := by
      rw [ext2GetBlockDirectoryEntrys, directoryEntrysLoop, if_pos hpos]
      rfl
    simp [hnull]
  | some block => simp [exists_directoryEntrys_iff]

theorem slotParses_iff {fs : Ext2} (hpos : 0 < fs.blockSize) (dir i : Nat) (list : List InodeEntry) :
    SlotParses fs dir i ↔ ∃ n filled, ext2GetInodeBlockEntry fs dir i = .ok n ∧
      (if n ≠ 0 then ext2GetBlockDirectoryEntrys fs (ext2GetBlock fs n) list else .ok list) = .ok filled := by
  rw [SlotParses]
  refine exists_congr fun n => ?_
  by_cases hz : n = 0
  · simp [hz]
  · simp [hz, exists_slotDirectoryEntrys_iff hpos n list]

theorem exists_listInodeLoop_iff {fs : Ext2} (hpos : 0 < fs.blockSize) (dir blocks index : Nat)
    (list : List InodeEntry) :
    (∃ filled, listInodeLoop fs dir blocks index list = .ok filled) ↔
      ∀ i, index ≤ i → i < index + blocks → SlotParses fs dir i := by
  induction blocks generalizing index list with
  | zero => exact iff_of_true ⟨list, rfl⟩ (fun i hi hlt => absurd hlt (Nat.not_lt.mpr hi))
  | succ blocks ih =>
    constructor
    · intro h i hi hlt
      obtain ⟨list', hloop⟩ := h
      obtain ⟨n, filled, hentry, hfilled, hrest⟩ := listInodeLoop_succ_eq_ok_iff.mp hloop
      rcases Nat.eq_or_lt_of_le hi with rfl | hi
      · exact (slotParses_iff hpos dir index list).mpr ⟨n, filled, hentry, hfilled⟩
      · exact (ih (index + 1) filled).mp ⟨list', hrest⟩ i hi (by omega)
    · intro h
      obtain ⟨n, filled, hentry, hfilled⟩ := (slotParses_iff hpos dir index list).mp (h index le_rfl (by omega))
      obtain ⟨list', hrest⟩ := (ih (index + 1) filled).mpr (fun i hi hlt => h i (by omega) (by omega))
      exact ⟨list', listInodeLoop_succ_eq_ok_iff.mpr ⟨n, filled, hentry, hfilled, hrest⟩⟩

theorem exists_ext2ListInode_iff {fs : Ext2} (hpos : 0 < fs.blockSize) (dir : Nat) :
    (∃ list, ext2ListInode fs dir = .ok (some list)) ↔
      inodeHasModeFlag fs.device dir EXT2_IFDIR = true ∧ ListingParses fs dir := by
  have hloop := exists_listInodeLoop_iff hpos dir (listedBlocks fs dir) 0 []
  simp only [Nat.zero_le, forall_const, Nat.zero_add] at hloop
  rw [ListingParses, ← hloop, listedBlocks]
  simp only [ext2ListInode_eq_ok_iff, exists_and_left]

/-! The records that a listing shows. -/

/-- The block of a slot as the code takes it: its number is cut to 16 bits. -/
def slotShown (fs : Ext2) (dir i : Nat) : List (Nat × List UInt8) :=
  if entryValue fs dir i = 0 then [] else blockRecords fs (entryValue fs dir i % 2 ^ 16 * fs.blockSize)

def shownRecords (fs : Ext2) (dir : Nat) : List (Nat × List UInt8) :=
  (List.range (listedBlocks fs dir)).flatMap (slotShown fs dir)

theorem listInodeLoop_shown {fs : Ext2} (hbs : Ext2Sized fs) {dir : Nat} (blocks index : Nat)
    {list list' : List InodeEntry} (h : listInodeLoop fs dir blocks index list = .ok list') :
    list'.map InodeEntry.shown =
      list.map InodeEntry.shown ++ (List.range' index blocks).flatMap (slotShown fs dir) := by
  induction blocks generalizing index list with
  | zero =>
    obtain rfl := Except.ok.inj h
    exact (List.append_nil _).symm
  | succ blocks ih =>
    obtain ⟨n, filled, hentry, hfilled, hrest⟩ := listInodeLoop_succ_eq_ok_iff.mp h
    obtain ⟨-, rfl⟩ := (ext2GetInodeBlockEntry_eq_ok_iff hbs.entriesPerBlock_pos).mp hentry
    rw [ih (index + 1) hrest, List.range'_succ, List.flatMap_cons, ← List.append_assoc, slotShown]
    refine congrArg (· ++ _) ?_
    by_cases hz : entryValue fs dir index = 0
    · rw [if_neg (not_not.mpr hz)] at hfilled
      obtain rfl := Except.ok.inj hfilled
      rw [if_pos hz, List.append_nil]
    · rw [if_pos hz] at hfilled
      rw [if_neg hz]
      obtain ⟨block, hblock, -⟩ := (exists_slotDirectoryEntrys_iff hbs.pos _ list).mp ⟨filled, hfilled⟩
      rw [hblock] at hfilled
      rw [ext2GetBlock_eq hbs] at hblock
      split at hblock
      · obtain rfl := Option.some.inj hblock
        exact ext2GetBlockDirectoryEntrys_shown hfilled
      · cases hblock

theorem ext2ListInode_shown {fs : Ext2} (hbs : Ext2Sized fs) {dir : Nat} {list : List InodeEntry}
    (h : ext2ListInode fs dir = .ok (some list)) : list.map InodeEntry.shown = shownRecords fs dir := by
  obtain ⟨-, -, hloop⟩ := ext2ListInode_eq_ok_iff.mp h
  have hshown := listInodeLoop_shown hbs _ 0 hloop
  rw [List.map_nil, List.nil_append, ← List.range_eq_range'] at hshown
  exact hshown

/-! Blocks filled with records. -/

section Records

variable {fs : Ext2} {block offset : Nat}

theorem HoldsRecords.loop {entry : Nat} {records : List DirectoryRecord}
    (hholds : HoldsRecords fs.device entry records) (hentry : entry = block + offset)
    (hfills : offset + recordsLength records = fs.blockSize)
    (hnumbers : ∀ record ∈ usedRecords records, ∃ inode, ext2GetInode fs record.inode = .ok inode)
    {fuel : Nat} (hfuel : records.length < fuel) (listToFill : List InodeEntry) :
    ∃ list, directoryEntrysLoop fs (some block) fuel offset listToFill = .ok list := by
  induction hholds generalizing offset fuel listToFill with
  | nil entry =>
    obtain ⟨fuel, rfl⟩ := Nat.exists_eq_succ_of_ne_zero hfuel.ne'
    exact ⟨listToFill, directoryEntrysLoop_end (by simpa [recordsLength] using hfills.ge) fuel⟩
  | @cons entry record records hrecord hrest ih =>
    subst hentry
    obtain ⟨fuel, rfl⟩ := Nat.exists_eq_succ_of_ne_zero (Nat.ne_zero_of_lt hfuel)
    have hsum : recordsLength (record :: records) = record.recLen + recordsLength records := by
      simp [recordsLength]
    have hlt : offset < fs.blockSize := by
      have := record.name_le
      omega
    have hsub : ∀ r ∈ usedRecords records, r ∈ usedRecords (record :: records) := by
      intro r hr
      obtain ⟨hmem, hu⟩ := List.mem_filter.mp hr
      exact List.mem_filter.mpr ⟨List.mem_cons_of_mem record hmem, hu⟩
    have hnext := fun list => ih (Nat.add_assoc block offset record.recLen) (by omega)
      (fun r hr => hnumbers r (hsub r hr)) (Nat.lt_of_succ_lt_succ hfuel) list
    by_cases hd : record.inode = 0
    · rw [directoryEntrysLoop_deleted hlt (hrecord.inode.trans hd), hrecord.recLen]
      exact hnext listToFill
    · have hinode := hnumbers record (List.mem_filter.mpr ⟨List.mem_cons_self, by simp [hd]⟩)
      rw [← hrecord.inode] at hinode
      obtain ⟨entry, hcreate⟩ := exists_ext2InodeEntryCreate_iff.mpr hinode
      rw [directoryEntrysLoop_used hlt (hrecord.inode.trans_ne hd) hcreate, hrecord.recLen]
      exact hnext (listToFill ++ [entry])

/-- Only a number without an inode stops the walk through a block filled with records. -/
theorem HoldsRecords.parses_iff {records : List DirectoryRecord} (hholds : HoldsRecords fs.device block records)
    (hfills : recordsLength records = fs.blockSize) :
    Parses fs block ↔ ∀ record ∈ usedRecords records, ∃ inode, ext2GetInode fs record.inode = .ok inode := by
  have hlen := length_le_recordsLength records
  rw [← exists_directoryEntrys_iff []]
  constructor
  · intro h record hr
    obtain ⟨list, hok⟩ := h
    have hshown := ext2GetBlockDirectoryEntrys_shown hok
    rw [hholds.blockRecords_eq hfills, List.map_nil, List.nil_append] at hshown
    obtain ⟨entry, he, heq⟩ := List.mem_map.mp (hshown ▸ List.mem_map_of_mem (f := DirectoryRecord.shown) hr)
    have hmade := directoryEntrysLoop_made _ _ _ (fun e he => absurd he List.not_mem_nil) hok entry he
    have hnumber : entry.inodeIndex = record.inode := congrArg Prod.fst heq
    exact ⟨entry.inode, hnumber ▸ hmade⟩
  · intro h
    exact hholds.loop rfl (by omega) h (by omega) []

end Records

/-! The records of a directory of up to twelve blocks. -/

/-- Records that fill the block at the address, and whose numbers are those of inodes. -/
structure WellFormedRecords (fs : Ext2) (block : Nat) (records : List DirectoryRecord) : Prop where
  holds : HoldsRecords fs.device block records
  fills : recordsLength records = fs.blockSize
  valid : ∀ record ∈ records, record.inode ≤ fs.inodecount

structure WellFormedDirectory (fs : Ext2) (root : Nat) (records : Nat → List DirectoryRecord) : Prop where
  directory : inodeHasModeFlag fs.device root EXT2_IFDIR = true
  sectors : shl32 2 fs.logBlockSize ≠ 0
  blocks : listedBlocks fs root ≤ 12
  slots : ∀ i < listedBlocks fs root, inodeBlock fs.device root i ≠ 0 →
    inodeBlock fs.device root i < fs.blockcount ∧
      WellFormedRecords fs (inodeBlock fs.device root i * fs.blockSize) (records i)

/-- The used records of the blocks in the slots that are not zero, in their order. -/
def slotRecords (fs : Ext2) (root : Nat) (records : Nat → List DirectoryRecord) : List DirectoryRecord :=
  usedRecords ((List.range (listedBlocks fs root)).flatMap
    (fun i => if inodeBlock fs.device root i = 0 then [] else records i))

def ListsRecords (fs : Ext2) (root : Nat) (records : Nat → List DirectoryRecord) : Prop :=
  ∃ entries, ext2ListInode fs root = .ok (some entries) ∧
    entries.map InodeEntry.shown = (slotRecords fs root records).map DirectoryRecord.shown

def SlotsFit (fs : Ext2) (root : Nat) : Prop :=
  ∀ i < listedBlocks fs root, inodeBlock fs.device root i < 2 ^ 16

def NumbersFound (fs : Ext2) (root : Nat) (records : Nat → List DirectoryRecord) : Prop :=
  ∀ record ∈ slotRecords fs root records, ∃ inode, ext2GetInode fs record.inode = .ok inode

/-- The blocks that the cut slots name can be walked, and happen to hold the same
used records. -/
def ListingCoincides (fs : Ext2) (root : Nat) (records : Nat → List DirectoryRecord) : Prop :=
  (∀ i < listedBlocks fs root, inodeBlock fs.device root i ≠ 0 →
    Parses fs (inodeBlock fs.device root i % 2 ^ 16 * fs.blockSize)) ∧
  shownRecords fs root = (slotRecords fs root records).map DirectoryRecord.shown

section Listing

variable {fs : Ext2} {root : Nat} {records : Nat → List DirectoryRecord}

theorem entryValue_direct (fs : Ext2) (node : Nat) {i : Nat} (hi : i < 12) :
    entryValue fs node i = inodeBlock fs.device node i := if_pos hi

theorem WellFormedDirectory.slotParses_iff (hbs : Ext2Sized fs) (hwf : WellFormedDirectory fs root records) {i : Nat}
    (hi : i < listedBlocks fs root) : SlotParses fs root i ↔ (inodeBlock fs.device root i ≠ 0 →
      Parses fs (inodeBlock fs.device root i % 2 ^ 16 * fs.blockSize)) := by
  have hblocks := hwf.blocks
  have hentry := ext2GetInodeBlockEntry_direct fs root (show i < 12 by omega)
  have hfound : inodeBlock fs.device root i ≠ 0 → ext2GetBlock fs (inodeBlock fs.device root i) =
      some (inodeBlock fs.device root i % 2 ^ 16 * fs.blockSize) := by
    intro hne
    have hlt := lt_of_le_of_lt (Nat.mod_le _ (2 ^ 16)) (hwf.slots i hi hne).1
    rw [ext2GetBlock_eq hbs, if_pos hlt]
  constructor
  · intro h hne
    obtain ⟨n, hn, hparses⟩ := h
    obtain rfl := Except.ok.inj (hentry.symm.trans hn)
    obtain ⟨block, hblock, hp⟩ := hparses hne
    obtain rfl := Option.some.inj ((hfound hne).symm.trans hblock)
    exact hp
  · intro h
    exact ⟨_, hentry, fun hne => ⟨_, hfound hne, h hne⟩⟩

theorem listsRecords_iff_coincides (hbs : Ext2Sized fs) (hwf : WellFormedDirectory fs root records) :
    ListsRecords fs root records ↔ ListingCoincides fs root records := by
  have hparses : (∃ list, ext2ListInode fs root = .ok (some list)) ↔ ∀ i < listedBlocks fs root,
      inodeBlock fs.device root i ≠ 0 → Parses fs (inodeBlock fs.device root i % 2 ^ 16 * fs.blockSize) := by
    rw [exists_ext2ListInode_iff hbs.pos, ListingParses]
    constructor
    · intro h i hi
      exact (hwf.slotParses_iff hbs hi).mp (h.2.2 i hi)
    · intro h
      exact ⟨hwf.directory, hwf.sectors, fun i hi => (hwf.slotParses_iff hbs hi).mpr (h i hi)⟩
  constructor
  · intro h
    obtain ⟨entries, hlist, hshown⟩ := h
    exact ⟨hparses.mp ⟨entries, hlist⟩, (ext2ListInode_shown hbs hlist).symm.trans hshown⟩
  · intro h
    obtain ⟨entries, hlist⟩ := hparses.mpr h.1
    exact ⟨entries, hlist, (ext2ListInode_shown hbs hlist).trans h.2⟩

theorem WellFormedDirectory.shownRecords_eq (hwf : WellFormedDirectory fs root records) (hfit : SlotsFit fs root) :
    shownRecords fs root = (slotRecords fs root records).map DirectoryRecord.shown := by
  have hslot : ∀ i ∈ List.range (listedBlocks fs root), slotShown fs root i =
      (usedRecords (if inodeBlock fs.device root i = 0 then [] else records i)).map DirectoryRecord.shown := by
    intro i hi
    have hi' := List.mem_range.mp hi
    have hblocks := hwf.blocks
    rw [slotShown, entryValue_direct fs root (show i < 12 by omega)]
    by_cases hz : inodeBlock fs.device root i = 0
    · rw [if_pos hz, if_pos hz]
      rfl
    · obtain ⟨-, hrecords⟩ := hwf.slots i hi' hz
      rw [if_neg hz, if_neg hz, Nat.mod_eq_of_lt (hfit i hi'), hrecords.holds.blockRecords_eq hrecords.fills]
  rw [shownRecords, slotRecords, usedRecords, List.filter_flatMap, List.map_flatMap]
  exact List.flatMap_congr hslot

theorem listingCoincides_of_fit (hwf : WellFormedDirectory fs root records) (hfit : SlotsFit fs root) :
    ListingCoincides fs root records ↔ NumbersFound fs root records := by
  have hslot : ∀ i < listedBlocks fs root, inodeBlock fs.device root i ≠ 0 →
      (Parses fs (inodeBlock fs.device root i % 2 ^ 16 * fs.blockSize) ↔
        ∀ record ∈ usedRecords (records i), ∃ inode, ext2GetInode fs record.inode = .ok inode) := by
    intro i hi hne
    obtain ⟨-, hrecords⟩ := hwf.slots i hi hne
    rw [Nat.mod_eq_of_lt (hfit i hi)]
    exact hrecords.holds.parses_iff hrecords.fills
  have hmem : ∀ record, record ∈ slotRecords fs root records ↔ ∃ i < listedBlocks fs root,
      inodeBlock fs.device root i ≠ 0 ∧ record ∈ usedRecords (records i) := by
    intro record
    simp only [slotRecords, usedRecords, List.filter_flatMap, List.mem_flatMap, List.mem_range]
    refine exists_congr fun i => and_congr_right fun _ => ?_
    by_cases hz : inodeBlock fs.device root i = 0
    · simp [hz]
    · simp [hz]
  constructor
  · intro h record hr
    obtain ⟨i, hi, hne, hr⟩ := (hmem record).mp hr
    exact (hslot i hi hne).mp (h.1 i hi hne) record hr
  · intro h
    exact ⟨fun i hi hne => (hslot i hi hne).mpr fun record hr => h record ((hmem record).mpr ⟨i, hi, hne, hr⟩),
      hwf.shownRecords_eq hfit⟩

end Listing

/-- A directory is listed as it is exactly when its slots fit in 16 bits and the
numbers lead to inodes, or when blocks of other numbers hold the same records. -/
theorem listsRecords_iff {fs : Ext2} {root : Nat} {records : Nat → List DirectoryRecord} (hbs : Ext2Sized fs)
    (hwf : WellFormedDirectory fs root records) :
    ListsRecords fs root records ↔
      SlotsFit fs root ∧ NumbersFound fs root records ∨ ¬ SlotsFit fs root ∧ ListingCoincides fs root records := by
  rw [listsRecords_iff_coincides hbs hwf]
  by_cases hfit : SlotsFit fs root
  · rw [listingCoincides_of_fit hwf hfit]
    simp [hfit]
  · simp [hfit]

def dotRecord : DirectoryRecord := ⟨2, 12, [0x2E], by decide⟩

def sampleRecords (_ : Nat) : List DirectoryRecord :=
  [dotRecord, ⟨2, 12, [0x2E, 0x2E], by decide⟩, ⟨12, 1000, [0x66], by decide⟩]

theorem sampleFs_wellFormedDirectory : WellFormedDirectory (sampleFs []) 5248 sampleRecords where
  directory := by decide
  sectors := by decide
  blocks := by decide
  slots := by
    intro i hi _
    obtain rfl : i = 0 := by
      have : listedBlocks (sampleFs []) 5248 = 1 := by decide
      omega
    refine ⟨by decide, ?_, by decide, by simp [sampleRecords, dotRecord]; decide⟩
    exact .cons ⟨by decide, by decide, by decide, by decide⟩
      (.cons ⟨by decide, by decide, by decide, by decide⟩
        (.cons ⟨by decide, by decide, by decide, by decide⟩ (.nil _)))

theorem listsRecords_iff_sample : ListsRecords (sampleFs []) 5248 sampleRecords ↔
    SlotsFit (sampleFs []) 5248 ∧ NumbersFound (sampleFs []) 5248 sampleRecords ∨
      ¬ SlotsFit (sampleFs []) 5248 ∧ ListingCoincides (sampleFs []) 5248 sampleRecords :=
  listsRecords_iff ⟨0, by decide, by decide⟩ sampleFs_wellFormedDirectory

/-- The sample image with 70000 blocks, the root directory in block 65543. -/
def aliasedImage : Memory := sampleImage [(1028, 70000), (1056, 8192), (5288, 65543),
  (67116032, 12), (67116036, 0x1010400), (67116040, 0x66)]

def aliasedFs : Ext2 := mountedHandle aliasedImage 8

def lastRecord : DirectoryRecord := ⟨12, 1024, [0x66], by decide⟩

def aliasedRecords (_ : Nat) : List DirectoryRecord := [lastRecord]

theorem aliasedFs_wellFormedDirectory : WellFormedDirectory aliasedFs 5248 aliasedRecords where
  directory := by decide
  sectors := by decide
  blocks := by decide
  slots := by
    intro i hi _
    obtain rfl : i = 0 := by
      have : listedBlocks aliasedFs 5248 = 1 := by decide
      omega
    refine ⟨by decide, ?_, by decide, by simp [aliasedRecords]; decide⟩
    exact .cons ⟨by decide, by decide, by decide, by decide⟩ (.nil _)

/-- The sample image with 100 blocks and 32 inodes: the last 35 blocks are a group
of their own, and the entry "f" is for inode 17, the first of it. -/
def partialGroupImage : Memory := sampleImage [(1024, 32), (1028, 100), (2080, 66), (2084, 67), (2088, 68), (7192, 17)]

def partialGroupFs : Ext2 := mountedHandle partialGroupImage 1

def partialGroupRecords (_ : Nat) : List DirectoryRecord :=
  [dotRecord, ⟨2, 12, [0x2E, 0x2E], by decide⟩, ⟨17, 1000, [0x66], by decide⟩]

theorem partialGroupFs_wellFormedDirectory : WellFormedDirectory partialGroupFs 5248 partialGroupRecords where
  directory := by decide
  sectors := by decide
  blocks := by decide
  slots := by
    intro i hi _
    obtain rfl : i = 0 := by
      have : listedBlocks partialGroupFs 5248 = 1 := by decide
      omega
    refine ⟨by decide, ?_, by decide, by simp [partialGroupRecords]; decide⟩
    exact .cons ⟨by decide, by decide, by decide, by decide⟩
      (.cons ⟨by decide, by decide, by decide, by decide⟩
        (.cons ⟨by decide, by decide, by decide, by decide⟩ (.nil _)))

/-- The slot 65543 lists block 7, which has three records; and the listing reads
through NULL for the number 17. -/
theorem not_listsRecords :
    (ext2Create aliasedImage = .ok aliasedFs ∧ WellFormedDirectory aliasedFs 5248 aliasedRecords ∧
      ¬ ListsRecords aliasedFs 5248 aliasedRecords) ∧
    ext2Create partialGroupImage = .ok partialGroupFs ∧
    WellFormedDirectory partialGroupFs 5248 partialGroupRecords ∧
    ext2ListInode partialGroupFs 5248 = .error .nullPointer ∧
    ¬ ListsRecords partialGroupFs 5248 partialGroupRecords := by
  have hnull : ext2ListInode partialGroupFs 5248 = .error .nullPointer := rfl
  refine ⟨⟨rfl, aliasedFs_wellFormedDirectory, fun h => ?_⟩, rfl, partialGroupFs_wellFormedDirectory, hnull,
    fun h => ?_⟩
  · obtain ⟨list, hlist, hthree⟩ : ∃ list, ext2ListInode aliasedFs 5248 = .ok (some list) ∧ list.length = 3 :=
      ⟨_, rfl, rfl⟩
    have hone : (slotRecords aliasedFs 5248 aliasedRecords).length = 1 := by decide
    obtain ⟨entries, hentries, hshown⟩ := h
    obtain rfl := Option.some.inj (Except.ok.inj (hlist.symm.trans hentries))
    have hlength := congrArg List.length hshown
    rw [List.length_map, List.length_map] at hlength
    omega
  · obtain ⟨entries, hentries, -⟩ := h
    cases hnull.symm.trans hentries

end FuseExt2
