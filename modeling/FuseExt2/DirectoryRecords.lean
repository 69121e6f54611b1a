import FuseExt2.Namespace

/-! The records of a directory block, the entries that the record loop makes of them
and what it reads of a block with any content. -/

namespace FuseExt2

open ByteStore

/-- A record; what `recLen` has over the header and the name is padding. -/
structure DirectoryRecord where
  inode : Nat
  recLen : Nat
  name : List UInt8
  name_le : 8 + name.length ≤ recLen

structure HoldsRecord (m : Memory) (entry : Nat) (record : DirectoryRecord) : Prop where
  inode : directoryEntryInode m entry = record.inode
  recLen : directoryEntryRecLen m entry = record.recLen
  nameLen : directoryEntryNameLen m entry = record.name.length
  name : directoryEntryName m entry record.name.length = record.name

/-- The records that lie one after the other from an address on. -/
inductive HoldsRecords (m : Memory) : Nat → List DirectoryRecord → Prop
  | nil (entry : Nat) : HoldsRecords m entry []
  | cons {entry : Nat} {record : DirectoryRecord} {records : List DirectoryRecord}
      (hrecord : HoldsRecord m entry record) (hrest : HoldsRecords m (entry + record.recLen) records) :
      HoldsRecords m entry (record :: records)

def recordsLength (records : List DirectoryRecord) : Nat := (records.map DirectoryRecord.recLen).sum

def usedRecords (records : List DirectoryRecord) : List DirectoryRecord :=
  records.filter (fun record => record.inode ≠ 0)

theorem length_le_recordsLength (records : List DirectoryRecord) : records.length ≤ recordsLength records := by
  induction records with
  | nil => exact Nat.zero_le _
  | cons record records ih =>
    have := record.name_le
    simp only [recordsLength, List.map_cons, List.sum_cons, List.length_cons] at ih ⊢
    omega

/-! What an entry shows of its record: the inode number and the name in a C string. -/

def DirectoryRecord.shown (record : DirectoryRecord) : Nat × List UInt8 := (record.inode, record.name ++ [0])

def InodeEntry.shown (entry : InodeEntry) : Nat × List UInt8 := (entry.inodeIndex, entry.name)

def shownAt (m : Memory) (entry : Nat) : Nat × List UInt8 :=
  (directoryEntryInode m entry, directoryEntryName m entry (directoryEntryNameLen m entry) ++ [0])

theorem HoldsRecord.shownAt_eq {m : Memory} {entry : Nat} {record : DirectoryRecord} (h : HoldsRecord m entry record) :
    shownAt m entry = record.shown := by
  rw [shownAt, DirectoryRecord.shown, h.inode, h.nameLen, h.name]

theorem ext2InodeEntryCreate_shown {fs : Ext2} {dirEntry : Nat} {entry : InodeEntry}
    (h : ext2InodeEntryCreate fs dirEntry = .ok entry) : entry.shown = shownAt fs.device dirEntry := by
  rw [ext2InodeEntryCreate] at h
  cases hget : ext2GetInode fs (directoryEntryInode fs.device dirEntry) with
  | error fault =>
    rw [hget] at h
    cases h
  | ok inode =>
    rw [hget] at h
    obtain rfl := Except.ok.inj h
    rfl

/-- The offsets of the records that the record lengths of a block lead to. -/
def recordOffsets (fs : Ext2) (block : Nat) : Nat → Nat → List Nat
  | 0, _ => []
  | fuel + 1, offset =>
    if offset < fs.blockSize then
      offset :: recordOffsets fs block fuel (offset + directoryEntryRecLen fs.device (block + offset))
    else []

def usedOffsets (fs : Ext2) (block fuel offset : Nat) : List Nat :=
  (recordOffsets fs block fuel offset).filter (fun o => directoryEntryInode fs.device (block + o) ≠ 0)

/-- The used records of a block, as they are found along its record lengths. -/
def blockRecords (fs : Ext2) (block : Nat) : List (Nat × List UInt8) :=
  (usedOffsets fs block (fs.blockSize + 1) 0).map (fun offset => shownAt fs.device (block + offset))

section Offsets

variable {fs : Ext2} {block offset : Nat}

theorem recordOffsets_succ (hlt : offset < fs.blockSize) (fuel : Nat) :
    recordOffsets fs block (fuel + 1) offset =
      offset :: recordOffsets fs block fuel (offset + directoryEntryRecLen fs.device (block + offset)) := by
  rw [recordOffsets, if_pos hlt]

theorem usedOffsets_deleted (hlt : offset < fs.blockSize)
    (hd : directoryEntryInode fs.device (block + offset) = 0) (fuel : Nat) :
    usedOffsets fs block (fuel + 1) offset =
      usedOffsets fs block fuel (offset + directoryEntryRecLen fs.device (block + offset)) := by
  rw [usedOffsets, recordOffsets_succ hlt, List.filter_cons, if_neg (by simp [hd])]
  rfl

theorem usedOffsets_used (hlt : offset < fs.blockSize)
    (hu : directoryEntryInode fs.device (block + offset) ≠ 0) (fuel : Nat) :
    usedOffsets fs block (fuel + 1) offset =
      offset :: usedOffsets fs block fuel (offset + directoryEntryRecLen fs.device (block + offset)) := by
  rw [usedOffsets, recordOffsets_succ hlt, List.filter_cons, if_pos (by simp [hu])]
  rfl

theorem usedOffsets_end (hend : fs.blockSize ≤ offset) (fuel : Nat) : usedOffsets fs block fuel offset = [] := by
  cases fuel with
  | zero => rfl
  | succ fuel => rw [usedOffsets, recordOffsets, if_neg (Nat.not_lt.mpr hend), List.filter_nil]

/-- A loop that comes to its end has added an entry for each used record, in order. -/
theorem directoryEntrysLoop_shown {fuel : Nat} {listToFill list : List InodeEntry}
    (h : directoryEntrysLoop fs (some block) fuel offset listToFill = .ok list) :
    list.map InodeEntry.shown = listToFill.map InodeEntry.shown ++
      (usedOffsets fs block fuel offset).map (fun o => shownAt fs.device (block + o)) := by
  induction fuel generalizing offset listToFill with
  | zero => cases h
  | succ fuel ih =>
    by_cases hlt : offset < fs.blockSize
    · obtain ⟨filled, hfilled, hrest⟩ := directoryEntrysLoop_succ_eq_ok hlt h
      rw [ih hrest]
      by_cases hd : directoryEntryInode fs.device (block + offset) = 0
      · rw [if_neg (not_not.mpr hd)] at hfilled
        rw [hfilled, usedOffsets_deleted hlt hd]
      · rw [if_pos hd] at hfilled
        obtain ⟨entry, hcreate, rfl⟩ := hfilled
        rw [usedOffsets_used hlt hd, List.map_append, List.map_cons, List.map_cons, List.map_nil,
          ext2InodeEntryCreate_shown hcreate, List.append_assoc, List.singleton_append]
    · rw [directoryEntrysLoop, if_neg hlt] at h
      obtain rfl := Except.ok.inj h
      rw [usedOffsets_end (Nat.not_lt.mp hlt), List.map_nil, List.append_nil]

theorem ext2GetBlockDirectoryEntrys_shown {listToFill list : List InodeEntry}
    (h : ext2GetBlockDirectoryEntrys fs (some block) listToFill = .ok list) :
    list.map InodeEntry.shown = listToFill.map InodeEntry.shown ++ blockRecords fs block :=
  directoryEntrysLoop_shown h

/-- Records that fill the block are found along their lengths. -/
theorem HoldsRecords.map_usedOffsets {entry : Nat} {records : List DirectoryRecord}
    (hholds : HoldsRecords fs.device entry records) (hentry : entry = block + offset)
    (hfills : offset + recordsLength records = fs.blockSize) {fuel : Nat} (hfuel : records.length < fuel) :
    (usedOffsets fs block fuel offset).map (fun o => shownAt fs.device (block + o)) =
      (usedRecords records).map DirectoryRecord.shown := by
  induction hholds generalizing offset fuel with
  | nil entry =>
    rw [usedOffsets_end (by simpa [recordsLength] using hfills.ge)]
    rfl
  | @cons entry record records hrecord hrest ih =>
    subst hentry
    obtain ⟨fuel, rfl⟩ := Nat.exists_eq_succ_of_ne_zero (Nat.ne_zero_of_lt hfuel)
    have hsum : recordsLength (record :: records) = record.recLen + recordsLength records := by
      simp [recordsLength]
    have hlt : offset < fs.blockSize := by
      have := record.name_le
      omega
    have hnext := ih (Nat.add_assoc block offset record.recLen) (by omega) (Nat.lt_of_succ_lt_succ hfuel)
    by_cases hd : record.inode = 0
    · rw [usedOffsets_deleted hlt (hrecord.inode.trans hd), hrecord.recLen, hnext]
      simp [usedRecords, hd]
    · rw [usedOffsets_used hlt (hrecord.inode.trans_ne hd), List.map_cons, hrecord.recLen, hnext, hrecord.shownAt_eq]
      simp [usedRecords, hd]

theorem HoldsRecords.blockRecords_eq {records : List DirectoryRecord} (hholds : HoldsRecords fs.device block records)
    (hfills : recordsLength records = fs.blockSize) :
    blockRecords fs block = (usedRecords records).map DirectoryRecord.shown := by
  have hlen := length_le_recordsLength records
  exact hholds.map_usedOffsets rfl (by omega) (by omega)

end Offsets

/-! The reads of a block with any content. -/

/-- What the loop reads of the block, as pairs of an offset and a length: the header
of each record and the name of a used one. -/
def directoryEntrysReads (fs : Ext2) (block : Nat) : Nat → Nat → List (Nat × Nat)
  | 0, _ => []
  | fuel + 1, offset =>
    if offset < fs.blockSize then
      let entry := block + offset
      let next := offset + directoryEntryRecLen fs.device entry
      if directoryEntryInode fs.device entry ≠ 0 then
        (offset, 8) :: (offset + 8, directoryEntryNameLen fs.device entry) ::
          match ext2InodeEntryCreate fs entry with
          | .error _ => []
          | .ok _ => directoryEntrysReads fs block fuel next
      else (offset, 8) :: directoryEntrysReads fs block fuel next
    else []

/-- What is read of one record. -/
def recordRead (fs : Ext2) (block offset : Nat) : List (Nat × Nat) :=
  (offset, 8) :: if directoryEntryInode fs.device (block + offset) ≠ 0 then
    [(offset + 8, directoryEntryNameLen fs.device (block + offset))] else []

def WithinBlock (fs : Ext2) (reads : List (Nat × Nat)) : Prop := ∀ read ∈ reads, read.1 + read.2 ≤ fs.blockSize

def ParsedWithin (fs : Ext2) (block : Nat) (listToFill : List InodeEntry) : Prop :=
  (∃ list, ext2GetBlockDirectoryEntrys fs (some block) listToFill = .ok list) ∧
    WithinBlock fs (directoryEntrysReads fs block (fs.blockSize + 1) 0)

structure RecordParses (fs : Ext2) (block offset : Nat) : Prop where
  advances : 0 < directoryEntryRecLen fs.device (block + offset)
  names : directoryEntryInode fs.device (block + offset) ≠ 0 →
    ∃ inode, ext2GetInode fs (directoryEntryInode fs.device (block + offset)) = .ok inode

def Parses (fs : Ext2) (block : Nat) : Prop :=
  ∀ offset, Visits fs block offset → offset < fs.blockSize → RecordParses fs block offset

structure RecordFits (fs : Ext2) (block offset : Nat) : Prop extends RecordParses fs block offset where
  header : offset + 8 ≤ fs.blockSize
  name : directoryEntryInode fs.device (block + offset) ≠ 0 →
    offset + 8 + directoryEntryNameLen fs.device (block + offset) ≤ fs.blockSize

theorem exists_ext2InodeEntryCreate_iff {fs : Ext2} {dirEntry : Nat} :
    (∃ entry, ext2InodeEntryCreate fs dirEntry = .ok entry) ↔
      ∃ inode, ext2GetInode fs (directoryEntryInode fs.device dirEntry) = .ok inode := by
  rw [ext2InodeEntryCreate]
  cases ext2GetInode fs (directoryEntryInode fs.device dirEntry) with
  | error fault => simp
  | ok inode => simp

section Reads

variable {fs : Ext2} {block offset : Nat}

theorem directoryEntrysReads_succ (hlt : offset < fs.blockSize)
    (hcreate : directoryEntryInode fs.device (block + offset) ≠ 0 →
      ∃ entry, ext2InodeEntryCreate fs (block + offset) = .ok entry) (fuel : Nat) :
    directoryEntrysReads fs block (fuel + 1) offset = recordRead fs block offset ++
      directoryEntrysReads fs block fuel (offset + directoryEntryRecLen fs.device (block + offset)) := by
  rw [directoryEntrysReads, if_pos hlt, recordRead]
  by_cases hd : directoryEntryInode fs.device (block + offset) = 0
  · simp [hd]
  · obtain ⟨entry, he⟩ := hcreate hd
    simp [hd, he]

theorem directoryEntrysReads_end (hend : fs.blockSize ≤ offset) (fuel : Nat) :
    directoryEntrysReads fs block fuel offset = [] := by
  cases fuel with
  | zero => rfl
  | succ fuel => rw [directoryEntrysReads, if_neg (Nat.not_lt.mpr hend)]

/-- A loop that comes to its end has read the records it found, one after the other. -/
theorem directoryEntrysReads_eq_flatMap {fuel : Nat} {listToFill list : List InodeEntry}
    (h : directoryEntrysLoop fs (some block) fuel offset listToFill = .ok list) :
    directoryEntrysReads fs block fuel offset =
      (recordOffsets fs block fuel offset).flatMap (recordRead fs block) := by
  induction fuel generalizing offset listToFill with
  | zero => cases h
  | succ fuel ih =>
    by_cases hlt : offset < fs.blockSize
    · obtain ⟨filled, hfilled, hrest⟩ := directoryEntrysLoop_succ_eq_ok hlt h
      have hcreate : directoryEntryInode fs.device (block + offset) ≠ 0 →
          ∃ entry, ext2InodeEntryCreate fs (block + offset) = .ok entry := by
        intro hu
        rw [if_pos hu] at hfilled
        obtain ⟨entry, hentry, -⟩ := hfilled
        exact ⟨entry, hentry⟩
      rw [directoryEntrysReads_succ hlt hcreate, recordOffsets_succ hlt, List.flatMap_cons, ih hrest]
    · rw [directoryEntrysReads_end (Nat.not_lt.mp hlt), recordOffsets, if_neg hlt, List.flatMap_nil]

/-- Whatever the loop comes to, it depends on no other byte of the block. -/
theorem directoryEntrysLoop_congr_reads {m : Memory}
    (hinode : ∀ n, ext2GetInode (fs.withDevice m) n = ext2GetInode fs n) (fuel : Nat) {offset : Nat} (hreads : ∀ read ∈ directoryEntrysReads fs block fuel offset,
      Set.EqOn fs.device m (Set.Ico (block + read.1) (block + read.1 + read.2))) (listToFill : List InodeEntry) :
    directoryEntrysLoop (fs.withDevice m) (some block) fuel offset listToFill =
      directoryEntrysLoop fs (some block) fuel offset listToFill := by
  induction fuel generalizing offset listToFill with
  | zero => rfl
  | succ fuel ih =>
    by_cases hlt : offset < fs.blockSize
    · have hheader : Set.EqOn fs.device m (Set.Ico (block + offset) (block + offset + 8)) := by
        refine hreads (offset, 8) ?_
        rw [directoryEntrysReads, if_pos hlt]
        simp only
        split <;> exact List.mem_cons_self
      have hn : directoryEntryInode m (block + offset) = directoryEntryInode fs.device (block + offset) :=
        (le32_congr (hheader.mono (Set.Ico_subset_Ico (by omega) (by omega)))).symm
      have hrec : directoryEntryRecLen m (block + offset) = directoryEntryRecLen fs.device (block + offset) :=
        (le16_congr (hheader.mono (Set.Ico_subset_Ico (by omega) (by omega)))).symm
      have hlen : directoryEntryNameLen m (block + offset) = directoryEntryNameLen fs.device (block + offset) := by
        have hmem : block + offset + 6 ∈ Set.Ico (block + offset) (block + offset + 8) := ⟨by omega, by omega⟩
        rw [directoryEntryNameLen, directoryEntryNameLen, hheader hmem]
      rw [directoryEntrysLoop, directoryEntrysLoop]
      simp only [Ext2.withDevice_blockSize, Ext2.withDevice_device, if_pos hlt, deref_some, hn, hrec]
      rw [directoryEntrysReads, if_pos hlt] at hreads
      by_cases hu : directoryEntryInode fs.device (block + offset) ≠ 0
      · simp only [if_pos hu] at hreads ⊢
        have hname := hreads _ (List.mem_cons_of_mem _ List.mem_cons_self)
        have hcreate : ext2InodeEntryCreate (fs.withDevice m) (block + offset) =
            ext2InodeEntryCreate fs (block + offset) := by
          rw [← Nat.add_assoc] at hname
          simp only [ext2InodeEntryCreate, Ext2.withDevice_device, hn, hlen, hinode, directoryEntryName,
            readBytes_congr hname]
        rw [hcreate]
        cases hc : ext2InodeEntryCreate fs (block + offset) with
        | error fault => rfl
        | ok entry =>
          rw [hc] at hreads
          exact ih (fun read hr => hreads read (List.mem_cons_of_mem _ (List.mem_cons_of_mem _ hr))) _
      · simp only [if_neg hu] at hreads ⊢
        exact ih (fun read hr => hreads read (List.mem_cons_of_mem _ hr)) _
    · have hlt' : ¬ offset < (fs.withDevice m).blockSize := hlt
      rw [directoryEntrysLoop, directoryEntrysLoop, if_neg hlt, if_neg hlt']

theorem directoryEntrysLoop_stuck (hlt : offset < fs.blockSize)
    (hz : directoryEntryRecLen fs.device (block + offset) = 0) (fuel : Nat) {listToFill list : List InodeEntry} :
    directoryEntrysLoop fs (some block) fuel offset listToFill ≠ .ok list := by
  induction fuel generalizing listToFill with
  | zero =>
    intro h
    cases h
  | succ fuel ih =>
    intro h
    obtain ⟨filled, -, hrest⟩ := directoryEntrysLoop_succ_eq_ok hlt h
    rw [hz, Nat.add_zero] at hrest
    exact ih hrest

theorem recordParses_of_ok (hlt : offset < fs.blockSize) {fuel : Nat} {listToFill list : List InodeEntry}
    (h : directoryEntrysLoop fs (some block) fuel offset listToFill = .ok list) : RecordParses fs block offset where
  advances := Nat.pos_of_ne_zero fun hz => directoryEntrysLoop_stuck hlt hz fuel h
  names hu := by
    obtain ⟨fuel, rfl⟩ := directoryEntrysLoop_fuel h
    obtain ⟨filled, hfilled, -⟩ := directoryEntrysLoop_succ_eq_ok hlt h
    rw [if_pos hu] at hfilled
    obtain ⟨entry, hcreate, -⟩ := hfilled
    exact exists_ext2InodeEntryCreate_iff.mp ⟨entry, hcreate⟩

theorem Parses.loop (hp : Parses fs block) (fuel : Nat) {offset : Nat} (hv : Visits fs block offset)
    (hfuel : fs.blockSize - offset < fuel) (listToFill : List InodeEntry) :
    ∃ list, directoryEntrysLoop fs (some block) fuel offset listToFill = .ok list := by
  induction fuel generalizing offset listToFill with
  | zero => omega
  | succ fuel ih =>
    by_cases hlt : offset < fs.blockSize
    · obtain ⟨hadvances, hnames⟩ := hp offset hv hlt
      have hnext := ih (Visits.next hv hlt) (by omega)
      by_cases hd : directoryEntryInode fs.device (block + offset) = 0
      · rw [directoryEntrysLoop_deleted hlt hd]
        exact hnext listToFill
      · obtain ⟨entry, hentry⟩ := exists_ext2InodeEntryCreate_iff.mpr (hnames hd)
        rw [directoryEntrysLoop_used hlt hd hentry]
        exact hnext (listToFill ++ [entry])
    · exact ⟨listToFill, directoryEntrysLoop_end (Nat.le_of_not_lt hlt) fuel⟩

theorem exists_directoryEntrys_iff (listToFill : List InodeEntry) :
    (∃ list, ext2GetBlockDirectoryEntrys fs (some block) listToFill = .ok list) ↔ Parses fs block := by
  constructor
  · intro h
    obtain ⟨list, hok⟩ := h
    -- from every visited offset the loop still comes to its end
    have hclosed : ∀ offset, Visits fs block offset → ∃ fuel filled,
        directoryEntrysLoop fs (some block) fuel offset filled = .ok list := by
      intro offset hv
      induction hv with
      | start => exact ⟨_, _, hok⟩
      | next _ hlt ih =>
        obtain ⟨fuel, filled, hloop⟩ := ih
        obtain ⟨fuel, rfl⟩ := directoryEntrysLoop_fuel hloop
        obtain ⟨filled, -, hrest⟩ := directoryEntrysLoop_succ_eq_ok hlt hloop
        exact ⟨fuel, filled, hrest⟩
    intro offset hv hlt
    obtain ⟨fuel, filled, hloop⟩ := hclosed offset hv
    exact recordParses_of_ok hlt hloop
  · intro hp
    exact hp.loop _ Visits.start (by omega) listToFill

theorem Parses.reads_succ (hp : Parses fs block) (hv : Visits fs block offset) (hlt : offset < fs.blockSize)
    (fuel : Nat) : WithinBlock fs (directoryEntrysReads fs block (fuel + 1) offset) ↔
      RecordFits fs block offset ∧ WithinBlock fs (directoryEntrysReads fs block fuel
        (offset + directoryEntryRecLen fs.device (block + offset))) := by
  obtain ⟨hadvances, hnames⟩ := hp offset hv hlt
  rw [directoryEntrysReads_succ hlt fun hu => exists_ext2InodeEntryCreate_iff.mpr (hnames hu)]
  simp only [WithinBlock, recordRead, List.cons_append, List.forall_mem_cons, List.forall_mem_append]
  constructor
  · intro h
    obtain ⟨hheader, hname, hrest⟩ := h
    refine ⟨⟨⟨hadvances, hnames⟩, hheader, fun hu => ?_⟩, hrest⟩
    rw [if_pos hu] at hname
    exact hname _ (List.mem_singleton_self _)
  · intro h
    obtain ⟨hfits, hrest⟩ := h
    refine ⟨hfits.header, ?_, hrest⟩
    intro read hr
    split_ifs at hr with hu
    · obtain rfl := List.mem_singleton.mp hr
      exact hfits.name hu
    · cases hr

theorem Parses.reads (hp : Parses fs block)
    (hfits : ∀ offset, Visits fs block offset → offset < fs.blockSize → RecordFits fs block offset) (fuel : Nat)
    {offset : Nat} (hv : Visits fs block offset) : WithinBlock fs (directoryEntrysReads fs block fuel offset) := by
  induction fuel generalizing offset with
  | zero =>
    intro read hr
    cases hr
  | succ fuel ih =>
    by_cases hlt : offset < fs.blockSize
    · rw [hp.reads_succ hv hlt]
      exact ⟨hfits offset hv hlt, ih (Visits.next hv hlt)⟩
    · rw [directoryEntrysReads, if_neg hlt]
      intro read hr
      cases hr

end Reads

/-- A block is parsed, with every read inside it, exactly when each record that the
loop comes to moves it on, lies in the block with its name, and names an inode. -/
theorem parsedWithin_iff (fs : Ext2) (block : Nat) (listToFill : List InodeEntry) :
    ParsedWithin fs block listToFill ↔
      ∀ offset, Visits fs block offset → offset < fs.blockSize → RecordFits fs block offset := by
  rw [ParsedWithin, exists_directoryEntrys_iff]
  constructor
  · intro h
    obtain ⟨hp, hreads⟩ := h
    have hclosed : ∀ offset, Visits fs block offset → ∃ fuel, fs.blockSize - offset < fuel ∧
        WithinBlock fs (directoryEntrysReads fs block fuel offset) := by
      intro offset hv
      induction hv with
      | start => exact ⟨_, by omega, hreads⟩
      | @next offset hv hlt ih =>
        obtain ⟨fuel, hfuel, hwithin⟩ := ih
        obtain ⟨fuel, rfl⟩ := Nat.exists_eq_succ_of_ne_zero (Nat.ne_zero_of_lt hfuel)
        have hadvances := (hp offset hv hlt).advances
        exact ⟨fuel, by omega, ((hp.reads_succ hv hlt fuel).mp hwithin).2⟩
    intro offset hv hlt
    obtain ⟨fuel, hfuel, hwithin⟩ := hclosed offset hv
    obtain ⟨fuel, rfl⟩ := Nat.exists_eq_succ_of_ne_zero (Nat.ne_zero_of_lt hfuel)
    exact ((hp.reads_succ hv hlt fuel).mp hwithin).1
  · intro hfits
    have hp : Parses fs block := fun offset hv hlt => (hfits offset hv hlt).toRecordParses
    exact ⟨hp, hp.reads hfits _ Visits.start⟩

def stuckFs : Ext2 := sampleFs [(7196, 0x1010000)]

/-- The loop stays at the record for ever. -/
theorem not_parsedWithin_stuck :
    ext2Create (sampleImage [(7196, 0x1010000)]) = .ok stuckFs ∧ ext2GetBlock stuckFs 7 = some 7168 ∧
    ¬ ParsedWithin stuckFs 7168 [] := by
  refine ⟨rfl, by decide, fun h => ?_⟩
  have h12 : Visits stuckFs 7168 12 := Visits.next Visits.start (by decide)
  have h24 : Visits stuckFs 7168 24 := Visits.next h12 (by decide)
  exact absurd ((parsedWithin_iff stuckFs 7168 []).mp h 24 h24 (by decide)).advances (by decide)

end FuseExt2
