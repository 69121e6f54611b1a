import FuseExt2.Namespace

/-! Inode numbers and block groups: whether the groups counted at mount time hold
every block and every inode, and what becomes of a number that no inode has. -/

namespace FuseExt2

open ByteStore

/-! The groups of the data blocks and of the inodes. -/

def groupedBlocks (fs : Ext2) : Nat := fs.blockcount - fs.firstDataBlock

/-- `ext2_get_inode` finds the group of the inode, and what it reads on the way is on the device. -/
def GroupFound (fs : Ext2) (group : Nat) : Prop := ∃ blockGroup, ext2GetBlockGroup fs group = .ok (some blockGroup)

def BlocksCovered (fs : Ext2) : Prop :=
  ∀ b, fs.firstDataBlock ≤ b → b < fs.blockcount →
    (b - fs.firstDataBlock) / fs.blockperGroup < fs.numberOfBlockGroups

def InodesCovered (fs : Ext2) : Prop :=
  fs.inodecount = fs.inodeperGroup * ((groupedBlocks fs + fs.blockperGroup - 1) / fs.blockperGroup) →
    ∀ n, 1 ≤ n → n ≤ fs.inodecount → GroupFound fs (inodeGroup fs n)

theorem groupFound_iff {fs : Ext2} {group : Nat} (hg : group < fs.numberOfBlockGroups) :
    GroupFound fs group ↔
      (ext2HasSuperblock group = true → (groupFirstBlock fs group + 1) % 2 ^ 16 < fs.blockcount) := by
  have hmod : group % 2 ^ 16 = group := Nat.mod_eq_of_lt (hg.trans fs.numberOfBlockGroups_lt)
  by_cases hs : ext2HasSuperblock group = true
  · by_cases hc : (groupFirstBlock fs group + 1) % 2 ^ 16 < fs.blockcount
    · refine iff_of_true ?_ (fun _ => hc)
      simp only [GroupFound, ext2GetBlockGroup, hmod, if_neg (Nat.not_le.mpr hg), hs, if_true,
        ext2GetBlock_of_mod_lt hc, deref_some]
      exact ⟨_, rfl⟩
    · refine iff_of_false (fun h => ?_) (fun h => hc (h hs))
      obtain ⟨blockGroup, hget⟩ := h
      rw [ext2GetBlockGroup_of_copy_off hg hs hc] at hget
      cases hget
  · refine iff_of_true ?_ (fun h => absurd h hs)
    simp only [GroupFound, ext2GetBlockGroup, hmod, if_neg (Nat.not_le.mpr hg), if_neg hs]
    exact ⟨_, rfl⟩

theorem ext2Create_groups {device : Memory} {fs : Ext2} (h : ext2Create device = .ok fs)
    (hle : fs.firstDataBlock ≤ fs.blockcount) : 0 < fs.blockperGroup ∧
      fs.numberOfBlockGroups = groupedBlocks fs / fs.blockperGroup % 2 ^ 16 := by
  obtain ⟨-, hper, rfl⟩ := ext2Create_eq_ok_iff.mp h
  refine ⟨Nat.pos_of_ne_zero hper, ?_⟩
  have hlt := le32_lt device (superblockAddress + 4)
  have hle : le32 device (superblockAddress + 20) ≤ le32 device (superblockAddress + 4) := hle
  have hspan : (le32 device (superblockAddress + 4) + 2 ^ 32 - le32 device (superblockAddress + 20)) % 2 ^ 32 =
      le32 device (superblockAddress + 4) - le32 device (superblockAddress + 20) := by omega
  simp only [mountedHandle, groupedBlocks, Ext2.blockcount, Ext2.firstDataBlock, Ext2.blockperGroup, hspan]

/-- All the quotients of the numbers below `n` are below the quotient of `n`, cut to
16 bits, exactly when nothing is lost in either step. -/
theorem div_lt_truncated_iff {n d : Nat} (hd : 0 < d) (hn : 0 < n) :
    (∀ b < n, b / d < n / d % 2 ^ 16) ↔ d ∣ n ∧ n / d < 2 ^ 16 := by
  have hcut : n / d % 2 ^ 16 ≤ n / d := Nat.mod_le _ _
  constructor
  · intro h
    have hlast := h (n - 1) (by omega)
    have hdvd : d ∣ n := by
      by_contra hnot
      -- the last number has the same quotient as `n`
      have hle : n / d * d ≤ n - 1 := by
        have hmul := Nat.div_mul_le_self n d
        have hne : n / d * d ≠ n := fun he => hnot ⟨n / d, by rw [Nat.mul_comm, he]⟩
        omega
      have hsame := (Nat.le_div_iff_mul_le hd).mpr hle
      omega
    refine ⟨hdvd, ?_⟩
    obtain ⟨q, rfl⟩ := hdvd
    rw [Nat.mul_div_cancel_left q hd] at hlast ⊢
    have hq : 0 < q := Nat.pos_of_mul_pos_left hn
    have hquot : (q - 1) * d ≤ d * q - 1 := by
      rw [Nat.sub_mul, Nat.one_mul, Nat.mul_comm q d]
      omega
    have hle := (Nat.le_div_iff_mul_le hd).mpr hquot
    omega
  · intro h b hb
    obtain ⟨⟨q, rfl⟩, hq⟩ := h
    rw [Nat.mul_div_cancel_left q hd] at hq ⊢
    rw [Nat.mod_eq_of_lt hq, Nat.div_lt_iff_lt_mul hd, Nat.mul_comm]
    exact hb

theorem blocksCovered_iff {device : Memory} {fs : Ext2} (h : ext2Create device = .ok fs)
    (hlt : fs.firstDataBlock < fs.blockcount) :
    BlocksCovered fs ↔ fs.blockperGroup ∣ groupedBlocks fs ∧ groupedBlocks fs / fs.blockperGroup < 2 ^ 16 := by
  obtain ⟨hper, hgroups⟩ := ext2Create_groups h hlt.le
  have hpos : 0 < groupedBlocks fs := Nat.sub_pos_of_lt hlt
  rw [BlocksCovered, hgroups, ← div_lt_truncated_iff hper hpos, groupedBlocks]
  constructor
  · intro hcovered b hb
    have hb' := hcovered (fs.firstDataBlock + b) (Nat.le_add_right _ _) (by omega)
    rwa [Nat.add_sub_cancel_left] at hb'
  · intro hcovered b hl hu
    exact hcovered (b - fs.firstDataBlock) (by omega)

/-- The second block of the last group is on the device, or its number is cut to
one that is, or the code does not look there for a copy of the table. -/
def LastCopyFound (fs : Ext2) : Prop :=
  2 ≤ fs.blockperGroup ∨ 2 ^ 16 ≤ fs.blockcount ∨ ext2HasSuperblock (groupedBlocks fs / fs.blockperGroup - 1) = false

theorem groupFirstBlock_eq {fs : Ext2} {group : Nat} (h : group * fs.blockperGroup < groupedBlocks fs) :
    groupFirstBlock fs group = group * fs.blockperGroup + fs.firstDataBlock := by
  have hlt : fs.blockcount < 2 ^ 32 := le32_lt _ _
  rw [groupFirstBlock, Nat.mod_eq_of_lt]
  rw [groupedBlocks] at h
  omega

theorem groupFound_iff_lastCopyFound {fs : Ext2} (hper : 0 < fs.blockperGroup) {q group : Nat}
    (hq : groupedBlocks fs = fs.blockperGroup * q) (hgroups : fs.numberOfBlockGroups = q) (hg : group < q) :
    GroupFound fs group ↔ group + 1 < q ∨ LastCopyFound fs := by
  have hcount : groupedBlocks fs = fs.blockcount - fs.firstDataBlock := rfl
  have hle := Nat.mul_le_mul_right fs.blockperGroup (Nat.succ_le_of_lt hg)
  rw [Nat.succ_mul, Nat.mul_comm q, ← hq] at hle
  rw [groupFound_iff (hgroups.symm ▸ hg), groupFirstBlock_eq (by omega), LastCopyFound, hq,
    Nat.mul_div_cancel_left q hper]
  have hcut := Nat.mod_le (group * fs.blockperGroup + fs.firstDataBlock + 1) (2 ^ 16)
  by_cases htwo : 2 ≤ fs.blockperGroup
  · refine iff_of_true (fun _ => ?_) (Or.inr (Or.inl htwo))
    omega
  · have hone : fs.blockperGroup = 1 := by omega
    rw [hone, Nat.one_mul] at hq
    rw [hone, Nat.mul_one] at hcut ⊢
    by_cases hlast : group + 1 < q
    · refine iff_of_true (fun _ => ?_) (Or.inl hlast)
      omega
    · -- the block after the last one of the device
      obtain rfl : group = q - 1 := by omega
      have hend : q - 1 + fs.firstDataBlock + 1 = fs.blockcount := by omega
      rw [hend]
      by_cases hwide : 2 ^ 16 ≤ fs.blockcount
      · refine iff_of_true (fun _ => ?_) (Or.inr (Or.inr (Or.inl hwide)))
        exact (Nat.mod_lt _ (by decide)).trans_le hwide
      · rw [Nat.mod_eq_of_lt (Nat.not_le.mp hwide)]
        simp only [hlast, hwide, lt_irrefl, imp_false, Bool.not_eq_true, show ¬ 2 ≤ 1 by decide, false_or]

/-- Every inode has its group where every group has, as far as there is an inode in the last. -/
theorem inodesCovered_iff {fs : Ext2} (hper : 0 < fs.blockperGroup) (hpos : 0 < groupedBlocks fs)
    (hdvd : fs.blockperGroup ∣ groupedBlocks fs)
    (hgroups : fs.numberOfBlockGroups = groupedBlocks fs / fs.blockperGroup) :
    InodesCovered fs ↔ (fs.inodecount = fs.inodeperGroup * (groupedBlocks fs / fs.blockperGroup) →
      0 < fs.inodeperGroup → LastCopyFound fs) := by
  obtain ⟨q, hq⟩ := hdvd
  have hquot : groupedBlocks fs / fs.blockperGroup = q := by rw [hq, Nat.mul_div_cancel_left q hper]
  have hceil : (groupedBlocks fs + fs.blockperGroup - 1) / fs.blockperGroup = q := by
    rw [hq, Nat.add_sub_assoc hper, Nat.mul_add_div hper, Nat.div_eq_of_lt (by omega), Nat.add_zero]
  have hqpos : 0 < q := by
    refine Nat.pos_of_ne_zero fun h => ?_
    rw [hq, h, Nat.mul_zero] at hpos
    exact absurd hpos (Nat.lt_irrefl 0)
  have hinodes : fs.inodecount < 2 ^ 32 := le32_lt _ _
  rw [InodesCovered, hceil, hquot]
  refine imp_congr_right fun hcount => ?_
  have hindex : ∀ n, 1 ≤ n → n ≤ fs.inodecount → inodeGroup fs n = (n - 1) / fs.inodeperGroup := by
    intro n h1 hn
    rw [inodeGroup, show (n + 2 ^ 32 - 1) % 2 ^ 32 = n - 1 by omega]
  constructor
  · intro h hinode
    -- the first inode of the last group
    have hfirst : fs.inodeperGroup * (q - 1) + fs.inodeperGroup = fs.inodecount := by
      rw [hcount, ← Nat.mul_succ, Nat.succ_eq_add_one, Nat.sub_add_cancel hqpos]
    have hfound := h (fs.inodeperGroup * (q - 1) + 1) (by omega) (by omega)
    rw [hindex _ (by omega) (by omega), Nat.add_sub_cancel, Nat.mul_div_cancel_left _ hinode] at hfound
    have hlast := (groupFound_iff_lastCopyFound hper hq (hgroups.trans hquot) (by omega)).mp hfound
    exact hlast.resolve_left (by omega)
  · intro h n h1 hn
    have hinode : 0 < fs.inodeperGroup := by
      refine Nat.pos_of_ne_zero fun hz => ?_
      rw [hz, Nat.zero_mul] at hcount
      omega
    have hg : inodeGroup fs n < q := by
      rw [hindex n h1 hn, Nat.div_lt_iff_lt_mul hinode, Nat.mul_comm, ← hcount]
      omega
    exact (groupFound_iff_lastCopyFound hper hq (hgroups.trans hquot) hg).mpr (Or.inr (h hinode))

/-- The groups cover the device and the inodes exactly where the last group is a
full one, no group number is cut, and the last group is found. -/
theorem groupsCover_iff {device : Memory} {fs : Ext2} (h : ext2Create device = .ok fs)
    (hlt : fs.firstDataBlock < fs.blockcount) :
    BlocksCovered fs ∧ InodesCovered fs ↔
      fs.blockperGroup ∣ groupedBlocks fs ∧ groupedBlocks fs / fs.blockperGroup < 2 ^ 16 ∧
        (fs.inodecount = fs.inodeperGroup * (groupedBlocks fs / fs.blockperGroup) →
          0 < fs.inodeperGroup → LastCopyFound fs) := by
  obtain ⟨hper, hgroups⟩ := ext2Create_groups h hlt.le
  rw [blocksCovered_iff h hlt, and_assoc]
  refine and_congr_right fun hdvd => and_congr_right fun hcut => ?_
  exact inodesCovered_iff hper (Nat.sub_pos_of_lt hlt) hdvd (hgroups.trans (Nat.mod_eq_of_lt hcut))

theorem groupsCover_iff_sample : BlocksCovered (sampleFs []) ∧ InodesCovered (sampleFs []) ↔
    (sampleFs []).blockperGroup ∣ groupedBlocks (sampleFs []) ∧
      groupedBlocks (sampleFs []) / (sampleFs []).blockperGroup < 2 ^ 16 ∧
      ((sampleFs []).inodecount = (sampleFs []).inodeperGroup *
          (groupedBlocks (sampleFs []) / (sampleFs []).blockperGroup) →
        0 < (sampleFs []).inodeperGroup → LastCopyFound (sampleFs [])) := by
  have hmount : ext2Create (sampleImage []) = .ok (sampleFs []) := rfl
  exact groupsCover_iff hmount (by decide)

/-- The sample image with 36 blocks more, which make a second group, and its 16 inodes. -/
theorem not_groupsCover_partial :
    ext2Create (sampleImage [(1028, 100), (1024, 32)]) = .ok (sampleFs [(1028, 100), (1024, 32)]) ∧
    ¬ BlocksCovered (sampleFs [(1028, 100), (1024, 32)]) ∧ ¬ InodesCovered (sampleFs [(1028, 100), (1024, 32)]) ∧
    ext2GetInode (sampleFs [(1028, 100), (1024, 32)]) 17 = .error .nullPointer := by
  have hgroup : ext2GetBlockGroup (sampleFs [(1028, 100), (1024, 32)])
      (inodeGroup (sampleFs [(1028, 100), (1024, 32)]) 17) = .ok none := rfl
  refine ⟨rfl, fun h => ?_, fun h => ?_, rfl⟩
  · have hlast := h 99 (by decide) (by decide)
    revert hlast
    decide
  · obtain ⟨blockGroup, hget⟩ := h (by decide) 17 (by decide) (by decide)
    cases hgroup.symm.trans hget

/-! Numbers that no inode has. -/

/-- `node` is record `n` of the tables that the code finds, counted through all groups. -/
def InodeRecordAt (fs : Ext2) (n node : Nat) : Prop :=
  1 ≤ n ∧ (n - 1) / fs.inodeperGroup < fs.numberOfBlockGroups ∧ ∃ blockGroup table,
    ext2GetBlockGroup fs ((n - 1) / fs.inodeperGroup) = .ok (some blockGroup) ∧
      blockGroup.inodesTable = some table ∧ node = table + inodeRecordSize * ((n - 1) % fs.inodeperGroup)

/-- Nothing is read through NULL, and the result is no record of an inode. -/
def ReportsNoInode (fs : Ext2) (result : Except Fault Nat) : Prop :=
  result ≠ .error .nullPointer ∧ ∀ node, result = .ok node → ∀ n, ¬ InodeRecordAt fs n node

/-- The number whose record the code takes: the group index is cut to 16 bits. -/
def takenInode (fs : Ext2) (n : Nat) : Nat :=
  inodeGroup fs n % 2 ^ 16 * fs.inodeperGroup + (n + 2 ^ 32 - 1) % 2 ^ 32 % fs.inodeperGroup + 1

theorem takenInode_sub_one_div {fs : Ext2} (hper : 0 < fs.inodeperGroup) (n : Nat) :
    (takenInode fs n - 1) / fs.inodeperGroup = inodeGroup fs n % 2 ^ 16 := by
  rw [takenInode, Nat.add_sub_cancel, Nat.mul_comm, Nat.mul_add_div hper, Nat.div_eq_of_lt (Nat.mod_lt _ hper),
    Nat.add_zero]

theorem takenInode_sub_one_mod {fs : Ext2} (hper : 0 < fs.inodeperGroup) (n : Nat) :
    (takenInode fs n - 1) % fs.inodeperGroup = (n + 2 ^ 32 - 1) % 2 ^ 32 % fs.inodeperGroup := by
  rw [takenInode, Nat.add_sub_cancel, Nat.mul_add_mod_of_lt (Nat.mod_lt _ hper)]

theorem ext2GetInode_cases {fs : Ext2} (hper : 0 < fs.inodeperGroup) (n : Nat) :
    ext2GetInode fs n = .error .nullPointer ∨
      ∃ node, ext2GetInode fs n = .ok node ∧ InodeRecordAt fs (takenInode fs n) node := by
  rw [ext2GetInode, if_neg hper.ne']
  rcases inodesTableEntry_cases fs (inodeGroup fs n) ((n + 2 ^ 32 - 1) % 2 ^ 32 % fs.inodeperGroup) with
    hnull | ⟨blockGroup, table, hget, htable, hentry⟩
  · exact Or.inl hnull
  · refine Or.inr ⟨_, hentry, Nat.succ_pos _, ?_, blockGroup, table, ?_, htable, ?_⟩
    · rw [takenInode_sub_one_div hper]
      exact ext2GetBlockGroup_mod_lt hget
    · rw [takenInode_sub_one_div hper, ext2GetBlockGroup_mod, hget]
    · rw [takenInode_sub_one_mod hper]

theorem not_reportsNoInode {fs : Ext2} (hper : 0 < fs.inodeperGroup) (n : Nat) :
    ¬ ReportsNoInode fs (ext2GetInode fs n) := by
  intro h
  rcases ext2GetInode_cases hper n with hnull | ⟨node, hok, hrecord⟩
  · exact h.1 hnull
  · exact h.2 node hok _ hrecord

theorem ext2InodeEntryCreate_inode (fs : Ext2) (dirEntry : Nat) :
    (ext2InodeEntryCreate fs dirEntry).map InodeEntry.inode =
      ext2GetInode fs (directoryEntryInode fs.device dirEntry) := by
  rw [ext2InodeEntryCreate]
  cases ext2GetInode fs (directoryEntryInode fs.device dirEntry) with
  | error fault => rfl
  | ok inode => rfl

/-- What `n` gets in place of no inode: a fault, or a record of another number or of
one that is no inode. -/
def WrongInode (fs : Ext2) (n : Nat) : Prop :=
  ext2GetInode fs n = .error .nullPointer ∨
    ∃ node, ext2GetInode fs n = .ok node ∧ InodeRecordAt fs (takenInode fs n) node ∧
      (takenInode fs n ≠ n ∨ fs.inodecount < takenInode fs n)

/-- No number is rejected: not by the lookup of an inode, not where a directory
record with the number is read, and not where a name leads to it. -/
theorem invalidInode_never_rejected {fs : Ext2} (hper : 0 < fs.inodeperGroup) {n : Nat}
    (hn : n = 0 ∨ fs.inodecount < n) :
    WrongInode fs n ∧ ¬ ReportsNoInode fs (ext2GetInode fs n) ∧
    (∀ dirEntry, directoryEntryInode fs.device dirEntry = n →
      ¬ ReportsNoInode fs ((ext2InodeEntryCreate fs dirEntry).map InodeEntry.inode)) ∧
    ∀ dir name list entry, ext2ListInode fs dir = .ok (some list) →
      list.find? (fun e => strcmpEq name e.name) = some entry → entry.inodeIndex = n →
        ext2FindInode fs dir [name] ≠ .ok none := by
  refine ⟨?_, not_reportsNoInode hper n, fun dirEntry he => ?_, ?_⟩
  · rcases ext2GetInode_cases hper n with hnull | ⟨node, hok, hrecord⟩
    · exact Or.inl hnull
    · refine Or.inr ⟨node, hok, hrecord, ?_⟩
      by_cases hsame : takenInode fs n = n
      · have h1 : 1 ≤ takenInode fs n := hrecord.1
        omega
      · exact Or.inl hsame
  · rw [ext2InodeEntryCreate_inode, he]
    exact not_reportsNoInode hper n
  · intro dir name list entry hlist hfind _ hnone
    have hmade : ext2GetInode fs entry.inodeIndex = .ok entry.inode :=
      ext2ListInode_made hlist entry (List.mem_of_find?_eq_some hfind)
    simp only [ext2FindInode, hlist, deref_some, hfind, hmade] at hnone
    cases hnone

theorem invalidInode_never_rejected_sample :
    WrongInode (sampleFs []) 17 ∧ ¬ ReportsNoInode (sampleFs []) (ext2GetInode (sampleFs []) 17) ∧
    (∀ dirEntry, directoryEntryInode (sampleFs []).device dirEntry = 17 →
      ¬ ReportsNoInode (sampleFs []) ((ext2InodeEntryCreate (sampleFs []) dirEntry).map InodeEntry.inode)) ∧
    ∀ dir name list entry, ext2ListInode (sampleFs []) dir = .ok (some list) →
      list.find? (fun e => strcmpEq name e.name) = some entry → entry.inodeIndex = 17 →
        ext2FindInode (sampleFs []) dir [name] ≠ .ok none :=
  invalidInode_never_rejected (by decide) (Or.inr (by decide))

/-- The file of the sample image with the number 17 or 1048577 in its directory record:
there are 16 inodes, and 1048576 is 16 groups of 2^16. -/
theorem not_rejected_sample :
    ext2Create (sampleImage [(7192, 17)]) = .ok (sampleFs [(7192, 17)]) ∧
    ext2FindInode (sampleFs [(7192, 17)]) 5248 [[0x66]] = .error .nullPointer ∧
    ext2Create (sampleImage [(7192, 1048577)]) = .ok (sampleFs [(7192, 1048577)]) ∧
    ext2FindInode (sampleFs [(7192, 1048577)]) 5248 [[0x66]] = .ok (some 5120) ∧
    ext2GetInode (sampleFs [(7192, 1048577)]) 1 = .ok 5120 ∧
    ¬ ReportsNoInode (sampleFs [(7192, 1048577)]) (ext2GetInode (sampleFs [(7192, 1048577)]) 1048577) :=
  ⟨rfl, rfl, rfl, rfl, rfl, not_reportsNoInode (by decide) 1048577⟩

end FuseExt2
