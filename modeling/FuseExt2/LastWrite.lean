import FuseExt2.WriteHistory
import FuseExt2.FileData

/-! Sequences of writes to files whose data blocks are separate: the last write
to a file position decides its byte, and nothing else on the device changes. -/

namespace FuseExt2

open ByteStore WriteHistory

def dataBlockCount (fs : Ext2) (node : Nat) : Nat := sizeInClusters fs (inodeDataSize fs.device node)

/-- The entry that `ext2_get_inode_block_entry` returns, 0 where it does not return. -/
def blockEntry (fs : Ext2) (node i : Nat) : Nat :=
  match ext2GetInodeBlockEntry fs node i with
  | .ok n => n
  | .error _ => 0

def fileAddress (fs : Ext2) (node pos : Nat) : Nat :=
  byteAddress fs (fun i => blockEntry fs node i * fs.blockSize) pos

/-- Inodes whose data blocks are valid, distinct within and across the inodes, and
apart from the superblock and the inode records. A data block is never block 0,
which holds the only word of the device that an indirect lookup returns. -/
structure SeparateFiles (fs : Ext2) (inodes : Set Nat) : Prop where
  entry : ∀ node ∈ inodes, ∀ i < dataBlockCount fs node, ∃ n,
    ext2GetInodeBlockEntry fs node i = .ok n ∧ n ≠ 0 ∧ n < fs.blockcount ∧ n < 65536
  distinct : ∀ node ∈ inodes, ∀ i < dataBlockCount fs node, ∀ node' ∈ inodes,
    ∀ i' < dataBlockCount fs node', blockEntry fs node i = blockEntry fs node' i' → node = node' ∧ i = i'
  superblock : ∀ node ∈ inodes, ∀ i < dataBlockCount fs node,
    Disjoint (blockBytes fs (blockEntry fs node i)) superblockBytes
  records : ∀ node ∈ inodes, ∀ i < dataBlockCount fs node, ∀ node' ∈ inodes,
    Disjoint (blockBytes fs (blockEntry fs node i)) (inodeRecordBytes node')

/-- The addresses of the data blocks fit in the 32 bits of the code's product. -/
def Addressable (fs : Ext2) (inodes : Set Nat) : Prop :=
  ∀ node ∈ inodes, ∀ i < dataBlockCount fs node, blockEntry fs node i * fs.blockSize < 2 ^ 32

structure WriteCall where
  inode : Nat
  buff : Memory
  offset : Nat
  sizeToCopy : Nat

/-- The byte the call writes to position `p.2` of inode `p.1`, if any. -/
def WriteCall.byteAt (w : WriteCall) (p : Nat × Nat) : Option UInt8 :=
  if w.inode = p.1 ∧ w.offset ≤ p.2 ∧ p.2 < w.offset + w.sizeToCopy then some (w.buff (p.2 - w.offset))
  else none

def WriteCall.InBounds (fs : Ext2) (inodes : Set Nat) (w : WriteCall) : Prop :=
  w.inode ∈ inodes ∧ 0 < w.sizeToCopy ∧ w.offset + w.sizeToCopy ≤ inodeDataSize fs.device w.inode

def writeStep (calls : ClusterCalls) (fs : Ext2) (w : WriteCall) : Except Fault Ext2 :=
  match ext2WriteInodeData calls fs w.inode w.buff w.offset w.sizeToCopy with
  | (.ok (), device) => .ok (fs.withDevice device)
  | (.error fault, _) => .error fault

section SeparateFiles

variable {fs : Ext2} {inodes : Set Nat}

theorem lt_of_lt_dataBlockCount (hbs : 0 < fs.blockSize) {node i : Nat} (hi : i < dataBlockCount fs node) :
    i < 2 ^ 32 := by
  have hle := Nat.le_mul_of_pos_right i hbs
  have hlt := (lt_sizeInClusters_iff hbs).mp hi
  have hsize := le32_lt fs.device (node + 4)
  simp only [inodeDataSize] at hlt
  omega

theorem SeparateFiles.blockEntry_eq (hs : SeparateFiles fs inodes) {node i : Nat} (hn : node ∈ inodes)
    (hi : i < dataBlockCount fs node) :
    ext2GetInodeBlockEntry fs node i = .ok (blockEntry fs node i) ∧ blockEntry fs node i ≠ 0 ∧
      blockEntry fs node i < fs.blockcount ∧ blockEntry fs node i < 65536 := by
  obtain ⟨n, hok, h⟩ := hs.entry node hn i hi
  have he : blockEntry fs node i = n := by rw [blockEntry, hok]
  rw [he]
  exact ⟨hok, h⟩

def dataBytes (fs : Ext2) (inodes : Set Nat) : Set Nat :=
  {a | ∃ node ∈ inodes, ∃ i < dataBlockCount fs node, a ∈ blockBytes fs (blockEntry fs node i)}

theorem fileAddress_mem (hbs : 0 < fs.blockSize) (node pos : Nat) :
    fileAddress fs node pos ∈ blockBytes fs (blockEntry fs node (pos / fs.blockSize)) := by
  have h := Nat.mod_lt pos hbs
  constructor <;> simp only [fileAddress, byteAddress] <;> omega

theorem fileAddress_mem_dataBytes (hbs : 0 < fs.blockSize) {node pos : Nat} (hn : node ∈ inodes)
    (hp : pos < inodeDataSize fs.device node) : fileAddress fs node pos ∈ dataBytes fs inodes :=
  ⟨node, hn, pos / fs.blockSize, div_lt_sizeInClusters hbs hp, fileAddress_mem hbs node pos⟩

theorem SeparateFiles.fileAddress_inj (hs : SeparateFiles fs inodes) (hbs : 0 < fs.blockSize)
    {node pos node' pos' : Nat} (hn : node ∈ inodes) (hp : pos < inodeDataSize fs.device node)
    (hn' : node' ∈ inodes) (hp' : pos' < inodeDataSize fs.device node')
    (he : fileAddress fs node pos = fileAddress fs node' pos') : node = node' ∧ pos = pos' := by
  have hm := fileAddress_mem hbs node pos
  rw [he] at hm
  have hb := eq_of_mem_blockBytes hm (fileAddress_mem hbs node' pos')
  obtain ⟨rfl, hd⟩ := hs.distinct node hn _ (div_lt_sizeInClusters hbs hp) node' hn' _
    (div_lt_sizeInClusters hbs hp') hb
  exact ⟨rfl, eq_of_byteAddress_eq hd he⟩

theorem SeparateFiles.subset_compl (hs : SeparateFiles fs inodes) :
    superblockBytes ⊆ (dataBytes fs inodes)ᶜ := by
  rintro a ha ⟨node, hn, i, hi, hb⟩
  exact Set.disjoint_left.mp (hs.superblock node hn i hi) hb ha

theorem SeparateFiles.record_subset_compl (hs : SeparateFiles fs inodes) {node : Nat}
    (hn : node ∈ inodes) : inodeRecordBytes node ⊆ (dataBytes fs inodes)ᶜ := by
  rintro a ha ⟨node', hn', i, hi, hb⟩
  exact Set.disjoint_left.mp (hs.records node' hn' i hi node hn) hb ha

theorem SeparateFiles.word_subset_compl (hs : SeparateFiles fs inodes) (hbs : 4 ≤ fs.blockSize) :
    Set.Ico 0 4 ⊆ (dataBytes fs inodes)ᶜ := by
  rintro a ha ⟨node, hn, i, hi, hb⟩
  have hne := (hs.blockEntry_eq hn hi).2.1
  have hle := Nat.mul_le_mul_right fs.blockSize (Nat.one_le_iff_ne_zero.mpr hne)
  have h4 : a < 4 := ha.2
  have hl : blockEntry fs node i * fs.blockSize ≤ a := hb.1
  omega

theorem SeparateFiles.dataToCopy_eq (hs : SeparateFiles fs inodes) (hbs : 4 ≤ fs.blockSize)
    (ha : Addressable fs inodes) {m : Memory} (hm : Set.EqOn fs.device m (dataBytes fs inodes)ᶜ)
    {node i : Nat} (hn : node ∈ inodes) (hi : i < dataBlockCount fs node) :
    dataToCopy (fs.withDevice m) node i = .ok (blockEntry fs node i * fs.blockSize) := by
  have hsb := hm.mono hs.subset_compl
  obtain ⟨hok, -, hlt, hbits⟩ := hs.blockEntry_eq hn hi
  have h16 : blockEntry fs node i < 2 ^ 16 := hbits
  have h32 := lt_of_lt_dataBlockCount (by omega) hi
  have hentry : ext2GetInodeBlockEntry (fs.withDevice m) node i = .ok (blockEntry fs node i) :=
    (ext2GetInodeBlockEntry_congr hsb (hm.mono (hs.record_subset_compl hn))
      (fun _ => hm.mono (hs.word_subset_compl hbs))).trans hok
  have hget : ext2GetBlock (fs.withDevice m) (blockEntry fs node i) =
      some (blockEntry fs node i * fs.blockSize) := by
    rw [ext2GetBlock_congr hsb, ext2GetBlock_of_mod_lt (by rwa [Nat.mod_eq_of_lt h16]),
      Nat.mod_eq_of_lt h16, Nat.mod_eq_of_lt (ha node hn i hi)]
  rw [dataToCopy, Nat.mod_eq_of_lt h32, hentry]
  simp only [hget, deref_some]

theorem SeparateFiles.writeStep_eq (calls : ClusterCalls) (hs : SeparateFiles fs inodes)
    (hbs : 4 ≤ fs.blockSize) (ha : Addressable fs inodes) {m : Memory}
    (hm : Set.EqOn fs.device m (dataBytes fs inodes)ᶜ) {w : WriteCall} (hw : w.InBounds fs inodes) :
    writeStep calls (fs.withDevice m) w = .ok (fs.withDevice
        (storeSeq m (fun j => fileAddress fs w.inode (w.offset + j)) w.buff w.sizeToCopy)) ∧
      Set.EqOn fs.device (storeSeq m (fun j => fileAddress fs w.inode (w.offset + j)) w.buff w.sizeToCopy)
        (dataBytes fs inodes)ᶜ := by
  obtain ⟨hn, hpos, hsize⟩ := hw
  have hbs0 : 0 < fs.blockSize := by omega
  have hsame : inodeDataSize m w.inode = inodeDataSize fs.device w.inode :=
    inodeDataSize_congr (hm.mono (hs.record_subset_compl hn))
  have hkeep : KeepsClusters (fs.withDevice m) w.inode (w.offset + w.sizeToCopy) := by
    refine Or.inl ?_
    rw [Ext2.withDevice_device, hsame]
    exact hsize
  have hout : ∀ j < w.sizeToCopy, fileAddress fs w.inode (w.offset + j) ∉ (dataBytes fs inodes)ᶜ := by
    intro j hj hnot
    exact hnot (fileAddress_mem_dataBytes hbs0 hn (by omega))
  obtain ⟨hwrite, heq⟩ := ext2WriteInodeData_of_eqOn calls
    (fun i => blockEntry fs w.inode i * fs.blockSize) hbs0 hpos
    (fun m' hm' i _ hi => hs.dataToCopy_eq hbs ha hm' hn
      ((lt_sizeInClusters_iff hbs0).mpr (lt_of_lt_of_le hi hsize))) hout hm hkeep w.buff
  refine ⟨?_, heq⟩
  rw [writeStep, hwrite]
  rfl

/-- On the positions of the files a write acts as the partial overwrite it describes. -/
theorem SeparateFiles.storeSeq_fileAddress (hs : SeparateFiles fs inodes) (hbs : 0 < fs.blockSize)
    (m : Memory) {w : WriteCall} (hw : w.InBounds fs inodes) {p : Nat × Nat} (hn : p.1 ∈ inodes)
    (hp : p.2 < inodeDataSize fs.device p.1) :
    storeSeq m (fun j => fileAddress fs w.inode (w.offset + j)) w.buff w.sizeToCopy
        (fileAddress fs p.1 p.2) =
      (w.byteAt p).getD (m (fileAddress fs p.1 p.2)) := by
  obtain ⟨node, pos⟩ := p
  obtain ⟨hwn, -, hsize⟩ := hw
  by_cases hc : w.inode = node ∧ w.offset ≤ pos ∧ pos < w.offset + w.sizeToCopy
  · obtain ⟨rfl, hl, hu⟩ := hc
    obtain ⟨j, rfl⟩ := Nat.exists_eq_add_of_le hl
    have hlast : storeSeq m (fun j => fileAddress fs w.inode (w.offset + j)) w.buff w.sizeToCopy
        (fileAddress fs w.inode (w.offset + j)) = w.buff j := by
      apply storeSeq_of_injOn (by omega : j < w.sizeToCopy)
      intro i hi k hk he
      have hi' : i < w.sizeToCopy := hi
      have hk' : k < w.sizeToCopy := hk
      have := (hs.fileAddress_inj hbs hwn (by omega) hwn (by omega) he).2
      omega
    rw [hlast, WriteCall.byteAt, if_pos ⟨rfl, hl, hu⟩, Nat.add_sub_cancel_left, Option.getD_some]
  · rw [WriteCall.byteAt, if_neg hc, Option.getD_none, storeSeq_of_ne]
    intro j hj he
    obtain ⟨rfl, rfl⟩ := hs.fileAddress_inj hbs hwn (by omega) hn hp he
    exact hc ⟨rfl, by omega, by omega⟩

end SeparateFiles

/-- Reading after the writes gives at each position the last byte written there,
and every byte of the device that no write covers is as before. -/
def ReadsLastWrites (calls : ClusterCalls) (fs : Ext2) (inodes : Set Nat) (ws : List WriteCall) : Prop :=
  ∃ fs', run (writeStep calls) fs ws = .ok fs' ∧
    (∀ node ∈ inodes, ∀ offset size buff, 0 < size → offset + size ≤ inodeDataSize fs.device node →
      ∃ out, ext2ReadInodeData fs' node offset size buff = .ok out ∧
        ∀ j < size, out j = (latest WriteCall.byteAt ws (node, offset + j)).getD
          (fs.device (fileAddress fs node (offset + j)))) ∧
    ∀ a, (∀ w ∈ ws, ∀ j < w.sizeToCopy, a ≠ fileAddress fs w.inode (w.offset + j)) →
      fs'.device a = fs.device a

theorem readsLastWrites {calls : ClusterCalls} {fs : Ext2} {inodes : Set Nat}
    (hbs : ∃ k, fs.blockSize = 1024 * 2 ^ k) (hs : SeparateFiles fs inodes)
    (ha : Addressable fs inodes) {ws : List WriteCall} (hws : ∀ w ∈ ws, w.InBounds fs inodes) :
    ReadsLastWrites calls fs inodes ws := by
  have h4 : 4 ≤ fs.blockSize := by
    obtain ⟨k, hk⟩ := hbs
    have := Nat.two_pow_pos k
    omega
  -- the keys: the file positions, and the device bytes that no write of `ws` covers
  let Kept := {a : Nat // ∀ w ∈ ws, ∀ j < w.sizeToCopy, a ≠ fileAddress fs w.inode (w.offset + j)}
  let Position := {p : Nat × Nat // p.1 ∈ inodes ∧ p.2 < inodeDataSize fs.device p.1}
  let covers (w : WriteCall) : Position ⊕ Kept → Option UInt8 := Sum.elim (fun p => w.byteAt p) (fun _ => none)
  let store (s : Ext2) : Position ⊕ Kept → UInt8 :=
    Sum.elim (fun p => s.device (fileAddress fs p.1.1 p.1.2)) (fun a => s.device a.1)
  have hstep : ∀ s w, (∃ m, s = fs.withDevice m ∧ Set.EqOn fs.device m (dataBytes fs inodes)ᶜ) → w ∈ ws →
      ∃ s', writeStep calls s w = .ok s' ∧
        (∃ m, s' = fs.withDevice m ∧ Set.EqOn fs.device m (dataBytes fs inodes)ᶜ) ∧
        store s' = overwrite covers (store s) w := by
    rintro _ w ⟨m, rfl, hm⟩ hw
    have hin := hws w hw
    obtain ⟨hwrite, heq⟩ := hs.writeStep_eq calls h4 ha hm hin
    refine ⟨_, hwrite, ⟨_, rfl, heq⟩, ?_⟩
    funext key
    rcases key with ⟨p, hp⟩ | ⟨a, hka⟩
    · exact hs.storeSeq_fileAddress (by omega) m hin hp.1 hp.2
    · exact storeSeq_of_ne (fun j hj he => hka w hw j hj he.symm)
  obtain ⟨_, hrun, ⟨m, rfl, hm⟩, hlatest⟩ := run_overwrites hstep ⟨fs.device, rfl, fun _ _ => rfl⟩ (fun w hw => hw)
  refine ⟨_, hrun, ?_, ?_⟩
  · intro node hn offset size buff hpos hsize
    have hbs' : 0 < (fs.withDevice m).blockSize := by
      rw [Ext2.withDevice_blockSize]
      omega
    have hread := ext2ReadInodeData_eq_ok buff (fun i => blockEntry fs node i * fs.blockSize) hbs' hpos
      (fun i _ hi => hs.dataToCopy_eq h4 ha hm hn
        ((lt_sizeInClusters_iff (by omega)).mpr (lt_of_lt_of_le hi hsize)))
    refine ⟨_, hread, fun j hj => ?_⟩
    have hp : offset + j < inodeDataSize fs.device node := by omega
    have hkey := hlatest (Sum.inl ⟨(node, offset + j), hn, hp⟩)
    have hsame : latest covers ws (Sum.inl ⟨(node, offset + j), hn, hp⟩) =
        latest WriteCall.byteAt ws (node, offset + j) := latest_congr (fun _ _ => rfl)
    rw [hsame] at hkey
    rw [memcpy_of_lt _ _ _ hj, Nat.zero_add]
    exact hkey
  · intro a hka
    have hkey := hlatest (Sum.inr ⟨a, hka⟩)
    have hnone : latest covers ws (Sum.inr ⟨a, hka⟩) = none := latest_eq_none_iff.mpr (fun w _ => rfl)
    rw [hnone, Option.getD_none] at hkey
    exact hkey

theorem blockEntry_direct (fs : Ext2) (node : Nat) {i : Nat} (hi : i < 12) :
    blockEntry fs node i = inodeBlock fs.device node i := by
  rw [blockEntry, ext2GetInodeBlockEntry_direct fs node hi]

theorem separateFiles_singleton {fs : Ext2} {node : Nat} (hd : dataBlockCount fs node ≤ 12)
    (hv : ∀ i < dataBlockCount fs node, inodeBlock fs.device node i ≠ 0 ∧
      inodeBlock fs.device node i < fs.blockcount ∧ inodeBlock fs.device node i < 65536)
    (hfar : ∀ i < dataBlockCount fs node, superblockAddress + superblockSize ≤
      inodeBlock fs.device node i * fs.blockSize ∧
      node + inodeRecordSize ≤ inodeBlock fs.device node i * fs.blockSize)
    (hinj : ∀ i < dataBlockCount fs node, ∀ i' < dataBlockCount fs node,
      inodeBlock fs.device node i = inodeBlock fs.device node i' → i = i') :
    SeparateFiles fs {node} where
  entry := by
    rintro _ rfl i hi
    exact ⟨_, ext2GetInodeBlockEntry_direct fs _ (by omega), hv i hi⟩
  distinct := by
    rintro _ rfl i hi _ rfl i' hi' he
    rw [blockEntry_direct fs _ (by omega), blockEntry_direct fs _ (by omega)] at he
    exact ⟨rfl, hinj i hi i' hi' he⟩
  superblock := by
    rintro _ rfl i hi
    rw [blockEntry_direct fs _ (by omega), Set.disjoint_left]
    intro a ha ha'
    have h := (hfar i hi).1
    have h1 : inodeBlock fs.device _ i * fs.blockSize ≤ a := ha.1
    have h2 : a < superblockAddress + superblockSize := ha'.2
    omega
  records := by
    rintro _ rfl i hi _ rfl
    rw [blockEntry_direct fs _ (by omega), Set.disjoint_left]
    intro a ha ha'
    have h := (hfar i hi).2
    have h1 : inodeBlock fs.device _ i * fs.blockSize ≤ a := ha.1
    have h2 := ha'.2
    omega

def twoBlockImage (logBlockSize size first second : Nat) : Memory := ofWords
  [(1028, 40000), (1048, logBlockSize), (1056, 40000), (1080, 0xEF53), (2052, size), (2088, first),
    (2092, second)]

def twoBlockFs (logBlockSize size first second : Nat) : Ext2 :=
  mountedHandle (twoBlockImage logBlockSize size first second) 1

theorem readsLastWrites_two : ReadsLastWrites keepClusters (twoBlockFs 0 2048 30 31) {2048}
    [⟨2048, fun j => UInt8.ofNat j, 1000, 100⟩] := by
  apply readsLastWrites ⟨0, by decide⟩
  · exact separateFiles_singleton (by decide) (by decide) (by decide) (by decide)
  · rintro _ rfl i hi
    have hd : dataBlockCount (twoBlockFs 0 2048 30 31) 2048 = 2 := by decide
    rw [blockEntry_direct _ _ (by omega)]
    revert i
    decide
  · intro w hw
    obtain rfl := List.mem_singleton.mp hw
    exact ⟨rfl, by decide, by decide⟩

/-- With blocks of 128 KiB, blocks 1 and 32769 get the same address, so the second
write replaces the byte of the first. -/
theorem readsLastWrites_wraps :
    ext2Create (twoBlockImage 7 131073 1 32769) = .ok (twoBlockFs 7 131073 1 32769) ∧
    SeparateFiles (twoBlockFs 7 131073 1 32769) {2048} ∧
    (∀ w ∈ [⟨2048, fun _ => 7, 0, 1⟩, ⟨2048, fun _ => 9, 131072, 1⟩],
      WriteCall.InBounds (twoBlockFs 7 131073 1 32769) {2048} w) ∧
    ¬ ReadsLastWrites keepClusters (twoBlockFs 7 131073 1 32769) {2048}
      [⟨2048, fun _ => 7, 0, 1⟩, ⟨2048, fun _ => 9, 131072, 1⟩] := by
  refine ⟨rfl, separateFiles_singleton (by decide) (by decide) (by decide) (by decide), ?_, ?_⟩
  · intro w hw
    rcases List.mem_pair.mp hw with rfl | rfl
    · exact ⟨rfl, by decide, by decide⟩
    · exact ⟨rfl, by decide, by decide⟩
  · rintro ⟨fs', hrun, hread, -⟩
    obtain ⟨out, hout, hbyte⟩ := hread 2048 rfl 0 1 0 (by decide) (by decide)
    have hr : run (writeStep keepClusters) (twoBlockFs 7 131073 1 32769)
        [⟨2048, fun _ => 7, 0, 1⟩, ⟨2048, fun _ => 9, 131072, 1⟩] =
      .ok ((twoBlockFs 7 131073 1 32769).withDevice
        (memcpy (memcpy (twoBlockImage 7 131073 1 32769) 131072 (fun _ => 7) 0 1) 131072 (fun _ => 9) 0 1)) := rfl
    obtain rfl := Except.ok.inj (hr.symm.trans hrun)
    have ho : out 0 = 9 := by
      have := Except.ok.inj hout
      rw [← this]
      rfl
    have h := hbyte 0 (by decide)
    rw [ho] at h
    revert h
    decide

end FuseExt2
