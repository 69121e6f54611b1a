import FuseExt2.FileData
import FuseExt2.Layout

/-! Which blocks a write inside the inode's size stores to, and when these are
blocks of the inode or free ones: an entry 0 of the map is taken for block 0. -/

namespace FuseExt2

open ByteStore

/-- The block that a store to file block `i` reaches, if its lookup succeeds. -/
def storedBlock (fs : Ext2) (node i : Nat) : Option Nat :=
  if (i < 12 ∨ Walkable fs i) ∧ entryValue fs node i % 2 ^ 16 < fs.blockcount then
    some (entryValue fs node i % 2 ^ 16)
  else none

/-- Every byte the call changes lies in a data block of the inode or in a block
that was free, hence in no metadata and in no block of another inode. -/
def ConfinedWrite (calls : ClusterCalls) (fs : Ext2) (inodes : Set Nat) (node offset len : Nat) : Prop :=
  ∀ buff a, (ext2WriteInodeData calls fs node buff offset len).2 a ≠ fs.device a →
    (∃ b, a ∈ blockBytes fs b ∧ (b ∈ dataBlocks fs node ∨ FreeBlock fs b)) ∧ a ∉ metadataBytes fs ∧
      ∀ node' ∈ inodes, node' ≠ node → ∀ b ∈ fileBlocks fs node', a ∉ blockBytes fs b

/-- Every position of the range is stored in a data block of the inode or in a
free block, as far as the blocks up to it are found. -/
def TargetsOwned (fs : Ext2) (node offset len : Nat) : Prop :=
  ∀ pos, offset ≤ pos → pos < offset + len →
    (∀ i, offset / fs.blockSize ≤ i → i ≤ pos / fs.blockSize → (storedBlock fs node i).isSome) →
    ∀ b ∈ storedBlock fs node (pos / fs.blockSize), b ∈ dataBlocks fs node ∨ FreeBlock fs b

theorem dataToCopy_of_storedBlock {fs : Ext2} (hbs : Ext2Sized fs) {node i b : Nat} (hi : i < 2 ^ 32)
    (h : storedBlock fs node i = some b) : dataToCopy fs node i = .ok (b * fs.blockSize) := by
  by_cases hc : (i < 12 ∨ Walkable fs i) ∧ entryValue fs node i % 2 ^ 16 < fs.blockcount
  · rw [storedBlock, if_pos hc] at h
    obtain rfl := Option.some.inj h
    have hentry : ext2GetInodeBlockEntry fs node i = .ok (entryValue fs node i) :=
      (ext2GetInodeBlockEntry_eq_ok_iff hbs.entriesPerBlock_pos).mpr ⟨hc.1, rfl⟩
    rw [dataToCopy, Nat.mod_eq_of_lt hi, hentry]
    simp only [ext2GetBlock_eq hbs, if_pos hc.2, deref_some]
  · rw [storedBlock, if_neg hc] at h
    exact absurd h (by simp)

theorem dataToCopy_of_storedBlock_none {fs : Ext2} (hbs : Ext2Sized fs) {node i : Nat} (hi : i < 2 ^ 32)
    (h : storedBlock fs node i = none) : ∃ fault, dataToCopy fs node i = .error fault := by
  by_cases hc : (i < 12 ∨ Walkable fs i) ∧ entryValue fs node i % 2 ^ 16 < fs.blockcount
  · rw [storedBlock, if_pos hc] at h
    exact absurd h (by simp)
  · rw [dataToCopy, Nat.mod_eq_of_lt hi]
    cases hentry : ext2GetInodeBlockEntry fs node i with
    | error fault => exact ⟨fault, rfl⟩
    | ok n =>
      obtain ⟨hw, rfl⟩ := (ext2GetInodeBlockEntry_eq_ok_iff hbs.entriesPerBlock_pos).mp hentry
      have hge : ¬ entryValue fs node i % 2 ^ 16 < fs.blockcount := fun hlt => hc ⟨hw, hlt⟩
      exact ⟨.nullPointer, by simp only [ext2GetBlock_of_le hge, deref_none]⟩

theorem dataToCopy_of_isSome {fs : Ext2} (hbs : Ext2Sized fs) {m : Memory} {node i : Nat} (hi : i < 2 ^ 32)
    (hsame : storedBlock (fs.withDevice m) node i = storedBlock fs node i) (hsome : (storedBlock fs node i).isSome) :
    dataToCopy (fs.withDevice m) node i = .ok ((storedBlock fs node i).getD 0 * fs.blockSize) := by
  obtain ⟨b, hb⟩ := Option.isSome_iff_exists.mp hsome
  have hsized : Ext2Sized (fs.withDevice m) := hbs
  rw [dataToCopy_of_storedBlock hsized hi (hsame.trans hb), hb, Option.getD_some, Ext2.withDevice_blockSize]

theorem walkable_congr {fs : Ext2} {m : Memory} (hcount : (fs.withDevice m).blockcount = fs.blockcount) (i : Nat) :
    Walkable (fs.withDevice m) i ↔ Walkable fs i := by
  simp only [Walkable, hcount, Ext2.withDevice_entriesPerBlock]

theorem storedBlock_congr {fs : Ext2} {m : Memory} {node i : Nat}
    (hcount : (fs.withDevice m).blockcount = fs.blockcount)
    (hslot : i < 12 → inodeBlock m node i = inodeBlock fs.device node i)
    (hword : le32 m 0 = le32 fs.device 0) : storedBlock (fs.withDevice m) node i = storedBlock fs node i := by
  have hw := walkable_congr hcount i
  have hv : entryValue (fs.withDevice m) node i = entryValue fs node i := by
    by_cases hi : i < 12
    · rw [entryValue, entryValue, if_pos hi, if_pos hi, Ext2.withDevice_device, hslot hi]
    · rw [entryValue, entryValue, if_neg hi, if_neg hi, Ext2.withDevice_device, hword]
  simp only [storedBlock, hcount, hv, hw]

def storedAddress (fs : Ext2) (node pos : Nat) : Nat :=
  byteAddress fs (fun i => (storedBlock fs node i).getD 0 * fs.blockSize) pos

theorem storedAddress_mem {fs : Ext2} (hbs : 0 < fs.blockSize) {node pos b : Nat}
    (h : storedBlock fs node (pos / fs.blockSize) = some b) :
    storedAddress fs node pos ∈ blockBytes fs b := by
  have hmod := Nat.mod_lt pos hbs
  simp only [storedAddress, byteAddress, h, Option.getD_some]
  exact ⟨by omega, by omega⟩

theorem lookup_index_lt {fs : Ext2} (hbs : 0 < fs.blockSize) {node offset len i : Nat}
    (hsize : offset + len ≤ inodeDataSize fs.device node)
    (hi : i = offset / fs.blockSize ∨ i * fs.blockSize < offset + len) : i < 2 ^ 32 := by
  have hlt := le32_lt fs.device (node + 4)
  have hle := Nat.le_mul_of_pos_right i hbs
  have hd := Nat.div_le_self offset fs.blockSize
  simp only [inodeDataSize] at hsize
  rcases hi with rfl | hi <;> omega

theorem exists_stop (p : Nat → Prop) (first bound : Nat) :
    ∃ stop, first ≤ stop ∧ (∀ i, first ≤ i → i < stop → p i) ∧ (¬ p stop ∨ first < stop ∧ bound ≤ stop) := by
  classical
  by_cases hall : ∀ i, first ≤ i → p i
  · exact ⟨max (first + 1) bound, by omega, fun i h _ => hall i h, Or.inr ⟨by omega, by omega⟩⟩
  · have hex : ∃ i, first ≤ i ∧ ¬ p i := by
      push Not at hall
      exact hall
    obtain ⟨hle, hn⟩ := Nat.find_spec hex
    refine ⟨Nat.find hex, hle, fun i h hlt => ?_, Or.inl hn⟩
    by_contra hp
    exact Nat.find_min hex hlt ⟨h, hp⟩

theorem lt_stop_iff {fs : Ext2} (hbs : 0 < fs.blockSize) {p : Nat → Prop} {offset len stop : Nat}
    (hle : offset / fs.blockSize ≤ stop) (hall : ∀ i, offset / fs.blockSize ≤ i → i < stop → p i)
    (hstop : stop * fs.blockSize < offset + len → ¬ p stop) (j : Nat) :
    j < min len (stop * fs.blockSize - offset) ↔
      j < len ∧ ∀ i, offset / fs.blockSize ≤ i → i ≤ (offset + j) / fs.blockSize → p i := by
  constructor
  · intro hj
    refine ⟨by omega, fun i h1 h2 => hall i h1 (lt_of_le_of_lt h2 ?_)⟩
    rw [Nat.div_lt_iff_lt_mul hbs]
    omega
  · intro h
    obtain ⟨hj, hi⟩ := h
    rw [Nat.lt_min]
    refine ⟨hj, ?_⟩
    by_contra hge
    exact hstop (by omega) (hi stop hle ((Nat.le_div_iff_mul_le hbs).mpr (by omega)))

theorem ext2WriteInodeData_of_none (calls : ClusterCalls) {fs : Ext2} (hbs : Ext2Sized fs) {node offset len : Nat}
    (buff : Memory) (hsize : offset + len ≤ inodeDataSize fs.device node)
    (hfirst : storedBlock fs node (offset / fs.blockSize) = none) :
    (ext2WriteInodeData calls fs node buff offset len).2 = fs.device := by
  have hpos := hbs.pos
  obtain ⟨fault, hf⟩ := dataToCopy_of_storedBlock_none hbs (lookup_index_lt hpos hsize (Or.inl rfl)) hfirst
  rw [ext2WriteInodeData, if_neg (by omega)]
  simp only [if_neg (show ¬ offset + len > inodeDataSize fs.device node by omega), Ext2.withDevice_self, hf]

/-- The stores of a write: those before the first block that is not found. It is
enough that the stores before a lookup leave its result alone. -/
theorem ext2WriteInodeData_stores (calls : ClusterCalls) {fs : Ext2} (hbs : Ext2Sized fs)
    {node offset len : Nat} (buff : Memory) (hsize : offset + len ≤ inodeDataSize fs.device node)
    (hstable : ∀ i, offset / fs.blockSize ≤ i → (i = offset / fs.blockSize ∨ i * fs.blockSize < offset + len) →
      (∀ i', offset / fs.blockSize ≤ i' → i' < i → (storedBlock fs node i').isSome) →
      storedBlock (fs.withDevice (storeSeq fs.device (fun j => storedAddress fs node (offset + j)) buff
        (i * fs.blockSize - offset))) node i = storedBlock fs node i) :
    ∃ n, (ext2WriteInodeData calls fs node buff offset len).2 =
        storeSeq fs.device (fun j => storedAddress fs node (offset + j)) buff n ∧
      ∀ j, j < n ↔ j < len ∧ ∀ i, offset / fs.blockSize ≤ i → i ≤ (offset + j) / fs.blockSize →
        (storedBlock fs node i).isSome := by
  have hpos := hbs.pos
  -- a block found on the device is found by the lookup that the stores so far precede
  have hfound : ∀ i, offset / fs.blockSize ≤ i → (i = offset / fs.blockSize ∨ i * fs.blockSize < offset + len) →
      (∀ i', offset / fs.blockSize ≤ i' → i' < i → (storedBlock fs node i').isSome) →
      (storedBlock fs node i).isSome →
      dataToCopy (fs.withDevice (storeSeq fs.device (fun j => storedAddress fs node (offset + j)) buff
        (i * fs.blockSize - offset))) node i = .ok ((storedBlock fs node i).getD 0 * fs.blockSize) :=
    fun i h1 h2 h3 h4 => dataToCopy_of_isSome hbs (lookup_index_lt hpos hsize h2) (hstable i h1 h2 h3) h4
  obtain ⟨stop, hle, hsome, hstop⟩ := exists_stop (fun i => (storedBlock fs node i).isSome)
    (offset / fs.blockSize) ((offset + len) / fs.blockSize + 1)
  have hend : offset + len < ((offset + len) / fs.blockSize + 1) * fs.blockSize := by
    rw [Nat.succ_mul]
    exact Nat.lt_div_mul_add hpos
  have hnone : stop * fs.blockSize < offset + len → storedBlock fs node stop = none := by
    intro h
    rcases hstop with h' | ⟨-, h'⟩
    · simpa using h'
    · have := Nat.mul_le_mul_right fs.blockSize h'
      omega
  have hnot : stop * fs.blockSize < offset + len → ¬ (storedBlock fs node stop).isSome := by
    intro h
    simp [hnone h]
  refine ⟨min len (stop * fs.blockSize - offset), ?_, lt_stop_iff hpos hle hsome hnot⟩
  rcases Nat.eq_or_lt_of_le hle with heq | hlt
  · -- the very first block is not found, so nothing is stored
    have hfirst : storedBlock fs node (offset / fs.blockSize) = none := by
      rcases hstop with h' | ⟨h', -⟩
      · simpa [heq] using h'
      · omega
    have hz : stop * fs.blockSize - offset = 0 := by
      rw [← heq]
      exact Nat.sub_eq_zero_of_le (Nat.div_mul_le_self _ _)
    rw [hz, Nat.min_zero, storeSeq_zero, ext2WriteInodeData_of_none calls hbs buff hsize hfirst]
  · have hfault : ∃ fault, stop * fs.blockSize < offset + len →
        dataToCopy (fs.withDevice (storeSeq fs.device (fun j => storedAddress fs node (offset + j)) buff
          (stop * fs.blockSize - offset))) node stop = .error fault := by
      by_cases h : stop * fs.blockSize < offset + len
      · have hs := (hstable stop hle (Or.inr h) hsome).trans (hnone h)
        have hsized : Ext2Sized (fs.withDevice (storeSeq fs.device
          (fun j => storedAddress fs node (offset + j)) buff (stop * fs.blockSize - offset))) := hbs
        obtain ⟨fault, hf⟩ := dataToCopy_of_storedBlock_none hsized (lookup_index_lt hpos hsize (Or.inr h)) hs
        exact ⟨fault, fun _ => hf⟩
      · exact ⟨.diverges, fun h' => absurd h' h⟩
    obtain ⟨fault, hf⟩ := hfault
    exact congrArg Prod.snd (ext2WriteInodeData_eq hpos (Or.inl hsize) hlt
      (fun i h1 h2 h3 => hfound i h1 h3 (fun i' h h' => hsome i' h (h'.trans h2)) (hsome i h1 h2)) hf)

theorem ext2WriteInodeData_stores_of_eqOn (calls : ClusterCalls) {fs : Ext2} (hbs : Ext2Sized fs)
    {node offset len : Nat} {kept : Set Nat} (hsize : offset + len ≤ inodeDataSize fs.device node)
    (hlookup : ∀ m, Set.EqOn fs.device m kept → ∀ i, storedBlock (fs.withDevice m) node i = storedBlock fs node i)
    (hout : ∀ j < len, (∀ i, offset / fs.blockSize ≤ i → i ≤ (offset + j) / fs.blockSize →
      (storedBlock fs node i).isSome) → storedAddress fs node (offset + j) ∉ kept) (buff : Memory) :
    ∃ n, (ext2WriteInodeData calls fs node buff offset len).2 =
        storeSeq fs.device (fun j => storedAddress fs node (offset + j)) buff n ∧
      ∀ j, j < n ↔ j < len ∧ ∀ i, offset / fs.blockSize ≤ i → i ≤ (offset + j) / fs.blockSize →
        (storedBlock fs node i).isSome := by
  have hpos := hbs.pos
  refine ext2WriteInodeData_stores calls hbs buff hsize (fun i h1 h2 h3 => hlookup _ (fun a ha => ?_) i)
  rw [storeSeq_of_ne]
  rintro j hj rfl
  have hji : (offset + j) / fs.blockSize < i := by
    rw [Nat.div_lt_iff_lt_mul hpos]
    omega
  have hlen : j < len := by
    rcases h2 with rfl | h2
    · have := Nat.div_mul_le_self offset fs.blockSize
      omega
    · omega
  exact hout j hlen (fun i' h h' => h3 i' h (lt_of_le_of_lt h' hji)) ha

section WellFormed

variable {calls : ClusterCalls} {fs : Ext2} {inodes : Set Nat} {node offset len : Nat}

theorem WellFormedImage.not_metadata (hwf : WellFormedImage fs inodes) (hn : node ∈ inodes) {b : Nat}
    (hb : b ∈ dataBlocks fs node ∨ FreeBlock fs b) : ¬ MetadataBlock fs b := by
  rcases hb with hb | hb
  · exact (hwf.owned node hn b (dataBlocks_subset_fileBlocks fs node hb)).2
  · exact (hwf.free b hb).1

theorem not_mem_metadataBytes {a b : Nat} (ha : a ∈ blockBytes fs b) (hb : ¬ MetadataBlock fs b) :
    a ∉ metadataBytes fs := by
  rintro ⟨b', hb', ha'⟩
  exact hb (eq_of_mem_blockBytes ha ha' ▸ hb')

theorem WellFormedImage.not_mem_other (hwf : WellFormedImage fs inodes) (hn : node ∈ inodes) {a b : Nat}
    (ha : a ∈ blockBytes fs b) (hb : b ∈ dataBlocks fs node ∨ FreeBlock fs b) {node' : Nat}
    (hn' : node' ∈ inodes) (hne : node' ≠ node) {b' : Nat} (hb' : b' ∈ fileBlocks fs node') :
    a ∉ blockBytes fs b' := by
  intro ha'
  obtain rfl := eq_of_mem_blockBytes ha ha'
  rcases hb with hb | hb
  · exact hne (hwf.unique node hn node' hn' b (dataBlocks_subset_fileBlocks fs node hb) hb').symm
  · exact (hwf.free b hb).2 node' hn' hb'

theorem WellFormedImage.storedBlock_eq (hwf : WellFormedImage fs inodes) (hn : node ∈ inodes) {m : Memory}
    (hm : Set.EqOn fs.device m (metadataBytes fs)) (i : Nat) :
    storedBlock (fs.withDevice m) node i = storedBlock fs node i := by
  apply storedBlock_congr
  · exact blockcount_congr (hm.mono (superblockBytes_subset_metadataBytes hwf.sized))
  · intro hi
    exact inodeBlock_congr (hm.mono (hwf.records node hn)) (by omega)
  · exact (le32_congr (hm.mono (word_subset_metadataBytes hwf.sized))).symm

theorem confinedWrite_of_targetsOwned (hwf : WellFormedImage fs inodes) (hn : node ∈ inodes)
    (hsize : offset + len ≤ inodeDataSize fs.device node) (ht : TargetsOwned fs node offset len) :
    ConfinedWrite calls fs inodes node offset len := by
  have hpos := hwf.sized.pos
  have htarget : ∀ j < len, (∀ i, offset / fs.blockSize ≤ i → i ≤ (offset + j) / fs.blockSize →
      (storedBlock fs node i).isSome) → ∃ b, storedAddress fs node (offset + j) ∈ blockBytes fs b ∧
        (b ∈ dataBlocks fs node ∨ FreeBlock fs b) := by
    intro j hj hsome
    obtain ⟨b, hb⟩ := Option.isSome_iff_exists.mp
      (hsome _ (Nat.div_le_div_right (Nat.le_add_right offset j)) le_rfl)
    exact ⟨b, storedAddress_mem hpos hb, ht _ (by omega) (by omega) hsome b hb⟩
  intro buff a hne
  obtain ⟨n, hw, hlt⟩ := ext2WriteInodeData_stores_of_eqOn calls hwf.sized hsize
    (fun m hm i => hwf.storedBlock_eq hn hm i) (fun j hj hsome => by
      obtain ⟨b, hmem, hb⟩ := htarget j hj hsome
      exact not_mem_metadataBytes hmem (hwf.not_metadata hn hb)) buff
  obtain ⟨j, hj, rfl⟩ : ∃ j < n, storedAddress fs node (offset + j) = a := by
    by_contra hno
    push Not at hno
    exact hne (by rw [hw, storeSeq_of_ne hno])
  obtain ⟨hlen, hsome⟩ := (hlt j).mp hj
  obtain ⟨b, hmem, hb⟩ := htarget j hlen hsome
  exact ⟨⟨b, hmem, hb⟩, not_mem_metadataBytes hmem (hwf.not_metadata hn hb),
    fun node' hn' hne' b' hb' => hwf.not_mem_other hn hmem hb hn' hne' hb'⟩

theorem ext2WriteInodeData_update (hbs : Ext2Sized fs) (hsize : offset + len ≤ inodeDataSize fs.device node)
    {a j : Nat} (v : UInt8) (hj : j < len) (ha : storedAddress fs node (offset + j) = a)
    (hsome : ∀ i, offset / fs.blockSize ≤ i → i ≤ (offset + j) / fs.blockSize → (storedBlock fs node i).isSome)
    (hstable : ∀ i, (∃ j, offset + j < i * fs.blockSize ∧ j < len ∧ storedAddress fs node (offset + j) = a ∧
        ∀ i', offset / fs.blockSize ≤ i' → i' ≤ (offset + j) / fs.blockSize → (storedBlock fs node i').isSome) →
      i * fs.blockSize < offset + len →
      storedBlock (fs.withDevice (Function.update fs.device a v)) node i = storedBlock fs node i) :
    (ext2WriteInodeData calls fs node
        (fun j => Function.update fs.device a v (storedAddress fs node (offset + j))) offset len).2 =
      Function.update fs.device a v := by
  have hpos := hbs.pos
  obtain ⟨n, hw, hlt⟩ := ext2WriteInodeData_stores calls hbs
    (fun j => Function.update fs.device a v (storedAddress fs node (offset + j))) hsize (by
      intro i h1 h2 h3
      rcases storeSeq_update fs.device (fun j => storedAddress fs node (offset + j)) a v
        (i * fs.blockSize - offset) with ⟨he, -⟩ | ⟨he, j', hj', ha'⟩
      · rw [he, Ext2.withDevice_self]
      · rw [he]
        have hi : i * fs.blockSize < offset + len := lookup_lt_end (by omega) h2
        refine hstable i ⟨j', by omega, by omega, ha', fun i' h h' => h3 i' h (lt_of_le_of_lt h' ?_)⟩ hi
        rw [Nat.div_lt_iff_lt_mul hpos]
        omega)
  rw [hw]
  rcases storeSeq_update fs.device (fun j => storedAddress fs node (offset + j)) a v n with ⟨-, hne⟩ | ⟨he, -⟩
  · exact absurd ha (hne j ((hlt j).mpr ⟨hj, hsome⟩))
  · exact he

theorem le32_update {m : Memory} {a w : Nat} (v : UInt8) (h : a < w ∨ w + 4 ≤ a) :
    le32 (Function.update m a v) w = le32 m w := by
  apply le32_congr
  intro x hx
  have hl : w ≤ x := hx.1
  have hu : x < w + 4 := hx.2
  rw [Function.update_of_ne (by omega)]

/-- The last byte of a block belongs to no field that the lookups read. -/
theorem storedBlock_update_last (hbs : Ext2Sized fs) (hal : inodeRecordSize ∣ node) (b i : Nat) (v : UInt8) :
    storedBlock (fs.withDevice (Function.update fs.device (b * fs.blockSize + (fs.blockSize - 1)) v)) node i =
      storedBlock fs node i := by
  obtain ⟨k, -, hk⟩ := hbs
  obtain ⟨q, hq⟩ : ∃ q, b * fs.blockSize + (fs.blockSize - 1) = 1024 * q + 1023 := by
    refine ⟨b * 2 ^ k + (2 ^ k - 1), ?_⟩
    have hpos := Nat.two_pow_pos k
    have hb : b * (1024 * 2 ^ k) = 1024 * (b * 2 ^ k) := by rw [Nat.mul_left_comm]
    rw [hk, hb]
    omega
  obtain ⟨r, rfl⟩ := hal
  rw [hq]
  apply storedBlock_congr
  · refine le32_update v ?_
    simp only [superblockAddress]
    omega
  · intro hi
    refine le32_update v ?_
    simp only [inodeRecordSize]
    omega
  · exact le32_update v (by omega)

/-- No byte of a block that is neither owned nor free can be written back changed. -/
theorem ConfinedWrite.ne_update (hc : ConfinedWrite calls fs inodes node offset len) {a b : Nat}
    (hmem : a ∈ blockBytes fs b) (hbad : ¬ (b ∈ dataBlocks fs node ∨ FreeBlock fs b)) :
    (ext2WriteInodeData calls fs node
        (fun i => Function.update fs.device a (fs.device a + 1) (storedAddress fs node (offset + i))) offset len).2 ≠
      Function.update fs.device a (fs.device a + 1) := by
  intro he
  obtain ⟨⟨b', hmem', hb'⟩, -⟩ := hc _ a (by
    rw [he, Function.update_self]
    simp)
  obtain rfl := eq_of_mem_blockBytes hmem hmem'
  exact hbad hb'

theorem ConfinedWrite.full_block (hc : ConfinedWrite calls fs inodes node offset len) (hbs : Ext2Sized fs)
    (hal : inodeRecordSize ∣ node) (hsize : offset + len ≤ inodeDataSize fs.device node) {i b : Nat}
    (hi : offset / fs.blockSize ≤ i) (hend : i * fs.blockSize + fs.blockSize ≤ offset + len)
    (hsome : ∀ i', offset / fs.blockSize ≤ i' → i' ≤ i → (storedBlock fs node i').isSome)
    (hb : storedBlock fs node i = some b) : b ∈ dataBlocks fs node ∨ FreeBlock fs b := by
  have hpos := hbs.pos
  by_contra hbad
  have hstart : offset < i * fs.blockSize + fs.blockSize := by
    have := Nat.mul_le_mul_right fs.blockSize hi
    have := Nat.lt_div_mul_add hpos (a := offset)
    omega
  obtain ⟨j, hj⟩ : ∃ j, offset + j = i * fs.blockSize + (fs.blockSize - 1) :=
    ⟨i * fs.blockSize + (fs.blockSize - 1) - offset, by omega⟩
  have hdiv : (offset + j) / fs.blockSize = i := by
    rw [Nat.div_eq_iff hpos]
    omega
  have haddr : storedAddress fs node (offset + j) = b * fs.blockSize + (fs.blockSize - 1) := by
    rw [storedAddress, byteAddress_eq (b := i) (by omega) (by omega), hb, Option.getD_some]
    omega
  refine hc.ne_update (storedAddress_mem hpos (hdiv ▸ hb)) hbad ?_
  refine ext2WriteInodeData_update hbs hsize _ (by omega) rfl (hdiv ▸ hsome) (fun i' _ _ => ?_)
  rw [haddr]
  exact storedBlock_update_last hbs hal b i' _

theorem targetsOwned_of_confinedWrite (hbs : Ext2Sized fs) (hal : inodeRecordSize ∣ node)
    (hsize : offset + len ≤ inodeDataSize fs.device node)
    (hc : ConfinedWrite calls fs inodes node offset len) : TargetsOwned fs node offset len := by
  have hpos := hbs.pos
  intro pos hl hu hsome b hb
  by_contra hbad
  obtain ⟨j, rfl⟩ := Nat.exists_eq_add_of_le hl
  have hend : offset + len < (offset + j) / fs.blockSize * fs.blockSize + fs.blockSize := by
    by_contra hge
    exact hbad (hc.full_block hbs hal hsize (Nat.div_le_div_right hl) (by omega) hsome hb)
  have hmem := storedAddress_mem hpos hb
  refine hc.ne_update hmem hbad (ext2WriteInodeData_update hbs hsize _ (by omega) rfl hsome ?_)
  -- the range ends in this block, and no block before it has the same target
  rintro i ⟨j', hj', hlen, he, hsome'⟩ hi
  exfalso
  obtain ⟨b', hb'⟩ := Option.isSome_iff_exists.mp
    (hsome' _ (Nat.div_le_div_right (Nat.le_add_right offset j')) le_rfl)
  have hmem' := storedAddress_mem hpos hb'
  rw [he] at hmem'
  obtain rfl := eq_of_mem_blockBytes hmem hmem'
  have hlt : (offset + j') / fs.blockSize < i := by
    rw [Nat.div_lt_iff_lt_mul hpos]
    omega
  have hle := Nat.mul_le_mul_right fs.blockSize hlt
  rw [Nat.succ_mul] at hle
  exact hbad (hc.full_block hbs hal hsize (Nat.div_le_div_right (Nat.le_add_right offset j')) (by omega) hsome' hb')

end WellFormed

/-- A write is confined exactly when the blocks its range is stored in, by the
code's map, are data blocks of the inode or free ones. -/
theorem confinedWrite_iff {calls : ClusterCalls} {fs : Ext2} {inodes : Set Nat} {node offset len : Nat}
    (hwf : WellFormedImage fs inodes) (hn : node ∈ inodes)
    (hsize : offset + len ≤ inodeDataSize fs.device node) :
    ConfinedWrite calls fs inodes node offset len ↔ TargetsOwned fs node offset len :=
  ⟨targetsOwned_of_confinedWrite hwf.sized (hwf.aligned node hn) hsize,
    confinedWrite_of_targetsOwned hwf hn hsize⟩

def sparseFs : Ext2 := fileFs 2048

theorem sparseFs_metadata {b : Nat} (h : MetadataBlock sparseFs b) : b ≤ 6 := by
  have hbs : sparseFs.blockSize = 1024 := rfl
  rcases h with rfl | ⟨hl, -⟩ | ⟨group, hg, h⟩
  · omega
  · have hsb : superblockAddress = 1024 := rfl
    rw [hbs] at hl
    omega
  · have hg' : 1 + group * 64 < 65 := hg
    obtain rfl : group = 0 := by omega
    have hd : primaryDescriptor sparseFs 0 = 2048 := by decide
    have hb : groupBlockBitmap sparseFs 0 = 3 := by decide
    have hi : groupInodeBitmap sparseFs 0 = 4 := by decide
    have ht : groupInodeTable sparseFs 0 = 5 := by decide
    have hn : inodeTableBlocks sparseFs = 2 := by decide
    rw [hd, hb, hi, ht, hn] at h
    rcases h with ⟨hl, -⟩ | rfl | rfl | h
    · rw [hbs] at hl
      omega
    · omega
    · omega
    · omega

theorem sparseFs_fileBlocks {node b : Nat} (hn : node ∈ ({5248, 6528} : Set Nat)) (hb : b ∈ fileBlocks sparseFs node) :
    node = 5248 ∧ b = 7 ∨ node = 6528 ∧ b = 8 := by
  have hzero : ∀ node ∈ [5248, 6528], ∀ i < 15, 12 ≤ i → inodeBlock sparseFs.device node i = 0 := by decide
  have hslots : ∀ node ∈ [5248, 6528], ∀ i < 12, inodeBlock sparseFs.device node i ≠ 0 →
      node = 5248 ∧ inodeBlock sparseFs.device node i = 7 ∨
        node = 6528 ∧ inodeBlock sparseFs.device node i = 8 := by decide
  have hn' : node ∈ [5248, 6528] := by simpa using hn
  obtain ⟨i, hi, rfl⟩ := mem_fileBlocks_of_direct (fun i h h' => hzero node hn' i h' h) hb
  exact hslots node hn' i hi hb.2.1

theorem sparseFs_free {b : Nat} (hb : FreeBlock sparseFs b) : 9 ≤ b := by
  have hfree : ∀ b < 65, FreeBlock sparseFs b → 9 ≤ b := by decide
  exact hfree b hb.2.1 hb

theorem sparseFs_wellFormed : WellFormedImage sparseFs {5248, 6528} where
  sized := ⟨0, by decide, by decide⟩
  aligned := by
    rintro _ (rfl | rfl)
    · exact ⟨41, rfl⟩
    · exact ⟨51, rfl⟩
  records := by
    have htable : ∀ b, 5 ≤ b → b < 7 → MetadataBlock sparseFs b := fun b hl hu =>
      Or.inr (Or.inr ⟨0, by decide, Or.inr (Or.inr (Or.inr ⟨hl, hu⟩))⟩)
    have hbs : sparseFs.blockSize = 1024 := rfl
    rintro _ (rfl | rfl) a ⟨hl, hu⟩
    · refine ⟨5, htable 5 (by omega) (by omega), ?_, ?_⟩ <;> simp only [inodeRecordSize] at hu <;> omega
    · refine ⟨6, htable 6 (by omega) (by omega), ?_, ?_⟩ <;> simp only [inodeRecordSize] at hu <;> omega
  owned := by
    intro node hn b hb
    have hc : sparseFs.blockcount = 65 := by decide
    rcases sparseFs_fileBlocks hn hb with ⟨-, rfl⟩ | ⟨-, rfl⟩
    · exact ⟨by omega, fun h => absurd (sparseFs_metadata h) (by omega)⟩
    · exact ⟨by omega, fun h => absurd (sparseFs_metadata h) (by omega)⟩
  unique := by
    intro node hn node' hn' b hb hb'
    rcases sparseFs_fileBlocks hn hb with ⟨rfl, rfl⟩ | ⟨rfl, rfl⟩ <;>
      rcases sparseFs_fileBlocks hn' hb' with ⟨rfl, h⟩ | ⟨rfl, h⟩ <;> omega
  free := by
    intro b hb
    have h9 := sparseFs_free hb
    refine ⟨fun h => absurd (sparseFs_metadata h) (by omega), fun node hn hb' => ?_⟩
    rcases sparseFs_fileBlocks hn hb' with ⟨-, rfl⟩ | ⟨-, rfl⟩ <;> omega

theorem confinedWrite_iff_sparse : ConfinedWrite keepClusters sparseFs {5248, 6528} 6528 0 10 ↔
    TargetsOwned sparseFs 6528 0 10 :=
  confinedWrite_iff sparseFs_wellFormed (Or.inr rfl) (by decide)

theorem not_confinedWrite_hole :
    WellFormedImage sparseFs {5248, 6528} ∧ referenceBlock sparseFs 6528 1 = 0 ∧
    1024 + 1 ≤ inodeDataSize sparseFs.device 6528 ∧
    ¬ ConfinedWrite keepClusters sparseFs {5248, 6528} 6528 1024 1 := by
  refine ⟨sparseFs_wellFormed, by decide, by decide, fun hc => ?_⟩
  have hw : ext2WriteInodeData keepClusters sparseFs 6528 (fun _ => 1) 1024 1 =
    (.ok (), memcpy sparseFs.device 0 (fun _ => 1) 0 1) := rfl
  obtain ⟨-, hmeta, -⟩ := hc (fun _ => 1) 0 (by
    rw [hw]
    decide)
  exact hmeta ⟨0, Or.inl rfl, by decide, by decide⟩

end FuseExt2
