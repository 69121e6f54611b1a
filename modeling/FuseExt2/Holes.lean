import FuseExt2.Accesses
import FuseExt2.Confinement

/-! What a read of a sparse file returns on every image that has the file's own
blocks and the metadata. -/

namespace FuseExt2

open ByteStore

/-- Of block 0 only the superblock is metadata. -/
def keptBytes (fs : Ext2) (node : Nat) : Set Nat :=
  {a | a ∈ superblockBytes ∨ ∃ b, b ≠ 0 ∧ (MetadataBlock fs b ∨ b ∈ fileBlocks fs node) ∧ a ∈ blockBytes fs b}

structure RegularFile (fs : Ext2) (node : Nat) : Prop where
  sized : Ext2Sized fs
  regular : inodeHasModeFlag fs.device node EXT2_IFREG = true
  record : inodeRecordBytes node ⊆ keptBytes fs node

/-- The images with the same kept bytes all give one data, with zeros in the holes. -/
def HolesReadZero (fs : Ext2) (node offset size : Nat) : Prop :=
  ∃ data : Nat → UInt8, ∀ m, Set.EqOn fs.device m (keptBytes fs node) → ∀ buff, ∃ out,
    ext2ReadInodeData (fs.withDevice m) node offset size buff = .ok out ∧
      ∀ j < size, out j = data j ∧
        (referenceBlock (fs.withDevice m) node ((offset + j) / fs.blockSize) = 0 → out j = 0)

/-- The blocks that the lookup gives on these images: the first word of the device
is in none of the kept bytes. -/
def possibleBlocks (fs : Ext2) (node i : Nat) : Set Nat :=
  if i < 12 then {inodeBlock fs.device node i % 2 ^ 16} else Set.Iio (2 ^ 16)

/-- The byte at `pos` is the same on all these images, and 0 in a hole. -/
def ByteKept (fs : Ext2) (node pos : Nat) : Prop :=
  ∃ v : UInt8, (referenceBlock fs node (pos / fs.blockSize) = 0 → v = 0) ∧
    ∀ b ∈ possibleBlocks fs node (pos / fs.blockSize),
      b * fs.blockSize + pos % fs.blockSize ∈ keptBytes fs node ∧
          fs.device (b * fs.blockSize + pos % fs.blockSize) = v ∨
        -- the word that sends the lookup to block 0 begins with two zero bytes
        12 ≤ pos / fs.blockSize ∧ b * fs.blockSize + pos % fs.blockSize < 2 ∧ v = 0

structure RangeKept (fs : Ext2) (node offset size : Nat) : Prop where
  found : ∀ i, offset / fs.blockSize ≤ i → (i = offset / fs.blockSize ∨ i * fs.blockSize < offset + size) →
    (i < 12 ∨ Walkable fs i) ∧ ∀ b ∈ possibleBlocks fs node i, b < fs.blockcount
  kept : ∀ pos, offset ≤ pos → pos < offset + size → ByteKept fs node pos

theorem le_of_mem_keptBytes {fs : Ext2} (hbs : Ext2Sized fs) {node a : Nat} (ha : a ∈ keptBytes fs node) :
    1024 ≤ a := by
  rcases ha with ha | ⟨b, hb, -, ha⟩
  · exact ha.1
  · have hle := Nat.le_mul_of_pos_left fs.blockSize (Nat.pos_of_ne_zero hb)
    have hl : b * fs.blockSize ≤ a := ha.1
    have hsize := hbs.le.1
    omega

theorem Ext2Sized.eq_zero_of_address_lt {fs : Ext2} (hbs : Ext2Sized fs) {b x : Nat} (h : b * fs.blockSize + x < 2) :
    b = 0 := by
  have hsize := hbs.le.1
  by_contra hb
  have hle := Nat.le_mul_of_pos_left fs.blockSize (Nat.pos_of_ne_zero hb)
  omega

theorem superblockBytes_subset_keptBytes (fs : Ext2) (node : Nat) : superblockBytes ⊆ keptBytes fs node :=
  fun _ ha => Or.inl ha

/-! A read in bounds gives the bytes where a write would store its own. -/

theorem ext2ReadInodeData_eq_ok_iff {fs : Ext2} (hbs : Ext2Sized fs) {node offset size : Nat}
    (hsize : offset + size ≤ inodeDataSize fs.device node) {buff out : Memory} :
    ext2ReadInodeData fs node offset size buff = .ok out ↔
      (∀ i, offset / fs.blockSize ≤ i → (i = offset / fs.blockSize ∨ i * fs.blockSize < offset + size) →
        (storedBlock fs node i).isSome) ∧
      out = memcpy buff 0 (fun j => fs.device (storedAddress fs node (offset + j))) 0 size := by
  have hread : (∀ i, offset / fs.blockSize ≤ i → (i = offset / fs.blockSize ∨ i * fs.blockSize < offset + size) →
      (storedBlock fs node i).isSome) → ext2ReadInodeData fs node offset size buff =
        .ok (memcpy buff 0 (fun j => fs.device (storedAddress fs node (offset + j))) 0 size) := by
    intro hsome
    refine ext2ReadInodeData_eq buff (fun i => (storedBlock fs node i).getD 0 * fs.blockSize) hbs.pos ?_
    exact fun i hl hu => dataToCopy_of_isSome hbs (lookup_index_lt hbs.pos hsize hu) rfl (hsome i hl hu)
  constructor
  · intro h
    have hfound := (exists_ext2ReadInodeData_iff hbs.pos node offset size buff).mp ⟨out, h⟩
    have hsome : ∀ i, offset / fs.blockSize ≤ i → (i = offset / fs.blockSize ∨ i * fs.blockSize < offset + size) →
        (storedBlock fs node i).isSome := by
      intro i hl hu
      rw [Option.isSome_iff_ne_none]
      intro hnone
      obtain ⟨block, hok⟩ := hfound i hl hu
      obtain ⟨fault, herr⟩ := dataToCopy_of_storedBlock_none hbs (lookup_index_lt hbs.pos hsize hu) hnone
      rw [hok] at herr
      cases herr
    rw [hread hsome] at h
    exact ⟨hsome, (Except.ok.inj h).symm⟩
  · intro h
    rw [hread h.1, h.2]

/-! The images with the same kept bytes. -/

section File

variable {fs : Ext2} {node : Nat} {m : Memory}

theorem keptBytes_blockcount (hm : Set.EqOn fs.device m (keptBytes fs node)) :
    (fs.withDevice m).blockcount = fs.blockcount :=
  blockcount_congr (hm.mono (superblockBytes_subset_keptBytes fs node))

theorem RegularFile.dataSize_eq (hf : RegularFile fs node) (hm : Set.EqOn fs.device m (keptBytes fs node)) :
    inodeDataSize m node = inodeDataSize fs.device node :=
  inodeDataSize_congr (hm.mono hf.record)

theorem RegularFile.entryValue_mod (hf : RegularFile fs node) (hm : Set.EqOn fs.device m (keptBytes fs node))
    (i : Nat) : entryValue (fs.withDevice m) node i % 2 ^ 16 =
      if i < 12 then inodeBlock fs.device node i % 2 ^ 16 else le16 m 0 := by
  by_cases hi : i < 12
  · rw [entryValue, if_pos hi, if_pos hi, Ext2.withDevice_device, inodeBlock_congr (hm.mono hf.record) (by omega)]
  · rw [entryValue, if_neg hi, if_neg hi, Ext2.withDevice_device, le32_mod]

theorem RegularFile.mem_possibleBlocks (hf : RegularFile fs node) (hm : Set.EqOn fs.device m (keptBytes fs node))
    (i : Nat) : entryValue (fs.withDevice m) node i % 2 ^ 16 ∈ possibleBlocks fs node i := by
  rw [hf.entryValue_mod hm, possibleBlocks]
  split_ifs
  · exact rfl
  · exact le16_lt m 0

theorem keptBytes_storedBlock (hm : Set.EqOn fs.device m (keptBytes fs node)) {i b : Nat}
    (hb : entryValue (fs.withDevice m) node i % 2 ^ 16 = b) :
    storedBlock (fs.withDevice m) node i =
      if (i < 12 ∨ Walkable fs i) ∧ b < fs.blockcount then some b else none := by
  have hcount := keptBytes_blockcount hm
  simp only [storedBlock, walkable_congr hcount, hcount, hb]

theorem RegularFile.exists_image (hf : RegularFile fs node) {i b : Nat} (hb : b ∈ possibleBlocks fs node i) :
    ∃ m, Set.EqOn fs.device m (keptBytes fs node) ∧ entryValue (fs.withDevice m) node i % 2 ^ 16 = b ∧
      (12 ≤ i → le16 m 0 = b) := by
  by_cases hi : i < 12
  · rw [possibleBlocks, if_pos hi] at hb
    obtain rfl : b = inodeBlock fs.device node i % 2 ^ 16 := hb
    refine ⟨fs.device, fun a _ => rfl, ?_, by omega⟩
    rw [hf.entryValue_mod (fun a _ => rfl), if_pos hi]
  · rw [possibleBlocks, if_neg hi] at hb
    have hlt : b < 2 ^ 16 := hb
    have hm : Set.EqOn fs.device (putLe32 fs.device 0 b) (keptBytes fs node) := by
      intro a ha
      have hle := le_of_mem_keptBytes hf.sized ha
      rw [putLe32, memcpy, if_neg (by omega)]
    have hword : le16 (putLe32 fs.device 0 b) 0 = b := by rw [le16_putLe32, Nat.mod_eq_of_lt hlt]
    exact ⟨putLe32 fs.device 0 b, hm, by rw [hf.entryValue_mod hm, if_neg hi, hword], fun _ => hword⟩

theorem RegularFile.entryValue_update (hf : RegularFile fs node) (hm : Set.EqOn fs.device m (keptBytes fs node))
    {i a : Nat} (v : UInt8) (ha : a ∉ keptBytes fs node) (h2 : 12 ≤ i → 2 ≤ a) :
    Set.EqOn fs.device (Function.update m a v) (keptBytes fs node) ∧
      entryValue (fs.withDevice (Function.update m a v)) node i % 2 ^ 16 =
        entryValue (fs.withDevice m) node i % 2 ^ 16 := by
  have hupd : Set.EqOn fs.device (Function.update m a v) (keptBytes fs node) := by
    intro x hx
    rw [Function.update_of_ne (ne_of_mem_of_not_mem hx ha)]
    exact hm hx
  refine ⟨hupd, ?_⟩
  rw [hf.entryValue_mod hupd, hf.entryValue_mod hm]
  by_cases hi : i < 12
  · rw [if_pos hi, if_pos hi]
  · have hge := h2 (by omega)
    rw [if_neg hi, if_neg hi]
    apply le16_congr
    intro x hx
    have hlt : x < 0 + 2 := hx.2
    rw [Function.update_of_ne (by omega)]

theorem storedAddress_eq {pos b : Nat} (h : storedBlock fs node (pos / fs.blockSize) = some b) :
    storedAddress fs node pos = b * fs.blockSize + pos % fs.blockSize := by
  rw [storedAddress, byteAddress, h, Option.getD_some]

theorem RegularFile.stored_of_possible (hf : RegularFile fs node) (hm : Set.EqOn fs.device m (keptBytes fs node))
    {i : Nat} (h : (i < 12 ∨ Walkable fs i) ∧ ∀ b ∈ possibleBlocks fs node i, b < fs.blockcount) :
    storedBlock (fs.withDevice m) node i = some (entryValue (fs.withDevice m) node i % 2 ^ 16) := by
  rw [keptBytes_storedBlock hm rfl, if_pos ⟨h.1, h.2 _ (hf.mem_possibleBlocks hm i)⟩]

theorem RegularFile.byte_eq (hf : RegularFile fs node) (hm : Set.EqOn fs.device m (keptBytes fs node))
    {pos : Nat} {v : UInt8}
    (hv : ∀ b ∈ possibleBlocks fs node (pos / fs.blockSize),
      b * fs.blockSize + pos % fs.blockSize ∈ keptBytes fs node ∧
          fs.device (b * fs.blockSize + pos % fs.blockSize) = v ∨
        12 ≤ pos / fs.blockSize ∧ b * fs.blockSize + pos % fs.blockSize < 2 ∧ v = 0) :
    m (entryValue (fs.withDevice m) node (pos / fs.blockSize) % 2 ^ 16 * fs.blockSize + pos % fs.blockSize) = v := by
  have hmem := hf.mem_possibleBlocks hm (pos / fs.blockSize)
  have hmod := hf.entryValue_mod hm (pos / fs.blockSize)
  generalize entryValue (fs.withDevice m) node (pos / fs.blockSize) % 2 ^ 16 = b at hmem hmod ⊢
  rcases hv b hmem with ⟨ha, he⟩ | ⟨hge, ha, rfl⟩
  · rw [← hm ha, he]
  · -- block 0: the low half of the first word is 0
    rw [if_neg (by omega), hf.sized.eq_zero_of_address_lt ha] at hmod
    exact eq_zero_of_le16 hmod.symm ha

/-! The same blocks of the file are holes in all these images. -/

theorem RegularFile.referenceBlock_eq (hf : RegularFile fs node) (hm : Set.EqOn fs.device m (keptBytes fs node))
    {i : Nat} (hi : i < blockMapCapacity fs) : referenceBlock (fs.withDevice m) node i = referenceBlock fs node i := by
  have hpath : ∀ b ∈ (referencePath fs node i).dropLast, b ≠ 0 → Set.EqOn fs.device m (blockBytes fs b) :=
    fun b hb hne => hm.mono fun a ha =>
      Or.inr ⟨b, hne, Or.inr ⟨Or.inl hf.regular, hne, i, hi, List.mem_of_mem_dropLast hb⟩, ha⟩
  rw [referenceBlock, referenceBlock, referencePath_congr hf.sized.powerOfTwo hi (hm.mono hf.record) hpath]

end File

section Range

variable {fs : Ext2} {node offset size : Nat}

theorem RegularFile.read_eq_ok_iff (hf : RegularFile fs node) (hsize : offset + size ≤ inodeDataSize fs.device node)
    {m : Memory} (hm : Set.EqOn fs.device m (keptBytes fs node)) {buff out : Memory} :
    ext2ReadInodeData (fs.withDevice m) node offset size buff = .ok out ↔
      (∀ i, offset / fs.blockSize ≤ i → (i = offset / fs.blockSize ∨ i * fs.blockSize < offset + size) →
        (storedBlock (fs.withDevice m) node i).isSome) ∧
      out = memcpy buff 0 (fun j => m (storedAddress (fs.withDevice m) node (offset + j))) 0 size := by
  have hsized : Ext2Sized (fs.withDevice m) := hf.sized
  have hsize' : offset + size ≤ inodeDataSize (fs.withDevice m).device node := by
    rw [Ext2.withDevice_device, hf.dataSize_eq hm]
    exact hsize
  exact ext2ReadInodeData_eq_ok_iff hsized hsize'

theorem holesReadZero_of_rangeKept (hf : RegularFile fs node) (hsize : offset + size ≤ inodeDataSize fs.device node)
    (hr : RangeKept fs node offset size) : HolesReadZero fs node offset size := by
  have hbyte : ∀ j < size, ∃ v : UInt8, (referenceBlock fs node ((offset + j) / fs.blockSize) = 0 → v = 0) ∧
      ∀ m, Set.EqOn fs.device m (keptBytes fs node) →
        m (storedAddress (fs.withDevice m) node (offset + j)) = v := by
    intro j hj
    obtain ⟨v, hz, hv⟩ := hr.kept (offset + j) (by omega) (by omega)
    refine ⟨v, hz, fun m hm => ?_⟩
    have hfound := hr.found ((offset + j) / fs.blockSize) (Nat.div_le_div_right (by omega))
      (Or.inr (lt_of_le_of_lt (Nat.div_mul_le_self _ _) (by omega)))
    rw [storedAddress_eq (hf.stored_of_possible hm hfound)]
    exact hf.byte_eq hm hv
  refine ⟨fun j => fs.device (storedAddress fs node (offset + j)), fun m hm buff => ?_⟩
  have hsome : ∀ i, offset / fs.blockSize ≤ i → (i = offset / fs.blockSize ∨ i * fs.blockSize < offset + size) →
      (storedBlock (fs.withDevice m) node i).isSome := by
    intro i hl hu
    rw [hf.stored_of_possible hm (hr.found i hl hu)]
    rfl
  refine ⟨_, (hf.read_eq_ok_iff hsize hm).mpr ⟨hsome, rfl⟩, fun j hj => ?_⟩
  obtain ⟨v, hz, hv⟩ := hbyte j hj
  have hlt := le32_lt fs.device (node + 4)
  simp only [inodeDataSize] at hsize
  have hown : fs.device (storedAddress fs node (offset + j)) = v := hv fs.device (fun a _ => rfl)
  rw [memcpy_of_lt _ _ _ hj, Nat.zero_add, hv m hm,
    hf.referenceBlock_eq hm (hf.sized.lt_blockMapCapacity (by omega))]
  exact ⟨hown.symm, hz⟩

theorem HolesReadZero.images (hf : RegularFile fs node) (hsize : offset + size ≤ inodeDataSize fs.device node)
    (hz : HolesReadZero fs node offset size) : ∃ data : Nat → UInt8, ∀ m, Set.EqOn fs.device m (keptBytes fs node) →
      (∀ i, offset / fs.blockSize ≤ i → (i = offset / fs.blockSize ∨ i * fs.blockSize < offset + size) →
        (storedBlock (fs.withDevice m) node i).isSome) ∧
      ∀ j < size, m (storedAddress (fs.withDevice m) node (offset + j)) = data j ∧
        (referenceBlock (fs.withDevice m) node ((offset + j) / fs.blockSize) = 0 → data j = 0) := by
  obtain ⟨data, hdata⟩ := hz
  refine ⟨data, fun m hm => ?_⟩
  obtain ⟨out, hok, hout⟩ := hdata m hm (fun _ => 0)
  obtain ⟨hsome, rfl⟩ := (hf.read_eq_ok_iff hsize hm).mp hok
  refine ⟨hsome, fun j hj => ?_⟩
  have h := hout j hj
  rw [memcpy_of_lt _ _ _ hj, Nat.zero_add] at h
  exact ⟨h.1, fun hhole => h.1 ▸ h.2 hhole⟩

theorem RegularFile.possible_of_isSome (hf : RegularFile fs node) {i : Nat}
    (h : ∀ m, Set.EqOn fs.device m (keptBytes fs node) → (storedBlock (fs.withDevice m) node i).isSome) :
    (i < 12 ∨ Walkable fs i) ∧ ∀ b ∈ possibleBlocks fs node i, b < fs.blockcount := by
  have hblock : ∀ b ∈ possibleBlocks fs node i, (i < 12 ∨ Walkable fs i) ∧ b < fs.blockcount := by
    intro b hb
    obtain ⟨m, hm, he, -⟩ := hf.exists_image hb
    have hsome := h m hm
    rw [keptBytes_storedBlock hm he] at hsome
    by_contra hno
    rw [if_neg hno] at hsome
    cases hsome
  have hself := hf.mem_possibleBlocks (fun a _ => rfl : Set.EqOn fs.device fs.device (keptBytes fs node)) i
  exact ⟨(hblock _ hself).1, fun b hb => (hblock b hb).2⟩

theorem RegularFile.byte_kept (hf : RegularFile fs node) {i b x : Nat} {v : UInt8} (hb : b ∈ possibleBlocks fs node i)
    (h : ∀ m, Set.EqOn fs.device m (keptBytes fs node) → entryValue (fs.withDevice m) node i % 2 ^ 16 = b →
      m (b * fs.blockSize + x) = v) :
    b * fs.blockSize + x ∈ keptBytes fs node ∧ fs.device (b * fs.blockSize + x) = v ∨
      12 ≤ i ∧ b * fs.blockSize + x < 2 ∧ v = 0 := by
  obtain ⟨m, hm, he, hword⟩ := hf.exists_image hb
  have hmb := h m hm he
  by_cases ha : b * fs.blockSize + x ∈ keptBytes fs node
  · exact Or.inl ⟨ha, by rw [hm ha, hmb]⟩
  · refine Or.inr ?_
    by_cases hlow : 12 ≤ i ∧ b * fs.blockSize + x < 2
    · rw [hf.sized.eq_zero_of_address_lt hlow.2] at hword
      exact ⟨hlow.1, hlow.2, hmb ▸ eq_zero_of_le16 (hword hlow.1) hlow.2⟩
    · -- the byte may be changed without moving the lookup
      exfalso
      have hupd := hf.entryValue_update hm (i := i) (m (b * fs.blockSize + x) + 1) ha (by omega)
      have hchanged := h _ hupd.1 (hupd.2.trans he)
      rw [Function.update_self, hmb] at hchanged
      simp at hchanged

theorem rangeKept_of_holesReadZero (hf : RegularFile fs node) (hsize : offset + size ≤ inodeDataSize fs.device node)
    (hz : HolesReadZero fs node offset size) : RangeKept fs node offset size := by
  obtain ⟨data, hdata⟩ := hz.images hf hsize
  have hfound : ∀ i, offset / fs.blockSize ≤ i → (i = offset / fs.blockSize ∨ i * fs.blockSize < offset + size) →
      (i < 12 ∨ Walkable fs i) ∧ ∀ b ∈ possibleBlocks fs node i, b < fs.blockcount :=
    fun i hl hu => hf.possible_of_isSome (fun m hm => (hdata m hm).1 i hl hu)
  refine ⟨hfound, fun pos hl hu => ?_⟩
  obtain ⟨j, rfl⟩ := Nat.exists_eq_add_of_le hl
  have hj : j < size := by omega
  have hlookup := hfound ((offset + j) / fs.blockSize) (Nat.div_le_div_right (by omega))
    (Or.inr (lt_of_le_of_lt (Nat.div_mul_le_self _ _) (by omega)))
  refine ⟨data j, ((hdata fs.device (fun a _ => rfl)).2 j hj).2, fun b hb => hf.byte_kept hb fun m hm he => ?_⟩
  have haddr := storedAddress_eq (hf.stored_of_possible hm hlookup)
  rw [Ext2.withDevice_blockSize, he] at haddr
  rw [← haddr]
  exact ((hdata m hm).2 j hj).1

end Range

theorem holesReadZero_iff {fs : Ext2} {node offset size : Nat} (hf : RegularFile fs node)
    (hsize : offset + size ≤ inodeDataSize fs.device node) :
    HolesReadZero fs node offset size ↔ RangeKept fs node offset size :=
  ⟨rangeKept_of_holesReadZero hf hsize, holesReadZero_of_rangeKept hf hsize⟩

/-! In the first 12 blocks: data bytes are kept, and of the bytes of a hole only
zeros of a superblock that lies in block 0. -/

theorem byteKept_direct_iff {fs : Ext2} {node pos : Nat} (hi : pos / fs.blockSize < 12) :
    ByteKept fs node pos ↔
      inodeBlock fs.device node (pos / fs.blockSize) % 2 ^ 16 * fs.blockSize + pos % fs.blockSize ∈ keptBytes fs node ∧
        (inodeBlock fs.device node (pos / fs.blockSize) = 0 → fs.device (pos % fs.blockSize) = 0) := by
  rw [ByteKept, referenceBlock_direct fs node hi, possibleBlocks, if_pos hi]
  constructor
  · intro h
    obtain ⟨v, hz, hv⟩ := h
    rcases hv _ rfl with ⟨ha, he⟩ | ⟨hge, -⟩
    · refine ⟨ha, fun h => ?_⟩
      rw [h, Nat.zero_mod, Nat.zero_mul, Nat.zero_add] at he
      rw [he, hz h]
    · omega
  · intro h
    refine ⟨fs.device (inodeBlock fs.device node (pos / fs.blockSize) % 2 ^ 16 * fs.blockSize + pos % fs.blockSize),
      fun hz => ?_, fun b hb => ?_⟩
    · rw [hz, Nat.zero_mod, Nat.zero_mul, Nat.zero_add]
      exact h.2 hz
    · obtain rfl : b = inodeBlock fs.device node (pos / fs.blockSize) % 2 ^ 16 := hb
      exact Or.inl ⟨h.1, rfl⟩

theorem byteKept_data {fs : Ext2} {node pos : Nat} (hbs : Ext2Sized fs) (hmap : HasBlockMap fs node)
    (hi : pos / fs.blockSize < 12) (hne : inodeBlock fs.device node (pos / fs.blockSize) ≠ 0)
    (h16 : inodeBlock fs.device node (pos / fs.blockSize) < 2 ^ 16) : ByteKept fs node pos := by
  have hcap : pos / fs.blockSize < blockMapCapacity fs := by
    simp only [blockMapCapacity]
    omega
  have hfile := dataBlocks_subset_fileBlocks fs node ⟨hmap, hne, _, hcap, referenceBlock_direct fs node hi⟩
  have hmod := Nat.mod_lt pos hbs.pos
  rw [byteKept_direct_iff hi, Nat.mod_eq_of_lt h16]
  exact ⟨Or.inr ⟨_, hne, Or.inr hfile, by omega, by omega⟩, fun hz => absurd hz hne⟩

theorem byteKept_hole_iff {fs : Ext2} {node pos : Nat} (hbs : Ext2Sized fs) (hi : pos / fs.blockSize < 12)
    (hz : inodeBlock fs.device node (pos / fs.blockSize) = 0) :
    ByteKept fs node pos ↔ pos % fs.blockSize ∈ superblockBytes ∧ fs.device (pos % fs.blockSize) = 0 := by
  have hmod := Nat.mod_lt pos hbs.pos
  rw [byteKept_direct_iff hi, hz, Nat.zero_mod, Nat.zero_mul, Nat.zero_add]
  constructor
  · intro h
    refine ⟨?_, h.2 rfl⟩
    rcases h.1 with hsb | ⟨b, hb, -, hmem⟩
    · exact hsb
    · -- the byte lies in block 0
      have hle := Nat.le_mul_of_pos_left fs.blockSize (Nat.pos_of_ne_zero hb)
      have hl : b * fs.blockSize ≤ pos % fs.blockSize := hmem.1
      omega
  · intro h
    exact ⟨Or.inl h.1, fun _ => h.2⟩

theorem sparseFs_regularFile : RegularFile sparseFs 6528 where
  sized := sparseFs_wellFormed.sized
  regular := by decide
  record := by
    have htable : MetadataBlock sparseFs 6 :=
      Or.inr (Or.inr ⟨0, by decide, Or.inr (Or.inr (Or.inr ⟨by decide, by decide⟩))⟩)
    have hbs : sparseFs.blockSize = 1024 := rfl
    intro a ha
    have hl : 6528 ≤ a := ha.1
    have hu : a < 6528 + 128 := ha.2
    exact Or.inr ⟨6, by decide, Or.inl htable, by omega, by omega⟩

theorem holesReadZero_iff_sparse : HolesReadZero sparseFs 6528 0 10 ↔ RangeKept sparseFs 6528 0 10 :=
  holesReadZero_iff sparseFs_regularFile (by decide)

theorem not_holesReadZero_hole :
    RegularFile sparseFs 6528 ∧ referenceBlock sparseFs 6528 1 = 0 ∧
    1024 + 1 ≤ inodeDataSize sparseFs.device 6528 ∧ ¬ HolesReadZero sparseFs 6528 1024 1 := by
  refine ⟨sparseFs_regularFile, by decide, by decide, fun hz => ?_⟩
  obtain ⟨data, hdata⟩ := hz
  -- the same image with another first byte
  obtain ⟨out, hok, hout⟩ := hdata (Function.update sparseFs.device 0 1) (fun a ha => by
    have hle := le_of_mem_keptBytes sparseFs_regularFile.sized ha
    rw [Function.update_of_ne (by omega)]) (fun _ => 0)
  have hread : ext2ReadInodeData (sparseFs.withDevice (Function.update sparseFs.device 0 1)) 6528 1024 1 (fun _ => 0) =
      .ok (memcpy (fun _ => 0) 0 (Function.update sparseFs.device 0 1) 0 1) := rfl
  rw [hread] at hok
  cases hok
  have h := (hout 0 (by decide)).2 (by decide)
  exact absurd h (by decide)

end FuseExt2
