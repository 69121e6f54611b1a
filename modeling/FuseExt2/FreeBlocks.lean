import FuseExt2.Allocator

/-! The order of the bits in a bitmap, the free blocks of one group, and the
groups that a search asks for, against what the format and the caller expect. -/

namespace FuseExt2

open ByteStore

/-! The order of the bits. -/

/-- The bit of the format that the bit array takes for bit `index`. -/
def mirroredBit (index : Nat) : Nat := index / 8 * 8 + (7 - index % 8)

theorem mirroredBit_div (index : Nat) : mirroredBit index / 8 = index / 8 := by
  rw [mirroredBit]
  omega

theorem mirroredBit_mod (index : Nat) : mirroredBit index % 8 = 7 - index % 8 := by
  rw [mirroredBit]
  omega

theorem mirroredBit_ne (index : Nat) : mirroredBit index ≠ index := by
  rw [mirroredBit]
  omega

def TestsBit (m : Memory) (bitmap : Bitarray) (bytes index : Nat) : Prop :=
  bitarrayTestBit m bitmap index = .ok (bitmapBit m bytes index)

/-- Bit `index` of the bitmap is `value` in `m'`, and nothing else differs from `m`. -/
def OnlyBit (m m' : Memory) (bytes index : Nat) (value : Bool) : Prop :=
  (∀ j, bitmapBit m' bytes j = if j = index then value else bitmapBit m bytes j) ∧ ∀ a < bytes, m' a = m a

def SetsBit (m : Memory) (bitmap : Bitarray) (bytes index : Nat) : Prop :=
  ∃ m', bitarraySetBit m bitmap index = .ok m' ∧ OnlyBit m m' bytes index true

def CleansBit (m : Memory) (bitmap : Bitarray) (bytes index : Nat) : Prop :=
  ∃ m', bitarrayCleanBit m bitmap index = .ok m' ∧ OnlyBit m m' bytes index false

/-- A store to one byte of the bitmap that gives one of its bits a value. -/
theorem onlyBit_update {m : Memory} {bytes index : Nat} {value : Bool} {x : UInt8}
    (hx : ∀ i < 8, x.toNat.testBit i = if i = index % 8 then value else (m (bytes + index / 8)).toNat.testBit i) :
    OnlyBit m (Function.update m (bytes + index / 8) x) bytes index value := by
  constructor
  · intro j
    rw [bitmapBit, bitmapBit]
    by_cases hbyte : j / 8 = index / 8
    · rw [hbyte, Function.update_self, hx _ (Nat.mod_lt j (by decide))]
      have hj : j % 8 = index % 8 ↔ j = index := by omega
      simp only [hj]
    · rw [Function.update_of_ne (by omega), if_neg (by rintro rfl; exact hbyte rfl)]
  · intro a ha
    rw [Function.update_of_ne (by omega)]

theorem onlyBit_iff_of_ne {m m' : Memory} {bytes i j : Nat} {value : Bool} (hne : i ≠ j)
    (h : OnlyBit m m' bytes j value) :
    OnlyBit m m' bytes i value ↔ bitmapBit m bytes i = value ∧ bitmapBit m bytes j = value := by
  have hi : bitmapBit m' bytes i = bitmapBit m bytes i := by rw [h.1 i, if_neg hne]
  have hj : bitmapBit m' bytes j = value := by rw [h.1 j, if_pos rfl]
  constructor
  · intro hi'
    have h1 := hi'.1 i
    have h2 := hi'.1 j
    rw [if_pos rfl, hi] at h1
    rw [if_neg hne.symm, hj] at h2
    exact ⟨h1, h2.symm⟩
  · intro hv
    refine ⟨fun k => ?_, h.2⟩
    rw [h.1 k]
    by_cases hk : k = j
    · rw [if_pos hk, hk, if_neg hne.symm, hv.2]
    · rw [if_neg hk]
      by_cases hki : k = i
      · rw [if_pos hki, hki, hv.1]
      · rw [if_neg hki]

section BitOrder

variable {m : Memory} {bitmap : Bitarray} {bytes index : Nat}

theorem bitarrayTestBit_eq (hb : bitmap.bitarray = some bytes) :
    bitarrayTestBit m bitmap index = .ok (bitmapBit m bytes (mirroredBit index)) := by
  rw [bitarrayTestBit, hb, deref_some]
  simp only [and_bitInChar_ne_zero_iff, bitmapBit, mirroredBit_div, mirroredBit_mod]

theorem bitarraySetBit_onlyBit (hb : bitmap.bitarray = some bytes) (hi : index < bitarrayGetMaxBit bitmap) :
    ∃ m', bitarraySetBit m bitmap index = .ok m' ∧ OnlyBit m m' bytes (mirroredBit index) true := by
  rw [bitarraySetBit, if_neg (Nat.not_le.mpr hi), hb, deref_some]
  refine ⟨_, rfl, ?_⟩
  rw [← mirroredBit_div index]
  refine onlyBit_update fun i hi => ?_
  rw [mirroredBit_mod, UInt8.toNat_or, Nat.testBit_or, bitInChar_toNat, Nat.testBit_two_pow]
  by_cases he : i = 7 - index % 8
  · rw [if_pos he, decide_eq_true he.symm, Bool.or_true]
  · rw [if_neg he, decide_eq_false (Ne.symm he), Bool.or_false]

theorem bitarrayCleanBit_onlyBit (hb : bitmap.bitarray = some bytes) (hi : index < bitarrayGetMaxBit bitmap) :
    ∃ m', bitarrayCleanBit m bitmap index = .ok m' ∧ OnlyBit m m' bytes (mirroredBit index) false := by
  rw [bitarrayCleanBit, if_neg (Nat.not_le.mpr hi), hb, deref_some]
  refine ⟨_, rfl, ?_⟩
  rw [← mirroredBit_div index]
  refine onlyBit_update fun i hi8 => ?_
  have hnot : (~~~ bitInChar index).toNat.testBit i = !decide (7 - index % 8 = i) := by
    have hsub : UInt8.size - 1 - (bitInChar index).toNat = 2 ^ 8 - ((bitInChar index).toNat + 1) := by
      simp only [UInt8.size]
      omega
    rw [UInt8.toNat_not, hsub, Nat.testBit_two_pow_sub_succ (bitInChar index).toNat_lt, bitInChar_toNat,
      Nat.testBit_two_pow, decide_eq_true hi8, Bool.true_and]
  rw [mirroredBit_mod, UInt8.toNat_and, Nat.testBit_and, hnot]
  by_cases he : i = 7 - index % 8
  · rw [if_pos he, decide_eq_true he.symm, Bool.not_true, Bool.and_false]
  · rw [if_neg he, decide_eq_false (Ne.symm he), Bool.not_false, Bool.and_true]

/-- The bit array reads and changes the mirrored bit. A test is right where the two
bits agree, and a change is right only where neither bit needs it. -/
theorem bitarray_format_iff (hb : bitmap.bitarray = some bytes) (hi : index < bitarrayGetMaxBit bitmap) :
    (TestsBit m bitmap bytes index ↔ bitmapBit m bytes index = bitmapBit m bytes (mirroredBit index)) ∧
    (SetsBit m bitmap bytes index ↔
      bitmapBit m bytes index = true ∧ bitmapBit m bytes (mirroredBit index) = true) ∧
    (CleansBit m bitmap bytes index ↔
      bitmapBit m bytes index = false ∧ bitmapBit m bytes (mirroredBit index) = false) := by
  refine ⟨?_, ?_, ?_⟩
  · rw [TestsBit, bitarrayTestBit_eq hb, Except.ok.injEq, eq_comm]
  · obtain ⟨m', hset, honly⟩ := bitarraySetBit_onlyBit (m := m) hb hi
    rw [← onlyBit_iff_of_ne (mirroredBit_ne index).symm honly, SetsBit, hset]
    simp only [Except.ok.injEq, exists_eq_left']
  · obtain ⟨m', hclean, honly⟩ := bitarrayCleanBit_onlyBit (m := m) hb hi
    rw [← onlyBit_iff_of_ne (mirroredBit_ne index).symm honly, CleansBit, hclean]
    simp only [Except.ok.injEq, exists_eq_left']

end BitOrder

/-- Group 0 of the sample image, as the code finds it. -/
def sampleGroup : BlockGroup where
  number := 0
  firstBlock := 3
  hasSuperblock := true
  superblock := some 1024
  blockGroupDescriptor := some 2048
  blockBitmap := ⟨some 3072, 1024⟩
  inodeBitmap := ⟨some 4096, 1024⟩
  inodesTable := some 5120

theorem ext2GetBlockGroup_sample : ext2GetBlockGroup (sampleFs []) 0 = .ok (some sampleGroup) := rfl

theorem bitarray_format_iff_sample :
    (TestsBit (sampleImage []) sampleGroup.blockBitmap 3072 3 ↔
      bitmapBit (sampleImage []) 3072 3 = bitmapBit (sampleImage []) 3072 (mirroredBit 3)) ∧
    (SetsBit (sampleImage []) sampleGroup.blockBitmap 3072 3 ↔
      bitmapBit (sampleImage []) 3072 3 = true ∧ bitmapBit (sampleImage []) 3072 (mirroredBit 3) = true) ∧
    (CleansBit (sampleImage []) sampleGroup.blockBitmap 3072 3 ↔
      bitmapBit (sampleImage []) 3072 3 = false ∧ bitmapBit (sampleImage []) 3072 (mirroredBit 3) = false) :=
  bitarray_format_iff rfl (by decide)

/-- Byte 0 of the bitmap is 0x7F: of the first eight blocks only block 8, bit 7, is free. -/
theorem not_bitarray_format_sample :
    ext2GetBlockGroup (sampleFs []) 0 = .ok (some sampleGroup) ∧
    ¬ TestsBit (sampleImage []) sampleGroup.blockBitmap 3072 7 ∧
    ¬ SetsBit (sampleImage []) sampleGroup.blockBitmap 3072 7 ∧
    ¬ CleansBit (sampleImage []) sampleGroup.blockBitmap 3072 7 := by
  have hb : sampleGroup.blockBitmap.bitarray = some 3072 := rfl
  have hi : 7 < bitarrayGetMaxBit sampleGroup.blockBitmap := by decide
  have hfree : bitmapBit (sampleImage []) 3072 7 = false := by decide
  have hmirror : bitmapBit (sampleImage []) 3072 (mirroredBit 7) = true := by decide
  have htest : bitarrayTestBit (sampleImage []) sampleGroup.blockBitmap 7 = .ok true := by
    rw [bitarrayTestBit_eq hb, hmirror]
  obtain ⟨mset, hset, hsets⟩ := bitarraySetBit_onlyBit (m := sampleImage []) hb hi
  obtain ⟨mclean, hclean, hcleans⟩ := bitarrayCleanBit_onlyBit (m := sampleImage []) hb hi
  refine ⟨rfl, fun h => ?_, fun h => ?_, fun h => ?_⟩
  · rw [TestsBit, htest, hfree] at h
    cases h
  · obtain ⟨m, hm, honly⟩ := h
    obtain rfl := Except.ok.inj (hset.symm.trans hm)
    have hwas := ((onlyBit_iff_of_ne (mirroredBit_ne 7).symm hsets).mp honly).1
    cases hfree.symm.trans hwas
  · obtain ⟨m, hm, honly⟩ := h
    obtain rfl := Except.ok.inj (hclean.symm.trans hm)
    have hwas := ((onlyBit_iff_of_ne (mirroredBit_ne 7).symm hcleans).mp honly).2
    cases hmirror.symm.trans hwas

/-! The free blocks of one group. -/

/-- Bit `index` as the bit array reads it. -/
def arrayBit (m : Memory) (bytes index : Nat) : Bool := m (bytes + index / 8) &&& bitInChar index != 0

/-- The call returns, its array gets the blocks of the first free bits it takes, no
more than `amount`, and exactly these bits are set. -/
def TakesFreeBlocks (fs : Ext2) (blockGroup : BlockGroup) (bytes amount : Nat) (array : BlockArray) : Prop :=
  ∃ (m : Memory) (filled : BlockArray) (taken : List Nat),
    ext2GetFreeBlocksInGroup fs (some blockGroup) amount array = .ok (m, filled) ∧
    taken.length = min amount ((List.range (fs.blockSize * 8)).countP (fun i => !arrayBit fs.device bytes i)) ∧
    taken.Nodup ∧ (∀ i ∈ taken, i < fs.blockSize * 8 ∧ arrayBit fs.device bytes i = false) ∧
    filled.blocks =
      array.blocks ++ taken.map (fun i => fs.firstDataBlock + blockGroup.number * fs.blockperGroup + i) ∧
    (∀ i, arrayBit m bytes i = (arrayBit fs.device bytes i || decide (i ∈ taken))) ∧
    ∀ a < bytes, m a = fs.device a

/-- The bits that the loop takes for free blocks. -/
def searchedBits (fs : Ext2) (bitmap : Bitarray) (bytes : Nat) : List Nat :=
  (List.range (bitarrayGetMaxBit bitmap)).filter (arrayBit fs.device bytes)

/-- A call that comes back has left the device as it was, and its array has the
blocks of the set bits. -/
theorem ext2GetFreeBlocksInGroup_eq_ok_iff {fs : Ext2} {blockGroup : BlockGroup} {bytes : Nat} (amount : Nat)
    {array filled : BlockArray} {m : Memory} (hb : blockGroup.blockBitmap.bitarray = some bytes)
    (hlen : array.blocks.length ≤ array.slots) :
    ext2GetFreeBlocksInGroup fs (some blockGroup) amount array = .ok (m, filled) ↔
      OffsetReturns fs (blockGroup.number + 1) ∧
        array.blocks.length + (searchedBits fs blockGroup.blockBitmap bytes).length ≤ array.slots ∧
        m = fs.device ∧ filled = ⟨array.blocks ++ (searchedBits fs blockGroup.blockBitmap bytes).map
          (fun i => (fs.firstDataBlock + i) % 2 ^ 32), array.slots⟩ := by
  have hloop := freeBlocksLoop_eq hb fs.firstDataBlock fs.device (bitarrayGetMaxBit blockGroup.blockBitmap) 0
    array hlen
  have hbits : (List.range (bitarrayGetMaxBit blockGroup.blockBitmap)).filter
      (fun i => fs.device (bytes + i / 8) &&& bitInChar i != 0) = searchedBits fs blockGroup.blockBitmap bytes := rfl
  rw [← List.range_eq_range', hbits] at hloop
  rw [ext2GetFreeBlocksInGroup_eq_loop, hloop]
  by_cases hfit : array.blocks.length + (searchedBits fs blockGroup.blockBitmap bytes).length ≤ array.slots
  · simp [hfit, eq_comm]
  · simp [hfit]

theorem TakesFreeBlocks.nothing {fs : Ext2} {bytes amount : Nat} {blockGroup : BlockGroup} {array : BlockArray}
    (h : TakesFreeBlocks fs blockGroup bytes amount array) (hb : blockGroup.blockBitmap.bitarray = some bytes)
    (hlen : array.blocks.length ≤ array.slots) :
    OffsetReturns fs (blockGroup.number + 1) ∧ searchedBits fs blockGroup.blockBitmap bytes = [] ∧
      (amount = 0 ∨ ∀ i < fs.blockSize * 8, arrayBit fs.device bytes i = true) := by
  obtain ⟨m, filled, taken, hcall, hcount, -, htaken, hblocks, hbits, -⟩ := h
  obtain ⟨hreturns, -, rfl, rfl⟩ := (ext2GetFreeBlocksInGroup_eq_ok_iff amount hb hlen).mp hcall
  -- the device has not changed, so no clear bit was set and none was taken
  have hempty : taken = [] := by
    refine List.eq_nil_iff_forall_not_mem.mpr fun i hi => ?_
    have hset := hbits i
    rw [(htaken i hi).2, decide_eq_true hi] at hset
    cases hset
  rw [hempty, List.map_nil, List.append_cancel_left_eq] at hblocks
  rw [hempty, List.length_nil] at hcount
  refine ⟨hreturns, List.map_eq_nil_iff.mp hblocks, ?_⟩
  rcases Nat.eq_zero_or_pos amount with hzero | hpos
  · exact Or.inl hzero
  · have hcount : (List.range (fs.blockSize * 8)).countP (fun i => !arrayBit fs.device bytes i) = 0 := by omega
    have hclear := List.countP_eq_zero.mp hcount
    simp only [List.mem_range, Bool.not_eq_true', Bool.not_eq_false] at hclear
    exact Or.inr hclear

/-- A search takes set bits for free blocks, all of them, and sets none, so it is
right only where it has nothing to take. -/
theorem takesFreeBlocks_iff {fs : Ext2} {group bytes amount : Nat} {blockGroup : BlockGroup} {array : BlockArray}
    (hget : ext2GetBlockGroup fs group = .ok (some blockGroup))
    (hb : blockGroup.blockBitmap.bitarray = some bytes) (hslots : array.blocks.length + amount ≤ array.slots) :
    TakesFreeBlocks fs blockGroup bytes amount array ↔
      OffsetReturns fs (blockGroup.number + 1) ∧
        (∀ i < fs.blockSize * 8 % 2 ^ 32, arrayBit fs.device bytes i = false) ∧
        (amount = 0 ∨ ∀ i < fs.blockSize * 8, arrayBit fs.device bytes i = true) := by
  have hlen : array.blocks.length ≤ array.slots := by omega
  have hnone : searchedBits fs blockGroup.blockBitmap bytes = [] ↔
      ∀ i < fs.blockSize * 8 % 2 ^ 32, arrayBit fs.device bytes i = false := by
    rw [searchedBits, bitarrayGetMaxBit, (ext2GetBlockGroup_some hget).2, List.filter_eq_nil_iff]
    simp only [List.mem_range, Bool.not_eq_true]
  rw [← hnone]
  constructor
  · intro h
    exact h.nothing hb hlen
  · intro h
    obtain ⟨hreturns, hsearched, hzero⟩ := h
    have hcall := (ext2GetFreeBlocksInGroup_eq_ok_iff amount hb hlen).mpr
      ⟨hreturns, by rw [hsearched, List.length_nil]; exact hlen, rfl, rfl⟩
    refine ⟨_, _, [], hcall, ?_, List.nodup_nil, fun i hi => absurd hi List.not_mem_nil, ?_, fun i => ?_,
      fun _ _ => rfl⟩
    · rw [List.length_nil]
      rcases hzero with rfl | hset
      · rw [Nat.zero_min]
      · rw [List.countP_eq_zero.mpr (by simpa using hset), Nat.min_zero]
    · rw [hsearched, List.map_nil, List.map_nil]
    · rw [decide_eq_false List.not_mem_nil, Bool.or_false]

theorem takesFreeBlocks_iff_sample :
    TakesFreeBlocks (sampleFs []) sampleGroup 3072 7 ⟨[], 7⟩ ↔
      OffsetReturns (sampleFs []) (sampleGroup.number + 1) ∧
        (∀ i < (sampleFs []).blockSize * 8 % 2 ^ 32, arrayBit (sampleFs []).device 3072 i = false) ∧
        (7 = 0 ∨ ∀ i < (sampleFs []).blockSize * 8, arrayBit (sampleFs []).device 3072 i = true) :=
  takesFreeBlocks_iff ext2GetBlockGroup_sample rfl (by decide)

/-- 8185 bits of the bitmap are clear. -/
theorem not_takesFreeBlocks_sample : ext2GetBlockGroup (sampleFs []) 0 = .ok (some sampleGroup) ∧
    arrayBit (sampleFs []).device 3072 0 = false ∧
    ¬ TakesFreeBlocks (sampleFs []) sampleGroup 3072 7 ⟨[], 7⟩ := by
  refine ⟨rfl, by decide, fun h => ?_⟩
  obtain ⟨-, -, hzero | hset⟩ := h.nothing rfl (by decide)
  · cases hzero
  · have hclear : arrayBit (sampleFs []).device 3072 0 = false := by decide
    cases hclear.symm.trans (hset 0 (by decide))

/-! The groups that a search asks for. -/

/-- The rest of a search after the search of a group, as `returnIfFull` goes on with it. -/
def askedIfNotFull (amount : Nat) (searched : Except Fault (Memory × BlockArray))
    (next : Memory → BlockArray → List Nat) : List Nat :=
  match searched with
  | .error _ => []
  | .ok (m, array) => if array.blocks.length = amount then [] else next m array

def outwardAsked (fs : Ext2) (number amount : Nat) : Nat → Nat → Memory → BlockArray → List Nat
  | 0, _, _, _ => []
  | turns + 1, offset, m, array =>
    let fs := fs.withDevice m
    let leftGroup := ext2GetBlockGroup fs (leftBlockOffset fs number offset)
    leftBlockOffset fs number offset % 2 ^ 16 ::
      askedIfNotFull amount (searchGroup fs amount leftGroup array) fun m array =>
        let fs := fs.withDevice m
        let rightGroup := ext2GetBlockGroup fs (rightBlockOffset fs number offset)
        rightBlockOffset fs number offset % 2 ^ 16 ::
          askedIfNotFull amount (searchGroup fs amount rightGroup array) fun m array =>
            outwardAsked fs number amount turns (offset + 1) m array

/-- The groups that `ext2_get_free_blocks` searches, as the 16-bit parameter of
`ext2_get_block_group` gives their numbers, up to a fault or a return. -/
def askedGroups (fs : Ext2) (blockGroupDelta : BlockGroup) (amount : Nat) : List Nat :=
  blockGroupDelta.number ::
    askedIfNotFull amount (searchGroup fs amount (.ok (some blockGroupDelta)) ⟨[], amount⟩) fun m array =>
      outwardAsked fs blockGroupDelta.number amount (fs.numberOfBlockGroups / 2 - 1) 1 m array

/-- The search of some groups in turn. It ends at the first that fills the array,
and with NULL after the last. -/
def searchInTurn (fs : Ext2) (amount : Nat) :
    List Nat → Memory → BlockArray → Except Fault (Option (List Nat) × Memory)
  | [], m, _ => .ok (none, m)
  | group :: groups, m, array =>
    let fs := fs.withDevice m
    returnIfFull amount (searchGroup fs amount (ext2GetBlockGroup fs group) array) fun m array =>
      searchInTurn fs amount groups m array

theorem searchInTurn_withDevice (fs : Ext2) (amount : Nat) (groups : List Nat) (m m' : Memory) (array : BlockArray) :
    searchInTurn (fs.withDevice m') amount groups m array = searchInTurn fs amount groups m array := by
  cases groups with
  | nil => rfl
  | cons group groups => rfl

/-- The rest of the groups asked for is searched in turn if the rest of the search is. -/
theorem returnIfFull_asked {fs : Ext2} {amount : Nat} (searched : Except Fault (Memory × BlockArray))
    {next : Memory → BlockArray → Except Fault (Option (List Nat) × Memory)} {asked : Memory → BlockArray → List Nat}
    (h : ∀ m array, next m array = searchInTurn fs amount (asked m array) m array) :
    returnIfFull amount searched next =
      returnIfFull amount searched (searchInTurn fs amount (askedIfNotFull amount searched asked)) := by
  cases searched with
  | error fault => rfl
  | ok found =>
    simp only [returnIfFull, askedIfNotFull]
    split
    · rfl
    · exact h _ _

theorem outwardLoop_eq_searchInTurn (fs : Ext2) (number amount turns offset : Nat) (m : Memory) (array : BlockArray) :
    outwardLoop fs number amount turns offset m array =
      searchInTurn fs amount (outwardAsked fs number amount turns offset m array) m array := by
  induction turns generalizing fs offset m array with
  | zero => rfl
  | succ turns ih =>
    rw [outwardLoop, outwardAsked, searchInTurn]
    simp only [ext2GetBlockGroup_mod, searchInTurn_withDevice]
    refine returnIfFull_asked _ fun m array => ?_
    rw [searchInTurn]
    simp only [ext2GetBlockGroup_mod, searchInTurn_withDevice, Ext2.withDevice_withDevice]
    refine returnIfFull_asked _ fun m array => ?_
    rw [ih, searchInTurn_withDevice]

/-- A group is asked for only where the searches before it have left the array short. -/
theorem searchInTurn_cons_of_asked {fs : Ext2} {amount group last : Nat} {groups rest : List Nat} {m : Memory}
    {array : BlockArray} {asked : Memory → BlockArray → List Nat}
    (h : askedIfNotFull amount (searchGroup (fs.withDevice m) amount (ext2GetBlockGroup (fs.withDevice m) group) array)
      asked = groups ++ last :: rest)
    (hnext : ∀ m array, asked m array = groups ++ last :: rest →
      ∃ m', searchInTurn fs amount groups m array = .ok (none, m')) :
    ∃ m', searchInTurn fs amount (group :: groups) m array = .ok (none, m') := by
  have hne : groups ++ last :: rest ≠ [] := by simp
  rw [searchInTurn]
  cases hs : searchGroup (fs.withDevice m) amount (ext2GetBlockGroup (fs.withDevice m) group) array with
  | error fault =>
    rw [hs] at h
    exact absurd h.symm hne
  | ok found =>
    simp only [hs, askedIfNotFull] at h
    simp only [returnIfFull, searchInTurn_withDevice]
    split at h
    · exact absurd h.symm hne
    · next hshort =>
      rw [if_neg hshort]
      exact hnext _ _ h

theorem outwardAsked_reached {fs : Ext2} {number amount last : Nat} {groups rest : List Nat} (turns offset : Nat)
    {m : Memory} {array : BlockArray}
    (h : outwardAsked fs number amount turns offset m array = groups ++ last :: rest) :
    ∃ m', searchInTurn fs amount groups m array = .ok (none, m') := by
  induction turns generalizing fs offset m array groups with
  | zero => simp [outwardAsked] at h
  | succ turns ih =>
    cases groups with
    | nil => exact ⟨m, rfl⟩
    | cons left groups =>
      rw [outwardAsked, List.cons_append, List.cons.injEq] at h
      obtain ⟨rfl, hleft⟩ := h
      refine searchInTurn_cons_of_asked (by rw [ext2GetBlockGroup_mod]; exact hleft) fun m₁ array₁ h₁ => ?_
      cases groups with
      | nil => exact ⟨m₁, rfl⟩
      | cons right groups =>
        simp only [Ext2.withDevice_withDevice, List.cons_append, List.cons.injEq] at h₁
        obtain ⟨rfl, hright⟩ := h₁
        refine searchInTurn_cons_of_asked (by rw [ext2GetBlockGroup_mod]; exact hright) fun m₂ array₂ h₂ => ?_
        obtain ⟨m', hm'⟩ := ih _ h₂
        rw [searchInTurn_withDevice] at hm'
        exact ⟨m', hm'⟩

/-- The call searches the groups of the list in turn, and each of them is reached. -/
theorem ext2GetFreeBlocks_asks {fs : Ext2} {start : Nat} {blockGroup : BlockGroup} (amount : Nat)
    (hget : ext2GetBlockGroup fs start = .ok (some blockGroup)) :
    ext2GetFreeBlocks fs blockGroup amount =
        searchInTurn fs amount (askedGroups fs blockGroup amount) fs.device ⟨[], amount⟩ ∧
      ∀ groups last rest, askedGroups fs blockGroup amount = groups ++ last :: rest →
        ∃ m, searchInTurn fs amount groups fs.device ⟨[], amount⟩ = .ok (none, m) := by
  have hself : ext2GetBlockGroup fs blockGroup.number = .ok (some blockGroup) := by
    rw [(ext2GetBlockGroup_some hget).1, ext2GetBlockGroup_mod, hget]
  constructor
  · rw [ext2GetFreeBlocks, askedGroups, searchInTurn]
    simp only [Ext2.withDevice_self, hself]
    exact returnIfFull_asked _ fun m array => outwardLoop_eq_searchInTurn fs _ amount _ 1 m array
  · intro groups last rest h
    cases groups with
    | nil => exact ⟨fs.device, rfl⟩
    | cons first groups =>
      rw [askedGroups, List.cons_append, List.cons.injEq] at h
      obtain ⟨rfl, h⟩ := h
      refine searchInTurn_cons_of_asked (by rw [Ext2.withDevice_self, hself]; exact h) fun m array h => ?_
      exact outwardAsked_reached _ 1 h

/-- The call returns NULL after it has searched each group once and asked for no other. -/
def SearchesEveryGroup (fs : Ext2) (blockGroupDelta : BlockGroup) (amount : Nat) : Prop :=
  (∃ m, ext2GetFreeBlocks fs blockGroupDelta amount = .ok (none, m)) ∧
    (∀ group ∈ askedGroups fs blockGroupDelta amount, group < fs.numberOfBlockGroups) ∧
    ∀ group < fs.numberOfBlockGroups, (askedGroups fs blockGroupDelta amount).count group = 1

theorem length_askedIfNotFull_le {amount n : Nat} (searched : Except Fault (Memory × BlockArray))
    {next : Memory → BlockArray → List Nat} (h : ∀ m array, (next m array).length ≤ n) :
    (askedIfNotFull amount searched next).length ≤ n := by
  cases searched with
  | error fault => exact Nat.zero_le n
  | ok found =>
    simp only [askedIfNotFull]
    split
    · exact Nat.zero_le n
    · exact h _ _

theorem length_outwardAsked_le (fs : Ext2) (number amount turns offset : Nat) (m : Memory) (array : BlockArray) :
    (outwardAsked fs number amount turns offset m array).length ≤ 2 * turns := by
  induction turns generalizing fs offset m array with
  | zero => exact Nat.le_refl 0
  | succ turns ih =>
    rw [outwardAsked, List.length_cons, Nat.mul_succ]
    refine Nat.succ_le_succ (length_askedIfNotFull_le _ fun m array => ?_)
    rw [List.length_cons]
    exact Nat.succ_le_succ (length_askedIfNotFull_le _ fun m array => ih _ _ m array)

/-- From two groups on the loop ends one group or two before it has seen all. -/
theorem length_askedGroups_lt (fs : Ext2) (blockGroupDelta : BlockGroup) (amount : Nat)
    (hgroups : 2 ≤ fs.numberOfBlockGroups) :
    (askedGroups fs blockGroupDelta amount).length < fs.numberOfBlockGroups := by
  have hrest : (askedIfNotFull amount (searchGroup fs amount (.ok (some blockGroupDelta)) ⟨[], amount⟩)
      fun m array => outwardAsked fs blockGroupDelta.number amount (fs.numberOfBlockGroups / 2 - 1) 1 m array).length ≤
      2 * (fs.numberOfBlockGroups / 2 - 1) :=
    length_askedIfNotFull_le _ fun m array => length_outwardAsked_le fs _ amount _ 1 m array
  rw [askedGroups, List.length_cons]
  omega

theorem le_length_of_count {l : List Nat} {n : Nat} (h : ∀ k < n, l.count k = 1) : n ≤ l.length := by
  have hsub : List.range n ⊆ l := by
    intro k hk
    have hcount := h k (List.mem_range.mp hk)
    exact List.count_pos_iff.mp (by omega)
  simpa using List.nodup_range.length_le_of_subset hsub

/-- The number of bits that a search finds set, where it can read them. -/
def foundBits (m : Memory) (bitmap : Bitarray) : Option Nat :=
  if bitarrayGetMaxBit bitmap = 0 then some 0 else setBits m bitmap

theorem foundBits_some {fs : Ext2} {bitmap : Bitarray} {bytes : Nat} (hb : bitmap.bitarray = some bytes) :
    foundBits fs.device bitmap = some (searchedBits fs bitmap bytes).length := by
  rw [searchedBits, ← List.countP_eq_length_filter, foundBits, setBits, hb]
  split
  · next hzero => rw [hzero, List.range_zero, List.countP_nil]
  · rfl

theorem length_empty_le (amount : Nat) :
    (⟨[], amount⟩ : BlockArray).blocks.length ≤ (⟨[], amount⟩ : BlockArray).slots := Nat.zero_le amount

theorem ext2GetFreeBlocksInGroup_null {fs : Ext2} {blockGroup : BlockGroup} (amount : Nat) {array : BlockArray}
    {result : Memory × BlockArray} (hb : blockGroup.blockBitmap.bitarray = none) :
    ext2GetFreeBlocksInGroup fs (some blockGroup) amount array = .ok result ↔
      OffsetReturns fs (blockGroup.number + 1) ∧ bitarrayGetMaxBit blockGroup.blockBitmap = 0 ∧
        result = (fs.device, array) := by
  rw [ext2GetFreeBlocksInGroup_eq_loop]
  cases bitarrayGetMaxBit blockGroup.blockBitmap with
  | zero => simp [freeBlocksLoop, eq_comm]
  | succ bits => simp [freeBlocksLoop, bitarrayTestBit, hb]

/-- A first search that comes back without the blocks it was asked for. -/
theorem searchGroup_short_iff {fs : Ext2} {amount : Nat} {blockGroup : BlockGroup} :
    (∃ m filled, searchGroup fs amount (.ok (some blockGroup)) ⟨[], amount⟩ = .ok (m, filled) ∧
        filled.blocks.length ≠ amount) ↔
      OffsetReturns fs (blockGroup.number + 1) ∧
        ∃ n < amount, foundBits fs.device blockGroup.blockBitmap = some n := by
  have hsearch : searchGroup fs amount (.ok (some blockGroup)) ⟨[], amount⟩ =
      ext2GetFreeBlocksInGroup fs (some blockGroup) amount ⟨[], amount⟩ := rfl
  rw [hsearch]
  cases hb : blockGroup.blockBitmap.bitarray with
  | none =>
    constructor
    · intro h
      obtain ⟨m, filled, hcall, hne⟩ := h
      obtain ⟨hreturns, hmax, hresult⟩ := (ext2GetFreeBlocksInGroup_null amount hb).mp hcall
      obtain ⟨rfl, rfl⟩ := Prod.mk.inj hresult
      refine ⟨hreturns, 0, Nat.pos_of_ne_zero (Ne.symm hne), ?_⟩
      rw [foundBits, if_pos hmax]
    · intro h
      obtain ⟨hreturns, n, hn, hfound⟩ := h
      have hmax : bitarrayGetMaxBit blockGroup.blockBitmap = 0 := by
        by_contra hmax
        rw [foundBits, if_neg hmax, setBits, hb] at hfound
        cases hfound
      refine ⟨_, _, (ext2GetFreeBlocksInGroup_null amount hb).mpr ⟨hreturns, hmax, rfl⟩, ?_⟩
      rw [List.length_nil]
      omega
  | some bytes =>
    rw [foundBits_some hb]
    constructor
    · intro h
      obtain ⟨m, filled, hcall, hne⟩ := h
      obtain ⟨hreturns, hle, -, rfl⟩ := (ext2GetFreeBlocksInGroup_eq_ok_iff amount hb (length_empty_le amount)).mp hcall
      simp only [List.nil_append, List.length_map, List.length_nil, Nat.zero_add] at hne hle
      exact ⟨hreturns, _, by omega, rfl⟩
    · intro h
      obtain ⟨hreturns, n, hn, hfound⟩ := h
      obtain rfl := Option.some.inj hfound
      have hle : ([] : List Nat).length + (searchedBits fs blockGroup.blockBitmap bytes).length ≤ amount := by
        rw [List.length_nil]
        omega
      refine ⟨_, _, (ext2GetFreeBlocksInGroup_eq_ok_iff amount hb (length_empty_le amount)).mpr
        ⟨hreturns, hle, rfl, rfl⟩, ?_⟩
      rw [List.nil_append, List.length_map]
      exact hn.ne

/-- A search returns NULL after it has seen every group only where there is one
group, and that has fewer set bits than the search wants blocks. -/
theorem searchesEveryGroup_iff {fs : Ext2} {start amount : Nat} {blockGroup : BlockGroup}
    (hget : ext2GetBlockGroup fs start = .ok (some blockGroup)) :
    SearchesEveryGroup fs blockGroup amount ↔ fs.numberOfBlockGroups = 1 ∧
      OffsetReturns fs (blockGroup.number + 1) ∧
        ∃ n < amount, foundBits fs.device blockGroup.blockBitmap = some n := by
  have hnumber : blockGroup.number < fs.numberOfBlockGroups := by
    rw [(ext2GetBlockGroup_some hget).1]
    exact ext2GetBlockGroup_mod_lt hget
  rw [← searchGroup_short_iff]
  constructor
  · intro h
    obtain ⟨⟨m, hcall⟩, -, hcount⟩ := h
    have hone : fs.numberOfBlockGroups = 1 := by
      by_contra hne
      have hlt := length_askedGroups_lt fs blockGroup amount (by omega)
      have hle := le_length_of_count hcount
      omega
    refine ⟨hone, ?_⟩
    rw [ext2GetFreeBlocks] at hcall
    cases hs : searchGroup fs amount (.ok (some blockGroup)) ⟨[], amount⟩ with
    | error fault =>
      rw [hs] at hcall
      cases hcall
    | ok found =>
      obtain ⟨m', filled⟩ := found
      refine ⟨m', filled, rfl, fun hfull => ?_⟩
      rw [hs] at hcall
      simp only [returnIfFull, if_pos hfull] at hcall
      cases hcall
  · intro h
    obtain ⟨hone, m, filled, hs, hne⟩ := h
    have hzero : blockGroup.number = 0 := by omega
    have hasked : askedGroups fs blockGroup amount = [0] := by
      rw [askedGroups, hone, hzero, hs]
      simp only [askedIfNotFull, if_neg hne]
      rfl
    refine ⟨⟨m, ?_⟩, fun group hg => ?_, fun group hg => ?_⟩
    · rw [ext2GetFreeBlocks, hone, hs]
      simp only [returnIfFull, if_neg hne]
      rfl
    · rw [hasked] at hg
      rw [hone, List.mem_singleton.mp hg]
      exact Nat.one_pos
    · obtain rfl : group = 0 := by omega
      rw [hasked]
      rfl

theorem searchesEveryGroup_iff_sample : SearchesEveryGroup (sampleFs []) sampleGroup 8 ↔
    (sampleFs []).numberOfBlockGroups = 1 ∧ OffsetReturns (sampleFs []) (sampleGroup.number + 1) ∧
      ∃ n < 8, foundBits (sampleFs []).device sampleGroup.blockBitmap = some n :=
  searchesEveryGroup_iff ext2GetBlockGroup_sample

theorem ext2GetFreeBlocks_ne_some {fs : Ext2} {blockGroup : BlockGroup} (bytes : Nat) {amount : Nat}
    {blocks : List Nat} {m : Memory} (hb : blockGroup.blockBitmap.bitarray = some bytes)
    (hamount : bitarrayGetMaxBit blockGroup.blockBitmap < amount) (hturns : fs.numberOfBlockGroups / 2 - 1 = 0) :
    ext2GetFreeBlocks fs blockGroup amount ≠ .ok (some blocks, m) := by
  intro h
  rw [ext2GetFreeBlocks, hturns] at h
  cases hs : searchGroup fs amount (.ok (some blockGroup)) ⟨[], amount⟩ with
  | error fault =>
    rw [hs] at h
    cases h
  | ok found =>
    obtain ⟨m', filled⟩ := found
    obtain ⟨-, -, -, rfl⟩ := (ext2GetFreeBlocksInGroup_eq_ok_iff amount hb (length_empty_le amount)).mp hs
    have hle : (searchedBits fs blockGroup.blockBitmap bytes).length ≤ bitarrayGetMaxBit blockGroup.blockBitmap :=
      (List.length_filter_le _ _).trans_eq List.length_range
    have hne : ([] ++ (searchedBits fs blockGroup.blockBitmap bytes).map
        (fun i => (fs.firstDataBlock + i) % 2 ^ 32)).length ≠ amount := by
      rw [List.nil_append, List.length_map]
      omega
    rw [hs] at h
    simp only [returnIfFull, if_neg hne] at h
    cases h

/-- A search for 8193 blocks, more than a bitmap has bits, sees group 0 of the two. -/
theorem not_searchesEveryGroup_two : ext2Create twoGroupImage = .ok twoGroupFs ∧
    ext2GetBlockGroup twoGroupFs 0 = .ok (some sampleGroup) ∧
    (∀ blocks m, ext2GetFreeBlocks twoGroupFs sampleGroup 8193 ≠ .ok (some blocks, m)) ∧
    ¬ SearchesEveryGroup twoGroupFs sampleGroup 8193 := by
  refine ⟨rfl, rfl, fun blocks m h => ?_, fun h => ?_⟩
  · exact ext2GetFreeBlocks_ne_some 3072 rfl (by decide) (by decide) h
  · have hlt := length_askedGroups_lt twoGroupFs sampleGroup 8193 (by decide)
    have hle := le_length_of_count h.2.2
    omega

end FuseExt2
