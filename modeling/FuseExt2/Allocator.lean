import FuseExt2.Groups

/-! The search for free blocks: it takes set bits for free blocks, never changes
a bit, and does not stop inside a group. What that leaves of its contract. -/

namespace FuseExt2

open ByteStore

/-- The loop of `ext2_get_block_group_offset`. `index` is an int, kept as its
32-bit pattern, and the body adds the sizes of a group to it. -/
def blockGroupOffsetLoop (fs : Ext2) (blockGroup : Nat) : Nat → Nat → Except Fault Unit
  | 0, _ => .error .diverges
  | fuel + 1, index =>
    if 2 ^ 31 ≤ index ∨ index < blockGroup then
      if fs.inodeSize = 0 then .error .divideByZero
      else
        let copies := if ext2HasSuperblock blockGroup then 2 else 0
        blockGroupOffsetLoop fs blockGroup fuel
          ((index + copies + 2 + fs.blockSize / fs.inodeSize + fs.blockperGroup + 1) % 2 ^ 32)
    else .ok ()

/-- A loop that ends has not visited a pattern twice, so 2^32 turns suffice. -/
def ext2GetBlockGroupOffset (fs : Ext2) (blockGroup : Nat) : Except Fault Nat :=
  match blockGroupOffsetLoop fs (blockGroup % 2 ^ 16) (2 ^ 32 + 1) 0 with
  | .error fault => .error fault
  | .ok () => .ok fs.firstDataBlock

/-- `array_to_fill`: the blocks written so far, and the number of its slots. -/
structure BlockArray where
  blocks : List Nat
  slots : Nat

def BlockArray.push (array : BlockArray) (block : Nat) : Except Fault BlockArray :=
  if array.blocks.length < array.slots then .ok { array with blocks := array.blocks ++ [block % 2 ^ 32] }
  else .error .outOfBounds

def freeBlocksLoop (bitmap : Bitarray) (blockGroupOffset : Nat) :
    Nat → Nat → Memory → BlockArray → Except Fault (Memory × BlockArray)
  | 0, _, m, array => .ok (m, array)
  | bits + 1, index, m, array =>
    match bitarrayTestBit m bitmap index with
    | .error fault => .error fault
    | .ok false => freeBlocksLoop bitmap blockGroupOffset bits (index + 1) m array
    | .ok true =>
      match bitarraySetBit m bitmap index with
      | .error fault => .error fault
      | .ok m =>
        match array.push (blockGroupOffset + index) with
        | .error fault => .error fault
        | .ok array => freeBlocksLoop bitmap blockGroupOffset bits (index + 1) m array

/-- The parameter `amount` of the function is not used by its body. -/
def ext2GetFreeBlocksInGroup (fs : Ext2) (blockGroup : Option BlockGroup) (_amount : Nat) (array : BlockArray) :
    Except Fault (Memory × BlockArray) :=
  match deref blockGroup with
  | .error fault => .error fault
  | .ok blockGroup =>
    match ext2GetBlockGroupOffset fs (blockGroup.number + 1) with
    | .error fault => .error fault
    | .ok offset =>
      freeBlocksLoop blockGroup.blockBitmap offset (bitarrayGetMaxBit blockGroup.blockBitmap) 0 fs.device array

def searchGroup (fs : Ext2) (amount : Nat) (group : Except Fault (Option BlockGroup)) (array : BlockArray) :
    Except Fault (Memory × BlockArray) :=
  match group with
  | .error fault => .error fault
  | .ok blockGroup => ext2GetFreeBlocksInGroup fs blockGroup (amount - array.blocks.length) array

/-- `if( finded_free_blocks == amount ) return free_blocks;` after the search of a group. -/
def returnIfFull (amount : Nat) (searched : Except Fault (Memory × BlockArray))
    (next : Memory → BlockArray → Except Fault (Option (List Nat) × Memory)) :
    Except Fault (Option (List Nat) × Memory) :=
  match searched with
  | .error fault => .error fault
  | .ok (m, array) => if array.blocks.length = amount then .ok (some array.blocks, m) else next m array

def leftBlockOffset (fs : Ext2) (number offset : Nat) : Nat :=
  if number < offset then fs.blockcount + (offset - number) else number - offset

def rightBlockOffset (fs : Ext2) (number offset : Nat) : Nat :=
  if fs.blockcount ≤ number + offset then number + offset - fs.blockcount else number + offset

def outwardLoop (fs : Ext2) (number amount : Nat) :
    Nat → Nat → Memory → BlockArray → Except Fault (Option (List Nat) × Memory)
  | 0, _, m, _ => .ok (none, m)
  | turns + 1, offset, m, array =>
    let fs := fs.withDevice m
    let leftGroup := ext2GetBlockGroup fs (leftBlockOffset fs number offset)
    returnIfFull amount (searchGroup fs amount leftGroup array) fun m array =>
      let fs := fs.withDevice m
      let rightGroup := ext2GetBlockGroup fs (rightBlockOffset fs number offset)
      returnIfFull amount (searchGroup fs amount rightGroup array) fun m array =>
        outwardLoop fs number amount turns (offset + 1) m array

/-- The blocks found, or none for NULL, and the device after the call. -/
def ext2GetFreeBlocks (fs : Ext2) (blockGroupDelta : BlockGroup) (amount : Nat) :
    Except Fault (Option (List Nat) × Memory) :=
  let halfGroups := fs.numberOfBlockGroups / 2
  returnIfFull amount (searchGroup fs amount (.ok (some blockGroupDelta)) ⟨[], amount⟩) fun m array =>
    outwardLoop fs blockGroupDelta.number amount (halfGroups - 1) 1 m array

/-! Where the loop over the sizes of a group ends. -/

/-- What a turn of the loop adds to its index. -/
def groupStride (fs : Ext2) (blockGroup : Nat) : Nat :=
  (if ext2HasSuperblock blockGroup then 2 else 0) + 2 + fs.blockSize / fs.inodeSize + fs.blockperGroup + 1

/-- Some multiple of the stride is, as an int, at least the number of the group. -/
def OffsetReturns (fs : Ext2) (blockGroup : Nat) : Prop :=
  blockGroup % 2 ^ 16 = 0 ∨ fs.inodeSize ≠ 0 ∧ ∃ turns,
    blockGroup % 2 ^ 16 ≤ turns * groupStride fs (blockGroup % 2 ^ 16) % 2 ^ 32 ∧
      turns * groupStride fs (blockGroup % 2 ^ 16) % 2 ^ 32 < 2 ^ 31

theorem blockGroupOffsetLoop_turn {fs : Ext2} {g index : Nat} (hstop : ¬ (g ≤ index ∧ index < 2 ^ 31)) (fuel : Nat) :
    blockGroupOffsetLoop fs g (fuel + 1) index = if fs.inodeSize = 0 then .error .divideByZero
      else blockGroupOffsetLoop fs g fuel ((index + groupStride fs g) % 2 ^ 32) := by
  rw [blockGroupOffsetLoop, if_pos (by omega)]
  simp only [groupStride, ← Nat.add_assoc]

theorem blockGroupOffsetLoop_stop {fs : Ext2} {g index : Nat} (hstop : g ≤ index ∧ index < 2 ^ 31) (fuel : Nat) :
    blockGroupOffsetLoop fs g (fuel + 1) index = .ok () := by
  rw [blockGroupOffsetLoop, if_neg (by omega)]

theorem mul_mod_add_mod (turns d : Nat) : (turns * d % 2 ^ 32 + d) % 2 ^ 32 = (turns + 1) * d % 2 ^ 32 := by
  rw [Nat.mod_add_mod, Nat.succ_mul]

theorem exists_turns_of_loop {fs : Ext2} {g : Nat} (fuel turns : Nat)
    (h : blockGroupOffsetLoop fs g fuel (turns * groupStride fs g % 2 ^ 32) = .ok ()) :
    ∃ turns', g ≤ turns' * groupStride fs g % 2 ^ 32 ∧ turns' * groupStride fs g % 2 ^ 32 < 2 ^ 31 := by
  induction fuel generalizing turns with
  | zero => cases h
  | succ fuel ih =>
    by_cases hstop : g ≤ turns * groupStride fs g % 2 ^ 32 ∧ turns * groupStride fs g % 2 ^ 32 < 2 ^ 31
    · exact ⟨turns, hstop⟩
    · rw [blockGroupOffsetLoop_turn hstop] at h
      split at h
      · cases h
      · rw [mul_mod_add_mod] at h
        exact ih _ h

theorem loop_of_exists_turns {fs : Ext2} {g : Nat} (hsize : fs.inodeSize ≠ 0) (fuel turns last : Nat)
    (hlast : g ≤ last * groupStride fs g % 2 ^ 32 ∧ last * groupStride fs g % 2 ^ 32 < 2 ^ 31)
    (hle : turns ≤ last) (hfuel : last < turns + fuel) :
    blockGroupOffsetLoop fs g fuel (turns * groupStride fs g % 2 ^ 32) = .ok () := by
  induction fuel generalizing turns with
  | zero => omega
  | succ fuel ih =>
    by_cases hstop : g ≤ turns * groupStride fs g % 2 ^ 32 ∧ turns * groupStride fs g % 2 ^ 32 < 2 ^ 31
    · exact blockGroupOffsetLoop_stop hstop fuel
    · have hne : turns ≠ last := by
        rintro rfl
        exact hstop hlast
      rw [blockGroupOffsetLoop_turn hstop, if_neg hsize, mul_mod_add_mod]
      exact ih (turns + 1) (by omega) (by omega)

/-- The index only depends on the turns modulo 2^32, so the fuel is enough. -/
theorem blockGroupOffsetLoop_iff (fs : Ext2) (blockGroup : Nat) :
    blockGroupOffsetLoop fs (blockGroup % 2 ^ 16) (2 ^ 32 + 1) 0 = .ok () ↔ OffsetReturns fs blockGroup := by
  rw [OffsetReturns]
  generalize blockGroup % 2 ^ 16 = g
  rcases Nat.eq_zero_or_pos g with rfl | hg
  · exact iff_of_true (blockGroupOffsetLoop_stop (by omega) (2 ^ 32)) (Or.inl rfl)
  · simp only [hg.ne', false_or]
    constructor
    · intro h
      have hsize : fs.inodeSize ≠ 0 := by
        intro hz
        rw [blockGroupOffsetLoop_turn (by omega), if_pos hz] at h
        cases h
      refine ⟨hsize, exists_turns_of_loop (2 ^ 32 + 1) 0 ?_⟩
      rw [Nat.zero_mul, Nat.zero_mod]
      exact h
    · intro h
      obtain ⟨hsize, turns, hturns⟩ := h
      have hlt : turns % 2 ^ 32 < 2 ^ 32 := Nat.mod_lt _ (by decide)
      have hperiod : turns % 2 ^ 32 * groupStride fs g % 2 ^ 32 = turns * groupStride fs g % 2 ^ 32 :=
        Nat.mod_mul_mod _ _ _
      have hloop := loop_of_exists_turns hsize (2 ^ 32 + 1) 0 (turns % 2 ^ 32) (by rwa [hperiod])
        (Nat.zero_le _) (by omega)
      rw [Nat.zero_mul, Nat.zero_mod] at hloop
      exact hloop

theorem ext2GetBlockGroupOffset_eq_ok_iff {fs : Ext2} {blockGroup offset : Nat} :
    ext2GetBlockGroupOffset fs blockGroup = .ok offset ↔
      OffsetReturns fs blockGroup ∧ offset = fs.firstDataBlock := by
  rw [← blockGroupOffsetLoop_iff, ext2GetBlockGroupOffset]
  cases blockGroupOffsetLoop fs (blockGroup % 2 ^ 16) (2 ^ 32 + 1) 0 with
  | error fault => simp
  | ok done => simp [eq_comm]

theorem offsetReturns_of_sizes {fs : Ext2} (hbs : Ext2Sized fs) (hsize : fs.inodeSize ≠ 0)
    (hblocks : fs.blockperGroup ≤ 8 * fs.blockSize) (blockGroup : Nat) : OffsetReturns fs blockGroup := by
  have hg : blockGroup % 2 ^ 16 < 2 ^ 16 := Nat.mod_lt _ (by decide)
  rw [OffsetReturns]
  generalize blockGroup % 2 ^ 16 = g at hg ⊢
  have hstride : 0 < groupStride fs g ∧ groupStride fs g < 2 ^ 20 := by
    have hd : fs.blockSize / fs.inodeSize ≤ fs.blockSize := Nat.div_le_self _ _
    have hle := hbs.le.2
    rw [groupStride]
    generalize fs.blockSize / fs.inodeSize = q at hd ⊢
    split <;> omega
  generalize groupStride fs g = d at hstride
  -- one turn more than fit below the number of the group
  have hlt := Nat.lt_div_mul_add hstride.1 (a := g)
  have hle := Nat.div_mul_le_self g d
  refine Or.inr ⟨hsize, g / d + 1, ?_⟩
  rw [Nat.succ_mul, Nat.mod_eq_of_lt (by omega)]
  omega

/-! What the search finds. -/

def setBits (m : Memory) (bitmap : Bitarray) : Option Nat :=
  match bitmap.bitarray with
  | none => none
  | some bytes => some ((List.range (bitarrayGetMaxBit bitmap)).countP
      (fun i => m (bytes + i / 8) &&& bitInChar i != 0))

def groupSetBits (fs : Ext2) (group : Nat) : Option Nat :=
  match ext2GetBlockGroup fs group with
  | .ok (some blockGroup) => setBits fs.device blockGroup.blockBitmap
  | _ => none

theorem freeBlocksLoop_eq {bitmap : Bitarray} {bytes : Nat} (hb : bitmap.bitarray = some bytes)
    (blockGroupOffset : Nat) (m : Memory) (bits index : Nat) (array : BlockArray)
    (hlen : array.blocks.length ≤ array.slots) :
    freeBlocksLoop bitmap blockGroupOffset bits index m array =
      let taken := (List.range' index bits).filter (fun i => m (bytes + i / 8) &&& bitInChar i != 0)
      if array.blocks.length + taken.length ≤ array.slots then
        .ok (m, ⟨array.blocks ++ taken.map (fun i => (blockGroupOffset + i) % 2 ^ 32), array.slots⟩)
      else .error .outOfBounds := by
  induction bits generalizing index array with
  | zero => simp [freeBlocksLoop, hlen]
  | succ bits ih =>
    have htest : bitarrayTestBit m bitmap index = .ok (m (bytes + index / 8) &&& bitInChar index != 0) := by
      rw [bitarrayTestBit, hb, deref_some]
    rw [freeBlocksLoop, htest, List.range'_succ, List.filter_cons]
    cases hbit : (m (bytes + index / 8) &&& bitInChar index != 0) with
    | false =>
      simp only [Bool.false_eq_true, if_false]
      exact ih (index + 1) array hlen
    | true =>
      have hset := bitarraySetBit_of_testBit (htest.trans (congrArg Except.ok hbit))
      simp only [hset, if_true, BlockArray.push, List.length_cons, List.map_cons]
      by_cases hlt : array.blocks.length < array.slots
      · have hlt' : (array.blocks ++ [(blockGroupOffset + index) % 2 ^ 32]).length ≤ array.slots := by
          rw [List.length_append, List.length_singleton]
          exact hlt
        have h := ih (index + 1) ⟨array.blocks ++ [(blockGroupOffset + index) % 2 ^ 32], array.slots⟩ hlt'
        simp only [if_pos hlt]
        rw [h]
        simp only [List.length_append, List.length_singleton, List.append_assoc, List.singleton_append,
          Nat.add_assoc, Nat.add_comm 1]
      · rw [if_neg hlt]
        simp only
        rw [if_neg (by omega)]

theorem ext2GetFreeBlocksInGroup_eq_loop {fs : Ext2} {blockGroup : BlockGroup} (amount : Nat) {array : BlockArray}
    {result : Memory × BlockArray} :
    ext2GetFreeBlocksInGroup fs (some blockGroup) amount array = .ok result ↔
      OffsetReturns fs (blockGroup.number + 1) ∧ freeBlocksLoop blockGroup.blockBitmap fs.firstDataBlock
        (bitarrayGetMaxBit blockGroup.blockBitmap) 0 fs.device array = .ok result := by
  rw [ext2GetFreeBlocksInGroup, deref_some]
  cases hoff : ext2GetBlockGroupOffset fs (blockGroup.number + 1) with
  | error fault =>
    have hnot : ¬ OffsetReturns fs (blockGroup.number + 1) := by
      intro h
      cases hoff.symm.trans (ext2GetBlockGroupOffset_eq_ok_iff.mpr ⟨h, rfl⟩)
    simp only [hoff, hnot, false_and, iff_false]
    exact fun h => by cases h
  | ok offset =>
    obtain ⟨hreturns, rfl⟩ := ext2GetBlockGroupOffset_eq_ok_iff.mp hoff
    simp only [hoff, hreturns, true_and]

theorem ext2GetFreeBlocksInGroup_some {fs : Ext2} {blockGroup : BlockGroup} {n : Nat}
    (hreturns : OffsetReturns fs (blockGroup.number + 1)) (hn : setBits fs.device blockGroup.blockBitmap = some n)
    (amount : Nat) {array : BlockArray} (hlen : array.blocks.length ≤ array.slots) :
    (array.blocks.length + n ≤ array.slots → ∃ blocks, blocks.length = array.blocks.length + n ∧
      ext2GetFreeBlocksInGroup fs (some blockGroup) amount array = .ok (fs.device, ⟨blocks, array.slots⟩)) ∧
    (array.slots < array.blocks.length + n →
      ext2GetFreeBlocksInGroup fs (some blockGroup) amount array = .error .outOfBounds) := by
  rw [setBits] at hn
  cases hb : blockGroup.blockBitmap.bitarray with
  | none =>
    rw [hb] at hn
    cases hn
  | some bytes =>
    rw [hb] at hn
    have hn' := Option.some.inj hn
    rw [List.countP_eq_length_filter, List.range_eq_range'] at hn'
    have hloop := freeBlocksLoop_eq hb fs.firstDataBlock fs.device (bitarrayGetMaxBit blockGroup.blockBitmap) 0
      array hlen
    simp only [hn'] at hloop
    simp only [ext2GetFreeBlocksInGroup, deref_some, ext2GetBlockGroupOffset_eq_ok_iff.mpr ⟨hreturns, rfl⟩, hloop]
    constructor
    · intro hle
      refine ⟨_, ?_, if_pos hle⟩
      rw [List.length_append, List.length_map, hn']
    · intro hlt
      exact if_neg (Nat.not_le.mpr hlt)

theorem ext2GetFreeBlocksInGroup_none {fs : Ext2} {blockGroup : BlockGroup}
    (hn : setBits fs.device blockGroup.blockBitmap = none)
    (hbits : 0 < bitarrayGetMaxBit blockGroup.blockBitmap) (amount : Nat) (array : BlockArray)
    (result : Memory × BlockArray) : ext2GetFreeBlocksInGroup fs (some blockGroup) amount array ≠ .ok result := by
  have hb : blockGroup.blockBitmap.bitarray = none := by
    cases hb : blockGroup.blockBitmap.bitarray with
    | none => rfl
    | some bytes => simp [setBits, hb] at hn
  obtain ⟨bits, hbits⟩ := Nat.exists_eq_add_of_lt hbits
  intro h
  have hloop := (ext2GetFreeBlocksInGroup_eq_loop amount).mp h
  simp only [hbits, freeBlocksLoop, bitarrayTestBit, hb, deref_none] at hloop
  cases hloop.2

def outwardGroups (fs : Ext2) (number : Nat) : Nat → Nat → List Nat
  | 0, _ => []
  | turns + 1, offset =>
    leftBlockOffset fs number offset :: rightBlockOffset fs number offset :: outwardGroups fs number turns (offset + 1)

def visitedGroups (fs : Ext2) (number : Nat) : List Nat :=
  number :: outwardGroups fs number (fs.numberOfBlockGroups / 2 - 1) 1

/-- The search of the group comes to its end, and it has `n` set bits to find. -/
def FindsBits (fs : Ext2) (group n : Nat) : Prop :=
  OffsetReturns fs (group % 2 ^ 16 + 1) ∧ groupSetBits fs group = some n

theorem FindsBits.unique {fs : Ext2} {group n n' : Nat} (h : FindsBits fs group n) (h' : FindsBits fs group n') :
    n = n' := Option.some.inj (h.2.symm.trans h'.2)

/-- Every one of the groups exists with its bitmap on the device and is searched to
its end, and `found` and the set bits of the bitmaps are together fewer than `amount`. -/
def Exhausted (fs : Ext2) (amount : Nat) : List Nat → Nat → Prop
  | [], found => found < amount
  | group :: groups, found => ∃ n, FindsBits fs group n ∧ Exhausted fs amount groups (found + n)

theorem Exhausted.lt {fs : Ext2} {amount found : Nat} {groups : List Nat} (h : Exhausted fs amount groups found) :
    found < amount := by
  induction groups generalizing found with
  | nil => exact h
  | cons group groups ih =>
    obtain ⟨n, -, hn⟩ := h
    have := ih hn
    omega

theorem ext2GetBlockGroup_some {fs : Ext2} {group : Nat} {blockGroup : BlockGroup}
    (h : ext2GetBlockGroup fs group = .ok (some blockGroup)) :
    blockGroup.number = group % 2 ^ 16 ∧ blockGroup.blockBitmap.size = fs.blockSize := by
  simp only [ext2GetBlockGroup] at h
  split at h
  · cases h
  · split at h
    · split at h
      · cases h
      · obtain rfl := Option.some.inj (Except.ok.inj h)
        exact ⟨rfl, rfl⟩
    · obtain rfl := Option.some.inj (Except.ok.inj h)
      exact ⟨rfl, rfl⟩

theorem bitarrayGetMaxBit_pos {fs : Ext2} (hbs : Ext2Sized fs) {bitmap : Bitarray} (h : bitmap.size = fs.blockSize) :
    0 < bitarrayGetMaxBit bitmap := by
  have := hbs.le
  rw [bitarrayGetMaxBit, h]
  omega

theorem searchGroup_cases {fs : Ext2} (hbs : Ext2Sized fs) (group : Nat) {amount : Nat} {array : BlockArray}
    (hslots : array.slots = amount) (hlen : array.blocks.length ≤ amount) :
    ((∀ n, ¬ FindsBits fs group n) ∧
      ∃ fault, searchGroup fs amount (ext2GetBlockGroup fs group) array = .error fault) ∨
    ∃ n, FindsBits fs group n ∧
      ((amount < array.blocks.length + n ∧
        ∃ fault, searchGroup fs amount (ext2GetBlockGroup fs group) array = .error fault) ∨
      (array.blocks.length + n ≤ amount ∧ ∃ blocks, blocks.length = array.blocks.length + n ∧
        searchGroup fs amount (ext2GetBlockGroup fs group) array = .ok (fs.device, ⟨blocks, amount⟩))) := by
  cases hget : ext2GetBlockGroup fs group with
  | error fault => exact Or.inl ⟨fun n h => by simp [FindsBits, groupSetBits, hget] at h, fault, rfl⟩
  | ok found =>
    cases found with
    | none => exact Or.inl ⟨fun n h => by simp [FindsBits, groupSetBits, hget] at h, .nullPointer, rfl⟩
    | some blockGroup =>
      obtain ⟨hnumber, hsize⟩ := ext2GetBlockGroup_some hget
      have hfinds : ∀ n, FindsBits fs group n ↔
          OffsetReturns fs (blockGroup.number + 1) ∧ setBits fs.device blockGroup.blockBitmap = some n := by
        intro n
        simp only [FindsBits, groupSetBits, hget, hnumber]
      have hfault : (∀ result, ext2GetFreeBlocksInGroup fs (some blockGroup) (amount - array.blocks.length) array ≠
          .ok result) → ∃ fault, searchGroup fs amount (.ok (some blockGroup)) array = .error fault := by
        intro h
        rw [searchGroup]
        cases hcall : ext2GetFreeBlocksInGroup fs (some blockGroup) (amount - array.blocks.length) array with
        | error fault => exact ⟨fault, rfl⟩
        | ok result => exact absurd hcall (h result)
      by_cases hreturns : OffsetReturns fs (blockGroup.number + 1)
      · cases hset : setBits fs.device blockGroup.blockBitmap with
        | none =>
          refine Or.inl ⟨fun n h => ?_, hfault ?_⟩
          · cases hset.symm.trans ((hfinds n).mp h).2
          · exact ext2GetFreeBlocksInGroup_none hset (bitarrayGetMaxBit_pos hbs hsize) _ array
        | some n =>
          obtain ⟨hfit, hover⟩ := ext2GetFreeBlocksInGroup_some hreturns hset (amount - array.blocks.length)
            (hlen.trans_eq hslots.symm)
          refine Or.inr ⟨n, (hfinds n).mpr ⟨hreturns, hset⟩, ?_⟩
          by_cases hle : array.blocks.length + n ≤ amount
          · obtain ⟨blocks, hblocks, hok⟩ := hfit (hle.trans_eq hslots.symm)
            exact Or.inr ⟨hle, blocks, hblocks, hslots ▸ hok⟩
          · exact Or.inl ⟨by omega, .outOfBounds, hover (by omega)⟩
      · refine Or.inl ⟨fun n h => hreturns ((hfinds n).mp h).1, hfault fun result h => hreturns ?_⟩
        exact ((ext2GetFreeBlocksInGroup_eq_loop _).mp h).1

section Search

variable {fs : Ext2} {amount : Nat} {array : BlockArray} {result : Option (List Nat)} {m : Memory}
  {next : Memory → BlockArray → Except Fault (Option (List Nat) × Memory)}

theorem returnIfFull_eq_ok (hbs : Ext2Sized fs) (group : Nat) (hslots : array.slots = amount)
    (hlen : array.blocks.length ≤ amount)
    (h : returnIfFull amount (searchGroup fs amount (ext2GetBlockGroup fs group) array) next = .ok (result, m)) :
    (m = fs.device ∧ ∃ blocks, result = some blocks ∧ blocks.length = amount) ∨
      ∃ n blocks, FindsBits fs group n ∧ blocks.length = array.blocks.length + n ∧
        blocks.length < amount ∧ next fs.device ⟨blocks, amount⟩ = .ok (result, m) := by
  rcases searchGroup_cases hbs group hslots hlen with
    ⟨-, fault, hs⟩ | ⟨n, hn, ⟨-, fault, hs⟩ | ⟨hle, blocks, hb, hs⟩⟩
  · rw [hs] at h
    cases h
  · rw [hs] at h
    cases h
  · rw [hs] at h
    simp only [returnIfFull] at h
    by_cases hfull : blocks.length = amount
    · rw [if_pos hfull] at h
      obtain ⟨rfl, rfl⟩ := Prod.mk.inj (Except.ok.inj h)
      exact Or.inl ⟨rfl, blocks, rfl, hfull⟩
    · rw [if_neg hfull] at h
      exact Or.inr ⟨n, blocks, hn, hb, by omega, h⟩

theorem returnIfFull_of_lt (hbs : Ext2Sized fs) (group : Nat) (hslots : array.slots = amount) {n : Nat}
    (hn : FindsBits fs group n) (hlt : array.blocks.length + n < amount) :
    ∃ blocks, blocks.length = array.blocks.length + n ∧ ∀ next,
      returnIfFull amount (searchGroup fs amount (ext2GetBlockGroup fs group) array) next =
        next fs.device ⟨blocks, amount⟩ := by
  have hlen : array.blocks.length ≤ amount := by omega
  rcases searchGroup_cases hbs group hslots hlen with
    ⟨hnone, -⟩ | ⟨n', hn', ⟨hover, -⟩ | ⟨-, blocks, hb, hs⟩⟩
  · exact absurd hn (hnone n)
  · obtain rfl := hn.unique hn'
    omega
  · obtain rfl := hn.unique hn'
    refine ⟨blocks, hb, fun next => ?_⟩
    rw [hs]
    exact if_neg (by simp only [hb]; omega)

theorem outwardLoop_eq_ok (hbs : Ext2Sized fs) (number turns offset : Nat) (hslots : array.slots = amount)
    (hlt : array.blocks.length < amount)
    (h : outwardLoop fs number amount turns offset fs.device array = .ok (result, m)) :
    m = fs.device ∧ ((∃ blocks, result = some blocks ∧ blocks.length = amount) ∨
      result = none ∧ Exhausted fs amount (outwardGroups fs number turns offset) array.blocks.length) := by
  induction turns generalizing offset array with
  | zero =>
    obtain ⟨rfl, rfl⟩ := Prod.mk.inj (Except.ok.inj h)
    exact ⟨rfl, Or.inr ⟨rfl, hlt⟩⟩
  | succ turns ih =>
    rcases returnIfFull_eq_ok hbs _ hslots hlt.le h with ⟨hm, hfull⟩ | ⟨n, left, hn, hl, hllt, h⟩
    · exact ⟨hm, Or.inl hfull⟩
    · rcases returnIfFull_eq_ok hbs _ rfl hllt.le h with ⟨hm, hfull⟩ | ⟨n', right, hn', hr, hrlt, h⟩
      · exact ⟨hm, Or.inl hfull⟩
      · obtain ⟨hm, hfull | ⟨hnone, hex⟩⟩ := ih (offset + 1) rfl hrlt h
        · exact ⟨hm, Or.inl hfull⟩
        · refine ⟨hm, Or.inr ⟨hnone, n, hn, n', hn', ?_⟩⟩
          rw [hr, hl] at hex
          exact hex

theorem outwardLoop_of_exhausted (hbs : Ext2Sized fs) (number turns offset : Nat) (hslots : array.slots = amount)
    (hex : Exhausted fs amount (outwardGroups fs number turns offset) array.blocks.length) :
    outwardLoop fs number amount turns offset fs.device array = .ok (none, fs.device) := by
  induction turns generalizing offset array with
  | zero => rfl
  | succ turns ih =>
    obtain ⟨n, hn, n', hn', hex⟩ := hex
    have hlt := hex.lt
    obtain ⟨left, hl, hleft⟩ := returnIfFull_of_lt hbs _ hslots hn (by omega)
    have hright := returnIfFull_of_lt hbs _ (rfl : BlockArray.slots ⟨left, amount⟩ = amount) hn'
      (by simp only [hl]; omega)
    obtain ⟨right, hr, hright⟩ := hright
    simp only [outwardLoop, Ext2.withDevice_self]
    rw [hleft]
    simp only [Ext2.withDevice_self]
    rw [hright]
    refine ih (offset + 1) rfl ?_
    simp only [hr, hl]
    exact hex

end Search

/-- What a call may do: the blocks of its result were free and are no longer, no
other block changes, and NULL means that too few blocks were free. -/
def AllocationSound (fs fs' : Ext2) (amount : Nat) : Option (List Nat) → Prop
  | some blocks => blocks.length = amount ∧ blocks.Nodup ∧
      (∀ b ∈ blocks, FreeBlock fs b ∧ ¬ FreeBlock fs' b) ∧ ∀ b, b ∉ blocks → (FreeBlock fs' b ↔ FreeBlock fs b)
  | none => (List.range fs.blockcount).countP (fun b => decide (FreeBlock fs b)) < amount ∧
      ∀ group, GroupExists fs group → Set.EqOn fs.device fs'.device (blockBytes fs (groupBlockBitmap fs group))

def allocateFrom (fs : Ext2) (group amount : Nat) : Except Fault (Option (List Nat) × Memory) :=
  match ext2GetBlockGroup fs group with
  | .error fault => .error fault
  | .ok blockGroup =>
    match deref blockGroup with
    | .error fault => .error fault
    | .ok blockGroup => ext2GetFreeBlocks fs blockGroup amount

def AllocationsSound (fs : Ext2) : List (Nat × Nat) → Prop
  | [] => True
  | (group, amount) :: calls => ∃ result m, allocateFrom fs group amount = .ok (result, m) ∧
      AllocationSound fs (fs.withDevice m) amount result ∧ AllocationsSound (fs.withDevice m) calls

theorem allocateFrom_eq {fs : Ext2} {group : Nat} (hg : group < fs.numberOfBlockGroups) (amount : Nat) :
    allocateFrom fs group amount =
      returnIfFull amount (searchGroup fs amount (ext2GetBlockGroup fs group) ⟨[], amount⟩) fun m array =>
        outwardLoop fs group amount (fs.numberOfBlockGroups / 2 - 1) 1 m array := by
  rw [allocateFrom]
  cases hget : ext2GetBlockGroup fs group with
  | error fault => rfl
  | ok found =>
    cases found with
    | none => rfl
    | some blockGroup =>
      have hnum : blockGroup.number = group := by
        rw [(ext2GetBlockGroup_some hget).1, Nat.mod_eq_of_lt (hg.trans fs.numberOfBlockGroups_lt)]
      simp only [deref_some, ext2GetFreeBlocks, hnum]

theorem allocateFrom_eq_ok {fs : Ext2} (hbs : Ext2Sized fs) {group amount : Nat}
    (hg : group < fs.numberOfBlockGroups) {result : Option (List Nat)} {m : Memory}
    (h : allocateFrom fs group amount = .ok (result, m)) :
    m = fs.device ∧ ((∃ blocks, result = some blocks ∧ blocks.length = amount) ∨
      result = none ∧ Exhausted fs amount (visitedGroups fs group) 0) := by
  rw [allocateFrom_eq hg] at h
  have hslots : BlockArray.slots ⟨[], amount⟩ = amount := rfl
  rcases returnIfFull_eq_ok hbs group hslots (Nat.zero_le amount) h with ⟨hm, hfull⟩ | ⟨n, blocks, hn, hlen, hlt, h⟩
  · exact ⟨hm, Or.inl hfull⟩
  · have hslots : BlockArray.slots ⟨blocks, amount⟩ = amount := rfl
    obtain ⟨hm, hfull | ⟨hnone, hex⟩⟩ := outwardLoop_eq_ok hbs group _ 1 hslots hlt h
    · exact ⟨hm, Or.inl hfull⟩
    · refine ⟨hm, Or.inr ⟨hnone, n, hn, ?_⟩⟩
      rw [hlen] at hex
      exact hex

theorem allocateFrom_of_exhausted {fs : Ext2} (hbs : Ext2Sized fs) {group amount : Nat}
    (hg : group < fs.numberOfBlockGroups) (hex : Exhausted fs amount (visitedGroups fs group) 0) :
    allocateFrom fs group amount = .ok (none, fs.device) := by
  obtain ⟨n, hn, hex⟩ := hex
  have hslots : BlockArray.slots ⟨[], amount⟩ = amount := rfl
  obtain ⟨blocks, hlen, hnext⟩ := returnIfFull_of_lt hbs group hslots hn hex.lt
  rw [allocateFrom_eq hg, hnext]
  refine outwardLoop_of_exhausted hbs group _ 1 rfl ?_
  simp only [hlen]
  exact hex

def NothingToGive (fs : Ext2) (group amount : Nat) : Prop :=
  Exhausted fs amount (visitedGroups fs group) 0 ∧
    (List.range fs.blockcount).countP (fun b => decide (FreeBlock fs b)) < amount

theorem allocateFrom_sound_iff {fs : Ext2} (hbs : Ext2Sized fs) {group amount : Nat}
    (hg : group < fs.numberOfBlockGroups) (hpos : 0 < amount) :
    (∃ result m, allocateFrom fs group amount = .ok (result, m) ∧
      AllocationSound fs (fs.withDevice m) amount result) ↔ NothingToGive fs group amount := by
  constructor
  · intro h
    obtain ⟨result, m, hcall, hsound⟩ := h
    obtain ⟨rfl, ⟨blocks, rfl, hlen⟩ | ⟨rfl, hex⟩⟩ := allocateFrom_eq_ok hbs hg hcall
    · -- a block of the result would be free before the call and not after it, on the same device
      obtain ⟨b, hb⟩ := List.exists_mem_of_length_pos (hlen ▸ hpos)
      obtain ⟨hfree, hused⟩ := hsound.2.2.1 b hb
      exact absurd hfree hused
    · exact ⟨hex, hsound.1⟩
  · intro h
    exact ⟨none, fs.device, allocateFrom_of_exhausted hbs hg h.1, h.2, fun _ _ _ _ => rfl⟩

/-- A run of calls is sound exactly when no call has anything to give: the search
takes used blocks for free ones and marks none. -/
theorem allocationsSound_iff {fs : Ext2} (hbs : Ext2Sized fs) {calls : List (Nat × Nat)}
    (hcalls : ∀ call ∈ calls, call.1 < fs.numberOfBlockGroups ∧ 0 < call.2) :
    AllocationsSound fs calls ↔ ∀ call ∈ calls, NothingToGive fs call.1 call.2 := by
  induction calls with
  | nil => simp [AllocationsSound]
  | cons call calls ih =>
    obtain ⟨group, amount⟩ := call
    obtain ⟨hg, hpos⟩ := hcalls _ (List.mem_cons_self)
    have hrest := ih (fun call hc => hcalls call (List.mem_cons_of_mem _ hc))
    rw [List.forall_mem_cons, ← hrest, ← allocateFrom_sound_iff hbs hg hpos, AllocationsSound]
    constructor
    · intro h
      obtain ⟨result, m, hcall, hsound, hnext⟩ := h
      obtain ⟨rfl, -⟩ := allocateFrom_eq_ok hbs hg hcall
      exact ⟨⟨result, fs.device, hcall, hsound⟩, hnext⟩
    · intro h
      obtain ⟨⟨result, m, hcall, hsound⟩, hnext⟩ := h
      obtain ⟨rfl, -⟩ := allocateFrom_eq_ok hbs hg hcall
      exact ⟨result, fs.device, hcall, hsound, hnext⟩

theorem sampleFs_sized : Ext2Sized (sampleFs []) := ⟨0, by decide, by decide⟩

theorem allocationsSound_iff_sample : AllocationsSound (sampleFs []) [(0, 7), (0, 1)] ↔
    ∀ call ∈ [(0, 7), (0, 1)], NothingToGive (sampleFs []) call.1 call.2 :=
  allocationsSound_iff sampleFs_sized (by decide)

/-- 57 blocks of the sample image are free, and a call for 7 fails all the same:
it hands out blocks in use and leaves the bitmap as it is. -/
theorem not_allocationsSound_sample : Ext2Sized (sampleFs []) ∧ 0 < (sampleFs []).numberOfBlockGroups ∧
    ¬ AllocationsSound (sampleFs []) [(0, 7)] := by
  refine ⟨sampleFs_sized, by decide, fun h => ?_⟩
  obtain ⟨result, m, hcall, hsound, -⟩ := h
  have hg : 0 < (sampleFs []).numberOfBlockGroups := by decide
  have hfew := ((allocateFrom_sound_iff sampleFs_sized hg (by decide)).mp ⟨result, m, hcall, hsound⟩).2
  revert hfew
  decide

end FuseExt2
