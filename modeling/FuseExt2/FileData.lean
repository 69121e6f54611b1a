import FuseExt2.BlockMap

/-! Reading and writing the data of an inode: the two copy loops, and what they
copy where the block lookups succeed. -/

namespace FuseExt2

open ByteStore

/-- `ext2_add_clusters` and `ext2_remove_clusters`, which the resize function
calls and no file of the repository defines. They act on the device. -/
structure ClusterCalls where
  addClusters : Memory → Nat → Nat → Except Fault Unit × Memory
  removeClusters : Memory → Nat → Nat → Except Fault Unit × Memory

def keepClusters : ClusterCalls where
  addClusters device _ _ := (.ok (), device)
  removeClusters device _ _ := (.ok (), device)

/-- `ceil((double) size / (double) block_size)`. -/
def sizeInClusters (fs : Ext2) (size : Nat) : Nat := (size + fs.blockSize - 1) / fs.blockSize

def ext2ResizeInodeData (calls : ClusterCalls) (fs : Ext2) (inode newSize : Nat) :
    Except Fault Unit × Memory :=
  let newSizeInClusters := sizeInClusters fs newSize
  let currSizeInClusters := sizeInClusters fs (inodeDataSize fs.device inode)
  if 2 ^ 31 ≤ newSizeInClusters ∨ 2 ^ 31 ≤ currSizeInClusters then (.error .overflow, fs.device)
  else if newSizeInClusters = currSizeInClusters then (.ok (), fs.device)
  else
    let resized :=
      if newSizeInClusters > currSizeInClusters then
        calls.addClusters fs.device inode (newSizeInClusters - currSizeInClusters)
      else calls.removeClusters fs.device inode (currSizeInClusters - newSizeInClusters)
    match resized with
    | (.error fault, device) => (.error fault, device)
    | (.ok (), device) => (.ok (), putLe32 device (inode + 4) newSize)

/-- `block_to_copy = ext2_get_inode_block_entry(self, inode, blocks_offset);
data_to_copy = ext2_get_block(self, block_to_copy);` -/
def dataToCopy (fs : Ext2) (inode blocksOffset : Nat) : Except Fault Nat :=
  match ext2GetInodeBlockEntry fs inode (blocksOffset % 2 ^ 32) with
  | .error fault => .error fault
  | .ok blockToCopy => deref (ext2GetBlock fs blockToCopy)

def readLoop (fs : Ext2) (inode size : Nat) :
    Nat → Nat → Nat → Nat → Nat → Memory → Except Fault Memory
  | 0, _, _, _, _, _ => .error .diverges
  | fuel + 1, blocksOffset, sizeCopied, data, blockSizeToCopy, buff =>
    let buff := memcpy buff sizeCopied fs.device data blockSizeToCopy
    let sizeCopied := sizeCopied + blockSizeToCopy
    if sizeCopied < size then
      match dataToCopy fs inode (blocksOffset + 1) with
      | .error fault => .error fault
      | .ok data =>
        let blockSizeToCopy :=
          if sizeCopied + fs.blockSize ≤ size then fs.blockSize else size - sizeCopied
        readLoop fs inode size fuel (blocksOffset + 1) sizeCopied data blockSizeToCopy buff
    else .ok buff

/-- Each turn of the loop copies a byte at least, so `size + 1` turns suffice. -/
def ext2ReadInodeData (fs : Ext2) (inode offset size : Nat) (buff : Memory) : Except Fault Memory :=
  if fs.blockSize = 0 then .error .divideByZero
  else
    let blocksOffset := offset / fs.blockSize
    let offsetInsideBlock := offset - blocksOffset * fs.blockSize
    match dataToCopy fs inode blocksOffset with
    | .error fault => .error fault
    | .ok block =>
      let blockSizeToCopy := fs.blockSize - offsetInsideBlock
      let blockSizeToCopy := if blockSizeToCopy > size then size else blockSizeToCopy
      readLoop fs inode size (size + 1) blocksOffset 0 (block + offsetInsideBlock) blockSizeToCopy buff

/-- A fault leaves the device as the stores before it made it. -/
def writeLoop (fs : Ext2) (inode : Nat) (buff : Memory) (sizeToCopy : Nat) :
    Nat → Nat → Nat → Nat → Nat → Memory → Except Fault Unit × Memory
  | 0, _, _, _, _, device => (.error .diverges, device)
  | fuel + 1, blocksOffset, sizeCopied, data, blockSizeToCopy, device =>
    let device := memcpy device data buff sizeCopied blockSizeToCopy
    let sizeCopied := sizeCopied + blockSizeToCopy
    if sizeCopied < sizeToCopy then
      match dataToCopy (fs.withDevice device) inode (blocksOffset + 1) with
      | .error fault => (.error fault, device)
      | .ok data =>
        let blockSizeToCopy :=
          if sizeCopied + fs.blockSize ≤ sizeToCopy then fs.blockSize else sizeToCopy - sizeCopied
        writeLoop fs inode buff sizeToCopy fuel (blocksOffset + 1) sizeCopied data blockSizeToCopy device
    else (.ok (), device)

/-- The quotient in doubles is the exact one for every offset below 2^53. -/
def ext2WriteInodeData (calls : ClusterCalls) (fs : Ext2) (inode : Nat) (buff : Memory)
    (offset sizeToCopy : Nat) : Except Fault Unit × Memory :=
  if fs.blockSize = 0 then (.error .divideByZero, fs.device)
  else
    let blocksOffset := offset / fs.blockSize
    let offsetInsideBlock := offset - blocksOffset * fs.blockSize
    let resized :=
      if offset + sizeToCopy > inodeDataSize fs.device inode then
        ext2ResizeInodeData calls fs inode (offset + sizeToCopy)
      else (.ok (), fs.device)
    match resized with
    | (.error fault, device) => (.error fault, device)
    | (.ok (), device) =>
      match dataToCopy (fs.withDevice device) inode blocksOffset with
      | .error fault => (.error fault, device)
      | .ok block =>
        let blockSizeToCopy := fs.blockSize - offsetInsideBlock
        let blockSizeToCopy := if blockSizeToCopy > sizeToCopy then sizeToCopy else blockSizeToCopy
        writeLoop fs inode buff sizeToCopy (sizeToCopy + 1) blocksOffset 0 (block + offsetInsideBlock)
          blockSizeToCopy device

theorem lt_sizeInClusters_iff {fs : Ext2} (hbs : 0 < fs.blockSize) {i size : Nat} :
    i < sizeInClusters fs size ↔ i * fs.blockSize < size := by
  rw [sizeInClusters, Nat.lt_iff_add_one_le, Nat.le_div_iff_mul_le hbs, Nat.succ_mul]
  omega

theorem div_lt_sizeInClusters {fs : Ext2} (hbs : 0 < fs.blockSize) {pos size : Nat} (h : pos < size) :
    pos / fs.blockSize < sizeInClusters fs size :=
  (lt_sizeInClusters_iff hbs).mpr (lt_of_le_of_lt (Nat.div_mul_le_self _ _) h)

/-- The first block of a range is inside it too, unless the range is empty. -/
theorem lookup_lt_end {fs : Ext2} {offset size i : Nat} (hpos : 0 < size)
    (h : i = offset / fs.blockSize ∨ i * fs.blockSize < offset + size) : i * fs.blockSize < offset + size := by
  rcases h with rfl | h
  · exact lt_of_le_of_lt (Nat.div_mul_le_self offset fs.blockSize) (Nat.lt_add_of_pos_right hpos)
  · exact h

/-! The position of a file byte on the device, for given block addresses. -/

def byteAddress (fs : Ext2) (block : Nat → Nat) (pos : Nat) : Nat :=
  block (pos / fs.blockSize) + pos % fs.blockSize

theorem byteAddress_eq {fs : Ext2} {block : Nat → Nat} {b pos : Nat} (hl : b * fs.blockSize ≤ pos)
    (hu : pos < b * fs.blockSize + fs.blockSize) :
    byteAddress fs block pos = block b + (pos - b * fs.blockSize) := by
  have hb : pos / fs.blockSize = b := by
    rw [Nat.div_eq_iff (by omega)]
    omega
  rw [byteAddress, Nat.mod_eq_sub_div_mul, hb]

theorem eq_of_byteAddress_eq {fs : Ext2} {block : Nat → Nat} {pos pos' : Nat}
    (hd : pos / fs.blockSize = pos' / fs.blockSize)
    (he : byteAddress fs block pos = byteAddress fs block pos') : pos = pos' := by
  have hmod : pos % fs.blockSize = pos' % fs.blockSize := by
    simp only [byteAddress, hd] at he
    omega
  rw [← Nat.div_add_mod pos fs.blockSize, ← Nat.div_add_mod pos' fs.blockSize, hd, hmod]

theorem memcpy_block {fs : Ext2} {block : Nat → Nat} {device buff : Memory} {b offset n chunk : Nat}
    (hl : b * fs.blockSize ≤ offset + n) (hu : offset + n + chunk ≤ b * fs.blockSize + fs.blockSize) :
    memcpy (storeSeq device (fun j => byteAddress fs block (offset + j)) buff n)
        (block b + (offset + n - b * fs.blockSize)) buff n chunk =
      storeSeq device (fun j => byteAddress fs block (offset + j)) buff (n + chunk) := by
  rw [memcpy_eq_storeSeq, storeSeq_add]
  apply storeSeq_congr
  · intro j hj
    rw [byteAddress_eq (b := b) (by omega) (by omega)]
    omega
  · intro j _
    rfl

/-! The state of a copy loop. -/

/-- `n` of the bytes from `offset` on are copied, and the next is in block `b`. -/
structure ChunkAt (fs : Ext2) (offset size b n chunk : Nat) : Prop where
  lower : b * fs.blockSize ≤ offset + n
  upper : offset + n < b * fs.blockSize + fs.blockSize
  le : n ≤ size
  chunk_eq : chunk = min (b * fs.blockSize + fs.blockSize - (offset + n)) (size - n)

theorem ChunkAt.first {fs : Ext2} (hbs : 0 < fs.blockSize) (offset size : Nat) :
    ChunkAt fs offset size (offset / fs.blockSize) 0
      (if fs.blockSize - (offset - offset / fs.blockSize * fs.blockSize) > size then size
        else fs.blockSize - (offset - offset / fs.blockSize * fs.blockSize)) where
  lower := Nat.div_mul_le_self _ _
  upper := Nat.lt_div_mul_add hbs
  le := Nat.zero_le size
  chunk_eq := by
    have hl := Nat.div_mul_le_self offset fs.blockSize
    have hu : offset < offset / fs.blockSize * fs.blockSize + fs.blockSize := Nat.lt_div_mul_add hbs
    split <;> omega

section Chunk

variable {fs : Ext2} {offset size b n chunk : Nat}

theorem ChunkAt.boundary (h : ChunkAt fs offset size b n chunk) (hlt : n + chunk < size) :
    offset + (n + chunk) = (b + 1) * fs.blockSize := by
  obtain ⟨hl, hu, hn, hc⟩ := h
  rw [Nat.succ_mul]
  omega

theorem ChunkAt.next (h : ChunkAt fs offset size b n chunk) (hlt : n + chunk < size) :
    ChunkAt fs offset size (b + 1) (n + chunk)
      (if n + chunk + fs.blockSize ≤ size then fs.blockSize else size - (n + chunk)) := by
  have hb := h.boundary hlt
  have hl := h.lower
  have hu := h.upper
  refine ⟨hb.ge, by omega, hlt.le, ?_⟩
  rw [← hb]
  split <;> omega

theorem ChunkAt.end (h : ChunkAt fs offset size b n chunk) (hge : ¬ n + chunk < size) : n + chunk = size := by
  obtain ⟨hl, hu, hn, hc⟩ := h
  omega

theorem ChunkAt.end_le (h : ChunkAt fs offset size b n chunk) :
    offset + n + chunk ≤ b * fs.blockSize + fs.blockSize := by
  have hu := h.upper
  have hc := h.chunk_eq
  omega

theorem ChunkAt.pos (h : ChunkAt fs offset size b n chunk) (hlt : n < size) : 0 < chunk := by
  obtain ⟨hl, hu, hn, hc⟩ := h
  omega

end Chunk

/-- The write loop stores the bytes one after the other at their positions, up to
the first block, `stop`, whose lookup fails. -/
theorem writeLoop_eq {fs : Ext2} {inode offset size stop : Nat} {buff m : Memory} {block : Nat → Nat}
    {fault : Fault}
    (hok : ∀ i, offset / fs.blockSize < i → i < stop → i * fs.blockSize < offset + size →
      dataToCopy (fs.withDevice (storeSeq m (fun j => byteAddress fs block (offset + j)) buff
        (i * fs.blockSize - offset))) inode i = .ok (block i))
    (hstop : stop * fs.blockSize < offset + size →
      dataToCopy (fs.withDevice (storeSeq m (fun j => byteAddress fs block (offset + j)) buff
        (stop * fs.blockSize - offset))) inode stop = .error fault)
    (fuel : Nat) {b n chunk : Nat} (hc : ChunkAt fs offset size b n chunk) (hfuel : size - n < fuel) (hlt : b < stop)
    (hb : offset / fs.blockSize ≤ b) :
    writeLoop fs inode buff size fuel b n (block b + (offset + n - b * fs.blockSize)) chunk
        (storeSeq m (fun j => byteAddress fs block (offset + j)) buff n) =
      (if stop * fs.blockSize < offset + size then .error fault else .ok (),
        storeSeq m (fun j => byteAddress fs block (offset + j)) buff
          (min size (stop * fs.blockSize - offset))) := by
  induction fuel generalizing b n chunk with
  | zero => omega
  | succ fuel ih =>
    have hstep : b * fs.blockSize + fs.blockSize ≤ stop * fs.blockSize := by
      rw [← Nat.succ_mul]
      exact Nat.mul_le_mul_right _ hlt
    have hupper := hc.end_le
    rw [writeLoop]
    simp only [memcpy_block hc.lower hupper]
    by_cases hlast : n + chunk < size
    · -- the block is finished: the next byte is the first of block `b + 1`
      have hnext := hc.boundary hlast
      have hpos : n + chunk = (b + 1) * fs.blockSize - offset := by omega
      have hchunk := hc.pos (by omega)
      rw [if_pos hlast]
      by_cases hb' : b + 1 < stop
      · have hd := hok (b + 1) (by omega) hb' (by omega)
        rw [← hpos] at hd
        simp only [hd]
        have hz : block (b + 1) = block (b + 1) + (offset + (n + chunk) - (b + 1) * fs.blockSize) := by
          omega
        rw [hz]
        exact ih (hc.next hlast) (by omega) hb' (by omega)
      · obtain rfl : b + 1 = stop := by omega
        have hd := hstop (by omega)
        rw [← hpos] at hd ⊢
        simp only [hd]
        rw [if_pos (by omega), Nat.min_eq_right (by omega)]
    · have hall := hc.end hlast
      rw [if_neg hlast, if_neg (by omega), Nat.min_eq_left (by omega), hall]

/-- Growing to `newSize` needs no other number of blocks, so resizing does nothing. -/
def KeepsClusters (fs : Ext2) (inode newSize : Nat) : Prop :=
  newSize ≤ inodeDataSize fs.device inode ∨
    sizeInClusters fs newSize = sizeInClusters fs (inodeDataSize fs.device inode) ∧
      sizeInClusters fs newSize < 2 ^ 31

theorem KeepsClusters.resize {fs : Ext2} {inode newSize : Nat} (h : KeepsClusters fs inode newSize)
    (calls : ClusterCalls) :
    (if newSize > inodeDataSize fs.device inode then ext2ResizeInodeData calls fs inode newSize
      else (.ok (), fs.device)) = (.ok (), fs.device) := by
  rcases h with hle | ⟨heq, hlt⟩
  · rw [if_neg (Nat.not_lt.mpr hle)]
  · have hno : ¬ (2 ^ 31 ≤ sizeInClusters fs newSize ∨
        2 ^ 31 ≤ sizeInClusters fs (inodeDataSize fs.device inode)) := by
      rw [← heq]
      omega
    have hsame : ext2ResizeInodeData calls fs inode newSize = (.ok (), fs.device) := by
      rw [ext2ResizeInodeData]
      simp only [if_neg hno, if_pos heq]
    rw [hsame, ite_self]

/-- Without a resize, a write stores its bytes at their positions, up to the first
block whose lookup fails. -/
theorem ext2WriteInodeData_eq {calls : ClusterCalls} {fs : Ext2} {inode offset size stop : Nat}
    {buff : Memory} {block : Nat → Nat} {fault : Fault} (hbs : 0 < fs.blockSize)
    (hkeep : KeepsClusters fs inode (offset + size)) (hlt : offset / fs.blockSize < stop)
    (hok : ∀ i, offset / fs.blockSize ≤ i → i < stop → (i = offset / fs.blockSize ∨
        i * fs.blockSize < offset + size) →
      dataToCopy (fs.withDevice (storeSeq fs.device (fun j => byteAddress fs block (offset + j)) buff
        (i * fs.blockSize - offset))) inode i = .ok (block i))
    (hstop : stop * fs.blockSize < offset + size →
      dataToCopy (fs.withDevice (storeSeq fs.device (fun j => byteAddress fs block (offset + j)) buff
        (stop * fs.blockSize - offset))) inode stop = .error fault) :
    ext2WriteInodeData calls fs inode buff offset size =
      (if stop * fs.blockSize < offset + size then .error fault else .ok (),
        storeSeq fs.device (fun j => byteAddress fs block (offset + j)) buff
          (min size (stop * fs.blockSize - offset))) := by
  have hl : offset / fs.blockSize * fs.blockSize ≤ offset := Nat.div_mul_le_self _ _
  have hfirst := hok _ le_rfl hlt (Or.inl rfl)
  rw [Nat.sub_eq_zero_of_le hl, storeSeq_zero] at hfirst
  have hloop := writeLoop_eq (fun i h1 h2 h3 => hok i h1.le h2 (Or.inr h3)) hstop (size + 1)
    (ChunkAt.first hbs offset size) (by omega) hlt le_rfl
  rw [storeSeq_zero] at hloop
  rw [ext2WriteInodeData, if_neg (by omega)]
  simp only [hkeep.resize calls, hfirst]
  exact hloop

theorem ext2WriteInodeData_eq_ok {calls : ClusterCalls} {fs : Ext2} {inode offset size : Nat}
    {buff : Memory} (block : Nat → Nat) (hbs : 0 < fs.blockSize) (hpos : 0 < size)
    (hkeep : KeepsClusters fs inode (offset + size))
    (hok : ∀ i n, offset / fs.blockSize ≤ i → i * fs.blockSize < offset + size → n ≤ size →
      dataToCopy (fs.withDevice (storeSeq fs.device (fun j => byteAddress fs block (offset + j)) buff n))
        inode i = .ok (block i)) :
    ext2WriteInodeData calls fs inode buff offset size =
      (.ok (), storeSeq fs.device (fun j => byteAddress fs block (offset + j)) buff size) := by
  have hl : offset / fs.blockSize * fs.blockSize ≤ offset := Nat.div_mul_le_self _ _
  have hu : offset + size < (offset + size) / fs.blockSize * fs.blockSize + fs.blockSize :=
    Nat.lt_div_mul_add hbs
  have hend : ¬ ((offset + size) / fs.blockSize + 1) * fs.blockSize < offset + size := by
    rw [Nat.succ_mul]
    omega
  have hmono := Nat.div_le_div_right (c := fs.blockSize) (Nat.le_add_right offset size)
  have hstop : ((offset + size) / fs.blockSize + 1) * fs.blockSize < offset + size →
      dataToCopy (fs.withDevice (storeSeq fs.device (fun j => byteAddress fs block (offset + j)) buff
        (((offset + size) / fs.blockSize + 1) * fs.blockSize - offset))) inode
        ((offset + size) / fs.blockSize + 1) = .error .diverges := fun h => absurd h hend
  rw [ext2WriteInodeData_eq hbs hkeep (by omega)
    (fun i h1 _ h3 => hok i _ h1 (by rcases h3 with rfl | h3 <;> omega)
      (by rcases h3 with rfl | h3 <;> omega)) hstop,
    if_neg hend, Nat.min_eq_left (by omega)]

theorem ext2WriteInodeData_of_eqOn (calls : ClusterCalls) {fs : Ext2} {inode offset size : Nat} {kept : Set Nat}
    (block : Nat → Nat) (hbs : 0 < fs.blockSize) (hpos : 0 < size)
    (hlookup : ∀ m, Set.EqOn fs.device m kept → ∀ i, offset / fs.blockSize ≤ i → i * fs.blockSize < offset + size →
      dataToCopy (fs.withDevice m) inode i = .ok (block i))
    (hout : ∀ j < size, byteAddress fs block (offset + j) ∉ kept)
    {m : Memory} (hm : Set.EqOn fs.device m kept) (hkeep : KeepsClusters (fs.withDevice m) inode (offset + size))
    (buff : Memory) :
    ext2WriteInodeData calls (fs.withDevice m) inode buff offset size =
        (.ok (), storeSeq m (fun j => byteAddress fs block (offset + j)) buff size) ∧
      Set.EqOn fs.device (storeSeq m (fun j => byteAddress fs block (offset + j)) buff size) kept := by
  have hstores : ∀ n ≤ size,
      Set.EqOn fs.device (storeSeq m (fun j => byteAddress fs block (offset + j)) buff n) kept := by
    intro n hn a ha
    rw [hm ha, storeSeq_of_ne]
    rintro j hj rfl
    exact hout j (by omega) ha
  have hbs' : 0 < (fs.withDevice m).blockSize := hbs
  exact ⟨ext2WriteInodeData_eq_ok block hbs' hpos hkeep (fun i n hi hlt hn => hlookup _ (hstores n hn) i hi hlt),
    hstores size le_rfl⟩

theorem readLoop_eq {fs : Ext2} {inode offset size : Nat} (buff : Memory) {block : Nat → Nat}
    (hok : ∀ i, offset / fs.blockSize < i → i * fs.blockSize < offset + size →
      dataToCopy fs inode i = .ok (block i))
    (fuel : Nat) {b n chunk : Nat} (hc : ChunkAt fs offset size b n chunk) (hfuel : size - n < fuel)
    (hb : offset / fs.blockSize ≤ b) :
    readLoop fs inode size fuel b n (block b + (offset + n - b * fs.blockSize)) chunk
        (memcpy buff 0 (fun j => fs.device (byteAddress fs block (offset + j))) 0 n) =
      .ok (memcpy buff 0 (fun j => fs.device (byteAddress fs block (offset + j))) 0 size) := by
  induction fuel generalizing b n chunk with
  | zero => omega
  | succ fuel ih =>
    have hlower := hc.lower
    have hupper := hc.end_le
    have hcopy : memcpy (memcpy buff 0 (fun j => fs.device (byteAddress fs block (offset + j))) 0 n) n
        fs.device (block b + (offset + n - b * fs.blockSize)) chunk =
        memcpy buff 0 (fun j => fs.device (byteAddress fs block (offset + j))) 0 (n + chunk) := by
      simp only [memcpy_eq_storeSeq]
      rw [storeSeq_add]
      apply storeSeq_congr
      · intro j _
        omega
      · intro j hj
        rw [byteAddress_eq (b := b) (by omega) (by omega)]
        congr 1
        omega
    rw [readLoop]
    simp only [hcopy]
    by_cases hlast : n + chunk < size
    · have hnext := hc.boundary hlast
      have hchunk := hc.pos (by omega)
      rw [if_pos hlast]
      simp only [hok (b + 1) (by omega) (by omega)]
      have hz : block (b + 1) = block (b + 1) + (offset + (n + chunk) - (b + 1) * fs.blockSize) := by
        omega
      rw [hz]
      exact ih (hc.next hlast) (by omega) (by omega)
    · rw [if_neg hlast, hc.end hlast]

theorem ext2ReadInodeData_eq {fs : Ext2} {inode offset size : Nat} (buff : Memory)
    (block : Nat → Nat) (hbs : 0 < fs.blockSize)
    (hok : ∀ i, offset / fs.blockSize ≤ i → (i = offset / fs.blockSize ∨ i * fs.blockSize < offset + size) →
      dataToCopy fs inode i = .ok (block i)) :
    ext2ReadInodeData fs inode offset size buff =
      .ok (memcpy buff 0 (fun j => fs.device (byteAddress fs block (offset + j))) 0 size) := by
  have hfirst := hok _ le_rfl (Or.inl rfl)
  have hloop := readLoop_eq buff (fun i h1 h2 => hok i h1.le (Or.inr h2)) (size + 1)
    (ChunkAt.first hbs offset size) (by omega) le_rfl
  rw [memcpy_zero] at hloop
  rw [ext2ReadInodeData, if_neg (by omega)]
  simp only [hfirst]
  exact hloop

theorem ext2ReadInodeData_eq_ok {fs : Ext2} {inode offset size : Nat} (buff : Memory)
    (block : Nat → Nat) (hbs : 0 < fs.blockSize) (hpos : 0 < size)
    (hok : ∀ i, offset / fs.blockSize ≤ i → i * fs.blockSize < offset + size →
      dataToCopy fs inode i = .ok (block i)) :
    ext2ReadInodeData fs inode offset size buff =
      .ok (memcpy buff 0 (fun j => fs.device (byteAddress fs block (offset + j))) 0 size) := by
  exact ext2ReadInodeData_eq buff block hbs fun i hi h => hok i hi (lookup_lt_end hpos h)

end FuseExt2
