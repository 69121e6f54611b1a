import FuseExt2.LastWrite

/-! What the two copy loops access, in order: the block indices they look up, and
for each byte its position in the file, its index in the buffer and its address. -/

namespace FuseExt2

open ByteStore

/-- `lookup` has the argument before it is converted to 32 bits. -/
inductive Access
  | lookup (index : Nat)
  | copy (position index address : Nat)

def Access.lookup? : Access → Option Nat
  | .lookup index => some index
  | .copy _ _ _ => none

def Access.copy? : Access → Option (Nat × Nat × Nat)
  | .lookup _ => none
  | .copy position index address => some (position, index, address)

def lookups (accesses : List Access) : List Nat := accesses.filterMap Access.lookup?

def copies (accesses : List Access) : List (Nat × Nat × Nat) := accesses.filterMap Access.copy?

def positions (accesses : List Access) : List Nat := (copies accesses).map Prod.fst

def chunkAccesses (position index address n : Nat) : List Access :=
  (List.range n).map (fun k => .copy (position + k) (index + k) (address + k))

/-- The accesses of `readLoop`; `inside` is where the chunk starts in its block. -/
def readLoopAccesses (fs : Ext2) (inode size : Nat) : Nat → Nat → Nat → Nat → Nat → Nat → List Access
  | 0, _, _, _, _, _ => []
  | fuel + 1, blocksOffset, inside, sizeCopied, data, blockSizeToCopy =>
    chunkAccesses (blocksOffset * fs.blockSize + inside) sizeCopied data blockSizeToCopy ++
      let sizeCopied := sizeCopied + blockSizeToCopy
      if sizeCopied < size then
        .lookup (blocksOffset + 1) :: match dataToCopy fs inode (blocksOffset + 1) with
          | .error _ => []
          | .ok data =>
            let blockSizeToCopy :=
              if sizeCopied + fs.blockSize ≤ size then fs.blockSize else size - sizeCopied
            readLoopAccesses fs inode size fuel (blocksOffset + 1) 0 sizeCopied data blockSizeToCopy
      else []

def readAccesses (fs : Ext2) (inode offset size : Nat) : List Access :=
  if fs.blockSize = 0 then []
  else
    let blocksOffset := offset / fs.blockSize
    let offsetInsideBlock := offset - blocksOffset * fs.blockSize
    .lookup blocksOffset :: match dataToCopy fs inode blocksOffset with
      | .error _ => []
      | .ok block =>
        let blockSizeToCopy := fs.blockSize - offsetInsideBlock
        let blockSizeToCopy := if blockSizeToCopy > size then size else blockSizeToCopy
        readLoopAccesses fs inode size (size + 1) blocksOffset offsetInsideBlock 0 (block + offsetInsideBlock)
          blockSizeToCopy

/-- The accesses of `writeLoop`, on the device as the loop has written it. -/
def writeLoopAccesses (fs : Ext2) (inode : Nat) (buff : Memory) (sizeToCopy : Nat) :
    Nat → Nat → Nat → Nat → Nat → Nat → Memory → List Access
  | 0, _, _, _, _, _, _ => []
  | fuel + 1, blocksOffset, inside, sizeCopied, data, blockSizeToCopy, device =>
    let device := memcpy device data buff sizeCopied blockSizeToCopy
    chunkAccesses (blocksOffset * fs.blockSize + inside) sizeCopied data blockSizeToCopy ++
      let sizeCopied := sizeCopied + blockSizeToCopy
      if sizeCopied < sizeToCopy then
        .lookup (blocksOffset + 1) :: match dataToCopy (fs.withDevice device) inode (blocksOffset + 1) with
          | .error _ => []
          | .ok data =>
            let blockSizeToCopy :=
              if sizeCopied + fs.blockSize ≤ sizeToCopy then fs.blockSize else sizeToCopy - sizeCopied
            writeLoopAccesses fs inode buff sizeToCopy fuel (blocksOffset + 1) 0 sizeCopied data blockSizeToCopy
              device
      else []

/-- The device after the resize that a write may start with. -/
def resizedFor (calls : ClusterCalls) (fs : Ext2) (inode newSize : Nat) : Except Fault Unit × Memory :=
  if newSize > inodeDataSize fs.device inode then ext2ResizeInodeData calls fs inode newSize
  else (.ok (), fs.device)

def writeAccesses (calls : ClusterCalls) (fs : Ext2) (inode : Nat) (buff : Memory) (offset sizeToCopy : Nat) :
    List Access :=
  if fs.blockSize = 0 then []
  else
    let blocksOffset := offset / fs.blockSize
    let offsetInsideBlock := offset - blocksOffset * fs.blockSize
    match resizedFor calls fs inode (offset + sizeToCopy) with
    | (.error _, _) => []
    | (.ok (), device) =>
      .lookup blocksOffset :: match dataToCopy (fs.withDevice device) inode blocksOffset with
        | .error _ => []
        | .ok block =>
          let blockSizeToCopy := fs.blockSize - offsetInsideBlock
          let blockSizeToCopy := if blockSizeToCopy > sizeToCopy then sizeToCopy else blockSizeToCopy
          writeLoopAccesses fs inode buff sizeToCopy (sizeToCopy + 1) blocksOffset offsetInsideBlock 0
            (block + offsetInsideBlock) blockSizeToCopy device

/-! The buffer, or the device, is what the copies make it. -/

def loadCopy (source buff : Memory) (copy : Nat × Nat × Nat) : Memory :=
  Function.update buff copy.2.1 (source copy.2.2)

def storeCopy (buff device : Memory) (copy : Nat × Nat × Nat) : Memory :=
  Function.update device copy.2.2 (buff copy.2.1)

theorem copies_chunkAccesses (position index address n : Nat) :
    copies (chunkAccesses position index address n) =
      (List.range n).map (fun k => (position + k, index + k, address + k)) := by
  have hcopy : (Access.copy? ∘ fun k => Access.copy (position + k) (index + k) (address + k)) =
      some ∘ fun k => (position + k, index + k, address + k) := rfl
  rw [copies, chunkAccesses, List.filterMap_map, hcopy, List.filterMap_eq_map]

theorem lookups_chunkAccesses (position index address n : Nat) :
    lookups (chunkAccesses position index address n) = [] := by
  rw [lookups, chunkAccesses, List.filterMap_map]
  exact List.filterMap_eq_nil_iff.mpr (fun k _ => rfl)

theorem copies_append (l l' : List Access) : copies (l ++ l') = copies l ++ copies l' := List.filterMap_append

theorem lookups_append (l l' : List Access) : lookups (l ++ l') = lookups l ++ lookups l' := List.filterMap_append

@[simp] theorem copies_nil : copies [] = [] := rfl

@[simp] theorem lookups_nil : lookups [] = [] := rfl

@[simp] theorem copies_lookup_cons (index : Nat) (l : List Access) : copies (.lookup index :: l) = copies l := rfl

@[simp] theorem lookups_lookup_cons (index : Nat) (l : List Access) :
    lookups (.lookup index :: l) = index :: lookups l := rfl

theorem foldl_loadCopy_chunk (source buff : Memory) (position index address n : Nat) :
    (copies (chunkAccesses position index address n)).foldl (loadCopy source) buff =
      memcpy buff index source address n := by
  rw [copies_chunkAccesses, List.foldl_map, memcpy_eq_storeSeq]
  exact foldl_update_range buff _ _ n

theorem foldl_storeCopy_chunk (buff device : Memory) (position index address n : Nat) :
    (copies (chunkAccesses position index address n)).foldl (storeCopy buff) device =
      memcpy device address buff index n := by
  rw [copies_chunkAccesses, List.foldl_map, memcpy_eq_storeSeq]
  exact foldl_update_range device _ _ n

theorem readLoop_eq_foldl {fs : Ext2} {inode size : Nat} (fuel : Nat) {b inside n data chunk : Nat}
    {buff out : Memory} (h : readLoop fs inode size fuel b n data chunk buff = .ok out) :
    out = (copies (readLoopAccesses fs inode size fuel b inside n data chunk)).foldl (loadCopy fs.device) buff := by
  induction fuel generalizing b inside n data chunk buff with
  | zero => cases h
  | succ fuel ih =>
    rw [readLoop] at h
    rw [readLoopAccesses, copies_append, List.foldl_append, foldl_loadCopy_chunk]
    by_cases hlt : n + chunk < size
    · simp only [if_pos hlt] at h ⊢
      cases hd : dataToCopy fs inode (b + 1) with
      | error fault =>
        rw [hd] at h
        cases h
      | ok data' =>
        rw [hd] at h
        exact ih h
    · simp only [if_neg hlt] at h ⊢
      exact (Except.ok.inj h).symm

theorem ext2ReadInodeData_eq_foldl {fs : Ext2} {inode offset size : Nat} {buff out : Memory}
    (h : ext2ReadInodeData fs inode offset size buff = .ok out) :
    out = (copies (readAccesses fs inode offset size)).foldl (loadCopy fs.device) buff := by
  rw [ext2ReadInodeData] at h
  rw [readAccesses]
  by_cases hbs : fs.blockSize = 0
  · rw [if_pos hbs] at h
    cases h
  · rw [if_neg hbs] at h ⊢
    cases hd : dataToCopy fs inode (offset / fs.blockSize) with
    | error fault =>
      simp only [hd] at h
      cases h
    | ok block =>
      simp only [hd, copies_lookup_cons] at h ⊢
      exact readLoop_eq_foldl _ h

theorem writeLoop_eq_foldl (fs : Ext2) (inode : Nat) (buff : Memory) (size fuel : Nat)
    (b inside n data chunk : Nat) (device : Memory) :
    (writeLoop fs inode buff size fuel b n data chunk device).2 =
      (copies (writeLoopAccesses fs inode buff size fuel b inside n data chunk device)).foldl (storeCopy buff)
        device := by
  induction fuel generalizing b inside n data chunk device with
  | zero => rfl
  | succ fuel ih =>
    rw [writeLoop, writeLoopAccesses]
    simp only [copies_append, List.foldl_append, foldl_storeCopy_chunk]
    by_cases hlt : n + chunk < size
    · simp only [if_pos hlt]
      cases hd : dataToCopy (fs.withDevice (memcpy device data buff n chunk)) inode (b + 1) with
      | error fault => rfl
      | ok data' => exact ih _ _ _ _ _ _
    · simp only [if_neg hlt, copies_nil, List.foldl_nil]

theorem ext2WriteInodeData_eq_foldl (calls : ClusterCalls) (fs : Ext2) (inode : Nat) (buff : Memory)
    (offset size : Nat) (hbs : 0 < fs.blockSize) :
    (ext2WriteInodeData calls fs inode buff offset size).2 =
      (copies (writeAccesses calls fs inode buff offset size)).foldl (storeCopy buff)
        (resizedFor calls fs inode (offset + size)).2 := by
  rw [ext2WriteInodeData, writeAccesses, if_neg hbs.ne', if_neg hbs.ne', ← resizedFor]
  obtain ⟨outcome, device⟩ := resizedFor calls fs inode (offset + size)
  cases outcome with
  | error fault => rfl
  | ok done =>
    cases hd : dataToCopy (fs.withDevice device) inode (offset / fs.blockSize) with
    | error fault => simp [hd]
    | ok block =>
      simp only [hd, copies_lookup_cons]
      exact writeLoop_eq_foldl fs inode buff size _ _ _ _ _ _ _

theorem foldl_storeCopy_range {accesses : List Access} {address : Nat → Nat} {k : Nat} (buff device : Memory)
    (h : (copies accesses).map Prod.snd = (List.range k).map (fun j => (j, address j))) :
    (copies accesses).foldl (storeCopy buff) device = storeSeq device address buff k := by
  have hsnd : (copies accesses).foldl (storeCopy buff) device = ((copies accesses).map Prod.snd).foldl
      (fun m store => Function.update m store.2 (buff store.1)) device := by
    rw [List.foldl_map]
    rfl
  rw [hsnd, h, List.foldl_map]
  exact foldl_update_range device address buff k

/-! A read whose lookups succeed. -/

/-- The lookups of a copy of `size` bytes succeed, the first one also if it is empty. -/
def LookupsFound (fs : Ext2) (inode offset size : Nat) : Prop :=
  ∀ i, offset / fs.blockSize ≤ i → (i = offset / fs.blockSize ∨ i * fs.blockSize < offset + size) →
    ∃ block, dataToCopy fs inode i = .ok block

def foundBlock (fs : Ext2) (inode i : Nat) : Nat := (dataToCopy fs inode i).toOption.getD 0

theorem LookupsFound.dataToCopy_eq {fs : Ext2} {inode offset size : Nat} (h : LookupsFound fs inode offset size)
    (i : Nat) (hl : offset / fs.blockSize ≤ i) (hu : i = offset / fs.blockSize ∨ i * fs.blockSize < offset + size) :
    dataToCopy fs inode i = .ok (foundBlock fs inode i) := by
  obtain ⟨block, hb⟩ := h i hl hu
  rw [foundBlock, hb]
  rfl

theorem readLoop_found {fs : Ext2} {inode offset size : Nat} (fuel : Nat) {b n data chunk : Nat} {buff out : Memory}
    (hc : ChunkAt fs offset size b n chunk) (h : readLoop fs inode size fuel b n data chunk buff = .ok out)
    {i : Nat} (hl : b < i) (hu : i * fs.blockSize < offset + size) : ∃ block, dataToCopy fs inode i = .ok block := by
  induction fuel generalizing b n data chunk buff with
  | zero => cases h
  | succ fuel ih =>
    rw [readLoop] at h
    by_cases hlt : n + chunk < size
    · simp only [if_pos hlt] at h
      cases hd : dataToCopy fs inode (b + 1) with
      | error fault =>
        rw [hd] at h
        cases h
      | ok block =>
        rw [hd] at h
        rcases Nat.eq_or_lt_of_le (Nat.succ_le_of_lt hl) with rfl | hl
        · exact ⟨block, hd⟩
        · exact ih (hc.next hlt) h hl
    · -- the last chunk ends in block `b`
      have hend := hc.end hlt
      have hle := Nat.mul_le_mul_right fs.blockSize (Nat.succ_le_of_lt hl)
      obtain ⟨hlower, hupper, hn, hchunk⟩ := hc
      rw [Nat.succ_mul] at hle
      omega

theorem exists_ext2ReadInodeData_iff {fs : Ext2} (hbs : 0 < fs.blockSize) (inode offset size : Nat) (buff : Memory) :
    (∃ out, ext2ReadInodeData fs inode offset size buff = .ok out) ↔ LookupsFound fs inode offset size := by
  constructor
  · intro h
    obtain ⟨out, h⟩ := h
    rw [ext2ReadInodeData, if_neg hbs.ne'] at h
    cases hd : dataToCopy fs inode (offset / fs.blockSize) with
    | error fault =>
      simp only [hd] at h
      cases h
    | ok block =>
      simp only [hd] at h
      intro i hl hu
      rcases Nat.eq_or_lt_of_le hl with rfl | hl
      · exact ⟨block, hd⟩
      · exact readLoop_found _ (ChunkAt.first hbs offset size) h hl (hu.resolve_left hl.ne')
  · intro h
    exact ⟨_, ext2ReadInodeData_eq buff (foundBlock fs inode) hbs h.dataToCopy_eq⟩

/-- Byte `index` of a read from `offset` on, for given block addresses. -/
def copyAt (fs : Ext2) (block : Nat → Nat) (offset index : Nat) : Nat × Nat × Nat :=
  (offset + index, index, byteAddress fs block (offset + index))

theorem copies_chunk {fs : Ext2} {offset size b inside n chunk : Nat} {block : Nat → Nat}
    (hc : ChunkAt fs offset size b n chunk) (hinside : b * fs.blockSize + inside = offset + n) :
    copies (chunkAccesses (b * fs.blockSize + inside) n (block b + inside) chunk) =
      (List.range' n chunk).map (copyAt fs block offset) := by
  rw [copies_chunkAccesses, List.range'_eq_map_range, List.map_map]
  apply List.map_congr_left
  intro k hk
  have hk := List.mem_range.mp hk
  obtain ⟨hl, hu, hn, hchunk⟩ := hc
  rw [Function.comp_apply, copyAt, byteAddress_eq (b := b) (by omega) (by omega)]
  have hposition : b * fs.blockSize + inside + k = offset + (n + k) := by omega
  have haddress : block b + inside + k = block b + (offset + (n + k) - b * fs.blockSize) := by omega
  rw [hposition, haddress]

theorem readLoopAccesses_eq {fs : Ext2} (inode : Nat) {offset size : Nat} {block : Nat → Nat}
    (hok : ∀ i, offset / fs.blockSize < i → i * fs.blockSize < offset + size → dataToCopy fs inode i = .ok (block i))
    (fuel : Nat) {b n chunk : Nat} (inside : Nat) (hc : ChunkAt fs offset size b n chunk) (hfuel : size - n < fuel)
    (hb : offset / fs.blockSize ≤ b) (hinside : b * fs.blockSize + inside = offset + n) :
    copies (readLoopAccesses fs inode size fuel b inside n (block b + inside) chunk) =
        (List.range' n (size - n)).map (copyAt fs block offset) ∧
      ∀ i ∈ lookups (readLoopAccesses fs inode size fuel b inside n (block b + inside) chunk),
        b < i ∧ i * fs.blockSize < offset + size := by
  induction fuel generalizing b inside n chunk with
  | zero => omega
  | succ fuel ih =>
    rw [readLoopAccesses, copies_append, lookups_append, copies_chunk hc hinside, lookups_chunkAccesses]
    by_cases hlt : n + chunk < size
    · have hstart := hc.boundary hlt
      have hpos := hc.pos (by omega)
      have hlook := hok (b + 1) (by omega) (by omega)
      obtain ⟨hcopies, hlookups⟩ := ih 0 (hc.next hlt) (by omega) (by omega) (by omega)
      simp only [if_pos hlt, hlook, copies_lookup_cons, lookups_lookup_cons, List.nil_append]
      simp only [Nat.add_zero] at hcopies hlookups
      constructor
      · rw [hcopies, ← List.map_append, List.range'_append_1]
        congr 2
        omega
      · intro i hi
        rcases List.mem_cons.mp hi with rfl | hi
        · omega
        · have := hlookups i hi
          omega
    · simp only [if_neg hlt, copies_nil, lookups_nil, List.append_nil]
      have hend := hc.end hlt
      refine ⟨?_, fun i hi => absurd hi List.not_mem_nil⟩
      congr 2
      omega

theorem readAccesses_eq {fs : Ext2} {inode offset size : Nat} (hbs : 0 < fs.blockSize) {block : Nat → Nat}
    (hok : ∀ i, offset / fs.blockSize ≤ i → (i = offset / fs.blockSize ∨ i * fs.blockSize < offset + size) →
      dataToCopy fs inode i = .ok (block i)) :
    copies (readAccesses fs inode offset size) = (List.range size).map (copyAt fs block offset) ∧
      ∀ i ∈ lookups (readAccesses fs inode offset size),
        offset / fs.blockSize ≤ i ∧ (i = offset / fs.blockSize ∨ i * fs.blockSize < offset + size) := by
  have hfirst := hok _ le_rfl (Or.inl rfl)
  have hl := Nat.div_mul_le_self offset fs.blockSize
  obtain ⟨hcopies, hlookups⟩ := readLoopAccesses_eq inode (fun i h1 h2 => hok i h1.le (Or.inr h2)) (size + 1)
    (offset - offset / fs.blockSize * fs.blockSize) (ChunkAt.first hbs offset size) (by omega) le_rfl (by omega)
  rw [readAccesses, if_neg hbs.ne']
  simp only [hfirst, copies_lookup_cons, lookups_lookup_cons]
  rw [List.range_eq_range']
  refine ⟨hcopies, fun i hi => ?_⟩
  rcases List.mem_cons.mp hi with rfl | hi
  · exact ⟨le_rfl, Or.inl rfl⟩
  · have := hlookups i hi
    exact ⟨this.1.le, Or.inr this.2⟩

/-! The positions that a read or a write touches, wherever its lookups lead. -/

theorem positions_append (l l' : List Access) : positions (l ++ l') = positions l ++ positions l' := by
  rw [positions, copies_append, List.map_append]
  rfl

@[simp] theorem positions_lookup_cons (index : Nat) (l : List Access) :
    positions (.lookup index :: l) = positions l := rfl

@[simp] theorem positions_nil : positions [] = [] := rfl

theorem positions_chunkAccesses (position index address n : Nat) :
    positions (chunkAccesses position index address n) = List.range' position n := by
  rw [positions, copies_chunkAccesses, List.map_map, List.range'_eq_map_range]
  rfl

theorem readLoopAccesses_positions {fs : Ext2} (inode : Nat) {offset size : Nat} (fuel : Nat) {b n chunk : Nat}
    (inside data : Nat) (hc : ChunkAt fs offset size b n chunk) (hinside : b * fs.blockSize + inside = offset + n) :
    ∃ k ≤ size - n, positions (readLoopAccesses fs inode size fuel b inside n data chunk) =
      List.range' (offset + n) k := by
  induction fuel generalizing b n chunk inside data with
  | zero => exact ⟨0, Nat.zero_le _, rfl⟩
  | succ fuel ih =>
    have hle : chunk ≤ size - n := by
      rw [hc.chunk_eq]
      exact Nat.min_le_right _ _
    rw [readLoopAccesses, positions_append, positions_chunkAccesses, hinside]
    by_cases hlt : n + chunk < size
    · simp only [if_pos hlt, positions_lookup_cons]
      cases hd : dataToCopy fs inode (b + 1) with
      | error fault => exact ⟨chunk, hle, by rw [positions_nil, List.append_nil]⟩
      | ok data' =>
        obtain ⟨k, hk, hpositions⟩ := ih 0 data' (hc.next hlt) (hc.boundary hlt).symm
        refine ⟨chunk + k, by omega, ?_⟩
        simp only [hpositions, ← Nat.add_assoc, List.range'_append_1]
    · simp only [if_neg hlt]
      exact ⟨chunk, hle, by rw [positions_nil, List.append_nil]⟩

/-- A read touches a first part of its range, in order. -/
theorem readAccesses_positions (fs : Ext2) (inode offset size : Nat) :
    ∃ k ≤ size, positions (readAccesses fs inode offset size) = List.range' offset k := by
  rw [readAccesses]
  by_cases hbs : fs.blockSize = 0
  · rw [if_pos hbs]
    exact ⟨0, Nat.zero_le _, rfl⟩
  · rw [if_neg hbs]
    simp only [positions_lookup_cons]
    cases dataToCopy fs inode (offset / fs.blockSize) with
    | error fault => exact ⟨0, Nat.zero_le size, rfl⟩
    | ok block =>
      exact readLoopAccesses_positions inode (size + 1) (offset - offset / fs.blockSize * fs.blockSize) _
        (ChunkAt.first (Nat.pos_of_ne_zero hbs) offset size) (Nat.add_sub_cancel' (Nat.div_mul_le_self _ _))

theorem writeLoopAccesses_positions {fs : Ext2} (inode : Nat) (buff : Memory) {offset size : Nat} (fuel : Nat)
    {b n chunk : Nat} (inside data : Nat) (device : Memory) (hc : ChunkAt fs offset size b n chunk)
    (hinside : b * fs.blockSize + inside = offset + n) :
    ∃ k ≤ size - n, positions (writeLoopAccesses fs inode buff size fuel b inside n data chunk device) =
        List.range' (offset + n) k ∧
      ((writeLoop fs inode buff size fuel b n data chunk device).1 = .ok () → k = size - n) := by
  induction fuel generalizing b n chunk inside data device with
  | zero => exact ⟨0, Nat.zero_le _, rfl, fun h => (by cases h)⟩
  | succ fuel ih =>
    have hle : chunk ≤ size - n := by
      rw [hc.chunk_eq]
      exact Nat.min_le_right _ _
    rw [writeLoopAccesses, positions_append, positions_chunkAccesses, hinside, writeLoop]
    by_cases hlt : n + chunk < size
    · simp only [if_pos hlt, positions_lookup_cons]
      cases hd : dataToCopy (fs.withDevice (memcpy device data buff n chunk)) inode (b + 1) with
      | error fault =>
        refine ⟨chunk, hle, ?_, fun h => (by cases h)⟩
        rw [positions_nil, List.append_nil]
      | ok data' =>
        obtain ⟨k, hk, hpositions, hok⟩ := ih 0 data' (memcpy device data buff n chunk) (hc.next hlt)
          (hc.boundary hlt).symm
        refine ⟨chunk + k, by omega, ?_, fun h => ?_⟩
        · simp only [hpositions, ← Nat.add_assoc, List.range'_append_1]
        · have := hok h
          omega
    · simp only [if_neg hlt]
      have hend := hc.end hlt
      refine ⟨chunk, hle, ?_, fun _ => by omega⟩
      rw [positions_nil, List.append_nil]

/-- A write stores to a first part of its range, in order, and to all of it where it ends. -/
theorem writeAccesses_positions (calls : ClusterCalls) {fs : Ext2} (hbs : 0 < fs.blockSize) (inode : Nat)
    (buff : Memory) (offset size : Nat) :
    ∃ k ≤ size, positions (writeAccesses calls fs inode buff offset size) = List.range' offset k ∧
      ((ext2WriteInodeData calls fs inode buff offset size).1 = .ok () → k = size) := by
  rw [writeAccesses, ext2WriteInodeData, if_neg hbs.ne', if_neg hbs.ne', ← resizedFor]
  obtain ⟨outcome, resized⟩ := resizedFor calls fs inode (offset + size)
  cases outcome with
  | error fault => exact ⟨0, Nat.zero_le size, rfl, fun h => (by cases h)⟩
  | ok done =>
    simp only [positions_lookup_cons]
    cases dataToCopy (fs.withDevice resized) inode (offset / fs.blockSize) with
    | error fault => exact ⟨0, Nat.zero_le size, rfl, fun h => (by cases h)⟩
    | ok block =>
      exact writeLoopAccesses_positions inode buff (size + 1) (offset - offset / fs.blockSize * fs.blockSize) _
        resized (ChunkAt.first hbs offset size) (Nat.add_sub_cancel' (Nat.div_mul_le_self _ _))

/-! Writes whose stores all go to given places: byte `j` of the buffer to `place j`. -/

/-- The lookup of block `i`, with the bytes before the block stored in their places. -/
def placedLookup (fs : Ext2) (inode offset : Nat) (place : Nat → Option Nat) (buff device : Memory) (i : Nat) :
    Except Fault Nat :=
  dataToCopy (fs.withDevice (storeSeq device (fun j => (place j).getD 0) buff (i * fs.blockSize - offset))) inode i

/-- If the lookups of the blocks from `first` up to the one of byte `j` succeed, the
last of them gives the place of the byte. -/
def PlaceFound (fs : Ext2) (lookup : Nat → Except Fault Nat) (place : Nat → Option Nat) (offset first j : Nat) :
    Prop :=
  (∀ i, first ≤ i → i ≤ (offset + j) / fs.blockSize → ∃ block, lookup i = .ok block) →
    ∀ block, lookup ((offset + j) / fs.blockSize) = .ok block →
      place j = some (block + (offset + j) % fs.blockSize)

section Places

variable {fs : Ext2} {lookup : Nat → Except Fault Nat} {place : Nat → Option Nat} {offset size b n chunk : Nat}

theorem ChunkAt.div_eq (hc : ChunkAt fs offset size b n chunk) {j : Nat} (hl : n ≤ j) (hu : j < n + chunk) :
    (offset + j) / fs.blockSize = b := by
  have hlower := hc.lower
  have hupper := hc.end_le
  rw [Nat.div_eq_iff (by omega)]
  omega

theorem placeFound_chunk_iff (hc : ChunkAt fs offset size b n chunk) {block inside : Nat}
    (hinside : b * fs.blockSize + inside = offset + n) (hlookup : lookup b = .ok block) {j : Nat} (hl : n ≤ j)
    (hu : j < n + chunk) :
    PlaceFound fs lookup place offset b j ↔ place j = some (block + inside + (j - n)) := by
  have hdiv := hc.div_eq hl hu
  have hmod : (offset + j) % fs.blockSize = inside + (j - n) := by
    rw [Nat.mod_eq_sub_div_mul, hdiv]
    omega
  rw [PlaceFound, hdiv, hmod, Nat.add_assoc]
  constructor
  · intro h
    refine h (fun i h1 h2 => ?_) block hlookup
    obtain rfl : i = b := by omega
    exact ⟨block, hlookup⟩
  · intro h _ block' hlookup'
    obtain rfl := Except.ok.inj (hlookup.symm.trans hlookup')
    exact h

/-- Past the chunk, the next block has to be found first. -/
theorem placeFound_next_iff (hc : ChunkAt fs offset size b n chunk) (hlt : n + chunk < size) {block : Nat}
    (hlookup : lookup b = .ok block) {j : Nat} (hl : n + chunk ≤ j) :
    PlaceFound fs lookup place offset b j ↔
      ((∃ block, lookup (b + 1) = .ok block) → PlaceFound fs lookup place offset (b + 1) j) := by
  have hstart := hc.boundary hlt
  have hbs : 0 < fs.blockSize := by
    have hl := hc.lower
    have hu := hc.upper
    omega
  have hle : b + 1 ≤ (offset + j) / fs.blockSize := by
    rw [Nat.le_div_iff_mul_le hbs]
    omega
  rw [PlaceFound, PlaceFound]
  constructor
  · intro h _ hfound
    refine h fun i h1 h2 => ?_
    rcases Nat.eq_or_lt_of_le h1 with rfl | h1
    · exact ⟨block, hlookup⟩
    · exact hfound i h1 h2
  · intro h hfound
    exact h (hfound (b + 1) (Nat.le_succ b) hle) fun i h1 h2 => hfound i (by omega) h2

end Places

theorem memcpy_placed {place : Nat → Option Nat} {buff device : Memory} {data n chunk : Nat}
    (h : ∀ k < chunk, place (n + k) = some (data + k)) :
    memcpy (storeSeq device (fun j => (place j).getD 0) buff n) data buff n chunk =
      storeSeq device (fun j => (place j).getD 0) buff (n + chunk) := by
  rw [memcpy_eq_storeSeq, storeSeq_add]
  refine storeSeq_congr (fun k hk => ?_) (fun k _ => rfl)
  rw [h k hk, Option.getD_some]

theorem writeLoopAccesses_placed_iff {fs : Ext2} (inode : Nat) {offset size : Nat} {place : Nat → Option Nat}
    {buff device : Memory} (fuel : Nat) {b n chunk block inside : Nat} (hc : ChunkAt fs offset size b n chunk)
    (hinside : b * fs.blockSize + inside = offset + n) (hfuel : size - n < fuel)
    (hlookup : placedLookup fs inode offset place buff device b = .ok block) :
    (∀ copy ∈ copies (writeLoopAccesses fs inode buff size fuel b inside n (block + inside) chunk
        (storeSeq device (fun j => (place j).getD 0) buff n)), place copy.2.1 = some copy.2.2) ↔
      ∀ j, n ≤ j → j < size → PlaceFound fs (placedLookup fs inode offset place buff device) place offset b j := by
  induction fuel generalizing b n chunk block inside with
  | zero => omega
  | succ fuel ih =>
    have hle : n + chunk ≤ size := by
      have hn := hc.le
      have hchunk := hc.chunk_eq
      omega
    have hhere : (∀ copy ∈ copies (chunkAccesses (b * fs.blockSize + inside) n (block + inside) chunk),
        place copy.2.1 = some copy.2.2) ↔ ∀ k < chunk, place (n + k) = some (block + inside + k) := by
      simp only [copies_chunkAccesses, List.forall_mem_map, List.mem_range]
    rw [writeLoopAccesses, copies_append, List.forall_mem_append, hhere]
    by_cases hplaces : ∀ k < chunk, place (n + k) = some (block + inside + k)
    · have hchunk : ∀ j, n ≤ j → j < n + chunk →
          PlaceFound fs (placedLookup fs inode offset place buff device) place offset b j := by
        intro j hl hu
        rw [placeFound_chunk_iff hc hinside hlookup hl hu, ← hplaces (j - n) (by omega), Nat.add_sub_cancel' hl]
      rw [and_iff_right hplaces, memcpy_placed hplaces]
      by_cases hlt : n + chunk < size
      · have hstart := hc.boundary hlt
        have hpos := hc.pos (by omega)
        have hbytes : (b + 1) * fs.blockSize - offset = n + chunk := by omega
        have hlater : (∀ j, n ≤ j → j < size →
            PlaceFound fs (placedLookup fs inode offset place buff device) place offset b j) ↔
            ((∃ block, placedLookup fs inode offset place buff device (b + 1) = .ok block) →
              ∀ j, n + chunk ≤ j → j < size →
                PlaceFound fs (placedLookup fs inode offset place buff device) place offset (b + 1) j) := by
          constructor
          · intro h hnext j hl hu
            exact (placeFound_next_iff hc hlt hlookup hl).mp (h j (by omega) hu) hnext
          · intro h j hl hu
            by_cases hj : j < n + chunk
            · exact hchunk j hl hj
            · rw [placeFound_next_iff hc hlt hlookup (by omega)]
              exact fun hnext => h hnext j (by omega) hu
        rw [hlater]
        simp only [if_pos hlt, copies_lookup_cons]
        have hnext : dataToCopy (fs.withDevice (storeSeq device (fun j => (place j).getD 0) buff (n + chunk))) inode
            (b + 1) = placedLookup fs inode offset place buff device (b + 1) := by
          rw [placedLookup, hbytes]
        rw [hnext]
        cases hd : placedLookup fs inode offset place buff device (b + 1) with
        | error fault => simp
        | ok block' =>
          have hzero : (b + 1) * fs.blockSize + 0 = offset + (n + chunk) := by omega
          have hrest := ih (hc.next hlt) hzero (by omega) hd
          simpa using hrest
      · have hend := hc.end hlt
        simp only [if_neg hlt, copies_nil, List.not_mem_nil, false_implies, implies_true, true_iff]
        exact fun j hl hu => hchunk j hl (by omega)
    · -- a byte of the chunk goes to another place
      refine iff_of_false (fun h => hplaces h.1) (fun h => hplaces fun k hk => ?_)
      have hplace := h (n + k) (by omega) (by omega)
      rw [placeFound_chunk_iff hc hinside hlookup (by omega) (by omega), Nat.add_sub_cancel_left] at hplace
      exact hplace

/-- The stores of a write go to given places exactly when each block of the range gives
the places of its bytes, as long as the blocks before it do and it is found. -/
theorem writeAccesses_placed_iff (calls : ClusterCalls) {fs : Ext2} (hbs : 0 < fs.blockSize) (inode : Nat)
    (place : Nat → Option Nat) (buff : Memory) (offset size : Nat) :
    (∀ copy ∈ copies (writeAccesses calls fs inode buff offset size), place copy.2.1 = some copy.2.2) ↔
      ∀ device, resizedFor calls fs inode (offset + size) = (.ok (), device) → ∀ j < size,
        PlaceFound fs (placedLookup fs inode offset place buff device) place offset (offset / fs.blockSize) j := by
  rw [writeAccesses, if_neg hbs.ne']
  obtain ⟨outcome, resized⟩ := resizedFor calls fs inode (offset + size)
  cases outcome with
  | error fault => simp
  | ok done =>
    have hl := Nat.div_mul_le_self offset fs.blockSize
    have hfirst : placedLookup fs inode offset place buff resized (offset / fs.blockSize) =
        dataToCopy (fs.withDevice resized) inode (offset / fs.blockSize) := by
      rw [placedLookup, Nat.sub_eq_zero_of_le hl, storeSeq_zero]
    simp only [copies_lookup_cons, Prod.mk.injEq, true_and, forall_eq']
    cases hd : dataToCopy (fs.withDevice resized) inode (offset / fs.blockSize) with
    | error fault =>
      simp only [copies_nil, List.not_mem_nil, false_implies, implies_true, true_iff]
      intro j hj hfound
      obtain ⟨block, hblock⟩ := hfound _ le_rfl (Nat.div_le_div_right (Nat.le_add_right offset j))
      cases (hfirst.trans hd).symm.trans hblock
    | ok block =>
      have hloop := writeLoopAccesses_placed_iff inode (size + 1) (ChunkAt.first hbs offset size)
        (Nat.add_sub_cancel' hl) (by omega) (hfirst.trans hd)
      simpa using hloop

theorem writeLoopAccesses_index {fs : Ext2} (inode : Nat) (buff : Memory) {offset size : Nat} (fuel : Nat)
    {b n chunk : Nat} (inside data : Nat) (device : Memory) (hc : ChunkAt fs offset size b n chunk)
    (hinside : b * fs.blockSize + inside = offset + n) :
    ∀ copy ∈ copies (writeLoopAccesses fs inode buff size fuel b inside n data chunk device),
      copy.1 = offset + copy.2.1 := by
  induction fuel generalizing b n chunk inside data device with
  | zero => exact fun copy h => absurd h List.not_mem_nil
  | succ fuel ih =>
    have hhere : ∀ copy ∈ copies (chunkAccesses (b * fs.blockSize + inside) n data chunk),
        copy.1 = offset + copy.2.1 := by
      simp only [copies_chunkAccesses, List.forall_mem_map, hinside, Nat.add_assoc, implies_true]
    rw [writeLoopAccesses, copies_append, List.forall_mem_append]
    refine ⟨hhere, ?_⟩
    by_cases hlt : n + chunk < size
    · simp only [if_pos hlt, copies_lookup_cons]
      cases dataToCopy (fs.withDevice (memcpy device data buff n chunk)) inode (b + 1) with
      | error fault => exact fun copy h => absurd h List.not_mem_nil
      | ok data' => exact ih 0 data' _ (hc.next hlt) (hc.boundary hlt).symm
    · simp only [if_neg hlt]
      exact fun copy h => absurd h List.not_mem_nil

theorem writeAccesses_index (calls : ClusterCalls) {fs : Ext2} (hbs : 0 < fs.blockSize) (inode : Nat)
    (buff : Memory) (offset size : Nat) :
    ∀ copy ∈ copies (writeAccesses calls fs inode buff offset size), copy.1 = offset + copy.2.1 := by
  rw [writeAccesses, if_neg hbs.ne']
  obtain ⟨outcome, resized⟩ := resizedFor calls fs inode (offset + size)
  cases outcome with
  | error fault => exact fun copy h => absurd h List.not_mem_nil
  | ok done =>
    simp only [copies_lookup_cons]
    cases dataToCopy (fs.withDevice resized) inode (offset / fs.blockSize) with
    | error fault => exact fun copy h => absurd h List.not_mem_nil
    | ok block =>
      exact writeLoopAccesses_index inode buff _ _ _ resized (ChunkAt.first hbs offset size)
        (Nat.add_sub_cancel' (Nat.div_mul_le_self _ _))

/-- A write whose stores go to their places fills a first part of them, in order. -/
theorem writeAccesses_stores (calls : ClusterCalls) {fs : Ext2} (hbs : 0 < fs.blockSize) (inode : Nat)
    (place : Nat → Option Nat) (buff : Memory) (offset size : Nat)
    (h : ∀ copy ∈ copies (writeAccesses calls fs inode buff offset size), place copy.2.1 = some copy.2.2) :
    ∃ k ≤ size, (copies (writeAccesses calls fs inode buff offset size)).map Prod.snd =
        (List.range k).map (fun j => (j, (place j).getD 0)) ∧
      (∀ j < k, place j = some ((place j).getD 0)) ∧
      ((ext2WriteInodeData calls fs inode buff offset size).1 = .ok () → k = size) := by
  obtain ⟨k, hk, hpositions, hall⟩ := writeAccesses_positions calls hbs inode buff offset size
  have hindex := writeAccesses_index calls hbs inode buff offset size
  have hsnd : ∀ copy ∈ copies (writeAccesses calls fs inode buff offset size),
      copy.2 = (fun pos => (pos - offset, (place (pos - offset)).getD 0)) copy.1 := by
    intro copy hcopy
    simp only [hindex copy hcopy, Nat.add_sub_cancel_left, h copy hcopy, Option.getD_some]
  have hstores : (copies (writeAccesses calls fs inode buff offset size)).map Prod.snd =
      (List.range k).map (fun j => (j, (place j).getD 0)) := by
    calc (copies (writeAccesses calls fs inode buff offset size)).map Prod.snd
        = (positions (writeAccesses calls fs inode buff offset size)).map
            (fun pos => (pos - offset, (place (pos - offset)).getD 0)) := by
          rw [positions, List.map_map]
          exact List.map_congr_left hsnd
      _ = (List.range k).map (fun j => (j, (place j).getD 0)) := by
          rw [hpositions, List.range'_eq_map_range, List.map_map]
          simp only [Function.comp_def, Nat.add_sub_cancel_left]
  refine ⟨k, hk, hstores, fun j hj => ?_, hall⟩
  have hmem : (j, (place j).getD 0) ∈ (copies (writeAccesses calls fs inode buff offset size)).map Prod.snd := by
    rw [hstores]
    exact List.mem_map_of_mem (List.mem_range.mpr hj)
  obtain ⟨copy, hcopy, hstore⟩ := List.mem_map.mp hmem
  have hplace := h copy hcopy
  rw [hstore] at hplace
  exact hplace

/-- `ext2_get_inode_block_entry(self, inode, i)`; the parameter has 32 bits. -/
def blockEntryAt (fs : Ext2) (inode i : Nat) : Except Fault Nat := ext2GetInodeBlockEntry fs inode (i % 2 ^ 32)

structure ReadsPointwise (fs : Ext2) (inode offset size : Nat) (buff : Memory) : Prop where
  returns : ∃ out, ext2ReadInodeData fs inode offset size buff = .ok out ∧
    (∀ j < size, ∃ n, blockEntryAt fs inode ((offset + j) / fs.blockSize) = .ok n ∧
      out j = fs.device (n * fs.blockSize + (offset + j) % fs.blockSize)) ∧
    ∀ j, size ≤ j → out j = buff j
  written : (copies (readAccesses fs inode offset size)).map (fun copy => copy.2.1) = List.range size
  looked : ∀ i ∈ lookups (readAccesses fs inode offset size),
    offset / fs.blockSize ≤ i ∧ i ≤ (offset + size - 1) / fs.blockSize

theorem dataToCopy_of_entry {fs : Ext2} {inode i n : Nat} (he : blockEntryAt fs inode i = .ok n)
    (hn : n < fs.blockcount) (h16 : n < 65536) (h32 : n * fs.blockSize < 2 ^ 32) :
    dataToCopy fs inode i = .ok (n * fs.blockSize) := by
  have hmod : n % 2 ^ 16 = n := Nat.mod_eq_of_lt h16
  rw [blockEntryAt] at he
  rw [dataToCopy, he]
  simp only [ext2GetBlock_of_mod_lt (hmod.symm ▸ hn), hmod, Nat.mod_eq_of_lt h32, deref_some]

/-- A read takes every byte of its range from the block whose entry the map has. -/
theorem ext2ReadInodeData_pointwise {fs : Ext2} {inode offset size : Nat} (hbs : 0 < fs.blockSize) (hsize : 1 ≤ size)
    (hentries : ∀ i, offset / fs.blockSize ≤ i → i ≤ (offset + size - 1) / fs.blockSize →
      ∃ n, blockEntryAt fs inode i = .ok n ∧ n < fs.blockcount ∧ n < 65536 ∧ n * fs.blockSize < 2 ^ 32)
    (buff : Memory) : ReadsPointwise fs inode offset size buff := by
  have hrange : ∀ i, i ≤ (offset + size - 1) / fs.blockSize ↔ i * fs.blockSize < offset + size := by
    intro i
    rw [Nat.le_div_iff_mul_le hbs]
    omega
  have hok : ∀ i, offset / fs.blockSize ≤ i → (i = offset / fs.blockSize ∨ i * fs.blockSize < offset + size) →
      dataToCopy fs inode i = .ok (foundBlock fs inode i) := by
    intro i hl hu
    obtain ⟨n, he, hn, h16, h32⟩ := hentries i hl ((hrange i).mpr (lookup_lt_end hsize hu))
    rw [foundBlock, dataToCopy_of_entry he hn h16 h32]
    rfl
  obtain ⟨hcopies, hlookups⟩ := readAccesses_eq hbs hok
  refine ⟨⟨_, ext2ReadInodeData_eq buff _ hbs hok, fun j hj => ?_, fun j hj => ?_⟩, ?_, fun i hi => ?_⟩
  · have hdiv : (offset + j) / fs.blockSize * fs.blockSize ≤ offset + j := Nat.div_mul_le_self _ _
    obtain ⟨n, he, hn, h16, h32⟩ := hentries ((offset + j) / fs.blockSize)
      (Nat.div_le_div_right (Nat.le_add_right offset j)) ((hrange _).mpr (by omega))
    have hblock : foundBlock fs inode ((offset + j) / fs.blockSize) = n * fs.blockSize := by
      rw [foundBlock, dataToCopy_of_entry he hn h16 h32]
      rfl
    refine ⟨n, he, ?_⟩
    rw [memcpy_of_lt _ _ _ hj, byteAddress, Nat.zero_add, hblock]
  · rw [memcpy, if_neg (by omega)]
  · rw [hcopies, List.map_map]
    exact List.map_id' (List.range size)
  · obtain ⟨hl, hu⟩ := hlookups i hi
    exact ⟨hl, (hrange i).mpr (lookup_lt_end hsize hu)⟩

theorem ext2ReadInodeData_pointwise_two : ReadsPointwise (twoBlockFs 0 2048 30 31) 2048 1000 100 0 := by
  have hentries : ∀ i, 0 ≤ i → i ≤ 1 → ∃ n, blockEntryAt (twoBlockFs 0 2048 30 31) 2048 i = .ok n ∧ n < 40000 ∧
      n < 65536 ∧ n * 1024 < 2 ^ 32 := by
    intro i _ hi
    obtain rfl | rfl : i = 0 ∨ i = 1 := by omega
    · exact ⟨30, rfl, by decide, by decide, by decide⟩
    · exact ⟨31, rfl, by decide, by decide, by decide⟩
  have hcount : (twoBlockFs 0 2048 30 31).blockcount = 40000 := by decide
  have hbs : (twoBlockFs 0 2048 30 31).blockSize = 1024 := by decide
  refine ext2ReadInodeData_pointwise (by decide) (by decide) ?_ 0
  rw [hbs, hcount]
  exact hentries

/-- With blocks of 128 KiB, block 32768 gets the address 0. -/
theorem not_readsPointwise_wraps :
    ext2Create (twoBlockImage 7 263000 0 32768) = .ok (twoBlockFs 7 263000 0 32768) ∧
    blockEntryAt (twoBlockFs 7 263000 0 32768) 2048 (132100 / 131072) = .ok 32768 ∧
    32768 < (twoBlockFs 7 263000 0 32768).blockcount ∧
    ¬ ReadsPointwise (twoBlockFs 7 263000 0 32768) 2048 132100 1 0 := by
  have hentry : blockEntryAt (twoBlockFs 7 263000 0 32768) 2048 1 = .ok 32768 := rfl
  refine ⟨rfl, hentry, by decide, fun h => ?_⟩
  obtain ⟨out, hout, hbyte, -⟩ := h.returns
  obtain ⟨n, hn, hb⟩ := hbyte 0 (by decide)
  obtain rfl := Except.ok.inj (hentry.symm.trans hn)
  have hread : ext2ReadInodeData (twoBlockFs 7 263000 0 32768) 2048 132100 1 0 =
      .ok (memcpy 0 0 (twoBlockImage 7 263000 0 32768) 1028 1) := rfl
  obtain rfl := Except.ok.inj (hread.symm.trans hout)
  revert hb
  decide

end FuseExt2
