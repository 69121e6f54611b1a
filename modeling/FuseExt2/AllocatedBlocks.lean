import FuseExt2.Allocations
import FuseExt2.FreeBlocks

/-! The search for free blocks with its array and the groups that it makes: a caller gets
an array of the blocks found, or NULL with nothing left of the search. -/

namespace FuseExt2

open Heaps Assertion ByteStore

namespace Allocated

def numbers? : Object Record → Option (List Nat)
  | .other (.numbers elements) => some elements
  | _ => none

def setNumber (array index value : Nat) : Code Unit := do
  let elements ← read numbers? array
  if index < elements.length then store array (.other (.numbers (elements.set index value)))
  else fail .dangling

/-- `finded` is the slot of the array that is filled next. -/
def freeBlocksLoop (blockBitmap blockGroupOffset array : Nat) : Nat → Nat → Memory → Nat → Code (Nat × Memory)
  | 0, _, m, finded => pure (finded, m)
  | bits + 1, index, m, finded => do
    let bitmap ← read bitarray? blockBitmap
    let state ← lift (bitarrayTestBit m bitmap index)
    if state then
      let m ← lift (bitarraySetBit m bitmap index)
      setNumber array finded ((blockGroupOffset + index) % 2 ^ 32)
      freeBlocksLoop blockBitmap blockGroupOffset array bits (index + 1) m (finded + 1)
    else freeBlocksLoop blockBitmap blockGroupOffset array bits (index + 1) m finded

/-- From `&free_blocks[finded]` on; the result is the slot after the last one that was filled. -/
def ext2GetFreeBlocksInGroup (fs : Ext2) (blockGroup array finded : Nat) : Code (Nat × Memory) := do
  let record ← read group? blockGroup
  let offset ← lift (ext2GetBlockGroupOffset fs (record.number + 1))
  let bitmap ← read bitarray? record.blockBitmap
  freeBlocksLoop record.blockBitmap offset array (bitarrayGetMaxBit bitmap) 0 fs.device finded

section Calls

variable (allocator : Allocator (Object Record))

def searchGroup (fs : Ext2) (groupNumber array finded : Nat) : Code (Nat × Memory) := do
  let group ← ext2GetBlockGroup allocator fs groupNumber
  let searched ← ext2GetFreeBlocksInGroup fs group array finded
  ext2BlockGroupFree group
  pure searched

def outwardLoop (fs : Ext2) (number amount freeBlocks : Nat) : Nat → Nat → Memory → Nat → Code (Nat × Memory)
  | 0, _, m, _ => do
    free freeBlocks
    pure (0, m)
  | turns + 1, offset, m, finded => do
    let fs := fs.withDevice m
    let (finded, m) ← searchGroup allocator fs (leftBlockOffset fs number offset) freeBlocks finded
    if finded = amount then pure (freeBlocks, m)
    else
      let fs := fs.withDevice m
      let (finded, m) ← searchGroup allocator fs (rightBlockOffset fs number offset) freeBlocks finded
      if finded = amount then pure (freeBlocks, m)
      else outwardLoop fs number amount freeBlocks turns (offset + 1) m finded

/-- The array or NULL, and the device after the call. -/
def ext2GetFreeBlocks (fs : Ext2) (blockGroupDelta amount : Nat) : Code (Nat × Memory) := do
  let halfGroups := fs.numberOfBlockGroups / 2
  let freeBlocks ← malloc allocator (.other (.numbers (List.replicate amount 0)))
  let (finded, m) ← ext2GetFreeBlocksInGroup fs blockGroupDelta freeBlocks 0
  if finded = amount then pure (freeBlocks, m)
  else
    let record ← read group? blockGroupDelta
    outwardLoop allocator fs record.number amount freeBlocks (halfGroups - 1) 1 m finded

/-- The loop after the search has no body. -/
def ext2AddInodeFreeBlocks (fs : Ext2) (_node amount : Nat) : Code (Bool × Memory) := do
  let group ← ext2GetBlockGroup allocator fs 0
  let (_, m) ← ext2GetFreeBlocks allocator fs group amount
  pure (true, m)

end Calls

section Specs

variable {allocator : Allocator (Object Record)} {fs : Ext2}

theorem readBitarray_spec (p : Nat) (array : Bitarray) :
    Spec (cell p (.other (.bitarray array))) (read bitarray? p)
      fun r => such (r = array) (cell p (.other (.bitarray array))) := read_spec (by rfl) p

theorem readNumbers_spec (p : Nat) (elements : List Nat) :
    Spec (cell p (.other (.numbers elements))) (read numbers? p)
      fun r => such (r = elements) (cell p (.other (.numbers elements))) := read_spec (by rfl) p

/-- The array of `amount` numbers that the search has filled up to a slot. -/
def blocksAt (p amount : Nat) (array : BlockArray) : Assertion (Object Record) :=
  such (array.slots = amount ∧ array.blocks.length ≤ amount)
    (cell p (.other (.numbers (array.blocks ++ List.replicate (amount - array.blocks.length) 0))))

theorem setNumber_computes {p amount : Nat} {array : BlockArray} (block : Nat) :
    Computes (blocksAt p amount array) (setNumber p array.blocks.length (block % 2 ^ 32)) (array.push block)
      fun filled _ => such (filled.blocks.length = array.blocks.length + 1) (blocksAt p amount filled) := by
  refine Computes.such fun hslots => ?_
  obtain ⟨rfl, hle⟩ := hslots
  refine (readNumbers_spec p _).bind_computes fun r => Computes.such ?_
  rintro rfl
  rw [BlockArray.push, List.length_append, List.length_replicate, Nat.add_sub_cancel' hle]
  split_ifs with hlt
  · obtain ⟨k, hk⟩ : ∃ k, array.slots - array.blocks.length = k + 1 := ⟨array.slots - array.blocks.length - 1, by omega⟩
    rw [hk, List.replicate_succ, List.set_append_right _ _ le_rfl, Nat.sub_self, List.set_cons_zero]
    refine (store_spec p _ _).post fun _ => ?_
    have hlen : (array.blocks ++ [block % 2 ^ 32]).length = array.blocks.length + 1 := by simp
    have hrest : array.slots - (array.blocks.length + 1) = k := by omega
    refine le_such hlen (le_such ⟨rfl, by rw [hlen]; exact hlt⟩ (le_of_eq ?_))
    rw [hlen, hrest, List.append_assoc, List.singleton_append]
  · exact fails_fail _ .dangling

theorem freeBlocksLoop_computes {p q amount : Nat} (bitmap : Bitarray) (blockGroupOffset bits index : Nat) (m : Memory)
    (array : BlockArray) :
    Computes (cell p (.other (.bitarray bitmap)) * blocksAt q amount array)
      (freeBlocksLoop p blockGroupOffset q bits index m array.blocks.length)
      (FuseExt2.freeBlocksLoop bitmap blockGroupOffset bits index m array)
      fun found r => such (r = (found.2.blocks.length, found.1))
        (cell p (.other (.bitarray bitmap)) * blocksAt q amount found.2) := by
  induction bits generalizing index m array with
  | zero => exact Spec.ret_of_le (le_such rfl le_rfl)
  | succ bits ih =>
    rw [freeBlocksLoop, FuseExt2.freeBlocksLoop]
    refine (readBitarray_spec p bitmap).call_computes ?_
    cases bitarrayTestBit m bitmap index with
    | error fault => exact lift_error_fails _ fault _
    | ok state =>
      rw [lift_ok_bind]
      cases state with
      | false => exact ih (index + 1) m array
      | true =>
        rw [if_pos rfl]
        dsimp only
        cases bitarraySetBit m bitmap index with
        | error fault => exact lift_error_fails _ fault _
        | ok m =>
          rw [lift_ok_bind, mul_comm]
          refine ((setNumber_computes _).frame _).call (fun filled _ h => ?_) fun fault h => ?_
          · rw [such_mul]
            refine Computes.such fun hlen => ?_
            dsimp only
            rw [h, ← hlen, mul_comm]
            exact ih (index + 1) m filled
          · dsimp only
            rw [h]

theorem ext2GetFreeBlocksInGroup_computes {p q amount : Nat} (asked : Nat) (group : Option BlockGroup)
    (array : BlockArray) :
    Computes (isGroup p group * blocksAt q amount array) (ext2GetFreeBlocksInGroup fs p q array.blocks.length)
      (FuseExt2.ext2GetFreeBlocksInGroup fs group asked array)
      fun found r => such (r = (found.2.blocks.length, found.1)) (isGroup p group * blocksAt q amount found.2) := by
  cases group with
  | none =>
    rw [isGroup, such_mul]
    refine Computes.such ?_
    rintro rfl
    exact Fails.bind (read_null group? _)
  | some group =>
    rw [isGroup, any_mul]
    refine Computes.any fun blocks => ?_
    rw [any_mul]
    refine Computes.any fun inodes => ?_
    rw [FuseExt2.ext2GetFreeBlocksInGroup, deref_some, mul_assoc]
    refine (readGroup_spec p _).call_computes ?_
    dsimp only
    cases ext2GetBlockGroupOffset fs (group.number + 1) with
    | error fault => exact lift_error_fails _ fault _
    | ok offset =>
      rw [lift_ok_bind, mul_left_comm, mul_assoc]
      refine (readBitarray_spec blocks _).call_computes ?_
      dsimp only
      rw [mul_left_comm, mul_left_comm (cell blocks _), ← mul_assoc, mul_comm]
      refine ((freeBlocksLoop_computes group.blockBitmap offset _ 0 fs.device array).frame _).post fun found r => ?_
      rw [such_mul, any_mul]
      refine such_le fun hr => le_such hr (le_any blocks ?_)
      rw [any_mul]
      exact le_any inodes (le_of_eq (by ac_rfl))

theorem searchGroup_computes {q amount : Nat} (groupNumber : Nat) (array : BlockArray) :
    Computes (blocksAt q amount array) (searchGroup allocator fs groupNumber q array.blocks.length)
      (FuseExt2.searchGroup fs amount (FuseExt2.ext2GetBlockGroup fs groupNumber) array)
      fun found r => such (r = (found.2.blocks.length, found.1)) (blocksAt q amount found.2) := by
  rw [searchGroup, ← one_mul (blocksAt q amount array)]
  refine ((ext2GetBlockGroup_computes allocator fs groupNumber).frame _).call (fun group p h => ?_) fun fault h => ?_
  · rw [h, FuseExt2.searchGroup]
    refine (ext2GetFreeBlocksInGroup_computes _ group array).call (fun found r hfound => ?_) fun fault h => h
    rw [hfound]
    refine Computes.such ?_
    rintro rfl
    cases group with
    | none => cases hfound
    | some group =>
      exact (ext2BlockGroupFree_spec p group).release fun _ => Spec.ret_of_le (le_such rfl le_rfl)
  · rw [h, FuseExt2.searchGroup]

def isFound (p : Nat) : Option (List Nat) → Assertion (Object Record)
  | none => such (p = 0) 1
  | some blocks => cell p (.other (.numbers blocks))

theorem returnIfFull_computes {P : Assertion (Object Record)} {q amount : Nat} {c : Code (Nat × Memory)}
    {searched : Except Fault (Memory × BlockArray)} {f : Nat × Memory → Code (Nat × Memory)}
    {next : Memory → BlockArray → Except Fault (Option (List Nat) × Memory)} {F : Assertion (Object Record)}
    (hc : Computes P c searched fun found r =>
      such (r = (found.2.blocks.length, found.1)) (F * blocksAt q amount found.2))
    (hnext : ∀ m array, Computes (F * blocksAt q amount array) (f (array.blocks.length, m)) (next m array)
      fun found r => such (r.2 = found.2) (F * isFound r.1 found.1)) :
    Computes P
      (do
        let r ← c
        if r.1 = amount then pure (q, r.2) else f r)
      (returnIfFull amount searched next) fun found r => such (r.2 = found.2) (F * isFound r.1 found.1) := by
  refine hc.call (fun found r h => ?_) fun fault h => by rw [h, returnIfFull]
  refine Computes.such ?_
  rintro rfl
  obtain ⟨m, array⟩ := found
  rw [h, returnIfFull]
  dsimp only
  split_ifs with hfull
  · refine Spec.ret_of_le (le_such rfl (mul_le_mul_right ?_ F))
    refine such_le fun _ => le_of_eq ?_
    rw [hfull, Nat.sub_self, List.replicate_zero, List.append_nil]
    rfl
  · exact hnext m array

theorem searchGroup_returnIfFull {q amount : Nat} (groupNumber : Nat) (array : BlockArray)
    {f : Nat × Memory → Code (Nat × Memory)} {next : Memory → BlockArray → Except Fault (Option (List Nat) × Memory)}
    (hnext : ∀ m array, Computes (blocksAt q amount array) (f (array.blocks.length, m)) (next m array)
      fun found r => such (r.2 = found.2) (isFound r.1 found.1)) :
    Computes (blocksAt q amount array)
      (do
        let r ← searchGroup allocator fs groupNumber q array.blocks.length
        if r.1 = amount then pure (q, r.2) else f r)
      (returnIfFull amount (FuseExt2.searchGroup fs amount (FuseExt2.ext2GetBlockGroup fs groupNumber) array) next)
      fun found r => such (r.2 = found.2) (isFound r.1 found.1) := by
  have hc : Computes (blocksAt q amount array) (searchGroup allocator fs groupNumber q array.blocks.length)
      (FuseExt2.searchGroup fs amount (FuseExt2.ext2GetBlockGroup fs groupNumber) array)
      fun found r => such (r = (found.2.blocks.length, found.1)) (1 * blocksAt q amount found.2) := by
    simpa only [one_mul] using searchGroup_computes groupNumber array
  have hnext' : ∀ m array, Computes (1 * blocksAt q amount array) (f (array.blocks.length, m)) (next m array)
      fun found r => such (r.2 = found.2) (1 * isFound r.1 found.1) := by
    simpa only [one_mul] using hnext
  simpa only [one_mul] using returnIfFull_computes hc hnext'

theorem outwardLoop_computes {q : Nat} (number amount turns offset : Nat) (m : Memory) (array : BlockArray) :
    Computes (blocksAt q amount array)
      (outwardLoop allocator fs number amount q turns offset m array.blocks.length)
      (FuseExt2.outwardLoop fs number amount turns offset m array)
      fun found r => such (r.2 = found.2) (isFound r.1 found.1) := by
  induction turns generalizing fs offset m array with
  | zero => exact Computes.such fun _ => (free_spec q _).bind fun _ => Spec.ret_of_le (le_such rfl (le_such rfl le_rfl))
  | succ turns ih =>
    rw [outwardLoop, FuseExt2.outwardLoop]
    dsimp only
    refine searchGroup_returnIfFull _ array (fun m array => ?_)
    dsimp only
    refine searchGroup_returnIfFull _ array (fun m array => ?_)
    exact ih (offset + 1) m array

theorem ext2GetFreeBlocks_computes {p : Nat} (blockGroupDelta : BlockGroup) (amount : Nat) :
    Computes (isGroup p (some blockGroupDelta)) (ext2GetFreeBlocks allocator fs p amount)
      (FuseExt2.ext2GetFreeBlocks fs blockGroupDelta amount)
      fun found r => such (r.2 = found.2) (isGroup p (some blockGroupDelta) * isFound r.1 found.1) := by
  refine Computes.pre (P := 1 * isGroup p (some blockGroupDelta)) ?_ (le_of_eq (one_mul _).symm)
  refine (malloc_spec allocator _).step_computes fun q => ?_
  have hstart : cell q (.other (.numbers (List.replicate amount 0))) * isGroup p (some blockGroupDelta) ≤
      isGroup p (some blockGroupDelta) * blocksAt q amount ⟨[], amount⟩ := by
    rw [mul_comm]
    exact mul_le_mul_right (le_such ⟨rfl, Nat.zero_le _⟩ le_rfl) _
  have hc : Computes (isGroup p (some blockGroupDelta) * blocksAt q amount ⟨[], amount⟩)
      (ext2GetFreeBlocksInGroup fs p q 0)
      (FuseExt2.searchGroup fs amount (.ok (some blockGroupDelta)) ⟨[], amount⟩)
      fun found r => such (r = (found.2.blocks.length, found.1))
        (isGroup p (some blockGroupDelta) * blocksAt q amount found.2) :=
    ext2GetFreeBlocksInGroup_computes amount (some blockGroupDelta) ⟨[], amount⟩
  refine (returnIfFull_computes hc fun m array => ?_).pre hstart
  have hnumber : Spec (isGroup p (some blockGroupDelta)) (read group? p)
      fun r => such (r.number = blockGroupDelta.number) (isGroup p (some blockGroupDelta)) := by
    refine Spec.any fun blocks => Spec.any fun inodes => ((readGroup_spec p _).frame _).post fun r => ?_
    rw [such_mul]
    exact such_le fun hr => le_such (by rw [hr]) (le_any blocks (le_any inodes le_rfl))
  refine hnumber.step_computes fun record => ?_
  rw [such_mul]
  refine Computes.such fun hr => ?_
  rw [hr, mul_comm]
  refine ((outwardLoop_computes blockGroupDelta.number amount _ 1 m array).frame _).post fun found r => ?_
  rw [such_mul]
  exact such_le fun hm => le_such hm (le_of_eq (mul_comm _ _))

theorem sampleGroup_made : ∃ p h,
    ext2GetBlockGroup (bump (Object Record)) (sampleFs []) 0 (Heap.empty _) = .ok (p, h) ∧
    (isGroup p (some sampleGroup) * exactly fun _ => none).holds h.cells :=
  ((ext2GetBlockGroup_computes (bump (Object Record)) (sampleFs []) 0).run (Heap.empty _)).1 _ ext2GetBlockGroup_sample

/-- The search in any heap: it finds what the search without a heap finds, and all that is
left of it is the array of the blocks found, which NULL stands in for when there are too few. -/
theorem ext2GetFreeBlocks_hands_over (allocator : Allocator (Object Record)) (fs : Ext2) {p : Nat}
    {blockGroupDelta : BlockGroup} (amount : Nat) {F : Assertion (Object Record)} {h : Heap (Object Record)}
    (hgroup : (isGroup p (some blockGroupDelta) * F).holds h.cells) :
    (∀ found device, FuseExt2.ext2GetFreeBlocks fs blockGroupDelta amount = .ok (found, device) →
      ∃ q h', ext2GetFreeBlocks allocator fs p amount h = .ok ((q, device), h') ∧
        (isGroup p (some blockGroupDelta) * isFound q found * F).holds h'.cells) ∧
      ∀ fault, FuseExt2.ext2GetFreeBlocks fs blockGroupDelta amount = .error fault →
        ∃ fault', ext2GetFreeBlocks allocator fs p amount h = .error fault' := by
  have hc : Computes (isGroup p (some blockGroupDelta)) (ext2GetFreeBlocks allocator fs p amount) _ _ :=
    ext2GetFreeBlocks_computes blockGroupDelta amount
  constructor
  · intro found device hfound
    rw [hfound] at hc
    obtain ⟨⟨q, device'⟩, h', hrun, hend⟩ := hc F h hgroup
    rw [such_mul] at hend
    obtain ⟨hdevice, hend⟩ := hend
    obtain rfl : device' = device := hdevice
    exact ⟨q, h', hrun, hend⟩
  · intro fault hfault
    rw [hfault] at hc
    exact hc F h hgroup

theorem ext2GetFreeBlocks_hands_over_sample : ∃ p h,
    ext2GetBlockGroup (bump (Object Record)) (sampleFs []) 0 (Heap.empty _) = .ok (p, h) ∧
    ∀ found device, FuseExt2.ext2GetFreeBlocks (sampleFs []) sampleGroup 7 = .ok (found, device) →
      ∃ q h', ext2GetFreeBlocks (bump (Object Record)) (sampleFs []) p 7 h = .ok ((q, device), h') ∧
        (isGroup p (some sampleGroup) * isFound q found * exactly fun _ => none).holds h'.cells := by
  obtain ⟨p, h, hrun, hgroup⟩ := sampleGroup_made
  exact ⟨p, h, hrun, (ext2GetFreeBlocks_hands_over (bump (Object Record)) (sampleFs []) 7 hgroup).1⟩

/-- Whatever the search finds, the call reports success and loses the group, and the array
of the blocks that were found. -/
theorem ext2AddInodeFreeBlocks_lost (allocator : Allocator (Object Record)) {fs : Ext2} {group : BlockGroup}
    (hgroup : FuseExt2.ext2GetBlockGroup fs 0 = .ok (some group)) {amount : Nat} {found : Option (List Nat)}
    {device : Memory} (hfound : FuseExt2.ext2GetFreeBlocks fs group amount = .ok (found, device)) (node : Nat)
    (h : Heap (Object Record)) :
    ∃ p q h', ext2AddInodeFreeBlocks allocator fs node amount h = .ok ((true, device), h') ∧
      (isGroup p (some group) * isFound q found * exactly h.cells).holds h'.cells := by
  obtain ⟨p, h₁, hrun, hgroup₁⟩ := ((ext2GetBlockGroup_computes allocator fs 0).run h).1 _ hgroup
  have hc : Computes (isGroup p (some group)) (ext2GetFreeBlocks allocator fs p amount) _ _ :=
    ext2GetFreeBlocks_computes group amount
  rw [hfound] at hc
  obtain ⟨⟨q, device'⟩, h₂, hrun', hend⟩ := hc _ h₁ hgroup₁
  rw [such_mul] at hend
  obtain ⟨hdevice, hend⟩ := hend
  obtain rfl : device' = device := hdevice
  refine ⟨p, q, h₂, ?_, hend⟩
  exact (bind_of_ok hrun).trans (bind_of_ok hrun')

/-- The group has 8192 bits, so 8193 blocks are never found. -/
theorem ext2AddInodeFreeBlocks_lost_sample : ∃ p q h',
    ext2AddInodeFreeBlocks (bump (Object Record)) (sampleFs []) 6528 8193 (Heap.empty _) =
      .ok ((true, (sampleFs []).device), h') ∧
      (isGroup p (some sampleGroup) * isFound q none * exactly fun _ => none).holds h'.cells := by
  obtain ⟨n, hbits, hle⟩ : ∃ n, setBits (sampleFs []).device sampleGroup.blockBitmap = some n ∧ n ≤ 8192 :=
    ⟨_, rfl, List.countP_le_length.trans_eq List.length_range⟩
  obtain ⟨blocks, hlen, hblocks⟩ := (ext2GetFreeBlocksInGroup_some
    (offsetReturns_of_sizes sampleFs_sized (by decide) (by decide) _) hbits 8193
    (show (⟨[], 8193⟩ : BlockArray).blocks.length ≤ 8193 from Nat.zero_le _)).1 (by
      rw [List.length_nil, Nat.zero_add]
      exact hle.trans (Nat.le_succ _))
  have hfound : FuseExt2.ext2GetFreeBlocks (sampleFs []) sampleGroup 8193 = .ok (none, (sampleFs []).device) := by
    have hsearch : FuseExt2.searchGroup (sampleFs []) 8193 (.ok (some sampleGroup)) ⟨[], 8193⟩ =
        .ok ((sampleFs []).device, ⟨blocks, 8193⟩) := by
      rw [FuseExt2.searchGroup]
      exact hblocks
    rw [FuseExt2.ext2GetFreeBlocks, hsearch, returnIfFull]
    refine (if_neg ?_).trans rfl
    rw [List.length_nil, Nat.zero_add] at hlen
    have hlt : blocks.length < 8193 := by omega
    exact hlt.ne
  exact ext2AddInodeFreeBlocks_lost (bump (Object Record)) ext2GetBlockGroup_sample hfound 6528 (Heap.empty _)

end Specs

end Allocated

end FuseExt2
