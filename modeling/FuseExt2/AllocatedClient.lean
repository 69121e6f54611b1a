import FuseExt2.AllocatedPaths
import FuseExt2.Sessions

/-! The calls of a client with the copy of the path that each query holds: all but one
give it back. -/

namespace FuseExt2

open Heaps Assertion

namespace Allocated

section Calls

variable (allocator : Allocator (Object Record))

/-- `while (!is_done)`, for what the call then returns. -/
def waitReturned : Option Int → Code Int
  | some res => pure res
  | none => fail .diverges

/-- There is no `free(query.path)`. -/
def fuseExt2Getattr (path : List UInt8) (returned : Option Int) : Code Int := do
  let _ ← stringDuplicate allocator path
  waitReturned returned

def queryFreed (path : List UInt8) (returned : Option Int) : Code Int := do
  let query ← stringDuplicate allocator path
  let res ← waitReturned returned
  free query
  pure res

def fuseExt2Readdir (path : List UInt8) (returned : Option Int) : Code Int := queryFreed allocator path returned

def fuseExt2Read (path : List UInt8) (returned : Option Int) : Code Int := queryFreed allocator path returned

def fuseExt2Write (path : List UInt8) (returned : Option Int) : Code Int := queryFreed allocator path returned

def runCall (returned : Option Int) : Call → Code Int
  | .getattr path _ => fuseExt2Getattr allocator path returned
  | .readdir path => fuseExt2Readdir allocator path returned
  | .read path _ _ _ => fuseExt2Read allocator path returned
  | .write path _ _ => fuseExt2Write allocator path returned

/-- The calls of one process one after the other, each with the dispatches it waits for. -/
def runCalls (calls : ClusterCalls) (fs : Ext2) (memory : ByteStore.Memory) :
    ByteStore.Memory → List (Call × List Bool) → Code (List Int)
  | _, [] => pure []
  | device, (call, rounds) :: rest => do
    let res ← runCall allocator (call.returned calls (fs.withDevice device) memory rounds) call
    let results ← runCalls calls fs memory (ext2Service calls (fs.withDevice device) call.request).2 rest
    pure (res :: results)

end Calls

def returnedCalls (calls : ClusterCalls) (fs : Ext2) (memory : ByteStore.Memory) :
    ByteStore.Memory → List (Call × List Bool) → Option (List Int)
  | _, [] => some []
  | device, (call, rounds) :: rest => do
    let res ← call.returned calls (fs.withDevice device) memory rounds
    let results ← returnedCalls calls fs memory (ext2Service calls (fs.withDevice device) call.request).2 rest
    some (res :: results)

def getattrPath : Call → Option (List UInt8)
  | .getattr path _ => some path
  | _ => none

section Specs

variable {allocator : Allocator (Object Record)} {calls : ClusterCalls} {fs : Ext2} {memory : ByteStore.Memory}

/-- Strings that nothing points to any more. -/
def lost (paths : List (List UInt8)) : Assertion (Object Record) := recorded isName (fun _ => 1) paths

theorem lost_nil : lost [] = 1 := by
  apply le_antisymm
  · refine any_le fun xs => any_le fun nameOf => such_le fun hnil => ?_
    rw [List.map_eq_nil_iff.mp hnil, each_nil, mul_one]
  · exact le_any [] (le_any (fun _ => []) (le_such rfl (le_of_eq (mul_one 1).symm)))

theorem lost_append (paths : List (List UInt8)) (path : List UInt8) (p : Nat) :
    isName p path * lost paths ≤ lost (paths ++ [path]) := by
  rw [lost, recorded, mul_any]
  refine any_le fun xs => ?_
  rw [mul_any]
  refine any_le fun nameOf => ?_
  rw [mul_such]
  refine such_le ?_
  rintro rfl
  rw [one_mul, ← one_mul (isName p path * _)]
  exact recorded_append owns_isName (fun _ => 1) xs nameOf p path

theorem queryFreed_spec (path : List UInt8) (res : Int) :
    Spec 1 (queryFreed allocator path (some res)) fun r => such (r = res) 1 := by
  refine (malloc_spec allocator _).bind fun query => ?_
  show Spec _ (free query >>= fun _ => pure res) _
  exact (free_spec query _).bind fun _ => Spec.ret_of_le (le_such rfl le_rfl)

theorem runCall_spec (call : Call) (res : Int) (paths : List (List UInt8)) :
    Spec (lost paths) (runCall allocator (some res) call)
      fun r => such (r = res) (lost (paths ++ (getattrPath call).toList)) := by
  have hfreed : ∀ path, Spec (lost paths) (queryFreed allocator path (some res))
      fun r => such (r = res) (lost (paths ++ [])) := by
    intro path
    rw [← one_mul (lost paths)]
    refine ((queryFreed_spec path res).frame _).post fun r => ?_
    rw [such_mul, one_mul, List.append_nil]
  cases call with
  | getattr path stbuf =>
    exact (malloc_spec allocator _).acquire fun p => Spec.ret_of_le (le_such rfl (lost_append paths path p))
  | readdir path => exact hfreed path
  | read path buf size offset => exact hfreed path
  | write path buf offset => exact hfreed path

theorem runCalls_spec (allocator : Allocator (Object Record)) {device : ByteStore.Memory}
    {made : List (Call × List Bool)} {results : List Int}
    (h : returnedCalls calls fs memory device made = some results) (paths : List (List UInt8)) :
    Spec (lost paths) (runCalls allocator calls fs memory device made)
      fun r => such (r = results) (lost (paths ++ made.filterMap fun x => getattrPath x.1)) := by
  induction made generalizing device results paths with
  | nil =>
    obtain rfl := Option.some.inj h
    exact Spec.ret_of_le (le_such rfl (le_of_eq (by rw [List.filterMap_nil, List.append_nil])))
  | cons x made ih =>
    obtain ⟨call, rounds⟩ := x
    obtain ⟨res, hres, h⟩ := Option.bind_eq_some_iff.mp h
    obtain ⟨results', hresults, h⟩ := Option.bind_eq_some_iff.mp h
    obtain rfl := Option.some.inj h
    rw [runCalls, hres]
    refine (runCall_spec call res paths).bind fun r => Spec.such ?_
    rintro rfl
    refine (ih hresults _).bind fun r' => Spec.such ?_
    rintro rfl
    refine Spec.ret_of_le (le_such rfl (le_of_eq ?_))
    rw [List.append_assoc, List.filterMap_cons]
    cases getattrPath call with
    | none => rfl
    | some path => rfl

/-- However many calls a client makes, once they have returned its heap is as before except
for one string for each `getattr`, which holds the path of that call. -/
theorem runCalls_lost (allocator : Allocator (Object Record)) {made : List (Call × List Bool)} {results : List Int}
    (hreturned : returnedCalls calls fs memory fs.device made = some results) (h : Heap (Object Record)) :
    ∃ h', runCalls allocator calls fs memory fs.device made h = .ok (results, h') ∧
      (lost (made.filterMap fun x => getattrPath x.1) * exactly h.cells).holds h'.cells := by
  have hspec := runCalls_spec allocator hreturned []
  rw [lost_nil, List.nil_append] at hspec
  obtain ⟨r, h', hrun, hend⟩ := hspec (exactly h.cells) h (by rw [one_mul]; rfl)
  rw [such_mul] at hend
  obtain ⟨rfl, hend⟩ := hend
  exact ⟨h', hrun, hend⟩

theorem runCalls_lost_sample : ∃ h', runCalls (bump (Object Record)) keepClusters (fileFs 10) 0 (fileFs 10).device
    [(.getattr [slash] ⟨0, 0, 0, 0⟩, [true]), (.readdir [slash], [true])] (Heap.empty _) = .ok ([0, 0], h') ∧
      (lost [[slash]] * exactly fun _ => none).holds h'.cells := by
  have hreturned : returnedCalls keepClusters (fileFs 10) 0 (fileFs 10).device
      [(.getattr [slash] ⟨0, 0, 0, 0⟩, [true]), (.readdir [slash], [true])] = some [0, 0] := rfl
  exact runCalls_lost (bump (Object Record)) hreturned (Heap.empty _)

end Specs

end Allocated

end FuseExt2
