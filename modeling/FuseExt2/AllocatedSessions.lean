import FuseExt2.AllocatedServer
import FuseExt2.Sessions

/-! The sessions of any number of clients at the server with its allocations: they are the
sessions at the handlers without a heap, and the heap is the same after each request. -/

namespace FuseExt2

open Heaps Assertion Rpc

namespace Allocated

def allocatedSessions (allocator : Allocator (Object Record)) (calls : ClusterCalls) (fs : Ext2) :
    Service (ByteStore.Memory × Heap (Object Record)) Call Response ByteStore.Memory where
  handle state call :=
    match serveRequest allocator calls (fs.withDevice state.1) call.request state.2 with
    | .ok ((response, device), heap) => some (response, device, heap)
    | .error _ => none
  ends call response memory := (call.finish memory response).isSome

def SameHeap (cells : Cells (Object Record)) (device : ByteStore.Memory)
    (state : ByteStore.Memory × Heap (Object Record)) : Prop := state.1 = device ∧ state.2.cells = cells

theorem sameHeap_unique {cells : Cells (Object Record)} {device device' : Option ByteStore.Memory}
    {server : Option (ByteStore.Memory × Heap (Object Record))} (h : Option.Rel (SameHeap cells) device server)
    (h' : Option.Rel (fun state device => SameHeap cells device state) server device') : device' = device := by
  cases h with
  | none =>
    cases h' with
    | none => rfl
  | some hstate =>
    cases h' with
    | some hstate' => exact congrArg some (hstate'.1.symm.trans hstate.1)

theorem sessions_handle (calls : ClusterCalls) (fs : Ext2) (device : ByteStore.Memory) (call : Call) :
    (sessions calls fs).handle device call = (FuseExt2.serveRequest calls fs device call.request).toOption := by
  dsimp only [FuseExt2.serveRequest, sessions]
  generalize ext2Service calls (fs.withDevice device) call.request = served
  obtain ⟨result, device'⟩ := served
  cases result with
  | error fault => rfl
  | ok response => rfl

theorem sessions_refines (allocator : Allocator (Object Record)) (calls : ClusterCalls) (fs : Ext2)
    (cells : Cells (Object Record)) :
    Refines (sessions calls fs) (allocatedSessions allocator calls fs) (SameHeap cells) where
  handle := by
    rintro _ ⟨device, h⟩ call ⟨rfl, hcells⟩
    have hc : Computes 1 (serveRequest allocator calls (fs.withDevice device) call.request) _ _ :=
      serveRequest_computes calls device call.request
    obtain ⟨hok, hfault⟩ := hc.run h
    rw [sessions_handle]
    dsimp only [allocatedSessions]
    cases hserved : FuseExt2.serveRequest calls fs device call.request with
    | error fault =>
      obtain ⟨fault', hrun⟩ := hfault fault hserved
      rw [hrun]
      exact Option.Rel.none
    | ok served =>
      obtain ⟨r, h', hrun, hend⟩ := hok served hserved
      rw [such_mul, one_mul] at hend
      obtain ⟨rfl, hend⟩ := hend
      rw [hrun]
      exact Option.Rel.some ⟨rfl, rfl, hend.trans hcells⟩
  ends := rfl

/-- What the server allocates does not show: a run of the sessions is one of the server with its
heap, also where it crashes, and as long as it lives its heap is as it was at the start. -/
theorem allocatedSessions_iff {ι : Type*} [DecidableEq ι] (allocator : Allocator (Object Record)) (calls : ClusterCalls)
    (fs : Ext2) (device : ByteStore.Memory) (h : Heap (Object Record)) (w : World ι ByteStore.Memory Call Response) :
    Runs (sessions calls fs) (World.initial ι Call Response device) w ↔
      ∃ server, Option.Rel (SameHeap h.cells) w.server server ∧
        Runs (allocatedSessions allocator calls fs) (World.initial ι Call Response (device, h))
          (w.withServer server) := by
  have hrefines := sessions_refines allocator calls fs h.cells
  have hstart : Option.Rel (SameHeap h.cells) (some device) (some (device, h)) := Option.Rel.some ⟨rfl, rfl⟩
  constructor
  · intro hw
    exact hrefines.runs hstart hw
  · rintro ⟨server, hserver, hw⟩
    obtain ⟨server', hserver', hw'⟩ := hrefines.flip.runs (Option.Rel.some ⟨rfl, rfl⟩) hw
    obtain rfl := sameHeap_unique hserver hserver'
    exact hw'

end Allocated

end FuseExt2
