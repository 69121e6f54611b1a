import FuseExt2.AllocatedPaths
import FuseExt2.FileService

/-! The handlers of the server with what they allocate. A server answers any sequence
of requests as the handlers without a heap do, and has given every cell back after
each of them. -/

namespace FuseExt2

open Heaps Assertion

/-- One request, at a device that the requests before it have changed. -/
def serveRequest (calls : ClusterCalls) (fs : Ext2) (device : ByteStore.Memory) (request : Request) :
    Except Fault (Response × ByteStore.Memory) :=
  match ext2Service calls (fs.withDevice device) request with
  | (.error fault, _) => .error fault
  | (.ok response, device) => .ok (response, device)

def serveRequests (calls : ClusterCalls) (fs : Ext2) :
    ByteStore.Memory → List Request → Except Fault (List Response × ByteStore.Memory)
  | device, [] => .ok ([], device)
  | device, request :: requests => do
    let (response, device) ← serveRequest calls fs device request
    let (responses, device) ← serveRequests calls fs device requests
    .ok (response :: responses, device)

namespace Allocated

section Handlers

variable (allocator : Allocator (Object Record))

/-- `for (index = 0; index < list_size(elements); index++)`, filling `response.elements`. -/
def responseElementsLoop (elements array : Nat) : Nat → Nat → Code Unit
  | 0, _ => fail .diverges
  | fuel + 1, index => do
    if (index : Int) < (← listSize elements) then
      let entry ← listGet elements index
      let entry ← read entry? entry
      setPointer array index entry.name
      responseElementsLoop elements array fuel (index + 1)
    else pure ()

/-- `n_elements` and `elements` of the response. -/
def responseElements (elements : Nat) : Code (Nat × Nat) :=
  if elements ≠ 0 then do
    let size ← listSize elements
    if size > 0 then
      let array ← malloc allocator (.other (.pointers (List.replicate size.toNat 0)))
      responseElementsLoop elements array (← turns) 0
      pure (size.toNat, array)
    else pure (0, 0)
  else pure (0, 0)

/-- What the closure packs: the strings that the array points to. -/
def packElements (array : Nat) : Nat → Nat → Code (List (List UInt8))
  | 0, _ => pure []
  | n + 1, index => do
    let element ← getPointer array index
    let text ← read string? element
    let elements ← packElements array n (index + 1)
    pure (cString text :: elements)

def ext2ServiceReadDir (fs : Ext2) (request : ReadDirRequest) : Code ReadDirResponse := do
  let elements ← ext2ListDir allocator fs request.path
  let (nElements, array) ← responseElements allocator elements
  let packed ← packElements array nElements 0
  free array
  if elements ≠ 0 then listDestroyAndDestroyElements elements ext2InodeEntryFree
  pure { error := false, errorCode := 0, elements := packed }

def ext2ServiceGetAttr (fs : Ext2) (request : GetAttrRequest) : Code GetAttrResponse := do
  match ← ext2GetElementInode allocator fs request.path with
  | none =>
    pure { error := false, errorCode := 0, fileexist := false, mode := 0, nlinks := 0, blocks := 0, size := 0 }
  | some element =>
    let mode := if inodeHasModeFlag fs.device element EXT2_IFDIR then S_IFDIR ||| FS_FULL_READ_PRIV
      else S_IFREG ||| FS_FULL_READ_PRIV ||| FS_FULL_WRITE_PRIV
    pure {
      error := false
      errorCode := 0
      fileexist := true
      mode := mode
      nlinks := inodeLinksCount fs.device element
      blocks := inodeBlocks fs.device element
      size := inodeDataSize fs.device element }

/-- The buffer of the answer is on the stack. -/
def ext2ServiceRead (fs : Ext2) (request : ReadRequest) : Code ReadResponse := do
  match ← ext2GetElementInode allocator fs request.path with
  | none => pure { data := [], error := true, errorCode := 0 }
  | some element =>
    let size := inodeDataSize fs.device element
    if request.offset.toNat > size then pure { data := [], error := false, errorCode := 0 }
    else
      let sizeToRead := sizeToRead request size
      let buff ← lift (ext2ReadInodeData fs element request.offset.toNat sizeToRead 0)
      pure { data := ByteStore.readBytes buff 0 sizeToRead, error := false, errorCode := 0 }

def ext2ServiceWrite (calls : ClusterCalls) (fs : Ext2) (request : WriteRequest) :
    Code (WriteResponse × ByteStore.Memory) := do
  match ← ext2GetElementInode allocator fs request.path with
  | none => pure ({ error := true, errorCode := 0 }, fs.device)
  | some element =>
    let (written, device) := ext2WriteInodeData calls fs element (fun j => request.data.getD j 0)
      request.offset.toNat request.data.length
    lift written
    pure ({ error := false, errorCode := 0 }, device)

def serveRequest (calls : ClusterCalls) (fs : Ext2) : Request → Code (Response × ByteStore.Memory)
  | .readDir request => do
    let response ← ext2ServiceReadDir allocator fs request
    pure (.readDir response, fs.device)
  | .getAttr request => do
    let response ← ext2ServiceGetAttr allocator fs request
    pure (.getAttr response, fs.device)
  | .read request => do
    let response ← ext2ServiceRead allocator fs request
    pure (.read response, fs.device)
  | .write request => do
    let (response, device) ← ext2ServiceWrite allocator calls fs request
    pure (.write response, device)

def serveRequests (calls : ClusterCalls) (fs : Ext2) :
    ByteStore.Memory → List Request → Code (List Response × ByteStore.Memory)
  | device, [] => pure ([], device)
  | device, request :: requests => do
    let (response, device) ← serveRequest allocator calls (fs.withDevice device) request
    let (responses, device) ← serveRequests calls fs device requests
    pure (response :: responses, device)

end Handlers

section Specs

variable {allocator : Allocator (Object Record)} {fs : Ext2}

/-! The listing of a directory. -/

def entryAt (y : Nat) (entry : InodeEntry) (name : Nat) : Assertion (Object Record) :=
  cell y (.other (.inodeEntry ⟨entry.inodeIndex, name, entry.inode⟩)) * cell name (.other (.string entry.name))

def namedAt (ys : List Nat) (entryOf : Nat → InodeEntry) (nameAt : Nat → Nat) : Assertion (Object Record) :=
  each (fun y => entryAt y (entryOf y) (nameAt y)) ys

theorem entriesAt_le (ys : List Nat) (entryOf : Nat → InodeEntry) :
    entriesAt ys entryOf ≤ any fun nameAt => namedAt ys entryOf nameAt :=
  each_any_le (fun y _ => (owns_cell y _).mul _) 0 ys

theorem namedAt_le (ys : List Nat) (entryOf : Nat → InodeEntry) (nameAt : Nat → Nat) :
    namedAt ys entryOf nameAt ≤ entriesAt ys entryOf :=
  each_mono (fun y => le_any (nameAt y) le_rfl) ys

theorem readEntry_namedAt {ys : List Nat} (entryOf : Nat → InodeEntry) (nameAt : Nat → Nat) {y : Nat} (hy : y ∈ ys) :
    Spec (namedAt ys entryOf nameAt) (read entry? y) fun r => such (r.name = nameAt y) (namedAt ys entryOf nameAt) := by
  rw [namedAt, each_erase _ hy, entryAt, mul_assoc]
  refine ((readEntry_spec y _).frame _).post fun r => ?_
  rw [such_mul]
  exact such_le fun hr => le_such (by rw [hr]) le_rfl

theorem readName_namedAt {ys : List Nat} (entryOf : Nat → InodeEntry) (nameAt : Nat → Nat) {y : Nat} (hy : y ∈ ys) :
    Spec (namedAt ys entryOf nameAt) (read string? (nameAt y))
      fun r => such (r = (entryOf y).name) (namedAt ys entryOf nameAt) := by
  rw [namedAt, each_erase _ hy, entryAt, mul_comm (cell y _), mul_assoc]
  refine ((readString_spec (nameAt y) _).frame _).post fun r => ?_
  rw [such_mul]

theorem elementAt_getElem {xs : List Nat} {i : Nat} (hi : i < xs.length) : elementAt xs i = xs[i] := by
  rw [elementAt, if_pos (Int.natCast_nonneg i), Int.toNat_natCast, List.getD_eq_getElem _ _ hi]

theorem responseElementsLoop_spec {p q : Nat} (ys : List Nat) (entryOf : Nat → InodeEntry) (nameAt : Nat → Nat)
    (n i : Nat) (hi : i ≤ ys.length) (hn : ys.length < n + i) :
    Spec (isList p ys * (namedAt ys entryOf nameAt *
        cell q (.other (.pointers ((ys.take i).map nameAt ++ List.replicate (ys.length - i) 0)))))
      (responseElementsLoop p q n i)
      fun _ => isList p ys * (namedAt ys entryOf nameAt * cell q (.other (.pointers (ys.map nameAt)))) := by
  induction n generalizing i with
  | zero => omega
  | succ n ih =>
    rw [responseElementsLoop]
    refine (listSize_spec p ys).call ?_
    rcases Nat.eq_or_lt_of_le hi with rfl | hlt
    · rw [if_neg (lt_irrefl _), List.take_length, Nat.sub_self, List.replicate_zero, List.append_nil]
      exact Spec.ret_of_le le_rfl
    · rw [if_pos (Int.ofNat_lt.mpr hlt)]
      refine (listGet_spec p ys i).call ?_
      rw [elementAt_getElem hlt, mul_left_comm]
      refine (readEntry_namedAt entryOf nameAt (List.getElem_mem hlt)).step fun entry => ?_
      rw [such_mul]
      refine Spec.such fun hname => ?_
      have hpre : ((ys.take i).map nameAt).length = i := by
        rw [List.length_map, List.length_take, Nat.min_eq_left hi]
      obtain ⟨k, hk⟩ : ∃ k, ys.length - i = k + 1 := ⟨ys.length - i - 1, by omega⟩
      have hset := setPointer_spec q ((ys.take i).map nameAt) 0 entry.name (List.replicate k 0)
      rw [hpre] at hset
      rw [hk, List.replicate_succ]
      refine Spec.pre ?_ (le_of_eq (mul_left_comm _ _ _))
      refine Spec.pre ?_ (le_of_eq (by rw [← mul_assoc, mul_comm]))
      refine hset.step fun _ => (ih (i + 1) hlt (by omega)).pre (le_of_eq ?_)
      have hrest : ys.length - (i + 1) = k := by omega
      rw [hrest, hname, List.take_succ_eq_append_getElem hlt, List.map_append, List.map_singleton,
        List.append_assoc, List.singleton_append]
      ac_rfl

theorem packElements_spec {q : Nat} (ys : List Nat) (entryOf : Nat → InodeEntry) (nameAt : Nat → Nat) (n i : Nat)
    (hn : n + i = ys.length) :
    Spec (namedAt ys entryOf nameAt * cell q (.other (.pointers (ys.map nameAt)))) (packElements q n i)
      fun r => such (r = (ys.drop i).map fun y => cString (entryOf y).name)
        (namedAt ys entryOf nameAt * cell q (.other (.pointers (ys.map nameAt)))) := by
  induction n generalizing i with
  | zero =>
    refine Spec.ret_of_le (le_such ?_ le_rfl)
    rw [List.drop_eq_nil_of_le (by omega), List.map_nil]
  | succ n ih =>
    have hlt : i < ys.length := by omega
    have hget : (ys.map nameAt)[i]? = some (nameAt ys[i]) := by
      rw [List.getElem?_map, List.getElem?_eq_getElem hlt, Option.map_some]
    rw [packElements, mul_comm]
    refine (getPointer_spec hget).call ?_
    rw [mul_comm]
    refine (readName_namedAt entryOf nameAt (List.getElem_mem hlt)).call ?_
    refine (ih (i + 1) (by omega)).bind fun r => Spec.such ?_
    rintro rfl
    refine Spec.ret_of_le (le_such ?_ (le_of_eq (by rw [mul_comm])))
    rw [List.drop_eq_getElem_cons hlt, List.map_cons]

theorem isArray_nil (q : Nat) : isArray q [] = such (q = 0) (1 : Assertion (Object Record)) := if_pos rfl

theorem isArray_of_ne_nil {elements : List Nat} (hne : elements ≠ []) (q : Nat) :
    isArray q elements = cell q (.other (.pointers elements)) := if_neg hne

theorem freeArray_spec (q : Nat) (elements : List Nat) : Spec (isArray q elements) (free q) fun _ => 1 := by
  by_cases hnil : elements = []
  · rw [hnil, isArray_nil]
    refine Spec.such ?_
    rintro rfl
    exact Spec.ret (Q := fun _ => 1) ()
  · rw [isArray_of_ne_nil hnil]
    exact free_spec q _

theorem owns_isList (p : Nat) (xs : List Nat) : Owns (isList p xs : Assertion (Object Record)) p :=
  Owns.any fun _ => (owns_cell p _).mul _

theorem responseElements_spec {p : Nat} (ys : List Nat) (entryOf : Nat → InodeEntry) (nameAt : Nat → Nat) :
    Spec (isList p ys * namedAt ys entryOf nameAt) (responseElements allocator p)
      fun r => such (r.1 = ys.length) (isList p ys * (namedAt ys entryOf nameAt * isArray r.2 (ys.map nameAt))) := by
  refine Spec.ne_zero ((owns_isList p ys).mul _) fun hp => ?_
  rw [responseElements, if_pos hp]
  refine (listSize_spec p ys).call ?_
  cases ys with
  | nil =>
    refine Spec.ret_of_le (le_such rfl (le_of_eq ?_))
    rw [List.map_nil, isArray_nil, such_of_true rfl, mul_one]
  | cons y ys =>
    generalize hys : y :: ys = zs
    have hne : zs ≠ [] := hys ▸ List.cons_ne_nil y ys
    have hpos : (zs.length : Int) > 0 := Int.natCast_pos.mpr (List.length_pos_of_ne_nil hne)
    rw [if_pos hpos, Int.toNat_natCast]
    refine (malloc_spec allocator _).acquire fun q => ?_
    have hsized : Sized (cell q (.other (.pointers (List.replicate zs.length 0))) *
        (isList p zs * namedAt zs entryOf nameAt)) (0 + (0 + zs.length)) :=
      (sized_zero _).mul ((sized_zero _).mul (sized_each (fun y => (sized_cell y _).mul (sized_zero _)) zs))
    refine (turns_spec hsized).bind fun n => Spec.such fun hn => ?_
    have hloop := responseElementsLoop_spec (p := p) (q := q) zs entryOf nameAt n 0 (Nat.zero_le _) (by omega)
    refine Spec.bind (hloop.pre (le_of_eq ?_)) fun _ => Spec.ret_of_le (le_such rfl (le_of_eq ?_))
    · rw [List.take_zero, List.map_nil, List.nil_append, Nat.sub_zero]
      ac_rfl
    · rw [isArray_of_ne_nil (by rw [ne_eq, List.map_eq_nil_iff]; exact hne)]

theorem packResponse_spec {q : Nat} (ys : List Nat) (entryOf : Nat → InodeEntry) (nameAt : Nat → Nat) :
    Spec (namedAt ys entryOf nameAt * isArray q (ys.map nameAt)) (packElements q ys.length 0)
      fun r => such (r = ys.map fun y => cString (entryOf y).name)
        (namedAt ys entryOf nameAt * isArray q (ys.map nameAt)) := by
  cases ys with
  | nil => exact Spec.ret_of_le (le_such rfl le_rfl)
  | cons y ys =>
    have hne : (y :: ys).map nameAt ≠ [] := List.cons_ne_nil _ _
    rw [isArray_of_ne_nil hne]
    exact packElements_spec (y :: ys) entryOf nameAt (y :: ys).length 0 rfl

theorem ext2ServiceReadDir_computes (request : ReadDirRequest) :
    Computes 1 (ext2ServiceReadDir allocator fs request) (FuseExt2.ext2ServiceReadDir fs request)
      fun response r => such (r = response) 1 := by
  rw [ext2ServiceReadDir, FuseExt2.ext2ServiceReadDir]
  refine (ext2ListDir_computes request.path).call (fun listing p h => ?_) fun fault h => ?_
  · rw [h]
    cases listing with
    | none =>
      refine Computes.such ?_
      rintro rfl
      exact Spec.ret_of_le (le_such rfl le_rfl)
    | some entries =>
      refine Computes.any fun ys => Computes.any fun entryOf => Computes.such ?_
      rintro rfl
      show Spec _ _ _
      refine Spec.pre ?_ (mul_le_mul_right (entriesAt_le ys entryOf) (isList p ys))
      rw [mul_any]
      refine Spec.any fun nameAt => Spec.ne_zero ((owns_isList p ys).mul _) fun hp => ?_
      refine (responseElements_spec ys entryOf nameAt).bind fun r => Spec.such fun hn => ?_
      obtain ⟨nElements, array⟩ := r
      obtain rfl : nElements = ys.length := hn
      dsimp only
      rw [mul_comm]
      refine (packResponse_spec ys entryOf nameAt).call ?_
      rw [mul_comm (namedAt _ _ _), mul_assoc]
      refine (freeArray_spec array _).step fun _ => ?_
      rw [one_mul, if_pos hp, mul_comm]
      refine Spec.bind ((subelementsFree_spec p ys entryOf).pre (mul_le_mul_right (namedAt_le ys entryOf nameAt) _))
        fun _ => Spec.ret_of_le (le_such ?_ le_rfl)
      rw [List.map_map]
      rfl
  · rw [h]

/-! The other handlers, and whole runs. -/

theorem ext2ServiceGetAttr_computes (request : GetAttrRequest) :
    Computes 1 (ext2ServiceGetAttr allocator fs request) (FuseExt2.ext2ServiceGetAttr fs request)
      fun response r => such (r = response) 1 := by
  rw [ext2ServiceGetAttr, FuseExt2.ext2ServiceGetAttr]
  refine (ext2GetElementInode_computes request.path).call (fun inode r h => Computes.such ?_) fun fault h => ?_
  · rintro rfl
    rw [h]
    cases r with
    | none => exact Spec.ret_of_le (le_such rfl le_rfl)
    | some element => exact Spec.ret_of_le (le_such rfl le_rfl)
  · rw [h]

theorem ext2ServiceRead_computes (request : ReadRequest) :
    Computes 1 (ext2ServiceRead allocator fs request) (FuseExt2.ext2ServiceRead fs request)
      fun response r => such (r = response) 1 := by
  rw [ext2ServiceRead, FuseExt2.ext2ServiceRead]
  refine (ext2GetElementInode_computes request.path).call (fun inode r h => Computes.such ?_) fun fault h => ?_
  · rintro rfl
    rw [h]
    cases r with
    | none => exact Spec.ret_of_le (le_such rfl le_rfl)
    | some element =>
      dsimp only
      split_ifs with hend
      · exact Spec.ret_of_le (le_such rfl le_rfl)
      · cases ext2ReadInodeData fs element request.offset.toNat
          (sizeToRead request (inodeDataSize fs.device element)) 0 with
        | error fault => exact lift_error_fails 1 fault _
        | ok buff => exact Spec.ret_of_le (le_such rfl le_rfl)
  · rw [h]

theorem ext2ServiceWrite_computes (calls : ClusterCalls) (request : WriteRequest) :
    Computes 1 (ext2ServiceWrite allocator calls fs request)
      ((FuseExt2.ext2ServiceWrite calls fs request).1.map fun response =>
        (response, (FuseExt2.ext2ServiceWrite calls fs request).2))
      fun served r => such (r = served) 1 := by
  rw [ext2ServiceWrite, FuseExt2.ext2ServiceWrite]
  refine (ext2GetElementInode_computes request.path).call (fun inode r h => Computes.such ?_) fun fault h => ?_
  · rintro rfl
    rw [h]
    cases r with
    | none => exact Spec.ret_of_le (le_such rfl le_rfl)
    | some element =>
      dsimp only
      generalize ext2WriteInodeData calls fs element (fun j => request.data.getD j 0) request.offset.toNat
        request.data.length = written
      obtain ⟨result, device⟩ := written
      cases result with
      | error fault => exact lift_error_fails 1 fault _
      | ok done => exact Spec.ret_of_le (le_such rfl le_rfl)
  · rw [h]
    rfl

theorem answered_computes {α : Type} {c : Code α} {x : Except Fault α}
    (hc : Computes 1 c x fun response r => such (r = response) 1) (f : α → Response) (device : ByteStore.Memory) :
    Computes 1 (c >>= fun a => pure (f a, device))
      (match (x.map f, device) with
        | (.error fault, _) => .error fault
        | (.ok response, device) => .ok (response, device))
      fun served r => such (r = served) 1 := by
  refine hc.call (fun response r h => Computes.such ?_) fun fault h => by rw [h]; rfl
  rintro rfl
  rw [h]
  exact Spec.ret_of_le (le_such rfl le_rfl)

theorem serveRequest_computes (calls : ClusterCalls) (device : ByteStore.Memory) (request : Request) :
    Computes 1 (serveRequest allocator calls (fs.withDevice device) request)
      (FuseExt2.serveRequest calls fs device request) fun served r => such (r = served) 1 := by
  cases request with
  | readDir request => exact answered_computes (ext2ServiceReadDir_computes request) .readDir device
  | getAttr request => exact answered_computes (ext2ServiceGetAttr_computes request) .getAttr device
  | read request => exact answered_computes (ext2ServiceRead_computes request) .read device
  | write request =>
    refine (ext2ServiceWrite_computes calls request).call (fun served r h => Computes.such ?_) fun fault h => ?_
    · rintro rfl
      rw [FuseExt2.serveRequest, ext2Service]
      generalize FuseExt2.ext2ServiceWrite calls (fs.withDevice device) request = written at h ⊢
      obtain ⟨result, device'⟩ := written
      cases result with
      | error fault => cases h
      | ok response =>
        obtain rfl := Except.ok.inj h
        exact Spec.ret_of_le (le_such rfl le_rfl)
    · rw [FuseExt2.serveRequest, ext2Service]
      generalize FuseExt2.ext2ServiceWrite calls (fs.withDevice device) request = written at h ⊢
      obtain ⟨result, device'⟩ := written
      cases result with
      | error fault' =>
        obtain rfl := Except.error.inj h
        rfl
      | ok response => cases h

theorem serveRequests_computes (allocator : Allocator (Object Record)) (fs : Ext2) (calls : ClusterCalls)
    (device : ByteStore.Memory) (requests : List Request) :
    Computes 1 (serveRequests allocator calls fs device requests)
      (FuseExt2.serveRequests calls fs device requests) fun served r => such (r = served) 1 := by
  induction requests generalizing device with
  | nil => exact Spec.ret_of_le (le_such rfl le_rfl)
  | cons request requests ih =>
    refine Computes.bind (serveRequest_computes calls device request) fun served r _ => Computes.such ?_
    rintro rfl
    refine Computes.bind (ih r.2) fun served' r' _ => Computes.such ?_
    rintro rfl
    exact Spec.ret_of_le (le_such rfl le_rfl)

/-- The server with its allocations: for any requests, from any heap and with any allocator,
it answers as the handlers do, writes what they write, and leaves the heap as it was;
where a handler faults, so does it. -/
theorem serveRequests_gives_back (allocator : Allocator (Object Record)) (calls : ClusterCalls) (fs : Ext2)
    (requests : List Request) (h : Heap (Object Record)) :
    (∀ responses device, FuseExt2.serveRequests calls fs fs.device requests = .ok (responses, device) →
      ∃ h', serveRequests allocator calls fs fs.device requests h = .ok ((responses, device), h') ∧
        h'.cells = h.cells) ∧
      ∀ fault, FuseExt2.serveRequests calls fs fs.device requests = .error fault →
        ∃ fault', serveRequests allocator calls fs fs.device requests h = .error fault' := by
  obtain ⟨hok, hfault⟩ := (serveRequests_computes allocator fs calls fs.device requests).run h
  refine ⟨fun responses device hserved => ?_, hfault⟩
  obtain ⟨r, h', hrun, hend⟩ := hok _ hserved
  rw [such_mul, one_mul] at hend
  obtain ⟨rfl, hcells⟩ := hend
  exact ⟨h', hrun, hcells⟩

theorem serveRequests_gives_back_sample : ∃ responses device h',
    serveRequests (bump (Object Record)) keepClusters (fileFs 10) (fileFs 10).device
      [.readDir ⟨[slash]⟩, .read ⟨[slash, 0x66], 0, 3⟩] (Heap.empty _) = .ok ((responses, device), h') ∧
      h'.cells = fun _ => none := by
  obtain ⟨responses, device, hserved⟩ : ∃ responses device, FuseExt2.serveRequests keepClusters (fileFs 10)
      (fileFs 10).device [.readDir ⟨[slash]⟩, .read ⟨[slash, 0x66], 0, 3⟩] = .ok (responses, device) := ⟨_, _, rfl⟩
  obtain ⟨h', hrun, hcells⟩ := (serveRequests_gives_back (bump (Object Record)) keepClusters (fileFs 10)
    [.readDir ⟨[slash]⟩, .read ⟨[slash, 0x66], 0, 3⟩] (Heap.empty _)).1 _ _ hserved
  exact ⟨responses, device, h', hrun, hcells⟩

end Specs

end Allocated

end FuseExt2
