import FuseExt2.Await
import FuseExt2.Server

/-! The client's calls: each sends one request and dispatches until the closure
that gets the answer has set `is_done`. -/

namespace FuseExt2

open ByteStore Await

def ENOENT : Int := 2

/-- A `size_t` or `uint32_t` stored in an `int`. -/
def toInt (n : Nat) : Int := (BitVec.ofNat 32 n).toInt

structure Stat where
  stMode : Nat
  stSize : Nat
  stNlink : Nat
  stBlocks : Nat

structure GetattrLocals where
  isDone : Bool
  res : Int
  stbuf : Stat

/-- `filled` are the names passed to the filler. -/
structure ReaddirLocals where
  isDone : Bool
  filled : List (List UInt8)

structure ReadLocals where
  isDone : Bool
  res : Int
  buf : Memory

structure WriteLocals where
  isDone : Bool
  res : Int

def getattrHandleResponse (s : GetattrLocals) (result : GetAttrResponse) : GetattrLocals :=
  if !result.fileexist then { s with isDone := true, res := -ENOENT }
  else { s with isDone := true, stbuf := ⟨result.mode, result.size, result.nlinks, result.blocks⟩ }

def readdirHandleResponse (s : ReaddirLocals) (result : ReadDirResponse) : ReaddirLocals :=
  { s with filled := s.filled ++ result.elements, isDone := true }

/-- On an error the closure returns before it sets `is_done`. -/
def readHandleResponse (s : ReadLocals) (result : ReadResponse) : ReadLocals :=
  if result.error then { s with res := -ENOENT }
  else {
    s with
    buf := memcpy s.buf 0 (fun j => result.data.getD j 0) 0 result.data.length
    res := toInt result.data.length
    isDone := true }

/-! The write closure gets a `WriteResponse` and takes it for a `ReadResponse`. The
layouts are those of a 64-bit machine, with a message base of 24 bytes. -/

def writeResponseErrorOffset : Nat := 24

def readResponseErrorOffset : Nat := 40

/-- The answer as an object at address 0, 32 bytes long, of the client's memory. -/
def writeResponseObject (memory : Memory) (result : WriteResponse) : Memory :=
  putLe32 (putLe32 memory writeResponseErrorOffset (if result.error then 1 else 0))
    (writeResponseErrorOffset + 4) result.errorCode.toNat

def writeHandleResponse (s : WriteLocals) (result : Memory) : WriteLocals :=
  if le32 result readResponseErrorOffset ≠ 0 then { s with res := -ENOENT }
  else { s with isDone := true }

/-! The calls, for the dispatches in which the answer does or does not arrive. -/

def fuseExt2Getattr (fs : Ext2) (path : List UInt8) (stbuf : Stat) (rounds : List Bool) : Option (Int × Stat) :=
  (waitLoop getattrHandleResponse GetattrLocals.isDone
    ⟨⟨false, 0, stbuf⟩, (ext2ServiceGetAttr fs ⟨path⟩).toOption⟩ rounds).map (fun s => (s.res, s.stbuf))

def fuseExt2Readdir (fs : Ext2) (path : List UInt8) (rounds : List Bool) : Option (Int × List (List UInt8)) :=
  (waitLoop readdirHandleResponse ReaddirLocals.isDone
    ⟨⟨false, []⟩, (ext2ServiceReadDir fs ⟨path⟩).toOption⟩ rounds).map (fun s => (0, s.filled))

/-- The query has 32 bits for the offset and for the length. -/
def readQuery (path : List UInt8) (size : UInt64) (offset : Int64) : ReadRequest :=
  ⟨path, offset.toUInt64.toUInt32, size.toUInt32⟩

def fuseExt2Read (fs : Ext2) (path : List UInt8) (buf : Memory) (size : UInt64) (offset : Int64)
    (rounds : List Bool) : Option (Int × Memory) :=
  (waitLoop readHandleResponse ReadLocals.isDone
    ⟨⟨false, 0, buf⟩, (ext2ServiceRead fs (readQuery path size offset)).toOption⟩ rounds).map
      (fun s => (s.res, s.buf))

/-- `buf` are the bytes to write; `memory` holds the answer when it arrives. -/
def writeQuery (path buf : List UInt8) (offset : Int64) : WriteRequest := ⟨path, offset.toUInt64.toUInt32, buf⟩

def fuseExt2Write (calls : ClusterCalls) (fs : Ext2) (memory : Memory) (path buf : List UInt8) (offset : Int64)
    (rounds : List Bool) : Option Int :=
  (waitLoop writeHandleResponse WriteLocals.isDone
    ⟨⟨false, 0⟩, (ext2ServiceWrite calls fs (writeQuery path buf offset)).1.toOption.map
      (writeResponseObject memory)⟩ rounds).map (fun s => s.res)

/-! What a call comes to once its answer has arrived. -/

inductive Call where
  | getattr (path : List UInt8) (stbuf : Stat)
  | readdir (path : List UInt8)
  | read (path : List UInt8) (buf : Memory) (size : UInt64) (offset : Int64)
  | write (path buf : List UInt8) (offset : Int64)

def Call.path : Call → List UInt8
  | .getattr path _ => path
  | .readdir path => path
  | .read path _ _ _ => path
  | .write path _ _ => path

def Call.Answered (calls : ClusterCalls) (fs : Ext2) : Call → Prop
  | .getattr path _ => ∃ response, ext2ServiceGetAttr fs ⟨path⟩ = .ok response
  | .readdir path => ∃ response, ext2ServiceReadDir fs ⟨path⟩ = .ok response
  | .read path _ size offset => ∃ response, ext2ServiceRead fs (readQuery path size offset) = .ok response
  | .write path buf offset => ∃ response, (ext2ServiceWrite calls fs (writeQuery path buf offset)).1 = .ok response

def Call.returned (calls : ClusterCalls) (fs : Ext2) (memory : Memory) : Call → List Bool → Option Int
  | .getattr path stbuf, rounds => (fuseExt2Getattr fs path stbuf rounds).map Prod.fst
  | .readdir path, rounds => (fuseExt2Readdir fs path rounds).map Prod.fst
  | .read path buf size offset, rounds => (fuseExt2Read fs path buf size offset rounds).map Prod.fst
  | .write path buf offset, rounds => fuseExt2Write calls fs memory path buf offset rounds

/-- When the answer has arrived the call returns, with `-ENOENT` exactly if the
server could not resolve the path. -/
def Call.Agrees (calls : ClusterCalls) (fs : Ext2) (memory : Memory) (call : Call) : Prop :=
  ∀ rounds, true ∈ rounds → ∃ res, call.returned calls fs memory rounds = some res ∧
    (res = -ENOENT ↔ ext2GetElementInode fs call.path = .ok none)

def answeredLength (fs : Ext2) (node : Nat) (request : ReadRequest) : Nat :=
  if request.offset.toNat > inodeDataSize fs.device node then 0
  else sizeToRead request (inodeDataSize fs.device node)

/-- What a call needs besides an answer: the closures of `readdir`, `read` and `write`
do not report a path that the server could not resolve. -/
def Call.Clean (fs : Ext2) (memory : Memory) : Call → Prop
  | .getattr _ _ => True
  | .readdir path => ∃ node, ext2GetElementInode fs path = .ok (some node)
  | .read path _ size offset => ∃ node, ext2GetElementInode fs path = .ok (some node) ∧
      answeredLength fs node (readQuery path size offset) ≠ 2 ^ 32 - 2
  | .write path _ _ => (∃ node, ext2GetElementInode fs path = .ok (some node)) ∧
      le32 memory readResponseErrorOffset = 0

theorem toInt_eq_neg_ENOENT_iff {n : Nat} (h : n < 2 ^ 32) : toInt n = -ENOENT ↔ n = 2 ^ 32 - 2 := by
  rw [toInt, ENOENT, BitVec.toInt_eq_toNat_cond, BitVec.toNat_ofNat, Nat.mod_eq_of_lt h]
  split
  · omega
  · omega

section Calls

variable {calls : ClusterCalls} {fs : Ext2} {memory : Memory}

theorem answeredLength_lt (fs : Ext2) (node : Nat) (request : ReadRequest) :
    answeredLength fs node request < 2 ^ 32 := by
  have hsize : inodeDataSize fs.device node < 2 ^ 32 := le32_lt fs.device (node + 4)
  have hlength := request.length.toNat_lt
  rw [answeredLength, sizeToRead]
  split_ifs
  · decide
  · omega
  · omega

theorem ext2ServiceRead_answer {request : ReadRequest} {response : ReadResponse} {node : Nat}
    (hpath : ext2GetElementInode fs request.path = .ok (some node)) (h : ext2ServiceRead fs request = .ok response) :
    response.error = false ∧ response.data.length = answeredLength fs node request := by
  rw [ext2ServiceRead, hpath] at h
  simp only at h
  by_cases hoff : request.offset.toNat > inodeDataSize fs.device node
  · rw [if_pos hoff] at h
    obtain rfl := Except.ok.inj h
    exact ⟨rfl, by rw [answeredLength, if_pos hoff]; rfl⟩
  · rw [if_neg hoff] at h
    cases hread : ext2ReadInodeData fs node request.offset.toNat
      (sizeToRead request (inodeDataSize fs.device node)) 0 with
    | error fault =>
      rw [hread] at h
      cases h
    | ok buff =>
      rw [hread] at h
      obtain rfl := Except.ok.inj h
      exact ⟨rfl, by rw [answeredLength, if_neg hoff]; exact readBytes_length _ _ _⟩

theorem Call.agrees_iff_of_returned {call : Call} {res : Option Int}
    (h : ∀ rounds, true ∈ rounds → call.returned calls fs memory rounds = res) :
    call.Agrees calls fs memory ↔
      ∃ r, res = some r ∧ (r = -ENOENT ↔ ext2GetElementInode fs call.path = .ok none) := by
  constructor
  · intro hagrees
    have hone := hagrees [true] (List.mem_singleton_self true)
    rw [h [true] (List.mem_singleton_self true)] at hone
    exact hone
  · intro hres rounds ha
    rw [h rounds ha]
    exact hres

theorem getattr_returned {path : List UInt8} {stbuf : Stat} {response : GetAttrResponse}
    (h : ext2ServiceGetAttr fs ⟨path⟩ = .ok response) (rounds : List Bool) (ha : true ∈ rounds) :
    (Call.getattr path stbuf).returned calls fs memory rounds = some (if response.fileexist then 0 else -ENOENT) := by
  have hloop := waitLoop_of_arrives getattrHandleResponse GetattrLocals.isDone (s := ⟨false, 0, stbuf⟩) rfl
    response ha
  rw [Call.returned, fuseExt2Getattr, h, Except.toOption, hloop, getattrHandleResponse]
  cases response.fileexist with
  | true => rfl
  | false => rfl

theorem readdir_returned {path : List UInt8} {response : ReadDirResponse}
    (h : ext2ServiceReadDir fs ⟨path⟩ = .ok response) (rounds : List Bool) (ha : true ∈ rounds) :
    (Call.readdir path).returned calls fs memory rounds = some 0 := by
  have hloop := waitLoop_of_arrives readdirHandleResponse ReaddirLocals.isDone (s := ⟨false, []⟩) rfl response ha
  rw [Call.returned, fuseExt2Readdir, h, Except.toOption, hloop]
  rfl

theorem read_returned {path : List UInt8} {buf : Memory} {size : UInt64} {offset : Int64} {response : ReadResponse}
    (h : ext2ServiceRead fs (readQuery path size offset) = .ok response) (rounds : List Bool) (ha : true ∈ rounds) :
    (Call.read path buf size offset).returned calls fs memory rounds =
      if response.error then none else some (toInt response.data.length) := by
  have hloop := waitLoop_of_arrives readHandleResponse ReadLocals.isDone (s := ⟨false, 0, buf⟩) rfl response ha
  rw [Call.returned, fuseExt2Read, h, Except.toOption, hloop, readHandleResponse]
  cases response.error with
  | true => rfl
  | false => rfl

theorem readResponseError_writeResponseObject (memory : Memory) (response : WriteResponse) :
    le32 (writeResponseObject memory response) readResponseErrorOffset = le32 memory readResponseErrorOffset := rfl

theorem write_returned {path buf : List UInt8} {offset : Int64} {response : WriteResponse}
    (h : (ext2ServiceWrite calls fs (writeQuery path buf offset)).1 = .ok response) (rounds : List Bool)
    (ha : true ∈ rounds) :
    (Call.write path buf offset).returned calls fs memory rounds =
      if le32 memory readResponseErrorOffset = 0 then some 0 else none := by
  have hloop := waitLoop_of_arrives writeHandleResponse WriteLocals.isDone (s := ⟨false, 0⟩) rfl
    (writeResponseObject memory response) ha
  rw [Call.returned, fuseExt2Write, h, Except.toOption, Option.map_some, hloop, writeHandleResponse,
    readResponseError_writeResponseObject]
  by_cases hz : le32 memory readResponseErrorOffset = 0
  · rw [if_neg (not_not.mpr hz), if_pos hz]
    rfl
  · rw [if_pos hz, if_neg hz]
    rfl

theorem Call.Answered.resolved {call : Call} (h : call.Answered calls fs) :
    ∃ element, ext2GetElementInode fs call.path = .ok element := by
  cases hpath : ext2GetElementInode fs call.path with
  | ok element => exact ⟨element, rfl⟩
  | error fault =>
    exfalso
    cases call with
    | getattr path stbuf =>
      obtain ⟨response, h⟩ := h
      rw [ext2ServiceGetAttr, show ext2GetElementInode fs path = .error fault from hpath] at h
      cases h
    | readdir path =>
      obtain ⟨response, h⟩ := h
      rw [ext2ServiceReadDir, ext2ListDir, show ext2GetElementInode fs path = .error fault from hpath] at h
      cases h
    | read path buf size offset =>
      obtain ⟨response, h⟩ := h
      rw [ext2ServiceRead, readQuery, show ext2GetElementInode fs path = .error fault from hpath] at h
      cases h
    | write path buf offset =>
      obtain ⟨response, h⟩ := h
      rw [ext2ServiceWrite, writeQuery, show ext2GetElementInode fs path = .error fault from hpath] at h
      cases h

theorem exists_node_iff {path : List UInt8} (h : ∃ element, ext2GetElementInode fs path = .ok element) :
    (∃ node, ext2GetElementInode fs path = .ok (some node)) ↔ ext2GetElementInode fs path ≠ .ok none := by
  obtain ⟨element, h⟩ := h
  rw [h]
  cases element with
  | none => simp
  | some node => simp

theorem getattr_agrees {path : List UInt8} {stbuf : Stat} (hans : (Call.getattr path stbuf).Answered calls fs) :
    (Call.getattr path stbuf).Agrees calls fs memory := by
  obtain ⟨element, hpath⟩ := hans.resolved
  obtain ⟨response, hans⟩ := hans
  rw [Call.agrees_iff_of_returned (getattr_returned hans)]
  refine ⟨_, rfl, ?_⟩
  rw [hpath]
  rw [ext2ServiceGetAttr, show ext2GetElementInode fs path = .ok element from hpath] at hans
  cases element with
  | none =>
    obtain rfl := Except.ok.inj hans
    simp
  | some node =>
    obtain rfl := Except.ok.inj hans
    simp [ENOENT]

theorem readdir_agrees_iff {path : List UInt8} (hans : (Call.readdir path).Answered calls fs) :
    (Call.readdir path).Agrees calls fs memory ↔ (Call.readdir path).Clean fs memory := by
  have hnode := exists_node_iff hans.resolved
  obtain ⟨response, hans⟩ := hans
  rw [Call.agrees_iff_of_returned (readdir_returned hans), Call.Clean]
  refine Iff.trans ?_ hnode.symm
  simp [ENOENT, Call.path]

theorem read_agrees_iff {path : List UInt8} {buf : Memory} {size : UInt64} {offset : Int64}
    (hans : (Call.read path buf size offset).Answered calls fs) :
    (Call.read path buf size offset).Agrees calls fs memory ↔
      (Call.read path buf size offset).Clean fs memory := by
  obtain ⟨element, hpath⟩ := hans.resolved
  obtain ⟨response, hans⟩ := hans
  have hpath' : ext2GetElementInode fs path = .ok element := hpath
  rw [Call.agrees_iff_of_returned (read_returned hans), Call.Clean, hpath, hpath']
  cases element with
  | none =>
    rw [ext2ServiceRead, readQuery, hpath'] at hans
    obtain rfl := Except.ok.inj hans
    simp
  | some node =>
    obtain ⟨herror, hlength⟩ := ext2ServiceRead_answer hpath' hans
    have hlt := answeredLength_lt fs node (readQuery path size offset)
    rw [herror, hlength]
    simp [toInt_eq_neg_ENOENT_iff hlt]

theorem write_agrees_iff {path buf : List UInt8} {offset : Int64}
    (hans : (Call.write path buf offset).Answered calls fs) :
    (Call.write path buf offset).Agrees calls fs memory ↔ (Call.write path buf offset).Clean fs memory := by
  have hnode := exists_node_iff hans.resolved
  obtain ⟨response, hans⟩ := hans
  rw [Call.agrees_iff_of_returned (write_returned hans), Call.Clean]
  by_cases hz : le32 memory readResponseErrorOffset = 0
  · rw [if_pos hz]
    refine Iff.trans ?_ (and_congr_left fun _ => hnode.symm)
    simp [ENOENT, Call.path, hz]
  · rw [if_neg hz]
    simp [hz]

theorem call_agrees_iff {call : Call} (hans : call.Answered calls fs) :
    call.Agrees calls fs memory ↔ call.Clean fs memory := by
  cases call with
  | getattr path stbuf => exact iff_of_true (getattr_agrees hans) trivial
  | readdir path => exact readdir_agrees_iff hans
  | read path buf size offset => exact read_agrees_iff hans
  | write path buf offset => exact write_agrees_iff hans

end Calls

theorem call_agrees_iff_sample : (Call.read [slash, 0x66] 0 4 2).Agrees keepClusters (fileFs 10) 0 ↔
    (Call.read [slash, 0x66] 0 4 2).Clean (fileFs 10) 0 :=
  call_agrees_iff ⟨_, rfl⟩

/-- For "/g", which does not exist, a read never returns and a listing returns 0. -/
theorem not_agrees_missing :
    (Call.read [slash, 0x67] 0 4 0).Answered keepClusters (fileFs 10) ∧
    ¬ (Call.read [slash, 0x67] 0 4 0).Agrees keepClusters (fileFs 10) 0 ∧
    (Call.readdir [slash, 0x67]).Answered keepClusters (fileFs 10) ∧
    ¬ (Call.readdir [slash, 0x67]).Agrees keepClusters (fileFs 10) 0 := by
  have hmissing : ext2GetElementInode (fileFs 10) [slash, 0x67] = .ok none := rfl
  have hread : (Call.read [slash, 0x67] 0 4 0).Answered keepClusters (fileFs 10) := ⟨_, rfl⟩
  have hreaddir : (Call.readdir [slash, 0x67]).Answered keepClusters (fileFs 10) := ⟨_, rfl⟩
  refine ⟨hread, fun h => ?_, hreaddir, fun h => ?_⟩
  · obtain ⟨node, hnode, -⟩ := (read_agrees_iff hread).mp h
    cases Except.ok.inj (hmissing.symm.trans hnode)
  · obtain ⟨node, hnode⟩ := (readdir_agrees_iff hreaddir).mp h
    cases Except.ok.inj (hmissing.symm.trans hnode)

end FuseExt2
