import FuseExt2.Client
import FuseExt2.FileService
import FuseExt2.Rpc

/-! Any number of mounted clients at one server, which runs one handler at a time:
what their calls see of the files, and which of them never end. -/

namespace FuseExt2

open ByteStore Rpc Slices WriteHistory

def Call.request : Call → Request
  | .getattr path _ => .getAttr ⟨path⟩
  | .readdir path => .readDir ⟨path⟩
  | .read path _ size offset => .read (readQuery path size offset)
  | .write path buf offset => .write (writeQuery path buf offset)

/-- What the call returns if its loop ends once the closure has had the answer;
`memory` is where the answer to a write lies. -/
def Call.finish (memory : Memory) : Call → Response → Option Int
  | .getattr _ stbuf, .getAttr response =>
    let s := getattrHandleResponse ⟨false, 0, stbuf⟩ response
    if s.isDone then some s.res else none
  | .readdir _, .readDir response =>
    let s := readdirHandleResponse ⟨false, []⟩ response
    if s.isDone then some 0 else none
  | .read _ buf _ _, .read response =>
    let s := readHandleResponse ⟨false, 0, buf⟩ response
    if s.isDone then some s.res else none
  | .write _ _ _, .write response =>
    let s := writeHandleResponse ⟨false, 0⟩ (writeResponseObject memory response)
    if s.isDone then some s.res else none
  | _, _ => none

section Finish

variable {calls : ClusterCalls} {fs : Ext2} {memory : Memory}

theorem Call.finish_getattr (path : List UInt8) (stbuf : Stat) (response : GetAttrResponse) :
    (Call.getattr path stbuf).finish memory (.getAttr response) =
      some (if response.fileexist then 0 else -ENOENT) := by
  rw [Call.finish, getattrHandleResponse]
  cases response.fileexist with
  | true => rfl
  | false => rfl

theorem Call.finish_read (path : List UInt8) (buf : Memory) (size : UInt64) (offset : Int64)
    (response : ReadResponse) :
    (Call.read path buf size offset).finish memory (.read response) =
      if response.error then none else some (toInt response.data.length) := by
  rw [Call.finish, readHandleResponse]
  cases response.error with
  | true => rfl
  | false => rfl

theorem Call.finish_write (path buf : List UInt8) (offset : Int64) (response : WriteResponse) :
    (Call.write path buf offset).finish memory (.write response) =
      if le32 memory readResponseErrorOffset = 0 then some 0 else none := by
  rw [Call.finish, writeHandleResponse, readResponseError_writeResponseObject]
  by_cases hz : le32 memory readResponseErrorOffset = 0
  · rw [if_neg (not_not.mpr hz), if_pos hz]
    rfl
  · rw [if_pos hz, if_neg hz]
    rfl

theorem exists_of_map_eq_ok {α β : Type} {x : Except Fault α} {f : α → β} {b : β} (h : x.map f = .ok b) :
    ∃ a, x = .ok a ∧ f a = b := by
  cases x with
  | error fault => cases h
  | ok a => exact ⟨a, rfl, Except.ok.inj h⟩

theorem Call.returned_eq_finish {call : Call} {response : Response}
    (h : (ext2Service calls fs call.request).1 = .ok response) {rounds : List Bool} (ha : true ∈ rounds) :
    call.returned calls fs memory rounds = call.finish memory response := by
  cases call with
  | getattr path stbuf =>
    obtain ⟨answer, hanswer, rfl⟩ := exists_of_map_eq_ok h
    rw [getattr_returned hanswer rounds ha, Call.finish_getattr]
  | readdir path =>
    obtain ⟨answer, hanswer, rfl⟩ := exists_of_map_eq_ok h
    rw [readdir_returned hanswer rounds ha]
    rfl
  | read path buf size offset =>
    obtain ⟨answer, hanswer, rfl⟩ := exists_of_map_eq_ok h
    rw [read_returned hanswer rounds ha, Call.finish_read]
  | write path buf offset =>
    obtain ⟨answer, hanswer, rfl⟩ := exists_of_map_eq_ok h
    rw [write_returned hanswer rounds ha, Call.finish_write]

end Finish

def sessions (calls : ClusterCalls) (fs : Ext2) : Service Memory Call Response Memory where
  handle device call :=
    match ext2Service calls (fs.withDevice device) call.request with
    | (.ok response, device) => some (response, device)
    | (.error _, _) => none
  ends call response memory := (call.finish memory response).isSome

def FileTable.serveCall (t : FileTable) (call : Call) : Response × FileTable := t.serve call.request

theorem sessions_simulates (calls : ClusterCalls) {fs : Ext2} {files : Set Nat} (hs : ServedFiles fs files) :
    Simulates FileTable.serveCall (sessions calls fs) (Represents fs files)
      (fun call => Admitted fs files call.request) := by
  intro m t call hrep hok
  obtain ⟨m', hservice, hrep'⟩ := ext2Service_represents calls hs hrep hok
  refine ⟨m', ?_, hrep'⟩
  simp only [sessions, hservice]
  rfl

/-! Two clients of the sample image: one writes the file "f", then the other reads it. -/

theorem fileFs_served : ServedFiles (fileFs 10) {6528} where
  sized := ⟨0, by decide, by decide⟩
  reached := by
    rintro _ rfl
    exact ⟨[slash, 0x66], fileFs_followed (by decide) (by decide), by decide⟩
  mapped := by
    rintro _ rfl
    decide
  found := by
    rintro _ rfl
    exact fileFs_blocksInRange
  placed := by
    rintro _ rfl
    decide
  apart := by
    rintro _ rfl i hi
    have hcount : dataBlockCount (fileFs 10) 6528 = 1 := rfl
    obtain rfl : i = 0 := by omega
    have hblock : referenceBlock (fileFs 10) 6528 0 = 8 := by decide
    rw [hblock, Set.disjoint_left]
    intro a ha hread
    have hl : 8192 ≤ a := ha.1
    rcases hread with (hname | hword) | ⟨node, rfl, j, hj, b, hb, -⟩
    · have := fileFs_namespace (Or.inl rfl) hname
      omega
    · have hu : a < 4 := hword.2
      omega
    · -- a direct block has no indirect one before it
      obtain rfl : j = 0 := by omega
      cases hb
  distinct := by
    rintro _ rfl i hi _ rfl i' hi' -
    have hcount : dataBlockCount (fileFs 10) 6528 = 1 := rfl
    exact ⟨rfl, by omega⟩

def sampleWrite : Call := .write [slash, 0x66] [1, 2, 3] 0

def sampleRead : Call := .read [slash, 0x66] 0 3 0

theorem fileFs_leadsInto : LeadsInto (fileFs 10) {6528} [slash, 0x66] := by
  have hnode : fileNode (fileFs 10) [slash, 0x66] = some 6528 := by decide
  refine ⟨fileFs_followed (by decide) (by decide), fun node h => ?_⟩
  exact (Option.some.inj (hnode.symm.trans h)).symm

theorem sampleWrite_admitted : Admitted (fileFs 10) {6528} sampleWrite.request := by
  refine ⟨fileFs_leadsInto, by decide, fun node hnode => ?_⟩
  obtain rfl : node = 6528 := fileFs_leadsInto.2 node hnode
  decide

theorem sampleRead_admitted : Admitted (fileFs 10) {6528} sampleRead.request := ⟨fileFs_leadsInto, by decide⟩

theorem fileFs_run : ∃ (w w' : World Bool Memory Call Response) (data : List UInt8),
    Runs (sessions keepClusters (fileFs 10)) (World.initial Bool Call Response (fileFs 10).device) w ∧
    Runs (sessions keepClusters (fileFs 10)) w w' ∧ w.returned = [(false, sampleWrite, .write ⟨false, 0⟩)] ∧
    w'.called = [(false, sampleWrite), (true, sampleRead)] ∧
    w'.served = [(false, sampleWrite, .write ⟨false, 0⟩), (true, sampleRead, .read ⟨data, false, 0⟩)] := by
  have hsim := sessions_simulates keepClusters fileFs_served
  obtain ⟨m₁, hwrite, hrep₁⟩ := hsim _ _ sampleWrite (represents_self (fileFs 10) {6528}) sampleWrite_admitted
  obtain ⟨m₂, hread, -⟩ := hsim _ _ sampleRead hrep₁ sampleRead_admitted
  have hends : (sessions keepClusters (fileFs 10)).ends sampleWrite
      ((fileTable (fileFs 10)).serveCall sampleWrite).1 0 = true := rfl
  refine ⟨_, _, _, ((Relation.ReflTransGen.single (@Step.call Bool _ _ _ _ _ _ _ false sampleWrite rfl)).tail
    (@Step.serve _ _ _ _ _ _ _ _ false _ _ _ _ rfl rfl hwrite)).tail
    (@Step.deliver _ _ _ _ _ _ _ _ false _ _ rfl 0 hends),
    (Relation.ReflTransGen.single (@Step.call Bool _ _ _ _ _ _ _ true sampleRead rfl)).tail
      (@Step.serve _ _ _ _ _ _ _ _ true _ _ _ _ rfl rfl hread), rfl, rfl, rfl⟩

theorem admitted_of_called {w : World Bool Memory Call Response}
    (h : w.called = [(false, sampleWrite), (true, sampleRead)]) :
    ∀ x ∈ w.called, Admitted (fileFs 10) {6528} x.2.request := by
  rw [h]
  intro x hx
  rcases List.mem_pair.mp hx with rfl | rfl
  · exact sampleWrite_admitted
  · exact sampleRead_admitted

theorem mountedHandle_congr {device m : Memory} (h : Set.EqOn device m superblockBytes) (groups : Nat) :
    mountedHandle m groups = (mountedHandle device groups).withDevice m := by
  have hsize : ext2GetBlockSize m = ext2GetBlockSize device := by
    rw [ext2GetBlockSize, ext2GetBlockSize, superblock_word_congr h (by decide)]
  simp only [mountedHandle, Ext2.withDevice, hsize]

theorem ext2Create_congr {fs : Ext2} {device m : Memory} (hmount : ext2Create device = .ok fs)
    (h : Set.EqOn device m superblockBytes) : ext2Create m = .ok (fs.withDevice m) := by
  obtain ⟨hmagic, hne, rfl⟩ := ext2Create_eq_ok_iff.mp hmount
  have hword : le16 m (superblockAddress + 56) = le16 device (superblockAddress + 56) :=
    (le16_congr (h.mono (Set.Ico_subset_Ico (by decide) (by decide)))).symm
  have hcount : le32 m (superblockAddress + 4) = le32 device (superblockAddress + 4) :=
    superblock_word_congr h (by decide)
  have hfirst : le32 m (superblockAddress + 20) = le32 device (superblockAddress + 20) :=
    superblock_word_congr h (by decide)
  have hgroup : le32 m (superblockAddress + 32) = le32 device (superblockAddress + 32) :=
    superblock_word_congr h (by decide)
  rw [ext2Create_eq_ok_iff, hword, hcount, hfirst, hgroup]
  exact ⟨hmagic, hne, (mountedHandle_congr h _).symm⟩

section Reads

variable {ι : Type*} [DecidableEq ι] {calls : ClusterCalls} {fs : Ext2} {files : Set Nat}
  {w : World ι Memory Call Response}

theorem after_serveCall (t : FileTable) (made : List Call) :
    after FileTable.serveCall t made = t.serveAll (made.map Call.request) := by
  rw [after, FileTable.serveAll, List.foldl_map]
  rfl

end Reads

def FileTable.readOf (t : FileTable) (node : Nat) : Call × Response → Option ((Nat × Nat) × List UInt8)
  | (call, .read response) =>
    match call.request with
    | .read request =>
      if t.node request.path = some node then
        some ((request.offset.toNat, request.length.toNat), response.data)
      else none
    | _ => none
  | _ => none

section Copies

variable {ι : Type*} [DecidableEq ι] {calls : ClusterCalls} {fs : Ext2} {files : Set Nat}
  {w : World ι Memory Call Response}

theorem FileTable.readOf_serve {t : FileTable} {node : Nat} {call : Call} {read : (Nat × Nat) × List UInt8}
    (h : t.readOf node (call, (t.serve call.request).1) = some read) :
    read.2 = slice (t.contents node) read.1.1 read.1.2 := by
  cases hrequest : call.request with
  | readDir request => simp [hrequest, FileTable.serve, FileTable.readOf] at h
  | getAttr request => simp [hrequest, FileTable.serve, FileTable.readOf] at h
  | write request =>
    cases hnode : t.node request.path with
    | none => simp [hrequest, FileTable.serve, FileTable.readOf, hnode] at h
    | some target => simp [hrequest, FileTable.serve, FileTable.readOf, hnode] at h
  | read request =>
    cases hnode : t.node request.path with
    | none => simp [hrequest, FileTable.serve, FileTable.readOf, hnode] at h
    | some target =>
      by_cases hsame : target = node
      · subst hsame
        simp only [hrequest, FileTable.serve, FileTable.readOf, hnode, if_true, Option.some.injEq] at h
        rw [← h]
      · simp [hrequest, FileTable.serve, FileTable.readOf, hnode, hsame] at h

theorem FileTable.readOf_congr {t t' : FileTable} (h : t'.node = t.node) (node : Nat) :
    t'.readOf node = t.readOf node := by
  funext x
  obtain ⟨call, response⟩ := x
  cases response with
  | readDir response => rfl
  | getAttr response => rfl
  | write response => rfl
  | read response => simp only [FileTable.readOf, h]

/-- Served reads between which the file is not written are slices of one list. -/
theorem served_reads_eq (hs : ServedFiles fs files)
    (h : Runs (sessions calls fs) (World.initial ι Call Response fs.device) w)
    (hok : ∀ x ∈ w.called, Admitted fs files x.2.request) {node : Nat} {first second : List (ι × Call × Response)}
    (hsplit : w.served = first ++ second)
    (hnone : ∀ x ∈ second, (fileTable fs).writeTo node x.2.1.request = none) :
    ∀ read ∈ second.filterMap fun x => (fileTable fs).readOf node x.2, read.2 =
      slice (((fileTable fs).serveAll (first.map fun x => x.2.1.request)).contents node) read.1.1 read.1.2 := by
  obtain ⟨hlin, -⟩ := (sessions_simulates calls hs).linearized (represents_self fs files) h hok
  intro read hread
  obtain ⟨⟨c, call, response⟩, hx, hread⟩ := List.mem_filterMap.mp hread
  obtain ⟨k, hk⟩ := List.mem_iff_getElem?.mp hx
  have hi : w.served[first.length + k]? = some (c, call, response) := by
    rw [hsplit, List.getElem?_append_right (Nat.le_add_right _ _), Nat.add_sub_cancel_left]
    exact hk
  have hresponse := hlin.response_eq hi
  rw [after_serveCall] at hresponse
  have hbefore : (w.requests.take (first.length + k)).map Call.request =
      (first.map fun x => x.2.1.request) ++ (second.take k).map fun x => x.2.1.request := by
    rw [World.requests, hsplit, List.map_append, List.take_append, List.map_append]
    simp [List.map_take, Function.comp_def]
  have hlast : ∀ request ∈ (second.take k).map fun x => x.2.1.request,
      (fileTable fs).writeTo node request = none := by
    intro request hrequest
    obtain ⟨x, hx, rfl⟩ := List.mem_map.mp hrequest
    exact hnone x (List.mem_of_mem_take hx)
  have hcontents : ((fileTable fs).serveAll ((w.requests.take (first.length + k)).map Call.request)).contents node =
      ((fileTable fs).serveAll (first.map fun x => x.2.1.request)).contents node := by
    rw [hbefore, FileTable.serveAll_contents_eq, FileTable.serveAll_contents_eq, List.filterMap_append,
      List.filterMap_eq_nil_iff.mpr hlast, List.append_nil]
  have hnode := (fileTable fs).serveAll_node ((w.requests.take (first.length + k)).map Call.request)
  rw [← FileTable.readOf_congr hnode, hresponse] at hread
  rw [FileTable.readOf_serve hread, hcontents]

end Copies

/-- A read of a path that names nothing: its closure returns before it sets `is_done`. -/
def Call.ReadsMissing (fs : Ext2) : Call → Prop
  | .read path _ _ _ => fileNode fs path = none
  | _ => False

section Ends

variable {ι : Type*} [DecidableEq ι] {calls : ClusterCalls} {fs : Ext2} {files : Set Nat}
  {w : World ι Memory Call Response}

theorem Call.ReadsMissing.not_finish {t : FileTable} {call : Call} (hnode : t.node = (fileTable fs).node)
    (h : call.ReadsMissing fs) (memory : Memory) : call.finish memory (t.serveCall call).1 = none := by
  cases call with
  | read path buf size offset =>
    have hnone : t.node path = none := by
      rw [hnode]
      exact h
    simp only [FileTable.serveCall, Call.request, FileTable.serve, readQuery, hnone, Call.finish_read, if_true]
  | getattr path stbuf => exact h.elim
  | readdir path => exact h.elim
  | write path buf offset => exact h.elim

theorem finish_zero_isSome {t : FileTable} {call : Call} (hnode : t.node = (fileTable fs).node)
    (hok : Admitted fs files call.request) (h : ¬ call.ReadsMissing fs) :
    (call.finish 0 (t.serveCall call).1).isSome = true := by
  cases call with
  | getattr path stbuf => simp only [FileTable.serveCall, Call.request, FileTable.serve, Call.finish_getattr,
      Option.isSome_some]
  | readdir path => rfl
  | read path buf size offset =>
    obtain ⟨node, hpath⟩ := Option.ne_none_iff_exists'.mp h
    have hsome : t.node path = some node := by
      rw [hnode]
      exact hpath
    simp [FileTable.serveCall, Call.request, FileTable.serve, readQuery, hsome, Call.finish_read]
  | write path buf offset =>
    have hzero : le32 0 readResponseErrorOffset = 0 := rfl
    simp only [FileTable.serveCall, Call.request, FileTable.serve]
    split <;> simp [Call.finish_write, hzero]

theorem returned_not_readsMissing (hs : ServedFiles fs files)
    (h : Runs (sessions calls fs) (World.initial ι Call Response fs.device) w)
    (hok : ∀ x ∈ w.called, Admitted fs files x.2.request) {c : ι} {call : Call} {response : Response}
    (hx : (c, call, response) ∈ w.returned) : ¬ call.ReadsMissing fs := by
  obtain ⟨hlin, -⟩ := (sessions_simulates calls hs).linearized (represents_self fs files) h hok
  obtain ⟨memory, hends⟩ := h.returned_ends (fun x hx => absurd hx List.not_mem_nil) _ hx
  have hserved := (hlin.inOrder c).served
  rw [World.view] at hserved
  have hmem : (c, call, response) ∈ w.served := by
    rw [← mem_ofClient]
    simp only at hserved
    rw [hserved]
    exact List.mem_append_left _ (mem_ofClient.mpr hx)
  obtain ⟨i, hi⟩ := List.mem_iff_getElem?.mp hmem
  have hresponse := hlin.response_eq hi
  intro hmissing
  have hnode : (after FileTable.serveCall (fileTable fs) (w.requests.take i)).node = (fileTable fs).node := by
    rw [after_serveCall, FileTable.serveAll_node]
  have hnone := hmissing.not_finish hnode memory
  rw [← hresponse] at hnone
  simp [sessions, hnone] at hends

end Ends

end FuseExt2
