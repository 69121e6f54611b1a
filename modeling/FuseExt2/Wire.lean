import FuseExt2.Client
import FuseExt2.ServerReads

/-! Transfers of file data over the wire: the file positions that a read or a write
of the client comes to touch on the server, and the count that a write returns. -/

namespace FuseExt2

open ByteStore Await

theorem queryOffset_toNat (path : List UInt8) (size : UInt64) (offset : Nat) :
    (readQuery path size (Int64.ofNat offset)).offset.toNat = offset % 2 ^ 32 := by
  rw [readQuery, Int64.toUInt64_ofNat', UInt64.toNat_toUInt32, UInt64.toNat_ofNat']
  exact Nat.mod_mod_of_dvd offset (by decide)

theorem queryLength_toNat (path : List UInt8) (size : UInt64) (offset : Nat) :
    (readQuery path size (Int64.ofNat offset)).length.toNat = size.toNat % 2 ^ 32 := UInt64.toNat_toUInt32 size

/-! What a handler accesses. -/

def ext2ServiceReadAccesses (fs : Ext2) (request : ReadRequest) : List Access :=
  match ext2GetElementInode fs request.path with
  | .ok (some element) =>
    let size := inodeDataSize fs.device element
    if request.offset.toNat > size then []
    else readAccesses fs element request.offset.toNat (sizeToRead request size)
  | _ => []

def ext2ServiceWriteAccesses (calls : ClusterCalls) (fs : Ext2) (request : WriteRequest) : List Access :=
  match ext2GetElementInode fs request.path with
  | .ok (some element) =>
    writeAccesses calls fs element (fun j => request.data.getD j 0) request.offset.toNat request.data.length
  | _ => []

/-- A FUSE read or write; the offset is below 2^63. -/
inductive Transfer
  | read (path : List UInt8) (size : UInt64) (offset : Nat)
  | write (path buf : List UInt8) (offset : Nat)

/-- The answer holds the bytes of the file in the range, clipped at its end, and each
byte that has a place on the device is loaded from there. -/
structure LoadsRange (fs : Ext2) (request : ReadRequest) (node offset size : Nat) (response : ReadResponse) :
    Prop where
  data : response.data = readBytes (fileByte fs node) offset (min size (inodeDataSize fs.device node - offset))
  loads : ∀ copy ∈ copies (ext2ServiceReadAccesses fs request), ∀ a ∈ fileByteAddress fs node (offset + copy.2.1),
    copy.2.2 = a

/-- The device after the resize that the handler may start with. -/
def resizedDevice (calls : ClusterCalls) (fs : Ext2) (request : WriteRequest) (node : Nat) : Memory :=
  (resizedFor calls fs node (request.offset.toNat + request.data.length)).2

/-- The first `k` bytes of the data are stored in the places of the range and nothing
else is, after a resize if there is one; all of them are if the answer is no error. -/
structure StoresRange (calls : ClusterCalls) (fs : Ext2) (request : WriteRequest) (node offset k : Nat)
    (address : Nat → Nat) : Prop where
  le : k ≤ request.data.length
  places : ∀ j < k,
    fileByteAddress (fs.withDevice (resizedDevice calls fs request node)) node (offset + j) = some (address j)
  stores : (copies (ext2ServiceWriteAccesses calls fs request)).map Prod.snd =
    (List.range k).map (fun j => (j, address j))
  device : (ext2ServiceWrite calls fs request).2 =
    storeSeq (resizedDevice calls fs request node) address (fun j => request.data.getD j 0) k
  all : ∀ code, (ext2ServiceWrite calls fs request).1 = .ok ⟨false, code⟩ → k = request.data.length

/-- The operation on the server acts on the range of the transfer, or it fails, or it
reads nothing. -/
def Transfer.OnRange (calls : ClusterCalls) (fs : Ext2) : Transfer → Prop
  | .read path size offset =>
    let request := readQuery path size (Int64.ofNat offset)
    ∀ node response, ext2GetElementInode fs path = .ok (some node) → ext2ServiceRead fs request = .ok response →
      response.data = [] ∨ LoadsRange fs request node offset size.toNat response
  | .write path buf offset =>
    let request := writeQuery path buf (Int64.ofNat offset)
    (∀ node, ext2GetElementInode fs path = .ok (some node) →
      ∃ k address, StoresRange calls fs request node offset k address) ∧
    ((∀ node, ext2GetElementInode fs path ≠ .ok (some node)) →
      (ext2ServiceWrite calls fs request).2 = fs.device ∧
        ∀ code, (ext2ServiceWrite calls fs request).1 ≠ .ok ⟨false, code⟩)

/-- The cut offset lies at or past the end, or the cut length is 0, or the sum of both
has 32 bits and the cuts change nothing of the range in the file. -/
def ReadFits (fileSize offset size : Nat) : Prop :=
  fileSize < offset % 2 ^ 32 ∨ size % 2 ^ 32 = 0 ∨ offset % 2 ^ 32 + size % 2 ^ 32 < 2 ^ 32 ∧
    (offset % 2 ^ 32 = fileSize ∨ offset < 2 ^ 32 ∧ (size < 2 ^ 32 ∨ fileSize ≤ offset + size % 2 ^ 32))

/-- The lookup at the cut position gives the place of the byte, or a zero for a hole. -/
def ByteFound (fs : Ext2) (node offset j : Nat) : Prop :=
  let found := byteAddress fs (foundBlock fs node) (offset % 2 ^ 32 + j)
  fileByteAddress fs node (offset + j) = some found ∨
    fileByteAddress fs node (offset + j) = none ∧ fs.device found = 0

/-- The cuts leave the range of a read as it is, and the blocks of the answered range
are found where the map has them. For a write each block of the range, looked up at
the cut position with the bytes before it stored, is where the map has it, as long as
the blocks are found. -/
def Transfer.Fits (calls : ClusterCalls) (fs : Ext2) : Transfer → Prop
  | .read path size offset => ∀ node, ext2GetElementInode fs path = .ok (some node) →
      LookupsFound fs node (offset % 2 ^ 32) (answeredLength fs node (readQuery path size (Int64.ofNat offset))) →
      ReadFits (inodeDataSize fs.device node) offset size.toNat ∧
        ∀ j < answeredLength fs node (readQuery path size (Int64.ofNat offset)), ByteFound fs node offset j
  | .write path buf offset => ∀ node, ext2GetElementInode fs path = .ok (some node) → ∀ device,
      resizedFor calls fs node (offset % 2 ^ 32 + buf.length) = (.ok (), device) → ∀ j < buf.length,
        let place := fun j => fileByteAddress (fs.withDevice device) node (offset + j)
        PlaceFound fs (placedLookup fs node (offset % 2 ^ 32) place (fun j => buf.getD j 0) device) place
          (offset % 2 ^ 32) (offset % 2 ^ 32 / fs.blockSize) j

theorem readFits_iff {fs : Ext2} {node offset : Nat} (path : List UInt8) (size : UInt64)
    (hin : ¬ offset % 2 ^ 32 > inodeDataSize fs.device node) :
    ReadFits (inodeDataSize fs.device node) offset size.toNat ↔
      answeredLength fs node (readQuery path size (Int64.ofNat offset)) = 0 ∨ offset % 2 ^ 32 = offset ∧
        answeredLength fs node (readQuery path size (Int64.ofNat offset)) =
          min size.toNat (inodeDataSize fs.device node - offset) := by
  have hsize : inodeDataSize fs.device node < 2 ^ 32 := le32_lt _ _
  have hanswered : answeredLength fs node (readQuery path size (Int64.ofNat offset)) = _ :=
    if_neg ((queryOffset_toNat path size offset).symm ▸ hin)
  rw [sizeToRead, queryOffset_toNat, queryLength_toNat] at hanswered
  rw [ReadFits]
  split at hanswered <;> omega

section Read

variable {fs : Ext2} {request : ReadRequest} {node : Nat}

theorem ext2ServiceRead_past (hpath : ext2GetElementInode fs request.path = .ok (some node))
    (hpast : request.offset.toNat > inodeDataSize fs.device node) :
    ext2ServiceRead fs request = .ok ⟨[], false, 0⟩ := by
  rw [ext2ServiceRead, hpath]
  simp only [if_pos hpast]

theorem ext2ServiceRead_found_iff (hbs : 0 < fs.blockSize)
    (hpath : ext2GetElementInode fs request.path = .ok (some node))
    (hin : ¬ request.offset.toNat > inodeDataSize fs.device node) :
    (∃ response, ext2ServiceRead fs request = .ok response) ↔
      LookupsFound fs node request.offset.toNat (answeredLength fs node request) := by
  rw [← exists_ext2ReadInodeData_iff hbs node request.offset.toNat _ 0, answeredLength, if_neg hin, ext2ServiceRead,
    hpath]
  simp only [if_neg hin]
  cases ext2ReadInodeData fs node request.offset.toNat (sizeToRead request (inodeDataSize fs.device node)) 0 with
  | error fault => simp
  | ok buff => simp

theorem ext2ServiceRead_found (hbs : 0 < fs.blockSize)
    (hpath : ext2GetElementInode fs request.path = .ok (some node))
    (hin : ¬ request.offset.toNat > inodeDataSize fs.device node)
    (hfound : LookupsFound fs node request.offset.toNat (answeredLength fs node request)) :
    ext2ServiceRead fs request =
      .ok ⟨readBytes (fileView fs node) request.offset.toNat (answeredLength fs node request), false, 0⟩ := by
  rw [answeredLength, if_neg hin] at hfound ⊢
  rw [ext2ServiceRead, hpath]
  simp only [if_neg hin, ext2ReadInodeData_eq_fileView hbs hfound, readBytes_memcpy]

theorem ext2ServiceReadAccesses_copies (hbs : 0 < fs.blockSize)
    (hpath : ext2GetElementInode fs request.path = .ok (some node))
    (hin : ¬ request.offset.toNat > inodeDataSize fs.device node)
    (hfound : LookupsFound fs node request.offset.toNat (answeredLength fs node request)) :
    copies (ext2ServiceReadAccesses fs request) = (List.range (answeredLength fs node request)).map
      (copyAt fs (foundBlock fs node) request.offset.toNat) := by
  obtain ⟨hcopies, -⟩ := readAccesses_eq hbs hfound.dataToCopy_eq
  rw [answeredLength, if_neg hin] at hcopies ⊢
  rw [ext2ServiceReadAccesses, hpath]
  simp only [if_neg hin]
  exact hcopies

end Read

theorem ext2ServiceWrite_answered {calls : ClusterCalls} {fs : Ext2} {request : WriteRequest} {code : UInt32}
    (h : (ext2ServiceWrite calls fs request).1 = .ok ⟨false, code⟩) :
    ∃ node, ext2GetElementInode fs request.path = .ok (some node) ∧
      (ext2WriteInodeData calls fs node (fun j => request.data.getD j 0) request.offset.toNat
        request.data.length).1 = .ok () := by
  rw [ext2ServiceWrite] at h
  cases hpath : ext2GetElementInode fs request.path with
  | error fault =>
    rw [hpath] at h
    cases h
  | ok element =>
    cases element with
    | none =>
      rw [hpath] at h
      cases h
    | some node =>
      simp only [hpath] at h
      refine ⟨node, rfl, ?_⟩
      cases hwrite : ext2WriteInodeData calls fs node (fun j => request.data.getD j 0) request.offset.toNat
        request.data.length with
      | mk outcome device =>
        rw [hwrite] at h
        cases outcome with
        | error fault => cases h
        | ok done => rfl

section Transfers

variable (calls : ClusterCalls) {fs : Ext2}

/-- The bytes of an answer, and where they come from, are those of the file. -/
theorem loadsRange_iff {path : List UInt8} {size : UInt64} {offset node n : Nat}
    (hn : n = min size.toNat (inodeDataSize fs.device node - offset)) (hcut : offset % 2 ^ 32 = offset)
    (hcopies : copies (ext2ServiceReadAccesses fs (readQuery path size (Int64.ofNat offset))) =
      (List.range n).map (copyAt fs (foundBlock fs node) offset)) :
    LoadsRange fs (readQuery path size (Int64.ofNat offset)) node offset size.toNat
        ⟨readBytes (fileView fs node) offset n, false, 0⟩ ↔
      ∀ j < n, ByteFound fs node offset j := by
  constructor
  · intro h j hj
    rw [ByteFound, hcut]
    have hload := h.loads (copyAt fs (foundBlock fs node) offset j)
      (hcopies ▸ List.mem_map_of_mem (List.mem_range.mpr hj))
    have hbyte := h.data
    rw [← hn, readBytes, readBytes, List.map_inj_left] at hbyte
    have hvalue := hbyte j (List.mem_range.mpr hj)
    cases hplace : fileByteAddress fs node (offset + j) with
    | none =>
      rw [fileByte, hplace] at hvalue
      exact Or.inr ⟨rfl, hvalue⟩
    | some a => exact Or.inl (congrArg some (hload a hplace).symm)
  · intro h
    refine ⟨?_, fun copy hcopy a ha => ?_⟩
    · rw [← hn]
      refine List.map_congr_left fun j hj => ?_
      have hfound := h j (List.mem_range.mp hj)
      rw [ByteFound, hcut] at hfound
      rw [fileView, fileByte]
      rcases hfound with hplace | ⟨hhole, hzero⟩
      · rw [hplace]
        rfl
      · rw [hhole, hzero]
        rfl
    · rw [hcopies] at hcopy
      obtain ⟨j, hj, rfl⟩ := List.mem_map.mp hcopy
      have hfound := h j (List.mem_range.mp hj)
      rw [ByteFound, hcut] at hfound
      rcases hfound with hplace | ⟨hhole, -⟩
      · exact Option.some.inj (hplace.symm.trans ha)
      · cases hhole.symm.trans ha

theorem read_onRange_iff (hbs : 0 < fs.blockSize) (path : List UInt8) (size : UInt64) (offset : Nat) :
    (Transfer.read path size offset).OnRange calls fs ↔ (Transfer.read path size offset).Fits calls fs := by
  have hoffset := queryOffset_toNat path size offset
  rw [Transfer.OnRange, Transfer.Fits]
  refine forall_congr' fun node => ?_
  by_cases hpast : offset % 2 ^ 32 > inodeDataSize fs.device node
  · have hzero : answeredLength fs node (readQuery path size (Int64.ofNat offset)) = 0 :=
      if_pos (hoffset.symm ▸ hpast)
    refine iff_of_true (fun response hpath hresponse => Or.inl ?_) (fun _ _ => ⟨Or.inl hpast, fun j hj => ?_⟩)
    · rw [← hoffset] at hpast
      rw [ext2ServiceRead_past hpath hpast] at hresponse
      obtain rfl := Except.ok.inj hresponse
      rfl
    · rw [hzero] at hj
      exact absurd hj (Nat.not_lt_zero j)
  · rw [readFits_iff path size hpast]
    have hin := hpast
    rw [← hoffset] at hin
    have hsize : inodeDataSize fs.device node < 2 ^ 32 := le32_lt _ _
    constructor
    · intro h hpath hfound
      rw [← hoffset] at hfound
      have hread := ext2ServiceRead_found hbs hpath hin hfound
      have hcopies := ext2ServiceReadAccesses_copies hbs hpath hin hfound
      rcases h _ hpath hread with hnone | hloads
      · have hzero : answeredLength fs node (readQuery path size (Int64.ofNat offset)) = 0 := by
          simpa using congrArg List.length hnone
        rw [hzero]
        exact ⟨Or.inl rfl, fun j hj => absurd hj (Nat.not_lt_zero j)⟩
      · have hlength : answeredLength fs node (readQuery path size (Int64.ofNat offset)) =
            min size.toNat (inodeDataSize fs.device node - offset) := by
          simpa using congrArg List.length hloads.data
        by_cases hzero : answeredLength fs node (readQuery path size (Int64.ofNat offset)) = 0
        · rw [hzero]
          exact ⟨Or.inl rfl, fun j hj => absurd hj (Nat.not_lt_zero j)⟩
        · have hcut : offset % 2 ^ 32 = offset := Nat.mod_eq_of_lt (by omega)
          rw [hoffset, hcut] at hloads hcopies
          exact ⟨Or.inr ⟨hcut, hlength⟩, (loadsRange_iff hlength hcut hcopies).mp hloads⟩
    · intro h response hpath hresponse
      have hfound := (ext2ServiceRead_found_iff hbs hpath hin).mp ⟨response, hresponse⟩
      have hread := ext2ServiceRead_found hbs hpath hin hfound
      have hcopies := ext2ServiceReadAccesses_copies hbs hpath hin hfound
      obtain rfl := Except.ok.inj (hread.symm.trans hresponse)
      rw [hoffset] at hfound
      obtain ⟨hzero | ⟨hcut, hlength⟩, hbytes⟩ := h hpath hfound
      · rw [hzero]
        exact Or.inl rfl
      · rw [hoffset, hcut] at hcopies ⊢
        exact Or.inr ((loadsRange_iff hlength hcut hcopies).mpr hbytes)

/-- The stores of a write have the places of its range exactly if each of them has its own. -/
theorem exists_storesRange_iff (hbs : 0 < fs.blockSize) {request : WriteRequest} {node : Nat}
    (hpath : ext2GetElementInode fs request.path = .ok (some node)) (offset : Nat) :
    (∃ k address, StoresRange calls fs request node offset k address) ↔
      ∀ copy ∈ copies (ext2ServiceWriteAccesses calls fs request),
        fileByteAddress (fs.withDevice (resizedDevice calls fs request node)) node (offset + copy.2.1) =
          some copy.2.2 := by
  have haccesses : ext2ServiceWriteAccesses calls fs request = writeAccesses calls fs node
      (fun j => request.data.getD j 0) request.offset.toNat request.data.length := by
    rw [ext2ServiceWriteAccesses, hpath]
  constructor
  · intro h copy hcopy
    obtain ⟨k, address, h⟩ := h
    have hmem := List.mem_map_of_mem (f := Prod.snd) hcopy
    rw [h.stores] at hmem
    obtain ⟨j, hj, hstore⟩ := List.mem_map.mp hmem
    rw [← hstore]
    exact h.places j (List.mem_range.mp hj)
  · intro h
    rw [haccesses] at h
    obtain ⟨k, hk, hstores, hplaces, hall⟩ := writeAccesses_stores calls hbs node
      (fun j => fileByteAddress (fs.withDevice (resizedDevice calls fs request node)) node (offset + j)) _ _ _ h
    refine ⟨k, _, hk, hplaces, haccesses ▸ hstores, ?_, fun code hcode => ?_⟩
    · rw [ext2ServiceWrite_device calls hpath, ext2WriteInodeData_eq_foldl calls fs node _ _ _ hbs]
      exact foldl_storeCopy_range _ _ hstores
    · obtain ⟨node', hpath', hok⟩ := ext2ServiceWrite_answered hcode
      obtain rfl := Option.some.inj (Except.ok.inj (hpath.symm.trans hpath'))
      exact hall hok

theorem write_onRange_iff (hbs : 0 < fs.blockSize) (path buf : List UInt8) (offset : Nat) :
    (Transfer.write path buf offset).OnRange calls fs ↔ (Transfer.write path buf offset).Fits calls fs := by
  have hoffset : (writeQuery path buf (Int64.ofNat offset)).offset.toNat = offset % 2 ^ 32 :=
    queryOffset_toNat path 0 offset
  have hquery : (writeQuery path buf (Int64.ofNat offset)).path = path := rfl
  have hunresolved := fun h : ∀ node, ext2GetElementInode fs (writeQuery path buf (Int64.ofNat offset)).path ≠
    .ok (some node) => ext2ServiceWrite_unresolved calls h
  rw [hquery] at hunresolved
  rw [Transfer.OnRange, Transfer.Fits]
  simp only
  rw [and_iff_left hunresolved]
  refine forall₂_congr fun node hpath => ?_
  have haccesses : ext2ServiceWriteAccesses calls fs (writeQuery path buf (Int64.ofNat offset)) =
      writeAccesses calls fs node (fun j => buf.getD j 0) (offset % 2 ^ 32) buf.length := by
    rw [ext2ServiceWriteAccesses, hquery, hpath, hoffset]
    rfl
  rw [exists_storesRange_iff calls hbs hpath offset, haccesses, writeAccesses_placed_iff calls hbs node
    (fun j => fileByteAddress (fs.withDevice
      (resizedDevice calls fs (writeQuery path buf (Int64.ofNat offset)) node)) node (offset + j))]
  refine forall₂_congr fun device hdevice => ?_
  have hresized : resizedDevice calls fs (writeQuery path buf (Int64.ofNat offset)) node = device := by
    rw [resizedDevice, hoffset]
    exact congrArg Prod.snd hdevice
  rw [hresized]

end Transfers

/-- The length passed on and answered is the integer `min(length, size - offset)`, or 0
below it, and no byte at or past the end of the file is read. -/
structure ReadClipped (fs : Ext2) (node : Nat) (request : ReadRequest) : Prop where
  passed : (answeredLength fs node request : Int) =
    max 0 (min (request.length.toNat : Int) (inodeDataSize fs.device node - request.offset.toNat))
  answered : ∀ response, ext2ServiceRead fs request = .ok response → (response.data.length : Int) =
    max 0 (min (request.length.toNat : Int) (inodeDataSize fs.device node - request.offset.toNat))
  inside : ∀ pos ∈ positions (ext2ServiceReadAccesses fs request), pos < inodeDataSize fs.device node

theorem ext2ServiceReadAccesses_prefix {fs : Ext2} {request : ReadRequest} {node : Nat}
    (hpath : ext2GetElementInode fs request.path = .ok (some node)) :
    ∃ k ≤ answeredLength fs node request,
      positions (ext2ServiceReadAccesses fs request) = List.range' request.offset.toNat k := by
  rw [ext2ServiceReadAccesses, hpath, answeredLength]
  simp only
  split
  · exact ⟨0, Nat.le_refl 0, rfl⟩
  · exact readAccesses_positions fs node request.offset.toNat _

/-- A read is clipped right unless the sum of its offset and length wraps to one that
does not pass the end of the file. -/
theorem readClipped_iff {fs : Ext2} {request : ReadRequest} {node : Nat}
    (hpath : ext2GetElementInode fs request.path = .ok (some node)) :
    ReadClipped fs node request ↔ inodeDataSize fs.device node < request.offset.toNat ∨
      request.offset.toNat + request.length.toNat < 2 ^ 32 ∨
      inodeDataSize fs.device node < request.offset.toNat + request.length.toNat - 2 ^ 32 := by
  have hsize : inodeDataSize fs.device node < 2 ^ 32 := le32_lt _ _
  have hoffset := request.offset.toNat_lt
  have hlength := request.length.toNat_lt
  have hlen : answeredLength fs node request = if request.offset.toNat > inodeDataSize fs.device node then 0
      else if (request.offset.toNat + request.length.toNat) % 2 ^ 32 > inodeDataSize fs.device node then
        inodeDataSize fs.device node - request.offset.toNat else request.length.toNat := rfl
  constructor
  · intro h
    have hpassed := h.passed
    rw [hlen] at hpassed
    by_contra hnot
    rw [if_neg (by omega), if_neg (by omega)] at hpassed
    omega
  · intro h
    have hpassed : (answeredLength fs node request : Int) =
        max 0 (min (request.length.toNat : Int) (inodeDataSize fs.device node - request.offset.toNat)) := by
      rw [hlen]
      split_ifs <;> omega
    refine ⟨hpassed, fun response hresponse => ?_, fun pos hpos => ?_⟩
    · rw [(ext2ServiceRead_answer hpath hresponse).2]
      exact hpassed
    · obtain ⟨k, hk, hpositions⟩ := ext2ServiceReadAccesses_prefix hpath
      rw [hpositions, List.mem_range'_1] at hpos
      omega

theorem readClipped_iff_file : ReadClipped (fileFs 10) 6528 ⟨[slash, 0x66], 5, 100⟩ ↔
    inodeDataSize (fileFs 10).device 6528 < (5 : UInt32).toNat ∨ (5 : UInt32).toNat + (100 : UInt32).toNat < 2 ^ 32 ∨
      inodeDataSize (fileFs 10).device 6528 < (5 : UInt32).toNat + (100 : UInt32).toNat - 2 ^ 32 :=
  readClipped_iff rfl

/-- The file has 10 bytes, and 5 + (2^32 - 1) wraps to 4: nothing is clipped. -/
theorem not_readClipped_file : ext2GetElementInode (fileFs 10) [slash, 0x66] = .ok (some 6528) ∧
    inodeDataSize (fileFs 10).device 6528 = 10 ∧
    answeredLength (fileFs 10) 6528 ⟨[slash, 0x66], 5, 4294967295⟩ = 4294967295 ∧
    ¬ ReadClipped (fileFs 10) 6528 ⟨[slash, 0x66], 5, 4294967295⟩ := by
  have hsize : inodeDataSize (fileFs 10).device 6528 = 10 := by decide
  have hpassed : answeredLength (fileFs 10) 6528 ⟨[slash, 0x66], 5, 4294967295⟩ = 4294967295 := by decide
  refine ⟨rfl, hsize, hpassed, fun h => ?_⟩
  have hclip := h.passed
  rw [hpassed, hsize] at hclip
  revert hclip
  decide

/-! The count that a write returns. -/

def storedBytes (calls : ClusterCalls) (fs : Ext2) (request : WriteRequest) : List UInt8 :=
  (copies (ext2ServiceWriteAccesses calls fs request)).map (fun copy => request.data.getD copy.2.1 0)

/-- A caller that repeats a write from the returned count on until nothing is left.
The result are the bytes stored, in order, if it comes to an end. -/
def writeRepeatedly (calls : ClusterCalls) (memory : Memory) (path : List UInt8) (rounds : Nat → List Bool) :
    Nat → Nat → Ext2 → List UInt8 → Nat → Option (List UInt8)
  | 0, _, _, _, _ => none
  | fuel + 1, call, fs, buf, offset =>
    if buf.isEmpty then some []
    else match fuseExt2Write calls fs memory path buf (Int64.ofNat offset) (rounds call) with
      | none => none
      | some count =>
        if count < 0 then none
        else
          let query := writeQuery path buf (Int64.ofNat offset)
          (writeRepeatedly calls memory path rounds fuel (call + 1)
            (fs.withDevice (ext2ServiceWrite calls fs query).2) (buf.drop count.toNat)
            (offset + count.toNat)).map (fun rest => storedBytes calls fs query ++ rest)

/-- The write returns the number of bytes of its buffer, and a caller that goes by the
count comes to an end with every byte stored once. -/
def WriteCounted (calls : ClusterCalls) (fs : Ext2) (memory : Memory) (path buf : List UInt8) (offset : Nat) : Prop :=
  (∀ rounds, true ∈ rounds →
      fuseExt2Write calls fs memory path buf (Int64.ofNat offset) rounds = some (buf.length : Int)) ∧
    ∀ rounds : Nat → List Bool, (∀ call, true ∈ rounds call) →
      ∃ fuel, writeRepeatedly calls memory path rounds fuel 0 fs buf offset = some buf

section Count

variable {calls : ClusterCalls} {fs : Ext2} {memory : Memory} {path buf : List UInt8} {offset : Nat}

theorem fuseExt2Write_eq_zero {rounds : List Bool} (ha : true ∈ rounds) {count : Int}
    (h : fuseExt2Write calls fs memory path buf (Int64.ofNat offset) rounds = some count) : count = 0 := by
  cases hservice : (ext2ServiceWrite calls fs (writeQuery path buf (Int64.ofNat offset))).1 with
  | error fault =>
    have hloop : waitLoop writeHandleResponse WriteLocals.isDone ⟨⟨false, 0⟩, none⟩ rounds = none :=
      waitLoop_of_answered rfl rounds
    rw [fuseExt2Write, hservice, Except.toOption, Option.map_none, hloop] at h
    cases h
  | ok response =>
    have hreturned : fuseExt2Write calls fs memory path buf (Int64.ofNat offset) rounds = _ :=
      write_returned hservice rounds ha
    rw [h] at hreturned
    split at hreturned
    · exact Option.some.inj hreturned
    · cases hreturned

theorem writeRepeatedly_eq_none (hbuf : buf ≠ []) {rounds : Nat → List Bool} (ha : ∀ call, true ∈ rounds call)
    (fuel call : Nat) (fs : Ext2) (offset : Nat) :
    writeRepeatedly calls memory path rounds fuel call fs buf offset = none := by
  induction fuel generalizing call fs offset with
  | zero => rfl
  | succ fuel ih =>
    have hempty : ¬ buf.isEmpty = true := by simpa using hbuf
    rw [writeRepeatedly, if_neg hempty]
    cases hwrite : fuseExt2Write calls fs memory path buf (Int64.ofNat offset) (rounds call) with
    | none => rfl
    | some count =>
      obtain rfl := fuseExt2Write_eq_zero (ha call) hwrite
      simp only [Int.lt_irrefl, if_false, Int.toNat_zero, List.drop_zero, Nat.add_zero, ih, Option.map_none]

/-- A write counts its bytes exactly when there are none, and the word that the closure
takes for the error is 0. -/
theorem writeCounted_iff {code : UInt32}
    (hans : (ext2ServiceWrite calls fs (writeQuery path buf (Int64.ofNat offset))).1 = .ok ⟨false, code⟩) :
    WriteCounted calls fs memory path buf offset ↔ buf = [] ∧ le32 memory readResponseErrorOffset = 0 := by
  have hreturned : ∀ rounds, true ∈ rounds → fuseExt2Write calls fs memory path buf (Int64.ofNat offset) rounds = _ :=
    fun rounds ha => write_returned hans rounds ha
  constructor
  · intro h
    have ha : true ∈ [true] := List.mem_singleton_self true
    have hone := (hreturned [true] ha).symm.trans (h.1 [true] ha)
    by_cases hz : le32 memory readResponseErrorOffset = 0
    · rw [if_pos hz] at hone
      have hlength : buf.length = 0 := by simpa using (Option.some.inj hone).symm
      exact ⟨List.length_eq_zero_iff.mp hlength, hz⟩
    · rw [if_neg hz] at hone
      cases hone
  · intro h
    obtain ⟨rfl, hz⟩ := h
    refine ⟨fun rounds ha => ?_, fun rounds _ => ⟨1, rfl⟩⟩
    rw [hreturned rounds ha, if_pos hz]
    rfl

end Count

theorem writeCounted_iff_file : WriteCounted keepClusters (fileFs 10) 0 [slash, 0x66] [7] 3 ↔
    [(7 : UInt8)] = [] ∧ le32 0 readResponseErrorOffset = 0 := by
  have hans : (ext2ServiceWrite keepClusters (fileFs 10) (writeQuery [slash, 0x66] [7] (Int64.ofNat 3))).1 =
    .ok ⟨false, 0⟩ := rfl
  exact writeCounted_iff hans

/-- A byte is stored, 0 is returned, and a caller that goes by it never ends. -/
theorem not_writeCounted_file :
    (ext2ServiceWrite keepClusters (fileFs 10) (writeQuery [slash, 0x66] [7] (Int64.ofNat 3))).1 = .ok ⟨false, 0⟩ ∧
    storedBytes keepClusters (fileFs 10) (writeQuery [slash, 0x66] [7] (Int64.ofNat 3)) = [7] ∧
    fuseExt2Write keepClusters (fileFs 10) 0 [slash, 0x66] [7] (Int64.ofNat 3) [true] = some 0 ∧
    ¬ WriteCounted keepClusters (fileFs 10) 0 [slash, 0x66] [7] 3 := by
  have hreturned : fuseExt2Write keepClusters (fileFs 10) 0 [slash, 0x66] [7] (Int64.ofNat 3) [true] = some 0 := rfl
  refine ⟨rfl, rfl, hreturned, fun h => ?_⟩
  cases hreturned.symm.trans (h.1 [true] (List.mem_singleton_self true))

end FuseExt2
