import FuseExt2.FileData
import FuseExt2.Paths

/-! The messages of the RPC layer and the handlers of the server. A handler
gives the answer it passes to its closure; the write handler also the device. -/

namespace FuseExt2

open ByteStore Tokens

structure ReadDirRequest where
  path : List UInt8

/-- `elements` holds the C strings the array points to. -/
structure ReadDirResponse where
  error : Bool
  errorCode : UInt32
  elements : List (List UInt8)

structure GetAttrRequest where
  path : List UInt8

structure GetAttrResponse where
  error : Bool
  errorCode : UInt32
  fileexist : Bool
  mode : Nat
  nlinks : Nat
  blocks : Nat
  size : Nat

structure ReadRequest where
  path : List UInt8
  offset : UInt32
  length : UInt32

structure ReadResponse where
  data : List UInt8
  error : Bool
  errorCode : UInt32

structure WriteRequest where
  path : List UInt8
  offset : UInt32
  data : List UInt8

structure WriteResponse where
  error : Bool
  errorCode : UInt32

def S_IFDIR : Nat := 0x4000

def S_IFREG : Nat := 0x8000

def FS_FULL_READ_PRIV : Nat := 0x100 ||| 0x20 ||| 0x4

def FS_FULL_WRITE_PRIV : Nat := 0x80 ||| 0x10 ||| 0x2

def ext2ServiceReadDir (fs : Ext2) (request : ReadDirRequest) : Except Fault ReadDirResponse :=
  match ext2ListDir fs request.path with
  | .error fault => .error fault
  | .ok none => .ok { error := false, errorCode := 0, elements := [] }
  | .ok (some elements) =>
    .ok { error := false, errorCode := 0, elements := elements.map (fun entry => cString entry.name) }

def ext2ServiceGetAttr (fs : Ext2) (request : GetAttrRequest) : Except Fault GetAttrResponse :=
  match ext2GetElementInode fs request.path with
  | .error fault => .error fault
  | .ok none =>
    .ok { error := false, errorCode := 0, fileexist := false, mode := 0, nlinks := 0, blocks := 0, size := 0 }
  | .ok (some element) =>
    let mode := if inodeHasModeFlag fs.device element EXT2_IFDIR then S_IFDIR ||| FS_FULL_READ_PRIV
      else S_IFREG ||| FS_FULL_READ_PRIV ||| FS_FULL_WRITE_PRIV
    .ok {
      error := false
      errorCode := 0
      fileexist := true
      mode := mode
      nlinks := inodeLinksCount fs.device element
      blocks := inodeBlocks fs.device element
      size := inodeDataSize fs.device element }

/-- The sum `offset + length` has 32 bits. -/
def sizeToRead (request : ReadRequest) (size : Nat) : Nat :=
  if (request.offset.toNat + request.length.toNat) % 2 ^ 32 > size then size - request.offset.toNat
  else request.length.toNat

/-- A read that returns has filled the whole buffer, which starts uninitialised. -/
def ext2ServiceRead (fs : Ext2) (request : ReadRequest) : Except Fault ReadResponse :=
  match ext2GetElementInode fs request.path with
  | .error fault => .error fault
  | .ok none => .ok { data := [], error := true, errorCode := 0 }
  | .ok (some element) =>
    let size := inodeDataSize fs.device element
    if request.offset.toNat > size then .ok { data := [], error := false, errorCode := 0 }
    else
      let sizeToRead := sizeToRead request size
      match ext2ReadInodeData fs element request.offset.toNat sizeToRead 0 with
      | .error fault => .error fault
      | .ok buff => .ok { data := readBytes buff 0 sizeToRead, error := false, errorCode := 0 }

def ext2ServiceWrite (calls : ClusterCalls) (fs : Ext2) (request : WriteRequest) :
    Except Fault WriteResponse × Memory :=
  match ext2GetElementInode fs request.path with
  | .error fault => (.error fault, fs.device)
  | .ok none => (.ok { error := true, errorCode := 0 }, fs.device)
  | .ok (some element) =>
    match ext2WriteInodeData calls fs element (fun j => request.data.getD j 0) request.offset.toNat
      request.data.length with
    | (.error fault, device) => (.error fault, device)
    | (.ok (), device) => (.ok { error := false, errorCode := 0 }, device)

section Write

variable (calls : ClusterCalls) {fs : Ext2} {request : WriteRequest}

theorem ext2ServiceWrite_unresolved (h : ∀ node, ext2GetElementInode fs request.path ≠ .ok (some node)) :
    (ext2ServiceWrite calls fs request).2 = fs.device ∧
      ∀ code, (ext2ServiceWrite calls fs request).1 ≠ .ok ⟨false, code⟩ := by
  rw [ext2ServiceWrite]
  cases hpath : ext2GetElementInode fs request.path with
  | error fault => exact ⟨rfl, fun code hcode => by cases hcode⟩
  | ok element =>
    cases element with
    | none => exact ⟨rfl, fun code hcode => by cases hcode⟩
    | some node => exact absurd hpath (h node)

theorem ext2ServiceWrite_device {node : Nat} (hpath : ext2GetElementInode fs request.path = .ok (some node)) :
    (ext2ServiceWrite calls fs request).2 = (ext2WriteInodeData calls fs node (fun j => request.data.getD j 0)
      request.offset.toNat request.data.length).2 := by
  rw [ext2ServiceWrite, hpath]
  rcases hwrite : ext2WriteInodeData calls fs node (fun j => request.data.getD j 0) request.offset.toNat
    request.data.length with ⟨_ | _, device⟩
  · simp only [hwrite]
  · simp only [hwrite]

end Write

theorem ext2FindInode_append {fs : Ext2} {root dir : Nat} {names : List (List UInt8)}
    (h : ext2FindInode fs root names = .ok (some dir)) (rest : List (List UInt8)) :
    ext2FindInode fs root (names ++ rest) = ext2FindInode fs dir rest := by
  induction names generalizing root with
  | nil =>
    obtain rfl := Option.some.inj (Except.ok.inj h)
    rfl
  | cons name names ih =>
    obtain ⟨list, entry, hlist, hfind, htail⟩ := ext2FindInode_cons_some h
    rw [List.cons_append, ext2FindInode_cons hlist hfind]
    exact ih htail

theorem ext2FindInode_singleton {fs : Ext2} {dir : Nat} {list : List InodeEntry} {name : List UInt8} (h0 : 0 ∉ name)
    (hlist : ext2ListInode fs dir = .ok (some list)) :
    ∃ result, ext2FindInode fs dir [name] = .ok result ∧
      (result.isSome = true ↔ name ∈ list.map (fun entry => cString entry.name)) := by
  cases hfind : list.find? (fun entry => strcmpEq name entry.name) with
  | none =>
    have hok : ext2FindInode fs dir [name] = .ok none := by
      simp only [ext2FindInode, hlist, deref_some, hfind]
    refine ⟨none, hok, ⟨fun h => (by cases h), fun h => ?_⟩⟩
    obtain ⟨entry, he, hname⟩ := List.mem_map.mp h
    exact absurd ((strcmpEq_iff h0).mpr hname) (List.find?_eq_none.mp hfind entry he)
  | some entry =>
    have hmem := List.mem_of_find?_eq_some hfind
    have hcmp : strcmpEq name entry.name = true := by simpa using List.find?_some hfind
    have hname := (strcmpEq_iff h0).mp hcmp
    exact ⟨some entry.inode, ext2FindInode_cons hlist hfind [],
      ⟨fun _ => List.mem_map.mpr ⟨entry, hmem, hname⟩, fun _ => rfl⟩⟩

theorem components_append_name {text name : List UInt8} (hne : name ≠ []) (hname : slash ∉ name) :
    components (text ++ slash :: name) = components text ++ [name] := by
  have hall : ∀ c ∈ name, (c == slash) = false := by
    intro c hc
    rw [beq_eq_false_iff_ne]
    exact fun he => hname (he ▸ hc)
  have hsplit : components (text ++ slash :: name) = components text ++ components name :=
    tokens_append_cons (p := fun c => c == slash) text name (beq_self_eq_true slash)
  rw [hsplit]
  exact congrArg (components text ++ ·) (tokens_of_forall hne hall)

theorem ext2GetElementInode_append_name {fs : Ext2} {path name : List UInt8} {dir : Nat}
    (h : ext2GetElementInode fs path = .ok (some dir)) (h0 : 0 ∉ path ++ slash :: name) (hne : name ≠ [])
    (hname : slash ∉ name) : ext2GetElementInode fs (path ++ slash :: name) = ext2FindInode fs dir [name] := by
  obtain ⟨root, hroot, hcase⟩ := ext2GetElementInode_some h
  obtain ⟨c, text, rfl, hfind⟩ : ∃ c text, path = c :: text ∧
      ext2FindInode fs root (components text) = .ok (some dir) := by
    rcases hcase with ⟨hr, rfl⟩ | ⟨-, hfind⟩
    · -- the path is "/" itself
      rw [strcmpEq_iff (by decide), cString_of_not_mem (fun hc => h0 (List.mem_append_left _ hc))] at hr
      exact ⟨slash, [], hr, rfl⟩
    · exact hfind
  have hcmp : strcmpEq [slash] (c :: text ++ slash :: name) = false := by
    rw [Bool.eq_false_iff, ne_eq, strcmpEq_iff (by decide), cString_of_not_mem h0]
    simp
  rw [ext2GetElementInode, hroot, hcmp]
  simp only [List.cons_append, stringSplit_slash, components_append_name hne hname, Bool.false_eq_true, if_false]
  exact ext2FindInode_append hfind [name]

/-- A name is in the listing of a directory exactly when its path exists. -/
theorem readDir_mem_iff_getAttr {fs : Ext2} {path name : List UInt8} {dir : Nat} {list : List InodeEntry}
    (hdir : ext2GetElementInode fs path = .ok (some dir)) (hlist : ext2ListInode fs dir = .ok (some list))
    (h0 : 0 ∉ path ++ slash :: name) (hne : name ≠ []) (hname : slash ∉ name) :
    ∃ listing attr, ext2ServiceReadDir fs ⟨path⟩ = .ok listing ∧
      ext2ServiceGetAttr fs ⟨path ++ slash :: name⟩ = .ok attr ∧
      (name ∈ listing.elements ↔ attr.fileexist = true) := by
  have h0' : 0 ∉ name := fun hc => h0 (List.mem_append_right _ (List.mem_cons_of_mem _ hc))
  obtain ⟨result, hresult, hiff⟩ := ext2FindInode_singleton h0' hlist
  rw [← ext2GetElementInode_append_name hdir h0 hne hname] at hresult
  have hread : ext2ServiceReadDir fs ⟨path⟩ = .ok ⟨false, 0, list.map (fun entry => cString entry.name)⟩ := by
    simp only [ext2ServiceReadDir, ext2ListDir, hdir, hlist]
  cases result with
  | none =>
    refine ⟨_, _, hread, by rw [ext2ServiceGetAttr, hresult], ?_⟩
    rw [← hiff]
    simp
  | some inode =>
    refine ⟨_, _, hread, by rw [ext2ServiceGetAttr, hresult], ?_⟩
    rw [← hiff]
    simp

theorem readDir_mem_iff_getAttr_sample : ∃ listing attr, ext2ServiceReadDir (sampleFs []) ⟨[slash]⟩ = .ok listing ∧
    ext2ServiceGetAttr (sampleFs []) ⟨[slash, slash, 0x66]⟩ = .ok attr ∧
    ([0x66] ∈ listing.elements ↔ attr.fileexist = true) := by
  have hdir : ext2GetElementInode (sampleFs []) [slash] = .ok (some 5248) := rfl
  obtain ⟨list, hlist⟩ : ∃ list, ext2ListInode (sampleFs []) 5248 = .ok (some list) := ⟨_, rfl⟩
  have h0 : 0 ∉ [slash] ++ slash :: [0x66] := by decide
  exact readDir_mem_iff_getAttr hdir hlist h0 (by decide) (by decide)

end FuseExt2
