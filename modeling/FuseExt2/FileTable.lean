import FuseExt2.DirectoryTree
import FuseExt2.Slices

/-! The files of an image as a table: the names in each directory, the attributes of
each path and the bytes of each file, as the records, the inodes and the block maps on
the device have them. -/

namespace FuseExt2

open ByteStore Slices WriteHistory

inductive Request
  | readDir (request : ReadDirRequest)
  | getAttr (request : GetAttrRequest)
  | read (request : ReadRequest)
  | write (request : WriteRequest)

inductive Response
  | readDir (response : ReadDirResponse)
  | getAttr (response : GetAttrResponse)
  | read (response : ReadResponse)
  | write (response : WriteResponse)

structure FileTable where
  names : List UInt8 → List (List UInt8)
  attributes : List UInt8 → GetAttrResponse
  node : List UInt8 → Option Nat
  contents : Nat → List UInt8

def FileTable.write (t : FileTable) (node offset : Nat) (data : List UInt8) : FileTable :=
  { t with contents := Function.update t.contents node (splice (t.contents node) offset data) }

def FileTable.serve (t : FileTable) : Request → Response × FileTable
  | .readDir request => (.readDir ⟨false, 0, t.names request.path⟩, t)
  | .getAttr request => (.getAttr (t.attributes request.path), t)
  | .read request =>
    match t.node request.path with
    | none => (.read ⟨[], true, 0⟩, t)
    | some node => (.read ⟨slice (t.contents node) request.offset.toNat request.length.toNat, false, 0⟩, t)
  | .write request =>
    match t.node request.path with
    | none => (.write ⟨true, 0⟩, t)
    | some node => (.write ⟨false, 0⟩, t.write node request.offset.toNat request.data)

/-! What the device holds. -/

def fileNode (fs : Ext2) (path : List UInt8) : Option Nat := nodeAt fs (inodeRecord fs rootNumber) (components path)

def fileNames (fs : Ext2) (node : Nat) : List (List UInt8) :=
  if inodeHasModeFlag fs.device node EXT2_IFDIR then (directoryEntries fs node).map Prod.snd else []

/-- A file that exists is a directory that all may read, or a regular file that all may
read and write. -/
def fileAttributes (fs : Ext2) (node : Nat) : GetAttrResponse where
  error := false
  errorCode := 0
  fileexist := true
  mode := if inodeHasModeFlag fs.device node EXT2_IFDIR then S_IFDIR ||| FS_FULL_READ_PRIV
    else S_IFREG ||| FS_FULL_READ_PRIV ||| FS_FULL_WRITE_PRIV
  nlinks := inodeLinksCount fs.device node
  blocks := inodeBlocks fs.device node
  size := inodeDataSize fs.device node

def fileTable (fs : Ext2) : FileTable where
  names path := ((fileNode fs path).map (fileNames fs)).getD []
  attributes path := ((fileNode fs path).map (fileAttributes fs)).getD ⟨false, 0, false, 0, 0, 0, 0⟩
  node := fileNode fs
  contents node := readBytes (fileByte fs node) 0 (inodeDataSize fs.device node)

/-! Where the handlers follow the table. -/

/-- A path from the root through directories that find the next name where their
entries have it. -/
structure Followed (fs : Ext2) (path : List UInt8) : Prop where
  absolute : path.head? = some slash
  terminated : 0 ∉ path
  through : ThroughEntries fs (inodeRecord fs rootNumber) (components path)
  follows : FollowsTree fs path

/-- A directory whose entries are the records that the code takes for its own. -/
structure ListsEntries (fs : Ext2) (dir : Nat) (entries : List (Nat × List UInt8)) : Prop where
  holds : HoldsEntries fs dir entries
  parses : ListingParses fs dir
  shown : shownRecords fs dir = entries.map shownOf
  names : ∀ entry ∈ entries, 0 ∉ entry.2

section Tree

variable {fs : Ext2} {node dir : Nat} {path : List UInt8} {entries : List (Nat × List UInt8)}

theorem Followed.ext2GetElementInode_eq (hbs : Ext2Sized fs) (h : Followed fs path) :
    ext2GetElementInode fs path = .ok (fileNode fs path) :=
  h.follows.ext2GetElementInode_eq hbs h.terminated h.absolute h.through

/-- The table has the inode that the names of the path lead to. -/
theorem Followed.fileNode_eq_some_iff (h : Followed fs path) :
    fileNode fs path = some node ↔ Leads fs (inodeRecord fs rootNumber) (components path) node :=
  (nodeAt_iff h.through).1 node

theorem DirectEntries.listsEntries (hbs : Ext2Sized fs) (h : DirectEntries fs dir entries) :
    ListsEntries fs dir entries where
  holds := h.holds
  parses := ⟨h.sectors, fun _ hi => h.slotParses hbs hi⟩
  shown := h.shownRecords_eq
  names := h.names

theorem ListsEntries.ext2ListInode_names (hbs : Ext2Sized fs) (h : ListsEntries fs dir entries) :
    ∃ list, ext2ListInode fs dir = .ok (some list) ∧
      list.map (fun entry => cString entry.name) = fileNames fs dir := by
  obtain ⟨list, hlist⟩ := (exists_ext2ListInode_iff hbs.pos dir).mpr ⟨h.holds.1, h.parses⟩
  refine ⟨list, hlist, ?_⟩
  calc list.map (fun entry => cString entry.name)
      = (list.map InodeEntry.shown).map (fun shown => cString shown.2) := by
        rw [List.map_map]
        rfl
    _ = entries.map Prod.snd := by
        rw [ext2ListInode_shown hbs hlist, h.shown, List.map_map]
        refine List.map_congr_left fun entry he => ?_
        rw [Function.comp_apply, shownOf, cString_terminated, cString_of_not_mem (h.names entry he)]
    _ = fileNames fs dir := by rw [fileNames, if_pos h.holds.1, h.holds.directoryEntries_eq]

/-- A directory is listed by its entries, and what is none as if it were empty. -/
theorem Followed.ext2ServiceReadDir_eq (hbs : Ext2Sized fs) (h : Followed fs path)
    (hlists : ∀ dir, fileNode fs path = some dir → inodeHasModeFlag fs.device dir EXT2_IFDIR = true →
      ∃ entries, ListsEntries fs dir entries) :
    ext2ServiceReadDir fs ⟨path⟩ = .ok ⟨false, 0, (fileTable fs).names path⟩ := by
  simp only [ext2ServiceReadDir, ext2ListDir, h.ext2GetElementInode_eq hbs, fileTable]
  cases hnode : fileNode fs path with
  | none => rfl
  | some dir =>
    by_cases hdir : inodeHasModeFlag fs.device dir EXT2_IFDIR = true
    · obtain ⟨entries, hentries⟩ := hlists dir hnode hdir
      obtain ⟨list, hlist, hnames⟩ := hentries.ext2ListInode_names hbs
      simp only [hlist, hnames]
      rfl
    · have hnull : ext2ListInode fs dir = .ok none := by rw [ext2ListInode, if_neg hdir]
      simp only [hnull, Option.map_some, Option.getD_some, fileNames, if_neg hdir]

theorem Followed.ext2ServiceGetAttr_eq (hbs : Ext2Sized fs) (h : Followed fs path) :
    ext2ServiceGetAttr fs ⟨path⟩ = .ok ((fileTable fs).attributes path) := by
  simp only [ext2ServiceGetAttr, h.ext2GetElementInode_eq hbs, fileTable]
  cases fileNode fs path <;> rfl

end Tree

theorem fileFs_directEntries :
    DirectEntries (fileFs 10) 5248 [(2, [0x2E]), (2, [0x2E, 0x2E]), (12, [0x66])] where
  holds := by
    refine ⟨by decide, sampleRecords, fun i hi _ => ?_, by decide⟩
    obtain rfl : i = 0 := by
      have : dataBlockCount (fileFs 10) 5248 = 1 := by decide
      omega
    refine ⟨by decide, ?_, by decide, by simp [sampleRecords, dotRecord]; decide⟩
    exact .cons ⟨by decide, by decide, by decide, by decide⟩
      (.cons ⟨by decide, by decide, by decide, by decide⟩
        (.cons ⟨by decide, by decide, by decide, by decide⟩ (.nil _)))
  sectors := by decide
  blocks := by decide
  direct := by decide
  fit := by
    unfold SlotsFit
    decide
  names := by decide
  numbers := by
    have hdot : InodeAddressed (fileFs 10) 2 := rfl
    have hfile : InodeAddressed (fileFs 10) 12 := rfl
    simp [hdot, hfile]

/-- Any name of one character is looked up in the root directory. -/
theorem fileFs_followed {c : UInt8} (h0 : c ≠ 0) (hs : c ≠ slash) : Followed (fileFs 10) [slash, c] := by
  have hc : components [slash, c] = [[c]] := by
    have happend : components ([] ++ slash :: [c]) = components [] ++ [[c]] :=
      components_append_name (List.cons_ne_nil c []) (fun h => hs (List.mem_singleton.mp h).symm)
    exact happend
  have hroot : inodeRecord (fileFs 10) rootNumber = 5248 := by decide
  have hdir : ∀ pre name post, [[c]] = pre ++ name :: post → ∀ dir, Leads (fileFs 10) 5248 pre dir → dir = 5248 := by
    intro pre name post hsplit dir hleads
    cases pre with
    | nil => exact (leads_nil_iff.mp hleads).symm
    | cons first pre =>
      have hlen := congrArg List.length hsplit
      simp at hlen
  have hslash : slash ≠ 0 := by decide
  refine ⟨rfl, ?_, ?_, rfl, ?_⟩
  · simp [h0.symm, hslash.symm]
  · rw [hroot, hc]
    intro pre name post hsplit dir hleads
    obtain rfl := hdir pre name post hsplit dir hleads
    exact ⟨_, fileFs_directEntries.holds⟩
  · rw [hroot, hc]
    intro pre name post hsplit dir hleads
    obtain rfl := hdir pre name post hsplit dir hleads
    exact fileFs_directEntries.looksUp ⟨0, by decide, by decide⟩ name

/-! Sequences of requests, as the table serves them. -/

def FileTable.serveAll (t : FileTable) (requests : List Request) : FileTable :=
  requests.foldl (fun t request => (t.serve request).2) t

/-- The byte that the request writes to position `key.2` of file `key.1`, if any. -/
def FileTable.writtenByte (t : FileTable) : Request → Nat × Nat → Option UInt8
  | .write request, key =>
    if t.node request.path = some key.1 ∧ request.offset.toNat ≤ key.2 then
      request.data[key.2 - request.offset.toNat]?
    else none
  | _, _ => none

section Sequences

variable (t : FileTable)

theorem FileTable.serve_node (request : Request) : (t.serve request).2.node = t.node := by
  cases request with
  | readDir request => rfl
  | getAttr request => rfl
  | read request =>
    simp only [FileTable.serve]
    split <;> rfl
  | write request =>
    simp only [FileTable.serve]
    split <;> rfl

theorem FileTable.serve_contents_length (request : Request) (node : Nat) :
    ((t.serve request).2.contents node).length = (t.contents node).length := by
  cases request with
  | readDir request => rfl
  | getAttr request => rfl
  | read request =>
    simp only [FileTable.serve]
    split <;> rfl
  | write request =>
    simp only [FileTable.serve]
    split
    · rfl
    · rename_i target _
      by_cases hsame : node = target
      · subst hsame
        simp [FileTable.write]
      · simp [FileTable.write, Function.update_of_ne hsame]

theorem FileTable.serve_contents (request : Request) {node pos : Nat} (hpos : pos < (t.contents node).length) :
    ((t.serve request).2.contents node)[pos]? = (t.writtenByte request (node, pos)).or (t.contents node)[pos]? := by
  cases request with
  | readDir request => rfl
  | getAttr request => rfl
  | read request =>
    simp only [FileTable.serve, FileTable.writtenByte, Option.none_or]
    split <;> rfl
  | write request =>
    simp only [FileTable.serve, FileTable.writtenByte]
    cases hnode : t.node request.path with
    | none => simp
    | some target =>
      by_cases hsame : target = node
      · subst hsame
        simp only [FileTable.write, Function.update_self, true_and]
        by_cases hin : request.offset.toNat ≤ pos ∧ pos < request.offset.toNat + request.data.length
        · rw [splice_getElem?_of_mem hpos hin.1 hin.2, if_pos hin.1, List.getElem?_eq_getElem (by omega),
            Option.some_or]
        · rw [splice_getElem?_of_not_mem (by omega)]
          by_cases hle : request.offset.toNat ≤ pos
          · have hnone : request.data[pos - request.offset.toNat]? = none := List.getElem?_eq_none (by omega)
            rw [if_pos hle, hnone, Option.none_or]
          · rw [if_neg hle, Option.none_or]
      · simp only [FileTable.write, Function.update_of_ne (Ne.symm hsame), Option.some.injEq, hsame, false_and,
          if_false, Option.none_or]

theorem FileTable.writtenByte_congr {t t' : FileTable} (h : t'.node = t.node) (request : Request) (key : Nat × Nat) :
    t'.writtenByte request key = t.writtenByte request key := by
  cases request with
  | readDir request => rfl
  | getAttr request => rfl
  | read request => rfl
  | write request => simp only [FileTable.writtenByte, h]

theorem FileTable.serveAll_contents (requests : List Request) {node pos : Nat}
    (hpos : pos < (t.contents node).length) :
    ((t.serveAll requests).contents node)[pos]? =
      (latest t.writtenByte requests (node, pos)).or (t.contents node)[pos]? := by
  induction requests generalizing t with
  | nil => rfl
  | cons request requests ih =>
    have hlength := t.serve_contents_length request node
    have hsame : latest (t.serve request).2.writtenByte requests (node, pos) =
        latest t.writtenByte requests (node, pos) :=
      latest_congr fun w _ => FileTable.writtenByte_congr (t.serve_node request) w _
    have htail := ih (t.serve request).2 (by omega)
    rw [FileTable.serveAll, List.foldl_cons]
    rw [FileTable.serveAll] at htail
    rw [htail, hsame, t.serve_contents request hpos, latest, Option.or_assoc]

theorem FileTable.serveAll_node (requests : List Request) : (t.serveAll requests).node = t.node := by
  induction requests generalizing t with
  | nil => rfl
  | cons request requests ih => exact (ih _).trans (t.serve_node request)

theorem FileTable.serveAll_contents_length (requests : List Request) (node : Nat) :
    ((t.serveAll requests).contents node).length = (t.contents node).length := by
  induction requests generalizing t with
  | nil => rfl
  | cons request requests ih => exact (ih _).trans (t.serve_contents_length request node)

/-- The range and the data that the request writes to the file, if any. -/
def FileTable.writeTo (node : Nat) : Request → Option (Nat × List UInt8)
  | .write request =>
    if t.node request.path = some node then some (request.offset.toNat, request.data) else none
  | _ => none

theorem FileTable.writeTo_congr {t t' : FileTable} (h : t'.node = t.node) (node : Nat) :
    t'.writeTo node = t.writeTo node := by
  funext request
  cases request with
  | readDir request => rfl
  | getAttr request => rfl
  | read request => rfl
  | write request => simp only [FileTable.writeTo, h]

theorem FileTable.serve_contents_eq (request : Request) (node : Nat) :
    (t.serve request).2.contents node =
      ((t.writeTo node request).toList.foldl (fun l write => splice l write.1 write.2) (t.contents node)) := by
  cases request with
  | readDir request => rfl
  | getAttr request => rfl
  | read request =>
    simp only [FileTable.serve]
    split <;> rfl
  | write request =>
    simp only [FileTable.serve, FileTable.writeTo]
    cases hnode : t.node request.path with
    | none => rfl
    | some target =>
      by_cases hsame : target = node
      · subst hsame
        simp [FileTable.write]
      · simp [FileTable.write, hsame, Function.update_of_ne (Ne.symm hsame)]

theorem FileTable.serveAll_contents_eq (requests : List Request) (node : Nat) :
    (t.serveAll requests).contents node =
      (requests.filterMap (t.writeTo node)).foldl (fun l write => splice l write.1 write.2) (t.contents node) := by
  induction requests generalizing t with
  | nil => rfl
  | cons request requests ih =>
    have htail := ih (t.serve request).2
    rw [FileTable.writeTo_congr (t.serve_node request), t.serve_contents_eq] at htail
    rw [FileTable.serveAll, List.foldl_cons]
    rw [FileTable.serveAll] at htail
    rw [htail]
    cases hwrite : t.writeTo node request with
    | none => simp [hwrite]
    | some write => simp [hwrite]

end Sequences

end FuseExt2
