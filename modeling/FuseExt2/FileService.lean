import FuseExt2.FileTable
import FuseExt2.ServerReads
import FuseExt2.ServerWrites

/-! The requests of the four methods served as one service of files: the names are
fixed, and each file is a list of bytes that reads return slices of. -/

namespace FuseExt2

open ByteStore Slices WriteHistory

/-- The methods of the service, with the device after the request. -/
def ext2Service (calls : ClusterCalls) (fs : Ext2) : Request → Except Fault Response × Memory
  | .readDir request => ((ext2ServiceReadDir fs request).map .readDir, fs.device)
  | .getAttr request => ((ext2ServiceGetAttr fs request).map .getAttr, fs.device)
  | .read request => ((ext2ServiceRead fs request).map .read, fs.device)
  | .write request => ((ext2ServiceWrite calls fs request).1.map .write, (ext2ServiceWrite calls fs request).2)

/-- What requests read to find the files, and the indirect blocks of their maps. -/
def tableBytes (fs : Ext2) (files : Set Nat) : Set Nat :=
  {a | a ∈ requestBytes fs ∨ ∃ node ∈ files, ∃ i < dataBlockCount fs node,
    ∃ b ∈ (referencePath fs node i).dropLast, b ≠ 0 ∧ a ∈ blockBytes fs b}

/-- Files that paths lead to. Their blocks are found where their maps have them, are
apart from what finds them, and belong to one position of one file. -/
structure ServedFiles (fs : Ext2) (files : Set Nat) : Prop where
  sized : Ext2Sized fs
  reached : ∀ node ∈ files, ∃ path, Followed fs path ∧ fileNode fs path = some node
  mapped : ∀ node ∈ files, HasBlockMap fs node
  found : ∀ node ∈ files, BlocksInRange fs node
  placed : ∀ node ∈ files, ∀ i < dataBlockCount fs node,
    referenceBlock fs node i ≠ 0 ∧ storedBlock fs node i = some (referenceBlock fs node i)
  apart : ∀ node ∈ files, ∀ i < dataBlockCount fs node,
    Disjoint (blockBytes fs (referenceBlock fs node i)) (tableBytes fs files)
  distinct : ∀ node ∈ files, ∀ i < dataBlockCount fs node, ∀ node' ∈ files, ∀ i' < dataBlockCount fs node',
    referenceBlock fs node i = referenceBlock fs node' i' → node = node' ∧ i = i'

def LeadsInto (fs : Ext2) (files : Set Nat) (path : List UInt8) : Prop :=
  Followed fs path ∧ ∀ node, fileNode fs path = some node → node ∈ files

/-- The requests on these files. The end of a read has 32 bits, and a write needs no
block that its file does not have. -/
def Admitted (fs : Ext2) (files : Set Nat) : Request → Prop
  | .readDir request => Followed fs request.path ∧ ∀ dir, fileNode fs request.path = some dir →
      inodeHasModeFlag fs.device dir EXT2_IFDIR = true → ∃ entries, ListsEntries fs dir entries
  | .getAttr request => Followed fs request.path
  | .read request => LeadsInto fs files request.path ∧ request.offset.toNat + request.length.toNat < 2 ^ 32
  | .write request => LeadsInto fs files request.path ∧ 0 < request.data.length ∧
      ∀ node, fileNode fs request.path = some node →
        sizeInClusters fs (request.offset.toNat + request.data.length) ≤ dataBlockCount fs node

/-- The table stands for the device `m`, which has changed in the files alone. -/
structure Represents (fs : Ext2) (files : Set Nat) (m : Memory) (t : FileTable) : Prop where
  kept : Set.EqOn fs.device m (tableBytes fs files)
  names : t.names = (fileTable fs).names
  attributes : t.attributes = (fileTable fs).attributes
  node : t.node = (fileTable fs).node
  contents : ∀ node ∈ files, t.contents node = (fileTable (fs.withDevice m)).contents node

theorem represents_self (fs : Ext2) (files : Set Nat) : Represents fs files fs.device (fileTable fs) where
  kept := Set.eqOn_refl _ _
  names := rfl
  attributes := rfl
  node := rfl
  contents _ _ := rfl

/-! Requests that only read. -/

section Reads

variable {fs : Ext2} {files : Set Nat} {m : Memory} {t : FileTable}

theorem inodeLinksCount_congr {m m' : Memory} {node : Nat} (h : Set.EqOn m m' (inodeRecordBytes node)) :
    inodeLinksCount m' node = inodeLinksCount m node :=
  (le16_congr (h.mono (Set.Ico_subset_Ico (by omega) (by rw [inodeRecordSize]; omega)))).symm

theorem ext2ServiceReadDir_congr (hm : Set.EqOn fs.device m (requestBytes fs)) (request : ReadDirRequest) :
    ext2ServiceReadDir (fs.withDevice m) request = ext2ServiceReadDir fs request := by
  have hname := requestBytes_namespace hm
  rw [ext2ServiceReadDir, ext2ServiceReadDir, ext2ListDir, ext2ListDir, ext2GetElementInode_congr hname]
  cases hpath : ext2GetElementInode fs request.path with
  | error fault => rfl
  | ok element =>
    cases element with
    | none => rfl
    | some node => simp only [(reachable_of_ext2GetElementInode hpath).ext2ListInode_congr hname]

theorem ext2ServiceGetAttr_congr (hm : Set.EqOn fs.device m (requestBytes fs)) (request : GetAttrRequest) :
    ext2ServiceGetAttr (fs.withDevice m) request = ext2ServiceGetAttr fs request := by
  rw [ext2ServiceGetAttr, ext2ServiceGetAttr, ext2GetElementInode_congr (requestBytes_namespace hm)]
  cases hpath : ext2GetElementInode fs request.path with
  | error fault => rfl
  | ok element =>
    cases element with
    | none => rfl
    | some node =>
      have hrecord := (reachable_of_ext2GetElementInode hpath).record_congr hm
      simp only [Ext2.withDevice_device, inodeHasModeFlag, inodeMode_congr hrecord, inodeLinksCount_congr hrecord,
        inodeBlocks_congr hrecord, inodeDataSize_congr hrecord]
      rfl

theorem tableBytes_requestBytes (hm : Set.EqOn fs.device m (tableBytes fs files)) :
    Set.EqOn fs.device m (requestBytes fs) := hm.mono fun _ ha => Or.inl ha

theorem ServedFiles.reachable (hs : ServedFiles fs files) {node : Nat} (hn : node ∈ files) : Reachable fs node := by
  obtain ⟨path, hfollowed, hnode⟩ := hs.reached node hn
  have hpath := hfollowed.ext2GetElementInode_eq hs.sized
  rw [hnode] at hpath
  exact reachable_of_ext2GetElementInode hpath

theorem ServedFiles.blocksInRange (hs : ServedFiles fs files) (hm : Set.EqOn fs.device m (requestBytes fs))
    {node : Nat} (hn : node ∈ files) : BlocksInRange (fs.withDevice m) node := by
  have hr := hs.reachable hn
  have hword : Set.EqOn fs.device m (Set.Ico 0 4) := hm.mono fun _ ha => Or.inr ha
  intro i hi
  rw [Ext2.withDevice_device, hr.dataSize_congr hm] at hi
  obtain ⟨n, hentry, hlt⟩ := hs.found node hn i hi
  have hsuper := namespace_superblock (requestBytes_namespace hm)
  refine ⟨n, ?_, ?_⟩
  · rw [blockEntryAt, ext2GetInodeBlockEntry_congr hsuper (hr.record_congr hm) fun _ => hword]
    exact hentry
  · rw [blockcount_congr hsuper]
    exact hlt

theorem ServedFiles.storedBlock_isSome (hs : ServedFiles fs files) {node i : Nat} (hn : node ∈ files)
    (hi : i ≤ inodeDataSize fs.device node / fs.blockSize) : i < 2 ^ 32 ∧ (storedBlock fs node i).isSome := by
  have hsize := le32_lt fs.device (node + 4)
  have hle := Nat.div_le_self (inodeDataSize fs.device node) fs.blockSize
  have h32 : i < 2 ^ 32 := by
    rw [inodeDataSize] at hi hle
    omega
  obtain ⟨n, hentry, hlt⟩ := hs.found node hn i hi
  rw [blockEntryAt, Nat.mod_eq_of_lt h32] at hentry
  obtain ⟨hw, rfl⟩ := (ext2GetInodeBlockEntry_eq_ok_iff hs.sized.entriesPerBlock_pos).mp hentry
  rw [storedBlock, if_pos ⟨hw, (Nat.mod_le _ _).trans_lt hlt⟩]
  exact ⟨h32, rfl⟩

theorem le_div_of_lt_dataBlockCount (hbs : 0 < fs.blockSize) {node i : Nat} (hi : i < dataBlockCount fs node) :
    i ≤ inodeDataSize fs.device node / fs.blockSize := by
  rw [Nat.le_div_iff_mul_le hbs]
  exact ((lt_sizeInClusters_iff hbs).mp hi).le

theorem ServedFiles.dataToCopy_eq (hs : ServedFiles fs files) (hm : Set.EqOn fs.device m (requestBytes fs))
    {node i : Nat} (hn : node ∈ files) (hi : i ≤ inodeDataSize fs.device node / fs.blockSize) :
    dataToCopy (fs.withDevice m) node i = .ok ((storedBlock fs node i).getD 0 * fs.blockSize) := by
  obtain ⟨h32, hsome⟩ := hs.storedBlock_isSome hn hi
  exact dataToCopy_of_isSome hs.sized h32 ((hs.reachable hn).storedBlock_congr hm i) hsome

theorem ServedFiles.fileView_eq (hs : ServedFiles fs files) (hm : Set.EqOn fs.device m (requestBytes fs))
    {node pos : Nat} (hn : node ∈ files) (hpos : pos ≤ inodeDataSize fs.device node) :
    fileView (fs.withDevice m) node pos = m (storedAddress fs node pos) := by
  have hfound := hs.dataToCopy_eq hm hn (Nat.div_le_div_right (c := fs.blockSize) hpos)
  rw [fileView, storedAddress, byteAddress, byteAddress, Ext2.withDevice_blockSize, foundBlock, hfound]
  rfl

theorem slice_readBytes (view : Memory) (size o n : Nat) :
    slice (readBytes view 0 size) o n = readBytes view o (min n (size - o)) := by
  apply List.ext_getElem?
  intro j
  by_cases hj : j < min n (size - o)
  · rw [slice_getElem? (by omega)]
    simp only [readBytes, List.getElem?_map, List.getElem?_range (show o + j < size by omega),
      List.getElem?_range hj, Option.map_some, Nat.zero_add]
  · rw [List.getElem?_eq_none (by simp only [slice_length, readBytes_length]; omega),
      List.getElem?_eq_none (by simp only [readBytes_length]; omega)]

theorem splice_readBytes {view view' : Memory} {size o : Nat} {data : List UInt8}
    (hin : ∀ j < data.length, o + j < size → view' (o + j) = data.getD j 0)
    (hout : ∀ pos < size, pos < o ∨ o + data.length ≤ pos → view' pos = view pos) :
    splice (readBytes view 0 size) o data = readBytes view' 0 size := by
  apply List.ext_getElem?
  intro pos
  by_cases hpos : pos < size
  · have hlen : pos < (readBytes view 0 size).length := by
      rw [readBytes_length]
      exact hpos
    have hright : (readBytes view' 0 size)[pos]? = some (view' pos) := by
      simp only [readBytes, List.getElem?_map, List.getElem?_range hpos, Option.map_some, Nat.zero_add]
    rw [hright]
    by_cases hmem : o ≤ pos ∧ pos < o + data.length
    · obtain ⟨j, rfl⟩ := Nat.exists_eq_add_of_le hmem.1
      rw [splice_getElem?_of_mem hlen hmem.1 hmem.2, hin j (by omega) hpos, Nat.add_sub_cancel_left,
        List.getElem?_eq_getElem (by omega), List.getD_eq_getElem _ _ (by omega)]
    · rw [splice_getElem?_of_not_mem (by omega), hout pos hpos (by omega)]
      simp only [readBytes, List.getElem?_map, List.getElem?_range hpos, Option.map_some, Nat.zero_add]
  · rw [List.getElem?_eq_none (by simpa using hpos), List.getElem?_eq_none (by simpa using hpos)]

/-- On these devices the map of a file has its bytes where the lookups find them. -/
theorem ServedFiles.fileByte_eq (hs : ServedFiles fs files) (hm : Set.EqOn fs.device m (tableBytes fs files))
    {node pos : Nat} (hn : node ∈ files) (hpos : pos < inodeDataSize fs.device node) :
    fileByte (fs.withDevice m) node pos = m (storedAddress fs node pos) := by
  have hbs := hs.sized
  have hrecord := (hs.reachable hn).record_congr (tableBytes_requestBytes hm)
  have hmap := (hasBlockMap_congr hrecord).mpr (hs.mapped node hn)
  have hi : pos / fs.blockSize < dataBlockCount fs node := div_lt_sizeInClusters hbs.pos hpos
  have hcap : pos / fs.blockSize < blockMapCapacity fs := by
    have hsize := le32_lt fs.device (node + 4)
    rw [inodeDataSize] at hpos
    exact hbs.lt_blockMapCapacity (by omega)
  have hpath : ∀ b ∈ (referencePath fs node (pos / fs.blockSize)).dropLast, b ≠ 0 →
      Set.EqOn fs.device m (blockBytes fs b) :=
    fun b hb hne => hm.mono fun a ha => Or.inr ⟨node, hn, _, hi, b, hb, hne, ha⟩
  have href : referenceBlock (fs.withDevice m) node (pos / fs.blockSize) =
      referenceBlock fs node (pos / fs.blockSize) := by
    rw [referenceBlock, referenceBlock, referencePath_congr hbs.powerOfTwo hcap hrecord hpath]
  obtain ⟨hne, hstored⟩ := hs.placed node hn _ hi
  have hplace : fileByteAddress (fs.withDevice m) node pos = some (storedAddress fs node pos) := by
    rw [fileByteAddress, if_neg hmap.not_fastSymlink, Ext2.withDevice_blockSize, href, if_pos ⟨hmap, hcap, hne⟩,
      storedAddress, byteAddress, hstored, Option.getD_some]
  rw [fileByte, hplace]
  rfl

theorem ServedFiles.contents_eq (hs : ServedFiles fs files) (hm : Set.EqOn fs.device m (tableBytes fs files))
    {node : Nat} (hn : node ∈ files) :
    (fileTable (fs.withDevice m)).contents node =
      readBytes (fun pos => m (storedAddress fs node pos)) 0 (inodeDataSize fs.device node) := by
  have hsize := (hs.reachable hn).dataSize_congr (tableBytes_requestBytes hm)
  simp only [fileTable, Ext2.withDevice_device, hsize]
  refine readBytes_congr fun pos hpos => hs.fileByte_eq hm hn ?_
  have hu : pos < 0 + inodeDataSize fs.device node := hpos.2
  omega

theorem ServedFiles.ext2ServiceRead_eq (hs : ServedFiles fs files) (hm : Set.EqOn fs.device m (tableBytes fs files))
    {request : ReadRequest} {node : Nat} (hpath : ext2GetElementInode fs request.path = .ok (some node))
    (hn : node ∈ files) (hsum : request.offset.toNat + request.length.toNat < 2 ^ 32) :
    ext2ServiceRead (fs.withDevice m) request =
      .ok ⟨slice ((fileTable (fs.withDevice m)).contents node) request.offset.toNat request.length.toNat,
        false, 0⟩ := by
  have hrequest := tableBytes_requestBytes hm
  have hpath' := (ext2GetElementInode_congr (requestBytes_namespace hrequest) request.path).trans hpath
  have hpos : 0 < (fs.withDevice m).blockSize := hs.sized.pos
  have hsize := (hs.reachable hn).dataSize_congr hrequest
  have hbytes : readBytes (fileView (fs.withDevice m) node) request.offset.toNat
      (min request.length.toNat (inodeDataSize fs.device node - request.offset.toNat)) =
      readBytes (fun pos => m (storedAddress fs node pos)) request.offset.toNat
        (min request.length.toNat (inodeDataSize fs.device node - request.offset.toNat)) := by
    refine readBytes_congr fun pos hpos => hs.fileView_eq hrequest hn ?_
    have hl := hpos.1
    have hu := hpos.2
    omega
  rw [FuseExt2.ext2ServiceRead_eq hpos hpath' (hs.blocksInRange hrequest hn) hsum, hs.contents_eq hm hn,
    slice_readBytes, Ext2.withDevice_device, hsize, hbytes]

end Reads

/-! Writes. -/

section Writes

variable {fs : Ext2} {files : Set Nat} {m : Memory}

theorem ServedFiles.storedAddress_mem (hs : ServedFiles fs files) {node pos : Nat} (hn : node ∈ files)
    (hpos : pos / fs.blockSize < dataBlockCount fs node) :
    storedAddress fs node pos ∈ blockBytes fs (referenceBlock fs node (pos / fs.blockSize)) :=
  FuseExt2.storedAddress_mem hs.sized.pos (hs.placed node hn _ hpos).2

theorem ServedFiles.storedAddress_not_mem (hs : ServedFiles fs files) {node pos : Nat} (hn : node ∈ files)
    (hpos : pos / fs.blockSize < dataBlockCount fs node) : storedAddress fs node pos ∉ tableBytes fs files :=
  Set.disjoint_left.mp (hs.apart node hn _ hpos) (hs.storedAddress_mem hn hpos)

theorem ServedFiles.storedAddress_inj (hs : ServedFiles fs files) {node pos node' pos' : Nat} (hn : node ∈ files)
    (hpos : pos / fs.blockSize < dataBlockCount fs node) (hn' : node' ∈ files)
    (hpos' : pos' / fs.blockSize < dataBlockCount fs node')
    (he : storedAddress fs node pos = storedAddress fs node' pos') : node = node' ∧ pos = pos' := by
  have hmem := hs.storedAddress_mem hn hpos
  rw [he] at hmem
  obtain ⟨rfl, hd⟩ := hs.distinct node hn _ hpos node' hn' _ hpos'
    (eq_of_mem_blockBytes hmem (hs.storedAddress_mem hn' hpos'))
  exact ⟨rfl, eq_of_byteAddress_eq hd he⟩

theorem div_lt_dataBlockCount {node o n pos : Nat} (hbs : 0 < fs.blockSize)
    (hclusters : sizeInClusters fs (o + n) ≤ dataBlockCount fs node) (hpos : pos < o + n) :
    pos / fs.blockSize < dataBlockCount fs node :=
  (div_lt_sizeInClusters hbs hpos).trans_le hclusters

theorem keepsClusters_of_le {node newSize : Nat} (hbs : Ext2Sized fs)
    (h : sizeInClusters fs newSize ≤ dataBlockCount fs node) : KeepsClusters fs node newSize := by
  have hle := hbs.le.1
  by_cases hsize : newSize ≤ inodeDataSize fs.device node
  · exact Or.inl hsize
  · have hmono : dataBlockCount fs node ≤ sizeInClusters fs newSize := Nat.div_le_div_right (by omega)
    have hlt : dataBlockCount fs node < 2 ^ 31 := by
      have h32 := le32_lt fs.device (node + 4)
      rw [dataBlockCount, sizeInClusters, inodeDataSize, Nat.div_lt_iff_lt_mul (by omega)]
      have := Nat.mul_le_mul_left (2 ^ 31) hle
      have := fs.blockSize_lt
      omega
    have heq := le_antisymm h hmono
    exact Or.inr ⟨heq, heq ▸ hlt⟩

theorem ServedFiles.ext2ServiceWrite_eq (hs : ServedFiles fs files) (calls : ClusterCalls)
    (hm : Set.EqOn fs.device m (tableBytes fs files)) {request : WriteRequest} {node : Nat}
    (hpath : ext2GetElementInode fs request.path = .ok (some node)) (hn : node ∈ files)
    (hpos : 0 < request.data.length)
    (hclusters : sizeInClusters fs (request.offset.toNat + request.data.length) ≤ dataBlockCount fs node) :
    ∃ m', ext2ServiceWrite calls (fs.withDevice m) request = (.ok ⟨false, 0⟩, m') ∧
      m' = storeSeq m (fun j => storedAddress fs node (request.offset.toNat + j))
        (fun j => request.data.getD j 0) request.data.length ∧
      Set.EqOn fs.device m' (tableBytes fs files) := by
  have hbs := hs.sized.pos
  have hr := hs.reachable hn
  have hrequest := tableBytes_requestBytes hm
  have hkeep : KeepsClusters (fs.withDevice m) node (request.offset.toNat + request.data.length) := by
    rw [KeepsClusters, Ext2.withDevice_device, hr.dataSize_congr hrequest]
    exact keepsClusters_of_le hs.sized hclusters
  obtain ⟨hwrite, heq⟩ := ext2WriteInodeData_of_eqOn calls
    (fun i => (storedBlock fs node i).getD 0 * fs.blockSize) hbs hpos
    (fun m' hm' i _ hlt => hs.dataToCopy_eq (tableBytes_requestBytes hm') hn (le_div_of_lt_dataBlockCount hbs
      (((lt_sizeInClusters_iff hbs).mpr hlt).trans_le hclusters)))
    (fun j hj => hs.storedAddress_not_mem hn (div_lt_dataBlockCount hbs hclusters (by omega))) hm hkeep
    (fun j => request.data.getD j 0)
  refine ⟨_, ?_, rfl, heq⟩
  rw [ext2ServiceWrite, ext2GetElementInode_congr (requestBytes_namespace hrequest), hpath]
  simp only [hwrite]
  rfl

theorem ServedFiles.contents_write (hs : ServedFiles fs files) (hm : Set.EqOn fs.device m (tableBytes fs files))
    {m' : Memory} (hm' : Set.EqOn fs.device m' (tableBytes fs files)) {node o : Nat} {data : List UInt8}
    (hn : node ∈ files) (hclusters : sizeInClusters fs (o + data.length) ≤ dataBlockCount fs node)
    (hstore : m' = storeSeq m (fun j => storedAddress fs node (o + j)) (fun j => data.getD j 0) data.length)
    {node' : Nat} (hn' : node' ∈ files) :
    (fileTable (fs.withDevice m')).contents node' =
      Function.update (fileTable (fs.withDevice m)).contents node
        (splice ((fileTable (fs.withDevice m)).contents node) o data) node' := by
  have hbs := hs.sized.pos
  have hrange : ∀ j < data.length, (o + j) / fs.blockSize < dataBlockCount fs node :=
    fun j hj => div_lt_dataBlockCount hbs hclusters (by omega)
  by_cases hsame : node' = node
  · subst hsame
    rw [Function.update_self, hs.contents_eq hm hn, hs.contents_eq hm' hn]
    symm
    apply splice_readBytes
    · intro j hj _
      rw [hstore]
      have hinj : Set.InjOn (fun j => storedAddress fs node' (o + j)) (Set.Iio data.length) := by
        intro i hi k hk he
        have hpos := (hs.storedAddress_inj hn (hrange i hi) hn (hrange k hk) he).2
        omega
      exact storeSeq_of_injOn hj hinj
    · intro pos hpos hout
      rw [hstore]
      apply storeSeq_of_ne
      intro j hj he
      have hpos' := (hs.storedAddress_inj hn (hrange j hj) hn (div_lt_sizeInClusters hbs hpos) he).2
      omega
  · rw [Function.update_of_ne hsame, hs.contents_eq hm hn', hs.contents_eq hm' hn']
    apply List.map_congr_left
    intro pos hpos
    have hlt : pos < inodeDataSize fs.device node' := List.mem_range.mp hpos
    rw [Nat.zero_add, hstore]
    apply storeSeq_of_ne
    intro j hj he
    exact hsame (hs.storedAddress_inj hn (hrange j hj) hn' (div_lt_sizeInClusters hbs hlt) he).1.symm

end Writes

/-! One request. -/

section Simulation

variable {fs : Ext2} {files : Set Nat} {m : Memory} {t : FileTable}

theorem LeadsInto.ext2GetElementInode_eq (hs : ServedFiles fs files) (hm : Set.EqOn fs.device m (tableBytes fs files))
    {path : List UInt8} (h : LeadsInto fs files path) :
    ext2GetElementInode (fs.withDevice m) path = .ok (fileNode fs path) := by
  rw [ext2GetElementInode_congr (requestBytes_namespace (tableBytes_requestBytes hm))]
  exact h.1.ext2GetElementInode_eq hs.sized

theorem Represents.node_eq (hrep : Represents fs files m t) (path : List UInt8) : t.node path = fileNode fs path := by
  rw [hrep.node]
  rfl

theorem ext2Service_represents (calls : ClusterCalls) (hs : ServedFiles fs files) (hrep : Represents fs files m t)
    {request : Request} (hreq : Admitted fs files request) :
    ∃ m', ext2Service calls (fs.withDevice m) request = (.ok (t.serve request).1, m') ∧
      Represents fs files m' (t.serve request).2 := by
  have hm := hrep.kept
  have hrequest := tableBytes_requestBytes hm
  cases request with
  | readDir request =>
    obtain ⟨hfollowed, hlists⟩ := hreq
    refine ⟨m, ?_, hrep⟩
    rw [ext2Service, ext2ServiceReadDir_congr hrequest, hfollowed.ext2ServiceReadDir_eq hs.sized hlists,
      FileTable.serve, hrep.names]
    rfl
  | getAttr request =>
    have hfollowed : Followed fs request.path := hreq
    refine ⟨m, ?_, hrep⟩
    rw [ext2Service, ext2ServiceGetAttr_congr hrequest, hfollowed.ext2ServiceGetAttr_eq hs.sized, FileTable.serve,
      hrep.attributes]
    rfl
  | read request =>
    obtain ⟨hleads, hsum⟩ := hreq
    have hpath := hleads.ext2GetElementInode_eq hs hm
    refine ⟨m, ?_, ?_⟩
    · simp only [ext2Service, FileTable.serve, hrep.node_eq]
      cases hnode : fileNode fs request.path with
      | none =>
        have hnone : ext2ServiceRead (fs.withDevice m) request = .ok ⟨[], true, 0⟩ := by
          rw [ext2ServiceRead, hpath, hnode]
        rw [hnone]
        rfl
      | some node =>
        have hn := hleads.2 node hnode
        have hfound := hleads.1.ext2GetElementInode_eq hs.sized
        rw [hnode] at hfound
        rw [hs.ext2ServiceRead_eq hm hfound hn hsum]
        simp only [hrep.contents node hn]
        rfl
    · simp only [FileTable.serve]
      split <;> exact hrep
  | write request =>
    obtain ⟨hleads, hpos, hclusters⟩ := hreq
    have hpath := hleads.ext2GetElementInode_eq hs hm
    simp only [ext2Service, FileTable.serve, hrep.node_eq]
    cases hnode : fileNode fs request.path with
    | none =>
      have hnone : ext2ServiceWrite calls (fs.withDevice m) request = (.ok ⟨true, 0⟩, m) := by
        rw [ext2ServiceWrite, hpath, hnode]
        rfl
      rw [hnone]
      exact ⟨m, rfl, hrep⟩
    | some node =>
      have hn := hleads.2 node hnode
      have hle := hclusters node hnode
      have hfound := hleads.1.ext2GetElementInode_eq hs.sized
      rw [hnode] at hfound
      obtain ⟨m', hwrite, hstore, hm'⟩ := hs.ext2ServiceWrite_eq calls hm hfound hn hpos hle
      rw [hwrite]
      refine ⟨m', rfl, hm', hrep.names, hrep.attributes, hrep.node, fun node' hn' => ?_⟩
      rw [hs.contents_write hm hm' hn hle hstore hn']
      simp only [FileTable.write, hrep.contents node hn]
      by_cases hsame : node' = node
      · subst hsame
        simp only [Function.update_self]
      · simp only [Function.update_of_ne hsame, hrep.contents node' hn']

end Simulation

end FuseExt2
