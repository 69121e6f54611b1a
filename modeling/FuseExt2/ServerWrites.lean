import FuseExt2.Confinement
import FuseExt2.LastWrite
import FuseExt2.Namespace

/-! Runs of write requests: what is written can be read back, and which writes
leave the names of the file system alone. -/

namespace FuseExt2

open ByteStore

def requestBytes (fs : Ext2) : Set Nat := {a | a ∈ namespaceBytes fs ∨ a ∈ Set.Ico 0 4}

/-- The file system after the request; a fault leaves the stores made before it. -/
def afterWrite (calls : ClusterCalls) (fs : Ext2) (request : WriteRequest) : Ext2 :=
  fs.withDevice (ext2ServiceWrite calls fs request).2

def afterWrites (calls : ClusterCalls) (fs : Ext2) (requests : List WriteRequest) : Ext2 :=
  requests.foldl (afterWrite calls) fs

theorem afterWrites_keeps {calls : ClusterCalls} {fs : Ext2} {kept : Set Nat} {requests : List WriteRequest}
    (hstep : ∀ request ∈ requests, ∀ m, Set.EqOn fs.device m kept →
      Set.EqOn fs.device (ext2ServiceWrite calls (fs.withDevice m) request).2 kept) {m : Memory}
    (hm : Set.EqOn fs.device m kept) :
    ∃ m', afterWrites calls (fs.withDevice m) requests = fs.withDevice m' ∧ Set.EqOn fs.device m' kept := by
  induction requests generalizing m with
  | nil => exact ⟨m, rfl, hm⟩
  | cons request requests ih =>
    have hfirst := hstep request List.mem_cons_self m hm
    exact ih (fun r hr => hstep r (List.mem_cons_of_mem _ hr)) hfirst

section Lookups

variable {fs : Ext2} {m : Memory} {node : Nat}

theorem requestBytes_namespace (hm : Set.EqOn fs.device m (requestBytes fs)) :
    Set.EqOn fs.device m (namespaceBytes fs) := hm.mono fun _ ha => Or.inl ha

theorem Reachable.record_congr (hr : Reachable fs node) (hm : Set.EqOn fs.device m (requestBytes fs)) :
    Set.EqOn fs.device m (inodeRecordBytes node) :=
  hm.mono fun _ ha => Or.inl (Or.inr (Or.inr ⟨node, hr, Or.inl ha⟩))

theorem Reachable.dataSize_congr (hr : Reachable fs node) (hm : Set.EqOn fs.device m (requestBytes fs)) :
    inodeDataSize m node = inodeDataSize fs.device node := inodeDataSize_congr (hr.record_congr hm)

theorem Reachable.storedBlock_congr (hr : Reachable fs node) (hm : Set.EqOn fs.device m (requestBytes fs)) (i : Nat) :
    storedBlock (fs.withDevice m) node i = storedBlock fs node i := by
  apply FuseExt2.storedBlock_congr
  · exact blockcount_congr (namespace_superblock (requestBytes_namespace hm))
  · intro hi
    exact inodeBlock_congr (hr.record_congr hm) (by omega)
  · exact (le32_congr (hm.mono fun _ ha => Or.inr ha)).symm

theorem Reachable.storedAddress_congr (hr : Reachable fs node) (hm : Set.EqOn fs.device m (requestBytes fs))
    (pos : Nat) : storedAddress (fs.withDevice m) node pos = storedAddress fs node pos := by
  simp only [storedAddress, hr.storedBlock_congr hm]
  rfl

end Lookups

/-! Reading back. -/

/-- A write to a regular file whose data blocks are valid, distinct and apart from
what resolution reads. It starts inside the file and needs no new block. -/
structure FileWrite (fs : Ext2) (node : Nat) (request : WriteRequest) : Prop where
  path : ext2GetElementInode fs request.path = .ok (some node)
  regular : inodeHasModeFlag fs.device node EXT2_IFREG = true
  valid : ∀ i < dataBlockCount fs node, referenceBlock fs node i ≠ 0 ∧ referenceBlock fs node i < fs.blockcount
  apart : ∀ i < dataBlockCount fs node, Disjoint (blockBytes fs (referenceBlock fs node i)) (namespaceBytes fs)
  distinct : Set.InjOn (referenceBlock fs node) (Set.Iio (dataBlockCount fs node))
  nonempty : 0 < request.data.length
  offset_le : request.offset.toNat ≤ inodeDataSize fs.device node
  clusters : sizeInClusters fs (request.offset.toNat + request.data.length) ≤ dataBlockCount fs node

def FindsBlocks (fs : Ext2) (node offset len : Nat) : Prop :=
  ∀ i, offset / fs.blockSize ≤ i → i * fs.blockSize < offset + len →
    storedBlock fs node i = some (referenceBlock fs node i)

/-- The write is answered without an error, the file ends at the old end or where
the write ends, and the range then reads as the data. -/
def ReadsBack (calls : ClusterCalls) (fs : Ext2) (request : WriteRequest) : Prop :=
  ∃ node m, ext2GetElementInode fs request.path = .ok (some node) ∧
    ext2ServiceWrite calls fs request = (.ok ⟨false, 0⟩, m) ∧
    inodeDataSize m node = max (inodeDataSize fs.device node) (request.offset.toNat + request.data.length) ∧
    ext2ServiceRead (fs.withDevice m) ⟨request.path, request.offset, UInt32.ofNat request.data.length⟩ =
      .ok ⟨request.data, false, 0⟩

section ReadBack

variable {calls : ClusterCalls} {fs : Ext2} {node : Nat} {request : WriteRequest}

theorem FileWrite.lt_dataBlockCount (hw : FileWrite fs node request) (hbs : Ext2Sized fs) {i : Nat}
    (hi : i * fs.blockSize < request.offset.toNat + request.data.length) : i < dataBlockCount fs node :=
  lt_of_lt_of_le ((lt_sizeInClusters_iff hbs.pos).mpr hi) hw.clusters

theorem FileWrite.keepsClusters (hw : FileWrite fs node request) (hbs : Ext2Sized fs) :
    KeepsClusters fs node (request.offset.toNat + request.data.length) := by
  have hle := hbs.le.1
  by_cases hsize : request.offset.toNat + request.data.length ≤ inodeDataSize fs.device node
  · exact Or.inl hsize
  · have hmono : dataBlockCount fs node ≤ sizeInClusters fs (request.offset.toNat + request.data.length) :=
      Nat.div_le_div_right (by omega)
    have hlt : dataBlockCount fs node < 2 ^ 31 := by
      have h32 := le32_lt fs.device (node + 4)
      rw [dataBlockCount, sizeInClusters, inodeDataSize, Nat.div_lt_iff_lt_mul (by omega)]
      have := Nat.mul_le_mul_left (2 ^ 31) hle
      have := fs.blockSize_lt
      omega
    have heq := le_antisymm hw.clusters hmono
    exact Or.inr ⟨heq, heq ▸ hlt⟩

theorem FileWrite.storedBlock_eq (hw : FileWrite fs node request) (hbs : Ext2Sized fs)
    (hfound : FindsBlocks fs node request.offset.toNat request.data.length) {j : Nat}
    (hj : j < request.data.length) :
    (request.offset.toNat + j) / fs.blockSize < dataBlockCount fs node ∧
      storedBlock fs node ((request.offset.toNat + j) / fs.blockSize) =
        some (referenceBlock fs node ((request.offset.toNat + j) / fs.blockSize)) := by
  have hin : (request.offset.toNat + j) / fs.blockSize * fs.blockSize <
      request.offset.toNat + request.data.length := by
    have := Nat.div_mul_le_self (request.offset.toNat + j) fs.blockSize
    omega
  exact ⟨hw.lt_dataBlockCount hbs hin, hfound _ (Nat.div_le_div_right (Nat.le_add_right _ j)) hin⟩

theorem FileWrite.storedAddress_not_mem (hw : FileWrite fs node request) (hbs : Ext2Sized fs)
    (hfound : FindsBlocks fs node request.offset.toNat request.data.length) {j : Nat}
    (hj : j < request.data.length) : storedAddress fs node (request.offset.toNat + j) ∉ requestBytes fs := by
  obtain ⟨hcount, hstored⟩ := hw.storedBlock_eq hbs hfound hj
  have hmem := storedAddress_mem hbs.pos hstored
  intro ha
  rcases ha with hn | hword
  · exact Set.disjoint_left.mp (hw.apart _ hcount) hmem hn
  · -- the first word of the device is in block 0
    have hle := hbs.le.1
    have hone := Nat.mul_le_mul_right fs.blockSize (Nat.one_le_iff_ne_zero.mpr (hw.valid _ hcount).1)
    have hl := hmem.1
    have hu : storedAddress fs node (request.offset.toNat + j) < 4 := hword.2
    omega

theorem FileWrite.storedAddress_injOn (hw : FileWrite fs node request) (hbs : Ext2Sized fs)
    (hfound : FindsBlocks fs node request.offset.toNat request.data.length) :
    Set.InjOn (fun j => storedAddress fs node (request.offset.toNat + j)) (Set.Iio request.data.length) := by
  intro j hj j' hj' he
  obtain ⟨hc, hs⟩ := hw.storedBlock_eq hbs hfound hj
  obtain ⟨hc', hs'⟩ := hw.storedBlock_eq hbs hfound hj'
  have he' : storedAddress fs node (request.offset.toNat + j) =
      storedAddress fs node (request.offset.toNat + j') := he
  have hmem := storedAddress_mem hbs.pos hs
  rw [he'] at hmem
  have hdiv := hw.distinct hc hc' (eq_of_mem_blockBytes hmem (storedAddress_mem hbs.pos hs'))
  exact Nat.add_left_cancel (eq_of_byteAddress_eq hdiv he')

theorem FileWrite.dataToCopy_eq (hw : FileWrite fs node request) (hbs : Ext2Sized fs)
    (hfound : FindsBlocks fs node request.offset.toNat request.data.length) {m : Memory}
    (hm : Set.EqOn fs.device m (requestBytes fs)) {i : Nat} (hi : request.offset.toNat / fs.blockSize ≤ i)
    (hlt : i * fs.blockSize < request.offset.toNat + request.data.length) :
    dataToCopy (fs.withDevice m) node i = .ok ((storedBlock fs node i).getD 0 * fs.blockSize) := by
  have hr := reachable_of_ext2GetElementInode hw.path
  have h32 := lt_of_lt_dataBlockCount hbs.pos (hw.lt_dataBlockCount hbs hlt)
  exact dataToCopy_of_isSome hbs h32 (hr.storedBlock_congr hm i) (by rw [hfound i hi hlt]; rfl)

theorem FileWrite.ext2ServiceWrite_eq (hw : FileWrite fs node request) (hbs : Ext2Sized fs)
    (hfound : FindsBlocks fs node request.offset.toNat request.data.length) (calls : ClusterCalls) {m : Memory}
    (hm : Set.EqOn fs.device m (requestBytes fs)) :
    ∃ m', ext2ServiceWrite calls (fs.withDevice m) request = (.ok ⟨false, 0⟩, m') ∧
      Set.EqOn fs.device m' (requestBytes fs) ∧
      ∀ j < request.data.length, m' (storedAddress fs node (request.offset.toNat + j)) = request.data.getD j 0 := by
  have hr := reachable_of_ext2GetElementInode hw.path
  have hpos := hbs.pos
  have hkeep : KeepsClusters (fs.withDevice m) node (request.offset.toNat + request.data.length) := by
    rw [KeepsClusters, Ext2.withDevice_device, hr.dataSize_congr hm]
    exact hw.keepsClusters hbs
  obtain ⟨hwrite, heq⟩ := ext2WriteInodeData_of_eqOn calls
    (fun i => (storedBlock fs node i).getD 0 * fs.blockSize) hpos hw.nonempty
    (fun m' hm' i hi hlt => hw.dataToCopy_eq hbs hfound hm' hi hlt)
    (fun j hj => hw.storedAddress_not_mem hbs hfound hj) hm hkeep (fun j => request.data.getD j 0)
  refine ⟨_, ?_, heq, fun j hj => storeSeq_of_injOn hj (hw.storedAddress_injOn hbs hfound)⟩
  rw [ext2ServiceWrite, ext2GetElementInode_congr (requestBytes_namespace hm), hw.path]
  simp only [hwrite]

theorem FileWrite.ext2ServiceRead_eq (hw : FileWrite fs node request) (hbs : Ext2Sized fs)
    (hfound : FindsBlocks fs node request.offset.toNat request.data.length)
    (hsize : request.offset.toNat + request.data.length ≤ inodeDataSize fs.device node) {m : Memory}
    (hm : Set.EqOn fs.device m (requestBytes fs))
    (hdata : ∀ j < request.data.length,
      m (storedAddress fs node (request.offset.toNat + j)) = request.data.getD j 0) :
    ext2ServiceRead (fs.withDevice m) ⟨request.path, request.offset, UInt32.ofNat request.data.length⟩ =
      .ok ⟨request.data, false, 0⟩ := by
  have hr := reachable_of_ext2GetElementInode hw.path
  have hpos : 0 < (fs.withDevice m).blockSize := hbs.pos
  have hs32 := le32_lt fs.device (node + 4)
  have hsame := hr.dataSize_congr hm
  simp only [inodeDataSize] at hs32 hsame hsize
  have hlen : (UInt32.ofNat request.data.length).toNat = request.data.length := by
    rw [UInt32.toNat_ofNat', Nat.mod_eq_of_lt (by omega)]
  have hclip : sizeToRead ⟨request.path, request.offset, UInt32.ofNat request.data.length⟩
      (inodeDataSize m node) = request.data.length := by
    simp only [sizeToRead, hlen, inodeDataSize, hsame]
    rw [Nat.mod_eq_of_lt (by omega), if_neg (by omega)]
  have hread := ext2ReadInodeData_eq_ok 0 (fun i => (storedBlock fs node i).getD 0 * fs.blockSize) hpos hw.nonempty
    (fun i hi hlt => hw.dataToCopy_eq hbs hfound hm hi hlt)
  have hbytes : readBytes (memcpy 0 0 (fun j => m (storedAddress fs node (request.offset.toNat + j))) 0
      request.data.length) 0 request.data.length = request.data := by
    refine List.ext_getElem (readBytes_length _ _ _) (fun j hj hj' => ?_)
    have hget := hdata j hj'
    simp only [readBytes, List.getElem_map, List.getElem_range, memcpy, Nat.zero_add, Nat.zero_le, hj', and_self,
      if_true, Nat.sub_zero, hget]
    exact List.getD_eq_getElem _ _ hj'
  rw [ext2ServiceRead, ext2GetElementInode_congr (requestBytes_namespace hm), hw.path]
  simp only [Ext2.withDevice_device, hclip]
  rw [if_neg (by simp only [inodeDataSize, hsame]; omega), hread]
  exact congrArg (fun data => (Except.ok ⟨data, false, 0⟩ : Except Fault ReadResponse)) hbytes

/-- Inside the old size a write whose blocks are found reads back, after any writes
of this kind. -/
theorem readsBack_afterWrites {requests : List WriteRequest} (hbs : Ext2Sized fs)
    (hws : ∀ r ∈ requests ++ [request], ∃ node, FileWrite fs node r ∧
      r.offset.toNat + r.data.length ≤ inodeDataSize fs.device node ∧
      FindsBlocks fs node r.offset.toNat r.data.length) :
    ReadsBack calls (afterWrites calls fs requests) request := by
  have hstep : ∀ r ∈ requests, ∀ m, Set.EqOn fs.device m (requestBytes fs) →
      Set.EqOn fs.device (ext2ServiceWrite calls (fs.withDevice m) r).2 (requestBytes fs) := by
    intro r hr m hm
    obtain ⟨node, hw, -, hfound⟩ := hws r (List.mem_append_left _ hr)
    obtain ⟨m', hwrite, heq, -⟩ := hw.ext2ServiceWrite_eq hbs hfound calls hm
    rw [hwrite]
    exact heq
  obtain ⟨m, hrun, hm⟩ := afterWrites_keeps hstep (Set.eqOn_refl fs.device _)
  obtain ⟨node, hw, hsize, hfound⟩ := hws request (List.mem_append_right _ (List.mem_singleton_self _))
  obtain ⟨m', hwrite, heq, hdata⟩ := hw.ext2ServiceWrite_eq hbs hfound calls hm
  have hr := reachable_of_ext2GetElementInode hw.path
  rw [Ext2.withDevice_self] at hrun
  rw [hrun]
  refine ⟨node, m', (ext2GetElementInode_congr (requestBytes_namespace hm) _).trans hw.path, hwrite, ?_, ?_⟩
  · rw [Ext2.withDevice_device, hr.dataSize_congr hm, hr.dataSize_congr heq, Nat.max_eq_left hsize]
  · exact hw.ext2ServiceRead_eq hbs hfound hsize heq hdata

/-- Past the old size it is answered as a success, and the file keeps its size. -/
theorem not_readsBack_of_append (hbs : Ext2Sized fs) (hw : FileWrite fs node request)
    (hfound : FindsBlocks fs node request.offset.toNat request.data.length)
    (hsize : inodeDataSize fs.device node < request.offset.toNat + request.data.length) :
    ¬ ReadsBack calls fs request := by
  rintro ⟨node', m, hpath, hwrite, hmax, -⟩
  obtain ⟨m', hwrite', heq, -⟩ := hw.ext2ServiceWrite_eq hbs hfound calls (Set.eqOn_refl fs.device _)
  rw [Ext2.withDevice_self, hwrite] at hwrite'
  obtain rfl := Option.some.inj (Except.ok.inj (hpath.symm.trans hw.path))
  obtain rfl := (Prod.mk.inj hwrite').2
  have hsame := (reachable_of_ext2GetElementInode hw.path).dataSize_congr heq
  omega

end ReadBack

theorem fileFs_findsBlocks {offset len : Nat} (hend : offset + len ≤ 1024) :
    FindsBlocks (fileFs 10) 6528 offset len := by
  intro i _ hi
  have hbs : (fileFs 10).blockSize = 1024 := rfl
  obtain rfl : i = 0 := by
    rw [hbs] at hi
    omega
  decide

theorem fileFs_fileWrite {request : WriteRequest} (hpath : request.path = [slash, 0x66])
    (hpos : 0 < request.data.length) (hoffset : request.offset.toNat ≤ 10)
    (hend : request.offset.toNat + request.data.length ≤ 1024) : FileWrite (fileFs 10) 6528 request where
  path := by
    rw [hpath]
    rfl
  regular := by decide
  valid := by decide
  apart := by
    have hblock : ∀ i < dataBlockCount (fileFs 10) 6528, referenceBlock (fileFs 10) 6528 i = 8 := by decide
    intro i hi
    rw [hblock i hi, Set.disjoint_left]
    rintro a ⟨hl, -⟩ ha
    have hlt := fileFs_namespace (Or.inl rfl) ha
    have hbs : (fileFs 10).blockSize = 1024 := rfl
    omega
  distinct := by
    have hcount : dataBlockCount (fileFs 10) 6528 = 1 := by decide
    intro i hi i' hi' _
    simp only [hcount, Set.mem_Iio] at hi hi'
    omega
  nonempty := hpos
  offset_le := hoffset
  clusters := by
    have hcount : dataBlockCount (fileFs 10) 6528 = 1 := by decide
    have hbs : (fileFs 10).blockSize = 1024 := rfl
    rw [hcount, sizeInClusters, hbs]
    omega

theorem readsBack_afterWrites_sample :
    ReadsBack keepClusters (afterWrites keepClusters (fileFs 10) [⟨[slash, 0x66], 0, [1, 2, 3]⟩])
      ⟨[slash, 0x66], 2, [4, 5]⟩ := by
  refine readsBack_afterWrites ⟨0, by decide, by decide⟩ (fun request hr => ⟨6528, ?_⟩)
  have hr' : request = ⟨[slash, 0x66], 0, [1, 2, 3]⟩ ∨ request = ⟨[slash, 0x66], 2, [4, 5]⟩ := by simpa using hr
  rcases hr' with rfl | rfl
  · exact ⟨fileFs_fileWrite rfl (by decide) (by decide) (by decide), by decide, fileFs_findsBlocks (by decide)⟩
  · exact ⟨fileFs_fileWrite rfl (by decide) (by decide) (by decide), by decide, fileFs_findsBlocks (by decide)⟩

theorem not_readsBack_sample :
    FileWrite (fileFs 10) 6528 ⟨[slash, 0x66], 10, [1]⟩ ∧
    (ext2ServiceWrite keepClusters (fileFs 10) ⟨[slash, 0x66], 10, [1]⟩).1 = .ok ⟨false, 0⟩ ∧
    ¬ ReadsBack keepClusters (fileFs 10) ⟨[slash, 0x66], 10, [1]⟩ := by
  have hw : FileWrite (fileFs 10) 6528 ⟨[slash, 0x66], 10, [1]⟩ :=
    fileFs_fileWrite rfl (by decide) (by decide) (by decide)
  exact ⟨hw, rfl, not_readsBack_of_append ⟨0, by decide, by decide⟩ hw (fileFs_findsBlocks (by decide)) (by decide)⟩

/-! Keeping the names. -/

/-- What resolution reads is in no free block and in no data block of an inode that
is not a directory. -/
def NamespaceApart (fs : Ext2) : Prop :=
  ∀ a ∈ namespaceBytes fs, ∀ b, a ∈ blockBytes fs b → ¬ FreeBlock fs b ∧
    ∀ node, Reachable fs node → inodeHasModeFlag fs.device node EXT2_IFDIR = false → b ∉ dataBlocks fs node

def InRange (fs : Ext2) (request : WriteRequest) : Prop :=
  ∀ node, ext2GetElementInode fs request.path = .ok (some node) →
    request.offset.toNat + request.data.length ≤ inodeDataSize fs.device node

/-- Whatever the path resolves to, nothing is stored, or it is no directory and the
data goes to its own blocks or free ones. -/
def HarmlessWrite (fs : Ext2) (request : WriteRequest) : Prop :=
  ∀ node, ext2GetElementInode fs request.path = .ok (some node) → request.data = [] ∨
    inodeHasModeFlag fs.device node EXT2_IFDIR = false ∧
      TargetsOwned fs node request.offset.toNat request.data.length

section Names

variable {calls : ClusterCalls} {fs : Ext2} {inodes : Set Nat} {node : Nat} {request : WriteRequest}

theorem HarmlessWrite.storedAddress_not_mem (hwf : WellFormedImage fs inodes) (hapart : NamespaceApart fs)
    (hw : HarmlessWrite fs request) (hpath : ext2GetElementInode fs request.path = .ok (some node)) {j : Nat}
    (hj : j < request.data.length)
    (hsome : ∀ i, request.offset.toNat / fs.blockSize ≤ i → i ≤ (request.offset.toNat + j) / fs.blockSize →
      (storedBlock fs node i).isSome) :
    storedAddress fs node (request.offset.toNat + j) ∉ requestBytes fs := by
  have hpos := hwf.sized.pos
  rcases hw node hpath with hnil | ⟨hdir, htarget⟩
  · rw [hnil] at hj
    exact absurd hj (Nat.not_lt_zero j)
  · obtain ⟨b, hb⟩ := Option.isSome_iff_exists.mp
      (hsome _ (Nat.div_le_div_right (Nat.le_add_right _ j)) le_rfl)
    have howned := htarget _ (by omega) (by omega) hsome b hb
    have hmem := storedAddress_mem hpos hb
    rintro (hname | hword)
    · obtain ⟨hfree, hdata⟩ := hapart _ hname b hmem
      rcases howned with h | h
      · exact hdata node (reachable_of_ext2GetElementInode hpath) hdir h
      · exact hfree h
    · -- the first word of the device is in block 0, which is neither
      obtain rfl : b = 0 := by
        by_contra hne
        have hone := Nat.le_mul_of_pos_left fs.blockSize (Nat.pos_of_ne_zero hne)
        have hl := hmem.1
        have hu : storedAddress fs node (request.offset.toNat + j) < 4 := hword.2
        have hle := hwf.sized.le.1
        omega
      rcases howned with h | h
      · exact h.2.1 rfl
      · exact (hwf.free 0 h).1 (Or.inl rfl)

theorem HarmlessWrite.keeps (hwf : WellFormedImage fs inodes) (hapart : NamespaceApart fs)
    (hin : InRange fs request) (hw : HarmlessWrite fs request)
    (calls : ClusterCalls) {m : Memory} (hm : Set.EqOn fs.device m (requestBytes fs)) :
    Set.EqOn fs.device (ext2ServiceWrite calls (fs.withDevice m) request).2 (requestBytes fs) := by
  have hsame := ext2GetElementInode_congr (requestBytes_namespace hm) request.path
  by_cases hex : ∃ node, ext2GetElementInode fs request.path = .ok (some node)
  · obtain ⟨node, hpath⟩ := hex
    have hr := reachable_of_ext2GetElementInode hpath
    have hsized : Ext2Sized (fs.withDevice m) := hwf.sized
    have hsize : request.offset.toNat + request.data.length ≤ inodeDataSize (fs.withDevice m).device node := by
      rw [Ext2.withDevice_device, hr.dataSize_congr hm]
      exact hin node hpath
    have hlookup : ∀ m', Set.EqOn (fs.withDevice m).device m' (requestBytes fs) → ∀ i,
        storedBlock ((fs.withDevice m).withDevice m') node i = storedBlock (fs.withDevice m) node i := by
      intro m' hm' i
      rw [Ext2.withDevice_withDevice, hr.storedBlock_congr (hm.trans hm'), hr.storedBlock_congr hm]
    obtain ⟨n, hstores, hlt⟩ := ext2WriteInodeData_stores_of_eqOn calls hsized hsize hlookup
      (fun j hj hsome => by
        rw [hr.storedAddress_congr hm]
        simp only [hr.storedBlock_congr hm] at hsome
        exact hw.storedAddress_not_mem hwf hapart hpath hj hsome)
      (fun j => request.data.getD j 0)
    intro a ha
    rw [ext2ServiceWrite_device calls (hsame.trans hpath), hstores, storeSeq_of_ne]
    · exact hm ha
    · rintro j hj rfl
      obtain ⟨hlen, hsome⟩ := (hlt j).mp hj
      rw [hr.storedAddress_congr hm] at ha
      simp only [hr.storedBlock_congr hm] at hsome
      exact hw.storedAddress_not_mem hwf hapart hpath hlen hsome ha
  · rw [(ext2ServiceWrite_unresolved calls fun node h => hex ⟨node, hsame.symm.trans h⟩).1]
    exact hm

end Names

/-- Requests that store nothing in directories keep every path and every entry. -/
theorem sameNamespace_afterWrites {calls : ClusterCalls} {fs : Ext2} {inodes : Set Nat} {requests : List WriteRequest}
    (hwf : WellFormedImage fs inodes) (hapart : NamespaceApart fs) (hin : ∀ request ∈ requests, InRange fs request)
    (hws : ∀ request ∈ requests, HarmlessWrite fs request) :
    SameNamespace fs (afterWrites calls fs requests) := by
  have hstep : ∀ request ∈ requests, ∀ m, Set.EqOn fs.device m (requestBytes fs) →
      Set.EqOn fs.device (ext2ServiceWrite calls (fs.withDevice m) request).2 (requestBytes fs) :=
    fun request hr m hm => (hws request hr).keeps hwf hapart (hin request hr) calls hm
  obtain ⟨m, hrun, hm⟩ := afterWrites_keeps hstep (Set.eqOn_refl fs.device _)
  rw [Ext2.withDevice_self] at hrun
  rw [hrun]
  exact sameNamespace_of_eqOn (requestBytes_namespace hm)

theorem sparseFs_apart : NamespaceApart sparseFs := by
  intro a ha b hmem
  have hlt := fileFs_namespace (Or.inr rfl) ha
  have hbs : sparseFs.blockSize = 1024 := rfl
  have hl : b * sparseFs.blockSize ≤ a := hmem.1
  rw [hbs] at hl
  refine ⟨fun hfree => ?_, fun node hr hdir hdata => ?_⟩
  · have := sparseFs_free hfree
    omega
  · have hn := fileFs_reachable (Or.inr rfl) hr
    rcases sparseFs_fileBlocks hn (dataBlocks_subset_fileBlocks _ _ hdata) with ⟨rfl, -⟩ | ⟨-, rfl⟩
    · cases hdir.symm.trans (show inodeHasModeFlag sparseFs.device 5248 EXT2_IFDIR = true from rfl)
    · omega

theorem sameNamespace_afterWrites_sample :
    SameNamespace sparseFs
      (afterWrites keepClusters sparseFs [⟨[slash, 0x66], 0, [1, 2, 3]⟩, ⟨[slash], 24, []⟩]) := by
  have hfile : ext2GetElementInode sparseFs [slash, 0x66] = .ok (some 6528) := rfl
  have hroot : ext2GetElementInode sparseFs [slash] = .ok (some 5248) := rfl
  refine sameNamespace_afterWrites sparseFs_wellFormed sparseFs_apart (fun request hr node hpath => ?_)
    (fun request hr node hpath => ?_)
  · rcases List.mem_pair.mp hr with rfl | rfl
    · obtain rfl := Option.some.inj (Except.ok.inj (hpath.symm.trans hfile))
      decide
    · obtain rfl := Option.some.inj (Except.ok.inj (hpath.symm.trans hroot))
      decide
  · rcases List.mem_pair.mp hr with rfl | rfl
    · obtain rfl := Option.some.inj (Except.ok.inj (hpath.symm.trans hfile))
      refine Or.inr ⟨rfl, fun pos _ hpos _ b hb => Or.inl ?_⟩
      have hbs : sparseFs.blockSize = 1024 := rfl
      have hlen : pos < 3 := hpos
      have hstored : storedBlock sparseFs 6528 0 = some 8 := by decide
      have hdata : 8 ∈ dataBlocks sparseFs 6528 := ⟨by decide, by decide, 0, by decide, by decide⟩
      rw [hbs, Nat.div_eq_of_lt (by omega), hstored] at hb
      obtain rfl := Option.some.inj hb
      exact hdata
    · exact Or.inl rfl

/-- Four zero bytes written to the root directory remove the entry "f". -/
theorem not_sameNamespace_sample :
    WellFormedImage sparseFs {5248, 6528} ∧ (∀ node, Reachable sparseFs node → node ∈ ({5248, 6528} : Set Nat)) ∧
    NamespaceApart sparseFs ∧ InRange sparseFs ⟨[slash], 24, [0, 0, 0, 0]⟩ ∧
    ¬ SameNamespace sparseFs (afterWrites keepClusters sparseFs [⟨[slash], 24, [0, 0, 0, 0]⟩]) := by
  refine ⟨sparseFs_wellFormed, fun node hr => fileFs_reachable (Or.inr rfl) hr, sparseFs_apart,
    fun node hpath => ?_, fun hsame => ?_⟩
  · have hroot : ext2GetElementInode sparseFs [slash] = .ok (some 5248) := rfl
    obtain rfl := Option.some.inj (Except.ok.inj (hpath.symm.trans hroot))
    decide
  · have hbefore : ext2GetElementInode sparseFs [slash, 0x66] = .ok (some 6528) := rfl
    have hafter : ext2GetElementInode (afterWrites keepClusters sparseFs [⟨[slash], 24, [0, 0, 0, 0]⟩])
      [slash, 0x66] = .ok none := rfl
    have h := hsame.1 [slash, 0x66]
    rw [hbefore, hafter] at h
    cases Except.ok.inj h

end FuseExt2
