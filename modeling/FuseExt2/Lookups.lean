import FuseExt2.Confinement
import FuseExt2.Listings

/-! Lookups along every path: when the walk comes through, and when it reads
through the NULL list of an inode that is no directory. -/

namespace FuseExt2

open ByteStore

/-- A directory of at most twelve blocks, each filled with records whose numbers
lead to inodes. -/
def RecordsWellFormed (fs : Ext2) (dir : Nat) : Prop :=
  listedBlocks fs dir ≤ 12 ∧ ∀ i < listedBlocks fs dir, inodeBlock fs.device dir i ≠ 0 →
    ∃ block records, ext2GetBlock fs (inodeBlock fs.device dir i) = some block ∧
      HoldsRecords fs.device block records ∧ recordsLength records = fs.blockSize ∧
      ∀ record ∈ usedRecords records, ∃ inode, ext2GetInode fs record.inode = .ok inode

theorem RecordsWellFormed.slotParses {fs : Ext2} {dir i : Nat} (hwf : RecordsWellFormed fs dir)
    (hi : i < listedBlocks fs dir) : SlotParses fs dir i := by
  obtain ⟨hblocks, hrecords⟩ := hwf
  refine ⟨inodeBlock fs.device dir i, ext2GetInodeBlockEntry_direct fs dir (by omega), fun hne => ?_⟩
  obtain ⟨block, records, hblock, hholds, hfills, hnumbers⟩ := hrecords i hi hne
  exact ⟨block, hblock, (hholds.parses_iff hfills).mpr hnumbers⟩

theorem listed_of_ext2FindInode {fs : Ext2} {node : Nat} {path : List (List UInt8)} {result : Option Nat}
    (h0 : ∀ name ∈ path, 0 ∉ name) (h : ext2FindInode fs node path = .ok result) : Listed fs node path := by
  induction path generalizing node with
  | nil =>
    intro pre name post hsplit
    cases pre <;> cases hsplit
  | cons name path ih =>
    obtain ⟨list, hlist⟩ : ∃ list, ext2ListInode fs node = .ok (some list) := by
      rw [ext2FindInode] at h
      cases hl : ext2ListInode fs node with
      | error fault =>
        rw [hl] at h
        cases h
      | ok subelements =>
        rw [hl] at h
        cases subelements with
        | none => cases h
        | some list => exact ⟨list, rfl⟩
    intro pre name' post hsplit dir hfollows
    cases pre with
    | nil =>
      cases hfollows
      exact ⟨list, hlist⟩
    | cons first pre =>
      obtain ⟨rfl, hrest⟩ := List.cons.inj hsplit
      have hname : 0 ∉ name := h0 name List.mem_cons_self
      cases hfollows with
      | step hlist' hfirst hinode htail =>
        obtain rfl := Option.some.inj (Except.ok.inj (hlist.symm.trans hlist'))
        have hfind := (firstNamed_iff_find? hname).mp hfirst
        obtain rfl := Except.ok.inj (hinode.symm.trans (ext2ListInode_made hlist _ (List.mem_of_find?_eq_some hfind)))
        rw [ext2FindInode_cons hlist hfind] at h
        exact ih (fun n hn => h0 n (List.mem_cons_of_mem _ hn)) h pre name' post hrest dir htail

/-! What the server answers along a path. -/

def Names (fs : Ext2) (path : List UInt8) (node : Nat) : Prop :=
  ∃ root, ext2GetRootInode fs = .ok root ∧ Follows fs root (components path) node

structure AnswersNotFound (calls : ClusterCalls) (fs : Ext2) (path : List UInt8) : Prop where
  element : ext2GetElementInode fs path = .ok none
  readDir : ext2ServiceReadDir fs ⟨path⟩ = .ok ⟨false, 0, []⟩
  getAttr : ext2ServiceGetAttr fs ⟨path⟩ = .ok ⟨false, 0, false, 0, 0, 0, 0⟩
  read : ∀ offset length, ext2ServiceRead fs ⟨path, offset, length⟩ = .ok ⟨[], true, 0⟩
  write : ∀ offset data, ext2ServiceWrite calls fs ⟨path, offset, data⟩ = (.ok ⟨true, 0⟩, fs.device)

/-- The lookup reads through no NULL, and finds nothing where the path names nothing. -/
def CleanLookup (calls : ClusterCalls) (fs : Ext2) (path : List UInt8) : Prop :=
  (∃ result, ext2GetElementInode fs path = .ok result) ∧
    ((∀ node, ¬ Names fs path node) → AnswersNotFound calls fs path)

/-- Every inode that a proper prefix of the path leads to is a directory whose
blocks can be walked. -/
def ThroughDirectories (fs : Ext2) (path : List UInt8) : Prop :=
  ∃ root, ext2GetRootInode fs = .ok root ∧ ∀ pre name post, components path = pre ++ name :: post →
    ∀ dir, Follows fs root pre dir → inodeHasModeFlag fs.device dir EXT2_IFDIR = true ∧ ListingParses fs dir

theorem answersNotFound_of_none (calls : ClusterCalls) {fs : Ext2} {path : List UInt8}
    (h : ext2GetElementInode fs path = .ok none) : AnswersNotFound calls fs path where
  element := h
  readDir := by simp only [ext2ServiceReadDir, ext2ListDir, h]
  getAttr := by simp only [ext2ServiceGetAttr, h]
  read offset length := by simp only [ext2ServiceRead, h]
  write offset data := by simp only [ext2ServiceWrite, h]

theorem ext2GetElementInode_root {fs : Ext2} {path : List UInt8} {result : Option Nat}
    (h : ext2GetElementInode fs path = .ok result) : ∃ root, ext2GetRootInode fs = .ok root := by
  cases hroot : ext2GetRootInode fs with
  | ok root => exact ⟨root, rfl⟩
  | error fault =>
    rw [ext2GetElementInode, hroot] at h
    cases h

theorem cleanLookup_iff_listed (calls : ClusterCalls) {fs : Ext2} {path : List UInt8} (h0 : 0 ∉ path)
    (hslash : path.head? = some slash) :
    CleanLookup calls fs path ↔ ∃ root, ext2GetRootInode fs = .ok root ∧ Listed fs root (components path) := by
  have hnames : ∀ name ∈ components path, 0 ∉ name := fun name hn => not_mem_of_mem_components h0 hn
  constructor
  · intro h
    obtain ⟨⟨result, hok⟩, -⟩ := h
    obtain ⟨root, hroot⟩ := ext2GetElementInode_root hok
    obtain ⟨text, rfl⟩ := List.head?_eq_some_iff.mp hslash
    rw [ext2GetElementInode_slash_cons hroot h0] at hok
    exact ⟨root, hroot, listed_of_ext2FindInode hnames hok⟩
  · intro h
    obtain ⟨root, hroot, hlisted⟩ := h
    obtain ⟨text, rfl⟩ := List.head?_eq_some_iff.mp hslash
    obtain ⟨result, hfind, hsome, -⟩ := ext2FindInode_resolves hnames hlisted
    rw [← ext2GetElementInode_slash_cons hroot h0] at hfind
    refine ⟨⟨result, hfind⟩, fun hnone => answersNotFound_of_none calls ?_⟩
    cases result with
    | none => exact hfind
    | some node => exact absurd ⟨root, hroot, (hsome node).mp rfl⟩ (hnone node)

/-- Where every directory has well-formed records, only other inodes are in the way. -/
theorem cleanLookup_iff_of_recordsWellFormed (calls : ClusterCalls) {fs : Ext2} (hbs : Ext2Sized fs)
    (hsectors : shl32 2 fs.logBlockSize ≠ 0) {root : Nat} (hroot : ext2GetRootInode fs = .ok root)
    (hwf : ∀ names dir, Follows fs root names dir → inodeHasModeFlag fs.device dir EXT2_IFDIR = true →
      RecordsWellFormed fs dir)
    {path : List UInt8} (h0 : 0 ∉ path) (hslash : path.head? = some slash) :
    CleanLookup calls fs path ↔ ∀ pre name post, components path = pre ++ name :: post →
      ∀ dir, Follows fs root pre dir → inodeHasModeFlag fs.device dir EXT2_IFDIR = true := by
  rw [cleanLookup_iff_listed calls h0 hslash]
  constructor
  · intro h
    obtain ⟨root', hroot', hlisted⟩ := h
    obtain rfl := Except.ok.inj (hroot.symm.trans hroot')
    intro pre name post hsplit dir hfollows
    exact ((exists_ext2ListInode_iff hbs.pos dir).mp (hlisted pre name post hsplit dir hfollows)).1
  · intro h
    refine ⟨root, hroot, fun pre name post hsplit dir hfollows => ?_⟩
    have hdir := h pre name post hsplit dir hfollows
    have hslots : ListingParses fs dir := ⟨hsectors, fun i hi => (hwf pre dir hfollows hdir).slotParses hi⟩
    exact (exists_ext2ListInode_iff hbs.pos dir).mpr ⟨hdir, hslots⟩

theorem sparseFs_follows_file : ∃ list entry, ext2ListInode sparseFs 5248 = .ok (some list) ∧
    list.find? (fun e => strcmpEq [0x66] e.name) = some entry ∧ ext2GetInode sparseFs entry.inodeIndex = .ok 6528 := by
  have hok : ext2FindInode sparseFs 5248 [[0x66]] = .ok (some 6528) := rfl
  obtain ⟨list, entry, hlist, hfind, htail⟩ := ext2FindInode_cons_some hok
  have hinode : entry.inode = 6528 := Option.some.inj (Except.ok.inj htail)
  exact ⟨list, entry, hlist, hfind, hinode ▸ ext2ListInode_made hlist entry (List.mem_of_find?_eq_some hfind)⟩

end FuseExt2
