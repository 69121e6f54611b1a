import FuseExt2.Addressing
import FuseExt2.LastWrite
import FuseExt2.Listings
import FuseExt2.Server

/-! The tree of directories as its records lie on the device, and when path
resolution follows it. -/

namespace FuseExt2

open ByteStore

/-- The format gives the root directory the second record of the first table. -/
def rootNumber : Nat := 2

/-- Where inode `n` lies, by the primary descriptor table. -/
def inodeRecord (fs : Ext2) (n : Nat) : Nat :=
  groupInodeTable fs (groupOf fs n) * fs.blockSize + (n - 1) % fs.inodeperGroup * inodeStride fs

def DirectoryRecord.entry (record : DirectoryRecord) : Nat × List UInt8 := (record.inode, record.name)

/-- The entries of a directory, number and name: the used records of the blocks that
its map names, in order. -/
def HoldsEntries (fs : Ext2) (dir : Nat) (entries : List (Nat × List UInt8)) : Prop :=
  inodeHasModeFlag fs.device dir EXT2_IFDIR = true ∧ ∃ records : Nat → List DirectoryRecord,
    (∀ i < dataBlockCount fs dir, referenceBlock fs dir i ≠ 0 → referenceBlock fs dir i < fs.blockcount ∧
      WellFormedRecords fs (referenceBlock fs dir i * fs.blockSize) (records i)) ∧
    entries = (usedRecords ((List.range (dataBlockCount fs dir)).flatMap
      (fun i => if referenceBlock fs dir i = 0 then [] else records i))).map DirectoryRecord.entry

def firstEntry (entries : List (Nat × List UInt8)) (name : List UInt8) : Option (Nat × List UInt8) :=
  entries.find? (fun entry => entry.2 = name)

/-- The entries, by the records of the blocks as they are found along their lengths. -/
def directoryEntries (fs : Ext2) (dir : Nat) : List (Nat × List UInt8) :=
  (List.range (dataBlockCount fs dir)).flatMap fun i =>
    if referenceBlock fs dir i = 0 then []
    else (blockRecords fs (referenceBlock fs dir i * fs.blockSize)).map fun shown => (shown.1, shown.2.dropLast)

/-- The names lead from one inode record to another. -/
inductive Leads (fs : Ext2) : Nat → List (List UInt8) → Nat → Prop
  | refl (node : Nat) : Leads fs node [] node
  | step {node last : Nat} {name : List UInt8} {names : List (List UInt8)} {entries : List (Nat × List UInt8)}
      {entry : Nat × List UInt8} (hentries : HoldsEntries fs node entries)
      (hfirst : firstEntry entries name = some entry) (htail : Leads fs (inodeRecord fs entry.1) names last) : Leads fs node (name :: names) last

def LeadsNowhere (fs : Ext2) (node : Nat) (names : List (List UInt8)) : Prop :=
  ∃ pre name post, names = pre ++ name :: post ∧ ∃ dir entries, Leads fs node pre dir ∧
    HoldsEntries fs dir entries ∧ firstEntry entries name = none

def nodeAt (fs : Ext2) : Nat → List (List UInt8) → Option Nat
  | node, [] => some node
  | node, name :: names =>
    match firstEntry (directoryEntries fs node) name with
    | none => none
    | some entry => nodeAt fs (inodeRecord fs entry.1) names

/-- Every inode that a proper prefix of the names leads to is a directory. -/
def ThroughEntries (fs : Ext2) (node : Nat) (names : List (List UInt8)) : Prop :=
  ∀ pre name post, names = pre ++ name :: post → ∀ dir, Leads fs node pre dir → ∃ entries, HoldsEntries fs dir entries

/-- A path is resolved to the inode its components lead to, and to NULL exactly where
one of them is missing. -/
def Resolves (fs : Ext2) (path : List UInt8) : Prop :=
  ∃ result, ext2GetElementInode fs path = .ok result ∧
    (∀ node, result = some node ↔ Leads fs (inodeRecord fs rootNumber) (components path) node) ∧
    (result = none ↔ LeadsNowhere fs (inodeRecord fs rootNumber) (components path))

def firstShown (fs : Ext2) (dir : Nat) (name : List UInt8) : Option (Nat × List UInt8) :=
  (shownRecords fs dir).find? (fun shown => cString shown.2 = name)

/-- The records that the code takes for those of the directory give the name the
inode that the entries of the directory give it. -/
def LooksUp (fs : Ext2) (dir : Nat) (name : List UInt8) : Prop :=
  ListingParses fs dir ∧ ∀ entries, HoldsEntries fs dir entries →
    firstEntry entries name = none ∧ firstShown fs dir name = none ∨
    ∃ entry shown, firstEntry entries name = some entry ∧ firstShown fs dir name = some shown ∧
      ext2GetInode fs shown.1 = .ok (inodeRecord fs entry.1)

/-! The entries on the device are one list. -/

section Entries

variable {fs : Ext2} {node last : Nat} {name : List UInt8} {names : List (List UInt8)}
  {entries : List (Nat × List UInt8)} {entry : Nat × List UInt8}

def shownOf (entry : Nat × List UInt8) : Nat × List UInt8 := (entry.1, entry.2 ++ [0])

theorem shownOf_injective : Function.Injective shownOf := by
  intro entry entry' h
  obtain ⟨hnumber, hname⟩ := Prod.mk.inj h
  exact Prod.ext hnumber (List.append_cancel_right hname)

theorem HoldsEntries.map_shownOf (h : HoldsEntries fs node entries) :
    entries.map shownOf = (List.range (dataBlockCount fs node)).flatMap (fun i =>
      if referenceBlock fs node i = 0 then [] else blockRecords fs (referenceBlock fs node i * fs.blockSize)) := by
  obtain ⟨-, records, hrecords, rfl⟩ := h
  rw [List.map_map, usedRecords, List.filter_flatMap, List.map_flatMap]
  refine List.flatMap_congr fun i hi => ?_
  by_cases hz : referenceBlock fs node i = 0
  · rw [if_pos hz, if_pos hz]
    rfl
  · have hwf := (hrecords i (List.mem_range.mp hi) hz).2
    rw [if_neg hz, if_neg hz, hwf.holds.blockRecords_eq hwf.fills]
    rfl

theorem HoldsEntries.unique {entries' : List (Nat × List UInt8)} (h : HoldsEntries fs node entries)
    (h' : HoldsEntries fs node entries') : entries = entries' :=
  List.map_injective_iff.mpr shownOf_injective (h.map_shownOf.trans h'.map_shownOf.symm)

theorem HoldsEntries.directoryEntries_eq (h : HoldsEntries fs node entries) : directoryEntries fs node = entries := by
  have hentries : (entries.map shownOf).map (fun shown => (shown.1, shown.2.dropLast)) = entries := by
    rw [List.map_map]
    refine (List.map_congr_left fun entry _ => ?_).trans (List.map_id entries)
    rw [Function.comp_apply, shownOf, List.dropLast_concat]
    rfl
  rw [← hentries, h.map_shownOf, List.map_flatMap, directoryEntries]
  refine List.flatMap_congr fun i _ => ?_
  split <;> rfl

theorem leads_nil_iff : Leads fs node [] last ↔ node = last := by
  constructor
  · intro h
    cases h
    rfl
  · rintro rfl
    exact Leads.refl node

theorem not_leadsNowhere_nil : ¬ LeadsNowhere fs node [] := by
  rintro ⟨pre, name, post, hsplit, -⟩
  cases pre <;> cases hsplit

theorem leads_cons_iff (hentries : HoldsEntries fs node entries) (hfirst : firstEntry entries name = some entry) :
    Leads fs node (name :: names) last ↔ Leads fs (inodeRecord fs entry.1) names last := by
  constructor
  · intro h
    cases h with
    | step hentries' hfirst' htail =>
      obtain rfl := hentries.unique hentries'
      obtain rfl := Option.some.inj (hfirst.symm.trans hfirst')
      exact htail
  · intro h
    exact Leads.step hentries hfirst h

theorem not_leads_cons (hentries : HoldsEntries fs node entries) (hfirst : firstEntry entries name = none) :
    ¬ Leads fs node (name :: names) last := by
  intro h
  cases h with
  | step hentries' hfirst' htail =>
    obtain rfl := hentries.unique hentries'
    cases hfirst.symm.trans hfirst'

theorem leadsNowhere_cons_iff (hentries : HoldsEntries fs node entries)
    (hfirst : firstEntry entries name = some entry) :
    LeadsNowhere fs node (name :: names) ↔ LeadsNowhere fs (inodeRecord fs entry.1) names := by
  constructor
  · intro h
    obtain ⟨pre, name', post, hsplit, dir, entries', hleads, hentries', hnone⟩ := h
    cases pre with
    | nil =>
      obtain ⟨rfl, -⟩ := List.cons.inj hsplit
      cases hleads
      obtain rfl := hentries.unique hentries'
      cases hfirst.symm.trans hnone
    | cons first pre =>
      obtain ⟨rfl, hrest⟩ := List.cons.inj hsplit
      exact ⟨pre, name', post, hrest, dir, entries', (leads_cons_iff hentries hfirst).mp hleads, hentries', hnone⟩
  · intro h
    obtain ⟨pre, name', post, hsplit, dir, entries', hleads, hentries', hnone⟩ := h
    exact ⟨name :: pre, name', post, by rw [hsplit, List.cons_append], dir, entries',
      (leads_cons_iff hentries hfirst).mpr hleads, hentries', hnone⟩

theorem ThroughEntries.tail (hthrough : ThroughEntries fs node (name :: names))
    (hentries : HoldsEntries fs node entries) (hfirst : firstEntry entries name = some entry) : ThroughEntries fs (inodeRecord fs entry.1) names := by
  intro pre name' post hsplit dir hleads
  exact hthrough (name :: pre) name' post (by rw [hsplit, List.cons_append]) dir
    ((leads_cons_iff hentries hfirst).mpr hleads)

theorem nodeAt_cons (hentries : HoldsEntries fs node entries) (name : List UInt8) (names : List (List UInt8)) :
    nodeAt fs node (name :: names) =
      (firstEntry entries name).bind fun entry => nodeAt fs (inodeRecord fs entry.1) names := by
  rw [nodeAt, hentries.directoryEntries_eq]
  cases firstEntry entries name <;> rfl

theorem nodeAt_iff (hthrough : ThroughEntries fs node names) :
    (∀ last, nodeAt fs node names = some last ↔ Leads fs node names last) ∧
      (nodeAt fs node names = none ↔ LeadsNowhere fs node names) := by
  induction names generalizing node with
  | nil =>
    refine ⟨fun last => ?_, iff_of_false (by simp [nodeAt]) not_leadsNowhere_nil⟩
    rw [leads_nil_iff, nodeAt, Option.some.injEq]
  | cons name names ih =>
    obtain ⟨entries, hentries⟩ := hthrough [] name names rfl node (Leads.refl node)
    rw [nodeAt_cons hentries]
    cases hfirst : firstEntry entries name with
    | none =>
      refine ⟨fun last => iff_of_false (fun h => by cases h) (not_leads_cons hentries hfirst), iff_of_true rfl ?_⟩
      exact ⟨[], name, names, rfl, node, entries, Leads.refl node, hentries, hfirst⟩
    | some entry =>
      obtain ⟨hsome, hnone⟩ := ih (hthrough.tail hentries hfirst)
      rw [leadsNowhere_cons_iff hentries hfirst]
      refine ⟨fun last => ?_, hnone⟩
      rw [leads_cons_iff hentries hfirst]
      exact hsome last

theorem Leads.trans {mid : Nat} {names' : List (List UInt8)} (h : Leads fs node names mid)
    (h' : Leads fs mid names' last) : Leads fs node (names ++ names') last := by
  induction h with
  | refl node => exact h'
  | step hentries hfirst _ ih => exact Leads.step hentries hfirst (ih h')

theorem Leads.of_append {mid : Nat} {names' : List (List UInt8)} (h : Leads fs node names mid)
    (h' : Leads fs node (names ++ names') last) : Leads fs mid names' last := by
  induction h with
  | refl node => exact h'
  | step hentries hfirst _ ih => exact ih ((leads_cons_iff hentries hfirst).mp h')

end Entries

/-! Where every lookup on the way is right, the search follows the entries. -/

section Search

variable {fs : Ext2} {node : Nat} {name : List UInt8} {names : List (List UInt8)} {list : List InodeEntry}

theorem find?_shown (hbs : Ext2Sized fs) (h0 : 0 ∉ name) (hlist : ext2ListInode fs node = .ok (some list)) :
    firstShown fs node name = (list.find? (fun entry => strcmpEq name entry.name)).map InodeEntry.shown := by
  have hsame : (fun shown : Nat × List UInt8 => decide (cString shown.2 = name)) ∘ InodeEntry.shown =
      fun entry => strcmpEq name entry.name := by
    funext entry
    rw [Bool.eq_iff_iff, strcmpEq_iff h0, Function.comp_apply, decide_eq_true_iff]
    rfl
  rw [firstShown, ← ext2ListInode_shown hbs hlist, List.find?_map, hsame]

theorem ext2FindInode_of_none (hbs : Ext2Sized fs) (h0 : 0 ∉ name) (hlist : ext2ListInode fs node = .ok (some list))
    (hshown : firstShown fs node name = none) (names : List (List UInt8)) :
    ext2FindInode fs node (name :: names) = .ok none := by
  rw [find?_shown hbs h0 hlist, Option.map_eq_none_iff] at hshown
  simp only [ext2FindInode, hlist, deref_some, hshown]

theorem ext2FindInode_of_some (hbs : Ext2Sized fs) (h0 : 0 ∉ name) (hlist : ext2ListInode fs node = .ok (some list))
    {shown : Nat × List UInt8} (hshown : firstShown fs node name = some shown) (names : List (List UInt8)) :
    ∃ inode, ext2GetInode fs shown.1 = .ok inode ∧
      ext2FindInode fs node (name :: names) = ext2FindInode fs inode names := by
  rw [find?_shown hbs h0 hlist, Option.map_eq_some_iff] at hshown
  obtain ⟨entry, hfind, rfl⟩ := hshown
  exact ⟨entry.inode, ext2ListInode_made hlist entry (List.mem_of_find?_eq_some hfind),
    ext2FindInode_cons hlist hfind names⟩

theorem ext2FindInode_eq_nodeAt (hbs : Ext2Sized fs) (h0 : ∀ name ∈ names, 0 ∉ name)
    (hthrough : ThroughEntries fs node names)
    (hlooks : ∀ pre name post, names = pre ++ name :: post → ∀ dir, Leads fs node pre dir → LooksUp fs dir name) :
    ext2FindInode fs node names = .ok (nodeAt fs node names) := by
  induction names generalizing node with
  | nil => rfl
  | cons name names ih =>
    have hname : 0 ∉ name := h0 name List.mem_cons_self
    obtain ⟨entries, hentries⟩ := hthrough [] name names rfl node (Leads.refl node)
    obtain ⟨hparses, hfirst⟩ := hlooks [] name names rfl node (Leads.refl node)
    obtain ⟨list, hlist⟩ := (exists_ext2ListInode_iff hbs.pos node).mpr ⟨hentries.1, hparses⟩
    rw [nodeAt_cons hentries]
    rcases hfirst entries hentries with ⟨hnone, hshown⟩ | ⟨entry, shown, hsome, hshown, hinode⟩
    · rw [ext2FindInode_of_none hbs hname hlist hshown names, hnone]
      rfl
    · obtain ⟨inode, hget, hcons⟩ := ext2FindInode_of_some hbs hname hlist hshown names
      obtain rfl := Except.ok.inj (hinode.symm.trans hget)
      rw [hcons, hsome]
      refine ih (fun n hn => h0 n (List.mem_cons_of_mem _ hn)) (hthrough.tail hentries hsome) ?_
      intro pre name' post hsplit dir hleads
      exact hlooks (name :: pre) name' post (by rw [hsplit, List.cons_append]) dir
        ((leads_cons_iff hentries hsome).mpr hleads)

/-- A search for one name that gives the right answer has looked the name up. -/
theorem looksUp_of_ext2FindInode (hbs : Ext2Sized fs) (h0 : 0 ∉ name) {result : Option Nat}
    (hfind : ext2FindInode fs node [name] = .ok result)
    (hresult : ∀ last, result = some last ↔ Leads fs node [name] last) : LooksUp fs node name := by
  obtain ⟨list, hlist⟩ : ∃ list, ext2ListInode fs node = .ok (some list) := by
    rw [ext2FindInode] at hfind
    cases hl : ext2ListInode fs node with
    | error fault =>
      rw [hl] at hfind
      cases hfind
    | ok subelements =>
      cases subelements with
      | none =>
        rw [hl] at hfind
        cases hfind
      | some list => exact ⟨list, rfl⟩
  refine ⟨((exists_ext2ListInode_iff hbs.pos node).mp ⟨list, hlist⟩).2, fun entries hentries => ?_⟩
  cases hshown : firstShown fs node name with
  | none =>
    obtain rfl := Except.ok.inj (hfind.symm.trans (ext2FindInode_of_none hbs h0 hlist hshown []))
    refine Or.inl ⟨?_, rfl⟩
    cases hfirst : firstEntry entries name with
    | none => rfl
    | some entry => cases (hresult _).mpr ((leads_cons_iff hentries hfirst).mpr (Leads.refl _))
  | some shown =>
    obtain ⟨inode, hget, hcons⟩ := ext2FindInode_of_some hbs h0 hlist hshown []
    obtain rfl := Except.ok.inj (hfind.symm.trans hcons)
    have hleads := (hresult inode).mp rfl
    refine Or.inr ?_
    cases hfirst : firstEntry entries name with
    | none => exact absurd hleads (not_leads_cons hentries hfirst)
    | some entry =>
      cases (leads_cons_iff hentries hfirst).mp hleads
      exact ⟨entry, shown, rfl, rfl, hget⟩

end Search

/-! A directory of at most twelve blocks with numbers below 2^16. -/

section Direct

variable {fs : Ext2} {dir : Nat} {entries : List (Nat × List UInt8)}

/-- The block count of the inode gives the blocks of the directory, its slots fit, its
names are C strings and its numbers lead to their inodes. -/
structure DirectEntries (fs : Ext2) (dir : Nat) (entries : List (Nat × List UInt8)) : Prop where
  holds : HoldsEntries fs dir entries
  sectors : shl32 2 fs.logBlockSize ≠ 0
  blocks : listedBlocks fs dir = dataBlockCount fs dir
  direct : dataBlockCount fs dir ≤ 12
  fit : SlotsFit fs dir
  names : ∀ entry ∈ entries, 0 ∉ entry.2
  numbers : ∀ entry ∈ entries, InodeAddressed fs entry.1

theorem DirectEntries.slotParses (hbs : Ext2Sized fs) (hd : DirectEntries fs dir entries) {i : Nat}
    (hi : i < listedBlocks fs dir) : SlotParses fs dir i := by
  obtain ⟨-, records, hrecords, hentries⟩ := hd.holds
  have hblocks := hd.blocks
  have hdirect := hd.direct
  have hblock := referenceBlock_direct fs dir (show i < 12 by omega)
  refine ⟨_, ext2GetInodeBlockEntry_direct fs dir (by omega), fun hne => ?_⟩
  have hslot := hrecords i (by omega)
  rw [hblock] at hslot
  obtain ⟨hlt, hwf⟩ := hslot hne
  refine ⟨_, ext2GetBlock_of_lt hbs hlt (hd.fit i hi), (hwf.holds.parses_iff hwf.fills).mpr fun record hr => ?_⟩
  have hmem : record.entry ∈ entries := by
    rw [hentries]
    refine List.mem_map_of_mem ?_
    obtain ⟨hmem, hu⟩ := List.mem_filter.mp hr
    refine List.mem_filter.mpr ⟨List.mem_flatMap.mpr ⟨i, List.mem_range.mpr (by omega), ?_⟩, hu⟩
    rwa [hblock, if_neg hne]
  have haddressed : InodeAddressed fs record.inode := hd.numbers record.entry hmem
  exact ⟨inodeRecord fs record.inode, haddressed⟩

theorem DirectEntries.shownRecords_eq (hd : DirectEntries fs dir entries) :
    shownRecords fs dir = entries.map shownOf := by
  have hdirect := hd.direct
  rw [hd.holds.map_shownOf, shownRecords, hd.blocks]
  refine List.flatMap_congr fun i hi => ?_
  have hi' := List.mem_range.mp hi
  have hfit := hd.fit i (hd.blocks ▸ hi')
  rw [slotShown, entryValue_direct fs dir (show i < 12 by omega), referenceBlock_direct fs dir (show i < 12 by omega),
    Nat.mod_eq_of_lt hfit]

theorem DirectEntries.looksUp (hbs : Ext2Sized fs) (hd : DirectEntries fs dir entries) (name : List UInt8) :
    LooksUp fs dir name := by
  refine ⟨⟨hd.sectors, fun i hi => hd.slotParses hbs hi⟩, fun entries' hentries' => ?_⟩
  obtain rfl := hd.holds.unique hentries'
  have hshown : firstShown fs dir name = (firstEntry entries name).map shownOf := by
    rw [firstShown, hd.shownRecords_eq, List.find?_map, firstEntry]
    refine congrArg _ (List.find?_congr fun entry he => ?_)
    rw [Function.comp_apply, shownOf, cString_terminated, cString_of_not_mem (hd.names entry he)]
  cases hfirst : firstEntry entries name with
  | none => exact Or.inl ⟨rfl, by rw [hshown, hfirst]; rfl⟩
  | some entry =>
    have hmem := List.mem_of_find?_eq_some hfirst
    exact Or.inr ⟨entry, shownOf entry, rfl, by rw [hshown, hfirst]; rfl, hd.numbers entry hmem⟩

end Direct

/-! Paths with given components. -/

/-- The path of some names, with a slash in front of each. -/
def pathOf (names : List (List UInt8)) : List UInt8 := slash :: names.flatMap (fun name => slash :: name)

theorem pathOf_append_singleton (names : List (List UInt8)) (name : List UInt8) :
    pathOf (names ++ [name]) = pathOf names ++ slash :: name := by
  simp [pathOf]

theorem components_pathOf {names : List (List UInt8)} (h : ∀ name ∈ names, name ≠ [] ∧ slash ∉ name) :
    components (pathOf names) = names := by
  induction names using List.reverseRecOn with
  | nil => rfl
  | append_singleton names name ih =>
    obtain ⟨hne, hname⟩ := h name (List.mem_append_right _ (List.mem_singleton_self name))
    rw [pathOf_append_singleton, components_append_name hne hname,
      ih (fun n hn => h n (List.mem_append_left _ hn))]

theorem not_mem_pathOf {names : List (List UInt8)} (h : ∀ name ∈ names, 0 ∉ name) : 0 ∉ pathOf names := by
  intro hmem
  rcases List.mem_cons.mp hmem with hs | hmem
  · cases hs
  · obtain ⟨name, hn, hc⟩ := List.mem_flatMap.mp hmem
    rcases List.mem_cons.mp hc with hs | hc
    · cases hs
    · exact h name hn hc

/-- The root is found, and on the way of the path each directory looks the next name up. -/
def FollowsTree (fs : Ext2) (path : List UInt8) : Prop :=
  ext2GetRootInode fs = .ok (inodeRecord fs rootNumber) ∧ ∀ pre name post, components path = pre ++ name :: post →
    ∀ dir, Leads fs (inodeRecord fs rootNumber) pre dir → LooksUp fs dir name

section Paths

variable {fs : Ext2} {path : List UInt8}

theorem FollowsTree.ext2GetElementInode_eq (hbs : Ext2Sized fs) (h0 : 0 ∉ path) (hslash : path.head? = some slash)
    (hthrough : ThroughEntries fs (inodeRecord fs rootNumber) (components path)) (h : FollowsTree fs path) :
    ext2GetElementInode fs path = .ok (nodeAt fs (inodeRecord fs rootNumber) (components path)) := by
  obtain ⟨text, rfl⟩ := List.head?_eq_some_iff.mp hslash
  obtain ⟨hroot, hlooks⟩ := h
  rw [ext2GetElementInode_slash_cons hroot h0]
  exact ext2FindInode_eq_nodeAt hbs (fun name hn => not_mem_of_mem_components h0 hn) hthrough hlooks

theorem FollowsTree.resolves (hbs : Ext2Sized fs) (h0 : 0 ∉ path) (hslash : path.head? = some slash)
    (hthrough : ThroughEntries fs (inodeRecord fs rootNumber) (components path)) (h : FollowsTree fs path) :
    Resolves fs path :=
  ⟨_, h.ext2GetElementInode_eq hbs h0 hslash hthrough, nodeAt_iff hthrough⟩

theorem FollowsTree.initial {path' : List UInt8} (hpre : components path' <+: components path)
    (h : FollowsTree fs path) : FollowsTree fs path' := by
  obtain ⟨rest, hrest⟩ := hpre
  refine ⟨h.1, fun pre name post hsplit dir hleads => h.2 pre name (post ++ rest) ?_ dir hleads⟩
  rw [← hrest, hsplit, List.append_assoc, List.cons_append]

theorem ThroughEntries.initial {node : Nat} {names names' : List (List UInt8)} (hpre : names' <+: names)
    (h : ThroughEntries fs node names) : ThroughEntries fs node names' := by
  obtain ⟨rest, rfl⟩ := hpre
  intro pre name post hsplit dir hleads
  refine h pre name (post ++ rest) ?_ dir hleads
  rw [hsplit, List.append_assoc, List.cons_append]

theorem name_of_mem_components (h0 : 0 ∉ path) {name : List UInt8} (hn : name ∈ components path) :
    name ≠ [] ∧ slash ∉ name ∧ 0 ∉ name := by
  refine ⟨Tokens.ne_nil_of_mem_tokens hn, fun hc => ?_, not_mem_of_mem_components h0 hn⟩
  have hsep := Tokens.not_separator_of_mem_tokens hn hc
  rw [beq_self_eq_true] at hsep
  cases hsep

theorem Resolves.root (h : Resolves fs [slash]) : ext2GetRootInode fs = .ok (inodeRecord fs rootNumber) := by
  obtain ⟨result, hok, hresult, -⟩ := h
  rw [(hresult _).mpr (Leads.refl _)] at hok
  obtain ⟨root, hroot, ⟨-, he⟩ | ⟨hne, -⟩⟩ := ext2GetElementInode_some hok
  · exact he ▸ hroot
  · cases hne

theorem looksUp_of_resolves (hbs : Ext2Sized fs) {names : List (List UInt8)} {name : List UInt8} {dir : Nat}
    (hnames : ∀ n ∈ names ++ [name], n ≠ [] ∧ slash ∉ n ∧ 0 ∉ n) (hdir : Resolves fs (pathOf names))
    (hname : Resolves fs (pathOf (names ++ [name]))) (hleads : Leads fs (inodeRecord fs rootNumber) names dir) :
    LooksUp fs dir name := by
  obtain ⟨hne, hslash, h0⟩ := hnames name (List.mem_append_right _ (List.mem_singleton_self name))
  have hcomponents := components_pathOf fun n hn => ⟨(hnames n hn).1, (hnames n hn).2.1⟩
  have hcomponents' : components (pathOf names) = names :=
    components_pathOf fun n hn => ⟨(hnames n (List.mem_append_left _ hn)).1, (hnames n (List.mem_append_left _ hn)).2.1⟩
  have hpath0 := not_mem_pathOf fun n hn => (hnames n hn).2.2
  obtain ⟨result, hok, hresult, -⟩ := hdir
  rw [hcomponents'] at hresult
  rw [(hresult dir).mpr hleads] at hok
  obtain ⟨found, hfound, hfresult, -⟩ := hname
  rw [hcomponents] at hfresult
  rw [pathOf_append_singleton] at hfound hpath0
  rw [ext2GetElementInode_append_name hok hpath0 hne hslash] at hfound
  refine looksUp_of_ext2FindInode hbs h0 hfound fun last => ?_
  rw [hfresult]
  exact ⟨hleads.of_append, hleads.trans⟩

/-- A path and its prefixes are resolved exactly when every directory on the way
finds the next name where its entries have it. -/
theorem resolves_iff (hbs : Ext2Sized fs) (h0 : 0 ∉ path)
    (hthrough : ThroughEntries fs (inodeRecord fs rootNumber) (components path)) :
    (∀ path', 0 ∉ path' → path'.head? = some slash → components path' <+: components path → Resolves fs path') ↔
      FollowsTree fs path := by
  constructor
  · intro h
    have hnames : ∀ names, names <+: components path → ∀ n ∈ names, n ≠ [] ∧ slash ∉ n ∧ 0 ∉ n :=
      fun names hp n hn => name_of_mem_components h0 (hp.subset hn)
    have hresolves : ∀ names, names <+: components path → Resolves fs (pathOf names) := by
      intro names hp
      refine h _ (not_mem_pathOf fun n hn => (hnames names hp n hn).2.2) rfl ?_
      rw [components_pathOf fun n hn => ⟨(hnames names hp n hn).1, (hnames names hp n hn).2.1⟩]
      exact hp
    refine ⟨(h [slash] (by decide) rfl (List.nil_prefix)).root, fun pre name post hsplit dir hleads => ?_⟩
    have hpre : pre <+: components path := ⟨name :: post, hsplit.symm⟩
    have hnext : pre ++ [name] <+: components path := ⟨post, by rw [hsplit, List.append_assoc, List.singleton_append]⟩
    exact looksUp_of_resolves hbs (hnames _ hnext) (hresolves pre hpre) (hresolves _ hnext) hleads
  · intro h path' h0' hslash hpre
    exact (h.initial hpre).resolves hbs h0' hslash (hthrough.initial hpre)

end Paths

theorem sampleFs_holdsEntries : HoldsEntries (sampleFs []) 5248 [(2, [0x2E]), (2, [0x2E, 0x2E]), (12, [0x66])] := by
  refine ⟨by decide, sampleRecords, fun i hi _ => ?_, by decide⟩
  obtain rfl : i = 0 := by
    have : dataBlockCount (sampleFs []) 5248 = 1 := by decide
    omega
  exact sampleFs_wellFormedDirectory.slots 0 (by decide) (by decide)

theorem resolves_iff_sample :
    (∀ path', 0 ∉ path' → path'.head? = some slash → components path' <+: components [slash, slash, 0x66, slash] →
      Resolves (sampleFs []) path') ↔ FollowsTree (sampleFs []) [slash, slash, 0x66, slash] := by
  refine resolves_iff ⟨0, by decide, by decide⟩ (by decide) ?_
  intro pre name post hsplit dir hleads
  have hc : components [slash, slash, 0x66, slash] = [[0x66]] := rfl
  rw [hc] at hsplit
  cases pre with
  | nil =>
    cases hleads
    exact ⟨_, sampleFs_holdsEntries⟩
  | cons first pre =>
    have hlen := congrArg List.length hsplit
    simp at hlen

/-- The sample image with a root directory of 13 blocks, of which the first and the
last are there. The last one, block 21, is reached through the indirect block 20. -/
def deepImage : Memory := sampleImage [(3072, 0x18007F), (5252, 13312), (5276, 6), (5336, 20), (7184, 0x20203F4),
  (20480, 21), (21504, 12), (21508, 0x1010400), (21512, 0x66)]

def deepFs : Ext2 := mountedHandle deepImage 1

def deepRecords (i : Nat) : List DirectoryRecord :=
  if i = 0 then [dotRecord, ⟨2, 1012, [0x2E, 0x2E], by decide⟩] else [lastRecord]

theorem deepFs_holdsEntries : HoldsEntries deepFs 5248 [(2, [0x2E]), (2, [0x2E, 0x2E]), (12, [0x66])] := by
  refine ⟨by decide, deepRecords, fun i hi hne => ?_, by decide⟩
  have hslots : ∀ i < 13, referenceBlock deepFs 5248 i ≠ 0 → i = 0 ∨ i = 12 := by decide
  have hcount : dataBlockCount deepFs 5248 = 13 := by decide
  rcases hslots i (hcount ▸ hi) hne with rfl | rfl
  · refine ⟨by decide, ?_, by decide, by simp [deepRecords, dotRecord]; decide⟩
    exact .cons ⟨by decide, by decide, by decide, by decide⟩
      (.cons ⟨by decide, by decide, by decide, by decide⟩ (.nil _))
  · refine ⟨by decide, ?_, by decide, by simp [deepRecords]; decide⟩
    exact .cons ⟨by decide, by decide, by decide, by decide⟩ (.nil _)

/-- The entry "f" lies in block 12 of the directory, and is not found. -/
theorem not_resolves_deep :
    ext2Create deepImage = .ok deepFs ∧ ext2GetRootInode deepFs = .ok (inodeRecord deepFs rootNumber) ∧
    HoldsEntries deepFs (inodeRecord deepFs rootNumber) [(2, [0x2E]), (2, [0x2E, 0x2E]), (12, [0x66])] ∧
    Leads deepFs (inodeRecord deepFs rootNumber) [[0x66]] 6528 ∧
    ext2GetElementInode deepFs [slash, 0x66] = .ok none ∧ ¬ Resolves deepFs [slash, 0x66] := by
  have hroot : inodeRecord deepFs rootNumber = 5248 := by decide
  have hnull : ext2GetElementInode deepFs [slash, 0x66] = .ok none := rfl
  have hleads : Leads deepFs 5248 [[0x66]] 6528 := by
    have hfile : inodeRecord deepFs 12 = 6528 := by decide
    have hfirst : firstEntry [(2, [0x2E]), (2, [0x2E, 0x2E]), (12, [0x66])] [0x66] = some (12, [0x66]) := by decide
    rw [leads_cons_iff deepFs_holdsEntries hfirst, hfile]
    exact Leads.refl _
  rw [hroot]
  refine ⟨rfl, rfl, deepFs_holdsEntries, hleads, hnull, fun h => ?_⟩
  obtain ⟨result, hok, hresult, -⟩ := h
  obtain rfl := Except.ok.inj (hnull.symm.trans hok)
  rw [hroot] at hresult
  cases (hresult 6528).mpr hleads

end FuseExt2
