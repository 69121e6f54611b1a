import FuseExt2.Tokens
import FuseExt2.Directory

/-! Path resolution: splitting a path, the recursive search through the
directories, and the walk through their listings that it computes. -/

namespace FuseExt2

open ByteStore Tokens

def slash : UInt8 := 0x2F

/-- `strtok_r`: the next token of the text and the text after it, or NULL. -/
def strtokR (text separator : List UInt8) : Option (List UInt8 × List UInt8) :=
  nextToken (fun c => separator.contains c) text

def stringSplitLoop (separator : List UInt8) :
    Nat → List UInt8 → List (List UInt8) → Except Fault (List (List UInt8))
  | 0, _, _ => .error .diverges
  | fuel + 1, text, substrings =>
    match strtokR text separator with
    | none => .ok substrings
    | some (token, next) => stringSplitLoop separator fuel next (substrings ++ [token])

/-- The substrings before the NULL that ends the array. -/
def stringSplit (text separator : List UInt8) : Except Fault (List (List UInt8)) :=
  stringSplitLoop separator (text.length + 1) text []

/-- NULL (`none`) where a name is not found. Searching the NULL list of an inode
that is no directory reads through NULL. -/
def ext2FindInode (fs : Ext2) : Nat → List (List UInt8) → Except Fault (Option Nat)
  | root, [] => .ok (some root)
  | root, name :: path =>
    match ext2ListInode fs root with
    | .error fault => .error fault
    | .ok subelements =>
      match deref subelements with
      | .error fault => .error fault
      | .ok subelements =>
        match subelements.find? (fun entry => strcmpEq name entry.name) with
        | none => .ok none
        | some inodeEntry =>
          match ext2GetInode fs inodeEntry.inodeIndex with
          | .error fault => .error fault
          | .ok inode => ext2FindInode fs inode path

/-- `path + 1` of the empty string is a pointer past its end. -/
def ext2GetElementInode (fs : Ext2) (path : List UInt8) : Except Fault (Option Nat) :=
  match ext2GetRootInode fs with
  | .error fault => .error fault
  | .ok rootInode =>
    if strcmpEq [slash] path then .ok (some rootInode)
    else match path with
      | [] => .error .outOfBounds
      | _ :: text =>
        match stringSplit text [slash] with
        | .error fault => .error fault
        | .ok pathStack => ext2FindInode fs rootInode pathStack

def ext2ListDir (fs : Ext2) (dirPath : List UInt8) : Except Fault (Option (List InodeEntry)) :=
  match ext2GetElementInode fs dirPath with
  | .error fault => .error fault
  | .ok none => .ok none
  | .ok (some inode) => ext2ListInode fs inode

/-- The components of a path: its maximal runs of characters other than '/'. -/
def components (path : List UInt8) : List (List UInt8) := tokens (fun c => c == slash) path

def FirstNamed (list : List InodeEntry) (name : List UInt8) (entry : InodeEntry) : Prop :=
  ∃ pre post, list = pre ++ entry :: post ∧ cString entry.name = name ∧ ∀ e ∈ pre, cString e.name ≠ name

/-- The way through the listings that the code makes of the directories. -/
inductive Follows (fs : Ext2) : Nat → List (List UInt8) → Nat → Prop
  | refl (node : Nat) : Follows fs node [] node
  | step {node next last : Nat} {name : List UInt8} {path : List (List UInt8)} {list : List InodeEntry}
      {entry : InodeEntry} (hlist : ext2ListInode fs node = .ok (some list)) (hfirst : FirstNamed list name entry)
      (hinode : ext2GetInode fs entry.inodeIndex = .ok next) (htail : Follows fs next path last) :
      Follows fs node (name :: path) last

def Missing (fs : Ext2) (node : Nat) (names : List (List UInt8)) : Prop :=
  ∃ pre name post, names = pre ++ name :: post ∧ ∃ dir list, Follows fs node pre dir ∧
    ext2ListInode fs dir = .ok (some list) ∧ ∀ entry ∈ list, cString entry.name ≠ name

/-- Every inode that a proper prefix of the names leads to has a listing. -/
def Listed (fs : Ext2) (node : Nat) (names : List (List UInt8)) : Prop :=
  ∀ pre name post, names = pre ++ name :: post → ∀ dir, Follows fs node pre dir →
    ∃ list, ext2ListInode fs dir = .ok (some list)

theorem stringSplitLoop_eq (separator : List UInt8) (fuel : Nat) (text : List UInt8) (substrings : List (List UInt8))
    (hfuel : text.length < fuel) :
    stringSplitLoop separator fuel text substrings =
      .ok (substrings ++ tokens (fun c => separator.contains c) text) := by
  induction fuel generalizing text substrings with
  | zero => exact absurd hfuel (Nat.not_lt_zero _)
  | succ fuel ih =>
    rw [stringSplitLoop, strtokR]
    cases hn : nextToken (fun c => separator.contains c) text with
    | none => rw [tokens_of_nextToken_none hn, List.append_nil]
    | some pair =>
      obtain ⟨token, next⟩ := pair
      obtain ⟨htokens, hlen⟩ := tokens_of_nextToken_some hn
      simp only
      rw [ih next _ (by omega), htokens, List.append_assoc, List.singleton_append]

theorem stringSplit_slash (text : List UInt8) : stringSplit text [slash] = .ok (components text) := by
  have hsep : (fun c : UInt8 => [slash].contains c) = fun c => c == slash := by
    funext c
    rw [List.contains_cons, List.contains_nil, Bool.or_false]
  rw [stringSplit, stringSplitLoop_eq _ _ _ _ (Nat.lt_succ_self _), List.nil_append, hsep]
  rfl

theorem cString_of_not_mem {t : List UInt8} (h : 0 ∉ t) : cString t = t := by
  rw [cString, List.takeWhile_eq_self_iff]
  intro c hc
  rw [bne_iff_ne]
  exact fun he => h (he ▸ hc)

theorem cString_terminated (text : List UInt8) : cString (text ++ [0]) = cString text := by
  induction text with
  | nil => rfl
  | cons c text ih =>
    simp only [cString, List.cons_append, List.takeWhile_cons] at ih ⊢
    rw [ih]

theorem strcmpEq_iff {name t : List UInt8} (h : 0 ∉ name) : strcmpEq name t = true ↔ cString t = name := by
  rw [strcmpEq, beq_iff_eq, cString_of_not_mem h, eq_comm]

section Search

variable {fs : Ext2} {node next : Nat} {name : List UInt8} {path : List (List UInt8)} {list : List InodeEntry}
  {entry : InodeEntry}

theorem firstNamed_iff_find? (h0 : 0 ∉ name) :
    FirstNamed list name entry ↔ list.find? (fun e => strcmpEq name e.name) = some entry := by
  rw [List.find?_eq_some_iff_append]
  constructor
  · intro h
    obtain ⟨pre, post, hsplit, he, hpre⟩ := h
    refine ⟨(strcmpEq_iff h0).mpr he, pre, post, hsplit, fun e hmem => ?_⟩
    rw [Bool.not_eq_true', Bool.eq_false_iff, ne_eq, strcmpEq_iff h0]
    exact hpre e hmem
  · intro h
    obtain ⟨he, pre, post, hsplit, hpre⟩ := h
    refine ⟨pre, post, hsplit, (strcmpEq_iff h0).mp he, fun e hmem => ?_⟩
    have h := hpre e hmem
    rw [Bool.not_eq_true', Bool.eq_false_iff, ne_eq, strcmpEq_iff h0] at h
    exact h

theorem follows_cons_iff (hlist : ext2ListInode fs node = .ok (some list)) (h0 : 0 ∉ name)
    (hfind : list.find? (fun e => strcmpEq name e.name) = some entry)
    (hinode : ext2GetInode fs entry.inodeIndex = .ok next) {last : Nat} :
    Follows fs node (name :: path) last ↔ Follows fs next path last := by
  constructor
  · intro h
    cases h with
    | step hlist' hfirst hinode' htail =>
      obtain rfl := Option.some.inj (Except.ok.inj (hlist.symm.trans hlist'))
      obtain rfl := Option.some.inj (hfind.symm.trans ((firstNamed_iff_find? h0).mp hfirst))
      obtain rfl := Except.ok.inj (hinode.symm.trans hinode')
      exact htail
  · intro h
    exact Follows.step hlist ((firstNamed_iff_find? h0).mpr hfind) hinode h

theorem missing_cons_iff (hlist : ext2ListInode fs node = .ok (some list)) (h0 : 0 ∉ name)
    (hfind : list.find? (fun e => strcmpEq name e.name) = some entry)
    (hinode : ext2GetInode fs entry.inodeIndex = .ok next) :
    Missing fs node (name :: path) ↔ Missing fs next path := by
  constructor
  · intro h
    obtain ⟨pre, name', post, hsplit, dir, list', hfollows, hlist', hnone⟩ := h
    cases pre with
    | nil =>
      obtain ⟨rfl, -⟩ := List.cons.inj hsplit
      cases hfollows
      obtain rfl := Option.some.inj (Except.ok.inj (hlist.symm.trans hlist'))
      obtain ⟨hnamed, hmem⟩ := And.intro (List.find?_some hfind) (List.mem_of_find?_eq_some hfind)
      exact absurd ((strcmpEq_iff h0).mp hnamed) (hnone entry hmem)
    | cons first pre =>
      obtain ⟨rfl, hrest⟩ := List.cons.inj hsplit
      exact ⟨pre, name', post, hrest, dir, list', (follows_cons_iff hlist h0 hfind hinode).mp hfollows, hlist', hnone⟩
  · intro h
    obtain ⟨pre, name', post, hsplit, dir, list', hfollows, hlist', hnone⟩ := h
    refine ⟨name :: pre, name', post, ?_, dir, list', ?_, hlist', hnone⟩
    · rw [hsplit, List.cons_append]
    · exact (follows_cons_iff hlist h0 hfind hinode).mpr hfollows

theorem Listed.tail (h : Listed fs node (name :: path)) (hlist : ext2ListInode fs node = .ok (some list))
    (hfirst : FirstNamed list name entry) (hinode : ext2GetInode fs entry.inodeIndex = .ok next) :
    Listed fs next path := by
  intro pre name' post hsplit dir hfollows
  refine h (name :: pre) name' post ?_ dir (Follows.step hlist hfirst hinode hfollows)
  rw [hsplit, List.cons_append]

theorem ext2FindInode_cons (hlist : ext2ListInode fs node = .ok (some list))
    (hfind : list.find? (fun e => strcmpEq name e.name) = some entry) (path : List (List UInt8)) :
    ext2FindInode fs node (name :: path) = ext2FindInode fs entry.inode path := by
  have hinode : ext2GetInode fs entry.inodeIndex = .ok entry.inode :=
    ext2ListInode_made hlist entry (List.mem_of_find?_eq_some hfind)
  simp only [ext2FindInode, hlist, deref_some, hfind, hinode]

theorem ext2FindInode_cons_some {last : Nat} (h : ext2FindInode fs node (name :: path) = .ok (some last)) :
    ∃ list entry, ext2ListInode fs node = .ok (some list) ∧
      list.find? (fun e => strcmpEq name e.name) = some entry ∧
      ext2FindInode fs entry.inode path = .ok (some last) := by
  have hstep := h
  rw [ext2FindInode] at h
  cases hlist : ext2ListInode fs node with
  | error fault =>
    rw [hlist] at h
    cases h
  | ok subelements =>
    rw [hlist] at h
    cases subelements with
    | none => cases h
    | some list =>
      simp only [deref_some] at h
      cases hfind : list.find? (fun e => strcmpEq name e.name) with
      | none =>
        rw [hfind] at h
        cases h
      | some entry => exact ⟨list, entry, rfl, hfind, (ext2FindInode_cons hlist hfind path).symm.trans hstep⟩

theorem ext2FindInode_resolves (h0 : ∀ name ∈ path, 0 ∉ name) (hlisted : Listed fs node path) :
    ∃ result, ext2FindInode fs node path = .ok result ∧
      (∀ last, result = some last ↔ Follows fs node path last) ∧ (result = none ↔ Missing fs node path) := by
  induction path generalizing node with
  | nil =>
    refine ⟨some node, rfl, fun last => ?_, ?_⟩
    · constructor
      · intro h
        obtain rfl := Option.some.inj h
        exact Follows.refl node
      · intro h
        cases h
        rfl
    · constructor
      · intro h
        cases h
      · intro h
        obtain ⟨pre, name, post, hsplit, -⟩ := h
        cases pre <;> cases hsplit
  | cons name path ih =>
    have hname : 0 ∉ name := h0 name List.mem_cons_self
    obtain ⟨list, hlist⟩ := hlisted [] name path rfl node (Follows.refl node)
    cases hfind : list.find? (fun entry => strcmpEq name entry.name) with
    | none =>
      have hok : ext2FindInode fs node (name :: path) = .ok none := by
        simp only [ext2FindInode, hlist, deref_some, hfind]
      have hnone : ∀ entry ∈ list, cString entry.name ≠ name := by
        intro entry he hn
        exact List.find?_eq_none.mp hfind entry he ((strcmpEq_iff hname).mpr hn)
      refine ⟨none, hok, fun last => ⟨fun h => (by cases h), fun h => ?_⟩, fun _ => ?_, fun _ => rfl⟩
      · cases h with
        | step hlist' hfirst _ _ =>
          obtain rfl := Option.some.inj (Except.ok.inj (hlist.symm.trans hlist'))
          cases hfind.symm.trans ((firstNamed_iff_find? hname).mp hfirst)
      · exact ⟨[], name, path, rfl, node, list, Follows.refl node, hlist, hnone⟩
    | some entry =>
      have hinode : ext2GetInode fs entry.inodeIndex = .ok entry.inode :=
        ext2ListInode_made hlist entry (List.mem_of_find?_eq_some hfind)
      have htail := hlisted.tail hlist ((firstNamed_iff_find? hname).mpr hfind) hinode
      obtain ⟨result, hok, hsome, hnone⟩ := ih (fun n hn => h0 n (List.mem_cons_of_mem _ hn)) htail
      refine ⟨result, (ext2FindInode_cons hlist hfind path).trans hok, fun last => ?_, ?_⟩
      · rw [hsome, follows_cons_iff hlist hname hfind hinode]
      · rw [hnone, missing_cons_iff hlist hname hfind hinode]

end Search

theorem not_mem_of_mem_components {path name : List UInt8} (h0 : 0 ∉ path) (h : name ∈ components path) : 0 ∉ name :=
  fun hc => h0 (mem_of_mem_tokens h hc)

theorem components_slash_cons (text : List UInt8) : components (slash :: text) = components text :=
  tokens_cons (p := fun c => c == slash) (beq_self_eq_true slash) text

theorem ext2GetElementInode_slash_cons {fs : Ext2} {root : Nat} (hroot : ext2GetRootInode fs = .ok root)
    {text : List UInt8} (h0 : 0 ∉ slash :: text) :
    ext2GetElementInode fs (slash :: text) = ext2FindInode fs root (components (slash :: text)) := by
  rw [ext2GetElementInode, hroot, components_slash_cons]
  cases text with
  | nil => rfl
  | cons c text =>
    have hne : strcmpEq [slash] (slash :: c :: text) = false := by
      rw [Bool.eq_false_iff, ne_eq, strcmpEq_iff (by decide), cString_of_not_mem h0]
      simp
    simp only [hne, stringSplit_slash, Bool.false_eq_true, if_false]

theorem ext2GetElementInode_some {fs : Ext2} {path : List UInt8} {node : Nat}
    (h : ext2GetElementInode fs path = .ok (some node)) :
    ∃ root, ext2GetRootInode fs = .ok root ∧ (strcmpEq [slash] path = true ∧ node = root ∨
      strcmpEq [slash] path = false ∧ ∃ c text, path = c :: text ∧
        ext2FindInode fs root (components text) = .ok (some node)) := by
  rw [ext2GetElementInode] at h
  cases hroot : ext2GetRootInode fs with
  | error fault =>
    rw [hroot] at h
    cases h
  | ok root =>
    rw [hroot] at h
    simp only at h
    refine ⟨root, rfl, ?_⟩
    cases hslash : strcmpEq [slash] path with
    | true =>
      rw [if_pos hslash] at h
      exact Or.inl ⟨rfl, (Option.some.inj (Except.ok.inj h)).symm⟩
    | false =>
      rw [hslash] at h
      cases path with
      | nil => cases h
      | cons c text =>
        simp only [stringSplit_slash, Bool.false_eq_true, if_false] at h
        exact Or.inr ⟨rfl, c, text, rfl, h⟩

end FuseExt2
