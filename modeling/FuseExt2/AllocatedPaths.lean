import FuseExt2.Allocations
import FuseExt2.Paths

/-! The search for a path with what it allocates: the array of the names, the lists of
the directories on the way, and how both are given back. -/

namespace FuseExt2

open Heaps Assertion

namespace Allocated

section Calls

variable (allocator : Allocator (Object Record))

/-- A copy with the character that ends it; also `strdup`. -/
def stringDuplicate (text : List UInt8) : Code Nat := malloc allocator (.other (.string (text ++ [0])))

/-- `realloc` of an array of `size` pointers. -/
def reallocPointers (array size : Nat) : Code Nat := do
  if array = 0 then malloc allocator (.other (.pointers (List.replicate size 0)))
  else
    let elements ← read pointers? array
    free array
    malloc allocator (.other (.pointers (elements.takeD size 0)))

def setPointer (array index element : Nat) : Code Unit := do
  let elements ← read pointers? array
  if index < elements.length then store array (.other (.pointers (elements.set index element)))
  else fail .dangling

def getPointer (array index : Nat) : Code Nat := do
  let elements ← read pointers? array
  match elements[index]? with
  | some element => pure element
  | none => fail .dangling

/-- The tokens are read from a copy, which `strtok_r` cuts into pieces. -/
def stringSplitLoop (separator : List UInt8) : Nat → List UInt8 → Nat → Nat → Code (Nat × Nat)
  | 0, _, _, _ => fail .diverges
  | fuel + 1, text, substrings, size =>
    match strtokR text separator with
    | none => pure (substrings, size)
    | some (token, next) => do
      let substrings ← reallocPointers allocator substrings (size + 1)
      let substring ← stringDuplicate allocator token
      setPointer substrings size substring
      stringSplitLoop separator fuel next substrings (size + 1)

def stringSplit (text separator : List UInt8) : Code Nat := do
  let textToIterate ← stringDuplicate allocator text
  let (substrings, size) ← stringSplitLoop allocator separator (text.length + 1) text 0 0
  let substrings ← reallocPointers allocator substrings (size + 1)
  setPointer substrings size 0
  free textToIterate
  pure substrings

/-- `_find_inode`: the name at `path[index]` against the name of an entry. -/
def findInodeCondition (path index entry : Nat) : Code Bool := do
  let name ← getPointer path index
  let name ← read string? name
  let entry ← read entry? entry
  let entryName ← read string? entry.name
  pure (strcmpEq name entryName)

/-- The names are those of the array `path` from `index` on; NULL is `none`. -/
def ext2FindInode (fs : Ext2) (path : Nat) : Nat → Nat → Nat → Code (Option Nat)
  | 0, _, _ => fail .diverges
  | fuel + 1, root, index => do
    let name ← getPointer path index
    if name = 0 then pure (some root)
    else
      let subelements ← ext2ListInode allocator fs root
      let inodeEntry ← listFind subelements (findInodeCondition path index)
      let findedInode ← (if inodeEntry ≠ 0 then do
          let entry ← read entry? inodeEntry
          let inode ← ext2GetInode allocator fs entry.inodeIndex
          ext2FindInode fs path fuel inode (index + 1)
        else pure none)
      listDestroyAndDestroyElements subelements ext2InodeEntryFree
      pure findedInode

/-- `for (; path_stack[index] != NULL; index++) free(path_stack[index]);` -/
def freePathStackLoop (pathStack : Nat) : Nat → Nat → Code Unit
  | 0, _ => fail .diverges
  | fuel + 1, index => do
    let name ← getPointer pathStack index
    if name ≠ 0 then
      free name
      freePathStackLoop pathStack fuel (index + 1)
    else pure ()

def freePathStack (pathStack : Nat) : Code Unit := do
  freePathStackLoop pathStack (← turns) 0
  free pathStack

def ext2GetElementInode (fs : Ext2) (path : List UInt8) : Code (Option Nat) := do
  let rootInode ← ext2GetRootInode allocator fs
  if strcmpEq [slash] path then pure (some rootInode)
  else match path with
    | [] => fail .outside
    | _ :: text =>
      let pathStack ← stringSplit allocator text [slash]
      let inode ← ext2FindInode allocator fs pathStack (← turns) rootInode 0
      freePathStack pathStack
      pure inode

def ext2ListDir (fs : Ext2) (dirPath : List UInt8) : Code Nat := do
  match ← ext2GetElementInode allocator fs dirPath with
  | none => pure 0
  | some inode => ext2ListInode allocator fs inode

end Calls

/-! Arrays of pointers. -/

section Specs

variable {allocator : Allocator (Object Record)} {fs : Ext2}

/-- An array that grows from NULL. -/
def isArray (p : Nat) (elements : List Nat) : Assertion (Object Record) :=
  if elements = [] then such (p = 0) 1 else cell p (.other (.pointers elements))

def isName (p : Nat) (name : List UInt8) : Assertion (Object Record) := cell p (.other (.string (name ++ [0])))

theorem takeD_length_succ (elements : List Nat) : elements.takeD (elements.length + 1) 0 = elements ++ [0] := by
  induction elements with
  | nil => rfl
  | cons x elements ih => rw [List.length_cons, List.takeD_succ, List.head?_cons, List.tail_cons, ih]; rfl

theorem reallocPointers_spec (p : Nat) (elements : List Nat) :
    Spec (isArray p elements) (reallocPointers allocator p (elements.length + 1))
      fun q => cell q (.other (.pointers (elements ++ [0]))) := by
  rw [isArray]
  split_ifs with hnil
  · subst hnil
    refine Spec.such ?_
    rintro rfl
    exact malloc_spec allocator _
  · rw [← mul_one (cell p _)]
    refine Spec.owned fun hp => ?_
    rw [reallocPointers, if_neg hp]
    refine (readPointers_spec p elements).call ((free_spec p _).step fun _ => ?_)
    rw [mul_one, takeD_length_succ]
    exact malloc_spec allocator _

theorem setPointer_spec (p : Nat) (pre : List Nat) (x element : Nat) (post : List Nat) :
    Spec (cell p (.other (.pointers (pre ++ x :: post)))) (setPointer p pre.length element)
      fun _ => cell p (.other (.pointers (pre ++ element :: post))) := by
  refine (readPointers_spec p _).bind fun r => Spec.such ?_
  rintro rfl
  rw [if_pos (by simp), List.set_append_right _ _ le_rfl, Nat.sub_self, List.set_cons_zero]
  exact store_spec p _ _

theorem getPointer_spec {p index x : Nat} {elements : List Nat} (hx : elements[index]? = some x) :
    Spec (cell p (.other (.pointers elements))) (getPointer p index)
      fun r => such (r = x) (cell p (.other (.pointers elements))) := by
  refine (readPointers_spec p _).bind fun r => Spec.such ?_
  rintro rfl
  rw [hx]
  exact Spec.ret_of_le (le_such rfl le_rfl)

theorem owns_isName (p : Nat) (name : List UInt8) : Owns (isName p name) p := owns_cell p _

theorem stringSplitLoop_computes (separator : List UInt8) (fuel : Nat) (text : List UInt8) (p : Nat)
    (substrings : List (List UInt8)) :
    Computes (recorded isName (isArray p) substrings)
      (stringSplitLoop allocator separator fuel text p substrings.length)
      (FuseExt2.stringSplitLoop separator fuel text substrings)
      fun tokens r => such (r.2 = tokens.length) (recorded isName (isArray r.1) tokens) := by
  induction fuel generalizing text p substrings with
  | zero => exact fails_fail _ .diverges
  | succ fuel ih =>
    rw [stringSplitLoop, FuseExt2.stringSplitLoop]
    cases strtokR text separator with
    | none => exact Spec.ret_of_le (le_such rfl le_rfl)
    | some found =>
      obtain ⟨token, next⟩ := found
      refine Computes.any fun xs => Computes.any fun textOf => Computes.such ?_
      rintro rfl
      dsimp only
      rw [List.length_map]
      refine (reallocPointers_spec p xs).step_computes fun q => ?_
      refine (malloc_spec allocator _).acquire_computes fun substring => ?_
      rw [mul_left_comm]
      refine (setPointer_spec q xs 0 substring []).step_computes fun _ => ?_
      have hsize : xs.length + 1 = (xs.map textOf ++ [token]).length := by simp
      rw [hsize]
      refine (ih next q (xs.map textOf ++ [token])).pre (le_trans (le_of_eq ?_)
        (recorded_append owns_isName (isArray q) xs textOf substring token))
      rw [isArray, if_neg (List.concat_ne_nil substring xs)]
      rfl

def isPathStack (p : Nat) (names : List (List UInt8)) : Assertion (Object Record) :=
  recorded isName (fun xs => cell p (.other (.pointers (xs ++ [0])))) names

theorem stringSplit_computes (text separator : List UInt8) :
    Computes 1 (stringSplit allocator text separator) (FuseExt2.stringSplit text separator)
      fun tokens p => isPathStack p tokens := by
  have hempty : (1 : Assertion (Object Record)) ≤ recorded isName (isArray 0) [] := by
    refine le_any [] (le_any (fun _ => []) (le_such rfl (le_of_eq ?_)))
    rw [isArray, if_pos rfl, such_of_true rfl, each_nil, mul_one]
  rw [stringSplit]
  refine (malloc_spec allocator _).bind_computes fun copy => ?_
  rw [← one_mul (cell copy _)]
  refine (((stringSplitLoop_computes separator _ text 0 []).pre hempty).frame _).call (fun tokens r h => ?_)
    fun fault h => h
  rw [FuseExt2.stringSplit, h, such_mul]
  refine Spec.such fun hsize => ?_
  obtain ⟨substrings, size⟩ := r
  obtain rfl : size = tokens.length := hsize
  dsimp only
  rw [recorded, any_mul]
  refine Spec.any fun xs => ?_
  rw [any_mul]
  refine Spec.any fun textOf => ?_
  rw [such_mul]
  refine Spec.such ?_
  rintro rfl
  rw [List.length_map, mul_assoc]
  refine (reallocPointers_spec substrings xs).step fun p => ?_
  refine (setPointer_spec p xs 0 0 []).step fun _ => ?_
  refine Spec.pre ?_ (le_of_eq (by rw [← mul_assoc, mul_comm]))
  exact (free_spec copy _).release fun _ => Spec.ret_of_le (le_any xs (le_any textOf (le_such rfl le_rfl)))

/-! The search. -/

def pathStack (p : Nat) (xs : List Nat) (nameOf : Nat → List UInt8) : Assertion (Object Record) :=
  cell p (.other (.pointers (xs ++ [0]))) * each (fun x => isName x (nameOf x)) xs

def entriesAt (ys : List Nat) (entryOf : Nat → InodeEntry) : Assertion (Object Record) :=
  each (fun y => isEntry y (entryOf y)) ys

theorem findInodeCondition_tests {p i x : Nat} {xs ys : List Nat} (nameOf : Nat → List UInt8)
    (entryOf : Nat → InodeEntry) (hx : xs[i]? = some x) :
    Tests (findInodeCondition p i) (fun y => strcmpEq (nameOf x) (entryOf y).name)
      (entriesAt ys entryOf * pathStack p xs nameOf) ys := by
  intro y hy
  have hmem : x ∈ xs := List.mem_of_getElem? hx
  have hget : (xs ++ [0])[i]? = some x := by
    rw [List.getElem?_append_left (List.getElem?_eq_some_iff.mp hx).1, hx]
  have hopen : (entriesAt ys entryOf * pathStack p xs nameOf) = any fun name =>
      cell p (.other (.pointers (xs ++ [0]))) * (cell x (.other (.string (nameOf x ++ [0]))) *
        (cell y (.other (.inodeEntry ⟨(entryOf y).inodeIndex, name, (entryOf y).inode⟩)) *
          (cell name (.other (.string (entryOf y).name)) *
            (each (fun y => isEntry y (entryOf y)) (ys.erase y) *
              each (fun x => isName x (nameOf x)) (xs.erase x))))) := by
    rw [entriesAt, pathStack, each_erase _ hy, each_erase _ hmem, isEntry, any_mul, any_mul]
    congr 1
    funext name
    rw [isName]
    ac_rfl
  rw [hopen]
  refine Spec.any fun name => (getPointer_spec hget).call ?_
  rw [mul_left_comm]
  refine (readString_spec x _).call ?_
  rw [mul_left_comm (cell p _), mul_left_comm (cell x _)]
  refine (readEntry_spec y _).call ?_
  rw [mul_left_comm (cell p _), mul_left_comm (cell x _), mul_left_comm (cell y _)]
  refine (readString_spec name _).call (Spec.ret_of_le (le_such ?_ (le_any name (le_of_eq (by ac_rfl)))))
  rw [strcmpEq, cString_terminated]
  rfl

theorem readEntry_entriesAt {ys : List Nat} (entryOf : Nat → InodeEntry) {y : Nat} (hy : y ∈ ys) :
    Spec (entriesAt ys entryOf) (read entry? y)
      fun r => such (r.inodeIndex = (entryOf y).inodeIndex) (entriesAt ys entryOf) := by
  rw [entriesAt, each_erase _ hy, isEntry, any_mul]
  refine Spec.any fun name => ?_
  rw [mul_assoc]
  refine ((readEntry_spec y _).frame _).post fun r => ?_
  rw [such_mul]
  exact such_le fun hr => le_such (by rw [hr]) (le_any name (le_of_eq (mul_assoc _ _ _).symm))

theorem subelementsFree_spec (p : Nat) (ys : List Nat) (entryOf : Nat → InodeEntry) :
    Spec (isList p ys * entriesAt ys entryOf) (listDestroyAndDestroyElements p ext2InodeEntryFree) fun _ => 1 :=
  listDestroyAndDestroyElements_spec fun y _ => ext2InodeEntryFree_spec y (entryOf y)

theorem listFind_null (condition : Nat → Code Bool) (P : Assertion (Object Record)) :
    Fails P (listFind 0 condition) := Fails.bind (Fails.bind (Fails.bind (load_null P)))

theorem ext2FindInode_computes {p : Nat} (xs : List Nat) (nameOf : Nat → List UInt8) (n root i : Nat)
    (hi : i ≤ xs.length) (hn : xs.length < n + i) :
    Computes (pathStack p xs nameOf) (ext2FindInode allocator fs p n root i)
      (FuseExt2.ext2FindInode fs root ((xs.drop i).map nameOf))
      fun inode r => such (r = inode) (pathStack p xs nameOf) := by
  induction n generalizing root i with
  | zero => omega
  | succ n ih =>
    rw [ext2FindInode]
    rcases Nat.eq_or_lt_of_le hi with rfl | hlt
    · have hend : (xs ++ [0])[xs.length]? = some 0 := by simp
      refine (getPointer_spec hend).call_computes ?_
      rw [if_pos rfl, List.drop_length]
      exact Spec.ret_of_le (le_such rfl le_rfl)
    · have hx : xs[i]? = some xs[i] := List.getElem?_eq_getElem hlt
      have hget : (xs ++ [0])[i]? = some xs[i] := by rw [List.getElem?_append_left hlt, hx]
      rw [List.drop_eq_getElem_cons hlt, List.map_cons]
      generalize xs[i] = x at hx hget ⊢
      have hmem : x ∈ xs := List.mem_of_getElem? hx
      refine (getPointer_spec hget).call_computes ?_
      refine Computes.ne_zero (a := x) ?_ fun hne => ?_
      · rw [mul_comm]
        exact (owns_each (fun x => owns_isName x (nameOf x)) hmem).mul _
      · rw [if_neg hne]
        refine Computes.pre (P := 1 * pathStack p xs nameOf) ?_ (le_of_eq (one_mul _).symm)
        refine ((ext2ListInode_computes root).frame _).call (fun listing q hlisting => ?_) fun fault hlisting => ?_
        · rw [FuseExt2.ext2FindInode, hlisting]
          cases listing with
          | none =>
            rw [isListing, such_mul]
            refine Computes.such ?_
            rintro rfl
            exact Fails.bind (listFind_null _ _)
          | some entries =>
            rw [isListing, isEntries, recorded, any_mul]
            refine Computes.any fun ys => ?_
            rw [any_mul]
            refine Computes.any fun entryOf => ?_
            rw [such_mul]
            refine Computes.such ?_
            rintro rfl
            simp only [deref_some, List.find?_map, Function.comp_def]
            rw [mul_assoc]
            refine (listFind_spec (findInodeCondition_tests nameOf entryOf hx)).bind_computes fun r =>
              Computes.such ?_
            rintro rfl
            have hfree : Spec (isList q ys * (entriesAt ys entryOf * pathStack p xs nameOf))
                (listDestroyAndDestroyElements q ext2InodeEntryFree) fun _ => pathStack p xs nameOf := by
              rw [← mul_assoc]
              exact (subelementsFree_spec q ys entryOf).release_last _
            refine Computes.cleanup ?_ hfree
            cases hfind : ys.find? fun y => strcmpEq (nameOf x) (entryOf y).name with
            | none => exact Spec.ret_of_le (le_such rfl le_rfl)
            | some y =>
              have hy : y ∈ ys := List.mem_of_find?_eq_some hfind
              refine Computes.ne_zero (a := y) ?_ fun hne => ?_
              · rw [mul_comm, mul_assoc]
                exact (owns_each (fun y => owns_isEntry y (entryOf y)) hy).mul _
              · rw [Option.getD_some, if_pos hne, Option.map_some, mul_left_comm]
                refine (readEntry_entriesAt entryOf hy).step_computes fun entry => ?_
                rw [such_mul]
                refine Computes.such fun hindex => ?_
                rw [hindex]
                refine Computes.pre (P := 1 * (isList q ys * (entriesAt ys entryOf * pathStack p xs nameOf))) ?_
                  (le_of_eq (by rw [one_mul, mul_left_comm]))
                refine ((ext2GetInode_computes _).frame _).call (fun inode r hinode => ?_) fun fault hinode => ?_
                · rw [such_mul, one_mul]
                  refine Computes.such ?_
                  rintro rfl
                  dsimp only
                  rw [hinode]
                  refine Computes.pre (P := pathStack p xs nameOf * (isList q ys * entriesAt ys entryOf)) ?_
                    (le_of_eq (by ac_rfl))
                  refine ((ih r (i + 1) hlt (by omega)).frame _).post fun found r' => ?_
                  rw [such_mul]
                  exact such_le fun hr => le_such hr (le_of_eq (by ac_rfl))
                · dsimp only
                  rw [hinode]
        · rw [FuseExt2.ext2FindInode, hlisting]

theorem freePathStackLoop_spec {p : Nat} (xs : List Nat) (nameOf : Nat → List UInt8) (n i : Nat) (hi : i ≤ xs.length)
    (hn : xs.length < n + i) :
    Spec (cell p (.other (.pointers (xs ++ [0]))) * each (fun x => isName x (nameOf x)) (xs.drop i))
      (freePathStackLoop p n i) fun _ => cell p (.other (.pointers (xs ++ [0]))) := by
  induction n generalizing i with
  | zero => omega
  | succ n ih =>
    rw [freePathStackLoop]
    rcases Nat.eq_or_lt_of_le hi with rfl | hlt
    · have hend : (xs ++ [0])[xs.length]? = some 0 := by simp
      refine (getPointer_spec hend).call ?_
      rw [List.drop_length, each_nil, mul_one]
      exact Spec.ret_of_le le_rfl
    · have hget : (xs ++ [0])[i]? = some xs[i] := by
        rw [List.getElem?_append_left hlt, List.getElem?_eq_getElem hlt]
      refine (getPointer_spec hget).call ?_
      rw [List.drop_eq_getElem_cons hlt, each_cons, mul_left_comm]
      refine Spec.owned fun hne => ?_
      rw [if_pos hne]
      exact (free_spec _ _).release fun _ => ih (i + 1) hlt (by omega)

theorem sized_pathStack (p : Nat) (xs : List Nat) (nameOf : Nat → List UInt8) :
    Sized (pathStack p xs nameOf) (1 + xs.length) :=
  (sized_cell p _).mul (sized_each (fun x => sized_cell x _) xs)

theorem freePathStack_spec (p : Nat) (xs : List Nat) (nameOf : Nat → List UInt8) :
    Spec (pathStack p xs nameOf) (freePathStack p) fun _ => 1 := by
  refine (turns_spec (sized_pathStack p xs nameOf)).bind fun n => Spec.such fun hn => ?_
  exact (freePathStackLoop_spec xs nameOf n 0 (Nat.zero_le _) (by omega)).bind fun _ => free_spec p _

theorem ext2GetElementInode_computes (path : List UInt8) :
    Computes 1 (ext2GetElementInode allocator fs path) (FuseExt2.ext2GetElementInode fs path)
      fun inode r => such (r = inode) 1 := by
  rw [ext2GetElementInode, FuseExt2.ext2GetElementInode]
  refine ext2GetRootInode_computes.call (fun root r hroot => Computes.such ?_) fun fault hroot => ?_
  · rintro rfl
    rw [hroot]
    dsimp only
    split_ifs with hslash
    · exact Spec.ret_of_le (le_such rfl le_rfl)
    · cases path with
      | nil => exact fails_fail 1 .outside
      | cons c text =>
        dsimp only
        refine (stringSplit_computes text [slash]).call (fun tokens p htokens => ?_) fun fault htokens => ?_
        · rw [htokens]
          refine Computes.any fun xs => Computes.any fun nameOf => Computes.such ?_
          rintro rfl
          refine (turns_spec (sized_pathStack p xs nameOf)).bind_computes fun n => Computes.such fun hn => ?_
          exact (ext2FindInode_computes xs nameOf n r 0 (Nat.zero_le _) (by omega)).cleanup
            (freePathStack_spec p xs nameOf)
        · rw [htokens]
  · rw [hroot]

theorem ext2ListDir_computes (dirPath : List UInt8) :
    Computes 1 (ext2ListDir allocator fs dirPath) (FuseExt2.ext2ListDir fs dirPath)
      fun listing p => isListing p listing := by
  rw [ext2ListDir, FuseExt2.ext2ListDir]
  refine (ext2GetElementInode_computes dirPath).call (fun inode r hinode => Computes.such ?_) fun fault hinode => ?_
  · rintro rfl
    rw [hinode]
    cases r with
    | none => exact Spec.ret_of_le (le_such rfl le_rfl)
    | some inode => exact ext2ListInode_computes inode
  · rw [hinode]

/-- The listing of a path in any heap: NULL, or a list with the entries in cells of their
own; when the caller frees it, the heap is as it was. -/
theorem ext2ListDir_hands_over (allocator : Allocator (Object Record)) (fs : Ext2) (dirPath : List UInt8)
    (h : Heap (Object Record)) :
    (∀ listing, FuseExt2.ext2ListDir fs dirPath = .ok listing →
      ∃ p h', ext2ListDir allocator fs dirPath h = .ok (p, h') ∧
        (isListing p listing * exactly h.cells).holds h'.cells ∧
        (listing.isSome → ∃ h'', listDestroyAndDestroyElements p ext2InodeEntryFree h' = .ok ((), h'') ∧
          h''.cells = h.cells)) ∧
      ∀ fault, FuseExt2.ext2ListDir fs dirPath = .error fault →
        ∃ fault', ext2ListDir allocator fs dirPath h = .error fault' := by
  have hc : Computes 1 (ext2ListDir allocator fs dirPath) _ _ := ext2ListDir_computes dirPath
  obtain ⟨hok, hfault⟩ := hc.run h
  refine ⟨fun listing hlisting => ?_, hfault⟩
  obtain ⟨p, h', hrun, hend⟩ := hok listing hlisting
  refine ⟨p, h', hrun, hend, fun hsome => ?_⟩
  cases listing with
  | none => cases hsome
  | some entries =>
    have hfree : Spec (isEntries p entries) (listDestroyAndDestroyElements p ext2InodeEntryFree) fun _ => 1 := by
      refine Spec.any fun ys => Spec.any fun entryOf => Spec.such ?_
      rintro rfl
      exact subelementsFree_spec p ys entryOf
    obtain ⟨⟨⟩, h'', hrun', hcells⟩ := hfree (exactly h.cells) h' hend
    rw [one_mul] at hcells
    exact ⟨h'', hrun', hcells⟩

theorem ext2ListDir_hands_over_sample : ∃ listing p h' h'',
    FuseExt2.ext2ListDir (sampleFs []) [slash] = .ok (some listing) ∧
    ext2ListDir (bump (Object Record)) (sampleFs []) [slash] (Heap.empty _) = .ok (p, h') ∧
    listDestroyAndDestroyElements p ext2InodeEntryFree h' = .ok ((), h'') ∧ h''.cells = fun _ => none := by
  obtain ⟨listing, hlisting⟩ : ∃ listing, FuseExt2.ext2ListDir (sampleFs []) [slash] = .ok (some listing) := ⟨_, rfl⟩
  obtain ⟨p, h', hrun, -, hfree⟩ := (ext2ListDir_hands_over (bump (Object Record)) (sampleFs []) [slash]
    (Heap.empty _)).1 _ hlisting
  obtain ⟨h'', hrun', hcells⟩ := hfree rfl
  exact ⟨listing, p, h', h'', hlisting, hrun, hrun', hcells⟩

end Specs

end Allocated

end FuseExt2
