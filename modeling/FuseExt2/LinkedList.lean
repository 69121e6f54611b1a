import FuseExt2.Heaps

/-! The linked lists of the collections: each call as a program over the heap, and
what it does to the list it is given. -/

namespace FuseExt2

open Heaps Assertion

/-- What `malloc` returns cells for: `t_list`, `t_link_element`, and what else the
caller of the lists allocates. Pointers are addresses, with 0 for NULL. -/
inductive Object (W : Type)
  | list (head : Nat) (elementsCount : Int)
  | element (data next : Nat)
  | other (value : W)

section Calls

variable {W : Type} (allocator : Allocator (Object W))

def readList (self : Nat) : Program (Object W) (Nat × Int) := do
  match ← load self with
  | .list head elementsCount => pure (head, elementsCount)
  | _ => fail .dangling

def readElement (element : Nat) : Program (Object W) (Nat × Nat) := do
  match ← load element with
  | .element data next => pure (data, next)
  | _ => fail .dangling

def setHead (self head : Nat) : Program (Object W) Unit := do
  let (_, elementsCount) ← readList self
  store self (.list head elementsCount)

def setElementsCount (self : Nat) (elementsCount : Int) : Program (Object W) Unit := do
  let (head, _) ← readList self
  store self (.list head elementsCount)

def setData (element data : Nat) : Program (Object W) Unit := do
  let (_, next) ← readElement element
  store element (.element data next)

def setNext (element next : Nat) : Program (Object W) Unit := do
  let (data, _) ← readElement element
  store element (.element data next)

/-! The static functions. -/

def listLinkElement (previous next : Nat) : Program (Object W) Unit :=
  if previous ≠ 0 then setNext previous next else pure ()

def listCreateElement (data : Nat) : Program (Object W) Nat := malloc allocator (.element data 0)

/-- `while (cont < index)`, for the turns that are left. -/
def getElementLoop : Nat → Nat → Program (Object W) Nat
  | 0, element => pure element
  | turns + 1, element => do
    let (_, next) ← readElement element
    getElementLoop turns next

def listGetElement (self : Nat) (index : Int) : Program (Object W) Nat := do
  let (head, elementsCount) ← readList self
  if elementsCount > index ∧ index ≥ 0 then getElementLoop index.toNat head else pure 0

def findElementLoop (condition : Nat → Program (Object W) Bool) : Nat → Nat → Int → Program (Object W) (Nat × Int)
  | 0, _, _ => fail .diverges
  | turns + 1, element, position =>
    if element = 0 then pure (element, position)
    else do
      let (data, _) ← readElement element
      if ← condition data then pure (element, position)
      else
        let (_, next) ← readElement element
        findElementLoop condition turns next (position + 1)

/-- The element and its position. -/
def listFindElement (self : Nat) (condition : Nat → Program (Object W) Bool) : Program (Object W) (Nat × Int) := do
  let (head, _) ← readList self
  findElementLoop condition (← turns) head 0

/-! The calls. -/

def listCreate : Program (Object W) Nat := malloc allocator (.list 0 0)

def listAdd (self data : Nat) : Program (Object W) Int := do
  let newElement ← listCreateElement allocator data
  let (_, elementsCount) ← readList self
  if elementsCount = 0 then setHead self newElement
  else listLinkElement (← listGetElement self (elementsCount - 1)) newElement
  setElementsCount self (elementsCount + 1)
  pure (elementsCount + 1 - 1)

def listGet (self : Nat) (index : Int) : Program (Object W) Nat := do
  let elementInIndex ← listGetElement self index
  if elementInIndex ≠ 0 then
    let (data, _) ← readElement elementInIndex
    pure data
  else pure 0

def listAddInIndex (self : Nat) (index : Int) (data : Nat) : Program (Object W) Unit := do
  let (head, elementsCount) ← readList self
  if elementsCount > index ∧ index ≥ 0 then
    let newElement ← listCreateElement allocator data
    if index = 0 then
      listLinkElement newElement head
      setHead self newElement
    else
      let next ← listGetElement self index
      let previous ← listGetElement self (index - 1)
      listLinkElement previous newElement
      listLinkElement newElement next
    setElementsCount self (elementsCount + 1)

def listReplace (self : Nat) (index : Int) (data : Nat) : Program (Object W) Nat := do
  let element ← listGetElement self index
  if element ≠ 0 then
    let (oldData, _) ← readElement element
    setData element data
    pure oldData
  else pure 0

def listReplaceAndDestroyElement (self : Nat) (num : Int) (data : Nat)
    (elementDestroyer : Nat → Program (Object W) Unit) : Program (Object W) Unit := do
  let oldData ← listReplace self num data
  elementDestroyer oldData

def listFind (self : Nat) (condition : Nat → Program (Object W) Bool) : Program (Object W) Nat := do
  let (element, _) ← listFindElement self condition
  if element ≠ 0 then
    let (data, _) ← readElement element
    pure data
  else pure 0

def iterateLoop (closure : Nat → Program (Object W) Unit) : Nat → Nat → Program (Object W) Unit
  | 0, _ => fail .diverges
  | turns + 1, element =>
    if element ≠ 0 then do
      let (data, _) ← readElement element
      closure data
      let (_, next) ← readElement element
      iterateLoop closure turns next
    else pure ()

def listIterate (self : Nat) (closure : Nat → Program (Object W) Unit) : Program (Object W) Unit := do
  let (head, _) ← readList self
  iterateLoop closure (← turns) head

/-- An index outside the list gives a NULL element, which is read. -/
def listRemove (self : Nat) (index : Int) : Program (Object W) Nat := do
  let (head, _) ← readList self
  if head = 0 then pure 0
  else
    let auxElement ← listGetElement self index
    let (data, _) ← readElement auxElement
    if index = 0 then
      let (_, next) ← readElement auxElement
      setHead self next
    else
      let previous ← listGetElement self (index - 1)
      let (_, next) ← readElement auxElement
      listLinkElement previous next
    let (_, elementsCount) ← readList self
    setElementsCount self (elementsCount - 1)
    free auxElement
    pure data

def listRemoveByCondition (self : Nat) (condition : Nat → Program (Object W) Bool) : Program (Object W) Nat := do
  let (element, index) ← listFindElement self condition
  if element ≠ 0 then listRemove self index else pure 0

def listRemoveAndDestroyElement (self : Nat) (index : Int) (elementDestroyer : Nat → Program (Object W) Unit) :
    Program (Object W) Unit := do
  let data ← listRemove self index
  elementDestroyer data

def listRemoveAndDestroyByCondition (self : Nat) (condition : Nat → Program (Object W) Bool)
    (elementDestroyer : Nat → Program (Object W) Unit) : Program (Object W) Unit := do
  let data ← listRemoveByCondition self condition
  elementDestroyer data

def listSize (list : Nat) : Program (Object W) Int := do
  let (_, elementsCount) ← readList list
  pure elementsCount

def listIsEmpty (list : Nat) : Program (Object W) Bool := do
  let size ← listSize list
  pure (size == 0)

def cleanLoop (self : Nat) : Nat → Program (Object W) Unit
  | 0 => fail .diverges
  | turns + 1 => do
    let (head, _) ← readList self
    if head ≠ 0 then
      let (_, next) ← readElement head
      setHead self next
      free head
      cleanLoop self turns
    else pure ()

def listClean (self : Nat) : Program (Object W) Unit := do
  cleanLoop self (← turns)
  setElementsCount self 0

def listCleanAndDestroyElements (self : Nat) (elementDestroyer : Nat → Program (Object W) Unit) :
    Program (Object W) Unit := do
  listIterate self elementDestroyer
  listClean self

def listDestroy (self : Nat) : Program (Object W) Unit := do
  listClean self
  free self

def listDestroyAndDestroyElements (self : Nat) (elementDestroyer : Nat → Program (Object W) Unit) :
    Program (Object W) Unit := do
  listCleanAndDestroyElements self elementDestroyer
  free self

def takeLoop (self sublist : Nat) : Nat → Int → Program (Object W) Unit
  | 0, _ => pure ()
  | turns + 1, i => do
    let element ← listGet self i
    let _ ← listAdd allocator sublist element
    takeLoop self sublist turns (i + 1)

def listTake (self : Nat) (count : Int) : Program (Object W) Nat := do
  let sublist ← listCreate allocator
  takeLoop allocator self sublist count.toNat 0
  pure sublist

def takeAndRemoveLoop (self sublist : Nat) : Nat → Program (Object W) Unit
  | 0 => pure ()
  | turns + 1 => do
    let element ← listRemove self 0
    let _ ← listAdd allocator sublist element
    takeAndRemoveLoop self sublist turns

def listTakeAndRemove (self : Nat) (count : Int) : Program (Object W) Nat := do
  let sublist ← listCreate allocator
  takeAndRemoveLoop allocator self sublist count.toNat
  pure sublist

def addIfApply (condition : Nat → Program (Object W) Bool) (filtered element : Nat) : Program (Object W) Unit := do
  if ← condition element then
    let _ ← listAdd allocator filtered element

def listFilter (self : Nat) (condition : Nat → Program (Object W) Bool) : Program (Object W) Nat := do
  let filtered ← listCreate allocator
  listIterate self (addIfApply allocator condition filtered)
  pure filtered

def addAfterTransform (transformer : Nat → Program (Object W) Nat) (mapped element : Nat) :
    Program (Object W) Unit := do
  let newElement ← transformer element
  let _ ← listAdd allocator mapped newElement

def listMap (self : Nat) (transformer : Nat → Program (Object W) Nat) : Program (Object W) Nat := do
  let mapped ← listCreate allocator
  listIterate self (addAfterTransform allocator transformer mapped)
  pure mapped

end Calls

/-! The cells of a list. -/

section Lists

variable {W : Type} {allocator : Allocator (Object W)}

/-- Elements with the given data, from address `a` to a link to `b`. -/
def segment : Nat → List Nat → Nat → Assertion (Object W)
  | a, [], b => such (a = b) 1
  | a, x :: xs, b => any fun next => cell a (.element x next) * segment next xs b

def isList (p : Nat) (xs : List Nat) : Assertion (Object W) :=
  any fun head => cell p (.list head xs.length) * segment head xs 0

theorem segment_nil (a b : Nat) : segment a [] b = such (a = b) (1 : Assertion (Object W)) := rfl

theorem segment_cons (a x b : Nat) (xs : List Nat) :
    segment a (x :: xs) b = any fun next => (cell a (.element x next) * segment next xs b : Assertion (Object W)) := rfl

theorem isList_nil (p : Nat) : isList p [] = (cell p (.list 0 0) : Assertion (Object W)) := by
  apply le_antisymm
  · refine any_le fun head => ?_
    rw [segment_nil, mul_such, mul_one]
    exact such_le fun h => by rw [h]; exact le_rfl
  · refine le_any 0 ?_
    rw [segment_nil, such_of_true rfl, mul_one]
    exact le_rfl

theorem segment_singleton (a x : Nat) :
    segment a [x] 0 = (cell a (.element x 0) : Assertion (Object W)) := by
  rw [segment_cons]
  apply le_antisymm
  · refine any_le fun next => ?_
    rw [segment_nil, mul_such, mul_one]
    exact such_le fun h => by rw [h]
  · exact le_any 0 (by rw [segment_nil, such_of_true rfl, mul_one])

theorem segment_append (a b : Nat) (xs ys : List Nat) :
    (segment a (xs ++ ys) b : Assertion (Object W)) = any fun c => segment a xs c * segment c ys b := by
  induction xs generalizing a with
  | nil =>
    apply le_antisymm
    · exact le_any a (by rw [segment_nil, such_of_true rfl, one_mul]; exact le_rfl)
    · refine any_le fun c => ?_
      rw [segment_nil, such_mul, one_mul]
      exact such_le fun hc => by rw [hc]; exact le_rfl
  | cons x xs ih =>
    simp only [List.cons_append, segment_cons, ih, mul_any, any_mul, mul_assoc]
    apply le_antisymm
    · exact any_le fun next => any_le fun c => le_any c (le_any next le_rfl)
    · exact any_le fun c => any_le fun next => le_any next (le_any c le_rfl)

theorem segment_concat (a b y : Nat) (xs : List Nat) :
    (segment a (xs ++ [y]) b : Assertion (Object W)) = any fun c => segment a xs c * cell c (.element y b) := by
  rw [segment_append]
  congr 1
  funext c
  rw [segment_cons, mul_any]
  apply le_antisymm
  · refine any_le fun next => ?_
    rw [segment_nil, mul_such, mul_such, mul_one]
    exact such_le fun h => by rw [h]
  · exact le_any b (by rw [segment_nil, such_of_true rfl, mul_one])

theorem sized_segment (a b : Nat) (xs : List Nat) : Sized (segment a xs b : Assertion (Object W)) xs.length := by
  induction xs generalizing a with
  | nil => exact sized_zero _
  | cons x xs ih =>
    refine Sized.any fun next => ?_
    rw [List.length_cons, Nat.add_comm]
    exact (sized_cell a _).mul (ih next)

/-- The list around its element number `pre.length`, which is at address `r`. -/
def around (p : Nat) (pre : List Nat) (x : Nat) (post : List Nat) (head r next : Nat) : Assertion (Object W) :=
  cell p (.list head (pre ++ x :: post).length) * segment head pre r *
    (cell r (.element x next) * segment next post 0)

theorem isList_append_cons (p : Nat) (pre : List Nat) (x : Nat) (post : List Nat) :
    (isList p (pre ++ x :: post) : Assertion (Object W)) =
      any fun head => any fun r => any fun next => around p pre x post head r next := by
  simp only [isList, around, segment_append, segment_cons, mul_any, mul_assoc]

theorem around_le (p : Nat) (pre : List Nat) (x : Nat) (post : List Nat) (head r next : Nat) :
    (around p pre x post head r next : Assertion (Object W)) ≤ isList p (pre ++ x :: post) := by
  rw [isList_append_cons]
  exact le_any head (le_any r (le_any next le_rfl))

/-! The accesses to one record. -/

theorem readList_spec (p head : Nat) (n : Int) :
    Spec (cell p (.list head n)) (readList p)
      fun r => such (r = (head, n)) (cell p (.list head n) : Assertion (Object W)) := by
  refine (load_spec p _).bind fun v => Spec.such ?_
  rintro rfl
  exact Spec.ret_of_le (le_such rfl le_rfl)

theorem readElement_spec (a x next : Nat) :
    Spec (cell a (.element x next)) (readElement a)
      fun r => such (r = (x, next)) (cell a (.element x next) : Assertion (Object W)) := by
  refine (load_spec a _).bind fun v => Spec.such ?_
  rintro rfl
  exact Spec.ret_of_le (le_such rfl le_rfl)

theorem setHead_spec (p head head' : Nat) (n : Int) :
    Spec (cell p (.list head n)) (setHead p head') fun _ => (cell p (.list head' n) : Assertion (Object W)) := by
  refine (readList_spec p head n).bind fun r => Spec.such ?_
  rintro rfl
  exact store_spec p _ _

theorem setElementsCount_spec (p head : Nat) (n n' : Int) :
    Spec (cell p (.list head n)) (setElementsCount p n')
      fun _ => (cell p (.list head n') : Assertion (Object W)) := by
  refine (readList_spec p head n).bind fun r => Spec.such ?_
  rintro rfl
  exact store_spec p _ _

theorem setData_spec (a x x' next : Nat) :
    Spec (cell a (.element x next)) (setData a x') fun _ => (cell a (.element x' next) : Assertion (Object W)) := by
  refine (readElement_spec a x next).bind fun r => Spec.such ?_
  rintro rfl
  exact store_spec a _ _

theorem listLinkElement_spec (a x next next' : Nat) :
    Spec (cell a (.element x next)) (listLinkElement a next')
      fun _ => (cell a (.element x next') : Assertion (Object W)) := by
  refine Spec.pre (Spec.such fun ha => ?_) (cell_le_ne_zero a _)
  rw [listLinkElement, if_pos ha]
  refine (readElement_spec a x next).bind fun r => Spec.such ?_
  rintro rfl
  exact store_spec a _ _

/-! Finding an element. -/

theorem getElementLoop_spec (a b : Nat) (xs : List Nat) :
    Spec (segment a xs b) (getElementLoop xs.length a)
      fun r => such (r = b) (segment a xs b : Assertion (Object W)) := by
  induction xs generalizing a with
  | nil =>
    refine Spec.such fun hab => Spec.ret_of_le (le_such hab ?_)
    rw [segment_nil, such_of_true hab]
  | cons x xs ih =>
    refine Spec.any fun next => (readElement_spec a x next).call ?_
    rw [mul_comm]
    refine ((ih next).frame _).post fun r => ?_
    rw [such_mul, mul_comm, segment_cons]
    exact such_le fun hr => le_such hr (le_any next le_rfl)

theorem listGetElement_spec {p head r : Nat} {n : Int} {pre : List Nat} (hlt : (pre.length : Int) < n) :
    Spec (cell p (.list head n) * segment head pre r) (listGetElement p pre.length)
      fun a => such (a = r) (cell p (.list head n) * segment head pre r : Assertion (Object W)) := by
  refine (readList_spec p head n).call ?_
  dsimp only
  rw [if_pos ⟨hlt, Int.natCast_nonneg _⟩, Int.toNat_natCast, mul_comm]
  refine ((getElementLoop_spec head r pre).frame _).post fun a => ?_
  rw [such_mul]

theorem listGetElement_none {p : Nat} {xs : List Nat} {index : Int} (h : ¬ (xs.length > index ∧ index ≥ 0)) :
    Spec (isList p xs) (listGetElement p index) fun a => such (a = 0) (isList p xs : Assertion (Object W)) := by
  refine Spec.any fun head => (readList_spec p head _).call ?_
  dsimp only
  rw [if_neg h]
  exact Spec.ret_of_le (le_such rfl (le_any head le_rfl))

theorem exists_append_cons {xs : List Nat} {index : Int} (h : xs.length > index ∧ index ≥ 0) :
    ∃ pre x post, xs = pre ++ x :: post ∧ index = pre.length := by
  obtain ⟨i, rfl⟩ := Int.eq_ofNat_of_zero_le h.2
  have hi : i < xs.length := by omega
  refine ⟨xs.take i, xs[i], xs.drop (i + 1), ?_, ?_⟩
  · rw [List.getElem_cons_drop, List.take_append_drop]
  · rw [List.length_take, Nat.min_eq_left hi.le]

theorem length_lt_around (pre : List Nat) (x : Nat) (post : List Nat) :
    (pre.length : Int) < (pre ++ x :: post).length := by
  rw [List.length_append, List.length_cons]
  omega

theorem listGetElement_around (p : Nat) (pre : List Nat) (x : Nat) (post : List Nat) (head r next : Nat) :
    Spec (around p pre x post head r next) (listGetElement p pre.length)
      fun a => such (a = r) (around p pre x post head r next : Assertion (Object W)) := by
  refine ((listGetElement_spec (length_lt_around pre x post)).frame _).post fun a => ?_
  rw [such_mul]
  exact le_rfl

/-- The element at an index as the caller sees it, 0 outside the list. -/
def elementAt (xs : List Nat) (index : Int) : Nat := if index ≥ 0 then xs.getD index.toNat 0 else 0

theorem elementAt_length (pre : List Nat) (x : Nat) (post : List Nat) :
    elementAt (pre ++ x :: post) pre.length = x := by
  rw [elementAt, if_pos (Int.natCast_nonneg _), Int.toNat_natCast]
  simp

theorem elementAt_of_not {xs : List Nat} {index : Int} (h : ¬ (xs.length > index ∧ index ≥ 0)) :
    elementAt xs index = 0 := by
  rw [elementAt]
  split_ifs with hpos
  · exact List.getD_eq_default _ _ (by omega)
  · rfl

theorem listGet_spec (p : Nat) (xs : List Nat) (index : Int) :
    Spec (isList p xs) (listGet p index)
      fun r => such (r = elementAt xs index) (isList p xs : Assertion (Object W)) := by
  by_cases h : xs.length > index ∧ index ≥ 0
  · obtain ⟨pre, x, post, rfl, rfl⟩ := exists_append_cons h
    rw [elementAt_length]
    nth_rewrite 1 [isList_append_cons]
    refine Spec.any fun head => Spec.any fun r => Spec.any fun next => ?_
    refine (listGetElement_around p pre x post head r next).bind fun a => Spec.such ?_
    rintro rfl
    rw [around, mul_comm, mul_assoc]
    refine Spec.owned fun ha => ?_
    rw [if_pos ha]
    refine (readElement_spec a x next).call (Spec.ret_of_le (le_such rfl ?_))
    rw [← mul_assoc, mul_comm]
    exact around_le p pre x post head a next
  · refine (listGetElement_none h).bind fun a => Spec.such ?_
    rintro rfl
    rw [if_neg (not_not.mpr rfl), elementAt_of_not h]
    exact Spec.ret_of_le (le_such rfl le_rfl)

/-! Building a list. -/

theorem listCreate_spec : Spec 1 (listCreate allocator) fun p => (isList p [] : Assertion (Object W)) := by
  refine (malloc_spec allocator _).post fun p => ?_
  rw [isList_nil]

theorem listAdd_spec (p d : Nat) (xs : List Nat) :
    Spec (isList p xs) (listAdd allocator p d)
      fun r => such (r = xs.length) (isList p (xs ++ [d]) : Assertion (Object W)) := by
  refine (malloc_spec allocator _).acquire fun a => ?_
  rcases List.eq_nil_or_concat xs with rfl | ⟨pre, y, rfl⟩
  · rw [isList_nil, mul_comm]
    refine (readList_spec p 0 _).call ?_
    dsimp only
    rw [if_pos rfl]
    refine (setHead_spec p 0 a _).step fun _ => ?_
    refine (setElementsCount_spec p a _ _).step fun _ => Spec.ret_of_le (le_such rfl (le_any a ?_))
    rw [List.nil_append, segment_singleton]
    exact le_rfl
  · rw [List.concat_eq_append, isList_append_cons, mul_any]
    refine Spec.any fun head => ?_
    rw [mul_any]
    refine Spec.any fun r => ?_
    rw [mul_any]
    refine Spec.any fun next => ?_
    rw [around, segment_nil, mul_such, mul_such, mul_such]
    refine Spec.such ?_
    rintro rfl
    have hne : ((pre ++ [y]).length : Int) ≠ 0 := by
      rw [List.length_append, List.length_singleton]
      omega
    have hcount : ((pre ++ [y]).length : Int) + 1 = (pre ++ y :: [d]).length := by
      simp only [List.length_append, List.length_cons, List.length_nil]
      omega
    have hlast : ((pre ++ [y]).length : Int) - 1 = pre.length := by simp
    refine Spec.pre (P := cell p (.list head (pre ++ [y]).length) * segment head pre r *
      (cell r (.element y 0) * cell a (.element d 0))) ?_ (le_of_eq (by rw [mul_one]; ac_rfl))
    rw [mul_assoc]
    refine (readList_spec p head _).call ?_
    dsimp only
    rw [if_neg hne, hlast, ← mul_assoc]
    refine (listGetElement_spec (length_lt_around pre y [])).call ?_
    rw [mul_left_comm]
    refine (listLinkElement_spec r y 0 a).step fun _ => ?_
    refine Spec.pre (P := cell p (.list head (pre ++ [y]).length) * (segment head pre r *
      (cell r (.element y a) * cell a (.element d 0)))) ?_ (le_of_eq (by ac_rfl))
    refine (setElementsCount_spec p head _ _).step fun _ => Spec.ret_of_le (le_such (by simp) ?_)
    rw [List.append_assoc]
    refine le_trans ?_ (around_le p pre y [d] head r a)
    rw [around, segment_singleton, ← mul_assoc, hcount]

theorem listAddInIndex_first (p x d : Nat) (post : List Nat) :
    Spec (isList p (x :: post)) (listAddInIndex allocator p 0 d)
      fun _ => (isList p (d :: x :: post) : Assertion (Object W)) := by
  refine Spec.any fun head => ?_
  have hlt : ((x :: post).length : Int) > 0 ∧ (0 : Int) ≥ 0 := ⟨by rw [List.length_cons]; omega, le_rfl⟩
  refine (readList_spec p head _).call ?_
  dsimp only
  rw [if_pos hlt]
  refine (malloc_spec allocator _).acquire fun a => ?_
  rw [if_pos rfl]
  refine (listLinkElement_spec a d 0 head).step fun _ => ?_
  rw [mul_left_comm]
  refine (setHead_spec p head a _).step fun _ => ?_
  refine ((setElementsCount_spec p a _ _).frame _).post fun _ => le_any a ?_
  rw [segment_cons a d, mul_any]
  refine le_any head ?_
  rw [List.length_cons (a := d), Nat.cast_succ]

theorem listAddInIndex_later (p : Nat) (pre : List Nat) (y x d : Nat) (post : List Nat) :
    Spec (isList p ((pre ++ [y]) ++ x :: post)) (listAddInIndex allocator p (pre.length + 1) d)
      fun _ => (isList p ((pre ++ [y]) ++ d :: x :: post) : Assertion (Object W)) := by
  have hlt := length_lt_around (pre ++ [y]) x post
  have hindex : ((pre ++ [y]).length : Int) = pre.length + 1 := by simp
  have hin : ((((pre ++ [y]) ++ x :: post).length : Nat) : Int) > (pre ++ [y]).length ∧
      ((pre ++ [y]).length : Int) ≥ 0 :=
    ⟨hlt, Int.natCast_nonneg _⟩
  have hmore : ((((pre ++ [y]) ++ x :: post).length : Nat) : Int) + 1 = ((pre ++ [y]) ++ d :: x :: post).length := by
    simp only [List.length_append, List.length_cons]
    omega
  rw [isList_append_cons, ← hindex]
  refine Spec.any fun head => Spec.any fun r => Spec.any fun next => ?_
  rw [around, mul_assoc]
  generalize (((pre ++ [y]) ++ x :: post).length : Int) = count at hlt hin hmore ⊢
  refine (readList_spec p head count).call ?_
  dsimp only
  rw [if_pos hin]
  refine (malloc_spec allocator _).acquire fun a => ?_
  have hne : ((pre ++ [y]).length : Int) ≠ 0 := by omega
  have hprevious : ((pre ++ [y]).length : Int) - 1 = pre.length := by omega
  rw [if_neg hne, hprevious]
  refine Spec.pre (P := cell p (.list head count) * segment head (pre ++ [y]) r * (cell a (.element d 0) *
    segment r (x :: post) 0)) ?_ ?_
  · refine (listGetElement_spec hlt).call ?_
    rw [segment_concat, mul_any, any_mul]
    refine Spec.any fun q => ?_
    refine Spec.pre (P := cell p (.list head count) * segment head pre q * (cell q (.element y r) *
      (cell a (.element d 0) * segment r (x :: post) 0))) ?_ (le_of_eq (by ac_rfl))
    refine (listGetElement_spec (by omega)).call ?_
    rw [mul_left_comm]
    refine (listLinkElement_spec q y r a).step fun _ => ?_
    refine Spec.pre (P := cell a (.element d 0) * (cell p (.list head count) * (segment head pre q *
      cell q (.element y a) * segment r (x :: post) 0))) ?_ (le_of_eq (by ac_rfl))
    refine (listLinkElement_spec a d 0 r).step fun _ => ?_
    rw [mul_left_comm]
    refine ((setElementsCount_spec p head _ _).frame _).post fun _ => ?_
    rw [hmore, isList]
    refine le_any head ?_
    rw [segment_append, mul_any]
    refine le_any a ?_
    rw [segment_concat, any_mul, mul_any]
    refine le_any q ?_
    rw [segment_cons a d, mul_any, mul_any]
    exact le_any r (le_of_eq (by ac_rfl))
  · rw [segment_cons r x, mul_any, mul_any]
    exact le_any next (le_of_eq (by ac_rfl))

theorem insertIdx_append_length (pre post : List Nat) (d : Nat) :
    (pre ++ post).insertIdx pre.length d = pre ++ d :: post := by
  induction pre with
  | nil => rfl
  | cons y pre ih => rw [List.cons_append, List.length_cons, List.insertIdx_succ_cons, ih, List.cons_append]

theorem listAddInIndex_spec (p : Nat) (xs : List Nat) (index : Int) (d : Nat) :
    Spec (isList p xs) (listAddInIndex allocator p index d) fun _ =>
      (isList p (if xs.length > index ∧ index ≥ 0 then xs.insertIdx index.toNat d else xs) : Assertion (Object W)) := by
  by_cases h : xs.length > index ∧ index ≥ 0
  · rw [if_pos h]
    obtain ⟨pre, x, post, rfl, rfl⟩ := exists_append_cons h
    rw [Int.toNat_natCast, insertIdx_append_length]
    rcases List.eq_nil_or_concat pre with rfl | ⟨pre, y, rfl⟩
    · exact listAddInIndex_first p x d post
    · rw [List.concat_eq_append, List.length_append, List.length_singleton]
      push_cast
      exact listAddInIndex_later p pre y x d post
  · rw [if_neg h]
    refine Spec.any fun head => (readList_spec p head _).call ?_
    dsimp only
    rw [if_neg h]
    exact Spec.ret_of_le (le_any head le_rfl)

theorem listReplace_spec (p : Nat) (xs : List Nat) (index : Int) (d : Nat) :
    Spec (isList p xs) (listReplace p index d) fun r => such (r = elementAt xs index)
      (isList p (if index ≥ 0 then xs.set index.toNat d else xs) : Assertion (Object W)) := by
  by_cases h : xs.length > index ∧ index ≥ 0
  · obtain ⟨pre, x, post, rfl, rfl⟩ := exists_append_cons h
    rw [elementAt_length, if_pos h.2, Int.toNat_natCast, List.set_append_right _ _ le_rfl, Nat.sub_self,
      List.set_cons_zero]
    nth_rewrite 1 [isList_append_cons]
    refine Spec.any fun head => Spec.any fun r => Spec.any fun next => ?_
    refine (listGetElement_around p pre x post head r next).bind fun a => Spec.such ?_
    rintro rfl
    rw [around, mul_comm, mul_assoc]
    refine Spec.owned fun ha => ?_
    rw [if_pos ha]
    refine (readElement_spec a x next).call ?_
    refine (setData_spec a x d next).step fun _ => Spec.ret_of_le (le_such rfl ?_)
    rw [← mul_assoc, mul_comm]
    refine le_trans (le_of_eq ?_) (around_le p pre d post head a next)
    rw [around, List.length_append, List.length_append, List.length_cons, List.length_cons]
  · refine (listGetElement_none h).bind fun a => Spec.such ?_
    rintro rfl
    rw [if_neg (not_not.mpr rfl), elementAt_of_not h]
    refine Spec.ret_of_le (le_such rfl (le_of_eq ?_))
    split_ifs with hpos
    · rw [List.set_eq_of_length_le (by omega)]
    · rfl

/-! Iterating and searching, with functions that may change cells of the caller, `I s`. -/

section Functions

variable {S : Type} {I : S → Assertion (Object W)}

theorem iterateLoop_meets {closure : Nat → Program (Object W) Unit} {effect : Nat → StateT S (Except Stop) Unit}
    {xs : List Nat} (hclosure : Acts I closure effect xs) (s : S) (n a : Nat) (hn : xs.length < n) :
    Meets (segment a xs 0 * I s) (iterateLoop closure n a) (xs.forM effect s) fun r _ => segment a xs 0 * I r.2 := by
  induction xs generalizing s n a with
  | nil =>
    obtain ⟨n, rfl⟩ := Nat.exists_eq_add_of_lt hn
    rw [segment_nil, such_mul]
    refine Meets.such fun ha => ?_
    rw [List.length_nil, Nat.zero_add, iterateLoop, if_neg (not_not.mpr ha)]
    intro _
    exact Spec.ret_of_le (le_of_eq (by rw [such_of_true ha]))
  | cons x xs ih =>
    obtain ⟨n, rfl⟩ := Nat.exists_eq_add_of_lt hn
    rw [List.length_cons] at hn
    rw [segment_cons, any_mul]
    refine Meets.any fun next => ?_
    rw [mul_assoc]
    refine Meets.owned fun ha => ?_
    rw [iterateLoop, if_pos ha]
    refine (readElement_spec a x next).call_meets ?_
    refine Meets.pre (P := I s * (cell a (.element x next) * segment next xs 0)) ?_ (le_of_eq (by ac_rfl))
    refine ((hclosure x List.mem_cons_self s).frame _).bind fun r _ => ?_
    rw [such_mul]
    refine Meets.such fun _ => ?_
    rw [mul_left_comm]
    refine (readElement_spec a x next).call_meets ?_
    have hrest := ih (fun y hy => hclosure y (List.mem_cons_of_mem x hy)) r.2 (xs.length + 1 + n) next (by omega)
    refine Meets.pre (P := segment next xs 0 * I r.2 * cell a (.element x next)) ?_ (le_of_eq (by ac_rfl))
    refine (hrest.frame _).post fun r' _ => ?_
    rw [any_mul]
    exact le_any next (le_of_eq (by ac_rfl))

theorem listIterate_meets {closure : Nat → Program (Object W) Unit} {effect : Nat → StateT S (Except Stop) Unit}
    {xs : List Nat} (hclosure : Acts I closure effect xs) (p : Nat) (s : S) :
    Meets (isList p xs * I s) (listIterate p closure) (xs.forM effect s) fun r _ => isList p xs * I r.2 := by
  rw [isList, any_mul]
  refine Meets.any fun head => ?_
  rw [mul_assoc]
  refine (readList_spec p head _).call_meets ?_
  dsimp only
  refine (turns_spec ((sized_cell p _).mul ((sized_segment head 0 xs).mul (sized_zero (I s))))).bind_meets fun n =>
    Meets.such fun hn => ?_
  rw [mul_comm]
  refine ((iterateLoop_meets hclosure s n head (by omega)).frame _).post fun r _ => ?_
  rw [any_mul]
  exact le_any head (le_of_eq (by ac_rfl))

/-- How many elements come before the first one that the condition holds of. -/
def position (condition : Nat → StateT S (Except Stop) Bool) : List Nat → StateT S (Except Stop) Nat
  | [] => pure 0
  | x :: xs => do
    if ← condition x then pure 0
    else
      let n ← position condition xs
      pure (n + 1)

theorem findElementLoop_meets {condition : Nat → Program (Object W) Bool}
    {effect : Nat → StateT S (Except Stop) Bool} {xs : List Nat} (hcondition : Acts I condition effect xs) (s : S)
    (n a : Nat) (k : Int) (hn : xs.length < n) :
    Meets (segment a xs 0 * I s) (findElementLoop condition n a k) (position effect xs s)
      fun r v => such (v.2 = k + r.1) (segment a (xs.take r.1) v.1 * segment v.1 (xs.drop r.1) 0 * I r.2) := by
  induction xs generalizing s n a k with
  | nil =>
    obtain ⟨n, rfl⟩ := Nat.exists_eq_add_of_lt hn
    rw [segment_nil, such_mul]
    refine Meets.such fun ha => ?_
    rw [List.length_nil, Nat.zero_add, findElementLoop, if_pos ha]
    intro _
    refine Spec.ret_of_le (le_such (by simp) (le_of_eq ?_))
    rw [List.take_nil, List.drop_nil, segment_nil, segment_nil, such_of_true rfl, such_of_true ha, one_mul, one_mul]
    exact (one_mul (I s)).symm
  | cons x xs ih =>
    obtain ⟨n, rfl⟩ := Nat.exists_eq_add_of_lt hn
    rw [List.length_cons] at hn
    rw [segment_cons, any_mul]
    refine Meets.any fun next => ?_
    rw [mul_assoc]
    refine Meets.owned fun ha => ?_
    rw [findElementLoop, if_neg ha]
    refine (readElement_spec a x next).call_meets ?_
    refine Meets.pre (P := I s * (cell a (.element x next) * segment next xs 0)) ?_ (le_of_eq (by ac_rfl))
    refine ((hcondition x List.mem_cons_self s).frame _).bind fun r found => ?_
    rw [such_mul]
    refine Meets.such ?_
    rintro rfl
    obtain ⟨b, s'⟩ := r
    dsimp only
    cases b with
    | true =>
      rw [if_pos rfl, if_pos rfl]
      intro _
      refine Spec.ret_of_le (le_such (by simp) ?_)
      rw [List.take_zero, List.drop_zero, segment_nil, such_of_true rfl, one_mul, segment_cons, any_mul]
      exact le_any next (le_of_eq (by ac_rfl))
    | false =>
      rw [if_neg Bool.false_ne_true, if_neg Bool.false_ne_true, mul_left_comm]
      refine (readElement_spec a x next).call_meets ?_
      have hrest := ih (fun y hy => hcondition y (List.mem_cons_of_mem x hy)) s' (xs.length + 1 + n) next (k + 1)
        (by omega)
      refine Meets.pre (P := segment next xs 0 * I s' * cell a (.element x next)) ?_ (le_of_eq (by ac_rfl))
      refine (hrest.frame _).map (fun r => (r.1 + 1, r.2)) fun r v => ?_
      rw [such_mul]
      refine such_le fun hv => le_such (by rw [hv]; push_cast; ring) ?_
      rw [List.take_succ_cons, List.drop_succ_cons, segment_cons, any_mul, any_mul]
      exact le_any next (le_of_eq (by ac_rfl))

/-- The list opened before element number `n`, which is at address `a`. -/
def opened (p : Nat) (xs : List Nat) (n a : Nat) : Assertion (Object W) :=
  any fun head => cell p (.list head xs.length) * (segment head (xs.take n) a * segment a (xs.drop n) 0)

theorem opened_le (p : Nat) (xs : List Nat) (n a : Nat) : (opened p xs n a : Assertion (Object W)) ≤ isList p xs := by
  refine any_le fun head => le_any head (mul_le_mul_right ?_ _)
  conv_rhs => rw [← List.take_append_drop n xs, segment_append]
  exact le_any a le_rfl

theorem opened_end_le {p n a : Nat} {xs : List Nat} (hn : xs.length ≤ n) (F : Assertion (Object W)) :
    opened p xs n a * F ≤ such (a = 0) (isList p xs * F) := by
  rw [← such_mul]
  refine mul_le_mul_left (le_trans ?_ (such_le fun ha => le_such ha (opened_le p xs n a))) F
  refine any_le fun head => ?_
  rw [opened, List.drop_eq_nil_of_le hn, segment_nil, mul_such, mul_such]
  exact such_le fun ha => le_such ha (le_any head (le_of_eq (by rw [mul_such, mul_such, such_of_true ha])))

theorem opened_append_cons (p : Nat) (pre : List Nat) (x : Nat) (post : List Nat) (a : Nat) :
    (opened p (pre ++ x :: post) pre.length a : Assertion (Object W)) =
      any fun head => any fun next => around p pre x post head a next := by
  simp only [opened, around, List.take_left, List.drop_left, segment_cons, mul_any, mul_assoc]

/-- What is done with an element that may have been found. -/
theorem opened_spec {α : Type} {p n a : Nat} {xs : List Nat} {F : Assertion (Object W)} {c : Program (Object W) α}
    {d : α} {Q : α → Assertion (Object W)}
    (hsome : ∀ pre x post, xs = pre ++ x :: post → n = pre.length → Spec (opened p xs n a * F) c Q)
    (hnone : xs.length ≤ n → isList p xs * F ≤ Q d) : Spec (opened p xs n a * F) (if a ≠ 0 then c else pure d) Q := by
  by_cases hn : n < xs.length
  · have hin : (xs.length : Int) > n ∧ (n : Int) ≥ 0 := by omega
    obtain ⟨pre, x, post, rfl, hlen⟩ := exists_append_cons hin
    obtain rfl : n = pre.length := by omega
    have howns : Owns (opened p (pre ++ x :: post) pre.length a * F) a := by
      rw [opened_append_cons]
      refine Owns.mul (Owns.any fun head => Owns.any fun next => ?_) F
      rw [around, mul_comm]
      exact ((owns_cell a _).mul _).mul _
    refine Spec.ne_zero howns fun ha => ?_
    rw [if_pos ha]
    exact hsome pre x post rfl rfl
  · refine Spec.pre (Spec.such fun ha => ?_) (opened_end_le (by omega) F)
    rw [if_neg (not_not.mpr ha)]
    exact Spec.ret_of_le (hnone (by omega))

theorem readElement_opened (p : Nat) (pre : List Nat) (x : Nat) (post : List Nat) (a : Nat) :
    Spec (opened p (pre ++ x :: post) pre.length a) (readElement a)
      fun r => such (r.1 = x) (isList p (pre ++ x :: post) : Assertion (Object W)) := by
  rw [opened_append_cons]
  refine Spec.any fun head => Spec.any fun next => ?_
  rw [around, mul_comm, mul_assoc]
  refine ((readElement_spec a x next).frame _).post fun r => ?_
  rw [such_mul]
  refine such_le fun hr => le_such (by rw [hr]) (le_trans (le_of_eq ?_) (around_le p pre x post head a next))
  rw [around]
  ac_rfl

theorem listFindElement_meets {condition : Nat → Program (Object W) Bool}
    {effect : Nat → StateT S (Except Stop) Bool} {xs : List Nat} (hcondition : Acts I condition effect xs)
    (p : Nat) (s : S) :
    Meets (isList p xs * I s) (listFindElement p condition) (position effect xs s)
      fun r v => such (v.2 = r.1) (opened p xs r.1 v.1 * I r.2) := by
  rw [isList, any_mul]
  refine Meets.any fun head => ?_
  rw [mul_assoc]
  refine (readList_spec p head _).call_meets ?_
  dsimp only
  refine (turns_spec ((sized_cell p _).mul ((sized_segment head 0 xs).mul (sized_zero (I s))))).bind_meets fun n =>
    Meets.such fun hn => ?_
  rw [mul_comm]
  refine ((findElementLoop_meets hcondition s n head 0 (by omega)).frame _).post fun r v => ?_
  rw [such_mul, zero_add, opened, any_mul]
  exact such_le fun hv => le_such hv (le_any head (le_of_eq (by ac_rfl)))

/-- The element that is found, or 0. -/
def found (condition : Nat → StateT S (Except Stop) Bool) (xs : List Nat) : StateT S (Except Stop) Nat := do
  let n ← position condition xs
  pure (xs.getD n 0)

theorem listFind_meets {condition : Nat → Program (Object W) Bool}
    {effect : Nat → StateT S (Except Stop) Bool} {xs : List Nat} (hcondition : Acts I condition effect xs)
    (p : Nat) (s : S) :
    Meets (isList p xs * I s) (listFind p condition) (found effect xs s)
      fun r v => such (v = r.1) (isList p xs * I r.2) := by
  refine (listFindElement_meets hcondition p s).bind fun r v => Meets.such fun _ _ => ?_
  show Spec _ _ _
  obtain ⟨n, s'⟩ := r
  obtain ⟨a, k⟩ := v
  refine opened_spec ?_ fun hn => le_such (List.getD_eq_default xs 0 hn).symm le_rfl
  rintro pre x post rfl rfl
  refine (readElement_opened p pre x post a).step fun r => ?_
  rw [such_mul]
  refine Spec.such fun hr => Spec.ret_of_le (le_such ?_ le_rfl)
  rw [hr]
  simp

end Functions

section Tests

variable {condition : Nat → Program (Object W) Bool} {f : Nat → Bool} {J : Assertion (Object W)}

/-- The condition computes `f` of the elements and leaves what it reads, `J`, as it is. -/
def Tests (condition : Nat → Program (Object W) Bool) (f : Nat → Bool) (J : Assertion (Object W))
    (xs : List Nat) : Prop := ∀ x ∈ xs, Spec J (condition x) fun r => such (r = f x) J

theorem Tests.acts {xs : List Nat} (hcondition : Tests condition f J xs) :
    Acts (fun _ : Unit => J) condition (fun x => pure (f x)) xs := fun x hx _ _ => hcondition x hx

theorem position_pure (f : Nat → Bool) (xs : List Nat) :
    position (fun x => pure (f x)) xs = (pure (xs.findIdx f) : StateT Unit (Except Stop) Nat) := by
  induction xs with
  | nil => rfl
  | cons x xs ih =>
    rw [position, ih, List.findIdx_cons, pure_bind]
    cases f x with
    | true => rfl
    | false => rfl

theorem listFind_spec {p : Nat} {xs : List Nat} (hcondition : Tests condition f J xs) :
    Spec (isList p xs * J) (listFind p condition) fun r => such (r = (xs.find? f).getD 0) (isList p xs * J) := by
  have hmeets := listFind_meets hcondition.acts p ()
  rw [found, position_pure, pure_bind] at hmeets
  rw [List.find?_eq_getElem?_findIdx, ← List.getD_eq_getElem?_getD]
  exact hmeets rfl

end Tests

end Lists

end FuseExt2
