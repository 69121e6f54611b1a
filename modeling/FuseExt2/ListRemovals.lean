import FuseExt2.LinkedList

/-! The calls that take elements out of a list, free it, or make a new list of it. -/

namespace FuseExt2

open Heaps Assertion

section Removals

variable {W S : Type} {allocator : Allocator (Object W)} {I : S → Assertion (Object W)} {F : Assertion (Object W)}
  {destroyer : Nat → Program (Object W) Unit}

theorem Spec.segment_owned {α : Type} {c : Program (Object W) α} {Q : α → Assertion (Object W)} {a b : Nat}
    {xs : List Nat} (hne : xs ≠ []) (hc : a ≠ 0 → Spec (segment a xs b * F) c Q) : Spec (segment a xs b * F) c Q := by
  obtain ⟨x, xs, rfl⟩ := List.exists_cons_of_ne_nil hne
  rw [segment_cons, any_mul] at hc ⊢
  refine Spec.any fun next => ?_
  rw [mul_assoc]
  refine Spec.owned fun ha => (hc ha).pre (le_any next ?_)
  rw [mul_assoc]

/-- `list_link_element` or `self->head`, then the count, `free` and the result. -/
theorem unlinked_spec {p head r x next : Nat} (n : Int) (F : Assertion (Object W)) :
    Spec (cell p (.list head n) * (cell r (.element x next) * F))
      (do
        let (_, elementsCount) ← readList p
        setElementsCount p (elementsCount - 1)
        free r
        pure x)
      fun v => such (v = x) (cell p (.list head (n - 1)) * F) := by
  refine (readList_spec p head n).call ((setElementsCount_spec p head n (n - 1)).step fun _ => ?_)
  rw [mul_left_comm]
  exact (free_spec r _).release fun _ => Spec.ret_of_le (le_such rfl le_rfl)

theorem listRemove_nil (p : Nat) (index : Int) :
    Spec (isList p []) (listRemove p index) fun v => such (v = 0) (isList p [] : Assertion (Object W)) := by
  rw [isList_nil]
  refine (readList_spec p 0 _).bind fun r => Spec.such ?_
  rintro rfl
  exact Spec.ret_of_le (le_such rfl le_rfl)

theorem listRemove_first (p x : Nat) (post : List Nat) :
    Spec (isList p (x :: post)) (listRemove p 0) fun v => such (v = x) (isList p post : Assertion (Object W)) := by
  refine Spec.any fun head => ?_
  rw [mul_comm]
  refine Spec.segment_owned (List.cons_ne_nil x post) fun hhead => ?_
  rw [segment_cons, any_mul]
  refine Spec.any fun next => ?_
  have hlt : (([] : List Nat).length : Int) < (x :: post).length := by simp
  refine Spec.pre (P := cell p (.list head (x :: post).length) * (cell head (.element x next) * segment next post 0))
    ?_ (le_of_eq (by ac_rfl))
  refine (readList_spec p head _).call ?_
  dsimp only
  rw [if_neg hhead]
  refine Spec.pre (P := cell p (.list head (x :: post).length) * segment head [] head *
    (cell head (.element x next) * segment next post 0)) ?_ (le_of_eq (by rw [segment_nil, such_of_true rfl, mul_one]))
  refine (listGetElement_spec hlt).call ?_
  rw [segment_nil, such_of_true rfl, mul_one, mul_left_comm]
  refine (readElement_spec head x next).call ?_
  dsimp only
  rw [if_pos rfl]
  refine (readElement_spec head x next).call ?_
  rw [mul_left_comm]
  refine (setHead_spec p head next _).step fun _ => ?_
  refine (unlinked_spec _ _).post fun v => such_le fun hv => le_such hv (le_any next (le_of_eq ?_))
  rw [List.length_cons]
  push_cast
  ring_nf

theorem listRemove_later (p : Nat) (pre : List Nat) (y x : Nat) (post : List Nat) :
    Spec (isList p ((pre ++ [y]) ++ x :: post)) (listRemove p (pre.length + 1))
      fun v => such (v = x) (isList p ((pre ++ [y]) ++ post) : Assertion (Object W)) := by
  have hlt := length_lt_around (pre ++ [y]) x post
  have hindex : ((pre ++ [y]).length : Int) = pre.length + 1 := by simp
  rw [isList_append_cons]
  refine Spec.any fun head => Spec.any fun r => Spec.any fun next => ?_
  rw [around, mul_comm (cell p _), mul_assoc]
  refine Spec.segment_owned (List.concat_ne_nil y pre) fun hhead => ?_
  have hless : (((pre ++ [y]) ++ x :: post).length : Int) - 1 = ((pre ++ [y]) ++ post).length := by
    simp only [List.length_append, List.length_cons]
    omega
  generalize (((pre ++ [y]) ++ x :: post).length : Int) = count at hlt hless ⊢
  rw [mul_left_comm]
  refine (readList_spec p head count).call ?_
  dsimp only
  rw [if_neg hhead, ← mul_assoc, ← hindex]
  refine (listGetElement_spec hlt).call ?_
  rw [mul_left_comm]
  refine (readElement_spec r x next).call ?_
  dsimp only
  have hne : ((pre ++ [y]).length : Int) ≠ 0 := by omega
  have hprevious : ((pre ++ [y]).length : Int) - 1 = pre.length := by omega
  rw [if_neg hne, hprevious, segment_concat, mul_any, any_mul, mul_any]
  refine Spec.any fun q => ?_
  refine Spec.pre (P := cell p (.list head count) * segment head pre q *
    (cell r (.element x next) * (cell q (.element y r) * segment next post 0))) ?_ (le_of_eq (by ac_rfl))
  refine (listGetElement_spec (by omega)).call ?_
  rw [mul_left_comm]
  refine (readElement_spec r x next).call ?_
  dsimp only
  refine Spec.pre (P := cell q (.element y r) * (cell p (.list head count) * segment head pre q *
    (cell r (.element x next) * segment next post 0))) ?_ (le_of_eq (by ac_rfl))
  refine (listLinkElement_spec q y r next).step fun _ => ?_
  refine Spec.pre (P := cell p (.list head count) * (cell r (.element x next) *
    (segment head pre q * cell q (.element y next) * segment next post 0))) ?_ (le_of_eq (by ac_rfl))
  refine (unlinked_spec count _).post fun v => such_le fun hv => le_such hv ?_
  rw [hless, isList]
  refine le_any head ?_
  rw [segment_append, mul_any]
  refine le_any next ?_
  rw [segment_concat, any_mul, mul_any]
  exact le_any q le_rfl

theorem listRemove_spec (p : Nat) (pre : List Nat) (x : Nat) (post : List Nat) :
    Spec (isList p (pre ++ x :: post)) (listRemove p pre.length)
      fun v => such (v = x) (isList p (pre ++ post) : Assertion (Object W)) := by
  rcases List.eq_nil_or_concat pre with rfl | ⟨pre, y, rfl⟩
  · exact listRemove_first p x post
  · rw [List.concat_eq_append, List.length_append, List.length_singleton]
    push_cast
    exact listRemove_later p pre y x post

theorem readList_nonempty {p : Nat} {xs : List Nat} (hne : xs ≠ []) :
    Spec (isList p xs) (readList p) fun r => such (r.1 ≠ 0) (isList p xs : Assertion (Object W)) := by
  refine Spec.any fun head => ?_
  rw [mul_comm]
  refine Spec.segment_owned hne fun hhead => ?_
  rw [mul_comm]
  refine ((readList_spec p head _).frame _).post fun r => ?_
  rw [such_mul]
  exact such_le fun hr => le_such (by rw [hr]; exact hhead) (le_any head le_rfl)

/-- The element that is not there is read through NULL. -/
theorem listRemove_fails {p : Nat} {xs : List Nat} {index : Int} (hne : xs ≠ [])
    (h : ¬ (xs.length > index ∧ index ≥ 0)) : Fails (isList p xs : Assertion (Object W)) (listRemove p index) := by
  refine (readList_nonempty hne).bind_fails fun r => Fails.such fun hhead => ?_
  obtain ⟨head, elementsCount⟩ := r
  dsimp only
  rw [if_neg hhead]
  refine (listGetElement_none h).bind_fails fun a => Fails.such ?_
  rintro rfl
  exact Fails.bind (Fails.bind (load_null _))

/-- What `list_remove` returns, and the list after it. -/
def removed (xs : List Nat) (index : Int) : StateT S (Except Stop) (Nat × List Nat) :=
  if xs = [] then pure (0, [])
  else if xs.length > index ∧ index ≥ 0 then pure (elementAt xs index, xs.eraseIdx index.toNat)
  else throw .fault

theorem listRemove_meets (p : Nat) (xs : List Nat) (index : Int) (s : S) :
    Meets (isList p xs * I s) (listRemove p index) (removed xs index s)
      fun r v => such (v = r.1.1) (isList p r.1.2 * I r.2) := by
  intro _
  rw [removed]
  split_ifs with hnil hin
  · subst hnil
    refine ((listRemove_nil p index).frame (I s)).post fun v => ?_
    rw [such_mul]
  · obtain ⟨pre, x, post, rfl, rfl⟩ := exists_append_cons hin
    rw [elementAt_length, Int.toNat_natCast, List.eraseIdx_append_of_length_le le_rfl, Nat.sub_self,
      List.eraseIdx_cons_zero]
    refine ((listRemove_spec p pre x post).frame (I s)).post fun v => ?_
    rw [such_mul]
  · exact (listRemove_fails hnil hin).frame (I s)

/-- What `list_remove_by_condition` returns, and the list after it. -/
def removedFirst (condition : Nat → StateT S (Except Stop) Bool) (xs : List Nat) :
    StateT S (Except Stop) (Nat × List Nat) := do
  let n ← position condition xs
  pure (xs.getD n 0, xs.eraseIdx n)

theorem listRemoveByCondition_meets {condition : Nat → Program (Object W) Bool}
    {effect : Nat → StateT S (Except Stop) Bool} {xs : List Nat} (hcondition : Acts I condition effect xs)
    (p : Nat) (s : S) :
    Meets (isList p xs * I s) (listRemoveByCondition p condition) (removedFirst effect xs s)
      fun r v => such (v = r.1.1) (isList p r.1.2 * I r.2) := by
  refine (listFindElement_meets hcondition p s).bind fun r v => Meets.such fun hv _ => ?_
  show Spec _ _ _
  obtain ⟨n, s'⟩ := r
  obtain ⟨a, k⟩ := v
  obtain rfl : k = n := hv
  refine opened_spec ?_ fun hn => le_such (List.getD_eq_default xs 0 hn).symm (le_of_eq ?_)
  · rintro pre x post rfl rfl
    dsimp only
    rw [List.eraseIdx_append_of_length_le le_rfl, Nat.sub_self, List.eraseIdx_cons_zero]
    refine (((listRemove_spec p pre x post).frame (I s')).pre (mul_le_mul_left (opened_le _ _ _ _) _)).post fun v => ?_
    rw [such_mul]
    exact such_le fun hv => le_such (by rw [hv]; simp) le_rfl
  · dsimp only
    rw [List.eraseIdx_of_length_le hn]

/-! Sizes, and giving cells back. -/

theorem listSize_spec (p : Nat) (xs : List Nat) :
    Spec (isList p xs) (listSize p) fun r => such (r = xs.length) (isList p xs : Assertion (Object W)) := by
  refine Spec.any fun head => (readList_spec p head _).call (Spec.ret_of_le (le_such rfl ?_))
  exact le_any head le_rfl

theorem listIsEmpty_spec (p : Nat) (xs : List Nat) :
    Spec (isList p xs) (listIsEmpty p) fun r => such (r = xs.isEmpty) (isList p xs : Assertion (Object W)) := by
  refine (listSize_spec p xs).bind fun r => Spec.such ?_
  rintro rfl
  refine Spec.ret_of_le (le_such ?_ le_rfl)
  cases xs with
  | nil => rfl
  | cons x xs =>
    rw [List.isEmpty_cons, beq_eq_false_iff_ne, List.length_cons]
    omega

theorem cleanLoop_spec (p : Nat) (xs : List Nat) (head : Nat) (count : Int) (n : Nat) (hn : xs.length < n) :
    Spec (cell p (.list head count) * segment head xs 0) (cleanLoop p n)
      fun _ => (cell p (.list 0 count) : Assertion (Object W)) := by
  induction xs generalizing head n with
  | nil =>
    obtain ⟨n, rfl⟩ := Nat.exists_eq_add_of_lt hn
    rw [segment_nil, mul_such, mul_one]
    refine Spec.such ?_
    rintro rfl
    rw [List.length_nil, Nat.zero_add, cleanLoop]
    refine (readList_spec p 0 count).bind fun r => Spec.such ?_
    rintro rfl
    exact Spec.ret_of_le le_rfl
  | cons x xs ih =>
    obtain ⟨n, rfl⟩ := Nat.exists_eq_add_of_lt hn
    rw [List.length_cons] at hn
    rw [mul_comm]
    refine Spec.segment_owned (List.cons_ne_nil x xs) fun hhead => ?_
    rw [segment_cons, any_mul]
    refine Spec.any fun next => ?_
    rw [mul_comm, cleanLoop]
    refine (readList_spec p head count).call ?_
    dsimp only
    rw [if_pos hhead, mul_left_comm]
    refine (readElement_spec head x next).call ?_
    rw [mul_left_comm]
    refine (setHead_spec p head next count).step fun _ => ?_
    rw [mul_left_comm]
    exact (free_spec head _).release fun _ => ih next (xs.length + 1 + n) (by omega)

theorem listClean_spec (p : Nat) (xs : List Nat) :
    Spec (isList p xs) (listClean p) fun _ => (isList p [] : Assertion (Object W)) := by
  rw [isList_nil]
  refine Spec.any fun head => ?_
  refine (turns_spec ((sized_cell p _).mul (sized_segment head 0 xs))).bind fun n => Spec.such fun hn => ?_
  refine (cleanLoop_spec p xs head xs.length n (by omega)).bind fun _ => ?_
  exact setElementsCount_spec p 0 _ 0

theorem listDestroy_spec (p : Nat) (xs : List Nat) :
    Spec (isList p xs) (listDestroy p) fun _ => (1 : Assertion (Object W)) := by
  refine (listClean_spec p xs).bind fun _ => ?_
  rw [isList_nil]
  exact free_spec p _

/-! Giving the elements back. -/

theorem listCleanAndDestroyElements_meets {effect : Nat → StateT S (Except Stop) Unit} {xs : List Nat}
    (hdestroyer : Acts I destroyer effect xs) (p : Nat) (s : S) :
    Meets (isList p xs * I s) (listCleanAndDestroyElements p destroyer) (xs.forM effect s)
      fun r _ => isList p [] * I r.2 :=
  (listIterate_meets hdestroyer p s).after fun r _ => (listClean_spec p xs).frame (I r.2)

theorem listDestroyAndDestroyElements_meets {effect : Nat → StateT S (Except Stop) Unit} {xs : List Nat}
    (hdestroyer : Acts I destroyer effect xs) (p : Nat) (s : S) :
    Meets (isList p xs * I s) (listDestroyAndDestroyElements p destroyer) (xs.forM effect s) fun r _ => I r.2 := by
  refine (listCleanAndDestroyElements_meets hdestroyer p s).after fun r _ => ?_
  rw [isList_nil]
  exact (free_spec p _).release_last (I r.2)

/-- A destroyer of elements that the caller still has. -/
def erased (x : Nat) : StateT (List Nat) (Except Stop) Unit :=
  fun s => if x ∈ s then .ok ((), s.erase x) else .error .misuse

theorem acts_erased {D : Nat → Assertion (Object W)} {xs : List Nat}
    (hdestroyer : ∀ x ∈ xs, Spec (D x) (destroyer x) fun _ => 1) : Acts (each D) destroyer erased xs := by
  intro x hx s hnot
  rw [erased] at hnot ⊢
  split_ifs at hnot ⊢ with hs
  · rw [each_erase D hs]
    exact ((hdestroyer x hx).release_last _).post fun _ => le_such rfl le_rfl
  · cases hnot

theorem forM_erased (xs : List Nat) : xs.forM erased xs = .ok ((), []) := by
  induction xs with
  | nil => rfl
  | cons x xs ih =>
    have hfirst : erased x (x :: xs) = .ok ((), xs) := by
      rw [erased, if_pos List.mem_cons_self, List.erase_cons_head]
    show (erased x (x :: xs) >>= fun r => xs.forM erased r.2) = _
    rw [hfirst]
    exact ih

theorem listDestroyAndDestroyElements_spec {D : Nat → Assertion (Object W)} {p : Nat} {xs : List Nat}
    (hdestroyer : ∀ x ∈ xs, Spec (D x) (destroyer x) fun _ => 1) :
    Spec (isList p xs * each D xs) (listDestroyAndDestroyElements p destroyer) fun _ => 1 := by
  have hmeets := listDestroyAndDestroyElements_meets (acts_erased hdestroyer) p xs
  rw [forM_erased] at hmeets
  exact hmeets rfl

/-! New lists of the elements. -/

theorem elementAt_drop (xs : List Nat) (i n : Nat) :
    (xs.drop i).takeD (n + 1) 0 = elementAt xs i :: (xs.drop (i + 1)).takeD n 0 := by
  rw [List.takeD_succ, elementAt, if_pos (Int.natCast_nonneg _), Int.toNat_natCast, List.tail_drop,
    List.head?_drop, List.getD_eq_getElem?_getD]

theorem takeLoop_spec (p q : Nat) (xs ys : List Nat) (n i : Nat) :
    Spec (isList p xs * isList q ys) (takeLoop allocator p q n i)
      fun _ => (isList p xs * isList q (ys ++ (xs.drop i).takeD n 0) : Assertion (Object W)) := by
  induction n generalizing ys i with
  | zero =>
    refine Spec.ret_of_le (le_of_eq ?_)
    rw [List.takeD_zero, List.append_nil]
  | succ n ih =>
    rw [takeLoop]
    refine (listGet_spec p xs i).call ?_
    rw [mul_comm]
    refine (listAdd_spec q _ ys).step fun r => ?_
    rw [such_mul]
    refine Spec.such fun _ => ?_
    rw [mul_comm]
    refine (ih (ys ++ [elementAt xs i]) (i + 1)).post fun _ => ?_
    rw [elementAt_drop, List.append_assoc]
    exact le_rfl

theorem listTake_spec (p : Nat) (xs : List Nat) (count : Int) :
    Spec (isList p xs) (listTake allocator p count)
      fun q => (isList p xs * isList q (xs.takeD count.toNat 0) : Assertion (Object W)) := by
  refine listCreate_spec.acquire fun q => ?_
  rw [mul_comm]
  refine (takeLoop_spec p q xs [] count.toNat 0).bind fun _ => Spec.ret_of_le (le_of_eq ?_)
  rw [List.nil_append, List.drop_zero]

theorem takeAndRemoveLoop_spec (p q : Nat) (xs ys : List Nat) (n : Nat) :
    Spec (isList p xs * isList q ys) (takeAndRemoveLoop allocator p q n)
      fun _ => (isList p (xs.drop n) * isList q (ys ++ xs.takeD n 0) : Assertion (Object W)) := by
  induction n generalizing xs ys with
  | zero =>
    refine Spec.ret_of_le (le_of_eq ?_)
    rw [List.takeD_zero, List.append_nil, List.drop_zero]
  | succ n ih =>
    have hremove : Spec (isList p xs) (listRemove p 0)
        fun v => such (v = xs.head?.getD 0) (isList p xs.tail : Assertion (Object W)) := by
      cases xs with
      | nil => exact listRemove_nil p 0
      | cons x xs => exact listRemove_first p x xs
    rw [takeAndRemoveLoop]
    refine hremove.call ?_
    rw [mul_comm]
    refine (listAdd_spec q _ ys).step fun r => ?_
    rw [such_mul]
    refine Spec.such fun _ => ?_
    rw [mul_comm]
    refine (ih xs.tail (ys ++ [xs.head?.getD 0])).post fun _ => ?_
    rw [List.takeD_succ, List.append_assoc, List.drop_tail]
    exact le_rfl

theorem listTakeAndRemove_spec (p : Nat) (xs : List Nat) (count : Int) :
    Spec (isList p xs) (listTakeAndRemove allocator p count)
      fun q => (isList p (xs.drop count.toNat) * isList q (xs.takeD count.toNat 0) : Assertion (Object W)) := by
  refine listCreate_spec.acquire fun q => ?_
  rw [mul_comm]
  exact (takeAndRemoveLoop_spec p q xs [] count.toNat).bind fun _ => Spec.ret_of_le le_rfl

def gathering (gather : Nat → StateT S (Except Stop) (List Nat)) (x : Nat) :
    StateT (List Nat × S) (Except Stop) Unit :=
  fun t => gather x t.2 >>= fun r => .ok ((), (t.1 ++ r.1, r.2))

theorem forM_gathering (gather : Nat → StateT S (Except Stop) (List Nat)) (xs ys : List Nat) (s : S) :
    xs.forM (gathering gather) (ys, s) = xs.flatMapM gather s >>= fun r => .ok ((), (ys ++ r.1, r.2)) := by
  induction xs generalizing ys s with
  | nil =>
    show Except.ok ((), (ys, s)) = .ok ((), (ys ++ [], s))
    rw [List.append_nil]
  | cons x xs ih =>
    rw [List.flatMapM_cons]
    show (gathering gather x (ys, s) >>= fun r => xs.forM (gathering gather) r.2) =
      ((gather x s >>= fun r => xs.flatMapM gather r.2 >>= fun r' => .ok (r.1 ++ r'.1, r'.2)) >>= fun r =>
        .ok ((), (ys ++ r.1, r.2)))
    rw [gathering]
    cases gather x s with
    | error e => rfl
    | ok r =>
      show xs.forM (gathering gather) (ys ++ r.1, r.2) = _
      rw [ih]
      show _ = ((xs.flatMapM gather r.2 >>= fun r' => .ok (r.1 ++ r'.1, r'.2)) >>= fun r => .ok ((), (ys ++ r.1, r.2)))
      cases xs.flatMapM gather r.2 with
      | error e => rfl
      | ok r' =>
        show Except.ok ((), (ys ++ r.1 ++ r'.1, r'.2)) = .ok ((), (ys ++ (r.1 ++ r'.1), r'.2))
        rw [List.append_assoc]

/-- A closure that adds what `gather` gives for an element to the list `q`. -/
theorem listIterate_gathers {closure : Nat → Program (Object W) Unit}
    {gather : Nat → StateT S (Except Stop) (List Nat)} {xs : List Nat} {q : Nat}
    (hclosure : ∀ x ∈ xs, ∀ ys s, Meets (isList q ys * I s) (closure x) (gather x s)
      fun r _ => isList q (ys ++ r.1) * I r.2) (p : Nat) (s : S) :
    Meets (isList p xs * (isList q [] * I s)) (listIterate p closure >>= fun _ => pure q) (xs.flatMapM gather s)
      fun r q => isList p xs * (isList q r.1 * I r.2) := by
  have hacts : Acts (fun t : List Nat × S => isList q t.1 * I t.2) closure (gathering gather) xs := by
    intro x hx t
    exact (hclosure x hx t.1 t.2).map (fun r => ((), (t.1 ++ r.1, r.2))) fun r _ => le_such rfl le_rfl
  have hmeets := listIterate_meets hacts p ([], s)
  rw [forM_gathering] at hmeets
  exact (Meets.of_map hmeets).after fun r _ => Spec.ret_of_le le_rfl

theorem filterAuxM_eq (condition : Nat → StateT S (Except Stop) Bool) (xs acc : List Nat) :
    List.filterAuxM condition xs acc =
      (fun ys => ys.reverse ++ acc) <$> xs.flatMapM fun x => (fun b => if b then [x] else []) <$> condition x := by
  induction xs generalizing acc with
  | nil => simp [List.filterAuxM]
  | cons x xs ih =>
    rw [List.filterAuxM, List.flatMapM_cons, map_bind, bind_map_left]
    congr 1
    funext b
    rw [ih]
    cases b with
    | true => simp
    | false => simp

theorem filterM_eq_flatMapM (condition : Nat → StateT S (Except Stop) Bool) (xs : List Nat) :
    xs.filterM condition = xs.flatMapM fun x => (fun b => if b then [x] else []) <$> condition x := by
  rw [List.filterM, filterAuxM_eq]
  simp

theorem mapM_eq_flatMapM (transformer : Nat → StateT S (Except Stop) Nat) (xs : List Nat) :
    xs.mapM transformer = xs.flatMapM fun x => (fun y => [y]) <$> transformer x := by
  induction xs with
  | nil => rfl
  | cons x xs ih => simp [List.mapM_cons, List.flatMapM_cons, ih]

theorem listFilter_meets {condition : Nat → Program (Object W) Bool} {effect : Nat → StateT S (Except Stop) Bool}
    {xs : List Nat} (hcondition : Acts I condition effect xs) (p : Nat) (s : S) :
    Meets (isList p xs * I s) (listFilter allocator p condition) (xs.filterM effect s)
      fun r q => isList p xs * (isList q r.1 * I r.2) := by
  refine listCreate_spec.acquire_meets fun q => ?_
  rw [filterM_eq_flatMapM, mul_left_comm]
  refine listIterate_gathers (fun x hx ys s => ?_) p s
  rw [mul_comm]
  refine ((hcondition x hx s).frame _).bind fun r b => ?_
  rw [such_mul]
  refine Meets.such ?_
  rintro rfl
  intro _
  show Spec _ _ _
  rw [mul_comm]
  cases r.1 with
  | true =>
    dsimp only
    rw [if_pos rfl, if_pos rfl]
    refine (listAdd_spec q x ys).step fun n => ?_
    rw [such_mul]
    exact Spec.such fun _ => Spec.ret_of_le le_rfl
  | false =>
    dsimp only
    rw [if_neg Bool.false_ne_true, if_neg Bool.false_ne_true, List.append_nil]
    exact Spec.ret_of_le le_rfl

theorem listMap_meets {transformer : Nat → Program (Object W) Nat} {effect : Nat → StateT S (Except Stop) Nat}
    {xs : List Nat} (htransformer : Acts I transformer effect xs) (p : Nat) (s : S) :
    Meets (isList p xs * I s) (listMap allocator p transformer) (xs.mapM effect s)
      fun r q => isList p xs * (isList q r.1 * I r.2) := by
  refine listCreate_spec.acquire_meets fun q => ?_
  rw [mapM_eq_flatMapM, mul_left_comm]
  refine listIterate_gathers (fun x hx ys s => ?_) p s
  rw [mul_comm]
  refine ((htransformer x hx s).frame _).bind fun r y => ?_
  rw [such_mul]
  refine Meets.such ?_
  rintro rfl
  intro _
  show Spec _ _ _
  rw [mul_comm]
  refine (listAdd_spec q r.1 ys).step fun n => ?_
  rw [such_mul]
  exact Spec.such fun _ => Spec.ret_of_le le_rfl

end Removals

end FuseExt2
