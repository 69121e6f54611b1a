import FuseExt2.Handles
import FuseExt2.ListRemovals

/-! Any sequence of list calls over any number of lists, against the same calls on
lists of pointers: the answers agree, the caller's functions do what they do, the other
cells stay as they are, and what a caller destroys is given back. -/

namespace FuseExt2

open Heaps Assertion

/-- The calls on one list. The functions that a caller passes act on its own cells, `I s`. -/
inductive ListCall {W S : Type} (I : S → Assertion (Object W))
  | add (data : Nat)
  | get (index : Int)
  | addInIndex (index : Int) (data : Nat)
  | replace (index : Int) (data : Nat)
  | replaceAndDestroyElement (num : Int) (data : Nat) (elementDestroyer : Callback I Unit)
  | find (condition : Callback I Bool)
  | iterate (closure : Callback I Unit)
  | remove (index : Int)
  | removeByCondition (condition : Callback I Bool)
  | removeAndDestroyElement (index : Int) (elementDestroyer : Callback I Unit)
  | removeAndDestroyByCondition (condition : Callback I Bool) (elementDestroyer : Callback I Unit)
  | size
  | isEmpty
  | clean
  | cleanAndDestroyElements (elementDestroyer : Callback I Unit)
  | destroy
  | destroyAndDestroyElements (elementDestroyer : Callback I Unit)
  | take (count : Int)
  | takeAndRemove (count : Int)
  | filter (condition : Callback I Bool)
  | map (transformer : Callback I Nat)

inductive Answer
  | nothing
  | pointer (data : Nat)
  | number (n : Int)
  | truth (b : Bool)
  deriving DecidableEq

/-- The answer and the handle of the list that a call makes, if it makes one. -/
def ListCall.run {W S : Type} {I : S → Assertion (Object W)} (allocator : Allocator (Object W)) (p : Nat) :
    ListCall I → Program (Object W) (Answer × Option Nat)
  | .add data => do
    let index ← listAdd allocator p data
    pure (.number index, none)
  | .get index => do
    let data ← listGet p index
    pure (.pointer data, none)
  | .addInIndex index data => do
    listAddInIndex allocator p index data
    pure (.nothing, none)
  | .replace index data => do
    let oldData ← listReplace p index data
    pure (.pointer oldData, none)
  | .replaceAndDestroyElement num data elementDestroyer => do
    listReplaceAndDestroyElement p num data elementDestroyer.run
    pure (.nothing, none)
  | .find condition => do
    let data ← listFind p condition.run
    pure (.pointer data, none)
  | .iterate closure => do
    listIterate p closure.run
    pure (.nothing, none)
  | .remove index => do
    let data ← listRemove p index
    pure (.pointer data, none)
  | .removeByCondition condition => do
    let data ← listRemoveByCondition p condition.run
    pure (.pointer data, none)
  | .removeAndDestroyElement index elementDestroyer => do
    listRemoveAndDestroyElement p index elementDestroyer.run
    pure (.nothing, none)
  | .removeAndDestroyByCondition condition elementDestroyer => do
    listRemoveAndDestroyByCondition p condition.run elementDestroyer.run
    pure (.nothing, none)
  | .size => do
    let n ← listSize p
    pure (.number n, none)
  | .isEmpty => do
    let b ← listIsEmpty p
    pure (.truth b, none)
  | .clean => do
    listClean p
    pure (.nothing, none)
  | .cleanAndDestroyElements elementDestroyer => do
    listCleanAndDestroyElements p elementDestroyer.run
    pure (.nothing, none)
  | .destroy => do
    listDestroy p
    pure (.nothing, none)
  | .destroyAndDestroyElements elementDestroyer => do
    listDestroyAndDestroyElements p elementDestroyer.run
    pure (.nothing, none)
  | .take count => do
    let sublist ← listTake allocator p count
    pure (.nothing, some sublist)
  | .takeAndRemove count => do
    let sublist ← listTakeAndRemove allocator p count
    pure (.nothing, some sublist)
  | .filter condition => do
    let filtered ← listFilter allocator p condition.run
    pure (.nothing, some filtered)
  | .map transformer => do
    let mapped ← listMap allocator p transformer.run
    pure (.nothing, some mapped)

/-- The answer, what the list becomes, and the new list. A destroyed list is `none`. -/
abbrev Outcome := Answer × Option (List Nat) × Option (List Nat)

/-- What the call is for. The faults are those of the caller's functions, and of taking an
element out of a nonempty list where there is none. -/
def ListCall.outcome {W S : Type} {I : S → Assertion (Object W)} (xs : List Nat) :
    ListCall I → StateT S (Except Stop) Outcome
  | .add data => pure (.number xs.length, some (xs ++ [data]), none)
  | .get index => pure (.pointer (elementAt xs index), some xs, none)
  | .addInIndex index data =>
    pure (.nothing, some (if xs.length > index ∧ index ≥ 0 then xs.insertIdx index.toNat data else xs), none)
  | .replace index data =>
    pure (.pointer (elementAt xs index), some (if index ≥ 0 then xs.set index.toNat data else xs), none)
  | .replaceAndDestroyElement num data elementDestroyer => do
    elementDestroyer.effect (elementAt xs num)
    pure (.nothing, some (if num ≥ 0 then xs.set num.toNat data else xs), none)
  | .find condition => do
    let data ← found condition.effect xs
    pure (.pointer data, some xs, none)
  | .iterate closure => do
    xs.forM closure.effect
    pure (.nothing, some xs, none)
  | .remove index => do
    let (data, ys) ← removed xs index
    pure (.pointer data, some ys, none)
  | .removeByCondition condition => do
    let (data, ys) ← removedFirst condition.effect xs
    pure (.pointer data, some ys, none)
  | .removeAndDestroyElement index elementDestroyer => do
    let (data, ys) ← removed xs index
    elementDestroyer.effect data
    pure (.nothing, some ys, none)
  | .removeAndDestroyByCondition condition elementDestroyer => do
    let (data, ys) ← removedFirst condition.effect xs
    elementDestroyer.effect data
    pure (.nothing, some ys, none)
  | .size => pure (.number xs.length, some xs, none)
  | .isEmpty => pure (.truth xs.isEmpty, some xs, none)
  | .clean => pure (.nothing, some [], none)
  | .cleanAndDestroyElements elementDestroyer => do
    xs.forM elementDestroyer.effect
    pure (.nothing, some [], none)
  | .destroy => pure (.nothing, none, none)
  | .destroyAndDestroyElements elementDestroyer => do
    xs.forM elementDestroyer.effect
    pure (.nothing, none, none)
  | .take count => pure (.nothing, some xs, some (xs.takeD count.toNat 0))
  | .takeAndRemove count => pure (.nothing, some (xs.drop count.toNat), some (xs.takeD count.toNat 0))
  | .filter condition => do
    let ys ← xs.filterM condition.effect
    pure (.nothing, some xs, some ys)
  | .map transformer => do
    let ys ← xs.mapM transformer.effect
    pure (.nothing, some xs, some ys)

section Outcomes

variable {W S : Type} {allocator : Allocator (Object W)} {I : S → Assertion (Object W)}

def slots : Option Nat → Option (List Nat) → Assertion (Object W)
  | some p, some xs => isList p xs
  | none, none => 1
  | _, _ => such False 1

def Reached (p : Nat) (outcome : Outcome) (result : Answer × Option Nat) : Assertion (Object W) :=
  such (result.1 = outcome.1) (slot isList p outcome.2.1 * slots result.2 outcome.2.2)

/-- A call that makes no list. -/
theorem Meets.reached {α γ : Type} {p : Nat} {P : Assertion (Object W)} {c : Program (Object W) α}
    {x : Except Stop (γ × S)} (value : γ → α) (kept : γ → Option (List Nat)) (hc : Meets P c x fun r v =>
      such (v = value r.1) (slot isList p (kept r.1) * I r.2)) (f : α → Answer) :
    Meets P (c >>= fun v => pure (f v, none)) (x >>= fun r => .ok ((f (value r.1), kept r.1, none), r.2))
      fun r result => Reached p r.1 result * I r.2 := by
  refine Meets.bind hc fun r v => Meets.such ?_
  rintro rfl _
  refine Spec.ret_of_le ?_
  show _ ≤ such _ (slot isList p (kept r.1) * 1) * I r.2
  rw [such_of_true rfl, mul_one]

theorem Meets.reached_made {γ : Type} {p : Nat} {P : Assertion (Object W)} {c : Program (Object W) Nat}
    {x : Except Stop (γ × S)} (kept made : γ → List Nat) (hc : Meets P c x fun r q =>
      isList p (kept r.1) * (isList q (made r.1) * I r.2)) :
    Meets P (c >>= fun q => pure (.nothing, some q))
      (x >>= fun r => .ok ((.nothing, some (kept r.1), some (made r.1)), r.2))
      fun r result => Reached p r.1 result * I r.2 := by
  refine Meets.bind hc fun r q _ => ?_
  refine Spec.ret_of_le ?_
  show _ ≤ such _ (isList p (kept r.1) * isList q (made r.1)) * I r.2
  rw [such_of_true rfl, mul_assoc]

/-- A call without the caller's functions. -/
theorem Spec.reached {α : Type} {p : Nat} {xs : List Nat} {kept : Option (List Nat)} {c : Program (Object W) α} {v : α}
    (hc : Spec (isList p xs) c fun r => such (r = v) (slot isList p kept)) (f : α → Answer) (s : S) :
    Meets (isList p xs * I s) (c >>= fun r => pure (f r, none)) (.ok ((f v, kept, none), s))
      fun r result => Reached p r.1 result * I r.2 := by
  have hmeets : Meets (isList p xs * I s) c (.ok ((), s)) fun r a => such (a = v) (slot isList p kept * I r.2) := by
    intro _
    refine (hc.frame (I s)).post fun a => ?_
    rw [such_mul]
  exact Meets.reached (fun _ => v) (fun _ => kept) hmeets f

theorem Spec.reached_made {p : Nat} {xs ys made : List Nat} {c : Program (Object W) Nat}
    (hc : Spec (isList p xs) c fun q => isList p ys * isList q made) (s : S) :
    Meets (isList p xs * I s) (c >>= fun q => pure (.nothing, some q)) (.ok ((.nothing, some ys, some made), s))
      fun r result => Reached p r.1 result * I r.2 := by
  have hmeets : Meets (isList p xs * I s) c (.ok ((), s)) fun r q => isList p ys * (isList q made * I r.2) := by
    intro _
    refine (hc.frame (I s)).post fun q => ?_
    rw [mul_assoc]
  exact Meets.reached_made (fun _ => ys) (fun _ => made) hmeets

/-- A destroyer is called with what was taken out of the list. -/
theorem destroyer_meets (elementDestroyer : Callback I Unit) (p data : Nat) (ys : List Nat) (s : S) :
    Meets (isList p ys * I s) (elementDestroyer.run data >>= fun _ => pure (.nothing, none))
      (elementDestroyer.effect data s >>= fun r => .ok ((.nothing, some ys, none), r.2))
      fun r result => Reached p r.1 result * I r.2 := by
  have h := (elementDestroyer.meets data s).frame (isList p ys)
  rw [mul_comm] at h
  refine Meets.reached (fun _ => ()) (fun _ => some ys) (h.post fun r _ => ?_) fun _ => .nothing
  rw [such_mul, mul_comm]
  exact le_rfl

theorem ListCall.run_meets (p : Nat) (xs : List Nat) (call : ListCall I) (s : S) :
    Meets (isList p xs * I s) (call.run allocator p) (call.outcome xs s)
      fun r result => Reached p r.1 result * I r.2 := by
  have htrue : ∀ P : Assertion (Object W), P ≤ such (() = ()) P := fun P => le_such rfl le_rfl
  cases call with
  | add data => exact Spec.reached (listAdd_spec p data xs) Answer.number s
  | get index => exact Spec.reached (listGet_spec p xs index) Answer.pointer s
  | addInIndex index data =>
    exact Spec.reached ((listAddInIndex_spec p xs index data).post fun _ => htrue _) (fun _ => .nothing) s
  | replace index data => exact Spec.reached (listReplace_spec p xs index data) Answer.pointer s
  | replaceAndDestroyElement num data elementDestroyer =>
    rw [ListCall.run, listReplaceAndDestroyElement, bind_assoc]
    exact (listReplace_spec p xs num data).call_meets (destroyer_meets elementDestroyer p _ _ s)
  | find condition =>
    have h := listFind_meets (condition.acts xs) p s
    exact Meets.reached id (fun _ => some xs) h Answer.pointer
  | iterate closure =>
    have h := (listIterate_meets (closure.acts xs) p s).post fun r _ => htrue (isList p xs * I r.2)
    exact Meets.reached (fun _ => ()) (fun _ => some xs) h fun _ => .nothing
  | remove index =>
    have h := listRemove_meets (I := I) p xs index s
    exact Meets.reached Prod.fst (fun r => some r.2) h Answer.pointer
  | removeByCondition condition =>
    have h := listRemoveByCondition_meets (condition.acts xs) p s
    exact Meets.reached Prod.fst (fun r => some r.2) h Answer.pointer
  | removeAndDestroyElement index elementDestroyer =>
    rw [ListCall.run, listRemoveAndDestroyElement, bind_assoc]
    refine Meets.bind (listRemove_meets p xs index s) fun r data => Meets.such ?_
    rintro rfl
    exact destroyer_meets elementDestroyer p r.1.1 r.1.2 r.2
  | removeAndDestroyByCondition condition elementDestroyer =>
    rw [ListCall.run, listRemoveAndDestroyByCondition, bind_assoc]
    refine Meets.bind (listRemoveByCondition_meets (condition.acts xs) p s) fun r data => Meets.such ?_
    rintro rfl
    exact destroyer_meets elementDestroyer p r.1.1 r.1.2 r.2
  | size => exact Spec.reached (listSize_spec p xs) Answer.number s
  | isEmpty => exact Spec.reached (listIsEmpty_spec p xs) Answer.truth s
  | clean => exact Spec.reached ((listClean_spec p xs).post fun _ => htrue _) (fun _ => .nothing) s
  | cleanAndDestroyElements elementDestroyer =>
    have h := (listCleanAndDestroyElements_meets (elementDestroyer.acts xs) p s).post
      fun r _ => htrue (isList p [] * I r.2)
    exact Meets.reached (fun _ => ()) (fun _ => some []) h fun _ => .nothing
  | destroy =>
    have h : Spec (isList p xs) (listDestroy p) fun r => such (r = ()) (slot isList p none : Assertion (Object W)) :=
      (listDestroy_spec p xs).post fun _ => htrue _
    exact Spec.reached h (fun _ => .nothing) s
  | destroyAndDestroyElements elementDestroyer =>
    have h := listDestroyAndDestroyElements_meets (elementDestroyer.acts xs) p s
    refine Meets.reached (fun _ => ()) (fun _ => none) (h.post fun r _ => le_such rfl ?_) fun _ => .nothing
    exact le_of_eq (one_mul (I r.2)).symm
  | take count => exact Spec.reached_made (listTake_spec p xs count) s
  | takeAndRemove count => exact Spec.reached_made (listTakeAndRemove_spec p xs count) s
  | filter condition =>
    exact Meets.reached_made (fun _ => xs) id (listFilter_meets (condition.acts xs) p s)
  | map transformer =>
    exact Meets.reached_made (fun _ => xs) id (listMap_meets (transformer.acts xs) p s)

end Outcomes

/-! Runs. A caller names its lists by the order in which they were made. -/

inductive ListCommand {W S : Type} (I : S → Assertion (Object W))
  | create
  | on (list : Nat) (call : ListCall I)

/-- Every list that was made, in order; the destroyed ones are `none`. -/
abbrev Lists := List (Option (List Nat))

section Runs

variable {W S : Type} {I : S → Assertion (Object W)}

def runCommand (allocator : Allocator (Object W)) (handles : List Nat) :
    ListCommand I → Program (Object W) (Answer × List Nat)
  | .create => do
    let p ← listCreate allocator
    pure (.nothing, handles ++ [p])
  | .on list call => do
    let (answer, made) ← call.run allocator (handles.getD list 0)
    pure (answer, handles ++ made.toList)

def runCommands (allocator : Allocator (Object W)) :
    List Nat → List (ListCommand I) → Program (Object W) (List Answer × List Nat) := runAll (runCommand allocator)

def Lists.list (lists : Lists) (k : Nat) : List Nat := (lists.getD k none).getD []

def serveCommand (state : Lists × S) : ListCommand I → Except Stop (Answer × (Lists × S))
  | .create => .ok (.nothing, state.1 ++ [some []], state.2)
  | .on list call => do
    let ((answer, kept, made), s) ← call.outcome (state.1.list list) state.2
    .ok (answer, state.1.set list kept ++ made.toList.map some, s)

def serveCommands : Lists × S → List (ListCommand I) → Except Stop (List Answer × (Lists × S)) :=
  serveAll serveCommand

/-- The list is not destroyed, and the caller's functions are made for what they are called with. -/
def ListCommand.allowed (state : Lists × S) : ListCommand I → Bool
  | .create => true
  | .on list call => (state.1.getD list none).isSome && !misused (call.outcome (state.1.list list) state.2)

def allowed : Lists × S → List (ListCommand I) → Bool := allowedAll ListCommand.allowed serveCommand

variable {allocator : Allocator (Object W)}

theorem slots_le (p : Option Nat) (made : Option (List Nat)) :
    (slots p made : Assertion (Object W)) ≤ Holding isList p.toList (made.toList.map some) := by
  cases p with
  | none =>
    cases made with
    | none => exact le_such rfl le_rfl
    | some ys => exact such_le False.elim
  | some q =>
    cases made with
    | none => exact such_le False.elim
    | some ys => exact le_such rfl (le_of_eq (mul_one _).symm)

def Held (I : S → Assertion (Object W)) (handles : List Nat) (state : Lists × S) : Assertion (Object W) :=
  Holding isList handles state.1 * I state.2

theorem runCommand_serves (I : S → Assertion (Object W)) (allocator : Allocator (Object W)) :
    Serves (Held I) (runCommand (I := I) allocator) ListCommand.allowed serveCommand := by
  intro handles state command hallowed
  obtain ⟨lists, s⟩ := state
  rw [Held, Holding, such_mul]
  dsimp only
  refine Computes.such fun hlen => ?_
  cases command with
  | create =>
    show Spec _ _ _
    refine listCreate_spec.acquire fun p => Spec.ret_of_le (le_such rfl ?_)
    rw [← mul_assoc]
    exact mul_le_mul_left (holding_append hlen p []) (I s)
  | on k call =>
    obtain ⟨hsome, hnot⟩ := Bool.and_eq_true_iff.mp hallowed
    obtain ⟨xs, hxs⟩ : ∃ xs, lists.getD k none = some xs := Option.isSome_iff_exists.mp hsome
    have hk := getElem?_of_getD hxs
    obtain ⟨hlt, -⟩ := List.getElem?_eq_some_iff.mp hk
    have hlist : Lists.list lists k = xs := by rw [Lists.list, hxs, Option.getD_some]
    rw [hlist] at hnot
    rw [serveCommand, hlist, held_focus hlen hk, mul_right_comm]
    refine Computes.bind ((call.run_meets _ xs s (by simpa using hnot)).frame _) fun r result _ => ?_
    obtain ⟨answer, made⟩ := result
    obtain ⟨⟨answer', kept, ys⟩, s'⟩ := r
    refine Spec.ret_of_le ?_
    rw [Reached, such_mul, such_mul]
    refine such_le fun hanswer => le_such hanswer ?_
    refine le_trans (le_of_eq ?_) (mul_le_mul_left (le_trans (mul_le_mul_right (slots_le made ys)
      (held isList handles (lists.set k kept))) ?_) (I s'))
    · dsimp only
      rw [held_set hlen hlt kept]
      ac_rfl
    · rw [Holding, mul_such]
      refine such_le fun hmade => le_such ?_ (le_of_eq ?_)
      · rw [List.length_append, List.length_append, List.length_set, hlen, hmade]
      · rw [held_append (by rw [List.length_set, hlen])]

/-- Elements of the caller's own, which it frees. -/
def elements : List Nat → Assertion (Object W) := each fun x => any fun w => cell x (.other w)

theorem free_null_spec (P : Assertion (Object W)) : Spec P (free 0) fun _ => P :=
  fun _ h hP => ⟨(), h, rfl, hP⟩

def elementFree : Callback (elements (W := W)) Unit where
  run := free
  effect x := if x = 0 then pure () else erased x
  meets x s := by
    split_ifs with hx
    · rw [hx]
      exact fun _ => (free_null_spec _).post fun _ => le_such rfl le_rfl
    · exact acts_erased (fun y _ => Spec.any fun w => free_spec y _) x (List.mem_singleton_self x) s

/-- The caller's elements are at 1 and 2. -/
def sampleHeap : Heap (Object Unit) :=
  ((Heap.empty _).set 1 (by decide) (.other ())).set 2 (by decide) (.other ())

def sampleCommands : List (ListCommand (elements (W := Unit))) :=
  [.create, .on 0 (.add 1), .on 0 (.add 2), .on 0 (.takeAndRemove 1), .on 1 (.destroyAndDestroyElements elementFree),
    .on 0 (.removeAndDestroyByCondition (.ofFun (· == 1)) elementFree), .on 0 (.destroyAndDestroyElements elementFree)]

theorem sampleAllowed : allowed ([], [1, 2]) sampleCommands = true := rfl

def sampleAnswers : List Answer := [.nothing, .number 0, .number 1, .nothing, .nothing, .nothing, .nothing]

theorem sampleServed : serveCommands ([], [1, 2]) sampleCommands = .ok (sampleAnswers, [none, none], []) := rfl

theorem sampleHeap_holds : (elements [1, 2] * exactly fun _ => none).holds sampleHeap.cells := by
  have hany : ∀ a, cell a (.other ()) ≤ any fun w : Unit => (cell a (.other w) : Assertion (Object Unit)) :=
    fun a => le_any () le_rfl
  have hcells : cell 1 (.other ()) * (cell 2 (.other ()) * exactly fun _ => none) ≤
      elements [1, 2] * exactly fun _ => none := by
    rw [elements, each_cons, each_cons, each_nil, mul_one, mul_assoc]
    exact mul_le_mul' (hany 1) (mul_le_mul_left (hany 2) _)
  refine hcells _ (holds_cell_mul.mpr ⟨by decide, rfl, holds_cell_mul.mpr ⟨by decide, rfl, ?_⟩⟩)
  funext a
  by_cases h1 : a = 1
  · simp [h1]
  · by_cases h2 : a = 2
    · simp [h2]
    · simp [sampleHeap, Heap.set, Heap.empty, h1, h2]

/-- Any sequence of calls on lists that are not destroyed, beside what else the heap holds: the
answers are those of the lists of pointers, the caller's cells are as its functions leave
them, the others are those of the lists that are left, and the run ends in a fault where one of
the functions does or an element is taken from outside a nonempty list. -/
theorem runCommands_refines (allocator : Allocator (Object W)) {commands : List (ListCommand I)} {s : S}
    (hallowed : allowed ([], s) commands = true) {h : Heap (Object W)} {rest : Cells (Object W)}
    (hstart : (I s * exactly rest).holds h.cells) :
    (∀ answers lists s', serveCommands ([], s) commands = .ok (answers, lists, s') →
      ∃ handles h', runCommands allocator [] commands h = .ok ((answers, handles), h') ∧
        handles.length = lists.length ∧ (held isList handles lists * I s' * exactly rest).holds h'.cells) ∧
      ∀ stop, serveCommands ([], s) commands = .error stop →
        ∃ fault, runCommands allocator [] commands h = .error fault := by
  have hheld : (Held I [] ([], s) * exactly rest).holds h.cells := by
    rw [Held, holding_nil, one_mul]
    exact hstart
  obtain ⟨hok, hfault⟩ := (runCommand_serves I allocator).run_from hallowed hheld
  refine ⟨fun answers lists s' hserved => ?_, hfault⟩
  obtain ⟨handles, h', hrun, hend⟩ := hok answers (lists, s') hserved
  rw [Held, Holding, such_mul, such_mul] at hend
  exact ⟨handles, h', hrun, hend.1, hend.2⟩

theorem runCommands_refines_sample :
    serveCommands ([], [1, 2]) sampleCommands = .ok (sampleAnswers, [none, none], []) ∧
      ∃ handles h', runCommands (bump (Object Unit)) [] sampleCommands sampleHeap =
        .ok ((sampleAnswers, handles), h') ∧ handles.length = 2 := by
  obtain ⟨handles, h', hrun, hlen, -⟩ :=
    (runCommands_refines (bump (Object Unit)) sampleAllowed sampleHeap_holds).1 _ _ _ sampleServed
  exact ⟨sampleServed, handles, h', hrun, hlen⟩

/-- A caller that has destroyed every list has given back every cell of them. -/
theorem runCommands_freed (allocator : Allocator (Object W)) {commands : List (ListCommand I)} {s s' : S}
    (hallowed : allowed ([], s) commands = true) {answers : List Answer} {lists : Lists}
    (hserved : serveCommands ([], s) commands = .ok (answers, lists, s')) (hdestroyed : ∀ list ∈ lists, list = none)
    {h : Heap (Object W)} {rest : Cells (Object W)} (hstart : (I s * exactly rest).holds h.cells) :
    ∃ handles h', runCommands allocator [] commands h = .ok ((answers, handles), h') ∧
      (I s' * exactly rest).holds h'.cells := by
  have hheld : (Held I [] ([], s) * exactly rest).holds h.cells := by
    rw [Held, holding_nil, one_mul]
    exact hstart
  obtain ⟨handles, h', hrun, hend⟩ := ((runCommand_serves I allocator).run_from hallowed hheld).1 _ _ hserved
  rw [Held, Holding, such_mul, such_mul, held_of_forall hdestroyed, one_mul] at hend
  exact ⟨handles, h', hrun, hend.2⟩

theorem runCommands_freed_sample :
    ∃ handles h', runCommands (bump (Object Unit)) [] sampleCommands sampleHeap =
      .ok ((sampleAnswers, handles), h') ∧ h'.cells = fun _ => none := by
  obtain ⟨handles, h', hrun, hend⟩ :=
    runCommands_freed (bump (Object Unit)) sampleAllowed sampleServed (by simp) sampleHeap_holds
  rw [elements, each_nil, one_mul] at hend
  exact ⟨handles, h', hrun, hend⟩

end Runs

end FuseExt2
