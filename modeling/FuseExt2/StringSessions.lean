import FuseExt2.Strings

/-! Any sequence of calls on any number of strings, against the same calls on texts. -/

namespace FuseExt2

open Heaps Assertion

namespace Strings

/-- The functions that change a string, perhaps by a new buffer in its place. -/
inductive Edit
  | toUpper
  | toLower
  | capitalized
  | trimLeft
  | trimRight
  | trim

def Edit.run {W : Type} (allocator : Allocator (Buffer W)) (junk : UInt8) (text : Nat) : Edit → Code W Nat
  | .toUpper => do
    stringToUpper text 0
    pure text
  | .toLower => do
    stringToLower text 0
    pure text
  | .capitalized => do
    stringCapitalized text
    pure text
  | .trimLeft => stringTrimLeft allocator text
  | .trimRight => stringTrimRight allocator junk text
  | .trim => stringTrim allocator junk text

/-- A trim takes spaces and tabs from the left, and also line breaks from the right. -/
def Edit.apply (text : List UInt8) : Edit → List UInt8
  | .toUpper => text.map toupper
  | .toLower => text.map tolower
  | .capitalized => capitalize text
  | .trimLeft => text.dropWhile isblank
  | .trimRight => text.rdropWhile isspace
  | .trim => (text.dropWhile isblank).rdropWhile isspace

theorem Edit.run_spec {W : Type} {allocator : Allocator (Buffer W)} {junk : UInt8} {text : List UInt8} (p : Nat)
    (hlt : text.length < 2 ^ 31) (edit : Edit) :
    Spec (isText p text) (edit.run allocator junk p) fun q => isText q (edit.apply text) := by
  cases edit with
  | toUpper => exact (stringToUpper_spec p hlt).bind fun _ => Spec.ret_of_le le_rfl
  | toLower => exact (stringToLower_spec p [] text hlt).bind fun _ => Spec.ret_of_le le_rfl
  | capitalized => exact (stringCapitalized_spec p hlt).bind fun _ => Spec.ret_of_le le_rfl
  | trimLeft => exact stringTrimLeft_spec p text
  | trimRight => exact stringTrimRight_spec p hlt
  | trim => exact stringTrim_spec p hlt

/-- A caller names its strings by the order in which they were made. -/
inductive StringCommand
  | repeated (character : UInt8) (count : Int)
  | duplicate (text : Nat)
  | append (original stringToAdd : Nat)
  | edit (edit : Edit) (text : Nat)
  | isEmpty (text : Nat)
  | startsWith (text begin : Nat)
  | endsWith (text ending : Nat)
  | equalsIgnoreCase (actual expected : Nat)
  | free (text : Nat)

def runString {W : Type} (allocator : Allocator (Buffer W)) (junk : UInt8) (handles : List Nat) :
    StringCommand → Code W (Option Bool × List Nat)
  | .repeated character count => do
    let p ← stringRepeat allocator character count
    pure (none, handles ++ [p])
  | .duplicate text => do
    let p ← stringDuplicate allocator (handles.getD text 0) 0
    pure (none, handles ++ [p])
  | .append original stringToAdd => do
    let p ← stringAppend allocator junk (handles.getD original 0) (handles.getD stringToAdd 0)
    pure (none, handles.set original p)
  | .edit edit text => do
    let p ← edit.run allocator junk (handles.getD text 0)
    pure (none, handles.set text p)
  | .isEmpty text => do
    let b ← stringIsEmpty (handles.getD text 0)
    pure (some b, handles)
  | .startsWith text begin => do
    let b ← stringStartsWith (handles.getD text 0) (handles.getD begin 0)
    pure (some b, handles)
  | .endsWith text ending => do
    let b ← stringEndsWith (handles.getD text 0) (handles.getD ending 0)
    pure (some b, handles)
  | .equalsIgnoreCase actual expected => do
    let b ← stringEqualsIgnoreCase (handles.getD actual 0) (handles.getD expected 0)
    pure (some b, handles)
  | .free text => do
    free (handles.getD text 0)
    pure (none, handles)

/-- Every string that was made, in order; the ones given back are `none`. -/
abbrev Texts := List (Option (List UInt8))

def Texts.text (texts : Texts) (k : Nat) : List UInt8 := (texts.getD k none).getD []

def serveString (texts : Texts) : StringCommand → Except Heaps.Fault (Option Bool × Texts)
  | .repeated character count => .ok (none, texts ++ [some (repeated character count.toNat)])
  | .duplicate text => .ok (none, texts ++ [some (texts.text text)])
  | .append original stringToAdd =>
    if original = stringToAdd then .error .dangling
    else .ok (none, texts.set original (some (texts.text original ++ texts.text stringToAdd)))
  | .edit edit text => .ok (none, texts.set text (some (edit.apply (texts.text text))))
  | .isEmpty text => .ok (some (texts.text text).isEmpty, texts)
  | .startsWith text begin => .ok (some (texts.text begin <+: texts.text text), texts)
  | .endsWith text ending => .ok (some (texts.text ending <:+ texts.text text), texts)
  | .equalsIgnoreCase actual expected =>
    .ok (some ((texts.text actual).map tolower == (texts.text expected).map tolower), texts)
  | .free text => .ok (none, texts.set text none)

/-- The strings exist and are not given back, a count is not negative, and where the code
counts in an `int` they are not too long for it. -/
def StringCommand.allowed (texts : Texts) : StringCommand → Bool
  | .repeated _ count => 0 ≤ count && count < 2 ^ 31 - 1
  | .duplicate text => (texts.getD text none).isSome
  | .append original stringToAdd => (texts.getD original none).isSome && (texts.getD stringToAdd none).isSome
  | .edit _ text => (texts.getD text none).isSome && (texts.text text).length < 2 ^ 31
  | .isEmpty text => (texts.getD text none).isSome
  | .startsWith text begin => (texts.getD text none).isSome && (texts.getD begin none).isSome
  | .endsWith text ending =>
    (texts.getD text none).isSome && (texts.getD ending none).isSome && (texts.text text).length < 2 ^ 31
  | .equalsIgnoreCase actual expected => (texts.getD actual none).isSome && (texts.getD expected none).isSome
  | .free text => (texts.getD text none).isSome

section Runs

variable {W : Type} {allocator : Allocator (Buffer W)} {junk : UInt8} {handles : List Nat} {texts : Texts} {k : Nat}

theorem text_of_isSome (hk : (texts.getD k none).isSome = true) : texts[k]? = some (some (texts.text k)) := by
  obtain ⟨text, htext⟩ := Option.isSome_iff_exists.mp hk
  rw [getElem?_of_getD htext, Texts.text, htext, Option.getD_some]

theorem reads_held (hlen : handles.length = texts.length) (hk : (texts.getD k none).isSome = true) :
    Reads (held isText handles texts : Assertion (Buffer W)) (handles.getD k 0) (texts.text k) := by
  intro index hi
  rw [held_focus hlen (text_of_isSome hk)]
  refine ((getString_spec _ hi).frame _).post fun r => ?_
  rw [such_mul]
  exact le_rfl

theorem runString_serves (allocator : Allocator (Buffer W)) (junk : UInt8) :
    Serves (Holding isText) (runString allocator junk) StringCommand.allowed serveString := by
  intro handles (texts : Texts) command hallowed
  refine Computes.such fun hlen => ?_
  have hkeep : held isText handles texts ≤ (Holding isText handles texts : Assertion (Buffer W)) := le_such hlen le_rfl
  have htest : ∀ {c : Code W Bool} {b : Bool},
      Spec (held isText handles texts) c (fun r => such (r = b) (held isText handles texts)) →
      Spec (held isText handles texts) (c >>= fun r => pure (some r, handles)) fun result =>
        such (result.1 = some b) (Holding isText result.2 texts) := by
    intro c b hc
    refine hc.bind fun r => Spec.such ?_
    rintro rfl
    exact Spec.ret_of_le (le_such rfl hkeep)
  cases command with
  | repeated character count =>
    obtain ⟨hnonneg, hlt⟩ := Bool.and_eq_true_iff.mp hallowed
    obtain ⟨n, rfl⟩ := Int.eq_ofNat_of_zero_le (of_decide_eq_true hnonneg)
    have hn : (n : Int) < 2 ^ 31 - 1 := of_decide_eq_true hlt
    show Spec _ _ _
    exact (stringRepeat_spec character (by omega)).acquire fun p =>
      Spec.ret_of_le (le_such rfl (holding_append hlen p _))
  | duplicate text =>
    show Spec _ _ _
    have hfocus := held_focus (D := isText (W := W)) hlen (text_of_isSome hallowed)
    rw [hfocus]
    refine ((stringDuplicate_spec _ (Nat.zero_le _)).frame _).bind fun p => Spec.ret_of_le (le_such rfl ?_)
    rw [List.drop_zero, mul_assoc]
    refine (mul_le_mul_right (le_of_eq hfocus.symm) _).trans ?_
    exact holding_append hlen p _
  | append original stringToAdd =>
    obtain ⟨horiginal, hadd⟩ := Bool.and_eq_true_iff.mp hallowed
    have hk := text_of_isSome horiginal
    rw [serveString, held_focus hlen hk]
    split_ifs with hself
    · subst hself
      exact Fails.bind ((stringAppend_self_fails _ _).frame _)
    · have hk' : (texts.set original none)[stringToAdd]? = some (some (texts.text stringToAdd)) := by
        rw [List.getElem?_set_ne hself]
        exact text_of_isSome hadd
      have hfocus := held_focus (D := isText (W := W)) (hlen.trans List.length_set.symm) hk'
      show Spec _ _ _
      rw [hfocus, ← mul_assoc]
      refine ((stringAppend_spec _ _ _ _).frame _).bind fun p => Spec.ret_of_le (le_such rfl ?_)
      rw [mul_assoc]
      refine (mul_le_mul_right (le_of_eq hfocus.symm) _).trans ?_
      exact holding_set hlen (List.getElem?_eq_some_iff.mp hk).1 p _
  | edit edit text =>
    obtain ⟨htext, hlt⟩ := Bool.and_eq_true_iff.mp hallowed
    have hk := text_of_isSome htext
    show Spec _ _ _
    rw [held_focus hlen hk]
    refine ((edit.run_spec _ (of_decide_eq_true hlt)).frame _).bind fun p => Spec.ret_of_le (le_such rfl ?_)
    exact holding_set hlen (List.getElem?_eq_some_iff.mp hk).1 p _
  | isEmpty text => exact htest (stringIsEmpty_spec (reads_held hlen hallowed))
  | startsWith text begin =>
    obtain ⟨htext, hbegin⟩ := Bool.and_eq_true_iff.mp hallowed
    exact htest (stringStartsWith_spec (reads_held hlen htext) (reads_held hlen hbegin))
  | endsWith text ending =>
    obtain ⟨hboth, hlt⟩ := Bool.and_eq_true_iff.mp hallowed
    obtain ⟨htext, hending⟩ := Bool.and_eq_true_iff.mp hboth
    exact htest (stringEndsWith_spec (reads_held hlen htext) (reads_held hlen hending) (of_decide_eq_true hlt))
  | equalsIgnoreCase actual expected =>
    obtain ⟨hactual, hexpected⟩ := Bool.and_eq_true_iff.mp hallowed
    exact htest (stringEqualsIgnoreCase_spec (reads_held hlen hactual) (reads_held hlen hexpected))
  | free text =>
    have hk := text_of_isSome hallowed
    show Spec _ _ _
    rw [held_focus hlen hk]
    refine (freeText_spec _ _).release fun _ => Spec.ret_of_le (le_such rfl ?_)
    exact le_such (hlen.trans List.length_set.symm) le_rfl

def sampleStrings : List StringCommand :=
  [.repeated 32 2, .repeated 97 3, .append 0 1, .append 0 1, .edit .trim 0, .edit .capitalized 0, .endsWith 0 1,
    .equalsIgnoreCase 0 1, .free 0, .free 1]

/-- Any sequence of calls on strings that are not given back, in any heap: the tests answer as
those on the texts do, the cells are those of the strings that are left, and the run ends
in a fault where a string is added to itself. -/
theorem runStrings_refines (allocator : Allocator (Buffer W)) (junk : UInt8) {commands : List StringCommand}
    (hallowed : allowedAll StringCommand.allowed serveString [] commands = true) (h : Heap (Buffer W)) :
    (∀ answers texts, serveAll serveString [] commands = .ok (answers, texts) →
      ∃ handles h', runAll (runString allocator junk) [] commands h = .ok ((answers, handles), h') ∧
        handles.length = texts.length ∧ (held isText handles texts * exactly h.cells).holds h'.cells) ∧
      ∀ fault, serveAll serveString [] commands = .error fault →
        ∃ fault', runAll (runString allocator junk) [] commands h = .error fault' :=
  (runString_serves allocator junk).run hallowed h

theorem runStrings_refines_sample :
    ∃ handles h', runAll (runString (bump (Buffer Unit)) 0) [] sampleStrings (Heap.empty _) =
      .ok (([none, none, none, none, none, none, some true, some false, none, none], handles), h') ∧
      h'.cells = fun _ => none := by
  have hallowed : allowedAll StringCommand.allowed serveString [] sampleStrings = true := rfl
  obtain ⟨handles, h', hrun, -, hend⟩ :=
    (runStrings_refines (bump (Buffer Unit)) 0 hallowed (Heap.empty _)).1 _ [none, none] rfl
  rw [held_of_forall (by simp), one_mul] at hend
  exact ⟨handles, h', hrun, hend⟩

end Runs

end Strings

end FuseExt2
