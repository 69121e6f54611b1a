import FuseExt2.Handles

/-! The functions on strings, over buffers of characters that a caller allocates: what each
does to its buffers, and what any sequence of them does to the texts that they hold. -/

namespace FuseExt2

open Heaps Assertion

namespace Strings

/-- The buffer of a string, or a record of the caller. -/
inductive Buffer (W : Type)
  | chars (bytes : List UInt8)
  | other (record : W)

abbrev Code (W : Type) := Program (Buffer W)

/-! What the C library does, in the "C" locale. -/

def isblank (c : UInt8) : Bool := c == 32 || c == 9

def isspace (c : UInt8) : Bool := c == 32 || (9 ≤ c && c ≤ 13)

def toupper (c : UInt8) : UInt8 := if 97 ≤ c ∧ c ≤ 122 then c - 32 else c

def tolower (c : UInt8) : UInt8 := if 65 ≤ c ∧ c ≤ 90 then c + 32 else c

section Calls

variable {W : Type} (allocator : Allocator (Buffer W)) (junk : UInt8)

def readBuffer (text : Nat) : Code W (List UInt8) := do
  match ← load text with
  | .chars bytes => pure bytes
  | .other _ => fail .dangling

/-- `text[index]` -/
def getChar (text index : Nat) : Code W UInt8 := do
  let bytes ← readBuffer text
  match bytes[index]? with
  | some c => pure c
  | none => fail .dangling

/-- `text[index] = c` -/
def setChar (text index : Nat) (c : UInt8) : Code W Unit := do
  let bytes ← readBuffer text
  if index < bytes.length then store text (.chars (bytes.set index c)) else fail .dangling

/-- The characters of the string at `&text[index]`; the search for the end must find it. -/
def getString (text index : Nat) : Code W (List UInt8) := do
  let bytes ← readBuffer text
  if 0 ∈ bytes.drop index then pure ((bytes.drop index).takeWhile (· != 0)) else fail .dangling

def strlen (text : Nat) : Code W Nat := do
  let string ← getString text 0
  pure string.length

/-- `strcat` of a text that is not in `dest`. -/
def strcatText (dest : Nat) (added : List UInt8) : Code W Unit := do
  let string ← getString dest 0
  let bytes ← readBuffer dest
  if string.length + added.length < bytes.length then
    store dest (.chars (string ++ added ++ 0 :: bytes.drop (string.length + added.length + 1)))
  else fail .dangling

/-- Two strings that overlap are not allowed. -/
def strcat (dest src : Nat) : Code W Unit := do
  if dest = src then fail .dangling
  else
    let added ← getString src 0
    strcatText dest added

/-- What a buffer holds where it has grown is not specified. -/
def realloc (text size : Nat) : Code W Nat := do
  let bytes ← readBuffer text
  free text
  malloc allocator (.chars (bytes.takeD size junk))

/-! The functions. One that changes `char **text` gives the new pointer. -/

/-- `for (; i < count; ++i) text[i] = character;` -/
def repeatLoop (text : Nat) (character : UInt8) : Nat → Nat → Code W Unit
  | 0, _ => pure ()
  | turns + 1, i => do
    setChar text i character
    repeatLoop text character turns (i + 1)

/-- The size `count + 1` is an `int`. Below 0 it is converted to one that no memory
has, and `calloc` gives NULL. -/
def stringRepeat (character : UInt8) (count : Int) : Code W Nat :=
  if 2 ^ 31 ≤ count + 1 then fail .outside
  else if count + 1 < 0 then pure 0
  else do
    let text ← malloc allocator (.chars (List.replicate (count + 1).toNat 0))
    repeatLoop text character count.toNat 0
    pure text

/-- `strdup` of the string at `&original[index]` -/
def stringDuplicate (original index : Nat) : Code W Nat := do
  let string ← getString original index
  malloc allocator (.chars (string ++ [0]))

def stringAppend (original stringToAdd : Nat) : Code W Nat := do
  let length ← strlen original
  let lengthToAdd ← strlen stringToAdd
  let original ← realloc allocator junk original (length + lengthToAdd + 1)
  strcat original stringToAdd
  pure original

def stringUpperElement (text index : Nat) : Code W Unit := do
  let c ← getChar text index
  setChar text index (toupper c)

def stringLowerElement (text index : Nat) : Code W Unit := do
  let c ← getChar text index
  setChar text index (tolower c)

/-- The index of the loop is an `int`, which has no value after `2 ^ 31 - 1`. -/
def stringDoLoop (text start : Nat) (closure : Nat → Nat → Code W Unit) : Nat → Nat → Code W Unit
  | 0, _ => fail .outside
  | turns + 1, i => do
    let c ← getChar text (start + i)
    if c ≠ 0 then
      closure text (start + i)
      stringDoLoop text start closure turns (i + 1)
    else pure ()

def stringDo (text start : Nat) (closure : Nat → Nat → Code W Unit) : Code W Unit :=
  stringDoLoop text start closure (2 ^ 31) 0

def stringToUpper (text start : Nat) : Code W Unit := stringDo text start stringUpperElement

def stringToLower (text start : Nat) : Code W Unit := stringDo text start stringLowerElement

def stringIsEmpty (text : Nat) : Code W Bool := do
  let length ← strlen text
  pure (length == 0)

def stringCapitalized (text : Nat) : Code W Unit := do
  let empty ← stringIsEmpty text
  if !empty then
    stringUpperElement text 0
    let length ← strlen text
    if length ≥ 2 then stringToLower text 1 else pure ()
  else pure ()

/-- `while (isblank(*string_without_blank)) string_without_blank++;` -/
def trimLeftLoop (text : Nat) : Nat → Nat → Code W Nat
  | 0, _ => fail .diverges
  | fuel + 1, index => do
    let c ← getChar text index
    if isblank c then trimLeftLoop text fuel (index + 1) else pure index

def stringTrimLeft (text : Nat) : Code W Nat := do
  let bytes ← readBuffer text
  let index ← trimLeftLoop text (bytes.length + 1) 0
  let newString ← stringDuplicate allocator text index
  free text
  pure newString

/-- The turn for `i = turns - 1`. -/
def trimRightLoop (text : Nat) : Nat → Code W Unit
  | 0 => pure ()
  | i + 1 => do
    let c ← getChar text i
    if isspace c then
      setChar text i 0
      trimRightLoop text i
    else pure ()

/-- The length is a `size_t`, and what is left of it in an `int` is the first index. -/
def stringTrimRight (text : Nat) : Code W Nat := do
  let length ← strlen text
  trimRightLoop text (((length : Int) - 1).bmod (2 ^ 32) + 1).toNat
  let length ← strlen text
  realloc allocator junk text (length + 1)

def stringTrim (text : Nat) : Code W Nat := do
  let text ← stringTrimLeft allocator text
  stringTrimRight allocator junk text

/-- `strncmp` with the length of `begin` -/
def stringStartsWith (text begin : Nat) : Code W Bool := do
  let length ← strlen begin
  let string ← getString text 0
  let start ← getString begin 0
  pure (string.take length == start.take length)

/-- The index is an `int`, so a negative one is before the string. -/
def stringEndsWith (text ending : Nat) : Code W Bool := do
  let length ← strlen text
  let endLength ← strlen ending
  if length < endLength then pure false
  else
    let index := ((length : Int) - endLength).bmod (2 ^ 32)
    if index < 0 then fail .dangling
    else
      let string ← getString text index.toNat
      let last ← getString ending 0
      pure (string == last)

/-- `strcasecmp` -/
def stringEqualsIgnoreCase (actual expected : Nat) : Code W Bool := do
  let actual ← getString actual 0
  let expected ← getString expected 0
  pure (actual.map tolower == expected.map tolower)

end Calls

/-! What each call does to a text. -/

section Specs

variable {W : Type} {allocator : Allocator (Buffer W)} {junk : UInt8} {p : Nat} {text : List UInt8}

/-- The text with the character that ends it, in a buffer that may be longer. -/
def isText (p : Nat) (text : List UInt8) : Assertion (Buffer W) :=
  any fun rest => such (0 ∉ text) (cell p (.chars (text ++ 0 :: rest)))

theorem cell_le_isText (p : Nat) (hnul : 0 ∉ text) (rest : List UInt8) :
    cell p (.chars (text ++ 0 :: rest)) ≤ (isText p text : Assertion (Buffer W)) := le_any rest (le_such hnul le_rfl)

theorem readBuffer_spec (p : Nat) (bytes : List UInt8) :
    Spec (cell p (.chars bytes)) (readBuffer p) fun r => such (r = bytes) (cell p (.chars bytes : Buffer W)) := by
  refine (load_spec p _).bind fun r => Spec.such ?_
  rintro rfl
  exact Spec.ret_of_le (le_such rfl le_rfl)

theorem getChar_spec {bytes : List UInt8} {index : Nat} {c : UInt8} (hc : bytes[index]? = some c) :
    Spec (cell p (.chars bytes)) (getChar p index) fun r => such (r = c) (cell p (.chars bytes : Buffer W)) := by
  refine (readBuffer_spec p bytes).bind fun r => Spec.such ?_
  rintro rfl
  rw [hc]
  exact Spec.ret_of_le (le_such rfl le_rfl)

theorem setChar_spec (p : Nat) {bytes : List UInt8} {index : Nat} (hi : index < bytes.length) (c : UInt8) :
    Spec (cell p (.chars bytes)) (setChar p index c) fun _ => cell p (.chars (bytes.set index c) : Buffer W) := by
  refine (readBuffer_spec p bytes).bind fun r => Spec.such ?_
  rintro rfl
  rw [if_pos hi]
  exact store_spec p _ _

theorem takeWhile_text (hnul : 0 ∉ text) (rest : List UInt8) : (text ++ 0 :: rest).takeWhile (· != 0) = text := by
  rw [List.takeWhile_append_of_pos fun c hc => bne_iff_ne.mpr (ne_of_mem_of_not_mem hc hnul)]
  simp

theorem getString_cell {bytes : List UInt8} {index : Nat} {rest : List UInt8} (hnul : 0 ∉ text)
    (hdrop : bytes.drop index = text ++ 0 :: rest) :
    Spec (cell p (.chars bytes)) (getString p index) fun r => such (r = text) (cell p (.chars bytes : Buffer W)) := by
  refine (readBuffer_spec p bytes).bind fun r => Spec.such ?_
  rintro rfl
  rw [hdrop, if_pos (by simp), takeWhile_text hnul]
  exact Spec.ret_of_le (le_such rfl le_rfl)

theorem getString_spec (p : Nat) {index : Nat} (hi : index ≤ text.length) :
    Spec (isText p text) (getString p index)
      fun r => such (r = text.drop index) (isText p text : Assertion (Buffer W)) := by
  refine Spec.any fun rest => Spec.such fun hnul => ?_
  have hdrop : (text ++ 0 :: rest).drop index = text.drop index ++ 0 :: rest := List.drop_append_of_le_length hi
  refine (getString_cell (fun h => hnul (List.mem_of_mem_drop h)) hdrop).post fun r => ?_
  exact such_le fun hr => le_such hr (cell_le_isText p hnul rest)

theorem strlen_cell (p : Nat) (hnul : 0 ∉ text) (rest : List UInt8) :
    Spec (cell p (.chars (text ++ 0 :: rest))) (strlen p)
      fun r => such (r = text.length) (cell p (.chars (text ++ 0 :: rest)) : Assertion (Buffer W)) := by
  refine (getString_cell hnul List.drop_zero).bind fun r => Spec.such ?_
  rintro rfl
  exact Spec.ret_of_le (le_such rfl le_rfl)

theorem strlen_spec (p : Nat) (text : List UInt8) :
    Spec (isText p text) (strlen p) fun r => such (r = text.length) (isText p text : Assertion (Buffer W)) :=
  Spec.any fun rest => Spec.such fun hnul => (strlen_cell p hnul rest).post fun _ =>
    such_le fun hr => le_such hr (cell_le_isText p hnul rest)

theorem owns_isText (p : Nat) (text : List UInt8) : Owns (isText p text : Assertion (Buffer W)) p :=
  Owns.any fun _ h hh => owns_cell p _ h hh.2

theorem freeText_spec (p : Nat) (text : List UInt8) :
    Spec (isText p text) (free p) fun _ => (1 : Assertion (Buffer W)) :=
  Spec.any fun _ => Spec.such fun _ => free_spec p _

theorem stringDuplicate_spec (p : Nat) {index : Nat} (hi : index ≤ text.length) :
    Spec (isText p text) (stringDuplicate allocator p index)
      fun q => isText q (text.drop index) * isText p text := by
  refine (getString_spec p hi).bind fun r => Spec.such ?_
  rintro rfl
  refine Spec.any fun rest => Spec.such fun hnul => ?_
  rw [← one_mul (cell p _)]
  refine ((malloc_spec allocator _).frame _).post fun q => mul_le_mul' (le_any [] (le_such ?_ le_rfl)) ?_
  · exact fun h => hnul (List.mem_of_mem_drop h)
  · exact cell_le_isText p hnul rest

theorem realloc_spec (p size : Nat) (bytes : List UInt8) :
    Spec (cell p (.chars bytes)) (realloc allocator junk p size) fun q => cell q (.chars (bytes.takeD size junk)) := by
  refine (readBuffer_spec p bytes).bind fun r => Spec.such ?_
  rintro rfl
  exact (free_spec p _).bind fun _ => malloc_spec allocator _

theorem takeD_text (junk : UInt8) (text rest : List UInt8) (n : Nat) :
    (text ++ 0 :: rest).takeD (text.length + n + 1) junk = text ++ 0 :: rest.takeD n junk := by
  induction text with
  | nil =>
    rw [List.length_nil, Nat.zero_add]
    rfl
  | cons c text ih =>
    have hlen : (c :: text).length + n + 1 = text.length + n + 1 + 1 := by
      rw [List.length_cons]
      omega
    rw [hlen, List.cons_append, List.cons_append, ← ih]
    rfl

theorem isText_le (p : Nat) (text : List UInt8) :
    isText p text ≤ such (0 ∉ text) (isText p text : Assertion (Buffer W)) :=
  any_le fun rest => such_le fun hnul => le_such hnul (cell_le_isText p hnul rest)

theorem strcatText_spec (p : Nat) {rest added : List UInt8} (hnul : 0 ∉ text) (hadded : 0 ∉ added)
    (hfit : added.length ≤ rest.length) :
    Spec (cell p (.chars (text ++ 0 :: rest))) (strcatText p added)
      fun _ => (isText p (text ++ added) : Assertion (Buffer W)) := by
  refine (getString_cell hnul List.drop_zero).bind fun r => Spec.such ?_
  rintro rfl
  refine (readBuffer_spec p _).bind fun r => Spec.such ?_
  rintro rfl
  rw [if_pos (by rw [List.length_append, List.length_cons]; omega)]
  refine (store_spec p _ _).post fun _ => cell_le_isText p ?_ _
  exact fun h => (List.mem_append.mp h).elim hnul hadded

theorem strcat_spec {q : Nat} {rest added : List UInt8} (hnul : 0 ∉ text) (hfit : added.length ≤ rest.length) :
    Spec (cell p (.chars (text ++ 0 :: rest)) * isText q added) (strcat p q)
      fun _ => isText p (text ++ added) * (isText q added : Assertion (Buffer W)) := by
  refine Spec.apart (owns_cell p _) (owns_isText q added) fun hne => ?_
  rw [strcat, if_neg hne, mul_comm]
  refine Spec.pre ?_ ((mul_le_mul_left (isText_le q added) _).trans_eq (such_mul _ _ _))
  refine Spec.such fun hadded => (getString_spec q (Nat.zero_le _)).call ?_
  rw [List.drop_zero, mul_comm]
  exact (strcatText_spec p hnul hadded hfit).frame _

theorem stringAppend_spec (p q : Nat) (text added : List UInt8) :
    Spec (isText p text * isText q added) (stringAppend allocator junk p q)
      fun r => isText r (text ++ added) * isText q added := by
  refine (strlen_spec p text).call ?_
  rw [mul_comm]
  refine (strlen_spec q added).call ?_
  rw [mul_comm, isText, any_mul]
  refine Spec.any fun rest => ?_
  rw [such_mul]
  refine Spec.such fun hnul => (realloc_spec p _ _).step fun r => ?_
  rw [takeD_text]
  exact (strcat_spec hnul (List.takeD_length ..).ge).bind fun _ => Spec.ret_of_le le_rfl

theorem stringAppend_self_fails (p : Nat) (text : List UInt8) :
    Fails (isText p text) (stringAppend allocator junk p p) := by
  refine (strlen_spec p text).bind_fails fun n => Fails.such fun hn => ?_
  refine (strlen_spec p text).bind_fails fun n' => Fails.such fun hn' => ?_
  refine Fails.any fun rest => Fails.such fun hnul => ?_
  rw [realloc, bind_assoc]
  refine (readBuffer_spec p _).bind_fails fun bytes => Fails.such ?_
  rintro rfl
  intro R h hh
  obtain ⟨⟨⟩, h₁, hfree, -⟩ := free_spec p _ R h hh
  obtain ⟨hp, -, -⟩ := holds_cell_mul.mp hh
  have hcat : ∀ q h₂, malloc allocator (.chars ((text ++ 0 :: rest).takeD (n + n' + 1) junk)) h₁ = .ok (q, h₂) →
      ∃ fault, strcat q p h₂ = .error fault := by
    intro q h₂ hmalloc
    by_cases hq : q = p
    · exact ⟨.dangling, by rw [strcat, if_pos hq]; rfl⟩
    · have hload := load_freed hp hfree hmalloc (Ne.symm hq)
      rw [strcat, if_neg hq, getString, readBuffer]
      exact ⟨.dangling, bind_of_error (bind_of_error (bind_of_error hload))⟩
  obtain ⟨fault, hfault⟩ := hcat _ _ rfl
  refine ⟨fault, ?_⟩
  rw [bind_assoc, bind_of_ok hfree]
  exact (bind_of_ok rfl).trans (bind_of_error hfault)

theorem repeatLoop_spec (p : Nat) (character : UInt8) (turns i : Nat) :
    Spec (cell p (.chars (List.replicate i character ++ List.replicate (turns + 1) 0))) (repeatLoop p character turns i)
      fun _ => cell p (.chars (List.replicate (i + turns) character ++ [0]) : Buffer W) := by
  induction turns generalizing i with
  | zero => exact Spec.ret_of_le le_rfl
  | succ turns ih =>
    have hlen : (List.replicate i character).length = i := List.length_replicate
    refine (setChar_spec p ?_ character).bind fun _ => ?_
    · rw [List.length_append, List.length_replicate, List.length_replicate]
      omega
    · rw [List.set_append_right _ _ hlen.le, hlen, Nat.sub_self, List.replicate_succ, List.set_cons_zero]
      have hstep := ih (i + 1)
      rw [List.replicate_succ', List.append_assoc, List.singleton_append, Nat.add_right_comm] at hstep
      exact hstep

/-- A string of the character that ends strings is empty. -/
def repeated (character : UInt8) (count : Nat) : List UInt8 :=
  if character = 0 then [] else List.replicate count character

theorem stringRepeat_spec (character : UInt8) {count : Nat} (hcount : count < 2 ^ 31 - 1) :
    Spec 1 (stringRepeat allocator character count)
      fun p => (isText p (repeated character count) : Assertion (Buffer W)) := by
  have hsize : ((count : Int) + 1).toNat = count + 1 := by omega
  rw [stringRepeat, if_neg (by omega), if_neg (by omega), hsize, Int.toNat_natCast]
  refine (malloc_spec allocator _).bind fun p => (repeatLoop_spec p character count 0).bind fun _ => Spec.ret_of_le ?_
  rw [Nat.zero_add, repeated]
  split_ifs with hzero
  · subst hzero
    cases count with
    | zero => exact cell_le_isText p List.not_mem_nil []
    | succ count => exact cell_le_isText p List.not_mem_nil _
  · exact cell_le_isText p (fun h => hzero (List.eq_of_mem_replicate h).symm) []

/-! Loops over the characters of a string. -/

theorem getChar_text (p : Nat) (pre todo : List UInt8) :
    Spec (isText p (pre ++ todo)) (getChar p pre.length)
      fun r => such (r = todo.headD 0) (isText p (pre ++ todo) : Assertion (Buffer W)) := by
  refine Spec.any fun rest => Spec.such fun hnul => ?_
  have hget : (pre ++ todo ++ 0 :: rest)[pre.length]? = some (todo.headD 0) := by
    rw [List.append_assoc, List.getElem?_append_right le_rfl, Nat.sub_self]
    cases todo with
    | nil => rfl
    | cons c todo => rfl
  exact (getChar_spec hget).post fun r => such_le fun hr => le_such hr (cell_le_isText p hnul rest)

def Changes (closure : Nat → Nat → Code W Unit) (f : UInt8 → UInt8) : Prop :=
  ∀ p (bytes : List UInt8) (index : Nat) (c : UInt8), bytes[index]? = some c →
    Spec (cell p (.chars bytes)) (closure p index) fun _ => cell p (.chars (bytes.set index (f c)))

theorem changes_element (f : UInt8 → UInt8) :
    Changes (fun text index => getChar (W := W) text index >>= fun c => setChar text index (f c)) f := by
  intro p bytes index c hc
  refine (getChar_spec hc).bind fun r => Spec.such ?_
  rintro rfl
  exact setChar_spec p (List.getElem?_eq_some_iff.mp hc).1 _

theorem Changes.at_char {closure : Nat → Nat → Code W Unit} {f : UInt8 → UInt8} (hf : Changes closure f) {c : UInt8}
    (hc : f c ≠ 0) (p : Nat) (pre todo : List UInt8) :
    Spec (isText p (pre ++ c :: todo)) (closure p pre.length) fun _ => isText p (pre ++ f c :: todo) := by
  refine Spec.any fun rest => Spec.such fun hnul => ?_
  have hget : (pre ++ c :: todo ++ 0 :: rest)[pre.length]? = some c := by simp
  refine (hf p _ _ c hget).post fun _ => ?_
  have hset : (pre ++ c :: todo ++ 0 :: rest).set pre.length (f c) = pre ++ f c :: todo ++ 0 :: rest := by simp
  rw [hset]
  refine cell_le_isText p (fun h => ?_) rest
  rcases List.mem_append.mp h with h | h
  · exact hnul (List.mem_append_left _ h)
  · rcases List.mem_cons.mp h with h | h
    · exact hc h.symm
    · exact hnul (List.mem_append_right _ (List.mem_cons_of_mem _ h))

theorem stringDoLoop_spec {closure : Nat → Nat → Code W Unit} {f : UInt8 → UInt8} (hf : Changes closure f)
    (hnul : ∀ c, c ≠ 0 → f c ≠ 0) (p start : Nat) (pre todo : List UInt8) {turns i : Nat}
    (hstart : pre.length = start + i) (hturns : todo.length < turns) :
    Spec (isText p (pre ++ todo)) (stringDoLoop p start closure turns i) fun _ => isText p (pre ++ todo.map f) := by
  induction todo generalizing pre turns i with
  | nil =>
    cases turns with
    | zero => exact absurd hturns (Nat.not_lt_zero _)
    | succ turns =>
      rw [stringDoLoop, ← hstart]
      refine (getChar_text p pre []).bind fun r => Spec.such ?_
      rintro rfl
      exact Spec.ret_of_le le_rfl
  | cons c todo ih =>
    cases turns with
    | zero => exact absurd hturns (Nat.not_lt_zero _)
    | succ turns =>
      rw [stringDoLoop, ← hstart]
      refine Spec.pre (Spec.such fun hmem => ?_) (isText_le p _)
      have hc : c ≠ 0 := fun h => hmem (List.mem_append_right _ (h ▸ List.mem_cons_self))
      refine (getChar_text p pre (c :: todo)).bind fun r => Spec.such ?_
      rintro rfl
      rw [if_pos hc]
      refine (hf.at_char (hnul r hc) p pre todo).bind fun _ => ?_
      have hnext : (pre ++ [f r]).length = start + (i + 1) := by
        rw [List.length_append, List.length_singleton, hstart, Nat.add_assoc]
      have hstep := ih (pre ++ [f r]) hnext (Nat.lt_of_succ_lt_succ hturns)
      simp only [List.append_assoc, List.singleton_append] at hstep
      exact hstep

theorem toupper_ne_zero {c : UInt8} (hc : c ≠ 0) : toupper c ≠ 0 := by
  rw [toupper]
  split_ifs with h
  · grind
  · exact hc

theorem tolower_ne_zero {c : UInt8} (hc : c ≠ 0) : tolower c ≠ 0 := by
  rw [tolower]
  split_ifs with h
  · grind
  · exact hc

theorem stringDo_spec {closure : Nat → Nat → Code W Unit} {f : UInt8 → UInt8} (hf : Changes closure f)
    (hnul : ∀ c, c ≠ 0 → f c ≠ 0) (p : Nat) (pre todo : List UInt8) (hlt : todo.length < 2 ^ 31) :
    Spec (isText p (pre ++ todo)) (stringDo p pre.length closure) fun _ => isText p (pre ++ todo.map f) :=
  stringDoLoop_spec hf hnul p pre.length pre todo rfl hlt

theorem stringToUpper_spec (p : Nat) (hlt : text.length < 2 ^ 31) :
    Spec (isText p text) (stringToUpper p 0) fun _ => (isText p (text.map toupper) : Assertion (Buffer W)) :=
  stringDo_spec (changes_element toupper) (fun _ => toupper_ne_zero) p [] text hlt

theorem stringToLower_spec (p : Nat) (pre todo : List UInt8) (hlt : todo.length < 2 ^ 31) :
    Spec (isText p (pre ++ todo)) (stringToLower p pre.length)
      fun _ => (isText p (pre ++ todo.map tolower) : Assertion (Buffer W)) :=
  stringDo_spec (changes_element tolower) (fun _ => tolower_ne_zero) p pre todo hlt

def capitalize : List UInt8 → List UInt8
  | [] => []
  | c :: text => toupper c :: text.map tolower

theorem stringCapitalized_spec (p : Nat) (hlt : text.length < 2 ^ 31) :
    Spec (isText p text) (stringCapitalized p) fun _ => (isText p (capitalize text) : Assertion (Buffer W)) := by
  refine ((strlen_spec p text).bind fun r => Spec.such ?_ : Spec _ (stringIsEmpty p) fun r =>
    such (r = text.isEmpty) (isText p text)).bind fun empty => Spec.such ?_
  · rintro rfl
    refine Spec.ret_of_le (le_such ?_ le_rfl)
    cases text with
    | nil => rfl
    | cons c text => rfl
  · rintro rfl
    cases text with
    | nil => exact Spec.ret_of_le le_rfl
    | cons c text =>
      refine Spec.pre (Spec.such fun hmem => ?_) (isText_le p _)
      have hc : c ≠ 0 := fun h => hmem (h ▸ List.mem_cons_self)
      refine ((changes_element toupper).at_char (toupper_ne_zero hc) p [] text).bind fun _ => ?_
      refine (strlen_spec p _).bind fun r => Spec.such ?_
      rintro rfl
      split_ifs with htwo
      · exact stringToLower_spec p [toupper c] text (Nat.lt_of_succ_lt hlt)
      · cases text with
        | nil => exact Spec.ret_of_le le_rfl
        | cons d text => simp at htwo

theorem trimLeftLoop_spec (p : Nat) (pre todo : List UInt8) {fuel : Nat} (hfuel : todo.length < fuel) :
    Spec (isText p (pre ++ todo)) (trimLeftLoop p fuel pre.length) fun r =>
      such (r ≤ (pre ++ todo).length ∧ (pre ++ todo).drop r = todo.dropWhile isblank)
        (isText p (pre ++ todo) : Assertion (Buffer W)) := by
  induction todo generalizing pre fuel with
  | nil =>
    cases fuel with
    | zero => exact absurd hfuel (Nat.not_lt_zero _)
    | succ fuel =>
      refine (getChar_text p pre []).bind fun r => Spec.such ?_
      rintro rfl
      refine Spec.ret_of_le (le_such ?_ le_rfl)
      simp
  | cons c todo ih =>
    cases fuel with
    | zero => exact absurd hfuel (Nat.not_lt_zero _)
    | succ fuel =>
      refine (getChar_text p pre (c :: todo)).bind fun r => Spec.such ?_
      rintro rfl
      rw [List.dropWhile_cons]
      split_ifs with hblank
      · have hstep := ih (pre ++ [r]) (Nat.lt_of_succ_lt_succ hfuel)
        simp only [List.append_assoc, List.singleton_append, List.length_append, List.length_singleton] at hstep
        simpa only [List.length_append] using hstep
      · refine Spec.ret_of_le (le_such ⟨?_, ?_⟩ le_rfl)
        · simp
        · simp

theorem stringTrimLeft_spec (p : Nat) (text : List UInt8) :
    Spec (isText p text) (stringTrimLeft allocator p) fun q => isText q (text.dropWhile isblank) := by
  refine Spec.any fun rest => Spec.such fun hnul => (readBuffer_spec p _).bind fun bytes => Spec.such ?_
  rintro rfl
  have hfuel : text.length < (text ++ 0 :: rest).length + 1 := by
    rw [List.length_append]
    omega
  refine ((trimLeftLoop_spec p [] text hfuel).pre (cell_le_isText p hnul rest)).bind fun r => Spec.such ?_
  rintro ⟨hr, hdrop⟩
  refine (stringDuplicate_spec p hr).bind fun q => ?_
  rw [List.nil_append] at hdrop
  rw [List.nil_append, hdrop, mul_comm]
  exact (freeText_spec p text).release fun _ => Spec.ret_of_le le_rfl

/-- Each turn ends the string one character earlier. -/
theorem trimRightLoop_spec (p : Nat) (text : List UInt8) :
    Spec (isText p text) (trimRightLoop p text.length)
      fun _ => (isText p (text.rdropWhile isspace) : Assertion (Buffer W)) := by
  induction text using List.reverseRecOn with
  | nil => exact Spec.ret_of_le le_rfl
  | append_singleton text c ih =>
    rw [List.length_append, List.length_singleton, List.rdropWhile_concat]
    refine (getChar_text p text [c]).bind fun r => Spec.such ?_
    rintro rfl
    split_ifs with hspace
    · have hset : Spec (isText p (text ++ [r])) (setChar p text.length 0)
          fun _ => (isText p text : Assertion (Buffer W)) := by
        refine Spec.any fun rest => Spec.such fun hnul => (setChar_spec p ?_ 0).post fun _ => ?_
        · simp
        · have hend : (text ++ [r] ++ 0 :: rest).set text.length 0 = text ++ 0 :: 0 :: rest := by simp
          rw [hend]
          exact cell_le_isText p (fun h => hnul (List.mem_append_left _ h)) _
      exact hset.bind fun _ => ih
    · exact Spec.ret_of_le le_rfl

theorem int_length {length : Nat} (hlt : length < 2 ^ 31) :
    (((length : Int) - 1).bmod (2 ^ 32) + 1).toNat = length := by
  rw [Int.bmod_eq_of_le_mul_two (by omega) (by omega)]
  omega

theorem stringTrimRight_spec (p : Nat) (hlt : text.length < 2 ^ 31) :
    Spec (isText p text) (stringTrimRight allocator junk p) fun q => isText q (text.rdropWhile isspace) := by
  refine (strlen_spec p text).bind fun r => Spec.such ?_
  rintro rfl
  rw [int_length hlt]
  refine (trimRightLoop_spec p text).bind fun _ => (strlen_spec p _).bind fun r => Spec.such ?_
  rintro rfl
  refine Spec.any fun rest => Spec.such fun hnul => (realloc_spec p _ _).post fun q => ?_
  have hshrunk := takeD_text junk (text.rdropWhile isspace) rest 0
  rw [Nat.add_zero] at hshrunk
  rw [hshrunk]
  exact cell_le_isText q hnul _

theorem length_dropWhile_lt (hlt : text.length < 2 ^ 31) : (text.dropWhile isblank).length < 2 ^ 31 :=
  (List.dropWhile_suffix isblank).length_le.trans_lt hlt

theorem stringTrim_spec (p : Nat) (hlt : text.length < 2 ^ 31) :
    Spec (isText p text) (stringTrim allocator junk p)
      fun q => isText q ((text.dropWhile isblank).rdropWhile isspace) :=
  (stringTrimLeft_spec p text).bind fun q => stringTrimRight_spec q (length_dropWhile_lt hlt)

end Specs

/-! Calls that only read. -/

section Tests

variable {W : Type} {P : Assertion (Buffer W)} {p q : Nat} {text text' : List UInt8}

def Reads (P : Assertion (Buffer W)) (p : Nat) (text : List UInt8) : Prop :=
  ∀ index ≤ text.length, Spec P (getString p index) fun r => such (r = text.drop index) P

theorem Reads.strlen (hp : Reads P p text) : Spec P (strlen p) fun r => such (r = text.length) P := by
  refine (hp 0 (Nat.zero_le _)).bind fun r => Spec.such ?_
  rintro rfl
  exact Spec.ret_of_le (le_such rfl le_rfl)

theorem stringIsEmpty_spec (hp : Reads P p text) : Spec P (stringIsEmpty p) fun r => such (r = text.isEmpty) P := by
  refine hp.strlen.bind fun r => Spec.such ?_
  rintro rfl
  refine Spec.ret_of_le (le_such ?_ le_rfl)
  cases text with
  | nil => rfl
  | cons c text => rfl

theorem stringStartsWith_spec (hp : Reads P p text) (hq : Reads P q text') :
    Spec P (stringStartsWith p q) fun r => such (r = decide (text' <+: text)) P := by
  refine hq.strlen.bind fun r => Spec.such ?_
  rintro rfl
  refine (hp 0 (Nat.zero_le _)).bind fun r => Spec.such ?_
  rintro rfl
  refine (hq 0 (Nat.zero_le _)).bind fun r => Spec.such ?_
  rintro rfl
  refine Spec.ret_of_le (le_such ?_ le_rfl)
  rw [List.take_length, Bool.eq_iff_iff, beq_iff_eq, decide_eq_true_iff,
    List.prefix_iff_eq_take]
  exact eq_comm

theorem stringEndsWith_spec (hp : Reads P p text) (hq : Reads P q text') (hlt : text.length < 2 ^ 31) :
    Spec P (stringEndsWith p q) fun r => such (r = decide (text' <:+ text)) P := by
  refine hp.strlen.bind fun r => Spec.such ?_
  rintro rfl
  refine hq.strlen.bind fun r => Spec.such ?_
  rintro rfl
  split_ifs with hshort
  · refine Spec.ret_of_le (le_such ?_ le_rfl)
    exact (decide_eq_false fun h => absurd h.length_le (Nat.not_le_of_lt hshort)).symm
  · have hindex : ((text.length : Int) - text'.length).bmod (2 ^ 32) = ((text.length - text'.length : Nat) : Int) := by
      rw [Int.bmod_eq_of_le_mul_two (by omega) (by omega)]
      omega
    rw [hindex, if_neg (by omega), Int.toNat_natCast]
    refine (hp _ (Nat.sub_le _ _)).bind fun r => Spec.such ?_
    rintro rfl
    refine (hq 0 (Nat.zero_le _)).bind fun r => Spec.such ?_
    rintro rfl
    refine Spec.ret_of_le (le_such ?_ le_rfl)
    rw [Bool.eq_iff_iff, beq_iff_eq, decide_eq_true_iff, List.suffix_iff_eq_drop]
    exact eq_comm

theorem stringEqualsIgnoreCase_spec (hp : Reads P p text) (hq : Reads P q text') :
    Spec P (stringEqualsIgnoreCase p q) fun r => such (r = (text.map tolower == text'.map tolower)) P := by
  refine (hp 0 (Nat.zero_le _)).bind fun r => Spec.such ?_
  rintro rfl
  refine (hq 0 (Nat.zero_le _)).bind fun r => Spec.such ?_
  rintro rfl
  exact Spec.ret_of_le (le_such rfl le_rfl)

end Tests

end Strings

end FuseExt2
