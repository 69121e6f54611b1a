import Mathlib

/-! Ranges of a list and their replacement in place: what reaches over the end of the
list is cut off. -/

namespace Slices

variable {β : Type*} {l d d' : List β} {o n j : Nat}

def slice (l : List β) (o n : Nat) : List β := (l.drop o).take n

/-- `l` with `d` in place of what it has from position `o` on. -/
def splice (l : List β) (o : Nat) (d : List β) : List β :=
  l.take o ++ d.take (l.length - o) ++ l.drop (o + d.length)

@[simp] theorem slice_length (l : List β) (o n : Nat) : (slice l o n).length = min n (l.length - o) := by
  rw [slice, List.length_take, List.length_drop]

theorem slice_getElem? (hj : j < n) : (slice l o n)[j]? = l[o + j]? := by
  rw [slice, List.getElem?_take_of_lt hj, List.getElem?_drop]

theorem slice_append (l : List β) (o m n : Nat) : slice l o (m + n) = slice l o m ++ slice l (o + m) n := by
  rw [slice, slice, slice, List.take_add, List.drop_drop]

@[simp] theorem splice_length (l : List β) (o : Nat) (d : List β) : (splice l o d).length = l.length := by
  simp only [splice, List.length_append, List.length_take, List.length_drop]
  omega

theorem splice_getElem?_of_mem (hl : j < l.length) (ho : o ≤ j) (hd : j < o + d.length) :
    (splice l o d)[j]? = d[j - o]? := by
  have hlen : (l.take o).length = o := by
    rw [List.length_take]
    omega
  have hpos : j - o < (d.take (l.length - o)).length := by
    rw [List.length_take]
    omega
  rw [splice, List.append_assoc, List.getElem?_append_right (by omega), hlen, List.getElem?_append_left hpos,
    List.getElem?_take_of_lt (by omega)]

theorem splice_getElem?_of_not_mem (h : j < o ∨ o + d.length ≤ j) : (splice l o d)[j]? = l[j]? := by
  by_cases hl : j < l.length
  · rcases h with h | h
    · have hlen : j < (l.take o).length := by
        rw [List.length_take]
        omega
      rw [splice, List.append_assoc, List.getElem?_append_left hlen, List.getElem?_take_of_lt h]
    · have hlen : (l.take o ++ d.take (l.length - o)).length = o + d.length := by
        simp only [List.length_append, List.length_take]
        omega
      rw [splice, List.getElem?_append_right (by omega), hlen, List.getElem?_drop]
      congr 1
      omega
  · rw [List.getElem?_eq_none (by simpa using hl), List.getElem?_eq_none (by simpa using hl)]

theorem slice_splice_self (h : o + d.length ≤ l.length) : slice (splice l o d) o d.length = d := by
  apply List.ext_getElem?
  intro j
  by_cases hj : j < d.length
  · rw [slice_getElem? hj, splice_getElem?_of_mem (by omega) (by omega) (by omega), Nat.add_sub_cancel_left]
  · rw [List.getElem?_eq_none (by simp; omega), List.getElem?_eq_none (by omega)]

theorem splice_splice (l : List β) (o : Nat) (d d' : List β) :
    splice (splice l o d) (o + d.length) d' = splice l o (d ++ d') := by
  apply List.ext_getElem?
  intro j
  by_cases hl : j < l.length
  · by_cases h' : o + d.length ≤ j ∧ j < o + d.length + d'.length
    · rw [splice_getElem?_of_mem (by simpa using hl) h'.1 h'.2,
        splice_getElem?_of_mem hl (by omega) (by rw [List.length_append]; omega),
        List.getElem?_append_right (by omega)]
      congr 1
      omega
    · rw [splice_getElem?_of_not_mem (by omega)]
      by_cases h : o ≤ j ∧ j < o + d.length
      · rw [splice_getElem?_of_mem hl h.1 h.2, splice_getElem?_of_mem hl h.1 (by rw [List.length_append]; omega),
          List.getElem?_append_left (by omega)]
      · rw [splice_getElem?_of_not_mem (by omega), splice_getElem?_of_not_mem (by rw [List.length_append]; omega)]
  · rw [List.getElem?_eq_none (by simpa using hl), List.getElem?_eq_none (by simpa using hl)]

/-! Consecutive pieces. -/

def pieces : Nat → List (List β) → List (Nat × List β)
  | _, [] => []
  | o, d :: ds => (o, d) :: pieces (o + d.length) ds

def ranges : Nat → List Nat → List (Nat × Nat)
  | _, [] => []
  | o, n :: ns => (o, n) :: ranges (o + n) ns

theorem foldl_splice_pieces (l : List β) (o : Nat) (ds : List (List β)) :
    (pieces o ds).foldl (fun l piece => splice l piece.1 piece.2) l = splice l o ds.flatten := by
  induction ds generalizing l o with
  | nil =>
    apply List.ext_getElem?
    intro j
    exact (splice_getElem?_of_not_mem (by simp; omega)).symm
  | cons d ds ih => rw [pieces, List.foldl_cons, ih, List.flatten_cons, splice_splice]

theorem flatten_slice_ranges (l : List β) (o : Nat) (ns : List Nat) :
    ((ranges o ns).map fun range => slice l range.1 range.2).flatten = slice l o ns.sum := by
  induction ns generalizing o with
  | nil => rfl
  | cons n ns ih => rw [ranges, List.map_cons, List.flatten_cons, ih, List.sum_cons, slice_append]

end Slices
