import Mathlib

/-! The tokens of a list: its maximal runs of elements that are no separators,
and the scan that takes them off one by one. -/

namespace Tokens

variable {α : Type*} {p : α → Bool}

def tokens (p : α → Bool) (l : List α) : List (List α) := (l.splitOnP p).filter (fun t => !t.isEmpty)

@[simp] theorem tokens_nil : tokens p [] = [] := rfl

theorem tokens_append_cons (l r : List α) {s : α} (hs : p s = true) :
    tokens p (l ++ s :: r) = tokens p l ++ tokens p r := by
  rw [tokens, List.splitOnP_append_cons l r hs, List.filter_append]
  rfl

theorem tokens_cons {s : α} (hs : p s = true) (r : List α) : tokens p (s :: r) = tokens p r := by
  have h := tokens_append_cons [] r hs
  rw [tokens_nil, List.nil_append, List.nil_append] at h
  exact h

theorem tokens_of_forall {t : List α} (hne : t ≠ []) (ht : ∀ x ∈ t, p x = false) : tokens p t = [t] := by
  rw [tokens, List.splitOnP_eq_singleton ht]
  cases t with
  | nil => exact absurd rfl hne
  | cons x t => rfl

theorem mem_of_mem_splitOnP {l t : List α} {x : α} (ht : t ∈ l.splitOnP p) (hx : x ∈ t) :
    x ∈ l ∧ p x = false := by
  induction l generalizing t with
  | nil =>
    rw [List.splitOnP_nil, List.mem_singleton] at ht
    rw [ht] at hx
    exact absurd hx List.not_mem_nil
  | cons y l ih =>
    have hlift : x ∈ l ∧ p x = false → x ∈ y :: l ∧ p x = false := fun h => ⟨List.mem_cons_of_mem y h.1, h.2⟩
    rw [List.splitOnP_cons_eq_if_modifyHead] at ht
    cases hy : p y with
    | true =>
      rw [if_pos hy] at ht
      rcases List.mem_cons.mp ht with rfl | ht
      · exact absurd hx List.not_mem_nil
      · exact hlift (ih ht hx)
    | false =>
      rw [if_neg (by rw [hy]; exact Bool.false_ne_true)] at ht
      cases hs : l.splitOnP p with
      | nil => exact absurd hs (List.splitOnP_ne_nil p l)
      | cons first rest =>
        rw [hs, List.modifyHead_cons] at ht
        rcases List.mem_cons.mp ht with rfl | ht
        · rcases List.mem_cons.mp hx with rfl | hx
          · exact ⟨List.mem_cons_self, hy⟩
          · exact hlift (ih (hs ▸ List.mem_cons_self) hx)
        · exact hlift (ih (hs ▸ List.mem_cons_of_mem first ht) hx)

theorem mem_of_mem_tokens {l t : List α} {x : α} (ht : t ∈ tokens p l) (hx : x ∈ t) : x ∈ l :=
  (mem_of_mem_splitOnP (List.mem_filter.mp ht).1 hx).1

theorem not_separator_of_mem_tokens {l t : List α} {x : α} (ht : t ∈ tokens p l) (hx : x ∈ t) : p x = false :=
  (mem_of_mem_splitOnP (List.mem_filter.mp ht).1 hx).2

theorem ne_nil_of_mem_tokens {l t : List α} (ht : t ∈ tokens p l) : t ≠ [] := by
  have h := (List.mem_filter.mp ht).2
  rintro rfl
  cases h

theorem tokens_dropWhile (l : List α) : tokens p (l.dropWhile p) = tokens p l := by
  induction l with
  | nil => rfl
  | cons x l ih =>
    cases hx : p x with
    | true => rw [List.dropWhile_cons_of_pos hx, ih, tokens_cons hx]
    | false => rw [List.dropWhile_cons_of_neg (by simp [hx])]

def nextToken (p : α → Bool) (l : List α) : Option (List α × List α) :=
  match l.dropWhile p with
  | [] => none
  | x :: rest => some ((x :: rest).takeWhile (fun y => !p y), ((x :: rest).dropWhile (fun y => !p y)).tail)

theorem tokens_of_nextToken_none {l : List α} (h : nextToken p l = none) : tokens p l = [] := by
  rw [← tokens_dropWhile]
  cases hd : l.dropWhile p with
  | nil => rfl
  | cons x rest =>
    rw [nextToken, hd] at h
    cases h

theorem tokens_of_nextToken_some {l t r : List α} (h : nextToken p l = some (t, r)) :
    tokens p l = t :: tokens p r ∧ r.length < l.length := by
  have hlen : (l.dropWhile p).length ≤ l.length := (List.dropWhile_suffix p).length_le
  rw [← tokens_dropWhile]
  cases hd : l.dropWhile p with
  | nil =>
    rw [nextToken, hd] at h
    cases h
  | cons x rest =>
    have hx : p x = false := by
      have h := List.head?_dropWhile_not p l
      rw [hd] at h
      exact h
    rw [nextToken, hd] at h
    obtain ⟨rfl, rfl⟩ := Prod.mk.inj (Option.some.inj h)
    have hne : (x :: rest).takeWhile (fun y => !p y) ≠ [] := by simp [hx]
    have hall : ∀ y ∈ (x :: rest).takeWhile (fun y => !p y), p y = false := by
      intro y hy
      simpa using List.mem_takeWhile_imp hy
    have hsplit := List.takeWhile_append_dropWhile (p := fun y => !p y) (l := x :: rest)
    cases hr : (x :: rest).dropWhile (fun y => !p y) with
    | nil =>
      rw [hr, List.append_nil] at hsplit
      rw [hsplit] at hall
      constructor
      · rw [hsplit, tokens_of_forall (List.cons_ne_nil x rest) hall]
        rfl
      · rw [hd] at hlen
        exact Nat.lt_of_lt_of_le (Nat.succ_pos _) hlen
    | cons s after =>
      have hs : p s = true := by
        have h := List.head?_dropWhile_not (fun y => !p y) (x :: rest)
        rw [hr] at h
        simpa using h
      rw [hr] at hsplit
      constructor
      · calc tokens p (x :: rest)
            = tokens p ((x :: rest).takeWhile (fun y => !p y) ++ s :: after) := by rw [hsplit]
          _ = tokens p ((x :: rest).takeWhile (fun y => !p y)) ++ tokens p after := tokens_append_cons _ _ hs
          _ = (x :: rest).takeWhile (fun y => !p y) :: tokens p after := by
            rw [tokens_of_forall hne hall, List.singleton_append]
      · have hlen' := congrArg List.length hsplit
        rw [List.length_append, List.length_cons] at hlen'
        rw [hd] at hlen
        simp only [List.tail_cons]
        omega

end Tokens
