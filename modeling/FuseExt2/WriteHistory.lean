import Mathlib

/-! Histories of partial overwrites. A write gives a value to the keys it
covers, and the last write that covers a key decides the value found there. -/

namespace WriteHistory

variable {κ β ω σ ε : Type*}

/-- The value given to `k` by the last write of the history that covers it. -/
def latest (covers : ω → κ → Option β) : List ω → κ → Option β
  | [], _ => none
  | w :: ws, k => (latest covers ws k).or (covers w k)

theorem latest_eq_none_iff {covers : ω → κ → Option β} {ws : List ω} {k : κ} :
    latest covers ws k = none ↔ ∀ w ∈ ws, covers w k = none := by
  induction ws with
  | nil => simp [latest]
  | cons w ws ih => simp [latest, ih, and_comm]

theorem latest_eq_some_iff {covers : ω → κ → Option β} {ws : List ω} {k : κ} {v : β} :
    latest covers ws k = some v ↔
      ∃ before w after, ws = before ++ w :: after ∧ covers w k = some v ∧ ∀ w' ∈ after, covers w' k = none := by
  induction ws with
  | nil => simp [latest]
  | cons w ws ih =>
    rw [latest, Option.or_eq_some_iff, ih, latest_eq_none_iff]
    constructor
    · intro h
      rcases h with ⟨before, w', after, rfl, hw, hafter⟩ | ⟨hafter, hw⟩
      · exact ⟨w :: before, w', after, rfl, hw, hafter⟩
      · exact ⟨[], w, ws, rfl, hw, hafter⟩
    · intro h
      obtain ⟨before, w', after, hsplit, hw, hafter⟩ := h
      cases before with
      | nil =>
        obtain ⟨rfl, rfl⟩ := List.cons.inj hsplit
        exact Or.inr ⟨hafter, hw⟩
      | cons first before =>
        obtain ⟨rfl, rfl⟩ := List.cons.inj hsplit
        exact Or.inl ⟨before, w', after, rfl, hw, hafter⟩

def overwrite (covers : ω → κ → Option β) (s : κ → β) (w : ω) : κ → β :=
  fun k => (covers w k).getD (s k)

theorem foldl_overwrite (covers : ω → κ → Option β) (s : κ → β) (ws : List ω) (k : κ) :
    ws.foldl (overwrite covers) s k = (latest covers ws k).getD (s k) := by
  induction ws generalizing s with
  | nil => rfl
  | cons w ws ih =>
    rw [List.foldl_cons, ih, latest]
    cases latest covers ws k <;> simp [overwrite]

theorem latest_congr {κ' : Type*} {covers : ω → κ → Option β} {covers' : ω → κ' → Option β}
    {ws : List ω} {k : κ} {k' : κ'} (h : ∀ w ∈ ws, covers w k = covers' w k') :
    latest covers ws k = latest covers' ws k' := by
  induction ws with
  | nil => rfl
  | cons w ws ih =>
    rw [latest, latest, ih (fun v hv => h v (by simp [hv])), h w (by simp)]

def run (step : σ → ω → Except ε σ) : σ → List ω → Except ε σ
  | s, [] => .ok s
  | s, w :: ws => match step s w with
    | .ok s' => run step s' ws
    | .error e => .error e

/-- If every step from an invariant state succeeds, keeps the invariant and
overwrites the store it stands for, then so does every run. -/
theorem run_overwrites {step : σ → ω → Except ε σ} {covers : ω → κ → Option β}
    {store : σ → κ → β} {inv : σ → Prop} {ok : ω → Prop}
    (hstep : ∀ s w, inv s → ok w →
      ∃ s', step s w = .ok s' ∧ inv s' ∧ store s' = overwrite covers (store s) w)
    {s : σ} (hs : inv s) {ws : List ω} (hws : ∀ w ∈ ws, ok w) :
    ∃ s', run step s ws = .ok s' ∧ inv s' ∧
      ∀ k, store s' k = (latest covers ws k).getD (store s k) := by
  suffices h : ∃ s', run step s ws = .ok s' ∧ inv s' ∧
      store s' = ws.foldl (overwrite covers) (store s) by
    obtain ⟨s', hr, hi, he⟩ := h
    exact ⟨s', hr, hi, fun k => by rw [he, foldl_overwrite]⟩
  induction ws generalizing s with
  | nil => exact ⟨s, rfl, hs, rfl⟩
  | cons w ws ih =>
    obtain ⟨t, ht, hti, hte⟩ := hstep s w hs (hws w (by simp))
    obtain ⟨s', hr, hi, he⟩ := ih hti (fun v hv => hws v (by simp [hv]))
    refine ⟨s', ?_, hi, ?_⟩
    · simp only [run, ht, hr]
    · rw [he, hte, List.foldl_cons]

end WriteHistory
