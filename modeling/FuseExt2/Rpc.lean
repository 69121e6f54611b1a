import Mathlib

/-! Calls to a server that handles one request at a time. A client waits for the
answer to its call before it makes another one; what it does with the answer ends
the call or leaves it waiting for ever. -/

namespace Rpc

/-- `handle` has no result where the server crashes; `ends` tells whether the caller
goes on once the answer has arrived in a given way. -/
structure Service (S Q R E : Type*) where
  handle : S → Q → Option (R × S)
  ends : Q → R → E → Bool

inductive Phase (Q R : Type*)
  | idle
  | sent (request : Q)
  | answered (request : Q) (response : R)
  | stuck (request : Q) (response : R)

/-- `called`, `served` and `returned` record the calls that were made, answered and
ended, in the order in which that happened. -/
structure World (ι S Q R : Type*) where
  server : Option S
  phase : ι → Phase Q R
  called : List (ι × Q)
  served : List (ι × Q × R)
  returned : List (ι × Q × R)

def World.initial (ι : Type*) {S : Type*} (Q R : Type*) (s : S) : World ι S Q R where
  server := some s
  phase := fun _ => .idle
  called := []
  served := []
  returned := []

section Sessions

variable {ι S Q R E : Type*} [DecidableEq ι]

inductive Step (service : Service S Q R E) : World ι S Q R → World ι S Q R → Prop
  | call {w : World ι S Q R} {c : ι} (q : Q) (hc : w.phase c = .idle) :
      Step service w {
        w with
        phase := Function.update w.phase c (.sent q)
        called := w.called ++ [(c, q)] }
  | serve {w : World ι S Q R} {c : ι} {q : Q} {s s' : S} {r : R} (hc : w.phase c = .sent q)
      (hs : w.server = some s) (hr : service.handle s q = some (r, s')) :
      Step service w {
        w with
        server := some s'
        phase := Function.update w.phase c (.answered q r)
        served := w.served ++ [(c, q, r)] }
  | crash {w : World ι S Q R} {c : ι} {q : Q} {s : S} (hc : w.phase c = .sent q) (hs : w.server = some s)
      (hr : service.handle s q = none) : Step service w { w with server := none }
  | deliver {w : World ι S Q R} {c : ι} {q : Q} {r : R} (hc : w.phase c = .answered q r) (e : E)
      (he : service.ends q r e = true) :
      Step service w {
        w with
        phase := Function.update w.phase c .idle
        returned := w.returned ++ [(c, q, r)] }
  | hang {w : World ι S Q R} {c : ι} {q : Q} {r : R} (hc : w.phase c = .answered q r) (e : E)
      (he : service.ends q r e = false) :
      Step service w { w with phase := Function.update w.phase c (.stuck q r) }

abbrev Runs (service : Service S Q R E) := Relation.ReflTransGen (Step (ι := ι) service)

/-! What one client has seen. -/

structure View (Q R : Type*) where
  phase : Phase Q R
  called : List Q
  served : List (Q × R)
  returned : List (Q × R)

def ofClient {α : Type*} (c : ι) (history : List (ι × α)) : List α :=
  history.filterMap fun x => if x.1 = c then some x.2 else none

def World.view (w : World ι S Q R) (c : ι) : View Q R where
  phase := w.phase c
  called := ofClient c w.called
  served := ofClient c w.served
  returned := ofClient c w.returned

inductive ViewStep (service : Service S Q R E) : View Q R → View Q R → Prop
  | call {v : View Q R} (q : Q) (h : v.phase = .idle) :
      ViewStep service v { v with phase := .sent q, called := v.called ++ [q] }
  | serve {v : View Q R} {q : Q} (r : R) (h : v.phase = .sent q) :
      ViewStep service v { v with phase := .answered q r, served := v.served ++ [(q, r)] }
  | deliver {v : View Q R} {q : Q} {r : R} (h : v.phase = .answered q r) (e : E) (he : service.ends q r e = true) :
      ViewStep service v { v with phase := .idle, returned := v.returned ++ [(q, r)] }
  | hang {v : View Q R} {q : Q} {r : R} (h : v.phase = .answered q r) (e : E) (he : service.ends q r e = false) :
      ViewStep service v { v with phase := .stuck q r }

section OfClient

variable {α : Type*} {c c' : ι}

@[simp] theorem ofClient_append (c : ι) (l l' : List (ι × α)) :
    ofClient c (l ++ l') = ofClient c l ++ ofClient c l' := List.filterMap_append

@[simp] theorem ofClient_singleton_self (c : ι) (a : α) : ofClient c [(c, a)] = [a] := by simp [ofClient]

theorem ofClient_singleton_of_ne (h : c ≠ c') (a : α) : ofClient c' [(c, a)] = [] := by simp [ofClient, h]

theorem mem_ofClient {l : List (ι × α)} {a : α} : a ∈ ofClient c l ↔ (c, a) ∈ l := by
  rw [ofClient, List.mem_filterMap]
  constructor
  · rintro ⟨⟨d, b⟩, hmem, h⟩
    by_cases hd : d = c
    · rw [if_pos hd] at h
      obtain rfl := Option.some.inj h
      exact hd ▸ hmem
    · rw [if_neg hd] at h
      cases h
  · intro h
    exact ⟨(c, a), h, if_pos rfl⟩

end OfClient

variable {service : Service S Q R E} {w w' : World ι S Q R}

theorem Step.view (h : Step service w w') (d : ι) :
    w'.view d = w.view d ∨ ViewStep service (w.view d) (w'.view d) := by
  cases h with
  | @call c q hc =>
    by_cases hd : c = d
    · subst hd
      have hstep : ViewStep service (w.view c) _ := ViewStep.call q hc
      exact Or.inr (by simpa [World.view] using hstep)
    · simp [World.view, ofClient_singleton_of_ne hd, Function.update_of_ne (Ne.symm hd)]
  | @serve c q s s' r hc hs hr =>
    by_cases hd : c = d
    · subst hd
      have hstep : ViewStep service (w.view c) _ := ViewStep.serve r hc
      exact Or.inr (by simpa [World.view] using hstep)
    · simp [World.view, ofClient_singleton_of_ne hd, Function.update_of_ne (Ne.symm hd)]
  | crash hc hs hr => exact Or.inl rfl
  | @deliver c q r hc e he =>
    by_cases hd : c = d
    · subst hd
      have hstep : ViewStep service (w.view c) _ := ViewStep.deliver hc e he
      exact Or.inr (by simpa [World.view] using hstep)
    · simp [World.view, ofClient_singleton_of_ne hd, Function.update_of_ne (Ne.symm hd)]
  | @hang c q r hc e he =>
    by_cases hd : c = d
    · subst hd
      have hstep : ViewStep service (w.view c) _ := ViewStep.hang hc e he
      exact Or.inr (by simpa [World.view] using hstep)
    · simp [World.view, Function.update_of_ne (Ne.symm hd)]

/-! Every client's calls are answered in their order, each at most once. -/

def Phase.outstanding : Phase Q R → List Q
  | .sent q => [q]
  | _ => []

def Phase.undelivered : Phase Q R → List (Q × R)
  | .answered q r => [(q, r)]
  | .stuck q r => [(q, r)]
  | _ => []

structure View.InOrder (v : View Q R) : Prop where
  called : v.called = v.served.map Prod.fst ++ v.phase.outstanding
  served : v.served = v.returned ++ v.phase.undelivered

omit [DecidableEq ι] in
theorem View.InOrder.step {v v' : View Q R} (hv : v.InOrder) (h : ViewStep service v v') : v'.InOrder := by
  obtain ⟨hcalled, hserved⟩ := hv
  cases h with
  | call q h =>
    rw [h] at hcalled hserved
    exact ⟨by simpa [Phase.outstanding] using hcalled, by simpa [Phase.undelivered] using hserved⟩
  | serve r h =>
    rw [h] at hcalled hserved
    exact ⟨by simpa [Phase.outstanding] using hcalled, by simpa [Phase.undelivered] using hserved⟩
  | deliver h e he =>
    rw [h] at hcalled hserved
    exact ⟨by simpa [Phase.outstanding] using hcalled, by simpa [Phase.undelivered] using hserved⟩
  | hang h e he =>
    rw [h] at hcalled hserved
    exact ⟨by simpa [Phase.outstanding] using hcalled, by simpa [Phase.undelivered] using hserved⟩

def InOrder (w : World ι S Q R) : Prop := ∀ c, (w.view c).InOrder

theorem inOrder_initial (s : S) : InOrder (World.initial ι Q R s) := fun _ => ⟨rfl, rfl⟩

theorem InOrder.step (hw : InOrder w) (h : Step service w w') : InOrder w' := by
  intro c
  rcases h.view c with he | hstep
  · rw [he]
    exact hw c
  · exact (hw c).step hstep

theorem InOrder.run (hw : InOrder w) (h : Runs service w w') : InOrder w' := by
  induction h with
  | refl => exact hw
  | tail _ hstep ih => exact ih.step hstep

theorem Runs.histories (h : Runs service w w') :
    ∃ calls answers returns, w'.called = w.called ++ calls ∧ w'.served = w.served ++ answers ∧
      w'.returned = w.returned ++ returns := by
  induction h with
  | refl => exact ⟨[], [], [], by simp⟩
  | tail _ hstep ih =>
    obtain ⟨calls, answers, returns, hcalled, hserved, hreturned⟩ := ih
    cases hstep with
    | @call c q hc =>
      exact ⟨calls ++ [(c, q)], answers, returns, by simp [hcalled], hserved, hreturned⟩
    | @serve c q s s' r hc hs hr =>
      exact ⟨calls, answers ++ [(c, q, r)], returns, hcalled, by simp [hserved], hreturned⟩
    | crash hc hs hr => exact ⟨calls, answers, returns, hcalled, hserved, hreturned⟩
    | @deliver c q r hc e he =>
      exact ⟨calls, answers, returns ++ [(c, q, r)], hcalled, hserved, by simp [hreturned]⟩
    | hang hc e he => exact ⟨calls, answers, returns, hcalled, hserved, hreturned⟩

/-- Real time: a call that has ended before another one is made has been answered
before it. -/
theorem InOrder.realTime (hw : InOrder w) (h : Runs service w w') :
    ∃ calls answers, w'.called = w.called ++ calls ∧ w'.served = w.served ++ answers ∧
      (∀ x ∈ w.returned, x ∈ w.served) ∧
      ∀ c, w.phase c = .idle → ofClient c calls = (ofClient c answers).map Prod.fst ++ (w'.phase c).outstanding := by
  obtain ⟨calls, answers, -, hcalled, hserved, -⟩ := h.histories
  refine ⟨calls, answers, hcalled, hserved, fun x hx => ?_, fun c hc => ?_⟩
  · obtain ⟨c, q, r⟩ := x
    have hserved := (hw c).served
    rw [← mem_ofClient] at hx ⊢
    rw [World.view] at hserved
    simp only at hserved
    rw [hserved]
    exact List.mem_append_left _ hx
  · have hbefore := (hw c).called
    have hafter := (hw.run h c).called
    simp only [World.view, hcalled, hserved, ofClient_append, List.map_append] at hbefore hafter
    rw [hbefore, hc] at hafter
    simpa [Phase.outstanding] using hafter

theorem Runs.returned_ends (h : Runs service w w') (hw : ∀ x ∈ w.returned, ∃ e, service.ends x.2.1 x.2.2 e = true) :
    ∀ x ∈ w'.returned, ∃ e, service.ends x.2.1 x.2.2 e = true := by
  induction h with
  | refl => exact hw
  | tail _ hstep ih =>
    cases hstep with
    | call q hc => exact ih
    | serve hc hs hr => exact ih
    | crash hc hs hr => exact ih
    | deliver hc e he =>
      intro x hx
      rcases List.mem_append.mp hx with hx | hx
      · exact ih x hx
      · obtain rfl := List.mem_singleton.mp hx
        exact ⟨e, he⟩
    | hang hc e he => exact ih

/-! The answers as those of one sequential service. -/

section Sequential

variable {A : Type*} (spec : A → Q → R × A)

def answers : A → List Q → List R
  | _, [] => []
  | a, q :: qs => (spec a q).1 :: answers (spec a q).2 qs

def after (a : A) (qs : List Q) : A := qs.foldl (fun a q => (spec a q).2) a

omit [DecidableEq ι] in
theorem answers_append (a : A) (qs qs' : List Q) :
    answers spec a (qs ++ qs') = answers spec a qs ++ answers spec (after spec a qs) qs' := by
  induction qs generalizing a with
  | nil => rfl
  | cons q qs ih =>
    rw [List.cons_append, answers, answers, ih]
    rfl

omit [DecidableEq ι] in
theorem after_append (a : A) (qs qs' : List Q) : after spec a (qs ++ qs') = after spec (after spec a qs) qs' :=
  List.foldl_append

omit [DecidableEq ι] in
@[simp] theorem answers_length (a : A) (qs : List Q) : (answers spec a qs).length = qs.length := by
  induction qs generalizing a with
  | nil => rfl
  | cons q qs ih => simp [answers, ih]

def World.requests (w : World ι S Q R) : List Q := w.served.map fun x => x.2.1

def World.responses (w : World ι S Q R) : List R := w.served.map fun x => x.2.2

structure Linearized (a : A) (w : World ι S Q R) : Prop where
  inOrder : InOrder w
  legal : w.responses = answers spec a w.requests

omit [DecidableEq ι] in
theorem answers_getElem? (a : A) (qs : List Q) (i : Nat) :
    (answers spec a qs)[i]? = qs[i]?.map fun q => (spec (after spec a (qs.take i)) q).1 := by
  induction qs generalizing a i with
  | nil => rfl
  | cons q qs ih =>
    cases i with
    | zero => rfl
    | succ i => exact ih (spec a q).2 i

variable {spec} in
theorem Linearized.response_eq {a : A} (hlin : Linearized spec a w) {i : Nat} {c : ι} {q : Q} {r : R}
    (hi : w.served[i]? = some (c, q, r)) : r = (spec (after spec a (w.requests.take i)) q).1 := by
  have hlegal := congrArg (fun l => l[i]?) hlin.legal
  simpa [World.responses, World.requests, answers_getElem?, hi] using hlegal

/-- The server does what `spec` does on the admitted requests. -/
def Simulates (service : Service S Q R E) (rep : S → A → Prop) (ok : Q → Prop) : Prop :=
  ∀ s a q, rep s a → ok q → ∃ s', service.handle s q = some ((spec a q).1, s') ∧ rep s' (spec a q).2

variable {spec} {rep : S → A → Prop} {ok : Q → Prop} {a : A}

theorem InOrder.mem_called (hw : InOrder w) {c : ι} {q : Q} (hc : w.phase c = .sent q) : (c, q) ∈ w.called := by
  have hcalled := (hw c).called
  rw [World.view] at hcalled
  simp only [hc, Phase.outstanding] at hcalled
  rw [← mem_ofClient, hcalled]
  exact List.mem_append_right _ (List.mem_singleton_self q)

/-- In every run of admitted calls the server lives, and its answers are those of the
sequential service in the order of serving. -/
theorem Simulates.linearized (hsim : Simulates spec service rep ok) {s : S} (hs : rep s a)
    (h : Runs service (World.initial ι Q R s) w) (hok : ∀ x ∈ w.called, ok x.2) :
    Linearized spec a w ∧ ∃ s', w.server = some s' ∧ rep s' (after spec a w.requests) := by
  induction h with
  | refl => exact ⟨⟨inOrder_initial s, rfl⟩, s, rfl, hs⟩
  | tail _ hstep ih =>
    cases hstep with
    | @call c q hc =>
      obtain ⟨⟨hin, hlegal⟩, hserver⟩ := ih fun x hx => hok x (List.mem_append_left _ hx)
      exact ⟨⟨hin.step (show Step service _ _ from Step.call q hc), hlegal⟩, hserver⟩
    | @serve c q t t' r hc ht hr =>
      obtain ⟨⟨hin, hlegal⟩, t₀, hserver, hrep⟩ := ih hok
      obtain rfl := Option.some.inj (hserver.symm.trans ht)
      obtain ⟨t₁, hhandle, hrep'⟩ := hsim _ _ q hrep (hok _ (hin.mem_called hc))
      obtain ⟨rfl, rfl⟩ := Prod.mk.inj (Option.some.inj (hhandle.symm.trans hr))
      refine ⟨⟨hin.step (Step.serve hc ht hr), ?_⟩, _, rfl, ?_⟩
      · simp only [World.responses, World.requests, List.map_append, List.map_cons, List.map_nil] at hlegal ⊢
        rw [answers_append, hlegal]
        rfl
      · simp only [World.requests, List.map_append, List.map_cons, List.map_nil]
        rw [after_append]
        exact hrep'
    | @crash c q t hc ht hr =>
      -- an admitted request has an answer
      obtain ⟨⟨hin, -⟩, t₀, hserver, hrep⟩ := ih hok
      obtain rfl := Option.some.inj (hserver.symm.trans ht)
      obtain ⟨t₁, hhandle, -⟩ := hsim _ _ q hrep (hok _ (hin.mem_called hc))
      rw [hr] at hhandle
      cases hhandle
    | @deliver c q r hc e he =>
      obtain ⟨⟨hin, hlegal⟩, hserver⟩ := ih hok
      exact ⟨⟨hin.step (Step.deliver hc e he), hlegal⟩, hserver⟩
    | @hang c q r hc e he =>
      obtain ⟨⟨hin, hlegal⟩, hserver⟩ := ih hok
      exact ⟨⟨hin.step (Step.hang hc e he), hlegal⟩, hserver⟩

/-- Whatever the other clients do, a call that was sent can be answered and delivered. -/
theorem Simulates.answered (hsim : Simulates spec service rep ok) {s : S} (hs : rep s a)
    (h : Runs service (World.initial ι Q R s) w) (hok : ∀ x ∈ w.called, ok x.2) {c : ι} {q : Q}
    (hc : w.phase c = .sent q) (e : E) :
    ∃ w', Runs service w w' ∧ w'.called = w.called ∧ w'.phase c =
      if service.ends q (spec (after spec a w.requests) q).1 e then .idle
      else .stuck q (spec (after spec a w.requests) q).1 := by
  obtain ⟨⟨hin, -⟩, t, hserver, hrep⟩ := hsim.linearized hs h hok
  obtain ⟨t', hhandle, -⟩ := hsim _ _ q hrep (hok _ (hin.mem_called hc))
  obtain ⟨w₁, hserve, hcalled, hphase⟩ : ∃ w₁, Step service w w₁ ∧ w₁.called = w.called ∧
      w₁.phase c = .answered q (spec (after spec a w.requests) q).1 :=
    ⟨_, Step.serve hc hserver hhandle, rfl, Function.update_self ..⟩
  cases hends : service.ends q (spec (after spec a w.requests) q).1 e with
  | true =>
    exact ⟨_, (Relation.ReflTransGen.single hserve).tail (Step.deliver hphase e hends), hcalled, by simp⟩
  | false =>
    exact ⟨_, (Relation.ReflTransGen.single hserve).tail (Step.hang hphase e hends), hcalled, by simp⟩

end Sequential

/-! A service that does what another one does, in states that have more to them. -/

section Refinement

variable {S' : Type*} {service' : Service S' Q R E} {rel : S → S' → Prop}

structure Refines (service : Service S Q R E) (service' : Service S' Q R E) (rel : S → S' → Prop) : Prop where
  handle : ∀ s s' q, rel s s' →
    Option.Rel (fun x x' => x.1 = x'.1 ∧ rel x.2 x'.2) (service.handle s q) (service'.handle s' q)
  ends : service.ends = service'.ends

def World.withServer (w : World ι S Q R) (server : Option S') : World ι S' Q R where
  server := server
  phase := w.phase
  called := w.called
  served := w.served
  returned := w.returned

omit [DecidableEq ι] in
theorem Refines.flip (hr : Refines service service' rel) : Refines service' service (fun s' s => rel s s') where
  handle s' s q hs := by
    have hhandle := hr.handle s s' q hs
    cases hq : service.handle s q with
    | none =>
      cases hq' : service'.handle s' q with
      | none => exact Option.Rel.none
      | some x' =>
        rw [hq, hq'] at hhandle
        cases hhandle
    | some x =>
      cases hq' : service'.handle s' q with
      | none =>
        rw [hq, hq'] at hhandle
        cases hhandle
      | some x' =>
        rw [hq, hq'] at hhandle
        cases hhandle with
        | some h => exact Option.Rel.some ⟨h.1.symm, h.2⟩
  ends := hr.ends.symm

theorem Refines.step (hr : Refines service service' rel) {server : Option S'} (hs : Option.Rel rel w.server server)
    (h : Step service w w') :
    ∃ server', Option.Rel rel w'.server server' ∧ Step service' (w.withServer server) (w'.withServer server') := by
  cases h with
  | @call c q hc => exact ⟨server, hs, Step.call (w := w.withServer server) q hc⟩
  | @serve c q s s' r hc hserver hq =>
    rw [hserver] at hs
    cases hs with
    | @some _ t hst =>
      have hhandle := hr.handle s t q hst
      rw [hq] at hhandle
      cases hq' : service'.handle t q with
      | none =>
        rw [hq'] at hhandle
        cases hhandle
      | some x =>
        rw [hq'] at hhandle
        obtain ⟨r', t'⟩ := x
        cases hhandle with
        | some h =>
          obtain ⟨rfl, ht⟩ : r = r' ∧ rel s' t' := h
          exact ⟨some t', Option.Rel.some ht, Step.serve (w := w.withServer (some t)) hc rfl hq'⟩
  | @crash c q s hc hserver hq =>
    rw [hserver] at hs
    cases hs with
    | @some _ t hst =>
      have hhandle := hr.handle s t q hst
      rw [hq] at hhandle
      cases hq' : service'.handle t q with
      | none => exact ⟨none, Option.Rel.none, Step.crash (w := w.withServer (some t)) hc rfl hq'⟩
      | some x =>
        rw [hq'] at hhandle
        cases hhandle
  | @deliver c q r hc e he =>
    exact ⟨server, hs, Step.deliver (w := w.withServer server) hc e (by rw [← hr.ends, he])⟩
  | @hang c q r hc e he =>
    exact ⟨server, hs, Step.hang (w := w.withServer server) hc e (by rw [← hr.ends, he])⟩

theorem Refines.runs (hr : Refines service service' rel) {server : Option S'} (hs : Option.Rel rel w.server server)
    (h : Runs service w w') :
    ∃ server', Option.Rel rel w'.server server' ∧ Runs service' (w.withServer server) (w'.withServer server') := by
  induction h with
  | refl => exact ⟨server, hs, Relation.ReflTransGen.refl⟩
  | tail _ hstep ih =>
    obtain ⟨server₁, hs₁, h₁⟩ := ih
    obtain ⟨server₂, hs₂, h₂⟩ := hr.step hs₁ hstep
    exact ⟨server₂, hs₂, h₁.tail h₂⟩

end Refinement

end Sessions

end Rpc
