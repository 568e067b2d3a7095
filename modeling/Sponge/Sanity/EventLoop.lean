import Sponge.Lib.Outcome
import Sponge.Spec.EventLoop

/-! What the callbacks of an event loop keep, the loop keeps. A rule is asked for its interest
before `poll`, and its callback runs after those of the rules before it; so what its interest
says must survive theirs. -/

namespace Sponge

open scoped List

namespace EventLoop

variable {κ σ ι : Type} {rule : κ → Rule σ ι} {E : Raised → Prop} {A : ι → Prop} {I : σ → Prop}
  {G : κ → σ → Prop}

def pollError : Raised := .thrown (.runtimeError "EventLoop: error on polled file descriptor")

/-- The rules keep `I`, and `G k` is what the callback of `k` can count on, on answers that
satisfy `A`. An error that is raised satisfies `E`. -/
structure Serves (rule : κ → Rule σ ι) (E : Raised → Prop) (A : ι → Prop) (I : σ → Prop)
    (G : κ → σ → Prop) : Prop where
  poll : E pollError
  interest : ∀ k s, I s → (rule k).interest s = true → G k s
  cancel : ∀ k s, I s → I ((rule k).cancel s) ∧ ∀ j, j ≠ k → G j s → G j ((rule k).cancel s)
  callback : ∀ k a s, I s → G k s → A a → Outcome E (fun s' => I s' ∧
    (E busyWait ∨ (rule k).serviceCount s ≠ (rule k).serviceCount s' ∨
      (rule k).interest s' = false) ∧ ∀ j, j ≠ k → G j s → G j s') ((rule k).callback a s)

namespace Serves

theorem service (h : Serves rule E A I G) {k : κ} {a : ι} {s : σ} (hs : I s) (hk : G k s)
    (ha : A a) : Outcome E (fun s' => I s' ∧ ∀ j, j ≠ k → G j s → G j s')
      (service rule k a s) := by
  refine (h.callback k a s hs hk ha).bind ?_
  rintro s' ⟨hs', hserved, hothers⟩
  refine Outcome.ite (fun hbusy => ?_) (fun _ => ⟨hs', hothers⟩)
  rcases hserved with hexcused | hcount | hquiet
  · exact hexcused
  · exact absurd hbusy.1 hcount
  · exact absurd hbusy.2 (by simp [hquiet])

theorem setUp (h : Serves rule E A I G) {ks : List κ} (hks : ks.Nodup) {s : σ} (hs : I s) :
    I (setUp rule ks s).2 ∧ (setUp rule ks s).1.map Prod.fst <+ ks ∧
      (∀ p ∈ (setUp rule ks s).1, p.2 = true → G p.1 (setUp rule ks s).2) ∧
      ∀ j, j ∉ ks → G j s → G j (setUp rule ks s).2 := by
  induction ks generalizing s with
  | nil => exact ⟨hs, .slnil, by simp [EventLoop.setUp], fun _ _ hj => hj⟩
  | cons k ks ih =>
    obtain ⟨hk, hks⟩ := List.nodup_cons.mp hks
    have hcancelled : I (EventLoop.setUp rule ks ((rule k).cancel s)).2 ∧
        (EventLoop.setUp rule ks ((rule k).cancel s)).1.map Prod.fst <+ k :: ks ∧
        (∀ p ∈ (EventLoop.setUp rule ks ((rule k).cancel s)).1, p.2 = true →
          G p.1 (EventLoop.setUp rule ks ((rule k).cancel s)).2) ∧
        ∀ j, j ∉ k :: ks → G j s → G j (EventLoop.setUp rule ks ((rule k).cancel s)).2 := by
      obtain ⟨hcancel, hothers⟩ := h.cancel k s hs
      obtain ⟨hI, hsub, hkept, hout⟩ := ih hks hcancel
      refine ⟨hI, hsub.cons k, hkept, fun j hj hG => ?_⟩
      rw [List.mem_cons, not_or] at hj
      exact hout j hj.2 (hothers j hj.1 hG)
    unfold EventLoop.setUp
    split_ifs with heof hclosed
    · exact hcancelled
    · exact hcancelled
    · obtain ⟨hI, hsub, hkept, hout⟩ := ih hks hs
      refine ⟨hI, hsub.cons_cons k, ?_, fun j hj hG => hout j (fun hmem => hj (by simp [hmem])) hG⟩
      rintro p (_ | ⟨_, hp⟩) hev
      · exact hout k hk (h.interest k s hs hev)
      · exact hkept p hp hev

theorem dispatch (h : Serves rule E A I G) {revents : ℕ → Revents ι}
    (hA : ∀ i a, (revents i).ready = some a → A a) {pollfds : List (κ × Bool)}
    (hks : (pollfds.map Prod.fst).Nodup) {idx : ℕ} {s : σ} (hs : I s)
    (hG : ∀ p ∈ pollfds, p.2 = true → G p.1 s) :
    Outcome E (fun r => I r.2 ∧ r.1 <+ pollfds.map Prod.fst)
      (dispatch rule revents pollfds idx s) := by
  induction pollfds generalizing idx s with
  | nil => exact ⟨hs, .slnil⟩
  | cons p pollfds ih =>
    obtain ⟨k, events⟩ := p
    rw [List.map_cons, List.nodup_cons] at hks
    have hlater : ∀ {s'}, (∀ j, j ≠ k → G j s → G j s') → ∀ q ∈ pollfds, q.2 = true → G q.1 s' := by
      intro s' hkeep q hq hev
      have hne : q.1 ≠ k := fun heq => hks.1 (List.mem_map.mpr ⟨q, hq, heq⟩)
      exact hkeep q.1 hne (hG q (List.mem_cons_of_mem _ hq) hev)
    have hkept : ∀ {s'}, I s' → (∀ j, j ≠ k → G j s → G j s') →
        Outcome E (fun r : List κ × σ => I r.2 ∧ r.1 <+ k :: pollfds.map Prod.fst)
          (EventLoop.dispatch rule revents pollfds (idx + 1) s' >>= fun r => .ok (k :: r.1, r.2)) :=
      fun hs' hkeep => (ih hks.2 hs' (hlater hkeep)).bind fun r hr => ⟨hr.1, hr.2.cons_cons k⟩
    unfold EventLoop.dispatch
    refine Outcome.ite (fun _ => h.poll) fun _ => ?_
    cases hready : if events = true then (revents idx).ready else none with
    | some a =>
      have hev : events = true := by
        by_contra hno
        rw [if_neg hno] at hready
        cases hready
      rw [if_pos hev] at hready
      have hGk := hG (k, events) List.mem_cons_self hev
      exact (h.service hs hGk (hA idx a hready)).bind fun s' hs' => hkept hs'.1 hs'.2
    | none =>
      refine Outcome.ite (fun _ => ?_) fun _ => hkept hs fun _ _ hj => hj
      obtain ⟨hcancel, hothers⟩ := h.cancel k s hs
      exact (ih hks.2 hcancel (hlater hothers)).mono fun r hr => ⟨hr.1, hr.2.cons k⟩

theorem waitNextEvent (h : Serves rule E A I G) {poll : Poll ι}
    (hA : ∀ revents, poll = .polled revents → ∀ i a, (revents i).ready = some a → A a)
    {ks : List κ} (hks : ks.Nodup) {s : σ} (hs : I s) :
    Outcome E (fun r => I r.2.2 ∧ r.2.1 <+ ks) (waitNextEvent rule poll ks s) := by
  obtain ⟨hI, hsub, hG, -⟩ := h.setUp hks hs
  have hdispatch : ∀ revents : ℕ → Revents ι, (∀ i a, (revents i).ready = some a → A a) →
      Outcome E (fun r : Result × List κ × σ => I r.2.2 ∧ r.2.1 <+ ks)
        (EventLoop.dispatch rule revents (EventLoop.setUp rule ks s).1 0
          (EventLoop.setUp rule ks s).2 >>= fun r => .ok (.success, r.1, r.2)) :=
    fun revents hrevents => (h.dispatch hrevents (hks.sublist hsub) hI hG).bind
      fun r hr => ⟨hr.1, hr.2.trans hsub⟩
  unfold EventLoop.waitNextEvent
  refine Outcome.ite (fun _ => ⟨hI, hsub⟩) fun _ => ?_
  cases poll with
  | timeout => exact ⟨hI, hsub⟩
  | interrupted => exact ⟨hI, hsub⟩
  | failed => exact hdispatch _ (by simp)
  | polled revents => exact hdispatch revents (hA revents rfl)

end Serves

/-- When the loop ends because nothing is polled, no rule that is left is interested, provided
that cancelling a rule does not rouse those before it. -/
theorem setUp_quiet {ks : List κ} {s : σ}
    (hquiet : ∀ j k s, [j, k] <+ ks → (rule j).interest s = false →
      (rule j).interest ((rule k).cancel s) = false)
    (hall : (setUp rule ks s).1.all (fun p => !p.2) = true) :
    ∀ k ∈ (setUp rule ks s).1.map Prod.fst, (rule k).interest (setUp rule ks s).2 = false := by
  -- a rule that is not interested stays so while the later ones are looked at
  have hstay : ∀ (ls : List κ) (j : κ) (t : σ), (∀ k ∈ ls, ∀ s, (rule j).interest s = false →
      (rule j).interest ((rule k).cancel s) = false) → (rule j).interest t = false →
      (rule j).interest (setUp rule ls t).2 = false := by
    intro ls j t hls ht
    induction ls generalizing t with
    | nil => exact ht
    | cons k ls ih =>
      have hcancel := hls k List.mem_cons_self t ht
      have hrest := fun t => ih t fun k hk => hls k (List.mem_cons_of_mem _ hk)
      unfold setUp
      split_ifs
      · exact hrest _ hcancel
      · exact hrest _ hcancel
      · exact hrest _ ht
  induction ks generalizing s with
  | nil => simp [setUp]
  | cons k ks ih =>
    have hrest := fun j l s (hsub : [j, l] <+ ks) => hquiet j l s (hsub.cons k)
    unfold setUp at hall ⊢
    split_ifs at hall ⊢
    · exact ih hrest hall
    · exact ih hrest hall
    · simp only [List.all_cons, Bool.and_eq_true, Bool.not_eq_true'] at hall
      intro j hj
      rcases List.mem_cons.mp hj with rfl | hj
      · refine hstay ks _ s (fun l hl s => ?_) hall.1
        exact hquiet _ l s ((List.singleton_sublist.mpr hl).cons_cons _)
      · exact ih hrest hall.2 j hj

end EventLoop

end Sponge
