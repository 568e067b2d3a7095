import Sponge.Lib.Unsigned

/-! Runs of a machine whose steps may fault: the state after a list of events,
the states it passes through, and the conditions its events meet. The rules here
turn a lemma about one step into one about every run. -/

namespace Sponge

variable {σ α ε : Type} (step : σ → α → Except ε σ)

/-- The events in order; a fault ends the run. -/
def exec : σ → List α → Except ε σ
  | s, [] => .ok s
  | s, a :: as => step s a >>= fun s' => exec s' as

/-- `C` holds of every event of the run and the state it meets. -/
def Each (C : σ → α → Prop) : σ → List α → Prop
  | _, [] => True
  | s, a :: as => C s a ∧ ∀ s', step s a = .ok s' → Each C s' as

/-- `P` holds in every state of the run. -/
def Always (P : σ → Prop) : σ → List α → Prop
  | s, [] => P s
  | s, a :: as => P s ∧ ∀ s', step s a = .ok s' → Always P s' as

/-- `C` holds of some event of the run and the state it meets. -/
def Once (C : σ → α → Prop) : σ → List α → Prop
  | _, [] => False
  | s, a :: as => C s a ∨ ∃ s', step s a = .ok s' ∧ Once C s' as

variable {step}

instance decidableEach {C : σ → α → Prop} [∀ s a, Decidable (C s a)] (s : σ) :
    (as : List α) → Decidable (Each step C s as)
  | [] => isTrue trivial
  | a :: as =>
    match h : step s a with
    | .error _ => decidable_of_iff (C s a) (by simp [Each, h])
    | .ok t =>
      have := decidableEach (C := C) t as
      decidable_of_iff (C s a ∧ Each step C t as) (by simp [Each, h])

instance decidableOnce {C : σ → α → Prop} [∀ s a, Decidable (C s a)] (s : σ) :
    (as : List α) → Decidable (Once step C s as)
  | [] => isFalse id
  | a :: as =>
    match h : step s a with
    | .error _ => decidable_of_iff (C s a) (by simp [Once, h])
    | .ok t =>
      have := decidableOnce (C := C) t as
      decidable_of_iff (C s a ∨ Once step C t as) (by simp [Once, h])

instance decidableAlways {P : σ → Prop} [∀ s, Decidable (P s)] (s : σ) :
    (as : List α) → Decidable (Always step P s as)
  | [] => inferInstanceAs (Decidable (P s))
  | a :: as =>
    match h : step s a with
    | .error _ => decidable_of_iff (P s) (by simp [Always, h])
    | .ok t =>
      have := decidableAlways (P := P) t as
      decidable_of_iff (P s ∧ Always step P t as) (by simp [Always, h])

instance decidableExistsOk (x : Except ε σ) {P : σ → Prop} [DecidablePred P] :
    Decidable (∃ s, x = .ok s ∧ P s) :=
  match x with
  | .ok s => decidable_of_iff (P s) (by simp)
  | .error _ => isFalse (by simp)

theorem exec_append (s : σ) (as bs : List α) :
    exec step s (as ++ bs) = exec step s as >>= fun s' => exec step s' bs := by
  induction as generalizing s with
  | nil => rfl
  | cons a as ih =>
    simp only [List.cons_append, exec]
    cases step s a with
    | error e => rfl
    | ok s' => exact ih s'

theorem exec_map {f : σ → σ} (hf : ∀ s a, step (f s) a = (step s a).map f) (s : σ)
    (as : List α) : exec step (f s) as = (exec step s as).map f := by
  induction as generalizing s with
  | nil => rfl
  | cons a as ih =>
    simp only [exec, hf]
    cases step s a with
    | error e => rfl
    | ok t => exact ih t

theorem exec_cons_ok {s s' : σ} {a : α} {as : List α} (h : exec step s (a :: as) = .ok s') :
    ∃ t, step s a = .ok t ∧ exec step t as = .ok s' := bind_eq_ok h

theorem Each.of_forall {V : α → Prop} {as : List α} (h : ∀ a ∈ as, V a) (s : σ) :
    Each step (fun _ a => V a) s as := by
  induction as generalizing s with
  | nil => trivial
  | cons a as ih => exact ⟨h a (by simp), fun s' _ => ih (fun b hb => h b (by simp [hb])) s'⟩

theorem Each.forall_mem {V : α → Prop} {s s' : σ} {as : List α}
    (h : Each step (fun _ a => V a) s as) (hrun : exec step s as = .ok s') : ∀ a ∈ as, V a := by
  induction as generalizing s with
  | nil => simp
  | cons a as ih =>
    obtain ⟨t, ht, hrun⟩ := exec_cons_ok hrun
    exact List.forall_mem_cons.mpr ⟨h.1, ih (h.2 t ht) hrun⟩

theorem Each.and {C D : σ → α → Prop} {s : σ} {as : List α} (hC : Each step C s as)
    (hD : Each step D s as) : Each step (fun s a => C s a ∧ D s a) s as := by
  induction as generalizing s with
  | nil => trivial
  | cons a as ih => exact ⟨⟨hC.1, hD.1⟩, fun s' hs => ih (hC.2 s' hs) (hD.2 s' hs)⟩

theorem Each.imp {C D : σ → α → Prop} (h : ∀ s a, C s a → D s a) {s : σ} {as : List α}
    (hC : Each step C s as) : Each step D s as := by
  induction as generalizing s with
  | nil => trivial
  | cons a as ih => exact ⟨h s a hC.1, fun s' hs => ih (hC.2 s' hs)⟩

theorem Each.map {β : Type} {f : β → α} {C : σ → α → Prop} {s : σ} {bs : List β}
    (h : Each (fun s b => step s (f b)) (fun s b => C s (f b)) s bs) : Each step C s (bs.map f) := by
  induction bs generalizing s with
  | nil => trivial
  | cons b bs ih => exact ⟨h.1, fun s' hs => ih (h.2 s' hs)⟩

/-- An invariant of the state and the events so far that every admitted event
keeps holds after every run, and no admitted event faults. -/
theorem exec_history {I : List α → σ → Prop} {C : σ → α → Prop}
    (hstep : ∀ past s a, I past s → C s a → ∃ s', step s a = .ok s' ∧ I (past ++ [a]) s')
    (as : List α) : ∀ (past : List α) (s : σ), I past s → Each step C s as →
      ∃ s', exec step s as = .ok s' ∧ I (past ++ as) s' := by
  induction as with
  | nil => exact fun past s hs _ => ⟨s, rfl, by simpa using hs⟩
  | cons a as ih =>
    intro past s hs hC
    obtain ⟨t, ht, hI⟩ := hstep past s a hs hC.1
    obtain ⟨s', hs', hI'⟩ := ih (past ++ [a]) t hI (hC.2 t ht)
    exact ⟨s', by simp only [exec, ht, ok_bind, hs'], by simpa using hI'⟩

theorem exec_inv {I : σ → Prop} {C : σ → α → Prop}
    (hstep : ∀ s a, I s → C s a → ∃ s', step s a = .ok s' ∧ I s') {s : σ} {as : List α}
    (hs : I s) (hC : Each step C s as) : ∃ s', exec step s as = .ok s' ∧ I s' :=
  exec_history (I := fun _ => I) (fun _ s a => hstep s a) as [] s hs hC

/-- The same for a run that is known to end without a fault. -/
theorem exec_ok_history {I : List α → σ → Prop} {C : σ → α → Prop}
    (hstep : ∀ past s a s', I past s → C s a → step s a = .ok s' → I (past ++ [a]) s')
    (as : List α) : ∀ (past : List α) (s s' : σ), I past s → Each step C s as →
      exec step s as = .ok s' → I (past ++ as) s' := by
  induction as with
  | nil =>
    intro past s s' hs _ hrun
    cases hrun
    simpa using hs
  | cons a as ih =>
    intro past s s' hs hC hrun
    obtain ⟨t, ht, hrun⟩ := exec_cons_ok hrun
    have := ih (past ++ [a]) t s' (hstep past s a t hs hC.1 ht) (hC.2 t ht) hrun
    simpa using this

theorem exec_ok_inv {I : σ → Prop} (hstep : ∀ s a s', I s → step s a = .ok s' → I s') {s s' : σ}
    {as : List α} (hs : I s) (hrun : exec step s as = .ok s') : I s' :=
  exec_ok_history (I := fun _ => I) (C := fun _ _ => True) (fun _ s a s' h _ => hstep s a s' h)
    as [] s s' hs (Each.of_forall (fun _ _ => trivial) s) hrun

theorem exec_snoc {s t u : σ} {as : List α} {a : α} (hrun : exec step s as = .ok t)
    (ha : step t a = .ok u) : exec step s (as ++ [a]) = .ok u := by
  simp only [exec_append, hrun, ok_bind, exec, ha]

theorem Once.snoc {C : σ → α → Prop} {s t : σ} {as : List α} {a : α}
    (hrun : exec step s as = .ok t) :
    Once step C s (as ++ [a]) ↔ Once step C s as ∨ C t a := by
  induction as generalizing s with
  | nil =>
    cases hrun
    simp [Once]
  | cons b as ih =>
    obtain ⟨u, hu, hrun⟩ := exec_cons_ok hrun
    simp only [List.cons_append, Once, hu, Except.ok.injEq, exists_eq_left', ih hrun, or_assoc]

theorem Each.snoc {C : σ → α → Prop} {s t : σ} {as : List α} {a : α}
    (hrun : exec step s as = .ok t) (h : Each step C s (as ++ [a])) : Each step C s as ∧ C t a := by
  induction as generalizing s with
  | nil =>
    cases hrun
    exact ⟨trivial, h.1⟩
  | cons b as ih =>
    obtain ⟨u, hu, hrun⟩ := exec_cons_ok hrun
    obtain ⟨hlater, ha⟩ := ih hrun (h.2 u hu)
    refine ⟨⟨h.1, fun v hv => ?_⟩, ha⟩
    rw [hu] at hv
    cases hv
    exact hlater

/-- What each event adds to `H` when it meets `C`, a run adds when some event does. -/
theorem exec_once {ι : Type} {I : σ → Prop} {H : σ → ι → Prop} {V : σ → α → Prop}
    {C : ι → σ → α → Prop}
    (hstep : ∀ s a, I s → V s a →
      ∃ s', step s a = .ok s' ∧ I s' ∧ ∀ i, H s' i ↔ H s i ∨ C i s a)
    {s : σ} {as : List α} (hs : I s) (hV : Each step V s as) :
    ∃ s', exec step s as = .ok s' ∧ I s' ∧ ∀ i, H s' i ↔ H s i ∨ Once step (C i) s as := by
  induction as generalizing s with
  | nil => exact ⟨s, rfl, hs, fun i => (or_false _).symm ▸ Iff.rfl⟩
  | cons a as ih =>
    obtain ⟨t, ht, hI, hH⟩ := hstep s a hs hV.1
    obtain ⟨s', hs', hI', hH'⟩ := ih hI (hV.2 t ht)
    refine ⟨s', by simp only [exec, ht, ok_bind, hs'], hI', fun i => ?_⟩
    rw [hH' i, hH i, or_assoc]
    simp only [Once, ht, Except.ok.injEq, exists_eq_left']

/-- Every event of such a run meets the invariant. -/
theorem Each.of_inv {I : σ → Prop} {C : σ → α → Prop}
    (hstep : ∀ s a, I s → C s a → ∃ s', step s a = .ok s' ∧ I s') {s : σ} {as : List α}
    (hs : I s) (hC : Each step C s as) : Each step (fun s _ => I s) s as := by
  induction as generalizing s with
  | nil => trivial
  | cons a as ih =>
    obtain ⟨t, ht, hI⟩ := hstep s a hs hC.1
    refine ⟨hs, fun u hu => ?_⟩
    rw [ht] at hu
    cases hu
    exact ih hI (hC.2 t ht)

theorem Always.of_inv {I P : σ → Prop} {C : σ → α → Prop}
    (hstep : ∀ s a, I s → C s a → ∃ s', step s a = .ok s' ∧ I s') (hP : ∀ s, I s → P s) {s : σ}
    {as : List α} (hs : I s) (hC : Each step C s as) : Always step P s as := by
  induction as generalizing s with
  | nil => exact hP s hs
  | cons a as ih =>
    obtain ⟨t, ht, hI⟩ := hstep s a hs hC.1
    refine ⟨hP s hs, fun u hu => ?_⟩
    rw [ht] at hu
    cases hu
    exact ih hI (hC.2 t ht)

theorem Always.each {P : σ → Prop} {s : σ} {as : List α} (h : Always step P s as) :
    Each step (fun s _ => P s) s as := by
  induction as generalizing s with
  | nil => trivial
  | cons a as ih => exact ⟨h.1, fun t ht => ih (h.2 t ht)⟩

theorem Always.last {P : σ → Prop} {s s' : σ} {as : List α} (h : Always step P s as)
    (hrun : exec step s as = .ok s') : P s' := by
  induction as generalizing s with
  | nil =>
    cases hrun
    exact h
  | cons a as ih =>
    obtain ⟨t, ht, hrun⟩ := exec_cons_ok hrun
    exact ih (h.2 t ht) hrun

theorem Each.congr {C D E : σ → α → Prop} (h : ∀ s a, E s a → (C s a ↔ D s a)) {s : σ}
    {as : List α} (hE : Each step E s as) : Each step C s as ↔ Each step D s as := by
  induction as generalizing s with
  | nil => exact Iff.rfl
  | cons a as ih =>
    exact and_congr (h s a hE.1) (forall₂_congr fun t ht => ih (hE.2 t ht))

/-- When a step from a good state is good exactly if its event meets `C`, a run
stays good exactly if all its events do. -/
theorem always_iff_each {I P : σ → Prop} {C V : σ → α → Prop}
    (hstep : ∀ s a, I s → P s → V s a → ∃ s', step s a = .ok s' ∧ I s' ∧ (P s' ↔ C s a))
    {s : σ} {as : List α} (hI : I s) (hP : P s) (hV : Each step V s as) :
    Always step P s as ↔ Each step C s as := by
  induction as generalizing s with
  | nil => exact ⟨fun _ => trivial, fun _ => hP⟩
  | cons a as ih =>
    obtain ⟨t, ht, hIt, hiff⟩ := hstep s a hI hP hV.1
    have hok : ∀ u, step s a = .ok u → u = t := fun u hu => by
      rw [ht] at hu
      exact (Except.ok.inj hu).symm
    constructor
    · rintro ⟨-, h⟩
      have hPt : P t := by
        have := h t ht
        cases as with
        | nil => exact this
        | cons b bs => exact this.1
      exact ⟨hiff.mp hPt, fun u hu => hok u hu ▸ (ih hIt hPt (hV.2 t ht)).mp (h t ht)⟩
    · rintro ⟨hC, h⟩
      have hPt := hiff.mpr hC
      exact ⟨hP, fun u hu => hok u hu ▸ (ih hIt hPt (hV.2 t ht)).mpr (h t ht)⟩

/-- The computation ends without a fault. -/
def Returns {α : Type} (x : Except ε α) : Prop := ∃ a, x = .ok a

theorem Returns.ok {α : Type} (a : α) : Returns (Except.ok a : Except ε α) := ⟨a, rfl⟩

theorem Returns.bind {α β : Type} {x : Except ε α} {f : α → Except ε β} (hx : Returns x)
    (hf : ∀ a, x = .ok a → Returns (f a)) : Returns (x >>= f) := by
  obtain ⟨a, rfl⟩ := hx
  exact hf a rfl

theorem exec_returns (hstep : ∀ s a, Returns (step s a)) (as : List α) (s : σ) :
    Returns (exec step s as) := by
  induction as generalizing s with
  | nil => exact .ok s
  | cons a as ih => exact (hstep s a).bind fun t _ => ih t

/-- The same for a machine that cannot fault: what every admitted event keeps holds after
every list of events, each admitted by the state it meets. -/
theorem foldl_inv {f : σ → α → σ} {I : σ → Prop} {C : σ → α → Prop}
    (hstep : ∀ s a, I s → C s a → I (f s a)) {s : σ} (hs : I s) (as : List α)
    (hC : ∀ past a, past ++ [a] <+: as → C (past.foldl f s) a) : I (as.foldl f s) := by
  induction as using List.reverseRecOn with
  | nil => exact hs
  | append_singleton past a ih =>
    have hpast := ih fun past' a' h => hC past' a' (h.trans (List.prefix_append _ _))
    rw [List.foldl_append]
    exact hstep _ a hpast (hC past a List.prefix_rfl)

/-- Both end with the same fault, or in related states. -/
def Lifts (R : σ → σ → Prop) : Except ε σ → Except ε σ → Prop
  | .ok s, .ok t => R s t
  | .error e, .error e' => e = e'
  | _, _ => False

theorem Lifts.refl {R : σ → σ → Prop} (hR : ∀ s, R s s) (x : Except ε σ) : Lifts R x x := by
  cases x with
  | error e => rfl
  | ok s => exact hR s

theorem Lifts.bind {τ : Type} {R : σ → σ → Prop} {S : τ → τ → Prop} {f g : σ → Except ε τ}
    {x y : Except ε σ} (h : Lifts R x y) (hf : ∀ s t, R s t → Lifts S (f s) (g t)) :
    Lifts S (x >>= f) (y >>= g) := by
  cases x with
  | error e =>
    cases y with
    | error e' => exact h
    | ok t => exact h.elim
  | ok s =>
    cases y with
    | error e => exact h.elim
    | ok t => exact hf s t h

/-- Two runs over the same events keep in step when each event keeps them so. -/
theorem exec_lockstep {R : σ → σ → Prop}
    (hstep : ∀ s t a, R s t → Lifts R (step s a) (step t a)) {s t : σ} (h : R s t) (as : List α) :
    Lifts R (exec step s as) (exec step t as) := by
  induction as generalizing s t with
  | nil => exact h
  | cons a as ih => exact (hstep s t a h).bind fun _ _ h' => ih h'

theorem Lifts.map_eq {R : σ → σ → Prop} {β : Type} {f : σ → β} (hf : ∀ s t, R s t → f s = f t)
    {x y : Except ε σ} (h : Lifts R x y) : x.map f = y.map f := by
  cases x with
  | error e =>
    cases y with
    | error e' => exact congrArg Except.error h
    | ok t => exact h.elim
  | ok s =>
    cases y with
    | error e => exact h.elim
    | ok t => exact congrArg Except.ok (hf s t h)

end Sponge
