import Sponge.Sanity.SenderRun

/-! The retransmission timer of a sender in use. It runs exactly while something is
outstanding, retransmissions are counted for an outstanding segment only, and as
long as nothing overflows the timeout is doubled once for each of them. -/

namespace Sponge

open TCPSender

/-- What an accepted acknowledgment does to the timer and the count: nothing but stop an
idle timer, or start afresh because a segment has left the queue. -/
theorem acceptAck_timer {s t : TCPSender} {ackno : WrappingInt32} {w : UInt16}
    (h : s.acceptAck ackno w = some t) :
    (t.segmentsUnackno = s.segmentsUnackno ∧
        t.consecutiveRetransmissions = s.consecutiveRetransmissions ∧
        t.timer = if s.segmentsUnackno.isEmpty then s.timer.stop else s.timer) ∨
      (t.segmentsUnackno.length < s.segmentsUnackno.length ∧ t.consecutiveRetransmissions = 0 ∧
        t.timer = if t.segmentsUnackno.isEmpty then s.timer.reset.start.stop
          else s.timer.reset.start) := by
  unfold acceptAck at h
  simp only [popAcked_eq, Option.ite_none_left_eq_some, Bool.false_or, Option.some.injEq] at h
  obtain ⟨-, rfl⟩ := h
  generalize hc : covered s.isn s.nextSeqno (unwrap ackno s.isn s.recvAckno) = c
  have hsplit := List.takeWhile_append_dropWhile (p := c) (l := s.segmentsUnackno)
  cases hq : s.segmentsUnackno.takeWhile c with
  | nil =>
    left
    rw [hq, List.nil_append] at hsplit
    simp [hsplit]
  | cons g gs =>
    right
    have hlen := congrArg List.length hsplit
    rw [hq, List.length_append, List.length_cons] at hlen
    refine ⟨?_, by simp⟩
    show (s.segmentsUnackno.dropWhile c).length < _
    omega

theorem tick_cases (s : TCPSender) (ms : ℕ) :
    ((s.segmentsUnackno = [] ∨ (s.timer.tick ms).checkExpired = false) ∧
        s.tick ms = { s with timer := s.timer.tick ms }) ∨
      ∃ g rest, s.segmentsUnackno = g :: rest ∧ (s.timer.tick ms).checkExpired = true ∧
        s.tick ms = { s with
          segmentsOut := s.segmentsOut ++ [g]
          consecutiveRetransmissions := if 0 < s.windowSize then s.consecutiveRetransmissions + 1
            else s.consecutiveRetransmissions
          timer := (if 0 < s.windowSize then (s.timer.tick ms).resetDouble
            else s.timer.tick ms).start } := by
  cases hq : s.segmentsUnackno with
  | nil => exact Or.inl ⟨Or.inl rfl, (tick_idle hq ms).trans (by rw [hq])⟩
  | cons g rest =>
    unfold TCPSender.tick
    cases he : (s.timer.tick ms).checkExpired with
    | false =>
      simp only [hq, he]
      exact Or.inl ⟨Or.inr trivial, trivial⟩
    | true =>
      simp only [hq, he]
      exact Or.inr ⟨g, rest, rfl, trivial, rfl⟩

theorem TCPSender.sent_rto (s : TCPSender) (g : TCPSegment) :
    (s.sent g).timer.initRTO = s.timer.initRTO ∧ (s.sent g).timer.curRTO = s.timer.curRTO := by
  have htimer : (s.sent g).timer = if !s.timer.running then s.timer.start else s.timer := rfl
  rw [htimer]
  split_ifs <;> exact ⟨rfl, rfl⟩

theorem acceptAck_rto {s t : TCPSender} {ackno : WrappingInt32} {w : UInt16}
    (h : s.acceptAck ackno w = some t) :
    t.timer.initRTO = s.timer.initRTO ∧
      ((t.segmentsUnackno = s.segmentsUnackno ∧
          t.consecutiveRetransmissions = s.consecutiveRetransmissions ∧
          t.timer.curRTO = s.timer.curRTO) ∨
        (t.segmentsUnackno.length < s.segmentsUnackno.length ∧ t.consecutiveRetransmissions = 0 ∧
          t.timer.curRTO = s.timer.initRTO)) := by
  rcases acceptAck_timer h with ⟨hqueue, hcount, htimer⟩ | ⟨hshorter, hcount, htimer⟩
  · rw [htimer]
    split_ifs <;> exact ⟨rfl, Or.inl ⟨hqueue, hcount, rfl⟩⟩
  · rw [htimer]
    split_ifs <;> exact ⟨rfl, Or.inr ⟨hshorter, hcount, rfl⟩⟩

theorem Timer.tick_rto (t : Timer) (ms : ℕ) :
    (t.tick ms).initRTO = t.initRTO ∧ (t.tick ms).curRTO = t.curRTO := by
  unfold Timer.tick
  split_ifs <;> exact ⟨rfl, rfl⟩

/-- Three things touch the timer, the outstanding segments or the count: a segment sent,
an acknowledgment accepted and a tick. -/
theorem SenderOp.run_timer {I : TCPSender → Prop}
    (hcongr : ∀ {s t : TCPSender}, I s → t.timer = s.timer →
      t.segmentsUnackno = s.segmentsUnackno →
      t.consecutiveRetransmissions = s.consecutiveRetransmissions → I t)
    (hsent : ∀ {s : TCPSender} (g : TCPSegment), I s → I (s.sent g))
    (hacked : ∀ {s t : TCPSender} {ackno : WrappingInt32} {w : UInt16}, I s →
      s.acceptAck ackno w = some t → I t)
    {accepted : List Byte} {first : List TCPSegment} {s : TCPSender} (ht : Tiles accepted first s)
    (h : I s) (op : SenderOp) (htick : ∀ ms, op = .tick ms → I (s.tick ms)) : I (op.run s) := by
  have hsends : ∀ {s t : TCPSender} {gs : List TCPSegment}, I s → Sends s gs t → I t :=
    fun hs hgs => Sends.keeps (P := fun t _ => I t) (fun _ _ g _ hs _ _ => hsent g hs) hgs [] hs
  cases op with
  | write => exact hcongr h rfl rfl rfl
  | endInput => exact hcongr h rfl rfl rfl
  | setError => exact hcongr h rfl rfl rfl
  | fillWindow =>
    obtain ⟨gs, hgs⟩ := fillWindow_spec s ht.ready
    exact hsends h hgs
  | ackReceived ackno w =>
    simp only [SenderOp.run]
    rcases ht.ackReceived_cases ackno w with ⟨-, hsame⟩ | ⟨t, gs, ha, -, hrun, hgs⟩
    · rw [hsame]
      exact h
    · rw [hrun]
      exact hsends (hacked h ha) hgs
  | tick ms => exact htick ms rfl
  | sendEmptySegment => exact hcongr h rfl rfl rfl
  | sendFlagged => exact hcongr h rfl rfl rfl
  | popSegment => exact hcongr h rfl rfl rfl

/-- The timer runs exactly while something is outstanding. -/
def Ticking (s : TCPSender) : Prop := s.timer.running = true ↔ s.segmentsUnackno ≠ []

theorem Timer.tick_running (t : Timer) (ms : ℕ) : (t.tick ms).running = t.running := by
  unfold Timer.tick
  split_ifs <;> rfl

namespace Ticking

theorem congr {s t : TCPSender} (h : Ticking s) (htimer : t.timer = s.timer)
    (hqueue : t.segmentsUnackno = s.segmentsUnackno)
    (_ : t.consecutiveRetransmissions = s.consecutiveRetransmissions) : Ticking t := by
  unfold Ticking
  rw [htimer, hqueue]
  exact h

theorem sent {s : TCPSender} (g : TCPSegment) (_ : Ticking s) : Ticking (s.sent g) := by
  refine iff_of_true ?_ (by simp [TCPSender.sent])
  show (if !s.timer.running then s.timer.start else s.timer).running = true
  cases hrun : s.timer.running with
  | false => rfl
  | true => simpa using hrun

theorem acked {s t : TCPSender} {ackno : WrappingInt32} {w : UInt16} (h : Ticking s)
    (ha : s.acceptAck ackno w = some t) : Ticking t := by
  rcases acceptAck_timer ha with ⟨hqueue, hcount, htimer⟩ | ⟨-, -, htimer⟩
  · cases hq : s.segmentsUnackno with
    | nil =>
      rw [hq, List.isEmpty_nil, if_pos rfl] at htimer
      exact iff_of_false (by simp [htimer, Timer.stop]) (by simp [hqueue, hq])
    | cons g gs =>
      rw [hq, List.isEmpty_cons, if_neg (by simp)] at htimer
      exact h.congr htimer hqueue hcount
  · cases hq : t.segmentsUnackno with
    | nil =>
      rw [hq, List.isEmpty_nil, if_pos rfl] at htimer
      exact iff_of_false (by simp [htimer, Timer.stop]) (by simp [hq])
    | cons g gs =>
      rw [hq, List.isEmpty_cons, if_neg (by simp)] at htimer
      exact iff_of_true (by rw [htimer]; rfl) (by simp [hq])

theorem tick {s : TCPSender} (h : Ticking s) (ms : ℕ) : Ticking (s.tick ms) := by
  rcases tick_cases s ms with ⟨-, htick⟩ | ⟨g, rest, hq, -, htick⟩
  · rw [htick]
    unfold Ticking
    rw [Timer.tick_running]
    exact h
  · rw [htick]
    exact iff_of_true rfl (by simp [hq])

theorem run {accepted : List Byte} {first : List TCPSegment} {s : TCPSender}
    (ht : Tiles accepted first s) (h : Ticking s) (op : SenderOp) : Ticking (op.run s) :=
  SenderOp.run_timer congr sent acked ht h op fun ms _ => h.tick ms

end Ticking

structure Timed (s : TCPSender) : Prop where
  init : s.timer.initRTO < 2 ^ 64
  cur : s.timer.curRTO < 2 ^ 64
  elapsed : s.timer.elapsedTime < 2 ^ 64
  running : Ticking s
  count : s.segmentsUnackno = [] → s.consecutiveRetransmissions = 0

namespace Timed

theorem new (capacity : ℕ) {retxTimeout : ℕ} (isn : WrappingInt32)
    (h : retxTimeout < 2 ^ 64) : Timed (TCPSender.new capacity retxTimeout isn) where
  init := h
  cur := h
  elapsed := by simp [TCPSender.new, Timer.new]
  running := by simp [Ticking, TCPSender.new, Timer.new]
  count _ := rfl

theorem congr {s t : TCPSender} (h : Timed s) (htimer : t.timer = s.timer)
    (hqueue : t.segmentsUnackno = s.segmentsUnackno)
    (hcount : t.consecutiveRetransmissions = s.consecutiveRetransmissions) : Timed t := by
  refine ⟨?_, ?_, ?_, h.running.congr htimer hqueue hcount, ?_⟩
  · rw [htimer]; exact h.init
  · rw [htimer]; exact h.cur
  · rw [htimer]; exact h.elapsed
  · rw [hqueue, hcount]; exact h.count

theorem sent {s : TCPSender} (g : TCPSegment) (h : Timed s) : Timed (s.sent g) := by
  obtain ⟨hinit, hcur⟩ := s.sent_rto g
  have htimer : (s.sent g).timer = if !s.timer.running then s.timer.start else s.timer := rfl
  have hqueue : (s.sent g).segmentsUnackno ≠ [] := by simp [TCPSender.sent]
  refine ⟨hinit.symm ▸ h.init, hcur.symm ▸ h.cur, ?_, h.running.sent g, fun hq => absurd hq hqueue⟩
  rw [htimer]
  split_ifs
  · exact Nat.two_pow_pos 64
  · exact h.elapsed

theorem acked {s t : TCPSender} {ackno : WrappingInt32} {w : UInt16} (h : Timed s)
    (ha : s.acceptAck ackno w = some t) : Timed t := by
  obtain ⟨hinit, hcase⟩ := acceptAck_rto ha
  have helapsed : t.timer.elapsedTime < 2 ^ 64 := by
    rcases acceptAck_timer ha with ⟨-, -, htimer⟩ | ⟨-, -, htimer⟩
    · rw [htimer]
      split_ifs <;> exact h.elapsed
    · rw [htimer]
      split_ifs <;> exact Nat.two_pow_pos 64
  refine ⟨hinit.symm ▸ h.init, ?_, helapsed, h.running.acked ha, fun hq => ?_⟩
  · rcases hcase with ⟨-, -, hcur⟩ | ⟨-, -, hcur⟩
    · exact hcur.symm ▸ h.cur
    · exact hcur.symm ▸ h.init
  · rcases hcase with ⟨hqueue, hcount, -⟩ | ⟨-, hcount, -⟩
    · exact hcount.trans (h.count (hqueue ▸ hq))
    · exact hcount

theorem tick {s : TCPSender} (h : Timed s) (ms : ℕ) : Timed (s.tick ms) := by
  obtain ⟨hinit, hcur⟩ := s.timer.tick_rto ms
  have h1 : (s.timer.tick ms).initRTO < 2 ^ 64 := hinit.symm ▸ h.init
  have h2 : (s.timer.tick ms).curRTO < 2 ^ 64 := hcur.symm ▸ h.cur
  have h3 : (s.timer.tick ms).elapsedTime < 2 ^ 64 := by
    unfold Timer.tick
    split_ifs
    · exact uadd_lt _ _
    · exact h.elapsed
  have hrunning := h.running.tick ms
  rcases tick_cases s ms with ⟨-, htick⟩ | ⟨g, rest, hq, -, htick⟩
  · rw [htick] at hrunning ⊢
    exact ⟨h1, h2, h3, hrunning, h.count⟩
  · rw [htick] at hrunning ⊢
    refine ⟨?_, ?_, Nat.two_pow_pos 64, hrunning, fun hc => by simp [hq] at hc⟩
    · simp only [Timer.start]
      split_ifs <;> exact h1
    · simp only [Timer.start]
      split_ifs
      · exact Nat.mod_lt _ (Nat.two_pow_pos 64)
      · exact h2

theorem run {accepted : List Byte} {first : List TCPSegment} {s : TCPSender}
    (ht : Tiles accepted first s) (h : Timed s) (op : SenderOp) : Timed (op.run s) :=
  SenderOp.run_timer congr sent acked ht h op fun ms _ => h.tick ms

end Timed

/-- The timeout is the initial one, doubled for each retransmission counted. -/
structure Doubled (T : ℕ) (s : TCPSender) : Prop where
  init : s.timer.initRTO = T
  cur : s.timer.curRTO = T * 2 ^ s.consecutiveRetransmissions

namespace Doubled

variable {T : ℕ} {s t : TCPSender}

theorem new (capacity retxTimeout : ℕ) (isn : WrappingInt32) :
    Doubled retxTimeout (TCPSender.new capacity retxTimeout isn) where
  init := rfl
  cur := by simp [TCPSender.new, Timer.new]

theorem congr (h : Doubled T s) (htimer : t.timer = s.timer)
    (_ : t.segmentsUnackno = s.segmentsUnackno)
    (hcount : t.consecutiveRetransmissions = s.consecutiveRetransmissions) : Doubled T t := by
  refine ⟨?_, ?_⟩
  · rw [htimer]; exact h.init
  · rw [htimer, hcount]; exact h.cur

theorem sent (g : TCPSegment) (h : Doubled T s) : Doubled T (s.sent g) := by
  obtain ⟨hinit, hcur⟩ := s.sent_rto g
  exact ⟨hinit.trans h.init, hcur.trans h.cur⟩

theorem acked {ackno : WrappingInt32} {w : UInt16} (h : Doubled T s)
    (ha : s.acceptAck ackno w = some t) : Doubled T t := by
  obtain ⟨hinit, ⟨-, hcount, hcur⟩ | ⟨-, hcount, hcur⟩⟩ := acceptAck_rto ha
  · refine ⟨hinit.trans h.init, ?_⟩
    rw [hcur, hcount]
    exact h.cur
  · refine ⟨hinit.trans h.init, ?_⟩
    rw [hcur, hcount, pow_zero, Nat.mul_one]
    exact h.init

/-- With a 16-bit initial timeout, 47 doublings leave room for a tick and one more. -/
theorem cur_le (hT : T < 2 ^ 16) (h : Doubled T s) (hcount : s.consecutiveRetransmissions ≤ 47) :
    s.timer.curRTO ≤ 2 ^ 63 - 2 ^ 47 := by
  rw [h.cur]
  calc T * 2 ^ s.consecutiveRetransmissions
      ≤ (2 ^ 16 - 1) * 2 ^ 47 :=
        Nat.mul_le_mul (by omega) (Nat.pow_le_pow_right (by norm_num) hcount)
    _ = 2 ^ 63 - 2 ^ 47 := by norm_num

theorem tick (hT : T < 2 ^ 16) (h : Doubled T s) (hcount : s.consecutiveRetransmissions ≤ 47)
    (ms : ℕ) : Doubled T (s.tick ms) := by
  have hle := h.cur_le hT hcount
  rw [h.cur] at hle
  obtain ⟨hinit, hcur⟩ := s.timer.tick_rto ms
  rw [h.init] at hinit
  rw [h.cur] at hcur
  rcases tick_cases s ms with ⟨-, htick⟩ | ⟨g, rest, -, -, htick⟩
  · rw [htick]
    exact ⟨hinit, hcur⟩
  · rw [htick]
    simp only [Timer.start]
    split_ifs
    · refine ⟨hinit, ?_⟩
      simp only [Timer.resetDouble, hcur]
      rw [Nat.mod_eq_of_lt (by omega), pow_succ, Nat.mul_assoc]
    · exact ⟨hinit, hcur⟩

theorem run {accepted : List Byte} {first : List TCPSegment} (ht : Tiles accepted first s)
    (h : Doubled T s) {op : SenderOp} (hop : ∀ ms, op ≠ .tick ms) : Doubled T (op.run s) :=
  SenderOp.run_timer congr sent acked ht h op fun ms htick => absurd htick (hop ms)

end Doubled

/-- A running timer has not reached the doubled timeout. -/
structure Backoff (T : ℕ) (s : TCPSender) : Prop extends Doubled T s where
  running : Ticking s
  elapsed : s.timer.running = true → s.timer.elapsedTime < s.timer.curRTO

namespace Backoff

variable {T : ℕ} {s t : TCPSender}

theorem new (capacity retxTimeout : ℕ) (isn : WrappingInt32) :
    Backoff retxTimeout (TCPSender.new capacity retxTimeout isn) := by
  refine ⟨Doubled.new capacity retxTimeout isn, ?_, fun h => ?_⟩
  · simp [Ticking, TCPSender.new, Timer.new]
  · simp [TCPSender.new, Timer.new] at h

theorem congr (h : Backoff T s) (htimer : t.timer = s.timer)
    (hqueue : t.segmentsUnackno = s.segmentsUnackno)
    (hcount : t.consecutiveRetransmissions = s.consecutiveRetransmissions) : Backoff T t := by
  refine ⟨h.toDoubled.congr htimer hqueue hcount, h.running.congr htimer hqueue hcount, ?_⟩
  rw [htimer]
  exact h.elapsed

theorem sent (hT : 0 < T) (g : TCPSegment) (h : Backoff T s) : Backoff T (s.sent g) := by
  refine ⟨h.toDoubled.sent g, h.running.sent g, ?_⟩
  have htimer : (s.sent g).timer = if !s.timer.running then s.timer.start else s.timer := rfl
  intro hrun
  rw [htimer] at hrun ⊢
  split_ifs at hrun ⊢
  · show 0 < s.timer.curRTO
    rw [h.cur]
    positivity
  · exact h.elapsed hrun

theorem acked (hT : 0 < T) {ackno : WrappingInt32} {w : UInt16} (h : Backoff T s)
    (ha : s.acceptAck ackno w = some t) : Backoff T t := by
  refine ⟨h.toDoubled.acked ha, h.running.acked ha, fun hrun => ?_⟩
  rcases acceptAck_timer ha with ⟨-, hcount, htimer⟩ | ⟨-, hcount, htimer⟩
  · rw [htimer] at hrun ⊢
    split_ifs at hrun ⊢
    · simp [Timer.stop] at hrun
    · exact h.elapsed hrun
  · have hpos : 0 < s.timer.initRTO := by rw [h.init]; exact hT
    rw [htimer]
    split_ifs <;> exact hpos

theorem elapsed_tick (hT : T < 2 ^ 16) (h : Backoff T s) (hcount : s.consecutiveRetransmissions ≤ 47)
    {ms : ℕ} (hms : ms < 2 ^ 63) (hrun : s.timer.running = true) :
    s.timer.tick ms = { s.timer with elapsedTime := s.timer.elapsedTime + ms } := by
  have hcur := h.cur_le hT hcount
  have helapsed := h.elapsed hrun
  rw [Timer.tick, if_pos hrun, uadd_eq (by omega)]

theorem expired_iff (hT : T < 2 ^ 16) (h : Backoff T s) (hcount : s.consecutiveRetransmissions ≤ 47)
    {ms : ℕ} (hms : ms < 2 ^ 63) : (s.timer.tick ms).checkExpired = true ↔
      s.segmentsUnackno ≠ [] ∧ s.timer.curRTO ≤ s.timer.elapsedTime + ms := by
  have hrunning : s.timer.running = true ↔ s.segmentsUnackno ≠ [] := h.running
  rw [← hrunning]
  unfold Timer.checkExpired
  rw [Timer.tick_running, Bool.and_eq_true, decide_eq_true_eq]
  refine and_congr_right fun hrun => ?_
  rw [h.elapsed_tick hT hcount hms hrun]

theorem tick (hT : 0 < T) (hT' : T < 2 ^ 16) (h : Backoff T s)
    (hcount : s.consecutiveRetransmissions ≤ 47) {ms : ℕ} (hms : ms < 2 ^ 63) :
    Backoff T (s.tick ms) := by
  have hdoubled := h.toDoubled.tick hT' hcount ms
  have hrunning := h.running.tick ms
  refine ⟨hdoubled, hrunning, fun hrun => ?_⟩
  rcases tick_cases s ms with ⟨hno, htick⟩ | ⟨g, rest, -, -, htick⟩
  · rw [htick] at hrunning hrun ⊢
    have hqueue := hrunning.mp hrun
    have hlate : ¬ s.timer.curRTO ≤ s.timer.elapsedTime + ms := fun hle => by
      have := (h.expired_iff hT' hcount hms).mpr ⟨hqueue, hle⟩
      rcases hno with hno | hno
      · exact hqueue hno
      · simp [hno] at this
    have hticked := h.elapsed_tick hT' hcount hms (h.running.mpr hqueue)
    simp only [hticked]
    omega
  · have hstart : (s.tick ms).timer.elapsedTime = 0 := by rw [htick]; rfl
    rw [hstart, hdoubled.cur]
    positivity

theorem run {accepted : List Byte} {first : List TCPSegment} (hT : 0 < T) (hT' : T < 2 ^ 16)
    (ht : Tiles accepted first s) (h : Backoff T s) (hcount : s.consecutiveRetransmissions ≤ 47)
    {op : SenderOp} (hop : ∀ ms, op = .tick ms → ms < 2 ^ 63) : Backoff T (op.run s) :=
  SenderOp.run_timer congr (sent hT) (acked hT) ht h op fun ms hms => h.tick hT hT' hcount (hop ms hms)

end Backoff

/-- The operation is an acknowledgment that takes at least one segment off the queue. -/
def TCPSender.Removes (s : TCPSender) : SenderOp → Prop
  | .ackReceived ackno w => ∃ t, s.acceptAck ackno w = some t ∧
      t.segmentsUnackno.length < s.segmentsUnackno.length
  | _ => False

instance (s : TCPSender) : (op : SenderOp) → Decidable (s.Removes op)
  | .ackReceived ackno w =>
    decidable_of_iff ((s.acceptAck ackno w).any fun t =>
        decide (t.segmentsUnackno.length < s.segmentsUnackno.length))
      (by simp [Removes, Option.any_eq_true])
  | .write _ | .endInput | .setError | .fillWindow | .tick _ | .sendEmptySegment | .sendFlagged _
  | .popSegment => isFalse id

/-- The window after an operation, when only an accepted acknowledgment brings a new one. -/
def TCPSender.windowAfter (s : TCPSender) (window : ℕ) : SenderOp → ℕ
  | .ackReceived ackno w => if (s.acceptAck ackno w).isSome then w.toNat else window
  | _ => window

theorem Tiles.run_window {accepted : List Byte} {first : List TCPSegment} {s : TCPSender}
    (ht : Tiles accepted first s) (op : SenderOp) :
    (op.run s).windowSize = s.windowAfter s.windowSize op := by
  cases op with
  | fillWindow =>
    obtain ⟨gs, hgs⟩ := fillWindow_spec s ht.ready
    exact hgs.grown.windowSize
  | ackReceived ackno w =>
    simp only [SenderOp.run, windowAfter]
    rcases ht.ackReceived_cases ackno w with ⟨ha, hsame⟩ | ⟨t, gs, ha, hacked, hrun, hgs⟩
    · rw [hsame, ha]
      rfl
    · rw [hrun, ha]
      exact hgs.grown.windowSize.trans hacked.window
  | tick ms =>
    obtain ⟨gs, hk, -⟩ := tick_spec s ms
    exact hk.window
  | write | endInput | setError | sendEmptySegment | sendFlagged | popSegment => rfl

theorem TCPSender.Sends.timeout {s t : TCPSender} {gs : List TCPSegment} (h : Sends s gs t) :
    t.consecutiveRetransmissions = s.consecutiveRetransmissions ∧
      t.timer.curRTO = s.timer.curRTO :=
  Sends.keeps (P := fun t _ => t.consecutiveRetransmissions = s.consecutiveRetransmissions ∧
      t.timer.curRTO = s.timer.curRTO)
    (fun u _ g _ hu _ _ => ⟨hu.1, (u.sent_rto g).2.trans hu.2⟩) h [] ⟨rfl, rfl⟩

theorem Tiles.run_reset {accepted : List Byte} {first : List TCPSegment} {s : TCPSender}
    (ht : Tiles accepted first s) {op : SenderOp} (hop : s.Removes op) :
    (op.run s).consecutiveRetransmissions = 0 ∧ (op.run s).timer.curRTO = s.timer.initRTO := by
  cases op with
  | ackReceived ackno w =>
    obtain ⟨t, ha, hshorter⟩ := hop
    obtain ⟨gs, hgs⟩ := fillWindow_spec t (ht.acked (acceptAck_spec ha).2.2).ready
    simp only [SenderOp.run, TCPSender.ackReceived, ha]
    rw [hgs.timeout.1, hgs.timeout.2]
    obtain ⟨-, ⟨hqueue, -⟩ | ⟨-, hcount, hcur⟩⟩ := acceptAck_rto ha
    · rw [hqueue] at hshorter
      exact absurd hshorter (lt_irrefl _)
    · exact ⟨hcount, hcur⟩
  | write | endInput | setError | fillWindow | tick | sendEmptySegment | sendFlagged | popSegment =>
    exact hop.elim

theorem Tiles.run_unreset {accepted : List Byte} {first : List TCPSegment} {s : TCPSender}
    (ht : Tiles accepted first s) {op : SenderOp} (hop : ¬ s.Removes op)
    (htick : ∀ ms, op ≠ .tick ms) :
    (op.run s).consecutiveRetransmissions = s.consecutiveRetransmissions ∧
      (op.run s).timer.curRTO = s.timer.curRTO := by
  cases op with
  | fillWindow =>
    obtain ⟨gs, hgs⟩ := fillWindow_spec s ht.ready
    exact hgs.timeout
  | ackReceived ackno w =>
    simp only [SenderOp.run]
    rcases ht.ackReceived_cases ackno w with ⟨-, hsame⟩ | ⟨t, gs, ha, -, hrun, hgs⟩
    · rw [hsame]
      exact ⟨rfl, rfl⟩
    · rw [hrun, hgs.timeout.1, hgs.timeout.2]
      obtain ⟨-, ⟨-, hcount, hcur⟩ | ⟨hshorter, -⟩⟩ := acceptAck_rto ha
      · exact ⟨hcount, hcur⟩
      · exact absurd ⟨t, ha, hshorter⟩ hop
  | tick ms => exact absurd rfl (htick ms)
  | write | endInput | setError | sendEmptySegment | sendFlagged | popSegment => exact ⟨rfl, rfl⟩

end Sponge
