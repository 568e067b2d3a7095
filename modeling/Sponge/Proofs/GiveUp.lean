import Sponge.Sanity.Acted
import Sponge.Sanity.Live
import Sponge.Sanity.Returns

/-! When a connection gives up. A run counts its timeouts at an open window since an
acknowledgment last removed a segment: the first eight resend, and the ninth sends a RST
in place of the segment and closes the connection. -/

namespace Sponge

open TCPSender SenderOp

namespace TCPConnection

/-- A tick of `ms` finds the timer expired with a segment outstanding. -/
def TimesOut (c : TCPConnection) (ms : ℕ) : Prop :=
  c.sender.segmentsUnackno ≠ [] ∧ (c.sender.timer.tick ms).checkExpired = true

instance (c : TCPConnection) (ms : ℕ) : Decidable (c.TimesOut ms) :=
  inferInstanceAs (Decidable (_ ∧ _))

/-- The acknowledgment that a call hands to the sender. -/
def acks (c : TCPConnection) : ConnectionOp → List SenderOp
  | .segmentReceived g => if c.isActive = true ∧ g.header.rst = false then g.acks else []
  | _ => []

/-- How many segments with sequence numbers a call that ends in `c'` has enqueued. -/
def resends (c c' : TCPConnection) : ℕ :=
  (c'.segmentsOut.drop c.segmentsOut.length).countP fun g => decide (0 < g.lengthInSequenceSpace)

/-- An empty RST in place of a segment, and both streams and the connection are closed. -/
structure GivesUp (c c' : TCPConnection) : Prop where
  reset : ∃ g : TCPSegment, c'.segmentsOut = c.segmentsOut ++ [g] ∧ g.header.rst = true ∧
    g.lengthInSequenceSpace = 0 ∧ g.header.seqno = wrap c.sender.nextSeqno c.sender.isn
  failed : c'.Failed
  inactive : c'.isActive = false

end TCPConnection

/-- `window` is that of the last acknowledgment accepted, 1 before the first. Since an
acknowledgment last removed a segment, `timeouts` counts the timeouts at a window that is
not zero and `resent` the segments that ticks enqueued again at one. -/
structure Retries where
  conn : TCPConnection
  window : ℕ
  timeouts : ℕ
  resent : ℕ
  deriving DecidableEq

namespace Retries

def new (cfg : TCPConfig) (random : WrappingInt32) : Retries :=
  ⟨TCPConnection.new cfg random, 1, 0, 0⟩

/-- The counts after a call that leaves the connection as `conn`. -/
def after (r : Retries) (conn : TCPConnection) : ConnectionOp → Retries
  | .tick ms =>
    { conn := conn
      window := r.window
      timeouts := if r.window ≠ 0 ∧ r.conn.TimesOut ms then r.timeouts + 1 else r.timeouts
      resent := if r.window ≠ 0 then r.resent + r.conn.resends conn else r.resent }
  | op =>
    let window := (r.conn.acks op).foldl r.conn.sender.windowAfter r.window
    if ∃ a ∈ r.conn.acks op, r.conn.sender.Removes a then ⟨conn, window, 0, 0⟩
    else ⟨conn, window, r.timeouts, r.resent⟩

def step (r : Retries) (op : ConnectionOp) : Except Fault Retries :=
  (r.conn.step op).map fun conn => r.after conn op

/-- The tick is the ninth such timeout. -/
def Ninth (r : Retries) (ms : ℕ) : Prop := r.timeouts = 8 ∧ r.window ≠ 0 ∧ r.conn.TimesOut ms

instance (r : Retries) (ms : ℕ) : Decidable (r.Ninth ms) := inferInstanceAs (Decidable (_ ∧ _))

/-- `P` of the state in which a tick is called and of its length. -/
def AtTick (P : Retries → ℕ → Prop) (r : Retries) : ConnectionOp → Prop
  | .tick ms => P r ms
  | _ => True

instance (P : Retries → ℕ → Prop) [∀ r ms, Decidable (P r ms)] (r : Retries) :
    (op : ConnectionOp) → Decidable (AtTick P r op)
  | .tick ms => inferInstanceAs (Decidable (P r ms))
  | .connect | .write _ | .endInputStream | .read _ | .segmentReceived _ => isTrue trivial

end Retries

/-- No outstanding segment is a RST. -/
def Plain (s : TCPSender) : Prop := ∀ g ∈ s.segmentsUnackno, g.header.rst = false

namespace Plain

variable {s : TCPSender}

theorem pushSegment (h : Plain s) (room : ℕ) : Plain (s.pushSegment room).1 := by
  unfold TCPSender.pushSegment
  simp only
  split
  · exact fun g hg => h g hg
  · split
    · exact fun g hg => h g hg
    · intro g hg
      rcases List.mem_append.mp hg with hg | hg
      · exact h g hg
      · rw [List.mem_singleton.mp hg]

theorem fillWindow (h : Plain s) : Plain s.fillWindow :=
  fillWindow_keeps (fun _ room hs => hs.pushSegment room) h

theorem acked (h : Plain s) {ackno : WrappingInt32} {w : UInt16} {t : TCPSender}
    (ha : s.acceptAck ackno w = some t) : Plain t := by
  intro g hg
  rw [(acceptAck_spec ha).2.2.queue] at hg
  exact h g ((List.dropWhile_suffix _).subset hg)

theorem run (h : Plain s) (op : SenderOp) : Plain (op.run s) := by
  cases op with
  | fillWindow => exact h.fillWindow
  | ackReceived ackno w =>
    simp only [SenderOp.run, TCPSender.ackReceived]
    cases ha : s.acceptAck ackno w with
    | none => exact h
    | some t => exact (h.acked ha).fillWindow
  | tick ms =>
    obtain ⟨gs, hk, -⟩ := tick_spec s ms
    intro g hg
    rw [SenderOp.run, hk.queue] at hg
    exact h g hg
  | write | endInput | setError | sendEmptySegment | sendFlagged | popSegment => exact h

end Plain

namespace TCPConnection

theorem resends_append {c c' : TCPConnection} {new : List TCPSegment}
    (h : c'.segmentsOut = c.segmentsOut ++ new) :
    c.resends c' = new.countP fun g => decide (0 < g.lengthInSequenceSpace) := by
  rw [resends, h, List.drop_left]

theorem tick_sender (c : TCPConnection) (ms : ℕ) :
    (c.tick ms).sender.timer = (c.sender.tick ms).timer ∧
      (c.tick ms).sender.segmentsUnackno = (c.sender.tick ms).segmentsUnackno ∧
      (c.tick ms).sender.consecutiveRetransmissions =
        (c.sender.tick ms).consecutiveRetransmissions ∧
      (c.tick ms).sender.windowSize = (c.sender.tick ms).windowSize := by
  unfold tick
  simp only
  split
  · exact ⟨rfl, rfl, rfl, rfl⟩
  · rw [(finish_frame _).1]
    exact ⟨rfl, rfl, rfl, rfl⟩

theorem tick_givesUp {c : TCPConnection} {ms : ℕ}
    (h : maxRetxAttempts < (c.sender.tick ms).consecutiveRetransmissions) :
    c.GivesUp (c.tick ms) := by
  obtain ⟨gs, hk, -⟩ := tick_spec c.sender ms
  unfold tick
  simp only [if_pos h]
  refine ⟨⟨_, rfl, assemble_rst _ _, assemble_length _ _, (assemble_seqno _ _).trans ?_⟩,
    ⟨rfl, rfl⟩, rfl⟩
  show wrap (c.sender.tick ms).nextSeqno (c.sender.tick ms).isn = _
  rw [hk.next, hk.isn]

theorem tick_goesOn {c : TCPConnection} {ms : ℕ}
    (h : ¬ maxRetxAttempts < (c.sender.tick ms).consecutiveRetransmissions) :
    (c.tick ms).segmentsOut =
      c.segmentsOut ++ (c.sender.tick ms).segmentsOut.map (assemble c.receiver) := by
  unfold tick
  simp only [if_neg h]
  rw [(finish_frame _).2.1]
  rfl

end TCPConnection

/-- Neither an acknowledgment nor a tick. -/
def SenderOp.idle : SenderOp → Bool
  | .ackReceived _ _ => false
  | .tick _ => false
  | _ => true

/-- A call other than a tick hands over its acknowledgment, if it has one, and then does
nothing that counts. -/
theorem Runs.acks_first {c : TCPConnection} {op : ConnectionOp} {ops : List SenderOp}
    (h : Runs c op ops) (hop : ∀ ms, op ≠ .tick ms) :
    ∃ rest, ops = c.acks op ++ rest ∧ ∀ o ∈ rest, o.idle = true := by
  cases h with
  | connect => exact ⟨_, rfl, by simp [idle]⟩
  | write => exact ⟨_, rfl, by simp [idle]⟩
  | endInputStream => exact ⟨_, rfl, by simp [idle]⟩
  | tick ms => exact absurd rfl (hop ms)
  | giveUp ms => exact absurd rfl (hop ms)
  | read => exact ⟨_, rfl, by simp⟩
  | dead g hdead => exact ⟨[], by simp [TCPConnection.acks, hdead], by simp⟩
  | reset g _ hrst => exact ⟨[.setError], by simp [TCPConnection.acks, hrst], by simp [idle]⟩
  | heard g hactive hrst reply hreply =>
    refine ⟨reply, by simp [TCPConnection.acks, hactive, hrst], fun o ho => ?_⟩
    rcases hreply o ho with rfl | rfl <;> rfl

theorem SenderRun.run_idle {y : SenderRun} (ht : Tiles y.accepted y.sent y.sender)
    {ops : List SenderOp} (hops : ∀ o ∈ ops, o.idle = true) :
    (y.run ops).sender.consecutiveRetransmissions = y.sender.consecutiveRetransmissions ∧
      (y.run ops).sender.windowSize = y.sender.windowSize := by
  refine (SenderRun.run_keeps (C := fun o => o.idle = true)
    (I := fun r => r.sender.consecutiveRetransmissions = y.sender.consecutiveRetransmissions ∧
      r.sender.windowSize = y.sender.windowSize) (fun r op hop hr hI => ?_) ops y hops ht ⟨rfl, rfl⟩).2
  have hquiet : ¬ r.sender.Removes op := by
    cases op <;> simp [idle, TCPSender.Removes] at hop ⊢
  have htick : ∀ ms, op ≠ .tick ms := by
    rintro ms rfl
    cases hop
  have hwindow : r.sender.windowAfter r.sender.windowSize op = r.sender.windowSize := by
    cases op <;> simp [idle, TCPSender.windowAfter] at hop ⊢
  refine ⟨(hr.run_unreset hquiet htick).1.trans hI.1, ?_⟩
  exact ((hr.run_window op).trans hwindow).trans hI.2

theorem TCPConnection.acks_cases (c : TCPConnection) (op : ConnectionOp) :
    c.acks op = [] ∨ ∃ ackno w, c.acks op = [.ackReceived ackno w] := by
  cases op with
  | segmentReceived g =>
    unfold acks TCPSegment.acks
    simp only
    split_ifs
    · exact Or.inr ⟨_, _, rfl⟩
    · exact Or.inl rfl
    · exact Or.inl rfl
  | connect | write | endInputStream | tick | read => exact Or.inl rfl

theorem Live.call_counts {x : SenderRun} {c c' : TCPConnection} (h : Live x c) {op : ConnectionOp}
    (hop : ∀ ms, op ≠ .tick ms) (hs : c.step op = .ok c') :
    c'.sender.consecutiveRetransmissions =
        (if ∃ a ∈ c.acks op, c.sender.Removes a then 0 else c.sender.consecutiveRetransmissions) ∧
      c'.sender.windowSize = (c.acks op).foldl c.sender.windowAfter c.sender.windowSize := by
  obtain ⟨ops, hr, hc⟩ := TCPConnection.step_called (h.sender ▸ h.flushed) hs
  obtain ⟨rest, rfl, hrest⟩ := hr.acks_first hop
  have hrun : runs c.sender (c.acks op ++ rest) = ((x.run (c.acks op)).run rest).sender := by
    rw [runs_append, SenderRun.run_sender, SenderRun.run_sender, h.sender]
  obtain ⟨hcount, hwindow⟩ := SenderRun.run_idle (h.run_ops (c.acks op)).1 hrest
  rw [hc.sender, hrun]
  simp only [hcount, hwindow]
  have ht := h.tiles
  rw [SenderRun.run_sender]
  rw [h.sender] at ht ⊢
  rcases c.acks_cases op with hnone | ⟨ackno, w, hack⟩
  · rw [hnone]
    simp [runs]
  · rw [hack]
    simp only [runs, List.foldl, List.mem_singleton, exists_eq_left]
    refine ⟨?_, ht.run_window _⟩
    split_ifs with hremoves
    · exact (ht.run_reset hremoves).1
    · exact (ht.run_unreset hremoves (by simp)).1

theorem Live.call_keeps {T : ℕ} {x : SenderRun} {c c' : TCPConnection} (h : Live x c)
    {op : ConnectionOp} (hop : ∀ ms, op ≠ .tick ms) (hs : c.step op = .ok c')
    (hplain : Plain c.sender) (hdoubled : Doubled T c.sender) :
    Plain c'.sender ∧ Doubled T c'.sender := by
  obtain ⟨ops, hr, hc⟩ := TCPConnection.step_called (h.sender ▸ h.flushed) hs
  have hops : ∀ o ∈ ops, ∀ ms, o ≠ .tick ms := by
    obtain ⟨rest, rfl, hrest⟩ := hr.acks_first hop
    rintro o ho ms rfl
    rcases List.mem_append.mp ho with ho | ho
    · rcases c.acks_cases op with hnone | ⟨ackno, w, hack⟩
      · simp [hnone] at ho
      · simp [hack] at ho
    · cases hrest _ ho
  have hkeeps := (SenderRun.run_keeps (C := fun o => ∀ ms, o ≠ .tick ms)
    (I := fun r => Plain r.sender ∧ Doubled T r.sender)
    (fun r o ho hr hI => ⟨hI.1.run o, hI.2.run hr ho⟩) ops x hops h.tiles
    (h.sender ▸ ⟨hplain, hdoubled⟩)).2
  rw [SenderRun.run_sender, h.sender] at hkeeps
  rw [hc.sender]
  exact ⟨hkeeps.1, hkeeps.2.congr rfl rfl rfl⟩

theorem Tiles.queue_pos {accepted : List Byte} {first : List TCPSegment} {s : TCPSender}
    (ht : Tiles accepted first s) : ∀ g ∈ s.segmentsUnackno, 0 < g.lengthInSequenceSpace := by
  intro g hg
  obtain ⟨pre, post, hsplit⟩ := List.append_of_mem (ht.queue.subset hg)
  exact (ht.piece_at hsplit).pos

/-- The counts of a run are those of its sender, and the timeout has been doubled as often. -/
structure Trying (T : ℕ) (r : Retries) : Prop where
  live : ∃ x, Live x r.conn
  plain : Plain r.conn.sender
  doubled : Doubled T r.conn.sender
  window : r.conn.sender.windowSize = r.window
  count : r.conn.sender.consecutiveRetransmissions = r.timeouts
  resent : r.resent = min r.timeouts 8
  last : r.timeouts ≤ 9
  active : r.conn.isActive = true → r.timeouts ≤ 8

namespace Trying

variable {T : ℕ} {r : Retries}

theorem new (cfg : TCPConfig) (random : WrappingInt32) :
    Trying cfg.rtTimeout.toNat (Retries.new cfg random) where
  live := Live.new cfg random
  plain := by simp [Plain, Retries.new, TCPConnection.new, TCPSender.new]
  doubled := Doubled.new _ _ _
  window := rfl
  count := rfl
  resent := rfl
  last := Nat.zero_le _
  active _ := Nat.zero_le _

theorem call (h : Trying T r) {op : ConnectionOp} (hop : ∀ ms, op ≠ .tick ms) {c' : TCPConnection}
    (hs : r.conn.step op = .ok c') : Trying T (r.after c' op) := by
  obtain ⟨x, hx⟩ := h.live
  obtain ⟨x', hx', -⟩ := hx.step hs
  obtain ⟨hplain, hdoubled⟩ := hx.call_keeps hop hs h.plain h.doubled
  obtain ⟨hcount, hwindow⟩ := hx.call_counts hop hs
  rw [h.count] at hcount
  rw [h.window] at hwindow
  have hafter : r.after c' op =
      if ∃ a ∈ r.conn.acks op, r.conn.sender.Removes a
      then ⟨c', (r.conn.acks op).foldl r.conn.sender.windowAfter r.window, 0, 0⟩
      else ⟨c', (r.conn.acks op).foldl r.conn.sender.windowAfter r.window, r.timeouts, r.resent⟩ := by
    cases op with
    | tick ms => exact absurd rfl (hop ms)
    | connect | write | endInputStream | read | segmentReceived => rfl
  rw [hafter]
  split_ifs at hcount ⊢
  · exact ⟨⟨x', hx'⟩, hplain, hdoubled, hwindow, hcount, rfl, Nat.zero_le _, fun _ => Nat.zero_le _⟩
  · refine ⟨⟨x', hx'⟩, hplain, hdoubled, hwindow, hcount, h.resent, h.last, fun hactive => ?_⟩
    exact h.active (TCPConnection.step_active hs hactive)

theorem tick_cases (h : Trying T r) (hle : r.timeouts ≤ 8) (ms : ℕ) :
    (¬ r.conn.TimesOut ms ∧ (r.conn.tick ms).segmentsOut = r.conn.segmentsOut ∧
      (r.conn.sender.tick ms).consecutiveRetransmissions = r.timeouts) ∨
    (r.conn.TimesOut ms ∧ ¬ r.Ninth ms ∧
      (r.conn.sender.tick ms).consecutiveRetransmissions =
        (if r.window ≠ 0 then r.timeouts + 1 else r.timeouts) ∧
      ∃ g, (r.conn.tick ms).segmentsOut = r.conn.segmentsOut ++ [g] ∧ g.header.rst = false ∧
        0 < g.lengthInSequenceSpace) ∨
    (r.Ninth ms ∧ r.conn.GivesUp (r.conn.tick ms) ∧
      (r.conn.sender.tick ms).consecutiveRetransmissions = 9) := by
  obtain ⟨x, hx⟩ := h.live
  have hflushed := hx.flushed
  have ht := hx.tiles
  rw [hx.sender] at hflushed ht
  rcases Sponge.tick_cases r.conn.sender ms with ⟨hno, htick⟩ | ⟨g, rest, hq, hyes, htick⟩
  · have hcount : (r.conn.sender.tick ms).consecutiveRetransmissions = r.timeouts := by
      rw [htick]
      exact h.count
    refine Or.inl ⟨fun hout => ?_, ?_, hcount⟩
    · rcases hno with hno | hno
      · exact hout.1 hno
      · simp [hout.2] at hno
    · rw [TCPConnection.tick_goesOn (by rw [hcount, maxRetxAttempts]; omega), htick]
      simp [hflushed]
  · have hout : r.conn.TimesOut ms := ⟨by simp [hq], hyes⟩
    have hcount : (r.conn.sender.tick ms).consecutiveRetransmissions =
        if r.window ≠ 0 then r.timeouts + 1 else r.timeouts := by
      rw [htick]
      simp only [h.window, h.count, Nat.pos_iff_ne_zero]
    by_cases hninth : r.Ninth ms
    · rw [if_pos hninth.2.1, hninth.1] at hcount
      exact Or.inr (Or.inr ⟨hninth, TCPConnection.tick_givesUp (by rw [hcount]; decide), hcount⟩)
    · have hgo : ¬ maxRetxAttempts < (r.conn.sender.tick ms).consecutiveRetransmissions := by
        rw [hcount, maxRetxAttempts]
        split_ifs with hwindow
        · have : r.timeouts ≠ 8 := fun heq => hninth ⟨heq, hwindow, hout⟩
          omega
        · omega
      refine Or.inr (Or.inl ⟨hout, hninth, hcount, TCPConnection.assemble r.conn.receiver g, ?_,
        ?_, ?_⟩)
      · rw [TCPConnection.tick_goesOn hgo, htick]
        simp only [hflushed, List.nil_append, List.map_cons, List.map_nil]
      · rw [TCPConnection.assemble_rst]
        exact h.plain g (by simp [hq])
      · rw [TCPConnection.assemble_length]
        exact ht.queue_pos g (by simp [hq])

theorem tick (h : Trying T r) (hT : T < 2 ^ 16) (hactive : r.conn.isActive = true) (ms : ℕ) :
    Trying T (r.after (r.conn.tick ms) (.tick ms)) := by
  obtain ⟨x, hx⟩ := h.live
  obtain ⟨x', hx', -⟩ := hx.step (show r.conn.step (.tick ms) = .ok (r.conn.tick ms) from rfl)
  obtain ⟨htimer, hqueue, hcount, hwindow⟩ := r.conn.tick_sender ms
  obtain ⟨gs, hk, -⟩ := tick_spec r.conn.sender ms
  have hle := h.active hactive
  have hplain : Plain (r.conn.tick ms).sender := fun g hg => by
    rw [hqueue, hk.queue] at hg
    exact h.plain g hg
  have hdoubled : Doubled T (r.conn.tick ms).sender :=
    (h.doubled.tick hT (by rw [h.count]; omega) ms).congr htimer hqueue hcount
  have hsame : (r.conn.tick ms).sender.windowSize = r.window :=
    (hwindow.trans hk.window).trans h.window
  have hresent := h.resent
  have hbuild : ∀ timeouts resent, (r.conn.tick ms).sender.consecutiveRetransmissions = timeouts →
      resent = min timeouts 8 → timeouts ≤ 9 → ((r.conn.tick ms).isActive = true → timeouts ≤ 8) →
      Trying T ⟨r.conn.tick ms, r.window, timeouts, resent⟩ :=
    fun _ _ h1 h2 h3 h4 => ⟨⟨x', hx'⟩, hplain, hdoubled, hsame, h1, h2, h3, h4⟩
  simp only [Retries.after]
  rcases h.tick_cases hle ms with ⟨hno, hout, hnew⟩ | ⟨hyes, hninth, hnew, g, hout, -, hpos⟩ |
    ⟨hninth, hgive, hnew⟩
  · have hnone : r.conn.resends (r.conn.tick ms) = 0 :=
      TCPConnection.resends_append (hout.trans (List.append_nil _).symm)
    rw [if_neg fun hc => hno hc.2, hnone, Nat.add_zero, ite_self]
    exact hbuild _ _ (hcount.trans hnew) hresent h.last fun _ => hle
  · have hone : r.conn.resends (r.conn.tick ms) = 1 := by
      rw [TCPConnection.resends_append hout]
      simp [hpos]
    rw [hone]
    by_cases hwindow : r.window = 0
    · rw [if_neg fun hc => hc.1 hwindow, if_neg fun hc => hc hwindow]
      rw [if_neg fun hc => hc hwindow] at hnew
      exact hbuild _ _ (hcount.trans hnew) hresent h.last fun _ => hle
    · have hlt : r.timeouts ≠ 8 := fun heq => hninth ⟨heq, hwindow, hyes⟩
      rw [if_pos ⟨hwindow, hyes⟩, if_pos hwindow]
      rw [if_pos hwindow] at hnew
      exact hbuild _ _ (hcount.trans hnew) (by omega) (by omega) fun _ => by omega
  · obtain ⟨b, hout, -, hempty, -⟩ := hgive.reset
    have hnone : r.conn.resends (r.conn.tick ms) = 0 := by
      rw [TCPConnection.resends_append hout]
      simp [hempty]
    rw [if_pos hninth.2, if_pos hninth.2.1, hnone]
    have hcounted := hninth.1
    refine hbuild _ _ (hcount.trans (by rw [hnew, hcounted])) (by omega) (by omega) fun hactive' => ?_
    exact absurd (hgive.inactive.symm.trans hactive') (by simp)

theorem step (hT : T < 2 ^ 16) (r : Retries) (op : ConnectionOp) (h : Trying T r)
    (hop : Retries.AtTick (fun r _ => r.conn.isActive = true) r op) :
    ∃ r', r.step op = .ok r' ∧ Trying T r' := by
  obtain ⟨c', hs⟩ := TCPConnection.step_returns r.conn op
  refine ⟨r.after c' op, by rw [Retries.step, hs]; rfl, ?_⟩
  cases op with
  | tick ms =>
    cases hs
    exact h.tick hT hop ms
  | connect => exact h.call (by simp) hs
  | write => exact h.call (by simp) hs
  | endInputStream => exact h.call (by simp) hs
  | read => exact h.call (by simp) hs
  | segmentReceived => exact h.call (by simp) hs

theorem gives_up_or_not (h : Trying T r) (hactive : r.conn.isActive = true) (ms : ℕ) :
    (r.Ninth ms → r.conn.GivesUp (r.conn.tick ms)) ∧
      (¬ r.Ninth ms → ∃ new, (r.conn.tick ms).segmentsOut = r.conn.segmentsOut ++ new ∧
        ∀ g ∈ new, g.header.rst = false) := by
  rcases h.tick_cases (h.active hactive) ms with ⟨hno, hout, -⟩ | ⟨-, hninth, -, g, hout, hrst, -⟩ |
    ⟨hninth, hgive, -⟩
  · exact ⟨fun hninth => absurd hninth.2.2 hno, fun _ => ⟨[], by rw [hout, List.append_nil], by simp⟩⟩
  · exact ⟨fun hc => absurd hc hninth, fun _ => ⟨[g], hout, by simp [hrst]⟩⟩
  · exact ⟨fun _ => hgive, fun hno => absurd hninth hno⟩

end Trying

/-- In every run whose ticks meet an active connection, also with an initial timeout of
zero. -/
theorem give_up (cfg : TCPConfig) (random : WrappingInt32) (ops : List ConnectionOp)
    (hticks : Each Retries.step (Retries.AtTick fun r _ => r.conn.isActive = true)
      (Retries.new cfg random) ops) :
    (∃ r, exec Retries.step (Retries.new cfg random) ops = .ok r) ∧
    Always Retries.step (fun r => r.resent ≤ 8 ∧
      r.conn.sender.timer.curRTO = cfg.rtTimeout.toNat * 2 ^ r.timeouts ∧
      r.conn.sender.timer.curRTO ≤ cfg.rtTimeout.toNat * 2 ^ 9) (Retries.new cfg random) ops ∧
    Each Retries.step (Retries.AtTick fun r ms =>
      (r.Ninth ms → r.conn.GivesUp (r.conn.tick ms)) ∧
      (¬ r.Ninth ms → ∃ new, (r.conn.tick ms).segmentsOut = r.conn.segmentsOut ++ new ∧
        ∀ g ∈ new, g.header.rst = false)) (Retries.new cfg random) ops := by
  have hstep := Trying.step cfg.rtTimeout.toNat_lt
  have hnew := Trying.new cfg random
  refine ⟨?_, Always.of_inv hstep (fun r hr => ?_) hnew hticks, ?_⟩
  · obtain ⟨r, hrun, -⟩ := exec_inv hstep hnew hticks
    exact ⟨r, hrun⟩
  · have hcur := hr.doubled.cur
    rw [hr.count] at hcur
    refine ⟨?_, hcur, ?_⟩
    · rw [hr.resent]
      exact Nat.min_le_right _ _
    · rw [hcur]
      exact Nat.mul_le_mul_left _ (Nat.pow_le_pow_right (by norm_num) hr.last)
  · refine Each.imp ?_ ((Each.of_inv hstep hnew hticks).and hticks)
    rintro r op ⟨hr, hop⟩
    cases op with
    | tick ms => exact hr.gives_up_or_not hop ms
    | connect | write | endInputStream | read | segmentReceived => trivial

/-- A SYN that nobody answers: eight copies, then the RST. -/
theorem give_up_unanswered :
    ∃ r, exec Retries.step (Retries.new {} ⟨7⟩) (.connect :: List.replicate 8 (.tick 512000)) = .ok r ∧
      r.Ninth 512000 ∧ r.conn.GivesUp (r.conn.tick 512000) := by
  obtain ⟨r, hrun, hninth⟩ : ∃ r, exec Retries.step (Retries.new {} ⟨7⟩)
      (.connect :: List.replicate 8 (.tick 512000)) = .ok r ∧ r.Ninth 512000 := by
    decide +kernel
  have hrun9 := (give_up {} ⟨7⟩ ((.connect :: List.replicate 8 (.tick 512000)) ++ [.tick 512000])
    (by decide +kernel)).2.2
  exact ⟨r, hrun, hninth, (hrun9.snoc hrun).2.1 hninth⟩

end Sponge
