import Sponge.Sanity.Transfer

/-! Flow control. The sender's last report, however old, allows nothing past the
receiver's right edge now, since that edge never moves back. So every byte sent
lies inside the receiver's window, but for the one byte sent into a closed one. -/

namespace Sponge

open Chunks StreamReassembler TCPSender

namespace TCPReceiver

/-- One past the last stream index the receiver has room for. -/
def limit (r : TCPReceiver) : ℕ := r.streamOut.bytesRead + r.capacity

def rightEdge (r : TCPReceiver) : ℕ := r.absAckno + r.windowSize

/-- What only grows in a receiver. -/
structure Ahead (r r' : TCPReceiver) : Prop where
  ackno : r.absAckno ≤ r'.absAckno
  index : r.reassembler.unassembledIndex ≤ r'.reassembler.unassembledIndex
  limit : r.limit ≤ r'.limit
  edge : r.rightEdge ≤ r'.rightEdge

theorem Ahead.refl (r : TCPReceiver) : Ahead r r := ⟨le_rfl, le_rfl, le_rfl, le_rfl⟩

theorem Ahead.trans {r r' r'' : TCPReceiver} (h : Ahead r r') (h' : Ahead r' r'') : Ahead r r'' :=
  ⟨h.ackno.trans h'.ackno, h.index.trans h'.index, h.limit.trans h'.limit, h.edge.trans h'.edge⟩

end TCPReceiver

theorem Link.rightEdge_eq {x : SenderRun} {taken : List Byte} {r : TCPReceiver}
    (h : Link x taken r) :
    r.rightEdge =
      r.limit + if r.setSyn then 1 + r.streamOut.inputEnded.toNat else 0 := by
  have h1 := h.inv.read_add_buffer
  have h2 := h.inv.room
  have h3 := h.capacity
  have h4 := h.inv.written
  unfold TCPReceiver.rightEdge TCPReceiver.limit TCPReceiver.absAckno TCPReceiver.windowSize
    TCPReceiver.streamOut ByteStream.bufferSize
  split_ifs with hsyn
  · omega
  · have := (h.listening (by simpa using hsyn)).1
    omega

theorem Link.receive_ahead {x : SenderRun} {taken : List Byte} {r r' : TCPReceiver} {g : TCPSegment}
    (h : Link x taken r) (hb : x.sender.nextSeqno < 2 ^ 31) (hd : Delivered x r g r') :
    r.Ahead r' := by
  obtain ⟨hlink, hmono⟩ := h.receive hb hd
  have hsame : ∀ {data index eof re}, Pushed r.reassembler data index eof re →
      r'.reassembler = re → r'.capacity = r.capacity → (r.setSyn = true → r'.setSyn = true) →
      r.Ahead r' := by
    intro data index eof re hp hre hcap hsyn
    have hread : r'.streamOut.bytesRead = r.streamOut.bytesRead := by
      rw [TCPReceiver.streamOut, hre]
      exact hp.bytesRead
    have hlimit : r'.limit = r.limit := by rw [TCPReceiver.limit, hread, hcap]; rfl
    refine ⟨hmono, by rw [hre]; exact hp.index_le, hlimit.ge, ?_⟩
    rw [h.rightEdge_eq, hlink.rightEdge_eq, hlimit]
    cases hs : r.setSyn with
    | false => simp
    | true =>
      rw [hsyn hs, if_pos rfl, if_pos rfl]
      cases hend : r.streamOut.inputEnded with
      | false => simp
      | true =>
        have : r'.streamOut.inputEnded = true := by
          rw [TCPReceiver.streamOut, hre]
          exact hp.inputEnded hend
        rw [this]
  cases hd with
  | ignored => exact .refl r
  | empty _ _ _ hp => exact hsame hp rfl rfl id
  | piece _ _ _ _ _ hp => exact hsame hp rfl rfl fun _ => rfl

theorem Link.read_ahead {x : SenderRun} {taken : List Byte} {r : TCPReceiver} (h : Link x taken r)
    (n : ℕ) : r.Ahead (r.withOutput (r.streamOut.popOutput n)) := by
  have hlimit : r.limit ≤ (r.withOutput (r.streamOut.popOutput n)).limit :=
    Nat.add_le_add_right (ByteStream.popOutput_bytesRead_le _ _) _
  refine ⟨le_rfl, le_rfl, hlimit, ?_⟩
  rw [h.rightEdge_eq, (h.read n).rightEdge_eq]
  exact Nat.add_le_add_right hlimit _

/-- A segment sent into a closed window with nothing in flight. -/
def FirstSend.Probe (e : FirstSend) : Prop := e.window = 0 ∧ e.inFlight = 0

instance (e : FirstSend) : Decidable e.Probe := inferInstanceAs (Decidable (_ ∧ _))

/-- The payload, at stream index `index`, lies in the receiver's window, or it is
the one byte of a probe, and not past the byte the receiver waits for. -/
def Fits (r : TCPReceiver) (index : ℕ) (e : FirstSend) : Prop :=
  e.segment.payload = [] ∨ index + e.segment.payload.length ≤ r.limit ∨
    (e.Probe ∧ e.segment.payload.length ≤ 1 ∧ index ≤ r.reassembler.unassembledIndex)

theorem Fits.ahead {r r' : TCPReceiver} {index : ℕ} {e : FirstSend} (h : Fits r index e)
    (hr : r.Ahead r') : Fits r' index e :=
  h.imp_right (Or.imp (fun h => h.trans hr.limit) fun h => ⟨h.1, h.2.1, h.2.2.trans hr.index⟩)

/-- What the sender last accepted, or its first guess of one sequence number. -/
def Allowed (s : TCPSender) (r : TCPReceiver) : Prop :=
  (s.recvAckno = 0 ∧ s.windowSize = 1) ∨
    (1 ≤ s.recvAckno ∧ s.recvAckno + s.windowSize ≤ r.rightEdge)

theorem Allowed.ahead {s : TCPSender} {r r' : TCPReceiver} (h : Allowed s r) (hr : r.Ahead r') :
    Allowed s r' :=
  h.imp_right fun h => ⟨h.1, h.2.trans hr.edge⟩

structure Flow (s : Transfer) : Prop where
  allowed : Allowed s.tx.sender s.rx
  reports : ∀ p ∈ s.reports, ∃ a, p.1 = wrap a s.tx.sender.isn ∧ 1 ≤ a ∧ a ≤ s.rx.absAckno ∧
    a + p.2.toNat ≤ s.rx.rightEdge
  fits : ∀ pre e post, s.tx.first = pre ++ e :: post →
    Fits s.rx (streamIndex (pre.map FirstSend.segment) e.segment) e

theorem Flow.new (sendCapacity retxTimeout : ℕ) (isn : WrappingInt32) (recvCapacity : ℕ) :
    Flow (Transfer.new sendCapacity retxTimeout isn recvCapacity) where
  allowed := Or.inl ⟨rfl, rfl⟩
  reports p hp := by simp [Transfer.new] at hp
  fits pre e post h := by simp [Transfer.new, SenderRun.new] at h

/-- A segment made now fits: what is in flight starts at the acknowledged position,
and the receiver's end has not come, since something is still to be sent. -/
theorem Link.fits_send {x : SenderRun} {taken : List Byte} {r : TCPReceiver} (h : Link x taken r)
    (hb : x.sender.nextSeqno < 2 ^ 31) {accepted : List Byte} {first : List TCPSegment}
    {u : TCPSender} {room : ℕ} {g : TCPSegment} (ht : Tiles accepted first u) (hq : Queue u)
    (hg : Send u room g) (hroom : u.bytesInFlight + room ≤ max 1 u.windowSize)
    (hfin : x.sender.setFin = true → u.setFin = true) (hallowed : Allowed u r)
    (hack : u.recvAckno ≤ r.absAckno) {window inFlight : ℕ} (hw : window = u.windowSize)
    (hf : inFlight ≤ u.bytesInFlight) :
    Fits r (streamIndex first g) ⟨g, window, inFlight⟩ := by
  have hopen : r.streamOut.inputEnded = false := by
    by_contra hend
    rw [Bool.not_eq_false] at hend
    have := hfin (h.ended hb hend).1
    rw [ht.not_finished hg] at this
    simp at this
  have hedge := h.rightEdge_eq
  have hpos := hg.pos
  have hlen := hg.room
  have hstart := hq.start
  have hcount := ht.count
  have hindex : r.streamOut.bytesWritten = r.reassembler.unassembledIndex := h.inv.written
  unfold TCPReceiver.absAckno at hack
  unfold TCPSegment.lengthInSequenceSpace at hpos hlen
  rw [hg.syn] at hpos hlen
  rw [ht.not_finished hg, Bool.toNat_false] at hcount
  rw [hopen, Bool.toNat_false] at hack hedge
  unfold Fits FirstSend.Probe streamIndex
  rw [← ht.next, hw, hg.syn]
  simp only
  by_cases hp : g.payload = []
  · exact Or.inl hp
  have hp' : 0 < g.payload.length := List.length_pos_iff.mpr hp
  apply Or.inr
  rcases hallowed with ⟨h1, h2⟩ | ⟨h1, h2⟩
  · cases hsyn : u.setSyn <;> simp only [hsyn, Bool.not_true, Bool.not_false, Bool.toNat_true,
      Bool.toNat_false] at hlen hcount <;> omega
  · have hr : r.setSyn = true := by
      by_contra hs
      rw [if_neg hs] at hack
      omega
    rw [if_pos hr] at hack hedge
    cases hsyn : u.setSyn <;> simp only [hsyn, Bool.not_true, Bool.not_false, Bool.toNat_true,
      Bool.toNat_false] at hlen hcount ⊢ <;> omega

theorem Link.fits_sends {x : SenderRun} {taken : List Byte} {r : TCPReceiver} (h : Link x taken r)
    (hb : x.sender.nextSeqno < 2 ^ 31) {accepted : List Byte} {first : List TCPSegment}
    {s t : TCPSender} {gs : List TCPSegment} (ht : Tiles accepted first s) (hq : Queue s)
    (hgs : Sends s gs t) (hfin : x.sender.setFin = true → s.setFin = true) (hallowed : Allowed s r)
    (hack : s.recvAckno ≤ r.absAckno) {mid post : List FirstSend} {e : FirstSend}
    (he : gs.map (fun g => ⟨g, s.windowSize, s.bytesInFlight⟩) = mid ++ e :: post) :
    Fits r (streamIndex (first ++ mid.map FirstSend.segment) e.segment) e := by
  have hmap := congrArg (List.map FirstSend.segment) he
  simp only [List.map_map, Function.comp_def, List.map_id', List.map_append, List.map_cons] at hmap
  have hmem : e ∈ gs.map fun g => (⟨g, s.windowSize, s.bytesInFlight⟩ : FirstSend) := by
    rw [he]
    exact List.mem_append_cons_self
  obtain ⟨g, -, rfl⟩ := List.mem_map.mp hmem
  obtain ⟨u, room, hu, hg, hroom⟩ := hgs.made hmap
  have hgrown := hu.grown
  refine h.fits_send hb (ht.sends hu) (Queue.sends ht hq hu) hg hroom
    (fun hset => hgrown.fin (hfin hset)) ?_ ?_ hgrown.windowSize.symm ?_
  · unfold Allowed
    rw [hgrown.recvAckno, hgrown.windowSize]
    exact hallowed
  · rw [hgrown.recvAckno]
    exact hack
  · rw [hgrown.flight]
    exact Nat.le_add_right _ _

/-- The sender as `fill_window` is entered: as it was, or with a report accepted. -/
theorem Flow.entered {s : Transfer} (h : Linked s) (hf : Flow s)
    (hb : s.tx.sender.nextSeqno < 2 ^ 31) {op : SenderOp}
    (hop : ∀ ackno w, op = .ackReceived ackno w → (ackno, w) ∈ s.reports) {u : TCPSender}
    (hu : u = s.tx.sender ∨
      ∃ ackno w, op = .ackReceived ackno w ∧ s.tx.sender.acceptAck ackno w = some u) :
    Tiles s.tx.accepted s.tx.sent u ∧ Queue u ∧ u.setFin = s.tx.sender.setFin ∧
      Allowed u s.rx ∧ u.recvAckno ≤ s.rx.absAckno := by
  rcases hu with rfl | ⟨ackno, w, rfl, ha⟩
  · exact ⟨h.link.tiles, h.link.queue, rfl, hf.allowed, h.link.acked⟩
  · obtain ⟨h1, h2, hacked⟩ := acceptAck_spec ha
    obtain ⟨a, rfl, ha1, ha2, ha3⟩ := hf.reports _ (hop ackno w rfl)
    have hrecv := hacked.recvAckno
    have hqueue := Queue.acked h.link.tiles h.link.queue (by omega) h1 h2 hacked
    rw [h.link.unwrap_ackno hb ha2] at hrecv
    refine ⟨h.link.tiles.acked hacked, hqueue, hacked.fin, Or.inr ?_, hrecv.trans_le ha2⟩
    rw [hrecv, hacked.window]
    exact ⟨ha1, ha3⟩

theorem Flow.send {s : Transfer} (h : Linked s) (hf : Flow s)
    (hb : s.tx.sender.nextSeqno < 2 ^ 31) (op : SenderOp)
    (hop : ∀ ackno w, op = .ackReceived ackno w → (ackno, w) ∈ s.reports) :
    Flow { s with tx := s.tx.step op } := by
  have hst := SenderRun.step_spec h.link.tiles op
  have hisn := (hst.onward h.link.tiles).isn
  generalize s.tx.step op = x at hst hisn
  have hreports : ∀ p ∈ s.reports, ∃ a, p.1 = wrap a x.sender.isn ∧ 1 ≤ a ∧ a ≤ s.rx.absAckno ∧
      a + p.2.toNat ≤ s.rx.rightEdge := by
    rw [hisn]
    exact hf.reports
  cases hst with
  | fed => exact ⟨hf.allowed, hreports, hf.fits⟩
  | filled u t gs hu hgs =>
    obtain ⟨ht, hq, hfin, hallowed, hack⟩ := hf.entered h hb hop hu
    have hgrown := hgs.grown
    refine ⟨?_, hreports, fun pre e post hl => ?_⟩
    · unfold Allowed
      simp only
      rw [hgrown.recvAckno, hgrown.windowSize]
      exact hallowed
    · rcases append_cases hl with ⟨rest, hl⟩ | ⟨mid, rfl, hmid⟩
      · exact hf.fits pre e rest hl
      · rw [List.map_append]
        exact h.link.fits_sends hb ht hq hgs (fun hset => hfin.trans hset) hallowed hack hmid
  | other t gs hk =>
    refine ⟨?_, hreports, hf.fits⟩
    unfold Allowed
    simp only
    rw [hk.recvAckno, hk.window]
    exact hf.allowed
  | popped => exact ⟨hf.allowed, hreports, hf.fits⟩

theorem Flow.ahead {s : Transfer} (hf : Flow s) {r : TCPReceiver} (hr : s.rx.Ahead r)
    (taken : List Byte) : Flow { s with rx := r, taken := taken } := by
  refine ⟨hf.allowed.ahead hr, fun p hp => ?_, fun pre e post hl => (hf.fits pre e post hl).ahead hr⟩
  obtain ⟨a, h1, h2, h3, h4⟩ := hf.reports p hp
  exact ⟨a, h1, h2, h3.trans hr.ackno, h4.trans hr.edge⟩

theorem Moved.ahead {s s' : Transfer} (hm : Moved s s') (h : Linked s)
    (hb : s.tx.sender.nextSeqno < 2 ^ 31) : s.rx.Ahead s'.rx := by
  cases hm with
  | stay => exact .refl _
  | send => exact .refl _
  | receive _ hd => exact h.link.receive_ahead hb hd
  | read n => exact h.link.read_ahead n
  | report => exact .refl _

theorem Flow.moved {s s' : Transfer} (hf : Flow s) (h : Linked s)
    (hb : s.tx.sender.nextSeqno < 2 ^ 31) (hm : Moved s s') : Flow s' := by
  cases hm with
  | stay => exact hf
  | send op hop => exact hf.send h hb op hop
  | receive _ hd => exact hf.ahead (h.link.receive_ahead hb hd) s.taken
  | read n => exact hf.ahead (h.link.read_ahead n) _
  | report ha =>
    refine ⟨hf.allowed, fun p hp => ?_, hf.fits⟩
    rcases List.mem_append.mp hp with hp | hp
    · exact hf.reports p hp
    · rw [List.mem_singleton] at hp
      subst hp
      obtain ⟨hsyn, ha⟩ := TCPReceiver.ackno_eq ha
      refine ⟨s.rx.absAckno, by rw [ha, (h.link.syn hsyn).1], ?_, le_rfl, ?_⟩
      · rw [TCPReceiver.absAckno, if_pos hsyn]
        omega
      · refine Nat.add_le_add_left ?_ _
        rw [UInt16.toNat_ofNat_of_lt' (lt_of_le_of_lt (Nat.min_le_left _ _) (by decide))]
        exact Nat.min_le_right _ _

end Sponge
