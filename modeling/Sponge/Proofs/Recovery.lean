import Sponge.Sanity.Keep
import Sponge.Sanity.Timer
import Sponge.Spec.Recovery

/-! Recovery from loss. As long as a transfer is not complete something is
outstanding and the timer runs, and each round moves the acknowledged position on,
whatever else happens in between. So every transfer with enough rounds completes. -/

namespace Sponge

open Chunks StreamReassembler TCPSender

/-- Once it has started, the sender has sent what it may. -/
def Filled (s : TCPSender) : Prop := s.setSyn = true → Full s

theorem Tiles.filled {accepted : List Byte} {first : List TCPSegment} {s : TCPSender}
    (h : Tiles accepted first s) : Filled s.fillWindow := fun _ => fillWindow_full s h.ready

/-- What an event without new data does to the sender. -/
structure Waits (x x' : SenderRun) : Prop where
  onward : Onward x x'
  accepted : x'.accepted = x.accepted
  timed : Timed x.sender → Timed x'.sender
  filled : Filled x.sender → Filled x'.sender

theorem Waits.refl (x : SenderRun) : Waits x x := ⟨.refl x, rfl, id, id⟩

theorem Waits.tick {x : SenderRun} (ht : Tiles x.accepted x.sent x.sender) (ms : ℕ) :
    Waits x (x.step (.tick ms)) where
  onward := (SenderRun.step_spec ht _).onward ht
  accepted := List.append_nil _
  timed h := h.tick ms
  filled h := by
    obtain ⟨gs, hk, -⟩ := tick_spec x.sender ms
    intro hsyn
    exact (h (hk.syn.symm.trans hsyn)).congr hk.window hk.flight hk.syn hk.fin
      (congrArg ByteStream.buffer hk.stream) (congrArg ByteStream.inputEnded hk.stream)

theorem Waits.ackReceived {x : SenderRun} (ht : Tiles x.accepted x.sent x.sender)
    (ackno : WrappingInt32) (w : UInt16) : Waits x (x.step (.ackReceived ackno w)) where
  onward := (SenderRun.step_spec ht _).onward ht
  accepted := List.append_nil _
  timed h := h.run ht (.ackReceived ackno w)
  filled h := by
    show Filled (x.sender.ackReceived ackno w)
    rcases ht.ackReceived_cases ackno w with ⟨-, hnone⟩ | ⟨t, gs, -, hacked, hfill, -⟩
    · rw [hnone]
      exact h
    · rw [hfill]
      exact (ht.acked hacked).filled

theorem Transfer.step_quiet {s : Transfer} (h : Linked s) (hb : s.tx.sender.nextSeqno < 2 ^ 31)
    {e : TransferEvent} (he : e.Quiet) :
    ∃ s', s.step e = .ok s' ∧ Moved s s' ∧ Waits s.tx s'.tx := by
  cases e with
  | write | endInput => exact he.elim
  | tick ms => exact ⟨_, rfl, .send (.tick ms) (by simp), .tick h.link.tiles ms⟩
  | deliver i =>
    cases hi : s.emitted[i]? with
    | none => exact ⟨s, by simp [Transfer.step, hi], .stay, .refl _⟩
    | some g =>
      have hg := List.mem_of_getElem? hi
      obtain ⟨r, hrun, hd⟩ := h.link.delivered hb (h.genuine hg)
      exact ⟨_, by simp [Transfer.step, hi, hrun], .receive hg hd, .refl _⟩
  | read n =>
    exact ⟨_, by simp only [Transfer.step, ByteStream.read_eq_pop], .read n, .refl _⟩
  | report =>
    cases ha : s.rx.ackno with
    | none => exact ⟨s, by simp [Transfer.step, ha], .stay, .refl _⟩
    | some a => exact ⟨_, by simp [Transfer.step, ha], .report ha, .refl _⟩
  | acknowledge j =>
    cases hj : s.reports[j]? with
    | none => exact ⟨s, by simp [Transfer.step, hj], .stay, .refl _⟩
    | some p =>
      refine ⟨_, by simp [Transfer.step, hj], .send (.ackReceived p.1 p.2) ?_,
        .ackReceived h.link.tiles p.1 p.2⟩
      intro ackno w hop
      cases hop
      exact List.mem_of_getElem? hj

theorem Transfer.step_filled {s s' : Transfer} (h : Linked s) (hb : s.tx.sender.nextSeqno < 2 ^ 31)
    {e : TransferEvent} (hs : s.step e = .ok s') (hf : Filled s.tx.sender) :
    Filled s'.tx.sender := by
  have hfed : ∀ op, Filled ((s.tx.step op).step .fillWindow).sender := fun op =>
    (h.link.tiles.step (SenderRun.step_spec h.link.tiles op)).filled
  by_cases he : e.Quiet
  · obtain ⟨t, ht, -, hw⟩ := Transfer.step_quiet h hb he
    rw [hs] at ht
    cases ht
    exact hw.filled hf
  · cases e with
    | write data =>
      cases hs
      exact hfed (.write data)
    | endInput =>
      cases hs
      exact hfed .endInput
    | _ => exact absurd trivial he

theorem Moved.capacity {s s' : Transfer} (hm : Moved s s') : s'.rx.capacity = s.rx.capacity := by
  cases hm with
  | receive _ hd => cases hd <;> rfl
  | _ => rfl

/-- The window ends within the capacity of what was accepted. -/
theorem Link.limit_le {x : SenderRun} {taken : List Byte} {r : TCPReceiver} (h : Link x taken r) :
    r.limit ≤ x.accepted.length + r.capacity := by
  have hle := h.content.length_le
  rw [List.length_append, h.safe.read] at hle
  unfold TCPReceiver.limit TCPReceiver.streamOut at *
  omega

/-- A transfer whose sender has sent what it may, within the bounds. -/
structure Ready (s : Transfer) : Prop where
  linked : Linked s
  flow : Flow s
  intact : Intact s.tx s.rx
  timed : Timed s.tx.sender
  full : Full s.tx.sender
  short : s.tx.accepted.length + 2 < 2 ^ 31
  room : 1 ≤ s.rx.capacity
  bound : s.tx.accepted.length + s.rx.capacity < 2 ^ 64

namespace Ready

variable {s s' : Transfer}

theorem next_le (h : Ready s) : s.tx.sender.nextSeqno ≤ s.tx.accepted.length + 2 :=
  h.linked.link.tiles.next_le

theorem next_lt (h : Ready s) : s.tx.sender.nextSeqno < 2 ^ 31 := h.next_le.trans_lt h.short

theorem limit_lt (h : Ready s) : s.rx.limit < 2 ^ 64 :=
  h.linked.link.limit_le.trans_lt h.bound

theorem moved (h : Ready s) (hm : Moved s s') (hw : Waits s.tx s'.tx) : Ready s' := by
  have hlinked := h.linked.moved h.next_lt hm
  have hcap := hm.capacity
  have hlimit : s'.rx.limit < 2 ^ 64 := by
    have hle := hlinked.link.limit_le
    rw [hw.accepted, hcap] at hle
    exact hle.trans_lt h.bound
  refine ⟨hlinked, h.flow.moved h.linked h.next_lt hm,
    Intact.moved h.linked h.flow h.next_lt hm (fun _ => h.intact) hlimit, hw.timed h.timed,
    hw.filled (fun _ => h.full) (hw.onward.syn h.full.syn), ?_, ?_, ?_⟩
  · rw [hw.accepted]
    exact h.short
  · rw [hcap]
    exact h.room
  · rw [hw.accepted, hcap]
    exact h.bound

theorem step (h : Ready s) {e : TransferEvent} (he : e.Quiet) :
    ∃ s', s.step e = .ok s' ∧ Ready s' ∧ Moved s s' ∧ Waits s.tx s'.tx := by
  obtain ⟨s', hrun, hm, hw⟩ := Transfer.step_quiet h.linked h.next_lt he
  exact ⟨s', hrun, h.moved hm hw, hm, hw⟩

theorem complete (h : Ready s) (hq : s.tx.sender.segmentsUnackno = []) : s.Complete := by
  have hlink := h.linked.link
  have hflight : s.tx.sender.bytesInFlight = 0 := by rw [hlink.tiles.flight, hq, space_nil]
  obtain ⟨room, hr, hpos⟩ := room_pos hflight
  obtain ⟨hbuf, hfin⟩ := h.full.idle room hr hpos
  have hread : s.tx.sender.stream.bytesRead = s.tx.accepted.length := by
    rw [hlink.tiles.length, ← s.tx.sender.stream.balanced, hbuf, List.length_nil, Nat.add_zero]
  have hnext := hlink.tiles.count
  have hack : s.tx.sender.nextSeqno ≤ s.rx.absAckno := by
    have := hlink.queue.start
    have := hlink.acked
    omega
  have hindex := hlink.index_le
  have hwritten : s.rx.streamOut.bytesWritten = s.rx.reassembler.unassembledIndex :=
    hlink.inv.written
  rw [h.full.syn, Bool.toNat_true] at hnext
  unfold TCPReceiver.absAckno at hack
  split_ifs at hack with hsyn
  · refine ⟨hlink.content.eq_of_length ?_, hflight, fun hend => ⟨hfin hend, ?_⟩⟩
    · refine (hlink.safe.length_eq hlink.inv).trans ?_
      cases hended : s.rx.streamOut.inputEnded with
      | true => exact (hlink.ended h.next_lt hended).2.2
      | false =>
        rw [hended, Bool.toNat_false] at hack
        omega
    · by_contra hopen
      rw [Bool.not_eq_true] at hopen
      rw [hopen, Bool.toNat_false] at hack
      rw [hfin hend, Bool.toNat_true] at hnext
      omega
  · omega

/-- The next byte the receiver waits for arrives while its stream is empty. -/
theorem byte_arrives (h : Ready s) {pre post : List TCPSegment} {g : TCPSegment}
    (hl : s.tx.sent = pre ++ g :: post) (hempty : s.rx.streamOut.buffer = [])
    (h1 : streamIndex pre g ≤ s.rx.reassembler.unassembledIndex)
    (h2 : s.rx.reassembler.unassembledIndex < streamIndex pre g + g.payload.length)
    {re : StreamReassembler}
    (hp : Pushed s.rx.reassembler g.payload (streamIndex pre g) g.header.fin re) :
    s.rx.reassembler.unassembledIndex < re.unassembledIndex := by
  have hlink := h.linked.link
  have hlimit : s.rx.reassembler.unassembledIndex < s.rx.limit := by
    have hread := hlink.inv.read_add_buffer
    have hroom := h.room
    unfold TCPReceiver.limit TCPReceiver.streamOut at *
    rw [hempty, List.length_nil] at hread
    omega
  have hheld := (h.intact.held_iff hlink h.next_lt h.limit_lt hl hp _).mpr (Or.inr ⟨h1, h2, hlimit⟩)
  refine lt_of_le_of_ne hp.index_le fun heq => ?_
  rw [heq] at hheld
  exact (hlink.inv.pushed (hlink.stop_lt h.next_lt hl) hp).not_held_next hheld

/-- So does the end of the stream, with the FIN. -/
theorem position_advances (h : Ready s) {pre post : List TCPSegment} {g : TCPSegment} {n : ℕ}
    (hl : s.tx.sent = pre ++ g :: post) (hsyn : s.rx.setSyn = true)
    (hstart : space pre ≤ s.tx.sender.recvAckno) (hn : n ≤ s.tx.sender.recvAckno)
    (hstop : n < space pre + g.lengthInSequenceSpace) (hpast : ¬ n < s.rx.absAckno)
    (hempty : s.rx.streamOut.buffer = []) {re : StreamReassembler}
    (hp : Pushed s.rx.reassembler g.payload (streamIndex pre g) g.header.fin re) :
    n < re.unassembledIndex + 1 + re.output.inputEnded.toNat := by
  have hlink := h.linked.link
  have hacked := hlink.acked
  have hwritten : s.rx.streamOut.bytesWritten = s.rx.reassembler.unassembledIndex :=
    hlink.inv.written
  have hrange := hlink.stop_lt h.next_lt hl
  have hopen : s.rx.streamOut.inputEnded = false := by
    by_contra hend
    rw [Bool.not_eq_false] at hend
    have h1 := (hlink.ended h.next_lt hend).2.2
    have h2 := (hlink.tiles.sent_piece hl).1
    have h3 := h.next_le
    rw [TCPReceiver.absAckno, if_pos hsyn, hend, Bool.toNat_true] at hpast
    omega
  rw [TCPReceiver.absAckno, if_pos hsyn, hopen, Bool.toNat_false, hwritten] at hacked hpast
  have hat : streamIndex pre g ≤ s.rx.reassembler.unassembledIndex ∧
      s.rx.reassembler.unassembledIndex <
        streamIndex pre g + g.payload.length + g.header.fin.toNat := by
    have hpiece := hlink.tiles.piece_at hl
    have hfirst := hpiece.first_byte
    unfold TCPSegment.lengthInSequenceSpace at hstop
    unfold streamIndex
    cases hs : g.header.syn with
    | true =>
      have := hpiece.syn.mp hs
      rw [hs, Bool.toNat_true] at hstop
      simp only [Bool.toNat_true]
      omega
    | false =>
      rw [hs, Bool.toNat_false] at hstop hfirst
      simp only [Bool.toNat_false]
      omega
  by_cases hbyte : s.rx.reassembler.unassembledIndex < streamIndex pre g + g.payload.length
  · have := h.byte_arrives hl hempty hat.1 hbyte hp
    omega
  · have hfin : g.header.fin = true := by
      by_contra hc
      rw [Bool.not_eq_true] at hc
      rw [hc, Bool.toNat_false] at hat
      omega
    have hend : re.output.inputEnded = true := by
      obtain ⟨-, hbytes, hlast⟩ := hlink.tiles.sent_piece hl
      have hlink' := (hlink.pushed h.next_lt h.full.syn hbytes hrange hlast hp s.rx.setFin rfl).1
      refine hlink'.safe.closed.mpr ?_
      have := hp.index_le
      simp only [hp.eofIndex, eofAfter, hfin, if_pos, uadd_eq hrange]
      omega
    have := hp.index_le
    rw [hend, Bool.toNat_true]
    omega

/-- The oldest outstanding segment arrives: the receiver moves past where it was, if
its stream was empty then. -/
theorem arrives (h : Ready s) {pre post : List TCPSegment} {g : TCPSegment} {n : ℕ}
    (hl : s.tx.sent = pre ++ g :: post) (hstart : space pre ≤ s.tx.sender.recvAckno)
    (hn : n ≤ s.tx.sender.recvAckno) (hstop : n < space pre + g.lengthInSequenceSpace)
    (hempty : s.rx.streamOut.buffer = [] ∨ n < s.rx.absAckno) {r : TCPReceiver}
    (hr : s.rx.segmentReceived g = .ok r) : n < r.absAckno := by
  have hlink := h.linked.link
  have hmem : g ∈ s.tx.sent := hl ▸ List.mem_append_cons_self
  obtain ⟨r', hr', hd⟩ := hlink.delivered h.next_lt (.copy g hmem rfl rfl rfl rfl)
  obtain rfl : r' = r := Except.ok.inj (hr'.symm.trans hr)
  obtain ⟨hlink', hmono⟩ := hlink.receive h.next_lt hd
  by_cases hpast : n < s.rx.absAckno
  · exact hpast.trans_le hmono
  have hempty := hempty.resolve_right hpast
  have hacked := hlink.acked
  have hpiece := hlink.tiles.piece_at hl
  cases hsyn : s.rx.setSyn with
  | false =>
    -- the segment at position 0 carries the SYN
    have habs : s.rx.absAckno = 0 := by simp [TCPReceiver.absAckno, hsyn]
    have hgsyn : g.header.syn = true := hpiece.syn.mpr (by omega)
    cases hd with
    | ignored _ hg => simp [hgsyn] at hg
    | empty hset => simp [hsyn] at hset
    | piece =>
      simp only [TCPReceiver.absAckno, if_pos]
      omega
  | true =>
    obtain ⟨re, hp, hrun⟩ := hlink.assemble_copy h.next_lt hl (g := g) rfl rfl rfl rfl s.rx rfl
      (hlink.syn hsyn).1
    rw [TCPReceiver.segmentReceived, if_pos hsyn, hrun] at hr
    cases hr
    have hwritten : re.output.bytesWritten = re.unassembledIndex := hlink'.inv.written
    simp only [TCPReceiver.absAckno, TCPReceiver.streamOut, if_pos hsyn, hwritten]
    exact h.position_advances hl hsyn hstart hn hstop hpast hempty hp

end Ready

/-- The events that move a round on; every other one leaves it waiting. -/
inductive Phase.Next (s : Transfer) : Phase → TransferEvent → Phase → Prop
  | wait (phase : Phase) (e : TransferEvent) : Next s phase e phase
  | emptied {len : ℕ} (h : s.rx.streamOut.bufferSize ≤ len) : Next s .read (.read len) .expire
  | expired {ms : ℕ} {g : TCPSegment} (h : s.tx.sender.expires ms = some g) :
      Next s .expire (.tick ms) (.deliver g)
  | arrived {i : ℕ} {g : TCPSegment} (h : s.emitted[i]? = some g) :
      Next s (.deliver g) (.deliver i) .report
  | reported (h : s.rx.setSyn = true) : Next s .report .report (.acknowledge s.reports.length)

theorem Phase.after_some {s : Transfer} {phase phase' : Phase} {e : TransferEvent}
    (h : phase.after s e = some phase') : phase.Next s e phase' := by
  unfold Phase.after at h
  split at h
  · rw [Option.some.injEq] at h
    split_ifs at h with hlen
    · exact h ▸ .emptied hlen
    · exact h ▸ .wait _ _
  · rw [Option.some.injEq] at h
    rename_i ms
    cases hexp : s.tx.sender.expires ms with
    | none =>
      rw [hexp] at h
      exact h ▸ .wait _ _
    | some g =>
      rw [hexp] at h
      exact h ▸ .expired hexp
  · rw [Option.some.injEq] at h
    split_ifs at h with hg
    · exact h ▸ .arrived hg
    · exact h ▸ .wait _ _
  · rw [Option.some.injEq] at h
    split_ifs at h with hsyn
    · exact h ▸ .reported hsyn
    · exact h ▸ .wait _ _
  · rw [Option.ite_none_left_eq_some] at h
    cases h.2
    exact .wait _ _
  · cases h
    exact .wait _ _

theorem Phase.after_none {s : Transfer} {phase : Phase} {e : TransferEvent}
    (h : phase.after s e = none) : ∃ j, phase = .acknowledge j ∧ e = .acknowledge j := by
  unfold Phase.after at h
  split at h
  case h_5 j i =>
    rw [ite_eq_left_iff] at h
    by_cases hij : i = j
    · exact ⟨j, rfl, by rw [hij]⟩
    · simp [hij] at h
  all_goals exact absurd h (by simp)

/-- The reader has emptied the stream since the acknowledged position was `n`, or the
receiver has moved past it. -/
def Emptied (n : ℕ) (s : Transfer) : Prop := s.rx.streamOut.buffer = [] ∨ n < s.rx.absAckno

/-- What is known in each phase of a round that started at acknowledged position `n`. -/
def Phase.Holds (n : ℕ) (s : Transfer) : Phase → Prop
  | .read => True
  | .expire => Emptied n s
  | .deliver g => Emptied n s ∧ ∃ pre post, s.tx.sent = pre ++ g :: post ∧
      space pre ≤ s.tx.sender.recvAckno ∧ n < space pre + g.lengthInSequenceSpace
  | .report => n < s.rx.absAckno
  | .acknowledge j => ∃ a w, s.reports[j]? = some (wrap a s.tx.sender.isn, w) ∧ n < a ∧
      a ≤ s.rx.absAckno

section

variable {s s' : Transfer} {n : ℕ}

/-- A byte written moves the acknowledgment number: the stream cannot have ended. -/
theorem Ready.ackno_lt (h : Ready s) (h' : Ready s') (hw : Waits s.tx s'.tx)
    (hlt : s.rx.reassembler.unassembledIndex < s'.rx.reassembler.unassembledIndex) :
    s.rx.absAckno < s'.rx.absAckno := by
  have hlink := h.linked.link
  have hlink' := h'.linked.link
  have hsyn : s'.rx.setSyn = true := by
    by_contra hc
    rw [(hlink'.listening (by simpa using hc)).1] at hlt
    exact absurd hlt (Nat.not_lt_zero _)
  have hopen : s.rx.streamOut.inputEnded = false := by
    by_contra hend
    rw [Bool.not_eq_false] at hend
    have h1 := (hlink.ended h.next_lt hend).2.2
    have h2 := hlink'.index_le
    have h3 := hlink'.tiles.length
    have h4 := s'.tx.sender.stream.balanced
    rw [hw.accepted] at h3
    omega
  have h1 := hlink.inv.written
  have h2 := hlink'.inv.written
  unfold TCPReceiver.absAckno
  rw [if_pos hsyn, hopen, Bool.toNat_false]
  unfold TCPReceiver.streamOut
  split_ifs <;> omega

theorem Emptied.moved (h : Ready s) (h' : Ready s') (hm : Moved s s') (hw : Waits s.tx s'.tx)
    (hn : n ≤ s.tx.sender.recvAckno) (he : Emptied n s) : Emptied n s' := by
  have hahead := hm.ahead h.linked h.next_lt
  rcases he with hbuf | hpast
  · have h1 := h.linked.link.inv.read_add_buffer
    have h2 := h'.linked.link.inv.read_add_buffer
    have h3 := hahead.limit
    have h4 := hahead.index
    simp only [TCPReceiver.limit, TCPReceiver.streamOut, hm.capacity] at h3 hbuf
    rw [hbuf, List.length_nil] at h1
    rcases h4.eq_or_lt with hsame | hlt
    · exact Or.inl (List.length_eq_zero_iff.mp (by unfold TCPReceiver.streamOut; omega))
    · exact Or.inr ((hn.trans h.linked.link.acked).trans_lt (h.ackno_lt h' hw hlt))
  · exact Or.inr (hpast.trans_le hahead.ackno)

theorem Moved.reports (hm : Moved s s') : s.reports <+: s'.reports := by
  cases hm with
  | report => exact List.prefix_append _ _
  | _ => exact List.prefix_rfl

theorem Phase.Holds.moved {phase : Phase} (h : Ready s) (h' : Ready s') (hm : Moved s s')
    (hw : Waits s.tx s'.tx) (hn : n ≤ s.tx.sender.recvAckno) (hp : phase.Holds n s) :
    phase.Holds n s' := by
  have hahead := hm.ahead h.linked h.next_lt
  cases phase with
  | read => trivial
  | expire => exact Emptied.moved h h' hm hw hn hp
  | deliver g =>
    obtain ⟨he, pre, post, hl, hstart, hstop⟩ := hp
    obtain ⟨more, hmore⟩ := hw.onward.sent
    refine ⟨he.moved h h' hm hw hn, pre, post ++ more, ?_, hstart.trans hw.onward.ackno, hstop⟩
    rw [← hmore, hl, List.append_assoc, List.cons_append]
  | report => exact lt_of_lt_of_le hp hahead.ackno
  | acknowledge j =>
    obtain ⟨a, w, hj, hlt, hle⟩ := hp
    obtain ⟨more, hmore⟩ := hm.reports
    refine ⟨a, w, ?_, hlt, hle.trans hahead.ackno⟩
    rw [hw.onward.isn, ← hmore, List.getElem?_append_left (List.getElem?_eq_some_iff.mp hj).1, hj]

/-- The acknowledged position lies in the oldest outstanding segment. -/
theorem Ready.oldest (h : Ready s) {g : TCPSegment} {rest : List TCPSegment}
    (hq : s.tx.sender.segmentsUnackno = g :: rest) :
    ∃ pre post, s.tx.sent = pre ++ g :: post ∧ space pre ≤ s.tx.sender.recvAckno ∧
      s.tx.sender.recvAckno < space pre + g.lengthInSequenceSpace := by
  have hlink := h.linked.link
  obtain ⟨gone, hgone⟩ := hlink.tiles.queue
  have hnext := hlink.tiles.next
  have hstart := hlink.queue.start
  have hhead := hlink.queue.head g rest hq
  rw [← hgone, space_append, ← hlink.tiles.flight] at hnext
  exact ⟨gone, rest, by rw [← hgone, hq], by omega, by omega⟩

theorem Ready.expires (h : Ready s) {ms : ℕ} {g : TCPSegment}
    (hg : s.tx.sender.expires ms = some g) :
    ∃ pre post, s.tx.sent = pre ++ g :: post ∧ space pre ≤ s.tx.sender.recvAckno ∧
      s.tx.sender.recvAckno < space pre + g.lengthInSequenceSpace := by
  unfold TCPSender.expires at hg
  split_ifs at hg
  obtain ⟨rest, hq⟩ := List.head?_eq_some_iff.mp hg
  exact h.oldest hq

theorem Phase.Holds.next {phase phase' : Phase} {e : TransferEvent} (h : Ready s) (h' : Ready s')
    (hs : s.step e = .ok s') (hm : Moved s s') (hw : Waits s.tx s'.tx)
    (hn : n ≤ s.tx.sender.recvAckno) (hp : phase.Holds n s) (hnext : phase.Next s e phase') :
    phase'.Holds n s' := by
  have hold := hp.moved h h' hm hw hn
  cases hnext with
  | wait => exact hold
  | @emptied len hlen =>
    simp only [Transfer.step, ByteStream.read_eq_pop] at hs
    cases hs
    exact Or.inl (List.drop_eq_nil_of_le (le_min hlen le_rfl))
  | expired hg =>
    obtain ⟨pre, post, hl, hstart, hstop⟩ := h.expires hg
    have hround : (Phase.deliver _).Holds n s := ⟨hp, pre, post, hl, hstart, hn.trans_lt hstop⟩
    exact hround.moved h h' hm hw hn
  | arrived hg =>
    obtain ⟨hempty, pre, post, hl, hstart, hstop⟩ := hp
    simp only [Transfer.step, hg] at hs
    obtain ⟨rx, hrx, hs⟩ := bind_eq_ok hs
    cases hs
    exact h.arrives hl hstart hn hstop hempty hrx
  | reported hsyn =>
    have hlt : n < s.rx.absAckno := hp
    simp only [Transfer.step, TCPReceiver.ackno_of_syn hsyn] at hs
    cases hs
    refine ⟨s.rx.absAckno, UInt16.ofNat (min 65535 s.rx.windowSize), ?_, hlt, le_rfl⟩
    rw [List.getElem?_concat_length, (h.linked.link.syn hsyn).1]

/-- A report the receiver has given takes the acknowledged position at least to where it was
given. -/
theorem Ready.acknowledged (h : Ready s) {a : ℕ} (hle : a ≤ s.rx.absAckno) (w : UInt16) :
    a ≤ (s.tx.sender.ackReceived (wrap a s.tx.sender.isn) w).recvAckno := by
  have hlink := h.linked.link
  have hback := hlink.unwrap_ackno h.next_lt hle
  rcases hlink.tiles.ackReceived_cases (wrap a s.tx.sender.isn) w with
    ⟨hnone, hsame⟩ | ⟨t, gs, -, hacked, hfill, hgs⟩
  · -- only an older acknowledgment is refused
    have hnext := hlink.absAckno_le h.next_lt
    unfold acceptAck at hnone
    simp only [hback] at hnone
    split_ifs at hnone with hcase
    rw [hsame]
    omega
  · rw [hfill, hgs.grown.recvAckno, hacked.recvAckno, hback]

theorem Phase.Holds.acknowledged {j : ℕ} (h : Ready s) (hs : s.step (.acknowledge j) = .ok s')
    (hp : (Phase.acknowledge j).Holds n s) : n < s'.tx.sender.recvAckno := by
  obtain ⟨a, w, hj, hlt, hle⟩ := hp
  simp only [Transfer.step, hj] at hs
  cases hs
  exact hlt.trans_le (h.acknowledged hle w)

end

/-- Each round so far has moved the acknowledged position on from where `s` had it. -/
structure Watched (s : Transfer) (w : Watch) : Prop where
  ready : Ready w.state
  accepted : w.state.tx.accepted = s.tx.accepted
  ackno : s.tx.sender.recvAckno + w.rounds ≤ w.state.tx.sender.recvAckno
  phase : w.phase.Holds (s.tx.sender.recvAckno + w.rounds) w.state

theorem Watched.new {s : Transfer} (h : Ready s) : Watched s (Watch.new s) :=
  ⟨h, rfl, le_rfl, trivial⟩

theorem Watched.advance {s : Transfer} {w : Watch} (h : Watched s w) {e : TransferEvent}
    (he : e.Quiet) {phase : Phase} (hp : w.phase.after w.state e = some phase) :
    ∃ t, w.state.step e = .ok t ∧ w.step e = .ok ⟨t, phase, w.rounds⟩ ∧
      Watched s ⟨t, phase, w.rounds⟩ := by
  obtain ⟨t, hs, hready, hm, hw⟩ := h.ready.step he
  refine ⟨t, hs, by simp only [Watch.step, hs, ok_bind, hp], hready, hw.accepted.trans h.accepted,
    h.ackno.trans hw.onward.ackno, ?_⟩
  exact h.phase.next h.ready hready hs hm hw h.ackno (Phase.after_some hp)

theorem Watched.finish {s : Transfer} {w : Watch} (h : Watched s w) {j : ℕ}
    (hj : w.phase = .acknowledge j) :
    ∃ t, w.step (.acknowledge j) = .ok ⟨t, .read, w.rounds + 1⟩ ∧
      Watched s ⟨t, .read, w.rounds + 1⟩ := by
  obtain ⟨t, hs, hready, hm, hw⟩ := h.ready.step (e := .acknowledge j) trivial
  have hlt := Phase.Holds.acknowledged h.ready hs (hj ▸ h.phase)
  refine ⟨t, ?_, hready, hw.accepted.trans h.accepted, hlt, trivial⟩
  simp only [Watch.step, hs, ok_bind, hj, Phase.after, if_pos]

theorem Watched.step {s : Transfer} {w : Watch} (h : Watched s w) {e : TransferEvent}
    (he : e.Quiet) : ∃ w', w.step e = .ok w' ∧ Watched s w' := by
  cases hp : w.phase.after w.state e with
  | some phase =>
    obtain ⟨t, -, hrun, ht⟩ := h.advance he hp
    exact ⟨_, hrun, ht⟩
  | none =>
    obtain ⟨j, hj, rfl⟩ := Phase.after_none hp
    obtain ⟨t, hrun, ht⟩ := h.finish hj
    exact ⟨_, hrun, ht⟩

theorem Watched.run {s : Transfer} (h : Ready s) {events : List TransferEvent}
    (he : ∀ e ∈ events, e.Quiet) :
    ∃ w, exec Watch.step (Watch.new s) events = .ok w ∧ Watched s w :=
  exec_inv (C := fun _ e => e.Quiet) (fun _ _ h he => h.step he) (Watched.new h) (.of_forall he _)

theorem Timed.expires {s : TCPSender} (h : Timed s) {g : TCPSegment} {rest : List TCPSegment}
    (hq : s.segmentsUnackno = g :: rest) :
    s.expires (s.timer.curRTO - s.timer.elapsedTime) = some g := by
  have hrun : s.timer.running = true := h.running.mpr (by simp [hq])
  have h1 := h.cur
  have h2 := h.elapsed
  unfold TCPSender.expires Timer.checkExpired Timer.tick
  simp only [hrun, if_pos, uadd_eq (show s.timer.elapsedTime +
    (s.timer.curRTO - s.timer.elapsedTime) < 2 ^ 64 by omega), Bool.true_and, decide_eq_true_iff]
  rw [if_pos (by omega), hq]
  rfl

theorem SenderRun.tick_expires {x : SenderRun} {ms : ℕ} {g : TCPSegment}
    (hg : x.sender.expires ms = some g) :
    (x.step (.tick ms)).sent = x.sent ∧
      (x.step (.tick ms)).others.map Prod.fst = x.others.map Prod.fst ++ [g] := by
  unfold TCPSender.expires at hg
  split_ifs at hg with hexp
  obtain ⟨rest, hq⟩ := List.head?_eq_some_iff.mp hg
  rcases tick_cases x.sender ms with ⟨hidle, -⟩ | ⟨b, rest', hq', -, htick⟩
  · simp [hq, hexp] at hidle
  · rw [hq] at hq'
    cases hq'
    simp [SenderRun.step, SenderRun.sent, SenderOp.fills, SenderOp.run, htick]

theorem TCPReceiver.syn_of_lt {r : TCPReceiver} {n : ℕ} (h : n < r.absAckno) :
    r.setSyn = true := by
  by_contra hc
  rw [TCPReceiver.absAckno, if_neg hc] at h
  exact absurd h (Nat.not_lt_zero _)

theorem Ready.round {s : Transfer} (h : Ready s) (hq : s.tx.sender.segmentsUnackno ≠ []) :
    ∃ w, exec Watch.step (Watch.new s) s.round = .ok w ∧ w.rounds = 1 := by
  obtain ⟨g, rest, hq⟩ := List.exists_cons_of_ne_nil hq
  have hexp := h.timed.expires hq
  generalize hms : s.tx.sender.timer.curRTO - s.tx.sender.timer.elapsedTime = ms at hexp
  obtain ⟨s₁, hs₁, hr₁, h₁⟩ := (Watched.new h).advance (e := .read s.rx.streamOut.bufferSize)
    trivial (show Phase.read.after s _ = some .expire by simp [Phase.after])
  have hsame₁ : s₁.tx = s.tx ∧ s₁.reports = s.reports := by
    cases hs₁
    exact ⟨rfl, rfl⟩
  obtain ⟨s₂, hs₂, hr₂, h₂⟩ := h₁.advance (e := .tick ms) trivial
    (show Phase.expire.after s₁ _ = some (.deliver g) by simp [Phase.after, hsame₁.1, hexp])
  have hsame₂ : s₂.emitted[s.emitted.length]? = some g ∧ s₂.reports = s.reports := by
    cases hs₂
    obtain ⟨hsent, hothers⟩ := SenderRun.tick_expires hexp
    refine ⟨?_, hsame₁.2⟩
    simp only [Transfer.emitted, hsame₁.1, hsent, hothers, ← List.append_assoc,
      List.getElem?_concat_length]
  obtain ⟨s₃, hs₃, hr₃, h₃⟩ := h₂.advance (e := .deliver s.emitted.length) trivial
    (show (Phase.deliver g).after s₂ _ = some .report by simp [Phase.after, hsame₂.1])
  have hsame₃ : s₃.reports = s.reports := by
    simp only [Transfer.step, hsame₂.1] at hs₃
    obtain ⟨rx, -, hrx⟩ := bind_eq_ok hs₃
    cases hrx
    exact hsame₂.2
  have hsyn : s₃.rx.setSyn = true := TCPReceiver.syn_of_lt h₃.phase
  obtain ⟨s₄, -, hr₄, h₄⟩ := h₃.advance (e := .report) trivial
    (show Phase.report.after s₃ _ = some (.acknowledge s.reports.length) by
      simp [Phase.after, hsyn, hsame₃])
  obtain ⟨s₅, hr₅, -⟩ := h₄.finish rfl
  refine ⟨⟨s₅, .read, 1⟩, ?_, rfl⟩
  simp only [exec, Transfer.round, hms, hr₁, hr₂, hr₃, hr₄, hr₅, ok_bind]
  rfl

theorem Timed.moved {s s' : Transfer} (h : Linked s) (ht : Timed s.tx.sender) (hm : Moved s s') :
    Timed s'.tx.sender := by
  cases hm with
  | send op => exact ht.run h.link.tiles op
  | _ => exact ht

theorem Transfer.exec_filled {s : Transfer} (h : Linked s) (hf : Filled s.tx.sender)
    {events : List TransferEvent}
    (hb : Always Transfer.step (fun s => s.tx.sender.nextSeqno < 2 ^ 31) s events) {s' : Transfer}
    (hrun : exec Transfer.step s events = .ok s') : Filled s'.tx.sender := by
  obtain ⟨t, ht, -, hft⟩ := Sponge.exec_inv (I := fun s => Linked s ∧ Filled s.tx.sender)
    (C := fun s _ => s.tx.sender.nextSeqno < 2 ^ 31)
    (fun s e hs hb => by
      obtain ⟨s', t, hrun, h1, hnext, h2⟩ := Transfer.step_spec hs.1 hb e
      exact ⟨s', hrun, (hs.1.moved hb h1).moved (hnext ▸ hb) h2,
        Transfer.step_filled hs.1 hb hrun hs.2⟩)
    ⟨h, hf⟩ hb.each
  rw [hrun] at ht
  cases ht
  exact hft

theorem Ready.reached {sendCapacity retxTimeout : ℕ} {isn : WrappingInt32} {recvCapacity : ℕ}
    (htimeout : retxTimeout < 2 ^ 64) (hpos : 1 ≤ recvCapacity) (hcap : recvCapacity < 2 ^ 63)
    {events : List TransferEvent}
    (hb : Always Transfer.step (fun s => s.tx.sender.nextSeqno < 2 ^ 31)
      (Transfer.new sendCapacity retxTimeout isn recvCapacity) events) {s : Transfer}
    (hrun : exec Transfer.step (Transfer.new sendCapacity retxTimeout isn recvCapacity) events =
      .ok s) (hsyn : s.tx.sender.setSyn = true) (hshort : s.tx.accepted.length + 2 < 2 ^ 31) :
    Ready s := by
  have hnew := Transfer.Sound.new sendCapacity retxTimeout isn (show recvCapacity < 2 ^ 64 by omega)
  obtain ⟨t, ht, -, h, hsound, htimed, hroom⟩ := Transfer.exec_inv
    (I := fun s => s.Sound ∧ Timed s.tx.sender ∧ s.rx.capacity = recvCapacity)
    (fun s s' h hb hm hI => ⟨hI.1.moved hb hm, hI.2.1.moved h hm, hm.capacity.trans hI.2.2⟩)
    hnew.linked ⟨hnew, Timed.new sendCapacity isn htimeout, rfl⟩ hb
  rw [hrun] at ht
  cases ht
  have hfilled := Transfer.exec_filled hnew.linked
    (fun hc => by simp [Transfer.new, SenderRun.new, TCPSender.new] at hc) hb hrun hsyn
  have hbound : s.tx.accepted.length + s.rx.capacity < 2 ^ 64 := by omega
  exact ⟨h, hsound.flow, hsound.intact (h.link.limit_le.trans_lt hbound), htimed, hfilled, hshort,
    hroom ▸ hpos, hbound⟩

/-- After every run of a sender that has started and a receiver with a capacity of at
least 1 and below 2^63, with fewer than 2^31 sequence numbers in use, and then every run
`more` without new data, over a network that loses, repeats, delays and reorders: each
round has moved the acknowledged position on, within the sequence numbers there are, and
the transfer is complete or another round is possible. -/
theorem transfer_recovers (sendCapacity retxTimeout : ℕ) (isn : WrappingInt32) (recvCapacity : ℕ)
    (htimeout : retxTimeout < 2 ^ 64) (hpos : 1 ≤ recvCapacity) (hcap : recvCapacity < 2 ^ 63)
    (events more : List TransferEvent) (s : Transfer)
    (hb : Always Transfer.step (fun s => s.tx.sender.nextSeqno < 2 ^ 31)
      (Transfer.new sendCapacity retxTimeout isn recvCapacity) events)
    (hrun : exec Transfer.step (Transfer.new sendCapacity retxTimeout isn recvCapacity) events =
      .ok s)
    (hsyn : s.tx.sender.setSyn = true) (hshort : s.tx.accepted.length + 2 < 2 ^ 31)
    (hquiet : ∀ e ∈ more, e.Quiet) :
    ∃ w, exec Watch.step (Watch.new s) more = .ok w ∧ w.state.tx.accepted = s.tx.accepted ∧
      s.tx.sender.recvAckno + w.rounds ≤ w.state.tx.sender.recvAckno ∧
      w.state.tx.sender.recvAckno ≤ s.tx.accepted.length + 2 ∧
      (w.state.Complete ∨
        ∃ w', exec Watch.step (Watch.new w.state) w.state.round = .ok w' ∧ w'.rounds = 1) := by
  have hready := Ready.reached htimeout hpos hcap hb hrun hsyn hshort
  obtain ⟨w, hw, h⟩ := Watched.run hready hquiet
  refine ⟨w, hw, h.accepted, h.ackno, ?_, ?_⟩
  · rw [← h.accepted]
    exact h.ready.linked.link.queue.le.trans h.ready.next_le
  · by_cases hq : w.state.tx.sender.segmentsUnackno = []
    · exact Or.inl (h.ready.complete hq)
    · exact Or.inr (h.ready.round hq)

/-- The SYN is lost; its repetition arrives, and so does the report. The three bytes
and the FIN are left. -/
theorem transfer_recovers_syn :
    ∃ s w, exec Transfer.step (Transfer.new 10 1000 ⟨7⟩ 2) [.write [1, 2, 3], .endInput] = .ok s ∧
      exec Watch.step (Watch.new s) [.read 0, .tick 1000, .deliver 1, .report, .acknowledge 0] =
        .ok w ∧ w.rounds = 1 ∧ w.state.tx.accepted = [1, 2, 3] ∧
      s.tx.sender.recvAckno < w.state.tx.sender.recvAckno ∧
      (w.state.Complete ∨
        ∃ w', exec Watch.step (Watch.new w.state) w.state.round = .ok w' ∧ w'.rounds = 1) := by
  obtain ⟨s, hs, hsyn, haccepted, w, hw, hrounds⟩ : ∃ s, exec Transfer.step
      (Transfer.new 10 1000 ⟨7⟩ 2) [.write [1, 2, 3], .endInput] = .ok s ∧
      s.tx.sender.setSyn = true ∧ s.tx.accepted = [1, 2, 3] ∧
      ∃ w, exec Watch.step (Watch.new s)
        [.read 0, .tick 1000, .deliver 1, .report, .acknowledge 0] = .ok w ∧ w.rounds = 1 := by
    decide
  obtain ⟨w', hw', hsame, hmoved, -, hend⟩ := transfer_recovers 10 1000 ⟨7⟩ 2 (by decide) (by decide)
    (by decide) [.write [1, 2, 3], .endInput]
    [.read 0, .tick 1000, .deliver 1, .report, .acknowledge 0] s (by decide) hs hsyn
    (by rw [haccepted]; decide) (by decide)
  obtain rfl : w' = w := Except.ok.inj (hw'.symm.trans hw)
  rw [hrounds] at hmoved
  exact ⟨s, w', hs, hw, hrounds, hsame.trans haccepted, hmoved, hend⟩

end Sponge
