import Sponge.Sanity.Queue

/-! `fill_window` ends from any state. It sends all there is room for, and nothing beyond
the window. -/

namespace Sponge

open Chunks TCPSender

theorem TCPSender.zeroWindow_again {s t : TCPSender} (h : fillTurn zeroWindowRoom s = .again t) :
    s.bytesInFlight = 0 ∧ 0 < t.bytesInFlight := by
  obtain ⟨room, g, hroom, hg, rfl⟩ := fillTurn_send h
  simp only [zeroWindowRoom, Option.ite_none_right_eq_some] at hroom
  have hpos := hg.pos
  refine ⟨hroom.1, ?_⟩
  simp only [sent]
  omega

theorem TCPSender.zeroWindow_twice {s t : TCPSender} {n : ℕ}
    (h : Ends (fillTurn zeroWindowRoom) n s t) : n ≤ 2 := by
  cases h with
  | leave => omega
  | again hs ht =>
    cases ht with
    | leave => omega
    | again ht _ =>
      have hfirst := (zeroWindow_again hs).2
      have hsecond := (zeroWindow_again ht).1
      omega

/-- What makes `fill_window` end in `s`. A loop's turns count every time its body is
entered, the last one included. That nothing goes out beyond the window keeps the flight
a 64-bit number, as it is in the source. -/
structure FillTerminates (s : TCPSender) : Prop where
  drops : ∀ length t, s.pushSegment length = (t, true) → t.unsent < s.unsent
  zeroWindow : ∃ n t, n ≤ 2 ∧ Ends (fillTurn zeroWindowRoom) n s t ∧
    (s.windowSize = 0 → s.fillWindow = t)
  window : ∃ n t, n ≤ s.unsent + 1 ∧ Ends (fillTurn windowRoom) n s t ∧
    (s.windowSize ≠ 0 → s.fillWindow = t)
  flight : s.fillWindow.bytesInFlight ≤ max s.bytesInFlight (max 1 s.windowSize)

theorem fill_window_terminates (s : TCPSender) : FillTerminates s := by
  obtain ⟨n, -, hzero⟩ := fillLoop_ends zeroWindowRoom s
  obtain ⟨k, hk, hwindow⟩ := fillLoop_ends windowRoom s
  refine ⟨fun _ _ => pushSegment_unsent, ⟨n, _, zeroWindow_twice hzero, hzero, fun hw => ?_⟩,
    ⟨k, _, hk, hwindow, fun hw => ?_⟩, fillWindow_flight_le s⟩
  · rw [fillWindow, if_pos hw]
  · rw [fillWindow, if_neg hw]

theorem TCPSender.Full.flight_or_done {s : TCPSender} (h : Full s) :
    max 1 s.windowSize ≤ s.bytesInFlight ∨
      s.stream.buffer = [] ∧ (s.stream.inputEnded = true → s.setFin = true) := by
  by_cases hroom : max 1 s.windowSize ≤ s.bytesInFlight
  · exact Or.inl hroom
  refine Or.inr ?_
  by_cases hw : s.windowSize = 0
  · have hflight : s.bytesInFlight = 0 := by omega
    exact h.idle 1 (by simp [TCPSender.room, hw, zeroWindowRoom, hflight]) Nat.one_pos
  · have hlt : s.bytesInFlight < s.windowSize := by omega
    exact h.idle (s.windowSize - s.bytesInFlight)
      (by simp [TCPSender.room, hw, windowRoom, hlt]) (by omega)

theorem Tiles.syn_sent {accepted : List Byte} {first : List TCPSegment} {s : TCPSender}
    (h : Tiles accepted first s) (hsyn : s.setSyn = true) : ∃ g ∈ first, g.header.syn = true := by
  cases first with
  | nil =>
    have hnext := h.next
    rw [h.count, hsyn, space_nil, Bool.toNat_true] at hnext
    omega
  | cons g rest =>
    have hpiece := h.piece_at (show g :: rest = [] ++ g :: rest from rfl)
    exact ⟨g, List.mem_cons_self, hpiece.syn.mpr rfl⟩

/-- Where the segments of one call lie, counted from the sender as the call finds it. -/
theorem TCPSender.Sends.inside {s t : TCPSender} {pre post : List TCPSegment} {g : TCPSegment}
    (h : Sends s (pre ++ g :: post) t) :
    g.header.seqno = wrap (s.nextSeqno + space pre) s.isn ∧
      s.bytesInFlight + space pre + g.lengthInSequenceSpace ≤ max 1 s.windowSize := by
  obtain ⟨u, room, hu, hg, hroom⟩ := h.made rfl
  have hgrown := hu.grown
  have hfits := hg.room
  rw [hgrown.flight, hgrown.windowSize] at hroom
  exact ⟨by rw [hg.seqno, hgrown.next, hgrown.isn], by omega⟩

/-- What `fill_window` does to the sender that `r` has come to. The window counts as
1 when it is 0. A segment it makes starts after those made before it in the call. -/
structure FillsWindow (r : SenderRun) : Prop where
  maximal : max 1 r.sender.windowSize ≤ r.sender.fillWindow.bytesInFlight ∨
    (∃ g ∈ (r.step .fillWindow).sent, g.header.syn = true) ∧
      r.sender.fillWindow.stream.bufferSize = 0 ∧
      (r.sender.fillWindow.stream.inputEnded = true →
        ∃ g ∈ (r.step .fillWindow).sent, g.header.fin = true)
  inside : r.sender.nextSeqno < 2 ^ 64 → ∀ pre g post,
    r.sender.fillWindow.segmentsOut = r.sender.segmentsOut ++ (pre ++ g :: post) →
      g.header.seqno = wrap (r.sender.nextSeqno + space pre) r.sender.isn ∧
        r.sender.nextSeqno + space pre + g.lengthInSequenceSpace ≤
          r.sender.recvAckno + max 1 r.sender.windowSize
  flight : r.sender.fillWindow.bytesInFlight ≤
    max r.sender.bytesInFlight (max 1 r.sender.windowSize)
  again : r.sender.fillWindow.fillWindow = r.sender.fillWindow

/-- In every state a sender can come to. The position of a segment is compared with the
acknowledged one as long as the next sequence number is a 64-bit number, as it is in
the source. -/
theorem fill_window_fills (capacity retxTimeout : ℕ) (isn : WrappingInt32) (ops : List SenderOp) :
    FillsWindow ((SenderRun.new capacity retxTimeout isn).run ops) := by
  have hqueue := fun hb => (SenderRun.queue capacity retxTimeout isn ops rfl hb).2
  have ht := SenderRun.tiles capacity retxTimeout isn ops
  generalize (SenderRun.new capacity retxTimeout isn).run ops = r at hqueue ht ⊢
  have ht' := ht.step (SenderRun.step_spec ht .fillWindow)
  have hsender : (r.step .fillWindow).sender = r.sender.fillWindow := rfl
  obtain ⟨gs, hgs⟩ := fillWindow_spec r.sender ht.ready
  have hfull := fillWindow_full r.sender ht.ready
  refine ⟨?_, fun hb pre g post hout => ?_, fillWindow_flight_le r.sender, hfull.fillWindow_eq⟩
  · have hwindow := hgs.grown.windowSize
    rcases hfull.flight_or_done with hflight | ⟨hbuf, hfin⟩
    · rw [hwindow] at hflight
      exact Or.inl hflight
    · refine Or.inr ⟨ht'.syn_sent hfull.syn, ?_, fun hend => ht'.finSent (hfin hend)⟩
      rw [ByteStream.bufferSize, hbuf, List.length_nil]
  · rw [hgs.grown.out] at hout
    rw [List.append_cancel_left hout] at hgs
    obtain ⟨hseqno, hroom⟩ := hgs.inside
    have hstart := (hqueue hb).start
    exact ⟨hseqno, by omega⟩

end Sponge
