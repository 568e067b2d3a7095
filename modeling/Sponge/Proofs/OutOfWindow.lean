import Sponge.Sanity.Arrival
import Sponge.Sanity.Wrapping

/-! Segments outside the receiver's window. A FIN is looked at before the window is, and
a string at the window's very edge still enters the map; any other segment whose
range misses the window leaves no trace. -/

namespace Sponge

open Chunks StreamReassembler

namespace TCPReceiver

/-- The segment's absolute sequence number, as the receiver unwraps it. -/
def absSeqno (r : TCPReceiver) (g : TCPSegment) : ℕ :=
  unwrap g.header.seqno r.isn (uadd r.streamOut.bytesWritten 1)

/-- The stream index of the payload of a segment without SYN. -/
def streamIndex (r : TCPReceiver) (g : TCPSegment) : ℕ := uadd (r.absSeqno g) (2 ^ 64 - 1)

/-- The segment's range misses the window, which starts at the absolute number behind
the bytes written. -/
def OutOfWindow (r : TCPReceiver) (g : TCPSegment) : Prop :=
  r.absSeqno g + g.lengthInSequenceSpace ≤ r.streamOut.bytesWritten + 1 ∨
    r.streamOut.bytesWritten + 1 + r.windowSize ≤ r.absSeqno g

/-- The segment names no new end of the stream, and bytes beyond the next one do not start
exactly where the window ends. -/
def Harmless (r : TCPReceiver) (g : TCPSegment) : Prop :=
  (g.header.fin = true →
    uadd (r.streamIndex g) g.payload.length = r.reassembler.eofIndex) ∧
  (g.payload ≠ [] → r.streamOut.bytesWritten < r.streamIndex g →
    r.streamIndex g ≠ uadd r.streamOut.bytesRead r.capacity)

instance (r : TCPReceiver) (g : TCPSegment) : Decidable (r.OutOfWindow g) :=
  inferInstanceAs (Decidable (_ ∨ _))

instance (r : TCPReceiver) (g : TCPSegment) : Decidable (r.Harmless g) :=
  inferInstanceAs (Decidable (_ ∧ _))

end TCPReceiver

theorem usub_wrap_ok (a b : ℕ) : ∃ n, usub .wrap a b = .ok n := by
  unfold usub
  split_ifs
  · exact ⟨_, rfl⟩
  · exact ⟨_, rfl⟩

theorem writeDirect_old {r : StreamReassembler} (h : Keyed r.unassembledIndex r.unassembledBytes)
    {data : List Byte} {index : ℕ} (hend : index + data.length = r.unassembledIndex) :
    writeDirect .wrap r data index = .ok r := by
  obtain ⟨n1, h1⟩ := usub_wrap_ok (min (uadd index data.length) r.unacceptedIndex) r.unassembledIndex
  obtain ⟨n2, h2⟩ := usub_wrap_ok r.capacity r.output.bufferSize
  obtain ⟨n3, h3⟩ := usub_wrap_ok n2 r.unassembledSize
  have hpos : r.unassembledIndex - index = data.length := by omega
  have hnone : (r.output.write []).2 = 0 := by
    unfold ByteStream.write
    split_ifs <;> simp
  simp only [writeDirect, h1, h2, h3, usub_eq .wrap (show index ≤ r.unassembledIndex by omega), hpos,
    ok_bind, substr_eq _ le_rfl, List.drop_length, List.take_nil, ByteStream.write_nil, hnone,
    Nat.add_zero]
  rw [drain_stop .wrap r.output r.unassembledIndex r.unassembledCnt r.unassembledBytes h.2]
  rfl

theorem pushSubstring_outside {r : StreamReassembler} (h : Steady r)
    (hopen : r.output.inputEnded = false) {data : List Byte} {index : ℕ} {eof : Bool}
    (hindex : index < 2 ^ 64) (hend : eofAfter r data index eof = r.eofIndex)
    (hleft : index ≤ r.unassembledIndex → index + data.length ≤ r.unassembledIndex)
    (hright : r.unassembledIndex < index → data ≠ [] →
      uadd r.output.bytesRead r.capacity < index) :
    pushSubstring .wrap r data index eof = .ok (noted r data index eof, data) := by
  have hshut := h.shut.resolve_left (by simp [hopen])
  have heof := h.eof
  rw [pushSubstring_head, hend, if_neg (by omega)]
  split_ifs with hout hi
  · rfl
  · -- at the edge, where only an empty string can be
    have hnil : data = [] := by
      by_contra hne
      have := hright hi hne
      omega
    subst hnil
    rw [mergeString_nil .wrap _ hindex, ok_bind]
    simp only [noted, hend]
    exact if_neg (by omega)
  · -- the string ends where the stream has got to
    have hle := hleft (by omega)
    rw [uadd_eq (by omega)] at hout
    have hlen : index + data.length = r.unassembledIndex := by omega
    rw [writeDirect_old (r := noted r data index eof) h.keyed hlen, ok_bind, ok_bind]
    simp only [noted, hend]
    exact if_neg (by omega)

/-- Two receivers that differ only in what the next push recomputes and in a flag that
is never read. -/
def Same (r r' : TCPReceiver) : Prop :=
  ∃ unaccepted fin,
    r' = { r with
      reassembler := { r.reassembler with unacceptedIndex := unaccepted }
      setFin := fin }

theorem Same.view {r r' : TCPReceiver} (h : Same r r') : r.view = r'.view := by
  obtain ⟨u, f, rfl⟩ := h
  rfl

/-- A push computes the window's end anew, so the old one makes no difference. -/
theorem pushSubstring_unaccepted (r : StreamReassembler) (u : ℕ) (data : List Byte) (index : ℕ)
    (eof : Bool) :
    Lifts (fun a b => ∃ u, b = ({ a.1 with unacceptedIndex := u }, a.2))
      (pushSubstring .wrap r data index eof)
      (pushSubstring .wrap { r with unacceptedIndex := u } data index eof) := by
  have hnoted : noted { r with unacceptedIndex := u } data index eof = noted r data index eof := rfl
  have heof : eofAfter { r with unacceptedIndex := u } data index eof =
    eofAfter r data index eof := rfl
  rw [pushSubstring_head, pushSubstring_head, hnoted, heof]
  simp only
  split_ifs
  · exact ⟨u, rfl⟩
  · exact Lifts.refl (fun a => ⟨a.1.unacceptedIndex, rfl⟩) _
  · exact Lifts.refl (fun a => ⟨a.1.unacceptedIndex, rfl⟩) _
  · exact Lifts.refl (fun a => ⟨a.1.unacceptedIndex, rfl⟩) _

theorem Same.assemble {r r' : TCPReceiver} (h : Same r r') (g : TCPSegment) :
    Lifts Same (r.assemble g) (r'.assemble g) := by
  obtain ⟨u, f, rfl⟩ := h
  refine (pushSubstring_unaccepted r.reassembler u g.payload _ g.header.fin).bind ?_
  rintro ⟨s, d⟩ _ ⟨u', rfl⟩
  exact ⟨u', f || g.header.fin, rfl⟩

theorem Same.step {r r' : TCPReceiver} (h : Same r r') (op : ReceiverOp) :
    Lifts Same (r.step op) (r'.step op) := by
  have hflags : r'.setSyn = r.setSyn ∧ r'.streamOut = r.streamOut := by
    obtain ⟨u, f, rfl⟩ := h
    exact ⟨rfl, rfl⟩
  cases op with
  | segmentReceived g =>
    simp only [TCPReceiver.step, TCPReceiver.segmentReceived, hflags.1]
    split_ifs
    · exact h.assemble g
    · obtain ⟨u, f, rfl⟩ := h
      have hsame : Same { r with setSyn := true, isn := g.header.seqno } _ := ⟨u, f, rfl⟩
      exact hsame.assemble g
    · exact h
  | read len =>
    obtain ⟨u, f, rfl⟩ := h
    exact ⟨u, f, rfl⟩

theorem TCPReceiver.Regular.outside {r : TCPReceiver} (hr : r.Regular)
    (hopen : r.streamOut.inputEnded = false) (hwindow : 0 < r.windowSize) {g : TCPSegment}
    (hsyn : g.header.syn = false) (hout : r.OutOfWindow g) (hharm : r.Harmless g) :
    (r.streamIndex g ≤ r.reassembler.unassembledIndex →
        r.streamIndex g + g.payload.length ≤ r.reassembler.unassembledIndex) ∧
      (r.reassembler.unassembledIndex < r.streamIndex g → g.payload ≠ [] →
        uadd r.streamOut.bytesRead r.capacity < r.streamIndex g) := by
  have hshut := hr.steady.shut.resolve_left (by simpa [streamOut] using hopen)
  have heof := hr.steady.eof
  have hindex : r.reassembler.unassembledIndex = r.streamOut.bytesWritten := hr.steady.index
  have habs : r.absSeqno g < 2 ^ 64 := unwrap_lt _ _ _
  have hbuf : r.streamOut.buffer.length ≤ r.capacity := hr.room ▸ r.streamOut.fits
  have hbalance := r.streamOut.balanced
  simp only [windowSize, ByteStream.bufferSize] at hwindow
  simp only [OutOfWindow, TCPSegment.lengthInSequenceSpace, hsyn, Bool.toNat_false, windowSize,
    ByteStream.bufferSize] at hout
  have hedge := hharm.2
  simp only [streamIndex] at hedge ⊢
  by_cases hzero : r.absSeqno g = 0
  · -- the number below the SYN's has no stream index: the sum comes out as the largest one
    have hlast : uadd (r.absSeqno g) (2 ^ 64 - 1) = 2 ^ 64 - 1 := by rw [hzero]; rfl
    have hwin := uadd_lt r.streamOut.bytesRead r.capacity
    rw [hlast] at hedge ⊢
    refine ⟨fun h => by omega, fun hright hne => ?_⟩
    have := hedge hne (hindex ▸ hright)
    omega
  · have hless : uadd (r.absSeqno g) (2 ^ 64 - 1) = r.absSeqno g - 1 := by
      unfold uadd
      omega
    rw [hless] at hedge ⊢
    refine ⟨fun h => by omega, fun hright hne => ?_⟩
    have hfits : r.streamOut.bytesRead + r.capacity < 2 ^ 64 := by omega
    have := hedge hne (hindex ▸ hright)
    rw [uadd_eq hfits] at this ⊢
    omega

theorem TCPReceiver.segmentReceived_push {r : TCPReceiver} {g : TCPSegment} (hset : r.setSyn = true)
    (hsyn : g.header.syn = false) :
    r.segmentReceived g =
      (pushSubstring .wrap r.reassembler g.payload (r.streamIndex g) g.header.fin >>= fun p =>
        .ok { r with reassembler := p.1, setFin := r.setFin || g.header.fin }) := by
  have hindex : ∀ n : ℕ, (if g.header.syn = true then n else uadd n (2 ^ 64 - 1)) =
      uadd n (2 ^ 64 - 1) := fun n => if_neg (by simp [hsyn])
  unfold TCPReceiver.segmentReceived TCPReceiver.assemble
  simp only [if_pos hset, hindex]
  rfl

theorem TCPReceiver.Regular.ignores {r : TCPReceiver} (hr : r.Regular) (hset : r.setSyn = true)
    (hopen : r.streamOut.inputEnded = false) (hwindow : 0 < r.windowSize) {g : TCPSegment}
    (hsyn : g.header.syn = false) (hout : r.OutOfWindow g) (hharm : r.Harmless g) :
    ∃ r', r.segmentReceived g = .ok r' ∧ Same r r' := by
  obtain ⟨hleft, hright⟩ := hr.outside hopen hwindow hsyn hout hharm
  have hend : eofAfter r.reassembler g.payload (r.streamIndex g) g.header.fin =
      r.reassembler.eofIndex := by
    unfold eofAfter
    split_ifs with hfin
    · exact hharm.1 hfin
    · rfl
  have hpush := pushSubstring_outside hr.steady hopen (uadd_lt _ _) hend hleft
    (hr.capacity ▸ hright)
  refine ⟨{ r with
    reassembler := noted r.reassembler g.payload (r.streamIndex g) g.header.fin
    setFin := r.setFin || g.header.fin }, ?_, uadd r.streamOut.bytesRead r.reassembler.capacity,
    r.setFin || g.header.fin, ?_⟩
  · rw [TCPReceiver.segmentReceived_push hset hsyn]
    exact congrArg (Except.bind · _) hpush
  · simp only [noted, hend]
    rfl

/-- From every reachable open state with a window: a segment whose range misses the
window, that names no new end and has no bytes at the window's edge, leaves what
the receiver shows as it is, now and after every later sequence of segments and reads. -/
theorem out_of_window_ignored (capacity : ℕ) (past : List ReceiverOp) {r : TCPReceiver}
    (hrun : exec TCPReceiver.step (TCPReceiver.new capacity) past = .ok r) (hset : r.setSyn = true)
    (hopen : r.streamOut.inputEnded = false) (hwindow : 0 < r.windowSize) {g : TCPSegment}
    (hsyn : g.header.syn = false) (hout : r.OutOfWindow g) (hharm : r.Harmless g) :
    ∃ r', r.segmentReceived g = .ok r' ∧ r'.view = r.view ∧
      ∀ later, (exec TCPReceiver.step r' later).map TCPReceiver.view =
        (exec TCPReceiver.step r later).map TCPReceiver.view := by
  have hr : r.Regular := exec_ok_inv (fun _ _ _ h hs => h.step hs)
    (TCPReceiver.Regular.new capacity) hrun
  obtain ⟨r', hstep, hsame⟩ := hr.ignores hset hopen hwindow hsyn hout hharm
  refine ⟨r', hstep, hsame.view.symm, fun later => ?_⟩
  have hlock := exec_lockstep (fun _ _ op h => Same.step h op) hsame later
  exact (hlock.map_eq fun _ _ h => h.view).symm

/-- A copy of an old segment, after the SYN and one byte. -/
theorem out_of_window_ignored_copy :
    ∃ r r' : TCPReceiver, exec TCPReceiver.step (TCPReceiver.new 4)
        [.segmentReceived { header := { syn := true } },
          .segmentReceived { header := { seqno := ⟨1⟩ }, payload := [97] }] = .ok r ∧
      r.segmentReceived { header := { seqno := ⟨1⟩ }, payload := [97] } = .ok r' ∧
      r'.view = r.view := by
  obtain ⟨r', hstep, hview, -⟩ := out_of_window_ignored 4
    [.segmentReceived { header := { syn := true } },
      .segmentReceived { header := { seqno := ⟨1⟩ }, payload := [97] }]
    rfl rfl rfl (by decide) (g := { header := { seqno := ⟨1⟩ }, payload := [97] }) rfl (by decide)
    (by decide)
  exact ⟨_, r', rfl, hstep, hview⟩

/-- An old FIN, below the window, ends the input. -/
theorem old_fin_ends_input :
    ∃ r, exec TCPReceiver.step (TCPReceiver.new 4)
        [.segmentReceived { header := { syn := true } },
          .segmentReceived { header := { seqno := ⟨1⟩ }, payload := [97] }] = .ok r ∧
      (r.setSyn = true ∧ r.streamOut.inputEnded = false ∧ 0 < r.windowSize ∧
        r.OutOfWindow { header := { seqno := ⟨1⟩, fin := true } } ∧
        ∃ r', r.segmentReceived { header := { seqno := ⟨1⟩, fin := true } } = .ok r' ∧
          r'.streamOut.inputEnded = true) := by
  decide

end Sponge
