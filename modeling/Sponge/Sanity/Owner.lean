import Sponge.Sanity.Received

/-! What the reader of an inbound stream is told at its end is final: a stream that has ended
takes no more bytes, whatever arrives. -/

namespace Sponge

namespace StreamReassembler

theorem endInput_ended {o : ByteStream} (h : o.inputEnded = true) : o.endInput = o := by
  obtain ⟨buffer, capacity, written, read, ended, error, fits, balanced⟩ := o
  cases h
  rfl

theorem drain_ended {md : Overflow} {o o' : ByteStream} (ho : o.inputEnded = true)
    {map : List (ℕ × List Byte)} :
    ∀ {index cnt index' cnt' : ℕ} {map' : List (ℕ × List Byte)},
      drain md o index cnt map = .ok (o', index', cnt', map') → o' = o := by
  induction map with
  | nil =>
    intro index cnt index' cnt' map' h
    cases h
    rfl
  | cons e rest ih =>
    intro index cnt index' cnt' map' h
    obtain ⟨k, s⟩ := e
    unfold drain at h
    split_ifs at h
    · obtain ⟨n, -, h⟩ := bind_eq_ok h
      obtain ⟨tail, -, h⟩ := bind_eq_ok h
      rw [ByteStream.write_ended ho] at h
      obtain ⟨cnt, -, h⟩ := bind_eq_ok h
      exact ih h
    · obtain ⟨cnt, -, h⟩ := bind_eq_ok h
      exact ih h
    · cases h
      rfl

theorem writeDirect_ended {md : Overflow} {r r' : StreamReassembler} {data : List Byte} {index : ℕ}
    (hended : r.output.inputEnded = true) (h : writeDirect md r data index = .ok r') :
    r'.output = r.output := by
  obtain ⟨_, -, h⟩ := bind_eq_ok h
  obtain ⟨_, -, h⟩ := bind_eq_ok h
  obtain ⟨_, -, h⟩ := bind_eq_ok h
  obtain ⟨_, -, h⟩ := bind_eq_ok h
  obtain ⟨fresh, -, h⟩ := bind_eq_ok h
  obtain ⟨⟨o, i, cnt, map⟩, hdrain, h⟩ := bind_eq_ok h
  cases h
  have hwrite : (r.output.write fresh).1 = r.output := by rw [ByteStream.write_ended hended]
  have hstill : (r.output.write fresh).1.inputEnded = true := by rw [hwrite, hended]
  exact (drain_ended hstill hdrain).trans hwrite

theorem pushSubstring_ended {md : Overflow} {r r' : StreamReassembler} {data d : List Byte}
    {index : ℕ} {eof : Bool} (hr : Steady r) (hended : r.output.inputEnded = true)
    (h : pushSubstring md r data index eof = .ok (r', d)) : r'.output = r.output := by
  have hclose : ∀ {p : StreamReassembler × List Byte}, p.1.output = r.output →
      (if p.1.eofIndex ≤ p.1.unassembledIndex
        then Except.ok ({ p.1 with output := p.1.output.endInput }, p.2) else .ok (p.1, p.2)) =
        (.ok (r', d) : Except Fault (StreamReassembler × List Byte)) → r'.output = r.output := by
    intro p hp h
    split_ifs at h
    · cases h
      rw [hp]
      exact endInput_ended hended
    · cases h
      exact hp
  rw [pushSubstring_head] at h
  split_ifs at h with h1 h2 h3
  · cases h
    exact endInput_ended hended
  · cases h
    rfl
  · obtain ⟨p, hp, h⟩ := bind_eq_ok h
    exact hclose (mergeString_kept hp hr.keyed h3).2.1 h
  · obtain ⟨p, hp, h⟩ := bind_eq_ok h
    obtain ⟨t, ht, hp⟩ := bind_eq_ok hp
    refine hclose ?_ h
    cases hp
    have hkept : t.output = (noted r data index eof).output := writeDirect_ended hended ht
    exact hkept

end StreamReassembler

theorem TCPReceiver.segmentReceived_ended {r r' : TCPReceiver} {g : TCPSegment} (hr : r.Regular)
    (hended : r.streamOut.inputEnded = true) (h : r.segmentReceived g = .ok r') :
    r'.streamOut = r.streamOut := by
  have hassemble : ∀ s : TCPReceiver, s.reassembler = r.reassembler →
      s.assemble g = .ok r' → r'.streamOut = r.streamOut := by
    intro s hs h
    obtain ⟨⟨t, d⟩, ht, h⟩ := bind_eq_ok h
    cases h
    rw [hs] at ht
    have hkept : t.output = r.reassembler.output :=
      StreamReassembler.pushSubstring_ended hr.steady hended ht
    exact hkept
  unfold segmentReceived at h
  split_ifs at h
  · exact hassemble r rfl h
  · exact hassemble { r with setSyn := true, isn := g.header.seqno } rfl h
  · cases h
    rfl

/-- The reader has seen the end of the stream, or the stream has failed. -/
def ByteStream.Over (s : ByteStream) : Prop := s.eof = true ∨ s.error = true

theorem ByteStream.Over.pop {s : ByteStream} (h : s.Over) (n : ℕ) : (s.popOutput n).Over := by
  refine h.imp (fun heof => ?_) id
  simp only [eof, bufferEmpty, Bool.and_eq_true, List.isEmpty_iff] at heof ⊢
  simp [popOutput, heof.1, heof.2]

theorem TCPConnection.step_over {c c' : TCPConnection} {op : ConnectionOp} (hs : c.step op = .ok c')
    (hr : c.receiver.Regular) (h : c.receiver.streamOut.Over) : c'.receiver.streamOut.Over := by
  cases step_acted hs with
  | read len => exact h.pop len
  | gaveUp => exact .inr rfl
  | reset => exact .inr rfl
  | heard g _ _ r hseg =>
    rcases h with heof | herror
    · have hended : c.receiver.streamOut.inputEnded = true := by
        simp only [ByteStream.eof, Bool.and_eq_true] at heof
        exact heof.1
      rw [ByteStream.Over]
      rw [TCPReceiver.segmentReceived_ended hr hended hseg]
      exact .inl heof
    · exact .inr ((TCPReceiver.segmentReceived_kept hr.steady hseg).2.1.error.trans herror)
  | sent | ticked | finished | dead => exact h

end Sponge
