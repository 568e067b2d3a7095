import Sponge.Sanity.Retain

/-! Whether the reassembler can always take its next byte. It can as long as the
counter is below the capacity. A push into a key that holds an empty string is
counted but not stored, so repeating one fills the counter for good; a session
without such a push counts only what it stores, and then an emptied output
always has room. -/

namespace Sponge

open Chunks StreamReassembler

theorem Exact.lt_capacity {r : StreamReassembler} (h : Inv r) (he : Exact r) (hcap : 1 ≤ r.capacity)
    (hread : r.output.buffer = []) : r.unassembledCnt < r.capacity := by
  have hb := h.read_add_buffer
  rw [hread, List.length_nil] at hb
  have hgap := total_add_gap_le h.sep
    (fun c hc => ⟨(h.after c hc).le, h.window c hc⟩) le_rfl
    (show r.unassembledIndex + 1 ≤ r.output.bytesRead + r.capacity by omega)
    (fun i hi1 hi2 hi => h.not_held_next (Or.inr (by
      rwa [show i = r.unassembledIndex by omega] at hi)))
  unfold Exact at he
  omega

theorem progress_pushed {r r' : StreamReassembler} (h : Inv r)
    (hopen : r.output.inputEnded = false) (hread : r.output.buffer = []) {data : List Byte}
    {index : ℕ} {eof : Bool} (hend : r.unassembledIndex < eofAfter r data index eof)
    (h1 : index ≤ r.unassembledIndex) (h2 : r.unassembledIndex < index + data.length)
    (hb : index + data.length < 2 ^ 64) (hp : Pushed r data index eof r') :
    r.output.bytesWritten < r'.output.bytesWritten ↔
      r.unassembledCnt < r.capacity ∧ index ≤ uadd r.output.bytesRead r.capacity := by
  rw [h.written, (h.pushed hb hp).written]
  cases hp with
  | ended hle => omega
  | ignored _ hout =>
    apply iff_of_false (lt_irrefl _)
    omega
  | stored _ hi => omega
  | shut _ hshut => simp [hopen] at hshut
  | wrote _ _ _ _ hU new pre post hd =>
    have hlen : (fresh r data index).length =
        min (r.capacity - r.unassembledCnt) (data.length - (r.unassembledIndex - index)) := by
      simp only [fresh, List.length_take, List.length_drop, hread, List.length_nil, Nat.sub_zero]
    simp only [List.length_append]
    by_cases hroom : r.unassembledCnt < r.capacity
    · exact iff_of_true (by omega) ⟨hroom, hU⟩
    · have hzero : (fresh r data index).length = 0 := by omega
      rw [hzero, Nat.add_zero] at hd
      rw [hzero, hd.eq_nil h.after]
      exact iff_of_false (by simp) fun hc => hroom hc.1

theorem Counted.step {S : List Byte} (hS : S.length < 2 ^ 64) (ops : List SessionOp) (s : Session)
    (op : SessionOp) (h : Counted S ops s)
    (hop : op.From S ∧ op.AtPush (fun r data index eof => ¬ Clash r data index eof) s) :
    ∃ s', s.step op = .ok s' ∧ Counted S (ops ++ [op]) s' := by
  obtain ⟨s', hrun, hst⟩ := Session.step_spec h.inv (hop.1.inRange hS)
  refine ⟨s', hrun, h.toFromStream.stepped hS hop.1 hst, ?_⟩
  cases hst with
  | push hb hp => exact h.exact.pushed h.inv hop.2 hp
  | take n => exact h.exact

theorem exec_capacity {capacity : ℕ} {ops : List SessionOp} {s : Session}
    (hcap : capacity < 2 ^ 64) (hops : ∀ op ∈ ops, op.InRange)
    (h : exec Session.step (Session.new capacity) ops = .ok s) :
    s.reassembler.capacity = capacity := by
  obtain ⟨t, ht, -, hc⟩ := exec_inv
    (I := fun s : Session => Inv s.reassembler ∧ s.reassembler.capacity = capacity)
    (C := fun _ op => SessionOp.InRange op)
    (fun s op hI hop => by
      obtain ⟨s', hrun, hst⟩ := Session.step_spec hI.1 hop
      exact ⟨s', hrun, hI.1.stepped hst, hst.capacity.trans hI.2⟩)
    ⟨Inv.new hcap, rfl⟩ (Each.of_forall hops (Session.new capacity))
  rw [h] at ht
  cases ht
  exact hc

/-- In every session of pushes from one stream, when the output is open and has
been read empty: a push that contains the next byte advances the output exactly
if the counter is below the capacity and the push is not past the end of the
window, which it can only be once `bytes_read() + capacity` has wrapped. In every
session that never inserts under a key holding an empty string the counter is
below the capacity there. -/
theorem next_byte_advances (S : List Byte) (capacity : ℕ) (hpos : 1 ≤ capacity)
    (hcap : capacity < 2 ^ 64) (ops : List SessionOp)
    (hops : ∀ op ∈ ops, op.From S ∧ op.InRange) :
    ∃ s, exec Session.step (Session.new capacity) ops = .ok s ∧
      (s.reassembler.output.inputEnded = false → s.reassembler.output.buffer = [] →
        (∀ data index eof, (SessionOp.push data index eof).From S →
          (SessionOp.push data index eof).InRange →
          index ≤ s.reassembler.output.bytesWritten →
          s.reassembler.output.bytesWritten < index + data.length →
          ∃ s', s.step (.push data index eof) = .ok s' ∧
            (s.reassembler.output.bytesWritten < s'.reassembler.output.bytesWritten ↔
              s.reassembler.unassembledSize < capacity ∧
                index ≤ (s.reassembler.output.bytesRead + capacity) % 2 ^ 64)) ∧
        (Each Session.step (SessionOp.AtPush fun r data index eof => ¬ Clash r data index eof)
            (Session.new capacity) ops →
          s.reassembler.unassembledSize < capacity)) := by
  have hS := length_clip S
  have hfrom : Each Session.step (fun _ op => op.From (S.take (2 ^ 64 - 1))) (Session.new capacity)
      ops := Each.of_forall (fun op hop => (hops op hop).1.clip (hops op hop).2) _
  obtain ⟨s, hrun, h⟩ := exec_history (FromStream.step hS) ops [] (Session.new capacity)
    (FromStream.new _ hcap) hfrom
  have hsc := exec_capacity hcap (fun op hop => (hops op hop).2) hrun
  refine ⟨s, hrun, fun hopen hread => ⟨fun data index eof hop hb h1 h2 => ?_, fun hfree => ?_⟩⟩
  · rw [h.inv.written] at h1 h2
    obtain ⟨s', hstep, hst⟩ := Session.step_spec h.inv hb
    refine ⟨s', hstep, ?_⟩
    have hend := h.before_end hopen eof hb h2
    rw [progress_pushed h.inv hopen hread hend h1 h2 hb hst.pushed, hsc]
    rfl
  · obtain ⟨t, ht, hcount⟩ := exec_history (Counted.step hS) ops [] (Session.new capacity)
      (Counted.new _ hcap) (hfrom.and hfree)
    rw [hrun] at ht
    cases ht
    have := hcount.exact.lt_capacity h.inv (by rw [hsc]; exact hpos) hread
    rwa [hsc] at this

/-- The byte at index 2 arrives first and waits; the one before it lets both through. -/
theorem next_byte_advances_run :
    ∃ s s', exec Session.step (Session.new 3) [.push [3] 2 false, .push [1] 0 false, .read 1] = .ok s ∧
      s.reassembler.unassembledSize < 3 ∧ s.step (.push [2] 1 false) = .ok s' ∧
      s.reassembler.output.bytesWritten < s'.reassembler.output.bytesWritten := by
  obtain ⟨s, hrun, h⟩ := next_byte_advances [1, 2, 3] 3 (by decide) (by decide)
    [.push [3] 2 false, .push [1] 0 false, .read 1] (by decide)
  obtain ⟨t, ht, hopen, hread, hwritten, hbytes⟩ : ∃ t, exec Session.step (Session.new 3)
      [.push [3] 2 false, .push [1] 0 false, .read 1] = .ok t ∧
      t.reassembler.output.inputEnded = false ∧ t.reassembler.output.buffer = [] ∧
      t.reassembler.output.bytesWritten = 1 ∧ t.reassembler.output.bytesRead = 1 :=
    ⟨_, rfl, by decide, by decide, by decide, by decide⟩
  obtain rfl : s = t := Except.ok.inj (hrun.symm.trans ht)
  obtain ⟨hnext, hbound⟩ := h hopen hread
  have hroom := hbound (by decide)
  obtain ⟨s', hs, hiff⟩ := hnext [2] 1 false (by decide) (by decide) hwritten.ge (by simp [hwritten])
  exact ⟨s, s', hrun, hroom, hs, hiff.mpr ⟨hroom, by rw [hbytes]; decide⟩⟩

/-- Capacity 2: the byte at index 2 is pushed at the edge, and twice more once the
window has moved. The counter is then 2, nothing is stored, and the next byte is
refused although the output is open and read empty. -/
theorem next_byte_stalls :
    ∃ s, exec Session.step (Session.new 2)
        [.push [3] 2 false, .push [1] 0 false, .read 1, .push [3] 2 false, .push [3] 2 false] = .ok s ∧
      s.reassembler.output.inputEnded = false ∧ s.reassembler.output.buffer = [] ∧
      s.reassembler.output.bytesWritten = 1 ∧ (SessionOp.push [2, 3] 1 false).From [1, 2, 3, 4] ∧
      ∃ s', s.step (.push [2, 3] 1 false) = .ok s' ∧ s'.reassembler.output.bytesWritten = 1 :=
  ⟨_, rfl, by decide, by decide, by decide, by decide, _, rfl, by decide⟩

end Sponge
