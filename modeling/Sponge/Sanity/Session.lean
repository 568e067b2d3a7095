import Sponge.Sanity.Content

/-! One step of a session: a push that ends in one of the listed ways, or bytes
taken from the output. Every invariant of a session is a case analysis of this. -/

namespace Sponge

open Chunks StreamReassembler

inductive Stepped (s : Session) : SessionOp → Session → Prop
  | push {data : List Byte} {index : ℕ} {eof : Bool} {r : StreamReassembler}
      (hb : index + data.length < 2 ^ 64) (hp : Pushed s.reassembler data index eof r) :
      Stepped s (.push data index eof) ⟨r, s.taken⟩
  | take {op : SessionOp} (n : ℕ) (hop : op = .read n ∨ op = .pop n) :
      Stepped s op (s.withOutput (s.reassembler.output.popOutput n)
        (s.reassembler.output.peekOutput n))

theorem Session.step_spec {s : Session} (h : Inv s.reassembler) {op : SessionOp} (hop : op.InRange) :
    ∃ s', s.step op = .ok s' ∧ Stepped s op s' := by
  cases op with
  | push data index eof =>
    obtain ⟨r, d, hrun, hp⟩ := pushSubstring_spec .wrap h data index eof hop (Or.inl rfl)
    exact ⟨⟨r, s.taken⟩, by simp only [Session.step, hrun, ok_bind], .push hop hp⟩
  | read n =>
    exact ⟨_, by simp only [Session.step, ByteStream.read_eq_pop], .take n (Or.inl rfl)⟩
  | pop n => exact ⟨_, rfl, .take n (Or.inr rfl)⟩

theorem Stepped.pushed {s s' : Session} {data : List Byte} {index : ℕ} {eof : Bool}
    (hst : Stepped s (.push data index eof) s') :
    Pushed s.reassembler data index eof s'.reassembler := by
  cases hst with
  | push hb hp => exact hp
  | take n hop => rcases hop with hop | hop <;> cases hop

theorem Inv.stepped {s s' : Session} {op : SessionOp} (h : Inv s.reassembler)
    (hst : Stepped s op s') : Inv s'.reassembler := by
  cases hst with
  | push hb hp => exact h.pushed hb hp
  | take n => exact h.pop n

theorem Inv.step (s : Session) (op : SessionOp) (h : Inv s.reassembler) (hop : op.InRange) :
    ∃ s', s.step op = .ok s' ∧ Inv s'.reassembler := by
  obtain ⟨s', hrun, hst⟩ := Session.step_spec h hop
  exact ⟨s', hrun, h.stepped hst⟩

theorem Stepped.capacity {s s' : Session} {op : SessionOp} (hst : Stepped s op s') :
    s'.reassembler.capacity = s.reassembler.capacity := by
  cases hst with
  | push hb hp => exact hp.capacity
  | take n => rfl

theorem SessionOp.From.inRange {S : List Byte} (hS : S.length < 2 ^ 64) {op : SessionOp}
    (hop : op.From S) : op.InRange := by
  cases op with
  | push data index eof => exact lt_of_le_of_lt hop.1 hS
  | read n => trivial
  | pop n => trivial

/-- Pushes that end below 2^64 see only that much of the stream. -/
theorem SessionOp.From.clip {S : List Byte} {op : SessionOp} (hop : op.From S) (hb : op.InRange) :
    op.From (S.take (2 ^ 64 - 1)) := by
  cases op with
  | push data index eof =>
    obtain ⟨hlen, hdata, heof⟩ := hop
    have hb : index + data.length < 2 ^ 64 := hb
    refine ⟨?_, ?_, fun he => ?_⟩
    · rw [List.length_take]
      omega
    · rw [List.drop_take, List.take_take, min_eq_left (by omega)]
      exact hdata
    · have := heof he
      rw [List.length_take]
      omega
  | read n => trivial
  | pop n => trivial

theorem length_clip (S : List Byte) : (S.take (2 ^ 64 - 1)).length < 2 ^ 64 := by
  rw [List.length_take]
  omega

/-- What a session of pushes from `S` maintains. The end index is that of `S`
once a push has carried the flag, and the reserved value before. -/
structure FromStream (S : List Byte) (ops : List SessionOp) (s : Session) : Prop where
  inv : Inv s.reassembler
  safe : Safe S s.taken s.reassembler
  eof : s.reassembler.eofIndex = if ops.any SessionOp.carriesEof then S.length else noEof

theorem FromStream.new (S : List Byte) {capacity : ℕ} (h : capacity < 2 ^ 64) :
    FromStream S [] (Session.new capacity) :=
  ⟨Inv.new h, Safe.new S capacity, rfl⟩

theorem FromStream.eofAfter_eq {S : List Byte} {ops : List SessionOp} {s : Session}
    (h : FromStream S ops s) {data : List Byte} {index : ℕ} {eof : Bool}
    (hb : index + data.length < 2 ^ 64) (heof : eof = true → index + data.length = S.length) :
    eofAfter s.reassembler data index eof =
      if (ops ++ [SessionOp.push data index eof]).any SessionOp.carriesEof then S.length
      else noEof := by
  unfold eofAfter
  cases eof with
  | true => simp [uadd_eq hb, heof rfl, SessionOp.carriesEof]
  | false => simpa [SessionOp.carriesEof] using h.eof

theorem FromStream.shut {S : List Byte} (hS : S.length < 2 ^ 64) {ops : List SessionOp} {s : Session}
    (h : FromStream S ops s) {data : List Byte} {index : ℕ} {eof : Bool}
    (hb : index + data.length < 2 ^ 64) (heof : eof = true → index + data.length = S.length)
    (hended : s.reassembler.output.inputEnded = true) :
    eofAfter s.reassembler data index eof ≤ s.reassembler.unassembledIndex := by
  have hreached := h.safe.closed.mp hended
  have hindex := h.safe.index_le h.inv
  rw [h.eofAfter_eq hb heof]
  rw [h.eof] at hreached
  by_cases hany : ops.any SessionOp.carriesEof = true
  · rw [if_pos hany] at hreached
    rwa [if_pos (by simp [hany])]
  · rw [if_neg hany, noEof] at hreached
    unfold noEof
    split_ifs <;> omega

theorem FromStream.stop_le {S : List Byte} {ops : List SessionOp} {s : Session}
    (h : FromStream S ops s) {data : List Byte} {index : ℕ} {eof : Bool}
    (hb : index + data.length < 2 ^ 64) (hop : (SessionOp.push data index eof).From S)
    (hend : eofAfter s.reassembler data index eof ≤ s.reassembler.unassembledIndex) :
    index + data.length ≤ s.reassembler.unassembledIndex := by
  have hlen := hop.1
  rw [h.eofAfter_eq hb hop.2.2, noEof] at hend
  split_ifs at hend <;> omega

theorem FromStream.stepped {S : List Byte} (hS : S.length < 2 ^ 64) {ops : List SessionOp}
    {s s' : Session} {op : SessionOp} (h : FromStream S ops s) (hop : op.From S)
    (hst : Stepped s op s') : FromStream S (ops ++ [op]) s' := by
  cases hst with
  | @push data index eof r hb hp =>
    obtain ⟨-, hdata, heof⟩ := hop
    refine ⟨h.inv.pushed hb hp, h.safe.pushed h.inv ?_ (h.shut hS hb heof) hp, ?_⟩
    · exact List.prefix_iff_eq_take.mpr hdata
    · rw [← h.eofAfter_eq hb heof]
      exact hp.eofIndex
  | take n hn =>
    refine ⟨h.inv.pop n, h.safe.pop n, ?_⟩
    rcases hn with rfl | rfl <;>
      simpa [Session.withOutput, SessionOp.carriesEof] using h.eof

theorem FromStream.step {S : List Byte} (hS : S.length < 2 ^ 64) (ops : List SessionOp) (s : Session)
    (op : SessionOp) (h : FromStream S ops s) (hop : op.From S) :
    ∃ s', s.step op = .ok s' ∧ FromStream S (ops ++ [op]) s' := by
  obtain ⟨s', hrun, hst⟩ := Session.step_spec h.inv (hop.inRange hS)
  exact ⟨s', hrun, h.stepped hS hop hst⟩

theorem FromStream.before_end {S : List Byte} {ops : List SessionOp} {s : Session}
    (h : FromStream S ops s) (hopen : s.reassembler.output.inputEnded = false) {data : List Byte}
    {index : ℕ} (eof : Bool) (hb : index + data.length < 2 ^ 64)
    (hnext : s.reassembler.unassembledIndex < index + data.length) :
    s.reassembler.unassembledIndex < eofAfter s.reassembler data index eof := by
  unfold eofAfter
  cases eof with
  | true =>
    rw [if_pos rfl, uadd_eq hb]
    exact hnext
  | false =>
    have := mt h.safe.closed.mpr (by simp [hopen])
    simpa using this

theorem FromStream.ended_iff {S : List Byte} (hS : S.length < 2 ^ 64) {ops : List SessionOp}
    {s : Session} (h : FromStream S ops s) :
    s.reassembler.output.inputEnded = true ↔
      ((∃ op ∈ ops, op.carriesEof = true) ∨ S.length = 2 ^ 64 - 1) ∧
        s.reassembler.unassembledIndex = S.length := by
  have hindex := h.safe.index_le h.inv
  rw [h.safe.closed, h.eof, ← List.any_eq_true]
  unfold noEof
  split_ifs with hany
  · simp only [hany, true_or, true_and]
    omega
  · simp only [hany, Bool.false_eq_true, false_or]
    omega

end Sponge
