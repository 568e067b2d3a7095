import Sponge.Sanity.Deliver
import Sponge.Spec.Transfer

/-! The two parties and the network between them. Every event is one or two
moves, each an operation of one side with something the other has sent. -/

namespace Sponge

open Chunks StreamReassembler TCPSender

/-- The link, and a network that holds only what the two have sent. -/
structure Linked (s : Transfer) : Prop where
  link : Link s.tx s.taken s.rx
  repeats : Repeats s.tx
  reports : ∀ p ∈ s.reports, ∃ a, p.1 = wrap a s.tx.sender.isn ∧ a ≤ s.rx.absAckno

theorem Linked.new (sendCapacity retxTimeout : ℕ) (isn : WrappingInt32) {recvCapacity : ℕ}
    (h : recvCapacity < 2 ^ 64) :
    Linked (Transfer.new sendCapacity retxTimeout isn recvCapacity) :=
  ⟨Link.new sendCapacity retxTimeout isn h, fun e he => by simp [Transfer.new, SenderRun.new] at he,
    fun p hp => by simp [Transfer.new] at hp⟩

theorem Linked.genuine {s : Transfer} (h : Linked s) {g : TCPSegment} (hg : g ∈ s.emitted) :
    Genuine s.tx g := by
  rcases List.mem_append.mp hg with hg | hg
  · exact .copy g hg rfl rfl rfl rfl
  · obtain ⟨e, he, rfl⟩ := List.mem_map.mp hg
    rcases h.repeats e he with hlen | hmem
    · exact .empty hlen
    · exact .copy e.1 hmem rfl rfl rfl rfl

theorem Linked.send {s : Transfer} (h : Linked s) (hb : s.tx.sender.nextSeqno < 2 ^ 31)
    (op : SenderOp) (hack : ∀ ackno w, op = .ackReceived ackno w →
      ∃ a, ackno = wrap a s.tx.sender.isn ∧ a ≤ s.rx.absAckno) :
    Linked { s with tx := s.tx.step op } := by
  have hst := SenderRun.step_spec h.link.tiles op
  refine ⟨h.link.step hb hst hack, h.repeats.step h.link.tiles hst, fun p hp => ?_⟩
  rw [(hst.onward h.link.tiles).isn]
  exact h.reports p hp

/-- The moves of the system. -/
inductive Moved (s : Transfer) : Transfer → Prop
  | stay : Moved s s
  | send (op : SenderOp) (hack : ∀ ackno w, op = .ackReceived ackno w → (ackno, w) ∈ s.reports) :
      Moved s { s with tx := s.tx.step op }
  | receive {g : TCPSegment} {r : TCPReceiver} (hg : g ∈ s.emitted) (hd : Delivered s.tx s.rx g r) :
      Moved s { s with rx := r }
  | read (n : ℕ) :
      Moved s { s with
        rx := s.rx.withOutput (s.rx.streamOut.popOutput n)
        taken := s.taken ++ s.rx.streamOut.peekOutput n }
  | report {a : WrappingInt32} (ha : s.rx.ackno = some a) :
      Moved s { s with
        reports := s.reports ++ [(a, UInt16.ofNat (min 65535 s.rx.windowSize))] }

theorem Linked.moved {s s' : Transfer} (h : Linked s) (hb : s.tx.sender.nextSeqno < 2 ^ 31)
    (hm : Moved s s') : Linked s' := by
  cases hm with
  | stay => exact h
  | send op hack => exact h.send hb op fun ackno w hop => h.reports _ (hack ackno w hop)
  | receive hg hd =>
    obtain ⟨hlink, hmono⟩ := h.link.receive hb hd
    refine ⟨hlink, h.repeats, fun p hp => ?_⟩
    obtain ⟨a, ha, hle⟩ := h.reports p hp
    exact ⟨a, ha, hle.trans hmono⟩
  | read n => exact ⟨h.link.read n, h.repeats, h.reports⟩
  | report ha =>
    refine ⟨h.link, h.repeats, fun p hp => ?_⟩
    rcases List.mem_append.mp hp with hp | hp
    · exact h.reports p hp
    · rw [List.mem_singleton] at hp
      subst hp
      obtain ⟨hsyn, ha⟩ := TCPReceiver.ackno_eq ha
      exact ⟨s.rx.absAckno, by rw [ha, (h.link.syn hsyn).1], le_rfl⟩

theorem Transfer.step_spec {s : Transfer} (h : Linked s) (hb : s.tx.sender.nextSeqno < 2 ^ 31)
    (e : TransferEvent) :
    ∃ s' t, s.step e = .ok s' ∧ Moved s t ∧ t.tx.sender.nextSeqno = s.tx.sender.nextSeqno ∧
      Moved t s' := by
  cases e with
  | write data =>
    exact ⟨_, _, rfl, .send (.write data) (by simp), rfl, .send .fillWindow (by simp)⟩
  | endInput => exact ⟨_, _, rfl, .send .endInput (by simp), rfl, .send .fillWindow (by simp)⟩
  | tick ms => exact ⟨_, _, rfl, .stay, rfl, .send (.tick ms) (by simp)⟩
  | deliver i =>
    cases hi : s.emitted[i]? with
    | none => exact ⟨s, s, by simp [Transfer.step, hi], .stay, rfl, .stay⟩
    | some g =>
      have hg := List.mem_of_getElem? hi
      obtain ⟨r, hrun, hd⟩ := h.link.delivered hb (h.genuine hg)
      exact ⟨_, s, by simp [Transfer.step, hi, hrun], .stay, rfl, .receive hg hd⟩
  | read n =>
    exact ⟨_, s, by simp only [Transfer.step, ByteStream.read_eq_pop], .stay, rfl, .read n⟩
  | report =>
    cases ha : s.rx.ackno with
    | none => exact ⟨s, s, by simp [Transfer.step, ha], .stay, rfl, .stay⟩
    | some a => exact ⟨_, s, by simp [Transfer.step, ha], .stay, rfl, .report ha⟩
  | acknowledge j =>
    cases hj : s.reports[j]? with
    | none => exact ⟨s, s, by simp [Transfer.step, hj], .stay, rfl, .stay⟩
    | some p =>
      have hp := List.mem_of_getElem? hj
      refine ⟨_, s, by simp [Transfer.step, hj], .stay, rfl, .send (.ackReceived p.1 p.2) ?_⟩
      intro ackno w hop
      cases hop
      exact hp

/-- What every move keeps holds after every run with fewer than 2^31 sequence
numbers, and such a run does not fault. -/
theorem Transfer.exec_inv {I : Transfer → Prop}
    (hmoved : ∀ s s', Linked s → s.tx.sender.nextSeqno < 2 ^ 31 → Moved s s' → I s → I s')
    {s : Transfer} (h : Linked s) (hI : I s) {events : List TransferEvent}
    (hb : Always Transfer.step (fun s => s.tx.sender.nextSeqno < 2 ^ 31) s events) :
    ∃ s', exec Transfer.step s events = .ok s' ∧ s'.tx.sender.nextSeqno < 2 ^ 31 ∧ Linked s' ∧
      I s' := by
  obtain ⟨s', hrun, hs', hI'⟩ := Sponge.exec_inv (I := fun s => Linked s ∧ I s)
    (C := fun s _ => s.tx.sender.nextSeqno < 2 ^ 31)
    (fun s e hs hb => by
      obtain ⟨s', t, hrun, h1, hnext, h2⟩ := Transfer.step_spec hs.1 hb e
      have ht := hs.1.moved hb h1
      have hbt : t.tx.sender.nextSeqno < 2 ^ 31 := hnext ▸ hb
      exact ⟨s', hrun, ht.moved hbt h2, hmoved _ _ ht hbt h2 (hmoved _ _ hs.1 hb h1 hs.2)⟩)
    ⟨h, hI⟩ hb.each
  exact ⟨s', hrun, hb.last hrun, hs', hI'⟩

end Sponge
