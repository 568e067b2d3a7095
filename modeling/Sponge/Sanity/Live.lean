import Sponge.Sanity.Connection
import Sponge.Sanity.Queue
import Sponge.Sanity.Timer

/-! Between two calls on a connection. Its sender is a sender in use with an empty
queue of its own: every segment it has made has been put on the connection's queue,
and nothing it could send is left. -/

namespace Sponge

open TCPSender SenderOp

/-- The operation changes the stream, so there may be something to send after it. -/
def SenderOp.feeds : SenderOp → Bool
  | .write _ => true
  | .endInput => true
  | _ => false

theorem Full.run {accepted : List Byte} {first : List TCPSegment} {s : TCPSender}
    (ht : Tiles accepted first s) (h : s.setSyn = true → Full s) {op : SenderOp}
    (hop : op.feeds = false) (hsyn : (op.run s).setSyn = true) : Full (op.run s) := by
  cases op with
  | write => simp [feeds] at hop
  | endInput => simp [feeds] at hop
  | setError => exact (h hsyn).congr rfl rfl rfl rfl rfl rfl
  | fillWindow => exact fillWindow_full s ht.ready
  | ackReceived ackno w =>
    simp only [SenderOp.run] at hsyn ⊢
    rcases ht.ackReceived_cases ackno w with ⟨-, hsame⟩ | ⟨t, gs, -, hacked, hrun, -⟩
    · rw [hsame] at hsyn ⊢
      exact h hsyn
    · rw [hrun]
      exact fillWindow_full t (ht.acked hacked).ready
  | tick ms =>
    obtain ⟨gs, hk, -⟩ := tick_spec s ms
    simp only [SenderOp.run] at hsyn ⊢
    rw [hk.syn] at hsyn
    exact (h hsyn).congr hk.window hk.flight hk.syn hk.fin (by rw [hk.stream]) (by rw [hk.stream])
  | sendEmptySegment => exact (h hsyn).congr rfl rfl rfl rfl rfl rfl
  | sendFlagged rst =>
    have hk := sendEmptySegmentWith_spec s rst
    simp only [SenderOp.run] at hsyn ⊢
    rw [hk.syn] at hsyn
    exact (h hsyn).congr hk.window hk.flight hk.syn hk.fin rfl rfl
  | popSegment => exact (h hsyn).congr rfl rfl rfl rfl rfl rfl

theorem SenderOp.run_out {accepted : List Byte} {first : List TCPSegment} {s : TCPSender}
    (ht : Tiles accepted first s) {op : SenderOp} (hop : op ≠ .popSegment) :
    s.segmentsOut <+: (op.run s).segmentsOut := by
  cases op with
  | write => exact List.prefix_rfl
  | endInput => exact List.prefix_rfl
  | setError => exact List.prefix_rfl
  | fillWindow =>
    obtain ⟨gs, hgs⟩ := fillWindow_spec s ht.ready
    exact ⟨gs, hgs.grown.out.symm⟩
  | ackReceived ackno w =>
    simp only [SenderOp.run]
    rcases ht.ackReceived_cases ackno w with ⟨-, hsame⟩ | ⟨t, gs, -, hacked, hrun, hgs⟩
    · rw [hsame]
    · rw [hrun, ← hacked.out]
      exact ⟨gs, hgs.grown.out.symm⟩
  | tick ms =>
    obtain ⟨gs, hk, -⟩ := tick_spec s ms
    exact ⟨gs, hk.out.symm⟩
  | sendEmptySegment => exact List.prefix_append _ _
  | sendFlagged => exact List.prefix_append _ _
  | popSegment => exact absurd rfl hop

theorem SenderRun.run_sent {x : SenderRun} (ht : Tiles x.accepted x.sent x.sender)
    {ops : List SenderOp} (hops : ∀ op ∈ ops, op ≠ .popSegment) :
    ∀ g ∈ (x.run ops).sent, g ∈ x.sent ∨ g ∈ (x.run ops).sender.segmentsOut := by
  refine (SenderRun.run_keeps (I := fun r => ∀ g ∈ r.sent, g ∈ x.sent ∨ g ∈ r.sender.segmentsOut)
    (C := fun op => op ≠ .popSegment) (fun r op hop hr hI g hg => ?_) ops x hops ht
    fun g hg => Or.inl hg).2
  have hgrow := run_out hr hop
  simp only [SenderRun.step, SenderRun.sent, List.map_append, List.mem_append] at hg ⊢
  rcases hg with hg | hg
  · exact (hI g hg).imp_right fun hmem => hgrow.subset hmem
  · split_ifs at hg
    · simp only [List.map_map, Function.comp_def, List.map_id'] at hg
      exact Or.inr (List.mem_of_mem_drop hg)
    · simp at hg

/-- The sender `x` of a connection between two calls. -/
structure Live (x : SenderRun) (c : TCPConnection) : Prop where
  sender : x.sender = c.sender
  tiles : Tiles x.accepted x.sent x.sender
  timed : Timed x.sender
  queue : x.sender.nextSeqno < 2 ^ 64 → Queue x.sender
  flushed : x.sender.segmentsOut = []
  full : x.sender.setSyn = true → Full x.sender
  emitted : ∀ g ∈ x.sent, ∃ r, TCPConnection.assemble r g ∈ c.segmentsOut

theorem Live.new (cfg : TCPConfig) (random : WrappingInt32) :
    ∃ x, Live x (TCPConnection.new cfg random) := by
  have htimeout : cfg.rtTimeout.toNat < 2 ^ 64 := cfg.rtTimeout.toNat_lt.trans (by norm_num)
  refine ⟨SenderRun.new cfg.sendCapacity.toNat cfg.rtTimeout.toNat (cfg.fixedIsn.getD random), rfl,
    Tiles.new _ _ _, Timed.new _ _ htimeout, fun _ => Queue.new _ _ _, rfl, ?_, ?_⟩
  · simp [SenderRun.new, TCPSender.new]
  · simp [SenderRun.new, SenderRun.sent]

/-- What a call keeps of its sender's invariants, before the segments leave. -/
theorem Live.run_ops {x : SenderRun} {c : TCPConnection} (h : Live x c) (ops : List SenderOp) :
    Tiles (x.run ops).accepted (x.run ops).sent (x.run ops).sender ∧ Timed (x.run ops).sender ∧
      ((x.run ops).sender.nextSeqno < 2 ^ 64 → Queue (x.run ops).sender) ∧ Onward x (x.run ops) := by
  have hkeeps := SenderRun.run_keeps (I := fun r => Timed r.sender ∧
    (r.sender.nextSeqno < 2 ^ 64 → Queue r.sender)) (C := fun _ => True) ?_ ops x
    (fun _ _ => trivial) h.tiles ⟨h.timed, h.queue⟩
  · exact ⟨hkeeps.1, hkeeps.2.1, hkeeps.2.2, SenderRun.run_onward h.tiles ops⟩
  rintro r op - ht ⟨htimed, hqueue⟩
  have hst := SenderRun.step_spec ht op
  refine ⟨htimed.run ht op, fun hb => ?_⟩
  have := lt_of_le_of_lt (hst.onward ht).next hb
  exact (hqueue this).step ht this hst

theorem Live.run_full {x : SenderRun} {c : TCPConnection} (h : Live x c) {op : ConnectionOp}
    {ops : List SenderOp} (hr : Runs c op ops) :
    (x.run ops).sender.setSyn = true → Full (x.run ops).sender := by
  have hkeep : ∀ ops : List SenderOp, (∀ op ∈ ops, op.feeds = false) →
      (x.run ops).sender.setSyn = true → Full (x.run ops).sender := fun ops hops =>
    (SenderRun.run_keeps (I := fun r => r.sender.setSyn = true → Full r.sender)
      (C := fun op => op.feeds = false) (fun r op hop ht hI => Full.run ht hI hop) ops x hops
      h.tiles h.full).2
  cases hr with
  | connect => exact hkeep _ (by simp [feeds])
  | write data =>
    have ht := h.tiles.step (SenderRun.step_spec h.tiles (.write data))
    exact fun _ => fillWindow_full _ ht.ready
  | endInputStream =>
    have ht := h.tiles.step (SenderRun.step_spec h.tiles .endInput)
    exact fun _ => fillWindow_full _ ht.ready
  | tick => exact hkeep _ (by simp [feeds])
  | giveUp => exact hkeep _ (by simp [feeds])
  | read => exact hkeep _ (by simp)
  | dead => exact hkeep _ (by simp)
  | reset => exact hkeep _ (by simp [feeds])
  | heard g _ _ reply hreply =>
    apply hkeep
    intro op hop
    rcases hreply.mem_acks hop with rfl | rfl | ⟨ackno, w, rfl⟩ <;> rfl

theorem Live.run_sent {x : SenderRun} {c : TCPConnection} (h : Live x c) {op : ConnectionOp}
    {ops : List SenderOp} (hr : Runs c op ops) :
    ∀ g ∈ (x.run ops).sent, g ∈ x.sent ∨ g ∈ (x.run ops).sender.segmentsOut := by
  cases hr with
  | giveUp ms =>
    -- the only pop of a connection follows a tick, which sends nothing new
    intro g hg
    simp only [SenderRun.run, List.foldl, SenderRun.step, SenderOp.fills, SenderRun.sent] at hg
    exact Or.inl (by simpa [SenderRun.sent] using hg)
  | connect => exact SenderRun.run_sent h.tiles (by simp)
  | write => exact SenderRun.run_sent h.tiles (by simp)
  | endInputStream => exact SenderRun.run_sent h.tiles (by simp)
  | tick => exact SenderRun.run_sent h.tiles (by simp)
  | read => exact SenderRun.run_sent h.tiles (by simp)
  | dead => exact SenderRun.run_sent h.tiles (by simp)
  | reset => exact SenderRun.run_sent h.tiles (by simp)
  | heard g _ _ reply hreply =>
    apply SenderRun.run_sent h.tiles
    intro op hop
    rcases hreply.mem_acks hop with rfl | rfl | ⟨ackno, w, rfl⟩ <;> simp

theorem Live.called {x : SenderRun} {c c' : TCPConnection} (h : Live x c) {op : ConnectionOp}
    {ops : List SenderOp} (hr : Runs c op ops) (hc : Called c ops c') :
    ∃ x', Live x' c' ∧ Onward x x' := by
  obtain ⟨htiles, htimed, hqueue, hon⟩ := h.run_ops ops
  have hfull := h.run_full hr
  have hsent := h.run_sent hr
  have hrun : (x.run ops).sender = runs c.sender ops := by rw [SenderRun.run_sender, h.sender]
  generalize x.run ops = y at htiles htimed hqueue hon hfull hsent hrun
  have hst : SenderStep y .popSegment _ := .popped [] List.nil_suffix
  refine ⟨_, ⟨?_, htiles.step hst, htimed.congr rfl rfl rfl, fun hb => ?_, rfl, fun hsyn => ?_,
    fun g hg => ?_⟩, hon.trans (hst.onward htiles)⟩
  · rw [hc.sender, ← hrun]
  · exact (hqueue hb).step htiles hb hst
  · exact (hfull hsyn).congr rfl rfl rfl rfl rfl rfl
  · rw [hc.out]
    rcases hsent g hg with hold | hnew
    · obtain ⟨r, hmem⟩ := h.emitted g hold
      exact ⟨r, List.mem_append_left _ hmem⟩
    · rw [hrun] at hnew
      exact ⟨c'.receiver, List.mem_append_right _ (List.mem_map_of_mem hnew)⟩

theorem Live.step {x : SenderRun} {c c' : TCPConnection} (h : Live x c) {op : ConnectionOp}
    (hs : c.step op = .ok c') : ∃ x', Live x' c' ∧ Onward x x' := by
  obtain ⟨ops, hr, hc⟩ := TCPConnection.step_called (h.sender ▸ h.flushed) hs
  exact h.called hr hc

theorem Live.exec {cfg : TCPConfig} {random : WrappingInt32} {events : List ConnectionOp}
    {c : TCPConnection}
    (hrun : exec TCPConnection.step (TCPConnection.new cfg random) events = .ok c) :
    ∃ x, Live x c :=
  exec_ok_inv (I := fun c => ∃ x, Live x c)
    (fun _ _ _ ⟨_, h⟩ hs => (h.step hs).imp fun _ => And.left) (Live.new cfg random) hrun

end Sponge
