import Sponge.Proofs.Adapters
import Sponge.Proofs.Shutdown
import Sponge.Proofs.States

/-! A socket against the world: whatever bytes the network delivers and however the kernel
answers, its thread raises nothing of its own, and when its loop ends for want of anything to do
its owner has everything there is. -/

namespace Sponge

open EventLoop TCPSpongeSocket
open scoped List

namespace SocketThread

variable {α ω δ : Type} [FdAdapter α ω δ] [Carrier α ω δ]

/-- A thread as `connect` or `listen_and_accept` sets it up. -/
inductive Started : SocketThread α → Prop
  | connect {a : α} (ha : Carrier.Fresh a) {random : WrappingInt32} {cTcp : TCPConfig}
      {cAd : AdapterConfig} {t : SocketThread α} (h : connect a random cTcp cAd = .ok t) : Started t
  | listen {a : α} (ha : Carrier.Fresh a) (random : WrappingInt32) (cTcp : TCPConfig)
      (cAd : AdapterConfig) : Started (listenAndAccept a random cTcp cAd)

theorem connected_sender (cfg : TCPConfig) (random : WrappingInt32) :
    (TCPConnection.new cfg random).connect.sender.stateSummary = .synSent := by
  have hnext : (TCPConnection.new cfg random).connect.sender.nextSeqno = 1 := rfl
  have hflight : (TCPConnection.new cfg random).connect.sender.bytesInFlight = 1 := rfl
  have herror : (TCPConnection.new cfg random).connect.sender.stream.error = false := rfl
  simp [TCPSender.stateSummary, hnext, hflight, herror]

theorem connected_state (cfg : TCPConfig) (random : WrappingInt32) :
    (TCPConnection.new cfg random).connect.state = .ofState .synSent := by
  have hreceiver : (TCPConnection.new cfg random).connect.receiver.stateSummary = .listen := rfl
  have hactive : (TCPConnection.new cfg random).connect.isActive = true := rfl
  have hlinger : (TCPConnection.new cfg random).connect.lingerAfterStreamsFinish = true := rfl
  rw [TCPConnection.state, connected_sender, hreceiver, hactive, hlinger]
  rfl

omit [Carrier α ω δ] in
theorem connect_eq (a : α) (random : WrappingInt32) (cTcp : TCPConfig) (cAd : AdapterConfig) :
    connect a random cTcp cAd = .ok {
      socket := {
        datagramAdapter := FdAdapter.configure a cAd
        tcp := (TCPConnection.new cTcp random).connect }
      phase := .connecting } := by
  unfold connect
  simp only
  rw [if_neg (not_not.mpr (connected_state cTcp random))]

omit [Carrier α ω δ] in
/-- A thread that was set up serves a connection that has heard nothing. -/
theorem connect_serving {Holds : List TCPSegment → α → Prop} {a : α} {random : WrappingInt32}
    {cTcp : TCPConfig} {cAd : AdapterConfig} (ha : Holds [] (FdAdapter.configure a cAd))
    (inbox : TCPSegment → Prop) {t : SocketThread α} (h : connect a random cTcp cAd = .ok t) :
    Serving Holds inbox (Endpoint.new cTcp random) t.socket ∧ t.rules <+ TCPSpongeSocket.rules := by
  rw [connect_eq] at h
  cases h
  have hcall : (Endpoint.new cTcp random).call .connect =
      .ok ⟨(TCPConnection.new cTcp random).connect, [], []⟩ := rfl
  refine ⟨⟨[], _, (Endpoint.Reaches.refl _).call (by simp) hcall, ?_⟩, .refl _⟩
  exact ⟨(Endpoint.after_nil _).symm, ha, TCPConnection.connect_inputEnded _, fun hin => by cases hin⟩

omit [Carrier α ω δ] in
theorem listen_serving {Holds : List TCPSegment → α → Prop} {a : α} {cAd : AdapterConfig}
    (ha : Holds [] (FdAdapter.setListening (FdAdapter.configure a cAd) true))
    (inbox : TCPSegment → Prop) (random : WrappingInt32) (cTcp : TCPConfig) :
    Serving Holds inbox (Endpoint.new cTcp random) (listenAndAccept a random cTcp cAd).socket :=
  ⟨[], _, Endpoint.Reaches.refl _, rfl, ha, rfl, fun hin => by cases hin⟩

theorem Started.serving {t : SocketThread α} (h : Started t) (inbox : TCPSegment → Prop) :
    (∃ cfg random, Serving Carrier.Holds inbox (Endpoint.new cfg random) t.socket) ∧
      t.rules <+ TCPSpongeSocket.rules := by
  cases h with
  | @connect a ha random cTcp cAd _ h =>
    obtain ⟨hserving, hrules⟩ := connect_serving (Carrier.configured ha cAd) inbox h
    exact ⟨⟨cTcp, random, hserving⟩, hrules⟩
  | @listen a ha random cTcp cAd =>
    exact ⟨⟨cTcp, random, listen_serving (Carrier.listening ha cAd) inbox random cTcp⟩, .refl _⟩

theorem Started.run {t : SocketThread α} (h : Started t) (inputs : List (LoopInput ω δ)) :
    Outcome Raised.FromKernel (fun t' => (∃ cfg random,
        Serving Carrier.Holds (fun _ => True) (Endpoint.new cfg random) t'.socket) ∧
          t'.rules <+ TCPSpongeSocket.rules) (exec step t inputs) := by
  refine Outcome.exec (C := fun _ _ => True) (fun t input ht _ => ?_) (h.serving _)
    (Each.of_forall (fun _ _ => trivial) _)
  obtain ⟨⟨cfg, random, hserving⟩, hrules⟩ := ht
  refine (step_outcome Carrier.faithful.toRobust (Endpoint.Sound.new cfg random) hserving hrules
    fun _ _ _ _ _ => trivial).mono ?_
  rintro t' ⟨hserving', hrules'⟩
  exact ⟨⟨cfg, random, hserving'⟩, hrules'⟩

end SocketThread

/-- Over each of the adapters a socket can be built on, whatever bytes arrive and however the
kernel answers: the check in `connect` passes, and a run of the thread ends in an exception only
where a system call failed or broke its contract. In particular no rule waits busily, the
connection takes all that is read from the owner, and no packet is refused by its own format. -/
theorem socket_raises_only_from_kernel {α ω δ : Type} [FdAdapter α ω δ] [Carrier α ω δ] (a : α)
    (ha : Carrier.Fresh a) (random : WrappingInt32) (cTcp : TCPConfig) (cAd : AdapterConfig)
    (inputs : List (LoopInput ω δ)) :
    ∃ t, SocketThread.connect a random cTcp cAd = .ok t ∧
      ∀ e, exec SocketThread.step t inputs = .error e ∨
        exec SocketThread.step (SocketThread.listenAndAccept a random cTcp cAd) inputs = .error e →
        e.FromKernel := by
  obtain ⟨t, ht⟩ : ∃ t, SocketThread.connect a random cTcp cAd = .ok t :=
    ⟨_, SocketThread.connect_eq a random cTcp cAd⟩
  refine ⟨t, ht, fun e he => ?_⟩
  rcases he with he | he
  · exact ((SocketThread.Started.connect ha ht).run inputs).of_error he
  · exact ((SocketThread.Started.listen ha random cTcp cAd).run inputs).of_error he

/-- A socket over UDP that is about to connect; its first `recvfrom` fails. -/
theorem socket_raises_only_from_kernel_recvfrom :
    ∃ t, SocketThread.connect ({} : TCPOverUDPSocketAdapter) ⟨7⟩ {} {} = .ok t ∧
      exec SocketThread.step t [{
        poll := .polled fun i =>
          if i = 0 then { ready := some { adapter := fun _ _ => some () } } else {}
        adapter := fun _ => some () }] = .error (.unixError "recvfrom") ∧
      (Raised.unixError "recvfrom").FromKernel := by
  obtain ⟨t, ht, h⟩ := socket_raises_only_from_kernel ({} : TCPOverUDPSocketAdapter) rfl ⟨7⟩ {} {} [{
    poll := .polled fun i => if i = 0 then { ready := some { adapter := fun _ _ => some () } } else {}
    adapter := fun _ => some () }]
  have hrun : exec SocketThread.step t [{
      poll := .polled fun i =>
        if i = 0 then { ready := some { adapter := fun _ _ => some () } } else {}
      adapter := fun _ => some () }] = .error (.unixError "recvfrom") := by
    rw [SocketThread.connect_eq] at ht
    cases ht
    rfl
  exact ⟨t, ht, hrun, h _ (.inl hrun)⟩

namespace SocketThread

variable {α ω δ : Type} [FdAdapter α ω δ]

/-- Where the loop of the thread ends without an abort or an interrupted `poll`, nothing is
polled, and no rule that is left is interested. -/
theorem step_exit {t t' : SocketThread α} {input : LoopInput ω δ} (hmain : t.phase = .main)
    (habort : input.abort = false) (hpoll : input.poll ≠ .interrupted)
    (hrules : t.rules <+ TCPSpongeSocket.rules) (hstep : t.step input = .ok t')
    (hend : t'.phase = .finished) :
    ∀ k ∈ t'.rules, (@rule α ω δ _ k).interest t'.socket = false := by
  unfold SocketThread.step at hstep
  rw [hmain] at hstep
  simp only [SocketPhase.condition, if_true, habort, Bool.false_eq_true, or_false] at hstep
  obtain ⟨⟨ret, ks, s⟩, hwait, hstep⟩ := bind_eq_ok hstep
  dsimp only at hstep
  split_ifs at hstep with hret
  · cases hstep
    subst hret
    unfold waitNextEvent at hwait
    simp only at hwait
    split_ifs at hwait with hall
    · cases hwait
      refine setUp_quiet (fun j k s hjk hj => ?_) hall
      -- only the second rule has something to do when it is cancelled
      cases k with
      | readDatagram | writeOwner | sendSegments => exact hj
      | readOwner =>
        have hfirst : [j, .readOwner] <+ TCPSpongeSocket.rules := hjk.trans hrules
        cases j with
        | readDatagram => exact hj
        | readOwner | writeOwner | sendSegments => exact absurd hfirst (by decide)
    · cases hp : input.poll with
      | timeout =>
        rw [hp] at hwait
        cases hwait
      | interrupted => exact absurd hp hpoll
      | failed | polled =>
        rw [hp] at hwait
        obtain ⟨_, -, hwait⟩ := bind_eq_ok hwait
        cases hwait
  · obtain ⟨s', -, hstep⟩ := bind_eq_ok hstep
    cases hstep
    cases hend

end SocketThread

/-- A socket that is done: nothing is left to send; all that was assembled is with the owner,
who has been told; and where the connection was not reset, the peer has acknowledged all that
came from the owner, and its end. -/
structure TCPSpongeSocket.Done {α : Type} (s : TCPSpongeSocket α) : Prop where
  state : s.tcp.state = .ofState .reset ∨ s.tcp.state = .ofState .closed
  sent : s.tcp.segmentsOut = []
  delivered : s.toOwner.length = s.inbound.bytesWritten
  told : s.inboundShutdown = true
  acknowledged : s.tcp.state = .ofState .closed →
    s.inbound.inputEnded = true ∧ s.outboundShutdown = true ∧ s.tcp.sender.bytesInFlight = 0 ∧
      (s.fromOwner.length + 2 < 2 ^ 64 → s.tcp.sender.recvAckno = s.fromOwner.length + 2)

theorem TCPSpongeSocket.Serving.done {α ω δ : Type} [FdAdapter α ω δ]
    {Holds : List TCPSegment → α → Prop} {inbox : TCPSegment → Prop} {cfg : TCPConfig}
    {random : WrappingInt32} {s : TCPSpongeSocket α}
    (hs : Serving Holds inbox (Endpoint.new cfg random) s)
    (hquiet : ∀ k, k ≠ SocketRule.readOwner →
      (@rule α ω δ _ k).interest s = false) : s.Done := by
  obtain ⟨sent, e, hreach, htied⟩ := hs
  have hsound := hreach.sound (Endpoint.Sound.new cfg random)
  rw [htied.endpoint] at hsound
  have hinactive : s.tcp.isActive = false := hquiet .readDatagram (by simp)
  have hempty : s.inbound.buffer = [] ∧ (s.inbound.Over → s.inboundShutdown = true) := by
    have hq := hquiet .writeOwner (by simp)
    simp only [rule, Bool.or_eq_false_iff, Bool.not_eq_false', ByteStream.bufferEmpty,
      List.isEmpty_iff, Bool.and_eq_false_iff, ByteStream.Over] at hq ⊢
    exact ⟨hq.1, fun hover => hq.2.resolve_left fun hno => by simp [hno] at hover⟩
  have hclosed := hsound.settled.closed hinactive
  have hover : s.inbound.Over := by
    rcases hclosed with hfailed | ⟨-, hrecv⟩
    · exact .inr hfailed.2
    · have hended : s.inbound.inputEnded = true := (TCPReceiver.finRecv hrecv).2
      exact .inl (by simp [ByteStream.eof, ByteStream.bufferEmpty, hended, hempty.1])
  refine ⟨hsound.settled.inactive hinactive, ?_, ?_, hempty.2 hover, fun hstate => ?_⟩
  · have hq := hquiet .sendSegments (by simp)
    simpa [rule] using hq
  · have hread : s.toOwner.length = s.inbound.bytesRead := hsound.counted.taken
    have hbalanced := s.inbound.balanced
    rw [hempty.1, List.length_nil] at hbalanced
    omega
  · obtain ⟨x, hx⟩ := hsound.settled.live
    have hsent : s.tcp.sender.stateSummary = .finAcked := congrArg TCPState.sender hstate
    have hrecv : s.tcp.receiver.stateSummary = .finRecv := congrArg TCPState.receiver hstate
    obtain ⟨-, hended, hflight, -, hacked⟩ := hx.finAcked hsent
    have hcount : s.fromOwner.length = s.tcp.sender.stream.bytesWritten := hsound.counted.accepted
    refine ⟨(TCPReceiver.finRecv hrecv).2, htied.ended ▸ hended, hflight, fun hb => ?_⟩
    rw [hcount] at hb ⊢
    exact hacked hb

/-- Whatever the network has delivered and the kernel answered: when the loop of the thread ends
by itself, with the rules for the adapter and for writing to the owner still there, the socket is
done. -/
theorem socket_loop_exit {α ω δ : Type} [FdAdapter α ω δ] [Carrier α ω δ]
    (t₀ t t' : SocketThread α) (inputs : List (LoopInput ω δ)) (input : LoopInput ω δ)
    (hstart : t₀.Started) (hrun : exec SocketThread.step t₀ inputs = .ok t)
    (hmain : t.phase = .main) (habort : input.abort = false) (hpoll : input.poll ≠ .interrupted)
    (hstep : t.step input = .ok t') (hend : t'.phase = .finished)
    (hrules : ∀ k, k ≠ .readOwner → k ∈ t'.rules) : t'.socket.Done := by
  obtain ⟨-, hsub⟩ := (hstart.run inputs).of_ok hrun
  obtain ⟨⟨cfg, random, hserving⟩, -⟩ := (hstart.run (inputs ++ [input])).of_ok (exec_snoc hrun hstep)
  have hquiet := SocketThread.step_exit hmain habort hpoll hsub hstep hend
  exact hserving.done fun k hk => hquiet k (hrules k hk)

/-- A socket that connects, sends its SYN and is answered with a RST; its owner is told, and the
loop ends. -/
theorem socket_loop_exit_reset :
    let turn : ℕ → Surroundings (Address × Buffer) Writes → LoopInput (Address × Buffer) Writes :=
      fun n k => {
        poll := .polled fun i => if i = n then { ready := some k } else {}
        adapter := fun _ => some () }
    let free : ℕ → Writes := fun _ _ => some ()
    let rst : Buffer := [0, 0, 0, 0, 0, 0, 0, 0, 0, 0, 0, 0, 0x50, 4, 0, 0, 0xaf, 0xfb, 0, 0]
    let t₀ : SocketThread TCPOverUDPSocketAdapter := {
      socket := {
        datagramAdapter := {}
        tcp := (TCPConnection.new {} ⟨7⟩).connect }
      phase := .connecting }
    ∃ t t', SocketThread.connect {} ⟨7⟩ {} {} = .ok t₀ ∧
      exec SocketThread.step t₀ [turn 3 { adapter := free },
        turn 0 { datagram := some (⟨0, 0⟩, rst), adapter := free }, turn 4 { adapter := free },
        turn 2 { taken := some 0, adapter := free }] = .ok t ∧
      t.step (turn 4 { adapter := free }) = .ok t' ∧ t'.phase = .finished ∧ t'.socket.Done := by
  intro turn free rst t₀
  have hstart : SocketThread.connect {} ⟨7⟩ {} {} = .ok t₀ := SocketThread.connect_eq _ _ _ _
  have hcheck : (exec SocketThread.step t₀ [turn 3 { adapter := free },
      turn 0 { datagram := some (⟨0, 0⟩, rst), adapter := free }, turn 4 { adapter := free },
      turn 2 { taken := some 0, adapter := free }] >>= fun t =>
      t.step (turn 4 { adapter := free }) >>= fun t' => .ok (decide (t.phase = .main ∧
        t'.phase = .finished ∧ t'.rules = TCPSpongeSocket.rules))) = .ok true := by decide +kernel
  obtain ⟨t, hrun, hcheck⟩ := bind_eq_ok hcheck
  obtain ⟨t', hstep, hcheck⟩ := bind_eq_ok hcheck
  rw [Except.ok.injEq, decide_eq_true_eq] at hcheck
  obtain ⟨hmain, hend, hrules⟩ := hcheck
  refine ⟨t, t', hstart, hrun, hstep, hend, socket_loop_exit t₀ t t' _ _ (.connect rfl hstart) hrun
    hmain rfl (fun h => by cases h) hstep hend fun k _ => ?_⟩
  rw [hrules]
  cases k <;> decide

end Sponge
