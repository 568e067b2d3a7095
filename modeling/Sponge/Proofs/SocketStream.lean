import Sponge.Proofs.Close
import Sponge.Proofs.SocketSafety

/-! Two sockets over a network that loses, repeats, delays and reorders what their adapters send.
Between them their connections are the two connections of `Network`, so what holds there of bytes
accepted and bytes read holds here of bytes the owners have written and been given. -/

namespace Sponge

open EventLoop TCPSpongeSocket
open scoped List

theorem Endpoint.Reaches.acts {inbox : TCPSegment → Prop} {e e' : Endpoint}
    (h : Endpoint.Reaches inbox e e') {segments : List TCPSegment}
    (hinbox : ∀ g, inbox g → g ∈ segments) : Acts segments e e' := by
  obtain ⟨ops, hops, hrun⟩ := h
  induction ops generalizing e with
  | nil =>
    cases hrun
    exact .refl
  | cons op ops ih =>
    obtain ⟨e₁, hcall, hrun⟩ := exec_cons_ok hrun
    have hfirst := Endpoint.call_acts hcall fun g hg => hinbox g (hops g (by simp [hg]))
    exact hfirst.trans (ih (fun g hg => hops g (List.mem_cons_of_mem _ hg)) hrun)

/-- A thread whose connection is that of `e`, all but `sent` still on its queue. -/
structure SocketThread.Runs {α : Type} (Holds : List TCPSegment → α → Prop) (t : SocketThread α)
    (sent : List TCPSegment) (e : Endpoint) : Prop where
  tied : Tied Holds sent t.socket e
  sound : e.Sound
  rules : t.rules <+ TCPSpongeSocket.rules

theorem TCPSpongeSocket.Serving.runs {α : Type} {Holds : List TCPSegment → α → Prop}
    {cfg : TCPConfig} {random : WrappingInt32} {t : SocketThread α}
    (h : Serving Holds (fun _ => False) (Endpoint.new cfg random) t.socket)
    (hrules : t.rules <+ TCPSpongeSocket.rules) : ∃ sent e, t.Runs Holds sent e ∧
      Endpoint.Reaches (fun _ => False) (Endpoint.new cfg random) e := by
  obtain ⟨sent, e, hreach, htied⟩ := h
  exact ⟨sent, e, ⟨htied, hreach.sound (.new cfg random), hrules⟩, hreach⟩

theorem Endpoint.Reaches.paired {cfg cfg' : TCPConfig} {random random' : WrappingInt32}
    {e e' : Endpoint} (h : Endpoint.Reaches (fun _ => False) (Endpoint.new cfg random) e)
    (h' : Endpoint.Reaches (fun _ => False) (Endpoint.new cfg' random') e') : Paired e e' := by
  have hpaired := (Paired.new cfg cfg' random random').acts (h.acts fun _ hg => hg.elim)
  exact (hpaired.symm.acts (h'.acts fun _ hg => hg.elim)).symm

theorem SocketThread.Runs.step {α ω δ : Type} [FdAdapter α ω δ] {Arrives : Option ω → Prop}
    {Holds : List TCPSegment → α → Prop} {t : SocketThread α} {sent sent' : List TCPSegment}
    {e e' : Endpoint} (h : t.Runs Holds sent e) (hr : Robust α Arrives (· ∈ sent') Holds)
    (hsent : ∀ g ∈ sent', g ∈ e'.conn.segmentsOut) (hpaired : Paired e e') {input : LoopInput ω δ}
    (hin : Hears Arrives input) :
    Outcome Raised.FromKernel (fun t' => ∃ sent e, t'.Runs Holds sent e ∧ Paired e e')
      (t.step input) := by
  have hserving : Serving Holds (· ∈ sent') e t.socket := ⟨sent, e, .refl e, h.tied⟩
  refine (step_outcome hr h.sound hserving h.rules hin).mono ?_
  rintro t' ⟨⟨sent₁, e₁, hreach, htied⟩, hrules⟩
  exact ⟨sent₁, e₁, ⟨htied, hreach.sound h.sound, hrules⟩, hpaired.acts (hreach.acts hsent)⟩

theorem SocketThread.Runs.mem_out {α : Type} {Holds : List TCPSegment → α → Prop}
    {t : SocketThread α} {sent : List TCPSegment} {e : Endpoint} (h : t.Runs Holds sent e) :
    ∀ g ∈ sent, g ∈ e.conn.segmentsOut := by
  intro g hg
  rw [h.tied.endpoint]
  exact List.mem_append_left _ hg

variable {α ω δ : Type} [FdAdapter α ω δ] [Carrier α ω δ]

/-- In this turn the network hands over only what `peer` has sent. -/
def SocketThread.Hands (peer : SocketThread α) (input : LoopInput ω δ) : Prop :=
  ∀ revents, input.poll = .polled revents → ∀ i k, (revents i).ready = some k →
    ∀ w ∈ k.datagram, Carrier.Delivers α (FdAdapter.sent peer.socket.datagramAdapter) w

namespace SocketPair

def here (p : SocketPair α) : Side → SocketThread α
  | .left => p.left
  | .right => p.right

def across (p : SocketPair α) : Side → SocketThread α
  | .left => p.right
  | .right => p.left

def Heard (p : SocketPair α) (turn : Side × LoopInput ω δ) : Prop :=
  (p.across turn.1).Hands turn.2

/-- Fewer than 2^31 sequence numbers are used in each direction. -/
def Short (p : SocketPair α) : Prop :=
  ∀ side, (p.here side).socket.tcp.sender.nextSeqno < 2 ^ 31

end SocketPair

/-- The connections of the two sockets are two connections over a network. -/
def SocketPair.Coupled (p : SocketPair α) : Prop :=
  ∃ sent e sent' e', p.left.Runs Carrier.Holds sent e ∧ p.right.Runs Carrier.Holds sent' e' ∧
    Paired e e'

theorem SocketThread.Started.runs {t : SocketThread α} (h : t.Started) :
    ∃ cfg random sent e, t.Runs Carrier.Holds sent e ∧
      Endpoint.Reaches (fun _ => False) (Endpoint.new cfg random) e := by
  obtain ⟨⟨cfg, random, hserving⟩, hrules⟩ := h.serving fun _ => False
  obtain ⟨sent, e, hruns⟩ := hserving.runs hrules
  exact ⟨cfg, random, sent, e, hruns⟩

theorem SocketPair.Coupled.start {p : SocketPair α} (hleft : p.left.Started)
    (hright : p.right.Started) : p.Coupled := by
  obtain ⟨cfg, random, sent, e, hruns, hreach⟩ := hleft.runs
  obtain ⟨cfg', random', sent', e', hruns', hreach'⟩ := hright.runs
  exact ⟨sent, e, sent', e', hruns, hruns', hreach.paired hreach'⟩

theorem SocketPair.Coupled.step {p : SocketPair α} (h : p.Coupled) (turn : Side × LoopInput ω δ)
    (hturn : p.Heard turn) : Outcome Raised.FromKernel SocketPair.Coupled (p.step turn) := by
  obtain ⟨sent, e, sent', e', hleft, hright, hpaired⟩ := h
  obtain ⟨side, input⟩ := turn
  cases side with
  | left =>
    refine (hleft.step (Carrier.faithful.robust_from hright.tied.holds) hright.mem_out hpaired
      hturn).bind ?_
    rintro t ⟨sent₁, e₁, hruns, hpaired₁⟩
    exact ⟨sent₁, e₁, sent', e', hruns, hright, hpaired₁⟩
  | right =>
    refine (hright.step (Carrier.faithful.robust_from hleft.tied.holds) hleft.mem_out hpaired.symm
      hturn).bind ?_
    rintro t ⟨sent₁, e₁, hruns, hpaired₁⟩
    exact ⟨sent, e, sent₁, e₁, hleft, hruns, hpaired₁.symm⟩

/-- What the owner of `b` has been given by the owner of `a`. -/
structure TCPSpongeSocket.Conveys (a b : TCPSpongeSocket α) : Prop where
  order : b.toOwner <+: a.fromOwner
  told : b.inboundShutdown = true → b.inbound.error = false →
    a.outboundShutdown = true ∧ b.toOwner = a.fromOwner
  closed : a.tcp.state = .ofState .closed →
    b.inbound.inputEnded = true ∧ b.toOwner ++ b.inbound.buffer = a.fromOwner ∧
      a.toOwner ++ a.inbound.buffer = b.fromOwner

omit [FdAdapter α ω δ] [Carrier α ω δ] in
theorem SocketThread.Runs.conveys {Holds Holds' : List TCPSegment → α → Prop}
    {t peer : SocketThread α} {sent sent' : List TCPSegment} {e e' : Endpoint}
    (h : t.Runs Holds sent e) (hpeer : peer.Runs Holds' sent' e') (hpaired : Paired e e')
    (hb : t.socket.tcp.sender.nextSeqno < 2 ^ 31)
    (hb' : peer.socket.tcp.sender.nextSeqno < 2 ^ 31) : t.socket.Conveys peer.socket := by
  obtain ⟨⟨rfl, -, hended, -⟩, -, -⟩ := h
  obtain ⟨⟨rfl, -, -, hclosed⟩, -, -⟩ := hpeer
  obtain ⟨⟨x, hx⟩, -⟩ := id hpaired
  have hbx : x.sender.nextSeqno < 2 ^ 31 := by rw [hx.sender]; exact hb
  have hcontent : peer.socket.toOwner ++ peer.socket.inbound.buffer <+: t.socket.fromOwner := by
    have := (hx.link hbx).content
    rw [hx.accepted] at this
    exact this
  refine ⟨(List.prefix_append _ _).trans hcontent, fun hin hno => ?_, fun hstate => ?_⟩
  · have heof : peer.socket.inbound.eof = true :=
      (hclosed hin).resolve_right (by rw [hno]; simp)
    simp only [ByteStream.eof, ByteStream.bufferEmpty, Bool.and_eq_true, List.isEmpty_iff] at heof
    obtain ⟨hfin, hall⟩ := (hx.link hbx).complete hbx heof.1
    rw [hx.accepted] at hall
    have hend : t.socket.tcp.sender.stream.inputEnded = true := by
      rw [hx.sender] at hfin
      exact hfin
    have hempty : peer.socket.toOwner ++ peer.socket.inbound.buffer = t.socket.fromOwner := hall
    rw [heof.2, List.append_nil] at hempty
    exact ⟨hended ▸ hend, hempty⟩
  · obtain ⟨hthere, hhere⟩ := hpaired.received hb hb' (congrArg TCPState.receiver hstate)
      (congrArg TCPState.sender hstate)
    exact ⟨hthere.1, hthere.2, hhere.2⟩

/-- Two sockets over any of the adapters, on a network that may lose, repeat, delay and reorder
what they send: after every interleaving of turns of their loops, with fewer than 2^31 sequence
numbers used in each direction, each owner has been given a first part of what the other has
written, in order; an owner that is told of the end without an error has been given everything;
and where one connection is closed, all that either owner has written has arrived. -/
theorem socket_streams (p₀ p : SocketPair α) (hleft : p₀.left.Started) (hright : p₀.right.Started)
    (turns : List (Side × LoopInput ω δ)) (hturns : Each SocketPair.step SocketPair.Heard p₀ turns)
    (hrun : exec SocketPair.step p₀ turns = .ok p) (hshort : p.Short) (side : Side) :
    (p.here side).socket.Conveys (p.across side).socket := by
  obtain ⟨sent, e, sent', e', hruns, hruns', hpaired⟩ :=
    (Outcome.exec (fun _ turn hp hturn => hp.step turn hturn)
      (SocketPair.Coupled.start hleft hright) hturns).of_ok hrun
  cases side with
  | left => exact hruns.conveys hruns' hpaired (hshort .left) (hshort .right)
  | right => exact hruns'.conveys hruns hpaired.symm (hshort .right) (hshort .left)

/-- A turn in which one rule is ready. -/
def readyTurn (turn : Side × ℕ × Surroundings (Address × Buffer) Writes) :
    Side × LoopInput (Address × Buffer) Writes :=
  (turn.1, {
    poll := .polled fun i => if i = turn.2.1 then { ready := some turn.2.2 } else {}
    adapter := fun _ => some () })

/-- Two sockets over UDP. The left one connects, its owner writes two bytes, and one of them has
gone to the owner of the other. -/
theorem socket_streams_udp :
    let free : ℕ → Writes := fun _ _ => some ()
    let left : AdapterConfig := { source := ⟨1, 10⟩, destination := ⟨2, 20⟩ }
    let right : AdapterConfig := { source := ⟨2, 20⟩ }
    let p₀ : SocketPair TCPOverUDPSocketAdapter := {
      left := {
        socket := {
          datagramAdapter := { config := left.toFdAdapterConfig }
          tcp := (TCPConnection.new {} ⟨7⟩).connect }
        phase := .connecting }
      right := SocketThread.listenAndAccept {} ⟨9⟩ {} right }
    let send : ℕ × Surroundings (Address × Buffer) Writes := (3, { adapter := free })
    let hear : Address → Buffer → ℕ × Surroundings (Address × Buffer) Writes := fun a b =>
      (0, { datagram := some (a, b), adapter := free })
    let syn : Buffer := [0, 10, 0, 20, 0, 0, 0, 7, 0, 0, 0, 0, 80, 2, 250, 0, 181, 215, 0, 0]
    let synAck : Buffer := [0, 20, 0, 10, 0, 0, 0, 9, 0, 0, 0, 8, 80, 18, 250, 0, 181, 189, 0, 0]
    let data : Buffer :=
      [0, 10, 0, 20, 0, 0, 0, 8, 0, 0, 0, 10, 80, 16, 250, 0, 180, 188, 0, 0, 1, 2]
    let turns : List (Side × ℕ × Surroundings (Address × Buffer) Writes) :=
      [(.left, send), (.right, hear ⟨1, 10⟩ syn), (.right, send), (.left, hear ⟨2, 20⟩ synAck),
        (.left, send), (.left, 1, { bytes := some [1, 2], adapter := free }), (.left, send),
        (.right, hear ⟨1, 10⟩ data), (.right, send),
        (.right, 2, { taken := some 1, adapter := free })]
    ∃ p, exec SocketPair.step p₀ (turns.map readyTurn) = .ok p ∧ p.left.socket.fromOwner = [1, 2] ∧
      p.right.socket.toOwner = [1] ∧ p.left.socket.Conveys p.right.socket := by
  intro free left right p₀ send hear syn synAck data turns
  have hcheck : (exec SocketPair.step p₀ (turns.map readyTurn) >>= fun p => .ok (decide
      (p.left.socket.fromOwner = [1, 2] ∧ p.right.socket.toOwner = [1] ∧
        p.left.socket.tcp.sender.nextSeqno < 2 ^ 31 ∧
        p.right.socket.tcp.sender.nextSeqno < 2 ^ 31))) = .ok true := by decide +kernel
  obtain ⟨p, hrun, hcheck⟩ := bind_eq_ok hcheck
  rw [Except.ok.injEq, decide_eq_true_eq] at hcheck
  obtain ⟨hfrom, hto, hshort, hshort'⟩ := hcheck
  -- every datagram is one the other side has sent by then
  have hsent : Each (fun p turn => SocketPair.step p (readyTurn turn)) (fun p turn =>
      (turn.2.2.datagram.all fun w =>
        (p.across turn.1).socket.datagramAdapter.sock.sent.any fun x => x.2 = w.2) = true)
      p₀ turns := by decide +kernel
  have hturns : Each SocketPair.step SocketPair.Heard p₀ (turns.map readyTurn) := by
    refine Each.map (hsent.imp ?_)
    rintro p ⟨side, n, k⟩ hk revents hpoll i k' hready w hw
    cases hpoll
    simp only at hready
    split_ifs at hready
    cases hready
    simp only at hk
    rw [Option.mem_def.mp hw] at hk
    simp only [Option.all_some, List.any_eq_true, decide_eq_true_eq] at hk
    obtain ⟨⟨destination, b⟩, hmem, rfl⟩ := hk
    exact ⟨destination, hmem⟩
  have hleft : p₀.left.Started := SocketThread.Started.connect
    (a := ({} : TCPOverUDPSocketAdapter)) rfl (SocketThread.connect_eq _ ⟨7⟩ {} left)
  have hright : p₀.right.Started :=
    SocketThread.Started.listen (a := ({} : TCPOverUDPSocketAdapter)) rfl ⟨9⟩ {} right
  refine ⟨p, hrun, hfrom, hto, socket_streams p₀ p hleft hright _ hturns hrun ?_ .left⟩
  rintro (_ | _)
  · exact hshort
  · exact hshort'

end Sponge
