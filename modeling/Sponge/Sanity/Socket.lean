import Sponge.Sanity.Advance
import Sponge.Sanity.Calls
import Sponge.Sanity.EventLoop
import Sponge.Sanity.FileDescriptor
import Sponge.Sanity.Owner
import Sponge.Spec.SpongeSocket

/-! The rules of a socket, each as calls on its connection. The socket's connection is the one
of an endpoint whose queue still has the segments that have gone to the adapter. -/

namespace Sponge

open EventLoop
open scoped List

namespace Endpoint

theorem call_step {e e' : Endpoint} {op : ConnectionOp} (h : e.call op = .ok e') :
    e.conn.step op = .ok e'.conn := by
  cases op with
  | segmentReceived g =>
    obtain ⟨c, hc, he⟩ := bind_eq_ok h
    cases he
    exact hc
  | connect | write | endInputStream | tick | read =>
    cases h
    rfl

/-- What every endpoint in use has. -/
structure Sound (e : Endpoint) : Prop where
  plain : e.Plain
  counted : e.Counted
  settled : Settled e.conn

theorem Sound.new (cfg : TCPConfig) (random : WrappingInt32) : (Endpoint.new cfg random).Sound :=
  ⟨Plain.new cfg random, Counted.new cfg random, Settled.new cfg random⟩

theorem Sound.call {e e' : Endpoint} (h : e.Sound) {op : ConnectionOp} (hcall : e.call op = .ok e') :
    e'.Sound := by
  obtain ⟨inbox, hacts⟩ := call_acts_own hcall
  exact ⟨h.plain.acts hacts, h.counted.acts hacts, h.settled.step (call_step hcall)⟩

/-- `e'` comes from `e` by calls, the segments received being of `inbox`. -/
def Reaches (inbox : TCPSegment → Prop) (e e' : Endpoint) : Prop :=
  ∃ ops, (∀ g, ConnectionOp.segmentReceived g ∈ ops → inbox g) ∧ exec call e ops = .ok e'

variable {inbox : TCPSegment → Prop} {e e' e'' : Endpoint}

theorem Reaches.refl (e : Endpoint) : Reaches inbox e e := ⟨[], by simp, rfl⟩

theorem Reaches.call (h : Reaches inbox e e') {op : ConnectionOp}
    (hop : ∀ g, op = .segmentReceived g → inbox g) (hcall : e'.call op = .ok e'') :
    Reaches inbox e e'' := by
  obtain ⟨ops, hops, hrun⟩ := h
  refine ⟨ops ++ [op], fun g hg => ?_, exec_snoc hrun hcall⟩
  rcases List.mem_append.mp hg with hg | hg
  · exact hops g hg
  · exact hop g (List.mem_singleton.mp hg).symm

theorem Reaches.sound (h : Reaches inbox e e') (he : e.Sound) : e'.Sound := by
  obtain ⟨ops, -, hrun⟩ := h
  exact exec_ok_inv (fun _ _ _ hs hstep => Sound.call hs hstep) he hrun

end Endpoint

theorem TCPSender.fillWindow_inputEnded (s : TCPSender) :
    s.fillWindow.stream.inputEnded = s.stream.inputEnded := by
  refine TCPSender.fillWindow_keeps (P := fun t => t.stream.inputEnded = s.stream.inputEnded)
    (fun t room ht => ?_) rfl
  unfold TCPSender.pushSegment
  simp only [ByteStream.read]
  split
  · exact ht
  · split <;> exact ht

theorem TCPConnection.connect_inputEnded (c : TCPConnection) :
    c.connect.sender.stream.inputEnded = c.sender.stream.inputEnded :=
  TCPSender.fillWindow_inputEnded c.sender

namespace TCPSpongeSocket

variable {α ω δ : Type} [FdAdapter α ω δ]

/-- An adapter that raises nothing of its own while the network hands it what `Arrives`, of which
only segments of `inbox` come. `Holds gs a` says that all `a` has sent, and what it keeps to send,
carries segments of `gs`. -/
structure Robust (α : Type) {ω δ : Type} [FdAdapter α ω δ] (Arrives : Option ω → Prop)
    (inbox : TCPSegment → Prop) (Holds : List TCPSegment → α → Prop) : Prop where
  read : ∀ {gs a} (d : δ) {o : Option ω}, Holds gs a → Arrives o → Outcome Raised.FromKernel
    (fun r => Holds gs r.2 ∧ (FdAdapter.fd r.2).readCount = (FdAdapter.fd a).readCount + 1 ∧
      ∀ seg ∈ r.1, ∃ g, inbox g ∧ g.bare = seg.bare) (FdAdapter.read a d o)
  write : ∀ {gs a} {g : TCPSegment} (d : δ), Holds gs a → g.Plain →
    Outcome Raised.FromKernel (Holds (gs ++ [g])) (FdAdapter.write a d g)
  tick : ∀ {gs a} (d : δ) (ms : ℕ), Holds gs a →
    Outcome Raised.FromKernel (Holds gs) (FdAdapter.tick a d ms)

/-- The connection of a socket, and the bytes it has moved. -/
def own (s : TCPSpongeSocket α) : Endpoint := ⟨s.tcp, s.fromOwner, s.toOwner⟩

/-- The socket is what `e` is after `sent` have gone to the adapter. -/
structure Tied (Holds : List TCPSegment → α → Prop) (sent : List TCPSegment)
    (s : TCPSpongeSocket α) (e : Endpoint) : Prop where
  endpoint : e = s.own.after sent
  holds : Holds sent s.datagramAdapter
  ended : s.tcp.sender.stream.inputEnded = s.outboundShutdown
  closed : s.inboundShutdown = true → s.inbound.Over

/-- A socket in use, which began as `e₀`. -/
def Serving (Holds : List TCPSegment → α → Prop) (inbox : TCPSegment → Prop) (e₀ : Endpoint)
    (s : TCPSpongeSocket α) : Prop :=
  ∃ sent e, Endpoint.Reaches inbox e₀ e ∧ Tied Holds sent s e

variable {Arrives : Option ω → Prop} {Holds : List TCPSegment → α → Prop}
  {inbox : TCPSegment → Prop} {e₀ e : Endpoint} {sent : List TCPSegment} {s : TCPSpongeSocket α}

theorem Tied.call_eq (h : Tied Holds sent s e) {op : ConnectionOp} {s' : TCPSpongeSocket α}
    (hcall : s.own.call op = .ok s'.own) : e.call op = .ok (s'.own.after sent) := by
  rw [h.endpoint, Endpoint.call_after, hcall]
  rfl

theorem Tied.call (h : Tied Holds sent s e) (hreach : Endpoint.Reaches inbox e₀ e) (he : e.Sound)
    {op : ConnectionOp} (hop : ∀ g, op = .segmentReceived g → inbox g)
    (hend : op ≠ .endInputStream) {s' : TCPSpongeSocket α} (hcall : s.own.call op = .ok s'.own)
    (hholds : Holds sent s'.datagramAdapter) (hshut : s'.outboundShutdown = s.outboundShutdown)
    (hover : s'.inboundShutdown = true → s.inboundShutdown = true ∨ s'.inbound.Over) :
    Serving Holds inbox e₀ s' := by
  have hcall := h.call_eq hcall
  have hstep := Endpoint.call_step hcall
  refine ⟨sent, _, hreach.call hop hcall, rfl, hholds, ?_, fun hin => ?_⟩
  · obtain ⟨x, hx⟩ := he.settled.live
    have hsame := hx.step_inputEnded hstep hend
    rw [h.endpoint] at hsame
    rw [hshut, ← h.ended]
    exact hsame
  · refine (hover hin).elim (fun hin => ?_) id
    have hbefore := h.closed hin
    have hreg := he.settled.regular
    rw [h.endpoint] at hstep hreg
    have hafter : (s'.own.after sent).conn.receiver.streamOut.Over :=
      TCPConnection.step_over hstep hreg hbefore
    exact hafter

theorem readDatagram_outcome (hr : Robust α Arrives inbox Holds) (he₀ : e₀.Sound)
    (hs : Serving Holds inbox e₀ s) {k : Surroundings ω δ} (hk : Arrives k.datagram) :
    Outcome Raised.FromKernel (fun s' => Serving Holds inbox e₀ s' ∧
      (FdAdapter.fd s'.datagramAdapter).readCount =
        (FdAdapter.fd s.datagramAdapter).readCount + 1 ∧
      s'.outboundShutdown = s.outboundShutdown) (readDatagram k s) := by
  obtain ⟨sent, e, hreach, htied⟩ := hs
  have hread := hr.read (k.adapter 0) htied.holds hk
  -- the note that everything is acknowledged is the last thing done, and is nobody's business
  have hnote : ∀ t : TCPSpongeSocket α, Serving Holds inbox e₀ t →
      (FdAdapter.fd t.datagramAdapter).readCount =
        (FdAdapter.fd s.datagramAdapter).readCount + 1 →
      t.outboundShutdown = s.outboundShutdown →
      Outcome Raised.FromKernel (fun s' => Serving Holds inbox e₀ s' ∧
        (FdAdapter.fd s'.datagramAdapter).readCount =
          (FdAdapter.fd s.datagramAdapter).readCount + 1 ∧
        s'.outboundShutdown = s.outboundShutdown)
        (.ok (if t.threadData.eof ∧ t.tcp.sender.bytesInFlight = 0 ∧ !t.fullyAcked then
          { t with fullyAcked := true } else t)) := by
    rintro t ⟨sent, e, hreach, htied⟩ hcount hshut
    split_ifs
    · exact ⟨⟨sent, e, hreach, htied.endpoint, htied.holds, htied.ended, htied.closed⟩, hcount, hshut⟩
    · exact ⟨⟨sent, e, hreach, htied⟩, hcount, hshut⟩
  unfold readDatagram
  cases hres : FdAdapter.read s.datagramAdapter (k.adapter 0) k.datagram with
  | error err => exact hread.of_error hres
  | ok r =>
    obtain ⟨seg, a⟩ := r
    obtain ⟨hholds, hcount, hsegs⟩ := hread.of_ok hres
    rw [ok_bind]
    cases seg with
    | none =>
      exact hnote _ ⟨sent, e, hreach, htied.endpoint, hholds, htied.ended, htied.closed⟩ hcount rfl
    | some seg =>
      obtain ⟨g, hg, hbare⟩ := hsegs seg rfl
      obtain ⟨c, hc⟩ := TCPConnection.step_returns s.tcp (.segmentReceived seg)
      have hcall : s.own.call (.segmentReceived g) = .ok ⟨c, s.fromOwner, s.toOwner⟩ := by
        have hsame : s.tcp.segmentReceived g = .ok c := by
          rw [← TCPConnection.segmentReceived_bare, hbare, TCPConnection.segmentReceived_bare]
          exact hc
        simp only [Endpoint.call, own, hsame, ok_bind]
      have hserved : Serving Holds inbox e₀ { s with datagramAdapter := a, tcp := c } :=
        htied.call hreach (hreach.sound he₀) (fun b hb => by cases hb; exact hg) (by simp) hcall
          hholds rfl .inl
      have hreceived : segmentReceived { s with datagramAdapter := a } seg =
          .ok { s with datagramAdapter := a, tcp := c } := by
        have hc : s.tcp.segmentReceived seg = .ok c := hc
        simp only [segmentReceived, hc]
        rfl
      simp only [hreceived, ok_bind]
      exact hnote _ hserved hcount rfl

theorem Serving.endInputStream (hs : Serving Holds inbox e₀ s) :
    Serving Holds inbox e₀ s.endInputStream := by
  obtain ⟨sent, e, hreach, htied⟩ := hs
  have hcall : s.own.call .endInputStream = .ok s.endInputStream.own := rfl
  refine ⟨sent, _, hreach.call (by simp) (htied.call_eq hcall), rfl, htied.holds, ?_, htied.closed⟩
  exact TCPSender.fillWindow_inputEnded _

omit [FdAdapter α ω δ] in
theorem readOwner_outcome (he₀ : e₀.Sound) (hs : Serving Holds inbox e₀ s)
    (hopen : s.outboundShutdown = false) (k : Surroundings ω δ) :
    Outcome Raised.FromKernel (fun s' => Serving Holds inbox e₀ s' ∧
      s'.threadData.readCount = s.threadData.readCount + 1) (readOwner k s) := by
  obtain ⟨sent, e, hreach, htied⟩ := hs
  refine (FDWrapper.read_outcome s.threadData s.remainingOutboundCapacity k.bytes).bind ?_
  rintro ⟨data, threadData⟩ ⟨-, hlen, hcount, -⟩
  have hended : s.tcp.sender.stream.inputEnded = false := by rw [htied.ended, hopen]
  have hfits : s.tcp.sender.stream.buffer.length + data.length ≤ s.tcp.sender.stream.capacity := by
    have hbuffer := s.tcp.sender.stream.fits
    simp only [remainingOutboundCapacity, ByteStream.remainingCapacity] at hlen
    omega
  have hall : (s.tcp.write data).2 = data.length := ByteStream.write_snd_of_fits hended hfits
  have hcall : s.own.call (.write data) =
      .ok ⟨(s.tcp.write data).1, s.fromOwner ++ data, s.toOwner⟩ := by
    simp only [Endpoint.call, own, hall, List.take_length]
  have hserved : Serving Holds inbox e₀ { s with
      threadData, tcp := (s.tcp.write data).1, fromOwner := s.fromOwner ++ data } :=
    htied.call hreach (hreach.sound he₀) (by simp) (by simp) hcall htied.holds rfl .inl
  refine Outcome.ite (fun hless => absurd hall hless) fun _ => ?_
  simp only [Outcome.ok_iff]
  split_ifs
  · exact ⟨hserved.endInputStream, hcount⟩
  · exact ⟨hserved, hcount⟩

omit [FdAdapter α ω δ] in
theorem writeOwner_outcome (he₀ : e₀.Sound) (hs : Serving Holds inbox e₀ s)
    (k : Surroundings ω δ) :
    Outcome Raised.FromKernel (fun s' => Serving Holds inbox e₀ s' ∧
      s.threadData.writeCount ≠ s'.threadData.writeCount ∧
      s'.outboundShutdown = s.outboundShutdown) (writeOwner k s) := by
  obtain ⟨sent, e, hreach, htied⟩ := hs
  refine (FDWrapper.writeSome_outcome s.threadData _ k.taken).bind ?_
  rintro w ⟨hfd, hlen, htaken⟩
  -- what the pipe took is what a read of that length returns
  have hpeek : w.taken = s.inbound.peekOutput w.totalBytesWritten := by
    rw [htaken]
    simp only [ByteStream.peekOutput, ByteStream.bufferSize, List.length_take] at hlen ⊢
    rw [List.take_take]
    congr 1
    omega
  have hcall : s.own.call (.read w.totalBytesWritten) = .ok ⟨{ s.tcp with
      receiver := s.tcp.receiver.withOutput (s.inbound.popOutput w.totalBytesWritten) },
      s.fromOwner, s.toOwner ++ w.taken⟩ := by
    simp only [Endpoint.call, own, TCPConnection.readInbound, ByteStream.read_eq_pop, hpeek]
    rfl
  have hserved : ∀ threadData inboundShutdown,
      (inboundShutdown = true → s.inboundShutdown = true ∨
        (s.inbound.popOutput w.totalBytesWritten).Over) → Serving Holds inbox e₀ { s with
      threadData, inboundShutdown
      tcp := { s.tcp with
        receiver := s.tcp.receiver.withOutput (s.inbound.popOutput w.totalBytesWritten) }
      toOwner := s.toOwner ++ w.taken } := fun _ _ hover =>
    htied.call hreach (hreach.sound he₀) (by simp) (by simp) hcall htied.holds rfl hover
  refine Outcome.ite (fun hover => ?_) fun _ => ⟨hserved _ _ .inl, ?_, rfl⟩
  · refine (FDWrapper.shutdownWrite_outcome _ k.shutdown).bind ?_
    rintro _ rfl
    refine ⟨hserved _ _ fun _ => .inr hover, ?_, rfl⟩
    simp only [hfd, FDWrapper.registerWrite]
    grind
  · simp only [hfd, FDWrapper.registerWrite]
    grind

theorem writeSegments_outcome (hr : Robust α Arrives inbox Holds) (env : ℕ → δ)
    {segs : List TCPSegment}
    (hsegs : ∀ g ∈ segs, g.Plain) {n : ℕ} {a : α} {gs : List TCPSegment} (ha : Holds gs a) :
    Outcome Raised.FromKernel (Holds (gs ++ segs)) (writeSegments env n a segs) := by
  induction segs generalizing n a gs with
  | nil => simpa [writeSegments] using ha
  | cons g segs ih =>
    refine (hr.write (env n) ha (hsegs g List.mem_cons_self)).bind fun a' ha' => ?_
    have hrest := ih (fun b hb => hsegs b (List.mem_cons_of_mem _ hb)) (n := n + 1) ha'
    rwa [List.append_assoc] at hrest

theorem sendSegments_outcome (hr : Robust α Arrives inbox Holds) (he₀ : e₀.Sound)
    (hs : Serving Holds inbox e₀ s) (k : Surroundings ω δ) :
    Outcome Raised.FromKernel (fun s' => Serving Holds inbox e₀ s' ∧ s'.tcp.segmentsOut = [] ∧
      s'.outboundShutdown = s.outboundShutdown) (sendSegments k s) := by
  obtain ⟨sent, e, hreach, htied⟩ := hs
  have hplain : ∀ g ∈ s.tcp.segmentsOut, g.Plain := by
    have hout := (hreach.sound he₀).plain.out
    rw [htied.endpoint] at hout
    exact fun g hg => hout g (List.mem_append_right _ hg)
  refine (writeSegments_outcome hr k.adapter hplain htied.holds).bind fun a ha => ?_
  refine ⟨⟨sent ++ s.tcp.segmentsOut, e, hreach, ?_, ha, htied.ended, htied.closed⟩, rfl, rfl⟩
  rw [htied.endpoint]
  simp only [Endpoint.after, own, TCPConnection.after, List.append_nil]

/-- What the callback of a rule can count on. -/
def Guard : SocketRule → TCPSpongeSocket α → Prop
  | .readOwner, s => s.outboundShutdown = false
  | _, _ => True

/-- The rules of a socket keep it in use, and raise nothing of their own. -/
theorem serves (hr : Robust α Arrives inbox Holds) (he₀ : e₀.Sound) :
    Serves (@rule α ω δ _) Raised.FromKernel (fun k => Arrives k.datagram)
      (Serving Holds inbox e₀) Guard where
  poll := .inr ⟨_, by simp, rfl⟩
  interest k s _ hi := by
    cases k with
    | readOwner =>
      simp only [rule, Bool.and_eq_true, Bool.not_eq_true'] at hi
      exact hi.1.2
    | readDatagram | writeOwner | sendSegments => trivial
  cancel k s hs := by
    cases k with
    | readOwner =>
      refine ⟨hs.endInputStream, fun j hj hG => ?_⟩
      cases j with
      | readOwner => exact absurd rfl hj
      | readDatagram | writeOwner | sendSegments => trivial
    | readDatagram | writeOwner | sendSegments => exact ⟨hs, fun _ _ hG => hG⟩
  callback k a s hs hG ha := by
    have hkeep : ∀ {s' : TCPSpongeSocket α}, s'.outboundShutdown = s.outboundShutdown →
        ∀ j, j ≠ k → Guard j s → Guard j s' := by
      intro s' hshut j _ hj
      cases j with
      | readOwner => exact hshut.trans hj
      | readDatagram | writeOwner | sendSegments => trivial
    cases k with
    | readDatagram =>
      refine (readDatagram_outcome hr he₀ hs ha).mono ?_
      rintro s' ⟨hs', hcount, hshut⟩
      refine ⟨hs', .inr (.inl ?_), hkeep hshut⟩
      simp only [Rule.serviceCount, rule, if_true, hcount]
      grind
    | readOwner =>
      refine (readOwner_outcome he₀ hs hG a).mono ?_
      rintro s' ⟨hs', hcount⟩
      refine ⟨hs', .inr (.inl ?_), fun j hj hGj => ?_⟩
      · simp only [Rule.serviceCount, rule, if_true, hcount]
        grind
      · cases j with
        | readOwner => exact absurd rfl hj
        | readDatagram | writeOwner | sendSegments => trivial
    | writeOwner =>
      refine (writeOwner_outcome he₀ hs a).mono ?_
      rintro s' ⟨hs', hcount, hshut⟩
      refine ⟨hs', .inr (.inl ?_), hkeep hshut⟩
      simpa [Rule.serviceCount, rule] using hcount
    | sendSegments =>
      refine (sendSegments_outcome hr he₀ hs a).mono ?_
      rintro s' ⟨hs', hempty, hshut⟩
      refine ⟨hs', .inr (.inr ?_), hkeep hshut⟩
      simp [rule, hempty]

end TCPSpongeSocket

namespace SocketThread

open TCPSpongeSocket

variable {α ω δ : Type} [FdAdapter α ω δ] {Arrives : Option ω → Prop}
  {Holds : List TCPSegment → α → Prop} {inbox : TCPSegment → Prop} {e₀ : Endpoint}

theorem tick_outcome (hr : Robust α Arrives inbox Holds) (he₀ : e₀.Sound) {s : TCPSpongeSocket α}
    (hs : Serving Holds inbox e₀ s) (input : LoopInput ω δ) :
    Outcome Raised.FromKernel (Serving Holds inbox e₀) (tick s input) := by
  refine Outcome.ite (fun _ => ?_) fun _ => hs
  obtain ⟨sent, e, hreach, htied⟩ := hs
  refine (hr.tick input.adapter input.elapsed htied.holds).bind fun a ha => ?_
  have hcall : s.own.call (.tick input.elapsed) =
      .ok ⟨s.tcp.tick input.elapsed, s.fromOwner, s.toOwner⟩ := rfl
  exact htied.call hreach (hreach.sound he₀) (by simp) (by simp) hcall ha rfl .inl

/-- What the network hands over in one turn of a loop satisfies `Arrives`. -/
def Hears (Arrives : Option ω → Prop) (input : LoopInput ω δ) : Prop :=
  ∀ revents, input.poll = .polled revents → ∀ i k, (revents i).ready = some k →
    Arrives k.datagram

theorem step_outcome (hr : Robust α Arrives inbox Holds) (he₀ : e₀.Sound) {t : SocketThread α}
    (ht : Serving Holds inbox e₀ t.socket) (hrules : t.rules <+ TCPSpongeSocket.rules)
    {input : LoopInput ω δ}
    (hin : Hears Arrives input) :
    Outcome Raised.FromKernel (fun t' => Serving Holds inbox e₀ t'.socket ∧
      t'.rules <+ TCPSpongeSocket.rules) (t.step input) := by
  refine Outcome.ite (fun _ => ?_) fun _ => ⟨ht, hrules⟩
  have hnodup : t.rules.Nodup := List.Nodup.sublist hrules (by decide)
  refine ((serves hr he₀).waitNextEvent hin hnodup ht).bind ?_
  rintro ⟨ret, ks, s⟩ ⟨hs, hsub⟩
  have hks := hsub.trans hrules
  refine Outcome.ite (fun _ => ⟨hs, hks⟩) fun _ => ?_
  exact (tick_outcome hr he₀ hs input).bind fun s' hs' => ⟨hs', hks⟩

end SocketThread

end Sponge
