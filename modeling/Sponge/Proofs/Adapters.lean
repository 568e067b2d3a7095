import Sponge.Proofs.Carriage
import Sponge.Sanity.Socket

/-! The adapters over UDP, over a TUN device and over Ethernet: whatever bytes arrive they raise
nothing of their own, and what they return was written into an adapter of the same kind. -/

namespace Sponge

open TCPSpongeSocket

variable {V : Address → Address → TCPSegment → Prop}

theorem raise_ok {β : Type} (b : β) : raise (.ok b) = .ok b := rfl

theorem raise_eq_ok {β : Type} {x : Except Thrown β} {b : β} (h : raise x = .ok b) : x = .ok b := by
  cases x with
  | error e => cases h
  | ok a => exact congrArg Except.ok (Except.ok.inj h)

/-- An adapter of a network that delivers, for what has been sent, the items of `net`: what is
read from such an item was written on the other side. -/
structure Faithful (α : Type) {ω δ : Type} [FdAdapter α ω δ] (net : List ω → ω → Prop)
    (Holds : List TCPSegment → α → Prop) : Prop
    extends Robust α (fun _ => True) (fun _ => True) Holds where
  grow : ∀ {gs a} (g : TCPSegment), Holds gs a → Holds (gs ++ [g]) a
  carried : ∀ {gs a} {b b' : α} {d : δ} {o : Option ω} {seg : TCPSegment}, Holds gs a →
    (∀ w ∈ o, net (FdAdapter.sent a) w) → FdAdapter.read b d o = .ok (some seg, b') →
    ∃ g ∈ gs, g.bare = seg.bare

theorem anything (o : Option TCPSegment) :
    ∀ seg ∈ o, ∃ g : TCPSegment, True ∧ g.bare = seg.bare :=
  fun seg _ => ⟨seg, trivial, rfl⟩

/-- On a network that only has what `a` has sent, only its segments arrive. -/
theorem Faithful.robust_from {α ω δ : Type} [FdAdapter α ω δ] {net : List ω → ω → Prop}
    {Holds : List TCPSegment → α → Prop} (h : Faithful α net Holds) {gs : List TCPSegment} {a : α}
    (ha : Holds gs a) :
    Robust α (fun o => ∀ w ∈ o, net (FdAdapter.sent a) w) (· ∈ gs) Holds where
  read {gs' b} d {o} hb ho := by
    have hread := h.read d (o := o) hb trivial
    cases hres : FdAdapter.read b d o with
    | error e => exact hread.of_error hres
    | ok r =>
      obtain ⟨seg, b'⟩ := r
      obtain ⟨hholds, hcount, -⟩ := hread.of_ok hres
      refine ⟨hholds, hcount, fun seg hseg => ?_⟩
      cases hseg
      exact h.carried ha ho hres
  write d hb hg := h.write d hb hg
  tick d ms hb := h.tick d ms hb

theorem Device.write_outcome {ω : Type} (dev : Device ω) (attempt : String) (answer : Option Unit)
    (w : ω) : Outcome Raised.FromKernel (fun dev' =>
      dev' = ⟨dev.fd.registerWrite, dev.sent ++ [w]⟩) (dev.write attempt answer w) :=
  (systemCall_outcome attempt answer).bind fun _ _ => rfl

theorem Device.writeAll_outcome {ω : Type} (writes : Writes) (ws : List ω) (n : ℕ)
    (dev : Device ω) : Outcome Raised.FromKernel (fun dev' =>
      dev'.fd.readCount = dev.fd.readCount ∧ dev'.sent = dev.sent ++ ws)
      (Device.writeAll writes n dev ws) := by
  induction ws generalizing n dev with
  | nil => exact ⟨rfl, by simp⟩
  | cons w ws ih =>
    refine (dev.write_outcome _ (writes n) w).bind ?_
    rintro _ rfl
    refine (ih (n + 1) _).mono ?_
    rintro dev' ⟨hcount, hsent⟩
    exact ⟨hcount, by simp [hsent]⟩

/-! ### UDP -/

namespace TCPOverUDPSocketAdapter

/-- The payload is that of a segment vouched for, if of any. -/
def PayloadOf (gs : List TCPSegment) (b : Buffer) : Prop :=
  ∀ seg, ({} : TCPSegment).parse b 0 = (.noError, seg) → ∃ g ∈ gs, g.bare = seg.bare

def Holds (gs : List TCPSegment) (a : TCPOverUDPSocketAdapter) : Prop :=
  ∀ w ∈ a.sock.sent, PayloadOf gs w.2

/-- The network delivers payloads that were sent, from whatever address. -/
def Delivers (sent : List (Address × Buffer)) (w : Address × Buffer) : Prop :=
  ∃ destination, (destination, w.2) ∈ sent

theorem read_outcome (a : TCPOverUDPSocketAdapter) (answer : Option (Address × Buffer)) :
    Outcome Raised.FromKernel (fun r => r.2.sock.sent = a.sock.sent ∧
      r.2.sock.fd.readCount = a.sock.fd.readCount + 1 ∧
      ∀ seg, r.1 = some seg → ∃ w, answer = some w ∧
        ({} : TCPSegment).parse w.2 0 = (.noError, seg)) (a.read answer) := by
  have hrecv : Outcome Raised.FromKernel (fun r => answer = some r.1 ∧
      r.2 = a.sock.fd.registerRead) (UDPSocket.recv a.sock.fd answer) :=
    (systemCall_outcome "recvfrom" answer).bind fun w hw =>
      Outcome.ite (fun _ => .inr ⟨_, by simp, rfl⟩) fun _ => ⟨hw, rfl⟩
  refine hrecv.bind ?_
  rintro ⟨⟨source, payload⟩, fd⟩ ⟨rfl, rfl⟩
  refine Outcome.ite (fun _ => ⟨rfl, rfl, by simp⟩) fun _ => ?_
  simp only
  refine Outcome.ite (fun _ => ⟨rfl, rfl, by simp⟩) fun hok => ?_
  have hparsed : ∀ seg, some (({} : TCPSegment).parse payload 0).2 = some seg →
      ∃ w, some (source, payload) = some w ∧ ({} : TCPSegment).parse w.2 0 = (.noError, seg) := by
    rintro seg hseg
    cases hseg
    exact ⟨_, rfl, by rw [← not_not.mp hok]⟩
  refine Outcome.ite (fun _ => ?_) fun _ => ⟨rfl, rfl, hparsed⟩
  exact Outcome.ite (fun _ => ⟨rfl, rfl, hparsed⟩) fun _ => ⟨rfl, rfl, by simp⟩

theorem Holds.grow {gs : List TCPSegment} {a : TCPOverUDPSocketAdapter} (ha : Holds gs a)
    (g : TCPSegment) : Holds (gs ++ [g]) a := by
  intro w hw seg hseg
  obtain ⟨b, hb, hbare⟩ := ha w hw seg hseg
  exact ⟨b, List.mem_append_left _ hb, hbare⟩

theorem write_outcome (a : TCPOverUDPSocketAdapter) (writes : Writes) {gs : List TCPSegment}
    (ha : Holds gs a) {g : TCPSegment} (hg : g.Plain) :
    Outcome Raised.FromKernel (Holds (gs ++ [g])) (a.write writes g) := by
  have hdoff : g.header.doff.toNat = 5 := by rw [hg.doff]; rfl
  have hsize := hg.size
  rw [maxPayloadSize] at hsize
  -- the ports are set as they are for a datagram
  have hshort : 5 ≤ (TCPOverIPv4Adapter.addressed ⟨a.config, a.listening⟩ g).header.doff.toNat :=
    hdoff.ge
  have hparse := TCPSegment.parse_bytes {} hshort (show g.header.doff.toNat ≤ 15 by omega)
    (show 4 * g.header.doff.toNat + g.payload.length < 2 ^ 16 by omega)
    (show (0 : UInt32).toNat < 2 ^ 19 by simp)
  show Outcome _ _ (raise ((TCPOverIPv4Adapter.addressed ⟨a.config, a.listening⟩ g).serialize 0) >>= _)
  rw [TCPSegment.serialize_eq hshort, raise_ok, ok_bind]
  refine (a.sock.write_outcome _ (writes 0) _).bind ?_
  rintro _ rfl w hw seg hseg
  rcases List.mem_append.mp hw with hw | hw
  · exact ha.grow g w hw seg hseg
  · refine ⟨g, by simp, ?_⟩
    rw [List.mem_singleton.mp hw] at hseg
    simp only [BufferList.concatenate, List.flatten_cons, List.flatten_nil, List.append_nil] at hseg
    rw [hparse] at hseg
    cases hseg
    rfl

theorem faithful : Faithful TCPOverUDPSocketAdapter Delivers Holds where
  grow g ha := ha.grow g
  read d o ha _ := (read_outcome _ o).mono fun r hr =>
    ⟨fun x hx => ha x (hr.1 ▸ hx), hr.2.1, anything r.1⟩
  write writes ha hg := write_outcome _ writes ha hg
  tick _ _ ha := ha
  carried := by
    rintro gs a b b' d o seg ha ho hread
    obtain ⟨-, -, hseg⟩ := (read_outcome b o).of_ok hread
    obtain ⟨w, rfl, hparse⟩ := hseg seg rfl
    obtain ⟨destination, hw⟩ := ho w rfl
    exact ha _ hw seg hparse

end TCPOverUDPSocketAdapter

/-- The segments of `gs` are vouched for, whatever their addresses. -/
def Among (gs : List TCPSegment) (_ _ : Address) (seg : TCPSegment) : Prop :=
  ∃ g ∈ gs, g.bare = seg

theorem Among.grow {gs : List TCPSegment} (g : TCPSegment) (x y : Address) (seg : TCPSegment)
    (h : Among gs x y seg) : Among (gs ++ [g]) x y seg := by
  obtain ⟨b, hb, hbare⟩ := h
  exact ⟨b, List.mem_append_left _ hb, hbare⟩

theorem Among.last (gs : List TCPSegment) (g : TCPSegment) (x y : Address) :
    Among (gs ++ [g]) x y g.bare := ⟨g, by simp, rfl⟩

/-! ### TUN -/

/-- Bytes of a good datagram. -/
def DatagramBytes (V : Address → Address → TCPSegment → Prop) (b : Buffer) : Prop :=
  ∃ (d : IPv4Datagram) (l : BufferList), d.Good V ∧ d.serialize = .ok l ∧ b = l.concatenate

theorem DatagramBytes.mono {V' : Address → Address → TCPSegment → Prop}
    (hV : ∀ x y g, V x y g → V' x y g) {b : Buffer} (h : DatagramBytes V b) :
    DatagramBytes V' b := by
  obtain ⟨d, l, hd, hl⟩ := h
  exact ⟨d, l, hd.mono hV, hl⟩

theorem TCPOverIPv4Adapter.unwrap_ok (a : TCPOverIPv4Adapter) {d : IPv4Datagram}
    (hone : d.payload.length = 1) : ∃ r, a.unwrapTcpInIp d = .ok r := by
  obtain ⟨b, hb⟩ := BufferList.toBuffer_ok hone.le
  unfold unwrapTcpInIp
  simp only [hb, ok_bind]
  split_ifs <;> exact ⟨_, rfl⟩

namespace TCPOverIPv4OverTunFdAdapter

theorem read_outcome (a : TCPOverIPv4OverTunFdAdapter) (answer : Option Buffer) :
    Outcome Raised.FromKernel (fun r => r.2.tun.sent = a.tun.sent ∧
      r.2.tun.fd.readCount = a.tun.fd.readCount + 1 ∧
      ((r.1 = none ∧ r.2.toTCPOverIPv4Adapter = a.toTCPOverIPv4Adapter) ∨
        ∃ b d, answer = some b ∧ ({} : IPv4Datagram).parse b = (.noError, d) ∧
          a.unwrapTcpInIp d = .ok (r.1, r.2.toTCPOverIPv4Adapter))) (a.read answer) := by
  refine (a.tun.fd.read_outcome maxRead answer).bind ?_
  rintro ⟨bytes, fd⟩ ⟨rfl, -, hcount, -⟩
  simp only
  refine Outcome.ite (fun _ => ⟨rfl, hcount, .inl ⟨rfl, rfl⟩⟩) fun hok => ?_
  obtain ⟨r, hr⟩ := a.toTCPOverIPv4Adapter.unwrap_ok (({} : IPv4Datagram).parse_payload bytes)
  simp only [hr, raise_ok, ok_bind]
  exact ⟨rfl, hcount, .inr ⟨bytes, _, rfl, by rw [← not_not.mp hok], hr⟩⟩

theorem write_outcome (a : TCPOverIPv4OverTunFdAdapter) (writes : Writes) {g : TCPSegment}
    (hg : g.Plain) (hV : V a.config.source a.config.destination g.bare) :
    Outcome Raised.FromKernel (fun a' => a'.toTCPOverIPv4Adapter = a.toTCPOverIPv4Adapter ∧
      ∃ b, a'.tun.sent = a.tun.sent ++ [b] ∧ DatagramBytes V b) (a.write writes g) := by
  obtain ⟨d, sent, hwrap, hd⟩ := a.toTCPOverIPv4Adapter.wrap_good hg hV
  unfold write
  simp only [hwrap, raise_ok, ok_bind, hd.serialize_eq]
  refine (a.tun.write_outcome _ (writes 0) _).bind ?_
  rintro _ rfl
  exact ⟨rfl, _, rfl, d, _, hd, hd.serialize_eq, rfl⟩

theorem read_good {a a' : TCPOverIPv4OverTunFdAdapter} {b : Buffer} (hb : DatagramBytes V b)
    {seg : TCPSegment} (h : a.read (some b) = .ok (some seg, a')) :
    V a'.config.destination a'.config.source seg.bare := by
  obtain ⟨-, -, ⟨hnone, -⟩ | ⟨b', d, hb', hparse, hunwrap⟩⟩ := (read_outcome a (some b)).of_ok h
  · cases hnone
  · cases hb'
    obtain ⟨d₀, l, hgood, hl, rfl⟩ := hb
    refine TCPOverIPv4Adapter.unwrap_good (hgood.parse hl hparse) ?_ hunwrap
    have := ({} : IPv4Datagram).parse_payload l.concatenate
    rwa [hparse] at this

def Holds (gs : List TCPSegment) (a : TCPOverIPv4OverTunFdAdapter) : Prop :=
  ∀ b ∈ a.tun.sent, DatagramBytes (Among gs) b

theorem Holds.grow {gs : List TCPSegment} {a : TCPOverIPv4OverTunFdAdapter} (ha : Holds gs a)
    (g : TCPSegment) : Holds (gs ++ [g]) a := fun b hb => (ha b hb).mono (Among.grow g)

theorem faithful : Faithful TCPOverIPv4OverTunFdAdapter (fun sent b => b ∈ sent) Holds where
  grow g ha := ha.grow g
  read _ o ha _ := (read_outcome _ o).mono fun r hr =>
    ⟨fun b hb => ha b (hr.1 ▸ hb), hr.2.1, anything r.1⟩
  write {gs a g} writes ha hg := by
    refine (write_outcome a writes hg (Among.last gs g _ _)).mono ?_
    rintro a' ⟨-, b, hsent, hb⟩ w hw
    rw [hsent] at hw
    rcases List.mem_append.mp hw with hw | hw
    · exact ha.grow g w hw
    · exact List.mem_singleton.mp hw ▸ hb
  tick _ _ ha := ha
  carried {gs a b b' d o seg} ha ho hread := by
    cases o with
    | none => cases hread
    | some w => exact read_good (ha w (ho w rfl)) hread

end TCPOverIPv4OverTunFdAdapter

/-! ### Ethernet -/

/-- Bytes of a good frame. -/
def FrameBytes (V : Address → Address → TCPSegment → Prop) (b : Buffer) : Prop :=
  ∃ f : EthernetFrame, f.Good V ∧ b = f.serialize.concatenate

theorem FrameBytes.mono {V' : Address → Address → TCPSegment → Prop}
    (hV : ∀ x y g, V x y g → V' x y g) {b : Buffer} (h : FrameBytes V b) : FrameBytes V' b := by
  obtain ⟨f, hf, hb⟩ := h
  exact ⟨f, hf.mono hV, hb⟩

namespace TCPOverIPv4OverEthernetAdapter

/-- Everything on its way out of the adapter is good. -/
structure Clean (V : Address → Address → TCPSegment → Prop) (a : TCPOverIPv4OverEthernetAdapter) :
    Prop where
  interface : a.interface.Clean V
  sent : ∀ b ∈ a.tap.sent, FrameBytes V b

theorem Clean.mono {V' : Address → Address → TCPSegment → Prop}
    (hV : ∀ x y g, V x y g → V' x y g) {a : TCPOverIPv4OverEthernetAdapter} (h : a.Clean V) :
    a.Clean V' :=
  ⟨h.interface.mono hV, fun b hb => (h.sent b hb).mono hV⟩

theorem Clean.sendPending {a : TCPOverIPv4OverEthernetAdapter} (h : a.Clean V) (writes : Writes) :
    Outcome Raised.FromKernel (fun a' => a'.Clean V ∧
      a'.toTCPOverIPv4Adapter = a.toTCPOverIPv4Adapter ∧
      a'.tap.fd.readCount = a.tap.fd.readCount) (a.sendPending writes) := by
  refine (Device.writeAll_outcome writes _ 0 a.tap).bind ?_
  rintro tap ⟨hcount, hsent⟩
  refine ⟨⟨⟨h.interface.waiting, List.forall_mem_nil _⟩, fun b hb => ?_⟩, rfl, hcount⟩
  rw [show tap.sent = _ from hsent] at hb
  rcases List.mem_append.mp hb with hb | hb
  · exact h.sent b hb
  · obtain ⟨f, hf, rfl⟩ := List.mem_map.mp hb
    exact ⟨f, h.interface.frames f hf, rfl⟩

theorem Clean.read {a : TCPOverIPv4OverEthernetAdapter} (h : a.Clean V) (writes : Writes)
    (answer : Option Buffer) :
    Outcome Raised.FromKernel (fun r => r.2.Clean V ∧
      r.2.tap.fd.readCount = a.tap.fd.readCount + 1 ∧
      ((r.1 = none ∧ r.2.toTCPOverIPv4Adapter = a.toTCPOverIPv4Adapter) ∨
        ∃ b f d i, answer = some b ∧ ({} : EthernetFrame).parse b = (.noError, f) ∧
          a.interface.recvFrame f = .ok (some d, i) ∧
          a.unwrapTcpInIp d = .ok (r.1, r.2.toTCPOverIPv4Adapter))) (a.read writes answer) := by
  refine (a.tap.fd.read_outcome maxRead answer).bind ?_
  rintro ⟨bytes, fd⟩ ⟨rfl, -, hcount, -⟩
  simp only
  refine Outcome.ite (fun _ => ⟨⟨h.interface, h.sent⟩, hcount, .inl ⟨rfl, rfl⟩⟩) fun hok => ?_
  obtain ⟨o, i, hrecv, hclean⟩ := h.interface.recvFrame
    (show (({} : EthernetFrame).parse bytes).2.payload.length = 1 from rfl)
  simp only [hrecv, raise_ok, ok_bind]
  have hpending : Clean V { a with tap := { a.tap with fd }, interface := i } := ⟨hclean, h.sent⟩
  refine (hpending.sendPending writes).bind ?_
  rintro a' ⟨ha', hsame, hcount'⟩
  have hcounted : a'.tap.fd.readCount = a.tap.fd.readCount + 1 := hcount'.trans hcount
  cases o with
  | none => exact ⟨ha', hcounted, .inl ⟨rfl, hsame⟩⟩
  | some d =>
    have hone : d.payload.length = 1 := by
      obtain ⟨-, -, ⟨p, -, hp⟩, -⟩ := NetworkInterface.recvFrame_some hrecv
      have := ({} : IPv4Datagram).parse_payload p
      rwa [hp] at this
    obtain ⟨r, hr⟩ := a'.toTCPOverIPv4Adapter.unwrap_ok hone
    simp only [hr, raise_ok, ok_bind]
    rw [hsame] at hr
    exact ⟨⟨ha'.interface, ha'.sent⟩, hcounted,
      .inr ⟨bytes, _, d, i, rfl, by rw [← not_not.mp hok], hrecv, hr⟩⟩

theorem Clean.write {a : TCPOverIPv4OverEthernetAdapter} (h : a.Clean V) (writes : Writes)
    {g : TCPSegment} (hg : g.Plain) (hV : V a.config.source a.config.destination g.bare) :
    Outcome Raised.FromKernel (fun a' => a'.Clean V ∧
      a'.toTCPOverIPv4Adapter = a.toTCPOverIPv4Adapter) (a.write writes g) := by
  obtain ⟨d, sent, hwrap, hd⟩ := a.toTCPOverIPv4Adapter.wrap_good hg hV
  obtain ⟨i, hsend, hclean⟩ := h.interface.sendDatagram hd a.nextHop
  unfold TCPOverIPv4OverEthernetAdapter.write
  simp only [hwrap, hsend, raise_ok, ok_bind]
  have hpending : Clean V { a with interface := i } := ⟨hclean, h.sent⟩
  exact (hpending.sendPending writes).mono fun a' ha' => ⟨ha'.1, ha'.2.1⟩

theorem Clean.tick {a : TCPOverIPv4OverEthernetAdapter} (h : a.Clean V) (writes : Writes) (ms : ℕ) :
    Outcome Raised.FromKernel (fun a' => a'.Clean V ∧
      a'.toTCPOverIPv4Adapter = a.toTCPOverIPv4Adapter) (a.tick writes ms) := by
  have hpending : Clean V { a with interface := a.interface.tick ms } :=
    ⟨h.interface.tick ms, h.sent⟩
  exact (hpending.sendPending writes).mono fun a' ha' => ⟨ha'.1, ha'.2.1⟩

theorem read_good {a a' : TCPOverIPv4OverEthernetAdapter} {writes : Writes} {b : Buffer}
    (hb : FrameBytes V b) {seg : TCPSegment} (h : a.read writes (some b) = .ok (some seg, a')) :
    V a'.config.destination a'.config.source seg.bare := by
  obtain ⟨⟨bytes, fd⟩, hread, h⟩ := bind_eq_ok h
  cases FDWrapper.read_bytes hread
  obtain ⟨f₀, hf₀, rfl⟩ := hb
  dsimp only at h
  split at h
  · cases h
  case isFalse hok =>
    obtain ⟨⟨o, i⟩, hrecv, h⟩ := bind_eq_ok h
    obtain ⟨a₁, -, h⟩ := bind_eq_ok h
    cases o with
    | none => cases h
    | some d =>
      obtain ⟨⟨seg', adapter⟩, hunwrap, h⟩ := bind_eq_ok h
      cases h
      obtain ⟨hgood, hone⟩ := hf₀.arrived (Prod.ext (not_not.mp hok) rfl)
      obtain ⟨hd, hone⟩ := NetworkInterface.recvFrame_good hgood hone (raise_eq_ok hrecv)
      exact TCPOverIPv4Adapter.unwrap_good hd hone (raise_eq_ok hunwrap)

theorem Clean.new {tap : Device Buffer} (htap : tap.sent = []) {ethAddress : EthernetAddress}
    {ipAddress nextHop : UInt32} {writes : Writes} {a : TCPOverIPv4OverEthernetAdapter}
    (h : new tap ethAddress ipAddress nextHop writes = .ok a) : a.Clean V := by
  obtain ⟨tap', hwrite, h⟩ := bind_eq_ok h
  cases h
  refine ⟨NetworkInterface.Clean.new ethAddress ipAddress, fun b hb => ?_⟩
  rw [(tap.write_outcome _ _ _).of_ok hwrite, htap] at hb
  have hdummy : EthernetFrame.Good V {} := fun hip => absurd hip (by decide)
  exact ⟨{}, hdummy, List.mem_singleton.mp hb⟩

theorem faithful : Faithful TCPOverIPv4OverEthernetAdapter (fun sent b => b ∈ sent)
    (fun gs => Clean (Among gs)) where
  grow g ha := ha.mono (Among.grow g)
  read writes o ha _ := (ha.read writes o).mono fun r hr => ⟨hr.1, hr.2.1, anything r.1⟩
  write {gs a g} writes ha hg :=
    ((ha.mono (Among.grow g)).write writes hg (Among.last gs g _ _)).mono fun _ ha' => ha'.1
  tick writes ms ha := (ha.tick writes ms).mono fun _ ha' => ha'.1
  carried {gs a b b' d o seg} ha ho hread := by
    cases o with
    | none => cases hread
    | some w => exact read_good (ha.sent w (ho w rfl)) hread

end TCPOverIPv4OverEthernetAdapter

/-! ### Loss -/

namespace LossyFdAdapter

variable {α ω δ : Type} [FdAdapter α ω δ] {net : List ω → ω → Prop}
  {Holds : List TCPSegment → α → Prop}

theorem faithful (h : Faithful α net Holds) :
    Faithful (LossyFdAdapter α) net (fun gs a => Holds gs a.adapter) where
  grow g ha := h.grow g ha
  read d o ha _ := (h.read d.2 ha trivial).bind fun r hr => ⟨hr.1, hr.2.1, anything _⟩
  write d ha hg := Outcome.ite (fun _ => h.grow _ ha) fun _ => (h.write d.2 ha hg).bind fun _ hr => hr
  tick d ms ha := (h.tick d.2 ms ha).bind fun _ hr => hr
  carried {gs a b b' d o seg} ha ho hread := by
    obtain ⟨⟨ret, adapter⟩, hread, hres⟩ := bind_eq_ok hread
    have hret : ret = some seg := by
      have := (Prod.mk.inj (Except.ok.inj hres)).1
      split_ifs at this
      exact this
    rw [hret] at hread
    exact h.carried ha ho hread

end LossyFdAdapter

/-- An adapter a socket can be built over: as its constructor leaves it, what the network may
deliver of what it has sent, and that nothing else comes of that. -/
class Carrier (α : Type) (ω δ : outParam Type) [FdAdapter α ω δ] where
  Fresh : α → Prop
  Delivers : List ω → ω → Prop
  Holds : List TCPSegment → α → Prop
  faithful : Faithful α Delivers Holds
  configured : ∀ {a}, Fresh a → ∀ cfg, Holds [] (FdAdapter.configure a cfg)
  listening : ∀ {a}, Fresh a → ∀ cfg,
    Holds [] (FdAdapter.setListening (FdAdapter.configure a cfg) true)

instance : Carrier TCPOverUDPSocketAdapter (Address × Buffer) Writes where
  Fresh a := a.sock.sent = []
  Delivers := TCPOverUDPSocketAdapter.Delivers
  Holds := TCPOverUDPSocketAdapter.Holds
  faithful := TCPOverUDPSocketAdapter.faithful
  configured ha _ := fun _ hw => absurd (ha ▸ hw) List.not_mem_nil
  listening ha _ := fun _ hw => absurd (ha ▸ hw) List.not_mem_nil

instance : Carrier TCPOverIPv4OverTunFdAdapter Buffer Writes where
  Fresh a := a.tun.sent = []
  Delivers sent b := b ∈ sent
  Holds := TCPOverIPv4OverTunFdAdapter.Holds
  faithful := TCPOverIPv4OverTunFdAdapter.faithful
  configured ha _ := fun _ hb => absurd (ha ▸ hb) List.not_mem_nil
  listening ha _ := fun _ hb => absurd (ha ▸ hb) List.not_mem_nil

instance : Carrier TCPOverIPv4OverEthernetAdapter Buffer Writes where
  Fresh a := ∃ (tap : Device Buffer) (ethAddress : EthernetAddress) (ipAddress nextHop : UInt32)
    (writes : Writes), tap.sent = [] ∧
      TCPOverIPv4OverEthernetAdapter.new tap ethAddress ipAddress nextHop writes = .ok a
  Delivers sent b := b ∈ sent
  Holds gs := TCPOverIPv4OverEthernetAdapter.Clean (Among gs)
  faithful := TCPOverIPv4OverEthernetAdapter.faithful
  configured := by
    rintro a ⟨tap, ethAddress, ipAddress, nextHop, writes, htap, hnew⟩ cfg
    have hclean : a.Clean (Among []) := .new htap hnew
    exact ⟨hclean.interface, hclean.sent⟩
  listening := by
    rintro a ⟨tap, ethAddress, ipAddress, nextHop, writes, htap, hnew⟩ cfg
    have hclean : a.Clean (Among []) := .new htap hnew
    exact ⟨hclean.interface, hclean.sent⟩

instance {α ω δ : Type} [FdAdapter α ω δ] [Carrier α ω δ] :
    Carrier (LossyFdAdapter α) ω (UInt32 × δ) where
  Fresh a := Carrier.Fresh a.adapter
  Delivers := Carrier.Delivers α
  Holds gs a := Carrier.Holds gs a.adapter
  faithful := LossyFdAdapter.faithful Carrier.faithful
  configured ha cfg := Carrier.configured ha cfg
  listening ha cfg := Carrier.listening ha cfg

end Sponge
