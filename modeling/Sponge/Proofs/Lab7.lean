import Sponge.Proofs.RouterCarriage
import Sponge.Proofs.SocketStream

/-! Two hosts, each with a router of its own, over an Internet that may lose, repeat, delay and
reorder what passes between the routers: the streams of the two sockets are intact. -/

namespace Sponge

open EventLoop TCPSpongeSocket
open scoped List

variable {V : Address → Address → TCPSegment → Prop}

theorem raise_outcome {β : Type} {E : Raised → Prop} {Q : β → Prop} {x : Except Thrown β}
    (h : Outcome (fun _ => False) Q x) : Outcome E Q (raise x) := by
  cases x with
  | error e => exact h.elim
  | ok b => exact h

namespace Lab7Network

/-- A packet: nothing, or the bytes of a good frame. -/
def Packet (V : Address → Address → TCPSegment → Prop) (b : Buffer) : Prop :=
  b = [] ∨ FrameBytes V b

/-- Everything that is in the router, and that has left it, is good. -/
structure Clean (V : Address → Address → TCPSegment → Prop) (s : Lab7Network) : Prop where
  router : s.router.Clean V
  host : s.hostSide < s.router.interfaces.length
  internet : s.internetSide < s.router.interfaces.length
  apart : s.hostSide ≠ s.internetSide
  toHost : ∀ b ∈ s.frameFd.sent, FrameBytes V b
  toInternet : ∀ w ∈ s.internetSocket.sent, Packet V w.2

theorem Clean.passed {s : Lab7Network} (h : s.Clean V) {router : Router}
    (hr : Router.Passed V s.router router) : Clean V { s with router } :=
  ⟨hr.clean, hr.length ▸ h.host, hr.length ▸ h.internet, h.apart, h.toHost, h.toInternet⟩

theorem Clean.receive {s : Lab7Network} (h : s.Clean V) {n : ℕ}
    (hn : n < s.router.interfaces.length) {b : Buffer} (hb : Packet V b) :
    Outcome Raised.FromKernel (fun s' => ∃ router, s' = { s with router } ∧
      Router.Passed V s.router router) (receive n b s) := by
  have hsame : Router.Passed V s.router s.router := ⟨h.router, rfl, fun _ => List.prefix_rfl⟩
  refine Outcome.ite (fun _ => ⟨s.router, rfl, hsame⟩) fun hok => ?_
  have hgood : (({} : EthernetFrame).parse b).2.Good V := by
    rcases hb with rfl | ⟨f, hf, rfl⟩
    · exact fun hip => absurd hip (by decide)
    · exact (hf.arrived (Prod.ext (not_not.mp hok) rfl)).1
  have hone : (({} : EthernetFrame).parse b).2.payload.length = 1 := rfl
  refine (raise_outcome (h.router.recvFrame hn hgood hone)).bind fun r hr => ?_
  refine (raise_outcome hr.clean.route).bind fun r' hr' => ⟨r', rfl, hr'.clean, ?_, fun m => ?_⟩
  · rw [hr'.length, hr.length]
  · exact (hr.frames m).trans (hr'.frames m)

theorem Clean.popFrame {s : Lab7Network} (h : s.Clean V) {n : ℕ}
    (hn : n < s.router.interfaces.length) (hframes : s.router.framesOut n ≠ []) :
    Outcome Raised.FromKernel (fun r => FrameBytes V r.1.serialize.concatenate ∧
      r.2.Clean V ∧ r.2.interfaces.length = s.router.interfaces.length ∧
      ∀ m, n ≠ m → r.2.framesOut m = s.router.framesOut m) (popFrame n s) := by
  obtain ⟨i, hmem, hi⟩ := Router.interface_of_lt hn
  rw [Router.framesOut_of_interface hi] at hframes
  unfold Lab7Network.popFrame
  simp only [hi, raise_ok, ok_bind]
  cases hf : i.framesOut with
  | nil => exact absurd hf hframes
  | cons f rest =>
    have hclean := h.router.interfaces i hmem
    have hall := hclean.interface.frames
    rw [hf] at hall
    refine ⟨⟨f, hall f List.mem_cons_self, rfl⟩, h.router.setInterface n ⟨⟨?_, ?_⟩, hclean.queue⟩,
      List.length_set, fun m hm => ?_⟩
    · exact hclean.interface.waiting
    · exact fun f' hf' => hall f' (List.mem_cons_of_mem _ hf')
    · rw [Router.framesOut_setInterface, if_neg fun hm' => hm hm'.1]

/-- What the callbacks that send count on. -/
def Guard : NetworkRule → Lab7Network → Prop
  | .routerToHost, s => s.router.framesOut s.hostSide ≠ []
  | .routerToInternet, s => s.router.framesOut s.internetSide ≠ []
  | _, _ => True

theorem Guard.grows {s s' : Lab7Network} (hhost : s'.hostSide = s.hostSide)
    (hinternet : s'.internetSide = s.internetSide)
    (hframes : ∀ m, s.router.framesOut m <+: s'.router.framesOut m) {k : NetworkRule}
    (h : Guard k s) : Guard k s' := by
  have hkeep : ∀ m, s.router.framesOut m ≠ [] → s'.router.framesOut m ≠ [] := fun m hm hnil =>
    hm (List.prefix_nil.mp (hnil ▸ hframes m))
  cases k with
  | hostToRouter | internetToRouter => trivial
  | routerToHost =>
    simp only [Guard, hhost]
    exact hkeep _ h
  | routerToInternet =>
    simp only [Guard, hinternet]
    exact hkeep _ h

/-- What may arrive at the router. -/
structure Arrives (V : Address → Address → TCPSegment → Prop) (k : NetworkSurroundings) : Prop where
  frame : ∀ b ∈ k.frame, FrameBytes V b
  packet : ∀ b ∈ k.packet, Packet V b

theorem serves : Serves rule Raised.FromKernel (Arrives V) (Clean V) Guard where
  poll := .inr ⟨_, by simp, rfl⟩
  interest k s _ hi := by
    cases k with
    | hostToRouter | internetToRouter => trivial
    | routerToHost | routerToInternet => simpa [rule, Guard] using hi
  cancel k s hs := by cases k <;> exact ⟨hs, fun _ _ hG => hG⟩
  callback k a s hs hG ha := by
    cases k with
    | hostToRouter =>
      refine (s.frameFd.fd.read_outcome maxRead a.frame).bind ?_
      rintro ⟨bytes, fd⟩ ⟨hbytes, -, hcount, -⟩
      have hs' : Clean V { s with frameFd := { s.frameFd with fd } } :=
        ⟨hs.router, hs.host, hs.internet, hs.apart, hs.toHost, hs.toInternet⟩
      refine (hs'.receive hs'.host (.inr (ha.frame bytes hbytes))).mono ?_
      rintro _ ⟨router, rfl, hpassed⟩
      refine ⟨hs'.passed hpassed, .inr (.inl ?_), fun j _ hj => ?_⟩
      · simp only [Rule.serviceCount, rule, if_true]
        grind
      · refine Guard.grows (s := s) ?_ ?_ hpassed.frames hj <;> rfl
    | internetToRouter =>
      refine (s.internetSocket.fd.read_outcome maxRead a.packet).bind ?_
      rintro ⟨bytes, fd⟩ ⟨hbytes, -, hcount, -⟩
      have hs' : Clean V { s with internetSocket := { s.internetSocket with fd } } :=
        ⟨hs.router, hs.host, hs.internet, hs.apart, hs.toHost, hs.toInternet⟩
      refine (hs'.receive hs'.internet (ha.packet bytes hbytes)).mono ?_
      rintro _ ⟨router, rfl, hpassed⟩
      refine ⟨hs'.passed hpassed, .inr (.inl ?_), fun j _ hj => ?_⟩
      · simp only [Rule.serviceCount, rule, if_true]
        grind
      · refine Guard.grows (s := s) ?_ ?_ hpassed.frames hj <;> rfl
    | routerToHost =>
      refine (hs.popFrame hs.host hG).bind ?_
      rintro ⟨f, router⟩ ⟨hf, hclean, hlen, hothers⟩
      refine (s.frameFd.write_outcome _ a.write _).bind ?_
      rintro _ rfl
      refine ⟨⟨hclean, hlen ▸ hs.host, hlen ▸ hs.internet, hs.apart, ?_, hs.toInternet⟩,
        .inr (.inl ?_), fun j hj hGj => ?_⟩
      · intro b hb
        rcases List.mem_append.mp hb with hb | hb
        · exact hs.toHost b hb
        · exact List.mem_singleton.mp hb ▸ hf
      · simp [Rule.serviceCount, rule, FDWrapper.registerWrite]
      · cases j with
        | routerToHost => exact absurd rfl hj
        | hostToRouter | internetToRouter => trivial
        | routerToInternet =>
          simp only [Guard, hothers _ hs.apart]
          exact hGj
    | routerToInternet =>
      refine (hs.popFrame hs.internet hG).bind ?_
      rintro ⟨f, router⟩ ⟨hf, hclean, hlen, hothers⟩
      refine (s.internetSocket.write_outcome _ a.write _).bind ?_
      rintro _ rfl
      refine ⟨⟨hclean, hlen ▸ hs.host, hlen ▸ hs.internet, hs.apart, hs.toHost, ?_⟩,
        .inr (.inl ?_), fun j hj hGj => ?_⟩
      · intro w hw
        rcases List.mem_append.mp hw with hw | hw
        · exact hs.toInternet w hw
        · exact List.mem_singleton.mp hw ▸ .inr hf
      · simp [Rule.serviceCount, rule, FDWrapper.registerWrite]
      · cases j with
        | routerToInternet => exact absurd rfl hj
        | hostToRouter | internetToRouter => trivial
        | routerToHost =>
          simp only [Guard, hothers _ hs.apart.symm]
          exact hGj

theorem Clean.tick {s : Lab7Network} (h : s.Clean V) (ms : ℕ) :
    Outcome Raised.FromKernel (Clean V) (s.tick ms) := by
  refine (raise_outcome (h.router.tick h.host ms)).bind fun r hr => ?_
  refine (raise_outcome (hr.clean.tick (hr.length ▸ h.internet) ms)).bind fun r' hr' => ?_
  exact (h.passed hr).passed hr'

theorem Clean.mono {V' : Address → Address → TCPSegment → Prop}
    (hV : ∀ a b g, V a b g → V' a b g) {s : Lab7Network} (h : s.Clean V) : s.Clean V' where
  router := h.router.mono hV
  host := h.host
  internet := h.internet
  apart := h.apart
  toHost b hb := (h.toHost b hb).mono hV
  toInternet w hw := (h.toInternet w hw).imp id (·.mono hV)

end Lab7Network

namespace NetworkThread

/-- A turn of the thread in which only what is good arrives. -/
def Hears (V : Address → Address → TCPSegment → Prop) (input : NetworkInput) : Prop :=
  ∀ revents, input.poll = .polled revents → ∀ i k, (revents i).ready = some k →
    Lab7Network.Arrives V k

structure Runs (V : Address → Address → TCPSegment → Prop) (t : NetworkThread) : Prop where
  clean : t.network.Clean V
  rules : t.rules <+ Lab7Network.rules

theorem Runs.step {t : NetworkThread} (h : t.Runs V) {input : NetworkInput} (hin : Hears V input) :
    Outcome Raised.FromKernel (Runs V) (t.step input) := by
  refine Outcome.ite (fun _ => ?_) fun _ => h
  have hnodup : t.rules.Nodup := List.Nodup.sublist h.rules (by decide)
  refine (Lab7Network.serves.waitNextEvent hin hnodup h.clean).bind ?_
  rintro ⟨ret, rules, network⟩ ⟨hclean, hsub⟩
  have hrules := hsub.trans h.rules
  refine Outcome.ite (fun _ => ⟨hclean, hrules⟩) fun _ => ?_
  exact (hclean.tick 50).bind fun network' hclean' => ⟨hclean', hrules⟩

end NetworkThread

/-- A segment of `gs`, from `source` to where `To` says. -/
def Said (source : Address) (To : Address → Prop) (gs : List TCPSegment) (a b : Address)
    (seg : TCPSegment) : Prop :=
  a = source ∧ To b ∧ ∃ g ∈ gs, g.bare = seg

theorem Said.mono {source : Address} {To To' : Address → Prop} {gs gs' : List TCPSegment}
    (hTo : ∀ b, To b → To' b) (hgs : gs ⊆ gs') (a b : Address) (seg : TCPSegment)
    (h : Said source To gs a b seg) : Said source To' gs' a b seg := by
  obtain ⟨ha, hb, g, hg, hbare⟩ := h
  exact ⟨ha, hTo b hb, g, hgs hg, hbare⟩

theorem TCPOverIPv4Adapter.unwrapTcpInIp_port {a a' : TCPOverIPv4Adapter} {d : IPv4Datagram}
    {o : Option TCPSegment} (h : a.unwrapTcpInIp d = .ok (o, a')) :
    a'.config.source.port = a.config.source.port := by
  unfold unwrapTcpInIp at h
  rcases ite_eq_ok h with hnone | ⟨-, h⟩
  · rw [(Prod.mk.inj hnone).2]
  rcases ite_eq_ok h with hnone | ⟨-, h⟩
  · rw [(Prod.mk.inj hnone).2]
  rcases ite_eq_ok h with hnone | ⟨-, h⟩
  · rw [(Prod.mk.inj hnone).2]
  obtain ⟨b, -, h⟩ := bind_eq_ok h
  dsimp only at h
  split_ifs at h <;> cases h <;> rfl

namespace TCPOverIPv4OverEthernetAdapter

/-- An adapter that speaks from `source`: to `peer`, or, while it listens, to `unset`. What it
sends is `gs`; `May` is asked of its surroundings while it listens. -/
structure Speaks (source peer unset : Address) (May : Prop) (gs : List TCPSegment)
    (a : TCPOverIPv4OverEthernetAdapter) : Prop where
  clean : a.Clean (Said source (fun b => b = a.config.destination ∨ b = unset) gs)
  source_eq : a.config.source = source
  talks : (a.listening = true ∧ a.config.destination = unset ∧ May) ∨
    (a.listening = false ∧ a.config.destination = peer)

/-- What is on a network where `source` speaks to `To`, and `peer` to `To'`. -/
def Between (source : Address) (To : Address → Prop) (gs : List TCPSegment) (peer : Address)
    (To' : Address → Prop) (gs' : List TCPSegment) (a b : Address) (seg : TCPSegment) : Prop :=
  Said source To gs a b seg ∨ Said peer To' gs' a b seg

variable {source peer unset : Address} {May : Prop} {gs gs₀ gs' : List TCPSegment}
  {To To' : Address → Prop} {a a' : TCPOverIPv4OverEthernetAdapter}

theorem Speaks.same (h : a.Speaks source peer unset May gs)
    (hsame : a'.toTCPOverIPv4Adapter = a.toTCPOverIPv4Adapter)
    (hclean : a'.Clean (Said source (fun b => b = a.config.destination ∨ b = unset) gs')) :
    a'.Speaks source peer unset May gs' := by
  have hconfig : a'.config = a.config := congrArg (·.config) hsame
  have hlisten : a'.listening = a.listening := congrArg (·.listening) hsame
  exact ⟨hconfig ▸ hclean, hconfig ▸ h.source_eq, hlisten ▸ hconfig ▸ h.talks⟩

/-- Of what `peer` says to it the adapter takes nothing else, and a listening one comes to speak
to `peer`. -/
theorem Speaks.takes (h : a.Speaks source peer unset May gs) (hne : source ≠ peer)
    (hmay : May → (∀ b, To b → b = unset) ∧ unset.port ≠ source.port ∧ ∀ b, To' b → b = source)
    {writes : Writes} {b : Buffer} (hb : FrameBytes (Between source To gs₀ peer To' gs') b)
    {seg : TCPSegment} (hread : a.read writes (some b) = .ok (some seg, a')) :
    a'.Speaks source peer unset May gs ∧ ∃ g ∈ gs', g.bare = seg.bare := by
  obtain ⟨hclean, -, ⟨hnone, -⟩ | ⟨b', f, d, i, -, -, -, hunwrap⟩⟩ :=
    (h.clean.read writes (some b)).of_ok hread
  · cases hnone
  rcases TCPOverIPv4Adapter.unwrapTcpInIp_spec hunwrap with ⟨hnone, -⟩ | ⟨seg', -, htakes⟩
  · cases hnone
  have hport := TCPOverIPv4Adapter.unwrapTcpInIp_port hunwrap
  have hsaid := read_good hb hread
  rcases h.talks with ⟨hlisten, hunset, hwill⟩ | ⟨hlisten, hpeer⟩
  · obtain ⟨hTo, hdiff, hTo'⟩ := hmay hwill
    rcases hsaid with ⟨-, hto, -⟩ | ⟨hfrom, hto, hseg⟩
    · rw [hTo _ hto, h.source_eq] at hport
      exact absurd hport hdiff
    · refine ⟨⟨hclean.mono (Said.mono (fun b hb => ?_) fun _ => id), hTo' _ hto,
        .inr ⟨htakes.off, hfrom⟩⟩, hseg⟩
      rw [hunset, or_self] at hb
      exact .inr hb
  · have hsame := htakes.kept hlisten
    have hconfig : a'.config = a.config := congrArg (·.config) hsame
    rw [hconfig, hpeer, h.source_eq] at hsaid
    refine ⟨h.same hsame hclean, ?_⟩
    rcases hsaid with ⟨hfrom, -⟩ | ⟨-, -, hseg⟩
    · exact absurd hfrom.symm hne
    · exact hseg

/-- On a network where only the two speak, an adapter of the one gets what the other has said. -/
theorem Speaks.robust (gs₀ gs' : List TCPSegment) (hne : source ≠ peer)
    (hmay : May → (∀ b, To b → b = unset) ∧ unset.port ≠ source.port ∧ ∀ b, To' b → b = source) :
    Robust TCPOverIPv4OverEthernetAdapter
      (fun o => ∀ b ∈ o, FrameBytes (Between source To gs₀ peer To' gs') b) (· ∈ gs')
      (fun gs a => a.Speaks source peer unset May gs ∧ gs₀ ⊆ gs) where
  read {gs a} writes {o} ha ho := by
    obtain ⟨h, hsub⟩ := ha
    have hread := h.clean.read writes o
    cases hres : FdAdapter.read a writes o with
    | error e => exact hread.of_error hres
    | ok r =>
      obtain ⟨seg, a'⟩ := r
      obtain ⟨hclean, hcount, hcases⟩ := hread.of_ok hres
      cases seg with
      | some seg =>
        cases o with
        | none => cases hres
        | some b =>
          obtain ⟨hspeaks, hseg⟩ := h.takes hne hmay (ho b rfl) hres
          exact ⟨⟨hspeaks, hsub⟩, hcount, fun _ hsome => by cases hsome; exact hseg⟩
      | none =>
        have hsame : a'.toTCPOverIPv4Adapter = a.toTCPOverIPv4Adapter := by
          rcases hcases with ⟨-, hsame⟩ | ⟨b, f, d, i, -, -, -, hunwrap⟩
          · exact hsame
          · rcases TCPOverIPv4Adapter.unwrapTcpInIp_spec hunwrap with ⟨-, hsame⟩ | ⟨seg, hsome, -⟩
            · exact hsame
            · cases hsome
        exact ⟨⟨h.same hsame hclean, hsub⟩, hcount, fun _ hsome => by cases hsome⟩
  write {gs a g} writes ha hg := by
    obtain ⟨h, hsub⟩ := ha
    have hgrow : gs ⊆ gs ++ [g] := List.subset_append_left _ _
    have hclean := h.clean.mono (Said.mono (fun _ => id) hgrow)
    have hV : Said source (fun b => b = a.config.destination ∨ b = unset) (gs ++ [g])
        a.config.source a.config.destination g.bare := ⟨h.source_eq, .inl rfl, g, by simp, rfl⟩
    refine (hclean.write writes hg hV).mono ?_
    rintro a' ⟨hclean', hsame⟩
    exact ⟨h.same hsame hclean', List.Subset.trans hsub hgrow⟩
  tick {gs a} writes ms ha := by
    obtain ⟨h, hsub⟩ := ha
    refine (h.clean.tick writes ms).mono ?_
    rintro a' ⟨hclean, hsame⟩
    exact ⟨h.same hsame hclean, hsub⟩

/-- What the adapter has said in the course of a turn stays said. -/
theorem Speaks.to_mono (h : a.Speaks source peer unset May gs)
    (h' : a'.Speaks source peer unset (May ∧ a.listening = true) gs') (b : Address)
    (hb : b = a.config.destination ∨ b = unset) : b = a'.config.destination ∨ b = unset := by
  rcases hb with rfl | rfl
  · rcases h.talks with ⟨-, hunset, -⟩ | ⟨hlisten, hpeer⟩
    · exact .inr hunset
    · rcases h'.talks with ⟨-, -, -, hon⟩ | ⟨-, hpeer'⟩
      · simp [hlisten] at hon
      · exact .inl (hpeer.trans hpeer'.symm)
  · exact .inr rfl

theorem Speaks.imp {May' : Prop} (h : a.Speaks source peer unset May gs)
    (hMay : a.listening = true → May → May') : a.Speaks source peer unset May' gs :=
  ⟨h.clean, h.source_eq, h.talks.imp (fun ⟨hon, hunset, hmay⟩ => ⟨hon, hunset, hMay hon hmay⟩) id⟩

end TCPOverIPv4OverEthernetAdapter

open TCPOverIPv4OverEthernetAdapter

theorem SocketThread.Runs.imp {α : Type} {Holds Holds' : List TCPSegment → α → Prop}
    {t : SocketThread α} {sent : List TCPSegment} {e : Endpoint} (h : t.Runs Holds sent e)
    (himp : Holds sent t.socket.datagramAdapter → Holds' sent t.socket.datagramAdapter) :
    t.Runs Holds' sent e :=
  ⟨⟨h.tied.endpoint, himp h.tied.holds, h.tied.ended, h.tied.closed⟩, h.sound, h.rules⟩

/-- Where an adapter has sent to. -/
def SocketThread.To (unset : Address) (t : SocketThread NetworkInterfaceAdapter) (b : Address) :
    Prop :=
  b = t.socket.datagramAdapter.config.destination ∨ b = unset

namespace Lab7

/-- What is on the network of two hosts. -/
def Traffic (source peer unset unset' : Address) (m m' : Lab7) (sent sent' : List TCPSegment) :
    Address → Address → TCPSegment → Prop :=
  Between source (m.sock.To unset) sent peer (m'.sock.To unset') sent'

/-- Two hosts, one at `source` and the other at `peer`, whose connections are two connections over
a network, and whose routers pass on only what these two have said. -/
def Joined (source peer unset unset' : Address) (May May' : Prop) (m m' : Lab7) : Prop :=
  ∃ sent e sent' e', m.sock.Runs (Speaks source peer unset May) sent e ∧
    m'.sock.Runs (Speaks peer source unset' May') sent' e' ∧ Paired e e' ∧
    m.network.Runs (Traffic source peer unset unset' m m' sent sent') ∧
    m'.network.Runs (Traffic source peer unset unset' m m' sent sent')

end Lab7

theorem NetworkThread.Runs.mono {V' : Address → Address → TCPSegment → Prop}
    (hV : ∀ a b g, V a b g → V' a b g) {t : NetworkThread} (h : t.Runs V) : t.Runs V' :=
  ⟨h.clean.mono hV, h.rules⟩

namespace Lab7

variable {source peer unset unset' : Address} {May May' : Prop} {m m' : Lab7}

theorem Joined.symm (h : Joined source peer unset unset' May May' m m') :
    Joined peer source unset' unset May' May m' m := by
  obtain ⟨sent, e, sent', e', hruns, hruns', hpaired, hnet, hnet'⟩ := h
  have hswap : ∀ a b g, Traffic source peer unset unset' m m' sent sent' a b g →
      Traffic peer source unset' unset m' m sent' sent a b g := fun _ _ _ => Or.symm
  exact ⟨sent', e', sent, e, hruns', hruns, hpaired.symm, hnet'.mono hswap, hnet.mono hswap⟩

/-- What may reach the threads of `m`: frames pass between its socket and its router, and packets
come from the router of `m'`. -/
def Hears (m m' : Lab7) : Lab7Input → Prop
  | .sock input => ∀ revents, input.poll = .polled revents → ∀ i k, (revents i).ready = some k →
      ∀ b ∈ k.datagram, b ∈ m.network.network.frameFd.sent
  | .network input => ∀ revents, input.poll = .polled revents → ∀ i k, (revents i).ready = some k →
      (∀ b ∈ k.frame, b ∈ m.sock.socket.datagramAdapter.tap.sent) ∧
        ∀ b ∈ k.packet, ∃ w ∈ m'.network.network.internetSocket.sent, w.2 = b

theorem Joined.sock (h : Joined source peer unset unset' May May' m m') (hne : source ≠ peer)
    (hmay : May → unset.port ≠ source.port ∧ unset' = source ∧ ¬May') {input : LoopInput Buffer Writes}
    (hin : Hears m m' (.sock input)) :
    Outcome Raised.FromKernel (fun m₁ => Joined source peer unset unset' May May' m₁ m')
      (m.step (.sock input)) := by
  obtain ⟨sent, e, sent', e', hruns, hruns', hpaired, hnet, hnet'⟩ := h
  have hspeaks := hruns.tied.holds
  have hspeaks' := hruns'.tied.holds
  set listening : Prop := m.sock.socket.datagramAdapter.listening = true with hlistening
  have hmay : May ∧ listening → (∀ b, m.sock.To unset b → b = unset) ∧
      unset.port ≠ source.port ∧ ∀ b, m'.sock.To unset' b → b = source := by
    rintro ⟨hM, hon⟩
    obtain ⟨hport, rfl, hM'⟩ := hmay hM
    refine ⟨fun b hb => hb.elim (fun hb => hb.trans ?_) id, hport,
      fun b hb => hb.elim (fun hb => hb.trans ?_) id⟩
    · exact (hspeaks.talks.resolve_right fun hoff => by simp [hlistening, hoff.1] at hon).2.1
    · exact (hspeaks'.talks.resolve_left fun hM'' => hM' hM''.2.2).2
  have hrobust := Speaks.robust sent sent' hne hmay
  have hstart : m.sock.Runs (fun gs a =>
      a.Speaks source peer unset (May ∧ listening) gs ∧ sent ⊆ gs) sent e :=
    hruns.imp fun h => ⟨h.imp fun hon hM => ⟨hM, hon⟩, fun _ => id⟩
  refine (hstart.step hrobust hruns'.mem_out hpaired fun revents hpoll i k hk b hb =>
    hnet.clean.toHost b (hin revents hpoll i k hk b hb)).bind ?_
  rintro t ⟨sent₁, e₁, hruns₁, hpaired₁⟩
  obtain ⟨hspeaks₁, hsub⟩ := hruns₁.tied.holds
  have hgrow : ∀ a b g, Traffic source peer unset unset' m m' sent sent' a b g →
      Traffic source peer unset unset' { m with sock := t } m' sent₁ sent' a b g := fun a b g =>
    Or.imp (Said.mono (hspeaks.to_mono hspeaks₁) hsub a b g) id
  refine ⟨sent₁, e₁, sent', e', hruns₁.imp fun h => h.1.imp fun _ => And.left, hruns', hpaired₁,
    hnet.mono hgrow, hnet'.mono hgrow⟩

theorem Joined.network (h : Joined source peer unset unset' May May' m m') {input : NetworkInput}
    (hin : Hears m m' (.network input)) :
    Outcome Raised.FromKernel (fun m₁ => Joined source peer unset unset' May May' m₁ m')
      (m.step (.network input)) := by
  obtain ⟨sent, e, sent', e', hruns, hruns', hpaired, hnet, hnet'⟩ := h
  refine (hnet.step fun revents hpoll i k hk => ?_).bind fun t ht =>
    ⟨sent, e, sent', e', hruns, hruns', hpaired, ht, hnet'⟩
  obtain ⟨hframe, hpacket⟩ := hin revents hpoll i k hk
  refine ⟨fun b hb => (hruns.tied.holds.clean.sent b (hframe b hb)).mono fun _ _ _ => .inl,
    fun b hb => ?_⟩
  obtain ⟨w, hw, rfl⟩ := hpacket b hb
  exact hnet'.clean.toInternet w hw

theorem Joined.step (h : Joined source peer unset unset' May May' m m') (hne : source ≠ peer)
    (hmay : May → unset.port ≠ source.port ∧ unset' = source ∧ ¬May') {input : Lab7Input}
    (hin : Hears m m' input) :
    Outcome Raised.FromKernel (fun m₁ => Joined source peer unset unset' May May' m₁ m')
      (m.step input) := by
  cases input with
  | sock input => exact h.sock hne hmay hin
  | network input => exact h.network hin

/-- A host as `program_body` sets it up. -/
structure Fresh (isClient : Bool) (d : Draws) (m : Lab7) : Prop where
  sock : openSocket isClient d = .ok m.sock
  router : m.network.network.router = if isClient then clientRouter d else serverRouter d
  hostSide : m.network.network.hostSide = 0
  internetSide : m.network.network.internetSide = 1
  toHost : m.network.network.frameFd.sent = []
  toInternet : ∀ w ∈ m.network.network.internetSocket.sent, w.2 = []
  rules : m.network.rules = Lab7Network.rules

/-- The address the client connects from. -/
def clientAddress (d : Draws) : Address := ⟨ipv4 192 168 0 50, d.port⟩

theorem openSocket_client (d : Draws) : openSocket true d =
    SocketThread.connect (clientSocket d).adapter d.isn {}
      { source := clientAddress d, destination := serverAddress } := by
  simp only [openSocket, if_true, TCPSocketLab7.connect]
  rfl

theorem openSocket_server (d : Draws) : openSocket false d =
    .ok (SocketThread.listenAndAccept (serverSocket d).adapter d.isn {}
      { source := serverAddress }) := by
  have hbind : (serverSocket d).bind serverAddress =
      .ok { serverSocket d with localAddress := serverAddress } := if_neg (not_not.mpr rfl)
  simp only [openSocket, hbind, ok_bind]
  rfl

theorem openSocket_ok (isClient : Bool) (d : Draws) : ∃ t, openSocket isClient d = .ok t := by
  cases isClient with
  | true =>
    rw [openSocket_client]
    exact ⟨_, SocketThread.connect_eq _ _ _ _⟩
  | false => exact ⟨_, openSocket_server d⟩

theorem programBody_outcome (isClient : Bool) (bounceAddress : Address) (d : Draws)
    (writes : Writes) : Outcome Raised.FromKernel (Fresh isClient d)
      (programBody isClient bounceAddress d writes) := by
  refine (Device.write_outcome _ _ (writes 0) _).bind ?_
  rintro _ rfl
  refine (Device.write_outcome _ _ (writes 1) _).bind ?_
  rintro _ rfl
  refine (Device.write_outcome _ _ (writes 2) _).bind ?_
  rintro _ rfl
  obtain ⟨t, ht⟩ := openSocket_ok isClient d
  simp only [ht, ok_bind]
  exact ⟨ht, rfl, rfl, rfl, rfl, by simp, rfl⟩

theorem Fresh.network {isClient : Bool} {d : Draws} {m : Lab7} (h : m.Fresh isClient d) :
    m.network.Runs V := by
  have hclean : m.network.network.router.Clean V ∧
      m.network.network.router.interfaces.length = 2 := by
    rw [h.router]
    cases isClient with
    | true =>
      exact ⟨Router.Clean.new (by simp) (by simp), by simp [clientRouter, Router.addRoutes_interfaces]⟩
    | false =>
      exact ⟨Router.Clean.new (by simp) (by simp), by simp [serverRouter, Router.addRoutes_interfaces]⟩
  refine ⟨⟨hclean.1, ?_, ?_, ?_, ?_, fun w hw => .inl (h.toInternet w hw)⟩, h.rules ▸ .refl _⟩
  · rw [h.hostSide, hclean.2]
    decide
  · rw [h.internetSide, hclean.2]
    decide
  · rw [h.hostSide, h.internetSide]
    decide
  · rw [h.toHost]
    exact List.forall_mem_nil _

theorem new_speaks {gs : List TCPSegment} {a : NetworkInterfaceAdapter} (hsent : a.tap.sent = [])
    (hnew : ∃ ethernetAddress ipAddress, a.interface = { ethernetAddress, ipAddress })
    (hsource : a.config.source = source)
    (htalks : (a.listening = true ∧ a.config.destination = unset ∧ May) ∨
      (a.listening = false ∧ a.config.destination = peer)) : a.Speaks source peer unset May gs := by
  obtain ⟨ethernetAddress, ipAddress, hinterface⟩ := hnew
  refine ⟨⟨hinterface ▸ .new ethernetAddress ipAddress, ?_⟩, hsource, htalks⟩
  rw [hsent]
  exact List.forall_mem_nil _

theorem Fresh.joined {d d' : Draws} (h : m.Fresh true d) (h' : m'.Fresh false d') :
    Joined (clientAddress d) serverAddress serverAddress ⟨0, 0⟩ False True m m' := by
  have hclient : (FdAdapter.configure (clientSocket d).adapter
      { source := clientAddress d, destination := serverAddress }).Speaks (clientAddress d)
      serverAddress serverAddress False [] :=
    new_speaks rfl ⟨_, _, rfl⟩ rfl (.inr ⟨rfl, rfl⟩)
  have hserver : (FdAdapter.setListening (FdAdapter.configure (serverSocket d').adapter
      { source := serverAddress }) true).Speaks serverAddress (clientAddress d) ⟨0, 0⟩ True [] :=
    new_speaks rfl ⟨_, _, rfl⟩ rfl (.inl ⟨rfl, rfl, trivial⟩)
  have hsock := h.sock
  rw [openSocket_client] at hsock
  obtain ⟨hserving, hrules⟩ := SocketThread.connect_serving hclient (fun _ => False) hsock
  obtain ⟨sent, e, hruns, hreach⟩ := hserving.runs hrules
  have hsock' := h'.sock
  rw [openSocket_server, Except.ok.injEq] at hsock'
  have hserving' := SocketThread.listen_serving hserver (fun _ => False) d'.isn {}
  rw [hsock'] at hserving'
  have hrules' : m'.sock.rules <+ TCPSpongeSocket.rules := hsock' ▸ .refl _
  obtain ⟨sent', e', hruns', hreach'⟩ := hserving'.runs hrules'
  exact ⟨sent, e, sent', e', hruns, hruns', hreach.paired hreach', h.network, h'.network⟩

end Lab7

namespace Lab7Pair

def here (p : Lab7Pair) : Side → Lab7
  | .left => p.client
  | .right => p.server

def across (p : Lab7Pair) : Side → Lab7
  | .left => p.server
  | .right => p.client

/-- What reaches a host in one turn of one of its threads. -/
def Heard (p : Lab7Pair) (turn : Side × Lab7Input) : Prop :=
  (p.here turn.1).Hears (p.across turn.1) turn.2

def Short (p : Lab7Pair) : Prop :=
  ∀ side, (p.here side).sock.socket.tcp.sender.nextSeqno < 2 ^ 31

def Coupled (d : Lab7.Draws) (p : Lab7Pair) : Prop :=
  Lab7.Joined (Lab7.clientAddress d) Lab7.serverAddress Lab7.serverAddress
    ⟨0, 0⟩ False True p.client p.server

theorem clientAddress_ne (d : Lab7.Draws) : Lab7.clientAddress d ≠ Lab7.serverAddress := fun h =>
  absurd (congrArg Address.ipv4Numeric h)
    (show ipv4 192 168 0 50 ≠ ipv4 172 16 0 100 from by decide)

theorem Coupled.step {d : Lab7.Draws} {p : Lab7Pair} (h : p.Coupled d) (turn : Side × Lab7Input)
    (hturn : p.Heard turn) : Outcome Raised.FromKernel (Coupled d) (p.step turn) := by
  obtain ⟨side, input⟩ := turn
  cases side with
  | left =>
    exact (Lab7.Joined.step h (clientAddress_ne d) False.elim hturn).bind fun _ hm => hm
  | right =>
    refine (Lab7.Joined.step h.symm (clientAddress_ne d).symm (fun _ => ⟨by decide, rfl, id⟩)
      hturn).bind fun _ hm => hm.symm

/-- A client and a server that were set up stay coupled, and stop only at the kernel. -/
theorem exec_coupled {d d' : Lab7.Draws} {p : Lab7Pair} (hclient : p.client.Fresh true d)
    (hserver : p.server.Fresh false d') {turns : List (Side × Lab7Input)}
    (hturns : Each step Heard p turns) :
    Outcome Raised.FromKernel (Coupled d) (exec step p turns) :=
  Outcome.exec (fun _ turn hp hturn => Coupled.step hp turn hturn) (hclient.joined hserver) hturns

end Lab7Pair

/-- The whole of the program, a client and a server, each with its router, over an Internet that
may lose, repeat, delay and reorder the packets of the two routers: after every interleaving of
turns of the four threads, with fewer than 2^31 sequence numbers used in each direction, the owner
of each socket has been given a first part of what the other owner has written, in order; an owner
that is told of the end without an error has been given everything. -/
theorem lab7_streams (bounceAddress bounceAddress' : Address) (d d' : Lab7.Draws)
    (writes writes' : Writes) (p₀ p : Lab7Pair)
    (hclient : Lab7.programBody true bounceAddress d writes = .ok p₀.client)
    (hserver : Lab7.programBody false bounceAddress' d' writes' = .ok p₀.server)
    (turns : List (Side × Lab7Input)) (hturns : Each Lab7Pair.step Lab7Pair.Heard p₀ turns)
    (hrun : exec Lab7Pair.step p₀ turns = .ok p) (hshort : p.Short) (side : Side) :
    (p.here side).sock.socket.Conveys (p.across side).sock.socket := by
  have hfresh := (Lab7.programBody_outcome true bounceAddress d writes).of_ok hclient
  have hfresh' := (Lab7.programBody_outcome false bounceAddress' d' writes').of_ok hserver
  obtain ⟨sent, e, sent', e', hruns, hruns', hpaired, -, -⟩ :=
    (Lab7Pair.exec_coupled hfresh hfresh' hturns).of_ok hrun
  cases side with
  | left => exact hruns.conveys hruns' hpaired (hshort .left) (hshort .right)
  | right => exact hruns'.conveys hruns hpaired.symm (hshort .right) (hshort .left)

/-- A turn in which one rule of one thread is ready. -/
inductive Lab7Move where
  | sock (rule : ℕ) (bytes : Buffer)
  | network (rule : ℕ)

namespace Lab7Pair

/-- The turn a move stands for: what arrives is what was sent last. -/
def turn (p : Lab7Pair) : Side × Lab7Move → Side × Lab7Input
  | (side, .sock rule bytes) => (side, .sock {
      poll := .polled fun i => if i = rule then { ready := some {
        datagram := (p.here side).network.network.frameFd.sent.getLast?
        bytes := some bytes
        taken := some 1
        adapter := fun _ _ => some () } } else {}
      adapter := fun _ => some () })
  | (side, .network rule) => (side, .network {
      poll := .polled fun i => if i = rule then { ready := some {
        frame := (p.here side).sock.socket.datagramAdapter.tap.sent.getLast?
        packet := (p.across side).network.network.internetSocket.sent.getLast?.map Prod.snd } }
        else {} })

def script : Lab7Pair → List (Side × Lab7Move) → List (Side × Lab7Input)
  | _, [] => []
  | p, move :: moves =>
    p.turn move :: match p.step (p.turn move) with
      | .ok p' => script p' moves
      | .error _ => []

theorem heard_turn (p : Lab7Pair) (move : Side × Lab7Move) : p.Heard (p.turn move) := by
  obtain ⟨side, move⟩ := move
  cases move with
  | sock rule bytes =>
    intro revents hpoll i k hk b hb
    cases hpoll
    simp only at hk
    split_ifs at hk
    cases hk
    exact List.mem_of_getLast? hb
  | network rule =>
    intro revents hpoll i k hk
    cases hpoll
    simp only at hk
    split_ifs at hk
    cases hk
    refine ⟨fun b hb => List.mem_of_getLast? hb, fun b hb => ?_⟩
    obtain ⟨w, hw, rfl⟩ := Option.map_eq_some_iff.mp hb
    exact ⟨w, List.mem_of_getLast? hw, rfl⟩

theorem script_heard (moves : List (Side × Lab7Move)) (p : Lab7Pair) :
    Each step Heard p (p.script moves) := by
  induction moves generalizing p with
  | nil => trivial
  | cons move moves ih =>
    refine ⟨p.heard_turn move, fun p' hp' => ?_⟩
    simp only [hp']
    exact ih p'

end Lab7Pair

/-- The client's socket asks for its router, the router for the other router, and that one for the
server; then the connection is set up, and a byte goes all the way to the server's owner. -/
theorem lab7_streams_byte :
    let d : Lab7.Draws := {
      hostSideAddress := ⟨[2, 0, 0, 0, 0, 1], rfl⟩
      internetSideAddress := ⟨[2, 0, 0, 0, 0, 2], rfl⟩
      hostAddress := ⟨[2, 0, 0, 0, 0, 3], rfl⟩
      port := 10
      isn := ⟨7⟩ }
    let d' : Lab7.Draws := {
      hostSideAddress := ⟨[2, 0, 0, 0, 0, 4], rfl⟩
      internetSideAddress := ⟨[2, 0, 0, 0, 0, 5], rfl⟩
      hostAddress := ⟨[2, 0, 0, 0, 0, 6], rfl⟩
      port := 0
      isn := ⟨9⟩ }
    ∃ p₀ turns p, Lab7.programBody true ⟨1, 1⟩ d (fun _ => some ()) = .ok p₀.client ∧
      Lab7.programBody false ⟨1, 1⟩ d' (fun _ => some ()) = .ok p₀.server ∧
      exec Lab7Pair.step p₀ turns = .ok p ∧ p.client.sock.socket.fromOwner = [1, 2] ∧
      p.server.sock.socket.toOwner = [1] ∧
      p.client.sock.socket.Conveys p.server.sock.socket := by
  intro d d'
  let send : Lab7Move := .sock 3 []
  let hear : Lab7Move := .sock 0 []
  let fromHost : Lab7Move := .network 0
  let toHost : Lab7Move := .network 1
  let toNet : Lab7Move := .network 2
  let fromNet : Lab7Move := .network 3
  let moves : List (Side × Lab7Move) :=
    [(.left, send), (.left, fromHost), (.left, toHost), (.left, hear), (.left, fromHost),
      (.left, toNet), (.right, fromNet), (.right, toNet), (.left, fromNet), (.left, toNet),
      (.right, fromNet), (.right, toHost), (.right, hear), (.right, fromHost), (.right, toHost),
      (.right, hear), (.right, send), (.right, fromHost), (.right, toNet), (.left, fromNet),
      (.left, toHost), (.left, hear), (.left, send), (.left, .sock 1 [1, 2]), (.left, send),
      (.left, fromHost), (.left, toNet), (.right, fromNet), (.right, toHost), (.right, hear),
      (.right, send), (.right, .sock 2 [])]
  have hcheck : (do
      let client ← Lab7.programBody true ⟨1, 1⟩ d (fun _ => some ())
      let server ← Lab7.programBody false ⟨1, 1⟩ d' (fun _ => some ())
      let p ← exec Lab7Pair.step ⟨client, server⟩ (Lab7Pair.script ⟨client, server⟩ moves)
      .ok (decide (p.client.sock.socket.fromOwner = [1, 2] ∧
        p.server.sock.socket.toOwner = [1] ∧
        p.client.sock.socket.tcp.sender.nextSeqno < 2 ^ 31 ∧
        p.server.sock.socket.tcp.sender.nextSeqno < 2 ^ 31))) = Except.ok true := by
    decide +kernel
  obtain ⟨client, hclient, hcheck⟩ := bind_eq_ok hcheck
  obtain ⟨server, hserver, hcheck⟩ := bind_eq_ok hcheck
  obtain ⟨p, hrun, hcheck⟩ := bind_eq_ok hcheck
  rw [Except.ok.injEq, decide_eq_true_eq] at hcheck
  obtain ⟨hfrom, hto, hshort, hshort'⟩ := hcheck
  refine ⟨⟨client, server⟩, _, p, hclient, hserver, hrun, hfrom, hto, ?_⟩
  refine lab7_streams ⟨1, 1⟩ ⟨1, 1⟩ d d' _ _ ⟨client, server⟩ p hclient hserver _
    (Lab7Pair.script_heard moves _) hrun ?_ .left
  rintro (_ | _)
  · exact hshort
  · exact hshort'

/-- The same, for what goes wrong: no thread of the program raises an exception of its own, while
the routers' packets are all that comes from the Internet. -/
theorem lab7_raises_only_from_kernel (bounceAddress bounceAddress' : Address) (d d' : Lab7.Draws)
    (writes writes' : Writes) (e : Raised) :
    (∀ isClient, Lab7.programBody isClient bounceAddress d writes = .error e → e.FromKernel) ∧
    ∀ p₀ : Lab7Pair, Lab7.programBody true bounceAddress d writes = .ok p₀.client →
      Lab7.programBody false bounceAddress' d' writes' = .ok p₀.server →
      ∀ turns, Each Lab7Pair.step Lab7Pair.Heard p₀ turns →
        exec Lab7Pair.step p₀ turns = .error e → e.FromKernel := by
  refine ⟨fun isClient => (Lab7.programBody_outcome isClient bounceAddress d writes).of_error, ?_⟩
  intro p₀ hclient hserver turns hturns
  have hfresh := (Lab7.programBody_outcome true bounceAddress d writes).of_ok hclient
  have hfresh' := (Lab7.programBody_outcome false bounceAddress' d' writes').of_ok hserver
  exact (Lab7Pair.exec_coupled hfresh hfresh' hturns).of_error

/-- The poll of the client's router fails in its first turn. -/
theorem lab7_raises_only_from_kernel_poll :
    let d : Lab7.Draws := {
      hostSideAddress := ⟨[2, 0, 0, 0, 0, 1], rfl⟩
      internetSideAddress := ⟨[2, 0, 0, 0, 0, 2], rfl⟩
      hostAddress := ⟨[2, 0, 0, 0, 0, 3], rfl⟩
      port := 10
      isn := ⟨7⟩ }
    let turn : Side × Lab7Input := (.left, .network { poll := .polled fun _ => { error := true } })
    ∃ p₀ : Lab7Pair, Lab7.programBody true ⟨1, 1⟩ d (fun _ => some ()) = .ok p₀.client ∧
      Lab7.programBody false ⟨1, 1⟩ d (fun _ => some ()) = .ok p₀.server ∧
      exec Lab7Pair.step p₀ [turn] = .error pollError ∧ pollError.FromKernel := by
  intro d turn
  have hcheck : (do
      let client ← Lab7.programBody true ⟨1, 1⟩ d (fun _ => some ())
      let server ← Lab7.programBody false ⟨1, 1⟩ d (fun _ => some ())
      .ok (match exec Lab7Pair.step ⟨client, server⟩ [turn] with
        | .error e => decide (e = pollError)
        | .ok _ => false)) = Except.ok (ε := Raised) true := by decide +kernel
  obtain ⟨client, hclient, hcheck⟩ := bind_eq_ok hcheck
  obtain ⟨server, hserver, hcheck⟩ := bind_eq_ok hcheck
  have hrun : exec Lab7Pair.step ⟨client, server⟩ [turn] = .error pollError := by
    have hcheck := Except.ok.inj hcheck
    split at hcheck
    · rename_i e he
      rw [he, decide_eq_true_eq.mp hcheck]
    · cases hcheck
  have hheard : Each Lab7Pair.step Lab7Pair.Heard ⟨client, server⟩ [turn] := by
    refine ⟨fun revents hpoll i k hk => ?_, fun _ _ => trivial⟩
    cases hpoll
    cases hk
  refine ⟨⟨client, server⟩, hclient, hserver, hrun, ?_⟩
  exact (lab7_raises_only_from_kernel ⟨1, 1⟩ ⟨1, 1⟩ d d (fun _ => some ()) (fun _ => some ())
    pollError).2 ⟨client, server⟩ hclient hserver [turn] hheard hrun

end Sponge
