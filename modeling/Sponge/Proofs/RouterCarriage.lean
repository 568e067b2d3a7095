import Sponge.Lib.Outcome
import Sponge.Proofs.Carriage
import Sponge.Proofs.Transparent
import Sponge.Spec.Lab7

/-! A router passes on what it is given and nothing else: good datagrams leave it as good ones. -/

namespace Sponge

variable {V : Address → Address → TCPSegment → Prop}

/-- Everything at the interface is good. -/
structure AsyncNetworkInterface.Clean (V : Address → Address → TCPSegment → Prop)
    (i : AsyncNetworkInterface) : Prop where
  interface : i.toNetworkInterface.Clean V
  queue : ∀ d ∈ i.datagramsOut, d.Good V

namespace Router

structure Clean (V : Address → Address → TCPSegment → Prop) (r : Router) : Prop where
  existing : r.Existing
  interfaces : ∀ i ∈ r.interfaces, i.Clean V

theorem Clean.new {interfaces : List AsyncNetworkInterface} {routes : List RouteEntry}
    (hnew : ∀ i ∈ interfaces, ∃ ethernetAddress ipAddress, i = { ethernetAddress, ipAddress })
    (hroutes : ∀ e ∈ routes, e.interfaceNum < interfaces.length) :
    Clean V (({ interfaces } : Router).addRoutes routes) := by
  refine ⟨addRoutes_existing rfl hroutes, fun i hi => ?_⟩
  rw [addRoutes_interfaces] at hi
  obtain ⟨ethernetAddress, ipAddress, rfl⟩ := hnew i hi
  exact ⟨.new ethernetAddress ipAddress, List.forall_mem_nil _⟩

theorem Clean.mono {V' : Address → Address → TCPSegment → Prop}
    (hV : ∀ a b g, V a b g → V' a b g) {r : Router} (h : r.Clean V) : r.Clean V' :=
  ⟨h.existing, fun i hi => ⟨(h.interfaces i hi).interface.mono hV,
    fun d hd => ((h.interfaces i hi).queue d hd).mono hV⟩⟩

theorem Clean.setInterface {r : Router} (h : r.Clean V) (n : ℕ) {i : AsyncNetworkInterface}
    (hi : i.Clean V) : (r.setInterface n i).Clean V := by
  refine ⟨fun e he => ?_, forall_setInterface h.interfaces n hi⟩
  rw [Router.setInterface, List.length_set]
  exact h.existing e he

/-- What a call leaves: a clean router, with every frame that waited still in its place. -/
structure Passed (V : Address → Address → TCPSegment → Prop) (r r' : Router) : Prop where
  clean : r'.Clean V
  length : r'.interfaces.length = r.interfaces.length
  frames : ∀ n, r.framesOut n <+: r'.framesOut n

theorem framesOut_setInterface (r : Router) (n m : ℕ) (i : AsyncNetworkInterface) :
    (r.setInterface n i).framesOut m =
      if n = m ∧ n < r.interfaces.length then i.framesOut else r.framesOut m := by
  unfold Router.framesOut Router.setInterface
  by_cases hm : n = m
  · subst hm
    by_cases hn : n < r.interfaces.length <;> simp [hn]
  · simp [hm]

theorem framesOut_of_interface {r : Router} {n : ℕ} {i : AsyncNetworkInterface}
    (h : r.interface n = .ok i) : r.framesOut n = i.framesOut := by
  simp [Router.framesOut, interface_ok h]

/-- A call on one interface that only adds to its frames. -/
theorem Clean.passed {r : Router} (h : r.Clean V) {n : ℕ} {i i' : AsyncNetworkInterface}
    (hi : r.interface n = .ok i) (hi' : i'.Clean V) (hframes : i.framesOut <+: i'.framesOut) :
    Passed V r (r.setInterface n i') := by
  refine ⟨h.setInterface n hi', List.length_set, fun m => ?_⟩
  rw [framesOut_setInterface]
  split_ifs with hm
  · rw [← hm.1, framesOut_of_interface hi]
    exact hframes
  · exact List.prefix_rfl

theorem Clean.recvFrame {r : Router} (h : r.Clean V) {n : ℕ} (hn : n < r.interfaces.length)
    {frame : EthernetFrame} (hframe : frame.Good V) (hone : frame.payload.length = 1) :
    Outcome (fun _ => False) (Passed V r) (r.step (.recvFrame n frame)) := by
  obtain ⟨i, hmem, hi⟩ := interface_of_lt hn
  have hclean := h.interfaces i hmem
  obtain ⟨o, iface, hrecv, hiface⟩ := hclean.interface.recvFrame hone
  obtain ⟨frames, hleft⟩ := i.toNetworkInterface.left_recvFrame frame
  rw [NetworkInterface.recvFrame_left hrecv] at hleft
  simp only [Router.step, hi, ok_bind, AsyncNetworkInterface.recvFrame, hrecv]
  refine h.passed hi ⟨hiface, fun d hd => ?_⟩ ⟨frames, hleft.framesOut.symm⟩
  rcases List.mem_append.mp hd with hd | hd
  · exact hclean.queue d hd
  · rw [Option.mem_toList.mp hd] at hrecv
    exact (NetworkInterface.recvFrame_good hframe hone hrecv).1

theorem Clean.tick {r : Router} (h : r.Clean V) {n : ℕ} (hn : n < r.interfaces.length) (ms : ℕ) :
    Outcome (fun _ => False) (Passed V r) (r.step (.tick n ms)) := by
  obtain ⟨i, hmem, hi⟩ := interface_of_lt hn
  have hclean := h.interfaces i hmem
  simp only [Router.step, hi, ok_bind]
  exact h.passed hi ⟨hclean.interface.tick ms, hclean.queue⟩ List.prefix_rfl

theorem Clean.routeOneDatagram {r : Router} (h : r.Clean V) {d : IPv4Datagram} (hd : d.Good V) :
    Outcome (fun _ => False) (Clean V) (r.routeOneDatagram d) := by
  rw [routeOneDatagram_eq]
  cases hdec : r.decision d with
  | none => exact h
  | some target =>
    obtain ⟨n, hop⟩ := target
    obtain ⟨next, hmem, hnext⟩ := interface_of_lt (h.existing.decision_lt hdec)
    have hclean := h.interfaces next hmem
    obtain ⟨iface, hsend, hiface⟩ :=
      hclean.interface.sendDatagram (hd.setHop (d.header.ttl - 1) d.header.cksum) hop
    have hsend : next.sendDatagram d.hopped hop = .ok iface := hsend
    simp only [forward, hnext, ok_bind, hsend]
    exact h.setInterface n ⟨hiface, hclean.queue⟩

theorem Clean.emptied {r : Router} (h : r.Clean V) : r.emptied.Clean V := by
  refine ⟨fun e he => ?_, fun i hi => ?_⟩
  · rw [Router.emptied, List.length_map]
    exact h.existing e he
  · obtain ⟨i', hi', rfl⟩ := List.mem_map.mp hi
    exact ⟨(h.interfaces i' hi').interface, List.forall_mem_nil _⟩

theorem Clean.route {r : Router} (h : r.Clean V) :
    Outcome (fun _ => False) (Passed V r) (r.step .route) := by
  have hwaiting : ∀ d ∈ r.waiting, d.Good V := by
    intro d hd
    obtain ⟨i, hi, hd⟩ := List.mem_flatMap.mp hd
    exact (h.interfaces i hi).queue d hd
  have hrun := Outcome.exec (fun _ _ hr hd => Clean.routeOneDatagram hr hd) h
    (Each.of_forall hwaiting r)
  rw [Router.step, route_eq]
  cases hexec : exec Router.routeOneDatagram r r.waiting with
  | error e => exact (hrun.of_error hexec).elim
  | ok r' =>
    refine ⟨(hrun.of_ok hexec).emptied, ?_, fun n => ?_⟩
    · rw [Router.emptied, List.length_map, (exec_kept hexec).length]
    · have hsame : r'.emptied.framesOut n = r'.framesOut n := by
        simp only [Router.framesOut, Router.emptied, List.getElem?_map, Option.map_map]
        rfl
      rw [hsame]
      unfold Router.framesOut
      cases hi : r.interfaces[n]? with
      | none => exact List.nil_prefix
      | some i =>
        obtain ⟨i', hi', hgrows⟩ := exec_grows hexec n i hi
        rw [hi']
        exact hgrows.framesOut

end Router

end Sponge
