import Sponge.Sanity.Router

/-! Longest-prefix-match forwarding, stated against the routes that were added. -/

namespace Sponge

namespace Router

/-- What should become of a datagram, given the routes added: it is dropped when its
time to live is used up or no route covers its destination, and otherwise leaves by
a longest route that does. -/
def Decides (routes : List RouteEntry) (d : IPv4Datagram) : Option (ℕ × UInt32) → Prop
  | none => d.header.ttl ≤ 1 ∨ ∀ e ∈ routes, ¬e.Covers d.header.dst
  | some (n, hop) => ¬d.header.ttl ≤ 1 ∧ ∃ e ∈ routes, e.Covers d.header.dst ∧
      (∀ e' ∈ routes, e'.Covers d.header.dst → e'.prefixLength ≤ e.prefixLength) ∧
      n = e.interfaceNum ∧ hop = e.nextHop.getD d.header.dst

/-- Decisions carried out one after the other. -/
def forwardAll (r : Router) (xs : List (IPv4Datagram × Option (ℕ × UInt32))) :
    Except Thrown Router :=
  exec (fun r x => r.forward x.1 x.2) r xs

theorem exec_eq_forwardAll (r : Router) (ds : List IPv4Datagram) :
    exec routeOneDatagram r ds = r.forwardAll (ds.map fun d => (d, r.decision d)) := by
  -- the decisions are taken one by one, but the table they rest on never changes
  have hdec : ∀ r0 : Router, r0.routeTable = r.routeTable →
      exec routeOneDatagram r0 ds = r0.forwardAll (ds.map fun d => (d, r.decision d)) := by
    induction ds with
    | nil => exact fun _ _ => rfl
    | cons d ds ih =>
      intro r0 htable
      have hd : r0.decision d = r.decision d := by simp only [decision, bestRoute, htable]
      simp only [List.map_cons, forwardAll, exec, routeOneDatagram_eq, hd]
      cases hstep : r0.forward d (r.decision d) with
      | error e => rfl
      | ok r1 => exact ih r1 ((forward_kept hstep).routeTable.trans htable)
  exact hdec r rfl

theorem addRoutes_decides {routes : List RouteEntry}
    (hroutes : ∀ e ∈ routes, e.prefixLength ≤ 32 ∧ e.Aligned) {r : Router}
    (hr : r.routeTable.entries = []) (d : IPv4Datagram) :
    Decides routes d ((r.addRoutes routes).decision d) := by
  have hcovers : ∀ e ∈ routes, (e.Matches d.header.dst ↔ e.Covers d.header.dst) := by
    intro e he
    obtain ⟨hlen, hal⟩ := hroutes e he
    rw [RouteEntry.matches_iff hlen]
    exact and_iff_right hal
  obtain ⟨hnone, hwhy⟩ | ⟨httl, e, hlong, hsome⟩ := (r.addRoutes routes).decision_cases d
  · rw [hnone]
    refine hwhy.imp_right fun hno e he hcov => ?_
    obtain ⟨e', hmem, hkey⟩ := addRoutes_covers he r
    exact hno e' hmem ((hkey.matches_iff _).mpr ((hcovers e he).mpr hcov))
  · rw [hsome]
    have he := mem_routes_of_mem hr hlong.mem
    refine ⟨httl, e, he, (hcovers e he).mp hlong.fits, ?_, rfl, rfl⟩
    intro x hx hcov
    obtain ⟨x', hmem, hkey⟩ := addRoutes_covers hx r
    rw [← hkey.prefixLength]
    exact hlong.longest x' hmem ((hkey.matches_iff _).mpr ((hcovers x hx).mpr hcov))

theorem route_forwards (interfaces : List AsyncNetworkInterface) (routes : List RouteEntry)
    (hroutes : ∀ e ∈ routes,
      e.prefixLength ≤ 32 ∧ e.Aligned ∧ e.interfaceNum < interfaces.length)
    (hqueues : ∀ i ∈ interfaces, ∀ d ∈ i.datagramsOut, d.Serialisable) :
    let r := ({ interfaces } : Router).addRoutes routes
    (∀ d ∈ r.waiting, Decides routes d (r.decision d)) ∧
      ∃ r', r.forwardAll (r.waiting.map fun d => (d, r.decision d)) = .ok r' ∧
        r.route = .ok r'.emptied := by
  intro r
  have hwaiting : ∀ d ∈ r.waiting, d.Serialisable := by
    intro d hd
    obtain ⟨i, hi, hd⟩ := List.mem_flatMap.mp hd
    rw [addRoutes_interfaces] at hi
    exact hqueues i hi d hd
  have hex : r.Existing := addRoutes_existing rfl fun e he => (hroutes e he).2.2
  obtain ⟨r', hrun, -⟩ := hex.routed hwaiting
  refine ⟨fun d _ => ?_, r', ?_, ?_⟩
  · exact addRoutes_decides (fun e he => ⟨(hroutes e he).1, (hroutes e he).2.1⟩) rfl d
  · rw [← exec_eq_forwardAll, hrun]
  · rw [route_eq, hrun]
    rfl

/-- Two interfaces, a default route and a longer one, and a datagram that both cover. -/
theorem route_forwards_longer :
    let near : AsyncNetworkInterface :=
      { ethernetAddress := .zero, ipAddress := 0x0a000001
        datagramsOut := [{ header := { len := 20, dst := 0x0b000002 }, payload := [[]] }] }
    let far : AsyncNetworkInterface := { ethernetAddress := .zero, ipAddress := 0x0b000001 }
    let routes : List RouteEntry := [⟨0, 0, some 0x0a000009, 0⟩, ⟨0x0b000000, 8, none, 1⟩]
    let r := ({ interfaces := [near, far] } : Router).addRoutes routes
    r.waiting.map r.decision = [some (1, 0x0b000002)] ∧
      (∀ d ∈ r.waiting, Decides routes d (r.decision d)) ∧
      ∃ r', r.forwardAll (r.waiting.map fun d => (d, r.decision d)) = .ok r' ∧
        r.route = .ok r'.emptied := by
  intro near far routes r
  exact ⟨by decide, route_forwards [near, far] routes (by decide) (by decide)⟩

end Router

end Sponge
