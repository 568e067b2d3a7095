import Sponge.Sanity.Router

/-! No frame stops the router, as long as what its interfaces accept can be written out
again. The parser lets datagrams through whose version or header length the serialiser
refuses; such a datagram throws when it is forwarded, at once or out of the ARP queue. -/

namespace Sponge

/-- Everything the interface holds can be written out. -/
structure AsyncNetworkInterface.Sound (i : AsyncNetworkInterface) : Prop where
  ready : i.toNetworkInterface.Ready
  queue : ∀ d ∈ i.datagramsOut, d.Serialisable

theorem AsyncNetworkInterface.Sound.new (ethernetAddress : EthernetAddress)
    (ipAddress : UInt32) :
    AsyncNetworkInterface.Sound { ethernetAddress, ipAddress } :=
  ⟨Table.All.empty, fun d hd => by cases hd⟩

/-- The datagram that an IPv4 frame brings to the interface with an Ethernet address. -/
def EthernetFrame.datagramFor (address : EthernetAddress) (frame : EthernetFrame) :
    Option IPv4Datagram :=
  match frame.payload.toBuffer with
  | .ok b =>
    if (frame.header.dst = address ∨ frame.header.dst = ETHERNET_BROADCAST) ∧
        frame.header.type = EthernetHeader.TYPE_IPv4 ∧ (({} : IPv4Datagram).parse b).1 = .noError
    then some (({} : IPv4Datagram).parse b).2 else none
  | .error _ => none

theorem NetworkInterface.recvFrame_datagramFor {i i' : NetworkInterface} {frame : EthernetFrame}
    {o : Option IPv4Datagram} (h : i.recvFrame frame = .ok (o, i')) :
    o = frame.datagramFor i.ethernetAddress := by
  unfold EthernetFrame.datagramFor
  rcases recvFrame_cases h with ⟨⟨haddress, hip⟩, b, hb, -, ho⟩ | ⟨hfor, ho⟩
  · simp only [ho, hb, haddress, hip, true_and]
  · split
    · rw [ho, if_neg fun hc => hfor ⟨hc.1, hc.2.1⟩]
    · exact ho

namespace RouterOp

/-- A call on one of `n` interfaces, with the frame's payload in one buffer. -/
def Valid (n : ℕ) : RouterOp → Prop
  | .recvFrame m frame => m < n ∧ frame.payload.length ≤ 1
  | .tick m _ => m < n
  | .route => True

/-- The datagram a call takes from its frame. -/
def taken (r : Router) : RouterOp → Option IPv4Datagram
  | .recvFrame m frame => r.interfaces[m]?.bind fun i => frame.datagramFor i.ethernetAddress
  | .tick _ _ => none
  | .route => none

/-- What is taken says it is of version 4, with a header of five words or more. -/
def Plain (r : Router) (op : RouterOp) : Prop :=
  ∀ d ∈ op.taken r, d.header.ver = 4 ∧ 5 ≤ d.header.hlen

instance (n : ℕ) : (op : RouterOp) → Decidable (op.Valid n)
  | .recvFrame m frame => inferInstanceAs (Decidable (m < n ∧ frame.payload.length ≤ 1))
  | .tick m _ => inferInstanceAs (Decidable (m < n))
  | .route => inferInstanceAs (Decidable True)

instance (r : Router) (op : RouterOp) : Decidable (op.Plain r) :=
  inferInstanceAs (Decidable (∀ d ∈ op.taken r, d.header.ver = 4 ∧ 5 ≤ d.header.hlen))

end RouterOp

namespace Router

structure Sound (r : Router) : Prop where
  existing : r.Existing
  interfaces : ∀ i ∈ r.interfaces, i.Sound

theorem Sound.setInterface {r : Router} (h : r.Sound) (n : ℕ) {i : AsyncNetworkInterface}
    (hi : i.Sound) : (r.setInterface n i).Sound := by
  constructor
  · intro e he
    rw [Router.setInterface, List.length_set]
    exact h.existing e he
  · exact forall_setInterface h.interfaces n hi

theorem Sound.recvFrame {r : Router} (h : r.Sound) {n : ℕ} {frame : EthernetFrame}
    (hvalid : RouterOp.Valid r.interfaces.length (.recvFrame n frame))
    (hplain : RouterOp.Plain r (.recvFrame n frame)) :
    ∃ r', r.step (.recvFrame n frame) = .ok r' ∧ r'.Sound ∧
      r'.interfaces.length = r.interfaces.length := by
  obtain ⟨hn, hone⟩ := hvalid
  obtain ⟨i, hmem, hi⟩ := interface_of_lt hn
  have hsound := h.interfaces i hmem
  obtain ⟨o, iface, hrecv, hready, hsize⟩ := hsound.ready.recvFrame hone
  have htaken : RouterOp.taken r (.recvFrame n frame) = o := by
    rw [RouterOp.taken, interface_ok hi, NetworkInterface.recvFrame_datagramFor hrecv]
    rfl
  have hqueue : ∀ d ∈ i.datagramsOut ++ o.toList, d.Serialisable := by
    intro d hd
    rcases List.mem_append.mp hd with hd | hd
    · exact hsound.queue d hd
    · have ho : o = some d := Option.mem_toList.mp hd
      obtain ⟨hver, hlen⟩ := hplain d (htaken.trans ho)
      exact d.serialisable_iff.mpr ⟨hsize d ho, hver, hlen⟩
  refine ⟨r.setInterface n ⟨iface, i.datagramsOut ++ o.toList⟩, ?_, ?_, ?_⟩
  · simp only [Router.step, AsyncNetworkInterface.recvFrame, hi, ok_bind, hrecv]
    rfl
  · exact h.setInterface n ⟨hready, hqueue⟩
  · exact List.length_set

theorem Sound.tick {r : Router} (h : r.Sound) {n : ℕ} (hn : n < r.interfaces.length) (ms : ℕ) :
    ∃ r', r.step (.tick n ms) = .ok r' ∧ r'.Sound ∧
      r'.interfaces.length = r.interfaces.length := by
  obtain ⟨i, hmem, hi⟩ := interface_of_lt hn
  have hsound := h.interfaces i hmem
  refine ⟨r.setInterface n ⟨i.tick ms, i.datagramsOut⟩, ?_, ?_, ?_⟩
  · simp only [Router.step, hi, ok_bind]
    rfl
  · exact h.setInterface n ⟨hsound.ready.tick ms, hsound.queue⟩
  · exact List.length_set

theorem Sound.route {r : Router} (h : r.Sound) :
    ∃ r', r.route = .ok r' ∧ r'.Sound ∧ r'.interfaces.length = r.interfaces.length ∧
      ∀ i ∈ r'.interfaces, i.datagramsOut = [] := by
  have hwaiting : ∀ d ∈ r.waiting, d.Serialisable := by
    intro d hd
    obtain ⟨i, hi, hd⟩ := List.mem_flatMap.mp hd
    exact (h.interfaces i hi).queue d hd
  obtain ⟨r', hrun, hready⟩ := h.existing.routed hwaiting
  have hkept := exec_kept hrun
  have hready := hready fun i hi => (h.interfaces i hi).ready
  have hempty : ∀ i ∈ r'.emptied.interfaces, i.Sound ∧ i.datagramsOut = [] := by
    intro i hi
    obtain ⟨i', hi', rfl⟩ := List.mem_map.mp hi
    exact ⟨⟨hready i' hi', fun d hd => by cases hd⟩, rfl⟩
  have hlen : r'.emptied.interfaces.length = r.interfaces.length := by
    rw [emptied, List.length_map, hkept.length]
  refine ⟨r'.emptied, by rw [route_eq, hrun]; rfl, ⟨?_, fun i hi => (hempty i hi).1⟩, hlen,
    fun i hi => (hempty i hi).2⟩
  intro e he
  have he : e ∈ r'.routeTable.entries := he
  rw [hlen]
  rw [hkept.routeTable] at he
  exact h.existing e he

/-- One call: it returns, keeps the router sound, and `route` leaves no queue. -/
theorem Sound.step {r : Router} (h : r.Sound) {op : RouterOp}
    (hvalid : op.Valid r.interfaces.length) (hplain : op.Plain r) :
    ∃ r', r.step op = .ok r' ∧ r'.Sound ∧ r'.interfaces.length = r.interfaces.length ∧
      (op = .route → ∀ i ∈ r'.interfaces, i.datagramsOut = []) := by
  cases op with
  | recvFrame n frame =>
    obtain ⟨r', hstep, hsound, hlen⟩ := h.recvFrame hvalid hplain
    exact ⟨r', hstep, hsound, hlen, fun h => by cases h⟩
  | tick n ms =>
    obtain ⟨r', hstep, hsound, hlen⟩ := h.tick hvalid ms
    exact ⟨r', hstep, hsound, hlen, fun h => by cases h⟩
  | route =>
    obtain ⟨r', hstep, hsound, hlen, hempty⟩ := h.route
    exact ⟨r', hstep, hsound, hlen, fun _ => hempty⟩

theorem router_never_throws (interfaces : List AsyncNetworkInterface) (routes : List RouteEntry)
    (hinterfaces : ∀ i ∈ interfaces, i.Sound)
    (hroutes : ∀ e ∈ routes, e.prefixLength ≤ 32 ∧ e.interfaceNum < interfaces.length)
    (ops : List RouterOp) (hvalid : ∀ op ∈ ops, op.Valid interfaces.length)
    (hplain : Each Router.step RouterOp.Plain (({ interfaces } : Router).addRoutes routes) ops) :
    ∃ r, exec Router.step (({ interfaces } : Router).addRoutes routes) ops = .ok r ∧
      (ops.getLast? = some .route → ∀ i ∈ r.interfaces, i.datagramsOut = []) := by
  have hsound : (({ interfaces } : Router).addRoutes routes).Sound := by
    refine ⟨addRoutes_existing rfl fun e he => (hroutes e he).2, ?_⟩
    rw [addRoutes_interfaces]
    exact hinterfaces
  have hlen := congrArg List.length (({ interfaces } : Router).addRoutes_interfaces routes)
  -- the invariant carries what the last call so far was
  have hstep : ∀ (past : List RouterOp) (r : Router) (op : RouterOp),
      (r.Sound ∧ r.interfaces.length = interfaces.length ∧
        (past.getLast? = some .route → ∀ i ∈ r.interfaces, i.datagramsOut = [])) →
      op.Valid interfaces.length ∧ op.Plain r → ∃ r', r.step op = .ok r' ∧
        (r'.Sound ∧ r'.interfaces.length = interfaces.length ∧
          ((past ++ [op]).getLast? = some .route → ∀ i ∈ r'.interfaces, i.datagramsOut = [])) := by
    rintro past r op ⟨hr, hn, -⟩ ⟨hv, hp⟩
    obtain ⟨r', hstep, hr', hn', hempty⟩ := hr.step (hn ▸ hv) hp
    refine ⟨r', hstep, hr', hn'.trans hn, fun h => hempty ?_⟩
    rw [List.getLast?_concat] at h
    exact Option.some.inj h
  obtain ⟨r, hrun, -, -, hlast⟩ := exec_history hstep ops [] _
    ⟨hsound, hlen, fun h => by cases h⟩ ((Each.of_forall hvalid _).and hplain)
  exact ⟨r, hrun, hlast⟩

end Router

/-- Two interfaces and a route to the second one's network. -/
def twoNetworks : List AsyncNetworkInterface × List RouteEntry :=
  ([{ ethernetAddress := ⟨[2, 0, 0, 0, 0, 0], rfl⟩, ipAddress := 0x0a000001 },
    { ethernetAddress := ⟨[2, 0, 0, 0, 0, 1], rfl⟩, ipAddress := 0x0b000001 }],
   [⟨0x0b000000, 8, none, 1⟩])

/-- A frame for the first interface: a datagram to 11.0.0.2 without options, of the
given version. -/
def datagramFrame (version : Byte) : EthernetFrame :=
  ⟨⟨⟨[2, 0, 0, 0, 0, 0], rfl⟩, ⟨[2, 0, 0, 0, 0, 9], rfl⟩, EthernetHeader.TYPE_IPv4⟩,
    [[version * 16 + 5, 0, 0, 20, 0, 0, 0x40, 0, 64, 6, 0, 0, 10, 0, 0, 2, 11, 0, 0, 2]]⟩

/-- The ARP reply of 11.0.0.2 to the second interface. -/
def replyFrame : EthernetFrame :=
  ⟨⟨⟨[2, 0, 0, 0, 0, 1], rfl⟩, ⟨[2, 0, 0, 0, 0, 8], rfl⟩, EthernetHeader.TYPE_ARP⟩,
    [[0, 1, 8, 0, 6, 4, 0, 2, 2, 0, 0, 0, 0, 8, 11, 0, 0, 2, 2, 0, 0, 0, 0, 1, 11, 0, 0, 1]]⟩

theorem router_never_throws_forwarding :
    let r := ({ interfaces := twoNetworks.1 } : Router).addRoutes twoNetworks.2
    let ops := [.recvFrame 0 (datagramFrame 4), .route, .recvFrame 1 replyFrame, .tick 1 30000,
      .recvFrame 0 (datagramFrame 4), .route]
    ∃ r', exec Router.step r ops = .ok r' ∧
      (ops.getLast? = some .route → ∀ i ∈ r'.interfaces, i.datagramsOut = []) := by
  refine Router.router_never_throws twoNetworks.1 twoNetworks.2 ?_ (by decide) _ (by decide)
    (by decide)
  intro i hi
  simp only [twoNetworks, List.mem_cons, List.not_mem_nil, or_false] at hi
  rcases hi with rfl | rfl
  · exact .new _ _
  · exact .new _ _

/-- A datagram of version 6 is accepted and waits for an address; the ARP reply that
brings it throws. -/
theorem accepted_datagram_throws :
    let r := ({ interfaces := twoNetworks.1 } : Router).addRoutes twoNetworks.2
    exec Router.step r [.recvFrame 0 (datagramFrame 6), .route, .recvFrame 1 replyFrame] =
      .error (.runtimeError "wrong IP version") :=
  rfl

end Sponge
