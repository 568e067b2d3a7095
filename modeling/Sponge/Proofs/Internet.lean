import Sponge.Proofs.Neighbours

/-! A datagram through an internetwork. The hosts, the routers with their ARP tables and
queues, and cables that lose, repeat and reorder frames refine a network in which a datagram
goes from port to port: from its host to the host's next hop, and from a router to the next
hop that its table gives, with one less to live. -/

namespace Sponge

open NetworkInterface

variable {P : Plan} {R : IPv4Datagram → Port → Prop} {p q : Port}

structure AsyncNetworkInterface.Attached (P : Plan) (R : IPv4Datagram → Port → Prop) (p : Port)
    (i : AsyncNetworkInterface) : Prop where
  interface : i.toNetworkInterface.Honest P R p
  queue : ∀ d ∈ i.datagramsOut, d.Sendable ∧ R d p

theorem AsyncNetworkInterface.Attached.recvFrame (hP : P.Sound) {i : AsyncNetworkInterface}
    (h : i.Attached P R q) (hq : P.plugged q) (hp : P.Beside q p) {f : EthernetFrame}
    (hf : f.Honest P R p) :
    ∃ i', i.recvFrame (Internet.onCable f) = .ok i' ∧ i'.Attached P R q := by
  obtain ⟨o, iface, hrun, hhonest, ho⟩ := h.interface.recvFrame hP hq hp hf
  refine ⟨{ toNetworkInterface := iface, datagramsOut := i.datagramsOut ++ o.toList }, ?_, hhonest,
    List.forall_mem_append.mpr ⟨h.queue, fun d hd => ho d (Option.mem_toList.mp hd)⟩⟩
  simp only [AsyncNetworkInterface.recvFrame, hrun, ok_bind]
  rfl

namespace Router

/-- The interfaces of router `r`. -/
structure Attached (P : Plan) (R : IPv4Datagram → Port → Prop) (r : ℕ) (router : Router) : Prop where
  existing : router.Existing
  interfaces : ∀ n (i : AsyncNetworkInterface), router.interfaces[n]? = some i →
    i.Attached P R (.router r n)

variable {r : ℕ} {router : Router}

theorem Attached.setInterface (h : router.Attached P R r) {n : ℕ} {i : AsyncNetworkInterface}
    (hi : i.Attached P R (.router r n)) : (router.setInterface n i).Attached P R r := by
  refine ⟨fun e he => ?_, fun m i' hi' => ?_⟩
  · rw [Router.setInterface, List.length_set]
    exact h.existing e he
  · rw [Router.setInterface, List.getElem?_set] at hi'
    split_ifs at hi' with hm hlt
    · cases hi'
      exact hm ▸ hi
    · exact h.interfaces m i' hi'

theorem Attached.emptied (h : router.Attached P R r) : router.emptied.Attached P R r := by
  refine ⟨fun e he => ?_, fun n i hi => ?_⟩
  · rw [Router.emptied, List.length_map]
    exact h.existing e he
  · simp only [Router.emptied, List.getElem?_map] at hi
    obtain ⟨i', hi', rfl⟩ := Option.map_eq_some_iff.mp hi
    exact ⟨(h.interfaces n i' hi').interface, List.forall_mem_nil _⟩

/-- What is sent on may reach the next hop that the table gives. -/
def Forwards (P : Plan) (R : IPv4Datagram → Port → Prop) (r : ℕ) (router : Router) : Prop :=
  ∀ d n m a q, R d (.router r n) → router.decision d = some (m, a) →
    P.Hop (.router r m) a q → R d.hopped.arriving q

theorem Attached.routeOneDatagram (h : router.Attached P R r) (hR : router.Forwards P R r)
    {d : IPv4Datagram} {n : ℕ} (hd : d.Sendable) (hdR : R d (.router r n)) :
    ∃ router', router.routeOneDatagram d = .ok router' ∧ router'.Attached P R r := by
  rw [routeOneDatagram_eq]
  cases hdec : router.decision d with
  | none => exact ⟨router, rfl, h⟩
  | some target =>
    obtain ⟨m, a⟩ := target
    obtain ⟨next, -, hnext⟩ := interface_of_lt (h.existing.decision_lt hdec)
    have hattached := h.interfaces m next (interface_ok hnext)
    obtain ⟨iface, hsend, hiface⟩ := hattached.interface.sendDatagram
      (d := d.hopped) (hd.setHop (d.header.ttl - 1) d.header.cksum)
      (a := a) fun q hq => hR d n m a q hdR hdec hq
    refine ⟨router.setInterface m { next with toNetworkInterface := iface }, ?_,
      h.setInterface ⟨hiface, hattached.queue⟩⟩
    simp only [forward, hnext, ok_bind, hsend]
    rfl

theorem Attached.route (h : router.Attached P R r) (hR : router.Forwards P R r) :
    ∃ router', router.route = .ok router' ∧ router'.Attached P R r ∧
      router'.routeTable = router.routeTable ∧
      router'.interfaces.length = router.interfaces.length := by
  have hwaiting : ∀ d ∈ router.waiting, d.Sendable ∧ ∃ n, R d (.router r n) := by
    intro d hd
    obtain ⟨i, hi, hd⟩ := List.mem_flatMap.mp hd
    obtain ⟨n, hn⟩ := List.mem_iff_getElem?.mp hi
    obtain ⟨hsend, hdR⟩ := (h.interfaces n i hn).queue d hd
    exact ⟨hsend, n, hdR⟩
  obtain ⟨last, hrun, hlast, -⟩ := exec_inv
    (I := fun t : Router => t.Attached P R r ∧ t.routeTable = router.routeTable)
    (C := fun _ d => d.Sendable ∧ ∃ n, R d (.router r n))
    (fun t d ht hd => by
      obtain ⟨hsend, n, hdR⟩ := hd
      have hdec : t.Forwards P R r := by
        unfold Forwards decision bestRoute
        rw [ht.2]
        exact hR
      obtain ⟨t', hstep, ht'⟩ := ht.1.routeOneDatagram hdec hsend hdR
      exact ⟨t', hstep, ht', (routeOneDatagram_kept hstep).routeTable.trans ht.2⟩)
    ⟨h, rfl⟩ (Each.of_forall hwaiting router)
  have hkept := exec_kept hrun
  refine ⟨last.emptied, by rw [route_eq, hrun]; rfl, hlast.emptied, hkept.routeTable, ?_⟩
  rw [Router.emptied, List.length_map, hkept.length]

end Router

/-- The ports of a network that is being set up, and their addresses. -/
def Internet.plan (net : Internet) (cable : Port → ℕ) : Plan where
  plugged p := (net.interface p).isSome = true
  cable := cable
  mac p := ((net.interface p).map fun i => i.ethernetAddress).getD .zero
  ip p := ((net.interface p).map fun i => i.ipAddress).getD 0

/-- The abstract network: `Routed net cable events d k p` says that a datagram one of the hosts
sent may arrive as `d` at `p` after `k` routers. -/
inductive Routed (net : Internet) (cable : Port → ℕ) (events : List InternetEvent) :
    IPv4Datagram → ℕ → Port → Prop
  | sent {h : ℕ} {host : Host} {destination : UInt32} {ttl : UInt8} {payload : Buffer} {q : Port}
      (hevent : .sendTo h destination ttl payload ∈ events) (hhost : net.hosts[h]? = some host)
      (hhop : (net.plan cable).Hop (.host h) host.nextHop q) :
      Routed net cable events (host.datagram destination ttl payload).arriving 0 q
  | hop {d : IPv4Datagram} {k r n m : ℕ} {router : Router} {a : UInt32} {q : Port}
      (hd : Routed net cable events d k (.router r n)) (hrouter : net.routers[r]? = some router)
      (hdec : router.decision d = some (m, a)) (hhop : (net.plan cable).Hop (.router r m) a q) :
      Routed net cable events d.hopped.arriving (k + 1) q

/-- A datagram on its way is the one its host sent, with one less to live for each router. -/
theorem Routed.source {net : Internet} {cable : Port → ℕ} {events : List InternetEvent}
    {d : IPv4Datagram} {k : ℕ} {p : Port} (h : Routed net cable events d k p) :
    ∃ h host destination ttl payload, .sendTo h destination ttl payload ∈ events ∧
      net.hosts[h]? = some host ∧ d.header.src = host.interface.ipAddress ∧
      d.header.dst = destination ∧ d.payload = [payload] ∧ d.header.ttl.toNat + k = ttl.toNat := by
  induction h with
  | @sent h host destination ttl payload q hevent hhost hhop =>
    exact ⟨h, host, destination, ttl, payload, hevent, hhost, rfl, rfl,
      by simp [IPv4Datagram.arriving, Host.datagram, BufferList.concatenate], rfl⟩
  | @hop d k r n m router a q hd hrouter hdec hhop ih =>
    obtain ⟨h, host, destination, ttl, payload, hevent, hhost, hsrc, hdst, hpayload, httl⟩ := ih
    refine ⟨h, host, destination, ttl, payload, hevent, hhost, hsrc, hdst, ?_, ?_⟩
    · simp [IPv4Datagram.arriving, IPv4Datagram.hopped, hpayload, BufferList.concatenate]
    · have hlive : 1 < d.header.ttl.toNat := by
        unfold Router.decision at hdec
        split_ifs at hdec with hle
        exact UInt8.lt_iff_toNat_lt.mp (UInt8.not_le.mp hle)
      have hless : (d.header.ttl - 1).toNat = d.header.ttl.toNat - 1 :=
        UInt8.toNat_sub_of_le _ _ (UInt8.le_iff_toNat_le.mpr hlive.le)
      show (d.header.ttl - 1).toNat + (k + 1) = ttl.toNat
      omega

namespace Internet

theorem interface_setInterface (net : Internet) (p q : Port) (i : AsyncNetworkInterface) :
    (net.setInterface p i).interface q =
      if q = p then (net.interface p).map fun _ => i else net.interface q := by
  cases p with
  | host h =>
    cases q with
    | host h' =>
      by_cases heq : h = h'
      · subst heq
        simp [setInterface, interface, Option.map_map, Function.comp_def]
      · simp [setInterface, interface, heq, Ne.symm heq]
    | router r' n' => simp [setInterface, interface]
  | router r n =>
    cases q with
    | host h' => simp [setInterface, interface]
    | router r' n' =>
      by_cases heq : r = r'
      · subst heq
        cases hr : net.routers[r]? with
        | none => simp [setInterface, interface, hr]
        | some router =>
          by_cases hn : n = n'
          · subst hn
            by_cases hlt : n < router.interfaces.length <;>
              simp [setInterface, interface, hr, Router.setInterface, hlt]
          · simp [setInterface, interface, hr, Router.setInterface, hn, Ne.symm hn]
      · simp [setInterface, interface, heq, Ne.symm heq]

/-- The network as it runs: ports and tables are as they were set up, and every port is honest. -/
structure Wired (net₀ : Internet) (cable : Port → ℕ) (R : IPv4Datagram → Port → Prop)
    (net : Internet) : Prop where
  shape : ∀ p, (net.interface p).isSome = (net₀.interface p).isSome
  ports : ∀ p (i : AsyncNetworkInterface), net.interface p = some i →
    i.Attached (net₀.plan cable) R p
  routers : ∀ (r : ℕ) (router : Router), net.routers[r]? = some router →
    router.Existing ∧ ∃ router₀ : Router, net₀.routers[r]? = some router₀ ∧
      router.routeTable = router₀.routeTable
  hosts : ∀ (h : ℕ) (host : Host), net.hosts[h]? = some host →
    ∃ host₀ : Host, net₀.hosts[h]? = some host₀ ∧ host.nextHop = host₀.nextHop

variable {net₀ net : Internet} {cable : Port → ℕ}

theorem Wired.plugged (h : Wired net₀ cable R net) {i : AsyncNetworkInterface}
    (hi : net.interface p = some i) : (net₀.plan cable).plugged p := by
  show (net₀.interface p).isSome = true
  rw [← h.shape, hi]
  rfl

theorem Wired.setInterface (h : Wired net₀ cable R net) {i i' : AsyncNetworkInterface}
    (hi : net.interface p = some i) (hi' : i'.Attached (net₀.plan cable) R p) :
    Wired net₀ cable R (net.setInterface p i') := by
  refine ⟨fun q => ?_, fun q j hj => ?_, fun r router hr => ?_, fun k host hk => ?_⟩
  · rw [interface_setInterface, ← h.shape]
    split_ifs with hq
    · rw [hq, Option.isSome_map]
    · rfl
  · rw [interface_setInterface, hi] at hj
    split_ifs at hj with hq
    · cases hj
      exact hq ▸ hi'
    · exact h.ports q j hj
  · cases p with
    | host => exact h.routers r router hr
    | router r' n =>
      simp only [Internet.setInterface, List.getElem?_modify] at hr
      obtain ⟨old, hold, hset⟩ := Option.map_eq_some_iff.mp hr
      obtain ⟨hexisting, htable⟩ := h.routers r old hold
      split_ifs at hset
      · cases hset
        refine ⟨fun e he => ?_, htable⟩
        rw [Router.setInterface, List.length_set]
        exact hexisting e he
      · cases hset
        exact ⟨hexisting, htable⟩
  · cases p with
    | router => exact h.hosts k host hk
    | host k' =>
      simp only [Internet.setInterface, List.getElem?_modify] at hk
      obtain ⟨old, hold, hset⟩ := Option.map_eq_some_iff.mp hk
      split_ifs at hset <;> exact hset ▸ h.hosts k old hold

theorem Wired.router (h : Wired net₀ cable R net) {r : ℕ} {router : Router}
    (hr : net.routers[r]? = some router) : router.Attached (net₀.plan cable) R r :=
  ⟨(h.routers r router hr).1, fun n i hi => h.ports (.router r n) i (by simp [interface, hr, hi])⟩

theorem Wired.setRouter (h : Wired net₀ cable R net) {r : ℕ} {router router' : Router}
    (hr : net.routers[r]? = some router) (hattached : router'.Attached (net₀.plan cable) R r)
    (htable : router'.routeTable = router.routeTable)
    (hlength : router'.interfaces.length = router.interfaces.length) :
    Wired net₀ cable R { net with routers := net.routers.set r router' } := by
  obtain ⟨hlt, -⟩ := List.getElem?_eq_some_iff.mp hr
  have hget : ∀ m, (net.routers.set r router')[m]? =
      if r = m then some router' else net.routers[m]? := by
    intro m
    rw [List.getElem?_set, if_pos hlt]
  refine ⟨fun q => ?_, fun q j hj => ?_, fun m t hm => ?_, h.hosts⟩
  · rw [← h.shape]
    cases q with
    | host => rfl
    | router m n =>
      simp only [interface, hget]
      split_ifs with hm
      · subst hm
        rw [hr, Bool.eq_iff_iff]
        simp [hlength]
      · rfl
  · cases q with
    | host => exact h.ports _ j hj
    | router m n =>
      simp only [interface, hget] at hj
      split_ifs at hj with hm
      · subst hm
        exact hattached.interfaces n j hj
      · exact h.ports (.router m n) j hj
  · simp only [hget] at hm
    split_ifs at hm with hrm
    · cases hm
      obtain ⟨-, router₀, hr₀, htable₀⟩ := h.routers r router hr
      exact ⟨hattached.existing, router₀, hrm ▸ hr₀, htable.trans htable₀⟩
    · exact h.routers m t hm

theorem Wired.framesOut (h : Wired net₀ cable R net) {f : EthernetFrame}
    (hf : f ∈ net.framesOut p) :
    (net₀.plan cable).plugged p ∧ f.Honest (net₀.plan cable) R p := by
  unfold Internet.framesOut at hf
  cases hi : net.interface p with
  | none => simp [hi] at hf
  | some i =>
    rw [hi] at hf
    exact ⟨h.plugged hi, (h.ports p i hi).interface.frames f hf⟩

theorem Wired.receive (hP : (net₀.plan cable).Sound) (h : Wired net₀ cable R net)
    (hp : (net₀.plan cable).plugged p) (hcable : cable p = cable q) {f : EthernetFrame}
    (hf : f.Honest (net₀.plan cable) R p) :
    ∃ net', net.receive q f = .ok net' ∧ Wired net₀ cable R net' := by
  unfold Internet.receive
  cases hi : net.interface q with
  | none => exact ⟨net, rfl, h⟩
  | some i =>
    obtain ⟨i', hrun, hi'⟩ := (h.ports q i hi).recvFrame hP (h.plugged hi) ⟨hp, hcable⟩ hf
    exact ⟨net.setInterface q i', by simp only [hrun, ok_bind]; rfl, h.setInterface hi hi'⟩

theorem Wired.deliver (hP : (net₀.plan cable).Sound) (h : Wired net₀ cable R net)
    (hcable : cable p = cable q) {src : List EthernetFrame}
    (hsrc : ∀ f ∈ src, (net₀.plan cable).plugged p ∧ f.Honest (net₀.plan cable) R p) :
    ∃ net', net.deliver src q = .ok net' ∧ Wired net₀ cable R net' :=
  exec_inv (C := fun _ f => (net₀.plan cable).plugged p ∧ f.Honest (net₀.plan cable) R p)
    (fun _ _ h hf => h.receive hP hf.1 hcable hf.2) h (.of_forall hsrc _)

theorem Wired.fewer (h : Wired net₀ cable R net) {i : AsyncNetworkInterface}
    (hi : net.interface p = some i) {frames : List EthernetFrame} (hsub : frames ⊆ i.framesOut) :
    Wired net₀ cable R (net.setInterface p { i with framesOut := frames }) := by
  obtain ⟨⟨hmac, hip, htable, hwaiting, hframes⟩, hqueue⟩ := h.ports p i hi
  exact h.setInterface hi ⟨⟨hmac, hip, htable, hwaiting, fun f hf => hframes f (hsub hf)⟩, hqueue⟩

theorem Wired.clear (h : Wired net₀ cable R net) (p : Port) (n : ℕ) :
    Wired net₀ cable R (net.clear p n) := by
  unfold Internet.clear
  cases hi : net.interface p with
  | none => exact h
  | some i => exact h.fewer hi (List.drop_subset n _)

theorem Wired.exchangeFrames (hP : (net₀.plan cable).Sound) (h : Wired net₀ cable R net)
    {ports : List Port} (hports : ∀ p ∈ ports, ∀ q ∈ ports, cable p = cable q) :
    ∃ net', net.exchangeFrames ports = .ok net' ∧ Wired net₀ cable R net' := by
  -- every copy is of an honest frame from a port of this cable
  have hcopies : ∀ c ∈ (ports.map fun p => (p, net.framesOut p)).flatMap fun c =>
      (ports.filter (· ≠ c.1)).map fun q => (c.2, q), ∃ p, cable p = cable c.2 ∧
        ∀ f ∈ c.1, (net₀.plan cable).plugged p ∧ f.Honest (net₀.plan cable) R p := by
    intro c hc
    obtain ⟨d, hd, hc⟩ := List.mem_flatMap.mp hc
    obtain ⟨p, hp, rfl⟩ := List.mem_map.mp hd
    obtain ⟨q, hq, rfl⟩ := List.mem_map.mp hc
    exact ⟨p, hports p hp q (List.mem_of_mem_filter hq), fun f hf => h.framesOut hf⟩
  obtain ⟨after, hrun, hafter⟩ := exec_inv
    (fun (net : Internet) (c : List EthernetFrame × Port) (h : Wired net₀ cable R net) hc => by
      obtain ⟨p, hcable, hframes⟩ := hc
      exact h.deliver hP hcable hframes)
    h (Each.of_forall hcopies net)
  refine ⟨_, by simp only [Internet.exchangeFrames, hrun, ok_bind]; rfl, ?_⟩
  exact List.foldlRecOn _ _ hafter fun net h c _ => h.clear c.1 c.2.length

end Internet

/-- Frames go along cables, and a payload fits a datagram. -/
def InternetEvent.Fits (cable : Port → ℕ) : InternetEvent → Prop
  | .sendTo _ _ _ payload => payload.length ≤ 65515
  | .exchange ports => ∀ p ∈ ports, ∀ q ∈ ports, cable p = cable q
  | .deliver p _ q => cable p = cable q
  | _ => True

instance (cable : Port → ℕ) : (e : InternetEvent) → Decidable (e.Fits cable)
  | .sendTo _ _ _ payload => inferInstanceAs (Decidable (payload.length ≤ 65515))
  | .exchange ports => inferInstanceAs (Decidable (∀ p ∈ ports, ∀ q ∈ ports, cable p = cable q))
  | .deliver p _ q => inferInstanceAs (Decidable (cable p = cable q))
  | .route _ | .tick _ _ | .lose _ _ => isTrue trivial

theorem Host.datagram_sendable (host : Host) (destination : UInt32) (ttl : UInt8)
    {payload : Buffer} (h : payload.length ≤ 65515) :
    (host.datagram destination ttl payload).Sendable where
  writable := ⟨rfl, by simp [Host.datagram], by simp [Host.datagram], by simp [Host.datagram]⟩
  len := by
    have hsize : BufferList.size [payload] = payload.length := by simp [BufferList.size]
    show (UInt16.ofNat (5 * 4 + payload.length)).toNat = 4 * 5 + BufferList.size [payload]
    rw [hsize, UInt16.toNat_ofNat_of_lt' (show 5 * 4 + payload.length < 2 ^ 16 by omega)]
  carries _ _ := trivial

namespace Internet

variable {net₀ net : Internet} {cable : Port → ℕ} {events : List InternetEvent}

/-- What may reach a port, after any number of routers. -/
def MayReach (net₀ : Internet) (cable : Port → ℕ) (events : List InternetEvent)
    (d : IPv4Datagram) (q : Port) : Prop := ∃ k, Routed net₀ cable events d k q

theorem Wired.forwards (h : Wired net₀ cable (MayReach net₀ cable events) net) {r : ℕ}
    {router : Router} (hr : net.routers[r]? = some router) :
    router.Forwards (net₀.plan cable) (MayReach net₀ cable events) r := by
  obtain ⟨-, router₀, hr₀, htable⟩ := h.routers r router hr
  rintro d n m a q ⟨k, hd⟩ hdec hhop
  refine ⟨k + 1, .hop hd hr₀ ?_ hhop⟩
  unfold Router.decision Router.bestRoute at hdec ⊢
  rw [← htable]
  exact hdec

theorem Wired.step (hP : (net₀.plan cable).Sound)
    (h : Wired net₀ cable (MayReach net₀ cable events) net) {e : InternetEvent}
    (he : e ∈ events) (hfits : e.Fits cable) :
    ∃ net', net.step e = .ok net' ∧ Wired net₀ cable (MayReach net₀ cable events) net' := by
  cases e with
  | sendTo k destination ttl payload =>
    simp only [Internet.step]
    cases hk : net.hosts[k]? with
    | none => exact ⟨net, rfl, h⟩
    | some host =>
      obtain ⟨host₀, hk₀, hhop⟩ := h.hosts k host hk
      have hi : net.interface (.host k) = some host.interface := by simp [interface, hk]
      have hattached := h.ports _ _ hi
      have hsame : host.datagram destination ttl payload =
          host₀.datagram destination ttl payload := by
        have hip := hattached.interface.ip
        simp only [plan, interface, hk₀, Option.map_some, Option.getD_some] at hip
        simp only [Host.datagram, hip]
      obtain ⟨iface, hrun, hiface⟩ := hattached.interface.sendDatagram
        (host.datagram_sendable destination ttl hfits) (a := host.nextHop) fun q hq =>
          ⟨0, hsame ▸ .sent he hk₀ (hhop ▸ hq)⟩
      have hsent : AsyncNetworkInterface.Attached (net₀.plan cable) _ (.host k)
          { host.interface with toNetworkInterface := iface } := ⟨hiface, hattached.queue⟩
      have hset := h.setInterface hi hsent
      refine ⟨_, by simp only [Host.sendTo, hrun, ok_bind]; rfl, ?_⟩
      simp only [Internet.setInterface, List.modify_eq_set_getElem?, hk] at hset
      exact hset
  | route r =>
    simp only [Internet.step]
    cases hr : net.routers[r]? with
    | none => exact ⟨net, rfl, h⟩
    | some router =>
      obtain ⟨router', hrun, hattached, htable, hlength⟩ := (h.router hr).route (h.forwards hr)
      exact ⟨_, by simp only [hrun, ok_bind]; rfl, h.setRouter hr hattached htable hlength⟩
  | exchange ports => exact h.exchangeFrames hP hfits
  | tick p ms =>
    simp only [Internet.step]
    cases hi : net.interface p with
    | none => exact ⟨net, rfl, h⟩
    | some i =>
      have hattached := h.ports p i hi
      exact ⟨_, rfl, h.setInterface hi ⟨hattached.interface.tick ms, hattached.queue⟩⟩
  | deliver p k q =>
    simp only [Internet.step]
    cases hf : (net.framesOut p)[k]? with
    | none => exact ⟨net, rfl, h⟩
    | some f =>
      obtain ⟨hplugged, hhonest⟩ := h.framesOut (List.mem_of_getElem? hf)
      exact h.receive hP hplugged hfits hhonest
  | lose p k =>
    simp only [Internet.step]
    cases hi : net.interface p with
    | none => exact ⟨net, rfl, h⟩
    | some i => exact ⟨_, rfl, h.fewer hi (List.eraseIdx_subset)⟩

/-- A network of interfaces that have only their addresses yet. -/
structure New (net : Internet) : Prop where
  interfaces : ∀ p (i : AsyncNetworkInterface), net.interface p = some i →
    ∃ ethernetAddress ipAddress, i = { ethernetAddress, ipAddress }
  routers : ∀ router ∈ net.routers, router.Existing

theorem New.wired (h : net.New) (cable : Port → ℕ) : Wired net cable R net where
  shape _ := rfl
  ports p i hi := by
    obtain ⟨ethernetAddress, ipAddress, rfl⟩ := h.interfaces p i hi
    exact ⟨.new (by simp [plan, hi]) (by simp [plan, hi]), List.forall_mem_nil _⟩
  routers r router hr := ⟨h.routers router (List.mem_of_getElem? hr), router, hr, rfl⟩
  hosts k host hk := ⟨host, hk, rfl⟩

end Internet

/-- In every network of new hosts and routers in which no two ports on a cable have the same
Ethernet address, and none the broadcast address: whatever the hosts send, the routers
forward and the cables exchange, lose, repeat or reorder, nothing throws, and every datagram
that has come out at a port is one that a host sent, there along the next hops of the host
and the routers' tables, unchanged but for a time to live that is one less for each router. -/
theorem internet_routes (net : Internet) (cable : Port → ℕ) (hnew : net.New)
    (hplan : (net.plan cable).Sound) (events : List InternetEvent)
    (hfits : ∀ e ∈ events, e.Fits cable) :
    ∃ net', exec Internet.step net events = .ok net' ∧
      ∀ p (i : AsyncNetworkInterface), net'.interface p = some i → ∀ d ∈ i.datagramsOut,
        ∃ k, Routed net cable events d k p ∧
          ∃ h host destination ttl payload, .sendTo h destination ttl payload ∈ events ∧
            net.hosts[h]? = some host ∧ d.header.src = host.interface.ipAddress ∧
            d.header.dst = destination ∧ d.payload = [payload] ∧
            d.header.ttl.toNat + k = ttl.toNat := by
  obtain ⟨net', hrun, hwired⟩ := exec_inv
    (I := Internet.Wired net cable (Internet.MayReach net cable events))
    (C := fun _ e => e ∈ events ∧ e.Fits cable)
    (fun _ _ h he => h.step hplan he.1 he.2) (hnew.wired cable)
    (Each.of_forall (fun e he => ⟨he, hfits e he⟩) net)
  refine ⟨net', hrun, fun p i hi d hd => ?_⟩
  obtain ⟨-, k, hk⟩ := (hwired.ports p i hi).queue d hd
  exact ⟨k, hk, hk.source⟩

namespace Internet

def simulatorPorts : List Port := (List.range 6).map .host ++ (List.range 7).map (.router 0)

/-- The ports of the simulator are new interfaces, and there are no others. -/
theorem simulator_interface {mac : Port → EthernetAddress} {i : AsyncNetworkInterface}
    (h : (simulator mac).interface p = some i) :
    p ∈ simulatorPorts ∧ ∃ ethernetAddress ipAddress, i = { ethernetAddress, ipAddress } := by
  cases p with
  | host k =>
    simp only [interface, Option.map_eq_some_iff] at h
    obtain ⟨host, hk, rfl⟩ := h
    refine ⟨?_, ?_⟩
    · have hlt : k < 6 := (List.getElem?_eq_some_iff.mp hk).1
      simp [simulatorPorts, hlt]
    · have hmem := List.mem_of_getElem? hk
      simp only [simulator, List.mem_cons, List.not_mem_nil, or_false] at hmem
      rcases hmem with rfl | rfl | rfl | rfl | rfl | rfl <;> exact ⟨_, _, rfl⟩
  | router r n =>
    simp only [interface, Option.bind_eq_some_iff] at h
    obtain ⟨router, hr, hn⟩ := h
    obtain ⟨rfl, rfl⟩ : r = 0 ∧ router = _ := by
      cases r with
      | zero => exact ⟨rfl, (Option.some.inj hr).symm⟩
      | succ r => cases hr
    rw [Router.addRoutes_interfaces] at hn
    refine ⟨?_, ?_⟩
    · have hlt : n < 7 := (List.getElem?_eq_some_iff.mp hn).1
      simp [simulatorPorts, hlt]
    · have hmem := List.mem_of_getElem? hn
      simp only [List.mem_cons, List.not_mem_nil, or_false] at hmem
      rcases hmem with rfl | rfl | rfl | rfl | rfl | rfl | rfl <;> exact ⟨_, _, rfl⟩

theorem simulator_new (mac : Port → EthernetAddress) : (simulator mac).New where
  interfaces p i hi := (simulator_interface hi).2
  routers router hr := by
    rw [List.mem_singleton.mp hr]
    exact Router.addRoutes_existing rfl (by simp)

theorem simulator_sound {mac : Port → EthernetAddress}
    (hdistinct : ∀ p ∈ simulatorPorts, ∀ q ∈ simulatorPorts, simulatorCable q = simulatorCable p →
      ((simulator mac).plan simulatorCable).mac q = ((simulator mac).plan simulatorCable).mac p →
      q = p)
    (hunicast : ∀ p ∈ simulatorPorts,
      ((simulator mac).plan simulatorCable).mac p ≠ ETHERNET_BROADCAST) :
    ((simulator mac).plan simulatorCable).Sound := by
  have hports : ∀ p, ((simulator mac).plan simulatorCable).plugged p → p ∈ simulatorPorts := by
    intro p hp
    obtain ⟨i, hi⟩ := Option.isSome_iff_exists.mp hp
    exact (simulator_interface hi).1
  exact ⟨fun p q hp hq hmac => hdistinct p (hports p hp) q (hports q hq.plugged) hq.cable hmac,
    fun p hp => hunicast p (hports p hp)⟩

/-- Addresses numbered by port. -/
def portMac : Port → EthernetAddress
  | .router _ n => ⟨[2, 0, 0, 0, 0, UInt8.ofNat n], rfl⟩
  | .host h => ⟨[2, 0, 0, 0, 1, UInt8.ofNat h], rfl⟩

end Internet

/-- In the simulator's network a datagram from `applesauce` reaches `cherrypie` in six rounds,
with ARP on both cables. -/
theorem internet_routes_simulator :
    let events := .sendTo 0 (ipv4 192 168 0 2) 64 [1, 2, 3] ::
      (List.replicate 6 Internet.simulateRound).flatten
    ∃ net' i d k, exec Internet.step (Internet.simulator Internet.portMac) events = .ok net' ∧
      net'.interface (.host 2) = some i ∧ d ∈ i.datagramsOut ∧ d.header.ttl = 63 ∧
      d.payload = [[1, 2, 3]] ∧ Routed (Internet.simulator Internet.portMac)
        Internet.simulatorCable events d k (.host 2) := by
  intro events
  obtain ⟨net', hrun, hrouted⟩ := internet_routes (Internet.simulator Internet.portMac)
    Internet.simulatorCable (Internet.simulator_new _)
    (Internet.simulator_sound (by decide +kernel) (by decide +kernel)) events (by decide +kernel)
  have harrives : (exec Internet.step (Internet.simulator Internet.portMac) events).toOption.any
      (fun net => (net.interface (.host 2)).any fun i =>
        i.datagramsOut.any fun d => d.header.ttl = 63 && d.payload = [[1, 2, 3]]) = true := by
    decide +kernel
  simp only [hrun, Except.toOption, Option.any_some, Option.any_eq_true, List.any_eq_true,
    Bool.and_eq_true, decide_eq_true_eq] at harrives
  obtain ⟨i, hi, d, hd, httl, hpayload⟩ := harrives
  obtain ⟨k, hk, -⟩ := hrouted (.host 2) i hi d hd
  exact ⟨net', i, d, k, hrun, hi, hd, httl, hpayload, hk⟩

end Sponge
