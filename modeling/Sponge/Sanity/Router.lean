import Sponge.Sanity.NetworkInterface
import Sponge.Sanity.RouteTable

/-! What `route` amounts to: every queued datagram is routed once, interface by
interface in queue order, and then all the queues are empty. -/

namespace Sponge

/-- The datagram as it leaves the router. -/
def IPv4Datagram.hopped (d : IPv4Datagram) : IPv4Datagram :=
  { d with header := { d.header with ttl := d.header.ttl - 1 } }

namespace Router

/-- Where a datagram goes: nowhere, or out of an interface to a next hop. -/
def decision (r : Router) (d : IPv4Datagram) : Option (ℕ × UInt32) :=
  if d.header.ttl ≤ 1 then none
  else (r.bestRoute d.header.dst).map fun e => (e.interfaceNum, e.nextHop.getD d.header.dst)

def forward (r : Router) (d : IPv4Datagram) : Option (ℕ × UInt32) → Except Thrown Router
  | none => .ok r
  | some (n, hop) => do
    let next ← r.interface n
    let iface ← next.sendDatagram d.hopped hop
    return r.setInterface n { next with toNetworkInterface := iface }

theorem routeOneDatagram_eq (r : Router) (d : IPv4Datagram) :
    r.routeOneDatagram d = r.forward d (r.decision d) := by
  simp only [routeOneDatagram, decision]
  split
  · rfl
  · cases r.bestRoute d.header.dst <;> rfl

/-- The router with the queue at interface `n` changed, and nothing else. -/
def mapQueue (n : ℕ) (f : List IPv4Datagram → List IPv4Datagram) (r : Router) : Router :=
  { r with interfaces := r.interfaces.modify n fun i =>
      { i with datagramsOut := f i.datagramsOut } }

theorem mapQueue_mapQueue (n : ℕ) (f g : List IPv4Datagram → List IPv4Datagram) (r : Router) :
    (r.mapQueue n f).mapQueue n g = r.mapQueue n (g ∘ f) := by
  simp [mapQueue, List.modify_modify_eq, Function.comp_def]

/-- The interface with its queue changed, if it is the one at `n`. -/
def requeue (n : ℕ) (f : List IPv4Datagram → List IPv4Datagram) (m : ℕ)
    (i : AsyncNetworkInterface) : AsyncNetworkInterface :=
  { i with datagramsOut := if n = m then f i.datagramsOut else i.datagramsOut }

theorem getElem?_mapQueue (n : ℕ) (f : List IPv4Datagram → List IPv4Datagram) (r : Router)
    (m : ℕ) : (r.mapQueue n f).interfaces[m]? = r.interfaces[m]?.map (requeue n f m) := by
  rw [mapQueue, List.getElem?_modify]
  cases r.interfaces[m]? with
  | none => rfl
  | some i => by_cases h : n = m <;> simp [requeue, h]

theorem queue_mapQueue (n : ℕ) {f : List IPv4Datagram → List IPv4Datagram} (hf : f [] = [])
    (r : Router) (m : ℕ) :
    (r.mapQueue n f).queue m = if n = m then f (r.queue m) else r.queue m := by
  unfold queue
  rw [getElem?_mapQueue]
  cases r.interfaces[m]? with
  | none => simp [hf]
  | some i => simp [requeue]

theorem interface_mapQueue (n : ℕ) (f : List IPv4Datagram → List IPv4Datagram) (r : Router)
    (m : ℕ) : (r.mapQueue n f).interface m = (r.interface m).map (requeue n f m) := by
  unfold interface
  rw [getElem?_mapQueue]
  cases r.interfaces[m]? <;> rfl

theorem mapQueue_setInterface (n : ℕ) (f : List IPv4Datagram → List IPv4Datagram) (r : Router)
    (m : ℕ) (i : AsyncNetworkInterface) :
    (r.setInterface m i).mapQueue n f = (r.mapQueue n f).setInterface m (requeue n f m i) := by
  have hlist : ((r.setInterface m i).mapQueue n f).interfaces =
      ((r.mapQueue n f).setInterface m (requeue n f m i)).interfaces := by
    apply List.ext_getElem?
    intro k
    rw [getElem?_mapQueue, setInterface, setInterface, List.getElem?_set, List.getElem?_set,
      getElem?_mapQueue]
    by_cases hk : m = k
    · subst hk
      by_cases hm : m < r.interfaces.length <;> simp [hm, mapQueue]
    · simp [hk]
  exact congrArg (fun l => Router.mk l r.routeTable) hlist

/-- Sending looks at no queue and changes none. -/
theorem forward_mapQueue (n : ℕ) (f : List IPv4Datagram → List IPv4Datagram) (r : Router)
    (d : IPv4Datagram) (dec : Option (ℕ × UInt32)) :
    (r.mapQueue n f).forward d dec = (r.forward d dec).map (mapQueue n f) := by
  cases dec with
  | none => rfl
  | some target =>
    obtain ⟨m, hop⟩ := target
    simp only [forward, interface_mapQueue]
    cases r.interface m with
    | error e => rfl
    | ok next =>
      simp only [Except.map, ok_bind, requeue]
      cases next.sendDatagram d.hopped hop with
      | error e => rfl
      | ok iface =>
        exact congrArg Except.ok (mapQueue_setInterface n f r m
          { next with toNetworkInterface := iface }).symm

theorem interface_ok {r : Router} {n : ℕ} {i : AsyncNetworkInterface}
    (h : r.interface n = .ok i) : r.interfaces[n]? = some i := by
  unfold interface at h
  cases hi : r.interfaces[n]? with
  | none =>
    rw [hi] at h
    cases h
  | some i' =>
    rw [hi] at h
    cases h
    rfl

/-- What no datagram changes on its way through. -/
structure Kept (r r' : Router) : Prop where
  routeTable : r'.routeTable = r.routeTable
  length : r'.interfaces.length = r.interfaces.length
  queue : ∀ n, r'.queue n = r.queue n

theorem forward_kept {r r' : Router} {d : IPv4Datagram} {dec : Option (ℕ × UInt32)}
    (h : r.forward d dec = .ok r') : Kept r r' := by
  cases dec with
  | none =>
    cases h
    exact ⟨rfl, rfl, fun _ => rfl⟩
  | some target =>
    obtain ⟨m, hop⟩ := target
    obtain ⟨next, hnext, h⟩ := bind_eq_ok h
    obtain ⟨iface, -, h⟩ := bind_eq_ok h
    cases h
    refine ⟨rfl, by simp [setInterface], fun n => ?_⟩
    have hm := interface_ok hnext
    unfold queue setInterface
    rw [List.getElem?_set]
    split
    case isTrue heq =>
      subst heq
      obtain ⟨hlt, hget⟩ := List.getElem?_eq_some_iff.mp hm
      simp [hlt, hget]
    case isFalse => rfl

theorem routeOneDatagram_kept {r r' : Router} {d : IPv4Datagram}
    (h : r.routeOneDatagram d = .ok r') : Kept r r' :=
  forward_kept (routeOneDatagram_eq r d ▸ h)

theorem exec_kept {r r' : Router} {ds : List IPv4Datagram}
    (h : exec routeOneDatagram r ds = .ok r') : Kept r r' := by
  refine exec_ok_inv (I := Kept r) ?_ ⟨rfl, rfl, fun _ => rfl⟩ h
  intro s d s' hs hstep
  have hk := routeOneDatagram_kept hstep
  exact ⟨hk.routeTable.trans hs.routeTable, hk.length.trans hs.length,
    fun n => (hk.queue n).trans (hs.queue n)⟩

theorem routeOneDatagram_mapQueue (n : ℕ) (f : List IPv4Datagram → List IPv4Datagram)
    (r : Router) (d : IPv4Datagram) :
    (r.mapQueue n f).routeOneDatagram d = (r.routeOneDatagram d).map (mapQueue n f) := by
  have hdec : (r.mapQueue n f).decision d = r.decision d := rfl
  rw [routeOneDatagram_eq, routeOneDatagram_eq, hdec, forward_mapQueue]

def clearQueue (n : ℕ) (r : Router) : Router := r.mapQueue n fun _ => []

theorem clearQueue_of_nil {r : Router} {n : ℕ} (h : r.queue n = []) : r.clearQueue n = r := by
  have hlist : (r.clearQueue n).interfaces = r.interfaces := by
    apply List.ext_getElem?
    intro m
    rw [clearQueue, getElem?_mapQueue]
    cases hm : r.interfaces[m]? with
    | none => rfl
    | some i =>
      by_cases hn : n = m
      · subst hn
        have hi : i.datagramsOut = [] := by simpa [queue, hm] using h
        simp [requeue, ← hi]
      · simp [requeue, hn]
  exact congrArg (fun l => Router.mk l r.routeTable) hlist

theorem clearQueue_popDatagram (n : ℕ) (r : Router) :
    (r.popDatagram n).clearQueue n = r.clearQueue n :=
  mapQueue_mapQueue n List.tail (fun _ => []) r

/-- The loop over one queue routes what is in it, in order, and empties it. -/
theorem routeQueue_eq {n fuel : ℕ} {r : Router} (hfuel : (r.queue n).length ≤ fuel) :
    routeQueue n fuel r = (exec routeOneDatagram r (r.queue n)).map (clearQueue n) := by
  induction fuel generalizing r with
  | zero =>
    have hnil : r.queue n = [] := List.length_eq_zero_iff.mp (by omega)
    rw [hnil]
    exact congrArg Except.ok (clearQueue_of_nil hnil).symm
  | succ fuel ih =>
    unfold routeQueue
    cases hq : r.queue n with
    | nil => exact congrArg Except.ok (clearQueue_of_nil hq).symm
    | cons d ds =>
      simp only [exec]
      cases hd : r.routeOneDatagram d with
      | error e => rfl
      | ok r1 =>
        have hpop : (r1.popDatagram n).queue n = ds := by
          have h := queue_mapQueue n (f := List.tail) rfl r1 n
          rwa [if_pos rfl, (routeOneDatagram_kept hd).queue, hq] at h
        have hshort : ((r1.popDatagram n).queue n).length ≤ fuel := by
          rw [hpop]
          rw [hq] at hfuel
          simpa using hfuel
        have hrest : exec routeOneDatagram (r1.popDatagram n) ds =
            (exec routeOneDatagram r1 ds).map (mapQueue n List.tail) :=
          exec_map (routeOneDatagram_mapQueue n List.tail) r1 ds
        rw [ok_bind, ok_bind, ih hshort, hpop, hrest]
        cases exec routeOneDatagram r1 ds with
        | error e => rfl
        | ok r2 => exact congrArg Except.ok (clearQueue_popDatagram n r2)

/-- Everything that waits at the interfaces, in the order it is routed. -/
def waiting (r : Router) : List IPv4Datagram := r.interfaces.flatMap (·.datagramsOut)

def emptied (r : Router) : Router :=
  { r with interfaces := r.interfaces.map fun i => { i with datagramsOut := [] } }

def clearQueues (ns : List ℕ) (r : Router) : Router := ns.foldl (fun r n => r.clearQueue n) r

theorem clearQueue_clearQueues (n : ℕ) (ns : List ℕ) (r : Router) :
    (r.clearQueue n).clearQueues ns = r.clearQueues (n :: ns) := rfl

theorem routeQueues_eq {ns : List ℕ} (hns : ns.Nodup) (r : Router) :
    exec (fun r n => routeQueue n (r.queue n).length r) r ns =
      (exec routeOneDatagram r (ns.flatMap r.queue)).map (clearQueues ns) := by
  induction ns generalizing r with
  | nil => rfl
  | cons n ns ih =>
    obtain ⟨hn, hns⟩ := List.nodup_cons.mp hns
    rw [List.flatMap_cons, exec_append]
    simp only [exec]
    rw [routeQueue_eq le_rfl]
    cases hrun : exec routeOneDatagram r (r.queue n) with
    | error e => rfl
    | ok r1 =>
      have hqueues : ns.flatMap (r1.clearQueue n).queue = ns.flatMap r.queue := by
        apply List.flatMap_congr
        intro m hm
        have hne : n ≠ m := fun h => hn (h ▸ hm)
        rw [clearQueue, queue_mapQueue n rfl, if_neg hne, (exec_kept hrun).queue]
      have hrest : exec routeOneDatagram (r1.clearQueue n) (ns.flatMap r.queue) =
          (exec routeOneDatagram r1 (ns.flatMap r.queue)).map (clearQueue n) :=
        exec_map (routeOneDatagram_mapQueue n fun _ => []) r1 _
      simp only [Except.map, ok_bind]
      rw [ih hns, hqueues, hrest]
      cases exec routeOneDatagram r1 (ns.flatMap r.queue) with
      | error e => rfl
      | ok r2 => rfl

theorem waiting_eq (r : Router) :
    (List.range r.interfaces.length).flatMap r.queue = r.waiting := by
  have hmap : (List.range r.interfaces.length).map r.queue =
      r.interfaces.map (·.datagramsOut) := by
    apply List.ext_getElem?
    intro n
    by_cases hn : n < r.interfaces.length <;> simp [queue, hn]
  rw [List.flatMap_def, hmap, waiting, List.flatMap_def]

theorem getElem?_clearQueues (ns : List ℕ) (r : Router) (m : ℕ) :
    (r.clearQueues ns).interfaces[m]? = r.interfaces[m]?.map fun i =>
      { i with datagramsOut := if m ∈ ns then [] else i.datagramsOut } := by
  induction ns generalizing r with
  | nil => simp [clearQueues]
  | cons n ns ih =>
    rw [← clearQueue_clearQueues, ih, clearQueue, getElem?_mapQueue, Option.map_map]
    congr 1
    funext i
    by_cases hn : n = m
    · simp [requeue, hn]
    · simp [requeue, hn, Ne.symm hn]

theorem clearQueues_routeTable (ns : List ℕ) (r : Router) :
    (r.clearQueues ns).routeTable = r.routeTable := by
  induction ns generalizing r with
  | nil => rfl
  | cons n ns ih => exact ih (r.clearQueue n)

theorem clearQueues_range (r : Router) :
    r.clearQueues (List.range r.interfaces.length) = r.emptied := by
  have hlist : (r.clearQueues (List.range r.interfaces.length)).interfaces =
      r.emptied.interfaces := by
    apply List.ext_getElem?
    intro m
    rw [getElem?_clearQueues, emptied, List.getElem?_map]
    by_cases hm : m < r.interfaces.length <;> simp [hm]
  have htable := r.clearQueues_routeTable (List.range r.interfaces.length)
  calc r.clearQueues (List.range r.interfaces.length)
      = ⟨(r.clearQueues _).interfaces, (r.clearQueues _).routeTable⟩ := rfl
    _ = r.emptied := by rw [hlist, htable]; rfl

/-- `route` is one pass over everything that waits, and then every queue is empty. -/
theorem route_eq (r : Router) :
    r.route = (exec routeOneDatagram r r.waiting).map emptied := by
  rw [route, routeQueues_eq List.nodup_range, waiting_eq]
  cases hrun : exec routeOneDatagram r r.waiting with
  | error e => rfl
  | ok r' =>
    have hlen := (exec_kept hrun).length
    exact congrArg Except.ok (hlen ▸ r'.clearQueues_range)

/-- Every route names an interface of the router. -/
def Existing (r : Router) : Prop :=
  ∀ e ∈ r.routeTable.entries, e.interfaceNum < r.interfaces.length

theorem addRoutes_existing {routes : List RouteEntry} {r : Router}
    (hr : r.routeTable.entries = [])
    (hroutes : ∀ e ∈ routes, e.interfaceNum < r.interfaces.length) :
    (r.addRoutes routes).Existing := by
  intro e he
  rw [addRoutes_interfaces]
  exact hroutes e (mem_routes_of_mem hr he)

def Ready (r : Router) : Prop := ∀ i ∈ r.interfaces, i.toNetworkInterface.Ready

theorem interface_of_lt {r : Router} {n : ℕ} (h : n < r.interfaces.length) :
    ∃ i ∈ r.interfaces, r.interface n = .ok i := by
  refine ⟨r.interfaces[n], List.getElem_mem h, ?_⟩
  simp [interface, h]

theorem forall_setInterface {P : AsyncNetworkInterface → Prop} {r : Router}
    (h : ∀ i ∈ r.interfaces, P i) (n : ℕ) {i : AsyncNetworkInterface} (hi : P i) :
    ∀ i' ∈ (r.setInterface n i).interfaces, P i' := by
  intro i' hi'
  rcases List.mem_or_eq_of_mem_set hi' with hmem | rfl
  · exact h i' hmem
  · exact hi

theorem forward_ok {r : Router} {d : IPv4Datagram} (hd : d.Serialisable)
    {dec : Option (ℕ × UInt32)} (hdec : ∀ n hop, dec = some (n, hop) → n < r.interfaces.length) :
    ∃ r', r.forward d dec = .ok r' ∧ (r.Ready → r'.Ready) := by
  cases dec with
  | none => exact ⟨r, rfl, id⟩
  | some target =>
    obtain ⟨n, hop⟩ := target
    obtain ⟨next, hmem, hnext⟩ := interface_of_lt (hdec n hop rfl)
    obtain ⟨iface, hsent, hready⟩ := next.sendDatagram_ok (hd.setTtl (d.header.ttl - 1)) hop
    refine ⟨r.setInterface n { next with toNetworkInterface := iface }, ?_, ?_⟩
    · simp only [forward, hnext, ok_bind, IPv4Datagram.hopped, hsent]
      rfl
    · exact fun h => forall_setInterface h n (hready (h next hmem))

/-- A datagram is dropped for its time to live or for want of a route, and otherwise
follows a longest stored match. -/
theorem decision_cases (r : Router) (d : IPv4Datagram) :
    (r.decision d = none ∧
      (d.header.ttl ≤ 1 ∨ ∀ e ∈ r.routeTable.entries, ¬e.Matches d.header.dst)) ∨
    (¬d.header.ttl ≤ 1 ∧ ∃ e, RouteEntry.Longest d.header.dst r.routeTable.entries e ∧
      r.decision d = some (e.interfaceNum, e.nextHop.getD d.header.dst)) := by
  have hscan := r.bestRoute_scanned d.header.dst
  unfold decision
  split
  case isTrue httl => exact .inl ⟨rfl, .inl httl⟩
  case isFalse httl =>
    cases hbest : r.bestRoute d.header.dst with
    | none =>
      rw [hbest] at hscan
      exact .inl ⟨rfl, .inr hscan⟩
    | some e =>
      rw [hbest] at hscan
      exact .inr ⟨httl, e, hscan, rfl⟩

theorem Existing.decision_lt {r : Router} (hex : r.Existing) {d : IPv4Datagram} {n : ℕ}
    {hop : UInt32} (h : r.decision d = some (n, hop)) : n < r.interfaces.length := by
  obtain ⟨hnone, -⟩ | ⟨-, e, hlong, hsome⟩ := r.decision_cases d
  · rw [hnone] at h
    cases h
  · rw [hsome] at h
    cases h
    exact hex e hlong.mem

theorem Existing.routed {r : Router} (hex : r.Existing) {ds : List IPv4Datagram}
    (hds : ∀ d ∈ ds, d.Serialisable) :
    ∃ r', exec routeOneDatagram r ds = .ok r' ∧ (r.Ready → r'.Ready) := by
  induction ds generalizing r with
  | nil => exact ⟨r, rfl, id⟩
  | cons d ds ih =>
    obtain ⟨r1, hstep, hready1⟩ := forward_ok (hds d List.mem_cons_self)
      (fun _ _ => hex.decision_lt)
    rw [← routeOneDatagram_eq] at hstep
    have hkept := routeOneDatagram_kept hstep
    have hex1 : r1.Existing := by
      rw [Existing, hkept.routeTable, hkept.length]
      exact hex
    obtain ⟨r2, hrest, hready2⟩ := ih hex1 (fun x hx => hds x (List.mem_cons_of_mem d hx))
    exact ⟨r2, by simp only [exec, hstep, ok_bind, hrest], hready2 ∘ hready1⟩

end Router

end Sponge
