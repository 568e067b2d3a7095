import Sponge.Lib.Exec
import Sponge.Sanity.Wire

/-! An adapter returns the segments of one connection only. -/

namespace Sponge

open TCPOverIPv4Adapter

/-- The segment is what the datagram carries, by a checksum that is right: zero as the
code computes it, and all ones as a sum of the words, which for a datagram's payload
cannot wrap. -/
structure Carries (ipDgram : IPv4Datagram) (seg : TCPSegment) : Prop where
  proto : ipDgram.header.proto = IPv4Header.PROTO_TCP
  parsed : ∃ b, ipDgram.payload.toBuffer = .ok b ∧
    ({} : TCPSegment).parse b ipDgram.header.pseudoCksum = (.noError, seg) ∧
    ({ sum := ipDgram.header.pseudoCksum : InternetChecksum }.add b).value = 0 ∧
    (b.length < 2 ^ 16 → endAround (ipDgram.header.pseudoCksum.toNat + wordSum b) = 65535)

/-- The datagram and its segment go from the adapter's destination to its source. -/
structure FromPeer (a : TCPOverIPv4Adapter) (ipDgram : IPv4Datagram) (seg : TCPSegment) :
    Prop where
  src : ipDgram.header.src = a.config.destination.ipv4Numeric
  sport : seg.header.sport = a.config.destination.port
  dst : ipDgram.header.dst = a.config.source.ipv4Numeric
  dport : seg.header.dport = a.config.source.port

theorem TCPSegment.checksum_of_parse {b : Buffer} {pseudo : UInt32} {g seg : TCPSegment}
    (h : g.parse b pseudo = (.noError, seg)) :
    ({ sum := pseudo : InternetChecksum }.add b).value = 0 := by
  by_contra hbad
  rw [parse, if_pos hbad] at h
  cases h

/-- Everything a call that returns a segment has done. -/
structure Takes (a : TCPOverIPv4Adapter) (ipDgram : IPv4Datagram) (seg : TCPSegment)
    (a' : TCPOverIPv4Adapter) : Prop where
  carries : Carries ipDgram seg
  peer : FromPeer a' ipDgram seg
  off : a'.listening = false
  opened : a.listening = true → seg.header.syn = true ∧ seg.header.rst = false
  kept : a.listening = false → a' = a

theorem ite_eq_ok {ε α : Type} {c : Prop} [Decidable c] {a b : α} {x : Except ε α}
    (h : (if c then .ok a else x) = .ok b) : b = a ∨ (¬ c ∧ x = .ok b) := by
  by_cases hc : c
  · rw [if_pos hc] at h
    exact .inl (Except.ok.inj h).symm
  · rw [if_neg hc] at h
    exact .inr ⟨hc, h⟩

theorem TCPOverIPv4Adapter.unwrapTcpInIp_spec {a a' : TCPOverIPv4Adapter}
    {ipDgram : IPv4Datagram} {o : Option TCPSegment}
    (h : a.unwrapTcpInIp ipDgram = .ok (o, a')) :
    (o = none ∧ a' = a) ∨ ∃ seg, o = some seg ∧ Takes a ipDgram seg a' := by
  unfold unwrapTcpInIp at h
  rcases ite_eq_ok h with hnone | ⟨hdst, h⟩
  · exact .inl (Prod.mk.inj hnone)
  rcases ite_eq_ok h with hnone | ⟨hsrc, h⟩
  · exact .inl (Prod.mk.inj hnone)
  rcases ite_eq_ok h with hnone | ⟨hproto, h⟩
  · exact .inl (Prod.mk.inj hnone)
  obtain ⟨b, hb, h⟩ := bind_eq_ok h
  dsimp only at h
  generalize hparse : ({} : TCPSegment).parse b ipDgram.header.pseudoCksum = parsed at h
  obtain ⟨result, seg⟩ := parsed
  rcases ite_eq_ok h with hnone | ⟨hresult, h⟩
  · exact .inl (Prod.mk.inj hnone)
  rcases ite_eq_ok h with hnone | ⟨hdport, h⟩
  · exact .inl (Prod.mk.inj hnone)
  have hnoError : result = .noError := not_not.mp hresult
  subst hnoError
  have hcksum := TCPSegment.checksum_of_parse hparse
  have hcarries : Carries ipDgram seg := by
    refine ⟨not_not.mp hproto, b, hb, hparse, hcksum, fun hlen => ?_⟩
    exact (InternetChecksum.value_add_eq_zero_iff ipDgram.header.pseudoCksum_lt (by omega)).mp hcksum
  split at h
  case isTrue hlisten =>
    split at h
    case isTrue hsyn =>
      have hpeer : (a.accept ipDgram seg).fromPeer seg = some seg := if_neg (not_not.mpr rfl)
      rw [hpeer] at h
      cases h
      refine .inr ⟨seg, rfl, hcarries, ⟨rfl, rfl, rfl, not_not.mp hdport⟩, rfl, fun _ => ?_, ?_⟩
      · exact ⟨hsyn.1, by simpa using hsyn.2⟩
      · exact fun hoff => absurd hlisten (by simp [hoff])
    · cases h
      exact .inl ⟨rfl, rfl⟩
  case isFalse hlisten =>
    simp only [Bool.not_eq_true] at hlisten
    simp only [hlisten, Bool.not_false, true_and, ne_eq, not_not] at hdst hsrc hdport
    by_cases hsport : seg.header.sport = a.config.destination.port
    · have hpeer : a.fromPeer seg = some seg := if_neg (not_not.mpr hsport)
      rw [hpeer] at h
      cases h
      exact .inr ⟨seg, rfl, hcarries, ⟨hsrc, hsport, hdst, hdport⟩, hlisten,
        fun hon => absurd hon (by simp [hlisten]), fun _ => rfl⟩
    · have hnone : a.fromPeer seg = none := if_pos hsport
      rw [hnone] at h
      cases h
      exact .inl ⟨rfl, rfl⟩

namespace AdapterRun

theorem step_cases (r : AdapterRun) (ipDgram : IPv4Datagram) :
    r.step ipDgram = r ∨ ∃ seg a', r.step ipDgram = ⟨a', r.returned ++ [(ipDgram, seg)]⟩ ∧
      Takes r.adapter ipDgram seg a' := by
  unfold step
  cases hcall : r.adapter.unwrapTcpInIp ipDgram with
  | error x => exact .inl rfl
  | ok result =>
    obtain ⟨o, a'⟩ := result
    rcases unwrapTcpInIp_spec hcall with ⟨rfl, rfl⟩ | ⟨seg, rfl, htakes⟩
    · exact .inl rfl
    · exact .inr ⟨seg, a', rfl, htakes⟩

/-- What a run that began with the adapter `a` has returned, and the adapter it has come
to. -/
structure Isolated (a : TCPOverIPv4Adapter) (r : AdapterRun) : Prop where
  returned : ∀ x ∈ r.returned, Carries x.1 x.2 ∧ FromPeer r.adapter x.1 x.2
  opened : a.listening = true → ∀ ipDgram seg rest, r.returned = (ipDgram, seg) :: rest →
    seg.header.syn = true ∧ seg.header.rst = false ∧ r.adapter = {
      config := {
        source := ⟨ipDgram.header.dst, seg.header.dport⟩
        destination := ⟨ipDgram.header.src, seg.header.sport⟩ }
      listening := false }
  untouched : a.listening = false ∨ r.returned = [] → r.adapter = a

variable {a : TCPOverIPv4Adapter} {r : AdapterRun}

/-- While the adapter listens nothing has been returned. -/
theorem Isolated.returned_eq_nil (h : Isolated a r) (hon : r.adapter.listening = true) :
    a.listening = true ∧ r.returned = [] := by
  have ha : a.listening = true := by
    by_contra hoff
    rw [Bool.not_eq_true] at hoff
    rw [h.untouched (.inl hoff), hoff] at hon
    cases hon
  refine ⟨ha, ?_⟩
  cases hr : r.returned with
  | nil => rfl
  | cons x rest =>
    rw [(h.opened ha x.1 x.2 rest hr).2.2] at hon
    cases hon

theorem FromPeer.adapter_eq {a : TCPOverIPv4Adapter} {ipDgram : IPv4Datagram} {seg : TCPSegment}
    (h : FromPeer a ipDgram seg) (hoff : a.listening = false) : a = {
      config := {
        source := ⟨ipDgram.header.dst, seg.header.dport⟩
        destination := ⟨ipDgram.header.src, seg.header.sport⟩ }
      listening := false } := by
  rw [h.src, h.sport, h.dst, h.dport, ← hoff]

theorem Isolated.step (h : Isolated a r) (ipDgram : IPv4Datagram) :
    Isolated a (r.step ipDgram) := by
  rcases r.step_cases ipDgram with hsame | ⟨seg, a', hstep, htakes⟩
  · rwa [hsame]
  rw [hstep]
  cases hon : r.adapter.listening with
  | true =>
    -- the first segment, which opens the connection
    obtain ⟨ha, hnil⟩ := h.returned_eq_nil hon
    rw [hnil, List.nil_append]
    refine ⟨?_, fun _ d g rest hr => ?_, ?_⟩
    · rw [List.forall_mem_singleton]
      exact ⟨htakes.carries, htakes.peer⟩
    · cases hr
      obtain ⟨hsyn, hrst⟩ := htakes.opened hon
      exact ⟨hsyn, hrst, FromPeer.adapter_eq htakes.peer htakes.off⟩
    · rintro (hoff | hempty)
      · exact absurd ha (by simp [hoff])
      · cases hempty
  | false =>
    have hkept := htakes.kept hon
    subst hkept
    refine ⟨fun x hx => ?_, fun ha d g rest hr => ?_, ?_⟩
    · rcases List.mem_append.mp hx with hx | hx
      · exact h.returned x hx
      · rw [List.mem_singleton.mp hx]
        exact ⟨htakes.carries, htakes.peer⟩
    · cases hold : r.returned with
      | nil =>
        rw [h.untouched (.inr hold), ha] at hon
        cases hon
      | cons x rest' =>
        have hhead : x = (d, g) := by
          simp only [hold, List.cons_append, List.cons.injEq] at hr
          exact hr.1
        exact h.opened ha d g rest' (hhead ▸ hold)
    · rintro (hoff | hempty)
      · exact h.untouched (.inl hoff)
      · exact absurd hempty (List.append_ne_nil_of_right_ne_nil _ (List.cons_ne_nil _ _))

end AdapterRun

open AdapterRun

/-- For every adapter and whatever datagrams are given to it. A call that returns nothing
leaves the adapter it has come to alone. -/
theorem connection_isolated (a : TCPOverIPv4Adapter) (ipDgrams : List IPv4Datagram) :
    Isolated a (AdapterRun.run ⟨a, []⟩ ipDgrams) ∧
    ∀ ipDgram a', (AdapterRun.run ⟨a, []⟩ ipDgrams).adapter.unwrapTcpInIp ipDgram =
      .ok (none, a') → a' = (AdapterRun.run ⟨a, []⟩ ipDgrams).adapter := by
  refine ⟨?_, fun ipDgram a' h => ?_⟩
  · refine foldl_inv (C := fun _ _ => True) (fun _ d h _ => h.step d) ?_ ipDgrams
      fun _ _ _ => trivial
    exact ⟨fun x hx => absurd hx List.not_mem_nil, fun _ _ _ _ hr => (by cases hr), fun _ => rfl⟩
  · rcases unwrapTcpInIp_spec h with ⟨-, hsame⟩ | ⟨seg, hsome, -⟩
    · exact hsame
    · cases hsome

end Sponge
