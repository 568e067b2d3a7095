import Sponge.Lib.Loop
import Sponge.Lib.Tiling
import Sponge.Sanity.ByteStream
import Sponge.Sanity.Wrapping
import Sponge.Spec.TCPSender

/-! What `fill_window` does. Every segment that takes up sequence numbers is made by
`push_segment`, so it is a list of sends, each inside the window, and it goes on
until there is nothing more to push. -/

namespace Sponge

namespace TCPSender

/-- The sequence numbers that a list of segments takes up. -/
abbrev space (gs : List TCPSegment) : ℕ := span TCPSegment.lengthInSequenceSpace gs

theorem space_nil : space [] = 0 := rfl

theorem space_append (gs hs : List TCPSegment) : space (gs ++ hs) = space gs + space hs :=
  span_append gs hs

theorem space_cons (g : TCPSegment) (gs : List TCPSegment) :
    space (g :: gs) = g.lengthInSequenceSpace + space gs := span_cons g gs

/-- The sender after it has queued a new segment. -/
def sent (s : TCPSender) (g : TCPSegment) : TCPSender :=
  { s with
    setSyn := true
    setFin := s.setFin || g.header.fin
    stream := s.stream.popOutput g.payload.length
    segmentsOut := s.segmentsOut ++ [g]
    timer := if !s.timer.running then s.timer.start else s.timer
    segmentsUnackno := s.segmentsUnackno ++ [g]
    nextSeqno := s.nextSeqno + g.lengthInSequenceSpace
    bytesInFlight := s.bytesInFlight + g.lengthInSequenceSpace }

/-- A new segment, made when `room` sequence numbers are left. -/
structure Send (s : TCPSender) (room : ℕ) (g : TCPSegment) : Prop where
  seqno : g.header.seqno = wrap s.nextSeqno s.isn
  syn : g.header.syn = !s.setSyn
  ack : g.header.ack = false
  bytes : g.payload = s.stream.buffer.take g.payload.length
  size : g.payload.length ≤ maxPayloadSize
  pos : 0 < g.lengthInSequenceSpace
  room : g.lengthInSequenceSpace ≤ room
  fin : g.header.fin = true →
    s.setFin = false ∧ s.stream.inputEnded = true ∧ g.payload = s.stream.buffer

/-- The first segment always has room for its SYN, so `push_segment` either makes
a segment or changes nothing. -/
theorem pushSegment_spec (s : TCPSender) (room : ℕ) (hroom : s.setSyn = false → 0 < room) :
    s.pushSegment room = (s, false) ∨
      ∃ g, Send s room g ∧ s.pushSegment room = (s.sent g, true) := by
  unfold pushSegment
  have hsyn : ¬ room < (!s.setSyn).toNat := by
    cases h : s.setSyn with
    | false => have := hroom h; simp only [Bool.not_false, Bool.toNat_true]; omega
    | true => simp
  simp only [if_neg hsyn, ByteStream.read]
  generalize hk : min maxPayloadSize (min (room - (!s.setSyn).toNat) s.stream.bufferSize) = k
  generalize hfin : (!s.setFin && _ && _) = fin
  have hlen : (s.stream.peekOutput k).length = k := by
    have : k ≤ s.stream.buffer.length := by
      rw [← hk]
      exact (Nat.min_le_right _ _).trans (Nat.min_le_right _ _)
    simp [ByteStream.peekOutput, this]
  have hfin' : fin = true → s.setFin = false ∧ s.stream.inputEnded = true ∧
      s.stream.buffer.length ≤ k ∧ k + (!s.setSyn).toNat < room := by
    intro h
    rw [h] at hfin
    simpa [ByteStream.eof, ByteStream.bufferEmpty, ByteStream.popOutput, and_assoc,
      TCPSegment.lengthInSequenceSpace, hlen] using hfin
  by_cases hz : TCPSegment.lengthInSequenceSpace
      { header := { syn := !s.setSyn, fin := fin }, payload := s.stream.peekOutput k } ≤ 0
  · left
    rw [if_pos hz]
    simp only [TCPSegment.lengthInSequenceSpace, hlen, nonpos_iff_eq_zero, Nat.add_eq_zero_iff,
      Bool.toNat_eq_zero, Bool.not_eq_false'] at hz
    obtain ⟨⟨h1, h2⟩, h3⟩ := hz
    rw [hlen, h1, h3, ByteStream.popOutput_zero, Bool.or_false]
    cases s
    simp_all only
  · right
    rw [if_neg hz]
    simp only [TCPSegment.lengthInSequenceSpace, hlen] at hz
    refine ⟨_, ⟨rfl, rfl, rfl, ?_, ?_, ?_, ?_, ?_⟩, rfl⟩
    · simp [ByteStream.peekOutput]
    · rw [hlen, ← hk]
      exact Nat.min_le_left _ _
    · simp only [TCPSegment.lengthInSequenceSpace, hlen]
      omega
    · simp only [TCPSegment.lengthInSequenceSpace, hlen]
      cases fin with
      | false => simp only [Bool.toNat_false]; omega
      | true => have := (hfin' rfl).2.2.2; simp only [Bool.toNat_true]; omega
    · intro h
      obtain ⟨h1, h2, h3, -⟩ := hfin' h
      refine ⟨h1, h2, ?_⟩
      simp only [ByteStream.peekOutput, List.take_eq_self_iff]
      omega

/-- Segments made one after the other, each inside the window. -/
inductive Sends : TCPSender → List TCPSegment → TCPSender → Prop
  | nil (s : TCPSender) : Sends s [] s
  | cons {s t : TCPSender} {g : TCPSegment} {gs : List TCPSegment} {room : ℕ} (hg : Send s room g)
      (hroom : s.bytesInFlight + room ≤ max 1 s.windowSize) (ht : Sends (s.sent g) gs t) :
      Sends s (g :: gs) t

theorem Sends.keeps {P : TCPSender → List TCPSegment → Prop}
    (hP : ∀ s first g room, P s first → Send s room g →
      s.bytesInFlight + room ≤ max 1 s.windowSize → P (s.sent g) (first ++ [g]))
    {s t : TCPSender} {gs : List TCPSegment} (h : Sends s gs t) :
    ∀ first, P s first → P t (first ++ gs) := by
  induction h with
  | nil s =>
    intro first hs
    rwa [List.append_nil]
  | cons hg hroom _ ih =>
    intro first hs
    have := ih _ (hP _ first _ _ hs hg hroom)
    rwa [List.append_assoc] at this

theorem Sends.made {s t : TCPSender} {gs : List TCPSegment} (h : Sends s gs t) :
    ∀ {mid post : List TCPSegment} {g : TCPSegment}, gs = mid ++ g :: post →
      ∃ u room, Sends s mid u ∧ Send u room g ∧ u.bytesInFlight + room ≤ max 1 u.windowSize := by
  induction h with
  | nil s =>
    intro mid post g hgs
    simp at hgs
  | @cons s t b gs room hb hroom _ ih =>
    intro mid post g hgs
    cases mid with
    | nil =>
      cases hgs
      exact ⟨s, room, .nil s, hb, hroom⟩
    | cons c mid =>
      cases hgs
      obtain ⟨u, room', hu, hg, hroom'⟩ := ih rfl
      exact ⟨u, room', .cons hb hroom hu, hg, hroom'⟩

theorem Send.unsent {s : TCPSender} {room : ℕ} {g : TCPSegment} (hg : Send s room g) :
    (s.sent g).unsent + g.lengthInSequenceSpace = s.unsent := by
  have hlen : g.payload.length ≤ s.stream.buffer.length := by
    rw [hg.bytes]
    exact List.length_take_le' _ _
  have hbuf : (s.stream.popOutput g.payload.length).buffer.length =
      s.stream.buffer.length - g.payload.length := by
    simp [ByteStream.popOutput, hlen]
  have hfin : (!(s.setFin || g.header.fin)).toNat + g.header.fin.toNat = (!s.setFin).toNat := by
    cases hf : g.header.fin with
    | false => simp
    | true => simp [(hg.fin hf).1]
  simp only [TCPSender.unsent, sent, ByteStream.bufferSize, hbuf, TCPSegment.lengthInSequenceSpace,
    hg.syn, Bool.not_true, Bool.toNat_false]
  omega

theorem pushSegment_true {s t : TCPSender} {room : ℕ} (h : s.pushSegment room = (t, true)) :
    ∃ g, Send s room g ∧ t = s.sent g := by
  have hroom : s.setSyn = false → 0 < room := by
    intro hsyn
    by_contra hzero
    simp [pushSegment, hsyn, Nat.eq_zero_of_not_pos hzero] at h
  rcases pushSegment_spec s room hroom with hp | ⟨g, hg, hp⟩
  · simp [hp] at h
  · rw [hp] at h
    cases h
    exact ⟨g, hg, rfl⟩

theorem pushSegment_unsent {s t : TCPSender} {room : ℕ} (h : s.pushSegment room = (t, true)) :
    t.unsent < s.unsent := by
  obtain ⟨g, hg, rfl⟩ := pushSegment_true h
  have hless := hg.unsent
  have hpos := hg.pos
  omega

theorem pushSegment_flight {s t : TCPSender} {room : ℕ} (h : s.pushSegment room = (t, false)) :
    t.bytesInFlight = s.bytesInFlight := by
  unfold pushSegment at h
  simp only [ByteStream.read] at h
  split at h
  · cases h
    rfl
  · split at h
    · cases h
      rfl
    · cases h

/-- One turn of a loop of `fill_window`. -/
def fillTurn (size : TCPSender → Option ℕ) (s : TCPSender) : Turn TCPSender :=
  match size s with
  | none => .leave s
  | some length =>
    match s.pushSegment length with
    | (s, false) => .leave s
    | (s, true) => .again s

theorem fillLoop_eq_turns (size : TCPSender → Option ℕ) (fuel : ℕ) (s : TCPSender) :
    fillLoop size fuel s = turns (fillTurn size) fuel s := by
  induction fuel generalizing s with
  | zero => rfl
  | succ fuel ih =>
    cases hr : size s with
    | none => simp only [fillLoop, turns, fillTurn, hr]
    | some length =>
      rcases hp : s.pushSegment length with ⟨t, _ | _⟩
      · simp only [fillLoop, turns, fillTurn, hr, hp]
      · simp only [fillLoop, turns, fillTurn, hr, hp]
        exact ih t

theorem fillTurn_again {size : TCPSender → Option ℕ} {s t : TCPSender}
    (h : fillTurn size s = .again t) :
    ∃ room, size s = some room ∧ s.pushSegment room = (t, true) := by
  unfold fillTurn at h
  cases hr : size s with
  | none => simp [hr] at h
  | some room =>
    rcases hp : s.pushSegment room with ⟨u, _ | _⟩
    · simp [hr, hp] at h
    · simp only [hr, hp, Turn.again.injEq] at h
      exact ⟨room, rfl, by rw [hp, h]⟩

theorem fillTurn_send {size : TCPSender → Option ℕ} {s t : TCPSender}
    (h : fillTurn size s = .again t) :
    ∃ room g, size s = some room ∧ Send s room g ∧ t = s.sent g := by
  obtain ⟨room, hr, hp⟩ := fillTurn_again h
  obtain ⟨g, hg, rfl⟩ := pushSegment_true hp
  exact ⟨room, g, hr, hg, rfl⟩

theorem fillTurn_leave {size : TCPSender → Option ℕ} {s t : TCPSender}
    (h : fillTurn size s = .leave t) :
    size s = none ∧ t = s ∨ ∃ room, size s = some room ∧ s.pushSegment room = (t, false) := by
  unfold fillTurn at h
  cases hr : size s with
  | none =>
    simp only [hr, Turn.leave.injEq] at h
    exact Or.inl ⟨rfl, h.symm⟩
  | some room =>
    rcases hp : s.pushSegment room with ⟨u, _ | _⟩
    · simp only [hr, hp, Turn.leave.injEq] at h
      exact Or.inr ⟨room, rfl, by rw [hp, h]⟩
    · simp [hr, hp] at h

theorem fillLoop_ends (size : TCPSender → Option ℕ) (s : TCPSender) :
    ∃ n, n ≤ s.unsent + 1 ∧ Ends (fillTurn size) n s (fillLoop size (s.unsent + 1) s) := by
  have hdrop : ∀ s t, fillTurn size s = .again t → t.unsent < s.unsent := by
    intro s t hst
    obtain ⟨room, -, hp⟩ := fillTurn_again hst
    exact pushSegment_unsent hp
  obtain ⟨n, t, hn, ht⟩ := exists_ends TCPSender.unsent hdrop s
  rw [fillLoop_eq_turns, ht.turns_eq hn]
  exact ⟨n, hn, ht⟩

/-- The room at the head of the loop that `fill_window` runs. -/
def room (s : TCPSender) : Option ℕ :=
  if s.windowSize = 0 then zeroWindowRoom s else windowRoom s

theorem room_pos {s : TCPSender} (h : s.bytesInFlight = 0) :
    ∃ room, s.room = some room ∧ 0 < room := by
  unfold TCPSender.room
  split_ifs with hw
  · exact ⟨1, by simp [zeroWindowRoom, h], Nat.one_pos⟩
  · exact ⟨s.windowSize, by simp [windowRoom, h, Nat.pos_of_ne_zero hw], Nat.pos_of_ne_zero hw⟩

theorem room_le {s : TCPSender} {r : ℕ} (h : s.room = some r) (hr : 0 < r) :
    s.bytesInFlight + r ≤ max 1 s.windowSize := by
  unfold TCPSender.room zeroWindowRoom windowRoom at h
  split_ifs at h <;> simp only [Option.some.injEq] at h <;> omega

/-- The window stays as it is, so a loop that takes its room as `fill_window` has chosen
finds the room of each state it comes to. -/
theorem ends_room {size : TCPSender → Option ℕ} {w n : ℕ} {s t : TCPSender}
    (h : Ends (fillTurn size) n s t) (hsize : ∀ u : TCPSender, u.windowSize = w → size u = u.room)
    (hw : s.windowSize = w) : ∃ k, Ends (fillTurn room) k s t := by
  have hturn : ∀ u : TCPSender, u.windowSize = w → fillTurn size u = fillTurn room u := by
    intro u hu
    unfold fillTurn
    rw [hsize u hu]
  refine h.rel (P := fun u => u.windowSize = w) (R := fun u v => ∃ k, Ends (fillTurn room) k u v)
    (fun u v hu huv => ?_) (fun u v hu huv => ?_) hw
  · rw [hturn u hu] at huv
    exact ⟨1, .leave huv⟩
  · obtain ⟨_, g, -, -, rfl⟩ := fillTurn_send huv
    rw [hturn u hu] at huv
    exact ⟨hu, fun _ ⟨k, hk⟩ => ⟨k + 1, .again huv hk⟩⟩

theorem fillWindow_ends (s : TCPSender) : ∃ n, Ends (fillTurn room) n s s.fillWindow := by
  unfold fillWindow
  split_ifs with hw
  · obtain ⟨n, -, h⟩ := fillLoop_ends zeroWindowRoom s
    exact ends_room h (fun u hu => by simp [TCPSender.room, hu]) hw
  · obtain ⟨n, -, h⟩ := fillLoop_ends windowRoom s
    exact ends_room h (fun u hu => by simp [TCPSender.room, hu, hw]) rfl

theorem fillWindow_keeps {P : TCPSender → Prop}
    (hpush : ∀ (s : TCPSender) (room : ℕ), P s → P (s.pushSegment room).1) {s : TCPSender}
    (hs : P s) : P s.fillWindow := by
  obtain ⟨n, h⟩ := fillWindow_ends s
  refine h.rel (R := fun _ t => P t) (fun s t hs hst => ?_) (fun s t hs hst => ?_) hs
  · rcases fillTurn_leave hst with ⟨-, rfl⟩ | ⟨r, -, hp⟩
    · exact hs
    · have := hpush s r hs
      rwa [hp] at this
  · obtain ⟨r, -, hp⟩ := fillTurn_again hst
    have := hpush s r hs
    rw [hp] at this
    exact ⟨this, fun _ hu => hu⟩

theorem fillTurn_leave_eq {s t : TCPSender} (hsyn : s.setSyn = false → s.bytesInFlight = 0)
    (h : fillTurn room s = .leave t) :
    t = s ∧ ∀ r, s.room = some r → s.pushSegment r = (s, false) := by
  rcases fillTurn_leave h with ⟨hr, rfl⟩ | ⟨r, hr, hp⟩
  · exact ⟨rfl, fun r hr' => by simp [hr] at hr'⟩
  · have hpos : s.setSyn = false → 0 < r := by
      intro hs
      obtain ⟨r', hr', hpos⟩ := room_pos (hsyn hs)
      rw [hr] at hr'
      cases hr'
      exact hpos
    rcases pushSegment_spec s r hpos with hp' | ⟨g, -, hp'⟩
    · rw [hp] at hp'
      cases hp'
      refine ⟨rfl, fun r' hr' => ?_⟩
      rw [hr] at hr'
      cases hr'
      exact hp
    · simp [hp] at hp'

theorem fillWindow_spec (s : TCPSender) (hsyn : s.setSyn = false → s.bytesInFlight = 0) :
    ∃ gs, Sends s gs s.fillWindow := by
  obtain ⟨n, h⟩ := fillWindow_ends s
  refine h.rel (P := fun s => s.setSyn = false → s.bytesInFlight = 0)
    (R := fun s t => ∃ gs, Sends s gs t) (fun s t hs hst => ?_) (fun s t hs hst => ?_) hsyn
  · obtain ⟨rfl, -⟩ := fillTurn_leave_eq hs hst
    exact ⟨[], .nil t⟩
  · obtain ⟨r, g, hr, hg, rfl⟩ := fillTurn_send hst
    have hroom := room_le hr (hg.pos.trans_le hg.room)
    exact ⟨by simp [sent], fun u ⟨gs, hgs⟩ => ⟨g :: gs, .cons hg hroom hgs⟩⟩

/-- `fill_window` returns only when it has nothing more to push. -/
theorem fillWindow_stops (s : TCPSender) (hsyn : s.setSyn = false → s.bytesInFlight = 0) :
    ∀ r, s.fillWindow.room = some r → s.fillWindow.pushSegment r = (s.fillWindow, false) := by
  obtain ⟨n, h⟩ := fillWindow_ends s
  refine h.rel (P := fun s => s.setSyn = false → s.bytesInFlight = 0)
    (R := fun _ t => ∀ r, t.room = some r → t.pushSegment r = (t, false))
    (fun s t hs hst => ?_) (fun s t _ hst => ?_) hsyn
  · obtain ⟨rfl, hstop⟩ := fillTurn_leave_eq hs hst
    exact hstop
  · obtain ⟨r, g, -, -, rfl⟩ := fillTurn_send hst
    exact ⟨by simp [sent], fun u hu => hu⟩

theorem fillWindow_flight_le (s : TCPSender) :
    s.fillWindow.bytesInFlight ≤ max s.bytesInFlight (max 1 s.windowSize) := by
  obtain ⟨n, h⟩ := fillWindow_ends s
  refine h.rel (P := fun _ => True)
    (R := fun s t => t.bytesInFlight ≤ max s.bytesInFlight (max 1 s.windowSize))
    (fun s t _ hst => ?_) (fun s t _ hst => ?_) trivial
  · rcases fillTurn_leave hst with ⟨-, rfl⟩ | ⟨r, -, hp⟩
    · exact le_max_left _ _
    · rw [pushSegment_flight hp]
      exact le_max_left _ _
  · obtain ⟨r, g, hr, hg, rfl⟩ := fillTurn_send hst
    have hroom := room_le hr (hg.pos.trans_le hg.room)
    have hfits := hg.room
    refine ⟨trivial, fun u hu => ?_⟩
    simp only [sent] at hu
    omega

/-- The SYN has been sent, and as long as there is room everything else has too. -/
structure Full (s : TCPSender) : Prop where
  syn : s.setSyn = true
  idle : ∀ room, s.room = some room → 0 < room →
    s.stream.buffer = [] ∧ (s.stream.inputEnded = true → s.setFin = true)

theorem pushSegment_false {s : TCPSender} {room : ℕ} (h : s.pushSegment room = (s, false))
    (hroom : 0 < room) : s.setSyn = true ∧ s.stream.buffer = [] ∧
      (s.stream.inputEnded = true → s.setFin = true) := by
  have hpush : (s.pushSegment room).2 = false := by rw [h]
  have hle : ¬ room < (!s.setSyn).toNat := by
    have := Bool.toNat_le (!s.setSyn)
    omega
  unfold pushSegment at hpush
  simp only [if_neg hle, ByteStream.read] at hpush
  split_ifs at hpush with hz
  simp only [TCPSegment.lengthInSequenceSpace, nonpos_iff_eq_zero, Nat.add_eq_zero_iff,
    Bool.toNat_eq_zero, Bool.not_eq_false', List.length_eq_zero_iff] at hz
  obtain ⟨⟨hpayload, hsyn⟩, hfin⟩ := hz
  have hbuf : s.stream.buffer = [] := by
    simp only [ByteStream.peekOutput, ByteStream.bufferSize, hsyn, List.take_eq_nil_iff] at hpayload
    rcases hpayload with hk | hb
    · apply List.length_eq_zero_iff.mp
      simp only [maxPayloadSize, Bool.not_true, Bool.toNat_false] at hk
      omega
    · exact hb
  refine ⟨hsyn, hbuf, fun hend => ?_⟩
  by_contra hset
  rw [Bool.not_eq_true] at hset
  simp [hset, ByteStream.eof, ByteStream.bufferEmpty, ByteStream.popOutput, hend, hbuf, hsyn,
    ByteStream.peekOutput, hroom] at hfin

/-- What a send leaves alone, and what it only adds to. -/
structure Grown (s : TCPSender) (gs : List TCPSegment) (t : TCPSender) : Prop where
  isn : t.isn = s.isn
  recvAckno : t.recvAckno = s.recvAckno
  windowSize : t.windowSize = s.windowSize
  out : t.segmentsOut = s.segmentsOut ++ gs
  unackno : t.segmentsUnackno = s.segmentsUnackno ++ gs
  next : t.nextSeqno = s.nextSeqno + space gs
  flight : t.bytesInFlight = s.bytesInFlight + space gs
  written : t.stream.bytesWritten = s.stream.bytesWritten
  ended : t.stream.inputEnded = s.stream.inputEnded
  error : t.stream.error = s.stream.error
  read : s.stream.bytesRead ≤ t.stream.bytesRead
  syn : s.setSyn = true → t.setSyn = true
  fin : s.setFin = true → t.setFin = true

theorem Sends.grown {s t : TCPSender} {gs : List TCPSegment} (h : Sends s gs t) : Grown s gs t := by
  induction h with
  | nil s => constructor <;> simp
  | @cons s _ g _ _ hg _ _ ih =>
    obtain ⟨h1, h2, h3, h4, h5, h6, h7, h8, h9, h10, h11, h12, h13⟩ := ih
    refine ⟨h1, h2, h3, ?_, ?_, ?_, ?_, h8, h9, h10, ?_, fun _ => h12 rfl, fun h => h13 ?_⟩
    · rw [h4, sent, List.append_assoc]; rfl
    · rw [h5, sent, List.append_assoc]; rfl
    · rw [h6, sent, space_cons, Nat.add_assoc]
    · rw [h7, sent, space_cons, Nat.add_assoc]
    · exact (ByteStream.popOutput_bytesRead_le _ _).trans h11
    · simp [sent, h]

theorem Sends.syn {s t : TCPSender} {gs : List TCPSegment} (h : Sends s gs t) (hne : gs ≠ []) :
    t.setSyn = true := by
  cases h with
  | nil => exact absurd rfl hne
  | cons _ _ ht => exact ht.grown.syn rfl

theorem fillWindow_full (s : TCPSender) (hsyn : s.setSyn = false → s.bytesInFlight = 0) :
    Full s.fillWindow := by
  obtain ⟨gs, hgs⟩ := fillWindow_spec s hsyn
  have hstop : ∀ room, s.fillWindow.room = some room → 0 < room →
      s.fillWindow.setSyn = true ∧ s.fillWindow.stream.buffer = [] ∧
        (s.fillWindow.stream.inputEnded = true → s.fillWindow.setFin = true) := by
    intro room hr hpos
    exact pushSegment_false (fillWindow_stops s hsyn room hr) hpos
  refine ⟨?_, fun room hr hpos => (hstop room hr hpos).2⟩
  by_cases hne : gs = []
  · by_contra hc
    rw [Bool.not_eq_true] at hc
    have hflight := hgs.grown.flight
    rw [hne, space_nil, Nat.add_zero] at hflight
    have hzero : s.setSyn = false := by
      by_contra hs
      rw [Bool.not_eq_false] at hs
      simp [hgs.grown.syn hs] at hc
    obtain ⟨room, hr, hpos⟩ := room_pos (hflight.trans (hsyn hzero))
    simp [(hstop room hr hpos).1] at hc
  · exact hgs.syn hne

theorem Full.not_send {s : TCPSender} (h : Full s) {room : ℕ} (hr : s.room = some room)
    {g : TCPSegment} (hg : Send s room g) : False := by
  obtain ⟨hbuf, hend⟩ := h.idle room hr (hg.pos.trans_le hg.room)
  have hpayload : g.payload = [] := by
    have := hg.bytes
    rwa [hbuf, List.take_nil] at this
  have hfin : g.header.fin = false := by
    by_contra hc
    rw [Bool.not_eq_false] at hc
    obtain ⟨h1, h2, -⟩ := hg.fin hc
    simp [hend h2] at h1
  have hpos := hg.pos
  simp [TCPSegment.lengthInSequenceSpace, hpayload, hg.syn, h.syn, hfin] at hpos

theorem Full.fillWindow_eq {s : TCPSender} (h : Full s) : s.fillWindow = s := by
  have hloop : ∀ size : TCPSender → Option ℕ, size s = s.room →
      fillLoop size (s.unsent + 1) s = s := by
    intro size hsize
    cases hr : s.room with
    | none => simp only [fillLoop, hsize, hr]
    | some room =>
      rcases pushSegment_spec s room (by simp [h.syn]) with hp | ⟨g, hg, -⟩
      · simp only [fillLoop, hsize, hr, hp]
      · exact (h.not_send hr hg).elim
  unfold fillWindow
  split_ifs with hw
  · exact hloop _ (by simp [TCPSender.room, hw])
  · exact hloop _ (by simp [TCPSender.room, hw])

theorem Full.congr {s t : TCPSender} (h : Full s) (hwindow : t.windowSize = s.windowSize)
    (hflight : t.bytesInFlight = s.bytesInFlight) (hsyn : t.setSyn = s.setSyn)
    (hfin : t.setFin = s.setFin) (hbuf : t.stream.buffer = s.stream.buffer)
    (hend : t.stream.inputEnded = s.stream.inputEnded) : Full t := by
  have hroom : t.room = s.room := by
    simp only [TCPSender.room, zeroWindowRoom, windowRoom, hwindow, hflight]
  refine ⟨hsyn.trans h.syn, ?_⟩
  rw [hroom, hbuf, hend, hfin]
  exact h.idle

end TCPSender

end Sponge
