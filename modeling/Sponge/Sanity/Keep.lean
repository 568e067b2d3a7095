import Sponge.Sanity.Flow
import Sponge.Sanity.Retain

/-! A segment that fits is kept. The sender never cuts its stream anew, so the
receiver has all bytes of a sent segment or none of them, and a segment that
starts at the next byte brings nothing it has stored already. -/

namespace Sponge

open Chunks StreamReassembler TCPSender

/-- All indices of a string are held, or none is. -/
def Whole (r : StreamReassembler) (index length : ℕ) : Prop :=
  (∀ i, index ≤ i → i < index + length → Held r i) ∨
    ∀ i, index ≤ i → i < index + length → ¬ Held r i

theorem Whole.of_length_le {r : StreamReassembler} {index length : ℕ} (h : length ≤ 1) :
    Whole r index length := by
  by_cases hi : Held r index
  · refine Or.inl fun i h1 h2 => ?_
    rwa [show i = index by omega]
  · refine Or.inr fun i h1 h2 => ?_
    rwa [show i = index by omega]

theorem Whole.congr {r r' : StreamReassembler} {index length : ℕ} (h : Whole r index length)
    (hr : ∀ i, index ≤ i → i < index + length → (Held r' i ↔ Held r i)) : Whole r' index length :=
  h.imp (fun hall i h1 h2 => (hr i h1 h2).mpr (hall i h1 h2))
    fun hnone i h1 h2 => mt (hr i h1 h2).mp (hnone i h1 h2)

/-- A string held whole or not at all is cut by nothing but the end of the window. -/
theorem Whole.lossFree {r : StreamReassembler} (h : Inv r) (ha : Accounting r)
    (hlt : r.output.bytesRead + r.capacity < 2 ^ 64) {data : List Byte} {index : ℕ} {eof : Bool}
    (hw : Whole r index data.length) : LossFree r data index eof := by
  refine fun _ => ⟨hlt, fun hclash => ha.nonempty _ hclash.2 rfl, fun hle i hi hui hlim hcov => ?_⟩
  have hnone : ∀ j, index ≤ j → j < index + data.length → ¬ Held r j :=
    hw.resolve_left fun hall => h.not_held_next (hall _ hle (by omega))
  have hindex : index = r.unassembledIndex := by
    by_contra hne
    exact hnone index le_rfl (by omega) (Or.inl (by omega))
  have hgap := h.mergeable.total_add_gap (List.Sublist.refl _) (Nat.lt_succ_self _) hlim
    (Nat.succ_le_succ hui) fun j h1 h2 hj => hnone j (by omega) (by omega) (Or.inr hj)
  have hexact : r.unassembledCnt = total r.unassembledBytes := (h.accounting_iff.mp ha).1
  have hread := h.read_add_buffer
  omega

theorem Link.held_lt {x : SenderRun} {taken : List Byte} {r : TCPReceiver} (h : Link x taken r)
    {i : ℕ} (hi : Held r.reassembler i) : i < x.sender.stream.bytesRead := by
  rcases hi with hi | hi
  · exact lt_of_lt_of_le hi h.index_le
  · obtain ⟨c, hc, h1, h2⟩ := mem_cover.mp hi
    have hne : c.2 ≠ [] := by
      rintro hnil
      simp only [stop, hnil, List.length_nil] at h2
      omega
    have := (h.safe.agrees c hc).length_le hne
    rw [List.length_take] at this
    simp only [stop] at h2
    omega

/-- At the known end an arriving string has nothing new. -/
theorem Link.stop_le {x : SenderRun} {taken : List Byte} {r : TCPReceiver} (h : Link x taken r)
    {data : List Byte} {index : ℕ} {eof : Bool}
    (hd : Agrees (x.accepted.take x.sender.stream.bytesRead) index data) (hne : data ≠ [])
    (hr : index + data.length < 2 ^ 64)
    (hend : eofAfter r.reassembler data index eof ≤ r.reassembler.unassembledIndex) :
    index + data.length ≤ r.reassembler.unassembledIndex := by
  have hlen := hd.length_le hne
  rw [List.length_take] at hlen
  unfold eofAfter at hend
  cases eof with
  | true =>
    rw [if_pos rfl, uadd_eq hr] at hend
    exact hend
  | false =>
    simp only [Bool.false_eq_true, if_false] at hend
    rcases h.eof with heof | ⟨-, heof⟩
    · rw [heof, noEof] at hend
      omega
    · omega

theorem Link.held_pushed {x : SenderRun} {taken : List Byte} {r : TCPReceiver} (h : Link x taken r)
    (hb : x.sender.nextSeqno < 2 ^ 31) (ha : Accounting r.reassembler) (hlt : r.limit < 2 ^ 64)
    {data : List Byte} {index : ℕ} {eof : Bool} {re : StreamReassembler}
    (hd : Agrees (x.accepted.take x.sender.stream.bytesRead) index data)
    (hr : index + data.length < 2 ^ 64)
    (heof : eof = true → x.sender.setFin = true ∧ index + data.length = x.accepted.length)
    (hw : Whole r.reassembler index data.length)
    (hp : Pushed r.reassembler data index eof re) (i : ℕ) :
    Held re i ↔ Held r.reassembler i ∨ (index ≤ i ∧ i < index + data.length ∧ i < r.limit) := by
  unfold TCPReceiver.limit at hlt ⊢
  rw [h.capacity] at hlt ⊢
  refine Sponge.held_pushed h.inv (h.inv.accounting_iff.mp ha).1 (hw.lossFree h.inv ha hlt)
    (fun hend i hi => ?_) (h.shut hb hr heof) hp i
  have hne : data ≠ [] := by
    rintro rfl
    have := hi.2.1
    rw [List.length_nil] at this
    exact absurd hi.1 (by omega)
  exact lt_of_lt_of_le hi.2.1 (h.stop_le hd hne hr hend)

/-- The accounts are right, and every sent segment is held whole or not at all. -/
structure Intact (x : SenderRun) (r : TCPReceiver) : Prop where
  accounting : Accounting r.reassembler
  whole : ∀ pre g post, x.sent = pre ++ g :: post →
    Whole r.reassembler (streamIndex pre g) g.payload.length

theorem Intact.onward {x x' : SenderRun} {taken : List Byte} {r : TCPReceiver} (hi : Intact x r)
    (h : Link x taken r) (hx : Onward x x') (ht : Tiles x'.accepted x'.sent x'.sender) :
    Intact x' r := by
  refine ⟨hi.accounting, fun pre g post hl => ?_⟩
  obtain ⟨gs, hgs⟩ := hx.sent
  rcases append_cases (hgs.trans hl) with ⟨rest, hold⟩ | ⟨mid, hpre, -⟩
  · exact hi.whole pre g rest hold
  refine Or.inr fun i h1 h2 hheld => ?_
  have h3 := h.held_lt hheld
  have h4 := (ht.piece_at hl).first_byte
  have h5 := h.tiles.count
  have h6 := h.tiles.next
  unfold streamIndex at h1
  rw [hpre, space_append] at h1 h4
  cases hsyn : x.sender.setSyn with
  | false =>
    rw [h.tiles.started hsyn, space_nil] at h6
    omega
  | true =>
    rw [hsyn, Bool.toNat_true] at h5
    omega

theorem Tiles.apart {accepted : List Byte} {first pre post pre' post' : List TCPSegment}
    {g b : TCPSegment} {s : TCPSender} (h : Tiles accepted first s) (hl : first = pre ++ g :: post)
    (hl' : first = pre' ++ b :: post') :
    (pre = pre' ∧ g = b) ∨ streamIndex pre g + g.payload.length ≤ streamIndex pre' b ∨
      streamIndex pre' b + b.payload.length ≤ streamIndex pre g := by
  have h1 := (h.piece_at hl).first_byte
  have h2 := (h.piece_at hl').first_byte
  have hapart : (pre = pre' ∧ g = b) ∨ space pre + g.lengthInSequenceSpace ≤ space pre' ∨
      space pre' + b.lengthInSequenceSpace ≤ space pre := span_apart hl hl'
  unfold TCPSegment.lengthInSequenceSpace at hapart
  unfold streamIndex
  exact hapart.imp_right (Or.imp (fun _ => by omega) fun _ => by omega)

theorem Intact.held_iff {x : SenderRun} {taken : List Byte} {r : TCPReceiver} (hi : Intact x r)
    (h : Link x taken r) (hb : x.sender.nextSeqno < 2 ^ 31) (hlt : r.limit < 2 ^ 64)
    {pre post : List TCPSegment} {g : TCPSegment} (hl : x.sent = pre ++ g :: post)
    {re : StreamReassembler}
    (hp : Pushed r.reassembler g.payload (streamIndex pre g) g.header.fin re) (i : ℕ) :
    Held re i ↔ Held r.reassembler i ∨
      (streamIndex pre g ≤ i ∧ i < streamIndex pre g + g.payload.length ∧ i < r.limit) := by
  obtain ⟨-, hbytes, hfin⟩ := h.tiles.sent_piece hl
  exact h.held_pushed hb hi.accounting hlt hbytes (h.stop_lt hb hl) hfin (hi.whole _ _ _ hl) hp i

theorem Intact.pushed {x : SenderRun} {taken : List Byte} {r r' : TCPReceiver} (hi : Intact x r)
    (h : Link x taken r) (hb : x.sender.nextSeqno < 2 ^ 31) (hlt : r.limit < 2 ^ 64)
    {pre post : List TCPSegment} {e : FirstSend} (hl : x.sent = pre ++ e.segment :: post)
    (hfits : Fits r (streamIndex pre e.segment) e)
    (hp : Pushed r.reassembler e.segment.payload (streamIndex pre e.segment)
      e.segment.header.fin r'.reassembler) : Intact x r' := by
  have hheld := hi.held_iff h hb hlt hl hp
  refine ⟨?_, fun pre' g post' hl' => ?_⟩
  · apply (accounting_pushed h.inv hi.accounting (h.stop_lt hb hl) hp).mpr
    rintro ⟨⟨hne, -, hgt, -⟩, hedge⟩
    have hpos := List.length_pos_iff.mpr hne
    rw [← h.capacity] at hedge
    have hlimit : streamIndex pre e.segment = r.limit := hedge.trans (uadd_eq hlt)
    rcases hfits with hnil | hle | ⟨-, -, hle⟩
    · exact hne hnil
    · omega
    · omega
  · rcases h.tiles.apart hl' hl with ⟨rfl, rfl⟩ | hapart
    · rcases hfits with hnil | hle | ⟨-, hle, -⟩
      · exact .of_length_le (by simp [hnil])
      · exact Or.inl fun i h1 h2 => (hheld i).mpr (Or.inr ⟨h1, h2, by omega⟩)
      · exact .of_length_le hle
    · refine (hi.whole _ _ _ hl').congr fun i h1 h2 => ?_
      rw [hheld i]
      exact or_iff_left (by omega)

theorem Intact.receive {x : SenderRun} {taken : List Byte} {r r' : TCPReceiver} {g : TCPSegment}
    (hi : Intact x r) (h : Link x taken r) (hb : x.sender.nextSeqno < 2 ^ 31)
    (hlt : r.limit < 2 ^ 64)
    (hfits : ∀ pre b post, x.sent = pre ++ b :: post →
      ∃ e : FirstSend, e.segment = b ∧ Fits r (streamIndex pre b) e)
    (hd : Delivered x r g r') : Intact x r' := by
  cases hd with
  | ignored => exact hi
  | empty hr _ hrange hp =>
    have hheld := h.held_pushed hb hi.accounting hlt (Agrees.nil _ _) hrange (by simp)
      (.of_length_le (Nat.zero_le 1)) hp
    refine ⟨(accounting_pushed h.inv hi.accounting hrange hp).mpr fun hedge => hedge.1.1 rfl,
      fun pre b post hl => (hi.whole pre b post hl).congr fun i _ _ => ?_⟩
    rw [hheld i, List.length_nil]
    exact or_iff_left (by omega)
  | piece b hl _ _ _ hp =>
    obtain ⟨e, rfl, hfit⟩ := hfits _ b _ hl
    exact hi.pushed h hb hlt hl hfit hp

theorem SenderRun.sent_split {x : SenderRun} {pre post : List TCPSegment} {g : TCPSegment}
    (hl : x.sent = pre ++ g :: post) :
    ∃ pre' e post', x.first = pre' ++ e :: post' ∧ pre'.map FirstSend.segment = pre ∧
      e.segment = g := by
  obtain ⟨pre', rest, hfirst, hpre, hrest⟩ := List.map_eq_append_iff.mp hl
  obtain ⟨e, post', rfl, he, -⟩ := List.map_eq_cons_iff.mp hrest
  exact ⟨pre', e, post', hfirst, hpre, he⟩

theorem Flow.fits_sent {s : Transfer} (hf : Flow s) {pre post : List TCPSegment} {g : TCPSegment}
    (hl : s.tx.sent = pre ++ g :: post) :
    ∃ e : FirstSend, e.segment = g ∧ Fits s.rx (streamIndex pre g) e := by
  obtain ⟨pre', e, post', hfirst, rfl, rfl⟩ := SenderRun.sent_split hl
  exact ⟨e, rfl, hf.fits pre' e post' hfirst⟩

/-- As long as the end of the window has not wrapped, every move keeps this. -/
theorem Intact.moved {s s' : Transfer} (h : Linked s) (hf : Flow s)
    (hb : s.tx.sender.nextSeqno < 2 ^ 31) (hm : Moved s s')
    (hi : s.rx.limit < 2 ^ 64 → Intact s.tx s.rx) (hlt : s'.rx.limit < 2 ^ 64) :
    Intact s'.tx s'.rx := by
  have hlt' := lt_of_le_of_lt (hm.ahead h hb).limit hlt
  have hi := hi hlt'
  cases hm with
  | stay => exact hi
  | send op =>
    have hst := SenderRun.step_spec h.link.tiles op
    exact hi.onward h.link (hst.onward h.link.tiles) (h.link.tiles.step hst)
  | receive _ hd =>
    exact hi.receive h.link hb hlt' (fun _ _ _ hl => hf.fits_sent hl) hd
  | read n => exact ⟨{ hi.1 with }, hi.2⟩
  | report => exact hi

theorem Tiles.position_eq {accepted : List Byte} {first pre post pre' post' : List TCPSegment}
    {g b : TCPSegment} {s : TCPSender} (h : Tiles accepted first s) (hb : s.nextSeqno < 2 ^ 31)
    (hl : first = pre ++ g :: post) (hl' : first = pre' ++ b :: post')
    (hseqno : g.header.seqno = b.header.seqno) : space pre = space pre' := by
  have hback : ∀ {pre g post}, first = pre ++ g :: post →
      unwrap g.header.seqno s.isn 0 = space pre := by
    intro pre g post hl
    have := (h.sent_piece hl).1
    rw [(h.piece_at hl).seqno]
    apply unwrap_wrap <;> omega
  rw [← hback hl, ← hback hl', hseqno]

theorem Intact.kept {s : Transfer} (h : Linked s) (hf : Flow s)
    (hb : s.tx.sender.nextSeqno < 2 ^ 31) (hlt : s.rx.limit < 2 ^ 64) (hi : Intact s.tx s.rx)
    {pre post : List FirstSend} {e : FirstSend} (hl : s.tx.first = pre ++ e :: post)
    (hprobe : ¬ e.Probe) {r : TCPReceiver} (hd : Delivered s.tx s.rx e.segment r)
    (hsyn : r.setSyn = true) {i : ℕ}
    (h1 : streamIndex (pre.map FirstSend.segment) e.segment ≤ i)
    (h2 : i < streamIndex (pre.map FirstSend.segment) e.segment + e.segment.payload.length) :
    Held r.reassembler i := by
  have hfits := hf.fits pre e post hl
  have hl' : s.tx.sent = pre.map FirstSend.segment ++ e.segment :: post.map FirstSend.segment := by
    simp [SenderRun.sent, hl]
  generalize he : e.segment = g at hd hl' h1 h2 hfits
  cases hd with
  | ignored hr => simp [hr] at hsyn
  | empty _ hpayload =>
    rw [hpayload, List.length_nil] at h2
    omega
  | piece b hlb hseqno hsynb hpayload hp =>
    have hpos := h.link.tiles.position_eq hb hl' hlb hseqno
    refine (hi.held_iff h.link hb hlt hlb hp i).mpr (Or.inr ?_)
    have hle : i < s.rx.limit := by
      rcases hfits with hnil | hle | hpr
      · rw [he] at hnil
        rw [hnil, List.length_nil] at h2
        omega
      · rw [he] at hle
        omega
      · exact absurd hpr.1 hprobe
    unfold streamIndex at h1 h2 ⊢
    rw [← hpos, ← hsynb, ← hpayload]
    exact ⟨h1, h2, hle⟩

/-- A transfer in order; the accounts of the reassembler are right until the end of its window
wraps. -/
structure Transfer.Sound (s : Transfer) : Prop where
  linked : Linked s
  flow : Flow s
  intact : s.rx.limit < 2 ^ 64 → Intact s.tx s.rx

namespace Transfer.Sound

variable {s s' : Transfer}

theorem new (sendCapacity retxTimeout : ℕ) (isn : WrappingInt32) {recvCapacity : ℕ}
    (h : recvCapacity < 2 ^ 64) :
    (Transfer.new sendCapacity retxTimeout isn recvCapacity).Sound where
  linked := Linked.new sendCapacity retxTimeout isn h
  flow := Flow.new sendCapacity retxTimeout isn recvCapacity
  intact _ := ⟨Accounting.new recvCapacity,
    fun pre g post hl => by simp [Transfer.new, SenderRun.new, SenderRun.sent] at hl⟩

theorem moved (h : s.Sound) (hb : s.tx.sender.nextSeqno < 2 ^ 31) (hm : Moved s s') : s'.Sound :=
  ⟨h.linked.moved hb hm, h.flow.moved h.linked hb hm, Intact.moved h.linked h.flow hb hm h.intact⟩

end Transfer.Sound

end Sponge
