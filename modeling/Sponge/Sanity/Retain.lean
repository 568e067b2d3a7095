import Sponge.Sanity.Account

/-! What a push adds to the bytes held. Inside the window nothing is dropped unless
the end of the window has wrapped, an empty string holds the key, or the push
reaches the output and has new bytes where the count leaves no room. -/

namespace Sponge

open Chunks StreamReassembler

/-- A session of pushes from `S` whose accounts are exact. -/
structure Counted (S : List Byte) (ops : List SessionOp) (s : Session) : Prop
    extends FromStream S ops s where
  exact : Exact s.reassembler

theorem Counted.new (S : List Byte) {capacity : ℕ} (h : capacity < 2 ^ 64) :
    Counted S [] (Session.new capacity) :=
  ⟨FromStream.new S h, rfl⟩

/-- The push covers index `i` while `i` is inside the window. -/
def Covers (r : StreamReassembler) (data : List Byte) (index i : ℕ) : Prop :=
  index ≤ i ∧ i < index + data.length ∧ i < r.output.bytesRead + r.capacity

/-- Nothing of the push that lies inside the window is dropped: the end of the
window has not wrapped, the key is not taken by an empty string, and a push that
reaches the output brings no new byte into the room counted for stored ones. -/
def LossFree (r : StreamReassembler) (data : List Byte) (index : ℕ) (eof : Bool) : Prop :=
  r.unassembledIndex < eofAfter r data index eof →
    r.output.bytesRead + r.capacity < 2 ^ 64 ∧ ¬ Clash r data index eof ∧
      (index ≤ r.unassembledIndex → ∀ i < index + data.length, r.unassembledIndex ≤ i →
        i < r.output.bytesRead + r.capacity → i ∉ cover r.unassembledBytes →
          i + r.unassembledCnt < r.output.bytesRead + r.capacity)

instance (r : StreamReassembler) (data : List Byte) (index : ℕ) (eof : Bool) :
    Decidable (LossFree r data index eof) := inferInstanceAs (Decidable (_ → _ ∧ _ ∧ _))

theorem LossFree.not_clash {r : StreamReassembler} {data : List Byte} {index : ℕ} {eof : Bool}
    (h : LossFree r data index eof) : ¬ Clash r data index eof := fun hc =>
  (h hc.1.2.1).2.1 hc

theorem Inv.held_wrote {r : StreamReassembler} (h : Inv r) {data new : List Byte} {index : ℕ}
    {pre post : List (ℕ × List Byte)} (h1 : index ≤ r.unassembledIndex)
    (hfree : ∀ i < index + data.length, r.unassembledIndex ≤ i →
      i < r.output.bytesRead + r.capacity → i ∉ cover r.unassembledBytes →
        i + r.unassembledCnt < r.output.bytesRead + r.capacity)
    (hd : Drained (r.unassembledIndex + (fresh r data index).length) r.unassembledBytes new
      pre post) (i : ℕ) :
    (i < r.unassembledIndex + (fresh r data index ++ new).length ∨ i ∈ cover post) ↔
      Held r i ∨ Covers r data index i := by
  have hread := h.read_add_buffer
  have hroom := h.room
  have hlen : (fresh r data index).length =
      min (r.capacity - r.output.buffer.length - r.unassembledCnt)
        (data.length - (r.unassembledIndex - index)) := by
    simp only [fresh, List.length_take, List.length_drop]
  rw [List.length_append, ← Nat.add_assoc, hd.covers i]
  unfold Held Covers
  by_cases hi : i ∈ cover r.unassembledBytes
  · simp [hi]
  · have := hfree i
    simp only [hi, or_false, not_false_eq_true, true_implies] at this ⊢
    omega

/-- A push that drops nothing adds what it covers inside the window to the bytes
held, and nothing else. -/
theorem held_pushed {r r' : StreamReassembler} (h : Inv r) (he : Exact r) {data : List Byte}
    {index : ℕ} {eof : Bool} (hfree : LossFree r data index eof)
    (hend : eofAfter r data index eof ≤ r.unassembledIndex →
      ∀ i, Covers r data index i → i < r.unassembledIndex)
    (hshut : r.output.inputEnded = true → eofAfter r data index eof ≤ r.unassembledIndex)
    (hp : Pushed r data index eof r') (i : ℕ) :
    Held r' i ↔ Held r i ∨ Covers r data index i := by
  cases hp with
  | ended hle =>
    refine ⟨Or.inl, ?_⟩
    rintro (h1 | h1)
    · exact h1
    · exact Or.inl (hend hle i h1)
  | ignored hlt hout =>
    rw [uadd_eq (hfree hlt).1] at hout
    refine ⟨Or.inl, ?_⟩
    rintro (h1 | ⟨h1, h2, h3⟩)
    · exact h1
    · exact Or.inl (show i < r.unassembledIndex by omega)
  | stored hlt hi hw hle hs =>
    have hclash : data ≠ [] → (index, []) ∉ r.unassembledBytes := fun hne hmem =>
      hfree.not_clash ⟨⟨hne, hlt, hi, by rwa [uadd_eq hw]⟩, hmem⟩
    have hcov := (Exact.stored_push (h.noted data index eof).mergeable he hi hle hclash hs).2 i
    unfold Held
    rw [hcov, hs.frame.1, or_assoc]
    rfl
  | shut hlt hs => exact absurd (hshut hs) (Nat.not_le.mpr hlt)
  | wrote hlt _ h1 _ _ new pre post hd => exact h.held_wrote h1 ((hfree hlt).2.2 h1) hd i

end Sponge
