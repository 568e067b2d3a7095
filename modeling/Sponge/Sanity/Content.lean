import Sponge.Sanity.Window
import Sponge.Spec.Session

/-! The bytes. When everything pushed comes from one stream `S`, the output is a
prefix of `S`, every stored string is a piece of `S`, and the output is closed
exactly when the next index has reached the known end. -/

namespace Sponge

open Chunks StreamReassembler

structure Safe (S taken : List Byte) (r : StreamReassembler) : Prop where
  read : taken.length = r.output.bytesRead
  content : taken ++ r.output.buffer <+: S
  agrees : ∀ c ∈ r.unassembledBytes, Agrees S c.1 c.2
  closed : r.output.inputEnded = true ↔ r.eofIndex ≤ r.unassembledIndex

theorem Safe.new (S : List Byte) (capacity : ℕ) : Safe S [] (StreamReassembler.new capacity) where
  read := rfl
  content := List.nil_prefix
  agrees := by simp [StreamReassembler.new]
  closed := by simp [StreamReassembler.new, ByteStream.new, noEof]

theorem Safe.length_eq {S taken : List Byte} {r : StreamReassembler} (hi : Inv r)
    (hs : Safe S taken r) : (taken ++ r.output.buffer).length = r.unassembledIndex := by
  rw [List.length_append, hs.read, hi.read_add_buffer]

theorem Safe.content_eq {S taken : List Byte} {r : StreamReassembler} (hi : Inv r)
    (hs : Safe S taken r) : taken ++ r.output.buffer = S.take r.unassembledIndex := by
  rw [← hs.length_eq hi]
  exact List.prefix_iff_eq_take.mp hs.content

theorem Safe.index_le {S taken : List Byte} {r : StreamReassembler} (hi : Inv r)
    (hs : Safe S taken r) : r.unassembledIndex ≤ S.length := by
  rw [← hs.length_eq hi]
  exact hs.content.length_le

theorem Safe.mono {S T taken : List Byte} {r : StreamReassembler} (hs : Safe S taken r)
    (hT : S <+: T) : Safe T taken r :=
  ⟨hs.read, hs.content.trans hT, fun c hc => (hs.agrees c hc).mono hT, hs.closed⟩

theorem Safe.pop {S taken : List Byte} {r : StreamReassembler} (hs : Safe S taken r) (n : ℕ) :
    Safe S (taken ++ r.output.peekOutput n) { r with output := r.output.popOutput n } where
  read := by
    rw [List.length_append, hs.read]
    simp [ByteStream.peekOutput, ByteStream.popOutput]
  content := by
    rw [List.append_assoc, ByteStream.peek_append_pop]
    exact hs.content
  agrees := hs.agrees
  closed := hs.closed

theorem fresh_agrees {S data : List Byte} {r : StreamReassembler} {index : ℕ}
    (hd : Agrees S index data) (h : index ≤ r.unassembledIndex) :
    Agrees S r.unassembledIndex (fresh r data index) := by
  have := (hd.drop (r.unassembledIndex - index)).take
    (r.capacity - r.output.buffer.length - r.unassembledCnt)
  rwa [show index + (r.unassembledIndex - index) = r.unassembledIndex by omega] at this

theorem Safe.stored_push {S taken data : List Byte} {r r' : StreamReassembler} {index : ℕ}
    (hs : Safe S taken r) (hd : Agrees S index data) (h : Stored r data index r') :
    Safe S taken r' := by
  cases h with
  | held => exact hs
  | inserted out n _ hm hj _ =>
    refine ⟨hs.read, hs.content, ?_, hs.closed⟩
    intro c hc
    rcases mem_insert hc with rfl | hc
    · exact (hj.agrees S hs.agrees hd).take n
    · exact hs.agrees c (hm.sub.subset hc)

theorem Safe.pushed {S taken data : List Byte} {r r' : StreamReassembler} {index : ℕ} {eof : Bool}
    (hi : Inv r) (hs : Safe S taken r) (hd : Agrees S index data)
    (hshut : r.output.inputEnded = true → eofAfter r data index eof ≤ r.unassembledIndex)
    (hp : Pushed r data index eof r') : Safe S taken r' := by
  have hnoted : r.unassembledIndex < eofAfter r data index eof →
      Safe S taken (noted r data index eof) := by
    intro h
    refine ⟨hs.read, hs.content, hs.agrees, ?_⟩
    constructor
    · intro he
      exact hshut he
    · intro hle
      exact absurd hle (Nat.not_le.mpr h)
  cases hp with
  | ended h => exact ⟨hs.read, hs.content, hs.agrees, by simpa using h⟩
  | ignored h _ => exact hnoted h
  | stored h _ _ _ hst => exact (hnoted h).stored_push hd hst
  | shut h hended _ _ _ => exact hnoted h
  | wrote h hopen h1 h2 _ new pre post hdr =>
    have hfits := hi.wrote_fits hdr
    have hcap := hi.capacityOutput
    have hfit : r.output.buffer.length + (fresh r data index ++ new).length ≤ r.output.capacity := by
      omega
    have hnew : Agrees S r.unassembledIndex (fresh r data index ++ new) :=
      (fresh_agrees hd h1).append (hdr.agrees S hs.agrees)
    refine ⟨by simpa using hs.read, ?_, ?_, ?_⟩
    · have hall : Agrees S 0 ((taken ++ r.output.buffer) ++ (fresh r data index ++ new)) := by
        refine Agrees.append hs.content ?_
        rw [hs.length_eq hi, Nat.zero_add]
        exact hnew
      simp only [closed_buffer, ByteStream.write_buffer_of_fits hopen hfit]
      rw [← List.append_assoc]
      exact hall
    · intro c hc
      apply hs.agrees c
      rw [hdr.split]
      exact List.mem_append_right _ hc
    · exact closed_inputEnded (by simp [hopen]) _ _

end Sponge
