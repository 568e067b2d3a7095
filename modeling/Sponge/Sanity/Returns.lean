import Sponge.Lib.Exec
import Sponge.Sanity.Push
import Sponge.Spec.ConnectionRun

/-! No call of a connection faults, whatever arrives: where a substring is taken, the
comparisons before it put its position inside the string, also when an index has
wrapped. -/

namespace Sponge

open StreamReassembler

theorem usub_returns (a b : ℕ) : Returns (usub .wrap a b) := by
  unfold usub
  split_ifs
  · exact .ok _
  · exact .ok _

theorem substr_returns {s : List Byte} {pos : ℕ} (n : ℕ) (h : pos ≤ s.length) :
    Returns (substr s pos n) := ⟨_, substr_eq n h⟩

theorem uadd_le (a b : ℕ) : uadd a b ≤ a + b := Nat.mod_le _ _

theorem mergeLoop_returns (st ed : ℕ) (map : List (ℕ × List Byte)) :
    ∀ (data : List Byte) (index cnt : ℕ), Returns (mergeLoop .wrap st ed data index cnt map) := by
  induction map with
  | nil => exact fun _ _ _ => .ok _
  | cons e rest ih =>
    obtain ⟨k, s⟩ := e
    intro data index cnt
    simp only [mergeLoop]
    split_ifs with hbreak hcross hcover hcovered hleft
    · exact .ok _
    · exact (usub_returns _ _).bind fun _ _ => ih _ _ _
    · exact (ih _ _ _).bind fun _ _ => .ok _
    · -- the entry starts inside the new string and ends past it
      have hlast : ed < uadd k s.length := by
        by_contra hle
        exact hcover ⟨hleft, Nat.not_lt.mp hle⟩
      have hle := uadd_le k s.length
      rw [usub_eq .wrap hcross.2.le, ok_bind]
      refine (usub_returns _ _).bind fun _ _ => ?_
      refine (substr_returns _ (by omega)).bind fun _ _ => ?_
      exact (usub_returns _ _).bind fun _ _ => ih _ _ _
    · refine (usub_returns _ _).bind fun _ _ => ?_
      refine (substr_returns _ (Nat.zero_le _)).bind fun _ _ => ?_
      exact (usub_returns _ _).bind fun _ _ => ih _ _ _
    · exact (ih _ _ _).bind fun _ _ => .ok _

theorem mergeString_returns (r : StreamReassembler) (data : List Byte) (index : ℕ) :
    Returns (mergeString .wrap r data index) := by
  unfold mergeString
  refine (mergeLoop_returns _ _ _ _ _ _).bind fun m _ => ?_
  simp only
  split_ifs
  · exact .ok _
  · refine (usub_returns _ _).bind fun _ _ => ?_
    refine (usub_returns _ _).bind fun _ _ => ?_
    exact (usub_returns _ _).bind fun _ _ => .ok _

theorem drain_returns (map : List (ℕ × List Byte)) : ∀ (output : ByteStream) (index cnt : ℕ),
    Returns (drain .wrap output index cnt map) := by
  induction map with
  | nil => exact fun _ _ _ => .ok _
  | cons e rest ih =>
    obtain ⟨k, s⟩ := e
    intro output index cnt
    simp only [drain]
    split_ifs with hreached hpast
    · have hle := uadd_le k s.length
      rw [usub_eq .wrap hreached, ok_bind]
      refine (substr_returns _ (by omega)).bind fun _ _ => ?_
      exact (usub_returns _ _).bind fun _ _ => ih _ _ _
    · exact (usub_returns _ _).bind fun _ _ => ih _ _ _
    · exact .ok _

theorem writeDirect_returns {r : StreamReassembler} {data : List Byte} {index : ℕ}
    (hstart : index ≤ r.unassembledIndex) (hend : r.unassembledIndex ≤ uadd index data.length) :
    Returns (writeDirect .wrap r data index) := by
  have hle := uadd_le index data.length
  unfold writeDirect
  rw [usub_eq .wrap hstart, ok_bind]
  refine (usub_returns _ _).bind fun _ _ => ?_
  refine (usub_returns _ _).bind fun _ _ => ?_
  refine (usub_returns _ _).bind fun _ _ => ?_
  refine (substr_returns _ (by omega)).bind fun _ _ => ?_
  exact (drain_returns _ _ _ _).bind fun _ _ => .ok _

theorem pushSubstring_returns (r : StreamReassembler) (data : List Byte) (index : ℕ) (eof : Bool) :
    Returns (pushSubstring .wrap r data index eof) := by
  rw [pushSubstring_head]
  split_ifs with hend hout hmerge
  · exact .ok _
  · exact .ok _
  · refine (mergeString_returns _ _ _).bind fun p _ => ?_
    split_ifs <;> exact .ok _
  · rw [not_or, Nat.not_lt] at hout
    have hwrite := writeDirect_returns (r := noted r data index eof) (Nat.not_lt.mp hmerge) hout.1
    refine (hwrite.bind fun _ _ => .ok _).bind fun p _ => ?_
    split_ifs <;> exact .ok _

theorem TCPReceiver.segmentReceived_returns (r : TCPReceiver) (g : TCPSegment) :
    Returns (r.segmentReceived g) := by
  have hassemble : ∀ r : TCPReceiver, Returns (r.assemble g) := fun r =>
    (pushSubstring_returns _ _ _ _).bind fun _ _ => .ok _
  unfold TCPReceiver.segmentReceived
  split_ifs
  · exact hassemble _
  · exact hassemble _
  · exact .ok _

theorem TCPConnection.step_returns (c : TCPConnection) (op : ConnectionOp) : Returns (c.step op) := by
  cases op with
  | segmentReceived g =>
    simp only [TCPConnection.step, TCPConnection.segmentReceived]
    split_ifs
    · exact .ok _
    · exact .ok _
    · exact (TCPReceiver.segmentReceived_returns _ _).bind fun _ _ => .ok _
  | connect => exact .ok _
  | write => exact .ok _
  | endInputStream => exact .ok _
  | tick => exact .ok _
  | read => exact .ok _

end Sponge
