import Sponge.Spec.ByteStream

/-! Writes that fit, and reads: what is peeked and what stays make up the buffer. -/

namespace Sponge

attribute [ext] ByteStream

namespace ByteStream

theorem write_ended {s : ByteStream} (h : s.inputEnded = true) (data : List Byte) :
    s.write data = (s, 0) := by
  simp [write, h]

theorem write_buffer (s : ByteStream) (data : List Byte) :
    (s.write data).1.buffer = s.buffer ++ data.take (s.write data).2 := by
  unfold write
  split_ifs <;> simp

theorem write_bytesWritten (s : ByteStream) (data : List Byte) :
    (s.write data).1.bytesWritten = s.bytesWritten + (s.write data).2 := by
  unfold write
  split_ifs <;> simp

@[simp] theorem write_bytesRead (s : ByteStream) (data : List Byte) :
    (s.write data).1.bytesRead = s.bytesRead := by
  unfold write
  split_ifs <;> rfl

@[simp] theorem write_inputEnded (s : ByteStream) (data : List Byte) :
    (s.write data).1.inputEnded = s.inputEnded := by
  unfold write
  split_ifs <;> rfl

@[simp] theorem write_capacity (s : ByteStream) (data : List Byte) :
    (s.write data).1.capacity = s.capacity := by
  unfold write
  split_ifs <;> rfl

@[simp] theorem write_error (s : ByteStream) (data : List Byte) :
    (s.write data).1.error = s.error := by
  unfold write
  split_ifs <;> rfl

theorem write_snd_of_fits {s : ByteStream} {data : List Byte} (he : s.inputEnded = false)
    (h : s.buffer.length + data.length ≤ s.capacity) : (s.write data).2 = data.length := by
  simp only [write, he, Bool.false_eq_true, if_false]
  omega

theorem write_buffer_of_fits {s : ByteStream} {data : List Byte} (he : s.inputEnded = false)
    (h : s.buffer.length + data.length ≤ s.capacity) :
    (s.write data).1.buffer = s.buffer ++ data := by
  rw [write_buffer, write_snd_of_fits he h, List.take_length]

theorem write_nil (s : ByteStream) : (s.write []).1 = s := by
  unfold write
  split_ifs <;> simp

theorem write_write {s : ByteStream} {a b : List Byte} (he : s.inputEnded = false)
    (h : s.buffer.length + a.length + b.length ≤ s.capacity) :
    ((s.write a).1.write b).1 = (s.write (a ++ b)).1 := by
  have ha : s.buffer.length + a.length ≤ s.capacity := by omega
  have hab : s.buffer.length + (a ++ b).length ≤ s.capacity := by
    simp only [List.length_append]
    omega
  have he' : (s.write a).1.inputEnded = false := by simp [he]
  have hb : (s.write a).1.buffer.length + b.length ≤ (s.write a).1.capacity := by
    rw [write_buffer_of_fits he ha, write_capacity, List.length_append]
    omega
  ext1
  · rw [write_buffer_of_fits he' hb, write_buffer_of_fits he ha, write_buffer_of_fits he hab,
      List.append_assoc]
  · simp
  · rw [write_bytesWritten, write_snd_of_fits he' hb, write_bytesWritten, write_snd_of_fits he ha,
      write_bytesWritten, write_snd_of_fits he hab, List.length_append, Nat.add_assoc]
  · simp
  · simp
  · simp

theorem popOutput_zero (s : ByteStream) : s.popOutput 0 = s := by
  ext1 <;> simp [popOutput]

theorem popOutput_bytesRead_le (s : ByteStream) (n : ℕ) :
    s.bytesRead ≤ (s.popOutput n).bytesRead := Nat.le_add_right _ _

theorem popOutput_buffer_le (s : ByteStream) (n : ℕ) :
    (s.popOutput n).buffer.length ≤ s.buffer.length := by
  simp [popOutput]

theorem peek_append_pop (s : ByteStream) (n : ℕ) :
    s.peekOutput n ++ (s.popOutput n).buffer = s.buffer := List.take_append_drop _ _

theorem read_eq_pop (s : ByteStream) (n : ℕ) : s.read n = (s.popOutput n, s.peekOutput n) := by
  have hlen : (s.peekOutput n).length = min n s.buffer.length := by
    simp [peekOutput]
  simp only [read, hlen]
  simp [popOutput]

@[simp] theorem endInput_inputEnded (s : ByteStream) : s.endInput.inputEnded = true := rfl

end ByteStream

end Sponge
