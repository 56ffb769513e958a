import RConsole.Callback.Desk
import RConsole.Proofs.Text.Boundary

namespace RConsole

open Utf8 (Bytes Cut encode decodeLossy decode? lastBoundary)

section

variable {line : List Char} {size : Nat} {buffer : Bytes}

theorem payload_isPrefix (line : List Char) (size : Nat) :
    payload line size <+: encode (line ++ ['\n']) :=
  Utf8.encode_isPrefix (Utf8.fitting_isPrefix _ _)

theorem cut_payload (line : List Char) (size : Nat) :
    Cut (encode (line ++ ['\n'])) (size - 1) (payload line size).length :=
  Utf8.cut_fitting _ _

theorem length_encode_newline (line : List Char) :
    (encode (line ++ ['\n'])).length = (encode line).length + 1 := by
  rw [Utf8.encode_append, List.length_append]
  rfl

theorem length_payload_eq_iff (hs : 0 < size) :
    (payload line size).length = (encode (line ++ ['\n'])).length ↔
      (encode line).length + 2 ≤ size := by
  have hfit : (encode line).length + 2 ≤ size ↔ (encode (line ++ ['\n'])).length ≤ size - 1 := by
    rw [length_encode_newline]
    omega
  rw [hfit, ← Utf8.fitting_eq_self]
  constructor
  · intro h
    rw [Utf8.fitting_eq_self, ← h]
    exact Utf8.length_fitting_le _ _
  · intro h
    rw [payload, h]

theorem spare_le (h : (payload line size).length < (encode (line ++ ['\n'])).length) :
    size - 1 - (payload line size).length ≤ 3 := by
  have hne : Utf8.fitting (size - 1) (line ++ ['\n']) ≠ line ++ ['\n'] := by
    intro he
    rw [payload, he] at h
    exact Nat.lt_irrefl _ h
  have := Utf8.room_le_of_fitting_ne hne
  rw [payload]
  omega

theorem decode_payload (line : List Char) (size : Nat) :
    ∃ front, front <+: line ++ ['\n'] ∧ decodeLossy (payload line size) = front ∧
      decode? (payload line size) = some front := by
  refine ⟨_, Utf8.fitting_isPrefix _ _, ?_, Utf8.decode?_encode _⟩
  have h := Utf8.decodeLossy_encode_append (Utf8.fitting (size - 1) (line ++ ['\n'])) []
  simpa [payload, decodeLossy] using h

theorem encodeLine_nil (line : List Char) : encodeLine line [] = (0, []) := rfl

theorem encodeLine_of_pos (hb : 0 < buffer.length) :
    encodeLine line buffer = ((payload line buffer.length).length,
      payload line buffer.length ++ 0 :: buffer.drop ((payload line buffer.length).length + 1)) := by
  simp [encodeLine, lineBytes, Nat.ne_of_gt hb]

theorem length_payload_lt (hs : 0 < size) : (payload line size).length < size := by
  have := (cut_payload line size).fits
  omega

end

/-- The buffer holds `after` once the line was written to it, with `n` bytes before the zero byte. -/
structure Delivered (line : List Char) (buffer : Bytes) (n : Nat) (after : Bytes) : Prop where
  cut : Cut (encode (line ++ ['\n'])) (buffer.length - 1) n
  found : n = lastBoundary (encode (line ++ ['\n']))
    (min (buffer.length - 1) (encode (line ++ ['\n'])).length)
  text : after.take n = (encode (line ++ ['\n'])).take n
  ended : after[n]? = some 0
  kept : after.drop (n + 1) = buffer.drop (n + 1)
  size : after.length = buffer.length
  newline : n = (encode (line ++ ['\n'])).length ↔ (encode line).length + 2 ≤ buffer.length
  spare : n < (encode (line ++ ['\n'])).length → buffer.length - 1 - n ≤ 3
  read : ∃ front, front <+: line ++ ['\n'] ∧ decodeLossy (after.take n) = front ∧
    decode? (after.take n) = some front

theorem delivered_of_pos {line : List Char} {buffer : Bytes} (hb : 0 < buffer.length) :
    Delivered line buffer (encodeLine line buffer).1 (encodeLine line buffer).2 := by
  have hlt : (payload line buffer.length).length < buffer.length := length_payload_lt hb
  rw [encodeLine_of_pos hb]
  constructor
  · exact cut_payload line buffer.length
  · exact (cut_payload line buffer.length).unique (Utf8.cut_lastBoundary _ _)
  · rw [List.take_left]
    exact List.prefix_iff_eq_take.mp (payload_isPrefix line buffer.length)
  · rw [List.getElem?_append_right (Nat.le_refl _), Nat.sub_self]
    rfl
  · rw [List.drop_append, List.drop_eq_nil_of_le (Nat.le_succ _), List.nil_append,
      Nat.add_sub_cancel_left]
    rfl
  · rw [List.length_append, List.length_cons, List.length_drop]
    omega
  · exact length_payload_eq_iff hb
  · exact spare_le
  · rw [List.take_left]
    exact decode_payload line buffer.length

theorem buffer_ofLine? (line : String) (buffer beyond : Bytes) :
    (Reply.ofLine? buffer.length (some line)).buffer (buffer ++ beyond) =
      (encodeLine line.toList buffer).2 ++ beyond := by
  have hl : (lineBytes line.toList buffer.length).length ≤ buffer.length := by
    rw [lineBytes]
    split
    · exact Nat.zero_le _
    · rename_i hs
      rw [List.length_append]
      exact length_payload_lt (Nat.pos_of_ne_zero hs)
  simp only [Reply.ofLine?, Reply.buffer, encodeLine]
  rw [List.drop_append_of_le_length hl, List.append_assoc]

theorem line_delivered (line : String) :
    encodeLine line.toList [] = (0, []) ∧
    (∀ (old : UInt8) (olds : Bytes),
      Delivered line.toList (old :: olds) (encodeLine line.toList (old :: olds)).1
        (encodeLine line.toList (old :: olds)).2) ∧
    ∀ buffer beyond : Bytes,
      (Reply.ofLine? buffer.length (some line)).buffer (buffer ++ beyond) =
        (encodeLine line.toList buffer).2 ++ beyond := by
  refine ⟨encodeLine_nil line.toList, ?_, buffer_ofLine? line⟩
  intro old olds
  exact delivered_of_pos (Nat.zero_lt_succ olds.length)

example : encodeLine "aé".toList [7, 7, 7] = (1, [97, 0, 7]) := by decide +kernel

end RConsole
