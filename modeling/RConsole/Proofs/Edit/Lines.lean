import RConsole.Proofs.Edit.Edits
import RConsole.Proofs.Text.Lines
import RConsole.Proofs.Text.Runs

namespace RConsole

theorem not_newline {line : List Char} (h : '\n' ∉ line) : ∀ c ∈ line, (c != '\n') = true := by
  intro c hc
  simpa using fun he : c = '\n' => h (he ▸ hc)

theorem trails_lines (above : List (List Char)) {line : List Char} (h : '\n' ∉ line) :
    Trails (· != '\n') (above.flatMap (· ++ ['\n'])) line := by
  refine trails_iff.mpr ⟨not_newline h, fun c hc => ?_⟩
  rcases List.eq_nil_or_concat above with rfl | ⟨front, last, rfl⟩
  · simp at hc
  · have hn : '\n' = c := by simpa using hc
    subst hn
    rfl

theorem leads_lines (below : List (List Char)) {line : List Char} (h : '\n' ∉ line) :
    Leads (· != '\n') line (below.flatMap ('\n' :: ·)) := by
  refine leads_iff.mpr ⟨not_newline h, fun c hc => ?_⟩
  cases below with
  | nil => simp at hc
  | cons first below =>
    have hn : '\n' = c := by simpa using hc
    subst hn
    rfl

theorem count_lines {above : List (List Char)} (h : ∀ line ∈ above, '\n' ∉ line) :
    (above.flatMap (· ++ ['\n'])).count '\n' = above.length := by
  induction above with
  | nil => rfl
  | cons line above ih =>
    obtain ⟨hl, hr⟩ := List.forall_mem_cons.mp h
    rw [List.flatMap_cons, List.count_append, List.count_append, List.count_eq_zero.mpr hl, ih hr]
    simp [Nat.add_comm]

namespace Buffer

variable {b : Buffer} {front above line rest below tail : List Char}

theorem lineStartOf_eq (hb : b.chars = front ++ line ++ rest) (h : Trails (· != '\n') front line) :
    b.lineStartOf (front.length + line.length) = front.length := by
  have ht : b.chars.take (front.length + line.length) = front ++ line := by
    rw [hb, ← List.length_append, List.take_left]
  rw [lineStartOf, ht, h.takeWhile, List.length_reverse, Nat.add_sub_cancel]

theorem lineEndOf_eq (hb : b.chars = front ++ line ++ rest) (h : Leads (· != '\n') line rest) :
    b.lineEndOf front.length = front.length + line.length := by
  have hd : b.chars.drop front.length = line ++ rest := by
    rw [hb, List.append_assoc, List.drop_left]
  rw [lineEndOf, hd, h.takeWhile]

theorem up_eq (hb : b.chars = front ++ above ++ '\n' :: line ++ rest)
    (hc : b.cursor = (front ++ above).length + 1 + line.length)
    (ha : Trails (· != '\n') front above) (hl : '\n' ∉ line) :
    b.up = (true, ⟨b.chars, front.length + min line.length above.length⟩) := by
  have hstart : b.lineStartOf b.cursor = (front ++ above).length + 1 := by
    have hfront : b.chars = front ++ above ++ ['\n'] ++ line ++ rest := by simpa using hb
    have h := lineStartOf_eq hfront (trails_iff.mpr ⟨not_newline hl, by simp⟩)
    rw [List.length_append, List.length_singleton] at h
    rw [hc, h]
  have habove : b.lineStartOf (front ++ above).length = front.length := by
    rw [List.length_append]
    exact lineStartOf_eq (by rw [hb, List.append_assoc]) ha
  rw [up, hstart, if_neg (Nat.succ_ne_zero _), Nat.add_sub_cancel, habove, hc, Nat.add_sub_cancel_left,
    List.length_append]
  simp only [Prod.mk.injEq, mk.injEq, true_and]
  omega

theorem up_first (hb : b.chars = line ++ rest) (hc : b.cursor = line.length) (hl : '\n' ∉ line) :
    b.up = (false, b) := by
  have hfront : b.chars = [] ++ line ++ rest := hb
  have h := lineStartOf_eq hfront (trails_iff.mpr ⟨not_newline hl, by simp⟩)
  rw [List.length_nil, Nat.zero_add, ← hc] at h
  rw [up, if_pos h]

theorem down_eq (hb : b.chars = front ++ line ++ rest ++ '\n' :: (below ++ tail))
    (hc : b.cursor = front.length + line.length) (hl : Trails (· != '\n') front line)
    (hr : '\n' ∉ rest) (ht : Leads (· != '\n') below tail) :
    b.down =
      (true, ⟨b.chars, (front ++ line ++ rest).length + 1 + min line.length below.length⟩) := by
  have hstop : b.lineEndOf b.cursor = (front ++ line ++ rest).length := by
    have hlen : (front ++ line ++ rest).length = (front ++ line).length + rest.length :=
      List.length_append
    rw [hc, ← List.length_append, hlen]
    exact lineEndOf_eq hb (leads_iff.mpr ⟨not_newline hr, by simp⟩)
  have hnext : b.lineEndOf ((front ++ line ++ rest).length + 1) =
      (front ++ line ++ rest).length + 1 + below.length := by
    have hfront : b.chars = front ++ line ++ rest ++ ['\n'] ++ below ++ tail := by simpa using hb
    have hlen : (front ++ line ++ rest ++ ['\n']).length = (front ++ line ++ rest).length + 1 :=
      List.length_append
    rw [← hlen]
    exact lineEndOf_eq hfront ht
  have hstart : b.lineStartOf b.cursor = front.length := by
    have hline : b.chars = front ++ line ++ (rest ++ '\n' :: (below ++ tail)) := by simpa using hb
    rw [hc]
    exact lineStartOf_eq hline hl
  have hmore : (front ++ line ++ rest).length ≠ b.chars.length := by
    have hlen : (front ++ line ++ rest ++ '\n' :: (below ++ tail)).length =
        (front ++ line ++ rest).length + ('\n' :: (below ++ tail)).length := List.length_append
    rw [hb, hlen, List.length_cons]
    omega
  rw [down, hstop, if_neg hmore, hnext, hstart, hc, Nat.add_sub_cancel_left]
  simp only [Prod.mk.injEq, mk.injEq, true_and]
  omega

theorem down_last (hb : b.chars = front ++ rest) (hc : b.cursor = front.length) (hr : '\n' ∉ rest) :
    b.down = (false, b) := by
  have hrest : b.chars = front ++ rest ++ [] := by rw [hb, List.append_nil]
  have h := lineEndOf_eq hrest (leads_iff.mpr ⟨not_newline hr, by simp⟩)
  rw [← hc, hc, ← List.length_append, ← hb] at h
  rw [down, hc, if_pos h]

end Buffer

end RConsole
