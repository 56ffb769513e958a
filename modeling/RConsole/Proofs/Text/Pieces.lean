import RConsole.Text.Pieces

namespace RConsole

variable {α : Type} {isBreak : α → Bool} {cs piece : List α} {c : α}

theorem pieces_break (hc : isBreak c = true) (cs : List α) :
    pieces isBreak (c :: cs) = [] :: pieces isBreak cs := by
  rw [pieces, if_pos hc]

theorem pieces_cons {rest : List (List α)} (hc : isBreak c = false)
    (h : pieces isBreak cs = piece :: rest) : pieces isBreak (c :: cs) = (c :: piece) :: rest := by
  rw [pieces, hc, h]
  rfl

theorem pieces_append (hc : isBreak c = true) (front rest : List α) :
    pieces isBreak (front ++ c :: rest) = pieces isBreak front ++ pieces isBreak rest := by
  induction front with
  | nil => exact pieces_break hc rest
  | cons d front ih =>
    rw [List.cons_append]
    by_cases hd : isBreak d = true
    · rw [pieces_break hd, pieces_break hd, ih, List.cons_append]
    · rw [Bool.not_eq_true] at hd
      obtain ⟨first, more, hf⟩ := List.exists_cons_of_ne_nil (pieces_ne_nil isBreak front)
      rw [hf] at ih
      rw [pieces_cons hd hf]
      exact pieces_cons hd ih

theorem mem_of_mem_pieces (h : piece ∈ pieces isBreak cs) (hc : c ∈ piece) :
    c ∈ cs ∧ isBreak c = false := by
  induction cs generalizing piece with
  | nil =>
    rw [List.mem_singleton.mp h] at hc
    cases hc
  | cons d cs ih =>
    have later {w : List α} (hw : w ∈ pieces isBreak cs) (hcw : c ∈ w) :
        c ∈ d :: cs ∧ isBreak c = false := by
      have hi := ih hw hcw
      exact ⟨List.mem_cons_of_mem d hi.1, hi.2⟩
    by_cases hd : isBreak d = true
    · rw [pieces_break hd] at h
      rcases List.mem_cons.mp h with rfl | h
      · cases hc
      · exact later h hc
    · rw [Bool.not_eq_true] at hd
      obtain ⟨first, more, hf⟩ := List.exists_cons_of_ne_nil (pieces_ne_nil isBreak cs)
      rw [pieces_cons hd hf] at h
      rcases List.mem_cons.mp h with rfl | h
      · rcases List.mem_cons.mp hc with rfl | hc
        · exact ⟨List.mem_cons_self, hd⟩
        · exact later (hf ▸ List.mem_cons_self) hc
      · exact later (hf ▸ List.mem_cons_of_mem first h) hc

theorem pieces_of_none (h : ∀ c ∈ cs, isBreak c = false) : pieces isBreak cs = [cs] := by
  induction cs with
  | nil => rfl
  | cons c cs ih =>
    obtain ⟨hc, hcs⟩ := List.forall_mem_cons.mp h
    exact pieces_cons hc (ih hcs)

theorem pieces_intercalate {b : α} {items : List (List α)} (hb : isBreak b = true) (hne : items ≠ [])
    (h : ∀ item ∈ items, ∀ c ∈ item, isBreak c = false) :
    pieces isBreak ([b].intercalate items) = items := by
  induction items with
  | nil => exact absurd rfl hne
  | cons item items ih =>
    obtain ⟨hi, hr⟩ := List.forall_mem_cons.mp h
    cases items with
    | nil => simpa [List.intercalate] using pieces_of_none hi
    | cons next items =>
      have hjoin : [b].intercalate (item :: next :: items) = item ++ b :: [b].intercalate (next :: items) := by
        simp [List.intercalate]
      rw [hjoin, pieces_append hb, pieces_of_none hi, ih (List.cons_ne_nil next items) hr]
      rfl

end RConsole
