import RConsole.Screen.Layout

namespace RConsole

theorem wrap_of_le {width : Nat} {cs : List Char} (h : cs.length ≤ width) : wrap width cs = [cs] := by
  rw [wrap, dif_pos (.inr h)]

theorem wrap_of_lt {width : Nat} {cs : List Char} (hw : 0 < width) (h : width < cs.length) :
    wrap width cs = cs.take width :: wrap width (cs.drop width) := by
  rw [wrap, dif_neg (by omega)]

theorem wrap_ne_nil (width : Nat) (cs : List Char) : wrap width cs ≠ [] := by
  rw [wrap]
  split <;> simp

theorem length_of_mem_wrap {width : Nat} (hw : 0 < width) {cs row : List Char}
    (h : row ∈ wrap width cs) : row.length ≤ width := by
  fun_induction wrap width cs with
  | case1 cs hc =>
    rw [List.mem_singleton.mp h]
    omega
  | case2 cs hc ih =>
    rcases List.mem_cons.mp h with rfl | h
    · exact List.length_take_le ..
    · exact ih h

theorem flatten_wrap (width : Nat) (cs : List Char) : (wrap width cs).flatten = cs := by
  fun_induction wrap width cs with
  | case1 cs hc => simp
  | case2 cs hc ih => rw [List.flatten_cons, ih, List.take_append_drop]

theorem mem_of_mem_wrap {width : Nat} {cs row : List Char} {c : Char} (h : row ∈ wrap width cs)
    (hc : c ∈ row) : c ∈ cs := by
  rw [← flatten_wrap width cs]
  exact List.mem_flatten_of_mem h hc

namespace Frame

variable {f : Frame} {width index : Nat} {line : List Char} {row : Row} {c : Char}

theorem shownLines_ne_nil (f : Frame) : f.shownLines ≠ [] := by
  unfold shownLines
  split
  · simp
  · rename_i h
    simpa using h

theorem mem_shownLines (h : line ∈ f.shownLines) : line = [] ∨ ∃ text ∈ f.lines, text.toList = line := by
  unfold shownLines at h
  split at h
  · exact .inl (List.mem_singleton.mp h)
  · exact .inr (List.mem_map.mp h)

theorem textRows_texts (f : Frame) (width index : Nat) (line : List Char) :
    (f.textRows width index line).map Row.text = wrap width (f.lineChars index line) := by
  unfold textRows
  split
  · rename_i h
    exact h.symm
  · rename_i first rest h
    rw [h, List.map_cons, List.map_map]
    exact congrArg (List.cons first) (List.map_id rest)

theorem group_ne_nil (f : Frame) (width index : Nat) (line : List Char) :
    f.group width index line ≠ [] := by
  have hr : f.textRows width index line ≠ [] := by
    intro h
    have ht := f.textRows_texts width index line
    rw [h] at ht
    exact wrap_ne_nil _ _ ht.symm
  unfold group
  dsimp only
  split
  · exact fun h => hr (List.append_eq_nil_iff.mp h).1
  · exact hr

theorem group_text (h : row ∈ f.group width index line) :
    row.text ∈ wrap width (f.lineChars index line) ∨ row.text = [] := by
  have ht : row ∈ f.textRows width index line → row.text ∈ wrap width (f.lineChars index line) := by
    intro hm
    rw [← f.textRows_texts]
    exact List.mem_map_of_mem hm
  unfold group at h
  dsimp only at h
  split at h
  · rcases List.mem_append.mp h with hm | hm
    · exact .inl (ht hm)
    · exact .inr (congrArg Row.text (List.eq_of_mem_replicate hm))
  · exact .inl (ht h)

theorem cursor_lt_group (f : Frame) (width : Nat) (line : List Char) :
    f.cursorColumn / width < (f.group width f.cursor.1 line).length := by
  unfold group
  rw [if_pos rfl, List.length_append, List.length_replicate]
  omega

theorem mem_rows (h : row ∈ (f.layout width).rows) :
    (∃ index, ∃ line ∈ f.shownLines, row ∈ f.group (max width 1) index line) ∨
      ∃ s, f.status = some s ∧ row.text = s.toList.take (max width 1) := by
  rcases List.mem_append.mp h with hg | hs
  · obtain ⟨g, hm, hr⟩ := List.mem_flatten.mp hg
    obtain ⟨index, hi, rfl⟩ := List.mem_mapIdx.mp hm
    exact .inl ⟨index, _, List.getElem_mem hi, hr⟩
  · unfold statusRow at hs
    cases hst : f.status with
    | none => rw [hst] at hs; cases hs
    | some s =>
      rw [hst] at hs
      exact .inr ⟨s, rfl, congrArg Row.text (List.mem_singleton.mp hs)⟩

theorem width_row (h : row ∈ (f.layout width).rows) : row.text.length ≤ max width 1 := by
  rcases mem_rows h with ⟨index, line, -, hg⟩ | ⟨s, -, hs⟩
  · rcases group_text hg with ht | ht
    · exact length_of_mem_wrap (by omega) ht
    · rw [ht]
      exact Nat.zero_le _
  · rw [hs]
    exact List.length_take_le ..

theorem mem_group_of_mem (width : Nat) (h : c ∈ f.lineChars index line) :
    ∃ row ∈ f.group width index line, c ∈ row.text := by
  rw [← flatten_wrap width (f.lineChars index line), ← f.textRows_texts] at h
  obtain ⟨text, ht, hc⟩ := List.mem_flatten.mp h
  obtain ⟨row, hr, rfl⟩ := List.mem_map.mp ht
  refine ⟨row, ?_, hc⟩
  unfold group
  dsimp only
  split
  · exact List.mem_append_left _ hr
  · exact hr

theorem mem_rows_of_mem_group (hi : index < f.shownLines.length)
    (h : row ∈ f.group (max width 1) index f.shownLines[index]) : row ∈ (f.layout width).rows := by
  apply List.mem_append_left
  refine List.mem_flatten.mpr ⟨_, ?_, h⟩
  exact List.mem_mapIdx.mpr ⟨index, hi, rfl⟩

theorem shows_iff (hc : c ≠ ' ') :
    (∃ row ∈ (f.layout width).rows, c ∈ row.text) ↔
      c ∈ f.prompt.toList ∨ (∃ line ∈ f.shownLines, c ∈ line) ∨
        ∃ text, f.status = some text ∧ c ∈ text.toList.take (max width 1) := by
  constructor
  · rintro ⟨row, hr, hm⟩
    rcases mem_rows hr with ⟨index, line, hl, hg⟩ | ⟨text, hs, ht⟩
    · rcases group_text hg with ht | ht
      · rcases List.mem_append.mp (mem_of_mem_wrap ht hm) with hp | hp
        · split at hp
          · exact .inl hp
          · exact absurd (List.eq_of_mem_replicate hp) hc
        · exact .inr (.inl ⟨line, hl, hp⟩)
      · rw [ht] at hm
        cases hm
    · exact .inr (.inr ⟨text, hs, ht ▸ hm⟩)
  · rintro (hp | ⟨line, hl, hm⟩ | ⟨text, hs, hm⟩)
    · have hpos := List.length_pos_iff.mpr f.shownLines_ne_nil
      have hfirst : c ∈ f.lineChars 0 f.shownLines[0] := List.mem_append_left _ hp
      obtain ⟨row, hr, hm⟩ := mem_group_of_mem (max width 1) hfirst
      exact ⟨row, mem_rows_of_mem_group hpos hr, hm⟩
    · obtain ⟨index, hi, rfl⟩ := List.getElem_of_mem hl
      have hline : c ∈ f.lineChars index f.shownLines[index] := List.mem_append_right _ hm
      obtain ⟨row, hr, hm⟩ := mem_group_of_mem (max width 1) hline
      exact ⟨row, mem_rows_of_mem_group hi hr, hm⟩
    · refine ⟨⟨text.toList.take (max width 1), 0, true⟩, ?_, hm⟩
      apply List.mem_append_right
      rw [statusRow, hs]
      exact List.mem_singleton_self _

def chars (f : Frame) : List Char :=
  f.prompt.toList ++ f.lines.flatMap String.toList ++ (f.status.map String.toList).getD []

theorem mem_row (h : row ∈ (f.layout width).rows) (hc : c ∈ row.text) : c = ' ' ∨ c ∈ f.chars := by
  by_cases hs : c = ' '
  · exact .inl hs
  right
  unfold chars
  rcases (shows_iff hs).mp ⟨row, h, hc⟩ with hp | ⟨line, hl, hm⟩ | ⟨text, ht, hm⟩
  · simp [hp]
  · rcases mem_shownLines hl with rfl | ⟨text, ht, rfl⟩
    · cases hm
    · exact List.mem_append_left _ (List.mem_append_right _ (List.mem_flatMap.mpr ⟨text, ht, hm⟩))
  · simp [ht, List.mem_of_mem_take hm]

theorem rows_ne_nil (f : Frame) (width : Nat) : (f.layout width).rows ≠ [] := by
  obtain ⟨line, lines, hl⟩ := List.exists_cons_of_ne_nil f.shownLines_ne_nil
  intro h
  have hg := (List.append_eq_nil_iff.mp h).1
  unfold groups at hg
  rw [hl, List.mapIdx_cons, List.flatten_cons] at hg
  exact f.group_ne_nil _ _ _ (List.append_eq_nil_iff.mp hg).1

theorem cursor_row_lt (f : Frame) (width : Nat) :
    (f.layout width).cursor.1 < (f.layout width).rows.length := by
  unfold layout
  dsimp only
  rw [List.length_append]
  split
  · rename_i h
    -- The rows of the lines above, and then those of the line with the cursor.
    have hsplit : (f.groups (max width 1)).flatten =
        ((f.groups (max width 1)).take f.cursor.1).flatten ++
          ((f.groups (max width 1))[f.cursor.1] ++
            ((f.groups (max width 1)).drop (f.cursor.1 + 1)).flatten) := by
      rw [← List.flatten_cons, List.getElem_cons_drop, ← List.flatten_append, List.take_append_drop]
    have hline : f.cursor.1 < f.shownLines.length := by simpa [groups] using h
    have hg : (f.groups (max width 1))[f.cursor.1] =
        f.group (max width 1) f.cursor.1 f.shownLines[f.cursor.1] := by simp [groups]
    have hlt := f.cursor_lt_group (max width 1) f.shownLines[f.cursor.1]
    rw [hsplit, hg, List.length_append, List.length_append]
    dsimp only
    omega
  · have hne := f.rows_ne_nil width
    have hpos := List.length_pos_iff.mpr hne
    unfold layout at hpos
    rw [List.length_append] at hpos
    exact hpos

theorem cursor_column_lt (f : Frame) (width : Nat) : (f.layout width).cursor.2 < max width 1 := by
  have hw : 0 < max width 1 := by omega
  unfold layout
  dsimp only
  split
  · exact Nat.mod_lt _ hw
  · exact hw

end Frame

end RConsole
