import RConsole.Proofs.Screen.Layout

namespace RConsole

theorem exists_full_rows {width : Nat} (hw : 0 < width) (cs : List Char) : ∃ front last,
    wrap width cs = front ++ [last] ∧ (∀ row ∈ front, row.length = width) ∧ last.length ≤ width ∧
      (last = [] → front = []) := by
  fun_induction wrap width cs with
  | case1 cs h => exact ⟨[], cs, rfl, by simp, by omega, fun _ => rfl⟩
  | case2 cs h ih =>
    obtain ⟨front, last, hrows, hfull, hlast, hempty⟩ := ih
    refine ⟨cs.take width :: front, last, by rw [hrows]; rfl, ?_, hlast, fun hn => ?_⟩
    · refine List.forall_mem_cons.mpr ⟨?_, hfull⟩
      rw [List.length_take]
      omega
    · -- The rest that the last row shows has at least one character.
      have hrest := flatten_wrap width (cs.drop width)
      rw [hrows, hempty hn, hn] at hrest
      have hlen := congrArg List.length hrest
      rw [List.length_drop] at hlen
      simp only [List.nil_append, List.flatten_cons, List.flatten_nil, List.length_nil] at hlen
      omega

theorem length_wrap {width : Nat} (hw : 0 < width) (cs : List Char) :
    (wrap width cs).length = (cs.length - 1) / width + 1 := by
  fun_induction wrap width cs with
  | case1 cs h => rw [Nat.div_eq_of_lt (by omega), List.length_singleton]
  | case2 cs h ih =>
    have hlen : cs.length - 1 = cs.length - width - 1 + width := by omega
    rw [List.length_cons, ih, List.length_drop, hlen, Nat.add_div_right _ hw]

theorem extra_rows {width column length : Nat} (h : column ≤ length) :
    column / width + 1 - ((length - 1) / width + 1) =
      if 0 < column ∧ width ∣ column ∧ column = length then 1 else 0 := by
  rcases Nat.lt_or_eq_of_le h with hlt | rfl
  · have hle : column / width ≤ (length - 1) / width := Nat.div_le_div_right (by omega)
    rw [if_neg (by omega)]
    omega
  · cases column with
    | zero => simp
    | succ n =>
      rw [Nat.add_sub_cancel, Nat.succ_div]
      by_cases hd : width ∣ n + 1
      · rw [if_pos hd, if_pos ⟨Nat.zero_lt_succ n, hd, rfl⟩]
        omega
      · rw [if_neg hd, if_neg fun hc => hd hc.2.1]
        omega

/-- Rows that show a text. All of them are full but the last one, which is empty only with the text. -/
structure Fills (width : Nat) (text : List Char) (rows : List Row) : Prop where
  whole : rows.flatMap Row.text = text
  full : ∃ front last, rows = front ++ [last] ∧ (∀ row ∈ front, row.text.length = width) ∧
    last.text.length ≤ width ∧ (last.text = [] → front = [])

namespace Frame

variable {f : Frame} {width : Nat}

def texts (f : Frame) : List String := if f.lines = [] then [""] else f.lines

/-- The rows of a line, behind the prompt or as many spaces, and one more that is empty where the
cursor stands behind a full row. -/
def Shows (f : Frame) (width index : Nat) (text : String) (group : List Row) : Prop :=
  let chars := (if index = 0 then f.prompt.toList else List.replicate f.promptWidth ' ') ++ text.toList
  ∃ rows, Fills width chars rows ∧ group = rows ++
    if index = f.cursor.1 ∧ 0 < f.cursorColumn ∧ width ∣ f.cursorColumn ∧ f.cursorColumn = chars.length then
      [⟨[], 0, false⟩]
    else []

/-- The rows of a layout are groups of rows and the status, and its cursor is in the group of its line. -/
structure Composed (f : Frame) (width : Nat) (laid : Layout) (groups : List (List Row)) : Prop where
  rows : laid.rows = groups.flatten ++ f.status.toList.map fun s => ⟨s.toList.take width, 0, true⟩
  count : groups.length = f.texts.length
  shown : ∀ (i : Nat) (text : String) (group : List Row),
    f.texts[i]? = some text → groups[i]? = some group → f.Shows width i text group
  narrow : ∀ row ∈ laid.rows, row.text.length ≤ width
  row_lt : laid.cursor.1 < laid.rows.length
  column_lt : laid.cursor.2 < width
  place : ∃ group, groups[f.cursor.1]? = some group ∧
    ∃ r, r < group.length ∧ laid.cursor.1 = (groups.take f.cursor.1).flatten.length + r ∧
      r * width + laid.cursor.2 = f.cursorColumn

theorem shownLines_eq (f : Frame) : f.shownLines = f.texts.map String.toList := by
  unfold shownLines texts
  split <;> rfl

theorem lineChars_eq (f : Frame) (index : Nat) (text : String) : f.lineChars index text.toList =
    (if index = 0 then f.prompt.toList else List.replicate f.promptWidth ' ') ++ text.toList := rfl

theorem fills_textRows (hw : 0 < width) (f : Frame) (index : Nat) (line : List Char) :
    Fills width (f.lineChars index line) (f.textRows width index line) where
  whole := by rw [List.flatMap_def, textRows_texts, flatten_wrap]
  full := by
    obtain ⟨front, last, hrows, hfull, hlast, hempty⟩ := exists_full_rows hw (f.lineChars index line)
    rw [← textRows_texts] at hrows
    obtain ⟨rows, ends, hr, hf, he⟩ := List.map_eq_append_iff.mp hrows
    obtain ⟨row, rfl, rfl⟩ := List.map_eq_singleton_iff.mp he
    refine ⟨rows, row, hr, fun r hm => hfull _ ?_, hlast, fun hn => ?_⟩
    · rw [← hf]
      exact List.mem_map_of_mem hm
    · rw [hempty hn] at hf
      exact List.map_eq_nil_iff.mp hf

theorem length_textRows (hw : 0 < width) (f : Frame) (index : Nat) (line : List Char) :
    (f.textRows width index line).length = ((f.lineChars index line).length - 1) / width + 1 := by
  rw [← length_wrap hw, ← textRows_texts, List.length_map]

theorem length_lineChars (f : Frame) (index : Nat) (line : List Char) :
    (f.lineChars index line).length = f.promptWidth + line.length := by
  rw [lineChars, List.length_append]
  split
  · rfl
  · rw [List.length_replicate]

theorem shows_group (hw : 0 < width) {index : Nat} {text : String}
    (hc : index = f.cursor.1 → f.cursor.2 ≤ text.length) :
    f.Shows width index text (f.group width index text.toList) := by
  refine ⟨f.textRows width index text.toList, fills_textRows hw f index text.toList, ?_⟩
  rw [← lineChars_eq]
  unfold group
  dsimp only
  by_cases hi : index = f.cursor.1
  · have hle : f.cursorColumn ≤ (f.lineChars index text.toList).length := by
      rw [length_lineChars, String.length_toList]
      exact Nat.add_le_add_left (hc hi) _
    rw [if_pos hi, length_textRows hw, extra_rows hle]
    simp only [hi, true_and]
    split <;> rfl
  · rw [if_neg hi, if_neg fun h => hi h.1, List.append_nil]

theorem getElem?_groups {width index : Nat} {text : String} (h : f.texts[index]? = some text) :
    (f.groups width)[index]? = some (f.group width index text.toList) := by
  rw [groups, List.getElem?_mapIdx, shownLines_eq, List.getElem?_map, h]
  rfl

theorem cursor_layout (columns : Nat) (h : f.cursor.1 < (f.groups (max columns 1)).length) :
    (f.layout columns).cursor = (((f.groups (max columns 1)).take f.cursor.1).flatten.length +
      f.cursorColumn / max columns 1, f.cursorColumn % max columns 1) := if_pos h

/-- A layout loses nothing of a frame whose cursor is in one of its lines. -/
theorem layout_composed (f : Frame) (columns : Nat) {line : String}
    (hl : f.texts[f.cursor.1]? = some line) (hc : f.cursor.2 ≤ line.length) :
    ∃ groups, f.Composed (max columns 1) (f.layout columns) groups := by
  have hw : 0 < max columns 1 := by omega
  have hgroup : (f.groups (max columns 1))[f.cursor.1]? =
      some (f.group (max columns 1) f.cursor.1 line.toList) := getElem?_groups hl
  have hcursor := cursor_layout columns (List.getElem?_eq_some_iff.mp hgroup).1
  refine ⟨f.groups (max columns 1), rfl, ?_, ?_, fun row => width_row, f.cursor_row_lt columns,
    f.cursor_column_lt columns, ?_⟩
  · rw [groups, List.length_mapIdx, shownLines_eq, List.length_map]
  · intro i text group ht hg
    rw [getElem?_groups ht] at hg
    cases hg
    refine shows_group hw fun hi => ?_
    rw [hi, hl] at ht
    cases ht
    exact hc
  · refine ⟨_, hgroup, f.cursorColumn / max columns 1, f.cursor_lt_group _ _, ?_, ?_⟩
    · rw [hcursor]
    · rw [hcursor]
      exact Nat.div_add_mod' ..

theorem layout_composed_wrapped :
    let f : Frame := { prompt := "r$> ", lines := ["ab", "cd", ""], cursor := (1, 2), status := some "~/src" }
    f.texts[f.cursor.1]? = some "cd" ∧ f.cursor.2 ≤ "cd".length ∧
      (∃ groups, f.Composed 3 (f.layout 3) groups) ∧
      (f.layout 3).cursor = (4, 0) ∧
      (f.layout 3).rows.map (String.ofList ∘ Row.text) =
        ["r$>", " ab", "   ", " cd", "", "   ", " ", "~/s"] := by
  intro f
  have hl : f.texts[f.cursor.1]? = some "cd" := by decide +kernel
  have hc : f.cursor.2 ≤ "cd".length := by decide +kernel
  exact ⟨hl, hc, layout_composed f 3 hl hc, by decide +kernel, by decide +kernel⟩

end Frame

end RConsole
