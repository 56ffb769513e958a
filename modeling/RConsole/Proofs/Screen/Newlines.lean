import RConsole.Proofs.Screen.Redraw

namespace RConsole

namespace Tty

variable {t : Tty} {n : Nat} {text : List Char} {rows : List Row}

theorem type_row_le (look : Look) (t : Tty) (c : Char) :
    t.row + (if c = '\n' then 1 else 0) ≤ (t.type look c).row := by
  unfold type
  by_cases hn : c = '\n'
  · rw [if_pos hn, if_neg (by rw [hn]; decide), if_pos hn]
    split <;> exact Nat.le_refl _
  · rw [if_neg hn, if_neg hn]
    split
    · exact Nat.le_refl _
    · split
      · exact Nat.le_succ _
      · exact Nat.le_refl _

theorem typeAll_row_le (look : Look) (text : List Char) (t : Tty) :
    t.row + text.count '\n' ≤ (t.typeAll look text).row := by
  induction text generalizing t with
  | nil => exact Nat.le_refl _
  | cons c text ih =>
    have hc := type_row_le look t c
    have hrest := ih (t.type look c)
    rw [List.count_cons]
    simp only [beq_iff_eq]
    change _ ≤ ((t.type look c).typeAll look text).row
    omega

theorem drawRow_row_le (color : Option Color) (row : Row) (t : Tty) :
    t.row + row.text.count '\n' ≤ (t.drawAll (Display.drawRow color row)).row := by
  have hsplit : row.text.count '\n' = (row.text.take row.promptChars).count '\n' +
      (row.text.drop row.promptChars).count '\n' := by
    rw [← List.count_append, List.take_append_drop]
  rw [drawAll_drawRow, hsplit, ← Nat.add_assoc]
  exact Nat.le_trans (Nat.add_le_add_right (typeAll_row_le _ _ t) _) (typeAll_row_le _ _ _)

theorem drawRows_cons (color : Option Color) (row next : Row) (rows : List Row) (t : Tty) :
    t.drawAll (Display.drawRows color (row :: next :: rows)) =
      ((t.drawAll (Display.drawRow color row)).lineFeed.returned).drawAll
        (Display.drawRows color (next :: rows)) := by
  rw [Display.drawRows, drawAll_append, ← draw_newline]
  · rfl
  · simp

theorem drawRows_row_le (color : Option Color) (rows : List Row) (t : Tty) :
    t.row + (rows.length - 1) + (rows.flatMap Row.text).count '\n' ≤
      (t.drawAll (Display.drawRows color rows)).row := by
  induction rows generalizing t with
  | nil => exact Nat.le_refl _
  | cons row rows ih =>
    have hr := drawRow_row_le color row t
    cases rows with
    | nil => simpa [Display.drawRows] using hr
    | cons next rows =>
      have hrest := ih (t.drawAll (Display.drawRow color row)).lineFeed.returned
      rw [drawRows_cons, List.flatMap_cons, List.count_append]
      simp only [lineFeed, returned, List.length_cons] at hrest ⊢
      omega

structure Filled (n : Nat) (t : Tty) : Prop where
  column : t.column ≤ n
  full : t.full = true → t.columns ≤ n

theorem Filled.type (h : t.Filled n) (look : Look) {c : Char} (hc : c ≠ '\n')
    (hn : n + 1 ≤ t.columns) : (t.type look c).row = t.row ∧ (t.type look c).Filled (n + 1) := by
  have hnot : t.full = false := by
    cases hf : t.full with
    | false => rfl
    | true => exact absurd (h.full hf) (by omega)
  have hcol := h.column
  unfold Tty.type
  rw [if_neg hc, hnot]
  split
  · exact ⟨rfl, Nat.zero_le _, fun hf => absurd hf Bool.false_ne_true⟩
  · refine ⟨rfl, ?_, fun hf => ?_⟩
    · change (if t.column + 1 < t.columns then t.column + 1 else t.column) ≤ n + 1
      split <;> omega
    · have hge : ¬ t.column + 1 < t.columns := by simpa [put] using hf
      change t.columns ≤ n + 1
      omega

theorem Filled.typeAll (h : t.Filled n) (look : Look) (hn : '\n' ∉ text)
    (hw : n + text.length ≤ t.columns) :
    (t.typeAll look text).row = t.row ∧ (t.typeAll look text).Filled (n + text.length) := by
  induction text generalizing t n with
  | nil => exact ⟨rfl, h⟩
  | cons c text ih =>
    rw [List.length_cons] at hw ⊢
    obtain ⟨hr, hf⟩ := h.type look (List.ne_of_not_mem_cons hn).symm (by omega)
    have hc := (type_setup look t c).1
    obtain ⟨hr', hf'⟩ := ih hf (List.not_mem_of_not_mem_cons hn) (by omega)
    refine ⟨hr'.trans hr, ?_⟩
    rw [Nat.add_comm text.length, ← Nat.add_assoc]
    exact hf'

theorem Filled.drawRow (h : t.Filled 0) (color : Option Color) {row : Row} (hn : '\n' ∉ row.text)
    (hw : row.text.length ≤ t.columns) :
    (t.drawAll (Display.drawRow color row)).row = t.row := by
  have hlen : (row.text.take row.promptChars).length + (row.text.drop row.promptChars).length =
      row.text.length := by
    rw [← List.length_append, List.take_append_drop]
  have hprompt : '\n' ∉ row.text.take row.promptChars := fun hm => hn (List.mem_of_mem_take hm)
  have hrest : '\n' ∉ row.text.drop row.promptChars := fun hm => hn (List.mem_of_mem_drop hm)
  obtain ⟨hr, hf⟩ := h.typeAll ⟨color, color.isSome, false⟩ hprompt (by omega)
  have hc := (typeAll_setup ⟨color, color.isSome, false⟩ (row.text.take row.promptChars) t).1
  obtain ⟨hr', -⟩ := hf.typeAll (if row.dim then ⟨none, false, true⟩ else {}) hrest (by omega)
  rw [drawAll_drawRow, hr', hr]

theorem Filled.drawRows (h : t.Filled 0) (color : Option Color)
    (hn : ∀ row ∈ rows, '\n' ∉ row.text) (hw : ∀ row ∈ rows, row.text.length ≤ t.columns) :
    (t.drawAll (Display.drawRows color rows)).row = t.row + (rows.length - 1) := by
  induction rows generalizing t with
  | nil => rfl
  | cons row rows ih =>
    have hr := h.drawRow color (hn row List.mem_cons_self) (hw row List.mem_cons_self)
    have hc := (drawAll_setup (Display.drawRow color row) t).1
    cases rows with
    | nil => simpa [Display.drawRows] using hr
    | cons next rows =>
      have hfresh : (t.drawAll (Display.drawRow color row)).lineFeed.returned.Filled 0 :=
        ⟨Nat.le_refl 0, fun hf => absurd hf Bool.false_ne_true⟩
      have hrest := ih hfresh (fun r hm => hn r (List.mem_cons_of_mem row hm))
        (fun r hm => hc ▸ hw r (List.mem_cons_of_mem row hm))
      rw [drawRows_cons, hrest]
      simp only [lineFeed, returned, List.length_cons, hr]
      omega

theorem drawRows_row_iff (h : t.Filled 0) (color : Option Color)
    (hw : ∀ row ∈ rows, row.text.length ≤ t.columns) :
    (t.drawAll (Display.drawRows color rows)).row = t.row + (rows.length - 1) ↔
      ∀ row ∈ rows, '\n' ∉ row.text := by
  constructor
  · intro hrow row hr hm
    have hle := drawRows_row_le color rows t
    have hpos : 0 < (rows.flatMap Row.text).count '\n' :=
      List.count_pos_iff.mpr (List.mem_flatMap.mpr ⟨row, hr, hm⟩)
    omega
  · exact fun hn => h.drawRows color hn hw

theorem draw_row_iff {d : Display} {top : Nat} (f : Frame) (hc : t.columns = d.columns)
    (hd : d.cursorRow < 65536) (hrow : t.row = top + d.cursorRow)
    (hf : (f.layout d.columns).rows.length < 65536) :
    (t.drawAll (d.draw f).1).row = top + (d.draw f).2.cursorRow ↔
      ∀ row ∈ (f.layout d.columns).rows, '\n' ∉ row.text := by
  have hcursor := f.cursor_row_lt d.columns
  have hpos : 0 < d.columns := Screen.columns_pos d
  have hw : ∀ row ∈ (f.layout d.columns).rows, row.text.length ≤ (t.drawAll d.restart).columns := by
    intro row hr
    have hwidth := Frame.width_row hr
    rw [(drawAll_setup d.restart t).1]
    omega
  have hfresh : (t.drawAll d.restart).Filled 0 := by
    rw [drawAll_restart hd]
    exact ⟨Nat.le_refl 0, fun hf => absurd hf Bool.false_ne_true⟩
  have htop : (t.drawAll d.restart).row = top := by
    rw [drawAll_restart hd]
    change t.row - d.cursorRow = top
    omega
  -- Newlines lead down only, so no later move makes up for one.
  have hle := drawRows_row_le f.color (f.layout d.columns).rows (t.drawAll d.restart)
  rw [← drawRows_row_iff hfresh f.color hw, htop]
  rw [htop] at hle
  have hclip : clip (Display.below (f.layout d.columns)) = Display.below (f.layout d.columns) :=
    Nat.min_eq_left (by rw [Display.below]; omega)
  have hend : (t.drawAll (d.draw f).1).row =
      ((t.drawAll d.restart).drawAll (Display.drawRows f.color (f.layout d.columns).rows)).row -
        Display.below (f.layout d.columns) := by
    unfold Display.draw
    dsimp only
    rw [drawAll_append, drawAll_append, drawAll_append, hclip]
    split
    · rename_i hz
      rw [hz]
      rfl
    · rfl
  rw [hend]
  change _ = top + (f.layout d.columns).cursor.1 ↔ _
  rw [Display.below]
  omega

end Tty

end RConsole
