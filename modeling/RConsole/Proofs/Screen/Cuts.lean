import RConsole.Proofs.Screen.Redraw
import RConsole.Proofs.Text.RawText

namespace RConsole

namespace Tty

variable {t : Tty} {d : Display} {f : Frame}

def BlankBelow (t : Tty) : Prop := ∀ r k, t.row < r → t.cell r k = none

structure Fresh (t : Tty) : Prop where
  column : t.column = 0
  full : t.full = false
  blank : ∀ r k, t.row ≤ r → t.cell r k = none

theorem Fresh.blankBelow (h : t.Fresh) : t.BlankBelow := by
  intro r k hr
  exact h.blank r k (Nat.le_of_lt hr)

theorem lineFeed_blankBelow (h : t.BlankBelow) : t.lineFeed.BlankBelow := by
  intro r k hr
  exact h r k (Nat.lt_of_succ_lt hr)

theorem put_blankBelow (h : t.BlankBelow) (g : Glyph) : (t.put g).BlankBelow := by
  intro r k hr
  have hne : ¬(r = t.row ∧ k = t.column) := fun he => Nat.ne_of_gt hr he.1
  simp only [put, if_neg hne]
  exact h r k hr

theorem type_blankBelow (h : t.BlankBelow) (look : Look) (c : Char) :
    (t.type look c).BlankBelow := by
  unfold type
  split
  · exact h
  · split
    · split
      · exact lineFeed_blankBelow h
      · exact lineFeed_blankBelow h
    · split
      · apply put_blankBelow
        exact lineFeed_blankBelow h
      · exact put_blankBelow h (c, look)

theorem typeAll_blankBelow (h : t.BlankBelow) (look : Look) (text : List Char) :
    (t.typeAll look text).BlankBelow := by
  induction text generalizing t with
  | nil => exact h
  | cons c text ih => exact ih (type_blankBelow h look c)

theorem fresh_newline (h : t.BlankBelow) : (t.typeAll {} ['\r', '\n']).Fresh := by
  have hn : t.typeAll {} ['\r', '\n'] = t.lineFeed.returned := draw_newline t
  rw [hn]
  refine ⟨rfl, rfl, ?_⟩
  intro r k hr
  exact h r k hr

theorem fresh_rawText (h : t.Fresh) (cs : List Char) : (t.typeAll {} (rawText cs)).Fresh := by
  rcases rawText_ended cs with he | ⟨front, he⟩
  · rw [he]
    exact h
  · rw [he, typeAll_append]
    apply fresh_newline
    exact typeAll_blankBelow h.blankBelow {} front

theorem fresh_restart (h : d.cursorRow < 65536) (t : Tty) : (t.drawAll d.restart).Fresh := by
  rw [drawAll_restart h]
  refine ⟨rfl, rfl, ?_⟩
  intro r k hr
  exact if_pos hr

theorem drawAll_restart_draw (h : t.Fresh) (hd : d.cursorRow = 0) (hf : f.Fits d.columns)
    (hcols : t.columns = d.columns) (hlt : t.columns < 65536) :
    (t.drawAll (d.draw f).1).drawAll (d.draw f).2.restart = t := by
  have hs : Screen.Shows t.cell t.row ⟨[], f.picture d.columns, (f.layout d.columns).cursor⟩
      ⟨(d.draw f).2, t.drawAll (d.draw f).1⟩ := by
    apply Screen.shows_draw hf hcols hlt
    · omega
    · rw [hd]
      rfl
    · intro r k hr
      exact (if_pos hr).symm
  obtain ⟨hc, hr⟩ := drawAll_setup (d.draw f).1 t
  have hrow := hs.row
  have hcursor := hs.cursorRow
  have hnear := hs.near
  have hcells := hs.all
  dsimp only at hrow hcursor hnear hcells
  rw [drawAll_restart (hcursor ▸ hnear)]
  generalize t.drawAll (d.draw f).1 = u at hc hr hrow hcells
  -- The prompt was drawn over nothing, so nothing is missing when it is cleared.
  have htop : u.row - (d.draw f).2.cursorRow = t.row := by
    rw [hrow, hcursor]
    exact Nat.add_sub_cancel _ _
  have hcell : (fun r k => if t.row ≤ r then none else u.cell r k) = t.cell := by
    funext r k
    by_cases hge : t.row ≤ r
    · rw [if_pos hge, h.blank r k hge]
    · rw [if_neg hge, hcells r k, if_pos (Nat.lt_of_not_le hge)]
  rw [htop, hcell, hc, hr]
  conv => lhs; rw [← h.column, ← h.full]

end Tty

def Act.above : Act → List Char
  | interleaved chunk _ => rawText chunk.text.toList
  | _ => []

theorem Act.above_interleaved (chunks : List Chunk) (f : Frame) :
    (chunks.map (interleaved · f)).flatMap above =
      (chunks.map fun chunk => chunk.text.toList).flatMap rawText := by
  rw [List.flatMap_map, List.flatMap_map]
  rfl

namespace Screen

def overwritten (s : Screen) (text : List Char) (f : Frame) : Screen :=
  ⟨(Display.draw { s.display with cursorRow := 0 } f).2,
    ((s.tty.drawAll s.display.restart).typeAll {} text).drawAll
      (Display.draw { s.display with cursorRow := 0 } f).1⟩

variable {s : Screen} {f : Frame}

theorem takeAll_interleaved {chunks : List Chunk} (hne : chunks ≠ [])
    (hf : f.Fits s.display.columns) (hcols : s.tty.columns = s.display.columns)
    (hlt : s.tty.columns < 65536) (hd : s.display.cursorRow < 65536) :
    s.takeAll (chunks.map (.interleaved · f)) =
      s.overwritten ((chunks.map fun chunk => chunk.text.toList).flatMap rawText) f := by
  induction chunks generalizing s with
  | nil => contradiction
  | cons chunk chunks ih =>
    have ht := take_interleaved s chunk f
    have hfresh := Tty.fresh_rawText (Tty.fresh_restart hd s.tty) chunk.text.toList
    obtain ⟨hset, -⟩ := Tty.drawAll_setup s.display.restart s.tty
    obtain ⟨hset', -⟩ := Tty.typeAll_setup {} (rawText chunk.text.toList)
      (s.tty.drawAll s.display.restart)
    have hundo := Tty.drawAll_restart_draw (d := { s.display with cursorRow := 0 }) hfresh rfl hf
      (by rw [hset', hset]; exact hcols) (by rw [hset', hset]; exact hlt)
    by_cases hc : chunks = []
    · subst hc
      have hone : [chunk.text.toList].flatMap rawText = rawText chunk.text.toList := List.append_nil _
      change s.take (.interleaved chunk f) = s.overwritten ([chunk.text.toList].flatMap rawText) f
      rw [hone]
      exact ht
    · obtain ⟨htty, hdisplay⟩ := take_setup s (.interleaved chunk f)
      have hnear : (s.take (.interleaved chunk f)).display.cursorRow < 65536 := by
        rw [ht]
        exact Nat.lt_trans (f.cursor_row_lt _) hf.rows
      -- The next chunk clears this chunk's prompt and is typed where that one began.
      have hi := ih hc (hdisplay ▸ hf) (by rw [htty, hdisplay, hcols]) (htty ▸ hlt) hnear
      change (s.take (.interleaved chunk f)).takeAll (chunks.map (.interleaved · f)) = _
      rw [hi, ht, overwritten, overwritten, List.map_cons, List.flatMap_cons, Tty.typeAll_append]
      dsimp only
      rw [hundo]
      rfl

theorem takeAll_interleaved_cut {chunks : List Chunk} (stream : Stream) (hne : chunks ≠ [])
    (hcut : CutAtLines (chunks.map fun chunk => chunk.text.toList))
    (hf : f.Fits s.display.columns) (hcols : s.tty.columns = s.display.columns)
    (hlt : s.tty.columns < 65536) (hd : s.display.cursorRow < 65536) :
    s.takeAll (chunks.map (.interleaved · f)) =
      s.take (.interleaved
        ⟨String.ofList (chunks.map fun chunk => chunk.text.toList).flatten, stream⟩ f) := by
  rw [takeAll_interleaved hne hf hcols hlt hd, take_interleaved, flatMap_rawText hcut, overwritten,
    String.toList_ofList]

end Screen

end RConsole
