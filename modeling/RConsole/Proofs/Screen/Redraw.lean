import RConsole.Proofs.Screen.Tty

/-!
Drawing the prompt region again and again. Whatever was drawn before, the screen shows the region as
it was laid out, below all the lines that are there to stay.
-/
namespace RConsole

structure Screen where
  display : Display
  tty : Tty

namespace Screen

def take (s : Screen) (act : Act) : Screen :=
  ⟨(s.display.send act).2,
    { s.tty with raw := Terminal.rawAfter s.tty.raw act }.drawAll
      ((s.display.send act).1.map Prod.snd)⟩

def takeAll (s : Screen) (acts : List Act) : Screen := acts.foldl take s

end Screen

def Row.glyphs (color : Option Color) (row : Row) : List Glyph :=
  Tty.paint ⟨color, color.isSome, false⟩ (row.text.take row.promptChars) ++
    Tty.paint (if row.dim then ⟨none, false, true⟩ else {}) (row.text.drop row.promptChars)

namespace Frame

def picture (f : Frame) (width : Nat) : List (List Glyph) :=
  (f.layout width).rows.map (Row.glyphs f.color)

/-- The numbers that are sent for the frame have sixteen bits, and each character fills a column. -/
structure Fits (width : Nat) (f : Frame) : Prop where
  plain : Tty.Plain f.chars
  rows : (f.layout width).rows.length < 65536

end Frame

def outputRows (width : Nat) (text : String) : List (List Glyph) :=
  ((fileLines text.toList).flatMap (wrap width)).map (Tty.paint {})

/-- What a screen shows from the row down in which a prompt was begun. -/
structure Page where
  above : List (List Glyph) := []
  region : List (List Glyph) := []
  cursor : Nat × Nat := (0, 0)

def Page.take (width : Nat) (p : Page) : Act → Page
  | .rendered f => ⟨p.above, f.picture width, (f.layout width).cursor⟩
  | .interleaved chunk f =>
    ⟨p.above ++ outputRows width chunk.text, f.picture width, (f.layout width).cursor⟩
  | .finished f => ⟨p.above ++ f.picture width, [], (0, 0)⟩
  | _ => p

inductive Act.Redraws (width : Nat) : Act → Prop where
  | rendered {f : Frame} (h : f.Fits width) : Redraws width (.rendered f)
  | interleaved {chunk : Chunk} {f : Frame} (ht : '\r' ∉ chunk.text.toList) (h : f.Fits width) :
    Redraws width (.interleaved chunk f)
  | finished {f : Frame} (h : f.Fits width) : Redraws width (.finished f)

namespace Tty

variable {old : Nat → Nat → Option Glyph} {top : Nat} {lines : List (List Glyph)}
  {line : List Glyph} {t : Tty} {d : Display} {f : Frame}

theorem draw_newline (t : Tty) : t.draw Display.newline = t.lineFeed.returned := by
  have hn : t.draw Display.newline = t.returned.type {} '\n' := rfl
  rw [hn, type, if_neg (by decide), if_pos rfl]
  split <;> rfl

theorem drawAll_newlines (n : Nat) (t : Tty) :
    t.drawAll (List.replicate (n + 1) Display.newline) =
      { t with row := t.row + (n + 1), column := 0, full := false } := by
  induction n generalizing t with
  | zero => exact draw_newline t
  | succ n ih =>
    have hn : t.drawAll (List.replicate (n + 2) Display.newline) =
        t.lineFeed.returned.drawAll (List.replicate (n + 1) Display.newline) := by
      rw [List.replicate_succ, ← draw_newline]
      rfl
    rw [hn, ih]
    simp only [lineFeed, returned]
    congr 1
    omega

theorem drawAll_drawRow (color : Option Color) (row : Row) (t : Tty) :
    t.drawAll (Display.drawRow color row) =
      (t.typeAll ⟨color, color.isSome, false⟩ (row.text.take row.promptChars)).typeAll
        (if row.dim then ⟨none, false, true⟩ else {}) (row.text.drop row.promptChars) := by
  unfold Display.drawRow
  by_cases he : row.text.take row.promptChars = []
  · simp only [he, if_true]
    cases row.dim <;> rfl
  · simp only [he, if_false]
    cases row.dim <;> rfl

theorem drawAll_restart (h : d.cursorRow < 65536) (t : Tty) :
    t.drawAll d.restart =
      { t with
        cell := fun r k => if t.row - d.cursorRow ≤ r then none else t.cell r k
        row := t.row - d.cursorRow
        column := 0
        full := false } := by
  have hc : clip d.cursorRow = d.cursorRow := Nat.min_eq_left (by omega)
  have hcell (row : Nat) : (fun r k => if row < r ∨ (row = r ∧ 0 ≤ k) then none else t.cell r k) =
      fun r k => if row ≤ r then none else t.cell r k := by
    funext r k
    by_cases hr : row ≤ r
    · rw [if_pos hr, if_pos (by omega)]
    · rw [if_neg hr, if_neg (by omega)]
  unfold Display.restart
  rw [hc]
  by_cases hz : d.cursorRow = 0
  · simp only [hz, if_true, List.append_nil, List.cons_append, List.nil_append, drawAll,
      List.foldl_cons, List.foldl_nil, draw, Nat.zero_min, Nat.sub_zero, hcell]
  · simp only [hz, if_false, List.cons_append, List.nil_append, drawAll, List.foldl_cons,
      List.foldl_nil, draw, Nat.zero_min, hcell]

theorem drawAll_back {l : Layout} {first : Nat} (hlast : t.row + 1 = first + l.rows.length)
    (hrows : l.rows.length < 65536) (hcursor : l.cursor.1 < l.rows.length)
    (hcolumn : l.cursor.2 < t.columns) (hcols : t.columns < 65536) :
    t.drawAll ((if Display.below l = 0 then [] else [.up (clip (Display.below l))]) ++
        [.toColumn (clip l.cursor.2)]) =
      { t with row := first + l.cursor.1, column := l.cursor.2, full := false } := by
  have hup : clip (Display.below l) = Display.below l :=
    Nat.min_eq_left (by unfold Display.below; omega)
  have hto : clip l.cursor.2 = l.cursor.2 := Nat.min_eq_left (by omega)
  have hmin : min l.cursor.2 (t.columns - 1) = l.cursor.2 := Nat.min_eq_left (by omega)
  have hrow : t.row - Display.below l = first + l.cursor.1 := by
    unfold Display.below
    omega
  rw [hup, hto]
  by_cases hbelow : Display.below l = 0
  · rw [if_pos hbelow, List.nil_append, ← hrow, hbelow, Nat.sub_zero]
    simp only [drawAll, List.foldl_cons, List.foldl_nil, draw, hmin]
  · rw [if_neg hbelow]
    simp only [drawAll, List.singleton_append, List.foldl_cons, List.foldl_nil, draw, hmin, hrow]

theorem ends_restart (h : d.cursorRow < 65536) (hcol : 0 < t.columns)
    (hrow : t.row = top + lines.length + d.cursorRow)
    (hcell : ∀ r k, r < top + lines.length →
      t.cell r k = if r < top then old r k else lines[r - top]?.bind (·[k]?)) :
    Ends old top lines [] (t.drawAll d.restart) := by
  rw [drawAll_restart h]
  refine ⟨fun r k => ?_, by dsimp only; omega, Nat.zero_le _, fun _ => rfl,
    (decide_eq_false (Nat.ne_of_lt hcol)).symm⟩
  dsimp only
  rw [show t.row - d.cursorRow = top + lines.length by omega]
  rcases Nat.lt_or_ge r (top + lines.length) with hlt | hge
  · rw [if_neg (by omega), hcell r k hlt]
    split
    · rfl
    · rw [List.getElem?_append_left (by omega)]
  · rw [if_pos hge, if_neg (by omega)]
    rcases Nat.eq_or_lt_of_le hge with heq | hlt
    · rw [show r - top = lines.length by omega, List.getElem?_concat_length]
      rfl
    · rw [List.getElem?_eq_none (by simp; omega)]
      rfl

namespace Ends

theorem newline (h : Ends old top lines line t) (hcol : 0 < t.columns) :
    Ends old top (lines ++ [line]) [] (t.draw Display.newline) := by
  rw [draw_newline]
  exact h.next hcol

theorem drawRow (h : Ends old top lines [] t) (color : Option Color) {row : Row}
    (hp : Plain row.text) (hw : row.text.length ≤ t.columns) :
    Ends old top lines (row.glyphs color) (t.drawAll (Display.drawRow color row)) := by
  have hlen : (row.text.take row.promptChars).length + (row.text.drop row.promptChars).length =
      row.text.length := by
    rw [← List.length_append, List.take_append_drop]
  have hfirst : Ends old top lines
      (paint ⟨color, color.isSome, false⟩ (row.text.take row.promptChars))
      (t.typeAll ⟨color, color.isSome, false⟩ (row.text.take row.promptChars)) :=
    h.typeAll_room _ (fun c hc => hp c (List.mem_of_mem_take hc))
      (by rw [List.length_nil, Nat.zero_add]; omega)
  have hcols := (typeAll_setup ⟨color, color.isSome, false⟩ (row.text.take row.promptChars) t).1
  have hrest : Plain (row.text.drop row.promptChars) := fun c hc => hp c (List.mem_of_mem_drop hc)
  have hboth := hfirst.typeAll_room (if row.dim then ⟨none, false, true⟩ else {}) hrest (by
    rw [hcols, paint, List.length_map]
    omega)
  rw [drawAll_drawRow]
  exact hboth

theorem drawRows (h : Ends old top lines [] t) (hcol : 0 < t.columns) (color : Option Color)
    {rows : List Row} (hne : rows ≠ []) (hp : ∀ row ∈ rows, Plain row.text)
    (hw : ∀ row ∈ rows, row.text.length ≤ t.columns) :
    ∃ front last, rows.map (Row.glyphs color) = front ++ [last] ∧
      Ends old top (lines ++ front) last (t.drawAll (Display.drawRows color rows)) := by
  induction rows generalizing lines t with
  | nil => exact absurd rfl hne
  | cons row rows ih =>
    have hr := h.drawRow color (hp row List.mem_cons_self) (hw row List.mem_cons_self)
    have hc := (drawAll_setup (Display.drawRow color row) t).1
    cases rows with
    | nil => exact ⟨[], _, rfl, by simpa [Display.drawRows] using hr⟩
    | cons row' rows =>
      have hn := hr.newline (by omega)
      have hc' := (drawAll_setup (Display.drawRow color row ++ [Display.newline]) t).1
      obtain ⟨front, last, he, hd⟩ := ih hn (by rw [← hc'] at hcol; simpa [drawAll] using hcol)
        (by simp) (fun r hm => hp r (List.mem_cons_of_mem row hm))
        (fun r hm => by
          have hr' := hw r (List.mem_cons_of_mem row hm)
          rw [← hc'] at hr'
          simpa [drawAll] using hr')
      refine ⟨row.glyphs color :: front, last, by rw [List.map_cons, he, List.cons_append], ?_⟩
      rw [List.append_assoc] at hd
      simpa [Display.drawRows, drawAll] using hd

theorem typeLines (h : Ends old top lines [] t) (hcol : 0 < t.columns) {text : List (List Char)}
    (hp : ∀ line ∈ text, Plain line) :
    Ends old top (lines ++ (text.flatMap (wrap t.columns)).map (paint {})) []
      (t.typeAll {} (text.flatMap ended)) := by
  induction text generalizing lines t with
  | nil => simpa [typeAll] using h
  | cons line text ih =>
    obtain ⟨front, last, hw, he⟩ := (show Ends old top lines (paint {} []) t from h).typeAll_wraps
      hcol (hp line List.mem_cons_self)
    have hc := (typeAll_setup {} line t).1
    have hn := he.newline (by omega)
    have hc' : ((t.typeAll {} line).draw Display.newline).columns = t.columns :=
      (typeAll_setup {} ['\r', '\n'] _).1.trans hc
    have hi := ih hn (by omega) (fun l hm => hp l (List.mem_cons_of_mem line hm))
    rw [List.nil_append] at hw
    rw [List.flatMap_cons, List.flatMap_cons, hw, typeAll_append, ended, typeAll_append]
    rw [hc'] at hi
    simpa [draw, Display.newline] using hi

end Ends

end Tty

namespace Screen

variable {old : Nat → Nat → Option Glyph} {top width : Nat} {p : Page} {s : Screen} {f : Frame}

/-- All that drawing again relies on: the rows above the region, and where the region is. -/
structure Holds (old : Nat → Nat → Option Glyph) (top : Nat) (p : Page) (s : Screen) : Prop where
  columns : s.tty.columns = s.display.columns
  narrow : s.tty.columns < 65536
  row : s.tty.row = top + p.above.length + p.cursor.1
  cursorRow : s.display.cursorRow = p.cursor.1
  near : p.cursor.1 < 65536
  cells : ∀ r k, r < top + p.above.length →
    s.tty.cell r k = if r < top then old r k else p.above[r - top]?.bind (·[k]?)

structure Shows (old : Nat → Nat → Option Glyph) (top : Nat) (p : Page) (s : Screen) : Prop
    extends Holds old top p s where
  all : Tty.Written old top (p.above ++ p.region) s.tty
  column : s.tty.column = p.cursor.2
  full : s.tty.full = false

theorem columns_pos (d : Display) : 0 < d.columns := by
  unfold Display.columns
  split
  · decide
  · omega

section Draw

variable {t : Tty} {d : Display} {above : List (List Glyph)}

theorem drawAll_draw (hf : f.Fits d.columns) (hcols : t.columns = d.columns)
    (hlt : t.columns < 65536) (hd : d.cursorRow < 65536)
    (hrow : t.row = top + above.length + d.cursorRow)
    (hcell : ∀ r k, r < top + above.length →
      t.cell r k = if r < top then old r k else above[r - top]?.bind (·[k]?)) :
    ∃ front last u, f.picture d.columns = front ++ [last] ∧
      Tty.Ends old top (above ++ front) last u ∧
      t.drawAll (d.draw f).1 =
        { u with
          row := top + above.length + (f.layout d.columns).cursor.1
          column := (f.layout d.columns).cursor.2
          full := false } := by
  have hpos := columns_pos d
  have hcolumn := f.cursor_column_lt d.columns
  have hb := Tty.ends_restart hd (by omega) hrow hcell
  have hbc := (Tty.drawAll_setup d.restart t).1
  obtain ⟨front, last, hp, he⟩ := hb.drawRows (by omega) f.color (f.rows_ne_nil d.columns)
    (fun row hr c hc => by
      rcases Frame.mem_row hr hc with rfl | hm
      · decide
      · exact hf.plain c hm)
    (fun row hr => by
      have hw := Frame.width_row hr
      omega)
  have hrc := (Tty.drawAll_setup (Display.drawRows f.color (f.layout d.columns).rows)
    (t.drawAll d.restart)).1
  have hlen : (f.layout d.columns).rows.length = front.length + 1 := by
    rw [← List.length_map (Row.glyphs f.color), hp, List.length_append, List.length_singleton]
  have hlast : ((t.drawAll d.restart).drawAll
      (Display.drawRows f.color (f.layout d.columns).rows)).row + 1 =
        top + above.length + (f.layout d.columns).rows.length := by
    rw [he.row, List.length_append, hlen]
    omega
  -- Only the way back to the cursor is left, which draws nothing.
  refine ⟨front, last, _, hp, he, ?_⟩
  unfold Display.draw
  dsimp only
  rw [List.append_assoc, Tty.drawAll_append, Tty.drawAll_append d.restart]
  exact Tty.drawAll_back hlast hf.rows (f.cursor_row_lt d.columns) (by omega) (by omega)

theorem shows_draw (hf : f.Fits d.columns) (hcols : t.columns = d.columns)
    (hlt : t.columns < 65536) (hd : d.cursorRow < 65536)
    (hrow : t.row = top + above.length + d.cursorRow)
    (hcell : ∀ r k, r < top + above.length →
      t.cell r k = if r < top then old r k else above[r - top]?.bind (·[k]?)) :
    Shows old top ⟨above, f.picture d.columns, (f.layout d.columns).cursor⟩
      ⟨(d.draw f).2, t.drawAll (d.draw f).1⟩ := by
  obtain ⟨front, last, u, hpicture, hu, hdrawn⟩ := drawAll_draw hf hcols hlt hd hrow hcell
  have hsetup := (Tty.drawAll_setup (d.draw f).1 t).1
  have hall : Tty.Written old top (above ++ f.picture d.columns) (t.drawAll (d.draw f).1) := by
    rw [hdrawn, hpicture, ← List.append_assoc]
    exact hu.cells
  refine ⟨⟨hsetup.trans hcols, hsetup ▸ hlt, ?_, rfl,
    Nat.lt_trans (f.cursor_row_lt d.columns) hf.rows, ?_⟩, hall, ?_, ?_⟩
  · rw [hdrawn]
  · intro r k hr
    rw [hall r k]
    split
    · rfl
    · rw [List.getElem?_append_left (by dsimp only at hr; omega)]
  · rw [hdrawn]
  · rw [hdrawn]

end Draw

theorem sent_out (drawings : List Drawing) :
    (drawings.map fun d => (Stream.out, d)).map Prod.snd = drawings := by
  rw [List.map_map]
  exact List.map_id drawings

theorem take_rendered (s : Screen) (f : Frame) :
    s.take (.rendered f) = ⟨(s.display.draw f).2, s.tty.drawAll (s.display.draw f).1⟩ := by
  simp only [take, Display.send, sent_out]
  rfl

theorem take_finished (s : Screen) (f : Frame) :
    s.take (.finished f) =
      ⟨{ (s.display.draw f).2 with cursorRow := 0 },
        (s.tty.drawAll (s.display.draw f).1).drawAll
          (List.replicate (Display.below (f.layout s.display.columns) + 1) Display.newline)⟩ := by
  simp only [take, Display.send, sent_out, Tty.drawAll_append]
  rfl

theorem take_interleaved (s : Screen) (chunk : Chunk) (f : Frame) :
    s.take (.interleaved chunk f) =
      ⟨(Display.draw { s.display with cursorRow := 0 } f).2,
        ((s.tty.drawAll s.display.restart).typeAll {} (rawText chunk.text.toList)).drawAll
          (Display.draw { s.display with cursorRow := 0 } f).1⟩ := by
  simp only [take, Display.send, List.map_append, List.map_cons, sent_out, Tty.drawAll_append]
  rfl

theorem take_setup (s : Screen) (a : Act) :
    (s.take a).tty.columns = s.tty.columns ∧ (s.take a).display.columns = s.display.columns := by
  refine ⟨(Tty.drawAll_setup _ _).1, ?_⟩
  cases a <;> rfl

theorem shows_rendered (h : Holds old top p s) (hf : f.Fits s.tty.columns) :
    Shows old top (p.take s.tty.columns (.rendered f)) (s.take (.rendered f)) := by
  have hnear : s.display.cursorRow < 65536 := h.cursorRow ▸ h.near
  rw [take_rendered]
  rw [h.columns] at hf ⊢
  exact shows_draw hf h.columns h.narrow hnear (by rw [h.row, h.cursorRow]) h.cells

theorem shows_finished (h : Holds old top p s) (hf : f.Fits s.tty.columns) :
    Shows old top (p.take s.tty.columns (.finished f)) (s.take (.finished f)) := by
  have hd : Shows old top ⟨p.above, f.picture s.tty.columns, (f.layout s.tty.columns).cursor⟩
      (s.take (.rendered f)) := shows_rendered h hf
  have hcursor := f.cursor_row_lt s.tty.columns
  have hlen : (f.picture s.tty.columns).length = (f.layout s.tty.columns).rows.length :=
    List.length_map ..
  have hrow := hd.row
  rw [take_rendered] at hd hrow
  rw [take_finished, Tty.drawAll_newlines, ← h.columns]
  change Shows old top ⟨p.above ++ f.picture s.tty.columns, [], (0, 0)⟩ _
  refine ⟨⟨hd.columns, hd.narrow, ?_, rfl, Nat.zero_lt_succ _, ?_⟩, ?_, rfl, rfl⟩
  · simp only [Display.below, List.length_append] at hrow ⊢
    omega
  · intro r k hr
    exact hd.all r k
  · rw [List.append_nil]
    exact hd.all

theorem shows_interleaved (h : Holds old top p s) {chunk : Chunk} (ht : '\r' ∉ chunk.text.toList)
    (hf : f.Fits s.tty.columns) :
    Shows old top (p.take s.tty.columns (.interleaved chunk f)) (s.take (.interleaved chunk f)) := by
  have hnear : s.display.cursorRow < 65536 := h.cursorRow ▸ h.near
  have hcol : 0 < s.tty.columns := h.columns ▸ columns_pos s.display
  have hb : Tty.Ends old top p.above [] (s.tty.drawAll s.display.restart) :=
    Tty.ends_restart hnear hcol (by rw [h.row, h.cursorRow]) h.cells
  have hset := Tty.drawAll_setup s.display.restart s.tty
  have hset' := Tty.typeAll_setup {} (rawText chunk.text.toList) (s.tty.drawAll s.display.restart)
  have hp : Tty.Ends old top (p.above ++ outputRows s.tty.columns chunk.text) []
      ((s.tty.drawAll s.display.restart).typeAll {} (rawText chunk.text.toList)) := by
    rw [rawText_eq ht, outputRows, ← hset.1]
    refine hb.typeLines (by omega) fun line hl c hc => ⟨?_, (mem_of_mem_fileLines ht hl hc).2⟩
    exact fun he => ht (he ▸ (mem_of_mem_fileLines ht hl hc).1)
  rw [take_interleaved]
  generalize (s.tty.drawAll s.display.restart).typeAll {} (rawText chunk.text.toList) = t at hp hset'
  rw [hset.1] at hset'
  rw [h.columns] at hf hp ⊢
  have hcells : ∀ r k, r < top + (p.above ++ outputRows s.display.columns chunk.text).length →
      t.cell r k = if r < top then old r k
        else (p.above ++ outputRows s.display.columns chunk.text)[r - top]?.bind (·[k]?) := by
    intro r k hr
    rw [hp.cells r k]
    split
    · rfl
    · rw [List.getElem?_append_left (by omega)]
  exact shows_draw (d := { s.display with cursorRow := 0 }) hf (hset'.1.trans h.columns)
    (by rw [hset'.1]; exact h.narrow) (Nat.zero_lt_succ _) hp.row hcells

theorem shows_take (h : Holds old top p s) {a : Act} (ha : a.Redraws s.tty.columns) :
    Shows old top (p.take s.tty.columns a) (s.take a) := by
  cases ha with
  | rendered hf => exact shows_rendered h hf
  | interleaved ht hf => exact shows_interleaved h ht hf
  | finished hf => exact shows_finished h hf

theorem shows_takeAll (h : Holds old top p s) {acts : List Act} (hne : acts ≠ [])
    (ha : ∀ a ∈ acts, a.Redraws s.tty.columns) :
    Shows old top (acts.foldl (Page.take s.tty.columns) p) (s.takeAll acts) := by
  induction acts generalizing p s with
  | nil => exact absurd rfl hne
  | cons a acts ih =>
    have hs := shows_take h (ha a List.mem_cons_self)
    cases acts with
    | nil => exact hs
    | cons a' acts =>
      rw [← (take_setup s a).1] at ha
      have hi := ih hs.toHolds (by simp) fun b hb => ha b (List.mem_cons_of_mem a hb)
      rw [(take_setup s a).1] at hi
      exact hi

/-- However often a prompt is drawn, interleaved with output and finished, the screen shows below
the row in which it was begun the lines that are to stay, then the region as it is laid out, and
nothing else. The cursor is where the layout has it, and above nothing has changed. -/
theorem redraws_faithful (s : Screen) (acts : List Act) (hc : s.tty.columns = s.display.columns)
    (hw : s.tty.columns < 65536) (hne : acts ≠ []) (ha : ∀ a ∈ acts, a.Redraws s.tty.columns) :
    let t := ((s.take .entered).takeAll acts).tty
    let page := acts.foldl (Page.take s.tty.columns) {}
    (∀ r k, t.cell r k = if r < s.tty.row then s.tty.cell r k
      else (page.above ++ page.region)[r - s.tty.row]?.bind (·[k]?)) ∧
    t.row = s.tty.row + page.above.length + page.cursor.1 ∧ t.column = page.cursor.2 ∧
    t.full = false := by
  have hb : Holds s.tty.cell s.tty.row {} (s.take .entered) :=
    ⟨hc, hw, rfl, rfl, by decide, fun r k hr => (if_pos hr).symm⟩
  have hs := shows_takeAll hb hne ha
  exact ⟨hs.all, hs.row, hs.column, hs.full⟩

def wrapped : Frame := ⟨"> ", some .blue, ["abc"], (0, 3), some "ok"⟩

theorem fits_wrapped : wrapped.Fits 4 where
  plain := by decide
  rows := by decide +kernel

theorem redraws_faithful_wrapped :
    let s : Screen := ⟨{ width := 4 }, { columns := 4, row := 2, column := 1 }⟩
    let acts : List Act :=
      [.rendered wrapped, .interleaved ⟨"x\ny", .err⟩ wrapped, .finished wrapped]
    s.tty.columns = s.display.columns ∧ s.tty.columns < 65536 ∧ acts ≠ [] ∧
      (∀ a ∈ acts, a.Redraws s.tty.columns) ∧
      ((s.take .entered).takeAll acts).tty.cell 3 0 = some ('y', {}) ∧
      ((s.take .entered).takeAll acts).tty.row = 7 := by
  intro s acts
  have ha : ∀ a ∈ acts, a.Redraws s.tty.columns := by
    intro a hm
    rcases List.mem_cons.mp hm with rfl | hm
    · exact .rendered fits_wrapped
    · rcases List.mem_cons.mp hm with rfl | hm
      · exact .interleaved (by decide) fits_wrapped
      · rw [List.mem_singleton.mp hm]
        exact .finished fits_wrapped
  obtain ⟨hcell, hrow, -, -⟩ := redraws_faithful s acts (by decide) (by decide) (by decide) ha
  refine ⟨by decide, by decide, by decide, ha, ?_, ?_⟩
  · rw [hcell]
    decide +kernel
  · rw [hrow]
    decide +kernel

end Screen

end RConsole
