import RConsole.Proofs.Screen.Layout
import RConsole.Proofs.Text.Lines
import RConsole.Screen.Drawing

/-!
A terminal that shows what is sent to it: a grid of cells without a last row, and a cursor. The last
column of a row can be filled before the cursor moves on, so that a full row is followed by a newline
without an empty row in between.
-/
namespace RConsole

abbrev Glyph := Char × Look

structure Tty where
  columns : Nat
  cell : Nat → Nat → Option Glyph := fun _ _ => none
  row : Nat := 0
  column : Nat := 0
  /-- Whether the last column was filled, so that the next character goes to the next row. -/
  full : Bool := false
  raw : Bool := false

namespace Tty

def returned (t : Tty) : Tty := { t with column := 0, full := false }

def lineFeed (t : Tty) : Tty := { t with row := t.row + 1, full := false }

def put (g : Glyph) (t : Tty) : Tty :=
  { t with
    cell := fun r k => if r = t.row ∧ k = t.column then some g else t.cell r k
    column := if t.column + 1 < t.columns then t.column + 1 else t.column
    full := !decide (t.column + 1 < t.columns) }

/-- Any character but a return and a newline is taken to fill one column. -/
def type (look : Look) (t : Tty) (c : Char) : Tty :=
  if c = '\r' then t.returned
  else if c = '\n' then if t.raw then t.lineFeed else t.lineFeed.returned
  else if t.full then t.lineFeed.returned.put (c, look)
  else t.put (c, look)

def typeAll (look : Look) (text : List Char) (t : Tty) : Tty := text.foldl (type look) t

def draw (t : Tty) : Drawing → Tty
  | .toColumn k => { t with column := min k (t.columns - 1), full := false }
  | .up n => { t with row := t.row - n, full := false }
  | .clearBelow =>
    { t with
      cell := fun r k => if t.row < r ∨ (t.row = r ∧ t.column ≤ k) then none else t.cell r k }
  | .clearAll => { t with cell := fun _ _ => none }
  | .toCorner => { t with row := 0, column := 0, full := false }
  | .print text => t.typeAll {} text
  | .styled look text => t.typeAll look text

def drawAll (drawings : List Drawing) (t : Tty) : Tty := drawings.foldl draw t

def paint (look : Look) (text : List Char) : List Glyph := text.map (·, look)

def Plain (text : List Char) : Prop := ∀ c ∈ text, c ≠ '\r' ∧ c ≠ '\n'

instance (text : List Char) : Decidable (Plain text) := List.decidableBAll _ _

def Written (old : Nat → Nat → Option Glyph) (top : Nat) (lines : List (List Glyph)) (t : Tty) :
    Prop :=
  ∀ r k, t.cell r k = if r < top then old r k else lines[r - top]?.bind (·[k]?)

structure Ends (old : Nat → Nat → Option Glyph) (top : Nat) (lines : List (List Glyph))
    (line : List Glyph) (t : Tty) : Prop where
  cells : Written old top (lines ++ [line]) t
  row : t.row = top + lines.length
  fits : line.length ≤ t.columns
  column : line.length < t.columns → t.column = line.length
  full : t.full = decide (line.length = t.columns)

variable {old : Nat → Nat → Option Glyph} {top : Nat} {lines : List (List Glyph)}
  {line : List Glyph} {t : Tty} {look : Look} {c : Char} {text : List Char}

theorem typeAll_append (look : Look) (first later : List Char) (t : Tty) :
    t.typeAll look (first ++ later) = (t.typeAll look first).typeAll look later := List.foldl_append

theorem drawAll_append (first later : List Drawing) (t : Tty) :
    t.drawAll (first ++ later) = (t.drawAll first).drawAll later := List.foldl_append

theorem type_setup (look : Look) (t : Tty) (c : Char) :
    (t.type look c).columns = t.columns ∧ (t.type look c).raw = t.raw := by
  unfold type
  split
  · exact ⟨rfl, rfl⟩
  · split
    · split <;> exact ⟨rfl, rfl⟩
    · split <;> exact ⟨rfl, rfl⟩

theorem typeAll_setup (look : Look) (text : List Char) (t : Tty) :
    (t.typeAll look text).columns = t.columns ∧ (t.typeAll look text).raw = t.raw := by
  induction text generalizing t with
  | nil => exact ⟨rfl, rfl⟩
  | cons c text ih =>
    obtain ⟨hc, hr⟩ := ih (t.type look c)
    obtain ⟨hc', hr'⟩ := type_setup look t c
    exact ⟨hc.trans hc', hr.trans hr'⟩

theorem drawAll_setup (drawings : List Drawing) (t : Tty) :
    (t.drawAll drawings).columns = t.columns ∧ (t.drawAll drawings).raw = t.raw := by
  induction drawings generalizing t with
  | nil => exact ⟨rfl, rfl⟩
  | cons d drawings ih =>
    have hd : (t.draw d).columns = t.columns ∧ (t.draw d).raw = t.raw := by
      cases d with
      | print text => exact typeAll_setup {} text t
      | styled look text => exact typeAll_setup look text t
      | _ => exact ⟨rfl, rfl⟩
    obtain ⟨hc, hr⟩ := ih (t.draw d)
    exact ⟨hc.trans hd.1, hr.trans hd.2⟩

namespace Ends

theorem type_room (h : Ends old top lines line t) (look : Look) (hc : c ≠ '\r' ∧ c ≠ '\n')
    (hr : line.length < t.columns) : Ends old top lines (line ++ [(c, look)]) (t.type look c) := by
  have hcol := h.column hr
  have hf : t.full = false := by rw [h.full]; exact decide_eq_false (Nat.ne_of_lt hr)
  have ht : t.type look c = t.put (c, look) := by
    unfold type
    rw [if_neg hc.1, if_neg hc.2, if_neg (by rw [hf]; exact Bool.false_ne_true)]
  have hrow := h.row
  rw [ht]
  refine ⟨?_, h.row, ?_, ?_, ?_⟩
  · intro r k
    have hcell := h.cells r k
    simp only [put, hrow, hcol]
    split
    · rename_i he
      obtain ⟨rfl, rfl⟩ := he
      rw [if_neg (by omega), Nat.add_sub_cancel_left]
      simp
    · rename_i hne
      rw [hcell]
      split
      · rfl
      · rename_i hge
        rcases Nat.lt_trichotomy (r - top) lines.length with hlt | heq | hgt
        · rw [List.getElem?_append_left hlt, List.getElem?_append_left hlt]
        · have hk : k ≠ line.length := fun hk => hne ⟨by omega, hk⟩
          rw [heq, List.getElem?_concat_length, List.getElem?_concat_length]
          rcases Nat.lt_or_ge k line.length with hlt | hge
          · simp only [Option.bind_some]
            rw [List.getElem?_append_left hlt]
          · simp only [Option.bind_some]
            rw [List.getElem?_eq_none hge, List.getElem?_eq_none (by simp; omega)]
        · rw [List.getElem?_eq_none (by simp; omega), List.getElem?_eq_none (by simp; omega)]
  · simp only [put, List.length_append, List.length_singleton]
    omega
  · intro hl
    simp only [put, List.length_append, List.length_singleton, hcol] at hl ⊢
    rw [if_pos hl]
  · simp only [put, List.length_append, List.length_singleton, hcol]
    rcases Nat.lt_or_ge (line.length + 1) t.columns with hl | hl
    · rw [decide_eq_true hl, decide_eq_false (Nat.ne_of_lt hl), Bool.not_true]
    · rw [decide_eq_false (Nat.not_lt.mpr hl), decide_eq_true (by omega), Bool.not_false]

theorem next (h : Ends old top lines line t) (hc : 0 < t.columns) :
    Ends old top (lines ++ [line]) [] t.lineFeed.returned where
  cells := by
    intro r k
    have hcell := h.cells r k
    change t.cell r k = _
    rw [hcell]
    split
    · rfl
    · rcases Nat.lt_trichotomy (r - top) (lines ++ [line]).length with hlt | heq | hgt
      · have hleft : (lines ++ [line] ++ [[]])[r - top]? = (lines ++ [line])[r - top]? :=
          List.getElem?_append_left hlt
        rw [hleft]
      · rw [heq, List.getElem?_concat_length, List.getElem?_eq_none (Nat.le_refl _)]
        rfl
      · rw [List.getElem?_eq_none (by omega), List.getElem?_eq_none (by simp at hgt ⊢; omega)]
  row := by
    have hr := h.row
    simp only [lineFeed, returned, List.length_append, List.length_singleton]
    omega
  fits := Nat.zero_le _
  column _ := rfl
  full := by
    change false = _
    exact (decide_eq_false (Nat.ne_of_lt hc)).symm

theorem type_full (h : Ends old top lines line t) (look : Look) (hcol : 0 < t.columns)
    (hc : c ≠ '\r' ∧ c ≠ '\n') (hl : line.length = t.columns) : Ends old top (lines ++ [line]) [(c, look)] (t.type look c) := by
  have hn := h.next hcol
  have hf : t.full = true := by rw [h.full]; exact decide_eq_true hl
  have ht : t.type look c = t.lineFeed.returned.type look c := by
    unfold type
    rw [if_neg hc.1, if_neg hc.2, if_pos hf, if_neg hc.1, if_neg hc.2]
    rfl
  rw [ht]
  exact hn.type_room look hc hcol

theorem typeAll_room (h : Ends old top lines line t) (look : Look) (hp : Plain text)
    (hr : line.length + text.length ≤ t.columns) :
    Ends old top lines (line ++ paint look text) (t.typeAll look text) := by
  induction text generalizing line t with
  | nil => simpa [paint, typeAll] using h
  | cons c text ih =>
    have hc := type_setup look t c
    rw [List.length_cons] at hr
    have ht := h.type_room look (hp c List.mem_cons_self) (by omega)
    have hi := ih ht (fun c' hm => hp c' (List.mem_cons_of_mem c hm)) (by
      rw [hc.1, List.length_append, List.length_singleton]
      omega)
    rw [List.append_assoc] at hi
    exact hi

theorem typeAll_wraps {l : List Char} (h : Ends old top lines (paint look l) t)
    (hcol : 0 < t.columns) (hp : Plain text) :
    ∃ front last, wrap t.columns (l ++ text) = front ++ [last] ∧
      Ends old top (lines ++ front.map (paint look)) (paint look last) (t.typeAll look text) := by
  induction text generalizing lines l t with
  | nil =>
    have hf : l.length ≤ t.columns := by simpa [paint] using h.fits
    refine ⟨[], l, ?_, by simpa [typeAll] using h⟩
    rw [List.append_nil, wrap_of_le hf, List.nil_append]
  | cons c text ih =>
    have hset := (type_setup look t c).1
    have hc := hp c List.mem_cons_self
    have hrest : Plain text := fun c' hm => hp c' (List.mem_cons_of_mem c hm)
    have hf : l.length ≤ t.columns := by simpa [paint] using h.fits
    rcases Nat.lt_or_ge l.length t.columns with hlt | hge
    · have ht := h.type_room look hc (by simpa [paint] using hlt)
      have ht' : Ends old top lines (paint look (l ++ [c])) (t.type look c) := by
        simpa [paint] using ht
      obtain ⟨front, last, hw, he⟩ := ih ht' (by omega) hrest
      rw [hset, List.append_assoc] at hw
      exact ⟨front, last, hw, he⟩
    · have hl : l.length = t.columns := by omega
      have ht := h.type_full look hcol hc (by simpa [paint] using hl)
      obtain ⟨front, last, hw, he⟩ := ih (l := [c]) ht (by omega) hrest
      rw [hset] at hw
      refine ⟨l :: front, last, ?_, by simpa [typeAll] using he⟩
      rw [wrap_of_lt hcol (by simp; omega), ← hl, List.take_left, List.drop_left, hl]
      exact congrArg (List.cons l) hw

end Ends

end Tty

end RConsole
