import RConsole.Proofs.Screen.Redraw

/-!
What drawing leaves alone. A prompt is drawn from the row of its region down, so that a character
that stands above the region stays; and output stands above the next region if its last line is done
before the prompt begins.
-/
namespace RConsole

namespace Tty

variable {t u v : Tty} {look : Look} {c : Char} {text : List Char} {r k n m : Nat}

def place (t : Tty) : Nat × Nat := if t.full then (t.row + 1, 0) else (t.row, t.column)

def Before (p q : Nat × Nat) : Prop := p.1 < q.1 ∨ (p.1 = q.1 ∧ p.2 < q.2)

theorem Before.trans {p q s : Nat × Nat} (h : Before p q) (h' : Before q s) : Before p s := by
  unfold Before at *
  omega

theorem put_forward (t : Tty) (g : Glyph) :
    (t.put g).cell t.row t.column = some g ∧ Before (t.row, t.column) (t.put g).place ∧
      ∀ r k, Before (r, k) (t.row, t.column) → (t.put g).cell r k = t.cell r k := by
  refine ⟨if_pos ⟨rfl, rfl⟩, ?_, ?_⟩
  · unfold place put Before
    by_cases hl : t.column + 1 < t.columns <;> simp [hl]
  · intro r k hb
    unfold Before at hb
    exact if_neg (by omega)

theorem type_char (look : Look) (t : Tty) (hc : c ≠ '\r' ∧ c ≠ '\n') :
    (t.type look c).cell t.place.1 t.place.2 = some (c, look) ∧
      Before t.place (t.type look c).place ∧
      ∀ r k, Before (r, k) t.place → (t.type look c).cell r k = t.cell r k := by
  obtain ⟨u, hu, hp, hcell⟩ : ∃ u : Tty, t.type look c = u.put (c, look) ∧
      t.place = (u.row, u.column) ∧ u.cell = t.cell := by
    unfold type place
    rw [if_neg hc.1, if_neg hc.2]
    cases t.full with
    | true => exact ⟨t.lineFeed.returned, rfl, rfl, rfl⟩
    | false => exact ⟨t, rfl, rfl, rfl⟩
  rw [hu, hp, ← hcell]
  exact put_forward u (c, look)

theorem type_forward (look : Look) (hraw : t.raw = false) (hc : c ≠ '\r') (hb : Before (r, k) t.place) :
    (t.type look c).cell r k = t.cell r k ∧ Before (r, k) (t.type look c).place := by
  by_cases hn : c = '\n'
  · unfold type
    rw [if_neg hc, if_pos hn, hraw]
    refine ⟨rfl, ?_⟩
    unfold place Before at hb ⊢
    simp only [lineFeed, returned]
    cases hf : t.full <;> simp [hf] at hb ⊢ <;> omega
  · have ht := type_char look t ⟨hc, hn⟩
    exact ⟨ht.2.2 r k hb, hb.trans ht.2.1⟩

theorem typeAll_forward (look : Look) (hraw : t.raw = false) (hc : '\r' ∉ text)
    (hb : Before (r, k) t.place) :
    (t.typeAll look text).cell r k = t.cell r k ∧ Before (r, k) (t.typeAll look text).place := by
  induction text generalizing t with
  | nil => exact ⟨rfl, hb⟩
  | cons c text ih =>
    have hn : c ≠ '\r' := fun h => hc (h ▸ List.mem_cons_self)
    obtain ⟨hcell, hb'⟩ := type_forward look hraw hn hb
    have hi := ih ((type_setup look t c).2.trans hraw) (fun h => hc (List.mem_cons_of_mem c h)) hb'
    exact ⟨hi.1.trans hcell, hi.2⟩

theorem typeAll_ended (hraw : t.raw = false) (hc : '\r' ∉ text) (hb : Before (r, k) t.place)
    (he : text.getLast? = some '\n') : r < (t.typeAll look text).row := by
  obtain ⟨front, rfl⟩ := List.getLast?_eq_some_iff.mp he
  have hf := typeAll_forward look hraw (fun h => hc (List.mem_append_left _ h)) hb
  have hr := (typeAll_setup look front t).2.trans hraw
  rw [typeAll_append]
  generalize t.typeAll look front = u at hf hr
  have hn : u.typeAll look ['\n'] = u.lineFeed.returned := by
    change u.type look '\n' = _
    unfold type
    rw [if_neg (by decide), if_pos rfl, hr]
    rfl
  have hlt := hf.2
  rw [hn]
  unfold place Before at hlt
  simp only [lineFeed, returned]
  cases hfull : u.full <;> simp [hfull] at hlt <;> omega

def Down (n : Nat) (t u : Tty) : Prop :=
  t.row + n ≤ u.row ∧ ∀ r k, r < t.row → u.cell r k = t.cell r k

theorem Down.trans (h : Down n t u) (h' : Down m u v) : Down (n + m) t v := by
  obtain ⟨hr, hc⟩ := h
  obtain ⟨hr', hc'⟩ := h'
  refine ⟨by omega, fun r k hlt => ?_⟩
  rw [hc' r k (by omega), hc r k hlt]

theorem Down.refl (t : Tty) : Down 0 t t := ⟨Nat.le_refl _, fun _ _ _ => rfl⟩

theorem put_down (g : Glyph) (t : Tty) : Down 0 t (t.put g) := by
  refine ⟨Nat.le_refl _, fun r k hr => ?_⟩
  exact if_neg fun h => absurd h.1 (Nat.ne_of_lt hr)

theorem lineFeed_down (t : Tty) : Down 1 t t.lineFeed := ⟨Nat.le_refl _, fun _ _ _ => rfl⟩

theorem type_down (look : Look) (t : Tty) (c : Char) : Down 0 t (t.type look c) := by
  have hf : Down 0 t t.lineFeed := ⟨Nat.le_succ _, fun _ _ _ => rfl⟩
  unfold type
  split
  · exact .refl t
  · split
    · split
      · exact hf
      · exact hf
    · split
      · exact hf.trans (put_down _ t.lineFeed.returned)
      · exact put_down _ t

theorem typeAll_down (look : Look) (text : List Char) (t : Tty) : Down 0 t (t.typeAll look text) := by
  induction text generalizing t with
  | nil => exact .refl t
  | cons c text ih => exact (type_down look t c).trans (ih (t.type look c))

theorem newline_down (t : Tty) : Down 1 t (t.draw Display.newline) := by
  rw [draw_newline]
  exact lineFeed_down t

theorem drawRows_down (color : Option Color) (rows : List Row) (t : Tty) :
    Down (rows.length - 1) t (t.drawAll (Display.drawRows color rows)) := by
  have hrow (row : Row) (t : Tty) : Down 0 t (t.drawAll (Display.drawRow color row)) := by
    rw [drawAll_drawRow]
    exact (typeAll_down _ _ t).trans (typeAll_down _ _ _)
  induction rows generalizing t with
  | nil => exact .refl t
  | cons row rows ih =>
    cases rows with
    | nil => exact hrow row t
    | cons row' rows =>
      have hd := ((hrow row t).trans (newline_down _)).trans (ih _)
      have he : Display.drawRows color (row :: row' :: rows) =
          (Display.drawRow color row ++ [Display.newline]) ++ Display.drawRows color (row' :: rows) := by
        simp [Display.drawRows]
      rw [he, drawAll_append, drawAll_append]
      have hn : (row :: row' :: rows).length - 1 = 0 + 1 + ((row' :: rows).length - 1) := by
        simp only [List.length_cons]
        omega
      rw [hn]
      exact hd

theorem restart_keeps (d : Display) (t : Tty) :
    t.row - d.cursorRow ≤ (t.drawAll d.restart).row ∧
      ∀ r k, r < (t.drawAll d.restart).row → (t.drawAll d.restart).cell r k = t.cell r k := by
  have hclip : clip d.cursorRow ≤ d.cursorRow := Nat.min_le_left ..
  have hcell (u : Tty) (r k : Nat) (hr : r < u.row) : (u.draw .clearBelow).cell r k = u.cell r k :=
    if_neg (by omega)
  unfold Display.restart
  by_cases hz : d.cursorRow = 0
  · simp only [hz, if_true, List.append_nil, drawAll, List.cons_append, List.nil_append,
      List.foldl_cons, List.foldl_nil]
    exact ⟨Nat.sub_le _ _, fun r k hr => hcell _ r k hr⟩
  · simp only [hz, if_false, drawAll, List.cons_append, List.nil_append, List.foldl_cons,
      List.foldl_nil]
    refine ⟨?_, fun r k hr => hcell _ r k hr⟩
    change t.row - d.cursorRow ≤ t.row - clip d.cursorRow
    omega

theorem draw_keeps (d : Display) (f : Frame) (t : Tty) (h : r + d.cursorRow < t.row) :
    (t.drawAll (d.draw f).1).cell r k = t.cell r k ∧
      r + (d.draw f).2.cursorRow < (t.drawAll (d.draw f).1).row := by
  obtain ⟨hup, hkeep⟩ := restart_keeps d t
  have hcursor := f.cursor_row_lt d.columns
  have hrows := drawRows_down f.color (f.layout d.columns).rows (t.drawAll d.restart)
  have hclip : clip (Display.below (f.layout d.columns)) ≤ Display.below (f.layout d.columns) :=
    Nat.min_le_left ..
  unfold Display.draw
  dsimp only
  rw [drawAll_append, drawAll_append, drawAll_append]
  have hk := hkeep r k (by omega)
  generalize t.drawAll d.restart = u at hup hrows hk
  have hr := hrows.2 r k (by omega)
  have hdown := hrows.1
  generalize u.drawAll (Display.drawRows f.color (f.layout d.columns).rows) = v at hr hdown
  unfold Display.below at hclip ⊢
  by_cases hb : (f.layout d.columns).rows.length - 1 - (f.layout d.columns).cursor.1 = 0
  · rw [if_pos hb]
    refine ⟨hr.trans hk, ?_⟩
    change r + (f.layout d.columns).cursor.1 < v.row
    omega
  · rw [if_neg hb]
    refine ⟨hr.trans hk, ?_⟩
    change r + (f.layout d.columns).cursor.1 <
      v.row - clip ((f.layout d.columns).rows.length - 1 - (f.layout d.columns).cursor.1)
    omega

end Tty

/-- What a session is doing on its terminal: printing, where `midLine` tells whether the last line is
not done, or showing a prompt. -/
inductive Phase where
  | printing (midLine : Bool)
  | prompting
  deriving DecidableEq, Repr

def Chunk.leaves (midLine : Bool) (chunk : Chunk) : Bool :=
  if chunk.text.toList = [] then midLine else !endsLine chunk.text

/-- The phase after an act that has its place there. A prompt only begins on a line of its own, and
neither clears the screen nor gives the terminal back. -/
def Phase.next? : Phase → Act → Option Phase
  | .printing midLine, .wrote chunk => some (.printing (chunk.leaves midLine))
  | .printing false, .entered => some .prompting
  | .prompting, .left => some (.printing false)
  | .prompting, .rendered _ => some .prompting
  | .prompting, .finished _ => some .prompting
  | .prompting, .interleaved .. => some .prompting
  | .prompting, .asked _ => some .prompting
  | .prompting, .checked => some .prompting
  | .prompting, .keyed _ => some .prompting
  | _, _ => none

def Phase.after? (p : Phase) (acts : List Act) : Option Phase := acts.foldlM next? p

theorem Phase.after_append (p : Phase) (acts acts' : List Act) :
    p.after? (acts ++ acts') = (p.after? acts).bind (·.after? acts') := List.foldlM_append

def Act.goesForward : Act → Bool
  | wrote chunk => !chunk.text.toList.contains '\r'
  | _ => true

namespace Screen

variable {p p' : Phase} {midLine : Bool} {s : Screen} {a : Act} {r k : Nat}

def Stands (r k : Nat) (p : Phase) (s : Screen) : Prop :=
  match p with
  | .printing midLine => Tty.Before (r, k) s.tty.place ∧ (midLine = false → r < s.tty.row)
  | .prompting => r + s.display.cursorRow < s.tty.row

def Returns (p : Phase) (s : Screen) : Prop := ∀ midLine, p = .printing midLine → s.tty.raw = false

theorem take_wrote (s : Screen) (chunk : Chunk) :
    s.take (.wrote chunk) = ⟨s.display, s.tty.typeAll {} chunk.text.toList⟩ := rfl

theorem take_setting (s : Screen) (h : (s.display.send a).1 = []) :
    (s.take a).tty = { s.tty with raw := Terminal.rawAfter s.tty.raw a } := by
  unfold take
  rw [h]
  rfl

theorem returns_take (h : Returns p s) (hp : p.next? a = some p') : Returns p' (s.take a) := by
  have hraw : (s.take a).tty.raw = Terminal.rawAfter s.tty.raw a := (Tty.drawAll_setup _ _).2
  intro midLine he
  rw [hraw]
  subst he
  unfold Phase.next? at hp
  split at hp <;> cases hp
  · exact h _ rfl
  · rfl

theorem stands_wrote (h : Returns (.printing midLine) s) {chunk : Chunk}
    (hc : '\r' ∉ chunk.text.toList) (hs : Tty.Before (r, k) s.tty.place)
    (hl : chunk.text.toList = [] → midLine = false → r < s.tty.row) :
    (s.take (.wrote chunk)).tty.cell r k = s.tty.cell r k ∧
      Stands r k (.printing (chunk.leaves midLine)) (s.take (.wrote chunk)) := by
  have hf := Tty.typeAll_forward {} (h _ rfl) hc hs
  rw [take_wrote]
  refine ⟨hf.1, hf.2, fun hm => ?_⟩
  unfold Chunk.leaves at hm
  split at hm
  · rename_i he
    simpa [he, Tty.typeAll] using hl he hm
  · have he : endsLine chunk.text = true := by simpa using hm
    exact Tty.typeAll_ended (h _ rfl) hc hs (by simpa [endsLine] using he)

theorem stands_left (h : Stands r k .prompting s) :
    (s.take .left).tty.cell r k = s.tty.cell r k ∧ Stands r k (.printing false) (s.take .left) := by
  have hr : r < s.tty.row := Nat.lt_of_le_of_lt (Nat.le_add_right ..) h
  rw [take_setting s rfl]
  refine ⟨rfl, ?_, fun _ => ?_⟩
  · rw [take_setting s rfl]
    unfold Tty.place Tty.Before
    cases s.tty.full <;> simp <;> omega
  · rw [take_setting s rfl]
    exact hr

theorem stands_finished (h : Stands r k .prompting s) (f : Frame) :
    (s.take (.finished f)).tty.cell r k = s.tty.cell r k ∧
      Stands r k .prompting (s.take (.finished f)) := by
  obtain ⟨hcell, hrow⟩ := Tty.draw_keeps (k := k) s.display f s.tty h
  rw [take_finished, Tty.drawAll_newlines]
  refine ⟨hcell, ?_⟩
  change r + 0 < _
  dsimp only
  omega

theorem stands_interleaved (h : Stands r k .prompting s) (chunk : Chunk) (f : Frame) :
    (s.take (.interleaved chunk f)).tty.cell r k = s.tty.cell r k ∧
      Stands r k .prompting (s.take (.interleaved chunk f)) := by
  have hs : r + s.display.cursorRow < s.tty.row := h
  obtain ⟨hup, hkeep⟩ := Tty.restart_keeps s.display s.tty
  obtain ⟨hrow, htyped⟩ :=
    Tty.typeAll_down {} (rawText chunk.text.toList) (s.tty.drawAll s.display.restart)
  have hd := Tty.draw_keeps (k := k) { s.display with cursorRow := 0 } f
    ((s.tty.drawAll s.display.restart).typeAll {} (rawText chunk.text.toList)) (r := r)
    (by dsimp only; omega)
  rw [take_interleaved]
  refine ⟨?_, hd.2⟩
  dsimp only
  rw [hd.1, htyped r k (by omega), hkeep r k (by omega)]

theorem stands_take (h : Returns p s) (hp : p.next? a = some p') (hf : a.goesForward = true)
    (hs : Stands r k p s) :
    (s.take a).tty.cell r k = s.tty.cell r k ∧ Stands r k p' (s.take a) := by
  have hsame (hsend : (s.display.send a).1 = []) : (s.take a).tty.cell r k = s.tty.cell r k := by
    rw [take_setting s hsend]
  cases p with
  | printing midLine =>
    cases a with
    | wrote chunk =>
      cases hp
      exact stands_wrote h (by simpa [Act.goesForward] using hf) hs.1 fun _ => hs.2
    | entered =>
      cases midLine with
      | true => cases hp
      | false =>
        cases hp
        refine ⟨hsame rfl, ?_⟩
        change r + 0 < _
        rw [take_setting s rfl]
        exact hs.2 rfl
    | _ => cases hp
  | prompting =>
    cases a with
    | left => cases hp; exact stands_left hs
    | rendered f => cases hp; rw [take_rendered]; exact Tty.draw_keeps s.display f s.tty hs
    | finished f => cases hp; exact stands_finished hs f
    | interleaved chunk f => cases hp; exact stands_interleaved hs chunk f
    | asked waiting => cases hp; exact ⟨hsame rfl, hs⟩
    | checked => cases hp; exact ⟨hsame rfl, hs⟩
    | keyed key => cases hp; exact ⟨hsame rfl, hs⟩
    | _ => cases hp

theorem stands_takeAll {acts : List Act} (h : Returns p s) (hp : p.after? acts = some p')
    (hf : ∀ a ∈ acts, a.goesForward = true) (hs : Stands r k p s) :
    (s.takeAll acts).tty.cell r k = s.tty.cell r k := by
  induction acts generalizing p s with
  | nil => rfl
  | cons a acts ih =>
    obtain ⟨q, hq, hrest⟩ := Option.bind_eq_some_iff.mp hp
    have ht := stands_take h hq (hf a List.mem_cons_self) hs
    have hi := ih (returns_take h hq) hrest (fun b hb => hf b (List.mem_cons_of_mem a hb)) ht.2
    exact hi.trans ht.1

theorem returns_takeAll {acts : List Act} (h : Returns p s) (hp : p.after? acts = some p') :
    Returns p' (s.takeAll acts) := by
  induction acts generalizing p s with
  | nil => cases hp; exact h
  | cons a acts ih =>
    obtain ⟨q, hq, hrest⟩ := Option.bind_eq_some_iff.mp hp
    exact ih (returns_take h hq) hrest

theorem stands_typed (h : Returns (.printing midLine) s) {chunk : Chunk} {pre post : List Char}
    {c : Char} (hr : '\r' ∉ chunk.text.toList) (ht : chunk.text.toList = pre ++ c :: post)
    (hc : c ≠ '\n') :
    (s.take (.wrote chunk)).tty.cell (s.tty.typeAll {} pre).place.1 (s.tty.typeAll {} pre).place.2 =
        some (c, {}) ∧
      Stands (s.tty.typeAll {} pre).place.1 (s.tty.typeAll {} pre).place.2
        (.printing (chunk.leaves midLine)) (s.take (.wrote chunk)) := by
  have hw : s.take (.wrote chunk) =
      ⟨s.display, ((s.tty.typeAll {} pre).type {} c).typeAll {} post⟩ := by
    rw [take_wrote, ht, Tty.typeAll_append]
    rfl
  have hraw : (s.tty.typeAll {} pre).raw = false := (Tty.typeAll_setup {} pre s.tty).2.trans (h _ rfl)
  generalize s.tty.typeAll {} pre = t at hw hraw ⊢
  have hne : chunk.text.toList ≠ [] := by rw [ht]; simp
  rw [ht] at hr
  have hcr : c ≠ '\r' := fun he => hr (he ▸ by simp)
  have hpost : '\r' ∉ post := fun he => hr (List.mem_append_right pre (List.mem_cons_of_mem c he))
  obtain ⟨hput, hbefore, -⟩ := Tty.type_char {} t ⟨hcr, hc⟩
  have hraw' : (t.type {} c).raw = false := (Tty.type_setup {} t c).2.trans hraw
  obtain ⟨hcell, hplace⟩ := Tty.typeAll_forward {} hraw' hpost hbefore
  rw [hw]
  refine ⟨hcell.trans hput, hplace, fun hm => ?_⟩
  have he : endsLine chunk.text = true := by simpa [Chunk.leaves, hne] using hm
  have hlast : (pre ++ c :: post).getLast? = some '\n' := by
    rw [← ht]
    simpa [endsLine] using he
  have hlast' : post.getLast? = some '\n' := by
    cases post with
    | nil => rw [List.getLast?_concat] at hlast; exact absurd (Option.some.inj hlast) hc
    | cons c' post => simpa [List.getLast?_append] using hlast
  exact Tty.typeAll_ended hraw' hpost hbefore hlast'

theorem written_stays {chunk : Chunk} {acts : List Act} {pre post : List Char} {c : Char}
    (h : Returns p s) (hp : p.after? (.wrote chunk :: acts) = some p')
    (hf : ∀ a ∈ Act.wrote chunk :: acts, a.goesForward = true)
    (ht : chunk.text.toList = pre ++ c :: post) (hc : c ≠ '\n') :
    (s.takeAll (.wrote chunk :: acts)).tty.cell (s.tty.typeAll {} pre).place.1
      (s.tty.typeAll {} pre).place.2 = some (c, {}) := by
  obtain ⟨q, hq, hrest⟩ := Option.bind_eq_some_iff.mp hp
  have hr : '\r' ∉ chunk.text.toList := by
    simpa [Act.goesForward] using hf _ List.mem_cons_self
  cases p with
  | prompting => cases hq
  | printing midLine =>
    cases hq
    obtain ⟨hcell, hstands⟩ := stands_typed h hr ht hc
    have hall := stands_takeAll (returns_take h rfl) hrest
      (fun a ha => hf a (List.mem_cons_of_mem _ ha)) hstands
    exact hall.trans hcell

/-- Each character that `acts` write is in its place after each of the acts that follow. -/
def KeepsOutput (s : Screen) (acts : List Act) : Prop :=
  ∀ before chunk middle later, acts = before ++ .wrote chunk :: middle ++ later →
    ∀ pre c post, chunk.text.toList = pre ++ c :: post → c ≠ '\n' →
      (s.takeAll (before ++ .wrote chunk :: middle)).tty.cell
        ((s.takeAll before).tty.typeAll {} pre).place.1
        ((s.takeAll before).tty.typeAll {} pre).place.2 = some (c, {})

theorem keepsOutput_of_after {acts : List Act} (h : Returns p s) (hp : p.after? acts = some p')
    (hf : ∀ a ∈ acts, a.goesForward = true) : s.KeepsOutput acts := by
  intro before chunk middle later hacts pre c post ht hc
  rw [hacts, List.append_assoc, Phase.after_append] at hp
  obtain ⟨q, hq, hp⟩ := Option.bind_eq_some_iff.mp hp
  rw [Phase.after_append] at hp
  obtain ⟨q', hq', -⟩ := Option.bind_eq_some_iff.mp hp
  have htake : s.takeAll (before ++ .wrote chunk :: middle) =
      (s.takeAll before).takeAll (.wrote chunk :: middle) := List.foldl_append
  rw [htake]
  refine written_stays (returns_takeAll h hq) hq' (fun a ha => hf a ?_) ht hc
  rw [hacts]
  simp only [List.mem_append]
  exact .inl (.inr ha)

end Screen

end RConsole
