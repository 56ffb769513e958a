import Mathlib.Algebra.GroupWithZero.Nat
import RConsole.Proofs.Edit.Lines

namespace RConsole

structure Sheet where
  above : List (List Char)
  left : List Char
  right : List Char
  below : List (List Char)
  unbroken : ∀ line ∈ above ++ (left ++ right) :: below, '\n' ∉ line

namespace Sheet

variable {p q : Sheet} {above below : List (List Char)} {line : List Char}

def lines (p : Sheet) : List (List Char) := p.above ++ (p.left ++ p.right) :: p.below

def head (p : Sheet) : List Char := p.above.flatMap (· ++ ['\n'])

def tail (p : Sheet) : List Char := p.below.flatMap ('\n' :: ·)

def buffer (p : Sheet) : Buffer :=
  ⟨p.head ++ p.left ++ (p.right ++ p.tail), (p.head ++ p.left).length⟩

theorem not_mem_left (p : Sheet) : '\n' ∉ p.left := fun h =>
  p.unbroken (p.left ++ p.right) (by simp) (List.mem_append_left _ h)

theorem not_mem_right (p : Sheet) : '\n' ∉ p.right := fun h =>
  p.unbroken (p.left ++ p.right) (by simp) (List.mem_append_right _ h)

theorem buffer_chars (p : Sheet) : p.buffer.chars = joinLines p.lines := by
  rw [lines, joinLines_around]
  simp [buffer, head, tail]

theorem splitLines_buffer (p : Sheet) : splitLines p.buffer.chars = p.lines := by
  rw [buffer_chars]
  exact splitLines_joinLines (by simp [lines]) p.unbroken

theorem exists_buffer {b : Buffer} (h : b.cursor ≤ b.chars.length) : ∃ p : Sheet, p.buffer = b := by
  obtain ⟨above, left, hu⟩ : ∃ above left, splitLines b.before = above ++ [left] :=
    ⟨_, _, (List.dropLast_concat_getLast (splitLines_ne_nil _)).symm⟩
  obtain ⟨right, below, hv⟩ := List.exists_cons_of_ne_nil (splitLines_ne_nil b.after)
  have hbefore : above.flatMap (· ++ ['\n']) ++ left = b.before := by
    rw [← joinLines_splitLines b.before, hu, joinLines_around]
    simp
  have hafter : right ++ below.flatMap ('\n' :: ·) = b.after := by
    rw [← joinLines_splitLines b.after, hv]
    exact (joinLines_around [] below right).symm
  have hunbroken : ∀ line ∈ above ++ (left ++ right) :: below, '\n' ∉ line := by
    have hl : ∀ line ∈ above ++ [left], '\n' ∉ line := fun line hm hc =>
      (mem_of_mem_splitLines (hu ▸ hm) hc).2 rfl
    have hr : ∀ line ∈ right :: below, '\n' ∉ line := fun line hm hc =>
      (mem_of_mem_splitLines (hv ▸ hm) hc).2 rfl
    intro line hm
    rcases List.mem_append.mp hm with hm | hm
    · exact hl line (List.mem_append_left _ hm)
    · rcases List.mem_cons.mp hm with rfl | hm
      · intro hc
        rcases List.mem_append.mp hc with hc | hc
        · exact hl left (by simp) hc
        · exact hr right (by simp) hc
      · exact hr line (List.mem_cons_of_mem _ hm)
  refine ⟨⟨above, left, right, below, hunbroken⟩, ?_⟩
  rw [buffer, head, tail]
  dsimp only
  rw [hbefore, hafter, Buffer.length_before h, Buffer.before, Buffer.after, List.take_append_drop]

theorem lines_buffer (p : Sheet) : p.buffer.lines = p.lines.map String.ofList := by
  rw [Buffer.lines, splitLines_buffer]

theorem position_buffer (p : Sheet) : p.buffer.position = (p.above.length, p.left.length) := by
  have ha : ∀ line ∈ p.above, '\n' ∉ line := fun line hl => p.unbroken line (List.mem_append_left _ hl)
  have hcursor : p.buffer.cursor = p.head.length + p.left.length := List.length_append
  have hstart : p.buffer.lineStartOf p.buffer.cursor = p.head.length := by
    rw [hcursor]
    exact Buffer.lineStartOf_eq rfl (trails_lines p.above p.not_mem_left)
  rw [Buffer.position, hstart, hcursor, Nat.add_sub_cancel_left, buffer, Buffer.before_split,
    List.count_append, head, count_lines ha, List.count_eq_zero.mpr p.not_mem_left, Nat.add_zero]

theorem cursor_buffer (p : Sheet) : p.buffer.cursor =
    ((p.lines.take p.above.length).map fun line => line.length + 1).sum + p.left.length := by
  rw [lines, List.take_left]
  simp [buffer, head, List.length_flatMap]

theorem buffer_inj (hl : p.lines = q.lines) (ha : p.above.length = q.above.length)
    (hc : p.left.length = q.left.length) : p.buffer = q.buffer := by
  have hchars : p.buffer.chars = q.buffer.chars := by rw [buffer_chars, buffer_chars, hl]
  have hcursor : p.buffer.cursor = q.buffer.cursor := by
    rw [cursor_buffer, cursor_buffer, hl, ha, hc]
  calc p.buffer = ⟨p.buffer.chars, p.buffer.cursor⟩ := rfl
    _ = ⟨q.buffer.chars, q.buffer.cursor⟩ := by rw [hchars, hcursor]

def goTo (p : Sheet) (h : p.lines = above ++ line :: below) (column : Nat) : Sheet where
  above := above
  left := line.take column
  right := line.drop column
  below := below
  unbroken := by
    rw [List.take_append_drop, ← h]
    exact p.unbroken

theorem goTo_lines (h : p.lines = above ++ line :: below) (column : Nat) :
    (p.goTo h column).lines = p.lines := by
  rw [lines, goTo, List.take_append_drop, ← h]

theorem goTo_buffer (h : p.lines = above ++ line :: below) (column : Nat) :
    (p.goTo h column).buffer =
      ⟨p.buffer.chars, (above.flatMap (· ++ ['\n'])).length + min column line.length⟩ := by
  have hchars : (p.goTo h column).buffer.chars = p.buffer.chars := by
    rw [buffer_chars, buffer_chars, goTo_lines]
  rw [← hchars, ← List.length_take, ← List.length_append]
  rfl

theorem up_above (h : p.above = []) : p.buffer.up = (false, p.buffer) := by
  have hhead : p.head = [] := by rw [head, h]; rfl
  have hchars : p.buffer.chars = p.left ++ (p.right ++ p.tail) := by
    rw [buffer, hhead]
    rfl
  have hcursor : p.buffer.cursor = p.left.length := by
    rw [buffer, hhead]
    rfl
  exact Buffer.up_first hchars hcursor p.not_mem_left

theorem lines_up (h : p.above = above ++ [line]) :
    p.lines = above ++ line :: (p.left ++ p.right) :: p.below := by
  rw [lines, h]
  simp

theorem up_next (h : p.above = above ++ [line]) :
    p.buffer.up = (true, (p.goTo (lines_up h) p.left.length).buffer) := by
  have hhead : p.head = above.flatMap (· ++ ['\n']) ++ line ++ ['\n'] := by simp [head, h]
  have hchars : p.buffer.chars =
      above.flatMap (· ++ ['\n']) ++ line ++ '\n' :: p.left ++ (p.right ++ p.tail) := by
    rw [buffer, hhead]
    simp
  have hcursor : p.buffer.cursor =
      (above.flatMap (· ++ ['\n']) ++ line).length + 1 + p.left.length := by
    rw [buffer, hhead]
    simp [Nat.add_assoc, Nat.add_comm 1]
  rw [goTo_buffer]
  exact Buffer.up_eq hchars hcursor (trails_lines above (p.unbroken line (by simp [h])))
    p.not_mem_left

theorem down_below (h : p.below = []) : p.buffer.down = (false, p.buffer) := by
  have htail : p.tail = [] := by rw [tail, h]; rfl
  have hchars : p.buffer.chars = p.head ++ p.left ++ p.right := by
    rw [buffer, htail, List.append_nil]
  exact Buffer.down_last hchars rfl p.not_mem_right

theorem lines_down (h : p.below = line :: below) :
    p.lines = (p.above ++ [p.left ++ p.right]) ++ line :: below := by
  rw [lines, h]
  simp

theorem down_next (h : p.below = line :: below) :
    p.buffer.down = (true, (p.goTo (lines_down h) p.left.length).buffer) := by
  have hfront : ((p.above ++ [p.left ++ p.right]).flatMap (· ++ ['\n'])).length =
      (p.head ++ p.left ++ p.right).length + 1 := by
    simp [head, Nat.add_assoc]
  have htail : p.tail = '\n' :: (line ++ below.flatMap ('\n' :: ·)) := by simp [tail, h]
  rw [goTo_buffer, hfront]
  refine Buffer.down_eq ?_ List.length_append (trails_lines p.above p.not_mem_left) p.not_mem_right
    (leads_lines below (p.unbroken line (by simp [h])))
  rw [buffer, htail]
  simp

theorem up_down (h : p.above = above ++ [line]) (hc : p.left.length ≤ line.length) :
    p.buffer.up.2.down = (true, p.buffer) := by
  have hb : (p.goTo (lines_up h) p.left.length).below = (p.left ++ p.right) :: p.below := rfl
  rw [up_next h, down_next hb]
  congr 1
  apply buffer_inj
  · rw [goTo_lines, goTo_lines]
  · simp [goTo, h]
  · simp [goTo, Nat.min_eq_left hc]

theorem down_up (h : p.below = line :: below) (hc : p.left.length ≤ line.length) :
    p.buffer.down.2.up = (true, p.buffer) := by
  have ha : (p.goTo (lines_down h) p.left.length).above = p.above ++ [p.left ++ p.right] := rfl
  rw [down_next h, up_next ha]
  congr 1
  apply buffer_inj
  · rw [goTo_lines, goTo_lines]
  · rfl
  · simp [goTo, Nat.min_eq_left hc]

end Sheet

namespace Buffer

def lineAbove? (b : Buffer) : Option Nat :=
  if b.position.1 = 0 then none else some (b.position.1 - 1)

def lineBelow? (b : Buffer) : Option Nat :=
  if b.position.1 + 1 = b.lines.length then none else some (b.position.1 + 1)

/-- Where a move to another line ends: in the same column or at the end of that line, if there is one. -/
structure Enters (b : Buffer) (target : Option Nat) (moved : Bool × Buffer) : Prop where
  answer : moved.1 = target.isSome
  stays : target = none → moved.2 = b
  text : moved.2.text = b.text
  place : ∀ l, target = some l →
    ∃ line, b.lines[l]? = some line ∧ moved.2.position = (l, min b.position.2 line.length)

theorem Enters.stay {b : Buffer} : b.Enters none (false, b) :=
  ⟨rfl, fun _ => rfl, rfl, nofun⟩

end Buffer

namespace Sheet

variable {p : Sheet} {above below : List (List Char)} {line : List Char}

theorem enters (h : p.lines = above ++ line :: below) :
    p.buffer.Enters (some above.length) (true, (p.goTo h p.left.length).buffer) where
  answer := rfl
  stays := nofun
  text := by rw [Buffer.text, Buffer.text, goTo_buffer]
  place l hl := by
    cases hl
    refine ⟨String.ofList line, ?_, ?_⟩
    · rw [lines_buffer, h]
      simp
    · rw [position_buffer, position_buffer]
      simp [goTo]

theorem lineAbove_first (h : p.above = []) : p.buffer.lineAbove? = none := by
  rw [Buffer.lineAbove?, position_buffer, h]
  rfl

theorem lineAbove_next (h : p.above = above ++ [line]) :
    p.buffer.lineAbove? = some above.length ∧ p.buffer.lines[above.length]? = some (String.ofList line) := by
  constructor
  · rw [Buffer.lineAbove?, position_buffer, h, List.length_append, List.length_singleton]
    rfl
  · rw [lines_buffer, lines_up h]
    simp

theorem length_lines (p : Sheet) : p.buffer.lines.length = p.above.length + 1 + p.below.length := by
  rw [lines_buffer, List.length_map, lines, List.length_append, List.length_cons]
  omega

theorem lineBelow_last (h : p.below = []) : p.buffer.lineBelow? = none := by
  rw [Buffer.lineBelow?, position_buffer, length_lines, h]
  exact if_pos rfl

theorem lineBelow_next (h : p.below = line :: below) :
    p.buffer.lineBelow? = some (p.above.length + 1) ∧
      p.buffer.lines[p.above.length + 1]? = some (String.ofList line) := by
  constructor
  · rw [Buffer.lineBelow?, position_buffer, length_lines, h]
    exact if_neg (by simp)
  · rw [lines_buffer, lines_down h]
    simp

theorem enters_up (p : Sheet) : p.buffer.Enters p.buffer.lineAbove? p.buffer.up := by
  rcases List.eq_nil_or_concat p.above with ha | ⟨above, line, ha⟩
  · rw [up_above ha, lineAbove_first ha]
    exact .stay
  · rw [List.concat_eq_append] at ha
    rw [up_next ha, (lineAbove_next ha).1]
    exact enters (lines_up ha)

theorem enters_down (p : Sheet) : p.buffer.Enters p.buffer.lineBelow? p.buffer.down := by
  cases hb : p.below with
  | nil =>
    rw [down_below hb, lineBelow_last hb]
    exact .stay
  | cons line below =>
    have he := enters (lines_down hb)
    rw [List.length_append, List.length_singleton] at he
    rw [down_next hb, (lineBelow_next hb).1]
    exact he

theorem up_back (p : Sheet) {l : Nat} {text : String} (hl : p.buffer.lineAbove? = some l)
    (ht : p.buffer.lines[l]? = some text) (hc : p.left.length ≤ text.length) :
    p.buffer.up.2.down = (true, p.buffer) := by
  rcases List.eq_nil_or_concat p.above with ha | ⟨above, line, ha⟩
  · rw [lineAbove_first ha] at hl
    cases hl
  · rw [List.concat_eq_append] at ha
    obtain ⟨hl', ht'⟩ := lineAbove_next ha
    rw [hl'] at hl
    cases hl
    rw [ht'] at ht
    cases ht
    exact up_down ha (by simpa using hc)

theorem down_back (p : Sheet) {l : Nat} {text : String} (hl : p.buffer.lineBelow? = some l)
    (ht : p.buffer.lines[l]? = some text) (hc : p.left.length ≤ text.length) :
    p.buffer.down.2.up = (true, p.buffer) := by
  cases hb : p.below with
  | nil =>
    rw [lineBelow_last hb] at hl
    cases hl
  | cons line below =>
    obtain ⟨hl', ht'⟩ := lineBelow_next hb
    rw [hl'] at hl
    cases hl
    rw [ht'] at ht
    cases ht
    exact down_up hb (by simpa using hc)

end Sheet

namespace Buffer

variable {b : Buffer}

theorem intercalate_lines (b : Buffer) : "\n".intercalate b.lines = b.text := by
  have hs : String.toList ∘ String.ofList = id := funext fun _ => String.toList_ofList
  rw [← String.toList_inj, String.toList_intercalate, lines, List.map_map, hs, List.map_id]
  exact (joinLines_splitLines b.chars).trans String.toList_ofList.symm

theorem position_mem (h : b.cursor ≤ b.chars.length) :
    ∃ line, b.lines[b.position.1]? = some line ∧ b.position.2 ≤ line.length := by
  obtain ⟨p, rfl⟩ := Sheet.exists_buffer h
  refine ⟨String.ofList (p.left ++ p.right), ?_, ?_⟩
  · rw [Sheet.lines_buffer, Sheet.position_buffer, Sheet.lines]
    simp
  · rw [Sheet.position_buffer]
    simp

theorem cursor_eq (h : b.cursor ≤ b.chars.length) :
    b.cursor = ((b.lines.take b.position.1).map fun line => line.length + 1).sum + b.position.2 := by
  obtain ⟨p, rfl⟩ := Sheet.exists_buffer h
  rw [Sheet.cursor_buffer, Sheet.lines_buffer, Sheet.position_buffer, ← List.map_take, List.map_map]
  simp [Function.comp_def]

theorem eq_of_position {b' : Buffer} (h : b.cursor ≤ b.chars.length) (h' : b'.cursor ≤ b'.chars.length)
    (ht : b'.text = b.text) (hp : b'.position = b.position) : b' = b := by
  have hchars : b'.chars = b.chars := String.ofList_injective ht
  have hcursor : b'.cursor = b.cursor := by
    rw [cursor_eq h, cursor_eq h', hp, lines, lines, hchars]
  obtain ⟨chars, cursor⟩ := b
  obtain ⟨chars', cursor'⟩ := b'
  cases hchars
  cases hcursor
  rfl

theorem enters_up (h : b.cursor ≤ b.chars.length) : b.Enters b.lineAbove? b.up := by
  obtain ⟨p, rfl⟩ := Sheet.exists_buffer h
  exact p.enters_up

theorem enters_down (h : b.cursor ≤ b.chars.length) : b.Enters b.lineBelow? b.down := by
  obtain ⟨p, rfl⟩ := Sheet.exists_buffer h
  exact p.enters_down

/-- The cursor of a text is at one line and column, and no other place in the text is there. It goes
up and down from line to line, in the same column or at the end of a shorter line. -/
theorem coordinates_of_cursor (h : b.Reachable) :
    "\n".intercalate b.lines = b.text ∧
    (∃ line, b.lines[b.position.1]? = some line ∧ b.position.2 ≤ line.length) ∧
    b.cursor = ((b.lines.take b.position.1).map fun line => line.length + 1).sum + b.position.2 ∧
    (∀ b' : Buffer, b'.Reachable → b'.text = b.text → b'.position = b.position → b' = b) ∧
    b.Enters b.lineAbove? b.up ∧ b.Enters b.lineBelow? b.down ∧
    (∀ l line, b.lineAbove? = some l → b.lines[l]? = some line → b.position.2 ≤ line.length →
      b.up.2.down = (true, b)) ∧
    ∀ l line, b.lineBelow? = some l → b.lines[l]? = some line → b.position.2 ≤ line.length →
      b.down.2.up = (true, b) := by
  have hle := h.cursor_le
  refine ⟨b.intercalate_lines, position_mem hle, cursor_eq hle,
    fun b' h' => eq_of_position hle h'.cursor_le, enters_up hle, enters_down hle, ?_⟩
  obtain ⟨p, rfl⟩ := Sheet.exists_buffer hle
  have hc : p.buffer.position.2 = p.left.length := congrArg Prod.snd p.position_buffer
  rw [hc]
  exact ⟨fun l line => p.up_back, fun l line => p.down_back⟩

theorem coordinates_of_cursor_lines :
    let b : Buffer := ((Buffer.ofText "ab\ncde").perform .left).2
    b.Reachable ∧ b.position = (1, 2) ∧ b.lineAbove? = some 0 ∧ b.lines[0]? = some "ab" ∧
      b.up.2.position = (0, 2) ∧ b.up.2.down = (true, b) := by
  intro b
  have hr : b.Reachable := .perform (.ofText _) .left
  have hl : b.lineAbove? = some 0 := by decide +kernel
  have ht : b.lines[0]? = some "ab" := by decide +kernel
  obtain ⟨-, -, -, -, hup, -, hback, -⟩ := coordinates_of_cursor hr
  obtain ⟨line, hline, hp⟩ := hup.place 0 hl
  rw [ht] at hline
  cases hline
  exact ⟨hr, by decide +kernel, hl, ht, hp.trans (by decide +kernel), hback 0 "ab" hl ht (by decide +kernel)⟩

end Buffer

end RConsole
