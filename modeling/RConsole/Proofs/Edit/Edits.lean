import RConsole.Edit.Buffer

namespace RConsole

inductive Edit where
  | insert (c : Char)
  | insertText (text : String)
  | setText (text : String)
  | backspace
  | delete
  | left
  | right
  | lineStart
  | lineEnd
  | killToLineEnd
  | killToLineStart
  | killWordBack
  | up
  | down
  deriving DecidableEq, Repr

def Edit.isMove : Edit → Bool
  | .left | .right | .lineStart | .lineEnd | .up | .down => true
  | _ => false

inductive Edit.Answer where
  | nothing
  | found (yes : Bool)
  | cut (text : String)
  deriving DecidableEq, Repr

namespace Buffer

def perform (b : Buffer) : Edit → Edit.Answer × Buffer
  | .insert c => (.nothing, b.insert c)
  | .insertText text => (.nothing, b.insertText text)
  | .setText text => (.nothing, .ofText text)
  | .backspace => b.backspace.map .found id
  | .delete => b.delete.map .found id
  | .left => (.nothing, b.left)
  | .right => (.nothing, b.right)
  | .lineStart => (.nothing, b.lineStart)
  | .lineEnd => (.nothing, b.lineEnd)
  | .killToLineEnd => b.killToLineEnd.map .cut id
  | .killToLineStart => b.killToLineStart.map .cut id
  | .killWordBack => b.killWordBack.map .cut id
  | .up => b.up.map .found id
  | .down => b.down.map .found id

def run (b : Buffer) : List Edit → List Edit.Answer × Buffer
  | [] => ([], b)
  | edit :: edits => ((b.perform edit).2.run edits).map ((b.perform edit).1 :: ·) id

/-- What edits can make of an empty buffer, or of one that a text was put into. -/
inductive Reachable : Buffer → Prop where
  | empty : Reachable {}
  | ofText (text : String) : Reachable (.ofText text)
  | perform {b : Buffer} (h : Reachable b) (edit : Edit) : Reachable (b.perform edit).2

variable {b : Buffer}

theorem before_split (u v : List Char) : before ⟨u ++ v, u.length⟩ = u := List.take_left

theorem after_split (u v : List Char) : after ⟨u ++ v, u.length⟩ = v := List.drop_left

theorem lineStartOf_le (b : Buffer) (i : Nat) : b.lineStartOf i ≤ i := Nat.sub_le ..

theorem le_lineEndOf (b : Buffer) (i : Nat) : i ≤ b.lineEndOf i := Nat.le_add_right ..

theorem lineEndOf_le {i : Nat} (h : i ≤ b.chars.length) : b.lineEndOf i ≤ b.chars.length := by
  have hw := (List.takeWhile_sublist (l := b.chars.drop i) (· != '\n')).length_le
  rw [List.length_drop] at hw
  unfold lineEndOf
  omega

theorem length_before (h : b.cursor ≤ b.chars.length) : b.before.length = b.cursor := by
  rw [before, List.length_take, Nat.min_eq_left h]

theorem length_after (b : Buffer) : b.after.length = b.chars.length - b.cursor := List.length_drop

theorem insert_split (h : b.cursor ≤ b.chars.length) (c : Char) :
    b.insert c = ⟨(b.before ++ [c]) ++ b.after, (b.before ++ [c]).length⟩ := by
  rw [insert, List.length_append, length_before h, List.append_assoc]
  rfl

theorem cursor_cutBack_le (h : b.cursor ≤ b.chars.length) {start : Nat} (hs : start ≤ b.cursor) :
    (b.cutBack start).2.cursor ≤ (b.cutBack start).2.chars.length := by
  simp only [cutBack, List.length_append, List.length_take]
  omega

theorem wordStart_le (h : b.cursor ≤ b.chars.length) :
    ((b.before.reverse.dropWhile isBlank).dropWhile fun c => !isBlank c).length ≤ b.cursor := by
  have hw := ((List.dropWhile_sublist (fun c => !isBlank c)).trans
    (List.dropWhile_sublist (l := b.before.reverse) isBlank)).length_le
  rwa [List.length_reverse, length_before h] at hw

theorem cursor_up_le (h : b.cursor ≤ b.chars.length) : b.up.2.cursor ≤ b.up.2.chars.length := by
  have hstart := b.lineStartOf_le b.cursor
  unfold up
  dsimp only
  split
  · exact h
  · dsimp only
    omega

theorem cursor_down_le (h : b.cursor ≤ b.chars.length) :
    b.down.2.cursor ≤ b.down.2.chars.length := by
  have hstop := lineEndOf_le h
  unfold down
  dsimp only
  split
  · exact h
  · have hnext : b.lineEndOf (b.lineEndOf b.cursor + 1) ≤ b.chars.length := lineEndOf_le (by omega)
    dsimp only
    omega

theorem cursor_perform_le (h : b.cursor ≤ b.chars.length) (edit : Edit) :
    (b.perform edit).2.cursor ≤ (b.perform edit).2.chars.length := by
  have hbefore := length_before h
  have hafter := b.length_after
  cases edit with
  | insert c =>
    simp only [perform, insert, List.length_append, List.length_cons]
    omega
  | insertText text =>
    simp only [perform, insertText, List.length_append]
    omega
  | setText text => exact Nat.le_refl _
  | backspace =>
    simp only [perform, backspace, Prod.map_snd, id]
    split
    · exact h
    · rw [List.length_eraseIdx_of_lt (by omega)]
      dsimp only
      omega
  | delete =>
    simp only [perform, delete, Prod.map_snd, id]
    split
    · exact h
    · rw [List.length_eraseIdx_of_lt (by omega)]
      dsimp only
      omega
  | left => exact Nat.le_trans (Nat.sub_le ..) h
  | right => exact Nat.min_le_right ..
  | lineStart => exact Nat.le_trans (b.lineStartOf_le _) h
  | lineEnd => exact lineEndOf_le h
  | killToLineEnd =>
    simp only [perform, killToLineEnd, Prod.map_snd, id, List.length_append]
    omega
  | killToLineStart => exact cursor_cutBack_le h (b.lineStartOf_le _)
  | killWordBack => exact cursor_cutBack_le h (wordStart_le h)
  | up => exact cursor_up_le h
  | down => exact cursor_down_le h

@[simp]
theorem text_ofText (text : String) : (ofText text).text = text := String.ofList_toList

theorem text_up (b : Buffer) : b.up.2.text = b.text := by
  unfold up
  dsimp only
  split <;> rfl

theorem text_down (b : Buffer) : b.down.2.text = b.text := by
  unfold down
  dsimp only
  split <;> rfl

theorem text_move (b : Buffer) {edit : Edit} (h : edit.isMove = true) :
    (b.perform edit).2.text = b.text := by
  cases edit with
  | left => rfl
  | right => rfl
  | lineStart => rfl
  | lineEnd => rfl
  | up => exact b.text_up
  | down => exact b.text_down
  | _ => cases h

theorem Reachable.cursor_le (h : b.Reachable) : b.cursor ≤ b.chars.length := by
  induction h with
  | empty => exact Nat.le_refl _
  | ofText text => exact Nat.le_refl _
  | perform h edit ih => exact cursor_perform_le ih edit

end Buffer

end RConsole
