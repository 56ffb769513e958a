import RConsole.Proofs.Edit.Edits

/-!
The edits by index. Each character, range and difference that they take may be missing, and then the
edit fails; while the cursor is within the text, none is missing.
-/
namespace RConsole

section

variable {p : Char → Bool} {cs : List Char}

def slice? (cs : List Char) (start stop : Nat) : Option (List Char) :=
  if start ≤ stop ∧ stop ≤ cs.length then some ((cs.take stop).drop start) else none

def drain? (cs : List Char) (start stop : Nat) : Option (List Char × List Char) :=
  (slice? cs start stop).map fun cut => (cut, cs.take start ++ cs.drop stop)

def insertAt? (cs : List Char) (i : Nat) (c : Char) : Option (List Char) :=
  if i ≤ cs.length then some (cs.take i ++ c :: cs.drop i) else none

def removeAt? (cs : List Char) (i : Nat) : Option (List Char) :=
  if i < cs.length then some (cs.eraseIdx i) else none

def difference? (m n : Nat) : Option Nat := if n ≤ m then some (m - n) else none

def behindLast (p : Char → Bool) : List Char → Nat
  | [] => 0
  | c :: cs =>
    if 0 < behindLast p cs then behindLast p cs + 1
    else if p c then 0 else 1

def skipBack? (p : Char → Bool) (cs : List Char) : Nat → Option Nat
  | 0 => some 0
  | i + 1 => do
    let c ← cs[i]?
    if p c then skipBack? p cs i else some (i + 1)

theorem slice?_of_le {start stop : Nat} (h : start ≤ stop) (hs : stop ≤ cs.length) :
    slice? cs start stop = some ((cs.take stop).drop start) := if_pos ⟨h, hs⟩

theorem difference?_of_le {m n : Nat} (h : n ≤ m) : difference? m n = some (m - n) := if_pos h

theorem behindLast_eq (p : Char → Bool) (cs : List Char) :
    behindLast p cs = cs.length - (cs.reverse.takeWhile p).length := by
  induction cs with
  | nil => rfl
  | cons c cs ih =>
    have hle := (List.takeWhile_sublist (l := cs.reverse) p).length_le
    rw [List.length_reverse] at hle
    rw [behindLast, ih, List.reverse_cons, List.takeWhile_append, List.length_reverse]
    by_cases hall : (cs.reverse.takeWhile p).length = cs.length
    · rw [if_neg (by omega), if_pos hall]
      by_cases hc : p c = true <;> simp [hc]
    · rw [if_pos (by omega), if_neg hall, List.length_cons]
      omega

theorem skipBack?_eq {i : Nat} (h : i ≤ cs.length) :
    skipBack? p cs i = some ((cs.take i).reverse.dropWhile p).length := by
  induction i with
  | zero => rfl
  | succ i ih =>
    have ht : (cs.take (i + 1)).reverse = cs[i] :: (cs.take i).reverse := by
      rw [List.take_add_one, List.getElem?_eq_getElem h]
      simp
    rw [skipBack?, List.getElem?_eq_getElem h, ht, List.dropWhile_cons]
    by_cases hc : p cs[i] = true
    · rw [if_pos hc, ← ih (Nat.le_of_succ_le h)]
      simp [hc]
    · rw [if_neg hc, List.length_cons, List.length_reverse, List.length_take,
        Nat.min_eq_left (Nat.le_of_succ_le h)]
      simp [hc]

theorem take_length_dropWhile {i : Nat} :
    cs.take ((cs.take i).reverse.dropWhile p).length = ((cs.take i).reverse.dropWhile p).reverse := by
  have hs : ((cs.take i).reverse.dropWhile p).reverse <+: cs.take i := by
    rw [← List.reverse_reverse (cs.take i), List.reverse_prefix, List.reverse_reverse]
    exact List.dropWhile_suffix p
  have ht := List.prefix_iff_eq_take.mp (hs.trans (List.take_prefix i cs))
  rw [List.length_reverse] at ht
  exact ht.symm

end

namespace Buffer

def insert? (b : Buffer) (c : Char) : Option Buffer :=
  (insertAt? b.chars b.cursor c).map fun chars => ⟨chars, b.cursor + 1⟩

def insertText? (b : Buffer) (text : String) : Option Buffer := text.toList.foldlM insert? b

def backspace? (b : Buffer) : Option (Bool × Buffer) :=
  if b.cursor = 0 then some (false, b)
  else do
    let i ← difference? b.cursor 1
    let chars ← removeAt? b.chars i
    some (true, ⟨chars, i⟩)

def delete? (b : Buffer) : Option (Bool × Buffer) :=
  if b.chars.length ≤ b.cursor then some (false, b)
  else (removeAt? b.chars b.cursor).map fun chars => (true, { b with chars := chars })

def lineStartOf? (b : Buffer) (i : Nat) : Option Nat :=
  (slice? b.chars 0 i).map (behindLast (· != '\n'))

def lineEndOf? (b : Buffer) (i : Nat) : Option Nat :=
  (slice? b.chars i b.chars.length).map fun rest =>
    match rest.findIdx? (· == '\n') with
    | none => b.chars.length
    | some j => i + j

def cutBack? (b : Buffer) (start : Nat) : Option (String × Buffer) :=
  (drain? b.chars start b.cursor).map fun (cut, rest) => (String.ofList cut, ⟨rest, start⟩)

def killToLineEnd? (b : Buffer) : Option (String × Buffer) := do
  let stop ← b.lineEndOf? b.cursor
  let (cut, rest) ← drain? b.chars b.cursor stop
  some (String.ofList cut, { b with chars := rest })

def killToLineStart? (b : Buffer) : Option (String × Buffer) := do
  let start ← b.lineStartOf? b.cursor
  b.cutBack? start

def killWordBack? (b : Buffer) : Option (String × Buffer) := do
  let wordEnd ← skipBack? isBlank b.chars b.cursor
  let start ← skipBack? (fun c => !isBlank c) b.chars wordEnd
  b.cutBack? start

def up? (b : Buffer) : Option (Bool × Buffer) := do
  let start ← b.lineStartOf? b.cursor
  if start = 0 then some (false, b)
  else
    let column ← difference? b.cursor start
    let newline ← difference? start 1
    let above ← b.lineStartOf? newline
    some (true, { b with cursor := min (above + column) newline })

def down? (b : Buffer) : Option (Bool × Buffer) := do
  let stop ← b.lineEndOf? b.cursor
  if stop = b.chars.length then some (false, b)
  else
    let start ← b.lineStartOf? b.cursor
    let column ← difference? b.cursor start
    let below ← b.lineEndOf? (stop + 1)
    some (true, { b with cursor := min (stop + 1 + column) below })

def perform? (b : Buffer) : Edit → Option (Edit.Answer × Buffer)
  | .insert c => (b.insert? c).map (.nothing, ·)
  | .insertText text => (b.insertText? text).map (.nothing, ·)
  | .setText text => some (.nothing, .ofText text)
  | .backspace => b.backspace?.map (·.map .found id)
  | .delete => b.delete?.map (·.map .found id)
  | .left => some (.nothing, b.left)
  | .right => some (.nothing, b.right)
  | .lineStart => (b.lineStartOf? b.cursor).map fun i => (.nothing, { b with cursor := i })
  | .lineEnd => (b.lineEndOf? b.cursor).map fun i => (.nothing, { b with cursor := i })
  | .killToLineEnd => b.killToLineEnd?.map (·.map .cut id)
  | .killToLineStart => b.killToLineStart?.map (·.map .cut id)
  | .killWordBack => b.killWordBack?.map (·.map .cut id)
  | .up => b.up?.map (·.map .found id)
  | .down => b.down?.map (·.map .found id)

def run? (b : Buffer) : List Edit → Option (List Edit.Answer × Buffer)
  | [] => some ([], b)
  | edit :: edits => do
    let (answer, b') ← b.perform? edit
    let (answers, b'') ← b'.run? edits
    some (answer :: answers, b'')

def position? (b : Buffer) : Option (Nat × Nat) := do
  let front ← slice? b.chars 0 b.cursor
  let start ← b.lineStartOf? b.cursor
  let column ← difference? b.cursor start
  some (front.count '\n', column)

def wordBeforeCursor? (b : Buffer) : Option String := do
  let front ← slice? b.chars 0 b.cursor
  let word ← slice? b.chars (behindLast isWordChar front) b.cursor
  some (String.ofList word)

variable {b : Buffer}

theorem insert?_eq (h : b.cursor ≤ b.chars.length) (c : Char) : b.insert? c = some (b.insert c) := by
  rw [insert?, insertAt?, if_pos h]
  rfl

theorem insertText?_eq (h : b.cursor ≤ b.chars.length) (text : String) :
    b.insertText? text = some (b.insertText text) := by
  unfold insertText? insertText
  generalize text.toList = cs
  induction cs generalizing b with
  | nil => simp [before, after]
  | cons c cs ih =>
    have hi : (b.insert c).cursor ≤ (b.insert c).chars.length := cursor_perform_le h (.insert c)
    rw [List.foldlM_cons, insert?_eq h]
    refine (ih hi).trans ?_
    rw [insert_split h, before_split, after_split]
    simp [length_before h, Nat.add_comm, Nat.add_left_comm]

theorem backspace?_eq (h : b.cursor ≤ b.chars.length) : b.backspace? = some b.backspace := by
  unfold backspace? backspace
  split
  · rfl
  · rw [difference?_of_le (by omega), Option.bind_eq_bind, Option.bind_some, removeAt?, if_pos (by omega)]
    rfl

theorem delete?_eq (b : Buffer) : b.delete? = some b.delete := by
  unfold delete? delete
  split
  · rfl
  · rw [removeAt?, if_pos (by omega)]
    rfl

theorem lineStartOf?_eq {i : Nat} (h : i ≤ b.chars.length) :
    b.lineStartOf? i = some (b.lineStartOf i) := by
  rw [lineStartOf?, slice?_of_le (Nat.zero_le i) h, Option.map_some, List.drop_zero, behindLast_eq,
    List.length_take, Nat.min_eq_left h]
  rfl

theorem lineEndOf?_eq {i : Nat} (h : i ≤ b.chars.length) :
    b.lineEndOf? i = some (b.lineEndOf i) := by
  have hw : ((b.chars.drop i).takeWhile (· != '\n')).length = (b.chars.drop i).findIdx (· == '\n') := by
    have hnot : (fun c : Char => !(c != '\n')) = (· == '\n') := by
      funext c
      exact Bool.not_not _
    rw [List.takeWhile_eq_take_findIdx_not, hnot, List.length_take,
      Nat.min_eq_left List.findIdx_le_length]
  rw [lineEndOf?, slice?_of_le h (Nat.le_refl _), Option.map_some, List.take_length, lineEndOf, hw]
  congr 1
  split
  · rename_i hn
    rw [List.findIdx?_eq_none_iff_findIdx_eq.mp hn, List.length_drop]
    omega
  · rename_i j hj
    rw [(List.findIdx?_eq_some_iff_findIdx_eq.mp hj).2]

theorem cutBack?_eq (h : b.cursor ≤ b.chars.length) {start : Nat} (hs : start ≤ b.cursor) :
    b.cutBack? start = some (b.cutBack start) := by
  rw [cutBack?, drain?, slice?_of_le hs h]
  rfl

theorem killToLineEnd?_eq (h : b.cursor ≤ b.chars.length) : b.killToLineEnd? = some b.killToLineEnd := by
  rw [killToLineEnd?, lineEndOf?_eq h, Option.bind_eq_bind, Option.bind_some, drain?,
    slice?_of_le (b.le_lineEndOf _) (lineEndOf_le h)]
  rfl

theorem killToLineStart?_eq (h : b.cursor ≤ b.chars.length) :
    b.killToLineStart? = some b.killToLineStart := by
  rw [killToLineStart?, lineStartOf?_eq h]
  exact cutBack?_eq h (b.lineStartOf_le _)

theorem killWordBack?_eq (h : b.cursor ≤ b.chars.length) : b.killWordBack? = some b.killWordBack := by
  have hw : (b.before.reverse.dropWhile isBlank).length ≤ b.chars.length := by
    have := (List.dropWhile_sublist (l := b.before.reverse) isBlank).length_le
    rw [List.length_reverse, length_before h] at this
    omega
  rw [killWordBack?, skipBack?_eq h, Option.bind_eq_bind, Option.bind_some, ← before, skipBack?_eq hw,
    before, take_length_dropWhile, List.reverse_reverse]
  exact cutBack?_eq h (wordStart_le h)

theorem up?_eq (h : b.cursor ≤ b.chars.length) : b.up? = some b.up := by
  have hstart := b.lineStartOf_le b.cursor
  rw [up?, lineStartOf?_eq h, Option.bind_eq_bind, Option.bind_some, up]
  dsimp only
  split
  · rfl
  · rw [difference?_of_le hstart, difference?_of_le (by omega)]
    simp only [Option.bind_some]
    rw [lineStartOf?_eq (by omega), Option.bind_some]

theorem down?_eq (h : b.cursor ≤ b.chars.length) : b.down? = some b.down := by
  have hstop := lineEndOf_le h
  rw [down?, lineEndOf?_eq h, Option.bind_eq_bind, Option.bind_some, down]
  dsimp only
  split
  · rfl
  · rw [lineStartOf?_eq h, Option.bind_some, difference?_of_le (b.lineStartOf_le _), Option.bind_some,
      lineEndOf?_eq (by omega)]
    rfl

theorem perform?_eq (h : b.cursor ≤ b.chars.length) (edit : Edit) :
    b.perform? edit = some (b.perform edit) := by
  cases edit with
  | insert c => rw [perform?, insert?_eq h]; rfl
  | insertText text => rw [perform?, insertText?_eq h]; rfl
  | setText text => rfl
  | backspace => rw [perform?, backspace?_eq h]; rfl
  | delete => rw [perform?, delete?_eq]; rfl
  | left => rfl
  | right => rfl
  | lineStart => rw [perform?, lineStartOf?_eq h]; rfl
  | lineEnd => rw [perform?, lineEndOf?_eq h]; rfl
  | killToLineEnd => rw [perform?, killToLineEnd?_eq h]; rfl
  | killToLineStart => rw [perform?, killToLineStart?_eq h]; rfl
  | killWordBack => rw [perform?, killWordBack?_eq h]; rfl
  | up => rw [perform?, up?_eq h]; rfl
  | down => rw [perform?, down?_eq h]; rfl

theorem run?_eq (h : b.cursor ≤ b.chars.length) (edits : List Edit) : b.run? edits = some (b.run edits) := by
  induction edits generalizing b with
  | nil => rfl
  | cons edit edits ih =>
    rw [run?, perform?_eq h, Option.bind_eq_bind, Option.bind_some]
    dsimp only
    rw [ih (cursor_perform_le h edit)]
    rfl

theorem position?_eq (h : b.cursor ≤ b.chars.length) : b.position? = some b.position := by
  rw [position?, slice?_of_le (Nat.zero_le _) h, lineStartOf?_eq h, Option.bind_eq_bind, Option.bind_some,
    Option.bind_eq_bind, Option.bind_some, difference?_of_le (b.lineStartOf_le _)]
  rfl

theorem wordBeforeCursor?_eq (h : b.cursor ≤ b.chars.length) :
    b.wordBeforeCursor? = some b.wordBeforeCursor := by
  have hword : b.before.drop (behindLast isWordChar b.before) =
      (b.before.reverse.takeWhile isWordChar).reverse := by
    have hs : (b.before.reverse.takeWhile isWordChar).reverse <:+ b.before := by
      rw [← List.reverse_prefix, List.reverse_reverse]
      exact List.takeWhile_prefix isWordChar
    have hd := List.suffix_iff_eq_drop.mp hs
    rw [List.length_reverse] at hd
    rw [behindLast_eq]
    exact hd.symm
  have hle : behindLast isWordChar b.before ≤ b.cursor := by
    rw [behindLast_eq, length_before h]
    exact Nat.sub_le ..
  rw [wordBeforeCursor?, slice?_of_le (Nat.zero_le _) h, Option.bind_eq_bind, Option.bind_some,
    List.drop_zero, ← before, slice?_of_le hle h, Option.bind_some, ← before, hword]
  rfl

end Buffer

end RConsole
