import RConsole.Proofs.Edit.Lines
import RConsole.Proofs.Edit.Ranges

namespace RConsole

structure Zipper where
  before : List Char
  after : List Char
  deriving DecidableEq, Repr

def Buffer.zipper (b : Buffer) : Zipper := ⟨b.before, b.after⟩

namespace Zipper

def buffer (z : Zipper) : Buffer := ⟨z.before ++ z.after, z.before.length⟩

theorem zipper_buffer (z : Zipper) : z.buffer.zipper = z := by
  rw [Buffer.zipper, buffer, Buffer.before_split, Buffer.after_split]

theorem buffer_zipper {b : Buffer} (h : b.cursor ≤ b.chars.length) : b.zipper.buffer = b := by
  rw [buffer, Buffer.zipper, Buffer.length_before h, Buffer.before, Buffer.after, List.take_append_drop]

/-- An edit of a text around its cursor, and its answer. -/
inductive Does : Edit → Zipper → Edit.Answer → Zipper → Prop where
  | insert (c : Char) (u v : List Char) : Does (.insert c) ⟨u, v⟩ .nothing ⟨u ++ [c], v⟩
  | insertText (text : String) (u v : List Char) :
    Does (.insertText text) ⟨u, v⟩ .nothing ⟨u ++ text.toList, v⟩
  | setText (text : String) (u v : List Char) :
    Does (.setText text) ⟨u, v⟩ .nothing ⟨text.toList, []⟩
  | backspace (u v : List Char) (c : Char) :
    Does .backspace ⟨u ++ [c], v⟩ (.found true) ⟨u, v⟩
  | backspace_start (v : List Char) : Does .backspace ⟨[], v⟩ (.found false) ⟨[], v⟩
  | delete (u v : List Char) (c : Char) : Does .delete ⟨u, c :: v⟩ (.found true) ⟨u, v⟩
  | delete_end (u : List Char) : Does .delete ⟨u, []⟩ (.found false) ⟨u, []⟩
  | left (u v : List Char) (c : Char) : Does .left ⟨u ++ [c], v⟩ .nothing ⟨u, c :: v⟩
  | left_start (v : List Char) : Does .left ⟨[], v⟩ .nothing ⟨[], v⟩
  | right (u v : List Char) (c : Char) : Does .right ⟨u, c :: v⟩ .nothing ⟨u ++ [c], v⟩
  | right_end (u : List Char) : Does .right ⟨u, []⟩ .nothing ⟨u, []⟩
  | lineStart {front line : List Char} (v : List Char) (h : Trails (· != '\n') front line) :
    Does .lineStart ⟨front ++ line, v⟩ .nothing ⟨front, line ++ v⟩
  | lineEnd {line rest : List Char} (u : List Char) (h : Leads (· != '\n') line rest) :
    Does .lineEnd ⟨u, line ++ rest⟩ .nothing ⟨u ++ line, rest⟩
  | killToLineEnd {line rest : List Char} (u : List Char) (h : Leads (· != '\n') line rest) :
    Does .killToLineEnd ⟨u, line ++ rest⟩ (.cut (String.ofList line)) ⟨u, rest⟩
  | killToLineStart {front line : List Char} (v : List Char) (h : Trails (· != '\n') front line) :
    Does .killToLineStart ⟨front ++ line, v⟩ (.cut (String.ofList line)) ⟨front, v⟩
  | killWordBack {front word blanks : List Char} (v : List Char)
    (hb : Trails isBlank (front ++ word) blanks) (hw : Trails (fun c => !isBlank c) front word) :
    Does .killWordBack ⟨front ++ word ++ blanks, v⟩ (.cut (String.ofList (word ++ blanks))) ⟨front, v⟩
  | up {front above line : List Char} (v : List Char) (ha : Trails (· != '\n') front above)
    (hl : '\n' ∉ line) :
    Does .up ⟨front ++ above ++ '\n' :: line, v⟩ (.found true)
      ⟨front ++ above.take line.length, above.drop line.length ++ '\n' :: line ++ v⟩
  | up_first {u : List Char} (v : List Char) (h : '\n' ∉ u) : Does .up ⟨u, v⟩ (.found false) ⟨u, v⟩
  | down {front line rest below tail : List Char} (hl : Trails (· != '\n') front line)
    (hr : '\n' ∉ rest) (hb : Leads (· != '\n') below tail) :
    Does .down ⟨front ++ line, rest ++ '\n' :: (below ++ tail)⟩ (.found true)
      ⟨front ++ line ++ rest ++ '\n' :: below.take line.length, below.drop line.length ++ tail⟩
  | down_last (u : List Char) {v : List Char} (h : '\n' ∉ v) : Does .down ⟨u, v⟩ (.found false) ⟨u, v⟩

variable {edit : Edit} {z z' : Zipper} {a : Edit.Answer} {u v front line rest : List Char}

theorem eraseIdx_split (u v : List Char) (c : Char) : (u ++ c :: v).eraseIdx u.length = u ++ v := by
  rw [List.eraseIdx_append_of_length_le (Nat.le_refl _)]
  simp

theorem lineStartOf_split (v : List Char) (h : Trails (· != '\n') front line) :
    Buffer.lineStartOf ⟨front ++ line ++ v, (front ++ line).length⟩ (front ++ line).length =
      front.length := by
  rw [List.length_append]
  exact Buffer.lineStartOf_eq rfl h

theorem lineEndOf_split (u : List Char) (h : Leads (· != '\n') line rest) :
    Buffer.lineEndOf ⟨u ++ (line ++ rest), u.length⟩ u.length = (u ++ line).length := by
  rw [List.length_append]
  exact Buffer.lineEndOf_eq (List.append_assoc u line rest).symm h

theorem cutBack_split (front cut v : List Char) :
    Buffer.cutBack ⟨front ++ cut ++ v, (front ++ cut).length⟩ front.length =
      (String.ofList cut, ⟨front ++ v, front.length⟩) := by
  rw [Buffer.cutBack, Buffer.before_split, Buffer.after_split, List.drop_left, List.append_assoc,
    List.take_left]

theorem killToLineEnd_split (u : List Char) (h : Leads (· != '\n') line rest) :
    (buffer ⟨u, line ++ rest⟩).killToLineEnd = (String.ofList line, buffer ⟨u, rest⟩) := by
  have hcut : ((u ++ (line ++ rest)).take (u ++ line).length).drop u.length = line := by
    rw [← List.append_assoc, List.take_left, List.drop_left]
  have hrest : (u ++ (line ++ rest)).drop (u ++ line).length = rest := by
    rw [← List.append_assoc, List.drop_left]
  rw [Buffer.killToLineEnd, buffer]
  dsimp only
  rw [lineEndOf_split u h, hcut, hrest, Buffer.before_split]
  rfl

theorem killWordBack_split (v : List Char) {word blanks : List Char}
    (hb : Trails isBlank (front ++ word) blanks) (hw : Trails (fun c => !isBlank c) front word) :
    (buffer ⟨front ++ word ++ blanks, v⟩).killWordBack =
      (String.ofList (word ++ blanks), buffer ⟨front, v⟩) := by
  have hstart : ((front ++ word ++ blanks).reverse.dropWhile isBlank |>.dropWhile
      fun c => !isBlank c).length = front.length := by
    rw [hb.dropWhile, hw.dropWhile, List.length_reverse]
  rw [Buffer.killWordBack, buffer, Buffer.before_split, hstart, List.append_assoc front, cutBack_split]
  rfl

theorem up_split (v : List Char) {above : List Char} (ha : Trails (· != '\n') front above)
    (hl : '\n' ∉ line) : (buffer ⟨front ++ above ++ '\n' :: line, v⟩).up =
      (true, buffer ⟨front ++ above.take line.length, above.drop line.length ++ '\n' :: line ++ v⟩) := by
  have hcursor : (front ++ above ++ '\n' :: line).length = (front ++ above).length + 1 + line.length := by
    rw [List.length_append, List.length_cons]
    omega
  have hchars : front ++ above ++ '\n' :: line ++ v =
      front ++ above.take line.length ++ (above.drop line.length ++ '\n' :: line ++ v) := by
    conv => lhs; rw [← List.take_append_drop line.length above]
    simp only [List.append_assoc]
  rw [Buffer.up_eq (b := buffer ⟨front ++ above ++ '\n' :: line, v⟩) rfl hcursor ha hl, buffer, buffer]
  dsimp only
  rw [← List.length_take, ← List.length_append, hchars]

theorem down_split {below tail : List Char} (hl : Trails (· != '\n') front line) (hr : '\n' ∉ rest)
    (hb : Leads (· != '\n') below tail) :
    (buffer ⟨front ++ line, rest ++ '\n' :: (below ++ tail)⟩).down =
      (true, buffer ⟨front ++ line ++ rest ++ '\n' :: below.take line.length,
        below.drop line.length ++ tail⟩) := by
  have hchars : front ++ line ++ (rest ++ '\n' :: (below ++ tail)) =
      front ++ line ++ rest ++ '\n' :: below.take line.length ++ (below.drop line.length ++ tail) := by
    conv => lhs; rw [← List.take_append_drop line.length below]
    simp only [List.append_assoc, List.cons_append]
  have hcursor : (front ++ line ++ rest ++ '\n' :: below.take line.length).length =
      (front ++ line ++ rest).length + 1 + min line.length below.length := by
    rw [List.length_append, List.length_cons, List.length_take]
    omega
  rw [Buffer.down_eq (b := buffer ⟨front ++ line, rest ++ '\n' :: (below ++ tail)⟩)
    (List.append_assoc ..).symm List.length_append hl hr hb, buffer, buffer]
  dsimp only
  rw [hcursor, hchars]

theorem Does.perform (h : Does edit z a z') : z.buffer.perform edit = (a, z'.buffer) := by
  cases h with
  | insert c u v => simp [buffer, Buffer.perform, Buffer.insert, Buffer.before_split, Buffer.after_split]
  | insertText text u v =>
    simp [buffer, Buffer.perform, Buffer.insertText, Buffer.before_split, Buffer.after_split]
  | setText text u v => simp [buffer, Buffer.perform, Buffer.ofText]
  | backspace u v c => simp [buffer, Buffer.perform, Buffer.backspace, eraseIdx_split]
  | backspace_start v => rfl
  | delete u v c =>
    have hlt : ¬(u ++ c :: v).length ≤ u.length := by simp
    rw [Buffer.perform, Buffer.delete, buffer, if_neg hlt, eraseIdx_split]
    rfl
  | delete_end u => simp [buffer, Buffer.perform, Buffer.delete]
  | left u v c => simp [buffer, Buffer.perform, Buffer.left]
  | left_start v => rfl
  | right u v c => simp [buffer, Buffer.perform, Buffer.right]
  | right_end u => simp [buffer, Buffer.perform, Buffer.right]
  | lineStart v h =>
    rw [Buffer.perform, Buffer.lineStart, buffer]
    dsimp only
    rw [lineStartOf_split v h, List.append_assoc]
    rfl
  | lineEnd u h =>
    rw [Buffer.perform, Buffer.lineEnd, buffer]
    dsimp only
    rw [lineEndOf_split u h, ← List.append_assoc]
    rfl
  | killToLineEnd u h =>
    rw [Buffer.perform, killToLineEnd_split u h]
    rfl
  | killToLineStart v h =>
    rw [Buffer.perform, Buffer.killToLineStart, buffer]
    dsimp only
    rw [lineStartOf_split v h, cutBack_split]
    rfl
  | killWordBack v hb hw =>
    rw [Buffer.perform, killWordBack_split v hb hw]
    rfl
  | up v ha hl =>
    rw [Buffer.perform, up_split v ha hl]
    rfl
  | up_first v h =>
    rw [Buffer.perform, Buffer.up_first (b := buffer _) rfl rfl h]
    rfl
  | down hl hr hb =>
    rw [Buffer.perform, down_split hl hr hb]
    rfl
  | down_last u h =>
    rw [Buffer.perform, Buffer.down_last (b := buffer _) rfl rfl h]
    rfl

theorem exists_line_above (u : List Char) :
    '\n' ∉ u ∨ ∃ front above line, u = front ++ above ++ '\n' :: line ∧
      Trails (· != '\n') front above ∧ '\n' ∉ line := by
  obtain ⟨rest, line, rfl, hl⟩ := exists_trails (· != '\n') u
  have hline : '\n' ∉ line := fun hm => by simpa using hl.all _ hm
  rcases List.eq_nil_or_concat rest with rfl | ⟨rest, c, rfl⟩
  · exact .inl hline
  · obtain ⟨front, above, rfl, ha⟩ := exists_trails (· != '\n') rest
    have hc : c = '\n' := by simpa using (trails_iff.mp hl).2 c (by simp)
    exact .inr ⟨front, above, line, by simp [hc], ha, hline⟩

theorem exists_line_below (v : List Char) :
    '\n' ∉ v ∨ ∃ rest below tail, v = rest ++ '\n' :: (below ++ tail) ∧
      '\n' ∉ rest ∧ Leads (· != '\n') below tail := by
  obtain ⟨rest, tail, rfl, hr⟩ := exists_leads (· != '\n') v
  have hrest : '\n' ∉ rest := fun hm => by simpa using hr.all _ hm
  cases tail with
  | nil => exact .inl (by rwa [List.append_nil])
  | cons c tail =>
    obtain ⟨below, tail, rfl, hb⟩ := exists_leads (· != '\n') tail
    have hc : c = '\n' := by simpa using (leads_iff.mp hr).2 c rfl
    exact .inr ⟨rest, below, tail, by rw [hc], hrest, hb⟩

theorem Does.exists (edit : Edit) (z : Zipper) : ∃ a z', Does edit z a z' := by
  obtain ⟨u, v⟩ := z
  cases edit with
  | insert c => exact ⟨_, _, .insert c u v⟩
  | insertText text => exact ⟨_, _, .insertText text u v⟩
  | setText text => exact ⟨_, _, .setText text u v⟩
  | backspace =>
    rcases List.eq_nil_or_concat u with rfl | ⟨u, c, rfl⟩
    · exact ⟨_, _, .backspace_start v⟩
    · rw [List.concat_eq_append]
      exact ⟨_, _, .backspace u v c⟩
  | delete =>
    cases v with
    | nil => exact ⟨_, _, .delete_end u⟩
    | cons c v => exact ⟨_, _, .delete u v c⟩
  | left =>
    rcases List.eq_nil_or_concat u with rfl | ⟨u, c, rfl⟩
    · exact ⟨_, _, .left_start v⟩
    · rw [List.concat_eq_append]
      exact ⟨_, _, .left u v c⟩
  | right =>
    cases v with
    | nil => exact ⟨_, _, .right_end u⟩
    | cons c v => exact ⟨_, _, .right u v c⟩
  | lineStart =>
    obtain ⟨front, line, rfl, h⟩ := exists_trails (· != '\n') u
    exact ⟨_, _, .lineStart v h⟩
  | lineEnd =>
    obtain ⟨line, rest, rfl, h⟩ := exists_leads (· != '\n') v
    exact ⟨_, _, .lineEnd u h⟩
  | killToLineEnd =>
    obtain ⟨line, rest, rfl, h⟩ := exists_leads (· != '\n') v
    exact ⟨_, _, .killToLineEnd u h⟩
  | killToLineStart =>
    obtain ⟨front, line, rfl, h⟩ := exists_trails (· != '\n') u
    exact ⟨_, _, .killToLineStart v h⟩
  | killWordBack =>
    obtain ⟨rest, blanks, rfl, hb⟩ := exists_trails isBlank u
    obtain ⟨front, word, rfl, hw⟩ := exists_trails (fun c => !isBlank c) rest
    exact ⟨_, _, .killWordBack v hb hw⟩
  | up =>
    rcases exists_line_above u with h | ⟨front, above, line, rfl, ha, hl⟩
    · exact ⟨_, _, .up_first v h⟩
    · exact ⟨_, _, .up v ha hl⟩
  | down =>
    rcases exists_line_below v with h | ⟨rest, below, tail, rfl, hr, hb⟩
    · exact ⟨_, _, .down_last u h⟩
    · obtain ⟨front, line, rfl, hl⟩ := exists_trails (· != '\n') u
      exact ⟨_, _, .down hl hr hb⟩

theorem does_iff (edit : Edit) (z z' : Zipper) (a : Edit.Answer) :
    Does edit z a z' ↔ a = (z.buffer.perform edit).1 ∧ z' = (z.buffer.perform edit).2.zipper := by
  constructor
  · intro h
    rw [h.perform, zipper_buffer]
    exact ⟨rfl, rfl⟩
  · rintro ⟨rfl, rfl⟩
    obtain ⟨a, z', h⟩ := Does.exists edit z
    rw [h.perform, zipper_buffer]
    exact h

theorem Does.cut {text : String} (h : Does edit z (.cut text) z') :
    z'.before ++ text.toList ++ z'.after = z.before ++ z.after := by
  cases h <;> simp

inductive DoesAll : List Edit → Zipper → List Edit.Answer → Zipper → Prop where
  | nil (z : Zipper) : DoesAll [] z [] z
  | cons {edit : Edit} {edits : List Edit} {z z' z'' : Zipper} {a : Edit.Answer} {as : List Edit.Answer}
    (h : Does edit z a z') (hs : DoesAll edits z' as z'') : DoesAll (edit :: edits) z (a :: as) z''

end Zipper

namespace Buffer

variable {b : Buffer}

theorem doesAll_iff (h : b.cursor ≤ b.chars.length) (edits : List Edit) (as : List Edit.Answer) (z : Zipper) :
    Zipper.DoesAll edits b.zipper as z ↔ as = (b.run edits).1 ∧ z = (b.run edits).2.zipper := by
  induction edits generalizing b as z with
  | nil =>
    constructor
    · intro hd
      cases hd
      exact ⟨rfl, rfl⟩
    · rintro ⟨rfl, rfl⟩
      exact .nil _
  | cons edit edits ih =>
    have hstep := Zipper.does_iff edit b.zipper
    rw [Zipper.buffer_zipper h] at hstep
    have hrest := ih (cursor_perform_le h edit)
    constructor
    · intro hd
      cases hd with
      | cons hfirst hs =>
        obtain ⟨rfl, rfl⟩ := (hstep _ _).mp hfirst
        obtain ⟨rfl, rfl⟩ := (hrest _ _).mp hs
        exact ⟨rfl, rfl⟩
    · rintro ⟨rfl, rfl⟩
      exact .cons ((hstep _ _).mpr ⟨rfl, rfl⟩) ((hrest _ _).mpr ⟨rfl, rfl⟩)

theorem insertText_cut (h : b.cursor ≤ b.chars.length) {edit : Edit} {text : String}
    (hc : (b.perform edit).1 = .cut text) : ((b.perform edit).2.insertText text).text = b.text := by
  have hdoes : Zipper.Does edit b.zipper (.cut text) (b.perform edit).2.zipper := by
    rw [← hc, Zipper.does_iff, Zipper.buffer_zipper h]
    exact ⟨rfl, rfl⟩
  have hchars : b.zipper.before ++ b.zipper.after = b.chars := List.take_append_drop ..
  exact congrArg String.ofList (hdoes.cut.trans hchars)

/-- The edits of any buffer that can be reached find each character and range that they take, and do
to the text before the cursor and after it what `Zipper.Does` says and nothing else. -/
theorem edits_on_zipper (h : b.Reachable) :
    b.cursor ≤ b.chars.length ∧ b.zipper.before ++ b.zipper.after = b.chars ∧
      b.zipper.before.length = b.cursor ∧
    (∀ edits, b.run? edits = some (b.run edits)) ∧
    b.position? = some b.position ∧ b.wordBeforeCursor? = some b.wordBeforeCursor ∧
    (∀ edits as z, Zipper.DoesAll edits b.zipper as z ↔
      as = (b.run edits).1 ∧ z = (b.run edits).2.zipper) ∧
    (∀ edit, edit.isMove = true → (b.perform edit).2.text = b.text) ∧
    ∀ edit text, (b.perform edit).1 = .cut text →
      ((b.perform edit).2.insertText text).text = b.text := by
  have hle := h.cursor_le
  exact ⟨hle, List.take_append_drop .., length_before hle, run?_eq hle, position?_eq hle,
    wordBeforeCursor?_eq hle, doesAll_iff hle, fun _ => text_move b, fun _ _ => insertText_cut hle⟩

theorem edits_on_zipper_word :
    let b : Buffer := ((Buffer.ofText "x é\u3000z").perform .left).2
    b.Reachable ∧ (b.perform .killWordBack).1 = .cut "é\u3000" ∧
      Zipper.DoesAll [.killWordBack, .insertText "é\u3000"] b.zipper [.cut "é\u3000", .nothing] b.zipper ∧
      b.run? [.killWordBack, .delete] = some ([.cut "é\u3000", .found true], ⟨['x', ' '], 2⟩) ∧
      ((b.perform .killWordBack).2.insertText "é\u3000").text = b.text := by
  intro b
  have hr : b.Reachable := .perform (.ofText _) .left
  have hc : (b.perform .killWordBack).1 = .cut "é\u3000" := by decide +kernel
  obtain ⟨-, -, -, hrun, -, -, hdoes, -, hback⟩ := edits_on_zipper hr
  refine ⟨hr, hc, (hdoes _ _ _).mpr ⟨by decide +kernel, by decide +kernel⟩, ?_, hback _ _ hc⟩
  rw [hrun]
  decide +kernel

end Buffer

end RConsole
