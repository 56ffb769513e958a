import RConsole.Proofs.Edit.Pressing
import RConsole.Proofs.Edit.Sheet

/-!
The walk through the entries under the keys of one cycle. Up leaves a text at its first line and Down
at its last one, so that a text of several lines takes several keys. The text typed before is kept,
and Down leads back to it.
-/
namespace RConsole

namespace Buffer

variable {b : Buffer}

theorem up_stuck (h : b.cursor ≤ b.chars.length) (hu : b.up.1 = false) : b.position.1 = 0 := by
  have ha := (enters_up h).answer
  rw [hu, lineAbove?] at ha
  split at ha
  · assumption
  · cases ha

theorem down_stuck (h : b.cursor ≤ b.chars.length) (hd : b.down.1 = false) :
    b.position.1 + 1 = b.lines.length := by
  have ha := (enters_down h).answer
  rw [hd, lineBelow?] at ha
  split at ha
  · assumption
  · cases ha

def linesBelow (b : Buffer) : Nat := b.lines.length - (b.position.1 + 1)

theorem linesBelow_ofText (text : String) : (ofText text).linesBelow = 0 := by
  have hd : (ofText text).down.1 = false := by
    have hstop : (ofText text).lineEndOf (ofText text).cursor = (ofText text).chars.length := by
      simp [lineEndOf, ofText]
    simp only [down, hstop, if_pos]
  rw [linesBelow, down_stuck (Nat.le_refl _) hd, Nat.sub_self]

theorem linesBelow_down (h : b.cursor ≤ b.chars.length) (hd : b.down.1 = true) :
    b.down.2.linesBelow + 1 = b.linesBelow := by
  have he := enters_down h
  have hl : b.lineBelow? = some (b.position.1 + 1) := by
    have ha := he.answer
    rw [hd, lineBelow?] at ha
    unfold lineBelow?
    split at ha
    · cases ha
    · rw [if_neg ‹_›]
  have hlines : b.down.2.lines = b.lines := by
    have hchars : b.down.2.chars = b.chars := String.ofList_injective he.text
    rw [lines, lines, hchars]
  obtain ⟨line, hline, hp⟩ := he.place _ hl
  have hlt := (List.getElem?_eq_some_iff.mp hline).1
  rw [linesBelow, linesBelow, hlines, hp]
  dsimp only
  omega

end Buffer

def Command.isMove : Command → Bool
  | .up | .down | .left | .right | .lineStart | .lineEnd => true
  | _ => false

def KeyCode.move? : KeyCode → Option Command
  | .up => some .up
  | .down => some .down
  | .left => some .left
  | .right => some .right
  | .home => some .lineStart
  | .endKey => some .lineEnd
  | _ => none

theorem KeyCode.isMove_of_move {code : KeyCode} {command : Command} (h : code.move? = some command) :
    command.isMove = true := by
  cases code <;> cases h <;> rfl

theorem Keymap.map_move (m : Keymap) {k : Key} {command : Command} (h : k.code.move? = some command) :
    (m.map k).1 = command := by
  obtain ⟨mode, vi⟩ := m
  obtain ⟨code, mods⟩ := k
  cases code <;> cases h <;> cases mode <;> cases vi <;> rfl

namespace Editor

variable {start e e' : Editor} {k : Key} {keys moves : List (Option Key)} {command : Command}
  {request : Option Request} {entries : List String} {text draft : String}

theorem reachable_edit (h : e.buffer.Reachable) (command : Command) :
    (e.edit command).buffer.Reachable := by
  have hgoes {moved : Bool × Buffer} {next : Option Recall} {e' : Editor} (hm : moved.2.Reachable)
      (hg : e.Goes moved next e') : e'.buffer.Reachable := by
    cases hg with
    | line => exact hm
    | text => exact .ofText _
    | stay => exact h
  cases command with
  | insert c => exact h.perform (.insert c)
  | newline =>
    simp only [edit]
    split
    · exact h.perform (.insert '\n')
    · exact h
  | backspace => exact h.perform .backspace
  | deleteOrEnd => exact h.perform .delete
  | delete => exact h.perform .delete
  | left => exact h.perform .left
  | right => exact h.perform .right
  | lineStart => exact h.perform .lineStart
  | lineEnd => exact h.perform .lineEnd
  | killToEnd => exact h.perform .killToLineEnd
  | killToStart => exact h.perform .killToLineStart
  | killWordBack => exact h.perform .killWordBack
  | up => exact hgoes (h.perform .up) e.goes_up
  | down => exact hgoes (h.perform .down) e.goes_down
  | complete =>
    simp only [edit]
    split
    · unfold complete
      split
      · exact h.perform (.insertText _)
      · exact h
    · exact h
  | _ => exact h

/-- What a command comes to for the walk: it keeps it, or it is an Up on the first line or a Down on
the last one that shows another text. -/
inductive Turn (b : Buffer) (r : Recall) (b' : Buffer) (r' : Recall) : Command → Prop where
  | keeps {command : Command} (walk : r' = r) (text : command.isMove = true → b'.text = b.text) :
      Turn b r b' r' command
  | back (line : b.position.1 = 0) (walk : r.back? b.text = some r') (text : b'.text = r'.shown) :
      Turn b r b' r' .up
  | forth (line : b.position.1 + 1 = b.lines.length) (walk : r.forth? = some r')
      (text : b'.text = r'.shown) : Turn b r b' r' .down

theorem Turn.of_other {b b' : Buffer} {r r' : Recall} (hw : r' = r) (hm : command.isMove = false) :
    Turn b r b' r' command :=
  .keeps hw fun h => absurd (hm.symm.trans h) Bool.false_ne_true

theorem edit_turn (h : e.buffer.cursor ≤ e.buffer.chars.length) (command : Command) :
    Turn e.buffer e.walk (e.edit command).buffer (e.edit command).walk command := by
  cases command with
  | up =>
    have hg := e.goes_up
    simp only [edit]
    generalize e.goUp = e' at hg ⊢
    cases hg with
    | line => exact .keeps rfl fun _ => e.buffer.text_up
    | text hm hn => exact .back (Buffer.up_stuck h hm) hn (Buffer.text_ofText _)
    | stay => exact .keeps rfl fun _ => rfl
  | down =>
    have hg := e.goes_down
    simp only [edit]
    generalize e.goDown = e' at hg ⊢
    cases hg with
    | line => exact .keeps rfl fun _ => e.buffer.text_down
    | text hm hn => exact .forth (Buffer.down_stuck h hm) hn (Buffer.text_ofText _)
    | stay => exact .keeps rfl fun _ => rfl
  | newline =>
    refine .of_other ?_ rfl
    simp only [edit]
    split <;> rfl
  | complete =>
    refine .of_other ?_ rfl
    simp only [edit]
    split
    · unfold complete
      split <;> rfl
    · rfl
  | left => exact .keeps rfl fun _ => rfl
  | right => exact .keeps rfl fun _ => rfl
  | lineStart => exact .keeps rfl fun _ => rfl
  | lineEnd => exact .keeps rfl fun _ => rfl
  | _ => exact .of_other rfl rfl

theorem press_turn (h : e.buffer.cursor ≤ e.buffer.chars.length) (hp : e.press k = .goOn e' request) :
    Turn e.buffer e.walk e'.buffer e'.walk (e.keymap.map k).1 := by
  rw [press_goOn hp]
  exact edit_turn (e := { e with keymap := (e.keymap.map k).2 }) h _

theorem reachable_press (h : e.buffer.Reachable) (hp : e.press k = .goOn e' request) :
    e'.buffer.Reachable := by
  rw [press_goOn hp]
  exact reachable_edit (e := { e with keymap := (e.keymap.map k).2 }) h _

def AtDraft (e : Editor) : Prop := e.walk.index = e.walk.entries.length

/-- The text that was typed was in the buffer as `text` when the keys last left it for an entry. -/
inductive LeftAs (start : Editor) (text : String) : List (Option Key) → Prop where
  | leaving {keys : List (Option Key)} {key : Option Key} {e e' : Editor}
      (h : start.after keys = some e) (draft : e.AtDraft) (shown : e.buffer.text = text)
      (h' : start.after (keys ++ [key]) = some e') (entry : ¬ e'.AtDraft) :
      LeftAs start text (keys ++ [key])
  | later {keys : List (Option Key)} {key : Option Key} {e' : Editor} (left : LeftAs start text keys)
      (h' : start.after (keys ++ [key]) = some e') (entry : ¬ e'.AtDraft) :
      LeftAs start text (keys ++ [key])

inductive Walked (entries : List String) (left : String → Prop) (e e' : Editor) : Command → Prop where
  | keeps {command : Command} (index : e'.walk.index = e.walk.index)
      (text : command.isMove = true → e'.buffer.text = e.buffer.text) :
      Walked entries left e e' command
  | back (line : e.buffer.position.1 = 0) (index : e'.walk.index + 1 = e.walk.index)
      (text : entries[e'.walk.index]? = some e'.buffer.text) : Walked entries left e e' .up
  | forth (line : e.buffer.position.1 + 1 = e.buffer.lines.length)
      (index : e'.walk.index = e.walk.index + 1)
      (text : entries[e'.walk.index]? = some e'.buffer.text) : Walked entries left e e' .down
  | draft (line : e.buffer.position.1 + 1 = e.buffer.lines.length)
      (index : e'.walk.index = e.walk.index + 1) (last : e'.walk.index = entries.length)
      (text : left e'.buffer.text) : Walked entries left e e' .down

theorem reachable_after (h : start.buffer.Reachable) (hk : start.after keys = some e) :
    e.buffer.Reachable := by
  refine after_induct (P := fun _ e => e.buffer.Reachable) h (fun _ _ e e' _ _ hlast hr => ?_) hk
  rcases hlast with rfl | ⟨k, request, hp⟩
  · exact hr
  · exact reachable_press hr hp

theorem leftAs_after (hb : start.buffer.Reachable) (hd : start.AtDraft)
    (hk : start.after keys = some e) : ¬ e.AtDraft → start.LeftAs e.walk.draft keys := by
  refine after_induct (P := fun keys e => ¬ e.AtDraft → start.LeftAs e.walk.draft keys)
    (fun hn => absurd hd hn) (fun keys key e e' h h' hlast ih hn => ?_) hk
  rcases hlast with rfl | ⟨k, request, hp⟩
  · exact .later (ih hn) h' hn
  · have ht := press_turn (reachable_after hb h).cursor_le hp
    generalize (e.keymap.map k).1 = command at ht
    cases ht with
    | keeps hw =>
      have he : ¬ e.AtDraft := by rwa [AtDraft, hw] at hn
      rw [hw]
      exact .later (ih he) h' hn
    | back _ hw =>
      obtain ⟨-, -, hdraft⟩ := Recall.back_some hw
      rw [hdraft]
      split
      · exact .leaving h ‹_› rfl h' hn
      · exact .later (ih ‹_›) h' hn
    | forth _ hw =>
      obtain ⟨hlt, hwalk⟩ := Recall.forth_some hw
      have hdraft : e'.walk.draft = e.walk.draft := by rw [hwalk]
      rw [hdraft]
      exact .later (ih (Nat.ne_of_lt hlt)) h' hn

theorem walked_press (hb : e.buffer.Reachable) (hw : e.walk.entries = entries)
    (hi : e.walk.index ≤ entries.length) {left : String → Prop}
    (hd : ¬ e.AtDraft → left e.walk.draft) (hp : e.press k = .goOn e' request) :
    Walked entries left e e' (e.keymap.map k).1 := by
  have ht := press_turn hb.cursor_le hp
  generalize (e.keymap.map k).1 = command at ht ⊢
  cases ht with
  | keeps hwalk text => exact .keeps (congrArg Recall.index hwalk) text
  | back line hwalk text =>
    obtain ⟨hentries, hindex, -⟩ := Recall.back_some hwalk
    have hlt : e'.walk.index < entries.length := by omega
    refine .back line hindex ?_
    rw [text, Recall.shown, hentries, hw, List.getElem?_eq_getElem hlt, Option.getD_some]
  | forth line hwalk text =>
    obtain ⟨hlt, he'⟩ := Recall.forth_some hwalk
    have hindex : e'.walk.index = e.walk.index + 1 := congrArg Recall.index he'
    have hshown : e'.buffer.text = entries[e'.walk.index]?.getD e.walk.draft := by
      rw [text, Recall.shown, he', hw]
    rw [hw] at hlt
    rcases Nat.lt_or_ge e'.walk.index entries.length with hlt' | hge
    · refine .forth line hindex ?_
      rw [hshown, List.getElem?_eq_getElem hlt', Option.getD_some]
    · refine .draft line hindex (by omega) ?_
      rw [hshown, List.getElem?_eq_none hge, Option.getD_none]
      exact hd (by rw [AtDraft, hw]; omega)

structure Shows (entries : List String) (draft : String) (e : Editor) : Prop where
  reachable : e.buffer.Reachable
  index : e.walk.index ≤ entries.length
  entries : e.walk.entries = entries
  draft : e.walk.draft = draft
  text : e.buffer.text = e.walk.shown

theorem shows_left (hb : e.buffer.Reachable) (hd : e.AtDraft) (hp : e.press k = .goOn e' request)
    (he : e'.walk.index < e.walk.entries.length) : Shows e.walk.entries e.buffer.text e' := by
  have ht := press_turn hb.cursor_le hp
  generalize (e.keymap.map k).1 = command at ht
  cases ht with
  | keeps hw =>
    rw [hw] at he
    exact absurd hd (Nat.ne_of_lt he)
  | back _ hw text =>
    obtain ⟨hentries, -, hdraft⟩ := Recall.back_some hw
    exact ⟨reachable_press hb hp, Nat.le_of_lt he, hentries, hdraft.trans (if_pos hd), text⟩
  | forth _ hw =>
    exact absurd hd (Nat.ne_of_lt (Recall.forth_some hw).1)

namespace Shows

theorem shown (h : Shows entries draft e) :
    e.buffer.text = entries[e.walk.index]?.getD draft := by
  rw [h.text, Recall.shown, h.entries, h.draft]

theorem turn (h : Shows entries draft e) (hm : command.isMove = true) (hb : e'.buffer.Reachable)
    (ht : Turn e.buffer e.walk e'.buffer e'.walk command) : Shows entries draft e' := by
  cases ht with
  | keeps hw text =>
    refine ⟨hb, hw ▸ h.index, hw ▸ h.entries, hw ▸ h.draft, ?_⟩
    rw [text hm, hw]
    exact h.text
  | back _ hw text =>
    obtain ⟨hentries, hindex, hdraft⟩ := Recall.back_some hw
    have hi := h.index
    refine ⟨hb, by omega, hentries.trans h.entries, ?_, text⟩
    rw [hdraft]
    split
    · rename_i hn
      rw [h.shown, hn, h.entries, List.getElem?_eq_none (Nat.le_refl _), Option.getD_none]
    · exact h.draft
  | forth _ hw text =>
    obtain ⟨hlt, he⟩ := Recall.forth_some hw
    rw [h.entries] at hlt
    exact ⟨hb, he ▸ hlt, he ▸ h.entries, he ▸ h.draft, text⟩

end Shows

theorem press_move (e : Editor) (hm : k.code.move? = some command) :
    e.press k = .goOn (edit { e with keymap := (e.keymap.map k).2 } command) none := by
  have hmode : e.modeTarget? k = none := by
    have hk : modeKey? k = none := by
      unfold modeKey?
      split
      · rfl
      · obtain ⟨code, mods⟩ := k
        cases code <;> cases hm <;> rfl
    rw [modeTarget?, hk, Option.bind_none, ite_self]
  have happly (e : Editor) : e.apply command = .goOn (e.edit command) none := by
    have hc := KeyCode.isMove_of_move hm
    cases command <;> first | rfl | cases hc
  rw [press, hmode]
  dsimp only
  rw [e.keymap.map_move hm, happly]

theorem Shows.press (h : Shows entries draft e) (hm : k.code.move? = some command) :
    ∃ e', e.press k = .goOn e' none ∧ Shows entries draft e' := by
  have hp := e.press_move hm
  refine ⟨_, hp, ?_⟩
  have ht := press_turn h.reachable.cursor_le hp
  rw [e.keymap.map_move hm] at ht
  exact h.turn (KeyCode.isMove_of_move hm) (reachable_press h.reachable hp) ht

theorem Shows.after (h : Shows entries draft e)
    (hm : ∀ k, some k ∈ moves → k.code.move?.isSome = true) :
    ∃ e', e.after moves = some e' ∧ Shows entries draft e' := by
  induction moves generalizing e with
  | nil => exact ⟨e, rfl, h⟩
  | cons key moves ih =>
    have htail : ∀ k, some k ∈ moves → k.code.move?.isSome = true := fun k hk =>
      hm k (List.mem_cons_of_mem key hk)
    cases key with
    | none => exact ih h htail
    | some k =>
      obtain ⟨command, hc⟩ := Option.isSome_iff_exists.mp (hm k List.mem_cons_self)
      obtain ⟨e', hp, h'⟩ := h.press hc
      simp only [Editor.after, hp]
      exact ih h' htail

def downsToDraft (e : Editor) : Nat := e.buffer.linesBelow + (e.walk.entries.length - e.walk.index)

theorem downsToDraft_goDown (h : e.buffer.cursor ≤ e.buffer.chars.length) (hd : e.downsToDraft ≠ 0) :
    e.goDown.downsToDraft + 1 = e.downsToDraft := by
  have hlast (hm : e.buffer.down.1 = false) : e.buffer.linesBelow = 0 := by
    rw [Buffer.linesBelow, Buffer.down_stuck h hm, Nat.sub_self]
  have hg := e.goes_down
  generalize e.goDown = e' at hg ⊢
  cases hg with
  | line hm =>
    rw [downsToDraft, downsToDraft, ← Buffer.linesBelow_down h hm]
    dsimp only
    omega
  | text hm hn =>
    obtain ⟨hlt, rfl⟩ := Recall.forth_some hn
    rw [downsToDraft, downsToDraft, hlast hm, Buffer.linesBelow_ofText]
    dsimp only
    omega
  | stay hm hn =>
    have hge : e.walk.entries.length ≤ e.walk.index := by
      unfold Recall.forth? at hn
      split at hn
      · assumption
      · cases hn
    rw [downsToDraft, hlast hm] at hd
    omega

theorem Shows.downs (h : Shows entries draft e) (mods : Mods) :
    ∃ e', e.after (List.replicate e.downsToDraft (some ⟨.down, mods⟩)) = some e' ∧
      Shows entries draft e' ∧ e'.walk.index = entries.length := by
  generalize hn : e.downsToDraft = n
  induction n generalizing e with
  | zero =>
    rw [downsToDraft, h.entries] at hn
    have hi := h.index
    exact ⟨e, rfl, h, by omega⟩
  | succ n ih =>
    have hm : (⟨.down, mods⟩ : Key).code.move? = some .down := rfl
    obtain ⟨e', hp, h'⟩ := h.press hm
    have he : e' = goDown { e with keymap := (e.keymap.map ⟨.down, mods⟩).2 } :=
      (Step.goOn.inj (hp.symm.trans (e.press_move hm))).1
    have hd : e'.downsToDraft + 1 = e.downsToDraft := by
      rw [he]
      exact downsToDraft_goDown (e := { e with keymap := (e.keymap.map ⟨.down, mods⟩).2 })
        h.reachable.cursor_le (show e.downsToDraft ≠ 0 by omega)
    rw [List.replicate_succ, Editor.after, hp]
    exact ih h' (by omega)

/-- Walking through the entries keeps every text. Up and Down show an entry as it is, or what was
typed as it was left. Keys that only move show the text of the walk and nothing else, and Down goes
back to what was typed. -/
theorem walk_keeps_texts {spec : Spec} {mode : EditingMode} {keymap : Keymap}
    (hs : spec.history = true) (hk : (startOver spec mode entries keymap).after keys = some e) :
    e.walk.entries = entries ∧ e.walk.index ≤ entries.length ∧
    (∀ k e' request, e.press k = .goOn e' request →
      Walked entries (fun text => (startOver spec mode entries keymap).LeftAs text keys) e e'
        (e.keymap.map k).1) ∧
    ∀ k e₁ request moves, e.walk.index = entries.length → e.press k = .goOn e₁ request →
      e₁.walk.index < entries.length → (∀ k', some k' ∈ moves → k'.code.move?.isSome = true) →
      ∃ e₂, e₁.after moves = some e₂ ∧ e₂.walk.index ≤ entries.length ∧
        e₂.buffer.text = entries[e₂.walk.index]?.getD e.buffer.text ∧
        ∀ mods, ∃ e₃, e₂.after (List.replicate e₂.downsToDraft (some ⟨.down, mods⟩)) = some e₃ ∧
          e₃.walk.index = entries.length ∧ e₃.buffer.text = e.buffer.text := by
  have hstart : (startOver spec mode entries keymap).walk = .start entries := by
    simp only [startOver, start, hs, if_true]
  have hb : (startOver spec mode entries keymap).buffer.Reachable := .empty
  have hrec := recalls_after (recalls_start spec mode entries) hk
  have hw : e.walk.entries = entries := hrec.walk.trans (congrArg Recall.entries hstart)
  have hi : e.walk.index ≤ entries.length := hw ▸ hrec.index
  have hr := reachable_after hb hk
  refine ⟨hw, hi, fun k e' request hp => ?_, fun k e₁ request moves hdraft hp hentry hm => ?_⟩
  · refine walked_press hr hw hi (leftAs_after hb ?_ hk) hp
    rw [AtDraft, hstart]
    rfl
  · have h₁ : Shows entries e.buffer.text e₁ := by
      rw [← hw] at hdraft hentry ⊢
      exact shows_left hr hdraft hp hentry
    obtain ⟨e₂, ha, h₂⟩ := h₁.after hm
    refine ⟨e₂, ha, h₂.index, h₂.shown, fun mods => ?_⟩
    obtain ⟨e₃, hd, h₃, hn⟩ := h₂.downs mods
    refine ⟨e₃, hd, hn, ?_⟩
    rw [h₃.shown, hn, List.getElem?_eq_none (Nat.le_refl _), Option.getD_none]

theorem walk_keeps_texts_lines :
    let start := startOver Mode.normal.spec .emacs ["one\ntwo"] {}
    let typed : Editor := { start with buffer := .ofText "dr" }
    let shown : Editor :=
      { start with buffer := .ofText "one\ntwo", walk := ⟨["one\ntwo"], 0, "dr"⟩ }
    let up : Key := ⟨.up, {}⟩
    start.after [some (.ofChar 'd'), some (.ofChar 'r')] = some typed ∧
      typed.press up = .goOn shown none ∧
      ∃ e, shown.after [some up] = some e ∧ e.buffer.text = "one\ntwo" ∧ e.downsToDraft = 2 ∧
        ∃ e', e.after [some ⟨.down, {}⟩, some ⟨.down, {}⟩] = some e' ∧ e'.buffer.text = "dr" := by
  intro start typed shown up
  have hk : start.after [some (.ofChar 'd'), some (.ofChar 'r')] = some typed := by decide +kernel
  have hp : typed.press up = .goOn shown none := by decide +kernel
  have hm : ∀ k, some k ∈ [some up] → k.code.move?.isSome = true := by
    intro k hk
    cases List.mem_singleton.mp hk
    rfl
  obtain ⟨-, -, -, hmoves⟩ := walk_keeps_texts rfl hk
  obtain ⟨e, ha, -, ht, hdowns⟩ := hmoves up shown none [some up] rfl hp (by decide) hm
  have he : shown.after [some up] = some { shown with buffer := ⟨"one\ntwo".toList, 3⟩ } := by
    decide +kernel
  obtain rfl := Option.some.inj (ha.symm.trans he)
  have hd : downsToDraft { shown with buffer := ⟨"one\ntwo".toList, 3⟩ } = 2 := by decide +kernel
  obtain ⟨e', hd', -, ht'⟩ := hdowns {}
  rw [hd] at hd'
  exact ⟨hk, hp, _, ha, ht.trans (by decide +kernel), hd, e', hd', ht'⟩

end Editor

end RConsole
