import RConsole.Proofs.Edit.Pressing

namespace RConsole

def Command.keepsText : Command → Bool
  | .left | .right | .lineStart | .lineEnd | .submit | .cancel | .clearScreen | .suspend | .noop => true
  | _ => false

def KeyCode.startsInsert : KeyCode → Bool
  | .char 'i' | .char 'a' | .char 'I' | .char 'A' => true
  | _ => false

namespace Keymap

variable {m : Keymap} {k : Key}

inductive Commands (k : Key) : Command → Prop
  | keepsText {command : Command} (h : command.keepsText = true) : Commands k command
  | delete (h : k.code = .char 'x') : Commands k .delete
  | deleteOrEnd (h : k.code = .char 'd') (hc : k.mods.ctrl = true) : Commands k .deleteOrEnd
  | newline (h : k.code = .enter) (ha : k.mods.alt = true) : Commands k .newline
  | up (h : k.code = .up ∨ k.code = .char 'k') : Commands k .up
  | down (h : k.code = .down ∨ k.code = .char 'j') : Commands k .down

theorem commands_common {command : Command} (h : common? k = some command) :
    Commands k command := by
  obtain ⟨code, mods⟩ := k
  cases code with
  | enter =>
    cases h
    dsimp only
    split
    · exact .newline rfl ‹_›
    · exact .keepsText rfl
  | char c =>
    simp only [common?] at h
    split at h
    · cases h
    · rename_i hctrl
      split at h
      · cases h; exact .keepsText rfl
      · cases h; exact .deleteOrEnd rfl (by simpa using hctrl)
      · cases h; exact .keepsText rfl
      · cases h; exact .keepsText rfl
      · cases h
  | _ => cases h

theorem commands_viCommand (k : Key) : Commands k (viCommand k.code).1 := by
  obtain ⟨code, mods⟩ := k
  dsimp only
  unfold viCommand
  split
  all_goals first
    | exact .keepsText rfl
    | exact .delete rfl
    | exact .up (by simp)
    | exact .down (by simp)

theorem eq_of_command (h : m.viState? = some .command) : m = ⟨.vi, .command⟩ := by
  obtain ⟨mode, vi⟩ := m
  cases mode with
  | emacs => cases h
  | vi =>
    cases h
    rfl

theorem map_commands (h : m.viState? = some .command) (k : Key) : Commands k (m.map k).1 := by
  rw [eq_of_command h]
  unfold map
  split
  · exact commands_common ‹_›
  · exact commands_viCommand k

theorem viCommand_state {code : KeyCode} (h : code.startsInsert = false) :
    (viCommand code).2 = .command := by
  unfold viCommand
  split
  all_goals first | rfl | cases h

theorem map_stays (h : m.viState? = some .command) (hk : k.code.startsInsert = false) :
    (m.map k).2.viState? = some .command := by
  rw [eq_of_command h]
  unfold map
  split
  · rfl
  · exact congrArg some (viCommand_state hk)

theorem map_esc (hm : m.mode = .vi) (hk : k.code = .esc) : (m.map k).2.viState? = some .command := by
  obtain ⟨mode, vi⟩ := m
  obtain ⟨code, mods⟩ := k
  cases hm
  cases hk
  cases vi <;> rfl

theorem map_mode (m : Keymap) (k : Key) : (m.map k).2.mode = m.mode := by
  unfold map
  split
  · rfl
  · split
    · rfl
    · split <;> rfl
    · rfl

theorem map_insert (mode : EditingMode) (h : k.code ≠ .esc) :
    map ⟨mode, .insert⟩ k = ((common? k).getD (emacs k), ⟨mode, .insert⟩) := by
  unfold map
  cases common? k with
  | some command => rfl
  | none =>
    cases mode with
    | emacs => rfl
    | vi => exact if_neg h

end Keymap

def Step.withKeymap (m : Keymap) : Step → Step
  | goOn e request => goOn { e with keymap := m } request
  | done outcome => done outcome

namespace Editor

variable {e e' start : Editor} {k : Key} {request : Option Request} {command : Command}

theorem edit_keymap (e : Editor) (m : Keymap) (command : Command) :
    edit { e with keymap := m } command = { e.edit command with keymap := m } := by
  cases command with
  | up =>
    simp only [edit, goUp]
    split
    · rfl
    · split <;> rfl
  | down =>
    simp only [edit, goDown]
    split
    · rfl
    · split <;> rfl
  | newline =>
    simp only [edit]
    split <;> rfl
  | complete =>
    simp only [edit, complete]
    split
    · split <;> rfl
    · rfl
  | _ => rfl

theorem apply_keymap (e : Editor) (m : Keymap) (command : Command) :
    apply { e with keymap := m } command = (e.apply command).withKeymap m := by
  have he := e.edit_keymap m
  cases command with
  | submit => rfl
  | cancel => rfl
  | deleteOrEnd =>
    simp only [apply]
    split
    · rfl
    · rw [he]
      rfl
  | _ =>
    simp only [apply, he]
    rfl

theorem press_insert {mode : EditingMode} (he : e.keymap = ⟨mode, .insert⟩) (mode' : EditingMode)
    (h : k.code ≠ .esc) :
    press { e with keymap := ⟨mode', .insert⟩ } k = (e.press k).withKeymap ⟨mode', .insert⟩ := by
  have ht : modeTarget? { e with keymap := ⟨mode', .insert⟩ } k = e.modeTarget? k := by
    unfold modeTarget? takesModeKeys
    rw [he]
    cases mode <;> cases mode' <;> rfl
  unfold press
  rw [ht]
  split
  · rfl
  · rw [he]
    simp only [Keymap.map_insert _ h, apply_keymap]
    cases e.apply ((Keymap.common? k).getD (Keymap.emacs k)) <;> rfl

theorem press_keymap (h : e.press k = .goOn e' request) : e'.keymap = (e.keymap.map k).2 := by
  rw [press_goOn h, edit_keymap]

theorem mode_after {keys : List (Option Key)} (h : start.after keys = some e) :
    e.keymap.mode = start.keymap.mode := by
  refine after_induct (P := fun _ e => e.keymap.mode = start.keymap.mode) rfl ?_ h
  intro keys key e e' _ _ hlast hm
  rcases hlast with rfl | ⟨k, request, hp⟩
  · exact hm
  · rw [press_keymap hp, Keymap.map_mode, hm]

theorem command_keys {keys : List (Option Key)} (hs : start.keymap.viState? = some .command)
    (hkeys : ∀ k, some k ∈ keys → k.code.startsInsert = false) (h : start.after keys = some e) :
    e.keymap.viState? = some .command := by
  induction keys generalizing start with
  | nil =>
    cases h
    exact hs
  | cons key keys ih =>
    have hrest : ∀ k, some k ∈ keys → k.code.startsInsert = false :=
      fun k hk => hkeys k (List.mem_cons_of_mem key hk)
    cases key with
    | none => exact ih hs hrest h
    | some k =>
      simp only [after] at h
      split at h
      · rename_i e' request hp
        refine ih ?_ hrest h
        rw [press_keymap hp]
        exact Keymap.map_stays hs (hkeys k List.mem_cons_self)
      · cases h

theorem command_after {before middle : List (Option Key)} {esc : Key}
    (hm : start.keymap.mode = .vi) (hesc : esc.code = .esc)
    (hmiddle : ∀ k, some k ∈ middle → k.code.startsInsert = false)
    (h : start.after (before ++ some esc :: middle) = some e) :
    e.keymap.viState? = some .command := by
  rw [after_append] at h
  obtain ⟨e₀, h₀, h⟩ := Option.bind_eq_some_iff.mp h
  simp only [after] at h
  split at h
  · rename_i e₁ request hp
    refine command_keys ?_ hmiddle h
    rw [press_keymap hp]
    exact Keymap.map_esc ((mode_after h₀).trans hm) hesc
  · cases h

inductive Alters (e : Editor) (k : Key) : List Char → Prop
  | keep : Alters e k e.buffer.chars
  | delete {c : Char} {rest : List Char}
    (hk : k.code = .char 'x' ∨ k.code = .char 'd' ∧ k.mods.ctrl = true)
    (h : e.buffer.after = c :: rest) : Alters e k (e.buffer.before ++ rest)
  | newline (hk : k.code = .enter) (ha : k.mods.alt = true) (hm : e.spec.multiline = true) :
    Alters e k (e.buffer.before ++ '\n' :: e.buffer.after)
  | back {walk : Recall} (hk : k.code = .up ∨ k.code = .char 'k')
    (h : e.walk.back? e.buffer.text = some walk) : Alters e k walk.shown.toList
  | forth {walk : Recall} (hk : k.code = .down ∨ k.code = .char 'j')
    (h : e.walk.forth? = some walk) : Alters e k walk.shown.toList

theorem chars_keepsText (h : command.keepsText = true) : (e.edit command).buffer.chars = e.buffer.chars := by
  cases command <;> first | rfl | cases h

theorem alters_delete (hk : k.code = .char 'x' ∨ k.code = .char 'd' ∧ k.mods.ctrl = true) :
    e.Alters k e.buffer.delete.2.chars := by
  unfold Buffer.delete
  split
  · exact .keep
  · rename_i h
    have hlt : e.buffer.cursor < e.buffer.chars.length := by omega
    have hafter : e.buffer.after = e.buffer.chars[e.buffer.cursor] ::
        e.buffer.chars.drop (e.buffer.cursor + 1) := List.drop_eq_getElem_cons hlt
    dsimp only
    rw [List.eraseIdx_eq_take_drop_succ]
    exact .delete hk hafter

theorem alters_goes {moved : Bool × Buffer} {next : Option Recall}
    (ht : moved.2.text = e.buffer.text)
    (hn : ∀ walk, next = some walk → e.Alters k walk.shown.toList) (h : e.Goes moved next e') :
    e.Alters k e'.buffer.chars := by
  cases h with
  | line =>
    have hc : moved.2.chars = e.buffer.chars := String.ofList_injective ht
    dsimp only
    rw [hc]
    exact .keep
  | text _ hw => exact hn _ hw
  | stay => exact .keep

theorem alters_edit (h : Keymap.Commands k command) : e.Alters k (e.edit command).buffer.chars := by
  cases h with
  | keepsText h =>
    rw [chars_keepsText h]
    exact .keep
  | delete h => exact alters_delete (.inl h)
  | deleteOrEnd h hc => exact alters_delete (.inr ⟨h, hc⟩)
  | newline h ha =>
    simp only [edit]
    split
    · exact .newline h ha ‹_›
    · exact .keep
  | up h => exact alters_goes e.buffer.text_up (fun _ => .back h) e.goes_up
  | down h => exact alters_goes e.buffer.text_down (fun _ => .forth h) e.goes_down

theorem alters_press (h : e.keymap.viState? = some .command) (hp : e.press k = .goOn e' request) :
    e.Alters k e'.buffer.chars := by
  rw [press_goOn hp, edit_keymap]
  exact alters_edit (Keymap.map_commands h k)

theorem press_not_mode (h : e.keymap.viState? = some .command) (target : Mode) :
    e.press k ≠ .done (.modeKey target) := by
  have ht : e.modeTarget? k = none := by
    unfold modeTarget? takesModeKeys
    rw [h]
    simp
  unfold press
  rw [ht]
  dsimp only
  generalize e.keymap.map k = mapped
  obtain ⟨command, m⟩ := mapped
  intro hd
  cases command with
  | deleteOrEnd =>
    simp only [apply] at hd
    split at hd <;> cases hd
  | _ => cases hd

end Editor

end RConsole
