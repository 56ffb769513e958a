import RConsole.Proofs.Console.Standing
import RConsole.Proofs.Console.TwinTurns
import RConsole.Proofs.Edit.ViKeys

namespace RConsole

def Editor.OtherMode (e e' : Editor) : Prop :=
  ∃ mode mode', e.keymap = ⟨mode, .insert⟩ ∧ e' = { e with keymap := ⟨mode', .insert⟩ }

theorem Editor.follows_otherMode : Follows (fun k => k.code ≠ .esc) OtherMode where
  buffer := by
    rintro e _ ⟨mode, mode', -, rfl⟩
    rfl
  press := by
    rintro e _ k ⟨mode, mode', he, rfl⟩ hk
    rw [press_insert he mode' hk]
    cases hp : e.press k with
    | done outcome => exact .done outcome
    | goOn e₁ request =>
      refine .goOn ⟨mode, mode', ?_, rfl⟩ request
      rw [press_keymap hp, he, Keymap.map_insert mode hk]

namespace Console

theorem readLine_modes (d : Dressing) (spec : Spec) (mode mode' : EditingMode)
    (entries : List String) (m m' : Keymap) {s : Keyed}
    (hkeys : ∀ k, some k ∈ Input.keys s.2 → k.code ≠ .esc) :
    Same KeyedTwins (readLine d (.startOver spec mode entries m) s)
      (readLine d (.startOver spec mode' entries m') s) :=
  readLine_follows d Editor.follows_otherMode ⟨mode, mode', rfl, rfl⟩ hkeys ⟨rfl, rfl⟩

theorem ensureSettings_withKeymap (m : Keymap) (c : Console) :
    (c.withKeymap m).ensureSettings = (c.ensureSettings.1, c.ensureSettings.2.withKeymap m) := by
  have hs : (c.withKeymap m).settings = c.settings := rfl
  unfold ensureSettings
  rw [hs]
  cases c.settings <;> rfl

theorem cycle_withKeymap (hint : String) (m : Keymap) (s : Keyed) :
    Same KeyedTwins (cycle hint (s.1.withKeymap m, s.2)) (cycle hint s) := by
  have hs := ensureSettings_withKeymap m s.1
  apply cycle_begun hint
  · simp only [dressing, hs]
    rfl
  · simp only [editor, hs]
    rfl
  · rfl
  · refine ⟨?_, rfl⟩
    simp only [begun, hs]
    rfl

theorem KeyedTwins.terminal {s t : Keyed} (h : KeyedTwins s t) :
    s.1.terminal = t.1.terminal ∧ s.2 = t.2 :=
  ⟨h.1.same Console.terminal fun _ => rfl, h.2⟩

/-- Without Esc both modes have the same outcome and draw the same. From an Esc on nothing is typed
until a key leads back to insert state, and each cycle starts in that state. -/
theorem editing_modes :
    (∀ (d : Dressing) (spec : Spec) (entries : List String) (m : Keymap) (s : Keyed),
      (∀ k, some k ∈ Input.keys s.2 → k.code ≠ .esc) →
        let vi := readLine d (.startOver spec .vi entries m) s
        let emacs := readLine d (.startOver spec .emacs entries m) s
        vi.1 = emacs.1 ∧ vi.2.1.terminal = emacs.2.1.terminal ∧ vi.2.2 = emacs.2.2) ∧
    (∀ (spec : Spec) (entries : List String) (m : Keymap) (before middle : List (Option Key))
      (esc : Key) (e : Editor), esc.code = .esc →
        (∀ k, some k ∈ middle → k.code.startsInsert = false) →
        (Editor.startOver spec .vi entries m).after (before ++ some esc :: middle) = some e →
        e.keymap.viState? = some .command ∧
          ∀ k, (∀ c, (e.keymap.map k).1 ≠ .insert c) ∧
            (∀ target, e.press k ≠ .done (.modeKey target)) ∧
            ∀ e' request, e.press k = .goOn e' request → e.Alters k e'.buffer.chars) ∧
    (∀ (spec : Spec) (mode : EditingMode) (entries : List String) (m : Keymap),
      (Editor.startOver spec mode entries m).keymap = ⟨mode, .insert⟩) ∧
    ∀ (hint : String) (m : Keymap) (s : Keyed),
      let t := cycle hint (s.1.withKeymap m, s.2)
      t.1 = (cycle hint s).1 ∧ t.2.1.terminal = (cycle hint s).2.1.terminal ∧
        t.2.2 = (cycle hint s).2.2 := by
  refine ⟨fun d spec entries m s hkeys => ?_, fun spec entries m before middle esc e hesc hmiddle he => ?_,
    fun spec mode entries m => rfl, fun hint m s => ?_⟩
  · obtain ⟨hr, ht⟩ := readLine_modes d spec .vi .emacs entries m m hkeys
    exact ⟨hr, ht.terminal⟩
  · have hc := Editor.command_after rfl hesc hmiddle he
    refine ⟨hc, fun k => ⟨fun c hm => ?_, Editor.press_not_mode hc, fun e' request => Editor.alters_press hc⟩⟩
    have hk := Keymap.map_commands hc k
    rw [hm] at hk
    cases hk with
    | keepsText h => cases h
  · obtain ⟨hr, ht⟩ := cycle_withKeymap hint m s
    exact ⟨hr, ht.terminal⟩

theorem editing_modes_typed :
    let d : Dressing := ⟨"r$> ", none, none⟩
    let keys : List Input := [.key ⟨.char 'h', {}⟩, .idle 1, .redraw, .key ⟨.char 'a', { ctrl := true }⟩,
      .key ⟨.char 'o', { shift := true }⟩, .key ⟨.char 'i', { alt := true }⟩, .key ⟨.enter, {}⟩]
    let vi := readLine d (.startOver Mode.normal.spec .vi ["old"] {}) (unspacedPrompt.1, keys)
    let emacs := readLine d (.startOver Mode.normal.spec .emacs ["old"] {}) (unspacedPrompt.1, keys)
    let start : Editor := .startOver Mode.normal.spec .vi ["old"] {}
    let before : List (Option Key) := [some (.ofChar 'a'), none, some (.ofChar 'b')]
    vi.1 = .ok (.submitted "oh") ∧ vi.1 = emacs.1 ∧ vi.2.1.terminal = emacs.2.1.terminal ∧
      ∃ e, start.after (before ++ [some ⟨.esc, { alt := true }⟩, none, some (.ofChar '?')]) = some e ∧
        e.keymap.viState? = some .command ∧
        e.Alters ⟨.char 'x', { ctrl := true }⟩ ['a'] ∧ e.Alters (.ofChar 'k') ['o', 'l', 'd'] := by
  intro d keys vi emacs start before
  obtain ⟨hmodes, hcommand, -, -⟩ := editing_modes
  have hkeys : ∀ k, some k ∈ Input.keys keys → k.code ≠ .esc := by
    intro k hk
    have hlist : Input.keys keys = [some ⟨.char 'h', {}⟩, none, some ⟨.char 'a', { ctrl := true }⟩,
      some ⟨.char 'o', { shift := true }⟩, some ⟨.char 'i', { alt := true }⟩, some ⟨.enter, {}⟩] := rfl
    rw [hlist] at hk
    simp only [List.mem_cons, Option.some.injEq, List.not_mem_nil, reduceCtorEq, or_false,
      false_or] at hk
    rcases hk with rfl | rfl | rfl | rfl | rfl <;> decide
  obtain ⟨hr, ht, -⟩ := hmodes d Mode.normal.spec ["old"] {} (unspacedPrompt.1, keys) hkeys
  let e : Editor := { start with buffer := ⟨['a', 'b'], 1⟩, keymap := ⟨.vi, .command⟩ }
  have hmiddle : ∀ k, some k ∈ [none, some (Key.ofChar '?')] → k.code.startsInsert = false := by
    intro k hk
    simp only [List.mem_cons, Option.some.injEq, List.not_mem_nil, reduceCtorEq, or_false,
      false_or] at hk
    rw [hk]
    rfl
  have he : start.after (before ++ some ⟨.esc, { alt := true }⟩ :: [none, some (.ofChar '?')]) = some e := by
    decide +kernel
  obtain ⟨hc, hpress⟩ := hcommand Mode.normal.spec ["old"] {} before _ ⟨.esc, { alt := true }⟩ e rfl
    hmiddle he
  refine ⟨by decide +kernel, hr, ht, e, he, hc, ?_, ?_⟩
  · exact (hpress _).2.2 { e with buffer := ⟨['a'], 1⟩ } none (by decide +kernel)
  · exact (hpress _).2.2
      { e with buffer := ⟨['o', 'l', 'd'], 3⟩, walk := ⟨["old"], 0, "ab"⟩ } none (by decide +kernel)

end Console

end RConsole
