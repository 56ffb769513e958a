import RConsole.Proofs.Console.Standing
import RConsole.Proofs.Prompt.Trace
import RConsole.Proofs.Screen.Newlines

namespace RConsole

theorem Mode.spec_text (mode : Mode) : '\n' ∉ mode.spec.text.toList := by
  cases mode <;> decide

theorem ModeMachine.newline_prompt_iff (m : ModeMachine) (hint : String) :
    '\n' ∈ (m.beginCycle hint).1.text.toList ↔
      ∃ text, Hint.classify hint = .other text ∧ '\n' ∈ text.toList := by
  rw [beginCycle_spec]
  cases Hint.classify hint with
  | topLevel => simp [Mode.spec_text]
  | browser => simp [Mode.spec_text]
  | other text => simp [Mode.subPrompt]

theorem Buffer.newline_lines {b : Buffer} {line : String} (h : line ∈ b.lines) :
    '\n' ∉ line.toList := by
  obtain ⟨cs, hcs, rfl⟩ := List.mem_map.mp h
  rw [String.toList_ofList]
  exact fun hn => (mem_of_mem_splitLines hcs hn).2 rfl

def Frame.Unbroken (hint : String) (width : Nat) (f : Frame) : Prop :=
  (∀ text, Hint.classify hint = .other text → '\n' ∉ text.toList) ∧
    ∀ text, f.status = some text → '\n' ∉ text.toList.take width

theorem Act.Of.lines {d : Dressing} {a : Act} {f : Frame} (h : Of d a) (hf : a.frame? = some f) :
    ∃ b : Buffer, f.lines = b.lines := by
  cases h with
  | rendered b => cases hf; exact ⟨b, rfl⟩
  | finished b => cases hf; exact ⟨b, rfl⟩
  | interleaved chunk b => cases hf; exact ⟨b, rfl⟩
  | bare h => rw [h] at hf; cases hf

namespace Console

variable {f : Frame} {width : Nat}

theorem newline_shownLines {b : Buffer} (hl : f.lines = b.lines) :
    ∀ line ∈ f.shownLines, '\n' ∉ line := by
  intro line hm
  rcases Frame.mem_shownLines hm with rfl | ⟨text, ht, rfl⟩
  · exact List.not_mem_nil
  · exact Buffer.newline_lines (hl ▸ ht)

theorem Round.shown {r : Round} {a : Act} (ha : a ∈ since r.start.1 r.finish.1)
    (hf : a.frame? = some f) : f.prompt = r.spec.text ∧ ∃ b : Buffer, f.lines = b.lines := by
  obtain ⟨new, he, hof⟩ := adds_cycle r.hint r.start
  have hnew : since r.start.1 r.finish.1 = new := since_of_acts he
  have h := hof a (hnew ▸ ha)
  exact ⟨(h.dressed hf).1, h.lines hf⟩

theorem rounds_hint (hint : String) (s : Keyed) : ∀ r ∈ rounds hint s, r.hint = hint := by
  fun_induction rounds hint s with
  | case1 s h ih => exact List.forall_mem_cons.mpr ⟨rfl, ih⟩
  | case2 s h => exact List.forall_mem_cons.mpr ⟨rfl, by simp⟩

theorem turn_rounds_hint {hint : Utf8.Bytes} {size : Int} {s : Keyed} {r : Round}
    (hr : r ∈ (Turn.read hint size).rounds s) : r.hint = cString hint := by
  simp only [Turn.rounds] at hr
  split at hr
  · exact rounds_hint _ _ r hr
  · cases hr

theorem newline_rows_iff {r : Round} {a : Act} (ha : a ∈ since r.start.1 r.finish.1)
    (hf : a.frame? = some f) (hw : 1 ≤ width) :
    (∀ row ∈ (f.layout width).rows, '\n' ∉ row.text) ↔ f.Unbroken r.hint width := by
  obtain ⟨hp, b, hl⟩ := Round.shown ha hf
  have hwidth : max width 1 = width := by omega
  have hshows : (∃ row ∈ (f.layout width).rows, '\n' ∈ row.text) ↔ _ := f.shows_iff (by decide)
  have hprompt := r.start.1.modes.newline_prompt_iff r.hint
  have hlines := newline_shownLines hl
  rw [hp, hwidth] at hshows
  change '\n' ∈ r.spec.text.toList ↔ _ at hprompt
  rw [hprompt] at hshows
  unfold Frame.Unbroken
  constructor
  · intro h
    refine ⟨fun text ht hn => ?_, fun text ht hn => ?_⟩
    · obtain ⟨row, hr, hm⟩ := hshows.mpr (.inl ⟨text, ht, hn⟩)
      exact h row hr hm
    · obtain ⟨row, hr, hm⟩ := hshows.mpr (.inr (.inr ⟨text, ht, hn⟩))
      exact h row hr hm
  · rintro ⟨hask, hstatus⟩ row hr hm
    rcases hshows.mp ⟨row, hr, hm⟩ with ⟨text, ht, hn⟩ | ⟨line, hline, hn⟩ | ⟨text, ht, hn⟩
    · exact hask text ht hn
    · exact hlines line hline hn
    · exact hstatus text ht hn

/-- No row of a prompt is wider than the screen. Each is one row of the screen, and the display knows
in which one it left the cursor, where neither the text R asked with nor the status has a newline,
and only there. -/
theorem prompt_rows (hint : Utf8.Bytes) (size : Int) (s : Keyed) (r : Round)
    (hr : r ∈ (Turn.read hint size).rounds s) (a : Act) (ha : a ∈ since r.start.1 r.finish.1)
    (f : Frame) (hf : a.frame? = some f) (width : Nat) (hw : 1 ≤ width) :
    (∀ row ∈ (f.layout width).rows, row.text.length ≤ width) ∧
      ((∀ row ∈ (f.layout width).rows, '\n' ∉ row.text) ↔ f.Unbroken (cString hint) width) ∧
      ∀ (t : Tty) (d : Display) (top : Nat), t.columns = width → d.columns = width →
        d.cursorRow < 65536 → t.row = top + d.cursorRow → (f.layout width).rows.length < 65536 →
          ((t.drawAll (d.draw f).1).row = top + (d.draw f).2.cursorRow ↔
            f.Unbroken (cString hint) width) := by
  have hwidth : max width 1 = width := by omega
  have hrows := newline_rows_iff ha hf hw
  rw [turn_rounds_hint hr] at hrows
  refine ⟨fun row hrow => ?_, hrows, fun t d top hc hd hcursor htop hlen => ?_⟩
  · have hle := Frame.width_row hrow
    omega
  · subst hd
    exact (Tty.draw_row_iff f hc hcursor htop hlen).trans hrows

theorem rounds_unspacedPrompt (hint : Utf8.Bytes)
    (hl : (cycle (cString hint) ((unspacedPrompt.1.hold true).lead, unspacedPrompt.2)).1.isAgain = false) :
    (Turn.read hint 80).rounds unspacedPrompt = [⟨cString hint, (unspacedPrompt.1.hold true).lead, unspacedPrompt.2⟩] := by
  have ha : unspacedPrompt.1.admits 80 = true := by decide +kernel
  let r : Round := ⟨cString hint, (unspacedPrompt.1.hold true).lead, unspacedPrompt.2⟩
  exact (Turn.rounds_read (r := r) ha rfl rfl).trans (rounds_last hl)

theorem prompt_rows_query :
    let frame : Frame := ⟨"b: ", none, [""], (0, 0), none⟩
    let r : Round := ⟨cString [0x62, 0x3A, 0x20], (unspacedPrompt.1.hold true).lead, unspacedPrompt.2⟩
    let t : Tty := { columns := 20, raw := true }
    let d : Display := { width := 20 }
    r ∈ (Turn.read [0x62, 0x3A, 0x20] 80).rounds unspacedPrompt ∧
      .rendered frame ∈ since r.start.1 r.finish.1 ∧
      (∀ row ∈ (frame.layout 20).rows, '\n' ∉ row.text) ∧
      (t.drawAll (d.draw frame).1).row = (d.draw frame).2.cursorRow := by
  intro frame r t d
  have hr : r ∈ (Turn.read [0x62, 0x3A, 0x20] 80).rounds unspacedPrompt := by
    rw [rounds_unspacedPrompt _ (by decide +kernel)]
    exact List.mem_singleton_self r
  have ha : .rendered frame ∈ since r.start.1 r.finish.1 := by decide +kernel
  have hu : frame.Unbroken (cString [0x62, 0x3A, 0x20]) 20 := by
    have hk : Hint.classify (cString [0x62, 0x3A, 0x20]) = .other "b: " := by decide +kernel
    refine ⟨fun text ht => ?_, fun text ht => by cases ht⟩
    rw [hk] at ht
    cases ht
    decide
  obtain ⟨-, hrows, hrow⟩ := prompt_rows _ 80 unspacedPrompt r hr _ ha frame rfl 20 (by decide)
  refine ⟨hr, ha, hrows.mpr hu, ?_⟩
  have hend := (hrow t d 0 rfl rfl (by decide) rfl (by decide +kernel)).mpr hu
  rwa [Nat.zero_add] at hend

theorem prompt_rows_two_lines :
    let frame : Frame := ⟨"a\nb: ", none, [""], (0, 0), none⟩
    let r : Round := ⟨cString [0x61, 0x0A, 0x62, 0x3A, 0x20], (unspacedPrompt.1.hold true).lead, unspacedPrompt.2⟩
    let t : Tty := { columns := 20, raw := true }
    let d : Display := { width := 20 }
    r ∈ (Turn.read [0x61, 0x0A, 0x62, 0x3A, 0x20] 80).rounds unspacedPrompt ∧
      .rendered frame ∈ since r.start.1 r.finish.1 ∧
      (∃ row ∈ (frame.layout 20).rows, '\n' ∈ row.text) ∧
      (t.drawAll (d.draw frame).1).row = 1 ∧ (d.draw frame).2.cursorRow = 0 := by
  intro frame r t d
  refine ⟨?_, by decide +kernel, by decide +kernel, by decide +kernel, by decide +kernel⟩
  rw [rounds_unspacedPrompt _ (by decide +kernel)]
  exact List.mem_singleton_self r

end Console

end RConsole
