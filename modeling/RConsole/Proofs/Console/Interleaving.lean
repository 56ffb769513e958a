import RConsole.Proofs.Console.FailedCycles
import RConsole.Proofs.Screen.Cuts

namespace RConsole

namespace Console

variable {c : Console} {s : Keyed} {frame : Frame} {chunks : List Chunk} {message : String}

theorem interleave_ok {chunk : Chunk} (h : (c.act .interleave (.interleaved chunk frame)).1 = .ok ()) :
    interleave frame (chunk :: chunks) c =
      interleave frame chunks (c.act .interleave (.interleaved chunk frame)).2 := by
  rw [interleave]
  split <;> simp_all

theorem interleave_error {chunk : Chunk}
    (h : (c.act .interleave (.interleaved chunk frame)).1 = .error message) :
    interleave frame (chunk :: chunks) c =
      (.error message, (c.act .interleave (.interleaved chunk frame)).2) := by
  rw [interleave]
  split <;> simp_all

theorem interleave_append (h : (interleave frame chunks c).1 = .ok ()) (later : List Chunk) :
    interleave frame (chunks ++ later) c = interleave frame later (interleave frame chunks c).2 := by
  induction chunks generalizing c with
  | nil => rfl
  | cons chunk chunks ih =>
    cases hc : (c.act .interleave (.interleaved chunk frame)).1 with
    | ok _ =>
      rw [interleave_ok hc] at h
      rw [List.cons_append, interleave_ok hc, interleave_ok hc]
      exact ih h
    | error message =>
      rw [interleave_error hc] at h
      cases h

theorem acts_act_ok {method : Method} {a : Act} (h : (c.act method a).1 = .ok ()) :
    (c.act method a).2.acts = c.acts ++ [a] :=
  act_ok (Prod.ext h rfl)

theorem acts_act_error {method : Method} {a : Act} (h : (c.act method a).1 = .error message) :
    (c.act method a).2.acts = c.acts := by
  have hc := acts_call method c
  unfold act at h ⊢
  split at h
  · cases h
  · rename_i he
    rw [he] at hc
    exact hc

theorem acts_interleave (h : (interleave frame chunks c).1 = .ok ()) :
    (interleave frame chunks c).2.acts = c.acts ++ chunks.map (.interleaved · frame) := by
  induction chunks generalizing c with
  | nil => simp [interleave]
  | cons chunk chunks ih =>
    cases hc : (c.act .interleave (.interleaved chunk frame)).1 with
    | ok _ =>
      rw [interleave_ok hc] at h ⊢
      rw [ih h, acts_act_ok hc, List.append_assoc, List.map_cons, List.singleton_append]
    | error message =>
      rw [interleave_error hc] at h
      cases h

theorem since_check (h : ∀ message, (check frame s).1 ≠ .failed message) :
    ∃ waiting, since s.1 (check frame s).2.1 =
      s.1.queue.map (.interleaved · frame) ++ [.asked waiting, .checked] := by
  have hi : (interleave frame s.1.queue { s.1 with queue := [] }).1 = .ok () →
      (interleave frame s.1.queue { s.1 with queue := [] }).2.acts =
        s.1.acts ++ s.1.queue.map (.interleaved · frame) := acts_interleave
  -- The queue is emptied first, so what `check` asks for next is what R queued meanwhile.
  unfold check at h ⊢
  generalize interleave frame s.1.queue { s.1 with queue := [] } = r at h hi ⊢
  obtain ⟨result, c⟩ := r
  cases result with
  | error message => exact absurd rfl (h message)
  | ok _ =>
    have ha : ((c.perform (.asked c.queue)).act .ready .checked).1 = .ok () →
        ((c.perform (.asked c.queue)).act .ready .checked).2.acts =
          (c.perform (.asked c.queue)).acts ++ [.checked] := acts_act_ok
    dsimp only at h hi ⊢
    generalize (c.perform (.asked c.queue)).act .ready .checked = q at h ha ⊢
    obtain ⟨result, c'⟩ := q
    cases result with
    | error message => exact absurd rfl (h message)
    | ok _ =>
      refine ⟨c.queue, since_of_acts ?_⟩
      dsimp only at ha ⊢
      rw [ha rfl, acts_perform, hi rfl, List.append_assoc, List.append_assoc]
      rfl

inductive WaitChecks (frame : Frame) : Keyed → Keyed → Prop where
  | first (s : Keyed) : WaitChecks frame s s
  | later {s t : Keyed} (h : (check frame s).1 = .notReady)
      (ht : WaitChecks frame ((pump frame).step (check frame s).2).2 t) : WaitChecks frame s t

inductive EditChecks (d : Dressing) : Editor → Keyed → Frame → Keyed → Prop where
  | wait {e : Editor} {s t : Keyed}
      (h : (s.1.act .render (.rendered (d.frame e.buffer))).1 = .ok ())
      (ht : WaitChecks (d.frame e.buffer) ((s.1.act .render (.rendered (d.frame e.buffer))).2, s.2) t) :
      EditChecks d e s (d.frame e.buffer) t
  | redraw {e : Editor} {s t : Keyed} {frame : Frame}
      (h : (nextKey (d.frame e.buffer) s).1 = .ok none)
      (ht : EditChecks d e (nextKey (d.frame e.buffer) s).2 frame t) : EditChecks d e s frame t
  | key {e e' : Editor} {s t : Keyed} {frame : Frame} {k : Key} {request : Option Request}
      (h : (nextKey (d.frame e.buffer) s).1 = .ok (some k)) (hp : e.press k = .goOn e' request)
      (hs : (((nextKey (d.frame e.buffer) s).2.1.withKeymap e'.keymap).serve request).1 = .ok ())
      (ht : EditChecks d e'
        ((((nextKey (d.frame e.buffer) s).2.1.withKeymap e'.keymap).serve request).2,
          (nextKey (d.frame e.buffer) s).2.2) frame t) :
      EditChecks d e s frame t

def Round.entered (r : Round) : Keyed :=
  (((r.start.1.begun r.hint).act .enter .entered).2.withKeymap r.editor.keymap, r.start.2)

def Round.picture (r : Round) : Frame := r.dressing.frame r.editor.buffer

def Round.drawn (r : Round) : Keyed :=
  ((r.entered.1.act .render (.rendered r.picture)).2, r.entered.2)

structure Round.Checks (r : Round) (frame : Frame) (t : Keyed) : Prop where
  enters : ((r.start.1.begun r.hint).act .enter .entered).1 = .ok ()
  edits : EditChecks r.dressing r.editor r.entered frame t

theorem Round.checks_second {r : Round}
    (he : ((r.start.1.begun r.hint).act .enter .entered).1 = .ok ())
    (hr : (r.entered.1.act .render (.rendered r.picture)).1 = .ok ())
    (hn : (check r.picture r.drawn).1 = .notReady) :
    r.Checks r.picture ((pump r.picture).step (check r.picture r.drawn).2).2 := by
  have hw := WaitChecks.later hn (.first ((pump r.picture).step (check r.picture r.drawn).2).2)
  exact ⟨he, .wait hr hw⟩

/-- Every chunk is given the newline that it lacks, so the chunks show what their text would only if each
one that is followed by more of it ends a line. -/
theorem cuts_above_prompt (frame : Frame) (s : Keyed) (hne : s.1.queue ≠ [])
    (h : ∀ message, (check frame s).1 ≠ .failed message) :
    let texts := s.1.queue.map fun chunk => chunk.text.toList
    let new := since s.1 (check frame s).2.1
    (new.flatMap Act.above = rawText texts.flatten ↔ CutAtLines texts) ∧
    ∀ screen : Screen, frame.Fits screen.display.columns →
      screen.tty.columns = screen.display.columns → screen.tty.columns < 65536 →
      screen.display.cursorRow < 65536 →
      screen.takeAll new = screen.overwritten (new.flatMap Act.above) frame ∧
      (CutAtLines texts → ∀ stream,
        screen.takeAll new = screen.take (.interleaved ⟨String.ofList texts.flatten, stream⟩ frame)) := by
  intro texts new
  obtain ⟨waiting, hnew⟩ := since_check h
  have habove : new.flatMap Act.above = texts.flatMap rawText := by
    change (since s.1 (check frame s).2.1).flatMap Act.above = _
    rw [hnew, List.flatMap_append, Act.above_interleaved]
    exact List.append_nil _
  rw [habove]
  refine ⟨flatMap_rawText_eq_iff texts, ?_⟩
  intro screen hf hcols hlt hd
  have hall : screen.takeAll new = screen.takeAll (s.1.queue.map (.interleaved · frame)) := by
    change screen.takeAll (since s.1 (check frame s).2.1) = _
    rw [hnew]
    exact List.foldl_append
  rw [hall]
  constructor
  · exact Screen.takeAll_interleaved hne hf hcols hlt hd
  · intro hcut stream
    exact Screen.takeAll_interleaved_cut stream hne hcut hf hcols hlt hd

theorem cuts_above_prompt_lines :
    let s : Keyed := ({ eventfulPrompt.1 with queue := [⟨"a\n", .out⟩, ⟨"", .out⟩, ⟨"b", .out⟩] },
      [.key ⟨.enter, {}⟩])
    let new := since s.1 (check Screen.wrapped s).2.1
    let screen : Screen := ⟨{ width := 4 }, { columns := 4, raw := true }⟩
    s.1.queue ≠ [] ∧ (check Screen.wrapped s).1 = .ready ∧
      new.flatMap Act.above = "a\r\nb\r\n".toList ∧ Screen.wrapped.Fits screen.display.columns ∧
      screen.takeAll new = screen.take (.interleaved ⟨String.ofList "a\nb".toList, .out⟩ Screen.wrapped) := by
  intro s new screen
  have hne : s.1.queue ≠ [] := List.cons_ne_nil _ _
  have hready : (check Screen.wrapped s).1 = .ready := by decide +kernel
  have hfails : ∀ message, (check Screen.wrapped s).1 ≠ .failed message := by
    intro message
    rw [hready]
    exact Readiness.noConfusion
  obtain ⟨htext, hscreen⟩ := cuts_above_prompt Screen.wrapped s hne hfails
  have hcut : CutAtLines (s.1.queue.map fun chunk => chunk.text.toList) := by decide +kernel
  obtain ⟨-, hone⟩ := hscreen screen Screen.fits_wrapped rfl (by decide) (by decide)
  refine ⟨hne, hready, ?_, Screen.fits_wrapped, hone hcut .out⟩
  exact (htext.mpr hcut).trans (by decide +kernel)

/-- A message is told as its text and a newline, which comes to an empty line above the prompt. -/
theorem cuts_above_prompt_message :
    let s : Keyed := ({ eventfulPrompt.1 with
      engine := eventfulPrompt.1.engine.plan [[.message [0x62, 0x79, 0x65]]] }, [.idle 1, .key ⟨.enter, {}⟩])
    let r : Round := ⟨"> ", (s.1.hold true).lead, s.2⟩
    let t := ((pump r.picture).step (check r.picture r.drawn).2).2
    let new := since t.1 (check r.picture t).2.1
    let screen := Screen.take ⟨{ width := 20 }, { columns := 20, raw := true }⟩ (.rendered r.picture)
    (Turn.read [0x3E, 0x20] 80).rounds s = [r] ∧ r.Checks r.picture t ∧
      t.1.queue = [⟨"bye", .out⟩, ⟨"\n", .out⟩] ∧ (check r.picture t).1 = .ready ∧
      new.flatMap Act.above = "bye\r\n\r\n".toList ∧ rawText "bye\n".toList = "bye\r\n".toList ∧
      (screen.takeAll new).tty.row = 2 ∧
      (screen.take (.interleaved ⟨"bye\n", .out⟩ r.picture)).tty.row = 1 := by
  intro s r t new screen
  have hr : (Turn.read [0x3E, 0x20] 80).rounds s = [r] := by
    have ha : s.1.admits 80 = true := by decide +kernel
    have hh : cString [0x3E, 0x20] = r.hint := by decide +kernel
    rw [Turn.rounds_read ha hh rfl]
    exact rounds_last (by decide +kernel)
  have ht : r.Checks r.picture t :=
    Round.checks_second (by decide +kernel) (by decide +kernel) (by decide +kernel)
  exact ⟨hr, ht, by decide +kernel, by decide +kernel, by decide +kernel, by decide +kernel,
    by decide +kernel, by decide +kernel⟩

end Console

end RConsole
