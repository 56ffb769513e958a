import RConsole.Proofs.Console.Printing

namespace RConsole

open Utf8 (Bytes)

inductive Turn where
  | read (hint : Bytes) (size : Int)
  | write (bytes : Bytes) (code : Int)
  | message (bytes : Bytes)
  | request (mode : Mode)
  deriving DecidableEq, Repr

namespace Turn

def run : Turn → Keyed → List Reply × Keyed
  | read hint size, s => ([(Console.read hint size s).1], (Console.read hint size s).2)
  | write bytes code, s => ([], Console.between.write bytes code s)
  | message bytes, s => ([], Console.between.message bytes s)
  | request mode, s => ([], Console.between.request mode s)

def runAll : List Turn → Keyed → List Reply × Keyed
  | [], s => ([], s)
  | t :: turns, s => ((t.run s).1 ++ (runAll turns (t.run s).2).1, (runAll turns (t.run s).2).2)

end Turn

namespace Console

variable {c : Console} {s : Keyed} {reading : Bool}

def hold (reading : Bool) (c : Console) : Console :=
  { c with desk := { c.desk with running := c.desk.running.set .read reading } }

theorem Bound.hold (h : Bound reading c) (now : Bool) : Bound now (c.hold now) where
  quiet := h.quiet
  registered := h.registered
  running := by
    change c.desk.running.set .read now = _
    rw [h.running]
    rfl
  hooks := h.hooks
  settings := h.settings
  banner := h.banner

def admits (size : Int) (c : Console) : Bool :=
  c.desk.registered.contains .read && decide (0 < size) && !c.desk.running.read

theorem read_eq (hint : Bytes) (size : Int) (s : Keyed) :
    read hint size s =
      if s.1.admits size then
        let r := cycles.line (cString hint) ((s.1.hold true).lead, s.2)
        (.ofLine? size.toNat r.1, r.2.1.hold false, r.2.2)
      else (.untouched, s) := by
  have hr : Desk.isRegistered .read s = s.1.desk.registered.contains .read := rfl
  have hi : (HasDesk.desk s).running.has .read = s.1.desk.running.read := rfl
  unfold admits read Desk.read Desk.serve
  rw [hr, hi]
  cases hreg : s.1.desk.registered.contains .read with
  | false => rfl
  | true =>
    by_cases hs : 0 < size
    · have hn : ¬ size ≤ 0 := by omega
      cases hrun : s.1.desk.running.read with
      | false => simp only [Bool.not_true, Bool.false_or, hn, hs, decide_true, decide_false,
          Bool.false_eq_true, if_false, Bool.not_false, Bool.and_self, if_true]; rfl
      | true => simp [hn]
    · have hn : size ≤ 0 := by omega
      simp [hn, hs]

theorem read_idle (h : Bound false s.1) (hint : Bytes) (size : Int) :
    read hint size s =
      if size ≤ 0 then (.untouched, s)
      else
        let r := cycles.line (cString hint) ((s.1.hold true).lead, s.2)
        (.ofLine? size.toNat r.1, r.2.1.hold false, r.2.2) := by
  have ha : s.1.admits size = decide (0 < size) := by
    have hr : s.1.desk.registered.contains .read = true := h.registered .read
    have hi : s.1.desk.running.read = false := by rw [h.running]
    unfold admits
    rw [hr, hi, Bool.true_and]
    exact Bool.and_true _
  rw [read_eq, ha]
  by_cases hs : size ≤ 0
  · rw [if_neg (by simp; omega), if_pos hs]
  · rw [if_pos (by simp; omega), if_neg hs]

theorem greeting_hold (c : Console) (now : Bool) : (c.hold now).greeting = c.greeting := by
  have he : (c.hold now).ensureSettings.2.engine = c.ensureSettings.2.engine := by
    have hs : (c.hold now).settings = c.settings := rfl
    unfold ensureSettings
    rw [hs]
    cases c.settings <;> rfl
  unfold greeting bannerText?
  rw [he]
  rfl

theorem write_prints (h : Bound reading s.1) (bytes : Bytes) (code : Int) :
    Prints (Action.chunks (.write bytes code)) s.1 (between.write bytes code s).1 := by
  have hp : ∀ chunk d, print chunk { s.1 with desk := d } = { print chunk s.1 with desk := d } := by
    intro chunk d
    rw [print_quiet h.quiet, print_quiet (c := { s.1 with desk := d }) h.quiet]
    rfl
  change Prints _ s.1 (s.1.writeWith print bytes code)
  rw [writeWith_idle h hp]
  simp only [Action.chunks]
  split
  · exact .refl _
  · exact print_prints h.quiet _

theorem message_prints (h : Bound reading s.1) (bytes : Bytes) :
    Prints (Action.chunks (.message bytes)) s.1 (between.message bytes s).1 := by
  have hp : ∀ text d, tell print text { s.1 with desk := d } =
      { tell print text s.1 with desk := d } := by
    intro text d
    rw [tell_quiet h.quiet, tell_quiet (c := { s.1 with desk := d }) h.quiet]
    split <;> rfl
  change Prints _ s.1 (s.1.messageWith print bytes)
  rw [messageWith_idle h hp]
  exact tell_prints h.quiet _

theorem Bound.drain {reading : Bool} (h : Bound reading c) : Bound reading c.drain := by
  apply h.of_backdrop
  rw [drain_quiet h.quiet]
  unfold backdrop
  rw [Terminal.faults_showAll]

theorem Bound.settle {reading : Bool} (h : Bound reading c) (spec : Spec)
    (result : Except TerminalError Outcome) : Bound reading (c.settle spec result).2 := by
  obtain ⟨modes, history, files, hs⟩ := settle_rest spec result c
  rw [hs]
  exact { h with }

theorem settle_serves (spec : Spec) (result : Except TerminalError Outcome) (c : Console)
    (keys : List Input) : Serves [] (c, keys) ((c.settle spec result).2, keys) := by
  obtain ⟨modes, history, files, hs⟩ := settle_rest spec result c
  rw [hs]
  exact .of_delivers (.same rfl rfl) rfl (.of_notes rfl)

theorem drain_serves (h : c.terminal.Quiet) (keys : List Input) :
    Serves [] (c, keys) (c.drain, keys) := by
  apply Serves.of_delivers
  · exact drain_delivers h
  · rw [drain_quiet h]
  · exact .of_notes (by rw [drain_quiet h])

theorem begun_serves (hint : String) (h : Bound true s.1) : Serves [] s (s.1.begun hint, s.2) := by
  obtain ⟨ha, hc⟩ := ensureSettings_rest h
  apply Serves.of_delivers
  · unfold begun
    rw [hc]
    exact .same rfl rfl
  · exact ha.events
  · exact .of_asked ha

theorem cycle_serves (hint : String) (h : Bound true s.1) :
    ∃ read, Serves read s (cycle hint s).2 ∧ Bound true (cycle hint s).2.1 ∧
      (cycle hint s).2.1.queue = [] := by
  have hb := begun_serves hint h
  obtain ⟨read, hp, -, -⟩ := readLine_prompts (s := (s.1.begun hint, s.2)) (s.1.dressing hint)
    (s.1.editor hint) (h.begun hint)
  rw [cycle_eq]
  generalize readLine (s.1.dressing hint) (s.1.editor hint) (s.1.begun hint, s.2) = r at hp
  have hr : Bound true r.2.1 := hp.bound (h.begun hint)
  have hd := drain_serves hr.quiet r.2.2
  have hs := settle_serves (s.1.modes.beginCycle hint).1 r.1 r.2.1.drain r.2.2
  refine ⟨_, ((hb.trans hp.toServes).trans hd).trans hs, hr.drain.settle _ _, ?_⟩
  obtain ⟨modes, history, files, he⟩ := settle_rest (s.1.modes.beginCycle hint).1 r.1 r.2.1.drain
  dsimp only
  rw [he, drain_quiet hr.quiet]

theorem line_serves (hint : String) (h : Bound true s.1) :
    ∃ read, Serves read s (cycles.line hint s).2 ∧ Bound true (cycles.line hint s).2.1 ∧
      (cycles.line hint s).2.1.queue = [] := by
  fun_induction Cycles.line cycles hint s with
  | case1 s text hc => exact cycle_serves hint h
  | case2 s hc => exact cycle_serves hint h
  | case3 s hc ih =>
    obtain ⟨read, hs, hb, -⟩ := cycle_serves hint h
    obtain ⟨read', hs', hend⟩ := ih hb
    exact ⟨read ++ read', hs.trans hs', hend⟩
  | case4 s hc ih =>
    obtain ⟨read, hs, hb, -⟩ := cycle_serves hint h
    obtain ⟨read', hs', hend⟩ := ih hb
    exact ⟨read ++ read', hs.trans hs', hend⟩

structure Passes (s s' : Keyed) : Prop where
  bound : Bound false s'.1
  events : ∃ n, s'.1.engine.events = s.1.engine.events.drop n
  refuses : Refuses s.1 s'.1

theorem Prints.passes {chunks : List Chunk} {c' : Console} (h : Prints chunks s.1 c')
    (hb : Bound false s.1) (keys : List Input) : Passes s (c', keys) := by
  have he : c'.engine = s.1.engine := by rw [h.rest]
  exact ⟨h.bound hb, ⟨0, congrArg Engine.events he⟩, .of_notes (congrArg Engine.notes he)⟩

theorem read_passes (hint : Bytes) (size : Int) (h : Bound false s.1) :
    Passes s (read hint size s).2 := by
  rw [read_idle h]
  split
  · exact ⟨h, ⟨0, rfl⟩, .of_notes rfl⟩
  · have hb := h.hold true
    have ha := lead_asked hb
    obtain ⟨used, hs, hline, -⟩ := line_serves (cString hint) (s := ((s.1.hold true).lead, s.2)) hb.lead
    refine ⟨hline.hold false, ⟨Answer.steps used, ?_⟩, ?_⟩
    · have hl := hs.events
      rw [ha.events] at hl
      exact hl
    · have hr : Refuses s.1 (s.1.hold true).lead := .of_asked ha
      exact hr.trans hs.refuses

theorem turn_passes (t : Turn) (h : Bound false s.1) : Passes s (t.run s).2 := by
  cases t with
  | read hint size => exact read_passes hint size h
  | write bytes code => exact (write_prints h bytes code).passes h _
  | message bytes => exact (message_prints h bytes).passes h _
  | request mode => exact ⟨{ h with }, ⟨0, rfl⟩, .of_notes rfl⟩

/-- A console with the settings and the banner of R, which prints, tries to read and fails while the
first prompt waits. -/
def eventfulPrompt : Keyed :=
  (bind {
    desk := { registered := slots }
    engine := {
      traits := { globals := [("R.version.string", .text [.chars [0x52, 0x34]])] }
      events := [[.write [0x68] 1, .read [0x3E, 0x20] 9, .fail]] }
    loadSettings := Engine.settings {}
    loadBanner := some Engine.version },
    [.idle 2, .key ⟨.char 'q', {}⟩, .redraw, .key ⟨.enter, {}⟩])

theorem bound_eventfulPrompt : Bound false eventfulPrompt.1 := by
  apply bound_bind
  · rfl
  · rfl
  · intro f hf
    cases hf
  · exact Engine.observes_settings {}
  · intro load hl
    cases hl
    exact Engine.observes_version

end Console

end RConsole
