import RConsole.Proofs.Console.Rounds

namespace RConsole

theorem Engine.Observes.congr {α : Type} {load : Engine → α × Engine} (h : Engine.Observes load)
    {e e' : Engine} (he : e.plan [] = e'.plan []) : (load e).1 = (load e').1 := by
  have hp := h.plan [] e
  rw [he, h.plan [] e'] at hp
  exact (Prod.mk.inj hp).1.symm

namespace Console

structure Scene where
  loadSettings : Engine → Settings × Engine
  loadBanner : Option (Engine → Option String × Engine)
  settings : Option Settings
  status : Option String
  history : History
  files : Files
  stamp : Clock
  blankLine : Bool

def scene (c : Console) : Scene :=
  ⟨c.loadSettings, c.loadBanner, c.settings, c.status, c.history, c.files, c.stamp, c.blankLine⟩

/-- Two states that look the same to who types. -/
structure Alike (s t : Keyed) : Prop where
  keys : Input.keys s.2 = Input.keys t.2
  pictures : s.1.pictures = t.1.pictures
  modes : s.1.modes = t.1.modes
  scene : s.1.scene = t.1.scene

structure Paired (reading : Bool) (s t : Keyed) : Prop extends Alike s t where
  left : Bound reading s.1
  right : Bound reading t.1
  leftModest : Modest s.1
  rightModest : Modest t.1

variable {c d : Console} {s t : Keyed} {reading : Bool}

theorem Paired.hold (h : Paired reading s t) (now : Bool) :
    Paired now (s.1.hold now, s.2) (t.1.hold now, t.2) where
  keys := h.keys
  pictures := h.pictures
  modes := h.modes
  scene := h.scene
  left := h.left.hold now
  right := h.right.hold now
  leftModest := h.leftModest
  rightModest := h.rightModest

theorem scene_of_backdrop (h : c.backdrop = d.backdrop) : c.scene = d.scene := by
  simp only [backdrop, Backdrop.mk.injEq] at h
  obtain ⟨-, -, -, hl, hb, hs, hst, hh, hf, hm, hbl⟩ := h
  simp only [scene, hl, hb, hs, hst, hh, hf, hm, hbl]

theorem readLine_alike (p : Dressing) (e : Editor) (h : Paired true s t) :
    (readLine p e s).1 = (readLine p e t).1 ∧ Alike (readLine p e s).2 (readLine p e t).2 := by
  obtain ⟨read, hp, hr, hk⟩ := readLine_prompts p e h.left
  obtain ⟨read', hp', hr', hk'⟩ := readLine_prompts p e h.right
  -- Both prompts are played with the same keys, so they come to the same.
  rw [← h.keys] at hp' hr' hk'
  refine ⟨hr.trans hr'.symm, hk.trans hk'.symm, ?_, ?_, ?_⟩
  · rw [hp.pictures, hp'.pictures, h.pictures]
  · rw [hp.modes h.leftModest, hp'.modes h.rightModest, h.modes]
  · rw [scene_of_backdrop hp.backdrop, scene_of_backdrop hp'.backdrop, h.scene]

theorem Prints.alike {chunks chunks' : List Chunk} {c' d' : Console} {keys keys' : List Input}
    (h : Prints chunks c c') (h' : Prints chunks' d d') (ha : Alike (c, keys) (d, keys')) :
    Alike (c', keys) (d', keys') := by
  refine ⟨ha.keys, ?_, ?_, ?_⟩
  · exact h.pictures.trans (ha.pictures.trans h'.pictures.symm)
  · rw [h.rest, h'.rest]
    exact ha.modes
  · rw [h.rest, h'.rest]
    exact ha.scene

theorem drain_prints (h : c.terminal.Quiet) : Prints c.queue { c with queue := [] } c.drain := by
  rw [drain_quiet h]
  exact ⟨rfl, Terminal.faults_showAll .., Terminal.acts_showAll ..⟩

theorem record_alike (spec : Spec) (line : String) {keys keys' : List Input}
    (ha : Alike (c, keys) (d, keys')) : Alike (c.record spec line, keys) (d.record spec line, keys') := by
  have hm : c.modes.submitted = d.modes.submitted := congrArg _ ha.modes
  have hscene := ha.scene
  simp only [scene, Scene.mk.injEq] at hscene
  obtain ⟨hl, hb, hs, hst, hh, hf, hstamp, hbl⟩ := hscene
  unfold record
  split
  · exact ha
  · dsimp only
    split
    · refine ⟨ha.keys, ha.pictures, hm, ?_⟩
      simp only [scene, hl, hb, hs, hst, hh, hf, hstamp, hbl]
    · exact ⟨ha.keys, ha.pictures, hm, ha.scene⟩

theorem settle_alike (spec : Spec) (result : Except TerminalError Outcome) {keys keys' : List Input}
    (ha : Alike (c, keys) (d, keys')) :
    (c.settle spec result).1 = (d.settle spec result).1 ∧
      Alike ((c.settle spec result).2, keys) ((d.settle spec result).2, keys') := by
  rcases result with error | (line | _ | _ | target)
  · exact ⟨rfl, ha⟩
  · exact ⟨rfl, record_alike spec line ha⟩
  · exact ⟨rfl, ha⟩
  · exact ⟨rfl, ha⟩
  · refine ⟨rfl, ha.keys, ha.pictures, ?_, ha.scene⟩
    change c.modes.request target = d.modes.request target
    rw [ha.modes]

theorem begun_paired (hint : String) {settings : Settings} (hl : s.1.settings = some settings)
    (h : Paired true s t) :
    t.1.dressing hint = s.1.dressing hint ∧ t.1.editor hint = s.1.editor hint ∧
      Paired true (s.1.begun hint, s.2) (t.1.begun hint, t.2) := by
  have hscene := h.scene
  simp only [scene, Scene.mk.injEq] at hscene
  obtain ⟨-, -, hset, hst, hh, -⟩ := hscene
  obtain ⟨hes, hbs⟩ := begun_of_settings hl hint
  obtain ⟨het, hbt⟩ := begun_of_settings (hset.symm.trans hl) hint
  have ha : Alike (s.1.begun hint, s.2) (t.1.begun hint, t.2) := by
    rw [hbs, hbt]
    refine ⟨h.keys, h.pictures, ?_, h.scene⟩
    rw [h.modes]
  refine ⟨?_, ?_, ⟨ha, h.left.begun hint, h.right.begun hint, ?_, ?_⟩⟩
  · simp only [dressing, hes, het, hst, h.modes]
  · simp only [editor, hes, het, hh, h.modes]
  · exact h.leftModest.of_drop (n := 0) (ensureSettings_rest h.left).1.events
  · exact h.rightModest.of_drop (n := 0) (ensureSettings_rest h.right).1.events

theorem drain_alike (h : Alike s t) (hs : s.1.terminal.Quiet) (ht : t.1.terminal.Quiet) :
    Alike (s.1.drain, s.2) (t.1.drain, t.2) := by
  apply (drain_prints hs).alike (drain_prints ht)
  exact ⟨h.keys, h.pictures, h.modes, h.scene⟩

theorem cycle_settings (hint : String) {settings : Settings} (hl : s.1.settings = some settings)
    (h : Bound true s.1) : (cycle hint s).2.1.settings = some settings := by
  obtain ⟨_, hp, -, -⟩ := readLine_prompts (s := (s.1.begun hint, s.2)) (s.1.dressing hint)
    (s.1.editor hint) (h.begun hint)
  have hb : (s.1.begun hint).settings = some settings := by
    rw [(begun_of_settings hl hint).2]
    exact hl
  rw [cycle_eq]
  dsimp only
  obtain ⟨modes, history, files, hs⟩ := settle_rest (s.1.modes.beginCycle hint).1
    (readLine (s.1.dressing hint) (s.1.editor hint) (s.1.begun hint, s.2)).1
    (readLine (s.1.dressing hint) (s.1.editor hint) (s.1.begun hint, s.2)).2.1.drain
  rw [hs, drain_quiet (hp.bound (h.begun hint)).quiet]
  exact (congrArg Backdrop.settings hp.backdrop).trans hb

theorem cycle_paired (hint : String) {settings : Settings} (hl : s.1.settings = some settings)
    (h : Paired true s t) :
    (cycle hint s).1 = (cycle hint t).1 ∧ Paired true (cycle hint s).2 (cycle hint t).2 := by
  obtain ⟨_, hcs, hbs, -⟩ := cycle_serves hint h.left
  obtain ⟨_, hct, hbt, -⟩ := cycle_serves hint h.right
  have ha : (cycle hint s).1 = (cycle hint t).1 ∧ Alike (cycle hint s).2 (cycle hint t).2 := by
    obtain ⟨hd, he, hb⟩ := begun_paired hint hl h
    obtain ⟨hr, har⟩ := readLine_alike (s.1.dressing hint) (s.1.editor hint) hb
    obtain ⟨_, hp, -, -⟩ := readLine_prompts (s.1.dressing hint) (s.1.editor hint) hb.left
    obtain ⟨_, hp', -, -⟩ := readLine_prompts (s.1.dressing hint) (s.1.editor hint) hb.right
    rw [cycle_eq, cycle_eq, hd, he, ← h.modes]
    generalize readLine (s.1.dressing hint) (s.1.editor hint) (s.1.begun hint, s.2) = r at hr har hp
    generalize readLine (s.1.dressing hint) (s.1.editor hint) (t.1.begun hint, t.2) = r' at hr har hp'
    dsimp only
    rw [← hr]
    exact settle_alike (s.1.modes.beginCycle hint).1 r.1
      (drain_alike har (hp.bound hb.left).quiet (hp'.bound hb.right).quiet)
  exact ⟨ha.1, ⟨ha.2, hbs, hbt, hcs.modest h.leftModest, hct.modest h.rightModest⟩⟩

theorem line_paired (hint : String) {settings : Settings} (hl : s.1.settings = some settings)
    (h : Paired true s t) :
    (cycles.line hint s).1 = (cycles.line hint t).1 ∧
      Paired true (cycles.line hint s).2 (cycles.line hint t).2 ∧
      (cycles.line hint s).2.1.settings = some settings := by
  fun_induction Cycles.line cycles hint s generalizing t with
  | case1 s text hc =>
    obtain ⟨hr, hp⟩ := cycle_paired hint hl h
    have hct : (cycle hint t).1 = .line text := hr.symm.trans hc
    rw [cycles.line_of_line hct]
    exact ⟨rfl, hp, cycle_settings hint hl h.left⟩
  | case2 s hc =>
    obtain ⟨hr, hp⟩ := cycle_paired hint hl h
    have hct : (cycle hint t).1 = .endOfInput := hr.symm.trans hc
    rw [cycles.line_of_end hct]
    exact ⟨rfl, hp, cycle_settings hint hl h.left⟩
  | case3 s hc ih =>
    obtain ⟨hr, hp⟩ := cycle_paired hint hl h
    have hct : (cycle hint t).1.isAgain = true := by
      rw [← hr, show (cycle hint s).1 = .interrupted from hc]
      rfl
    rw [cycles.line_of_again hct]
    exact ih (cycle_settings hint hl h.left) hp
  | case4 s hc ih =>
    obtain ⟨hr, hp⟩ := cycle_paired hint hl h
    have hct : (cycle hint t).1.isAgain = true := by
      rw [← hr, show (cycle hint s).1 = .restart from hc]
      rfl
    rw [cycles.line_of_again hct]
    exact ih (cycle_settings hint hl h.left) hp

theorem ensureSettings_alike (h : Paired reading s t)
    (he : s.1.settings = none → s.1.engine.plan [] = t.1.engine.plan []) :
    s.1.ensureSettings.1 = t.1.ensureSettings.1 := by
  have hset : s.1.settings = t.1.settings := congrArg Scene.settings h.scene
  have hload : s.1.loadSettings = t.1.loadSettings := congrArg Scene.loadSettings h.scene
  unfold ensureSettings
  rw [← hset, ← hload]
  cases hl : s.1.settings with
  | none => exact h.left.settings.congr (he hl)
  | some settings => rfl

theorem lead_settings (h : Bound reading c) : c.lead.settings = some c.ensureSettings.1 := by
  rw [(lead_prints h).rest, (loaded_rest h).2]

theorem lead_paired (h : Paired reading s t)
    (he : s.1.settings = none → s.1.engine.plan [] = t.1.engine.plan []) :
    Paired reading (s.1.lead, s.2) (t.1.lead, t.2) := by
  have hset := ensureSettings_alike h he
  have hscene := h.scene
  simp only [scene, Scene.mk.injEq] at hscene
  obtain ⟨hls, -, -, hst, hh, hf, hstamp, hbl⟩ := hscene
  have hl : Alike (s.1.loaded, s.2) (t.1.loaded, t.2) := by
    rw [(loaded_rest h.left).2, (loaded_rest h.right).2, hset]
    refine ⟨h.keys, h.pictures, h.modes, ?_⟩
    simp only [scene, hls, hst, hh, hf, hstamp, hbl]
  exact ⟨(lead_prints h.left).alike (lead_prints h.right) hl, h.left.lead, h.right.lead,
    h.leftModest.of_drop (n := 0) (lead_asked h.left).events,
    h.rightModest.of_drop (n := 0) (lead_asked h.right).events⟩

theorem read_alike (hint : Utf8.Bytes) (size : Int) (h : Paired false s t)
    (he : s.1.settings = none → s.1.engine.plan [] = t.1.engine.plan []) :
    (read hint size s).1 = (read hint size t).1 ∧ Alike (read hint size s).2 (read hint size t).2 ∧
      ((read hint size s).2.1.settings = none →
        (read hint size s).2.1.engine.plan [] = (read hint size t).2.1.engine.plan []) := by
  rw [read_idle h.left, read_idle h.right]
  split
  · exact ⟨rfl, h.toAlike, he⟩
  · have hh := h.hold true
    obtain ⟨hr, hp, hsl⟩ := line_paired (cString hint) (lead_settings hh.left) (lead_paired hh he)
    refine ⟨?_, (hp.hold false).toAlike, ?_⟩
    · dsimp only
      rw [hr]
    · intro hn
      have hnone : (cycles.line (cString hint) ((s.1.hold true).lead, s.2)).2.1.settings = none := hn
      rw [hsl] at hnone
      cases hnone

theorem Passes.modest {s' : Keyed} (h : Passes s s') (hm : Modest s.1) : Modest s'.1 := by
  obtain ⟨n, he⟩ := h.events
  exact hm.of_drop he

theorem turn_alike (turn : Turn) (h : Paired false s t)
    (he : s.1.settings = none → s.1.engine.plan [] = t.1.engine.plan []) :
    (turn.run s).1 = (turn.run t).1 ∧ Alike (turn.run s).2 (turn.run t).2 ∧
      ((turn.run s).2.1.settings = none →
        (turn.run s).2.1.engine.plan [] = (turn.run t).2.1.engine.plan []) := by
  have hprints {chunks chunks' : List Chunk} {c d : Console} (hp : Prints chunks s.1 c)
      (hp' : Prints chunks' t.1 d) :
      Alike (c, s.2) (d, t.2) ∧ (c.settings = none → c.engine.plan [] = d.engine.plan []) := by
    refine ⟨hp.alike hp' h.toAlike, ?_⟩
    rw [hp.rest, hp'.rest]
    exact he
  cases turn with
  | read hint size =>
    obtain ⟨hr, hal, hel⟩ := read_alike hint size h he
    exact ⟨by simp only [Turn.run, hr], hal, hel⟩
  | write bytes code =>
    exact ⟨rfl, hprints (write_prints h.left bytes code) (write_prints h.right bytes code)⟩
  | message bytes =>
    exact ⟨rfl, hprints (message_prints h.left bytes) (message_prints h.right bytes)⟩
  | request mode =>
    refine ⟨rfl, ⟨h.keys, h.pictures, ?_, h.scene⟩, he⟩
    change s.1.modes.request mode = t.1.modes.request mode
    rw [h.modes]

theorem turns_alike (turns : List Turn) (h : Paired false s t)
    (he : s.1.settings = none → s.1.engine.plan [] = t.1.engine.plan []) :
    (Turn.runAll turns s).1 = (Turn.runAll turns t).1 ∧
      Alike (Turn.runAll turns s).2 (Turn.runAll turns t).2 := by
  induction turns generalizing s t with
  | nil => exact ⟨rfl, h.toAlike⟩
  | cons turn turns ih =>
    obtain ⟨hr, ha, hel⟩ := turn_alike turn h he
    have hs := turn_passes turn h.left
    have ht := turn_passes turn h.right
    obtain ⟨hrs, has⟩ :=
      ih ⟨ha, hs.bound, ht.bound, hs.modest h.leftModest, ht.modest h.rightModest⟩ hel
    exact ⟨by simp only [Turn.runAll, hr, hrs], has⟩

theorem turns_refuse (turns : List Turn) (h : Bound false s.1) :
    Refuses s.1 (Turn.runAll turns s).2.1 := by
  induction turns generalizing s with
  | nil => exact .of_notes rfl
  | cons turn turns ih =>
    have hp := turn_passes turn h
    exact hp.refuses.trans (ih hp.bound)

/-- What R does in the background, and how long the keys take, is seen neither by the reads nor on
the prompts, and leaves no trace in the history and the modes. Reads in the background get nothing:
they are refused because the read that shows the prompt is still on (`read_refused`), and what would
answer them is not asked. -/
theorem background_unseen (turns : List Turn) (events : List (List Action)) (keys : List Input)
    (h : Bound false s.1) (hm : Modest s.1)
    (hme : Modest (s.1.setEngine (s.1.engine.plan events))) (hk : Input.keys keys = Input.keys s.2) :
    let r := Turn.runAll turns s
    let r' := Turn.runAll turns (s.1.setEngine (s.1.engine.plan events), keys)
    r'.1 = r.1 ∧ r'.2.1.pictures = r.2.1.pictures ∧ r'.2.1.history = r.2.1.history ∧
      r'.2.1.modes = r.2.1.modes ∧
      ∃ new, r.2.1.engine.notes.toList = s.1.engine.notes.toList ++ new ∧
        ∀ reply, .answered reply ∈ new → reply.status = 0 ∧ ∀ before, reply.buffer before = before := by
  have ha : Alike (s.1.setEngine (s.1.engine.plan events), keys) s := ⟨hk, rfl, rfl, rfl⟩
  have hb : Bound false (s.1.setEngine (s.1.engine.plan events)) := h.of_backdrop rfl
  obtain ⟨hr, hal⟩ := turns_alike turns ⟨ha, hb, h, hme, hm⟩ fun _ => rfl
  obtain ⟨new, hn, hu⟩ := turns_refuse turns h
  refine ⟨hr, hal.pictures, congrArg Scene.history hal.scene, hal.modes, new, hn, ?_⟩
  intro reply hmem
  rw [hu reply hmem]
  exact ⟨rfl, fun _ => rfl⟩

theorem background_unseen_eventfulPrompt :
    Bound false eventfulPrompt.1 ∧ Modest eventfulPrompt.1 ∧
      Modest (eventfulPrompt.1.setEngine
        (eventfulPrompt.1.engine.plan [[.message [0x6F]], [], [.write [0x6B] 0]])) ∧
      Input.keys [.key ⟨.char 'q', {}⟩, .idle 3, .redraw, .idle 1, .key ⟨.enter, {}⟩] =
        Input.keys eventfulPrompt.2 ∧
      (Turn.runAll [.read [0x3E, 0x20] 80]
        (eventfulPrompt.1.setEngine
          (eventfulPrompt.1.engine.plan [[.message [0x6F]], [], [.write [0x6B] 0]]),
          [.key ⟨.char 'q', {}⟩, .idle 3, .redraw, .idle 1, .key ⟨.enter, {}⟩])).1 =
        [.wrote [0x71, 0x0A, 0x00]] := by
  have hm : Modest eventfulPrompt.1 := by decide
  have hme : Modest (eventfulPrompt.1.setEngine
      (eventfulPrompt.1.engine.plan [[.message [0x6F]], [], [.write [0x6B] 0]])) := by decide
  have hk : Input.keys [.key ⟨.char 'q', {}⟩, .idle 3, .redraw, .idle 1, .key ⟨.enter, {}⟩] =
      Input.keys eventfulPrompt.2 := by decide
  refine ⟨bound_eventfulPrompt, hm, hme, hk, ?_⟩
  obtain ⟨hr, -⟩ := background_unseen [.read [0x3E, 0x20] 80] _ _ bound_eventfulPrompt hm hme hk
  refine hr.trans ?_
  decide +kernel

end Console

end RConsole
