import RConsole.Proofs.Console.Twins

namespace RConsole.Console

variable {c d : Console} {s t : Keyed}

theorem drain_twins (h : Twins c d) : Twins c.drain d.drain := by
  have hq : c.queue = d.queue := h.same Console.queue fun _ => rfl
  have hp (chunks : List Chunk) {c d : Console} (h : Twins c d) :
      Twins (chunks.foldl (fun c chunk => c.print chunk) c)
        (chunks.foldl (fun c chunk => c.print chunk) d) := by
    induction chunks generalizing c d with
    | nil => exact h
    | cons chunk chunks ih => exact ih (print_twins chunk h)
  unfold drain
  rw [hq]
  exact hp _ (h.map (g := fun c => { c with queue := [] }) fun _ => rfl)

theorem record_twins (spec : Spec) (line : String) (h : Twins c d) :
    Twins (c.record spec line) (d.record spec line) := by
  apply h.map (g := record spec line)
  intro c
  unfold record
  split
  · rfl
  · dsimp only
    split <;> rfl

theorem settle_twins (spec : Spec) (result : Except TerminalError Outcome) (h : Twins c d) :
    Same Twins (c.settle spec result) (d.settle spec result) := by
  rcases result with error | (line | _ | _ | target)
  · exact ⟨rfl, h⟩
  · exact ⟨rfl, record_twins spec line h⟩
  · exact ⟨rfl, h⟩
  · exact ⟨rfl, h⟩
  · exact ⟨rfl, h.map (g := request target) fun _ => rfl⟩

structure Loaded (c : Console) : Prop where
  settings : ∃ settings, c.settings = some settings
  banner : c.loadBanner = none

def loads (c : Console) : Option Settings × Option (Engine → Option String × Engine) :=
  (c.settings, c.loadBanner)

theorem loads_aloof : Aloof loads where
  desk _ _ := rfl
  queue _ _ := rfl
  modes _ _ := rfl
  note _ _ := rfl
  exitStatus _ _ := rfl
  exit _ _ := rfl

theorem loads_respected {P : Act → Prop} : RespectedByKeys P fun s t => t.1.loads = s.1.loads :=
  loads_aloof.respected (fun _ _ => rfl) (fun _ _ => rfl) fun _ _ => rfl

theorem Loaded.of_loads (h : Loaded c) (hl : d.loads = c.loads) : Loaded d := by
  obtain ⟨hs, hb⟩ := Prod.mk.inj hl
  constructor
  · rw [hs]
    exact h.settings
  · rw [hb]
    exact h.banner

theorem cycle_loaded (hint : String) (h : Loaded s.1) : Loaded (cycle hint s).2.1 := by
  let r : Round := ⟨hint, s⟩
  have hk : RespectedByKeys (Act.Amid r.dressing) fun s t => t.1.loads = s.1.loads :=
    loads_respected
  obtain ⟨settings, hs⟩ := h.settings
  have hb : (s.1.begun hint).loads = s.1.loads := by
    rw [(begun_of_settings hs hint).2]
    rfl
  have hr := hk.readLine r.editor (s.1.begun hint, s.2)
  have hd := hk.drain (fun _ => ⟨.bare rfl, rfl⟩) r.edited.2.1 r.edited.2.2
  obtain ⟨modes, history, files, hend⟩ := r.finish_rest
  change Loaded r.finish.1
  rw [hend]
  exact h.of_loads ((Eq.trans hd hr).trans hb)

theorem cycle_begun (hint : String) (hd : s.1.dressing hint = t.1.dressing hint)
    (he : s.1.editor hint = t.1.editor hint)
    (hm : (s.1.modes.beginCycle hint).1 = (t.1.modes.beginCycle hint).1)
    (hb : KeyedTwins (s.1.begun hint, s.2) (t.1.begun hint, t.2)) :
    Same KeyedTwins (cycle hint s) (cycle hint t) := by
  have hr := readLine_twins (t.1.dressing hint) (t.1.editor hint) hb
  rw [cycle_eq, cycle_eq]
  dsimp only
  rw [hd, he, hm]
  obtain ⟨result, c, d, rest, hc, hd, ht⟩ := KeyedTwins.pair hr
  rw [hc, hd]
  obtain ⟨hresult, ht⟩ := settle_twins (t.1.modes.beginCycle hint).1 result (drain_twins ht)
  exact ⟨hresult, ht, rfl⟩

theorem cycle_twins (hint : String) (hl : Loaded s.1) (h : KeyedTwins s t) :
    Same KeyedTwins (cycle hint s) (cycle hint t) := by
  obtain ⟨c, keys⟩ := s
  obtain ⟨d, keys'⟩ := t
  obtain ⟨h, hk⟩ := h
  cases hk
  obtain ⟨settings, hs⟩ := hl.settings
  have hm : c.modes = d.modes := h.same Console.modes fun _ => rfl
  have hsd : d.settings = some settings := (h.same Console.settings fun _ => rfl).symm.trans hs
  obtain ⟨hec, hbc⟩ := begun_of_settings hs hint
  obtain ⟨hed, hbd⟩ := begun_of_settings hsd hint
  have hst : c.status = d.status := h.same Console.status fun _ => rfl
  have hh : c.history = d.history := h.same Console.history fun _ => rfl
  apply cycle_begun hint
  · simp only [dressing, hec, hed, hm, hst]
  · simp only [editor, hec, hed, hm, hh]
  · rw [hm]
  · refine ⟨?_, rfl⟩
    rw [hbc, hbd, hm]
    exact h.map (g := fun c => { c with modes := (d.modes.beginCycle hint).2 }) fun _ => rfl

theorem line_twins (hint : String) (hl : Loaded s.1) (h : KeyedTwins s t) :
    Same KeyedTwins (cycles.line hint s) (cycles.line hint t) ∧ Loaded (cycles.line hint s).2.1 := by
  fun_induction Cycles.line cycles hint s generalizing t with
  | case1 s text hc =>
    obtain ⟨hr, ht⟩ := cycle_twins hint hl h
    have hct : (cycle hint t).1 = .line text := hr.symm.trans hc
    rw [cycles.line_of_line hct]
    exact ⟨⟨rfl, ht⟩, cycle_loaded hint hl⟩
  | case2 s hc =>
    obtain ⟨hr, ht⟩ := cycle_twins hint hl h
    have hct : (cycle hint t).1 = .endOfInput := hr.symm.trans hc
    rw [cycles.line_of_end hct]
    exact ⟨⟨rfl, ht⟩, cycle_loaded hint hl⟩
  | case3 s hc ih =>
    obtain ⟨hr, ht⟩ := cycle_twins hint hl h
    have hct : (cycle hint t).1.isAgain = true := by
      rw [← hr, show (cycle hint s).1 = .interrupted from hc]
      rfl
    rw [cycles.line_of_again hct]
    exact ih (cycle_loaded hint hl) ht
  | case4 s hc ih =>
    obtain ⟨hr, ht⟩ := cycle_twins hint hl h
    have hct : (cycle hint t).1.isAgain = true := by
      rw [← hr, show (cycle hint s).1 = .restart from hc]
      rfl
    rw [cycles.line_of_again hct]
    exact ih (cycle_loaded hint hl) ht

theorem lead_of_loaded (h : Loaded c) :
    c.lead = if c.blankLine then c.print ⟨"\n", .out⟩ else c := by
  obtain ⟨settings, hs⟩ := h.settings
  have he : c.ensureSettings = (settings, c) := (begun_of_settings hs "").1
  have hb : c.banner = c := by
    unfold banner
    rw [h.banner]
  unfold lead
  rw [he]
  dsimp only
  rw [hb]

theorem lead_twins (hl : Loaded c) (h : Twins c d) : Twins c.lead d.lead := by
  have hld : Loaded d := by
    constructor
    · rw [← h.same Console.settings fun _ => rfl]
      exact hl.settings
    · rw [← h.same Console.loadBanner fun _ => rfl]
      exact hl.banner
  rw [lead_of_loaded hl, lead_of_loaded hld, h.same Console.blankLine fun _ => rfl]
  split
  · exact print_twins _ h
  · exact h

theorem print_loads (chunk : Chunk) (c : Console) : (c.print chunk).loads = c.loads :=
  (loads_respected (P := fun a => a = .wrote chunk)).print rfl c []

theorem tell_loads (text : String) (c : Console) : (c.tell print text).loads = c.loads :=
  (loads_respected (P := fun a => ∃ chunk, a = .wrote chunk)).tell (fun chunk => ⟨chunk, rfl⟩) text c []

theorem write_loads (bytes : Utf8.Bytes) (code : Int) (c : Console) :
    (c.writeWith print bytes code).loads = c.loads :=
  Desk.write_keeps loads_aloof.desk (fun chunk c => print_loads chunk c) bytes code c

theorem message_loads (bytes : Utf8.Bytes) (c : Console) : (c.messageWith print bytes).loads = c.loads :=
  Desk.message_keeps loads_aloof.desk (fun text c => tell_loads text c) bytes c

theorem lead_loaded (c : Console) : Loaded c.lead := by
  have hs : ∃ settings, c.ensureSettings.2.settings = some settings := by
    unfold ensureSettings
    split
    · rename_i settings h
      exact ⟨settings, h⟩
    · exact ⟨_, rfl⟩
  have hb : Loaded c.ensureSettings.2.banner := by
    unfold banner
    split
    · rename_i h
      exact ⟨hs, h⟩
    · rename_i load _
      have hl : Loaded { c.ensureSettings.2 with
          loadBanner := none, engine := (load c.ensureSettings.2.engine).2 } := ⟨hs, rfl⟩
      dsimp only
      split
      · exact hl.of_loads (tell_loads _ _)
      · exact hl
  unfold lead
  dsimp only
  split
  · exact hb.of_loads (print_loads _ _)
  · exact hb

theorem read_twins (hint : Utf8.Bytes) (size : Int) (hl : Loaded s.1) (h : KeyedTwins s t) :
    Same KeyedTwins (read hint size s) (read hint size t) ∧ Loaded (read hint size s).2.1 := by
  obtain ⟨c, keys⟩ := s
  obtain ⟨d, keys'⟩ := t
  obtain ⟨h, hk⟩ := h
  cases hk
  have ha : c.admits size = d.admits size := h.same (admits size) fun _ => rfl
  rw [read_eq, read_eq]
  dsimp only
  rw [ha]
  split
  · have hh : Loaded (c.hold true) := ⟨hl.settings, hl.banner⟩
    have hlead : Twins (c.hold true).lead (d.hold true).lead :=
      lead_twins hh (h.map (g := hold true) fun _ => rfl)
    obtain ⟨⟨hr, ht, hk⟩, hlast⟩ := line_twins (s := ((c.hold true).lead, keys))
      (t := ((d.hold true).lead, keys)) (cString hint) (lead_loaded _) ⟨hlead, rfl⟩
    refine ⟨⟨?_, ht.map (g := hold false) fun _ => rfl, hk⟩, hlast.settings, hlast.banner⟩
    dsimp only
    rw [hr]
  · exact ⟨⟨rfl, h, rfl⟩, hl⟩

theorem turn_twins (turn : Turn) (hl : Loaded s.1) (h : KeyedTwins s t) :
    Same KeyedTwins (turn.run s) (turn.run t) ∧ Loaded (turn.run s).2.1 := by
  cases turn with
  | read hint size =>
    obtain ⟨⟨hr, ht⟩, hlast⟩ := read_twins hint size hl h
    refine ⟨⟨?_, ht⟩, hlast⟩
    simp only [Turn.run, hr]
  | write bytes code =>
    exact ⟨⟨rfl, writeWith_twins print_twins bytes code h.1, h.2⟩,
      hl.of_loads (write_loads bytes code s.1)⟩
  | message bytes =>
    exact ⟨⟨rfl, messageWith_twins print_twins bytes h.1, h.2⟩,
      hl.of_loads (message_loads bytes s.1)⟩
  | request mode =>
    exact ⟨⟨rfl, h.1.map (g := request mode) fun _ => rfl, h.2⟩, hl.settings, hl.banner⟩

theorem turns_twins (turns : List Turn) (hl : Loaded s.1) (h : KeyedTwins s t) :
    Same KeyedTwins (Turn.runAll turns s) (Turn.runAll turns t) := by
  induction turns generalizing s t with
  | nil => exact ⟨rfl, h⟩
  | cons turn turns ih =>
    obtain ⟨⟨hr, ht⟩, hl⟩ := turn_twins turn hl h
    obtain ⟨hrs, hts⟩ := ih hl ht
    refine ⟨?_, hts⟩
    simp only [Turn.runAll, hr, hrs]

end RConsole.Console
