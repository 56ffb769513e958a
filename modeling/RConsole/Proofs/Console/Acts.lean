import RConsole.Proofs.Callback.Keeps
import RConsole.Proofs.Console.Across

namespace RConsole

namespace Console

def acts (c : Console) : List Act := c.terminal.acts.toList

def Adds (P : Act → Prop) (c c' : Console) : Prop :=
  ∃ new : List Act, c'.acts = c.acts ++ new ∧ ∀ a ∈ new, P a

namespace Adds

variable {P : Act → Prop} {c c' c'' : Console}

theorem of_acts (h : c'.acts = c.acts) : Adds P c c' := ⟨[], by simp [h], by simp⟩

theorem refl (c : Console) : Adds P c c := of_acts rfl

theorem trans (h : Adds P c c') (h' : Adds P c' c'') : Adds P c c'' := by
  obtain ⟨new, he, hp⟩ := h
  obtain ⟨new', he', hp'⟩ := h'
  refine ⟨new ++ new', by rw [he', he, List.append_assoc], ?_⟩
  intro a ha
  exact (List.mem_append.mp ha).elim (hp a) (hp' a)

theorem perform (c : Console) {a : Act} (h : P a) : Adds P c (c.perform a) :=
  ⟨[a], by simp [acts, Console.perform, Terminal.perform], by simpa using h⟩

end Adds

structure Aloof {β : Type} (π : Console → β) : Prop where
  desk (d : Desk) (c : Console) : π { c with desk := d } = π c
  queue (q : List Chunk) (c : Console) : π { c with queue := q } = π c
  modes (m : ModeMachine) (c : Console) : π { c with modes := m } = π c
  note (n : Note) (c : Console) : π (c.note n) = π c
  exitStatus (n : Option Int) (c : Console) : π { c with exitStatus := n } = π c
  exit (e : Option Exit) (c : Console) : π { c with exit := e } = π c

namespace Aloof

variable {β : Type} {π : Console → β}

theorem tell (h : Aloof π) (text : String) (c : Console) : π (c.tell enqueue text) = π c := by
  have hq := h.queue (c.queue ++ [⟨text, .out⟩]) c
  unfold Console.tell
  dsimp only
  split
  · exact hq
  · exact (h.queue _ (c.enqueue ⟨text, .out⟩)).trans hq

theorem chain (h : Aloof π) (hook : Hook) (e : Ending) (c : Console) : π (chain hook e c) = π c := by
  cases hook with
  | console => rfl
  | own =>
    have hn := h.note (.ownCleanUp e) c
    unfold Console.chain
    dsimp only
    split
    · exact (h.exit _ _).trans hn
    · exact hn

theorem writeWith (h : Aloof π) (bytes : Utf8.Bytes) (code : Int) (c : Console) :
    π (c.writeWith enqueue bytes code) = π c :=
  Desk.write_keeps h.desk (fun _ c => h.queue _ c) bytes code c

theorem messageWith (h : Aloof π) (bytes : Utf8.Bytes) (c : Console) :
    π (c.messageWith enqueue bytes) = π c :=
  Desk.message_keeps h.desk (fun text c => h.tell text c) bytes c

theorem atPrompt (h : Aloof π) : atPrompt.Keeps π where
  read := Desk.read_keeps h.desk fun _ _ => rfl
  write := h.writeWith
  message := h.messageWith
  cleanUp := Desk.cleanUp_keeps h.desk (fun e c => h.exitStatus (some e.status) c) h.chain
  request _ c := h.modes _ c
  enqueue _ c := h.queue _ c
  note := h.note

theorem strike (h : Aloof π) (faults : List Fault) (c : Console) : π (c.strike faults).2 = π c := by
  induction faults generalizing c with
  | nil => rfl
  | cons f faults ih =>
    unfold Console.strike
    cases f.writes with
    | none =>
      cases f.fails with
      | none => exact ih c
      | some message => rfl
    | some w =>
      have hw := h.writeWith w.1 w.2 c
      cases f.fails with
      | none => exact (ih _).trans hw
      | some message => exact hw

theorem eventStep (h : Aloof π) (he : ∀ e c, π (setEngine e c) = π c) (c : Console) :
    π c.eventStep.2 = π c :=
  (he _ _).trans ((Action.runAll_keeps h.atPrompt _ _).trans (he _ c))

variable {P : Act → Prop}

theorem respected (h : Aloof π) (ht : ∀ t c, π { c with terminal := t } = π c)
    (he : ∀ e c, π (setEngine e c) = π c) (hk : ∀ m c, π (withKeymap m c) = π c) :
    RespectedByKeys P fun s t => π t.1 = π s.1 where
  refl _ := rfl
  trans h h' := h'.trans h
  call _ c _ := (h.strike _ _).trans (ht _ c)
  perform _ c _ := ht _ c
  unqueue c _ := h.queue [] c
  ready c _ := (h.strike _ _).trans (ht _ c)
  poll _ _ := rfl
  step c _ := h.eventStep he c
  typed _ c := ht _ c
  keymap m c _ := hk m c

theorem loads (h : Aloof π) (hl : ∀ settings load e c,
    π { c with settings := settings, loadBanner := load, engine := e } = π c) :
    RespectedByLoads fun s t => π t.1 = π s.1 where
  desk d c _ := h.desk d c
  modes m c _ := h.modes m c
  loaded settings load e c _ := hl settings load e c

end Aloof

def stage (c : Console) : Terminal × List (List Action) := (c.terminal, c.engine.events)

theorem stage_aloof : Aloof stage where
  desk _ _ := rfl
  queue _ _ := rfl
  modes _ _ := rfl
  note _ _ := rfl
  exitStatus _ _ := rfl
  exit _ _ := rfl

theorem terminal_eventStep (c : Console) : c.eventStep.2.terminal = c.terminal :=
  congrArg Prod.fst (Action.runAll_keeps stage_aloof.atPrompt _ (setEngine _ c))

theorem terminal_strike (faults : List Fault) (c : Console) :
    (c.strike faults).2.terminal = c.terminal :=
  congrArg Prod.fst (stage_aloof.strike faults c)

theorem terminal_call (method : Method) (c : Console) :
    (c.call method).2.terminal = c.terminal.count method :=
  terminal_strike _ _

theorem acts_call (method : Method) (c : Console) : (c.call method).2.acts = c.acts :=
  congrArg (·.acts.toList) (terminal_call method c)

variable {d : Dressing}

theorem adds_respected {P Q : Act → Prop} (hp : ∀ a, P a → Q a) (hk : ∀ k, Q (.keyed k)) :
    RespectedByKeys P fun s t => Adds Q s.1 t.1 where
  refl s := Adds.refl s.1
  trans := Adds.trans
  call _ c _ := Adds.of_acts (acts_call _ c)
  perform ha c _ := Adds.perform c (hp _ ha)
  unqueue _ _ := Adds.of_acts rfl
  ready c _ := Adds.of_acts (acts_call _ c)
  poll c _ := Adds.refl c
  step c _ := Adds.of_acts (congrArg (·.acts.toList) (terminal_eventStep c))
  typed _ c := Adds.perform c (hk _)
  keymap _ _ _ := Adds.of_acts rfl

theorem adds_loads (P : Act → Prop) : RespectedByLoads fun s t => Adds P s.1 t.1 where
  desk _ _ _ := Adds.of_acts rfl
  modes _ _ _ := Adds.of_acts rfl
  loaded _ _ _ _ _ := Adds.of_acts rfl

theorem settle_rest (spec : Spec) (result : Except TerminalError Outcome) (c : Console) :
    ∃ modes history files, (c.settle spec result).2 =
      { c with modes := modes, history := history, files := files } := by
  rcases result with error | (line | _ | _ | target)
  · exact ⟨c.modes, c.history, c.files, rfl⟩
  · change ∃ modes history files, c.record spec line = _
    unfold record
    split
    · exact ⟨c.modes, c.history, c.files, rfl⟩
    · split
      · exact ⟨_, _, _, rfl⟩
      · exact ⟨_, c.history, c.files, rfl⟩
  · exact ⟨c.modes, c.history, c.files, rfl⟩
  · exact ⟨c.modes, c.history, c.files, rfl⟩
  · exact ⟨c.modes.request target, c.history, c.files, rfl⟩

theorem acts_settle (spec : Spec) (result : Except TerminalError Outcome) (c : Console) :
    (c.settle spec result).2.acts = c.acts := by
  obtain ⟨modes, history, files, hs⟩ := settle_rest spec result c
  rw [hs]
  rfl

theorem ensureSettings_eq (c : Console) (modes : ModeMachine) :
    ensureSettings { c with modes := modes } =
      (c.ensureSettings.1, { c.ensureSettings.2 with modes := modes }) := by
  unfold ensureSettings
  cases h : c.settings <;> simp [h]

def dressing (hint : String) (c : Console) : Dressing :=
  Dressing.ofSettings (c.modes.beginCycle hint).1 c.ensureSettings.1 c.ensureSettings.2.status

def editor (hint : String) (c : Console) : Editor :=
  Editor.start (c.modes.beginCycle hint).1 c.ensureSettings.1.editingMode
    c.ensureSettings.2.history.entries

def begun (hint : String) (c : Console) : Console :=
  { c.ensureSettings.2 with modes := (c.modes.beginCycle hint).2 }

theorem begun_of_settings {c : Console} {settings : Settings} (hl : c.settings = some settings) (hint : String) :
    c.ensureSettings = (settings, c) ∧
      c.begun hint = { c with modes := (c.modes.beginCycle hint).2 } := by
  have he : c.ensureSettings = (settings, c) := by simp [ensureSettings, hl]
  exact ⟨he, by simp only [begun, he]⟩

theorem cycle_eq (hint : String) (s : Keyed) :
    cycle hint s =
      let r := readLine (s.1.dressing hint) (s.1.editor hint) (s.1.begun hint, s.2)
      let t := r.2.1.drain.settle (s.1.modes.beginCycle hint).1 r.1
      (t.1, t.2, r.2.2) := by
  simp only [cycle, ensureSettings_eq, Editor.startOver_eq]
  rfl

theorem cycle_respects {R : Keyed → Keyed → Prop} (hint : String) (s : Keyed)
    (h : RespectedByKeys (Act.Amid (s.1.dressing hint)) R) (hl : RespectedByLoads R)
    (settle : ∀ spec result c keys, R (c, keys) ((settle spec result c).2, keys)) :
    R s (cycle hint s).2 := by
  have hb : R s (s.1.begun hint, s.2) :=
    h.trans (h.ensureSettings hl.toRespectedByLoading s.1 s.2) (hl.modes _ _ s.2)
  have hr := h.trans hb (h.readLine (s.1.editor hint) (s.1.begun hint, s.2))
  have hd := h.trans hr (h.drain (fun _ => ⟨.bare rfl, rfl⟩) _ _)
  rw [cycle_eq]
  exact h.trans hd (settle _ _ _ _)

theorem adds_cycle (hint : String) (s : Keyed) :
    Adds (Act.Of (s.1.dressing hint)) s.1 (cycle hint s).2.1 :=
  cycle_respects (R := fun s' t' => Adds (Act.Of (s.1.dressing hint)) s'.1 t'.1) hint s
    (adds_respected (fun _ ha => ha.1) fun _ => .bare rfl) (adds_loads _)
    fun spec result c _ => .of_acts (acts_settle spec result c)

end Console

end RConsole
