import RConsole.Proofs.Console.Failing
import RConsole.Proofs.Console.Ledger
import RConsole.Proofs.Console.Meanwhile
import RConsole.Proofs.Console.RawMode
import RConsole.Proofs.Console.TwinTurns

namespace RConsole

structure Terminal.Released (t : Terminal) : Prop where
  raw : t.raw = false
  leaves : ∀ f ∈ t.faults, f.method = .leave → f.fails = none

namespace Console

variable {c c' : Console} {s : Keyed} {r : Round} {P : Act → Prop}

theorem desk_respected : RespectedByCalls P fun s t => t.1.desk.bare = s.1.desk.bare where
  refl _ := rfl
  trans h h' := Eq.trans h' h
  call _ c _ := congrArg Console.desk (call_aside _ c)
  perform _ _ _ := rfl
  unqueue _ _ := rfl
  keymap _ _ _ := rfl

theorem desk_loading : RespectedByLoading fun s t => t.1.desk.bare = s.1.desk.bare where
  loaded _ _ _ _ _ := rfl

theorem desk_begun (hint : String) (c : Console) : (c.begun hint).desk = c.desk := by
  unfold begun ensureSettings
  split <;> rfl

theorem edited_meanwhile (r : Round) :
    ∃ n, Meanwhile n (r.start.1.begun r.hint) r.edited.2.1.drain := by
  have hm : RespectedByKeys (Act.Amid r.dressing) fun s t => ∃ n, Meanwhile n s.1 t.1 :=
    meanwhile_respected
  have hr := hm.readLine r.editor (r.start.1.begun r.hint, r.start.2)
  exact hm.trans hr (hm.drain (fun _ => ⟨.bare rfl, rfl⟩) r.edited.2.1 r.edited.2.2)

theorem cycle_desk (hint : String) (s : Keyed) : (cycle hint s).2.1.desk.bare = s.1.desk.bare := by
  let r : Round := ⟨hint, s⟩
  obtain ⟨n, hm⟩ := edited_meanwhile r
  obtain ⟨modes, history, files, hend⟩ := r.finish_rest
  have hd := hm.desk
  rw [desk_begun] at hd
  change r.finish.1.desk.bare = _
  rw [hend]
  exact hd

theorem read_desk (hint : Utf8.Bytes) (size : Int) (s : Keyed) :
    (read hint size s).2.1.desk.bare = s.1.desk.bare := by
  rw [read_eq]
  split
  · rename_i ha
    have hfree : s.1.desk.running.has .read = false := by
      unfold admits at ha
      simp only [Bool.and_eq_true, Bool.not_eq_true'] at ha
      exact ha.2
    have hw : RespectedByCalls (fun a => ∃ chunk, a = .wrote chunk)
        fun s t => t.1.desk.bare = s.1.desk.bare := desk_respected
    have hlead := hw.lead desk_loading (fun chunk => ⟨chunk, rfl⟩) (s.1.hold true) s.2
    have hline := line_rel (R := fun s t => t.1.desk.bare = s.1.desk.bare)
      (fun h h' => Eq.trans h' h) cycle_desk (cString hint) ((s.1.hold true).lead, s.2)
    have hall := Eq.trans hline hlead
    dsimp only
    generalize (cycles.line (cString hint) ((s.1.hold true).lead, s.2)).2 = t at hall
    have hback : (s.1.desk.running.set .read true).set .read false = s.1.desk.running := by
      rw [Running.set_set, Running.set_has hfree]
    change { t.1.desk.bare with running := t.1.desk.bare.running.set .read false } = _
    rw [hall]
    change { s.1.desk.bare with running := (s.1.desk.running.set .read true).set .read false } = _
    rw [hback]
    rfl
  · rfl

theorem faults_call (m : Method) (c : Console) : (c.call m).2.terminal.faults = c.terminal.faults := by
  rw [terminal_call]
  rfl

theorem faults_respected : RespectedByKeys P fun s t => t.1.terminal.faults = s.1.terminal.faults where
  refl _ := rfl
  trans h h' := Eq.trans h' h
  call _ c _ := faults_call _ c
  perform _ _ _ := rfl
  unqueue _ _ := rfl
  ready c _ := faults_call .ready c
  poll _ _ := rfl
  step c _ := congrArg Terminal.faults (terminal_eventStep c)
  typed _ _ := rfl
  keymap _ _ _ := rfl

theorem released_respected : RespectedByCalls (fun a => ∃ chunk, a = .wrote chunk)
    fun s t => s.1.terminal.Released → t.1.terminal.Released where
  refl _ := id
  trans h h' := h' ∘ h
  call := by
    intro m _ c keys h
    rw [terminal_call]
    exact ⟨h.raw, h.leaves⟩
  perform := by
    rintro a ⟨chunk, rfl⟩ c keys h
    exact ⟨h.raw, h.leaves⟩
  unqueue _ _ := id
  keymap _ _ _ := id

theorem released_loading : RespectedByLoading
    fun s t => s.1.terminal.Released → t.1.terminal.Released where
  loaded _ _ _ _ _ := id

theorem readLine_leaves (d : Dressing) (e : Editor) (s : Keyed) :
    (readLine d e s).2.1.terminal.calls = .enter :: s.1.terminal.calls ∨
      (readLine d e s).2.1.terminal.calls.head? = some .leave := by
  have hact (m : Method) (a : Act) (c : Console) :
      (c.act m a).2.terminal.calls = m :: c.terminal.calls := by
    have hc := terminal_call m c
    unfold act
    generalize c.call m = called at hc
    obtain ⟨_ | _, c'⟩ := called
    · exact congrArg Terminal.calls hc
    · exact congrArg Terminal.calls hc
  have henter := hact .enter .entered s.1
  unfold readLine
  generalize s.1.act .enter .entered = entered at henter
  obtain ⟨message | _, c⟩ := entered
  · exact .inl henter
  · right
    dsimp only
    generalize edit d e (c.withKeymap e.keymap, s.2) = edited
    obtain ⟨result, c', keys⟩ := edited
    have hleave := hact .leave .left c'
    dsimp only
    generalize c'.act .leave .left = left at hleave
    obtain ⟨left, c''⟩ := left
    cases result <;> cases left <;> exact congrArg List.head? hleave

theorem readLine_released (d : Dressing) (e : Editor) (h : s.1.terminal.Released) :
    (readLine d e s).2.1.terminal.Released := by
  have hf : RespectedByKeys (Act.Amid d) fun s t => t.1.terminal.faults = s.1.terminal.faults :=
    faults_respected
  have hall := hf.readLine e s
  refine ⟨?_, fun f hm => h.leaves f (hall ▸ hm)⟩
  have hc := terminal_call .enter s.1
  have henter := hf.act (m := .enter) (a := .entered) (by simp) ⟨.bare rfl, rfl⟩ s.1 s.2
  unfold readLine
  unfold act at henter ⊢
  generalize s.1.call .enter = entered at hc henter
  obtain ⟨message | _, c⟩ := entered
  · exact (congrArg Terminal.raw hc).trans h.raw
  · have hedit := hf.edit e ((c.perform .entered).withKeymap e.keymap, s.2)
    dsimp only at henter ⊢
    generalize edit d e ((c.perform .entered).withKeymap e.keymap, s.2) = edited at hedit
    obtain ⟨result, c', keys⟩ := edited
    have hleaves : ∀ f ∈ c'.terminal.faults, f.method = .leave → f.fails = none := by
      intro f hm
      have hsame : c'.terminal.faults = s.1.terminal.faults := Eq.trans hedit henter
      exact h.leaves f (hsame ▸ hm)
    have hleft := leave_ok hleaves
    unfold act at hleft
    dsimp only
    rw [hleft]
    cases result <;> rfl

theorem cycle_released (hint : String) (h : s.1.terminal.Released) :
    (cycle hint s).2.1.terminal.Released := by
  let r : Round := ⟨hint, s⟩
  have hb : (s.1.begun hint).terminal.Released := by
    rw [terminal_begun]
    exact h
  have hr : r.edited.2.1.terminal.Released :=
    readLine_released (s := (s.1.begun hint, s.2)) r.dressing r.editor hb
  have hd := released_respected.drain (fun chunk => ⟨chunk, rfl⟩) r.edited.2.1 r.edited.2.2 hr
  obtain ⟨modes, history, files, hend⟩ := r.finish_rest
  change r.finish.1.terminal.Released
  rw [hend]
  exact hd

theorem read_released (hint : Utf8.Bytes) (size : Int) (h : s.1.terminal.Released) :
    (read hint size s).2.1.terminal.Released := by
  rw [read_eq]
  split
  · have hlead := released_respected.lead released_loading (fun chunk => ⟨chunk, rfl⟩)
      (s.1.hold true) s.2 h
    exact line_rel (R := fun s t => s.1.terminal.Released → t.1.terminal.Released)
      (fun h h' => h' ∘ h) (fun hint _ hs => cycle_released hint hs) (cString hint)
      ((s.1.hold true).lead, s.2) hlead
  · exact h

namespace Round

variable {e : TerminalError}

theorem line_again (h : r.result.isAgain = true) : r.line? = none := by
  unfold line?
  cases hr : r.result with
  | line text =>
    rw [hr] at h
    cases h
  | interrupted => rfl
  | restart => rfl
  | endOfInput => rfl

theorem kept_of_line (h : r.line? = none) : r.kept? = none := by
  unfold kept?
  rw [h]
  exact ite_self none

theorem result_failed (h : r.edited.1 = .error e) : r.result = .endOfInput := by
  rw [r.result_eq, h]

theorem finish_failed (h : r.edited.1 = .error e) : r.finish = (r.edited.2.1.drain, r.edited.2.2) := by
  rw [r.finish_eq, h]
  rfl

end Round

theorem read_failed {hint : Utf8.Bytes} {size : Int} {e : TerminalError}
    (hr : r ∈ (Turn.read hint size).rounds s) (he : r.edited.1 = .error e) :
    Loaded r.start.1 ∧ ((Turn.read hint size).rounds s).filterMap Round.kept? = [] ∧
      read hint size s = (.untouched, r.edited.2.1.drain.hold false, r.edited.2.2) := by
  by_cases ha : s.1.admits size = true
  · obtain ⟨passed, last, hrounds, hp, -, hline⟩ :=
      rounds_end (cString hint) ((s.1.hold true).lead, s.2)
    have hres := Round.result_failed he
    simp only [Turn.rounds, if_pos ha] at hr ⊢
    have hload : Loaded r.start.1 :=
      rounds_start (Q := fun t => Loaded t.1) (fun _ => cycle_loaded _) (lead_loaded _) r hr
    rw [hrounds] at hr ⊢
    have hlast : r = last := by
      rcases List.mem_append.mp hr with hr | hr
      · have hagain := hp r hr
        rw [hres] at hagain
        cases hagain
      · exact List.mem_singleton.mp hr
    subst hlast
    have hnone : r.line? = none := by
      unfold Round.line?
      rw [hres]
    refine ⟨hload, ?_, ?_⟩
    · apply List.filterMap_eq_nil_iff.mpr
      intro r' hr'
      rcases List.mem_append.mp hr' with hr' | hr'
      · exact Round.kept_of_line (Round.line_again (hp r' hr'))
      · cases List.mem_singleton.mp hr'
        exact Round.kept_of_line hnone
    · rw [read_eq, if_pos ha, hline, hnone, Round.finish_failed he]
      rfl
  · simp only [Turn.rounds, if_neg ha] at hr
    cases hr

def Round.refused (r : Round) (message : String) (keys : List Input) : Keyed :=
  let fault : Fault := { method := .enter, nth := 0, fails := some message }
  (cycle r.hint ({ r.start.1 with terminal := { faults := [fault] } }, keys)).2

theorem Round.refused_eq (hl : Loaded r.start.1) (message : String) (keys : List Input) :
    (r.refused message keys).2 = keys ∧
      (r.refused message keys).1.aside = (r.start.1.begun r.hint).aside := by
  obtain ⟨settings, hs⟩ := hl.settings
  let fault : Fault := { method := .enter, nth := 0, fails := some message }
  let q : Round := ⟨r.hint, ({ r.start.1 with terminal := { faults := [fault] } }, keys)⟩
  have hb : q.start.1.begun q.hint =
      { r.start.1.begun r.hint with terminal := { faults := [fault] } } := by
    have hsq : q.start.1.settings = some settings := hs
    rw [(begun_of_settings hs r.hint).2, (begun_of_settings hsq q.hint).2]
  have he : q.edited = (.error (.failed message), { r.start.1.begun r.hint with
      terminal := Terminal.count { faults := [fault] } .enter }, keys) := by
    unfold Round.edited
    rw [hb]
    rfl
  have hd : RespectedByCalls (fun a => ∃ chunk, a = .wrote chunk) fun s t => t.1.aside = s.1.aside :=
    aside_respected
  have hdrain := hd.drain (fun chunk => ⟨chunk, rfl⟩) q.edited.2.1 q.edited.2.2
  change q.finish.2 = keys ∧ q.finish.1.aside = _
  rw [Round.finish_failed (congrArg Prod.fst he)]
  refine ⟨congrArg (fun edited => edited.2.2) he, Eq.trans hdrain ?_⟩
  rw [he]
  rfl

/-- The console after its read, with what is still to come: a terminal, R's event steps, output that
waits and modes that were asked for. -/
def resume (terminal : Terminal) (events : List (List Action)) (queue : List Chunk)
    (requests : List Mode) (c : Console) : Console :=
  { c.hold false with
    terminal := terminal
    engine := c.engine.plan events
    queue := queue
    modes := c.modes.requestAll requests }

theorem resume_twins {n : Nat} {b : Console} (hm : Meanwhile n c c') (hb : b.aside = c.aside)
    (terminal : Terminal) :
    Twins { c'.hold false with terminal := terminal }
      (b.resume terminal (c'.hold false).engine.events (c'.hold false).queue
        ((c.engine.events.take n).flatMap Action.requested)) := by
  have hl : ({ c'.hold false with terminal := terminal } : Console).bare =
      { c'.aside.hold false with terminal := terminal, queue := c'.queue } := rfl
  have hr (events : List (List Action)) (queue : List Chunk) (requests : List Mode) :
      (b.resume terminal events queue requests).bare = { b.aside.hold false with
        terminal := terminal
        engine := b.aside.engine.plan events
        queue := queue
        modes := b.aside.modes.requestAll requests } := rfl
  have he : (c'.hold false).engine.events = c.engine.events.drop n := hm.events
  unfold Twins
  rw [hl, hr, hb, he]
  unfold Meanwhile at hm
  rw [hm]
  rfl

theorem failed_turns {n : Nat} {e : TerminalError} (hl : Loaded r.start.1) (he : r.edited.1 = .error e)
    (hm : Meanwhile n (r.start.1.begun r.hint) r.edited.2.1.drain) (message : String)
    (terminal : Terminal) (keys : List Input) (turns : List Turn) :
    let c := r.edited.2.1.drain.hold false
    let b := r.refused message keys
    Same KeyedTwins (Turn.runAll turns ({ c with terminal := terminal }, keys))
      (Turn.runAll turns (b.1.resume terminal c.engine.events c.queue
        ((r.start.1.engine.events.take n).flatMap Action.requested), b.2)) := by
  intro c b
  obtain ⟨settings, hs⟩ := hl.settings
  obtain ⟨hkeys, haside⟩ := r.refused_eq hl message keys
  have hevents : (r.start.1.begun r.hint).engine = r.start.1.engine := by
    rw [(begun_of_settings hs r.hint).2]
  have hc := cycle_loaded r.hint hl
  change Loaded r.finish.1 at hc
  rw [Round.finish_failed he] at hc
  have hloaded : Loaded { c with terminal := terminal } := hc.of_loads rfl
  have htwins := resume_twins hm haside terminal
  rw [hevents] at htwins
  exact turns_twins turns (s := ({ c with terminal := terminal }, keys)) hloaded ⟨htwins, hkeys.symm⟩

/-- Any call that fails in a prompt cycle makes the cycle fail. Then the read has no line, the history
is as it was, the reader and the terminal are free again, and the modes are as the cycle began with them
but for those that R asked for meanwhile. All later turns, on whatever terminal, do what they would do
had the cycle not got into raw mode. -/
theorem failed_cycle_isolated (hint : Utf8.Bytes) (size : Int) (s : Keyed) (r : Round)
    (hr : r ∈ (Turn.read hint size).rounds s) :
    let t := (read hint size s).2
    ((∃ f : Fault, f.Strikes r.start.1.terminal r.edited.2.1.terminal) →
      ∃ e, r.edited.1 = .error e) ∧
    ∀ e, r.edited.1 = .error e →
      (read hint size s).1 = .untouched ∧ t.1.history = s.1.history ∧ t.1.files = s.1.files ∧
      t.1.desk.bare = s.1.desk.bare ∧
      (r.edited.2.1.terminal.calls = .enter :: r.start.1.terminal.calls ∨
        r.edited.2.1.terminal.calls.head? = some .leave) ∧
      (s.1.terminal.Released → t.1.terminal.Released) ∧
      ∃ n,
        let requests := (r.start.1.engine.events.take n).flatMap Action.requested
        t.1.engine.events = r.start.1.engine.events.drop n ∧
        t.1.modes = (r.start.1.modes.beginCycle r.hint).2.requestAll requests ∧
        ∀ message terminal turns,
          let b := r.refused message t.2
          let x := Turn.runAll turns ({ t.1 with terminal := terminal }, t.2)
          let y := Turn.runAll turns
            (b.1.resume terminal t.1.engine.events t.1.queue requests, b.2)
          x.1 = y.1 ∧ x.2.1.acts = y.2.1.acts ∧ x.2.1.history = y.2.1.history ∧
            x.2.1.files = y.2.1.files ∧ x.2.1.modes = y.2.1.modes ∧ x.2.2 = y.2.2 := by
  have hbegun : (r.start.1.begun r.hint).terminal = r.start.1.terminal := terminal_begun _ _
  intro t
  constructor
  · rintro ⟨f, hf⟩
    cases he : r.edited.1 with
    | error e => exact ⟨e, rfl⟩
    | ok outcome =>
      have hs := readLine_spares (s := (r.start.1.begun r.hint, r.start.2)) he
      rw [← hbegun] at hf
      exact absurd hf (hs.spared f)
  · intro e he
    obtain ⟨hload, hkept, hread⟩ := read_failed hr he
    obtain ⟨settings, hset⟩ := hload.settings
    obtain ⟨n, hm⟩ := edited_meanwhile r
    have ht : t.1 = r.edited.2.1.drain.hold false := congrArg (fun read => read.2.1) hread
    have hledger : t.1.ledger = s.1.ledger := by
      have hf := (turn_follow (.read hint size) s).ledger
      rw [hkept] at hf
      exact hf
    have hleaves := readLine_leaves r.dressing r.editor (r.start.1.begun r.hint, r.start.2)
    have hevents : (r.start.1.begun r.hint).engine = r.start.1.engine := by
      rw [(begun_of_settings hset r.hint).2]
    have hused := hm.events
    have hasked := hm.modes
    rw [hevents] at hused hasked
    refine ⟨congrArg Prod.fst hread, congrArg Ledger.history hledger, congrArg Ledger.files hledger,
      read_desk hint size s, ?_, read_released hint size, n, ?_, ?_, ?_⟩
    · rw [← hbegun]
      exact hleaves
    · rw [ht]
      exact hused
    · rw [ht]
      exact hasked
    · intro message terminal turns b x y
      have hsame := failed_turns hload he hm message terminal t.2 turns
      dsimp only at hsame
      rw [← ht] at hsame
      obtain ⟨hreplies, hend, hkeys⟩ := hsame
      exact ⟨hreplies, hend.same acts fun _ => rfl, hend.same Console.history fun _ => rfl,
        hend.same Console.files fun _ => rfl, hend.same Console.modes fun _ => rfl, hkeys⟩

theorem failed_cycle_isolated_finish :
    let faults : List Fault := [⟨.finish, 0, none, some "gone"⟩]
    let typed : List Input := [.key ⟨.char 'q', {}⟩, .key ⟨.enter, {}⟩]
    let next : List Input := [.idle 1, .key ⟨.char 'a', {}⟩, .key ⟨.enter, {}⟩]
    let s : Keyed := ({ eventfulPrompt.1 with terminal := { faults := faults } }, typed ++ next)
    let r : Round := ⟨"> ", (s.1.hold true).lead, s.2⟩
    let t := (read [0x3E, 0x20] 80 s).2
    let later := Turn.runAll [.read [0x3E, 0x20] 80] ({ t.1 with terminal := {} }, t.2)
    r ∈ (Turn.read [0x3E, 0x20] 80).rounds s ∧
      Fault.Strikes ⟨.finish, 0, none, some "gone"⟩ r.start.1.terminal r.edited.2.1.terminal ∧
      r.edited.1 = .error (.failed "gone") ∧ (read [0x3E, 0x20] 80 s).1 = .untouched ∧
      t.1.history = s.1.history ∧ t.1.terminal.Released ∧ later.1 = [.wrote [0x61, 0x0A, 0]] ∧
      ∃ requests, later.1 = (Turn.runAll [.read [0x3E, 0x20] 80]
        ((r.refused "gone" t.2).1.resume {} t.1.engine.events t.1.queue requests, t.2)).1 := by
  intro faults typed next s r t later
  have hr : r ∈ (Turn.read [0x3E, 0x20] 80).rounds s := by
    have ha : s.1.admits 80 = true := by decide +kernel
    have hc : ¬ (cycle "> " ((s.1.hold true).lead, s.2)).1.isAgain = true := by decide +kernel
    have hh : cString [0x3E, 0x20] = "> " := by decide +kernel
    simp only [Turn.rounds, if_pos ha, hh]
    rw [rounds, dif_neg hc]
    exact List.mem_singleton_self r
  have hstrikes : Fault.Strikes ⟨.finish, 0, none, some "gone"⟩ r.start.1.terminal
      r.edited.2.1.terminal := by
    constructor <;> decide +kernel
  have hreleased : s.1.terminal.Released := ⟨rfl, by decide⟩
  obtain ⟨hfail, hrest⟩ := failed_cycle_isolated [0x3E, 0x20] 80 s r hr
  obtain ⟨e, he⟩ := hfail ⟨_, hstrikes⟩
  obtain ⟨hu, hh, -, -, -, hrel, n, -, -, hlater⟩ := hrest e he
  have hkeys : (r.refused "gone" t.2).2 = t.2 := by decide +kernel
  have hsame := (hlater "gone" {} [.read [0x3E, 0x20] 80]).1
  rw [hkeys] at hsame
  exact ⟨hr, hstrikes, by decide +kernel, hu, hh, hrel hreleased, by decide +kernel, _, hsame⟩

end Console

end RConsole
