import RConsole.Proofs.Console.Rounds

namespace RConsole

def Method.raw? : Method → Option Bool
  | .enter => some false
  | .write => some false
  | .render => some true
  | .finish => some true
  | .clear => some true
  | .suspend => some true
  | .ready => some true
  | .readKey => some true
  | .interleave => some true
  | .leave => none
  | .retake => none

def Method.Fits (m : Method) (raw : Bool) : Prop := ∀ now, m.raw? = some now → now = raw

theorem Method.fits {m : Method} {raw : Bool} (h : m.raw? = some raw) : m.Fits raw := by
  intro now hn
  exact Option.some.inj (hn.symm.trans h)

theorem Method.fits_any {m : Method} (h : m.raw? = none) (raw : Bool) : m.Fits raw := by
  intro now hn
  exact absurd (h.symm.trans hn) (by simp)

namespace Terminal

variable {k : Kind} {t : Terminal} {raw : Bool}

theorem Kind.after_left (k : Kind) (raw : Bool) : k.after raw .left = false := by cases k <;> rfl

theorem Kind.raw_append (k : Kind) (acts : List Act) (a : Act) :
    k.raw (acts ++ [a]) = k.after (k.raw acts) a := by
  simp [raw]

/-- Up to now all calls were made in their mode, and none that leaves raw mode will fail. -/
structure InOrder (k : Kind) (raw : Bool) (t : Terminal) : Prop where
  now : k.raw t.acts.toList = raw
  flag : t.raw = Kind.tty.raw t.acts.toList
  made : ∀ m ∈ t.made, m.acts ≤ t.acts.size ∧ m.method.Fits (k.raw (t.acts.toList.take m.acts))
  leaves : ∀ f ∈ t.faults, f.method = .leave → f.fails = none

namespace InOrder

theorem fresh (k : Kind) {faults : List Fault}
    (h : ∀ f ∈ faults, f.method = .leave → f.fails = none) :
    InOrder k false { faults := faults } := by
  constructor
  · rfl
  · rfl
  · intro m hm
    cases hm
  · exact h

theorem count (h : InOrder k raw t) {m : Method} (hm : m.Fits raw) : InOrder k raw (t.count m) := by
  refine ⟨h.now, h.flag, ?_, h.leaves⟩
  intro m' hm'
  rcases List.mem_cons.mp hm' with rfl | hm'
  · have ht : t.acts.toList.take t.acts.size = t.acts.toList := List.take_length
    refine ⟨Nat.le_refl _, ?_⟩
    change m.Fits (k.raw (t.acts.toList.take t.acts.size))
    rw [ht, h.now]
    exact hm
  · exact h.made m' hm'

theorem perform (h : InOrder k raw t) (a : Act) : InOrder k (k.after raw a) (t.perform a) := by
  constructor
  · simp only [Terminal.perform, Array.toList_push, Kind.raw_append, h.now]
  · simp only [Terminal.perform, Array.toList_push, Kind.raw_append, h.flag]
    rfl
  · intro m hm
    obtain ⟨hl, hf⟩ := h.made m hm
    simp only [Terminal.perform, Array.size_push, Array.toList_push]
    refine ⟨Nat.le_succ_of_le hl, ?_⟩
    rw [List.take_append_of_le_length (by simpa using hl)]
    exact hf
  · exact h.leaves

end InOrder

end Terminal

namespace Console

variable {k : Terminal.Kind} {raw : Bool} {c : Console} {s : Keyed} {d : Dressing}

abbrev InOrder (k : Terminal.Kind) (raw : Bool) (c : Console) : Prop := c.terminal.InOrder k raw

theorem call_inOrder (h : c.InOrder k raw) {m : Method} (hm : m.Fits raw) :
    (c.call m).2.InOrder k raw := by
  unfold InOrder
  rw [terminal_call]
  exact h.count hm

theorem act_inOrder (h : c.InOrder k raw) {m : Method} (hm : m.Fits raw) (a : Act) :
    match c.act m a with
    | (.ok (), c') => c'.InOrder k (k.after raw a)
    | (.error _, c') => c'.InOrder k raw := by
  have hc := call_inOrder h hm
  unfold act
  generalize c.call m = r at hc
  obtain ⟨_ | _, c'⟩ := r
  · exact hc
  · exact hc.perform a

theorem act_keeps (h : c.InOrder k raw) {m : Method} (hm : m.Fits raw) {a : Act}
    (ha : k.after raw a = raw) : (c.act m a).2.InOrder k raw := by
  have hc := act_inOrder h hm a
  rw [ha] at hc
  generalize c.act m a = r at hc
  obtain ⟨_ | _, c'⟩ := r
  · exact hc
  · exact hc

theorem strike_ok {faults : List Fault} (h : ∀ f ∈ faults, f.fails = none) (c : Console) :
    (strike faults c).1 = .ok () := by
  induction faults generalizing c with
  | nil => rfl
  | cons f faults ih =>
    obtain ⟨hf, hr⟩ := List.forall_mem_cons.mp h
    simp only [strike, hf]
    exact ih hr _

theorem leave_ok (h : ∀ f ∈ c.terminal.faults, f.method = .leave → f.fails = none) :
    c.act .leave .left = (.ok (), (c.call .leave).2.perform .left) := by
  have hok : (c.call .leave).1 = .ok () := by
    apply strike_ok
    intro f hf
    have hm := List.mem_filter.mp hf
    simp only [Bool.and_eq_true, decide_eq_true_eq] at hm
    exact h f hm.1 hm.2.1
  unfold act
  generalize c.call .leave = r at hok ⊢
  obtain ⟨_ | _, c'⟩ := r
  · cases hok
  · rfl

theorem leave_inOrder (h : c.InOrder k raw) : ((c.call .leave).2.perform .left).InOrder k false := by
  have hp := (call_inOrder h (m := .leave) (Method.fits_any rfl _)).perform .left
  rw [Terminal.Kind.after_left] at hp
  exact hp

theorem interleave_inOrder (h : c.InOrder k true) (frame : Frame) (chunks : List Chunk) :
    (interleave frame chunks c).2.InOrder k true := by
  induction chunks generalizing c with
  | nil => exact h
  | cons chunk chunks ih =>
    have ha : (c.act .interleave (.interleaved chunk frame)).2.InOrder k true :=
      act_keeps h (Method.fits rfl) (by cases k <;> rfl)
    unfold interleave
    split
    · rename_i he
      rw [he] at ha
      exact ih ha
    · rename_i he
      rw [he] at ha
      exact ha

theorem check_inOrder (h : s.1.InOrder k true) (frame : Frame) :
    (check frame s).2.1.InOrder k true := by
  have hi : (interleave frame s.1.queue { s.1 with queue := [] }).2.InOrder k true :=
    interleave_inOrder (c := { s.1 with queue := [] }) h frame s.1.queue
  unfold check
  split
  · rename_i he
    rw [he] at hi
    exact hi
  · rename_i c he
    rw [he] at hi
    have hp : (c.perform (.asked c.queue)).InOrder k true := by
      have hp := hi.perform (.asked c.queue)
      cases k <;> exact hp
    have ha : ((c.perform (.asked c.queue)).act .ready .checked).2.InOrder k true :=
      act_keeps hp (Method.fits rfl) (by cases k <;> rfl)
    split
    · rename_i he
      rw [he] at ha
      exact ha
    · rename_i he
      rw [he] at ha
      exact ha

theorem wait_inOrder (h : s.1.InOrder k true) (frame : Frame) :
    ((pump frame).wait s).2.1.InOrder k true := by
  refine Pump.waitFrom_rel (pump frame)
    (r := fun s s' => s.1.InOrder k true → s'.1.InOrder k true) ?_ ?_ ?_ {} s h
  · intro s t u hst htu hs
    exact htu (hst hs)
  · intro s hs
    exact check_inOrder hs frame
  · intro s hs
    change s.1.eventStep.2.InOrder k true
    unfold InOrder
    rw [terminal_eventStep]
    exact hs

theorem nextKey_inOrder (h : s.1.InOrder k true) (frame : Frame) :
    (nextKey frame s).2.1.InOrder k true := by
  have hr : (s.1.act .render (.rendered frame)).2.InOrder k true :=
    act_keeps h (Method.fits rfl) (by cases k <;> rfl)
  unfold nextKey
  split
  · rename_i he
    rw [he] at hr
    exact hr
  · rename_i c he
    rw [he] at hr
    have hw := wait_inOrder (s := (c, s.2)) hr frame
    split
    · rename_i he
      rw [he] at hw
      exact hw
    · rename_i t he
      rw [he] at hw
      have hk : (t.1.call .readKey).2.InOrder k true :=
        call_inOrder hw (Method.fits rfl)
      split
      · rename_i he
        rw [he] at hk
        exact hk
      · rename_i he
        rw [he] at hk
        split
        · exact hk
        · rename_i key _ _
          have hp := hk.perform (.keyed key)
          cases k <;> exact hp

def Resumed (k : Terminal.Kind) : Except String Unit × Console → Prop
  | (.ok (), c) => c.InOrder k true
  | (.error _, c) => ∃ raw, c.InOrder k raw

theorem suspend_resumed (h : c.InOrder k true) : Resumed k c.suspend := by
  have hs := act_inOrder h (m := .suspend) (Method.fits rfl) .suspended
  unfold suspend
  generalize c.act .suspend .suspended = r at hs ⊢
  obtain ⟨_ | _, c'⟩ := r
  · exact ⟨true, hs⟩
  · have hr := act_inOrder (c := c') hs (m := .retake) (Method.fits_any rfl _) .retaken
    have hk : k.after (k.after true .suspended) .retaken = true := by cases k <;> rfl
    rw [hk] at hr
    dsimp only
    generalize c'.act .retake .retaken = r at hr ⊢
    obtain ⟨_ | _, c''⟩ := r
    · exact ⟨_, hr⟩
    · exact hr

theorem serve_resumed (h : c.InOrder k true) (request : Option Request) :
    Resumed k (c.serve request) := by
  rcases request with _ | _ | _
  · exact h
  · have hc := act_inOrder h (m := .clear) (Method.fits rfl) .cleared
    have hk : k.after true .cleared = true := by cases k <;> rfl
    rw [hk] at hc
    change Resumed k (c.act .clear .cleared)
    generalize c.act .clear .cleared = r at hc ⊢
    obtain ⟨_ | _, c'⟩ := r
    · exact ⟨true, hc⟩
    · exact hc
  · exact suspend_resumed h

theorem conclude_inOrder (h : c.InOrder k true) (d : Dressing) (e : Editor) (outcome : Outcome) :
    (c.conclude d e outcome).2.InOrder k true := by
  have hf : (c.act .finish (.finished (d.lastFrame e.buffer))).2.InOrder k true :=
    act_keeps h (Method.fits rfl) (by cases k <;> rfl)
  unfold conclude
  split
  · split
    · rename_i he
      rw [he] at hf
      exact hf
    · rename_i he
      rw [he] at hf
      exact hf
  · exact h

theorem edit_inOrder (h : s.1.InOrder k true) (d : Dressing) (e : Editor) :
    ∃ raw, (edit d e s).2.1.InOrder k raw := by
  fun_induction edit d e s with
  | case1 e s error he => exact ⟨true, nextKey_inOrder h _⟩
  | case2 e s hk ih => exact ih (nextKey_inOrder h _)
  | case3 e s key hk s' outcome hp result c hc =>
    have hd := conclude_inOrder (nextKey_inOrder h (d.frame e.buffer)) d e outcome
    rw [hc] at hd
    exact ⟨true, hd⟩
  | case4 e s key hk s' e' request hp message c hc =>
    have hs := serve_resumed (c := s'.1.withKeymap e'.keymap) (nextKey_inOrder h _) request
    rw [hc] at hs
    exact hs
  | case5 e s key hk s' e' request hp c hc ih =>
    have hs := serve_resumed (c := s'.1.withKeymap e'.keymap) (nextKey_inOrder h _) request
    rw [hc] at hs
    exact ih hs

theorem readLine_inOrder (h : s.1.InOrder k false) (d : Dressing) (e : Editor) :
    (readLine d e s).2.1.InOrder k false := by
  have henter := act_inOrder h (m := .enter) (Method.fits rfl) .entered
  have hk : k.after false .entered = true := by cases k <;> rfl
  rw [hk] at henter
  unfold readLine
  split
  · rename_i he
    rw [he] at henter
    exact henter
  · rename_i c he
    rw [he] at henter
    obtain ⟨raw, hedit⟩ := edit_inOrder (s := (c.withKeymap e.keymap, s.2)) henter d e
    generalize edit d e (c.withKeymap e.keymap, s.2) = r at hedit
    obtain ⟨result, c', keys⟩ := r
    have hleave := leave_inOrder hedit
    dsimp only
    rw [leave_ok hedit.leaves]
    cases result <;> exact hleave

theorem print_inOrder (h : c.InOrder k false) (chunk : Chunk) : (c.print chunk).InOrder k false :=
  act_keeps h (Method.fits rfl) (by cases k <;> rfl)

theorem tell_inOrder (h : c.InOrder k false) (text : String) : (c.tell print text).InOrder k false := by
  have hp := print_inOrder h ⟨text, .out⟩
  unfold tell
  dsimp only
  split
  · exact hp
  · exact print_inOrder hp _

theorem drain_inOrder (h : c.InOrder k false) : c.drain.InOrder k false := by
  have hp (chunks : List Chunk) {c : Console} (h : c.InOrder k false) :
      (chunks.foldl (fun c chunk => c.print chunk) c).InOrder k false := by
    induction chunks generalizing c with
    | nil => exact h
    | cons chunk chunks ih => exact ih (print_inOrder h chunk)
  exact hp c.queue (c := { c with queue := [] }) h

theorem terminal_ensureSettings (c : Console) : c.ensureSettings.2.terminal = c.terminal := by
  unfold ensureSettings
  split <;> rfl

theorem terminal_begun (hint : String) (c : Console) : (c.begun hint).terminal = c.terminal :=
  terminal_ensureSettings c

theorem lead_inOrder (h : c.InOrder k false) : c.lead.InOrder k false := by
  have hs : c.ensureSettings.2.InOrder k false := by
    unfold InOrder
    rw [terminal_ensureSettings]
    exact h
  have hb : c.ensureSettings.2.banner.InOrder k false := by
    unfold banner
    split
    · exact hs
    · dsimp only
      split
      · exact tell_inOrder (c := { c.ensureSettings.2 with loadBanner := none, engine := _ }) hs _
      · exact hs
  unfold lead
  dsimp only
  split
  · exact print_inOrder hb _
  · exact hb

theorem cycle_inOrder (hint : String) (h : s.1.InOrder k false) :
    (cycle hint s).2.1.InOrder k false := by
  let r : Round := ⟨hint, s⟩
  have hb : (s.1.begun hint).InOrder k false := by
    unfold InOrder
    rw [terminal_begun]
    exact h
  have hr : r.edited.2.1.InOrder k false :=
    readLine_inOrder (s := (s.1.begun hint, s.2)) hb r.dressing r.editor
  obtain ⟨modes, history, files, hend⟩ := r.finish_rest
  change r.finish.1.InOrder k false
  rw [hend]
  exact drain_inOrder hr

theorem line_inOrder (hint : String) (h : s.1.InOrder k false) :
    (cycles.line hint s).2.1.InOrder k false :=
  line_rel (R := fun s t => s.1.InOrder k false → t.1.InOrder k false)
    (fun hst htu hs => htu (hst hs)) (fun hint _ hs => cycle_inOrder hint hs) hint s h

theorem rounds_inOrder (hint : String) (h : s.1.InOrder k false) :
    ∀ r ∈ rounds hint s, r.finish.1.InOrder k false := by
  intro r hr
  have hs : r.start.1.InOrder k false :=
    rounds_start (Q := fun t => t.1.InOrder k false) (fun _ => cycle_inOrder hint) h r hr
  exact cycle_inOrder r.hint hs

theorem turn_inOrder (t : Turn) (h : s.1.InOrder k false) :
    (t.run s).2.1.InOrder k false ∧ ∀ r ∈ t.rounds s, r.finish.1.InOrder k false := by
  have hdesk (c : Console) (d : Desk) (h : c.InOrder k false) :
      InOrder k false { c with desk := d } := h
  have hrel {c c' c'' : Console} (hcc : c.InOrder k false → c'.InOrder k false)
      (hcc' : c'.InOrder k false → c''.InOrder k false) (h : c.InOrder k false) :
      c''.InOrder k false := hcc' (hcc h)
  cases t with
  | read hint size =>
    simp only [Turn.run, Turn.rounds]
    rw [read_eq]
    split
    · have hl : (s.1.hold true).lead.InOrder k false := lead_inOrder (c := s.1.hold true) h
      exact ⟨line_inOrder (s := (_, s.2)) _ hl, rounds_inOrder (s := (_, s.2)) _ hl⟩
    · exact ⟨h, by simp⟩
  | write bytes code =>
    refine ⟨?_, by simp [Turn.rounds]⟩
    exact Desk.write_rel (r := fun c c' : Console => c.InOrder k false → c'.InOrder k false)
      (fun _ => id) hrel (fun d c => hdesk c d) (fun chunk _ h => print_inOrder h chunk) bytes code
      s.1 h
  | message bytes =>
    refine ⟨?_, by simp [Turn.rounds]⟩
    exact Desk.message_rel (r := fun c c' : Console => c.InOrder k false → c'.InOrder k false)
      (fun _ => id) hrel (fun d c => hdesk c d) (fun text _ h => tell_inOrder h text) bytes s.1 h
  | request mode => exact ⟨h, by simp [Turn.rounds]⟩

theorem turns_inOrder (turns : List Turn) (h : s.1.InOrder k false) :
    (Turn.runAll turns s).2.1.InOrder k false ∧
      ∀ r ∈ Turn.roundsAll turns s, r.finish.1.InOrder k false := by
  induction turns generalizing s with
  | nil => exact ⟨h, by simp [Turn.roundsAll]⟩
  | cons t turns ih =>
    obtain ⟨ht, hr⟩ := turn_inOrder t h
    obtain ⟨hts, hrs⟩ := ih ht
    refine ⟨hts, ?_⟩
    intro r hm
    exact (List.mem_append.mp hm).elim (hr r) (hrs r)

/-- Whatever fails but leaving raw mode: whenever output is written between prompts raw mode is off,
whenever a prompt is drawn, printed above, cleared or suspended it is on, and after each cycle it is
off. -/
theorem raw_while_editing (k : Terminal.Kind) (faults : List Fault) (c : Console)
    (keys : List Input) (turns : List Turn)
    (h : ∀ f ∈ faults, f.method = .leave → f.fails = none) :
    let s : Keyed := ({ c with terminal := { faults := faults } }, keys)
    let t := (Turn.runAll turns s).2
    (∀ m ∈ t.1.terminal.made, ∀ raw, m.method.raw? = some raw → k.raw (t.1.acts.take m.acts) = raw) ∧
    (∀ r ∈ Turn.roundsAll turns s,
      k.raw r.finish.1.acts = false ∧ r.finish.1.terminal.raw = Terminal.Kind.tty.raw r.finish.1.acts) ∧
    k.raw t.1.acts = false ∧ t.1.terminal.raw = Terminal.Kind.tty.raw t.1.acts := by
  intro s t
  obtain ⟨ht, hr⟩ := turns_inOrder (k := k) (s := s) turns (.fresh k h)
  refine ⟨?_, ?_, ht.now, ht.flag⟩
  · intro m hm raw hraw
    exact ((ht.made m hm).2 raw hraw).symm
  · intro r hm
    exact ⟨(hr r hm).now, (hr r hm).flag⟩

theorem raw_while_editing_retaken :
    let faults : List Fault := [⟨.retake, 0, none, some "gone"⟩]
    let s : Keyed := ({ eventfulPrompt.1 with terminal := { faults := faults } },
      [.key ⟨.char 'z', { ctrl := true }⟩])
    let turns : List Turn := [.read [0x3E, 0x20] 80, .write [0x61] 0]
    let t := (Turn.runAll turns s).2
    (∀ f ∈ faults, f.method = .leave → f.fails = none) ∧
    (t.1.terminal.calls.reverse = [.write, .write, .write, .enter, .render, .ready, .readKey,
      .suspend, .retake, .leave, .write]) ∧
    ∀ k : Terminal.Kind, (∀ m ∈ t.1.terminal.made, ∀ raw, m.method.raw? = some raw →
      k.raw (t.1.acts.take m.acts) = raw) ∧ k.raw t.1.acts = false := by
  intro faults s turns t
  have h : ∀ f ∈ faults, f.method = .leave → f.fails = none := by decide
  refine ⟨h, by decide +kernel, ?_⟩
  intro k
  obtain ⟨hmade, -, hoff, -⟩ := raw_while_editing k faults eventfulPrompt.1 s.2 turns h
  exact ⟨hmade, hoff⟩

end Console

end RConsole
