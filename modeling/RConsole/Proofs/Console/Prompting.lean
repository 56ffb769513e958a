import RConsole.Proofs.Console.Delivery

/-!
A prompt on a quiet terminal. What comes of it is worked out from the keys alone, and the waits
between them are shown to add nothing to it but output that comes out in its order.
-/
namespace RConsole

structure Played where
  result : Except TerminalError Outcome
  rest : List (Option Key)
  pictures : List Act

namespace Editor

/-- Edits with the given keys, all of which are there at once. -/
def play (d : Dressing) (e : Editor) : List (Option Key) → Played
  | [] => ⟨.error .inputClosed, [], [.rendered (d.frame e.buffer)]⟩
  | none :: keys =>
    let p := play d e keys
    ⟨p.result, p.rest, .rendered (d.frame e.buffer) :: p.pictures⟩
  | some k :: keys =>
    match e.press k with
    | .done outcome =>
      ⟨.ok outcome, keys, .rendered (d.frame e.buffer) ::
        if outcome.leavesPicture then [.finished (d.lastFrame e.buffer)] else []⟩
    | .goOn e' _ =>
      let p := play d e' keys
      ⟨p.result, p.rest, .rendered (d.frame e.buffer) :: p.pictures⟩

end Editor

namespace Console

def Modest (c : Console) : Prop := ∀ actions ∈ c.engine.events, actions.any Action.isRequest = false

instance (c : Console) : Decidable (Modest c) := List.decidableBAll _ _

theorem Modest.of_drop {c c' : Console} {n : Nat} (h : Modest c)
    (he : c'.engine.events = c.engine.events.drop n) : Modest c' := by
  intro actions ha
  rw [he] at ha
  exact h actions (List.mem_of_mem_drop ha)

/-- From one state to the other the terminal gave the answers `read`, R got its event steps for them,
and what was due came out. -/
structure Serves (read : List Answer) (s s' : Keyed) : Prop where
  answers : Input.answers s.2 = read ++ Input.answers s'.2
  events : s'.1.engine.events = s.1.engine.events.drop (Answer.steps read)
  delivers : Delivers (Answer.marks read s.1.engine.events) s.1 s'.1
  refuses : Refuses s.1 s'.1

namespace Serves

variable {read read' : List Answer} {s s' s'' : Keyed}

theorem trans (h : Serves read s s') (h' : Serves read' s' s'') : Serves (read ++ read') s s'' where
  answers := by rw [h.answers, h'.answers, List.append_assoc]
  events := by rw [h'.events, h.events, List.drop_drop, Answer.steps_append]
  delivers := by
    have hd := h.delivers.trans h'.delivers
    rw [h.events] at hd
    rw [Answer.marks_append]
    exact hd
  refuses := h.refuses.trans h'.refuses

theorem of_delivers {c c' : Console} {keys : List Input} (h : Delivers [] c c')
    (he : c'.engine.events = c.engine.events) (hr : Refuses c c') : Serves [] (c, keys) (c', keys) :=
  ⟨rfl, by simp [he, Answer.steps], h, hr⟩

theorem modest (h : Serves read s s') (hm : Modest s.1) : Modest s'.1 := hm.of_drop h.events

theorem keys (h : Serves read s s') :
    Input.keys s.2 = read.filterMap Answer.key? ++ Input.keys s'.2 := by
  unfold Input.keys
  rw [h.answers, List.filterMap_append]

end Serves

structure Prompts (read : List Answer) (pics : List Act) (s s' : Keyed) : Prop
    extends Serves read s s' where
  pictures : s'.1.pictures = s.1.pictures ++ pics
  backdrop : s'.1.backdrop = s.1.backdrop
  modes : Modest s.1 → s'.1.modes = s.1.modes

namespace Prompts

variable {read read' : List Answer} {pics pics' : List Act} {s s' s'' : Keyed}

theorem bound {reading : Bool} (h : Prompts read pics s s') (hb : Bound reading s.1) :
    Bound reading s'.1 :=
  hb.of_backdrop h.backdrop

theorem trans (h : Prompts read pics s s') (h' : Prompts read' pics' s' s'') :
    Prompts (read ++ read') (pics ++ pics') s s'' where
  toServes := h.toServes.trans h'.toServes
  pictures := by rw [h'.pictures, h.pictures, List.append_assoc]
  backdrop := h'.backdrop.trans h.backdrop
  modes hm := (h'.modes (h.modest hm)).trans (h.modes hm)

theorem did (method : Method) (a : Act) (hm : a.mark? = none) (hw : ∀ waiting, a ≠ .asked waiting)
    (hp : [a].filter Act.isPicture = pics) (s : Keyed) :
    Prompts [] pics s (s.1.did method a, s.2) where
  answers := rfl
  events := by simp [Console.did, Answer.steps]
  delivers := .silent (acts_did method a s.1) rfl hm fun waiting h => absurd h (hw waiting)
  pictures := by simp only [Console.pictures, acts_did, List.filter_append, hp]
  backdrop := rfl
  modes _ := rfl
  refuses := .of_notes rfl

theorem refl (s : Keyed) : Prompts [] [] s s where
  answers := rfl
  events := by simp [Answer.steps]
  delivers := .refl s.1
  pictures := by simp
  backdrop := rfl
  modes _ := rfl
  refuses := .of_notes rfl

theorem keymap (m : Keymap) (s : Keyed) : Prompts [] [] s (s.1.withKeymap m, s.2) where
  answers := rfl
  events := by simp [Answer.steps, withKeymap]
  delivers := .same rfl rfl
  pictures := (List.append_nil _).symm
  backdrop := rfl
  modes _ := rfl
  refuses := .of_notes rfl

theorem counted (method : Method) (s : Keyed) :
    Prompts [] [] s ({ s.1 with terminal := s.1.terminal.count method }, s.2) where
  answers := rfl
  events := by simp [Answer.steps]
  delivers := .same rfl rfl
  pictures := (List.append_nil _).symm
  backdrop := rfl
  modes _ := rfl
  refuses := .of_notes rfl

theorem typed {k : Option Key} {rest : List Input} (hq : s.1.queue = [])
    (h : Input.answers s.2 = .key k :: Input.answers rest) :
    Prompts [.key k] [] s (s.1.perform (.keyed k), rest) where
  answers := h
  events := by simp [Answer.steps, perform]
  delivers := .shown (acts_perform _ _) hq hq rfl
  pictures := by simp [Console.pictures, acts_perform, Act.isPicture]
  backdrop := rfl
  modes _ := rfl
  refuses := .of_notes rfl

theorem ready (frame : Frame) {rest : List Input} (h : Input.answers rest = Input.answers s.2) :
    Prompts [] [] s (s.1.flushed frame, rest) where
  answers := h.symm
  events := by simp [Answer.steps, flushed, Console.did, perform]
  delivers := flushed_delivers frame s.1
  pictures := by simp [flushed_pictures]
  backdrop := flushed_backdrop frame s.1
  modes _ := rfl
  refuses := .of_notes rfl

theorem round (hb : Bound true s.1) (frame : Frame) {rest : List Input}
    (h : Input.answers s.2 = .notYet :: Input.answers rest) :
    Prompts [.notYet] [] s ((s.1.flushed frame).eventStep.2, rest) := by
  have hf : (s.1.flushed frame).backdrop = s.1.backdrop := flushed_backdrop frame s.1
  have hs := eventStep_stirs (hb.of_backdrop hf)
  have ht : (s.1.flushed frame).eventStep.2.acts = (s.1.flushed frame).acts :=
    congrArg (·.acts.toList) (terminal_eventStep _)
  have hserves : Serves [.notYet] s ((s.1.flushed frame).eventStep.2, rest) := by
    refine ⟨h, ?_, ?_, (Refuses.of_notes rfl).trans hs.refuses⟩
    · simp only [events_eventStep, Answer.steps]
      exact List.drop_one.symm
    · have hd := (flushed_delivers frame s.1).trans (.of_acts ht hs.queue)
      have he : (s.1.flushed frame).engine = s.1.engine := rfl
      rw [he] at hd
      simpa [Answer.marks] using hd
  refine ⟨hserves, ?_, hs.backdrop.trans hf, ?_⟩
  · rw [pictures_of_acts ht, flushed_pictures, List.append_nil]
  · intro hm
    apply hs.modes
    change (s.1.engine.events.headD []).any Action.isRequest = false
    cases he : s.1.engine.events with
    | nil => rfl
    | cons actions events => exact hm actions (by simp [he])

end Prompts

variable {s : Keyed}

theorem check_cases (h : s.1.terminal.Quiet) (frame : Frame) :
    (∃ rest, check frame s = (.notReady, s.1.flushed frame, rest) ∧
      Input.answers s.2 = .notYet :: Input.answers rest) ∨
    ∃ rest, check frame s = (.ready, s.1.flushed frame, rest) ∧
      Input.answers rest = Input.answers s.2 ∧ Input.poll rest = (true, rest) := by
  rw [check_quiet h]
  obtain ⟨rest, hp, ha⟩ | ⟨rest, hp, ha, hr⟩ := Input.poll_cases s.2
  · exact .inl ⟨rest, by rw [hp]; rfl, ha⟩
  · exact .inr ⟨rest, by rw [hp]; rfl, ha, hr⟩

theorem waitFrom_prompts (frame : Frame) (stats : WaitStats) (h : Bound true s.1) :
    ∃ read stats' s', (pump frame).waitFrom stats s = (.ok stats', s') ∧ Prompts read [] s s' ∧
      read.filterMap Answer.key? = [] ∧ s'.1.queue = [] ∧ Input.poll s'.2 = (true, s'.2) := by
  -- A negative answer is a round of its own, after which the wait starts over with less to come.
  fun_induction Pump.waitFrom (pump frame) stats s with
  | case1 stats s hr =>
    obtain ⟨rest, hc, ha⟩ | ⟨rest, hc, ha, hp⟩ := check_cases h.quiet frame
    · have hn : ((pump frame).check s).1 = .notReady := congrArg Prod.fst hc
      rw [hr] at hn
      cases hn
    · refine ⟨[], _, _, rfl, ?_⟩
      have he : (pump frame).check s = (.ready, s.1.flushed frame, rest) := hc
      rw [he]
      exact ⟨.ready frame ha, rfl, rfl, hp⟩
  | case2 stats s message hr =>
    have hf : (check frame s).1 = .failed message := hr
    obtain ⟨rest, hc, ha⟩ | ⟨rest, hc, ha, hp⟩ := check_cases h.quiet frame <;>
    · rw [hc] at hf
      cases hf
  | case3 stats s hr ih =>
    obtain ⟨rest, hc, ha⟩ | ⟨rest, hc, ha, hp⟩ := check_cases h.quiet frame
    · have he : (pump frame).step ((pump frame).check s).2 =
          ((s.1.flushed frame).eventStep.1, (s.1.flushed frame).eventStep.2, rest) := by
        change (pump frame).step (check frame s).2 = _
        rw [hc]
        rfl
      have hround := Prompts.round h frame ha
      rw [he] at ih ⊢
      obtain ⟨read, stats', s', hw, hs, hk, hq⟩ := ih (hround.bound h)
      exact ⟨.notYet :: read, stats', s', hw, hround.trans hs, hk, hq⟩
    · have hy : ((pump frame).check s).1 = .ready := congrArg Prod.fst hc
      rw [hr] at hy
      cases hy

theorem nextKey_prompts (frame : Frame) (h : Bound true s.1) :
    ∃ read s', Prompts read [.rendered frame] s s' ∧ s'.1.queue = [] ∧
      ((nextKey frame s = (.error .inputClosed, s') ∧ Input.keys s.2 = [] ∧ Input.keys s'.2 = []) ∨
        ∃ k, nextKey frame s = (.ok k, s') ∧ Input.keys s.2 = k :: Input.keys s'.2) := by
  have hd : Prompts [] [.rendered frame] s (s.1.did .render (.rendered frame), s.2) :=
    .did .render (.rendered frame) rfl (by simp) rfl s
  obtain ⟨read, stats, w, hw, hp, hk, hq, hr⟩ := waitFrom_prompts frame {} (hd.bound h)
  have hdw : Prompts read [.rendered frame] s w := hd.trans hp
  have hkeys : Input.keys s.2 = Input.keys w.2 := by rw [hdw.keys, hk]; rfl
  have hc : Prompts [] [] w ({ w.1 with terminal := w.1.terminal.count .readKey }, w.2) := .counted _ w
  obtain ⟨hnone, ha⟩ | ⟨k, rest, hsome, ha⟩ := Input.next_of_poll hr
  · refine ⟨read ++ [], _, hdw.trans hc, ?_, .inl ⟨?_, ?_, ?_⟩⟩
    · exact hq
    · simp only [nextKey, act_quiet h.quiet, Pump.wait, hw, call_quiet (hdw.bound h).quiet, hnone]
    · rw [hkeys]
      simp [Input.keys, ha]
    · simp [Input.keys, ha]
  · have ht := Prompts.typed (s := ({ w.1 with terminal := w.1.terminal.count .readKey }, w.2)) hq ha
    refine ⟨read ++ ([] ++ [.key k]), _, hdw.trans (hc.trans ht), ?_, .inr ⟨k, ?_, ?_⟩⟩
    · exact hq
    · simp only [nextKey, act_quiet h.quiet, Pump.wait, hw, call_quiet (hdw.bound h).quiet, hsome]
    · rw [hkeys]
      simp [Input.keys, ha, Answer.key?]

theorem serve_prompts (request : Option Request) (h : Bound true s.1) :
    ∃ c, s.1.serve request = (.ok (), c) ∧ Prompts [] [] s (c, s.2) := by
  rcases request with _ | _ | _
  · exact ⟨s.1, rfl, .refl s⟩
  · exact ⟨_, act_quiet h.quiet _ _, .did .clear .cleared rfl (by simp) rfl s⟩
  · have hs : Prompts [] [] s (s.1.did .suspend .suspended, s.2) := .did .suspend .suspended rfl (by simp) rfl s
    refine ⟨_, ?_, hs.trans (.did .retake .retaken rfl (by simp) rfl _)⟩
    change s.1.suspend = _
    unfold suspend
    rw [act_quiet h.quiet]
    exact act_quiet (hs.bound h).quiet _ _

theorem conclude_quiet (h : s.1.terminal.Quiet) (d : Dressing) (e : Editor) (outcome : Outcome) :
    s.1.conclude d e outcome = (.ok outcome,
      if outcome.leavesPicture then s.1.did .finish (.finished (d.lastFrame e.buffer)) else s.1) := by
  unfold conclude
  split
  · rw [act_quiet h]
  · rfl

theorem conclude_prompts (d : Dressing) (e : Editor) (outcome : Outcome) (h : Bound true s.1) :
    ∃ c, s.1.conclude d e outcome = (.ok outcome, c) ∧
      Prompts [] (if outcome.leavesPicture then [.finished (d.lastFrame e.buffer)] else []) s (c, s.2) := by
  refine ⟨_, conclude_quiet h.quiet d e outcome, ?_⟩
  split
  · exact .did .finish (.finished (d.lastFrame e.buffer)) rfl (by simp) rfl s
  · exact .refl s

theorem nextKey_typed {frame : Frame} {k : Option Key} (h : Bound true s.1)
    (hk : (nextKey frame s).1 = .ok k) :
    ∃ read, Prompts read [.rendered frame] s (nextKey frame s).2 ∧
      Input.keys s.2 = k :: Input.keys (nextKey frame s).2.2 := by
  obtain ⟨read, t, hp, -, ⟨hn, -, -⟩ | ⟨k', hn, hs⟩⟩ := nextKey_prompts frame h
  · rw [hn] at hk
    cases hk
  · rw [hn] at hk ⊢
    cases hk
    exact ⟨read, hp, hs⟩

theorem nextKey_queue (frame : Frame) (h : Bound true s.1) : (nextKey frame s).2.1.queue = [] := by
  obtain ⟨read, t, -, hq, ⟨hn, -, -⟩ | ⟨k, hn, -⟩⟩ := nextKey_prompts frame h
  · rw [hn]
    exact hq
  · rw [hn]
    exact hq

theorem edit_prompts (d : Dressing) (e : Editor) (h : Bound true s.1) :
    ∃ read, Prompts read (e.play d (Input.keys s.2)).pictures s (edit d e s).2 ∧
      (edit d e s).1 = (e.play d (Input.keys s.2)).result ∧
      Input.keys (edit d e s).2.2 = (e.play d (Input.keys s.2)).rest := by
  -- Each key that comes is the first of those that `play` still has, whatever the wait for it was.
  fun_induction edit d e s with
  | case1 e s error he =>
    obtain ⟨read, t, hp, -, ⟨hn, hk, ht⟩ | ⟨k, hn, hk⟩⟩ := nextKey_prompts (d.frame e.buffer) h
    · rw [hn] at he ⊢
      cases he
      rw [hk]
      exact ⟨read, hp, rfl, ht⟩
    · rw [hn] at he
      cases he
  | case2 e s hkey ih =>
    obtain ⟨read, hp, hk⟩ := nextKey_typed h hkey
    obtain ⟨read', hp', hr, hrest⟩ := ih (hp.bound h)
    rw [hk]
    exact ⟨read ++ read', hp.trans hp', hr, hrest⟩
  | case3 e s k hkey s' outcome hpress result c hc =>
    obtain ⟨read, hp, hk⟩ := nextKey_typed h hkey
    obtain ⟨c', hc', hp'⟩ := conclude_prompts d e outcome (hp.bound h)
    rw [hc] at hc'
    cases hc'
    rw [hk]
    have hplay : e.play d (some k :: Input.keys s'.2) = ⟨.ok outcome, Input.keys s'.2,
        .rendered (d.frame e.buffer) ::
          if outcome.leavesPicture then [.finished (d.lastFrame e.buffer)] else []⟩ := by
      simp only [Editor.play, hpress]
    rw [hplay]
    exact ⟨read ++ [], hp.trans hp', rfl, rfl⟩
  | case4 e s k hkey s' e' request hpress message c hc =>
    obtain ⟨read, hp, hk⟩ := nextKey_typed h hkey
    have hm := hp.trans (.keymap e'.keymap s')
    obtain ⟨c', hc', hp'⟩ := serve_prompts request (hm.bound h)
    rw [hc] at hc'
    cases hc'
  | case5 e s k hkey s' e' request hpress c hc ih =>
    obtain ⟨read, hp, hk⟩ := nextKey_typed h hkey
    have hm := hp.trans (.keymap e'.keymap s')
    obtain ⟨c', hc', hp'⟩ := serve_prompts request (hm.bound h)
    rw [hc] at hc'
    cases hc'
    have ht := hm.trans hp'
    obtain ⟨read', hp'', hres, hrest⟩ := ih (ht.bound h)
    rw [hk]
    simp only [Editor.play, hpress]
    exact ⟨read ++ [] ++ [] ++ read', ht.trans hp'', hres, hrest⟩

theorem entered_prompts (e : Editor) (s : Keyed) :
    Prompts [] [] s ((s.1.did .enter .entered).withKeymap e.keymap, s.2) := by
  have hd : Prompts [] [] s (s.1.did .enter .entered, s.2) := .did .enter .entered rfl (by simp) rfl s
  exact hd.trans (.keymap e.keymap (s.1.did .enter .entered, s.2))

theorem readLine_quiet (d : Dressing) (e : Editor) (h : Bound true s.1) :
    let entered : Keyed := ((s.1.did .enter .entered).withKeymap e.keymap, s.2)
    readLine d e s = ((edit d e entered).1, (edit d e entered).2.1.did .leave .left,
      (edit d e entered).2.2) := by
  intro entered
  have hd := entered_prompts e s
  obtain ⟨read, hp, -, -⟩ := edit_prompts d e (hd.bound h)
  have hq : (edit d e entered).2.1.terminal.Quiet := ((hd.trans hp).bound h).quiet
  simp only [readLine, act_quiet h.quiet, entered, act_quiet hq]
  cases (edit d e entered).1 <;> rfl

theorem readLine_prompts (d : Dressing) (e : Editor) (h : Bound true s.1) :
    ∃ read, Prompts read (e.play d (Input.keys s.2)).pictures s (readLine d e s).2 ∧
      (readLine d e s).1 = (e.play d (Input.keys s.2)).result ∧
      Input.keys (readLine d e s).2.2 = (e.play d (Input.keys s.2)).rest := by
  have hd := entered_prompts e s
  obtain ⟨read, hp, hr, hk⟩ := edit_prompts d e (hd.bound h)
  have ht := hd.trans hp
  rw [readLine_quiet d e h]
  have hn : [Act.left].filter Act.isPicture = [] := rfl
  have hs := ht.trans (.did .leave .left rfl (by simp) hn _)
  simp only [List.append_nil, List.nil_append] at hs
  exact ⟨_, hs, hr, hk⟩

end Console

end RConsole
