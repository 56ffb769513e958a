import RConsole.Proofs.Console.Progress
import RConsole.Proofs.Screen.Keeping

/-!
Output stays on the screen. A prompt that starts on a line of its own, and whose keys do not let
other things onto the screen, takes nothing from what was printed before it.
-/
namespace RConsole

def Act.Steady (a : Act) : Prop := Phase.next? .prompting a = some .prompting

theorem Act.Waiting.steady {d : Dressing} {a : Act} (h : Waiting d a) : a.Steady := by
  cases h <;> rfl

theorem Phase.after_steady {acts : List Act} (h : ∀ a ∈ acts, a.Steady) :
    Phase.prompting.after? acts = some .prompting := by
  induction acts with
  | nil => rfl
  | cons a acts ih =>
    have hi := ih fun b hb => h b (List.mem_cons_of_mem a hb)
    exact Option.bind_eq_some_iff.mpr ⟨.prompting, h a List.mem_cons_self, hi⟩

theorem Phase.after_wrote (midLine : Bool) (chunks : List Chunk) :
    (Phase.printing midLine).after? (chunks.map .wrote) =
      some (.printing (chunks.foldl Chunk.leaves midLine)) := by
  induction chunks generalizing midLine with
  | nil => rfl
  | cons chunk chunks ih => exact ih (chunk.leaves midLine)

theorem leaves_told (midLine : Bool) (text : String) :
    (told text).foldl Chunk.leaves midLine = false := by
  unfold told
  split
  · rename_i he
    have hne : text.toList ≠ [] := fun hn => by simp [endsLine, hn] at he
    simp [Chunk.leaves, hne, he]
  · rfl

def Input.Calm (keys : List Input) : Prop :=
  ∀ k, some k ∈ Input.keys keys → k.leavesPrompt = false

namespace Console

variable {s t : Keyed} {c c' c'' : Console} {p p' p'' : Phase} {d : Dressing}

theorem Reads.calm {new : List (Option Key)} (h : Reads new s t) (hc : Input.Calm s.2) :
    Input.Calm t.2 := (h.all hc).2

theorem Reads.calm_key {k : Key} (h : Reads [some k] s t) (hc : Input.Calm s.2) :
    k.leavesPrompt = false := (h.all hc).1 k List.mem_cons_self

def Orderly (p p' : Phase) (c c' : Console) : Prop :=
  ∃ new, c'.acts = c.acts ++ new ∧ p.after? new = some p'

namespace Orderly

theorem trans (h : Orderly p p' c c') (h' : Orderly p' p'' c' c'') : Orderly p p'' c c'' := by
  obtain ⟨new, he, hp⟩ := h
  obtain ⟨new', he', hp'⟩ := h'
  refine ⟨new ++ new', by rw [he', he, List.append_assoc], ?_⟩
  rw [Phase.after_append, hp]
  exact hp'

theorem of_acts (p : Phase) (h : c'.acts = c.acts) : Orderly p p c c' := ⟨[], by simp [h], rfl⟩

theorem did (method : Method) {a : Act} (h : p.next? a = some p') (c : Console) :
    Orderly p p' c (c.did method a) :=
  ⟨[a], acts_did method a c, Option.bind_eq_some_iff.mpr ⟨p', h, rfl⟩⟩

theorem of_adds (h : Adds Act.Steady c c') : Orderly .prompting .prompting c c' := by
  obtain ⟨new, he, hp⟩ := h
  exact ⟨new, he, Phase.after_steady hp⟩

theorem of_prints {chunks : List Chunk} (h : Prints chunks c c') (midLine : Bool) :
    Orderly (.printing midLine) (.printing (chunks.foldl Chunk.leaves midLine)) c c' :=
  ⟨_, h.acts, Phase.after_wrote midLine chunks⟩

end Orderly

theorem adds_steady : RespectedByKeys (Act.Waiting d) fun s t => Adds Act.Steady s.1 t.1 :=
  adds_respected (fun _ ha => ha.steady) fun _ => rfl

theorem edit_steady (d : Dressing) (e : Editor) (h : Bound true s.1) (hc : Input.Calm s.2) :
    Adds Act.Steady s.1 (edit d e s).2.1 ∧ (edit d e s).2.1.queue = [] := by
  fun_induction edit d e s with
  | case1 e s error he => exact ⟨adds_steady.nextKey e.buffer s, nextKey_queue _ h⟩
  | case2 e s hk ih =>
    obtain ⟨read, hp, -⟩ := nextKey_typed h hk
    obtain ⟨ha, hq⟩ := ih (hp.bound h) ((nextKey_reads hk).calm hc)
    exact ⟨(adds_steady.nextKey e.buffer s).trans ha, hq⟩
  | case3 e s k hk s' outcome hp result c hcon =>
    obtain ⟨read, hpr, -⟩ := nextKey_typed h hk
    have hq : s'.1.queue = [] := nextKey_queue _ h
    have hn : Adds Act.Steady s.1 s'.1 := adds_steady.nextKey e.buffer s
    rw [conclude_quiet (hpr.bound h).quiet] at hcon
    cases hcon
    dsimp only
    split
    · exact ⟨hn.trans ⟨_, acts_did _ _ _, by simp [Act.Steady, Phase.next?]⟩, hq⟩
    · exact ⟨hn, hq⟩
  | case4 e s k hk s' e' request hp message c hs =>
    obtain ⟨read, hpr, -⟩ := nextKey_typed h hk
    have hm := hpr.trans (.keymap e'.keymap s')
    obtain ⟨c', hs', -⟩ := serve_prompts request (hm.bound h)
    rw [hs'] at hs
    cases hs
  | case5 e s k hk s' e' request hp c hs ih =>
    obtain ⟨read, hpr, -⟩ := nextKey_typed h hk
    have hr : Reads [some k] s s' := nextKey_reads hk
    have hn : Adds Act.Steady s.1 s'.1 := adds_steady.nextKey e.buffer s
    cases request with
    | some r =>
      have hl := Editor.press_request hp
      rw [hr.calm_key hc] at hl
      cases hl
    | none =>
      cases hs
      have hm := hpr.trans (.keymap e'.keymap s')
      obtain ⟨ha, hq⟩ := ih (hm.bound h) (hr.calm hc)
      exact ⟨hn.trans ha, hq⟩

theorem cycle_orderly (hint : String) (h : Bound true s.1) (hc : Input.Calm s.2) :
    Orderly (.printing false) (.printing false) s.1 (cycle hint s).2.1 := by
  let keymap := (s.1.editor hint).keymap
  have hb : Bound true (((s.1.begun hint).did .enter .entered).withKeymap keymap) :=
    { h.begun hint with }
  obtain ⟨ha, hq⟩ := edit_steady (s := (((s.1.begun hint).did .enter .entered).withKeymap keymap, s.2))
    (s.1.dressing hint) (s.1.editor hint) hb hc
  have henter : Orderly (.printing false) .prompting s.1 ((s.1.begun hint).did .enter .entered) :=
    (Orderly.of_acts _ (acts_begun hint s.1)).trans (.did .enter rfl _)
  have hleave := (henter.trans (.of_adds ha)).trans (.did .leave (a := .left) rfl _)
  rw [cycle_eq, readLine_quiet _ _ (h.begun hint)]
  dsimp only
  refine hleave.trans (.of_acts _ ?_)
  have hdrain : (did .leave .left (edit (s.1.dressing hint) (s.1.editor hint)
      (((s.1.begun hint).did .enter .entered).withKeymap keymap, s.2)).2.1).queue = [] := hq
  rw [acts_settle, drain, hdrain]
  rfl

theorem line_orderly (hint : String) (h : Bound true s.1) (hc : Input.Calm s.2) :
    Orderly (.printing false) (.printing false) s.1 (cycles.line hint s).2.1 := by
  have hcycle {s : Keyed} (h : Bound true s.1) (hc : Input.Calm s.2) :
      Bound true (cycle hint s).2.1 ∧ Input.Calm (cycle hint s).2.2 := by
    obtain ⟨read, -, hb, -⟩ := cycle_serves hint h
    exact ⟨hb, (Round.reads ⟨hint, s⟩).calm hc⟩
  fun_induction Cycles.line cycles hint s with
  | case1 s text hl => exact cycle_orderly hint h hc
  | case2 s hl => exact cycle_orderly hint h hc
  | case3 s hl ih => exact (cycle_orderly hint h hc).trans (ih (hcycle h hc).1 (hcycle h hc).2)
  | case4 s hl ih => exact (cycle_orderly hint h hc).trans (ih (hcycle h hc).1 (hcycle h hc).2)

end Console

namespace Turn

def prompts : Turn → Bool
  | read _ size => 0 < size
  | _ => false

def leaves (midLine : Bool) : Turn → Bool
  | read _ size => midLine && !decide (0 < size)
  | write bytes code => (Action.chunks (.write bytes code)).foldl Chunk.leaves midLine
  | message bytes => (Action.chunks (.message bytes)).foldl Chunk.leaves midLine
  | request _ => midLine

/-- Whether each prompt starts on a line of its own, to which it sees itself if `blank`. -/
def tidy (blank : Bool) : Bool → List Turn → Bool
  | _, [] => true
  | midLine, t :: turns => (blank || !(t.prompts && midLine)) && tidy blank (t.leaves midLine) turns

theorem tidy_blank (midLine : Bool) (turns : List Turn) : tidy true midLine turns = true := by
  induction turns generalizing midLine with
  | nil => rfl
  | cons t turns ih => exact ih (t.leaves midLine)

end Turn

namespace Console

variable {s : Keyed} {midLine : Bool}

theorem greeting_leaves (c : Console) (h : c.blankLine = true ∨ midLine = false) :
    c.greeting.foldl Chunk.leaves midLine = false := by
  unfold greeting
  rw [List.foldl_append]
  cases hb : c.blankLine with
  | true => rfl
  | false =>
    have hm : midLine = false := h.resolve_left (by simp [hb])
    cases c.bannerText? with
    | none => exact hm
    | some text => exact leaves_told midLine text

theorem read_orderly (hint : Utf8.Bytes) (size : Int) (h : Bound false s.1) (hc : Input.Calm s.2)
    (hs : 0 < size → s.1.blankLine = true ∨ midLine = false) :
    Orderly (.printing midLine) (.printing (midLine && !decide (0 < size))) s.1
      (read hint size s).2.1 := by
  rw [read_idle h]
  split
  · rename_i hn
    have hd : decide (0 < size) = false := decide_eq_false (by omega)
    rw [hd, Bool.not_false, Bool.and_true]
    exact .of_acts _ rfl
  · rename_i hn
    have hpos : 0 < size := by omega
    rw [decide_eq_true hpos, Bool.not_true, Bool.and_false]
    have hb := h.hold true
    have hload : (s.1.hold true).loaded.acts = s.1.acts := by rw [(loaded_rest hb).2]; rfl
    have hgreet := (Orderly.of_acts _ hload).trans (.of_prints (lead_prints hb) midLine)
    rw [greeting_hold, greeting_leaves s.1 (hs hpos)] at hgreet
    have hline := line_orderly (s := ((s.1.hold true).lead, s.2)) (cString hint) hb.lead hc
    exact (hgreet.trans hline).trans (.of_acts _ rfl)

theorem turn_orderly (t : Turn) (h : Bound false s.1) (hc : Input.Calm s.2)
    (hs : s.1.blankLine = true ∨ (t.prompts && midLine) = false) :
    Orderly (.printing midLine) (.printing (t.leaves midLine)) s.1 (t.run s).2.1 := by
  cases t with
  | read hint size =>
    apply read_orderly hint size h hc
    intro hpos
    simpa [Turn.prompts, hpos] using hs
  | write bytes code => exact .of_prints (write_prints h bytes code) midLine
  | message bytes => exact .of_prints (message_prints h bytes) midLine
  | request mode => exact .of_acts _ rfl

theorem blankLine_aloof : Aloof blankLine where
  desk _ _ := rfl
  queue _ _ := rfl
  modes _ _ := rfl
  note _ _ := rfl
  exitStatus _ _ := rfl
  exit _ _ := rfl

theorem blankLine_turn (t : Turn) (s : Keyed) : (t.run s).2.1.blankLine = s.1.blankLine :=
  t.run_respects (R := fun s t => t.1.blankLine = s.1.blankLine)
    (fun _ => blankLine_aloof.respected (fun _ _ => rfl) (fun _ _ => rfl) fun _ _ => rfl)
    (blankLine_aloof.loads fun _ _ _ _ => rfl)
    (fun spec result c _ => by
      obtain ⟨modes, history, files, hs⟩ := settle_rest spec result c
      rw [hs]) s

theorem turns_orderly (turns : List Turn) (h : Bound false s.1) (hc : Input.Calm s.2)
    (ht : Turn.tidy s.1.blankLine midLine turns = true) :
    ∃ midLine', Orderly (.printing midLine) (.printing midLine') s.1 (Turn.runAll turns s).2.1 := by
  induction turns generalizing s midLine with
  | nil => exact ⟨midLine, .of_acts _ rfl⟩
  | cons t turns ih =>
    rw [Turn.tidy, Bool.and_eq_true, Bool.or_eq_true, Bool.not_eq_true'] at ht
    have hturn := turn_orderly t h hc ht.1
    have hrest := ht.2
    rw [← blankLine_turn t s] at hrest
    obtain ⟨midLine', ho⟩ := ih (turn_passes t h).bound ((turn_reads t s).calm hc) hrest
    exact ⟨midLine', hturn.trans ho⟩

/-- Where each prompt starts on a line of its own, what was printed between prompts stays in its
place whatever is drawn later. -/
theorem output_stays (turns : List Turn) (s : Keyed) (screen : Screen) (h : Bound false s.1)
    (hc : Input.Calm s.2) (ht : Turn.tidy s.1.blankLine false turns = true)
    (hf : ∀ a ∈ since s.1 (Turn.runAll turns s).2.1, a.goesForward = true)
    (hraw : screen.tty.raw = false) :
    screen.KeepsOutput (since s.1 (Turn.runAll turns s).2.1) := by
  obtain ⟨midLine, new, hacts, hp⟩ := turns_orderly turns h hc ht
  have hnew := since_of_acts hacts
  rw [hnew] at hf ⊢
  exact Screen.keepsOutput_of_after (fun _ _ => hraw) hp hf

theorem output_stays_eventfulPrompt :
    let turns : List Turn := [.write [0x61, 0x62, 0x63] 0, .read [0x3E, 0x20] 80]
    let screen : Screen := ⟨{ width := 20 }, { columns := 20 }⟩
    let acts := since eventfulPrompt.1 (Turn.runAll turns eventfulPrompt).2.1
    Bound false eventfulPrompt.1 ∧ Input.Calm eventfulPrompt.2 ∧
      Turn.tidy eventfulPrompt.1.blankLine false turns = true ∧ (∀ a ∈ acts, a.goesForward = true) ∧
      screen.tty.raw = false ∧ screen.KeepsOutput acts := by
  intro turns screen acts
  have hc : Input.Calm eventfulPrompt.2 := by
    intro k hk
    have hkeys : Input.keys eventfulPrompt.2 = [some ⟨.char 'q', {}⟩, none, some ⟨.enter, {}⟩] := rfl
    rw [hkeys] at hk
    simp only [List.mem_cons, Option.some.injEq, List.not_mem_nil, reduceCtorEq, or_false,
      false_or] at hk
    rcases hk with rfl | rfl <;> rfl
  have hf : ∀ a ∈ acts, a.goesForward = true := by decide +kernel
  have ht : Turn.tidy eventfulPrompt.1.blankLine false turns = true := Turn.tidy_blank false turns
  exact ⟨bound_eventfulPrompt, hc, ht, hf, rfl,
    output_stays turns eventfulPrompt screen bound_eventfulPrompt hc ht hf rfl⟩

def unspacedPrompt : Keyed :=
  (bind {
    desk := { registered := slots }
    loadSettings := Engine.settings {}
    blankLine := false },
    [.key ⟨.enter, {}⟩])

/-- Without blank lines a prompt is drawn over a line that is not done. -/
theorem output_lost_unspacedPrompt :
    let turns : List Turn := [.write [0x61, 0x62, 0x63] 0, .read [0x3E, 0x20] 80]
    let screen : Screen := ⟨{ width := 20 }, { columns := 20 }⟩
    Bound false unspacedPrompt.1 ∧ Input.Calm unspacedPrompt.2 ∧ screen.tty.raw = false ∧
      (∀ a ∈ since unspacedPrompt.1 (Turn.runAll turns unspacedPrompt).2.1, a.goesForward = true) ∧
      ¬ screen.KeepsOutput (since unspacedPrompt.1 (Turn.runAll turns unspacedPrompt).2.1) := by
  intro turns screen
  refine ⟨?_, ?_, rfl, by decide +kernel, ?_⟩
  · apply bound_bind rfl rfl
    · intro f hf
      cases hf
    · exact Engine.observes_settings {}
    · intro load hl
      cases hl
  · intro k hk
    have hkeys : Input.keys unspacedPrompt.2 = [some ⟨.enter, {}⟩] := rfl
    rw [hkeys] at hk
    cases List.mem_singleton.mp hk
    rfl
  · intro hkeeps
    let chunk : Chunk := ⟨"abc", .out⟩
    let frame : Frame := ⟨"r$> ", some .blue, [""], (0, 0), none⟩
    let middle : List Act := [.entered, .rendered frame]
    have hacts : since unspacedPrompt.1 (Turn.runAll turns unspacedPrompt).2.1 =
        [] ++ .wrote chunk :: middle ++
          (since unspacedPrompt.1 (Turn.runAll turns unspacedPrompt).2.1).drop 3 := by
      decide +kernel
    have ha := hkeeps [] chunk middle _ hacts [] 'a' ['b', 'c'] (by decide)
      (by decide)
    have hr : (screen.takeAll (.wrote chunk :: middle)).tty.cell 0 0 ≠ some ('a', {}) := by
      decide +kernel
    exact hr ha

end Console

end RConsole
