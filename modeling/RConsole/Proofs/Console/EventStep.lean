import RConsole.Proofs.Console.Bound

namespace RConsole.Console

variable {c c' c'' : Console}

def Refuses (c c' : Console) : Prop :=
  ∃ new, c'.engine.notes.toList = c.engine.notes.toList ++ new ∧
    ∀ reply, .answered reply ∈ new → reply = .untouched

namespace Refuses

theorem of_notes (h : c'.engine.notes = c.engine.notes) : Refuses c c' := ⟨[], by simp [h], by simp⟩

theorem trans (h : Refuses c c') (h' : Refuses c' c'') : Refuses c c'' := by
  obtain ⟨new, he, hn⟩ := h
  obtain ⟨new', he', hn'⟩ := h'
  refine ⟨new ++ new', by rw [he', he, List.append_assoc], ?_⟩
  intro reply hr
  exact (List.mem_append.mp hr).elim (hn reply) (hn' reply)

theorem note {n : Note} (h : ∀ reply, n = .answered reply → reply = .untouched) (c : Console) :
    Refuses c (c.note n) := by
  refine ⟨[n], by simp [Console.note, Engine.note], ?_⟩
  intro reply hr
  exact h reply (List.mem_singleton.mp hr).symm

theorem of_asked (h : c.engine.Asked c'.engine) : Refuses c c' := by
  obtain ⟨new, hn, ha⟩ := h.notes
  refine ⟨new, hn, ?_⟩
  intro reply hr
  exact absurd hr (ha reply)

end Refuses

/-- R printed `chunks` under a prompt, and asked for another mode only if `asks` says so. -/
structure Stirs (chunks : List Chunk) (asks : Bool) (c c' : Console) : Prop where
  queue : c'.queue = c.queue ++ chunks
  backdrop : c'.backdrop = c.backdrop
  modes : asks = false → c'.modes = c.modes
  refuses : Refuses c c'

namespace Stirs

theorem refl (asks : Bool) (c : Console) : Stirs [] asks c c :=
  ⟨by simp, rfl, fun _ => rfl, .of_notes rfl⟩

theorem trans {chunks chunks' : List Chunk} {asks asks' : Bool} (h : Stirs chunks asks c c')
    (h' : Stirs chunks' asks' c' c'') : Stirs (chunks ++ chunks') (asks || asks') c c'' where
  queue := by rw [h'.queue, h.queue, List.append_assoc]
  backdrop := h'.backdrop.trans h.backdrop
  modes ha := by
    have hf : asks = false ∧ asks' = false := by simpa using ha
    rw [h'.modes hf.2, h.modes hf.1]
  refuses := h.refuses.trans h'.refuses

theorem note {n : Note} (h : ∀ reply, n = .answered reply → reply = .untouched) (c : Console) :
    Stirs [] false c (c.note n) :=
  ⟨by simp [Console.note], rfl, fun _ => rfl, .note h c⟩

end Stirs

theorem enqueue_stirs (chunk : Chunk) (c : Console) : Stirs [chunk] false c (c.enqueue chunk) :=
  ⟨rfl, rfl, fun _ => rfl, .of_notes rfl⟩

theorem tell_stirs (text : String) (c : Console) : Stirs (told text) false c (c.tell enqueue text) := by
  unfold told tell
  split
  · exact enqueue_stirs _ c
  · exact (enqueue_stirs _ c).trans (enqueue_stirs _ _)

theorem cleanUp_idle {reading : Bool} (h : Bound reading c) (e : Ending) :
    c.cleanUp e =
      c.desk.previous.elim (c.finishSession e) fun hook => chain hook e (c.finishSession e) := by
  have hi : c.desk.running.has .cleanUp = false := by rw [h.running]; rfl
  have hs : Desk.serve .cleanUp (fun c => (Ended.returned (), c))
      (fun c => (.returned (), c.finishSession e)) c = (.returned (), c.finishSession e) :=
    serve_idle (fun _ => rfl) hi
  simp only [cleanUp, Desk.cleanUp, h.registered, Bool.not_true, Bool.false_eq_true, if_false, hs]
  have hp : (HasDesk.desk (c.finishSession e)).previous = c.desk.previous := rfl
  rw [hp]
  cases c.desk.previous <;> rfl

theorem cleanUp_stirs {reading : Bool} (h : Bound reading c) (e : Ending) :
    Stirs [] false c (c.cleanUp e) := by
  have hf : Stirs [] false c (c.finishSession e) := ⟨by simp [finishSession], rfl, fun _ => rfl, .of_notes rfl⟩
  rw [cleanUp_idle h]
  rcases c.desk.previous with _ | _ | _
  · exact hf
  · exact hf
  · have hn : Stirs [] false c ((c.finishSession e).note (.ownCleanUp e)) :=
      hf.trans (.note (by simp) _)
    simp only [Option.elim, chain]
    split
    · exact ⟨hn.queue, hn.backdrop, hn.modes, hn.refuses⟩
    · exact hn

/-- While a read is on, another one is refused for that alone, whatever would answer it. -/
theorem read_refused (h : Bound true c) (produce : String → Console → Ended (Option String) × Console)
    (hint : Utf8.Bytes) (size : Int) : Desk.read produce hint size c = (.untouched, c) := by
  have hb : (HasDesk.desk c).running.has .read = true := by
    rw [show (HasDesk.desk c).running = { read := true } from h.running]
    rfl
  unfold Desk.read
  split
  · rfl
  · unfold Desk.serve
    rw [if_pos hb]

theorem read_atPrompt (h : Bound true c) (hint : Utf8.Bytes) (size : Int) :
    atPrompt.read hint size c = (.untouched, c) :=
  read_refused h (fun _ c => (.returned none, c)) hint size

theorem action_stirs (h : Bound true c) (a : Action) :
    Stirs a.chunks a.isRequest c (a.run atPrompt c).2 := by
  obtain ⟨hr, hw, hm⟩ := h.hooks
  cases a with
  | write bytes code =>
    have hp : (Action.run atPrompt (.write bytes code) c).2 = c.writeWith enqueue bytes code := if_pos hw
    rw [hp, writeWith_idle h fun _ _ => rfl]
    simp only [Action.chunks]
    split
    · exact .refl _ c
    · exact enqueue_stirs _ c
  | message bytes =>
    have hp : (Action.run atPrompt (.message bytes) c).2 = c.messageWith enqueue bytes := if_pos hm
    rw [hp, messageWith_idle h]
    · exact tell_stirs _ c
    · intro text d
      unfold tell
      dsimp only
      split <;> rfl
  | read hint size =>
    have hp : (Action.run atPrompt (.read hint size) c).2 =
        (atPrompt.read hint size c).2.note (.answered (atPrompt.read hint size c).1) := if_pos hr
    rw [hp, read_atPrompt h]
    exact .note (fun _ he => (Note.answered.inj he).symm) c
  | cleanUp e =>
    simp only [Action.run, Action.through]
    split
    · exact cleanUp_stirs h e
    · exact .note (by simp) c
  | request mode => exact ⟨by simp [Action.run, atPrompt, request, Action.chunks], rfl, by simp [Action.isRequest], .of_notes rfl⟩
  | enqueue chunk => exact enqueue_stirs chunk c
  | fail => exact .refl _ c

theorem runAll_stirs (h : Bound true c) (actions : List Action) :
    Stirs (Action.printed actions) (actions.any Action.isRequest) c
      (Action.runAll atPrompt actions c).2 := by
  induction actions generalizing c with
  | nil => exact .refl _ c
  | cons a actions ih =>
    have ha := action_stirs h a
    by_cases hf : a = .fail
    · subst hf
      exact .refl _ c
    · have hg : Action.run atPrompt a c = (true, (Action.run atPrompt a c).2) := by
        cases a <;> first | rfl | exact absurd rfl hf
      have hs := ha.trans (ih (h.of_backdrop ha.backdrop))
      unfold Action.runAll
      rw [hg]
      simpa [Action.printed, hf] using hs

theorem nextEvent_eq (e : Engine) : e.nextEvent =
    (e.events.headD [], { e with steps := e.steps + 1, events := e.events.tail }) := by
  unfold Engine.nextEvent
  split <;> simp [*]

theorem noteEvent_stirs (number : Nat) (actions : List Action) (completed : Bool) (c : Console) :
    Stirs [] false c (setEngine (c.engine.noteEvent number actions completed) c) := by
  have hs (c : Console) : Stirs [] false c (setEngine
      (if completed && c.engine.hasHandlers then
        (c.engine.note .activityChecked).note .handlersRun else c.engine) c) := by
    split
    · exact (Stirs.note (by simp) c).trans (.note (by simp) (c.note .activityChecked))
    · exact .refl _ c
  unfold Engine.noteEvent
  split
  · exact hs c
  · have hn : Stirs [] false c (c.note (.event number completed)) := .note (by simp) c
    exact hn.trans (hs (c.note (.event number completed)))

theorem eventStep_eq (c : Console) :
    c.eventStep =
      let r := Action.runAll atPrompt c.engine.nextEvent.1 (setEngine c.engine.nextEvent.2 c)
      (r.1, setEngine (r.2.engine.noteEvent c.engine.steps c.engine.nextEvent.1 r.1) r.2) := rfl

theorem eventStep_stirs (h : Bound true c) :
    Stirs (Action.printed (c.engine.events.headD [])) ((c.engine.events.headD []).any Action.isRequest)
      c c.eventStep.2 := by
  have hn : Stirs [] false c (setEngine c.engine.nextEvent.2 c) := by
    rw [nextEvent_eq]
    exact ⟨by simp [setEngine], rfl, fun _ => rfl, .of_notes rfl⟩
  have hr := runAll_stirs (h.of_backdrop hn.backdrop) c.engine.nextEvent.1
  have he : c.engine.nextEvent.1 = c.engine.events.headD [] := by rw [nextEvent_eq]
  rw [eventStep_eq]
  generalize Action.runAll atPrompt c.engine.nextEvent.1 (setEngine c.engine.nextEvent.2 c) = r at hr
  have hs := (hn.trans hr).trans (noteEvent_stirs c.engine.steps c.engine.nextEvent.1 r.1 r.2)
  rw [he] at hs ⊢
  simpa using hs

theorem events_eventStep (c : Console) : c.eventStep.2.engine.events = c.engine.events.tail := by
  have hn (number : Nat) (actions : List Action) (completed : Bool) (e : Engine) :
      (e.noteEvent number actions completed).events = e.events := by
    unfold Engine.noteEvent
    dsimp only
    split <;> split <;> rfl
  have hr := congrArg Prod.snd (Action.runAll_keeps stage_aloof.atPrompt c.engine.nextEvent.1
    (setEngine c.engine.nextEvent.2 c))
  rw [eventStep_eq]
  refine (hn _ _ _ _).trans (hr.trans ?_)
  simp only [stage, setEngine, nextEvent_eq]

end RConsole.Console
