import RConsole.Proofs.Console.Progress

/-!
Two consoles side by side. What R notes down, how many event steps it had, what went past the printer
and how the process ended is only recorded, and each cycle resets the keymap: consoles that differ in
nothing else do the same.
-/
namespace RConsole

def Engine.bare (e : Engine) : Engine := { e with steps := 0, notes := #[] }

def Desk.bare (d : Desk) : Desk := { d with direct := #[] }

def Same {α σ : Type} (R : σ → σ → Prop) (r r' : α × σ) : Prop := r.1 = r'.1 ∧ R r.2 r'.2

theorem Same.pair {α σ : Type} {R : σ → σ → Prop} {r r' : α × σ} (h : Same R r r') :
    ∃ a s t, r = (a, s) ∧ r' = (a, t) ∧ R s t :=
  ⟨r.1, r.2, r'.2, rfl, Prod.ext h.1.symm rfl, h.2⟩

inductive Step.Followed (R : Editor → Editor → Prop) : Step → Step → Prop
  | goOn {e e' : Editor} (h : R e e') (request : Option Request) :
    Followed R (.goOn e request) (.goOn e' request)
  | done (outcome : Outcome) : Followed R (.done outcome) (.done outcome)

/-- Related editors show the same, and so they do after every key with `P`. -/
structure Editor.Follows (P : Key → Prop) (R : Editor → Editor → Prop) : Prop where
  buffer : ∀ {e e'}, R e e' → e'.buffer = e.buffer
  press : ∀ {e e' k}, R e e' → P k → Step.Followed R (e.press k) (e'.press k)

theorem Editor.follows_eq : Follows (fun _ => True) Eq where
  buffer h := h ▸ rfl
  press := by
    rintro e _ k rfl -
    cases e.press k with
    | goOn e' request => exact .goOn rfl request
    | done outcome => exact .done outcome

section Follows

variable {P : Key → Prop} {R : Editor → Editor → Prop} {e e' e₁ : Editor} {k : Key}

theorem Editor.Follows.done (hR : Follows P R) (he : R e e') (hk : P k) {outcome : Outcome}
    (hp : e.press k = .done outcome) : e'.press k = .done outcome := by
  have hpress := hR.press he hk
  rw [hp] at hpress
  generalize e'.press k = pressed at hpress
  cases hpress
  rfl

theorem Editor.Follows.goOn (hR : Follows P R) (he : R e e') (hk : P k) {request : Option Request}
    (hp : e.press k = .goOn e₁ request) : ∃ e₂, e'.press k = .goOn e₂ request ∧ R e₁ e₂ := by
  have hpress := hR.press he hk
  rw [hp] at hpress
  generalize e'.press k = pressed at hpress
  cases hpress with
  | goOn he₁ => exact ⟨_, rfl, he₁⟩

end Follows

namespace Console

def bare (c : Console) : Console :=
  { c with
    engine := c.engine.bare
    desk := c.desk.bare
    keymap := {}
    exitStatus := none
    exit := none }

/-- Consoles that differ in nothing that a later cycle depends on. -/
def Twins (c d : Console) : Prop := c.bare = d.bare

def KeyedTwins (s t : Keyed) : Prop := Twins s.1 t.1 ∧ s.2 = t.2

theorem KeyedTwins.pair {α : Type} {r r' : α × Keyed} (h : Same KeyedTwins r r') :
    ∃ a c d keys, r = (a, c, keys) ∧ r' = (a, d, keys) ∧ Twins c d :=
  ⟨r.1, r.2.1, r'.2.1, r.2.2, rfl, Prod.ext h.1.symm (Prod.ext rfl h.2.2.symm), h.2.1⟩

variable {α : Type} {c d : Console} {s t : Keyed}

namespace Twins

theorem map (h : Twins c d) {g : Console → Console} (hg : ∀ c, (g c).bare = g c.bare) :
    Twins (g c) (g d) := by
  unfold Twins
  rw [hg c, hg d]
  exact congrArg g h

theorem erase (h : Twins c d) {c' d' : Console} (hc : c'.bare = c.bare) (hd : d'.bare = d.bare) :
    Twins c' d' := hc.trans (Eq.trans h hd.symm)

theorem same {β : Type} (h : Twins c d) (f : Console → β) (hf : ∀ c, f c.bare = f c) : f c = f d := by
  rw [← hf c, ← hf d]
  exact congrArg f h

end Twins

theorem serve_twins {slot : Slot} {busy closure : Console → α × Console}
    (hb : ∀ {c d}, Twins c d → Same Twins (busy c) (busy d))
    (hc : ∀ {c d}, Twins c d → Same Twins (closure c) (closure d)) (h : Twins c d) :
    Same Twins (Desk.serve slot busy closure c) (Desk.serve slot busy closure d) := by
  have hr : (HasDesk.desk c).running = (HasDesk.desk d).running := h.same (·.desk.running) fun _ => rfl
  unfold Desk.serve
  rw [hr]
  split
  · exact hb h
  · have hs : Twins (Desk.setRunning slot true c) (Desk.setRunning slot true d) :=
      h.map (g := Desk.setRunning slot true) fun _ => rfl
    obtain ⟨he, ht⟩ := hc hs
    exact ⟨he, ht.map (g := Desk.setRunning slot false) fun _ => rfl⟩

def Printer.Blind (print : Printer) : Prop :=
  ∀ chunk {c d}, Twins c d → Twins (print chunk c) (print chunk d)

theorem writeWith_twins {print : Printer} (hp : print.Blind) (bytes : Utf8.Bytes) (code : Int)
    (h : Twins c d) :
    Twins (c.writeWith print bytes code) (d.writeWith print bytes code) := by
  have hr : Desk.isRegistered .write c = Desk.isRegistered .write d :=
    h.same (Desk.isRegistered .write) fun _ => rfl
  unfold writeWith Desk.write
  rw [hr]
  split
  · exact h
  · exact (serve_twins (fun h => ⟨rfl, h.erase rfl rfl⟩) (fun h => ⟨rfl, hp _ h⟩) h).2

theorem tell_twins {print : Printer} (hp : print.Blind) (text : String) (h : Twins c d) :
    Twins (c.tell print text) (d.tell print text) := by
  unfold tell
  dsimp only
  split
  · exact hp _ h
  · exact hp _ (hp _ h)

theorem messageWith_twins {print : Printer} (hp : print.Blind) (bytes : Utf8.Bytes)
    (h : Twins c d) : Twins (c.messageWith print bytes) (d.messageWith print bytes) := by
  have hr : Desk.isRegistered .message c = Desk.isRegistered .message d :=
    h.same (Desk.isRegistered .message) fun _ => rfl
  unfold messageWith Desk.message
  rw [hr]
  split
  · exact h
  · exact (serve_twins (fun h => ⟨rfl, h.erase rfl rfl⟩) (fun h => ⟨rfl, tell_twins hp _ h⟩) h).2

theorem enqueue_twins : Printer.Blind enqueue :=
  fun chunk _ _ h => h.map (g := enqueue chunk) fun _ => rfl

theorem note_twins (n n' : Note) (h : Twins c d) : Twins (c.note n) (d.note n') := h.erase rfl rfl

theorem chain_bare (hook : Hook) (e : Ending) (c : Console) : (chain hook e c).bare = c.bare := by
  cases hook with
  | console => rfl
  | own =>
    unfold chain
    dsimp only
    split <;> rfl

theorem cleanUp_twins (e : Ending) (h : Twins c d) : Twins (c.cleanUp e) (d.cleanUp e) := by
  have hr : Desk.isRegistered .cleanUp c = Desk.isRegistered .cleanUp d :=
    h.same (Desk.isRegistered .cleanUp) fun _ => rfl
  have hs : Same Twins
      (Desk.serve .cleanUp (fun c => (Ended.returned (), c)) (fun c => (.returned (), c.finishSession e)) c)
      (Desk.serve .cleanUp (fun c => (Ended.returned (), c)) (fun c => (.returned (), c.finishSession e)) d) :=
    serve_twins (fun h => ⟨rfl, h⟩) (fun h => ⟨rfl, h.erase rfl rfl⟩) h
  unfold cleanUp Desk.cleanUp
  rw [hr]
  split
  · exact h
  · obtain ⟨ended, c', d', hc, hd, ht⟩ := hs.pair
    rw [hc, hd]
    cases ended with
    | panicked => exact ht
    | returned _ =>
      have hp : (HasDesk.desk c').previous = (HasDesk.desk d').previous := ht.same (·.desk.previous) fun _ => rfl
      dsimp only
      rw [hp]
      split
      · exact ht.erase (chain_bare _ e c') (chain_bare _ e d')
      · exact ht

theorem read_atPrompt_twins (hint : Utf8.Bytes) (size : Int) (h : Twins c d) :
    Same Twins (atPrompt.read hint size c) (atPrompt.read hint size d) := by
  have hr : Desk.isRegistered .read c = Desk.isRegistered .read d :=
    h.same (Desk.isRegistered .read) fun _ => rfl
  change Same Twins (Desk.read (fun _ c => (.returned none, c)) hint size c)
    (Desk.read (fun _ c => (.returned none, c)) hint size d)
  unfold Desk.read
  rw [hr]
  split
  · exact ⟨rfl, h⟩
  · exact serve_twins (fun h => ⟨rfl, h⟩) (fun h => ⟨rfl, h⟩) h

theorem through_twins (name : String) (hook : Hooks → Option Hook) {call : Console → Console}
    (h : Twins c d) (hc : Twins (call c) (call d)) :
    Twins (Action.through atPrompt name hook call c) (Action.through atPrompt name hook call d) := by
  have hh : atPrompt.hooks c = atPrompt.hooks d := h.same (·.engine.hooks) fun _ => rfl
  unfold Action.through
  rw [hh]
  split
  · exact hc
  · exact note_twins _ _ h

theorem action_twins (a : Action) (h : Twins c d) :
    Same Twins (a.run atPrompt c) (a.run atPrompt d) := by
  cases a with
  | write bytes code => exact ⟨rfl, through_twins _ _ h (writeWith_twins enqueue_twins bytes code h)⟩
  | message bytes => exact ⟨rfl, through_twins _ _ h (messageWith_twins enqueue_twins bytes h)⟩
  | read hint size =>
    obtain ⟨-, ht⟩ := read_atPrompt_twins hint size h
    exact ⟨rfl, through_twins _ _ h (note_twins _ _ ht)⟩
  | cleanUp e => exact ⟨rfl, through_twins _ _ h (cleanUp_twins e h)⟩
  | request mode => exact ⟨rfl, h.map (g := request mode) fun _ => rfl⟩
  | enqueue chunk => exact ⟨rfl, enqueue_twins chunk h⟩
  | fail => exact ⟨rfl, h⟩

theorem runAll_twins (actions : List Action) (h : Twins c d) :
    Same Twins (Action.runAll atPrompt actions c) (Action.runAll atPrompt actions d) := by
  induction actions generalizing c d with
  | nil => exact ⟨rfl, h⟩
  | cons a actions ih =>
    have ha := action_twins a h
    unfold Action.runAll
    obtain ⟨goesOn, c', d', hc, hd, ht⟩ := ha.pair
    rw [hc, hd]
    cases goesOn with
    | true => exact ih ht
    | false => exact ⟨rfl, ht⟩

theorem noteEvent_bare (number : Nat) (actions : List Action) (completed : Bool) (c : Console) :
    (setEngine (c.engine.noteEvent number actions completed) c).bare = c.bare := by
  unfold Engine.noteEvent
  dsimp only
  split <;> split <;> rfl

theorem eventStep_twins (h : Twins c d) : Same Twins c.eventStep d.eventStep := by
  have hn : Twins (setEngine c.engine.nextEvent.2 c) (setEngine d.engine.nextEvent.2 d) := by
    have hb (c : Console) : (setEngine c.engine.nextEvent.2 c).bare =
        { c with engine := { c.engine with events := c.engine.events.tail } }.bare := by
      rw [nextEvent_eq]
      rfl
    exact (h.map (g := fun c => { c with engine := { c.engine with events := c.engine.events.tail } })
      fun _ => rfl).erase (hb c) (hb d)
  have ha : c.engine.nextEvent.1 = d.engine.nextEvent.1 := by
    rw [nextEvent_eq, nextEvent_eq, h.same (·.engine.events) fun _ => rfl]
  rw [eventStep_eq, eventStep_eq, ha]
  obtain ⟨he, ht⟩ := runAll_twins d.engine.nextEvent.1 hn
  exact ⟨he, ht.erase (noteEvent_bare _ _ _ _) (noteEvent_bare _ _ _ _)⟩

theorem strike_twins (faults : List Fault) (h : Twins c d) :
    Same Twins (strike faults c) (strike faults d) := by
  induction faults generalizing c d with
  | nil => exact ⟨rfl, h⟩
  | cons f faults ih =>
    unfold strike
    cases f.writes with
    | none =>
      cases f.fails with
      | none => exact ih h
      | some message => exact ⟨rfl, h⟩
    | some w =>
      have hw := writeWith_twins enqueue_twins w.1 w.2 h
      cases f.fails with
      | none => exact ih hw
      | some message => exact ⟨rfl, hw⟩

theorem call_twins (m : Method) (h : Twins c d) : Same Twins (c.call m) (d.call m) := by
  unfold call
  rw [h.same Console.terminal fun _ => rfl]
  exact strike_twins _ (h.map (g := fun c => { c with terminal := d.terminal.count m }) fun _ => rfl)

theorem perform_twins (a : Act) (h : Twins c d) : Twins (c.perform a) (d.perform a) :=
  h.map (g := perform a) fun _ => rfl

theorem act_twins (m : Method) (a : Act) (h : Twins c d) : Same Twins (c.act m a) (d.act m a) := by
  have hc := call_twins m h
  unfold act
  obtain ⟨result, c', d', hc, hd, ht⟩ := hc.pair
  rw [hc, hd]
  cases result with
  | error message => exact ⟨rfl, ht⟩
  | ok _ => exact ⟨rfl, perform_twins a ht⟩

theorem print_twins : Printer.Blind print := fun _ _ _ h => (act_twins _ _ h).2

theorem interleave_twins (frame : Frame) (chunks : List Chunk) (h : Twins c d) :
    Same Twins (interleave frame chunks c) (interleave frame chunks d) := by
  induction chunks generalizing c d with
  | nil => exact ⟨rfl, h⟩
  | cons chunk chunks ih =>
    have ha := act_twins .interleave (.interleaved chunk frame) h
    unfold interleave
    obtain ⟨result, c', d', hc, hd, ht⟩ := ha.pair
    rw [hc, hd]
    cases result with
    | error message => exact ⟨rfl, ht⟩
    | ok _ => exact ih ht

theorem check_twins (frame : Frame) (h : KeyedTwins s t) :
    Same KeyedTwins (check frame s) (check frame t) := by
  obtain ⟨c, keys⟩ := s
  obtain ⟨d, keys'⟩ := t
  obtain ⟨h, hk⟩ := h
  cases hk
  have hq : c.queue = d.queue := h.same Console.queue fun _ => rfl
  have hi := interleave_twins frame c.queue
    (h.map (g := fun c => { c with queue := [] }) fun _ => rfl)
  unfold check
  dsimp only at hi ⊢
  rw [← hq]
  obtain ⟨result, c', d', hc, hd, ht⟩ := hi.pair
  rw [hc, hd]
  cases result with
  | error message => exact ⟨rfl, ht, rfl⟩
  | ok _ =>
    have hq' : c'.queue = d'.queue := ht.same Console.queue fun _ => rfl
    have ha := act_twins .ready .checked (perform_twins (.asked c'.queue) ht)
    dsimp only
    rw [← hq']
    obtain ⟨result, c'', d'', hc, hd, ht⟩ := ha.pair
    rw [hc, hd]
    cases result with
    | error message => exact ⟨rfl, ht, rfl⟩
    | ok _ => exact ⟨rfl, ht, rfl⟩

end Console

theorem Pump.waitFrom_same {σ : Type} (p : Pump σ) {R : σ → σ → Prop}
    (hc : ∀ {s t}, R s t → Same R (p.check s) (p.check t))
    (hs : ∀ {s t}, R s t → Same R (p.step s) (p.step t)) (stats : WaitStats) {s t : σ} (h : R s t) :
    Same R (p.waitFrom stats s) (p.waitFrom stats t) := by
  fun_induction waitFrom p stats s generalizing t with
  | case1 stats s hready =>
    obtain ⟨he, hr⟩ := hc h
    rw [p.waitFrom_of_ready stats (he.symm.trans hready)]
    exact ⟨rfl, hr⟩
  | case2 stats s message hfailed =>
    obtain ⟨he, hr⟩ := hc h
    rw [p.waitFrom_of_failed stats (he.symm.trans hfailed)]
    exact ⟨rfl, hr⟩
  | case3 stats s hwaits ih =>
    obtain ⟨he, hr⟩ := hc h
    obtain ⟨hb, hr⟩ := hs hr
    rw [p.waitFrom_of_notReady stats (he.symm.trans hwaits), ← hb]
    exact ih hr

namespace Console

variable {c d : Console} {s t : Keyed} {p : Dressing}

theorem wait_twins (frame : Frame) (h : KeyedTwins s t) :
    Same KeyedTwins ((pump frame).wait s) ((pump frame).wait t) := by
  apply Pump.waitFrom_same (pump frame) (check_twins frame) ?_ {} h
  intro s t h
  obtain ⟨he, ht⟩ := eventStep_twins h.1
  exact ⟨he, ht, h.2⟩

theorem nextKey_twins (frame : Frame) (h : KeyedTwins s t) :
    Same KeyedTwins (nextKey frame s) (nextKey frame t) := by
  obtain ⟨c, keys⟩ := s
  obtain ⟨d, keys'⟩ := t
  obtain ⟨h, hk⟩ := h
  cases hk
  have ha := act_twins .render (.rendered frame) h
  unfold nextKey
  dsimp only
  obtain ⟨result, c', d', hc, hd, ht⟩ := ha.pair
  rw [hc, hd]
  cases result with
  | error message => exact ⟨rfl, ht, rfl⟩
  | ok _ =>
    have hw := wait_twins (s := (c', keys)) (t := (d', keys)) frame ⟨ht, rfl⟩
    dsimp only
    obtain ⟨result, c', d', keys, hc, hd, ht⟩ := KeyedTwins.pair hw
    rw [hc, hd]
    cases result with
    | error message => exact ⟨rfl, ht, rfl⟩
    | ok _ =>
      have hc := call_twins .readKey ht
      dsimp only
      obtain ⟨result, c', d', hc, hd, ht⟩ := hc.pair
      rw [hc, hd]
      cases result with
      | error message => exact ⟨rfl, ht, rfl⟩
      | ok _ =>
        dsimp only
        split
        · exact ⟨rfl, ht, rfl⟩
        · exact ⟨rfl, perform_twins _ ht, rfl⟩

theorem withKeymap_twins (m m' : Keymap) (h : Twins c d) : Twins (c.withKeymap m) (d.withKeymap m') :=
  h.erase rfl rfl

theorem serve_request_twins (request : Option Request) (h : Twins c d) :
    Same Twins (c.serve request) (d.serve request) := by
  rcases request with _ | _ | _
  · exact ⟨rfl, h⟩
  · exact act_twins .clear .cleared h
  · have hs := act_twins .suspend .suspended h
    change Same Twins c.suspend d.suspend
    unfold suspend
    obtain ⟨result, c', d', hc, hd, ht⟩ := hs.pair
    rw [hc, hd]
    cases result with
    | error message => exact ⟨rfl, ht⟩
    | ok _ => exact act_twins .retake .retaken ht

theorem serve_withKeymap_twins (m m' : Keymap) (request : Option Request) (h : Twins c d) :
    Same Twins ((c.withKeymap m).serve request) ((d.withKeymap m').serve request) :=
  serve_request_twins request (withKeymap_twins m m' h)

theorem conclude_twins (p : Dressing) {e e' : Editor} (hb : e'.buffer = e.buffer) (outcome : Outcome)
    (h : Twins c d) : Same Twins (c.conclude p e outcome) (d.conclude p e' outcome) := by
  have ha := act_twins .finish (.finished (p.lastFrame e.buffer)) h
  unfold conclude
  rw [hb]
  split
  · obtain ⟨result, c', d', hc, hd, ht⟩ := ha.pair
    rw [hc, hd]
    cases result with
    | error message => exact ⟨rfl, ht⟩
    | ok _ => exact ⟨rfl, ht⟩
  · exact ⟨rfl, h⟩

theorem edit_of_error {e : Editor} {error : TerminalError}
    (h : (nextKey (p.frame e.buffer) s).1 = .error error) :
    edit p e s = (.error error, (nextKey (p.frame e.buffer) s).2) := by
  rw [edit]
  split <;> simp_all

theorem edit_of_redraw {e : Editor} (h : (nextKey (p.frame e.buffer) s).1 = .ok none) :
    edit p e s = edit p e (nextKey (p.frame e.buffer) s).2 := by
  rw [edit.eq_def p e s]
  split <;> simp_all

theorem edit_of_key {e : Editor} {k : Key} (h : (nextKey (p.frame e.buffer) s).1 = .ok (some k)) :
    edit p e s =
      let s' := (nextKey (p.frame e.buffer) s).2
      match e.press k with
      | .done outcome => let (result, c) := s'.1.conclude p e outcome; (result, c, s'.2)
      | .goOn e request =>
        match (s'.1.withKeymap e.keymap).serve request with
        | (.error message, c) => (.error (.failed message), c, s'.2)
        | (.ok (), c) => edit p e (c, s'.2) := by
  rw [edit.eq_def p e s]
  split
  · rename_i he; rw [he] at h; cases h
  · rename_i he; rw [he] at h; cases h
  · rename_i he
    rw [he] at h
    cases h
    rfl

theorem edit_of_done {e : Editor} {k : Key} {outcome : Outcome}
    (h : (nextKey (p.frame e.buffer) s).1 = .ok (some k)) (hp : e.press k = .done outcome) :
    edit p e s =
      (((nextKey (p.frame e.buffer) s).2.1.conclude p e outcome).1,
        ((nextKey (p.frame e.buffer) s).2.1.conclude p e outcome).2,
        (nextKey (p.frame e.buffer) s).2.2) := by
  rw [edit_of_key h]
  dsimp only
  rw [hp]

theorem edit_of_served {e e' : Editor} {k : Key} {request : Option Request}
    (h : (nextKey (p.frame e.buffer) s).1 = .ok (some k)) (hp : e.press k = .goOn e' request)
    (hs : (((nextKey (p.frame e.buffer) s).2.1.withKeymap e'.keymap).serve request).1 = .ok ()) :
    edit p e s = edit p e' ((((nextKey (p.frame e.buffer) s).2.1.withKeymap e'.keymap).serve request).2,
      (nextKey (p.frame e.buffer) s).2.2) := by
  rw [edit_of_key h]
  dsimp only
  rw [hp]
  dsimp only
  split
  · rename_i he
    rw [he] at hs
    cases hs
  · rename_i he
    rw [he]

theorem edit_of_refused {e e' : Editor} {k : Key} {request : Option Request} {message : String}
    (h : (nextKey (p.frame e.buffer) s).1 = .ok (some k)) (hp : e.press k = .goOn e' request)
    (hs : (((nextKey (p.frame e.buffer) s).2.1.withKeymap e'.keymap).serve request).1 =
      .error message) :
    edit p e s = (.error (.failed message),
      (((nextKey (p.frame e.buffer) s).2.1.withKeymap e'.keymap).serve request).2,
      (nextKey (p.frame e.buffer) s).2.2) := by
  rw [edit_of_key h]
  dsimp only
  rw [hp]
  dsimp only
  split
  · rename_i he
    rw [he] at hs
    cases hs
    rw [he]
  · rename_i he
    rw [he] at hs
    cases hs

variable {P : Key → Prop} {R : Editor → Editor → Prop} {e e' : Editor}

theorem nextKey_follows (p : Dressing) (hR : Editor.Follows P R) (he : R e e')
    (h : KeyedTwins s t) :
    Same KeyedTwins (nextKey (p.frame e.buffer) s) (nextKey (p.frame e'.buffer) t) := by
  rw [hR.buffer he]
  exact nextKey_twins _ h

theorem edit_follows (p : Dressing) (hR : Editor.Follows P R) (he : R e e')
    (hkeys : ∀ k, some k ∈ Input.keys s.2 → P k) (h : KeyedTwins s t) :
    Same KeyedTwins (edit p e s) (edit p e' t) := by
  -- Only the first of the two is taken apart; what it did tells which equation the other one is by.
  fun_induction edit p e s generalizing e' t with
  | case1 e s error hk =>
    obtain ⟨hr, ht⟩ := nextKey_follows p hR he h
    rw [edit_of_error (hr.symm.trans hk)]
    exact ⟨rfl, ht⟩
  | case2 e s hk ih =>
    obtain ⟨hr, ht⟩ := nextKey_follows p hR he h
    rw [edit_of_redraw (hr.symm.trans hk)]
    exact ih he ((nextKey_reads hk).all hkeys).2 ht
  | case3 e s k hk s' outcome hp result c =>
    rename_i hc
    obtain ⟨hr, ht, hrest⟩ := nextKey_follows p hR he h
    have hP := ((nextKey_reads hk).all hkeys).1 k List.mem_cons_self
    have hd := conclude_twins p (hR.buffer he) outcome ht
    rw [edit_of_done (hr.symm.trans hk) (hR.done he hP hp)]
    rw [hc] at hd
    exact ⟨hd.1, hd.2, hrest⟩
  | case4 e s k hk s' e₁ request hp message c =>
    rename_i hc
    obtain ⟨hr, ht, hrest⟩ := nextKey_follows p hR he h
    have hP := ((nextKey_reads hk).all hkeys).1 k List.mem_cons_self
    obtain ⟨e₂, hp', -⟩ := hR.goOn he hP hp
    obtain ⟨hs, hserved⟩ := serve_withKeymap_twins e₁.keymap e₂.keymap request ht
    rw [hc] at hs hserved
    rw [edit_of_refused (hr.symm.trans hk) hp' hs.symm]
    exact ⟨rfl, hserved, hrest⟩
  | case5 e s k hk s' e₁ request hp c hc =>
    rename_i ih
    obtain ⟨hr, ht, hrest⟩ := nextKey_follows p hR he h
    obtain ⟨hread, hlater⟩ := (nextKey_reads hk).all hkeys
    obtain ⟨e₂, hp', he₁⟩ := hR.goOn he (hread k List.mem_cons_self) hp
    obtain ⟨hs, hserved⟩ := serve_withKeymap_twins e₁.keymap e₂.keymap request ht
    rw [hc] at hs hserved
    rw [edit_of_served (hr.symm.trans hk) hp' hs.symm]
    exact ih he₁ hlater ⟨hserved, hrest⟩

theorem readLine_follows (p : Dressing) (hR : Editor.Follows P R) (he : R e e')
    (hkeys : ∀ k, some k ∈ Input.keys s.2 → P k) (h : KeyedTwins s t) :
    Same KeyedTwins (readLine p e s) (readLine p e' t) := by
  obtain ⟨c, keys⟩ := s
  obtain ⟨d, keys'⟩ := t
  obtain ⟨h, hk⟩ := h
  cases hk
  have ha := act_twins .enter .entered h
  unfold readLine
  dsimp only
  obtain ⟨result, c', d', hc, hd, ht⟩ := ha.pair
  rw [hc, hd]
  cases result with
  | error message => exact ⟨rfl, ht, rfl⟩
  | ok _ =>
    have hd := edit_follows (s := (c'.withKeymap e.keymap, keys)) (t := (d'.withKeymap e'.keymap, keys))
      p hR he hkeys ⟨withKeymap_twins e.keymap e'.keymap ht, rfl⟩
    dsimp only
    obtain ⟨result, c', d', keys, hc, hd, ht⟩ := KeyedTwins.pair hd
    rw [hc, hd]
    have hl := act_twins .leave .left ht
    dsimp only
    obtain ⟨left, c', d', hc, hd, ht⟩ := hl.pair
    rw [hc, hd]
    cases result <;> cases left <;> exact ⟨rfl, ht, rfl⟩

theorem readLine_twins (p : Dressing) (e : Editor) (h : KeyedTwins s t) :
    Same KeyedTwins (readLine p e s) (readLine p e t) :=
  readLine_follows p Editor.follows_eq rfl (fun _ _ => trivial) h

end Console

end RConsole
