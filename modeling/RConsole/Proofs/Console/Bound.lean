import RConsole.Program.Launch
import RConsole.Proofs.Console.Acts
import RConsole.Proofs.Console.Schedule
import RConsole.Proofs.Engine.Observes

/-!
A console that R is bound to, on a terminal that works. There every call has a plain effect, and an
event step under a prompt changes nothing but the queue and what R keeps for itself.
-/
namespace RConsole

def Terminal.Quiet (t : Terminal) : Prop := ∀ f ∈ t.faults, f.writes = none ∧ f.fails = none

namespace Console

structure Backdrop where
  faults : List Fault
  desk : Desk
  hooks : Hooks
  loadSettings : Engine → Settings × Engine
  loadBanner : Option (Engine → Option String × Engine)
  settings : Option Settings
  status : Option String
  history : History
  files : Files
  stamp : Clock
  blankLine : Bool

def backdrop (c : Console) : Backdrop :=
  ⟨c.terminal.faults, c.desk, c.engine.hooks, c.loadSettings, c.loadBanner, c.settings, c.status,
    c.history, c.files, c.stamp, c.blankLine⟩

/-- A console in use: its callbacks are installed, and no closure runs but perhaps the reader. -/
structure Bound (reading : Bool) (c : Console) : Prop where
  quiet : c.terminal.Quiet
  registered : ∀ slot, Desk.isRegistered slot c = true
  running : c.desk.running = { read := reading }
  hooks : c.engine.hooks.read = some .console ∧ c.engine.hooks.writeEx = some .console ∧
    c.engine.hooks.message = some .console
  settings : Engine.Observes c.loadSettings
  banner : ∀ load, c.loadBanner = some load → Engine.Observes load

variable {c c' c'' : Console} {reading : Bool}

theorem Bound.of_backdrop (h : Bound reading c) (hb : c'.backdrop = c.backdrop) : Bound reading c' := by
  simp only [backdrop, Backdrop.mk.injEq] at hb
  obtain ⟨hf, hd, hh, hs, hl, -⟩ := hb
  constructor
  · intro f hm
    rw [hf] at hm
    exact h.quiet f hm
  · intro slot
    have hr := h.registered slot
    simp only [Desk.isRegistered, HasDesk.desk] at hr ⊢
    rw [hd]
    exact hr
  · rw [hd]
    exact h.running
  · rw [hh]
    exact h.hooks
  · rw [hs]
    exact h.settings
  · rw [hl]
    exact h.banner

theorem bound_bind (hr : c.desk.registered = slots) (hn : c.desk.running = {})
    (hq : c.terminal.Quiet) (hs : Engine.Observes c.loadSettings)
    (hl : ∀ load, c.loadBanner = some load → Engine.Observes load) : Bound false c.bind where
  quiet := hq
  registered slot := by
    have hd : Desk.isRegistered slot c.bind = slots.contains slot := congrArg (·.contains slot) hr
    rw [hd]
    cases slot <;> rfl
  running := hn
  hooks := by
    simp only [bind, Desk.bind, hr]
    exact ⟨rfl, rfl, rfl⟩
  settings := hs
  banner := hl

theorem bound_launch (config : Config) (e : Environment) (files : Files)
    (hr : c.desk.registered = slots) (hn : c.desk.running = {}) (hq : c.terminal.Quiet) :
    Bound false (Launch.console config e files c).bind := by
  apply bound_bind
  · exact hr
  · exact hn
  · exact hq
  · exact Engine.observes_settings config.console.settings
  · intro load hl
    cases hl
    exact Engine.observes_version

def did (method : Method) (a : Act) (c : Console) : Console :=
  { c with terminal := (c.terminal.count method).perform a }

theorem strike_quiet {faults : List Fault} (h : ∀ f ∈ faults, f.writes = none ∧ f.fails = none)
    (c : Console) : strike faults c = (.ok (), c) := by
  induction faults with
  | nil => rfl
  | cons f faults ih =>
    obtain ⟨hw, hf⟩ := h f (List.mem_cons_self ..)
    simp only [strike, hw, hf]
    exact ih fun g hg => h g (List.mem_cons_of_mem _ hg)

theorem call_quiet (h : c.terminal.Quiet) (method : Method) :
    c.call method = (.ok (), { c with terminal := c.terminal.count method }) := by
  apply strike_quiet
  intro f hf
  exact h f (List.mem_filter.mp hf).1

theorem act_quiet (h : c.terminal.Quiet) (method : Method) (a : Act) :
    c.act method a = (.ok (), c.did method a) := by
  unfold act
  rw [call_quiet h]
  rfl

theorem print_quiet (h : c.terminal.Quiet) (chunk : Chunk) :
    c.print chunk = c.did .write (.wrote chunk) := by
  unfold print
  rw [act_quiet h]

theorem acts_perform (a : Act) (c : Console) : (c.perform a).acts = c.acts ++ [a] := by
  simp [acts, perform, Terminal.perform]

theorem acts_did (method : Method) (a : Act) (c : Console) : (c.did method a).acts = c.acts ++ [a] := by
  simp [acts, did, Terminal.perform, Terminal.count]

theorem serve_idle {α : Type} {slot : Slot} {busy : Console → α × Console} {a : α}
    {p : Console → Console} (hp : ∀ d, p { c with desk := d } = { p c with desk := d })
    (h : c.desk.running.has slot = false) :
    Desk.serve slot busy (fun c => (a, p c)) c = (a, p c) := by
  have hk : p c = { p c with desk := c.desk } := hp c.desk
  have hr : (c.desk.running.set slot true).set slot false = c.desk.running := by
    rw [Running.set_set, Running.set_has h]
  unfold Desk.serve
  rw [if_neg (by simpa [HasDesk.desk] using h)]
  simp only [Desk.setRunning, HasDesk.desk, HasDesk.withDesk]
  rw [hp, hr]
  exact congrArg (Prod.mk a) hk.symm

theorem writeWith_idle {print : Printer} {bytes : Utf8.Bytes} {code : Int} (h : Bound reading c)
    (hp : ∀ chunk d, print chunk { c with desk := d } = { print chunk c with desk := d }) :
    c.writeWith print bytes code =
      if bytes.isEmpty then c else print (Chunk.ofBytes bytes code) c := by
  have hi : c.desk.running.has .write = false := by rw [h.running]; rfl
  simp only [writeWith, Desk.write, h.registered, Bool.not_true, Bool.false_or]
  split
  · rfl
  · exact congrArg Prod.snd (serve_idle (hp _) hi)

theorem messageWith_idle {print : Printer} {bytes : Utf8.Bytes} (h : Bound reading c)
    (hp : ∀ text d, tell print text { c with desk := d } = { tell print text c with desk := d }) :
    c.messageWith print bytes = c.tell print (cString bytes) := by
  have hi : c.desk.running.has .message = false := by rw [h.running]; rfl
  simp only [messageWith, Desk.message, h.registered, Bool.not_true]
  exact congrArg Prod.snd (serve_idle (hp _) hi)

end Console

end RConsole
