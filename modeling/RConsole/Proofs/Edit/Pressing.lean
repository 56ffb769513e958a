import Mathlib.Data.List.Induction
import RConsole.Proofs.Edit.Completing

namespace RConsole

def Command.requests : Command → Bool
  | clearScreen => true
  | suspend => true
  | _ => false

def Key.leavesPrompt (k : Key) : Bool :=
  match k.code with
  | .char 'l' => k.mods.ctrl
  | .char 'z' => k.mods.ctrl
  | _ => false

namespace Keymap

theorem control_requests (c : Char) : (control c).requests = false := by
  unfold control
  split <;> rfl

theorem emacs_requests (k : Key) : (emacs k).requests = false := by
  obtain ⟨code, mods⟩ := k
  cases code with
  | char c =>
    change (if mods.ctrl then control c else if mods.alt then .noop else .insert c).requests = false
    split
    · exact control_requests c
    · split <;> rfl
  | _ => rfl

theorem viCommand_requests (code : KeyCode) : (viCommand code).1.requests = false := by
  unfold viCommand
  split <;> rfl

theorem common_requests {k : Key} {command : Command} (h : common? k = some command)
    (hr : command.requests = true) : k.leavesPrompt = true := by
  unfold common? at h
  unfold Key.leavesPrompt
  split at h
  · split at h <;> cases h <;> cases hr
  · rename_i c hc
    split at h
    · cases h
    · rename_i hctrl
      have hctrl : k.mods.ctrl = true := by simpa using hctrl
      rw [hc]
      split at h
      · cases h; cases hr
      · cases h; cases hr
      · exact hctrl
      · exact hctrl
      · cases h
  · cases h

theorem map_requests {m : Keymap} {k : Key} (h : (m.map k).1.requests = true) :
    k.leavesPrompt = true := by
  unfold map at h
  split at h
  · rename_i hk
    exact common_requests hk h
  · have he := emacs_requests k
    split at h
    · exact absurd (he.symm.trans h) (by simp)
    · split at h
      · cases h
      · exact absurd (he.symm.trans h) (by simp)
    · exact absurd ((viCommand_requests k.code).symm.trans h) (by simp)

end Keymap

namespace Recall

theorem back_some {r r' : Recall} {current : String} (h : r.back? current = some r') :
    r'.entries = r.entries ∧ r'.index + 1 = r.index ∧
      r'.draft = if r.index = r.entries.length then current else r.draft := by
  unfold back? at h
  split at h
  · cases h
  · cases h
    exact ⟨rfl, by dsimp only; omega, rfl⟩

theorem forth_some {r r' : Recall} (h : r.forth? = some r') :
    r.index < r.entries.length ∧ r' = { r with index := r.index + 1 } := by
  unfold forth? at h
  split at h
  · cases h
  · cases h
    exact ⟨by omega, rfl⟩

end Recall

namespace Editor

def after (e : Editor) : List (Option Key) → Option Editor
  | [] => some e
  | none :: keys => e.after keys
  | some k :: keys =>
    match e.press k with
    | .goOn e' _ => e'.after keys
    | .done _ => none

variable {e e' start : Editor} {k : Key} {keys : List (Option Key)} {command : Command}
  {request : Option Request}

theorem after_append (e : Editor) (keys later : List (Option Key)) :
    e.after (keys ++ later) = (e.after keys).bind (·.after later) := by
  induction keys generalizing e with
  | nil => rfl
  | cons key keys ih =>
    cases key with
    | none => exact ih e
    | some k =>
      simp only [List.cons_append, after]
      cases e.press k with
      | goOn e' request => exact ih e'
      | done outcome => rfl

theorem after_concat {key : Option Key} (h : start.after (keys ++ [key]) = some e') :
    ∃ e, start.after keys = some e ∧ (e' = e ∨ ∃ k request, e.press k = .goOn e' request) := by
  rw [after_append] at h
  obtain ⟨e, he, hlast⟩ := Option.bind_eq_some_iff.mp h
  refine ⟨e, he, ?_⟩
  cases key with
  | none =>
    cases hlast
    exact .inl rfl
  | some k =>
    simp only [after] at hlast
    cases hp : e.press k with
    | done outcome =>
      rw [hp] at hlast
      cases hlast
    | goOn e₁ request =>
      rw [hp] at hlast
      cases hlast
      exact .inr ⟨k, request, hp⟩

theorem after_induct {P : List (Option Key) → Editor → Prop} (hstart : P [] start)
    (hstep : ∀ keys key e e', start.after keys = some e → start.after (keys ++ [key]) = some e' →
      (e' = e ∨ ∃ k request, e.press k = .goOn e' request) → P keys e → P (keys ++ [key]) e')
    (hk : start.after keys = some e) : P keys e := by
  induction keys using List.reverseRecOn generalizing e with
  | nil =>
    cases hk
    exact hstart
  | append_singleton keys key ih =>
    obtain ⟨e₀, h₀, hlast⟩ := after_concat hk
    exact hstep keys key e₀ e h₀ hk hlast (ih h₀)

theorem apply_goOn (h : e.apply command = .goOn e' request) : e' = e.edit command := by
  cases command with
  | submit => cases h
  | cancel => cases h
  | deleteOrEnd =>
    simp only [apply] at h
    split at h
    · cases h
    · exact (Step.goOn.inj h).1.symm
  | _ => exact (Step.goOn.inj h).1.symm

theorem press_goOn (h : e.press k = .goOn e' request) :
    e' = edit { e with keymap := (e.keymap.map k).2 } (e.keymap.map k).1 := by
  unfold press at h
  split at h
  · cases h
  · exact apply_goOn h

theorem press_submitted {text : String} (h : e.press k = .done (.submitted text)) :
    text = e.buffer.text := by
  unfold press at h
  split at h
  · cases h
  · generalize e.keymap.map k = mapped at h
    obtain ⟨command, keymap⟩ := mapped
    cases command with
    | submit => cases h; rfl
    | deleteOrEnd =>
      simp only [apply] at h
      split at h <;> cases h
    | _ => cases h

theorem apply_request {r : Request} (h : e.apply command = .goOn e' (some r)) :
    command.requests = true := by
  cases command with
  | clearScreen => rfl
  | suspend => rfl
  | deleteOrEnd =>
    simp only [apply] at h
    split at h <;> cases h
  | _ => cases h

theorem press_request {r : Request} (h : e.press k = .goOn e' (some r)) : k.leavesPrompt = true := by
  unfold press at h
  split at h
  · cases h
  · exact Keymap.map_requests (apply_request h)

inductive Goes (e : Editor) (moved : Bool × Buffer) (next : Option Recall) : Editor → Prop where
  | line (h : moved.1 = true) : Goes e moved next { e with buffer := moved.2 }
  | text {walk : Recall} (h : moved.1 = false) (hn : next = some walk) :
      Goes e moved next { e with walk := walk, buffer := .ofText walk.shown }
  | stay (h : moved.1 = false) (hn : next = none) : Goes e moved next e

theorem goes_up (e : Editor) : e.Goes e.buffer.up (e.walk.back? e.buffer.text) e.goUp := by
  unfold goUp
  dsimp only
  split
  · exact .line ‹_›
  · rename_i h
    rw [Bool.not_eq_true] at h
    split
    · exact .text h ‹_›
    · exact .stay h ‹_›

theorem goes_down (e : Editor) : e.Goes e.buffer.down e.walk.forth? e.goDown := by
  unfold goDown
  dsimp only
  split
  · exact .line ‹_›
  · rename_i h
    rw [Bool.not_eq_true] at h
    split
    · exact .text h ‹_›
    · exact .stay h ‹_›

def Held (start : Editor) (keys : List (Option Key)) (text : String) : Prop :=
  ∃ before, before <+: keys ∧ ∃ e, start.after before = some e ∧ e.buffer.text = text

theorem Held.extend {text : String} (h : start.Held keys text) (later : List (Option Key)) :
    start.Held (keys ++ later) text := by
  obtain ⟨before, hp, he⟩ := h
  exact ⟨before, hp.trans (List.prefix_append keys later), he⟩

theorem Held.now (h : start.after keys = some e) : start.Held keys e.buffer.text :=
  ⟨keys, List.prefix_refl keys, e, h, rfl⟩

/-- All that an editor can recall are the entries that it was started with, and its own text. -/
structure Recalls (start : Editor) (keys : List (Option Key)) (e : Editor) : Prop where
  entries : e.entries = start.entries
  walk : e.walk.entries = start.walk.entries
  index : e.walk.index ≤ e.walk.entries.length
  draft : e.walk.index < e.walk.entries.length → start.Held keys e.walk.draft

namespace Recalls

theorem extend (h : Recalls start keys e) (later : List (Option Key)) :
    Recalls start (keys ++ later) e :=
  ⟨h.entries, h.walk, h.index, fun hi => (h.draft hi).extend later⟩

theorem of_same (h : Recalls start keys e) (he : e'.entries = e.entries) (hw : e'.walk = e.walk) :
    Recalls start keys e' where
  entries := he.trans h.entries
  walk := by rw [hw]; exact h.walk
  index := by rw [hw]; exact h.index
  draft := by rw [hw]; exact h.draft

theorem back (h : Recalls start keys e) (hs : start.Held keys e.buffer.text) {walk : Recall}
    (hb : e.walk.back? e.buffer.text = some walk) :
    (∀ buffer, Recalls start keys { e with walk := walk, buffer := buffer }) ∧
      (walk.shown ∈ start.walk.entries ∨ start.Held keys walk.shown) := by
  obtain ⟨hentries, hindex, hdraft⟩ := Recall.back_some hb
  have hi := h.index
  have hlt : walk.index < walk.entries.length := by
    rw [hentries]
    omega
  refine ⟨fun buffer => ⟨h.entries, hentries.trans h.walk, Nat.le_of_lt hlt, fun _ => ?_⟩, .inl ?_⟩
  · dsimp only
    rw [hdraft]
    split
    · exact hs
    · exact h.draft (by omega)
  · rw [← h.walk, ← hentries, Recall.shown, List.getElem?_eq_getElem hlt, Option.getD_some]
    exact List.getElem_mem hlt

theorem forth (h : Recalls start keys e) {walk : Recall} (hf : e.walk.forth? = some walk) :
    (∀ buffer, Recalls start keys { e with walk := walk, buffer := buffer }) ∧
      (walk.shown ∈ start.walk.entries ∨ start.Held keys walk.shown) := by
  obtain ⟨hlt, rfl⟩ := Recall.forth_some hf
  have hd := h.draft hlt
  refine ⟨fun buffer => ⟨h.entries, h.walk, hlt, fun _ => hd⟩, ?_⟩
  rw [← h.walk]
  simp only [Recall.shown]
  rcases Nat.lt_or_ge (e.walk.index + 1) e.walk.entries.length with hlt | hge
  · rw [List.getElem?_eq_getElem hlt]
    exact .inl (List.getElem_mem hlt)
  · rw [List.getElem?_eq_none hge]
    exact .inr hd

theorem goes (h : Recalls start keys e) (hs : start.Held keys e.buffer.text)
    {moved : Bool × Buffer} {next : Option Recall} (ht : moved.2.text = e.buffer.text)
    (hn : ∀ walk, next = some walk →
      (∀ buffer, Recalls start keys { e with walk := walk, buffer := buffer }) ∧
        (walk.shown ∈ start.walk.entries ∨ start.Held keys walk.shown))
    (hg : e.Goes moved next e') :
    Recalls start keys e' ∧
      (e'.buffer.text ∈ start.walk.entries ∨ start.Held keys e'.buffer.text) := by
  cases hg with
  | line => exact ⟨h.of_same rfl rfl, .inr (by rw [ht]; exact hs)⟩
  | text _ hw =>
    rw [Buffer.text_ofText]
    exact ⟨(hn _ hw).1 _, (hn _ hw).2⟩
  | stay => exact ⟨h, .inr hs⟩

theorem goUp (h : Recalls start keys e) (hs : start.Held keys e.buffer.text) :
    Recalls start keys e.goUp ∧
      (e.goUp.buffer.text ∈ start.walk.entries ∨ start.Held keys e.goUp.buffer.text) :=
  h.goes hs e.buffer.text_up (fun _ => h.back hs) e.goes_up

theorem goDown (h : Recalls start keys e) (hs : start.Held keys e.buffer.text) :
    Recalls start keys e.goDown ∧
      (e.goDown.buffer.text ∈ start.walk.entries ∨ start.Held keys e.goDown.buffer.text) :=
  h.goes hs e.buffer.text_down (fun _ => h.forth) e.goes_down

theorem edit (h : Recalls start keys e) (hs : start.Held keys e.buffer.text) (command : Command) :
    Recalls start keys (e.edit command) := by
  cases command with
  | up => exact (h.goUp hs).1
  | down => exact (h.goDown hs).1
  | newline =>
    simp only [Editor.edit]
    split
    · exact h.of_same rfl rfl
    · exact h
  | complete =>
    simp only [Editor.edit]
    split
    · unfold Editor.complete
      split
      · exact h.of_same rfl rfl
      · exact h
    · exact h
  | _ => exact h.of_same rfl rfl

end Recalls

theorem recalls_start (spec : Spec) (mode : EditingMode) (entries : List String) :
    Recalls (.start spec mode entries) [] (.start spec mode entries) where
  entries := rfl
  walk := rfl
  index := Nat.le_refl _
  draft h := absurd h (Nat.lt_irrefl _)

theorem recalls_after (h : Recalls start [] start) (hk : start.after keys = some e) :
    Recalls start keys e := by
  refine after_induct (P := Recalls start) h (fun keys key e e' he _ hlast hr => ?_) hk
  rcases hlast with rfl | ⟨k, request, hp⟩
  · exact hr.extend _
  · rw [press_goOn hp]
    have hs : start.Held keys e.buffer.text := .now he
    have hm : Recalls start keys { e with keymap := (e.keymap.map k).2 } := hr.of_same rfl rfl
    exact (hm.edit hs _).extend _

theorem recall_sources (h : Recalls start [] start) (hk : start.after keys = some e) :
    (∀ e', e' = e.edit .up ∨ e' = e.edit .down →
      e'.buffer.text ∈ start.walk.entries ∨ start.Held keys e'.buffer.text) ∧
    (e.edit .complete = e ∨ ∃ suffix, ∃ entry ∈ start.entries, ∃ word ∈ Completion.wordsOf entry,
      e.buffer.wordBeforeCursor.toList ++ suffix <+: word ∧
        (e.edit .complete).buffer = e.buffer.insertText (String.ofList suffix)) := by
  have hr := recalls_after h hk
  refine ⟨?_, ?_⟩
  · rintro e' (rfl | rfl)
    · exact (hr.goUp (.now hk)).2
    · exact (hr.goDown (.now hk)).2
  · simp only [edit]
    split
    · unfold complete
      split
      · rename_i suffix hc
        obtain ⟨entry, he, word, hw, hp⟩ := Completion.complete_offers hc
        exact .inr ⟨suffix, entry, hr.entries ▸ he, word, hw, hp, rfl⟩
      · exact .inl rfl
    · exact .inl rfl

end Editor

end RConsole
