import RConsole.Engine.Basic

namespace RConsole.Engine

def plan (events : List (List Action)) (e : Engine) : Engine := { e with events := events }

theorem plan_events (e : Engine) : e.plan e.events = e := rfl

/-- A question that leaves the hooks and the event steps alone and does not depend on the latter. -/
structure Observes {α : Type} (load : Engine → α × Engine) : Prop where
  hooks : ∀ e, (load e).2.hooks = e.hooks
  plan : ∀ events e, load (e.plan events) = ((load e).1, (load e).2.plan events)
  notes : ∀ e, ∃ new, (load e).2.notes.toList = e.notes.toList ++ new ∧
    ∀ reply, Note.answered reply ∉ new

structure Asked (e e' : Engine) : Prop where
  hooks : e'.hooks = e.hooks
  events : e'.events = e.events
  notes : ∃ new, e'.notes.toList = e.notes.toList ++ new ∧ ∀ reply, Note.answered reply ∉ new

theorem Asked.refl (e : Engine) : Asked e e := ⟨rfl, rfl, [], by simp, by simp⟩

theorem Asked.trans {e e' e'' : Engine} (h : Asked e e') (h' : Asked e' e'') : Asked e e'' where
  hooks := h'.hooks.trans h.hooks
  events := h'.events.trans h.events
  notes := by
    obtain ⟨new, hn, ha⟩ := h.notes
    obtain ⟨new', hn', ha'⟩ := h'.notes
    refine ⟨new ++ new', by rw [hn', hn, List.append_assoc], ?_⟩
    intro reply hr
    exact (List.mem_append.mp hr).elim (ha reply) (ha' reply)

theorem Observes.asked {α : Type} {load : Engine → α × Engine} (h : Observes load) (e : Engine) :
    Asked e (load e).2 where
  hooks := h.hooks e
  events := by
    have hp := h.plan e.events e
    rw [plan_events] at hp
    rw [hp]
    rfl
  notes := h.notes e

theorem measure_plan (events : List (List Action)) (e : Engine) :
    Layout.measure heap (e.plan events) =
      ((Layout.measure heap e).1, (Layout.measure heap e).2.plan events) := by
  unfold Layout.measure
  simp only [heap, makeScalar, note, plan]
  generalize Layout.isValid _ = valid
  cases valid <;> rfl

theorem measure_hooks (e : Engine) : (Layout.measure heap e).2.hooks = e.hooks := by
  unfold Layout.measure
  simp only [heap, makeScalar, note]
  generalize Layout.isValid _ = valid
  cases valid <;> rfl

theorem measure_notes (e : Engine) : ∃ new, (Layout.measure heap e).2.notes.toList =
    e.notes.toList ++ new ∧ ∀ reply, Note.answered reply ∉ new := by
  unfold Layout.measure
  simp only [heap, makeScalar, note]
  generalize Layout.isValid _ = valid
  cases valid with
  | false => exact ⟨[], by simp, by simp⟩
  | true => exact ⟨[.protectBalance (e.shielded + 1 - 1)], by simp, by simp⟩

theorem observes_offset : Observes offset where
  hooks e := by
    have hm := measure_hooks e
    unfold offset Layout.ensure
    cases e.offset? with
    | some k => rfl
    | none => rcases hr : Layout.measure heap e with ⟨r | r, e'⟩ <;> (rw [hr] at hm; exact hm)
  plan events e := by
    have hm := measure_plan events e
    have hk : (e.plan events).offset? = e.offset? := rfl
    unfold offset Layout.ensure
    rw [hk, hm]
    cases e.offset? with
    | some k => rfl
    | none => rcases hr : Layout.measure heap e with ⟨r | r, e'⟩ <;> rfl
  notes e := by
    have hm := measure_notes e
    unfold offset Layout.ensure
    cases e.offset? with
    | some k => exact ⟨[], by simp, by simp⟩
    | none => rcases hr : Layout.measure heap e with ⟨r | r, e'⟩ <;> (rw [hr] at hm; exact hm)

theorem Observes.bind {α β : Type} {load : Engine → α × Engine} (h : Observes load)
    {f : α → Engine → β} (hf : ∀ a events e, f a (e.plan events) = f a e) :
    Observes fun e => (f (load e).1 (load e).2, (load e).2) where
  hooks := h.hooks
  plan events e := by simp only [h.plan, hf]
  notes := h.notes

def onOffset {α : Type} (known : Engine → α) (unknown : α) (r : Except RuntimeError Int) (e : Engine) :
    α :=
  match r with
  | .ok _ => known e
  | .error _ => unknown

theorem observes_onOffset {α : Type} {known : Engine → α} (hk : ∀ events e, known (e.plan events) = known e)
    (unknown : α) : Observes fun e => (onOffset known unknown e.offset.1 e.offset.2, e.offset.2) := by
  refine observes_offset.bind fun r events e => ?_
  cases r with
  | ok k => exact hk events e
  | error error => rfl

theorem observes_settings (base : Settings) : Observes (settings base) := by
  have h : settings base = fun e =>
      (onOffset (fun e => base.override e.option) base e.offset.1 e.offset.2, e.offset.2) := by
    funext e
    unfold settings
    rcases e.offset with ⟨r | r, e'⟩ <;> rfl
  rw [h]
  exact observes_onOffset (fun _ _ => rfl) base

theorem observes_version : Observes version := by
  have h : version = fun e =>
      (onOffset (fun e => (e.global? "R.version.string").bind OptionValue.asText?) none
        e.offset.1 e.offset.2, e.offset.2) := by
    funext e
    unfold version
    rcases e.offset with ⟨r | r, e'⟩ <;> rfl
  rw [h]
  exact observes_onOffset (fun _ _ => rfl) none

end RConsole.Engine
