import RConsole.Prompt.Mode
import RConsole.Proofs.Console.Acts

/-!
The mode machine against its trace. Which mode a cycle shows is said of all that happened before
it, and the two fields of the machine are shown to hold exactly that.
-/
namespace RConsole

def Hint.commits : Hint → Bool
  | .other _ => false
  | _ => true

namespace ModeMachine

inductive Event where
  | begin (hint : String)
  | request (mode : Mode)
  | submitted
  deriving DecidableEq, Repr

def take (m : ModeMachine) : Event → ModeMachine
  | .begin hint => (m.beginCycle hint).2
  | .request mode => m.request mode
  | .submitted => m.submitted

def run (m : ModeMachine) (events : List Event) : ModeMachine := events.foldl take m

namespace Event

def commits : Event → Bool
  | begin hint => (Hint.classify hint).commits
  | _ => false

def requested? : Event → Option Mode
  | request mode => some mode
  | _ => none

end Event

def since (past : List Event) : List Event := past.takeWhile fun e => !e.commits

def asked (mode : Mode) (past : List Event) : Option Mode :=
  match (since past).findSome? Event.requested? with
  | some requested => some requested
  | none =>
    if (mode = .help ∨ mode = .helpSearch) ∧ .submitted ∈ since past then some .normal else none

/-- The mode that a cycle shows, given the mode before it and what was asked for since. -/
def shown (mode : Mode) (asked : Option Mode) : Hint → Mode
  | .topLevel => asked.getD (if mode = .debug then .normal else mode)
  | .browser =>
    if asked = some .help then .help else if asked = some .helpSearch then .helpSearch else .debug
  | .other _ => mode

def modeAfter : List Event → Mode
  | [] => .normal
  | .begin hint :: past => shown (modeAfter past) (asked (modeAfter past) past) (Hint.classify hint)
  | _ :: past => modeAfter past

theorem since_of_commits {e : Event} (h : e.commits = true) (past : List Event) :
    since (e :: past) = [] := by
  simp [since, h]

theorem since_cons {e : Event} (h : e.commits = false) (past : List Event) :
    since (e :: past) = e :: since past := by
  simp [since, h]

theorem asked_of_commits (mode : Mode) {e : Event} (h : e.commits = true) (past : List Event) :
    asked mode (e :: past) = none := by
  simp [asked, since_of_commits h]

theorem asked_request (mode requested : Mode) (past : List Event) :
    asked mode (.request requested :: past) = some requested := by
  simp [asked, since_cons (e := .request requested) rfl, List.findSome?_cons, Event.requested?]

theorem asked_submitted (mode : Mode) (past : List Event) :
    asked mode (.submitted :: past) =
      (asked mode past).or (if mode = .help ∨ mode = .helpSearch then some .normal else none) := by
  simp only [asked, since_cons (e := .submitted) rfl, List.findSome?_cons, Event.requested?,
    List.mem_cons, true_or, and_true]
  cases (since past).findSome? Event.requested? with
  | some requested => rfl
  | none =>
    by_cases hm : mode = .help ∨ mode = .helpSearch
    · by_cases hs : Event.submitted ∈ since past <;> simp [hm, hs]
    · simp [hm]

theorem asked_begin_other (mode : Mode) {hint : String} (h : (Hint.classify hint).commits = false)
    (past : List Event) : asked mode (.begin hint :: past) = asked mode past := by
  simp [asked, since_cons (e := .begin hint) h, List.findSome?_cons, Event.requested?]

theorem beginCycle_spec (m : ModeMachine) (hint : String) :
    (m.beginCycle hint).1 = match Hint.classify hint with
      | .other text => m.current.subPrompt text
      | kind => (shown m.current m.pending kind).spec := by
  obtain ⟨current, pending⟩ := m
  unfold beginCycle
  cases Hint.classify hint with
  | topLevel => cases pending <;> rfl
  | browser => rcases pending with _ | (_ | _ | _ | _) <;> rfl
  | other text => rfl

theorem beginCycle_machine (m : ModeMachine) (hint : String) :
    (m.beginCycle hint).2 =
      if (Hint.classify hint).commits then ⟨shown m.current m.pending (Hint.classify hint), none⟩
      else m := by
  obtain ⟨current, pending⟩ := m
  unfold beginCycle
  cases Hint.classify hint with
  | topLevel => cases pending <;> rfl
  | browser => rcases pending with _ | (_ | _ | _ | _) <;> rfl
  | other text => rfl

theorem submitted_eq (m : ModeMachine) :
    m.submitted = ⟨m.current,
      m.pending.or (if m.current = .help ∨ m.current = .helpSearch then some .normal else none)⟩ := by
  obtain ⟨current, pending⟩ := m
  cases current <;> cases pending <;> rfl

theorem current_take (m : ModeMachine) {e : Event} (h : e.commits = false) :
    (m.take e).current = m.current := by
  cases e with
  | begin hint =>
    have hh : (Hint.classify hint).commits = false := h
    simp [take, beginCycle_machine, hh]
  | request mode => rfl
  | submitted => simp [take, submitted_eq]

theorem run_append (m : ModeMachine) (events : List Event) (e : Event) :
    m.run (events ++ [e]) = (m.run events).take e := by
  simp [run]

theorem run_reverse (past : List Event) :
    run {} past.reverse = ⟨modeAfter past, asked (modeAfter past) past⟩ := by
  -- The last event of a run is the first one of its past.
  induction past with
  | nil => rfl
  | cons e past ih =>
    rw [List.reverse_cons, run_append, ih]
    cases e with
    | begin hint =>
      simp only [take, beginCycle_machine, modeAfter]
      by_cases h : (Hint.classify hint).commits = true
      · rw [if_pos h, asked_of_commits _ (e := .begin hint) h]
      · have hf : (Hint.classify hint).commits = false := by simpa using h
        rw [if_neg h, asked_begin_other _ hf]
        cases hk : Hint.classify hint with
        | topLevel => simp [hk, Hint.commits] at hf
        | browser => simp [hk, Hint.commits] at hf
        | other text => rfl
    | request mode => simp only [take, request, modeAfter, asked_request]
    | submitted => simp only [take, submitted_eq, modeAfter, asked_submitted]

end ModeMachine

namespace Console

open ModeMachine (Event modeAfter asked shown)

theorem modes_follow_trace :
    (∀ (events : List Event) (hint : String),
      ((ModeMachine.run {} events).beginCycle hint).1 =
        match Hint.classify hint with
        | .other text => (modeAfter events.reverse).subPrompt text
        | kind => (shown (modeAfter events.reverse)
            (asked (modeAfter events.reverse) events.reverse) kind).spec) ∧
    (∀ (m : ModeMachine) (e : Event), e.commits = false → (m.take e).current = m.current) ∧
    (∀ (m : ModeMachine) (hint : String), (Hint.classify hint).commits = false →
      (m.beginCycle hint).2 = m) ∧
    (∀ (hint : String) (s : Keyed), ∃ new : List Act, (cycle hint s).2.1.acts = s.1.acts ++ new ∧
      ∀ a ∈ new, ∀ f, a.frame? = some f →
        f.prompt = (s.1.modes.beginCycle hint).1.text ∧
          f.color = (s.1.modes.beginCycle hint).1.style.color? s.1.ensureSettings.1.colorScheme) := by
  refine ⟨fun events hint => ?_, fun m e => ModeMachine.current_take m, fun m hint h => ?_,
    fun hint s => ?_⟩
  · have hr := ModeMachine.run_reverse events.reverse
    rw [List.reverse_reverse] at hr
    rw [hr]
    refine (ModeMachine.beginCycle_spec _ hint).trans ?_
    cases Hint.classify hint <;> rfl
  · rw [ModeMachine.beginCycle_machine, h]
    rfl
  · obtain ⟨new, he, hn⟩ := adds_cycle hint s
    exact ⟨new, he, fun a ha f hf => (hn a ha).dressed hf⟩

theorem modes_follow_trace_help :
    ((ModeMachine.run {} [.request .help, .begin "> ", .submitted, .begin "name: "]).beginCycle
        "> ").1 = Mode.normal.spec ∧
      (ModeMachine.take ⟨.help, none⟩ .submitted).current = .help ∧
      (ModeMachine.beginCycle ⟨.help, some .debug⟩ "name: ").2 = ⟨.help, some .debug⟩ ∧
      ∃ new : List Act,
        (cycle "> " ({ engine := { events := [[.request .help]] } },
          [.idle 1, .key ⟨.char 'c', { ctrl := true }⟩])).2.1.acts = [] ++ new ∧
        ∀ a ∈ new, ∀ f, a.frame? = some f → f.prompt = "r$> " ∧ f.color = some .blue :=
  ⟨modes_follow_trace.1 _ _, modes_follow_trace.2.1 _ .submitted rfl,
    modes_follow_trace.2.2.1 _ _ (by decide), modes_follow_trace.2.2.2 _ _⟩

end Console

end RConsole
