import RConsole.Proofs.Console.Turns

/-!
The prompt cycles that a read goes through. All but the last one are passed over, and the last one
says what the read gets.
-/
namespace RConsole

namespace Cycles

variable {σ : Type} (p : Cycles σ) {hint : String} {s : σ}

theorem line_of_line {text : String} (h : (p.cycle hint s).1 = .line text) :
    p.line hint s = (some text, (p.cycle hint s).2) := by
  rw [line]
  split <;> simp_all

theorem line_of_end (h : (p.cycle hint s).1 = .endOfInput) :
    p.line hint s = (none, (p.cycle hint s).2) := by
  rw [line]
  split <;> simp_all

theorem line_of_again (h : (p.cycle hint s).1.isAgain = true) :
    p.line hint s = p.line hint (p.cycle hint s).2 := by
  rw [line]
  split <;> simp_all [CycleResult.isAgain]

end Cycles

namespace CycleScript

variable {hint : String} {r : CycleResult} {results : List CycleResult} {hints : List String}

theorem line_again (h : r.isAgain = true) :
    cycles.line hint ⟨r :: results, hints⟩ = cycles.line hint ⟨results, hints ++ [hint]⟩ :=
  cycles.line_of_again (s := ⟨r :: results, hints⟩) h

theorem line_eq (hint : String) (s : CycleScript) :
    let k := (s.results.takeWhile CycleResult.isAgain).length
    cycles.line hint s =
      (match s.results.drop k with
        | .line text :: _ => some text
        | _ => none,
        ⟨s.results.drop (k + 1), s.hints ++ List.replicate (k + 1) hint⟩) := by
  obtain ⟨results, hints⟩ := s
  induction results generalizing hints with
  | nil => exact cycles.line_of_end rfl
  | cons r results ih =>
    cases r with
    | line text => exact cycles.line_of_line rfl
    | endOfInput => exact cycles.line_of_end rfl
    | interrupted =>
      rw [line_again rfl, ih, List.takeWhile_cons_of_pos rfl, List.append_assoc]
      rfl
    | restart =>
      rw [line_again rfl, ih, List.takeWhile_cons_of_pos rfl, List.append_assoc]
      rfl

end CycleScript

namespace Console

structure Round where
  hint : String
  start : Keyed

namespace Round

def spec (r : Round) : Spec := (r.start.1.modes.beginCycle r.hint).1

def dressing (r : Round) : Dressing := r.start.1.dressing r.hint

def editor (r : Round) : Editor := r.start.1.editor r.hint

def result (r : Round) : CycleResult := (cycle r.hint r.start).1

def finish (r : Round) : Keyed := (cycle r.hint r.start).2

def line? (r : Round) : Option String :=
  match r.result with
  | .line text => some text
  | _ => none

def edited (r : Round) : Except TerminalError Outcome × Keyed :=
  readLine r.dressing r.editor (r.start.1.begun r.hint, r.start.2)

theorem finish_eq (r : Round) :
    r.finish = ((r.edited.2.1.drain.settle r.spec r.edited.1).2, r.edited.2.2) := by
  unfold finish
  rw [cycle_eq]
  rfl

theorem finish_rest (r : Round) :
    ∃ modes history files, r.finish.1 =
      { r.edited.2.1.drain with modes := modes, history := history, files := files } := by
  rw [r.finish_eq]
  exact settle_rest _ _ _

theorem result_eq (r : Round) :
    r.result = match r.edited.1 with
      | .ok (.submitted text) => .line text
      | .ok .interrupted => .interrupted
      | .ok .endOfInput => .endOfInput
      | .ok (.modeKey _) => .restart
      | .error _ => .endOfInput := by
  unfold result
  rw [cycle_eq]
  change (r.edited.2.1.drain.settle r.spec r.edited.1).1 = _
  generalize r.edited.1 = ended
  rcases ended with error | (text | _ | _ | target) <;> rfl

theorem line_edited {r : Round} {text : String} (h : r.line? = some text) :
    r.edited.1 = .ok (.submitted text) := by
  have hr := r.result_eq
  unfold line? at h
  rcases he : r.edited.1 with error | (text' | _ | _ | target) <;> rw [he] at hr <;>
    simp only [hr] at h <;> cases h
  rfl

theorem edited_again {r : Round} (h : r.result.isAgain = true) :
    ∃ outcome, r.edited.1 = .ok outcome := by
  have hr := r.result_eq
  rcases he : r.edited.1 with error | outcome
  · rw [he] at hr
    rw [hr] at h
    cases h
  · exact ⟨outcome, rfl⟩

end Round

/-- The cycles of a read, up to the first one that is not to be run again. -/
def rounds (hint : String) (s : Keyed) : List Round :=
  if _h : (cycle hint s).1.isAgain = true then ⟨hint, s⟩ :: rounds hint (cycle hint s).2
  else [⟨hint, s⟩]
termination_by Input.weight s.2
decreasing_by exact weight_cycle_lt _h

theorem rounds_end (hint : String) (s : Keyed) :
    ∃ passed last, rounds hint s = passed ++ [last] ∧ (∀ r ∈ passed, r.result.isAgain = true) ∧
      last.result.isAgain = false ∧ cycles.line hint s = (last.line?, last.finish) := by
  fun_induction rounds hint s with
  | case1 s h ih =>
    obtain ⟨passed, last, hr, hp, hl, he⟩ := ih
    refine ⟨⟨hint, s⟩ :: passed, last, by rw [hr, List.cons_append], ?_, hl, ?_⟩
    · intro r hm
      rcases List.mem_cons.mp hm with rfl | hm
      · exact h
      · exact hp r hm
    · rw [cycles.line_of_again h]
      exact he
  | case2 s h =>
    refine ⟨[], ⟨hint, s⟩, rfl, by simp, Bool.eq_false_iff.mpr h, ?_⟩
    cases hc : (cycle hint s).1 with
    | line text =>
      rw [cycles.line_of_line hc]
      simp only [Round.line?, Round.result, hc]
      rfl
    | endOfInput =>
      rw [cycles.line_of_end hc]
      simp only [Round.line?, Round.result, hc]
      rfl
    | interrupted => rw [hc] at h; exact absurd rfl h
    | restart => rw [hc] at h; exact absurd rfl h

def Round.next (r : Round) : Round := ⟨r.hint, r.finish⟩

theorem rounds_again {r : Round} (h : r.result.isAgain = true) :
    rounds r.hint r.start = r :: rounds r.next.hint r.next.start := by
  have hc : (cycle r.hint r.start).1.isAgain = true := h
  rw [rounds, dif_pos hc]
  rfl

theorem rounds_last {r : Round} (h : r.result.isAgain = false) : rounds r.hint r.start = [r] := by
  have hc : ¬ (cycle r.hint r.start).1.isAgain = true := Bool.eq_false_iff.mp h
  rw [rounds, dif_neg hc]

theorem rounds_head (r : Round) : ∃ later, rounds r.hint r.start = r :: later := by
  cases h : r.result.isAgain with
  | true => exact ⟨_, rounds_again h⟩
  | false => exact ⟨[], rounds_last h⟩

theorem rounds_next {hint : String} {s : Keyed} {before later : List Round} {r : Round}
    (h : rounds hint s = before ++ r :: later) (ha : r.result.isAgain = true) :
    ∃ later', later = r.next :: later' := by
  fun_induction rounds hint s generalizing before with
  | case1 s hagain ih =>
    cases before with
    | nil =>
      obtain ⟨rfl, rfl⟩ := List.cons.inj h
      exact rounds_head (Round.next ⟨hint, s⟩)
    | cons b before => exact ih (List.cons.inj h).2
  | case2 s hagain =>
    cases before with
    | nil =>
      obtain ⟨rfl, rfl⟩ := List.cons.inj h
      exact absurd ha hagain
    | cons b before => simp at h

theorem rounds_start {Q : Keyed → Prop} {hint : String} {s : Keyed}
    (keep : ∀ s, Q s → Q (cycle hint s).2) (h : Q s) : ∀ r ∈ rounds hint s, Q r.start := by
  fun_induction rounds hint s with
  | case1 s hagain ih =>
    intro r hr
    rcases List.mem_cons.mp hr with rfl | hr
    · exact h
    · exact ih (keep s h) r hr
  | case2 s hagain =>
    intro r hr
    cases List.mem_singleton.mp hr
    exact h

theorem line_of_last {hint : String} {s : Keyed} (h : ¬(cycle hint s).1.isAgain = true) :
    (cycles.line hint s).2 = (cycle hint s).2 := by
  obtain ⟨passed, last, hr, -, -, hl⟩ := rounds_end hint s
  rw [rounds, dif_neg h] at hr
  cases passed with
  | nil => cases hr; exact congrArg Prod.snd hl
  | cons r passed => simp at hr

theorem line_rel {R : Keyed → Keyed → Prop} (trans : ∀ {s t u}, R s t → R t u → R s u)
    (cycle : ∀ hint s, R s (cycle hint s).2) (hint : String) (s : Keyed) :
    R s (cycles.line hint s).2 := by
  fun_induction Cycles.line cycles hint s with
  | case1 s text hc => exact cycle hint s
  | case2 s hc => exact cycle hint s
  | case3 s hc ih => exact trans (cycle hint s) ih
  | case4 s hc ih => exact trans (cycle hint s) ih

end Console

namespace Turn

open Console

def rounds : Turn → Keyed → List Round
  | read hint size, s =>
    if s.1.admits size then Console.rounds (cString hint) ((s.1.hold true).lead, s.2) else []
  | _, _ => []

theorem rounds_read {hint : Utf8.Bytes} {size : Int} {s : Keyed} {r : Round}
    (ha : s.1.admits size = true) (hh : cString hint = r.hint)
    (hs : ((s.1.hold true).lead, s.2) = r.start) :
    (read hint size).rounds s = Console.rounds r.hint r.start := by
  rw [← hh, ← hs]
  exact if_pos ha

def roundsAll : List Turn → Keyed → List Round
  | [], _ => []
  | t :: turns, s => t.rounds s ++ roundsAll turns (t.run s).2

theorem read_rounds (hint : Utf8.Bytes) (size : Int) (s : Keyed) :
    (Console.read hint size s).1 =
      .ofLine? size.toNat (((read hint size).rounds s).getLast?.bind Round.line?) := by
  rw [read_eq]
  by_cases ha : s.1.admits size = true
  · obtain ⟨passed, last, hr, -, -, hl⟩ :=
      rounds_end (cString hint) ((s.1.hold true).lead, s.2)
    simp only [rounds, if_pos ha, hr, hl, List.getLast?_concat, Option.bind_some]
  · simp only [rounds, if_neg ha]
    rfl

theorem run_respects {R : Keyed → Keyed → Prop} (h : ∀ d, RespectedByKeys (Act.Amid d) R)
    (hl : RespectedByLoads R)
    (settle : ∀ spec result c keys, R (c, keys) ((settle spec result c).2, keys)) (t : Turn)
    (s : Keyed) : R s (t.run s).2 := by
  have hany := h (s.1.dressing "")
  have hw : ∀ chunk, Act.Amid (s.1.dressing "") (.wrote chunk) := fun _ => ⟨.bare rfl, rfl⟩
  cases t with
  | read hint size =>
    simp only [run]
    rw [read_eq]
    split
    · have hh := hany.trans (hl.desk _ s.1 s.2) (hany.lead hl.toRespectedByLoading hw (s.1.hold true) s.2)
      have hline := line_rel (R := R) hany.trans
        (fun hint s => cycle_respects hint s (h _) hl settle)
        (cString hint) ((s.1.hold true).lead, s.2)
      exact hany.trans (hany.trans hh hline) (hl.desk _ _ _)
    · exact hany.refl s
  | write bytes code => exact hany.write hl hw bytes code s.1 s.2
  | message bytes => exact hany.message hl hw bytes s.1 s.2
  | request mode => exact hl.modes _ s.1 s.2

end Turn

end RConsole
