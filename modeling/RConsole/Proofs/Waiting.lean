import Mathlib.Data.Nat.Find
import Mathlib.Data.Stream.Init
import Mathlib.Tactic.IntervalCases
import RConsole.Pump

namespace RConsole

variable {σ : Type}

/-- What a wait asks. Unlike those of a `Pump`, sources may stay `notReady` for ever. -/
structure Sources (σ : Type) where
  check : σ → Readiness × σ
  step : σ → Bool × σ

namespace Sources

/-- How a wait returns. Between two checks there is one step; no rule ends a wait whose checks
stay negative. -/
inductive WaitFrom (q : Sources σ) :
    WaitStats → σ → Except String WaitStats → σ → Prop
  | ready {stats : WaitStats} {s : σ} (h : (q.check s).1 = .ready) :
    WaitFrom q stats s (.ok { stats with checks := stats.checks + 1 }) (q.check s).2
  | failed {stats : WaitStats} {s : σ} {message : String} (h : (q.check s).1 = .failed message) :
    WaitFrom q stats s (.error message) (q.check s).2
  | notReady {stats : WaitStats} {s t : σ} {outcome : Except String WaitStats}
    (h : (q.check s).1 = .notReady)
    (rest : WaitFrom q
      ⟨stats.checks + 1, stats.steps + 1,
        stats.failures + if (q.step (q.check s).2).1 then 0 else 1⟩
      (q.step (q.check s).2).2 outcome t) :
    WaitFrom q stats s outcome t

def Wait (q : Sources σ) (s : σ) (outcome : Except String WaitStats) (t : σ) : Prop :=
  q.WaitFrom {} s outcome t

inductive Waits (q : Sources σ) : σ → List (Except String WaitStats) → σ → Prop
  | nil (s : σ) : Waits q s [] s
  | cons {s t u : σ} {outcome : Except String WaitStats} {outcomes : List (Except String WaitStats)}
    (first : q.Wait s outcome t) (rest : Waits q t outcomes u) : Waits q s (outcome :: outcomes) u

def after (q : Sources σ) : Nat → σ → σ
  | 0, s => s
  | n + 1, s => q.after n (q.step (q.check s).2).2

variable (q : Sources σ)

def answer (s : σ) (n : Nat) : Readiness := (q.check (q.after n s)).1

def completed (s : σ) (n : Nat) : Bool := (q.step (q.check (q.after n s)).2).1

variable {stats : WaitStats} {s t : σ} {outcome : Except String WaitStats}

theorem waitFrom_iff_of_ready (h : (q.check s).1 = .ready) :
    q.WaitFrom stats s outcome t ↔
      outcome = .ok { stats with checks := stats.checks + 1 } ∧ t = (q.check s).2 := by
  constructor
  · intro hw
    cases hw with
    | ready _ => exact ⟨rfl, rfl⟩
    | failed hf => rw [h] at hf; cases hf
    | notReady hn _ => rw [h] at hn; cases hn
  · rintro ⟨rfl, rfl⟩
    exact .ready h

theorem waitFrom_iff_of_failed {message : String} (h : (q.check s).1 = .failed message) :
    q.WaitFrom stats s outcome t ↔ outcome = .error message ∧ t = (q.check s).2 := by
  constructor
  · intro hw
    cases hw with
    | ready hr => rw [h] at hr; cases hr
    | failed hf => rw [h] at hf; cases hf; exact ⟨rfl, rfl⟩
    | notReady hn _ => rw [h] at hn; cases hn
  · rintro ⟨rfl, rfl⟩
    exact .failed h

theorem waitFrom_iff_of_notReady (h : (q.check s).1 = .notReady) :
    q.WaitFrom stats s outcome t ↔
      q.WaitFrom ⟨stats.checks + 1, stats.steps + 1,
          stats.failures + if (q.step (q.check s).2).1 then 0 else 1⟩
        (q.step (q.check s).2).2 outcome t := by
  constructor
  · intro hw
    cases hw with
    | ready hr => rw [h] at hr; cases hr
    | failed hf => rw [h] at hf; cases hf
    | notReady _ rest => exact rest
  · exact .notReady h

theorem countP_range_succ (p : Nat → Bool) (k : Nat) :
    (List.range (k + 1)).countP p = (if p 0 then 1 else 0) + (List.range k).countP (p ∘ Nat.succ) := by
  rw [List.range_succ_eq_map, List.countP_cons, List.countP_map, Nat.add_comm]

theorem waitFrom_iff_after (stats : WaitStats) (s : σ) (k : Nat)
    (h : ∀ i < k, q.answer s i = .notReady) :
    q.WaitFrom stats s outcome t ↔
      q.WaitFrom ⟨stats.checks + k, stats.steps + k,
        stats.failures + (List.range k).countP fun i => !q.completed s i⟩ (q.after k s)
        outcome t := by
  -- The counts grow from the first check on, so the state and the counts vary.
  induction k generalizing stats s with
  | zero => rfl
  | succ k ih =>
    have hn : (q.check s).1 = .notReady := h 0 k.succ_pos
    have hrest : ∀ i < k, q.answer (q.step (q.check s).2).2 i = .notReady :=
      fun i hi => h (i + 1) (by omega)
    rw [q.waitFrom_iff_of_notReady hn, ih _ _ hrest]
    have hc : (fun i => !q.completed s i) ∘ Nat.succ =
        fun i => !q.completed (q.step (q.check s).2).2 i := rfl
    have h0 : (q.step (q.check s).2).1 = q.completed s 0 := rfl
    rw [countP_range_succ, hc, h0]
    cases q.completed s 0 <;> simp [after, Nat.add_assoc, Nat.add_comm, Nat.add_left_comm]

theorem wait_iff (k : Nat) (h : ∀ i < k, q.answer s i = .notReady)
    (hk : q.answer s k ≠ .notReady) :
    q.Wait s outcome t ↔
      (outcome = match q.answer s k with
        | .failed message => .error message
        | _ => .ok ⟨k + 1, k, (List.range k).countP fun i => !q.completed s i⟩) ∧
      t = (q.check (q.after k s)).2 := by
  rw [Wait, q.waitFrom_iff_after {} s k h]
  rw [answer] at hk ⊢
  cases hc : (q.check (q.after k s)).1 with
  | ready => simp [q.waitFrom_iff_of_ready hc]
  | notReady => exact absurd hc hk
  | failed message => rw [q.waitFrom_iff_of_failed hc]

theorem answer_of_waitFrom {q : Sources σ} (h : q.WaitFrom stats s outcome t) :
    ∃ n, q.answer s n ≠ .notReady := by
  induction h with
  | ready h => exact ⟨0, by simp [answer, after, h]⟩
  | failed h => exact ⟨0, by simp [answer, after, h]⟩
  | notReady h rest ih =>
    obtain ⟨n, hn⟩ := ih
    exact ⟨n + 1, hn⟩

end Sources

namespace Pump

def sources (p : Pump σ) : Sources σ := ⟨p.check, p.step⟩

theorem waitFrom_sources (p : Pump σ) {stats : WaitStats} {s t : σ}
    {outcome : Except String WaitStats} :
    p.sources.WaitFrom stats s outcome t ↔ p.waitFrom stats s = (outcome, t) := by
  fun_induction waitFrom p stats s with
  | case1 stats s h =>
    rw [p.sources.waitFrom_iff_of_ready h, Prod.mk.injEq, eq_comm, @eq_comm _ t]
    rfl
  | case2 stats s message h =>
    rw [p.sources.waitFrom_iff_of_failed h, Prod.mk.injEq, eq_comm, @eq_comm _ t]
    rfl
  | case3 stats s h ih => exact (p.sources.waitFrom_iff_of_notReady h).trans ih

end Pump

namespace Script

variable {answers : List Readiness} {results : List Bool} {checks steps : Nat}

theorem waitFrom_notReady (stats : WaitStats) :
    pump.waitFrom stats ⟨.notReady :: answers, results, checks, steps⟩ =
      pump.waitFrom
        ⟨stats.checks + 1, stats.steps + 1,
          stats.failures + if results.headD true then 0 else 1⟩
        ⟨answers, results.tail, checks + 1, steps + 1⟩ := by
  rw [pump.waitFrom_of_notReady stats rfl]
  cases results <;> rfl

/-- A wait goes on through the negative answers at the front, with one result taken for each. -/
theorem waitFrom_eq (stats : WaitStats) (s : Script) :
    let k := (s.answers.takeWhile (· = .notReady)).length
    pump.waitFrom stats s =
      (match s.answers.drop k with
        | .failed message :: _ => .error message
        | _ => .ok ⟨stats.checks + (k + 1), stats.steps + k,
            stats.failures + (s.results.take k).count false⟩,
        ⟨s.answers.drop (k + 1), s.results.drop k, s.checks + (k + 1), s.steps + k⟩) := by
  obtain ⟨answers, results, checks, steps⟩ := s
  -- Each negative answer moves the counts, those of the wait and those of the script, by one.
  induction answers generalizing stats results checks steps with
  | nil => exact pump.waitFrom_of_ready stats rfl
  | cons a answers ih =>
    cases a with
    | ready => exact pump.waitFrom_of_ready stats rfl
    | failed message => exact pump.waitFrom_of_failed stats rfl
    | notReady =>
      rw [waitFrom_notReady, ih, List.takeWhile_cons_of_pos rfl, List.length_cons]
      generalize (answers.takeWhile (· = .notReady)).length = k
      have hcount : (if results.headD true then 0 else 1) + (results.tail.take k).count false =
          (results.take (k + 1)).count false := by
        rcases results with _ | ⟨_ | _, results⟩ <;> simp [Nat.add_comm]
      simp only [List.drop_succ_cons, List.drop_tail, ← hcount, Nat.add_assoc, Nat.add_comm 1]

end Script

inductive Asked where
  | check (answer : Readiness)
  | step (completed : Bool)
  deriving DecidableEq

namespace Asked

def answer? : Asked → Option Readiness
  | check answer => some answer
  | step _ => none

def completed? : Asked → Option Bool
  | check _ => none
  | step completed => some completed

end Asked

structure Feed where
  answers : Stream' Readiness
  results : Stream' Bool
  calls : List Asked := []

namespace Feed

def sources : Sources Feed where
  check f := (f.answers.head,
    { f with answers := f.answers.tail, calls := f.calls ++ [.check f.answers.head] })
  step f := (f.results.head,
    { f with results := f.results.tail, calls := f.calls ++ [.step f.results.head] })

def First (answers : Stream' Readiness) (k : Nat) : Prop :=
  (∀ i < k, answers.get i = .notReady) ∧ answers.get k ≠ .notReady

theorem exists_first {answers : Stream' Readiness} (h : ∃ n, answers.get n ≠ .notReady) :
    ∃ k, First answers k := by
  classical
  refine ⟨Nat.find h, fun i hi => ?_, Nat.find_spec h⟩
  exact not_not.mp (Nat.find_min h hi)

variable (f : Feed)

def turns (k : Nat) : List Asked :=
  (List.range k).flatMap fun i => [.check (f.answers.get i), .step (f.results.get i)]

def outcome (k : Nat) : Except String WaitStats :=
  match f.answers.get k with
  | .failed message => .error message
  | _ => .ok ⟨k + 1, k, (List.range k).countP fun i => !f.results.get i⟩

def passed (k : Nat) : Feed :=
  ⟨f.answers.drop (k + 1), f.results.drop k, f.calls ++ (f.turns k ++ [.check (f.answers.get k)])⟩

theorem turns_succ (k : Nat) :
    f.turns (k + 1) = .check f.answers.head :: .step f.results.head ::
      turns ⟨f.answers.tail, f.results.tail, f.calls⟩ k := by
  simp only [turns, List.range_succ_eq_map, List.flatMap_cons, List.flatMap_map]
  rfl

theorem after_sources (k : Nat) :
    sources.after k f = ⟨f.answers.drop k, f.results.drop k, f.calls ++ f.turns k⟩ := by
  induction k generalizing f with
  | zero => simp [Sources.after, turns, Stream'.drop_zero]
  | succ k ih =>
    rw [Sources.after, ih, turns_succ]
    simp [sources, turns]

theorem answer_sources (k : Nat) : sources.answer f k = f.answers.get k := by
  rw [Sources.answer, after_sources]
  simp [sources]

theorem completed_sources (k : Nat) : sources.completed f k = f.results.get k := by
  rw [Sources.completed, after_sources]
  simp [sources]

theorem wait_iff {k : Nat} (h : First f.answers k) {outcome : Except String WaitStats} {g : Feed} :
    sources.Wait f outcome g ↔ outcome = f.outcome k ∧ g = f.passed k := by
  have hn : ∀ i < k, sources.answer f i = .notReady := fun i hi => by
    rw [answer_sources]
    exact h.1 i hi
  rw [sources.wait_iff k hn (by rw [answer_sources]; exact h.2)]
  simp only [answer_sources, completed_sources, after_sources]
  simp [sources, Feed.outcome, passed]

theorem returns_iff :
    (∃ outcome g, sources.Wait f outcome g) ↔ ∃ n, f.answers.get n ≠ .notReady := by
  constructor
  · rintro ⟨outcome, g, h⟩
    obtain ⟨n, hn⟩ := Sources.answer_of_waitFrom h
    exact ⟨n, by rwa [answer_sources] at hn⟩
  · intro h
    obtain ⟨k, hk⟩ := exists_first h
    exact ⟨_, _, (f.wait_iff hk).mpr ⟨rfl, rfl⟩⟩

def Firsts (f : Feed) : List Nat → Prop
  | [] => True
  | k :: ks => First f.answers k ∧ (f.passed k).Firsts ks

def outcomes (f : Feed) : List Nat → List (Except String WaitStats)
  | [] => []
  | k :: ks => f.outcome k :: (f.passed k).outcomes ks

theorem waits_iff {ks : List Nat} (h : f.Firsts ks) {rs : List (Except String WaitStats)}
    (hl : rs.length = ks.length) {g : Feed} :
    sources.Waits f rs g ↔ rs = f.outcomes ks ∧ g = ks.foldl passed f := by
  induction ks generalizing f rs with
  | nil =>
    obtain rfl := List.eq_nil_of_length_eq_zero hl
    constructor
    · rintro ⟨⟩
      exact ⟨rfl, rfl⟩
    · rintro ⟨-, rfl⟩
      exact .nil g
  | cons k ks ih =>
    obtain ⟨hk, hks⟩ := h
    constructor
    · intro hw
      cases hw with
      | nil => cases hl
      | cons first rest =>
        obtain ⟨rfl, rfl⟩ := (f.wait_iff hk).mp first
        obtain ⟨rfl, rfl⟩ := (ih _ hks (Nat.succ.inj hl)).mp rest
        exact ⟨rfl, rfl⟩
    · rintro ⟨rfl, rfl⟩
      exact .cons ((f.wait_iff hk).mpr ⟨rfl, rfl⟩) ((ih _ hks (Nat.succ.inj hl)).mpr ⟨rfl, rfl⟩)

theorem take_add {α : Type} (m n : Nat) (s : Stream' α) :
    s.take (m + n) = s.take m ++ (s.drop m).take n := by
  induction m generalizing s with
  | zero => simp [Stream'.drop_zero]
  | succ m ih => rw [Nat.succ_add, Stream'.take_succ, ih, Stream'.take_succ]; simp

theorem turns_answers (k : Nat) : (f.turns k).filterMap Asked.answer? = f.answers.take k := by
  induction k generalizing f with
  | zero => rfl
  | succ k ih =>
    rw [turns_succ, Stream'.take_succ, ← ih ⟨f.answers.tail, f.results.tail, f.calls⟩]
    rfl

theorem turns_results (k : Nat) : (f.turns k).filterMap Asked.completed? = f.results.take k := by
  induction k generalizing f with
  | zero => rfl
  | succ k ih =>
    rw [turns_succ, Stream'.take_succ, ← ih ⟨f.answers.tail, f.results.tail, f.calls⟩]
    rfl

/-- `g` comes from `f` by so many checks and so many steps, with nothing left out and nothing
asked twice. -/
structure Continues (f g : Feed) (checks steps : Nat) : Prop where
  answers : g.answers = f.answers.drop checks
  results : g.results = f.results.drop steps
  checked : g.calls.filterMap Asked.answer? = f.calls.filterMap Asked.answer? ++ f.answers.take checks
  stepped : g.calls.filterMap Asked.completed? =
    f.calls.filterMap Asked.completed? ++ f.results.take steps

theorem Continues.trans {f g h : Feed} {m n m' n' : Nat} (hg : f.Continues g m n)
    (hh : g.Continues h m' n') : f.Continues h (m + m') (n + n') := by
  constructor
  · rw [hh.answers, hg.answers, Stream'.drop_drop]
  · rw [hh.results, hg.results, Stream'.drop_drop]
  · rw [hh.checked, hg.checked, hg.answers, List.append_assoc, take_add]
  · rw [hh.stepped, hg.stepped, hg.results, List.append_assoc, take_add]

theorem continues_passed (k : Nat) : f.Continues (f.passed k) (k + 1) k := by
  refine ⟨rfl, rfl, ?_, ?_⟩
  · rw [passed, List.filterMap_append, List.filterMap_append, turns_answers,
      ← Stream'.concat_take_get]
    rfl
  · rw [passed, List.filterMap_append, List.filterMap_append, turns_results]
    exact congrArg _ (List.append_nil _)

theorem continues_foldl (ks : List Nat) :
    f.Continues (ks.foldl passed f) (ks.sum + ks.length) ks.sum := by
  induction ks generalizing f with
  | nil => exact ⟨rfl, rfl, (List.append_nil _).symm, (List.append_nil _).symm⟩
  | cons k ks ih =>
    have h := (f.continues_passed k).trans (ih (f.passed k))
    have hn : k + 1 + (ks.sum + ks.length) = (k :: ks).sum + (k :: ks).length := by
      rw [List.sum_cons, List.length_cons]
      omega
    rw [← hn, List.sum_cons]
    exact h

end Feed

/-- A wait checks, and steps once after each negative check, until a check is not negative; the
next wait goes on with the answer and the result that follow. -/
theorem Sources.wait_alternates :
    (∀ {σ : Type} (p : Pump σ) (s t : σ) (outcome : Except String WaitStats),
      p.sources.Wait s outcome t ↔ p.wait s = (outcome, t)) ∧
    (∀ f : Feed, (∃ outcome g, Feed.sources.Wait f outcome g) ↔
      ∃ n, f.answers.get n ≠ .notReady) ∧
    (∀ (f : Feed) (k : Nat), Feed.First f.answers k →
      ∃ g, g.calls = f.calls ++ (f.turns k ++ [.check (f.answers.get k)]) ∧
        (f.answers.get k = .ready → ∀ outcome g', Feed.sources.Wait f outcome g' ↔
          outcome = .ok ⟨k + 1, k, (List.range k).countP fun i => !f.results.get i⟩ ∧ g' = g) ∧
        ∀ message, f.answers.get k = .failed message → ∀ outcome g',
          Feed.sources.Wait f outcome g' ↔ outcome = .error message ∧ g' = g) ∧
    ∀ (f : Feed) (ks : List Nat), f.Firsts ks →
      ∃ g, f.Continues g (ks.sum + ks.length) ks.sum ∧
        ∀ outcomes g', outcomes.length = ks.length →
          (Feed.sources.Waits f outcomes g' ↔ outcomes = f.outcomes ks ∧ g' = g) := by
  refine ⟨fun p _ _ _ => p.waitFrom_sources, fun f => f.returns_iff, ?_, ?_⟩
  · intro f k hk
    refine ⟨f.passed k, rfl, fun hr outcome g => ?_, fun message hm outcome g => ?_⟩
    · rw [f.wait_iff hk, Feed.outcome, hr]
    · rw [f.wait_iff hk, Feed.outcome, hm]
  · intro f ks h
    exact ⟨ks.foldl Feed.passed f, f.continues_foldl ks, fun _ _ hl => f.waits_iff h hl⟩

def Feed.patchy : Feed where
  answers := Stream'.appendStream' [.notReady, .notReady, .ready, .notReady, .failed "EIO"]
    (Stream'.const .notReady)
  results := Stream'.appendStream' [true, false, false] (Stream'.const true)

theorem Feed.firsts_patchy : Feed.patchy.Firsts [2, 1] := by
  refine ⟨⟨?_, by decide⟩, ⟨?_, by decide⟩, trivial⟩
  · intro i hi
    interval_cases i <;> rfl
  · intro i hi
    interval_cases i
    rfl

theorem Sources.wait_alternates_patchy :
    (∃ g, Feed.sources.Wait Feed.patchy (.ok ⟨3, 2, 1⟩) g ∧
      g.calls = [.check .notReady, .step true, .check .notReady, .step false, .check .ready]) ∧
    ∃ g, Feed.sources.Waits Feed.patchy [.ok ⟨3, 2, 1⟩, .error "EIO"] g ∧
      g.calls.filterMap Asked.answer? =
        [.notReady, .notReady, .ready, .notReady, .failed "EIO"] ∧
      g.calls.filterMap Asked.completed? = [true, false, false] := by
  obtain ⟨-, -, hone, hmany⟩ := Sources.wait_alternates
  constructor
  · obtain ⟨g, hg, hr, -⟩ := hone Feed.patchy 2 Feed.firsts_patchy.1
    exact ⟨g, (hr rfl _ g).mpr ⟨rfl, rfl⟩, hg⟩
  · obtain ⟨g, hc, hg⟩ := hmany Feed.patchy [2, 1] Feed.firsts_patchy
    exact ⟨g, (hg _ g rfl).mpr ⟨rfl, rfl⟩, hc.checked, hc.stepped⟩

end RConsole
