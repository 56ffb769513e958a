/-!
Waiting for input: between two readiness checks R gets one event step. A failed step does not end
the wait; a failed check does.
-/
namespace RConsole

inductive Readiness where
  | ready
  | notReady
  | failed (message : String)
  deriving DecidableEq, Repr

structure WaitStats where
  checks : Nat := 0
  steps : Nat := 0
  failures : Nat := 0
  deriving DecidableEq, Repr

structure Pump (σ : Type) where
  check : σ → Readiness × σ
  step : σ → Bool × σ
  budget : σ → Nat
  budget_check_le : ∀ s, budget (check s).2 ≤ budget s
  budget_step_lt : ∀ s, (check s).1 = .notReady → budget (step (check s).2).2 < budget s

namespace Pump

variable {σ : Type}

def waitFrom (p : Pump σ) (stats : WaitStats) (s : σ) : Except String WaitStats × σ :=
  match h : (p.check s).1 with
  | .ready => (.ok { stats with checks := stats.checks + 1 }, (p.check s).2)
  | .failed message => (.error message, (p.check s).2)
  | .notReady =>
    p.waitFrom
      ⟨stats.checks + 1, stats.steps + 1,
        stats.failures + if (p.step (p.check s).2).1 then 0 else 1⟩
      (p.step (p.check s).2).2
termination_by p.budget s
decreasing_by exact p.budget_step_lt s h

def wait (p : Pump σ) (s : σ) : Except String WaitStats × σ := p.waitFrom {} s

section Equations

variable (p : Pump σ) (stats : WaitStats) {s : σ}

theorem waitFrom_of_ready (h : (p.check s).1 = .ready) :
    p.waitFrom stats s = (.ok { stats with checks := stats.checks + 1 }, (p.check s).2) := by
  rw [waitFrom.eq_def]
  split <;> simp_all

theorem waitFrom_of_failed {message : String} (h : (p.check s).1 = .failed message) :
    p.waitFrom stats s = (.error message, (p.check s).2) := by
  rw [waitFrom.eq_def]
  split <;> simp_all

theorem waitFrom_of_notReady (h : (p.check s).1 = .notReady) :
    p.waitFrom stats s = p.waitFrom
      ⟨stats.checks + 1, stats.steps + 1, stats.failures + if (p.step (p.check s).2).1 then 0 else 1⟩
      (p.step (p.check s).2).2 := by
  rw [waitFrom.eq_def]
  split <;> simp_all

end Equations

theorem budget_waitFrom_le (p : Pump σ) (stats : WaitStats) (s : σ) :
    p.budget (p.waitFrom stats s).2 ≤ p.budget s := by
  fun_induction waitFrom p stats s with
  | case1 stats s h => exact p.budget_check_le s
  | case2 stats s message h => exact p.budget_check_le s
  | case3 stats s h ih => exact Nat.le_trans ih (Nat.le_of_lt (p.budget_step_lt s h))

theorem budget_wait_le (p : Pump σ) (s : σ) : p.budget (p.wait s).2 ≤ p.budget s :=
  p.budget_waitFrom_le {} s

end Pump

structure Script where
  answers : List Readiness
  results : List Bool
  checks : Nat := 0
  steps : Nat := 0
  deriving DecidableEq, Repr

namespace Script

def check (s : Script) : Readiness × Script :=
  match s.answers with
  | [] => (.ready, { s with checks := s.checks + 1 })
  | a :: rest => (a, { s with answers := rest, checks := s.checks + 1 })

def step (s : Script) : Bool × Script :=
  match s.results with
  | [] => (true, { s with steps := s.steps + 1 })
  | r :: rest => (r, { s with results := rest, steps := s.steps + 1 })

theorem answers_step (s : Script) : s.step.2.answers = s.answers := by
  unfold step
  split <;> rfl

def pump : Pump Script where
  check := check
  step := step
  budget s := s.answers.length
  budget_check_le s := by
    unfold check
    split <;> simp [*]
  budget_step_lt s h := by
    rw [answers_step]
    unfold check at h ⊢
    split <;> simp_all

end Script

def defaultInterval : Nat := 1000000000 / 30

end RConsole
