import RConsole.Engine.Start

/-!
Starts of R in one process. Any number of them may be under way, each on a thread of its own, and the
threads take their steps in any order, while files and libraries change as they like.
-/
namespace RConsole

theorem Platform.requireLoading_error {p : Platform} {e : RuntimeError}
    (h : p.requireLoading = .error e) : e = .unsupported p := by
  unfold requireLoading at h
  split at h
  · cases h
  · cases h
    rfl

theorem Library.resolve_error {l : Library} {e : InitError} (h : l.resolve = .error e) :
    ∃ name, e = .missingSymbol name := by
  unfold resolve at h
  split at h
  · cases h
    exact ⟨_, rfl⟩
  · cases h

def Shared.calls (s : Shared) : Nat := s.notes.count .mainProgram

namespace Attempt

theorem checkArguments_error {arguments : List String} {e : InitError}
    (h : checkArguments arguments = .error e) : ∃ text, e = .invalidArgument text := by
  unfold checkArguments at h
  split at h
  · cases h
    exact ⟨_, rfl⟩
  · cases h

theorem calls_greeting (arguments : List String) (environment : Environment) (notes : List Note) :
    (notes ++ greeting arguments environment).count .mainProgram = notes.count .mainProgram + 1 := by
  have ha : (arguments.map Note.argument).count .mainProgram = 0 := by
    apply List.count_eq_zero.mpr
    simp
  simp [greeting, ha]

def called : Attempt → Bool
  | done (.ok _) => true
  | done (.error (.init (.initFailed _))) => true
  | _ => false

def reaches : Attempt → Bool
  | .claimed _ _ => true
  | a => a.called

def passes : Attempt → Bool
  | fresh _ => false
  | done result => (done result).called
  | _ => true

theorem passes_of_reaches {a : Attempt} (h : a.reaches = true) : a.passes = true := by
  cases a with
  | fresh o => cases h
  | done result => exact h
  | _ => rfl

structure Leads (h : Host) (a : Attempt) (s : Shared) (r : Attempt × Shared) : Prop where
  spends : r.1.reaches.toNat + s.claimed.toNat = a.reaches.toNat + r.2.claimed.toNat
  calls : r.2.calls + a.called.toNat = s.calls + r.1.called.toNat
  more : s.calls ≤ r.2.calls
  claimed : s.claimed = true → r.2.claimed = true
  left : r.1.left ≤ a.left - 1
  passes : r.1.passes = true → a.passes = true ∨ h.platform.requireLoading = .ok ()

variable {h : Host} {a a' : Attempt} {s : Shared} {e : RuntimeError}

theorem fail_leads (ha : a.reaches = false) (he : (done (.error e)).called = false) :
    Leads h a s (fail e s) := by
  have hc : a.called = false := by
    cases a with
    | claimed arguments library => rfl
    | _ => exact ha
  constructor
  · change (done (.error e)).called.toNat + _ = _
    rw [he, ha]
    rfl
  · change _ + _ = _ + (done (.error e)).called.toNat
    rw [he, hc]
    rfl
  · exact Nat.le_refl _
  · exact id
  · exact Nat.zero_le _
  · intro hp
    exact absurd (he.symm.trans hp) (by simp)

theorem step_leads (h : Host) (a : Attempt) (s : Shared) : Leads h a s (a.step h s) := by
  have hon {a' : Attempt} (hr : a'.reaches = a.reaches) (hc : a'.called = a.called)
      (hl : a'.left ≤ a.left - 1) (hp : a.passes = true ∨ h.platform.requireLoading = .ok ()) :
      Leads h a s (a', s) := ⟨by rw [hr], by rw [hc], Nat.le_refl _, id, hl, fun _ => hp⟩
  cases a with
  | fresh o =>
    simp only [step]
    split
    · rename_i e he
      apply fail_leads rfl
      rw [Platform.requireLoading_error he]
      rfl
    · rename_i hp
      split
      · exact fail_leads rfl rfl
      · exact hon rfl rfl (Nat.le_refl _) (.inr hp)
  | located o found =>
    simp only [step]
    split
    · exact fail_leads rfl rfl
    · exact hon rfl rfl (Nat.le_refl _) (.inl rfl)
  | admitted o found => exact ⟨rfl, rfl, Nat.le_refl _, id, Nat.le_refl _, fun _ => .inl rfl⟩
  | exported o found =>
    simp only [step]
    split
    · exact fail_leads rfl rfl
    · exact hon rfl rfl (Nat.le_refl _) (.inl rfl)
  | opened o library =>
    simp only [step]
    split
    · rename_i e he
      obtain ⟨name, rfl⟩ := Library.resolve_error he
      exact fail_leads rfl rfl
    · exact hon rfl rfl (Nat.le_refl _) (.inl rfl)
  | resolved o library =>
    simp only [step]
    split
    · rename_i e he
      obtain ⟨text, rfl⟩ := checkArguments_error he
      exact fail_leads rfl rfl
    · exact hon rfl rfl (Nat.le_refl _) (.inl rfl)
  | worded arguments library =>
    simp only [step]
    split
    · exact fail_leads rfl rfl
    · rename_i hc
      rw [Bool.not_eq_true] at hc
      refine ⟨?_, rfl, Nat.le_refl _, fun _ => rfl, Nat.le_refl _, fun _ => .inl rfl⟩
      rw [hc]
      rfl
  | claimed arguments library =>
    have hg := calls_greeting arguments s.environment s.notes
    simp only [step]
    refine ⟨?_, ?_, ?_, id, Nat.zero_le _, fun _ => .inl rfl⟩
    · split <;> rfl
    · split <;> exact hg
    · exact Nat.le_of_lt (Nat.lt_of_lt_of_eq (Nat.lt_succ_self _) hg.symm)
  | done result => exact ⟨rfl, rfl, Nat.le_refl _, id, Nat.zero_le _, .inl⟩

theorem left_steps (h : Host) (n : Nat) (a : Attempt) (s : Shared) :
    (steps h n a s).1.left ≤ a.left - n := by
  induction n generalizing a s with
  | zero => exact Nat.le_refl _
  | succ n ih =>
    have hs := (step_leads h a s).left
    have hi := ih (a.step h s).1 (a.step h s).2
    simp only [steps]
    omega

theorem done_of_left (ha : a.left = 0) : ∃ result, a = done result := by
  cases a with
  | done result => exact ⟨result, rfl⟩
  | _ => cases ha

end Attempt

theorem Host.start_eq (h : Host) (options : StartOptions) (s : Shared) :
    Attempt.steps h 8 (.fresh options) s = (.done (h.start options s).1, (h.start options s).2) := by
  have hl := Attempt.left_steps h 8 (.fresh options) s
  obtain ⟨result, hd⟩ := Attempt.done_of_left (Nat.le_zero.mp hl)
  unfold start
  dsimp only [Attempt.left]
  rcases hr : Attempt.steps h 8 (.fresh options) s with ⟨a, s'⟩
  rw [hr] at hd
  cases hd
  rfl

structure Process where
  platform : Platform
  threads : List Attempt := []
  shared : Shared := {}

inductive Move where
  | start (options : StartOptions)
  | step (thread : Nat) (files : Files) (command : CommandRun) (load : Path → Except String Library)

namespace Process

def host (p : Process) (files : Files) (command : CommandRun)
    (load : Path → Except String Library) : Host :=
  ⟨p.platform, files, command, load⟩

def take (p : Process) : Move → Process
  | .start options => { p with threads := p.threads ++ [.fresh options] }
  | .step thread files command load =>
    match p.threads[thread]? with
    | none => p
    | some a =>
      let (a, shared) := a.step (p.host files command load) p.shared
      { p with threads := p.threads.set thread a, shared := shared }

def run (p : Process) (moves : List Move) : Process := moves.foldl take p

/-- Exactly one attempt has spent the call if it is spent, R noted one call for each attempt that
called it, and no attempt came past its first step on a system that loads no libraries. -/
structure Sound (p : Process) : Prop where
  spent : p.threads.countP Attempt.reaches = p.shared.claimed.toNat
  noted : p.shared.calls = p.threads.countP Attempt.called
  loads : ∀ a ∈ p.threads, a.passes = true → p.platform.requireLoading = .ok ()

variable {p : Process}

theorem run_append (p : Process) (moves later : List Move) :
    p.run (moves ++ later) = (p.run moves).run later := List.foldl_append

theorem countP_set_add {f : Attempt → Bool} {threads : List Attempt} {n : Nat} {a : Attempt}
    (h : threads[n]? = some a) (a' : Attempt) :
    (threads.set n a').countP f + (f a).toNat = threads.countP f + (f a').toNat := by
  obtain ⟨hn, rfl⟩ := List.getElem?_eq_some_iff.mp h
  have hle := List.boole_getElem_le_countP (p := f) hn
  rw [List.countP_set hn]
  have hb (b : Bool) : (if b = true then 1 else 0) = b.toNat := by cases b <;> rfl
  rw [hb] at hle
  rw [hb, hb]
  omega

theorem sound_step {a : Attempt} {h : Host} {n : Nat} (hp : p.Sound) (ha : p.threads[n]? = some a)
    (hh : h.platform = p.platform) :
    Sound { p with
      threads := p.threads.set n (a.step h p.shared).1, shared := (a.step h p.shared).2 } := by
  obtain ⟨hspends, hcalls, -, -, -, hpasses⟩ := Attempt.step_leads h a p.shared
  have hr := countP_set_add (f := Attempt.reaches) ha (a.step h p.shared).1
  have hc := countP_set_add (f := Attempt.called) ha (a.step h p.shared).1
  have hspent := hp.spent
  have hnoted := hp.noted
  constructor
  · dsimp only
    omega
  · dsimp only
    omega
  · intro b hb hpb
    rcases List.mem_or_eq_of_mem_set hb with hb | rfl
    · exact hp.loads b hb hpb
    · rcases hpasses hpb with hpa | hl
      · exact hp.loads a (List.mem_of_getElem? ha) hpa
      · exact hh ▸ hl

theorem sound_take (hp : p.Sound) (m : Move) : (p.take m).Sound := by
  cases m with
  | start options =>
    simp only [take]
    constructor
    · simpa [Attempt.reaches, Attempt.called] using hp.spent
    · simpa [Attempt.called] using hp.noted
    · intro a ha hpa
      rcases List.mem_append.mp ha with ha | ha
      · exact hp.loads a ha hpa
      · cases List.mem_singleton.mp ha
        cases hpa
  | step n files command load =>
    simp only [take]
    split
    · exact hp
    · rename_i a ha
      exact sound_step (h := p.host files command load) hp ha rfl

theorem sound_run (hp : p.Sound) (moves : List Move) : (p.run moves).Sound := by
  induction moves generalizing p with
  | nil => exact hp
  | cons m moves ih => exact ih (sound_take hp m)

def idle (platform : Platform) (environment : Environment) : Process where
  platform := platform
  shared := { environment := environment }

theorem sound_idle (platform : Platform) (environment : Environment) :
    (idle platform environment).Sound := by
  constructor
  · rfl
  · rfl
  · intro a ha
    cases ha

end Process

end RConsole
