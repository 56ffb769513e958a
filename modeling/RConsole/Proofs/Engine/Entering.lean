import RConsole.Engine.Start

namespace RConsole.Runs

inductive Request where
  | install (thread : Nat)
  | run (thread : Nat)
  deriving DecidableEq

def Request.running? : Request → Option Nat
  | .install _ => none
  | .run thread => some thread

def serve (platform : Platform) (r : Runs) : Request → Except RuntimeError Unit × Runs
  | .install thread => r.install thread
  | .run thread => r.enter platform thread

def serveAll (platform : Platform) (r : Runs) (calls : List Request) : Runs :=
  calls.foldl (fun r c => (serve platform r c).2) r

def firstRun (calls : List Request) : Option Nat := calls.findSome? Request.running?

def Ran (platform : Platform) (calls : List Request) (outcome : Except RuntimeError Unit) : Prop :=
  ∃ before n after, calls = before ++ .run n :: after ∧
    ((serveAll platform {} before).enter platform n).1 = outcome

def runOutcome (platform : Platform) (calls : List Request) (n : Nat) : Except RuntimeError Unit :=
  match platform.requireHooks with
  | .error e => .error e
  | .ok () =>
    if (firstRun calls).isSome then .error .alreadyRunning
    else if .install n ∈ calls then .error .registryInstalled
    else .ok ()

variable {platform : Platform} {calls : List Request} {r : Runs} {n : Nat}

theorem serveAll_append (platform : Platform) (r : Runs) (calls later : List Request) :
    serveAll platform r (calls ++ later) = serveAll platform (serveAll platform r calls) later :=
  List.foldl_append

theorem firstRun_append (calls later : List Request) :
    firstRun (calls ++ later) = (firstRun calls).or (firstRun later) := List.findSome?_append

theorem firstRun_isSome : (firstRun calls).isSome ↔ ∃ n, .run n ∈ calls := by
  rw [firstRun, List.findSome?_isSome_iff]
  constructor
  · rintro ⟨c, hc, hs⟩
    cases c with
    | install n => cases hs
    | run n => exact ⟨n, hc⟩
  · rintro ⟨n, hn⟩
    exact ⟨.run n, hn, rfl⟩

structure After (calls : List Request) (r : Runs) : Prop where
  running : r.running = (firstRun calls).isSome
  installed (n : Nat) : n ∈ r.installed ↔ .install n ∈ calls ∨ firstRun calls = some n

theorem mem_install (r : Runs) (n m : Nat) : m ∈ (r.install n).2.installed ↔ m ∈ r.installed ∨ m = n := by
  unfold install
  by_cases h : n ∈ r.installed
  · rw [if_pos (List.contains_iff_mem.mpr h)]
    constructor
    · exact .inl
    · rintro (hm | rfl)
      · exact hm
      · exact h
  · rw [if_neg (mt List.contains_iff_mem.mp h)]
    rw [List.mem_cons, or_comm]

theorem running_install (r : Runs) (n : Nat) : (r.install n).2.running = r.running := by
  unfold install
  split <;> rfl

theorem After.serve (hp : platform.requireHooks = .ok ()) (h : After calls r) (c : Request) :
    After (calls ++ [c]) (serve platform r c).2 := by
  cases c with
  | install n =>
    have hf : firstRun (calls ++ [.install n]) = firstRun calls := by
      rw [firstRun_append]
      exact Option.or_none
    constructor
    · rw [hf, Runs.serve, running_install, h.running]
    · intro m
      rw [hf, Runs.serve, mem_install, h.installed, List.mem_append, List.mem_singleton]
      simp only [Request.install.injEq]
      exact or_right_comm
  | run n =>
    have hf : firstRun (calls ++ [.run n]) = (firstRun calls).or (some n) := firstRun_append calls [.run n]
    simp only [Runs.serve, enter, hp]
    by_cases hr : r.running = true
    · obtain ⟨m, hm⟩ := Option.isSome_iff_exists.mp (h.running.symm.trans hr)
      rw [if_pos hr]
      constructor
      · rw [hf, h.running, hm]
        rfl
      · intro k
        rw [h.installed, hf, hm]
        simp
    · have hm : firstRun calls = none := Option.not_isSome_iff_eq_none.mp (h.running ▸ hr)
      rw [if_neg hr]
      constructor
      · rw [hf, hm, running_install]
        rfl
      · intro k
        rw [mem_install, h.installed, hf, hm]
        simp [eq_comm]

theorem After.serveAll (hp : platform.requireHooks = .ok ()) (h : After calls r) (later : List Request) :
    After (calls ++ later) (serveAll platform r later) := by
  induction later generalizing calls r with
  | nil => rwa [List.append_nil]
  | cons c later ih =>
    have hc := ih (h.serve hp c)
    rwa [List.append_assoc, List.singleton_append] at hc

theorem after_serveAll (hp : platform.requireHooks = .ok ()) (calls : List Request) :
    After calls (serveAll platform {} calls) := by
  have hnone : After [] {} := ⟨rfl, by simp [firstRun]⟩
  exact hnone.serveAll hp calls

theorem enter_outcome (platform : Platform) (calls : List Request) (n : Nat) :
    ((serveAll platform {} calls).enter platform n).1 = runOutcome platform calls n := by
  unfold enter runOutcome
  cases hp : platform.requireHooks with
  | error e => rfl
  | ok u =>
    have h := after_serveAll hp calls
    dsimp only
    rw [h.running]
    by_cases hf : (firstRun calls).isSome = true
    · rw [if_pos hf, if_pos hf]
    · rw [if_neg hf, if_neg hf]
      have hn : firstRun calls = none := Option.not_isSome_iff_eq_none.mp hf
      have hi := h.installed n
      rw [hn] at hi
      simp only [reduceCtorEq, or_false] at hi
      unfold install
      by_cases hm : Request.install n ∈ calls
      · rw [if_pos hm, if_pos (List.contains_iff_mem.mpr (hi.mpr hm))]
      · rw [if_neg hm, if_neg fun hc => hm (hi.mp (List.contains_iff_mem.mp hc))]

theorem split_firstRun (h : firstRun calls = some n) :
    ∃ before after, calls = before ++ .run n :: after ∧ firstRun before = none := by
  obtain ⟨before, c, after, hc, hn, hb⟩ := List.findSome?_eq_some_iff.mp h
  cases c with
  | install m => cases hn
  | run m =>
    cases hn
    exact ⟨before, after, hc, List.findSome?_eq_none_iff.mpr hb⟩

theorem firstRun_of_ran {outcome : Except RuntimeError Unit} (h : Ran platform calls outcome) :
    (firstRun calls).isSome := by
  obtain ⟨before, n, after, rfl, -⟩ := h
  exact firstRun_isSome.mpr ⟨n, List.mem_append_right before List.mem_cons_self⟩

theorem runOutcome_of_hooks (hp : platform.requireHooks = .ok ()) (calls : List Request) (n : Nat) :
    runOutcome platform calls n =
      if (firstRun calls).isSome then .error .alreadyRunning
      else if .install n ∈ calls then .error .registryInstalled
      else .ok () := by
  rw [runOutcome, hp]

theorem runOutcome_of_no_hooks {e : RuntimeError} (hp : platform.requireHooks = .error e)
    (calls : List Request) (n : Nat) : runOutcome platform calls n = .error (.unsupported platform) := by
  rw [runOutcome, hp]
  unfold Platform.requireHooks at hp
  split at hp
  · cases hp
  · cases hp
    rfl

theorem ran_of_firstRun (hp : platform.requireHooks = .ok ()) (h : firstRun calls = some n) :
    Ran platform calls (.ok ()) ∨ Ran platform calls (.error .registryInstalled) := by
  obtain ⟨before, after, hc, hb⟩ := split_firstRun h
  have ho := (enter_outcome platform before n).trans (runOutcome_of_hooks hp before n)
  rw [hb, Option.isSome_none, if_neg Bool.false_ne_true] at ho
  by_cases hi : Request.install n ∈ before
  · rw [if_pos hi] at ho
    exact .inr ⟨before, n, after, hc, ho⟩
  · rw [if_neg hi] at ho
    exact .inl ⟨before, n, after, hc, ho⟩

theorem runOutcome_eq_alreadyRunning : runOutcome platform calls n = .error .alreadyRunning ↔
    Ran platform calls (.ok ()) ∨ Ran platform calls (.error .registryInstalled) := by
  cases hp : platform.requireHooks with
  | error e =>
    rw [runOutcome_of_no_hooks hp]
    constructor
    · nofun
    · rintro (⟨before, m, after, -, ho⟩ | ⟨before, m, after, -, ho⟩)
      all_goals
        rw [enter_outcome, runOutcome_of_no_hooks hp] at ho
        cases ho
  | ok u =>
    rw [runOutcome_of_hooks hp]
    constructor
    · intro h
      cases hf : firstRun calls with
      | none =>
        rw [hf, Option.isSome_none, if_neg Bool.false_ne_true] at h
        split at h <;> cases h
      | some m => exact ran_of_firstRun hp hf
    · intro h
      rw [if_pos (h.elim firstRun_of_ran firstRun_of_ran)]

theorem enter_of_error {e : RuntimeError} (h : (r.enter platform n).1 = .error e)
    (he : e ≠ .registryInstalled) : (r.enter platform n).2 = r := by
  unfold enter install at h ⊢
  split
  · rfl
  · rename_i hp
    simp only [hp] at h
    by_cases hr : r.running = true
    · rw [if_pos hr]
    · rw [if_neg hr] at h
      split at h
      · exact absurd (Except.error.inj h).symm he
      · cases h

theorem of_registryInstalled (h : runOutcome platform calls n = .error .registryInstalled) :
    platform.requireHooks = .ok () ∧ firstRun calls = none := by
  cases hp : platform.requireHooks with
  | error e =>
    rw [runOutcome_of_no_hooks hp] at h
    cases h
  | ok u =>
    rw [runOutcome_of_hooks hp] at h
    refine ⟨rfl, Option.not_isSome_iff_eq_none.mp fun hf => ?_⟩
    rw [if_pos hf] at h
    cases h

/-- A run is refused as a second one exactly after a run that entered R or one whose thread had its
callbacks already. Any other failure changes nothing. That one changes how each later run ends up to the
next one, which would else have been the first. -/
theorem first_run_uses_up (platform : Platform) (calls : List Request) (n : Nat) :
    let r := serveAll platform {} calls
    let out := r.enter platform n
    out.1 = runOutcome platform calls n ∧
    (out.1 = .error .alreadyRunning ↔
      Ran platform calls (.ok ()) ∨ Ran platform calls (.error .registryInstalled)) ∧
    (∀ e, out.1 = .error e → e ≠ .registryInstalled → out.2 = r) ∧
    (out.1 = .error .registryInstalled → ∀ (later : List Request) (m : Nat),
      ((serveAll platform out.2 later).enter platform m).1 = .error .alreadyRunning ∧
      (((serveAll platform r later).enter platform m).1 = .error .alreadyRunning ↔
        ∃ k, .run k ∈ later)) := by
  intro r out
  have hout : out.1 = runOutcome platform calls n := enter_outcome platform calls n
  refine ⟨hout, ?_, fun e he => enter_of_error he, ?_⟩
  · rw [hout]
    exact runOutcome_eq_alreadyRunning
  · intro h later m
    obtain ⟨hp, hf⟩ := of_registryInstalled (hout.symm.trans h)
    have hwith : serveAll platform out.2 later = serveAll platform {} (calls ++ .run n :: later) := by
      rw [serveAll_append]
      rfl
    rw [hwith, ← serveAll_append, enter_outcome, enter_outcome, runOutcome_of_hooks hp,
      runOutcome_of_hooks hp, firstRun_append, firstRun_append, hf, Option.none_or, Option.none_or]
    constructor
    · exact if_pos rfl
    · rw [← firstRun_isSome]
      by_cases hl : (firstRun later).isSome = true
      · rw [if_pos hl]
        exact iff_of_true rfl hl
      · rw [if_neg hl]
        refine iff_of_false ?_ hl
        split <;> nofun

/-- The run that fails enters no R, and yet no later one can: not on its thread and not on another,
where it would have. -/
theorem failed_run_uses_up :
    let before : List Request := [.install 0]
    let calls : List Request := [.install 0, .run 0]
    ((serveAll .linux {} before).enter .linux 0).1 = .error .registryInstalled ∧
    ¬ Ran .linux calls (.ok ()) ∧
    ((serveAll .linux {} calls).enter .linux 0).1 = .error .alreadyRunning ∧
    ((serveAll .linux {} calls).enter .linux 1).1 = .error .alreadyRunning ∧
    ((serveAll .linux {} before).enter .linux 1).1 = .ok () := by
  intro before calls
  refine ⟨by rfl, ?_, by rfl, by rfl, by rfl⟩
  rintro ⟨front, n, after, hc, ho⟩
  rcases front with _ | ⟨c, _ | ⟨d, front⟩⟩
  · cases (List.cons.inj hc).1
  · obtain ⟨rfl, hrest⟩ := List.cons.inj hc
    cases (List.cons.inj hrest).1
    cases ho
  · simp [calls] at hc

end RConsole.Runs
