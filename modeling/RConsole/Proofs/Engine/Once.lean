import RConsole.Proofs.Engine.Process

namespace RConsole

def Move.steps (n : Nat) : Move → Bool
  | .start _ => false
  | .step m _ _ _ => m = n

namespace Process

variable {p : Process} {n : Nat} {a : Attempt}

theorem take_step (ha : p.threads[n]? = some a) (files : Files) (command : CommandRun)
    (load : Path → Except String Library) :
    p.take (.step n files command load) =
      { p with
        threads := p.threads.set n (a.step (p.host files command load) p.shared).1
        shared := (a.step (p.host files command load) p.shared).2 } := by
  simp only [take, ha]

theorem platform_take (p : Process) (m : Move) : (p.take m).platform = p.platform := by
  cases m with
  | start options => rfl
  | step n files command load =>
    simp only [take]
    split <;> rfl

theorem platform_run (p : Process) (moves : List Move) : (p.run moves).platform = p.platform := by
  induction moves generalizing p with
  | nil => rfl
  | cons m moves ih => exact (ih (p.take m)).trans (platform_take p m)

theorem claimed_take (h : p.shared.claimed = true) (m : Move) : (p.take m).shared.claimed = true := by
  cases m with
  | start options => exact h
  | step n files command load =>
    simp only [take]
    split
    · exact h
    · exact (Attempt.step_leads _ _ p.shared).claimed h

theorem claimed_run (h : p.shared.claimed = true) (moves : List Move) :
    (p.run moves).shared.claimed = true := by
  induction moves generalizing p with
  | nil => exact h
  | cons m moves ih => exact ih (claimed_take h m)

theorem thread_take (ha : p.threads[n]? = some a) {m : Move} (hm : m.steps n = false) :
    (p.take m).threads[n]? = some a := by
  have hn : n < p.threads.length := (List.getElem?_eq_some_iff.mp ha).1
  cases m with
  | start options =>
    simp only [take]
    rw [List.getElem?_append_left hn]
    exact ha
  | step k files command load =>
    have hk : k ≠ n := by simpa [Move.steps] using hm
    simp only [take]
    split
    · exact ha
    · dsimp only
      rw [List.getElem?_set_ne hk]
      exact ha

theorem thread_run (ha : p.threads[n]? = some a) {moves : List Move}
    (hm : ∀ m ∈ moves, m.steps n = false) : (p.run moves).threads[n]? = some a := by
  induction moves generalizing p with
  | nil => exact ha
  | cons m moves ih =>
    apply ih
    · exact thread_take ha (hm m List.mem_cons_self)
    · intro m' hm'
      exact hm m' (List.mem_cons_of_mem m hm')

theorem thread_step (ha : p.threads[n]? = some a) (files : Files) (command : CommandRun)
    (load : Path → Except String Library) :
    (p.take (.step n files command load)).threads[n]? =
      some (a.step (p.host files command load) p.shared).1 := by
  have hn : n < p.threads.length := (List.getElem?_eq_some_iff.mp ha).1
  rw [take_step ha]
  dsimp only
  rw [List.getElem?_set_self hn]

theorem done_run {result : Except RuntimeError Library} (ha : p.threads[n]? = some (.done result))
    (moves : List Move) : (p.run moves).threads[n]? = some (.done result) := by
  induction moves generalizing p with
  | nil => exact ha
  | cons m moves ih =>
    apply ih
    cases hm : m.steps n with
    | false => exact thread_take ha hm
    | true =>
      cases m with
      | start options => cases hm
      | step k files command load =>
        have hk : k = n := by simpa [Move.steps] using hm
        subst hk
        exact thread_step ha _ _ _

theorem located_run {options : StartOptions} {found : Installation}
    (ha : p.threads[n]? = some (.located options found)) (hc : p.shared.claimed = true)
    (moves : List Move) :
    (p.run moves).threads[n]? = some (if moves.any (Move.steps n) then
      .done (.error (.init .alreadyInitialized)) else .located options found) := by
  induction moves generalizing p with
  | nil => exact ha
  | cons m moves ih =>
    rw [List.any_cons]
    cases hm : m.steps n with
    | false => exact ih (thread_take ha hm) (claimed_take hc m)
    | true =>
      cases m with
      | start options => cases hm
      | step k files command load =>
        have hk : k = n := by simpa [Move.steps] using hm
        subst hk
        have hs := thread_step ha files command load
        simp only [Attempt.step, hc, if_true, Attempt.fail] at hs
        exact done_run hs moves

theorem run_steps (ha : p.threads[n]? = some a) (files : Files) (command : CommandRun)
    (load : Path → Except String Library) (k : Nat) :
    p.run (List.replicate k (.step n files command load)) =
      { p with
        threads := p.threads.set n (Attempt.steps (p.host files command load) k a p.shared).1
        shared := (Attempt.steps (p.host files command load) k a p.shared).2 } := by
  obtain ⟨hn, hget⟩ := List.getElem?_eq_some_iff.mp ha
  induction k generalizing p a with
  | zero =>
    have hset : p.threads.set n a = p.threads := by
      rw [← hget]
      exact List.set_getElem_self hn
    simp only [List.replicate_zero, run, List.foldl_nil, Attempt.steps, hset]
  | succ k ih =>
    have hs := thread_step ha files command load
    obtain ⟨hn', hget'⟩ := List.getElem?_eq_some_iff.mp hs
    have hi := ih hs hn' hget'
    rw [take_step ha] at hi
    rw [List.replicate_succ, run, List.foldl_cons, take_step ha]
    refine hi.trans ?_
    simp only [Attempt.steps, host, List.set_set]

theorem run_start (p : Process) (options : StartOptions) (files : Files) (command : CommandRun)
    (load : Path → Except String Library) :
    let r := (p.host files command load).start options p.shared
    p.run (.start options :: List.replicate 8 (.step p.threads.length files command load)) =
      { p with threads := p.threads ++ [.done r.1], shared := r.2 } := by
  intro r
  have ha : (p.take (.start options)).threads[p.threads.length]? = some (.fresh options) :=
    List.getElem?_concat_length
  have hr := run_steps ha files command load 8
  have hd : Attempt.steps ((p.take (.start options)).host files command load) 8 (.fresh options)
      (p.take (.start options)).shared = (.done r.1, r.2) :=
    (p.host files command load).start_eq options p.shared
  rw [hd] at hr
  rw [run, List.foldl_cons, ← run, hr]
  simp [take]

theorem start_able {h : Host} {options : StartOptions} {found : Installation} {library : Library}
    {s : Shared} (hc : s.claimed = false) (hp : h.platform.requireLoading = .ok ())
    (hl : Installation.locate h.files h.platform h.command options.root s.environment = .ok found)
    (hload : h.load found.library = .ok library) (hr : library.resolve = .ok ())
    (ha : Attempt.checkArguments (startArguments options.programName) = .ok ()) :
    (h.start options s).1 =
        (if library.initResult = 0 then .ok library
          else .error (.init (.initFailed library.initResult))) ∧
      (h.start options s).2.calls = s.calls + 1 := by
  have hs := h.start_eq options s
  simp only [Attempt.steps, Attempt.step, hp, hl, hc, hload, hr, ha, Bool.false_eq_true,
    if_false] at hs
  obtain ⟨hd, hshared⟩ := Prod.mk.inj hs
  refine ⟨(Attempt.done.inj hd).symm, ?_⟩
  rw [← hshared]
  exact Attempt.calls_greeting _ _ _

theorem late_run (hc : p.shared.claimed = true) (hp : p.platform.requireLoading = .ok ())
    (options : StartOptions) {waiting : List Move}
    (hw : ∀ m ∈ waiting, m.steps p.threads.length = false) (files : Files) (command : CommandRun)
    (load : Path → Except String Library) (later : List Move) :
    let q := p.run (.start options :: waiting)
    (q.run (.step p.threads.length files command load :: later)).threads[p.threads.length]? =
      some (match Installation.locate files p.platform command options.root q.shared.environment with
        | .error e => .done (.error (.discovery e))
        | .ok found => if later.any (Move.steps p.threads.length) then
            .done (.error (.init .alreadyInitialized)) else .located options found) := by
  intro q
  have hfresh : q.threads[p.threads.length]? = some (.fresh options) :=
    thread_run (p := p.take (.start options)) List.getElem?_concat_length hw
  have hplatform : q.platform = p.platform := platform_run p _
  have hclaimed : q.shared.claimed = true := claimed_run hc _
  have hstep := thread_step hfresh files command load
  have hstill := claimed_take hclaimed (.step p.threads.length files command load)
  simp only [Attempt.step, host, hplatform, hp] at hstep
  change ((q.take (.step p.threads.length files command load)).run later).threads[_]? = _
  cases hl : Installation.locate files p.platform command options.root q.shared.environment with
  | error e =>
    rw [hl] at hstep
    exact done_run hstep later
  | ok found =>
    rw [hl] at hstep
    exact located_run hstep hstill later

theorem claimed_iff (hp : p.Sound) :
    p.shared.claimed = true ↔ ∃ a ∈ p.threads, a.reaches = true := by
  have hs := hp.spent
  rw [← List.countP_pos_iff, hs]
  cases p.shared.claimed <;> simp

theorem calls_le_claimed (hp : p.Sound) : p.shared.calls ≤ p.shared.claimed.toNat := by
  have hle : p.threads.countP Attempt.called ≤ p.threads.countP Attempt.reaches := by
    apply List.countP_mono_left
    intro a _ ha
    cases a with
    | claimed arguments library => rfl
    | _ => exact ha
  rw [hp.noted, ← hp.spent]
  exact hle

theorem calls_run_le (p : Process) (moves : List Move) :
    p.shared.calls ≤ (p.run moves).shared.calls := by
  induction moves generalizing p with
  | nil => exact Nat.le_refl _
  | cons m moves ih =>
    refine Nat.le_trans ?_ (ih (p.take m))
    cases m with
    | start options => exact Nat.le_refl _
    | step n files command load =>
      simp only [take]
      split
      · exact Nat.le_refl _
      · exact (Attempt.step_leads _ _ p.shared).more

theorem loads_of_claimed (hp : p.Sound) (hc : p.shared.claimed = true) :
    p.platform.requireLoading = .ok () := by
  obtain ⟨a, ha, hr⟩ := (claimed_iff hp).mp hc
  exact hp.loads a ha (Attempt.passes_of_reaches hr)

/-- Whatever the starts in a process are and in whichever order their threads run, R is called once at
most, and only an attempt that reaches R spends the call. As long as none has, a start that finds and
loads R calls it; once R was called, a start that begins then ends without calling it again. -/
theorem initialized_once (platform : Platform) (environment : Environment) (moves : List Move) :
    let p := (idle platform environment).run moves
    p.shared.calls ≤ 1 ∧
    (p.shared.claimed = true ↔ ∃ a ∈ p.threads, a.reaches = true) ∧
    (∀ options files command load,
      let h := p.host files command load
      p.run (.start options :: List.replicate 8 (.step p.threads.length files command load)) =
        { p with
          threads := p.threads ++ [.done (h.start options p.shared).1]
          shared := (h.start options p.shared).2 } ∧
      ∀ found library, p.shared.claimed = false → platform.loadsLibraries = true →
        Installation.locate files platform command options.root p.shared.environment = .ok found →
        load found.library = .ok library → library.resolve = .ok () →
        Attempt.checkArguments (startArguments options.programName) = .ok () →
        (h.start options p.shared).1 = (if library.initResult = 0 then .ok library
            else .error (.init (.initFailed library.initResult))) ∧
          (h.start options p.shared).2.calls = 1) ∧
    (p.shared.calls = 1 → ∀ options waiting files command load later,
      let n := p.threads.length
      let q := p.run (.start options :: waiting)
      let r := q.run (.step n files command load :: later)
      (∀ m ∈ waiting, m.steps n = false) →
      r.shared.calls = 1 ∧
      r.threads[n]? = some (
        match Installation.locate files platform command options.root q.shared.environment with
        | .error e => .done (.error (.discovery e))
        | .ok found => if later.any (Move.steps n) then
            .done (.error (.init .alreadyInitialized)) else .located options found)) := by
  intro p
  have hp : p.Sound := sound_run (sound_idle platform environment) moves
  have hplatform : p.platform = platform := platform_run _ moves
  have hcalls {q : Process} (hq : q.Sound) : q.shared.calls ≤ 1 :=
    Nat.le_trans (calls_le_claimed hq) (Bool.toNat_le _)
  refine ⟨hcalls hp, claimed_iff hp, ?_, ?_⟩
  · intro options files command load h
    refine ⟨run_start p options files command load, ?_⟩
    intro found library hc hl hlocate hload hresolve harguments
    have hnone : p.shared.calls = 0 := by
      have hle := calls_le_claimed hp
      rw [hc] at hle
      exact Nat.le_zero.mp hle
    have hrequire : h.platform.requireLoading = .ok () := by
      change p.platform.requireLoading = _
      rw [hplatform, Platform.requireLoading, if_pos hl]
    rw [← hplatform] at hlocate
    have hs := start_able (h := h) hc hrequire hlocate hload hresolve harguments
    rw [hnone] at hs
    exact hs
  · intro hone options waiting files command load later n q r hw
    have hc : p.shared.claimed = true := by
      have hle := calls_le_claimed hp
      rw [hone] at hle
      cases hb : p.shared.claimed with
      | true => rfl
      | false => rw [hb] at hle; cases hle
    have hr : p.run (.start options :: waiting ++ .step n files command load :: later) = r :=
      run_append p _ _
    constructor
    · apply Nat.le_antisymm
      · exact hr ▸ hcalls (sound_run hp _)
      · rw [← hone, ← hr]
        exact calls_run_le p _
    · have hlate := late_run hc (loads_of_claimed hp hc) options hw files command load later
      rw [hplatform] at hlate
      exact hlate

theorem initialized_once_after_failure :
    let files : Files :=
      { nodes := [(["r".toList], .directory 0o755), (["r".toList, "lib".toList], .directory 0o755),
        (["r".toList, "lib".toList, "libR.so".toList], .file 0o644 [])] }
    let library : Library := { path := "r/lib/libR.so" }
    let load : Path → Except String Library := fun _ => .ok library
    let steps := fun n => List.replicate 8 (Move.step n files (.notRun .missing) load)
    let good : StartOptions := { root := some "r" }
    let failed := (idle .linux []).run (.start { good with programName := "a\x00" } :: steps 0)
    let started := (idle .linux []).run
      (.start { good with programName := "a\x00" } :: steps 0 ++ .start good :: steps 1)
    let late := (started.run [.start good]).run (steps 2)
    failed.shared.claimed = false ∧ failed.shared.calls ≤ 1 ∧
      ((failed.host files (.notRun .missing) load).start good failed.shared).1 = .ok library ∧
      ((failed.host files (.notRun .missing) load).start good failed.shared).2.calls = 1 ∧
      started.shared.calls = 1 ∧ late.shared.calls = 1 ∧
      late.threads[2]? = some (.done (.error (.init .alreadyInitialized))) := by
  intro files library load steps good
  have hclaimed : ((idle .linux []).run (.start { good with programName := "a\x00" } ::
    steps 0)).shared.claimed = false := by decide +kernel
  have hcalls : ((idle .linux []).run (.start { good with programName := "a\x00" } ::
    steps 0 ++ .start good :: steps 1)).shared.calls = 1 := by decide +kernel
  obtain ⟨hle, -, hable, -⟩ := initialized_once .linux []
    (.start { good with programName := "a\x00" } :: steps 0)
  obtain ⟨hresult, hcalled⟩ := (hable good files (.notRun .missing) load).2
    { root := "r", library := "r/lib/libR.so" } library hclaimed rfl rfl rfl rfl (by
      rw [Attempt.checkArguments, List.find?_eq_none.mpr (by decide +kernel)])
  have hlength : ((idle .linux []).run (.start { good with programName := "a\x00" } ::
    steps 0 ++ .start good :: steps 1)).threads.length = 2 := by decide +kernel
  obtain ⟨hlate, hthread⟩ := (initialized_once .linux [] (.start { good with
    programName := "a\x00" } :: steps 0 ++ .start good :: steps 1)).2.2.2 hcalls good []
    files (.notRun .missing) load (List.replicate 7 (.step 2 files (.notRun .missing) load))
    (fun _ hm => nomatch hm)
  rw [hlength] at hlate hthread
  exact ⟨hclaimed, hle, hresult, hcalled, hcalls, hlate, hthread⟩

end Process

end RConsole
