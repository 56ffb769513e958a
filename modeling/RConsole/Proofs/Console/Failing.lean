import RConsole.Proofs.Console.Acts

namespace RConsole

structure Fault.Strikes (f : Fault) (t t' : Terminal) : Prop where
  mem : f ∈ t.faults
  fails : f.fails ≠ none
  before : t.calls.count f.method ≤ f.nth
  after : f.nth < t'.calls.count f.method

structure Terminal.Spared (t t' : Terminal) : Prop where
  faults : t'.faults = t.faults
  spared : ∀ f : Fault, ¬ f.Strikes t t'

namespace Terminal.Spared

variable {t t' t'' : Terminal}

theorem refl (t : Terminal) : Spared t t := by
  refine ⟨rfl, ?_⟩
  rintro f ⟨-, -, hb, ha⟩
  omega

theorem trans (h : Spared t t') (h' : Spared t' t'') : Spared t t'' := by
  refine ⟨h'.faults.trans h.faults, ?_⟩
  rintro f ⟨hm, hf, hb, ha⟩
  by_cases hmid : f.nth < t'.calls.count f.method
  · exact h.spared f ⟨hm, hf, hb, hmid⟩
  · exact h'.spared f ⟨h.faults ▸ hm, hf, Nat.le_of_not_lt hmid, ha⟩

theorem perform (h : Spared t t') (a : Act) : Spared t (t'.perform a) := by
  refine ⟨h.faults, ?_⟩
  rintro f ⟨hm, hf, hb, ha⟩
  exact h.spared f ⟨hm, hf, hb, ha⟩

end Terminal.Spared

namespace Console

open Terminal (Spared)

variable {c c' : Console} {s : Keyed} {d : Dressing}

theorem strike_spares {faults : List Fault} (h : (strike faults c).1 = .ok ()) :
    ∀ f ∈ faults, f.fails = none := by
  induction faults generalizing c with
  | nil =>
    intro f hf
    cases hf
  | cons f faults ih =>
    unfold strike at h
    cases hf : f.fails with
    | some message =>
      rw [hf] at h
      cases h
    | none =>
      rw [hf] at h
      exact List.forall_mem_cons.mpr ⟨hf, ih h⟩

theorem call_spares {m : Method} (h : (c.call m).1 = .ok ()) :
    Spared c.terminal (c.call m).2.terminal := by
  rw [terminal_call]
  refine ⟨rfl, ?_⟩
  rintro f ⟨hm, hf, hb, ha⟩
  have hcount : (c.terminal.count m).calls.count f.method =
      c.terminal.calls.count f.method + if m = f.method then 1 else 0 := by
    simp [Terminal.count, Terminal.calls, List.count_cons]
  rw [hcount] at ha
  split at ha
  · -- The call that the fault is for is this one.
    rename_i he
    have hdue : f ∈ c.terminal.due m := by
      apply List.mem_filter.mpr
      refine ⟨hm, ?_⟩
      simp only [Bool.and_eq_true, decide_eq_true_eq]
      refine ⟨he.symm, ?_⟩
      rw [he]
      omega
    exact hf (strike_spares h f hdue)
  · omega

theorem act_spares {m : Method} {a : Act} (h : (c.act m a).1 = .ok ()) :
    Spared c.terminal (c.act m a).2.terminal := by
  have hc := call_spares (c := c) (m := m)
  unfold act at h ⊢
  generalize c.call m = r at h hc
  obtain ⟨_ | _, c'⟩ := r
  · cases h
  · exact (hc rfl).perform a

theorem interleave_spares (frame : Frame) (chunks : List Chunk)
    (h : (interleave frame chunks c).1 = .ok ()) :
    Spared c.terminal (interleave frame chunks c).2.terminal := by
  induction chunks generalizing c with
  | nil => exact .refl _
  | cons chunk chunks ih =>
    have ha := act_spares (c := c) (m := .interleave) (a := .interleaved chunk frame)
    unfold interleave at h ⊢
    generalize c.act .interleave (.interleaved chunk frame) = r at h ha
    obtain ⟨_ | _, c'⟩ := r
    · cases h
    · exact (ha rfl).trans (ih h)

theorem check_spares (frame : Frame) (h : ∀ message, (check frame s).1 ≠ .failed message) :
    Spared s.1.terminal (check frame s).2.1.terminal := by
  have hi := interleave_spares (c := { s.1 with queue := [] }) frame s.1.queue
  unfold check at h ⊢
  generalize interleave frame s.1.queue { s.1 with queue := [] } = r at h hi
  obtain ⟨message | _, c⟩ := r
  · exact absurd rfl (h message)
  · have ha := act_spares (c := c.perform (.asked c.queue)) (m := .ready) (a := .checked)
    dsimp only at h ⊢
    generalize (c.perform (.asked c.queue)).act .ready .checked = r at h ha
    obtain ⟨message | _, c'⟩ := r
    · exact absurd rfl (h message)
    · exact ((hi rfl).perform _).trans (ha rfl)

end Console

theorem Pump.waitFrom_of_ok {σ : Type} (p : Pump σ) {r : σ → σ → Prop}
    (trans : ∀ {s t u}, r s t → r t u → r s u)
    (check : ∀ s, (∀ message, (p.check s).1 ≠ .failed message) → r s (p.check s).2)
    (step : ∀ s, r s (p.step s).2) (stats : WaitStats) {stats' : WaitStats} {s : σ}
    (h : (p.waitFrom stats s).1 = .ok stats') : r s (p.waitFrom stats s).2 := by
  fun_induction waitFrom p stats s with
  | case1 stats s hready => exact check s (by simp [hready])
  | case2 stats s message hfailed => cases h
  | case3 stats s hwaits ih => exact trans (check s (by simp [hwaits])) (trans (step _) (ih h))

namespace Console

open Terminal (Spared)

variable {c c' : Console} {s : Keyed} {d : Dressing}

theorem wait_spares {frame : Frame} {stats : WaitStats} (h : ((pump frame).wait s).1 = .ok stats) :
    Spared s.1.terminal ((pump frame).wait s).2.1.terminal := by
  refine Pump.waitFrom_of_ok (pump frame) (r := fun s t => Spared s.1.terminal t.1.terminal)
    Spared.trans (fun s hs => check_spares frame hs) ?_ {} h
  intro s
  change Spared s.1.terminal s.1.eventStep.2.terminal
  rw [terminal_eventStep]
  exact .refl _

theorem nextKey_spares {frame : Frame} {key : Option Key} (h : (nextKey frame s).1 = .ok key) :
    Spared s.1.terminal (nextKey frame s).2.1.terminal := by
  have ha := act_spares (c := s.1) (m := .render) (a := .rendered frame)
  unfold nextKey at h ⊢
  generalize s.1.act .render (.rendered frame) = r at h ha
  obtain ⟨message | _, c⟩ := r
  · cases h
  · have hw (stats : WaitStats) (h : ((pump frame).wait (c, s.2)).1 = .ok stats) := wait_spares h
    dsimp only at h ⊢
    generalize (pump frame).wait (c, s.2) = r at h hw
    obtain ⟨message | stats, c', keys⟩ := r
    · cases h
    · have hk := call_spares (c := c') (m := .readKey)
      dsimp only at h ⊢
      generalize c'.call .readKey = r at h hk
      obtain ⟨message | _, c''⟩ := r
      · cases h
      · have hall := ((ha rfl).trans (hw stats rfl)).trans (hk rfl)
        dsimp only at h ⊢
        cases hn : Input.next? keys with
        | none =>
          rw [hn] at h
          cases h
        | some typed => exact hall.perform (.keyed typed.1)

theorem serve_spares {request : Option Request} (h : (c.serve request).1 = .ok ()) :
    Spared c.terminal (c.serve request).2.terminal := by
  rcases request with _ | _ | _
  · exact .refl _
  · exact act_spares h
  · have hs := act_spares (c := c) (m := .suspend) (a := .suspended)
    change c.suspend.1 = .ok () at h
    change Spared c.terminal c.suspend.2.terminal
    unfold suspend at h ⊢
    generalize c.act .suspend .suspended = r at h hs
    obtain ⟨message | _, c'⟩ := r
    · cases h
    · exact (hs rfl).trans (act_spares h)

theorem conclude_spares {e : Editor} {outcome outcome' : Outcome}
    (h : (c.conclude d e outcome).1 = .ok outcome') :
    Spared c.terminal (c.conclude d e outcome).2.terminal := by
  have ha := act_spares (c := c) (m := .finish) (a := .finished (d.lastFrame e.buffer))
  unfold conclude at h ⊢
  split at h
  · rename_i hl
    rw [if_pos hl]
    generalize c.act .finish (.finished (d.lastFrame e.buffer)) = r at h ha
    obtain ⟨message | _, c'⟩ := r
    · cases h
    · exact ha rfl
  · rename_i hl
    rw [if_neg hl]
    exact .refl _

theorem edit_spares {e : Editor} {outcome : Outcome} (h : (edit d e s).1 = .ok outcome) :
    Spared s.1.terminal (edit d e s).2.1.terminal := by
  fun_induction edit d e s with
  | case1 e s error he => cases h
  | case2 e s hk ih => exact (nextKey_spares hk).trans (ih h)
  | case3 e s key hk s' outcome' hp result c hc =>
    have hd (h : (s'.1.conclude d e outcome').1 = .ok outcome) := conclude_spares h
    rw [hc] at hd
    exact (nextKey_spares hk).trans (hd h)
  | case4 e s key hk s' e' request hp message c hc => cases h
  | case5 e s key hk s' e' request hp c hc ih =>
    have hs (h : ((s'.1.withKeymap e'.keymap).serve request).1 = .ok ()) := serve_spares h
    rw [hc] at hs
    exact ((nextKey_spares hk).trans (hs rfl)).trans (ih h)

theorem readLine_spares {e : Editor} {outcome : Outcome} (h : (readLine d e s).1 = .ok outcome) :
    Spared s.1.terminal (readLine d e s).2.1.terminal := by
  have ha := act_spares (c := s.1) (m := .enter) (a := .entered)
  unfold readLine at h ⊢
  generalize s.1.act .enter .entered = r at h ha
  obtain ⟨message | _, c⟩ := r
  · cases h
  · have hd (outcome : Outcome) (h : (edit d e (c.withKeymap e.keymap, s.2)).1 = .ok outcome) :=
      edit_spares h
    dsimp only at h ⊢
    generalize edit d e (c.withKeymap e.keymap, s.2) = r at h hd
    obtain ⟨error | outcome', c', keys⟩ := r
    · cases h
    · have hl := act_spares (c := c') (m := .leave) (a := .left)
      dsimp only at h ⊢
      generalize c'.act .leave .left = r at h hl
      obtain ⟨message | _, c''⟩ := r
      · cases h
      · exact ((ha rfl).trans (hd outcome' rfl)).trans (hl rfl)

end Console

end RConsole
