import RConsole.Proofs.Console.Acts
import RConsole.Proofs.Console.Rounds

namespace RConsole.Console

def checks (c : Console) : Nat := c.terminal.calls.count .ready

def Spends (extra : Nat) (s t : Keyed) : Prop :=
  t.1.checks + Input.weight t.2 ≤ s.1.checks + Input.weight s.2 + extra

variable {extra : Nat} {s t u : Keyed} {c c' : Console} {keys : List Input} {P : Act → Prop}
  {d : Dressing}

namespace Spends

theorem of_checks (h : c'.checks = c.checks) (keys : List Input) : Spends 0 (c, keys) (c', keys) := by
  unfold Spends
  dsimp only
  omega

theorem trans (h : Spends 0 s t) (h' : Spends extra t u) : Spends extra s u := by
  unfold Spends at *
  omega

theorem followed (h : Spends extra s t) (h' : Spends 0 t u) : Spends extra s u := by
  unfold Spends at *
  omega

theorem weaken (h : Spends 0 s t) (extra : Nat) : Spends extra s t := by
  unfold Spends at *
  omega

theorem checks_call (method : Method) (c : Console) :
    (c.call method).2.checks = c.checks + if method = .ready then 1 else 0 := by
  unfold checks call
  rw [terminal_strike]
  simp [Terminal.count, Terminal.calls, List.count_cons]

theorem respected : RespectedByCalls P (Spends 0) where
  refl s := of_checks rfl s.2
  trans := trans
  call hm c keys := of_checks (by rw [checks_call, if_neg hm, Nat.add_zero]) keys
  perform _ c keys := of_checks rfl keys
  unqueue _ keys := of_checks rfl keys
  keymap _ _ keys := of_checks rfl keys

theorem loads : RespectedByLoads (Spends 0) where
  desk _ _ keys := of_checks rfl keys
  modes _ _ keys := of_checks rfl keys
  loaded _ _ _ _ keys := of_checks rfl keys

end Spends

theorem checks_act_ready (a : Act) (c : Console) : (c.act .ready a).2.checks = c.checks + 1 := by
  have hc := Spends.checks_call .ready c
  unfold act
  split
  · rename_i he
    rw [he] at hc
    exact hc
  · rename_i he
    rw [he] at hc
    exact hc

theorem check_spends (b : Buffer) (s : Keyed) :
    Spends 1 s (check (d.frame b) s).2 ∧
      ((check (d.frame b) s).1 = .notReady → Spends 0 s (check (d.frame b) s).2) := by
  have hr : RespectedByCalls (Act.Waiting d) (Spends 0) := Spends.respected
  have hi := hr.trans (hr.unqueue s.1 s.2) (hr.interleave b s.1.queue { s.1 with queue := [] } s.2)
  unfold check
  split
  · rename_i he
    rw [he] at hi
    exact ⟨hi.weaken 1, fun h => by cases h⟩
  · rename_i c he
    rw [he] at hi
    have hk : ((c.perform (.asked c.queue)).act .ready .checked).2.checks = c.checks + 1 :=
      checks_act_ready .checked (c.perform (.asked c.queue))
    unfold Spends at hi ⊢
    dsimp only at hi ⊢
    split
    · rename_i ha
      rw [ha] at hk
      refine ⟨?_, fun h => by cases h⟩
      dsimp only at hk ⊢
      omega
    · rename_i ha
      rw [ha] at hk
      dsimp only at hk ⊢
      have hle := Input.weight_poll_le s.2
      refine ⟨by omega, fun h => ?_⟩
      cases hp : (Input.poll s.2).1 with
      | true => rw [hp] at h; cases h
      | false =>
        have hlt := Input.weight_poll_lt hp
        omega

theorem wait_spends (b : Buffer) (s : Keyed) : Spends 1 s ((pump (d.frame b)).wait s).2 := by
  have hw (stats : WaitStats) : Spends 1 s ((pump (d.frame b)).waitFrom stats s).2 := by
    fun_induction Pump.waitFrom (pump (d.frame b)) stats s with
    | case1 stats s h => exact (check_spends b s).1
    | case2 stats s message h => exact (check_spends b s).1
    | case3 stats s h ih =>
      have hs : Spends 0 (check (d.frame b) s).2 ((pump (d.frame b)).step (check (d.frame b) s).2).2 :=
        .of_checks (congrArg (·.calls.count .ready) (terminal_eventStep _)) _
      exact ((check_spends b s).2 h).trans (hs.trans ih)
  exact hw {}

theorem nextKey_spends (b : Buffer) (s : Keyed) :
    Spends 1 s (nextKey (d.frame b) s).2 ∧
      ∀ k, (nextKey (d.frame b) s).1 = .ok k → Spends 0 s (nextKey (d.frame b) s).2 := by
  have hr : RespectedByCalls (Act.Amid d) (Spends 0) := Spends.respected
  have ha := hr.act (m := .render) (by simp) ⟨.rendered b, rfl⟩ s.1 s.2
  unfold nextKey
  split
  · rename_i he
    rw [he] at ha
    exact ⟨ha.weaken 1, fun k h => by cases h⟩
  · rename_i c he
    rw [he] at ha
    have hw : Spends 1 s ((pump (d.frame b)).wait (c, s.2)).2 := ha.trans (wait_spends b (c, s.2))
    split
    · rename_i hp
      rw [hp] at hw
      exact ⟨hw, fun k h => by cases h⟩
    · rename_i t hp
      rw [hp] at hw
      have hc := Spends.checks_call .readKey t.1
      rw [if_neg (by simp), Nat.add_zero] at hc
      split
      · rename_i hk
        rw [hk] at hc
        refine ⟨?_, fun k h => by cases h⟩
        unfold Spends at hw ⊢
        dsimp only at hw hc ⊢
        omega
      · rename_i hk
        rw [hk] at hc
        unfold Spends at hw ⊢
        dsimp only at hw hc
        split
        · refine ⟨?_, fun k h => by cases h⟩
          dsimp only
          omega
        · rename_i c' _ key rest hn
          -- The key that is read pays for the check that found it.
          have hlt := Input.weight_next_lt hn
          have hkc : (c'.perform (.keyed key)).checks = c'.checks := rfl
          dsimp only
          exact ⟨by omega, fun k _ => by omega⟩

theorem edit_spends (e : Editor) (s : Keyed) :
    Spends 1 s (edit d e s).2 ∧
      ∀ outcome, (edit d e s).1 = .ok outcome → Spends 0 s (edit d e s).2 := by
  have hr : RespectedByCalls (Act.Amid d) (Spends 0) := Spends.respected
  fun_induction edit d e s with
  | case1 e s error he => exact ⟨(nextKey_spends e.buffer s).1, fun outcome h => by cases h⟩
  | case2 e s hk ih =>
    have hn := (nextKey_spends e.buffer s).2 _ hk
    exact ⟨hn.trans ih.1, fun outcome h => hn.trans (ih.2 outcome h)⟩
  | case3 e s k hk s' outcome hp result c hc =>
    have hd := hr.conclude e outcome s'.1 s'.2
    rw [hc] at hd
    have hn := ((nextKey_spends e.buffer s).2 _ hk).trans hd
    exact ⟨hn.weaken 1, fun _ _ => hn⟩
  | case4 e s k hk s' e' request hp message c hc =>
    have hs := hr.serveWith e'.keymap request s'.1 s'.2
    rw [hc] at hs
    exact ⟨(((nextKey_spends e.buffer s).2 _ hk).trans hs).weaken 1, fun outcome h => by cases h⟩
  | case5 e s k hk s' e' request hp c hc ih =>
    have hs := hr.serveWith e'.keymap request s'.1 s'.2
    rw [hc] at hs
    have hn := ((nextKey_spends e.buffer s).2 _ hk).trans hs
    exact ⟨hn.trans ih.1, fun outcome h => hn.trans (ih.2 outcome h)⟩

theorem readLine_spends (e : Editor) (s : Keyed) :
    Spends 1 s (readLine d e s).2 ∧
      ∀ outcome, (readLine d e s).1 = .ok outcome → Spends 0 s (readLine d e s).2 := by
  have hr : RespectedByCalls (Act.Amid d) (Spends 0) := Spends.respected
  have hb := hr.act (m := .enter) (a := .entered) (by simp) ⟨.bare rfl, rfl⟩ s.1 s.2
  unfold readLine
  split
  · rename_i he
    rw [he] at hb
    exact ⟨hb.weaken 1, fun outcome h => by cases h⟩
  · rename_i c he
    rw [he] at hb
    replace hb := hb.trans (hr.keymap e.keymap c s.2)
    obtain ⟨hone, hok⟩ := edit_spends (d := d) e (c.withKeymap e.keymap, s.2)
    generalize edit d e (c.withKeymap e.keymap, s.2) = r at hone hok ⊢
    obtain ⟨result, c', keys⟩ := r
    have hl := hr.act (m := .leave) (a := .left) (by simp) ⟨.bare rfl, rfl⟩ c' keys
    dsimp only
    generalize c'.act .leave .left = left at hl
    obtain ⟨left, c''⟩ := left
    cases result with
    | error error => exact ⟨(hb.trans hone).followed hl, fun outcome h => by cases h⟩
    | ok outcome =>
      have hall := (hb.trans (hok outcome rfl)).trans hl
      cases left with
      | error message => exact ⟨hall.weaken 1, fun _ h => by cases h⟩
      | ok _ => exact ⟨hall.weaken 1, fun _ _ => hall⟩

theorem round_spends (r : Round) :
    Spends 1 r.start r.finish ∧ (r.result.isAgain = true → Spends 0 r.start r.finish) := by
  have hr : RespectedByCalls (fun a => ∃ chunk, a = .wrote chunk) (Spends 0) := Spends.respected
  have hb : Spends 0 r.start (r.start.1.begun r.hint, r.start.2) := by
    refine .of_checks ?_ r.start.2
    unfold begun ensureSettings
    split <;> rfl
  have hd := hr.drain (fun chunk => ⟨chunk, rfl⟩) r.edited.2.1 r.edited.2.2
  have hs : Spends 0 (r.edited.2.1.drain, r.edited.2.2) r.finish := by
    obtain ⟨modes, history, files, hs⟩ := settle_rest r.spec r.edited.1 r.edited.2.1.drain
    rw [r.finish_eq, hs]
    exact .of_checks rfl _
  have hf : Spends 0 r.edited.2 r.finish := hd.trans hs
  obtain ⟨hone, hok⟩ := readLine_spends (d := r.dressing) r.editor (r.start.1.begun r.hint, r.start.2)
  refine ⟨(hb.trans hone).followed hf, fun ha => ?_⟩
  obtain ⟨outcome, he⟩ := Round.edited_again ha
  exact (hb.trans (hok outcome he)).trans hf

theorem line_spends (hint : String) (s : Keyed) : Spends 1 s (cycles.line hint s).2 := by
  fun_induction Cycles.line cycles hint s with
  | case1 s text hc => exact (round_spends ⟨hint, s⟩).1
  | case2 s hc => exact (round_spends ⟨hint, s⟩).1
  | case3 s hc ih =>
    exact Spends.trans ((round_spends ⟨hint, s⟩).2 (congrArg CycleResult.isAgain hc)) ih
  | case4 s hc ih =>
    exact Spends.trans ((round_spends ⟨hint, s⟩).2 (congrArg CycleResult.isAgain hc)) ih

theorem read_spends (hint : Utf8.Bytes) (size : Int) (s : Keyed) :
    Spends 1 s (read hint size s).2 := by
  have hr : RespectedByCalls (fun a => ∃ chunk, a = .wrote chunk) (Spends 0) := Spends.respected
  rw [read_eq]
  split
  · have hl := hr.lead Spends.loads.toRespectedByLoading (fun chunk => ⟨chunk, rfl⟩) (s.1.hold true) s.2
    exact hl.trans (line_spends (cString hint) ((s.1.hold true).lead, s.2))
  · exact Spends.weaken (.of_checks rfl s.2) 1

end RConsole.Console
