import RConsole.Proofs.Callback.Keeps
import RConsole.Proofs.Callback.Moments

namespace RConsole

open Utf8 (Bytes)

namespace Visit

def Inside (around : List Slot) (v : Visit) : Prop :=
  ∀ slot, v.desk.running.has slot = around.contains slot

theorem Inside.setRunning {around : List Slot} {v : Visit} (h : v.Inside around) (slot : Slot) :
    Inside (slot :: around) (Desk.setRunning slot true v) := by
  intro other
  change (v.desk.running.set slot true).has other = _
  rw [Running.has_set, List.contains_cons, ← h other]
  by_cases he : other = slot <;> simp [he]

theorem setRunning_release {v : Visit} {slot : Slot} (h : v.desk.running.has slot = false)
    (ms : List Moment) : Desk.setRunning slot false ((Desk.setRunning slot true v).through ms) = v.through ms := by
  have hr : (v.desk.running.set slot true).set slot false = v.desk.running := by
    rw [Running.set_set, Running.set_has h]
  simp only [through, setRunning_after]
  congr 1
  change { v with desk := { v.desk with running := (v.desk.running.set slot true).set slot false } } = v
  rw [hr]

theorem serve_of_mem {α : Type} {around : List Slot} {v : Visit} (h : v.Inside around) {slot : Slot}
    (hs : around.contains slot = true) (busy closure : Visit → α × Visit) :
    Desk.serve slot busy closure v = busy v := by
  have hb : (HasDesk.desk v).running.has slot = true := (h slot).trans hs
  rw [Desk.serve, if_pos hb]

theorem serve_of_not_mem {α : Type} {around : List Slot} {v : Visit} (h : v.Inside around)
    {slot : Slot} (hs : around.contains slot = false) (busy : Visit → α × Visit)
    {closure : Visit → α × Visit} {a : α} {ms : List Moment}
    (hc : closure (Desk.setRunning slot true v) = (a, (Desk.setRunning slot true v).through ms)) :
    Desk.serve slot busy closure v = (a, v.through ms) := by
  have hb : (HasDesk.desk v).running.has slot = false := (h slot).trans hs
  rw [Desk.serve, if_neg (by simp [hb])]
  dsimp only
  rw [hc, setRunning_release hb]

end Visit

namespace Call

variable {around : List Slot} {c : Call} {v : Visit} {inner : List Moment}

theorem serve_through {α : Type} (h : v.Inside around) (c : Call)
    (hl : c.isLive v.desk.registered = true) (busy closure : Visit → α × Visit) {idle value : α}
    (hb : busy v = (idle, v.after [] c.overflow?.toList))
    (hc : closure (Desk.setRunning c.slot true v) =
      (value, ((Desk.setRunning c.slot true v).hear c.opening).through inner)) :
    Desk.serve c.slot busy closure v =
      (if c.runs v.desk.registered around then value else idle,
        v.through (c.opened v.desk.registered around inner)) := by
  cases hs : around.contains c.slot with
  | true =>
    have hr : c.runs v.desk.registered around = false := by rw [runs_eq, hs]; simp
    rw [Visit.serve_of_mem h hs, hb, opened_busy hl hs, hr]
    rfl
  | false =>
    have hr : c.runs v.desk.registered around = true := runs_of_live hl hs
    rw [← opened_runs (v := Desk.setRunning c.slot true v) hr] at hc
    rw [Visit.serve_of_not_mem h hs busy hc, hr]
    rfl

def Nested (slot : Slot) (v : Visit) (during : List Call) (inner : List Moment) : Prop :=
  ∀ heard : Heard, runAll during ((Desk.setRunning slot true v).hear heard) =
    ((Desk.setRunning slot true v).hear heard).through inner

theorem nested_of_runAll (slot : Slot) (h : v.Inside around) {during : List Call}
    (ih : ∀ w : Visit, w.Inside (slot :: around) →
      runAll during w = w.through (momentsAll w.desk.registered (slot :: around) during)) :
    Nested slot v during (momentsAll v.desk.registered (slot :: around) during) := by
  intro heard
  exact ih ((Desk.setRunning slot true v).hear heard) (h.setRunning slot)

theorem read_through (h : v.Inside around) (hint : Bytes) (size : Int) {during : List Call}
    (ends : Ended (Option String)) (hd : Nested .read v during inner) :
    (read hint size during ends).run v =
      ((read hint size during ends).reply v.desk.registered around,
        v.through ((read hint size during ends).opened v.desk.registered around inner)) := by
  have hdead : (!Desk.isRegistered .read v || decide (size ≤ 0)) =
      !(read hint size during ends).isLive v.desk.registered := by
    have hz : decide (size ≤ 0) = !decide (0 < size) := by
      by_cases h0 : 0 < size
      · rw [decide_eq_true h0, decide_eq_false (by omega)]
        rfl
      · rw [decide_eq_false h0, decide_eq_true (by omega)]
        rfl
    simp only [isLive, hasWork, slot, Desk.isRegistered, HasDesk.desk, hz, Bool.not_and]
  rw [run, Desk.read, hdead]
  cases hl : (read hint size during ends).isLive v.desk.registered with
  | false =>
    rw [opened_dead hl, reply, runs_eq, hl]
    rfl
  | true =>
    rw [Bool.not_true, if_neg Bool.false_ne_true, reply]
    refine serve_through h (read hint size during ends) hl (fun s => (Reply.untouched, s)) _
      (congrArg (Prod.mk _) v.after_nil.symm) ?_
    have he := hd (.hint (cString hint))
    cases ends with
    | returned line => exact congrArg (Prod.mk _) he
    | panicked => exact congrArg (Prod.mk _) he

theorem write_through (h : v.Inside around) (bytes : Bytes) (code : Int) {during : List Call}
    (ends : Ended Unit) (hd : Nested .write v during inner) :
    (write bytes code during ends).run v =
      ((write bytes code during ends).reply v.desk.registered around,
        v.through ((write bytes code during ends).opened v.desk.registered around inner)) := by
  have hreply : (write bytes code during ends).reply v.desk.registered around = .untouched :=
    reply_of_answer rfl v.desk.registered around
  have hdead : (!Desk.isRegistered .write v || bytes.isEmpty) =
      !(write bytes code during ends).isLive v.desk.registered := by
    simp [isLive, hasWork, slot, Desk.isRegistered, HasDesk.desk]
  rw [run, Desk.write, hdead, hreply]
  cases hl : (write bytes code during ends).isLive v.desk.registered with
  | false => rw [opened_dead hl]; rfl
  | true =>
    let chunk := Chunk.ofBytes bytes code
    have hs := serve_through h (write bytes code during ends) hl
      (fun s => ((), Desk.writeDirect chunk s)) (fun s => ((), runAll during (s.hear (.write chunk))))
      (congrArg (Prod.mk ()) (v.writeDirect_eq chunk)) (congrArg (Prod.mk ()) (hd (.write chunk)))
    exact congrArg (fun r => (Reply.untouched, r.2)) hs

theorem message_through (h : v.Inside around) (bytes : Bytes) {during : List Call}
    (ends : Ended Unit) (hd : Nested .message v during inner) :
    (message bytes during ends).run v =
      ((message bytes during ends).reply v.desk.registered around,
        v.through ((message bytes during ends).opened v.desk.registered around inner)) := by
  have hreply : (message bytes during ends).reply v.desk.registered around = .untouched :=
    reply_of_answer rfl v.desk.registered around
  have hdead : (!Desk.isRegistered .message v) =
      !(message bytes during ends).isLive v.desk.registered := by
    simp [isLive, hasWork, slot, Desk.isRegistered, HasDesk.desk]
  rw [run, Desk.message, hdead, hreply]
  cases hl : (message bytes during ends).isLive v.desk.registered with
  | false => rw [opened_dead hl]; rfl
  | true =>
    let text := cString bytes
    have hs := serve_through h (message bytes during ends) hl
      (fun s => ((), Desk.writeDirect ⟨text, .out⟩ s)) (fun s => ((), runAll during (s.hear (.message text))))
      (congrArg (Prod.mk ()) (v.writeDirect_eq ⟨text, .out⟩)) (congrArg (Prod.mk ()) (hd (.message text)))
    exact congrArg (fun r => (Reply.untouched, r.2)) hs

theorem chain_through (h : c.isLive v.desk.registered = true) {e : Ending} {during : List Call}
    {ends : Ended Unit} (hc : c = cleanUp e during ends) (ms : List Moment) :
    (v.through ms).through [.ended around c] =
      if c.runs v.desk.registered around && c.panics then v.through ms
      else v.desk.previous.elim (v.through ms) fun hook => Visit.chain hook e (v.through ms) := by
  have hm : Moment.heard? (v.through ms).desk.registered (v.through ms).desk.previous (.ended around c) =
      if !(c.runs v.desk.registered around && c.panics) && v.desk.previous = some .own then
        some (.previous e) else none := by
    subst hc
    change (if isLive v.desk.registered _ && _ && _ then _ else _) = _
    rw [h, Bool.true_and]
    rfl
  rw [Visit.through_singleton, hm]
  cases c.runs v.desk.registered around && c.panics with
  | true => exact Visit.after_nil _
  | false =>
    rcases v.desk.previous with _ | (_ | _)
    · exact Visit.after_nil _
    · exact Visit.after_nil _
    · exact (Visit.hear_eq _ _).symm

theorem cleanUp_through (h : v.Inside around) (e : Ending) {during : List Call}
    (ends : Ended Unit) (hd : Nested .cleanUp v during inner) :
    (cleanUp e during ends).run v =
      (.untouched, v.through ((cleanUp e during ends).opened v.desk.registered around inner ++
        [.ended around (cleanUp e during ends)])) := by
  have hdead : (!Desk.isRegistered .cleanUp v) = !(cleanUp e during ends).isLive v.desk.registered := by
    simp [isLive, hasWork, slot, Desk.isRegistered, HasDesk.desk]
  rw [run, Desk.cleanUp, hdead, Visit.through_append]
  cases hl : (cleanUp e during ends).isLive v.desk.registered with
  | false =>
    rw [opened_dead hl, Visit.through_singleton]
    simp [Moment.heard?, Moment.direct?, hl, Visit.after_nil]
  | true =>
    have hs := serve_through h (cleanUp e during ends) hl (fun s => (Ended.returned (), s))
      (fun s => (ends, runAll during (s.hear (.cleanUp e))))
      (congrArg (Prod.mk _) v.after_nil.symm) (congrArg (Prod.mk ends) (hd (.cleanUp e)))
    change Desk.serve .cleanUp _ _ v = _ at hs
    rw [chain_through hl rfl, Bool.not_true, if_neg Bool.false_ne_true, hs]
    have hp (ms : List Moment) : (HasDesk.desk (v.through ms)).previous = v.desk.previous := rfl
    cases hr : (cleanUp e during ends).runs v.desk.registered around with
    | false => cases hv : v.desk.previous <;> simp [hp, hv]
    | true => cases ends <;> cases hv : v.desk.previous <;> simp [hp, hv, panics]

theorem closed_through (h : c.slot ≠ .cleanUp)
    (hr : c.run v = (c.reply v.desk.registered around, v.through (c.opened v.desk.registered around inner))) :
    (c.run v).1 = c.reply v.desk.registered around ∧
      c.close around (c.run v) = v.through (c.enclose v.desk.registered around inner) := by
  refine ⟨by rw [hr], ?_⟩
  have he : c.enclose v.desk.registered around inner =
      c.opened v.desk.registered around inner ++ [.ended around c] := rfl
  rw [he, Visit.through_append, through_ended h, hr]
  rfl

-- The calls of a closure run with its flag set, so the closures around them are one more.
mutual

theorem run_through (around : List Slot) (v : Visit) (h : v.Inside around) (c : Call) :
    (c.run v).1 = c.reply v.desk.registered around ∧
      c.close around (c.run v) = v.through (c.moments v.desk.registered around) := by
  cases c with
  | read hint size during ends =>
    have hd := nested_of_runAll .read h fun w hw =>
      runAll_through (.read :: around) (List.cons_ne_nil _ _) w hw during
    rw [moments]
    exact closed_through (by simp [slot]) (read_through h hint size ends hd)
  | write bytes code during ends =>
    have hd := nested_of_runAll .write h fun w hw =>
      runAll_through (.write :: around) (List.cons_ne_nil _ _) w hw during
    rw [moments]
    exact closed_through (by simp [slot]) (write_through h bytes code ends hd)
  | message bytes during ends =>
    have hd := nested_of_runAll .message h fun w hw =>
      runAll_through (.message :: around) (List.cons_ne_nil _ _) w hw during
    rw [moments]
    exact closed_through (by simp [slot]) (message_through h bytes ends hd)
  | cleanUp e during ends =>
    have hd := nested_of_runAll .cleanUp h fun w hw =>
      runAll_through (.cleanUp :: around) (List.cons_ne_nil _ _) w hw during
    have hr := cleanUp_through h e ends hd
    rw [moments, hr, reply_of_answer rfl]
    exact ⟨rfl, rfl⟩

theorem runAll_through (around : List Slot) (hne : around ≠ []) (v : Visit) (h : v.Inside around)
    (calls : List Call) : runAll calls v = v.through (momentsAll v.desk.registered around calls) := by
  cases calls with
  | nil => simp [runAll, momentsAll, Visit.through, Visit.after_nil]
  | cons c calls =>
    rw [runAll_cons hne, (run_through around v h c).2, momentsAll, Visit.through_append]
    exact runAll_through around hne (v.through _) h calls

end

/-- A tree of calls does what its moments say, and lets go of every closure. Where a closure is
running already a call is refused or goes straight to a stream; a panic ends its own call only. -/
theorem tree_isolated (call : Call) (v : Visit) (h : v.desk.running = {}) :
    call.run v = (call.reply v.desk.registered [], v.through (call.moments v.desk.registered [])) ∧
    (call.run v).2.desk.running = {} ∧
    (∀ (around : List Slot) (c : Call), c.slot ∈ v.desk.registered → c.hasWork = true →
      if c.slot ∈ around then
        (Moment.made around c).heard? v.desk.registered v.desk.previous = none ∧
          (Moment.made around c).direct? v.desk.registered = c.overflow? ∧
          c.reply v.desk.registered around = .untouched
      else
        (Moment.made around c).heard? v.desk.registered v.desk.previous = some c.opening ∧
          (Moment.made around c).direct? v.desk.registered = none ∧
          c.reply v.desk.registered around = c.answer) ∧
    ∀ (around : List Slot) (c : Call), c.panics = true →
      (c.reply v.desk.registered around).status = 0 ∧
        ∀ before, (c.reply v.desk.registered around).buffer before = before := by
  have hin : v.Inside [] := by
    intro slot
    rw [h]
    cases slot <;> rfl
  obtain ⟨hreply, hclose⟩ := run_through [] v hin call
  have hvisit : call.close [] (call.run v) = (call.run v).2 := by cases call <;> rfl
  have hrun : call.run v =
      (call.reply v.desk.registered [], v.through (call.moments v.desk.registered [])) :=
    Prod.ext hreply (hvisit.symm.trans hclose)
  refine ⟨hrun, by rw [hrun]; exact h, ?_, ?_⟩
  · intro around c hs hw
    have hl : c.isLive v.desk.registered = true := by simp [isLive, hs, hw]
    by_cases ha : c.slot ∈ around
    · have hr : c.runs v.desk.registered around = false := by simp [runs, ha]
      simp [ha, Moment.heard?, Moment.direct?, reply, hl, hr]
    · have hr : c.runs v.desk.registered around = true := by simp [runs, hl, ha]
      simp [ha, Moment.heard?, Moment.direct?, reply, hr]
  · intro around c hp
    have ha : c.answer = .untouched := by
      rcases c with ⟨_, _, _, _ | _⟩ | _ | _ | _ <;> first | rfl | cases hp
    unfold reply
    rw [ha, ite_self]
    exact ⟨rfl, fun _ => rfl⟩

theorem tree_isolated_nested :
    let print : Call := .write [97] 0 [.write [98] 1 [] .panicked, .read [] 4 [] (.returned (some "x"))]
      .panicked
    let call : Call := .read [62] 8 [print, .message [33] [.read [] 4 [] (.returned none)] .panicked]
      (.returned (some "y"))
    let v : Visit := { desk := { registered := [.read, .write, .message] } }
    v.desk.running = {} ∧ (call.run v).1 = .wrote [121, 10, 0] ∧
      (call.run v).2.heard.toList = [.hint ">", .write ⟨"a", .out⟩, .nested .untouched, .message "!",
        .nested .untouched] ∧
      (call.run v).2.desk.direct.toList = [⟨"b", .err⟩] ∧ (call.run v).2.desk.running = {} := by
  intro print call v
  obtain ⟨hrun, hfree, -⟩ := tree_isolated call v rfl
  refine ⟨rfl, ?_, ?_, ?_, hfree⟩ <;> rw [hrun]
  · decide
  · decide +kernel
  · decide +kernel

end Call

end RConsole
