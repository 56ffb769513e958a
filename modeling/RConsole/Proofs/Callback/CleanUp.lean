import RConsole.Proofs.Callback.Nesting

namespace RConsole

def Hooks.at? (h : Hooks) : Slot → Option Hook
  | .read => h.read
  | .write => h.writeEx
  | .cleanUp => h.cleanUp
  | .message => h.message

namespace Desk

theorem bind_at? (d : Desk) (h : Hooks) (slot : Slot) :
    (d.bind h).2.at? slot = if slot ∈ d.registered then some .console else h.at? slot := by
  cases slot <;> simp [bind, Hooks.at?]

theorem bind_write (d : Desk) (h : Hooks) :
    (d.bind h).2.write = if Slot.write ∈ d.registered then none else h.write := by
  simp [bind]

theorem bind_previous {d : Desk} (hc : Slot.cleanUp ∈ d.registered) (h : Hooks) :
    (d.bind h).1 = { d with previous := h.cleanUp } := by
  simp [bind, hc]

end Desk

theorem Visit.exists_inside (v : Visit) : ∃ around, v.Inside around := by
  refine ⟨[Slot.read, .write, .cleanUp, .message].filter v.desk.running.has, ?_⟩
  intro slot
  cases h : v.desk.running.has slot <;> cases slot <;> simp [h]

namespace Call

def ending? : Call → Option Ending
  | cleanUp e _ _ => some e
  | _ => none

def chained (previous : Option Hook) (endings : List Ending) : List Heard :=
  if previous = some .own then endings.map .previous else []

theorem chained_append (previous : Option Hook) (es es' : List Ending) :
    chained previous (es ++ es') = chained previous es ++ chained previous es' := by
  unfold chained
  split
  · exact List.map_append
  · rfl

section

variable {registered around : List Slot} {previous : Option Hook} {e : Ending} {during : List Call}
  {ends : Ended Unit}

theorem runs_cleanUp_iff (hr : Slot.cleanUp ∈ registered) :
    (cleanUp e during ends).runs registered around = true ↔ Slot.cleanUp ∉ around := by
  simp [runs, isLive, hasWork, slot, hr]

theorem heard?_made_cleanUp (hr : Slot.cleanUp ∈ registered) :
    (Moment.made around (cleanUp e during ends)).heard? registered previous =
      if Slot.cleanUp ∈ around then none else some (.cleanUp e) := by
  have hruns : (cleanUp e during ends).runs registered around = true ↔ _ := runs_cleanUp_iff hr
  by_cases ha : Slot.cleanUp ∈ around
  · rw [if_pos ha, Moment.heard?, if_neg (fun hc => hruns.mp hc ha)]
  · rw [if_neg ha, Moment.heard?, if_pos (hruns.mpr ha)]
    rfl

theorem heard?_ended_cleanUp (hr : Slot.cleanUp ∈ registered) :
    (Moment.ended around (cleanUp e during ends)).heard? registered previous =
      if previous = some .own ∧ (Slot.cleanUp ∈ around ∨ (cleanUp e during ends).panics = false) then
        some (.previous e)
      else none := by
  have hruns : (cleanUp e during ends).runs registered around = true ↔ _ := runs_cleanUp_iff hr
  have hl : (cleanUp e during ends).isLive registered = true := by simp [isLive, hasWork, slot, hr]
  by_cases ha : Slot.cleanUp ∈ around
  · have hn : (cleanUp e during ends).runs registered around = false :=
      Bool.eq_false_iff.mpr fun hc => hruns.mp hc ha
    simp [Moment.heard?, hl, hn, ha]
  · simp [Moment.heard?, hl, hruns.mpr ha, ha, and_comm]

theorem heard_cleanUp (hr : Slot.cleanUp ∈ registered) :
    (moments registered around (cleanUp e during ends)).filterMap (Moment.heard? registered previous) =
      if Slot.cleanUp ∈ around then chained previous [e]
      else .cleanUp e ::
        (momentsAll registered (.cleanUp :: around) during).filterMap (Moment.heard? registered previous) ++
          chained previous (if (cleanUp e during ends).panics then [] else [e]) := by
  have hruns : (cleanUp e during ends).runs registered around = true ↔ _ := runs_cleanUp_iff hr
  have hmade : (Moment.made around (cleanUp e during ends)).heard? registered previous = _ :=
    heard?_made_cleanUp hr
  have hended : (Moment.ended around (cleanUp e during ends)).heard? registered previous = _ :=
    heard?_ended_cleanUp hr
  rw [moments, enclose]
  by_cases ha : Slot.cleanUp ∈ around
  · have hn : (cleanUp e during ends).runs registered around = false :=
      Bool.eq_false_iff.mpr fun hc => hruns.mp hc ha
    simp only [List.cons_append, List.filterMap_cons, List.filterMap_append, hmade, hended, hn, ha,
      chained]
    by_cases hp : previous = some .own <;> simp [hp]
  · have hn := hruns.mpr ha
    simp only [List.cons_append, List.filterMap_cons, List.filterMap_append, hmade, hended, hn, ha,
      chained]
    by_cases hp : previous = some .own <;> cases (cleanUp e during ends).panics <;> simp [hp]

theorem heard_nested (hr : Slot.cleanUp ∈ registered) (ha : Slot.cleanUp ∈ around)
    {calls : List Call} (h : ∀ c ∈ calls, c.slot = .cleanUp) :
    (momentsAll registered around calls).filterMap (Moment.heard? registered previous) =
      chained previous (calls.filterMap ending?) := by
  induction calls with
  | nil => simp [momentsAll, chained]
  | cons c calls ih =>
    obtain ⟨hc, hcs⟩ := List.forall_mem_cons.mp h
    cases c with
    | cleanUp e during ends =>
      rw [momentsAll, List.filterMap_append, heard_cleanUp hr, if_pos ha, ih hcs, ← chained_append]
      rfl
    | _ => cases hc

theorem direct_cleanUp :
    (moments registered around (cleanUp e during ends)).filterMap (Moment.direct? registered) =
      if (cleanUp e during ends).runs registered around then
        (momentsAll registered (.cleanUp :: around) during).filterMap (Moment.direct? registered)
      else [] := by
  rw [moments, enclose]
  split <;> simp [Moment.direct?, overflow?]

theorem direct_nested (hr : Slot.cleanUp ∈ registered) (ha : Slot.cleanUp ∈ around)
    {calls : List Call} (h : ∀ c ∈ calls, c.slot = .cleanUp) :
    (momentsAll registered around calls).filterMap (Moment.direct? registered) = [] := by
  induction calls with
  | nil => simp [momentsAll]
  | cons c calls ih =>
    obtain ⟨hc, hcs⟩ := List.forall_mem_cons.mp h
    cases c with
    | cleanUp e during ends =>
      rw [momentsAll, List.filterMap_append, direct_cleanUp,
        if_neg (fun hn => (runs_cleanUp_iff hr).mp hn ha), ih hcs]
      rfl
    | _ => cases hc

end

theorem run_cleanUp {v : Visit} (hr : Slot.cleanUp ∈ v.desk.registered)
    (hf : v.desk.running.cleanUp = false) (e : Ending) {during : List Call} (ends : Ended Unit)
    (h : ∀ c ∈ during, c.slot = .cleanUp) :
    (cleanUp e during ends).run v =
      (.untouched, v.after (.cleanUp e :: chained v.desk.previous
        (during.filterMap ending? ++ if (cleanUp e during ends).panics then [] else [e])) []) := by
  obtain ⟨around, hin⟩ := v.exists_inside
  have ha : Slot.cleanUp ∉ around := by
    have hc := hin .cleanUp
    rw [Running.has, hf] at hc
    simpa using hc.symm
  have hmem : Slot.cleanUp ∈ Slot.cleanUp :: around := List.mem_cons_self
  obtain ⟨hreply, hclose⟩ := run_through around v hin (cleanUp e during ends)
  change ((cleanUp e during ends).run v).2 = _ at hclose
  have hheard : (moments v.desk.registered around (cleanUp e during ends)).filterMap
      (Moment.heard? v.desk.registered v.desk.previous) = _ := heard_cleanUp hr
  rw [if_neg ha, heard_nested hr hmem h, List.cons_append, ← chained_append] at hheard
  have hdirect : (moments v.desk.registered around (cleanUp e during ends)).filterMap
      (Moment.direct? v.desk.registered) = _ := direct_cleanUp
  rw [direct_nested hr hmem h, ite_self] at hdirect
  refine Prod.ext (hreply.trans (reply_of_answer rfl v.desk.registered around)) ?_
  rw [hclose, Visit.through, hheard, hdirect]

/-- Binding fills the hooks of the registered callbacks, empties the plain write hook beside that of the
write callback, and leaves the others. Where the clean-up hook held nothing or a function of R's own,
calls inside calls run the closure of a clean-up only when it is not running, and run R's own clean-up
once for each call when that call ends, unless its closure panicked; then no closure is running. -/
theorem clean_up_chained (d : Desk) (h : Hooks) :
    (∀ slot, (d.bind h).2.at? slot = if slot ∈ d.registered then some .console else h.at? slot) ∧
    (d.bind h).2.write = (if Slot.write ∈ d.registered then none else h.write) ∧
    ∀ (own : Bool) (heard : Array Heard), d.running = {} → Slot.cleanUp ∈ d.registered →
      h.cleanUp = (if own then some .own else none) →
      let v : Visit := ⟨(d.bind h).1, heard⟩
      (∀ (e : Ending) (during : List Call) (ends : Ended Unit), (∀ c ∈ during, c.slot = .cleanUp) →
        let endings := during.filterMap ending? ++ if (cleanUp e during ends).panics then [] else [e]
        let r := (cleanUp e during ends).run v
        r.1 = .untouched ∧ r.2.desk = v.desk ∧
          r.2.heard.toList =
            heard.toList ++ .cleanUp e :: if own then endings.map .previous else []) ∧
      (∀ call : Call, (call.run v).2.desk.running = {} ∧
        (call.run v).2.heard.toList = heard.toList ++
          (call.moments d.registered []).filterMap (Moment.heard? d.registered h.cleanUp)) ∧
      ∀ (around : List Slot) (e : Ending) (during : List Call) (ends : Ended Unit),
        let c := cleanUp e during ends
        (Moment.made around c).heard? d.registered h.cleanUp =
          (if Slot.cleanUp ∈ around then none else some (.cleanUp e)) ∧
        (Moment.ended around c).heard? d.registered h.cleanUp =
          if own = true ∧ (Slot.cleanUp ∈ around ∨ c.panics = false) then some (.previous e)
          else none := by
  refine ⟨d.bind_at? h, d.bind_write h, ?_⟩
  intro own heard hd hc ho v
  have hv : v = ⟨{ d with previous := h.cleanUp }, heard⟩ := by
    rw [← Desk.bind_previous hc h]
  have hown : h.cleanUp = some .own ↔ own = true := by
    rw [ho]
    cases own <;> simp
  refine ⟨?_, ?_, ?_⟩
  · intro e during ends hs endings r
    have hr : r = _ := run_cleanUp (by rw [hv]; exact hc) (by rw [hv]; simp [hd]) e ends hs
    refine ⟨by rw [hr], by rw [hr]; simp [Visit.after], ?_⟩
    rw [hr, hv]
    simp only [Visit.after, Array.toList_append, chained, hown]
    rfl
  · intro call
    have hin : v.Inside [] := by
      intro slot
      rw [hv]
      change d.running.has slot = _
      rw [hd]
      cases slot <;> rfl
    have hvisit : call.close [] (call.run v) = (call.run v).2 := by cases call <;> rfl
    have hrun := hvisit.symm.trans (run_through [] v hin call).2
    rw [hrun, hv]
    refine ⟨hd, ?_⟩
    simp [Visit.through, Visit.after]
  · intro around e during ends c
    refine ⟨heard?_made_cleanUp hc, ?_⟩
    rw [heard?_ended_cleanUp hc]
    simp only [hown]
    rfl

theorem clean_up_chained_panicking :
    let d : Desk := { registered := [.write, .cleanUp] }
    let h : Hooks := { write := some .own, cleanUp := some .own }
    let during : List Call := [.cleanUp ⟨1, 8, 0⟩ [] .panicked,
      .cleanUp ⟨3, 9, 0⟩ [.cleanUp ⟨4, 0, 0⟩ [] (.returned ())] (.returned ())]
    let r := (cleanUp ⟨2, 7, 1⟩ during .panicked).run ⟨(d.bind h).1, #[]⟩
    (d.bind h).2 = { writeEx := some .console, cleanUp := some .console } ∧ d.running = {} ∧
      h.cleanUp = some .own ∧ (∀ c ∈ during, c.slot = .cleanUp) ∧ r.2.desk = (d.bind h).1 ∧
      r.2.heard.toList = [.cleanUp ⟨2, 7, 1⟩, .previous ⟨1, 8, 0⟩, .previous ⟨3, 9, 0⟩] := by
  intro d h during r
  have hs : ∀ c ∈ during, c.slot = .cleanUp := by simp [during, slot]
  obtain ⟨hcleanUps, -⟩ := (clean_up_chained d h).2.2 true #[] rfl (by decide) rfl
  obtain ⟨-, hdesk, hheard⟩ := hcleanUps ⟨2, 7, 1⟩ during .panicked hs
  exact ⟨by decide, rfl, rfl, hs, hdesk, hheard⟩

end Call

end RConsole
