import RConsole.Proofs.Console.Interleaving

namespace RConsole

theorem Act.chunks_map {shown : Chunk → Act} (h : ∀ chunk, (shown chunk).chunk? = some chunk)
    (chunks : List Chunk) : (chunks.map shown).filterMap chunk? = chunks := by
  induction chunks with
  | nil => rfl
  | cons chunk chunks ih => rw [List.map_cons, List.filterMap_cons_some (h chunk), ih]

def Terminal.Mute (t : Terminal) : Prop := ∀ f ∈ t.faults, f.writes = none

instance (t : Terminal) : Decidable t.Mute := inferInstanceAs (Decidable (∀ f ∈ t.faults, f.writes = none))

namespace Console

variable {c : Console} {s t : Keyed} {frame : Frame} {chunks : List Chunk} {message : String}
  {d : Dressing}

theorem check_failed {before after : List Chunk} {bad : Chunk}
    (hq : s.1.queue = before ++ bad :: after)
    (hb : (interleave frame before { s.1 with queue := [] }).1 = .ok ())
    (hf : ((interleave frame before { s.1 with queue := [] }).2.act .interleave
      (.interleaved bad frame)).1 = .error message) :
    check frame s = (.failed message, ((interleave frame before { s.1 with queue := [] }).2.act
      .interleave (.interleaved bad frame)).2, s.2) := by
  have hi := interleave_append hb (bad :: after)
  rw [interleave_error hf] at hi
  rw [check, hq, hi]

theorem wait_failed (h : WaitChecks frame s t) (hf : (check frame t).1 = .failed message)
    (stats : WaitStats) :
    (pump frame).waitFrom stats s = (.error message, (check frame t).2) := by
  induction h generalizing stats with
  | first s => exact (pump frame).waitFrom_of_failed stats hf
  | later hn _ ih =>
    rw [(pump frame).waitFrom_of_notReady stats hn]
    exact ih hf _

theorem nextKey_failed (hr : (s.1.act .render (.rendered frame)).1 = .ok ())
    (hw : (pump frame).wait ((s.1.act .render (.rendered frame)).2, s.2) = (.error message, t)) :
    nextKey frame s = (.error (.failed message), t) := by
  have ha : s.1.act .render (.rendered frame) = (.ok (), (s.1.act .render (.rendered frame)).2) :=
    Prod.ext hr rfl
  rw [nextKey, ha]
  dsimp only
  rw [hw]

theorem readLine_failed {e : Editor} (h : (s.1.act .enter .entered).1 = .ok ())
    (he : edit d e ((s.1.act .enter .entered).2.withKeymap e.keymap, s.2) =
      (.error (.failed message), t)) :
    readLine d e s = (.error (.failed message), (t.1.act .leave .left).2, t.2) := by
  have ha : s.1.act .enter .entered = (.ok (), (s.1.act .enter .entered).2) := Prod.ext h rfl
  rw [readLine, ha]
  dsimp only
  rw [he]

theorem edit_failed {e : Editor} (h : EditChecks d e s frame t)
    (hf : (check frame t).1 = .failed message) :
    edit d e s = (.error (.failed message), (check frame t).2) := by
  -- Every key and every redraw on the way to the failing check was served.
  induction h with
  | wait hr ht =>
    have hk := nextKey_failed hr (wait_failed ht hf {})
    rw [edit_of_error (congrArg Prod.fst hk), hk]
  | redraw hk _ ih =>
    rw [edit_of_redraw hk]
    exact ih hf
  | key hk hp hs _ ih =>
    rw [edit_of_served hk hp hs]
    exact ih hf

theorem Round.edited_failed {r : Round} (h : r.Checks frame t)
    (hf : (check frame t).1 = .failed message) :
    r.edited = (.error (.failed message), ((check frame t).2.1.act .leave .left).2,
      (check frame t).2.2) := by
  have hedit := edit_failed h.edits hf
  exact readLine_failed h.enters hedit

theorem Round.finish_lost {r : Round} (h : r.Checks frame t)
    (hf : (check frame t).1 = .failed message) :
    r.result = .endOfInput ∧
      r.finish = (((check frame t).2.1.act .leave .left).2.drain, (check frame t).2.2) := by
  have hedited := r.edited_failed h hf
  refine ⟨r.result_failed (congrArg Prod.fst hedited), ?_⟩
  rw [r.finish_failed (congrArg Prod.fst hedited), hedited]

theorem acts_print (c : Console) (chunk : Chunk) :
    (c.print chunk).acts = c.acts ∨ (c.print chunk).acts = c.acts ++ [.wrote chunk] := by
  cases h : (c.act .write (.wrote chunk)).1 with
  | ok _ => exact .inr (acts_act_ok h)
  | error message => exact .inl (acts_act_error h)

theorem acts_foldl_print (chunks : List Chunk) (c : Console) :
    ∃ late : List Chunk, late.Sublist chunks ∧
      (chunks.foldl (fun c chunk => c.print chunk) c).acts = c.acts ++ late.map .wrote := by
  induction chunks generalizing c with
  | nil => exact ⟨[], .slnil, (List.append_nil _).symm⟩
  | cons chunk chunks ih =>
    obtain ⟨late, hs, ha⟩ := ih (c.print chunk)
    rw [List.foldl_cons, ha]
    rcases acts_print c chunk with hc | hc
    · exact ⟨late, hs.cons chunk, by rw [hc]⟩
    · refine ⟨chunk :: late, hs.cons_cons chunk, ?_⟩
      rw [hc, List.append_assoc, List.map_cons, List.singleton_append]

theorem acts_drain (c : Console) :
    ∃ late : List Chunk, late.Sublist c.queue ∧ c.drain.acts = c.acts ++ late.map .wrote :=
  acts_foldl_print c.queue { c with queue := [] }

theorem leave_acts (c : Console) :
    ∃ left, left.filterMap Act.chunk? = [] ∧ (c.act .leave .left).2.acts = c.acts ++ left := by
  cases hc : (c.act .leave .left).1 with
  | ok _ => exact ⟨[.left], rfl, acts_act_ok hc⟩
  | error message => exact ⟨[], rfl, by rw [acts_act_error hc, List.append_nil]⟩

theorem strike_mute {faults : List Fault} (h : ∀ f ∈ faults, f.writes = none) (c : Console) :
    (strike faults c).2 = c := by
  induction faults with
  | nil => rfl
  | cons f faults ih =>
    obtain ⟨hw, hr⟩ := List.forall_mem_cons.mp h
    unfold strike
    rw [hw]
    cases f.fails with
    | some message => rfl
    | none => exact ih hr

theorem act_mute (h : c.terminal.Mute) (method : Method) (a : Act) :
    (c.act method a).2.queue = c.queue ∧ (c.act method a).2.terminal.Mute := by
  have hc : (c.call method).2 = { c with terminal := c.terminal.count method } := by
    apply strike_mute
    intro f hf
    exact h f (List.mem_filter.mp hf).1
  unfold act
  split
  · rename_i he
    rw [he] at hc
    cases hc
    exact ⟨rfl, h⟩
  · rename_i he
    rw [he] at hc
    cases hc
    exact ⟨rfl, h⟩

theorem interleave_mute (h : c.terminal.Mute) (frame : Frame) (chunks : List Chunk) :
    (interleave frame chunks c).2.queue = c.queue ∧ (interleave frame chunks c).2.terminal.Mute := by
  induction chunks generalizing c with
  | nil => exact ⟨rfl, h⟩
  | cons chunk chunks ih =>
    obtain ⟨hq, hm⟩ := act_mute h .interleave (.interleaved chunk frame)
    cases hc : (c.act .interleave (.interleaved chunk frame)).1 with
    | ok _ =>
      rw [interleave_ok hc, ← hq]
      exact ih hm
    | error message =>
      rw [interleave_error hc]
      exact ⟨hq, hm⟩

theorem foldl_print_mute (h : c.terminal.Mute) (chunks : List Chunk) :
    (chunks.foldl (fun c chunk => c.print chunk) c).queue = c.queue := by
  induction chunks generalizing c with
  | nil => rfl
  | cons chunk chunks ih =>
    have hp : (c.print chunk).queue = c.queue ∧ (c.print chunk).terminal.Mute :=
      act_mute h .write (.wrote chunk)
    rw [List.foldl_cons, ih hp.2, hp.1]

theorem drain_mute (h : c.terminal.Mute) : c.drain.queue = [] := by
  apply foldl_print_mute
  exact h

def handed (c c' : Console) : List Chunk := (since c c').filterMap Act.chunk?

theorem handed_of_acts {c c' : Console} {before late : List Chunk} {left : List Act}
    (hl : left.filterMap Act.chunk? = [])
    (h : c'.acts = c.acts ++ before.map (.interleaved · frame) ++ left ++ late.map .wrote) :
    handed c c' = before ++ late := by
  have hs : since c c' = before.map (.interleaved · frame) ++ left ++ late.map .wrote := by
    apply since_of_acts
    rw [h, List.append_assoc, List.append_assoc, List.append_assoc]
  rw [handed, hs, List.filterMap_append, List.filterMap_append, hl, List.append_nil,
    Act.chunks_map fun _ => rfl, Act.chunks_map fun _ => rfl]

/-- The queue was emptied before its first chunk was printed. -/
theorem rest_of_batch_lost (r : Round) (frame : Frame) (t : Keyed) (ht : r.Checks frame t)
    (before after : List Chunk) (bad : Chunk) (hq : t.1.queue = before ++ bad :: after)
    (hb : (interleave frame before { t.1 with queue := [] }).1 = .ok ()) (message : String)
    (hf : ((interleave frame before { t.1 with queue := [] }).2.act .interleave
      (.interleaved bad frame)).1 = .error message) :
    r.result = .endOfInput ∧ r.finish.2 = t.2 ∧
      (∃ late, handed t.1 r.finish.1 = before ++ late ∧
        late.Sublist ((check frame t).2.1.act .leave .left).2.queue) ∧
      (t.1.terminal.Mute → r.finish.1.queue = [] ∧ handed t.1 r.finish.1 = before ∧
        (handed t.1 r.finish.1 = before ++ after ↔ after = [])) := by
  have hcheck := check_failed hq hb hf
  obtain ⟨hresult, hfinish⟩ := Round.finish_lost ht (congrArg Prod.fst hcheck)
  have hacts : (check frame t).2.1.acts = t.1.acts ++ before.map (.interleaved · frame) := by
    rw [hcheck]
    exact (acts_act_error hf).trans (acts_interleave hb)
  obtain ⟨left, hnone, hleft⟩ := leave_acts (check frame t).2.1
  obtain ⟨late, hsub, hdrain⟩ := acts_drain ((check frame t).2.1.act .leave .left).2
  have hhanded : handed t.1 r.finish.1 = before ++ late := by
    apply handed_of_acts hnone
    rw [hfinish, hdrain, hleft, hacts]
  refine ⟨hresult, ?_, ⟨late, hhanded, hsub⟩, ?_⟩
  · rw [hfinish, hcheck]
  · intro hmute
    obtain ⟨hqc, hmc⟩ : (check frame t).2.1.queue = [] ∧ (check frame t).2.1.terminal.Mute := by
      obtain ⟨hqi, hmi⟩ := interleave_mute (c := { t.1 with queue := [] }) hmute frame before
      obtain ⟨hqb, hmb⟩ := act_mute hmi .interleave (.interleaved bad frame)
      rw [hcheck]
      exact ⟨hqb.trans hqi, hmb⟩
    obtain ⟨hql, hml⟩ := act_mute hmc .leave .left
    rw [hql, hqc] at hsub
    -- Nothing was queued after the batch was taken, so nothing is left to print.
    cases List.sublist_nil.mp hsub
    rw [List.append_nil] at hhanded
    refine ⟨?_, hhanded, ?_⟩
    · rw [hfinish]
      exact drain_mute hml
    · rw [hhanded]
      constructor
      · intro he
        exact List.append_right_eq_self.mp he.symm
      · rintro rfl
        rw [List.append_nil]

theorem rest_of_batch_lost_last :
    let s : Keyed := ({ eventfulPrompt.1 with
      engine := eventfulPrompt.1.engine.plan [[.write [0x61] 0, .write [0x62] 0]]
      terminal := { faults := [⟨.interleave, 1, none, some "gone"⟩] } },
      [.idle 1, .key ⟨.enter, {}⟩])
    let r : Round := ⟨"> ", (s.1.hold true).lead, s.2⟩
    let t := ((pump r.picture).step (check r.picture r.drawn).2).2
    r.Checks r.picture t ∧ t.1.queue = [⟨"a", .out⟩] ++ ⟨"b", .out⟩ :: [] ∧ r.result = .endOfInput ∧
      r.finish.1.queue = [] ∧ handed t.1 r.finish.1 = [⟨"a", .out⟩] := by
  intro s r t
  have ht : r.Checks r.picture t :=
    Round.checks_second (by decide +kernel) (by decide +kernel) (by decide +kernel)
  have hq : t.1.queue = [⟨"a", .out⟩] ++ ⟨"b", .out⟩ :: [] := by decide +kernel
  have hmute : t.1.terminal.Mute := by decide +kernel
  obtain ⟨hend, -, -, hrest⟩ := rest_of_batch_lost r r.picture t ht _ _ _ hq (by decide +kernel) "gone"
    (by decide +kernel)
  obtain ⟨hqueue, hhanded, -⟩ := hrest hmute
  exact ⟨ht, hq, hend, hqueue, hhanded⟩

theorem rest_of_batch_lost_first :
    let s : Keyed := ({ eventfulPrompt.1 with
      engine := eventfulPrompt.1.engine.plan [[.write [0x61] 0, .write [0x62] 0]]
      terminal := { faults := [⟨.interleave, 0, none, some "gone"⟩] } },
      [.idle 1, .key ⟨.enter, {}⟩])
    let r : Round := ⟨"> ", (s.1.hold true).lead, s.2⟩
    let t := ((pump r.picture).step (check r.picture r.drawn).2).2
    (Turn.read [0x3E, 0x20] 80).rounds s = [r] ∧ r.Checks r.picture t ∧
      t.1.queue = [⟨"a", .out⟩, ⟨"b", .out⟩] ∧
      (act .interleave (.interleaved ⟨"a", .out⟩ r.picture) { t.1 with queue := [] }).1 = .error "gone" ∧
      handed t.1 r.finish.1 = [] ∧ r.finish.1.queue = [] := by
  intro s r t
  have hr : (Turn.read [0x3E, 0x20] 80).rounds s = [r] := by
    have ha : s.1.admits 80 = true := by decide +kernel
    have hh : cString [0x3E, 0x20] = r.hint := by decide +kernel
    rw [Turn.rounds_read ha hh rfl]
    exact rounds_last (by decide +kernel)
  have ht : r.Checks r.picture t :=
    Round.checks_second (by decide +kernel) (by decide +kernel) (by decide +kernel)
  exact ⟨hr, ht, by decide +kernel, by decide +kernel, by decide +kernel, by decide +kernel⟩

end Console

end RConsole
