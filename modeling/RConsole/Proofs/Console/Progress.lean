import RConsole.Proofs.Console.Budget
import RConsole.Proofs.Edit.Pressing

namespace RConsole

namespace Input

theorem keys_poll (steps : List Input) : keys (poll steps).2 = keys steps := by
  unfold keys
  rcases poll_cases steps with ⟨rest, hp, ha⟩ | ⟨rest, hp, ha, -⟩
  · rw [hp, ha]
    rfl
  · rw [hp, ha]

theorem keys_next {steps rest : List Input} {k : Option Key} (h : next? steps = some (k, rest)) :
    keys steps = k :: keys rest := by
  fun_induction next? steps with
  | case1 => cases h
  | case2 k rest => cases h; rfl
  | case3 rest => cases h; rfl
  | case4 n rest ih =>
    have hi := ih h
    unfold keys at hi ⊢
    rw [answers, List.filterMap_append, hi]
    simp [Answer.key?]

end Input

namespace Console

def since (c c' : Console) : List Act := c'.acts.drop c.acts.length

structure Reads (new : List (Option Key)) (s t : Keyed) : Prop where
  acts : ∃ acts, t.1.acts = s.1.acts ++ acts ∧ acts.filterMap Act.key? = new
  keys : Input.keys s.2 = new ++ Input.keys t.2

def Leaves (frame : Frame) (s t : Keyed) : Prop :=
  ∃ acts, t.1.acts = s.1.acts ++ acts ∧ (acts.filterMap Act.finished?).getLast? = some frame

variable {new new' : List (Option Key)} {s t u : Keyed} {c c' : Console} {keys : List Input}
  {P : Act → Prop} {d : Dressing} {frame : Frame}

theorem since_of_acts {acts : List Act} (h : c'.acts = c.acts ++ acts) : since c c' = acts := by
  rw [since, h, List.drop_left]

namespace Reads

theorem refl (s : Keyed) : Reads [] s s := ⟨⟨[], by simp, rfl⟩, rfl⟩

theorem trans (h : Reads new s t) (h' : Reads new' t u) : Reads (new ++ new') s u := by
  obtain ⟨⟨acts, ha, hn⟩, hk⟩ := h
  obtain ⟨⟨acts', ha', hn'⟩, hk'⟩ := h'
  refine ⟨⟨acts ++ acts', by rw [ha', ha, List.append_assoc], ?_⟩, ?_⟩
  · rw [List.filterMap_append, hn, hn']
  · rw [hk, hk', List.append_assoc]

theorem adds (h : Reads new s t) : Adds (fun _ => True) s.1 t.1 := by
  obtain ⟨acts, ha, -⟩ := h.acts
  exact ⟨acts, ha, fun _ _ => trivial⟩

theorem all (h : Reads new s t) {P : Key → Prop} (hs : ∀ k, some k ∈ Input.keys s.2 → P k) :
    (∀ k, some k ∈ new → P k) ∧ ∀ k, some k ∈ Input.keys t.2 → P k := by
  rw [h.keys] at hs
  exact ⟨fun k hk => hs k (List.mem_append_left _ hk), fun k hk => hs k (List.mem_append_right _ hk)⟩

theorem of_acts (ha : c'.acts = c.acts) {keys' : List Input}
    (hk : Input.keys keys' = Input.keys keys) : Reads [] (c, keys) (c', keys') :=
  ⟨⟨[], by simp [ha], rfl⟩, hk.symm⟩

theorem performed {a : Act} (ha : a.key? = none) (c : Console) (keys : List Input) :
    Reads [] (c, keys) (c.perform a, keys) :=
  ⟨⟨[a], by simp [Console.acts, Console.perform, Terminal.perform], by simp [ha]⟩, rfl⟩

theorem typed {rest : List Input} {k : Option Key} (h : Input.next? keys = some (k, rest))
    (c : Console) : Reads [k] (c, keys) (c.perform (.keyed k), rest) :=
  ⟨⟨[.keyed k], by simp [Console.acts, Console.perform, Terminal.perform], rfl⟩, Input.keys_next h⟩

theorem respected (hp : ∀ a, P a → a.key? = none) : RespectedByWaits P (Reads []) where
  refl := refl
  trans := trans
  call _ c _ := of_acts (acts_call _ c) rfl
  perform ha c keys := performed (hp _ ha) c keys
  unqueue _ _ := by apply of_acts <;> rfl
  keymap _ _ _ := by apply of_acts <;> rfl
  ready c _ := of_acts (acts_call _ c) rfl
  poll _ keys := of_acts rfl (Input.keys_poll keys)
  step c _ := of_acts (congrArg (·.acts.toList) (terminal_eventStep c)) rfl

theorem respected_keys (hp : ∀ a, P a → a.key? = none) :
    RespectedByKeys P fun s t => ∃ new, Reads new s t where
  refl s := ⟨[], refl s⟩
  trans := fun ⟨_, h⟩ ⟨_, h'⟩ => ⟨_, h.trans h'⟩
  call hm c keys := ⟨[], (respected hp).call hm c keys⟩
  perform ha c keys := ⟨[], (respected hp).perform ha c keys⟩
  unqueue c keys := ⟨[], (respected hp).unqueue c keys⟩
  ready c keys := ⟨[], (respected hp).ready c keys⟩
  poll c keys := ⟨[], (respected hp).poll c keys⟩
  step c keys := ⟨[], (respected hp).step c keys⟩
  typed h c := ⟨_, typed h c⟩
  keymap m c keys := ⟨[], (respected hp).keymap m c keys⟩

theorem loads : RespectedByLoads (Reads []) where
  desk _ _ _ := by apply of_acts <;> rfl
  modes _ _ _ := by apply of_acts <;> rfl
  loaded _ _ _ _ _ := by apply of_acts <;> rfl

end Reads

namespace Leaves

theorem after (ha : Adds P s.1 t.1) (h : Leaves frame t u) : Leaves frame s u := by
  obtain ⟨acts, he, -⟩ := ha
  obtain ⟨acts', he', hf⟩ := h
  refine ⟨acts ++ acts', by rw [he', he, List.append_assoc], ?_⟩
  rw [List.filterMap_append, List.getLast?_append, hf, Option.some_or]

theorem before (h : Leaves frame s t) (ha : Adds (fun a => a.finished? = none) t.1 u.1) :
    Leaves frame s u := by
  obtain ⟨acts, he, hf⟩ := h
  obtain ⟨acts', he', hn⟩ := ha
  refine ⟨acts ++ acts', by rw [he', he, List.append_assoc], ?_⟩
  rw [List.filterMap_append, List.filterMap_eq_nil_iff.mpr hn, List.append_nil, hf]

end Leaves

theorem nextKey_reads {b : Buffer} {k : Option Key} (h : (nextKey (d.frame b) s).1 = .ok k) :
    Reads [k] s (nextKey (d.frame b) s).2 := by
  have hw : RespectedByWaits (Act.Waiting d) (Reads []) := Reads.respected fun _ ha => ha.amid.2
  have hr := hw.act (m := .render) (by simp) (.rendered b) s.1 s.2
  unfold nextKey at h ⊢
  split at h
  · cases h
  · rename_i c he
    rw [he] at hr
    have ha := hr.trans (hw.wait b (c, s.2))
    split at h
    · cases h
    · rename_i t hp
      rw [hp] at ha
      have hc := ha.trans (hw.call (m := .readKey) (by simp) t.1 t.2)
      split at h
      · cases h
      · rename_i hc'
        rw [hc'] at hc
        split at h
        · cases h
        · rename_i hn
          cases h
          exact hc.trans (.typed hn _)

theorem act_ok {method : Method} {a : Act} (h : c.act method a = (.ok (), c')) :
    c'.acts = c.acts ++ [a] := by
  have hc := acts_call method c
  unfold act at h
  split at h
  · rename_i he
    rw [he] at hc
    cases h
    simp only [acts, perform, Terminal.perform, Array.toList_push] at hc ⊢
    rw [hc]
  · cases h

theorem conclude_leaves {e : Editor} {outcome outcome' : Outcome}
    (h : (c.conclude d e outcome).1 = .ok outcome') (keys : List Input) :
    outcome' = outcome ∧ (outcome.leavesPicture = true →
      Leaves (d.lastFrame e.buffer) (c, keys) ((c.conclude d e outcome).2, keys)) := by
  unfold conclude at h ⊢
  split at h
  · rename_i hl
    split at h
    · rename_i c' he
      cases h
      rw [if_pos hl]
      exact ⟨rfl, fun _ => ⟨[.finished (d.lastFrame e.buffer)], act_ok he, rfl⟩⟩
    · cases h
  · rename_i hl
    cases h
    exact ⟨rfl, fun hp => absurd hp hl⟩

/-- What ends a cycle: the last key that it read, on the text that the keys before it made. -/
def EndsBy (d : Dressing) (e : Editor) (outcome : Outcome) (s t : Keyed) : Prop :=
  ∃ front k e', e.after front = some e' ∧ e'.press k = .done outcome ∧
    Reads (front ++ [some k]) s t ∧
    (outcome.leavesPicture = true → Leaves (d.lastFrame e'.buffer) s t)

theorem adds_all : RespectedByKeys P fun s t => Adds (fun _ => True) s.1 t.1 :=
  adds_respected (fun _ _ => trivial) fun _ => trivial

theorem edit_ends {e : Editor} {outcome : Outcome} (h : (edit d e s).1 = .ok outcome) :
    EndsBy d e outcome s (edit d e s).2 := by
  have hw : RespectedByWaits (Act.Amid d) (Reads []) := Reads.respected fun _ ha => ha.2
  have hall : RespectedByKeys (Act.Amid d) fun s t => Adds (fun _ => True) s.1 t.1 := adds_all
  fun_induction edit d e s with
  | case1 e s error he => cases h
  | case2 e s hk ih =>
    obtain ⟨front, k, e', ha, hp, hr, hl⟩ := ih h
    refine ⟨none :: front, k, e', ha, hp, (nextKey_reads hk).trans hr, fun hpic => ?_⟩
    exact (hl hpic).after (hall.amid.nextKey e.buffer s)
  | case3 e s k hk s' outcome' hp result c hc =>
    have hd := hw.conclude e outcome' s'.1 s'.2
    have hcl := conclude_leaves (show (s'.1.conclude d e outcome').1 = .ok outcome by
      rw [hc]; exact h) s'.2
    rw [hc] at hd hcl
    obtain ⟨rfl, hl⟩ := hcl
    refine ⟨[], k, e, rfl, hp, (nextKey_reads hk).trans hd, fun hpic => ?_⟩
    exact (hl hpic).after (hall.amid.nextKey e.buffer s)
  | case4 e s k hk s' e' request hp message c hc => cases h
  | case5 e s k hk s' e' request hp c hc ih =>
    obtain ⟨front, k', e'', ha, hp', hr, hl⟩ := ih h
    have hs := hw.serveWith e'.keymap request s'.1 s'.2
    have hsa := hall.serveWith e'.keymap request s'.1 s'.2
    rw [hc] at hs hsa
    refine ⟨some k :: front, k', e'', ?_, hp', (nextKey_reads hk).trans (hs.trans hr), ?_⟩
    · rw [Editor.after, hp]
      exact ha
    · intro hpic
      exact ((hl hpic).after hsa).after (hall.amid.nextKey e.buffer s)

theorem readLine_ends {e : Editor} {outcome : Outcome} (h : (readLine d e s).1 = .ok outcome) :
    EndsBy d e outcome s (readLine d e s).2 := by
  have hw : RespectedByWaits (Act.Amid d) (Reads []) := Reads.respected fun _ ha => ha.2
  have hb := hw.act (m := .enter) (a := .entered) (by simp) ⟨.bare rfl, rfl⟩ s.1 s.2
  unfold readLine at h ⊢
  split at h
  · cases h
  · rename_i c he
    have hba : Adds (fun _ => True) s.1 c := ⟨_, act_ok he, fun _ _ => trivial⟩
    rw [he] at hb
    replace hb := hb.trans (hw.keymap e.keymap c s.2)
    have hed (h : (edit d e (c.withKeymap e.keymap, s.2)).1 = .ok outcome) := edit_ends h
    dsimp only at h ⊢
    generalize edit d e (c.withKeymap e.keymap, s.2) = r at h hed ⊢
    obtain ⟨result, c', keys⟩ := r
    have hleft := hw.act (m := .leave) (a := .left) (by simp) ⟨.bare rfl, rfl⟩ c' keys
    have hla : Adds (fun a => a.finished? = none) c' (c'.act .leave .left).2 :=
      (adds_respected (P := fun a => a = .left) (fun a ha => by rw [ha]; rfl) fun _ => rfl).act
        (by simp) rfl c' keys
    cases result with
    | error error => cases h
    | ok outcome' =>
      dsimp only at h ⊢
      generalize c'.act .leave .left = left at h hleft hla ⊢
      obtain ⟨left, c''⟩ := left
      cases left with
      | error message => cases h
      | ok _ =>
        cases h
        obtain ⟨front, k, e', ha, hp, hr, hl⟩ := hed rfl
        refine ⟨front, k, e', ha, hp, ?_, fun hpic => ?_⟩
        · have hall := (hb.trans hr).trans hleft
          rw [List.append_nil] at hall
          exact hall
        · exact (Leaves.after (s := s) hba (hl hpic)).before hla

theorem acts_begun (hint : String) (c : Console) : (c.begun hint).acts = c.acts := by
  unfold begun ensureSettings
  split <;> rfl

namespace Round

def typed (r : Round) : List (Option Key) := (since r.start.1 r.finish.1).filterMap Act.key?

theorem typed_of_reads {r : Round} (h : Reads new r.start r.finish) : r.typed = new := by
  obtain ⟨acts, ha, hn⟩ := h.acts
  rw [typed, since_of_acts ha, hn]

theorem settled (r : Round) :
    Reads [] r.edited.2 r.finish ∧ Adds (fun a => a.finished? = none) r.edited.2.1 r.finish.1 := by
  have hp : RespectedByWaits (fun a => ∃ chunk, a = .wrote chunk) (Reads []) :=
    Reads.respected fun a ⟨_, ha⟩ => by rw [ha]; rfl
  have hf : RespectedByKeys (fun a => ∃ chunk, a = .wrote chunk)
      fun s t => Adds (fun a => a.finished? = none) s.1 t.1 :=
    adds_respected (fun a ⟨_, ha⟩ => by rw [ha]; rfl) fun _ => rfl
  have hs := acts_settle r.spec r.edited.1 r.edited.2.1.drain
  have hd := hf.drain (fun chunk => ⟨chunk, rfl⟩) r.edited.2.1 r.edited.2.2
  rw [finish_eq]
  refine ⟨?_, hd.trans (.of_acts hs)⟩
  exact (hp.drain (fun chunk => ⟨chunk, rfl⟩) r.edited.2.1 r.edited.2.2).trans (.of_acts hs rfl)

theorem reads (r : Round) : Reads r.typed r.start r.finish := by
  have hk : RespectedByKeys (Act.Amid r.dressing) fun s t => ∃ new, Reads new s t :=
    Reads.respected_keys fun _ ha => ha.2
  have hb : Reads [] r.start (r.start.1.begun r.hint, r.start.2) := .of_acts (acts_begun _ _) rfl
  obtain ⟨new, hr⟩ := hk.readLine r.editor (r.start.1.begun r.hint, r.start.2)
  have ha := (hb.trans hr).trans r.settled.1
  rw [typed_of_reads ha]
  exact ha

theorem ends {r : Round} {outcome : Outcome} (h : r.edited.1 = .ok outcome) :
    ∃ front k e, r.editor.after front = some e ∧ e.press k = .done outcome ∧
      r.typed = front ++ [some k] ∧ (outcome.leavesPicture = true →
        Leaves (r.dressing.lastFrame e.buffer) r.start r.finish) := by
  obtain ⟨front, k, e, ha, hp, hr, hl⟩ := readLine_ends h
  have hb : Reads [] r.start (r.start.1.begun r.hint, r.start.2) := .of_acts (acts_begun _ _) rfl
  refine ⟨front, k, e, ha, hp, ?_, fun hpic => ?_⟩
  · have hall := (hb.trans hr).trans r.settled.1
    rw [List.append_nil] at hall
    exact typed_of_reads hall
  · have hba : Adds (fun _ => True) r.start.1 (r.start.1.begun r.hint) := .of_acts (acts_begun _ _)
    exact (Leaves.after (s := r.start) hba (hl hpic)).before r.settled.2

end Round

theorem line_reads (hint : String) (s : Keyed) :
    Reads ((rounds hint s).flatMap Round.typed) s (cycles.line hint s).2 := by
  fun_induction rounds hint s with
  | case1 s h ih =>
    rw [cycles.line_of_again h]
    exact (Round.reads ⟨hint, s⟩).trans ih
  | case2 s h =>
    have hr := Round.reads ⟨hint, s⟩
    rw [List.flatMap_singleton, line_of_last h]
    exact hr

theorem turn_reads (t : Turn) (s : Keyed) : Reads ((t.rounds s).flatMap Round.typed) s (t.run s).2 := by
  have hw : RespectedByWaits (fun a => ∃ chunk, a = .wrote chunk) (Reads []) :=
    Reads.respected fun a ⟨_, ha⟩ => by rw [ha]; rfl
  cases t with
  | read hint size =>
    simp only [Turn.run, Turn.rounds]
    rw [read_eq]
    split
    · have hl := hw.lead Reads.loads.toRespectedByLoading (fun chunk => ⟨chunk, rfl⟩) (s.1.hold true) s.2
      have hr := hl.trans (line_reads (cString hint) ((s.1.hold true).lead, s.2))
      exact ⟨hr.acts, hr.keys⟩
    · exact .refl s
  | write bytes code => exact hw.write Reads.loads (fun chunk => ⟨chunk, rfl⟩) bytes code s.1 s.2
  | message bytes => exact hw.message Reads.loads (fun chunk => ⟨chunk, rfl⟩) bytes s.1 s.2
  | request mode => exact Reads.loads.modes _ s.1 s.2

theorem turns_read (turns : List Turn) (s : Keyed) :
    Input.keys s.2 =
      (Turn.roundsAll turns s).flatMap Round.typed ++ Input.keys (Turn.runAll turns s).2.2 := by
  induction turns generalizing s with
  | nil => rfl
  | cons t turns ih =>
    rw [(turn_reads t s).keys, ih (t.run s).2]
    simp [Turn.roundsAll, Turn.runAll]

theorem round_cases (r : Round) :
    (∃ error, r.edited.1 = .error error ∧ r.result = .endOfInput) ∨
      ∃ outcome front k e, r.edited.1 = .ok outcome ∧ r.typed = front ++ [some k] ∧
        r.editor.after front = some e ∧ e.press k = .done outcome := by
  cases he : r.edited.1 with
  | error error =>
    refine .inl ⟨error, rfl, ?_⟩
    rw [Round.result_eq, he]
  | ok outcome =>
    obtain ⟨front, k, e, ha, hp, ht, -⟩ := Round.ends he
    exact .inr ⟨outcome, front, k, e, rfl, ht, ha, hp⟩

theorem rounds_bounded (hint : String) (s : Keyed) :
    (rounds hint s).length ≤ (((rounds hint s).flatMap Round.typed).filterMap id).length + 1 := by
  fun_induction rounds hint s with
  | case1 s h ih =>
    rcases round_cases ⟨hint, s⟩ with ⟨error, -, hr⟩ | ⟨outcome, front, k, e, -, ht, -⟩
    · have hr' : (cycle hint s).1 = .endOfInput := hr
      rw [hr'] at h
      cases h
    · have hone : ([some k] : List (Option Key)).filterMap id = [k] := rfl
      rw [List.flatMap_cons, ht, List.filterMap_append, List.filterMap_append, hone]
      simp only [List.length_cons, List.length_append, List.length_nil]
      omega
  | case2 s h => simp

theorem read_shape (hint : Utf8.Bytes) (size : Int) (s : Keyed) :
    let rounds := (Turn.read hint size).rounds s
    (∀ r ∈ rounds.dropLast, r.result.isAgain = true) ∧
      (∀ r, rounds.getLast? = some r → r.result.isAgain = false) ∧
      rounds.length ≤ ((rounds.flatMap Round.typed).filterMap id).length + 1 := by
  dsimp only [Turn.rounds]
  split
  · obtain ⟨passed, last, hr, hp, hl, -⟩ := rounds_end (cString hint) ((s.1.hold true).lead, s.2)
    refine ⟨?_, ?_, rounds_bounded _ _⟩
    · rw [hr, List.dropLast_concat]
      exact hp
    · rw [hr, List.getLast?_concat]
      exact fun r he => Option.some.inj he ▸ hl
  · exact ⟨by simp, by simp, Nat.zero_le _⟩

/-- A read ends after at most one cycle more than it reads keys, with the line of the first cycle
that has one. All its cycles but the last were ended by a key, and what is typed ahead of that key
stays for later: what the reads of a session consume is the beginning of what was typed. -/
theorem reads_progress :
    (∀ (turns : List Turn) (s : Keyed), Input.keys s.2 =
      (Turn.roundsAll turns s).flatMap Round.typed ++ Input.keys (Turn.runAll turns s).2.2) ∧
    ∀ (hint : Utf8.Bytes) (size : Int) (s : Keyed),
      let rounds := (Turn.read hint size).rounds s
      let t := (read hint size s).2
      (read hint size s).1 = .ofLine? size.toNat (rounds.getLast?.bind Round.line?) ∧
      (∀ r ∈ rounds.dropLast, r.result.isAgain = true) ∧
      (∀ r, rounds.getLast? = some r → r.result.isAgain = false) ∧
      (∀ r ∈ rounds,
        (r.result = match r.edited.1 with
          | .ok (.submitted text) => .line text
          | .ok .interrupted => .interrupted
          | .ok .endOfInput => .endOfInput
          | .ok (.modeKey _) => .restart
          | .error _ => .endOfInput) ∧
        ((∃ error, r.edited.1 = .error error ∧ r.result = .endOfInput) ∨
          ∃ outcome front k e, r.edited.1 = .ok outcome ∧ r.typed = front ++ [some k] ∧
            r.editor.after front = some e ∧ e.press k = .done outcome)) ∧
      rounds.length ≤ ((rounds.flatMap Round.typed).filterMap id).length + 1 ∧
      Input.keys s.2 = rounds.flatMap Round.typed ++ Input.keys t.2 ∧
      t.1.checks + Input.weight t.2 ≤ s.1.checks + Input.weight s.2 + 1 := by
  refine ⟨turns_read, fun hint size s => ?_⟩
  obtain ⟨hagain, hend, hlen⟩ := read_shape hint size s
  exact ⟨Turn.read_rounds hint size s, hagain, hend, fun r _ => ⟨r.result_eq, round_cases r⟩, hlen,
    (turn_reads (.read hint size) s).keys, read_spends hint size s⟩

theorem reads_progress_typed_ahead :
    let s : Keyed := (eventfulPrompt.1, [.key ⟨.char 'a', {}⟩, .idle 1, .key ⟨.char 'c', { ctrl := true }⟩,
      .redraw, .key ⟨.char 'b', {}⟩, .key ⟨.enter, {}⟩, .key ⟨.char 'd', {}⟩])
    let first : Round := ⟨"> ", (s.1.hold true).lead, s.2⟩
    (Turn.read [0x3E, 0x20] 80).rounds s = [first, first.next] ∧
      first.edited.1 = .ok .interrupted ∧ first.result = .interrupted ∧
      first.next.edited.1 = .ok (.submitted "b") ∧ first.next.result = .line "b" ∧
      (read [0x3E, 0x20] 80 s).1 = .ofLine? 80 (some "b") ∧
      Input.keys (read [0x3E, 0x20] 80 s).2.2 = [some ⟨.char 'd', {}⟩] := by
  intro s first
  have hr : (Turn.read [0x3E, 0x20] 80).rounds s = [first, first.next] := by
    have ha : s.1.admits 80 = true := by decide +kernel
    have hh : cString [0x3E, 0x20] = first.hint := by decide +kernel
    rw [Turn.rounds_read ha hh rfl, rounds_again (by decide +kernel), rounds_last (by decide +kernel)]
  have hfirst : first.edited.1 = .ok .interrupted := by decide +kernel
  have hnext : first.next.edited.1 = .ok (.submitted "b") := by decide +kernel
  obtain ⟨hline, -, -, hcycles, -, hkeys, -⟩ := reads_progress.2 [0x3E, 0x20] 80 s
  rw [hr] at hline hcycles hkeys
  have hcancelled := (hcycles first (by simp)).1
  have hsubmitted := (hcycles first.next (by simp)).1
  rw [hfirst] at hcancelled
  rw [hnext] at hsubmitted
  have htold : [first, first.next].getLast?.bind Round.line? = some "b" := by
    simp [Round.line?, hsubmitted]
  rw [htold] at hline
  have hahead : Input.keys s.2 = [first, first.next].flatMap Round.typed ++ [some ⟨.char 'd', {}⟩] := by
    decide +kernel
  exact ⟨hr, hfirst, hcancelled, hnext, hsubmitted, hline,
    (List.append_cancel_left (hahead.symm.trans hkeys)).symm⟩

end Console

end RConsole
