import RConsole.Proofs.Console.Progress
import RConsole.Proofs.Store.History

namespace RConsole

structure Ledger where
  history : History
  files : Files
  stamp : Clock

namespace Ledger

def keep (l : Ledger) (line : String) : Ledger :=
  let kept := (l.history.append (l.stamp.after l.history.entries.length) line l.files).2
  ⟨kept.1, kept.2, l.stamp⟩

theorem keepAll (l : Ledger) (lines : List String) :
    (lines.foldl keep l).history.entries =
        l.history.entries ++ History.fresh l.history.entries.getLast? lines ∧
      (lines.foldl keep l).files = History.writtenAll l.history.path l.stamp l.history.entries.length
        l.files (History.fresh l.history.entries.getLast? lines) := by
  induction lines generalizing l with
  | nil => exact ⟨(List.append_nil _).symm, rfl⟩
  | cons line lines ih =>
    obtain ⟨he, hf⟩ := ih (l.keep line)
    rw [List.foldl_cons, he, hf]
    simp only [keep, History.append_eq, History.fresh]
    split
    · exact ⟨rfl, rfl⟩
    · simp [History.push, History.writtenAll_cons]

end Ledger

namespace Console

def ledger (c : Console) : Ledger := ⟨c.history, c.files, c.stamp⟩

variable {s t : Keyed} {c : Console} {P : Act → Prop}

theorem ledger_aloof : Aloof ledger where
  desk _ _ := rfl
  queue _ _ := rfl
  modes _ _ := rfl
  note _ _ := rfl
  exitStatus _ _ := rfl
  exit _ _ := rfl

theorem ledger_respected : RespectedByKeys P fun s t => t.1.ledger = s.1.ledger :=
  ledger_aloof.respected (fun _ _ => rfl) (fun _ _ => rfl) fun _ _ => rfl

theorem ledger_loads : RespectedByLoads fun s t => t.1.ledger = s.1.ledger :=
  ledger_aloof.loads fun _ _ _ _ => rfl

theorem beginCycle_history (m : ModeMachine) (hint : String) :
    (m.beginCycle hint).1.history = !(m.beginCycle hint).1.subPrompt := by
  have hm (mode : Mode) : mode.spec.history = !mode.spec.subPrompt := by cases mode <;> rfl
  unfold ModeMachine.beginCycle
  split
  · exact hm _
  · exact hm _
  · rfl

namespace Round

/-- The line of a cycle, unless it answers a query of R's own. -/
def kept? (r : Round) : Option String := if r.spec.subPrompt then none else r.line?

theorem ledger_finish (r : Round) :
    r.finish.1.ledger = r.kept?.elim r.start.1.ledger r.start.1.ledger.keep := by
  have hk : RespectedByKeys (Act.Amid r.dressing) fun s t => t.1.ledger = s.1.ledger :=
    ledger_respected
  have hw : RespectedByKeys (fun a => ∃ chunk, a = .wrote chunk) fun s t => t.1.ledger = s.1.ledger :=
    ledger_respected
  have hb : (r.start.1.begun r.hint).ledger = r.start.1.ledger := by
    unfold begun ensureSettings
    split <;> rfl
  have hl : r.edited.2.1.drain.ledger = r.start.1.ledger :=
    ((hw.drain (fun chunk => ⟨chunk, rfl⟩) r.edited.2.1 r.edited.2.2).trans
      (hk.readLine r.editor (r.start.1.begun r.hint, r.start.2))).trans hb
  have hh : r.spec.history = !r.spec.subPrompt := beginCycle_history _ _
  rw [← hl, finish_eq]
  unfold kept? line?
  rw [result_eq]
  generalize r.edited.2.1.drain = c
  rcases r.edited.1 with error | (text | _ | _ | target)
  · cases r.spec.subPrompt <;> rfl
  · change (c.record r.spec text).ledger = _
    unfold record
    rw [hh]
    cases r.spec.subPrompt <;> rfl
  · cases r.spec.subPrompt <;> rfl
  · cases r.spec.subPrompt <;> rfl
  · cases r.spec.subPrompt <;> rfl

end Round

def Follow (l : Ledger) : List Round → Ledger → Prop
  | [], l' => l' = l
  | r :: rs, l' => r.start.1.ledger = l ∧ Follow (r.kept?.elim l l.keep) rs l'

namespace Follow

variable {l l' l'' : Ledger} {rs rs' : List Round} {r : Round}

theorem append (h : Follow l rs l') (h' : Follow l' rs' l'') : Follow l (rs ++ rs') l'' := by
  induction rs generalizing l with
  | nil => cases h; exact h'
  | cons r rs ih => exact ⟨h.1, ih h.2⟩

theorem ledger (h : Follow l rs l') : l' = (rs.filterMap Round.kept?).foldl Ledger.keep l := by
  induction rs generalizing l with
  | nil => exact h
  | cons r rs ih =>
    rw [ih h.2]
    cases hk : r.kept? with
    | none => simp [hk]
    | some line => simp [hk]

theorem start (h : Follow l (rs ++ r :: rs') l') :
    r.start.1.ledger = (rs.filterMap Round.kept?).foldl Ledger.keep l := by
  induction rs generalizing l with
  | nil => exact h.1
  | cons r' rs ih =>
    rw [ih h.2]
    cases hk : r'.kept? with
    | none => simp [hk]
    | some line => simp [hk]

end Follow

theorem rounds_follow (hint : String) (s : Keyed) :
    Follow s.1.ledger (rounds hint s) (cycles.line hint s).2.1.ledger := by
  fun_induction rounds hint s with
  | case1 s h ih =>
    rw [cycles.line_of_again h]
    refine ⟨rfl, ?_⟩
    rw [← (⟨hint, s⟩ : Round).ledger_finish]
    exact ih
  | case2 s h =>
    refine ⟨rfl, ?_⟩
    rw [← (⟨hint, s⟩ : Round).ledger_finish, line_of_last h]
    rfl

theorem turn_follow (t : Turn) (s : Keyed) :
    Follow s.1.ledger (t.rounds s) (t.run s).2.1.ledger := by
  have hw : RespectedByKeys (fun a => ∃ chunk, a = .wrote chunk) fun s t => t.1.ledger = s.1.ledger :=
    ledger_respected
  cases t with
  | read hint size =>
    simp only [Turn.run, Turn.rounds]
    rw [read_eq]
    split
    · have hl := hw.lead ledger_loads.toRespectedByLoading (fun chunk => ⟨chunk, rfl⟩) (s.1.hold true) s.2
      have hf := rounds_follow (cString hint) ((s.1.hold true).lead, s.2)
      rw [hl] at hf
      exact hf
    · rfl
  | write bytes code => exact hw.write ledger_loads (fun chunk => ⟨chunk, rfl⟩) bytes code s.1 s.2
  | message bytes => exact hw.message ledger_loads (fun chunk => ⟨chunk, rfl⟩) bytes s.1 s.2
  | request mode => rfl

theorem turns_follow (turns : List Turn) (s : Keyed) :
    Follow s.1.ledger (Turn.roundsAll turns s) (Turn.runAll turns s).2.1.ledger := by
  induction turns generalizing s with
  | nil => rfl
  | cons t turns ih => exact (turn_follow t s).append (ih (t.run s).2)

theorem lines_lastFrame (d : Dressing) (b : Buffer) :
    joinLines ((d.lastFrame b).lines.map String.toList) = b.chars := by
  have hl : (d.lastFrame b).lines = (splitLines b.chars).map String.ofList := rfl
  have hs : (String.toList ∘ String.ofList) = id := by
    funext cs
    exact String.toList_ofList
  rw [hl, List.map_map, hs, List.map_id, joinLines_splitLines]

theorem Round.line_shown {r : Round} {text : String} (h : r.line? = some text) :
    ∃ frame, Leaves frame r.start r.finish ∧ frame.status = none ∧
      text.toList = joinLines (frame.lines.map String.toList) := by
  obtain ⟨front, k, e, -, hp, -, hl⟩ := Round.ends (Round.line_edited h)
  refine ⟨_, hl rfl, rfl, ?_⟩
  rw [lines_lastFrame, Editor.press_submitted hp]
  exact String.toList_ofList

theorem rounds_adds (hint : String) (s : Keyed) :
    ∀ r ∈ rounds hint s, Adds (fun _ => True) s.1 r.start.1 :=
  rounds_start (Q := fun t => Adds (fun _ => True) s.1 t.1)
    (fun t h => h.trans (Round.reads ⟨hint, t⟩).adds) (.refl _)

theorem read_shown {hint : Utf8.Bytes} {size : Int} {s : Keyed}
    (h : (read hint size s).1.status = 1) :
    ∃ r text frame, ((Turn.read hint size).rounds s).getLast? = some r ∧ r.line? = some text ∧
      Leaves frame s (read hint size s).2 ∧ frame.status = none ∧
      text.toList = joinLines (frame.lines.map String.toList) ∧
      ∀ before : Utf8.Bytes, before.length = size.toNat →
        (read hint size s).1.buffer before = (encodeLine text.toList before).2 := by
  have hw : RespectedByKeys (fun a => ∃ chunk, a = .wrote chunk)
      fun s t => Adds (fun _ => True) s.1 t.1 := adds_all
  rw [read_eq] at h ⊢
  by_cases ha : s.1.admits size = true
  · obtain ⟨passed, last, hr, -, -, hline⟩ :=
      rounds_end (cString hint) ((s.1.hold true).lead, s.2)
    simp only [if_pos ha, hline, Turn.rounds, hr, List.getLast?_concat] at h ⊢
    cases hl : last.line? with
    | none => rw [hl] at h; cases h
    | some text =>
      obtain ⟨frame, hleft, hs, ht⟩ := last.line_shown hl
      have hlead := hw.lead (adds_loads (fun _ => True)).toRespectedByLoading
        (fun chunk => ⟨chunk, rfl⟩) (s.1.hold true) s.2
      have hstart := rounds_adds (cString hint) ((s.1.hold true).lead, s.2) last (by rw [hr]; simp)
      have hall : Leaves frame (s.1.hold true, s.2) last.finish :=
        Leaves.after (s := (s.1.hold true, s.2)) (hlead.trans hstart) hleft
      refine ⟨last, text, frame, rfl, hl, hall, hs, ht, ?_⟩
      intro before hb
      simp only [Reply.ofLine?, Reply.buffer, encodeLine, hb]
  · rw [if_neg ha] at h
    cases h

theorem history_ensureSettings (c : Console) : c.ensureSettings.2.history = c.history := by
  unfold ensureSettings
  split <;> rfl

theorem Round.recall_kept {r : Round} {keys : List (Option Key)} {e : Editor}
    (he : r.editor.after keys = some e) :
    (∀ e', e' = e.edit .up ∨ e' = e.edit .down →
      e'.buffer.text ∈ r.start.1.history.entries ∨ r.editor.Held keys e'.buffer.text) ∧
    (e.edit .complete = e ∨ ∃ suffix, ∃ entry ∈ r.start.1.history.entries,
      ∃ word ∈ Completion.wordsOf entry, e.buffer.wordBeforeCursor.toList ++ suffix <+: word ∧
        (e.edit .complete).buffer = e.buffer.insertText (String.ofList suffix)) := by
  have hent : r.editor.entries = r.start.1.history.entries :=
    congrArg History.entries (history_ensureSettings r.start.1)
  have hwalk : ∀ text, text ∈ r.editor.walk.entries → text ∈ r.start.1.history.entries := by
    intro text ht
    have hw : r.editor.walk.entries = if r.spec.history then r.editor.entries else [] := rfl
    rw [hw] at ht
    split at ht
    · exact hent ▸ ht
    · cases ht
  have hrec : Editor.Recalls r.editor [] r.editor := Editor.recalls_start _ _ _
  obtain ⟨hud, htab⟩ := Editor.recall_sources hrec he
  rw [hent] at htab
  exact ⟨fun e' h => (hud e' h).imp_left (hwalk _), htab⟩

/-- The picture that a read leaves, the line that R gets and the line that is kept are one text.
The history and its file get the lines of the cycles that were no queries, less blank lines and
repeats, and nothing else is ever recalled or offered in a later cycle. -/
theorem shown_told_kept :
    (∀ (hint : Utf8.Bytes) (size : Int) (s : Keyed), (read hint size s).1.status = 1 →
      ∃ r text frame, ((Turn.read hint size).rounds s).getLast? = some r ∧ r.line? = some text ∧
        Leaves frame s (read hint size s).2 ∧ frame.status = none ∧
        text.toList = joinLines (frame.lines.map String.toList) ∧
        ∀ before : Utf8.Bytes, before.length = size.toNat →
          (read hint size s).1.buffer before = (encodeLine text.toList before).2) ∧
    ∀ (turns : List Turn) (s : Keyed),
      let rounds := Turn.roundsAll turns s
      let t := (Turn.runAll turns s).2
      let old := s.1.history.entries
      let kept := fun rs : List Round => History.fresh old.getLast? (rs.filterMap Round.kept?)
      t.1.history.entries = old ++ kept rounds ∧
      t.1.files = History.writtenAll s.1.history.path s.1.stamp old.length s.1.files (kept rounds) ∧
      ∀ before r later, rounds = before ++ r :: later →
        ∀ keys e, r.editor.after keys = some e →
          (∀ e', e' = e.edit .up ∨ e' = e.edit .down →
            e'.buffer.text ∈ old ++ kept before ∨ r.editor.Held keys e'.buffer.text) ∧
          (e.edit .complete = e ∨ ∃ suffix, ∃ entry ∈ old ++ kept before,
            ∃ word ∈ Completion.wordsOf entry, e.buffer.wordBeforeCursor.toList ++ suffix <+: word ∧
              (e.edit .complete).buffer = e.buffer.insertText (String.ofList suffix)) := by
  refine ⟨fun hint size s => read_shown, fun turns s => ?_⟩
  have hf := turns_follow turns s
  have hk := s.1.ledger.keepAll ((Turn.roundsAll turns s).filterMap Round.kept?)
  rw [← hf.ledger] at hk
  refine ⟨hk.1, hk.2, fun before r later hr keys e he => ?_⟩
  rw [hr] at hf
  have hb := (s.1.ledger.keepAll (before.filterMap Round.kept?)).1
  rw [← hf.start] at hb
  have hs : r.start.1.history.entries = s.1.history.entries ++
      History.fresh s.1.history.entries.getLast? (before.filterMap Round.kept?) := hb
  rw [← hs]
  exact Round.recall_kept he

theorem shown_told_kept_query :
    let key (c : Char) : Input := .key (.ofChar c)
    let enter : Input := .key ⟨.enter, {}⟩
    let clock : Clock := ⟨fun n => if n = 1 then "noon" else "later"⟩
    let s : Keyed := ({ eventfulPrompt.1 with history := ⟨some "h", ["p"]⟩, stamp := clock },
      [key 'q', .idle 2, enter, key 'q', enter, key 'z', enter, key 'x', enter])
    let turns : List Turn := [.read [0x3E, 0x20] 80, .read [0x3E, 0x20] 80, .read [0x6E, 0x3A, 0x20] 80,
      .read [0x3E, 0x20] 80]
    let t := (Turn.runAll turns s).2
    (read [0x3E, 0x20] 80 s).1.status = 1 ∧
      (∃ frame, Leaves frame s (read [0x3E, 0x20] 80 s).2 ∧ frame.status = none ∧
        joinLines (frame.lines.map String.toList) = ['q'] ∧
        (read [0x3E, 0x20] 80 s).1.buffer (List.replicate 80 0xAA) =
          (encodeLine ['q'] (List.replicate 80 0xAA)).2) ∧
      t.1.history.entries = ["p", "q", "x"] ∧
      t.1.files = History.written (some "h") "later" (History.written (some "h") "noon" s.1.files "q") "x" := by
  intro key enter clock s turns t
  have hstatus : (read [0x3E, 0x20] 80 s).1.status = 1 := by decide +kernel
  have hlast : ((Turn.read [0x3E, 0x20] 80).rounds s).getLast?.bind Round.line? = some "q" := by
    decide +kernel
  obtain ⟨r, text, frame, hr, hl, hleft, hs, ht, hb⟩ := shown_told_kept.1 _ _ s hstatus
  obtain ⟨hentries, hfiles, -⟩ := shown_told_kept.2 turns s
  have hkept : History.fresh s.1.history.entries.getLast?
      ((Turn.roundsAll turns s).filterMap Round.kept?) = ["q", "x"] := by decide +kernel
  rw [hr, Option.bind_some, hl] at hlast
  cases hlast
  dsimp only at hentries hfiles
  rw [hkept] at hentries hfiles
  exact ⟨hstatus, ⟨frame, hleft, hs, ht.symm, hb _ (by decide)⟩, hentries, hfiles⟩

end Console

end RConsole
