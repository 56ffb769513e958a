import RConsole.Proofs.Store.History

/-!
Appends whose writes may fail, each with a part of its text written. Memory keeps every entry that was
tried and the file those that were written, so an append that succeeds has saved its entry unless that
entry is the newest in memory because its own write failed before. A write that stops inside a character
leaves a file of which nothing can be read.
-/
namespace RConsole.History

open HistoryFile (Holds holds_iff load_of_contains record)

/-- How a write fails: with this error, and with so many bytes of its text written if the file was
opened at all. -/
structure WriteFault where
  cause : FileError
  kept : Option Nat := none

def tryWrite (fault : Option WriteFault) (path : Path) (text : List Char) (files : Files) :
    Except FileError Unit × Files :=
  match fault with
  | none => writeFile path text files
  | some ⟨cause, none⟩ => (.error cause, files)
  | some ⟨cause, some kept⟩ =>
    (.error cause, (files.append path ((Utf8.encode text).take kept)).toOption.getD files)

structure Trial where
  stamp : String
  entry : String
  fault : Option WriteFault := none

def attempt (t : Trial) (s : History × Files) : Except HistoryError Unit × History × Files :=
  s.1.appendWith (tryWrite t.fault) t.stamp t.entry s.2

def attempts (log : List Trial) (s : History × Files) : History × Files :=
  log.foldl (fun s t => (attempt t s).2) s

def tried : List Trial → History × Files → List (String × Bool)
  | [], _ => []
  | t :: log, s =>
    let rest := tried log (attempt t s).2
    if s.1.skips t.entry then rest else (t.entry, (attempt t s).1.isOk) :: rest

def Trial.record (t : Trial) : List Char := HistoryFile.record t.entry.toList t.stamp.toList

def Trial.Stamped (t : Trial) : Prop := '\n' ∉ t.stamp.toList

def Trial.Plain (t : Trial) : Prop := ∀ line ∈ splitLines t.entry.toList, line.getLast? ≠ some '\r'

inductive Trial.Leaves (t : Trial) : Utf8.Bytes → Prop
  | nothing : t.Leaves []
  | part (cause : FileError) (kept : Nat) (h : t.fault = some ⟨cause, some kept⟩) :
    t.Leaves ((Utf8.encode t.record).take kept)

def Trial.Whole (t : Trial) : Prop := ∀ bytes, t.Leaves bytes → ∃ text, Utf8.encode text = bytes

instance (t : Trial) : Decidable t.Stamped := inferInstanceAs (Decidable ('\n' ∉ _))

instance (t : Trial) : Decidable t.Plain := inferInstanceAs (Decidable (∀ line ∈ _, _))

section

variable {path : Path} {entries : List String} {f : Files} {bytes : Utf8.Bytes} {t : Trial}

theorem tryWrite_contains (hf : f.Contains path bytes) (t : Trial) :
    (∃ f', tryWrite t.fault path t.record f = (.ok (), f') ∧
      f'.Contains path (bytes ++ Utf8.encode t.record)) ∨
    ∃ cause f' part, tryWrite t.fault path t.record f = (.error cause, f') ∧ t.Leaves part ∧
      f'.Contains path (bytes ++ part) := by
  have hnone : f.Contains path (bytes ++ []) := by rwa [List.append_nil]
  match h : t.fault with
  | none =>
    rw [tryWrite, writeFile]
    cases ha : f.append path (Utf8.encode t.record) with
    | ok f' => exact .inl ⟨f', rfl, hf.append ha⟩
    | error cause => exact .inr ⟨cause, f, [], rfl, .nothing, hnone⟩
  | some ⟨cause, none⟩ => exact .inr ⟨cause, f, [], rfl, .nothing, hnone⟩
  | some ⟨cause, some kept⟩ =>
    right
    -- The part may fail to be written too.
    cases ha : f.append path ((Utf8.encode t.record).take kept) with
    | ok f' => exact ⟨cause, f', _, by simp [tryWrite, ha, Except.toOption], .part cause kept h, hf.append ha⟩
    | error cause' => exact ⟨cause, f, [], by simp [tryWrite, ha, Except.toOption], .nothing, hnone⟩

inductive Attempted (path : Path) (entries : List String) (f : Files) (bytes : Utf8.Bytes) (t : Trial) :
    Except HistoryError Unit × History × Files → Prop
  | skipped (hs : skips ⟨some path, entries⟩ t.entry = true) :
    Attempted path entries f bytes t (.ok (), ⟨some path, entries⟩, f)
  | saved (hs : skips ⟨some path, entries⟩ t.entry = false) (f' : Files)
    (hf : f'.Contains path (bytes ++ Utf8.encode t.record)) :
    Attempted path entries f bytes t (.ok (), ⟨some path, entries ++ [t.entry]⟩, f')
  | failed (hs : skips ⟨some path, entries⟩ t.entry = false) (cause : FileError) (f' : Files)
    (part : Utf8.Bytes) (hp : t.Leaves part) (hf : f'.Contains path (bytes ++ part)) :
    Attempted path entries f bytes t (.error (.write path cause), ⟨some path, entries ++ [t.entry]⟩, f')

theorem attempted (hf : f.Contains path bytes) (entries : List String) (t : Trial) :
    Attempted path entries f bytes t (attempt t (⟨some path, entries⟩, f)) := by
  unfold attempt appendWith
  cases hs : skips ⟨some path, entries⟩ t.entry with
  | true => exact .skipped hs
  | false =>
    rcases tryWrite_contains hf t with ⟨f', hw, hf'⟩ | ⟨cause, f', part, hw, hp, hf'⟩
    · rw [Trial.record] at hw
      simp only [hw, push]
      exact .saved hs f' hf'
    · rw [Trial.record] at hw
      simp only [hw, push]
      exact .failed hs cause f' part hp hf'

variable {log : List Trial} {s : History × Files}

theorem attempts_cons (t : Trial) (log : List Trial) (s : History × Files) :
    attempts (t :: log) s = attempts log (attempt t s).2 := rfl

theorem tried_cons (t : Trial) (log : List Trial) (s : History × Files) :
    tried (t :: log) s = (if s.1.skips t.entry then [] else [(t.entry, (attempt t s).1.isOk)]) ++
      tried log (attempt t s).2 := by
  rw [tried]
  split <;> rfl

def Sound (path : Path) (s : History × Files) : Prop :=
  s.1.path = some path ∧ ∃ text, Holds s.2 path text

theorem attempt_sound (h : Sound path s) (ht : (attempt t s).1 = .ok () ∨ t.Whole) :
    Sound path (attempt t s).2 := by
  obtain ⟨⟨_, entries⟩, f⟩ := s
  obtain ⟨rfl, text, hf⟩ := h
  have ha := attempted (holds_iff.mp hf) entries t
  generalize attempt t (⟨some path, entries⟩, f) = r at ha ht ⊢
  cases ha with
  | skipped hs => exact ⟨rfl, text, hf⟩
  | saved hs f' hf' =>
    rw [← Utf8.encode_append] at hf'
    exact ⟨rfl, _, holds_iff.mpr hf'⟩
  | failed hs cause f' part hp hf' =>
    obtain ⟨more, rfl⟩ := ht.resolve_left nofun part hp
    rw [← Utf8.encode_append] at hf'
    exact ⟨rfl, _, holds_iff.mpr hf'⟩

theorem attempts_sound (h : Sound path s) (hw : ∀ t ∈ log, t.Whole) : Sound path (attempts log s) := by
  induction log generalizing s with
  | nil => exact h
  | cons t log ih =>
    obtain ⟨ht, hw⟩ := List.forall_mem_cons.mp hw
    exact ih (attempt_sound h (.inr ht)) hw

theorem attempts_file {text : List Char} (hf : Holds f path text) (ht : text.getLast? ≠ some '\r')
    (hl : ∀ t ∈ log, t.Stamped ∧ t.Plain ∧ ∀ part, t.Leaves part → part = []) (entries : List String) :
    ∃ text', Holds (attempts log (⟨some path, entries⟩, f)).2 path text' ∧
      (HistoryFile.entries text').map String.ofList = (HistoryFile.entries text).map String.ofList ++
        ((tried log (⟨some path, entries⟩, f)).filter Prod.snd).map Prod.fst := by
  induction log generalizing f text entries with
  | nil => exact ⟨text, hf, by simp [tried]⟩
  | cons t log ih =>
    obtain ⟨⟨hs, hp, hw⟩, hl⟩ := List.forall_mem_cons.mp hl
    rw [attempts_cons, tried_cons]
    have ha := attempted (holds_iff.mp hf) entries t
    generalize attempt t (⟨some path, entries⟩, f) = r at ha
    cases ha with
    | skipped hskip => simpa [hskip] using ih hf ht hl entries
    | saved hskip f' hf' =>
      rw [← Utf8.encode_append] at hf'
      have hlast : (text ++ t.record).getLast? = some '\n' := HistoryFile.getLast?_append_record ..
      have hmore : HistoryFile.entries (text ++ t.record) = HistoryFile.entries text ++ [t.entry.toList] :=
        HistoryFile.entries_append_record ht hp hs
      obtain ⟨text', hf'', he⟩ :=
        ih (holds_iff.mpr hf') (by rw [hlast]; decide) hl (entries ++ [t.entry])
      refine ⟨text', hf'', he.trans ?_⟩
      rw [hmore]
      simp [hskip, Except.isOk, Except.toBool]
    | failed hskip cause f' part hpart hf' =>
      rw [hw part hpart, List.append_nil] at hf'
      simpa [hskip, Except.isOk, Except.toBool] using
        ih (holds_iff.mpr hf') ht hl (entries ++ [t.entry])

inductive Newest (entries : List String) (bytes : Utf8.Bytes) : Option (String × Bool) → Prop
  | loaded (text : List Char) (hb : Utf8.encode text = bytes)
    (h : entries.getLast? = ((HistoryFile.entries text).map String.ofList).getLast?) :
    Newest entries bytes none
  | saved (t : Trial) (hs : t.Stamped) (h : entries.getLast? = some t.entry) (before : Utf8.Bytes)
    (hb : bytes = before ++ Utf8.encode t.record) : Newest entries bytes (some (t.entry, true))
  | failed (entry : String) (h : entries.getLast? = some entry) :
    Newest entries bytes (some (entry, false))

/-- A state of a run that began with the entries `old`, with what was tried so far. -/
inductive Tracks (path : Path) (old : List String) (done : List (String × Bool)) : History × Files → Prop
  | intro {entries : List String} {f : Files} {bytes : Utf8.Bytes}
    (he : entries = old ++ done.map Prod.fst) (hf : f.Contains path bytes)
    (hn : Newest entries bytes done.getLast?) : Tracks path old done (⟨some path, entries⟩, f)

theorem Tracks.memory {old : List String} {done : List (String × Bool)} (h : Tracks path old done s) :
    s.1 = ⟨some path, old ++ done.map Prod.fst⟩ := by
  cases h with
  | intro he hf hn => rw [he]

theorem tracks_next {old : List String} {done : List (String × Bool)} {written : Bool}
    (he : entries = old ++ done.map Prod.fst) (hf : f.Contains path bytes)
    (hn : Newest (entries ++ [t.entry]) bytes (some (t.entry, written))) :
    Tracks path old (done ++ [(t.entry, written)]) (⟨some path, entries ++ [t.entry]⟩, f) := by
  refine .intro ?_ hf ?_
  · rw [he, List.map_append, List.append_assoc]
    rfl
  · rwa [List.getLast?_concat]

theorem tracks_attempts {old : List String} {done : List (String × Bool)} (hl : ∀ t ∈ log, t.Stamped)
    (h : Tracks path old done s) : Tracks path old (done ++ tried log s) (attempts log s) := by
  induction log generalizing s done with
  | nil =>
    rw [tried, List.append_nil]
    exact h
  | cons t log ih =>
    obtain ⟨ht, hl⟩ := List.forall_mem_cons.mp hl
    cases h with
    | @intro entries f bytes he hf hn =>
      rw [attempts_cons, tried_cons, ← List.append_assoc]
      have ha := attempted hf entries t
      generalize attempt t (⟨some path, entries⟩, f) = r at ha
      cases ha with
      | skipped hs =>
        rw [if_pos hs, List.append_nil]
        exact ih hl (.intro he hf hn)
      | saved hs f' hf' =>
        rw [if_neg (Bool.eq_false_iff.mp hs)]
        exact ih hl (tracks_next he hf' (.saved t ht List.getLast?_concat bytes rfl))
      | failed hs cause f' part hp hf' =>
        rw [if_neg (Bool.eq_false_iff.mp hs)]
        exact ih hl (tracks_next he hf' (.failed t.entry List.getLast?_concat))

def Saved (path : Path) (entry : String) (f : Files) : Prop :=
  ∃ h, load f path = .ok h ∧ h.entries.getLast? = some entry

def Spoiled (path : Path) (f : Files) : Prop := load f path = .error (.read path .notText)

theorem Sound.not_spoiled (h : Sound path s) : ¬ Spoiled path s.2 := by
  obtain ⟨-, text, hf⟩ := h
  rw [Spoiled, hf.load]
  nofun

theorem saved_of_record {before : Utf8.Bytes} (hf : f.Contains path (before ++ Utf8.encode t.record))
    (hs : t.Stamped) (hp : t.Plain) : Saved path t.entry f ∨ Spoiled path f := by
  rw [Saved, Spoiled, load_of_contains hf]
  cases hd : Utf8.decode? (before ++ Utf8.encode t.record) with
  | none => exact .inr rfl
  | some text =>
    left
    refine ⟨_, rfl, ?_⟩
    -- A record starts with a newline, so it is read the same after whatever bytes.
    rw [Utf8.eq_append_of_encode (Utf8.decode?_eq_some.mp hd)]
    change ((HistoryFile.entries (Utf8.decodeLossy before ++ t.record)).map String.ofList).getLast? = _
    rw [Trial.record, HistoryFile.entries_append_record_eq hp hs, List.map_append, List.map_singleton,
      List.getLast?_concat, String.ofList_toList]

theorem saved_of_ok {old : List String} {done : List (String × Bool)} (h : Tracks path old done s)
    (hs : t.Stamped) (hp : t.Plain) (hb : trim t.entry.toList ≠ []) (hok : (attempt t s).1 = .ok ())
    (hl : done.getLast? ≠ some (t.entry, false)) :
    Saved path t.entry (attempt t s).2.2 ∨ Spoiled path (attempt t s).2.2 := by
  cases h with
  | @intro entries f bytes he hf hn =>
    generalize done.getLast? = last at hn hl
    have ha := attempted hf entries t
    generalize attempt t (⟨some path, entries⟩, f) = r at ha hok ⊢
    cases ha with
    | skipped hskip =>
      have hnewest : entries.getLast? = some t.entry := (skips_iff.mp hskip).resolve_left hb
      -- Nothing was written, so the entry has to be in the file already.
      cases hn with
      | loaded text hb h =>
        subst hb
        exact .inl ⟨_, (holds_iff.mpr hf).load, h.symm.trans hnewest⟩
      | saved t' hs' h before hb =>
        have he : t'.entry = t.entry := Option.some.inj (h.symm.trans hnewest)
        subst hb
        rw [← he]
        apply saved_of_record hf hs'
        rw [Trial.Plain, he]
        exact hp
      | failed entry h =>
        have he : entry = t.entry := Option.some.inj (h.symm.trans hnewest)
        exact absurd (by rw [he]) hl
    | saved hskip f' hf' => exact saved_of_record hf' hs hp
    | failed => cases hok

theorem attempt_of_failed {old : List String} {done : List (String × Bool)} (h : Tracks path old done s)
    (hl : done.getLast? = some (t.entry, false)) : attempt t s = (.ok (), s) := by
  cases h with
  | @intro entries f bytes he hf hn =>
    generalize done.getLast? = last at hn hl
    have hskip : skips ⟨some path, entries⟩ t.entry = true := by
      apply skips_iff.mpr
      cases hn with
      | loaded => simp at hl
      | saved => simp at hl
      | failed entry h =>
        right
        rw [h, (Prod.mk.inj (Option.some.inj hl)).1]
    unfold attempt appendWith
    rw [if_pos hskip]

end

/-- Whichever appends come before and whichever of their writes fail, an append that succeeds leaves its
entry as the newest of the file, but for a repeat of an entry whose own write failed, which changes
nothing, and unless a write stopped inside a character. Memory holds every entry that was tried and, if
the failed writes left nothing, the file those that were written. -/
theorem append_saves {f : Files} {path : Path} {text : List Char} (hf : Holds f path text)
    {log : List Trial} (hl : ∀ t ∈ log, t.Stamped) :
    let old := (HistoryFile.entries text).map String.ofList
    let start : History × Files := (⟨some path, old⟩, f)
    let s := attempts log start
    load f path = .ok start.1 ∧
    s.1 = ⟨some path, old ++ (tried log start).map Prod.fst⟩ ∧
    (∀ t : Trial, t.Stamped → t.Plain → trim t.entry.toList ≠ [] → (attempt t s).1 = .ok () →
      if (tried log start).getLast? = some (t.entry, false) then (attempt t s).2 = s
      else Saved path t.entry (attempt t s).2.2 ∨
        Spoiled path (attempt t s).2.2 ∧ ∃ t' ∈ log, ¬ t'.Whole) ∧
    (text.getLast? ≠ some '\r' → (∀ t ∈ log, t.Plain ∧ ∀ part, t.Leaves part → part = []) →
      load s.2 path = .ok ⟨some path, old ++ ((tried log start).filter Prod.snd).map Prod.fst⟩) := by
  intro old start s
  have hstart : Tracks path old [] start :=
    .intro (List.append_nil _).symm (holds_iff.mp hf) (.loaded text rfl rfl)
  have hs : Tracks path old (tried log start) s := tracks_attempts hl hstart
  refine ⟨hf.load, hs.memory, ?_, ?_⟩
  · intro t ht hp hb hok
    split
    · rename_i hlast
      rw [attempt_of_failed hs hlast]
    · rename_i hlast
      rcases saved_of_ok hs ht hp hb hok hlast with hsaved | hspoiled
      · exact .inl hsaved
      · by_cases hw : ∀ t' ∈ log, t'.Whole
        · have hsound : Sound path s := attempts_sound ⟨rfl, text, hf⟩ hw
          exact absurd hspoiled (attempt_sound hsound (.inl hok)).not_spoiled
        · obtain ⟨t', hw⟩ := Classical.not_forall.mp hw
          obtain ⟨ht', hw⟩ := Classical.not_imp.mp hw
          exact .inr ⟨hspoiled, t', ht', hw⟩
  · intro ht hp
    obtain ⟨text', hf', he⟩ := attempts_file hf ht (fun t hm => ⟨hl t hm, hp t hm⟩) old
    rw [hf'.load, he]

theorem append_saves_torn :
    let f : Files := ⟨[], [([['h']], .file 0 (Utf8.encode "\n# then\n+a\n".toList))]⟩
    let log : List Trial := [⟨"now", "b", some ⟨.missing, some 9⟩⟩, ⟨"now", "a", none⟩]
    let s := attempts log (⟨some "h", ["a"]⟩, f)
    let t : Trial := ⟨"later", "a", none⟩
    (∀ t ∈ log, t.Stamped) ∧ s.1.entries = ["a", "b", "a"] ∧ (attempt t s).1 = .ok () ∧
      Saved "h" "a" (attempt t s).2.2 := by
  intro f log s t
  have hf : Holds f "h" "\n# then\n+a\n".toList := .file [['h']] 0 _ (by rfl)
  have hl : ∀ t ∈ log, t.Stamped := by decide +kernel
  have hw : ¬ ∃ t ∈ log, ¬ t.Whole := by
    rintro ⟨t, ht, hnot⟩
    apply hnot
    simp only [log, List.mem_cons, List.not_mem_nil, or_false] at ht
    rintro part (_ | ⟨cause, kept, hk⟩)
    · exact ⟨[], rfl⟩
    · rcases ht with rfl | rfl
      · cases hk
        exact ⟨"\n# now\n+b".toList, by decide +kernel⟩
      · cases hk
  have hskip : s.1.skips t.entry = true := by decide +kernel
  have hok : (attempt t s).1 = .ok () := by
    rw [attempt, appendWith, if_pos hskip]
  obtain ⟨-, hs, hsaves, -⟩ := append_saves hf hl
  have hlast : (tried log (⟨some "h", ["a"]⟩, f)).getLast? ≠ some ("a", false) := by decide +kernel
  have hsaved := hsaves t (by decide +kernel) (by decide +kernel) (by decide +kernel) hok
  exact ⟨hl, by decide +kernel, hok, ((if_neg hlast).mp hsaved).resolve_right fun h => hw h.2⟩

/-- An entry whose write fails is kept in memory, and tried again it is left out as a repeat. -/
theorem retried_unsaved :
    let h : History := ⟨some "missing/h", []⟩
    let h' : History := ⟨some "missing/h", ["x"]⟩
    load {} "missing/h" = .ok h ∧
      h.append "now" "x" {} = (.error (.write "missing/h" .missing), h', {}) ∧
      h'.append "later" "x" {} = (.ok (), h', {}) ∧
      trim "x".toList ≠ [] ∧ (∀ line ∈ splitLines "x".toList, line.getLast? ≠ some '\r') ∧
      ¬ Saved "missing/h" "x" {} := by
  intro h h'
  have hload : load {} "missing/h" = .ok h := by rfl
  refine ⟨hload, by rfl, by rfl, by decide +kernel, by decide +kernel, ?_⟩
  rintro ⟨found, hfound, hnewest⟩
  rw [hload] at hfound
  cases hfound
  cases hnewest

end RConsole.History
