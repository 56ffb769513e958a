import RConsole.History
import RConsole.Proofs.Store.Files
import RConsole.Proofs.Text.Lines
import RConsole.Proofs.Text.Utf8

namespace RConsole

namespace HistoryFile

theorem gather_append {line : List Char} (h : ∀ rest, line ≠ '+' :: rest)
    (held lines rest : List (List Char)) :
    gather held (lines ++ line :: rest) = gather held lines ++ gather [] rest := by
  fun_induction gather held lines with
  | case1 =>
    rw [List.nil_append, gather.eq_3 _ _ _ (fun r he => h r he), if_pos rfl, List.nil_append]
  | case2 held hne =>
    rw [List.nil_append, gather.eq_3 _ _ _ (fun r he => h r he), if_neg hne]
    rfl
  | case3 held l lines ih =>
    rw [List.cons_append, gather]
    exact ih
  | case4 l lines hl ih =>
    rw [List.cons_append, gather.eq_3 _ _ _ hl, if_pos rfl]
    exact ih
  | case5 held l lines hl hne ih =>
    rw [List.cons_append, gather.eq_3 _ _ _ hl, if_neg hne, ih]
    rfl

theorem gather_plus (held lines : List (List Char)) :
    gather held (lines.map ('+' :: ·)) = gather (held ++ lines) [] := by
  induction lines generalizing held with
  | nil => rw [List.append_nil]; rfl
  | cons line lines ih =>
    have hi := ih (held ++ [line])
    rw [List.append_assoc, List.singleton_append] at hi
    exact hi

theorem dropReturn_plus {line : List Char} (h : line.getLast? ≠ some '\r') :
    dropReturn ('+' :: line) = '+' :: line := by
  rw [dropReturn, if_neg]
  cases line with
  | nil => simp
  | cons c line => exact h

theorem dropReturn_header (text rest : List Char) : dropReturn ('#' :: ' ' :: text) ≠ '+' :: rest := by
  unfold dropReturn
  split <;> simp

theorem entries_append_record_eq {entry stamp : List Char}
    (he : ∀ line ∈ splitLines entry, line.getLast? ≠ some '\r') (hs : '\n' ∉ stamp) (text : List Char) :
    entries (text ++ record entry stamp) =
      gather [] ((splitLines text).map dropReturn) ++ [entry] := by
  have hplain : ∀ line ∈ (splitLines entry).map ('+' :: ·), '\n' ∉ line := by
    intro line hm hn
    obtain ⟨l, hl, rfl⟩ := List.mem_map.mp hm
    rcases List.mem_cons.mp hn with hn | hn
    · cases hn
    · exact (mem_of_mem_splitLines hl hn).2 rfl
  have hbody : fileLines ((splitLines entry).flatMap fun line => '+' :: line ++ ['\n']) =
      (splitLines entry).map ('+' :: ·) := by
    have hf := fileLines_flatMap hplain
    rw [List.flatMap_map, List.map_map] at hf
    rw [hf]
    apply List.map_congr_left
    intro line hl
    exact dropReturn_plus (he line hl)
  have hheader : splitLines ('#' :: ' ' :: stamp) = ['#' :: ' ' :: stamp] := by
    apply splitLines_of_not_mem
    simpa using hs
  have hrecord : text ++ record entry stamp = text ++ '\n' :: ('#' :: ' ' :: stamp ++
      '\n' :: (splitLines entry).flatMap fun line => '+' :: line ++ ['\n']) := by
    simp [record]
  unfold entries
  rw [hrecord, fileLines_append_newline, fileLines_append_newline, hheader, hbody, List.map_singleton,
    List.singleton_append, gather_append (dropReturn_header stamp), gather_plus,
    List.nil_append, gather, if_neg (splitLines_ne_nil entry), joinLines_splitLines]

theorem entries_append_record {text entry stamp : List Char} (ht : text.getLast? ≠ some '\r')
    (he : ∀ line ∈ splitLines entry, line.getLast? ≠ some '\r') (hs : '\n' ∉ stamp) :
    entries (text ++ record entry stamp) = entries text ++ [entry] := by
  rw [entries_append_record_eq he hs]
  congr 1
  unfold entries
  rcases map_dropReturn_splitLines ht with hl | hl
  · rw [hl]
  · rw [hl, gather_append (by simp)]
    exact List.append_nil _

theorem getLast?_record (entry stamp : List Char) : (record entry stamp).getLast? = some '\n' := by
  obtain ⟨front, last, hs⟩ : ∃ front last, splitLines entry = front ++ [last] :=
    ⟨_, _, (List.dropLast_concat_getLast (splitLines_ne_nil entry)).symm⟩
  have hr : record entry stamp = ('\n' :: '#' :: ' ' :: stamp ++
      '\n' :: (front.flatMap (fun line => '+' :: line ++ ['\n']) ++ '+' :: last)) ++ ['\n'] := by
    simp [record, hs]
  rw [hr, List.getLast?_concat]

theorem getLast?_append_record (text entry stamp : List Char) :
    (text ++ record entry stamp).getLast? = some '\n' := by
  rw [List.getLast?_append, getLast?_record]
  rfl

inductive Holds (f : Files) (path : Path) : List Char → Prop
  | file (spot : Place) (mode : Nat) (text : List Char)
      (h : f.find path = .ok (spot, .file mode (Utf8.encode text))) : Holds f path text
  | missing (h : f.find path = .error .missing) : Holds f path []

variable {f f' : Files} {path : Path} {text : List Char}

theorem holds_iff : Holds f path text ↔ f.Contains path (Utf8.encode text) := by
  constructor
  · rintro (⟨spot, mode, text, hf⟩ | hf)
    · exact .file spot mode _ hf
    · exact .missing hf
  · intro h
    generalize hb : Utf8.encode text = bytes at h
    cases h with
    | file spot mode bytes hf => exact .file spot mode text (hb ▸ hf)
    | missing hf =>
      have ht : text = [] := by rw [← Utf8.decodeLossy_encode text, hb, Utf8.decodeLossy]
      rw [ht]
      exact .missing hf

theorem Holds.append (h : Holds f path text) {more : List Char}
    (ha : f.append path (Utf8.encode more) = .ok f') : Holds f' path (text ++ more) := by
  rw [holds_iff, Utf8.encode_append]
  exact (holds_iff.mp h).append ha

theorem load_of_contains {bytes : Utf8.Bytes} (h : f.Contains path bytes) :
    History.load f path = match Utf8.decode? bytes with
      | some text => .ok ⟨some path, (entries text).map String.ofList⟩
      | none => .error (.read path .notText) := by
  cases h with
  | file spot mode bytes hf =>
    simp only [History.load, Files.readText, Files.read, hf, bind, Except.bind]
    cases Utf8.decode? bytes with
    | some text => simp only [String.toList_ofList]
    | none => rfl
  | missing hf =>
    have hd : Utf8.decode? [] = some [] := Utf8.decode?_encode []
    simp only [History.load, Files.readText, Files.read, hf, bind, Except.bind, hd]
    rfl

theorem Holds.load (h : Holds f path text) :
    History.load f path = .ok ⟨some path, (entries text).map String.ofList⟩ := by
  rw [load_of_contains (holds_iff.mp h), Utf8.decode?_encode]

end HistoryFile

namespace History

/-- The lines that are kept after `newest?`: blank ones and repeats of the newest one are not. -/
def fresh (newest? : Option String) : List String → List String
  | [] => []
  | line :: lines =>
    if trim line.toList = [] ∨ newest? = some line then fresh newest? lines
    else line :: fresh (some line) lines

def written (path : Option Path) (stamp : String) (files : Files) (line : String) : Files :=
  match path with
  | some path => (writeFile path (HistoryFile.record line.toList stamp.toList) files).2
  | none => files

/-- The files after lines were added so one by one, behind so many entries. -/
def writtenAll (path : Option Path) (clock : Clock) (count : Nat) (files : Files)
    (lines : List String) : Files :=
  (lines.zipIdx count).foldl (fun files l => written path (clock.after l.2) files l.1) files

theorem writtenAll_cons (path : Option Path) (clock : Clock) (count : Nat) (files : Files)
    (line : String) (lines : List String) :
    writtenAll path clock count files (line :: lines) =
      writtenAll path clock (count + 1) (written path (clock.after count) files line) lines := by
  rw [writtenAll, List.zipIdx_cons, List.foldl_cons]
  rfl

theorem skips_iff {h : History} {line : String} :
    h.skips line = true ↔ trim line.toList = [] ∨ h.entries.getLast? = some line := by
  simp [skips]

theorem append_eq (h : History) (stamp line : String) (files : Files) :
    (h.append stamp line files).2 =
      if trim line.toList = [] ∨ h.entries.getLast? = some line then (h, files)
      else (h.push line, written h.path stamp files line) := by
  unfold append appendWith written
  by_cases hk : trim line.toList = [] ∨ h.entries.getLast? = some line
  · rw [if_pos (skips_iff.mpr hk), if_pos hk]
  · rw [if_neg (mt skips_iff.mp hk), if_neg hk]
    cases h.path with
    | none => rfl
    | some path =>
      dsimp only
      split <;> (rename_i hw; rw [hw])

def keep (s : History × Files) (added : String × String) : Except HistoryError (History × Files) :=
  match s.1.append added.1 added.2 s.2 with
  | (.ok (), h, f) => .ok (h, f)
  | (.error e, _, _) => .error e

variable {path : Path} {entries : List String} {f : Files} {added : String × String}
  {s : History × Files}

theorem keep_ok (h : keep (⟨some path, entries⟩, f) added = .ok s) :
    (trim added.2.toList = [] ∨ entries.getLast? = some added.2) ∧ s = (⟨some path, entries⟩, f) ∨
    ¬ (trim added.2.toList = [] ∨ entries.getLast? = some added.2) ∧
      f.append path (Utf8.encode (HistoryFile.record added.2.toList added.1.toList)) = .ok s.2 ∧
      s.1 = ⟨some path, entries ++ [added.2]⟩ := by
  simp only [keep, append, appendWith] at h
  by_cases hk : skips ⟨some path, entries⟩ added.2 = true
  · rw [if_pos hk] at h
    cases h
    exact .inl ⟨skips_iff.mp hk, rfl⟩
  · rw [if_neg hk] at h
    refine .inr ⟨fun hn => hk (skips_iff.mpr hn), ?_⟩
    unfold writeFile at h
    cases ha : f.append path
        (Utf8.encode (HistoryFile.record added.2.toList added.1.toList)) with
    | error cause =>
      simp only [ha] at h
      cases h
    | ok f' =>
      simp only [ha] at h
      cases h
      exact ⟨rfl, rfl⟩

theorem entries_follow {text : List Char} (hf : HistoryFile.Holds f path text)
    (ht : text.getLast? ≠ some '\r') {log : List (String × String)}
    (hl : ∀ added ∈ log, '\n' ∉ added.1.toList ∧
      ∀ line ∈ splitLines added.2.toList, line.getLast? ≠ some '\r')
    (h : log.foldlM keep (⟨some path, (HistoryFile.entries text).map String.ofList⟩, f) = .ok s) :
    load s.2 path = .ok s.1 ∧
      s.1.entries = (HistoryFile.entries text).map String.ofList ++
        fresh ((HistoryFile.entries text).map String.ofList).getLast? (log.map Prod.snd) := by
  induction log generalizing f text with
  | nil =>
    cases h
    exact ⟨hf.load, (List.append_nil _).symm⟩
  | cons added log ih =>
    obtain ⟨⟨hs, he⟩, hl⟩ := List.forall_mem_cons.mp hl
    rw [List.foldlM_cons] at h
    cases hk : keep (⟨some path, (HistoryFile.entries text).map String.ofList⟩, f) added with
    | error e =>
      rw [hk] at h
      cases h
    | ok s' =>
      rw [hk] at h
      change log.foldlM keep s' = _ at h
      rw [List.map_cons, fresh]
      rcases keep_ok hk with ⟨hn, rfl⟩ | ⟨hn, ha, hs'⟩
      · rw [if_pos hn]
        exact ih hf ht hl h
      · -- The file now ends with the record of the entry, and every record ends with a newline.
        have hr := HistoryFile.entries_append_record ht he hs
        have hmap : (HistoryFile.entries
            (text ++ HistoryFile.record added.2.toList added.1.toList)).map String.ofList =
              (HistoryFile.entries text).map String.ofList ++ [added.2] := by
          rw [hr, List.map_append, List.map_singleton, String.ofList_toList]
        have hi := ih (hf.append ha) (by rw [HistoryFile.getLast?_append_record]; decide) hl (by
          rw [hmap, ← hs']
          exact h)
        rw [hmap, List.getLast?_concat, List.append_assoc] at hi
        rw [if_neg hn]
        exact hi

/-- Whatever text a file of entries holds, even an unfinished one, a record adds its own entry and
changes none. Whichever entries are then added with success, reading the file gives the history that
is in memory: what was read first, and what was added less blank entries and repeats. -/
theorem file_agrees :
    (∀ text entry stamp : List Char, text.getLast? ≠ some '\r' →
      (∀ line ∈ splitLines entry, line.getLast? ≠ some '\r') → '\n' ∉ stamp →
      HistoryFile.entries (text ++ HistoryFile.record entry stamp) =
        HistoryFile.entries text ++ [entry]) ∧
    ∀ (f : Files) (path : Path) (text : List Char), HistoryFile.Holds f path text →
      text.getLast? ≠ some '\r' →
      let old := (HistoryFile.entries text).map String.ofList
      let start : History := ⟨some path, old⟩
      load f path = .ok start ∧
      ∀ (log : List (String × String)) (s : History × Files),
        (∀ added ∈ log, '\n' ∉ added.1.toList ∧
          ∀ line ∈ splitLines added.2.toList, line.getLast? ≠ some '\r') →
        log.foldlM keep (start, f) = .ok s →
        load s.2 path = .ok s.1 ∧ s.1.entries = old ++ fresh old.getLast? (log.map Prod.snd) := by
  refine ⟨fun _ _ _ => HistoryFile.entries_append_record, ?_⟩
  intro f path text hf ht old start
  refine ⟨hf.load, ?_⟩
  intro log s hl h
  exact entries_follow hf ht hl h

theorem file_agrees_unfinished :
    let f : Files := ⟨[], [([['h']], .file 0 (Utf8.encode "+a\n+b".toList))]⟩
    let log := [("now", "a\nb"), ("now", " "), ("later", "+x\n\n# y")]
    ∃ s, log.foldlM keep (⟨some "h", ["a\nb"]⟩, f) = .ok s ∧ load s.2 "h" = .ok s.1 ∧
      s.1.entries = ["a\nb", "+x\n\n# y"] := by
  intro f log
  have hf : HistoryFile.Holds f "h" "+a\n+b".toList := .file [['h']] 0 _ (by rfl)
  have hs : ∃ s, log.foldlM keep
      (⟨some "h", (HistoryFile.entries "+a\n+b".toList).map String.ofList⟩, f) = .ok s :=
    ⟨_, by rfl⟩
  obtain ⟨s, hs⟩ := hs
  obtain ⟨hl, he⟩ := (file_agrees.2 f "h" _ hf (by decide +kernel)).2 log s (by decide +kernel) hs
  refine ⟨s, hs, hl, he.trans ?_⟩
  decide +kernel

end History

end RConsole
