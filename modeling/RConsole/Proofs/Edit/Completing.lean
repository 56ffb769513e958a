import RConsole.Edit.Editor
import RConsole.Proofs.Edit.Edits
import RConsole.Proofs.Text.Boundary
import RConsole.Proofs.Text.Words

namespace RConsole

namespace Completion

open Utf8 (Bytes encode isBoundary)

structure Extends (start : List Char) (entries : List String) (word : List Char) : Prop where
  starts : start <+: word
  longer : start.length < word.length
  run : ∃ entry ∈ entries, IsRun isWordChar entry.toList word

structure LongestShared (words : List Char → Prop) (text : List Char) : Prop where
  shared : ∀ word, words word → text <+: word
  longest : ∀ other, (∀ word, words word → other <+: word) → other <+: text

variable {start suffix u v w : List Char} {ws : List (List Char)} {entries : List String}

theorem LongestShared.unique {words : List Char → Prop} (hu : LongestShared words u)
    (hv : LongestShared words v) : u = v :=
  (hv.longest u hu.shared).eq_of_length_le (hu.longest v hv.shared).length_le

theorem mem_insertWord : v ∈ insertWord w ws ↔ v = w ∨ v ∈ ws := by
  induction ws with
  | nil => simp [insertWord]
  | cons u us ih =>
    rw [insertWord]
    split
    · rw [List.mem_cons]
    · rename_i hwu
      split
      · rw [List.mem_cons, ih, List.mem_cons, or_left_comm]
      · rename_i huw
        have he : w = u := List.le_antisymm (List.not_lt.mp huw) (List.not_lt.mp hwu)
        rw [he, List.mem_cons, ← or_assoc, or_self]

theorem mem_foldl_insertWord (us : List (List Char)) :
    v ∈ us.foldl (fun ws w => insertWord w ws) ws ↔ v ∈ us ∨ v ∈ ws := by
  induction us generalizing ws with
  | nil => simp
  | cons u us ih => rw [List.foldl_cons, ih, mem_insertWord, List.mem_cons, or_left_comm, or_assoc]

theorem mem_wordsOf {entry : String} : w ∈ wordsOf entry ↔ IsRun isWordChar entry.toList w :=
  mem_pieces_iff entry.toList

theorem extends?_iff : extends? start w = true ↔ start <+: w ∧ start.length < w.length := by
  rw [extends?, Bool.and_eq_true, List.isPrefixOf_iff_prefix, decide_eq_true_iff]

theorem mem_candidates :
    w ∈ candidates start entries ↔ start ≠ [] ∧ Extends start entries w := by
  by_cases hs : start = []
  · simp [candidates, hs]
  · have hm : w ∈ candidates start entries ↔
        (∃ entry ∈ entries, w ∈ wordsOf entry) ∧ extends? start w = true := by
      rw [candidates, if_neg hs, mem_foldl_insertWord, List.mem_filter, List.mem_flatMap]
      simp
    simp only [mem_wordsOf, extends?_iff] at hm
    rw [hm]
    constructor
    · rintro ⟨hrun, hstarts, hlonger⟩
      exact ⟨hs, hstarts, hlonger, hrun⟩
    · rintro ⟨-, hstarts, hlonger, hrun⟩
      exact ⟨hrun, hstarts, hlonger⟩

theorem prefix_commonPrefix {text : List Char} :
    text <+: commonPrefix u v ↔ text <+: u ∧ text <+: v := by
  fun_induction commonPrefix u v generalizing text with
  | case1 cs c ds ih =>
    cases text with
    | nil => simp
    | cons a text => rw [List.cons_prefix_cons, List.cons_prefix_cons, List.cons_prefix_cons, ih, and_and_left]
  | case2 c cs d ds h =>
    cases text with
    | nil => simp
    | cons a text =>
      simp only [List.cons_prefix_cons, List.prefix_nil, reduceCtorEq, false_iff]
      rintro ⟨⟨rfl, -⟩, rfl, -⟩
      exact h rfl
  | case3 u v h =>
    cases text with
    | nil => simp
    | cons a text =>
      simp only [List.prefix_nil, reduceCtorEq, false_iff]
      rintro ⟨⟨us, rfl⟩, vs, rfl⟩
      exact h a (text ++ us) a (text ++ vs) rfl rfl

theorem longestShared_foldl (w : List Char) (ws : List (List Char)) :
    LongestShared (· ∈ w :: ws) (ws.foldl commonPrefix w) := by
  have hf (text : List Char) :
      text <+: ws.foldl commonPrefix w ↔ ∀ word ∈ w :: ws, text <+: word := by
    induction ws generalizing w with
    | nil => simp
    | cons v ws ih =>
      rw [List.foldl_cons, ih, List.forall_mem_cons, List.forall_mem_cons, List.forall_mem_cons,
        prefix_commonPrefix, and_assoc]
  exact ⟨(hf _).mp (List.prefix_refl _), fun other => (hf other).mpr⟩

theorem complete?_cons (h : candidates start entries = w :: ws) :
    ∃ suffix, ws.foldl commonPrefix w = start ++ suffix ∧
      complete? start entries = if suffix = [] then none else some suffix := by
  have hstarts : ∀ word ∈ w :: ws, start <+: word := fun word hm =>
    (mem_candidates.mp (h ▸ hm)).2.starts
  obtain ⟨suffix, hs⟩ := (longestShared_foldl w ws).longest start hstarts
  refine ⟨suffix, hs.symm, ?_⟩
  simp only [complete?, h, ← hs, List.drop_left]
  cases suffix <;> rfl

theorem complete?_eq_some : complete? start entries = some suffix ↔
    start ≠ [] ∧ (∃ word, Extends start entries word) ∧ suffix ≠ [] ∧
      LongestShared (Extends start entries) (start ++ suffix) := by
  cases hc : candidates start entries with
  | nil =>
    have hn : complete? start entries = none := by simp only [complete?, hc]
    rw [hn]
    constructor
    · intro h
      cases h
    · rintro ⟨hs, ⟨word, hw⟩, -⟩
      have hm := mem_candidates.mpr ⟨hs, hw⟩
      rw [hc] at hm
      cases hm
  | cons w ws =>
    have hw : w ∈ candidates start entries := hc ▸ List.mem_cons_self
    obtain ⟨hs, hext⟩ := mem_candidates.mp hw
    have hwords : Extends start entries = (· ∈ w :: ws) := by
      funext word
      rw [← hc, mem_candidates, eq_iff_iff, and_iff_right hs]
    obtain ⟨shared, hshared, hcomplete⟩ := complete?_cons hc
    have hl := longestShared_foldl w ws
    rw [hshared, ← hwords] at hl
    rw [hcomplete]
    constructor
    · intro h
      split at h
      · cases h
      · cases h
        exact ⟨hs, ⟨w, hext⟩, ‹_›, hl⟩
    · rintro ⟨-, -, hne, h⟩
      obtain rfl := List.append_cancel_left (h.unique hl)
      rw [if_neg hne]

theorem complete_offers (h : complete? start entries = some suffix) :
    ∃ entry ∈ entries, ∃ word ∈ wordsOf entry, start ++ suffix <+: word := by
  obtain ⟨-, ⟨word, hw⟩, -, hl⟩ := complete?_eq_some.mp h
  obtain ⟨entry, he, hr⟩ := hw.run
  exact ⟨entry, he, word, mem_wordsOf.mpr hr, hl.shared word hw⟩

def placed (offset : Nat) : List Char → List (Nat × Char)
  | [] => []
  | c :: cs => (offset, c) :: placed (offset + c.utf8Size) cs

def agreement (offset : Nat) (first word : List Char) : Nat :=
  match (((placed offset first).zip word).takeWhile fun pair => pair.1.2 == pair.2).getLast? with
  | some ((start, c), _) => start + c.utf8Size
  | none => offset

def slice? (bs : Bytes) (i j : Nat) : Option Bytes :=
  if i ≤ j ∧ isBoundary bs i = true ∧ isBoundary bs j = true then some ((bs.take j).drop i) else none

/-- The completion as a part of the first candidate; `none` if that would cut a character. -/
def completeSliced? (start : List Char) (entries : List String) : Option (Option Bytes) :=
  match candidates start entries with
  | [] => some none
  | first :: words =>
    let common := words.foldl (fun n word => min (agreement 0 first word) n) (encode first).length
    (slice? (encode first) (encode start).length (max common (encode start).length)).map fun part =>
      if part = [] then none else some part

theorem length_encode_cons (c : Char) (cs : List Char) :
    (encode (c :: cs)).length = c.utf8Size + (encode cs).length := by
  rw [Utf8.encode_cons, List.length_append, String.length_utf8EncodeChar]

theorem encode_eq_nil_iff {cs : List Char} : encode cs = [] ↔ cs = [] := by
  cases cs with
  | nil => simp [encode]
  | cons c cs => simp [Utf8.encode_cons]

theorem agreement_eq (offset : Nat) (u v : List Char) :
    agreement offset u v = offset + (encode (commonPrefix u v)).length := by
  fun_induction commonPrefix u v generalizing offset with
  | case1 cs c ds ih =>
    have hi := ih (offset + c.utf8Size)
    unfold agreement at hi ⊢
    rw [placed, List.zip_cons_cons, List.takeWhile_cons, if_pos (beq_self_eq_true c),
      List.getLast?_cons, length_encode_cons, ← Nat.add_assoc, ← hi]
    cases (((placed (offset + c.utf8Size) cs).zip ds).takeWhile
      fun pair => pair.1.2 == pair.2).getLast? <;> rfl
  | case2 c cs d ds h =>
    unfold agreement
    rw [placed, List.zip_cons_cons, List.takeWhile_cons, if_neg (by simpa using h)]
    rfl
  | case3 u v h =>
    have hz : (placed offset u).zip v = [] := by
      cases u with
      | nil => rfl
      | cons c cs =>
        cases v with
        | nil => rfl
        | cons d ds => exact absurd rfl (h c cs d ds rfl)
    unfold agreement
    rw [hz]
    rfl

theorem length_commonPrefix {first : List Char} (hu : u <+: first) (v : List Char) :
    (encode (commonPrefix u v)).length =
      min (encode (commonPrefix first v)).length (encode u).length := by
  have hshared := prefix_commonPrefix.mp (List.prefix_refl (commonPrefix first v))
  rcases List.prefix_or_prefix_of_prefix hu hshared.1 with h | h
  · have he : commonPrefix u v = u :=
      (prefix_commonPrefix.mp (List.prefix_refl _)).1.eq_of_length_le
        (prefix_commonPrefix.mpr ⟨List.prefix_refl u, h.trans hshared.2⟩).length_le
    rw [he, Nat.min_eq_right (Utf8.encode_isPrefix h).length_le]
  · have he : commonPrefix u v = commonPrefix first v := by
      have hp := prefix_commonPrefix.mp (List.prefix_refl (commonPrefix u v))
      exact (prefix_commonPrefix.mpr ⟨hp.1.trans hu, hp.2⟩).eq_of_length_le
        (prefix_commonPrefix.mpr ⟨h, hshared.2⟩).length_le
    rw [he, Nat.min_eq_left (Utf8.encode_isPrefix h).length_le]

theorem foldl_agreement {first : List Char} (hu : u <+: first) (words : List (List Char)) :
    words.foldl (fun n word => min (agreement 0 first word) n) (encode u).length =
      (encode (words.foldl commonPrefix u)).length := by
  induction words generalizing u with
  | nil => rfl
  | cons word words ih =>
    have hp := (prefix_commonPrefix.mp (List.prefix_refl (commonPrefix u word))).1
    rw [List.foldl_cons, List.foldl_cons, agreement_eq, Nat.zero_add, ← length_commonPrefix hu]
    exact ih (hp.trans hu)

theorem slice?_encode (u v w : List Char) :
    slice? (encode (u ++ v ++ w)) (encode u).length (encode (u ++ v)).length = some (encode v) := by
  have hu : isBoundary (encode (u ++ v ++ w)) (encode u).length = true :=
    (Utf8.isBoundary_encode _ _).mpr ⟨u, by simp, rfl⟩
  have hv : isBoundary (encode (u ++ v ++ w)) (encode (u ++ v)).length = true :=
    (Utf8.isBoundary_encode _ _).mpr ⟨u ++ v, by simp, rfl⟩
  have hle : (encode u).length ≤ (encode (u ++ v)).length := by
    rw [Utf8.encode_append, List.length_append]
    omega
  rw [slice?, if_pos ⟨hle, hu, hv⟩, Utf8.encode_append (u ++ v), List.take_left, Utf8.encode_append u,
    List.drop_left]

theorem completeSliced?_eq (start : List Char) (entries : List String) :
    completeSliced? start entries = some ((complete? start entries).map encode) := by
  cases hc : candidates start entries with
  | nil => simp only [completeSliced?, complete?, hc, Option.map_none]
  | cons w ws =>
    obtain ⟨suffix, hshared, hcomplete⟩ := complete?_cons hc
    obtain ⟨rest, hw⟩ := (longestShared_foldl w ws).shared w List.mem_cons_self
    rw [hshared] at hw
    have hmax : max (encode (start ++ suffix)).length (encode start).length =
        (encode (start ++ suffix)).length := by
      rw [Utf8.encode_append, List.length_append]
      omega
    simp only [completeSliced?, hc, foldl_agreement (List.prefix_refl w) ws, hshared, hmax, hcomplete]
    rw [← hw, slice?_encode, Option.map_some]
    by_cases hs : suffix = []
    · rw [if_pos hs, if_pos (encode_eq_nil_iff.mpr hs)]
      rfl
    · rw [if_neg hs, if_neg fun h => hs (encode_eq_nil_iff.mp h)]
      rfl

theorem complete?_congr {entries' : List String} (h : ∀ entry, entry ∈ entries' ↔ entry ∈ entries)
    (start : List Char) : complete? start entries' = complete? start entries := by
  have he : Extends start entries' = Extends start entries := by
    funext word
    apply propext
    constructor
    · rintro ⟨hs, hl, entry, hm, hr⟩
      exact ⟨hs, hl, entry, (h entry).mp hm, hr⟩
    · rintro ⟨hs, hl, entry, hm, hr⟩
      exact ⟨hs, hl, entry, (h entry).mpr hm, hr⟩
  ext suffix
  rw [complete?_eq_some, complete?_eq_some, he]

theorem isWordChar_of_complete (h : complete? start entries = some suffix) :
    ∀ c ∈ suffix, isWordChar c = true := by
  obtain ⟨-, ⟨word, hw⟩, -, hl⟩ := complete?_eq_some.mp h
  obtain ⟨entry, -, front, rest, -, ht, -⟩ := hw.run
  obtain ⟨tail, rfl⟩ := hl.shared word hw
  intro c hc
  exact ht.all c (by simp [hc])

end Completion

namespace Buffer

variable {b : Buffer}

theorem insertText_sides (b : Buffer) (text : String) :
    (b.insertText text).before = b.before ++ text.toList ∧ (b.insertText text).after = b.after := by
  rcases Nat.le_total b.cursor b.chars.length with h | h
  · have hlen : b.cursor + text.toList.length = (b.before ++ text.toList).length := by
      rw [List.length_append, length_before h]
    rw [insertText, hlen]
    exact ⟨before_split _ _, after_split _ _⟩
  · have hb : b.before = b.chars := List.take_of_length_le h
    have ha : b.after = [] := List.drop_eq_nil_of_le h
    have hlen : (b.chars ++ text.toList).length ≤ b.cursor + text.toList.length := by
      rw [List.length_append]
      omega
    rw [insertText, hb, ha, List.append_nil]
    exact ⟨List.take_of_length_le hlen, List.drop_eq_nil_of_le hlen⟩

theorem wordBeforeCursor_eq {front word : List Char} (hb : b.before = front ++ word)
    (h : Trails isWordChar front word) : b.wordBeforeCursor.toList = word := by
  rw [wordBeforeCursor, hb, h.takeWhile, List.reverse_reverse, String.toList_ofList]

theorem exists_word (b : Buffer) :
    ∃ front, b.before = front ++ b.wordBeforeCursor.toList ∧
      Trails isWordChar front b.wordBeforeCursor.toList := by
  obtain ⟨front, word, hb, h⟩ := exists_trails isWordChar b.before
  rw [wordBeforeCursor_eq hb h]
  exact ⟨front, hb, h⟩

end Buffer

namespace Editor

open Completion

theorem press_tab (e : Editor) (mods : Mods) (hc : e.spec.completion = true) :
    e.press ⟨.tab, mods⟩ =
      .goOn (if e.keymap.viState? = some .command then e else e.complete) none := by
  have hmode : e.modeTarget? ⟨.tab, mods⟩ = none := by
    have hk : modeKey? ⟨.tab, mods⟩ = none := by
      unfold modeKey?
      split <;> rfl
    rw [modeTarget?, hk, Option.bind_none, ite_self]
  have htab (m : Keymap) : m.map ⟨.tab, mods⟩ =
      (if m.viState? = some .command then .noop else .complete, m) := by
    obtain ⟨mode, vi⟩ := m
    cases mode <;> cases vi <;> rfl
  rw [press, hmode]
  dsimp only
  rw [htab]
  split
  · rfl
  · simp only [apply, edit, hc, if_true]

theorem buffer_complete (e : Editor) : e.complete.buffer = e.buffer.insertText
    (String.ofList ((complete? e.buffer.wordBeforeCursor.toList e.entries).getD [])) := by
  unfold complete
  split
  · rename_i suffix h
    rw [h]
    rfl
  · rename_i h
    rw [h]
    simp [Buffer.insertText, Buffer.before, Buffer.after]

/-- Completion inserts what all words that extend the prefix go on with, whatever the order of the
entries, and cuts no character. Tab leaves the text around the word and puts that behind it, except in
vi command state, where it does nothing. -/
theorem completes_shared :
    (∀ (start : List Char) (entries : List String),
      (∀ suffix, complete? start entries = some suffix ↔
        start ≠ [] ∧ (∃ word, Extends start entries word) ∧ suffix ≠ [] ∧
          LongestShared (Extends start entries) (start ++ suffix)) ∧
      (∀ entries', (∀ entry, entry ∈ entries' ↔ entry ∈ entries) →
        complete? start entries' = complete? start entries) ∧
      completeSliced? start entries = some ((complete? start entries).map Utf8.encode)) ∧
    ∀ (e : Editor) (mods : Mods), e.spec.completion = true →
      let word := e.buffer.wordBeforeCursor.toList
      let suffix := if e.keymap.viState? = some .command then [] else (complete? word e.entries).getD []
      ∃ e' front, e.press ⟨.tab, mods⟩ = .goOn e' none ∧
        e.buffer.before = front ++ word ∧ Trails isWordChar front word ∧
        e'.buffer.before = front ++ (word ++ suffix) ∧ e'.buffer.after = e.buffer.after ∧
        e'.buffer.wordBeforeCursor.toList = word ++ suffix := by
  refine ⟨fun start entries => ⟨fun suffix => complete?_eq_some, fun entries' h =>
    complete?_congr h start, completeSliced?_eq start entries⟩, ?_⟩
  intro e mods hc word suffix
  obtain ⟨front, hb, ht⟩ := e.buffer.exists_word
  refine ⟨_, front, e.press_tab mods hc, hb, ht, ?_⟩
  by_cases hv : e.keymap.viState? = some .command
  · have hs : suffix = [] := if_pos hv
    rw [hs, if_pos hv, List.append_nil]
    exact ⟨hb, rfl, rfl⟩
  · have hs : suffix = (complete? word e.entries).getD [] := if_neg hv
    have hword : ∀ c ∈ suffix, isWordChar c = true := by
      rw [hs]
      cases h : complete? word e.entries with
      | none => simp
      | some shared => exact isWordChar_of_complete h
    obtain ⟨hbefore, hafter⟩ := e.buffer.insertText_sides (String.ofList suffix)
    rw [String.toList_ofList, hb, List.append_assoc] at hbefore
    rw [if_neg hv, e.buffer_complete, ← hs]
    refine ⟨hbefore, hafter, Buffer.wordBeforeCursor_eq hbefore (trails_iff.mpr ⟨?_, ?_⟩)⟩
    · exact fun c hc => (List.mem_append.mp hc).elim (ht.all c) (hword c)
    · exact (trails_iff.mp ht).2

theorem completes_shared_accents :
    let e : Editor := { start Mode.normal.spec .vi ["caféx <- 1", "x + caféy"] with
      buffer := ⟨"1 + ca)".toList, 6⟩ }
    (∀ entry, entry ∈ ["caféy", "caféx", "caféy"] ↔ entry ∈ ["caféx", "caféy"]) ∧
      complete? "ca".toList ["caféy", "caféx", "caféy"] = complete? "ca".toList ["caféx", "caféy"] ∧
      complete? "caf".toList ["cafés", "cafès"] = none ∧
      e.spec.completion = true ∧
      ∃ e', e.press ⟨.tab, {}⟩ = .goOn e' none ∧ e'.buffer.before = "1 + café".toList ∧
        e'.buffer.after = ")".toList := by
  intro e
  have hm : ∀ entry, entry ∈ ["caféy", "caféx", "caféy"] ↔ entry ∈ ["caféx", "caféy"] := by
    intro entry
    simp only [List.mem_cons, List.not_mem_nil, or_false]
    constructor
    · rintro (rfl | rfl | rfl) <;> simp
    · rintro (rfl | rfl) <;> simp
  obtain ⟨-, hcongr, -⟩ := completes_shared.1 "ca".toList ["caféx", "caféy"]
  obtain ⟨e', front, hp, hb, -, hbefore, hafter, -⟩ := completes_shared.2 e {} rfl
  rw [← List.append_assoc, ← hb] at hbefore
  exact ⟨hm, hcongr _ hm, by decide +kernel, rfl, e', hp, hbefore.trans (by decide +kernel),
    hafter.trans (by decide +kernel)⟩

/-- After `c`, `a`, escape and `l` the word goes on as in an entry, and yet Tab leaves it as it is. -/
theorem completes_shared_not_in_command_state :
    let e := start Mode.normal.spec .vi ["cafe"]
    let typed : Editor := { e with buffer := ⟨['c', 'a'], 2⟩ }
    let away : Editor :=
      { e with buffer := ⟨['c', 'a'], 1⟩, keymap := { mode := .vi, vi := .command } }
    let back : Editor := { away with buffer := ⟨['c', 'a'], 2⟩ }
    e.press (.ofChar 'c') = .goOn { e with buffer := ⟨['c'], 1⟩ } none ∧
      Editor.press { e with buffer := ⟨['c'], 1⟩ } (.ofChar 'a') = .goOn typed none ∧
      typed.press ⟨.esc, {}⟩ = .goOn away none ∧ away.press (.ofChar 'l') = .goOn back none ∧
      back.spec.completion = true ∧ back.buffer.wordBeforeCursor = "ca" ∧
      complete? "ca".toList back.entries = some "fe".toList ∧
      ¬ ∃ e', back.press ⟨.tab, {}⟩ = .goOn e' none ∧ e'.buffer.wordBeforeCursor = "cafe" := by
  intro e typed away back
  have htab : back.press ⟨.tab, {}⟩ = .goOn back none := by decide +kernel
  refine ⟨by decide +kernel, by decide +kernel, by decide +kernel, by decide +kernel, rfl,
    by decide +kernel, by decide +kernel, ?_⟩
  rintro ⟨e', he, hw⟩
  rw [htab] at he
  cases he
  exact absurd hw (by decide +kernel)

end Editor

end RConsole
