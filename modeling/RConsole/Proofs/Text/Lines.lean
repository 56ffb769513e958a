import RConsole.Proofs.Text.Pieces
import RConsole.Text.Pieces

namespace RConsole

theorem joinLines_cons {line : List Char} {lines : List (List Char)} (h : lines ≠ []) :
    joinLines (line :: lines) = line ++ '\n' :: joinLines lines := by
  obtain ⟨next, rest, rfl⟩ := List.exists_cons_of_ne_nil h
  simp [joinLines, List.intercalate]

theorem joinLines_splitLines (cs : List Char) : joinLines (splitLines cs) = cs := by
  induction cs with
  | nil => rfl
  | cons c cs ih =>
    unfold splitLines at ih ⊢
    have hne : pieces (· == '\n') cs ≠ [] := pieces_ne_nil _ cs
    rw [pieces]
    split
    · rename_i hc
      rw [joinLines_cons hne, ih, List.nil_append, eq_of_beq hc]
    · split
      · rename_i hp
        exact absurd hp hne
      · rename_i w ws hp
        rw [hp] at ih
        rcases ws with _ | ⟨v, ws⟩
        · exact congrArg (List.cons c) ih
        · rw [joinLines_cons (List.cons_ne_nil _ _)] at ih ⊢
          rw [List.cons_append, ih]

theorem splitLines_ne_nil (cs : List Char) : splitLines cs ≠ [] := pieces_ne_nil _ cs

theorem splitLines_newline (cs : List Char) : splitLines ('\n' :: cs) = [] :: splitLines cs := rfl

theorem splitLines_cons {c : Char} {cs line : List Char} {lines : List (List Char)} (hc : c ≠ '\n')
    (h : splitLines cs = line :: lines) : splitLines (c :: cs) = (c :: line) :: lines :=
  pieces_cons (beq_eq_false_iff_ne.mpr hc) h

theorem mem_of_mem_splitLines {c : Char} {cs line : List Char} (h : line ∈ splitLines cs)
    (hc : c ∈ line) : c ∈ cs ∧ c ≠ '\n' := by
  have hm := mem_of_mem_pieces h hc
  exact ⟨hm.1, beq_eq_false_iff_ne.mp hm.2⟩

def ended (line : List Char) : List Char := line ++ ['\r', '\n']

theorem returnNewlines_eq {cs : List Char} (h : '\r' ∉ cs) :
    ∃ front last, splitLines cs = front ++ [last] ∧
      returnNewlines false cs = front.flatMap ended ++ last := by
  induction cs with
  | nil => exact ⟨[], [], rfl, rfl⟩
  | cons c cs ih =>
    obtain ⟨front, last, hs, hr⟩ := ih (fun hm => h (List.mem_cons_of_mem c hm))
    by_cases hn : c = '\n'
    · subst hn
      refine ⟨[] :: front, last, by rw [splitLines_newline, hs, List.cons_append], ?_⟩
      rw [returnNewlines, if_pos ⟨rfl, rfl⟩, hr]
      simp [ended]
    · have hb : (c == '\r') = false :=
        beq_eq_false_iff_ne.mpr fun he => h (he ▸ List.mem_cons_self)
      rw [returnNewlines, if_neg (fun he => hn he.1), hb, hr]
      cases front with
      | nil => exact ⟨[], c :: last, splitLines_cons hn hs, rfl⟩
      | cons line front =>
        exact ⟨(c :: line) :: front, last, splitLines_cons hn hs, by simp [ended]⟩

theorem mem_of_mem_fileLines {c : Char} {cs line : List Char} (h : '\r' ∉ cs)
    (hl : line ∈ fileLines cs) (hc : c ∈ line) : c ∈ cs ∧ c ≠ '\n' := by
  have hm : line ∈ splitLines cs := by
    unfold fileLines at hl
    have hd : ∀ l ∈ (splitLines cs).dropLast.map dropReturn, l ∈ splitLines cs := by
      intro l hl
      obtain ⟨l', hl', rfl⟩ := List.mem_map.mp hl
      have hl'' := List.dropLast_subset _ hl'
      have hr : l'.getLast? ≠ some '\r' := fun he =>
        h (mem_of_mem_splitLines hl'' (List.mem_of_getLast? he)).1
      rw [dropReturn, if_neg hr]
      exact hl''
    dsimp only at hl
    split at hl
    · rename_i c' r hg
      rcases List.mem_append.mp hl with hl | hl
      · exact hd _ hl
      · rw [List.mem_singleton.mp hl]
        exact List.mem_of_getLast? hg
    · exact hd _ hl
  exact mem_of_mem_splitLines hm hc

theorem rawText_eq {cs : List Char} (h : '\r' ∉ cs) : rawText cs = (fileLines cs).flatMap ended := by
  obtain ⟨front, last, hs, hr⟩ := returnNewlines_eq h
  have hd : front.map dropReturn = front := by
    refine (List.map_congr_left fun line hl => ?_).trans (List.map_id front)
    have hl' : line.getLast? ≠ some '\r' := fun he =>
      h (mem_of_mem_splitLines (hs ▸ List.mem_append_left [last] hl) (List.mem_of_getLast? he)).1
    rw [dropReturn, if_neg hl']
    rfl
  unfold rawText fileLines
  rw [hs, hr]
  simp only [List.dropLast_concat, List.getLast?_concat, hd]
  rcases List.eq_nil_or_concat last with rfl | ⟨start, c, rfl⟩
  · -- Nothing stands behind the last newline.
    rw [List.append_nil]
    rcases List.eq_nil_or_concat front with rfl | ⟨lines, line, rfl⟩
    · rfl
    · rw [if_pos (.inr (by simp [ended]))]
  · rw [List.concat_eq_append] at hs ⊢
    have hl : start ++ [c] ∈ splitLines cs := by rw [hs]; simp
    have hc : c ≠ '\n' := (mem_of_mem_splitLines hl (by simp)).2
    have hlast : (front.flatMap ended ++ (start ++ [c])).getLast? = some c := by
      rw [← List.append_assoc, List.getLast?_concat]
    rw [if_neg (by rw [hlast]; simp [hc])]
    cases start with
    | nil => simp [ended]
    | cons c' start => simp [ended]

theorem splitLines_append_newline (cs ds : List Char) :
    splitLines (cs ++ '\n' :: ds) = splitLines cs ++ splitLines ds := pieces_append rfl cs ds

theorem splitLines_of_not_mem {cs : List Char} (h : '\n' ∉ cs) : splitLines cs = [cs] := by
  apply pieces_of_none
  intro c hc
  apply beq_eq_false_iff_ne.mpr
  rintro rfl
  exact h hc

theorem fileLines_append_newline (cs ds : List Char) :
    fileLines (cs ++ '\n' :: ds) = (splitLines cs).map dropReturn ++ fileLines ds := by
  obtain ⟨front, last, hd⟩ : ∃ front last, splitLines ds = front ++ [last] :=
    ⟨_, _, (List.dropLast_concat_getLast (splitLines_ne_nil ds)).symm⟩
  unfold fileLines
  rw [splitLines_append_newline, hd, ← List.append_assoc]
  simp only [List.dropLast_concat, List.getLast?_concat, List.map_append]
  split
  · rw [List.append_assoc]
  · rfl

theorem joinLines_around (above below : List (List Char)) (line : List Char) :
    joinLines (above ++ line :: below) =
      above.flatMap (· ++ ['\n']) ++ (line ++ below.flatMap ('\n' :: ·)) := by
  induction above with
  | nil =>
    rw [List.nil_append, List.flatMap_nil, List.nil_append]
    induction below generalizing line with
    | nil => simp [joinLines]
    | cons next below ih => rw [joinLines_cons (List.cons_ne_nil _ _), ih, List.flatMap_cons]; rfl
  | cons first above ih =>
    rw [List.cons_append, joinLines_cons (by simp), ih]
    simp

theorem splitLines_joinLines {lines : List (List Char)} (hne : lines ≠ [])
    (h : ∀ line ∈ lines, '\n' ∉ line) : splitLines (joinLines lines) = lines := by
  apply pieces_intercalate rfl hne
  intro line hl c hc
  apply beq_eq_false_iff_ne.mpr
  rintro rfl
  exact h line hl hc

theorem joinLines_concat (front : List (List Char)) (last : List Char) :
    ∃ before, joinLines (front ++ [last]) = before ++ last := by
  induction front with
  | nil => exact ⟨[], by simp [joinLines]⟩
  | cons line front ih =>
    obtain ⟨before, hb⟩ := ih
    refine ⟨line ++ '\n' :: before, ?_⟩
    rw [List.cons_append, joinLines_cons (by simp), hb]
    simp

theorem map_dropReturn_splitLines {cs : List Char} (h : cs.getLast? ≠ some '\r') :
    (splitLines cs).map dropReturn = fileLines cs ∨
      (splitLines cs).map dropReturn = fileLines cs ++ [[]] := by
  obtain ⟨front, last, hs⟩ : ∃ front last, splitLines cs = front ++ [last] :=
    ⟨_, _, (List.dropLast_concat_getLast (splitLines_ne_nil cs)).symm⟩
  obtain ⟨before, hb⟩ := joinLines_concat front last
  rw [← hs, joinLines_splitLines] at hb
  unfold fileLines
  rw [hs]
  simp only [List.dropLast_concat, List.getLast?_concat, List.map_append]
  cases last with
  | nil => exact .inr rfl
  | cons c r =>
    have hl : (c :: r).getLast? ≠ some '\r' := by
      intro he
      rw [hb, List.getLast?_append, he] at h
      exact h rfl
    refine .inl ?_
    rw [List.map_singleton, dropReturn, if_neg hl]

theorem fileLines_flatMap {lines : List (List Char)} (h : ∀ line ∈ lines, '\n' ∉ line) :
    fileLines (lines.flatMap fun line => line ++ ['\n']) = lines.map dropReturn := by
  induction lines with
  | nil => rfl
  | cons line lines ih =>
    obtain ⟨hl, hr⟩ := List.forall_mem_cons.mp h
    rw [List.flatMap_cons, List.append_assoc, List.singleton_append, fileLines_append_newline,
      splitLines_of_not_mem hl, ih hr]
    rfl

end RConsole
