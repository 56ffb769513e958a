import RConsole.Text.Pieces

namespace RConsole

variable {cs ds : List Char}

theorem returnNewlines_append (b : Bool) (cs ds : List Char) :
    returnNewlines b (cs ++ ds) =
      returnNewlines b cs ++ returnNewlines ((cs.getLast?.map (· == '\r')).getD b) ds := by
  induction cs generalizing b with
  | nil => rfl
  | cons c cs ih =>
    have hl : ((c :: cs).getLast?.map (· == '\r')).getD b =
        (cs.getLast?.map (· == '\r')).getD (c == '\r') := by
      rw [List.getLast?_cons]
      cases cs.getLast? <;> rfl
    rw [hl, List.cons_append, returnNewlines, returnNewlines]
    by_cases hc : c = '\n' ∧ b = false
    · obtain ⟨rfl, rfl⟩ := hc
      simp only [and_self, if_true, ih, List.cons_append]
      rfl
    · rw [if_neg hc, if_neg hc, ih, List.cons_append]

theorem getLast?_returnNewlines (b : Bool) (cs : List Char) :
    (returnNewlines b cs).getLast? = cs.getLast? := by
  induction cs generalizing b with
  | nil => rfl
  | cons c cs ih =>
    rw [returnNewlines]
    by_cases hc : c = '\n' ∧ b = false
    · rw [if_pos hc, List.getLast?_cons, List.getLast?_cons, List.getLast?_cons, ih, hc.1]
      cases cs.getLast? <;> rfl
    · rw [if_neg hc, List.getLast?_cons, List.getLast?_cons, ih]

theorem count_returnNewlines (b : Bool) (cs : List Char) :
    (returnNewlines b cs).count '\n' = cs.count '\n' := by
  induction cs generalizing b with
  | nil => rfl
  | cons c cs ih =>
    rw [returnNewlines]
    by_cases hc : c = '\n' ∧ b = false
    · obtain ⟨rfl, rfl⟩ := hc
      simp [ih]
    · rw [if_neg hc, List.count_cons, List.count_cons, ih]

def LineEnds (cs : List Char) : Prop := cs = [] ∨ cs.getLast? = some '\n'

instance (cs : List Char) : Decidable (LineEnds cs) :=
  inferInstanceAs (Decidable (cs = [] ∨ cs.getLast? = some '\n'))

theorem lineEnds_append (h : ds ≠ []) : LineEnds (cs ++ ds) ↔ LineEnds ds := by
  obtain ⟨front, last, rfl⟩ := (List.eq_nil_or_concat ds).resolve_left h
  simp [LineEnds, ← List.append_assoc]

theorem rawText_eq_append (cs : List Char) :
    rawText cs = returnNewlines false cs ++ if LineEnds cs then [] else ['\r', '\n'] := by
  have hends : returnNewlines false cs = [] ∨ (returnNewlines false cs).getLast? = some '\n' ↔
      LineEnds cs := by
    rw [← List.getLast?_eq_none_iff, getLast?_returnNewlines, List.getLast?_eq_none_iff]
    rfl
  unfold rawText
  by_cases h : LineEnds cs
  · rw [if_pos h, List.append_nil]
    exact if_pos (hends.mpr h)
  · rw [if_neg h]
    exact if_neg (mt hends.mp h)

theorem rawText_append (h : LineEnds cs ∨ ds = []) : rawText (cs ++ ds) = rawText cs ++ rawText ds := by
  by_cases hd : ds = []
  · subst hd
    rw [List.append_nil]
    exact (List.append_nil _).symm
  · have hc : LineEnds cs := h.resolve_right hd
    have hb : (cs.getLast?.map (· == '\r')).getD false = false := by
      rcases hc with rfl | hc
      · rfl
      · rw [hc]
        rfl
    rw [rawText_eq_append, rawText_eq_append cs, rawText_eq_append ds, returnNewlines_append, hb,
      if_pos hc, List.append_nil, List.append_assoc]
    simp only [lineEnds_append hd]

theorem rawText_ended (cs : List Char) :
    rawText cs = [] ∨ ∃ front, rawText cs = front ++ ['\r', '\n'] := by
  rw [rawText_eq_append]
  by_cases he : LineEnds cs
  · rw [if_pos he, List.append_nil]
    rcases he with rfl | he
    · exact .inl rfl
    · obtain ⟨front, rfl⟩ := List.getLast?_eq_some_iff.mp he
      right
      rw [returnNewlines_append]
      rcases List.eq_nil_or_concat front with rfl | ⟨start, c, rfl⟩
      · exact ⟨[], rfl⟩
      · rw [List.concat_eq_append]
        by_cases hc : c = '\r'
        · -- The newline has its return already.
          subst hc
          refine ⟨returnNewlines false start, ?_⟩
          rw [returnNewlines_append]
          simp [returnNewlines]
        · refine ⟨returnNewlines false (start ++ [c]), ?_⟩
          simp [returnNewlines, hc]
  · rw [if_neg he]
    exact .inr ⟨_, rfl⟩

def supplied (cs : List Char) : Nat := if LineEnds cs then 0 else 1

theorem count_rawText (cs : List Char) : (rawText cs).count '\n' = cs.count '\n' + supplied cs := by
  rw [rawText_eq_append, List.count_append, count_returnNewlines, supplied]
  split <;> rfl

theorem supplied_append (h : ds ≠ []) : supplied (cs ++ ds) = supplied ds := by
  simp only [supplied, lineEnds_append h]

def CutAtLines : List (List Char) → Prop
  | [] => True
  | cs :: pieces => (LineEnds cs ∨ pieces.flatten = []) ∧ CutAtLines pieces

instance decidableCutAtLines : (pieces : List (List Char)) → Decidable (CutAtLines pieces)
  | [] => isTrue trivial
  | cs :: pieces =>
    have := decidableCutAtLines pieces
    inferInstanceAs (Decidable ((LineEnds cs ∨ pieces.flatten = []) ∧ CutAtLines pieces))

theorem flatMap_rawText {pieces : List (List Char)} (h : CutAtLines pieces) :
    pieces.flatMap rawText = rawText pieces.flatten := by
  induction pieces with
  | nil => rfl
  | cons cs pieces ih => rw [List.flatMap_cons, List.flatten_cons, rawText_append h.1, ih h.2]

def suppliedAll : List (List Char) → Nat
  | [] => 0
  | cs :: pieces => supplied cs + suppliedAll pieces

theorem count_flatMap_rawText (pieces : List (List Char)) :
    (pieces.flatMap rawText).count '\n' = pieces.flatten.count '\n' + suppliedAll pieces := by
  induction pieces with
  | nil => rfl
  | cons cs pieces ih =>
    rw [List.flatMap_cons, List.count_append, count_rawText, ih, List.flatten_cons, List.count_append,
      suppliedAll]
    omega

theorem supplied_flatten_le (pieces : List (List Char)) :
    supplied pieces.flatten ≤ suppliedAll pieces := by
  induction pieces with
  | nil => exact Nat.le_refl _
  | cons cs pieces ih =>
    rw [List.flatten_cons, suppliedAll]
    by_cases hp : pieces.flatten = []
    · rw [hp, List.append_nil]
      exact Nat.le_add_right _ _
    · rw [supplied_append hp]
      omega

theorem cutAtLines_of_supplied {pieces : List (List Char)}
    (h : suppliedAll pieces = supplied pieces.flatten) : CutAtLines pieces := by
  induction pieces with
  | nil => trivial
  | cons cs pieces ih =>
    have hle := supplied_flatten_le pieces
    rw [List.flatten_cons, suppliedAll] at h
    by_cases hp : pieces.flatten = []
    · have hz : suppliedAll pieces = 0 := by
        rw [hp, List.append_nil] at h
        omega
      refine ⟨.inr hp, ih ?_⟩
      rw [hz, hp]
      rfl
    · rw [supplied_append hp] at h
      refine ⟨.inl ?_, ih (by omega)⟩
      by_cases hc : LineEnds cs
      · exact hc
      · have : supplied cs = 1 := if_neg hc
        omega

theorem flatMap_rawText_eq_iff (pieces : List (List Char)) :
    pieces.flatMap rawText = rawText pieces.flatten ↔ CutAtLines pieces := by
  constructor
  · intro h
    apply cutAtLines_of_supplied
    -- Each supplied newline is one more than the pieces have.
    have hcount := count_flatMap_rawText pieces
    rw [h, count_rawText] at hcount
    omega
  · exact flatMap_rawText

end RConsole
