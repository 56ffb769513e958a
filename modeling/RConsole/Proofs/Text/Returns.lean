import RConsole.Proofs.Text.RawText

/-!
Text in raw mode as a form of its own: a carriage return stands in front of each newline, and nothing
stands behind the last one. Text of that form is left as it is, and any other text gets there by
carriage returns and one newline, so that it says what it said.
-/
namespace RConsole

variable {cs : List Char}

def Returned (cs : List Char) : Prop :=
  ∀ front back, cs = front ++ '\n' :: back → front.getLast? = some '\r'

def ReturnedAfter (afterReturn : Bool) (cs : List Char) : Prop :=
  ∀ front back, cs = front ++ '\n' :: back →
    front.getLast? = some '\r' ∨ front = [] ∧ afterReturn = true

theorem returnedAfter_false_iff : ReturnedAfter false cs ↔ Returned cs := by
  simp [ReturnedAfter, Returned]

theorem returnedAfter_cons_iff {b : Bool} {c : Char} :
    ReturnedAfter b (c :: cs) ↔ (c = '\n' → b = true) ∧ ReturnedAfter (c == '\r') cs := by
  constructor
  · intro h
    refine ⟨?_, ?_⟩
    · rintro rfl
      exact ((h [] cs rfl).resolve_left (by simp)).2
    · intro front back he
      have hl := (h (c :: front) back (congrArg (c :: ·) he)).resolve_right (by simp)
      cases front with
      | nil => exact .inr ⟨rfl, by simpa using hl⟩
      | cons x front => exact .inl hl
  · rintro ⟨hc, h⟩ front back he
    cases front with
    | nil => exact .inr ⟨rfl, hc (List.cons.inj he).1⟩
    | cons x front =>
      obtain ⟨rfl, ht⟩ := List.cons.inj he
      rcases h front back ht with hl | ⟨rfl, hr⟩
      · left
        rw [List.getLast?_cons, hl]
        rfl
      · exact .inl (congrArg some (eq_of_beq hr))

theorem returnedAfter_returnNewlines (b : Bool) (cs : List Char) :
    ReturnedAfter b (returnNewlines b cs) := by
  induction cs generalizing b with
  | nil => simp [ReturnedAfter, returnNewlines]
  | cons c cs ih =>
    rw [returnNewlines]
    split
    · rw [returnedAfter_cons_iff, returnedAfter_cons_iff]
      exact ⟨by simp, by simp, ih false⟩
    · rename_i hc
      rw [returnedAfter_cons_iff]
      exact ⟨fun hn => by simpa [hn] using hc, ih _⟩

theorem returnNewlines_eq_self {b : Bool} (h : ReturnedAfter b cs) : returnNewlines b cs = cs := by
  induction cs generalizing b with
  | nil => rfl
  | cons c cs ih =>
    rw [returnedAfter_cons_iff] at h
    have hc : ¬ (c = '\n' ∧ b = false) := fun he => by simp [h.1 he.1] at he
    rw [returnNewlines, if_neg hc, ih h.2]

def dropReturns : List Char → List Char
  | [] => []
  | '\r' :: '\n' :: cs => '\n' :: dropReturns cs
  | c :: cs => c :: dropReturns cs

theorem dropReturns_return (h : cs.head? ≠ some '\n') :
    dropReturns ('\r' :: cs) = '\r' :: dropReturns cs := by
  apply dropReturns.eq_3
  rintro ds - rfl
  exact h rfl

theorem dropReturns_cons {c : Char} (h : c ≠ '\r') (cs : List Char) :
    dropReturns (c :: cs) = c :: dropReturns cs :=
  dropReturns.eq_3 c cs fun _ hc _ => h hc

theorem head?_returnNewlines_ne (cs : List Char) : (returnNewlines false cs).head? ≠ some '\n' := by
  cases cs with
  | nil => simp [returnNewlines]
  | cons c cs =>
    rw [returnNewlines]
    split
    · simp
    · rename_i h
      simpa using h

theorem returnNewlines_of_head (h : cs.head? ≠ some '\n') (b : Bool) :
    returnNewlines b cs = returnNewlines false cs := by
  cases cs with
  | nil => rfl
  | cons c cs =>
    have hc : c ≠ '\n' := by simpa using h
    rw [returnNewlines, returnNewlines, if_neg (fun he => hc he.1), if_neg (fun he => hc he.1)]

theorem dropReturns_returnNewlines (cs : List Char) :
    dropReturns (returnNewlines false cs) = dropReturns cs := by
  fun_induction dropReturns cs with
  | case1 => rfl
  | case2 cs ih => simp [returnNewlines, dropReturns, ih]
  | case3 c cs hc ih =>
    by_cases hn : c = '\n'
    · subst hn
      simp [returnNewlines, dropReturns, ih]
    · rw [returnNewlines, if_neg (fun h => hn h.1)]
      by_cases hr : c = '\r'
      · subst hr
        have hh : cs.head? ≠ some '\n' := by
          intro h
          obtain ⟨ds, rfl⟩ := List.head?_eq_some_iff.mp h
          exact hc ds rfl rfl
        rw [returnNewlines_of_head hh, dropReturns_return (head?_returnNewlines_ne cs), ih]
      · rw [beq_eq_false_iff_ne.mpr hr, dropReturns_cons hr, ih]

theorem dropReturns_append_newline (cs : List Char) :
    dropReturns (cs ++ ['\r', '\n']) = dropReturns cs ++ ['\n'] := by
  fun_induction dropReturns cs with
  | case1 => rfl
  | case2 cs ih => simp [dropReturns, ih]
  | case3 c cs hc ih =>
    rw [List.cons_append, List.cons_append, ← ih]
    apply dropReturns.eq_3
    rintro ds rfl he
    cases cs with
    | nil => cases he
    | cons d cs =>
      obtain ⟨rfl, -⟩ := List.cons.inj he
      exact hc cs rfl rfl

def completed (cs : List Char) : List Char := cs ++ if LineEnds cs then [] else ['\r', '\n']

theorem rawText_eq_completed (cs : List Char) : rawText cs = returnNewlines false (completed cs) := by
  rw [rawText_eq_append, completed]
  split
  · rw [List.append_nil, List.append_nil]
  · rw [returnNewlines_append]
    rfl

theorem lineEnds_rawText (cs : List Char) : LineEnds (rawText cs) := by
  rcases rawText_ended cs with h | ⟨front, h⟩
  · exact .inl h
  · rw [h, lineEnds_append (by simp)]
    exact .inr rfl

theorem returned_rawText (cs : List Char) : Returned (rawText cs) := by
  rw [rawText_eq_completed]
  exact returnedAfter_false_iff.mp (returnedAfter_returnNewlines false _)

theorem rawText_eq_self (h : Returned cs) (he : LineEnds cs) : rawText cs = cs := by
  rw [rawText_eq_append, if_pos he, List.append_nil]
  exact returnNewlines_eq_self (returnedAfter_false_iff.mpr h)

theorem rawText_eq_nil_iff : rawText cs = [] ↔ cs = [] := by
  constructor
  · intro h
    rw [rawText_eq_append, List.append_eq_nil_iff, ← List.getLast?_eq_none_iff,
      getLast?_returnNewlines, List.getLast?_eq_none_iff] at h
    exact h.1
  · rintro rfl
    rfl

theorem dropReturns_rawText (cs : List Char) :
    dropReturns (rawText cs) = dropReturns cs ++ if LineEnds cs then [] else ['\n'] := by
  rw [rawText_eq_completed, dropReturns_returnNewlines, completed]
  split
  · rw [List.append_nil, List.append_nil]
  · exact dropReturns_append_newline cs

/-- Text in raw mode has full newlines only and ends with one, unless it is empty; but for the carriage
returns in front of newlines, and a last newline where there was none, it is the text that it was made
of; and it is in raw mode what it is already. -/
theorem rawText_normalizes (cs : List Char) :
    Returned (rawText cs) ∧
    (rawText cs = [] ↔ cs = []) ∧
    (cs = [] ∨ (rawText cs).getLast? = some '\n') ∧
    dropReturns (rawText cs) =
      dropReturns cs ++ (if cs = [] ∨ cs.getLast? = some '\n' then [] else ['\n']) ∧
    rawText (rawText cs) = rawText cs := by
  refine ⟨returned_rawText cs, rawText_eq_nil_iff, ?_, dropReturns_rawText cs, ?_⟩
  · exact (lineEnds_rawText cs).imp_left rawText_eq_nil_iff.mp
  · exact rawText_eq_self (returned_rawText cs) (lineEnds_rawText cs)

example : rawText ['a', '\r'] = ['a', '\r', '\r', '\n'] := rfl

end RConsole
