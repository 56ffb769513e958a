import RConsole.Proofs.Text.Pieces
import RConsole.Proofs.Text.Runs

namespace RConsole

/-- `run` is a part of the text whose characters satisfy `p`, and is longer on neither side. -/
def IsRun (p : Char → Bool) (text run : List Char) : Prop :=
  ∃ front rest, text = front ++ run ++ rest ∧ Trails p front run ∧ Leads p run rest

section

variable {p : Char → Bool} {run rest text : List Char} {b : Char}

theorem pieces_run (h : ∀ c ∈ run, p c = true) : pieces (fun c => !p c) run = [run] := by
  apply pieces_of_none
  intro c hc
  rw [h c hc]
  rfl

theorem pieces_run_break (h : ∀ c ∈ run, p c = true) (hb : p b = false) (rest : List Char) :
    pieces (fun c => !p c) (run ++ b :: rest) = run :: pieces (fun c => !p c) rest := by
  rw [pieces_append (by rw [hb]; rfl), pieces_run h]
  rfl

theorem eq_nil_of_trails {front : List Char} (h : ∀ c ∈ front, p c = true) (ht : Trails p front run) :
    front = [] := by
  rcases List.eq_nil_or_concat front with rfl | ⟨front, c, rfl⟩
  · rfl
  · have hc := (trails_iff.mp ht).2 c (by simp)
    rw [h c (by simp)] at hc
    cases hc

theorem isRun_nil_iff {lead : List Char} (hl : Leads p lead rest) (hs : lead ++ rest = run ++ text)
    (h : Leads p run text) : run = lead := by
  rw [← hl.takeWhile, hs, h.takeWhile]

theorem isRun_run_iff (h : ∀ c ∈ text, p c = true) : IsRun p text run ↔ run = text := by
  constructor
  · rintro ⟨front, rest, rfl, ht, hl⟩
    obtain rfl : front = [] := eq_nil_of_trails (fun c hc => h c (by simp [hc])) ht
    have hall : Leads p (run ++ rest) [] := leads_iff.mpr ⟨h, by simp⟩
    simpa using isRun_nil_iff hall (List.append_nil _) hl
  · rintro rfl
    exact ⟨[], [], by simp, trails_iff.mpr ⟨h, by simp⟩, leads_iff.mpr ⟨h, by simp⟩⟩

theorem isRun_break_iff {lead : List Char} (h : ∀ c ∈ lead, p c = true) (hb : p b = false) :
    IsRun p (lead ++ b :: rest) run ↔ run = lead ∨ IsRun p rest run := by
  have hlead : Leads p lead (b :: rest) := leads_iff.mpr ⟨h, by simp [hb]⟩
  constructor
  · rintro ⟨front, after, hs, ht, hl⟩
    rw [List.append_assoc] at hs
    rcases List.append_eq_append_iff.mp hs with ⟨more, hf, hm⟩ | ⟨more, hf, -⟩
    · cases more with
      | nil =>
        obtain rfl : front = lead := by simpa using hf
        obtain rfl : front = [] := eq_nil_of_trails h ht
        exact .inl (isRun_nil_iff hlead hs hl)
      | cons c more =>
        rw [List.cons_append] at hm
        obtain ⟨rfl, hrest⟩ := List.cons.inj hm
        refine .inr ⟨more, after, by rw [hrest, List.append_assoc], ?_, hl⟩
        refine trails_iff.mpr ⟨ht.all, fun c hc => (trails_iff.mp ht).2 c ?_⟩
        rw [hf, List.getLast?_append, List.getLast?_cons, hc]
        rfl
    · obtain rfl : front = [] := eq_nil_of_trails (fun c hc => h c (by simp [hf, hc])) ht
      exact .inl (isRun_nil_iff hlead hs hl)
  · rintro (rfl | ⟨front, after, rfl, ht, hl⟩)
    · exact ⟨[], b :: rest, by simp, trails_iff.mpr ⟨h, by simp⟩, hlead⟩
    · refine ⟨lead ++ b :: front, after, by simp, trails_iff.mpr ⟨ht.all, fun c hc => ?_⟩, hl⟩
      rw [List.getLast?_append, List.getLast?_cons] at hc
      cases hlast : front.getLast? with
      | none =>
        rw [hlast] at hc
        cases hc
        exact hb
      | some d =>
        rw [hlast] at hc
        cases hc
        exact (trails_iff.mp ht).2 _ hlast

theorem mem_pieces_iff (text : List Char) :
    run ∈ pieces (fun c => !p c) text ↔ IsRun p text run := by
  obtain ⟨lead, tail, ht, hl⟩ := exists_leads p text
  cases tail with
  | nil =>
    rw [List.append_nil] at ht
    subst ht
    rw [pieces_run hl.all, isRun_run_iff hl.all, List.mem_singleton]
  | cons b rest =>
    have hb : p b = false := (leads_iff.mp hl).2 b rfl
    have ih : run ∈ pieces (fun c => !p c) rest ↔ IsRun p rest run := mem_pieces_iff rest
    subst ht
    rw [pieces_run_break hl.all hb, isRun_break_iff hl.all hb, List.mem_cons, ih]
termination_by text.length
decreasing_by
  rw [ht, List.length_append, List.length_cons]
  omega

end

end RConsole
