namespace RConsole

structure Leads (p : Char → Bool) (run rest : List Char) : Prop where
  all : ∀ c ∈ run, p c = true
  longest : ∀ other, other <+: run ++ rest → (∀ c ∈ other, p c = true) → other <+: run

structure Trails (p : Char → Bool) (front run : List Char) : Prop where
  all : ∀ c ∈ run, p c = true
  longest : ∀ other, other <:+ front ++ run → (∀ c ∈ other, p c = true) → other <:+ run

section

variable {p : Char → Bool} {front run rest : List Char}

theorem leads_iff : Leads p run rest ↔
    (∀ c ∈ run, p c = true) ∧ ∀ c, rest.head? = some c → p c = false := by
  constructor
  · rintro ⟨hall, hlong⟩
    refine ⟨hall, fun c hc => Bool.eq_false_iff.mpr fun hp => ?_⟩
    obtain ⟨tail, rfl⟩ := List.head?_eq_some_iff.mp hc
    -- The run would go on with `c`.
    have hle := (hlong (run ++ [c]) ⟨tail, by simp⟩ (by simpa [or_imp, forall_and, hp] using hall)).length_le
    simp only [List.length_append, List.length_singleton] at hle
    omega
  · rintro ⟨hall, hstop⟩
    refine ⟨hall, fun other ho hp => ?_⟩
    rcases List.prefix_or_prefix_of_prefix ho (List.prefix_append run rest) with h | ⟨more, rfl⟩
    · exact h
    · cases more with
      | nil => simp
      | cons c more =>
        obtain ⟨tail, ht⟩ := (List.prefix_append_right_inj run).mp ho
        have hc := hstop c (by rw [← ht]; rfl)
        rw [hp c (by simp)] at hc
        cases hc

theorem trails_iff_leads : Trails p front run ↔ Leads p run.reverse front.reverse := by
  constructor
  · rintro ⟨hall, hlong⟩
    refine ⟨fun c hc => hall c (List.mem_reverse.mp hc), fun other ho hp => ?_⟩
    rw [← List.reverse_append, ← List.reverse_reverse other, List.reverse_prefix] at ho
    rw [← List.reverse_reverse other, List.reverse_prefix]
    exact hlong _ ho fun c hc => hp c (List.mem_reverse.mp hc)
  · rintro ⟨hall, hlong⟩
    refine ⟨fun c hc => hall c (List.mem_reverse.mpr hc), fun other ho hp => ?_⟩
    rw [← List.reverse_prefix, List.reverse_append] at ho
    rw [← List.reverse_prefix]
    exact hlong _ ho fun c hc => hp c (List.mem_reverse.mp hc)

theorem trails_iff : Trails p front run ↔
    (∀ c ∈ run, p c = true) ∧ ∀ c, front.getLast? = some c → p c = false := by
  rw [trails_iff_leads, leads_iff]
  simp only [List.mem_reverse, List.head?_reverse]

theorem Leads.takeWhile (h : Leads p run rest) : (run ++ rest).takeWhile p = run := by
  obtain ⟨hall, hstop⟩ := leads_iff.mp h
  rw [List.takeWhile_append_of_pos hall]
  cases rest with
  | nil => simp
  | cons c rest => simp [hstop c rfl]

theorem Leads.dropWhile (h : Leads p run rest) : (run ++ rest).dropWhile p = rest := by
  have hs := List.takeWhile_append_dropWhile (p := p) (l := run ++ rest)
  rw [h.takeWhile] at hs
  exact List.append_cancel_left hs

theorem Trails.takeWhile (h : Trails p front run) :
    (front ++ run).reverse.takeWhile p = run.reverse := by
  rw [List.reverse_append]
  exact (trails_iff_leads.mp h).takeWhile

theorem Trails.dropWhile (h : Trails p front run) :
    (front ++ run).reverse.dropWhile p = front.reverse := by
  rw [List.reverse_append]
  exact (trails_iff_leads.mp h).dropWhile

theorem exists_leads (p : Char → Bool) (text : List Char) :
    ∃ run rest, text = run ++ rest ∧ Leads p run rest := by
  refine ⟨text.takeWhile p, text.dropWhile p, List.takeWhile_append_dropWhile.symm, ?_⟩
  refine leads_iff.mpr ⟨fun c hc => List.all_eq_true.mp List.all_takeWhile c hc, fun c hc => ?_⟩
  have hstop := List.head?_dropWhile_not p text
  rw [hc] at hstop
  exact hstop

theorem exists_trails (p : Char → Bool) (text : List Char) :
    ∃ front run, text = front ++ run ∧ Trails p front run := by
  obtain ⟨run, rest, ht, h⟩ := exists_leads p text.reverse
  refine ⟨rest.reverse, run.reverse, ?_, ?_⟩
  · rw [← List.reverse_append, ← ht, List.reverse_reverse]
  · rw [trails_iff_leads, List.reverse_reverse, List.reverse_reverse]
    exact h

end

end RConsole
