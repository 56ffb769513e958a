import RConsole.Proofs.Text.Pieces
import RConsole.Text.Path

namespace RConsole.Path

variable {p base home : Path} {cs ds segment : List Char} {segs rest : List (List Char)}
  {steps : List Component}

theorem named_append (segs rest : List (List Char)) :
    named (segs ++ rest) = named segs ++ named rest := by
  simp [named]

theorem named_idle (h : isIdle segment = true) (segs : List (List Char)) :
    named (segment :: segs) = named segs := by
  simp [named, h]

theorem named_busy (h : isIdle segment = false) (segs : List (List Char)) :
    named (segment :: segs) = Segment.component segment :: named segs := by
  simp [named, h]

theorem named_dropWhile (segs : List (List Char)) : named (segs.dropWhile isIdle) = named segs := by
  induction segs with
  | nil => rfl
  | cons s segs ih =>
    by_cases hs : isIdle s = true
    · rw [List.dropWhile_cons_of_pos hs, ih, named_idle hs]
    · rw [List.dropWhile_cons_of_neg hs]

theorem named_reverse (segs : List (List Char)) : named segs.reverse = (named segs).reverse := by
  simp [named]

theorem named_trimEnd (segs : List (List Char)) : named (trimEnd segs) = named segs := by
  rw [trimEnd, named_reverse, named_dropWhile, named_reverse, List.reverse_reverse]

theorem not_slash_of_mem (h : segment ∈ segments cs) : '/' ∉ segment := by
  intro hm
  have hb := (mem_of_mem_pieces h hm).2
  simp at hb

theorem segments_append (cs ds : List Char) :
    segments (cs ++ '/' :: ds) = segments cs ++ segments ds := pieces_append rfl cs ds

theorem named_segments_join (h : ∀ s ∈ segs, '/' ∉ s) :
    named (segments (joinSegments segs)) = named segs := by
  by_cases hs : segs = []
  · subst hs
    rfl
  · have hj : segments (joinSegments segs) = segs := by
      apply pieces_intercalate rfl hs
      intro s hm c hc
      apply beq_eq_false_iff_ne.mpr
      rintro rfl
      exact h s hm hc
    rw [hj]

theorem exists_of_isAbsolute (h : p.isAbsolute = true) : ∃ cs, p.toList = '/' :: cs := by
  have hh : p.toList.head? = some '/' := by simpa [isAbsolute] using h
  exact List.head?_eq_some_iff.mp hh

theorem opening_root (cs : List Char) : opening ('/' :: cs) = (some .root, segments cs) := by
  obtain ⟨first, more, hs⟩ := List.exists_cons_of_ne_nil (pieces_ne_nil (· == '/') cs)
  have hb : segments ('/' :: cs) = [] :: first :: more := by
    rw [← hs]
    exact pieces_break rfl cs
  have hc : segments cs = first :: more := hs
  rw [opening, hb, hc]

theorem components_root (h : p.toList = '/' :: cs) :
    components p = .root :: named (segments cs) := by
  rw [components, h, opening_root]
  rfl

theorem components_behind (h : base.toList = '/' :: ds) (cs : List Char) :
    components (base ++ String.ofList ('/' :: cs)) = components base ++ named (segments cs) := by
  have happ : (base ++ String.ofList ('/' :: cs)).toList = '/' :: (ds ++ '/' :: cs) := by
    simp [h]
  rw [components_root happ, components_root h, segments_append, named_append]
  rfl

theorem dropNamed_split (h : dropNamed steps segs = some rest) :
    ∃ front, segs = front ++ rest ∧ named front = steps := by
  induction segs generalizing steps with
  | nil =>
    cases steps with
    | nil =>
      cases h
      exact ⟨[], rfl, rfl⟩
    | cons step steps => cases h
  | cons s segs ih =>
    cases steps with
    | nil =>
      cases h
      exact ⟨[], rfl, rfl⟩
    | cons step steps =>
      rw [dropNamed] at h
      by_cases hs : isIdle s = true
      · rw [if_pos hs] at h
        obtain ⟨front, hf, hn⟩ := ih h
        exact ⟨s :: front, by rw [hf, List.cons_append], by rw [named_idle hs, hn]⟩
      · rw [if_neg hs] at h
        rw [Bool.not_eq_true] at hs
        by_cases hc : Segment.component s = step
        · rw [if_pos hc] at h
          obtain ⟨front, hf, hn⟩ := ih h
          exact ⟨s :: front, by rw [hf, List.cons_append], by rw [named_busy hs, hc, hn]⟩
        · rw [if_neg hc] at h
          cases h

theorem dropNamed_of_prefix (h : steps <+: named segs) : ∃ rest, dropNamed steps segs = some rest := by
  induction segs generalizing steps with
  | nil =>
    rw [List.prefix_nil.mp h]
    exact ⟨[], rfl⟩
  | cons s segs ih =>
    cases steps with
    | nil => exact ⟨s :: segs, rfl⟩
    | cons step steps =>
      rw [dropNamed]
      by_cases hs : isIdle s = true
      · rw [named_idle hs] at h
        rw [if_pos hs]
        exact ih h
      · rw [if_neg hs]
        rw [Bool.not_eq_true] at hs
        rw [named_busy hs, List.cons_prefix_cons] at h
        rw [if_pos h.1.symm]
        exact ih h.2

theorem stripPrefix?_root (hp : p.toList = '/' :: cs) (hb : base.toList = '/' :: ds) :
    stripPrefix? p base = (dropNamed (named (segments ds)) (segments cs)).map fun segs =>
      String.ofList (joinSegments (trimEnd (segs.dropWhile isIdle))) := by
  rw [stripPrefix?, components_root hb, if_neg (List.cons_ne_nil _ _), hp, hb, opening_root,
    opening_root]
  rfl

theorem components_of_stripPrefix? {after : Path} (hp : p.toList = '/' :: cs)
    (hb : base.toList = '/' :: ds) (h : stripPrefix? p base = some after) :
    components p = components base ++ named (segments after.toList) := by
  rw [stripPrefix?_root hp hb] at h
  obtain ⟨rest, hd, rfl⟩ := Option.map_eq_some_iff.mp h
  obtain ⟨front, hf, hn⟩ := dropNamed_split hd
  have hclean : ∀ s ∈ trimEnd (rest.dropWhile isIdle), '/' ∉ s := by
    intro s hs
    have hin : s ∈ segments cs := by
      rw [hf]
      apply List.mem_append_right front
      apply (List.dropWhile_sublist isIdle).subset
      rw [trimEnd, List.mem_reverse] at hs
      exact List.mem_reverse.mp ((List.dropWhile_sublist isIdle).subset hs)
    exact not_slash_of_mem hin
  rw [String.toList_ofList, named_segments_join hclean, named_trimEnd, named_dropWhile,
    components_root hp, components_root hb, hf, named_append, hn]
  rfl

theorem stripPrefix?_isSome_iff (hp : p.toList = '/' :: cs) (hb : base.toList = '/' :: ds) :
    (stripPrefix? p base).isSome ↔ components base <+: components p := by
  constructor
  · intro h
    obtain ⟨after, ha⟩ := Option.isSome_iff_exists.mp h
    rw [components_of_stripPrefix? hp hb ha]
    exact List.prefix_append _ _
  · intro h
    rw [components_root hp, components_root hb, List.cons_prefix_cons] at h
    obtain ⟨rest, hr⟩ := dropNamed_of_prefix h.2
    rw [stripPrefix?_root hp hb, hr]
    rfl

theorem abbreviate_of_none (h : stripPrefix? p home = none) : abbreviate p (some home) = p := by
  simp [abbreviate, h]

theorem abbreviate_of_some {after : Path} (h : stripPrefix? p home = some after) :
    (abbreviate p (some home)).toList =
      '~' :: if after = "" then [] else '/' :: after.toList := by
  by_cases ha : after = ""
  · subst ha
    simp [abbreviate, h]
  · simp [abbreviate, h, ha]

def expand (shown : String) (home : Path) : Path :=
  if shown.toList.head? = some '~' then home ++ String.ofList shown.toList.tail else shown

theorem head?_abbreviate_iff (hp : p.isAbsolute = true) (hh : home.isAbsolute = true) :
    (abbreviate p (some home)).toList.head? = some '~' ↔ components home <+: components p := by
  obtain ⟨cs, hcs⟩ := exists_of_isAbsolute hp
  obtain ⟨ds, hds⟩ := exists_of_isAbsolute hh
  rw [← stripPrefix?_isSome_iff hcs hds]
  cases hs : stripPrefix? p home with
  | none =>
    rw [abbreviate_of_none hs, hcs]
    simp
  | some after =>
    rw [abbreviate_of_some hs]
    simp

theorem components_expand (hp : p.isAbsolute = true) (hh : home.isAbsolute = true) :
    components (expand (abbreviate p (some home)) home) = components p := by
  obtain ⟨cs, hcs⟩ := exists_of_isAbsolute hp
  obtain ⟨ds, hds⟩ := exists_of_isAbsolute hh
  cases hs : stripPrefix? p home with
  | none => simp [abbreviate_of_none hs, expand, hcs]
  | some after =>
    have hc := components_of_stripPrefix? hcs hds hs
    rw [expand, abbreviate_of_some hs, List.head?_cons, if_pos rfl, List.tail_cons]
    by_cases ha : after = ""
    · subst ha
      rw [hc]
      simp [segments, pieces, named, isIdle]
    · rw [if_neg ha, components_behind hds, hc]

/-- A path is shown with a tilde exactly when the components of the home directory come first among its
own, and the tilde then stands for the home directory; any other path is shown as it is. So what is
shown tells which components the path has. -/
theorem abbreviate_invertible (hp : p.isAbsolute = true) (hh : home.isAbsolute = true) :
    let shown := abbreviate p (some home)
    (shown.toList.head? = some '~' ↔ components home <+: components p) ∧
    (components home <+: components p →
      components (home ++ String.ofList shown.toList.tail) = components p) ∧
    (¬ components home <+: components p → shown = p) ∧
    abbreviate p none = p ∧
    ∀ q : Path, q.isAbsolute = true → abbreviate q (some home) = shown →
      components q = components p := by
  intro shown
  have hhead := head?_abbreviate_iff hp hh
  have hexpand := components_expand hp hh
  refine ⟨hhead, ?_, ?_, rfl, ?_⟩
  · intro h
    rwa [expand, if_pos (hhead.mpr h)] at hexpand
  · intro h
    obtain ⟨cs, hcs⟩ := exists_of_isAbsolute hp
    obtain ⟨ds, hds⟩ := exists_of_isAbsolute hh
    apply abbreviate_of_none
    exact Option.not_isSome_iff_eq_none.mp (mt (stripPrefix?_isSome_iff hcs hds).mp h)
  · intro q hq he
    rw [← components_expand hq hh, he, hexpand]

theorem abbreviate_invertible_untidy :
    let p : Path := "/home//ana/./src//r/"
    let home : Path := "/home/./ana/"
    p.isAbsolute = true ∧ home.isAbsolute = true ∧ abbreviate p (some home) = "~/src//r" ∧
      components (home ++ "/src//r") = components p ∧
      ∀ q : Path, q.isAbsolute = true → abbreviate q (some home) = "~/src//r" →
        components q = components p := by
  intro p home
  have hp : p.isAbsolute = true := by decide
  have hh : home.isAbsolute = true := by decide
  have hshown : abbreviate p (some home) = "~/src//r" := by decide
  have hfirst : components home <+: components p := by decide
  obtain ⟨-, hback, -, -, hsame⟩ := abbreviate_invertible hp hh
  have htail : String.ofList (abbreviate p (some home)).toList.tail = "/src//r" := by
    rw [hshown]
    decide
  rw [hshown] at hsame
  exact ⟨hp, hh, hshown, htail ▸ hback hfirst, hsame⟩

example : abbreviate "/home/anabel" (some "/home/ana") = "/home/anabel" := by decide

end RConsole.Path
