import RConsole.Proofs.Text.Utf8

namespace RConsole.Utf8

def continues (b : UInt8) : Bool := 0x80 ≤ b && b ≤ 0xBF

def isBoundary (bs : Bytes) (n : Nat) : Bool :=
  n == 0 || match bs[n]? with
    | some b => !continues b
    | none => n == bs.length

def lastBoundary (bs : Bytes) : Nat → Nat
  | 0 => 0
  | n + 1 => if isBoundary bs (n + 1) then n + 1 else lastBoundary bs n

structure Cut (bs : Bytes) (room n : Nat) : Prop where
  boundary : isBoundary bs n = true
  fits : n ≤ room
  last : ∀ m, isBoundary bs m = true → m ≤ room → m ≤ n

theorem Cut.unique {bs : Bytes} {room m n : Nat} (hm : Cut bs room m) (hn : Cut bs room n) :
    m = n :=
  Nat.le_antisymm (hn.last m hm.boundary hm.fits) (hm.last n hn.boundary hn.fits)

theorem isBoundary_zero (bs : Bytes) : isBoundary bs 0 = true := rfl

theorem le_length_of_isBoundary {bs : Bytes} {n : Nat} (h : isBoundary bs n = true) :
    n ≤ bs.length := by
  by_cases hn : n ≤ bs.length
  · exact hn
  · have hg : bs[n]? = none := List.getElem?_eq_none (by omega)
    simp only [isBoundary, hg, Bool.or_eq_true, beq_iff_eq] at h
    omega

theorem isBoundary_lastBoundary (bs : Bytes) (n : Nat) :
    isBoundary bs (lastBoundary bs n) = true := by
  induction n with
  | zero => rfl
  | succ n ih =>
    by_cases h : isBoundary bs (n + 1) = true
    · rw [lastBoundary, if_pos h]
      exact h
    · rw [lastBoundary, if_neg h]
      exact ih

theorem lastBoundary_le (bs : Bytes) (n : Nat) : lastBoundary bs n ≤ n := by
  induction n with
  | zero => exact Nat.le_refl 0
  | succ n ih =>
    rw [lastBoundary]
    split
    · exact Nat.le_refl _
    · exact Nat.le_succ_of_le ih

theorem le_lastBoundary {bs : Bytes} {m n : Nat} (hm : isBoundary bs m = true) (hn : m ≤ n) :
    m ≤ lastBoundary bs n := by
  induction n with
  | zero => exact hn
  | succ n ih =>
    rw [lastBoundary]
    split
    · exact hn
    · rename_i h
      have : m ≠ n + 1 := by
        rintro rfl
        exact h hm
      apply ih
      omega

theorem cut_lastBoundary (bs : Bytes) (room : Nat) :
    Cut bs room (lastBoundary bs (min room bs.length)) := by
  constructor
  · exact isBoundary_lastBoundary bs _
  · exact Nat.le_trans (lastBoundary_le bs _) (Nat.min_le_left _ _)
  · intro m hm hr
    exact le_lastBoundary hm (Nat.le_min.mpr ⟨hr, le_length_of_isBoundary hm⟩)

theorem continues_tail (n : Nat) : continues (UInt8.ofNat (n % 64 + 128)) = true := by
  simp only [continues, Bool.and_eq_true, decide_eq_true_eq]
  exact tail_range n

theorem continues_lead {n : Nat} (hn : n < 256) (h : n < 0x80 ∨ 0xC0 ≤ n) :
    continues (UInt8.ofNat n) = false := by
  have hv : (UInt8.ofNat n).toNat = n := UInt8.toNat_ofNat_of_lt' hn
  simp only [continues, Bool.and_eq_false_iff, decide_eq_false_iff_not, UInt8.le_iff_toNat_le, hv,
    UInt8.reduceToNat]
  omega

theorem encodeChar_bytes (c : Char) :
    ∃ a r, String.utf8EncodeChar c = a :: r ∧ continues a = false ∧
      (∀ b ∈ r, continues b = true) ∧ r.length ≤ 3 := by
  have hv := c.valid
  simp only [UInt32.isValidChar, Nat.isValidChar] at hv
  unfold String.utf8EncodeChar
  generalize c.val.toNat = v at hv
  have htail (n : Nat) {r : Bytes} (hr : ∀ b ∈ r, continues b = true) :
      ∀ b ∈ UInt8.ofNat (n % 64 + 128) :: r, continues b = true :=
    List.forall_mem_cons.mpr ⟨continues_tail n, hr⟩
  have hnil : ∀ b ∈ ([] : Bytes), continues b = true := List.forall_mem_nil _
  dsimp only
  split
  · exact ⟨_, _, rfl, continues_lead (by omega) (by omega), hnil, by simp⟩
  · split
    · refine ⟨_, _, rfl, continues_lead (by omega) (by omega), ?_, by simp⟩
      exact htail v hnil
    · split
      · refine ⟨_, _, rfl, continues_lead (by omega) (by omega), ?_, by simp⟩
        exact htail (v / 64) (htail v hnil)
      · refine ⟨_, _, rfl, continues_lead (by omega) (by omega), ?_, by simp⟩
        exact htail (v / 4096) (htail (v / 64) (htail v hnil))

theorem isBoundary_append_encode {bs : Bytes} (hb : bs ≠ []) (cs : List Char) {n : Nat}
    (hn : bs.length ≤ n) :
    isBoundary (bs ++ encode cs) n = isBoundary (encode cs) (n - bs.length) := by
  have hp : 0 < bs.length := List.length_pos_iff.mpr hb
  have hz : (n == 0) = false := by
    rw [beq_eq_false_iff_ne]
    omega
  rw [isBoundary, List.getElem?_append_right hn, hz, Bool.false_or, List.length_append]
  by_cases he : n - bs.length = 0
  · rw [he, isBoundary_zero]
    cases cs with
    | nil =>
      simp only [encode, List.flatMap_nil, List.getElem?_nil, List.length_nil, beq_iff_eq]
      omega
    | cons c cs =>
      -- An encoding does not begin in the middle of a character.
      obtain ⟨a, r, hc, ha, -⟩ := encodeChar_bytes c
      simp only [encode_cons, hc, List.cons_append, List.getElem?_cons_zero, ha, Bool.not_false]
  · have hl : (n == bs.length + (encode cs).length) = (n - bs.length == (encode cs).length) := by
      rw [Bool.eq_iff_iff, beq_iff_eq, beq_iff_eq]
      omega
    rw [isBoundary, beq_eq_false_iff_ne.mpr he, Bool.false_or, hl]

theorem isBoundary_within {bs rest : Bytes} {a : UInt8} {n : Nat}
    (hb : ∀ b ∈ bs, continues b = true) (hn : n < bs.length) :
    isBoundary (a :: (bs ++ rest)) (n + 1) = false := by
  have hg : (a :: (bs ++ rest))[n + 1]? = some bs[n] := by
    rw [List.getElem?_cons_succ, List.getElem?_append_left hn, List.getElem?_eq_getElem hn]
  rw [isBoundary, hg]
  simp [hb]

theorem isBoundary_encode (cs : List Char) (n : Nat) :
    isBoundary (encode cs) n = true ↔ ∃ front, front <+: cs ∧ (encode front).length = n := by
  induction cs generalizing n with
  | nil =>
    simp only [List.prefix_nil, exists_eq_left]
    constructor
    · intro h
      exact (Nat.le_zero.mp (le_length_of_isBoundary h)).symm
    · rintro rfl
      rfl
  | cons c cs ih =>
    obtain ⟨a, r, hc, -, hr, -⟩ := encodeChar_bytes c
    constructor
    · intro h
      rw [encode_cons, hc] at h
      cases n with
      | zero => exact ⟨[], List.nil_prefix, rfl⟩
      | succ n =>
        by_cases hn : n < r.length
        · rw [List.cons_append, isBoundary_within hr hn] at h
          contradiction
        · have hle : (a :: r).length ≤ n + 1 := by
            rw [List.length_cons]
            omega
          rw [isBoundary_append_encode (List.cons_ne_nil a r) cs hle] at h
          obtain ⟨front, hf, hl⟩ := (ih _).mp h
          refine ⟨c :: front, List.cons_prefix_cons.mpr ⟨rfl, hf⟩, ?_⟩
          rw [encode_cons, List.length_append, hl, hc]
          omega
    · rintro ⟨front, hf, rfl⟩
      cases front with
      | nil => rfl
      | cons d front =>
        obtain ⟨rfl, hrest⟩ := List.cons_prefix_cons.mp hf
        have hle := Nat.le_add_right (String.utf8EncodeChar d).length (encode front).length
        rw [encode_cons, encode_cons, List.length_append,
          isBoundary_append_encode String.utf8EncodeChar_ne_nil cs hle, Nat.add_sub_cancel_left]
        exact (ih _).mpr ⟨front, hrest, rfl⟩

theorem fitting_isPrefix (room : Nat) (cs : List Char) : fitting room cs <+: cs := by
  induction cs generalizing room with
  | nil => exact List.prefix_refl []
  | cons c cs ih =>
    rw [fitting]
    split
    · exact List.cons_prefix_cons.mpr ⟨rfl, ih _⟩
    · exact List.nil_prefix

theorem length_fitting_le (room : Nat) (cs : List Char) :
    (encode (fitting room cs)).length ≤ room := by
  induction cs generalizing room with
  | nil => exact Nat.zero_le room
  | cons c cs ih =>
    rw [fitting]
    split
    · have := ih (room - (String.utf8EncodeChar c).length)
      rw [encode_cons, List.length_append]
      omega
    · exact Nat.zero_le room

theorem prefix_fitting {room : Nat} {front cs : List Char} (h : front <+: cs)
    (hr : (encode front).length ≤ room) : front <+: fitting room cs := by
  induction cs generalizing room front with
  | nil => exact h
  | cons c cs ih =>
    cases front with
    | nil => exact List.nil_prefix
    | cons d front =>
      obtain ⟨rfl, hf⟩ := List.cons_prefix_cons.mp h
      rw [encode_cons, List.length_append] at hr
      rw [fitting, if_pos (by omega)]
      exact List.cons_prefix_cons.mpr ⟨rfl, ih hf (by omega)⟩

theorem fitting_eq_self {room : Nat} {cs : List Char} :
    fitting room cs = cs ↔ (encode cs).length ≤ room := by
  constructor
  · intro h
    rw [← h]
    exact length_fitting_le room cs
  · intro h
    exact (fitting_isPrefix room cs).eq_of_length_le (prefix_fitting (List.prefix_refl cs) h).length_le

theorem room_le_of_fitting_ne {room : Nat} {cs : List Char} (h : fitting room cs ≠ cs) :
    room ≤ (encode (fitting room cs)).length + 3 := by
  induction cs generalizing room with
  | nil => exact absurd rfl h
  | cons c cs ih =>
    obtain ⟨a, r, hc, -, -, hl⟩ := encodeChar_bytes c
    rw [fitting] at h ⊢
    split at h
    · rename_i hs
      have hne : fitting (room - (String.utf8EncodeChar c).length) cs ≠ cs := by
        intro he
        exact h (by rw [he])
      have := ih hne
      rw [if_pos hs, encode_cons, List.length_append]
      omega
    · -- The character that does not fit has at most four bytes.
      rename_i hs
      rw [hc, List.length_cons] at hs
      omega

theorem encode_isPrefix {front cs : List Char} (h : front <+: cs) : encode front <+: encode cs := by
  obtain ⟨rest, rfl⟩ := h
  rw [encode_append]
  exact List.prefix_append _ _

theorem cut_fitting (room : Nat) (cs : List Char) :
    Cut (encode cs) room (encode (fitting room cs)).length := by
  constructor
  · exact (isBoundary_encode cs _).mpr ⟨_, fitting_isPrefix room cs, rfl⟩
  · exact length_fitting_le room cs
  · intro m hm hr
    obtain ⟨front, hf, rfl⟩ := (isBoundary_encode cs m).mp hm
    exact (encode_isPrefix (prefix_fitting hf hr)).length_le

end RConsole.Utf8
