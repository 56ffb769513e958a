import RConsole.Text.Utf8

namespace RConsole.Utf8

theorem lead?_two {a : UInt8} (hl : 0xC2 ≤ a.toNat) (hh : a.toNat ≤ 0xDF) :
    lead? a = some ⟨1, 0x80, 0xBF⟩ := by
  have h₁ : ¬ a < 0xC2 := by
    rw [UInt8.lt_iff_toNat_lt]
    exact Nat.not_lt.mpr hl
  have h₂ : a ≤ 0xDF := UInt8.le_iff_toNat_le.mpr hh
  rw [lead?, if_neg h₁, if_pos h₂]

theorem lead?_three {a b : UInt8} (hl : 0xE0 ≤ a.toNat) (hh : a.toNat ≤ 0xEF)
    (hb : 0x80 ≤ b.toNat ∧ b.toNat ≤ 0xBF) (hlow : a.toNat = 0xE0 → 0xA0 ≤ b.toNat)
    (hhigh : a.toNat = 0xED → b.toNat ≤ 0x9F) :
    ∃ lo hi, lead? a = some ⟨2, lo, hi⟩ ∧ lo ≤ b ∧ b ≤ hi := by
  simp only [lead?, UInt8.lt_iff_toNat_lt, UInt8.le_iff_toNat_le, ← UInt8.toNat_inj, UInt8.reduceToNat]
  rw [if_neg (by omega), if_neg (by omega)]
  split
  · exact ⟨_, _, rfl, hlow ‹_›, hb.2⟩
  · split
    · exact ⟨_, _, rfl, hb.1, hhigh ‹_›⟩
    · exact ⟨_, _, rfl, hb⟩

theorem lead?_four {a b : UInt8} (hl : 0xF0 ≤ a.toNat) (hh : a.toNat ≤ 0xF4)
    (hb : 0x80 ≤ b.toNat ∧ b.toNat ≤ 0xBF) (hlow : a.toNat = 0xF0 → 0x90 ≤ b.toNat)
    (hhigh : a.toNat = 0xF4 → b.toNat ≤ 0x8F) :
    ∃ lo hi, lead? a = some ⟨3, lo, hi⟩ ∧ lo ≤ b ∧ b ≤ hi := by
  simp only [lead?, UInt8.lt_iff_toNat_lt, UInt8.le_iff_toNat_le, ← UInt8.toNat_inj, UInt8.reduceToNat]
  rw [if_neg (by omega), if_neg (by omega), if_neg (by omega), if_neg (by omega), if_neg (by omega)]
  split
  · exact ⟨_, _, rfl, hlow ‹_›, hb.2⟩
  · split
    · exact ⟨_, _, rfl, hb⟩
    · rw [if_pos (by omega)]
      exact ⟨_, _, rfl, hb.1, hhigh (by omega)⟩

theorem follow_cons {k value taken : Nat} {lo hi b : UInt8} (h : lo ≤ b ∧ b ≤ hi) (r : Bytes) :
    follow (k + 1) lo hi value taken (b :: r) =
      follow k 0x80 0xBF (value * 64 + b.toNat % 64) (taken + 1) r := by
  rw [follow, if_pos h]

theorem toNat_tail (n : Nat) : (UInt8.ofNat (n % 64 + 128)).toNat = n % 64 + 128 := by
  rw [UInt8.toNat_ofNat']
  omega

theorem tail_range (n : Nat) :
    0x80 ≤ UInt8.ofNat (n % 64 + 128) ∧ UInt8.ofNat (n % 64 + 128) ≤ 0xBF := by
  rw [UInt8.le_iff_toNat_le, UInt8.le_iff_toNat_le, toNat_tail]
  constructor
  · exact Nat.le_add_left _ _
  · exact Nat.add_le_add_right (Nat.le_of_lt_succ (Nat.mod_lt n (by decide))) 128

theorem first_of_lead? {n : Nat} {l : Lead} (hn : 128 ≤ n ∧ n < 256)
    (h : lead? (UInt8.ofNat n) = some l) (r : Bytes) :
    first (UInt8.ofNat n) r = follow l.follow l.lo l.hi (leadBits (UInt8.ofNat n) l.follow) 0 r := by
  rw [first, if_neg, h]
  rw [UInt8.lt_iff_toNat_lt, UInt8.toNat_ofNat_of_lt' hn.2]
  exact Nat.not_lt.mpr hn.1

theorem first_encodeChar (c : Char) (rest : Bytes) :
    ∃ a r, String.utf8EncodeChar c = a :: r ∧ first a (r ++ rest) = (c, r.length) := by
  have hv := c.valid
  have hc (n : Nat) (hn : n = c.val.toNat) : Char.ofNat n = c := by rw [hn]; exact Char.ofNat_toNat c
  simp only [UInt32.isValidChar, Nat.isValidChar] at hv
  unfold String.utf8EncodeChar
  generalize c.val.toNat = v at hv hc
  have hlead (n : Nat) (hn : n < 256) : (UInt8.ofNat n).toNat = n := UInt8.toNat_ofNat_of_lt' hn
  dsimp only
  split
  · refine ⟨_, _, rfl, ?_⟩
    rw [first, if_pos, hlead v (by omega), hc v rfl]
    · rfl
    · rw [UInt8.lt_iff_toNat_lt, hlead v (by omega)]
      exact Nat.lt_succ_of_le ‹_›
  · split
    · refine ⟨_, _, rfl, ?_⟩
      have ha := hlead (v / 64 % 32 + 192) (by omega)
      rw [first_of_lead? (by omega) (lead?_two (by omega) (by omega)), List.cons_append,
        follow_cons (tail_range v)]
      simp only [leadBits, ha, toNat_tail, follow]
      rw [hc _ (by omega)]
      rfl
    · split
      · refine ⟨_, _, rfl, ?_⟩
        have ha := hlead (v / 4096 % 16 + 224) (by omega)
        have hb := toNat_tail (v / 64)
        obtain ⟨lo, hi, hl, hr⟩ := lead?_three (a := UInt8.ofNat (v / 4096 % 16 + 224))
          (b := UInt8.ofNat (v / 64 % 64 + 128)) (by omega) (by omega) (by omega) (by omega) (by omega)
        rw [first_of_lead? (by omega) hl, List.cons_append, follow_cons hr, List.cons_append,
          follow_cons (tail_range v)]
        simp only [leadBits, ha, toNat_tail, follow]
        rw [hc _ (by omega)]
        rfl
      · refine ⟨_, _, rfl, ?_⟩
        have ha := hlead (v / 262144 % 8 + 240) (by omega)
        have hb := toNat_tail (v / 4096)
        obtain ⟨lo, hi, hl, hr⟩ := lead?_four (a := UInt8.ofNat (v / 262144 % 8 + 240))
          (b := UInt8.ofNat (v / 4096 % 64 + 128)) (by omega) (by omega) (by omega) (by omega) (by omega)
        rw [first_of_lead? (by omega) hl, List.cons_append, follow_cons hr, List.cons_append,
          follow_cons (tail_range (v / 64)), List.cons_append, follow_cons (tail_range v)]
        simp only [leadBits, ha, toNat_tail, follow]
        rw [hc _ (by omega)]
        rfl

theorem decodeLossy_encode_append (cs : List Char) (rest : Bytes) :
    decodeLossy (encode cs ++ rest) = cs ++ decodeLossy rest := by
  induction cs with
  | nil => rfl
  | cons c cs ih =>
    obtain ⟨a, r, he, hf⟩ := first_encodeChar c (encode cs ++ rest)
    rw [encode_cons, he, List.append_assoc, List.cons_append, decodeLossy, hf]
    simp only [List.drop_left, List.cons_append, ih]

theorem decodeLossy_encode (cs : List Char) : decodeLossy (encode cs) = cs := by
  have h := decodeLossy_encode_append cs []
  simpa only [List.append_nil, decodeLossy] using h

theorem decode?_encode (cs : List Char) : decode? (encode cs) = some cs := by
  simp only [decode?, decodeLossy_encode, if_true]

theorem decode?_eq_some {bs : Bytes} {cs : List Char} : decode? bs = some cs ↔ encode cs = bs := by
  constructor
  · intro h
    simp only [decode?] at h
    split at h
    · rename_i he
      cases h
      exact he
    · cases h
  · rintro rfl
    exact decode?_encode cs

theorem le_lo_of_lead? {a : UInt8} {l : Lead} (h : lead? a = some l) : 0x80 ≤ l.lo := by
  unfold lead? at h
  repeat' split at h
  all_goals first | cases h; decide | cases h

theorem follow_append {a : UInt8} (ha : a < 0x80) (k : Nat) {lo : UInt8} (hlo : 0x80 ≤ lo)
    (hi : UInt8) (value taken : Nat) (r rest : Bytes) :
    follow k lo hi value taken (r ++ a :: rest) = follow k lo hi value taken r := by
  induction r generalizing k lo hi value taken with
  | nil =>
    cases k with
    | zero => rfl
    | succ k =>
      have hlt : ¬ (lo ≤ a ∧ a ≤ hi) := fun h => UInt8.not_le.mpr ha (UInt8.le_trans hlo h.1)
      simp only [List.nil_append, follow, if_neg hlt]
  | cons b r ih =>
    cases k with
    | zero => rfl
    | succ k =>
      rw [List.cons_append, follow, follow]
      split
      · exact ih k (by decide) _ _ _
      · rfl

theorem follow_taken_le (k : Nat) (lo hi : UInt8) (value taken : Nat) (r : Bytes) :
    (follow k lo hi value taken r).2 ≤ taken + r.length := by
  fun_induction follow k lo hi value taken r with
  | case1 => exact Nat.le_add_right _ _
  | case2 => exact Nat.le_add_right _ _
  | case3 lo hi value taken k b r h ih =>
    rw [List.length_cons]
    omega
  | case4 => exact Nat.le_add_right _ _

theorem first_append {a b : UInt8} (hb : b < 0x80) (r rest : Bytes) :
    first a (r ++ b :: rest) = first a r := by
  unfold first
  split
  · rfl
  · split
    · rfl
    · rename_i l hl
      exact follow_append hb _ (le_lo_of_lead? hl) _ _ _ _ _

theorem first_taken_le (a : UInt8) (r : Bytes) : (first a r).2 ≤ r.length := by
  unfold first
  split
  · exact Nat.zero_le _
  · split
    · exact Nat.zero_le _
    · rename_i l hl
      simpa using follow_taken_le l.follow l.lo l.hi (leadBits a l.follow) 0 r

theorem decodeLossy_append {b : UInt8} (hb : b < 0x80) (bs rest : Bytes) :
    decodeLossy (bs ++ b :: rest) = decodeLossy bs ++ Char.ofNat b.toNat :: decodeLossy rest := by
  fun_induction decodeLossy bs with
  | case1 => simp [decodeLossy, first, hb]
  | case2 a r ih =>
    rw [List.cons_append, decodeLossy, first_append hb, List.drop_append_of_le_length (first_taken_le a r),
      ih, List.cons_append]

theorem eq_append_of_encode {bs : Bytes} {cs ds : List Char}
    (h : encode cs = bs ++ encode ('\n' :: ds)) : cs = decodeLossy bs ++ '\n' :: ds := by
  calc cs = decodeLossy (encode cs) := (decodeLossy_encode cs).symm
    _ = decodeLossy (bs ++ 0x0A :: encode ds) := congrArg decodeLossy h
    _ = decodeLossy bs ++ '\n' :: decodeLossy (encode ds) := decodeLossy_append (by decide) bs _
    _ = decodeLossy bs ++ '\n' :: ds := by rw [decodeLossy_encode]

end RConsole.Utf8
