import Mathlib.Algebra.Group.Nat.Defs
import RConsole.Engine.Objects
import RConsole.Proofs.Text.Utf8

namespace RConsole

open Utf8 (Bytes)

namespace Value

def NotANumber (bits : UInt64) : Prop :=
  bits.toNat / 2 ^ 52 % 2 ^ 11 = 2047 ∧ bits.toNat % 2 ^ 52 ≠ 0

theorem isNaN_iff (bits : UInt64) : isNaN bits = true ↔ NotANumber bits := by
  have hb := bits.toNat_lt
  have hs : (bits <<< 1).toNat = bits.toNat * 2 % 2 ^ 64 := by
    simp [UInt64.toNat_shiftLeft, Nat.shiftLeft_eq]
  have hl : (0xFFE0000000000000 : UInt64).toNat = 0xFFE0000000000000 := rfl
  rw [isNaN, decide_eq_true_eq, gt_iff_lt, UInt64.lt_iff_toNat_lt, hs, hl, NotANumber]
  omega

def Unreadable : Value → Prop
  | absent => True
  | nil => True
  | text items => items = []
  | logical items => items = []
  | integer items => items = []
  | real items => items = []
  | other _ => True

def MissingText : Value → Prop
  | text items => items.head? = some .missing
  | _ => False

def Missing : Value → Prop
  | logical items => items.head? = some missingInteger
  | integer items => items.head? = some missingInteger
  | real items => ∃ bits, items.head? = some bits ∧ NotANumber bits
  | v => v.MissingText

inductive First : Value → OptionValue → Prop
  | text (bytes : Bytes) (rest : List Element) :
    First (.text (.chars bytes :: rest))
      (.text (String.ofList (Utf8.decodeLossy (bytes.takeWhile (· != 0)))))
  | logical (n : Int) (rest : List Int) : First (.logical (n :: rest)) (.logical (n ≠ 0))
  | integer (n : Int) (rest : List Int) : First (.integer (n :: rest)) (.integer n)
  | real (bits : UInt64) (rest : List UInt64) : First (.real (bits :: rest)) (.real bits)

def Whole : Value → Prop
  | text items => items.head? ≠ some .bare
  | _ => True

theorem decode_of_unreadable {v : Value} (h : v.Unreadable) : v.decode = none := by
  cases v with
  | absent | nil | other length => rfl
  | _ items =>
    rw [show items = [] from h]
    rfl

theorem decode_of_missingText {v : Value} (h : v.MissingText) : v.decode = some (.text "NA") := by
  cases v with
  | text items =>
    obtain ⟨rest, rfl⟩ := List.head?_eq_some_iff.mp h
    simp [decode, Element.chars?, Utf8.decodeLossy_encode]
  | _ => exact h.elim

theorem decode_of_missing {v : Value} (h : v.Missing) (ht : ¬ v.MissingText) : v.decode = none := by
  cases v with
  | logical items | integer items =>
    obtain ⟨rest, rfl⟩ := List.head?_eq_some_iff.mp h
    rfl
  | real items =>
    obtain ⟨bits, hb, hn⟩ := h
    obtain ⟨rest, rfl⟩ := List.head?_eq_some_iff.mp hb
    rw [decode, if_pos ((isNaN_iff bits).mpr hn)]
  | _ => exact absurd h ht

theorem decode_of_first {v : Value} {a : OptionValue} (h : First v a) (hm : ¬ v.Missing) :
    v.decode = some a := by
  cases h with
  | text bytes rest => rfl
  | logical n rest | integer n rest =>
    have hn : n ≠ missingInteger := fun he => hm (congrArg some he)
    rw [decode, if_neg hn]
  | real bits rest =>
    have hn : ¬ isNaN bits = true := fun he => hm ⟨bits, rfl, (isNaN_iff bits).mp he⟩
    rw [decode, if_neg hn]

theorem first_cases {v : Value} (hw : v.Whole) :
    v.Unreadable ∨ v.MissingText ∨ ∃ a, First v a := by
  cases v with
  | absent | nil | other length => exact .inl trivial
  | text items =>
    rcases items with _ | ⟨e, rest⟩
    · exact .inl rfl
    · cases e with
      | chars bytes => exact .inr (.inr ⟨_, .text bytes rest⟩)
      | missing => exact .inr (.inl rfl)
      | bare => exact absurd rfl hw
  | logical items =>
    rcases items with _ | ⟨n, rest⟩
    · exact .inl rfl
    · exact .inr (.inr ⟨_, .logical n rest⟩)
  | integer items =>
    rcases items with _ | ⟨n, rest⟩
    · exact .inl rfl
    · exact .inr (.inr ⟨_, .integer n rest⟩)
  | real items =>
    rcases items with _ | ⟨bits, rest⟩
    · exact .inl rfl
    · exact .inr (.inr ⟨_, .real bits rest⟩)

theorem decode_iff {v : Value} (hw : v.Whole) (ht : ¬ v.MissingText) :
    (v.decode = none ↔ v.Unreadable ∨ v.Missing) ∧
      ∀ a, v.decode = some a ↔ First v a ∧ ¬ v.Missing := by
  rcases first_cases hw with hu | hm | ⟨a, ha⟩
  · have hd := decode_of_unreadable hu
    refine ⟨⟨fun _ => .inl hu, fun _ => hd⟩, fun a => ?_⟩
    rw [hd]
    refine ⟨nofun, fun h => ?_⟩
    cases h.1 <;> cases hu
  · exact absurd hm ht
  · by_cases hm : v.Missing
    · have hd := decode_of_missing hm ht
      refine ⟨⟨fun _ => .inr hm, fun _ => hd⟩, fun b => ?_⟩
      rw [hd]
      exact ⟨nofun, fun h => absurd hm h.2⟩
    · have hd := decode_of_first ha hm
      have hu : ¬ v.Unreadable := by
        intro hu
        rw [decode_of_unreadable hu] at hd
        cases hd
      constructor
      · rw [hd]
        exact ⟨nofun, fun h => (h.elim hu hm).elim⟩
      · intro b
        constructor
        · intro h
          rw [hd] at h
          cases h
          exact ⟨ha, hm⟩
        · intro h
          exact decode_of_first h.1 hm

end Value

namespace Objects

structure IsVector (o : Objects) (x : UInt64) (kind : Int) (count : Nat) : Prop where
  object : x ≠ 0
  notNil : x ≠ o.nil
  kind : o.kind x = kind
  length : o.length x = count

/-- R's functions tell of an object that it is a value. -/
def Shows (o : Objects) (offset : Int) (x : UInt64) : Value → Prop
  | .absent => x = 0
  | .nil => x = o.nil
  | .text items =>
    o.IsVector x textKind items.length ∧
      ∀ e, items.head? = some e → e ≠ .bare ∧ o.chars (o.item x 0) = e.chars?
  | .logical items =>
    o.IsVector x logicalKind items.length ∧
      ∀ n, items.head? = some n → o.word (Layout.address x offset) = n
  | .integer items =>
    o.IsVector x integerKind items.length ∧
      ∀ n, items.head? = some n → o.word (Layout.address x offset) = n
  | .real items =>
    o.IsVector x realKind items.length ∧ ∀ bits, items.head? = some bits → o.real x = bits
  | .other count =>
    ∃ kind, o.IsVector x kind count ∧ kind ∉ [textKind, logicalKind, integerKind, realKind]

def Holds (o : Objects) (offset : Int) (name : String) (v : Value) : Prop :=
  if '\x00' ∈ name.toList then v = .nil else o.Shows offset (o.option name) v

variable {o : Objects} {offset : Int} {x : UInt64} {kind : Int} {count : Nat} {v : Value}

theorem IsVector.decode_empty (h : o.IsVector x kind 0) : o.decode offset x = none := by
  have hl : o.length x < 1 := by
    rw [h.length]
    decide
  rw [decode, if_pos (.inr (.inr hl))]

theorem IsVector.readable (h : o.IsVector x kind (count + 1)) :
    ¬ (x = 0 ∨ x = o.nil ∨ o.length x < 1) := by
  have hl := h.length
  rintro (h0 | hn | hs)
  · exact h.object h0
  · exact h.notNil hn
  · omega

theorem decode_shown (h : o.Shows offset x v) : o.decode offset x = v.decode := by
  cases v with
  | absent =>
    rw [decode, if_pos (.inl h)]
    rfl
  | nil =>
    rw [decode, if_pos (.inr (.inl h))]
    rfl
  | text items =>
    obtain ⟨hv, hf⟩ := h
    cases items with
    | nil => exact hv.decode_empty
    | cons e items =>
      rw [decode, if_neg hv.readable, if_pos hv.kind, (hf e rfl).2]
      rfl
  | logical items | integer items =>
    obtain ⟨hv, hf⟩ := h
    cases items with
    | nil => exact hv.decode_empty
    | cons n items =>
      rw [decode, if_neg hv.readable, hv.kind, hf n rfl]
      rfl
  | real items =>
    obtain ⟨hv, hf⟩ := h
    cases items with
    | nil => exact hv.decode_empty
    | cons bits items =>
      rw [decode, if_neg hv.readable, hv.kind, hf bits rfl]
      rfl
  | other count =>
    obtain ⟨kind, hv, hk⟩ := h
    cases count with
    | zero => exact hv.decode_empty
    | succ count =>
      rw [decode, if_neg hv.readable, hv.kind]
      simp_all [Value.decode]

theorem get_held {name : String} (h : o.Holds offset name v) : o.get offset name = v.decode := by
  unfold Holds at h
  by_cases hz : '\x00' ∈ name.toList
  · rw [if_pos hz] at h
    rw [get, if_pos hz, h]
    rfl
  · rw [if_neg hz] at h
    rw [get, if_neg hz, decode_shown h]

theorem whole_of_held {name : String} (h : o.Holds offset name v) : v.Whole := by
  unfold Holds at h
  cases v with
  | text items =>
    intro hb
    split at h
    · cases h
    · exact (h.2 .bare hb).1 rfl
  | _ => trivial

/-- An option is read as its first item, lossily if that is a text, and as nothing if there is no such
item or it is the missing value of its type. Only a missing text is read as a text of two letters. -/
theorem option_decoded {name : String} (h : o.Holds offset name v) :
    o.get offset name = v.decode ∧
    (¬ v.MissingText →
      (o.get offset name = none ↔ v.Unreadable ∨ v.Missing) ∧
      ∀ a, o.get offset name = some a ↔ Value.First v a ∧ ¬ v.Missing) ∧
    (v.MissingText → o.get offset name = some (.text "NA")) := by
  rw [get_held h]
  exact ⟨rfl, Value.decode_iff (whole_of_held h), Value.decode_of_missingText⟩

def holding (v : Value) : Objects where
  nil := 1
  kind _ := match v with
    | .text _ => textKind
    | .logical _ => logicalKind
    | .integer _ => integerKind
    | .real _ => realKind
    | _ => 0
  length _ := match v with
    | .text items => items.length
    | .logical items => items.length
    | .integer items => items.length
    | .real items => items.length
    | .other count => count
    | _ => 0
  item _ i := UInt64.ofNat (16 + i)
  chars a := match v with
    | .text items => items[a.toNat - 16]?.bind Element.chars?
    | _ => none
  real _ := match v with
    | .real items => items.headD 0
    | _ => 0
  word a := match v with
    | .logical items => items.getD ((a - Layout.address 2 48).toNat / 4) 0
    | .integer items => items.getD ((a - Layout.address 2 48).toNat / 4) 0
    | _ => 0
  option _ := match v with
    | .absent => 0
    | .nil => 1
    | _ => 2

theorem shows_holding (hw : v.Whole) (name : String) :
    (holding v).Shows 48 ((holding v).option name) v := by
  have h0 : (2 : UInt64) ≠ 0 := by decide
  have h1 : (2 : UInt64) ≠ 1 := by decide
  cases v with
  | absent | nil => rfl
  | text items =>
    refine ⟨⟨h0, h1, rfl, rfl⟩, ?_⟩
    intro e he
    refine ⟨fun hb => hw (hb ▸ he), ?_⟩
    obtain ⟨rest, rfl⟩ := List.head?_eq_some_iff.mp he
    rfl
  | logical items | integer items =>
    refine ⟨⟨h0, h1, rfl, rfl⟩, ?_⟩
    intro n hn
    obtain ⟨rest, rfl⟩ := List.head?_eq_some_iff.mp hn
    simp [holding]
  | real items =>
    refine ⟨⟨h0, h1, rfl, rfl⟩, ?_⟩
    intro bits hb
    obtain ⟨rest, rfl⟩ := List.head?_eq_some_iff.mp hb
    rfl
  | other count => exact ⟨0, ⟨h0, h1, rfl, rfl⟩, by decide⟩

theorem holds_holding (hw : v.Whole) {name : String} (hz : '\x00' ∉ name.toList) :
    (holding v).Holds 48 name v := by
  rw [Holds, if_neg hz]
  exact shows_holding hw name

theorem option_decoded_lossy :
    let v : Value := .text [.chars [0x61, 0xFF], .missing]
    (holding v).Holds 48 "x" v ∧ ¬ v.MissingText ∧
      (holding v).get 48 "x" = some (.text "a\uFFFD") := by
  intro v
  have hv : (holding v).Holds 48 "x" v := holds_holding (by nofun) (by decide)
  have ht : ¬ v.MissingText := by nofun
  have hf := Value.First.text [0x61, 0xFF] [.missing]
  obtain ⟨-, hread, -⟩ := option_decoded hv
  have hr := ((hread ht).2 _).mpr ⟨hf, ht⟩
  exact ⟨hv, ht, hr.trans (by decide +kernel)⟩

theorem missing_text_read :
    let missing : Value := .text [.missing]
    let spelled : Value := .text [.chars (Utf8.encode ['N', 'A'])]
    (holding missing).Holds 48 "x" missing ∧ (holding spelled).Holds 48 "x" spelled ∧
      missing.Missing ∧ ¬ spelled.Missing ∧
      (holding missing).get 48 "x" = some (.text "NA") ∧
      (holding spelled).get 48 "x" = (holding missing).get 48 "x" := by
  intro missing spelled
  have hm : (holding missing).Holds 48 "x" missing := holds_holding (by nofun) (by decide)
  have hs : (holding spelled).Holds 48 "x" spelled := holds_holding (by nofun) (by decide)
  have hread : (holding missing).get 48 "x" = some (.text "NA") :=
    (get_held hm).trans (Value.decode_of_missingText rfl)
  refine ⟨hm, hs, rfl, by nofun, hread, ?_⟩
  rw [get_held hs, get_held hm]
  rfl

end Objects

end RConsole
