import Mathlib.Algebra.Group.Int.Defs
import Mathlib.Algebra.Group.Nat.Defs
import RConsole.Engine.Objects

namespace RConsole

inductive HeapCall where
  | scalar (value : Int) (object : UInt64)
  | payload (object start : UInt64)
  | protect (object given : UInt64)
  | release (count : Nat)
  deriving DecidableEq, Repr

namespace HeapCall

def protectedAfter (n : Nat) : List HeapCall → Option Nat
  | [] => some n
  | protect _ _ :: calls => protectedAfter (n + 1) calls
  | release count :: calls => if count ≤ n then protectedAfter (n - count) calls else none
  | _ :: calls => protectedAfter n calls

def Balanced (calls : List HeapCall) : Prop := protectedAfter 0 calls = some 0

end HeapCall

def Heap.recorded {σ : Type} (h : Heap σ) : Heap (σ × List HeapCall) where
  scalar value s :=
    let (object, t) := h.scalar value s.1
    (object, t, s.2 ++ [.scalar value object])
  payload object s :=
    let (start, t) := h.payload object s.1
    (start, t, s.2 ++ [.payload object start])
  protect object s :=
    let (given, t) := h.protect object s.1
    (given, t, s.2 ++ [.protect object given])
  release count s := (h.release count s.1, s.2 ++ [.release count])
  word address s := h.word address s.1

namespace Layout

/-- The integers start behind a header of less than 256 bytes, at a multiple of four. -/
def Fits (object payload : UInt64) : Prop :=
  ∃ d : Nat, 1 ≤ d ∧ d ≤ 255 ∧ 4 ∣ d ∧ payload.toNat = (object.toNat + d) % 2 ^ 64

theorem payloadOffset_eq (object payload : UInt64) :
    payloadOffset object payload =
      if 2 * (payload - object).toNat < 2 ^ 64 then ((payload - object).toNat : Int)
      else (payload - object).toNat - 2 ^ 64 :=
  BitVec.toInt_eq_toNat_cond (payload - object).toBitVec

theorem payloadOffset_range (object payload : UInt64) :
    -2 ^ 63 ≤ payloadOffset object payload ∧ payloadOffset object payload < 2 ^ 63 := by
  have hd := (payload - object).toNat_lt
  rw [payloadOffset_eq]
  split <;> omega

theorem payloadOffset_mod (object payload : UInt64) :
    (object.toNat + payloadOffset object payload) % 2 ^ 64 = payload.toNat := by
  have hd : (payload - object).toNat = (2 ^ 64 - object.toNat + payload.toNat) % 2 ^ 64 :=
    UInt64.toNat_sub payload object
  have ho := object.toNat_lt
  have hp := payload.toNat_lt
  rw [payloadOffset_eq]
  split <;> omega

theorem toNat_address (object : UInt64) (offset : Int) :
    ((address object offset).toNat : Int) = (object.toNat + offset) % 2 ^ 64 := by
  rw [address, UInt64.toNat_add, UInt64.ofInt, UInt64.toNat_ofNat']
  omega

theorem address_payloadOffset (object payload : UInt64) :
    address object (payloadOffset object payload) = payload := by
  apply UInt64.toNat_inj.mp
  have ha := toNat_address object (payloadOffset object payload)
  rw [payloadOffset_mod] at ha
  exact Int.ofNat_inj.mp ha

theorem isValid_payloadOffset (object payload : UInt64) :
    isValid (payloadOffset object payload) = true ↔ Fits object payload := by
  have hm := payloadOffset_mod object payload
  obtain ⟨hlow, hhigh⟩ := payloadOffset_range object payload
  rw [isValid]
  simp only [Bool.and_eq_true, decide_eq_true_eq]
  rw [maxHeader]
  constructor
  · intro h
    refine ⟨(payloadOffset object payload).toNat, ?_⟩
    omega
  · rintro ⟨d, h⟩
    have hd : payloadOffset object payload = d := by omega
    omega

variable {σ : Type}

structure Trial (h : Heap σ) (s : σ) (zero start object given : UInt64) (t : σ) : Prop where
  fits : Fits zero start
  made : ∃ s₁ s₂ s₃, h.scalar 0 s = (zero, s₁) ∧ h.payload zero s₁ = (start, s₂) ∧
    h.scalar sentinel s₂ = (object, s₃) ∧ h.protect object s₃ = (given, t)

inductive Measured (h : Heap σ) (s : σ) : Except Int Int → List HeapCall → σ → Prop
  | refused {zero start : UInt64} {s₁ t : σ} (hz : h.scalar 0 s = (zero, s₁))
      (hp : h.payload zero s₁ = (start, t)) (hf : ¬ Fits zero start) :
    Measured h s (.error (payloadOffset zero start)) [.scalar 0 zero, .payload zero start] t
  | misread {zero start object given : UInt64} {t : σ} (ht : Trial h s zero start object given t)
      (hw : h.word (address given (payloadOffset zero start)) t ≠ sentinel) :
    Measured h s (.error (payloadOffset zero start))
      [.scalar 0 zero, .payload zero start, .scalar sentinel object, .protect object given, .release 1]
      (h.release 1 t)
  | trusted {zero start object given : UInt64} {t : σ} (ht : Trial h s zero start object given t)
      (hw : h.word (address given (payloadOffset zero start)) t = sentinel) :
    Measured h s (.ok (payloadOffset zero start))
      [.scalar 0 zero, .payload zero start, .scalar sentinel object, .protect object given, .release 1]
      (h.release 1 t)

theorem Measured.balanced {h : Heap σ} {s t : σ} {result : Except Int Int} {calls : List HeapCall}
    (hm : Measured h s result calls t) : HeapCall.Balanced calls := by
  cases hm <;> rfl

theorem measured (h : Heap σ) (s : σ) : ∃ calls,
    Measured h s (measure h s).1 calls (measure h s).2 ∧
    measure h.recorded (s, []) = ((measure h s).1, (measure h s).2, calls) := by
  rcases hz : h.scalar 0 s with ⟨zero, s₁⟩
  rcases hp : h.payload zero s₁ with ⟨start, s₂⟩
  by_cases hv : isValid (payloadOffset zero start) = true
  · have hf := (isValid_payloadOffset zero start).mp hv
    rcases ho : h.scalar sentinel s₂ with ⟨object, s₃⟩
    rcases hg : h.protect object s₃ with ⟨given, t⟩
    have ht : Trial h s zero start object given t := ⟨hf, s₁, s₂, s₃, hz, hp, ho, hg⟩
    by_cases hw : h.word (address given (payloadOffset zero start)) t = sentinel
    · have hr : measure h s = (.ok (payloadOffset zero start), h.release 1 t) := by
        simp [measure, hz, hp, hv, ho, hg, hw]
      rw [hr]
      refine ⟨_, .trusted ht hw, ?_⟩
      simp [measure, Heap.recorded, hz, hp, hv, ho, hg, hw]
    · have hr : measure h s = (.error (payloadOffset zero start), h.release 1 t) := by
        simp [measure, hz, hp, hv, ho, hg, hw]
      rw [hr]
      refine ⟨_, .misread ht hw, ?_⟩
      simp [measure, Heap.recorded, hz, hp, hv, ho, hg, hw]
  · have hf := mt (isValid_payloadOffset zero start).mpr hv
    have hr : measure h s = (.error (payloadOffset zero start), s₂) := by
      simp [measure, hz, hp, hv]
    rw [hr]
    refine ⟨_, .refused hz hp hf, ?_⟩
    simp [measure, Heap.recorded, hz, hp, hv]

structure Inquiry (σ : Type) where
  before : σ
  result : Except Int Int
  calls : List HeapCall
  after : σ

def inquire (h : Heap σ) (known : Option Int) (s : σ) : Inquiry σ where
  before := s
  result := (ensure h known s).1
  calls := (ensure h.recorded known (s, [])).2.2.2
  after := (ensure h known s).2.2

def inquiries (h : Heap σ) (known : Option Int) (s : σ) : List (σ → σ) → List (Inquiry σ)
  | [] => []
  | f :: later =>
    let r := ensure h known (f s)
    inquire h known (f s) :: inquiries h r.2.1 r.2.2 later

theorem inquire_unknown (h : Heap σ) (s : σ) :
    Measured h s (inquire h none s).result (inquire h none s).calls (inquire h none s).after ∧
      (ensure h none s).2.1 = (inquire h none s).result.toOption := by
  obtain ⟨calls, hm, hr⟩ := measured h s
  rcases he : measure h s with ⟨k | k, t⟩
  all_goals
    rw [he] at hm hr
    simp only [inquire, ensure, he, hr]
    exact ⟨hm, rfl⟩

theorem inquiries_known (h : Heap σ) (k : Int) (s : σ) (meanwhile : List (σ → σ)) :
    ∀ q ∈ inquiries h (some k) s meanwhile, q.result = .ok k ∧ q.calls = [] ∧ q.after = q.before := by
  induction meanwhile generalizing s with
  | nil =>
    intro q hq
    cases hq
  | cons f later ih =>
    intro q hq
    rcases List.mem_cons.mp hq with rfl | hq
    · exact ⟨rfl, rfl, rfl⟩
    · exact ih (f s) q hq

theorem inquiries_unknown (h : Heap σ) (s : σ) (meanwhile : List (σ → σ)) :
    ∃ failed rest, inquiries h none s meanwhile = failed ++ rest ∧
      (∀ q ∈ failed, (∃ k, q.result = .error k) ∧ Measured h q.before q.result q.calls q.after) ∧
      ∀ q later, rest = q :: later →
        ∃ k, q.result = .ok k ∧ Measured h q.before (.ok k) q.calls q.after ∧
          ∀ p ∈ later, p.result = .ok k ∧ p.calls = [] ∧ p.after = p.before := by
  induction meanwhile generalizing s with
  | nil => exact ⟨[], [], rfl, by simp, by simp⟩
  | cons f later ih =>
    obtain ⟨hm, hk⟩ := inquire_unknown h (f s)
    cases hr : (inquire h none (f s)).result with
    | ok k =>
      rw [hr] at hm hk
      have hi : inquiries h none s (f :: later) =
          inquire h none (f s) :: inquiries h (some k) (ensure h none (f s)).2.2 later := by
        rw [inquiries, hk]
        rfl
      refine ⟨[], _, hi, by simp, ?_⟩
      intro q rest he
      obtain ⟨rfl, rfl⟩ := List.cons.inj he
      exact ⟨k, hr, hm, inquiries_known h k _ later⟩
    | error k =>
      obtain ⟨failed, rest, hi, hfailed, hrest⟩ := ih (ensure h none (f s)).2.2
      refine ⟨inquire h none (f s) :: failed, rest, ?_, ?_, hrest⟩
      · rw [hr] at hk
        rw [inquiries, hk]
        exact congrArg _ hi
      · intro q hq
        rcases List.mem_cons.mp hq with rfl | hq
        · exact ⟨⟨k, hr⟩, hm⟩
        · exact hfailed q hq

/-- An offset leads from an object to its integers, whatever the addresses, and is valid exactly if
they stand where a header ends. Asked for it again and again, R is measured anew until a measurement
is trusted; its offset is the answer from then on, for which R is not called; and after each question
R protects as many objects as before. -/
theorem offset_trusted :
    (∀ object payload : UInt64,
      address object (payloadOffset object payload) = payload ∧
      (object.toNat + payloadOffset object payload) % 2 ^ 64 = payload.toNat ∧
      (isValid (payloadOffset object payload) = true ↔ Fits object payload)) ∧
    ∀ (σ : Type) (h : Heap σ) (s : σ) (meanwhile : List (σ → σ)),
      (∃ failed rest, inquiries h none s meanwhile = failed ++ rest ∧
        (∀ q ∈ failed, (∃ k, q.result = .error k) ∧ Measured h q.before q.result q.calls q.after) ∧
        ∀ q later, rest = q :: later →
          ∃ k, q.result = .ok k ∧ Measured h q.before (.ok k) q.calls q.after ∧
            ∀ p ∈ later, p.result = .ok k ∧ p.calls = [] ∧ p.after = p.before) ∧
      ∀ q ∈ inquiries h none s meanwhile, HeapCall.Balanced q.calls := by
  constructor
  · intro object payload
    exact ⟨address_payloadOffset object payload, payloadOffset_mod object payload,
      isValid_payloadOffset object payload⟩
  · intro σ h s meanwhile
    obtain ⟨failed, rest, hi, hfailed, hrest⟩ := inquiries_unknown h s meanwhile
    refine ⟨⟨failed, rest, hi, hfailed, hrest⟩, ?_⟩
    intro q hq
    rw [hi] at hq
    rcases List.mem_append.mp hq with hq | hq
    · exact (hfailed q hq).2.balanced
    · obtain ⟨first, later, rfl⟩ := List.exists_cons_of_ne_nil (List.ne_nil_of_mem hq)
      obtain ⟨k, -, hm, hlater⟩ := hrest first later rfl
      rcases List.mem_cons.mp hq with rfl | hq
      · exact hm.balanced
      · rw [(hlater q hq).2.1]
        rfl

end Layout

end RConsole
