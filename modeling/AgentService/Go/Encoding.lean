import Mathlib.Algebra.Group.Nat.Defs
import Mathlib.Data.Int.Notation
import Mathlib.Data.List.Basic

/-!
# Decimal numbers, length-prefixed tuples, and digits of a fixed number

`strconv.Itoa`, and the encoding of a tuple of strings as the concatenation of its parts, each with
its length in bytes and a colon in front. The encoding is injective: the digits end at the first
colon, and the length then says where the part ends. `digits` writes a number with a fixed number of
digits in any base; where the digits ascend, so do the texts (`digits_lt`).
-/

namespace AgentService.Go

open List Int

/-- `strconv.Itoa`. -/
def itoa (n : ℤ) : String := toString n

/-- The parts of a tuple, each with its length in bytes and a colon in front. -/
def lengthPrefixed (parts : List String) : String :=
  parts.foldl (fun out part => out ++ itoa part.utf8ByteSize ++ ":" ++ part) ""

theorem toDigits_injective {m n : ℕ} (h : Nat.toDigits 10 m = Nat.toDigits 10 n) : m = n := by
  rw [← Nat.ofDigitChars_ten_toDigits (n := m), h, Nat.ofDigitChars_ten_toDigits]

variable (n : ℕ)

theorem toList_itoa_natCast : (itoa n).toList = Nat.toDigits 10 n := by
  simp [itoa, toString_eq_repr, repr_eq_if, Nat.repr]

theorem toList_itoa_negSucc : (itoa (Int.negSucc n)).toList = '-' :: Nat.toDigits 10 (n + 1) := by
  simp [itoa, toString_eq_repr, repr_eq_if, Nat.repr]

/-- A sign is not a digit. -/
theorem toDigits_ne_sign (m : ℕ) (l : List Char) : Nat.toDigits 10 m ≠ '-' :: l := by
  intro h
  have hsign : '-' ∈ Nat.toDigits 10 m := by rw [h]; exact mem_cons_self
  have hdigit := Nat.isDigit_of_mem_toDigits (by decide) (by decide) hsign
  exact absurd hdigit (by decide)

/-- A number has a digit. -/
theorem itoa_ne_empty (n : ℤ) : itoa n ≠ "" := by
  intro h
  have hl : (itoa n).toList = [] := by rw [h]; rfl
  cases n with
  | ofNat =>
    rw [ofNat_eq_natCast, toList_itoa_natCast] at hl
    exact Nat.toDigits_ne_nil hl
  | negSucc =>
    rw [toList_itoa_negSucc] at hl
    cases hl

/-- The decimal form of an integer determines it. -/
theorem itoa_injective {m n : ℤ} (h : itoa m = itoa n) : m = n := by
  have hl : (itoa m).toList = (itoa n).toList := by rw [h]
  cases m with
  | ofNat =>
    cases n with
    | ofNat =>
      rw [ofNat_eq_natCast, ofNat_eq_natCast, toList_itoa_natCast, toList_itoa_natCast] at hl
      rw [toDigits_injective hl]
    | negSucc =>
      rw [ofNat_eq_natCast, toList_itoa_natCast, toList_itoa_negSucc] at hl
      exact absurd hl (toDigits_ne_sign _ _)
  | negSucc m =>
    cases n with
    | ofNat =>
      rw [ofNat_eq_natCast, toList_itoa_natCast, toList_itoa_negSucc] at hl
      exact absurd hl.symm (toDigits_ne_sign _ _)
    | negSucc n =>
      rw [toList_itoa_negSucc, toList_itoa_negSucc, cons.injEq] at hl
      have := toDigits_injective hl.2
      rw [show m = n by omega]

/-- The characters of one encoded part. -/
def partChars (part : String) : List Char :=
  Nat.toDigits 10 part.utf8ByteSize ++ ':' :: part.toList

/-- The encoding, as the list of characters of its parts. -/
theorem toList_lengthPrefixed (parts : List String) :
    (lengthPrefixed parts).toList = parts.flatMap partChars := by
  have hfold : ∀ (parts : List String) (out : String),
      (parts.foldl (fun out part => out ++ itoa part.utf8ByteSize ++ ":" ++ part) out).toList =
        out.toList ++ parts.flatMap partChars := by
    intro parts
    induction parts with
    | nil => simp
    | cons _ _ ih =>
      intro out
      rw [foldl_cons, ih, flatMap_cons, partChars]
      simp [toList_itoa_natCast]
  exact (hfold parts "").trans (by simp)

/-- Two lists split at the first occurrence of a character agree on both sides of it. -/
theorem append_stop_inj {stop : Char} {a b x y : List Char} (ha : stop ∉ a) (hb : stop ∉ b)
    (h : a ++ stop :: x = b ++ stop :: y) : a = b ∧ x = y := by
  induction a generalizing b with
  | nil =>
    cases b with
    | nil => simpa using h
    | cons =>
      simp only [nil_append, cons_append, cons.injEq] at h
      exact absurd (h.1 ▸ mem_cons_self) hb
  | cons c a ih =>
    cases b with
    | nil =>
      simp only [nil_append, cons_append, cons.injEq] at h
      exact absurd (h.1 ▸ mem_cons_self) ha
    | cons =>
      simp only [cons_append, cons.injEq] at h
      obtain ⟨rfl, h⟩ := h
      obtain ⟨rfl, rfl⟩ := ih (fun hm => ha (mem_cons_of_mem _ hm))
        (fun hm => hb (mem_cons_of_mem _ hm)) h
      exact ⟨rfl, rfl⟩

/-- The digits of a length hold no colon. -/
theorem colon_notMem_toDigits : ':' ∉ Nat.toDigits 10 n := by
  intro h
  have hdigit := Nat.isDigit_of_mem_toDigits (by decide) (by decide) h
  exact absurd hdigit (by decide)

/-- Two strings of one length in bytes at the front of one list are equal. -/
theorem append_inj_of_utf8ByteSize {p q : String} {x y : List Char}
    (hsize : p.utf8ByteSize = q.utf8ByteSize) (h : p.toList ++ x = q.toList ++ y) :
    p = q ∧ x = y := by
  -- One of the two is a prefix of the other; what is left over has no bytes.
  rcases append_eq_append_iff.1 h with ⟨r, hq, hx⟩ | ⟨r, hp, hy⟩
  · have hq' : q = p ++ String.ofList r := by
      rw [← String.toList_inj]; simpa using hq
    rw [hq', String.utf8ByteSize_append] at hsize
    have hr : String.ofList r = "" := String.utf8ByteSize_eq_zero_iff.1 (by omega)
    have hr' : r = [] := by simpa using hr
    subst hr'
    exact ⟨by rw [hq']; simp, by simpa using hx⟩
  · have hp' : p = q ++ String.ofList r := by
      rw [← String.toList_inj]; simpa using hp
    rw [hp', String.utf8ByteSize_append] at hsize
    have hr : String.ofList r = "" := String.utf8ByteSize_eq_zero_iff.1 (by omega)
    have hr' : r = [] := by simpa using hr
    subst hr'
    exact ⟨by rw [hp']; simp, by simpa using hy.symm⟩

/-- The encoding is injective, on tuples of any lengths. -/
theorem lengthPrefixed_injective : Function.Injective lengthPrefixed := by
  intro xs ys h
  have hl : xs.flatMap partChars = ys.flatMap partChars := by
    rw [← toList_lengthPrefixed, ← toList_lengthPrefixed, h]
  clear h
  induction xs generalizing ys with
  | nil =>
    cases ys with
    | nil => rfl
    | cons => simp [partChars] at hl
  | cons x xs ih =>
    cases ys with
    | nil => simp [partChars] at hl
    | cons =>
      simp only [flatMap_cons, partChars, append_assoc, cons_append] at hl
      obtain ⟨hdigits, hrest⟩ := append_stop_inj (colon_notMem_toDigits _)
        (colon_notMem_toDigits _) hl
      obtain ⟨hxy, hrest⟩ := append_inj_of_utf8ByteSize (toDigits_injective hdigits) hrest
      rw [hxy, ih hrest]

/-- Two tuples have one encoding exactly when they are equal. -/
@[simp] theorem lengthPrefixed_inj {xs ys : List String} :
    lengthPrefixed xs = lengthPrefixed ys ↔ xs = ys :=
  lengthPrefixed_injective.eq_iff

/-- Two integers have one decimal form exactly when they are equal. -/
@[simp] theorem itoa_inj {m n : ℤ} : itoa m = itoa n ↔ m = n :=
  ⟨itoa_injective, fun h => by rw [h]⟩

/-! ## Digits of a fixed number -/

section Digits

variable {α : Type} {b : ℕ} {digit : ℕ → α}

/-- The last `n` digits of a number in base `b`, as a loop fills an array from its end. -/
def digits (b : ℕ) (digit : ℕ → α) : ℕ → ℕ → List α
  | 0, _ => []
  | n + 1, value => digits b digit n (value / b) ++ [digit (value % b)]

/-- The first digit is the one of the highest place. -/
theorem digits_succ (n value : ℕ) :
    digits b digit (n + 1) value = digit (value / b ^ n % b) :: digits b digit n value := by
  induction n generalizing value with
  | zero => simp [digits]
  | succ n ih =>
    rw [digits, ih, cons_append, Nat.div_div_eq_div_mul, ← Nat.pow_succ', digits]

/-- With ascending digits, numbers are in the lexicographic order of their digits. -/
theorem digits_lt [LT α] (hdigit : ∀ j < b, ∀ i < j, digit i < digit j) (hb : 0 < b) {n v w : ℕ}
    (h : v % b ^ n < w % b ^ n) : digits b digit n v < digits b digit n w := by
  induction n with
  | zero => simp [Nat.mod_one] at h
  | succ n ih =>
    rw [Nat.mod_pow_succ, Nat.mod_pow_succ] at h
    rw [digits_succ, digits_succ, cons_lt_cons_iff]
    -- The first digits decide, unless they are equal.
    rcases Nat.lt_trichotomy (v / b ^ n % b) (w / b ^ n % b) with hlt | heq | hgt
    · exact .inl (hdigit _ (Nat.mod_lt _ hb) _ hlt)
    · rw [heq] at h ⊢
      exact .inr ⟨rfl, ih (by omega)⟩
    · have hrest : w % b ^ n < b ^ n := Nat.mod_lt _ (Nat.pow_pos hb)
      refine absurd h (Nat.not_lt.2 ?_)
      calc w % b ^ n + b ^ n * (w / b ^ n % b)
          ≤ b ^ n * (w / b ^ n % b + 1) := by rw [Nat.mul_succ]; omega
        _ ≤ b ^ n * (v / b ^ n % b) := Nat.mul_le_mul_left _ hgt
        _ ≤ v % b ^ n + b ^ n * (v / b ^ n % b) := Nat.le_add_left _ _

end Digits

end AgentService.Go
