import Mathlib.Data.Nat.Notation
import Mathlib.Data.List.Basic
import Mathlib.Tactic.Linarith

/-! # Numerals

Numerals as lists of characters, with the facts that make texts containing them readable:
`Nat.toDigits 10` is injective and consists of decimal digits, and `padded b w`, the base-`b`
numeral of exactly `w` digits, can be read off the front of a text (`padded_append_inj`). -/

namespace Numeral

/-! ### Decimal numerals -/

theorem toDigits_injective {m n : ℕ} (h : Nat.toDigits 10 m = Nat.toDigits 10 n) : m = n := by
  rw [← Nat.ofDigitChars_ten_toDigits (n := m), h, Nat.ofDigitChars_ten_toDigits]

theorem isDigit_of_mem {c : Char} {n : ℕ} (h : c ∈ Nat.toDigits 10 n) : c.isDigit :=
  Nat.isDigit_of_mem_toDigits (by decide) (by decide) h

theorem ne_of_isDigit {c d : Char} (hc : c.isDigit) (hd : d.isDigit = false) : c ≠ d := by
  rintro rfl
  rw [hc] at hd
  cases hd

/-- A numeral is not empty. -/
theorem exists_cons_toDigits (n : ℕ) : ∃ c cs, Nat.toDigits 10 n = c :: cs ∧ c.isDigit := by
  obtain ⟨c, cs, h⟩ := List.exists_cons_of_ne_nil (Nat.toDigits_ne_nil (n := n) (b := 10))
  exact ⟨c, cs, h, isDigit_of_mem (n := n) (by simp [h])⟩

/-! ### Numerals of fixed width -/

/-- `n` in base `b`, with exactly `w` digits. -/
def padded (b : ℕ) : ℕ → ℕ → List Char
  | 0, _ => []
  | w + 1, n => padded b w (n / b) ++ [Nat.digitChar (n % b)]

@[simp] theorem length_padded (b w n : ℕ) : (padded b w n).length = w := by
  induction w generalizing n with
  | zero => rfl
  | succ w ih => simp [padded, ih]

theorem digitChar_injective {a b : ℕ} (ha : a < 16) (hb : b < 16)
    (h : Nat.digitChar a = Nat.digitChar b) : a = b := by
  have key : ∀ a b : Fin 16, Nat.digitChar a = Nat.digitChar b → a = b := by decide
  exact congrArg Fin.val (key ⟨a, ha⟩ ⟨b, hb⟩ h)

theorem padded_injective {b : ℕ} (hb : 0 < b) (hb' : b ≤ 16) :
    ∀ {w m n : ℕ}, m < b ^ w → n < b ^ w → padded b w m = padded b w n → m = n
  | 0, m, n, hm, hn, _ => by
      simp only [pow_zero, Nat.lt_one_iff] at hm hn
      omega
  | w + 1, m, n, hm, hn, h => by
      obtain ⟨h₁, h₂⟩ := List.append_inj h (by simp)
      have hdiv : m / b = n / b :=
        padded_injective hb hb' (Nat.div_lt_of_lt_mul (by rwa [pow_succ'] at hm))
          (Nat.div_lt_of_lt_mul (by rwa [pow_succ'] at hn)) h₁
      have hmod : m % b = n % b :=
        digitChar_injective ((Nat.mod_lt m hb).trans_le hb') ((Nat.mod_lt n hb).trans_le hb')
          (List.cons.inj h₂).1
      rw [← Nat.div_add_mod m b, ← Nat.div_add_mod n b, hdiv, hmod]

/-- A numeral of fixed width is read off the front of a text. -/
theorem padded_append_inj {b w m n : ℕ} {s t : List Char} (hb : 0 < b) (hb' : b ≤ 16)
    (hm : m < b ^ w) (hn : n < b ^ w) (h : padded b w m ++ s = padded b w n ++ t) :
    m = n ∧ s = t := by
  obtain ⟨h₁, h₂⟩ := List.append_inj h (by simp)
  exact ⟨padded_injective hb hb' hm hn h₁, h₂⟩

theorem mem_padded {b w n : ℕ} {c : Char} (h : c ∈ padded b w n) :
    ∃ d, c = Nat.digitChar (d % b) := by
  induction w generalizing n with
  | zero => cases h
  | succ w ih =>
      simp only [padded, List.mem_append, List.mem_singleton] at h
      rcases h with h | h
      · exact ih h
      · exact ⟨n, h⟩

end Numeral
