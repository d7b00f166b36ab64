import FinanceAccounting.Ingestion.Validators
import FinanceAccounting.Library.Traversals

/-! # The precision check

`validate_decimal_precision` looks at the number of digits and at the exponent of a number.  A column
of 38 digits with 9 of them after the point has room for 29 before it, and trailing zeros need none
(`storable_iff`); the check allows 38 digits before the point of a whole number, adds the places of a
fraction to digits that already count them, and takes trailing zeros for places.  So it is exact for
the numbers where this makes no difference (`validateDecimalPrecision_exact_iff`). -/

namespace FinanceAccounting.Ingestion

open Traversals (mem_of_mapM exists_mapM map_eq_ok)

/-! ### What a column can store -/

/-- The number is one of a column of 38 digits with 9 decimal places. -/
def Storable : Decimal → Prop
  | .finite sign coeff exp =>
      ∃ m : ℤ, |m| < 10 ^ 38 ∧ (Decimal.finite sign coeff exp).toRat = m / 10 ^ 9
  | _ => False

/-- The check counts rightly: what it reports is what cannot be stored. -/
def WellCounted : Decimal → Prop
  | .finite _ coeff exp =>
      let digits : ℤ := Decimal.numDigits coeff
      if coeff = 0 then -9 ≤ exp ∧ exp ≤ 37
      else if 0 ≤ exp then digits + exp ≤ 29 ∨ 38 < digits + exp
      else if exp < -9 then 29 < digits + exp ∨ ¬10 ^ (-exp - 9).toNat ∣ coeff
      else digits + exp ≤ 29 ↔ digits - exp ≤ 38
  | _ => False

theorem abs_signed (sign : Bool) (coeff : ℕ) : |Decimal.signed sign coeff| = coeff := by
  unfold Decimal.signed
  split
  · rw [abs_neg, Nat.abs_cast]
  · exact Nat.abs_cast _

/-- Digits and zeros after them. -/
theorem mul_pow_lt_iff {coeff : ℕ} (h : coeff ≠ 0) (k : ℕ) :
    coeff * 10 ^ k < 10 ^ 38 ↔ Decimal.numDigits coeff + k ≤ 38 := by
  have hdigits := Decimal.numDigits_pos coeff
  by_cases hk : k < 38
  · have hsplit : (10 : ℕ) ^ 38 = 10 ^ (38 - k) * 10 ^ k := by
      rw [← pow_add, Nat.sub_add_cancel hk.le]
    rw [hsplit, Nat.mul_lt_mul_right (by positivity), ← Decimal.numDigits_le_iff (by omega)]
    omega
  · constructor
    · intro hlt
      have hpow : (10 : ℕ) ^ 38 ≤ 10 ^ k := Nat.pow_le_pow_right (by norm_num) (not_lt.mp hk)
      exact absurd hlt (not_lt.mpr (hpow.trans (Nat.le_mul_of_pos_left _ (Nat.pos_of_ne_zero h))))
    · intro hle
      omega

theorem mul_zpow_eq_iff (x m : ℤ) (k : ℕ) :
    (x : ℚ) * 10 ^ ((k : ℤ) - 9) = m / 10 ^ 9 ↔ m = x * 10 ^ k := by
  rw [zpow_sub₀ (by norm_num), zpow_natCast, ← mul_div_assoc]
  norm_num
  constructor
  · intro h
    exact_mod_cast h.symm
  · rintro rfl
    push_cast
    rfl

theorem zpow_neg_eq_iff (x m : ℤ) (k : ℕ) :
    (x : ℚ) * 10 ^ (-(k : ℤ) - 9) = m / 10 ^ 9 ↔ x = m * 10 ^ k := by
  rw [zpow_sub₀ (by norm_num), zpow_neg, zpow_natCast, ← mul_div_assoc, ← div_eq_mul_inv]
  norm_num
  rw [div_eq_iff (by positivity)]
  exact_mod_cast Iff.rfl

theorem signed_mul (sign : Bool) (q n : ℕ) :
    Decimal.signed sign (q * n) = Decimal.signed sign q * n := by
  unfold Decimal.signed
  split
  · push_cast
    ring
  · push_cast
    ring

/-- **A number can be stored** when it has at most 29 digits before the point, and no others than
zeros from the tenth place on. -/
theorem storable_iff (sign : Bool) (coeff : ℕ) (exp : ℤ) :
    Storable (.finite sign coeff exp) ↔ coeff = 0 ∨
      (Decimal.numDigits coeff + exp ≤ 29 ∧ (exp < -9 → 10 ^ (-exp - 9).toNat ∣ coeff)) := by
  show (∃ m : ℤ, |m| < 10 ^ 38 ∧ (Decimal.signed sign coeff : ℚ) * 10 ^ exp = m / 10 ^ 9) ↔ _
  by_cases hzero : coeff = 0
  · subst hzero
    refine ⟨fun _ => .inl rfl, fun _ => ⟨0, by norm_num, ?_⟩⟩
    cases sign <;> simp [Decimal.signed]
  rw [or_iff_right hzero]
  by_cases hexp : exp < -9
  · obtain ⟨k, rfl⟩ : ∃ k : ℕ, exp = -(k : ℤ) - 9 := ⟨(-exp - 9).toNat, by omega⟩
    have hk : (-(-(k : ℤ) - 9) - 9).toNat = k := by omega
    have hfits : (Decimal.numDigits coeff : ℤ) + (-(k : ℤ) - 9) ≤ 29 ↔ coeff < 10 ^ (38 + k) := by
      rw [← Decimal.numDigits_le_iff (by omega)]
      omega
    simp only [zpow_neg_eq_iff]
    rw [hk, hfits]
    constructor
    · rintro ⟨m, hm, hsigned⟩
      have hcoeff : coeff = m.natAbs * 10 ^ k := by
        have habs := congrArg abs hsigned
        rw [abs_signed, abs_mul, abs_of_nonneg (by positivity : (0 : ℤ) ≤ 10 ^ k),
          Int.abs_eq_natAbs] at habs
        exact_mod_cast habs
      have hm' : m.natAbs < 10 ^ 38 := by
        rw [Int.abs_eq_natAbs] at hm
        exact_mod_cast hm
      refine ⟨?_, fun _ => ⟨m.natAbs, by rw [hcoeff, mul_comm]⟩⟩
      rw [hcoeff, pow_add]
      exact Nat.mul_lt_mul_of_pos_right hm' (by positivity)
    · rintro ⟨hlt, hdvd⟩
      obtain ⟨q, rfl⟩ := hdvd hexp
      refine ⟨Decimal.signed sign q, ?_, ?_⟩
      · rw [abs_signed]
        rw [pow_add, mul_comm (10 ^ 38)] at hlt
        exact_mod_cast Nat.lt_of_mul_lt_mul_left hlt
      · rw [mul_comm, signed_mul]
        push_cast
        rfl
  · obtain ⟨k, rfl⟩ : ∃ k : ℕ, exp = (k : ℤ) - 9 := ⟨(exp + 9).toNat, by omega⟩
    have hfits := mul_pow_lt_iff hzero k
    simp only [mul_zpow_eq_iff, exists_eq_right]
    rw [abs_mul, abs_signed, abs_of_nonneg (by positivity : (0 : ℤ) ≤ 10 ^ k)]
    constructor
    · intro hlt
      have hnat : coeff * 10 ^ k < 10 ^ 38 := by exact_mod_cast hlt
      have := hfits.mp hnat
      exact ⟨by omega, fun h => absurd h hexp⟩
    · rintro ⟨hle, -⟩
      exact_mod_cast hfits.mpr (by omega)

/-! ### What the check reports -/

/-- The number that a record has in a field. -/
def fieldNumber (b : Builtins) (record : Dict) (fieldName : String) : Option Decimal :=
  if (record.get fieldName).isNone then none else b.decimal (b.text (record.get fieldName))

/-- The check reports the fields whose number cannot be stored, and no others. -/
def PreciselyReported (b : Builtins) (record : Dict) (decimalFields : List String) : Prop :=
  ∃ errors, validateDecimalPrecision b record decimalFields = .ok errors ∧
    ∀ fieldName ∈ decimalFields, ∀ d, fieldNumber b record fieldName = some d →
      ((∃ e ∈ errors, e.field = some fieldName) ↔ ¬Storable d)

section Reports

variable {b : Builtins} {record : Dict} {fieldName : String} {decimalFields : List String}
variable {errors : List ValidationError} {d : Decimal}

theorem decimalFieldErrors_eq (b : Builtins) (record : Dict) (fieldName : String) :
    decimalFieldErrors b record fieldName =
      match fieldNumber b record fieldName with
      | none => .ok []
      | some d => precisionErrors fieldName d := by
  unfold decimalFieldErrors fieldNumber
  dsimp only
  split
  · rfl
  · rfl

/-- The check reports a number of so many digits with this exponent. -/
def Exceeds (coeff : ℕ) (exp : ℤ) : Prop :=
  if 0 ≤ exp then 38 < (Decimal.numDigits coeff : ℤ) + exp
  else exp < -9 ∨ 38 < (Decimal.numDigits coeff : ℤ) - exp

/-- The errors of a number are about its field, and there are some where the count is exceeded. -/
theorem precisionErrors_finite (fieldName : String) (sign : Bool) (coeff : ℕ) (exp : ℤ) :
    ∃ errors, precisionErrors fieldName (.finite sign coeff exp) = .ok errors ∧
      (∀ e ∈ errors, e.field = some fieldName) ∧ (errors ≠ [] ↔ Exceeds coeff exp) := by
  unfold precisionErrors Exceeds maxDecimalDigits maxDecimalPlaces
  dsimp only
  by_cases hexp : 0 ≤ exp
  · simp only [if_pos hexp]
    by_cases hexceeds : 38 < (Decimal.numDigits coeff : ℤ) + exp
    · exact ⟨_, rfl, by simp [hexceeds], by simp [hexceeds]⟩
    · exact ⟨_, rfl, by simp [hexceeds], by simp [hexceeds]⟩
  · simp only [if_neg hexp]
    have hplaces : (9 : ℤ) < -exp ↔ exp < -9 := by omega
    have hdigits : (38 : ℤ) < Decimal.numDigits coeff + -exp ↔
        38 < (Decimal.numDigits coeff : ℤ) - exp := by omega
    refine ⟨_, rfl, ?_, ?_⟩
    · intro e he
      rcases List.mem_append.mp he with he | he
      · split at he
        · rw [List.mem_singleton.mp he]
        · cases he
      · split at he
        · rw [List.mem_singleton.mp he]
        · cases he
    · rw [ne_eq, List.append_eq_nil_iff]
      by_cases hscale : exp < -9
      · simp [hplaces, hscale]
      · by_cases hexceeds : 38 < (Decimal.numDigits coeff : ℤ) - exp
        · simp [hdigits, hexceeds]
        · simp [hplaces, hdigits, hscale, hexceeds]

/-- **The count is right** where what it reports is what cannot be stored. -/
theorem wellCounted_iff (sign : Bool) (coeff : ℕ) (exp : ℤ) :
    WellCounted (.finite sign coeff exp) ↔
      (Exceeds coeff exp ↔ ¬Storable (.finite sign coeff exp)) := by
  rw [storable_iff]
  unfold WellCounted Exceeds
  dsimp only
  by_cases hzero : coeff = 0
  · subst hzero
    have hone : ((Decimal.numDigits 0 : ℕ) : ℤ) = 1 := rfl
    simp only [hone, if_true, true_or, not_true_eq_false, iff_false]
    split
    · omega
    · omega
  simp only [hzero, if_false, false_or]
  by_cases hexp : 0 ≤ exp
  · rw [if_pos hexp, if_pos hexp]
    have hscale : ¬exp < -9 := by omega
    simp only [hscale, false_imp_iff, and_true, not_le]
    omega
  · rw [if_neg hexp, if_neg hexp]
    by_cases hscale : exp < -9
    · rw [if_pos hscale]
      by_cases hdvd : 10 ^ (-exp - 9).toNat ∣ coeff
      · simp only [hdvd, hscale, not_true_eq_false, or_false, true_or, true_iff, imp_true_iff, and_true,
          not_le]
      · simp only [hdvd, hscale, not_false_eq_true, or_true, true_or, true_imp_iff, and_false]
    · simp only [hscale, if_false, false_or, false_imp_iff, and_true, not_le]
      omega

/-- The errors that were collected are those of the fields. -/
theorem collected_iff (hfields : ∀ fieldName ∈ decimalFields, ∃ errors,
      decimalFieldErrors b record fieldName = .ok errors ∧ ∀ e ∈ errors, e.field = some fieldName) :
    ∃ errors, validateDecimalPrecision b record decimalFields = .ok errors ∧
      ∀ fieldName ∈ decimalFields, (∃ e ∈ errors, e.field = some fieldName) ↔
        ∃ e es, decimalFieldErrors b record fieldName = .ok (e :: es) := by
  obtain ⟨all, hall⟩ := exists_mapM fun fieldName hmem =>
    let ⟨errors, herrors, _⟩ := hfields fieldName hmem
    ⟨errors, herrors⟩
  refine ⟨all.flatten, by rw [validateDecimalPrecision, collect, hall]; rfl, ?_⟩
  obtain ⟨hforward, hbackward⟩ := mem_of_mapM hall
  intro fieldName hmem
  constructor
  · rintro ⟨e, he, hfield⟩
    obtain ⟨errors, herrors, he⟩ := List.mem_flatten.mp he
    obtain ⟨other, hother, hrun⟩ := hbackward errors herrors
    obtain ⟨errors', hrun', habout⟩ := hfields other hother
    obtain rfl := Except.ok.inj (hrun.symm.trans hrun')
    obtain rfl := Option.some.inj (hfield.symm.trans (habout e he))
    cases errors with
    | nil => cases he
    | cons e' es => exact ⟨e', es, hrun⟩
  · rintro ⟨e, es, hrun⟩
    obtain ⟨errors, herrors, hrun'⟩ := hforward fieldName hmem
    obtain rfl := Except.ok.inj (hrun.symm.trans hrun')
    obtain ⟨errors', hrun'', habout⟩ := hfields fieldName hmem
    obtain rfl := Except.ok.inj (hrun.symm.trans hrun'')
    exact ⟨e, List.mem_flatten.mpr ⟨_, herrors, List.mem_cons_self⟩, habout e List.mem_cons_self⟩

/-- A check that does not raise has only met finite numbers. -/
theorem finite_of_validate (h : validateDecimalPrecision b record decimalFields = .ok errors)
    (hmem : fieldName ∈ decimalFields) (hd : fieldNumber b record fieldName = some d) :
    ∃ sign coeff exp, d = .finite sign coeff exp := by
  obtain ⟨all, hall, -⟩ := map_eq_ok.mp h
  obtain ⟨found, -, hrun⟩ := (mem_of_mapM hall).1 fieldName hmem
  rw [decimalFieldErrors_eq, hd] at hrun
  cases d with
  | finite sign coeff exp => exact ⟨sign, coeff, exp, rfl⟩
  | infinity sign => cases hrun
  | nan sign signaling payload => cases hrun

/-- The errors of a field are there when its number is reported. -/
theorem reported_iff {sign : Bool} {coeff : ℕ} {exp : ℤ}
    (hd : fieldNumber b record fieldName = some (.finite sign coeff exp)) :
    (∃ e es, decimalFieldErrors b record fieldName = .ok (e :: es)) ↔ Exceeds coeff exp := by
  obtain ⟨found, hfound, -, hexceeds⟩ := precisionErrors_finite fieldName sign coeff exp
  have hrun : decimalFieldErrors b record fieldName = .ok found := by
    rw [decimalFieldErrors_eq, hd]
    exact hfound
  rw [← hexceeds, hrun]
  cases found with
  | nil => simp
  | cons e es => simp

theorem fieldErrors_of_finite
    (hfinite : ∀ d, fieldNumber b record fieldName = some d → ∃ s c e, d = .finite s c e) :
    ∃ errors, decimalFieldErrors b record fieldName = .ok errors ∧
      ∀ e ∈ errors, e.field = some fieldName := by
  rw [decimalFieldErrors_eq]
  cases hd : fieldNumber b record fieldName with
  | none => exact ⟨[], rfl, fun e he => absurd he List.not_mem_nil⟩
  | some d =>
      obtain ⟨sign, coeff, exp, rfl⟩ := hfinite d hd
      obtain ⟨found, hfound, habout, -⟩ := precisionErrors_finite fieldName sign coeff exp
      exact ⟨found, hfound, habout⟩

end Reports

/-- **The precision check is exact** for the numbers that it counts rightly. -/
theorem validateDecimalPrecision_exact_iff (b : Builtins) (record : Dict)
    (decimalFields : List String) :
    PreciselyReported b record decimalFields ↔
      ∀ fieldName ∈ decimalFields, ∀ d, fieldNumber b record fieldName = some d →
        WellCounted d := by
  constructor
  · rintro ⟨errors, hrun, hexact⟩ fieldName hmem d hd
    have hfinite : ∀ other ∈ decimalFields, ∀ d, fieldNumber b record other = some d →
        ∃ s c e, d = .finite s c e := fun other hother d hd => finite_of_validate hrun hother hd
    obtain ⟨errors', hrun', hreported⟩ := collected_iff fun other hother =>
      fieldErrors_of_finite (hfinite other hother)
    obtain rfl := Except.ok.inj (hrun.symm.trans hrun')
    obtain ⟨sign, coeff, exp, rfl⟩ := hfinite fieldName hmem d hd
    rw [wellCounted_iff, ← reported_iff hd, ← hreported fieldName hmem]
    exact hexact fieldName hmem _ hd
  · intro hcounted
    have hfinite : ∀ other ∈ decimalFields, ∀ d, fieldNumber b record other = some d →
        ∃ s c e, d = .finite s c e := by
      intro other hother d hd
      have hwell := hcounted other hother d hd
      cases d with
      | finite sign coeff exp => exact ⟨sign, coeff, exp, rfl⟩
      | infinity sign => exact hwell.elim
      | nan sign signaling payload => exact hwell.elim
    obtain ⟨errors, hrun, hreported⟩ := collected_iff fun other hother =>
      fieldErrors_of_finite (hfinite other hother)
    refine ⟨errors, hrun, fun fieldName hmem d hd => ?_⟩
    obtain ⟨sign, coeff, exp, rfl⟩ := hfinite fieldName hmem d hd
    rw [hreported fieldName hmem, reported_iff hd]
    exact (wellCounted_iff sign coeff exp).mp (hcounted fieldName hmem _ hd)

/-- A number of thirty digits has no place in the column but is not reported, one with a zero in
the tenth place is, and an infinity makes the check raise. -/
theorem not_preciselyReported :
    ¬PreciselyReported (plainBuiltins [("1E+29", .finite false 1 29)])
        [("amount", .str "1E+29")] ["amount"] ∧
      ¬PreciselyReported (plainBuiltins [("1.0000000000", .finite false (10 ^ 10) (-10))])
        [("amount", .str "1.0000000000")] ["amount"] ∧
      ¬PreciselyReported (plainBuiltins [("Infinity", .infinity false)])
        [("amount", .str "Infinity")] ["amount"] := by
  refine ⟨?_, ?_, ?_⟩
  · rintro ⟨errors, hrun, hexact⟩
    obtain rfl : [] = errors := Except.ok.inj hrun
    obtain ⟨e, he, -⟩ := (hexact "amount" List.mem_cons_self (.finite false 1 29) rfl).mpr
      (by rw [storable_iff]; decide)
    cases he
  · rintro ⟨errors, hrun, hexact⟩
    obtain rfl : [_] = errors := Except.ok.inj hrun
    refine (hexact "amount" List.mem_cons_self (.finite false (10 ^ 10) (-10)) rfl).mp
      ⟨_, List.mem_cons_self, rfl⟩ ?_
    rw [storable_iff]
    decide
  · rintro ⟨errors, hrun, -⟩
    cases hrun

end FinanceAccounting.Ingestion
