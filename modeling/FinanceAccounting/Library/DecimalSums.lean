import FinanceAccounting.Library.Rounding

/-! # Sums of decimals

When the arithmetic of a context is exact.  A result of `fix` is left as it is by another
(`fixFinite_of_fixed`).  Numbers written with a fixed number of places have an exact sum as long as
the digits of the context suffice for their absolute values (`sum_eq_ok`), and so an exact
difference (`sub_eq_ok`). -/

namespace Decimal

/-- Neither an infinity nor a NaN. -/
def IsFinite : Decimal → Prop
  | .finite _ _ _ => True
  | _ => False

instance : DecidablePred IsFinite
  | .finite _ _ _ => isTrue trivial
  | .infinity _ => isFalse id
  | .nan _ _ _ => isFalse id

/-- Written with no more decimal places than these. -/
def Written (places : ℕ) : Decimal → Prop
  | .finite _ _ exp => -(places : ℤ) ≤ exp
  | _ => False

instance (places : ℕ) : DecidablePred (Written places)
  | .finite _ _ exp => inferInstanceAs (Decidable (-(places : ℤ) ≤ exp))
  | .infinity _ => isFalse id
  | .nan _ _ _ => isFalse id

/-- The exponents of a context have room for numbers of so many places. -/
structure Context.Roomy (ctx : Context) (places : ℕ) : Prop where
  tiny : ctx.eTiny ≤ -(places : ℤ)
  top : (ctx.prec : ℤ) ≤ ctx.eMax + 1

section Laws

variable {ctx : Context} {places : ℕ} {a b d : Decimal} {ds : List Decimal}

theorem Written.isFinite (h : a.Written places) : a.IsFinite := by
  cases a with
  | finite sign coeff exp => trivial
  | infinity sign => exact h
  | nan sign signaling payload => exact h

theorem toRat_nonneg (h : a.NonNegative) : 0 ≤ a.toRat := by
  cases a with
  | finite sign coeff exp =>
      rcases h with rfl | rfl
      · show (0 : ℚ) ≤ ((coeff : ℤ) : ℚ) * 10 ^ exp
        exact mul_nonneg (by exact_mod_cast Nat.zero_le coeff) (zpow_pos (by norm_num) _).le
      · simp [toRat, signed]
  | infinity sign => exact le_rfl
  | nan sign signaling payload => exact le_rfl

@[simp] theorem toRat_negate (a : Decimal) : a.negate.toRat = -a.toRat := by
  cases a with
  | finite sign coeff exp => cases sign <;> simp [negate, toRat, signed]
  | infinity sign => simp [negate, toRat]
  | nan sign signaling payload => simp [negate, toRat]

theorem Written.negate (h : a.Written places) : a.negate.Written places := by
  cases a with
  | finite sign coeff exp => exact h
  | infinity sign => exact h
  | nan sign signaling payload => exact h

theorem toRat_eq_of_numEq (h : a.numEq b = true) : a.toRat = b.toRat := by
  cases a with
  | finite =>
      cases b with
      | finite => exact of_decide_eq_true h
      | infinity => cases h
      | nan => cases h
  | infinity =>
      cases b with
      | finite => cases h
      | infinity => rfl
      | nan => cases h
  | nan => cases b <;> cases h

/-! ### Numbers of fixed places -/

theorem Written.hasPlaces (h : a.Written places) : HasPlaces places a.toRat := by
  cases a with
  | infinity sign => exact h.elim
  | nan sign signaling payload => exact h.elim
  | finite sign coeff exp =>
      obtain ⟨k, rfl⟩ : ∃ k : ℕ, exp = k - places := by
        have hexp : -(places : ℤ) ≤ exp := h
        exact ⟨(exp + places).toNat, by omega⟩
      refine ⟨signed sign coeff * 10 ^ k, ?_⟩
      show (signed sign coeff : ℚ) * 10 ^ ((k : ℤ) - places) = _
      rw [zpow_sub₀ (by norm_num), zpow_natCast, zpow_natCast]
      push_cast
      ring

/-- A number of these places is not changed by a column of so many. -/
theorem quantize_of_places {x : ℚ} (h : HasPlaces places x) : quantize places x = x := by
  have hpow : (0 : ℚ) < 10 ^ places := by positivity
  obtain ⟨k, hk⟩ := h
  have hscaled : |x| * 10 ^ places = (|k| : ℤ) := by
    rw [hk, abs_div, abs_of_pos hpow, div_mul_cancel₀ _ hpow.ne', Int.cast_abs]
  have hfloor : ⌊|x| * 10 ^ places + 1 / 2⌋ = |k| := by
    rw [hscaled, Int.floor_intCast_add]
    norm_num
  have hsign : x.num.sign * |k| = k := by
    rcases lt_trichotomy k 0 with hneg | rfl | hpos
    · have hx : x.num < 0 := Rat.num_neg.mpr (hk ▸ div_neg_of_neg_of_pos (by exact_mod_cast hneg) hpow)
      rw [Int.sign_eq_neg_one_of_neg hx, abs_of_neg hneg]
      ring
    · simp
    · have hx : 0 < x.num := Rat.num_pos.mpr (hk ▸ div_pos (by exact_mod_cast hpos) hpow)
      rw [Int.sign_eq_one_of_pos hx, abs_of_pos hpos, one_mul]
  unfold quantize
  rw [hfloor, hsign, Rat.mkRat_eq_div, hk]
  push_cast
  rfl

/-! ### Rounding twice -/

theorem le_carryDigit (ctx : Context) (c : ℕ) (e : ℤ) : e ≤ (carryDigit ctx c e).2 := by
  unfold carryDigit
  split
  · exact (lt_add_one e).le
  · exact le_rfl

/-- **A rounded number is not rounded again**, whatever its sign. -/
theorem fixFinite_of_fixed {s s' t : Bool} {c c' : ℕ} {e e' : ℤ}
    (h : fixFinite ctx s c e = .ok (.finite t c' e')) :
    fixFinite ctx s' c' e' = .ok (.finite s' c' e') := by
  have hprec := ctx.prec_pos
  unfold fixFinite at h
  split at h
  · obtain ⟨-, rfl, rfl⟩ := Decimal.finite.inj (Except.ok.inj h)
    unfold fixFinite
    rw [if_pos rfl]
    congr 2
    omega
  · rename_i hc
    simp only at h
    split at h
    · cases h
    · rename_i hover
      split at h
      · rename_i hlt
        split at h
        · cases h
        · rename_i htop
          obtain ⟨-, rfl, rfl⟩ := Decimal.finite.inj (Except.ok.inj h)
          have hdigits : numDigits c ≤ ctx.prec + (max (numDigits c + e - ctx.prec)
              ctx.eTiny - e).toNat := by omega
          have hcarry := numDigits_carryDigit (max (numDigits c + e - ctx.prec) ctx.eTiny) hdigits
          have htiny := le_carryDigit ctx (roundHalfEven c (max (numDigits c + e - ctx.prec)
            ctx.eTiny - e).toNat) (max (numDigits c + e - ctx.prec) ctx.eTiny)
          simp only [Context.eTop] at htop
          by_cases hzero : (carryDigit ctx (roundHalfEven c (max (numDigits c + e - ctx.prec)
              ctx.eTiny - e).toNat) (max (numDigits c + e - ctx.prec) ctx.eTiny)).1 = 0
          · unfold fixFinite
            rw [hzero, if_pos rfl]
            congr 2
            omega
          · exact fixFinite_of_fits hzero hcarry (by omega) (by omega)
      · rename_i hlt
        obtain ⟨-, rfl, rfl⟩ := Decimal.finite.inj (Except.ok.inj h)
        simp only [Context.eTop] at hover
        exact fixFinite_of_fits hc (by omega) (by omega) (by omega)

/-- A finite sum is a rounded number. -/
theorem fixFinite_of_add {s t : Bool} {c : ℕ} {e : ℤ} (h : add ctx a b = .ok (.finite s c e)) :
    fixFinite ctx t c e = .ok (.finite t c e) := by
  cases a with
  | finite s₁ c₁ e₁ =>
      cases b with
      | finite s₂ c₂ e₂ => exact fixFinite_of_fixed h
      | infinity s₂ => simp [add] at h
      | nan s₂ g₂ p₂ => cases g₂ <;> simp [add, add.nanResult, fix] at h
  | infinity s₁ =>
      cases b with
      | finite s₂ c₂ e₂ => simp [add] at h
      | infinity s₂ => by_cases hsign : s₁ = s₂ <;> simp [add, hsign] at h
      | nan s₂ g₂ p₂ => cases g₂ <;> simp [add, add.nanResult, fix] at h
  | nan s₁ g₁ p₁ =>
      cases b with
      | finite s₂ c₂ e₂ => cases g₁ <;> simp [add, add.nanResult, fix] at h
      | infinity s₂ => cases g₁ <;> simp [add, add.nanResult, fix] at h
      | nan s₂ g₂ p₂ => cases g₁ <;> cases g₂ <;> simp [add, add.nanResult, fix] at h

/-! ### Exact sums -/

/-- Two coefficients at their common exponent. -/
def aligned (s₁ : Bool) (c₁ : ℕ) (e₁ : ℤ) (s₂ : Bool) (c₂ : ℕ) (e₂ : ℤ) : ℤ :=
  signed s₁ c₁ * 10 ^ (e₁ - min e₁ e₂).toNat + signed s₂ c₂ * 10 ^ (e₂ - min e₁ e₂).toNat

theorem aligned_mul (s₁ : Bool) (c₁ : ℕ) (e₁ : ℤ) (s₂ : Bool) (c₂ : ℕ) (e₂ : ℤ) :
    (aligned s₁ c₁ e₁ s₂ c₂ e₂ : ℚ) * 10 ^ min e₁ e₂ =
      toRat (.finite s₁ c₁ e₁) + toRat (.finite s₂ c₂ e₂) := by
  have hshift : ∀ e : ℤ, min e₁ e₂ ≤ e →
      (10 : ℚ) ^ (e - min e₁ e₂).toNat * 10 ^ min e₁ e₂ = 10 ^ e := by
    intro e he
    have hcast : ((e - min e₁ e₂).toNat : ℤ) = e - min e₁ e₂ := Int.toNat_of_nonneg (by omega)
    rw [← zpow_natCast, hcast, ← zpow_add₀ (by norm_num)]
    congr 1
    omega
  unfold aligned toRat
  push_cast
  rw [add_mul, mul_assoc, mul_assoc, hshift e₁ (min_le_left _ _), hshift e₂ (min_le_right _ _)]

/-- The coefficient of an exact number fits when its value does. -/
theorem digits_of_value {total : ℤ} {exp : ℤ} (htotal : total ≠ 0) (hexp : -(places : ℤ) ≤ exp)
    (hlt : |(total : ℚ) * 10 ^ exp| * 10 ^ places < 10 ^ ctx.prec) :
    numDigits total.natAbs ≤ ctx.prec ∧ numDigits total.natAbs + exp ≤ ctx.prec := by
  obtain ⟨k, rfl⟩ : ∃ k : ℕ, exp = k - places := ⟨(exp + places).toNat, by omega⟩
  have hvalue : |(total : ℚ) * 10 ^ ((k : ℤ) - places)| * 10 ^ places =
      (total.natAbs * 10 ^ k : ℕ) := by
    rw [abs_mul, abs_of_pos (zpow_pos (show (0 : ℚ) < 10 by norm_num) ((k : ℤ) - places)), mul_assoc,
      ← zpow_natCast (10 : ℚ) places, ← zpow_add₀ (by norm_num), sub_add_cancel, zpow_natCast]
    push_cast
    rw [Nat.cast_natAbs, Int.cast_abs]
  rw [hvalue] at hlt
  have hnat : total.natAbs * 10 ^ k < 10 ^ ctx.prec := by exact_mod_cast hlt
  have hpos : 1 ≤ total.natAbs := Int.natAbs_pos.mpr htotal
  have hk : k < ctx.prec := by
    have hpow : 10 ^ k < 10 ^ ctx.prec := lt_of_le_of_lt (Nat.le_mul_of_pos_left _ hpos) hnat
    exact (Nat.pow_lt_pow_iff_right (by norm_num)).mp hpow
  have hdigits : numDigits total.natAbs ≤ ctx.prec - k := by
    rw [numDigits_le_iff (by omega)]
    have hsplit : 10 ^ ctx.prec = 10 ^ (ctx.prec - k) * 10 ^ k := by
      rw [← pow_add]
      congr 1
      omega
    rw [hsplit] at hnat
    exact lt_of_mul_lt_mul_right hnat (by positivity)
  omega

/-- **An exact sum**: what is written with so many places, and fits with them. -/
theorem add_eq_ok (hroom : ctx.Roomy places) (ha : a.Written places) (hb : b.Written places)
    (hlt : |a.toRat + b.toRat| * 10 ^ places < 10 ^ ctx.prec) :
    ∃ d, add ctx a b = .ok d ∧ d.Written places ∧ d.toRat = a.toRat + b.toRat := by
  cases a with
  | infinity sign => exact ha.elim
  | nan sign signaling payload => exact ha.elim
  | finite s₁ c₁ e₁ =>
      cases b with
      | infinity sign => exact hb.elim
      | nan sign signaling payload => exact hb.elim
      | finite s₂ c₂ e₂ =>
          have hexp : -(places : ℤ) ≤ min e₁ e₂ := le_min ha hb
          have hvalue := aligned_mul s₁ c₁ e₁ s₂ c₂ e₂
          rw [← hvalue] at hlt ⊢
          unfold add
          simp only
          rw [show signed s₁ c₁ * 10 ^ (e₁ - min e₁ e₂).toNat +
            signed s₂ c₂ * 10 ^ (e₂ - min e₁ e₂).toNat = aligned s₁ c₁ e₁ s₂ c₂ e₂ from rfl]
          generalize aligned s₁ c₁ e₁ s₂ c₂ e₂ = total at hlt ⊢
          by_cases hzero : total = 0
          · subst hzero
            have htiny := hroom.tiny
            have htop := hroom.top
            refine ⟨_, if_pos rfl, ?_, ?_⟩
            · have hprec := ctx.prec_pos
              show -(places : ℤ) ≤ _
              omega
            · simp [toRat, signed]
          · obtain ⟨hdigits, hadjusted⟩ := digits_of_value hzero hexp hlt
            have htiny := hroom.tiny
            have htop := hroom.top
            rw [if_neg hzero, fixFinite_of_fits (by omega) hdigits (by omega) (by omega)]
            refine ⟨_, rfl, hexp, ?_⟩
            have hsigned : signed (decide (total < 0)) total.natAbs = total := by
              unfold signed
              by_cases hneg : total < 0
              · rw [if_pos (decide_eq_true hneg)]
                omega
              · rw [if_neg (by simpa using hneg)]
                omega
            show (signed (decide (total < 0)) total.natAbs : ℚ) * 10 ^ min e₁ e₂ = _
            rw [hsigned]

theorem sub_eq_ok (hroom : ctx.Roomy places) (ha : a.Written places) (hb : b.Written places)
    (hlt : |a.toRat - b.toRat| * 10 ^ places < 10 ^ ctx.prec) :
    ∃ d, sub ctx a b = .ok d ∧ d.Written places ∧ d.toRat = a.toRat - b.toRat := by
  have hsum := add_eq_ok hroom ha hb.negate
    (by rw [toRat_negate, ← sub_eq_add_neg]; exact hlt)
  rwa [toRat_negate, ← sub_eq_add_neg] at hsum

theorem foldlM_add_eq_ok (hroom : ctx.Roomy places) :
    ∀ (ds : List Decimal) (acc : Decimal), acc.Written places → (∀ d ∈ ds, d.Written places) →
      (|acc.toRat| + (ds.map fun d => |d.toRat|).sum) * 10 ^ places < 10 ^ ctx.prec →
        ∃ d, ds.foldlM (add ctx) acc = .ok d ∧ d.Written places ∧
          d.toRat = acc.toRat + (ds.map toRat).sum := by
  intro ds
  have hpow : (0 : ℚ) < 10 ^ places := by positivity
  -- the partial sums stay below the absolute values seen so far
  induction ds with
  | nil =>
      intro acc hacc _ _
      exact ⟨acc, rfl, hacc, by simp⟩
  | cons x xs ih =>
      intro acc hacc hxs hlt
      rw [List.map_cons, List.sum_cons, ← add_assoc] at hlt
      have habs : |acc.toRat + x.toRat| ≤ |acc.toRat| + |x.toRat| := abs_add_le _ _
      have hnonneg : 0 ≤ (xs.map fun d => |d.toRat|).sum := List.sum_nonneg fun y hy => by
        obtain ⟨z, -, rfl⟩ := List.mem_map.mp hy
        exact abs_nonneg _
      obtain ⟨next, hnext, hwritten, hvalue⟩ := add_eq_ok hroom hacc (hxs x List.mem_cons_self)
        (lt_of_le_of_lt (mul_le_mul_of_nonneg_right (by linarith) hpow.le) hlt)
      obtain ⟨d, hd, hdwritten, hdvalue⟩ := ih next hwritten
        (fun y hy => hxs y (List.mem_cons_of_mem x hy)) (by
          rw [hvalue]
          exact lt_of_le_of_lt (mul_le_mul_of_nonneg_right (by linarith) hpow.le) hlt)
      refine ⟨d, ?_, hdwritten, ?_⟩
      · rw [List.foldlM_cons, hnext]
        exact hd
      · rw [hdvalue, hvalue, List.map_cons, List.sum_cons, add_assoc]

/-- **The sum of a list is exact** when the digits suffice for the sum of the absolute values. -/
theorem sum_eq_ok (hroom : ctx.Roomy places) (hds : ∀ d ∈ ds, d.Written places)
    (hlt : (ds.map fun d => |d.toRat|).sum * 10 ^ places < 10 ^ ctx.prec) :
    ∃ d, sum ctx ds = .ok d ∧ d.Written places ∧ d.toRat = (ds.map toRat).sum := by
  have hzero : toRat (.finite false 0 0) = 0 := by simp [toRat, signed]
  have hstart : Written places (.finite false 0 0) := by
    show -(places : ℤ) ≤ 0
    omega
  have hsum := foldlM_add_eq_ok hroom ds (.finite false 0 0) hstart hds
    (by rw [hzero, abs_zero, zero_add]; exact hlt)
  rwa [hzero, zero_add] at hsum

/-- Of amounts that are not negative. -/
theorem sum_eq_ok_of_nonneg (hroom : ctx.Roomy places) (hds : ∀ d ∈ ds, d.Written places)
    (hnonneg : ∀ d ∈ ds, d.NonNegative)
    (hlt : (ds.map toRat).sum * 10 ^ places < 10 ^ ctx.prec) :
    ∃ d, sum ctx ds = .ok d ∧ d.Written places ∧ d.toRat = (ds.map toRat).sum := by
  refine sum_eq_ok hroom hds ?_
  rwa [List.map_congr_left fun d hd => abs_of_nonneg (toRat_nonneg (hnonneg d hd))]

/-! ### What is not finite stays so -/

/-- A NaN among the operands leaves no number. -/
theorem not_isFinite_of_nanResult {x : Decimal} (hx : ¬x.IsFinite)
    (h : add.nanResult ctx x b = .ok d) : ¬d.IsFinite := by
  cases x with
  | finite sign coeff exp => exact absurd trivial hx
  | infinity sign =>
      cases b with
      | finite sign' coeff' exp' => obtain rfl := Except.ok.inj h; exact id
      | infinity sign' => obtain rfl := Except.ok.inj h; exact id
      | nan sign' signaling payload =>
          cases signaling with
          | true => cases h
          | false => obtain rfl := Except.ok.inj h; exact id
  | nan sign signaling payload =>
      cases signaling with
      | true => cases h
      | false =>
          cases b with
          | finite sign' coeff' exp' => obtain rfl := Except.ok.inj h; exact id
          | infinity sign' => obtain rfl := Except.ok.inj h; exact id
          | nan sign' signaling' payload' =>
              cases signaling' with
              | true => cases h
              | false => obtain rfl := Except.ok.inj h; exact id

/-- A finite sum has finite operands. -/
theorem isFinite_of_add (h : add ctx a b = .ok d) (hd : d.IsFinite) :
    a.IsFinite ∧ b.IsFinite := by
  cases a with
  | finite s₁ c₁ e₁ =>
      cases b with
      | finite s₂ c₂ e₂ => exact ⟨trivial, trivial⟩
      | infinity s₂ =>
          obtain rfl := Except.ok.inj h
          exact hd.elim
      | nan s₂ g₂ p₂ => exact absurd hd (not_isFinite_of_nanResult id h)
  | infinity s₁ =>
      cases b with
      | finite s₂ c₂ e₂ =>
          obtain rfl := Except.ok.inj h
          exact hd.elim
      | infinity s₂ =>
          simp only [add] at h
          split_ifs at h
          obtain rfl := Except.ok.inj h
          exact hd.elim
      | nan s₂ g₂ p₂ => exact absurd hd (not_isFinite_of_nanResult id h)
  | nan s₁ g₁ p₁ => exact absurd hd (not_isFinite_of_nanResult id h)

theorem isFinite_negate : b.negate.IsFinite ↔ b.IsFinite := by
  cases b with
  | finite sign coeff exp => exact Iff.rfl
  | infinity sign => exact Iff.rfl
  | nan sign signaling payload => exact Iff.rfl

theorem isFinite_of_sub (h : sub ctx a b = .ok d) (hd : d.IsFinite) :
    a.IsFinite ∧ b.IsFinite := by
  obtain ⟨ha, hb⟩ := isFinite_of_add h hd
  exact ⟨ha, isFinite_negate.1 hb⟩

/-- A finite sum of a list has finite terms only. -/
theorem isFinite_of_foldlM_add {acc : Decimal} (h : ds.foldlM (add ctx) acc = .ok d)
    (hd : d.IsFinite) : acc.IsFinite ∧ ∀ x ∈ ds, x.IsFinite := by
  induction ds generalizing acc with
  | nil =>
      obtain rfl := Except.ok.inj h
      exact ⟨hd, fun x hx => absurd hx List.not_mem_nil⟩
  | cons x ds ih =>
      rw [List.foldlM_cons] at h
      cases hadd : add ctx acc x with
      | error e =>
          rw [hadd] at h
          cases h
      | ok next =>
          rw [hadd] at h
          obtain ⟨hnext, hrest⟩ := ih h
          obtain ⟨hacc, hx⟩ := isFinite_of_add hadd hnext
          exact ⟨hacc, List.forall_mem_cons.2 ⟨hx, hrest⟩⟩

end Laws

end Decimal
