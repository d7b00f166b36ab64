import Mathlib.Order.Basic
import FinanceAccounting.Library.Numeral

/-! # Identifiers and dates

The standard-library values the kernel stores and hashes, with the texts it prints for them:
UUIDs in the 8-4-4-4-12 form, and dates and datetimes in ISO format.  Validity is part of the
types, so every value has fields of fixed width and its text determines it
(`UUID.toChars_injective`, `Date.isoformat_injective`, `Datetime.isoformat_injective`). -/

namespace FinanceAccounting

open Numeral

/-! ### Texts -/

/-- A character that `str.strip` removes. -/
def isSpace (c : Char) : Bool :=
  let n := c.toNat
  (9 ≤ n && n ≤ 13) || (28 ≤ n && n ≤ 32) || n = 0x85 || n = 0xa0 || n = 0x1680 ||
    (0x2000 ≤ n && n ≤ 0x200a) || n = 0x2028 || n = 0x2029 || n = 0x202f || n = 0x205f ||
    n = 0x3000

/-- `str.strip`. -/
def strip (s : String) : String :=
  String.ofList (((s.toList.dropWhile isSpace).reverse.dropWhile isSpace).reverse)

/-! ### UUIDs -/

/-- A 128-bit identifier. -/
structure UUID where
  int : BitVec 128
deriving DecidableEq, Repr

namespace UUID

/-- The 32 hexadecimal digits. -/
def hex (u : UUID) : List Char := padded 16 32 u.int.toNat

/-- The digits in groups of 8, 4, 4, 4 and 12. -/
def toChars (u : UUID) : List Char :=
  u.hex.take 8 ++ '-' :: ((u.hex.drop 8).take 4 ++ '-' :: ((u.hex.drop 12).take 4 ++
    '-' :: ((u.hex.drop 16).take 4 ++ '-' :: u.hex.drop 20)))

/-- `str(uuid)`. -/
def str (u : UUID) : String := String.ofList u.toChars

theorem length_toChars (u : UUID) : u.toChars.length = 36 := by
  simp [toChars, hex]

theorem toChars_injective {u v : UUID} (h : u.toChars = v.toChars) : u = v := by
  have hu : u.hex.length = 32 := by simp [hex]
  have hv : v.hex.length = 32 := by simp [hex]
  unfold toChars at h
  obtain ⟨h₁, h⟩ := List.append_inj h (by simp [hu, hv])
  obtain ⟨h₂, h⟩ := List.append_inj (List.cons.inj h).2 (by simp [hu, hv])
  obtain ⟨h₃, h⟩ := List.append_inj (List.cons.inj h).2 (by simp [hu, hv])
  obtain ⟨h₄, h⟩ := List.append_inj (List.cons.inj h).2 (by simp [hu, hv])
  have h₅ := (List.cons.inj h).2
  have hcut : ∀ l : List Char, l = l.take 8 ++ ((l.drop 8).take 4 ++ ((l.drop 12).take 4 ++
      ((l.drop 16).take 4 ++ l.drop 20))) := by
    intro l
    have key : ∀ i k, (l.drop i).take k ++ l.drop (i + k) = l.drop i := by
      intro i k
      rw [← List.drop_drop, List.take_append_drop]
    rw [key 16 4, key 12 4, key 8 4, List.take_append_drop]
  have hhex : u.hex = v.hex := by
    rw [hcut u.hex, hcut v.hex, h₁, h₂, h₃, h₄, h₅]
  have hlt : ∀ w : UUID, w.int.toNat < 16 ^ 32 := fun w => w.int.isLt
  have hint := padded_injective (by decide) (by decide) (hlt u) (hlt v) hhex
  cases u
  cases v
  rw [UUID.mk.injEq]
  exact BitVec.eq_of_toNat_eq hint

theorem str_injective {u v : UUID} (h : u.str = v.str) : u = v :=
  toChars_injective (String.ofList_injective h)

end UUID

/-! ### Dates -/

def isLeap (year : ℕ) : Bool := year % 4 = 0 && (year % 100 ≠ 0 || year % 400 = 0)

def daysInMonth (year month : ℕ) : ℕ :=
  if month = 2 then if isLeap year then 29 else 28
  else if month = 4 ∨ month = 6 ∨ month = 9 ∨ month = 11 then 30 else 31

theorem daysInMonth_le (year month : ℕ) : daysInMonth year month ≤ 31 := by
  unfold daysInMonth
  split_ifs <;> decide

/-- A day of the proleptic Gregorian calendar. -/
structure Date where
  year : ℕ
  month : ℕ
  day : ℕ
  year_pos : 1 ≤ year
  year_le : year ≤ 9999
  month_pos : 1 ≤ month
  month_le : month ≤ 12
  day_pos : 1 ≤ day
  day_le : day ≤ daysInMonth year month
deriving DecidableEq, Repr

namespace Date

/-- `YYYY-MM-DD`. -/
def isoformat (d : Date) : List Char :=
  padded 10 4 d.year ++ '-' :: (padded 10 2 d.month ++ '-' :: padded 10 2 d.day)

theorem day_lt (d : Date) : d.day < 10 ^ 2 := by
  have := d.day_le
  have := daysInMonth_le d.year d.month
  omega

/-- Read a two-digit field and the character after it. -/
theorem field_append_inj {w m n : ℕ} {c : Char} {s t : List Char} (hm : m < 10 ^ w)
    (hn : n < 10 ^ w) (h : padded 10 w m ++ c :: s = padded 10 w n ++ c :: t) :
    m = n ∧ s = t := by
  obtain ⟨hmn, hst⟩ := padded_append_inj (by decide) (by decide) hm hn h
  exact ⟨hmn, (List.cons.inj hst).2⟩

theorem isoformat_append_inj {d e : Date} {s t : List Char}
    (h : d.isoformat ++ s = e.isoformat ++ t) : d = e ∧ s = t := by
  simp only [isoformat, List.append_assoc, List.cons_append] at h
  have hy : ∀ d : Date, d.year < 10 ^ 4 := fun d => Nat.lt_succ_of_le d.year_le
  have hm : ∀ d : Date, d.month < 10 ^ 2 := fun d => d.month_le.trans_lt (by decide)
  obtain ⟨h₁, h⟩ := field_append_inj (hy d) (hy e) h
  obtain ⟨h₂, h⟩ := field_append_inj (hm d) (hm e) h
  obtain ⟨h₃, rfl⟩ := padded_append_inj (by decide) (by decide) d.day_lt e.day_lt h
  cases d
  cases e
  simp only at h₁ h₂ h₃
  subst h₁ h₂ h₃
  exact ⟨rfl, rfl⟩

theorem isoformat_injective {d e : Date} (h : d.isoformat = e.isoformat) : d = e :=
  (isoformat_append_inj (s := []) (t := []) (by rw [h])).1

/-- `str(date)`. -/
def str (d : Date) : String := String.ofList d.isoformat

/-- Year, month and day as one number that orders the dates. -/
def key (d : Date) : ℕ := d.year * 10 ^ 4 + d.month * 10 ^ 2 + d.day

theorem key_injective : Function.Injective key := by
  intro d e h
  have hdm := d.month_le
  have hem := e.month_le
  have hdd := d.day_lt
  have hed := e.day_lt
  unfold key at h
  cases d
  cases e
  simp only [Date.mk.injEq] at *
  omega

instance : LinearOrder Date := LinearOrder.lift' key key_injective

/-- The calendar has this day. -/
abbrev IsDay (year month day : ℕ) : Prop :=
  (1 ≤ year ∧ year ≤ 9999) ∧ (1 ≤ month ∧ month ≤ 12) ∧ 1 ≤ day ∧ day ≤ daysInMonth year month

/-- `date(year, month, day)`. -/
def of (year month day : ℕ) (h : IsDay year month day) : Date where
  year := year
  month := month
  day := day
  year_pos := h.1.1
  year_le := h.1.2
  month_pos := h.2.1.1
  month_le := h.2.1.2
  day_pos := h.2.2.1
  day_le := h.2.2.2

/-- Days from 1 January of year 1, which is day 1. -/
def toordinal (d : Date) : ℕ :=
  let y := d.year - 1
  y * 365 + y / 4 - y / 100 + y / 400 +
    ((List.range (d.month - 1)).map fun m => daysInMonth d.year (m + 1)).sum + d.day

end Date

/-! ### Datetimes -/

/-- Microseconds of a day. -/
def microsPerDay : ℕ := 86400 * 10 ^ 6

/-- The distance of a time zone from UTC, strictly less than a day. -/
structure UtcOffset where
  micros : ℤ
  lt_day : micros.natAbs < microsPerDay
deriving DecidableEq, Repr

/-- A time of day on a date; without an offset it is naive. -/
structure Datetime where
  date : Date
  hour : ℕ
  minute : ℕ
  second : ℕ
  microsecond : ℕ
  utcoffset : Option UtcOffset
  hour_lt : hour < 24
  minute_lt : minute < 60
  second_lt : second < 60
  microsecond_lt : microsecond < 10 ^ 6
deriving DecidableEq, Repr

/-- Fractions of a second, when there are any. -/
def microChars (us : ℕ) : List Char := if us = 0 then [] else '.' :: padded 10 6 us

/-- `+HH:MM[:SS[.ffffff]]`, and nothing for a naive value. -/
def offsetChars : Option UtcOffset → List Char
  | none => []
  | some o =>
      let m := o.micros.natAbs
      let ss := m / 10 ^ 6 % 60
      let us := m % 10 ^ 6
      (if o.micros < 0 then '-' else '+') ::
        (padded 10 2 (m / (3600 * 10 ^ 6)) ++ ':' :: (padded 10 2 (m / (60 * 10 ^ 6) % 60) ++
          if ss = 0 ∧ us = 0 then [] else ':' :: (padded 10 2 ss ++ microChars us)))

theorem microChars_append_inj {a b : ℕ} {s t : List Char} (ha : a < 10 ^ 6) (hb : b < 10 ^ 6)
    (hs : s.head? ≠ some '.') (ht : t.head? ≠ some '.')
    (h : microChars a ++ s = microChars b ++ t) : a = b ∧ s = t := by
  unfold microChars at h
  by_cases ha₀ : a = 0 <;> by_cases hb₀ : b = 0 <;>
    simp only [ha₀, hb₀, if_true, if_false, List.nil_append, List.cons_append] at h
  · exact ⟨by omega, h⟩
  · exact absurd (by rw [h]; rfl) hs
  · exact absurd (by rw [← h]; rfl) ht
  · exact padded_append_inj (by decide) (by decide) ha hb (List.cons.inj h).2

theorem microChars_injective {a b : ℕ} (ha : a < 10 ^ 6) (hb : b < 10 ^ 6)
    (h : microChars a = microChars b) : a = b :=
  (microChars_append_inj (s := []) (t := []) ha hb (by simp) (by simp) (by rw [h])).1

theorem seconds_of_offset {s₁ s₂ u₁ u₂ : ℕ} (hs₁ : s₁ < 60) (hs₂ : s₂ < 60) (hu₁ : u₁ < 10 ^ 6)
    (hu₂ : u₂ < 10 ^ 6)
    (h : (if s₁ = 0 ∧ u₁ = 0 then [] else ':' :: (padded 10 2 s₁ ++ microChars u₁)) =
      if s₂ = 0 ∧ u₂ = 0 then [] else ':' :: (padded 10 2 s₂ ++ microChars u₂)) :
    s₁ = s₂ ∧ u₁ = u₂ := by
  by_cases h₁ : s₁ = 0 ∧ u₁ = 0 <;> by_cases h₂ : s₂ = 0 ∧ u₂ = 0 <;>
    simp only [h₁, h₂, and_self, if_true, if_false] at h
  · omega
  · cases h
  · cases h
  · obtain ⟨hs, hu⟩ := padded_append_inj (by decide) (by decide) (by omega : s₁ < 10 ^ 2)
      (by omega : s₂ < 10 ^ 2) (List.cons.inj h).2
    exact ⟨hs, microChars_injective hu₁ hu₂ hu⟩

theorem offsetChars_injective {a b : Option UtcOffset} (h : offsetChars a = offsetChars b) :
    a = b := by
  cases a with
  | none =>
      cases b with
      | none => rfl
      | some o => cases h
  | some o =>
      cases b with
      | none => cases h
      | some p =>
          have ho := o.lt_day
          have hp := p.lt_day
          simp only [microsPerDay] at ho hp
          simp only [offsetChars] at h
          obtain ⟨hsign, h⟩ := List.cons.inj h
          obtain ⟨h₁, h⟩ := Date.field_append_inj (by omega) (by omega) h
          obtain ⟨h₂, h⟩ := padded_append_inj (by decide) (by decide) (by omega) (by omega) h
          obtain ⟨h₃, h₄⟩ :=
            seconds_of_offset (by omega) (by omega) (by omega) (by omega) h
          have habs : o.micros.natAbs = p.micros.natAbs := by omega
          have hmicros : o.micros = p.micros := by
            by_cases ho₀ : o.micros < 0 <;> by_cases hp₀ : p.micros < 0
            · omega
            · simp [ho₀, hp₀] at hsign
            · simp [ho₀, hp₀] at hsign
            · omega
          cases o
          cases p
          simp only at hmicros
          subst hmicros
          rfl

theorem head_offsetChars (o : Option UtcOffset) : (offsetChars o).head? ≠ some '.' := by
  cases o with
  | none => simp [offsetChars]
  | some o =>
      by_cases h : o.micros < 0 <;> simp [offsetChars, h]

namespace Datetime

/-- `YYYY-MM-DDTHH:MM:SS[.ffffff][+HH:MM[:SS[.ffffff]]]`. -/
def isoformat (d : Datetime) : List Char :=
  d.date.isoformat ++ 'T' :: (padded 10 2 d.hour ++ ':' :: (padded 10 2 d.minute ++
    ':' :: (padded 10 2 d.second ++ (microChars d.microsecond ++ offsetChars d.utcoffset))))

/-- Microseconds from the start of year 1 as the clock on the wall shows them. -/
def wall (d : Datetime) : ℤ :=
  d.date.toordinal * microsPerDay + ((d.hour * 60 + d.minute) * 60 + d.second) * 10 ^ 6 +
    d.microsecond

/-- The same in UTC; a naive value counts as UTC. -/
def instant (d : Datetime) : ℤ := d.wall - (d.utcoffset.map (·.micros)).getD 0

theorem isoformat_injective {d e : Datetime} (h : d.isoformat = e.isoformat) : d = e := by
  unfold isoformat at h
  have hd := d.minute_lt
  have he := e.minute_lt
  have hd' := d.second_lt
  have he' := e.second_lt
  obtain ⟨h₁, h⟩ := Date.isoformat_append_inj h
  obtain ⟨h₂, h⟩ := Date.field_append_inj (d.hour_lt.trans (by decide))
    (e.hour_lt.trans (by decide)) (List.cons.inj h).2
  obtain ⟨h₃, h⟩ := Date.field_append_inj (by omega) (by omega) h
  obtain ⟨h₄, h⟩ := padded_append_inj (by decide) (by decide) (by omega) (by omega) h
  obtain ⟨h₅, h⟩ := microChars_append_inj d.microsecond_lt e.microsecond_lt
    (head_offsetChars _) (head_offsetChars _) h
  have h₆ := offsetChars_injective h
  cases d
  cases e
  simp only at h₁ h₂ h₃ h₄ h₅ h₆
  subst h₁ h₂ h₃ h₄ h₅ h₆
  rfl

end Datetime

def utc : UtcOffset := ⟨0, by decide⟩

/-- Noon of one day, in UTC. -/
def sampleTime : Datetime where
  date := ⟨2025, 1, 31, by decide, by decide, by decide, by decide, by decide, by decide⟩
  hour := 12
  minute := 0
  second := 0
  microsecond := 0
  utcoffset := some ⟨0, by decide⟩
  hour_lt := by decide
  minute_lt := by decide
  second_lt := by decide
  microsecond_lt := by decide

end FinanceAccounting
