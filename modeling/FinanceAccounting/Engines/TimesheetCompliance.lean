import FinanceAccounting.Kernel.Values
import FinanceAccounting.Library.Dicts
import FinanceAccounting.Library.Rounding

/-! # Timesheet compliance

The rules for recorded time, each a function of the entries it is given: how late an entry may be
submitted (D1), what the hours of a period add up to (D3), which timed entries overlap (D4), and how
many hours a date may carry. -/

namespace FinanceAccounting.Timesheets

inductive ChargeType where
  | direct
  | indirect
  | leave
  | uncompensated
deriving DecidableEq, Repr

/-- `TimesheetEntry`, with what `__post_init__` checks. -/
structure TimesheetEntry where
  entryId : UUID
  workDate : Date
  chargeCode : String
  chargeType : ChargeType
  hours : ℚ
  /-- In microseconds of the day. -/
  startTime : Option ℕ := none
  endTime : Option ℕ := none
  hours_nonneg : 0 ≤ hours
  hours_le : hours ≤ 24
  ends_later : ∀ start ∈ startTime, ∀ stop ∈ endTime, start < stop
deriving DecidableEq

/-! ### Daily recording -/

/-- Calendar days from the work to the submission. -/
def daysElapsed (workDate submissionDate : Date) : ℤ :=
  (submissionDate.toordinal : ℤ) - workDate.toordinal

/-- The message of a violation. -/
def validateDailyRecording (workDate submissionDate : Date) (maxRetroactiveDays : ℤ) :
    Option String :=
  let str (d : Date) := String.ofList d.isoformat
  if submissionDate.toordinal < workDate.toordinal then
    some ("Submission date (" ++ str submissionDate ++ ") cannot precede work date (" ++
      str workDate ++ ")")
  else if maxRetroactiveDays < daysElapsed workDate submissionDate then
    some ("Time entry for " ++ str workDate ++ " submitted " ++
      toString (daysElapsed workDate submissionDate) ++ " days late (maximum allowed: " ++
        toString maxRetroactiveDays ++ " days). FAR 31.201-2(d) requires timely recording.")
  else none

def validateAllEntriesDailyRecording (entries : List TimesheetEntry) (submissionDate : Date)
    (maxRetroactiveDays : ℤ) : List (UUID × String) :=
  entries.filterMap fun e =>
    (validateDailyRecording e.workDate submissionDate maxRetroactiveDays).map (e.entryId, ·)

/-- The entry is submitted in time. -/
def InTime (submissionDate : Date) (maxRetroactiveDays : ℤ) (e : TimesheetEntry) : Prop :=
  0 ≤ daysElapsed e.workDate submissionDate ∧
    daysElapsed e.workDate submissionDate ≤ maxRetroactiveDays

theorem validateDailyRecording_eq_none {workDate submissionDate : Date} {maxRetroactiveDays : ℤ} :
    validateDailyRecording workDate submissionDate maxRetroactiveDays = none ↔
      0 ≤ daysElapsed workDate submissionDate ∧
        daysElapsed workDate submissionDate ≤ maxRetroactiveDays := by
  unfold validateDailyRecording
  dsimp only
  split
  · rename_i hbefore
    refine iff_of_false nofun ?_
    unfold daysElapsed
    omega
  · rename_i hafter
    split
    · rename_i hlate
      exact iff_of_false nofun fun h => absurd h.2 (not_le.mpr hlate)
    · rename_i hintime
      refine iff_of_true rfl ⟨?_, not_lt.mp hintime⟩
      unfold daysElapsed
      omega

/-- **Daily recording**: without a violation every entry is in time. -/
theorem validateAllEntriesDailyRecording_eq_nil {entries : List TimesheetEntry}
    {submissionDate : Date} {maxRetroactiveDays : ℤ} :
    validateAllEntriesDailyRecording entries submissionDate maxRetroactiveDays = [] ↔
      ∀ e ∈ entries, InTime submissionDate maxRetroactiveDays e := by
  unfold validateAllEntriesDailyRecording
  rw [List.filterMap_eq_nil_iff]
  refine forall₂_congr fun e _ => ?_
  rw [Option.map_eq_none_iff]
  exact validateDailyRecording_eq_none

/-! ### Total time -/

structure TotalTimeRecord where
  employeeId : UUID
  payPeriodId : UUID
  expectedHours : ℚ
  directHours : ℚ
  indirectHours : ℚ
  leaveHours : ℚ
  uncompensatedHours : ℚ
  totalRecordedHours : ℚ
  variance : ℚ
  tolerance : ℚ
  isCompliant : Bool

section Context

variable (ctx : Decimal.Context)

def computeTotalTimeRecord (employeeId payPeriodId : UUID) (entries : List TimesheetEntry)
    (expectedHours tolerance : ℚ) : TotalTimeRecord :=
  let charged (t : ChargeType) := ctx.total ((entries.filter (·.chargeType = t)).map (·.hours))
  let total := ctx.round (ctx.round (ctx.round (charged .direct + charged .indirect) +
    charged .leave) + charged .uncompensated)
  let variance := ctx.round (total - expectedHours)
  { employeeId := employeeId
    payPeriodId := payPeriodId
    expectedHours := expectedHours
    directHours := charged .direct
    indirectHours := charged .indirect
    leaveHours := charged .leave
    uncompensatedHours := charged .uncompensated
    totalRecordedHours := total
    variance := variance
    tolerance := tolerance
    isCompliant := |variance| ≤ tolerance }

/-! ### Concurrent work -/

/-- `_times_overlap`. -/
def timesOverlap (startA endA startB endB : ℕ) : Bool := startA < endB && startB < endA

/-- Both times are given. -/
def TimesheetEntry.timed (e : TimesheetEntry) : Bool := e.startTime.isSome && e.endTime.isSome

/-- Two timed entries on different charge codes overlap. -/
def clashes (a b : TimesheetEntry) : Bool :=
  match a.startTime, a.endTime, b.startTime, b.endTime with
  | some startA, some endA, some startB, some endB =>
      a.chargeCode ≠ b.chargeCode && timesOverlap startA endA startB endB
  | _, _, _, _ => false

/-- The pairs of entries that clash, an earlier one with a later one. -/
def overlapPairs : List TimesheetEntry → List (UUID × UUID)
  | [] => []
  | a :: rest => ((rest.filter (clashes a)).map fun b => (a.entryId, b.entryId)) ++ overlapPairs rest

structure ConcurrentWorkCheck where
  overlappingEntries : List (UUID × UUID)
  totalHours : ℚ
  isValid : Bool

def detectConcurrentOverlaps (entries : List TimesheetEntry) : ConcurrentWorkCheck :=
  let byDate := entries.foldl (Dicts.collect (·.workDate) (fun es e => es ++ [e]) []) []
  let overlaps := byDate.flatMap fun day => overlapPairs (day.2.filter (·.timed))
  { overlappingEntries := overlaps
    totalHours := ctx.total (entries.map (·.hours))
    isValid := overlaps.length = 0 }

/-- Two timed entries of one date on different charge codes overlap. -/
def Concurrent (a b : TimesheetEntry) : Prop := a.workDate = b.workDate ∧ clashes a b = true

theorem timed_of_clashes {a b : TimesheetEntry} (h : clashes a b = true) :
    a.timed = true ∧ b.timed = true := by
  unfold clashes at h
  split at h
  · rename_i ha ha' hb hb'
    simp [TimesheetEntry.timed, ha, ha', hb, hb']
  · cases h

theorem overlapPairs_eq_nil {entries : List TimesheetEntry} :
    overlapPairs entries = [] ↔ entries.Pairwise fun a b => ¬clashes a b = true := by
  induction entries with
  | nil => exact iff_of_true rfl .nil
  | cons a rest ih =>
    rw [overlapPairs, List.append_eq_nil_iff, List.map_eq_nil_iff, List.filter_eq_nil_iff,
      List.pairwise_cons, ih]

theorem foldl_append_singleton {α : Type*} (xs : List α) :
    ∀ acc : List α, xs.foldl (fun acc x => acc ++ [x]) acc = acc ++ xs := by
  induction xs with
  | nil => simp
  | cons x xs ih =>
    intro acc
    rw [List.foldl_cons, ih]
    simp

/-- The entries of a date, for each date that has any. -/
theorem mem_byDate {entries es : List TimesheetEntry} {d : Date} :
    (d, es) ∈ entries.foldl (Dicts.collect (·.workDate) (fun es e => es ++ [e]) []) [] ↔
      d ∈ entries.map (·.workDate) ∧ es = entries.filter (·.workDate = d) := by
  rw [Dicts.mem_collect, foldl_append_singleton, List.nil_append]

/-- **Concurrent work**: the check is valid when no two entries are concurrent. -/
theorem detectConcurrentOverlaps_isValid {entries : List TimesheetEntry} :
    (detectConcurrentOverlaps ctx entries).isValid = true ↔
      entries.Pairwise fun a b => ¬Concurrent a b := by
  have hvalid : (detectConcurrentOverlaps ctx entries).isValid = true ↔ ∀ d ∈ entries.map (·.workDate),
      ((entries.filter (·.workDate = d)).filter (·.timed)).Pairwise fun a b => ¬clashes a b = true := by
    unfold detectConcurrentOverlaps
    rw [decide_eq_true_iff, List.length_eq_zero_iff, List.flatMap_eq_nil_iff]
    constructor
    · intro h d hd
      exact overlapPairs_eq_nil.mp (h (d, _) (mem_byDate.mpr ⟨hd, rfl⟩))
    · rintro h ⟨d, es⟩ hday
      obtain ⟨hd, rfl⟩ := mem_byDate.mp hday
      exact overlapPairs_eq_nil.mpr (h d hd)
  rw [hvalid]
  simp only [List.pairwise_filter]
  simp only [List.pairwise_iff_forall_sublist]
  constructor
  · rintro h a b hab ⟨hdate, hclash⟩
    obtain ⟨ha, hb⟩ := timed_of_clashes hclash
    have hmem : a ∈ entries := hab.subset List.mem_cons_self
    exact h a.workDate (List.mem_map_of_mem hmem) hab (decide_eq_true rfl)
      (decide_eq_true hdate.symm) ha hb hclash
  · intro h d _ a b hab ha hb _ _ hclash
    exact h hab ⟨(of_decide_eq_true ha).trans (of_decide_eq_true hb).symm, hclash⟩

/-! ### Daily hours -/

/-- Whether no date carries more, and the dates that do. -/
def validateNoExcessiveDailyHours (entries : List TimesheetEntry) (maxDailyHours : ℚ) :
    Bool × List (Date × ℚ) :=
  let byDate := entries.foldl
    (Dicts.collect (·.workDate) (fun total e => ctx.round (total + e.hours)) 0) []
  let violations := byDate.filter (maxDailyHours < ·.2)
  (violations.length = 0, violations)

/-- The hours of a date. -/
def hoursOn (d : Date) (entries : List TimesheetEntry) : ℚ :=
  ((entries.filter (·.workDate = d)).map (·.hours)).sum

/-- **Daily hours** of nine places: the check passes when no date carries more than 24. -/
theorem validateNoExcessiveDailyHours_iff (hprec : 11 ≤ ctx.prec) {entries : List TimesheetEntry}
    (hplaces : ∀ e ∈ entries, Decimal.HasPlaces 9 e.hours) :
    (validateNoExcessiveDailyHours ctx entries 24).1 = true ↔ ∀ d, hoursOn d entries ≤ 24 := by
  have hdigits : ((24 : ℚ) + 24) * 10 ^ 9 < 10 ^ ctx.prec := by
    calc ((24 : ℚ) + 24) * 10 ^ 9 < 10 ^ 11 := by norm_num
      _ ≤ 10 ^ ctx.prec := pow_le_pow_right₀ (by norm_num) hprec
  have htotal : ∀ d, (entries.filter (·.workDate = d)).foldl
      (fun total e => ctx.round (total + e.hours)) 0 ≤ 24 ↔ hoursOn d entries ≤ 24 := by
    intro d
    have hsum := @Decimal.Context.total_le_iff 9 ((entries.filter (·.workDate = d)).map (·.hours)) ctx _
      (List.forall_mem_map.mpr fun e he => hplaces e (List.mem_of_mem_filter he))
      (List.forall_mem_map.mpr fun e _ => e.hours_nonneg)
      (List.forall_mem_map.mpr fun e _ => e.hours_le) hdigits
    rwa [Decimal.Context.total, List.foldl_map] at hsum
  unfold validateNoExcessiveDailyHours
  rw [decide_eq_true_iff, List.length_eq_zero_iff, List.filter_eq_nil_iff]
  constructor
  · intro h d
    by_cases hd : d ∈ entries.map (·.workDate)
    · refine (htotal d).mp (not_lt.mp fun hlt => ?_)
      exact h (d, _) (Dicts.mem_collect.mpr ⟨hd, rfl⟩) (decide_eq_true hlt)
    · have hnone : entries.filter (·.workDate = d) = [] := by
        refine List.filter_eq_nil_iff.mpr fun e he hdate => hd ?_
        exact List.mem_map.mpr ⟨e, he, of_decide_eq_true hdate⟩
      rw [hoursOn, hnone]
      norm_num
  · rintro h ⟨d, total⟩ hday hlt
    obtain ⟨-, rfl⟩ := Dicts.mem_collect.mp hday
    exact not_lt.mpr ((htotal d).mpr (h d)) (of_decide_eq_true hlt)

end Context

end FinanceAccounting.Timesheets
