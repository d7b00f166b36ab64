import FinanceAccounting.Library.Rounding
import FinanceAccounting.Database.JournalTriggers
import FinanceAccounting.Kernel.PostingStrategy

/-! # The guards of rounding lines

Two row triggers on `journal_lines` limit rounding lines as the journal writer does: an entry has
one of them at most, and its amount is at most a cent for every other line.  The trigger counts
the lines that are already there, the writer counts all lines of the entry.

`rounding_limits_agree_iff` compares the layers: the writer and the triggers decide alike if and
only if the amount of the only rounding line keeps both limits or neither.  What a posting
strategy proposes is accepted by both, because there the rounding line comes last. -/

namespace FinanceAccounting.RoundingTriggers

open JournalTriggers (JournalLine Numeric fits)
open JournalWriter (validateRoundingInvariants)
open PostingStrategy (Environment Proposed ProposedLine ReferenceData Strategy propose)

/-! ### The triggers -/

inductive TriggerOp where
  | insert
  | update

def countLines (rows : List JournalLine) (journalEntryId : String) (isRounding : Bool) : ℕ :=
  rows.countP fun row => row.journalEntryId = journalEntryId && row.isRounding = isRounding

/-- A trigger that lets the statement pass returns `true`. -/
def enforceSingleRoundingLine (op : TriggerOp) (rows : List JournalLine) (new : JournalLine) :
    Bool :=
  if new.isRounding = false then true
  else
    let roundingCount :=
      match op with
      | .insert => countLines rows new.journalEntryId true
      | .update => countLines (rows.filter (·.id ≠ new.id)) new.journalEntryId true
    if 1 ≤ roundingCount then false else true

def maxAllowedRounding (nonRoundingLineCount : ℕ) : ℚ :=
  if nonRoundingLineCount = 0 then 1 / 100 else nonRoundingLineCount / 100

/-- `NaN` is above every number. -/
def above (amount : Numeric) (bound : ℚ) : Bool :=
  match amount with
  | none => true
  | some x => bound < x

def enforceRoundingThreshold (rows : List JournalLine) (new : JournalLine) : Bool :=
  if new.isRounding = false then true
  else if above new.amount (maxAllowedRounding (countLines rows new.journalEntryId false)) then
    false
  else true

/-- An insert, with the triggers in the order of their names. -/
def insertRow (rows : List JournalLine) (new : JournalLine) : Option (List JournalLine) :=
  if !enforceRoundingThreshold rows new then none
  else if !enforceSingleRoundingLine .insert rows new then none
  else some (rows ++ [new])

/-- The inserts of an entry, one by one. -/
def insertRows (rows : List JournalLine) (new : List JournalLine) : Option (List JournalLine) :=
  new.foldlM insertRow rows

/-! ### Rows of an entry -/

/-- The value of an amount in a column of type `NUMERIC(38, 9)`; one that does not fit raises. -/
def numeric (amount : Decimal) : Option Numeric :=
  match amount with
  | .finite sign coeff exp =>
      let x := Decimal.quantize 9 (Decimal.finite sign coeff exp).toRat
      if fits x then some (some x) else none
  | .infinity _ => none
  | .nan _ _ _ => some none

/-- The row is one that the writer adds for a line. -/
structure RowFor (entryId : UUID) (line : ResolvedIntentLine) (row : JournalLine) : Prop where
  journalEntryId : row.journalEntryId = entryId.str
  accountId : row.accountId = line.accountId.str
  amount : numeric line.amount = some row.amount
  currency : row.currency = line.currency
  isRounding : row.isRounding = line.isRounding
  lineMemo : row.lineMemo = line.memo
  lineSeq : row.lineSeq = line.lineSeq

/-- The line that the writer gets for a proposed line, with a role. -/
def toResolved (accountRole : ProposedLine → String) (line : ProposedLine) : ResolvedIntentLine where
  accountId := line.accountId
  accountCode := line.accountCode
  accountRole := accountRole line
  side := line.side
  amount := line.amount
  currency := line.currency
  dimensions := line.dimensions
  memo := line.memo
  isRounding := line.isRounding
  lineSeq := line.lineSeq

/-! ### Limits -/

/-- A cent for every line, and at least one. -/
def limit (n : ℕ) : ℚ := (max 1 n : ℕ) / 100

/-- The amount of the only rounding line keeps both limits or neither: that of all other lines,
and, to nine places, that of the lines before it. -/
def LimitsAgree (lines : List ResolvedIntentLine) : Prop :=
  ∀ pre line post, lines = pre ++ line :: post → line.isRounding = true →
    (∀ other ∈ pre ++ post, other.isRounding = false) →
      (line.amount.toRat ≤ limit (pre ++ post).length ↔
        Decimal.quantize 9 line.amount.toRat ≤ limit pre.length)

section Laws

variable {entryId : UUID} {line : ResolvedIntentLine} {row : JournalLine}
variable {lines pre post : List ResolvedIntentLine} {table rows : List JournalLine}

theorem maxAllowedRounding_eq (n : ℕ) : maxAllowedRounding n = limit n := by
  unfold maxAllowedRounding limit
  split
  · rename_i hzero
    rw [hzero]
    norm_num
  · rename_i hzero
    rw [max_eq_right (Nat.one_le_iff_ne_zero.mpr hzero)]

theorem maxAllowed_toRat (n : ℕ) : (PostingStrategy.maxAllowed n).toRat = limit n := by
  unfold PostingStrategy.maxAllowed limit Decimal.toRat
  simp only [Decimal.signed]
  norm_num
  ring

/-- Rounding to nine places does not lift an amount over a limit. -/
theorem quantize_le_limit {x : ℚ} {n : ℕ} (h : x ≤ limit n) : Decimal.quantize 9 x ≤ limit n := by
  have hlimit : limit n = (max 1 n * 10 ^ 7 : ℕ) / 10 ^ 9 := by
    unfold limit
    push_cast
    ring
  rw [hlimit] at h ⊢
  exact Decimal.quantize_le h

/-! ### What the triggers see of a table -/

/-- The triggers see the numbers of lines of the entry before the row, of both kinds. -/
def Passes : ℕ → ℕ → List ResolvedIntentLine → Prop
  | _, _, [] => True
  | nonRounding, rounding, line :: lines =>
      if line.isRounding = true then
        Decimal.quantize 9 line.amount.toRat ≤ limit nonRounding ∧ rounding = 0 ∧
          Passes nonRounding (rounding + 1) lines
      else Passes (nonRounding + 1) rounding lines

/-- An amount with a place in the column is finite, and is stored to nine places. -/
theorem amount_of_numeric {amount : Decimal} {stored : Numeric} (hnonneg : amount.NonNegative)
    (h : numeric amount = some stored) :
    (∃ sign coeff exp, amount = .finite sign coeff exp) ∧
      stored = some (Decimal.quantize 9 amount.toRat) := by
  cases amount with
  | finite sign coeff exp =>
      simp only [numeric] at h
      split at h
      · exact ⟨⟨sign, coeff, exp, rfl⟩, (Option.some.inj h).symm⟩
      · cases h
  | infinity sign => cases h
  | nan sign signaling payload => exact hnonneg.elim

theorem amount_of_rowFor (hrow : RowFor entryId line row) (hnonneg : line.amount.NonNegative) :
    (∃ sign coeff exp, line.amount = .finite sign coeff exp) ∧
      row.amount = some (Decimal.quantize 9 line.amount.toRat) :=
  amount_of_numeric hnonneg hrow.amount

theorem countLines_append (table : List JournalLine) (row : JournalLine) (id : String) (b : Bool) :
    countLines (table ++ [row]) id b = countLines table id b +
      if row.journalEntryId = id ∧ row.isRounding = b then 1 else 0 := by
  unfold countLines
  rw [List.countP_append, List.countP_singleton]
  simp only [Bool.and_eq_true, decide_eq_true_eq]

theorem insertRow_of_ordinary (h : row.isRounding = false) :
    insertRow table row = some (table ++ [row]) := by
  unfold insertRow enforceRoundingThreshold enforceSingleRoundingLine
  simp [h]

/-- The two conditions on a rounding line. -/
theorem insertRow_of_rounding {x : ℚ} (h : row.isRounding = true) (hamount : row.amount = some x) :
    insertRow table row =
      if x ≤ limit (countLines table row.journalEntryId false) ∧
          countLines table row.journalEntryId true = 0 then some (table ++ [row])
      else none := by
  unfold insertRow enforceRoundingThreshold enforceSingleRoundingLine
  simp only [h, hamount, above, maxAllowedRounding_eq, Bool.true_eq_false, if_false,
    decide_eq_true_eq]
  by_cases hlimit : limit (countLines table row.journalEntryId false) < x
  · simp [hlimit, not_le.mpr hlimit]
  · by_cases hcount : 1 ≤ countLines table row.journalEntryId true
    · have hne : countLines table row.journalEntryId true ≠ 0 := by omega
      simp [hlimit, hcount, hne]
    · have heq : countLines table row.journalEntryId true = 0 := by omega
      simp [not_lt.mp hlimit, hlimit, heq]

/-- **What the inserts of an entry pass.** -/
theorem insertRows_isSome_iff (hrows : List.Forall₂ (RowFor entryId) lines rows)
    (hnonneg : ∀ line ∈ lines, line.amount.NonNegative) (table : List JournalLine) :
    (insertRows table rows).isSome ↔
      Passes (countLines table entryId.str false) (countLines table entryId.str true) lines := by
  induction hrows generalizing table with
  | nil =>
      unfold insertRows Passes
      simp
  | @cons line row lines rows hrow hrest ih =>
      have ih := ih fun l hl => hnonneg l (List.mem_cons_of_mem _ hl)
      have hamount := (amount_of_rowFor hrow (hnonneg line List.mem_cons_self)).2
      unfold insertRows Passes
      rw [List.foldlM_cons]
      cases hrounding : line.isRounding with
      | false =>
          have hrow' : row.isRounding = false := hrow.isRounding.trans hrounding
          rw [insertRow_of_ordinary hrow', if_neg Bool.false_ne_true]
          have hnext := ih (table ++ [row])
          rw [countLines_append, countLines_append, if_pos ⟨hrow.journalEntryId, hrow'⟩,
            if_neg (by simp [hrow'])] at hnext
          exact hnext
      | true =>
          have hrow' : row.isRounding = true := hrow.isRounding.trans hrounding
          rw [insertRow_of_rounding hrow' hamount, hrow.journalEntryId, if_pos rfl]
          have hnext := ih (table ++ [row])
          rw [countLines_append, countLines_append, if_neg (by simp [hrow']),
            if_pos ⟨hrow.journalEntryId, hrow'⟩] at hnext
          split
          · rename_i hpasses
            rw [← and_assoc, and_iff_right hpasses]
            exact hnext
          · rename_i hpasses
            refine iff_of_false (by simp) fun h => hpasses ⟨h.1, h.2.1⟩

/-! ### Ordinary lines and rounding lines -/

theorem passes_append (h : ∀ line ∈ pre, line.isRounding = false) (n k : ℕ) :
    Passes n k (pre ++ post) ↔ Passes (n + pre.length) k post := by
  induction pre generalizing n with
  | nil => rfl
  | cons line pre ih =>
      rw [List.cons_append, Passes, if_neg (by simp [h line List.mem_cons_self]),
        ih (fun l hl => h l (List.mem_cons_of_mem _ hl)), List.length_cons]
      rw [show n + 1 + pre.length = n + (pre.length + 1) by omega]

theorem passes_of_ordinary (h : ∀ line ∈ lines, line.isRounding = false) (n k : ℕ) :
    Passes n k lines := by
  have happend : Passes n k (lines ++ []) := (passes_append h n k).mpr trivial
  rwa [List.append_nil] at happend

/-- No second rounding line passes. -/
theorem not_passes_of_rounding (hline : line ∈ lines) (hrounding : line.isRounding = true)
    (n k : ℕ) : ¬Passes n (k + 1) lines := by
  induction lines generalizing n with
  | nil => cases hline
  | cons first lines ih =>
      intro h
      rw [Passes] at h
      split at h
      · exact absurd h.2.1 (Nat.succ_ne_zero k)
      · rename_i hfirst
        rcases List.mem_cons.mp hline with rfl | hline
        · exact hfirst hrounding
        · exact ih hline (n + 1) h

/-- Lines with no rounding line, with one, or with more. -/
inductive Roundings : List ResolvedIntentLine → Prop where
  | none {lines : List ResolvedIntentLine} (h : ∀ line ∈ lines, line.isRounding = false) :
      Roundings lines
  | one {pre post : List ResolvedIntentLine} {line : ResolvedIntentLine}
      (hpre : ∀ other ∈ pre, other.isRounding = false) (hline : line.isRounding = true)
      (hpost : ∀ other ∈ post, other.isRounding = false) : Roundings (pre ++ line :: post)
  | more {pre post : List ResolvedIntentLine} {line second : ResolvedIntentLine}
      (hpre : ∀ other ∈ pre, other.isRounding = false) (hline : line.isRounding = true)
      (hsecond : second ∈ post) (hrounding : second.isRounding = true) :
      Roundings (pre ++ line :: post)

theorem roundings (lines : List ResolvedIntentLine) : Roundings lines := by
  cases hfirst : lines.find? (·.isRounding) with
  | none =>
      refine .none fun line hline => ?_
      simpa using List.find?_eq_none.mp hfirst line hline
  | some line =>
      obtain ⟨hline, pre, post, rfl, hpre⟩ := List.find?_eq_some_iff_append.mp hfirst
      have hpre : ∀ other ∈ pre, other.isRounding = false := fun other hother => by
        simpa using hpre other hother
      by_cases hpost : ∃ second ∈ post, second.isRounding = true
      · obtain ⟨second, hsecond, hrounding⟩ := hpost
        exact .more hpre hline hsecond hrounding
      · refine .one hpre hline fun other hother => ?_
        rw [← Bool.not_eq_true]
        exact fun h => hpost ⟨other, hother, h⟩

/-- The only rounding line has one place. -/
theorem limitsAgree_one (hline : line.isRounding = true)
    (hothers : ∀ other ∈ pre ++ post, other.isRounding = false) :
    LimitsAgree (pre ++ line :: post) ↔ (line.amount.toRat ≤ limit (pre ++ post).length ↔
      Decimal.quantize 9 line.amount.toRat ≤ limit pre.length) := by
  constructor
  · intro h
    exact h pre line post rfl hline hothers
  · intro h pre' line' post' heq hline' hothers'
    rcases List.append_eq_append_iff.mp heq with ⟨between, rfl, hrest⟩ | ⟨between, rfl, hrest⟩
    · cases between with
      | nil =>
          obtain ⟨rfl, rfl⟩ := List.cons.inj hrest
          rwa [List.append_nil]
      | cons other between =>
          obtain ⟨rfl, -⟩ := List.cons.inj hrest
          have hother := hothers' line (by simp)
          rw [hline] at hother
          cases hother
    · cases between with
      | nil =>
          obtain ⟨rfl, rfl⟩ := List.cons.inj hrest
          rwa [List.append_nil] at h
      | cons other between =>
          obtain ⟨rfl, -⟩ := List.cons.inj hrest
          have hother := hothers line' (by simp)
          rw [hline'] at hother
          cases hother

/-! ### The writer -/

theorem filter_ordinary (h : ∀ line ∈ lines, line.isRounding = false) :
    lines.filter (·.isRounding) = [] ∧ lines.filter (!·.isRounding) = lines := by
  constructor
  · exact List.filter_eq_nil_iff.mpr fun line hline => by simp [h line hline]
  · exact List.filter_eq_self.mpr fun line hline => by simp [h line hline]

theorem filter_one (hline : line.isRounding = true)
    (hothers : ∀ other ∈ pre ++ post, other.isRounding = false) :
    (pre ++ line :: post).filter (·.isRounding) = [line] ∧
      (pre ++ line :: post).filter (!·.isRounding) = pre ++ post := by
  have hpre := filter_ordinary fun other hother => hothers other (List.mem_append_left post hother)
  have hpost := filter_ordinary fun other hother => hothers other (List.mem_append_right pre hother)
  constructor
  · rw [List.filter_append, List.filter_cons_of_pos hline, hpre.1, hpost.1, List.nil_append]
  · rw [List.filter_append, List.filter_cons_of_neg (by simp [hline]), hpre.2, hpost.2]

theorem one_lt_filter {second : ResolvedIntentLine} (pre : List ResolvedIntentLine)
    (hline : line.isRounding = true) (hsecond : second ∈ post) (hrounding : second.isRounding = true) :
    1 < ((pre ++ line :: post).filter (·.isRounding)).length := by
  have hpos := List.length_pos_of_mem (List.mem_filter.mpr ⟨hsecond, hrounding⟩)
  rw [List.filter_append, List.filter_cons_of_pos hline, List.length_append, List.length_cons]
  omega

theorem writer_accepts_none (h : ∀ line ∈ lines, line.isRounding = false) :
    validateRoundingInvariants entryId lines = .ok () := by
  unfold validateRoundingInvariants
  rw [(filter_ordinary h).1]
  rfl

/-- What the writer checks of an entry with one rounding line. -/
theorem writer_accepts_one (hline : line.isRounding = true)
    (hothers : ∀ other ∈ pre ++ post, other.isRounding = false)
    (hfinite : ∃ sign coeff exp, line.amount = .finite sign coeff exp) :
    validateRoundingInvariants entryId (pre ++ line :: post) = .ok () ↔
      line.amount.toRat ≤ limit (pre ++ post).length := by
  obtain ⟨sign, coeff, exp, hamount⟩ := hfinite
  unfold validateRoundingInvariants
  rw [(filter_one hline hothers).1, (filter_one hline hothers).2]
  have hlimit : (Decimal.finite false (max 1 (pre ++ post).length) (-2)).toRat =
      limit (pre ++ post).length := maxAllowed_toRat _
  simp only [List.length_singleton, lt_irrefl, if_false, hlimit, hamount, Decimal.exceeds,
    decide_eq_true_eq]
  split
  · rename_i hexceeds
    exact iff_of_false (by simp) (not_le.mpr hexceeds)
  · rename_i hexceeds
    exact iff_of_true rfl (not_lt.mp hexceeds)

theorem writer_refuses_more
    (hmany : 1 < (lines.filter (·.isRounding)).length) :
    validateRoundingInvariants entryId lines ≠ .ok () := by
  unfold validateRoundingInvariants
  dsimp only
  rw [if_pos hmany]
  exact fun h => by cases h

/-! ### Agreement -/

theorem finite_of_rows (hrows : List.Forall₂ (RowFor entryId) lines rows)
    (hnonneg : ∀ line ∈ lines, line.amount.NonNegative) :
    ∀ line ∈ lines, ∃ sign coeff exp, line.amount = .finite sign coeff exp := by
  induction hrows with
  | nil => exact fun line hline => by cases hline
  | cons hrow _ ih =>
      intro line hline
      rcases List.mem_cons.mp hline with rfl | hline
      · exact (amount_of_rowFor hrow (hnonneg line List.mem_cons_self)).1
      · exact ih (fun l hl => hnonneg l (List.mem_cons_of_mem _ hl)) line hline

/-- The writer and the triggers agree where the two limits do. -/
theorem limits_agree_iff (hfinite : ∀ line ∈ lines, ∃ sign coeff exp, line.amount = .finite sign coeff exp) :
    (validateRoundingInvariants entryId lines = .ok () ↔ Passes 0 0 lines) ↔
      LimitsAgree lines := by
  cases roundings lines with
  | none h =>
      refine iff_of_true (iff_of_true (writer_accepts_none h) (passes_of_ordinary h 0 0)) ?_
      intro pre line post heq hline
      have hother := h line (by simp [heq])
      rw [hline] at hother
      cases hother
  | @one pre post line hpre hline hpost =>
      have hothers : ∀ other ∈ pre ++ post, other.isRounding = false := fun other hother =>
        (List.mem_append.mp hother).elim (hpre other) (hpost other)
      rw [writer_accepts_one hline hothers (hfinite line (by simp)), passes_append hpre, Passes,
        if_pos hline, limitsAgree_one hline hothers, zero_add]
      simp only [passes_of_ordinary hpost, and_true]
  | @more pre post line second hpre hline hsecond hrounding =>
      have hmany := one_lt_filter pre hline hsecond hrounding
      have hpasses : ¬Passes 0 0 (pre ++ line :: post) := by
        rw [passes_append hpre, Passes, if_pos hline]
        exact fun h => not_passes_of_rounding hsecond hrounding _ _ h.2.2
      refine iff_of_true (iff_of_false (writer_refuses_more hmany) hpasses) ?_
      intro pre' line' post' heq hline' hothers
      rw [heq, (filter_one hline' hothers).1] at hmany
      exact absurd hmany (lt_irrefl 1)

/-! ### Proposed entries -/

/-- What a strategy proposes is accepted by the writer, and its rows pass the triggers: the
rounding line comes last, so that both limits are that of the whole entry. -/
theorem proposed_accepted {proposed : List ProposedLine} {accountRole : ProposedLine → String}
    (hproposed : Proposed proposed)
    (hfinite : ∀ line ∈ proposed, ∃ sign coeff exp, line.amount = .finite sign coeff exp) :
    validateRoundingInvariants entryId (proposed.map (toResolved accountRole)) = .ok () ∧
      Passes 0 0 (proposed.map (toResolved accountRole)) := by
  obtain ⟨hsingle, ⟨specs, new, rfl, hspecs, hnew⟩, hwithin⟩ := hproposed
  have hordinary : ∀ line ∈ specs.map (toResolved accountRole), line.isRounding = false := by
    intro line hline
    obtain ⟨spec, hspec, rfl⟩ := List.mem_map.mp hline
    exact hspecs spec hspec
  have hfilter : (specs ++ new).filter (·.isRounding) = new := by
    rw [List.filter_append, List.filter_eq_nil_iff.mpr fun line hline => by simp [hspecs line hline],
      List.filter_eq_self.mpr hnew, List.nil_append]
  rw [hfilter] at hsingle
  rcases new with _ | ⟨line, _ | ⟨second, rest⟩⟩
  · rw [List.append_nil]
    exact ⟨writer_accepts_none hordinary, passes_of_ordinary hordinary 0 0⟩
  · have hline : line.isRounding = true := hnew line (List.mem_singleton_self line)
    have hcount : ((specs ++ [line]).filter (!·.isRounding)).length = specs.length := by
      rw [List.filter_append, List.filter_eq_self.mpr fun spec hspec => by simp [hspecs spec hspec],
        List.filter_cons_of_neg (by simp [hline]), List.filter_nil, List.append_nil]
    obtain ⟨sign, coeff, exp, hamount⟩ := hfinite line (by simp)
    have hle : line.amount.toRat ≤ limit specs.length := by
      have hless := hwithin line (by simp) hline
      rw [hcount, hamount] at hless
      have hnot := of_decide_eq_false (Except.ok.inj hless)
      rw [hamount, ← maxAllowed_toRat]
      exact not_lt.mp hnot
    rw [List.map_append, List.map_singleton]
    have hresolved : (toResolved accountRole line).isRounding = true := hline
    constructor
    · refine (writer_accepts_one hresolved (by simpa using hordinary)
        ⟨sign, coeff, exp, hamount⟩).mpr ?_
      rw [List.append_nil, List.length_map]
      exact hle
    · rw [passes_append hordinary, Passes, if_pos hresolved, zero_add, List.length_map]
      exact ⟨quantize_le_limit hle, rfl, trivial⟩
  · simp at hsingle

/-! ### The layers -/

theorem countLines_of_new (hnew : ∀ row ∈ table, row.journalEntryId ≠ entryId.str) (b : Bool) :
    countLines table entryId.str b = 0 := by
  unfold countLines
  refine List.countP_eq_zero.mpr fun row hrow => ?_
  simp [hnew row hrow]

/-- **When the layers agree.**  The writer accepts the lines of a new entry exactly when the
triggers let their rows pass if and only if the limits agree; and the lines that a posting
strategy proposes are accepted by both. -/
theorem rounding_limits_agree_iff (hnew : ∀ row ∈ table, row.journalEntryId ≠ entryId.str)
    (hrows : List.Forall₂ (RowFor entryId) lines rows)
    (hnonneg : ∀ line ∈ lines, line.amount.NonNegative) :
    ((validateRoundingInvariants entryId lines = .ok () ↔ (insertRows table rows).isSome) ↔
        LimitsAgree lines) ∧
      ∀ (env : Environment) (ref : ReferenceData) (strategy : Strategy)
        (entry : PostingStrategy.ProposedJournalEntry) (accountRole : ProposedLine → String),
        propose env ref strategy = .ok (.ok entry) →
          lines = entry.lines.map (toResolved accountRole) →
            validateRoundingInvariants entryId lines = .ok () ∧ (insertRows table rows).isSome := by
  have hfinite := finite_of_rows hrows hnonneg
  rw [insertRows_isSome_iff hrows hnonneg table, countLines_of_new hnew, countLines_of_new hnew]
  refine ⟨limits_agree_iff hfinite, fun env ref strategy entry accountRole hpropose hlines => ?_⟩
  subst hlines
  refine proposed_accepted (PostingStrategy.proposed_of_propose hpropose) fun line hline => ?_
  exact hfinite (toResolved accountRole line) (List.mem_map_of_mem hline)

end Laws

/-! ### A rounding line of three cents -/

def sampleLine (isRounding : Bool) (cents lineSeq : ℕ) : ResolvedIntentLine where
  accountId := ⟨lineSeq⟩
  accountCode := "1000"
  accountRole := "CASH"
  side := .debit
  amount := .finite false cents (-2)
  currency := "USD"
  dimensions := none
  memo := none
  isRounding := isRounding
  lineSeq := lineSeq

/-- The rounding line, with three lines before it or after it. -/
def sampleLines (before after : List ℕ) : List ResolvedIntentLine :=
  before.map (sampleLine false 100) ++ sampleLine true 3 10 :: after.map (sampleLine false 100)

def sampleRow (line : ResolvedIntentLine) : JournalLine where
  id := line.accountId.str
  journalEntryId := (⟨1⟩ : UUID).str
  accountId := line.accountId.str
  side := "debit"
  amount := some (Decimal.quantize 9 line.amount.toRat)
  currency := line.currency
  isRounding := line.isRounding
  lineMemo := line.memo
  lineSeq := line.lineSeq
  createdAt := 0
  updatedAt := 0
  createdById := (⟨2⟩ : UUID).str

theorem sampleRows {lines : List ResolvedIntentLine}
    (h : ∀ line ∈ lines, numeric line.amount = some (some (Decimal.quantize 9 line.amount.toRat))) :
    List.Forall₂ (RowFor ⟨1⟩) lines (lines.map sampleRow) := by
  induction lines with
  | nil => exact .nil
  | cons line lines ih =>
      have hrow : RowFor ⟨1⟩ line (sampleRow line) :=
        ⟨rfl, rfl, h line List.mem_cons_self, rfl, rfl, rfl, rfl⟩
      exact .cons hrow (ih fun l hl => h l (List.mem_cons_of_mem _ hl))

theorem sample_limits_agree :
    validateRoundingInvariants ⟨1⟩ (sampleLines [0, 1, 2] []) = .ok () ↔
      (insertRows [] ((sampleLines [0, 1, 2] []).map sampleRow)).isSome := by
  refine (rounding_limits_agree_iff (fun row hrow => by cases hrow)
    (sampleRows (by decide +kernel)) (by decide +kernel)).1.mpr ?_
  have hagree : LimitsAgree ([0, 1, 2].map (sampleLine false 100) ++ [sampleLine true 3 10]) :=
    (limitsAgree_one rfl (by decide)).mpr (iff_of_true (by decide +kernel) (by decide +kernel))
  exact hagree

/-- **The same lines with the rounding line first**: the writer accepts them, the trigger does
not. -/
theorem limits_disagree :
    ¬(validateRoundingInvariants ⟨1⟩ (sampleLines [] [0, 1, 2]) = .ok () ↔
      (insertRows [] ((sampleLines [] [0, 1, 2]).map sampleRow)).isSome) := by
  decide +kernel

end FinanceAccounting.RoundingTriggers
