import Mathlib.Data.List.ReduceOption
import FinanceAccounting.Library.Traversals
import FinanceAccounting.Kernel.JournalWriter

/-! # Posting strategies

`BasePostingStrategy.propose`: the lines that a strategy computes are checked and resolved, what
is missing to a balance in a currency becomes a rounding line, and the rounding lines are checked
against R5 and R22.

The rounding lines come after the lines of the strategy, none of which is one
(`proposed_of_propose`): a proposed entry has at most one rounding line, it is the last line, and
its amount is within the limit of the whole entry. -/

namespace FinanceAccounting.PostingStrategy

open Decimal (Signal)
open Hashing (defaultContext)
open Journal (Dimensions LineSide)
open Traversals (bind_eq_ok)

/-! ### Data -/

/-- A line by its account code; the amount is not negative. -/
structure LineSpec where
  accountCode : String
  side : LineSide
  amount : Decimal
  currency : String
  dimensions : Option Dimensions := none
  memo : Option String := none
  isRounding : Bool := false
  amount_nonneg : amount.NonNegative

structure ProposedLine where
  accountId : UUID
  accountCode : String
  side : LineSide
  amount : Decimal
  currency : String
  dimensions : Option Dimensions := none
  memo : Option String := none
  isRounding : Bool := false
  lineSeq : ℕ := 0

structure ValidationError where
  code : String
  message : String
  field : Option String := none

structure ReferenceData where
  accountIdsByCode : String → Option UUID
  isAccountActive : String → Bool
  roundingAccountIds : String → Option UUID
  requiredDimensions : List String := []
  coaVersion : ℤ := 1
  dimensionSchemaVersion : ℤ := 1
  roundingPolicyVersion : ℤ := 1
  currencyRegistryVersion : ℤ := 1

structure ProposedJournalEntry where
  lines : List ProposedLine
  description : Option String
  metadata : Option String
  postingRuleVersion : ℤ
  roundingRuleVersion : ℤ := 1
  coaVersion : ℤ
  dimensionSchemaVersion : ℤ
  roundingPolicyVersion : ℤ
  currencyRegistryVersion : ℤ
  lines_ne_nil : lines ≠ []

/-- `StrategyResult`: the proposed entry, or the errors of a failure. -/
abbrev StrategyResult := Except (List ValidationError) ProposedJournalEntry

/-- What is used of the currency registry and of Python's sets. -/
structure Environment where
  /-- The decimal places of a code that the registry has. -/
  decimalPlaces : String → Option ℕ
  /-- The order of a set of currencies. -/
  setOrder : List String → List String
  setOrder_perm : ∀ xs, (setOrder xs).Perm xs.dedup

/-- A strategy: what the subclasses define.  The lines come from the event; an exception is seen
by its text. -/
structure Strategy where
  version : ℤ
  lineSpecs : ReferenceData → Except String (List LineSpec)
  description : Option String := none
  metadata : Option String := none

/-- `get_rounding_tolerance`: one of the last place; a code that is not known has two places. -/
def Environment.roundingTolerance (env : Environment) (code : String) : Decimal :=
  .finite false 1 (-((env.decimalPlaces code).getD 2))

def lineField (i : ℕ) (name : String) : String := "lines[" ++ toString i ++ "]." ++ name

/-! ### The checks on the lines -/

/-- R22: the strategy has no rounding line. -/
def validateNoRoundingLines (lines : List LineSpec) : Option ValidationError :=
  (lines.zipIdx.find? (·.1.isRounding)).map fun p => {
    code := "STRATEGY_ROUNDING_VIOLATION"
    message := "Strategy attempted to create rounding line at index " ++ toString p.2 ++
      ". Only the Bookkeeper may generate is_rounding=True lines (R22)."
    field := some (lineField p.2 "is_rounding") }

def validateCurrencies (env : Environment) (lines : List LineSpec) : List ValidationError :=
  (lines.zipIdx.filter fun p => (env.decimalPlaces p.1.currency).isNone).map fun p => {
    code := "INVALID_CURRENCY"
    message := "Invalid ISO 4217 currency code: " ++ p.1.currency
    field := some (lineField p.2 "currency") }

/-- A line with its account, or why there is none. -/
def resolveAccount (ref : ReferenceData) (spec : LineSpec) (i : ℕ) :
    Except ValidationError ProposedLine :=
  match ref.accountIdsByCode spec.accountCode with
  | none => .error {
      code := "ACCOUNT_NOT_FOUND"
      message := "Account not found: " ++ spec.accountCode
      field := some (lineField i "account_code") }
  | some accountId =>
      if !ref.isAccountActive spec.accountCode then .error {
        code := "ACCOUNT_INACTIVE"
        message := "Account is inactive: " ++ spec.accountCode
        field := some (lineField i "account_code") }
      else .ok {
        accountId := accountId
        accountCode := spec.accountCode
        side := spec.side
        amount := spec.amount
        currency := spec.currency
        dimensions := spec.dimensions
        memo := spec.memo
        isRounding := spec.isRounding
        lineSeq := i }

def resolveAccounts (ref : ReferenceData) (lines : List LineSpec) :
    List ProposedLine × List ValidationError :=
  let results := lines.zipIdx.map fun p => resolveAccount ref p.1 p.2
  (results.filterMap (·.toOption), results.filterMap fun
    | .error e => some e
    | .ok _ => none)

def validateDimensions (ref : ReferenceData) (lines : List ProposedLine) : List ValidationError :=
  lines.zipIdx.flatMap fun p =>
    (ref.requiredDimensions.filter fun dim =>
      !(p.1.dimensions.getD []).any fun entry => entry.1 = dim).map fun dim => {
        code := "MISSING_DIMENSION"
        message := "Missing required dimension: " ++ dim
        field := some (lineField p.2 ("dimensions." ++ dim)) }

/-! ### Balance and rounding -/

/-- `abs(d)`. -/
def absolute (d : Decimal) : Except Signal Decimal :=
  Decimal.fix defaultContext (if d.sign then d.negate else d)

def sideTotal (lines : List ProposedLine) (side : LineSide) (currency : String) :
    Except Signal Decimal :=
  Decimal.sum defaultContext
    ((lines.filter fun line => line.currency = currency && line.side = side).map (·.amount))

/-- One currency: nothing to do, an error, or a rounding line more. -/
def balanceCurrency (env : Environment) (ref : ReferenceData) (lines : List ProposedLine)
    (acc : List ProposedLine × List ValidationError) (currency : String) :
    Except Signal (List ProposedLine × List ValidationError) := do
  let debits ← sideTotal lines .debit currency
  let credits ← sideTotal lines .credit currency
  let imbalance ← Decimal.sub defaultContext debits credits
  if imbalance.numEq (.finite false 0 0) then return acc
  let magnitude ← absolute imbalance
  let exceeds ← Decimal.less (env.roundingTolerance currency) magnitude
  if exceeds then
    return (acc.1, acc.2 ++ [{
      code := "UNBALANCED_ENTRY"
      message := "Entry unbalanced in " ++ currency ++ ": debits=" ++ String.ofList debits.toChars ++
        ", credits=" ++ String.ofList credits.toChars }])
  match ref.roundingAccountIds currency with
  | none =>
      return (acc.1, acc.2 ++ [{
        code := "NO_ROUNDING_ACCOUNT"
        message := "No rounding account for currency: " ++ currency }])
  | some accountId =>
      return (acc.1 ++ [{
        accountId := accountId
        accountCode := "ROUNDING"
        side := if imbalance.sign then .debit else .credit
        amount := magnitude
        currency := currency
        isRounding := true
        lineSeq := acc.1.length }], acc.2)

/-- `_balance_and_round`. -/
def balanceAndRound (env : Environment) (ref : ReferenceData) (lines : List ProposedLine) :
    Except Signal (List ProposedLine × List ValidationError) :=
  (env.setOrder (lines.map (·.currency))).foldlM (balanceCurrency env ref lines) (lines, [])

/-- The limit of an entry: a cent for every line, and at least one. -/
def maxAllowed (nonRounding : ℕ) : Decimal := .finite false (max 1 nonRounding) (-2)

/-- `_validate_rounding_invariants`. -/
def validateRoundingInvariants (lines : List ProposedLine) : Except Signal (List ValidationError) := do
  let roundingLines := lines.filter (·.isRounding)
  let nonRounding := (lines.filter (!·.isRounding)).length
  let multiple : List ValidationError :=
    if 1 < roundingLines.length then [{
      code := "MULTIPLE_ROUNDING_LINES"
      message := "Entry has " ++ toString roundingLines.length ++ " rounding lines. " ++
        "At most ONE line can have is_rounding=True." }]
    else []
  let exceeded ← roundingLines.mapM fun line => do
    let exceeds ← Decimal.less (maxAllowed nonRounding) line.amount
    return if exceeds then some {
      code := "ROUNDING_AMOUNT_EXCEEDED"
      message := "Rounding amount " ++ String.ofList line.amount.toChars ++ " " ++ line.currency ++
        " exceeds maximum allowed " ++ String.ofList (maxAllowed nonRounding).toChars ++ ". " ++
        "Large 'rounding' is not rounding - it may indicate fraud." }
      else none
  return multiple ++ exceeded.reduceOption

/-! ### The proposal -/

/-- `propose`; a signal of the arithmetic is raised. -/
def propose (env : Environment) (ref : ReferenceData) (strategy : Strategy) :
    Except Signal StrategyResult :=
  match strategy.lineSpecs ref with
  | .error text =>
      return .error [{ code := "COMPUTATION_ERROR", message := "Failed to compute lines: " ++ text }]
  | .ok [] => return .error [{ code := "NO_LINES", message := "Strategy produced no journal lines" }]
  | .ok lineSpecs =>
      match validateNoRoundingLines lineSpecs with
      | some violation => return .error [violation]
      | none =>
          let currencyErrors := validateCurrencies env lineSpecs
          if !currencyErrors.isEmpty then return .error currencyErrors
          else
            let (proposedLines, accountErrors) := resolveAccounts ref lineSpecs
            if !accountErrors.isEmpty then return .error accountErrors
            else
              let dimensionErrors := validateDimensions ref proposedLines
              if !dimensionErrors.isEmpty then return .error dimensionErrors
              else do
                let (balancedLines, balanceErrors) ← balanceAndRound env ref proposedLines
                if !balanceErrors.isEmpty then return .error balanceErrors
                let roundingErrors ← validateRoundingInvariants balancedLines
                if !roundingErrors.isEmpty then return .error roundingErrors
                if h : balancedLines ≠ [] then
                  return .ok {
                    lines := balancedLines
                    description := strategy.description
                    metadata := strategy.metadata
                    postingRuleVersion := strategy.version
                    coaVersion := ref.coaVersion
                    dimensionSchemaVersion := ref.dimensionSchemaVersion
                    roundingPolicyVersion := ref.roundingPolicyVersion
                    currencyRegistryVersion := ref.currencyRegistryVersion
                    lines_ne_nil := h }
                else
                  return .error [{
                    code := "INVALID_ENTRY"
                    message := "ProposedJournalEntry must have at least one line" }]

/-! ### What a proposed entry has -/

section Laws

variable {env : Environment} {ref : ReferenceData} {strategy : Strategy} {specs : List LineSpec}
variable {lines : List ProposedLine} {line : ProposedLine} {entry : ProposedJournalEntry}

theorem not_isRounding_of_validated (h : validateNoRoundingLines specs = none) :
    ∀ spec ∈ specs, spec.isRounding = false := by
  intro spec hspec
  unfold validateNoRoundingLines at h
  rw [Option.map_eq_none_iff, List.find?_eq_none] at h
  obtain ⟨i, hi⟩ := List.mem_iff_getElem?.mp hspec
  have hmem : (spec, i) ∈ specs.zipIdx := List.mk_mem_zipIdx_iff_getElem?.mpr hi
  simpa using h (spec, i) hmem

/-- A resolved line is a line of the strategy. -/
theorem isRounding_of_resolved (h : line ∈ (resolveAccounts ref specs).1) :
    ∃ spec ∈ specs, line.isRounding = spec.isRounding := by
  unfold resolveAccounts at h
  obtain ⟨result, hresult, hline⟩ := List.mem_filterMap.mp h
  obtain ⟨p, hp, rfl⟩ := List.mem_map.mp hresult
  refine ⟨p.1, (List.mem_zipIdx' hp).2 ▸ List.getElem_mem _, ?_⟩
  unfold resolveAccount at hline
  split at hline
  · cases hline
  · split at hline
    · cases hline
    · obtain rfl := Option.some.inj hline
      rfl

/-- A currency adds errors, and rounding lines of its own. -/
theorem balanceCurrency_eq_ok {acc acc' : List ProposedLine × List ValidationError}
    {currency : String} (h : balanceCurrency env ref lines acc currency = .ok acc') :
    ∃ new errors, acc' = (acc.1 ++ new, acc.2 ++ errors) ∧
      ∀ line ∈ new, line.isRounding = true ∧ line.currency = currency := by
  have hnone : ∀ line : ProposedLine, line ∈ ([] : List ProposedLine) →
      line.isRounding = true ∧ line.currency = currency := fun _ hline => by cases hline
  unfold balanceCurrency at h
  obtain ⟨debits, -, h⟩ := bind_eq_ok.mp h
  obtain ⟨credits, -, h⟩ := bind_eq_ok.mp h
  obtain ⟨imbalance, -, h⟩ := bind_eq_ok.mp h
  split at h
  · obtain rfl := Except.ok.inj h
    exact ⟨[], [], by rw [List.append_nil, List.append_nil], hnone⟩
  · obtain ⟨magnitude, -, h⟩ := bind_eq_ok.mp h
    obtain ⟨exceeds, -, h⟩ := bind_eq_ok.mp h
    split at h
    · obtain rfl := Except.ok.inj h
      exact ⟨[], _, Prod.ext (List.append_nil _).symm rfl, hnone⟩
    · split at h
      · obtain rfl := Except.ok.inj h
        exact ⟨[], _, Prod.ext (List.append_nil _).symm rfl, hnone⟩
      · obtain rfl := Except.ok.inj h
        refine ⟨_, [], Prod.ext rfl (List.append_nil _).symm, fun line hline => ?_⟩
        rw [List.mem_singleton.mp hline]
        exact ⟨rfl, rfl⟩

/-- So do the currencies of a list. -/
theorem foldlM_eq_ok {currencies : List String}
    {acc result : List ProposedLine × List ValidationError}
    (h : currencies.foldlM (balanceCurrency env ref lines) acc = .ok result) :
    ∃ new errors, result = (acc.1 ++ new, acc.2 ++ errors) ∧
      ∀ line ∈ new, line.isRounding = true ∧ line.currency ∈ currencies := by
  induction currencies generalizing acc with
  | nil =>
      obtain rfl := Except.ok.inj h
      exact ⟨[], [], by rw [List.append_nil, List.append_nil], fun _ hline => by cases hline⟩
  | cons currency currencies ih =>
      rw [List.foldlM_cons] at h
      obtain ⟨acc', hstep, hrest⟩ := bind_eq_ok.mp h
      obtain ⟨new, errors, rfl, hrounding⟩ := balanceCurrency_eq_ok hstep
      obtain ⟨more, moreErrors, rfl, hrounding'⟩ := ih hrest
      refine ⟨new ++ more, errors ++ moreErrors, ?_, fun line hline => ?_⟩
      · rw [List.append_assoc, List.append_assoc]
      · rcases List.mem_append.mp hline with hline | hline
        · obtain ⟨hline, hcurrency⟩ := hrounding line hline
          exact ⟨hline, hcurrency ▸ List.mem_cons_self⟩
        · obtain ⟨hline, hcurrency⟩ := hrounding' line hline
          exact ⟨hline, List.mem_cons_of_mem currency hcurrency⟩

/-- The rounding lines come last. -/
theorem balanceAndRound_eq_ok {result : List ProposedLine × List ValidationError}
    (h : balanceAndRound env ref lines = .ok result) :
    ∃ new, result.1 = lines ++ new ∧ ∀ line ∈ new, line.isRounding = true := by
  obtain ⟨new, errors, rfl, hnew⟩ := foldlM_eq_ok h
  exact ⟨new, rfl, fun line hline => (hnew line hline).1⟩

/-- What the check of the rounding lines leaves. -/
theorem validated_of_nil (h : validateRoundingInvariants lines = .ok []) :
    (lines.filter (·.isRounding)).length ≤ 1 ∧ ∀ line ∈ lines, line.isRounding = true →
      Decimal.less (maxAllowed (lines.filter (!·.isRounding)).length) line.amount = .ok false := by
  unfold validateRoundingInvariants at h
  obtain ⟨exceeded, hexceeded, h⟩ := bind_eq_ok.mp h
  obtain ⟨hmultiple, hnone⟩ := List.append_eq_nil_iff.mp (Except.ok.inj h)
  have hlength : (lines.filter (·.isRounding)).length ≤ 1 := by
    by_contra hmany
    rw [if_pos (not_le.mp hmany)] at hmultiple
    cases hmultiple
  refine ⟨hlength, fun line hline hrounding => ?_⟩
  have hmem : line ∈ lines.filter (·.isRounding) := List.mem_filter.mpr ⟨hline, hrounding⟩
  obtain ⟨only, honly⟩ := List.length_eq_one_iff.mp
    (le_antisymm hlength (List.length_pos_of_mem hmem))
  rw [honly, List.mem_singleton] at hmem
  subst hmem
  rw [honly, List.mapM_cons, List.mapM_nil] at hexceeded
  obtain ⟨found, hfound, hexceeded⟩ := bind_eq_ok.mp hexceeded
  obtain ⟨rest, hrest, hexceeded⟩ := bind_eq_ok.mp hexceeded
  obtain ⟨exceeds, hexceeds, hfound⟩ := bind_eq_ok.mp hfound
  obtain rfl := Except.ok.inj hexceeded
  cases exceeds with
  | false => exact hexceeds
  | true =>
      obtain rfl := Except.ok.inj hfound
      rw [if_pos rfl, List.reduceOption_cons_of_some] at hnone
      cases hnone

/-- A proposed entry: lines of the strategy, none of them a rounding line, and at most one
rounding line, within the limit of the entry. -/
structure Proposed (lines : List ProposedLine) : Prop where
  single : (lines.filter (·.isRounding)).length ≤ 1
  last : ∃ specs new, lines = specs ++ new ∧ (∀ line ∈ specs, line.isRounding = false) ∧
    ∀ line ∈ new, line.isRounding = true
  within : ∀ line ∈ lines, line.isRounding = true →
    Decimal.less (maxAllowed (lines.filter (!·.isRounding)).length) line.amount = .ok false

/-- The stages of a valid proposal. -/
theorem stages_of_propose (h : propose env ref strategy = .ok (.ok entry)) :
    ∃ specs, strategy.lineSpecs ref = .ok specs ∧ validateNoRoundingLines specs = none ∧
      (resolveAccounts ref specs).2 = [] ∧
      balanceAndRound env ref (resolveAccounts ref specs).1 = .ok (entry.lines, []) ∧
      validateRoundingInvariants entry.lines = .ok [] := by
  unfold propose at h
  split at h
  · cases h
  · cases h
  · rename_i specs _ hspecs
    split at h
    · cases h
    · rename_i hnone
      dsimp only at h
      split at h
      · cases h
      · split at h
        · cases h
        · rename_i haccounts
          split at h
          · cases h
          · obtain ⟨⟨balanced, errors⟩, hbalanced, h⟩ := bind_eq_ok.mp h
            dsimp only at h
            split at h
            · cases h
            · rename_i herrors
              obtain ⟨roundingErrors, hrounding, h⟩ := bind_eq_ok.mp h
              split at h
              · cases h
              · rename_i hempty
                split at h
                · obtain rfl := Except.ok.inj (Except.ok.inj h)
                  obtain rfl : errors = [] := by simpa using herrors
                  obtain rfl : roundingErrors = [] := by simpa using hempty
                  exact ⟨specs, hspecs, hnone, by simpa using haccounts, hbalanced, hrounding⟩
                · cases h

/-- **What `propose` guarantees.** -/
theorem proposed_of_propose (h : propose env ref strategy = .ok (.ok entry)) :
    Proposed entry.lines := by
  obtain ⟨specs, -, hnone, -, hbalanced, hrounding⟩ := stages_of_propose h
  obtain ⟨new, hnew, hlast⟩ := balanceAndRound_eq_ok hbalanced
  obtain ⟨hsingle, hwithin⟩ := validated_of_nil hrounding
  refine ⟨hsingle, ⟨_, new, hnew, fun line hline => ?_, hlast⟩, hwithin⟩
  obtain ⟨spec, hspec, heq⟩ := isRounding_of_resolved hline
  rw [heq]
  exact not_isRounding_of_validated hnone spec hspec

end Laws

end FinanceAccounting.PostingStrategy
