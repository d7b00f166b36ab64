import FinanceAccounting.Ingestion.Mapping

/-! # Validators of import records

The checks of the numbers and of the journal entry of a record, and the live tables that the services
look at. -/

namespace FinanceAccounting.Ingestion

open Hashing (defaultContext)

variable (b : Builtins)

/-! ### Numbers -/

def maxDecimalDigits : ℕ := 38

def maxDecimalPlaces : ℕ := 9

/-- The errors of one number; the exponent of a number that is not finite cannot be compared. -/
def precisionErrors (fieldName : String) : Decimal → Except Raised (List ValidationError)
  | .finite _ coeff exp =>
      let digits : ℤ := Decimal.numDigits coeff
      let exceeded : ValidationError :=
        ⟨"DECIMAL_PRECISION_EXCEEDED",
          "Value at " ++ fieldName ++ " exceeds " ++ toString maxDecimalDigits ++ " digits",
          some fieldName⟩
      let scale : ValidationError :=
        ⟨"DECIMAL_SCALE_EXCEEDED",
          "Value at " ++ fieldName ++ " exceeds " ++ toString maxDecimalPlaces ++ " decimal places",
          some fieldName⟩
      .ok
        (if 0 ≤ exp then if maxDecimalDigits < digits + exp then [exceeded] else []
        else
          (if maxDecimalPlaces < -exp then [scale] else []) ++
            (if maxDecimalDigits < digits + -exp then [exceeded] else []))
  | _ => .error .typeError

/-- One field of `validate_decimal_precision`. -/
def decimalFieldErrors (record : Dict) (fieldName : String) :
    Except Raised (List ValidationError) :=
  let value := record.get fieldName
  if value.isNone then .ok []
  else
    match b.decimal (b.text value) with
    | none => .ok []
    | some d => precisionErrors fieldName d

/-- The errors of several checks, up to the first that raises. -/
def collect {α : Type} (check : α → Except Raised (List ValidationError)) (xs : List α) :
    Except Raised (List ValidationError) :=
  (xs.mapM check).map List.flatten

/-- `validate_decimal_precision`. -/
def validateDecimalPrecision (record : Dict) (decimalFields : List String) :
    Except Raised (List ValidationError) :=
  collect (decimalFieldErrors b record) decimalFields

/-! ### Journal entries -/

/-- The truth value of a value. -/
def Value.truthy : Value → Bool
  | .none => false
  | .bool c => c
  | .int i => i ≠ 0
  | .float x => x ≠ .finite 0
  | .decimal (.finite _ c _) => c ≠ 0
  | .str s => s ≠ ""
  | .list xs => !xs.isEmpty
  | .dict ms => !ms.isEmpty
  | _ => true

/-- An error about the lines of a journal entry. -/
def lineError (code message : String) : ValidationError := ⟨code, message, some "lines"⟩

/-- The totals of the lines so far, and the errors. -/
structure LineTotals where
  debit : Decimal := .finite false 0 0
  credit : Decimal := .finite false 0 0
  errors : List ValidationError := []

/-- The amount of a line; a missing one is zero. -/
def lineAmount (value : Value) : Option Decimal :=
  if value.isNone then some (.finite false 0 0) else (b.write value).toOption.bind b.decimal

/-- The amounts of a line are checked and added up. -/
def addLine (totals : LineTotals) (i : ℕ) (debit credit : Value) : Except Raised LineTotals :=
  let line := "Line " ++ toString (i + 1)
  let numeric (t : LineTotals) : LineTotals :=
    { t with errors := t.errors ++
        [lineError "INVALID_DECIMAL" (line ++ ": debit/credit must be numeric")] }
  match lineAmount b debit, lineAmount b credit with
  | some d, some c =>
      -- `or` looks at the credit only when the debit is not negative.
      match d.less (.finite false 0 0), c.less (.finite false 0 0) with
      | .error _, _ => .ok (numeric totals)
      | .ok false, .error _ => .ok (numeric totals)
      | .ok true, _ => addAmounts numeric (negative line totals) d c
      | .ok false, .ok true => addAmounts numeric (negative line totals) d c
      | .ok false, .ok false => addAmounts numeric totals d c
  | _, _ => .ok (numeric totals)
where
  negative (line : String) (t : LineTotals) : LineTotals :=
    { t with errors := t.errors ++
        [lineError "INVALID_VALUE" (line ++ ": debit and credit must be non-negative")] }
  addAmounts (numeric : LineTotals → LineTotals) (t : LineTotals) (d c : Decimal) :
      Except Raised LineTotals :=
    match t.debit.add defaultContext d with
    | .error .invalidOperation => .ok (numeric t)
    | .error signal => .error (.decimalSignal signal)
    | .ok debit =>
        match t.credit.add defaultContext c with
        | .error .invalidOperation => .ok (numeric { t with debit := debit })
        | .error signal => .error (.decimalSignal signal)
        | .ok credit => .ok { t with debit := debit, credit := credit }

/-- One line of a journal entry. -/
def validateLine (totals : LineTotals) (i : ℕ) : Value → Except Raised LineTotals
  | .dict line =>
      let errors :=
        if blank (Dict.get line "account") then
          [lineError "MISSING_REQUIRED_FIELD"
            ("Line " ++ toString (i + 1) ++ " must have 'account'")]
        else []
      addLine b { totals with errors := totals.errors ++ errors } i (Dict.get line "debit")
        (Dict.get line "credit")
  | _ =>
      .ok { totals with errors := totals.errors ++
        [lineError "INVALID_TYPE" ("Line " ++ toString (i + 1) ++ " must be an object")] }

/-- The lines of a journal entry, from an index on. -/
def validateLines (totals : LineTotals) (i : ℕ) : List Value → Except Raised LineTotals
  | [] => .ok totals
  | line :: lines =>
      match validateLine b totals i line with
      | .error e => .error e
      | .ok totals => validateLines totals (i + 1) lines

/-- `validate_journal_entry`. -/
def validateJournalEntry (record : Dict) : Except Raised (List ValidationError) :=
  match record.get "lines" with
  | .list [] =>
      .ok [lineError "MISSING_REQUIRED_FIELD" "Journal entry must have at least one line"]
  | .list lines =>
      (validateLines b {} 0 lines).map fun totals =>
        if totals.errors.isEmpty && !totals.debit.numEq totals.credit then
          [lineError "UNBALANCED_ENTRY" ("Entry debits (" ++ String.ofList totals.debit.toChars ++
            ") must equal credits (" ++ String.ofList totals.credit.toChars ++ ")")]
        else totals.errors
  | _ => .ok [lineError "INVALID_TYPE" "Journal entry 'lines' must be an array"]

/-! ### Live tables -/

/-- The columns of the live tables that the services read. -/
structure Columns where
  accounts : List String
  /-- The type and the code of every party. -/
  parties : List (String × String)
  vendors : List String
  customers : List String

/-- The live tables, as the queries of the services see them. -/
structure Database (L : Type) where
  columns : L → Columns

end FinanceAccounting.Ingestion
