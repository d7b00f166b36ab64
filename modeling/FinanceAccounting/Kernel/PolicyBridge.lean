import FinanceAccounting.Kernel.ModulePosting
import FinanceAccounting.Library.Rounding

/-! # From a policy to the lines of an intent

A policy of a module is found by the type of an event and by what its payload says, its guards
reject or block, and the line mappings that are registered with it become the lines of an intent:
the amount of the event, an amount from the payload (on the other side when it is negative, no line
when it is zero), or a line for each item of a collection.  A ledger effect without mappings gets a
debit and a credit.

A payload value that reads as a number is a `number`, whether it is one or its text. -/

namespace FinanceAccounting.PolicyBridge

open Journal (LineSide)

/-! ### Policies -/

/-- What `_extract_amount` finds in an item: an amount, a text that is none, or nothing. -/
inductive ItemAmount where
  | own (x : ℚ)
  | unreadable
  | absent
deriving DecidableEq, Repr

inductive PayloadValue where
  | null
  | flag (b : Bool)
  | number (x : ℚ)
  | text (s : String)
  | items (xs : List ItemAmount)
deriving DecidableEq, Repr

/-- A payload, as a dict. -/
abbrev Payload := String → Option PayloadValue

/-- `_get_payload_value`. -/
def Payload.value (payload : Payload) (field : String) : PayloadValue :=
  (payload field).getD .null

/-- The clauses that triggers have: a field is missing, has a text, or is a number on one side of a
bound. -/
inductive WhereClause where
  | absent (field : String)
  | equals (field value : String)
  | gt (field : String) (bound : ℚ)
  | lt (field : String) (bound : ℚ)
deriving DecidableEq, Repr

structure ModuleLineMapping where
  role : String
  side : LineSide
  ledger : String := "GL"
  fromContext : Option String := none
  foreach : Option String := none
deriving DecidableEq, Repr

structure LedgerEffect where
  ledger : String
  debitRole : String
  creditRole : String
deriving DecidableEq, Repr

inductive GuardType where
  | reject
  | block
deriving DecidableEq, Repr

/-- The expressions that guards have: a number of the payload is compared, or a field is there. -/
inductive GuardExpression where
  | le (field : String) (bound : ℚ)
  | lt (field : String) (bound : ℚ)
  | eq (field : String) (bound : ℚ)
  | gt (field : String) (bound : ℚ)
  | isTrue (field : String)
deriving DecidableEq, Repr

structure GuardCondition where
  guardType : GuardType := .reject
  expression : GuardExpression
  reasonCode : String
deriving DecidableEq, Repr

/-- A policy with the line mappings that are registered with it. -/
structure AccountingPolicy where
  name : String
  eventType : String
  clauses : List WhereClause := []
  ledgerEffects : List LedgerEffect
  guards : List GuardCondition := []
  lineMappings : List ModuleLineMapping
deriving DecidableEq, Repr

/-! ### Selection and guards -/

/-- `_matches_where` for one clause; no text that a clause asks for reads as a number. -/
def WhereClause.holds (payload : Payload) : WhereClause → Bool
  | .absent field => payload.value field = .null
  | .equals field value => match payload.value field with
      | .null => value = "None"
      | .flag true => value = "True"
      | .flag false => value = "False"
      | .text s => value = s
      | _ => false
  | .gt field bound => match payload.value field with
      | .number x => bound < x
      | _ => false
  | .lt field bound => match payload.value field with
      | .number x => x < bound
      | _ => false

/-- `find_for_event`: a policy whose clauses hold goes before one without clauses.  Of the policies
of the modules no two with clauses match one event. -/
def findForEvent (policies : List AccountingPolicy) (eventType : String) (payload : Payload) :
    Option AccountingPolicy :=
  let found := policies.filter (·.eventType = eventType)
  match found.find? fun p => p.clauses ≠ [] && p.clauses.all (·.holds payload) with
  | some p => some p
  | none => found.find? (·.clauses = [])

/-- A comparison with what is no number is false. -/
def GuardExpression.holds (payload : Payload) : GuardExpression → Bool
  | .le field bound => match payload.value field with
      | .number x => x ≤ bound
      | _ => false
  | .lt field bound => match payload.value field with
      | .number x => x < bound
      | _ => false
  | .eq field bound => match payload.value field with
      | .number x => x = bound
      | _ => false
  | .gt field bound => match payload.value field with
      | .number x => bound < x
      | _ => false
  | .isTrue field => match payload.value field with
      | .null => false
      | .flag b => b
      | .number x => x ≠ 0
      | .text s => s ≠ ""
      | .items xs => !xs.isEmpty

/-- The first guard that fires. -/
def AccountingPolicy.firedGuard (p : AccountingPolicy) (payload : Payload) :
    Option GuardCondition :=
  p.guards.find? (·.expression.holds payload)

/-! ### Lines -/

structure IntentLine where
  accountRole : String
  side : LineSide
  amount : ℚ
  currency : String
deriving DecidableEq, Repr

structure LedgerIntent where
  ledgerId : String
  lines : List IntentLine
deriving DecidableEq, Repr

inductive BridgeError where
  | valueError (message : String)
  | invalidOperation
  | typeError
deriving DecidableEq, Repr

/-- `_create_intent_line`: no amount is negative. -/
def createIntentLine (role : String) (side : LineSide) (amount : ℚ) (currency : String) :
    Except BridgeError IntentLine :=
  if amount < 0 then .error (.valueError "Amount must be non-negative")
  else .ok ⟨role, side, amount, currency⟩

/-- `_extract_amount`. -/
def extractAmount (item : ItemAmount) (default : ℚ) : Except BridgeError ℚ :=
  match item with
  | .own x => .ok x
  | .unreadable => .error .invalidOperation
  | .absent => .ok default

variable (ctx : Decimal.Context)

/-- The lines of a mapping. -/
def mappingLines (mapping : ModuleLineMapping) (amount : ℚ) (currency : String)
    (payload : Payload) : Except BridgeError (List IntentLine) :=
  let own := (createIntentLine mapping.role mapping.side amount currency).map ([·])
  match mapping.foreach, mapping.fromContext with
  | some field, _ =>
      match (payload field).getD (.items []) with
      | .items [] => own
      | .items xs => xs.mapM fun item => do
          createIntentLine mapping.role mapping.side (← extractAmount item amount) currency
      | .text s =>
          if s = "" then own
          else s.toList.mapM fun _ => createIntentLine mapping.role mapping.side amount currency
      | _ => .error .typeError
  | none, some field =>
      match payload.value field with
      | .null => .ok []
      | .number x =>
          if 0 < x then (createIntentLine mapping.role mapping.side x currency).map ([·])
          else if x < 0 then
            (createIntentLine mapping.role (mapping.side.flip) (ctx.round |x|) currency).map ([·])
          else .ok []
      | _ => .error .invalidOperation
  | none, none => own

/-- `_build_intent_lines`. -/
def buildIntentLines (mappings : List ModuleLineMapping) (amount : ℚ) (currency : String)
    (payload : Payload) : Except BridgeError (List IntentLine) :=
  (mappings.mapM fun m => mappingLines ctx m amount currency payload).map List.flatten

end FinanceAccounting.PolicyBridge
