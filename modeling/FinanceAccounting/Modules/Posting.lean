import FinanceAccounting.Kernel.PolicyBridge

/-! # What a module posts

A module service hands an event to the kernel: a type, a payload, an amount and a currency.  The
policy of the event and its line mappings decide what is posted; whether the kernel lets the event
through (the actor, the period, the roles of the accounts, the writing itself) is a verdict from
outside.  The books are the posted lines on account roles, as their columns keep them, and the
balance of a role is the sum of its debits less its credits. -/

namespace FinanceAccounting.Modules

open Journal (LineSide)
open ModulePosting (ModulePostingStatus)
open PolicyBridge

/-! ### Events and verdicts -/

structure Event where
  eventType : String
  payload : Payload
  amount : ℚ
  currency : String

/-- The payload with these entries. -/
def payloadOf (entries : List (String × PayloadValue)) : Payload := fun field =>
  entries.lookup field

/-- A text, or `None`. -/
def optionalText (s : Option String) : PayloadValue := (s.map .text).getD .null

/-- An entry that is left out without an amount. -/
def optionalAmount (field : String) (x : Option ℚ) : List (String × PayloadValue) :=
  (x.map fun x => (field, PayloadValue.number x)).toList

def optionalEntry (field : String) (x : Option String) : List (String × PayloadValue) :=
  (x.map fun x => (field, PayloadValue.text x)).toList

/-- The lines of an invoice, when it has any. -/
def optionalItems (lines : List ItemAmount) : List (String × PayloadValue) :=
  if lines = [] then [] else [("invoice_lines", .items lines)]

/-- The guard against an amount that is not positive. -/
def invalidAmount (field : String) : GuardCondition where
  expression := .le field 0
  reasonCode := "INVALID_AMOUNT"

/-- What the checks of the kernel besides the policy make of an event; a status other than
`posted` ends the call without an entry. -/
inductive Verdict where
  | proceeds
  | answers (status : ModulePostingStatus) (h : status ≠ .posted)
  | raises

/-- A posted line. -/
structure LedgerLine where
  ledger : String
  role : String
  side : LineSide
  amount : ℚ
  currency : String
deriving DecidableEq, Repr

/-- What a call of `post_event` comes to. -/
inductive Posting where
  | posted (lines : List LedgerLine)
  | answered (status : ModulePostingStatus)
  | raised
deriving DecidableEq, Repr

/-- `is_success`. -/
def Posting.isSuccess : Posting → Bool
  | .posted _ => true
  | .answered status => status = .posted || status = .alreadyPosted
  | .raised => false

def Posting.lines : Posting → List LedgerLine
  | .posted lines => lines
  | _ => []

/-! ### From the event to the lines -/

/-- The nine places of an amount column. -/
def stored (x : ℚ) : ℚ := Decimal.quantize 9 x

def toLedgerLine (ledger : String) (line : PolicyBridge.IntentLine) : LedgerLine where
  ledger := ledger
  role := line.accountRole
  side := line.side
  amount := stored line.amount
  currency := line.currency

section Interpretation

variable (ctx : Decimal.Context)

/-- The lines of a ledger effect: of its mappings, or a debit and a credit. -/
def effectLines (p : AccountingPolicy) (e : Event) (effect : LedgerEffect) :
    Except BridgeError (List PolicyBridge.IntentLine) :=
  match p.lineMappings.filter (·.ledger = effect.ledger) with
  | [] => do
      let debit ← createIntentLine effect.debitRole .debit e.amount e.currency
      let credit ← createIntentLine effect.creditRole .credit e.amount e.currency
      return [debit, credit]
  | mappings => buildIntentLines ctx mappings e.amount e.currency e.payload

/-- `build_accounting_intent`: the ledgers that have lines. -/
def ledgerIntents (p : AccountingPolicy) (e : Event) :
    Except BridgeError (List PolicyBridge.LedgerIntent) :=
  (p.ledgerEffects.mapM fun effect =>
    (effectLines ctx p e effect).map (PolicyBridge.LedgerIntent.mk effect.ledger)).map
      (·.filter (·.lines ≠ []))

/-- R4, with the sums of the context. -/
def balanced (intent : PolicyBridge.LedgerIntent) : Bool :=
  let total (side : LineSide) :=
    ctx.total ((intent.lines.filter (·.side = side)).map (·.amount))
  total .debit = total .credit

/-- The event under its policy. -/
def interpret (policies : List AccountingPolicy) (e : Event) : Posting :=
  match findForEvent policies e.eventType e.payload with
  | none => .answered .profileNotFound
  | some p =>
      match p.firedGuard e.payload with
      | some g => .answered (if g.guardType = .reject then .guardRejected else .guardBlocked)
      | none =>
          match ledgerIntents ctx p e with
          | .error (.valueError _) => .answered .intentFailed
          | .error _ => .raised
          | .ok [] => .answered .intentFailed
          | .ok intents =>
              if intents.all (balanced ctx) then
                .posted (intents.flatMap fun i => i.lines.map (toLedgerLine i.ledgerId))
              else .answered .postingFailed

/-- `post_event`. -/
def postEvent (policies : List AccountingPolicy) (verdict : Verdict) (e : Event) : Posting :=
  match verdict with
  | .proceeds => interpret ctx policies e
  | .answers status _ => .answered status
  | .raises => .raised

end Interpretation

section Posted

variable {ctx : Decimal.Context} {policies : List AccountingPolicy} {e : Event}
variable {verdict : Verdict} {lines : List LedgerLine}

/-- The interpretation of an event says "posted" only with its lines. -/
theorem interpret_ne_answered_posted : interpret ctx policies e ≠ .answered .posted := by
  intro h
  unfold interpret at h
  repeat' split at h
  all_goals simp_all

theorem postEvent_ne_answered_posted :
    postEvent ctx policies verdict e ≠ .answered .posted := by
  intro h
  cases verdict with
  | proceeds => exact interpret_ne_answered_posted h
  | answers status hne =>
      rw [postEvent, Posting.answered.injEq] at h
      exact hne h
  | raises => cases h

/-- An event that is posted went through, and its policy made the lines. -/
theorem interpret_of_posted (h : postEvent ctx policies verdict e = .posted lines) :
    interpret ctx policies e = .posted lines := by
  cases verdict with
  | proceeds => exact h
  | answers status hne => cases h
  | raises => cases h

end Posted

/-! ### Balances -/

def LedgerLine.signed (l : LedgerLine) : ℚ :=
  match l.side with
  | .debit => l.amount
  | .credit => -l.amount

/-- Debits less credits of a role in a ledger and a currency. -/
def balance (ledger role currency : String) (lines : List LedgerLine) : ℚ :=
  ((lines.filter fun l => l.ledger = ledger ∧ l.role = role ∧ l.currency = currency).map
    (·.signed)).sum

section Balance

variable {ledger role currency : String} {xs ys : List LedgerLine}

@[simp] theorem balance_nil : balance ledger role currency [] = 0 := rfl

@[simp] theorem balance_cons {x : LedgerLine} : balance ledger role currency (x :: xs) =
    (if x.ledger = ledger ∧ x.role = role ∧ x.currency = currency then x.signed else 0) +
      balance ledger role currency xs := by
  unfold balance
  by_cases h : x.ledger = ledger ∧ x.role = role ∧ x.currency = currency
  · simp [h]
  · simp [h]

@[simp] theorem balance_append : balance ledger role currency (xs ++ ys) =
    balance ledger role currency xs + balance ledger role currency ys := by
  simp [balance]

end Balance

/-! ### Policies with one debit and one credit -/

/-- A policy whose event debits one role of the general ledger and credits another. -/
def pairPolicy (name eventType debitRole creditRole : String) (clauses : List WhereClause)
    (guards : List GuardCondition) : AccountingPolicy where
  name := name
  eventType := eventType
  clauses := clauses
  ledgerEffects := [⟨"GL", debitRole, creditRole⟩]
  guards := guards
  lineMappings := [
    { role := debitRole, side := .debit },
    { role := creditRole, side := .credit }]

section Pair

variable {ctx : Decimal.Context} {policies : List AccountingPolicy} {e : Event}
variable {name eventType debitRole creditRole : String} {clauses : List WhereClause}
variable {guards : List GuardCondition}

/-- The lines of such an event. -/
def pairLines (debitRole creditRole : String) (amount : ℚ) (currency : String) : List LedgerLine :=
  [⟨"GL", debitRole, .debit, stored amount, currency⟩,
    ⟨"GL", creditRole, .credit, stored amount, currency⟩]

theorem createIntentLine_of_nonneg {role : String} {side : LineSide} {amount : ℚ}
    {currency : String} (h : 0 ≤ amount) :
    createIntentLine role side amount currency = .ok ⟨role, side, amount, currency⟩ :=
  if_neg (not_lt.mpr h)

theorem createIntentLine_of_neg {role : String} {side : LineSide} {amount : ℚ}
    {currency : String} (h : amount < 0) : createIntentLine role side amount currency =
      .error (.valueError "Amount must be non-negative") :=
  if_pos h

theorem ledgerIntents_pair : ledgerIntents ctx
    (pairPolicy name eventType debitRole creditRole clauses guards) e =
      if 0 ≤ e.amount then .ok [⟨"GL", [⟨debitRole, .debit, e.amount, e.currency⟩,
        ⟨creditRole, .credit, e.amount, e.currency⟩]⟩]
      else .error (.valueError "Amount must be non-negative") := by
  rcases lt_or_ge e.amount 0 with hneg | hnonneg
  · rw [if_neg (not_le.mpr hneg)]
    simp [ledgerIntents, effectLines, buildIntentLines, mappingLines, pairPolicy,
      createIntentLine_of_neg hneg, Except.map, bind, Except.bind]
  · rw [if_pos hnonneg]
    simp [ledgerIntents, effectLines, buildIntentLines, mappingLines, pairPolicy,
      createIntentLine_of_nonneg hnonneg, Except.map, bind, Except.bind, pure, Except.pure]

/-- **What such an event posts**: its amount on both roles, unless a guard fires or the amount is
negative. -/
theorem interpret_pair (hfound : findForEvent policies e.eventType e.payload =
      some (pairPolicy name eventType debitRole creditRole clauses guards))
    (hguard : (pairPolicy name eventType debitRole creditRole clauses guards).firedGuard
      e.payload = none) :
    interpret ctx policies e = if 0 ≤ e.amount then
      .posted (pairLines debitRole creditRole e.amount e.currency)
    else .answered .intentFailed := by
  unfold interpret
  rw [hfound]
  dsimp only
  rw [hguard, ledgerIntents_pair]
  by_cases h : 0 ≤ e.amount
  · simp [h, balanced, pairLines, toLedgerLine]
  · simp [h]

end Pair

end FinanceAccounting.Modules
