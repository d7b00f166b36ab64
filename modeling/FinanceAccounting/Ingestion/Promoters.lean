import FinanceAccounting.Ingestion.PromotionIsolation
import FinanceAccounting.Kernel.LedgerBalance
import FinanceAccounting.Kernel.Parties
import FinanceAccounting.Reporting.Statements

/-! # Promoters

The promoters of `default_promoter_registry`.  Accounts, parties, vendors and customers become rows
of their tables, and a journal is posted; items, locations and opening balances are not implemented.
A batch hands its keywords to every promoter, but only those of accounts and journals look at them.

A flush is refused by a unique column or by what a column takes; the uuids that the rows of a
promotion draw are given. -/

namespace FinanceAccounting.Ingestion

open Parties (Party PartyStatus PartyType)
open Reporting (NormalBalance)

/-! ### Live tables -/

/-- A row of `accounts`. -/
structure AccountRow extends FinanceAccounting.Account where
  id : UUID
  name : String
  normalBalance : NormalBalance
  parentId : Option UUID
  currency : Option String
  createdById : UUID

/-- A row of `parties`. -/
structure PartyRow extends Party where
  createdById : UUID

/-- A row of `ap_vendor_profiles`. -/
structure VendorProfile where
  id : UUID
  vendorId : UUID
  code : String
  name : String
  taxId : Option String
  paymentTermsDays : ℤ
  defaultPaymentMethod : String
  defaultGlAccountCode : Option String
  isActive : Bool
  is1099Eligible : Bool
  createdById : UUID

/-- A row of `ar_customer_profiles`. -/
structure CustomerProfile where
  id : UUID
  customerId : UUID
  code : String
  name : String
  creditLimit : Option Decimal
  paymentTermsDays : ℤ
  defaultGlAccountCode : Option String
  taxExempt : Bool
  taxId : Option String
  isActive : Bool
  dunningLevel : ℤ
  createdById : UUID

structure LiveTables where
  accounts : List AccountRow
  parties : List PartyRow
  vendors : List VendorProfile
  customers : List CustomerProfile
  kernel : ModulePosting.Tables

/-- What the columns of the tables take, and the text of an exception. -/
structure RowChecks where
  account : AccountRow → Bool
  party : PartyRow → Bool
  vendor : VendorProfile → Bool
  customer : CustomerProfile → Bool
  errorText : Raised → String

/-- `session.add` and `session.flush` of a row. -/
def insertRow {ρ : Type} (checks : RowChecks) (id : ρ → UUID) (code : ρ → String)
    (takes : ρ → Bool) (rows : List ρ) (row : ρ) : Except String (List ρ) :=
  if !takes row then .error (checks.errorText .statementError)
  else if rows.any fun r => id r = id row || code r = code row then
    .error (checks.errorText .integrityError)
  else .ok (rows ++ [row])

/-! ### Fields -/

section Fields

variable (b : Builtins) (checks : RowChecks) (d : Dict) (key : String)

/-- `_str`. -/
def strField : String := if (d.get key).isNone then "" else strip (b.text (d.get key))

/-- `a or b` of texts. -/
def orText (s t : String) : String := if s = "" then t else s

/-- `_optional_str`. -/
def optionalStr : Option String :=
  if blank (d.get key) then none else some (strip (b.text (d.get key)))

/-- `_optional_bool`. -/
def optionalBool (default : Bool) : Bool :=
  match d.get key with
  | .none => default
  | .bool c => c
  | .str s => ["true", "1", "yes"].contains (b.lower (strip s))
  | v => v.truthy

/-- `_optional_int`, without its default. -/
def optionalInt : Except String (Option ℤ) :=
  match d.get key with
  | .none => .ok none
  | .int i => .ok (some i)
  | .bool c => .ok (some (if c then 1 else 0))
  | v =>
      match b.int v with
      | none => .ok none
      | some r => (r.map some).mapError checks.errorText

/-- `_optional_decimal`; a text that is no number raises an `InvalidOperation`. -/
def optionalDecimal : Except String (Option Decimal) :=
  match d.get key with
  | .none => .ok none
  | .decimal x => .ok (some x)
  | v =>
      match b.decimal (b.text v) with
      | some x => .ok (some x)
      | none => .error (checks.errorText (.decimalSignal .invalidOperation))

/-- `_list_str`. -/
def listStr : Option (List String) :=
  match d.get key with
  | .list xs =>
      some (((xs.filter (!·.isNone)).map fun x => strip (b.text x)).filter (· ≠ ""))
  | _ => none

end Fields

section Promoters

variable (b : Builtins) (checks : RowChecks) (uuid4 : ℕ → UUID)

/-- A promoter that creates a row: the entity and the tables with it, or `none` where its code is
missing. -/
def creating (missing : String) (live : LiveTables) :
    Except String (Option (UUID × LiveTables)) →
      Except String PromoteResult × LiveTables × TransactionEffect
  | .error message => (.error message, live, .inside)
  | .ok none => (.ok { success := false, error := some missing }, live, .inside)
  | .ok (some (entityId, live')) =>
      (.ok { success := true, entityId := some entityId }, live', .inside)

/-! ### Accounts -/

/-- The values of `AccountType`, and `_QB_TYPE_TO_ACCOUNT_TYPE`. -/
def accountTypes : List (String × AccountType) :=
  [("asset", .asset), ("liability", .liability), ("equity", .equity), ("revenue", .revenue),
    ("expense", .expense), ("bank", .asset), ("accounts receivable", .asset),
    ("other current asset", .asset), ("other current assets", .asset), ("fixed asset", .asset),
    ("fixed assets", .asset), ("other asset", .asset), ("other assets", .asset),
    ("accounts payable", .liability), ("credit card", .liability),
    ("other current liability", .liability), ("other current liabilities", .liability),
    ("long term liability", .liability), ("long term liabilities", .liability),
    ("income", .revenue), ("other income", .revenue), ("cost of goods sold", .expense),
    ("expenses", .expense), ("other expense", .expense)]

def parseAccountType (raw : String) : AccountType :=
  (accountTypes.lookup (b.lower (strip raw))).getD .asset

def defaultNormalBalance : AccountType → NormalBalance
  | .liability | .equity | .revenue => .credit
  | .asset | .expense => .debit

/-- `_account_type_and_normal_balance_from_code`; a digit that `int` does not read raises. -/
def fromCode (code : String) : Except String (Option (AccountType × NormalBalance)) :=
  match (strip code).toList with
  | [] => .ok none
  | 'S' :: 'L' :: '-' :: _ => .ok (some (.asset, .debit))
  | c :: _ =>
      if !b.isdigit (String.singleton c) then .ok none
      else
        match b.int (.str (String.singleton c)) with
        | none => .error (checks.errorText (.valueError "invalid literal for int() with base 10"))
        | some (.error e) => .error (checks.errorText e)
        | some (.ok 1) => .ok (some (.asset, .debit))
        | some (.ok 2) => .ok (some (.liability, .credit))
        | some (.ok 3) => .ok (some (.equity, .credit))
        | some (.ok 4) => .ok (some (.revenue, .credit))
        | some (.ok 5) | some (.ok 6) => .ok (some (.expense, .debit))
        | some (.ok _) => .ok none

/-- The keywords for accounts: the codes and the names of a chart, and the ids of its codes. -/
structure AccountTargets where
  keyToCode : Option (String → Option String) := none
  keyToName : Option (String → Option String) := none
  idForCode : Option (String → Option UUID) := none

/-- `d.get(name) or d.get(code)`, if it is a text with content. -/
def targetText (d : String → Option String) (name code : String) : Option String :=
  (d name).filter (· ≠ "") <|> (d code).filter (· ≠ "")

def cut50 (s : String) : String := String.ofList (s.toList.take 50)

/-- The code, the name and the id of the chart for an account. -/
def AccountTargets.target (k : AccountTargets) (code name : String) :
    Option (String × String × Option UUID) :=
  match k.keyToCode, k.idForCode with
  | some codes, some ids =>
      (targetText codes name code).map fun target =>
        (cut50 target, (k.keyToName.bind (targetText · name code)).getD name, ids (cut50 target))
  | _, _ => none

/-- The row of an account; `none` where its code is missing. -/
def accountRow (targets : Option AccountTargets) (actorId : UUID) (mapped : Dict) :
    Except String (Option AccountRow) :=
  let code := strField b mapped "code"
  let name := strField b mapped "name"
  if code = "" then .ok none
  else
    let (target, name, id) := (targets.bind (·.target code name)).getD (code, name, none)
    let code := cut50 target
    (fromCode b checks code).map fun derived =>
      let (accountType, normalBalance) := derived.getD <|
        let accountType := parseAccountType b (orText (strField b mapped "account_type") "asset")
        (accountType,
          (([("debit", .debit), ("credit", .credit)] : List (String × NormalBalance)).lookup
            (b.lower (strField b mapped "normal_balance"))).getD (defaultNormalBalance accountType))
      some {
        id := id.getD (uuid4 0)
        code := code
        name := orText name code
        accountType := accountType
        normalBalance := normalBalance
        isActive := optionalBool b mapped "is_active" true
        tags := listStr b mapped "tags"
        parentId :=
          match mapped.get "parent_id" with
          | .str s => b.uuid s
          | .uuid u => some u
          | _ => none
        currency := optionalStr b mapped "currency"
        createdById := actorId }

/-- `AccountPromoter`; the keywords come with a batch only. -/
def accountPromoter (targets : AccountTargets) : EntityPromoter LiveTables where
  checkDuplicate mapped live :=
    let code := strField b mapped "code"
    .ok (code ≠ "" && live.accounts.any (·.code = code))
  promote context actorId mapped live := creating "Missing code" live do
    match ← accountRow b checks uuid4 (context.map fun _ => targets) actorId mapped with
    | none => return none
    | some row =>
        let rows ← insertRow checks (·.id) (·.code) checks.account live.accounts row
        return some (row.id, { live with accounts := rows })

/-! ### Parties, vendors and customers -/

def partyTypes : List (String × PartyType) :=
  [("customer", .customer), ("supplier", .supplier), ("employee", .employee),
    ("intercompany", .intercompany), ("system", .system),
    ("migration_service", .migrationService)]

def partyStatuses : List (String × PartyStatus) :=
  [("active", .active), ("frozen", .frozen), ("closed", .closed)]

def addParty (live : LiveTables) (row : PartyRow) : Except String LiveTables :=
  (insertRow checks (·.id) (·.partyCode) checks.party live.parties row).map fun rows =>
    { live with parties := rows }

/-- `PartyPromoter`. -/
def partyPromoter : EntityPromoter LiveTables where
  checkDuplicate mapped live :=
    let code := orText (strField b mapped "party_code") (strField b mapped "code")
    .ok (code ≠ "" && live.parties.any (·.partyCode = code))
  promote _ actorId mapped live := creating "Missing party_code or code" live do
    let code := orText (strField b mapped "party_code") (strField b mapped "code")
    if code = "" then return none
    let live ← addParty checks live {
      id := uuid4 0
      partyCode := code
      partyType := (partyTypes.lookup (b.lower (strField b mapped "party_type"))).getD .supplier
      name := orText (strField b mapped "name") code
      status := (partyStatuses.lookup (b.lower (strField b mapped "status"))).getD .active
      isActive := optionalBool b mapped "is_active" true
      creditLimit := ← optionalDecimal b checks mapped "credit_limit"
      creditCurrency := optionalStr b mapped "credit_currency"
      paymentTermsDays := ← optionalInt b checks mapped "payment_terms_days"
      taxId := optionalStr b mapped "tax_id"
      defaultCurrency := optionalStr b mapped "default_currency"
      externalRef := optionalStr b mapped "external_ref"
      createdById := actorId }
    return some (uuid4 0, live)

/-- The code of a vendor or a customer. -/
def profileCode (mapped : Dict) : String :=
  orText (strField b mapped "code") (strField b mapped "party_code")

/-- `_get_or_create_party`. -/
def getOrCreateParty (mapped : Dict) (live : LiveTables) (row : Except String PartyRow) :
    Except String (UUID × LiveTables) := do
  match live.parties.find? (·.partyCode = profileCode b mapped) with
  | some party => return (party.id, live)
  | none =>
      let row ← row
      return (row.id, ← addParty checks live row)

/-- `VendorPromoter`. -/
def vendorPromoter : EntityPromoter LiveTables where
  checkDuplicate mapped live :=
    .ok (profileCode b mapped ≠ "" && live.vendors.any (·.code = profileCode b mapped))
  promote _ actorId mapped live := creating "Missing code or party_code" live do
    let code := profileCode b mapped
    let name := orText (strField b mapped "name") code
    if code = "" then return none
    let (vendorId, live) ← getOrCreateParty b checks mapped live do
      return {
        id := uuid4 0
        partyCode := code
        partyType := .supplier
        name := name
        taxId := optionalStr b mapped "tax_id"
        paymentTermsDays := (← optionalInt b checks mapped "payment_terms_days").getD 30
        createdById := actorId }
    let rows ← insertRow checks (·.id) (·.code) checks.vendor live.vendors {
      id := uuid4 1
      vendorId := vendorId
      code := code
      name := name
      taxId := optionalStr b mapped "tax_id"
      paymentTermsDays := (← optionalInt b checks mapped "payment_terms_days").getD 30
      defaultPaymentMethod := orText (strField b mapped "default_payment_method") "ach"
      defaultGlAccountCode := optionalStr b mapped "default_gl_account_code"
      isActive := optionalBool b mapped "is_active" true
      is1099Eligible := optionalBool b mapped "is_1099_eligible" false
      createdById := actorId }
    return some (uuid4 1, { live with vendors := rows })

/-- `CustomerPromoter`. -/
def customerPromoter : EntityPromoter LiveTables where
  checkDuplicate mapped live :=
    .ok (profileCode b mapped ≠ "" && live.customers.any (·.code = profileCode b mapped))
  promote _ actorId mapped live := creating "Missing code or party_code" live do
    let code := profileCode b mapped
    let name := orText (strField b mapped "name") code
    if code = "" then return none
    let (customerId, live) ← getOrCreateParty b checks mapped live do
      return {
        id := uuid4 0
        partyCode := code
        partyType := .customer
        name := name
        creditLimit := ← optionalDecimal b checks mapped "credit_limit"
        creditCurrency := optionalStr b mapped "credit_currency"
        paymentTermsDays := (← optionalInt b checks mapped "payment_terms_days").getD 30
        taxId := optionalStr b mapped "tax_id"
        createdById := actorId }
    let rows ← insertRow checks (·.id) (·.code) checks.customer live.customers {
      id := uuid4 1
      customerId := customerId
      code := code
      name := name
      creditLimit := ← optionalDecimal b checks mapped "credit_limit"
      paymentTermsDays := (← optionalInt b checks mapped "payment_terms_days").getD 30
      defaultGlAccountCode := optionalStr b mapped "default_gl_account_code"
      taxExempt := optionalBool b mapped "tax_exempt" false
      taxId := optionalStr b mapped "tax_id"
      isActive := optionalBool b mapped "is_active" true
      dunningLevel := (← optionalInt b checks mapped "dunning_level").getD 0
      createdById := actorId }
    return some (uuid4 1, { live with customers := rows })

/-! ### Journals and what is not implemented -/

/-- `JournalPromoter`, with what the service is given for it. -/
def journalPromoter : Option JournalPosting → EntityPromoter LiveTables
  | none =>
      { checkDuplicate := fun _ _ => .ok false
        promote := fun _ _ _ live =>
          (.ok (JournalImport.failure ("Journal promotion requires module_posting_service and " ++
            "account_key_to_role so data passes through the full posting pipeline (no bypass).")),
            live, .inside) }
  | some p =>
      { checkDuplicate := fun mapped live => p.promoter.checkDuplicate mapped live.kernel
        promote := fun context actorId mapped live =>
          let (result, kernel, effect) := p.promoter.promote context actorId mapped live.kernel
          (result, { live with kernel := kernel }, effect) }

/-- A stub. -/
def notImplemented (message : String) : EntityPromoter LiveTables where
  checkDuplicate _ _ := .ok false
  promote _ _ _ live :=
    (.ok { success := false, error := some ("Not implemented: " ++ message) }, live, .inside)

/-- What a `PromotionService` is given. -/
structure PromotionConfig where
  checks : RowChecks
  uuid4 : ℕ → UUID
  targets : AccountTargets := {}
  posting : Option JournalPosting := none

/-- `default_promoter_registry`. -/
def defaultPromoterRegistry (c : PromotionConfig) (entityType : String) :
    Option (EntityPromoter LiveTables) :=
  [("party", partyPromoter b c.checks c.uuid4),
    ("account", accountPromoter b c.checks c.uuid4 c.targets),
    ("vendor", vendorPromoter b c.checks c.uuid4),
    ("customer", customerPromoter b c.checks c.uuid4),
    ("item", notImplemented "item promotion requires InventoryItemModel (inventory_items table)"),
    ("location", notImplemented
      "location promotion requires InventoryLocationModel (inventory_locations table)"),
    ("journal", journalPromoter c.posting),
    ("opening_balance", notImplemented
      "opening balance promotion requires ModulePostingService.post_event() integration")].lookup
    entityType

end Promoters

end FinanceAccounting.Ingestion
