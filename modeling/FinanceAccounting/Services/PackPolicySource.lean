import FinanceAccounting.Config.Compiler
import FinanceAccounting.Kernel.PolicySelector

/-! # Policies from a compiled pack

`PackPolicySource.get_profile` selects a policy of a pack with filters and a cascade of its own,
copied from `PolicySelector.find_for_event`.  The copies differ in how they read a where-clause and
in what they do when the overriding policies override one another. -/

namespace FinanceAccounting.PackPolicySource

open Config (CompiledPolicy CompiledPolicyPack PyFloat Toolchain isAdmissible priorityOf)
open Hashing (PyVal)
open PolicySelector (AccountingPolicy Builtins Query SelectorError getPayloadValue isNone
  scopeSpecificity valueAt)
open Ranking (ascending descending Shared)

/-! ### Where-clauses -/

inductive WhereOp where
  | gt
  | lt
  | ge
  | le
  | eq
  | ne
deriving DecidableEq, Repr

namespace WhereOp

/-- The operators in the order of the alternatives of the pattern. -/
def alternatives : List (List Char × WhereOp) :=
  [(['>'], gt), (['<'], lt), (['>', '='], ge), (['<', '='], le), (['=', '='], eq),
    (['!', '='], ne)]

def isOrdering : WhereOp → Bool
  | eq => false
  | ne => false
  | _ => true

end WhereOp

/-- A literal of a where-expression. -/
inductive Literal where
  | bool (b : Bool)
  | int (i : ℤ)
  | float (x : PyFloat)
  | str (s : String)

/-- What a comparison may raise. -/
inductive WhereError where
  | typeError
  | valueError
  | invalidOperation
deriving DecidableEq, Repr

/-- The built-in functions that the source uses besides those of the selector: `isdigit`, and
`int` and `float` where they do not raise; and comparisons with a value that is known by the name
of its type only. -/
structure Reading extends Builtins where
  lower : String → String
  isdigit : String → Bool
  int : String → Option ℤ
  float : String → Option PyFloat
  objectCompare : WhereOp → String → Literal → Except WhereError Bool

/-- A character of an identifier. -/
def isIdentifierChar (c : Char) : Bool := c.isAlphanum || c = '_'

/-- The pattern `_EXPR_WHERE`, on a text without white space at its ends: field, operator and
literal. -/
def exprWhere (text : String) : Option (String × WhereOp × String) :=
  let root := "payload.".toList
  if root.isPrefixOf text.toList then
    let rest := text.toList.drop root.length
    let field := rest.takeWhile isIdentifierChar
    if field.head?.any fun c => !c.isDigit then
      let afterField := (rest.drop field.length).dropWhile isSpace
      (WhereOp.alternatives.findSome? fun (symbol, op) =>
        if symbol.isPrefixOf afterField then
          let literal := (afterField.drop symbol.length).dropWhile isSpace
          if !literal.isEmpty && !literal.contains '\n' then
            some (String.ofList field, op, String.ofList literal)
          else none
        else none)
    else none
  else none

/-- `_coerce_literal`; `int` refuses some texts of digits. -/
def coerceLiteral (r : Reading) (text : String) : Except WhereError Literal :=
  let s := r.lower (strip text)
  if s = "true" then .ok (.bool true)
  else if s = "false" then .ok (.bool false)
  else if r.isdigit s || (s.toList.head? = some '-' && r.isdigit (String.ofList s.toList.tail)) then
    match r.int s with
    | some i => .ok (.int i)
    | none => .error .valueError
  else
    match r.float s with
    | some x => .ok (.float x)
    | none => .ok (.str s)

/-- The exact value of a `Decimal`. -/
def ofDecimal : Decimal → PyFloat
  | .finite sign coeff exp => .finite (Decimal.finite sign coeff exp).toRat
  | .infinity sign => .infinity sign
  | .nan _ _ _ => .nan

/-- A number that an operand of a comparison is. -/
def numberOf : PyVal → Option PyFloat
  | .bool b => some (.finite (if b then 1 else 0))
  | .int i => some (.finite i)
  | .scalar (.decimal d) => some (ofDecimal d)
  | _ => none

def Literal.number : Literal → Option PyFloat
  | .bool b => some (.finite (if b then 1 else 0))
  | .int i => some (.finite i)
  | .float x => some x
  | .str _ => none

/-- `<` of numbers; with a value that is not a number it is false. -/
def lessThan : PyFloat → PyFloat → Bool
  | .finite p, .finite q => p < q
  | .finite _, .infinity negative => !negative
  | .infinity negative, .finite _ => negative
  | .infinity s, .infinity t => s && !t
  | _, _ => false

def sameNumber : PyFloat → PyFloat → Bool
  | .nan, _ => false
  | x, y => x = y

/-- An operator on two numbers. -/
def compareNumbers (op : WhereOp) (x y : PyFloat) : Bool :=
  match op with
  | .gt => lessThan y x
  | .lt => lessThan x y
  | .ge => lessThan y x || sameNumber x y
  | .le => lessThan x y || sameNumber x y
  | .eq => sameNumber x y
  | .ne => !sameNumber x y

def compareTexts (op : WhereOp) (s t : String) : Bool :=
  match op with
  | .gt => t < s
  | .lt => s < t
  | .ge => t ≤ s
  | .le => s ≤ t
  | .eq => s = t
  | .ne => s ≠ t

/-- A `Decimal` that is not a number cannot be ordered, and a signaling one not even compared. -/
def refuses (op : WhereOp) (literal : PyFloat) : PyVal → Bool
  | .scalar (.decimal (.nan _ signaling _)) => op.isOrdering || signaling
  | .scalar (.decimal _) => op.isOrdering && literal = .nan
  | _ => false

/-- `actual op literal`. -/
def compare (r : Reading) (op : WhereOp) (actual : PyVal) (literal : Literal) :
    Except WhereError Bool :=
  match actual with
  | .object typeName => r.objectCompare op typeName literal
  | _ =>
      match numberOf actual, literal.number with
      | some x, some y =>
          if refuses op y actual then .error .invalidOperation else .ok (compareNumbers op x y)
      | _, _ =>
          match actual, literal with
          | .scalar (.str s), .str t => .ok (compareTexts op s t)
          | _, _ => if op.isOrdering then .error .typeError else .ok (op = .ne)

/-- `result == expected_result`. -/
def equalsExpected (r : Reading) (result : Bool) (expected : PyVal) : Except WhereError Bool :=
  compare r .eq expected (.bool result)

/-- `_evaluate_expression_where`. -/
def evaluateExpressionWhere (r : Reading) (payload : PyVal) (fieldName : String) (op : WhereOp)
    (literalStr : String) (expected : PyVal) : Except WhereError Bool := do
  let actual := valueAt [fieldName] payload
  let literal ← coerceLiteral r literalStr
  if isNone actual && op.isOrdering then return false
  let result ← compare r op actual literal
  equalsExpected r result expected

/-- One condition of a where-clause. -/
def matchesCondition (r : Reading) (payload : PyVal) (fieldPath : String) (expected : PyVal) :
    Except WhereError Bool :=
  match exprWhere (strip fieldPath) with
  | some (fieldName, op, literal) =>
      evaluateExpressionWhere r payload fieldName op literal expected
  | none =>
      let actual := getPayloadValue payload (strip fieldPath)
      if isNone expected then .ok (isNone actual) else .ok (r.str actual = r.str expected)

/-- The conditions are looked at in order, up to the first that fails. -/
def matchesConditions (r : Reading) (payload : PyVal) :
    List (String × PyVal) → Except WhereError Bool
  | [] => .ok true
  | (fieldPath, expected) :: conditions => do
      if ← matchesCondition r payload fieldPath expected then matchesConditions r payload conditions
      else return false

/-- `_matches_where`. -/
def matchesWhere (r : Reading) (payload : PyVal) (cp : CompiledPolicy) : Except WhereError Bool :=
  matchesConditions r payload cp.trigger.conditions

/-- The policies whose where-clause matches. -/
def whereMatches (r : Reading) (payload : PyVal) :
    List CompiledPolicy → Except WhereError (List CompiledPolicy)
  | [] => .ok []
  | p :: ps => do
      let found ← matchesWhere r payload p
      let rest ← whereMatches r payload ps
      return if found then p :: rest else rest

/-! ### Precedence -/

def specificity (p : CompiledPolicy) : ℤ := scopeSpecificity p.scope

def isOverride (r : Reading) (p : CompiledPolicy) : Bool :=
  p.precedence.any fun d => r.lower d.mode = "override"

def overriddenNames (ps : List CompiledPolicy) : List String :=
  ps.flatMap fun p => (p.precedence.map (·.overrides)).getD []

/-- The candidates that `_resolve_precedence` goes on with. -/
def contenders (r : Reading) (candidates : List CompiledPolicy) : List CompiledPolicy :=
  let overrides := candidates.filter (isOverride r)
  let remaining := overrides.filter fun p => p.name ∉ overriddenNames overrides
  if overrides.isEmpty then candidates.filter (!isOverride r ·)
  else if remaining.isEmpty then candidates
  else remaining

def byName (ps : List CompiledPolicy) : List CompiledPolicy :=
  ascending (·.name) (descending priorityOf (descending specificity ps))

/-- The first of a sorted list, if it is ahead of the second. -/
def leader (key : CompiledPolicy → ℤ) : List CompiledPolicy → Option CompiledPolicy
  | p :: q :: _ => if key q < key p then some p else none
  | _ => none

/-- The two have the same priority and the same specificity. -/
def Level (p q : CompiledPolicy) : Prop := priorityOf p = priorityOf q ∧ specificity p = specificity q

instance (p q : CompiledPolicy) : Decidable (Level p q) := inferInstanceAs (Decidable (_ ∧ _))

/-- `_resolve_precedence`, after the overrides. -/
def resolveContenders (eventType : String) (ps : List CompiledPolicy) :
    Except SelectorError CompiledPolicy :=
  match ps with
  | [p] => .ok p
  | _ =>
      let bySpecificity := descending specificity ps
      match leader specificity bySpecificity with
      | some p => .ok p
      | none =>
          match leader priorityOf (descending priorityOf bySpecificity) with
          | some p => .ok p
          | none =>
              match byName ps with
              | [] => .error .indexError
              | [p] => .ok p
              | p :: q :: rest =>
                  if Level p q then
                    .error (.multiplePoliciesMatch eventType ((p :: q :: rest).map (·.name)))
                  else .ok p

/-- `_resolve_precedence`. -/
def resolvePrecedence (r : Reading) (eventType : String) (candidates : List CompiledPolicy) :
    Except SelectorError CompiledPolicy :=
  match candidates with
  | [p] => .ok p
  | _ => resolveContenders eventType (contenders r candidates)

/-! ### The source -/

/-- What the construction of an `AccountingPolicy` checks. -/
def Constructible (cp : CompiledPolicy) : Prop :=
  cp.name ≠ "" ∧ 1 ≤ cp.version ∧ cp.trigger.eventType ≠ "" ∧ cp.meaning.economicType ≠ ""

instance (cp : CompiledPolicy) : Decidable (Constructible cp) :=
  inferInstanceAs (Decidable (_ ∧ _ ∧ _ ∧ _))

/-- `policy_from_compiled`, of a policy that passes the checks. -/
def policyOf (r : Reading) (cp : CompiledPolicy) (h : Constructible cp) : AccountingPolicy where
  name := cp.name
  version := cp.version
  trigger := { eventType := cp.trigger.eventType, conditions := cp.trigger.conditions }
  effectiveFrom := cp.effectiveFrom
  effectiveTo := cp.effectiveTo
  scope := cp.scope
  precedence :=
    match cp.precedence with
    | none => {}
    | some d =>
        { mode := if r.lower d.mode = "override" then .override else .normal
          priority := d.priority
          overrides := d.overrides }
  name_ne := h.1
  version_ge := h.2.1
  eventType_ne := h.2.2.1

/-- `policy_from_compiled`. -/
def policyFromCompiled (r : Reading) (cp : CompiledPolicy) : Option AccountingPolicy :=
  if h : Constructible cp then some (policyOf r cp h) else none

inductive ProfileError where
  | selector (e : SelectorError)
  | comparison (e : WhereError)
  | valueError

def isEffectiveOn (on : Date) (p : CompiledPolicy) : Bool :=
  p.effectiveFrom ≤ on && !(p.effectiveTo.any fun effectiveTo => effectiveTo < on)

def matchesScope (scopeValue : String) (p : CompiledPolicy) : Bool :=
  if p.scope = "*" then true
  else if [':', '*'].isSuffixOf p.scope.toList then
    p.scope.toList.dropLast.isPrefixOf scopeValue.toList
  else p.scope = scopeValue

def hasWhere (p : CompiledPolicy) : Bool := !p.trigger.conditions.isEmpty

/-- The filter by where-clause. -/
def filterByWhere (r : Reading) (payload : Option PyVal) (ps : List CompiledPolicy) :
    Except WhereError (List CompiledPolicy) :=
  match payload with
  | none => .ok (ps.filter (!hasWhere ·))
  | some payload => do
      let specific ← whereMatches r payload (ps.filter hasWhere)
      return if specific.isEmpty then ps.filter (!hasWhere ·) else specific

/-- The candidates of the pack that pass the filters before the where-clauses. -/
def eligible (t : Toolchain) (pack : CompiledPolicyPack) (q : Query) : List CompiledPolicy :=
  let candidates := pack.matchIndex.getCandidates q.eventType
  let admissible := candidates.filter (isAdmissible t pack.capabilities)
  let effective := admissible.filter (isEffectiveOn q.effectiveDate)
  effective.filter (matchesScope q.scopeValue)

/-- The policy that is selected from the candidates that match. -/
def select (r : Reading) (q : Query) (matching : List CompiledPolicy) :
    Except ProfileError AccountingPolicy :=
  if matching.isEmpty then .error (.selector (.policyNotFound q.eventType q.effectiveDate))
  else
    match resolvePrecedence r q.eventType matching with
    | .error e => .error (.selector e)
    | .ok selected =>
        match policyFromCompiled r selected with
        | some policy => .ok policy
        | none => .error .valueError

/-- `get_profile`.  Where nothing passes one filter, nothing passes the next, and the error is the
same. -/
def getProfile (r : Reading) (t : Toolchain) (pack : CompiledPolicyPack) (q : Query) :
    Except ProfileError AccountingPolicy :=
  match filterByWhere r q.payload (eligible t pack q) with
  | .error e => .error (.comparison e)
  | .ok matching => select r q matching

end FinanceAccounting.PackPolicySource
