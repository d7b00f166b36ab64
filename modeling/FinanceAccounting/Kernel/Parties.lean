import Mathlib.Data.List.Nodup
import FinanceAccounting.Library.Decimal
import FinanceAccounting.Kernel.Values

/-! # Parties

`PartyService` over the rows of `parties`.  A party has a status and an active flag:
`freeze_party`, `unfreeze_party` and `close_party` set the status, `deactivate_party`,
`reactivate_party` and `close_party` the flag, and none of them asks what was there before.
`validate_can_transact` accepts a party by its code when both fields say that it is active.

`accepts_iff` says which parties are accepted, and `find_perform` what an operation makes of each
party. -/

namespace FinanceAccounting.Parties

/-! ### Rows -/

inductive PartyType where
  | customer
  | supplier
  | employee
  | intercompany
  | system
  | migrationService
deriving DecidableEq, Repr

inductive PartyStatus where
  | active
  | frozen
  | closed
deriving DecidableEq, Repr

/-- A row of `parties`, and the DTO that copies it. -/
structure Party where
  id : UUID
  partyCode : String
  partyType : PartyType
  name : String
  status : PartyStatus := .active
  isActive : Bool := true
  creditLimit : Option Decimal := none
  creditCurrency : Option String := none
  paymentTermsDays : Option ℤ := none
  defaultCurrency : Option String := none
  taxId : Option String := none
  externalRef : Option String := none
deriving DecidableEq

def Party.isFrozen (p : Party) : Bool := p.status = .frozen

def Party.canTransact (p : Party) : Bool := p.isActive && p.status = .active

theorem canTransact_iff {p : Party} :
    p.canTransact = true ↔ p.isActive = true ∧ p.status = .active := by
  rw [Party.canTransact, Bool.and_eq_true, decide_eq_true_iff]

/-- The table: ids and codes are unique. -/
structure PartyTable where
  rows : List Party
  ids_nodup : (rows.map (·.id)).Nodup
  codes_nodup : (rows.map (·.partyCode)).Nodup

/-- Changed columns that identify nothing. -/
structure KeepsKeys (f : Party → Party) : Prop where
  id : ∀ p, (f p).id = p.id
  partyCode : ∀ p, (f p).partyCode = p.partyCode

namespace PartyTable

variable (t : PartyTable)

/-- `session.get(Party, party_id)`. -/
def find (partyId : UUID) : Option Party := t.rows.find? (·.id = partyId)

/-- The row with an id is updated. -/
def modify (partyId : UUID) (f : Party → Party) (hf : KeepsKeys f) : PartyTable where
  rows := t.rows.map fun p => if p.id = partyId then f p else p
  ids_nodup := by
    have hid : ((·.id) ∘ fun p : Party => if p.id = partyId then f p else p) = (·.id) := by
      funext p
      by_cases hp : p.id = partyId
      · rw [Function.comp_apply, if_pos hp, hf.id]
      · rw [Function.comp_apply, if_neg hp]
    rw [List.map_map, hid]
    exact t.ids_nodup
  codes_nodup := by
    have hcode : ((·.partyCode) ∘ fun p : Party => if p.id = partyId then f p else p) =
        (·.partyCode) := by
      funext p
      by_cases hp : p.id = partyId
      · rw [Function.comp_apply, if_pos hp, hf.partyCode]
      · rw [Function.comp_apply, if_neg hp]
    rw [List.map_map, hcode]
    exact t.codes_nodup

end PartyTable

/-! ### The service -/

inductive PartyError where
  | partyNotFound (party : String)
  | partyFrozen (partyCode : String)
  | partyInactive (partyCode : String)
deriving DecidableEq, Repr

section Service

variable (t : PartyTable)

def getById (partyId : UUID) : Except PartyError Party :=
  match t.find partyId with
  | none => .error (.partyNotFound partyId.str)
  | some party => .ok party

def getByCode (partyCode : String) : Except PartyError Party :=
  match t.rows.find? (·.partyCode = partyCode) with
  | none => .error (.partyNotFound partyCode)
  | some party => .ok party

/-- G14. -/
def validateCanTransact (partyCode : String) : Except PartyError Party :=
  match getByCode t partyCode with
  | .error e => .error e
  | .ok party =>
      if party.status = .frozen then .error (.partyFrozen partyCode)
      else if !party.isActive || party.status = .closed then .error (.partyInactive partyCode)
      else .ok party

end Service

/-- The columns of `update_party`; what is not given stays. -/
structure PartyUpdate where
  name : Option String := none
  creditLimit : Option Decimal := none
  creditCurrency : Option String := none
  paymentTermsDays : Option ℤ := none
  defaultCurrency : Option String := none
  taxId : Option String := none
  externalRef : Option String := none

def PartyUpdate.write (u : PartyUpdate) (p : Party) : Party :=
  { p with
    name := u.name.getD p.name
    creditLimit := u.creditLimit.or p.creditLimit
    creditCurrency := u.creditCurrency.or p.creditCurrency
    paymentTermsDays := u.paymentTermsDays.or p.paymentTermsDays
    defaultCurrency := u.defaultCurrency.or p.defaultCurrency
    taxId := u.taxId.or p.taxId
    externalRef := u.externalRef.or p.externalRef }

/-- The methods that change a row. -/
inductive Operation where
  | freezeParty
  | unfreezeParty
  | deactivateParty
  | reactivateParty
  | closeParty
  | updateParty (update : PartyUpdate)

/-- What a method writes. -/
def Operation.write (p : Party) : Operation → Party
  | .freezeParty => { p with status := .frozen }
  | .unfreezeParty => { p with status := .active }
  | .deactivateParty => { p with isActive := false }
  | .reactivateParty => { p with isActive := true }
  | .closeParty => { p with status := .closed, isActive := false }
  | .updateParty update => update.write p

theorem keepsKeys_write (op : Operation) : KeepsKeys fun p => op.write p where
  id p := by cases op <;> rfl
  partyCode p := by cases op <;> rfl

/-- A method: the row is read, written and flushed. -/
def perform (t : PartyTable) (partyId : UUID) (op : Operation) :
    Except PartyError (Party × PartyTable) :=
  match getById t partyId with
  | .error e => .error e
  | .ok party => .ok (op.write party, t.modify partyId (fun p => op.write p) (keepsKeys_write op))

/-- `validate_can_transact` accepts the party with an id. -/
def accepts (t : PartyTable) (partyId : UUID) : Bool :=
  (t.find partyId).any fun party => (validateCanTransact t party.partyCode).isOk

/-! ### Which parties are accepted -/

section Laws

variable {t t' : PartyTable} {party info : Party} {partyId other : UUID} {op : Operation}
variable {f : Party → Party} {hf : KeepsKeys f}

theorem mem_of_find (h : t.find partyId = some party) : party ∈ t.rows ∧ party.id = partyId :=
  ⟨List.mem_of_find?_eq_some h, of_decide_eq_true (List.find?_some h :)⟩

/-- A row is found by its code. -/
theorem getByCode_of_mem (h : party ∈ t.rows) : getByCode t party.partyCode = .ok party := by
  have hsome : (t.rows.find? (·.partyCode = party.partyCode)).isSome :=
    List.find?_isSome.mpr ⟨party, h, decide_eq_true rfl⟩
  obtain ⟨found, hfound⟩ := Option.isSome_iff_exists.mp hsome
  have hcode : found.partyCode = party.partyCode := of_decide_eq_true (List.find?_some hfound :)
  have hsame : found = party :=
    List.inj_on_of_nodup_map t.codes_nodup (List.mem_of_find?_eq_some hfound) h hcode
  rw [getByCode, hfound, hsame]

theorem isOk_validateCanTransact (h : party ∈ t.rows) :
    (validateCanTransact t party.partyCode).isOk = party.canTransact := by
  rw [validateCanTransact, getByCode_of_mem h]
  dsimp only
  unfold Party.canTransact
  cases party.isActive <;> cases party.status <;> rfl

/-- **A party is accepted** when it is active in both fields. -/
theorem accepts_iff : accepts t partyId = true ↔
    ∃ party, t.find partyId = some party ∧ party.canTransact = true := by
  unfold accepts
  rw [Option.any_eq_true]
  refine exists_congr fun party => and_congr_right fun hfind => ?_
  rw [isOk_validateCanTransact (mem_of_find hfind).1]

theorem find_modify : (t.modify partyId f hf).find other =
    if other = partyId then (t.find other).map f else t.find other := by
  have hcomp : ((fun p : Party => decide (p.id = other)) ∘
      fun p => if p.id = partyId then f p else p) = fun p => decide (p.id = other) := by
    funext p
    by_cases hp : p.id = partyId
    · simp only [Function.comp_apply, if_pos hp, hf.id]
    · simp only [Function.comp_apply, if_neg hp]
  unfold PartyTable.find PartyTable.modify
  rw [List.find?_map, hcomp]
  cases hfound : t.rows.find? fun p => decide (p.id = other) with
  | none => simp
  | some p =>
      have hid : p.id = other := of_decide_eq_true (List.find?_some hfound :)
      subst hid
      by_cases hp : p.id = partyId
      · simp [hp]
      · simp [hp]

/-- **What an operation makes of each party.** -/
theorem find_perform (h : perform t partyId op = .ok (info, t')) :
    t'.find other = if other = partyId then (t.find other).map (op.write ·) else t.find other := by
  unfold perform at h
  split at h
  · cases h
  · obtain ⟨-, rfl⟩ := Prod.mk.inj (Except.ok.inj h)
    exact find_modify

/-- An operation raises only for a party that is not found. -/
theorem find_of_perform_error {e : PartyError} (h : perform t partyId op = .error e) :
    t.find partyId = none := by
  unfold perform getById at h
  cases hfind : t.find partyId with
  | none => rfl
  | some party =>
      rw [hfind] at h
      cases h

/-- What an operation on another party does not touch. -/
theorem accepts_perform_of_ne (h : perform t partyId op = .ok (info, t'))
    (hne : other ≠ partyId) : accepts t' other = accepts t other := by
  rw [Bool.eq_iff_iff, accepts_iff, accepts_iff, find_perform h, if_neg hne]

end Laws

end FinanceAccounting.Parties
