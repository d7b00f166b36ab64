import FinanceAccounting.Kernel.ApprovalLifecycle
import FinanceAccounting.Library.Traversals

/-! # The integrity of approval requests

`create_request` hashes some fields of a request and stores the hash next to them; `get_request`
hashes them again, with the amount as the `Numeric(38, 9)` column gives it back.  So a change shows
when it is one of a hashed field, and no change shows when the amount keeps its normal form
(`request_guarded_iff`). -/

namespace FinanceAccounting.Approval

open Hashing (Payload PyVal PyError Scalar canonicalizeJson hashPayload)
open TransitionSystem (run)
open UnitOfWork (Session)

/-! ### The column of the amount -/

/-- The units of the ninth decimal place, halves away from zero. -/
def columnUnits (coeff : ℕ) (exp : ℤ) : ℕ :=
  (2 * (coeff * 10 ^ (exp + 9).toNat) + 10 ^ (-(exp + 9)).toNat) / (2 * 10 ^ (-(exp + 9)).toNat)

/-- What a `Numeric(38, 9)` column gives back, if it takes the number; it has no negative zero.
`nonFinite` is what the driver makes of an infinity or a NaN. -/
def amountColumn (nonFinite : Decimal → Option Decimal) : Decimal → Option Decimal
  | .finite sign coeff exp =>
      let units := columnUnits coeff exp
      if units < 10 ^ 38 then some (.finite (sign && units ≠ 0) units (-9)) else none
  | d => nonFinite d

/-- The amount of a stored row. -/
def storedAmount (nonFinite : Decimal → Option Decimal) : Option Decimal → Option (Option Decimal)
  | none => some none
  | some amount => (amountColumn nonFinite amount).map some

/-! ### The hashed fields -/

/-- The text of an amount in the payload. -/
def amountText : Option Decimal → Except PyError (Option String)
  | none => .ok none
  | some amount => (Scalar.decimalText amount).map some

def amountValue : Option String → PyVal
  | none => .none
  | some text => .scalar (.str text)

/-- The items of the payload. -/
def requestItems (r : ApprovalRequestModel) (amount : Option String) : List (String × PyVal) :=
  [("request_id", .scalar (.str r.requestId.str)),
    ("workflow_name", .scalar (.str r.workflowName)),
    ("entity_type", .scalar (.str r.entityType)),
    ("entity_id", .scalar (.str r.entityId.str)),
    ("transition_action", .scalar (.str r.transitionAction)),
    ("from_state", .scalar (.str r.fromState)),
    ("to_state", .scalar (.str r.toState)),
    ("policy_name", .scalar (.str r.policyName)),
    ("policy_version", .int r.policyVersion),
    ("amount", amountValue amount),
    ("currency", .scalar (.str r.currency))]

def requestKeys : List String :=
  ["request_id", "workflow_name", "entity_type", "entity_id", "transition_action", "from_state",
    "to_state", "policy_name", "policy_version", "amount", "currency"]

theorem nodup_requestItems (r : ApprovalRequestModel) (amount : Option String) :
    ((requestItems r amount).map Prod.fst).Nodup := by
  show requestKeys.Nodup
  decide

/-- What is hashed of a row. -/
def requestPayload (r : ApprovalRequestModel) (amount : Option String) : Payload where
  value := .dict (requestItems r amount)
  distinctKeys := by
    refine ⟨nodup_requestItems r amount, ?_⟩
    cases amount with
    | none => simp [requestItems, PyVal.DistinctKeysMembers, PyVal.DistinctKeys, amountValue]
    | some text => simp [requestItems, PyVal.DistinctKeysMembers, PyVal.DistinctKeys, amountValue]

/-- The hashed fields of two rows are the same. -/
structure SameHashed (r r' : ApprovalRequestModel) (x x' : Option String) : Prop where
  requestId : r.requestId = r'.requestId
  transition : r.toTransitionKey = r'.toTransitionKey
  policyName : r.policyName = r'.policyName
  policyVersion : r.policyVersion = r'.policyVersion
  amount : x = x'
  currency : r.currency = r'.currency

section Hash

variable {sha256 : String → String} {r r' : ApprovalRequestModel} {x x' : Option String}
variable {h h' : String}

theorem agree_amountValue : (amountValue x).Agree (amountValue x') ↔ x = x' := by
  cases x <;> cases x' <;> simp [amountValue, PyVal.Agree, Scalar.Same]

/-- Items agree with those of the same keys, one by one. -/
theorem agreeMembers_iff_forall₂ {ns : List (String × PyVal)} (hnodup : (ns.map Prod.fst).Nodup)
    {ks : List String} {vs ws : List PyVal} (hvs : vs.length = ks.length)
    (hws : ws.length = ks.length) (hsubset : ks.zip ws ⊆ ns) :
    PyVal.AgreeMembers (ks.zip vs) ns ↔ List.Forall₂ PyVal.Agree vs ws := by
  induction ks generalizing vs ws with
  | nil =>
      rw [List.length_eq_zero_iff.mp hvs, List.length_eq_zero_iff.mp hws]
      exact iff_of_true trivial .nil
  | cons k ks ih =>
      obtain ⟨v, vs, rfl⟩ := List.exists_cons_of_length_eq_add_one hvs
      obtain ⟨w, ws, rfl⟩ := List.exists_cons_of_length_eq_add_one hws
      rw [List.zip_cons_cons, List.cons_subset] at hsubset
      have hrest := ih (Nat.succ.inj hvs) (Nat.succ.inj hws) hsubset.2
      have hvalue : (∃ w', (k, w') ∈ ns ∧ v.Agree w') ↔ v.Agree w := by
        constructor
        · rintro ⟨w', hw', hagree⟩
          have heq := List.inj_on_of_nodup_map hnodup hw' hsubset.1 rfl
          rwa [(Prod.mk.inj heq).2] at hagree
        · exact fun hagree => ⟨w, hsubset.1, hagree⟩
      rw [List.zip_cons_cons, PyVal.AgreeMembers, hvalue, hrest, List.forall₂_cons]

/-- The values of the payload, in the order of its items. -/
def requestValues (r : ApprovalRequestModel) (amount : Option String) : List PyVal :=
  [.scalar (.str r.requestId.str), .scalar (.str r.workflowName), .scalar (.str r.entityType),
    .scalar (.str r.entityId.str), .scalar (.str r.transitionAction), .scalar (.str r.fromState),
    .scalar (.str r.toState), .scalar (.str r.policyName), .int r.policyVersion,
    amountValue amount, .scalar (.str r.currency)]

theorem length_requestItems (r : ApprovalRequestModel) (amount : Option String) :
    (requestItems r amount).length = 11 := rfl

theorem requestItems_eq_zip (r : ApprovalRequestModel) (amount : Option String) :
    requestItems r amount = requestKeys.zip (requestValues r amount) := rfl

theorem agree_requestPayload :
    (requestPayload r x).value.Agree (requestPayload r' x').value ↔ SameHashed r r' x x' := by
  have hfields : (requestPayload r x).value.Agree (requestPayload r' x').value ↔
      r.requestId.str = r'.requestId.str ∧ r.workflowName = r'.workflowName ∧
        r.entityType = r'.entityType ∧ r.entityId.str = r'.entityId.str ∧
        r.transitionAction = r'.transitionAction ∧ r.fromState = r'.fromState ∧
        r.toState = r'.toState ∧ r.policyName = r'.policyName ∧
        r.policyVersion = r'.policyVersion ∧ x = x' ∧ r.currency = r'.currency := by
    have hmembers : PyVal.AgreeMembers (requestItems r x) (requestItems r' x') ↔
        List.Forall₂ PyVal.Agree (requestValues r x) (requestValues r' x') := by
      rw [requestItems_eq_zip r x]
      exact agreeMembers_iff_forall₂ (nodup_requestItems r' x') rfl rfl
        (requestItems_eq_zip r' x' ▸ List.Subset.refl _)
    have hlength : (requestItems r x).length = (requestItems r' x').length := by
      rw [length_requestItems, length_requestItems]
    rw [requestPayload, requestPayload, PyVal.Agree, hmembers, and_iff_right hlength]
    simp only [requestValues, List.forall₂_cons, List.forall₂_nil_left_iff, PyVal.Agree, Scalar.Same,
      agree_amountValue, and_true]
  rw [hfields]
  constructor
  · rintro ⟨hid, hworkflow, htype, hentity, haction, hfrom, hto, hname, hversion, hamount, hcurrency⟩
    refine ⟨UUID.str_injective hid, ?_, hname, hversion, hamount, hcurrency⟩
    rw [TransitionKey.mk.injEq]
    exact ⟨hworkflow, htype, UUID.str_injective hentity, haction, hfrom, hto⟩
  · rintro ⟨hid, hkey, hname, hversion, hamount, hcurrency⟩
    rw [TransitionKey.mk.injEq] at hkey
    obtain ⟨hworkflow, htype, hentity, haction, hfrom, hto⟩ := hkey
    rw [hid, hentity]
    exact ⟨rfl, hworkflow, htype, rfl, haction, hfrom, hto, hname, hversion, hamount, hcurrency⟩

theorem serializable_requestPayload (r : ApprovalRequestModel) (x : Option String) :
    (requestPayload r x).value.Serializable := by
  cases x with
  | none =>
      simp [requestPayload, requestItems, amountValue, PyVal.Serializable, PyVal.SerializableMembers]
  | some text =>
      simp [requestPayload, requestItems, amountValue, PyVal.Serializable, PyVal.SerializableMembers]

/-- The payload has a digest. -/
theorem exists_hashPayload (sha256 : String → String) (r : ApprovalRequestModel)
    (x : Option String) : ∃ h, hashPayload sha256 (requestPayload r x).value = .ok h := by
  obtain ⟨j, hj⟩ := (Hashing.isOk_toJson _).mpr (serializable_requestPayload r x)
  refine ⟨sha256 (String.ofList j.render), ?_⟩
  unfold hashPayload canonicalizeJson
  rw [hj]
  rfl

/-- **Digests without collisions are the same exactly for the same hashed fields.** -/
theorem hash_eq_iff (hinj : Function.Injective sha256)
    (hh : hashPayload sha256 (requestPayload r x).value = .ok h)
    (hh' : hashPayload sha256 (requestPayload r' x').value = .ok h') :
    h = h' ↔ SameHashed r r' x x' := by
  rw [← agree_requestPayload]
  have heq := Hashing.canonicalizeJson_eq_iff (requestPayload r x) (requestPayload r' x')
  obtain ⟨s, hs, rfl⟩ := Traversals.map_eq_ok.mp hh
  obtain ⟨s', hs', rfl⟩ := Traversals.map_eq_ok.mp hh'
  constructor
  · intro hsame
    rw [← hinj hsame] at hs'
    exact (heq.mp ⟨s, hs, hs'⟩).2.2
  · intro hagree
    obtain ⟨t, ht, ht'⟩ := heq.mpr
      ⟨serializable_requestPayload r x, serializable_requestPayload r' x', hagree⟩
    rw [Except.ok.inj (hs.symm.trans ht), Except.ok.inj (hs'.symm.trans ht')]

theorem normalizeAmountForHash_eq (amount : Option Decimal) :
    normalizeAmountForHash amount = (amountText amount).map amountValue := by
  cases amount with
  | none => rfl
  | some d =>
      rw [normalizeAmountForHash, amountText]
      cases Scalar.decimalText d with
      | error e => rfl
      | ok text => rfl

theorem computeRequestHash_of_text (hx : amountText r.amount = .ok x) :
    computeRequestHash sha256 r = hashPayload sha256 (requestPayload r x).value := by
  unfold computeRequestHash
  rw [normalizeAmountForHash_eq, hx]
  simp only [Except.map, bind, Except.bind, requestPayload, requestItems]

theorem computeRequestHash_eq_ok :
    computeRequestHash sha256 r = .ok h ↔
      ∃ x, amountText r.amount = .ok x ∧ hashPayload sha256 (requestPayload r x).value = .ok h := by
  constructor
  · intro hrun
    cases hx : amountText r.amount with
    | error e =>
        unfold computeRequestHash at hrun
        rw [normalizeAmountForHash_eq, hx] at hrun
        cases hrun
    | ok x =>
        rw [computeRequestHash_of_text hx] at hrun
        exact ⟨x, rfl, hrun⟩
  · rintro ⟨x, hx, hrun⟩
    rw [computeRequestHash_of_text hx]
    exact hrun

end Hash

/-! ### Requests that are read again -/

/-- A hashed field of the row is another than in the request, or its amount has another normal
form. -/
def DiffersIn (row request : ApprovalRequestModel) : Prop :=
  ∃ x y, amountText row.amount = .ok x ∧ amountText request.amount = .ok y ∧
    ¬SameHashed row request x y

section Read

variable {sha256 : String → String} {a : CreateRequest} {d : Draws} {s s' : Session Log}
variable {model row : ApprovalRequestModel} {t : Tables}

/-- The request that is created carries its hash. -/
theorem createRequest_eq_ok (h : createRequest sha256 a d s = (.ok model, s')) :
    ∃ requestHash, model = { a.row d with originalRequestHash := some requestHash } ∧
      computeRequestHash sha256 model = .ok requestHash := by
  unfold createRequest at h
  dsimp only at h
  split at h
  · cases h
  · split at h
    · cases h
    · cases h
    · split at h
      · cases h
      · rename_i requestHash hhash
        split at h
        · cases h
        · obtain rfl := Except.ok.inj (Prod.mk.inj h).1
          exact ⟨requestHash, rfl, hhash⟩

/-- **Tampering is detected exactly where a hashed field differs.** -/
theorem getRequest_tamper_iff (hinj : Function.Injective sha256)
    (hcreate : createRequest sha256 a d s = (.ok model, s'))
    (hload : t.load model.requestId = some row)
    (hhash : row.originalRequestHash = model.originalRequestHash) :
    getRequest sha256 model.requestId t = .error (.tamperDetected model.requestId) ↔
      DiffersIn row model := by
  obtain ⟨requestHash, hmodel, hcomputed⟩ := createRequest_eq_ok hcreate
  obtain ⟨y, hy, hdigest⟩ := computeRequestHash_eq_ok.mp hcomputed
  have hrow : row.originalRequestHash = some requestHash := by
    rw [hhash, hmodel]
  unfold getRequest
  rw [hload]
  dsimp only
  rw [hrow]
  dsimp only
  cases hx : amountText row.amount with
  | error e =>
      have hnone : ∀ h, computeRequestHash sha256 row ≠ .ok h := by
        intro h hrun
        obtain ⟨x, hx', -⟩ := computeRequestHash_eq_ok.mp hrun
        rw [hx] at hx'
        cases hx'
      refine iff_of_false ?_ ?_
      · cases hrun : computeRequestHash sha256 row with
        | error e' => nofun
        | ok h => exact absurd hrun (hnone h)
      · rintro ⟨x, -, hx', -⟩
        rw [hx] at hx'
        cases hx'
  | ok x =>
      obtain ⟨h, hrun⟩ := exists_hashPayload sha256 row x
      have hsame := hash_eq_iff hinj hrun hdigest
      rw [computeRequestHash_of_text hx, hrun]
      dsimp only
      constructor
      · intro htamper
        split at htamper
        · rename_i hne
          exact ⟨x, y, hx, hy, fun hfields => hne (hsame.mpr hfields)⟩
        · cases htamper
      · rintro ⟨x', y', hx', hy', hfields⟩
        obtain rfl := Except.ok.inj (hx.symm.trans hx')
        obtain rfl := Except.ok.inj (hy.symm.trans hy')
        rw [if_pos fun heq => hfields (hsame.mp heq)]

end Read

/-! ### Amounts that the column keeps -/

/-- The amount that the column gives back has no other text. -/
def KeepsText (amount stored : Option Decimal) : Prop :=
  ∀ x, amountText stored = .ok x → amountText amount = .ok x

theorem columnUnits_of_places {coeff : ℕ} {exp : ℤ} (h : -9 ≤ exp) :
    columnUnits coeff exp = coeff * 10 ^ (exp + 9).toNat := by
  unfold columnUnits
  have hzero : (-(exp + 9)).toNat = 0 := by omega
  rw [hzero, pow_zero]
  omega

/-- A number of nine places has its units in the column. -/
theorem amountColumn_of_places (nonFinite : Decimal → Option Decimal) {sign : Bool} {coeff : ℕ}
    {exp : ℤ} (hexp : -9 ≤ exp) (hdigits : coeff * 10 ^ (exp + 9).toNat < 10 ^ 28)
    (hsign : coeff = 0 → sign = false) :
    amountColumn nonFinite (.finite sign coeff exp) =
      some (.finite sign (coeff * 10 ^ (exp + 9).toNat) (-9)) := by
  have hsame : (sign && decide (coeff * 10 ^ (exp + 9).toNat ≠ 0)) = sign := by
    rcases Nat.eq_zero_or_pos coeff with hzero | hpos
    · rw [hsign hzero, Bool.false_and]
    · have hne : coeff * 10 ^ (exp + 9).toNat ≠ 0 := (Nat.mul_pos hpos (by positivity)).ne'
      rw [decide_eq_true hne, Bool.and_true]
  unfold amountColumn
  dsimp only
  rw [columnUnits_of_places hexp, if_pos (by omega), hsame]

/-- Numbers of at most 28 digits fit the context. -/
theorem fits_of_lt {sign : Bool} {coeff : ℕ} {exp : ℤ} (hcoeff : coeff < 10 ^ 28) (hexp : -9 ≤ exp)
    (hle : coeff ≠ 0 → exp ≤ 19) : (Decimal.finite sign coeff exp).Fits Hashing.defaultContext := by
  by_cases hzero : coeff = 0
  · exact Or.inl hzero
  · have hnum : Decimal.numDigits coeff ≤ 28 := (Decimal.numDigits_le_iff (by decide)).mpr hcoeff
    have hbound := hle hzero
    refine Or.inr ⟨hnum, ?_, ?_⟩
    · show (Decimal.numDigits coeff : ℤ) + exp ≤ 999999 + 1
      omega
    · show (-999999 : ℤ) - 28 + 1 ≤ exp
      omega

/-- The same number has one text. -/
theorem decimalText_of_sameNumber {x y : Decimal} (hx : x.Fits Hashing.defaultContext)
    (hy : y.Fits Hashing.defaultContext) (hsame : x.SameNumber y) :
    Scalar.decimalText x = Scalar.decimalText y := by
  obtain ⟨r, hr, hrsame⟩ := Decimal.normalize_sameNumber hx
  obtain ⟨r', hr', hrsame'⟩ := Decimal.normalize_sameNumber hy
  have heq : r = r' := Decimal.eq_of_sameNumber (Decimal.normalize_isNormal hr)
    (Decimal.normalize_isNormal hr') (hrsame.symm.trans (hsame.trans hrsame'))
  unfold Scalar.decimalText
  rw [hr, hr', heq]

/-- Nine decimal places, 28 digits, and no negative zero. -/
def NinePlaces : Option Decimal → Prop
  | none => True
  | some (.finite sign coeff exp) =>
      -9 ≤ exp ∧ coeff * 10 ^ (exp + 9).toNat < 10 ^ 28 ∧ (coeff = 0 → sign = false)
  | some _ => False

/-- **Amounts of nine places and 28 digits are kept.** -/
theorem keepsText_of_ninePlaces (nonFinite : Decimal → Option Decimal)
    {amount stored : Option Decimal} (hplaces : NinePlaces amount)
    (h : storedAmount nonFinite amount = some stored) : KeepsText amount stored := by
  cases amount with
  | none =>
      obtain rfl := Option.some.inj h
      exact fun x hx => hx
  | some d =>
      cases d with
      | finite sign coeff exp =>
          obtain ⟨hexp, hdigits, hsign⟩ := hplaces
          have hpow : 0 < 10 ^ (exp + 9).toNat := by positivity
          rw [storedAmount, amountColumn_of_places nonFinite hexp hdigits hsign] at h
          obtain rfl := Option.some.inj h
          have hcoeff : coeff < 10 ^ 28 := (Nat.le_mul_of_pos_right coeff hpow).trans_lt hdigits
          have hexp' : coeff ≠ 0 → exp ≤ 19 := by
            intro hne
            by_contra hgt
            have hle : 10 ^ 28 ≤ 10 ^ (exp + 9).toNat :=
              Nat.pow_le_pow_right (by decide) (by omega)
            have hmul := Nat.le_mul_of_pos_left (10 ^ (exp + 9).toNat) (Nat.pos_of_ne_zero hne)
            omega
          have hsame : (Decimal.finite sign (coeff * 10 ^ (exp + 9).toNat) (-9)).SameNumber
              (.finite sign coeff exp) := by
            refine ⟨rfl, ?_⟩
            have hvalue : ((exp + 9).toNat : ℤ) = exp + 9 := Int.toNat_of_nonneg (by omega)
            have hcast : ((coeff * 10 ^ (exp + 9).toNat : ℕ) : ℚ) =
                coeff * (10 : ℚ) ^ (exp + 9) := by
              rw [← hvalue, zpow_natCast]
              push_cast
              rfl
            rw [Decimal.toRat_finite_eq_iff, hcast, mul_assoc,
              ← zpow_add₀ (by norm_num : (10 : ℚ) ≠ 0)]
            congr 2
            omega
          have htext := decimalText_of_sameNumber
            (fits_of_lt hdigits (le_refl (-9)) fun _ => by omega)
            (fits_of_lt hcoeff hexp hexp') hsame
          intro x hx
          rw [← hx, amountText, amountText, htext]
      | infinity sign => cases hplaces
      | nan sign signaling payload => cases hplaces

/-! ### The theorem -/

/-- The row is the stored one, in whatever status. -/
def Unmodified (row stored : ApprovalRequestModel) : Prop :=
  ∃ status resolvedAt, row = { stored with status, resolvedAt }

/-- One of the immutable fields is changed. -/
def Modified (row stored : ApprovalRequestModel) : Prop :=
  ¬(row.toTransitionKey = stored.toTransitionKey ∧ row.amount = stored.amount ∧
    row.currency = stored.currency ∧ row.requestorId = stored.requestorId ∧
    row.policyVersion = stored.policyVersion ∧ row.policyHash = stored.policyHash ∧
    row.matchedRule = stored.matchedRule)

/-- **A request is guarded**: `get_request` detects no tampering of a row that nobody has modified,
and it does of a row with a modified field. -/
def Guarded (sha256 : String → String) (t : Tables) (row stored : ApprovalRequestModel) : Prop :=
  (Unmodified row stored →
    getRequest sha256 stored.requestId t ≠ .error (.tamperDetected stored.requestId)) ∧
  (Modified row stored →
    getRequest sha256 stored.requestId t = .error (.tamperDetected stored.requestId))

/-- **A row is guarded** when its amount has kept its text, as amounts of nine places do, if nobody has
modified it, and when a hashed field differs, if somebody has. -/
theorem request_guarded_iff (sha256 : String → String) (nonFinite : Decimal → Option Decimal)
    (a : CreateRequest) (d : Draws) (s s' : Session Log) (model row : ApprovalRequestModel)
    (amount : Option Decimal) (t : Tables) (hinj : Function.Injective sha256)
    (hcreate : createRequest sha256 a d s = (.ok model, s'))
    (hstored : storedAmount nonFinite a.amount = some amount)
    (hload : t.load model.requestId = some row)
    (hhash : row.originalRequestHash = model.originalRequestHash) :
    (Guarded sha256 t row { model with amount } ↔
      (Unmodified row { model with amount } → KeepsText a.amount amount) ∧
        (Modified row { model with amount } → DiffersIn row model)) ∧
    (NinePlaces a.amount → KeepsText a.amount amount) := by
  refine ⟨?_, fun hplaces => keepsText_of_ninePlaces nonFinite hplaces hstored⟩
  have htamper := getRequest_tamper_iff hinj hcreate hload hhash
  obtain ⟨requestHash, hmodel, hcomputed⟩ := createRequest_eq_ok hcreate
  obtain ⟨y, hy, -⟩ := computeRequestHash_eq_ok.mp hcomputed
  have hamount : model.amount = a.amount := by
    rw [hmodel]
    rfl
  have hkept : Unmodified row { model with amount } →
      (¬DiffersIn row model ↔ KeepsText a.amount amount) := by
    rintro ⟨status, resolvedAt, rfl⟩
    constructor
    · intro hsame x hx
      by_contra hne
      refine hsame ⟨x, y, hx, hy, fun hfields => hne ?_⟩
      rw [hfields.amount, ← hamount, hy]
    · rintro hkeeps ⟨x, y', hx, hy', hfields⟩
      refine hfields ⟨rfl, rfl, rfl, rfl, ?_, rfl⟩
      have hx' := hkeeps x hx
      rw [← hamount] at hx'
      exact Except.ok.inj (hx'.symm.trans hy')
  unfold Guarded
  constructor
  · rintro ⟨hround, hcovered⟩
    refine ⟨fun hrow => (hkept hrow).mp fun hdiffers => hround hrow (htamper.mpr hdiffers), ?_⟩
    exact fun hrow => htamper.mp (hcovered hrow)
  · rintro ⟨hround, hcovered⟩
    refine ⟨fun hrow hraises => (hkept hrow).mpr (hround hrow) (htamper.mp hraises), ?_⟩
    exact fun hrow => htamper.mpr (hcovered hrow)

/-- A payment that a controller must approve. -/
def sampleCreate (amount : Option Decimal) : CreateRequest where
  workflowName := "ap_payment"
  entityType := "payment"
  entityId := ⟨7⟩
  transitionAction := "approve"
  fromState := "submitted"
  toState := "approved"
  policy := { policyName := "Payments", version := 1 }
  matchedRuleName := "any"
  requestorId := ⟨1⟩
  amount := amount

/-- A table of one row. -/
def sampleTables (row : ApprovalRequestModel) : Tables := Tables.empty.insert row

theorem load_sampleTables (row : ApprovalRequestModel) :
    (sampleTables row).load row.requestId = some row := by
  unfold sampleTables Tables.insert Tables.load
  rw [dif_neg (by simp [Tables.hasId, Tables.empty])]
  simp [Tables.empty]

/-- The request that is created, when it is. -/
theorem exists_createRequest_sample {amount : Option Decimal}
    (h : (createRequest Digest.spell (sampleCreate amount) ⟨sampleTime, ⟨10⟩, false⟩
      (begin .empty)).1.toOption.isSome = true) :
    ∃ model s', createRequest Digest.spell (sampleCreate amount) ⟨sampleTime, ⟨10⟩, false⟩
      (begin .empty) = (.ok model, s') := by
  rcases hrun : createRequest Digest.spell (sampleCreate amount) ⟨sampleTime, ⟨10⟩, false⟩
    (begin .empty) with ⟨e | model, s'⟩
  · rw [hrun] at h
    cases h
  · exact ⟨model, s', rfl⟩

/-- A request of five thousand, read again. -/
theorem request_guarded_payment : ∃ model s',
    createRequest Digest.spell (sampleCreate (some (.finite false 5000 0)))
      ⟨sampleTime, ⟨10⟩, false⟩ (begin .empty) = (.ok model, s') ∧
    KeepsText (some (.finite false 5000 0)) (some (.finite false (5000 * 10 ^ 9) (-9))) := by
  obtain ⟨model, s', hcreate⟩ := @exists_createRequest_sample (some (.finite false 5000 0))
    (by decide +kernel)
  have hstored : storedAmount (fun _ => none) (sampleCreate (some (.finite false 5000 0))).amount =
      some (some (.finite false (5000 * 10 ^ 9) (-9))) := by decide +kernel
  have hplaces : NinePlaces (some (.finite false 5000 0)) := by
    refine ⟨by decide, by decide, fun h => absurd h (by decide)⟩
  refine ⟨model, s', hcreate, ?_⟩
  exact (request_guarded_iff Digest.spell (fun _ => none) (sampleCreate (some (.finite false 5000 0)))
    ⟨sampleTime, ⟨10⟩, false⟩ (begin .empty) s' model model
    (some (.finite false (5000 * 10 ^ 9) (-9))) (sampleTables model) Digest.spell_injective hcreate
    hstored (load_sampleTables model) rfl).2 hplaces

/-- **Another requestor goes unnoticed, and an amount of ten places is taken for tampering**, since the
column keeps nine of them. -/
theorem request_not_guarded :
    (∃ model s', createRequest Digest.spell (sampleCreate none) ⟨sampleTime, ⟨10⟩, false⟩
        (begin .empty) = (.ok model, s') ∧
      ¬Guarded Digest.spell (sampleTables { model with requestorId := ⟨99⟩ })
        { model with requestorId := ⟨99⟩ } model) ∧
    ∃ model s', createRequest Digest.spell (sampleCreate (some (.finite false 10000000001 (-10))))
        ⟨sampleTime, ⟨10⟩, false⟩ (begin .empty) = (.ok model, s') ∧
      ¬Guarded Digest.spell
        (sampleTables { model with amount := some (.finite false 1000000000 (-9)) })
        { model with amount := some (.finite false 1000000000 (-9)) }
        { model with amount := some (.finite false 1000000000 (-9)) } := by
  constructor
  · obtain ⟨model, s', hcreate⟩ := @exists_createRequest_sample none (by decide +kernel)
    refine ⟨model, s', hcreate, fun hguarded => ?_⟩
    obtain ⟨requestHash, hmodel, -⟩ := createRequest_eq_ok hcreate
    have hrequestor : model.requestorId = ⟨1⟩ := by
      rw [hmodel]
      rfl
    have hmodified : Modified { model with requestorId := ⟨99⟩ } model := by
      intro hsame
      have heq : (⟨99⟩ : UUID) = model.requestorId := hsame.2.2.2.1
      rw [hrequestor] at heq
      exact absurd heq (by decide)
    have htamper := hguarded.2 hmodified
    have hload := load_sampleTables { model with requestorId := ⟨99⟩ }
    obtain ⟨x, y, hx, hy, hfields⟩ :=
      (getRequest_tamper_iff Digest.spell_injective hcreate hload rfl).mp htamper
    exact hfields ⟨rfl, rfl, rfl, rfl, Except.ok.inj (hx.symm.trans hy), rfl⟩
  · obtain ⟨model, s', hcreate⟩ := @exists_createRequest_sample
      (some (.finite false 10000000001 (-10))) (by decide +kernel)
    refine ⟨model, s', hcreate, fun hguarded => ?_⟩
    obtain ⟨requestHash, hmodel, -⟩ := createRequest_eq_ok hcreate
    have hamount : model.amount = some (.finite false 10000000001 (-10)) := by
      rw [hmodel]
      rfl
    have hload := load_sampleTables { model with amount := some (.finite false 1000000000 (-9)) }
    have hdiffers : DiffersIn { model with amount := some (.finite false 1000000000 (-9)) } model := by
      have hcolumn : amountText (some (.finite false 1000000000 (-9))) = .ok (some "1") := by
        decide +kernel
      refine ⟨some "1", some "1.0000000001", hcolumn, ?_, fun hfields => ?_⟩
      · rw [hamount]
        decide +kernel
      · exact absurd (Option.some.inj hfields.amount) (by decide)
    have hunmodified : Unmodified { model with amount := some (.finite false 1000000000 (-9)) }
        { model with amount := some (.finite false 1000000000 (-9)) } :=
      ⟨model.status, model.resolvedAt, rfl⟩
    exact hguarded.1 hunmodified
      ((getRequest_tamper_iff Digest.spell_injective hcreate hload rfl).mpr hdiffers)

end FinanceAccounting.Approval
