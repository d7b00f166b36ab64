import FinanceAccounting.Ingestion.IntentLines
import FinanceAccounting.Kernel.PolicyBridge
import FinanceAccounting.Library.Traversals

/-! # Intents from line mappings

`build_accounting_intent` goes through the ledger effects of a policy.  An effect on a ledger with
line mappings takes the lines of all of them; another takes a debit and a credit.  A mapping reads
the amounts of a collection, an amount of the payload or the amount of the event, and only a
negative amount of the payload goes to the opposite side.

`rightlyBuilt_iff`: an intent is returned where there is something to post, with one ledger intent a
ledger and every amount in it once, exactly where no two effects with lines share a ledger, nothing
is due on a ledger without an effect, and what is negative comes from a field of the payload and
is not rounded. -/

namespace FinanceAccounting.Ingestion

open Journal (LineSide)
open PolicyBridge (ModuleLineMapping LedgerEffect)

/-! ### The builder -/

/-- A registered policy with its line mappings; a side that is not `"debit"` is a credit. -/
structure ModulePolicyEntry where
  name : String
  version : ℤ
  description : String
  ledgerEffects : List LedgerEffect
  lineMappings : List ModuleLineMapping

structure IntentRequest where
  profileName : String
  /-- `uuid4()`. -/
  econEventId : UUID
  sourceEventId : UUID
  effectiveDate : Date
  amount : Decimal
  currency : String
  payload : Option Dict
  description : Option String
  coaVersion : ℤ
  dimensionSchemaVersion : ℤ

/-- `payload or {}`. -/
def IntentRequest.safePayload (r : IntentRequest) : Dict := r.payload.getD []

/-- The collection of a mapping; an empty name counts as none. -/
def collectionField (m : ModuleLineMapping) : Option String := m.foreach.filter (· ≠ "")

/-- The field of a mapping; an empty name counts as none. -/
def contextField (m : ModuleLineMapping) : Option String := m.fromContext.filter (· ≠ "")

variable (b : Builtins) (ctx : Decimal.Context)

/-- `Decimal(str(value))`. -/
def decimalOf (value : Value) : Except Raised Decimal := do
  let text ← b.write value
  match b.decimal text with
  | some d => .ok d
  | none => .error (.decimalSignal .invalidOperation)

/-- The keys of an item that are tried, in their order. -/
def amountKeys : List String := ["amount", "total", "line_amount", "value", "extended_cost"]

/-- `_extract_amount`. -/
def extractAmount (item : Value) (default : Decimal) : Except Raised Decimal :=
  match item with
  | .dict members =>
      match amountKeys.findSome? fun key => members.lookup key with
      | some value => decimalOf b value
      | none => .ok default
  | .bool _ | .int _ | .float _ | .decimal _ => decimalOf b item
  | _ => .ok default

/-- What a loop over a value goes through; not every value has a length. -/
def itemsOf : Value → Except Raised (List Value)
  | .list items => .ok items
  | .str s => .ok (s.toList.map fun c => .str (String.singleton c))
  | .dict members => .ok (members.map fun member => .str member.1)
  | _ => .error .typeError

/-- `_create_intent_line` for an amount of the payload: what is negative goes to the opposite
side, with its absolute value, and zero nowhere. -/
def contextLines (r : IntentRequest) (m : ModuleLineMapping) (d : Decimal) :
    Except Raised (List IntentLine) := do
  let positive ← isPositive d
  if positive then (newIntentLine b r.currency m.role m.side d).map ([·])
  else
    match d.less zeroAmount with
    | .error signal => .error (.decimalSignal signal)
    | .ok false => .ok []
    | .ok true =>
        match Decimal.fix ctx d.negate with
        | .error signal => .error (.decimalSignal signal)
        | .ok absolute => (newIntentLine b r.currency m.role m.side.flip absolute).map ([·])

/-- The lines of one mapping. -/
def mappingLines (r : IntentRequest) (m : ModuleLineMapping) : Except Raised (List IntentLine) :=
  match collectionField m with
  | some field => do
      let items ← itemsOf ((r.safePayload.lookup field).getD (.list []))
      match items with
      | [] => (newIntentLine b r.currency m.role m.side r.amount).map ([·])
      | items => items.mapM fun item => do
          let d ← extractAmount b item r.amount
          newIntentLine b r.currency m.role m.side d
  | none =>
      match contextField m with
      | some field =>
          match r.safePayload.get field with
          | .none => .ok []
          | value => do
              let d ← decimalOf b value
              contextLines b ctx r m d
      | none => (newIntentLine b r.currency m.role m.side r.amount).map ([·])

/-- `_build_intent_lines`. -/
def buildIntentLines (r : IntentRequest) (mappings : List ModuleLineMapping) :
    Except Raised (List IntentLine) :=
  (mappings.mapM (mappingLines b ctx r)).map List.flatten

def ModulePolicyEntry.mappingsOn (entry : ModulePolicyEntry) (ledger : String) :
    List ModuleLineMapping :=
  entry.lineMappings.filter (·.ledger = ledger)

/-- The lines of an effect: those of the mappings of its ledger, or a debit and a credit. -/
def effectLines (r : IntentRequest) (entry : ModulePolicyEntry) (effect : LedgerEffect) :
    Except Raised (List IntentLine) :=
  match entry.mappingsOn effect.ledger with
  | [] => do
      let debit ← newIntentLine b r.currency effect.debitRole .debit r.amount
      let credit ← newIntentLine b r.currency effect.creditRole .credit r.amount
      .ok [debit, credit]
  | mappings => buildIntentLines b ctx r mappings

/-- Lines become a ledger intent, unless there are none. -/
def ledgerIntent (ledger : String) (lines : List IntentLine) : Option LedgerIntent :=
  if h : lines = [] then none else some ⟨ledger, lines, h⟩

/-- The loop over the effects. -/
def ledgerIntents (r : IntentRequest) (entry : ModulePolicyEntry) :
    Except Raised (List LedgerIntent) :=
  (entry.ledgerEffects.mapM fun effect =>
    (effectLines b ctx r entry effect).map (ledgerIntent effect.ledger)).map (·.filterMap id)

/-- `build_accounting_intent`. -/
def buildAccountingIntent (registry : String → Option ModulePolicyEntry) (r : IntentRequest) :
    Except Raised AccountingIntent :=
  match registry r.profileName with
  | none => .error (.valueError ("No module profile registered: " ++ r.profileName))
  | some entry => do
      let built ← ledgerIntents b ctx r entry
      match h : built with
      | [] =>
          .error (.valueError ("No ledger intents could be built for profile: " ++ r.profileName))
      | _ :: _ =>
          pure
            { econEventId := r.econEventId
              sourceEventId := r.sourceEventId
              profileId := entry.name
              profileVersion := entry.version
              effectiveDate := r.effectiveDate
              ledgerIntents := built
              ledgerIntents_ne_nil := by rw [h]; exact List.cons_ne_nil _ _
              snapshot := ⟨r.coaVersion, r.dimensionSchemaVersion, 1, 1, none⟩
              description := some ((r.description.filter (· ≠ "")).getD entry.description) }

/-! ### What is due -/

/-- The amounts that the payload gives a mapping; zero from a field of the payload is none. -/
def payloadAmounts (r : IntentRequest) (m : ModuleLineMapping) : Except Raised (List Decimal) :=
  match collectionField m with
  | some field => do
      let items ← itemsOf ((r.safePayload.lookup field).getD (.list []))
      match items with
      | [] => .ok [r.amount]
      | items => items.mapM fun item => extractAmount b item r.amount
  | none =>
      match contextField m with
      | some field =>
          match r.safePayload.get field with
          | .none => .ok []
          | value => (decimalOf b value).map fun d => if d.numEq zeroAmount then [] else [d]
      | none => .ok [r.amount]

/-- The amounts due for mappings, each with its mapping. -/
def dueFor (r : IntentRequest) (mappings : List ModuleLineMapping) :
    Except Raised (List (ModuleLineMapping × Decimal)) :=
  (mappings.mapM fun m => (payloadAmounts b r m).map fun amounts => amounts.map fun x => (m, x)).map
    List.flatten

/-- The mappings of an effect; without any it has two of its own. -/
def effectMappings (entry : ModulePolicyEntry) (effect : LedgerEffect) : List ModuleLineMapping :=
  match entry.mappingsOn effect.ledger with
  | [] =>
      [⟨effect.debitRole, .debit, effect.ledger, none, none⟩,
        ⟨effect.creditRole, .credit, effect.ledger, none, none⟩]
  | mappings => mappings

/-- The lines of an intent on a ledger. -/
def linesOn (intent : AccountingIntent) (ledger : String) : List IntentLine :=
  (intent.ledgerIntents.filter (·.ledgerId = ledger)).flatMap (·.lines)

/-- The line is what an amount of the payload stands for: it is posted as it is, or, when it is
negative, with its absolute value on the opposite side. -/
structure Stands (r : IntentRequest) (p : ModuleLineMapping × Decimal) (l : IntentLine) : Prop where
  role : l.accountRole = p.1.role
  currency : l.currency = currencyCode b r.currency
  amount : (¬Negative p.2 ∧ l.side = p.1.side ∧ l.amount = p.2) ∨
    (Negative p.2 ∧ l.side = p.1.side.flip ∧ l.amount.numEq p.2.negate = true)

/-- At most one ledger intent a ledger, with keys of their own, and each mapping contributes its
amounts exactly once. -/
structure CountsOnce (r : IntentRequest) (entry : ModulePolicyEntry) (intent : AccountingIntent) :
    Prop where
  ledgers : (intent.ledgerIntents.map (·.ledgerId)).Nodup
  keys : (intent.ledgerIntents.map fun l => intent.idempotencyKey l.ledgerId).Nodup
  mappings : ∀ m ∈ entry.lineMappings, ∃ due, dueFor b r (entry.mappingsOn m.ledger) = .ok due ∧
    List.Forall₂ (Stands b r) due (linesOn intent m.ledger)

/-- Numbers are due on the ledgers of the effects, and on some ledger there is something. -/
structure Postable (r : IntentRequest) (entry : ModulePolicyEntry) : Prop where
  currency : b.isCurrency (currencyCode b r.currency) = true
  due : ∀ e ∈ entry.ledgerEffects, ∃ due, dueFor b r (effectMappings entry e) = .ok due ∧
    ∀ p ∈ due, ¬IsNaN p.2
  posts : (∃ e ∈ entry.ledgerEffects, ∃ p due,
      dueFor b r (effectMappings entry e) = .ok (p :: due)) ∨
    ∃ m ∈ entry.lineMappings, ∃ p due, dueFor b r (entry.mappingsOn m.ledger) = .ok (p :: due)

/-- A negative amount comes from a field of the payload, and its absolute value is not rounded. -/
def Fits (p : ModuleLineMapping × Decimal) : Prop :=
  Negative p.2 → collectionField p.1 = none ∧ contextField p.1 ≠ none ∧
    ∃ y, Decimal.fix ctx p.2.negate = .ok y ∧ y.numEq p.2.negate = true

/-- Two effects share a ledger only where nothing is due, what is due on the ledger of an effect
fits, and on a ledger without effect nothing is due. -/
structure Sound (r : IntentRequest) (entry : ModulePolicyEntry) : Prop where
  distinct : entry.ledgerEffects.Pairwise fun e e' =>
    e.ledger = e'.ledger → dueFor b r (effectMappings entry e) = .ok []
  fits : ∀ e ∈ entry.ledgerEffects, ∀ due, dueFor b r (effectMappings entry e) = .ok due →
    ∀ p ∈ due, Fits ctx p
  reached : ∀ m ∈ entry.lineMappings, (∀ e ∈ entry.ledgerEffects, e.ledger ≠ m.ledger) →
    dueFor b r (entry.mappingsOn m.ledger) = .ok []

/-- Every intent that is returned counts each mapping once, and one is returned where there is
something to post. -/
def RightlyBuilt (registry : String → Option ModulePolicyEntry) (r : IntentRequest) : Prop :=
  (∀ intent, buildAccountingIntent b ctx registry r = .ok intent →
    ∃ entry, registry r.profileName = some entry ∧ CountsOnce b r entry intent) ∧
  ∀ entry, registry r.profileName = some entry → Postable b r entry →
    ∃ intent, buildAccountingIntent b ctx registry r = .ok intent

/-! ### Lines of mappings -/

section Laws

variable {b : Builtins} {ctx : Decimal.Context} {r : IntentRequest} {entry : ModulePolicyEntry}
variable {m : ModuleLineMapping} {p : ModuleLineMapping × Decimal} {l : IntentLine}

/-- The line that the builder makes of an amount that is due. -/
def Posts (b : Builtins) (ctx : Decimal.Context) (r : IntentRequest)
    (p : ModuleLineMapping × Decimal) (l : IntentLine) : Prop :=
  newIntentLine b r.currency p.1.role p.1.side p.2 = .ok l ∨
    (collectionField p.1 = none ∧ contextField p.1 ≠ none ∧ Negative p.2 ∧
      ∃ y, Decimal.fix ctx p.2.negate = .ok y ∧
        newIntentLine b r.currency p.1.role p.1.side.flip y = .ok l)

theorem Posts.isNumber (h : Posts b ctx r p l) :
    b.isCurrency (currencyCode b r.currency) = true ∧ ¬IsNaN p.2 := by
  rcases h with h | ⟨-, -, hneg, y, -, h⟩
  · obtain ⟨hcurrency, hd, -⟩ := of_newIntentLine h
    exact ⟨hcurrency, not_isNaN_of_nonNegative hd⟩
  · exact ⟨(of_newIntentLine h).1, hneg.not_isNaN⟩

/-- A line stands for its amount exactly where the amount fits. -/
theorem Posts.stands_iff (h : Posts b ctx r p l) : Stands b r p l ↔ Fits ctx p := by
  rcases h with h | ⟨hcollection, hcontext, hneg, y, hy, h⟩
  · obtain ⟨-, hd, hrole, hside, hamount, hcode⟩ := of_newIntentLine h
    have hpos := not_negative_of_nonNegative hd
    exact iff_of_true ⟨hrole, hcode, .inl ⟨hpos, hside, hamount⟩⟩ fun hneg => absurd hneg hpos
  · obtain ⟨-, -, hrole, hside, rfl, hcode⟩ := of_newIntentLine h
    constructor
    · rintro ⟨-, -, ⟨hpos, -⟩ | ⟨-, -, heq⟩⟩
      · exact absurd hneg hpos
      · exact fun _ => ⟨hcollection, hcontext, _, hy, heq⟩
    · intro hfits
      obtain ⟨-, -, y', hy', heq⟩ := hfits hneg
      rw [hy] at hy'
      obtain rfl := Except.ok.inj hy'
      exact ⟨hrole, hcode, .inr ⟨hneg, hside, heq⟩⟩

theorem exists_posts (hcurrency : b.isCurrency (currencyCode b r.currency) = true)
    (hnan : ¬IsNaN p.2) (hfits : Fits ctx p) : ∃ l, Posts b ctx r p l := by
  by_cases hneg : Negative p.2
  · obtain ⟨hcollection, hcontext, y, hy, -⟩ := hfits hneg
    obtain ⟨l, hl, -⟩ := exists_newIntentLine p.1.role p.1.side.flip hcurrency
      (hneg.nonNegative_of_fix hy)
    exact ⟨l, .inr ⟨hcollection, hcontext, hneg, y, hy, hl⟩⟩
  · obtain ⟨l, hl, -⟩ := exists_newIntentLine p.1.role p.1.side hcurrency
      ((nonNegative_iff hnan).2 hneg)
    exact ⟨l, .inl hl⟩

/-- Without a collection or a field of the payload an amount is posted as it is. -/
theorem posts_iff_of_plain (h : collectionField m ≠ none ∨ contextField m = none) {d : Decimal} :
    Posts b ctx r (m, d) l ↔ newIntentLine b r.currency m.role m.side d = .ok l := by
  refine ⟨fun hposts => ?_, .inl⟩
  rcases hposts with hposts | ⟨hcollection, hcontext, -⟩
  · exact hposts
  · exact absurd hcollection (h.resolve_right hcontext)

/-- The line of an amount of the payload; there is none for zero. -/
theorem contextLines_eq_ok_iff (hcollection : collectionField m = none)
    (hcontext : contextField m ≠ none) {d : Decimal} {lines : List IntentLine} :
    contextLines b ctx r m d = .ok lines ↔
      List.Forall₂ (Posts b ctx r) ((if d.numEq zeroAmount then [] else [d]).map fun x => (m, x))
        lines := by
  unfold contextLines
  rcases sign_cases d with ⟨hnan, hrun⟩ | ⟨hrun, -, hzero, hneg⟩ | ⟨hrun, hzero, hpos, hneg⟩ |
    ⟨hrun, hneg, -, hzero⟩
  · have hzero : ¬d.numEq zeroAmount = true := by
      cases d with
      | finite sign coeff exp => cases hnan
      | infinity sign => cases hnan
      | nan sign signaling payload => exact (nomatch ·)
    rw [hrun, if_neg hzero, List.map_singleton, Traversals.forall₂_singleton_iff]
    refine iff_of_false (fun h => (nomatch h)) ?_
    rintro ⟨l, hl, -⟩
    exact hl.isNumber.2 hnan
  · rw [hrun, if_neg (show ¬d.numEq zeroAmount = true from hzero), List.map_singleton,
      Traversals.forall₂_singleton_iff]
    refine Traversals.singleton_eq_ok.trans (exists_congr fun l => and_congr_left fun _ => ?_)
    exact ⟨.inl, fun h => h.resolve_right fun h => hneg h.2.2.1⟩
  · have hnan : ¬IsNaN d := by
      intro hnan
      unfold isPositive at hrun
      rw [hnan] at hrun
      cases hrun
    rw [hrun, if_pos (show d.numEq zeroAmount = true from hzero), List.map_nil,
      List.forall₂_nil_left_iff]
    simp only [bind, Except.bind, Bool.false_eq_true, if_false,
      less_zero_of_not_negative hnan hneg]
    exact ⟨fun h => (Except.ok.inj h).symm, fun h => h ▸ rfl⟩
  · rw [hrun, if_neg (show ¬d.numEq zeroAmount = true from hzero), List.map_singleton,
      Traversals.forall₂_singleton_iff]
    have hless : d.less zeroAmount = .ok true := hneg
    simp only [bind, Except.bind, Bool.false_eq_true, if_false, hless]
    cases hfix : Decimal.fix ctx d.negate with
    | error signal =>
        refine iff_of_false (fun h => (nomatch h)) ?_
        rintro ⟨l, hl | ⟨-, -, -, y, hy, -⟩, -⟩
        · exact not_negative_of_nonNegative (of_newIntentLine hl).2.1 hneg
        · rw [hfix] at hy
          cases hy
    | ok absolute =>
        refine Traversals.singleton_eq_ok.trans (exists_congr fun l => and_congr_left fun _ => ?_)
        constructor
        · exact fun h => .inr ⟨hcollection, hcontext, hneg, absolute, hfix, h⟩
        · rintro (h | ⟨-, -, -, y, hy, h⟩)
          · exact absurd hneg (not_negative_of_nonNegative (of_newIntentLine h).2.1)
          · rw [hfix] at hy
            obtain rfl := Except.ok.inj hy
            exact h

/-- The line of the amount of the event. -/
theorem plain_eq_ok_iff (h : collectionField m ≠ none ∨ contextField m = none) {d : Decimal}
    {lines : List IntentLine} :
    (newIntentLine b r.currency m.role m.side d).map ([·]) = .ok lines ↔
      List.Forall₂ (Posts b ctx r) ([d].map fun x => (m, x)) lines := by
  rw [List.map_singleton, Traversals.forall₂_singleton_iff]
  exact Traversals.singleton_eq_ok.trans
    (exists_congr fun l => and_congr_left fun _ => (posts_iff_of_plain h).symm)

/-- The lines of the items of a collection. -/
theorem items_eq_ok_iff (h : collectionField m ≠ none) {items : List Value}
    {lines : List IntentLine} :
    (items.mapM fun item => do
        let d ← extractAmount b item r.amount
        newIntentLine b r.currency m.role m.side d) = .ok lines ↔
      ∃ amounts, (items.mapM fun item => extractAmount b item r.amount) = .ok amounts ∧
        List.Forall₂ (Posts b ctx r) (amounts.map fun x => (m, x)) lines := by
  simp only [Traversals.mapM_eq_ok_iff, Traversals.bind_eq_ok]
  induction items generalizing lines with
  | nil =>
      simp only [List.forall₂_nil_left_iff]
      constructor
      · rintro rfl
        exact ⟨[], rfl, .nil⟩
      · rintro ⟨amounts, rfl, hlines⟩
        exact List.forall₂_nil_left_iff.1 hlines
  | cons item items ih =>
      constructor
      · intro hlines
        obtain ⟨l, rest, ⟨d, hd, hl⟩, hrest, rfl⟩ := List.forall₂_cons_left_iff.1 hlines
        obtain ⟨amounts, hamounts, hposts⟩ := ih.1 hrest
        exact ⟨d :: amounts, .cons hd hamounts, .cons (.inl hl) hposts⟩
      · rintro ⟨amounts, hamounts, hposts⟩
        obtain ⟨d, rest, hd, hrest, rfl⟩ := List.forall₂_cons_left_iff.1 hamounts
        obtain ⟨l, lines, hl, hlines, rfl⟩ := List.forall₂_cons_left_iff.1 hposts
        exact .cons ⟨d, hd, (posts_iff_of_plain (.inl h)).1 hl⟩ (ih.2 ⟨rest, hrest, hlines⟩)

/-- The lines of a mapping are those of the amounts that the payload gives it. -/
theorem mappingLines_eq_ok_iff {lines : List IntentLine} :
    mappingLines b ctx r m = .ok lines ↔ ∃ amounts, payloadAmounts b r m = .ok amounts ∧
      List.Forall₂ (Posts b ctx r) (amounts.map fun x => (m, x)) lines := by
  have hone : ∀ amounts : List Decimal,
      List.Forall₂ (Posts b ctx r) (amounts.map fun x => (m, x)) lines ↔
        ∃ xs, (Except.ok amounts : Except Raised _) = .ok xs ∧
          List.Forall₂ (Posts b ctx r) (xs.map fun x => (m, x)) lines := by
    intro amounts
    exact ⟨fun h => ⟨amounts, rfl, h⟩, fun ⟨xs, hxs, h⟩ => Except.ok.inj hxs ▸ h⟩
  unfold mappingLines payloadAmounts
  cases hcollection : collectionField m with
  | some field =>
      have hm : collectionField m ≠ none := by
        rw [hcollection]
        exact (nomatch ·)
      dsimp only
      cases itemsOf ((r.safePayload.lookup field).getD (.list [])) with
      | error e => exact iff_of_false (fun h => (nomatch h)) fun ⟨_, h, _⟩ => (nomatch h)
      | ok items =>
          simp only [bind, Except.bind]
          cases items with
          | nil => exact (plain_eq_ok_iff (.inl hm)).trans (hone _)
          | cons item items => exact items_eq_ok_iff hm
  | none =>
      dsimp only
      cases hcontext : contextField m with
      | none => exact (plain_eq_ok_iff (.inr hcontext)).trans (hone _)
      | some field =>
          have hm : contextField m ≠ none := by
            rw [hcontext]
            exact (nomatch ·)
          dsimp only
          split
          · rw [← hone, List.map_nil, List.forall₂_nil_left_iff]
            exact ⟨fun h => (Except.ok.inj h).symm, fun h => h ▸ rfl⟩
          · cases decimalOf b (r.safePayload.get field) with
            | error e => exact iff_of_false (fun h => (nomatch h)) fun ⟨_, h, _⟩ => (nomatch h)
            | ok d => exact (contextLines_eq_ok_iff hcollection hm).trans (hone _)

/-! ### Lines of effects -/

/-- The lines of mappings are those of what is due for them. -/
theorem buildIntentLines_eq_ok_iff {mappings : List ModuleLineMapping}
    {lines : List IntentLine} :
    buildIntentLines b ctx r mappings = .ok lines ↔ ∃ due, dueFor b r mappings = .ok due ∧
      List.Forall₂ (Posts b ctx r) due lines := by
  unfold buildIntentLines dueFor
  induction mappings generalizing lines with
  | nil =>
      constructor
      · intro h
        obtain rfl := Except.ok.inj h
        exact ⟨[], rfl, .nil⟩
      · rintro ⟨due, h, hlines⟩
        obtain rfl := Except.ok.inj h
        rw [List.forall₂_nil_left_iff.1 hlines]
        rfl
  | cons m mappings ih =>
      simp only [Traversals.flatten_mapM_cons, Traversals.map_eq_ok (f := fun amounts =>
        List.map (fun x => (m, x)) amounts), mappingLines_eq_ok_iff, ih]
      constructor
      · rintro ⟨own, rest, ⟨amounts, hamounts, hown⟩, ⟨due, hdue, hrest⟩, rfl⟩
        exact ⟨_, ⟨_, due, ⟨amounts, hamounts, rfl⟩, hdue, rfl⟩, List.rel_append hown hrest⟩
      · rintro ⟨_, ⟨_, due, ⟨amounts, hamounts, rfl⟩, hdue, rfl⟩, hlines⟩
        obtain ⟨own, rest, hown, hrest, rfl⟩ := Traversals.forall₂_append_left_iff.1 hlines
        exact ⟨own, rest, ⟨amounts, hamounts, hown⟩, ⟨due, hdue, hrest⟩, rfl⟩

/-- An effect without mappings takes the lines of two mappings of its own. -/
theorem effectLines_eq (e : LedgerEffect) :
    effectLines b ctx r entry e = buildIntentLines b ctx r (effectMappings entry e) := by
  unfold effectLines effectMappings
  split
  · have hplain : ∀ role side, mappingLines b ctx r ⟨role, side, e.ledger, none, none⟩ =
        (newIntentLine b r.currency role side r.amount).map ([·]) := fun _ _ => rfl
    simp only [buildIntentLines, List.mapM_cons, List.mapM_nil, hplain]
    cases newIntentLine b r.currency e.debitRole .debit r.amount with
    | error _ => rfl
    | ok debit =>
        cases newIntentLine b r.currency e.creditRole .credit r.amount with
        | error _ => rfl
        | ok credit => rfl
  · rfl

theorem effectLines_eq_ok_iff {e : LedgerEffect} {lines : List IntentLine} :
    effectLines b ctx r entry e = .ok lines ↔
      ∃ due, dueFor b r (effectMappings entry e) = .ok due ∧
        List.Forall₂ (Posts b ctx r) due lines := by
  rw [effectLines_eq, buildIntentLines_eq_ok_iff]

theorem effectMappings_of_mem {e : LedgerEffect} (hm : m ∈ entry.lineMappings)
    (h : e.ledger = m.ledger) : effectMappings entry e = entry.mappingsOn m.ledger := by
  have hmem : m ∈ entry.mappingsOn m.ledger := List.mem_filter.2 ⟨hm, decide_eq_true rfl⟩
  unfold effectMappings
  rw [h]
  split
  · rename_i hnil
    rw [hnil] at hmem
    exact absurd hmem List.not_mem_nil
  · rfl

/-- Of two effects on a ledger both have nothing to post, or none has. -/
theorem due_eq_nil_of_ledger {e e' : LedgerEffect} (h : e.ledger = e'.ledger)
    (hdue : dueFor b r (effectMappings entry e') = .ok []) :
    dueFor b r (effectMappings entry e) = .ok [] := by
  unfold effectMappings at hdue ⊢
  rw [h]
  split
  · rename_i hnil
    rw [hnil] at hdue
    cases Except.ok.inj hdue
  · rename_i hne
    split at hdue
    · rename_i hnil
      exact absurd hnil (by assumption)
    · exact hdue

/-! ### Ledger intents -/

theorem ledgerIntent_eq_some_iff {ledger : String} {lines : List IntentLine} {i : LedgerIntent} :
    ledgerIntent ledger lines = some i ↔ lines ≠ [] ∧ i.ledgerId = ledger ∧ i.lines = lines := by
  unfold ledgerIntent
  by_cases h : lines = []
  · rw [dif_pos h]
    exact iff_of_false (fun h' => (nomatch h')) fun h' => h'.1 h
  · rw [dif_neg h]
    constructor
    · intro hi
      obtain rfl := Option.some.inj hi
      exact ⟨h, rfl, rfl⟩
    · rintro ⟨-, rfl, rfl⟩
      rfl

/-- The lines of an effect, where it has any. -/
def linesFor (b : Builtins) (ctx : Decimal.Context) (r : IntentRequest)
    (entry : ModulePolicyEntry) (e : LedgerEffect) : List IntentLine :=
  (effectLines b ctx r entry e).toOption.getD []

theorem linesFor_of_eq_ok {e : LedgerEffect} {lines : List IntentLine}
    (h : effectLines b ctx r entry e = .ok lines) : linesFor b ctx r entry e = lines := by
  unfold linesFor
  rw [h]
  rfl

/-- An effect has no lines exactly where nothing is due. -/
theorem linesFor_eq_nil_iff {e : LedgerEffect}
    (h : ∃ lines, effectLines b ctx r entry e = .ok lines) :
    linesFor b ctx r entry e = [] ↔ dueFor b r (effectMappings entry e) = .ok [] := by
  obtain ⟨lines, hlines⟩ := h
  obtain ⟨due, hdue, hposts⟩ := effectLines_eq_ok_iff.1 hlines
  rw [linesFor_of_eq_ok hlines, hdue]
  constructor
  · rintro rfl
    rw [List.forall₂_nil_right_iff.1 hposts]
  · intro h
    obtain rfl := Except.ok.inj h
    exact List.forall₂_nil_left_iff.1 hposts

/-- The ledger intents of effects whose lines are known. -/
def builtFrom (f : LedgerEffect → List IntentLine) (effects : List LedgerEffect) :
    List LedgerIntent :=
  effects.filterMap fun e => ledgerIntent e.ledger (f e)

section BuiltFrom

variable {f : LedgerEffect → List IntentLine} {effects : List LedgerEffect}

theorem nodup_builtFrom_iff : ((builtFrom f effects).map (·.ledgerId)).Nodup ↔
    effects.Pairwise fun e e' => f e ≠ [] → f e' ≠ [] → e.ledger ≠ e'.ledger := by
  unfold builtFrom List.Nodup
  rw [List.pairwise_map, List.pairwise_filterMap]
  refine List.Pairwise.iff fun e e' => ?_
  simp only [ledgerIntent_eq_some_iff]
  constructor
  · intro h he he'
    exact h ⟨e.ledger, f e, he⟩ ⟨he, rfl, rfl⟩ ⟨e'.ledger, f e', he'⟩ ⟨he', rfl, rfl⟩
  · rintro h i ⟨he, hi, -⟩ i' ⟨he', hi', -⟩
    rw [hi, hi']
    exact h he he'

/-- On a ledger stand the lines of the effects on it. -/
theorem lines_builtFrom (ledger : String) :
    ((builtFrom f effects).filter (·.ledgerId = ledger)).flatMap (·.lines) =
      (effects.filter (·.ledger = ledger)).flatMap f := by
  induction effects with
  | nil => rfl
  | cons e effects ih =>
      unfold builtFrom at ih ⊢
      rw [List.filterMap_cons, List.filter_cons]
      by_cases hnil : f e = []
      · rw [show ledgerIntent e.ledger (f e) = none from dif_pos hnil]
        dsimp only
        rw [ih]
        split
        · rw [List.flatMap_cons, hnil, List.nil_append]
        · rfl
      · rw [show ledgerIntent e.ledger (f e) = some ⟨e.ledger, f e, hnil⟩ from dif_neg hnil]
        dsimp only
        rw [List.filter_cons]
        split
        · rw [List.flatMap_cons, List.flatMap_cons, ih]
        · exact ih

/-- The lines on a ledger are those of each of its effects, where these have the same lines and
are one or have none. -/
theorem flatMap_eq_of_forall {lines : List IntentLine} (hne : effects ≠ [])
    (hsame : ∀ e ∈ effects, f e = lines) (hnil : effects.Pairwise fun _ _ => lines = []) :
    effects.flatMap f = lines := by
  cases effects with
  | nil => exact absurd rfl hne
  | cons e rest =>
      cases rest with
      | nil => rw [List.flatMap_singleton, hsame e List.mem_cons_self]
      | cons e' rest =>
          obtain rfl := List.rel_of_pairwise_cons hnil List.mem_cons_self
          exact List.flatMap_eq_nil_iff.2 hsame

end BuiltFrom

theorem ledgerIntents_of_forall
    (h : ∀ e ∈ entry.ledgerEffects, ∃ lines, effectLines b ctx r entry e = .ok lines) :
    ledgerIntents b ctx r entry = .ok (builtFrom (linesFor b ctx r entry) entry.ledgerEffects) := by
  unfold ledgerIntents
  rw [Traversals.mapM_of_forall (g := fun e => ledgerIntent e.ledger (linesFor b ctx r entry e))
    fun e he => ?_]
  · exact congrArg _ List.filterMap_map
  · obtain ⟨lines, hlines⟩ := h e he
    rw [linesFor_of_eq_ok hlines, hlines]
    rfl

theorem forall_of_ledgerIntents {built : List LedgerIntent}
    (h : ledgerIntents b ctx r entry = .ok built) :
    ∀ e ∈ entry.ledgerEffects, ∃ lines, effectLines b ctx r entry e = .ok lines := by
  intro e he
  obtain ⟨found, hfound, -⟩ := Traversals.map_eq_ok.1 h
  obtain ⟨i, -, hi⟩ := (Traversals.mem_of_mapM hfound).1 e he
  obtain ⟨lines, hlines, -⟩ := Traversals.map_eq_ok.1 hi
  exact ⟨lines, hlines⟩

variable {registry : String → Option ModulePolicyEntry}

theorem build_eq_ok {intent : AccountingIntent}
    (h : buildAccountingIntent b ctx registry r = .ok intent) :
    ∃ entry, registry r.profileName = some entry ∧
      (∀ e ∈ entry.ledgerEffects, ∃ lines, effectLines b ctx r entry e = .ok lines) ∧
      intent.ledgerIntents = builtFrom (linesFor b ctx r entry) entry.ledgerEffects := by
  unfold buildAccountingIntent at h
  split at h
  · cases h
  · rename_i entry hentry
    obtain ⟨built, hbuilt, h⟩ := Traversals.bind_eq_ok.1 h
    have hall := forall_of_ledgerIntents hbuilt
    rw [ledgerIntents_of_forall hall] at hbuilt
    obtain rfl := Except.ok.inj hbuilt
    refine ⟨entry, hentry, hall, ?_⟩
    split at h
    · cases h
    · obtain rfl := Except.ok.inj h
      rfl

/-- What the keys of an intent are made of. -/
theorem identifiers_of_build {intent : AccountingIntent}
    (h : buildAccountingIntent b ctx registry r = .ok intent) :
    intent.econEventId = r.econEventId ∧ intent.sourceEventId = r.sourceEventId ∧
      ∃ entry, registry r.profileName = some entry ∧ intent.profileVersion = entry.version := by
  unfold buildAccountingIntent at h
  split at h
  · cases h
  · rename_i entry hentry
    obtain ⟨built, -, h⟩ := Traversals.bind_eq_ok.1 h
    split at h
    · cases h
    · obtain rfl := Except.ok.inj h
      exact ⟨rfl, rfl, entry, hentry, rfl⟩

/-- An intent is returned where every effect has its lines, and one has some. -/
theorem exists_build (hentry : registry r.profileName = some entry)
    (hall : ∀ e ∈ entry.ledgerEffects, ∃ lines, effectLines b ctx r entry e = .ok lines)
    {e : LedgerEffect} (he : e ∈ entry.ledgerEffects) (hlines : linesFor b ctx r entry e ≠ []) :
    ∃ intent, buildAccountingIntent b ctx registry r = .ok intent := by
  have hmem : (⟨e.ledger, _, hlines⟩ : LedgerIntent) ∈
      builtFrom (linesFor b ctx r entry) entry.ledgerEffects :=
    List.mem_filterMap.2 ⟨e, he, dif_neg hlines⟩
  unfold buildAccountingIntent
  rw [hentry]
  dsimp only
  rw [ledgerIntents_of_forall hall]
  simp only [bind, Except.bind]
  split
  · rename_i hnil
    rw [hnil] at hmem
    exact absurd hmem List.not_mem_nil
  · exact ⟨_, rfl⟩

theorem idempotencyKey_injective (intent : AccountingIntent) :
    Function.Injective intent.idempotencyKey := by
  intro ledger ledger' h
  unfold AccountingIntent.idempotencyKey at h
  have hlists := congrArg String.toList h
  simp only [String.toList_append] at hlists
  exact String.toList_inj.1 (List.append_cancel_left
    (List.append_cancel_right (List.append_cancel_right hlists)))

/-! ### Once -/

/-- Ledgers are distinct exactly where no two effects with something to post share one. -/
theorem nodup_iff
    (hall : ∀ e ∈ entry.ledgerEffects, ∃ lines, effectLines b ctx r entry e = .ok lines) :
    ((builtFrom (linesFor b ctx r entry) entry.ledgerEffects).map (·.ledgerId)).Nodup ↔
      entry.ledgerEffects.Pairwise fun e e' =>
        e.ledger = e'.ledger → dueFor b r (effectMappings entry e) = .ok [] := by
  rw [nodup_builtFrom_iff]
  refine List.Pairwise.iff_of_mem fun {e e'} he he' => ?_
  rw [ne_eq, ne_eq, linesFor_eq_nil_iff (hall e he), linesFor_eq_nil_iff (hall e' he')]
  constructor
  · intro h heq
    by_contra hne
    exact h hne (fun hdue => hne (due_eq_nil_of_ledger heq hdue)) heq
  · exact fun h hne _ heq => hne (h heq)

/-- On the ledger of an effect stand the lines of the effect, where no two share it. -/
theorem linesOn_of_effect {intent : AccountingIntent}
    (hbuilt : intent.ledgerIntents = builtFrom (linesFor b ctx r entry) entry.ledgerEffects)
    (hall : ∀ e ∈ entry.ledgerEffects, ∃ lines, effectLines b ctx r entry e = .ok lines)
    (hdistinct : entry.ledgerEffects.Pairwise fun e e' =>
      e.ledger = e'.ledger → dueFor b r (effectMappings entry e) = .ok [])
    (hm : m ∈ entry.lineMappings) {e : LedgerEffect} (he : e ∈ entry.ledgerEffects)
    (hledger : e.ledger = m.ledger) :
    linesOn intent m.ledger = linesFor b ctx r entry e := by
  have hsame : ∀ e' ∈ entry.ledgerEffects, e'.ledger = m.ledger →
      linesFor b ctx r entry e' = linesFor b ctx r entry e := by
    intro e' _ h
    unfold linesFor
    rw [effectLines_eq, effectLines_eq, effectMappings_of_mem hm h,
      effectMappings_of_mem hm hledger]
  unfold linesOn
  rw [hbuilt, lines_builtFrom]
  refine flatMap_eq_of_forall ?_ (fun e' he' => ?_) ?_
  · exact List.ne_nil_of_mem (List.mem_filter.2 ⟨he, decide_eq_true hledger⟩)
  · obtain ⟨hmem, h⟩ := List.mem_filter.1 he'
    exact hsame e' hmem (of_decide_eq_true h)
  · rw [List.pairwise_filter]
    refine hdistinct.imp_of_mem fun {e₁ e₂} h₁ h₂ hdue hl₁ hl₂ => ?_
    have hl₁' := of_decide_eq_true hl₁
    rw [← hsame e₁ h₁ hl₁', linesFor_eq_nil_iff (hall e₁ h₁)]
    exact hdue (hl₁'.trans (of_decide_eq_true hl₂).symm)

theorem linesOn_of_forall_ne {intent : AccountingIntent}
    (hbuilt : intent.ledgerIntents = builtFrom (linesFor b ctx r entry) entry.ledgerEffects)
    {ledger : String} (h : ∀ e ∈ entry.ledgerEffects, e.ledger ≠ ledger) :
    linesOn intent ledger = [] := by
  unfold linesOn
  rw [hbuilt, lines_builtFrom, List.filter_eq_nil_iff.2 fun e he heq =>
    h e he (of_decide_eq_true heq)]
  rfl

/-- What is posted stands for what is due exactly where this fits. -/
theorem forall₂_stands_iff {due : List (ModuleLineMapping × Decimal)} {lines : List IntentLine}
    (h : List.Forall₂ (Posts b ctx r) due lines) :
    List.Forall₂ (Stands b r) due lines ↔ ∀ p ∈ due, Fits ctx p := by
  induction h with
  | nil => simp
  | cons hp _ ih => rw [List.forall₂_cons, List.forall_mem_cons, hp.stands_iff, ih]

/-- The amount of a debit and a credit that are posted is not negative. -/
theorem fits_of_mappingsOn_nil {e : LedgerEffect} (h : entry.mappingsOn e.ledger = [])
    {due : List (ModuleLineMapping × Decimal)} {lines : List IntentLine}
    (hdue : dueFor b r (effectMappings entry e) = .ok due)
    (hposts : List.Forall₂ (Posts b ctx r) due lines) : ∀ p ∈ due, Fits ctx p := by
  have hplain : ∀ p ∈ due, contextField p.1 = none := by
    unfold effectMappings at hdue
    rw [h] at hdue
    obtain rfl := Except.ok.inj hdue
    simp [contextField]
  intro p hp hneg
  obtain ⟨l, -, hl | ⟨-, hcontext, -⟩⟩ := (Traversals.mem_of_forall₂ hposts).1 p hp
  · exact absurd hneg (not_negative_of_nonNegative (of_newIntentLine hl).2.1)
  · exact absurd (hplain p hp) hcontext

/-- **Each mapping counts once** in an intent exactly where its request and its policy are sound. -/
theorem countsOnce_iff {intent : AccountingIntent}
    (hall : ∀ e ∈ entry.ledgerEffects, ∃ lines, effectLines b ctx r entry e = .ok lines)
    (hbuilt : intent.ledgerIntents = builtFrom (linesFor b ctx r entry) entry.ledgerEffects) :
    CountsOnce b r entry intent ↔ Sound b ctx r entry := by
  have hnodup := nodup_iff hall
  rw [← hbuilt] at hnodup
  constructor
  · intro h
    have hdistinct := hnodup.1 h.ledgers
    refine ⟨hdistinct, fun e he due hdue => ?_, fun m hm hne => ?_⟩
    · obtain ⟨lines, hlines⟩ := hall e he
      obtain ⟨due', hdue', hposts⟩ := effectLines_eq_ok_iff.1 hlines
      obtain rfl := Except.ok.inj (hdue.symm.trans hdue')
      cases hmappings : entry.mappingsOn e.ledger with
      | nil => exact fits_of_mappingsOn_nil hmappings hdue hposts
      | cons m _ =>
          obtain ⟨hm, hledger⟩ := List.mem_filter.1
            (show m ∈ entry.mappingsOn e.ledger from hmappings ▸ List.mem_cons_self)
          have hledger' : e.ledger = m.ledger := (of_decide_eq_true hledger).symm
          obtain ⟨due', hdue', hstands⟩ := h.mappings m hm
          rw [← effectMappings_of_mem hm hledger'] at hdue'
          obtain rfl := Except.ok.inj (hdue.symm.trans hdue')
          rw [linesOn_of_effect hbuilt hall hdistinct hm he hledger', linesFor_of_eq_ok hlines]
            at hstands
          exact (forall₂_stands_iff hposts).1 hstands
    · obtain ⟨due, hdue, hstands⟩ := h.mappings m hm
      rw [linesOn_of_forall_ne hbuilt hne, List.forall₂_nil_right_iff] at hstands
      rw [hdue, hstands]
  · intro h
    have hledgers := hnodup.2 h.distinct
    refine ⟨hledgers, ?_, fun m hm => ?_⟩
    · have hkeys := hledgers.map (idempotencyKey_injective intent)
      rwa [List.map_map] at hkeys
    · by_cases hreached : ∃ e ∈ entry.ledgerEffects, e.ledger = m.ledger
      · obtain ⟨e, he, hledger⟩ := hreached
        obtain ⟨lines, hlines⟩ := hall e he
        obtain ⟨due, hdue, hposts⟩ := effectLines_eq_ok_iff.1 hlines
        rw [linesOn_of_effect hbuilt hall h.distinct hm he hledger, linesFor_of_eq_ok hlines,
          ← effectMappings_of_mem hm hledger]
        exact ⟨due, hdue, (forall₂_stands_iff hposts).2 (h.fits e he due hdue)⟩
      · have hne : ∀ e ∈ entry.ledgerEffects, e.ledger ≠ m.ledger :=
          fun e he heq => hreached ⟨e, he, heq⟩
        rw [linesOn_of_forall_ne hbuilt hne]
        exact ⟨[], h.reached m hm hne, .nil⟩

/-- What an intent was built from was postable. -/
theorem postable_of_build {intent : AccountingIntent}
    (hbuilt : intent.ledgerIntents = builtFrom (linesFor b ctx r entry) entry.ledgerEffects)
    (hall : ∀ e ∈ entry.ledgerEffects, ∃ lines, effectLines b ctx r entry e = .ok lines) :
    Postable b r entry := by
  obtain ⟨i, hi⟩ := List.exists_mem_of_ne_nil _ intent.ledgerIntents_ne_nil
  rw [hbuilt] at hi
  obtain ⟨e, he, hledger⟩ := List.mem_filterMap.1 hi
  obtain ⟨hne, -⟩ := ledgerIntent_eq_some_iff.1 hledger
  obtain ⟨lines, hlines⟩ := hall e he
  obtain ⟨due, hdue, hposts⟩ := effectLines_eq_ok_iff.1 hlines
  rw [linesFor_of_eq_ok hlines] at hne
  cases hposts with
  | nil => exact absurd rfl hne
  | cons hp _ =>
      refine ⟨hp.isNumber.1, fun e' he' => ?_, .inl ⟨e, he, _, _, hdue⟩⟩
      obtain ⟨lines', hlines'⟩ := hall e' he'
      obtain ⟨due', hdue', hposts'⟩ := effectLines_eq_ok_iff.1 hlines'
      refine ⟨due', hdue', fun p hp => ?_⟩
      obtain ⟨l, -, hl⟩ := (Traversals.mem_of_forall₂ hposts').1 p hp
      exact hl.isNumber.2

/-- Sound requests with something to post get an intent. -/
theorem exists_build_of_sound (hentry : registry r.profileName = some entry)
    (hpost : Postable b r entry) (hsound : Sound b ctx r entry) :
    ∃ intent, buildAccountingIntent b ctx registry r = .ok intent := by
  have hall : ∀ e ∈ entry.ledgerEffects, ∃ lines, effectLines b ctx r entry e = .ok lines := by
    intro e he
    obtain ⟨due, hdue, hnan⟩ := hpost.due e he
    have hfits := hsound.fits e he due hdue
    obtain ⟨lines, hlines⟩ : ∃ lines, List.Forall₂ (Posts b ctx r) due lines := by
      refine Traversals.exists_forall₂ fun p hp => ?_
      exact exists_posts hpost.currency (hnan p hp) (hfits p hp)
    exact ⟨lines, effectLines_eq_ok_iff.2 ⟨due, hdue, hlines⟩⟩
  have hsome : ∃ e ∈ entry.ledgerEffects, ∃ p due,
      dueFor b r (effectMappings entry e) = .ok (p :: due) := by
    rcases hpost.posts with h | ⟨m, hm, p, due, hdue⟩
    · exact h
    · by_contra hnone
      have hreached := hsound.reached m hm fun e he hledger =>
        hnone ⟨e, he, p, due, by rw [effectMappings_of_mem hm hledger, hdue]⟩
      rw [hdue] at hreached
      cases Except.ok.inj hreached
  obtain ⟨e, he, p, due, hdue⟩ := hsome
  refine exists_build hentry hall he fun hnil => ?_
  rw [linesFor_eq_nil_iff (hall e he), hdue] at hnil
  cases Except.ok.inj hnil

end Laws

/-- **Intents count each mapping once**, and there is one where there is something to post, exactly
where the policy and the request are sound as soon as there is something to post. -/
theorem rightlyBuilt_iff (b : Builtins) (ctx : Decimal.Context)
    (registry : String → Option ModulePolicyEntry) (r : IntentRequest) :
    RightlyBuilt b ctx registry r ↔ ∀ entry, registry r.profileName = some entry →
      Postable b r entry → Sound b ctx r entry := by
  constructor
  · rintro ⟨honce, hbuild⟩ entry hentry hpost
    obtain ⟨intent, hintent⟩ := hbuild entry hentry hpost
    obtain ⟨entry', hentry', hall, hbuilt⟩ := build_eq_ok hintent
    obtain rfl := Option.some.inj (hentry.symm.trans hentry')
    obtain ⟨entry', hentry', hcounts⟩ := honce intent hintent
    obtain rfl := Option.some.inj (hentry.symm.trans hentry')
    exact (countsOnce_iff hall hbuilt).1 hcounts
  · intro h
    refine ⟨fun intent hintent => ?_, fun entry hentry hpost => ?_⟩
    · obtain ⟨entry, hentry, hall, hbuilt⟩ := build_eq_ok hintent
      exact ⟨entry, hentry, (countsOnce_iff hall hbuilt).2
        (h entry hentry (postable_of_build hbuilt hall))⟩
    · exact exists_build_of_sound hentry hpost (h entry hentry hpost)

/-- Texts of two amounts, and one currency. -/
def intentBuiltins : Builtins :=
  { plainBuiltins [("120.00", .finite false 12000 (-2)), ("-20.00", .finite true 2000 (-2))] with
    isCurrency := fun code => code = "USD" }

/-- Expenses by line, against the amount of the event. -/
def expensePolicy (effects : List LedgerEffect) : ModulePolicyEntry where
  name := "ExpenseReport"
  version := 1
  description := "Expense report"
  ledgerEffects := effects
  lineMappings :=
    [{ role := "EXPENSE", side := .debit, foreach := some "expense_lines" },
      { role := "EMPLOYEE_PAYABLE", side := .credit }]

def expenseRequest (payload : Option Dict) : IntentRequest where
  profileName := "ExpenseReport"
  econEventId := ⟨21⟩
  sourceEventId := ⟨22⟩
  effectiveDate := sampleTime.date
  amount := .finite false 10000 (-2)
  currency := "USD"
  payload := payload
  description := none
  coaVersion := 1
  dimensionSchemaVersion := 1

/-- A line and a credit for a returned item. -/
def expenseLines : Dict :=
  [("expense_lines", .list [.dict [("amount", .str "120.00")], .dict [("amount", .str "-20.00")]])]

/-- Two effects on a ledger give it two ledger intents with all mappings in both, and an expense
line with a negative amount is refused. -/
theorem not_rightlyBuilt :
    ¬RightlyBuilt intentBuiltins Hashing.defaultContext
        (fun _ => some (expensePolicy
          [⟨"GL", "EXPENSE", "EMPLOYEE_PAYABLE"⟩, ⟨"GL", "EXPENSE", "CASH"⟩]))
        (expenseRequest none) ∧
      ¬RightlyBuilt intentBuiltins Hashing.defaultContext
        (fun _ => some (expensePolicy [⟨"GL", "EXPENSE", "EMPLOYEE_PAYABLE"⟩]))
        (expenseRequest (some expenseLines)) := by
  constructor
  · intro h
    have hbuilt : (buildAccountingIntent intentBuiltins Hashing.defaultContext
        (fun _ => some (expensePolicy
          [⟨"GL", "EXPENSE", "EMPLOYEE_PAYABLE"⟩, ⟨"GL", "EXPENSE", "CASH"⟩]))
        (expenseRequest none)).toOption.map (fun intent => intent.ledgerIntents.map (·.ledgerId)) =
          some ["GL", "GL"] := by decide +kernel
    obtain ⟨intent, hintent, hledgers⟩ := Traversals.exists_of_map_toOption hbuilt
    obtain ⟨entry, -, hcounts⟩ := h.1 intent hintent
    have hnodup := hcounts.ledgers
    rw [hledgers] at hnodup
    exact absurd hnodup (by decide)
  · intro h
    have hrefused : (buildAccountingIntent intentBuiltins Hashing.defaultContext
        (fun _ => some (expensePolicy [⟨"GL", "EXPENSE", "EMPLOYEE_PAYABLE"⟩]))
        (expenseRequest (some expenseLines))).toOption.map
          (fun intent => intent.ledgerIntents.map (·.ledgerId)) = none := by decide +kernel
    have hdue : dueFor intentBuiltins (expenseRequest (some expenseLines))
        (effectMappings (expensePolicy [⟨"GL", "EXPENSE", "EMPLOYEE_PAYABLE"⟩])
          ⟨"GL", "EXPENSE", "EMPLOYEE_PAYABLE"⟩) =
        .ok [(⟨"EXPENSE", .debit, "GL", none, some "expense_lines"⟩, .finite false 12000 (-2)),
          (⟨"EXPENSE", .debit, "GL", none, some "expense_lines"⟩, .finite true 2000 (-2)),
          (⟨"EMPLOYEE_PAYABLE", .credit, "GL", none, none⟩, .finite false 10000 (-2))] := by
      decide +kernel
    obtain ⟨intent, hintent⟩ := h.2 _ rfl
      { currency := by decide +kernel
        due := by
          intro e he
          obtain rfl := List.mem_singleton.1 he
          refine ⟨_, hdue, ?_⟩
          simp only [List.forall_mem_cons, List.not_mem_nil, false_implies, implies_true, and_true]
          exact ⟨(nomatch ·), (nomatch ·), (nomatch ·)⟩
        posts := .inl ⟨_, List.mem_singleton_self _, _, _, hdue⟩ }
    rw [hintent] at hrefused
    cases hrefused

end FinanceAccounting.Ingestion
