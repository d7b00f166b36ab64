import FinanceAccounting.Config.Schema
import FinanceAccounting.Library.Traversals
import FinanceAccounting.Kernel.JournalWriter

/-! # Role bindings

`build_role_resolver` folds the role bindings of a pack into the dictionary of `RoleResolver`,
from which the journal writer reads the account of every line.  The dictionary has one entry a
role: a binding replaces those of the same role before it, whatever their ledger and dates
(`find?_registerAll`).

`resolves_rightly_iff` says exactly for which bindings a line gets the account that is bound to its
role in its ledger on its date. -/

namespace FinanceAccounting.Config

open JournalWriter (BindingRecord RoleResolutionError)

/-! ### The resolver -/

/-- A binding with its provenance, as `BindingRecord` has it. -/
structure BoundAccount extends BindingRecord where
  accountName : String
  accountType : String
  normalBalance : String
  effectiveFrom : String
  effectiveTo : String
  configId : String
  configVersion : ℤ

/-- The bindings by role. -/
structure RoleResolver where
  bindings : List (String × BoundAccount) := []

namespace RoleResolver

def find? (resolver : RoleResolver) (role : String) : Option BoundAccount :=
  resolver.bindings.lookup role

/-- `register_binding`. -/
def registerBinding (resolver : RoleResolver) (role : String) (account : BoundAccount) :
    RoleResolver where
  bindings := (role, account) :: resolver.bindings.filter (·.1 ≠ role)

theorem lookup_filter_ne {r role : String} (h : r ≠ role) (ms : List (String × BoundAccount)) :
    (ms.filter (·.1 ≠ role)).lookup r = ms.lookup r := by
  induction ms with
  | nil => rfl
  | cons m ms ih =>
      obtain ⟨k, v⟩ := m
      rw [List.filter_cons, List.lookup_cons]
      by_cases hk : k = role
      · have hrk : (r == k) = false := by simpa [hk] using h
        rw [if_neg (by simpa using hk), hrk]
        exact ih
      · rw [if_pos (by simpa using hk), List.lookup_cons]
        cases r == k with
        | true => rfl
        | false => exact ih

theorem find?_registerBinding (resolver : RoleResolver) (role r : String)
    (account : BoundAccount) :
    (resolver.registerBinding role account).find? r =
      if r = role then some account else resolver.find? r := by
  unfold find? registerBinding
  rw [List.lookup_cons]
  by_cases h : r = role
  · simp [h]
  · have hbeq : (r == role) = false := by simpa using h
    rw [hbeq, if_neg h]
    exact lookup_filter_ne h resolver.bindings

end RoleResolver

/-! ### The bridge -/

/-- `isdigit` of a character, and `int` of a one-character text where it does not raise (it does
for superscripts, which are digits too). -/
structure DigitReading where
  isdigit : Char → Bool
  int : Char → Option ℕ

inductive BridgeError where
  | valueError
  | unresolved (e : RoleResolutionError)

/-- `_account_type_from_code`. -/
def accountTypeFromCode (digits : DigitReading) (code : String) :
    Except BridgeError (String × String) :=
  if "SL-".toList.isPrefixOf code.toList then .ok ("asset", "debit")
  else
    match code.toList with
    | [] => .ok ("expense", "debit")
    | c :: _ =>
        if digits.isdigit c then
          match digits.int c with
          | none => .error .valueError
          | some 1 => .ok ("asset", "debit")
          | some 2 => .ok ("liability", "credit")
          | some 3 => .ok ("equity", "credit")
          | some 4 => .ok ("revenue", "credit")
          | some _ => .ok ("expense", "debit")
        else .ok ("expense", "debit")

/-- What the bridge is given besides the bindings: account ids by code, digits, and the identity
of the pack. -/
structure BridgeContext where
  uuid5 : String → UUID
  digits : DigitReading
  configId : String
  configVersion : ℤ

/-- The account of one binding. -/
def boundAccount (ctx : BridgeContext) (binding : RoleBinding) :
    Except BridgeError BoundAccount := do
  let (atype, nbal) ← accountTypeFromCode ctx.digits binding.accountCode
  return {
    accountId := ctx.uuid5 binding.accountCode
    accountCode := binding.accountCode
    accountName := binding.role ++ " (" ++ binding.accountCode ++ ")"
    accountType := atype
    normalBalance := nbal
    effectiveFrom := binding.effectiveFrom.str
    effectiveTo := (binding.effectiveTo.map (·.str)).getD ""
    configId := ctx.configId
    configVersion := ctx.configVersion }

def registerAll (ctx : BridgeContext) (resolver : RoleResolver) :
    List RoleBinding → Except BridgeError RoleResolver
  | [] => .ok resolver
  | binding :: bindings => do
      let account ← boundAccount ctx binding
      registerAll ctx (resolver.registerBinding binding.role account) bindings

/-- `build_role_resolver`. -/
def buildRoleResolver (ctx : BridgeContext) (bindings : List RoleBinding) :
    Except BridgeError RoleResolver :=
  registerAll ctx {} bindings

/-- The writer's view of a resolver. -/
def RoleResolver.services {σ : Type} (resolver : RoleResolver) : JournalWriter.Services σ where
  bindings role := (resolver.find? role).map (·.toBindingRecord)

/-- The account of a posting line: the resolver of the pack is built, and the writer resolves the
role of the line. -/
def resolvePostingLine (ctx : BridgeContext) (bindings : List RoleBinding) (role ledgerId : String)
    (coaVersion : ℤ) : Except BridgeError BindingRecord := do
  let resolver ← buildRoleResolver ctx bindings
  (JournalWriter.resolveFull (resolver.services : JournalWriter.Services Unit) role ledgerId
    coaVersion).mapError .unresolved

/-! ### Which binding the resolver has -/

/-- The code does not start with a digit that `int` refuses. -/
def Readable (digits : DigitReading) (code : String) : Prop :=
  "SL-".toList <+: code.toList ∨
    ∀ c ∈ code.toList.head?, digits.isdigit c = true → (digits.int c).isSome = true

theorem accountTypeFromCode_cases (digits : DigitReading) (code : String) :
    (Readable digits code ∧ ∃ types, accountTypeFromCode digits code = .ok types) ∨
      (¬Readable digits code ∧ accountTypeFromCode digits code = .error .valueError) := by
  unfold Readable accountTypeFromCode
  by_cases hsl : "SL-".toList.isPrefixOf code.toList = true
  · left
    exact ⟨Or.inl (List.isPrefixOf_iff_prefix.mp hsl), _, if_pos hsl⟩
  · have hnot : ¬"SL-".toList <+: code.toList := fun h => hsl (List.isPrefixOf_iff_prefix.mpr h)
    rw [if_neg hsl]
    revert hnot
    cases code.toList with
    | nil => exact fun _ => Or.inl ⟨Or.inr (by simp), _, rfl⟩
    | cons c cs =>
        intro hnot
        simp only [List.head?_cons, Option.mem_def, Option.some.injEq, forall_eq']
        by_cases hdigit : digits.isdigit c = true
        · cases hint : digits.int c with
          | none =>
              right
              refine ⟨?_, by rw [if_pos hdigit]⟩
              rintro (hsl' | hsome)
              · exact hnot hsl'
              · simp [hdigit] at hsome
          | some n =>
              left
              refine ⟨Or.inr fun _ => rfl, ?_⟩
              simp only [hdigit, if_true]
              split
              all_goals first | exact ⟨_, rfl⟩ | contradiction
        · exact Or.inl ⟨Or.inr fun h => absurd h hdigit, _, if_neg hdigit⟩

/-- The binding of a role that was registered last. -/
def lastBinding (bindings : List RoleBinding) (role : String) : Option RoleBinding :=
  (bindings.filter (·.role = role)).getLast?

theorem lastBinding_cons (b : RoleBinding) (bs : List RoleBinding) (role : String) :
    lastBinding (b :: bs) role =
      (lastBinding bs role).or (if b.role = role then some b else none) := by
  unfold lastBinding
  by_cases h : b.role = role
  · rw [List.filter_cons_of_pos (by simpa using h), if_pos h, List.getLast?_cons]
    cases (bs.filter (·.role = role)).getLast? <;> rfl
  · rw [List.filter_cons_of_neg (by simpa using h), if_neg h, Option.or_none]

/-- The account of a binding, as the resolver has it. -/
structure BoundTo (ctx : BridgeContext) (binding : RoleBinding) (account : BoundAccount) :
    Prop where
  accountId : account.accountId = ctx.uuid5 binding.accountCode
  accountCode : account.accountCode = binding.accountCode

section Services

variable {resolver : RoleResolver} {role : String} (ledgerId : String) (coaVersion : ℤ)

theorem resolveFull_services_of_some {account : BoundAccount}
    (h : resolver.find? role = some account) :
    JournalWriter.resolveFull (resolver.services : JournalWriter.Services Unit) role ledgerId
      coaVersion = .ok account.toBindingRecord := by
  simp only [JournalWriter.resolveFull, RoleResolver.services, h, Option.map_some]

theorem resolveFull_services_of_none (h : resolver.find? role = none) :
    JournalWriter.resolveFull (resolver.services : JournalWriter.Services Unit) role ledgerId
      coaVersion = .error ⟨role, ledgerId, coaVersion⟩ := by
  simp only [JournalWriter.resolveFull, RoleResolver.services, h, Option.map_none]

end Services

theorem boundAccount_cases (ctx : BridgeContext) (binding : RoleBinding) :
    (Readable ctx.digits binding.accountCode ∧
        ∃ account, boundAccount ctx binding = .ok account ∧ BoundTo ctx binding account) ∨
      (¬Readable ctx.digits binding.accountCode ∧
        boundAccount ctx binding = .error .valueError) := by
  unfold boundAccount
  rcases accountTypeFromCode_cases ctx.digits binding.accountCode with
    ⟨hreadable, types, htypes⟩ | ⟨hnot, herror⟩
  · left
    rw [htypes]
    exact ⟨hreadable, _, rfl, ⟨rfl, rfl⟩⟩
  · right
    rw [herror]
    exact ⟨hnot, rfl⟩

/-- What a resolver has for a role after registering more bindings. -/
structure Registered (ctx : BridgeContext) (start resolver : RoleResolver)
    (bindings : List RoleBinding) : Prop where
  last : ∀ role b, lastBinding bindings role = some b →
    ∃ account, resolver.find? role = some account ∧ BoundTo ctx b account
  other : ∀ role, lastBinding bindings role = none → resolver.find? role = start.find? role

/-- The resolver is built exactly when every account code can be read, and then the last binding
of a role counts. -/
theorem registerAll_cases (ctx : BridgeContext) (bindings : List RoleBinding) :
    ∀ start : RoleResolver,
      ((∀ b ∈ bindings, Readable ctx.digits b.accountCode) ∧
          ∃ resolver, registerAll ctx start bindings = .ok resolver ∧
            Registered ctx start resolver bindings) ∨
        ((∃ b ∈ bindings, ¬Readable ctx.digits b.accountCode) ∧
          registerAll ctx start bindings = .error .valueError) := by
  induction bindings with
  | nil =>
      intro start
      exact Or.inl ⟨by simp, start, rfl, ⟨fun role b h => (by cases h), fun _ _ => rfl⟩⟩
  | cons b bs ih =>
      intro start
      rw [registerAll]
      rcases boundAccount_cases ctx b with ⟨hreadable, account, haccount, hbound⟩ | ⟨hnot, herror⟩
      · rw [haccount]
        rcases ih (start.registerBinding b.role account) with
          ⟨hall, resolver, hresolver, hregistered⟩ | ⟨⟨b', hb', hnot⟩, herror⟩
        · left
          refine ⟨List.forall_mem_cons.mpr ⟨hreadable, hall⟩, resolver, hresolver, ?_, ?_⟩
          · intro role b' hlast
            rw [lastBinding_cons] at hlast
            cases hrest : lastBinding bs role with
            | some b'' =>
                rw [hrest, Option.some_or] at hlast
                obtain rfl := Option.some.inj hlast
                exact hregistered.last role b'' hrest
            | none =>
                rw [hrest, Option.none_or] at hlast
                by_cases hrole : b.role = role
                · rw [if_pos hrole] at hlast
                  obtain rfl := Option.some.inj hlast
                  refine ⟨account, ?_, hbound⟩
                  rw [hregistered.other role hrest, RoleResolver.find?_registerBinding,
                    if_pos hrole.symm]
                · rw [if_neg hrole] at hlast
                  cases hlast
          · intro role hnone
            rw [lastBinding_cons, Option.or_eq_none_iff] at hnone
            have hrole : b.role ≠ role := fun h => by simp [h] at hnone
            rw [hregistered.other role hnone.1, RoleResolver.find?_registerBinding,
              if_neg (Ne.symm hrole)]
        · exact Or.inr ⟨⟨b', List.mem_cons_of_mem b hb', hnot⟩, herror⟩
      · rw [herror]
        exact Or.inr ⟨⟨b, List.mem_cons_self, hnot⟩, rfl⟩

/-! ### The account of a posting line -/

/-- The line resolves as a dictionary of the last bindings does. -/
theorem resolvePostingLine_cases (ctx : BridgeContext) (bindings : List RoleBinding)
    (role ledgerId : String) (coaVersion : ℤ) :
    ((∀ b ∈ bindings, Readable ctx.digits b.accountCode) ∧
        ∃ b account, lastBinding bindings role = some b ∧
          resolvePostingLine ctx bindings role ledgerId coaVersion = .ok account ∧
          account.accountId = ctx.uuid5 b.accountCode ∧ account.accountCode = b.accountCode) ∨
      (((∃ b ∈ bindings, ¬Readable ctx.digits b.accountCode) ∨ lastBinding bindings role = none) ∧
        ∃ e, resolvePostingLine ctx bindings role ledgerId coaVersion = .error e) := by
  unfold resolvePostingLine buildRoleResolver
  rcases registerAll_cases ctx bindings {} with ⟨hall, resolver, hresolver, hregistered⟩ | ⟨hnot, herror⟩
  · rw [hresolver]
    cases hlast : lastBinding bindings role with
    | some b =>
        obtain ⟨account, hfind, hbound⟩ := hregistered.last role b hlast
        left
        refine ⟨hall, b, account.toBindingRecord, rfl, ?_, hbound.accountId, hbound.accountCode⟩
        show Except.mapError _ (JournalWriter.resolveFull _ _ _ _) = _
        rw [resolveFull_services_of_some ledgerId coaVersion hfind]
        rfl
    | none =>
        right
        refine ⟨Or.inr rfl, .unresolved ⟨role, ledgerId, coaVersion⟩, ?_⟩
        show Except.mapError _ (JournalWriter.resolveFull _ _ _ _) = _
        rw [resolveFull_services_of_none ledgerId coaVersion (hregistered.other role hlast)]
        rfl
  · rw [herror]
    exact Or.inr ⟨Or.inl hnot, _, rfl⟩

/-- The bindings of a role in a ledger that are in force on a date. -/
def bindingsInForce (bindings : List RoleBinding) (role ledgerId : String) (on : Date) :
    List RoleBinding :=
  bindings.filter fun b => b.role = role ∧ b.ledger = ledgerId ∧ b.effectiveFrom ≤ on ∧
    ∀ effectiveTo ∈ b.effectiveTo, on ≤ effectiveTo

/-- L1 and L2: with one binding in force the account is that binding's; with none or several the
role is not resolved. -/
def ResolvesRightly (ctx : BridgeContext) (bindings : List RoleBinding) (role ledgerId : String)
    (on : Date) (coaVersion : ℤ) : Prop :=
  match bindingsInForce bindings role ledgerId on with
  | [b] => ∃ account, resolvePostingLine ctx bindings role ledgerId coaVersion = .ok account ∧
      account.accountId = ctx.uuid5 b.accountCode ∧ account.accountCode = b.accountCode
  | _ => ∃ e, resolvePostingLine ctx bindings role ledgerId coaVersion = .error e

/-- The role has no binding at all, or one is in force and the last binding of the role has the
same code; where a code cannot be read, none or several are in force. -/
def Unambiguous (digits : DigitReading) (bindings : List RoleBinding) (role ledgerId : String)
    (on : Date) : Prop :=
  ((∀ b ∈ bindings, Readable digits b.accountCode) ∧
      ((∀ b ∈ bindings, b.role ≠ role) ∨
        ∃ b last, bindingsInForce bindings role ledgerId on = [b] ∧
          lastBinding bindings role = some last ∧ last.accountCode = b.accountCode)) ∨
    ((∃ b ∈ bindings, ¬Readable digits b.accountCode) ∧
      (bindingsInForce bindings role ledgerId on).length ≠ 1)

theorem lastBinding_eq_none_iff {bindings : List RoleBinding} {role : String} :
    lastBinding bindings role = none ↔ ∀ b ∈ bindings, b.role ≠ role := by
  rw [lastBinding, List.getLast?_eq_none_iff, List.filter_eq_nil_iff]
  simp

theorem bindingsInForce_eq_nil {bindings : List RoleBinding} {role : String}
    (h : lastBinding bindings role = none) (ledgerId : String) (on : Date) :
    bindingsInForce bindings role ledgerId on = [] := by
  rw [bindingsInForce, List.filter_eq_nil_iff]
  intro b hb
  have hrole := lastBinding_eq_none_iff.mp h b hb
  simp [hrole]

theorem resolvesRightly_of_one {ctx : BridgeContext} {bindings : List RoleBinding}
    {role ledgerId : String} {on : Date} {coaVersion : ℤ} {b : RoleBinding}
    (h : bindingsInForce bindings role ledgerId on = [b]) :
    ResolvesRightly ctx bindings role ledgerId on coaVersion ↔
      ∃ account, resolvePostingLine ctx bindings role ledgerId coaVersion = .ok account ∧
        account.accountId = ctx.uuid5 b.accountCode ∧ account.accountCode = b.accountCode := by
  rw [ResolvesRightly, h]

theorem resolvesRightly_of_not_one {ctx : BridgeContext} {bindings : List RoleBinding}
    {role ledgerId : String} {on : Date} {coaVersion : ℤ}
    (h : (bindingsInForce bindings role ledgerId on).length ≠ 1) :
    ResolvesRightly ctx bindings role ledgerId on coaVersion ↔
      ∃ e, resolvePostingLine ctx bindings role ledgerId coaVersion = .error e := by
  unfold ResolvesRightly
  split
  · rename_i b hb
    simp [hb] at h
  · exact Iff.rfl

/-- **Role bindings (L1, L2).** A line gets the one account that is bound to its role in its
ledger on its date, and is refused where there is none or more than one, exactly in these cases:
the resolver keeps the last binding of a role, and looks at no ledger and no date. -/
theorem resolves_rightly_iff (ctx : BridgeContext) (bindings : List RoleBinding)
    (role ledgerId : String) (on : Date) (coaVersion : ℤ) :
    ResolvesRightly ctx bindings role ledgerId on coaVersion ↔
      Unambiguous ctx.digits bindings role ledgerId on := by
  rcases resolvePostingLine_cases ctx bindings role ledgerId coaVersion with
    ⟨hall, last, account, hlast, hok, hid, hcode⟩ | ⟨hcases, e, herror⟩
  · have hreadable : ¬∃ b ∈ bindings, ¬Readable ctx.digits b.accountCode := by
      rintro ⟨b, hb, hnot⟩
      exact hnot (hall b hb)
    have hrole : ¬∀ b ∈ bindings, b.role ≠ role := fun h => by
      rw [lastBinding_eq_none_iff.mpr h] at hlast
      cases hlast
    by_cases hone : (bindingsInForce bindings role ledgerId on).length = 1
    · obtain ⟨b, hb⟩ := List.length_eq_one_iff.mp hone
      rw [resolvesRightly_of_one hb, hok]
      constructor
      · rintro ⟨account', hok', -, hcode'⟩
        obtain rfl := Except.ok.inj hok'
        exact Or.inl ⟨hall, Or.inr ⟨b, last, hb, hlast, hcode.symm.trans hcode'⟩⟩
      · rintro (⟨-, hnone | ⟨b', last', hb', hlast', hcode'⟩⟩ | ⟨hnot, -⟩)
        · exact absurd hnone hrole
        · obtain rfl : b = b' := by simpa using hb.symm.trans hb'
          obtain rfl := Option.some.inj (hlast.symm.trans hlast')
          exact ⟨account, rfl, by rw [hid, hcode'], hcode.trans hcode'⟩
        · exact absurd hnot hreadable
    · rw [resolvesRightly_of_not_one hone, hok]
      apply iff_of_false
      · rintro ⟨e, he⟩
        cases he
      · rintro (⟨-, hnone | ⟨b', last', hb', -⟩⟩ | ⟨hnot, -⟩)
        · exact hrole hnone
        · rw [hb'] at hone
          exact hone rfl
        · exact hreadable hnot
  · by_cases hone : (bindingsInForce bindings role ledgerId on).length = 1
    · obtain ⟨b, hb⟩ := List.length_eq_one_iff.mp hone
      rw [resolvesRightly_of_one hb, herror]
      apply iff_of_false
      · rintro ⟨account, hok, -⟩
        cases hok
      · rintro (⟨hall, hnone | ⟨b', last, -, hlast, -⟩⟩ | ⟨-, hlen⟩)
        · rw [bindingsInForce_eq_nil (lastBinding_eq_none_iff.mpr hnone)] at hb
          cases hb
        · rcases hcases with ⟨b, hb, hnot⟩ | hnone
          · exact hnot (hall b hb)
          · rw [hnone] at hlast
            cases hlast
        · exact hlen hone
    · rw [resolvesRightly_of_not_one hone, herror]
      refine iff_of_true ⟨e, rfl⟩ ?_
      by_cases hall : ∀ b ∈ bindings, Readable ctx.digits b.accountCode
      · rcases hcases with ⟨b, hb, hnot⟩ | hnone
        · exact absurd (hall b hb) hnot
        · exact Or.inl ⟨hall, Or.inl (lastBinding_eq_none_iff.mp hnone)⟩
      · simp only [not_forall, exists_prop] at hall
        exact Or.inr ⟨hall, hone⟩

/-- The ASCII digits. -/
def sampleDigits : DigitReading where
  isdigit c := c.isDigit
  int c := if c.isDigit then some (c.toNat - '0'.toNat) else none

def sampleContext : BridgeContext where
  uuid5 code := ⟨BitVec.ofNat 128 code.length⟩
  digits := sampleDigits
  configId := "US-GAAP-2026-v1"
  configVersion := 1

/-- One role in two ledgers. -/
def sampleBindings : List RoleBinding :=
  [{ role := "INVENTORY", ledger := "GL", accountCode := "1200", effectiveFrom := sampleTime.date },
    { role := "INVENTORY", ledger := "INVENTORY", accountCode := "SL-1200",
      effectiveFrom := sampleTime.date }]

/-- **A line of the general ledger gets the account of the subledger.** -/
theorem subledger_account_resolved :
    ¬ResolvesRightly sampleContext sampleBindings "INVENTORY" "GL" sampleTime.date 1 := by
  have hforce : bindingsInForce sampleBindings "INVENTORY" "GL" sampleTime.date =
      [⟨"INVENTORY", "GL", "1200", sampleTime.date, none⟩] := by
    rfl
  rw [resolvesRightly_of_one hforce]
  rintro ⟨account, hok, -, hcode⟩
  have hresolved : resolvePostingLine sampleContext sampleBindings "INVENTORY" "GL" 1 =
      .ok ⟨sampleContext.uuid5 "SL-1200", "SL-1200"⟩ := by
    rfl
  rw [hresolved] at hok
  obtain rfl := Except.ok.inj hok
  revert hcode
  decide

end FinanceAccounting.Config
