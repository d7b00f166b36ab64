import FinanceAccounting.Library.Ranking
import FinanceAccounting.Kernel.Hashing

/-! # Policy selection

`PolicySelector`: the registry of accounting policies, the filters that find the policies matching
an event, and the cascade of `_resolve_precedence` over them (P1).

`Greatest` says which policy should win: among the matching policies that none of them overrides,
the one that is ahead of all others by scope specificity and then by priority.
`find_for_event_correct_iff` says exactly when the cascade finds it, or reports that there is
none. -/

namespace FinanceAccounting.PolicySelector

open Hashing (PyVal)
open Ranking (Top UniqueTop ascending descending lexKey)

/-! ### Policies -/

inductive PrecedenceMode where
  | normal
  | override
deriving DecidableEq

structure PolicyPrecedence where
  mode : PrecedenceMode := .normal
  priority : ℤ := 0
  overrides : List String := []

structure PolicyTrigger where
  eventType : String
  /-- Field paths with the values they must have. -/
  conditions : List (String × PyVal) := []

/-- What the selector reads of a policy, with the checks of its construction. -/
structure AccountingPolicy where
  name : String
  version : ℤ
  trigger : PolicyTrigger
  effectiveFrom : Date
  effectiveTo : Option Date := none
  scope : String := "*"
  precedence : PolicyPrecedence := {}
  name_ne : name ≠ "" := by decide
  version_ge : 1 ≤ version := by decide
  eventType_ne : trigger.eventType ≠ "" := by decide

namespace AccountingPolicy

def isEffectiveOn (p : AccountingPolicy) (checkDate : Date) : Bool :=
  !(checkDate < p.effectiveFrom) && !(p.effectiveTo.any fun effectiveTo => effectiveTo < checkDate)

/-- `"*"` matches everything, `"prefix:*"` what begins with the prefix, else the value itself. -/
def matchesScope (p : AccountingPolicy) (scopeValue : String) : Bool :=
  if p.scope = "*" then true
  else if [':', '*'].isSuffixOf p.scope.toList then
    p.scope.toList.dropLast.isPrefixOf scopeValue.toList
  else p.scope = scopeValue

end AccountingPolicy

/-- `_scope_specificity`. -/
def scopeSpecificity (scope : String) : ℤ :=
  if scope = "*" then 0
  else if [':', '*'].isSuffixOf scope.toList then scope.length - 1
  else scope.length + 100

def specificity (p : AccountingPolicy) : ℤ := scopeSpecificity p.scope

def priority (p : AccountingPolicy) : ℤ := p.precedence.priority

/-! ### Conditions on the payload -/

/-- `str` of a value, and `Decimal` of a text where it does not raise. -/
structure Builtins where
  str : PyVal → String
  decimal : String → Option Decimal

/-- A text up to and after the first occurrence of a separator. -/
def splitOnce (sep : List Char) : List Char → Option (List Char × List Char)
  | [] => if sep.isEmpty then some ([], []) else none
  | c :: cs =>
      if sep.isPrefixOf (c :: cs) then some ([], (c :: cs).drop sep.length)
      else (splitOnce sep cs).map fun p => (c :: p.1, p.2)

/-- The value at a path of keys; nothing where it leads out of the payload. -/
def valueAt : List String → PyVal → PyVal
  | [], current => current
  | part :: parts, .dict ms => ((ms.lookup part).map (valueAt parts)).getD .none
  | _ :: _, _ => .none

/-- `_get_payload_value`. -/
def getPayloadValue (payload : PyVal) (fieldPath : String) : PyVal :=
  let root := "payload.".toList
  let path := if root.isPrefixOf fieldPath.toList then fieldPath.toList.drop root.length
    else fieldPath.toList
  valueAt ((path.splitOn '.').map String.ofList) payload

def isNone : PyVal → Bool
  | .none => true
  | _ => false

/-- The operators of where-expressions, in the order in which they are tried; the flags say
whether the value must be above the threshold and whether it may be equal to it. -/
def operators : List (List Char × Bool × Bool) :=
  [(" >= ".toList, true, true), (" <= ".toList, false, true), (" > ".toList, true, false),
    (" < ".toList, false, false)]

/-- Compare two numbers; an invalid comparison is none. -/
def compares (above orEqual : Bool) (actual threshold : Decimal) : Option Bool :=
  match threshold.less actual, actual.less threshold with
  | .ok greater, .ok smaller =>
      some (if above then (if orEqual then !smaller else greater)
        else if orEqual then !greater else smaller)
  | _, _ => none

/-- `_evaluate_where_expression`. -/
def evaluateWhereExpression (b : Builtins) (payload : PyVal) (expression : String)
    (expected : Bool) : Bool :=
  match operators.findSome? fun op => (splitOnce op.1 expression.toList).map fun p => (p, op.2) with
  | none => !expected
  | some ((fieldPath, threshold), above, orEqual) =>
      let actual := getPayloadValue payload (strip (String.ofList fieldPath))
      if isNone actual then !expected
      else
        match b.decimal (b.str actual), b.decimal (strip (String.ofList threshold)) with
        | some actual, some threshold =>
            match compares above orEqual actual threshold with
            | some result => result == expected
            | none => !expected
        | _, _ => !expected

/-- One condition of a where-clause. -/
def matchesCondition (b : Builtins) (payload : PyVal) (fieldPath : String) : PyVal → Bool
  | .bool expected =>
      if operators.any fun op => (splitOnce op.1 fieldPath.toList).isSome then
        evaluateWhereExpression b payload fieldPath expected
      else b.str (getPayloadValue payload fieldPath) = b.str (.bool expected)
  | .none => isNone (getPayloadValue payload fieldPath)
  | expected => b.str (getPayloadValue payload fieldPath) = b.str expected

/-- `_matches_where`. -/
def matchesWhere (b : Builtins) (p : AccountingPolicy) (payload : PyVal) : Bool :=
  p.trigger.conditions.all fun c => matchesCondition b payload c.1 c.2

/-! ### The registry -/

structure CompilationReceipt where
  policyName : String
  policyVersion : ℤ

inductive SelectorError where
  | uncompiledPolicy (policyName : String) (policyVersion : ℤ)
  | policyAlreadyRegistered (name : String) (version : ℤ)
  | policyNotFound (eventType : String) (effectiveDate : Date)
  | multiplePoliciesMatch (eventType : String) (matchingProfiles : List String)
  | indexError

/-- The registered policies in the order of their registration; a version of a name is
registered once. -/
structure Registry where
  policies : List AccountingPolicy
  keys : (policies.map fun p => (p.name, p.version)).Nodup

namespace Registry

def empty : Registry := ⟨[], List.nodup_nil⟩

end Registry

/-! ### Selection -/

/-- The arguments of `find_for_event`. -/
structure Query where
  eventType : String
  effectiveDate : Date
  scopeValue : String := "*"
  payload : Option PyVal := none

/-- The policies for the event type that are effective and match the scope. -/
def candidates (reg : Registry) (q : Query) : List AccountingPolicy :=
  ((reg.policies.filter (·.trigger.eventType = q.eventType)).filter
    (·.isEffectiveOn q.effectiveDate)).filter (·.matchesScope q.scopeValue)

def hasWhere (p : AccountingPolicy) : Bool := !p.trigger.conditions.isEmpty

/-- The candidates whose where-clause matches the payload. -/
def specificMatches (b : Builtins) (payload : PyVal) (ps : List AccountingPolicy) :
    List AccountingPolicy :=
  (ps.filter hasWhere).filter (matchesWhere b · payload)

/-- The policies that match: those whose where-clause does, if there are any, else those without
one. -/
def matching (b : Builtins) (reg : Registry) (q : Query) : List AccountingPolicy :=
  let ps := candidates reg q
  let withoutWhere := ps.filter (!hasWhere ·)
  match q.payload with
  | none => withoutWhere
  | some payload =>
      let specific := specificMatches b payload ps
      if specific.isEmpty then withoutWhere else specific

/-- `_apply_explicit_overrides`. -/
def applyExplicitOverrides (profiles : List AccountingPolicy) : List AccountingPolicy :=
  let overriddenNames := profiles.flatMap (·.precedence.overrides)
  profiles.filter fun p => !overriddenNames.contains p.name

/-- The policies that the resolution goes on with. -/
def survivors (profiles : List AccountingPolicy) : List AccountingPolicy :=
  let overrides := profiles.filter (·.precedence.mode = .override)
  if overrides.isEmpty then profiles.filter (·.precedence.mode = .normal)
  else applyExplicitOverrides overrides

/-- The order in which the last step looks at the policies. -/
def byName (profiles : List AccountingPolicy) : List AccountingPolicy :=
  ascending (·.name) (descending priority (descending specificity profiles))

/-- The first of a sorted list, if it is ahead of the second. -/
def leader (key : AccountingPolicy → ℤ) : List AccountingPolicy → Option AccountingPolicy
  | p :: q :: _ => if key q < key p then some p else none
  | _ => none

/-- `_resolve_precedence`, after the overrides. -/
def resolve (profiles : List AccountingPolicy) : Except SelectorError AccountingPolicy :=
  match profiles with
  | [p] => .ok p
  | _ =>
      let bySpecificity := descending specificity profiles
      match leader specificity bySpecificity with
      | some p => .ok p
      | none =>
          match leader priority (descending priority bySpecificity) with
          | some p => .ok p
          | none =>
              match byName profiles with
              | [] => .error .indexError
              | [p] => .ok p
              | p :: q :: rest =>
                  if specificity p = specificity q ∧ priority p = priority q then
                    .error (.multiplePoliciesMatch p.trigger.eventType
                      ((p :: q :: rest).map (·.name)))
                  else .ok p

/-- `find_for_event`. -/
def findForEvent (b : Builtins) (reg : Registry) (q : Query) :
    Except SelectorError AccountingPolicy :=
  match matching b reg q with
  | [] => .error (.policyNotFound q.eventType q.effectiveDate)
  | [p] => .ok p
  | profiles => resolve (survivors profiles)

/-! ### Who should win -/

/-- An overriding policy beats the normal ones and those it names. -/
def Overrides (q p : AccountingPolicy) : Prop :=
  q.precedence.mode = .override ∧
    (p.precedence.mode = .normal ∨ p.name ∈ q.precedence.overrides)

/-- Specificity first, then priority. -/
def rank : AccountingPolicy → ℤ ×ₗ ℤ := lexKey specificity priority

/-- **P1**: the policy is not overridden, and ahead of every other that is not. -/
structure Greatest (ms : List AccountingPolicy) (p : AccountingPolicy) : Prop where
  mem : p ∈ ms
  free : ∀ q ∈ ms, ¬Overrides q p
  ahead : ∀ q ∈ ms, (∀ r ∈ ms, ¬Overrides r q) → q ≠ p → rank q < rank p

/-- The answer is the greatest of the matching policies; when there is none the answer is that
several match, and when nothing matches that no policy was found. -/
def Correct (ms : List AccountingPolicy) : Except SelectorError AccountingPolicy → Prop
  | .ok p => Greatest ms p
  | .error (.multiplePoliciesMatch _ _) => ms ≠ [] ∧ ¬∃ p, Greatest ms p
  | .error (.policyNotFound _ _) => ms = []
  | .error _ => False

/-- In the order of names the greatest comes first; without a greatest the first two are level. -/
def NamesDecide (profiles : List AccountingPolicy) : Prop :=
  ∀ p q rest, byName profiles = p :: q :: rest →
    (∀ g, UniqueTop rank profiles g → p = g) ∧
      ((¬∃ g, UniqueTop rank profiles g) → specificity p = specificity q ∧ priority p = priority q)

/-- The condition on the policies that are not overridden: there is one, and unless one of them
alone has the greatest specificity, one that alone has the greatest priority is among the most
specific, and where several share the greatest priority the names decide rightly. -/
def Decided (profiles : List AccountingPolicy) : Prop :=
  profiles ≠ [] ∧
    ((∃ p, UniqueTop specificity profiles p) ∨
      ((∀ p, UniqueTop priority profiles p → Top specificity profiles p) ∧
        ((∃ p, UniqueTop priority profiles p) ∨ NamesDecide profiles)))

theorem mem_survivors {ms : List AccountingPolicy} {p : AccountingPolicy} :
    p ∈ survivors ms ↔ p ∈ ms ∧ ∀ q ∈ ms, ¬Overrides q p := by
  unfold survivors
  dsimp only
  split
  · rename_i hnone
    have hnormal : ∀ q ∈ ms, q.precedence.mode = .normal := by
      intro q hq
      cases hmode : q.precedence.mode with
      | normal => rfl
      | override =>
          have hmem : q ∈ ms.filter (·.precedence.mode = .override) :=
            List.mem_filter.mpr ⟨hq, by simp [hmode]⟩
          rw [List.isEmpty_iff.mp hnone] at hmem
          cases hmem
    rw [List.mem_filter]
    constructor
    · rintro ⟨hp, -⟩
      refine ⟨hp, fun q hq hover => ?_⟩
      have := hnormal q hq
      rw [hover.1] at this
      cases this
    · rintro ⟨hp, -⟩
      exact ⟨hp, by simp [hnormal p hp]⟩
  · rename_i hsome
    obtain ⟨q₀, hq₀⟩ := List.exists_mem_of_ne_nil _ fun h => hsome (List.isEmpty_iff.mpr h)
    obtain ⟨hq₀mem, hq₀mode⟩ := List.mem_filter.mp hq₀
    simp only [applyExplicitOverrides, List.mem_filter, decide_eq_true_eq, Bool.not_eq_true',
      List.contains_eq_mem, decide_eq_false_iff_not, List.mem_flatMap, not_exists, not_and, and_imp]
      at hq₀mode ⊢
    constructor
    · rintro ⟨⟨hp, hmode⟩, hnames⟩
      refine ⟨hp, fun q hq hover => ?_⟩
      rcases hover.2 with hnormal | hname
      · rw [hmode] at hnormal
        cases hnormal
      · exact hnames q hq hover.1 hname
    · rintro ⟨hp, hfree⟩
      refine ⟨⟨hp, ?_⟩, fun q hq hmode hname => hfree q hq ⟨hmode, Or.inr hname⟩⟩
      cases hmode : p.precedence.mode with
      | override => rfl
      | normal => exact absurd ⟨hq₀mode, Or.inl hmode⟩ (hfree q₀ hq₀mem)

theorem survivors_sublist (ms : List AccountingPolicy) : (survivors ms).Sublist ms := by
  unfold survivors
  dsimp only
  split
  · exact List.filter_sublist
  · exact List.filter_sublist.trans List.filter_sublist

/-- The greatest policy is the greatest of the survivors. -/
theorem greatest_iff {ms : List AccountingPolicy} {p : AccountingPolicy} :
    Greatest ms p ↔ UniqueTop rank (survivors ms) p := by
  constructor
  · intro h
    refine ⟨mem_survivors.mpr ⟨h.mem, h.free⟩, fun q hq hne => ?_⟩
    obtain ⟨hqms, hqfree⟩ := mem_survivors.mp hq
    exact h.ahead q hqms hqfree hne
  · rintro ⟨hp, hahead⟩
    obtain ⟨hmem, hfree⟩ := mem_survivors.mp hp
    exact ⟨hmem, hfree, fun q hq hqfree hne => hahead q (mem_survivors.mpr ⟨hq, hqfree⟩) hne⟩

/-! ### The cascade -/

/-- The answer is the unique greatest by rank, or that there is none. -/
def CorrectAmong (profiles : List AccountingPolicy) : Except SelectorError AccountingPolicy → Prop
  | .ok p => UniqueTop rank profiles p
  | .error (.multiplePoliciesMatch _ _) => ¬∃ g, UniqueTop rank profiles g
  | .error _ => False

section Cascade

variable {profiles : List AccountingPolicy}

theorem exists_cons_cons {α : Type*} {xs : List α} (h : 2 ≤ xs.length) :
    ∃ a b rest, xs = a :: b :: rest := by
  match xs, h with
  | a :: b :: rest, _ => exact ⟨a, b, rest, rfl⟩

/-- With a single most specific policy the cascade ends there. -/
theorem resolve_of_specificity {p : AccountingPolicy} (hlen : 2 ≤ profiles.length)
    (h : leader specificity (descending specificity profiles) = some p) :
    resolve profiles = .ok p := by
  obtain ⟨a, b, rest, rfl⟩ := exists_cons_cons hlen
  simp only [resolve, h]

theorem resolve_of_priority {p : AccountingPolicy} (hlen : 2 ≤ profiles.length)
    (hs : leader specificity (descending specificity profiles) = none)
    (h : leader priority (descending priority (descending specificity profiles)) = some p) :
    resolve profiles = .ok p := by
  obtain ⟨a, b, rest, rfl⟩ := exists_cons_cons hlen
  simp only [resolve, hs, h]

theorem resolve_of_names {p q : AccountingPolicy} {rest : List AccountingPolicy}
    (hlen : 2 ≤ profiles.length)
    (hs : leader specificity (descending specificity profiles) = none)
    (hp : leader priority (descending priority (descending specificity profiles)) = none)
    (h : byName profiles = p :: q :: rest) :
    resolve profiles = if specificity p = specificity q ∧ priority p = priority q then
      .error (.multiplePoliciesMatch p.trigger.eventType ((p :: q :: rest).map (·.name)))
      else .ok p := by
  obtain ⟨a, b, rest', rfl⟩ := exists_cons_cons hlen
  simp only [resolve, hs, hp, h]

/-- The leader of the sorted list is the unique greatest; without one there is none. -/
theorem leader_cases (key : AccountingPolicy → ℤ) (hnodup : profiles.Nodup)
    (hlen : 2 ≤ profiles.length) :
    (∃ p, leader key (descending key profiles) = some p ∧ UniqueTop key profiles p) ∨
      (leader key (descending key profiles) = none ∧ ∀ p, ¬UniqueTop key profiles p) := by
  obtain ⟨a, b, rest, h⟩ := exists_cons_cons
    ((Ranking.length_descending key profiles).symm ▸ hlen)
  by_cases hlt : key b < key a
  · left
    exact ⟨a, by rw [h, leader, if_pos hlt], Ranking.uniqueTop_of_lt h hlt⟩
  · right
    exact ⟨by rw [h, leader, if_neg hlt], Ranking.not_uniqueTop_of_not_lt hnodup h hlt⟩

/-- Where several are the most specific, one that alone has the greatest priority is the greatest
exactly when it is one of them. -/
theorem correctAmong_priority_iff {p : AccountingPolicy}
    (hs : ∀ p, ¬UniqueTop specificity profiles p) (hp : UniqueTop priority profiles p)
    (hne : profiles ≠ []) : CorrectAmong profiles (.ok p) ↔ Decided profiles := by
  constructor
  · intro h
    refine ⟨hne, Or.inr ⟨fun p' hp' => ?_, Or.inl ⟨p, hp⟩⟩⟩
    rw [← hp.eq hp']
    exact UniqueTop.top_of_lex h
  · rintro ⟨-, ⟨p', hp'⟩ | ⟨htop, -⟩⟩
    · exact absurd hp' (hs p')
    · exact UniqueTop.lex_of_second (htop p hp) hp

/-- Where several share the greatest specificity and several the greatest priority, the names are
right exactly when they should be. -/
theorem correctAmong_names_iff {p q : AccountingPolicy} {rest : List AccountingPolicy}
    (hnodup : profiles.Nodup) (hs : ∀ p, ¬UniqueTop specificity profiles p)
    (hp : ∀ p, ¬UniqueTop priority profiles p) (hne : profiles ≠ [])
    (h : byName profiles = p :: q :: rest) :
    CorrectAmong profiles (if specificity p = specificity q ∧ priority p = priority q then
        .error (.multiplePoliciesMatch p.trigger.eventType ((p :: q :: rest).map (·.name)))
        else .ok p) ↔ Decided profiles := by
  have hdecided : Decided profiles ↔ NamesDecide profiles := by
    constructor
    · rintro ⟨-, ⟨p', hp'⟩ | ⟨-, ⟨p', hp'⟩ | hnames⟩⟩
      · exact absurd hp' (hs p')
      · exact absurd hp' (hp p')
      · exact hnames
    · intro hnames
      exact ⟨hne, Or.inr ⟨fun p' hp' => absurd hp' (hp p'), Or.inr hnames⟩⟩
  rw [hdecided]
  have hmem : ∀ r, r ∈ byName profiles ↔ r ∈ profiles := fun r => by
    rw [byName, Ranking.mem_ascending, Ranking.mem_descending, Ranking.mem_descending]
  have hqmem : q ∈ profiles := (hmem q).mp (h ▸ List.mem_cons_of_mem _ List.mem_cons_self)
  have hpq : q ≠ p := by
    have hnd : (byName profiles).Nodup :=
      ((List.perm_insertionSort _ _).trans ((List.perm_insertionSort _ _).trans
        (List.perm_insertionSort _ _))).nodup_iff.mpr hnodup
    rw [h] at hnd
    rintro rfl
    exact (List.nodup_cons.mp hnd).1 List.mem_cons_self
  by_cases hlevel : specificity p = specificity q ∧ priority p = priority q
  · rw [if_pos hlevel]
    constructor
    · intro hnone p' q' rest' h'
      obtain ⟨rfl, rfl, -⟩ : p = p' ∧ q = q' ∧ rest = rest' := by simpa [h] using h'
      exact ⟨fun g hg => absurd ⟨g, hg⟩ hnone, fun _ => hlevel⟩
    · rintro hnames ⟨g, hg⟩
      obtain rfl := (hnames p q rest h).1 g hg
      have hlt := hg.2 q hqmem hpq
      rw [rank, Ranking.lexKey_lt_iff, hlevel.1, hlevel.2] at hlt
      omega
  · rw [if_neg hlevel]
    constructor
    · intro htop p' q' rest' h'
      obtain ⟨rfl, rfl, -⟩ : p = p' ∧ q = q' ∧ rest = rest' := by simpa [h] using h'
      exact ⟨fun g hg => UniqueTop.eq htop hg, fun hnone => absurd ⟨p, htop⟩ hnone⟩
    · intro hnames
      obtain ⟨hfirst, hlev⟩ := hnames p q rest h
      obtain ⟨g, hg⟩ := not_not.mp fun hnone => hlevel (hlev hnone)
      obtain rfl := hfirst g hg
      exact hg

/-- **The cascade is right exactly when the condition holds.** -/
theorem correctAmong_resolve_iff (hnodup : profiles.Nodup) :
    CorrectAmong profiles (resolve profiles) ↔ Decided profiles := by
  match profiles, hnodup with
  | [], _ => exact iff_of_false (fun h => h) (fun h => h.1 rfl)
  | [p], _ =>
      have htop := Ranking.uniqueTop_singleton specificity p
      exact iff_of_true htop.lex_of_first ⟨List.cons_ne_nil _ _, Or.inl ⟨p, htop⟩⟩
  | a :: b :: rest, hnodup =>
      generalize hps : a :: b :: rest = ps at *
      have hlen : 2 ≤ ps.length := by
        rw [← hps]
        simp
      have hne : ps ≠ [] := by
        rw [← hps]
        exact List.cons_ne_nil _ _
      rcases leader_cases specificity hnodup hlen with ⟨p, hlead, htop⟩ | ⟨hs, hnone⟩
      · rw [resolve_of_specificity hlen hlead]
        exact iff_of_true htop.lex_of_first ⟨hne, Or.inl ⟨p, htop⟩⟩
      · have hlen' : 2 ≤ (descending specificity ps).length := by
          rw [Ranking.length_descending]
          exact hlen
        have hmem : ∀ r, r ∈ descending specificity ps ↔ r ∈ ps := fun _ => Ranking.mem_descending
        rcases leader_cases priority (Ranking.nodup_descending hnodup) hlen' with
          ⟨p, hlead, htop⟩ | ⟨hp, hnone'⟩
        · rw [resolve_of_priority hlen hs hlead]
          exact correctAmong_priority_iff hnone (htop.of_mem_iff hmem) hne
        · have hnameslen : 2 ≤ (byName ps).length := by
            rw [byName, Ranking.length_ascending, Ranking.length_descending]
            exact hlen'
          obtain ⟨p, q, rest', hnames⟩ := exists_cons_cons hnameslen
          rw [resolve_of_names hlen hs hp hnames]
          exact correctAmong_names_iff hnodup hnone
            (fun r hr => hnone' r (hr.of_mem_iff fun a => (hmem a).symm)) hne hnames

end Cascade

/-! ### The selected policy -/

theorem nodup_policies (reg : Registry) : reg.policies.Nodup := reg.keys.of_map

theorem matching_sublist (b : Builtins) (reg : Registry) (q : Query) :
    (matching b reg q).Sublist reg.policies := by
  have hcandidates : (candidates reg q).Sublist reg.policies :=
    (List.filter_sublist.trans List.filter_sublist).trans List.filter_sublist
  unfold matching
  dsimp only
  split
  · exact List.filter_sublist.trans hcandidates
  · split
    · exact List.filter_sublist.trans hcandidates
    · exact (List.filter_sublist.trans List.filter_sublist).trans hcandidates

/-- Which policies match does not depend on the order of their registration. -/
theorem mem_matching_congr {b : Builtins} {reg reg' : Registry} {q : Query}
    (h : ∀ p, p ∈ reg.policies ↔ p ∈ reg'.policies) (p : AccountingPolicy) :
    p ∈ matching b reg q ↔ p ∈ matching b reg' q := by
  have hcandidates : ∀ p, p ∈ candidates reg q ↔ p ∈ candidates reg' q := by
    intro p
    simp only [candidates, List.mem_filter, h p]
  have hwithout : ∀ p, p ∈ (candidates reg q).filter (!hasWhere ·) ↔
      p ∈ (candidates reg' q).filter (!hasWhere ·) := by
    intro p
    simp only [List.mem_filter, hcandidates p]
  unfold matching
  dsimp only
  cases q.payload with
  | none => exact hwithout p
  | some payload =>
      have hspecific : ∀ p, p ∈ specificMatches b payload (candidates reg q) ↔
          p ∈ specificMatches b payload (candidates reg' q) := by
        intro p
        simp only [specificMatches, List.mem_filter, hcandidates p]
      have hempty : (specificMatches b payload (candidates reg q)).isEmpty =
          (specificMatches b payload (candidates reg' q)).isEmpty := by
        rw [Bool.eq_iff_iff, List.isEmpty_iff, List.isEmpty_iff, List.eq_nil_iff_forall_not_mem,
          List.eq_nil_iff_forall_not_mem]
        exact forall_congr' fun p => not_congr (hspecific p)
      show p ∈ (if _ then _ else _) ↔ p ∈ (if _ then _ else _)
      rw [hempty]
      split
      · exact hwithout p
      · exact hspecific p

/-- Correct answers about the same policies are the same. -/
theorem Correct.toOption_eq {ms ms' : List AccountingPolicy}
    {r r' : Except SelectorError AccountingPolicy} (hmem : ∀ p, p ∈ ms ↔ p ∈ ms')
    (h : Correct ms r) (h' : Correct ms' r') : r.toOption = r'.toOption := by
  have hgreatest : ∀ p, Greatest ms p ↔ Greatest ms' p := by
    intro p
    constructor
    · intro hg
      exact ⟨(hmem p).mp hg.mem, fun q hq => hg.free q ((hmem q).mpr hq),
        fun q hq hfree => hg.ahead q ((hmem q).mpr hq) fun r hr => hfree r ((hmem r).mp hr)⟩
    · intro hg
      exact ⟨(hmem p).mpr hg.mem, fun q hq => hg.free q ((hmem q).mp hq),
        fun q hq hfree => hg.ahead q ((hmem q).mp hq) fun r hr => hfree r ((hmem r).mpr hr)⟩
  have hnone : ∀ {ms : List AccountingPolicy} {e : SelectorError}, Correct ms (.error e) →
      ∀ p, ¬Greatest ms p := by
    intro ms e he p hp
    cases e with
    | multiplePoliciesMatch => exact he.2 ⟨p, hp⟩
    | policyNotFound =>
        have hnil : ms = [] := he
        rw [hnil] at hp
        cases hp.mem
    | uncompiledPolicy => exact he
    | policyAlreadyRegistered => exact he
    | indexError => exact he
  cases r with
  | ok p =>
      cases r' with
      | ok p' =>
          have heq := (greatest_iff.mp h).eq (greatest_iff.mp ((hgreatest p').mpr h'))
          rw [heq]
      | error e => exact absurd ((hgreatest p).mp h) (hnone h' p)
  | error e =>
      cases r' with
      | ok p' => exact absurd ((hgreatest p').mpr h') (hnone h p')
      | error e' => rfl

/-- Among matching policies the answer is right exactly when it is among the survivors. -/
theorem correct_iff_among {ms : List AccountingPolicy} (hne : ms ≠ [])
    {r : Except SelectorError AccountingPolicy}
    (hfound : ∀ eventType effectiveDate, r ≠ .error (.policyNotFound eventType effectiveDate)) :
    Correct ms r ↔ CorrectAmong (survivors ms) r := by
  cases r with
  | ok p => exact greatest_iff
  | error e =>
      cases e with
      | multiplePoliciesMatch eventType names =>
          show (ms ≠ [] ∧ ¬∃ p, Greatest ms p) ↔ ¬∃ g, UniqueTop rank (survivors ms) g
          simp only [greatest_iff, hne, ne_eq, not_false_eq_true, true_and]
      | policyNotFound eventType effectiveDate => exact absurd rfl (hfound _ _)
      | uncompiledPolicy => exact Iff.rfl
      | policyAlreadyRegistered => exact Iff.rfl
      | indexError => exact Iff.rfl

theorem resolve_ne_policyNotFound (profiles : List AccountingPolicy) (eventType : String)
    (effectiveDate : Date) :
    resolve profiles ≠ .error (.policyNotFound eventType effectiveDate) := by
  unfold resolve
  dsimp only
  split
  · simp
  · split
    · simp
    · split
      · simp
      · split
        · intro h
          cases h
        · simp
        · split
          · intro h
            cases h
          · simp

/-- A single survivor decides. -/
theorem decided_iff_of_forall_eq {profiles : List AccountingPolicy} {p : AccountingPolicy}
    (h : ∀ q ∈ profiles, q = p) : Decided profiles ↔ p ∈ profiles := by
  constructor
  · rintro ⟨hne, -⟩
    obtain ⟨q, hq⟩ := List.exists_mem_of_ne_nil _ hne
    exact h q hq ▸ hq
  · intro hp
    refine ⟨List.ne_nil_of_mem hp, Or.inl ⟨p, hp, fun q hq hne => ?_⟩⟩
    exact absurd (h q hq) hne

/-- The answer for matching policies. -/
theorem correct_findForEvent_iff (b : Builtins) (reg : Registry) (q : Query)
    (hne : matching b reg q ≠ []) :
    Correct (matching b reg q) (findForEvent b reg q) ↔
      Decided (survivors (matching b reg q)) := by
  have hnodup : (matching b reg q).Nodup := (matching_sublist b reg q).nodup (nodup_policies reg)
  unfold findForEvent
  revert hne hnodup
  generalize matching b reg q = ms
  intro hne hnodup
  match ms with
  | [] => exact absurd rfl hne
  | [p] =>
      have hall : ∀ q ∈ survivors [p], q = p := fun q hq =>
        List.mem_singleton.mp (mem_survivors.mp hq).1
      show Greatest [p] p ↔ Decided (survivors [p])
      rw [greatest_iff, decided_iff_of_forall_eq hall]
      exact ⟨fun h => h.1, fun h => ⟨h, fun q hq hqp => absurd (hall q hq) hqp⟩⟩
  | p :: p' :: rest =>
      show Correct _ (resolve (survivors (p :: p' :: rest))) ↔ _
      have hsurvivors : (survivors (p :: p' :: rest)).Nodup :=
        (survivors_sublist _).nodup hnodup
      rw [correct_iff_among hne fun _ _ => resolve_ne_policyNotFound _ _ _]
      exact correctAmong_resolve_iff hsurvivors

/-- **Policy precedence (P1)**: the selected policy is the greatest of the matching ones, and a
failure says that there is none, exactly when nothing matches or the survivors decide; right
answers do not depend on the order of registration. -/
theorem find_for_event_correct_iff (b : Builtins) (reg : Registry) (q : Query) :
    (Correct (matching b reg q) (findForEvent b reg q) ↔
      matching b reg q = [] ∨ Decided (survivors (matching b reg q))) ∧
    ∀ reg' : Registry, (∀ p, p ∈ reg.policies ↔ p ∈ reg'.policies) →
      Correct (matching b reg q) (findForEvent b reg q) →
        Correct (matching b reg' q) (findForEvent b reg' q) →
          (findForEvent b reg q).toOption = (findForEvent b reg' q).toOption := by
  refine ⟨?_, fun reg' hmem h h' => h.toOption_eq (mem_matching_congr hmem) h'⟩
  by_cases hne : matching b reg q = []
  · rw [findForEvent, hne]
    exact iff_of_true rfl (Or.inl rfl)
  · rw [correct_findForEvent_iff b reg q hne]
    exact ⟨Or.inr, fun h => h.resolve_left hne⟩

/-- A policy for receipts. -/
def samplePolicy (name scope : String) (priority : ℤ) (hname : name ≠ "") : AccountingPolicy where
  name := name
  version := 1
  trigger := { eventType := "inventory.receipt" }
  effectiveFrom := sampleTime.date
  scope := scope
  precedence := { priority }
  name_ne := hname

/-- Two policies for a range of items, and a general one of higher priority. -/
def sampleRegistry : Registry where
  policies := [samplePolicy "ReceiptA" "SKU:*" 1 (by decide),
    samplePolicy "ReceiptB" "SKU:*" 1 (by decide), samplePolicy "General" "*" 5 (by decide)]
  keys := by decide

def sampleQuery : Query where
  eventType := "inventory.receipt"
  effectiveDate := sampleTime.date
  scopeValue := "SKU:1"

/-- No value of a payload is looked at. -/
def sampleBuiltins : Builtins := ⟨fun _ => "", fun _ => none⟩

/-- **The less specific policy wins.** -/
theorem general_selected :
    ¬Correct (matching sampleBuiltins sampleRegistry sampleQuery)
      (findForEvent sampleBuiltins sampleRegistry sampleQuery) := by
  have hmatching : matching sampleBuiltins sampleRegistry sampleQuery = sampleRegistry.policies := rfl
  have hfound : findForEvent sampleBuiltins sampleRegistry sampleQuery =
      .ok (samplePolicy "General" "*" 5 (by decide)) := rfl
  rw [hmatching, hfound]
  intro h
  have hmem : samplePolicy "ReceiptA" "SKU:*" 1 (by decide) ∈ sampleRegistry.policies :=
    List.mem_cons_self
  have hfree : ∀ r ∈ sampleRegistry.policies,
      ¬Overrides r (samplePolicy "ReceiptA" "SKU:*" 1 (by decide)) := by
    intro r hr hover
    have hmode : r.precedence.mode = .normal := by
      simp only [sampleRegistry, List.mem_cons, List.not_mem_nil, or_false] at hr
      rcases hr with rfl | rfl | rfl <;> rfl
    rw [hover.1] at hmode
    cases hmode
  have hahead := h.ahead _ hmem hfree (by simp [samplePolicy])
  rw [rank, Ranking.lexKey_lt_iff] at hahead
  revert hahead
  decide

end FinanceAccounting.PolicySelector
