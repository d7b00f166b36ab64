import Mathlib.Data.List.Dedup
import FinanceAccounting.Library.DecimalSums
import FinanceAccounting.Kernel.PostingStrategy

/-! # Rounding and the tolerance of a currency

What `propose` accepts of a list of line specs that is unbalanced.  Three limits decide: the
tolerance of the currency, one of its last place; R5 and R22, which admit one rounding line in an
entry; and a cent for every line.  So an entry is proposed when at most one currency is out of
balance, by no more than both limits (`propose_rounds_iff`), and then it balances exactly.

Exact are the sums of the context only as long as its digits suffice; `exact_of_written` says that
they do for amounts of so many places. -/

namespace FinanceAccounting.PostingStrategy

open Decimal (Signal)
open Hashing (defaultContext)
open Journal (LineSide)
open Traversals (bind_eq_ok)

/-! ### Imbalances -/

/-- The amounts of one side in a currency. -/
def specAmounts (specs : List LineSpec) (side : LineSide) (currency : String) : List Decimal :=
  (specs.filter fun spec => spec.currency = currency && spec.side = side).map (·.amount)

def lineAmounts (lines : List ProposedLine) (side : LineSide) (currency : String) : List Decimal :=
  (lines.filter fun line => line.currency = currency && line.side = side).map (·.amount)

/-- The exact total of a side. -/
def exactTotal (lines : List ProposedLine) (side : LineSide) (currency : String) : ℚ :=
  ((lineAmounts lines side currency).map Decimal.toRat).sum

/-- Debits less credits, without any rounding. -/
def imbalance (specs : List LineSpec) (currency : String) : ℚ :=
  ((specAmounts specs .debit currency).map Decimal.toRat).sum -
    ((specAmounts specs .credit currency).map Decimal.toRat).sum

/-- The context computes the imbalance of the currency without rounding. -/
def Exact (specs : List LineSpec) (currency : String) : Prop :=
  ∃ debits credits difference,
    Decimal.sum defaultContext (specAmounts specs .debit currency) = .ok debits ∧
      Decimal.sum defaultContext (specAmounts specs .credit currency) = .ok credits ∧
      Decimal.sub defaultContext debits credits = .ok difference ∧ difference.IsFinite ∧
      difference.toRat = imbalance specs currency

/-- Nothing but the balance can be wrong: known currencies, active accounts, all dimensions, no
rounding lines yet, and a rounding account. -/
structure Clean (env : Environment) (ref : ReferenceData) (specs : List LineSpec) : Prop where
  ne_nil : specs ≠ []
  ordinary : ∀ spec ∈ specs, spec.isRounding = false
  currency : ∀ spec ∈ specs, (env.decimalPlaces spec.currency).isSome
  account : ∀ spec ∈ specs, (ref.accountIdsByCode spec.accountCode).isSome
  active : ∀ spec ∈ specs, ref.isAccountActive spec.accountCode = true
  dimension : ∀ spec ∈ specs, ∀ dim ∈ ref.requiredDimensions,
    (spec.dimensions.getD []).any (fun entry => entry.1 = dim) = true
  roundingAccount : ∀ spec ∈ specs, (ref.roundingAccountIds spec.currency).isSome

/-- Every imbalance is within the tolerance of its currency. -/
def WithinTolerance (env : Environment) (specs : List LineSpec) : Prop :=
  ∀ spec ∈ specs, |imbalance specs spec.currency| ≤ (env.roundingTolerance spec.currency).toRat

/-- One rounding line is enough, and within the limit of an entry. -/
structure OneRounding (specs : List LineSpec) : Prop where
  single : ∀ spec ∈ specs, ∀ spec' ∈ specs, imbalance specs spec.currency ≠ 0 →
    imbalance specs spec'.currency ≠ 0 → spec.currency = spec'.currency
  limit : ∀ spec ∈ specs, |imbalance specs spec.currency| ≤ (maxAllowed specs.length).toRat

/-- The line is the spec with its account. -/
structure Keeps (spec : LineSpec) (line : ProposedLine) : Prop where
  accountCode : line.accountCode = spec.accountCode
  side : line.side = spec.side
  amount : line.amount = spec.amount
  currency : line.currency = spec.currency
  dimensions : line.dimensions = spec.dimensions
  memo : line.memo = spec.memo
  isRounding : line.isRounding = spec.isRounding

/-- The line takes up an imbalance. -/
structure TakesUp (currency : String) (x : ℚ) (line : ProposedLine) : Prop where
  isRounding : line.isRounding = true
  currency : line.currency = currency
  finite : line.amount.IsFinite
  amount : line.amount.toRat = |x|
  side : line.side = if x < 0 then .debit else .credit

section Laws

variable {env : Environment} {ref : ReferenceData} {strategy : Strategy} {specs : List LineSpec}
variable {lines new : List ProposedLine} {line : ProposedLine} {entry : ProposedJournalEntry}
variable {currency : String} {side : LineSide} {places : ℕ}

/-! ### Resolved lines -/

theorem resolves_of_nil (h : (resolveAccounts ref specs).2 = []) :
    ∀ p ∈ specs.zipIdx, ∃ line, resolveAccount ref p.1 p.2 = .ok line := by
  intro p hp
  have hnone := List.filterMap_eq_nil_iff.mp h _ (List.mem_map_of_mem hp)
  cases hresult : resolveAccount ref p.1 p.2 with
  | error e =>
      rw [hresult] at hnone
      cases hnone
  | ok line => exact ⟨line, rfl⟩

theorem keeps_of_resolved {spec : LineSpec} {i : ℕ} (h : resolveAccount ref spec i = .ok line) :
    Keeps spec line := by
  unfold resolveAccount at h
  split at h
  · cases h
  · split at h
    · cases h
    · obtain rfl := Except.ok.inj h
      exact ⟨rfl, rfl, rfl, rfl, rfl, rfl, rfl⟩

/-- **The lines of the strategy are kept.** -/
theorem forall₂_keeps (h : (resolveAccounts ref specs).2 = []) :
    List.Forall₂ Keeps specs (resolveAccounts ref specs).1 := by
  have hresolved := Traversals.forall₂_toOption (resolves_of_nil h)
  have hkeeps := hresolved.imp fun p line hline => keeps_of_resolved hline
  have hspecs := List.forall₂_map_left_iff (f := Prod.fst) (R := Keeps) |>.mpr hkeeps
  rw [List.zipIdx_map_fst] at hspecs
  exact hspecs

theorem lineAmounts_of_keeps (h : List.Forall₂ Keeps specs lines) (side : LineSide)
    (currency : String) : lineAmounts lines side currency = specAmounts specs side currency := by
  unfold lineAmounts specAmounts
  induction h with
  | nil => rfl
  | @cons spec line specs lines hline _ ih =>
      have hkept : (decide (line.currency = currency) && decide (line.side = side)) =
          (decide (spec.currency = currency) && decide (spec.side = side)) := by
        rw [hline.currency, hline.side]
      rw [List.filter_cons, List.filter_cons, hkept]
      split
      · rw [List.map_cons, List.map_cons, ih, hline.amount]
      · exact ih

/-! ### One currency -/

theorem toRat_unsigned (s : Bool) (c : ℕ) (e : ℤ) :
    Decimal.toRat (.finite false c e) = |Decimal.toRat (.finite s c e)| := by
  have hnonneg : (0 : ℚ) ≤ (c : ℚ) * 10 ^ e :=
    mul_nonneg (Nat.cast_nonneg c) (zpow_nonneg (by norm_num) e)
  cases s with
  | false => simp [Decimal.toRat, Decimal.signed, abs_of_nonneg hnonneg]
  | true => simp [Decimal.toRat, Decimal.signed, abs_neg, abs_of_nonneg hnonneg]

theorem sign_of_ne_zero {s : Bool} {c : ℕ} {e : ℤ} (h : Decimal.toRat (.finite s c e) ≠ 0) :
    s = true ↔ Decimal.toRat (.finite s c e) < 0 := by
  have hnonneg : (0 : ℚ) ≤ (c : ℚ) * 10 ^ e :=
    mul_nonneg (Nat.cast_nonneg c) (zpow_nonneg (by norm_num) e)
  cases s with
  | false =>
      simp only [Decimal.toRat, Decimal.signed, Bool.false_eq_true, if_false, false_iff, not_lt]
      exact_mod_cast hnonneg
  | true =>
      simp only [Decimal.toRat, Decimal.signed, if_true, true_iff] at h ⊢
      push_cast at h ⊢
      rw [neg_mul] at h ⊢
      exact neg_neg_of_pos (lt_of_le_of_ne hnonneg fun heq => h (by rw [← heq, neg_zero]))

/-- **The cases of a currency**, when its imbalance is exact. -/
theorem balanceCurrency_cases (hkeeps : List.Forall₂ Keeps specs lines)
    (hexact : Exact specs currency) (acc : List ProposedLine × List ValidationError) :
    (imbalance specs currency = 0 ∧ balanceCurrency env ref lines acc currency = .ok acc) ∨
      (imbalance specs currency ≠ 0 ∧
        ((env.roundingTolerance currency).toRat < |imbalance specs currency| ∨
          ref.roundingAccountIds currency = none) ∧
        ∃ e, balanceCurrency env ref lines acc currency = .ok (acc.1, acc.2 ++ [e])) ∨
      (imbalance specs currency ≠ 0 ∧
        |imbalance specs currency| ≤ (env.roundingTolerance currency).toRat ∧
        (ref.roundingAccountIds currency).isSome ∧
        ∃ line, TakesUp currency (imbalance specs currency) line ∧
          balanceCurrency env ref lines acc currency = .ok (acc.1 ++ [line], acc.2)) := by
  obtain ⟨debits, credits, difference, hdebits, hcredits, hdifference, hfinite, hvalue⟩ := hexact
  cases difference with
  | infinity s => exact hfinite.elim
  | nan s g p => exact hfinite.elim
  | finite s c e =>
      have htotal : ∀ side, sideTotal lines side currency =
          Decimal.sum defaultContext (specAmounts specs side currency) := fun side => by
        rw [← lineAmounts_of_keeps hkeeps]
        rfl
      have hmagnitude : absolute (.finite s c e) = .ok (.finite false c e) := by
        unfold absolute
        cases s with
        | false => exact Decimal.fixFinite_of_add hdifference
        | true => exact Decimal.fixFinite_of_add hdifference
      have hless : Decimal.less (env.roundingTolerance currency) (.finite false c e) =
          .ok (decide ((env.roundingTolerance currency).toRat < |imbalance specs currency|)) := by
        rw [← hvalue, ← toRat_unsigned]
        rfl
      have hzero : (Decimal.finite s c e).numEq (.finite false 0 0) =
          decide (imbalance specs currency = 0) := by
        rw [← hvalue]
        have hright : Decimal.toRat (.finite false 0 0) = 0 := by
          simp [Decimal.toRat, Decimal.signed]
        show decide (_ = Decimal.toRat (.finite false 0 0)) = _
        rw [hright]
      have hrun : balanceCurrency env ref lines acc currency =
          if imbalance specs currency = 0 then .ok acc
          else if (env.roundingTolerance currency).toRat < |imbalance specs currency| then
            .ok (acc.1, acc.2 ++ [{
              code := "UNBALANCED_ENTRY"
              message := "Entry unbalanced in " ++ currency ++ ": debits=" ++
                String.ofList debits.toChars ++ ", credits=" ++ String.ofList credits.toChars }])
          else (ref.roundingAccountIds currency).elim
            (.ok (acc.1, acc.2 ++ [{
              code := "NO_ROUNDING_ACCOUNT"
              message := "No rounding account for currency: " ++ currency }]))
            fun accountId => .ok (acc.1 ++ [{
              accountId := accountId
              accountCode := "ROUNDING"
              side := if s then .debit else .credit
              amount := .finite false c e
              currency := currency
              isRounding := true
              lineSeq := acc.1.length }], acc.2) := by
        unfold balanceCurrency
        rw [htotal, htotal, hdebits, hcredits]
        simp only [bind, Except.bind, hdifference, hzero, hmagnitude, hless, pure, Except.pure,
          decide_eq_true_eq, Decimal.sign]
        split
        · rfl
        · split
          · rfl
          · cases ref.roundingAccountIds currency <;> rfl
      rw [hrun]
      by_cases himbalance : imbalance specs currency = 0
      · exact Or.inl ⟨himbalance, if_pos himbalance⟩
      · rw [if_neg himbalance]
        by_cases hexceeds : (env.roundingTolerance currency).toRat < |imbalance specs currency|
        · exact Or.inr (Or.inl ⟨himbalance, Or.inl hexceeds, _, if_pos hexceeds⟩)
        · rw [if_neg hexceeds]
          cases haccount : ref.roundingAccountIds currency with
          | none => exact Or.inr (Or.inl ⟨himbalance, Or.inr rfl, _, rfl⟩)
          | some accountId =>
              refine Or.inr (Or.inr ⟨himbalance, not_lt.mp hexceeds, rfl, _, ?_, rfl⟩)
              refine ⟨rfl, rfl, trivial, ?_, ?_⟩
              · rw [← hvalue]
                exact toRat_unsigned s c e
              · have hsign := sign_of_ne_zero (hvalue ▸ himbalance)
                rw [hvalue] at hsign
                by_cases hneg : imbalance specs currency < 0
                · rw [if_pos hneg, hsign.mpr hneg]
                  rfl
                · have hs : s = false := by
                    rw [← Bool.not_eq_true]
                    exact fun hs => hneg (hsign.mp hs)
                  rw [if_neg hneg, hs]
                  rfl

/-! ### All currencies -/

/-- The imbalance can be taken up. -/
def Accepted (env : Environment) (ref : ReferenceData) (specs : List LineSpec)
    (currency : String) : Prop :=
  imbalance specs currency = 0 ∨
    |imbalance specs currency| ≤ (env.roundingTolerance currency).toRat ∧
      (ref.roundingAccountIds currency).isSome

/-- The currencies that are out of balance. -/
def unbalancedIn (specs : List LineSpec) (currencies : List String) : List String :=
  currencies.filter fun currency => imbalance specs currency ≠ 0

/-- **What the currencies add**: errors, unless all can be taken up, and then a line for each that
is out of balance. -/
theorem foldlM_balanceCurrency (hkeeps : List.Forall₂ Keeps specs lines) {currencies : List String}
    (hexact : ∀ currency ∈ currencies, Exact specs currency)
    (acc : List ProposedLine × List ValidationError) :
    ∃ new errors, currencies.foldlM (balanceCurrency env ref lines) acc =
        .ok (acc.1 ++ new, acc.2 ++ errors) ∧
      (errors = [] ↔ ∀ currency ∈ currencies, Accepted env ref specs currency) ∧
      (errors = [] → List.Forall₂ (fun currency => TakesUp currency (imbalance specs currency))
        (unbalancedIn specs currencies) new) := by
  induction currencies generalizing acc with
  | nil =>
      refine ⟨[], [], ?_, by simp, fun _ => .nil⟩
      rw [List.append_nil, List.append_nil]
      rfl
  | cons currency currencies ih =>
      have hrest := fun acc => ih (fun c hc => hexact c (List.mem_cons_of_mem currency hc)) acc
      rw [List.forall_mem_cons]
      rcases balanceCurrency_cases hkeeps (hexact currency List.mem_cons_self) acc with
        ⟨hzero, hstep⟩ | ⟨hne, hrefused, e, hstep⟩ | ⟨hne, hle, haccount, line, hline, hstep⟩
      · obtain ⟨new, errors, hrun, hiff, htaken⟩ := hrest acc
        refine ⟨new, errors, ?_, ?_, fun herrors => ?_⟩
        · rw [List.foldlM_cons, hstep]
          exact hrun
        · rw [hiff]
          exact (and_iff_right (Or.inl hzero)).symm
        · unfold unbalancedIn
          rw [List.filter_cons_of_neg (by simp [hzero])]
          exact htaken herrors
      · obtain ⟨new, errors, hrun, hiff, htaken⟩ := hrest (acc.1, acc.2 ++ [e])
        refine ⟨new, e :: errors, ?_, ?_, fun herrors => nomatch herrors⟩
        · rw [List.foldlM_cons, hstep]
          refine hrun.trans ?_
          rw [List.append_assoc, List.singleton_append]
        · refine iff_of_false (List.cons_ne_nil _ _) fun h => ?_
          rcases h.1 with hzero | ⟨hle, haccount⟩
          · exact hne hzero
          · rcases hrefused with hexceeds | hnone
            · exact absurd hle (not_le.mpr hexceeds)
            · rw [hnone] at haccount
              cases haccount
      · obtain ⟨new, errors, hrun, hiff, htaken⟩ := hrest (acc.1 ++ [line], acc.2)
        refine ⟨line :: new, errors, ?_, ?_, fun herrors => ?_⟩
        · rw [List.foldlM_cons, hstep]
          refine hrun.trans ?_
          rw [List.append_assoc, List.singleton_append]
        · rw [hiff]
          exact (and_iff_right (Or.inr ⟨hle, haccount⟩)).symm
        · unfold unbalancedIn
          rw [List.filter_cons_of_pos (by simp [hne])]
          exact .cons hline (htaken herrors)

theorem mem_setOrder {xs : List String} {x : String} : x ∈ env.setOrder xs ↔ x ∈ xs := by
  rw [(env.setOrder_perm xs).mem_iff, List.mem_dedup]

theorem currencies_of_keeps (h : List.Forall₂ Keeps specs lines) :
    lines.map (·.currency) = specs.map (·.currency) := by
  induction h with
  | nil => rfl
  | cons hline _ ih => rw [List.map_cons, List.map_cons, hline.currency, ih]

/-- The check of the rounding lines, when they are the last ones. -/
theorem validateRoundingInvariants_append (hlines : ∀ line ∈ lines, line.isRounding = false)
    (hnew : ∀ line ∈ new, line.isRounding = true ∧ line.amount.IsFinite) :
    validateRoundingInvariants (lines ++ new) = .ok [] ↔
      new.length ≤ 1 ∧ ∀ line ∈ new, line.amount.toRat ≤ (maxAllowed lines.length).toRat := by
  have hrounding : (lines ++ new).filter (·.isRounding) = new := by
    rw [List.filter_append, List.filter_eq_nil_iff.mpr fun line hline => by simp [hlines line hline],
      List.filter_eq_self.mpr fun line hline => (hnew line hline).1, List.nil_append]
  have hordinary : (lines ++ new).filter (!·.isRounding) = lines := by
    rw [List.filter_append, List.filter_eq_self.mpr fun line hline => by simp [hlines line hline],
      List.filter_eq_nil_iff.mpr fun line hline => by simp [(hnew line hline).1], List.append_nil]
  have hless : ∀ line ∈ new, Decimal.less (maxAllowed lines.length) line.amount =
      .ok (decide ((maxAllowed lines.length).toRat < line.amount.toRat)) := by
    intro line hline
    have hfinite := (hnew line hline).2
    cases hamount : line.amount with
    | finite s c e => rfl
    | infinity s => exact (hamount ▸ hfinite : Decimal.IsFinite (.infinity s)).elim
    | nan s g p => exact (hamount ▸ hfinite : Decimal.IsFinite (.nan s g p)).elim
  constructor
  · intro h
    obtain ⟨hlength, hwithin⟩ := validated_of_nil h
    rw [hrounding] at hlength
    refine ⟨hlength, fun line hline => ?_⟩
    have hok := hwithin line (List.mem_append_right _ hline) (hnew line hline).1
    rw [hordinary, hless line hline, Except.ok.injEq] at hok
    exact not_lt.mp (of_decide_eq_false hok)
  · rintro ⟨hlength, hlimit⟩
    unfold validateRoundingInvariants
    rw [hrounding, hordinary]
    rcases new with _ | ⟨line, _ | ⟨second, rest⟩⟩
    · rfl
    · have hok := hless line List.mem_cons_self
      rw [decide_eq_false (not_lt.mpr (hlimit line List.mem_cons_self))] at hok
      simp only [List.length_singleton, lt_irrefl, if_false, List.mapM_cons, List.mapM_nil, hok,
        bind, Except.bind, pure, Except.pure]
      rfl
    · simp at hlength

/-! ### The proposal -/

theorem accounts_of_clean (h : Clean env ref specs) : (resolveAccounts ref specs).2 = [] := by
  refine List.filterMap_eq_nil_iff.mpr fun result hresult => ?_
  obtain ⟨p, hp, rfl⟩ := List.mem_map.mp hresult
  have hspec : p.1 ∈ specs := (List.mem_zipIdx' hp).2 ▸ List.getElem_mem _
  obtain ⟨accountId, haccount⟩ := Option.isSome_iff_exists.mp (h.account p.1 hspec)
  unfold resolveAccount
  simp only [haccount, h.active p.1 hspec, Bool.not_true, Bool.false_eq_true, if_false]

theorem dimensions_of_clean (h : Clean env ref specs) (hkeeps : List.Forall₂ Keeps specs lines) :
    validateDimensions ref lines = [] := by
  unfold validateDimensions
  refine List.flatMap_eq_nil_iff.mpr fun p hp => ?_
  have hline : p.1 ∈ lines := (List.mem_zipIdx' hp).2 ▸ List.getElem_mem _
  obtain ⟨spec, hspec, hkept⟩ := (Traversals.mem_of_forall₂ hkeeps).2 p.1 hline
  rw [List.map_eq_nil_iff, List.filter_eq_nil_iff]
  intro dim hdim
  rw [hkept.dimensions, h.dimension spec hspec dim hdim]
  exact Bool.false_ne_true

/-- Past the other checks, the balance and the rounding lines decide. -/
theorem propose_of_clean (hspecs : strategy.lineSpecs ref = .ok specs) (h : Clean env ref specs)
    {balanced : List ProposedLine}
    (hbalanced : balanceAndRound env ref (resolveAccounts ref specs).1 = .ok (balanced, []))
    (hrounding : validateRoundingInvariants balanced = .ok []) (hne : balanced ≠ []) :
    ∃ entry, propose env ref strategy = .ok (.ok entry) := by
  have hordinary : validateNoRoundingLines specs = none := by
    unfold validateNoRoundingLines
    rw [Option.map_eq_none_iff, List.find?_eq_none]
    intro p hp
    have hspec : p.1 ∈ specs := (List.mem_zipIdx' hp).2 ▸ List.getElem_mem _
    rw [h.ordinary p.1 hspec]
    exact Bool.false_ne_true
  have hcurrencies : validateCurrencies env specs = [] := by
    unfold validateCurrencies
    rw [List.map_eq_nil_iff, List.filter_eq_nil_iff]
    intro p hp
    have hspec : p.1 ∈ specs := (List.mem_zipIdx' hp).2 ▸ List.getElem_mem _
    rw [Option.isNone_iff_eq_none, ← ne_eq, Option.ne_none_iff_isSome]
    exact h.currency p.1 hspec
  have haccounts := accounts_of_clean h
  have hdimensions := dimensions_of_clean h (forall₂_keeps haccounts)
  have hcons := h.ne_nil
  unfold propose
  cases specs with
  | nil => exact absurd rfl hcons
  | cons spec rest =>
      simp only [hspecs, hordinary, hcurrencies, List.isEmpty_nil, Bool.not_true,
        Bool.false_eq_true, if_false, haccounts, hdimensions, hbalanced, hrounding, bind,
        Except.bind, pure, Except.pure, hne, ne_eq, not_false_eq_true, dif_pos]
      exact ⟨_, rfl⟩

/-! ### Exact balance -/

/-- **A currency in a valid run**: nothing is added in it, or one line that takes its imbalance
up. -/
theorem takesUp_of_foldlM (hkeeps : List.Forall₂ Keeps specs lines)
    (hexact : Exact specs currency) {currencies : List String} (hnodup : currencies.Nodup)
    (hmem : currency ∈ currencies) {acc : List ProposedLine × List ValidationError}
    {balanced : List ProposedLine}
    (h : currencies.foldlM (balanceCurrency env ref lines) acc = .ok (balanced, [])) :
    ∃ before taken after, balanced = acc.1 ++ (before ++ taken ++ after) ∧
      (∀ line ∈ before ++ after, line.currency ≠ currency) ∧
      ((imbalance specs currency = 0 ∧ taken = []) ∨
        ∃ line, taken = [line] ∧ TakesUp currency (imbalance specs currency) line) := by
  induction currencies generalizing acc with
  | nil => cases hmem
  | cons first currencies ih =>
      rw [List.nodup_cons] at hnodup
      rw [List.foldlM_cons] at h
      obtain ⟨acc', hstep, hrest⟩ := bind_eq_ok.mp h
      by_cases hfirst : first = currency
      · subst hfirst
        obtain ⟨after, errors, hresult, hafter⟩ := foldlM_eq_ok hrest
        obtain ⟨rfl, herrors⟩ := Prod.mk.inj hresult
        have hothers : ∀ line ∈ after, line.currency ≠ first := fun line hline heq =>
          hnodup.1 (heq ▸ (hafter line hline).2)
        rcases balanceCurrency_cases hkeeps hexact acc with
          ⟨hzero, hrun⟩ | ⟨-, -, e, hrun⟩ | ⟨-, -, -, line, hline, hrun⟩
        · rw [hstep] at hrun
          obtain rfl := Except.ok.inj hrun
          exact ⟨[], [], after, by simp, hothers, Or.inl ⟨hzero, rfl⟩⟩
        · rw [hstep] at hrun
          obtain rfl := Except.ok.inj hrun
          simp at herrors
        · rw [hstep] at hrun
          obtain rfl := Except.ok.inj hrun
          exact ⟨[], [line], after, by simp, hothers, Or.inr ⟨line, rfl, hline⟩⟩
      · have hmem' : currency ∈ currencies := (List.mem_cons.mp hmem).resolve_left (Ne.symm hfirst)
        obtain ⟨new, errors, rfl, hnew⟩ := balanceCurrency_eq_ok hstep
        obtain ⟨before, taken, after, rfl, hothers, htaken⟩ := ih hnodup.2 hmem' hrest
        refine ⟨new ++ before, taken, after, by simp, fun line hline => ?_, htaken⟩
        rw [List.append_assoc] at hline
        rcases List.mem_append.mp hline with hline | hline
        · rw [(hnew line hline).2]
          exact hfirst
        · exact hothers line hline

theorem lineAmounts_append (lines new : List ProposedLine) (side : LineSide) (currency : String) :
    lineAmounts (lines ++ new) side currency =
      lineAmounts lines side currency ++ lineAmounts new side currency := by
  unfold lineAmounts
  rw [List.filter_append, List.map_append]

theorem lineAmounts_of_others (h : ∀ line ∈ lines, line.currency ≠ currency) (side : LineSide) :
    lineAmounts lines side currency = [] := by
  unfold lineAmounts
  rw [List.map_eq_nil_iff, List.filter_eq_nil_iff]
  intro line hline
  simp [h line hline]

/-- A line that takes an imbalance up balances it. -/
theorem exactTotal_of_takesUp {x : ℚ} (h : TakesUp currency x line) :
    x + exactTotal [line] .debit currency = exactTotal [line] .credit currency := by
  have hamount := h.amount
  unfold exactTotal lineAmounts
  by_cases hneg : x < 0
  · have hside : line.side = .debit := h.side.trans (if_pos hneg)
    rw [abs_of_neg hneg] at hamount
    simp [h.currency, hside, hamount]
  · have hside : line.side = .credit := h.side.trans (if_neg hneg)
    rw [abs_of_nonneg (not_lt.mp hneg)] at hamount
    simp [h.currency, hside, hamount]

/-- **A valid entry balances exactly** in a currency whose imbalance is exact. -/
theorem exact_balance (hkeeps : List.Forall₂ Keeps specs lines) (hexact : Exact specs currency)
    {balanced : List ProposedLine}
    (h : balanceAndRound env ref lines = .ok (balanced, [])) :
    exactTotal balanced .debit currency = exactTotal balanced .credit currency := by
  have hlines : exactTotal lines .debit currency - exactTotal lines .credit currency =
      imbalance specs currency := by
    unfold exactTotal imbalance
    rw [lineAmounts_of_keeps hkeeps, lineAmounts_of_keeps hkeeps]
  have hsum : ∀ (before taken after : List ProposedLine) (side : LineSide),
      (∀ line ∈ before ++ after, line.currency ≠ currency) →
        exactTotal (lines ++ (before ++ taken ++ after)) side currency =
          exactTotal lines side currency + exactTotal taken side currency := by
    intro before taken after side hothers
    unfold exactTotal
    rw [lineAmounts_append, lineAmounts_append, lineAmounts_append,
      lineAmounts_of_others fun line hline => hothers line (List.mem_append_left _ hline),
      lineAmounts_of_others fun line hline => hothers line (List.mem_append_right _ hline),
      List.nil_append, List.append_nil, List.map_append, List.sum_append]
  by_cases hmem : currency ∈ lines.map (·.currency)
  · have hnodup : (env.setOrder (lines.map (·.currency))).Nodup :=
      (env.setOrder_perm _).nodup_iff.mpr (List.nodup_dedup _)
    obtain ⟨before, taken, after, rfl, hothers, htaken⟩ :=
      takesUp_of_foldlM hkeeps hexact hnodup (mem_setOrder.mpr hmem) h
    rw [hsum before taken after .debit hothers, hsum before taken after .credit hothers]
    rcases htaken with ⟨hzero, rfl⟩ | ⟨line, rfl, hline⟩
    · rw [hzero] at hlines
      have hnil : ∀ side, exactTotal [] side currency = 0 := fun side => rfl
      rw [hnil, hnil]
      linarith
    · have hbalance := exactTotal_of_takesUp hline
      linarith
  · obtain ⟨new, errors, hresult, hnew⟩ := foldlM_eq_ok h
    obtain ⟨rfl, -⟩ := Prod.mk.inj hresult
    have hall : ∀ line ∈ lines ++ new, line.currency ≠ currency := by
      intro line hline heq
      rcases List.mem_append.mp hline with hline | hline
      · exact hmem (heq ▸ List.mem_map_of_mem hline)
      · exact hmem (mem_setOrder.mp (heq ▸ (hnew line hline).2))
    unfold exactTotal
    rw [lineAmounts_of_others hall, lineAmounts_of_others hall]

/-- Amounts written with so many places have exact imbalances when their digits fit. -/
theorem exact_of_written (hroom : defaultContext.Roomy places)
    (hwritten : ∀ spec ∈ specs, spec.amount.Written places)
    (hdigits : ∀ side, ((specAmounts specs side currency).map Decimal.toRat).sum * 10 ^ places <
      10 ^ defaultContext.prec) : Exact specs currency := by
  have hamounts : ∀ side, ∀ amount ∈ specAmounts specs side currency,
      amount.Written places ∧ amount.NonNegative := by
    intro side amount hamount
    obtain ⟨spec, hspec, rfl⟩ := List.mem_map.mp hamount
    exact ⟨hwritten spec (List.mem_of_mem_filter hspec), spec.amount_nonneg⟩
  have hsum := fun side => Decimal.sum_eq_ok_of_nonneg hroom
    (fun amount hamount => (hamounts side amount hamount).1)
    (fun amount hamount => (hamounts side amount hamount).2) (hdigits side)
  have hnonneg : ∀ side, 0 ≤ ((specAmounts specs side currency).map Decimal.toRat).sum := by
    intro side
    refine List.sum_nonneg fun x hx => ?_
    obtain ⟨amount, hamount, rfl⟩ := List.mem_map.mp hx
    exact Decimal.toRat_nonneg (hamounts side amount hamount).2
  obtain ⟨debits, hdebits, hdebitsWritten, hdebitsValue⟩ := hsum .debit
  obtain ⟨credits, hcredits, hcreditsWritten, hcreditsValue⟩ := hsum .credit
  have hpow : (0 : ℚ) < 10 ^ places := by positivity
  have hdifference : |debits.toRat - credits.toRat| * 10 ^ places < 10 ^ defaultContext.prec := by
    have hle : |debits.toRat - credits.toRat| ≤ max debits.toRat credits.toRat := by
      have hd := hnonneg .debit
      have hc := hnonneg .credit
      rw [← hdebitsValue] at hd
      rw [← hcreditsValue] at hc
      rcases le_total debits.toRat credits.toRat with hle | hle
      · rw [abs_of_nonpos (sub_nonpos.mpr hle), max_eq_right hle]
        linarith
      · rw [abs_of_nonneg (sub_nonneg.mpr hle), max_eq_left hle]
        linarith
    refine lt_of_le_of_lt (mul_le_mul_of_nonneg_right hle hpow.le) ?_
    rcases max_choice debits.toRat credits.toRat with hmax | hmax
    · rw [hmax, hdebitsValue]
      exact hdigits .debit
    · rw [hmax, hcreditsValue]
      exact hdigits .credit
  obtain ⟨difference, hsub, hsubWritten, hsubValue⟩ :=
    Decimal.sub_eq_ok hroom hdebitsWritten hcreditsWritten hdifference
  refine ⟨debits, credits, difference, hdebits, hcredits, hsub, hsubWritten.isFinite, ?_⟩
  rw [hsubValue, hdebitsValue, hcreditsValue]
  rfl

/-! ### The law -/

theorem length_le_one_iff {xs : List String} (hnodup : xs.Nodup) :
    xs.length ≤ 1 ↔ ∀ x ∈ xs, ∀ y ∈ xs, x = y := by
  rcases xs with _ | ⟨x, _ | ⟨y, rest⟩⟩
  · simp
  · simp
  · refine iff_of_false (by simp) fun h => ?_
    have heq : x = y := h x (by simp) y (by simp)
    exact (List.nodup_cons.mp hnodup).1 (heq ▸ List.mem_cons_self)

/-- The lines that take imbalances up pass the check exactly when one is enough. -/
theorem oneRounding_iff (hkeeps : List.Forall₂ Keeps specs lines)
    (htaken : List.Forall₂ (fun currency => TakesUp currency (imbalance specs currency))
      (unbalancedIn specs (env.setOrder (lines.map (·.currency)))) new) :
    (new.length ≤ 1 ∧ ∀ line ∈ new, line.amount.toRat ≤ (maxAllowed lines.length).toRat) ↔
      OneRounding specs := by
  have hnodup : (unbalancedIn specs (env.setOrder (lines.map (·.currency)))).Nodup :=
    ((env.setOrder_perm _).nodup_iff.mpr (List.nodup_dedup _)).filter _
  have hmem : ∀ currency, currency ∈ unbalancedIn specs (env.setOrder (lines.map (·.currency))) ↔
      ∃ spec ∈ specs, spec.currency = currency ∧ imbalance specs currency ≠ 0 := by
    intro currency
    unfold unbalancedIn
    rw [List.mem_filter, mem_setOrder, currencies_of_keeps hkeeps, List.mem_map, decide_eq_true_eq]
    constructor
    · rintro ⟨⟨spec, hspec, heq⟩, hne⟩
      exact ⟨spec, hspec, heq, hne⟩
    · rintro ⟨spec, hspec, heq, hne⟩
      exact ⟨⟨spec, hspec, heq⟩, hne⟩
  have hlimit : 0 ≤ (maxAllowed specs.length).toRat := Decimal.toRat_nonneg (Or.inl rfl)
  rw [← htaken.length_eq, length_le_one_iff hnodup, ← hkeeps.length_eq]
  constructor
  · rintro ⟨hsingle, hwithin⟩
    refine ⟨fun spec hspec spec' hspec' hne hne' => ?_, fun spec hspec => ?_⟩
    · exact hsingle _ ((hmem _).mpr ⟨spec, hspec, rfl, hne⟩) _
        ((hmem _).mpr ⟨spec', hspec', rfl, hne'⟩)
    · by_cases hzero : imbalance specs spec.currency = 0
      · rwa [hzero, abs_zero]
      · obtain ⟨line, hline, htakes⟩ := (Traversals.mem_of_forall₂ htaken).1 _
          ((hmem _).mpr ⟨spec, hspec, rfl, hzero⟩)
        rw [← htakes.amount]
        exact hwithin line hline
  · intro h
    refine ⟨fun x hx y hy => ?_, fun line hline => ?_⟩
    · obtain ⟨spec, hspec, rfl, hne⟩ := (hmem x).mp hx
      obtain ⟨spec', hspec', rfl, hne'⟩ := (hmem y).mp hy
      exact h.single spec hspec spec' hspec' hne hne'
    · obtain ⟨currency, hcurrency, htakes⟩ := (Traversals.mem_of_forall₂ htaken).2 line hline
      obtain ⟨spec, hspec, rfl, -⟩ := (hmem currency).mp hcurrency
      rw [htakes.amount]
      exact h.limit spec hspec

theorem accepted_iff (hkeeps : List.Forall₂ Keeps specs lines) (h : Clean env ref specs) :
    (∀ currency ∈ env.setOrder (lines.map (·.currency)), Accepted env ref specs currency) ↔
      WithinTolerance env specs := by
  have htolerance : ∀ currency, 0 ≤ (env.roundingTolerance currency).toRat := fun currency =>
    Decimal.toRat_nonneg (Or.inl rfl)
  constructor
  · intro haccepted spec hspec
    have hmem : spec.currency ∈ lines.map (·.currency) := by
      rw [currencies_of_keeps hkeeps]
      exact List.mem_map_of_mem hspec
    rcases haccepted _ (mem_setOrder.mpr hmem) with hzero | ⟨hle, -⟩
    · rw [hzero, abs_zero]
      exact htolerance spec.currency
    · exact hle
  · intro hwithin currency hcurrency
    rw [mem_setOrder, currencies_of_keeps hkeeps] at hcurrency
    obtain ⟨spec, hspec, rfl⟩ := List.mem_map.mp hcurrency
    exact Or.inr ⟨hwithin spec hspec, h.roundingAccount spec hspec⟩

/-- **What `propose` accepts.**  Where nothing else is wrong and the sums are exact, an entry is
proposed if and only if every imbalance is within the tolerance of its currency and one rounding
line, within the limit of the entry, takes up all of them.  A proposed entry has the lines of the
strategy, at most one more, and balances exactly in every currency whose imbalance is computed
without rounding; this is so of amounts of limited places and digits. -/
theorem propose_rounds_iff (env : Environment) (ref : ReferenceData) (strategy : Strategy)
    (specs : List LineSpec) (hspecs : strategy.lineSpecs ref = .ok specs) :
    (Clean env ref specs → (∀ spec ∈ specs, Exact specs spec.currency) →
      ((∃ entry, propose env ref strategy = .ok (.ok entry)) ↔
        WithinTolerance env specs ∧ OneRounding specs)) ∧
      (∀ entry, propose env ref strategy = .ok (.ok entry) → ∃ kept new,
        entry.lines = kept ++ new ∧ List.Forall₂ Keeps specs kept ∧ new.length ≤ 1 ∧
          (∀ line ∈ new, line.isRounding = true) ∧
          ∀ currency, Exact specs currency →
            exactTotal entry.lines .debit currency = exactTotal entry.lines .credit currency) ∧
      ∀ places currency, defaultContext.Roomy places →
        (∀ spec ∈ specs, spec.amount.Written places) →
          (∀ side, ((specAmounts specs side currency).map Decimal.toRat).sum * 10 ^ places <
            10 ^ defaultContext.prec) → Exact specs currency := by
  refine ⟨fun hclean hexact => ?_, fun entry hpropose => ?_,
    fun places currency hroom hwritten hdigits => exact_of_written hroom hwritten hdigits⟩
  · have haccounts := accounts_of_clean hclean
    have hkeeps := forall₂_keeps haccounts
    have hordinary : ∀ line ∈ (resolveAccounts ref specs).1, line.isRounding = false := by
      intro line hline
      obtain ⟨spec, hspec, hkept⟩ := (Traversals.mem_of_forall₂ hkeeps).2 line hline
      rw [hkept.isRounding, hclean.ordinary spec hspec]
    have hcurrencies : ∀ currency ∈ env.setOrder ((resolveAccounts ref specs).1.map (·.currency)),
        Exact specs currency := by
      intro currency hcurrency
      rw [mem_setOrder, currencies_of_keeps hkeeps] at hcurrency
      obtain ⟨spec, hspec, rfl⟩ := List.mem_map.mp hcurrency
      exact hexact spec hspec
    obtain ⟨new, errors, hrun, herrors, htaken⟩ :=
      @foldlM_balanceCurrency env ref _ _ hkeeps _ hcurrencies ((resolveAccounts ref specs).1, [])
    have hnew : errors = [] → ∀ line ∈ new, line.isRounding = true ∧ line.amount.IsFinite := by
      intro hnil line hline
      obtain ⟨currency, -, htakes⟩ := (Traversals.mem_of_forall₂ (htaken hnil)).2 line hline
      exact ⟨htakes.isRounding, htakes.finite⟩
    rw [accepted_iff hkeeps hclean] at herrors
    constructor
    · rintro ⟨entry, hpropose⟩
      obtain ⟨specs', hspecs', -, -, hbalanced, hrounding⟩ := stages_of_propose hpropose
      obtain rfl := Except.ok.inj (hspecs.symm.trans hspecs')
      have hresult := Except.ok.inj (hrun.symm.trans hbalanced)
      obtain ⟨hlines, hnil⟩ := Prod.mk.inj hresult
      rw [List.nil_append] at hnil
      rw [← hlines, validateRoundingInvariants_append hordinary (hnew hnil)] at hrounding
      exact ⟨herrors.mp hnil, (oneRounding_iff hkeeps (htaken hnil)).mp hrounding⟩
    · rintro ⟨hwithin, hone⟩
      have hnil := herrors.mpr hwithin
      subst hnil
      have hrounding := (validateRoundingInvariants_append hordinary (hnew rfl)).mpr
        ((oneRounding_iff hkeeps (htaken rfl)).mpr hone)
      have hne : (resolveAccounts ref specs).1 ++ new ≠ [] := by
        intro hempty
        have hlength := hkeeps.length_eq
        rw [(List.append_eq_nil_iff.mp hempty).1, List.length_nil] at hlength
        exact hclean.ne_nil (List.length_eq_zero_iff.mp hlength)
      exact propose_of_clean hspecs hclean hrun hrounding hne
  · obtain ⟨specs', hspecs', hnone, haccounts, hbalanced, hrounding⟩ := stages_of_propose hpropose
    obtain rfl := Except.ok.inj (hspecs.symm.trans hspecs')
    have hkeeps := forall₂_keeps haccounts
    obtain ⟨new, hlines, hnew⟩ := balanceAndRound_eq_ok hbalanced
    refine ⟨_, new, hlines, hkeeps, ?_, hnew, fun currency hexact => ?_⟩
    · have hsingle := (validated_of_nil hrounding).1
      have hlines : entry.lines = (resolveAccounts ref specs).1 ++ new := hlines
      rw [hlines, List.filter_append, List.length_append,
        List.filter_eq_self.mpr fun line hline => hnew line hline] at hsingle
      omega
    · exact exact_balance hkeeps hexact hbalanced

end Laws

/-! ### Currencies within their tolerance -/

def samplePlaces (code : String) : Option ℕ :=
  if code = "JPY" then some 0 else if code = "USD" || code = "EUR" then some 2 else none

def sampleCurrencies : Environment where
  decimalPlaces := samplePlaces
  setOrder := List.dedup
  setOrder_perm _ := .refl _

def sampleReference : ReferenceData where
  accountIdsByCode _ := some ⟨1⟩
  isAccountActive _ := true
  roundingAccountIds _ := some ⟨2⟩

def sampleSpec (side : LineSide) (coeff : ℕ) (exp : ℤ) (currency : String) : LineSpec where
  accountCode := "1000"
  side := side
  amount := .finite false coeff exp
  currency := currency
  amount_nonneg := Or.inl rfl

def sampleStrategy (specs : List LineSpec) : Strategy where
  version := 1
  lineSpecs _ := .ok specs

/-- A dollar against 99 cents. -/
def centOff : List LineSpec := [sampleSpec .debit 100 (-2) "USD", sampleSpec .credit 99 (-2) "USD"]

/-- A hundred yen against 99. -/
def yenOff : List LineSpec := [sampleSpec .debit 100 0 "JPY", sampleSpec .credit 99 0 "JPY"]

/-- A cent in two currencies. -/
def twoOff : List LineSpec :=
  centOff ++ [sampleSpec .debit 100 (-2) "EUR", sampleSpec .credit 99 (-2) "EUR"]

/-- A dollar beyond the digits of the context. -/
def digitOff : List LineSpec :=
  [sampleSpec .debit 1 28 "USD", sampleSpec .debit 1 0 "USD", sampleSpec .credit 1 28 "USD"]

theorem clean_sample {specs : List LineSpec} (hne : specs ≠ [])
    (h : specs.all (fun spec => !spec.isRounding && (samplePlaces spec.currency).isSome) = true) :
    Clean sampleCurrencies sampleReference specs := by
  have hspec : ∀ spec ∈ specs,
      spec.isRounding = false ∧ (samplePlaces spec.currency).isSome = true := by
    intro spec hspec
    have hboth := List.all_eq_true.mp h spec hspec
    rw [Bool.and_eq_true, Bool.not_eq_true'] at hboth
    exact hboth
  refine ⟨hne, fun spec hs => (hspec spec hs).1, fun spec hs => (hspec spec hs).2,
    fun _ _ => rfl, fun _ _ => rfl, fun _ _ dim hdim => ?_, fun _ _ => rfl⟩
  exact absurd hdim List.not_mem_nil

theorem exact_centOff : ∀ spec ∈ centOff, Exact centOff spec.currency := by
  intro spec hspec
  have hcurrency : spec.currency = "USD" := by
    have hall : ∀ spec ∈ centOff, spec.currency = "USD" := by decide
    exact hall spec hspec
  rw [hcurrency]
  have hroom : defaultContext.Roomy 2 := ⟨by decide, by decide⟩
  have hwritten : ∀ spec ∈ centOff, spec.amount.Written 2 := by decide
  refine exact_of_written hroom hwritten fun side => ?_
  cases side <;> decide +kernel

theorem propose_rounds_sample :
    ∃ entry, propose sampleCurrencies sampleReference (sampleStrategy centOff) =
      .ok (.ok entry) := by
  have hlaw := propose_rounds_iff sampleCurrencies sampleReference (sampleStrategy centOff) centOff
    rfl
  have hclean : Clean sampleCurrencies sampleReference centOff :=
    clean_sample (List.cons_ne_nil _ _) (by decide)
  have hwithin : WithinTolerance sampleCurrencies centOff := by
    unfold WithinTolerance
    decide +kernel
  have hone : OneRounding centOff := ⟨by decide +kernel, by decide +kernel⟩
  exact (hlaw.1 hclean exact_centOff).mpr ⟨hwithin, hone⟩

/-- **The tolerance is not enough**: a yen is within the tolerance of its currency and above the
limit of two lines, and two currencies need two rounding lines.  And an entry that is proposed
balances as the context sees it, which has only 28 digits. -/
theorem tolerance_not_enough :
    (Clean sampleCurrencies sampleReference yenOff ∧ WithinTolerance sampleCurrencies yenOff ∧
        ∀ entry, propose sampleCurrencies sampleReference (sampleStrategy yenOff) ≠
          .ok (.ok entry)) ∧
      (Clean sampleCurrencies sampleReference twoOff ∧ WithinTolerance sampleCurrencies twoOff ∧
        ∀ entry, propose sampleCurrencies sampleReference (sampleStrategy twoOff) ≠
          .ok (.ok entry)) ∧
      ∃ entry, propose sampleCurrencies sampleReference (sampleStrategy digitOff) =
          .ok (.ok entry) ∧
        exactTotal entry.lines .debit "USD" ≠ exactTotal entry.lines .credit "USD" := by
  have hrefused : ∀ {result : Except Signal StrategyResult},
      result.toOption.all (fun r => r.toOption.isNone) = true → ∀ entry, result ≠ .ok (.ok entry) := by
    rintro result h entry rfl
    cases h
  refine ⟨⟨clean_sample (List.cons_ne_nil _ _) (by decide), ?_, hrefused (by decide +kernel)⟩,
    ⟨clean_sample (List.cons_ne_nil _ _) (by decide), ?_, hrefused (by decide +kernel)⟩, ?_⟩
  · unfold WithinTolerance
    decide +kernel
  · unfold WithinTolerance
    decide +kernel
  · have hrun : (propose sampleCurrencies sampleReference (sampleStrategy digitOff)).toOption.any
        (fun r => r.toOption.any fun entry =>
          exactTotal entry.lines .debit "USD" ≠ exactTotal entry.lines .credit "USD") = true := by
      decide +kernel
    rcases hpropose : propose sampleCurrencies sampleReference (sampleStrategy digitOff) with
      signal | errors | entry
    · rw [hpropose] at hrun
      cases hrun
    · rw [hpropose] at hrun
      cases hrun
    · rw [hpropose] at hrun
      exact ⟨entry, rfl, of_decide_eq_true hrun⟩

end FinanceAccounting.PostingStrategy
