import FinanceAccounting.Library.TransitionSystem
import FinanceAccounting.Services.Reconciliation

/-! # Payments are not over-applied

What has been applied to an invoice is to stay within its original amount, in its currency, and what
remains by the links is to be the difference.  The guard of `apply_payment` compares numbers that
are read from metadata, so this is so where the metadata say what was applied:
`settled_of_rightly` proves it for the runs in which every payment that the guard lets pass is
in the currency of the invoice, brings no other `amount_applied`, and is not rounded. -/

namespace FinanceAccounting.Reconciliation

open Hashing (PyVal)
open LinkGraph (ArtifactRef EconomicLink LinkTable LinkType)
open TransitionSystem (Along Throughout run)
open UnitOfWork (Result Session)
open Valuation (Env Money sumOf)

/-! ### The laws -/

/-- The amounts that were applied to an invoice. -/
def appliedTo (store : Store) (invoice : ArtifactRef) : List Money :=
  (store.applied.filter (·.invoiceRef = invoice)).map (·.amount)

def paid (store : Store) (invoice : ArtifactRef) : ℚ :=
  ((appliedTo store invoice).map (·.amount)).sum

/-- What was applied to the invoice is in its currency and not more than its original amount, and
the links say what remains. -/
structure Settled (b : Builtins) (invoice : ArtifactRef) (original : Money) (store : Store) :
    Prop where
  currency : ∀ m ∈ appliedTo store invoice, m.currency = original.currency
  bounded : appliedTo store invoice ≠ [] → paid store invoice ≤ original.amount
  derived : ∃ state, getReconciliationState b store.rows invoice original = .ok state ∧
    state.remainingAmount.amount = original.amount - paid store invoice

/-! ### The condition -/

/-- An amount is not negative and not more than what remains of an invoice that is not paid. -/
structure Fits (store : Store) (invoice : ArtifactRef) (original : Money) (amount : ℚ) : Prop where
  unpaid : paid store invoice ≠ 0 → paid store invoice ≠ original.amount
  nonneg : 0 ≤ amount
  within : amount ≤ original.amount - paid store invoice

/-- A payment is in the currency of the invoice, its metadata do not say that another amount was
applied, and the new sum and rest are not rounded. -/
structure Rightly (b : Builtins) (store : Store) (invoice : ArtifactRef) (original : Money)
    (p : ApplyPayment) : Prop where
  currency : p.amount.currency = original.currency
  metadata : ∀ v, (p.metadata.getD []).lookup "amount_applied" = some v →
    b.decimal v = some p.amount.amount
  sum_exact : b.ctx.round (paid store invoice + p.amount.amount) =
    paid store invoice + p.amount.amount
  rest_exact : b.ctx.round (original.amount - (paid store invoice + p.amount.amount)) =
    original.amount - (paid store invoice + p.amount.amount)

/-- A payment of the invoice that fits is applied rightly. -/
def Meets (b : Builtins) (invoice : ArtifactRef) (original : Money) (store : Store)
    (p : ApplyPayment) : Prop :=
  p.invoiceRef = invoice → Fits store invoice original p.amount.amount →
    Rightly b store invoice original p

/-- One payment of a list, if it does not raise. -/
def applyStep (b : Builtins) (st : Env × Session Store) (p : ApplyPayment) :
    Option (Env × Session Store) :=
  match applyPayment b st.1 st.2 p with
  | (.ok _, s) => some (afterPayment st.1, s)
  | (.error _, _) => none

/-- The condition on a call, in the session in which it is made: on each of its payments. -/
def MeetsCall (b : Builtins) (invoice : ArtifactRef) (original : Money) (s : Session Store) :
    Call → Prop
  | .applyPayment _ p => Meets b invoice original s.current p
  | .applyPaymentAcrossInvoices env today p =>
      ∀ result, AllocationEngine.allocate b.toArithmetic p.paymentAmount (p.targets today) p.method =
          .ok result →
        Along (applyStep b) (fun st q => Meets b invoice original st.2.current q) (env, s)
          (p.payments result.lines)
  | .commit | .rollback => True

/-- The call passes the original amount of the invoice. -/
def PassesOriginal (invoice : ArtifactRef) (original : Money) : Call → Prop
  | .applyPayment _ p => p.invoiceRef = invoice → p.invoiceOriginalAmount = original
  | .applyPaymentAcrossInvoices _ _ p =>
      ∀ share ∈ p.invoices, share.invoiceRef = invoice → share.original = original
  | .commit | .rollback => True

/-! ### What is derived from the links -/

section Derived

variable {b : Builtins} {invoice : ArtifactRef}

theorem lookup_linkMetadata (p : ApplyPayment) :
    p.linkMetadata.lookup "amount_applied" =
      some ((((p.metadata.getD []).lookup "amount_applied").map .value).getD
        (.amount p.amount.amount)) := by
  have hvalue : ∀ (ms : List (String × PyVal)) (f : String × PyVal → String × MetadataValue),
      (∀ m, f m = (m.1, .value m.2)) →
        (ms.map f).lookup "amount_applied" = (ms.lookup "amount_applied").map .value := by
    intro ms f hf
    induction ms with
    | nil => rfl
    | cons m ms ih =>
        rw [List.map_cons, hf, List.lookup_cons, List.lookup_cons, ih]
        split <;> rfl
  unfold ApplyPayment.linkMetadata merge
  rw [List.map_cons, List.cons_append, List.lookup_cons, hvalue _ _ fun _ => rfl]
  rfl

theorem getChildren_append (rows : List LinkRow) (row : LinkRow) :
    getChildren (rows ++ [row]) invoice = getChildren rows invoice ++ getChildren [row] invoice :=
  List.filter_append ..

theorem amountsApplied_append {rows : List LinkRow} {xs : List ℚ} {row : LinkRow}
    {v : MetadataValue} {x : ℚ} (h : amountsApplied b rows = .ok xs)
    (hv : row.metadata.lookup "amount_applied" = some v) (hx : readAmount b v = some x) :
    amountsApplied b (rows ++ [row]) = .ok (xs ++ [x]) := by
  induction rows generalizing xs with
  | nil =>
      obtain rfl := Except.ok.inj h
      rw [List.nil_append, amountsApplied, hv]
      dsimp only
      rw [hx]
      rfl
  | cons r rows ih =>
      rw [amountsApplied] at h
      rw [List.cons_append, amountsApplied]
      cases hr : r.metadata.lookup "amount_applied" with
      | none =>
          rw [hr] at h
          exact ih h
      | some w =>
          rw [hr] at h
          dsimp only at h ⊢
          cases hw : readAmount b w with
          | none =>
              rw [hw] at h
              cases h
          | some y =>
              rw [hw] at h
              dsimp only at h ⊢
              cases hrest : amountsApplied b rows with
              | error e =>
                  rw [hrest] at h
                  cases h
              | ok ys =>
                  rw [hrest] at h
                  obtain rfl := Except.ok.inj h
                  rw [ih hrest]
                  rfl

/-- The state that is derived, and when it is fully matched. -/
theorem getReconciliationState_of_amounts (original : Money) {rows : List LinkRow} {xs : List ℚ}
    (h : amountsApplied b (getChildren rows invoice) = .ok xs) :
    ∃ state, getReconciliationState b rows invoice original = .ok state ∧
      state.remainingAmount.amount = b.ctx.round (original.amount - sumOf b.ctx xs) ∧
        (state.isFullyMatched = true ↔ sumOf b.ctx xs ≠ 0 ∧
          b.ctx.round (original.amount - sumOf b.ctx xs) = 0) := by
  have hconsumed : consumedAmount b rows invoice = .ok (sumOf b.ctx xs) := by
    rw [consumedAmount, h]
    rfl
  unfold getReconciliationState
  rw [hconsumed]
  show ∃ state, ReconciliationState.fromAmounts _ _ _ _ _ _ = _ ∧ _
  unfold ReconciliationState.fromAmounts
  dsimp only
  rw [sub_self, Decimal.Context.round_zero, abs_zero, if_neg (by norm_num)]
  refine ⟨_, rfl, rfl, ?_⟩
  rw [ReconciliationState.isFullyMatched, decide_eq_true_iff]
  dsimp only
  by_cases hzero : sumOf b.ctx xs = 0
  · simp [hzero]
  · rw [if_neg hzero]
    by_cases hrest : b.ctx.round (original.amount - sumOf b.ctx xs) = 0
    · simp [hzero, hrest]
    · rw [if_neg hrest]
      split <;> simp [hrest]

/-- A payment raises, and then at most undoes the transaction; or it passes the guard and its link
is stored. -/
theorem applyPayment_cases (b : Builtins) (env : Env) (s : Session Store) (p : ApplyPayment) :
    (∃ e, applyPayment b env s p = (.error e, s) ∨ applyPayment b env s p = (.error e, s.rollback)) ∨
      ∃ state link application,
        getReconciliationState b s.current.rows p.invoiceRef p.invoiceOriginalAmount = .ok state ∧
        state.isFullyMatched = false ∧ 0 ≤ p.amount.amount ∧
        p.amount.amount ≤ state.remainingAmount.amount ∧ link.parentRef = p.invoiceRef ∧
        link.linkType = .paidBy ∧
        applyPayment b env s p = (.ok application, s.flush (s.current.withApplication p link)) := by
  unfold applyPayment
  cases hstate : getReconciliationState b s.current.rows p.invoiceRef p.invoiceOriginalAmount with
  | error e => exact Or.inl ⟨e, Or.inl rfl⟩
  | ok state =>
      dsimp only
      by_cases hmatched : state.isFullyMatched = true
      · rw [if_pos hmatched]
        exact Or.inl ⟨_, Or.inl rfl⟩
      · rw [if_neg hmatched]
        by_cases hneg : p.amount.amount < 0
        · rw [if_pos hneg]
          exact Or.inl ⟨_, Or.inl rfl⟩
        · rw [if_neg hneg]
          by_cases hover : state.remainingAmount.amount < p.amount.amount
          · rw [if_pos hover]
            exact Or.inl ⟨_, Or.inl rfl⟩
          · rw [if_neg hover]
            cases hcreate : EconomicLink.create (env.uuid4 0) .paidBy p.invoiceRef p.paymentRef
                p.creatingEventId env.now none with
            | error e => exact Or.inl ⟨_, Or.inl rfl⟩
            | ok link =>
                obtain ⟨htype, hparent, -⟩ := Valuation.create_eq_ok hcreate
                dsimp only
                unfold establishLink
                rcases LinkGraph.establishIn_strict Store.links env.recursionLimit s link
                  (s.current.withApplication p link) with ⟨-, heq⟩ | ⟨e, heq | heq⟩
                · rw [heq]
                  dsimp only
                  split
                  · rw [Result.ok_andThen, PaymentApplication.create, if_neg hneg]
                    exact Or.inr ⟨state, link, _, rfl, by simpa using hmatched, not_lt.mp hneg,
                      not_lt.mp hover, hparent, htype, rfl⟩
                  · exact Or.inl ⟨_, Or.inr rfl⟩
                · rw [heq]
                  exact Or.inl ⟨_, Or.inl rfl⟩
                · rw [heq]
                  exact Or.inl ⟨_, Or.inr rfl⟩

theorem committed_applyPayment {b : Builtins} (env : Env) (s : Session Store) (p : ApplyPayment) :
    (applyPayment b env s p).2.committed = s.committed := by
  rcases applyPayment_cases b env s p with ⟨e, heq | heq⟩ | ⟨_, _, _, -, -, -, -, -, -, heq⟩
  · rw [heq]
  · rw [heq]
    rfl
  · rw [heq]
    rfl

end Derived

/-- What has been applied after one more application. -/
theorem paid_withApplication (store : Store) (p : ApplyPayment) (link : EconomicLink)
    (invoice : ArtifactRef) : paid (store.withApplication p link) invoice =
      paid store invoice + if p.invoiceRef = invoice then p.amount.amount else 0 := by
  unfold paid appliedTo Store.withApplication
  rw [List.filter_append, List.map_append, List.map_append, List.sum_append]
  by_cases hinvoice : p.invoiceRef = invoice
  · simp [hinvoice]
  · simp [hinvoice]

/-! ### The invariant -/

/-- The links say exactly what was applied. -/
structure Inv (b : Builtins) (invoice : ArtifactRef) (original : Money) (store : Store) : Prop where
  currency : ∀ m ∈ appliedTo store invoice, m.currency = original.currency
  bounded : appliedTo store invoice ≠ [] → paid store invoice ≤ original.amount
  amounts : ∃ xs, amountsApplied b (getChildren store.rows invoice) = .ok xs ∧
    sumOf b.ctx xs = paid store invoice
  rest : b.ctx.round (original.amount - paid store invoice) = original.amount - paid store invoice

section Invariant

variable {b : Builtins} {invoice : ArtifactRef} {original : Money} {store : Store}
  {p : ApplyPayment} {link : EconomicLink} {s : Session Store}

theorem Inv.state (h : Inv b invoice original store) :
    ∃ state, getReconciliationState b store.rows invoice original = .ok state ∧
      state.remainingAmount.amount = original.amount - paid store invoice ∧
        (state.isFullyMatched = true ↔ paid store invoice ≠ 0 ∧
          original.amount - paid store invoice = 0) := by
  obtain ⟨xs, hxs, hsum⟩ := h.amounts
  obtain ⟨state, hstate, hremaining, hmatched⟩ :=
    getReconciliationState_of_amounts original hxs
  rw [hsum, h.rest] at hremaining hmatched
  exact ⟨state, hstate, hremaining, hmatched⟩

theorem Inv.settled (h : Inv b invoice original store) : Settled b invoice original store := by
  obtain ⟨state, hstate, hremaining, -⟩ := h.state
  exact ⟨h.currency, h.bounded, state, hstate, hremaining⟩

/-- A link of another document changes nothing. -/
theorem Inv.other (h : Inv b invoice original store) (hparent : link.parentRef = p.invoiceRef)
    (hother : p.invoiceRef ≠ invoice) : Inv b invoice original (store.withApplication p link) := by
  have hchildren : getChildren (store.withApplication p link).rows invoice =
      getChildren store.rows invoice := by
    have hnew : getChildren [⟨link, p.linkMetadata⟩] invoice = [] := by
      simp [getChildren, hparent, hother]
    rw [Store.withApplication, getChildren_append, hnew, List.append_nil]
  have happlied : appliedTo (store.withApplication p link) invoice = appliedTo store invoice := by
    rw [appliedTo, Store.withApplication, List.filter_append, List.filter_cons_of_neg,
      List.filter_nil, List.append_nil, appliedTo]
    simpa using hother
  have hpaid : paid (store.withApplication p link) invoice = paid store invoice := by
    rw [paid, happlied, paid]
  constructor
  · rw [happlied]
    exact h.currency
  · rw [happlied, hpaid]
    exact h.bounded
  · rw [hchildren, hpaid]
    exact h.amounts
  · rw [hpaid]
    exact h.rest

/-- A payment that is applied rightly keeps the links true. -/
theorem Inv.apply (h : Inv b invoice original store) (hinvoice : p.invoiceRef = invoice)
    (hparent : link.parentRef = p.invoiceRef) (htype : link.linkType = .paidBy)
    (hwithin : p.amount.amount ≤ original.amount - paid store invoice)
    (hrightly : Rightly b store invoice original p) :
    Inv b invoice original (store.withApplication p link) := by
  have hchildren : getChildren (store.withApplication p link).rows invoice =
      getChildren store.rows invoice ++ [⟨link, p.linkMetadata⟩] := by
    have hnew : getChildren [⟨link, p.linkMetadata⟩] invoice = [⟨link, p.linkMetadata⟩] := by
      simp [getChildren, hparent, hinvoice, htype, applicationTypes]
    rw [Store.withApplication, getChildren_append, hnew]
  have happlied : appliedTo (store.withApplication p link) invoice =
      appliedTo store invoice ++ [p.amount] := by
    rw [appliedTo, Store.withApplication, List.filter_append, List.filter_cons_of_pos,
      List.filter_nil, List.map_append, appliedTo]
    · rfl
    · simpa using hinvoice
  have hpaid : paid (store.withApplication p link) invoice =
      paid store invoice + p.amount.amount := by
    rw [paid, happlied, List.map_append, List.sum_append, paid]
    simp
  obtain ⟨xs, hxs, hsum⟩ := h.amounts
  have hread : ∃ v, p.linkMetadata.lookup "amount_applied" = some v ∧
      readAmount b v = some p.amount.amount := by
    refine ⟨_, lookup_linkMetadata p, ?_⟩
    cases hgiven : (p.metadata.getD []).lookup "amount_applied" with
    | none => rfl
    | some v => exact hrightly.metadata v hgiven
  obtain ⟨v, hv, hamount⟩ := hread
  constructor
  · rw [happlied]
    intro m hm
    rcases List.mem_append.mp hm with hm | hm
    · exact h.currency m hm
    · obtain rfl := List.mem_singleton.mp hm
      exact hrightly.currency
  · rw [hpaid]
    intro _
    linarith
  · refine ⟨xs ++ [p.amount.amount], ?_, ?_⟩
    · rw [hchildren]
      exact amountsApplied_append hxs hv hamount
    · rw [Valuation.sumOf_append, hsum, hpaid]
      exact hrightly.sum_exact
  · rw [hpaid]
    exact hrightly.rest_exact

/-- **Step lemma**: a payment that meets the condition keeps the links true. -/
theorem both_applyPayment (env : Env) (hs : s.Both (Inv b invoice original))
    (hmeets : Meets b invoice original s.current p)
    (hsame : p.invoiceRef = invoice → p.invoiceOriginalAmount = original) :
    (applyPayment b env s p).2.Both (Inv b invoice original) := by
  rcases applyPayment_cases b env s p with ⟨e, heq | heq⟩ |
    ⟨state, link, application, hstate, hmatched, hnonneg, hwithin, hparent, htype, heq⟩ <;> rw [heq]
  · exact hs
  · exact hs.rollback
  · refine hs.flush ?_
    by_cases hinvoice : p.invoiceRef = invoice
    · rw [hinvoice, hsame hinvoice] at hstate
      obtain ⟨state', hstate', hremaining, hiff⟩ := hs.current.state
      obtain rfl : state' = state := Except.ok.inj (hstate'.symm.trans hstate)
      rw [hremaining] at hwithin
      have hfits : Fits s.current invoice original p.amount.amount := by
        refine ⟨fun hpaid heq => ?_, hnonneg, hwithin⟩
        have hzero : original.amount - paid s.current invoice = 0 := by
          rw [heq]
          exact sub_self _
        rw [hiff.mpr ⟨hpaid, hzero⟩] at hmatched
        cases hmatched
      exact hs.current.apply hinvoice hparent htype hwithin (hmeets hinvoice hfits)
    · exact hs.current.other hparent hinvoice

/-- The loop keeps the links true, also when it is left by an exception. -/
theorem both_applyAll {ps : List ApplyPayment}
    (hsame : ∀ p ∈ ps, p.invoiceRef = invoice → p.invoiceOriginalAmount = original) {env : Env}
    (hs : s.Both (Inv b invoice original))
    (hmeets : Along (applyStep b) (fun st q => Meets b invoice original st.2.current q) (env, s)
      ps) :
    (applyAll b env s ps).2.Both (Inv b invoice original) := by
  induction ps generalizing env s with
  | nil => exact hs
  | cons p ps ih =>
      obtain ⟨hhead, htail⟩ := TransitionSystem.along_cons.mp hmeets
      have hp := both_applyPayment env hs hhead (hsame p List.mem_cons_self)
      have hsame' : ∀ q ∈ ps, q.invoiceRef = invoice → q.invoiceOriginalAmount = original :=
        fun q hq => hsame q (List.mem_cons_of_mem p hq)
      have hstep : applyStep b (env, s) p = match applyPayment b env s p with
        | (.ok _, s) => some (afterPayment env, s)
        | (.error _, _) => none := rfl
      rw [applyAll]
      rcases happly : applyPayment b env s p with ⟨e | application, s'⟩
      · rw [happly] at hp
        exact hp
      · rw [happly] at hp hstep
        have hrest := ih hsame' hp (htail _ hstep)
        rw [Result.ok_andThen]
        rcases hall : applyAll b (afterPayment env) s' ps with ⟨e | applications, s''⟩
        · rw [hall] at hrest
          exact hrest
        · rw [hall] at hrest
          exact hrest

theorem both_step {s' : Session Store} {c : Call} (hs : s.Both (Inv b invoice original))
    (hmeets : MeetsCall b invoice original s c) (hsame : PassesOriginal invoice original c)
    (h : step b s c = some s') : s'.Both (Inv b invoice original) := by
  cases c with
  | applyPayment env p =>
      obtain rfl := Option.some.inj h
      exact both_applyPayment env hs hmeets hsame
  | applyPaymentAcrossInvoices env today p =>
      obtain rfl := Option.some.inj h
      unfold applyPaymentAcrossInvoices
      cases hallocate : AllocationEngine.allocate b.toArithmetic p.paymentAmount (p.targets today)
          p.method with
      | error e => exact hs
      | ok result =>
          refine both_applyAll (fun q hq hinvoice => ?_) hs (hmeets result hallocate)
          obtain ⟨⟨line, share⟩, hzip, hq⟩ := List.mem_filterMap.mp hq
          have hshare : share ∈ p.invoices := (List.of_mem_zip hzip).2
          dsimp only at hq
          split at hq
          · cases hq
          · obtain rfl := Option.some.inj hq
            exact hsame share hshare hinvoice
  | commit =>
      obtain rfl := Option.some.inj h
      exact hs.commit
  | rollback =>
      obtain rfl := Option.some.inj h
      exact hs.rollback

/-- A document without links. -/
theorem inv_initial {links : LinkTable}
    (hlinks : ∀ l ∈ links, l.parentRef = invoice → l.linkType ∉ applicationTypes)
    (horiginal : b.ctx.round original.amount = original.amount) :
    Inv b invoice original (Store.initial links) := by
  have hpaid : paid (Store.initial links) invoice = 0 := rfl
  have hchildren : getChildren (Store.initial links).rows invoice = [] := by
    unfold getChildren
    rw [List.filter_eq_nil_iff]
    intro r hr
    obtain ⟨l, hl, rfl⟩ := List.mem_map.mp hr
    have hnot := hlinks l hl
    simp only [Bool.and_eq_true, decide_eq_true_eq, List.contains_iff_mem]
    exact fun h => hnot h.1 h.2
  constructor
  · intro m hm
    cases hm
  · exact fun h => absurd rfl h
  · exact ⟨[], by rw [hchildren]; rfl, rfl⟩
  · rw [hpaid, sub_zero]
    exact horiginal

end Invariant

/-- **Payments are not over-applied** in the runs whose payments of an invoice, where they fit,
are in its currency, say what they apply, and are not rounded: in every state what was applied
is within the original amount, and the links say what remains. -/
theorem settled_of_rightly (b : Builtins) (invoice : ArtifactRef) (original : Money)
    (links : LinkTable) (calls : List Call)
    (hlinks : ∀ l ∈ links, l.parentRef = invoice → l.linkType ∉ applicationTypes)
    (hsame : ∀ c ∈ calls, PassesOriginal invoice original c)
    (horiginal : b.ctx.round original.amount = original.amount)
    (hmeets : Along (step b) (MeetsCall b invoice original) (Session.start (Store.initial links))
      calls) :
    Throughout (step b) (fun s => s.Both (Settled b invoice original))
      (Session.start (Store.initial links)) calls := by
  intro pre post s' heq hrun
  have hboth : s'.Both (Inv b invoice original) := by
    have halong : Along (step b) (fun s c => MeetsCall b invoice original s c ∧
        PassesOriginal invoice original c) (Session.start (Store.initial links)) pre := by
      intro before c after s'' hpre hbefore
      refine ⟨hmeets before c (after ++ post) s'' ?_ hbefore, hsame c ?_⟩
      · rw [heq, hpre, List.append_assoc, List.cons_append]
      · rw [heq, hpre]
        simp
    refine Along.run_invariant (fun s c s'' hs hc h => ?_) halong
      (.start (inv_initial hlinks horiginal)) hrun
    exact both_step hs hc.1 hc.2 h
  exact ⟨hboth.committed.settled, hboth.current.settled⟩

/-! ### Two payments of one invoice -/

/-- Amounts of two places, and the one text that the metadata hold. -/
def sampleBuiltins : Builtins where
  ctx := Hashing.defaultContext
  decimalPlaces _ := 2
  decimal
    | .scalar (.str "0") => some 0
    | _ => none
  serializable _ := true

def sampleInvoice : ArtifactRef := ⟨.invoice, ⟨1⟩⟩

def sampleOriginal : Money := ⟨100, "USD"⟩

def sampleEnv (linkId : UUID) : Env := ⟨1000, sampleTime, fun _ => linkId⟩

/-- Sixty of some currency, by some payment. -/
def samplePayment (payment : UUID) (currency : String)
    (metadata : Option (List (String × PyVal))) : Call :=
  .applyPayment (sampleEnv payment)
    { invoiceRef := sampleInvoice
      paymentRef := ⟨.payment, payment⟩
      amount := ⟨60, currency⟩
      invoiceOriginalAmount := sampleOriginal
      creatingEventId := ⟨9⟩
      metadata := metadata }

/-- One payment of sixty leaves forty. -/
theorem settled_samplePayment :
    Throughout (step sampleBuiltins) (fun s => s.Both (Settled sampleBuiltins sampleInvoice
      sampleOriginal)) (Session.start (Store.initial [])) [samplePayment ⟨2⟩ "USD" none] := by
  refine settled_of_rightly sampleBuiltins sampleInvoice sampleOriginal [] _ (fun l hl => by cases hl)
    (fun c hc => ?_) (by decide +kernel) ?_
  · obtain rfl := List.mem_singleton.mp hc
    exact fun _ => rfl
  · refine TransitionSystem.along_cons.mpr ⟨fun _ _ => ⟨rfl, fun v hv => ?_, ?_, ?_⟩, fun _ _ =>
      TransitionSystem.along_nil⟩
    · cases hv
    · decide +kernel
    · decide +kernel

/-- **Two payments of sixty are applied to an invoice of one hundred when the first says that it
applied nothing; and sixty euros are applied to an invoice in dollars.** -/
theorem invoice_over_applied :
    (∃ s, run (step sampleBuiltins) (Session.start (Store.initial []))
        [samplePayment ⟨2⟩ "USD" (some [("amount_applied", .scalar (.str "0"))]),
          samplePayment ⟨3⟩ "USD" none] = some s ∧
        ¬Settled sampleBuiltins sampleInvoice sampleOriginal s.current) ∧
      ∃ s, run (step sampleBuiltins) (Session.start (Store.initial []))
        [samplePayment ⟨2⟩ "EUR" none] = some s ∧
        ¬Settled sampleBuiltins sampleInvoice sampleOriginal s.current := by
  constructor
  · refine ⟨_, rfl, fun h => ?_⟩
    have hbounded := h.bounded (by decide +kernel)
    revert hbounded
    decide +kernel
  · refine ⟨_, rfl, fun h => ?_⟩
    have hcurrency := h.currency
    revert hcurrency
    decide +kernel

end FinanceAccounting.Reconciliation
