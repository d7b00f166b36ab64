import FinanceAccounting.Engines.Matching
import FinanceAccounting.Library.Traversals

/-! # What matching respects

A required dimension that differs sets the score to zero, and only the bonus for equal references can
raise it again, so a candidate that differs is not returned unless its reference is equal.  The
percentage that amounts differ by is that of a positive target (`findMatches_respects`).

A match keeps the unmatched amounts under the document ids, so it accounts for every document when
documents with one id have one amount (`createMatch_conserves_iff`). -/

namespace FinanceAccounting.Matching

open Traversals (bind_eq_ok)
open Valuation (Money)

/-! ### Mismatches -/

section Mismatches

variable (tolerance : MatchTolerance) (target candidate : MatchCandidate)

/-- A dimension that the tolerance requires to be the same is not. -/
inductive Mismatch : Prop where
  | vendor (required : tolerance.requireSameVendor = true)
      (differs : target.vendorId ≠ candidate.vendorId)
  | item (required : tolerance.requireSameItem = true) (differs : target.itemId ≠ candidate.itemId)
  | currency (required : tolerance.requireSameCurrency = true) {t c : Money}
      (targetAmount : target.amount = some t) (candidateAmount : candidate.amount = some c)
      (differs : t.currency ≠ c.currency)

/-- Both have the same reference. -/
def SameReference : Prop := target.reference ≠ "" ∧ target.reference = candidate.reference

/-- The note is about the difference of the amounts. -/
def MatchNote.aboutAmounts : MatchNote → Bool
  | .amountDiffers _ => true
  | .amountDiffersPercent _ => true
  | _ => false

/-- The amounts are not beyond the tolerance. -/
def AcceptsAmounts (s : MatchSuggestion) : Prop := ∀ note ∈ s.notes, note.aboutAmounts = false

end Mismatches

section Scores

variable {ctx : Decimal.Context} {tolerance : MatchTolerance} {target candidate : MatchCandidate}
variable {e : Evaluation} {note : MatchNote} {t c : Money}

theorem deduct_nonpos {points : ℚ} (hpoints : 0 ≤ points) (h : e.score ≤ 0) :
    (e.deduct ctx points note).score ≤ 0 :=
  ctx.round_nonpos (by linarith)

theorem checkItem_nonpos (h : e.score ≤ 0) : (checkItem tolerance target candidate e).score ≤ 0 := by
  unfold checkItem
  split
  · exact le_rfl
  · exact h

/-- What the comparison of the amounts can do. -/
theorem checkAmounts_cases (ctx : Decimal.Context) (tolerance : MatchTolerance)
    (target candidate : MatchCandidate) (e : Evaluation) :
    (checkAmounts ctx tolerance target candidate e).1 = e ∨
      (checkAmounts ctx tolerance target candidate e).1 = e.reject .currencyMismatch ∨
      ∃ note, (checkAmounts ctx tolerance target candidate e).1 = e.deduct ctx 30 note := by
  unfold checkAmounts
  cases target.amount with
  | none => exact Or.inl rfl
  | some t =>
      cases candidate.amount with
      | none => exact Or.inl rfl
      | some c =>
          dsimp only
          split
          · split
            · exact Or.inr (Or.inl rfl)
            · split
              · exact Or.inr (Or.inr ⟨_, rfl⟩)
              · exact Or.inl rfl
          · exact Or.inl rfl

theorem checkAmounts_nonpos (h : e.score ≤ 0) :
    (checkAmounts ctx tolerance target candidate e).1.score ≤ 0 := by
  rcases checkAmounts_cases ctx tolerance target candidate e with hsame | hreject | ⟨note, hdeduct⟩
  · rwa [hsame]
  · rw [hreject]
    exact le_rfl
  · rw [hdeduct]
    exact deduct_nonpos (by norm_num) h

/-- What the comparison of the quantities can do. -/
theorem checkQuantities_cases (ctx : Decimal.Context) (tolerance : MatchTolerance)
    (target candidate : MatchCandidate) (e : Evaluation) :
    (checkQuantities ctx tolerance target candidate e).1 = e ∨
      ∃ note, note.aboutAmounts = false ∧
        (checkQuantities ctx tolerance target candidate e).1 = e.deduct ctx 20 note := by
  unfold checkQuantities
  cases target.quantity with
  | none => exact Or.inl rfl
  | some t =>
      cases candidate.quantity with
      | none => exact Or.inl rfl
      | some c =>
          dsimp only
          split
          · refine Or.inr ⟨_, ?_, rfl⟩
            cases tolerance.quantityToleranceType <;> rfl
          · exact Or.inl rfl

theorem checkQuantities_nonpos (h : e.score ≤ 0) :
    (checkQuantities ctx tolerance target candidate e).1.score ≤ 0 := by
  rcases checkQuantities_cases ctx tolerance target candidate e with hsame | ⟨note, -, hdeduct⟩
  · rwa [hsame]
  · rw [hdeduct]
    exact deduct_nonpos (by norm_num) h

theorem checkDates_nonpos (h : e.score ≤ 0) :
    (checkDates ctx tolerance target candidate e).1.score ≤ 0 := by
  unfold checkDates
  split
  · dsimp only
    split
    · exact ctx.round_nonpos (by linarith)
    · exact h
  · exact h

/-- Without equal references there is no bonus. -/
theorem checkReferences_of_not_same (h : ¬SameReference target candidate) :
    checkReferences ctx target candidate e = e := by
  unfold checkReferences
  exact if_neg fun hsame => h ⟨hsame.1, hsame.2.2⟩

/-- **A mismatch leaves no points** before the references are compared. -/
theorem checkAmounts_of_mismatch (h : Mismatch tolerance target candidate) :
    (checkAmounts ctx tolerance target candidate
      (checkItem tolerance target candidate (checkVendor tolerance target candidate {}))).1.score ≤ 0 := by
  cases h with
  | vendor required differs =>
      refine checkAmounts_nonpos (checkItem_nonpos ?_)
      unfold checkVendor
      rw [if_pos ⟨required, differs⟩]
      exact le_rfl
  | item required differs =>
      refine checkAmounts_nonpos ?_
      unfold checkItem
      rw [if_pos ⟨required, differs⟩]
      exact le_rfl
  | currency required targetAmount candidateAmount differs =>
      unfold checkAmounts
      rw [targetAmount, candidateAmount]
      dsimp only
      rw [if_pos required, if_pos differs]
      exact le_rfl

/-- **A candidate that differs scores zero** unless its reference is the same. -/
theorem score_of_mismatch (h : Mismatch tolerance target candidate)
    (href : ¬SameReference target candidate) :
    (evaluateMatch ctx tolerance target candidate).score = 0 := by
  unfold evaluateMatch
  dsimp only
  rw [checkReferences_of_not_same href]
  refine max_eq_left (min_le_of_right_le ?_)
  exact checkDates_nonpos (checkQuantities_nonpos (checkAmounts_of_mismatch h))

theorem candidate_evaluateMatch :
    (evaluateMatch ctx tolerance target candidate).candidate = candidate := rfl

/-- What is returned has points. -/
theorem mem_findMatches {candidates : List MatchCandidate} {s : MatchSuggestion}
    (h : s ∈ findMatches ctx tolerance target candidates) :
    ∃ candidate ∈ candidates, s = evaluateMatch ctx tolerance target candidate ∧ 0 < s.score := by
  obtain ⟨hmem, hscore⟩ := List.mem_filter.mp (Ranking.mem_descending.mp h)
  obtain ⟨candidate, hcandidate, rfl⟩ := List.mem_map.mp hmem
  exact ⟨candidate, hcandidate, rfl, of_decide_eq_true hscore⟩

/-! ### Notes about amounts -/

theorem aboutAmounts_append {notes : List MatchNote} (hnote : note.aboutAmounts = false) :
    (∀ n ∈ notes ++ [note], n.aboutAmounts = false) ↔ ∀ n ∈ notes, n.aboutAmounts = false := by
  constructor
  · exact fun h n hn => h n (List.mem_append_left _ hn)
  · intro h n hn
    rcases List.mem_append.mp hn with hn | hn
    · exact h n hn
    · rw [List.mem_singleton.mp hn]
      exact hnote

theorem notes_checkQuantities :
    (∀ n ∈ (checkQuantities ctx tolerance target candidate e).1.notes, n.aboutAmounts = false) ↔
      ∀ n ∈ e.notes, n.aboutAmounts = false := by
  rcases checkQuantities_cases ctx tolerance target candidate e with hsame | ⟨note, hnote, hdeduct⟩
  · rw [hsame]
  · rw [hdeduct]
    exact aboutAmounts_append hnote

theorem notes_checkDates :
    (∀ n ∈ (checkDates ctx tolerance target candidate e).1.notes, n.aboutAmounts = false) ↔
      ∀ n ∈ e.notes, n.aboutAmounts = false := by
  unfold checkDates
  split
  · dsimp only
    split
    · exact aboutAmounts_append rfl
    · exact Iff.rfl
  · exact Iff.rfl

theorem notes_checkReferences :
    (∀ n ∈ (checkReferences ctx target candidate e).notes, n.aboutAmounts = false) ↔
      ∀ n ∈ e.notes, n.aboutAmounts = false := by
  unfold checkReferences
  split
  · exact aboutAmounts_append rfl
  · exact Iff.rfl

theorem notes_rejected (tolerance : MatchTolerance) (target candidate : MatchCandidate) :
    ∀ n ∈ (checkItem tolerance target candidate
      (checkVendor tolerance target candidate {})).notes, n.aboutAmounts = false := by
  have hvendor : ∀ n ∈ (checkVendor tolerance target candidate {}).notes, n.aboutAmounts = false := by
    unfold checkVendor
    split
    · exact (aboutAmounts_append rfl).mpr fun n hn => absurd hn List.not_mem_nil
    · exact fun n hn => absurd hn List.not_mem_nil
  unfold checkItem
  split
  · exact (aboutAmounts_append rfl).mpr hvendor
  · exact hvendor

/-- **A percentage of a positive target** is accepted up to the tolerance. -/
theorem acceptsAmounts_iff (ctx : Decimal.Context)
    (hrequired : tolerance.requireSameCurrency = true)
    (htype : tolerance.amountToleranceType = .percent) (ht : target.amount = some t)
    (hc : candidate.amount = some c) (hcurrency : t.currency = c.currency) (hpos : 0 < t.amount) :
    AcceptsAmounts (evaluateMatch ctx tolerance target candidate) ↔
      percentOf ctx (ctx.round (t.amount - c.amount)) t.amount ≤ tolerance.amountTolerance := by
  have hrejected := notes_rejected tolerance target candidate
  set rejected := checkItem tolerance target candidate (checkVendor tolerance target candidate {})
    with hdef
  have hnotes : AcceptsAmounts (evaluateMatch ctx tolerance target candidate) ↔
      ∀ n ∈ (checkAmounts ctx tolerance target candidate rejected).1.notes,
        n.aboutAmounts = false := by
    unfold AcceptsAmounts evaluateMatch
    dsimp only
    rw [notes_checkReferences, notes_checkDates, notes_checkQuantities, ← hdef]
  have hbeyond : IsBeyond ctx tolerance.amountToleranceType tolerance.amountTolerance t.amount
      (ctx.round (t.amount - c.amount)) ↔
        tolerance.amountTolerance < percentOf ctx (ctx.round (t.amount - c.amount)) t.amount := by
    rw [htype]
    exact and_iff_right hpos.ne'
  rw [hnotes, ← not_lt, ← hbeyond]
  unfold checkAmounts
  rw [ht, hc]
  dsimp only
  rw [if_pos hrequired, if_neg (not_not.mpr hcurrency)]
  by_cases hlimit : IsBeyond ctx tolerance.amountToleranceType tolerance.amountTolerance t.amount
      (ctx.round (t.amount - c.amount))
  · rw [if_pos hlimit]
    refine ⟨fun h => ?_, fun h => absurd hlimit h⟩
    have hnote := h _ (List.mem_append_right _ (List.mem_singleton_self _))
    rw [htype] at hnote
    exact Bool.noConfusion (show true = false from hnote)
  · rw [if_neg hlimit]
    exact ⟨fun _ => hlimit, fun _ => hrejected⟩

/-- Amounts that are not accepted are not within the tolerance. -/
theorem acceptsAmounts_of_isWithinTolerance
    (h : (evaluateMatch ctx tolerance target candidate).isWithinTolerance = true) :
    AcceptsAmounts (evaluateMatch ctx tolerance target candidate) := by
  have hrejected := notes_rejected tolerance target candidate
  set rejected := checkItem tolerance target candidate (checkVendor tolerance target candidate {})
    with hdef
  set amounts := (checkAmounts ctx tolerance target candidate rejected).1 with hamounts
  have hwithin : amounts.isWithinTolerance = true := by
    have hdates : (checkDates ctx tolerance target candidate
        (checkQuantities ctx tolerance target candidate amounts).1).1.isWithinTolerance =
          (checkQuantities ctx tolerance target candidate amounts).1.isWithinTolerance := by
      unfold checkDates
      cases target.date with
      | none => rfl
      | some t =>
          cases candidate.date with
          | none => rfl
          | some c =>
              dsimp only
              split <;> rfl
    have hreferences : ∀ e : Evaluation,
        (checkReferences ctx target candidate e).isWithinTolerance = e.isWithinTolerance := by
      intro e
      unfold checkReferences
      split <;> rfl
    have hflag : (checkQuantities ctx tolerance target candidate amounts).1.isWithinTolerance = true := by
      rw [← hdates, ← hreferences]
      exact h
    rcases checkQuantities_cases ctx tolerance target candidate amounts with hsame | ⟨note, -, hdeduct⟩
    · rwa [hsame] at hflag
    · rw [hdeduct] at hflag
      exact Bool.noConfusion (show false = true from hflag)
  unfold AcceptsAmounts evaluateMatch
  dsimp only
  rw [notes_checkReferences, notes_checkDates, notes_checkQuantities, ← hdef, ← hamounts]
  rcases checkAmounts_cases ctx tolerance target candidate rejected with hsame | hreject | ⟨note, hdeduct⟩
  · rw [hamounts, hsame]
    exact hrejected
  · rw [hamounts, hreject] at hwithin
    exact Bool.noConfusion (show false = true from hwithin)
  · rw [hamounts, hdeduct] at hwithin
    exact Bool.noConfusion (show false = true from hwithin)

end Scores

/-- **Matching respects what the tolerance requires**: a candidate that differs scores zero and is not
returned, unless its reference is the same, and a percentage of a positive target accepts amounts
that differ by at most that, as the context computes it. -/
theorem findMatches_respects (ctx : Decimal.Context) (tolerance : MatchTolerance)
    (target : MatchCandidate) :
    (∀ candidate, Mismatch tolerance target candidate → ¬SameReference target candidate →
      (evaluateMatch ctx tolerance target candidate).score = 0) ∧
    (∀ candidates, ∀ s ∈ findMatches ctx tolerance target candidates,
      s.candidate ∈ candidates ∧
        (Mismatch tolerance target s.candidate → SameReference target s.candidate)) ∧
    ∀ candidate t c, tolerance.requireSameCurrency = true →
      tolerance.amountToleranceType = .percent → target.amount = some t →
      candidate.amount = some c → t.currency = c.currency → 0 < t.amount →
      (AcceptsAmounts (evaluateMatch ctx tolerance target candidate) ↔
        percentOf ctx (ctx.round (t.amount - c.amount)) t.amount ≤ tolerance.amountTolerance) ∧
      (percentOf ctx (ctx.round (t.amount - c.amount)) t.amount =
          |t.amount - c.amount| / t.amount * 100 →
        (AcceptsAmounts (evaluateMatch ctx tolerance target candidate) ↔
          |t.amount - c.amount| ≤ tolerance.amountTolerance / 100 * |t.amount|)) ∧
      (¬AcceptsAmounts (evaluateMatch ctx tolerance target candidate) →
        (evaluateMatch ctx tolerance target candidate).isWithinTolerance = false) := by
  refine ⟨fun candidate => score_of_mismatch, fun candidates s hs => ?_, ?_⟩
  · obtain ⟨candidate, hcandidate, rfl, hscore⟩ := mem_findMatches hs
    refine ⟨hcandidate, fun hmismatch => ?_⟩
    by_contra hreference
    rw [candidate_evaluateMatch] at hmismatch hreference
    rw [score_of_mismatch hmismatch hreference] at hscore
    exact lt_irrefl 0 hscore
  · intro candidate t c hrequired htype ht hc hcurrency hpos
    have haccepts := acceptsAmounts_iff ctx hrequired htype ht hc hcurrency hpos
    refine ⟨haccepts, fun hexact => ?_, fun hnot => ?_⟩
    · rw [haccepts, hexact, abs_of_pos hpos, div_mul_eq_mul_div, div_le_iff₀ hpos]
      constructor
      · intro h
        linarith
      · intro h
        linarith
    · rw [← Bool.not_eq_true]
      exact fun hwithin => hnot (acceptsAmounts_of_isWithinTolerance hwithin)

/-- A document of a vendor with an amount in dollars. -/
def sampleDocument (documentId vendor reference : String) (amount : ℚ) : MatchCandidate where
  documentType := "INVOICE"
  documentId := .text documentId
  reference := reference
  amount := some ⟨amount, "USD"⟩
  dimensions := [("vendor_id", vendor)]

/-- **A candidate of another vendor is returned** where the tolerance does not require the same vendor,
and with ten points where it does and the references are equal; and a credit note is accepted at any
difference. -/
theorem findMatches_returns_mismatch :
    (findMatches Hashing.defaultContext { requireSameVendor := false }
        (sampleDocument "A" "V1" "" 100) [sampleDocument "B" "V2" "" 100]).map (·.score) = [100] ∧
      (findMatches Hashing.defaultContext {} (sampleDocument "A" "V1" "PO-1" 100)
        [sampleDocument "B" "V2" "PO-1" 100]).map (·.score) = [10] ∧
      (evaluateMatch Hashing.defaultContext
        { amountTolerance := 1, amountToleranceType := .percent } (sampleDocument "A" "V1" "" (-100))
        (sampleDocument "B" "V1" "" 500)).isWithinTolerance = true := by
  refine ⟨?_, ?_, ?_⟩ <;> decide +kernel

/-! ### Matched amounts -/

section Definitions

variable (ctx : Decimal.Context) (documents : List MatchCandidate)

/-- A document with its amount is one of the documents. -/
def HasAmount (doc : MatchCandidate) (amount : Money) : Prop :=
  doc ∈ documents ∧ doc.amount = some amount

/-- What is unmatched of a document. -/
def unmatchedOf (result : MatchResult) (doc : MatchCandidate) : ℚ :=
  ((Dicts.get? result.unmatched doc.documentId).map (·.amount)).getD 0

/-- **The match conserves amounts**: matched and unmatched make up each document's amount, of which no
more is matched, and of any two documents the same is matched. -/
structure Conserved (result : MatchResult) : Prop where
  conserved : ∀ doc amount, HasAmount documents doc amount →
    result.matchedAmount.amount + unmatchedOf result doc = amount.amount
  nonneg : 0 ≤ result.matchedAmount.amount
  le_amount : ∀ doc amount, HasAmount documents doc amount →
    result.matchedAmount.amount ≤ amount.amount
  sides : ∀ doc amount doc' amount', HasAmount documents doc amount →
    HasAmount documents doc' amount' →
      amount.amount - unmatchedOf result doc = amount'.amount - unmatchedOf result doc'

/-- What `create_match` asks for: two documents, and amounts of one currency. -/
structure Matchable : Prop where
  two_le : 2 ≤ documents.length
  some_amount : ∃ doc amount, HasAmount documents doc amount
  one_currency : ∀ doc amount doc' amount', HasAmount documents doc amount →
    HasAmount documents doc' amount' → amount.currency = amount'.currency

/-- Documents with one id have one amount. -/
def OneAmountPerId : Prop :=
  ∀ doc amount doc' amount', HasAmount documents doc amount → HasAmount documents doc' amount' →
    doc.documentId = doc'.documentId → amount.amount = amount'.amount

def NoneNegative : Prop := ∀ doc amount, HasAmount documents doc amount → 0 ≤ amount.amount

/-- What amounts exceed the least one by is computed without rounding. -/
def DifferencesExact : Prop :=
  ∀ doc amount doc' least, HasAmount documents doc amount → HasAmount documents doc' least →
    (∀ other amount', HasAmount documents other amount' → least.amount ≤ amount'.amount) →
      ctx.round (amount.amount - least.amount) = amount.amount - least.amount

/-- The amounts have these places, and no more digits than the context. -/
def DigitsFit (places : ℕ) : Prop :=
  ∀ doc amount, HasAmount documents doc amount →
    Decimal.HasPlaces places amount.amount ∧ |amount.amount| * 10 ^ places < 10 ^ ctx.prec

end Definitions

section Matches

variable {ctx : Decimal.Context} {documents : List MatchCandidate} {matched first : Money}
variable {rest : List Money} {unmatched : List (DocumentId × Money)} {doc : MatchCandidate}
variable {amount : Money}

theorem leastAmount_le (x : ℚ) (rest : List Money) :
    leastAmount x rest ≤ x ∧ ∀ m ∈ rest, leastAmount x rest ≤ m.amount := by
  induction rest generalizing x with
  | nil => exact ⟨le_rfl, fun m hm => absurd hm List.not_mem_nil⟩
  | cons m rest ih =>
      obtain ⟨hle, hall⟩ := ih (min x m.amount)
      refine ⟨hle.trans (min_le_left _ _), fun m' hm' => ?_⟩
      rcases List.mem_cons.mp hm' with rfl | hm'
      · exact hle.trans (min_le_right _ _)
      · exact hall m' hm'

theorem leastAmount_mem (x : ℚ) (rest : List Money) :
    leastAmount x rest = x ∨ ∃ m ∈ rest, leastAmount x rest = m.amount := by
  induction rest generalizing x with
  | nil => exact Or.inl rfl
  | cons m rest ih =>
      have hcons : leastAmount x (m :: rest) = leastAmount (min x m.amount) rest := rfl
      rw [hcons]
      rcases ih (min x m.amount) with heq | ⟨m', hm', heq⟩
      · rcases min_choice x m.amount with hmin | hmin
        · exact Or.inl (heq.trans hmin)
        · exact Or.inr ⟨m, List.mem_cons_self, heq.trans hmin⟩
      · exact Or.inr ⟨m', List.mem_cons_of_mem m hm', heq⟩

/-- What is under an id is the remainder of a document with it. -/
theorem get?_unmatched {id : DocumentId} {m : Money}
    (h : Dicts.get? (documents.foldl (recordUnmatched ctx matched) unmatched) id = some m) :
    Dicts.get? unmatched id = some m ∨ ∃ doc amount, HasAmount documents doc amount ∧
      doc.documentId = id ∧ m.amount = ctx.round (amount.amount - matched.amount) ∧ m.amount ≠ 0 := by
  induction documents generalizing unmatched with
  | nil => exact Or.inl h
  | cons doc documents ih =>
      rcases ih h with hget | ⟨doc', amount, ⟨hmem, hamount⟩, hrest⟩
      · unfold recordUnmatched at hget
        cases hamount : doc.amount with
        | none =>
            rw [hamount] at hget
            exact Or.inl hget
        | some amount =>
            rw [hamount] at hget
            dsimp only at hget
            split at hget
            · exact Or.inl hget
            · rename_i hne
              rw [Dicts.get?_setItem] at hget
              split at hget
              · rename_i hid
                obtain rfl := Option.some.inj hget
                exact Or.inr ⟨doc, amount, ⟨List.mem_cons_self, hamount⟩, hid, rfl, hne⟩
              · exact Or.inl hget
      · exact Or.inr ⟨doc', amount, ⟨List.mem_cons_of_mem doc hmem, hamount⟩, hrest⟩

/-- A document that leaves something has an entry. -/
theorem get?_unmatched_isSome (unmatched : List (DocumentId × Money)) {id : DocumentId}
    (h : (Dicts.get? unmatched id).isSome ∨ ∃ doc amount, HasAmount documents doc amount ∧
      doc.documentId = id ∧ ctx.round (amount.amount - matched.amount) ≠ 0) :
    (Dicts.get? (documents.foldl (recordUnmatched ctx matched) unmatched) id).isSome := by
  induction documents generalizing unmatched with
  | nil =>
      rcases h with h | ⟨doc, amount, ⟨hmem, -⟩, -⟩
      · exact h
      · exact absurd hmem List.not_mem_nil
  | cons doc documents ih =>
      have hkeeps : (Dicts.get? unmatched id).isSome →
          (Dicts.get? (recordUnmatched ctx matched unmatched doc) id).isSome := by
        intro hsome
        unfold recordUnmatched
        cases doc.amount with
        | none => exact hsome
        | some amount =>
            dsimp only
            split
            · exact hsome
            · rw [Dicts.get?_setItem]
              split
              · rfl
              · exact hsome
      rw [List.foldl_cons]
      refine ih _ ?_
      rcases h with hsome | ⟨doc', amount, ⟨hmem, hamount⟩, hid, hne⟩
      · exact Or.inl (hkeeps hsome)
      · rcases List.mem_cons.mp hmem with rfl | hmem
        · left
          unfold recordUnmatched
          rw [hamount]
          dsimp only
          rw [if_neg hne, Dicts.get?_setItem, if_pos hid]
          rfl
        · exact Or.inr ⟨doc', amount, ⟨hmem, hamount⟩, hid, hne⟩

/-- **Where documents with one id have one amount**, what is unmatched of each is its own remainder. -/
theorem unmatchedOf_eq (hids : OneAmountPerId documents) {result : MatchResult}
    (hunmatched : result.unmatched = documents.foldl (recordUnmatched ctx matched) [])
    (hdoc : HasAmount documents doc amount) :
    unmatchedOf result doc = ctx.round (amount.amount - matched.amount) := by
  unfold unmatchedOf
  rw [hunmatched]
  cases hget : Dicts.get? (documents.foldl (recordUnmatched ctx matched) []) doc.documentId with
  | none =>
      by_contra hne
      have hsome := get?_unmatched_isSome []
        (Or.inr ⟨doc, amount, hdoc, rfl, fun hzero => hne hzero.symm⟩)
      rw [hget] at hsome
      exact Bool.noConfusion hsome
  | some m =>
      rcases get?_unmatched hget with hnil | ⟨doc', amount', hdoc', hid, hm, -⟩
      · exact absurd (show none = some m from hnil) (fun h => nomatch h)
      · rw [hids doc amount doc' amount' hdoc hdoc' hid.symm]
        exact hm

/-- The price variance is computed of prices in one currency, so it never raises. -/
theorem calculatePriceVariance_eq_ok (ctx : Decimal.Context) (documents : List MatchCandidate)
    (quantity : Option ℚ) :
    ∃ price, calculatePriceVariance ctx documents quantity = .ok price := by
  unfold calculatePriceVariance
  dsimp only
  split
  · split
    · exact ⟨_, rfl⟩
    · split
      · exact ⟨_, rfl⟩
      · rename_i hcurrency
        split
        · exact ⟨_, rfl⟩
        · unfold Variance.priceVariance
          rw [if_pos (not_not.mp hcurrency)]
          exact ⟨_, rfl⟩
  · exact ⟨_, rfl⟩

theorem mem_amounts : amount ∈ documents.filterMap (·.amount) ↔ ∃ doc, HasAmount documents doc amount :=
  List.mem_filterMap

variable {matchId : UUID} {matchType : MatchType} {asOfDate : Date} {result : MatchResult}

/-- **What a match that is created has**: the least amount, and what is unmatched of each. -/
theorem createMatch_spec (h : createMatch ctx documents matchId matchType asOfDate = .ok result) :
    Matchable documents ∧
      result.unmatched = documents.foldl (recordUnmatched ctx result.matchedAmount) [] ∧
      ∃ doc least, HasAmount documents doc least ∧ result.matchedAmount.amount = least.amount ∧
        ∀ other amount, HasAmount documents other amount → least.amount ≤ amount.amount := by
  unfold createMatch at h
  split at h
  · cases h
  · rename_i htwo
    dsimp only at h
    cases hamounts : documents.filterMap (·.amount) with
    | nil =>
        rw [hamounts] at h
        cases h
    | cons first rest =>
        rw [hamounts] at h
        dsimp only at h
        split at h
        · cases h
        · rename_i hcurrencies
          obtain ⟨price, -, h⟩ := bind_eq_ok.mp h
          obtain rfl := Except.ok.inj h
          have hmem : ∀ {m : Money}, m = first ∨ m ∈ rest ↔ ∃ doc, HasAmount documents doc m := by
            intro m
            rw [← mem_amounts, hamounts, List.mem_cons]
          have hcurrency : ∀ {doc m}, HasAmount documents doc m → m.currency = first.currency := by
            intro doc m hm
            rcases hmem.mpr ⟨doc, hm⟩ with rfl | hrest
            · rfl
            · by_contra hne
              exact hcurrencies (List.any_eq_true.mpr ⟨m, hrest, decide_eq_true hne⟩)
          obtain ⟨hfirst, hall⟩ := leastAmount_le first.amount rest
          have hleast : ∀ other m, HasAmount documents other m →
              leastAmount first.amount rest ≤ m.amount := by
            intro other m hm
            rcases hmem.mpr ⟨other, hm⟩ with rfl | hrest
            · exact hfirst
            · exact hall m hrest
          obtain ⟨doc, hdoc⟩ := hmem.mp (Or.inl rfl)
          refine ⟨⟨not_lt.mp htwo, ⟨doc, first, hdoc⟩, fun _ _ _ _ h h' => ?_⟩, rfl, ?_⟩
          · rw [hcurrency h, hcurrency h']
          · rcases leastAmount_mem first.amount rest with heq | ⟨m, hm, heq⟩
            · exact ⟨doc, first, hdoc, heq, fun other m hm => heq ▸ hleast other m hm⟩
            · obtain ⟨doc', hdoc'⟩ := hmem.mp (Or.inr hm)
              exact ⟨doc', m, hdoc', heq, fun other m' hm' => heq ▸ hleast other m' hm'⟩

/-- A match is created of documents with amounts of one currency. -/
theorem createMatch_eq_ok (h : Matchable documents) :
    ∃ result, createMatch ctx documents matchId matchType asOfDate = .ok result := by
  obtain ⟨price, hprice⟩ := calculatePriceVariance_eq_ok ctx documents
    (documents.filterMap (·.quantity)).min?
  unfold createMatch
  rw [if_neg (not_lt.mpr h.two_le)]
  dsimp only
  cases hamounts : documents.filterMap (·.amount) with
  | nil =>
      obtain ⟨doc, amount, hdoc⟩ := h.some_amount
      have hmem := mem_amounts.mpr ⟨doc, hdoc⟩
      rw [hamounts] at hmem
      exact absurd hmem List.not_mem_nil
  | cons first rest =>
      dsimp only
      have hmem : ∀ {m : Money}, m = first ∨ m ∈ rest → ∃ doc, HasAmount documents doc m := by
        intro m hm
        rw [← mem_amounts, hamounts, List.mem_cons]
        exact hm
      rw [if_neg]
      · exact ⟨_, bind_eq_ok.mpr ⟨price, hprice, rfl⟩⟩
      · intro hany
        obtain ⟨m, hm, hne⟩ := List.any_eq_true.mp hany
        obtain ⟨doc, hdoc⟩ := hmem (Or.inl rfl)
        obtain ⟨doc', hdoc'⟩ := hmem (Or.inr hm)
        exact of_decide_eq_true hne (h.one_currency doc' m doc first hdoc' hdoc)

/-- **A match conserves amounts** when documents with one id have one amount, none is negative, and
the differences are exact. -/
theorem conserved_iff (h : createMatch ctx documents matchId matchType asOfDate = .ok result) :
    Conserved documents result ↔
      OneAmountPerId documents ∧ NoneNegative documents ∧ DifferencesExact ctx documents := by
  obtain ⟨-, hunmatched, doc, least, hleast, hmatched, hle⟩ := createMatch_spec h
  constructor
  · rintro ⟨hconserved, hnonneg, -, -⟩
    have hids : OneAmountPerId documents := by
      intro doc amount doc' amount' hdoc hdoc' hid
      rw [← hconserved doc amount hdoc, ← hconserved doc' amount' hdoc']
      unfold unmatchedOf
      rw [hid]
    refine ⟨hids, fun other amount hother => ?_, fun other amount doc' least' hother hdoc' hle' => ?_⟩
    · rw [hmatched] at hnonneg
      exact hnonneg.trans (hle other amount hother)
    · have heq : least'.amount = result.matchedAmount.amount := by
        rw [hmatched]
        exact le_antisymm (hle' doc least hleast) (hle doc' least' hdoc')
      rw [heq, ← unmatchedOf_eq hids hunmatched hother]
      exact eq_sub_of_add_eq' (hconserved other amount hother)
  · rintro ⟨hids, hnegative, hexact⟩
    have hunmatchedOf : ∀ other amount, HasAmount documents other amount →
        unmatchedOf result other = amount.amount - result.matchedAmount.amount := by
      intro other amount hother
      rw [unmatchedOf_eq hids hunmatched hother, hmatched]
      exact hexact other amount doc least hother hleast hle
    refine ⟨fun other amount hother => ?_, ?_, fun other amount hother => ?_,
      fun other amount other' amount' hother hother' => ?_⟩
    · rw [hunmatchedOf other amount hother, add_sub_cancel]
    · rw [hmatched]
      exact hnegative doc least hleast
    · rw [hmatched]
      exact hle other amount hother
    · rw [hunmatchedOf other amount hother, hunmatchedOf other' amount' hother', sub_sub_cancel,
        sub_sub_cancel]

/-- Where the digits fit and no amount is negative, the differences are exact. -/
theorem differencesExact_of_digits {places : ℕ} (hnegative : NoneNegative documents)
    (hfits : DigitsFit ctx documents places) : DifferencesExact ctx documents := by
  intro doc amount doc' least hdoc hdoc' hle
  obtain ⟨hplaces, hdigits⟩ := hfits doc amount hdoc
  refine ctx.round_of_places (hplaces.sub (hfits doc' least hdoc').1) (lt_of_le_of_lt ?_ hdigits)
  rw [abs_of_nonneg (sub_nonneg.mpr (hle doc amount hdoc)), abs_of_nonneg (hnegative doc amount hdoc)]
  exact mul_le_mul_of_nonneg_right (sub_le_self _ (hnegative doc' least hdoc')) (by positivity)

end Matches

/-- **`create_match` returns a match that conserves amounts** when it is given two documents and
amounts of one currency, documents with one id have one amount, no amount is negative, and the
differences are exact, as they are where the digits fit. -/
theorem createMatch_conserves_iff (ctx : Decimal.Context) (documents : List MatchCandidate)
    (matchId : UUID) (matchType : MatchType) (asOfDate : Date) :
    ((∃ result, createMatch ctx documents matchId matchType asOfDate = .ok result ∧
        Conserved documents result) ↔
      Matchable documents ∧ OneAmountPerId documents ∧ NoneNegative documents ∧
        DifferencesExact ctx documents) ∧
    ∀ places, DigitsFit ctx documents places →
      ((∃ result, createMatch ctx documents matchId matchType asOfDate = .ok result ∧
          Conserved documents result) ↔
        Matchable documents ∧ OneAmountPerId documents ∧ NoneNegative documents) := by
  have hiff : (∃ result, createMatch ctx documents matchId matchType asOfDate = .ok result ∧
        Conserved documents result) ↔
      Matchable documents ∧ OneAmountPerId documents ∧ NoneNegative documents ∧
        DifferencesExact ctx documents := by
    constructor
    · rintro ⟨result, hrun, hconserved⟩
      exact ⟨(createMatch_spec hrun).1, (conserved_iff hrun).mp hconserved⟩
    · rintro ⟨hmatchable, hcondition⟩
      obtain ⟨result, hrun⟩ := createMatch_eq_ok hmatchable
      exact ⟨result, hrun, (conserved_iff hrun).mpr hcondition⟩
  refine ⟨hiff, fun places hfits => hiff.trans ?_⟩
  constructor
  · rintro ⟨hmatchable, hids, hnegative, -⟩
    exact ⟨hmatchable, hids, hnegative⟩
  · rintro ⟨hmatchable, hids, hnegative⟩
    exact ⟨hmatchable, hids, hnegative, differencesExact_of_digits hnegative hfits⟩

/-- **Of two lines of one document only the last is kept**: of 100 and 40, matched with 30, seventy are
unmatched of the first line, but ten are recorded.  And a credit note makes the matched amount
negative. -/
theorem createMatch_loses_line :
    (¬∃ result, createMatch Hashing.defaultContext
        [sampleDocument "A" "V1" "" 100, sampleDocument "A" "V1" "" 40,
          sampleDocument "B" "V1" "" 30] ⟨0⟩ .twoWay sampleTime.date = .ok result ∧
      Conserved [sampleDocument "A" "V1" "" 100, sampleDocument "A" "V1" "" 40,
          sampleDocument "B" "V1" "" 30] result) ∧
    ¬∃ result, createMatch Hashing.defaultContext
        [sampleDocument "A" "V1" "" 100, sampleDocument "B" "V1" "" (-50)] ⟨0⟩ .twoWay
          sampleTime.date = .ok result ∧
      Conserved [sampleDocument "A" "V1" "" 100, sampleDocument "B" "V1" "" (-50)] result := by
  constructor
  · rintro ⟨result, hrun, hconserved⟩
    have hids := ((conserved_iff hrun).mp hconserved).1
    have heq := hids (sampleDocument "A" "V1" "" 100) ⟨100, "USD"⟩ (sampleDocument "A" "V1" "" 40)
      ⟨40, "USD"⟩ ⟨List.mem_cons_self, rfl⟩
      ⟨List.mem_cons_of_mem _ List.mem_cons_self, rfl⟩ rfl
    norm_num at heq
  · rintro ⟨result, hrun, hconserved⟩
    have hnegative := ((conserved_iff hrun).mp hconserved).2.1
    have hle := hnegative (sampleDocument "B" "V1" "" (-50)) ⟨-50, "USD"⟩
      ⟨List.mem_cons_of_mem _ List.mem_cons_self, rfl⟩
    norm_num at hle

end FinanceAccounting.Matching
