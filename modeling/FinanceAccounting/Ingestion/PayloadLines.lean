import FinanceAccounting.Ingestion.IntentLines
import FinanceAccounting.Ingestion.Validators
import FinanceAccounting.Library.Traversals

/-! # Intents from the lines of a payload

`build_accounting_intent_from_payload_lines` turns the lines of an imported journal into one ledger
intent.  A line that is no object or has no account is passed over; an account that does not
resolve, an amount that is not read and a line with both sides positive raise `ValueError`; of the
rest a positive side is posted, and nothing else is.  A comparison with a NaN raises
`InvalidOperation`.

`neverLost_iff`: the lines that carry an amount are all posted, or a `ValueError` is raised, exactly
where the first line that raises anything raises that, or nothing raises and either every line that
carries an amount has an account and no negative side, or no line has a positive side.
`postedInFull_iff`: a journal that the validator accepts is posted in full exactly where every
account resolves, no line has two positive sides, and some amount is not zero. -/

namespace FinanceAccounting.Ingestion

open Journal (LineSide)

/-! ### The builder -/

/-- What the builder is given beside the payload. -/
structure LinesRequest where
  profileName : String
  profileVersion : ℤ
  profileDescription : String
  /-- `uuid4()`. -/
  econEventId : UUID
  sourceEventId : UUID
  effectiveDate : Date
  accountKeyToRole : String → Option String
  currency : String
  description : Option String
  coaVersion : ℤ
  dimensionSchemaVersion : ℤ

variable (b : Builtins)

/-- The role of an account; an empty one counts as none. -/
def LinesRequest.role (r : LinesRequest) (key : String) : Option String :=
  (r.accountKeyToRole key).filter (· ≠ "")

/-- A line of the intent. -/
def intentLine (r : LinesRequest) (role : String) (side : LineSide) (amount : Decimal) :
    Except Raised (Option IntentLine) :=
  (newIntentLine b r.currency role side amount).map some

/-- The error about an amount that is not read; its text shows both amounts. -/
def invalidAmount (key : String) (debit credit : Value) : Raised :=
  match b.write debit, b.write credit with
  | .error e, _ => e
  | .ok _, .error e => e
  | .ok _, .ok _ => .valueError ("Invalid amount for account " ++ b.repr (.str key) ++ " (debit=" ++
      b.repr debit ++ ", credit=" ++ b.repr credit ++ ")")

/-- What a line adds whose amounts are read: its positive side, unless both are. -/
def sidedLine (r : LinesRequest) (key role : String) (d c : Decimal) :
    Except Raised (Option IntentLine) := do
  let debitPositive ← isPositive d
  let creditPositive ← isPositive c
  if debitPositive && creditPositive then
    .error (.valueError ("Line cannot have both debit and credit for account " ++
      b.repr (.str key)))
  else if debitPositive then intentLine b r role .debit d
  else if creditPositive then intentLine b r role .credit c
  else .ok none

/-- What one line adds. -/
def payloadLine (r : LinesRequest) : Value → Except Raised (Option IntentLine)
  | .dict line =>
      let account := Dict.get line "account"
      if blank account then .ok none
      else do
        let text ← b.write account
        let key := strip text
        match r.role key with
        | none =>
            .error (.valueError ("Unresolvable account for import line: " ++ b.repr (.str key)))
        | some role =>
            match lineAmount b (Dict.get line "debit"), lineAmount b (Dict.get line "credit") with
            | some d, some c => sidedLine b r key role d c
            | _, _ =>
                .error (invalidAmount b key (Dict.get line "debit") (Dict.get line "credit"))
  | _ => .ok none

/-- The loop over the lines. -/
def payloadLines (r : LinesRequest) (lines : List Value) : Except Raised (List IntentLine) :=
  (lines.mapM (payloadLine b r)).map fun new => new.filterMap id

/-- `build_accounting_intent_from_payload_lines`. -/
def buildAccountingIntentFromPayloadLines (r : LinesRequest) (payload : Dict) :
    Except Raised AccountingIntent :=
  match payload.get "lines" with
  | .list (line :: lines) => do
      let intentLines ← payloadLines b r (line :: lines)
      match h : intentLines with
      | [] => .error (.valueError "No valid lines with amount in payload.lines")
      | _ :: _ =>
          pure
            { econEventId := r.econEventId
              sourceEventId := r.sourceEventId
              profileId := r.profileName
              profileVersion := r.profileVersion
              effectiveDate := r.effectiveDate
              ledgerIntents := [⟨"GL", intentLines, by rw [h]; exact List.cons_ne_nil _ _⟩]
              ledgerIntents_ne_nil := List.cons_ne_nil _ _
              snapshot := ⟨r.coaVersion, r.dimensionSchemaVersion, 1, 1, none⟩
              description := some ((r.description.filter (· ≠ "")).getD r.profileDescription) }
  | _ => .error (.valueError "payload.lines must be a non-empty list")

/-! ### What a line holds -/

section Lines

/-- A line with an account that resolves and two amounts that are read. -/
structure ReadLine (b : Builtins) (r : LinesRequest) (line : Dict) (text role : String)
    (d c : Decimal) : Prop where
  account : blank (Dict.get line "account") = false
  write : b.write (Dict.get line "account") = .ok text
  role : r.role (strip text) = some role
  debit : lineAmount b (Dict.get line "debit") = some d
  credit : lineAmount b (Dict.get line "credit") = some c

/-- Why a line is refused, and with what. -/
inductive Refused (b : Builtins) (r : LinesRequest) : Value → Raised → Prop
  | account {line e} (haccount : blank (Dict.get line "account") = false)
      (hwrite : b.write (Dict.get line "account") = .error e) : Refused b r (.dict line) e
  | role {line text} (haccount : blank (Dict.get line "account") = false)
      (hwrite : b.write (Dict.get line "account") = .ok text) (hrole : r.role (strip text) = none) :
      Refused b r (.dict line) (.valueError ("Unresolvable account for import line: " ++
        b.repr (.str (strip text))))
  | amount {line text role} (haccount : blank (Dict.get line "account") = false)
      (hwrite : b.write (Dict.get line "account") = .ok text)
      (hrole : r.role (strip text) = some role)
      (hamount : lineAmount b (Dict.get line "debit") = none ∨
        lineAmount b (Dict.get line "credit") = none) :
      Refused b r (.dict line)
        (invalidAmount b (strip text) (Dict.get line "debit") (Dict.get line "credit"))
  | nan {line text role d c} (h : ReadLine b r line text role d c) (hnan : IsNaN d ∨ IsNaN c) :
      Refused b r (.dict line) (.decimalSignal .invalidOperation)
  | both {line text role d c} (h : ReadLine b r line text role d c) (hd : Positive d)
      (hc : Positive c) :
      Refused b r (.dict line) (.valueError ("Line cannot have both debit and credit for account " ++
        b.repr (.str (strip text))))
  | currency {line text role d c} (h : ReadLine b r line text role d c)
      (hone : (Positive d ∧ ¬Positive c ∧ ¬IsNaN c) ∨ (Positive c ∧ ¬Positive d ∧ ¬IsNaN d))
      (hcurrency : b.isCurrency (currencyCode b r.currency) = false) :
      Refused b r (.dict line) (.valueError ("Invalid ISO 4217 currency code: " ++ r.currency))

variable {b : Builtins} {r : LinesRequest} {x : Value} {line : Dict} {text role : String}
variable {d c : Decimal} {lines : List Value}

/-- A line is posted with this amount on this side. -/
def Posted (b : Builtins) (r : LinesRequest) (role : String) (side : LineSide) (amount : Decimal)
    (l : IntentLine) : Prop :=
  l.accountRole = role ∧ l.side = side ∧ l.amount = amount ∧
    l.currency = currencyCode b r.currency

theorem intentLine_cases (b : Builtins) (r : LinesRequest) (role : String) (side : LineSide)
    (hd : Positive d) :
    (b.isCurrency (currencyCode b r.currency) = false ∧
      intentLine b r role side d =
        .error (.valueError ("Invalid ISO 4217 currency code: " ++ r.currency))) ∨
    (b.isCurrency (currencyCode b r.currency) = true ∧
      ∃ l, intentLine b r role side d = .ok (some l) ∧ Posted b r role side d l) := by
  unfold intentLine
  cases hcurrency : b.isCurrency (currencyCode b r.currency) with
  | false =>
      refine .inl ⟨rfl, ?_⟩
      rw [newIntentLine_of_not_isCurrency hcurrency]
      rfl
  | true =>
      obtain ⟨l, hl, hposted⟩ :=
        exists_newIntentLine role side hcurrency (nonNegative_of_positive hd)
      refine .inr ⟨rfl, l, ?_, hposted⟩
      rw [hl]
      rfl

theorem payloadLine_eq (h : ReadLine b r line text role d c) :
    payloadLine b r (.dict line) = sidedLine b r (strip text) role d c := by
  simp only [payloadLine, h.account, h.write, h.role, h.debit, h.credit, Bool.false_eq_true,
    if_false, bind, Except.bind]

/-- What becomes of a line whose account resolves and whose amounts are read. -/
theorem payloadLine_of_read (h : ReadLine b r line text role d c) :
    (∃ e, payloadLine b r (.dict line) = .error e ∧ Refused b r (.dict line) e) ∨
      ¬IsNaN d ∧ ¬IsNaN c ∧
        ((Positive d ∧ ¬Positive c ∧ ∃ l, payloadLine b r (.dict line) = .ok (some l) ∧
            Posted b r role .debit d l) ∨
          (¬Positive d ∧ Positive c ∧ ∃ l, payloadLine b r (.dict line) = .ok (some l) ∧
            Posted b r role .credit c l) ∨
          (¬Positive d ∧ ¬Positive c ∧ payloadLine b r (.dict line) = .ok none)) := by
  rw [payloadLine_eq h]
  unfold sidedLine
  rcases isPositive_cases d with ⟨hd, hrun⟩ | ⟨hd, hnan, hrun⟩ | ⟨hd, hnan, hrun⟩
  · refine .inl ⟨_, ?_, .nan h (.inl hd)⟩
    rw [hrun]
    rfl
  · rcases isPositive_cases c with ⟨hc, hrun'⟩ | ⟨hc, hnan', hrun'⟩ | ⟨hc, hnan', hrun'⟩
    · refine .inl ⟨_, ?_, .nan h (.inr hc)⟩
      rw [hrun, hrun']
      rfl
    · refine .inl ⟨_, ?_, .both h hd hc⟩
      rw [hrun, hrun']
      rfl
    · rw [hrun, hrun']
      rcases intentLine_cases b r role .debit hd with
        ⟨hcurrency, herror⟩ | ⟨-, l, hl, hposted⟩
      · exact .inl ⟨_, herror, .currency h (.inl ⟨hd, hc, hnan'⟩) hcurrency⟩
      · exact .inr ⟨hnan, hnan', .inl ⟨hd, hc, l, hl, hposted⟩⟩
  · rcases isPositive_cases c with ⟨hc, hrun'⟩ | ⟨hc, hnan', hrun'⟩ | ⟨hc, hnan', hrun'⟩
    · refine .inl ⟨_, ?_, .nan h (.inr hc)⟩
      rw [hrun, hrun']
      rfl
    · rw [hrun, hrun']
      rcases intentLine_cases b r role .credit hc with
        ⟨hcurrency, herror⟩ | ⟨-, l, hl, hposted⟩
      · exact .inl ⟨_, herror, .currency h (.inr ⟨hc, hd, hnan⟩) hcurrency⟩
      · exact .inr ⟨hnan, hnan', .inr (.inl ⟨hd, hc, l, hl, hposted⟩)⟩
    · refine .inr ⟨hnan, hnan', .inr (.inr ⟨hd, hc, ?_⟩)⟩
      rw [hrun, hrun']
      rfl

/-- A line with an account that is not refused has a role and two numbers. -/
theorem exists_readLine (haccount : blank (Dict.get line "account") = false)
    (h : ∀ e, ¬Refused b r (.dict line) e) : ∃ text role d c, ReadLine b r line text role d c := by
  cases hwrite : b.write (Dict.get line "account") with
  | error e => exact absurd (.account haccount hwrite) (h e)
  | ok text =>
      cases hrole : r.role (strip text) with
      | none => exact absurd (.role haccount hwrite hrole) (h _)
      | some role =>
          cases hdebit : lineAmount b (Dict.get line "debit") with
          | none => exact absurd (.amount haccount hwrite hrole (.inl hdebit)) (h _)
          | some d =>
              cases hcredit : lineAmount b (Dict.get line "credit") with
              | none => exact absurd (.amount haccount hwrite hrole (.inr hcredit)) (h _)
              | some c => exact ⟨text, role, d, c, haccount, hwrite, hrole, hdebit, hcredit⟩

/-- A refused line raises what it is refused with. -/
theorem payloadLine_of_refused {e : Raised} (h : Refused b r x e) :
    payloadLine b r x = .error e := by
  cases h with
  | account haccount hwrite =>
      simp only [payloadLine, haccount, hwrite, Bool.false_eq_true, if_false, bind, Except.bind]
  | role haccount hwrite hrole =>
      simp only [payloadLine, haccount, hwrite, hrole, Bool.false_eq_true, if_false, bind,
        Except.bind]
  | @amount line text role haccount hwrite hrole hamount =>
      simp only [payloadLine, haccount, hwrite, hrole, Bool.false_eq_true, if_false, bind,
        Except.bind]
      rcases hamount with hdebit | hcredit
      · rw [hdebit]
      · rw [hcredit]
        cases lineAmount b (Dict.get line "debit") with
        | none => rfl
        | some d => rfl
  | @nan line text role d c h hnan =>
      rw [payloadLine_eq h]
      unfold sidedLine
      rcases isPositive_cases d with ⟨-, hrun⟩ | ⟨-, hd, hrun⟩ | ⟨-, hd, hrun⟩
      · rw [hrun]
        rfl
      · rw [hrun, show isPositive c = .error (.decimalSignal .invalidOperation) by
          unfold isPositive
          rw [hnan.resolve_left hd]]
        rfl
      · rw [hrun, show isPositive c = .error (.decimalSignal .invalidOperation) by
          unfold isPositive
          rw [hnan.resolve_left hd]]
        rfl
  | both h hd hc =>
      rw [payloadLine_eq h]
      unfold sidedLine isPositive
      rw [hd, hc]
      rfl
  | @currency line text role d c h hone hcurrency =>
      have herror : ∀ (side : LineSide) {amount : Decimal}, Positive amount →
          intentLine b r role side amount =
            .error (.valueError ("Invalid ISO 4217 currency code: " ++ r.currency)) := by
        intro side amount hamount
        rcases intentLine_cases b r role side hamount with ⟨-, h⟩ | ⟨h, -⟩
        · exact h
        · rw [hcurrency] at h
          cases h
      have hnot : ∀ {amount : Decimal}, ¬Positive amount → ¬IsNaN amount →
          isPositive amount = .ok false := by
        intro amount hpos hnan
        rcases isPositive_cases amount with ⟨h, -⟩ | ⟨h, -, -⟩ | ⟨-, -, h⟩
        · exact absurd h hnan
        · exact absurd h hpos
        · exact h
      have hpos : ∀ {amount : Decimal}, Positive amount → isPositive amount = .ok true := by
        intro amount h
        unfold isPositive
        rw [h]
      rw [payloadLine_eq h]
      unfold sidedLine
      rcases hone with ⟨hd, hc, hnan⟩ | ⟨hc, hd, hnan⟩
      · rw [hpos hd, hnot hc hnan]
        exact herror .debit hd
      · rw [hnot hd hnan, hpos hc]
        exact herror .credit hc

/-- A line raises nothing unless it is refused. -/
theorem exists_payloadLine (h : ∀ e, ¬Refused b r x e) : ∃ o, payloadLine b r x = .ok o := by
  cases hrun : payloadLine b r x with
  | ok o => exact ⟨o, rfl⟩
  | error e =>
      exfalso
      cases x with
      | dict line =>
          cases haccount : blank (Dict.get line "account") with
          | true =>
              simp only [payloadLine, haccount, if_true] at hrun
              cases hrun
          | false =>
              obtain ⟨text, role, d, c, hread⟩ := exists_readLine haccount h
              rcases payloadLine_of_read hread with ⟨e', -, hrefused⟩ |
                ⟨-, -, ⟨-, -, l, hl, -⟩ | ⟨-, -, l, hl, -⟩ | ⟨-, -, hl⟩⟩
              · exact h e' hrefused
              · rw [hl] at hrun
                cases hrun
              · rw [hl] at hrun
                cases hrun
              · rw [hl] at hrun
                cases hrun
      | _ => cases hrun

/-! ### Posting in full -/

/-- A side without an amount, or with zero. -/
def isZeroSide (b : Builtins) (side : Value) : Bool :=
  (lineAmount b side).any fun d => d.numEq zeroAmount

/-- A line carries an amount unless both of its sides are zero. -/
def carries (b : Builtins) : Value → Bool
  | .dict line =>
      !(isZeroSide b (Dict.get line "debit") && isZeroSide b (Dict.get line "credit"))
  | _ => false

/-- An intent line with the role of the account of a payload line, and the side and the amount of
its one amount. -/
def StandsFor (b : Builtins) (r : LinesRequest) (x : Value) (l : IntentLine) : Prop :=
  ∃ line text role d c, x = .dict line ∧ ReadLine b r line text role d c ∧
    ((IsZero c ∧ ¬IsZero d ∧ Posted b r role .debit d l) ∨
      (IsZero d ∧ ¬IsZero c ∧ Posted b r role .credit c l))

/-- In every ledger, the intent lines stand for the payload lines that carry an amount, one for
each and in their order. -/
def InFull (b : Builtins) (r : LinesRequest) (lines : List Value) (intent : AccountingIntent) :
    Prop :=
  ∀ ledger ∈ intent.ledgerIntents,
    List.Forall₂ (StandsFor b r) (lines.filter (carries b)) ledger.lines

/-- An account, and no negative side. -/
def Kept (b : Builtins) : Value → Prop
  | .dict line => blank (Dict.get line "account") = false ∧
      (∀ d ∈ lineAmount b (Dict.get line "debit"), ¬Negative d) ∧
      ∀ c ∈ lineAmount b (Dict.get line "credit"), ¬Negative c
  | _ => False

/-- An account, and a positive side. -/
def HasPositive (b : Builtins) : Value → Prop
  | .dict line => blank (Dict.get line "account") = false ∧
      ((∃ d ∈ lineAmount b (Dict.get line "debit"), Positive d) ∨
        ∃ c ∈ lineAmount b (Dict.get line "credit"), Positive c)
  | _ => False

theorem isZeroSide_iff {side : Value} (h : lineAmount b side = some d) :
    isZeroSide b side = true ↔ IsZero d := by
  unfold isZeroSide
  rw [h]
  exact Iff.rfl

/-- A line that carries nothing adds nothing. -/
theorem payloadLine_of_not_carries {o : Option IntentLine} (hrun : payloadLine b r x = .ok o)
    (h : carries b x = false) : o = none := by
  cases x with
  | dict line =>
      cases haccount : blank (Dict.get line "account") with
      | true =>
          simp only [payloadLine, haccount, if_true] at hrun
          exact (Except.ok.inj hrun).symm
      | false =>
          have hnot : ∀ e, ¬Refused b r (.dict line) e := by
            intro e he
            rw [payloadLine_of_refused he] at hrun
            cases hrun
          obtain ⟨text, role, d, c, hread⟩ := exists_readLine haccount hnot
          simp only [carries, Bool.not_eq_false', Bool.and_eq_true, isZeroSide_iff hread.debit,
            isZeroSide_iff hread.credit] at h
          rcases payloadLine_of_read hread with ⟨e, -, he⟩ |
            ⟨-, -, ⟨hd, -⟩ | ⟨-, hc, -⟩ | ⟨-, -, hl⟩⟩
          · exact absurd he (hnot e)
          · exact absurd h.1 hd.not_isZero
          · exact absurd h.2 hc.not_isZero
          · rw [hl] at hrun
            exact (Except.ok.inj hrun).symm
  | _ => exact (Except.ok.inj hrun).symm

/-- A line that carries an amount and has an account and no negative side is posted. -/
theorem payloadLine_of_kept {o : Option IntentLine} (hrun : payloadLine b r x = .ok o)
    (hcarries : carries b x = true) (hkept : Kept b x) : ∃ l, o = some l ∧ StandsFor b r x l := by
  cases x with
  | dict line =>
      have hnot : ∀ e, ¬Refused b r (.dict line) e := by
        intro e he
        rw [payloadLine_of_refused he] at hrun
        cases hrun
      obtain ⟨haccount, hdebit, hcredit⟩ := hkept
      obtain ⟨text, role, d, c, hread⟩ := exists_readLine haccount hnot
      have hd := hdebit d hread.debit
      have hc := hcredit c hread.credit
      rcases payloadLine_of_read hread with ⟨e, -, he⟩ |
        ⟨hdnan, hcnan, ⟨hdpos, hcpos, l, hl, hposted⟩ | ⟨hdpos, hcpos, l, hl, hposted⟩ |
          ⟨hdpos, hcpos, -⟩⟩
      · exact absurd he (hnot e)
      · rw [hl] at hrun
        exact ⟨l, (Except.ok.inj hrun).symm, line, text, role, d, c, rfl, hread,
          .inl ⟨isZero_of_not hcnan hcpos hc, hdpos.not_isZero, hposted⟩⟩
      · rw [hl] at hrun
        exact ⟨l, (Except.ok.inj hrun).symm, line, text, role, d, c, rfl, hread,
          .inr ⟨isZero_of_not hdnan hdpos hd, hcpos.not_isZero, hposted⟩⟩
      · rw [carries, (isZeroSide_iff hread.debit).2 (isZero_of_not hdnan hdpos hd),
          (isZeroSide_iff hread.credit).2 (isZero_of_not hcnan hcpos hc)] at hcarries
        cases hcarries
  | _ => exact hkept.elim

/-- What an intent line stands for has an account and no negative side. -/
theorem kept_of_standsFor {l : IntentLine} (h : StandsFor b r x l) : Kept b x := by
  obtain ⟨line, text, role, d, c, rfl, hread, hside⟩ := h
  refine ⟨hread.account, fun d' hd' => ?_, fun c' hc' => ?_⟩
  · obtain rfl : d = d' := Option.some.inj (hread.debit.symm.trans hd')
    rcases hside with ⟨-, -, -, -, rfl, -⟩ | ⟨hd, -⟩
    · exact not_negative_of_nonNegative l.amount_nonneg
    · exact hd.not_negative
  · obtain rfl : c = c' := Option.some.inj (hread.credit.symm.trans hc')
    rcases hside with ⟨hc, -⟩ | ⟨-, -, -, -, rfl, -⟩
    · exact hc.not_negative
    · exact not_negative_of_nonNegative l.amount_nonneg

/-- A line that adds an intent line has a positive side, and conversely. -/
theorem hasPositive_iff {o : Option IntentLine} (hrun : payloadLine b r x = .ok o) :
    HasPositive b x ↔ o.isSome = true := by
  cases x with
  | dict line =>
      have hnot : ∀ e, ¬Refused b r (.dict line) e := by
        intro e he
        rw [payloadLine_of_refused he] at hrun
        cases hrun
      cases haccount : blank (Dict.get line "account") with
      | true =>
          simp only [payloadLine, haccount, if_true] at hrun
          obtain rfl := Except.ok.inj hrun
          refine iff_of_false (fun h => ?_) (fun h => (nomatch h))
          rw [HasPositive, haccount] at h
          cases h.1
      | false =>
          obtain ⟨text, role, d, c, hread⟩ := exists_readLine haccount hnot
          have hiff : HasPositive b (.dict line) ↔ Positive d ∨ Positive c := by
            unfold HasPositive
            simp [haccount, hread.debit, hread.credit]
          rw [hiff]
          rcases payloadLine_of_read hread with ⟨e, -, he⟩ |
            ⟨-, -, ⟨hd, -, l, hl, -⟩ | ⟨-, hc, l, hl, -⟩ | ⟨hd, hc, hl⟩⟩
          · exact absurd he (hnot e)
          · obtain rfl := Except.ok.inj (hl.symm.trans hrun)
            exact iff_of_true (.inl hd) rfl
          · obtain rfl := Except.ok.inj (hl.symm.trans hrun)
            exact iff_of_true (.inr hc) rfl
          · obtain rfl := Except.ok.inj (hl.symm.trans hrun)
            exact iff_of_false (fun h => h.elim hd hc) (fun h => (nomatch h))
  | _ =>
      obtain rfl := Except.ok.inj hrun
      exact iff_of_false id (fun h => (nomatch h))

/-! ### Loss -/

/-- The lines of a payload, where it has a list of them. -/
def linesOf (payload : Dict) : List Value :=
  match payload.get "lines" with
  | .list lines => lines
  | _ => []

/-- Either a `ValueError` is raised, or the lines that carry an amount are posted in full. -/
def NeverLost (b : Builtins) (r : LinesRequest) (payload : Dict) : Prop :=
  (∃ message, buildAccountingIntentFromPayloadLines b r payload = .error (.valueError message)) ∨
    ∃ intent, buildAccountingIntentFromPayloadLines b r payload = .ok intent ∧
      InFull b r (linesOf payload) intent

/-- The first line that is refused is refused with a `ValueError`. -/
def FirstRefused (b : Builtins) (r : LinesRequest) (lines : List Value) : Prop :=
  ∃ before x after message, lines = before ++ x :: after ∧
    Refused b r x (.valueError message) ∧ ∀ y ∈ before, ∀ e, ¬Refused b r y e

/-- No line is refused. -/
def NoneRefused (b : Builtins) (r : LinesRequest) (lines : List Value) : Prop :=
  ∀ x ∈ lines, ∀ e, ¬Refused b r x e

/-- The intent lines of lines that all raise nothing stand for those that carry an amount. -/
theorem forall₂_standsFor {outs : List (Option IntentLine)}
    (hrun : List.Forall₂ (fun x o => payloadLine b r x = .ok o) lines outs)
    (h : ∀ x ∈ lines, carries b x = true → Kept b x) :
    List.Forall₂ (StandsFor b r) (lines.filter (carries b)) (outs.filterMap id) := by
  induction hrun with
  | nil => exact .nil
  | @cons x o lines outs hx _ ih =>
      have hrest := ih fun y hy => h y (List.mem_cons_of_mem x hy)
      cases hcarries : carries b x with
      | false =>
          obtain rfl := payloadLine_of_not_carries hx hcarries
          rw [List.filter_cons_of_neg (by simp [hcarries]), List.filterMap_cons_none rfl]
          exact hrest
      | true =>
          obtain ⟨l, rfl, hl⟩ := payloadLine_of_kept hx hcarries (h x List.mem_cons_self hcarries)
          rw [List.filter_cons_of_pos hcarries]
          exact .cons hl hrest

/-- What the loop does with lines of which none is refused. -/
theorem payloadLines_of_noneRefused (h : NoneRefused b r lines) :
    ∃ intentLines, payloadLines b r lines = .ok intentLines ∧
      (intentLines = [] ↔ ∀ x ∈ lines, ¬HasPositive b x) ∧
      (List.Forall₂ (StandsFor b r) (lines.filter (carries b)) intentLines ↔
        ∀ x ∈ lines, carries b x = true → Kept b x) := by
  obtain ⟨outs, houts⟩ := Traversals.exists_mapM fun x hx => exists_payloadLine (h x hx)
  have hrun := Traversals.mapM_eq_ok_iff.1 houts
  refine ⟨outs.filterMap id, by rw [payloadLines, houts]; rfl, ?_, ?_, forall₂_standsFor hrun⟩
  · have hempty : outs.filterMap id = [] ↔ ∀ o ∈ outs, o.isSome = false := by
      rw [List.filterMap_eq_nil_iff]
      simp
    obtain ⟨hleft, hright⟩ := Traversals.mem_of_forall₂ hrun
    rw [hempty]
    constructor
    · intro hnone x hx hpos
      obtain ⟨o, ho, hxo⟩ := hleft x hx
      have hsome := (hasPositive_iff hxo).1 hpos
      rw [hnone o ho] at hsome
      cases hsome
    · intro hnone o ho
      obtain ⟨x, hx, hxo⟩ := hright o ho
      exact Bool.eq_false_iff.2 fun hsome => hnone x hx ((hasPositive_iff hxo).2 hsome)
  · intro hforall x hx hcarries
    obtain ⟨l, -, hl⟩ := (Traversals.mem_of_forall₂ hforall).1 x
      (List.mem_filter.2 ⟨hx, hcarries⟩)
    exact kept_of_standsFor hl

/-- The loop raises what the first refused line raises. -/
theorem payloadLines_eq_error_iff {e : Raised} :
    payloadLines b r lines = .error e ↔ ∃ before x after, lines = before ++ x :: after ∧
      Refused b r x e ∧ ∀ y ∈ before, ∀ e', ¬Refused b r y e' := by
  have hmap : payloadLines b r lines = .error e ↔ lines.mapM (payloadLine b r) = .error e := by
    unfold payloadLines
    cases lines.mapM (payloadLine b r) with
    | error e' =>
        exact ⟨fun h => congrArg _ (Except.error.inj h), fun h => congrArg _ (Except.error.inj h)⟩
    | ok outs => exact iff_of_false (fun h => (nomatch h)) fun h => (nomatch h)
  have hok : ∀ y, (∃ o, payloadLine b r y = .ok o) ↔ ∀ e', ¬Refused b r y e' := by
    intro y
    constructor
    · rintro ⟨o, ho⟩ e' he'
      rw [payloadLine_of_refused he'] at ho
      cases ho
    · exact exists_payloadLine
  have herror : ∀ y, payloadLine b r y = .error e ↔ Refused b r y e := by
    intro y
    refine ⟨fun hy => ?_, payloadLine_of_refused⟩
    by_contra hnot
    have hall : ∀ e', ¬Refused b r y e' := by
      intro e' he'
      rw [payloadLine_of_refused he'] at hy
      obtain rfl := Except.error.inj hy
      exact hnot he'
    obtain ⟨o, ho⟩ := exists_payloadLine hall
    rw [ho] at hy
    cases hy
  rw [hmap, Traversals.mapM_eq_error_iff]
  simp only [hok, herror]

theorem noneRefused_of_ok {intentLines : List IntentLine}
    (h : payloadLines b r lines = .ok intentLines) : NoneRefused b r lines := by
  intro x hx e he
  obtain ⟨outs, houts, -⟩ := Traversals.map_eq_ok.1 h
  obtain ⟨o, -, ho⟩ := (Traversals.mem_of_mapM houts).1 x hx
  rw [payloadLine_of_refused he] at ho
  cases ho

/-- The builder over the lines of a payload. -/
theorem build_of_lines {payload : Dict} (hlines : linesOf payload = lines) (hne : lines ≠ []) :
    (∀ e, payloadLines b r lines = .error e →
        buildAccountingIntentFromPayloadLines b r payload = .error e) ∧
      (payloadLines b r lines = .ok [] → ∃ message,
        buildAccountingIntentFromPayloadLines b r payload = .error (.valueError message)) ∧
      ∀ intentLines, intentLines ≠ [] → payloadLines b r lines = .ok intentLines →
        ∃ intent, buildAccountingIntentFromPayloadLines b r payload = .ok intent ∧
          intent.ledgerIntents.map LedgerIntent.lines = [intentLines] := by
  obtain ⟨x, rest, rfl⟩ := List.exists_cons_of_ne_nil hne
  have hget : payload.get "lines" = .list (x :: rest) := by
    unfold linesOf at hlines
    split at hlines
    · rename_i ls hls
      rw [hls, hlines]
    · cases hlines
  unfold buildAccountingIntentFromPayloadLines
  rw [hget]
  dsimp only
  refine ⟨fun e he => ?_, fun hempty => ?_, fun intentLines hne' hrun => ?_⟩
  · rw [he]
    rfl
  · rw [hempty]
    exact ⟨_, rfl⟩
  · obtain ⟨l, ls, rfl⟩ := List.exists_cons_of_ne_nil hne'
    rw [hrun]
    exact ⟨_, rfl, rfl⟩

/-- **Payload lines are never lost** exactly where the first refused line is refused with a
`ValueError`, or none is refused and every line that carries an amount has an account and no
negative side, unless nothing at all is posted. -/
theorem neverLost_iff (b : Builtins) (r : LinesRequest) (payload : Dict) :
    NeverLost b r payload ↔ FirstRefused b r (linesOf payload) ∨
      NoneRefused b r (linesOf payload) ∧
        ((∀ x ∈ linesOf payload, carries b x = true → Kept b x) ∨
          ∀ x ∈ linesOf payload, ¬HasPositive b x) := by
  by_cases hne : linesOf payload = []
  · refine iff_of_true (.inl ?_) (.inr ⟨?_, .inl ?_⟩)
    · unfold buildAccountingIntentFromPayloadLines
      split
      · rename_i x rest hget
        unfold linesOf at hne
        rw [hget] at hne
        cases hne
      · exact ⟨_, rfl⟩
    · rw [hne]
      exact fun x hx => absurd hx List.not_mem_nil
    · rw [hne]
      exact fun x hx => absurd hx List.not_mem_nil
  obtain ⟨herror, hempty, hfull⟩ := build_of_lines (b := b) (r := r) rfl hne
  by_cases hnone : NoneRefused b r (linesOf payload)
  · have hfirst : ¬FirstRefused b r (linesOf payload) := by
      rintro ⟨before, x, after, message, hsplit, hx, -⟩
      exact hnone x (by rw [hsplit]; simp) _ hx
    obtain ⟨intentLines, hrun, hnil, hforall⟩ := payloadLines_of_noneRefused hnone
    rw [or_iff_right hfirst, and_iff_right hnone]
    by_cases hposts : intentLines = []
    · rw [hposts] at hrun
      exact iff_of_true (.inl (hempty hrun)) (.inr (hnil.1 hposts))
    · obtain ⟨intent, hbuild, hledgers⟩ := hfull intentLines hposts hrun
      rw [or_iff_left fun h => hposts (hnil.2 h), ← hforall]
      unfold NeverLost InFull
      rw [hbuild]
      constructor
      · rintro (⟨message, h⟩ | ⟨intent', h, hin⟩)
        · cases h
        · obtain rfl := Except.ok.inj h
          obtain ⟨ledger, hledger, hlines⟩ := List.mem_map.1
            (show intentLines ∈ intent.ledgerIntents.map LedgerIntent.lines by simp [hledgers])
          rw [← hlines]
          exact hin ledger hledger
      · intro h
        refine .inr ⟨intent, rfl, fun ledger hledger => ?_⟩
        have hmem := List.mem_map_of_mem (f := LedgerIntent.lines) hledger
        rw [hledgers, List.mem_singleton] at hmem
        rw [hmem]
        exact h
  · rw [or_iff_left fun h => hnone h.1]
    cases hrun : payloadLines b r (linesOf payload) with
    | ok intentLines => exact absurd (noneRefused_of_ok hrun) hnone
    | error e =>
        have hbuild := herror e hrun
        unfold NeverLost
        rw [hbuild]
        constructor
        · rintro (⟨message, h⟩ | ⟨intent, h, -⟩)
          · obtain rfl := Except.error.inj h
            obtain ⟨before, x, after, hsplit, hx, hbefore⟩ := payloadLines_eq_error_iff.1 hrun
            exact ⟨before, x, after, message, hsplit, hx, hbefore⟩
          · cases h
        · rintro ⟨before, x, after, message, hsplit, hx, hbefore⟩
          have h := payloadLines_eq_error_iff.2 ⟨before, x, after, hsplit, hx, hbefore⟩
          rw [hrun] at h
          exact .inl ⟨message, congrArg _ (Except.error.inj h)⟩

/-! ### Accepted journals -/

/-- A line that the validator finds nothing wrong with. -/
structure SoundLine (b : Builtins) (line : Dict) (d c : Decimal) : Prop where
  account : blank (Dict.get line "account") = false
  debit : lineAmount b (Dict.get line "debit") = some d
  credit : lineAmount b (Dict.get line "credit") = some c
  debit_ge : d.less zeroAmount = .ok false
  credit_ge : c.less zeroAmount = .ok false

/-- Without an error the amounts of a line are numbers that are not negative. -/
theorem sound_of_addLine {totals t : LineTotals} {i : ℕ} {debit credit : Value}
    (h : addLine b totals i debit credit = .ok t) (ht : t.errors = []) :
    totals.errors = [] ∧ ∃ d c, lineAmount b debit = some d ∧ lineAmount b credit = some c ∧
      d.less zeroAmount = .ok false ∧ c.less zeroAmount = .ok false := by
  -- every error is appended, and the list of them is empty at the end
  have hadd : ∀ {numeric : LineTotals → LineTotals} {t₀ : LineTotals} {d c : Decimal},
      (∀ u, (numeric u).errors ≠ []) → addLine.addAmounts numeric t₀ d c = .ok t →
        t₀.errors = [] := by
    intro numeric t₀ d c hnumeric hrun
    unfold addLine.addAmounts at hrun
    split at hrun
    · obtain rfl := Except.ok.inj hrun
      exact absurd ht (hnumeric _)
    · cases hrun
    · split at hrun
      · obtain rfl := Except.ok.inj hrun
        exact absurd ht (hnumeric _)
      · cases hrun
      · obtain rfl := Except.ok.inj hrun
        exact ht
  unfold addLine at h
  dsimp only at h
  split at h
  · rename_i d c hd hc
    split at h
    · obtain rfl := Except.ok.inj h
      simp at ht
    · obtain rfl := Except.ok.inj h
      simp at ht
    · have herrors := hadd (fun u => by simp) h
      simp [addLine.negative] at herrors
    · have herrors := hadd (fun u => by simp) h
      simp [addLine.negative] at herrors
    · rename_i hdebit hcredit
      exact ⟨hadd (fun u => by simp) h, d, c, hd, hc, hdebit, hcredit⟩
  · obtain rfl := Except.ok.inj h
    simp at ht

theorem sound_of_validateLine {totals t : LineTotals} {i : ℕ}
    (h : validateLine b totals i x = .ok t) (ht : t.errors = []) :
    totals.errors = [] ∧ ∃ line d c, x = .dict line ∧ SoundLine b line d c := by
  cases x with
  | dict line =>
      unfold validateLine at h
      obtain ⟨herrors, d, c, hd, hc, hdebit, hcredit⟩ := sound_of_addLine h ht
      cases haccount : blank (Dict.get line "account") with
      | true => simp [haccount] at herrors
      | false =>
          refine ⟨?_, line, d, c, rfl, haccount, hd, hc, hdebit, hcredit⟩
          simpa [haccount] using herrors
  | _ =>
      obtain rfl := Except.ok.inj h
      simp at ht

theorem sound_of_validateLines {totals t : LineTotals} {i : ℕ}
    (h : validateLines b totals i lines = .ok t) (ht : t.errors = []) :
    totals.errors = [] ∧ ∀ x ∈ lines, ∃ line d c, x = .dict line ∧ SoundLine b line d c := by
  induction lines generalizing totals i with
  | nil =>
      obtain rfl := Except.ok.inj h
      exact ⟨ht, fun x hx => absurd hx List.not_mem_nil⟩
  | cons x lines ih =>
      unfold validateLines at h
      split at h
      · cases h
      · rename_i next hnext
        obtain ⟨hmid, hrest⟩ := ih h
        obtain ⟨hstart, hx⟩ := sound_of_validateLine hnext hmid
        exact ⟨hstart, List.forall_mem_cons.2 ⟨hx, hrest⟩⟩

/-- The lines of an accepted journal. -/
theorem sound_of_accepted {payload : Dict} (h : validateJournalEntry b payload = .ok []) :
    linesOf payload ≠ [] ∧
      ∀ x ∈ linesOf payload, ∃ line d c, x = .dict line ∧ SoundLine b line d c := by
  unfold validateJournalEntry at h
  split at h
  · cases h
  · rename_i lines hne hget
    have hlines : linesOf payload = lines := by
      unfold linesOf
      rw [hget]
    rw [hlines]
    obtain ⟨totals, htotals, herrors⟩ := Traversals.map_eq_ok.1 h
    have hempty : totals.errors = [] := by
      split at herrors
      · cases herrors
      · exact herrors
    exact ⟨hne, (sound_of_validateLines htotals hempty).2⟩
  · cases h

/-- The account of a line has a role. -/
def Resolves (b : Builtins) (r : LinesRequest) : Value → Prop
  | .dict line => ∃ text role, b.write (Dict.get line "account") = .ok text ∧
      r.role (strip text) = some role
  | _ => False

/-- Both sides of a line are positive. -/
def BothPositive (b : Builtins) : Value → Prop
  | .dict line => (∃ d ∈ lineAmount b (Dict.get line "debit"), Positive d) ∧
      ∃ c ∈ lineAmount b (Dict.get line "credit"), Positive c
  | _ => False

/-- An intent is returned in which the lines are in full. -/
def PostedInFull (b : Builtins) (r : LinesRequest) (payload : Dict) : Prop :=
  ∃ intent, buildAccountingIntentFromPayloadLines b r payload = .ok intent ∧
    InFull b r (linesOf payload) intent

theorem SoundLine.not_isNaN (h : SoundLine b line d c) : ¬IsNaN d ∧ ¬IsNaN c := by
  have hnumber : ∀ {amount : Decimal}, amount.less zeroAmount = .ok false → ¬IsNaN amount := by
    intro amount hge hnan
    cases amount with
    | finite sign coeff exp => cases hnan
    | infinity sign => cases hnan
    | nan sign signaling payload => cases hge
  exact ⟨hnumber h.debit_ge, hnumber h.credit_ge⟩

theorem SoundLine.not_negative (h : SoundLine b line d c) : ¬Negative d ∧ ¬Negative c := by
  have hge : ∀ {amount : Decimal}, amount.less zeroAmount = .ok false → ¬Negative amount := by
    intro amount hge hneg
    unfold Negative at hneg
    rw [hge] at hneg
    cases hneg
  exact ⟨hge h.debit_ge, hge h.credit_ge⟩

theorem SoundLine.kept (h : SoundLine b line d c) : Kept b (.dict line) := by
  refine ⟨h.account, fun d' hd' => ?_, fun c' hc' => ?_⟩
  · obtain rfl := Option.some.inj (h.debit.symm.trans hd')
    exact h.not_negative.1
  · obtain rfl := Option.some.inj (h.credit.symm.trans hc')
    exact h.not_negative.2

/-- A sound line that carries an amount has a positive side. -/
theorem SoundLine.positive (h : SoundLine b line d c) (hcarries : carries b (.dict line) = true) :
    Positive d ∨ Positive c := by
  by_contra hnot
  obtain ⟨hd, hc⟩ := not_or.1 hnot
  rw [carries, (isZeroSide_iff h.debit).2 (isZero_of_not h.not_isNaN.1 hd h.not_negative.1),
    (isZeroSide_iff h.credit).2 (isZero_of_not h.not_isNaN.2 hc h.not_negative.2)] at hcarries
  cases hcarries

/-- Nothing refuses a sound line whose account resolves and whose sides are not both positive,
where the currency is one. -/
theorem SoundLine.not_refused (h : SoundLine b line d c) (hresolves : Resolves b r (.dict line))
    (hboth : ¬BothPositive b (.dict line))
    (hcurrency : b.isCurrency (currencyCode b r.currency) = true) (e : Raised) :
    ¬Refused b r (.dict line) e := by
  obtain ⟨text, role, hwrite, hrole⟩ := hresolves
  intro he
  cases he with
  | account _ hwrite' =>
      rw [hwrite] at hwrite'
      cases hwrite'
  | role _ hwrite' hrole' =>
      obtain rfl := Except.ok.inj (hwrite.symm.trans hwrite')
      rw [hrole] at hrole'
      cases hrole'
  | amount _ _ _ hamount =>
      rw [h.debit, h.credit] at hamount
      rcases hamount with hamount | hamount
      · cases hamount
      · cases hamount
  | nan hread hnan =>
      obtain rfl := Option.some.inj (h.debit.symm.trans hread.debit)
      obtain rfl := Option.some.inj (h.credit.symm.trans hread.credit)
      exact hnan.elim h.not_isNaN.1 h.not_isNaN.2
  | both hread hd hc => exact hboth ⟨⟨_, hread.debit, hd⟩, _, hread.credit, hc⟩
  | currency _ _ hcurrency' =>
      rw [hcurrency] at hcurrency'
      cases hcurrency'

/-- **An accepted journal is posted in full** exactly where every account has a role, no line has
two positive sides, some amount is not zero and the currency is one. -/
theorem postedInFull_iff {payload : Dict} (h : validateJournalEntry b payload = .ok []) :
    PostedInFull b r payload ↔
      (∀ x ∈ linesOf payload, Resolves b r x ∧ ¬BothPositive b x) ∧
        (∃ x ∈ linesOf payload, carries b x = true) ∧
        b.isCurrency (currencyCode b r.currency) = true := by
  obtain ⟨hne, hsound⟩ := sound_of_accepted h
  obtain ⟨herror, hempty, hfull⟩ := build_of_lines (b := b) (r := r) rfl hne
  have hkept : ∀ x ∈ linesOf payload, carries b x = true → Kept b x := by
    intro x hx _
    obtain ⟨line, d, c, rfl, hline⟩ := hsound x hx
    exact hline.kept
  constructor
  · rintro ⟨intent, hbuild, hin⟩
    cases hrun : payloadLines b r (linesOf payload) with
    | error e =>
        rw [herror e hrun] at hbuild
        cases hbuild
    | ok intentLines =>
        have hnone := noneRefused_of_ok hrun
        have hposts : intentLines ≠ [] := by
          rintro rfl
          obtain ⟨message, hmessage⟩ := hempty hrun
          rw [hmessage] at hbuild
          cases hbuild
        obtain ⟨intentLines', hrun', hnil, -⟩ := payloadLines_of_noneRefused hnone
        obtain rfl := Except.ok.inj (hrun.symm.trans hrun')
        refine ⟨fun x hx => ?_, ?_⟩
        · obtain ⟨line, d, c, rfl, hline⟩ := hsound x hx
          obtain ⟨text, role, d', c', hread⟩ := exists_readLine hline.account (hnone _ hx)
          refine ⟨⟨text, role, hread.write, hread.role⟩, ?_⟩
          rintro ⟨⟨d₁, hd₁, hdpos⟩, c₁, hc₁, hcpos⟩
          obtain rfl := Option.some.inj (hread.debit.symm.trans hd₁)
          obtain rfl := Option.some.inj (hread.credit.symm.trans hc₁)
          exact hnone _ hx _ (.both hread hdpos hcpos)
        · obtain ⟨x, hx, hpos⟩ : ∃ x ∈ linesOf payload, HasPositive b x := by
            by_contra hnot
            exact hposts (hnil.2 fun x hx hpos => hnot ⟨x, hx, hpos⟩)
          obtain ⟨line, d, c, rfl, hline⟩ := hsound x hx
          obtain ⟨text, role, d', c', hread⟩ := exists_readLine hline.account (hnone _ hx)
          obtain rfl := Option.some.inj (hline.debit.symm.trans hread.debit)
          obtain rfl := Option.some.inj (hline.credit.symm.trans hread.credit)
          have hside : Positive d ∨ Positive c := by
            rcases hpos.2 with ⟨d₁, hd₁, hdpos⟩ | ⟨c₁, hc₁, hcpos⟩
            · obtain rfl := Option.some.inj (hread.debit.symm.trans hd₁)
              exact .inl hdpos
            · obtain rfl := Option.some.inj (hread.credit.symm.trans hc₁)
              exact .inr hcpos
          refine ⟨⟨_, hx, ?_⟩, ?_⟩
          · rw [carries, Bool.not_eq_true', Bool.and_eq_false_iff, ← Bool.not_eq_true,
              ← Bool.not_eq_true, isZeroSide_iff hread.debit, isZeroSide_iff hread.credit]
            exact hside.imp Positive.not_isZero Positive.not_isZero
          · by_contra hcurrency
            have hboth : ¬(Positive d ∧ Positive c) := fun ⟨hd, hc⟩ =>
              hnone _ hx _ (.both hread hd hc)
            refine hnone _ hx _ (.currency hread ?_ (Bool.not_eq_true _ ▸ hcurrency))
            rcases hside with hd | hc
            · exact .inl ⟨hd, fun hc => hboth ⟨hd, hc⟩, hline.not_isNaN.2⟩
            · exact .inr ⟨hc, fun hd => hboth ⟨hd, hc⟩, hline.not_isNaN.1⟩
  · rintro ⟨hlines, ⟨x, hx, hcarries⟩, hcurrency⟩
    have hnone : NoneRefused b r (linesOf payload) := by
      intro y hy e
      obtain ⟨line, d, c, rfl, hline⟩ := hsound y hy
      exact hline.not_refused (hlines _ hy).1 (hlines _ hy).2 hcurrency e
    obtain ⟨intentLines, hrun, hnil, hforall⟩ := payloadLines_of_noneRefused hnone
    have hposts : intentLines ≠ [] := by
      intro hnil'
      obtain ⟨line, d, c, rfl, hline⟩ := hsound x hx
      refine hnil.1 hnil' _ hx ⟨hline.account, ?_⟩
      exact (hline.positive hcarries).imp (fun hd => ⟨d, hline.debit, hd⟩)
        fun hc => ⟨c, hline.credit, hc⟩
    obtain ⟨intent, hbuild, hledgers⟩ := hfull intentLines hposts hrun
    refine ⟨intent, hbuild, fun ledger hledger => ?_⟩
    have hmem := List.mem_map_of_mem (f := LedgerIntent.lines) hledger
    rw [hledgers, List.mem_singleton] at hmem
    rw [hmem]
    exact hforall.2 hkept

end Lines

/-- **Payload lines.**  They are never lost exactly where the first refused line is refused with a
`ValueError`, or none is refused and what carries an amount has an account and no negative side, or
nothing is posted; and a journal that the validator accepts is posted in full exactly where its
accounts have roles, no line has two positive sides, some amount is not zero and the currency is
one. -/
theorem payloadLines_kept_iff (b : Builtins) (r : LinesRequest) (payload : Dict) :
    (NeverLost b r payload ↔ FirstRefused b r (linesOf payload) ∨
      NoneRefused b r (linesOf payload) ∧
        ((∀ x ∈ linesOf payload, carries b x = true → Kept b x) ∨
          ∀ x ∈ linesOf payload, ¬HasPositive b x)) ∧
    (validateJournalEntry b payload = .ok [] →
      (PostedInFull b r payload ↔
        (∀ x ∈ linesOf payload, Resolves b r x ∧ ¬BothPositive b x) ∧
          (∃ x ∈ linesOf payload, carries b x = true) ∧
          b.isCurrency (currencyCode b r.currency) = true)) :=
  ⟨neverLost_iff b r payload, postedInFull_iff⟩

/-- Texts of three amounts, and one currency. -/
def lineBuiltins : Builtins :=
  { plainBuiltins [("100.00", .finite false 10000 (-2)), ("30.00", .finite false 3000 (-2)),
      ("-30.00", .finite true 3000 (-2))] with isCurrency := fun code => code = "USD" }

/-- A request in which every account is its own role. -/
def lineRequest : LinesRequest where
  profileName := "HistoricalJournal"
  profileVersion := 1
  profileDescription := "Imported journal"
  econEventId := ⟨11⟩
  sourceEventId := ⟨12⟩
  effectiveDate := sampleTime.date
  accountKeyToRole := some
  currency := "USD"
  description := none
  coaVersion := 1
  dimensionSchemaVersion := 1

/-- A balanced pair of lines, one more with a negative debit, and one without an account. -/
def lossyPayload : Dict :=
  [("lines", .list
    [.dict [("account", .str "1000"), ("debit", .str "100.00")],
      .dict [("account", .str "4000"), ("credit", .str "100.00")],
      .dict [("account", .str "5000"), ("debit", .str "-30.00")],
      .dict [("debit", .str "30.00")]])]

/-- Two of these four lines are lost. -/
theorem not_neverLost : ¬NeverLost lineBuiltins lineRequest lossyPayload := by
  have hposted : (buildAccountingIntentFromPayloadLines lineBuiltins lineRequest
      lossyPayload).toOption.map (fun intent => intent.ledgerIntents.map (·.lines.length)) =
        some [2] := by decide +kernel
  have hcarried : ((linesOf lossyPayload).filter (carries lineBuiltins)).length = 4 := by
    decide +kernel
  rintro (⟨message, herror⟩ | ⟨intent, hbuild, hin⟩)
  · rw [herror] at hposted
    cases hposted
  · rw [hbuild] at hposted
    have hlengths : intent.ledgerIntents.map (·.lines.length) = [2] := Option.some.inj hposted
    obtain ⟨ledger, hledger, hlength⟩ := List.mem_map.1
      (show 2 ∈ intent.ledgerIntents.map (·.lines.length) by simp [hlengths])
    have heq := (hin ledger hledger).length_eq
    rw [hcarried, hlength] at heq
    cases heq

end FinanceAccounting.Ingestion
