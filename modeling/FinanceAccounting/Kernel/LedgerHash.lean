import FinanceAccounting.Kernel.Hashing
import FinanceAccounting.Kernel.LedgerSelector
import FinanceAccounting.Library.Ranking
import FinanceAccounting.Library.Traversals

/-! # The canonical hash of the ledger

`LedgerSelector.canonical_hash` writes every posted line in scope as JSON, its dimensions as a text
of their own, sorts the lines by account, currency, dimensions and the two sequence numbers, and
hashes them one below the other.  It takes `row.side.value` of a column that comes back as text.
`canonicalHash_faithful_iff` says that the hash tells ledgers apart exactly as it should when the
sides come back as members of `LineSide`, and that there is no hash when one does not. -/

namespace FinanceAccounting.LedgerSelector

open Hashing (PyError PyVal canonicalizeJson toJson toJson_eq_iff)
open Journal (LineSide)
open Ranking (ascending lexKey mem_ascending)
open Traversals (bind_eq_ok map_eq_ok)

/-! ### Ledgers -/

mutual

/-- A value of a JSON column. -/
def IsJson : PyVal → Prop
  | .scalar (.str _) => True
  | .scalar _ => False
  | .list xs => AllJson xs
  | .dict ms => MembersJson ms
  | .object _ => False
  | _ => True

def AllJson : List PyVal → Prop
  | [] => True
  | x :: xs => IsJson x ∧ AllJson xs

def MembersJson : List (String × PyVal) → Prop
  | [] => True
  | (_, v) :: ms => IsJson v ∧ MembersJson ms

end

/-- What the `dimensions` column holds: no map, or a JSON map with distinct keys. -/
def IsJsonMap (dimensions : Option (List (String × PyVal))) : Prop :=
  (PyVal.dict (dimensions.getD [])).DistinctKeys ∧ IsJson (.dict (dimensions.getD []))

/-- A ledger with JSON dimensions, in which the lines of an entry are numbered. -/
structure PostedLedger extends Ledger PyVal where
  json : ∀ row ∈ rows, IsJsonMap row.dimensions
  numbered : ∀ a ∈ rows, ∀ b ∈ rows, a.status = .posted → b.status = .posted →
    a.seq = b.seq → a.lineSeq = b.lineSeq → a.journalLineId = b.journalLineId

/-- The posted lines in scope. -/
def PostedLedger.lines (ledger : PostedLedger) (asOfDate : Option Date)
    (currency : Option String) : List (LedgerRow PyVal) :=
  ledger.rows.filter (inScope asOfDate none currency)

/-! ### The hash -/

/-- The side of a row as the query returns it. -/
inductive LoadedSide where
  | member (side : LineSide)
  | text (s : String)

inductive HashError where
  | json (e : PyError)
  | attributeError (message : String)

def sideValue : LineSide → String
  | .debit => "debit"
  | .credit => "credit"

/-- `row.side.value`. -/
def LoadedSide.value : LoadedSide → Except HashError String
  | .member side => .ok (sideValue side)
  | .text _ => .error (.attributeError "'str' object has no attribute 'value'")

structure CanonicalLine where
  accountId : String
  currency : String
  dimensions : String
  entrySeq : ℕ
  lineSeq : ℤ
  side : String
  amount : String
  isRounding : Bool

/-- `_canonicalize_dimensions`. -/
def canonicalizeDimensions (dimensions : Option (List (String × PyVal))) :
    Except PyError String :=
  match dimensions.getD [] with
  | [] => .ok ""
  | m :: ms => canonicalizeJson (.dict (m :: ms))

def canonicalLine (load : LineSide → LoadedSide) (row : LedgerRow PyVal) :
    Except HashError CanonicalLine := do
  let dimensions ← (canonicalizeDimensions row.dimensions).mapError .json
  let side ← (load row.side).value
  return {
    accountId := row.accountId.str
    currency := row.currency
    dimensions := dimensions
    entrySeq := row.seq
    lineSeq := row.lineSeq
    side := side
    amount := String.ofList row.amount.toChars
    isRounding := row.isRounding }

/-- The order of the lines. -/
def sortKey (line : CanonicalLine) : String ×ₗ String ×ₗ String ×ₗ ℕ ×ₗ ℤ :=
  toLex (line.accountId, toLex (line.currency, toLex (line.dimensions,
    toLex (line.entrySeq, line.lineSeq))))

/-- `_get_canonical_lines`. -/
def getCanonicalLines (load : LineSide → LoadedSide) (ledger : PostedLedger)
    (asOfDate : Option Date) (currency : Option String) : Except HashError (List CanonicalLine) :=
  ((ascending (lexKey (·.seq) (·.lineSeq)) (ledger.lines asOfDate currency)).mapM
    (canonicalLine load)).map (ascending sortKey)

/-- The document of a line, its keys sorted. -/
def CanonicalLine.json (line : CanonicalLine) : Json :=
  .obj [("account_id", .str line.accountId), ("amount", .str line.amount),
    ("currency", .str line.currency), ("dimensions", .str line.dimensions),
    ("entry_seq", .int line.entrySeq), ("is_rounding", .bool line.isRounding),
    ("line_seq", .int line.lineSeq), ("side", .str line.side)]

/-- What `_compute_hash` gives to the hasher. -/
def hashedText (lines : List CanonicalLine) : String :=
  String.ofList (lines.flatMap fun line => line.json.render ++ ['\n'])

def canonicalHash (load : LineSide → LoadedSide) (sha256 : String → String)
    (ledger : PostedLedger) (asOfDate : Option Date) (currency : Option String) :
    Except HashError String :=
  (getCanonicalLines load ledger asOfDate currency).map fun lines => sha256 (hashedText lines)

/-! ### What the hash should tell apart -/

/-- The same line, its dimensions up to the order of their keys; a line without dimensions has none
or an empty map of them. -/
structure Agrees (a b : LedgerRow PyVal) : Prop where
  seq : a.seq = b.seq
  lineSeq : a.lineSeq = b.lineSeq
  accountId : a.accountId = b.accountId
  currency : a.currency = b.currency
  dimensions : PyVal.Agree (.dict (a.dimensions.getD [])) (.dict (b.dimensions.getD []))
  side : a.side = b.side
  amount : a.amount = b.amount
  isRounding : a.isRounding = b.isRounding

def AgreeAsSets (xs ys : List (LedgerRow PyVal)) : Prop :=
  (∀ a ∈ xs, ∃ b ∈ ys, Agrees a b) ∧ ∀ b ∈ ys, ∃ a ∈ xs, Agrees a b

/-- Both ledgers have a hash, one and the same if and only if their lines agree. -/
def HashesFaithfully (load : LineSide → LoadedSide) (sha256 : String → String)
    (a b : PostedLedger) (asOfDate : Option Date) (currency : Option String) : Prop :=
  ∃ x y, canonicalHash load sha256 a asOfDate currency = .ok x ∧
    canonicalHash load sha256 b asOfDate currency = .ok y ∧
      (x = y ↔ AgreeAsSets (a.lines asOfDate currency) (b.lines asOfDate currency))

/-! ### The text of the lines -/

theorem CanonicalLine.json_injective {k l : CanonicalLine} (h : k.json = l.json) : k = l := by
  cases k
  cases l
  simp only [json, Json.obj.injEq, List.cons.injEq, Prod.mk.injEq, Json.str.injEq, Json.int.injEq,
    Json.bool.injEq, Nat.cast_inj, true_and, and_true] at h
  obtain ⟨rfl, rfl, rfl, rfl, rfl, rfl, rfl, rfl⟩ := h
  rfl

/-- The text of a line ends at its line break. -/
theorem hashedText_injective : ∀ {xs ys : List CanonicalLine}, hashedText xs = hashedText ys →
    xs = ys
  | [], [], _ => rfl
  | [], y :: ys, h => by simp [hashedText] at h
  | x :: xs, [], h => by simp [hashedText] at h
  | x :: xs, y :: ys, h => by
      have hchars := String.ofList_injective h
      simp only [List.flatMap_cons, List.append_assoc, List.cons_append, List.nil_append] at hchars
      rw [← Json.renderWith_nil, ← Json.renderWith_nil] at hchars
      obtain ⟨hxy, htail⟩ := Json.renderWith_append_inj _ _ (by simp [Json.Delimited])
        (by simp [Json.Delimited]) hchars
      rw [CanonicalLine.json_injective hxy,
        hashedText_injective (congrArg String.ofList (List.cons.inj htail).2)]

/-! ### The text of dimensions -/

mutual

theorem serializable_of_isJson : ∀ p : PyVal, IsJson p → p.Serializable
  | .none, _ | .bool _, _ | .int _, _ | .scalar (.str _), _ => trivial
  | .list xs, h => serializable_of_allJson xs h
  | .dict ms, h => serializable_of_membersJson ms h

theorem serializable_of_allJson : ∀ xs : List PyVal, AllJson xs → PyVal.SerializableItems xs
  | [], _ => trivial
  | x :: xs, h => ⟨serializable_of_isJson x h.1, serializable_of_allJson xs h.2⟩

theorem serializable_of_membersJson : ∀ ms : List (String × PyVal), MembersJson ms →
    PyVal.SerializableMembers ms
  | [], _ => trivial
  | (_, v) :: ms, h => ⟨serializable_of_isJson v h.1, serializable_of_membersJson ms h.2⟩

end

/-- The text of some dimensions, which have one. -/
def dimensionsText (dimensions : Option (List (String × PyVal))) : String :=
  (canonicalizeDimensions dimensions).toOption.getD ""

section Rows

variable {d e : Option (List (String × PyVal))} {a b : LedgerRow PyVal}
  {load : LineSide → LoadedSide}

theorem canonicalizeDimensions_eq (h : IsJsonMap d) :
    canonicalizeDimensions d = .ok (dimensionsText d) := by
  unfold dimensionsText canonicalizeDimensions
  unfold IsJsonMap at h
  cases hd : d.getD [] with
  | nil => rfl
  | cons m ms =>
      rw [hd] at h
      obtain ⟨j, hj⟩ := (Hashing.isOk_toJson _).mpr (serializable_of_isJson _ h.2)
      simp only [canonicalizeJson, hj, Except.map, Except.toOption, Option.getD_some]

/-- **Dimensions have one text exactly when they agree.** -/
theorem dimensionsText_eq_iff (hd : IsJsonMap d) (he : IsJsonMap e) :
    dimensionsText d = dimensionsText e ↔
      PyVal.Agree (.dict (d.getD [])) (.dict (e.getD [])) := by
  unfold IsJsonMap at hd he
  have hne : ∀ {m : String × PyVal} {ms : List (String × PyVal)} {j : Json},
      toJson (.dict (m :: ms)) = .ok j → String.ofList j.render ≠ "" := by
    intro m ms j hj hempty
    obtain ⟨js, -, rfl⟩ := map_eq_ok.mp hj
    exact nomatch String.ofList_injective (hempty.trans String.ofList_nil.symm)
  unfold dimensionsText canonicalizeDimensions
  cases hm : d.getD [] with
  | nil =>
      cases hn : e.getD [] with
      | nil => simp [PyVal.Agree, PyVal.AgreeMembers]
      | cons n ns =>
          rw [hn] at he
          obtain ⟨k, hk⟩ := (Hashing.isOk_toJson _).mpr (serializable_of_isJson _ he.2)
          simp only [canonicalizeJson, hk, Except.map, Except.toOption, Option.getD_some,
            PyVal.Agree]
          exact iff_of_false (hne hk).symm (by simp)
  | cons m ms =>
      rw [hm] at hd
      obtain ⟨j, hj⟩ := (Hashing.isOk_toJson _).mpr (serializable_of_isJson _ hd.2)
      cases hn : e.getD [] with
      | nil =>
          simp only [canonicalizeJson, hj, Except.map, Except.toOption, Option.getD_some,
            PyVal.Agree]
          exact iff_of_false (hne hj) (by simp)
      | cons n ns =>
          rw [hn] at he
          obtain ⟨k, hk⟩ := (Hashing.isOk_toJson _).mpr (serializable_of_isJson _ he.2)
          simp only [canonicalizeJson, hj, hk, Except.map, Except.toOption, Option.getD_some]
          rw [← toJson_eq_iff _ _ hd.1 he.1 hj hk]
          exact ⟨fun h => Json.render_injective (String.ofList_injective h), fun h => by rw [h]⟩

/-! ### Lines and rows -/

/-- The line of a row whose side comes back as a member. -/
def lineOf (row : LedgerRow PyVal) : CanonicalLine where
  accountId := row.accountId.str
  currency := row.currency
  dimensions := dimensionsText row.dimensions
  entrySeq := row.seq
  lineSeq := row.lineSeq
  side := sideValue row.side
  amount := String.ofList row.amount.toChars
  isRounding := row.isRounding

theorem canonicalLine_eq (h : IsJsonMap a.dimensions)
    (hload : load a.side = .member a.side) : canonicalLine load a = .ok (lineOf a) := by
  unfold canonicalLine
  rw [canonicalizeDimensions_eq h, hload]
  rfl

theorem member_of_canonicalLine {line : CanonicalLine} (h : canonicalLine load a = .ok line) :
    ∃ side, load a.side = .member side := by
  obtain ⟨_, -, h⟩ := bind_eq_ok.mp h
  obtain ⟨_, h, -⟩ := bind_eq_ok.mp h
  cases hload : load a.side with
  | member side => exact ⟨side, rfl⟩
  | text s =>
      rw [hload] at h
      cases h

theorem sideValue_injective {s t : LineSide} (h : sideValue s = sideValue t) : s = t := by
  cases s <;> cases t <;> simp_all [sideValue]

/-- **Rows have one line exactly when they agree.** -/
theorem lineOf_eq_iff (ha : IsJsonMap a.dimensions) (hb : IsJsonMap b.dimensions) :
    lineOf a = lineOf b ↔ Agrees a b := by
  constructor
  · intro h
    simp only [lineOf, CanonicalLine.mk.injEq] at h
    obtain ⟨haccount, hcurrency, hdims, hseq, hlineSeq, hside, hamount, hrounding⟩ := h
    exact ⟨hseq, hlineSeq, UUID.str_injective haccount, hcurrency,
      (dimensionsText_eq_iff ha hb).mp hdims, sideValue_injective hside,
      Decimal.toChars_injective (String.ofList_injective hamount), hrounding⟩
  · intro h
    simp only [lineOf, CanonicalLine.mk.injEq]
    exact ⟨by rw [h.accountId], h.currency, (dimensionsText_eq_iff ha hb).mpr h.dimensions, h.seq,
      h.lineSeq, by rw [h.side], by rw [h.amount], h.isRounding⟩

end Rows

section Ledgers

variable {a b : PostedLedger} {asOfDate : Option Date} {currency : Option String}
  {load : LineSide → LoadedSide} {x y : LedgerRow PyVal}

/-- The lines in scope, each found by its numbers. -/
theorem eq_of_numbered (hx : x ∈ a.lines asOfDate currency) (hy : y ∈ a.lines asOfDate currency)
    (hseq : x.seq = y.seq) (hlineSeq : x.lineSeq = y.lineSeq) : x = y := by
  obtain ⟨hxrow, hxscope⟩ := List.mem_filter.mp hx
  obtain ⟨hyrow, hyscope⟩ := List.mem_filter.mp hy
  simp only [inScope, Bool.and_eq_true, decide_eq_true_eq] at hxscope hyscope
  exact List.inj_on_of_nodup_map a.ids_nodup hxrow hyrow
    (a.numbered x hxrow y hyrow hxscope.1.1.1 hyscope.1.1.1 hseq hlineSeq)

theorem nodup_lines : (a.lines asOfDate currency).Nodup :=
  (List.Nodup.of_map _ a.ids_nodup).filter _

/-- With members for the sides, the lines of the rows are sorted. -/
theorem getCanonicalLines_eq
    (hload : ∀ row ∈ a.lines asOfDate currency, load row.side = .member row.side) :
    getCanonicalLines load a asOfDate currency =
      .ok (ascending sortKey
        ((ascending (lexKey (·.seq) (·.lineSeq)) (a.lines asOfDate currency)).map lineOf)) := by
  unfold getCanonicalLines
  rw [Traversals.mapM_of_forall (g := lineOf) fun row hrow => ?_]
  · rfl
  · have hmem := mem_ascending.mp hrow
    exact canonicalLine_eq (a.json row (List.mem_filter.mp hmem).1) (hload row hmem)

/-- **Sorted lines are equal exactly when the rows agree as sets**, in whatever order they are. -/
theorem ascending_lines_eq_iff :
    ascending sortKey
        ((ascending (lexKey (·.seq) (·.lineSeq)) (a.lines asOfDate currency)).map lineOf) =
      ascending sortKey
        ((ascending (lexKey (·.seq) (·.lineSeq)) (b.lines asOfDate currency)).map lineOf) ↔
      AgreeAsSets (a.lines asOfDate currency) (b.lines asOfDate currency) := by
  have hagree : ∀ {c d : PostedLedger} {x y}, x ∈ c.lines asOfDate currency →
      y ∈ d.lines asOfDate currency → (lineOf x = lineOf y ↔ Agrees x y) := fun {c d x y} hx hy =>
    lineOf_eq_iff (c.json x (List.mem_filter.mp hx).1) (d.json y (List.mem_filter.mp hy).1)
  have hmem : ∀ {c : PostedLedger} {line},
      line ∈ (ascending (lexKey (·.seq) (·.lineSeq)) (c.lines asOfDate currency)).map lineOf ↔
      ∃ row ∈ c.lines asOfDate currency, lineOf row = line := by
    intro c line
    simp only [mem_ascending, List.mem_map]
  have hnodup : ∀ c : PostedLedger,
      ((ascending (lexKey (·.seq) (·.lineSeq)) (c.lines asOfDate currency)).map lineOf).Nodup := by
    refine fun c => List.Nodup.map_on (fun x hx y hy hxy => ?_)
      ((Ranking.perm_ascending _ _).nodup_iff.mpr nodup_lines)
    have h := (hagree (mem_ascending.mp hx) (mem_ascending.mp hy)).mp hxy
    exact eq_of_numbered (mem_ascending.mp hx) (mem_ascending.mp hy) h.seq h.lineSeq
  constructor
  · intro h
    have hperm := ((Ranking.perm_ascending sortKey _).symm.trans (List.Perm.of_eq h)).trans
      (Ranking.perm_ascending sortKey _)
    refine ⟨fun x hx => ?_, fun y hy => ?_⟩
    · obtain ⟨y, hy, hxy⟩ := hmem.mp (hperm.mem_iff.mp (hmem.mpr ⟨x, hx, rfl⟩))
      exact ⟨y, hy, (hagree hx hy).mp hxy.symm⟩
    · obtain ⟨x, hx, hxy⟩ := hmem.mp (hperm.mem_iff.mpr (hmem.mpr ⟨y, hy, rfl⟩))
      exact ⟨x, hx, (hagree hx hy).mp hxy⟩
  · rintro ⟨hab, hba⟩
    refine Ranking.ascending_congr
      ((List.perm_ext_iff_of_nodup (hnodup a) (hnodup b)).mpr fun line => ?_) fun k hk l hl hkey => ?_
    · rw [hmem, hmem]
      constructor
      · rintro ⟨x, hx, rfl⟩
        obtain ⟨y, hy, hxy⟩ := hab x hx
        exact ⟨y, hy, ((hagree hx hy).mpr hxy).symm⟩
      · rintro ⟨y, hy, rfl⟩
        obtain ⟨x, hx, hxy⟩ := hba y hy
        exact ⟨x, hx, (hagree hx hy).mpr hxy⟩
    · obtain ⟨x, hx, rfl⟩ := List.mem_map.mp hk
      obtain ⟨y, hy, rfl⟩ := List.mem_map.mp hl
      simp only [sortKey, lineOf, EmbeddingLike.apply_eq_iff_eq, Prod.mk.injEq] at hkey
      rw [eq_of_numbered (mem_ascending.mp hx) (mem_ascending.mp hy) hkey.2.2.2.1 hkey.2.2.2.2]

end Ledgers

/-- **R24, the canonical hash**: with a digest that never collides it tells any two ledgers apart
exactly when their lines do not agree as sets, if and only if the side of every line in scope comes
back as a member of `LineSide`; otherwise there is no hash. -/
theorem canonicalHash_faithful_iff (load : LineSide → LoadedSide) (sha256 : String → String)
    (hinj : Function.Injective sha256) (hload : ∀ side m, load side = .member m → m = side)
    (a b : PostedLedger) (asOfDate : Option Date) (currency : Option String) :
    HashesFaithfully load sha256 a b asOfDate currency ↔
      ∀ row, row ∈ a.lines asOfDate currency ∨ row ∈ b.lines asOfDate currency →
        ∃ m, load row.side = .member m := by
  have hmembers : ∀ {c : PostedLedger} {x}, canonicalHash load sha256 c asOfDate currency = .ok x →
      ∀ row ∈ c.lines asOfDate currency, ∃ m, load row.side = .member m := by
    intro c x h row hrow
    obtain ⟨_, h, -⟩ := map_eq_ok.mp h
    obtain ⟨_, h, -⟩ := map_eq_ok.mp h
    obtain ⟨_, -, hline⟩ := (Traversals.mem_of_mapM h).1 row (mem_ascending.mpr hrow)
    exact member_of_canonicalLine hline
  constructor
  · rintro ⟨x, y, hx, hy, -⟩ row (hrow | hrow)
    · exact hmembers hx row hrow
    · exact hmembers hy row hrow
  · intro h
    have hmember : ∀ row, row ∈ a.lines asOfDate currency ∨ row ∈ b.lines asOfDate currency →
        load row.side = .member row.side := by
      intro row hrow
      obtain ⟨m, hm⟩ := h row hrow
      rw [hm, hload _ _ hm]
    have ha := getCanonicalLines_eq fun row hrow => hmember row (.inl hrow)
    have hb := getCanonicalLines_eq fun row hrow => hmember row (.inr hrow)
    refine ⟨_, _, by rw [canonicalHash, ha, Except.map], by rw [canonicalHash, hb, Except.map], ?_⟩
    rw [← ascending_lines_eq_iff]
    exact ⟨fun h => hashedText_injective (hinj h), fun h => by rw [h]⟩

/-- A `String` column returns the text that is stored. -/
def loadText (side : LineSide) : LoadedSide := .text (sideValue side)

/-- A ledger with a line of an entry that is posted or not. -/
def samplePosted (status : Journal.JournalEntryStatus) : PostedLedger where
  rows := [{ sampleRow ⟨1⟩ none with
    dimensions := none
    status := status }]
  ids_nodup := List.nodup_singleton _
  json := by
    simp [IsJsonMap, IsJson, MembersJson, PyVal.DistinctKeys, PyVal.DistinctKeysMembers]
  numbered := by simp

/-- A posted line of twice the amount, which has an empty map. -/
def sampleDouble : PostedLedger where
  rows := [{ sampleRow ⟨1⟩ (some []) with
    dimensions := some []
    amount := .finite false 20000 (-2) }]
  ids_nodup := List.nodup_singleton _
  json := by
    simp [IsJsonMap, IsJson, MembersJson, PyVal.DistinctKeys, PyVal.DistinctKeysMembers]
  numbered := by simp

/-- The scope is empty, or the sides come back as members. -/
theorem canonicalHash_faithful_draft :
    HashesFaithfully loadText Digest.spell (samplePosted .draft) (samplePosted .draft) none none ∧
      HashesFaithfully .member Digest.spell (samplePosted .posted) sampleDouble none none := by
  constructor
  · refine (canonicalHash_faithful_iff loadText Digest.spell Digest.spell_injective
      (fun side m h => by cases h) _ _ none none).mpr fun row hrow => ?_
    have hrow : row ∈ (samplePosted .draft).lines none none := hrow.elim id id
    exact absurd (List.mem_filter.mp hrow).2 (by
      rw [List.mem_singleton.mp (List.mem_filter.mp hrow).1]
      decide)
  · exact (canonicalHash_faithful_iff .member Digest.spell Digest.spell_injective
      (fun side m h => (LoadedSide.member.inj h).symm) _ _ none none).mpr fun row _ => ⟨row.side, rfl⟩

/-- There is no hash of a ledger with a posted line. -/
theorem posted_line_unhashed :
    canonicalHash loadText Digest.spell (samplePosted .posted) none none =
        .error (.attributeError "'str' object has no attribute 'value'") ∧
      ¬HashesFaithfully loadText Digest.spell (samplePosted .posted) (samplePosted .posted)
        none none := by
  have herror : canonicalHash loadText Digest.spell (samplePosted .posted) none none =
      .error (.attributeError "'str' object has no attribute 'value'") := rfl
  refine ⟨herror, fun ⟨x, y, hx, _⟩ => ?_⟩
  rw [herror] at hx
  cases hx

end FinanceAccounting.LedgerSelector
