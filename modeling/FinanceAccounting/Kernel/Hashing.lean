import Mathlib.Data.List.Sort
import Mathlib.Data.String.Basic
import FinanceAccounting.Library.Decimal
import FinanceAccounting.Library.Json
import FinanceAccounting.Library.Digest
import FinanceAccounting.Kernel.Values

/-! # Canonical payload encoding

`canonicalize_json` is `json.dumps` with sorted keys, no white space and a serializer for the
kinds JSON does not know: Decimals print their normalized text, dates and datetimes their ISO
format, UUIDs their hexadecimal form and bytes their hexadecimal digits, all of them as JSON
strings.  `hash_payload` is the SHA-256 hex digest of that text; the digest function is a
parameter here.

`canonicalizeJson_eq_iff` says exactly which payloads get one encoding: those that agree up to
the order of dictionary keys, where Decimals are compared after `normalize` (by sign and
numerical value once rounded to 28 digits), and where two values of different string-like
kinds agree when they print the same text.

Strings are sequences of Unicode scalar values; a `str` of Python may hold lone surrogates too, which
JSON escapes like the character that a pair of them stands for.  What the interpreter sets a limit to
is in `canonicalizeJsonIn`. -/

namespace FinanceAccounting.Hashing

/-! ### Payloads -/

/-- Values that JSON writes as strings. -/
inductive Scalar where
  | str (s : String)
  | decimal (d : Decimal)
  | datetime (d : Datetime)
  | date (d : Date)
  | uuid (u : UUID)
  | bytes (bs : List UInt8)
deriving DecidableEq, Repr

/-- Python values; `object` is one of a type the serializer does not support. -/
inductive PyVal where
  | none
  | bool (b : Bool)
  | int (i : ℤ)
  | scalar (s : Scalar)
  | list (xs : List PyVal)
  | dict (ms : List (String × PyVal))
  | object (typeName : String)

/-- Exceptions of `json.dumps`. -/
inductive PyError where
  | typeError (message : String)
  | decimalSignal (signal : Decimal.Signal)
deriving DecidableEq, Repr

/-- The default context of Python's `decimal` module. -/
def defaultContext : Decimal.Context where
  prec := 28
  eMin := -999999
  eMax := 999999
  prec_pos := by decide

namespace Scalar

/-- `str(obj.normalize())`. -/
def decimalText (d : Decimal) : Except PyError String :=
  match d.normalize defaultContext with
  | .ok r => .ok (String.ofList r.toChars)
  | .error signal => .error (.decimalSignal signal)

/-- The text of a string-like value; for all but `str` it is what `_json_serializer` returns. -/
def text : Scalar → Except PyError String
  | str s => .ok s
  | decimal d => decimalText d
  | datetime d => .ok (String.ofList d.isoformat)
  | date d => .ok (String.ofList d.isoformat)
  | uuid u => .ok u.str
  | bytes bs => .ok (String.ofList (bs.flatMap fun b => Numeral.padded 16 2 b.toNat))

/-- Same value within a kind, where Decimals count as equal when they normalize to the same
number; same text across kinds. -/
def Same : Scalar → Scalar → Prop
  | str s, str t => s = t
  | decimal a, decimal b =>
      ∃ r₁ r₂, a.normalize defaultContext = .ok r₁ ∧ b.normalize defaultContext = .ok r₂ ∧
        r₁.SameNumber r₂
  | datetime d, datetime e => d = e
  | date d, date e => d = e
  | uuid u, uuid v => u = v
  | bytes bs, bytes cs => bs = cs
  | s, t => ∃ x, s.text = .ok x ∧ t.text = .ok x

end Scalar

namespace PyVal

mutual

/-- The keys of every dictionary are distinct, as in any Python `dict`. -/
def DistinctKeys : PyVal → Prop
  | list xs => DistinctKeysItems xs
  | dict ms => (ms.map Prod.fst).Nodup ∧ DistinctKeysMembers ms
  | _ => True

def DistinctKeysItems : List PyVal → Prop
  | [] => True
  | x :: xs => x.DistinctKeys ∧ DistinctKeysItems xs

def DistinctKeysMembers : List (String × PyVal) → Prop
  | [] => True
  | (_, v) :: ms => v.DistinctKeys ∧ DistinctKeysMembers ms

end

mutual

/-- The same value, up to the order of dictionary keys. -/
def Agree : PyVal → PyVal → Prop
  | none, none => True
  | bool a, bool b => a = b
  | int i, int j => i = j
  | scalar s, scalar t => s.Same t
  | list xs, list ys => AgreeItems xs ys
  | dict ms, dict ns => ms.length = ns.length ∧ AgreeMembers ms ns
  | _, _ => False

def AgreeItems : List PyVal → List PyVal → Prop
  | [], [] => True
  | x :: xs, y :: ys => Agree x y ∧ AgreeItems xs ys
  | _, _ => False

/-- Every key of the first dictionary leads to an agreeing value in the second. -/
def AgreeMembers : List (String × PyVal) → List (String × PyVal) → Prop
  | [], _ => True
  | (k, v) :: ms, ns => (∃ w, (k, w) ∈ ns ∧ Agree v w) ∧ AgreeMembers ms ns

end

mutual

/-- Every value is of a supported type and every Decimal has a normalized form. -/
def Serializable : PyVal → Prop
  | scalar (.decimal d) => ∃ r, d.normalize defaultContext = .ok r
  | list xs => SerializableItems xs
  | dict ms => SerializableMembers ms
  | object _ => False
  | _ => True

def SerializableItems : List PyVal → Prop
  | [] => True
  | x :: xs => x.Serializable ∧ SerializableItems xs

def SerializableMembers : List (String × PyVal) → Prop
  | [] => True
  | (_, v) :: ms => v.Serializable ∧ SerializableMembers ms

end

mutual

/-- Every value is of a supported type and no Decimal is rounded. -/
def Exact : PyVal → Prop
  | scalar (.decimal d) => d.Fits defaultContext
  | list xs => ExactItems xs
  | dict ms => ExactMembers ms
  | object _ => False
  | _ => True

def ExactItems : List PyVal → Prop
  | [] => True
  | x :: xs => x.Exact ∧ ExactItems xs

def ExactMembers : List (String × PyVal) → Prop
  | [] => True
  | (_, v) :: ms => v.Exact ∧ ExactMembers ms

end

end PyVal

/-- A Python value whose dictionaries have distinct keys. -/
structure Payload where
  value : PyVal
  distinctKeys : value.DistinctKeys

/-! ### Encoding -/

/-- Stable sort of dictionary items by key. -/
def sortKeys {β : Type} (ms : List (String × β)) : List (String × β) :=
  ms.insertionSort fun a b => a.1 ≤ b.1

/-- The members of an object, or the first exception among them. -/
def sequenceMembers : List (String × Except PyError Json) → Except PyError (List (String × Json))
  | [] => .ok []
  | (k, r) :: ms => r.bind fun j => (sequenceMembers ms).map ((k, j) :: ·)

mutual

/-- The JSON document of a value. -/
def toJson : PyVal → Except PyError Json
  | .none => .ok .null
  | .bool b => .ok (.bool b)
  | .int i => .ok (.int i)
  | .scalar s => s.text.map .str
  | .list xs => (itemsJson xs).map .arr
  | .dict ms => (sequenceMembers (sortKeys (membersJson ms))).map .obj
  | .object typeName =>
      .error (.typeError ("Object of type " ++ typeName ++ " is not JSON serializable"))

def itemsJson : List PyVal → Except PyError (List Json)
  | [] => .ok []
  | x :: xs => (toJson x).bind fun j => (itemsJson xs).map (j :: ·)

def membersJson : List (String × PyVal) → List (String × Except PyError Json)
  | [] => []
  | (k, v) :: ms => (k, toJson v) :: membersJson ms

end

/-- `canonicalize_json` of a value within the limits of the interpreter. -/
def canonicalizeJson (data : PyVal) : Except PyError String :=
  (toJson data).map fun j => String.ofList j.render

/-- The hex digest `sha256` of the canonical encoding. -/
def hashPayload (sha256 : String → String) (payload : PyVal) : Except PyError String :=
  (canonicalizeJson payload).map sha256

/-- What the interpreter bounds: the digits of an integer whose text is built, and the levels that
`json.dumps` encodes within each other. -/
structure Limits where
  digits : ℕ
  depth : ℕ

mutual

/-- The value is within the limits, with `levels` left: a container takes one, and so does a value
that the serializer converts. -/
def PyVal.within (limits : Limits) (levels : ℕ) : PyVal → Bool
  | .none | .bool _ | .scalar (.str _) => true
  | .int i => Decimal.numDigits i.natAbs ≤ limits.digits
  | .scalar _ | .object _ => 0 < levels
  | .list xs => 0 < levels && withinItems limits (levels - 1) xs
  | .dict ms => 0 < levels && withinMembers limits (levels - 1) ms

def withinItems (limits : Limits) (levels : ℕ) : List PyVal → Bool
  | [] => true
  | x :: xs => x.within limits levels && withinItems limits levels xs

def withinMembers (limits : Limits) (levels : ℕ) : List (String × PyVal) → Bool
  | [] => true
  | (_, v) :: ms => v.within limits levels && withinMembers limits levels ms

end

/-- `canonicalize_json`; `none` where it raises, be it `ValueError`, `RecursionError` or an exception of
the serializer. -/
def canonicalizeJsonIn (limits : Limits) (data : PyVal) : Option String :=
  if data.within limits limits.depth then (canonicalizeJson data).toOption else none

/-- `hash_payload`. -/
def hashPayloadIn (limits : Limits) (sha256 : String → String) (payload : PyVal) : Option String :=
  (canonicalizeJsonIn limits payload).map sha256

/-! ### Texts of string-like values -/

namespace Scalar

theorem decimalText_eq_ok {d : Decimal} {x : String} (h : decimalText d = .ok x) :
    ∃ r, d.normalize defaultContext = .ok r ∧ x = String.ofList r.toChars := by
  unfold decimalText at h
  cases hr : d.normalize defaultContext with
  | error signal =>
      rw [hr] at h
      cases h
  | ok r =>
      rw [hr] at h
      exact ⟨r, rfl, (Except.ok.inj h).symm⟩

/-- Normalized Decimals have one text exactly when they are the same number. -/
theorem decimalText_eq_iff {a b : Decimal} {x y : String} (ha : decimalText a = .ok x)
    (hb : decimalText b = .ok y) : x = y ↔ Same (.decimal a) (.decimal b) := by
  obtain ⟨r₁, h₁, rfl⟩ := decimalText_eq_ok ha
  obtain ⟨r₂, h₂, rfl⟩ := decimalText_eq_ok hb
  constructor
  · intro h
    obtain rfl := Decimal.toChars_injective (String.ofList_injective h)
    exact ⟨r₁, r₁, h₁, h₂, .refl r₁⟩
  · rintro ⟨q₁, q₂, hq₁, hq₂, hsame⟩
    obtain rfl := Except.ok.inj (h₁.symm.trans hq₁)
    obtain rfl := Except.ok.inj (h₂.symm.trans hq₂)
    rw [Decimal.eq_of_sameNumber (Decimal.normalize_isNormal h₁)
      (Decimal.normalize_isNormal h₂) hsame]

theorem bytesText_injective : ∀ {bs cs : List UInt8},
    (bs.flatMap fun b => Numeral.padded 16 2 b.toNat) =
      (cs.flatMap fun b => Numeral.padded 16 2 b.toNat) → bs = cs
  | [], [], _ => rfl
  | [], c :: cs, h => by simp [Numeral.padded] at h
  | b :: bs, [], h => by simp [Numeral.padded] at h
  | b :: bs, c :: cs, h => by
      rw [List.flatMap_cons, List.flatMap_cons] at h
      have hlt : ∀ b : UInt8, b.toNat < 16 ^ 2 := fun b => b.toNat_lt
      obtain ⟨hbc, htail⟩ := Numeral.padded_append_inj (by decide) (by decide) (hlt b) (hlt c) h
      rw [UInt8.toNat_inj.mp hbc, bytesText_injective htail]

theorem ofList_eq_iff {α : Type} {f : α → List Char} (hf : ∀ {a b}, f a = f b → a = b) {a b : α}
    {x y : String} (hx : (.ok (String.ofList (f a)) : Except PyError String) = .ok x)
    (hy : (.ok (String.ofList (f b)) : Except PyError String) = .ok y) : x = y ↔ a = b := by
  obtain rfl := Except.ok.inj hx
  obtain rfl := Except.ok.inj hy
  exact ⟨fun h => hf (String.ofList_injective h), fun h => by rw [h]⟩

theorem eq_iff_exists_text {s t : Scalar} {x y : String} (hs : s.text = .ok x)
    (ht : t.text = .ok y) : x = y ↔ ∃ z, s.text = .ok z ∧ t.text = .ok z := by
  constructor
  · rintro rfl
    exact ⟨x, hs, ht⟩
  · rintro ⟨z, hz, hz'⟩
    rw [hs] at hz
    rw [ht] at hz'
    exact (Except.ok.inj hz).trans (Except.ok.inj hz').symm

/-- **Texts are equal exactly for the same value**, or by coincidence across kinds. -/
theorem text_eq_iff {s t : Scalar} {x y : String} (hs : s.text = .ok x) (ht : t.text = .ok y) :
    x = y ↔ s.Same t := by
  cases s <;> cases t <;> try exact eq_iff_exists_text hs ht
  case str.str =>
    obtain rfl := Except.ok.inj hs
    obtain rfl := Except.ok.inj ht
    rfl
  case decimal.decimal => exact decimalText_eq_iff hs ht
  case datetime.datetime => exact ofList_eq_iff Datetime.isoformat_injective hs ht
  case date.date => exact ofList_eq_iff Date.isoformat_injective hs ht
  case uuid.uuid => exact ofList_eq_iff UUID.toChars_injective hs ht
  case bytes.bytes => exact ofList_eq_iff bytesText_injective hs ht

end Scalar

/-! ### Dictionaries -/

theorem membersJson_eq_map (ms : List (String × PyVal)) :
    membersJson ms = ms.map fun m => (m.1, toJson m.2) := by
  induction ms with
  | nil => rfl
  | cons m ms ih =>
      obtain ⟨k, v⟩ := m
      rw [membersJson, ih]
      rfl

/-- A sequenced list carries the same keys and the values it was sequenced from. -/
theorem sequenceMembers_eq_ok {ms : List (String × Except PyError Json)}
    {js : List (String × Json)} (h : sequenceMembers ms = .ok js) :
    ms = js.map fun m => (m.1, .ok m.2) := by
  induction ms generalizing js with
  | nil =>
      obtain rfl := Except.ok.inj h
      rfl
  | cons m ms ih =>
      obtain ⟨k, r⟩ := m
      cases r with
      | error e => cases h
      | ok j =>
          cases hs : sequenceMembers ms with
          | error e =>
              simp only [sequenceMembers, Except.bind, hs, Except.map] at h
              cases h
          | ok js' =>
              simp only [sequenceMembers, Except.bind, hs, Except.map, Except.ok.injEq] at h
              subst h
              rw [ih hs]
              rfl

/-- The items of an encoded dictionary. -/
structure IsMembers (ms : List (String × PyVal)) (js : List (String × Json)) : Prop where
  sorted : js.Pairwise fun a b => a.1 < b.1
  length : js.length = ms.length
  mem : ∀ k j, (k, j) ∈ js ↔ ∃ v, (k, v) ∈ ms ∧ toJson v = .ok j
  value : ∀ k v, (k, v) ∈ ms → ∃ j, toJson v = .ok j

theorem perm_of_toJson {ms : List (String × PyVal)} {k : Json} (h : toJson (.dict ms) = .ok k) :
    ∃ js, k = .obj js ∧ sortKeys (membersJson ms) = js.map (fun m => (m.1, .ok m.2)) ∧
      (js.map fun m => (m.1, (.ok m.2 : Except PyError Json))).Perm
        (ms.map fun m => (m.1, toJson m.2)) := by
  rw [toJson] at h
  cases hs : sequenceMembers (sortKeys (membersJson ms)) with
  | error e =>
      rw [hs] at h
      cases h
  | ok js =>
      rw [hs] at h
      obtain rfl := Except.ok.inj h
      have hjs := sequenceMembers_eq_ok hs
      refine ⟨js, rfl, hjs, ?_⟩
      rw [← hjs, ← membersJson_eq_map]
      exact List.perm_insertionSort _ _

/-- The members of an encoded dictionary are its items. -/
theorem mem_of_perm {ms : List (String × PyVal)} {js : List (String × Json)}
    (hperm : (js.map fun m => (m.1, (.ok m.2 : Except PyError Json))).Perm
      (ms.map fun m => (m.1, toJson m.2))) (k : String) (j : Json) :
    (k, j) ∈ js ↔ ∃ v, (k, v) ∈ ms ∧ toJson v = .ok j := by
  have hmem := hperm.mem_iff (a := (k, .ok j))
  simp only [List.mem_map, Prod.mk.injEq, Except.ok.injEq, Prod.exists,
    exists_eq_right_right, ↓existsAndEq, true_and, and_true] at hmem
  simpa [eq_comm] using hmem

theorem value_of_perm {ms : List (String × PyVal)} {js : List (String × Json)}
    (hperm : (js.map fun m => (m.1, (.ok m.2 : Except PyError Json))).Perm
      (ms.map fun m => (m.1, toJson m.2))) {k : String} {v : PyVal} (hkv : (k, v) ∈ ms) :
    ∃ j, toJson v = .ok j := by
  have hitem : (k, toJson v) ∈ ms.map fun m => (m.1, toJson m.2) :=
    List.mem_map.mpr ⟨(k, v), hkv, rfl⟩
  obtain ⟨m, -, hm⟩ := List.mem_map.mp (hperm.mem_iff.mpr hitem)
  exact ⟨m.2, (Prod.mk.inj hm).2.symm⟩

theorem isMembers_of_toJson {ms : List (String × PyVal)} {k : Json}
    (hd : (ms.map Prod.fst).Nodup) (h : toJson (.dict ms) = .ok k) :
    ∃ js, k = .obj js ∧ IsMembers ms js := by
  obtain ⟨js, rfl, hjs, hperm⟩ := perm_of_toJson h
  have hkeys : (js.map Prod.fst).Nodup := by
    have hnodup := (hperm.map Prod.fst).nodup_iff.mpr (by simpa [Function.comp_def] using hd)
    simpa [Function.comp_def] using hnodup
  refine ⟨js, rfl, ?_, ?_, mem_of_perm hperm, fun k v => value_of_perm hperm⟩
  · have hle : js.Pairwise fun a b => a.1 ≤ b.1 := by
      have hsorted := List.pairwise_insertionSort
        (fun a b : String × Except PyError Json => a.1 ≤ b.1) (membersJson ms)
      unfold sortKeys at hjs
      rw [hjs, List.pairwise_map] at hsorted
      exact hsorted
    have hne : js.Pairwise fun a b => a.1 ≠ b.1 := List.pairwise_map.mp hkeys
    exact (hle.and hne).imp fun h => lt_of_le_of_ne h.1 h.2
  · simpa using hperm.length_eq

/-- Two encoded dictionaries are equal when every member of the first is one of the second. -/
theorem IsMembers.eq_of_subset {ms ns : List (String × PyVal)} {js ks : List (String × Json)}
    (hj : IsMembers ms js) (hk : IsMembers ns ks) (hlen : ms.length = ns.length)
    (hsub : js ⊆ ks) : js = ks := by
  have hirrefl : Std.Irrefl fun a b : String × Json => a.1 < b.1 := ⟨fun a => lt_irrefl a.1⟩
  have hnodup : js.Nodup := hj.sorted.imp fun h => by
    rintro rfl
    exact lt_irrefl _ h
  have hperm : js.Perm ks := (List.subperm_of_subset hnodup hsub).perm_of_length_le (by
    rw [hj.length, hk.length, hlen])
  refine hperm.eq_of_pairwise ?_ hj.sorted hk.sorted
  intro a b _ _ hab hba
  exact absurd (hab.trans hba) (lt_irrefl _)

/-! ### Payloads with one encoding -/

theorem toJson_list_eq_ok {xs : List PyVal} {k : Json} (h : toJson (.list xs) = .ok k) :
    ∃ js, k = .arr js ∧ itemsJson xs = .ok js := by
  rw [toJson] at h
  cases hs : itemsJson xs with
  | error e =>
      rw [hs] at h
      cases h
  | ok js =>
      rw [hs] at h
      exact ⟨js, (Except.ok.inj h).symm, rfl⟩

theorem itemsJson_cons_eq_ok {x : PyVal} {xs : List PyVal} {ks : List Json}
    (h : itemsJson (x :: xs) = .ok ks) :
    ∃ j js, ks = j :: js ∧ toJson x = .ok j ∧ itemsJson xs = .ok js := by
  rw [itemsJson] at h
  cases hx : toJson x with
  | error e =>
      rw [hx] at h
      cases h
  | ok j =>
      rw [hx] at h
      cases hs : itemsJson xs with
      | error e =>
          simp only [Except.bind, hs, Except.map] at h
          cases h
      | ok js =>
          simp only [Except.bind, hs, Except.map, Except.ok.injEq] at h
          exact ⟨j, js, h.symm, rfl, rfl⟩

theorem toJson_scalar_eq_ok {s : Scalar} {k : Json} (h : toJson (.scalar s) = .ok k) :
    ∃ x, k = .str x ∧ s.text = .ok x := by
  rw [toJson] at h
  cases hs : s.text with
  | error e =>
      rw [hs] at h
      cases h
  | ok x =>
      rw [hs] at h
      exact ⟨x, (Except.ok.inj h).symm, rfl⟩

namespace PyVal

theorem DistinctKeysMembers.of_mem {ms : List (String × PyVal)} (h : DistinctKeysMembers ms)
    {k : String} {v : PyVal} (hv : (k, v) ∈ ms) : v.DistinctKeys := by
  induction ms with
  | nil => cases hv
  | cons m ms ih =>
      obtain ⟨l, w⟩ := m
      rcases List.mem_cons.mp hv with heq | hv
      · obtain ⟨rfl, rfl⟩ := Prod.mk.inj heq
        exact h.1
      · exact ih h.2 hv

theorem agreeMembers_iff {ms ns : List (String × PyVal)} :
    AgreeMembers ms ns ↔ ∀ k v, (k, v) ∈ ms → ∃ w, (k, w) ∈ ns ∧ Agree v w := by
  induction ms with
  | nil => simp [AgreeMembers]
  | cons m ms ih =>
      obtain ⟨l, u⟩ := m
      simp only [AgreeMembers, ih, List.mem_cons, Prod.mk.injEq]
      constructor
      · rintro ⟨hu, hms⟩ k v (⟨rfl, rfl⟩ | hv)
        · exact hu
        · exact hms k v hv
      · intro h
        exact ⟨h l u (Or.inl ⟨rfl, rfl⟩), fun k v hv => h k v (Or.inr hv)⟩

end PyVal

open PyVal in
/-- Dictionaries have one encoding exactly when they agree, if their values do. -/
theorem members_eq_iff {ms ns : List (String × PyVal)} {js ks : List (String × Json)}
    (hj : IsMembers ms js) (hk : IsMembers ns ks)
    (ih : ∀ k v, (k, v) ∈ ms → ∀ w, (k, w) ∈ ns → ∀ i j, toJson v = .ok i → toJson w = .ok j →
      (i = j ↔ Agree v w)) :
    js = ks ↔ ms.length = ns.length ∧ AgreeMembers ms ns := by
  rw [agreeMembers_iff]
  constructor
  · rintro rfl
    refine ⟨hj.length.symm.trans hk.length, fun k v hv => ?_⟩
    obtain ⟨i, hi⟩ := hj.value k v hv
    obtain ⟨w, hw, hwi⟩ := (hk.mem k i).mp ((hj.mem k i).mpr ⟨v, hv, hi⟩)
    exact ⟨w, hw, (ih k v hv w hw i i hi hwi).mp rfl⟩
  · rintro ⟨hlen, hagree⟩
    refine hj.eq_of_subset hk hlen ?_
    rintro ⟨k, i⟩ hmem
    obtain ⟨v, hv, hi⟩ := (hj.mem k i).mp hmem
    obtain ⟨w, hw, hvw⟩ := hagree k v hv
    obtain ⟨j, hj'⟩ := hk.value k w hw
    obtain rfl := (ih k v hv w hw i j hi hj').mpr hvw
    exact (hk.mem k i).mpr ⟨w, hw, hj'⟩

open PyVal

/-- The kind of document a value is encoded as. -/
def PyVal.kind : PyVal → ℕ
  | .none => 0
  | .bool _ => 1
  | .int _ => 2
  | .scalar _ => 3
  | .list _ => 4
  | .dict _ => 5
  | .object _ => 6

theorem kind_of_toJson {p : PyVal} {j : Json} (h : toJson p = .ok j) : j.kind = p.kind := by
  cases p with
  | none | bool _ | int _ =>
      obtain rfl := Except.ok.inj h
      rfl
  | scalar s =>
      obtain ⟨x, rfl, -⟩ := toJson_scalar_eq_ok h
      rfl
  | list xs =>
      obtain ⟨js, rfl, -⟩ := toJson_list_eq_ok h
      rfl
  | dict ms =>
      rw [toJson] at h
      cases hs : sequenceMembers (sortKeys (membersJson ms)) with
      | error e =>
          rw [hs] at h
          cases h
      | ok js =>
          rw [hs] at h
          obtain rfl := Except.ok.inj h
          rfl
  | object n => cases h

theorem kind_of_agree {p q : PyVal} (h : Agree p q) : p.kind = q.kind := by
  cases p <;> cases q <;> first | rfl | exact h.elim

/-- Only values of one kind have to be compared. -/
theorem iff_of_kind {p q : PyVal} {j k : Json} (hp : toJson p = .ok j) (hq : toJson q = .ok k)
    (h : p.kind = q.kind → (j = k ↔ Agree p q)) : j = k ↔ Agree p q := by
  by_cases hk : p.kind = q.kind
  · exact h hk
  · refine ⟨?_, fun h => absurd (kind_of_agree h) hk⟩
    rintro rfl
    exact absurd ((kind_of_toJson hp).symm.trans (kind_of_toJson hq)) hk

mutual

/-- Documents are equal exactly for agreeing values. -/
theorem toJson_eq_iff : ∀ (p q : PyVal) {j k : Json}, p.DistinctKeys → q.DistinctKeys →
    toJson p = .ok j → toJson q = .ok k → (j = k ↔ Agree p q)
  | .none, q, j, k, _, _, hp, hq => by
      refine iff_of_kind hp hq fun hk => ?_
      cases q <;> simp only [PyVal.kind, Nat.reduceEqDiff] at hk
      obtain rfl := Except.ok.inj hp
      obtain rfl := Except.ok.inj hq
      simp [Agree]
  | .bool a, q, j, k, _, _, hp, hq => by
      refine iff_of_kind hp hq fun hk => ?_
      cases q <;> simp only [PyVal.kind, Nat.reduceEqDiff] at hk
      obtain rfl := Except.ok.inj hp
      obtain rfl := Except.ok.inj hq
      simp [Agree]
  | .int a, q, j, k, _, _, hp, hq => by
      refine iff_of_kind hp hq fun hk => ?_
      cases q <;> simp only [PyVal.kind, Nat.reduceEqDiff] at hk
      obtain rfl := Except.ok.inj hp
      obtain rfl := Except.ok.inj hq
      simp [Agree]
  | .scalar s, q, j, k, _, _, hp, hq => by
      refine iff_of_kind hp hq fun hk => ?_
      cases q <;> simp only [PyVal.kind, Nat.reduceEqDiff] at hk
      obtain ⟨x, rfl, hx⟩ := toJson_scalar_eq_ok hp
      obtain ⟨y, rfl, hy⟩ := toJson_scalar_eq_ok hq
      rw [Json.str.injEq, Agree]
      exact Scalar.text_eq_iff hx hy
  | .list xs, q, j, k, hdp, hdq, hp, hq => by
      refine iff_of_kind hp hq fun hk => ?_
      cases q <;> simp only [PyVal.kind, Nat.reduceEqDiff] at hk
      rename_i ys
      obtain ⟨js, rfl, hjs⟩ := toJson_list_eq_ok hp
      obtain ⟨ks, rfl, hks⟩ := toJson_list_eq_ok hq
      rw [Json.arr.injEq, Agree]
      exact itemsJson_eq_iff xs ys hdp hdq hjs hks
  | .dict ms, q, j, k, hdp, hdq, hp, hq => by
      refine iff_of_kind hp hq fun hk => ?_
      cases q <;> simp only [PyVal.kind, Nat.reduceEqDiff] at hk
      rename_i ns
      obtain ⟨js, rfl, hjs⟩ := isMembers_of_toJson hdp.1 hp
      obtain ⟨ks, rfl, hks⟩ := isMembers_of_toJson hdq.1 hq
      rw [Json.obj.injEq, Agree]
      refine members_eq_iff hjs hks fun k v hv w hw i j hi hj => ?_
      exact value_eq_iff ms k v hv hdp.2 w (DistinctKeysMembers.of_mem hdq.2 hw) hi hj
  | .object n, q, j, k, _, _, hp, hq => by cases hp

theorem itemsJson_eq_iff : ∀ (xs ys : List PyVal) {js ks : List Json}, DistinctKeysItems xs →
    DistinctKeysItems ys → itemsJson xs = .ok js → itemsJson ys = .ok ks →
    (js = ks ↔ AgreeItems xs ys)
  | [], [], js, ks, _, _, hx, hy => by
      obtain rfl := Except.ok.inj hx
      obtain rfl := Except.ok.inj hy
      simp [AgreeItems]
  | [], y :: ys, js, ks, _, _, hx, hy => by
      obtain rfl := Except.ok.inj hx
      obtain ⟨k, ks', rfl, -, -⟩ := itemsJson_cons_eq_ok hy
      simp [AgreeItems]
  | x :: xs, [], js, ks, _, _, hx, hy => by
      obtain rfl := Except.ok.inj hy
      obtain ⟨j, js', rfl, -, -⟩ := itemsJson_cons_eq_ok hx
      simp [AgreeItems]
  | x :: xs, y :: ys, js, ks, hdx, hdy, hx, hy => by
      obtain ⟨j, js', rfl, hj, hjs⟩ := itemsJson_cons_eq_ok hx
      obtain ⟨k, ks', rfl, hk, hks⟩ := itemsJson_cons_eq_ok hy
      rw [List.cons.injEq, AgreeItems, toJson_eq_iff x y hdx.1 hdy.1 hj hk,
        itemsJson_eq_iff xs ys hdx.2 hdy.2 hjs hks]

theorem value_eq_iff : ∀ (ms : List (String × PyVal)) (k : String) (v : PyVal), (k, v) ∈ ms →
    DistinctKeysMembers ms → ∀ (w : PyVal) {i j : Json}, w.DistinctKeys → toJson v = .ok i →
      toJson w = .ok j → (i = j ↔ Agree v w)
  | [], k, v, hv, _, w, i, j, _, _, _ => by cases hv
  | (l, u) :: ms, k, v, hv, hd, w, i, j, hw, hi, hj => by
      rcases List.mem_cons.mp hv with heq | hv
      · obtain ⟨rfl, rfl⟩ := Prod.mk.inj heq
        exact toJson_eq_iff v w hd.1 hw hi hj
      · exact value_eq_iff ms k v hv hd.2 w hw hi hj

end

/-! ### Payloads with an encoding -/

theorem isOk_sequenceMembers {ms : List (String × Except PyError Json)} :
    (∃ js, sequenceMembers ms = .ok js) ↔ ∀ m ∈ ms, ∃ j, m.2 = .ok j := by
  constructor
  · rintro ⟨js, hjs⟩ m hm
    rw [sequenceMembers_eq_ok hjs] at hm
    obtain ⟨e, -, rfl⟩ := List.mem_map.mp hm
    exact ⟨e.2, rfl⟩
  · intro h
    induction ms with
    | nil => exact ⟨[], rfl⟩
    | cons m ms ih =>
        obtain ⟨j, hj⟩ := h m List.mem_cons_self
        obtain ⟨js, hjs⟩ := ih fun m hm => h m (List.mem_cons_of_mem _ hm)
        obtain ⟨k, r⟩ := m
        simp only at hj
        exact ⟨(k, j) :: js, by simp only [sequenceMembers, hj, Except.bind, hjs, Except.map]⟩

theorem isOk_map {α β : Type} {f : α → β} {r : Except PyError α} :
    (∃ b, r.map f = .ok b) ↔ ∃ a, r = .ok a := by
  cases r with
  | error e => simp [Except.map]
  | ok a => simp [Except.map]

mutual

theorem isOk_toJson : ∀ p : PyVal, (∃ j, toJson p = .ok j) ↔ p.Serializable
  | .none => iff_of_true ⟨_, rfl⟩ trivial
  | .bool _ => iff_of_true ⟨_, rfl⟩ trivial
  | .int _ => iff_of_true ⟨_, rfl⟩ trivial
  | .scalar s => by
      rw [toJson, isOk_map]
      cases s with
      | decimal d =>
          simp only [Scalar.text, Scalar.decimalText, PyVal.Serializable]
          cases d.normalize defaultContext <;> simp
      | str s => exact iff_of_true ⟨_, rfl⟩ trivial
      | datetime d => exact iff_of_true ⟨_, rfl⟩ trivial
      | date d => exact iff_of_true ⟨_, rfl⟩ trivial
      | uuid u => exact iff_of_true ⟨_, rfl⟩ trivial
      | bytes bs => exact iff_of_true ⟨_, rfl⟩ trivial
  | .list xs => by
      rw [toJson, isOk_map, isOk_itemsJson, PyVal.Serializable]
  | .dict ms => by
      rw [toJson, isOk_map, isOk_sequenceMembers, PyVal.Serializable, ← isOk_membersJson]
      unfold sortKeys
      simp only [List.mem_insertionSort]
  | .object n => by simp [toJson, PyVal.Serializable]

theorem isOk_itemsJson : ∀ xs : List PyVal, (∃ js, itemsJson xs = .ok js) ↔ SerializableItems xs
  | [] => iff_of_true ⟨_, rfl⟩ trivial
  | x :: xs => by
      rw [SerializableItems, ← isOk_toJson x, ← isOk_itemsJson xs]
      constructor
      · rintro ⟨ks, hks⟩
        obtain ⟨j, js, -, hj, hjs⟩ := itemsJson_cons_eq_ok hks
        exact ⟨⟨j, hj⟩, ⟨js, hjs⟩⟩
      · rintro ⟨⟨j, hj⟩, ⟨js, hjs⟩⟩
        exact ⟨j :: js, by simp only [itemsJson, hj, Except.bind, hjs, Except.map]⟩

theorem isOk_membersJson : ∀ ms : List (String × PyVal),
    (∀ m ∈ membersJson ms, ∃ j, m.2 = .ok j) ↔ SerializableMembers ms
  | [] => by simp [membersJson, SerializableMembers]
  | (k, v) :: ms => by
      rw [SerializableMembers, ← isOk_toJson v, ← isOk_membersJson ms, membersJson,
        List.forall_mem_cons]

end

/-- **Payloads have one canonical encoding exactly when both have an encoding and agree.** -/
theorem canonicalizeJson_eq_iff (p q : Payload) :
    (∃ s, canonicalizeJson p.value = .ok s ∧ canonicalizeJson q.value = .ok s) ↔
      p.value.Serializable ∧ q.value.Serializable ∧ Agree p.value q.value := by
  rw [← isOk_toJson, ← isOk_toJson]
  unfold canonicalizeJson
  constructor
  · rintro ⟨s, hp, hq⟩
    obtain ⟨j, hj⟩ := isOk_map.mp ⟨s, hp⟩
    obtain ⟨k, hk⟩ := isOk_map.mp ⟨s, hq⟩
    rw [hj] at hp
    rw [hk] at hq
    have hjk : j = k := Json.render_injective (String.ofList_injective
      ((Except.ok.inj hp).trans (Except.ok.inj hq).symm))
    exact ⟨⟨j, hj⟩, ⟨k, hk⟩, (toJson_eq_iff _ _ p.distinctKeys q.distinctKeys hj hk).mp hjk⟩
  · rintro ⟨⟨j, hj⟩, ⟨k, hk⟩, h⟩
    obtain rfl := (toJson_eq_iff _ _ p.distinctKeys q.distinctKeys hj hk).mpr h
    exact ⟨_, by rw [hj]; rfl, by rw [hk]; rfl⟩

/-- Decimals that fit 28 digits agree when they are the same number. -/
theorem agree_decimal_iff {a b : Decimal} (ha : a.Fits defaultContext)
    (hb : b.Fits defaultContext) :
    Agree (.scalar (.decimal a)) (.scalar (.decimal b)) ↔ a.SameNumber b := by
  obtain ⟨r₁, h₁, hr₁⟩ := Decimal.normalize_sameNumber ha
  obtain ⟨r₂, h₂, hr₂⟩ := Decimal.normalize_sameNumber hb
  constructor
  · rintro ⟨q₁, q₂, hq₁, hq₂, hq⟩
    obtain rfl := Except.ok.inj (h₁.symm.trans hq₁)
    obtain rfl := Except.ok.inj (h₂.symm.trans hq₂)
    exact hr₁.trans (hq.trans hr₂.symm)
  · intro h
    exact ⟨r₁, r₂, h₁, h₂, hr₁.symm.trans (h.trans hr₂)⟩

mutual

theorem PyVal.Exact.serializable : ∀ {p : PyVal}, p.Exact → p.Serializable
  | .none, _ | .bool _, _ | .int _, _ => trivial
  | .scalar s, h => by
      cases s with
      | decimal d =>
          obtain ⟨r, hr, -⟩ := Decimal.normalize_sameNumber h
          exact ⟨r, hr⟩
      | str s | datetime d | date d | uuid u | bytes bs => trivial
  | .list _, h => serializable_items h
  | .dict _, h => serializable_members h

theorem serializable_items : ∀ {xs : List PyVal}, ExactItems xs → SerializableItems xs
  | [], _ => trivial
  | _ :: _, h => ⟨h.1.serializable, serializable_items h.2⟩

theorem serializable_members : ∀ {ms : List (String × PyVal)}, ExactMembers ms →
    SerializableMembers ms
  | [], _ => trivial
  | (_, _) :: _, h => ⟨h.1.serializable, serializable_members h.2⟩

end

theorem canonicalizeJsonIn_eq_some {limits : Limits} {data : PyVal} {s : String} :
    canonicalizeJsonIn limits data = some s ↔
      data.within limits limits.depth = true ∧ canonicalizeJson data = .ok s := by
  unfold canonicalizeJsonIn
  rw [Option.ite_none_right_eq_some]
  refine and_congr_right fun _ => ?_
  cases canonicalizeJson data with
  | error e => simp [Except.toOption]
  | ok x => simp [Except.toOption]

/-- **R2, payload encoding.** Two payloads without a Decimal that is rounded have one encoding exactly
when both are within the limits of the interpreter and they are the same value up to key order, two
string-like values of different kinds by their texts; a collision-free digest tells all others apart;
and Decimals are the same only if they are the same number. -/
theorem canonicalizeJson_faithful (limits : Limits) (p q : Payload) (hp : p.value.Exact)
    (hq : q.value.Exact) (sha256 : String → String) (hinj : Function.Injective sha256) :
    ((∃ s, canonicalizeJsonIn limits p.value = some s ∧
          canonicalizeJsonIn limits q.value = some s) ↔
        p.value.within limits limits.depth = true ∧ q.value.within limits limits.depth = true ∧
          Agree p.value q.value) ∧
      (p.value.within limits limits.depth = true → q.value.within limits limits.depth = true →
        ¬Agree p.value q.value →
        ∃ h₁ h₂, hashPayloadIn limits sha256 p.value = some h₁ ∧
          hashPayloadIn limits sha256 q.value = some h₂ ∧ h₁ ≠ h₂) ∧
      ∀ a b : Decimal, a.Fits defaultContext → b.Fits defaultContext →
        (Agree (.scalar (.decimal a)) (.scalar (.decimal b)) ↔ a.SameNumber b) := by
  have heq := canonicalizeJson_eq_iff p q
  simp only [hp.serializable, hq.serializable, true_and] at heq
  refine ⟨?_, fun hwp hwq hne => ?_, fun a b => agree_decimal_iff⟩
  · simp only [canonicalizeJsonIn_eq_some, ← heq]
    constructor
    · rintro ⟨s, ⟨hwp, hs⟩, hwq, hs'⟩
      exact ⟨hwp, hwq, s, hs, hs'⟩
    · rintro ⟨hwp, hwq, s, hs, hs'⟩
      exact ⟨s, ⟨hwp, hs⟩, hwq, hs'⟩
  · obtain ⟨j, hj⟩ := (isOk_toJson _).mpr hp.serializable
    obtain ⟨k, hk⟩ := (isOk_toJson _).mpr hq.serializable
    have hcp : canonicalizeJson p.value = .ok (String.ofList j.render) := by
      rw [canonicalizeJson, hj, Except.map]
    have hcq : canonicalizeJson q.value = .ok (String.ofList k.render) := by
      rw [canonicalizeJson, hk, Except.map]
    refine ⟨_, _, by rw [hashPayloadIn, canonicalizeJsonIn_eq_some.mpr ⟨hwp, hcp⟩, Option.map_some],
      by rw [hashPayloadIn, canonicalizeJsonIn_eq_some.mpr ⟨hwq, hcq⟩, Option.map_some], ?_⟩
    intro h
    exact hne (heq.mp ⟨_, hcp, by rw [hcq, hinj h]⟩)

/-- A payload of one item. -/
def amountPayload (s : Scalar) : Payload where
  value := .dict [("amount", .scalar s)]
  distinctKeys := ⟨by simp, trivial, trivial⟩

/-- The digests of the payloads below. -/
def amountTable : List (String × String) :=
  [("\x7b\"amount\":\"1.5\"\x7d", "9770a8915fb5f83babcd8b6e1de2aa57378bb2cefe988f7f76f6f8aca095c548"),
    ("\x7b\"amount\":\"15\"\x7d", "c8b5bd4061544c10f81ae43f94fb98a8567d240422b39456e6715e23bf97d57d")]

theorem isTable_amountTable : Digest.IsTable amountTable where
  values := by decide
  hex := by decide
  length := by decide

/-- The limits of an interpreter. -/
def sampleLimits : Limits := ⟨4300, 900⟩

theorem canonicalizeJson_faithful_amounts :
    ∃ h₁ h₂,
      hashPayloadIn sampleLimits (Digest.tableDigest amountTable)
          (amountPayload (.decimal (.finite false 150 (-2)))).value = some h₁ ∧
        hashPayloadIn sampleLimits (Digest.tableDigest amountTable)
          (amountPayload (.decimal (.finite false 15 0))).value = some h₂ ∧ h₁ ≠ h₂ := by
  have h := canonicalizeJson_faithful sampleLimits
    (amountPayload (.decimal (.finite false 150 (-2))))
    (amountPayload (.decimal (.finite false 15 0))) ⟨Or.inr (by decide), trivial⟩
    ⟨Or.inr (by decide), trivial⟩ (Digest.tableDigest amountTable)
    (Digest.collisionFree_tableDigest isTable_amountTable).injective
  refine h.2.1 rfl rfl ?_
  rintro ⟨-, ⟨w, hw, hagree⟩, -⟩
  obtain ⟨-, rfl⟩ := Prod.mk.inj (List.mem_singleton.mp hw)
  have hsame := (h.2.2 (.finite false 150 (-2)) (.finite false 15 0) (Or.inr (by decide))
    (Or.inr (by decide))).mp hagree
  have hrat := hsame.2
  simp only [Decimal.toRat, Decimal.signed] at hrat
  norm_num at hrat

example : hashPayload (Digest.tableDigest amountTable)
    (amountPayload (.decimal (.finite false 150 (-2)))).value =
      .ok "9770a8915fb5f83babcd8b6e1de2aa57378bb2cefe988f7f76f6f8aca095c548" := by decide +kernel

/-- A Decimal and the string it prints have one encoding; a signed and an unsigned zero, which are
equal numbers, have two. -/
theorem canonicalizeJson_collides :
    (∃ s, canonicalizeJsonIn sampleLimits (amountPayload (.decimal (.finite false 1 0))).value =
        some s ∧ canonicalizeJsonIn sampleLimits (amountPayload (.str "1")).value = some s) ∧
      canonicalizeJsonIn sampleLimits (amountPayload (.decimal (.finite true 0 0))).value ≠
        canonicalizeJsonIn sampleLimits (amountPayload (.decimal (.finite false 0 0))).value ∧
      Decimal.toRat (.finite true 0 0) = Decimal.toRat (.finite false 0 0) := by
  refine ⟨⟨_, rfl, rfl⟩, by decide +kernel, ?_⟩
  simp [Decimal.toRat, Decimal.signed]

end FinanceAccounting.Hashing
