import FinanceAccounting.Ingestion.EventSchemas
import FinanceAccounting.Library.Traversals

/-! # What a schema check accepts

A schema declares fields for positions of a payload, at any depth (`Declared`), and each says what
the value there has to be (`Sound`).  The check of a payload descends to every declared position
(`passed_of_declared`), but some of what a field says it does not look at: it takes a missing key for
a `None` and so does not tell required from nullable; it skips the bounds of what cannot be compared;
and of the items of an array it checks the type alone.  So an accepted payload is sound exactly when
it is right in these (`validatePayload_sound_iff`). -/

namespace FinanceAccounting.EventSchemas

open Config (EventFieldType)
open Ingestion (Value Dict Builtins ValidationError validateFieldType)
open Traversals (bind_eq_ok exists_of_map_toOption)

/-! ### What a schema says -/

/-- The positions of a payload that a schema declares a field for, with the value if there is one. -/
inductive Declared (schema : EventSchema) (payload : Dict) :
    EventFieldSchema → Option Value → Prop
  | top {field : EventFieldSchema} (hfield : field ∈ schema.fields) :
      Declared schema payload field (payload.lookup field.head.name)
  | nested {parent field : EventFieldSchema} {ms : Dict}
      (hparent : Declared schema payload parent (some (.dict ms)))
      (htype : parent.head.fieldType = .object) (hfield : field ∈ parent.nestedFields) :
      Declared schema payload field (ms.lookup field.head.name)
  | item {parent field : EventFieldSchema} {xs : List Value} {ms : Dict}
      (hparent : Declared schema payload parent (some (.list xs)))
      (htype : parent.head.fieldType = .array) (hitem : .dict ms ∈ xs)
      (hfield : field ∈ parent.itemSchema) :
      Declared schema payload field (ms.lookup field.head.name)

/-- The values of a type. -/
inductive HasType (lib : Library) : EventFieldType → Value → Prop
  | string (s : String) : HasType lib .string (.str s)
  | integer (i : ℤ) : HasType lib .integer (.int i)
  | decimal {v : Value} (h : (lib.decimal (lib.text v)).isSome) : HasType lib .decimal v
  | boolean (b : Bool) : HasType lib .boolean (.bool b)
  | date (d : Date) : HasType lib .date (.date d)
  | dateText {s : String} (h : (lib.strptime s "%Y-%m-%d").isSome) : HasType lib .date (.str s)
  | datetime (d : Datetime) : HasType lib .datetime (.datetime d)
  | datetimeText {s : String} (h : (lib.datetimeFromisoformat (s.replace "Z" "+00:00")).isSome) :
      HasType lib .datetime (.str s)
  | uuid (u : UUID) : HasType lib .uuid (.uuid u)
  | uuidText {s : String} (h : (lib.uuid s).isSome) : HasType lib .uuid (.str s)
  | currency {s : String} (h : lib.isCurrency s = true) : HasType lib .currency (.str s)
  | object (ms : Dict) : HasType lib .object (.dict ms)
  | array (xs : List Value) : HasType lib .array (.list xs)

/-- The number that an integer is. -/
def ofInt (i : ℤ) : Decimal := .finite (i < 0) i.natAbs 0

def Bound.number : Bound → Decimal
  | .int i => ofInt i
  | .decimal d => d

/-- The number that a value of a numeric type stands for. -/
inductive Denotes (lib : Library) : EventFieldType → Value → Decimal → Prop
  | integer (i : ℤ) : Denotes lib .integer (.int i) (ofInt i)
  | decimal {v : Value} {d : Decimal} (h : lib.decimal (lib.text v) = some d) :
      Denotes lib .decimal v d

/-- The value is a number that is comparable with the bounds and between them. -/
structure InRange (lib : Library) (fieldType : EventFieldType) (c : FieldConstraints)
    (value : Value) : Prop where
  min : ∀ m, c.minValue = some m →
    ∃ d, Denotes lib fieldType value d ∧ d.less m.number = .ok false
  max : ∀ m, c.maxValue = some m →
    ∃ d, Denotes lib fieldType value d ∧ m.number.less d = .ok false

structure FitsText (lib : Library) (c : FieldConstraints) (s : String) : Prop where
  min : ∀ m, c.minLength = some m → m ≤ s.length
  max : ∀ m, c.maxLength = some m → s.length ≤ m
  pattern : ∀ p, c.pattern = some p → lib.rematch p s = some true

/-- The value meets the constraints: the bounds of a number, the length and pattern of a text. -/
structure Meets (lib : Library) (fieldType : EventFieldType) (c : FieldConstraints)
    (value : Value) : Prop where
  range : fieldType = .integer ∨ fieldType = .decimal → InRange lib fieldType c value
  text : fieldType = .string → ∀ s, value = .str s → FitsText lib c s
  allowed : ∀ texts, c.allowedValues = some texts → ∃ t ∈ texts, value = .str t

/-- An item of an array is an object of the item schema, and of the item type with the constraints
of the field. -/
structure ItemSound (lib : Library) (field : EventFieldSchema) (item : Value) : Prop where
  object : field.itemSchema ≠ [] → ∃ ms, item = .dict ms
  typed : ∀ itemType, field.head.itemType = some itemType →
    HasType lib itemType item ∧ Meets lib itemType field.head.constraints item

/-- A position is as its field says: a required field is present, a `None` is at a nullable field,
and any other value is of the type, meets the constraints and has items as declared. -/
def Sound (lib : Library) (field : EventFieldSchema) : Option Value → Prop
  | none => field.head.required = false
  | some .none => field.head.nullable = true
  | some value =>
      HasType lib field.head.fieldType value ∧
        Meets lib field.head.fieldType field.head.constraints value ∧
          (field.head.fieldType = .array →
            ∀ xs, value = .list xs → ∀ item ∈ xs, ItemSound lib field item)

/-! ### What the check does not look at -/

def IsNaN : Decimal → Prop
  | .nan _ _ _ => True
  | _ => False

def FieldConstraints.HasBound (c : FieldConstraints) (m : Bound) : Prop :=
  c.minValue = some m ∨ c.maxValue = some m

/-- Neither the value nor a bound is a NaN; where `Decimal(str(..))` of an integer among them
raises an exception, the value is in the range. -/
structure Comparable (lib : Library) (fieldType : EventFieldType) (c : FieldConstraints)
    (value : Value) : Prop where
  value_number : ∀ m, c.HasBound m → ∀ d, Denotes lib fieldType value d → ¬IsNaN d
  bound_number : ∀ m, c.HasBound m → ¬IsNaN m.number
  written : lib.decimal (lib.text value) = none ∨
    (∃ m, c.HasBound m ∧ lib.decimal (lib.text m.value) = none) → InRange lib fieldType c value

/-- An item has the constraints of the field, and with an item schema the item type too. -/
def ItemRight (lib : Library) (field : EventFieldSchema) (item : Value) : Prop :=
  ∀ itemType, field.head.itemType = some itemType →
    (field.itemSchema ≠ [] → HasType lib itemType item) ∧
      Meets lib itemType field.head.constraints item

/-- What the check of a position leaves out is right. -/
def Right (lib : Library) (field : EventFieldSchema) : Option Value → Prop
  | none => ¬(field.head.required = true ∧ field.head.nullable = true)
  | some .none => field.head.required = true ∨ field.head.nullable = true
  | some value =>
      (field.head.fieldType = .integer ∨ field.head.fieldType = .decimal →
          Comparable lib field.head.fieldType field.head.constraints value) ∧
        (field.head.fieldType = .array →
          ∀ xs, value = .list xs → ∀ item ∈ xs, ItemRight lib field item)

/-- `Decimal(str(x))` of an `int` or a `Decimal` is that number, unless it raises an exception. -/
def Library.Exact (lib : Library) : Prop :=
  ∀ (m : Bound) (d : Decimal), lib.decimal (lib.text m.value) = some d → d = m.number

/-! ### Checks without errors -/

theorem append_eq_ok_nil {x y : Except Raised (List ValidationError)} :
    (do let errors ← x; let rest ← y; pure (errors ++ rest)) = .ok [] ↔ x = .ok [] ∧ y = .ok [] := by
  constructor
  · intro h
    obtain ⟨errors, hx, h⟩ := bind_eq_ok.mp h
    obtain ⟨rest, hy, h⟩ := bind_eq_ok.mp h
    obtain ⟨rfl, rfl⟩ := List.append_eq_nil_iff.mp (Except.ok.inj h)
    exact ⟨hx, hy⟩
  · rintro ⟨rfl, rfl⟩
    rfl

section Passed

variable {lib : Library} {schema : EventSchema} {payload : Dict} {path : String} {value : Value}

theorem collectErrors_mem {α : Type} {check : α → Except Raised (List ValidationError)} :
    ∀ {xs : List α}, collectErrors check xs = .ok [] → ∀ x ∈ xs, check x = .ok []
  | [], _ => fun x hx => absurd hx List.not_mem_nil
  | x :: xs, h => by
      rw [collectErrors, append_eq_ok_nil] at h
      intro y hy
      rcases List.mem_cons.mp hy with rfl | hy
      · exact h.1
      · exact collectErrors_mem h.2 y hy

theorem validateFields_mem {ms : Dict} {start : String} :
    ∀ {fields : List EventFieldSchema}, validateFields lib fields ms start = .ok [] →
      ∀ field ∈ fields, validateField lib field (ms.get field.head.name)
        (start ++ field.head.name) = .ok []
  | [], _ => fun x hx => absurd hx List.not_mem_nil
  | field :: fields, h => by
      rw [validateFields, append_eq_ok_nil] at h
      intro g hg
      rcases List.mem_cons.mp hg with rfl | hg
      · exact h.1
      · exact validateFields_mem h.2 g hg

/-- The check of the value that is not `None`. -/
theorem validateField_eq_ok_nil {field : EventFieldSchema} (hvalue : value.isNone = false)
    (h : validateField lib field value path = .ok []) :
    validateFieldType lib.toBuiltins value field.head.fieldType path = none ∧
      validateFieldConstraints lib value field.head path = .ok [] ∧
      (∀ ms, field.head.fieldType = .object → value = .dict ms →
        validateFields lib field.nestedFields ms (path ++ ".") = .ok []) ∧
      ∀ xs, field.head.fieldType = .array → value = .list xs → ∀ item ∈ xs, ∃ itemPath,
        itemErrors lib field.head (!field.itemSchema.isEmpty) (validateFields lib field.itemSchema)
          itemPath item = .ok [] := by
  obtain ⟨head, nestedFields, itemSchema⟩ := field
  unfold validateField at h
  rw [hvalue, if_neg Bool.false_ne_true] at h
  cases htype : validateFieldType lib.toBuiltins value head.fieldType path with
  | some e => rw [htype] at h; cases h
  | none =>
      rw [htype] at h
      dsimp only at h
      obtain ⟨constraints, hconstraints, h⟩ := bind_eq_ok.mp h
      obtain ⟨nested, hnested, h⟩ := bind_eq_ok.mp h
      obtain ⟨items, hitems, h⟩ := bind_eq_ok.mp h
      obtain ⟨hrest, rfl⟩ := List.append_eq_nil_iff.mp (Except.ok.inj h)
      obtain ⟨rfl, rfl⟩ := List.append_eq_nil_iff.mp hrest
      refine ⟨htype, hconstraints, ?_, ?_⟩
      · intro ms hobject hdict
        subst hdict
        change head.fieldType = _ at hobject
        rw [hobject] at hnested
        exact hnested
      · intro xs harray hlist item hitem
        subst hlist
        change head.fieldType = _ at harray
        rw [harray] at hitems
        obtain ⟨i, hi⟩ := List.mem_iff_getElem?.mp hitem
        exact ⟨_, collectErrors_mem hitems (item, i) (List.mk_mem_zipIdx_iff_getElem?.mpr hi)⟩

/-! ### Types -/

theorem of_ite_eq_none {c : Prop} [Decidable c] {e : ValidationError}
    (h : (if c then none else some e) = none) : c := by
  by_contra hc
  rw [if_neg hc] at h
  cases h

/-- A value that the check of the type lets pass is of the type. -/
theorem hasType_of_validateFieldType {fieldType : EventFieldType} (path : String)
    (h : validateFieldType lib.toBuiltins value fieldType path = none) :
    HasType lib fieldType value := by
  cases fieldType with
  | decimal => exact .decimal (of_ite_eq_none h)
  | string =>
      cases value with
      | str s => exact .string s
      | _ => cases h
  | integer =>
      cases value with
      | int i => exact .integer i
      | _ => cases h
  | boolean =>
      cases value with
      | bool b => exact .boolean b
      | _ => cases h
  | date =>
      cases value with
      | str s => exact .dateText (of_ite_eq_none h)
      | date d => exact .date d
      | _ => cases h
  | datetime =>
      cases value with
      | str s => exact .datetimeText (of_ite_eq_none h)
      | datetime d => exact .datetime d
      | _ => cases h
  | uuid =>
      cases value with
      | str s => exact .uuidText (of_ite_eq_none h)
      | uuid u => exact .uuid u
      | _ => cases h
  | currency =>
      cases value with
      | str s => exact .currency (of_ite_eq_none h)
      | _ => cases h
  | object =>
      cases value with
      | dict ms => exact .object ms
      | _ => cases h
  | array =>
      cases value with
      | list xs => exact .array xs
      | _ => cases h

/-! ### Bounds -/

theorem denotes_unique {fieldType : EventFieldType} {d e : Decimal}
    (hd : Denotes lib fieldType value d) (he : Denotes lib fieldType value e) : d = e := by
  cases hd with
  | integer i => cases he; rfl
  | decimal hd =>
      cases he with
      | decimal he => exact Option.some.inj (hd.symm.trans he)

theorem not_nan_of_less {d e : Decimal} {r : Bool} (h : d.less e = .ok r) :
    ¬IsNaN d ∧ ¬IsNaN e := by
  cases d <;> cases e <;> first | exact ⟨id, id⟩ | cases h

theorem exists_less {d e : Decimal} (hd : ¬IsNaN d) (he : ¬IsNaN e) : ∃ r, d.less e = .ok r := by
  cases d <;> cases e <;>
    first | exact ⟨_, rfl⟩ | exact absurd trivial hd | exact absurd trivial he

/-- A comparison that is possible and has no error. -/
theorem boundErrors_of_comparable {code extreme : String} {bound : Option Bound}
    (beyond : Decimal → Except Decimal.Signal Bool)
    (hwritten : ∀ m, bound = some m → lib.decimal (lib.text m.value) = some m.number)
    (hbeyond : ∀ m, bound = some m → ∃ r, beyond m.number = .ok r) :
    ∃ errors, boundErrors lib code extreme path value bound beyond = some errors ∧
      (errors = [] → ∀ m, bound = some m → beyond m.number = .ok false) := by
  cases bound with
  | none => exact ⟨[], rfl, fun _ m hm => nomatch hm⟩
  | some m =>
      obtain ⟨r, hr⟩ := hbeyond m rfl
      unfold boundErrors
      dsimp only
      rw [hwritten m rfl]
      dsimp only
      rw [hr]
      cases r with
      | true => exact ⟨_, rfl, fun h => nomatch h⟩
      | false => exact ⟨[], rfl, fun _ m' hm => Option.some.inj hm ▸ hr⟩

theorem denotes_of_text {fieldType : EventFieldType} {d : Decimal} (hexact : lib.Exact)
    (hnumeric : fieldType = .integer ∨ fieldType = .decimal) (htype : HasType lib fieldType value)
    (hd : lib.decimal (lib.text value) = some d) : Denotes lib fieldType value d := by
  cases htype with
  | integer i =>
      obtain rfl := hexact (.int i) d hd
      exact .integer i
  | decimal _ => exact .decimal hd
  | _ => rcases hnumeric with h | h <;> cases h

/-- A value without numeric errors is in the range, if it and the bounds can be compared. -/
theorem inRange_of_numericErrors {fieldType : EventFieldType} {c : FieldConstraints}
    (hexact : lib.Exact) (hnumeric : fieldType = .integer ∨ fieldType = .decimal)
    (htype : HasType lib fieldType value) (hcomparable : Comparable lib fieldType c value)
    (h : numericErrors lib value c path = []) : InRange lib fieldType c value := by
  by_cases hwritten : lib.decimal (lib.text value) = none ∨
      ∃ m, c.HasBound m ∧ lib.decimal (lib.text m.value) = none
  · exact hcomparable.written hwritten
  · obtain ⟨hvalue, hbounds⟩ := not_or.mp hwritten
    obtain ⟨d, hd⟩ := Option.ne_none_iff_exists'.mp hvalue
    have hdenotes := denotes_of_text hexact hnumeric htype hd
    have hbound : ∀ m, c.HasBound m → lib.decimal (lib.text m.value) = some m.number := by
      intro m hm
      obtain ⟨e, he⟩ := Option.ne_none_iff_exists'.mp fun hnone => hbounds ⟨m, hm, hnone⟩
      rw [he, hexact m e he]
    have hless : ∀ m, c.HasBound m →
        (∃ r, d.less m.number = .ok r) ∧ ∃ r, m.number.less d = .ok r := by
      intro m hm
      have hd := hcomparable.value_number m hm d hdenotes
      have hm := hcomparable.bound_number m hm
      exact ⟨exists_less hd hm, exists_less hm hd⟩
    obtain ⟨small, hsmall, hmin⟩ := boundErrors_of_comparable (fun minVal => d.less minVal)
      (fun m hm => hbound m (.inl hm)) (fun m hm => (hless m (.inl hm)).1)
    obtain ⟨large, hlarge, hmax⟩ := boundErrors_of_comparable (fun maxVal => maxVal.less d)
      (fun m hm => hbound m (.inr hm)) (fun m hm => (hless m (.inr hm)).2)
    unfold numericErrors at h
    rw [hd] at h
    dsimp only at h
    rw [hsmall, hlarge] at h
    obtain ⟨rfl, rfl⟩ := List.append_eq_nil_iff.mp h
    exact ⟨fun m hm => ⟨d, hdenotes, hmin rfl m hm⟩, fun m hm => ⟨d, hdenotes, hmax rfl m hm⟩⟩

/-- A value in the range can be compared with the bounds. -/
theorem comparable_of_inRange {fieldType : EventFieldType} {c : FieldConstraints}
    (h : InRange lib fieldType c value) : Comparable lib fieldType c value := by
  have hnumber : ∀ m, c.HasBound m →
      ∃ d, Denotes lib fieldType value d ∧ ¬IsNaN d ∧ ¬IsNaN m.number := by
    rintro m (hm | hm)
    · obtain ⟨d, hd, hless⟩ := h.min m hm
      exact ⟨d, hd, not_nan_of_less hless⟩
    · obtain ⟨d, hd, hless⟩ := h.max m hm
      exact ⟨d, hd, (not_nan_of_less hless).symm⟩
  refine ⟨fun m hm d hd => ?_, fun m hm => ?_, fun _ => h⟩
  · obtain ⟨e, he, hnan, _⟩ := hnumber m hm
    exact denotes_unique he hd ▸ hnan
  · obtain ⟨_, _, _, hnan⟩ := hnumber m hm
    exact hnan

/-! ### Texts and allowed values -/

theorem lengthErrors_eq_nil {code extreme s : String} {bound : Option ℤ} {beyond : ℤ → Bool}
    (h : lengthErrors code extreme path s bound beyond = []) :
    ∀ m, bound = some m → beyond m = false := by
  rintro m rfl
  unfold lengthErrors at h
  dsimp only at h
  cases hm : beyond m with
  | false => rfl
  | true => rw [hm, if_pos rfl] at h; cases h

theorem patternErrors_eq_nil {s : String} {pattern : Option String}
    (h : patternErrors lib s pattern path = .ok []) :
    ∀ p, pattern = some p → lib.rematch p s = some true := by
  rintro p rfl
  unfold patternErrors at h
  dsimp only at h
  cases hmatch : lib.rematch p s with
  | none => rw [hmatch] at h; cases h
  | some found =>
      cases found with
      | true => rfl
      | false => rw [hmatch] at h; cases h

theorem fitsText_of_stringErrors {s : String} {c : FieldConstraints}
    (h : stringErrors lib s c path = .ok []) : FitsText lib c s := by
  obtain ⟨mismatch, hpattern, h⟩ := bind_eq_ok.mp h
  obtain ⟨hlengths, rfl⟩ := List.append_eq_nil_iff.mp (Except.ok.inj h)
  obtain ⟨hshort, hlong⟩ := List.append_eq_nil_iff.mp hlengths
  refine ⟨fun m hm => ?_, fun m hm => ?_, patternErrors_eq_nil hpattern⟩
  · have := of_decide_eq_false (lengthErrors_eq_nil hshort m hm)
    omega
  · have := of_decide_eq_false (lengthErrors_eq_nil hlong m hm)
    omega

theorem eq_str_of_eq {t : String} (h : value.eq (.str t) = true) : value = .str t := by
  cases value with
  | str s => exact congrArg Value.str (of_decide_eq_true h)
  | decimal d => cases d <;> cases h
  | _ => cases h

theorem allowedErrors_eq_nil {allowed : Option (List String)}
    (h : allowedErrors lib value allowed path = .ok []) :
    ∀ texts, allowed = some texts → value.hashable = true ∧ ∃ t ∈ texts, value = .str t := by
  rintro texts rfl
  unfold allowedErrors at h
  dsimp only at h
  split at h
  · cases h
  rename_i hhashable
  split at h
  · rename_i hany
    obtain ⟨t, ht, heq⟩ := List.any_eq_true.mp hany
    exact ⟨by simpa using hhashable, t, ht, eq_str_of_eq heq⟩
  · cases h

/-- A value of its type without constraint errors meets the constraints, if it and the bounds can be
compared. -/
theorem meets_of_constraints {field : FieldHead} (hexact : lib.Exact)
    (htype : HasType lib field.fieldType value)
    (hcomparable : field.fieldType = .integer ∨ field.fieldType = .decimal →
      Comparable lib field.fieldType field.constraints value)
    (h : validateFieldConstraints lib value field path = .ok []) :
    Meets lib field.fieldType field.constraints value := by
  obtain ⟨text, htext, h⟩ := bind_eq_ok.mp h
  obtain ⟨allowed, hallowed, h⟩ := bind_eq_ok.mp h
  obtain ⟨hrest, rfl⟩ := List.append_eq_nil_iff.mp (Except.ok.inj h)
  obtain ⟨hnumbers, rfl⟩ := List.append_eq_nil_iff.mp hrest
  refine ⟨fun hnumeric => ?_, fun hstring s hs => ?_, fun texts htexts => ?_⟩
  · have hnone : numericErrors lib value field.constraints path = [] := by
      rcases hnumeric with hnumeric | hnumeric
      · rwa [hnumeric] at hnumbers
      · rwa [hnumeric] at hnumbers
    exact inRange_of_numericErrors hexact hnumeric htype (hcomparable hnumeric) hnone
  · subst hs
    rw [hstring] at htext
    exact fitsText_of_stringErrors htext
  · exact (allowedErrors_eq_nil hallowed texts htexts).2

/-! ### Positions -/

/-- The check of a position has no errors. -/
def Passed (lib : Library) (field : EventFieldSchema) (value : Option Value) : Prop :=
  ∃ path, validateField lib field (value.getD .none) path = .ok []

/-- **The check descends** to every position that the schema declares a field for. -/
theorem passed_of_declared {field : EventFieldSchema} {found : Option Value}
    (haccepted : validatePayloadAgainstSchema lib payload schema = .ok [])
    (h : Declared schema payload field found) : Passed lib field found := by
  induction h with
  | top hfield => exact ⟨_, validateFields_mem haccepted _ hfield⟩
  | nested _ htype hfield ih =>
      obtain ⟨path, hpath⟩ := ih
      have hfields := (validateField_eq_ok_nil rfl hpath).2.2.1 _ htype rfl
      exact ⟨_, validateFields_mem hfields _ hfield⟩
  | item _ htype hitem hfield ih =>
      obtain ⟨path, hpath⟩ := ih
      obtain ⟨itemPath, hfields⟩ := (validateField_eq_ok_nil rfl hpath).2.2.2 _ htype rfl _ hitem
      unfold itemErrors at hfields
      rw [if_pos (by simpa using List.ne_nil_of_mem hfield)] at hfields
      exact ⟨_, validateFields_mem hfields _ hfield⟩

theorem flags_of_passed {field : EventFieldSchema}
    (h : validateField lib field .none path = .ok []) :
    field.head.required = true → field.head.nullable = true := by
  obtain ⟨head, nestedFields, itemSchema⟩ := field
  intro hrequired
  change head.nullable = true
  change head.required = true at hrequired
  unfold validateField at h
  rw [if_pos (show Value.none.isNone = true from rfl), hrequired] at h
  cases hnullable : head.nullable with
  | true => rfl
  | false => rw [hnullable] at h; cases h

/-- An item without errors: an object of the item schema, or else a value of the item type. -/
theorem item_of_itemErrors {field : FieldHead} {itemSchema : List EventFieldSchema} {item : Value}
    (h : itemErrors lib field (!itemSchema.isEmpty) (validateFields lib itemSchema) path item =
      .ok []) :
    (itemSchema ≠ [] → ∃ ms, item = .dict ms) ∧
      (itemSchema = [] → ∀ itemType, field.itemType = some itemType → HasType lib itemType item) := by
  unfold itemErrors at h
  constructor
  · intro hschema
    rw [if_pos (by simpa using hschema)] at h
    cases item with
    | dict ms => exact ⟨ms, rfl⟩
    | _ => cases h
  · rintro rfl itemType htype
    rw [if_neg (by simp), htype] at h
    refine hasType_of_validateFieldType path ?_
    simpa using h

theorem sound_some_iff {field : EventFieldSchema} (hvalue : value.isNone = false) :
    Sound lib field (some value) ↔
      HasType lib field.head.fieldType value ∧
        Meets lib field.head.fieldType field.head.constraints value ∧
          (field.head.fieldType = .array →
            ∀ xs, value = .list xs → ∀ item ∈ xs, ItemSound lib field item) := by
  cases value with
  | none => cases hvalue
  | _ => exact Iff.rfl

theorem right_some_iff {field : EventFieldSchema} (hvalue : value.isNone = false) :
    Right lib field (some value) ↔
      (field.head.fieldType = .integer ∨ field.head.fieldType = .decimal →
          Comparable lib field.head.fieldType field.head.constraints value) ∧
        (field.head.fieldType = .array →
          ∀ xs, value = .list xs → ∀ item ∈ xs, ItemRight lib field item) := by
  cases value with
  | none => cases hvalue
  | _ => exact Iff.rfl

theorem sound_iff_right_of_value {field : EventFieldSchema} (hexact : lib.Exact)
    (hvalue : value.isNone = false) (h : validateField lib field value path = .ok []) :
    Sound lib field (some value) ↔ Right lib field (some value) := by
  obtain ⟨hnoError, hconstraints, _, hitems⟩ := validateField_eq_ok_nil hvalue h
  have htype := hasType_of_validateFieldType path hnoError
  rw [sound_some_iff hvalue, right_some_iff hvalue]
  constructor
  · rintro ⟨_, hmeets, hitem⟩
    refine ⟨fun hnumeric => comparable_of_inRange (hmeets.range hnumeric), ?_⟩
    intro harray xs hxs item hmem itemType hitemType
    obtain ⟨hitemTyped, hitemMeets⟩ := (hitem harray xs hxs item hmem).typed itemType hitemType
    exact ⟨fun _ => hitemTyped, hitemMeets⟩
  · rintro ⟨hcomparable, hitem⟩
    refine ⟨htype, meets_of_constraints hexact htype hcomparable hconstraints, ?_⟩
    intro harray xs hxs item hmem
    obtain ⟨itemPath, hnoErrors⟩ := hitems xs harray hxs item hmem
    obtain ⟨hobject, hprimitive⟩ := item_of_itemErrors hnoErrors
    refine ⟨hobject, fun itemType hitemType => ?_⟩
    obtain ⟨hboth, hmeets⟩ := hitem harray xs hxs item hmem itemType hitemType
    refine ⟨?_, hmeets⟩
    by_cases hschema : field.itemSchema = []
    · exact hprimitive hschema itemType hitemType
    · exact hboth hschema

/-- **A position that passed** is sound when it is right where the check does not look. -/
theorem sound_iff_right {field : EventFieldSchema} {found : Option Value} (hexact : lib.Exact)
    (h : Passed lib field found) : Sound lib field found ↔ Right lib field found := by
  obtain ⟨path, h⟩ := h
  cases found with
  | none =>
      have hflags := flags_of_passed h
      show field.head.required = false ↔ _
      rw [← Bool.not_eq_true]
      exact ⟨fun hoptional hboth => hoptional hboth.1,
        fun hright hrequired => hright ⟨hrequired, hflags hrequired⟩⟩
  | some value =>
      cases hvalue : value.isNone with
      | false => exact sound_iff_right_of_value hexact hvalue h
      | true =>
          cases value with
          | none =>
              have hflags := flags_of_passed h
              exact ⟨.inr, fun hright => hright.elim hflags id⟩
          | _ => cases hvalue

end Passed

/-! ### Accepted payloads -/

/-- **An accepted payload is sound** exactly when it is right where the check does not look. -/
theorem validatePayload_sound_iff (lib : Library) (hexact : lib.Exact) (schema : EventSchema)
    (payload : Dict) (haccepted : validatePayloadAgainstSchema lib payload schema = .ok []) :
    (∀ field found, Declared schema payload field found → Sound lib field found) ↔
      ∀ field found, Declared schema payload field found → Right lib field found := by
  refine forall_congr' fun field => forall_congr' fun found => ?_
  refine forall_congr' fun hdeclared => ?_
  exact sound_iff_right hexact (passed_of_declared haccepted hdeclared)

/-- Only "1", "5" and "NaN" are texts of numbers, and any pattern matches. -/
def sampleLibrary : Library where
  str v :=
    match v with
    | .int i => if i = 1 then "1" else ""
    | _ => ""
  repr _ := ""
  upper s := s
  lower s := s
  decimal s :=
    if s = "1" then some (ofInt 1)
    else if s = "5" then some (ofInt 5)
    else if s = "NaN" then some (.nan false false 0)
    else none
  int _ := none
  strptime _ _ := none
  datetimeFromisoformat _ := none
  dateFromisoformat _ := none
  uuid _ := none
  jsonLoads _ := none
  isCurrency _ := false
  isdigit _ := false
  rematch _ _ := some true

theorem sampleLibrary_exact : sampleLibrary.Exact := by
  intro m d h
  cases m with
  | decimal _ => exact absurd (show none = some d from h) (fun h => nomatch h)
  | int i =>
      by_cases hi : i = 1
      · subst hi
        exact (Option.some.inj (show some (ofInt 1) = some d from h)).symm
      · have htext : sampleLibrary.text (Bound.int i).value = "" := if_neg hi
        rw [htext] at h
        exact absurd (show none = some d from h) (fun h => nomatch h)

/-- A required quantity that is at least one. -/
def sampleSchema : EventSchema where
  eventType := "inventory.receipt"
  version := 1
  fields := [.mk { name := "quantity", fieldType := .decimal,
                   constraints := { minValue := some (.int 1) } } [] []]
  version_pos := le_rfl
  namespaced := by decide
  fields_valid := by decide

def samplePayload (quantity : String) : Dict := [("quantity", .str quantity)]

theorem declared_sample {quantity : String} {field : EventFieldSchema} {found : Option Value}
    (h : Declared sampleSchema (samplePayload quantity) field found) :
    field ∈ sampleSchema.fields ∧ found = some (.str quantity) := by
  induction h with
  | top hfield =>
      obtain rfl := List.mem_singleton.mp hfield
      exact ⟨hfield, rfl⟩
  | nested _ _ _ ih => exact absurd ih.2 (fun h => nomatch h)
  | item _ _ _ _ ih => exact absurd ih.2 (fun h => nomatch h)

theorem eq_ok_nil_of_isEmpty {x : Except Raised (List ValidationError)}
    (h : x.toOption.map List.isEmpty = some true) : x = .ok [] := by
  obtain ⟨errors, hx, hempty⟩ := exists_of_map_toOption h
  rw [hx, List.isEmpty_iff.mp hempty]

theorem sound_five :
    validatePayloadAgainstSchema sampleLibrary (samplePayload "5") sampleSchema = .ok [] ∧
      ∀ field found, Declared sampleSchema (samplePayload "5") field found →
        Sound sampleLibrary field found := by
  have haccepted : validatePayloadAgainstSchema sampleLibrary (samplePayload "5") sampleSchema =
      .ok [] := eq_ok_nil_of_isEmpty (by decide +kernel)
  refine ⟨haccepted, (validatePayload_sound_iff sampleLibrary sampleLibrary_exact sampleSchema _
    haccepted).mpr fun field found hdeclared => ?_⟩
  obtain ⟨hfield, rfl⟩ := declared_sample hdeclared
  obtain rfl := List.mem_singleton.mp hfield
  have hbound : ∀ m, FieldConstraints.HasBound { minValue := some (.int 1) } m → m = .int 1 := by
    rintro m (hm | hm)
    · exact (Option.some.inj hm).symm
    · cases hm
  refine ⟨fun _ => ⟨fun m hm d hd => ?_, fun m hm => ?_, fun hwritten => ?_⟩,
    fun harray => nomatch harray⟩
  · cases hd with
    | decimal hd =>
        obtain rfl := Option.some.inj (show some (ofInt 5) = some d from hd)
        exact id
  · obtain rfl := hbound m hm
    exact id
  · rcases hwritten with hwritten | ⟨m, hm, hwritten⟩
    · exact absurd (show some (ofInt 5) = none from hwritten) (fun h => nomatch h)
    · obtain rfl := hbound m hm
      exact absurd (show some (ofInt 1) = none from hwritten) (fun h => nomatch h)

theorem not_sound_nan :
    ¬∀ (lib : Library) (_ : lib.Exact) (schema : EventSchema) (payload : Dict),
      validatePayloadAgainstSchema lib payload schema = .ok [] →
        ∀ field found, Declared schema payload field found → Sound lib field found := by
  intro hsound
  have haccepted : validatePayloadAgainstSchema sampleLibrary (samplePayload "NaN") sampleSchema =
      .ok [] := eq_ok_nil_of_isEmpty (by decide +kernel)
  have hquantity := hsound sampleLibrary sampleLibrary_exact sampleSchema _ haccepted _ _
    (.top List.mem_cons_self)
  obtain ⟨d, hd, hless⟩ := (hquantity.2.1.range (.inr rfl)).min _ rfl
  cases hd with
  | decimal hd =>
      obtain rfl := Option.some.inj (show some (.nan false false 0) = some d from hd)
      cases hless

end FinanceAccounting.EventSchemas
