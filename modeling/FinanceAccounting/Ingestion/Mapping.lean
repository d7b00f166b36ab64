import FinanceAccounting.Config.GuardAst
import FinanceAccounting.Config.Schema
import FinanceAccounting.Kernel.Hashing

/-! # Import mappings

The mapping engine turns a row of a source file into a typed record: a transform, a coercion of
text to the type of the field, and the kernel's check of the type.  What Python's standard library
does with texts, numbers and dates is a parameter. -/

namespace FinanceAccounting.Ingestion

open Config (EventFieldType PyFloat)

/-! ### Values -/

/-- Values of rows and records; `other` is of a type that no field has. -/
inductive Value where
  | none
  | bool (b : Bool)
  | int (i : ℤ)
  | float (x : PyFloat)
  | decimal (d : Decimal)
  | str (s : String)
  | datetime (d : Datetime)
  | date (d : Date)
  | uuid (u : UUID)
  | list (xs : List Value)
  | dict (ms : List (String × Value))
  | other (typeName : String)

abbrev Dict := List (String × Value)

namespace Value

/-- `type(value).__name__`. -/
def typeName : Value → String
  | none => "NoneType"
  | bool _ => "bool"
  | int _ => "int"
  | float _ => "float"
  | decimal _ => "Decimal"
  | str _ => "str"
  | datetime _ => "datetime"
  | date _ => "date"
  | uuid _ => "UUID"
  | list _ => "list"
  | dict _ => "dict"
  | other typeName => typeName

def isNone : Value → Bool
  | none => true
  | _ => false

/-- The number that `==` compares. -/
def number : Value → Option PyFloat
  | bool b => some (.finite (if b then 1 else 0))
  | int i => some (.finite i)
  | float x => some x
  | decimal (.finite s c e) => some (.finite (Decimal.toRat (.finite s c e)))
  | decimal (.infinity s) => some (.infinity s)
  | decimal (.nan _ _ _) => some .nan
  | _ => Option.none

/-- Whether two dates with times are equal: one with and one without a timezone never are. -/
def sameTime (d e : Datetime) : Bool :=
  match d.utcoffset, e.utcoffset with
  | Option.none, Option.none => d.wall = e.wall
  | some _, some _ => d.instant = e.instant
  | _, _ => false

/-- `v == w` of two values that are no numbers. -/
def sameOther : Value → Value → Bool
  | none, none => true
  | str s, str t => s = t
  | date d, date e => d = e
  | datetime d, datetime e => sameTime d e
  | uuid u, uuid w => u = w
  | _, _ => false

/-- `v == w` of two values that can be keys of a dictionary. -/
def eq (v w : Value) : Bool :=
  match v.number, w.number with
  | Option.none, Option.none => sameOther v w
  | some x, some y => x ≠ .nan && x = y
  | _, _ => false

/-- Lists and dictionaries cannot be keys. -/
def hashable : Value → Bool
  | list _ => false
  | dict _ => false
  | _ => true

end Value

/-- `d.get(key)`. -/
def Dict.get (d : Dict) (key : String) : Value := (d.lookup key).getD .none

/-- `d[key] = value`. -/
def Dict.set (d : Dict) (key : String) (value : Value) : Dict :=
  if (d.lookup key).isSome then d.map fun (k, v) => if k = key then (k, value) else (k, v)
  else d ++ [(key, value)]

/-- A replaced value is found under its key. -/
theorem Dict.lookup_replaced (d : Dict) (key key' : String) (value : Value) :
    List.lookup key' (d.map fun e => (e.1, if e.1 = key then value else e.2)) =
      if key' = key then (d.lookup key).map fun _ => value else d.lookup key' := by
  induction d with
  | nil => simp
  | cons entry d ih =>
      obtain ⟨k, v⟩ := entry
      rw [List.map_cons, List.lookup_cons, ih, List.lookup_cons, List.lookup_cons]
      by_cases hk : key' = k
      · subst hk
        by_cases hkey : key' = key
        · subst hkey
          simp
        · simp [hkey]
      · rw [beq_false_of_ne hk]
        by_cases hkey : key' = key
        · subst hkey
          rw [beq_false_of_ne hk]
        · simp [hkey]

/-- **A value that was set** is read, and no other value has changed. -/
theorem Dict.lookup_set (d : Dict) (key key' : String) (value : Value) :
    (d.set key value).lookup key' = if key' = key then some value else d.lookup key' := by
  unfold Dict.set
  by_cases h : (d.lookup key).isSome
  · obtain ⟨v, hv⟩ := Option.isSome_iff_exists.mp h
    have hreplaced := Dict.lookup_replaced d key key' value
    rw [hv] at hreplaced
    rw [if_pos h]
    refine Eq.trans (congrArg _ (List.map_congr_left fun e _ => ?_)) hreplaced
    obtain ⟨k, v⟩ := e
    dsimp only
    split
    · rfl
    · rfl
  · have hnone : d.lookup key = none := Option.not_isSome_iff_eq_none.mp h
    rw [if_neg h, List.lookup_append, List.lookup_cons, List.lookup_nil]
    by_cases hkey : key' = key
    · subst hkey
      simp [hnone]
    · rw [beq_false_of_ne hkey, if_neg hkey, Option.or_none]

theorem Dict.get_set (d : Dict) (key key' : String) (value : Value) :
    (d.set key value).get key' = if key' = key then value else d.get key' := by
  unfold Dict.get
  rw [Dict.lookup_set]
  split
  · rfl
  · rfl
/-! ### The standard library -/

/-- Exceptions that the services let pass. -/
inductive Raised where
  | valueError (message : String)
  | typeError
  | overflowError
  | recursionError
  | decimalSignal (signal : Decimal.Signal)
  | statementError
  | integrityError
  | programmingError
  | resourceClosed
  | sourceError (message : String)
deriving DecidableEq, Repr

/-- What is used of the standard library; `none` where it raises an exception that is caught. -/
structure Builtins where
  /-- `str(value)` of a value that is no text. -/
  str : Value → String
  /-- What `str(value)` raises instead, when a number in it has too many digits. -/
  unprintable : Value → Option Raised := fun _ => none
  repr : Value → String
  upper : String → String
  lower : String → String
  /-- `Decimal(s)`. -/
  decimal : String → Option Decimal
  /-- `int(value)`; what is not caught is an overflow. -/
  int : Value → Option (Except Raised ℤ)
  /-- `datetime.strptime(s, fmt).date()`. -/
  strptime : String → String → Option Date
  datetimeFromisoformat : String → Option Datetime
  dateFromisoformat : String → Option Date
  uuid : String → Option UUID
  /-- `json.loads`; what is not caught are numbers with too many digits and too deep a nesting. -/
  jsonLoads : String → Option (Except Raised Value)
  isCurrency : String → Bool
  isdigit : String → Bool

/-- `str(value)`. -/
def Builtins.text (b : Builtins) : Value → String
  | .str s => s
  | v => b.str v

/-- `str(value)`, or what it raises. -/
def Builtins.write (b : Builtins) (v : Value) : Except Raised String :=
  match v with
  | .str s => .ok s
  | v =>
      match b.unprintable v with
      | some e => .error e
      | none => .ok (b.str v)

/-- These texts are those of numbers, and nothing else is read. -/
def plainBuiltins (numbers : List (String × Decimal)) : Builtins where
  str _ := ""
  repr _ := ""
  upper s := s
  lower s := s
  decimal s := List.lookup s numbers
  int _ := none
  strptime _ _ := none
  datetimeFromisoformat _ := none
  dateFromisoformat _ := none
  uuid _ := none
  jsonLoads _ := none
  isCurrency _ := false
  isdigit _ := false

/-- A missing value: `None`, or a text without content. -/
def blank : Value → Bool
  | .none => true
  | .str s => strip s = ""
  | _ => false

/-! ### Errors -/

structure ValidationError where
  code : String
  message : String
  field : Option String := none

/-! ### Mappings -/

structure FieldMapping where
  source : String
  target : String
  fieldType : EventFieldType
  required : Bool := false
  default : Value := .none
  format : Option String := none
  transform : Option String := none

structure MappingResult where
  mappedData : Dict
  errors : List ValidationError

def MappingResult.success (r : MappingResult) : Bool := r.errors.isEmpty

variable (b : Builtins)

/-! ### Transforms -/

/-- The formats that are tried, in their order. -/
def dateFormats : List String := ["%Y-%m-%d", "%Y/%m/%d", "%m/%d/%Y", "%d/%m/%Y"]

/-- `apply_transform`. -/
def applyTransform (value : Value) (transform : String) : Except Raised Value :=
  let t := b.lower (strip transform)
  if value.isNone then .ok .none
  else if t = "strip" || t = "trim" then
    match value with
    | .str s => .ok (.str (strip s))
    | v => .ok v
  else if t = "upper" then
    match value with
    | .str s => .ok (.str (b.upper s))
    | v => .ok v
  else if t = "lower" then
    match value with
    | .str s => .ok (.str (b.lower s))
    | v => .ok v
  else if t = "to_decimal" then
    match value with
    | .decimal d => .ok (.decimal d)
    | .int i => .ok (.decimal (.finite (i < 0) i.natAbs 0))
    | .bool c => .ok (.decimal (.finite false c.toNat 0))
    | .str s => .ok (((b.decimal (strip s)).map .decimal).getD (.str s))
    | v => (b.write v).map fun s => ((b.decimal s).map .decimal).getD v
  else if t = "normalize_date" then
    match value with
    | .date d => .ok (.str d.str)
    | .str s =>
        .ok (((dateFormats.findSome? fun fmt => b.strptime (strip s) fmt).map fun d =>
          .str d.str).getD (.str s))
    | v => .ok v
  else .ok value

/-! ### Coercion of texts -/

/-- `int(d)` of a decimal: towards zero. -/
def truncate : Decimal → Option (Except Raised ℤ)
  | .finite s c e =>
      some (.ok (Decimal.signed s (if 0 ≤ e then c * 10 ^ e.toNat else c / 10 ^ (-e).toNat)))
  | .infinity _ => some (.error .overflowError)
  | .nan _ _ _ => none

def isArray : Value → Bool
  | .list _ => true
  | _ => false

/-- The coerced value, or the error of an unsuccessful coercion. -/
abbrev CoercionResult := Except ValidationError Value

def CoercionResult.ofOption (value : Option Value) (code message : String) : CoercionResult :=
  match value with
  | some v => .ok v
  | none => .error ⟨code, message, some ""⟩

/-- The coerced value, the error where nothing is read, or an exception that is not caught. -/
def CoercionResult.ofRead (read : Option (Except Raised Value)) (code message : String) :
    Except Raised CoercionResult :=
  match read with
  | some (.ok v) => .ok (.ok v)
  | some (.error e) => .error e
  | none => .ok (.ofOption none code message)

/-- A list that was read. -/
def readArray (read : Except Raised Value) : Option (Except Raised Value) :=
  match read with
  | .ok v => if isArray v then some (.ok v) else none
  | .error e => some (.error e)

/-- The words for the two booleans. -/
def trueWords : List String := ["true", "yes", "1", "on"]

def falseWords : List String := ["false", "no", "0", "off", ""]

def coerceBoolean (s : String) : Option Value :=
  if trueWords.contains (b.lower s) then some (.bool true)
  else if falseWords.contains (b.lower s) then some (.bool false)
  else none

/-- `coerce_from_string`; the outer exception is one that it does not catch. -/
def coerceFromString (value : String) (fieldType : EventFieldType) (format : Option String) :
    Except Raised CoercionResult :=
  let s := strip value
  if s = "" && fieldType ≠ .string then
    .ok (.ofOption none "MISSING_VALUE" "Empty value cannot be coerced to non-string type")
  else
    match fieldType with
    | .string => .ok (.ok (.str s))
    | .integer =>
        CoercionResult.ofRead (((b.decimal s).bind truncate).map (·.map .int)) "INVALID_INTEGER"
          ("Cannot coerce to integer: " ++ b.repr (.str s))
    | .decimal =>
        .ok (.ofOption ((b.decimal s).map .decimal) "INVALID_DECIMAL"
          ("Cannot coerce to decimal: " ++ b.repr (.str s)))
    | .boolean =>
        .ok (.ofOption (coerceBoolean b s) "INVALID_BOOLEAN"
          ("Cannot coerce to boolean: " ++ b.repr (.str s)))
    | .date =>
        .ok (.ofOption
          (((format.filter (· ≠ "")).toList ++ dateFormats).findSome? fun fmt =>
            (b.strptime s fmt).map .date)
          "INVALID_DATE_FORMAT" ("Cannot parse date: " ++ b.repr (.str s)))
    | .datetime =>
        .ok (.ofOption ((b.datetimeFromisoformat (s.replace "Z" "+00:00")).map .datetime)
          "INVALID_DATETIME_FORMAT" ("Cannot parse datetime: " ++ b.repr (.str s)))
    | .uuid =>
        .ok (.ofOption ((b.uuid s).map .uuid) "INVALID_UUID_FORMAT"
          ("Invalid UUID: " ++ b.repr (.str s)))
    | .currency => .ok (.ok (.str s))
    | .object =>
        CoercionResult.ofRead (b.jsonLoads s) "INVALID_JSON"
          ("Cannot parse object from: " ++ b.repr (.str (s.take 50).toString))
    | .array =>
        CoercionResult.ofRead ((b.jsonLoads s).bind readArray) "INVALID_JSON_ARRAY"
          ("Cannot parse array from: " ++ b.repr (.str (s.take 50).toString))

/-! ### The check of the type -/

def invalidType (expected path : String) (value : Value) : ValidationError :=
  ⟨"INVALID_TYPE", "Expected " ++ expected ++ " at " ++ path ++ ", got " ++ value.typeName,
    some path⟩

/-- `validate_field_type`. -/
def validateFieldType (value : Value) (fieldType : EventFieldType) (path : String) :
    Option ValidationError :=
  match fieldType, value with
  | .string, .str _ => none
  | .string, v => some (invalidType "string" path v)
  | .integer, .int _ => none
  | .integer, v => some (invalidType "integer" path v)
  | .decimal, v =>
      if (b.decimal (b.text v)).isSome then none else some (invalidType "decimal" path v)
  | .boolean, .bool _ => none
  | .boolean, v => some (invalidType "boolean" path v)
  | .date, .str s =>
      if (b.strptime s "%Y-%m-%d").isSome then none
      else
        some ⟨"INVALID_DATE_FORMAT",
          "Invalid date format at " ++ path ++ ": expected YYYY-MM-DD", some path⟩
  | .date, .date _ => none
  | .date, v => some (invalidType "date" path v)
  | .datetime, .str s =>
      if (b.datetimeFromisoformat (s.replace "Z" "+00:00")).isSome then none
      else
        some ⟨"INVALID_DATETIME_FORMAT",
          "Invalid datetime format at " ++ path ++ ": expected ISO 8601", some path⟩
  | .datetime, .datetime _ => none
  | .datetime, v => some (invalidType "datetime" path v)
  | .uuid, .str s =>
      if (b.uuid s).isSome then none
      else some ⟨"INVALID_UUID_FORMAT", "Invalid UUID format at " ++ path, some path⟩
  | .uuid, .uuid _ => none
  | .uuid, v => some (invalidType "UUID" path v)
  | .currency, .str s =>
      if b.isCurrency s then none
      else
        some ⟨"INVALID_CURRENCY",
          "Invalid ISO 4217 currency code at " ++ path ++ ": " ++ s, some path⟩
  | .currency, v => some (invalidType "currency code (string)" path v)
  | .object, .dict _ => none
  | .object, v => some (invalidType "object" path v)
  | .array, .list _ => none
  | .array, v => some (invalidType "array" path v)

/-! ### Mapping a row -/

/-- The value of a field whose target is a text: numbers are written out. -/
def acceptNumber (fieldType : EventFieldType) (value : Value) : Except Raised Value :=
  match fieldType, value with
  | .string, .int i => (b.write (.int i)).map .str
  | .string, .float x => (b.write (.float x)).map .str
  | .string, .bool c => (b.write (.bool c)).map .str
  | _, v => .ok v

/-- The value of a field that is present, before it is coerced. -/
def readValue (fm : FieldMapping) (raw : Value) : Except Raised Value := do
  let value ← (match fm.transform.filter (· ≠ "") with
    | some t => applyTransform b raw t
    | none => .ok raw)
  acceptNumber b fm.fieldType value

/-- The value of the declared type: texts are coerced. -/
def coerceValue (fm : FieldMapping) (value : Value) : Except Raised CoercionResult :=
  match fm.fieldType, value with
  | .string, v => .ok (.ok v)
  | fieldType, .str s => coerceFromString b s fieldType fm.format
  | _, v => .ok (.ok v)

/-- The value of a field that is present. -/
def mapValue (fm : FieldMapping) (raw : Value) : Except Raised CoercionResult := do
  let value ← readValue b fm raw
  let coerced ← coerceValue b fm value
  return coerced.bind fun v =>
    match validateFieldType b v fm.fieldType fm.target with
    | some e => .error e
    | none => .ok v

/-- One field of the loop of `apply_mapping`. -/
def mapField (rawData : Dict) (acc : MappingResult) (fm : FieldMapping) :
    Except Raised MappingResult :=
  let raw := rawData.get fm.source
  if blank raw then
    if fm.required then
      .ok { acc with errors := acc.errors ++ [⟨"MISSING_REQUIRED_FIELD",
        "Required field " ++ b.repr (.str fm.source) ++ " is missing", some fm.target⟩] }
    else if fm.default.isNone then .ok acc
    else .ok { acc with mappedData := acc.mappedData.set fm.target fm.default }
  else
    (mapValue b fm raw).map fun
      | .error e => { acc with errors := acc.errors ++ [e] }
      | .ok v => { acc with mappedData := acc.mappedData.set fm.target v }

/-- `apply_mapping`. -/
def applyMapping (rawData : Dict) (fieldMappings : List FieldMapping) :
    Except Raised MappingResult :=
  fieldMappings.foldlM (mapField b rawData) ⟨[], []⟩

end FinanceAccounting.Ingestion
