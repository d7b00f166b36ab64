import FinanceAccounting.Ingestion.Mapping

/-! # Event schemas

The schema of an event type is a tree of fields: an object has fields of its own, and an array has a
type or a schema for its items.  A payload is checked against it field by field, first the type,
then the constraints, then what is inside.  Errors are collected; regular expressions and what
Python's standard library does with texts are parameters. -/

namespace FinanceAccounting.EventSchemas

open Config (EventFieldType)
open Ingestion (Value Dict Builtins ValidationError validateFieldType invalidType)

/-! ### Schemas -/

/-- A bound of a numeric field, `Decimal | int`. -/
inductive Bound where
  | int (i : ℤ)
  | decimal (d : Decimal)
deriving DecidableEq

def Bound.value : Bound → Value
  | .int i => .int i
  | .decimal d => .decimal d

structure FieldConstraints where
  minValue : Option Bound := none
  maxValue : Option Bound := none
  minLength : Option ℤ := none
  maxLength : Option ℤ := none
  pattern : Option String := none
  allowedValues : Option (List String) := none

/-- A field without the fields in it. -/
structure FieldHead where
  name : String
  fieldType : EventFieldType
  required : Bool := true
  nullable : Bool := false
  itemType : Option EventFieldType := none
  constraints : FieldConstraints := {}

/-- `EventFieldSchema`; fields that are not given are the empty list. -/
inductive EventFieldSchema where
  | mk (head : FieldHead) (nestedFields itemSchema : List EventFieldSchema)

namespace EventFieldSchema

def head : EventFieldSchema → FieldHead
  | mk head _ _ => head

def nestedFields : EventFieldSchema → List EventFieldSchema
  | mk _ nestedFields _ => nestedFields

def itemSchema : EventFieldSchema → List EventFieldSchema
  | mk _ _ itemSchema => itemSchema

end EventFieldSchema

/-- `EventFieldSchema.__post_init__`; the text of the `ValueError` it raises. -/
def postInit (field : FieldHead) (nestedFields itemSchema : List EventFieldSchema) :
    Option String :=
  if field.fieldType = .object && nestedFields.isEmpty then
    some ("Field '" ++ field.name ++ "' of type OBJECT must have nested_fields")
  else if field.fieldType = .array then
    if field.itemType.isNone && itemSchema.isEmpty then
      some ("Field '" ++ field.name ++ "' of type ARRAY must have item_type or item_schema")
    else if field.itemType = some .object && itemSchema.isEmpty then
      some ("Field '" ++ field.name ++ "' with item_type OBJECT must have item_schema")
    else none
  else none

mutual

/-- A field that can be constructed. -/
def EventFieldSchema.valid : EventFieldSchema → Bool
  | .mk head nestedFields itemSchema =>
      (postInit head nestedFields itemSchema).isNone && allValid nestedFields && allValid itemSchema

def allValid : List EventFieldSchema → Bool
  | [] => true
  | field :: fields => field.valid && allValid fields

end

structure EventSchema where
  eventType : String
  version : ℤ
  fields : List EventFieldSchema
  version_pos : 1 ≤ version
  namespaced : '.' ∈ eventType.toList
  fields_valid : allValid fields = true

/-! ### Constraints -/

/-- What is used of the standard library. -/
structure Library extends Builtins where
  /-- Whether `re.match` finds a match; `none` where the pattern does not compile. -/
  rematch : String → String → Option Bool

/-- Exceptions that the check of a payload lets pass. -/
inductive Raised where
  | typeError (message : String)
  | patternError (pattern : String)
deriving DecidableEq, Repr

variable (lib : Library)

/-- The comparison with one bound; `none` where it raises an exception. -/
def boundErrors (code extreme path : String) (value : Value) (bound : Option Bound)
    (beyond : Decimal → Except Decimal.Signal Bool) : Option (List ValidationError) :=
  match bound with
  | none => some []
  | some m =>
      match lib.decimal (lib.text m.value) with
      | none => none
      | some limit =>
          match beyond limit with
          | .error _ => none
          | .ok false => some []
          | .ok true =>
              some [⟨code, "Value at " ++ path ++ " is " ++ lib.text value ++ ", " ++ extreme ++
                " is " ++ lib.text m.value, some path⟩]

/-- The numeric constraints.  An exception ends the comparisons and is swallowed. -/
def numericErrors (value : Value) (c : FieldConstraints) (path : String) : List ValidationError :=
  match lib.decimal (lib.text value) with
  | none => []
  | some numericValue =>
      match boundErrors lib "VALUE_TOO_SMALL" "minimum" path value c.minValue
        fun minVal => numericValue.less minVal with
      | none => []
      | some small =>
          small ++ (boundErrors lib "VALUE_TOO_LARGE" "maximum" path value c.maxValue
            fun maxVal => maxVal.less numericValue).getD []

/-- The comparison of the length of a text with one bound. -/
def lengthErrors (code extreme path : String) (value : String) (bound : Option ℤ)
    (beyond : ℤ → Bool) : List ValidationError :=
  match bound with
  | none => []
  | some m =>
      if beyond m then
        [⟨code, "String at " ++ path ++ " is " ++ toString value.length ++ " chars, " ++ extreme ++
          " is " ++ toString m, some path⟩]
      else []

def patternErrors (value : String) (pattern : Option String) (path : String) :
    Except Raised (List ValidationError) :=
  match pattern with
  | none => .ok []
  | some p =>
      match lib.rematch p value with
      | none => .error (.patternError p)
      | some true => .ok []
      | some false =>
          .ok [⟨"PATTERN_MISMATCH", "String at " ++ path ++ " does not match pattern: " ++ p,
            some path⟩]

def stringErrors (value : String) (c : FieldConstraints) (path : String) :
    Except Raised (List ValidationError) := do
  let short := lengthErrors "STRING_TOO_SHORT" "minimum" path value c.minLength
    fun m => value.length < m
  let long := lengthErrors "STRING_TOO_LONG" "maximum" path value c.maxLength
    fun m => m < value.length
  let mismatch ← patternErrors lib value c.pattern path
  pure (short ++ long ++ mismatch)

/-- The allowed values are a set, so the value must be hashable. -/
def allowedErrors (value : Value) (allowed : Option (List String)) (path : String) :
    Except Raised (List ValidationError) :=
  match allowed with
  | none => .ok []
  | some texts =>
      if !value.hashable then .error (.typeError ("unhashable type: '" ++ value.typeName ++ "'"))
      else if texts.any fun t => value.eq (.str t) then .ok []
      else
        .ok [⟨"VALUE_NOT_ALLOWED", "Value '" ++ lib.text value ++ "' at " ++ path ++
          " not in allowed values: " ++ lib.text (.list ((texts.insertionSort (· ≤ ·)).map .str)),
          some path⟩]

/-- `validate_field_constraints`. -/
def validateFieldConstraints (value : Value) (field : FieldHead) (path : String) :
    Except Raised (List ValidationError) := do
  let numeric :=
    match field.fieldType with
    | .integer | .decimal => numericErrors lib value field.constraints path
    | _ => []
  let text ←
    (match field.fieldType, value with
    | .string, .str s => stringErrors lib s field.constraints path
    | _, _ => .ok [])
  let allowed ← allowedErrors lib value field.constraints.allowedValues path
  pure (numeric ++ text ++ allowed)

/-! ### Fields -/

def missingField (path : String) : ValidationError :=
  ⟨"MISSING_REQUIRED_FIELD", "Required field missing: " ++ path, some path⟩

/-- The errors of a list of checks, in order. -/
def collectErrors {α : Type} (check : α → Except Raised (List ValidationError)) :
    List α → Except Raised (List ValidationError)
  | [] => .ok []
  | x :: xs => do
      let errors ← check x
      let rest ← collectErrors check xs
      pure (errors ++ rest)

/-- One item of an array; `checkFields` checks an object against the fields of the item schema. -/
def itemErrors (field : FieldHead) (isObjectArray : Bool)
    (checkFields : Dict → String → Except Raised (List ValidationError)) (path : String)
    (item : Value) : Except Raised (List ValidationError) :=
  if isObjectArray then
    match item with
    | .dict ms => checkFields ms (path ++ ".")
    | v => .ok [invalidType "object" path v]
  else
    match field.itemType with
    | some itemType => .ok (validateFieldType lib.toBuiltins item itemType path).toList
    | none => .ok []

mutual

/-- A value against its field; a missing value is `None`. -/
def validateField : EventFieldSchema → Value → String → Except Raised (List ValidationError)
  | .mk field nestedFields itemSchema, value, path =>
      if value.isNone then
        .ok (if field.required && !field.nullable then [missingField path] else [])
      else
        match validateFieldType lib.toBuiltins value field.fieldType path with
        | some e => .ok [e]
        | none => do
            let constraints ← validateFieldConstraints lib value field path
            let nested ←
              (match field.fieldType, value with
              | .object, .dict ms => validateFields nestedFields ms (path ++ ".")
              | _, _ => .ok [])
            let items ←
              (match field.fieldType, value with
              | .array, .list xs =>
                  collectErrors (fun (x, i) =>
                    itemErrors lib field (!itemSchema.isEmpty) (validateFields itemSchema)
                      (path ++ "[" ++ toString i ++ "]") x) xs.zipIdx
              | _, _ => .ok [])
            pure (constraints ++ nested ++ items)

/-- The fields of an object, whose paths start with `start`. -/
def validateFields : List EventFieldSchema → Dict → String → Except Raised (List ValidationError)
  | [], _, _ => .ok []
  | field :: fields, ms, start => do
      let errors ← validateField field (ms.get field.head.name) (start ++ field.head.name)
      let rest ← validateFields fields ms start
      pure (errors ++ rest)

end

/-- `validate_payload_against_schema`. -/
def validatePayloadAgainstSchema (payload : Dict) (schema : EventSchema) :
    Except Raised (List ValidationError) :=
  validateFields lib schema.fields payload ""

end FinanceAccounting.EventSchemas
