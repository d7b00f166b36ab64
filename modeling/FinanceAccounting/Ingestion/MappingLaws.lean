import FinanceAccounting.Ingestion.SchemaSoundness
import FinanceAccounting.Ingestion.PrecisionLaws

/-! # What a mapping of fields keeps

`apply_mapping` reads, transforms, coerces and checks one field after another.  It raises where a
number has too many digits to be written or read, and where a whole number is asked for and the text
says infinity (`exists_fieldResult_iff`).  A mapping that succeeds has checked the type of every value
but the defaults; it cuts the places of a fraction off a whole number, and it reads a date in other
formats than the declared one (`applyMapping_sound_iff`). -/

namespace FinanceAccounting.Ingestion

open Config (EventFieldType)
open Traversals (bind_eq_ok map_eq_ok foldlM_of_forall)

variable {b : Builtins} {rawData : Dict} {fm : FieldMapping} {fms : List FieldMapping}
variable {s : String} {v : Value} {d : Decimal}

/-! ### What is mapped -/

/-- The values of a type, as in the schemas of events. -/
def OfType (b : Builtins) : EventFieldType → Value → Prop :=
  EventSchemas.HasType { b with rematch := fun _ _ => none }

/-- What becomes of a field: an error, or perhaps a value. -/
def fieldResult (b : Builtins) (rawData : Dict) (fm : FieldMapping) :
    Except Raised (Except ValidationError (Option Value)) :=
  let raw := rawData.get fm.source
  if blank raw then
    .ok (if fm.required then .error ⟨"MISSING_REQUIRED_FIELD",
        "Required field " ++ b.repr (.str fm.source) ++ " is missing", some fm.target⟩
      else .ok (if fm.default.isNone then none else some fm.default))
  else (mapValue b fm raw).map (·.map some)

/-- The result of a field, among those of the fields before it. -/
def record (acc : MappingResult) (fm : FieldMapping) :
    Except ValidationError (Option Value) → MappingResult
  | .error e => { acc with errors := acc.errors ++ [e] }
  | .ok none => acc
  | .ok (some v) => { acc with mappedData := acc.mappedData.set fm.target v }

/-- The field maps its source, or the lack of one, to a value. -/
def MapsTo (b : Builtins) (rawData : Dict) (fm : FieldMapping) (v : Value) : Prop :=
  fieldResult b rawData fm = .ok (.ok (some v))

/-- The text of a field, after its transform, that is coerced to its type. -/
def ReadsText (b : Builtins) (rawData : Dict) (fm : FieldMapping) (s : String) : Prop :=
  blank (rawData.get fm.source) = false ∧ s ≠ "" ∧
    ∃ t, readValue b fm (rawData.get fm.source) = .ok (.str t) ∧ strip t = s

/-- The decimal is a whole number. -/
def DenotesInt (d : Decimal) (i : ℤ) : Prop :=
  ∃ sign coeff exp, d = .finite sign coeff exp ∧ d.toRat = i

/-- The value is of the type of its field; where the field is an integer and its text a number, it
is this number; and where the field is a date with a format, it is what the text says in it. -/
structure WellMapped (b : Builtins) (rawData : Dict) (fm : FieldMapping) (v : Value) : Prop where
  type : OfType b fm.fieldType v
  integer : fm.fieldType = .integer → ∀ s d, ReadsText b rawData fm s → b.decimal s = some d →
    ∃ i, v = .int i ∧ DenotesInt d i
  date : fm.fieldType = .date → ∀ s fmt, ReadsText b rawData fm s → fm.format = some fmt →
    fmt ≠ "" → ∃ d, v = .date d ∧ b.strptime s fmt = some d

/-! ### Conditions -/

/-- The transform writes values out to read them as numbers. -/
def makesDecimal (b : Builtins) (fm : FieldMapping) : Bool :=
  match fm.transform.filter (· ≠ "") with
  | some t => b.lower (strip t) = "to_decimal"
  | none => false

/-- `str` is taken of the source of the field. -/
def takesStr (b : Builtins) (fm : FieldMapping) : Value → Bool
  | .none | .str _ | .decimal _ => false
  | .int _ | .bool _ => fm.fieldType = .string && !makesDecimal b fm
  | .float _ => fm.fieldType = .string || makesDecimal b fm
  | _ => makesDecimal b fm

/-- Nothing in the field makes the mapping raise. -/
structure RaiseFree (b : Builtins) (rawData : Dict) (fm : FieldMapping) : Prop where
  printable : takesStr b fm (rawData.get fm.source) = true →
    b.unprintable (rawData.get fm.source) = none
  bounded : fm.fieldType = .integer → ∀ s, ReadsText b rawData fm s →
    ∀ sign, b.decimal s ≠ some (.infinity sign)
  parsed : fm.fieldType = .object ∨ fm.fieldType = .array → ∀ s, ReadsText b rawData fm s →
    ∀ e, b.jsonLoads s ≠ some (.error e)

/-- A default is of the type of its field, a number in an integer field is a whole one, and what one
of the other formats reads as a date is one in the declared format. -/
structure Careful (b : Builtins) (rawData : Dict) (fm : FieldMapping) : Prop where
  default : blank (rawData.get fm.source) = true → fm.required = false →
    fm.default.isNone = false → OfType b fm.fieldType fm.default
  integer : fm.fieldType = .integer → ∀ s d, ReadsText b rawData fm s → b.decimal s = some d →
    ∃ i, DenotesInt d i
  date : fm.fieldType = .date → ∀ s fmt, ReadsText b rawData fm s → fm.format = some fmt →
    fmt ≠ "" → (∃ other ∈ dateFormats, (b.strptime s other).isSome) → (b.strptime s fmt).isSome

/-! ### The loop -/

theorem mapField_eq (acc : MappingResult) :
    mapField b rawData acc fm = (fieldResult b rawData fm).map (record acc fm) := by
  unfold mapField fieldResult
  dsimp only
  split
  · split
    · rfl
    · split
      · rfl
      · rfl
  · cases mapValue b fm (rawData.get fm.source) with
    | error e => rfl
    | ok result =>
        cases result with
        | error e => rfl
        | ok v => rfl

/-- What the loop records of every field. -/
structure Recorded (b : Builtins) (rawData : Dict) (fms : List FieldMapping)
    (acc r : MappingResult) : Prop where
  fields : r.errors = [] → acc.errors = [] ∧ ∀ fm ∈ fms, ∃ o, fieldResult b rawData fm = .ok (.ok o)
  values : ∀ path v, r.mappedData.lookup path = some v →
    acc.mappedData.lookup path = some v ∨ ∃ fm ∈ fms, fm.target = path ∧ MapsTo b rawData fm v

/-- **The loop** returns when every field does. -/
theorem applyMapping_loop {acc r : MappingResult}
    (h : fms.foldlM (mapField b rawData) acc = .ok r) :
    (∀ fm ∈ fms, ∃ x, fieldResult b rawData fm = .ok x) ∧ Recorded b rawData fms acc r := by
  induction fms generalizing acc with
  | nil =>
      obtain rfl := Except.ok.inj h
      exact ⟨fun fm hfm => absurd hfm List.not_mem_nil,
        fun h => ⟨h, fun fm hfm => absurd hfm List.not_mem_nil⟩, fun _ _ h => .inl h⟩
  | cons fm fms ih =>
      rw [List.foldlM_cons, bind_eq_ok] at h
      obtain ⟨acc', hfirst, hrest⟩ := h
      rw [mapField_eq, map_eq_ok] at hfirst
      obtain ⟨x, hx, rfl⟩ := hfirst
      obtain ⟨hall, hfields, hvalues⟩ := ih hrest
      refine ⟨List.forall_mem_cons.mpr ⟨⟨x, hx⟩, hall⟩, fun herrors => ?_, fun path v hv => ?_⟩
      · obtain ⟨hacc, hrestOk⟩ := hfields herrors
        cases x with
        | error e => exact absurd hacc (by simp [record])
        | ok o =>
            refine ⟨?_, List.forall_mem_cons.mpr ⟨⟨o, hx⟩, hrestOk⟩⟩
            cases o with
            | none => exact hacc
            | some v => exact hacc
      · rcases hvalues path v hv with hv | ⟨fm', hfm', htarget, hmaps⟩
        · cases x with
          | error e => exact .inl hv
          | ok o =>
              cases o with
              | none => exact .inl hv
              | some v' =>
                  rw [record, Dict.lookup_set] at hv
                  split at hv
                  · obtain rfl := Option.some.inj hv
                    exact .inr ⟨fm, List.mem_cons_self, Eq.symm ‹_›, hx⟩
                  · exact .inl hv
        · exact .inr ⟨fm', List.mem_cons_of_mem fm hfm', htarget, hmaps⟩

theorem exists_applyMapping_iff :
    (∃ r, applyMapping b rawData fms = .ok r) ↔
      ∀ fm ∈ fms, ∃ x, fieldResult b rawData fm = .ok x := by
  constructor
  · rintro ⟨r, h⟩
    exact (applyMapping_loop h).1
  · intro h
    have hget : ∀ fm ∈ fms, ∀ acc, mapField b rawData acc fm =
        .ok (record acc fm (((fieldResult b rawData fm).toOption).getD (.ok none))) := by
      intro fm hfm acc
      obtain ⟨x, hx⟩ := h fm hfm
      rw [mapField_eq, hx]
      rfl
    exact ⟨_, foldlM_of_forall hget _⟩

/-! ### What is read -/

/-- A number that is written out where a text is asked for. -/
def isNumber : Value → Bool
  | .int _ | .float _ | .bool _ => true
  | _ => false

theorem write_ok_iff (h : ∀ s, v ≠ .str s) :
    (∃ s, b.write v = .ok s) ↔ b.unprintable v = none := by
  unfold Builtins.write
  split
  · exact absurd rfl (h _)
  · cases b.unprintable v with
    | none => simp
    | some e => simp

theorem map_write_ok_iff {g : String → Value} (h : ∀ s, v ≠ .str s) :
    (∃ w, (b.write v).map g = .ok w) ↔ b.unprintable v = none := by
  rw [← write_ok_iff h]
  constructor
  · rintro ⟨w, hw⟩
    obtain ⟨s, hs, -⟩ := map_eq_ok.mp hw
    exact ⟨s, hs⟩
  · rintro ⟨s, hs⟩
    exact ⟨g s, map_eq_ok.mpr ⟨s, hs, rfl⟩⟩

theorem acceptNumber_of_ne {fieldType : EventFieldType}
    (h : fieldType ≠ .string ∨ isNumber v = false) : acceptNumber b fieldType v = .ok v := by
  unfold acceptNumber
  split
  · simp [isNumber] at h
  · simp [isNumber] at h
  · simp [isNumber] at h
  · rfl

theorem acceptNumber_ok_iff (fieldType : EventFieldType) :
    (∃ w, acceptNumber b fieldType v = .ok w) ↔
      (fieldType = .string → isNumber v = true → b.unprintable v = none) := by
  by_cases hwritten : fieldType = .string ∧ isNumber v = true
  · obtain ⟨rfl, hnumber⟩ := hwritten
    simp only [hnumber, true_imp_iff]
    cases v with
    | int i => exact map_write_ok_iff fun s => nofun
    | float x => exact map_write_ok_iff fun s => nofun
    | bool c => exact map_write_ok_iff fun s => nofun
    | _ => cases hnumber
  · have hplain : fieldType ≠ .string ∨ isNumber v = false := by
      rw [not_and_or, Bool.not_eq_true] at hwritten
      exact hwritten
    refine ⟨fun _ hstring hnumber => absurd ⟨hstring, hnumber⟩ hwritten, fun _ => ⟨v, ?_⟩⟩
    exact acceptNumber_of_ne hplain

/-- Transforms that make no decimals do not raise, and leave numbers as they are. -/
theorem applyTransform_plain {t : String} (ht : b.lower (strip t) ≠ "to_decimal") :
    ∃ w, applyTransform b v t = .ok w ∧ (w = v ∨ isNumber w = false ∧ isNumber v = false) := by
  unfold applyTransform
  dsimp only
  rw [if_neg ht]
  cases v with
  | str s =>
      split
      · exact ⟨_, rfl, .inr ⟨rfl, rfl⟩⟩
      split
      · exact ⟨_, rfl, .inr ⟨rfl, rfl⟩⟩
      split
      · exact ⟨_, rfl, .inr ⟨rfl, rfl⟩⟩
      split
      · exact ⟨_, rfl, .inr ⟨rfl, rfl⟩⟩
      split
      · refine ⟨_, rfl, .inr ⟨?_, rfl⟩⟩
        cases dateFormats.findSome? fun fmt => b.strptime (strip s) fmt with
        | none => rfl
        | some d => rfl
      · exact ⟨_, rfl, .inl rfl⟩
  | date d =>
      split
      · exact ⟨_, rfl, .inr ⟨rfl, rfl⟩⟩
      split
      · exact ⟨_, rfl, .inl rfl⟩
      split
      · exact ⟨_, rfl, .inl rfl⟩
      split
      · exact ⟨_, rfl, .inl rfl⟩
      split
      · exact ⟨_, rfl, .inr ⟨rfl, rfl⟩⟩
      · exact ⟨_, rfl, .inl rfl⟩
  | none => exact ⟨_, rfl, .inl rfl⟩
  | _ => exact ⟨_, by simp [Value.isNone], .inl rfl⟩

theorem takesStr_plain (h : makesDecimal b fm = false) :
    takesStr b fm v = true ↔ fm.fieldType = .string ∧ isNumber v = true := by
  cases v with
  | int i => simp [takesStr, isNumber, h]
  | bool c => simp [takesStr, isNumber, h]
  | float x => simp [takesStr, isNumber, h]
  | _ => simp [takesStr, isNumber, h]

/-- A value that is written out to be read as a number. -/
theorem applyTransform_decimal {t : String} (ht : b.lower (strip t) = "to_decimal") :
    (∃ w, applyTransform b v t = .ok w ∧ isNumber w = false ∧
        ∀ fm : FieldMapping, makesDecimal b fm = true → takesStr b fm v = false) ∨
      (applyTransform b v t =
          (b.write v).map fun s => ((b.decimal s).map Value.decimal).getD v) ∧
        (∀ s, v ≠ .str s) ∧
        ∀ fm : FieldMapping, makesDecimal b fm = true → takesStr b fm v = true := by
  unfold applyTransform
  dsimp only
  rw [ht]
  cases v with
  | none => exact .inl ⟨_, rfl, rfl, fun fm _ => rfl⟩
  | decimal d => exact .inl ⟨_, rfl, rfl, fun fm _ => rfl⟩
  | int i => exact .inl ⟨_, rfl, rfl, fun fm h => by simp [takesStr, h]⟩
  | bool c => exact .inl ⟨_, rfl, rfl, fun fm h => by simp [takesStr, h]⟩
  | str s =>
      refine .inl ⟨_, rfl, ?_, fun fm _ => rfl⟩
      cases b.decimal (strip s) with
      | none => rfl
      | some d => rfl
  | float x => exact .inr ⟨rfl, fun s => nofun, fun fm h => by simp [takesStr, h]⟩
  | _ => exact .inr ⟨rfl, fun s => nofun, fun fm h => h⟩

/-- **What is read** raises where `str` does. -/
theorem readValue_ok_iff (b : Builtins) (fm : FieldMapping) (v : Value) :
    (∃ w, readValue b fm v = .ok w) ↔ (takesStr b fm v = true → b.unprintable v = none) := by
  have hplain : ∀ {x : Except Raised Value}, makesDecimal b fm = false →
      (∃ w, x = .ok w ∧ (w = v ∨ isNumber w = false ∧ isNumber v = false)) →
      ((∃ w, (x >>= acceptNumber b fm.fieldType) = .ok w) ↔
        (takesStr b fm v = true → b.unprintable v = none)) := by
    rintro x hmakes ⟨w, rfl, hw⟩
    show (∃ w', acceptNumber b fm.fieldType w = .ok w') ↔ _
    rw [acceptNumber_ok_iff, takesStr_plain hmakes]
    rcases hw with rfl | ⟨hw, hv⟩
    · exact and_imp.symm
    · simp [hw, hv]
  unfold readValue
  cases htransform : fm.transform.filter (· ≠ "") with
  | none =>
      refine hplain ?_ ⟨v, rfl, .inl rfl⟩
      rw [makesDecimal, htransform]
  | some t =>
      dsimp only
      by_cases ht : b.lower (strip t) = "to_decimal"
      · have hmakes : makesDecimal b fm = true := by
          rw [makesDecimal, htransform]
          exact decide_eq_true ht
        rcases applyTransform_decimal (v := v) ht with ⟨w, hw, hnumber, htakes⟩ | ⟨hw, hstr, htakes⟩
        · rw [hw, htakes fm hmakes]
          exact ⟨fun _ h => (by cases h), fun _ => ⟨w, acceptNumber_of_ne (.inr hnumber)⟩⟩
        · rw [hw, htakes fm hmakes]
          constructor
          · rintro ⟨w, h⟩ -
            obtain ⟨w', hw', -⟩ := bind_eq_ok.mp h
            exact (map_write_ok_iff hstr).mp ⟨w', hw'⟩
          · intro h
            obtain ⟨s, hs⟩ := (write_ok_iff hstr).mpr (h rfl)
            rw [hs]
            refine (acceptNumber_ok_iff fm.fieldType).mpr fun _ hnumber => ?_
            dsimp only at hnumber ⊢
            cases hd : b.decimal s with
            | none =>
                exact h rfl
            | some d =>
                rw [hd] at hnumber
                cases hnumber
      · refine hplain ?_ (applyTransform_plain ht)
        rw [makesDecimal, htransform]
        exact decide_eq_false ht

/-! ### What is coerced -/

theorem ofRead_ok_iff {read : Option (Except Raised Value)} {code message : String} :
    (∃ c, CoercionResult.ofRead read code message = .ok c) ↔ ∀ e, read ≠ some (.error e) := by
  unfold CoercionResult.ofRead
  split
  · simp
  · simp
  · simp

/-- A number is cut off unless it is infinite. -/
theorem truncated_ok_iff {read : Option Decimal} :
    (∀ e, (read.bind truncate).map (·.map Value.int) ≠ some (.error e)) ↔
      ∀ sign, read ≠ some (.infinity sign) := by
  cases read with
  | none => simp
  | some d =>
      cases d with
      | finite sign coeff exp => simp [truncate, Except.map]
      | infinity sign =>
          refine ⟨fun h => absurd rfl (h .overflowError), fun h => absurd rfl (h sign)⟩
      | nan sign signaling payload => simp [truncate]

theorem readArray_ok_iff {read : Option (Except Raised Value)} :
    (∀ e, read.bind readArray ≠ some (.error e)) ↔ ∀ e, read ≠ some (.error e) := by
  cases read with
  | none => simp
  | some r =>
      cases r with
      | error e => simp [readArray]
      | ok v =>
          simp only [Option.bind_some, readArray]
          split
          · simp
          · simp

/-- **A text is coerced** unless it says infinity or cannot be loaded. -/
theorem coerceFromString_ok_iff {fieldType : EventFieldType} {format : Option String} :
    (∃ c, coerceFromString b s fieldType format = .ok c) ↔ (strip s ≠ "" →
      (fieldType = .integer → ∀ sign, b.decimal (strip s) ≠ some (.infinity sign)) ∧
      (fieldType = .object ∨ fieldType = .array → ∀ e, b.jsonLoads (strip s) ≠ some (.error e))) := by
  unfold coerceFromString
  dsimp only
  by_cases hempty : strip s = ""
  · cases fieldType with
    | string => simp [hempty]
    | _ => simp [hempty]
  · have hskip : ¬(decide (strip s = "") && decide (fieldType ≠ .string)) = true := by
      simp [hempty]
    rw [if_neg hskip]
    simp only [ne_eq, hempty, not_false_eq_true, true_imp_iff]
    cases fieldType with
    | integer =>
        simp only [true_imp_iff, reduceCtorEq, or_self, false_imp_iff, and_true]
        rw [ofRead_ok_iff]
        exact truncated_ok_iff
    | object =>
        simp only [reduceCtorEq, false_imp_iff, true_and, true_or, true_imp_iff]
        exact ofRead_ok_iff
    | array =>
        simp only [reduceCtorEq, false_imp_iff, true_and, or_true, true_imp_iff]
        rw [ofRead_ok_iff]
        exact readArray_ok_iff
    | _ => simp

theorem coerceValue_ok_iff :
    (∃ c, coerceValue b fm v = .ok c) ↔ ∀ t, v = .str t → strip t ≠ "" →
      (fm.fieldType = .integer → ∀ sign, b.decimal (strip t) ≠ some (.infinity sign)) ∧
      (fm.fieldType = .object ∨ fm.fieldType = .array →
        ∀ e, b.jsonLoads (strip t) ≠ some (.error e)) := by
  unfold coerceValue
  split
  · rename_i htype
    simp [htype]
  · rename_i t hne
    simp only [Value.str.injEq, forall_eq']
    exact coerceFromString_ok_iff
  · rename_i hstr hstring
    exact ⟨fun _ t ht => (hstr t ht).elim, fun _ => ⟨_, rfl⟩⟩

/-- **A field does not raise** where nothing in it does. -/
theorem exists_fieldResult_iff :
    (∃ x, fieldResult b rawData fm = .ok x) ↔ RaiseFree b rawData fm := by
  unfold fieldResult
  dsimp only
  by_cases hblank : blank (rawData.get fm.source) = true
  · rw [if_pos hblank]
    refine ⟨fun _ => ⟨fun htakes => ?_, fun _ s h => ?_, fun _ s h => ?_⟩, fun _ => ⟨_, rfl⟩⟩
    · generalize rawData.get fm.source = raw at hblank htakes
      cases raw with
      | none => cases htakes
      | str s => cases htakes
      | _ => cases hblank
    · rw [h.1] at hblank
      cases hblank
    · rw [h.1] at hblank
      cases hblank
  · rw [if_neg hblank]
    rw [Bool.not_eq_true] at hblank
    have hmapped : (∃ x, ((mapValue b fm (rawData.get fm.source)).map (·.map some)) =
        .ok (x : Except ValidationError (Option Value))) ↔
        ∃ w, readValue b fm (rawData.get fm.source) = .ok w ∧ ∃ c, coerceValue b fm w = .ok c := by
      constructor
      · rintro ⟨x, hx⟩
        obtain ⟨result, hresult, -⟩ := map_eq_ok.mp hx
        obtain ⟨w, hw, hresult⟩ := bind_eq_ok.mp hresult
        obtain ⟨c, hc, -⟩ := bind_eq_ok.mp hresult
        exact ⟨w, hw, c, hc⟩
      · rintro ⟨w, hw, c, hc⟩
        exact ⟨_, map_eq_ok.mpr ⟨_, bind_eq_ok.mpr ⟨w, hw, bind_eq_ok.mpr ⟨c, hc, rfl⟩⟩, rfl⟩⟩
    rw [hmapped]
    constructor
    · rintro ⟨w, hw, hc⟩
      have hcoerced := coerceValue_ok_iff.mp hc
      have htext : ∀ {s}, ReadsText b rawData fm s → ∃ t, w = .str t ∧ strip t = s ∧ s ≠ "" := by
        rintro s ⟨-, hne, t, ht, hs⟩
        exact ⟨t, Except.ok.inj (hw.symm.trans ht), hs, hne⟩
      refine ⟨(readValue_ok_iff b fm _).mp ⟨w, hw⟩, fun htype s h => ?_, fun htype s h => ?_⟩
      · obtain ⟨t, hwt, rfl, hne⟩ := htext h
        exact (hcoerced t hwt hne).1 htype
      · obtain ⟨t, hwt, rfl, hne⟩ := htext h
        exact (hcoerced t hwt hne).2 htype
    · rintro ⟨hprintable, hbounded, hparsed⟩
      obtain ⟨w, hw⟩ := (readValue_ok_iff b fm _).mpr hprintable
      refine ⟨w, hw, coerceValue_ok_iff.mpr fun t ht hne => ?_⟩
      subst ht
      have hreads : ReadsText b rawData fm (strip t) := ⟨hblank, hne, t, hw, rfl⟩
      exact ⟨fun htype => hbounded htype _ hreads, fun htype => hparsed htype _ hreads⟩

/-! ### What is accepted -/

theorem mapsTo_of_blank (h : blank (rawData.get fm.source) = true) :
    MapsTo b rawData fm v ↔ fm.required = false ∧ fm.default.isNone = false ∧ v = fm.default := by
  unfold MapsTo fieldResult
  dsimp only
  rw [if_pos h]
  cases fm.required with
  | true => simp
  | false =>
      cases fm.default.isNone with
      | true => simp
      | false => simp [eq_comm]

/-- A field that is present is read, coerced and checked. -/
theorem mapsTo_of_present (h : blank (rawData.get fm.source) = false) :
    MapsTo b rawData fm v ↔ ∃ w, readValue b fm (rawData.get fm.source) = .ok w ∧
      coerceValue b fm w = .ok (.ok v) ∧ validateFieldType b v fm.fieldType fm.target = none := by
  unfold MapsTo fieldResult
  dsimp only
  rw [if_neg (by rw [h]; simp), map_eq_ok]
  constructor
  · rintro ⟨result, hresult, hsome⟩
    obtain ⟨w, hw, hresult⟩ := bind_eq_ok.mp hresult
    obtain ⟨c, hc, hresult⟩ := bind_eq_ok.mp hresult
    obtain rfl := Except.ok.inj hresult
    refine ⟨w, hw, ?_⟩
    cases c with
    | error e => cases hsome
    | ok v' =>
        dsimp only [Except.bind] at hsome
        split at hsome
        · cases hsome
        · obtain rfl : v' = v := Option.some.inj (Except.ok.inj hsome)
          exact ⟨hc, ‹_›⟩
  · rintro ⟨w, hw, hc, htype⟩
    refine ⟨.ok v, bind_eq_ok.mpr ⟨w, hw, bind_eq_ok.mpr ⟨_, hc, ?_⟩⟩, rfl⟩
    refine congrArg Except.ok ?_
    dsimp only [Except.bind]
    rw [htype]

theorem ofType_of_validate (path : String)
    (h : validateFieldType b v fm.fieldType path = none) : OfType b fm.fieldType v :=
  EventSchemas.hasType_of_validateFieldType path h

/-- What an integer field makes of the text of a number. -/
theorem coerce_integer (htype : fm.fieldType = .integer) (hne : strip s ≠ "")
    (hd : b.decimal (strip s) = some d) (h : coerceValue b fm (.str s) = .ok (.ok v)) :
    ∃ i, truncate d = some (.ok i) ∧ v = .int i := by
  unfold coerceValue at h
  rw [htype] at h
  dsimp only [coerceFromString] at h
  rw [if_neg (by simp [hne]), hd, Option.bind_some] at h
  cases ht : truncate d with
  | none =>
      rw [ht] at h
      cases h
  | some r =>
      rw [ht] at h
      cases r with
      | error e => cases h
      | ok i => exact ⟨i, rfl, (Except.ok.inj (Except.ok.inj h)).symm⟩

/-- What a date field makes of a text. -/
theorem coerce_date (htype : fm.fieldType = .date) (hne : strip s ≠ "")
    (h : coerceValue b fm (.str s) = .ok (.ok v)) :
    ((fm.format.filter (· ≠ "")).toList ++ dateFormats).findSome?
      (fun fmt => (b.strptime (strip s) fmt).map Value.date) = some v := by
  unfold coerceValue at h
  rw [htype] at h
  dsimp only [coerceFromString] at h
  rw [if_neg (by simp [hne])] at h
  have hread := Except.ok.inj h
  unfold CoercionResult.ofOption at hread
  split at hread
  · rename_i v' hv'
    rw [hv']
    exact congrArg some (Except.ok.inj hread)
  · cases hread

/-- A whole number is not changed by cutting off its places. -/
theorem denotesInt_of_truncate {i j : ℤ} (ht : truncate d = some (.ok i)) (hd : DenotesInt d j) :
    DenotesInt d i := by
  obtain ⟨sign, coeff, exp, rfl, hj⟩ := hd
  refine ⟨sign, coeff, exp, rfl, ?_⟩
  obtain rfl : Decimal.signed sign (if 0 ≤ exp then coeff * 10 ^ exp.toNat
      else coeff / 10 ^ (-exp).toNat) = i := Except.ok.inj (Option.some.inj ht)
  have hvalue : (Decimal.signed sign coeff : ℚ) * 10 ^ exp = j := hj
  show (Decimal.signed sign coeff : ℚ) * 10 ^ exp = _
  by_cases hexp : 0 ≤ exp
  · obtain ⟨k, rfl⟩ := Int.eq_ofNat_of_zero_le hexp
    rw [if_pos hexp, Int.toNat_natCast, zpow_natCast, signed_mul]
    push_cast
    rfl
  · obtain ⟨k, rfl⟩ : ∃ k : ℕ, exp = -(k : ℤ) := ⟨(-exp).toNat, by omega⟩
    have hten : (10 : ℚ) ^ k ≠ 0 := by positivity
    rw [zpow_neg, zpow_natCast, ← div_eq_mul_inv, div_eq_iff hten] at hvalue
    have hsigned : Decimal.signed sign coeff = j * 10 ^ k := by exact_mod_cast hvalue
    have hcoeff : coeff = j.natAbs * 10 ^ k := by
      have habs := congrArg Int.natAbs hsigned
      rw [Int.natAbs_mul, Int.natAbs_pow] at habs
      unfold Decimal.signed at habs
      split at habs
      · simpa using habs
      · simpa using habs
    rw [if_neg hexp, neg_neg, Int.toNat_natCast, zpow_neg, zpow_natCast, ← div_eq_mul_inv,
      div_eq_iff hten]
    nth_rewrite 2 [hcoeff]
    rw [Nat.mul_div_cancel _ (by positivity)]
    rw [hcoeff, signed_mul]
    push_cast
    rfl

/-- **Careful fields** are mapped well, where the mapping succeeds. -/
theorem wellMapped_of_careful (hcareful : Careful b rawData fm) (h : MapsTo b rawData fm v) :
    WellMapped b rawData fm v := by
  cases hblank : blank (rawData.get fm.source) with
  | true =>
      obtain ⟨hrequired, hsome, rfl⟩ := (mapsTo_of_blank hblank).mp h
      refine ⟨hcareful.default hblank hrequired hsome, fun _ s _ hs => ?_, fun _ s _ hs => ?_⟩
      · rw [hs.1] at hblank
        cases hblank
      · rw [hs.1] at hblank
        cases hblank
  | false =>
      obtain ⟨w, hw, hc, hvalid⟩ := (mapsTo_of_present hblank).mp h
      have htext : ∀ {s}, ReadsText b rawData fm s → ∃ t, w = .str t ∧ strip t = s ∧ s ≠ "" := by
        rintro s ⟨-, hne, t, ht, hs⟩
        exact ⟨t, Except.ok.inj (hw.symm.trans ht), hs, hne⟩
      refine ⟨ofType_of_validate _ hvalid, fun htype s d hs hd => ?_, fun htype s fmt hs hfmt hne => ?_⟩
      · obtain ⟨j, hj⟩ := hcareful.integer htype s d hs hd
        obtain ⟨t, rfl, rfl, hne⟩ := htext hs
        obtain ⟨i, hi, hv⟩ := coerce_integer htype hne hd hc
        exact ⟨i, hv, denotesInt_of_truncate hi hj⟩
      · have hlater := hcareful.date htype s fmt hs hfmt hne
        obtain ⟨t, rfl, rfl, hne'⟩ := htext hs
        have hfound := coerce_date htype hne' hc
        have hlist : (fm.format.filter (· ≠ "")).toList ++ dateFormats = fmt :: dateFormats := by
          rw [hfmt, Option.filter_some, if_pos (decide_eq_true hne)]
          rfl
        rw [hlist, List.findSome?_cons] at hfound
        cases hd : b.strptime (strip t) fmt with
        | some d =>
            rw [hd] at hfound
            exact ⟨d, (Option.some.inj hfound).symm, rfl⟩
        | none =>
            rw [hd] at hfound
            obtain ⟨other, hother, hread⟩ := List.exists_of_findSome?_eq_some hfound
            obtain ⟨d, hd', -⟩ := Option.map_eq_some_iff.mp hread
            have hdeclared := hlater ⟨other, hother, by rw [hd']; rfl⟩
            rw [hd] at hdeclared
            cases hdeclared

/-- Fields that are mapped well are careful, where the mapping succeeds. -/
theorem careful_of_wellMapped {o : Option Value} (hresult : fieldResult b rawData fm = .ok (.ok o))
    (hwell : ∀ v, MapsTo b rawData fm v → WellMapped b rawData fm v) : Careful b rawData fm := by
  have hpresent : ∀ {s}, ReadsText b rawData fm s → ∃ v, MapsTo b rawData fm v := by
    rintro s ⟨hblank, -⟩
    cases o with
    | some v => exact ⟨v, hresult⟩
    | none =>
        unfold fieldResult at hresult
        dsimp only at hresult
        rw [if_neg (by rw [hblank]; simp), map_eq_ok] at hresult
        obtain ⟨result, -, hnone⟩ := hresult
        cases result with
        | error e => cases hnone
        | ok v => cases hnone
  refine ⟨fun hblank hrequired hsome => ?_, fun htype s d hs hd => ?_,
    fun htype s fmt hs hfmt hne _ => ?_⟩
  · exact (hwell _ ((mapsTo_of_blank hblank).mpr ⟨hrequired, hsome, rfl⟩)).type
  · obtain ⟨v, hv⟩ := hpresent hs
    obtain ⟨i, -, hi⟩ := (hwell v hv).integer htype s d hs hd
    exact ⟨i, hi⟩
  · obtain ⟨v, hv⟩ := hpresent hs
    obtain ⟨d, -, hd⟩ := (hwell v hv).date htype s fmt hs hfmt hne
    rw [hd]
    rfl

/-- **A mapping of fields** returns where nothing in its fields raises; every value that it maps is
one of a field; and where it succeeds, its fields are mapped well just when they are careful. -/
theorem applyMapping_sound_iff (b : Builtins) (rawData : Dict) (fms : List FieldMapping) :
    ((∃ r, applyMapping b rawData fms = .ok r) ↔ ∀ fm ∈ fms, RaiseFree b rawData fm) ∧
      ∀ r, applyMapping b rawData fms = .ok r → r.success = true →
        (∀ path v, r.mappedData.lookup path = some v →
          ∃ fm ∈ fms, fm.target = path ∧ MapsTo b rawData fm v) ∧
        ((∀ fm ∈ fms, ∀ v, MapsTo b rawData fm v → WellMapped b rawData fm v) ↔
          ∀ fm ∈ fms, Careful b rawData fm) := by
  constructor
  · rw [exists_applyMapping_iff]
    exact forall₂_congr fun fm _ => exists_fieldResult_iff
  · intro r hr hsuccess
    obtain ⟨-, hfields, hvalues⟩ := applyMapping_loop hr
    obtain ⟨-, hresults⟩ := hfields (List.isEmpty_iff.mp hsuccess)
    refine ⟨fun path v hv => ?_, fun hwell fm hfm => ?_, fun hcareful fm hfm v hv => ?_⟩
    · rcases hvalues path v hv with hnone | hfield
      · cases hnone
      · exact hfield
    · obtain ⟨o, ho⟩ := hresults fm hfm
      exact careful_of_wellMapped ho (hwell fm hfm)
    · exact wellMapped_of_careful (hcareful fm hfm) hv

/-! ### Fields that are not mapped well -/

/-- Two texts of numbers, and a date in one of the formats. -/
def mappingBuiltins : Builtins :=
  { plainBuiltins [("Infinity", .infinity false), ("1.5", .finite false 15 (-1))] with
    strptime := fun s fmt =>
      if s = "2024-05-17" && fmt = "%Y-%m-%d" then some (Date.of 2024 5 17 (by decide)) else none }

def integerField : FieldMapping := { source := "n", target := "n", fieldType := .integer }

def dateField : FieldMapping :=
  { source := "d", target := "d", fieldType := .date, format := some "%d/%m/%Y" }

/-- An infinity makes the mapping raise; a default is not checked, a fraction is cut off, and a date
is read in another format than the declared one. -/
theorem not_mapped_soundly :
    (¬∃ r, applyMapping mappingBuiltins [("n", .str "Infinity")] [integerField] = .ok r) ∧
      (∃ r, applyMapping mappingBuiltins [] [{ integerField with default := .str "ten" }] = .ok r ∧
        r.success = true ∧ r.mappedData.get "n" = .str "ten" ∧
        ¬OfType mappingBuiltins .integer (.str "ten")) ∧
      (∃ r, applyMapping mappingBuiltins [("n", .str "1.5")] [integerField] = .ok r ∧
        r.success = true ∧ r.mappedData.get "n" = .int 1 ∧
        ¬WellMapped mappingBuiltins [("n", .str "1.5")] integerField (.int 1)) ∧
      ∃ r, applyMapping mappingBuiltins [("d", .str "2024-05-17")] [dateField] = .ok r ∧
        r.success = true ∧ r.mappedData.get "d" = .date (Date.of 2024 5 17 (by decide)) ∧
        mappingBuiltins.strptime "2024-05-17" "%d/%m/%Y" = none := by
  refine ⟨?_, ⟨_, rfl, rfl, rfl, ?_⟩, ⟨_, rfl, rfl, rfl, ?_⟩, ⟨_, rfl, rfl, rfl, rfl⟩⟩
  · rintro ⟨r, hr⟩
    cases hr
  · intro h
    cases h
  · intro h
    have hreads : ReadsText mappingBuiltins [("n", .str "1.5")] integerField "1.5" :=
      ⟨rfl, by decide, "1.5", rfl, rfl⟩
    obtain ⟨i, -, -, -, -, -, hvalue⟩ := h.integer rfl "1.5" (.finite false 15 (-1)) hreads rfl
    have hten : (15 : ℚ) * 10 ^ (-1 : ℤ) = i := hvalue
    rw [zpow_neg_one, ← div_eq_mul_inv, div_eq_iff (by norm_num)] at hten
    have hint : (15 : ℤ) = i * 10 := by exact_mod_cast hten
    omega

end FinanceAccounting.Ingestion
