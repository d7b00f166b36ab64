import FinanceAccounting.Kernel.Ingestor

/-! # Currency codes in payloads

The validation of an event looks for currency codes in dictionaries within dictionaries and lists,
but of a list only the dictionaries are searched, not the lists in it.  So what it has accepted are
the codes that are stored outside of such lists (`validate_nil_iff`), and an accepted event has no
invalid code exactly when there is none in them (`validateEventAmong_sound_iff`). -/

namespace FinanceAccounting.Ingestor

open Hashing (PyVal)

/-! ### Validation against any versions -/

def validateSchemaVersionAmong (schemaVersion : ℤ) (supportedVersions : List ℤ) :
    List ValidationError :=
  if schemaVersion ∈ supportedVersions then []
  else
    [{ code := "UNSUPPORTED_SCHEMA"
       message := "Schema version " ++ toString schemaVersion ++ " not supported"
       supported := some supportedVersions }]

/-- `validate_event` with its optional argument, the versions in ascending order; none and the empty
set stand for the default. -/
def validateEventAmong (isCurrency : String → Bool) (eventType : String)
    (payload : List (String × PyVal)) (schemaVersion : ℤ)
    (supportedVersions : Option (List ℤ)) : List ValidationError :=
  let supported :=
    match supportedVersions with
    | some (v :: vs) => v :: vs
    | _ => supportedSchemaVersions
  validateSchemaVersionAmong schemaVersion supported ++ validateEventType eventType ++
    validateCurrenciesInPayload isCurrency "" payload

/-! ### Where a code is stored -/

/-- The string is stored under a currency key in the value; `hidden` in a list that is an item of a
list. -/
inductive StoredUnderKey (code : String) : Bool → PyVal → Prop
  | here {key : String} {items : List (String × PyVal)}
      (hmem : (key, .scalar (.str code)) ∈ items)
      (hkey : key.toLower ∈ currencyKeys) : StoredUnderKey code false (.dict items)
  | inDict {hidden : Bool} {key : String} {value : PyVal} {items : List (String × PyVal)}
      (hmem : (key, value) ∈ items) (h : StoredUnderKey code hidden value) :
      StoredUnderKey code hidden (.dict items)
  | inList {hidden : Bool} {items : List (String × PyVal)} {xs : List PyVal}
      (hmem : .dict items ∈ xs) (h : StoredUnderKey code hidden (.dict items)) :
      StoredUnderKey code hidden (.list xs)
  | inNested {hidden : Bool} {ys xs : List PyVal} (hmem : .list ys ∈ xs)
      (h : StoredUnderKey code hidden (.list ys)) : StoredUnderKey code true (.list xs)

section Search

variable {isCurrency : String → Bool} {code key : String} {value : PyVal}
variable {items : List (String × PyVal)} {xs : List PyVal}

theorem not_stored_nil : ¬StoredUnderKey code false (.dict []) := by
  intro h
  cases h with
  | here hmem _ => exact absurd hmem List.not_mem_nil
  | inDict hmem _ => exact absurd hmem List.not_mem_nil

theorem stored_cons_iff :
    StoredUnderKey code false (.dict ((key, value) :: items)) ↔
      (value = .scalar (.str code) ∧ key.toLower ∈ currencyKeys) ∨
        StoredUnderKey code false value ∨ StoredUnderKey code false (.dict items) := by
  constructor
  · intro h
    cases h with
    | here hmem hkey =>
        rcases List.mem_cons.mp hmem with heq | hmem
        · obtain ⟨rfl, rfl⟩ := Prod.mk.inj heq
          exact .inl ⟨rfl, hkey⟩
        · exact .inr (.inr (.here hmem hkey))
    | inDict hmem h =>
        rcases List.mem_cons.mp hmem with heq | hmem
        · obtain ⟨rfl, rfl⟩ := Prod.mk.inj heq
          exact .inr (.inl h)
        · exact .inr (.inr (.inDict hmem h))
  · rintro (⟨rfl, hkey⟩ | h | h)
    · exact .here List.mem_cons_self hkey
    · exact .inDict List.mem_cons_self h
    · cases h with
      | here hmem hkey => exact .here (List.mem_cons_of_mem _ hmem) hkey
      | inDict hmem h => exact .inDict (List.mem_cons_of_mem _ hmem) h

theorem not_stored_list_nil : ¬StoredUnderKey code false (.list []) := by
  intro h
  cases h with
  | inList hmem _ => exact absurd hmem List.not_mem_nil

theorem stored_list_cons_iff :
    StoredUnderKey code false (.list (value :: xs)) ↔
      (∃ items, value = .dict items ∧ StoredUnderKey code false value) ∨
        StoredUnderKey code false (.list xs) := by
  constructor
  · intro h
    cases h with
    | inList hmem h =>
        rcases List.mem_cons.mp hmem with rfl | hmem
        · exact .inl ⟨_, rfl, h⟩
        · exact .inr (.inList hmem h)
  · rintro (⟨items, rfl, h⟩ | h)
    · exact .inList List.mem_cons_self h
    · cases h with
      | inList hmem h => exact .inList (List.mem_cons_of_mem _ hmem) h

theorem not_stored_of_scalar {hidden : Bool} (hdict : ∀ items, value ≠ .dict items)
    (hlist : ∀ xs, value ≠ .list xs) : ¬StoredUnderKey code hidden value := by
  intro h
  cases h with
  | here _ _ => exact hdict _ rfl
  | inDict _ _ => exact hdict _ rfl
  | inList _ _ => exact hlist _ rfl
  | inNested _ _ => exact hlist _ rfl

/-! ### What the search accepts -/

/-- A value that is neither a dictionary nor a list passes when it is no invalid code itself. -/
theorem item_nil_iff_of_leaf (path : String) (isKey : Bool)
    (hdict : ∀ items, value ≠ .dict items) (hlist : ∀ xs, value ≠ .list xs)
    (hitem : validateCurrencyItem isCurrency path isKey value = [] ↔
      ∀ code, value = .scalar (.str code) → isKey = true → isCurrency code = true) :
    validateCurrencyItem isCurrency path isKey value = [] ↔
      (∀ code, value = .scalar (.str code) → isKey = true → isCurrency code = true) ∧
        ∀ code, StoredUnderKey code false value → isCurrency code = true := by
  rw [hitem]
  refine ⟨fun h => ⟨h, fun code hstored => ?_⟩, And.left⟩
  exact absurd hstored (not_stored_of_scalar hdict hlist)

/-- An item of a list that is no dictionary changes nothing. -/
theorem skip_item (path : String) (i : ℕ) (hdict : ∀ items, value ≠ .dict items)
    (hxs : validateCurrencyList isCurrency path (i + 1) xs = [] ↔
      ∀ code, StoredUnderKey code false (.list xs) → isCurrency code = true) :
    validateCurrencyList isCurrency path i (value :: xs) = [] ↔
      ∀ code, StoredUnderKey code false (.list (value :: xs)) → isCurrency code = true := by
  have hskip : validateCurrencyList isCurrency path i (value :: xs) =
      validateCurrencyList isCurrency path (i + 1) xs := by
    cases value with
    | dict items => exact absurd rfl (hdict items)
    | _ => rw [validateCurrencyList]; exact fun _ h => nomatch h
  rw [hskip, hxs]
  refine forall_congr' fun code => ?_
  rw [stored_list_cons_iff]
  refine ⟨fun h hstored => ?_, fun h hstored => h (.inr hstored)⟩
  rcases hstored with ⟨items, hitems, _⟩ | hstored
  · exact absurd hitems (hdict items)
  · exact h hstored

end Search

mutual

/-- **What a payload is accepted for**: the codes that are stored in no list of a list are valid. -/
theorem validate_nil_iff {isCurrency : String → Bool} (path : String) :
    ∀ items : List (String × PyVal), validateCurrenciesInPayload isCurrency path items = [] ↔
      ∀ code, StoredUnderKey code false (.dict items) → isCurrency code = true
  | [] => by
      refine ⟨fun _ code h => absurd h not_stored_nil, fun _ => ?_⟩
      rw [validateCurrenciesInPayload]
  | (key, value) :: items => by
      rw [validateCurrenciesInPayload, List.append_eq_nil_iff, item_nil_iff _ _ value,
        validate_nil_iff path items, decide_eq_true_iff]
      constructor
      · rintro ⟨⟨hitem, hvalue⟩, hitems⟩ code hstored
        rcases stored_cons_iff.mp hstored with ⟨hcode, hkey⟩ | h | h
        · exact hitem code hcode hkey
        · exact hvalue code h
        · exact hitems code h
      · intro h
        exact ⟨⟨fun code hcode hkey => h code (stored_cons_iff.mpr (.inl ⟨hcode, hkey⟩)),
          fun code hvalue => h code (stored_cons_iff.mpr (.inr (.inl hvalue)))⟩,
          fun code hitems => h code (stored_cons_iff.mpr (.inr (.inr hitems)))⟩

theorem item_nil_iff {isCurrency : String → Bool} (path : String) (isKey : Bool) :
    ∀ value : PyVal, validateCurrencyItem isCurrency path isKey value = [] ↔
      (∀ code, value = .scalar (.str code) → isKey = true → isCurrency code = true) ∧
        ∀ code, StoredUnderKey code false value → isCurrency code = true
  | .dict items => by
      rw [validateCurrencyItem, validate_nil_iff path items]
      exact ⟨fun h => ⟨fun code hcode => PyVal.noConfusion hcode, h⟩, And.right⟩
  | .list xs => by
      rw [validateCurrencyItem, list_nil_iff path 0 xs]
      exact ⟨fun h => ⟨fun code hcode => PyVal.noConfusion hcode, h⟩, And.right⟩
  | .scalar s => by
      refine item_nil_iff_of_leaf path isKey (fun _ h => nomatch h) (fun _ h => nomatch h) ?_
      cases s with
      | str text =>
          rw [validateCurrencyItem]
          cases isKey <;> cases h : isCurrency text <;> simp [h]
      | _ => simp [validateCurrencyItem]
  | .none => by
      refine item_nil_iff_of_leaf path isKey (fun _ h => nomatch h) (fun _ h => nomatch h) ?_
      simp [validateCurrencyItem]
  | .bool _ => by
      refine item_nil_iff_of_leaf path isKey (fun _ h => nomatch h) (fun _ h => nomatch h) ?_
      simp [validateCurrencyItem]
  | .int _ => by
      refine item_nil_iff_of_leaf path isKey (fun _ h => nomatch h) (fun _ h => nomatch h) ?_
      simp [validateCurrencyItem]
  | .object _ => by
      refine item_nil_iff_of_leaf path isKey (fun _ h => nomatch h) (fun _ h => nomatch h) ?_
      simp [validateCurrencyItem]

theorem list_nil_iff {isCurrency : String → Bool} (path : String) :
    ∀ (i : ℕ) (xs : List PyVal), validateCurrencyList isCurrency path i xs = [] ↔
      ∀ code, StoredUnderKey code false (.list xs) → isCurrency code = true
  | i, [] => by
      refine ⟨fun _ code h => absurd h not_stored_list_nil, fun _ => ?_⟩
      rw [validateCurrencyList]
  | i, .dict items :: xs => by
      rw [validateCurrencyList, List.append_eq_nil_iff, validate_nil_iff _ items,
        list_nil_iff path (i + 1) xs]
      constructor
      · rintro ⟨hitems, hxs⟩ code hstored
        rcases stored_list_cons_iff.mp hstored with ⟨_, _, h⟩ | h
        · exact hitems code h
        · exact hxs code h
      · intro h
        refine ⟨fun code hitems => h code ?_, fun code hxs => h code ?_⟩
        · exact stored_list_cons_iff.mpr (.inl ⟨items, rfl, hitems⟩)
        · exact stored_list_cons_iff.mpr (.inr hxs)
  | i, .list _ :: xs => skip_item path i (fun _ h => nomatch h) (list_nil_iff path (i + 1) xs)
  | i, .scalar _ :: xs => skip_item path i (fun _ h => nomatch h) (list_nil_iff path (i + 1) xs)
  | i, .none :: xs => skip_item path i (fun _ h => nomatch h) (list_nil_iff path (i + 1) xs)
  | i, .bool _ :: xs => skip_item path i (fun _ h => nomatch h) (list_nil_iff path (i + 1) xs)
  | i, .int _ :: xs => skip_item path i (fun _ h => nomatch h) (list_nil_iff path (i + 1) xs)
  | i, .object _ :: xs => skip_item path i (fun _ h => nomatch h) (list_nil_iff path (i + 1) xs)

end

/-! ### Accepted events -/

/-- **An accepted event has no invalid currency code** exactly when there is none in a list that is
an item of a list. -/
theorem validateEventAmong_sound_iff (isCurrency : String → Bool) (eventType : String)
    (payload : List (String × PyVal)) (schemaVersion : ℤ) (supportedVersions : Option (List ℤ))
    (haccepted : validateEventAmong isCurrency eventType payload schemaVersion
      supportedVersions = []) :
    (∀ code hidden, StoredUnderKey code hidden (.dict payload) → isCurrency code = true) ↔
      ∀ code, StoredUnderKey code true (.dict payload) → isCurrency code = true := by
  refine ⟨fun h code => h code true, fun h code hidden hstored => ?_⟩
  cases hidden with
  | false =>
      have hpayload := (List.append_eq_nil_iff.mp haccepted).2
      exact (validate_nil_iff "" payload).mp hpayload code hstored
  | true => exact h code hstored

/-- An invoice with its lines in groups. -/
def groupedLines (code : String) : List (String × PyVal) :=
  [("currency", .scalar (.str "USD")),
    ("lines", .list [.list [.dict [("currency", .scalar (.str code))]]])]

theorem hidden_of_groupedLines {code c : String}
    (h : StoredUnderKey c true (.dict (groupedLines code))) : c = code := by
  rcases h with _ | ⟨hmem, h⟩
  rcases List.mem_cons.mp hmem with heq | hmem
  · obtain ⟨rfl, rfl⟩ := Prod.mk.inj heq
    exact absurd h (not_stored_of_scalar (fun _ h => nomatch h) (fun _ h => nomatch h))
  · obtain ⟨rfl, rfl⟩ := Prod.mk.inj (List.mem_singleton.mp hmem)
    have hline : ∀ hidden, StoredUnderKey c hidden (.list
        [.dict [("currency", .scalar (.str code))]]) → c = code := by
      intro hidden h
      cases h with
      | inNested hmem h => exact absurd (List.mem_singleton.mp hmem) (fun h => nomatch h)
      | inList hmem h =>
          obtain rfl := PyVal.dict.inj (List.mem_singleton.mp hmem)
          cases h with
          | here hmem _ =>
              have heq := (Prod.mk.inj (List.mem_singleton.mp hmem)).2
              exact Hashing.Scalar.str.inj (PyVal.scalar.inj heq)
          | inDict hmem h =>
              obtain ⟨rfl, rfl⟩ := Prod.mk.inj (List.mem_singleton.mp hmem)
              exact absurd h (not_stored_of_scalar (fun _ h => nomatch h) (fun _ h => nomatch h))
    cases h with
    | inList hmem h => exact absurd (List.mem_singleton.mp hmem) (fun h => nomatch h)
    | inNested hmem h =>
        obtain rfl := PyVal.list.inj (List.mem_singleton.mp hmem)
        exact hline _ h

theorem validateEventAmong_grouped :
    validateEventAmong (· = "USD") "ap.invoice_received" (groupedLines "USD") 1 none = [] ∧
      ∀ code hidden, StoredUnderKey code hidden (.dict (groupedLines "USD")) →
        decide (code = "USD") = true := by
  have haccepted : validateEventAmong (· = "USD") "ap.invoice_received" (groupedLines "USD") 1
      none = [] := by decide +kernel
  refine ⟨haccepted, (validateEventAmong_sound_iff _ _ _ _ _ haccepted).mpr fun code hstored => ?_⟩
  exact decide_eq_true (hidden_of_groupedLines hstored)

theorem validateEventAmong_not_sound :
    ¬∀ (isCurrency : String → Bool) (eventType : String) (payload : List (String × PyVal))
        (schemaVersion : ℤ) (supportedVersions : Option (List ℤ)),
      validateEventAmong isCurrency eventType payload schemaVersion supportedVersions = [] →
        ∀ code hidden, StoredUnderKey code hidden (.dict payload) → isCurrency code = true := by
  intro hsound
  have haccepted : validateEventAmong (· = "USD") "ap.invoice_received" (groupedLines "ZZZ") 1
      none = [] := by decide +kernel
  have hstored : StoredUnderKey "ZZZ" true (.dict (groupedLines "ZZZ")) := by
    have hline : StoredUnderKey "ZZZ" false (.list [.dict [("currency", .scalar (.str "ZZZ"))]]) :=
      .inList List.mem_cons_self (.here List.mem_cons_self (by decide +kernel))
    exact .inDict (List.mem_cons_of_mem _ List.mem_cons_self) (.inNested List.mem_cons_self hline)
  have := hsound _ _ _ _ _ haccepted "ZZZ" true hstored
  simp at this

end FinanceAccounting.Ingestor
