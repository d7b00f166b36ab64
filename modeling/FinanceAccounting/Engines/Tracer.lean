import Mathlib.Data.Prod.Lex
import Mathlib.Data.String.Basic
import FinanceAccounting.Kernel.Values
import FinanceAccounting.Library.Decimal
import FinanceAccounting.Library.Digest
import FinanceAccounting.Library.Json
import FinanceAccounting.Library.Ranking
import FinanceAccounting.Library.SeparatedTexts

/-! # The engine tracer

`traced_engine` wraps a pure engine: each invocation that returns is recorded with a fingerprint of the
fields that are passed by keyword.  `_canonicalize` writes a value without quotation marks or escapes,
so that the fingerprint tells apart what is written differently and can be read back
(`engine_traces_identify`), and nothing else (`engine_traces_confuse`).  The digest is the truncated
SHA-256 of the text; it is a parameter. -/

namespace FinanceAccounting.Tracer

open SeparatedTexts (Tree join)

/-! ### Values -/

/-- What the interpreter makes of the finite numbers of type `float`, what they are worth and what
`str` writes, and how deep the calls of `_canonicalize` may be nested. -/
structure Interpreter (φ : Type) where
  value : φ → ℚ
  str : φ → List Char
  nesting : ℕ

/-- Finite numbers, strings that UTF-8 can encode, and dates. -/
inductive Atom (φ : Type) where
  | bool (b : Bool)
  | int (i : ℤ)
  | float (x : φ)
  | decimal (sign : Bool) (coeff : ℕ) (exp : ℤ)
  | str (s : String)
  | date (d : Date)
deriving DecidableEq

/-- `None`, atoms, and nested lists and dicts; a key is an atom or `None`. -/
inductive Value (φ : Type) where
  | none
  | atom (a : Atom φ)
  | list (xs : List (Value φ))
  | dict (ms : List (Option (Atom φ) × Value φ))

inductive PyError where
  | typeError
  | valueError
  | recursionError
deriving DecidableEq, Repr

/-- `sys.int_info.default_max_str_digits`. -/
def maxStrDigits : ℕ := 4300

section Interpreter

variable {φ : Type} (py : Interpreter φ)

/-- `str(a)`. -/
def Atom.text : Atom φ → Except PyError (List Char)
  | bool b => .ok (if b then "True".toList else "False".toList)
  | int i =>
      if Decimal.numDigits i.natAbs ≤ maxStrDigits then .ok (Json.intChars i) else .error .valueError
  | float x => .ok (py.str x)
  | decimal sign coeff exp => .ok (Decimal.finite sign coeff exp).toChars
  | str s => .ok s.toList
  | date d => .ok d.isoformat

/-- `f"{k}"`. -/
def keyText : Option (Atom φ) → Except PyError (List Char)
  | none => .ok "None".toList
  | some a => a.text py

/-! ### Sorted keys -/

/-- The types whose values `<` compares. -/
inductive Kind where
  | number
  | text
  | day
deriving DecidableEq

def kindOf : Option (Atom φ) → Option Kind
  | none => none
  | some (.str _) => some .text
  | some (.date _) => some .day
  | some _ => some .number

/-- `<` does not raise. -/
def Comparable (a b : Option (Atom φ)) : Prop := (kindOf a).isSome ∧ kindOf a = kindOf b

instance : DecidableRel (Comparable (φ := φ)) := fun a b =>
  inferInstanceAs (Decidable ((kindOf a).isSome ∧ kindOf a = kindOf b))

/-- What `<` compares, within a kind. -/
def rank : Option (Atom φ) → ℚ ×ₗ String
  | none => toLex (0, "")
  | some (.bool b) => toLex (if b then 1 else 0, "")
  | some (.int i) => toLex (i, "")
  | some (.float x) => toLex (py.value x, "")
  | some (.decimal sign coeff exp) => toLex (Decimal.toRat (.finite sign coeff exp), "")
  | some (.str s) => toLex (0, s)
  | some (.date d) => toLex (d.toordinal, "")

/-- `sorted(value.items())`: keys are distinct, so values are never compared. -/
def sortedItems {β : Type} (ms : List (Option (Atom φ) × β)) :
    Except PyError (List (Option (Atom φ) × β)) :=
  if (ms.map Prod.fst).Pairwise Comparable then .ok (Ranking.ascending (fun m => rank py m.1) ms)
  else .error .typeError

/-- The results, or the first exception. -/
def sequence {β : Type} (rs : List (Except PyError β)) : Except PyError (List β) := rs.mapM id

/-! ### Canonical texts -/

/-- What is written of the members of a dict, each next to its key. -/
def members {β : Type} (write : Value φ → Except PyError β) (ms : List (Option (Atom φ) × Value φ)) :
    List (Option (Atom φ) × Except PyError (List Char × β)) :=
  ms.map fun m => (m.1, (keyText py m.1).bind fun name => (write m.2).map fun t => (name, t))

/-- `_canonicalize`; the number bounds the nesting of its calls. -/
def canonicalize : ℕ → Value φ → Except PyError (List Char)
  | 0, _ => .error .recursionError
  | _ + 1, .none => .ok "null".toList
  | _ + 1, .atom a => a.text py
  | n + 1, .list xs => (sequence (xs.map (canonicalize n))).map fun ts =>
      '[' :: (join ',' ts ++ [']'])
  | n + 1, .dict ms => (sortedItems py (members py (canonicalize n) ms)).bind fun items =>
      (sequence (items.map Prod.snd)).map fun ps =>
        '\x7b' :: (join ',' (ps.map fun p => p.1 ++ ':' :: p.2) ++ ['\x7d'])

/-- `compute_input_fingerprint`. -/
def computeInputFingerprint (digest : String → String) (fingerprintFields : List String)
    (kwargs : List (String × Value φ)) : Except PyError String :=
  (sequence (fingerprintFields.map fun field =>
    (canonicalize py py.nesting ((kwargs.lookup field).getD .none)).map fun t =>
      field.toList ++ '=' :: t)).map fun parts => digest (String.ofList (join '|' parts))

/-! ### Traced engines -/

structure Invocation (φ : Type) where
  args : List (Value φ)
  kwargs : List (String × Value φ)

structure Engine (φ ε α : Type) where
  engineName : String
  engineVersion : String
  fingerprintFields : List String
  qualname : String
  func : Invocation φ → Except ε α

/-- `FINANCE_ENGINE_TRACE`. -/
structure EngineTrace where
  engineName : String
  engineVersion : String
  inputFingerprint : String
  function : String
deriving DecidableEq, Repr

inductive Raised (ε : Type) where
  | fingerprint (e : PyError)
  | engine (e : ε)

variable (digest : String → String) {ε α : Type} (e : Engine φ ε α)

/-- The fingerprint of an invocation; an engine without fields has none. -/
def Engine.inputFingerprint (inv : Invocation φ) : Except PyError String :=
  if e.fingerprintFields = [] then .ok ""
  else computeInputFingerprint py digest e.fingerprintFields inv.kwargs

/-- The wrapper of `traced_engine`. -/
def Engine.invoke (inv : Invocation φ) : Except (Raised ε) (α × EngineTrace) :=
  match e.inputFingerprint py digest inv with
  | .error error => .error (.fingerprint error)
  | .ok fp =>
      match e.func inv with
      | .error error => .error (.engine error)
      | .ok result => .ok (result, {
          engineName := e.engineName
          engineVersion := e.engineVersion
          inputFingerprint := fp
          function := e.qualname })

end Interpreter

/-! ### What is written -/

section Written

variable {φ : Type} (py : Interpreter φ)

/-- What is written of a value: the texts of its atoms, and the members of a dict in sorted order. -/
def tree : ℕ → Value φ → Except PyError Tree
  | 0, _ => .error .recursionError
  | _ + 1, .none => .ok (.leaf "null".toList)
  | _ + 1, .atom a => (a.text py).map .leaf
  | n + 1, .list xs => (sequence (xs.map (tree n))).map .list
  | n + 1, .dict ms => (sortedItems py (members py (tree n) ms)).bind fun items =>
      (sequence (items.map Prod.snd)).map .dict

/-- The same is written of both. -/
def Alike (v w : Value φ) : Prop := ∃ t, tree py py.nesting v = .ok t ∧ tree py py.nesting w = .ok t

/-- What is written of the value can be read back. -/
def Readable (v : Value φ) : Prop := ∀ t, tree py py.nesting v = .ok t → SeparatedTexts.Plain t

/-- The number of digits is within the limit of `str`. -/
def Short : Option (Atom φ) → Prop
  | some (.int i) => Decimal.numDigits i.natAbs ≤ maxStrDigits
  | _ => True

/-- The keys of a dict are distinct, as they always are, and of one type, no whole number is too long,
and the nesting is not too deep. -/
def Writable : ℕ → Value φ → Prop
  | 0, _ => False
  | _ + 1, .none => True
  | _ + 1, .atom a => Short (some a)
  | n + 1, .list xs => ∀ x ∈ xs, Writable n x
  | n + 1, .dict ms => (ms.map Prod.fst).Pairwise Comparable ∧
      (ms.map fun m => rank py m.1).Nodup ∧ ∀ m ∈ ms, Short m.1 ∧ Writable n m.2

mutual

/-- The same value, up to the order of dict keys. -/
def Same : Value φ → Value φ → Prop
  | .none, .none => True
  | .atom a, .atom b => a = b
  | .list xs, .list ys => SameItems xs ys
  | .dict ms, .dict ns => ∃ ns', ns'.Perm ns ∧ SameMembers ms ns'
  | _, _ => False

def SameItems : List (Value φ) → List (Value φ) → Prop
  | [], [] => True
  | x :: xs, y :: ys => Same x y ∧ SameItems xs ys
  | _, _ => False

def SameMembers : List (Option (Atom φ) × Value φ) → List (Option (Atom φ) × Value φ) → Prop
  | [], [] => True
  | (k, v) :: ms, (l, w) :: ns => k = l ∧ Same v w ∧ SameMembers ms ns
  | _, _ => False

end

/-! ### Sequences -/

section Sequences

variable {β γ : Type} {rs : List (Except PyError β)}

theorem sequence_map (f : β → γ) : sequence (rs.map (Except.map f)) = (sequence rs).map (List.map f) := by
  unfold sequence
  induction rs with
  | nil => rfl
  | cons r rs ih =>
    rw [List.map_cons, List.mapM_cons, List.mapM_cons, ih]
    cases r with
    | error e => rfl
    | ok x => cases rs.mapM id <;> rfl

theorem exists_sequence (h : ∀ r ∈ rs, ∃ x, r = .ok x) : ∃ xs, sequence rs = .ok xs := by
  unfold sequence
  induction rs with
  | nil => exact ⟨[], rfl⟩
  | cons r rs ih =>
    obtain ⟨⟨x, rfl⟩, hrest⟩ := List.forall_mem_cons.mp h
    obtain ⟨xs, hxs⟩ := ih hrest
    exact ⟨x :: xs, by rw [List.mapM_cons, hxs]; rfl⟩

theorem sortedItems_map (g : β → γ) (ms : List (Option (Atom φ) × β)) :
    sortedItems py (ms.map fun m => (m.1, g m.2)) =
      (sortedItems py ms).map (List.map fun m => (m.1, g m.2)) := by
  have hsort : Ranking.ascending (fun m => rank py m.1) (ms.map fun m => (m.1, g m.2)) =
      (Ranking.ascending (fun m => rank py m.1) ms).map fun m => (m.1, g m.2) :=
    Ranking.ascending_map fun _ _ => rfl
  have hkeys : (ms.map fun m => (m.1, g m.2)).map Prod.fst = ms.map Prod.fst := by
    rw [List.map_map]
    rfl
  unfold sortedItems
  rw [hsort, hkeys]
  split <;> rfl

/-- The order of the members does not matter. -/
theorem sortedItems_perm {ms ns : List (Option (Atom φ) × β)} (h : ms.Perm ns)
    (hnodup : (ms.map fun m => rank py m.1).Nodup) :
    sortedItems py ms = sortedItems py ns := by
  have hcomparable : (ms.map Prod.fst).Pairwise Comparable ↔ (ns.map Prod.fst).Pairwise Comparable :=
    (h.map Prod.fst).pairwise_iff fun hab => ⟨hab.2 ▸ hab.1, hab.2.symm⟩
  unfold sortedItems
  rw [Ranking.ascending_congr h fun a ha b hb heq => List.inj_on_of_nodup_map hnodup ha hb heq]
  by_cases hpairwise : (ms.map Prod.fst).Pairwise Comparable
  · rw [if_pos hpairwise, if_pos (hcomparable.mp hpairwise)]
  · rw [if_neg hpairwise, if_neg (hcomparable.not.mp hpairwise)]

end Sequences

/-! ### The text of what is written -/

/-- **The canonical text** is the text of what is written. -/
theorem canonicalize_eq (n : ℕ) (v : Value φ) :
    canonicalize py n v = (tree py n v).map SeparatedTexts.text := by
  induction n generalizing v with
  | zero => rfl
  | succ n ih =>
    cases v with
    | none => rfl
    | atom a =>
      rw [canonicalize, tree]
      cases a.text py <;> rfl
    | list xs =>
      have hitems : xs.map (canonicalize py n) =
          (xs.map (tree py n)).map (Except.map SeparatedTexts.text) := by
        rw [List.map_map]
        exact List.map_congr_left fun x _ => ih x
      rw [canonicalize, tree, hitems, sequence_map]
      cases sequence (xs.map (tree py n)) with
      | error e => rfl
      | ok ts => exact congrArg Except.ok (SeparatedTexts.text_list ts).symm
    | dict ms =>
      have hmembers : members py (canonicalize py n) ms =
          (members py (tree py n) ms).map fun m =>
            (m.1, m.2.map fun p => (p.1, SeparatedTexts.text p.2)) := by
        rw [members, members, List.map_map]
        refine List.map_congr_left fun m _ => ?_
        dsimp only [Function.comp_apply]
        rw [ih]
        cases keyText py m.1 with
        | error e => rfl
        | ok name => cases tree py n m.2 <;> rfl
      rw [canonicalize, tree, hmembers, sortedItems_map]
      cases sortedItems py (members py (tree py n) ms) with
      | error e => rfl
      | ok items =>
        have hsnd : (items.map fun m => (m.1, m.2.map fun p =>
            (p.1, SeparatedTexts.text p.2))).map Prod.snd =
            (items.map Prod.snd).map (Except.map fun p => (p.1, SeparatedTexts.text p.2)) := by
          rw [List.map_map, List.map_map]
          rfl
        show (sequence ((items.map fun m => (m.1, m.2.map fun p =>
          (p.1, SeparatedTexts.text p.2))).map Prod.snd)).map _ = _
        rw [hsnd, sequence_map]
        show _ = ((sequence (items.map Prod.snd)).map Tree.dict).map _
        cases sequence (items.map Prod.snd) with
        | error e => rfl
        | ok ps =>
          refine congrArg Except.ok (Eq.trans ?_ (SeparatedTexts.text_dict ps).symm)
          dsimp only
          rw [List.map_map]
          rfl

/-! ### What can be written -/

theorem exists_keyText {k : Option (Atom φ)} (h : Short k) : ∃ s, keyText py k = .ok s := by
  cases k with
  | none => exact ⟨_, rfl⟩
  | some a =>
    cases a with
    | int i => exact ⟨_, if_pos h⟩
    | _ => exact ⟨_, rfl⟩

/-- **What can be written** is. -/
theorem exists_tree {n : ℕ} {v : Value φ} (h : Writable py n v) :
    ∃ t, tree py n v = .ok t := by
  induction n generalizing v with
  | zero => exact h.elim
  | succ n ih =>
    cases v with
    | none => exact ⟨_, rfl⟩
    | atom a =>
      obtain ⟨s, hs⟩ := exists_keyText py h
      exact ⟨.leaf s, by rw [tree, show a.text py = .ok s from hs]; rfl⟩
    | list xs =>
      obtain ⟨ts, hts⟩ := exists_sequence (List.forall_mem_map.mpr fun x hx => ih (h x hx))
      exact ⟨.list ts, by rw [tree, hts]; rfl⟩
    | dict ms =>
      obtain ⟨hcomparable, -, hmembers⟩ := h
      have hkeys : (members py (tree py n) ms).map Prod.fst = ms.map Prod.fst := by
        rw [members, List.map_map]
        rfl
      have hsorted : sortedItems py (members py (tree py n) ms) =
          .ok (Ranking.ascending (fun m => rank py m.1) (members py (tree py n) ms)) :=
        if_pos (hkeys ▸ hcomparable)
      obtain ⟨ps, hps⟩ := @exists_sequence _ ((Ranking.ascending (fun m => rank py m.1)
          (members py (tree py n) ms)).map Prod.snd) (List.forall_mem_map.mpr fun m hm => by
        obtain ⟨m, hmem, rfl⟩ := List.mem_map.mp (Ranking.mem_ascending.mp hm)
        obtain ⟨hshort, hwritable⟩ := hmembers m hmem
        obtain ⟨name, hname⟩ := exists_keyText py hshort
        obtain ⟨t, ht⟩ := ih hwritable
        exact ⟨(name, t), by rw [hname, ht]; rfl⟩)
      refine ⟨.dict ps, ?_⟩
      rw [tree, hsorted]
      show (sequence _).map _ = _
      rw [hps]
      rfl

/-! ### The same values -/

theorem sameItems_map {f : Value φ → Except PyError Tree} : ∀ {xs ys : List (Value φ)},
    (∀ x ∈ xs, ∀ y, Same x y → f x = f y) → SameItems xs ys → xs.map f = ys.map f
  | [], [], _, _ => rfl
  | x :: xs, y :: ys, hf, h => by
      rw [SameItems] at h
      obtain ⟨hx, hxs⟩ := List.forall_mem_cons.mp hf
      rw [List.map_cons, List.map_cons, hx y h.1, sameItems_map hxs h.2]

theorem sameMembers_map {f : Value φ → Except PyError Tree} :
    ∀ {ms ns : List (Option (Atom φ) × Value φ)},
      (∀ m ∈ ms, ∀ w, Same m.2 w → f m.2 = f w) → SameMembers ms ns →
        members py f ms = members py f ns
  | [], [], _, _ => rfl
  | (k, v) :: ms, (l, w) :: ns, hf, h => by
      rw [SameMembers] at h
      obtain ⟨rfl, hvw, hrest⟩ := h
      obtain ⟨hm, hms⟩ := List.forall_mem_cons.mp hf
      have htail := sameMembers_map hms hrest
      unfold members at htail ⊢
      rw [List.map_cons, List.map_cons, htail]
      dsimp only at hm ⊢
      rw [hm w hvw]

/-- **Of the same value the same is written.** -/
theorem tree_eq_of_same {n : ℕ} {v w : Value φ} (hv : Writable py n v) (h : Same v w) :
    tree py n v = tree py n w := by
  induction n generalizing v w with
  | zero => exact hv.elim
  | succ n ih =>
    cases v with
    | none =>
      cases w <;> simp only [Same] at h
      rfl
    | atom a =>
      cases w <;> simp only [Same] at h
      rw [h]
    | list xs =>
      cases w <;> simp only [Same] at h
      rw [tree, tree, sameItems_map (fun x hx y hxy => ih (hv x hx) hxy) h]
    | dict ms =>
      cases w <;> simp only [Same] at h
      obtain ⟨ns', hperm, hsame⟩ := h
      obtain ⟨-, hranks, hmembers⟩ := hv
      have hnodup : ((members py (tree py n) ms).map fun m => rank py m.1).Nodup := by
        rw [members, List.map_map]
        exact hranks
      rw [tree, tree, @sortedItems_perm _ py _ _ (members py (tree py n) _) ?_ hnodup]
      rw [sameMembers_map py (fun m hm w hw => ih (hmembers m hm).2 hw) hsame]
      exact hperm.map _

/-- What is the same is written alike. -/
theorem alike_of_same {v w : Value φ} (hv : Writable py py.nesting v) (h : Same v w) :
    Alike py v w := by
  obtain ⟨t, ht⟩ := exists_tree py hv
  exact ⟨t, ht, tree_eq_of_same py hv h ▸ ht⟩

/-! ### Fingerprints -/

/-- The value that is passed for a field by keyword; `None` where there is none. -/
def Invocation.keyword (inv : Invocation φ) (field : String) : Value φ :=
  (inv.kwargs.lookup field).getD .none

/-- The text of the fingerprint, of fields that can be written. -/
theorem computeInputFingerprint_eq (digest : String → String) {fields : List String}
    {inv : Invocation φ} {trees : String → Tree}
    (h : ∀ f ∈ fields, tree py py.nesting (inv.keyword f) = .ok (trees f)) :
    computeInputFingerprint py digest fields inv.kwargs = .ok (digest (String.ofList
      (join '|' (fields.map fun f => f.toList ++ '=' :: SeparatedTexts.text (trees f))))) := by
  have hparts : sequence (fields.map fun field =>
      (canonicalize py py.nesting ((inv.kwargs.lookup field).getD .none)).map fun t =>
        field.toList ++ '=' :: t) =
      .ok (fields.map fun f => f.toList ++ '=' :: SeparatedTexts.text (trees f)) := by
    unfold sequence
    induction fields with
    | nil => rfl
    | cons f fields ih =>
      obtain ⟨hf, hrest⟩ := List.forall_mem_cons.mp h
      have hcanonical : canonicalize py py.nesting ((inv.kwargs.lookup f).getD .none) =
          .ok (SeparatedTexts.text (trees f)) := by
        rw [canonicalize_eq, show tree py py.nesting ((inv.kwargs.lookup f).getD .none) = _ from hf]
        rfl
      rw [List.map_cons, List.mapM_cons, ih hrest, hcanonical]
      rfl
  unfold computeInputFingerprint
  rw [hparts]
  rfl

/-- The fingerprints of two invocations whose fields can be written. -/
theorem exists_fingerprints {ε α : Type} (digest : String → String) (e : Engine φ ε α)
    {a b : Invocation φ} (ha : ∀ f ∈ e.fingerprintFields, Writable py py.nesting (a.keyword f))
    (hb : ∀ f ∈ e.fingerprintFields, Writable py py.nesting (b.keyword f)) :
    ∃ x y, e.inputFingerprint py digest a = .ok x ∧ e.inputFingerprint py digest b = .ok y ∧
      ((∀ f ∈ e.fingerprintFields, Alike py (a.keyword f) (b.keyword f)) → x = y) ∧
      (Function.Injective digest → (∀ f ∈ e.fingerprintFields, Readable py (a.keyword f) ∧
        Readable py (b.keyword f)) → x = y →
          ∀ f ∈ e.fingerprintFields, Alike py (a.keyword f) (b.keyword f)) := by
  by_cases hfields : e.fingerprintFields = []
  · refine ⟨"", "", if_pos hfields, if_pos hfields, fun _ => rfl, fun _ _ _ f hf => ?_⟩
    rw [hfields] at hf
    cases hf
  · have hchoice : ∀ inv : Invocation φ, (∀ f ∈ e.fingerprintFields, Writable py py.nesting (inv.keyword f)) →
        ∃ trees : String → Tree, ∀ f ∈ e.fingerprintFields,
          tree py py.nesting (inv.keyword f) = .ok (trees f) := by
      intro inv hinv
      choose! trees htrees using fun f (hf : f ∈ e.fingerprintFields) => exists_tree py (hinv f hf)
      exact ⟨trees, htrees⟩
    obtain ⟨t, ht⟩ := hchoice a ha
    obtain ⟨u, hu⟩ := hchoice b hb
    refine ⟨_, _, (if_neg hfields).trans (computeInputFingerprint_eq py digest ht),
      (if_neg hfields).trans (computeInputFingerprint_eq py digest hu), fun halike => ?_,
      fun hdigest hreadable heq => ?_⟩
    · have htu : ∀ f ∈ e.fingerprintFields, t f = u f := by
        intro f hf
        obtain ⟨r, hr, hr'⟩ := halike f hf
        rw [ht f hf] at hr
        rw [hu f hf] at hr'
        exact (Except.ok.inj hr).trans (Except.ok.inj hr').symm
      rw [List.map_congr_left fun f hf => by rw [htu f hf]]
    · have htexts := String.ofList_injective (hdigest heq)
      have hpairs := SeparatedTexts.join_inj
        (e.fingerprintFields.map fun f => (f.toList ++ ['='], t f, u f))
        (List.forall_mem_map.mpr fun f hf =>
          ⟨(hreadable f hf).1 _ (ht f hf), (hreadable f hf).2 _ (hu f hf)⟩)
        (by simpa [List.map_map, Function.comp_def] using htexts)
      intro f hf
      have htu : t f = u f := hpairs _ (List.mem_map_of_mem hf)
      exact ⟨t f, ht f hf, by rw [hu f hf, htu]⟩

theorem inputFingerprint_of_invoke {ε α : Type} {digest : String → String} {e : Engine φ ε α}
    {inv : Invocation φ} {x : String} {result : α} {trace : EngineTrace}
    (hx : e.inputFingerprint py digest inv = .ok x)
    (h : e.invoke py digest inv = .ok (result, trace)) : trace.inputFingerprint = x := by
  unfold Engine.invoke at h
  rw [hx] at h
  dsimp only at h
  split at h
  · cases h
  · cases h
    rfl

/-- **Engine traces identify what is passed by keyword**, under a digest without collisions: where the
fields can be written the fingerprints are computed and recorded; they are equal for the same values, and
for values that can be read back exactly when these are written alike. -/
theorem engine_traces_identify {ε α : Type} {digest : String → String}
    (hdigest : Function.Injective digest) (e : Engine φ ε α) (a b : Invocation φ)
    (ha : ∀ f ∈ e.fingerprintFields, Writable py py.nesting (a.keyword f))
    (hb : ∀ f ∈ e.fingerprintFields, Writable py py.nesting (b.keyword f)) :
    ∃ x y, e.inputFingerprint py digest a = .ok x ∧ e.inputFingerprint py digest b = .ok y ∧
      (∀ result trace, e.invoke py digest a = .ok (result, trace) → trace.inputFingerprint = x) ∧
      (∀ result trace, e.invoke py digest b = .ok (result, trace) → trace.inputFingerprint = y) ∧
      ((∀ f ∈ e.fingerprintFields, Same (a.keyword f) (b.keyword f)) → x = y) ∧
      ((∀ f ∈ e.fingerprintFields, Readable py (a.keyword f) ∧ Readable py (b.keyword f)) →
        (x = y ↔ ∀ f ∈ e.fingerprintFields, Alike py (a.keyword f) (b.keyword f))) := by
  obtain ⟨x, y, hx, hy, hequal, hread⟩ := exists_fingerprints py digest e ha hb
  refine ⟨x, y, hx, hy, fun _ _ => inputFingerprint_of_invoke py hx,
    fun _ _ => inputFingerprint_of_invoke py hy, fun hsame => ?_,
    fun hreadable => ⟨hread hdigest hreadable, hequal⟩⟩
  exact hequal fun f hf => alike_of_same py (ha f hf) (hsame f hf)

end Written

/-! ### An allocation cascade -/

def noFloats : Interpreter Empty := ⟨nofun, nofun, 400⟩

/-- A function of this signature; its result does not matter. -/
def sampleEngine : Engine Empty Unit Unit where
  engineName := "allocation_cascade"
  engineVersion := "1.0"
  fingerprintFields := ["steps", "pool_balances", "rates"]
  qualname := "execute_cascade"
  func _ := .ok ()

/-- Rates in hundredths, by their names. -/
def sampleRates (fringe overhead : ℕ) : Value Empty := .dict [
  (some (.str "overhead"), .atom (.decimal false overhead (-2))),
  (some (.str "fringe"), .atom (.decimal false fringe (-2)))]

def sampleInvocation (rates : Value Empty) : Invocation Empty where
  args := []
  kwargs := [("steps", .list []), ("pool_balances", .dict []), ("rates", rates)]

/-- The digests of two texts. -/
def sampleDigests : List (String × String) := [
  ("steps=[]|pool_balances=\x7b\x7d|rates=\x7bfringe:0.35,overhead:1.10\x7d", "d51d2f971c0f5ac0"),
  ("steps=[]|pool_balances=\x7b\x7d|rates=\x7bfringe:0.36,overhead:1.10\x7d", "d8950bdabfe70f23")]

theorem injective_sampleDigests : Function.Injective (Digest.tableDigest sampleDigests) :=
  Digest.injective_tableDigest (n := 16) (by decide) (by decide) (by decide)

/-- The invocations with a rate of 0.35 and of 0.36 are told apart. -/
theorem engine_traces_identify_rates : ∃ x y,
    sampleEngine.inputFingerprint noFloats (Digest.tableDigest sampleDigests)
      (sampleInvocation (sampleRates 35 110)) = .ok x ∧
    sampleEngine.inputFingerprint noFloats (Digest.tableDigest sampleDigests)
      (sampleInvocation (sampleRates 36 110)) = .ok y ∧ x ≠ y := by
  have hfields : ∀ {P : String → Prop}, P "steps" → P "pool_balances" → P "rates" →
      ∀ f ∈ sampleEngine.fingerprintFields, P f := by
    intro P hsteps hpools hrates
    simpa [sampleEngine] using ⟨hsteps, hpools, hrates⟩
  have hwritable : ∀ fringe, ∀ f ∈ sampleEngine.fingerprintFields,
      Writable noFloats 400 ((sampleInvocation (sampleRates fringe 110)).keyword f) := by
    refine fun fringe => hfields (fun x hx => nomatch hx) ⟨.nil, .nil, fun m hm => nomatch hm⟩ ?_
    show Writable noFloats 400 (sampleRates fringe 110)
    simp [sampleRates, Writable, Short, Comparable, kindOf, rank]
  have h35 : tree noFloats 400 (sampleRates 35 110) = .ok (.dict [("fringe".toList, .leaf "0.35".toList),
      ("overhead".toList, .leaf "1.10".toList)]) := rfl
  have h36 : tree noFloats 400 (sampleRates 36 110) = .ok (.dict [("fringe".toList, .leaf "0.36".toList),
      ("overhead".toList, .leaf "1.10".toList)]) := rfl
  have hreadable : ∀ {fringe text}, tree noFloats 400 (sampleRates fringe 110) = .ok (.dict [
      ("fringe".toList, .leaf text), ("overhead".toList, .leaf "1.10".toList)]) →
      SeparatedTexts.Plain (.leaf text) → ∀ f ∈ sampleEngine.fingerprintFields,
        Readable noFloats ((sampleInvocation (sampleRates fringe 110)).keyword f) := by
    intro fringe text hrates hplain
    refine hfields (fun t ht => ?_) (fun t ht => ?_) fun t ht => ?_
    · obtain rfl := Except.ok.inj (show Except.ok (Tree.list []) = Except.ok t from ht)
      simp [SeparatedTexts.Plain, SeparatedTexts.PlainItems]
    · obtain rfl := Except.ok.inj (show Except.ok (Tree.dict []) = Except.ok t from ht)
      simp [SeparatedTexts.Plain, SeparatedTexts.PlainMembers]
    · obtain rfl := Except.ok.inj (hrates.symm.trans ht)
      rw [SeparatedTexts.Plain, SeparatedTexts.PlainMembers, SeparatedTexts.PlainMembers]
      exact ⟨by simp, hplain, by simp,
        by simp [SeparatedTexts.Plain, SeparatedTexts.stops],
        by simp [SeparatedTexts.PlainMembers]⟩
  obtain ⟨x, y, hx, hy, -, -, -, hiff⟩ := engine_traces_identify noFloats injective_sampleDigests
    sampleEngine (sampleInvocation (sampleRates 35 110)) (sampleInvocation (sampleRates 36 110))
    (hwritable 35) (hwritable 36)
  refine ⟨x, y, hx, hy, fun heq => ?_⟩
  obtain ⟨t, ht, ht'⟩ := (hiff fun f hf => ⟨
    hreadable h35 (by simp [SeparatedTexts.Plain, SeparatedTexts.stops]) f hf,
    hreadable h36 (by simp [SeparatedTexts.Plain, SeparatedTexts.stops]) f hf⟩).mp heq "rates" (by decide)
  have hdict := (Except.ok.inj (h35.symm.trans ht)).trans (Except.ok.inj (h36.symm.trans ht')).symm
  simp at hdict

/-- **Different values are confused, and equal numbers told apart**: the number 1 and the text, values that
are passed by position, one text with a comma and two texts; 1.0 and 1.00. -/
theorem engine_traces_confuse :
    let fp (inv : Invocation Empty) := computeInputFingerprint noFloats Digest.spell ["x"] inv.kwargs
    let kw (v : Value Empty) : Invocation Empty := ⟨[], [("x", v)]⟩
    let str (s : String) : Value Empty := .atom (.str s)
    let int (i : ℤ) : Value Empty := .atom (.int i)
    (fp (kw (int 1)) = fp (kw (str "1")) ∧ ¬Same (int 1) (str "1")) ∧
    (fp ⟨[int 1], []⟩ = fp ⟨[int 2], []⟩ ∧ ¬Same (int 1) (int 2)) ∧
    (fp (kw (.list [str "a,b"])) = fp (kw (.list [str "a", str "b"])) ∧
      ¬Same (.list [str "a,b"]) (.list [str "a", str "b"])) ∧
    fp (kw (.atom (.decimal false 10 (-1)))) ≠ fp (kw (.atom (.decimal false 100 (-2)))) := by
  refine ⟨⟨rfl, by simp [Same]⟩, ⟨rfl, by simp [Same]⟩, ⟨rfl, by simp [Same, SameItems]⟩, ?_⟩
  decide

end FinanceAccounting.Tracer
