import FinanceAccounting.Ingestion.Staging
import FinanceAccounting.Library.Traversals
import Mathlib.Data.Nat.Count

/-! # Automatic codes

`auto_assign_codes` gives a code to every record of a batch that has none.  The codes in use are
those of the batch and some of the live ones; each new code is added to them.  A generator is right
as long as each code that it gives is neither in use nor live (`FreeCodes`), and what this takes is
different for each: accounts need numbers that can be read, the names of vendors and customers are
those that are not in use, and the other names are counted from the number of codes in use
(`freeCodes_iff`). -/

namespace FinanceAccounting.Ingestion

open UnitOfWork (Result Session)
open Traversals (bind_eq_ok ite_eq_ok mapM_eq_ok_iff mem_of_mapM exists_mapM)

/-! ### What the codes are for -/

/-- The live codes that the code of an entity must differ from: a party has a code of its own, and
so have the vendors and customers. -/
def liveCodes (columns : Columns) (entityType : String) : List String :=
  if entityType = "account" then columns.accounts
  else if entityType = "party" then columns.parties.map Prod.snd
  else if entityType = "vendor" then columns.parties.map Prod.snd ++ columns.vendors
  else if entityType = "customer" then columns.parties.map Prod.snd ++ columns.customers
  else []

/-- The codes that are generated one after another. -/
def newCodes (b : Builtins) (entityType : String) (used : List String) :
    ℕ → Except Raised (List String)
  | 0 => .ok []
  | missing + 1 => do
      let code ← nextCode b entityType used
      let codes ← newCodes b entityType (used.insert code) missing
      return code :: codes

/-- Each code that is generated is neither in use nor live. -/
def FreeCodes (b : Builtins) (entityType : String) (live : List String) :
    List String → ℕ → Prop
  | _, 0 => True
  | used, missing + 1 => ∃ code, nextCode b entityType used = .ok code ∧ code ∉ used ∧
      code ∉ live ∧ FreeCodes b entityType live (used.insert code) missing

/-- **What every code that is generated is**, about all of them. -/
theorem freeCodes_iff_newCodes {b : Builtins} {entityType : String} {live used : List String}
    {missing : ℕ} :
    FreeCodes b entityType live used missing ↔
      ∃ codes, newCodes b entityType used missing = .ok codes ∧ codes.Nodup ∧
        ∀ code ∈ codes, code ∉ used ∧ code ∉ live := by
  induction missing generalizing used with
  | zero => exact ⟨fun _ => ⟨[], rfl, List.nodup_nil, by simp⟩, fun _ => trivial⟩
  | succ missing ih =>
      constructor
      · rintro ⟨code, hnext, hused, hlive, hrest⟩
        obtain ⟨codes, hcodes, hnodup, hfree⟩ := ih.mp hrest
        refine ⟨code :: codes, ?_, ?_, ?_⟩
        · exact bind_eq_ok.mpr ⟨code, hnext, bind_eq_ok.mpr ⟨codes, hcodes, rfl⟩⟩
        · refine List.nodup_cons.mpr ⟨fun hmem => ?_, hnodup⟩
          exact (hfree code hmem).1 List.mem_insert_self
        · rintro other hother
          rcases List.mem_cons.mp hother with rfl | hother
          · exact ⟨hused, hlive⟩
          · obtain ⟨hfresh, hother⟩ := hfree other hother
            exact ⟨fun hmem => hfresh (List.mem_insert_of_mem hmem), hother⟩
      · rintro ⟨all, hall, hnodup, hfree⟩
        obtain ⟨code, hnext, hall⟩ := bind_eq_ok.mp hall
        obtain ⟨codes, hcodes, hall⟩ := bind_eq_ok.mp hall
        obtain rfl := Except.ok.inj hall
        obtain ⟨hhead, hnodup⟩ := List.nodup_cons.mp hnodup
        obtain ⟨hused, hlive⟩ := hfree code List.mem_cons_self
        refine ⟨code, hnext, hused, hlive, ih.mpr ⟨codes, hcodes, hnodup, fun other hother => ?_⟩⟩
        obtain ⟨hother', hlive'⟩ := hfree other (List.mem_cons_of_mem code hother)
        refine ⟨fun hmem => ?_, hlive'⟩
        rcases List.mem_insert_iff.mp hmem with rfl | hmem
        · exact hhead hother
        · exact hother' hmem

/-! ### Names with numbers -/

section Names

variable {name : ℕ → String} {live used : List String} {missing start : ℕ}

/-- The name that is found is not used. -/
theorem firstFree_notMem {name : ℕ → String} (hname : Function.Injective name)
    (used : List String) (start : ℕ) : firstFree name used start ∉ used := by
  unfold firstFree
  have hnodup : ((List.range (used.length + 1)).map fun k => name (start + k)).Nodup :=
    List.nodup_range.map fun a b h => by
      have h' := hname h
      omega
  cases hfind : ((List.range (used.length + 1)).map fun k => name (start + k)).find?
      fun c => !used.contains c with
  | some c =>
      have hfree := List.find?_some hfind
      simpa using hfree
  | none =>
      have hsubset : ((List.range (used.length + 1)).map fun k => name (start + k)) ⊆ used := by
        intro c hc
        have hused := List.find?_eq_none.mp hfind c hc
        simpa using hused
      have hlength := (List.subperm_of_subset hnodup hsubset).length_le
      rw [List.length_map, List.length_range] at hlength
      omega

/-- What the search for a name finds. -/
theorem firstFree_spec (hname : Function.Injective name) (used : List String) (start : ℕ) :
    ∃ n, firstFree name used start = name n ∧ start ≤ n ∧ name n ∉ used ∧
      ∀ j, start ≤ j → j < n → name j ∈ used := by
  have hfree := firstFree_notMem hname used start
  unfold firstFree at hfree ⊢
  rw [List.find?_map] at hfree ⊢
  cases hfind : (List.range (used.length + 1)).find? ((fun c => !used.contains c) ∘ fun k =>
      name (start + k)) with
  | none =>
      rw [hfind] at hfree
      exact ⟨start, rfl, le_rfl, hfree, fun j hj hlt => by omega⟩
  | some k =>
      rw [hfind] at hfree
      refine ⟨start + k, rfl, by omega, hfree, fun j hj hlt => ?_⟩
      have hbefore := (List.find?_range_eq_some.mp hfind).2.2 (j - start) (by omega)
      have hsum : start + (j - start) = j := by omega
      simpa [hsum] using hbefore

/-- The numbers below one whose names are not in use. -/
def unusedBelow (name : ℕ → String) (used : List String) (n : ℕ) : ℕ :=
  Nat.count (fun j => 1 ≤ j ∧ name j ∉ used) n

/-- Every live name is in use, or stands after so many that are not. -/
def LiveNamesLate (name : ℕ → String) (live used : List String) (missing : ℕ) : Prop :=
  ∀ n, 1 ≤ n → name n ∈ live → name n ∈ used ∨ missing ≤ unusedBelow name used n

theorem unusedBelow_insert (hname : Function.Injective name) {m : ℕ} (hpos : 1 ≤ m)
    (hunused : name m ∉ used) (n : ℕ) :
    unusedBelow name used n =
      unusedBelow name (used.insert (name m)) n + if m < n then 1 else 0 := by
  unfold unusedBelow
  induction n with
  | zero => rfl
  | succ n ih =>
      rw [Nat.count_succ, Nat.count_succ, ih]
      by_cases hn : n = m
      · subst hn
        have hfirst : (1 ≤ n ∧ name n ∉ used) := ⟨hpos, hunused⟩
        have hsecond : ¬(1 ≤ n ∧ name n ∉ used.insert (name n)) :=
          fun h => h.2 List.mem_insert_self
        rw [if_pos hfirst, if_neg hsecond, if_neg (lt_irrefl n), if_pos (Nat.lt_succ_self n)]
      · have hsame : (1 ≤ n ∧ name n ∉ used.insert (name m)) ↔ 1 ≤ n ∧ name n ∉ used := by
          rw [List.mem_insert_iff, or_iff_right fun h => hn (hname h)]
        have hlt : m < n + 1 ↔ m < n := by omega
        simp only [hsame, hlt]
        omega

/-- **One name** is taken. -/
theorem liveNamesLate_succ (hname : Function.Injective name) :
    LiveNamesLate name live used (missing + 1) ↔
      firstFree name used 1 ∉ live ∧
        LiveNamesLate name live (used.insert (firstFree name used 1)) missing := by
  obtain ⟨m, hfound, hpos, hunused, hbefore⟩ := firstFree_spec hname used 1
  rw [hfound]
  have hzero : unusedBelow name used m = 0 := by
    unfold unusedBelow
    rw [Nat.count_iff_forall_not]
    rintro j hj ⟨hone, hnot⟩
    exact hnot (hbefore j hone hj)
  constructor
  · intro h
    refine ⟨fun hlive => ?_, fun n hn hlive => ?_⟩
    · rcases h m hpos hlive with hused | hlate
      · exact hunused hused
      · omega
    · rcases h n hn hlive with hused | hlate
      · exact .inl (List.mem_insert_of_mem hused)
      · have hcount := unusedBelow_insert hname hpos hunused n
        refine .inr ?_
        split at hcount
        · omega
        · omega
  · rintro ⟨hlive, hlate⟩ n hn hmem
    by_cases hused : name n ∈ used
    · exact .inl hused
    · have hne : n ≠ m := fun h => hlive (h ▸ hmem)
      have hlt : m < n := by
        by_contra hle
        exact hused (hbefore n hn (by omega))
      rcases hlate n hn hmem with hinsert | hlate
      · rcases List.mem_insert_iff.mp hinsert with h | h
        · exact absurd (hname h) hne
        · exact absurd h hused
      · have hcount := unusedBelow_insert hname hpos hunused n
        rw [if_pos hlt] at hcount
        exact .inr (by omega)

end Names

/-! ### The texts of the codes -/

/-- A text with characters, none of which is white space. -/
def Solid (s : String) : Prop := s ≠ "" ∧ ∀ c ∈ s.toList, isSpace c = false

theorem Solid.strip {s : String} (h : Solid s) : strip s = s := by
  have hdrop : ∀ cs : List Char, (∀ c ∈ cs, isSpace c = false) → cs.dropWhile isSpace = cs := by
    intro cs hcs
    cases cs with
    | nil => rfl
    | cons c cs => exact List.dropWhile_cons_of_neg (by rw [hcs c List.mem_cons_self]; simp)
  unfold FinanceAccounting.strip
  rw [hdrop _ h.2, hdrop _ fun c hc => h.2 c (List.mem_reverse.mp hc), List.reverse_reverse,
    String.ofList_toList]

theorem solid_of_all {s : String} (hne : s ≠ "")
    (hall : (s.toList.all fun c => !isSpace c) = true) : Solid s :=
  ⟨hne, fun c hc => by simpa using List.all_eq_true.mp hall c hc⟩

theorem Solid.append {s t : String} (hs : Solid s) (ht : ∀ c ∈ t.toList, isSpace c = false) :
    Solid (s ++ t) := by
  refine ⟨fun h => hs.1 ?_, fun c hc => ?_⟩
  · have hnil := congrArg String.toList h
    rw [String.toList_append] at hnil
    exact String.toList_inj.mp (List.append_eq_nil_iff.mp hnil).1
  · rw [String.toList_append] at hc
    rcases List.mem_append.mp hc with hc | hc
    · exact hs.2 c hc
    · exact ht c hc

theorem isSpace_of_isDigit {c : Char} (h : c.isDigit = true) : isSpace c = false := by
  have hbounds : 48 ≤ c.toNat ∧ c.toNat ≤ 57 := by
    simp only [Char.isDigit, Bool.and_eq_true, decide_eq_true_eq] at h
    exact ⟨UInt32.le_iff_toNat_le.mp h.1, UInt32.le_iff_toNat_le.mp h.2⟩
  unfold isSpace
  dsimp only
  simp only [Bool.or_eq_false_iff, Bool.and_eq_false_iff, decide_eq_false_iff_not]
  omega

theorem toList_toString (n : ℕ) : (toString n).toList = Nat.toDigits 10 n := by
  rw [Nat.toString_eq_ofList_toDigits, String.toList_ofList]

theorem toString_injective : Function.Injective (toString : ℕ → String) := by
  intro m n h
  have hdigits := congrArg String.toList h
  rw [toList_toString, toList_toString] at hdigits
  exact Numeral.toDigits_injective hdigits

theorem isSpace_toString {n : ℕ} {c : Char} (h : c ∈ (toString n).toList) : isSpace c = false := by
  rw [toList_toString] at h
  exact isSpace_of_isDigit (Numeral.isDigit_of_mem h)

theorem solid_toString (n : ℕ) : Solid (toString n) := by
  refine ⟨fun h => ?_, fun c hc => isSpace_toString hc⟩
  have hnil := congrArg String.toList h
  rw [toList_toString] at hnil
  exact Nat.toDigits_ne_nil hnil

theorem toList_threeDigits (n : ℕ) :
    (threeDigits n).toList =
      List.replicate (3 - (Nat.toDigits 10 n).length) '0' ++ Nat.toDigits 10 n := by
  unfold threeDigits String.leftpad
  rw [String.toList_ofList, toList_toString]
  rfl

theorem threeDigits_injective : Function.Injective threeDigits := by
  intro m n h
  have hvalue : ∀ k, Nat.ofDigitChars 10 (threeDigits k).toList 0 = k := by
    intro k
    rw [toList_threeDigits, Nat.ofDigitChars_append, Nat.ofDigitChars_replicate_zero, mul_zero,
      Nat.ofDigitChars_ten_toDigits]
  rw [← hvalue m, h, hvalue n]

theorem isSpace_threeDigits {n : ℕ} {c : Char} (h : c ∈ (threeDigits n).toList) :
    isSpace c = false := by
  rw [toList_threeDigits] at h
  rcases List.mem_append.mp h with h | h
  · rw [List.eq_of_mem_replicate h]
    rfl
  · exact isSpace_of_isDigit (Numeral.isDigit_of_mem h)

theorem append_injective {β : Type} (text : String) {name : β → String}
    (hname : Function.Injective name) : Function.Injective fun n => text ++ name n := by
  intro m n h
  have hlists := congrArg String.toList h
  simp only [String.toList_append] at hlists
  exact hname (String.toList_inj.mp (List.append_cancel_left hlists))

theorem solid_nextCode {b : Builtins} {entityType code : String} {used : List String}
    (h : nextCode b entityType used = .ok code) : Solid code := by
  unfold nextCode at h
  split at h
  · obtain ⟨numerics, -, h⟩ := bind_eq_ok.mp h
    unfold numeralText at h
    split at h
    · cases h
    · obtain rfl := Except.ok.inj h
      obtain ⟨n, hn, -⟩ := firstFree_spec toString_injective used ((numerics.foldl max 0).toNat + 1)
      rw [hn]
      exact solid_toString n
  · split at h
    · obtain rfl := Except.ok.inj h
      obtain ⟨n, hn, -⟩ := firstFree_spec (append_injective "V-" threeDigits_injective) used 1
      rw [hn]
      exact Solid.append (solid_of_all (by decide) (by decide)) fun c hc => isSpace_threeDigits hc
    · split at h
      · obtain rfl := Except.ok.inj h
        obtain ⟨n, hn, -⟩ := firstFree_spec (append_injective "C-" threeDigits_injective) used 1
        rw [hn]
        exact Solid.append (solid_of_all (by decide) (by decide)) fun c hc => isSpace_threeDigits hc
      · obtain rfl := Except.ok.inj h
        exact Solid.append (solid_of_all (by decide) (by decide)) fun c hc => isSpace_toString hc

/-! ### When the codes are free -/

/-- The library reads the numerals that it writes, up to the number of digits that it converts. -/
def ReadsNumerals (b : Builtins) : Prop :=
  ∀ n : ℕ, n < 10 ^ maxStrDigits →
    b.isdigit (toString n) = true ∧ b.int (.str (toString n)) = some (.ok (n : ℤ))

/-- The codes of digits are numbers that are read, and there is room for more above them. -/
def NumbersInReach (b : Builtins) (used : List String) (missing : ℕ) : Prop :=
  ∃ top : ℕ, top + missing < 10 ^ maxStrDigits ∧
    ∀ code ∈ used, b.isdigit code = true → ∃ i : ℤ, b.int (.str code) = some (.ok i) ∧ i ≤ top

/-- The names that are counted from the number of codes in use. -/
def importName (n : ℕ) : String := "IMP-" ++ toString n

/-- So many codes can be generated that are neither in use nor live. -/
def CodesFree (b : Builtins) (columns : Columns) (entityType : String) (used : List String)
    (missing : ℕ) : Prop :=
  let live := liveCodes columns entityType
  if entityType = "account" then missing = 0 ∨ NumbersInReach b used missing
  else if entityType = "vendor" then LiveNamesLate (fun n => "V-" ++ threeDigits n) live used missing
  else if entityType = "customer" then
    LiveNamesLate (fun n => "C-" ++ threeDigits n) live used missing
  else ∀ i < missing, importName (used.length + i + 1) ∉ used ++ live

section Generators

variable {b : Builtins} {entityType : String} {live used : List String} {missing : ℕ}

theorem foldl_max_le_iff {l : List ℤ} {a t : ℤ} :
    l.foldl max a ≤ t ↔ a ≤ t ∧ ∀ i ∈ l, i ≤ t := by
  induction l generalizing a with
  | nil => simp
  | cons i l ih =>
      rw [List.foldl_cons, ih, max_le_iff, List.forall_mem_cons, and_assoc]

/-- Each number is read from a code of digits, and one from every such code. -/
theorem mem_of_numericCodes {numerics : List ℤ} (h : numericCodes b used = .ok numerics) :
    (∀ code ∈ used, b.isdigit code = true → ∃ i ∈ numerics, b.int (.str code) = some (.ok i)) ∧
      ∀ i ∈ numerics, ∃ code ∈ used, b.isdigit code = true ∧ b.int (.str code) = some (.ok i) := by
  obtain ⟨hread, hmem⟩ := mem_of_mapM h
  constructor
  · intro code hcode hdigit
    obtain ⟨i, hi, hrun⟩ := hread code (List.mem_filter.mpr ⟨hcode, hdigit⟩)
    split at hrun
    · rename_i hint
      exact ⟨i, hi, hint.trans (congrArg some hrun)⟩
    · cases hrun
  · intro i hi
    obtain ⟨code, hcode, hrun⟩ := hmem i hi
    obtain ⟨hused, hdigit⟩ := List.mem_filter.mp hcode
    split at hrun
    · rename_i hint
      exact ⟨code, hused, hdigit, hint.trans (congrArg some hrun)⟩
    · cases hrun

/-- The numbers that are read from the codes of digits. -/
theorem numericCodes_le_iff {top : ℤ} :
    (∃ numerics, numericCodes b used = .ok numerics ∧ ∀ i ∈ numerics, i ≤ top) ↔
      ∀ code ∈ used, b.isdigit code = true →
        ∃ i : ℤ, b.int (.str code) = some (.ok i) ∧ i ≤ top := by
  constructor
  · rintro ⟨numerics, hnumerics, hle⟩ code hcode hdigit
    obtain ⟨i, hi, hint⟩ := (mem_of_numericCodes hnumerics).1 code hcode hdigit
    exact ⟨i, hint, hle i hi⟩
  · intro h
    have hread : ∃ numerics, numericCodes b used = .ok numerics := by
      refine exists_mapM fun code hcode => ?_
      obtain ⟨hused, hdigit⟩ := List.mem_filter.mp hcode
      obtain ⟨i, hint, -⟩ := h code hused hdigit
      exact ⟨i, by simp only [hint]⟩
    obtain ⟨numerics, hnumerics⟩ := hread
    refine ⟨numerics, hnumerics, fun i hi => ?_⟩
    obtain ⟨code, hused, hdigit, hint⟩ := (mem_of_numericCodes hnumerics).2 i hi
    obtain ⟨j, hj, hle⟩ := h code hused hdigit
    obtain rfl : j = i := Except.ok.inj (Option.some.inj (hj.symm.trans hint))
    exact hle

theorem numeralText_eq_ok_iff {n : ℕ} {code : String} :
    numeralText (toString n) = .ok code ↔ n < 10 ^ maxStrDigits ∧ code = toString n := by
  have hlength : ¬maxStrDigits < (toString n).length ↔ n < 10 ^ maxStrDigits := by
    rw [not_lt, ← String.length_toList, toList_toString,
      Nat.length_toDigits_le_iff (by decide) (by decide)]
  unfold numeralText
  split
  · simp only [reduceCtorEq, false_iff]
    exact fun h => hlength.mpr h.1 ‹_›
  · rw [Except.ok.injEq, ← hlength]
    exact ⟨fun h => ⟨‹_›, h.symm⟩, fun h => h.2.symm⟩

/-- **One account** is numbered above all others. -/
theorem nextCode_account (hreads : ReadsNumerals b) :
    NumbersInReach b used (missing + 1) ↔
      ∃ code, nextCode b "account" used = .ok code ∧ code ∉ used ∧
        (missing = 0 ∨ NumbersInReach b (used.insert code) missing) := by
  have hnext : nextCode b "account" used = (numericCodes b used).bind fun numerics =>
      numeralText (firstFree toString used ((numerics.foldl max 0).toNat + 1)) := rfl
  constructor
  · rintro ⟨top, htop, hused⟩
    obtain ⟨numerics, hnumerics, hle⟩ := numericCodes_le_iff.mpr hused
    have hmax : numerics.foldl max 0 ≤ (top : ℤ) := foldl_max_le_iff.mpr ⟨by omega, hle⟩
    obtain ⟨n, hn, hstart, hfree, hbefore⟩ := firstFree_spec toString_injective used
      ((numerics.foldl max 0).toNat + 1)
    have hsame : n = (numerics.foldl max 0).toNat + 1 := by
      by_contra hne
      have hmem := hbefore _ le_rfl (by omega)
      obtain ⟨hdigit, hint⟩ := hreads ((numerics.foldl max 0).toNat + 1) (by omega)
      have hnumeric : ((((numerics.foldl max 0).toNat + 1 : ℕ)) : ℤ) ≤ numerics.foldl max 0 := by
        obtain ⟨i, hi, hle'⟩ := numericCodes_le_iff.mp
          ⟨numerics, hnumerics, (foldl_max_le_iff.mp le_rfl).2⟩ _ hmem hdigit
        obtain rfl := Except.ok.inj (Option.some.inj (hint.symm.trans hi))
        exact hle'
      omega
    have hreach : n ≤ top + 1 := by omega
    refine ⟨toString n, ?_, hfree, ?_⟩
    · rw [hnext]
      refine bind_eq_ok.mpr ⟨numerics, hnumerics, ?_⟩
      rw [hn]
      exact numeralText_eq_ok_iff.mpr ⟨by omega, rfl⟩
    · refine .inr ⟨top + 1, by omega, fun code hcode hdigit => ?_⟩
      rcases List.mem_insert_iff.mp hcode with rfl | hcode
      · exact ⟨n, (hreads n (by omega)).2, by exact_mod_cast hreach⟩
      · obtain ⟨i, hi, hle'⟩ := hused code hcode hdigit
        exact ⟨i, hi, by push_cast; omega⟩
  · rintro ⟨code, hrun, -, hrest⟩
    rw [hnext] at hrun
    obtain ⟨numerics, hnumerics, hrun⟩ := bind_eq_ok.mp hrun
    obtain ⟨n, hn, hstart, -, -⟩ := firstFree_spec toString_injective used
      ((numerics.foldl max 0).toNat + 1)
    rw [hn] at hrun
    obtain ⟨hsmall, rfl⟩ := numeralText_eq_ok_iff.mp hrun
    have hroom : (numerics.foldl max 0).toNat + (missing + 1) < 10 ^ maxStrDigits := by
      rcases hrest with rfl | ⟨top, htop, hused⟩
      · omega
      · obtain ⟨hdigit, hint⟩ := hreads n hsmall
        obtain ⟨i, hi, hle⟩ := hused _ List.mem_insert_self hdigit
        obtain rfl := Except.ok.inj (Option.some.inj (hint.symm.trans hi))
        omega
    refine ⟨(numerics.foldl max 0).toNat, hroom, ?_⟩
    refine numericCodes_le_iff.mp ⟨numerics, hnumerics, fun i hi => ?_⟩
    have hle := (foldl_max_le_iff.mp (le_refl (numerics.foldl max 0))).2 i hi
    omega

theorem importName_injective : Function.Injective importName :=
  append_injective "IMP-" toString_injective

/-- **One name** is counted. -/
theorem importNames_succ :
    (∀ i < missing + 1, importName (used.length + i + 1) ∉ used ++ live) ↔
      importName (used.length + 1) ∉ used ∧ importName (used.length + 1) ∉ live ∧
        ∀ i < missing, importName ((used.insert (importName (used.length + 1))).length + i + 1) ∉
          used.insert (importName (used.length + 1)) ++ live := by
  have hnotMem : ∀ {c : String}, c ∉ used ++ live ↔ c ∉ used ∧ c ∉ live := by
    intro c
    rw [List.mem_append, not_or]
  by_cases hfirst : importName (used.length + 1) ∈ used
  · constructor
    · intro h
      exact absurd hfirst (hnotMem.mp (h 0 (by omega))).1
    · rintro ⟨h, -⟩
      exact absurd hfirst h
  · rw [List.insert_of_not_mem hfirst, List.length_cons]
    have hrest : ∀ i, importName (used.length + 1 + i + 1) ∉
        importName (used.length + 1) :: used ++ live ↔
          importName (used.length + (i + 1) + 1) ∉ used ++ live := by
      intro i
      have hne : importName (used.length + 1 + i + 1) ≠ importName (used.length + 1) :=
        fun h => by
          have := importName_injective h
          omega
      rw [List.cons_append, List.mem_cons, or_iff_right hne, Nat.add_assoc used.length 1 i,
        Nat.add_comm 1 i]
    simp only [hrest]
    constructor
    · intro h
      exact ⟨hfirst, (hnotMem.mp (h 0 (by omega))).2, fun i hi => h (i + 1) (by omega)⟩
    · rintro ⟨-, hlive, h⟩ i hi
      cases i with
      | zero => exact hnotMem.mpr ⟨hfirst, hlive⟩
      | succ i => exact h i (by omega)

/-- The codes of accounts are free. -/
theorem freeCodes_account {accounts : List String} (hreads : ReadsNumerals b)
    (hlive : ∀ code ∈ accounts, code ≠ "" → code ∈ used) :
    FreeCodes b "account" accounts used missing ↔ missing = 0 ∨ NumbersInReach b used missing := by
  induction missing generalizing used with
  | zero => exact ⟨fun _ => .inl rfl, fun _ => trivial⟩
  | succ missing ih =>
      rw [or_iff_right (Nat.succ_ne_zero missing), nextCode_account hreads]
      constructor
      · rintro ⟨code, hnext, hused, -, hrest⟩
        exact ⟨code, hnext, hused, (ih fun c hc hne => List.mem_insert_of_mem (hlive c hc hne)).mp
          hrest⟩
      · rintro ⟨code, hnext, hused, hrest⟩
        refine ⟨code, hnext, hused, fun hmem => hused ?_, ?_⟩
        · exact hlive code hmem (solid_nextCode hnext).1
        · exact (ih fun c hc hne => List.mem_insert_of_mem (hlive c hc hne)).mpr hrest

/-- The first names that are not in use are free. -/
theorem freeCodes_firstFree {name : ℕ → String} (hname : Function.Injective name)
    (hnext : ∀ used, nextCode b entityType used = .ok (firstFree name used 1)) :
    FreeCodes b entityType live used missing ↔ LiveNamesLate name live used missing := by
  induction missing generalizing used with
  | zero => exact ⟨fun _ n _ _ => .inr (Nat.zero_le _), fun _ => trivial⟩
  | succ missing ih =>
      rw [liveNamesLate_succ hname, ← ih]
      constructor
      · rintro ⟨code, hrun, -, hlive, hrest⟩
        obtain rfl := Except.ok.inj ((hnext used).symm.trans hrun)
        exact ⟨hlive, hrest⟩
      · rintro ⟨hlive, hrest⟩
        exact ⟨_, hnext used, firstFree_notMem hname used 1, hlive, hrest⟩

/-- The names that are counted are free. -/
theorem freeCodes_counted
    (hnext : ∀ used, nextCode b entityType used = .ok (importName (used.length + 1))) :
    FreeCodes b entityType live used missing ↔
      ∀ i < missing, importName (used.length + i + 1) ∉ used ++ live := by
  induction missing generalizing used with
  | zero => exact ⟨fun _ i hi => absurd hi (Nat.not_lt_zero i), fun _ => trivial⟩
  | succ missing ih =>
      rw [importNames_succ, ← ih]
      constructor
      · rintro ⟨code, hrun, hused, hlive, hrest⟩
        obtain rfl := Except.ok.inj ((hnext used).symm.trans hrun)
        exact ⟨hused, hlive, hrest⟩
      · rintro ⟨hused, hlive, hrest⟩
        exact ⟨_, hnext used, hused, hlive, hrest⟩

/-- **When the codes are free**, for each of the generators. -/
theorem freeCodes_iff {columns : Columns} (hreads : ReadsNumerals b)
    (hlive : entityType = "account" → ∀ code ∈ columns.accounts, code ≠ "" → code ∈ used) :
    FreeCodes b entityType (liveCodes columns entityType) used missing ↔
      CodesFree b columns entityType used missing := by
  unfold CodesFree
  dsimp only
  by_cases haccount : entityType = "account"
  · subst haccount
    rw [if_pos rfl]
    exact freeCodes_account hreads (hlive rfl)
  rw [if_neg haccount]
  by_cases hvendor : entityType = "vendor"
  · rw [if_pos hvendor]
    refine freeCodes_firstFree (append_injective "V-" threeDigits_injective) fun used => ?_
    rw [nextCode, if_neg haccount, if_pos hvendor]
  rw [if_neg hvendor]
  by_cases hcustomer : entityType = "customer"
  · rw [if_pos hcustomer]
    refine freeCodes_firstFree (append_injective "C-" threeDigits_injective) fun used => ?_
    rw [nextCode, if_neg haccount, if_neg hvendor, if_pos hcustomer]
  rw [if_neg hcustomer]
  refine freeCodes_counted fun used => ?_
  rw [nextCode, if_neg haccount, if_neg hvendor, if_neg hcustomer]
  rfl

end Generators

/-! ### The records of a batch -/

section Records

variable {L : Type} {sv : Services L} {t : Tables L} {b : Builtins} {entityType : String}
variable {used : List String} {recs : List ImportRecord} {codes : List String}

/-- Keys are unique, and every record belongs to a batch. -/
structure WellFormed (t : Tables L) : Prop where
  batchIds : (t.batches.map (·.id)).Nodup
  recordIds : (t.records.map (·.id)).Nodup
  belongs : ∀ rec ∈ t.records, rec.batchId ∈ t.batches.map (·.id)

/-- A record that can stand in the place of another. -/
structure Replaces (rec old : ImportRecord) : Prop where
  id : rec.id = old.id
  batchId : rec.batchId = old.batchId

theorem mem_recordsOf {batchId : UUID} {rec : ImportRecord} :
    rec ∈ t.recordsOf batchId ↔ rec ∈ t.records ∧ rec.batchId = batchId := by
  unfold Tables.recordsOf
  rw [List.mem_insertionSort, List.mem_filter, decide_eq_true_iff]

theorem perm_recordsOf (batchId : UUID) :
    (t.recordsOf batchId).Perm (t.records.filter (·.batchId = batchId)) :=
  List.perm_insertionSort _ _

theorem WellFormed.nodup_recordsOf (h : WellFormed t) (batchId : UUID) :
    ((t.recordsOf batchId).map (·.id)).Nodup := by
  have hsub : ((t.records.filter (·.batchId = batchId)).map (·.id)).Nodup :=
    h.recordIds.sublist (List.filter_sublist.map _)
  exact ((perm_recordsOf batchId).map _).nodup_iff.mpr hsub

/-- A record that was given a code. -/
structure Coded (rec old : ImportRecord) : Prop extends Replaces rec old where
  status : rec.status = old.status

/-- The tables after codes were assigned. -/
def Tables.putAll (t : Tables L) (recs : List ImportRecord) : Tables L :=
  { t with records := KeyedTable.putAll ImportRecord.id t.records recs }

theorem foldl_putRecord (recs : List ImportRecord) :
    recs.foldl Tables.putRecord t = t.putAll recs := by
  induction recs generalizing t with
  | nil => rfl
  | cons rec recs ih => exact ih

/-- The assignments write records with new codes. -/
structure Assigned (t : Tables L) (batchId : UUID) (recs : List ImportRecord) : Prop where
  ids : (recs.map (·.id)).Nodup
  coded : ∀ rec ∈ recs, ∃ old ∈ t.records, old.batchId = batchId ∧ Coded rec old

/-- What the assignments leave as it is in every record they write. -/
theorem Assigned.map_records {batchId : UUID} {recs : List ImportRecord}
    (h : Assigned t batchId recs) (hwf : WellFormed t) {β : Type} {f : ImportRecord → β}
    (hf : ∀ rec old, Coded rec old → f old = f rec) :
    (t.putAll recs).records.map f = t.records.map f := by
  refine KeyedTable.map_putAll h.ids fun rec hrec r hr hkey => ?_
  obtain ⟨old, hold, -, hcoded⟩ := h.coded rec hrec
  rw [KeyedTable.eq_of_key_eq hwf.recordIds hr hold (hkey.trans hcoded.id)]
  exact hf rec old hcoded

theorem Assigned.wellFormed {batchId : UUID} {recs : List ImportRecord}
    (h : Assigned t batchId recs) (hwf : WellFormed t) : WellFormed (t.putAll recs) := by
  have hids := h.map_records hwf (f := ImportRecord.id) fun rec old hc => hc.id.symm
  have hbatches := h.map_records hwf (f := ImportRecord.batchId) fun rec old hc => hc.batchId.symm
  constructor
  · exact hwf.batchIds
  · rw [hids]
    exact hwf.recordIds
  · intro rec hrec
    have hmem : rec.batchId ∈ t.records.map ImportRecord.batchId := by
      rw [← hbatches]
      exact List.mem_map_of_mem hrec
    obtain ⟨old, hold, heq⟩ := List.mem_map.mp hmem
    exact heq ▸ hwf.belongs old hold

/-- The records without a code. -/
def missingCodes (b : Builtins) (recs : List ImportRecord) : List ImportRecord :=
  recs.filter fun rec => (codeText b rec.mapped).isNone

theorem missingCodes_cons (b : Builtins) (rec : ImportRecord) (recs : List ImportRecord) :
    missingCodes b (rec :: recs) =
      if (codeText b rec.mapped).isSome then missingCodes b recs else rec :: missingCodes b recs := by
  unfold missingCodes
  rw [List.filter_cons]
  cases codeText b rec.mapped with
  | none => rfl
  | some code => rfl

/-- The record with a new code. -/
def ImportRecord.coded (rec : ImportRecord) (code : String) : ImportRecord :=
  { rec with mappedData := some (withCode rec.mapped code) }

theorem get_withCode (mapped : Dict) (code : String) :
    (withCode mapped code).get "code" = .str code := by
  unfold withCode
  dsimp only
  split
  · rw [Dict.get_set, if_pos rfl]
  · rw [Dict.get_set, if_neg (by decide), Dict.get_set, if_pos rfl]

theorem codeText_coded {code : String} (h : Solid code) (rec : ImportRecord) :
    codeText b (rec.coded code).mapped = some code := by
  show codeText b (withCode rec.mapped code) = some code
  unfold codeText
  dsimp only
  rw [get_withCode]
  show (if (false || decide (strip code = "")) = true then none else some (strip code)) = some code
  rw [h.strip, decide_eq_false h.1]
  rfl

/-- The codes that are generated are texts of a code. -/
theorem solid_of_newCodes {missing : ℕ} (h : newCodes b entityType used missing = .ok codes) :
    codes.length = missing ∧ ∀ code ∈ codes, Solid code := by
  induction missing generalizing used codes with
  | zero =>
      obtain rfl := Except.ok.inj h
      exact ⟨rfl, fun code hcode => absurd hcode List.not_mem_nil⟩
  | succ missing ih =>
      obtain ⟨code, hnext, h⟩ := bind_eq_ok.mp h
      obtain ⟨rest, hrest, h⟩ := bind_eq_ok.mp h
      obtain rfl := Except.ok.inj h
      obtain ⟨hlength, hsolid⟩ := ih hrest
      exact ⟨congrArg (· + 1) hlength, List.forall_mem_cons.mpr ⟨solid_nextCode hnext, hsolid⟩⟩

/-- **The records that are written** have the codes that are generated. -/
theorem assignCodes_of_ok
    (h : newCodes b entityType used (missingCodes b recs).length = .ok codes) :
    assignCodes b entityType used recs =
      (List.zipWith ImportRecord.coded (missingCodes b recs) codes, none) := by
  induction recs generalizing used codes with
  | nil => rfl
  | cons rec recs ih =>
      rw [missingCodes_cons] at h ⊢
      rw [assignCodes]
      by_cases hcode : (codeText b rec.mapped).isSome
      · rw [if_pos hcode] at h
        rw [if_pos hcode, if_pos hcode]
        exact ih h
      · rw [if_neg hcode] at h
        rw [if_neg hcode, if_neg hcode]
        obtain ⟨code, hnext, h⟩ := bind_eq_ok.mp h
        obtain ⟨rest, hrest, h⟩ := bind_eq_ok.mp h
        obtain rfl := Except.ok.inj h
        rw [hnext]
        dsimp only
        rw [ih hrest]
        rfl

/-- Where not all codes are generated, the assignment raises. -/
theorem newCodes_of_assignCodes (h : (assignCodes b entityType used recs).2 = none) :
    ∃ codes, newCodes b entityType used (missingCodes b recs).length = .ok codes := by
  induction recs generalizing used with
  | nil => exact ⟨[], rfl⟩
  | cons rec recs ih =>
      rw [missingCodes_cons]
      rw [assignCodes] at h
      by_cases hcode : (codeText b rec.mapped).isSome
      · rw [if_pos hcode] at h
        rw [if_pos hcode]
        exact ih h
      · rw [if_neg hcode] at h
        rw [if_neg hcode]
        cases hnext : nextCode b entityType used with
        | error e =>
            rw [hnext] at h
            cases h
        | ok code =>
            rw [hnext] at h
            obtain ⟨codes, hcodes⟩ := ih h
            exact ⟨code :: codes, bind_eq_ok.mpr
              ⟨code, hnext, bind_eq_ok.mpr ⟨codes, hcodes, rfl⟩⟩⟩

/-- The code of the record with an id. -/
def codeOf (b : Builtins) (t : Tables L) (id : UUID) : Option String :=
  (t.record? id).bind fun rec => codeText b rec.mapped

/-- The records with codes stay as they are, and the others have codes that differ from the live
ones and from those of all other records. -/
structure AllCoded (b : Builtins) (live : List String) (recs : List ImportRecord)
    (t : Tables L) : Prop where
  kept : ∀ old ∈ recs, (codeText b old.mapped).isSome → t.record? old.id = some old
  fresh : ∀ old ∈ recs, codeText b old.mapped = none → ∃ code, codeOf b t old.id = some code ∧
    code ∉ live ∧ ∀ other ∈ recs, other.id ≠ old.id → codeOf b t other.id ≠ some code

theorem sublist_coded (recs : List ImportRecord) (codes : List String) :
    ((List.zipWith ImportRecord.coded recs codes).map (·.id)).Sublist (recs.map (·.id)) := by
  induction recs generalizing codes with
  | nil => exact List.Sublist.refl _
  | cons rec recs ih =>
      cases codes with
      | nil => exact List.nil_sublist _
      | cons code codes => exact (ih codes).cons_cons rec.id

theorem mem_coded {rec : ImportRecord} :
    rec ∈ List.zipWith ImportRecord.coded recs codes ↔
      ∃ old code, (old, code) ∈ recs.zip codes ∧ old.coded code = rec := by
  show rec ∈ List.zipWith (Function.curry fun p : ImportRecord × String => p.1.coded p.2) recs
    codes ↔ _
  rw [← List.map_zip_eq_zipWith, List.mem_map]
  exact ⟨fun ⟨p, hp, h⟩ => ⟨p.1, p.2, hp, h⟩, fun ⟨old, code, hp, h⟩ => ⟨(old, code), hp, h⟩⟩

theorem mem_missingCodes {rec : ImportRecord} :
    rec ∈ missingCodes b recs ↔ rec ∈ recs ∧ codeText b rec.mapped = none := by
  rw [missingCodes, List.mem_filter, Option.isNone_iff_eq_none]

theorem assigned_coded {batchId : UUID} (hwf : WellFormed t) :
    Assigned t batchId
      (List.zipWith ImportRecord.coded (missingCodes b (t.recordsOf batchId)) codes) := by
  constructor
  · exact (hwf.nodup_recordsOf batchId).sublist
      ((sublist_coded _ _).trans (List.filter_sublist.map _))
  · intro rec hrec
    obtain ⟨old, code, hzip, rfl⟩ := mem_coded.mp hrec
    obtain ⟨hold, -⟩ := mem_missingCodes.mp (List.of_mem_zip hzip).1
    obtain ⟨hmem, hbatch⟩ := mem_recordsOf.mp hold
    exact ⟨old, hmem, hbatch, ⟨rfl, rfl⟩, rfl⟩

/-- **The codes after the records are written.** -/
theorem codes_putAll {batchId : UUID} (hwf : WellFormed t)
    (hcodes : newCodes b entityType used (missingCodes b (t.recordsOf batchId)).length = .ok codes)
    {t' : Tables L} (ht' : t' = t.putAll
      (List.zipWith ImportRecord.coded (missingCodes b (t.recordsOf batchId)) codes)) :
    (∀ old ∈ t.recordsOf batchId, (codeText b old.mapped).isSome → t'.record? old.id = some old) ∧
      (missingCodes b (t.recordsOf batchId)).map (fun old => codeOf b t' old.id) =
        codes.map some := by
  subst ht'
  have hassigned : Assigned t batchId
      (List.zipWith ImportRecord.coded (missingCodes b (t.recordsOf batchId)) codes) :=
    assigned_coded hwf
  have hids := (hassigned.wellFormed hwf).recordIds
  obtain ⟨hlength, hsolid⟩ := solid_of_newCodes hcodes
  constructor
  · intro old hold hcode
    obtain ⟨hmem, -⟩ := mem_recordsOf.mp hold
    refine KeyedTable.get?_of_mem hids (KeyedTable.mem_putAll_of_ne hmem fun rec hrec hid => ?_)
    obtain ⟨other, code, hzip, rfl⟩ := mem_coded.mp hrec
    obtain ⟨hother, hnone⟩ := mem_missingCodes.mp (List.of_mem_zip hzip).1
    obtain rfl := KeyedTable.eq_of_key_eq hwf.recordIds hmem (mem_recordsOf.mp hother).1 hid
    rw [hnone] at hcode
    cases hcode
  · rw [← List.forall₂_eq_eq_eq, List.forall₂_map_left_iff, List.forall₂_map_right_iff,
      List.forall₂_iff_zip]
    refine ⟨hlength.symm, fun {old code} hzip => ?_⟩
    obtain ⟨hold, hcode⟩ := List.of_mem_zip hzip
    have hmem := (mem_recordsOf.mp (mem_missingCodes.mp hold).1).1
    have hrec : old.coded code ∈ (t.putAll
        (List.zipWith ImportRecord.coded (missingCodes b (t.recordsOf batchId)) codes)).records :=
      KeyedTable.mem_putAll_self hassigned.ids (mem_coded.mpr ⟨old, code, hzip, rfl⟩) hmem rfl
    have hread : (t.putAll (List.zipWith ImportRecord.coded
        (missingCodes b (t.recordsOf batchId)) codes)).record? old.id = some (old.coded code) :=
      KeyedTable.get?_of_mem hids hrec
    rw [codeOf, hread]
    exact codeText_coded (hsolid code hcode) old

/-- **All records are coded** where the codes are fresh. -/
theorem allCoded_iff {batchId : UUID} {live : List String} {t' : Tables L} (hwf : WellFormed t)
    (hused : ∀ code, code ∈ used → code ∈ live ∨
      ∃ rec ∈ t.recordsOf batchId, codeText b rec.mapped = some code)
    (hbatch : ∀ rec ∈ t.recordsOf batchId, ∀ code, codeText b rec.mapped = some code → code ∈ used)
    (hkept : ∀ old ∈ t.recordsOf batchId, (codeText b old.mapped).isSome →
      t'.record? old.id = some old)
    (hcodes : (missingCodes b (t.recordsOf batchId)).map (fun old => codeOf b t' old.id) =
      codes.map some) :
    AllCoded b live (t.recordsOf batchId) t' ↔
      codes.Nodup ∧ ∀ code ∈ codes, code ∉ used ∧ code ∉ live := by
  have hids := hwf.nodup_recordsOf batchId
  have hown : ∀ rec ∈ t.recordsOf batchId, ∀ code, codeText b rec.mapped = some code →
      codeOf b t' rec.id = some code := by
    intro rec hrec code hcode
    rw [codeOf, hkept rec hrec (by rw [hcode]; rfl)]
    exact hcode
  have hmissing : (missingCodes b (t.recordsOf batchId)).Nodup :=
    (List.Nodup.of_map _ hids).filter _
  constructor
  · rintro ⟨-, hfresh⟩
    constructor
    · refine List.Nodup.of_map some ?_
      rw [← hcodes]
      refine hmissing.map_on fun old hold other hother hsame => ?_
      obtain ⟨hmem, hnone⟩ := mem_missingCodes.mp hold
      obtain ⟨hmem', -⟩ := mem_missingCodes.mp hother
      obtain ⟨code, hcode, -, hothers⟩ := hfresh old hmem hnone
      by_contra hne
      refine hothers other hmem' (fun hid => hne ?_) (hsame ▸ hcode)
      exact (List.inj_on_of_nodup_map hids hmem' hmem hid).symm
    · intro code hmem
      obtain ⟨old, hold, hcode⟩ := List.mem_map.mp
        (show some code ∈ _ from hcodes ▸ List.mem_map_of_mem hmem)
      obtain ⟨hrec, hnone⟩ := mem_missingCodes.mp hold
      obtain ⟨code', hcode', hlive, hothers⟩ := hfresh old hrec hnone
      obtain rfl := Option.some.inj (hcode'.symm.trans hcode)
      refine ⟨fun hcodeUsed => ?_, hlive⟩
      rcases hused code' hcodeUsed with h | ⟨rec, hmemRec, hown'⟩
      · exact hlive h
      · refine hothers rec hmemRec (fun hid => ?_) (hown rec hmemRec code' hown')
        obtain rfl := List.inj_on_of_nodup_map hids hmemRec hrec hid
        rw [hnone] at hown'
        cases hown'
  · rintro ⟨hnodup, hfree⟩
    refine ⟨hkept, fun old hold hnone => ?_⟩
    have hmem := mem_missingCodes.mpr ⟨hold, hnone⟩
    obtain ⟨code, hcode, hsome⟩ := List.mem_map.mp
      (show codeOf b t' old.id ∈ codes.map some from
        hcodes ▸ List.mem_map_of_mem (f := fun old => codeOf b t' old.id) hmem)
    obtain ⟨hunused, hlive⟩ := hfree code hcode
    refine ⟨code, hsome.symm, hlive, fun other hother hid hclash => ?_⟩
    cases hcase : codeText b other.mapped with
    | some code' =>
        obtain rfl := Option.some.inj ((hown other hother code' hcase).symm.trans hclash)
        exact hunused (hbatch other hother code' hcase)
    | none =>
        have hnodup' : ((missingCodes b (t.recordsOf batchId)).map
            fun old => codeOf b t' old.id).Nodup := by
          rw [hcodes]
          exact hnodup.map (Option.some_injective _)
        obtain rfl := List.inj_on_of_nodup_map hnodup' (mem_missingCodes.mpr ⟨hother, hcase⟩) hmem
          (hclash.trans hsome)
        exact hid rfl

end Records

/-- `auto_assign_codes` gives fresh codes to the records of the batch. -/
def AssignsFresh {L : Type} (sv : Services L) (s : Session (Tables L)) (batch : ImportBatch) :
    Prop :=
  (∃ n, (autoAssignCodes sv s batch.id).1 = .ok n) ∧
    AllCoded sv.builtins
      (liveCodes (sv.database.columns s.current.live) (sv.builtins.lower batch.entityType))
      (s.current.recordsOf batch.id) (autoAssignCodes sv s batch.id).2.current

/-- The codes that are looked up are live. -/
theorem existingCodes_live {columns : Columns} {entityType code : String}
    (h : code ∈ existingCodes columns entityType) : code ∈ liveCodes columns entityType := by
  have hparties : ∀ {type : String}, code ∈ ((columns.parties.filter (·.1 = type)).map
      Prod.snd).filter (· ≠ "") → code ∈ columns.parties.map Prod.snd := by
    intro type hmem
    exact (List.filter_sublist.map Prod.snd).subset (List.mem_filter.mp hmem).1
  unfold existingCodes at h
  unfold liveCodes
  split at h
  · rw [if_pos ‹_›]
    exact (List.mem_filter.mp h).1
  · rename_i haccount
    rw [if_neg haccount]
    split at h
    · rename_i hvendor
      subst hvendor
      exact List.mem_append_left _ (hparties h)
    · split at h
      · rename_i hcustomer
        subst hcustomer
        exact List.mem_append_left _ (hparties h)
      · cases h

theorem mem_usedCodes {L : Type} {sv : Services L} {t : Tables L} {entityType code : String}
    {recs : List ImportRecord} :
    code ∈ usedCodes sv t entityType recs ↔
      code ∈ existingCodes (sv.database.columns t.live) entityType ∨
        ∃ rec ∈ recs, codeText sv.builtins rec.mapped = some code := by
  unfold usedCodes
  rw [List.mem_dedup, List.mem_append, List.mem_dedup, List.mem_filterMap]

/-- What `auto_assign_codes` returns and writes. -/
theorem autoAssignCodes_spec {L : Type} (sv : Services L) {s : Session (Tables L)}
    {batch : ImportBatch} (hbatch : s.current.batch? batch.id = some batch) :
    ((∃ n, (autoAssignCodes sv s batch.id).1 = .ok n) ↔
        (assignments sv s.current batch).2 = none) ∧
      (autoAssignCodes sv s batch.id).2.current =
        s.current.putAll (assignments sv s.current batch).1 := by
  unfold autoAssignCodes
  dsimp only
  rw [hbatch]
  dsimp only
  rw [foldl_putRecord]
  cases (assignments sv s.current batch).2 with
  | none => exact ⟨⟨fun _ => rfl, fun _ => ⟨_, rfl⟩⟩, rfl⟩
  | some e => exact ⟨⟨fun ⟨_, h⟩ => (nomatch h), fun h => (nomatch h)⟩, rfl⟩

/-! ### Samples -/

/-- Decimal digits are numbers, and a superscript is a digit that `int` does not read. -/
def numeralBuiltins : Builtins :=
  { plainBuiltins [] with
    isdigit := fun s => s ≠ "" && s.toList.all fun c => c.isDigit || c = '²'
    int := fun
      | .str s =>
          if s.toList.all Char.isDigit && s.length ≤ maxStrDigits then
            some (.ok (Nat.ofDigitChars 10 s.toList 0))
          else none
      | _ => none }

theorem readsNumerals_numeralBuiltins : ReadsNumerals numeralBuiltins := by
  intro n hn
  have hdigits : (toString n).toList.all Char.isDigit = true := by
    rw [toList_toString, List.all_eq_true]
    exact fun c hc => Numeral.isDigit_of_mem hc
  have hlength : (toString n).length ≤ maxStrDigits := by
    rw [← String.length_toList, toList_toString]
    exact (Nat.length_toDigits_le_iff (by decide) (by decide)).mpr hn
  constructor
  · show (decide (toString n ≠ "") && (toString n).toList.all fun c => c.isDigit || c = '²') = true
    rw [decide_eq_true (solid_toString n).1, Bool.true_and, List.all_eq_true]
    intro c hc
    rw [List.all_eq_true.mp hdigits c hc, Bool.true_or]
  · show (if ((toString n).toList.all Char.isDigit && decide ((toString n).length ≤ maxStrDigits))
      = true then some (Except.ok ((Nat.ofDigitChars 10 (toString n).toList 0 : ℕ) : ℤ)) else none)
        = some (.ok (n : ℤ))
    rw [hdigits, decide_eq_true hlength, if_pos (show (true && true) = true from rfl),
      toList_toString, Nat.ofDigitChars_ten_toDigits]

def codingServices : Services Columns where
  builtins := numeralBuiltins
  database := { columns := id }
  promoter _ := none

def codingBatch (entityType : String) : ImportBatch where
  id := ⟨0⟩
  mappingName := "codes"
  entityType := entityType
  status := .staged

/-- A record with a code, or without one. -/
def codingRecord (id : UUID) (mapped : Dict) : ImportRecord where
  id := id
  batchId := ⟨0⟩
  sourceRow := 0
  entityType := ""
  status := .staged
  rawData := []
  mappedData := some mapped
  validationErrors := []

/-- A batch of two records, the second of them without a code. -/
def codingSession (entityType : String) (live : Columns) (mapped : Dict) :
    Session (Tables Columns) :=
  Session.start
    { batches := [codingBatch entityType]
      records := [codingRecord ⟨1⟩ mapped, codingRecord ⟨2⟩ []]
      live := live }

theorem wellFormed_codingSession (entityType : String) (live : Columns) (mapped : Dict) :
    WellFormed (codingSession entityType live mapped).current := by
  refine ⟨List.nodup_singleton _, ?_, fun rec hrec => ?_⟩
  · show ([⟨1⟩, ⟨2⟩] : List UUID).Nodup
    decide
  rcases List.mem_cons.mp hrec with rfl | hrec
  · exact List.mem_cons_self
  · rw [List.mem_singleton.mp hrec]
    exact List.mem_cons_self

theorem first_mem {entityType : String} {live : Columns} {mapped : Dict} :
    codingRecord ⟨1⟩ mapped ∈ (codingSession entityType live mapped).current.recordsOf ⟨0⟩ :=
  mem_recordsOf.mpr ⟨List.mem_cons_self, rfl⟩

theorem second_mem {entityType : String} {live : Columns} {mapped : Dict} :
    codingRecord ⟨2⟩ [] ∈ (codingSession entityType live mapped).current.recordsOf ⟨0⟩ :=
  mem_recordsOf.mpr ⟨List.mem_cons_of_mem _ List.mem_cons_self, rfl⟩

/-- **Automatic codes are fresh** just where the generators find codes that are free. -/
theorem autoAssignCodes_fresh_iff {L : Type} {sv : Services L} {s : Session (Tables L)}
    {batch : ImportBatch} (hwf : WellFormed s.current)
    (hbatch : s.current.batch? batch.id = some batch) (hreads : ReadsNumerals sv.builtins) :
    AssignsFresh sv s batch ↔
      CodesFree sv.builtins (sv.database.columns s.current.live)
        (sv.builtins.lower batch.entityType)
        (usedCodes sv s.current (sv.builtins.lower batch.entityType) (s.current.recordsOf batch.id))
        (missingCodes sv.builtins (s.current.recordsOf batch.id)).length := by
  have haccounts : sv.builtins.lower batch.entityType = "account" →
      ∀ code ∈ (sv.database.columns s.current.live).accounts, code ≠ "" →
        code ∈ usedCodes sv s.current (sv.builtins.lower batch.entityType)
          (s.current.recordsOf batch.id) := by
    intro haccount code hcode hne
    refine mem_usedCodes.mpr (.inl ?_)
    rw [existingCodes, if_pos haccount]
    exact List.mem_filter.mpr ⟨hcode, decide_eq_true hne⟩
  rw [← freeCodes_iff hreads haccounts, freeCodes_iff_newCodes]
  obtain ⟨hok, hcurrent⟩ := autoAssignCodes_spec sv hbatch
  unfold AssignsFresh
  rw [hok, hcurrent]
  have hall : ∀ {codes : List String}, newCodes sv.builtins (sv.builtins.lower batch.entityType)
      (usedCodes sv s.current (sv.builtins.lower batch.entityType) (s.current.recordsOf batch.id))
      (missingCodes sv.builtins (s.current.recordsOf batch.id)).length = .ok codes →
      (assignments sv s.current batch).2 = none ∧
      (AllCoded sv.builtins (liveCodes (sv.database.columns s.current.live)
          (sv.builtins.lower batch.entityType)) (s.current.recordsOf batch.id)
          (s.current.putAll (assignments sv s.current batch).1) ↔
        codes.Nodup ∧ ∀ code ∈ codes,
          code ∉ usedCodes sv s.current (sv.builtins.lower batch.entityType)
            (s.current.recordsOf batch.id) ∧
          code ∉ liveCodes (sv.database.columns s.current.live)
            (sv.builtins.lower batch.entityType)) := by
    intro codes hcodes
    have hassigned : assignments sv s.current batch = (List.zipWith ImportRecord.coded
        (missingCodes sv.builtins (s.current.recordsOf batch.id)) codes, none) :=
      assignCodes_of_ok hcodes
    obtain ⟨hkept, hafter⟩ := codes_putAll hwf hcodes
      (congrArg s.current.putAll (congrArg Prod.fst hassigned))
    refine ⟨congrArg Prod.snd hassigned, allCoded_iff hwf (fun code hcode => ?_)
      (fun rec hrec code hcode => mem_usedCodes.mpr (.inr ⟨rec, hrec, hcode⟩)) hkept hafter⟩
    exact (mem_usedCodes.mp hcode).imp_left existingCodes_live
  constructor
  · rintro ⟨hnone, hcoded⟩
    obtain ⟨codes, hcodes⟩ := newCodes_of_assignCodes hnone
    exact ⟨codes, hcodes, (hall hcodes).2.mp hcoded⟩
  · rintro ⟨codes, hcodes, hfresh⟩
    exact ⟨(hall hcodes).1, (hall hcodes).2.mpr hfresh⟩

/-- A vendor without a code, next to one with a code, where a supplier is live. -/
theorem fresh_vendor :
    AssignsFresh codingServices
      (codingSession "vendor" ⟨[], [("supplier", "V-001")], ["V-001"], []⟩ [("code", .str "V-002")])
      (codingBatch "vendor") := by
  refine (autoAssignCodes_fresh_iff (wellFormed_codingSession _ _ _) rfl
    readsNumerals_numeralBuiltins).mpr ?_
  show LiveNamesLate (fun n => "V-" ++ threeDigits n) ["V-001", "V-001"] _ 1
  intro n _ hlive
  have hname : "V-" ++ threeDigits n = "V-001" := by simpa using hlive
  left
  dsimp only
  rw [hname]
  decide +kernel

/-- A counted name is one of the batch, a vendor gets the code of a customer, and a code of digits
is not read. -/
theorem not_assignsFresh :
    ¬AssignsFresh codingServices (codingSession "item" ⟨[], [], [], []⟩ [("code", .str "IMP-2")])
        (codingBatch "item") ∧
      ¬AssignsFresh codingServices
          (codingSession "vendor" ⟨[], [("customer", "V-001")], [], ["V-001"]⟩
            [("code", .str "V-002")]) (codingBatch "vendor") ∧
        ¬AssignsFresh codingServices
          (codingSession "account" ⟨["²"], [], [], []⟩ [("code", .str "1000")])
            (codingBatch "account") := by
  refine ⟨?_, ?_, ?_⟩
  · rintro ⟨-, -, hfresh⟩
    obtain ⟨code, hcode, -, hothers⟩ := hfresh (codingRecord ⟨2⟩ []) second_mem rfl
    have hclash : codeOf numeralBuiltins (autoAssignCodes codingServices
        (codingSession "item" ⟨[], [], [], []⟩ [("code", .str "IMP-2")]) ⟨0⟩).2.current ⟨1⟩ =
          codeOf numeralBuiltins (autoAssignCodes codingServices
            (codingSession "item" ⟨[], [], [], []⟩ [("code", .str "IMP-2")]) ⟨0⟩).2.current ⟨2⟩ := by
      decide +kernel
    exact hothers (codingRecord ⟨1⟩ _) first_mem (by decide) (hclash.trans hcode)
  · rintro ⟨-, -, hfresh⟩
    obtain ⟨code, hcode, hlive, -⟩ := hfresh (codingRecord ⟨2⟩ []) second_mem rfl
    have hassigned : codeOf numeralBuiltins (autoAssignCodes codingServices
        (codingSession "vendor" ⟨[], [("customer", "V-001")], [], ["V-001"]⟩
          [("code", .str "V-002")]) ⟨0⟩).2.current ⟨2⟩ = some "V-001" := by
      decide +kernel
    obtain rfl := Option.some.inj (hassigned.symm.trans hcode)
    exact hlive List.mem_cons_self
  · rintro ⟨⟨n, hn⟩, -⟩
    have hraised : (autoAssignCodes codingServices
        (codingSession "account" ⟨["²"], [], [], []⟩ [("code", .str "1000")]) ⟨0⟩).1.toOption =
          none := by
      decide +kernel
    have hsome := congrArg Except.toOption hn
    rw [show (codingBatch "account").id = ⟨0⟩ from rfl, hraised] at hsome
    cases hsome

end FinanceAccounting.Ingestion
