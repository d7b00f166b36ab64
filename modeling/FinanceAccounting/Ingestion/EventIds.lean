import FinanceAccounting.Ingestion.JournalPromoter
import FinanceAccounting.Library.Ranking
import FinanceAccounting.Library.SeparatedTexts
import Mathlib.Data.Multiset.Defs

/-! # The ids of imported events

The signature of a journal row is its date, number, name, source row and lines, one below the other,
the fields of the lines between bars and the lines in the order of their texts; nothing is escaped.
`eventIds_separate` says that rows whose texts hold no separator get different ids exactly when they
differ after `_str_strip`, and that the order of the lines does not matter. -/

namespace FinanceAccounting.JournalImport

open Hashing (PyVal)
open ModulePosting (lookup)
open Ranking (ascending)

/-! ### Rows -/

/-- What the event id of a row is computed from. -/
structure JournalRow where
  effective : Date
  num : PyVal
  name : PyVal
  lines : List PyVal
  sourceRow : Option ℤ

/-- The fields of a line in the signature. -/
structure Fields where
  account : String
  memo : String
  debit : String
  credit : String

/-- What is left of a row after `_str_strip`; an amount that is missing is zero. -/
structure Content where
  effective : Date
  num : String
  name : String
  sourceRow : Option ℤ
  lines : Multiset Fields

def Fields.text (f : Fields) : String :=
  f.account ++ "|" ++ f.memo ++ "|" ++ f.debit ++ "|" ++ f.credit

/-- No field holds a bar. -/
structure Fields.Plain (f : Fields) : Prop where
  account : '|' ∉ f.account.toList
  memo : '|' ∉ f.memo.toList
  debit : '|' ∉ f.debit.toList
  credit : '|' ∉ f.credit.toList

section Rows

variable (lib : Library)

def fieldsOf (line : List (String × PyVal)) : Fields where
  account := strStrip lib (lookup line "account")
  memo := strStrip lib (lookup line "memo")
  debit := orZero (strStrip lib (lookup line "debit"))
  credit := orZero (strStrip lib (lookup line "credit"))

namespace JournalRow

variable (r : JournalRow)

/-- `_deterministic_event_id`. -/
def eventId : UUID := deterministicEventId lib r.effective r.num r.name r.lines r.sourceRow

def fields : List Fields := (dictionaries r.lines).map (fieldsOf lib)

def content : Content where
  effective := r.effective
  num := strStrip lib r.num
  name := strStrip lib r.name
  sourceRow := r.sourceRow
  lines := r.fields lib

/-- The text of the lines. -/
def linesText : String :=
  "|".intercalate (((dictionaries r.lines).map (signatureLine lib)).insertionSort (· ≤ ·))

/-- The text that is hashed. -/
def signature : String :=
  "\n".intercalate ([r.effective.str, strStrip lib r.num, strStrip lib r.name] ++
    (r.sourceRow.map fun n => "row:" ++ toString n).toList ++ [r.linesText lib])

/-- Number and name have no line break, and the fields of the lines no bar. -/
structure Plain : Prop where
  num : '\n' ∉ (strStrip lib r.num).toList
  name : '\n' ∉ (strStrip lib r.name).toList
  fields : ∀ f ∈ r.fields lib, f.Plain

/-- The lines have no line break. -/
def Unbroken : Prop := ∀ f ∈ r.fields lib, '\n' ∉ f.text.toList

theorem eventId_eq : r.eventId lib = lib.uuid5 (lib.config.sha256 (r.signature lib)) := rfl

end JournalRow

end Rows

/-! ### Separators -/

/-- What stands before the first separator. -/
theorem append_inj_of_notMem {α : Type*} [DecidableEq α] {c : α} {a b x y : List α} (ha : c ∉ a)
    (hb : c ∉ b) (hx : ∀ d ∈ x.head?, d = c) (hy : ∀ d ∈ y.head?, d = c) (h : a ++ x = b ++ y) :
    a = b ∧ x = y := by
  have hplain : ∀ {l : List α}, c ∉ l → ∀ d ∈ l, decide (d = c) = false := fun hl d hd =>
    decide_eq_false fun heq => hl (heq ▸ hd)
  exact SeparatedTexts.append_inj_of_stop (hplain ha) (hplain hb) (fun d hd => decide_eq_true (hx d hd))
    (fun d hd => decide_eq_true (hy d hd)) h

/-- **The text of a line** is read up to its end, or up to the next bar. -/
theorem Fields.text_append_inj {f g : Fields} {x y : List Char} (hf : f.Plain) (hg : g.Plain)
    (hx : ∀ d ∈ x.head?, d = '|') (hy : ∀ d ∈ y.head?, d = '|')
    (h : f.text.toList ++ x = g.text.toList ++ y) : f = g ∧ x = y := by
  simp only [Fields.text, String.toList_append, show "|".toList = ['|'] from rfl,
    List.append_assoc, List.cons_append, List.nil_append] at h
  have hbar : ∀ {l : List Char}, ∀ d ∈ ('|' :: l).head?, d = '|' := by simp
  obtain ⟨haccount, h⟩ := append_inj_of_notMem hf.account hg.account hbar hbar h
  obtain ⟨hmemo, h⟩ := append_inj_of_notMem hf.memo hg.memo hbar hbar (List.cons.inj h).2
  obtain ⟨hdebit, h⟩ := append_inj_of_notMem hf.debit hg.debit hbar hbar (List.cons.inj h).2
  obtain ⟨hcredit, hrest⟩ := append_inj_of_notMem hf.credit hg.credit hx hy (List.cons.inj h).2
  cases f
  cases g
  simp only [String.toList_inj] at haccount hmemo hdebit hcredit
  exact ⟨by rw [haccount, hmemo, hdebit, hcredit], hrest⟩

/-- What follows the first line. -/
def restText : List Fields → List Char
  | [] => []
  | f :: fs => '|' :: ("|".intercalate ((f :: fs).map Fields.text)).toList

theorem head_restText (fs : List Fields) : ∀ d ∈ (restText fs).head?, d = '|' := by
  cases fs <;> simp [restText]

theorem toList_intercalate_cons (f : Fields) (fs : List Fields) :
    ("|".intercalate ((f :: fs).map Fields.text)).toList = f.text.toList ++ restText fs := by
  cases fs with
  | nil => simp [restText]
  | cons g gs =>
      rw [List.map_cons, List.map_cons, String.intercalate_cons_cons]
      simp [restText]

/-- **Lines with one text are the same**, one after the other. -/
theorem eq_of_intercalate_eq : ∀ {fs gs : List Fields}, (∀ f ∈ fs, f.Plain) → (∀ g ∈ gs, g.Plain) →
    "|".intercalate (fs.map Fields.text) = "|".intercalate (gs.map Fields.text) → fs = gs
  | [], [], _, _, _ => rfl
  | [], g :: gs, _, _, h => by
      have hlist := congrArg String.toList h
      rw [toList_intercalate_cons] at hlist
      simp [Fields.text] at hlist
  | f :: fs, [], _, _, h => by
      have hlist := congrArg String.toList h
      rw [toList_intercalate_cons] at hlist
      simp [Fields.text] at hlist
  | f :: fs, g :: gs, hf, hg, h => by
      have hlist := congrArg String.toList h
      rw [toList_intercalate_cons, toList_intercalate_cons] at hlist
      obtain ⟨rfl, hrest⟩ := Fields.text_append_inj (hf f List.mem_cons_self)
        (hg g List.mem_cons_self) (head_restText fs) (head_restText gs) hlist
      have htail : "|".intercalate (fs.map Fields.text) = "|".intercalate (gs.map Fields.text) := by
        cases fs with
        | nil =>
            cases gs with
            | nil => rfl
            | cons g gs => cases hrest
        | cons f fs =>
            cases gs with
            | nil => cases hrest
            | cons g gs => exact String.toList_inj.mp (List.cons.inj hrest).2
      rw [eq_of_intercalate_eq (fun f h => hf f (List.mem_cons_of_mem _ h))
        (fun g h => hg g (List.mem_cons_of_mem _ h)) htail]

theorem notMem_intercalate : ∀ {fs : List Fields}, (∀ f ∈ fs, '\n' ∉ f.text.toList) →
    '\n' ∉ ("|".intercalate (fs.map Fields.text)).toList
  | [], _ => by simp
  | f :: fs, h => by
      have hfs := notMem_intercalate fun f hf => h f (List.mem_cons_of_mem _ hf)
      rw [toList_intercalate_cons, List.mem_append, not_or]
      refine ⟨h f List.mem_cons_self, ?_⟩
      cases fs with
      | nil => simp [restText]
      | cons g gs => simpa [restText] using hfs

theorem toList_toString_int (n : ℤ) : (toString n).toList = Json.intChars n := by
  cases n with
  | ofNat n =>
      show (toString n).toList = _
      simp [Json.intChars]
  | negSucc n =>
      show ("-" ++ toString (n + 1)).toList = _
      simp [Json.intChars]

/-! ### Signatures -/

section Signatures

variable {lib : Library} {a b : JournalRow}

theorem linesText_eq_texts (r : JournalRow) :
    r.linesText lib = "|".intercalate (ascending id ((r.fields lib).map Fields.text)) := by
  unfold JournalRow.linesText JournalRow.fields
  rw [List.map_map]
  rfl

/-- The lines in the order of their texts. -/
theorem linesText_eq (r : JournalRow) :
    r.linesText lib = "|".intercalate ((ascending Fields.text (r.fields lib)).map Fields.text) := by
  rw [linesText_eq_texts, Ranking.ascending_map fun _ _ => rfl]
  rfl

/-- The order of the lines does not matter. -/
theorem linesText_of_perm (h : (a.fields lib).Perm (b.fields lib)) :
    a.linesText lib = b.linesText lib := by
  have hsorted : ascending id ((a.fields lib).map Fields.text) =
      ascending id ((b.fields lib).map Fields.text) :=
    Ranking.ascending_congr (h.map Fields.text) fun _ _ _ _ heq => heq
  rw [linesText_eq_texts, linesText_eq_texts, hsorted]

/-- The text below the name. -/
def tailText (lib : Library) (r : JournalRow) : List Char :=
  match r.sourceRow with
  | none => (r.linesText lib).toList
  | some n => 'r' :: 'o' :: 'w' :: ':' :: (Json.intChars n ++ '\n' :: (r.linesText lib).toList)

theorem toList_signature (r : JournalRow) :
    (r.signature lib).toList = r.effective.isoformat ++ '\n' :: ((strStrip lib r.num).toList ++
      '\n' :: ((strStrip lib r.name).toList ++ '\n' :: tailText lib r)) := by
  unfold JournalRow.signature tailText
  cases r.sourceRow with
  | none => simp [String.intercalate_cons_cons, Date.str]
  | some n =>
      simp [String.intercalate_cons_cons, Date.str, ← toList_toString_int]

theorem notMem_linesText {r : JournalRow} (h : r.Unbroken lib) :
    '\n' ∉ (r.linesText lib).toList := by
  rw [linesText_eq]
  exact notMem_intercalate fun f hf => h f (Ranking.mem_ascending.mp hf)

/-- A source row is told from lines that have no line break. -/
theorem tailText_inj
    (hrows : a.sourceRow.isSome = b.sourceRow.isSome ∨ a.Unbroken lib ∧ b.Unbroken lib)
    (h : tailText lib a = tailText lib b) :
    a.sourceRow = b.sourceRow ∧ a.linesText lib = b.linesText lib := by
  unfold tailText at h
  cases harow : a.sourceRow with
  | none =>
      rw [harow] at h hrows
      cases hbrow : b.sourceRow with
      | none =>
          rw [hbrow] at h
          exact ⟨rfl, String.toList_inj.mp h⟩
      | some n =>
          rw [hbrow] at h hrows
          dsimp only at h
          refine absurd ?_ (notMem_linesText (hrows.resolve_left (by simp)).1)
          rw [h]
          simp
  | some m =>
      rw [harow] at h hrows
      cases hbrow : b.sourceRow with
      | none =>
          rw [hbrow] at h hrows
          dsimp only at h
          refine absurd ?_ (notMem_linesText (hrows.resolve_left (by simp)).2)
          rw [← h]
          simp
      | some n =>
          rw [hbrow] at h
          simp only [List.cons.injEq, true_and] at h
          obtain ⟨rfl, hlines⟩ := Json.intChars_append_inj (by simp [Json.Delimited])
            (by simp [Json.Delimited]) h
          exact ⟨rfl, String.toList_inj.mp (List.cons.inj hlines).2⟩

/-- **Signatures are equal exactly for one content.** -/
theorem signature_eq_iff (ha : a.Plain lib) (hb : b.Plain lib)
    (hrows : a.sourceRow.isSome = b.sourceRow.isSome ∨ a.Unbroken lib ∧ b.Unbroken lib) :
    a.signature lib = b.signature lib ↔ a.content lib = b.content lib := by
  have hbreak : ∀ {l : List Char}, ∀ d ∈ ('\n' :: l).head?, d = '\n' := by simp
  simp only [JournalRow.content, Content.mk.injEq, Multiset.coe_eq_coe]
  constructor
  · intro h
    have hlist := congrArg String.toList h
    rw [toList_signature, toList_signature] at hlist
    obtain ⟨hdate, hlist⟩ := Date.isoformat_append_inj hlist
    obtain ⟨hnum, hlist⟩ := append_inj_of_notMem ha.num hb.num hbreak hbreak
      (List.cons.inj hlist).2
    obtain ⟨hname, hlist⟩ := append_inj_of_notMem ha.name hb.name hbreak hbreak
      (List.cons.inj hlist).2
    obtain ⟨hrow, hlines⟩ := tailText_inj hrows (List.cons.inj hlist).2
    rw [linesText_eq, linesText_eq] at hlines
    have hsorted := eq_of_intercalate_eq (fun f hf => ha.fields f (Ranking.mem_ascending.mp hf))
      (fun f hf => hb.fields f (Ranking.mem_ascending.mp hf)) hlines
    refine ⟨hdate, String.toList_inj.mp hnum, String.toList_inj.mp hname, hrow, ?_⟩
    exact ((Ranking.perm_ascending _ _).symm.trans (List.Perm.of_eq hsorted)).trans
      (Ranking.perm_ascending _ _)
  · rintro ⟨hdate, hnum, hname, hrow, hlines⟩
    unfold JournalRow.signature
    rw [hdate, hnum, hname, hrow, linesText_of_perm hlines]

end Signatures

/-- **Event ids of imported journals**: the order of the lines does not matter, and two rows with no
line break in number and name and no bar in the fields of their lines (nor a line break, if only one
has a source row), whose signatures the hash does not confuse, get one id exactly when date, number,
name, source row and the lines are the same after `_str_strip`. -/
theorem eventIds_separate (lib : Library) :
    (∀ (r : JournalRow) (lines : List PyVal), lines.Perm r.lines →
      { r with lines := lines }.eventId lib = r.eventId lib) ∧
    ∀ a b : JournalRow, a.Plain lib → b.Plain lib →
      (a.sourceRow.isSome = b.sourceRow.isSome ∨ a.Unbroken lib ∧ b.Unbroken lib) →
      (a.signature lib ≠ b.signature lib → a.eventId lib ≠ b.eventId lib) →
      (a.eventId lib = b.eventId lib ↔ a.content lib = b.content lib) := by
  constructor
  · intro r lines hperm
    have hfields : (JournalRow.fields lib { r with lines := lines }).Perm (r.fields lib) :=
      (hperm.filterMap _).map _
    have hsignature : JournalRow.signature lib { r with lines := lines } = r.signature lib := by
      unfold JournalRow.signature
      rw [linesText_of_perm hfields]
    rw [JournalRow.eventId_eq, JournalRow.eventId_eq, hsignature]
  · intro a b ha hb hrows hhash
    rw [← signature_eq_iff ha hb hrows]
    refine ⟨fun h => not_not.mp fun hne => hhash hne h, fun h => ?_⟩
    rw [JournalRow.eventId_eq, JournalRow.eventId_eq, h]

/-- A library whose hash keeps texts apart, and whose `uuid5` does so for short ones. -/
def plainLibrary : Library where
  config := { sha256 := id, isCurrency := fun _ => true }
  str _ := ""
  dateFromisoformat _ := none
  dict _ := .error ""
  uuid5 s := ⟨BitVec.ofNat 128 (s.toList.foldl (fun n c => 31 * n + c.toNat) 0)⟩

/-- A row with a number and without lines. -/
def numberedRow (num : String) : JournalRow where
  effective := sampleTime.date
  num := .scalar (.str num)
  name := .none
  lines := []
  sourceRow := some 1

theorem eventIds_separate_numbers :
    (numberedRow "5").eventId plainLibrary = (numberedRow "6").eventId plainLibrary ↔
      (numberedRow "5").content plainLibrary = (numberedRow "6").content plainLibrary := by
  refine (eventIds_separate plainLibrary).2 (numberedRow "5") (numberedRow "6")
    ⟨by decide, by decide, fun _ h => nomatch h⟩ ⟨by decide, by decide, fun _ h => nomatch h⟩
    (.inl rfl) fun _ => by decide +kernel

/-- Numbers that differ by a space are one. -/
theorem padded_number_same_id :
    (numberedRow " 5").num ≠ (numberedRow "5").num ∧
      (numberedRow " 5").eventId plainLibrary = (numberedRow "5").eventId plainLibrary := by
  refine ⟨fun h => ?_, by decide +kernel⟩
  simp [numberedRow] at h

end FinanceAccounting.JournalImport
