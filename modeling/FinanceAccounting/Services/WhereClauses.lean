import FinanceAccounting.Services.DispatchLaws

/-! # Where-expressions

A where-expression `payload.f op literal` is taken apart by a pattern whose alternatives `>` and `<`
stand before `>=` and `<=`, so these two lose their `=` to the literal, unless a line ends after
them (`exprWhere_text`).  The literal is read in lower case, and Python's comparisons raise where
the operands have no order (`compare_eq`).

`matchesWhere_right_iff` says by the operator, the kind of the literal and the kind of the value which
clauses are decided as they say (`DecidesKept`, and `DecidesLost` where the `=` is lost). -/

namespace FinanceAccounting.PackPolicySource

open Config (CompiledPolicy PyFloat)
open Hashing (PyVal)
open PolicySelector (isNone valueAt)

/-! ### Clauses -/

def WhereOp.symbol : WhereOp → List Char
  | .gt => ['>']
  | .lt => ['<']
  | .ge => ['>', '=']
  | .le => ['<', '=']
  | .eq => ['=', '=']
  | .ne => ['!', '=']

/-- A clause `payload.f op literal` with white space around its parts. -/
structure Clause where
  field : List Char
  op : WhereOp
  literal : List Char
  lead : List Char
  before : List Char
  after : List Char
  trail : List Char
  field_chars : ∀ c ∈ field, isIdentifierChar c = true
  field_head : field.head?.any (fun c => !c.isDigit) = true
  literal_head : literal.head?.any (fun c => !isSpace c) = true
  literal_last : literal.getLast?.any (fun c => !isSpace c) = true
  literal_line : '\n' ∉ literal
  lead_space : ∀ c ∈ lead, isSpace c = true
  before_space : ∀ c ∈ before, isSpace c = true
  after_space : ∀ c ∈ after, isSpace c = true
  trail_space : ∀ c ∈ trail, isSpace c = true

/-- The clause without the white space around it. -/
def Clause.core (c : Clause) : List Char :=
  "payload.".toList ++ (c.field ++ (c.before ++ (c.op.symbol ++ (c.after ++ c.literal))))

def Clause.text (c : Clause) : String := String.ofList (c.lead ++ (c.core ++ c.trail))

/-- The `=` of the operator goes to the literal. -/
def Clause.losesEquals (c : Clause) : Bool :=
  (c.op = .ge || c.op = .le) && !c.after.contains '\n'

/-- `>` of `>=`, and `<` of `<=`. -/
def WhereOp.strict : WhereOp → WhereOp
  | ge => gt
  | le => lt
  | op => op

/-- The operator and the literal that the pattern finds: `>` and `<` are tried before `>=` and
`<=`, and a literal has no line break. -/
def Clause.found (c : Clause) : WhereOp × List Char :=
  if c.losesEquals then (c.op.strict, '=' :: (c.after ++ c.literal)) else (c.op, c.literal)

/-! ### What the pattern finds -/

section Pattern

variable (c : Clause)

theorem dropWhile_eq_self {l : List Char} (h : l.head?.any (fun c => !isSpace c) = true) :
    l.dropWhile isSpace = l := by
  cases l with
  | nil => rfl
  | cons c l =>
      have hc : isSpace c = false := by simpa using h
      exact List.dropWhile_cons_of_neg (by rw [hc]; exact Bool.false_ne_true)

theorem strip_text : (strip c.text).toList = c.core := by
  have hhead : ∀ l, (c.core ++ l).head?.any (fun c => !isSpace c) = true := by
    intro l
    rfl
  have hlast : c.core.reverse.head?.any (fun c => !isSpace c) = true := by
    have hne : c.literal ≠ [] := by
      intro hnil
      have := c.literal_head
      rw [hnil] at this
      cases this
    rw [List.head?_reverse]
    unfold Clause.core
    simp only [← List.append_assoc]
    rw [List.getLast?_append_of_ne_nil _ hne]
    exact c.literal_last
  unfold strip Clause.text
  rw [String.toList_ofList, String.toList_ofList,
    List.dropWhile_append_of_pos c.lead_space, dropWhile_eq_self (hhead _), List.reverse_append,
    List.dropWhile_append_of_pos fun x hx => c.trail_space x (List.mem_reverse.1 hx),
    dropWhile_eq_self hlast, List.reverse_reverse]

theorem not_isIdentifierChar_of_isSpace {x : Char} (h : isSpace x = true) :
    isIdentifierChar x = false := by
  have hunder : ('_' : Char).toNat = 95 := rfl
  rw [Bool.eq_false_iff]
  intro hid
  have hbounds : (48 ≤ x.toNat ∧ x.toNat ≤ 57) ∨ (65 ≤ x.toNat ∧ x.toNat ≤ 90) ∨
      (97 ≤ x.toNat ∧ x.toNat ≤ 122) ∨ x.toNat = 95 := by
    replace hid : ((decide (65 ≤ x.val ∧ x.val ≤ 90) ||
        decide (97 ≤ x.val) && decide (x.val ≤ 122) ||
        decide (48 ≤ x.val) && decide (x.val ≤ 57)) || decide (x = '_')) = true := hid
    simp only [Bool.or_eq_true, Bool.and_eq_true, decide_eq_true_eq,
      UInt32.le_iff_toNat_le] at hid
    rcases hid with ((hid | hid) | hid) | rfl
    · exact .inr (.inl hid)
    · exact .inr (.inr (.inl hid))
    · exact .inl hid
    · exact .inr (.inr (.inr rfl))
  unfold isSpace at h
  dsimp only at h
  simp only [Bool.or_eq_true, Bool.and_eq_true, decide_eq_true_eq] at h
  omega

/-- What follows the field. -/
def Clause.afterField (c : Clause) : List Char :=
  c.before ++ (c.op.symbol ++ (c.after ++ c.literal))

theorem takeWhile_field : (c.field ++ c.afterField).takeWhile isIdentifierChar = c.field := by
  have hstop : c.afterField.takeWhile isIdentifierChar = [] := by
    unfold Clause.afterField
    cases hbefore : c.before with
    | nil => cases c.op <;> rfl
    | cons x l =>
        have hx : isSpace x = true := c.before_space x (by simp [hbefore])
        rw [List.cons_append, List.takeWhile_cons_of_neg]
        rw [not_isIdentifierChar_of_isSpace hx]
        exact Bool.false_ne_true
  rw [List.takeWhile_append_of_pos c.field_chars, hstop, List.append_nil]

theorem dropWhile_afterField :
    c.afterField.dropWhile isSpace = c.op.symbol ++ (c.after ++ c.literal) := by
  unfold Clause.afterField
  rw [List.dropWhile_append_of_pos c.before_space]
  cases c.op <;> rfl

theorem dropWhile_literal : (c.after ++ c.literal).dropWhile isSpace = c.literal := by
  rw [List.dropWhile_append_of_pos c.after_space, dropWhile_eq_self c.literal_head]

/-- The operator and the literal that the alternatives find. -/
theorem alternatives_found :
    (WhereOp.alternatives.findSome? fun (symbol, op) =>
      if symbol.isPrefixOf (c.op.symbol ++ (c.after ++ c.literal)) then
        let literal :=
          ((c.op.symbol ++ (c.after ++ c.literal)).drop symbol.length).dropWhile isSpace
        if !literal.isEmpty && !literal.contains '\n' then
          some (String.ofList c.field, op, String.ofList literal)
        else none
      else none) = some (String.ofList c.field, c.found.1, String.ofList c.found.2) := by
  have hliteral := dropWhile_literal c
  have hne : c.literal.isEmpty = false := by
    cases hl : c.literal with
    | nil =>
        have hhead := c.literal_head
        rw [hl] at hhead
        cases hhead
    | cons _ _ => rfl
  have hline : c.literal.contains '\n' = false := by
    rw [List.contains_eq_mem, decide_eq_false_iff_not]
    exact c.literal_line
  have hequal : ∀ l, ('=' :: l).dropWhile isSpace = '=' :: l := fun _ => rfl
  have hlines : ('=' :: (c.after ++ c.literal)).contains '\n' = decide ('\n' ∈ c.after) := by
    rw [List.contains_eq_mem, decide_eq_decide, List.mem_cons, List.mem_append]
    constructor
    · rintro (h | h | h)
      · exact absurd h (by decide)
      · exact h
      · exact absurd h c.literal_line
    · exact fun h => .inr (.inl h)
  unfold Clause.found Clause.losesEquals
  cases hop : c.op with
  | ge | le =>
      simp only [WhereOp.alternatives, WhereOp.symbol, List.findSome?_cons, List.isPrefixOf,
        List.cons_append, List.nil_append, List.drop, List.length_cons, List.length_nil, hliteral,
        hne, hline, hequal, hlines, List.isEmpty_cons]
      by_cases hafter : '\n' ∈ c.after <;> simp [hafter, WhereOp.strict]
  | _ =>
      simp only [WhereOp.alternatives, WhereOp.symbol, List.findSome?_cons, List.isPrefixOf,
        List.cons_append, List.nil_append, List.drop, List.length_cons, List.length_nil, hliteral,
        hne, hline, hequal, List.isEmpty_cons]
      rfl

/-- **The pattern** finds the field, and an operator and a literal that are not always those of the
clause. -/
theorem exprWhere_text :
    exprWhere (strip c.text) =
      some (String.ofList c.field, c.found.1, String.ofList c.found.2) := by
  have hcore : c.core = "payload.".toList ++ (c.field ++ c.afterField) := rfl
  have hprefix : "payload.".toList.isPrefixOf c.core = true := by
    rw [List.isPrefixOf_iff_prefix, hcore]
    exact List.prefix_append _ _
  unfold exprWhere
  dsimp only
  rw [strip_text, if_pos hprefix, hcore, List.drop_left, takeWhile_field, if_pos c.field_head,
    List.drop_left, dropWhile_afterField]
  exact alternatives_found c

end Pattern

/-! ### What a clause says -/

/-- Whole numbers, decimals and texts, and what is missing. -/
def Plain : PyVal → Prop
  | .none => True
  | .int _ => True
  | .scalar (.decimal _) => True
  | .scalar (.str _) => True
  | _ => False

/-- The literal of a clause: a number or a truth value as it is read, else the text as it stands. -/
def Clause.reads (r : Reading) (c : Clause) : Literal :=
  match coerceLiteral r (String.ofList c.literal) with
  | .ok (.bool b) => .bool b
  | .ok (.int i) => .int i
  | .ok (.float x) => .float x
  | _ => .str (String.ofList c.literal)

/-- The number that a value is beside a literal; `asNumber` says what a text stands for beside a
number. -/
def operandNumber (asNumber : String → Option PyFloat) (actual : PyVal) (literal : Literal) :
    Option PyFloat :=
  match actual, literal with
  | .scalar (.str s), .int _ => asNumber s
  | .scalar (.str s), .float _ => asNumber s
  | _, _ => numberOf actual

/-- Whether a comparison holds: of two numbers or of two texts; what has no order is not ordered,
and is not equal. -/
def holds (asNumber : String → Option PyFloat) (op : WhereOp) (actual : PyVal)
    (literal : Literal) : Bool :=
  match operandNumber asNumber actual literal, literal.number with
  | some x, some y => compareNumbers op x y
  | _, _ =>
      match actual, literal with
      | .scalar (.str s), .str t => compareTexts op s t
      | _, _ => op = .ne

/-- The policy with one clause and what is expected of it. -/
def withClause (cp : CompiledPolicy) (c : Clause) (expected : Bool) : CompiledPolicy :=
  { cp with trigger := { cp.trigger with conditions := [(c.text, .bool expected)] } }

/-- The value that the clause is about. -/
def Clause.actual (c : Clause) (payload : PyVal) : PyVal := valueAt [String.ofList c.field] payload

/-- The clause is decided, and as it says. -/
def Right (r : Reading) (asNumber : String → Option PyFloat) (c : Clause) (payload : PyVal)
    (expected : Bool) (cp : CompiledPolicy) : Prop :=
  matchesWhere r payload (withClause cp c expected) =
    .ok (holds asNumber c.op (c.actual payload) (c.reads r) == expected)

/-- What the built-in functions do with a text that begins with an equals sign: it is neither digits
nor a number. -/
structure ReadsEquals (r : Reading) : Prop where
  lower : ∀ s : String, s.toList.head? = some '=' → (r.lower s).toList.head? = some '='
  isdigit : ∀ s : String, s.toList.head? = some '=' → r.isdigit s = false
  float : ∀ s : String, s.toList.head? = some '=' → r.float s = none

/-- The operator gives two results for `s`, with `t` and with `u`: `s` lies between the two, or is one
of them. -/
def Between (op : WhereOp) (s t u : String) : Prop :=
  match op with
  | .gt | .le => min t u < s ∧ s ≤ max t u
  | .lt | .ge => min t u ≤ s ∧ s < max t u
  | .eq | .ne => t ≠ u ∧ (s = t ∨ s = u)

/-- When a clause with the operator that is written is decided as it says, by the kinds of the literal
and the value: a missing value is never ordered, what is ordered are two texts or two numbers, and a
text literal is read in lower case. -/
def DecidesKept (asNumber : String → Option PyFloat) (op : WhereOp) (expected : Bool)
    (written : String) (literal : Literal) : PyVal → Prop
  | .none => op.isOrdering = true → expected = true
  | .scalar (.str s) =>
      match literal with
      | .str t => ¬Between op s t written
      | .bool _ => op.isOrdering = false
      | _ => op.isOrdering = false ∧
          ∀ x y, asNumber s = some x → literal.number = some y → sameNumber x y = false
  | actual =>
      match literal.number with
      | some y => refuses op y actual = false
      | none => op.isOrdering = false

/-- When a clause that loses its equals sign is: no number passes, and a text has to stand to the text
with the equals sign as it stands to the literal. -/
def DecidesLost (asNumber : String → Option PyFloat) (op : WhereOp) (expected : Bool)
    (equals : String) (literal : Literal) : PyVal → Prop
  | .none => expected = true
  | .scalar (.str s) =>
      match literal with
      | .str u => compareTexts op.strict s equals = true ↔ compareTexts op s u = true
      | .bool _ => compareTexts op.strict s equals = false
      | _ => compareTexts op.strict s equals = true ↔
          ∃ x y, asNumber s = some x ∧ literal.number = some y ∧ compareNumbers op x y = true
  | _ => False

/-- When the clause is decided as it says. -/
def Decides (r : Reading) (asNumber : String → Option PyFloat) (c : Clause) (actual : PyVal)
    (expected : Bool) : Prop :=
  if c.losesEquals then
    DecidesLost asNumber c.op expected
      (r.lower (String.ofList ('=' :: (c.after ++ c.literal)))) (c.reads r) actual
  else
    ∃ l, coerceLiteral r (String.ofList c.literal) = .ok l ∧
      DecidesKept asNumber c.op expected (String.ofList c.literal) l actual

/-! ### Comparisons -/

section Comparisons

variable {r : Reading} {asNumber : String → Option PyFloat} {op : WhereOp} {actual : PyVal}
variable {l : Literal} {s : String} {expected : Bool}

theorem ite_ok_iff {c : Bool} {e : WhereError} {x y : Bool} :
    (if c then .error e else .ok x : Except WhereError Bool) = .ok y ↔ c = false ∧ x = y := by
  cases c <;> simp

/-- Two numbers are compared unless one of them is refused. -/
theorem compare_numbers {x y : PyFloat} (hx : numberOf actual = some x) (hy : l.number = some y) :
    compare r op actual l =
      if refuses op y actual then .error .invalidOperation else .ok (compareNumbers op x y) := by
  unfold compare
  cases actual with
  | object name => cases hx
  | _ =>
      dsimp only
      rw [hx, hy]

theorem equalsExpected_bool (result expected : Bool) :
    equalsExpected r result (.bool expected) = .ok (result == expected) := by
  cases result <;> cases expected <;> rfl

theorem matchesWhere_withClause (r : Reading) (payload : PyVal) (cp : CompiledPolicy) (c : Clause)
    (expected : Bool) :
    matchesWhere r payload (withClause cp c expected) =
      evaluateExpressionWhere r payload (String.ofList c.field) c.found.1
        (String.ofList c.found.2) (.bool expected) := by
  have hcondition : matchesCondition r payload c.text (.bool expected) =
      evaluateExpressionWhere r payload (String.ofList c.field) c.found.1
        (String.ofList c.found.2) (.bool expected) := by
    unfold matchesCondition
    rw [exprWhere_text]
  show matchesConditions r payload [(c.text, .bool expected)] = _
  simp only [matchesConditions, hcondition]
  cases evaluateExpressionWhere r payload (String.ofList c.field) c.found.1
      (String.ofList c.found.2) (.bool expected) with
  | error e => rfl
  | ok found =>
      cases found with
      | true => rfl
      | false => rfl

/-- Nothing but inequality holds of what is missing. -/
theorem holds_of_isNone (h : isNone actual = true) :
    holds asNumber op actual l = decide (op = .ne) := by
  cases actual with
  | none => rfl
  | _ => cases h

theorem ne_of_isOrdering (h : op.isOrdering = true) : op ≠ .ne := by
  rintro rfl
  cases h

theorem evaluateExpressionWhere_eq (r : Reading) (payload : PyVal) (field : String) (op : WhereOp)
    (literal : String) (expected : Bool) {l : Literal} (hl : coerceLiteral r literal = .ok l) :
    evaluateExpressionWhere r payload field op literal (.bool expected) =
      if isNone (valueAt [field] payload) = true ∧ op.isOrdering = true then .ok false
      else (compare r op (valueAt [field] payload) l).map (· == expected) := by
  unfold evaluateExpressionWhere
  rw [hl]
  simp only [bind, Except.bind, Bool.and_eq_true]
  by_cases hmissing : isNone (valueAt [field] payload) = true ∧ op.isOrdering = true
  · rw [if_pos hmissing, if_pos hmissing]
    rfl
  · rw [if_neg hmissing, if_neg hmissing]
    cases compare r op (valueAt [field] payload) l with
    | error e => rfl
    | ok result => exact equalsExpected_bool result expected

/-- The result of an expression is the one that is written: a missing value is never ordered, and what
is compared comes out as it is written. -/
theorem evaluated_iff (payload : PyVal) (field literal : String) {written : Bool}
    (hl : coerceLiteral r literal = .ok l)
    (hmissing : isNone (valueAt [field] payload) = true → op.isOrdering = true → written = false) :
    evaluateExpressionWhere r payload field op literal (.bool expected) =
        .ok (written == expected) ↔
      if isNone (valueAt [field] payload) = true ∧ op.isOrdering = true then expected = true
      else compare r op (valueAt [field] payload) l = .ok written := by
  rw [evaluateExpressionWhere_eq r payload field op literal expected hl]
  by_cases hnone : isNone (valueAt [field] payload) = true ∧ op.isOrdering = true
  · rw [if_pos hnone, if_pos hnone, hmissing hnone.1 hnone.2]
    cases expected <;> simp
  · rw [if_neg hnone, if_neg hnone]
    cases compare r op (valueAt [field] payload) l with
    | error e => simp [Except.map]
    | ok result => cases result <;> cases written <;> cases expected <;> simp [Except.map]

/-! ### The table -/

theorem lt_iff_lt_iff_between {α : Type} [LinearOrder α] {s t u : α} :
    (t < s ↔ u < s) ↔ ¬(min t u < s ∧ s ≤ max t u) := by
  rw [min_lt_iff, le_max_iff, ← not_lt, ← not_lt]
  tauto

theorem gt_iff_gt_iff_between {α : Type} [LinearOrder α] {s t u : α} :
    (s < t ↔ s < u) ↔ ¬(min t u ≤ s ∧ s < max t u) := by
  rw [min_le_iff, lt_max_iff, ← not_lt, ← not_lt]
  tauto

theorem compareTexts_eq_iff {t u : String} :
    compareTexts op s t = compareTexts op s u ↔ ¬Between op s t u := by
  cases op with
  | gt => exact decide_eq_decide.trans lt_iff_lt_iff_between
  | lt => exact decide_eq_decide.trans gt_iff_gt_iff_between
  | ge =>
      refine decide_eq_decide.trans (Iff.trans ?_ gt_iff_gt_iff_between)
      rw [← not_lt, ← not_lt, not_iff_not]
  | le =>
      refine decide_eq_decide.trans (Iff.trans ?_ lt_iff_lt_iff_between)
      rw [← not_lt, ← not_lt, not_iff_not]
  | eq | ne =>
      by_cases htu : t = u
      · subst htu
        simp [Between]
      · have hnot : s = t → s ≠ u := fun hst hsu => htu (hst.symm.trans hsu)
        simp only [compareTexts, Between, decide_eq_decide, ne_eq]
        tauto

/-- A literal of a text stands for the text as it is written. -/
def Literal.asWritten (written : String) : Literal → Literal
  | .str _ => .str written
  | l => l

/-- The comparison of a text with a number other than a truth value. -/
theorem holds_text_number {y : PyFloat} (hy : l.number = some y) (hl : ∀ b, l ≠ .bool b) :
    holds asNumber op (.scalar (.str s)) l =
      match asNumber s with
      | some x => compareNumbers op x y
      | none => decide (op = .ne) := by
  cases l with
  | bool b => exact absurd rfl (hl b)
  | str t => cases hy
  | int i | float x =>
      obtain rfl := Option.some.inj hy
      simp only [holds, operandNumber]
      cases asNumber s <;> rfl

/-- A text beside a number: an ordering raises, and otherwise the two must not be the same number. -/
theorem kept_text_number {y : PyFloat} (hy : l.number = some y) (hl : ∀ b, l ≠ .bool b) :
    compare r op (.scalar (.str s)) l = .ok (holds asNumber op (.scalar (.str s)) l) ↔
      op.isOrdering = false ∧
        ∀ x y, asNumber s = some x → l.number = some y → sameNumber x y = false := by
  have hcompare : compare r op (.scalar (.str s)) l =
      if op.isOrdering then .error .typeError else .ok (op = .ne) := by
    cases l with
    | str t => cases hy
    | _ => rfl
  rw [hcompare, ite_ok_iff, holds_text_number hy hl]
  refine and_congr_right fun hop => ?_
  cases asNumber s with
  | none => simp
  | some x =>
      cases op with
      | eq | ne => simp [compareNumbers, hy]
      | _ => cases hop

/-- A number beside a number or a text. -/
theorem kept_number {x : PyFloat} (hx : numberOf actual = some x) (written : String) :
    compare r op actual l = .ok (holds asNumber op actual (l.asWritten written)) ↔
      match l.number with
      | some y => refuses op y actual = false
      | none => op.isOrdering = false := by
  have hoperand : ∀ l', operandNumber asNumber actual l' = some x ∧
      ∀ t, compare r op actual (.str t) =
        (if op.isOrdering then .error .typeError else .ok (op = .ne)) := by
    intro l'
    cases actual with
    | object name => cases hx
    | scalar v =>
        cases v with
        | str s => cases hx
        | _ => exact ⟨hx, fun t => rfl⟩
    | _ => exact ⟨hx, fun t => rfl⟩
  cases l with
  | str t =>
      have hholds : holds asNumber op actual (.str written) = decide (op = .ne) := by
        unfold holds
        rw [(hoperand _).1]
        cases actual with
        | scalar v =>
            cases v with
            | str s => cases hx
            | _ => rfl
        | _ => rfl
      rw [(hoperand (.str t)).2, ite_ok_iff, Literal.asWritten, hholds]
      exact and_iff_left rfl
  | _ =>
      rw [compare_numbers hx rfl, ite_ok_iff]
      refine and_iff_left ?_
      simp only [Literal.asWritten, holds, (hoperand _).1]
      rfl

/-- What the comparison comes to where the operator is the one that is written. -/
theorem decidesKept_iff (h : Plain actual) (written : String) :
    (if isNone actual = true ∧ op.isOrdering = true then expected = true
      else compare r op actual l = .ok (holds asNumber op actual (l.asWritten written))) ↔
      DecidesKept asNumber op expected written l actual := by
  cases actual with
  | none =>
      have hcompare : compare r op .none l =
          if op.isOrdering then .error .typeError else .ok (op = .ne) := by
        cases l <;> rfl
      rw [hcompare, holds_of_isNone rfl]
      cases hop : op.isOrdering <;> simp [DecidesKept, isNone, hop]
  | int i => exact kept_number rfl written
  | scalar v =>
      cases v with
      | decimal d => exact kept_number rfl written
      | str s =>
          cases l with
          | str t =>
              show Except.ok (compareTexts op s t) = Except.ok (compareTexts op s written) ↔ _
              rw [Except.ok.injEq]
              exact compareTexts_eq_iff
          | bool b => exact ite_ok_iff.trans (and_iff_left rfl)
          | int i => exact kept_text_number rfl (by simp)
          | float x => exact kept_text_number rfl (by simp)
      | _ => exact h.elim
  | _ => exact h.elim

/-- What it comes to where the literal has taken the equals sign. -/
theorem decidesLost_iff (h : Plain actual) (hop : op.isOrdering = true) (equals : String) :
    (if isNone actual = true ∧ op.strict.isOrdering = true then expected = true
      else compare r op.strict actual (.str equals) = .ok (holds asNumber op actual l)) ↔
      DecidesLost asNumber op expected equals l actual := by
  have hstrict : op.strict.isOrdering = true := by
    cases op with
    | eq | ne => cases hop
    | _ => rfl
  have hne : decide (op = .ne) = false := decide_eq_false (ne_of_isOrdering hop)
  have hnumber : ∀ {x : Bool}, ¬(if op.strict.isOrdering then .error .typeError
      else .ok (op.strict = .ne) : Except WhereError Bool) = .ok x := by
    intro x hx
    rw [hstrict] at hx
    cases hx
  cases actual with
  | none => simp [DecidesLost, isNone, hstrict]
  | int i => exact iff_of_false hnumber fun h => h
  | scalar v =>
      cases v with
      | decimal d => exact iff_of_false hnumber fun h => h
      | str s =>
          have hcompare : ∀ x, compare r op.strict (.scalar (.str s)) (.str equals) = .ok x ↔
              compareTexts op.strict s equals = x := by
            intro x
            show Except.ok (compareTexts op.strict s equals) = Except.ok x ↔ _
            rw [Except.ok.injEq]
          refine (hcompare _).trans ?_
          cases l with
          | str u => exact Bool.eq_iff_iff
          | bool b =>
              show _ = decide (op = .ne) ↔ _
              rw [hne]
              rfl
          | int i =>
              rw [holds_text_number (l := .int i) rfl (by simp), Bool.eq_iff_iff]
              refine iff_congr Iff.rfl ?_
              cases asNumber s <;> simp [Literal.number, hne]
          | float x =>
              rw [holds_text_number (l := .float x) rfl (by simp), Bool.eq_iff_iff]
              refine iff_congr Iff.rfl ?_
              cases asNumber s <;> simp [Literal.number, hne]
      | _ => exact h.elim
  | _ => exact h.elim

end Comparisons

/-! ### Literals -/

theorem reads_of_coerceLiteral {r : Reading} {c : Clause} {l : Literal}
    (h : coerceLiteral r (String.ofList c.literal) = .ok l) :
    c.reads r = l.asWritten (String.ofList c.literal) := by
  unfold Clause.reads
  rw [h]
  cases l <;> rfl

/-- A text that begins with an equals sign is read as a text. -/
theorem coerceLiteral_equals {r : Reading} (h : ReadsEquals r) {l : List Char}
    (hlast : ('=' :: l).getLast?.any (fun c => !isSpace c) = true) :
    coerceLiteral r (String.ofList ('=' :: l)) = .ok (.str (r.lower (String.ofList ('=' :: l)))) := by
  have hstrip : strip (String.ofList ('=' :: l)) = String.ofList ('=' :: l) := by
    unfold strip
    rw [String.toList_ofList, dropWhile_eq_self (l := '=' :: l) rfl,
      dropWhile_eq_self (by rw [List.head?_reverse]; exact hlast), List.reverse_reverse]
  have hhead : (r.lower (String.ofList ('=' :: l))).toList.head? = some '=' :=
    h.lower _ (by rw [String.toList_ofList]; rfl)
  unfold coerceLiteral
  dsimp only
  rw [hstrip]
  generalize r.lower (String.ofList ('=' :: l)) = s at hhead
  have hminus : ¬(s.toList.head? = some '-') := by
    rw [hhead]
    decide
  rw [if_neg (by rintro rfl; exact absurd hhead (by decide)),
    if_neg (by rintro rfl; exact absurd hhead (by decide)),
    if_neg (by simp [h.isdigit s hhead, hminus]), h.float s hhead]

/-- **When a where-clause is decided as it says**, by its operator, its literal and the value. -/
theorem matchesWhere_right_iff {r : Reading} (hequals : ReadsEquals r)
    (asNumber : String → Option PyFloat) (c : Clause) (payload : PyVal) (expected : Bool)
    (cp : CompiledPolicy) (h : Plain (c.actual payload)) :
    Right r asNumber c payload expected cp ↔ Decides r asNumber c (c.actual payload) expected := by
  have hmissing : ∀ l, isNone (c.actual payload) = true → c.op.isOrdering = true →
      holds asNumber c.op (c.actual payload) l = false := fun l hnone hop =>
    (holds_of_isNone hnone).trans (decide_eq_false (ne_of_isOrdering hop))
  unfold Right Decides
  rw [matchesWhere_withClause, Clause.found]
  cases hlost : c.losesEquals with
  | true =>
      have hop : c.op.isOrdering = true := by
        unfold Clause.losesEquals at hlost
        cases hcase : c.op <;> rw [hcase] at hlost <;> first | rfl | cases hlost
      have hne : c.literal ≠ [] := by
        intro hnil
        have hhead := c.literal_head
        rw [hnil] at hhead
        cases hhead
      have hlast : ('=' :: (c.after ++ c.literal)).getLast?.any (fun c => !isSpace c) = true := by
        rw [← List.cons_append, List.getLast?_append_of_ne_nil _ hne]
        exact c.literal_last
      rw [if_pos rfl, if_pos rfl, ← decidesLost_iff h hop]
      exact evaluated_iff payload _ _ (coerceLiteral_equals hequals hlast)
        fun hnone _ => hmissing _ hnone hop
  | false =>
      rw [if_neg Bool.false_ne_true, if_neg Bool.false_ne_true]
      cases hl : coerceLiteral r (String.ofList c.literal) with
      | error e =>
          refine iff_of_false (fun hright => ?_) fun ⟨_, hl', _⟩ => by cases hl'
          unfold evaluateExpressionWhere at hright
          rw [hl] at hright
          cases hright
      | ok l =>
          simp only [Except.ok.injEq, exists_eq_left']
          rw [reads_of_coerceLiteral hl, ← decidesKept_iff (r := r) h]
          exact evaluated_iff payload _ _ hl (hmissing _)

/-- A number that is above five, or that is not, with a text of five for the literal. -/
def quantityClause (op : WhereOp) : Clause where
  field := "quantity_change".toList
  op := op
  literal := ['5']
  lead := []
  before := [' ']
  after := [' ']
  trail := []
  field_chars := List.all_eq_true.mp (by decide)
  field_head := by decide
  literal_head := by decide
  literal_last := by decide
  literal_line := by decide
  lead_space := List.all_eq_true.mp (by decide)
  before_space := List.all_eq_true.mp (by decide)
  after_space := List.all_eq_true.mp (by decide)
  trail_space := List.all_eq_true.mp (by decide)

/-- Five and ten are numbers. -/
def quantityReading : Reading :=
  { sampleReading with
    isdigit := fun s => s = "5"
    int := fun s => if s = "5" then some 5 else none
    float := fun s =>
      if s = "5" then some (.finite 5) else if s = "10" then some (.finite 10) else none }

def quantityPayload (value : PyVal) : PyVal := .dict [("quantity_change", value)]

theorem readsEquals_quantity : ReadsEquals quantityReading where
  lower _ h := h
  isdigit s h := decide_eq_false (by rintro rfl; exact absurd h (by decide))
  float s h := by
    have hfive : s ≠ "5" := by
      rintro rfl
      exact absurd h (by decide)
    have hten : s ≠ "10" := by
      rintro rfl
      exact absurd h (by decide)
    show (if s = "5" then _ else if s = "10" then _ else none) = none
    rw [if_neg hfive, if_neg hten]

/-- Ten is above five. -/
theorem matchesWhere_right_quantity :
    Right quantityReading quantityReading.float (quantityClause .gt) (quantityPayload (.int 10))
      true (samplePolicy "ReceiptA") :=
  (matchesWhere_right_iff readsEquals_quantity quantityReading.float (quantityClause .gt)
    (quantityPayload (.int 10)) true (samplePolicy "ReceiptA") trivial).mpr
      ⟨.int 5, rfl, rfl⟩

/-- Ten is at least five, and a text of ten is above five, but both comparisons raise. -/
theorem not_matchesWhere_right :
    ¬Right quantityReading quantityReading.float (quantityClause .ge) (quantityPayload (.int 10))
        true (samplePolicy "ReceiptA") ∧
      ¬Right quantityReading quantityReading.float (quantityClause .gt)
        (quantityPayload (.scalar (.str "10"))) true (samplePolicy "ReceiptA") := by
  constructor
  · intro h
    have hraised : matchesWhere quantityReading (quantityPayload (.int 10))
        (withClause (samplePolicy "ReceiptA") (quantityClause .ge) true) = .error .typeError := by
      decide +kernel
    unfold Right at h
    rw [hraised] at h
    cases h
  · intro h
    have hraised : matchesWhere quantityReading (quantityPayload (.scalar (.str "10")))
        (withClause (samplePolicy "ReceiptA") (quantityClause .gt) true) = .error .typeError := by
      decide +kernel
    unfold Right at h
    rw [hraised] at h
    cases h

end FinanceAccounting.PackPolicySource
