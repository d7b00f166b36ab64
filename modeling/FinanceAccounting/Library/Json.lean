import Mathlib.Data.List.TakeWhile
import Mathlib.Data.Char
import Mathlib.Tactic.Linarith
import FinanceAccounting.Library.Numeral

/-! # Compact ASCII JSON

JSON documents with integer numbers, printed without white space and with every character
outside the printable ASCII range escaped, characters beyond the basic plane as a surrogate
pair.  An object prints its members in the order of its list.

`render` prints nothing after a comma or a colon, `renderWith` some fixed padding.

Printing is uniquely readable: no document's text followed by a delimiter is the beginning of
another document's text (`Json.renderWith_append_inj`), hence two documents with one text are
equal (`Json.renderWith_injective`, `Json.render_injective`).  Each syntactic category has its own
lemma of this shape, whose conclusion is that both the printed things and the remaining texts
agree. -/

/-- A JSON document. -/
inductive Json where
  | null
  | bool (b : Bool)
  | int (i : ℤ)
  | str (s : String)
  | arr (xs : List Json)
  | obj (ms : List (String × Json))

namespace Json

open Numeral

/-! ### Strings -/

/-- A `\u` escape of one UTF-16 unit. -/
def unitEscape (n : ℕ) : List Char := '\\' :: 'u' :: padded 16 4 n

/-- The letter of a two-character escape. -/
def shortEscape (c : Char) : Option Char :=
  if c = '"' then some '"'
  else if c = '\\' then some '\\'
  else if c = '\n' then some 'n'
  else if c = '\r' then some 'r'
  else if c = '\t' then some 't'
  else if c = '\x0c' then some 'f'
  else if c = '\x08' then some 'b'
  else none

/-- One character inside a string literal. -/
def escapeChar (c : Char) : List Char :=
  match shortEscape c with
  | some x => ['\\', x]
  | none =>
      if ' ' ≤ c ∧ c ≤ '~' then [c]
      else if c.toNat < 0x10000 then unitEscape c.toNat
      else
        let v := c.toNat - 0x10000
        unitEscape (0xd800 + v / 1024 % 1024) ++ unitEscape (0xdc00 + v % 1024)

/-- A string literal. -/
def quote (s : String) : List Char := '"' :: (s.toList.flatMap escapeChar ++ ['"'])

/-! ### Documents -/

/-- An integer number. -/
def intChars (i : ℤ) : List Char := (if i < 0 then ['-'] else []) ++ Nat.toDigits 10 i.natAbs

mutual

/-- The text of a document. -/
def render : Json → List Char
  | null => ['n', 'u', 'l', 'l']
  | bool b => if b then ['t', 'r', 'u', 'e'] else ['f', 'a', 'l', 's', 'e']
  | int i => intChars i
  | str s => quote s
  | arr xs => '[' :: renderItems true xs
  | obj ms => '{' :: renderMembers true ms

/-- The items of an array up to its bracket; a comma precedes all but the first. -/
def renderItems (first : Bool) : List Json → List Char
  | [] => [']']
  | x :: xs => (if first then [] else [',']) ++ (render x ++ renderItems false xs)

/-- The members of an object up to its brace. -/
def renderMembers (first : Bool) : List (String × Json) → List Char
  | [] => ['}']
  | (k, v) :: ms =>
      (if first then [] else [',']) ++
        (quote k ++ (':' :: (render v ++ renderMembers false ms)))

end

mutual

/-- The text of a document with some padding after every comma and colon. -/
def renderWith (pad : List Char) : Json → List Char
  | null => ['n', 'u', 'l', 'l']
  | bool b => if b then ['t', 'r', 'u', 'e'] else ['f', 'a', 'l', 's', 'e']
  | int i => intChars i
  | str s => quote s
  | arr xs => '[' :: renderItemsWith pad true xs
  | obj ms => '{' :: renderMembersWith pad true ms

def renderItemsWith (pad : List Char) (first : Bool) : List Json → List Char
  | [] => [']']
  | x :: xs =>
      (if first then [] else ',' :: pad) ++ (renderWith pad x ++ renderItemsWith pad false xs)

def renderMembersWith (pad : List Char) (first : Bool) : List (String × Json) → List Char
  | [] => ['}']
  | (k, v) :: ms =>
      (if first then [] else ',' :: pad) ++
        (quote k ++ (':' :: (pad ++ (renderWith pad v ++ renderMembersWith pad false ms))))

end

mutual

theorem renderWith_nil : ∀ j : Json, renderWith [] j = render j
  | null => by rw [renderWith, render]
  | bool _ => by rw [renderWith, render]
  | int _ => by rw [renderWith, render]
  | str _ => by rw [renderWith, render]
  | arr xs => by rw [renderWith, render, renderItemsWith_nil true xs]
  | obj ms => by rw [renderWith, render, renderMembersWith_nil true ms]

theorem renderItemsWith_nil : ∀ (first : Bool) (xs : List Json),
    renderItemsWith [] first xs = renderItems first xs
  | _, [] => by rw [renderItemsWith, renderItems]
  | _, x :: xs => by
      rw [renderItemsWith, renderItems, renderWith_nil x, renderItemsWith_nil false xs]

theorem renderMembersWith_nil : ∀ (first : Bool) (ms : List (String × Json)),
    renderMembersWith [] first ms = renderMembers first ms
  | _, [] => by rw [renderMembersWith, renderMembers]
  | _, (k, v) :: ms => by
      rw [renderMembersWith, renderMembers, renderWith_nil v, renderMembersWith_nil false ms,
        List.nil_append]

end

/-! ### Reading strings back -/

theorem unitEscape_append_inj {a b : ℕ} {s t : List Char} (ha : a < 0x10000) (hb : b < 0x10000)
    (h : unitEscape a ++ s = unitEscape b ++ t) : a = b ∧ s = t :=
  padded_append_inj (by decide) (by decide) ha hb (List.cons.inj (List.cons.inj h).2).2

theorem shortEscape_injective {c d x : Char} (hc : shortEscape c = some x)
    (hd : shortEscape d = some x) : c = d := by
  have key : ∀ c, shortEscape c = some x →
      c = if x = 'n' then '\n' else if x = 'r' then '\r' else if x = 't' then '\t'
        else if x = 'f' then '\x0c' else if x = 'b' then '\x08' else x := by
    intro c h
    unfold shortEscape at h
    repeat' split at h
    all_goals first | (obtain rfl := Option.some.inj h; subst c; decide) | cases h
  rw [key c hc, ← key d hd]

theorem shortEscape_ne_u {c x : Char} (h : shortEscape c = some x) : x ≠ 'u' := by
  unfold shortEscape at h
  repeat' split at h
  all_goals first | (obtain rfl := Option.some.inj h; decide) | cases h

/-- How a character is escaped. -/
inductive Escaped (c : Char) : List Char → Prop where
  | short (x : Char) : shortEscape c = some x → Escaped c ['\\', x]
  | plain : c ≠ '\\' → c ≠ '"' → Escaped c [c]
  | unit : c.toNat < 0x10000 → Escaped c (unitEscape c.toNat)
  | pair (v : ℕ) : c.toNat = v + 0x10000 → v < 0x100000 →
      Escaped c (unitEscape (0xd800 + v / 1024 % 1024) ++ unitEscape (0xdc00 + v % 1024))

theorem toNat_lt (c : Char) : c.toNat < 0x110000 := by
  rcases c.valid with h | ⟨-, h⟩
  · have : c.toNat < 0xd800 := h
    omega
  · exact h

/-- A character is not a surrogate. -/
theorem toNat_not_surrogate (c : Char) : c.toNat < 0xd800 ∨ 0xdfff < c.toNat := by
  rcases c.valid with h | ⟨h, -⟩
  · exact Or.inl h
  · exact Or.inr h

theorem escaped_escapeChar (c : Char) : Escaped c (escapeChar c) := by
  unfold escapeChar
  cases h : shortEscape c with
  | some x => exact .short x h
  | none =>
      have hq : c ≠ '"' := by
        rintro rfl
        cases h
      have hb : c ≠ '\\' := by
        rintro rfl
        cases h
      dsimp only
      split
      · exact .plain hb hq
      · split
        · rename_i hlt
          exact .unit hlt
        · have := toNat_lt c
          exact .pair (c.toNat - 0x10000) (by omega) (by omega)

theorem Escaped.append_inj {c d : Char} {e f s t : List Char} (hc : Escaped c e)
    (hd : Escaped d f) (h : e ++ s = f ++ t) : c = d ∧ s = t := by
  cases hc with
  | short x hx =>
      cases hd with
      | short y hy =>
          simp only [List.cons_append, List.nil_append, List.cons.injEq, true_and] at h
          obtain ⟨rfl, rfl⟩ := h
          exact ⟨shortEscape_injective hx hy, rfl⟩
      | plain hb _ => exact absurd (List.cons.inj h).1.symm hb
      | unit _ => exact absurd (List.cons.inj (List.cons.inj h).2).1 (shortEscape_ne_u hx)
      | pair _ _ _ => exact absurd (List.cons.inj (List.cons.inj h).2).1 (shortEscape_ne_u hx)
  | plain hb hq =>
      cases hd with
      | short y hy => exact absurd (List.cons.inj h).1 hb
      | plain _ _ => exact List.cons.inj h
      | unit _ => exact absurd (List.cons.inj h).1 hb
      | pair _ _ _ => exact absurd (List.cons.inj h).1 hb
  | unit hlt =>
      cases hd with
      | short y hy => exact absurd (List.cons.inj (List.cons.inj h).2).1.symm (shortEscape_ne_u hy)
      | plain hb _ => exact absurd (List.cons.inj h).1.symm hb
      | unit hlt' =>
          obtain ⟨hn, rfl⟩ := unitEscape_append_inj hlt hlt' h
          exact ⟨Char.toNat_inj.mp hn, rfl⟩
      | pair v hv hv' =>
          rw [List.append_assoc] at h
          have := (unitEscape_append_inj hlt (by omega) h).1
          have := toNat_not_surrogate c
          omega
  | pair v hv hv' =>
      cases hd with
      | short y hy => exact absurd (List.cons.inj (List.cons.inj h).2).1.symm (shortEscape_ne_u hy)
      | plain hb _ => exact absurd (List.cons.inj h).1.symm hb
      | unit hlt' =>
          rw [List.append_assoc] at h
          have := (unitEscape_append_inj (by omega) hlt' h).1
          have := toNat_not_surrogate d
          omega
      | pair w hw hw' =>
          rw [List.append_assoc, List.append_assoc] at h
          obtain ⟨h₁, h⟩ := unitEscape_append_inj (by omega) (by omega) h
          obtain ⟨h₂, rfl⟩ := unitEscape_append_inj (by omega) (by omega) h
          exact ⟨Char.toNat_inj.mp (by omega), rfl⟩

/-- A quotation mark ends the literal: no escape starts with one. -/
theorem Escaped.head_ne_quote {c : Char} {e s t : List Char} (hc : Escaped c e) :
    e ++ s ≠ '"' :: t := by
  intro h
  cases hc with
  | short x _ => exact absurd (List.cons.inj h).1 (by decide)
  | plain _ hq => exact absurd (List.cons.inj h).1 hq
  | unit _ => exact absurd (List.cons.inj h).1 (by decide)
  | pair _ _ _ => exact absurd (List.cons.inj h).1 (by decide)

theorem escape_append_inj : ∀ (cs ds : List Char) {s t : List Char},
    cs.flatMap escapeChar ++ '"' :: s = ds.flatMap escapeChar ++ '"' :: t → cs = ds ∧ s = t
  | [], [], _, _, h => ⟨rfl, (List.cons.inj h).2⟩
  | [], d :: ds, s, t, h => by
      rw [List.flatMap_cons, List.append_assoc] at h
      exact absurd h.symm (escaped_escapeChar d).head_ne_quote
  | c :: cs, [], s, t, h => by
      rw [List.flatMap_cons, List.append_assoc] at h
      exact absurd h (escaped_escapeChar c).head_ne_quote
  | c :: cs, d :: ds, s, t, h => by
      rw [List.flatMap_cons, List.flatMap_cons, List.append_assoc, List.append_assoc] at h
      obtain ⟨rfl, htail⟩ := (escaped_escapeChar c).append_inj (escaped_escapeChar d) h
      obtain ⟨rfl, rfl⟩ := escape_append_inj cs ds htail
      exact ⟨rfl, rfl⟩

theorem quote_append_inj {a b : String} {s t : List Char} (h : quote a ++ s = quote b ++ t) :
    a = b ∧ s = t := by
  simp only [quote, List.cons_append, List.append_assoc, List.nil_append, List.cons.injEq,
    true_and] at h
  obtain ⟨hab, rfl⟩ := escape_append_inj a.toList b.toList h
  exact ⟨String.toList_inj.mp hab, rfl⟩

/-! ### Reading numbers back -/

/-- The text cannot continue a number. -/
def Delimited (s : List Char) : Prop := ∀ c ∈ s.head?, c.isDigit = false

theorem takeWhile_of_delimited {s : List Char} (h : Delimited s) :
    s.takeWhile Char.isDigit = [] := by
  cases s with
  | nil => rfl
  | cons c s => simp [h c (by simp)]

theorem digits_append_inj {m n : ℕ} {s t : List Char} (hs : Delimited s) (ht : Delimited t)
    (h : Nat.toDigits 10 m ++ s = Nat.toDigits 10 n ++ t) : m = n ∧ s = t := by
  have key : ∀ (k : ℕ) (r : List Char), Delimited r →
      (Nat.toDigits 10 k ++ r).takeWhile Char.isDigit = Nat.toDigits 10 k := by
    intro k r hr
    rw [List.takeWhile_append_of_pos, takeWhile_of_delimited hr, List.append_nil]
    exact fun c hc => isDigit_of_mem hc
  have hd := congrArg (List.takeWhile Char.isDigit) h
  rw [key m s hs, key n t ht] at hd
  rw [hd] at h
  exact ⟨toDigits_injective hd, List.append_cancel_left h⟩

theorem digits_ne_minus {n : ℕ} {s t : List Char} : Nat.toDigits 10 n ++ s ≠ '-' :: t := by
  obtain ⟨c, cs, h, hc⟩ := exists_cons_toDigits n
  rw [h]
  exact fun heq => ne_of_isDigit hc (by decide) (List.cons.inj heq).1

theorem intChars_append_inj {i j : ℤ} {s t : List Char} (hs : Delimited s) (ht : Delimited t)
    (h : intChars i ++ s = intChars j ++ t) : i = j ∧ s = t := by
  unfold intChars at h
  by_cases hi : i < 0 <;> by_cases hj : j < 0 <;>
    simp only [hi, hj, if_true, if_false, List.nil_append, List.cons_append] at h
  · obtain ⟨hn, rfl⟩ := digits_append_inj hs ht (List.cons.inj h).2
    exact ⟨by omega, rfl⟩
  · exact absurd h.symm digits_ne_minus
  · exact absurd h digits_ne_minus
  · obtain ⟨hn, rfl⟩ := digits_append_inj hs ht h
    exact ⟨by omega, rfl⟩

/-! ### Reading documents back -/

/-- The kind of a document, which the first character of its text shows. -/
def kind : Json → ℕ
  | null => 0
  | bool _ => 1
  | int _ => 2
  | str _ => 3
  | arr _ => 4
  | obj _ => 5

/-- The kind of document a character starts. -/
def kindOf (c : Char) : Option ℕ :=
  if c = 'n' then some 0
  else if c = 't' ∨ c = 'f' then some 1
  else if c = '-' ∨ c.isDigit then some 2
  else if c = '"' then some 3
  else if c = '[' then some 4
  else if c = '\x7b' then some 5
  else none

theorem kindOf_of_isDigit {c : Char} (h : c.isDigit) : kindOf c = some 2 := by
  have hn : c ≠ 'n' := ne_of_isDigit h (by decide)
  have ht : c ≠ 't' := ne_of_isDigit h (by decide)
  have hf : c ≠ 'f' := ne_of_isDigit h (by decide)
  simp [kindOf, hn, ht, hf, h]

variable {pad : List Char}

theorem head_renderWith (j : Json) :
    ∃ c cs, renderWith pad j = c :: cs ∧ kindOf c = some j.kind := by
  cases j with
  | null => exact ⟨_, _, by rw [renderWith], rfl⟩
  | bool b => cases b <;> exact ⟨_, _, by rw [renderWith]; rfl, by decide⟩
  | int i =>
      obtain ⟨c, cs, h, hc⟩ := exists_cons_toDigits i.natAbs
      by_cases hi : i < 0
      · exact ⟨'-', c :: cs, by simp [renderWith, intChars, hi, h], rfl⟩
      · exact ⟨c, cs, by simp [renderWith, intChars, hi, h], kindOf_of_isDigit hc⟩
  | str s => exact ⟨_, _, by rw [renderWith, quote], rfl⟩
  | arr xs => exact ⟨_, _, by rw [renderWith], rfl⟩
  | obj ms => exact ⟨_, _, by rw [renderWith], rfl⟩

theorem kind_eq_of_renderWith {j k : Json} {s t : List Char}
    (h : renderWith pad j ++ s = renderWith pad k ++ t) : j.kind = k.kind := by
  obtain ⟨c, cs, hj, hcj⟩ := head_renderWith j
  obtain ⟨d, ds, hk, hdk⟩ := head_renderWith k
  rw [hj, hk] at h
  obtain rfl := (List.cons.inj h).1
  exact Option.some.inj (hcj.symm.trans hdk)

theorem renderWith_ne {j : Json} {c : Char} {s t : List Char} (hc : kindOf c = none) :
    renderWith pad j ++ s ≠ c :: t := by
  obtain ⟨d, ds, hj, hd⟩ := head_renderWith j
  rw [hj]
  intro h
  obtain rfl := (List.cons.inj h).1
  rw [hc] at hd
  cases hd

theorem delimited_renderItemsWith (xs : List Json) (s : List Char) :
    Delimited (renderItemsWith pad false xs ++ s) := by
  cases xs <;> simp [renderItemsWith, Delimited]

theorem delimited_renderMembersWith (ms : List (String × Json)) (s : List Char) :
    Delimited (renderMembersWith pad false ms ++ s) := by
  cases ms <;> simp [renderMembersWith, Delimited]

mutual

/-- **Printing is uniquely readable.** -/
theorem renderWith_append_inj : ∀ (j k : Json) {s t : List Char}, Delimited s → Delimited t →
    renderWith pad j ++ s = renderWith pad k ++ t → j = k ∧ s = t
  | null, k, s, t, hs, ht, h => by
      have hk := kind_eq_of_renderWith h
      cases k <;> simp only [kind, Nat.reduceEqDiff] at hk
      exact ⟨rfl, List.append_cancel_left h⟩
  | bool a, k, s, t, hs, ht, h => by
      have hk := kind_eq_of_renderWith h
      cases k <;> simp only [kind, Nat.reduceEqDiff] at hk
      rename_i b
      cases a <;> cases b <;> simp [renderWith] at h
      · exact ⟨rfl, h⟩
      · exact ⟨rfl, h⟩
  | int i, k, s, t, hs, ht, h => by
      have hk := kind_eq_of_renderWith h
      cases k <;> simp only [kind, Nat.reduceEqDiff] at hk
      rename_i j
      rw [renderWith, renderWith] at h
      obtain ⟨rfl, rfl⟩ := intChars_append_inj hs ht h
      exact ⟨rfl, rfl⟩
  | str a, k, s, t, hs, ht, h => by
      have hk := kind_eq_of_renderWith h
      cases k <;> simp only [kind, Nat.reduceEqDiff] at hk
      rename_i b
      rw [renderWith, renderWith] at h
      obtain ⟨rfl, rfl⟩ := quote_append_inj h
      exact ⟨rfl, rfl⟩
  | arr xs, k, s, t, hs, ht, h => by
      have hk := kind_eq_of_renderWith h
      cases k <;> simp only [kind, Nat.reduceEqDiff] at hk
      rename_i ys
      rw [renderWith, renderWith] at h
      obtain ⟨rfl, rfl⟩ := renderItemsWith_append_inj true xs ys (List.cons.inj h).2
      exact ⟨rfl, rfl⟩
  | obj ms, k, s, t, hs, ht, h => by
      have hk := kind_eq_of_renderWith h
      cases k <;> simp only [kind, Nat.reduceEqDiff] at hk
      rename_i ns
      rw [renderWith, renderWith] at h
      obtain ⟨rfl, rfl⟩ := renderMembersWith_append_inj true ms ns (List.cons.inj h).2
      exact ⟨rfl, rfl⟩

theorem renderItemsWith_append_inj : ∀ (first : Bool) (xs ys : List Json) {s t : List Char},
    renderItemsWith pad first xs ++ s = renderItemsWith pad first ys ++ t → xs = ys ∧ s = t
  | _, [], [], s, t, h => ⟨rfl, List.append_cancel_left h⟩
  | true, [], y :: ys, s, t, h => by
      simp only [renderItemsWith, if_true, List.nil_append, List.cons_append,
        List.append_assoc] at h
      exact absurd h.symm (renderWith_ne (by decide))
  | false, [], y :: ys, s, t, h => by simp [renderItemsWith] at h
  | true, x :: xs, [], s, t, h => by
      simp only [renderItemsWith, if_true, List.nil_append, List.cons_append,
        List.append_assoc] at h
      exact absurd h (renderWith_ne (by decide))
  | false, x :: xs, [], s, t, h => by simp [renderItemsWith] at h
  | first, x :: xs, y :: ys, s, t, h => by
      rw [renderItemsWith, renderItemsWith] at h
      simp only [List.append_assoc] at h
      obtain ⟨rfl, htail⟩ := renderWith_append_inj x y (delimited_renderItemsWith xs s)
        (delimited_renderItemsWith ys t) (List.append_cancel_left h)
      obtain ⟨rfl, rfl⟩ := renderItemsWith_append_inj false xs ys htail
      exact ⟨rfl, rfl⟩

theorem renderMembersWith_append_inj :
    ∀ (first : Bool) (ms ns : List (String × Json)) {s t : List Char},
      renderMembersWith pad first ms ++ s = renderMembersWith pad first ns ++ t → ms = ns ∧ s = t
  | _, [], [], s, t, h => ⟨rfl, List.append_cancel_left h⟩
  | first, [], (l, w) :: ns, s, t, h => by cases first <;> simp [renderMembersWith, quote] at h
  | first, (k, v) :: ms, [], s, t, h => by cases first <;> simp [renderMembersWith, quote] at h
  | first, (k, v) :: ms, (l, w) :: ns, s, t, h => by
      rw [renderMembersWith, renderMembersWith] at h
      simp only [List.append_assoc] at h
      obtain ⟨rfl, hv⟩ := quote_append_inj (List.append_cancel_left h)
      simp only [List.cons_append, List.append_assoc, List.cons.injEq, true_and] at hv
      obtain ⟨rfl, htail⟩ := renderWith_append_inj v w (delimited_renderMembersWith ms s)
        (delimited_renderMembersWith ns t) (List.append_cancel_left hv)
      obtain ⟨rfl, rfl⟩ := renderMembersWith_append_inj false ms ns htail
      exact ⟨rfl, rfl⟩

end

theorem delimited_nil : Delimited [] := by simp [Delimited]

/-- **Documents with one text are equal.** -/
theorem renderWith_injective {j k : Json} (h : renderWith pad j = renderWith pad k) : j = k := by
  have h' : renderWith pad j ++ [] = renderWith pad k ++ [] := by rw [h]
  exact (renderWith_append_inj j k delimited_nil delimited_nil h').1

theorem render_injective {j k : Json} (h : render j = render k) : j = k := by
  rw [← renderWith_nil, ← renderWith_nil] at h
  exact renderWith_injective h

end Json
