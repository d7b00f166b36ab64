import Mathlib.Data.List.TakeWhile

/-! # Separated texts

Texts that are put together with separators and nothing else: the items of a list between brackets,
the members of a dict between braces, and parts with bars between them.  Nothing is escaped, so a text
can be read back only when no leaf contains what may follow it.  `Plain` says so of a tree; plain trees
with one text are one tree (`text_append_inj`). -/

namespace SeparatedTexts

/-! ### Up to a separator -/

/-- What stands before the first character of a kind. -/
theorem append_inj_of_stop {α : Type*} {p : α → Bool} {a b x y : List α} (ha : ∀ c ∈ a, p c = false)
    (hb : ∀ c ∈ b, p c = false) (hx : ∀ c ∈ x.head?, p c = true) (hy : ∀ c ∈ y.head?, p c = true)
    (h : a ++ x = b ++ y) : a = b ∧ x = y := by
  have key : ∀ l z : List α, (∀ c ∈ l, p c = false) → (∀ c ∈ z.head?, p c = true) →
      (l ++ z).takeWhile (fun c => !p c) = l := by
    intro l z hl hz
    rw [List.takeWhile_append_of_pos fun c hc => by rw [hl c hc]; rfl]
    cases z with
    | nil => simp
    | cons c z => simp [hz c rfl]
  have hab : a = b := by rw [← key a x ha hx, ← key b y hb hy, h]
  subst hab
  exact ⟨rfl, List.append_cancel_left h⟩

/-! ### Trees -/

inductive Tree where
  | leaf (s : List Char)
  | list (ts : List Tree)
  | dict (ms : List (List Char × Tree))

instance : Inhabited Tree := ⟨.leaf []⟩

mutual

def text : Tree → List Char
  | .leaf s => s
  | .list ts => '[' :: itemsText true ts
  | .dict ms => '\x7b' :: membersText true ms

/-- The items up to the bracket; a comma precedes all but the first. -/
def itemsText (first : Bool) : List Tree → List Char
  | [] => [']']
  | t :: ts => (if first then [] else [',']) ++ (text t ++ itemsText false ts)

def membersText (first : Bool) : List (List Char × Tree) → List Char
  | [] => ['\x7d']
  | (k, t) :: ms =>
      (if first then [] else [',']) ++ (k ++ (':' :: (text t ++ membersText false ms)))

end

/-- The characters that may follow a text. -/
def stops (c : Char) : Bool := c = ',' || c = ']' || c = '\x7d' || c = '|'

mutual

/-- No leaf contains what may follow it or begins like a list or a dict, no key contains a colon or
begins like the end of a dict, and no list has an empty leaf as its only item. -/
def Plain : Tree → Prop
  | .leaf s => (∀ c ∈ s, stops c = false) ∧ ∀ c ∈ s.head?, c ≠ '[' ∧ c ≠ '\x7b'
  | .list ts => ts ≠ [.leaf []] ∧ PlainItems ts
  | .dict ms => PlainMembers ms

def PlainItems : List Tree → Prop
  | [] => True
  | t :: ts => Plain t ∧ PlainItems ts

def PlainMembers : List (List Char × Tree) → Prop
  | [] => True
  | (k, t) :: ms => (':' ∉ k ∧ ∀ c ∈ k.head?, c ≠ '\x7d') ∧ Plain t ∧ PlainMembers ms

end

/-! ### Reading back -/

section Reading

variable {s s' : List Char} {t : Tree} {ts : List Tree}

/-- The text can follow another. -/
def Follows (s : List Char) : Prop := ∀ c ∈ s.head?, stops c = true

theorem follows_itemsText (ts : List Tree) (s : List Char) : Follows (itemsText false ts ++ s) := by
  cases ts <;> simp [itemsText, Follows, stops]

theorem follows_membersText (ms : List (List Char × Tree)) (s : List Char) :
    Follows (membersText false ms ++ s) := by
  cases ms <;> simp [membersText, Follows, stops]

/-- No plain leaf begins like a list or a dict. -/
theorem leaf_ne_open {c : Char} {l : List Char} (hplain : Plain (.leaf l)) (hs : Follows s)
    (hc : c = '[' ∨ c = '\x7b') : l ++ s ≠ c :: s' := by
  rw [Plain] at hplain
  intro h
  cases l with
  | nil =>
    have hstop := hs c (by simp only [List.nil_append] at h; rw [h]; rfl)
    rcases hc with rfl | rfl <;> cases hstop
  | cons d l =>
    obtain rfl := (List.cons.inj h).1
    obtain ⟨hlist, hdict⟩ := hplain.2 d rfl
    exact hc.elim hlist hdict

/-- A first item does not begin like the end of the list. -/
theorem item_ne_close (hplain : Plain t) (hsome : t :: ts ≠ [.leaf []]) :
    text t ++ (itemsText false ts ++ s) ≠ ']' :: s' := by
  intro h
  cases t with
  | leaf l =>
    rw [text] at h
    rw [Plain] at hplain
    cases l with
    | nil =>
      cases ts with
      | nil => exact hsome rfl
      | cons u us => simp [itemsText] at h
    | cons d l =>
      obtain rfl := (List.cons.inj h).1
      cases hplain.1 ']' List.mem_cons_self
  | list us => simp [text] at h
  | dict ms => simp [text] at h

mutual

/-- **Plain trees are read back** from their texts. -/
theorem text_append_inj : ∀ (t u : Tree) {s s' : List Char}, Plain t → Plain u → Follows s →
    Follows s' → text t ++ s = text u ++ s' → t = u ∧ s = s'
  | .leaf l, .leaf m, s, s', ht, hu, hs, hs', h => by
      rw [Plain] at ht hu
      rw [text, text] at h
      obtain ⟨rfl, rfl⟩ := append_inj_of_stop ht.1 hu.1 hs hs' h
      exact ⟨rfl, rfl⟩
  | .leaf l, .list us, s, s', ht, _, hs, _, h => by
      rw [text, text] at h
      exact absurd h (leaf_ne_open ht hs (.inl rfl))
  | .leaf l, .dict ns, s, s', ht, _, hs, _, h => by
      rw [text, text] at h
      exact absurd h (leaf_ne_open ht hs (.inr rfl))
  | .list ts, .leaf m, s, s', _, hu, _, hs', h => by
      rw [text, text] at h
      exact absurd h.symm (leaf_ne_open hu hs' (.inl rfl))
  | .dict ms, .leaf m, s, s', _, hu, _, hs', h => by
      rw [text, text] at h
      exact absurd h.symm (leaf_ne_open hu hs' (.inr rfl))
  | .list ts, .dict ns, s, s', _, _, _, _, h => by simp [text] at h
  | .dict ms, .list us, s, s', _, _, _, _, h => by simp [text] at h
  | .list ts, .list us, s, s', ht, hu, _, _, h => by
      rw [Plain] at ht hu
      rw [text, text] at h
      obtain ⟨rfl, rfl⟩ := itemsText_append_inj true ts us ht.2 hu.2 (fun _ => ⟨ht.1, hu.1⟩)
        (List.cons.inj h).2
      exact ⟨rfl, rfl⟩
  | .dict ms, .dict ns, s, s', ht, hu, _, _, h => by
      rw [Plain] at ht hu
      rw [text, text] at h
      obtain ⟨rfl, rfl⟩ := membersText_append_inj true ms ns ht hu (List.cons.inj h).2
      exact ⟨rfl, rfl⟩

theorem itemsText_append_inj : ∀ (first : Bool) (ts us : List Tree) {s s' : List Char},
    PlainItems ts → PlainItems us → (first = true → ts ≠ [.leaf []] ∧ us ≠ [.leaf []]) →
      itemsText first ts ++ s = itemsText first us ++ s' → ts = us ∧ s = s'
  | _, [], [], s, s', _, _, _, h => ⟨rfl, List.append_cancel_left h⟩
  | true, [], u :: us, s, s', _, hu, hsome, h => by
      rw [PlainItems] at hu
      simp only [itemsText, if_true, List.nil_append, List.cons_append, List.append_assoc] at h
      exact absurd h.symm (item_ne_close hu.1 (hsome rfl).2)
  | false, [], u :: us, s, s', _, _, _, h => by simp [itemsText] at h
  | true, t :: ts, [], s, s', ht, _, hsome, h => by
      rw [PlainItems] at ht
      simp only [itemsText, if_true, List.nil_append, List.cons_append, List.append_assoc] at h
      exact absurd h (item_ne_close ht.1 (hsome rfl).1)
  | false, t :: ts, [], s, s', _, _, _, h => by simp [itemsText] at h
  | first, t :: ts, u :: us, s, s', ht, hu, _, h => by
      rw [PlainItems] at ht hu
      rw [itemsText, itemsText] at h
      simp only [List.append_assoc] at h
      obtain ⟨rfl, htail⟩ := text_append_inj t u ht.1 hu.1 (follows_itemsText ts s)
        (follows_itemsText us s') (List.append_cancel_left h)
      obtain ⟨rfl, rfl⟩ := itemsText_append_inj false ts us ht.2 hu.2 nofun htail
      exact ⟨rfl, rfl⟩

theorem membersText_append_inj : ∀ (first : Bool) (ms ns : List (List Char × Tree))
    {s s' : List Char}, PlainMembers ms → PlainMembers ns →
      membersText first ms ++ s = membersText first ns ++ s' → ms = ns ∧ s = s'
  | _, [], [], s, s', _, _, h => ⟨rfl, List.append_cancel_left h⟩
  | false, [], (l, u) :: ns, s, s', _, _, h => by simp [membersText] at h
  | false, (k, t) :: ms, [], s, s', _, _, h => by simp [membersText] at h
  | true, [], (l, u) :: ns, s, s', _, hu, h => by
      rw [PlainMembers] at hu
      cases l with
      | nil => simp [membersText] at h
      | cons c l =>
        simp only [membersText, if_true, List.nil_append, List.cons_append, List.cons.injEq] at h
        exact absurd h.1.symm (hu.1.2 c rfl)
  | true, (k, t) :: ms, [], s, s', ht, _, h => by
      rw [PlainMembers] at ht
      cases k with
      | nil => simp [membersText] at h
      | cons c k =>
        simp only [membersText, if_true, List.nil_append, List.cons_append, List.cons.injEq] at h
        exact absurd h.1 (ht.1.2 c rfl)
  | first, (k, t) :: ms, (l, u) :: ns, s, s', ht, hu, h => by
      rw [PlainMembers] at ht hu
      rw [membersText, membersText] at h
      simp only [List.append_assoc] at h
      have hcolon : ∀ {a : List Char}, ':' ∉ a → ∀ c ∈ a, (c == ':') = false := fun ha c hc =>
        beq_eq_false_iff_ne.mpr fun heq => ha (heq ▸ hc)
      obtain ⟨rfl, hvalue⟩ := append_inj_of_stop (p := (· == ':')) (hcolon ht.1.1) (hcolon hu.1.1)
        (by simp) (by simp) (List.append_cancel_left h)
      simp only [List.cons_append, List.append_assoc, List.cons.injEq, true_and] at hvalue
      obtain ⟨rfl, htail⟩ := text_append_inj t u ht.2.1 hu.2.1 (follows_membersText ms s)
        (follows_membersText ns s') hvalue
      obtain ⟨rfl, rfl⟩ := membersText_append_inj false ms ns ht.2.2 hu.2.2 htail
      exact ⟨rfl, rfl⟩

end

end Reading

/-! ### Joins -/

/-- The texts with a separator between them. -/
def join (sep : Char) : List (List Char) → List Char
  | [] => []
  | [s] => s
  | s :: rest => s ++ sep :: join sep rest

/-- What follows the first text. -/
def joinRest (sep : Char) : List (List Char) → List Char
  | [] => []
  | s :: rest => sep :: join sep (s :: rest)

theorem join_cons (sep : Char) (s : List Char) (rest : List (List Char)) :
    join sep (s :: rest) = s ++ joinRest sep rest := by
  cases rest with
  | nil => simp [join, joinRest]
  | cons t rest => rfl

theorem itemsText_false (ts : List Tree) :
    itemsText false ts = joinRest ',' (ts.map text) ++ [']'] := by
  induction ts with
  | nil => rfl
  | cons t ts ih =>
    rw [itemsText, ih, List.map_cons, joinRest, join_cons]
    simp

/-- A list is its items with commas between them, in brackets. -/
theorem text_list (ts : List Tree) : text (.list ts) = '[' :: (join ',' (ts.map text) ++ [']']) := by
  rw [text]
  cases ts with
  | nil => rfl
  | cons t ts => simp [itemsText, itemsText_false, join_cons]

theorem membersText_false (ms : List (List Char × Tree)) : membersText false ms =
    joinRest ',' (ms.map fun m => m.1 ++ ':' :: text m.2) ++ ['\x7d'] := by
  induction ms with
  | nil => rfl
  | cons m ms ih =>
    obtain ⟨k, t⟩ := m
    rw [membersText, ih, List.map_cons, joinRest, join_cons]
    simp

theorem text_dict (ms : List (List Char × Tree)) : text (.dict ms) =
    '\x7b' :: (join ',' (ms.map fun m => m.1 ++ ':' :: text m.2) ++ ['\x7d']) := by
  rw [text]
  cases ms with
  | nil => rfl
  | cons m ms =>
    obtain ⟨k, t⟩ := m
    simp [membersText, membersText_false, join_cons]

/-- **Parts that name plain trees** determine the trees. -/
theorem join_inj : ∀ (ps : List (List Char × Tree × Tree)), (∀ p ∈ ps, Plain p.2.1 ∧ Plain p.2.2) →
    join '|' (ps.map fun p => p.1 ++ text p.2.1) = join '|' (ps.map fun p => p.1 ++ text p.2.2) →
      ∀ p ∈ ps, p.2.1 = p.2.2
  | [], _, _ => fun _ hp => by cases hp
  | (k, t, u) :: ps, hplain, h => by
      obtain ⟨⟨ht, hu⟩, hrest⟩ := List.forall_mem_cons.mp hplain
      have hfollows : ∀ l : List (List Char), Follows (joinRest '|' l) := by
        intro l
        cases l <;> simp [joinRest, Follows, stops]
      rw [List.map_cons, List.map_cons, join_cons, join_cons, List.append_assoc, List.append_assoc] at h
      obtain ⟨rfl, htail⟩ := text_append_inj t u ht hu (hfollows _) (hfollows _)
        (List.append_cancel_left h)
      refine List.forall_mem_cons.mpr ⟨rfl, join_inj ps hrest ?_⟩
      cases ps with
      | nil => rfl
      | cons p ps => exact (List.cons.inj htail).2

end SeparatedTexts
