import Mathlib.Data.List.Nodup
import FinanceAccounting.Library.Numeral

/-! # Collision-free digests

A digest maps texts to texts.  `CollisionFree digest` is the idealization under which hash
chains are analysed: no two texts share a digest, and digests are written with lower-case
hexadecimal digits.  `tableDigest` shows that it is consistent, and that it can hold of a
function with prescribed values of 64 digits on finitely many texts. -/

namespace Digest

/-- A lower-case hexadecimal digit. -/
def isHexDigit (c : Char) : Bool := c.isDigit || ('a' ≤ c && c ≤ 'f')

/-- Digests never collide and consist of hexadecimal digits. -/
structure CollisionFree (digest : String → String) : Prop where
  injective : Function.Injective digest
  hex : ∀ s, (digest s).toList.all isHexDigit
  nonempty : ∀ s, digest s ≠ ""

/-- Every character as six hexadecimal digits, after a leading zero. -/
def spell (s : String) : String :=
  String.ofList ('0' :: s.toList.flatMap fun c => Numeral.padded 16 6 c.toNat)

theorem toNat_lt_pow (c : Char) : c.toNat < 16 ^ 6 := by
  rcases c.valid with h | ⟨-, h⟩
  · have : c.toNat < 0xd800 := h
    omega
  · have : c.toNat < 0x110000 := h
    omega

theorem flatMap_padded_injective : ∀ {cs ds : List Char},
    (cs.flatMap fun c => Numeral.padded 16 6 c.toNat) =
      (ds.flatMap fun c => Numeral.padded 16 6 c.toNat) → cs = ds
  | [], [], _ => rfl
  | [], d :: ds, h => by simp [Numeral.padded] at h
  | c :: cs, [], h => by simp [Numeral.padded] at h
  | c :: cs, d :: ds, h => by
      rw [List.flatMap_cons, List.flatMap_cons] at h
      obtain ⟨hcd, htail⟩ := Numeral.padded_append_inj (by decide) (by decide) (toNat_lt_pow c)
        (toNat_lt_pow d) h
      rw [Char.toNat_inj.mp hcd, flatMap_padded_injective htail]

theorem spell_injective : Function.Injective spell := by
  intro s t h
  have hc := (List.cons.inj (String.ofList_injective h)).2
  exact String.toList_inj.mp (flatMap_padded_injective hc)

theorem isHexDigit_digitChar (n : ℕ) : isHexDigit (Nat.digitChar (n % 16)) := by
  have key : ∀ k : Fin 16, isHexDigit (Nat.digitChar k) := by decide
  exact key ⟨n % 16, Nat.mod_lt n (by decide)⟩

theorem hex_spell (s : String) : (spell s).toList.all isHexDigit := by
  simp only [spell, String.toList_ofList, List.all_cons, List.all_flatMap, Bool.and_eq_true,
    List.all_eq_true]
  refine ⟨by decide, fun c _ d hd => ?_⟩
  obtain ⟨n, rfl⟩ := Numeral.mem_padded hd
  exact isHexDigit_digitChar n

/-- Every character takes six, after the leading one. -/
theorem length_spell (s : String) : (spell s).toList.length % 6 = 1 := by
  have hlen : ∀ cs : List Char,
      (cs.flatMap fun c => Numeral.padded 16 6 c.toNat).length = 6 * cs.length := by
    intro cs
    induction cs with
    | nil => rfl
    | cons c cs ih =>
        rw [List.flatMap_cons, List.length_append, ih, Numeral.length_padded, List.length_cons]
        omega
  rw [spell, String.toList_ofList, List.length_cons, hlen]
  omega

/-- The values of a table, and the spelling of every other text. -/
def tableDigest (table : List (String × String)) (s : String) : String :=
  (table.lookup s).getD (spell s)

/-- A table of distinct texts with distinct values of 64 hexadecimal digits. -/
structure IsTable (table : List (String × String)) : Prop where
  values : (table.map Prod.snd).Nodup
  hex : ∀ e ∈ table, e.2.toList.all isHexDigit
  length : ∀ e ∈ table, e.2.toList.length = 64

theorem mem_of_lookup {table : List (String × String)} {s d : String}
    (h : table.lookup s = some d) : (s, d) ∈ table := by
  induction table with
  | nil => cases h
  | cons e table ih =>
      obtain ⟨k, v⟩ := e
      rw [List.lookup_cons] at h
      split at h
      · rename_i hk
        obtain rfl := Option.some.inj h
        rw [eq_of_beq hk]
        exact List.mem_cons_self
      · exact List.mem_cons_of_mem _ (ih h)

/-- Distinct values of one length that no spelling has. -/
theorem injective_tableDigest {table : List (String × String)}
    (hvalues : (table.map Prod.snd).Nodup) {n : ℕ} (hlength : ∀ e ∈ table, e.2.toList.length = n)
    (hn : n % 6 ≠ 1) : Function.Injective (tableDigest table) := by
  have hspell : ∀ {s t d : String}, table.lookup t = some d → spell s ≠ d := by
    rintro s t d htable rfl
    have hmod := length_spell s
    rw [hlength _ (mem_of_lookup htable)] at hmod
    exact hn hmod
  intro s t h
  unfold tableDigest at h
  cases hs : table.lookup s with
  | none =>
      cases htt : table.lookup t with
      | none =>
          rw [hs, htt] at h
          exact spell_injective h
      | some d =>
          rw [hs, htt] at h
          exact absurd h (hspell htt)
  | some d =>
      cases htt : table.lookup t with
      | none =>
          rw [hs, htt] at h
          exact absurd h.symm (hspell hs)
      | some e =>
          rw [hs, htt] at h
          have heq := List.inj_on_of_nodup_map hvalues (mem_of_lookup hs) (mem_of_lookup htt) h
          exact (Prod.mk.inj heq).1

/-- **A table extends to a collision-free digest.** -/
theorem collisionFree_tableDigest {table : List (String × String)} (ht : IsTable table) :
    CollisionFree (tableDigest table) where
  injective := injective_tableDigest ht.values ht.length (by decide)
  hex s := by
    unfold tableDigest
    cases hs : table.lookup s with
    | none => exact hex_spell s
    | some d => exact ht.hex _ (mem_of_lookup hs)
  nonempty s := by
    unfold tableDigest
    cases hs : table.lookup s with
    | none => simp [spell]
    | some d =>
        have hl := ht.length _ (mem_of_lookup hs)
        rintro (rfl : d = "")
        cases hl

end Digest
