import Mathlib.Data.List.Induction
import Mathlib.Data.List.Nodup
import Mathlib.Data.Option.Basic

/-! # Hash chains

A chain is a list whose entries carry a hash and the hash of their predecessor, which the
first entry lacks.  When the hash of an entry determines its predecessor's, hashes in a chain
are distinct (`nodup_hashes`), so the entries of a chain can be put in no other order
(`Linked.eq_of_perm`). -/

namespace HashChain

variable {E H : Type*} (prev : E → Option H) (hash : E → H)

/-- Every entry points to the hash before it, the first one to `p`. -/
def Linked : Option H → List E → Prop
  | _, [] => True
  | p, e :: es => prev e = p ∧ Linked (some (hash e)) es

/-- The hash a next entry has to point to. -/
def tip : Option H → List E → Option H
  | p, [] => p
  | _, e :: es => tip (some (hash e)) es

variable {prev hash}

@[simp] theorem linked_nil (p : Option H) : Linked prev hash p [] := trivial

@[simp] theorem linked_cons (p : Option H) (e : E) (es : List E) :
    Linked prev hash p (e :: es) ↔ prev e = p ∧ Linked prev hash (some (hash e)) es := Iff.rfl

theorem linked_concat {p : Option H} {es : List E} {e : E} :
    Linked prev hash p (es ++ [e]) ↔ Linked prev hash p es ∧ prev e = tip hash p es := by
  induction es generalizing p with
  | nil => simp [tip]
  | cons d es ih => simp [tip, ih, and_assoc]

theorem linked_append {p : Option H} {as bs : List E} :
    Linked prev hash p (as ++ bs) ↔ Linked prev hash p as ∧ Linked prev hash (tip hash p as) bs := by
  induction as generalizing p with
  | nil => simp [tip]
  | cons d as ih => simp [tip, ih, and_assoc]

@[simp] theorem tip_concat (p : Option H) (es : List E) (e : E) :
    tip hash p (es ++ [e]) = some (hash e) := by
  induction es generalizing p with
  | nil => rfl
  | cons d es ih => exact ih _

/-- The tip is the hash of the last entry. -/
theorem tip_eq_getLast (p : Option H) (es : List E) :
    tip hash p es = (es.getLast?.map hash).or p := by
  induction es using List.reverseRecOn with
  | nil => rfl
  | append_singleton es e _ => simp

/-- The pointers of a chain are the hashes moved by one place. -/
theorem Linked.map_prev {p : Option H} {es : List E} {e : E}
    (h : Linked prev hash p (es ++ [e])) :
    (es ++ [e]).map prev = p :: es.map fun d => some (hash d) := by
  induction es generalizing p with
  | nil => simpa using h
  | cons d es ih =>
      obtain ⟨hd, htail⟩ := h
      rw [List.cons_append, List.map_cons, ih htail, hd, List.map_cons]

/-- Pointers to distinct hashes are distinct, also from the missing one. -/
theorem nodup_pointers {es : List E} (hn : (es.map hash).Nodup) :
    (none :: es.map fun d => some (hash d)).Nodup := by
  have hsome := hn.map (Option.some_injective H)
  rw [List.map_map] at hsome
  exact List.nodup_cons.mpr ⟨by simp, hsome⟩

/-- Pointers of a chain are distinct when hashes are. -/
theorem Linked.nodup_prev {es : List E} (h : Linked prev hash none es)
    (hn : (es.map hash).Nodup) : (es.map prev).Nodup := by
  cases es using List.reverseRecOn with
  | nil => simp
  | append_singleton es e =>
      rw [h.map_prev]
      rw [List.map_append, List.nodup_append] at hn
      exact nodup_pointers hn.1

/-- **Hashes in a chain are distinct** when they determine the pointer. -/
theorem Linked.nodup_hashes {es : List E} (h : Linked prev hash none es)
    (hdet : ∀ a ∈ es, ∀ b ∈ es, hash a = hash b → prev a = prev b) : (es.map hash).Nodup := by
  induction es using List.reverseRecOn with
  | nil => simp
  | append_singleton es e ih =>
      obtain ⟨hes, -⟩ := linked_concat.mp h
      have hn := ih hes fun a ha b hb => hdet a (by simp [ha]) b (by simp [hb])
      have hprev : ((es ++ [e]).map prev).Nodup := by
        rw [h.map_prev]
        exact nodup_pointers hn
      rw [List.map_append, List.nodup_append] at hprev ⊢
      refine ⟨hn, by simp, ?_⟩
      intro x hx y hy
      obtain ⟨a, ha, rfl⟩ := List.mem_map.mp hx
      obtain rfl := List.mem_singleton.mp hy
      intro heq
      have hae := hdet a (by simp [ha]) e (by simp) heq
      exact hprev.2.2 (prev a) (List.mem_map_of_mem ha) (prev e) (by simp) hae

/-- **A chain has one order**: two chains over the same entries are the same list. -/
theorem Linked.eq_of_perm : ∀ {p : Option H} {as bs : List E}, Linked prev hash p as →
    Linked prev hash p bs → (as.map prev).Nodup → as.Perm bs → as = bs
  | _, [], bs, _, _, _, hperm => (List.nil_perm.mp hperm).symm
  | _, a :: as, [], _, _, _, hperm => by
      have := hperm.length_eq
      simp at this
  | p, a :: as, b :: bs, ha, hb, hn, hperm => by
      have hmem : b ∈ a :: as := hperm.mem_iff.mpr List.mem_cons_self
      have hab : a = b :=
        List.inj_on_of_nodup_map hn List.mem_cons_self hmem (ha.1.trans hb.1.symm)
      subst hab
      rw [List.map_cons, List.nodup_cons] at hn
      rw [Linked.eq_of_perm ha.2 hb.2 hn.2 hperm.cons_inv]

end HashChain
