import Mathlib.Data.List.Sort
import Mathlib.Order.Lattice

/-! # Ordered queries and the latest row of every group

A query sorts rows by group, the latest first, and a scan of its result keeps the first row of
every group.  The order of a query leaves rows open that tie; `Answers` relates the rows to all
results that the database may return.  Where groups are keys there is one result
(`map_answers_eq_iff`).

A row that is kept is a latest one of its group (`latest_of_mem`), and every choice among the
latest rows is the scan of some result (`exists_answers`).  So two scans have the same entries
whatever the database returns exactly when the latest rows of every group have one entry
(`scans_agree_iff`), and never the same entries exactly when some group has no entry in common
(`scans_differ_iff`). -/

namespace LatestRows

variable {ρ κ τ ε : Type*} [LinearOrder κ] [LinearOrder τ] (group : ρ → κ) (rank : ρ → τ)

/-- The order of the query. -/
def Precedes (a b : ρ) : Prop := group a < group b ∨ group a = group b ∧ rank b ≤ rank a

/-- A result of the query on the rows. -/
structure Answers (rows result : List ρ) : Prop where
  perm : result.Perm rows
  sorted : result.Pairwise (Precedes group rank)

/-- No row of the group is later. -/
def Latest (rows : List ρ) (r : ρ) : Prop :=
  r ∈ rows ∧ ∀ s ∈ rows, group s = group r → rank s ≤ rank r

/-- The first row of every group that is not yet seen. -/
def firstOfEach : List κ → List ρ → List ρ
  | _, [] => []
  | seen, r :: rs =>
      if group r ∈ seen then firstOfEach seen rs else r :: firstOfEach (group r :: seen) rs

/-- The scan of a result. -/
def scan (result : List ρ) : List ρ := firstOfEach group [] result

section Laws

variable {group rank} {rows rows' result result' : List ρ} {r s : ρ}

/-! ### One scan -/

theorem mem_firstOfEach {seen : List κ} : r ∈ firstOfEach group seen result ↔
    group r ∉ seen ∧ ∃ pre post, result = pre ++ r :: post ∧ ∀ s ∈ pre, group s ≠ group r := by
  induction result generalizing seen with
  | nil => simp [firstOfEach]
  | cons t rs ih =>
      rw [firstOfEach]
      split
      · rename_i hseen
        rw [ih]
        refine and_congr_right fun hr => ?_
        constructor
        · rintro ⟨pre, post, rfl, hpre⟩
          refine ⟨t :: pre, post, rfl, fun s hs => ?_⟩
          rcases List.mem_cons.mp hs with rfl | hs
          · exact fun heq => hr (heq ▸ hseen)
          · exact hpre s hs
        · rintro ⟨pre, post, heq, hpre⟩
          cases pre with
          | nil =>
              obtain ⟨rfl, -⟩ := List.cons.inj heq
              exact absurd hseen hr
          | cons p pre =>
              obtain ⟨-, rfl⟩ := List.cons.inj heq
              exact ⟨pre, post, rfl, fun s hs => hpre s (List.mem_cons_of_mem _ hs)⟩
      · rename_i hseen
        rw [List.mem_cons, ih]
        constructor
        · rintro (rfl | ⟨hr, pre, post, rfl, hpre⟩)
          · exact ⟨hseen, [], rs, rfl, fun s hs => by cases hs⟩
          · rw [List.mem_cons, not_or] at hr
            refine ⟨hr.2, t :: pre, post, rfl, fun s hs => ?_⟩
            rcases List.mem_cons.mp hs with rfl | hs
            · exact Ne.symm hr.1
            · exact hpre s hs
        · rintro ⟨hr, pre, post, heq, hpre⟩
          cases pre with
          | nil =>
              obtain ⟨rfl, -⟩ := List.cons.inj heq
              exact .inl rfl
          | cons p pre =>
              obtain ⟨rfl, rfl⟩ := List.cons.inj heq
              refine .inr ⟨?_, pre, post, rfl, fun s hs => hpre s (List.mem_cons_of_mem _ hs)⟩
              rw [List.mem_cons, not_or]
              exact ⟨Ne.symm (hpre t List.mem_cons_self), hr⟩

theorem firstOfEach_sublist (seen : List κ) : (firstOfEach group seen result).Sublist result := by
  induction result generalizing seen with
  | nil => exact .refl _
  | cons t rs ih =>
      rw [firstOfEach]
      split
      · exact (ih seen).cons t
      · exact (ih _).cons_cons t

/-- A row that is kept is a latest one. -/
theorem latest_of_mem (h : Answers group rank rows result) (hr : r ∈ scan group result) :
    Latest group rank rows r := by
  obtain ⟨-, pre, post, rfl, hpre⟩ := mem_firstOfEach.mp hr
  refine ⟨h.perm.mem_iff.mp (by simp), fun s hs hgroup => ?_⟩
  rcases List.mem_append.mp (h.perm.mem_iff.mpr hs) with hs | hs
  · exact absurd hgroup (hpre s hs)
  · rcases List.mem_cons.mp hs with rfl | hs
    · exact le_rfl
    · have hsorted := (List.pairwise_append.mp h.sorted).2.1
      rcases (List.pairwise_cons.mp hsorted).1 s hs with hlt | ⟨-, hle⟩
      · exact absurd hgroup.symm hlt.ne
      · exact hle

/-- A row of every group is kept. -/
theorem exists_mem_scan (h : Answers group rank rows result) (hr : r ∈ rows) :
    ∃ s ∈ scan group result, group s = group r := by
  obtain ⟨s, hfind⟩ : ∃ s, result.find? (fun s => group s = group r) = some s := by
    refine Option.isSome_iff_exists.mp (List.find?_isSome.mpr ⟨r, h.perm.mem_iff.mpr hr, ?_⟩)
    simp
  obtain ⟨hs, pre, post, rfl, hpre⟩ := List.find?_eq_some_iff_append.mp hfind
  have hgroup : group s = group r := of_decide_eq_true hs
  refine ⟨s, mem_firstOfEach.mpr ⟨by simp, pre, post, rfl, fun t ht => ?_⟩, hgroup⟩
  have hne := hpre t ht
  rw [hgroup]
  simpa using hne

/-- The groups of a scan go upwards. -/
theorem sorted_scan (h : Answers group rank rows result) :
    (scan group result).Pairwise fun a b => group a < group b := by
  unfold scan
  have hsorted := h.sorted
  clear h
  have hall : ∀ seen, (firstOfEach group seen result).Pairwise fun a b => group a < group b := by
    induction result with
    | nil => exact fun seen => .nil
    | cons t rs ih =>
        intro seen
        obtain ⟨ht, hrs⟩ := List.pairwise_cons.mp hsorted
        rw [firstOfEach]
        split
        · exact ih hrs seen
        · refine List.pairwise_cons.mpr ⟨fun s hs => ?_, ih hrs _⟩
          obtain ⟨hseen, -⟩ := mem_firstOfEach.mp hs
          rw [List.mem_cons, not_or] at hseen
          rcases ht s ((firstOfEach_sublist _).subset hs) with hlt | ⟨heq, -⟩
          · exact hlt
          · exact absurd heq.symm hseen.1
  exact hall []

/-! ### All results -/

/-- The order that puts chosen rows before others that tie with them. -/
def Prefers (group : ρ → κ) (rank : ρ → τ) (chosen : ρ → Prop) (a b : ρ) : Prop :=
  group a < group b ∨
    group a = group b ∧ (rank b < rank a ∨ rank b = rank a ∧ (chosen b → chosen a))

theorem Prefers.total (chosen : ρ → Prop) (a b : ρ) :
    Prefers group rank chosen a b ∨ Prefers group rank chosen b a := by
  unfold Prefers
  rcases lt_trichotomy (group a) (group b) with h | h | h
  · exact .inl (.inl h)
  · rcases lt_trichotomy (rank a) (rank b) with hr | hr | hr
    · exact .inr (.inr ⟨h.symm, .inl hr⟩)
    · by_cases hb : chosen b
      · exact .inr (.inr ⟨h.symm, .inr ⟨hr, fun _ => hb⟩⟩)
      · exact .inl (.inr ⟨h, .inr ⟨hr.symm, fun h => absurd h hb⟩⟩)
    · exact .inl (.inr ⟨h, .inl hr⟩)
  · exact .inr (.inl h)

theorem Prefers.trans {chosen : ρ → Prop} {a b c : ρ} (hab : Prefers group rank chosen a b)
    (hbc : Prefers group rank chosen b c) : Prefers group rank chosen a c := by
  rcases hab with hab | ⟨hab, hab'⟩
  · rcases hbc with hbc | ⟨hbc, -⟩
    · exact .inl (hab.trans hbc)
    · exact .inl (hbc ▸ hab)
  · rcases hbc with hbc | ⟨hbc, hbc'⟩
    · exact .inl (hab ▸ hbc)
    · refine .inr ⟨hab.trans hbc, ?_⟩
      rcases hab' with hab' | ⟨hab', hchosen⟩
      · rcases hbc' with hbc' | ⟨hbc', -⟩
        · exact .inl (hbc'.trans hab')
        · exact .inl (hbc' ▸ hab')
      · rcases hbc' with hbc' | ⟨hbc', hchosen'⟩
        · exact .inl (hab' ▸ hbc')
        · exact .inr ⟨hbc'.trans hab', fun h => hchosen (hchosen' h)⟩

/-- **Every choice among the latest rows is the scan of some result.** -/
theorem exists_answers (group : ρ → κ) (rank : ρ → τ) (rows : List ρ) (chosen : ρ → Prop) :
    ∃ result, Answers group rank rows result ∧ ∀ r ∈ scan group result, ∀ c,
      Latest group rank rows c → group c = group r → chosen c → chosen r := by
  classical
  have htotal : Std.Total (Prefers group rank chosen) := ⟨Prefers.total chosen⟩
  have htrans : IsTrans ρ (Prefers group rank chosen) := ⟨fun _ _ _ => Prefers.trans⟩
  have hsorted := List.pairwise_insertionSort (Prefers group rank chosen) rows
  have hperm := List.perm_insertionSort (Prefers group rank chosen) rows
  generalize rows.insertionSort (Prefers group rank chosen) = result at hsorted hperm
  have hanswers : Answers group rank rows result := by
    refine ⟨hperm, hsorted.imp fun h => ?_⟩
    rcases h with h | ⟨h, hlt | ⟨heq, -⟩⟩
    · exact .inl h
    · exact .inr ⟨h, hlt.le⟩
    · exact .inr ⟨h, heq.le⟩
  refine ⟨result, hanswers, fun r hr c hc hgroup hchosen => ?_⟩
  have hlatest := latest_of_mem hanswers hr
  obtain ⟨-, pre, post, rfl, hpre⟩ := mem_firstOfEach.mp hr
  rcases List.mem_append.mp (hperm.mem_iff.mpr hc.1) with hmem | hmem
  · exact absurd hgroup (hpre c hmem)
  · rcases List.mem_cons.mp hmem with rfl | hmem
    · exact hchosen
    · have hafter := (List.pairwise_cons.mp (List.pairwise_append.mp hsorted).2.1).1 c hmem
      rcases hafter with hlt | ⟨-, hlt | ⟨-, himp⟩⟩
      · exact absurd hgroup.symm hlt.ne
      · exact absurd (hc.2 r hlatest.1 hgroup.symm) (not_le.mpr hlt)
      · exact himp hchosen

/-! ### Entries -/

variable {entry : ρ → ε} (groupOf : ε → κ)

/-- Scans are compared by the entries that they have. -/
theorem map_scan_eq_iff (hgroup : ∀ r, groupOf (entry r) = group r)
    (h : Answers group rank rows result) (h' : Answers group rank rows' result') :
    (scan group result).map entry = (scan group result').map entry ↔
      ∀ e, e ∈ (scan group result).map entry ↔ e ∈ (scan group result').map entry := by
  constructor
  · intro heq e
    rw [heq]
  · intro hmem
    have hirrefl : Std.Irrefl fun a b : ε => groupOf a < groupOf b := ⟨fun a => lt_irrefl _⟩
    have hantisymm : Std.Antisymm fun a b : ε => groupOf a < groupOf b :=
      ⟨fun a b hab hba => absurd (hab.trans hba) (lt_irrefl _)⟩
    have hsorted : ∀ {rows result}, Answers group rank rows result →
        ((scan group result).map entry).Pairwise fun a b => groupOf a < groupOf b := by
      intro rows result h
      refine List.pairwise_map.mpr ((sorted_scan h).imp fun hab => ?_)
      rwa [hgroup, hgroup]
    exact (hsorted h).eq_of_mem_iff (hsorted h') hmem

/-- **Results with a row for every group** are compared by the entries of all rows. -/
theorem map_answers_eq_iff (hgroup : ∀ r, groupOf (entry r) = group r)
    (hnodup : (rows.map group).Nodup) (hnodup' : (rows'.map group).Nodup)
    (h : Answers group rank rows result) (h' : Answers group rank rows' result') :
    result.map entry = result'.map entry ↔ (rows.map entry).Perm (rows'.map entry) := by
  have hsorted : ∀ {rows result}, (rows.map group).Nodup → Answers group rank rows result →
      (result.map entry).Pairwise fun a b => groupOf a < groupOf b := by
    intro rows result hnodup h
    have hdistinct : result.Pairwise fun a b => group a ≠ group b :=
      List.pairwise_map.mp ((h.perm.map group).nodup_iff.mpr hnodup)
    refine List.pairwise_map.mpr ((h.sorted.and hdistinct).imp fun hab => ?_)
    rw [hgroup, hgroup]
    rcases hab.1 with hlt | ⟨heq, -⟩
    · exact hlt
    · exact absurd heq hab.2
  constructor
  · intro heq
    have hperm := (h.perm.map entry).symm.trans (heq ▸ (h'.perm.map entry))
    exact hperm
  · intro hperm
    have hantisymm : Std.Antisymm fun a b : ε => groupOf a < groupOf b :=
      ⟨fun a b hab hba => absurd (hab.trans hba) (lt_irrefl _)⟩
    exact List.Perm.eq_of_pairwise' (hsorted hnodup h) (hsorted hnodup' h')
      ((h.perm.map entry).trans (hperm.trans (h'.perm.map entry).symm))

/-- **Scans of the same rows agree** exactly when rows that tie have one entry. -/
theorem scans_agree_iff (hgroup : ∀ r, groupOf (entry r) = group r) :
    (∀ result result', Answers group rank rows result → Answers group rank rows result' →
      (scan group result).map entry = (scan group result').map entry) ↔
    ∀ r s, Latest group rank rows r → Latest group rank rows s → group r = group s →
      entry r = entry s := by
  constructor
  · intro hagree r s hr hs hrs
    obtain ⟨result, hresult, hchosen⟩ := exists_answers group rank rows fun x => entry x = entry r
    obtain ⟨result', hresult', hchosen'⟩ :=
      exists_answers group rank rows fun x => entry x = entry s
    obtain ⟨x, hx, hxr⟩ := exists_mem_scan hresult hr.1
    have hxentry : entry x = entry r := hchosen x hx r hr hxr.symm rfl
    have hmem : entry r ∈ (scan group result').map entry := by
      rw [← hagree result result' hresult hresult', ← hxentry]
      exact List.mem_map_of_mem hx
    obtain ⟨y, hy, hyentry⟩ := List.mem_map.mp hmem
    have hygroup : group s = group y := by rw [← hrs, ← hgroup r, ← hyentry, hgroup]
    rw [← hyentry]
    exact hchosen' y hy s hs hygroup rfl
  · intro hties result result' h h'
    have hsub : ∀ {result result'}, Answers group rank rows result →
        Answers group rank rows result' →
          ∀ e ∈ (scan group result).map entry, e ∈ (scan group result').map entry := by
      intro result result' h h' e he
      obtain ⟨r, hr, rfl⟩ := List.mem_map.mp he
      have hlatest := latest_of_mem h hr
      obtain ⟨s, hs, hsr⟩ := exists_mem_scan h' hlatest.1
      rw [hties r s hlatest (latest_of_mem h' hs) hsr.symm]
      exact List.mem_map_of_mem hs
    exact (map_scan_eq_iff groupOf hgroup h h').mpr fun e => ⟨hsub h h' e, hsub h' h e⟩

/-- Entries of latest rows, one for every group, are the scan of some result. -/
theorem exists_scan {ι : Type*} (pick : ι → ε) (hgroup : ∀ r, groupOf (entry r) = group r)
    (hinj : ∀ i i', groupOf (pick i) = groupOf (pick i') → i = i')
    (hrows : ∀ r ∈ rows, ∃ i, groupOf (pick i) = group r)
    (hlatest : ∀ i, ∃ c, Latest group rank rows c ∧ entry c = pick i) :
    ∃ result, Answers group rank rows result ∧
      ∀ e, e ∈ (scan group result).map entry ↔ ∃ i, e = pick i := by
  obtain ⟨result, hresult, hchosen⟩ :=
    exists_answers group rank rows fun x => ∃ i, entry x = pick i
  have hpicked : ∀ r ∈ scan group result, ∃ i, entry r = pick i := by
    intro r hr
    obtain ⟨i, hi⟩ := hrows r (latest_of_mem hresult hr).1
    obtain ⟨c, hc, hentry⟩ := hlatest i
    refine hchosen r hr c hc ?_ ⟨i, hentry⟩
    rw [← hi, ← hentry, hgroup]
  refine ⟨result, hresult, fun e => ⟨fun he => ?_, ?_⟩⟩
  · obtain ⟨r, hr, rfl⟩ := List.mem_map.mp he
    exact hpicked r hr
  · rintro ⟨i, rfl⟩
    obtain ⟨c, hc, hentry⟩ := hlatest i
    obtain ⟨r, hr, hrc⟩ := exists_mem_scan hresult hc.1
    obtain ⟨i', hi'⟩ := hpicked r hr
    have hsame : i' = i := hinj i' i (by rw [← hi', ← hentry, hgroup, hgroup, hrc])
    rw [← hsame, ← hi']
    exact List.mem_map_of_mem hr

/-- Some group of the rows has no entry in common. -/
def Apart (group : ρ → κ) (rank : ρ → τ) (entry : ρ → ε) (rows rows' : List ρ) : Prop :=
  ∃ k, (∃ r, (r ∈ rows ∨ r ∈ rows') ∧ group r = k) ∧ ∀ a b, Latest group rank rows a →
    Latest group rank rows' b → group a = k → group b = k → entry a ≠ entry b

/-- **Scans of two lists of rows always differ** exactly when some group has no common entry. -/
theorem scans_differ_iff (hgroup : ∀ r, groupOf (entry r) = group r) :
    (∀ result result', Answers group rank rows result → Answers group rank rows' result' →
      (scan group result).map entry ≠ (scan group result').map entry) ↔
    Apart group rank entry rows rows' := by
  constructor
  · intro hdiffer
    by_contra hnot
    -- an entry in common for every group
    have hcommon : ∀ k : {k // ∃ r, (r ∈ rows ∨ r ∈ rows') ∧ group r = k}, ∃ e, ∃ a b,
        Latest group rank rows a ∧ Latest group rank rows' b ∧ group a = k ∧ group b = k ∧
          entry a = e ∧ entry b = e := by
      intro k
      by_contra hnone
      refine hnot ⟨k.1, k.2, fun a b ha hb hak hbk heq => hnone ?_⟩
      exact ⟨entry a, a, b, ha, hb, hak, hbk, rfl, heq.symm⟩
    choose pick hpick using hcommon
    have hgroupOf : ∀ k, groupOf (pick k) = k.1 := by
      intro k
      obtain ⟨a, -, -, -, hak, -, hentry, -⟩ := hpick k
      rw [← hentry, hgroup, hak]
    have hinj : ∀ k k', groupOf (pick k) = groupOf (pick k') → k = k' := by
      intro k k' h
      rw [hgroupOf, hgroupOf] at h
      exact Subtype.ext h
    have hleft : ∀ k, ∃ c, Latest group rank rows c ∧ entry c = pick k := fun k => by
      obtain ⟨a, -, ha, -, -, -, hentry, -⟩ := hpick k
      exact ⟨a, ha, hentry⟩
    have hright : ∀ k, ∃ c, Latest group rank rows' c ∧ entry c = pick k := fun k => by
      obtain ⟨-, b, -, hb, -, -, -, hentry⟩ := hpick k
      exact ⟨b, hb, hentry⟩
    obtain ⟨result, hresult, hmem⟩ := exists_scan groupOf pick hgroup hinj
      (fun r hr => ⟨⟨group r, r, .inl hr, rfl⟩, hgroupOf _⟩) hleft
    obtain ⟨result', hresult', hmem'⟩ := exists_scan groupOf pick hgroup hinj
      (fun r hr => ⟨⟨group r, r, .inr hr, rfl⟩, hgroupOf _⟩) hright
    refine hdiffer result result' hresult hresult' ?_
    exact (map_scan_eq_iff groupOf hgroup hresult hresult').mpr fun e => by rw [hmem, hmem']
  · rintro ⟨k, ⟨r, hr, rfl⟩, hapart⟩ result result' h h' heq
    have hmem := (map_scan_eq_iff groupOf hgroup h h').mp heq
    rcases hr with hr | hr
    · obtain ⟨a, ha, har⟩ := exists_mem_scan h hr
      obtain ⟨b, hb, hba⟩ := List.mem_map.mp ((hmem _).mp (List.mem_map_of_mem ha))
      have hbr : group b = group r := by rw [← hgroup, hba, hgroup, har]
      exact hapart a b (latest_of_mem h ha) (latest_of_mem h' hb) har hbr hba.symm
    · obtain ⟨b, hb, hbr⟩ := exists_mem_scan h' hr
      obtain ⟨a, ha, hab⟩ := List.mem_map.mp ((hmem _).mpr (List.mem_map_of_mem hb))
      have har : group a = group r := by rw [← hgroup, hab, hgroup, hbr]
      exact hapart a b (latest_of_mem h ha) (latest_of_mem h' hb) har hbr hab

end Laws

end LatestRows
