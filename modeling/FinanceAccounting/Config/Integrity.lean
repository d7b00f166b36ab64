import FinanceAccounting.Config.Compiler

/-! # Fingerprint pinning

`verify_fingerprint_pin` compares the fingerprint of a pack with the one in the pin file of its
directory.  The pin protects what reaches the fingerprint (`Covered`), which of most parts is
their number or their names: `pin_protects_iff` says exactly which edits it finds. -/

namespace FinanceAccounting.Config

structure ConfigIntegrityError where
  configId : String
  expected : String
  actual : String
deriving DecidableEq, Repr

/-- `read_pinned_fingerprint`, of the text of the pin file where there is one. -/
def readPinnedFingerprint (pinFile : Option String) : Option String := pinFile.map strip

/-- `verify_fingerprint_pin`. -/
def verifyFingerprintPin (configId canonicalFingerprint : String) (pinFile : Option String) :
    Except ConfigIntegrityError Unit :=
  match readPinnedFingerprint pinFile with
  | none => .ok ()
  | some pinned =>
      if canonicalFingerprint ≠ pinned then .error ⟨configId, pinned, canonicalFingerprint⟩
      else .ok ()

/-- What the runtime sees of a pack. -/
def CompiledPolicyPack.runtime (pack : CompiledPolicyPack) : CompiledPolicyPack :=
  { pack with checksum := "", canonicalFingerprint := "" }

/-- With the fingerprint of the first pack in the pin file, the second is refused unless it is
the same at run time. -/
def PinProtects (pack₁ pack₂ : CompiledPolicyPack) : Prop :=
  pack₁.runtime ≠ pack₂.runtime →
    pack₁.canonicalFingerprint ≠ pack₂.canonicalFingerprint ∧
    ∀ pinFile, strip pinFile = pack₁.canonicalFingerprint →
      verifyFingerprintPin pack₂.configId pack₂.canonicalFingerprint (some pinFile) =
        .error ⟨pack₂.configId, pack₁.canonicalFingerprint, pack₂.canonicalFingerprint⟩

theorem verifyFingerprintPin_of_ne {configId fingerprint pinned pinFile : String}
    (hpin : strip pinFile = pinned) (h : pinned ≠ fingerprint) :
    verifyFingerprintPin configId fingerprint (some pinFile) =
      .error ⟨configId, pinned, fingerprint⟩ := by
  unfold verifyFingerprintPin readPinnedFingerprint
  simp only [Option.map_some, hpin]
  exact if_pos (Ne.symm h)

section Pinning

variable {t : Toolchain} {f₁ f₂ : Fragments} {c₁ c₂ : AccountingConfigurationSet}
  {contracts₁ contracts₂ : Option (List ResolvedEngineContract)} {pack₁ pack₂ : CompiledPolicyPack}

/-- Compiled packs have one fingerprint exactly when the covered data are equal. -/
theorem canonicalFingerprint_eq_iff (hd : Digest.CollisionFree t.dumping.sha256)
    (h₁ : assemble t.dumping f₁ = .ok c₁) (h₂ : assemble t.dumping f₂ = .ok c₂)
    (hpack₁ : compilePolicyPack t c₁ contracts₁ = .ok pack₁)
    (hpack₂ : compilePolicyPack t c₂ contracts₂ = .ok pack₂) :
    pack₁.canonicalFingerprint = pack₂.canonicalFingerprint ↔
      f₁.covered t.dumping.default = f₂.covered t.dumping.default := by
  rw [(compilePolicyPack_eq_ok.mp hpack₁).2.2, (compilePolicyPack_eq_ok.mp hpack₂).2.2]
  exact fingerprint_eq_iff hd h₁ h₂

/-- **A pin finds an edit exactly when the edit changes nothing at run time, or changes what is
covered**: the root fragment, the number of role bindings, the names of policies, engines,
controls, import mappings and schedules, and the version of the actors' roles. -/
theorem pin_protects_iff (hd : Digest.CollisionFree t.dumping.sha256)
    (h₁ : assemble t.dumping f₁ = .ok c₁) (h₂ : assemble t.dumping f₂ = .ok c₂)
    (hpack₁ : compilePolicyPack t c₁ contracts₁ = .ok pack₁)
    (hpack₂ : compilePolicyPack t c₂ contracts₂ = .ok pack₂) :
    PinProtects pack₁ pack₂ ↔
      pack₁.runtime = pack₂.runtime ∨ f₁.covered t.dumping.default ≠ f₂.covered t.dumping.default := by
  have hfingerprint := canonicalFingerprint_eq_iff hd h₁ h₂ hpack₁ hpack₂
  constructor
  · intro h
    by_cases hruntime : pack₁.runtime = pack₂.runtime
    · exact Or.inl hruntime
    · exact Or.inr fun hcovered => (h hruntime).1 (hfingerprint.mpr hcovered)
  · rintro (hsame | hcovered) hruntime
    · exact absurd hsame hruntime
    · have hne : pack₁.canonicalFingerprint ≠ pack₂.canonicalFingerprint :=
        fun h => hcovered (hfingerprint.mp h)
      exact ⟨hne, fun pinFile hpin => verifyFingerprintPin_of_ne hpin hne⟩

end Pinning

/-! ### Two edits -/

/-- A directory whose only fragments are the root and some role bindings. -/
def sampleFragments (roleBindings : List RoleBinding) : Fragments where
  root := {
    configId := "US-GAAP-2026-v1"
    scope := {
      legalEntity := "ACME"
      jurisdiction := "US"
      regulatoryRegime := "GAAP"
      currency := "USD"
      effectiveFrom := sampleTime.date } }
  roleBindings := roleBindings

def cashBinding (accountCode : String) : RoleBinding where
  role := "CASH"
  ledger := "GL"
  accountCode := accountCode
  effectiveFrom := sampleTime.date

/-- The text under the checksum, for a `str` that says nothing. -/
@[irreducible]
def sampleText (f : Fragments) : String :=
  String.ofList ((f.document fun _ => "").renderWith [' '])

def hex64 (c : Char) : String := String.ofList (List.replicate 64 c)

def sampleTable : List (String × String) :=
  [(sampleText (sampleFragments [cashBinding "1000"]), hex64 '1'),
    (sampleText (sampleFragments [cashBinding "1000", cashBinding "1010"]), hex64 '2')]

theorem isTable_sampleTable : Digest.IsTable sampleTable where
  values := by
    rw [sampleTable, List.map_cons, List.map_cons, List.map_nil]
    decide +kernel
  hex := by
    intro e he
    simp only [sampleTable, List.mem_cons, List.not_mem_nil, or_false] at he
    rcases he with rfl | rfl
    · decide +kernel
    · decide +kernel
  length := by
    intro e he
    simp only [sampleTable, List.mem_cons, List.not_mem_nil, or_false] at he
    rcases he with rfl | rfl
    · decide +kernel
    · decide +kernel

def sampleToolchain : Toolchain where
  recursionLimit := 1000
  parse _ := .error "invalid syntax"
  readsDecimal _ := false
  lower := id
  repr _ := ""
  reprWhere _ := ""
  sameWhere _ _ := false
  dumping := ⟨fun _ => "", Digest.tableDigest sampleTable⟩

theorem collisionFree_sample : Digest.CollisionFree sampleToolchain.dumping.sha256 := by
  show Digest.CollisionFree (Digest.tableDigest sampleTable)
  exact Digest.collisionFree_tableDigest isTable_sampleTable

/-- Sets with one number of role bindings have one text, and others have another. -/
theorem sampleText_eq_iff {bs₁ bs₂ : List RoleBinding} :
    sampleText (sampleFragments bs₁) = sampleText (sampleFragments bs₂) ↔
      bs₁.length = bs₂.length := by
  have hdocument : sampleText (sampleFragments bs₁) = sampleText (sampleFragments bs₂) ↔
      (sampleFragments bs₁).allData (fun _ => "") = (sampleFragments bs₂).allData fun _ => "" := by
    rw [← document_eq_iff]
    constructor
    · intro h
      rw [sampleText, sampleText] at h
      have htext := String.ofList_injective h
      exact Json.renderWith_injective htext
    · intro h
      rw [sampleText, sampleText, h]
  rw [hdocument]
  simp [Fragments.allData, sampleFragments]

theorem digest_sample (f : Fragments) :
    sampleToolchain.dumping.digest (f.document sampleToolchain.dumping.default) =
      Digest.tableDigest sampleTable (sampleText f) := by
  rw [sampleText, Dumping.digest]
  simp only [sampleToolchain]

theorem length_hex64 (c : Char) : (hex64 c).length = 64 := by
  rw [hex64, String.length_ofList, List.length_replicate]

/-- Sets of one and of two role bindings are assembled. -/
theorem exists_assembled {bs : List RoleBinding} (h : bs.length = 1 ∨ bs.length = 2) :
    ∃ c, assemble sampleToolchain.dumping (sampleFragments bs) = .ok c := by
  have hlength : (sampleToolchain.dumping.digest
      ((sampleFragments bs).document sampleToolchain.dumping.default)).length = 64 := by
    rw [digest_sample]
    unfold Digest.tableDigest sampleTable
    by_cases hone : bs.length = 1
    · have htext : sampleText (sampleFragments bs) =
          sampleText (sampleFragments [cashBinding "1000"]) := sampleText_eq_iff.mpr hone
      rw [htext, List.lookup_cons, beq_self_eq_true]
      exact length_hex64 '1'
    · have htwo : bs.length = 2 := h.resolve_left hone
      have htext : sampleText (sampleFragments bs) =
          sampleText (sampleFragments [cashBinding "1000", cashBinding "1010"]) :=
        sampleText_eq_iff.mpr htwo
      have hne : sampleText (sampleFragments [cashBinding "1000", cashBinding "1010"]) ≠
          sampleText (sampleFragments [cashBinding "1000"]) := fun heq => by
        simpa using sampleText_eq_iff.mp heq
      rw [htext, List.lookup_cons, beq_eq_false_iff_ne.mpr hne, List.lookup_cons,
        beq_self_eq_true]
      exact length_hex64 '2'
  unfold assemble
  exact ⟨_, if_pos hlength⟩

/-- They are compiled: nothing in them can be an error. -/
theorem exists_packed (bs : List RoleBinding) (h : bs.length = 1 ∨ bs.length = 2) :
    ∃ c pack, assemble sampleToolchain.dumping (sampleFragments bs) = .ok c ∧
      compilePolicyPack sampleToolchain c none = .ok pack ∧ pack.roleBindings = bs := by
  obtain ⟨c, hc⟩ := exists_assembled h
  obtain ⟨status, hset⟩ := assemble_eq_ok hc
  have hpack : ∃ pack, compilePolicyPack sampleToolchain c none = .ok pack := by
    rw [hset]
    exact ⟨_, compilePolicyPack_eq_ok.mpr
      ⟨⟨[], rfl⟩, ⟨_, rfl, fun e he => by cases he⟩, rfl⟩⟩
  obtain ⟨pack, hpack⟩ := hpack
  refine ⟨c, pack, hc, hpack, ?_⟩
  rw [(compilePolicyPack_eq_ok.mp hpack).2.2, hset]
  rfl

/-- A pin finds a second role binding. -/
theorem pin_finds_binding :
    ∃ pack₁ pack₂ : CompiledPolicyPack, pack₁.roleBindings = [cashBinding "1000"] ∧
      pack₂.roleBindings = [cashBinding "1000", cashBinding "1010"] ∧ PinProtects pack₁ pack₂ := by
  obtain ⟨c₁, pack₁, hc₁, hpack₁, hbs₁⟩ :=
    exists_packed [cashBinding "1000"] (Or.inl rfl)
  obtain ⟨c₂, pack₂, hc₂, hpack₂, hbs₂⟩ :=
    exists_packed [cashBinding "1000", cashBinding "1010"] (Or.inr rfl)
  refine ⟨pack₁, pack₂, hbs₁, hbs₂, ?_⟩
  refine (pin_protects_iff collisionFree_sample hc₁ hc₂ hpack₁ hpack₂).mpr (Or.inr fun h => ?_)
  have hcount := congrArg Covered.roleBindings h
  simp [Fragments.covered, sampleFragments] at hcount

/-- **A pin does not find that the account of a role has been edited.** -/
theorem edited_account_passes :
    Digest.CollisionFree sampleToolchain.dumping.sha256 ∧
    ∃ c₁ c₂ pack₁ pack₂,
      assemble sampleToolchain.dumping (sampleFragments [cashBinding "1000"]) = .ok c₁ ∧
      assemble sampleToolchain.dumping (sampleFragments [cashBinding "9999"]) = .ok c₂ ∧
      compilePolicyPack sampleToolchain c₁ none = .ok pack₁ ∧
      compilePolicyPack sampleToolchain c₂ none = .ok pack₂ ∧ ¬PinProtects pack₁ pack₂ := by
  obtain ⟨c₁, pack₁, hc₁, hpack₁, hbs₁⟩ :=
    exists_packed [cashBinding "1000"] (Or.inl rfl)
  obtain ⟨c₂, pack₂, hc₂, hpack₂, hbs₂⟩ :=
    exists_packed [cashBinding "9999"] (Or.inl rfl)
  refine ⟨collisionFree_sample, c₁, c₂, pack₁, pack₂, hc₁, hc₂, hpack₁, hpack₂, fun h => ?_⟩
  have hruntime : pack₁.runtime ≠ pack₂.runtime := by
    intro heq
    have hbindings : pack₁.runtime.roleBindings = pack₂.runtime.roleBindings := by rw [heq]
    simp only [CompiledPolicyPack.runtime, hbs₁, hbs₂] at hbindings
    simp [cashBinding] at hbindings
  apply (h hruntime).1
  apply (canonicalFingerprint_eq_iff collisionFree_sample hc₁ hc₂ hpack₁ hpack₂).mpr
  simp only [Fragments.covered, sampleFragments, List.length_singleton]

end FinanceAccounting.Config
