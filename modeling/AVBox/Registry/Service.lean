import AVBox.Lib.Fallible
import AVBox.Models.Common
import Mathlib.Data.List.Dedup
import Mathlib.Data.List.Lex
import Mathlib.Order.Fin.Basic

/-!
# The registry of scanners

The models of `registry/models.py` and the checks of `registry/service.py`.  Of the records only
what the checks read is modelled.  `accepted_integral_iff` says which documents are checked in
full: nothing looks at the platform of a runtime profile.
-/

namespace AVBox

open Fallible

namespace RegistryService

/-! ## The records -/

class HasID (α : Type) where
  id : α → PyStr

structure Platform where
  id : PyStr
  deriving DecidableEq

structure ScannerProduct where
  id : PyStr
  deriving DecidableEq

/-- What a release refers to. -/
structure Release where
  id : PyStr
  productId : PyStr
  platformIds : List PyStr
  runtimeProfileId : PyStr
  workerProfileId : PyStr
  deriving DecidableEq

inductive HistoricalMode
  | periodCorrect
  | finalHistorical
  | maximumRetro
  deriving DecidableEq, Repr

structure ScannerRelease extends Release where
  historicalMode : Option HistoricalMode
  qualificationStatus : PyStr
  deriving DecidableEq

structure DetectorRelease extends Release
  deriving DecidableEq

structure DefinitionSet where
  id : PyStr
  productId : PyStr
  deriving DecidableEq

structure RuntimeProfile where
  id : PyStr
  platformId : PyStr
  deriving DecidableEq

structure WorkerProfile where
  id : PyStr
  deriving DecidableEq

instance : HasID Platform := ⟨Platform.id⟩
instance : HasID ScannerProduct := ⟨ScannerProduct.id⟩
instance : HasID ScannerRelease := ⟨fun release => release.id⟩
instance : HasID DetectorRelease := ⟨fun release => release.id⟩
instance : HasID DefinitionSet := ⟨DefinitionSet.id⟩
instance : HasID RuntimeProfile := ⟨RuntimeProfile.id⟩
instance : HasID WorkerProfile := ⟨WorkerProfile.id⟩

structure Registry where
  platforms : List Platform
  products : List ScannerProduct
  scannerReleases : List ScannerRelease
  detectorReleases : List DetectorRelease
  definitionSets : List DefinitionSet
  runtimeProfiles : List RuntimeProfile
  workerProfiles : List WorkerProfile
  deriving DecidableEq

/-- `historical_mode_requires_historical_qualification`, when it does not raise. -/
def ScannerRelease.Qualified (release : ScannerRelease) : Prop :=
  release.historicalMode = none ∨ PyStr.ofString "incomplete" <:+: release.qualificationStatus ∨
    PyStr.ofString "qualified" <:+: release.qualificationStatus

instance (release : ScannerRelease) : Decidable release.Qualified :=
  inferInstanceAs (Decidable (_ ∨ _))

/-! ## The service -/

inductive RegistryError
  | duplicate (kind : String) (id : PyStr)
  | unknownProduct (record product : PyStr)
  | unknownPlatforms (record : PyStr) (missing : List PyStr)
  | unknownRuntime (record runtime : PyStr)
  | unknownWorker (record worker : PyStr)
  deriving DecidableEq

/-- The text of an error.  `repr` is Python's. -/
def RegistryError.text (repr : PyStr → PyStr) : RegistryError → PyStr
  | .duplicate kind id => PyStr.ofString s!"duplicate {kind} ID: " ++ id
  | .unknownProduct record product => record ++ PyStr.ofString ": unknown product " ++ product
  | .unknownPlatforms record missing =>
      record ++ PyStr.ofString ": unknown platforms [" ++
        List.intercalate (PyStr.ofString ", ") (missing.map repr) ++ PyStr.ofString "]"
  | .unknownRuntime record runtime => record ++ PyStr.ofString ": unknown runtime " ++ runtime
  | .unknownWorker record worker => record ++ PyStr.ofString ": unknown worker " ++ worker

section Unique

variable {α : Type} [HasID α]

/-- The loop of `_unique`, from the records that have been entered. -/
def uniqueFrom (kind : String) : List (PyStr × α) → List α → Except RegistryError (List (PyStr × α))
  | result, [] => .ok result
  | result, item :: items =>
      if HasID.id item ∈ result.map Prod.fst then .error (.duplicate kind (HasID.id item))
      else uniqueFrom kind (result ++ [(HasID.id item, item)]) items

/-- `_unique`. -/
def unique (items : List α) (kind : String) : Except RegistryError (List (PyStr × α)) :=
  uniqueFrom kind [] items

end Unique

/-- `sorted(set(release.platform_ids) - platforms.keys())`. -/
def missingPlatforms (platforms : List PyStr) (release : Release) : List PyStr :=
  (release.platformIds.dedup.filter fun id => id ∉ platforms).mergeSort fun a b => decide (a ≤ b)

/-- The checks on a release, given the identifiers of each kind. -/
def checkRelease (products platforms runtimes workers : List PyStr) (release : Release) :
    Except RegistryError Unit :=
  if release.productId ∉ products then .error (.unknownProduct release.id release.productId)
  else if missingPlatforms platforms release ≠ [] then
    .error (.unknownPlatforms release.id (missingPlatforms platforms release))
  else if release.runtimeProfileId ∉ runtimes then
    .error (.unknownRuntime release.id release.runtimeProfileId)
  else if release.workerProfileId ∉ workers then
    .error (.unknownWorker release.id release.workerProfileId)
  else .ok ⟨⟩

/-- The check on a definition set. -/
def checkDefinition (products : List PyStr) (definition : DefinitionSet) :
    Except RegistryError Unit :=
  if definition.productId ∉ products then
    .error (.unknownProduct definition.id definition.productId)
  else .ok ⟨⟩

/-- `validate_cross_references`. -/
def validateCrossReferences (r : Registry) : Except RegistryError Unit := do
  let platforms ← unique r.platforms "platform"
  let products ← unique r.products "product"
  let runtimes ← unique r.runtimeProfiles "runtime profile"
  let workers ← unique r.workerProfiles "worker profile"
  let releases ← unique r.scannerReleases "scanner release"
  let detectors ← unique r.detectorReleases "detector release"
  let _ ← unique r.definitionSets "definition set"
  let allReleases := releases.map (·.2.toRelease) ++ detectors.map (·.2.toRelease)
  allReleases.forM (checkRelease (products.map Prod.fst) (platforms.map Prod.fst)
    (runtimes.map Prod.fst) (workers.map Prod.fst))
  r.definitionSets.forM (checkDefinition (products.map Prod.fst))

/-- Why a document is refused. -/
inductive Refusal
  | document (exc : Exc)
  | registry (error : RegistryError)
  deriving DecidableEq

/-- The validators of the models. -/
def validateModels (r : Registry) : Except Exc Unit :=
  if ∀ release ∈ r.scannerReleases, release.Qualified then .ok ⟨⟩
  else .error (.value "historical mode requires explicit qualification status")

/-- `RegistryService.__init__`.  `decode` is `yaml.safe_load` and the check of the types of the
fields. -/
def service {δ : Type} (decode : δ → Except Exc Registry) (document : δ) :
    Except Refusal Registry := do
  let r ← (decode document).mapError .document
  (validateModels r).mapError .document
  (validateCrossReferences r).mapError .registry
  return r

/-! ## What the references mean -/

section Names

variable {α : Type} [HasID α]

/-- The identifiers of the records of a kind. -/
def ids (items : List α) : List PyStr := items.map HasID.id

/-- The reference names exactly one record. -/
def Names (items : List α) (reference : PyStr) : Prop := (ids items).count reference = 1

lemma names_iff {items : List α} (h : (ids items).Nodup) {reference : PyStr} :
    Names items reference ↔ reference ∈ ids items :=
  ⟨fun hone => List.count_pos_iff.1 (hone ▸ Nat.one_pos), List.count_eq_one_of_mem h⟩

end Names

/-- The releases of both kinds. -/
def Registry.releases (r : Registry) : List Release :=
  r.scannerReleases.map ScannerRelease.toRelease ++
    r.detectorReleases.map DetectorRelease.toRelease

/-- The identifiers are unique within each kind of record. -/
structure UniqueIds (r : Registry) : Prop where
  platforms : (ids r.platforms).Nodup
  products : (ids r.products).Nodup
  runtimeProfiles : (ids r.runtimeProfiles).Nodup
  workerProfiles : (ids r.workerProfiles).Nodup
  scannerReleases : (ids r.scannerReleases).Nodup
  detectorReleases : (ids r.detectorReleases).Nodup
  definitionSets : (ids r.definitionSets).Nodup

/-- The references of a release. -/
structure ReleaseNames (r : Registry) (release : Release) : Prop where
  product : Names r.products release.productId
  platforms : ∀ platform ∈ release.platformIds, Names r.platforms platform
  runtime : Names r.runtimeProfiles release.runtimeProfileId
  worker : Names r.workerProfiles release.workerProfileId

/-- What `validate_cross_references` looks at. -/
structure Checked (r : Registry) : Prop where
  unique : UniqueIds r
  releases : ∀ release ∈ r.releases, ReleaseNames r release
  definitionSets : ∀ definition ∈ r.definitionSets, Names r.products definition.productId

/-- The platforms of the runtime profiles. -/
def RuntimesNamed (r : Registry) : Prop :=
  ∀ runtime ∈ r.runtimeProfiles, Names r.platforms runtime.platformId

/-- The identifiers are unique, and every reference names exactly one record. -/
structure Integral (r : Registry) : Prop extends Checked r where
  runtimes : RuntimesNamed r

/-! ## What is checked -/

section Unique

variable {α : Type} [HasID α]

/-- The dictionary of records by their identifiers. -/
def byId (items : List α) : List (PyStr × α) := items.map fun item => (HasID.id item, item)

lemma uniqueFrom_eq_ok_iff {kind : String} {result dict : List (PyStr × α)} {items : List α} :
    uniqueFrom kind result items = .ok dict ↔
      (∀ item ∈ items, HasID.id item ∉ result.map Prod.fst) ∧ (ids items).Nodup ∧
        dict = result ++ byId items := by
  induction items generalizing result with
  | nil =>
      rw [uniqueFrom, Except.ok.injEq, eq_comm]
      simp [ids, byId]
  | cons item items ih =>
      rw [uniqueFrom]
      split
      next hmem =>
        refine iff_of_false (fun h => by cases h) fun ⟨hfresh, _⟩ => ?_
        exact hfresh item List.mem_cons_self hmem
      next hnew =>
        have hids : ids (item :: items) = HasID.id item :: ids items := rfl
        have hdict : result ++ byId (item :: items) =
            result ++ [(HasID.id item, item)] ++ byId items := by
          rw [List.append_assoc]
          rfl
        rw [ih, hids, List.nodup_cons, hdict, List.forall_mem_cons, List.map_append,
          List.map_singleton]
        constructor
        · rintro ⟨hfresh, hnodup, rfl⟩
          refine ⟨⟨hnew, fun other hother hmem => ?_⟩, ⟨fun hmem => ?_, hnodup⟩, rfl⟩
          · exact hfresh other hother (List.mem_append_left _ hmem)
          · obtain ⟨other, hother, heq⟩ := List.mem_map.1 hmem
            exact hfresh other hother (List.mem_append_right _ (heq ▸ List.mem_singleton_self _))
        · rintro ⟨⟨-, hfresh⟩, ⟨hhead, hnodup⟩, rfl⟩
          refine ⟨fun other hother hmem => ?_, hnodup, rfl⟩
          rcases List.mem_append.1 hmem with hmem | hmem
          · exact hfresh other hother hmem
          · have heq : HasID.id other = HasID.id item := List.mem_singleton.1 hmem
            exact hhead (heq ▸ List.mem_map_of_mem hother)

lemma unique_eq_ok_iff {kind : String} {dict : List (PyStr × α)} {items : List α} :
    unique items kind = .ok dict ↔ (ids items).Nodup ∧ dict = byId items := by
  rw [unique, uniqueFrom_eq_ok_iff]
  exact and_iff_right fun item _ hmem => List.not_mem_nil hmem

lemma keys_byId (items : List α) : (byId items).map Prod.fst = ids items := by
  rw [byId, List.map_map]
  rfl

end Unique

lemma missingPlatforms_eq_nil_iff {platforms : List PyStr} {release : Release} :
    missingPlatforms platforms release = [] ↔ ∀ id ∈ release.platformIds, id ∈ platforms := by
  rw [missingPlatforms, ← List.length_eq_zero_iff, List.length_mergeSort, List.length_eq_zero_iff,
    List.filter_eq_nil_iff]
  simp only [List.mem_dedup, decide_eq_true_eq, not_not]

lemma checkRelease_eq_ok_iff {products platforms runtimes workers : List PyStr}
    {release : Release} :
    checkRelease products platforms runtimes workers release = .ok ⟨⟩ ↔
      release.productId ∈ products ∧ (∀ id ∈ release.platformIds, id ∈ platforms) ∧
        release.runtimeProfileId ∈ runtimes ∧ release.workerProfileId ∈ workers := by
  rw [← missingPlatforms_eq_nil_iff, checkRelease]
  split
  next h => exact iff_of_false (fun hok => by cases hok) fun hall => h hall.1
  next hproduct =>
    split
    next h => exact iff_of_false (fun hok => by cases hok) fun hall => h hall.2.1
    next hplatforms =>
      split
      next h => exact iff_of_false (fun hok => by cases hok) fun hall => h hall.2.2.1
      next hruntime =>
        split
        next h => exact iff_of_false (fun hok => by cases hok) fun hall => h hall.2.2.2
        next hworker =>
          exact iff_of_true rfl ⟨not_not.1 hproduct, not_not.1 hplatforms, not_not.1 hruntime,
            not_not.1 hworker⟩

lemma checkDefinition_eq_ok_iff {products : List PyStr} {definition : DefinitionSet} :
    checkDefinition products definition = .ok ⟨⟩ ↔ definition.productId ∈ products := by
  rw [checkDefinition]
  split
  next h => exact iff_of_false (fun hok => by cases hok) h
  next h => exact iff_of_true rfl (not_not.1 h)

lemma releaseNames_iff {r : Registry} (h : UniqueIds r) {release : Release} :
    ReleaseNames r release ↔
      checkRelease (ids r.products) (ids r.platforms) (ids r.runtimeProfiles)
        (ids r.workerProfiles) release = .ok ⟨⟩ := by
  rw [checkRelease_eq_ok_iff]
  constructor
  · rintro ⟨hproduct, hplatforms, hruntime, hworker⟩
    exact ⟨(names_iff h.products).1 hproduct,
      fun id hid => (names_iff h.platforms).1 (hplatforms id hid),
      (names_iff h.runtimeProfiles).1 hruntime, (names_iff h.workerProfiles).1 hworker⟩
  · rintro ⟨hproduct, hplatforms, hruntime, hworker⟩
    exact ⟨(names_iff h.products).2 hproduct,
      fun id hid => (names_iff h.platforms).2 (hplatforms id hid),
      (names_iff h.runtimeProfiles).2 hruntime, (names_iff h.workerProfiles).2 hworker⟩

lemma releases_byId (r : Registry) :
    (byId r.scannerReleases).map (·.2.toRelease) ++ (byId r.detectorReleases).map (·.2.toRelease) =
      r.releases := by
  rw [byId, byId, List.map_map, List.map_map]
  rfl

/-- The pass over the registry checks exactly what it looks at. -/
lemma validateCrossReferences_eq_ok_iff {r : Registry} :
    validateCrossReferences r = .ok ⟨⟩ ↔ Checked r := by
  constructor
  · intro h
    obtain ⟨platforms, hplatforms, h⟩ := bind_eq_ok.1 h
    obtain ⟨products, hproducts, h⟩ := bind_eq_ok.1 h
    obtain ⟨runtimes, hruntimes, h⟩ := bind_eq_ok.1 h
    obtain ⟨workers, hworkers, h⟩ := bind_eq_ok.1 h
    obtain ⟨releases, hreleases, h⟩ := bind_eq_ok.1 h
    obtain ⟨detectors, hdetectors, h⟩ := bind_eq_ok.1 h
    obtain ⟨definitions, hdefinitions, h⟩ := bind_eq_ok.1 h
    obtain ⟨⟨⟩, hall, hsets⟩ := bind_eq_ok.1 h
    obtain ⟨hplatformIds, rfl⟩ := unique_eq_ok_iff.1 hplatforms
    obtain ⟨hproductIds, rfl⟩ := unique_eq_ok_iff.1 hproducts
    obtain ⟨hruntimeIds, rfl⟩ := unique_eq_ok_iff.1 hruntimes
    obtain ⟨hworkerIds, rfl⟩ := unique_eq_ok_iff.1 hworkers
    obtain ⟨hreleaseIds, rfl⟩ := unique_eq_ok_iff.1 hreleases
    obtain ⟨hdetectorIds, rfl⟩ := unique_eq_ok_iff.1 hdetectors
    have hunique : UniqueIds r := ⟨hplatformIds, hproductIds, hruntimeIds, hworkerIds, hreleaseIds,
      hdetectorIds, (unique_eq_ok_iff.1 hdefinitions).1⟩
    simp only [keys_byId, releases_byId] at hall hsets
    refine ⟨hunique, fun release hrelease => ?_, fun definition hdefinition => ?_⟩
    · exact (releaseNames_iff hunique).2 (forM_eq_ok_iff.1 hall release hrelease)
    · exact (names_iff hproductIds).2
        (checkDefinition_eq_ok_iff.1 (forM_eq_ok_iff.1 hsets definition hdefinition))
  · rintro ⟨hunique, hreleases, hdefinitions⟩
    rw [validateCrossReferences, unique_eq_ok_iff.2 ⟨hunique.platforms, rfl⟩,
      unique_eq_ok_iff.2 ⟨hunique.products, rfl⟩, unique_eq_ok_iff.2 ⟨hunique.runtimeProfiles, rfl⟩,
      unique_eq_ok_iff.2 ⟨hunique.workerProfiles, rfl⟩,
      unique_eq_ok_iff.2 ⟨hunique.scannerReleases, rfl⟩,
      unique_eq_ok_iff.2 ⟨hunique.detectorReleases, rfl⟩,
      unique_eq_ok_iff.2 ⟨hunique.definitionSets, rfl⟩]
    simp only [ok_bind, keys_byId, releases_byId]
    refine bind_eq_ok.2 ⟨⟨⟩, forM_eq_ok_iff.2 fun release hrelease => ?_,
      forM_eq_ok_iff.2 fun definition hdefinition => ?_⟩
    · exact (releaseNames_iff hunique).1 (hreleases release hrelease)
    · exact checkDefinition_eq_ok_iff.2
        ((names_iff hunique.products).1 (hdefinitions definition hdefinition))

/-! ## The documents -/

variable {δ : Type} {decode : δ → Except Exc Registry} {document : δ}

/-- The models accept the registry. -/
def ModelsValid (r : Registry) : Prop := ∀ release ∈ r.scannerReleases, release.Qualified

lemma mapError_eq_ok_iff {ε ε' α : Type} {f : ε → ε'} {x : Except ε α} {a : α} :
    x.mapError f = .ok a ↔ x = .ok a := by
  cases x with
  | ok b => exact ⟨fun h => congrArg _ (Except.ok.inj h), fun h => congrArg _ (Except.ok.inj h)⟩
  | error e => exact iff_of_false (fun h => by cases h) fun h => by cases h

lemma service_eq_ok_iff {r : Registry} :
    service decode document = .ok r ↔ decode document = .ok r ∧ ModelsValid r ∧ Checked r := by
  have hmodels : ∀ r, validateModels r = .ok ⟨⟩ ↔ ModelsValid r := by
    intro r
    unfold validateModels
    split
    next h => exact iff_of_true rfl h
    next h => exact iff_of_false (fun hok => by cases hok) h
  constructor
  · intro h
    obtain ⟨r', hdecode, h⟩ := bind_eq_ok.1 h
    obtain ⟨⟨⟩, hvalid, h⟩ := bind_eq_ok.1 h
    obtain ⟨⟨⟩, hchecked, h⟩ := bind_eq_ok.1 h
    obtain rfl := Except.ok.inj h
    exact ⟨mapError_eq_ok_iff.1 hdecode, (hmodels r').1 (mapError_eq_ok_iff.1 hvalid),
      validateCrossReferences_eq_ok_iff.1 (mapError_eq_ok_iff.1 hchecked)⟩
  · rintro ⟨hdecode, hvalid, hchecked⟩
    exact bind_eq_ok.2 ⟨r, mapError_eq_ok_iff.2 hdecode, bind_eq_ok.2 ⟨⟨⟩,
      mapError_eq_ok_iff.2 ((hmodels r).2 hvalid), bind_eq_ok.2 ⟨⟨⟩,
      mapError_eq_ok_iff.2 (validateCrossReferences_eq_ok_iff.2 hchecked), rfl⟩⟩⟩

/-- What is accepted has integrity, and what has none is refused, exactly if the runtime profiles
of what passes the other checks name their platforms. -/
theorem accepted_integral_iff (decode : δ → Except Exc Registry) (document : δ) :
    ((∀ r, service decode document = .ok r → Integral r) ∧
        ∀ r, decode document = .ok r → ¬Integral r →
          ∃ refusal, service decode document = .error refusal) ↔
      ∀ r, decode document = .ok r → ModelsValid r → Checked r → RuntimesNamed r := by
  constructor
  · rintro ⟨haccepted, -⟩ r hdecode hvalid hchecked
    exact (haccepted r (service_eq_ok_iff.2 ⟨hdecode, hvalid, hchecked⟩)).runtimes
  · intro h
    have haccepted : ∀ r, service decode document = .ok r → Integral r := by
      intro r hr
      obtain ⟨hdecode, hvalid, hchecked⟩ := service_eq_ok_iff.1 hr
      exact ⟨hchecked, h r hdecode hvalid hchecked⟩
    refine ⟨haccepted, fun r hdecode hbroken => ?_⟩
    cases hservice : service decode document with
    | error refusal => exact ⟨refusal, rfl⟩
    | ok r' =>
        obtain rfl : r = r' :=
          Except.ok.inj (hdecode.symm.trans (service_eq_ok_iff.1 hservice).1)
        exact absurd (haccepted r hservice) hbroken

/-- A registry with a runtime profile for a platform that it does not have. -/
def danglingRegistry : Registry where
  platforms := [⟨PyStr.ofString "linux"⟩]
  products := []
  scannerReleases := []
  detectorReleases := []
  definitionSets := []
  runtimeProfiles := [⟨PyStr.ofString "native", PyStr.ofString "nonexistent"⟩]
  workerProfiles := []

theorem dangling_runtime_accepted :
    service .ok danglingRegistry = .ok danglingRegistry ∧ ¬Integral danglingRegistry := by
  refine ⟨by decide +kernel, fun h => ?_⟩
  have hnames : (ids danglingRegistry.platforms).count (PyStr.ofString "nonexistent") = 1 :=
    h.runtimes _ List.mem_cons_self
  revert hnames
  decide +kernel

end RegistryService

end AVBox
