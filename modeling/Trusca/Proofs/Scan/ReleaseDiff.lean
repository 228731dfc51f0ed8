import Trusca.Scan.ReleaseDiff

/-! What the diff of two releases says: it compares the versions that the query returns last for each package,
which are all versions where a scan has one version of each package. -/

namespace Trusca

open Store

section Dictionaries

variable {κ β : Type} [DecidableEq κ] {first second base target base' target' : List (κ × β)}

/-- Dictionaries that hold the same values, maybe in another order. -/
structure SameItems (first second : List (κ × β)) : Prop where
  left : (keys first).Nodup
  right : (keys second).Nodup
  lookup : ∀ key, first.lookup key = second.lookup key

/-- However the keys of one side are listed, the values that the other side misses are the same. -/
theorem missing_perm (listing other : Listing κ) (bases : SameItems base base') (targets : SameItems target target') :
    ((listing.list ((keys base).filter fun key => key ∉ keys target)).filterMap fun key => base.lookup key).Perm
      ((other.list ((keys base').filter fun key => key ∉ keys target')).filterMap fun key => base'.lookup key) := by
  -- The same values under the same keys; only the order may differ.
  have values : (fun key => base.lookup key) = fun key => base'.lookup key := funext bases.lookup
  have kept : (fun key => decide (key ∉ keys target)) = fun key => decide (key ∉ keys target') := by
    funext key
    refine decide_eq_decide.mpr (not_congr ?_)
    rw [mem_keys_iff_lookup, mem_keys_iff_lookup, targets.lookup]
  rw [values, kept]
  refine List.Perm.filterMap _ ((listing.perm _).trans ?_)
  exact ((keys_perm bases.left bases.right bases.lookup).filter _).trans (other.perm _).symm

/-- What one side has and the other one misses. -/
theorem mem_missing {listing : Listing κ} {value : β} :
    value ∈ ((listing.list ((keys base).filter fun key => key ∉ keys target)).filterMap fun key => base.lookup key) ↔
      ∃ key, base.lookup key = some value ∧ target.lookup key = none := by
  rw [List.mem_filterMap]
  constructor
  · -- What is missing was in the base and is not in the target.
    rintro ⟨key, listed, found⟩
    refine ⟨key, found, ?_⟩
    have missing := (List.mem_filter.mp ((listing.perm _).mem_iff.mp listed)).2
    rwa [decide_eq_true_eq, mem_keys_iff_lookup, Option.not_isSome_iff_eq_none] at missing
  · rintro ⟨key, found, missing⟩
    refine ⟨key, (listing.perm _).mem_iff.mpr (List.mem_filter.mpr ⟨?_, ?_⟩), found⟩
    · exact mem_keys_iff_lookup.mpr (Option.isSome_of_eq_some found)
    · rw [decide_eq_true_eq, mem_keys_iff_lookup, missing]
      nofun

end Dictionaries

section Rows

variable {catalog : ReleaseCatalog} {base target base' target' : List (Nat × ComponentRow)}

/-- A dictionary of rows of the catalog, each under its package. -/
def Drawn (catalog : ReleaseCatalog) (rows : List (Nat × ComponentRow)) : Prop :=
  ∀ package row, rows.lookup package = some row →
    catalog.componentRow row.cvId = row ∧ row.componentId = package

/-- Rows are drawn from the catalog whatever the order of the dictionary. -/
theorem Drawn.congr (drawn : Drawn catalog base) (same : SameItems base base') : Drawn catalog base' := by
  intro package row found
  exact drawn package row ((same.lookup package).trans found)

/-- A row of the catalog is known by its purl. -/
theorem row_eq_of_purl {first second : ComponentRow} (one : catalog.componentRow first.cvId = first)
    (two : catalog.componentRow second.cvId = second) (same : first.purlWithVersion = second.purlWithVersion) :
    first = second := by
  rw [← one, ← two] at same
  rw [← one, ← two, catalog.purlWithVersion_unique _ _ same]

/-- What a package is called does not depend on the version. -/
theorem package_eq {first second : ComponentRow} (one : catalog.componentRow first.cvId = first)
    (two : catalog.componentRow second.cvId = second) :
    first.componentId = second.componentId ↔ first.purlNoVersion = second.purlNoVersion := by
  rw [← one, ← two]
  constructor
  · intro same
    exact congrArg (fun package => (catalog.component package).purl) same
  · exact catalog.purl_unique _ _

/-- Two rows of one package differ in their version only. -/
theorem package_fields {first second : ComponentRow} (one : catalog.componentRow first.cvId = first)
    (two : catalog.componentRow second.cvId = second) (same : first.componentId = second.componentId) :
    first.name = second.name ∧ first.namespaceName = second.namespaceName ∧
      first.purlNoVersion = second.purlNoVersion := by
  rw [← one, ← two] at same ⊢
  have packages := congrArg catalog.component same
  exact ⟨congrArg PackageRecord.name packages, congrArg PackageRecord.namespaceName packages,
    congrArg PackageRecord.purl packages⟩

/-- A missing row is one of the base whose package the target lacks. -/
theorem mem_missingRows {listing : Listing Nat} {row : ComponentRow} :
    row ∈ missingRows listing base target ↔
      ∃ package, base.lookup package = some row ∧ target.lookup package = none := by
  unfold missingRows
  rw [mem_sortBy, mem_missing]

/-- The rows that one side misses come in the same order whatever the order of the sets. -/
theorem missingRows_congr (listing other : Listing Nat) (drawn : Drawn catalog base)
    (bases : SameItems base base') (targets : SameItems target target') :
    missingRows listing base target = missingRows other base' target' := by
  refine sortBy_unique ((sortBy_perm _ _).trans (missing_perm listing other bases targets)) (sortBy_sorted _ _) ?_
  intro first one second two same
  obtain ⟨_, found, -⟩ := mem_missing.mp one
  obtain ⟨_, also, -⟩ := mem_missing.mp two
  have purls := (Prod.mk.inj (toLex_inj.mp same)).2
  exact row_eq_of_purl (drawn.congr bases _ _ found).1 (drawn.congr bases _ _ also).1 purls

/-- The pairs of rows of the packages that both sides have. -/
def rowPairs (listing : Listing Nat) (base target : List (Nat × ComponentRow)) : List (ComponentRow × ComponentRow) :=
  ((listing.list ((keys base).filter fun package => package ∈ keys target)).filterMap fun package =>
    (base.lookup package).bind fun row => (target.lookup package).map fun other => (row, other)).filter rowsDiffer

/-- A pair holds the rows of one package on the two sides, when they differ. -/
theorem mem_rowPairs {listing : Listing Nat} {pair : ComponentRow × ComponentRow} :
    pair ∈ rowPairs listing base target ↔
      (∃ package, base.lookup package = some pair.1 ∧ target.lookup package = some pair.2) ∧ rowsDiffer pair := by
  unfold rowPairs
  rw [List.mem_filter, List.mem_filterMap]
  refine and_congr_left fun _ => ?_
  constructor
  · -- A pair is of one package, which both sides have.
    rintro ⟨package, -, found⟩
    obtain ⟨row, one, rest⟩ := Option.bind_eq_some_iff.mp found
    obtain ⟨other, two, rfl⟩ := Option.map_eq_some_iff.mp rest
    exact ⟨package, one, two⟩
  · rintro ⟨package, one, two⟩
    refine ⟨package, (listing.perm _).mem_iff.mpr (List.mem_filter.mpr ⟨?_, ?_⟩), by simp [one, two]⟩
    · exact mem_keys_iff_lookup.mpr (Option.isSome_of_eq_some one)
    · rw [decide_eq_true_eq]
      exact mem_keys_iff_lookup.mpr (Option.isSome_of_eq_some two)

/-- A changed pair holds the rows of one package on the two sides, when they differ. -/
theorem mem_changedRows {listing : Listing Nat} {pair : ComponentRow × ComponentRow} :
    pair ∈ changedRows listing base target ↔
      (∃ package, base.lookup package = some pair.1 ∧ target.lookup package = some pair.2) ∧ rowsDiffer pair := by
  unfold changedRows
  rw [mem_sortBy]
  exact mem_rowPairs

/-- Rows differ seen from either side. -/
theorem rowsDiffer_swap (pair : ComponentRow × ComponentRow) : rowsDiffer pair.swap = rowsDiffer pair := by
  unfold rowsDiffer
  rw [Prod.fst_swap, Prod.snd_swap, bne_comm, bne_comm (a := pair.2.version)]

/-- Seen from the other side, the pairs are turned around. -/
theorem rowPairs_swap (listing other : Listing Nat) (bases : SameItems base base')
    (targets : SameItems target target') :
    ((rowPairs listing base target).map Prod.swap).Perm (rowPairs other target' base') := by
  unfold rowPairs
  -- The rows differ both ways round alike.
  have turned : rowsDiffer = rowsDiffer ∘ Prod.swap := funext fun pair => (rowsDiffer_swap pair).symm
  nth_rewrite 1 [turned]
  rw [← List.filter_map, List.map_filterMap]
  refine List.Perm.filter _ ?_
  -- The packages both sides have, in another order.
  have both : ((keys base).filter fun package => package ∈ keys target).Perm
      ((keys target').filter fun package => package ∈ keys base') := by
    refine (List.perm_ext_iff_of_nodup (bases.left.filter _) (targets.right.filter _)).mpr fun package => ?_
    simp only [List.mem_filter, decide_eq_true_eq, mem_keys_iff_lookup, bases.lookup, targets.lookup]
    exact and_comm
  -- Each package gives its pair of rows, turned.
  have values : (fun package => ((base.lookup package).bind fun row =>
      (target.lookup package).map fun other => (row, other)).map Prod.swap) = fun package =>
        (target'.lookup package).bind fun row => (base'.lookup package).map fun other => (row, other) := by
    funext package
    rw [bases.lookup, targets.lookup]
    cases base'.lookup package <;> cases target'.lookup package <;> rfl
  rw [values]
  exact ((listing.perm _).trans (both.trans (other.perm _).symm)).filterMap _

/-- Seen from the other side, the changed rows are turned around, in the same order. -/
theorem changedRows_swap (listing other : Listing Nat) (drawn : Drawn catalog base) (drawn' : Drawn catalog target)
    (bases : SameItems base base') (targets : SameItems target target') :
    (changedRows listing base target).map Prod.swap = changedRows other target' base' := by
  -- Turned, a pair sorts by the same name and the same purl: both rows are of one package.
  have alike : ∀ pair ∈ changedRows listing base target,
      toLex (pair.swap.1.name, pair.swap.1.purlNoVersion) = toLex (pair.1.name, pair.1.purlNoVersion) := by
    intro pair listed
    obtain ⟨⟨package, one, two⟩, -⟩ := mem_changedRows.mp listed
    obtain ⟨row, here⟩ := drawn _ _ one
    obtain ⟨row', there⟩ := drawn' _ _ two
    obtain ⟨names, -, purls⟩ := package_fields row' row (there.trans here.symm)
    rw [Prod.fst_swap, names, purls]
  -- So the sort of the turned pairs is the sort of the other way round.
  refine sortBy_unique (((sortBy_perm _ _).map _).trans (rowPairs_swap listing other bases targets)) ?_ ?_
  · rw [List.pairwise_map]
    refine (sortBy_sorted _ _).imp_of_mem ?_
    intro first second one two before
    rwa [alike first one, alike second two]
  · -- No two pairs tie, since the purl names the package.
    intro first one second two same
    obtain ⟨⟨package, here, also⟩, -⟩ := mem_rowPairs.mp one
    obtain ⟨⟨package', there, also'⟩, -⟩ := mem_rowPairs.mp two
    have purls := (Prod.mk.inj (toLex_inj.mp same)).2
    obtain ⟨row, packaged⟩ := drawn'.congr targets _ _ here
    obtain ⟨row', packaged'⟩ := drawn'.congr targets _ _ there
    have packages := (package_eq row row').mpr purls
    rw [packaged, packaged'] at packages
    subst packages
    exact Prod.ext (Option.some.inj (here.symm.trans there)) (Option.some.inj (also.symm.trans also'))

end Rows

section Queries

variable (catalog : ReleaseCatalog)

/-- The version that a list of rows has last for a package. -/
def lastVersion (cvIds : List Nat) (package : Nat) : Option Nat :=
  cvIds.reverse.find? fun cvId => (catalog.componentVersion cvId).componentId = package

/-- A list of rows with one version of every package. -/
def SingleVersions (cvIds : List Nat) : Prop :=
  ∀ first ∈ cvIds, ∀ second ∈ cvIds,
    (catalog.componentVersion first).componentId = (catalog.componentVersion second).componentId → first = second

variable {catalog} {cvIds others : List Nat} {package cvId : Nat}

/-- One more version takes the place of its package. -/
theorem componentsByPackage_concat :
    catalog.componentsByPackage (cvIds ++ [cvId]) =
      put (catalog.componentsByPackage cvIds) (catalog.componentVersion cvId).componentId
        (catalog.componentRow cvId) := by
  unfold ReleaseCatalog.componentsByPackage
  rw [List.foldl_concat]
  rfl

/-- No package is listed twice. -/
theorem keys_componentsByPackage_nodup (cvIds : List Nat) : (keys (catalog.componentsByPackage cvIds)).Nodup := by
  induction cvIds using List.reverseRecOn with
  | nil => exact .nil
  | append_singleton front cvId ih =>
    rw [componentsByPackage_concat]
    exact keys_put_nodup ih _ _

/-- The last row of a package wins. -/
theorem lookup_componentsByPackage (cvIds : List Nat) (package : Nat) :
    (catalog.componentsByPackage cvIds).lookup package =
      (lastVersion catalog cvIds package).map catalog.componentRow := by
  unfold lastVersion
  induction cvIds using List.reverseRecOn with
  | nil => rfl
  | append_singleton front cvId ih =>
    rw [componentsByPackage_concat, lookup_put, List.reverse_append, List.reverse_singleton, List.singleton_append,
      List.find?_cons]
    -- The last version of the package is the row it shows.
    by_cases same : package = (catalog.componentVersion cvId).componentId
    · simp [same]
    · simp [same, Ne.symm same, ih]

/-- The last version of a package is one of the versions, and of that package. -/
theorem lastVersion_some (last : lastVersion catalog cvIds package = some cvId) :
    cvId ∈ cvIds ∧ (catalog.componentVersion cvId).componentId = package := by
  unfold lastVersion at last
  have found := List.find?_some last
  rw [decide_eq_true_eq] at found
  exact ⟨List.mem_reverse.mp (List.mem_of_find?_eq_some last), found⟩

/-- The only version of a package is the last one. -/
theorem lastVersion_of_single (single : SingleVersions catalog cvIds) (listed : cvId ∈ cvIds) :
    lastVersion catalog cvIds (catalog.componentVersion cvId).componentId = some cvId := by
  cases last : lastVersion catalog cvIds (catalog.componentVersion cvId).componentId with
  | none =>
    have missing := List.find?_eq_none.mp last cvId (List.mem_reverse.mpr listed)
    exact absurd rfl (of_decide_eq_false (Bool.not_eq_true _ ▸ missing))
  | some other =>
    obtain ⟨also, same⟩ := lastVersion_some last
    rw [single other also cvId listed same]

/-- Where each package has one version, the order of the rows is of no matter. -/
theorem lastVersion_congr (single : SingleVersions catalog cvIds) (same : ∀ cvId, cvId ∈ cvIds ↔ cvId ∈ others)
    (package : Nat) : lastVersion catalog cvIds package = lastVersion catalog others package := by
  have single' : SingleVersions catalog others := fun first one second two =>
    single first ((same first).mpr one) second ((same second).mpr two)
  refine Option.ext fun cvId => ?_
  constructor
  · -- With one version a package the order does not matter.
    intro last
    obtain ⟨listed, rfl⟩ := lastVersion_some last
    exact lastVersion_of_single single' ((same cvId).mp listed)
  · intro last
    obtain ⟨listed, rfl⟩ := lastVersion_some last
    exact lastVersion_of_single single ((same cvId).mpr listed)

/-- The rows by package are drawn from the catalog. -/
theorem componentsByPackage_drawn (cvIds : List Nat) : Drawn catalog (catalog.componentsByPackage cvIds) := by
  intro package row found
  rw [lookup_componentsByPackage] at found
  obtain ⟨cvId, last, rfl⟩ := Option.map_eq_some_iff.mp found
  exact ⟨rfl, (lastVersion_some last).2⟩

/-- The rows by package only depend on the last version of each. -/
theorem componentsByPackage_same
    (last : ∀ package, lastVersion catalog cvIds package = lastVersion catalog others package) :
    SameItems (catalog.componentsByPackage cvIds) (catalog.componentsByPackage others) where
  left := keys_componentsByPackage_nodup cvIds
  right := keys_componentsByPackage_nodup others
  lookup package := by rw [lookup_componentsByPackage, lookup_componentsByPackage, last]

/-- Whether an open finding has an advisory and a component version. -/
def OpenKey (findings : List ReleaseFinding) (key : Exposure) : Prop :=
  ∃ finding ∈ findings, finding.status ∉ ReleaseFinding.closedStatuses ∧ finding.key = key

variable {findings : List ReleaseFinding} {finding : ReleaseFinding}

/-- One more finding is entered when it is open and its key is new. -/
theorem openFindingsByKey_concat :
    catalog.openFindingsByKey (findings ++ [finding]) =
      if finding.status ∉ ReleaseFinding.closedStatuses ∧ finding.key ∉ keys (catalog.openFindingsByKey findings) then
        put (catalog.openFindingsByKey findings) finding.key (catalog.findingEntry finding.key)
      else catalog.openFindingsByKey findings := by
  unfold ReleaseCatalog.openFindingsByKey
  rw [List.filter_append, List.foldl_append]
  by_cases closed : finding.status ∈ ReleaseFinding.closedStatuses
  · simp [closed]
  · simp only [closed, not_false_eq_true, decide_true, List.filter_cons_of_pos, List.filter_nil, List.foldl_cons,
      List.foldl_nil, true_and]
    split_ifs <;> rfl

/-- No key is listed twice. -/
theorem keys_openFindingsByKey_nodup (findings : List ReleaseFinding) :
    (keys (catalog.openFindingsByKey findings)).Nodup := by
  induction findings using List.reverseRecOn with
  | nil => exact .nil
  | append_singleton front finding ih =>
    rw [openFindingsByKey_concat]
    split_ifs
    · exact keys_put_nodup ih _ _
    · exact ih

/-- An open finding is found under its key, whichever of its rows is kept. -/
theorem lookup_openFindingsByKey (findings : List ReleaseFinding) (key : Exposure) (entry : FindingEntry) :
    (catalog.openFindingsByKey findings).lookup key = some entry ↔
      OpenKey findings key ∧ catalog.findingEntry key = entry := by
  induction findings using List.reverseRecOn generalizing entry with
  | nil => simp [ReleaseCatalog.openFindingsByKey, OpenKey]
  | append_singleton front finding ih =>
    have split : OpenKey (front ++ [finding]) key ↔ OpenKey front key ∨
        finding.status ∉ ReleaseFinding.closedStatuses ∧ finding.key = key := by
      simp [OpenKey, or_and_right, exists_or]
    rw [openFindingsByKey_concat, split]
    split_ifs with new
    · rw [lookup_put]
      by_cases same : key = finding.key
      · subst same
        simp [new.1]
      · rw [if_neg same, ih]
        simp [Ne.symm same]
    · rw [ih]
      refine and_congr_left fun shown => ⟨.inl, fun either => either.elim id ?_⟩
      rintro ⟨opened, rfl⟩
      -- A finding that is not added is open under a key that is there.
      have known : finding.key ∈ keys (catalog.openFindingsByKey front) := by
        by_contra missing
        exact new ⟨opened, missing⟩
      obtain ⟨held, found⟩ := Option.isSome_iff_exists.mp (mem_keys_iff_lookup.mp known)
      exact ((ih held).mp found).1

/-- The open findings by key do not depend on the order of the findings. -/
theorem openFindingsByKey_same {others : List ReleaseFinding} (perm : findings.Perm others) :
    SameItems (catalog.openFindingsByKey findings) (catalog.openFindingsByKey others) where
  left := keys_openFindingsByKey_nodup findings
  right := keys_openFindingsByKey_nodup others
  lookup key := by
    have opened : OpenKey findings key ↔ OpenKey others key := by
      simp only [OpenKey, perm.mem_iff]
    refine Option.ext fun entry => ?_
    rw [lookup_openFindingsByKey, lookup_openFindingsByKey, opened]

/-- An exposure is known by its advisory and its purl. -/
theorem findingEntry_injective {first second : Exposure}
    (same : (catalog.findingEntry first).order = (catalog.findingEntry second).order) : first = second := by
  obtain ⟨advisories, rest⟩ := Prod.mk.inj (toLex_inj.mp same)
  obtain ⟨-, rest⟩ := Prod.mk.inj (toLex_inj.mp rest)
  obtain ⟨-, purls⟩ := Prod.mk.inj (toLex_inj.mp rest)
  -- The advisory and the purl are told apart by their unique names.
  have advisory := catalog.externalId_unique _ _ advisories
  have version := catalog.purlWithVersion_unique _ _ purls
  cases first
  cases second
  exact congrArg₂ Exposure.mk advisory version

/-- The findings that one side misses come in the same order whatever the order of the rows. -/
theorem missingFindings_congr (listing other : Listing Exposure) {base target base' target' : List ReleaseFinding}
    (bases : base.Perm base') (targets : target.Perm target') :
    missingFindings listing (catalog.openFindingsByKey base) (catalog.openFindingsByKey target) =
      missingFindings other (catalog.openFindingsByKey base') (catalog.openFindingsByKey target') := by
  refine sortBy_unique ((sortBy_perm _ _).trans (missing_perm listing other (openFindingsByKey_same bases)
    (openFindingsByKey_same targets))) (sortBy_sorted _ _) ?_
  -- No two findings tie in the order.
  intro first one second two same
  obtain ⟨key, found, -⟩ := mem_missing.mp one
  obtain ⟨key', also, -⟩ := mem_missing.mp two
  obtain ⟨-, rfl⟩ := (lookup_openFindingsByKey _ _ _).mp found
  obtain ⟨-, rfl⟩ := (lookup_openFindingsByKey _ _ _).mp also
  rw [findingEntry_injective same]

end Queries

section Statements

/-- Nothing came, went or changed. -/
def ComponentChanges.Empty (changes : ComponentChanges) : Prop :=
  changes.added = [] ∧ changes.removed = [] ∧ changes.changed = []

/-- The change in the other direction. -/
def ChangedEntry.swap (entry : ChangedEntry) : ChangedEntry :=
  { entry with baseVersion := entry.targetVersion, targetVersion := entry.baseVersion }

def ComponentChanges.swap (changes : ComponentChanges) : ComponentChanges :=
  ⟨changes.removed, changes.added, changes.changed.map ChangedEntry.swap, changes.truncated⟩

def FindingChanges.swap (changes : FindingChanges) : FindingChanges :=
  ⟨changes.resolved, changes.introduced, changes.truncated⟩

def ReleaseChanges.swap (changes : ReleaseChanges) : ReleaseChanges :=
  ⟨changes.components.swap, changes.vulnerabilities.swap⟩

/-- The orders of a request in the other direction. -/
def DiffListings.swap (listings : DiffListings) : DiffListings :=
  { listings with
    baseComponents := listings.targetComponents
    targetComponents := listings.baseComponents
    baseFindings := listings.targetFindings
    targetFindings := listings.baseFindings }

/-- A row of the base is shown as removed, or as the old version of a changed package. -/
def ComponentChanges.Shows (changes : ComponentChanges) (row : ComponentRow) : Prop :=
  row.entry ∈ changes.removed ∨
    ∃ entry ∈ changes.changed, entry.purl = row.purlNoVersion ∧ entry.baseVersion = row.version

/-- What the diff of two scans says: all that is asked where the scans have one version of each package, and
else the same of the versions that the rows show last. -/
structure ReleaseDiffLaws (catalog : ReleaseCatalog) (scans : Nat → ReleaseScan) (base target : Nat) : Prop where
  same : SingleVersions catalog (scans base).components →
    (∀ cvId, cvId ∈ (scans base).components ↔ cvId ∈ (scans target).components) →
    ∀ listings, (diffReleaseSnapshots catalog scans listings base target).components.Empty
  swap : SingleVersions catalog (scans base).components → SingleVersions catalog (scans target).components →
    ∀ listings others, diffReleaseSnapshots catalog scans others target base =
      (diffReleaseSnapshots catalog scans listings base target).swap
  removed : SingleVersions catalog (scans base).components →
    ∀ listings, (diffReleaseSnapshots catalog scans listings base target).truncated = false →
    ∀ cvId ∈ (scans base).components, cvId ∉ (scans target).components →
      (diffReleaseSnapshots catalog scans listings base target).components.Shows (catalog.componentRow cvId)
  added : SingleVersions catalog (scans target).components →
    ∀ listings, (diffReleaseSnapshots catalog scans listings base target).truncated = false →
    ∀ cvId ∈ (scans target).components, cvId ∉ (scans base).components →
      (diffReleaseSnapshots catalog scans listings base target).components.swap.Shows (catalog.componentRow cvId)
  findings : ∀ listings others, (diffReleaseSnapshots catalog scans others target base).vulnerabilities =
    (diffReleaseSnapshots catalog scans listings base target).vulnerabilities.swap
  empty_iff : base ≠ target → ∀ listings,
    (diffReleaseSnapshots catalog scans listings base target).components.Empty ↔ ∀ package,
      lastVersion catalog (listings.baseComponents.list (scans base).components) package =
        lastVersion catalog (listings.targetComponents.list (scans target).components) package
  swapInOrder : ∀ listings others : DiffListings, others.targetComponents = listings.baseComponents →
    others.baseComponents = listings.targetComponents →
    diffReleaseSnapshots catalog scans others target base =
      (diffReleaseSnapshots catalog scans listings base target).swap
  removedLast : base ≠ target →
    ∀ listings, (diffReleaseSnapshots catalog scans listings base target).truncated = false →
    ∀ package cvId, lastVersion catalog (listings.baseComponents.list (scans base).components) package = some cvId →
      lastVersion catalog (listings.targetComponents.list (scans target).components) package ≠ some cvId →
      (diffReleaseSnapshots catalog scans listings base target).components.Shows (catalog.componentRow cvId)

end Statements

section Diff

variable {catalog : ReleaseCatalog} {base target base' target' : List (Nat × ComponentRow)}

/-- The diff is empty when both sides have the same rows, and only then. -/
theorem diffComponents_empty_iff (listing : Listing Nat) (drawn : Drawn catalog base)
    (drawn' : Drawn catalog target) :
    (diffComponents listing base target).Empty ↔ ∀ package, base.lookup package = target.lookup package := by
  -- A cut list is empty only when the list is.
  have shown {α γ : Type} (rows : List α) (entry : α → γ) : (rows.take maxList).map entry = [] ↔ rows = [] := by
    rw [List.map_eq_nil_iff, List.take_eq_nil_iff]
    exact or_iff_right (by decide)
  unfold ComponentChanges.Empty diffComponents
  dsimp only
  rw [shown, shown, shown]
  simp only [List.eq_nil_iff_forall_not_mem, mem_missingRows, mem_changedRows]
  constructor
  · -- Nothing listed: each package is on both sides, in one version, or on neither.
    rintro ⟨added, removed, changed⟩ package
    cases here : base.lookup package with
    | none =>
      cases there : target.lookup package with
      | none => rfl
      | some row => exact absurd ⟨package, there, here⟩ (added row)
    | some row =>
      cases there : target.lookup package with
      | none => exact absurd ⟨package, here, there⟩ (removed row)
      | some other =>
        -- Rows that do not differ are rows of one component version.
        have alike : rowsDiffer (row, other) = false := by
          by_contra differ
          exact changed (row, other) ⟨⟨package, here, there⟩, Bool.eq_true_of_not_eq_false differ⟩
        have same : row.cvId = other.cvId := by
          have parts := Bool.or_eq_false_iff.mp alike
          exact of_not_not fun different => Bool.noConfusion (parts.1.symm.trans (bne_iff_ne.mpr different))
        rw [← (drawn _ _ here).1, ← (drawn' _ _ there).1, same]
  · -- The same package on both sides is in none of the lists.
    intro same
    refine ⟨?_, ?_, ?_⟩
    · rintro row ⟨package, there, here⟩
      exact nomatch here.symm.trans ((same package).trans there)
    · rintro row ⟨package, here, there⟩
      exact nomatch here.symm.trans ((same package).trans there)
    · rintro ⟨row, other⟩ ⟨⟨package, here, there⟩, differ⟩
      have equal : row = other := Option.some.inj (here.symm.trans ((same package).trans there))
      subst equal
      simp [rowsDiffer] at differ

/-- Seen from the other side, the diff is turned around. -/
theorem diffComponents_swap (listing other : Listing Nat) (drawn : Drawn catalog base)
    (drawn' : Drawn catalog target) (bases : SameItems base base') (targets : SameItems target target') :
    diffComponents other target' base' = (diffComponents listing base target).swap := by
  -- The entry of a turned pair is the turned entry.
  have changed : ((changedRows other target' base').take maxList).map changedEntry =
      (((changedRows listing base target).take maxList).map changedEntry).map ChangedEntry.swap := by
    rw [← changedRows_swap listing other drawn drawn' bases targets, ← List.map_take, List.map_map, List.map_map]
    refine List.map_congr_left fun pair listed => ?_
    obtain ⟨⟨package, one, two⟩, -⟩ := mem_changedRows.mp (List.mem_of_mem_take listed)
    obtain ⟨row, here⟩ := drawn _ _ one
    obtain ⟨row', there⟩ := drawn' _ _ two
    obtain ⟨names, namespaces, purls⟩ := package_fields row' row (there.trans here.symm)
    simp [changedEntry, ChangedEntry.swap, names, namespaces, purls]
  -- As many rows changed either way.
  have count : (changedRows other target' base').length = (changedRows listing base target).length := by
    rw [← changedRows_swap listing other drawn drawn' bases targets, List.length_map]
  unfold diffComponents ComponentChanges.swap
  dsimp only
  -- The added of one side are the removed of the other.
  rw [changed, count, ← missingRows_congr listing other drawn bases targets,
    ← missingRows_congr listing other drawn' targets bases, Bool.or_comm (decide _) (decide _)]

/-- A row of the base that the target has not is shown, when the lists are not cut. -/
theorem diffComponents_shows (listing : Listing Nat) (package : Nat) {row : ComponentRow}
    (drawn : Drawn catalog base) (drawn' : Drawn catalog target) (here : base.lookup package = some row)
    (missing : target.lookup package ≠ some row) (whole : (diffComponents listing base target).truncated = false) :
    (diffComponents listing base target).Shows row := by
  unfold diffComponents at whole
  simp only [Bool.or_eq_false_iff, decide_eq_false_iff_not, not_lt] at whole
  obtain ⟨⟨-, removed⟩, changed⟩ := whole
  unfold ComponentChanges.Shows diffComponents
  dsimp only
  rw [List.take_of_length_le removed, List.take_of_length_le changed]
  -- A package that is gone is among the removed, one with another version among the changed.
  cases there : target.lookup package with
  | none => exact .inl (List.mem_map_of_mem (mem_missingRows.mpr ⟨package, here, there⟩))
  | some other =>
    refine .inr ⟨changedEntry (row, other), List.mem_map_of_mem (mem_changedRows.mpr ⟨⟨package, here, there⟩, ?_⟩),
      rfl, rfl⟩
    -- The versions differ, or the two rows would be one.
    have different : row.cvId ≠ other.cvId := by
      intro same
      refine missing (there.trans ?_)
      rw [← (drawn _ _ here).1, ← (drawn' _ _ there).1, same]
    simp [rowsDiffer, different]

/-- A scan is not compared with itself. -/
theorem diffReleaseSnapshots_self (scans : Nat → ReleaseScan) (listings : DiffListings) (scan : Nat) :
    diffReleaseSnapshots catalog scans listings scan scan = ⟨⟨[], [], [], false⟩, ⟨[], [], false⟩⟩ :=
  if_pos rfl

/-- Two different scans are compared component by component. -/
theorem diffReleaseSnapshots_components {scans : Nat → ReleaseScan} {first second : Nat}
    (different : first ≠ second) (listings : DiffListings) :
    (diffReleaseSnapshots catalog scans listings first second).components =
      diffComponents listings.packages
        (catalog.componentsByPackage (listings.baseComponents.list (scans first).components))
        (catalog.componentsByPackage (listings.targetComponents.list (scans second).components)) := by
  unfold diffReleaseSnapshots
  rw [if_neg different]

/-- Turned around, what was introduced is resolved and the other way around. -/
theorem diffReleaseSnapshots_findings (scans : Nat → ReleaseScan) (first second : Nat)
    (listings others : DiffListings) :
    (diffReleaseSnapshots catalog scans others second first).vulnerabilities =
      (diffReleaseSnapshots catalog scans listings first second).vulnerabilities.swap := by
  by_cases same : first = second
  · subst same
    rw [diffReleaseSnapshots_self, diffReleaseSnapshots_self]
    rfl
  -- `or_comm` is for the two exposure tests, which the swap asks in the other order.
  unfold diffReleaseSnapshots
  rw [if_neg same, if_neg (Ne.symm same)]
  unfold diffVulnerabilities FindingChanges.swap
  dsimp only
  -- Each listing is a permutation of its scan's findings, so the two calls miss the same ones.
  have bases := (listings.baseFindings.perm (scans first).findings).trans (others.targetFindings.perm _).symm
  have targets := (listings.targetFindings.perm (scans second).findings).trans (others.baseFindings.perm _).symm
  rw [← missingFindings_congr listings.exposures others.exposures bases targets,
    ← missingFindings_congr listings.exposures others.exposures targets bases, Bool.or_comm]

/-- Where both requests see the same last rows, swapping the scans turns the diff around. -/
theorem diffReleaseSnapshots_swap {scans : Nat → ReleaseScan} {first second : Nat} {listings others : DiffListings}
    (bases : ∀ package, lastVersion catalog (listings.baseComponents.list (scans first).components) package =
      lastVersion catalog (others.targetComponents.list (scans first).components) package)
    (targets : ∀ package, lastVersion catalog (listings.targetComponents.list (scans second).components) package =
      lastVersion catalog (others.baseComponents.list (scans second).components) package) :
    diffReleaseSnapshots catalog scans others second first =
      (diffReleaseSnapshots catalog scans listings first second).swap := by
  -- The components first: the two versions of a package are asked for in the other order.
  have components : (diffReleaseSnapshots catalog scans others second first).components =
      (diffReleaseSnapshots catalog scans listings first second).components.swap := by
    -- One scan against itself lists nothing either way.
    by_cases same : first = second
    · subst same
      rw [diffReleaseSnapshots_self, diffReleaseSnapshots_self]
      rfl
    rw [diffReleaseSnapshots_components same, diffReleaseSnapshots_components (Ne.symm same)]
    exact diffComponents_swap _ _ (componentsByPackage_drawn _) (componentsByPackage_drawn _)
      (componentsByPackage_same bases) (componentsByPackage_same targets)
  unfold ReleaseChanges.swap
  rw [← components, ← diffReleaseSnapshots_findings scans first second listings others]

/-- The diff is empty when the rows of both scans have the same version last for each package. -/
theorem diffReleaseSnapshots_empty_iff {scans : Nat → ReleaseScan} {first second : Nat} (different : first ≠ second)
    (listings : DiffListings) :
    (diffReleaseSnapshots catalog scans listings first second).components.Empty ↔ ∀ package,
      lastVersion catalog (listings.baseComponents.list (scans first).components) package =
        lastVersion catalog (listings.targetComponents.list (scans second).components) package := by
  rw [diffReleaseSnapshots_components different,
    diffComponents_empty_iff _ (componentsByPackage_drawn _) (componentsByPackage_drawn _)]
  refine forall_congr' fun package => ?_
  rw [lookup_componentsByPackage, lookup_componentsByPackage]
  -- A row names the version it was read for.
  exact (Option.map_injective fun one two same => congrArg ComponentRow.cvId same).eq_iff

/-- A version that the rows of the base show last, and those of the target do not, is shown. -/
theorem diffReleaseSnapshots_shows {scans : Nat → ReleaseScan} {first second package cvId : Nat}
    {listings : DiffListings} (different : first ≠ second)
    (whole : (diffReleaseSnapshots catalog scans listings first second).truncated = false)
    (last : lastVersion catalog (listings.baseComponents.list (scans first).components) package = some cvId)
    (other : lastVersion catalog (listings.targetComponents.list (scans second).components) package ≠ some cvId) :
    (diffReleaseSnapshots catalog scans listings first second).components.Shows (catalog.componentRow cvId) := by
  -- Nothing was cut, so nothing was cut from the components.
  have part := (Bool.or_eq_false_iff.mp whole).1
  rw [diffReleaseSnapshots_components different] at part ⊢
  -- What is left is what each scan says of the package: its last row, and no equal one.
  refine diffComponents_shows _ package (componentsByPackage_drawn _) (componentsByPackage_drawn _) ?_ ?_ part
  · rw [lookup_componentsByPackage, last]
    rfl
  · rw [lookup_componentsByPackage]
    intro found
    obtain ⟨held, there, same⟩ := Option.map_eq_some_iff.mp found
    exact other (there.trans (congrArg some (congrArg ComponentRow.cvId same)))

end Diff

/-- What the rows say does not depend on the order in which they are returned. -/
theorem SingleVersions.listed {catalog : ReleaseCatalog} {cvIds : List Nat} (single : SingleVersions catalog cvIds)
    (listing : Listing Nat) : SingleVersions catalog (listing.list cvIds) := by
  intro first one second two
  exact single first ((listing.perm _).mem_iff.mp one) second ((listing.perm _).mem_iff.mp two)

/-- With one version per package, the last version does not depend on the order. -/
theorem lastVersion_listed {catalog : ReleaseCatalog} {cvIds : List Nat} (single : SingleVersions catalog cvIds)
    (listing other : Listing Nat) (package : Nat) :
    lastVersion catalog (listing.list cvIds) package = lastVersion catalog (other.list cvIds) package := by
  refine lastVersion_congr (single.listed listing) (fun cvId => ?_) package
  rw [(listing.perm _).mem_iff, (other.perm _).mem_iff]

/-- Every comparison of two scans obeys the laws. -/
theorem diffReleaseSnapshots_laws (catalog : ReleaseCatalog) (scans : Nat → ReleaseScan) (base target : Nat) :
    ReleaseDiffLaws catalog scans base target := by
  have different {first second cvId : Nat} (here : cvId ∈ (scans first).components)
      (missing : cvId ∉ (scans second).components) : first ≠ second := by
    rintro rfl
    exact missing here
  -- In a scan with single versions, a version that only one scan has is its package's last there.
  have last {first second cvId : Nat} (single : SingleVersions catalog (scans first).components)
      (listing other : Listing Nat) (here : cvId ∈ (scans first).components)
      (missing : cvId ∉ (scans second).components) :
      lastVersion catalog (listing.list (scans first).components) (catalog.componentVersion cvId).componentId =
          some cvId ∧
        lastVersion catalog (other.list (scans second).components) (catalog.componentVersion cvId).componentId ≠
          some cvId := by
    refine ⟨lastVersion_of_single (single.listed listing) ((listing.perm _).mem_iff.mpr here), fun found => ?_⟩
    exact missing ((other.perm _).mem_iff.mp (lastVersion_some found).1)
  refine ⟨?_, ?_, ?_, ?_, ?_, diffReleaseSnapshots_empty_iff, ?_, ?_⟩
  · -- Equal scans have no difference.
    intro single same listings
    by_cases equal : base = target
    · subst equal
      rw [diffReleaseSnapshots_self]
      exact ⟨rfl, rfl, rfl⟩
    · refine (diffReleaseSnapshots_empty_iff equal listings).mpr (lastVersion_congr (single.listed _) fun cvId => ?_)
      rw [(listings.baseComponents.perm _).mem_iff, (listings.targetComponents.perm _).mem_iff, same]
  · -- The swapped request is the mirror image.
    intro single single' listings others
    exact diffReleaseSnapshots_swap (lastVersion_listed single _ _) (lastVersion_listed single' _ _)
  · -- What only the first scan has is listed for it, and what only the second has for the other.
    intro single listings whole cvId here missing
    obtain ⟨found, other⟩ := last single listings.baseComponents listings.targetComponents here missing
    exact diffReleaseSnapshots_shows (different here missing) whole found other
  · intro single listings whole cvId here missing
    obtain ⟨found, other⟩ := last single listings.targetComponents listings.baseComponents here missing
    -- The other request, in which the scans are swapped, shows it as removed.
    have swapped := @diffReleaseSnapshots_swap catalog scans base target listings listings.swap
      (fun _ => rfl) (fun _ => rfl)
    have whole' : (diffReleaseSnapshots catalog scans listings.swap target base).truncated = false := by
      rw [swapped]
      exact whole
    have shown := diffReleaseSnapshots_shows (different here missing) whole' found other
    rwa [swapped] at shown
  · -- The findings need no condition, and the last two laws speak of the listings as they are.
    exact diffReleaseSnapshots_findings scans base target
  · intro listings others one two
    exact diffReleaseSnapshots_swap (fun _ => by rw [one]) (fun _ => by rw [two])
  · intro unequal listings whole package cvId found other
    exact diffReleaseSnapshots_shows unequal whole found other

/-- A catalog of one package, whose versions are as long as their number. -/
def lengthCatalog : ReleaseCatalog :=
  have long (first second : Nat)
      (same : String.ofList (List.replicate first 'v') = String.ofList (List.replicate second 'v')) :
      first = second := by
    simpa using congrArg String.length same
  { component := fun package => ⟨String.ofList (List.replicate package 'v'), "lib", none⟩
    componentVersion := fun cvId =>
      ⟨0, String.ofList (List.replicate cvId 'v'), String.ofList (List.replicate cvId 'v')⟩
    vulnerability := fun advisory => ⟨String.ofList (List.replicate advisory 'v'), .low⟩
    purl_unique := long
    purlWithVersion_unique := long
    externalId_unique := long }

/-- Two scans with the same two versions of a package differ when their rows come in another order. -/
theorem diffReleaseSnapshots_twoVersions :
    ¬ ∀ (catalog : ReleaseCatalog) (scans : Nat → ReleaseScan) (listings : DiffListings) (base target : Nat),
      (∀ cvId, cvId ∈ (scans base).components ↔ cvId ∈ (scans target).components) →
      (diffReleaseSnapshots catalog scans listings base target).components.Empty := by
  intro always
  have empty := always lengthCatalog (fun _ => ⟨[1, 2], []⟩)
    ⟨.stored, ⟨List.reverse, List.reverse_perm⟩, .stored, .stored, .stored, .stored⟩ 0 1 fun _ => Iff.rfl
  have last := (diffReleaseSnapshots_empty_iff (by decide) _).mp empty 0
  exact absurd last (by decide)

end Trusca
