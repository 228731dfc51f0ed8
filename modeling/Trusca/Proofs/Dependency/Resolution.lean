import Mathlib.Data.List.Induction
import Mathlib.Data.List.Infix
import Trusca.Dependency.Lockfile

/-! Which installed package a name means: the nearest one, unless the end of a scope reads as a directory. -/

namespace Trusca

open Store

/-- The name of a package: its scope, when it has one, and what follows. -/
structure PackageName where
  scope : Option (List Char)
  base : List Char
  scope_plain : ∀ text ∈ scope, '/' ∉ text
  base_plain : '/' ∉ base
  base_text : base ≠ []
  base_unscoped : base.head? ≠ some '@'

namespace PackageName

/-- The name as it is written. -/
def text (name : PackageName) : List Char :=
  match name.scope with
  | none => name.base
  | some scope => '@' :: scope ++ '/' :: name.base

/-- A scope that ends like the directory of installed packages. -/
def Misleading (name : PackageName) : Prop := ∃ scope ∈ name.scope, "node_modules".toList <:+ scope

end PackageName

/-- The directory of a package that is installed in another directory, which is the root when it is empty. -/
def within (directory name : List Char) : List Char :=
  if directory = [] then nodeModules ++ name else directory ++ (innerNodeModules ++ name)

/-- The directory that names lead to from a workspace, the innermost of them first. -/
def installPath (workspace : List Char) : List PackageName → List Char
  | [] => workspace
  | name :: outer => within (installPath workspace outer) name.text

/-- The package directories around a directory, from itself to the root. -/
def enclosingPlaces (workspace : List Char) : List PackageName → List (List Char)
  | [] => if workspace = [] then [[]] else [workspace, []]
  | name :: outer => installPath workspace (name :: outer) :: enclosingPlaces workspace outer

/-- The entry of a name's package in a directory. -/
def InstalledAt (read : LockfilePackages) (place : List Char) (child : String) (entry : PackageEntry) : Prop :=
  ∃ name : PackageName, name.text = child.toList ∧
    read.installed.lookup (String.ofList (within place name.text)) = some entry

/-- A path that names lead to from a workspace, the last of them first. -/
def InstallPath (path : String) (name : PackageName) : Prop :=
  ∃ workspace outer, ¬ innerNodeModules <:+: workspace ∧ path.toList = installPath workspace (name :: outer)

/-- Every name means the nearest of its packages, for every directory. -/
structure NearestResolution (read : LockfilePackages) : Prop where
  nearest : ∀ workspace parent child entry, ¬ innerNodeModules <:+: workspace →
    (read.resolveChild (String.ofList (installPath workspace parent)) child = some entry ↔
      ∃ nearer place farther, enclosingPlaces workspace parent = nearer ++ place :: farther ∧
        InstalledAt read place child entry ∧ ∀ closer ∈ nearer, ∀ other, ¬ InstalledAt read closer child other)
  missing : ∀ workspace parent child, ¬ innerNodeModules <:+: workspace →
    (read.resolveChild (String.ofList (installPath workspace parent)) child = none ↔
      ∀ place ∈ enclosingPlaces workspace parent, ∀ entry, ¬ InstalledAt read place child entry)

/-- Each package URL ends with the strongest scope of its entries. -/
def StrongestScopes (entries : List (String × NpmScope)) : Prop :=
  ∀ purl scope, (entries.foldl (fun scopes entry => upsertScope scopes entry.1 entry.2) []).lookup purl = some scope ↔
    (purl, scope) ∈ entries ∧ ∀ other, (purl, other) ∈ entries → npmScopeRank other ≤ npmScopeRank scope

section Names

variable {name : PackageName} {directory : List Char}

/-- The folder's name ends at its slash. -/
theorem nodeModules_eq : nodeModules = "node_modules".toList ++ ['/'] := by decide

/-- The inner folder is the folder behind a slash. -/
theorem innerNodeModules_eq : innerNodeModules = '/' :: nodeModules := by decide

/-- The directory of installed packages stands in no text without a slash. -/
theorem not_nodeModules_infix {text : List Char} (plain : '/' ∉ text) : ¬ nodeModules <:+: text :=
  fun found => plain (found.subset (by decide))

/-- A misleading scope is what makes a name hold the directory of installed packages. -/
theorem PackageName.misleading_iff : name.Misleading ↔ nodeModules <:+: name.text := by
  rw [Misleading, text]
  -- A base has no slash, so the mark can only lie in the scope.
  cases split : name.scope with
  | none => simpa using not_nodeModules_infix name.base_plain
  | some scope =>
    have plain : '/' ∉ '@' :: scope := by
      simpa using name.scope_plain scope split
    have base := not_nodeModules_infix name.base_plain
    -- And there it has to end the scope, since a slash follows.
    rw [nodeModules_eq, infix_mark_end plain (by decide), ← nodeModules_eq, List.suffix_cons_iff]
    simp [base]

/-- No name begins with the directory of installed packages. -/
theorem PackageName.not_prefix : ¬ nodeModules <+: name.text := by
  rw [text]
  cases name.scope with
  | none => exact fun begins => not_nodeModules_infix name.base_plain begins.isInfix
  | some scope =>
    intro begins
    exact absurd (List.cons_prefix_cons.mp begins).1 (by decide)

/-- No name holds the directory of installed packages of another one. -/
theorem PackageName.not_inner : ¬ innerNodeModules <:+: name.text := by
  -- The base has no slash at all.
  have base : ¬ nodeModules <:+: name.base := not_nodeModules_infix name.base_plain
  have inner : ¬ innerNodeModules <:+: name.base := by
    rw [innerNodeModules_eq]
    exact fun found => base ((List.suffix_cons '/' _).isInfix.trans found)
  rw [text]
  cases split : name.scope with
  | none => exact inner
  | some scope =>
    -- Nor has the scope, so the mark could only begin at the slash between the two.
    have plain : '/' ∉ '@' :: scope := by
      simpa using name.scope_plain scope split
    rw [innerNodeModules_eq, infix_mark_start plain, ← innerNodeModules_eq]
    exact not_or.mpr ⟨fun begins => base begins.isInfix, inner⟩

/-- The last directory of installed packages in a path is the one before its last name. -/
theorem not_inner_below : ¬ innerNodeModules <:+: nodeModules ++ name.text := by
  have plain : '/' ∉ "node_modules".toList := by decide
  rw [nodeModules_eq, List.append_assoc, List.singleton_append, innerNodeModules_eq,
    infix_mark_start plain, ← innerNodeModules_eq]
  exact not_or.mpr ⟨PackageName.not_prefix, PackageName.not_inner⟩

/-- No path within a directory is empty. -/
theorem within_ne_nil : within directory name.text ≠ [] := by
  have some_text : nodeModules ++ name.text ≠ [] := by
    rw [nodeModules_eq]
    simp
  rw [within]
  -- At the root the path starts with the mark, below it with the directory.
  by_cases root : directory = []
  · rw [if_pos root]
    exact some_text
  · rw [if_neg root]
    exact List.append_ne_nil_of_left_ne_nil root _

/-- The last inner folder of a path within a directory is the one right behind the directory. -/
theorem rfind_within (inner : directory ≠ []) :
    rfind (within directory name.text) innerNodeModules = some directory.length := by
  rw [within, if_neg inner, innerNodeModules_eq]
  exact rfind_last (by rw [← innerNodeModules_eq]; exact not_inner_below)

/-- A path right below the root has no inner folder. -/
theorem rfind_within_root : rfind (within [] name.text) innerNodeModules = none := by
  rw [within, if_pos rfl, rfind_eq_none]
  exact not_inner_below

/-- A package lies under the directory that its name was added to. -/
theorem parentPrefix_within : parentPrefix (String.ofList (within directory name.text)) = String.ofList directory := by
  rw [parentPrefix, String.toList_ofList]
  by_cases root : directory = []
  · rw [root, rfind_within_root]
  · rw [rfind_within root]
    simp only
    rw [within, if_neg root, List.take_left]

/-- The name that is read behind the last directory of installed packages. -/
def readName (rest : List Char) : Option String :=
  if rest = [] then none
  else if rest.head? = some '@' then
    match rest.dropWhile (· ≠ '/') with
    | [] => none
    | _ :: after => some (String.ofList (rest.takeWhile (· ≠ '/') ++ '/' :: after.takeWhile (· ≠ '/')))
  else some (String.ofList (rest.takeWhile (· ≠ '/')))

/-- The name of a path is read behind its last folder. -/
theorem nameFromPath_last {front rest : List Char} (last : ¬ nodeModules <:+: rest) :
    nameFromPath (String.ofList (front ++ (nodeModules ++ rest))) = readName rest := by
  -- The last occurrence of the mark is the one before `rest`.
  have found : rfind (front ++ (nodeModules ++ rest)) nodeModules = some front.length := by
    have tail : nodeModules = 'n' :: ("ode_modules".toList ++ ['/']) := by decide
    have plain : '/' ∉ "ode_modules".toList := by decide
    have foreign : '/' ∉ "node_modules".toList := by decide
    have short : ¬ "node_modules".toList <:+ "ode_modules".toList := fun ends =>
      absurd ends.length_le (by decide)
    -- No later one can overlap it: the mark ends in a slash and has none before.
    have later : ¬ nodeModules <:+: ("ode_modules".toList ++ ['/']) ++ rest := by
      rw [List.append_assoc, List.singleton_append, nodeModules_eq, infix_mark_end plain foreign, ← nodeModules_eq]
      exact not_or.mpr ⟨short, last⟩
    rw [tail] at later ⊢
    exact rfind_last later
  -- What stands behind the mark is the name.
  rw [nameFromPath, String.toList_ofList, found]
  dsimp only
  rw [← List.drop_drop, List.drop_left, List.drop_left]
  rfl

/-- The part of a name in front of a slash. -/
theorem takeWhile_base {front back : List Char} (plain : '/' ∉ front) :
    (front ++ '/' :: back).takeWhile (· ≠ '/') = front ∧ (front ++ '/' :: back).dropWhile (· ≠ '/') = '/' :: back := by
  have all : ∀ letter ∈ front, decide (letter ≠ '/') = true := by
    intro letter member
    exact decide_eq_true fun same => plain (same ▸ member)
  rw [List.takeWhile_append_of_pos all, List.dropWhile_append_of_pos all]
  simp

/-- A text without a slash is taken whole. -/
theorem takeWhile_plain {text : List Char} (plain : '/' ∉ text) : text.takeWhile (· ≠ '/') = text := by
  have all : ∀ letter ∈ text, decide (letter ≠ '/') = true := by
    intro letter member
    exact decide_eq_true fun same => plain (same ▸ member)
  have whole := @List.takeWhile_append_of_pos _ (· ≠ '/') text [] all
  rwa [List.append_nil, List.takeWhile_nil, List.append_nil] at whole

/-- A name without a scope is read as it stands. -/
theorem readName_base : readName name.base = some (String.ofList name.base) := by
  rw [readName, if_neg name.base_text, if_neg name.base_unscoped, takeWhile_plain name.base_plain]

/-- A name is read as it stands, its scope included. -/
theorem readName_text : readName name.text = some (String.ofList name.text) := by
  rw [PackageName.text]
  cases split : name.scope with
  | none => exact readName_base
  | some scope =>
    -- The scope is read up to its slash, and the base up to the next one.
    have plain : '/' ∉ '@' :: scope := by
      simpa using name.scope_plain scope split
    obtain ⟨taken, left⟩ := @takeWhile_base ('@' :: scope) name.base plain
    dsimp only
    rw [readName, if_neg (by simp), if_pos (by simp), left, taken]
    dsimp only
    rw [takeWhile_plain name.base_plain]

/-- A name that does not mislead is read back. -/
theorem nameFromPath_within (sound : ¬ name.Misleading) :
    nameFromPath (String.ofList (within directory name.text)) = some (String.ofList name.text) := by
  have plain : ¬ nodeModules <:+: name.text := fun found => sound (name.misleading_iff.mpr found)
  rw [← readName_text, within]
  -- The name stands behind the last mark, and no mark is in the name itself.
  by_cases root : directory = []
  · rw [if_pos root]
    exact @nameFromPath_last [] name.text plain
  · rw [if_neg root, innerNodeModules_eq]
    have read := @nameFromPath_last (directory ++ ['/']) name.text plain
    rwa [List.append_assoc, List.singleton_append] at read

/-- Of a name that misleads, only what follows its scope is read. -/
theorem nameFromPath_misleading (misleading : name.Misleading) :
    nameFromPath (String.ofList (within directory name.text)) = some (String.ofList name.base) := by
  obtain ⟨scope, split, start, rfl⟩ := misleading
  -- The last mark is the one the scope ends in, so only the base stands behind it.
  have base : ¬ nodeModules <:+: name.base := not_nodeModules_infix name.base_plain
  have text : name.text = '@' :: start ++ (nodeModules ++ name.base) := by
    rw [PackageName.text, Option.mem_def.mp split, nodeModules_eq]
    simp
  have read := fun front => @nameFromPath_last (front ++ '@' :: start) name.base base
  rw [← readName_base, within, text]
  -- Directly under the root, or below another package.
  by_cases root : directory = []
  · rw [if_pos root, ← read nodeModules, List.append_assoc]
  · rw [if_neg root, ← read (directory ++ innerNodeModules), List.append_assoc, List.append_assoc]

end Names

section Walk

variable {workspace : List Char} (outside : ¬ innerNodeModules <:+: workspace)
include outside

/-- The walk over the text of a directory meets the package directories around it. -/
theorem enclosing_installPath (parent : List PackageName) :
    LockfilePackages.enclosing (installPath workspace parent) ++ [[]] = enclosingPlaces workspace parent := by
  -- Along the parents, outwards.
  induction parent with
  | nil =>
    -- At the outermost level it matters whether the package lies in a workspace.
    rw [installPath, enclosingPlaces]
    by_cases root : workspace = []
    · rw [if_pos root, root, LockfilePackages.enclosing, if_pos rfl]
      rfl
    · rw [if_neg root, enclosing_top root (rfind_eq_none.mpr outside)]
      rfl
  | cons name outer ih =>
    rw [enclosingPlaces, ← ih, installPath]
    -- Directly under the root the next place out is the root.
    by_cases root : installPath workspace outer = []
    · rw [root, enclosing_top within_ne_nil rfind_within_root, LockfilePackages.enclosing, if_pos rfl]
      rfl
    · -- Below another package the next place out is that package's own path.
      rw [enclosing_under within_ne_nil (rfind_within root)]
      have cut : (within (installPath workspace outer) name.text).take (installPath workspace outer).length =
          installPath workspace outer := by
        rw [within, if_neg root, List.take_left]
      rw [cut, List.cons_append]

/-- A name means the first entry of the index along the package directories. -/
theorem resolveChild_walk (read : LockfilePackages) (parent : List PackageName) (child : String) :
    read.resolveChild (String.ofList (installPath workspace parent)) child =
      (enclosingPlaces workspace parent).findSome? fun place =>
        read.byPrefixName.lookup (String.ofList place, child) := by
  rw [← enclosing_installPath outside, LockfilePackages.resolveChild, String.toList_ofList,
    List.findSome?_append, List.findSome?_append, List.findSome?_map]
  rfl

end Walk

section Index

/-- What the first pass has installed: each path once, and each entry under its own path and name. -/
structure Installed (packages : List (String × Json)) (installed : List (String × PackageEntry)) : Prop where
  distinct : (keys installed).Nodup
  path : ∀ item ∈ installed, item.2.path = item.1
  name : ∀ item ∈ installed, nameFromPath item.1 = some item.2.name
  listed : ∀ item ∈ installed, item.1 ∈ keys packages
  inside : ∀ item ∈ installed, nodeModules <:+: item.1.toList

/-- An entry that is put in is one of those installed. -/
theorem Installed.put {packages : List (String × Json)} {installed : List (String × PackageEntry)}
    (known : Installed packages installed) {entry : PackageEntry} (name : nameFromPath entry.path = some entry.name)
    (listed : entry.path ∈ keys packages) (inside : nodeModules <:+: entry.path.toList) :
    Installed packages (put installed entry.path entry) where
  distinct := keys_put_nodup known.distinct entry.path entry
  -- The entry just put has what the guard has checked, the others have it from before.
  path := fun item member => by
    obtain old | rfl := mem_put member
    · exact known.path item old
    · rfl
  name := fun item member => by
    obtain old | rfl := mem_put member
    · exact known.name item old
    · exact name
  listed := fun item member => by
    obtain old | rfl := mem_put member
    · exact known.listed item old
    · exact listed
  inside := fun item member => by
    obtain old | rfl := mem_put member
    · exact known.inside item old
    · exact inside

/-- Reading one package keeps every entry one of those installed. -/
theorem Installed.readPackage {packages : List (String × Json)} {read : LockfilePackages}
    (known : Installed packages read.installed) {item : String × Json} (member : item ∈ packages) :
    Installed packages (readPackage read item).installed := by
  obtain ⟨path, value⟩ := item
  have listed : path ∈ keys packages := mem_keys.mpr ⟨value, member⟩
  -- Only an object is read, and neither the root's nor a workspace's own entry.
  cases value with
  | obj fields =>
    unfold Trusca.readPackage
    dsimp only
    by_cases root : path = ""
    · rw [if_pos root]
      exact known
    rw [if_neg root]
    by_cases workspace : rfind path.toList nodeModules = none
    · rw [if_pos workspace]
      exact known
    rw [if_neg workspace]
    -- The mark is in the path, so a name can be read from it.
    have inside : nodeModules <:+: path.toList := not_not.mp fun absent => workspace (rfind_eq_none.mpr absent)
    -- An entry without a name or a version changes nothing.
    split
    · next name version named _ =>
      split
      · exact known
      · exact @Installed.put packages read.installed known ⟨path, name, _, _, _, _, _, _, _⟩ named listed inside
    · exact known
  | _ => exact known

/-- Every entry read from a lockfile is one of its installed packages. -/
theorem installed_readPackages (packages : List (String × Json)) :
    Installed packages (readPackages packages).installed := by
  -- Along the packages, each of which keeps what holds of the installed ones.
  have run : ∀ (items : List (String × Json)) (read : LockfilePackages), (∀ item ∈ items, item ∈ packages) →
      Installed packages read.installed → Installed packages (items.foldl readPackage read).installed := by
    intro items
    induction items with
    | nil => exact fun _ _ known => known
    | cons item items ih =>
      intro read within known
      exact ih _ (fun other member => within other (List.mem_cons_of_mem item member))
        (known.readPackage (within item List.mem_cons_self))
  refine run _ _ (fun item member => List.mem_of_mem_take member) ?_
  -- Before the first package nothing is installed.
  constructor
  · exact List.nodup_nil
  all_goals exact fun _ member => absurd member List.not_mem_nil

/-- Looking up a pair does not depend on how pairs are compared. -/
theorem lookup_pair {β : Type} (index : List ((String × String) × β)) (key : String × String) :
    index.lookup key = @List.lookup _ _ instBEqOfDecidableEq key index := by
  rw [lawful_beq_subsingleton instBEqProd instBEqOfDecidableEq]

/-- An entry of the index is an installed one, under the package above it and its name. -/
theorem mem_of_byPrefixName {read : LockfilePackages} {key : String × String} {entry : PackageEntry}
    (found : read.byPrefixName.lookup key = some entry) :
    ∃ item ∈ read.installed, (parentPrefix item.2.path, item.2.name) = key ∧ item.2 = entry := by
  rw [lookup_pair, LockfilePackages.byPrefixName] at found
  exact (lookup_foldl_put found).resolve_left (by simp)

/-- Every installed entry has a place in the index. -/
theorem byPrefixName_of_mem {read : LockfilePackages} {item : String × PackageEntry} (member : item ∈ read.installed) :
    ∃ entry, read.byPrefixName.lookup (parentPrefix item.2.path, item.2.name) = some entry := by
  rw [← Option.isSome_iff_exists, lookup_pair, ← mem_keys_iff_lookup, LockfilePackages.byPrefixName,
    mem_keys_foldl_put]
  exact .inr ⟨item, member, rfl⟩

variable {packages : List (String × Json)}
  (built : ∀ path ∈ keys packages, nodeModules <:+: path.toList → ∃ name, InstallPath path name)
include built

/-- The directory and the name of an installed package, when no name misleads. -/
theorem installed_within (sound : ∀ path ∈ keys (readPackages packages).installed, ∀ name,
      InstallPath path name → ¬ name.Misleading) {item : String × PackageEntry}
    (member : item ∈ (readPackages packages).installed) :
    ∃ (directory : List Char) (name : PackageName), item.1 = String.ofList (within directory name.text) ∧ ¬ name.Misleading ∧
      item.2.name = String.ofList name.text ∧ parentPrefix item.2.path = String.ofList directory := by
  have known := installed_readPackages packages
  obtain ⟨name, workspace, outer, outside, split⟩ := built item.1 (known.listed item member) (known.inside item member)
  -- The path was built by npm and does not mislead, so the name read is the one installed.
  have plain := sound item.1 (mem_keys.mpr ⟨item.2, member⟩) name ⟨workspace, outer, outside, split⟩
  have path : item.1 = String.ofList (within (installPath workspace outer) name.text) := by
    rw [← @String.ofList_toList item.1, split]
    rfl
  have read := known.name item member
  rw [path, nameFromPath_within plain] at read
  refine ⟨_, name, path, plain, (Option.some.inj read).symm, ?_⟩
  -- And the prefix is the place it was installed to.
  rw [known.path item member, path, parentPrefix_within]

/-- The index holds what is installed, when no name misleads. -/
theorem byPrefixName_eq_some (sound : ∀ path ∈ keys (readPackages packages).installed, ∀ name,
      InstallPath path name → ¬ name.Misleading) {place : List Char} {child : String} {entry : PackageEntry} :
    (readPackages packages).byPrefixName.lookup (String.ofList place, child) = some entry ↔
      InstalledAt (readPackages packages) place child entry := by
  have known := installed_readPackages packages
  -- Two entries with one directory and one name have the same path.
  have into : ∀ found, (readPackages packages).byPrefixName.lookup (String.ofList place, child) = some found →
      InstalledAt (readPackages packages) place child found := by
    intro found listed
    obtain ⟨item, member, key, rfl⟩ := mem_of_byPrefixName listed
    obtain ⟨directory, name, path, -, named, under⟩ := installed_within built sound member
    rw [Prod.mk.injEq, named, under] at key
    obtain ⟨here, called⟩ := key
    refine ⟨name, by rw [← called, String.toList_ofList], ?_⟩
    rw [← String.ofList_injective here, ← path]
    exact (lookup_eq_some known.distinct).mpr member
  refine ⟨into entry, ?_⟩
  -- Conversely, a package installed there is in the index under its place and name.
  rintro ⟨name, named, listed⟩
  have member := (lookup_eq_some known.distinct).mp listed
  obtain ⟨directory, other, path, plain, called, under⟩ := installed_within built sound member
  -- The path gives back the place and the name, since neither has the marker inside.
  have same : place = directory := by
    have both := congrArg parentPrefix path
    rw [parentPrefix_within, parentPrefix_within] at both
    exact String.ofList_injective both
  subst same
  have text : name.text = other.text := by
    have both := String.ofList_injective path
    unfold within at both
    split at both <;> simpa using both
  -- The index may hold another entry of that key, but `into` says that it is this one.
  obtain ⟨found, indexed⟩ := byPrefixName_of_mem member
  dsimp only at called under
  rw [under, called, ← text, named, String.ofList_toList] at indexed
  obtain ⟨name', named', listed'⟩ := into found indexed
  rw [named', ← named] at listed'
  rw [indexed, ← listed', listed]

/-- Every name means its nearest package, when no name misleads. -/
theorem nearestResolution (sound : ∀ path ∈ keys (readPackages packages).installed, ∀ name,
      InstallPath path name → ¬ name.Misleading) : NearestResolution (readPackages packages) where
  nearest := fun workspace parent child entry outside => by
    rw [resolveChild_walk outside, List.findSome?_eq_some_iff]
    simp only [byPrefixName_eq_some built sound, Option.eq_none_iff_forall_ne_some, ne_eq]
  missing := fun workspace parent child outside => by
    rw [resolveChild_walk outside, List.findSome?_eq_none_iff]
    simp only [byPrefixName_eq_some built sound, Option.eq_none_iff_forall_ne_some, ne_eq]

/-- The names in the index do not hold the directory of installed packages. -/
theorem not_infix_indexed {item : String × PackageEntry} (member : item ∈ (readPackages packages).installed) :
    ¬ nodeModules <:+: item.2.name.toList := by
  have known := installed_readPackages packages
  obtain ⟨name, workspace, outer, -, split⟩ := built item.1 (known.listed item member) (known.inside item member)
  have path : item.1 = String.ofList (within (installPath workspace outer) name.text) := by
    rw [← @String.ofList_toList item.1, split]
    rfl
  have read := known.name item member
  rw [path] at read
  -- Misread, the indexed name is a base; read right, it has no mark either.
  by_cases misleading : name.Misleading
  · rw [nameFromPath_misleading misleading] at read
    rw [← Option.some.inj read, String.toList_ofList]
    exact not_nodeModules_infix name.base_plain
  · rw [nameFromPath_within misleading] at read
    rw [← Option.some.inj read, String.toList_ofList]
    exact fun found => misleading (name.misleading_iff.mpr found)

/-- A package whose name misleads is not found where it is installed. -/
theorem not_misleading (resolves : NearestResolution (readPackages packages)) {path : String} {name : PackageName}
    (listed : path ∈ keys (readPackages packages).installed) (installed : InstallPath path name) :
    ¬ name.Misleading := by
  intro misleading
  have known := installed_readPackages packages
  obtain ⟨entry, member⟩ := mem_keys.mp listed
  obtain ⟨workspace, outer, outside, split⟩ := installed
  -- The package stands at its own place.
  have here : InstalledAt (readPackages packages) (installPath workspace outer) (String.ofList name.text) entry := by
    refine ⟨name, String.toList_ofList.symm, ?_⟩
    rw [lookup_eq_some known.distinct, show within _ _ = path.toList from split.symm, String.ofList_toList]
    exact member
  -- Which is the first place to be searched.
  have first : ∃ farther, enclosingPlaces workspace outer = installPath workspace outer :: farther := by
    cases outer with
    | cons name outer => exact ⟨_, rfl⟩
    | nil =>
      rw [enclosingPlaces, installPath]
      by_cases root : workspace = []
      · exact ⟨[], by rw [if_pos root, root]⟩
      · exact ⟨[[]], if_neg root⟩
  obtain ⟨farther, first⟩ := first
  -- So the nearest resolution would find it there.
  have found := (resolves.nearest workspace outer (String.ofList name.text) entry outside).mpr
    ⟨[], _, farther, first, here, fun _ member => absurd member List.not_mem_nil⟩
  -- The index has no entry under a name that holds the directory of installed packages.
  rw [resolveChild_walk outside] at found
  obtain ⟨place, -, indexed⟩ := List.exists_of_findSome?_eq_some found
  obtain ⟨item, member, key, -⟩ := mem_of_byPrefixName indexed
  have called : item.2.name = String.ofList name.text := (Prod.mk.inj key).2
  have absent := not_infix_indexed built member
  rw [called, String.toList_ofList] at absent
  exact absent (name.misleading_iff.mp misleading)

end Index

/-- A misleading name leaves the directory's name in the path without a separator before it. -/
theorem InstallPath.unseparated {path : String} {name : PackageName} (installed : InstallPath path name)
    (misleading : name.Misleading) :
    ∃ tail ∈ path.toList.tails, nodeModules <+: tail.tail ∧ tail.head? ≠ some '/' := by
  obtain ⟨workspace, outer, -, built⟩ := installed
  obtain ⟨front, back, parts⟩ := name.misleading_iff.mp misleading
  obtain rfl | ⟨start, mark, rfl⟩ := front.eq_nil_or_concat
  · exact absurd ⟨back, parts⟩ PackageName.not_prefix
  · refine ⟨mark :: (nodeModules ++ back), ?_, List.prefix_append _ _, ?_⟩
    · -- What is left of the path from the mark on is the end of the name.
      have ends : mark :: (nodeModules ++ back) <:+ name.text := ⟨start, by simp [← parts]⟩
      have last : name.text <:+ within (installPath workspace outer) name.text := by
        rw [within]
        split
        · exact List.suffix_append _ _
        · rw [← List.append_assoc]
          exact List.suffix_append _ _
      rw [List.mem_tails, built]
      exact ends.trans last
    · rintro ⟨⟩
      refine @PackageName.not_inner name ⟨start, back, ?_⟩
      rw [innerNodeModules_eq, ← parts]
      simp

section Scopes

/-- No two scopes rank alike. -/
theorem npmScopeRank_injective : Function.Injective npmScopeRank := by
  intro first second
  cases first <;> cases second <;> simp [npmScopeRank]

/-- Adding an entry raises the scope of its own package URL, when it is stronger. -/
theorem lookup_upsertScope {scopes : List (String × NpmScope)} {purl other : String} {scope : NpmScope} :
    (upsertScope scopes purl scope).lookup other =
      if other = purl ∧ ∀ existing, scopes.lookup purl = some existing → npmScopeRank existing < npmScopeRank scope
      then some scope else scopes.lookup other := by
  unfold upsertScope
  cases known : scopes.lookup purl with
  | none => simp [lookup_put]
  | some existing =>
    by_cases stronger : npmScopeRank existing < npmScopeRank scope
    · simp [stronger, lookup_put]
    · simp [stronger]

/-- What is right to keep for a package URL: nothing without an entry, else the strongest of its entries. -/
def RightScope (entries : List (String × NpmScope)) (purl : String) : Option NpmScope → Prop
  | none => ∀ scope, (purl, scope) ∉ entries
  | some scope => (purl, scope) ∈ entries ∧
      ∀ other, (purl, other) ∈ entries → npmScopeRank other ≤ npmScopeRank scope

/-- After all entries a purl stands in the scope that outranks its others. -/
theorem rightScope_run (entries : List (String × NpmScope)) (purl : String) :
    RightScope entries purl
      ((entries.foldl (fun scopes entry => upsertScope scopes entry.1 entry.2) []).lookup purl) := by
  -- Along the entries, the last one first.
  induction entries using List.reverseRecOn with
  | nil => simp [RightScope]
  | append_singleton entries entry ih =>
    obtain ⟨owner, scope⟩ := entry
    rw [List.foldl_append, List.foldl_cons, List.foldl_nil, lookup_upsertScope]
    -- Only the entry's own purl can change.
    by_cases own : purl = owner
    · subst own
      cases known : (entries.foldl (fun scopes entry => upsertScope scopes entry.1 entry.2) []).lookup purl with
      -- The first scope a purl gets stays as it is.
      | none =>
        rw [known] at ih
        simp only [RightScope, reduceCtorEq, false_implies, implies_true, and_self, if_pos, List.mem_append,
          List.mem_singleton, Prod.mk.injEq, true_and, or_true]
        intro other member
        obtain listed | rfl := member
        · exact absurd listed (ih other)
        · exact le_rfl
      -- A later scope replaces the one there when it ranks higher.
      | some existing =>
        rw [known] at ih
        obtain ⟨listed, most⟩ := ih
        -- The new maximum, or the old one.
        by_cases stronger : npmScopeRank existing < npmScopeRank scope
        · simp only [RightScope, Option.some.injEq, forall_eq', stronger, and_self, if_pos, List.mem_append,
            List.mem_singleton, Prod.mk.injEq, true_and, or_true]
          intro other member
          obtain listed' | rfl := member
          · exact (most other listed').trans stronger.le
          · exact le_rfl
        · simp only [RightScope, Option.some.injEq, forall_eq', stronger, and_false, if_false, List.mem_append,
            List.mem_singleton, Prod.mk.injEq, true_and, listed, true_or]
          intro other member
          obtain listed' | rfl := member
          · exact most other listed'
          · exact Nat.le_of_not_lt stronger
    · rw [if_neg fun both => own both.1]
      have others : ∀ other, (purl, other) ∈ entries ++ [(owner, scope)] ↔ (purl, other) ∈ entries := by
        simp [own]
      cases known : (entries.foldl (fun scopes entry => upsertScope scopes entry.1 entry.2) []).lookup purl with
      | none => rw [known] at ih; simpa [RightScope, others] using ih
      | some kept => rw [known] at ih; simpa [RightScope, others] using ih

/-- Every order of the entries leaves the strongest scope. -/
theorem strongestScopes (entries : List (String × NpmScope)) : StrongestScopes entries := by
  intro purl scope
  -- What the fold leaves is the right scope of every purl.
  have right := rightScope_run entries purl
  constructor
  · intro found
    rwa [found] at right
  · rintro ⟨listed, most⟩
    cases found : (entries.foldl (fun scopes entry => upsertScope scopes entry.1 entry.2) []).lookup purl with
    | none =>
      rw [found] at right
      exact absurd listed (right scope)
    | some kept =>
      rw [found] at right
      -- Two strongest scopes are of one rank, and a rank is of one scope.
      obtain ⟨member, above⟩ := right
      exact congrArg some (npmScopeRank_injective (Nat.le_antisymm (most kept member) (above scope listed)))

end Scopes

/-- Names mean their nearest packages exactly when no scope of an installed one ends like the directory of
installed packages; the scopes of package URLs are always the strongest. -/
theorem resolveChild_nearest (packages : List (String × Json))
    (built : ∀ path ∈ keys packages, nodeModules <:+: path.toList → ∃ name, InstallPath path name) :
    (NearestResolution (readPackages packages) ∧ ∀ entries, StrongestScopes entries) ↔
      ∀ path ∈ keys (readPackages packages).installed, ∀ name, InstallPath path name → ¬ name.Misleading := by
  constructor
  · rintro ⟨resolves, -⟩ path listed name installed
    exact not_misleading built resolves listed installed
  · intro sound
    exact ⟨nearestResolution built sound, strongestScopes⟩

/-- A lockfile with one package in some version at each of some paths. -/
def installedLockfile (versions : List (String × String)) : List (String × Json) :=
  versions.map fun item => (item.1, .obj [("version", .str item.2)])

/-- One package at the top, in a package with a scope and in a workspace, each time in another version. -/
def nestedLockfile : List (String × Json) :=
  installedLockfile [("node_modules/a", "1.0.0"), ("node_modules/@s/b", "1.0.0"),
    ("node_modules/@s/b/node_modules/a", "2.0.0"), ("packages/web/node_modules/a", "3.0.0")]

/-- A package name without a scope. -/
def nameOfA : PackageName := ⟨none, ['a'], by simp, by decide, by decide, by decide⟩

/-- A package name with a scope. -/
def nameOfB : PackageName := ⟨some ['s'], ['b'], by simp, by decide, by decide, by decide⟩

/-- Every path of the nested lockfile is an install path. -/
theorem nestedLockfile_built {path : String} (listed : path ∈ keys nestedLockfile) :
    ∃ name, InstallPath path name := by
  simp only [nestedLockfile, installedLockfile, List.map_cons, List.map_nil, keys_cons, keys_nil, List.mem_cons,
    List.not_mem_nil, or_false] at listed
  obtain rfl | rfl | rfl | rfl := listed
  · exact ⟨nameOfA, [], [], by decide, by decide +kernel⟩
  · exact ⟨nameOfB, [], [], by decide, by decide +kernel⟩
  · exact ⟨nameOfA, [], [nameOfB], by decide, by decide +kernel⟩
  · exact ⟨nameOfA, "packages/web".toList, [], by decide, by decide +kernel⟩

/-- No scope misleads, so that a package with a scope means the version that is installed in it and not the one
at the top. -/
theorem resolveChild_nearest_nested :
    (∀ path ∈ keys (readPackages nestedLockfile).installed, ∀ name, InstallPath path name → ¬ name.Misleading) ∧
      NearestResolution (readPackages nestedLockfile) ∧ (∀ entries, StrongestScopes entries) ∧
      ((readPackages nestedLockfile).resolveChild "node_modules/@s/b" "a").map (·.version) = some "2.0.0" := by
  have sound : ∀ path ∈ keys (readPackages nestedLockfile).installed, ∀ name, InstallPath path name →
      ¬ name.Misleading := by
    intro path listed name installed misleading
    obtain ⟨tail, inside, begins, unmarked⟩ := installed.unseparated misleading
    -- Wherever the directory's name stands in these paths, it stands alone.
    have separated : ∀ path ∈ keys (readPackages nestedLockfile).installed, ∀ tail ∈ path.toList.tails,
        nodeModules <+: tail.tail → tail.head? = some '/' := by decide +kernel
    exact unmarked (separated path listed tail inside begins)
  have nearest := (resolveChild_nearest nestedLockfile fun _ listed _ => nestedLockfile_built listed).mpr sound
  refine ⟨sound, nearest.1, nearest.2, ?_⟩
  -- The package's own directory comes first, and the name is installed in it.
  have own : InstalledAt (readPackages nestedLockfile) (installPath [] [nameOfB]) "a"
      ⟨"node_modules/@s/b/node_modules/a", "a", "2.0.0", false, false, false, [], [], []⟩ :=
    ⟨nameOfA, by decide, by decide +kernel⟩
  have parent : "node_modules/@s/b" = String.ofList (installPath [] [nameOfB]) := by decide +kernel
  rw [parent, (nearest.1.nearest _ _ _ _ (by decide)).mpr ⟨[], _, _, rfl, own, by simp⟩]
  rfl

/-- A package whose scope ends like the directory is not found at the root, where it is installed. -/
theorem resolveChild_nearest_fails :
    ¬ ∀ packages : List (String × Json),
      (∀ path ∈ keys packages, nodeModules <:+: path.toList → ∃ name, InstallPath path name) →
        NearestResolution (readPackages packages) ∧ ∀ entries, StrongestScopes entries := by
  intro always
  -- The path npm builds for a package whose scope ends in the mark.
  have installed : InstallPath "node_modules/@x-node_modules/pkg"
      ⟨some "x-node_modules".toList, "pkg".toList, by decide +kernel, by decide +kernel, by decide +kernel, by decide +kernel⟩ :=
    ⟨[], [], by decide +kernel, by decide +kernel⟩
  have built : ∀ path ∈ keys (installedLockfile [("node_modules/@x-node_modules/pkg", "1.0.0")]),
      nodeModules <:+: path.toList → ∃ name, InstallPath path name := by
    simp only [installedLockfile, List.map_cons, List.map_nil, keys_cons, keys_nil, List.mem_singleton, forall_eq]
    exact fun _ => ⟨_, installed⟩
  -- It misleads, and the nearest resolution allows no such path.
  refine not_misleading built (always _ built).1 ?_ installed ⟨_, rfl, by decide +kernel⟩
  decide +kernel

end Trusca
