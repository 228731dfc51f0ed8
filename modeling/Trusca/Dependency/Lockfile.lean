import Mathlib.Data.String.Basic
import Trusca.Data.Json
import Trusca.Data.Text
import Trusca.Store.Items
import Trusca.Store.Page
import Trusca.Store.Select

/-! The npm lockfile: its packages, their scopes, and which package depends on which. -/

namespace Trusca

open Store

/-- The most packages that are read from one lockfile. -/
def maxPackages : Nat := 200000

/-- How a package is used, from the strongest to the weakest. -/
inductive NpmScope where
  | required
  | peer
  | optional
  | dev
  deriving Repr, DecidableEq

/-- A stronger scope has the higher rank. -/
def npmScopeRank : NpmScope → Nat
  | .required => 4
  | .peer => 3
  | .optional => 2
  | .dev => 1

/-- An installed package, under the path of its directory. -/
structure PackageEntry where
  path : String
  name : String
  version : String
  dev : Bool
  optional : Bool
  peer : Bool
  dependencies : List (String × String)
  optionalDependencies : List (String × String)
  peerDependencies : List (String × String)
  deriving Repr, DecidableEq

/-- The dependency lists of the root, by name. -/
structure RootLists where
  dependencies : List (String × String)
  devDependencies : List (String × String)
  optionalDependencies : List (String × String)
  peerDependencies : List (String × String)
  deriving Repr, DecidableEq

/-- What is read from a lockfile. The root of the project is the empty text. -/
structure NpmLockfileData where
  scopeByPurl : List (String × NpmScope)
  adjacency : List (String × List String)
  deriving Repr, DecidableEq

/-- Whether a value counts as true. -/
def truthy : Option Json → Bool
  -- Python's truth of a value read from JSON.
  | none | some .null => false
  | some (.bool value) => value
  | some (.num value) => value != 0
  | some (.str text) => text != ""
  | some (.arr items) => !items.isEmpty
  | some (.obj fields) => !fields.isEmpty

/-- The fields of an object that hold texts. -/
def asStrStrMap : Option Json → List (String × String)
  -- A value that is no text is left out, without an error.
  | some (.obj fields) => fields.filterMap fun field =>
      match field.2 with
      | .str text => some (field.1, text)
      | _ => none
  | _ => []

/-- The directory that holds installed packages. -/
def nodeModules : List Char := "node_modules/".toList

/-- The same directory inside of another one. -/
def innerNodeModules : List Char := "/node_modules/".toList

/-- The name of the package that is installed at a path. -/
def nameFromPath (path : String) : Option String :=
  match rfind path.toList nodeModules with
  | none => none
  | some place =>
      let rest := path.toList.drop (place + nodeModules.length)
      if rest = [] then none
      else if rest.head? = some '@' then
        -- The name of a package with a scope has two segments.
        match rest.dropWhile (· ≠ '/') with
        | [] => none
        | _ :: after =>
            some (String.ofList (rest.takeWhile (· ≠ '/') ++ '/' :: after.takeWhile (· ≠ '/')))
      else some (String.ofList (rest.takeWhile (· ≠ '/')))

/-- The package that a path is installed under; the root for a path at the top. -/
def parentPrefix (path : String) : String :=
  match rfind path.toList innerNodeModules with
  | none => ""
  | some place => String.ofList (path.toList.take place)

/-- The package URL of a version. The sign before a scope is encoded. -/
def npmPurl (name version : String) : String :=
  -- A scope is encoded by its marker alone.
  let encoded :=
    if name.toList.head? = some '@' ∧ '/' ∈ name.toList then
      "%40" ++ String.ofList (name.toList.drop 1)
    else name
  "pkg:npm/" ++ encoded ++ "@" ++ version

/-- The package URL of an installed package. -/
def PackageEntry.purl (package : PackageEntry) : String := npmPurl package.name package.version

/-- What the first pass collects. -/
structure LockfilePackages where
  rootLists : RootLists
  installed : List (String × PackageEntry)
  deriving Repr, DecidableEq

/-- Add the texts of an object to a list of the root. -/
def addToList (known : List (String × String)) (value : Option Json) : List (String × String) :=
  (asStrStrMap value).foldl (fun known field => put known field.1 field.2) known

/-- Read one entry of the packages. -/
def readPackage (read : LockfilePackages) (item : String × Json) : LockfilePackages :=
  match item.2 with
  | .obj fields =>
      let entry := Json.obj fields
      if item.1 = "" then
        { read with rootLists :=
          { dependencies := addToList read.rootLists.dependencies (entry.get? "dependencies")
            devDependencies :=
              addToList read.rootLists.devDependencies (entry.get? "devDependencies")
            optionalDependencies :=
              addToList read.rootLists.optionalDependencies (entry.get? "optionalDependencies")
            peerDependencies :=
              addToList read.rootLists.peerDependencies (entry.get? "peerDependencies") } }
      -- A workspace is part of the project, and no component of it.
      else if rfind item.1.toList nodeModules = none then read
      else
        match nameFromPath item.1, entry.get? "version" with
        | some name, some (.str version) =>
            if name = "" ∨ version = "" then read
            else
              let package : PackageEntry :=
                { path := item.1
                  name := name
                  version := version
                  dev := truthy (entry.get? "dev")
                  optional := truthy (entry.get? "optional")
                  peer := truthy (entry.get? "peer")
                  dependencies := asStrStrMap (entry.get? "dependencies")
                  optionalDependencies := asStrStrMap (entry.get? "optionalDependencies")
                  peerDependencies := asStrStrMap (entry.get? "peerDependencies") }
              { read with installed := put read.installed item.1 package }
        | _, _ => read
  | _ => read

/-- The first pass: the lists of the root and the installed packages. -/
def readPackages (packages : List (String × Json)) : LockfilePackages :=
  (packages.take maxPackages).foldl readPackage ⟨⟨[], [], [], []⟩, []⟩

/-- The scope of an installed package: the first of the lists that has it. -/
def classifyScopeV3 (lists : RootLists) (package : PackageEntry) : NpmScope :=
  -- In this order, so a package that is required by anybody is required.
  if package.name ∈ keys lists.dependencies then .required
  else if package.peer ∨ package.name ∈ keys lists.peerDependencies then .peer
  else if package.optional ∨ package.name ∈ keys lists.optionalDependencies then .optional
  else if package.dev ∨ package.name ∈ keys lists.devDependencies then .dev
  else .required

/-- Keep the stronger of the scopes of one package URL. -/
def upsertScope (scopes : List (String × NpmScope)) (purl : String) (scope : NpmScope) :
    List (String × NpmScope) :=
  match scopes.lookup purl with
  -- A wider scope replaces a narrower one, and never the other way.
  | none => put scopes purl scope
  | some existing =>
      if npmScopeRank scope > npmScopeRank existing then put scopes purl scope else scopes

namespace LockfilePackages

variable (read : LockfilePackages)

/-- The installed packages by the package that they are under and their name. -/
def byPrefixName : List ((String × String) × PackageEntry) :=
  read.installed.foldl (fun index item =>
    put index (parentPrefix item.2.path, item.2.name) item.2) []

/-- The places to look for a child, from the parent's own directory up. -/
def enclosing (path : List Char) : List (List Char) :=
  -- From the package outwards, one `node_modules` at a time.
  if path = [] then []
  else
    match _ : rfind path innerNodeModules with
    | none => [path]
    | some place => path :: enclosing (path.take place)
termination_by path.length
decreasing_by
  rename_i found
  have inside := (le_of_rfind found).resolve_right (by decide)
  have wide : 0 < innerNodeModules.length := by decide
  rw [List.length_take]
  omega

/-- The package that a name means to a parent: the nearest one. -/
def resolveChild (parentPath childName : String) : Option PackageEntry :=
  ((enclosing parentPath.toList).map String.ofList ++ [""]).findSome? fun place =>
    read.byPrefixName.lookup (place, childName)

/-- The package URLs that some names mean to a parent. -/
def childPurls (parentPath : String) (names : List String) : List String :=
  names.filterMap fun name => (read.resolveChild parentPath name).map PackageEntry.purl

/-- The names in the lists of the root. -/
def rootNames : List String :=
  keys read.rootLists.dependencies ++ keys read.rootLists.devDependencies ++
    keys read.rootLists.optionalDependencies ++ keys read.rootLists.peerDependencies

/-- The children of the root, each of them once. -/
def rootChildren : List String := distinctOn id (read.childPurls "" read.rootNames)

end LockfilePackages

/-- A path at the top is enclosed by the root only. -/
theorem enclosing_top {path : List Char} (text : path ≠ [])
    (top : rfind path innerNodeModules = none) : LockfilePackages.enclosing path = [path] := by
  rw [LockfilePackages.enclosing, if_neg text]
  split
  · rfl
  · next found => rw [top] at found; cases found

/-- A path that is under a package is enclosed by that package, and by what encloses it. -/
theorem enclosing_under {path : List Char} {place : Nat} (text : path ≠ [])
    (under : rfind path innerNodeModules = some place) :
    LockfilePackages.enclosing path = path :: LockfilePackages.enclosing (path.take place) := by
  rw [LockfilePackages.enclosing, if_neg text]
  split
  · next found => rw [under] at found; cases found
  · next found =>
    rw [under] at found
    cases found
    rfl

/-- The names in the lists of an installed package. -/
def PackageEntry.childNames (package : PackageEntry) : List String :=
  keys package.dependencies ++ keys package.optionalDependencies ++ keys package.peerDependencies

/-- Add children to those of a parent, each of them once and the parent itself never. -/
def addChildren (parent : String) (bucket children : List String) : List String :=
  children.foldl (fun bucket child =>
    if child = parent ∨ child ∈ bucket then bucket else bucket ++ [child]) bucket

namespace LockfilePackages

variable (read : LockfilePackages)

/-- Add the children of one installed package. -/
def addPackage (adjacency : List (String × List String)) (package : PackageEntry) :
    List (String × List String) :=
  let bucket := (adjacency.lookup package.purl).getD []
  put adjacency package.purl
    (addChildren package.purl bucket (read.childPurls package.path package.childNames))

/-- The children of the root and of every installed package. -/
def adjacency : List (String × List String) :=
  (read.installed.map Prod.snd).foldl read.addPackage
    (if read.rootChildren = [] then [] else [("", read.rootChildren)])

/-- The scope of every installed package. -/
def scopeByPurl : List (String × NpmScope) :=
  (read.installed.map Prod.snd).foldl (fun scopes package =>
    upsertScope scopes package.purl (classifyScopeV3 read.rootLists package)) []

end LockfilePackages

/-- Read the packages of a lockfile of version two or three. -/
def parseV3 (packages : List (String × Json)) : Option NpmLockfileData :=
  let read := readPackages packages
  if read.installed = [] then none
  else some { scopeByPurl := read.scopeByPurl, adjacency := read.adjacency }

/-- The children as the dependencies of a document, in the order of the packages. -/
def NpmLockfileData.synthesizeCdxgenDependencies (lock : NpmLockfileData) : Json :=
  .arr ((sortBy id (keys lock.adjacency)).map fun ref =>
    .obj [("ref", .str ref),
      ("dependsOn", .arr (((lock.adjacency.lookup ref).getD []).map Json.str))])

end Trusca
