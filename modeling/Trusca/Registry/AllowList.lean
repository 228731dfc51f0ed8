import Trusca.Data.Segments

/-! Which registries a container scan may pull from. -/

namespace Trusca

/-- The registry of a reference that names none. -/
def defaultRegistry : String := "docker.io"

/-- Whether the first segment of a reference is a host and not a namespace. -/
def isHostSegment (first : String) : Bool :=
  first.toList.contains '.' || first.toList.contains ':' || first == "localhost"

/-- The registry host that an image reference resolves to. -/
def splitRegistryHost (imageRef : String) : String :=
  let ref := strip imageRef
  -- An empty reference, or one without a slash, is on the default registry.
  if ref == "" then defaultRegistry
  else
    match partition '/' ref with
    | (_, false, _) => defaultRegistry
    -- Only a first segment that looks like a host is one.
    | (first, true, _) => if isHostSegment first then lower first else defaultRegistry

/-- An entry of the list as a host and a path, which may be empty. -/
def splitEntry (entry : String) : String × String :=
  match partition '/' (strip entry) with
  | (host, sep, path) => (lower (strip host), if sep then stripOf '/' path else "")

/-- The path of a reference, with any host removed. -/
def repositoryPath (imageRef host : String) : String :=
  let ref := strip imageRef
  match partition '/' ref with
  | (first, sep, rest) =>
    -- The registry's own host, as compared without case, is taken off.
    if sep && lower first == host && host != defaultRegistry then stripOf '/' rest
    else if sep && isHostSegment first then stripOf '/' rest
    -- On the default registry the whole text is the path.
    else stripOf '/' ref

/-- Whether an entry admits a path on a host. -/
def entryAllows (host path entry : String) : Bool :=
  match splitEntry entry with
  | (entryHost, entryPath) =>
    -- Hosts are compared as a whole, and a path leads another up to a slash.
    if entryHost == "" || entryHost != host then false
    else if entryPath == "" then true
    else path == entryPath || startsWith path (entryPath ++ "/")

/-- Whether a reference may be pulled under a list; an empty one allows everything. -/
def isRegistryAllowed (imageRef : String) (allowed : List String) : Bool :=
  if allowed.isEmpty then true
  else
    let host := splitRegistryHost imageRef
    allowed.any (entryAllows host (repositoryPath imageRef host))

/-- Whether any pull from a host is allowed under a list. -/
def isRegistryHostAllowed (host : String) (allowed : List String) : Bool :=
  if allowed.isEmpty then true
  else
    let target := lower (strip host)
    if target == "" then false else allowed.any fun entry => (splitEntry entry).1 == target

end Trusca
