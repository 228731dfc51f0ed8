import Mathlib.Data.List.Basic

/-! The licence categories, and the static catalogue that classifies the well-known licences. -/

namespace Trusca

/-- What using a licence means for a build. -/
inductive LicenseCategory where
  | allowed
  | conditional
  | forbidden
  | unknown
  deriving Repr, DecidableEq

/-- The name of a category. -/
def LicenseCategory.word : LicenseCategory → String
  | .allowed => "allowed"
  | .conditional => "conditional"
  | .forbidden => "forbidden"
  | .unknown => "unknown"

/-- The categories a policy may assign; a policy never relabels a licence to unknown. -/
inductive PolicyCategory where
  | allowed
  | conditional
  | forbidden
  deriving Repr, DecidableEq

/-- The category a policy's choice stands for. -/
def PolicyCategory.toCategory : PolicyCategory → LicenseCategory
  | .allowed => .allowed
  | .conditional => .conditional
  | .forbidden => .forbidden

/-- The static catalogue. -/
def licenseCategoryDefaults : List (String × LicenseCategory) :=
  -- Allowed, conditional and forbidden ones, in the order of the source's table.
  [("MIT", .allowed), ("Apache-2.0", .allowed), ("BSD-2-Clause", .allowed),
   ("BSD-3-Clause", .allowed), ("ISC", .allowed), ("Unlicense", .allowed), ("CC0-1.0", .allowed),
   ("0BSD", .allowed), ("Zlib", .allowed), ("WTFPL", .allowed), ("Python-2.0", .allowed),
   ("BSL-1.0", .allowed), ("PostgreSQL", .allowed), ("NTP", .allowed), ("curl", .allowed),
   ("Ruby", .allowed), ("X11", .allowed), ("Artistic-2.0", .allowed), ("PHP-3.01", .allowed),
   ("Libpng", .allowed), ("OpenSSL", .allowed), ("BSD-4-Clause", .allowed),
   ("CC-BY-4.0", .allowed), ("UPL-1.0", .allowed), ("AFL-3.0", .allowed), ("MS-PL", .allowed),
   ("BlueOak-1.0.0", .allowed), ("MIT-0", .allowed),
   ("MS-RL", .conditional), ("OFL-1.1", .conditional), ("CC-BY-SA-4.0", .conditional),
   ("LGPL-2.0-only", .conditional), ("LGPL-2.0-or-later", .conditional),
   ("LGPL-2.1-only", .conditional), ("LGPL-2.1-or-later", .conditional),
   ("LGPL-3.0-only", .conditional), ("LGPL-3.0-or-later", .conditional),
   ("MPL-1.1", .conditional), ("MPL-2.0", .conditional), ("EPL-1.0", .conditional),
   ("EPL-2.0", .conditional), ("CDDL-1.0", .conditional), ("CDDL-1.1", .conditional),
   ("Apache-1.1", .conditional), ("CC-BY-ND-4.0", .conditional),
   ("GPL-2.0-only", .forbidden), ("GPL-2.0-or-later", .forbidden), ("GPL-3.0-only", .forbidden),
   ("GPL-3.0-or-later", .forbidden), ("AGPL-3.0-only", .forbidden),
   ("AGPL-3.0-or-later", .forbidden), ("SSPL-1.0", .forbidden), ("BUSL-1.1", .forbidden),
   ("CC-BY-NC-4.0", .forbidden), ("CC-BY-NC-SA-4.0", .forbidden),
   ("CC-BY-NC-ND-4.0", .forbidden)]

/-- The catalogue's category of a single licence id; a miss is unknown. -/
def staticDefaultFor (spdxId : String) : LicenseCategory :=
  (licenseCategoryDefaults.lookup spdxId).getD .unknown

end Trusca
