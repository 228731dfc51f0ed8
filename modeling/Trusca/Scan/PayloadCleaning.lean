import Trusca.Data.PyJson

/-! A document is cleaned of what the database refuses, before it is stored. -/

namespace Trusca

section Text

/-- The code points that are kept: the tab, and what is neither a control character nor a surrogate. -/
def keepsCodePoint (code : Nat) : Bool :=
  code == 9 || (32 ≤ code && code != 127 && !isSurrogate code)

/-- A text without what is not kept, and without white space at its ends. -/
def PyText.sanitizeJsonbText (value : PyText) : PyText :=
  (((value.filter keepsCodePoint).dropWhile isSpaceCode).reverse.dropWhile isSpaceCode).reverse

end Text

section Payload

variable {ν : Type}

mutual

/-- Clean every text of a value, keys among them. -/
def deepSanitizeJsonb : PyJson ν → PyJson ν
  | .str text => .str (PyText.sanitizeJsonbText text)
  | .arr items => .arr (deepSanitizeItems items)
  -- Two keys may become one by the cleaning, and then the last one stays.
  | .obj fields => .obj (buildDict (deepSanitizeFields fields))
  | .null => .null
  | .bool value => .bool value
  | .num value => .num value

/-- Clean every item. -/
def deepSanitizeItems : List (PyJson ν) → List (PyJson ν)
  | [] => []
  | item :: rest => deepSanitizeJsonb item :: deepSanitizeItems rest

/-- Clean every field. -/
def deepSanitizeFields : List (PyText × PyJson ν) → List (PyText × PyJson ν)
  | [] => []
  | (key, value) :: rest =>
      (PyText.sanitizeJsonbText key, deepSanitizeJsonb value) :: deepSanitizeFields rest

end

/-- How NUL is written. -/
def hostileEscape : PyText := [92, 117, 48, 48, 48, 48]

/-- Whether a written document seems to hold what the database refuses. -/
def isJsonbHostile (dumped : PyText) : Bool :=
  dumped.any isSurrogate || dumped.tails.any hostileEscape.isPrefixOf

/-- A document as it is, or cleaned when it seems hostile. -/
def sanitizeJsonbPayload (repr : ν → PyText) (payload : List (PyText × PyJson ν)) :
    List (PyText × PyJson ν) :=
  if isJsonbHostile ((PyJson.obj payload).dumps repr) then buildDict (deepSanitizeFields payload)
  else payload

end Payload

end Trusca
