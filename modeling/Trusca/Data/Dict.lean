import Mathlib.Data.List.Basic
import Mathlib.Data.String.Basic

/-! Dictionaries with text keys. -/

namespace Trusca

/-- A dictionary as its items in the order of their keys, so that equal dictionaries are equal. -/
structure Dict (β : Type*) where
  items : List (String × β)
  sorted : items.Pairwise fun first second => first.1 < second.1
  deriving DecidableEq

namespace Dict

variable {β : Type*}

/-- The dictionary without items. -/
def empty : Dict β := ⟨[], .nil⟩

/-- The value under a key. -/
def get? (dict : Dict β) (key : String) : Option β := dict.items.lookup key

/-- Nothing is found in an empty dictionary. -/
@[simp] theorem get?_empty (key : String) : (empty : Dict β).get? key = none := rfl

end Dict

end Trusca
