import Mathlib.Data.List.Basic

/-! Element trees, the texts that XML 1.0 admits in them, and what a parser gives back of them. -/

namespace Trusca

/-- A character that XML 1.0 admits. -/
def isXmlChar (character : Char) : Bool :=
  let code := character.toNat
  code == 0x9 || code == 0xA || code == 0xD || (0x20 ≤ code && code ≤ 0xD7FF) ||
    (0xE000 ≤ code && code ≤ 0xFFFD) || 0x10000 ≤ code

/-- A text that XML 1.0 admits once its markup is escaped. -/
def isXmlText (text : String) : Bool := text.toList.all isXmlChar

/-- A name without a colon, in ASCII. -/
def isXmlName (name : String) : Bool :=
  match name.toList with
  | [] => false
  | first :: rest =>
      (first.isAlpha || first == '_') && rest.all fun character =>
        character.isAlphanum || character == '_' || character == '-' || character == '.'

/-- The line ends that a parser reads: one line feed for a carriage return and for the pair. -/
def lineFeeds : List Char → List Char
  | [] => []
  | '\r' :: '\n' :: rest => '\n' :: lineFeeds rest
  | '\r' :: rest => '\n' :: lineFeeds rest
  | character :: rest => character :: lineFeeds rest

/-- A text as a parser reads it. -/
def normalizeLineEnds (text : String) : String := String.ofList (lineFeeds text.toList)

/-- An element; its names are from a vocabulary, and the text stands before its children. -/
inductive XmlNode (ν : Type) where
  | element (tag : ν) (attributes : List (ν × String)) (text : String) (children : List (XmlNode ν))
  deriving Repr

namespace XmlNode

variable {ν : Type}

def tag : XmlNode ν → ν
  | .element tag _ _ _ => tag

def attributes : XmlNode ν → List (ν × String)
  | .element _ attributes _ _ => attributes

def text : XmlNode ν → String
  | .element _ _ text _ => text

def children : XmlNode ν → List (XmlNode ν)
  | .element _ _ _ children => children

/-- An element with a text only. -/
def leaf (tag : ν) (text : String) : XmlNode ν := .element tag [] text []

/-- An element with children only. -/
def branch (tag : ν) (children : List (XmlNode ν)) : XmlNode ν := .element tag [] "" children

/-- The element of a text, when there is one. -/
def optional (tag : ν) (text : Option String) : List (XmlNode ν) := (text.map (leaf tag)).toList

/-- The element around some children, when there are any. -/
def unlessEmpty (tag : ν) (children : List (XmlNode ν)) : List (XmlNode ν) :=
  if children.isEmpty then [] else [branch tag children]

/-- The tag of an element is the one it is built with. -/
@[simp] theorem tag_element (tag : ν) (attributes : List (ν × String)) (text : String)
    (children : List (XmlNode ν)) : (XmlNode.element tag attributes text children).tag = tag := rfl

/-- The tag of a leaf is the one it is built with. -/
@[simp] theorem tag_leaf (tag : ν) (text : String) : (leaf tag text).tag = tag := rfl

/-- The text of a leaf is the one it is built with. -/
@[simp] theorem text_leaf (tag : ν) (text : String) : (leaf tag text).text = text := rfl

/-- The tag of a branch is the one it is built with. -/
@[simp] theorem tag_branch (tag : ν) (children : List (XmlNode ν)) : (branch tag children).tag = tag := rfl

/-- The children of a branch are those it is built with. -/
@[simp] theorem children_branch (tag : ν) (children : List (XmlNode ν)) :
    (branch tag children).children = children := rfl

section WellFormed

variable [DecidableEq ν] (word : ν → String)

mutual

/-- Whether the written tree is well formed: names are names, no attribute is repeated, and every text is
admitted; markup is escaped in writing. -/
def wellFormed : XmlNode ν → Bool
  | .element tag attributes text children =>
      isXmlName (word tag) && decide (attributes.map Prod.fst).Nodup &&
        attributes.all (fun (name, value) => isXmlName (word name) && isXmlText value) &&
        isXmlText text && allWellFormed children

def allWellFormed : List (XmlNode ν) → Bool
  | [] => true
  | node :: rest => wellFormed node && allWellFormed rest

end

variable {word}

/-- All of a list is well formed when each of its nodes is. -/
theorem allWellFormed_iff {nodes : List (XmlNode ν)} :
    allWellFormed word nodes ↔ ∀ node ∈ nodes, node.wellFormed word := by
  induction nodes with
  | nil => simp [allWellFormed]
  | cons node rest ih => simp [allWellFormed, ih]

/-- With names that are names, an element is well formed when its texts and its children are. -/
theorem wellFormed_element (named : ∀ name, isXmlName (word name)) {tag : ν}
    {attributes : List (ν × String)} {text : String} {children : List (XmlNode ν)} :
    (XmlNode.element tag attributes text children).wellFormed word ↔
      (attributes.map Prod.fst).Nodup ∧ (∀ pair ∈ attributes, isXmlText pair.2) ∧
        isXmlText text ∧ ∀ child ∈ children, child.wellFormed word := by
  simp [wellFormed, named, allWellFormed_iff, and_assoc]

/-- The empty text may stand in a document. -/
theorem isXmlText_empty : isXmlText "" := by decide

/-- A leaf is well formed when its text may stand in a document. -/
theorem wellFormed_leaf (named : ∀ name, isXmlName (word name)) {tag : ν} {text : String} :
    (leaf tag text).wellFormed word ↔ isXmlText text := by
  simp [leaf, wellFormed_element named]

/-- A branch is well formed when each of its children is. -/
theorem wellFormed_branch (named : ∀ name, isXmlName (word name)) {tag : ν}
    {children : List (XmlNode ν)} :
    (branch tag children).wellFormed word ↔ ∀ child ∈ children, child.wellFormed word := by
  simp [branch, wellFormed_element named, isXmlText_empty]

/-- An optional leaf is well formed when the text it may hold may stand in a document. -/
theorem wellFormed_optional (named : ∀ name, isXmlName (word name)) {tag : ν} {text : Option String} :
    (∀ node ∈ optional tag text, node.wellFormed word) ↔ ∀ value ∈ text, isXmlText value := by
  cases text with
  | none => simp [optional]
  | some value => simp [optional, wellFormed_leaf named]

/-- A branch left out when empty is well formed when each of its children is. -/
theorem wellFormed_unlessEmpty (named : ∀ name, isXmlName (word name)) {tag : ν}
    {children : List (XmlNode ν)} :
    (∀ node ∈ unlessEmpty tag children, node.wellFormed word) ↔
      ∀ child ∈ children, child.wellFormed word := by
  cases children with
  | nil => simp [unlessEmpty]
  | cons child rest => simp [unlessEmpty, wellFormed_branch named]

end WellFormed

section Normalised

mutual

/-- The tree that a parser gives back: attributes are written with their line ends escaped, texts are
not. -/
def normalised : XmlNode ν → XmlNode ν
  | .element tag attributes text children =>
      .element tag attributes (normalizeLineEnds text) (allNormalised children)

def allNormalised : List (XmlNode ν) → List (XmlNode ν)
  | [] => []
  | node :: rest => normalised node :: allNormalised rest

end

/-- Normalising all nodes of a list is normalising each of them. -/
theorem allNormalised_eq_map (nodes : List (XmlNode ν)) : allNormalised nodes = nodes.map normalised := by
  induction nodes with
  | nil => rfl
  | cons node rest ih => simp [allNormalised, ih]

/-- An element is normalised in its text and in each of its children. -/
@[simp] theorem normalised_element (tag : ν) (attributes : List (ν × String)) (text : String)
    (children : List (XmlNode ν)) :
    (XmlNode.element tag attributes text children).normalised =
      .element tag attributes (normalizeLineEnds text) (children.map normalised) := by
  simp [normalised, allNormalised_eq_map]

/-- The empty text has no line ends. -/
theorem normalizeLineEnds_empty : normalizeLineEnds "" = "" := by decide

/-- A leaf is normalised in its text. -/
@[simp] theorem normalised_leaf (tag : ν) (text : String) :
    (leaf tag text).normalised = leaf tag (normalizeLineEnds text) := by
  simp [leaf]

/-- A branch is normalised in each of its children. -/
@[simp] theorem normalised_branch (tag : ν) (children : List (XmlNode ν)) :
    (branch tag children).normalised = branch tag (children.map normalised) := by
  simp [branch, normalizeLineEnds_empty]

/-- An optional leaf is normalised in the text it may hold. -/
@[simp] theorem map_normalised_optional (tag : ν) (text : Option String) :
    (optional tag text).map normalised = optional tag (text.map normalizeLineEnds) := by
  cases text with
  | none => rfl
  | some value => simp [optional]

/-- A branch left out when empty is normalised in each of its children. -/
@[simp] theorem map_normalised_unlessEmpty (tag : ν) (children : List (XmlNode ν)) :
    (unlessEmpty tag children).map normalised = unlessEmpty tag (children.map normalised) := by
  cases children with
  | nil => rfl
  | cons child rest => simp [unlessEmpty]

end Normalised

section Read

variable [DecidableEq ν]

/-- The value of an attribute. -/
def attribute? (node : XmlNode ν) (name : ν) : Option String := node.attributes.lookup name

/-- The first element with a tag. -/
def findTag (tag : ν) (nodes : List (XmlNode ν)) : Option (XmlNode ν) :=
  nodes.find? fun node => node.tag == tag

/-- The first child with a tag. -/
def child? (node : XmlNode ν) (tag : ν) : Option (XmlNode ν) := findTag tag node.children

/-- The text of the first child with a tag. -/
def childText? (node : XmlNode ν) (tag : ν) : Option String := (node.child? tag).map text

/-- The children of the first child with a tag, each read; none without such a child. -/
def readChildren {α : Type} (node : XmlNode ν) (tag : ν) (read : XmlNode ν → Option α) :
    Option (List α) :=
  ((node.child? tag).map children).getD [] |>.mapM read

/-- Nothing is found among no nodes. -/
@[simp] theorem findTag_nil (tag : ν) : findTag tag ([] : List (XmlNode ν)) = none := rfl

/-- The first node is found when it carries the tag, and else the search goes on behind it. -/
@[simp] theorem findTag_cons (tag : ν) (node : XmlNode ν) (rest : List (XmlNode ν)) :
    findTag tag (node :: rest) = if node.tag = tag then some node else findTag tag rest := by
  by_cases same : node.tag = tag <;> simp [findTag, same]

/-- What two lists find together is what the first finds, or else what the second does. -/
@[simp] theorem findTag_append (tag : ν) (first second : List (XmlNode ν)) :
    findTag tag (first ++ second) = (findTag tag first).or (findTag tag second) := by
  simp [findTag, List.find?_append]

/-- An optional leaf is found by its own tag, when it is there. -/
@[simp] theorem findTag_optional (tag other : ν) (text : Option String) :
    findTag tag (optional other text) = if other = tag then text.map (leaf other) else none := by
  cases text with
  | none => simp [optional]
  | some value => by_cases same : other = tag <;> simp [optional, same]

/-- A branch left out when empty is found by its own tag, when it has children. -/
@[simp] theorem findTag_unlessEmpty (tag other : ν) (children : List (XmlNode ν)) :
    findTag tag (unlessEmpty other children) =
      if other = tag ∧ children ≠ [] then some (branch other children) else none := by
  cases children with
  | nil => simp [unlessEmpty]
  | cons child rest => by_cases same : other = tag <;> simp [unlessEmpty, same]

/-- Items that are each read back are read back as a list. -/
theorem mapM_map_read {α β : Type} {write : α → β} {read : β → Option α} {items : List α}
    (inverse : ∀ item ∈ items, read (write item) = some item) :
    (items.map write).mapM read = some items := by
  induction items with
  | nil => rfl
  | cons item rest ih =>
    rw [List.map_cons, List.mapM_cons, inverse item List.mem_cons_self,
      ih fun other within => inverse other (List.mem_cons_of_mem item within)]
    rfl

end Read

end XmlNode

end Trusca
