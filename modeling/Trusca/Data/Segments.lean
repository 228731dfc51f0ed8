import Mathlib.Data.List.Basic
import Mathlib.Data.List.DropRight
import Trusca.Data.Lines

/-! Texts of segments: how a text is parted at one character, and which texts lead which. -/

namespace Trusca

/-- What stands before the first place of a character, whether there is one, and what follows it. -/
def partition (separator : Char) (text : String) : String × Bool × String :=
  (String.ofList (text.toList.takeWhile (· != separator)), text.toList.contains separator,
    String.ofList ((text.toList.dropWhile (· != separator)).drop 1))

/-- The text without a character at its ends. -/
def stripOf (unwanted : Char) (text : String) : String :=
  String.ofList ((text.toList.dropWhile (· == unwanted)).rdropWhile (· == unwanted))

/-- Whether a text starts with another. -/
def startsWith (text start : String) : Bool := start.toList.isPrefixOf text.toList

/-- Whether a pattern stands anywhere in a text. -/
def containsText (text : String) (pattern : String) : Bool :=
  (rfind text.toList pattern.toList).isSome

/-- The parts of a text between the places of a character. -/
def segmentsOf (separator : Char) (text : String) : List String :=
  (text.toList.splitOn separator).map String.ofList

section Partition

variable {separator : Char} {first : String}

/-- A text is parted at the character that follows a text without it. -/
theorem partition_append (plain : separator ∉ first.toList) (rest : String) :
    partition separator (first ++ String.singleton separator ++ rest) = (first, true, rest) := by
  -- Before the separator no character ends the run.
  have before : ∀ character ∈ first.toList, (character != separator) = true := by
    intro character within
    rw [bne_iff_ne]
    rintro rfl
    exact plain within
  -- What is left behind the run starts with the separator.
  have written : (first ++ String.singleton separator ++ rest).toList =
      first.toList ++ separator :: rest.toList := by
    simp
  unfold partition
  rw [written, List.takeWhile_append_of_pos before, List.dropWhile_append_of_pos before]
  simp

/-- A text without the character is not parted. -/
theorem partition_plain (plain : separator ∉ first.toList) :
    partition separator first = (first, false, "") := by
  -- The separator does not occur, so the run takes the whole text.
  have before : ∀ character ∈ first.toList, (character != separator) = true := by
    intro character within
    rw [bne_iff_ne]
    rintro rfl
    exact plain within
  have none_left : first.toList.dropWhile (· != separator) = [] :=
    List.dropWhile_eq_nil_iff.mpr before
  unfold partition
  rw [List.takeWhile_eq_self_iff.mpr before, none_left]
  simp [plain]

/-- The parts with the character between them are the text. -/
theorem partition_join (separator : Char) (text : String) :
    (partition separator text).1 ++
      ((if (partition separator text).2.1 then String.singleton separator else "") ++
        (partition separator text).2.2) = text := by
  by_cases within : separator ∈ text.toList
  · -- The first place of the character parts the text.
    obtain ⟨front, back, split, plain⟩ := List.eq_append_cons_of_mem within
    have written : text = String.ofList front ++ String.singleton separator ++ String.ofList back := by
      rw [← String.toList_inj]
      simp [split]
    rw [written, partition_append (by simpa using plain)]
    simp only [if_true]
    exact String.append_assoc.symm
  · rw [partition_plain within]
    simp

end Partition

/-- What is stripped starts with no space. -/
theorem head_strip (text : String) : ∀ character ∈ (strip text).toList.head?, ¬ isSpace character := by
  intro character head
  have fixed : (strip text).toList.dropWhile isSpace = (strip text).toList := by
    -- Stripping again would otherwise shorten the text.
    have again := congrArg (List.length ∘ String.toList) (strip_strip text)
    simp only [Function.comp_apply, toList_strip (strip text)] at again
    refine (List.dropWhile_suffix isSpace).eq_of_length ?_
    have shorter := (List.rdropWhile_prefix isSpace ((strip text).toList.dropWhile isSpace)).length_le
    have longest := (List.dropWhile_suffix (l := (strip text).toList) isSpace).length_le
    omega
  cases characters : (strip text).toList with
  | nil => simp [characters] at head
  | cons first rest =>
    rw [characters] at head fixed
    cases Option.some.inj head
    intro space
    rw [List.dropWhile_cons_of_pos space] at fixed
    have shorter := (List.dropWhile_suffix (l := rest) isSpace).length_le
    rw [fixed, List.length_cons] at shorter
    omega

/-- What is stripped ends with no space. -/
theorem getLast_strip (text : String) :
    ∀ character ∈ (strip text).toList.getLast?, ¬ isSpace character := by
  intro character last
  rw [toList_strip] at last
  obtain ⟨nonempty, rfl⟩ := List.mem_getLast?_eq_getLast last
  exact List.rdropWhile_last_not _ _ nonempty

/-- Nothing is taken from a text that the character neither starts nor ends. -/
theorem stripOf_eq_self {unwanted : Char} {text : String} (start : text.toList.head? ≠ some unwanted)
    (finish : text.toList.getLast? ≠ some unwanted) : stripOf unwanted text = text := by
  rw [← String.toList_inj, stripOf, String.toList_ofList]
  -- At the start nothing has to go.
  have left : text.toList.dropWhile (· == unwanted) = text.toList := by
    cases characters : text.toList with
    | nil => rfl
    | cons character rest =>
      rw [characters] at start
      exact List.dropWhile_cons_of_neg (by simpa using start)
  -- And nothing at the end.
  rw [left, List.rdropWhile_eq_self_iff]
  intro nonempty last
  rw [beq_iff_eq] at last
  exact finish (by rw [List.getLast?_eq_getLast_of_ne_nil nonempty, last])

section Leading

variable {separator : Char} {start text : List Char}

/-- Two runs of segments have one separator more between them. -/
theorem intercalate_append {α : Type} {separator : α} {first second : List (List α)} (one : first ≠ [])
    (two : second ≠ []) :
    [separator].intercalate (first ++ second) =
      [separator].intercalate first ++ separator :: [separator].intercalate second := by
  induction first with
  | nil => exact absurd rfl one
  | cons segment rest ih =>
    -- The last segment has no separator behind it; any other has one.
    cases rest with
    | nil => simp [List.intercalate_cons_of_ne_nil two]
    | cons next rest =>
      have step {tail : List (List α)} (more : tail ≠ []) : [separator].intercalate (segment :: tail) =
          segment ++ [separator] ++ [separator].intercalate tail :=
        List.intercalate_cons_of_ne_nil more
      rw [List.cons_append, step (by simp), ih (by simp), step (by simp)]
      simp

/-- What stands in a row of segments is the separator or stands in one of them. -/
theorem mem_intercalate {α : Type} {separator item : α} {segments : List (List α)}
    (within : item ∈ [separator].intercalate segments) :
    item = separator ∨ ∃ segment ∈ segments, item ∈ segment := by
  induction segments with
  | nil => simp at within
  | cons segment rest ih =>
    -- By the first segment, the separator behind it, and the rest.
    by_cases last : rest = []
    · subst last
      exact .inr ⟨segment, List.mem_singleton.mpr rfl, by simpa using within⟩
    · rw [List.intercalate_cons_of_ne_nil last, List.mem_append, List.mem_append] at within
      obtain (here | between) | later := within
      · exact .inr ⟨segment, List.mem_cons_self, here⟩
      · exact .inl (List.mem_singleton.mp between)
      · obtain same | ⟨other, listed, inside⟩ := ih later
        · exact .inl same
        · exact .inr ⟨other, List.mem_cons_of_mem _ listed, inside⟩

/-- What is inside of a segment is inside of the joined segments. -/
theorem mem_intercalate_of_mem {α : Type} {separator item : α} {segments : List (List α)} {segment : List α}
    (listed : segment ∈ segments) (inside : item ∈ segment) : item ∈ [separator].intercalate segments := by
  induction segments with
  | nil => cases listed
  | cons first rest ih =>
    -- A last segment is the whole text; any other stands in front.
    by_cases last : rest = []
    · subst last
      rw [List.mem_singleton] at listed
      simpa [← listed] using inside
    · rw [List.intercalate_cons_of_ne_nil last, List.mem_append, List.mem_append]
      obtain rfl | later := List.mem_cons.mp listed
      · exact .inl (.inl inside)
      · exact .inr (ih later)

/-- A text is parted alike by two tests that agree on its characters. -/
theorem splitOnP_congr {α : Type} {one other : α → Bool} {text : List α}
    (agree : ∀ item ∈ text, one item = other item) : text.splitOnP one = text.splitOnP other := by
  induction text with
  | nil => rfl
  | cons item rest ih =>
    obtain ⟨here, later⟩ := List.forall_mem_cons.mp agree
    rw [List.splitOnP_cons_eq_if_modifyHead, List.splitOnP_cons_eq_if_modifyHead, here, ih later]

/-- A text is led by another up to a separator exactly when its segments are. -/
theorem splitOn_prefix_iff :
    text = start ∨ (start ++ [separator]) <+: text ↔ start.splitOn separator <+: text.splitOn separator := by
  constructor
  · intro leads
    obtain rfl | ⟨rest, rfl⟩ := leads
    · exact List.prefix_rfl
    · rw [List.append_assoc, List.singleton_append, List.splitOn_append_cons_self]
      exact List.prefix_append _ _
  · intro leads
    obtain ⟨more, split⟩ := leads
    -- The text is its segments with separators between them.
    have whole : [separator].intercalate (start.splitOn separator ++ more) = text := by
      rw [split, List.intercalate_splitOn]
    cases more with
    | nil =>
      rw [List.append_nil, List.intercalate_splitOn] at whole
      exact .inl whole.symm
    | cons next more =>
      rw [intercalate_append (List.splitOn_ne_nil _ _) (by simp), List.intercalate_splitOn] at whole
      exact .inr ⟨_, by rw [List.append_assoc]; exact whole⟩

end Leading

end Trusca
