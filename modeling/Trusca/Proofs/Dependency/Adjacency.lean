import Mathlib.Data.List.Induction
import Trusca.Proofs.Dependency.Lockfile

/-! The exact shape of the dependency map that is read from a document: which references it has, in which
order, and that its rendering reads back as the same map. -/

namespace Trusca

open Store

section Statements

/-- The reference of an entry, when it is valid. -/
def entryRef (entry : Json) : Option String :=
  match entry.get? "ref" with
  | some (.str ref) => if ref = "" then none else some ref
  | _ => none

/-- The valid references of some entries. -/
def validRefs (entries : List Json) : List String := entries.filterMap entryRef

/-- The references that an entry depends on. -/
def childRefs (entry : Json) : List String :=
  match entry.get? "dependsOn" with
  | some (.arr children) => refsOf children
  | _ => []

/-- What some entries declare about a parent, but for the parent itself. -/
def declaredChildren (entries : List Json) (ref : String) : List String :=
  ((entries.filter fun entry => entryRef entry = some ref).flatMap childRefs).filter (· ≠ ref)

/-- The entries of a document. -/
def entriesOf : Option Json → List Json
  | some (.arr entries) => entries
  | _ => []

/-- A map rendered as the entries of a document. -/
def renderGraph (graph : DependencyGraph) : Option Json :=
  some (.arr ((keys graph).map (renderEntry (childrenOf graph))))

/-- The entries before the first one whose reference is one too many. -/
structure ReadPart (entries front : List Json) : Prop where
  small : (distinctOn id (validRefs front)).length ≤ maxNodes
  cut : front = entries ∨ ∃ entry rest ref, entries = front ++ entry :: rest ∧ entryRef entry = some ref ∧
    ref ∉ validRefs front ∧ (distinctOn id (validRefs front)).length = maxNodes

/-- The shape of the map that is read from a document. -/
structure AdjacencyLaws (value : Option Json) (graph : DependencyGraph) : Prop where
  keys : keys graph = (distinctOn id (validRefs (entriesOf value))).take (maxNodes + 1)
  children : ∃ front, ReadPart (entriesOf value) front ∧
    ∀ ref, childrenOf graph ref = distinctOn id (declaredChildren front ref)
  again : parseDependencyGraph (renderGraph graph) = graph

end Statements

section Distinct

variable {κ : Type*} [DecidableEq κ]

/-- Leaving out what has been seen loses no item. -/
theorem mem_distinctOn_id {items : List κ} {item : κ} : item ∈ distinctOn id items ↔ item ∈ items := by
  refine ⟨mem_of_mem_distinctOn id, fun member => ?_⟩
  obtain ⟨found, selected, same⟩ := exists_mem_distinctOn id member
  obtain rfl : found = item := same
  exact selected

/-- One item more is selected when it is new. -/
theorem distinctOn_concat (items : List κ) (item : κ) :
    distinctOn id (items ++ [item]) =
      if item ∈ items then distinctOn id items else distinctOn id items ++ [item] := by
  induction items with
  | nil => rfl
  | cons first rest ih =>
    rw [List.cons_append, distinctOn, distinctOn, ih]
    -- The new item is the first one, or it is met further behind, or nowhere.
    by_cases same : item = first
    · subst same
      by_cases later : item ∈ rest
      · simp [later]
      · simp [later, List.filter_append]
    · by_cases later : item ∈ rest
      · simp [later]
      · simp [later, same, List.filter_append]

/-- What is selected of the first items is selected first. -/
theorem distinctOn_prefix_append (items more : List κ) : distinctOn id items <+: distinctOn id (items ++ more) := by
  induction more using List.reverseRecOn with
  | nil => simp
  | append_singleton front last ih =>
    rw [← List.append_assoc, distinctOn_concat]
    split_ifs
    · exact ih
    · exact ih.trans (List.prefix_append _ _)

/-- Items that are distinct already are all kept. -/
theorem distinctOn_of_nodup {items : List κ} (distinct : items.Nodup) : distinctOn id items = items := by
  induction items with
  | nil => rfl
  | cons first rest ih =>
    obtain ⟨new, later⟩ := List.nodup_cons.mp distinct
    rw [distinctOn, ih later, List.filter_eq_self.mpr]
    -- No other item is the first one, so nothing is filtered out.
    intro other listed
    refine decide_eq_true fun same => ?_
    obtain rfl : other = first := same
    exact new listed

/-- What is left names no item twice. -/
theorem distinctOn_id_nodup (items : List κ) : (distinctOn id items).Nodup := by
  simpa using distinctOn_keys_nodup id items

end Distinct

/-- Adding children one by one selects each of them once, and the parent never. -/
theorem addChildren_distinct (parent : String) (known children : List String) :
    addChildren parent (distinctOn id known) children =
      distinctOn id (known ++ children.filter (· ≠ parent)) := by
  unfold addChildren
  induction children using List.reverseRecOn with
  | nil => simp
  | append_singleton front child ih =>
    rw [List.foldl_concat, ih, List.filter_append]
    -- The parent itself is passed over; any other child is added if it is new.
    by_cases self : child = parent
    · simp [self]
    · rw [List.filter_cons_of_pos (by simpa using self), List.filter_nil, ← List.append_assoc, distinctOn_concat]
      simp only [self, false_or, mem_distinctOn_id]

section Reading

variable {entry : Json} {entries front rest : List Json} {graph : DependencyGraph} {ref : String}

/-- A map that shows what some entries say. -/
structure Shows (graph : DependencyGraph) (entries : List Json) : Prop where
  refs : keys graph = distinctOn id (validRefs entries)
  lists : ∀ ref, childrenOf graph ref = distinctOn id (declaredChildren entries ref)

/-- The reference of an entry is the text under `ref`, when that is not empty. -/
theorem entryRef_eq_some : entryRef entry = some ref ↔ entry.get? "ref" = some (.str ref) ∧ ref ≠ "" := by
  unfold entryRef
  split
  · -- The entry has a text under `ref`; only the empty one is turned away.
    next other found =>
    rw [found]
    by_cases blank : other = ""
    · subst blank
      simp
    · simp only [blank, if_false, Option.some.injEq, Json.str.injEq]
      constructor
      · rintro rfl
        exact ⟨rfl, blank⟩
      · exact And.left
  · -- Anything else under `ref` is no reference.
    next other =>
    refine iff_of_false nofun ?_
    rintro ⟨found, -⟩
    exact other ref found

/-- What an entry adds to the map, while there is room. -/
def absorbEntry (graph : DependencyGraph) (ref : String) (entry : Json) : DependencyGraph :=
  let known := if ref ∈ keys graph then graph else graph ++ [(ref, [])]
  match entry.get? "dependsOn" with
  | some (.arr children) => put known ref (addChildren ref (childrenOf known ref) (refsOf children))
  | _ => known

/-- An entry without a valid reference is passed over. -/
theorem readEntries_skip (invalid : entryRef entry = none) :
    readEntries (entry :: rest) graph = readEntries rest graph := by
  rw [readEntries]
  -- A text under `ref` would have to be empty to be no reference.
  split
  · next ref found =>
    by_cases blank : ref = ""
    · rw [if_pos blank]
    · rw [entryRef_eq_some.mpr ⟨found, blank⟩] at invalid
      cases invalid
  · rfl

/-- An entry with a valid reference is read, unless the reference is one too many. -/
theorem readEntries_read (valid : entryRef entry = some ref) :
    readEntries (entry :: rest) graph =
      if (if ref ∈ keys graph then graph else graph ++ [(ref, [])]).length > maxNodes then
        if ref ∈ keys graph then graph else graph ++ [(ref, [])]
      else readEntries rest (absorbEntry graph ref entry) := by
  obtain ⟨found, text⟩ := entryRef_eq_some.mp valid
  rw [readEntries, found]
  dsimp only
  rw [if_neg text]
  unfold absorbEntry
  dsimp only
  -- What is absorbed depends on the list of children alone, if there is one.
  refine if_congr Iff.rfl rfl ?_
  cases lists : entry.get? "dependsOn" with
  | none => rfl
  | some value => cases value <;> rfl

/-- Without entries nothing is shown. -/
theorem Shows.nil : Shows [] [] where
  refs := rfl
  lists _ := rfl

/-- No package is a key twice. -/
theorem Shows.nodup (shows : Shows graph entries) : (keys graph).Nodup := by
  rw [shows.refs]
  exact distinctOn_id_nodup _

/-- An entry without a reference adds nothing to what is shown. -/
theorem Shows.skip (shows : Shows graph front) (invalid : entryRef entry = none) : Shows graph (front ++ [entry]) := by
  have refs : validRefs (front ++ [entry]) = validRefs front := by simp [validRefs, invalid]
  have declared (ref : String) : declaredChildren (front ++ [entry]) ref = declaredChildren front ref := by
    simp [declaredChildren, invalid]
  exact ⟨refs ▸ shows.refs, fun ref => declared ref ▸ shows.lists ref⟩

/-- The parent of an entry is a key, whether or not it was one. -/
theorem Shows.known (shows : Shows graph front) (valid : entryRef entry = some ref) :
    keys (if ref ∈ keys graph then graph else graph ++ [(ref, [])]) = distinctOn id (validRefs (front ++ [entry])) := by
  have refs : validRefs (front ++ [entry]) = validRefs front ++ [ref] := by simp [validRefs, valid]
  have member : ref ∈ keys graph ↔ ref ∈ validRefs front := by rw [shows.refs, mem_distinctOn_id]
  -- Known before or new: the distinct references go the same way.
  rw [refs, distinctOn_concat, ← shows.refs]
  split_ifs with there listed listed
  · rfl
  · exact absurd (member.mp there) listed
  · exact absurd (member.mpr listed) there
  · rw [keys_append]
    rfl

/-- Making a package known gives it no dependencies. -/
theorem childrenOf_known (other : String) :
    childrenOf (if ref ∈ keys graph then graph else graph ++ [(ref, [])]) other = childrenOf graph other := by
  split_ifs with there
  · rfl
  · unfold childrenOf
    rw [List.lookup_append]
    -- The new reference starts without children.
    by_cases same : other = ref
    · subst same
      have missing : graph.lookup other = none := by
        rwa [mem_keys_iff_lookup, Option.not_isSome_iff_eq_none] at there
      simp [missing]
    · simp [List.lookup_cons, beq_eq_false_iff_ne.mpr same]

/-- Absorbing an entry adds at most its own reference to the keys. -/
theorem keys_absorbEntry :
    keys (absorbEntry graph ref entry) = keys (if ref ∈ keys graph then graph else graph ++ [(ref, [])]) := by
  -- The reference is in the graph by the time its children are put there.
  have there : ref ∈ keys (if ref ∈ keys graph then graph else graph ++ [(ref, [])]) := by
    split_ifs with known
    · exact known
    · simp
  unfold absorbEntry
  dsimp only
  split
  · exact keys_put_of_mem there _
  · rfl

/-- The children of an entry are added to those of its parent, and to no others. -/
theorem childrenOf_absorbEntry (other : String) :
    childrenOf (absorbEntry graph ref entry) other =
      if other = ref then addChildren ref (childrenOf graph ref) (childRefs entry) else childrenOf graph other := by
  unfold absorbEntry childRefs
  dsimp only
  -- With a list of children it is put under the reference, without one nothing changes.
  split
  · rw [childrenOf_put, childrenOf_known, childrenOf_known]
  · rw [childrenOf_known]
    split_ifs with same
    · rw [same]
      rfl
    · rfl

/-- An entry that is read is shown. -/
theorem Shows.read (shows : Shows graph front) (valid : entryRef entry = some ref) :
    Shows (absorbEntry graph ref entry) (front ++ [entry]) where
  refs := keys_absorbEntry.trans (shows.known valid)
  lists other := by
    -- Only the entry's own reference gets more children declared.
    have declared : declaredChildren (front ++ [entry]) other = declaredChildren front other ++
        if other = ref then (childRefs entry).filter (· ≠ ref) else [] := by
      unfold declaredChildren
      by_cases same : other = ref
      · subst same
        simp [valid]
      · simp [valid, same, Ne.symm same]
    rw [childrenOf_absorbEntry, declared]
    split_ifs with same
    · subst same
      rw [shows.lists, addChildren_distinct]
    · rw [List.append_nil, shows.lists]

/-- What reading leaves: a map of all entries, or of those before a reference that is one too many, and that
reference without children. -/
theorem readEntries_shows (rest front : List Json) (shows : Shows graph front)
    (small : graph.length ≤ maxNodes) :
    (Shows (readEntries rest graph) (front ++ rest) ∧ (readEntries rest graph).length ≤ maxNodes) ∨
      ∃ middle entry behind ref part, rest = middle ++ entry :: behind ∧ Shows part (front ++ middle) ∧
        entryRef entry = some ref ∧ ref ∉ keys part ∧ part.length = maxNodes ∧
        readEntries rest graph = part ++ [(ref, [])] := by
  -- Along the entries, with what has been read already in `front`.
  induction rest generalizing graph front with
  | nil =>
    rw [List.append_nil]
    exact .inl ⟨shows, small⟩
  | cons entry rest ih =>
    cases valid : entryRef entry with
    -- An entry without a reference is skipped and shows nothing.
    | none =>
      rw [readEntries_skip valid]
      obtain whole | ⟨middle, last, behind, ref, part, rfl, found, more⟩ := ih (front ++ [entry]) (shows.skip valid) small
      · rw [List.append_cons]
        exact .inl whole
      · exact .inr ⟨entry :: middle, last, behind, ref, part, rfl, by rwa [List.append_cons], more⟩
    | some ref =>
      rw [readEntries_read valid]
      -- The count is taken after the reference has been put in, so the loop breaks one past the cap.
      by_cases full : (if ref ∈ keys graph then graph else graph ++ [(ref, [])]).length > maxNodes
      · rw [if_pos full]
        -- Only a new reference can take the count past the cap.
        have known : ref ∉ keys graph := by
          intro known
          rw [if_pos known] at full
          omega
        rw [if_neg known, List.length_append, List.length_singleton] at full
        rw [if_neg known]
        exact .inr ⟨[], entry, rest, ref, graph, rfl, by rwa [List.append_nil], valid, known, by omega, rfl⟩
      · -- There is room: the entry is absorbed and the loop goes on.
        rw [if_neg full]
        have room : (absorbEntry graph ref entry).length ≤ maxNodes := by
          rw [← length_keys, keys_absorbEntry, length_keys]
          exact Nat.le_of_not_gt full
        obtain whole | ⟨middle, last, behind, other, part, rfl, found, more⟩ :=
          ih (front ++ [entry]) (shows.read valid) room
        · rw [List.append_cons]
          exact .inl whole
        · exact .inr ⟨entry :: middle, last, behind, other, part, rfl, by rwa [List.append_cons], more⟩

end Reading

section Rendering

variable {graph : DependencyGraph} {entries front rest : List Json} {ref : String}

/-- The children that are shown of a reference can be added to nothing as they are. -/
theorem Shows.settled (shows : Shows graph entries) (ref : String) :
    addChildren ref [] (refsOf ((childrenOf graph ref).map Json.str)) = childrenOf graph ref := by
  -- The children that were read are texts, not empty and not the entry's own.
  have text : ∀ child ∈ childrenOf graph ref, child ≠ "" ∧ child ≠ ref := by
    intro child listed
    rw [shows.lists, mem_distinctOn_id] at listed
    obtain ⟨declared, other⟩ := List.mem_filter.mp listed
    refine ⟨?_, of_decide_eq_true other⟩
    obtain ⟨entry, -, member⟩ := List.mem_flatMap.mp declared
    unfold childRefs at member
    split at member
    · obtain ⟨value, -, found⟩ := List.mem_filterMap.mp member
      split at found
      · split_ifs at found with blank
        exact Option.some.inj found ▸ blank
      · exact nomatch found
    · exact nomatch member
  -- Written out and read again they are the same texts.
  have read : refsOf ((childrenOf graph ref).map Json.str) = childrenOf graph ref := by
    unfold refsOf
    rw [List.filterMap_map]
    refine (List.filterMap_congr fun child listed => ?_).trans List.filterMap_some
    exact if_neg (text child listed).1
  -- No child is listed twice.
  have distinct : (childrenOf graph ref).Nodup := by
    rw [shows.lists]
    exact distinctOn_id_nodup _
  -- Adding distinct children to an empty list gives the list itself.
  have added := addChildren_distinct ref [] (childrenOf graph ref)
  rw [List.nil_append, List.filter_eq_self.mpr fun child listed => decide_eq_true (text child listed).2,
    distinctOn_of_nodup distinct] at added
  rw [read]
  exact added

/-- Entries are read back as they are, as long as there is room. -/
theorem cutEntries_append (children : String → List String) (refs : List String) (room : Nat)
    (own : ∀ item ∈ graph, addChildren item.1 [] (refsOf ((children item.1).map Json.str)) = item.2)
    (small : graph.length ≤ room) :
    cutEntries children room (keys graph ++ refs) = graph ++ cutEntries children (room - graph.length) refs := by
  induction graph generalizing room with
  | nil => rfl
  | cons item rest ih =>
    -- There is room for every item of the graph.
    cases room with
    | zero => exact absurd small (by simp)
    | succ room =>
      rw [keys_cons, List.cons_append, cutEntries, ih room fun other later => own other (List.mem_cons_of_mem _ later)]
      · -- The item's children are read as they were, and one place less is left.
        rw [own item List.mem_cons_self, List.length_cons, Nat.succ_sub_succ, List.cons_append]
      · simpa using small

/-- The dependencies of a listed package are those it is listed with. -/
theorem childrenOf_mem (distinct : (keys graph).Nodup) {item : String × List String} (listed : item ∈ graph) :
    childrenOf graph item.1 = item.2 := by
  unfold childrenOf
  rw [(lookup_eq_some distinct).mpr listed]
  rfl

/-- A rendered map is read like its references with their children. -/
theorem parse_renderGraph (distinct : (keys graph).Nodup) (named : ∀ ref ∈ keys graph, ref ≠ "") :
    parseDependencyGraph (renderGraph graph) = cutEntries (childrenOf graph) maxNodes (keys graph) := by
  have read := readEntries_render (childrenOf graph) (keys graph) [] maxNodes named distinct (by simp) (by simp)
  rw [List.nil_append] at read
  exact read

/-- No package has the empty text as its reference. -/
theorem Shows.named (shows : Shows graph entries) : ∀ ref ∈ keys graph, ref ≠ "" := by
  intro ref listed
  rw [shows.refs, mem_distinctOn_id] at listed
  obtain ⟨entry, -, valid⟩ := List.mem_filterMap.mp listed
  exact (entryRef_eq_some.mp valid).2

/-- A graph that is small enough is read back from what is rendered of it. -/
theorem Shows.again (shows : Shows graph entries) (small : graph.length ≤ maxNodes) :
    parseDependencyGraph (renderGraph graph) = graph := by
  -- Each reference's children are read back as they are.
  have own : ∀ item ∈ graph,
      addChildren item.1 [] (refsOf ((childrenOf graph item.1).map Json.str)) = item.2 := by
    intro item listed
    rw [shows.settled, childrenOf_mem shows.nodup listed]
  have read := cutEntries_append (childrenOf graph) [] maxNodes own small
  rw [List.append_nil] at read
  -- And the whole graph fits, so nothing is cut.
  rw [parse_renderGraph shows.nodup shows.named, read]
  cases maxNodes - graph.length <;> exact List.append_nil _

/-- With a reference too many the map is read back, too: that reference has no children. -/
theorem Shows.again_full (shows : Shows graph entries) (full : graph.length = maxNodes) (new : ref ∉ keys graph)
    (text : ref ≠ "") :
    parseDependencyGraph (renderGraph (graph ++ [(ref, [])])) = graph ++ [(ref, [])] := by
  -- The graph keeps its references, with the one past the cap behind them.
  have refs : keys (graph ++ [(ref, [])]) = keys graph ++ [ref] := keys_append ..
  have distinct : (keys (graph ++ [(ref, [])])).Nodup := by
    rw [refs, ← List.concat_eq_append]
    exact shows.nodup.concat new
  -- None of them is empty, so each rendered entry is read.
  have named : ∀ other ∈ keys (graph ++ [(ref, [])]), other ≠ "" := by
    intro other listed
    rw [refs] at listed
    obtain old | last := List.mem_append.mp listed
    · exact shows.named other old
    · exact List.mem_singleton.mp last ▸ text
  -- Each entry's children are read back as they were written.
  have own : ∀ item ∈ graph,
      addChildren item.1 [] (refsOf ((childrenOf (graph ++ [(ref, [])]) item.1).map Json.str)) = item.2 := by
    intro item listed
    rw [childrenOf_mem distinct (List.mem_append_left _ listed), ← childrenOf_mem shows.nodup listed]
    exact shows.settled item.1
  -- The rendered graph is cut at the cap, and the cap lies right behind the old part.
  rw [parse_renderGraph distinct named, refs, cutEntries_append _ [ref] maxNodes own full.le, full, Nat.sub_self]
  rfl

end Rendering

/-- Parsing a graph is reading its entries into the empty one. -/
theorem parseDependencyGraph_eq (value : Option Json) :
    parseDependencyGraph value = readEntries (entriesOf value) [] := by
  cases value with
  | none => rfl
  | some value => cases value <;> rfl

/-- The references of the map are the first valid ones, up to one more than the limit. -/
theorem keys_parseDependencyGraph (value : Option Json) :
    keys (parseDependencyGraph value) = (distinctOn id (validRefs (entriesOf value))).take (maxNodes + 1) := by
  rw [parseDependencyGraph_eq]
  obtain ⟨shows, small⟩ | ⟨middle, entry, behind, ref, part, cut, shows, valid, new, full, read⟩ :=
    -- Either everything was read, or the loop broke one entry past the cap.
    readEntries_shows (entriesOf value) [] Shows.nil (Nat.zero_le _)
  · -- All references fit, and the take is of the whole list.
    rw [List.nil_append] at shows
    have count : (distinctOn id (validRefs (entriesOf value))).length ≤ maxNodes := by
      rwa [← shows.refs, length_keys]
    rw [List.take_of_length_le (Nat.le_succ_of_le count), shows.refs]
  · -- The last reference is new, so the distinct references go on behind those read.
    rw [List.nil_append] at shows
    have known := shows.known valid
    rw [if_neg new] at known
    have split : validRefs (entriesOf value) = validRefs (middle ++ [entry]) ++ validRefs behind := by
      rw [cut, List.append_cons]
      exact List.filterMap_append
    -- Reading more entries only appends to the distinct references.
    have first := distinctOn_prefix_append (validRefs (middle ++ [entry])) (validRefs behind)
    rw [← split, ← known] at first
    have count : (keys (part ++ [(ref, [])])).length = maxNodes + 1 := by
      rw [length_keys, List.length_append, full]
      rfl
    rw [read, ← count]
    exact List.prefix_iff_eq_take.mp first

/-- The references of the map are the first valid ones up to one more than the limit; each has the children that
the entries before the one that goes past the limit declare; and the map is read back from its rendering. -/
theorem parseDependencyGraph_laws (value : Option Json) : AdjacencyLaws value (parseDependencyGraph value) := by
  have refs := keys_parseDependencyGraph value
  rw [parseDependencyGraph_eq] at refs ⊢
  -- The same two cases as for the references.
  obtain ⟨shows, small⟩ | ⟨middle, entry, behind, ref, part, cut, shows, valid, new, full, read⟩ :=
    readEntries_shows (entriesOf value) [] Shows.nil (Nat.zero_le _)
  · rw [List.nil_append] at shows
    have count : (distinctOn id (validRefs (entriesOf value))).length ≤ maxNodes := by
      rwa [← shows.refs, length_keys]
    exact ⟨refs, ⟨entriesOf value, ⟨count, .inl rfl⟩, shows.lists⟩, shows.again small⟩
  · rw [List.nil_append] at shows
    have count : (distinctOn id (validRefs middle)).length = maxNodes := by rw [← shows.refs, length_keys, full]
    have unseen : ref ∉ validRefs middle := by rwa [← mem_distinctOn_id, ← shows.refs]
    refine ⟨refs, ⟨middle, ⟨count.le, .inr ⟨entry, behind, ref, cut, valid, unseen, count⟩⟩, fun other => ?_⟩, ?_⟩
    · -- The entry the loop broke at has its reference but no children yet.
      have known := @childrenOf_known part ref other
      rw [if_neg new] at known
      rw [read, known, shows.lists]
    · -- Rendered and parsed again, the loop breaks at the same entry.
      rw [read]
      exact shows.again_full full new (entryRef_eq_some.mp valid).2

/-- Entries with references of different lengths. -/
def longEntries (count : Nat) : List Json :=
  (List.range count).map fun index => .obj [("ref", .str (String.ofList (List.replicate (index + 1) 'r')))]

/-- A document with one reference more than the limit is read with all of them. -/
theorem parseDependencyGraph_overLimit :
    ¬ ∀ value : Option Json, (keys (parseDependencyGraph value)).length ≤ maxNodes := by
  intro always
  -- As many references as the cap and one more, each a run of r of its own length.
  have refs : validRefs (longEntries (maxNodes + 1)) =
      (List.range (maxNodes + 1)).map fun index => String.ofList (List.replicate (index + 1) 'r') := by
    unfold validRefs longEntries
    rw [List.filterMap_map, ← List.filterMap_eq_map]
    refine List.filterMap_congr fun index _ => entryRef_eq_some.mpr ⟨rfl, fun blank => ?_⟩
    exact absurd (congrArg String.length blank) (by simp)
  -- Runs of different length are different texts.
  have distinct : (validRefs (longEntries (maxNodes + 1))).Nodup := by
    rw [refs]
    refine List.nodup_range.map fun first second same => ?_
    simpa using congrArg String.length same
  have excess := always (some (.arr (longEntries (maxNodes + 1))))
  have length : (validRefs (longEntries (maxNodes + 1))).length = maxNodes + 1 := by
    rw [refs, List.length_map, List.length_range]
  -- All of them are kept, which is one more than the cap.
  rw [keys_parseDependencyGraph, entriesOf, distinctOn_of_nodup distinct, List.take_of_length_le length.le, length] at excess
  exact absurd excess (Nat.not_succ_le_self _)

end Trusca
