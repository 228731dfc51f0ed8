import Mathlib.Data.Set.Finite.List
import Mathlib.Data.Set.Finite.Range
import Trusca.Registry.AllowList

/-! An allow-list admits the repositories that it names, and a tag can hide the name of one. -/

namespace Trusca

/-- A path as one text. -/
def joinPath : List String → String
  | [] => ""
  | [name] => name
  | name :: rest => name ++ "/" ++ joinPath rest

/-- A text that stands between the slashes of a reference. -/
def isRefWord (text : String) : Bool :=
  text != "" && text.toList.all fun character => character != '/' && !isSpace character

/-- A segment of a repository path, which a tag or a digest may follow. -/
def isPathSegment (text : String) : Bool :=
  isRefWord text && text.toList.all fun character => character != ':' && character != '@'

/-- A repository: an optional registry host, and a path of one or more segments. -/
structure Repository where
  host : Option String
  parents : List String
  name : String
  /-- A host is told from a namespace by its text, which is ASCII. -/
  hosts : ∀ text ∈ host, isRefWord text ∧ isHostSegment text ∧ text.toList.all (·.toNat < 128)
  segments : ∀ segment ∈ parents ++ [name], isPathSegment segment
  /-- Without a host, what stands before the first slash is a namespace. -/
  unhosted : host = none → ∀ first ∈ parents.head?, ¬ isHostSegment first

/-- What follows the path in a reference: an optional tag and an optional digest. -/
structure RefSuffix where
  tag : Option String
  digest : Option String
  tags : ∀ text ∈ tag, isRefWord text
  digests : ∀ text ∈ digest, isRefWord text

namespace RefSuffix

def text (suffix : RefSuffix) : String :=
  (suffix.tag.map (":" ++ ·)).getD "" ++ (suffix.digest.map ("@" ++ ·)).getD ""

end RefSuffix

namespace Repository

/-- The repository path. -/
def path (repo : Repository) : List String := repo.parents ++ [repo.name]

/-- The repository path with a tag and a digest at its end. -/
def tagged (repo : Repository) (suffix : RefSuffix) : List String :=
  repo.parents ++ [repo.name ++ suffix.text]

/-- The reference to an image of the repository. -/
def reference (repo : Repository) (suffix : RefSuffix) : String :=
  (repo.host.map (· ++ "/")).getD "" ++ joinPath (repo.tagged suffix)

/-- The host that the references to the repository resolve to. -/
def resolvedHost (repo : Repository) : String := (repo.host.map lower).getD defaultRegistry

end Repository

/-- The segments of the path of an entry. -/
def entrySegments (entry : String) : List String := segmentsOf '/' (splitEntry entry).2

/-- Some entry for the host of a repository has an empty path or one that leads the repository's. -/
def Admits (allowed : List String) (repo : Repository) : Prop :=
  ∃ entry ∈ allowed, (splitEntry entry).1 = repo.resolvedHost ∧
    ((splitEntry entry).2 = "" ∨ entrySegments entry <+: repo.path)

/-- Some entry for the host has an empty path or one that leads the parents of the repository. -/
def Covers (allowed : List String) (repo : Repository) : Prop :=
  ∃ entry ∈ allowed, (splitEntry entry).1 = repo.resolvedHost ∧
    ((splitEntry entry).2 = "" ∨ entrySegments entry <+: repo.parents)

/-- Some entry for the host of a repository has exactly these segments. -/
def Names (allowed : List String) (repo : Repository) (segments : List String) : Prop :=
  ∃ entry ∈ allowed, (splitEntry entry).1 = repo.resolvedHost ∧ entrySegments entry = segments

section Texts

/-- A word of a reference is not empty and holds neither slash nor space. -/
theorem isRefWord_iff {text : String} : isRefWord text ↔
    text ≠ "" ∧ ∀ character ∈ text.toList, character ≠ '/' ∧ ¬ isSpace character := by
  simp [isRefWord]

/-- What a path is written with: slashes and the characters of its names. -/
theorem mem_joinPath {segments : List String} {character : Char}
    (within : character ∈ (joinPath segments).toList) :
    character = '/' ∨ ∃ segment ∈ segments, character ∈ segment.toList := by
  -- Along the segments, as the path is joined.
  induction segments using joinPath.induct with
  | case1 => exact absurd within (by simp [joinPath])
  | case2 segment => exact .inr ⟨segment, List.mem_singleton.mpr rfl, by simpa [joinPath] using within⟩
  | case3 segment rest more ih =>
    rw [joinPath.eq_3 _ _ more] at within
    simp only [String.toList_append, List.mem_append] at within
    -- Of the first segment, the slash behind it, or a later one.
    obtain (first | slash) | later := within
    · exact .inr ⟨segment, List.mem_cons_self, first⟩
    · exact .inl (by simpa using slash)
    · obtain same | ⟨other, listed, inside⟩ := ih later
      · exact .inl same
      · exact .inr ⟨other, List.mem_cons_of_mem _ listed, inside⟩

/-- A joined path is its segments with slashes between them. -/
theorem toList_joinPath (segments : List String) :
    (joinPath segments).toList = ['/'].intercalate (segments.map String.toList) := by
  induction segments using joinPath.induct with
  | case1 => rfl
  | case2 segment => simp [joinPath]
  | case3 segment rest more ih =>
    -- Further segments are there, so a slash stands between.
    have rest_ne : rest.map String.toList ≠ [] := by
      intro none_left
      exact more (List.map_eq_nil_iff.mp none_left)
    rw [joinPath.eq_3 _ _ more, List.map_cons, List.intercalate_cons_of_ne_nil rest_ne]
    simp [ih]

/-- The segments of a path without slashes in them are read back. -/
theorem segmentsOf_joinPath {segments : List String} (nonempty : segments ≠ [])
    (plain : ∀ segment ∈ segments, '/' ∉ segment.toList) :
    segmentsOf '/' (joinPath segments) = segments := by
  have parts : ∀ part ∈ segments.map String.toList, '/' ∉ part := by
    intro part listed
    obtain ⟨segment, member, rfl⟩ := List.mem_map.mp listed
    exact plain segment member
  rw [segmentsOf, toList_joinPath, List.splitOn_intercalate '/' parts (by simpa using nonempty),
    List.map_map]
  simp

/-- A joined path begins with its first segment. -/
theorem joinPath_cons (first : String) (rest : List String) :
    ∃ after, (joinPath (first :: rest)).toList = first.toList ++ after := by
  cases rest with
  | nil => exact ⟨[], by simp [joinPath]⟩
  | cons next rest => exact ⟨'/' :: (joinPath (next :: rest)).toList, by simp [joinPath]⟩

/-- A joined path ends in its last segment. -/
theorem joinPath_concat (front : List String) (last : String) :
    ∃ before, (joinPath (front ++ [last])).toList = before ++ last.toList := by
  induction front with
  | nil => exact ⟨[], by simp [joinPath]⟩
  | cons segment front ih =>
    obtain ⟨before, written⟩ := ih
    refine ⟨segment.toList ++ '/' :: before, ?_⟩
    rw [List.cons_append, joinPath.eq_3 _ _ (by simp)]
    simp [written]

/-- Nothing is stripped from a path whose segments are words. -/
theorem stripOf_joinPath {segments : List String} (words : ∀ segment ∈ segments, isRefWord segment) :
    stripOf '/' (joinPath segments) = joinPath segments := by
  refine stripOf_eq_self ?_ ?_
  · -- The path starts as its first segment does.
    cases segments with
    | nil => simp [joinPath]
    | cons first rest =>
      obtain ⟨nonempty, plain⟩ := isRefWord_iff.mp (words first List.mem_cons_self)
      obtain ⟨after, written⟩ := joinPath_cons first rest
      rw [written, List.head?_append_of_ne_nil _ (by simpa using nonempty)]
      intro slash
      exact (plain '/' (List.mem_of_mem_head? slash)).1 rfl
  · -- The path ends as its last segment does.
    induction segments using List.reverseRecOn with
    | nil => simp [joinPath]
    | append_singleton front last _ =>
      obtain ⟨nonempty, plain⟩ := isRefWord_iff.mp (words last (by simp))
      obtain ⟨before, written⟩ := joinPath_concat front last
      rw [written, List.getLast?_append_of_ne_nil _ (by simpa using nonempty)]
      intro slash
      exact (plain '/' (List.mem_of_getLast? slash)).1 rfl

end Texts

section References

variable {repo : Repository} {suffix : RefSuffix}

/-- A tag and a digest have no slash and no space. -/
theorem RefSuffix.plain {character : Char} (within : character ∈ suffix.text.toList) :
    character ≠ '/' ∧ ¬ isSpace character := by
  obtain ⟨tag, digest, tags, digests⟩ := suffix
  simp only [RefSuffix.text, String.toList_append, List.mem_append] at within
  -- A character of the suffix is one of the two marks or a letter of a word.
  have marks : ∀ mark ∈ [':', '@'], mark ≠ '/' ∧ ¬ isSpace mark := by decide
  obtain tagged | digested := within
  · cases tag with
    | none => simp at tagged
    | some text =>
      -- The tag, behind its colon.
      have inside : character = ':' ∨ character ∈ text.toList := by simpa using tagged
      obtain rfl | inside := inside
      · exact marks _ (by simp)
      · exact (isRefWord_iff.mp (tags text rfl)).2 character inside
  · cases digest with
    | none => simp at digested
    | some text =>
      -- The digest, behind its at sign.
      have inside : character = '@' ∨ character ∈ text.toList := by simpa using digested
      obtain rfl | inside := inside
      · exact marks _ (by simp)
      · exact (isRefWord_iff.mp (digests text rfl)).2 character inside

namespace Repository

/-- Every segment of a repository's path is a word. -/
theorem isRefWord_segment {segment : String} (listed : segment ∈ repo.path) : isRefWord segment := by
  have proper := repo.segments segment listed
  rw [isPathSegment, Bool.and_eq_true] at proper
  exact proper.1

/-- The name of a repository is a word. -/
theorem isRefWord_name : isRefWord repo.name :=
  isRefWord_segment (List.mem_append_right repo.parents (List.mem_singleton.mpr rfl))

/-- The segments of the path are words also with a tag and a digest at its end. -/
theorem isRefWord_tagged : ∀ segment ∈ repo.tagged suffix, isRefWord segment := by
  intro segment listed
  rw [tagged, List.mem_append, List.mem_singleton] at listed
  -- A parent is a word, and the name stays one with its suffix.
  obtain parent | rfl := listed
  · exact isRefWord_segment (List.mem_append_left _ parent)
  · obtain ⟨nonempty, plain⟩ := isRefWord_iff.mp (@isRefWord_name repo)
    refine isRefWord_iff.mpr ⟨by simp [nonempty], ?_⟩
    intro character within
    rw [String.toList_append, List.mem_append] at within
    obtain inside | after := within
    · exact plain character inside
    · exact RefSuffix.plain after

/-- A reference has no space in it. -/
theorem strip_reference : strip (repo.reference suffix) = repo.reference suffix := by
  -- No blank is in the reference: not in the host, not in the path and its suffix.
  have plain : ∀ character ∈ (repo.reference suffix).toList, ¬ isSpace character := by
    intro character within
    rw [reference, String.toList_append, List.mem_append] at within
    obtain host | path := within
    · cases named : repo.host with
      | none => simp [named] at host
      | some text =>
        have inside : character ∈ text.toList ∨ character = '/' := by simpa [named] using host
        obtain inside | rfl := inside
        · exact ((isRefWord_iff.mp (repo.hosts text named).1).2 character inside).2
        · decide
    · -- Along the path, whose segments are words and whose slashes are no blanks.
      obtain rfl | ⟨segment, listed, inside⟩ := mem_joinPath path
      · decide
      · exact ((isRefWord_iff.mp (isRefWord_tagged segment listed)).2 character inside).2
  exact strip_eq_self (fun character head => plain character (List.mem_of_mem_head? head))
    fun character last => plain character (List.mem_of_getLast? last)

/-- There is no slash in a word. -/
theorem not_slash_of_isRefWord {text : String} (word : isRefWord text) : '/' ∉ text.toList :=
  fun slash => ((isRefWord_iff.mp word).2 '/' slash).1 rfl

/-- A tagged path is not empty. -/
theorem joinPath_tagged_ne : joinPath (repo.tagged suffix) ≠ "" := by
  obtain ⟨before, written⟩ := joinPath_concat repo.parents (repo.name ++ suffix.text)
  intro empty
  rw [tagged] at empty
  rw [empty] at written
  simp only [String.toList_empty, String.toList_append, List.nil_eq, List.append_eq_nil_iff] at written
  exact (isRefWord_iff.mp (@isRefWord_name repo)).1 (by simpa using written.2.1)

/-- Where a reference with a host is parted. -/
theorem partition_hosted {text : String} (named : repo.host = some text) :
    partition '/' (repo.reference suffix) = (text, true, joinPath (repo.tagged suffix)) := by
  rw [reference, named]
  exact partition_append (not_slash_of_isRefWord (repo.hosts text named).1) _

/-- Where a reference without a host is parted: what stands in front is no host. -/
theorem partition_unhosted (unnamed : repo.host = none) :
    ∃ first sep rest, partition '/' (repo.reference suffix) = (first, sep, rest) ∧
      (sep = true → ¬ isHostSegment first) := by
  have text : repo.reference suffix = joinPath (repo.tagged suffix) := by simp [reference, unnamed]
  have words := @isRefWord_tagged repo suffix
  rw [text]
  -- What stands before the first slash is the first parent, or the name where there is none.
  rw [tagged] at words ⊢
  cases parents : repo.parents with
  | nil =>
    rw [parents] at words
    have plain := not_slash_of_isRefWord (words _ List.mem_cons_self)
    exact ⟨_, _, _, partition_plain plain, by simp⟩
  -- A first parent of a repository without a host does not read as one.
  | cons first rest =>
    rw [parents] at words
    have plain := not_slash_of_isRefWord (words first List.mem_cons_self)
    rw [List.cons_append, joinPath.eq_3 _ _ (by simp)]
    refine ⟨_, _, _, partition_append plain _, fun _ => ?_⟩
    exact repo.unhosted unnamed first (by simp [parents])

/-- The host of a reference is the host of its repository. -/
theorem splitRegistryHost_reference : splitRegistryHost (repo.reference suffix) = repo.resolvedHost := by
  -- The reference is not empty, so its first part is asked.
  have nonempty : (repo.reference suffix == "") = false := by
    simp [reference, joinPath_tagged_ne]
  rw [splitRegistryHost, strip_reference]
  -- Without a host the first part is no host, whether a slash follows or not.
  cases named : repo.host with
  | none =>
    obtain ⟨first, sep, rest, parted, unhosted⟩ := @partition_unhosted repo suffix named
    rw [parted]
    cases sep with
    | false => simp [nonempty, resolvedHost, named]
    | true => simp [nonempty, unhosted rfl, resolvedHost, named]
  -- With one it is the host, and it is recognised as one.
  | some text =>
    rw [partition_hosted named]
    simp [nonempty, (repo.hosts text named).2.1, resolvedHost, named]

/-- The path of a reference is that of its repository, with the tag and the digest left on it. -/
theorem repositoryPath_reference :
    repositoryPath (repo.reference suffix) repo.resolvedHost = joinPath (repo.tagged suffix) := by
  have plain := stripOf_joinPath (@isRefWord_tagged repo suffix)
  rw [repositoryPath, strip_reference]
  cases named : repo.host with
  | none =>
    have text : repo.reference suffix = joinPath (repo.tagged suffix) := by simp [reference, named]
    obtain ⟨first, sep, rest, parted, unhosted⟩ := @partition_unhosted repo suffix named
    -- The host is the default one, so neither branch for a named host is taken.
    have default : repo.resolvedHost = defaultRegistry := by simp [resolvedHost, named]
    rw [parted, default]
    cases sep with
    | false => simp [text, plain]
    | true => simp [unhosted rfl, text, plain]
  | some text =>
    rw [partition_hosted named]
    simp [(repo.hosts text named).2.1, plain]

end Repository

end References

section Entries

variable {repo : Repository} {allowed : List String}

/-- Only an empty text is empty in lower case. -/
theorem lower_eq_empty {text : String} : lower text = "" ↔ text = "" := by
  rw [← String.toList_inj, ← @String.toList_inj text]
  simp [lower]

/-- A repository is always on some host. -/
theorem Repository.resolvedHost_ne : repo.resolvedHost ≠ "" := by
  cases named : repo.host with
  | none => simp [resolvedHost, named, defaultRegistry]
  | some text =>
    have nonempty := (isRefWord_iff.mp (repo.hosts text named).1).1
    simp [resolvedHost, named, lower_eq_empty, nonempty]

/-- A text leads another up to a slash exactly when its segments lead the other's. -/
theorem leads_iff {start text : String} :
    (text == start || startsWith text (start ++ "/")) = true ↔
      segmentsOf '/' start <+: segmentsOf '/' text := by
  have injective : Function.Injective String.ofList := fun _ _ same => String.ofList_inj.mp same
  rw [segmentsOf, segmentsOf, List.prefix_map_iff_of_injective injective, ← splitOn_prefix_iff]
  simp [startsWith, ← String.toList_inj]

/-- When an entry admits a reference: its host is the reference's and its path leads the path with
the tag and the digest. -/
theorem entryAllows_reference {suffix : RefSuffix} {entry : String} :
    entryAllows repo.resolvedHost (joinPath (repo.tagged suffix)) entry = true ↔
      (splitEntry entry).1 = repo.resolvedHost ∧
        ((splitEntry entry).2 = "" ∨ entrySegments entry <+: repo.tagged suffix) := by
  -- The path splits into its own segments.
  have segments : segmentsOf '/' (joinPath (repo.tagged suffix)) = repo.tagged suffix :=
    segmentsOf_joinPath (by simp [Repository.tagged]) fun segment listed =>
      Repository.not_slash_of_isRefWord (Repository.isRefWord_tagged segment listed)
  have leads := @leads_iff (splitEntry entry).2 (joinPath (repo.tagged suffix))
  rw [segments] at leads
  unfold entryAllows
  dsimp only
  -- The hosts have to be equal; a bare host then covers every path.
  by_cases host : (splitEntry entry).1 = repo.resolvedHost
  · by_cases bare : (splitEntry entry).2 = ""
    · simp [host, bare, Repository.resolvedHost_ne]
    · rw [entrySegments, ← leads]
      simp [host, bare, Repository.resolvedHost_ne]
  · simp [host]

/-- What leads a path leads its parents, or is the whole path. -/
theorem leads_concat_iff (last : String) :
    (∃ entry ∈ allowed, (splitEntry entry).1 = repo.resolvedHost ∧
        ((splitEntry entry).2 = "" ∨ entrySegments entry <+: repo.parents ++ [last])) ↔
      Covers allowed repo ∨ Names allowed repo (repo.parents ++ [last]) := by
  -- An entry leads a path if it is the whole of it or leads the parents.
  simp only [List.prefix_concat_iff]
  constructor
  · intro admitted
    obtain ⟨entry, member, host, bare | whole | leads⟩ := admitted
    · exact .inl ⟨entry, member, host, .inl bare⟩
    · exact .inr ⟨entry, member, host, whole⟩
    · exact .inl ⟨entry, member, host, .inr leads⟩
  · intro admitted
    obtain ⟨entry, member, host, bare | leads⟩ | ⟨entry, member, host, whole⟩ := admitted
    · exact ⟨entry, member, host, .inl bare⟩
    · exact ⟨entry, member, host, .inr (.inr leads)⟩
    · exact ⟨entry, member, host, .inr (.inl whole)⟩

/-- A list admits a reference when some entry covers its repository or has just its segments. -/
theorem isRegistryAllowed_reference (listed : allowed ≠ []) (suffix : RefSuffix) :
    isRegistryAllowed (repo.reference suffix) allowed = true ↔
      Covers allowed repo ∨ Names allowed repo (repo.tagged suffix) := by
  have nonempty : allowed.isEmpty = false := by simpa using listed
  rw [isRegistryAllowed, if_neg (by simp [nonempty]), Repository.splitRegistryHost_reference]
  dsimp only
  rw [Repository.repositoryPath_reference, List.any_eq_true]
  simp only [entryAllows_reference]
  exact leads_concat_iff _

/-- Different tags make different paths. -/
def longTag (length : Nat) : RefSuffix where
  tag := some (String.ofList (List.replicate (length + 1) 'a'))
  digest := none
  tags := by
    intro text given
    cases given
    refine isRefWord_iff.mpr ⟨by simp [← String.toList_inj], ?_⟩
    intro character within
    rw [String.toList_ofList] at within
    rw [List.eq_of_mem_replicate within]
    decide
  digests := by simp

/-- No list has an entry for every tag of a repository. -/
theorem not_names_every : ¬ ∀ suffix, Names allowed repo (repo.tagged suffix) := by
  intro every
  have injective : Function.Injective fun length => repo.tagged (longTag length) := by
    intro first second same
    have lengths := congrArg String.length (List.append_cancel_left same |> List.singleton_inj.mp)
    simpa [longTag, RefSuffix.text] using lengths
  -- The paths with these tags are infinitely many, and the entries are not.
  refine Set.infinite_range_of_injective injective ((allowed.map entrySegments).finite_toSet.subset ?_)
  intro segments reached
  obtain ⟨length, rfl⟩ := reached
  obtain ⟨entry, member, -, same⟩ := every (longTag length)
  exact List.mem_map.mpr ⟨entry, member, same⟩

/-- The host of a repository is in lower case and has no space around it. -/
theorem Repository.lower_strip_resolvedHost : lower (strip repo.resolvedHost) = repo.resolvedHost := by
  -- Lower-casing twice is lower-casing once, and it makes no blank, letter by letter in ASCII.
  have fixed : ∀ character : Char, character.toNat < 128 →
      lowerChar (lowerChar character) = lowerChar character ∧
        (isSpace (lowerChar character) = true → isSpace character = true) := by
    intro character ascii
    obtain ⟨code, rfl⟩ : ∃ code : Fin 128, character = Char.ofNat code.val :=
      ⟨⟨character.toNat, ascii⟩, (Char.ofNat_toNat character).symm⟩
    revert code
    decide +kernel
  -- The default host is lower case; a named one is ASCII, so it is lower case afterwards.
  cases named : repo.host with
  | none =>
    simp only [resolvedHost, named]
    decide +kernel
  | some text =>
    obtain ⟨word, -, ascii⟩ := repo.hosts text named
    rw [List.all_eq_true] at ascii
    -- So nothing is stripped from it.
    have plain : ∀ character ∈ (lower text).toList, ¬ isSpace character := by
      intro character within
      simp only [lower, String.toList_ofList, List.mem_map] at within
      obtain ⟨original, inside, rfl⟩ := within
      intro space
      have small := of_decide_eq_true (ascii original inside)
      exact ((isRefWord_iff.mp word).2 original inside).2 ((fixed original small).2 space)
    have stripped : strip (lower text) = lower text :=
      strip_eq_self (fun character head => plain character (List.mem_of_mem_head? head))
        fun character last => plain character (List.mem_of_getLast? last)
    simp only [resolvedHost, named, Option.map_some, Option.getD_some, stripped]
    rw [lower, lower, String.toList_ofList, List.map_map]
    congr 1
    refine List.map_congr_left fun character inside => ?_
    exact (fixed character (of_decide_eq_true (ascii character inside))).1

/-- Where a reference is allowed, a credential for its host is. -/
theorem isRegistryHostAllowed_of_allowed {suffix : RefSuffix}
    (pulled : isRegistryAllowed (repo.reference suffix) allowed = true) :
    isRegistryHostAllowed repo.resolvedHost allowed = true := by
  -- An empty list allows every host.
  by_cases unlisted : allowed = []
  · simp [isRegistryHostAllowed, unlisted]
  · -- Otherwise the entry that allowed the reference has its host.
    obtain ⟨entry, member, host⟩ : ∃ entry ∈ allowed, (splitEntry entry).1 = repo.resolvedHost := by
      obtain ⟨entry, member, host, -⟩ | ⟨entry, member, host, -⟩ :=
        (isRegistryAllowed_reference unlisted suffix).mp pulled
      · exact ⟨entry, member, host⟩
      · exact ⟨entry, member, host⟩
    rw [isRegistryHostAllowed, if_neg (by simpa using unlisted), Repository.lower_strip_resolvedHost]
    simp only [beq_iff_eq, Repository.resolvedHost_ne, if_false, List.any_eq_true]
    exact ⟨entry, member, host⟩

end Entries

/-- A list admits a reference exactly when it names the repository, unless no entry covers it and just
one of the path and the path with its tag and digest has an entry of its own; all tags and digests
get one answer exactly when some entry covers the repository or no such entry is there. -/
theorem registry_allowlist_exact (repo : Repository) (allowed : List String) (listed : allowed ≠ []) :
    (∀ suffix, (isRegistryAllowed (repo.reference suffix) allowed = true ↔ Admits allowed repo) ↔
        Covers allowed repo ∨
          (Names allowed repo repo.path ↔ Names allowed repo (repo.tagged suffix))) ∧
      ((∀ one other, isRegistryAllowed (repo.reference one) allowed =
          isRegistryAllowed (repo.reference other) allowed) ↔
        Covers allowed repo ∨ ∀ suffix, ¬ Names allowed repo (repo.tagged suffix)) := by
  -- The repository's own path is its parents' and its name.
  have admits : Admits allowed repo ↔ Covers allowed repo ∨ Names allowed repo repo.path :=
    leads_concat_iff repo.name
  constructor
  · -- One reference: the tag can only matter in the last segment.
    intro suffix
    rw [isRegistryAllowed_reference listed, admits]
    by_cases covered : Covers allowed repo
    · simp [covered]
    · simp only [covered, false_or]
      exact iff_comm
  · -- Every suffix: an entry that names some tagged path would have to name all of them.
    simp only [Bool.eq_iff_iff, isRegistryAllowed_reference listed]
    by_cases covered : Covers allowed repo
    · simp [covered]
    · simp only [covered, false_or]
      constructor
      · intro same suffix named
        exact not_names_every fun other => (same suffix other).mp named
      · intro unnamed one other
        exact iff_of_false (unnamed one) (unnamed other)

/-- The repository `ghcr.io/trustedoss/app`. -/
def appRepository : Repository where
  host := some "ghcr.io"
  parents := ["trustedoss"]
  name := "app"
  hosts := by decide +kernel
  segments := by decide +kernel
  unhosted := nofun

/-- The tag `1`, without a digest. -/
def tagOne : RefSuffix := ⟨some "1", none, by decide +kernel, nofun⟩

/-- Neither a tag nor a digest. -/
def untagged : RefSuffix := ⟨none, none, nofun, nofun⟩

/-- An entry for the namespace admits every image of the repository. -/
theorem registry_allowlist_exact_namespace :
    (["ghcr.io/trustedoss"] ≠ []) ∧ ∀ suffix,
      isRegistryAllowed (appRepository.reference suffix) ["ghcr.io/trustedoss"] = true ↔
        Admits ["ghcr.io/trustedoss"] appRepository := by
  have covers : Covers ["ghcr.io/trustedoss"] appRepository :=
    ⟨_, List.mem_singleton.mpr rfl, by decide +kernel, .inr (by decide +kernel)⟩
  exact ⟨by simp, fun suffix =>
    ((registry_allowlist_exact appRepository _ (by simp)).1 suffix).mpr (.inl covers)⟩

/-- An entry for the repository itself admits it without a tag and refuses it with one. -/
theorem registry_allowlist_misses_tag :
    ¬ (isRegistryAllowed (appRepository.reference tagOne) ["ghcr.io/trustedoss/app"] = true ↔
        Admits ["ghcr.io/trustedoss/app"] appRepository) ∧
      isRegistryAllowed (appRepository.reference tagOne) ["ghcr.io/trustedoss/app"] ≠
        isRegistryAllowed (appRepository.reference untagged) ["ghcr.io/trustedoss/app"] := by
  -- The tag is in the last segment, which the entry spells without it.
  have refused : isRegistryAllowed (appRepository.reference tagOne) ["ghcr.io/trustedoss/app"] = false := by
    decide +kernel
  have bare : isRegistryAllowed (appRepository.reference untagged) ["ghcr.io/trustedoss/app"] = true := by
    decide +kernel
  have admits : Admits ["ghcr.io/trustedoss/app"] appRepository :=
    ⟨_, List.mem_singleton.mpr rfl, by decide +kernel, .inr (by decide +kernel)⟩
  constructor
  · intro exact_here
    exact absurd (exact_here.mpr admits) (by simp [refused])
  · simp [refused, bare]

end Trusca
