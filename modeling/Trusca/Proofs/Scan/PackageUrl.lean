import Trusca.Malicious.Catalog
import Trusca.Scan.PackageUrl

/-! Whether the identities of a package agree, and what pinning a version does to them. -/

namespace Trusca

section Parts

variable {path name version : List Char}

/-- Whether a character ends the part of a package URL that names the package. -/
def isTailMark (character : Char) : Bool := character == '?' || character == '#'

/-- What stands in front of the qualifiers and the subpath. -/
def purlHead (purl : String) : List Char := purl.toList.takeWhile fun character => !isTailMark character

/-- The qualifiers and the subpath, with their marks. -/
def purlTail (purl : String) : List Char := purl.toList.dropWhile fun character => !isTailMark character

/-- The two marks are looked for one after the other. -/
theorem takeWhile_marks (text : List Char) :
    (text.takeWhile (· ≠ '?')).takeWhile (· ≠ '#') =
      text.takeWhile fun character => !isTailMark character := by
  induction text with
  | nil => rfl
  | cons first rest ih =>
    -- The first mark of either kind ends the run.
    by_cases question : first = '?'
    · simp [question, isTailMark]
    · by_cases hash : first = '#'
      · simp [hash, isTailMark]
      · simpa [List.takeWhile_cons, question, hash, isTailMark] using ih

/-- The head of a purl ends at the first query or fragment mark. -/
theorem takeWhile_purlHead (purl : String) :
    (purl.toList.takeWhile (· ≠ '?')).takeWhile (· ≠ '#') = purlHead purl := takeWhile_marks _

/-- The last segment of a path that a slash ends. -/
theorem lastSegment_append (ends : path = [] ∨ path.getLast? = some '/') {segment : List Char}
    (plain : '/' ∉ segment) : lastSegment (path ++ segment) = segment := by
  -- From the end the run goes through the segment, which has no slash.
  have before : ∀ character ∈ segment.reverse, decide (character ≠ '/') = true := by
    intro character within
    rw [List.mem_reverse] at within
    rw [decide_eq_true_eq]
    rintro rfl
    exact plain within
  rw [lastSegment, List.reverse_append, List.takeWhile_append_of_pos before]
  -- And it stops at the slash the path ends in.
  have stops : path.reverse.takeWhile (· ≠ '/') = [] := by
    rcases ends with rfl | last
    · rfl
    · obtain ⟨front, rfl⟩ := List.getLast?_eq_some_iff.mp last
      simp
  rw [stops, List.append_nil, List.reverse_reverse]

/-- Every text is a path that a slash ends and a segment. -/
theorem exists_lastSegment (text : List Char) : ∃ path segment, text = path ++ segment ∧
    (path = [] ∨ path.getLast? = some '/') ∧ '/' ∉ segment := by
  induction text using List.reverseRecOn with
  | nil => exact ⟨[], [], rfl, .inl rfl, by simp⟩
  | append_singleton front last ih =>
    -- A slash ends the path, any other character goes on the segment.
    by_cases slash : last = '/'
    · exact ⟨front ++ [last], [], by simp, .inr (by simp [slash]), by simp⟩
    · obtain ⟨path, segment, rfl, ends, plain⟩ := ih
      refine ⟨path, segment ++ [last], by simp, ends, ?_⟩
      simp only [List.mem_append, List.mem_singleton, not_or]
      exact ⟨plain, fun same => slash same.symm⟩

/-- The identity and the version of a package URL, by its parts. -/
theorem purl_parts (purl : String) (head : purlHead purl = path ++ name ++ version)
    (ends : path = [] ∨ path.getLast? = some '/') (plainName : '/' ∉ name ∧ '@' ∉ name)
    (plainVersion : '/' ∉ version) (marked : version = [] ∨ version.head? = some '@')
    (some_name : path ++ name ≠ []) :
    basePurl purl = String.ofList (path ++ name) ∧
      versionFromPurl purl =
        if version.drop 1 = [] then none else some (String.ofList (version.drop 1)) := by
  -- The last segment is the name with its version.
  have segment : ((path ++ name ++ version).reverse.takeWhile (· ≠ '/')).reverse = name ++ version := by
    rw [List.append_assoc]
    exact lastSegment_append ends (by simp [plainName.1, plainVersion])
  -- No mark stands within the name.
  have place : name.findIdx (· == '@') = name.length :=
    List.findIdx_eq_length.mpr fun character within => by
      rw [beq_eq_false_iff_ne]
      rintro rfl
      exact plainName.2 within
  unfold basePurl versionFromPurl
  simp only [takeWhile_purlHead, head, segment]
  -- Without a mark the whole segment is the name.
  rcases marked with rfl | at_sign
  · simp [plainName.2]
  · -- With one the cut is at the first mark, right behind the name.
    obtain ⟨rest, rfl⟩ : ∃ rest, version = '@' :: rest := by
      cases version with
      | nil => cases at_sign
      | cons first rest =>
        cases at_sign
        exact ⟨rest, rfl⟩
    have index : (name ++ '@' :: rest).findIdx (· == '@') = name.length := by
      rw [List.findIdx_append]
      simp [place, List.findIdx_cons]
    have contained : (name ++ '@' :: rest).contains '@' = true := by simp
    -- Counted from the front of the whole text the mark stands behind path and name.
    have position : (path ++ name ++ '@' :: rest).length - (name ++ '@' :: rest).length + name.length =
        (path ++ name).length := by
      simp only [List.length_append]
      omega
    have positive : 0 < (path ++ name).length := List.length_pos_iff.mpr some_name
    rw [index, contained, position]
    simp only [positive, decide_true, Bool.and_self, if_true, List.drop_one, List.tail_cons]
    refine ⟨by rw [List.take_left], ?_⟩
    have after : (path ++ name ++ '@' :: rest).drop ((path ++ name).length + 1) = rest := by
      rw [← List.drop_drop, List.drop_left]
      rfl
    rw [after]
    -- An empty version is no version.
    by_cases empty : rest = []
    · simp [empty]
    · have some_text : String.ofList rest ≠ "" := by simpa using empty
      rw [if_neg some_text, if_neg empty]

end Parts

/-- A package URL without qualifiers and subpath: the path to its last slash, the name, and the version
where it has one. -/
structure PackageUrl where
  path : List Char
  name : List Char
  version : Option (List Char)
  scheme : ['p', 'k', 'g', ':'] <+: path
  slash : path.getLast? = some '/'
  plainPath : ∀ character ∈ path, isTailMark character = false
  plainName : '/' ∉ name ∧ '@' ∉ name ∧ ∀ character ∈ name, isTailMark character = false
  plainVersion : ∀ text ∈ version, '/' ∉ text ∧ ∀ character ∈ text, isTailMark character = false

namespace PackageUrl

variable (url : PackageUrl)

/-- The version with its mark. -/
def marked : List Char := (url.version.map ('@' :: ·)).getD []

/-- How a package URL is written. -/
def text : String := String.ofList (url.path ++ url.name ++ url.marked)

/-- Whether the mark of the version can be told from other ones: the version has no other, and without
a version there is none, not even that of a scope. -/
def SingleMark : Prop :=
  match url.version with
  | some version => '@' ∉ version
  | none => '@' ∉ url.path

/-- What marks a version has neither a slash nor a tail, and starts at its `@`. -/
theorem marked_plain : '/' ∉ url.marked ∧ (∀ character ∈ url.marked, isTailMark character = false) ∧
    (url.marked = [] ∨ url.marked.head? = some '@') := by
  have plain := url.plainVersion
  rw [marked]
  -- Without a version there is no mark either.
  cases stated : url.version with
  | none => simp
  | some version =>
    obtain ⟨slash, marks⟩ := plain version stated
    refine ⟨by simpa using slash, ?_, .inr rfl⟩
    simp only [Option.map_some, Option.getD_some, List.forall_mem_cons]
    exact ⟨rfl, marks⟩

/-- The head of a package URL is its path, its name and what marks its version. -/
theorem purlHead_text : purlHead url.text = url.path ++ url.name ++ url.marked := by
  rw [purlHead, text, String.toList_ofList, List.takeWhile_eq_self_iff]
  intro character within
  rw [Bool.not_eq_true']
  simp only [List.mem_append] at within
  -- No tail mark is in the path, in the name or in the version.
  rcases within with (path | name) | version
  · exact url.plainPath character path
  · exact url.plainName.2.2 character name
  · exact url.marked_plain.2.1 character version

/-- The identity in the catalogue of malicious packages is the path with the name. -/
theorem basePurl_text : basePurl url.text = String.ofList (url.path ++ url.name) := by
  have some_name : url.path ++ url.name ≠ [] := by
    intro empty
    have slash := url.slash
    rw [(List.append_eq_nil_iff.mp empty).1] at slash
    cases slash
  exact (purl_parts url.text url.purlHead_text (.inr url.slash) ⟨url.plainName.1, url.plainName.2.1⟩
    url.marked_plain.1 url.marked_plain.2.2 some_name).1

/-- A package URL is cut at its last mark. -/
theorem purlWithoutVersion_cut {purl : String} {front back : List Char}
    (split : purl.toList = front ++ '@' :: back) (plain : '@' ∉ back) (some_front : front ≠ []) :
    purlWithoutVersion purl = String.ofList front := by
  rw [purlWithoutVersion, split, rfind_append plain]
  simp only [List.length_pos_iff.mpr some_front, if_true, List.take_left]

/-- A path never starts at an `@`. -/
theorem path_ne_mark (back : List Char) : url.path ≠ '@' :: back := by
  intro split
  obtain ⟨rest, same⟩ := url.scheme
  rw [split] at same
  cases same

/-- The identity of the component is that of the catalogue exactly when there is one mark. -/
theorem purlWithoutVersion_text : purlWithoutVersion url.text = basePurl url.text ↔ url.SingleMark := by
  have written : url.text.toList = url.path ++ url.name ++ url.marked := String.toList_ofList
  have some_path : url.path ≠ [] := fun empty => by
    have slash := url.slash
    rw [empty] at slash
    cases slash
  rw [basePurl_text, SingleMark]
  rw [marked] at written
  cases stated : url.version with
  | some version =>
    dsimp only
    rw [stated, Option.map_some, Option.getD_some] at written
    by_cases other : '@' ∈ version
    · -- The text is cut within its version.
      obtain ⟨front, back, rfl, plain⟩ := exists_last other
      have cut := @purlWithoutVersion_cut url.text (url.path ++ url.name ++ '@' :: front) back
        (by rw [written]; simp) plain (by simp)
      rw [cut, String.ofList_inj]
      exact iff_of_false (fun same => by simpa using congrArg List.length same) fun absent => absent other
    · rw [purlWithoutVersion_cut written other (by simp [some_path])]
      exact iff_of_true rfl other
  | none =>
    dsimp only
    rw [stated, Option.map_none, Option.getD_none, List.append_nil] at written
    by_cases scope : '@' ∈ url.path
    · -- The mark of the scope is taken for that of a version.
      obtain ⟨front, back, split, plain⟩ := exists_last scope
      have some_front : front ≠ [] := by
        rintro rfl
        exact url.path_ne_mark back split
      have cut := @purlWithoutVersion_cut url.text front (back ++ url.name)
        (by rw [written, split]; simp) (by simp [plain, url.plainName.2.1]) some_front
      rw [cut, String.ofList_inj, split]
      refine iff_of_false (fun same => ?_) fun absent => absent (by simp)
      simpa using congrArg List.length same
    · have absent : '@' ∉ url.text.toList := by
        rw [written]
        simp [scope, url.plainName.2.1]
      rw [purlWithoutVersion, rfind_absent absent]
      refine iff_of_true ?_ scope
      rw [← written, String.ofList_toList]

/-- The path and the name are read back from an identity. -/
theorem identity_inj (other : PackageUrl) :
    String.ofList (url.path ++ url.name) = String.ofList (other.path ++ other.name) ↔
      url.path = other.path ∧ url.name = other.name := by
  rw [String.ofList_inj]
  refine ⟨fun same => ?_, fun ⟨path, name⟩ => by rw [path, name]⟩
  have segments := congrArg lastSegment same
  rw [lastSegment_append (.inr url.slash) url.plainName.1,
    lastSegment_append (.inr other.slash) other.plainName.1] at segments
  rw [segments, List.append_cancel_right_eq] at same
  exact ⟨same, segments⟩

end PackageUrl

/-- The identity of a component is that of the catalogue of malicious packages exactly when the mark of
the version is the only one, and then two package URLs share a component exactly when they differ in
their versions only. -/
theorem purl_identity (url : PackageUrl) :
    (purlWithoutVersion url.text = basePurl url.text ↔ url.SingleMark) ∧
      ∀ other : PackageUrl, url.SingleMark → other.SingleMark →
        (purlWithoutVersion url.text = purlWithoutVersion other.text ↔
          url.path = other.path ∧ url.name = other.name) := by
  refine ⟨url.purlWithoutVersion_text, fun other one two => ?_⟩
  rw [url.purlWithoutVersion_text.mpr one, other.purlWithoutVersion_text.mpr two, url.basePurl_text,
    other.basePurl_text, url.identity_inj]

/-- Two scoped packages without versions share one component. -/
theorem purl_identity_scope : purlWithoutVersion "pkg:npm/@babel/core" = "pkg:npm/" ∧
    purlWithoutVersion "pkg:npm/@types/node" = "pkg:npm/" ∧
    basePurl "pkg:npm/@babel/core" = "pkg:npm/@babel/core" ∧
    basePurl "pkg:npm/@types/node" = "pkg:npm/@types/node" := by
  decide +kernel

section Pinning

variable {purl version : String}

/-- The head is the same whichever mark is looked for first. -/
theorem takeWhile_marks_swapped (text : List Char) :
    (text.takeWhile (· != '#')).takeWhile (· != '?') =
      text.takeWhile fun character => !isTailMark character := by
  induction text with
  | nil => rfl
  | cons first rest ih =>
    -- The two marks are cut in the other order, with the same outcome.
    by_cases question : first = '?'
    · simp [question, isTailMark]
    · by_cases hash : first = '#'
      · simp [hash, isTailMark]
      · simpa [List.takeWhile_cons, question, hash, isTailMark] using ih

/-- What is written back behind the version. -/
def tailText (purl : String) : String :=
  let beforeHash := (partition '#' purl).1
  (if (partition '?' beforeHash).2.1 then "?" else "") ++ (partition '?' beforeHash).2.2 ++
    (if (partition '#' purl).2.1 then "#" else "") ++ (partition '#' purl).2.2

/-- Pinning parts a package URL into its head and its tail. -/
theorem partition_purl (purl : String) :
    (partition '?' (partition '#' purl).1).1.toList = purlHead purl ∧
      (tailText purl).toList = purlTail purl := by
  have head : (partition '?' (partition '#' purl).1).1.toList = purlHead purl := by
    simp only [partition, String.toList_ofList]
    exact takeWhile_marks_swapped _
  refine ⟨head, ?_⟩
  -- The parts are the text again, and the head comes first in it.
  have inner := partition_join '?' (partition '#' purl).1
  have outer := partition_join '#' purl
  have whole : (partition '?' (partition '#' purl).1).1 ++ tailText purl = purl := by
    conv_rhs => rw [← outer, ← inner]
    simp only [tailText, String.append_assoc]
    rfl
  have lists := congrArg String.toList whole
  rw [String.toList_append, head] at lists
  have parts := @List.takeWhile_append_dropWhile _ (fun character => !isTailMark character) purl.toList
  exact List.append_cancel_left (lists.trans parts.symm)

/-- A quoted version has none of the characters that part a package URL. -/
theorem quote_plain (text : String) {mark : Char} (parts : mark ∈ ['/', '@', '?', '#']) :
    mark ∉ (quote [':'] text).toList := by
  intro member
  have reserved : ∀ mark ∈ ['/', '@', '?', '#'], ¬(mark = '%' ∨ isKept [':'] mark = true) := by decide
  exact reserved mark parts (mem_quote member)

/-- How a package URL is written with a version. -/
theorem toList_purlPinnedToVersion (plain : '@' ∉ lastSegment (purlHead purl))
    (some_text : strip version ≠ "") (known : strip version ≠ "unknown") :
    (purlPinnedToVersion purl version).toList =
      purlHead purl ++ '@' :: (quote [':'] (strip version)).toList ++ purlTail purl := by
  obtain ⟨head, tail⟩ := partition_purl purl
  -- The last segment has no version yet, so the new one goes behind it.
  have free : (lastSegment (partition '?' (partition '#' purl).1).1.toList).contains '@' = false := by
    rw [head]
    simpa using plain
  have pinned : purlPinnedToVersion purl version =
      (partition '?' (partition '#' purl).1).1 ++ "@" ++ quote [':'] (strip version) ++ tailText purl := by
    unfold purlPinnedToVersion
    simp only [some_text, known, or_self, if_false, free, Bool.false_eq_true]
    simp only [tailText, String.append_assoc]
  rw [pinned]
  simp [head, tail]

/-- A package URL with a version is not pinned to another one. -/
theorem purlPinnedToVersion_marked (marked : '@' ∈ lastSegment (purlHead purl)) :
    purlPinnedToVersion purl version = purl := by
  have taken : (lastSegment (partition '?' (partition '#' purl).1).1.toList).contains '@' = true := by
    rw [(partition_purl purl).1]
    simpa using marked
  unfold purlPinnedToVersion
  simp only [taken, if_true]
  split_ifs <;> rfl

/-- The parts of a package URL with a version. -/
theorem purlHead_purlPinnedToVersion (plain : '@' ∉ lastSegment (purlHead purl))
    (some_text : strip version ≠ "") (known : strip version ≠ "unknown") :
    purlHead (purlPinnedToVersion purl version) =
        purlHead purl ++ '@' :: (quote [':'] (strip version)).toList ∧
      purlTail (purlPinnedToVersion purl version) = purlTail purl := by
  -- No tail mark stands in the head with its new version, since quoting takes them out.
  have before : ∀ character ∈ purlHead purl ++ '@' :: (quote [':'] (strip version)).toList,
      (!isTailMark character) = true := by
    intro character within
    rcases List.mem_append.mp within with head | version
    · exact @List.mem_takeWhile_imp _ (fun character => !isTailMark character) _ _ head
    · rcases List.mem_cons.mp version with rfl | quoted
      · rfl
      · rw [Bool.not_eq_true', isTailMark, Bool.or_eq_false_iff, beq_eq_false_iff_ne, beq_eq_false_iff_ne]
        constructor
        · rintro rfl
          exact quote_plain _ (by simp) quoted
        · rintro rfl
          exact quote_plain _ (by simp) quoted
  -- The tail starts with a mark, so the head ends where it did.
  have stops : (purlTail purl).takeWhile (fun character => !isTailMark character) = [] ∧
      (purlTail purl).dropWhile (fun character => !isTailMark character) = purlTail purl := by
    have fixed := List.dropWhile_idempotent (fun character => !isTailMark character) purl.toList
    refine ⟨?_, fixed⟩
    have parts := @List.takeWhile_append_dropWhile _ (fun character => !isTailMark character)
      (purlTail purl)
    rw [purlTail, fixed] at parts
    exact List.append_left_eq_self.mp parts
  rw [purlHead, purlTail, toList_purlPinnedToVersion plain some_text known]
  rw [List.takeWhile_append_of_pos before, List.dropWhile_append_of_pos before, stops.1, stops.2,
    List.append_nil]
  exact ⟨rfl, rfl⟩

/-- A pinned version is read back, the rest of the package URL is kept, a second pin changes nothing, and
versions that differ are pinned differently. -/
theorem purlPinnedToVersion_round_trip (named : purlHead purl ≠ [])
    (plain : '@' ∉ lastSegment (purlHead purl)) (some_text : strip version ≠ "")
    (known : strip version ≠ "unknown") :
    basePurl (purlPinnedToVersion purl version) = basePurl purl ∧
      versionFromPurl (purlPinnedToVersion purl version) = some (quote [':'] (strip version)) ∧
      purlTail (purlPinnedToVersion purl version) = purlTail purl ∧
      (∀ other, purlPinnedToVersion (purlPinnedToVersion purl version) other =
        purlPinnedToVersion purl version) ∧
      ∀ other, strip other ≠ "" → strip other ≠ "unknown" → strip other ≠ strip version →
        purlPinnedToVersion purl other ≠ purlPinnedToVersion purl version := by
  have percent : isKept [':'] '%' = false := by decide
  -- The pinned text has the old head, the quoted version, and the old tail.
  obtain ⟨head, tail⟩ := purlHead_purlPinnedToVersion plain some_text known
  obtain ⟨path, segment, split, ends, unslashed⟩ := exists_lastSegment (purlHead purl)
  have last : lastSegment (purlHead purl) = segment := by rw [split, lastSegment_append ends unslashed]
  rw [last] at plain
  rw [split] at named
  have slash := quote_plain (strip version) (show '/' ∈ ['/', '@', '?', '#'] by simp)
  -- The old text is read at its last segment, which has no mark.
  have parts := @purl_parts _ _ [] purl (by rw [split]; simp) ends ⟨unslashed, plain⟩ (by simp)
    (.inl rfl) named
  -- The pinned one has the one mark that was put there.
  have pinned_parts := purl_parts (purlPinnedToVersion purl version) (by rw [head, split]) ends
    ⟨unslashed, plain⟩ (by simpa using slash) (.inr rfl) named
  have written : (quote [':'] (strip version)).toList ≠ [] := by
    simpa using quote_ne_empty percent some_text
  refine ⟨by rw [pinned_parts.1, parts.1], ?_, tail, fun other => ?_, fun other text named differ same => ?_⟩
  · rw [pinned_parts.2, List.drop_one, List.tail_cons, if_neg written, String.ofList_toList]
  · -- Pinned again: there is a version already, so the text stays.
    refine purlPinnedToVersion_marked ?_
    rw [head, split, List.append_assoc, lastSegment_append ends (by simpa [unslashed] using slash)]
    simp
  · -- Another version is quoted to another text.
    rw [← last] at plain
    have lists := congrArg String.toList same
    rw [toList_purlPinnedToVersion plain text named, toList_purlPinnedToVersion plain some_text known,
      List.append_cancel_right_eq, List.append_cancel_left_eq] at lists
    exact differ (quote_injective percent (String.toList_inj.mp (List.cons.inj lists).2))

end Pinning

/-- A generic purl with a query and a fragment is pinned to a version and read back. -/
theorem purlPinnedToVersion_round_trip_zlib :
    (purlHead "pkg:generic/zlib?arch=x86#lib" ≠ [] ∧
      '@' ∉ lastSegment (purlHead "pkg:generic/zlib?arch=x86#lib") ∧
      strip " 1.2.11 " ≠ "" ∧ strip " 1.2.11 " ≠ "unknown") ∧
    versionFromPurl (purlPinnedToVersion "pkg:generic/zlib?arch=x86#lib" " 1.2.11 ") =
      some (quote [':'] (strip " 1.2.11 ")) := by
  have holds : purlHead "pkg:generic/zlib?arch=x86#lib" ≠ [] ∧
      '@' ∉ lastSegment (purlHead "pkg:generic/zlib?arch=x86#lib") ∧
      strip " 1.2.11 " ≠ "" ∧ strip " 1.2.11 " ≠ "unknown" := by decide +kernel
  obtain ⟨named, plain, some_text, known⟩ := holds
  exact ⟨⟨named, plain, some_text, known⟩,
    (purlPinnedToVersion_round_trip named plain some_text known).2.1⟩

end Trusca
