import Trusca.Data.Outcome
import Trusca.Scan.SourceTree

/-! The viewer shows a text file up to its cap, unless the cap lies inside of a character or the results of the
licence scan make it fail. -/

namespace Trusca

/-- The cap does not lie inside of a character of a text. -/
def CapBetween (text : String) (cap : Nat) : Prop :=
  ∀ inside : cap < text.utf8ByteSize, (text.getUTF8Byte ⟨cap⟩ inside).IsUTF8FirstByte

/-- The results of the licence scan are not read, or their text can be read or is no JSON, and no entry that
would be shown beside the lines of a path has an integer for a score that is too large. -/
def QuietResults (members : List SourceMember) (limits : ScancodeLimits) (path : String) : Prop :=
  ∀ member text, members.find? (fun member => canonicalArcname member.name = scancodeMemberName) = some member →
    member.kind = .regular → member.body.size ≤ limits.maxResultBytes →
    String.fromUTF8? member.body = some text →
      jsonLoads limits.depth text.toList ≠ .error .tooManyDigits ∧
      jsonLoads limits.depth text.toList ≠ .error .tooDeep ∧
      ∀ data, jsonLoads limits.depth text.toList = .ok data → ∀ entry ∈ matchEntries data path,
        (matchSpan entry).isSome → ∀ value, entry.get? "score" = some (.num (.integer value)) →
          value.natAbs < floatOverflow

/-- A text file is shown as a text: its beginning, up to the cap but for less than one character. -/
def ShowsPrefix (text : String) (cap : Nat) (shown : Except ReadFileError FileContent) : Prop :=
  ∃ file content, shown = .ok file ∧ file.encoding = .utf8 ∧ file.content = some content ∧
    content.toList <+: text.toList ∧ content.utf8ByteSize ≤ cap ∧
    min cap text.utf8ByteSize < content.utf8ByteSize + 4 ∧ (file.truncated = true ↔ cap < text.utf8ByteSize)

/-- A byte that is not zero as a number is not zero. -/
theorem zero_ne_ofNat {value : Nat} (low : 0 < value) (high : value < 256) : (0 : UInt8) ≠ UInt8.ofNat value := by
  intro zero
  have numbers := congrArg UInt8.toNat zero
  rw [UInt8.toNat_ofNat', Nat.mod_eq_of_lt high] at numbers
  exact absurd numbers low.ne

/-- The only character whose bytes hold a zero is the zero itself. -/
theorem zero_mem_encodeChar {character : Char} (zero : 0 ∈ String.utf8EncodeChar character) :
    character = '\x00' := by
  have value : character.toNat = 0 := by
    by_contra nonzero
    have pos : 0 < character.val.toNat := Nat.pos_of_ne_zero nonzero
    -- All the other bytes have a mark in front, and one of a single byte is the character.
    have high : ∀ part limit mark, 0 < limit → 0 < mark → limit + mark ≤ 256 →
        (0 : UInt8) ≠ UInt8.ofNat (part % limit + mark) := by
      intro part limit mark some_limit some_mark fits
      have below := Nat.mod_lt part some_limit
      exact zero_ne_ofNat (by omega) (by omega)
    simp only [String.utf8EncodeChar] at zero
    split at zero
    · exact zero_ne_ofNat pos (by omega) (List.mem_singleton.mp zero)
    split at zero
    · simp only [List.mem_cons, List.not_mem_nil, or_false] at zero
      rcases zero with zero | zero
      all_goals exact high _ _ _ (by decide) (by decide) (by decide) zero
    split at zero
    · simp only [List.mem_cons, List.not_mem_nil, or_false] at zero
      rcases zero with zero | zero | zero
      all_goals exact high _ _ _ (by decide) (by decide) (by decide) zero
    · simp only [List.mem_cons, List.not_mem_nil, or_false] at zero
      rcases zero with zero | zero | zero | zero
      all_goals exact high _ _ _ (by decide) (by decide) (by decide) zero
  exact Char.ext (UInt32.toNat_inj.mp value)

/-- A text without the zero character has no zero byte. -/
theorem zero_not_mem_bytes {text : String} (plain : '\x00' ∉ text.toList) : 0 ∉ text.toByteArray.data.toList := by
  rw [← String.utf8Encode_toList, List.utf8Encode, List.toList_data_toByteArray, List.mem_flatMap]
  rintro ⟨character, member, zero⟩
  exact plain (zero_mem_encodeChar zero ▸ member)

/-- A read that is longer than the bytes gives all of them. -/
theorem extract_whole {bytes : ByteArray} {count : Nat} (short : bytes.size ≤ count) :
    bytes.extract 0 count = bytes := by
  ext1
  rw [ByteArray.data_extract]
  exact Array.extract_eq_self_of_le short

/-- A text is read back from its bytes. -/
theorem fromUTF8?_toByteArray (text : String) : String.fromUTF8? text.toByteArray = some text := by
  rw [String.fromUTF8?, dif_pos text.isValidUTF8]
  rfl

/-- A text is read back from its bytes. -/
theorem detectEncoding_text {text : String} (plain : '\x00' ∉ text.toList) :
    detectEncoding text.toByteArray = (.utf8, some text) := by
  rw [detectEncoding, if_neg (zero_not_mem_bytes plain), fromUTF8?_toByteArray]

/-- Bytes that are no text are not read as one. -/
theorem detectEncoding_invalid {bytes : ByteArray} (invalid : ¬ bytes.IsValidUTF8) :
    detectEncoding bytes = (.binary, none) := by
  rw [detectEncoding, String.fromUTF8?, dif_neg invalid]
  split <;> rfl

/-- The cut at the cap is a text exactly when the cap does not lie inside of a character. -/
theorem capBetween_iff {text : String} {cap : Nat} (long : cap < text.utf8ByteSize) :
    CapBetween text cap ↔ (⟨cap⟩ : String.Pos.Raw).IsValid text := by
  have different : (⟨cap⟩ : String.Pos.Raw) ≠ text.rawEndPos := by
    intro same
    have bytes := congrArg String.Pos.Raw.byteIdx same
    exact absurd bytes long.ne
  rw [String.Pos.Raw.isValid_iff_isUTF8FirstByte, or_iff_right different]
  exact ⟨fun between => ⟨long, between long⟩, fun ⟨_, first⟩ _ => first⟩

section Results

variable {members : List SourceMember} {limits : ScancodeLimits} {path : String}

/-- The score of an entry is read unless it is an integer that is too large. -/
theorem matchScore_ok {entry : PyJson JsonNumber} : (∃ score, matchScore entry = .ok score) ↔
    ∀ value, entry.get? "score" = some (.num (.integer value)) → value.natAbs < floatOverflow := by
  unfold matchScore
  split
  · -- An integer is turned into a float, which overflows beyond the largest one.
    next value given =>
    rw [given]
    split
    · next large =>
      refine iff_of_false (fun ⟨_, same⟩ => by cases same) fun small => ?_
      exact absurd (small value rfl) (by omega)
    · next small =>
      refine iff_of_true ⟨_, rfl⟩ fun other same => ?_
      cases same
      omega
  · -- A number that is a float already is taken as it is.
    next number other given =>
    refine iff_of_true ⟨_, rfl⟩ fun value same => ?_
    rw [given] at same
    cases same
    exact absurd rfl (other value)
  · -- Anything else scores nothing.
    next other =>
    refine iff_of_true ⟨_, rfl⟩ fun value same => absurd same (other _)

/-- An entry is parsed when it has no span or its score is read. -/
theorem parseMatch_ok {entry : PyJson JsonNumber} : (∃ found, parseMatch entry = .ok found) ↔
    ((matchSpan entry).isSome → ∃ score, matchScore entry = .ok score) := by
  unfold parseMatch
  cases matchSpan entry with
  | none => exact iff_of_true ⟨_, rfl⟩ fun absent => by cases absent
  | some span =>
    obtain ⟨spdxId, startLine, endLine⟩ := span
    simp only [bind_ok, pure, Except.pure, Except.ok.injEq, Option.isSome_some, forall_const]
    exact ⟨fun ⟨_, score, read, _⟩ => ⟨score, read⟩, fun ⟨score, read⟩ => ⟨_, score, read, rfl⟩⟩

/-- The entries of a file are projected when each of them is parsed. -/
theorem matchesFromScancode_ok {data : PyJson JsonNumber} :
    (∃ found, matchesFromScancode data path = .ok found) ↔
      ∀ entry ∈ matchEntries data path, ∃ found, parseMatch entry = .ok found := by
  rw [← mapM_ok]
  simp only [matchesFromScancode, bind_ok, pure, Except.pure, Except.ok.injEq]
  exact ⟨fun ⟨_, found, read, _⟩ => ⟨found, read⟩, fun ⟨found, read⟩ => ⟨_, found, read, rfl⟩⟩

/-- The licence matches of a path can be shown exactly when the results are quiet. -/
theorem lineMatchesForPath_ok : (∃ found, lineMatchesForPath members limits path = .ok found) ↔
    QuietResults members limits path := by
  unfold lineMatchesForPath QuietResults
  split
  · -- No results at all: nothing to read, and the condition speaks of none.
    next absent =>
    refine iff_of_true ⟨_, rfl⟩ fun member _ found => ?_
    rw [absent] at found
    cases found
  · next member found =>
    -- Whatever keeps the results from being read leaves the condition with nothing to say.
    split
    · next irregular =>
      refine iff_of_true ⟨_, rfl⟩ fun other _ found' regular => ?_
      cases found.symm.trans found'
      exact absurd regular irregular
    split
    · next long =>
      refine iff_of_true ⟨_, rfl⟩ fun other _ found' _ short => ?_
      cases found.symm.trans found'
      omega
    · next regular short =>
      split
      · next unreadable =>
        refine iff_of_true ⟨_, rfl⟩ fun other _ found' _ _ read => ?_
        cases found.symm.trans found'
        rw [unreadable] at read
        cases read
      · next text read =>
        -- The condition is about one member and one text, so it can be asked of these.
        have only (holds : String → Prop) : holds text ↔ ∀ other given,
            members.find? (fun member => canonicalArcname member.name = scancodeMemberName) = some other →
            other.kind = .regular → other.body.size ≤ limits.maxResultBytes →
            String.fromUTF8? other.body = some given → holds given := by
          constructor
          · rintro here other given found' _ _ read'
            cases found.symm.trans found'
            cases read.symm.trans read'
            exact here
          · exact fun all => all member text found (not_not.mp regular) (by omega) read
        refine Iff.trans ?_ (only fun text =>
          jsonLoads limits.depth text.toList ≠ .error .tooManyDigits ∧
          jsonLoads limits.depth text.toList ≠ .error .tooDeep ∧
          ∀ data, jsonLoads limits.depth text.toList = .ok data → ∀ entry ∈ matchEntries data path,
            (matchSpan entry).isSome → ∀ value, entry.get? "score" = some (.num (.integer value)) →
              value.natAbs < floatOverflow)
        -- Two faults raise, the others are no results, and of a document each score is read.
        cases loaded : jsonLoads limits.depth text.toList with
        | error fault => cases fault <;> simp
        | ok data =>
          simp only [matchesFromScancode_ok, parseMatch_ok, matchScore_ok]
          simp

/-- Results that the archive holds as a text are read as JSON. -/
theorem lineMatchesForPath_read {name text : String} {data : PyJson JsonNumber}
    (held : members.find? (fun member => canonicalArcname member.name = scancodeMemberName) =
      some ⟨name, .regular, text.toUTF8⟩)
    (short : text.utf8ByteSize ≤ limits.maxResultBytes)
    (loaded : jsonLoads limits.depth text.toList = .ok data) :
    lineMatchesForPath members limits path = matchesFromScancode data path := by
  have fits : ¬limits.maxResultBytes < text.toByteArray.size := by
    rw [String.size_toByteArray]
    omega
  rw [lineMatchesForPath, held]
  simp only [ne_eq, not_true, if_false, String.toUTF8_eq_toByteArray, fits, fromUTF8?_toByteArray, loaded]

end Results

variable {members : List SourceMember} {limits : ScancodeLimits} {rawPath path name : String}

/-- What is shown of a regular file. -/
theorem readFile_regular {body : ByteArray} {cap : Nat} (asked : sanitizeMemberPath rawPath = .ok path)
    (inner : path ≠ "") (found : lookupMember members path = .ok ⟨name, .regular, body⟩) :
    readFile members limits cap rawPath =
      (lineMatchesForPath members limits path).mapError .escaped >>= fun licenseMatches =>
        .ok { path, byteSize := body.size, truncated := decide (cap < body.size)
              encoding := (detectEncoding (body.extract 0 cap)).1, content := (detectEncoding (body.extract 0 cap)).2
              licenseMatches } := by
  -- The code reads one byte past the cap to learn whether the file is longer.
  have length : (body.extract 0 (cap + 1)).size = min (cap + 1) body.size := by
    rw [ByteArray.size_extract, Nat.sub_zero]
  have longer : cap < min (cap + 1) body.size ↔ cap < body.size := by omega
  have cut : (if cap < body.size then (body.extract 0 (cap + 1)).extract 0 cap else body.extract 0 (cap + 1)) =
      body.extract 0 cap := by
    split
    · rw [ByteArray.extract_extract]
      congr 1
      omega
    · -- A short file is read whole, and so is its cut.
      next short =>
      rw [extract_whole (Nat.le_of_not_lt short), extract_whole (by omega)]
  rw [readFile, asked]
  simp only [bind, Except.bind, Except.mapError, if_neg inner, found, pure, Except.pure, reduceCtorEq, if_false,
    ne_eq, not_true, length, longer, decide_eq_true_eq, cut]

/-- Nothing is shown of a file when something escapes from reading the results of the licence scan. -/
theorem readFile_escapes {body : ByteArray} {cap : Nat} {fault : ScancodeFault}
    (asked : sanitizeMemberPath rawPath = .ok path) (inner : path ≠ "")
    (found : lookupMember members path = .ok ⟨name, .regular, body⟩)
    (raised : lineMatchesForPath members limits path = .error fault) :
    readFile members limits cap rawPath = .error (.escaped fault) := by
  rw [readFile_regular asked inner found, raised]
  rfl

/-- A text file is shown as its beginning exactly when the cap does not lie inside of one of its characters and
the results of the licence scan are quiet. -/
theorem readFile_text {text : String} {cap : Nat} (plain : '\x00' ∉ text.toList)
    (asked : sanitizeMemberPath rawPath = .ok path) (inner : path ≠ "")
    (found : lookupMember members path = .ok ⟨name, .regular, text.toUTF8⟩) :
    ShowsPrefix text cap (readFile members limits cap rawPath) ↔
      CapBetween text cap ∧ QuietResults members limits path := by
  rw [← lineMatchesForPath_ok]
  cases matched : lineMatchesForPath members limits path with
  | error fault =>
    rw [readFile_escapes asked inner found matched]
    exact iff_of_false (fun ⟨_, _, answer, _⟩ => by cases answer) fun ⟨_, _, read⟩ => by cases read
  | ok licenseMatches =>
    rw [and_iff_left ⟨licenseMatches, rfl⟩, readFile_regular asked inner found, matched,
      String.toUTF8_eq_toByteArray, String.size_toByteArray]
    by_cases long : cap < text.utf8ByteSize
    · rw [capBetween_iff long]
      constructor
      · rintro ⟨file, content, answer, read, -⟩
        rw [← Except.ok.inj answer] at read
        dsimp only at read
        -- A cut inside of a character leaves bytes that are no text.
        by_contra between
        have invalid : ¬ (text.toByteArray.extract 0 cap).IsValidUTF8 := fun valid =>
          between (String.Pos.Raw.isValid_iff_isValidUTF8_extract_zero.mpr ⟨long.le, valid⟩)
        rw [detectEncoding_invalid invalid] at read
        cases read
      · intro between
        -- A cut between two characters leaves the text before it.
        obtain ⟨front, back, rfl, cut⟩ := String.Pos.Raw.isValid_iff_exists_append.mp between
        have size : cap = front.utf8ByteSize := congrArg String.Pos.Raw.byteIdx cut
        have shown : (front ++ back).toByteArray.extract 0 cap = front.toByteArray := by
          rw [String.toByteArray_append, size, ← String.size_toByteArray, ByteArray.extract_append_eq_left rfl]
        have clean : '\x00' ∉ front.toList := by
          rw [String.toList_append] at plain
          exact fun member => plain (List.mem_append_left _ member)
        rw [shown, detectEncoding_text clean]
        refine ⟨_, front, rfl, rfl, rfl, ?_, by omega, by omega, by simp⟩
        rw [String.toList_append]
        exact List.prefix_append _ _
    · refine iff_of_true ?_ fun inside => absurd inside long
      have short : text.toByteArray.size ≤ cap := by
        rw [String.size_toByteArray]
        omega
      rw [extract_whole short, detectEncoding_text plain]
      exact ⟨_, text, rfl, rfl, rfl, List.prefix_rfl, by omega, by omega, by simp⟩

/-- The results of a licence scan with one match. -/
def scanResults : String :=
  "\x7b\"files\": [\x7b\"path\": \"./src/naive.txt\", \"license_detections\": [\x7b\"matches\": [" ++
  "\x7b\"license_expression_spdx\": \" MIT\", \"start_line\": 1, \"end_line\": 2, \"score\": 99.5\x7d" ++
  "]\x7d]\x7d]\x7d"

/-- An archive with one short text and those results. -/
def viewedArchive : List SourceMember :=
  [⟨"./src/naive.txt", .regular, "naïve".toUTF8⟩, ⟨".trustedoss/scancode.json", .regular, scanResults.toUTF8⟩]

/-- What has a value as an option is that value. -/
theorem ok_of_toOption {ε α : Type} {outcome : Except ε α} {value : α}
    (present : outcome.toOption = some value) : outcome = .ok value := by
  cases outcome with
  | error => cases present
  | ok => exact congrArg Except.ok (Option.some.inj present)

/-- The match is found. -/
theorem lineMatchesForPath_viewed : lineMatchesForPath viewedArchive ⟨1000, 900⟩ "src/naive.txt" =
    .ok [⟨PyText.of "MIT", 1, 2, some (.decimal 995 (-1))⟩] := by
  -- Read the report and project it in one evaluation.
  have read : ((jsonLoads 900 scanResults.toList).toOption.bind fun data =>
      (matchesFromScancode data "src/naive.txt").toOption) =
        some [⟨PyText.of "MIT", 1, 2, some (.decimal 995 (-1))⟩] := by
    rw [toList_ascii (by decide +kernel)]
    decide +kernel
  obtain ⟨data, loaded, found⟩ := Option.bind_eq_some_iff.mp read
  rw [@lineMatchesForPath_read viewedArchive ⟨1000, 900⟩ "src/naive.txt" ".trustedoss/scancode.json" scanResults
    data rfl (by decide +kernel) (ok_of_toOption loaded), ok_of_toOption found]

/-- A cap of four bytes lies between two characters: three of them are shown. -/
theorem readFile_text_viewed :
    CapBetween "naïve" 4 ∧ QuietResults viewedArchive ⟨1000, 900⟩ "src/naive.txt" ∧
      ShowsPrefix "naïve" 4 (readFile viewedArchive ⟨1000, 900⟩ 4 "src/naive.txt") := by
  -- The cut falls inside the two bytes of ï, not between characters.
  have between : CapBetween "naïve" 4 := by
    intro inside
    revert inside
    decide
  have quiet : QuietResults viewedArchive ⟨1000, 900⟩ "src/naive.txt" :=
    lineMatchesForPath_ok.mp ⟨_, lineMatchesForPath_viewed⟩
  exact ⟨between, quiet, (@readFile_text viewedArchive ⟨1000, 900⟩ "src/naive.txt" "src/naive.txt"
    "./src/naive.txt" "naïve" 4 (by decide) rfl (by decide) rfl).mpr ⟨between, quiet⟩⟩

/-- An archive with one file of one letter, which has two bytes. -/
def letterArchive : List SourceMember := [⟨"a.txt", .regular, "é".toUTF8⟩]

/-- With room for one of the two bytes the file is taken for a binary one. -/
theorem readFile_text_cut :
    ¬ ∀ (members : List SourceMember) (limits : ScancodeLimits) (rawPath path name text : String) (cap : Nat),
      0 < cap → '\x00' ∉ text.toList → sanitizeMemberPath rawPath = .ok path → path ≠ "" →
      lookupMember members path = .ok ⟨name, .regular, text.toUTF8⟩ →
      ShowsPrefix text cap (readFile members limits cap rawPath) := by
  -- One byte of é is no prefix of it.
  intro always
  obtain ⟨file, content, answer, read, -⟩ :=
    always letterArchive ⟨1000, 900⟩ "a.txt" "a.txt" "a.txt" "é" 1 (by decide) (by decide) rfl (by decide) rfl
  have unmatched : lineMatchesForPath letterArchive ⟨1000, 900⟩ "a.txt" = .ok [] := rfl
  rw [@readFile_regular letterArchive ⟨1000, 900⟩ "a.txt" "a.txt" "a.txt" "é".toUTF8 1 rfl (by decide) rfl,
    unmatched] at answer
  rw [← Except.ok.inj answer] at read
  revert read
  decide

end Trusca
