import Mathlib.Data.List.DropRight
import Trusca.Scan.PayloadCleaning

/-! Cleaning removes every NUL and every surrogate, and leaves a document without them alone unless it holds
the written form of a NUL as plain text. -/

namespace Trusca

open Store

variable {ν : Type}

section Statements

/-- No text of the fields, at any depth, holds NUL or a surrogate. -/
def Storable (fields : List (PyText × PyJson ν)) : Prop :=
  ∀ text ∈ PyJson.fieldTexts fields, ∀ code ∈ text, code ≠ 0 ∧ isSurrogate code = false

/-- The keys of every object are distinct. -/
inductive PyJson.Distinct : PyJson ν → Prop where
  | null : PyJson.Distinct .null
  | bool (value : Bool) : PyJson.Distinct (.bool value)
  | num (value : ν) : PyJson.Distinct (.num value)
  | str (text : PyText) : PyJson.Distinct (.str text)
  | arr (items : List (PyJson ν)) (inner : ∀ item ∈ items, PyJson.Distinct item) :
      PyJson.Distinct (.arr items)
  | obj (fields : List (PyText × PyJson ν)) (distinct : (keys fields).Nodup)
      (inner : ∀ field ∈ fields, PyJson.Distinct field.2) : PyJson.Distinct (.obj fields)

/-- Numbers are written without backslashes and surrogates. -/
def PlainNumbers (repr : ν → PyText) : Prop :=
  ∀ number, ∀ code ∈ repr number, code ≠ 92 ∧ isSurrogate code = false

/-- What the probe looks for stands in a written document. -/
def Hostile (dumped : PyText) : Prop :=
  (∃ code ∈ dumped, isSurrogate code = true) ∨ hostileEscape <:+: dumped

/-- What a text holds when the probe finds something in its written form. -/
def Flagged (text : PyText) : Prop :=
  (∃ code ∈ text, code = 0 ∨ isSurrogate code = true) ∨ hostileEscape <:+: text

end Statements

section Escapes

/-- The rest of the written form of NUL, behind its backslash. -/
def escapeDigits : PyText := [117, 48, 48, 48, 48]

/-- A code point without a letter of its own is written by its number below the space, and else as it is. -/
theorem escapeCodePoint_numbered {code : Nat} (slash : code ≠ 92) (short : code ∉ [34, 10, 13, 9, 12, 8]) :
    escapeCodePoint code =
      if code < 32 then [92, 117, 48, 48, hexDigitOf (code / 16), hexDigitOf (code % 16)] else [code] := by
  simp only [List.mem_cons, List.not_mem_nil, or_false, not_or] at short
  obtain ⟨quote, line, back, tab, feed, delete⟩ := short
  rw [escapeCodePoint, if_neg quote, if_neg slash, if_neg line, if_neg back, if_neg tab, if_neg feed, if_neg delete]

/-- A code point is written as itself, as a doubled backslash, as NUL is, or with a backslash and something
else behind it. -/
theorem escapeCodePoint_cases (code : Nat) :
    (escapeCodePoint code = [code] ∧ code ≠ 92 ∧ code ≠ 0) ∨
      (code = 92 ∧ escapeCodePoint code = [92, 92]) ∨
      (code = 0 ∧ escapeCodePoint code = hostileEscape) ∨
      code ≠ 92 ∧ code ≠ 0 ∧ ∃ tail, escapeCodePoint code = 92 :: tail ∧ 92 ∉ tail ∧
        ∀ more, ¬ escapeDigits <+: tail ++ more := by
  -- The short escapes have one letter behind the backslash, and none of them starts a numbered one.
  have letter {second : Nat} (known : second ∈ ([34, 110, 114, 116, 102, 98] : PyText)) :
      92 ∉ [second] ∧ ∀ more, ¬ escapeDigits <+: [second] ++ more := by
    have apart : ∀ second ∈ ([34, 110, 114, 116, 102, 98] : PyText), 92 ≠ second ∧ 117 ≠ second := by decide
    refine ⟨by simpa using (apart second known).1, fun more starts => ?_⟩
    exact (apart second known).2 (List.cons_prefix_cons.mp starts).1
  -- The numbered ones end in two digits, which are not both zero.
  have digits : ∀ number < 32, number ≠ 0 →
      92 ≠ hexDigitOf (number / 16) ∧ 92 ≠ hexDigitOf (number % 16) ∧
        ¬(48 = hexDigitOf (number / 16) ∧ 48 = hexDigitOf (number % 16)) := by decide
  -- NUL, the backslash, a plain character; what is left is escaped.
  by_cases zero : code = 0
  · exact .inr (.inr (.inl ⟨zero, by subst zero; rfl⟩))
  by_cases slash : code = 92
  · exact .inr (.inl ⟨slash, by subst slash; rfl⟩)
  by_cases plain : escapeCodePoint code = [code]
  · exact .inl ⟨plain, slash, zero⟩
  refine .inr (.inr (.inr ⟨slash, zero, ?_⟩))
  -- With a letter behind the backslash, or with four digits.
  by_cases short : code ∈ [34, 10, 13, 9, 12, 8]
  · simp only [List.mem_cons, List.not_mem_nil, or_false] at short
    obtain rfl | rfl | rfl | rfl | rfl | rfl := short
    · exact ⟨[34], rfl, letter (by decide)⟩
    · exact ⟨[110], rfl, letter (by decide)⟩
    · exact ⟨[114], rfl, letter (by decide)⟩
    · exact ⟨[116], rfl, letter (by decide)⟩
    · exact ⟨[102], rfl, letter (by decide)⟩
    · exact ⟨[98], rfl, letter (by decide)⟩
  · have form := escapeCodePoint_numbered slash short
    by_cases small : code < 32
    · obtain ⟨first, second, both⟩ := digits code small zero
      refine ⟨_, form.trans (if_pos small), ?_, fun more starts => both ?_⟩
      · simp [first, second]
      · simp only [escapeDigits, List.cons_append, List.cons_prefix_cons, true_and] at starts
        exact ⟨starts.1, starts.2.1⟩
    · exact absurd (form.trans (if_neg small)) plain

/-- Plain characters at the start of a written text are those of the text. -/
theorem prefix_escaped {pattern text : PyText}
    (plain : ∀ code ∈ pattern, code ≠ 92 ∧ escapeCodePoint code = [code]) :
    pattern <+: text.flatMap escapeCodePoint ↔ pattern <+: text := by
  -- Letter by letter along the pattern, which has no backslash in it.
  induction pattern generalizing text with
  | nil => simp
  | cons letter rest ih =>
    obtain ⟨⟨slash, own⟩, more⟩ := List.forall_mem_cons.mp plain
    cases text with
    | nil => simp
    | cons code text =>
      rw [List.flatMap_cons, List.cons_prefix_cons]
      -- A character that is escaped starts with a backslash, which is not the letter.
      have other {tail : PyText} (written : escapeCodePoint code = 92 :: tail) (apart : letter ≠ code) :
          letter :: rest <+: escapeCodePoint code ++ text.flatMap escapeCodePoint ↔
            letter = code ∧ rest <+: text := by
        rw [written, List.cons_append, List.cons_prefix_cons]
        simp [slash, apart]
      -- The letter itself is written as it stands; any other starts something else.
      by_cases same : letter = code
      · subst same
        rw [own, List.singleton_append, List.cons_prefix_cons, ih more]
      · obtain ⟨written, -⟩ | ⟨-, written⟩ | ⟨-, written⟩ | ⟨-, -, tail, written, -⟩ :=
          escapeCodePoint_cases code
        · rw [written, List.singleton_append, List.cons_prefix_cons]
          simp [same]
        · exact other written same
        · exact other written same
        · exact other written same

/-- The written form of NUL stands in a written text when the text holds NUL, or that form itself. -/
theorem hostileEscape_escaped {text : PyText} :
    hostileEscape <:+: text.flatMap escapeCodePoint ↔ 0 ∈ text ∨ hostileEscape <:+: text := by
  have split : hostileEscape = 92 :: escapeDigits := rfl
  induction text with
  | nil => simp [hostileEscape]
  | cons code text ih =>
    -- The form is a backslash and six letters, none of which is escaped.
    have digits : ∀ letter ∈ escapeDigits, letter ≠ 92 ∧ escapeCodePoint letter = [letter] := by decide
    -- What is written without a backslash can be left away.
    have unslashed {tail : PyText} (plain : 92 ∉ tail) (rest : PyText) :
        hostileEscape <:+: tail ++ rest ↔ hostileEscape <:+: rest := by
      induction tail with
      | nil => rfl
      | cons letter tail inner =>
        obtain ⟨apart, later⟩ := not_or.mp (fun same => plain (List.mem_cons.mpr same))
        rw [List.cons_append, List.infix_cons_iff, inner later, split, List.cons_prefix_cons]
        simp [apart]
    have earlier : hostileEscape <:+: text.flatMap escapeCodePoint ↔
        0 ∈ text ∨ hostileEscape <:+: text := ih
    rw [List.flatMap_cons, List.mem_cons, @List.infix_cons_iff _ hostileEscape code text]
    -- The escape of the first code point: itself, a backslash, the form, or something else.
    obtain ⟨written, slash, zero⟩ | ⟨rfl, written⟩ | ⟨rfl, written⟩ |
      ⟨slash, zero, tail, written, plain, apart⟩ := escapeCodePoint_cases code
    · rw [written, unslashed (by simpa using Ne.symm slash), earlier, split, List.cons_prefix_cons]
      simp [Ne.symm zero, Ne.symm slash]
    · -- The second backslash may be followed by the rest of the form.
      rw [written, List.cons_append, List.infix_cons_iff, List.singleton_append, List.infix_cons_iff, earlier]
      rw [split, List.cons_prefix_cons, List.cons_prefix_cons, List.cons_prefix_cons, prefix_escaped digits]
      have clash : ¬ escapeDigits <+: 92 :: text.flatMap escapeCodePoint := by
        intro starts
        exact absurd (List.cons_prefix_cons.mp starts).1 (by decide)
      have nul : (0 : Nat) ≠ 92 := by decide
      simp only [clash, nul, and_false, false_or, true_and]
      exact or_left_comm
    · -- NUL is written as the form itself.
      rw [written]
      exact iff_of_true (List.prefix_append _ _).isInfix (.inl (.inl rfl))
    · rw [written, List.cons_append, List.infix_cons_iff, unslashed plain, earlier, split,
        List.cons_prefix_cons, List.cons_prefix_cons]
      simp [Ne.symm slash, Ne.symm zero, apart]

/-- Escaping a text keeps whether it has a surrogate. -/
theorem surrogate_escaped {text : PyText} :
    (∃ code ∈ text.flatMap escapeCodePoint, isSurrogate code = true) ↔
      ∃ code ∈ text, isSurrogate code = true := by
  have small {code : Nat} (below : code < 128) : isSurrogate code = false := by
    have apart : ¬ 0xD800 ≤ code := by omega
    simp [isSurrogate, apart]
  -- A code point writes a surrogate only if it is one.
  have own (code : Nat) :
      (∃ written ∈ escapeCodePoint code, isSurrogate written = true) ↔ isSurrogate code = true := by
    by_cases ascii : code < 128
    · -- An escape is written in ASCII, and only ASCII is escaped.
      have written : ∀ code < 128, ∀ written ∈ escapeCodePoint code, written < 128 := by decide +kernel
      refine iff_of_false (fun found => ?_) (by simp [small ascii])
      obtain ⟨letter, member, half⟩ := found
      rw [small (written code ascii letter member)] at half
      cases half
    · have large : code ∉ [34, 10, 13, 9, 12, 8] := by
        simp only [List.mem_cons, List.not_mem_nil, or_false]
        omega
      rw [escapeCodePoint_numbered (by omega) large, if_neg (by omega)]
      simp
  simp only [List.mem_flatMap]
  constructor
  · intro found
    obtain ⟨written, ⟨code, member, within⟩, half⟩ := found
    exact ⟨code, member, (own code).mp ⟨written, within, half⟩⟩
  · intro found
    obtain ⟨code, member, half⟩ := found
    obtain ⟨written, within, half⟩ := (own code).mpr half
    exact ⟨written, ⟨code, member, within⟩, half⟩

/-- The probe finds something in a written text exactly when the text is flagged. -/
theorem hostile_escaped {text : PyText} : Hostile (text.flatMap escapeCodePoint) ↔ Flagged text := by
  rw [Hostile, Flagged, surrogate_escaped, hostileEscape_escaped]
  constructor
  · -- A half of a pair, a NUL, or an escape of the text's own.
    intro found
    obtain ⟨code, member, half⟩ | nul | form := found
    · exact .inl ⟨code, member, .inr half⟩
    · exact .inl ⟨0, nul, .inl rfl⟩
    · exact .inr form
  · -- Each of the three shows in the escaped text as well.
    intro flagged
    obtain ⟨code, member, rfl | half⟩ | form := flagged
    · exact .inr (.inl member)
    · exact .inl ⟨code, member, half⟩
    · exact .inr (.inr form)

end Escapes

section Probe

/-- The probe finds the texts that the column refuses. -/
theorem isJsonbHostile_iff {dumped : PyText} : isJsonbHostile dumped = true ↔ Hostile dumped := by
  rw [isJsonbHostile, Hostile, Bool.or_eq_true, List.any_eq_true, List.any_eq_true,
    List.infix_iff_prefix_suffix]
  refine or_congr Iff.rfl (exists_congr fun rest => ?_)
  rw [List.mem_tails, List.isPrefixOf_iff_prefix]
  exact and_comm

/-- A mark of the notation separates what the probe can find. -/
theorem Hostile.append_cons {mark : Nat} (ascii : mark < 128) (foreign : mark ∉ hostileEscape)
    (before after : PyText) : Hostile (before ++ mark :: after) ↔ Hostile before ∨ Hostile after := by
  have plain : isSurrogate mark = false := by
    have apart : ¬ 0xD800 ≤ mark := by omega
    simp [isSurrogate, apart]
  rw [Hostile, Hostile, Hostile, infix_append_cons foreign]
  simp only [List.mem_append, List.mem_cons, or_and_right, exists_or, exists_eq_left, plain]
  simp only [Bool.false_eq_true, false_or]
  exact or_or_or_comm

/-- A text without backslashes and surrogates is not hostile. -/
theorem not_hostile_plain {text : PyText} (plain : ∀ code ∈ text, code ≠ 92 ∧ isSurrogate code = false) :
    ¬ Hostile text := by
  intro found
  obtain ⟨code, member, half⟩ | form := found
  · rw [(plain code member).2] at half
    cases half
  · exact (plain 92 (form.subset (by decide))).1 rfl

/-- A text is hostile once quoted when it is flagged. -/
theorem hostile_quoteText {text : PyText} : Hostile (quoteText text) ↔ Flagged text := by
  have opening := Hostile.append_cons (by decide : (34 : Nat) < 128) (by decide) []
    (text.flatMap escapeCodePoint ++ [34])
  have closing := Hostile.append_cons (by decide : (34 : Nat) < 128) (by decide)
    (text.flatMap escapeCodePoint) []
  have nothing : ¬ Hostile [] := not_hostile_plain (by simp)
  rw [quoteText, List.cons_append, ← List.nil_append (34 :: _), opening, closing, hostile_escaped]
  simp [nothing]

variable {repr : ν → PyText}

/-- The probe finds something in a written value exactly when one of its texts is flagged. -/
theorem hostile_dumps (plain : PlainNumbers repr) (value : PyJson ν) :
    Hostile (value.dumps repr) ↔ ∃ text ∈ value.texts, Flagged text := by
  -- The separators of the text neither are hostile nor start an escape.
  have between (mark : Nat) (known : mark ∈ ([32, 44, 58, 91, 93, 123, 125] : PyText))
      (before after : PyText) : Hostile (before ++ mark :: after) ↔ Hostile before ∨ Hostile after := by
    refine Hostile.append_cons ?_ ?_ before after
    all_goals
      revert known
      revert mark
      decide
  -- Nothing hostile is in the empty text, so a mark at the end or the start adds none.
  have nothing : ¬ Hostile [] := not_hostile_plain (by simp)
  have leading (mark : Nat) (known : mark ∈ ([32, 44, 58, 91, 93, 123, 125] : PyText)) (after : PyText) :
      Hostile (mark :: after) ↔ Hostile after := by
    have parts := between mark known [] after
    rwa [or_iff_right nothing] at parts
  have trailing (mark : Nat) (known : mark ∈ ([32, 44, 58, 91, 93, 123, 125] : PyText))
      (before : PyText) : Hostile (before ++ [mark]) ↔ Hostile before := by
    rw [between mark known, or_iff_left nothing]
  -- Along the value: what is hostile in the written text lies within one of its strings.
  induction value using PyJson.nested with
  | null =>
    have plainText : ∀ code ∈ ([110, 117, 108, 108] : PyText), code ≠ 92 ∧ isSurrogate code = false := by
      decide
    exact iff_of_false (not_hostile_plain plainText) (by simp [PyJson.texts])
  | bool value =>
    have plainTexts : ∀ word ∈ ([[116, 114, 117, 101], [102, 97, 108, 115, 101]] : List PyText),
        ∀ code ∈ word, code ≠ 92 ∧ isSurrogate code = false := by decide
    refine iff_of_false (not_hostile_plain (plainTexts _ ?_)) (by simp [PyJson.texts])
    cases value <;> simp [PyJson.dumps]
  | num value => exact iff_of_false (not_hostile_plain (plain value)) (by simp [PyJson.texts])
  | str text => simp [PyJson.dumps, PyJson.texts, hostile_quoteText]
  -- A list is written item by item, with marks in between.
  | arr items ih =>
    have inner : Hostile (PyJson.dumpItems repr items) ↔ ∃ text ∈ PyJson.itemTexts items, Flagged text := by
      induction items with
      | nil => exact iff_of_false nothing (by simp [PyJson.itemTexts])
      | cons item rest inner =>
        obtain ⟨first, later⟩ := List.forall_mem_cons.mp ih
        have here : Hostile (item.dumps repr) ↔ ∃ text ∈ item.texts, Flagged text := first
        cases rest with
        | nil => simpa [PyJson.dumpItems, PyJson.itemTexts] using here
        | cons next rest =>
          rw [PyJson.dumpItems, between 44 (by decide), leading 32 (by decide), here, inner later]
          simp only [PyJson.itemTexts, List.mem_append, or_and_right, exists_or]
    rw [PyJson.dumps, List.cons_append, leading 91 (by decide), trailing 93 (by decide), inner, PyJson.texts]
  -- A mapping has the key's text as well as the value's.
  | obj fields ih =>
    have one (field : PyText × PyJson ν) (own : Hostile (field.2.dumps repr) ↔
        ∃ text ∈ field.2.texts, Flagged text) :
        Hostile (quoteText field.1 ++ 58 :: 32 :: field.2.dumps repr) ↔
          Flagged field.1 ∨ ∃ text ∈ field.2.texts, Flagged text := by
      rw [between 58 (by decide), leading 32 (by decide), hostile_quoteText, own]
    have inner : Hostile (PyJson.dumpFields repr fields) ↔
        ∃ text ∈ PyJson.fieldTexts fields, Flagged text := by
      induction fields with
      | nil => exact iff_of_false nothing (by simp [PyJson.fieldTexts])
      | cons field rest inner =>
        obtain ⟨here, later⟩ := List.forall_mem_cons.mp ih
        cases rest with
        | nil =>
          rw [PyJson.dumpFields, one field here]
          simp [PyJson.fieldTexts]
        | cons next rest =>
          rw [PyJson.dumpFields, between 44 (by decide), leading 32 (by decide), one field here, inner later]
          simp only [PyJson.fieldTexts, List.cons_append, List.mem_cons, List.mem_append, or_and_right,
            exists_or, exists_eq_left, or_assoc]
    rw [PyJson.dumps, List.cons_append, leading 123 (by decide), trailing 125 (by decide), inner,
      PyJson.texts]

end Probe

section Cleaning

/-- What cleaning keeps is neither NUL nor a surrogate. -/
theorem mem_sanitizeJsonbText {text : PyText} {code : Nat} (member : code ∈ PyText.sanitizeJsonbText text) :
    code ∈ text ∧ keepsCodePoint code = true := by
  rw [PyText.sanitizeJsonbText, List.mem_reverse] at member
  have within := List.mem_reverse.mp ((List.dropWhile_sublist _).mem member)
  exact List.mem_filter.mp ((List.dropWhile_sublist _).mem within)

/-- A code point that is kept is neither zero nor a surrogate. -/
theorem keepsCodePoint_storable {code : Nat} (kept : keepsCodePoint code = true) :
    code ≠ 0 ∧ isSurrogate code = false := by
  rw [keepsCodePoint, Bool.or_eq_true, beq_iff_eq] at kept
  obtain rfl | plain := kept
  · decide
  · simp only [Bool.and_eq_true, decide_eq_true_eq, Bool.not_eq_true'] at plain
    exact ⟨by omega, plain.2⟩

/-- A text without white space at its ends stays without it. -/
theorem rdropWhile_dropWhile_idem {α : Type} (blank : α → Bool) (text : List α) :
    ((((text.dropWhile blank).rdropWhile blank)).dropWhile blank).rdropWhile blank =
      (text.dropWhile blank).rdropWhile blank := by
  -- What is left starts with a character that is kept.
  have start : ((text.dropWhile blank).rdropWhile blank).dropWhile blank =
      (text.dropWhile blank).rdropWhile blank := by
    rw [List.dropWhile_eq_self_iff]
    intro nonempty
    have kept := List.rdropWhile_prefix blank (text.dropWhile blank)
    have first := List.dropWhile_get_zero_not blank text (nonempty.trans_le kept.length_le)
    rw [List.get_eq_getElem, ← kept.getElem nonempty] at first
    simpa using first
  rw [start, List.rdropWhile_idempotent]

/-- Cleaning a cleaned text changes nothing. -/
theorem sanitizeJsonbText_idem (text : PyText) :
    PyText.sanitizeJsonbText (PyText.sanitizeJsonbText text) = PyText.sanitizeJsonbText text := by
  -- Every code point that is left is one that is kept.
  have kept : (PyText.sanitizeJsonbText text).filter keepsCodePoint = PyText.sanitizeJsonbText text :=
    List.filter_eq_self.mpr fun code member => (mem_sanitizeJsonbText member).2
  have once : PyText.sanitizeJsonbText (PyText.sanitizeJsonbText text) =
      ((PyText.sanitizeJsonbText text).dropWhile isSpaceCode).rdropWhile isSpaceCode := by
    rw [PyText.sanitizeJsonbText, kept]
    rfl
  rw [once]
  exact rdropWhile_dropWhile_idem isSpaceCode (text.filter keepsCodePoint)

/-- Assignments put nothing into a dictionary that was not assigned. -/
theorem mem_buildDict {fields : List (PyText × PyJson ν)} {field : PyText × PyJson ν}
    (member : field ∈ buildDict fields) : field ∈ fields := by
  have run (soFar : List (PyText × PyJson ν))
      (within : field ∈ fields.foldl (fun soFar field => put soFar field.1 field.2) soFar) :
      field ∈ soFar ∨ field ∈ fields := by
    clear member
    -- Along the fields: a put replaces a value, or it adds the field.
    induction fields generalizing soFar with
    | nil => exact .inl within
    | cons next rest ih =>
      obtain before | later := ih (put soFar next.1 next.2) within
      · obtain old | new := mem_put before
        · exact .inl old
        · exact .inr (List.mem_cons.mpr (.inl new))
      · exact .inr (List.mem_cons_of_mem _ later)
  exact (run [] member).elim (fun nothing => by cases nothing) id

/-- The keys of a dictionary are distinct. -/
theorem buildDict_nodup (fields : List (PyText × PyJson ν)) : (keys (buildDict fields)).Nodup := by
  have step (soFar : List (PyText × PyJson ν)) (distinct : (keys soFar).Nodup) (field : PyText × PyJson ν)
      (_ : field ∈ fields) : (keys (put soFar field.1 field.2)).Nodup :=
    keys_put_nodup distinct field.1 field.2
  exact List.foldlRecOn (motive := fun soFar => (keys soFar).Nodup) fields _ List.nodup_nil step

/-- Distinct keys are all kept, in their order. -/
theorem buildDict_of_nodup {fields : List (PyText × PyJson ν)} (distinct : (keys fields).Nodup) :
    buildDict fields = fields := by
  have run (soFar : List (PyText × PyJson ν)) (fresh : (keys (soFar ++ fields)).Nodup) :
      fields.foldl (fun soFar field => put soFar field.1 field.2) soFar = soFar ++ fields := by
    induction fields generalizing soFar with
    | nil => simp
    | cons field rest ih =>
      -- The key is new, so the field goes last.
      have new : field.1 ∉ keys soFar := by
        intro listed
        rw [keys_append, keys_cons] at fresh
        exact (List.nodup_append.mp fresh).2.2 field.1 listed field.1 List.mem_cons_self rfl
      rw [List.foldl_cons, put_of_not_mem new, ih (List.nodup_cons.mp distinct).2, List.append_assoc]
      · rfl
      · simpa using fresh
  exact run [] distinct

/-- Cleaning the items of a list is cleaning each of them. -/
theorem deepSanitizeItems_eq (items : List (PyJson ν)) :
    deepSanitizeItems items = items.map deepSanitizeJsonb := by
  induction items with
  | nil => rfl
  | cons item rest ih => rw [deepSanitizeItems, ih, List.map_cons]

/-- Cleaning the fields of an object is cleaning each name and each value. -/
theorem deepSanitizeFields_eq (fields : List (PyText × PyJson ν)) :
    deepSanitizeFields fields =
      fields.map fun field => (PyText.sanitizeJsonbText field.1, deepSanitizeJsonb field.2) := by
  induction fields with
  | nil => rfl
  | cons field rest ih => rw [deepSanitizeFields, ih, List.map_cons]

/-- The texts of cleaned fields are cleaned texts, when those of their values are. -/
theorem fieldTexts_cleaned {fields : List (PyText × PyJson ν)}
    (values : ∀ field ∈ fields, ∀ text ∈ (deepSanitizeJsonb field.2).texts,
      PyText.sanitizeJsonbText text = text) :
    ∀ text ∈ PyJson.fieldTexts (buildDict (deepSanitizeFields fields)),
      PyText.sanitizeJsonbText text = text := by
  intro text member
  rw [PyJson.fieldTexts_eq, List.mem_flatMap] at member
  obtain ⟨field, kept, within⟩ := member
  have listed := mem_buildDict kept
  rw [deepSanitizeFields_eq, List.mem_map] at listed
  obtain ⟨original, source, rfl⟩ := listed
  -- The key's text was cleaned, or the text lies in the value.
  obtain rfl | inside := List.mem_cons.mp within
  · exact sanitizeJsonbText_idem original.1
  · exact values original source text inside

/-- Every text of a cleaned value is a cleaned text. -/
theorem texts_cleaned (value : PyJson ν) :
    ∀ text ∈ (deepSanitizeJsonb value).texts, PyText.sanitizeJsonbText text = text := by
  -- Along the value; every string in it has been cleaned, and cleaning twice is cleaning once.
  induction value using PyJson.nested with
  | null | bool _ | num _ => simp [deepSanitizeJsonb, PyJson.texts]
  | str text =>
    intro other member
    rw [deepSanitizeJsonb, PyJson.texts, List.mem_singleton] at member
    rw [member, sanitizeJsonbText_idem]
  | arr items ih =>
    intro text member
    rw [deepSanitizeJsonb, PyJson.texts, PyJson.itemTexts_eq, deepSanitizeItems_eq,
      List.mem_flatMap] at member
    obtain ⟨cleaned, listed, within⟩ := member
    obtain ⟨item, source, rfl⟩ := List.mem_map.mp listed
    exact ih item source text within
  | obj fields ih =>
    rw [deepSanitizeJsonb, PyJson.texts]
    exact fieldTexts_cleaned ih

/-- Fields whose texts cleaning leaves alone stay as they are. -/
theorem buildDict_cleaned {fields : List (PyText × PyJson ν)} (distinct : (keys fields).Nodup)
    (texts : ∀ text ∈ PyJson.fieldTexts fields, PyText.sanitizeJsonbText text = text)
    (values : ∀ field ∈ fields, (∀ text ∈ field.2.texts, PyText.sanitizeJsonbText text = text) →
      deepSanitizeJsonb field.2 = field.2) : buildDict (deepSanitizeFields fields) = fields := by
  have same : deepSanitizeFields fields = fields := by
    rw [deepSanitizeFields_eq]
    conv_rhs => rw [← List.map_id fields]
    refine List.map_congr_left fun field listed => ?_
    rw [PyJson.fieldTexts_eq] at texts
    -- The key and the texts of its value are clean already.
    have own (text : PyText) (inside : text ∈ field.1 :: field.2.texts) :
        PyText.sanitizeJsonbText text = text :=
      texts text (List.mem_flatMap.mpr ⟨field, listed, inside⟩)
    rw [own field.1 List.mem_cons_self,
      values field listed fun text inside => own text (List.mem_cons_of_mem _ inside)]
    rfl
  rw [same, buildDict_of_nodup distinct]

/-- A value whose texts cleaning leaves alone stays as it is. -/
theorem deepSanitizeJsonb_eq_self {value : PyJson ν} (distinct : value.Distinct)
    (texts : ∀ text ∈ value.texts, PyText.sanitizeJsonbText text = text) :
    deepSanitizeJsonb value = value := by
  -- Along the value; with distinct keys the dictionary is built as it was.
  induction distinct with
  | null | bool _ | num _ => rfl
  | str text => rw [deepSanitizeJsonb, texts text (List.mem_singleton.mpr rfl)]
  | arr items _ ih =>
    rw [PyJson.texts, PyJson.itemTexts_eq] at texts
    rw [deepSanitizeJsonb, deepSanitizeItems_eq]
    congr 1
    conv_rhs => rw [← List.map_id items]
    refine List.map_congr_left fun item listed => ?_
    exact ih item listed fun text inside => texts text (List.mem_flatMap.mpr ⟨item, listed, inside⟩)
  | obj fields keys _ ih =>
    rw [deepSanitizeJsonb, buildDict_cleaned keys texts ih]

/-- Cleaning a value keeps the keys of every object distinct. -/
theorem deepSanitizeJsonb_distinct (value : PyJson ν) : (deepSanitizeJsonb value).Distinct := by
  -- Along the value: a cleaned mapping is built key by key, so no key is in it twice.
  induction value using PyJson.nested with
  | null => exact .null
  | bool value => exact .bool value
  | num value => exact .num value
  | str text => exact .str _
  | arr items ih =>
    rw [deepSanitizeJsonb, deepSanitizeItems_eq]
    refine .arr _ fun cleaned listed => ?_
    obtain ⟨item, source, rfl⟩ := List.mem_map.mp listed
    exact ih item source
  | obj fields ih =>
    refine .obj _ (buildDict_nodup _) fun cleaned kept => ?_
    have listed := mem_buildDict kept
    rw [deepSanitizeFields_eq, List.mem_map] at listed
    obtain ⟨field, source, rfl⟩ := listed
    exact ih field source

end Cleaning

section Payload

variable {repr : ν → PyText} {payload : List (PyText × PyJson ν)}

/-- A document that is not cleaned can be stored. -/
theorem storable_of_unhostile (plain : PlainNumbers repr)
    (clear : ¬ Hostile ((PyJson.obj payload).dumps repr)) : Storable payload := by
  intro text member code inside
  by_contra bad
  refine clear ((hostile_dumps plain _).mpr ⟨text, member, .inl ⟨code, inside, ?_⟩⟩)
  by_contra fine
  simp only [not_or, Bool.not_eq_true] at fine
  exact bad fine

/-- An object is still one after cleaning. -/
theorem sanitizeJsonbPayload_distinct (distinct : (PyJson.obj payload).Distinct) :
    (PyJson.obj (sanitizeJsonbPayload repr payload)).Distinct := by
  rw [sanitizeJsonbPayload]
  split_ifs
  · exact deepSanitizeJsonb_distinct (.obj payload)
  · exact distinct

/-- A cleaned payload can be stored. -/
theorem storable_cleaned (payload : List (PyText × PyJson ν)) :
    Storable (buildDict (deepSanitizeFields payload)) := by
  intro text member code inside
  have clean := fieldTexts_cleaned (fun field _ => texts_cleaned field.2) text member
  rw [← clean] at inside
  exact keepsCodePoint_storable (mem_sanitizeJsonbText inside).2

/-- What is stored never holds NUL or a surrogate; and a document without them is stored as it is exactly
when no text holds the written form of NUL, or cleaning leaves every text as it is. -/
theorem sanitizeJsonbPayload_exact_iff (plain : PlainNumbers repr)
    (distinct : (PyJson.obj payload).Distinct) :
    (Storable (sanitizeJsonbPayload repr payload) ∧
        (Storable payload → sanitizeJsonbPayload repr payload = payload)) ↔
      ¬ Storable payload ∨ (∀ text ∈ PyJson.fieldTexts payload, ¬ hostileEscape <:+: text) ∨
        ∀ text ∈ PyJson.fieldTexts payload, PyText.sanitizeJsonbText text = text := by
  -- Either the payload was cleaned, or the probe has found nothing to clean.
  have always : Storable (sanitizeJsonbPayload repr payload) := by
    rw [sanitizeJsonbPayload]
    split_ifs with hostile
    · exact storable_cleaned payload
    · rw [isJsonbHostile_iff] at hostile
      exact storable_of_unhostile plain hostile
  rw [and_iff_right always]
  by_cases storable : Storable payload
  · -- Without NUL and surrogates only the written form of NUL makes the probe find something.
    have probe : isJsonbHostile ((PyJson.obj payload).dumps repr) = true ↔
        ∃ text ∈ PyJson.fieldTexts payload, hostileEscape <:+: text := by
      rw [isJsonbHostile_iff, hostile_dumps plain]
      refine exists_congr fun text => and_congr_right fun member => or_iff_right ?_
      intro found
      obtain ⟨code, inside, bad⟩ := found
      obtain ⟨nul, half⟩ := storable text member code inside
      simp [nul, half] at bad
    rw [iff_true_intro storable, true_implies, not_true, false_or, sanitizeJsonbPayload]
    -- A text with the form goes through the cleaning, and has to survive it.
    split_ifs with hostile
    · rw [probe] at hostile
      obtain ⟨text, member, form⟩ := hostile
      rw [or_iff_right fun clear => clear text member form]
      constructor
      · intro same other listed
        rw [← same] at listed
        exact fieldTexts_cleaned (fun field _ => texts_cleaned field.2) other listed
      · intro fixed
        cases distinct with
        | obj _ keys inner =>
          exact buildDict_cleaned keys fixed fun field listed texts =>
            deepSanitizeJsonb_eq_self (inner field listed) texts
    · -- Without the form the payload is stored as it is.
      rw [probe] at hostile
      push Not at hostile
      exact iff_of_true rfl (.inl hostile)
  · -- A payload that cannot be stored promises nothing.
    exact iff_of_true (fun clean => absurd clean storable) (.inl storable)

end Payload

section Spelled

/-- An object with one text. -/
def singleText (text : PyText) : List (PyText × PyJson Nat) := [([110], .str text)]

/-- An object with one field names none twice. -/
theorem singleText_distinct (text : PyText) : (PyJson.obj (singleText text)).Distinct :=
  .obj _ (by simp [singleText]) fun field listed => by
    rw [List.mem_singleton.mp listed]
    exact .str text

/-- Numbers written as their last digit have no backslashes. -/
theorem plainNumbers_digit : PlainNumbers fun number : Nat => [48 + number % 10] := by
  intro number code digit
  have small := Nat.mod_lt number (by decide : 0 < 10)
  rw [List.mem_singleton] at digit
  have below : ¬ 0xD800 ≤ code := by omega
  exact ⟨by omega, by simp [isSurrogate, below]⟩

/-- A text that spells the written form of NUL out, with a line break behind it, loses the line break. -/
theorem sanitizeJsonbPayload_spelled :
    ¬ ∀ (repr : Nat → PyText) (payload : List (PyText × PyJson Nat)), PlainNumbers repr →
        (PyJson.obj payload).Distinct →
        Storable (sanitizeJsonbPayload repr payload) ∧
          (Storable payload → sanitizeJsonbPayload repr payload = payload) := by
  intro exact
  have same := (exact _ (singleText (hostileEscape ++ [10])) plainNumbers_digit
    (singleText_distinct _)).2 (by unfold Storable; decide)
  have cleaned : sanitizeJsonbPayload (fun number : Nat => [48 + number % 10])
      (singleText (hostileEscape ++ [10])) = singleText hostileEscape := rfl
  rw [cleaned] at same
  exact absurd (congrArg PyJson.fieldTexts same) (by decide)

/-- A text that spells the written form of NUL out, with nothing to clean, stays as it is. -/
theorem sanitizeJsonbPayload_exact_spelled :
    sanitizeJsonbPayload (fun number : Nat => [48 + number % 10]) (singleText hostileEscape) =
      singleText hostileEscape :=
  ((sanitizeJsonbPayload_exact_iff plainNumbers_digit (singleText_distinct _)).mpr
    (.inr (.inr (by decide)))).2 (by unfold Storable; decide)

end Spelled

end Trusca
