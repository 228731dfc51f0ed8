import Trusca.Data.Outcome
import Trusca.Proofs.License.Expression

/-! The licence-expression parser reads exactly the sentences of its grammar, as the one tree each
of them has. -/

namespace Trusca

section Grammar

/-- What an operator joins: alternatives of conjunctions, conjunctions of licences with exceptions,
and those of primaries. A level without an operator is that of the primaries. -/
def operandLevel : SpdxOperator → Option SpdxOperator
  | .OR => some .AND
  | .AND => some .WITH
  | .WITH => none

/-- The grammar. At the level of an operator stands one operand, or what stands there already
followed by the operator and one operand more, so the tree leans to the left. The number is how
deep the parentheses nest. -/
inductive Derives : Option SpdxOperator → List SpdxToken → SpdxExpr → Nat → Prop where
  | id (name : String) : Derives none [.id name] (.id name) 0
  | paren {tokens : List SpdxToken} {tree : SpdxExpr} {depth : Nat}
      (inner : Derives (some .OR) tokens tree depth) :
      Derives none (.lparen :: (tokens ++ [SpdxToken.rparen])) tree (depth + 1)
  | operand {op : SpdxOperator} {tokens : List SpdxToken} {tree : SpdxExpr} {depth : Nat}
      (single : Derives (operandLevel op) tokens tree depth) :
      Derives (some op) tokens tree depth
  | joined {op : SpdxOperator} {left right : List SpdxToken} {first second : SpdxExpr}
      {high low : Nat} (before : Derives (some op) left first high)
      (after : Derives (operandLevel op) right second low) :
      Derives (some op) (left ++ SpdxToken.operator op :: right) (.node op first second) (max high low)

/-- The tokens of a text, without any bound: words between blanks and parentheses. -/
def lexFrom : List Char → List Char → List SpdxToken
  | [], word => if word.isEmpty then [] else [wordToken word]
  | character :: rest, word =>
      let before := if word.isEmpty then [] else [wordToken word]
      if character == ' ' then before ++ lexFrom rest []
      else if character == '(' then before ++ .lparen :: lexFrom rest []
      else if character == ')' then before ++ .rparen :: lexFrom rest []
      else lexFrom rest (word ++ [character])

/-- The token sequence of a text. -/
def tokensOf (text : String) : List SpdxToken := lexFrom text.toList []

/-- A text the grammar and the bounds admit. -/
def Readable (text : String) : Prop :=
  text.length ≤ maxExpressionLength ∧ (∀ character ∈ text.toList, isControlChar character = false) ∧
    (tokensOf text).length ≤ maxTokenCount ∧
    ∃ tree depth, depth < maxNestingDepth ∧ Derives (some .OR) (tokensOf text) tree depth

/-- The licence id a token stands for. -/
def SpdxToken.name? : SpdxToken → Option String
  | .id name => some name
  | _ => none

/-- How many parentheses are open after a token. -/
def SpdxToken.levelAfter (level : Nat) : SpdxToken → Nat
  | .lparen => level + 1
  | .rparen => level - 1
  | _ => level

/-- The ids of a tree, from left to right. -/
def SpdxExpr.ids : SpdxExpr → List String
  | .id name => [name]
  | .node _ left right => left.ids ++ right.ids

end Grammar

section Lexer

/-- A character that ends a word. -/
def endsWord (character : Char) : Bool := character == ' ' || character == '(' || character == ')'

/-- The token that a character is by itself, if it is one. -/
def markTokens (character : Char) : List SpdxToken :=
  if character == '(' then [.lparen] else if character == ')' then [.rparen] else []

/-- A blank or a parenthesis ends the word before it. -/
theorem lexFrom_mark (mark : Char) (ends : endsWord mark = true) (before rest word : List Char) :
    lexFrom (before ++ mark :: rest) word = lexFrom before word ++ (markTokens mark ++ lexFrom rest []) := by
  induction before generalizing word with
  | nil =>
    simp only [endsWord, Bool.or_eq_true, beq_iff_eq] at ends
    obtain (rfl | rfl) | rfl := ends <;> rfl
  | cons character before ih =>
    rw [List.cons_append, lexFrom, lexFrom]
    split_ifs <;> simp [ih]

variable {tokens read : List SpdxToken}

/-- A token is appended exactly within the budget. -/
theorem pushToken_ok (token : SpdxToken) :
    pushToken tokens token = .ok read ↔
      read = tokens ++ [token] ∧ (tokens ++ [token]).length ≤ maxTokenCount := by
  unfold pushToken
  -- The count is checked after the push.
  split
  · rename_i past
    simp only [reduceCtorEq, false_iff, not_and]
    intro _
    omega
  · rename_i within
    constructor
    · intro pushed
      cases pushed
      exact ⟨rfl, by omega⟩
    · intro fits
      rw [fits.1]

/-- The word read so far is appended exactly within the budget. -/
theorem flushWord_ok (word : List Char) (room : tokens.length ≤ maxTokenCount) :
    flushWord word tokens = .ok read ↔
      read = tokens ++ (if word.isEmpty then [] else [wordToken word]) ∧
        read.length ≤ maxTokenCount := by
  unfold flushWord
  by_cases blank : word.isEmpty = true
  · -- There is no word, so nothing is appended.
    simp only [blank, if_true, List.append_nil, Except.ok.injEq]
    constructor
    · intro same
      subst same
      exact ⟨rfl, room⟩
    · intro kept
      exact kept.1.symm
  · simp only [blank, if_false, Bool.false_eq_true]
    rw [pushToken_ok]
    constructor
    · intro pushed
      exact ⟨pushed.1, pushed.1 ▸ pushed.2⟩
    · intro pushed
      exact ⟨pushed.1, pushed.1 ▸ pushed.2⟩

/-- What the pass does after it has appended some tokens, if it does so for every budget. -/
theorem appended_ok {appended : List SpdxToken} {first : Except ExpressionParseError (List SpdxToken)}
    {rest : List Char}
    (front : ∀ middle, first = .ok middle ↔
      middle = tokens ++ appended ∧ middle.length ≤ maxTokenCount)
    (back : ∀ middle, middle.length ≤ maxTokenCount →
      (tokenizeFrom rest [] middle = .ok read ↔
        (∀ character ∈ rest, isControlChar character = false) ∧
          read = middle ++ lexFrom rest [] ∧ read.length ≤ maxTokenCount)) :
    (first >>= fun middle => tokenizeFrom rest [] middle) = .ok read ↔
      (∀ character ∈ rest, isControlChar character = false) ∧
        read = tokens ++ (appended ++ lexFrom rest []) ∧ read.length ≤ maxTokenCount := by
  rw [bind_ok]
  constructor
  · intro passed
    obtain ⟨middle, began, ended⟩ := passed
    obtain ⟨rfl, within⟩ := (front middle).mp began
    rw [← List.append_assoc]
    exact (back _ within).mp ended
  · intro expected
    obtain ⟨plain, rfl, within⟩ := expected
    -- The tokens appended first are no more than all of them.
    have room : (tokens ++ appended).length ≤ maxTokenCount := by
      simp only [List.length_append] at within ⊢
      omega
    refine ⟨tokens ++ appended, (front _).mpr ⟨rfl, room⟩, (back _ room).mpr ⟨plain, ?_, within⟩⟩
    rw [List.append_assoc]

/-- A word and a parenthesis are appended within the budget. -/
theorem flushPush_ok (word : List Char) (token : SpdxToken) (room : tokens.length ≤ maxTokenCount) :
    (flushWord word tokens >>= fun middle => pushToken middle token) = .ok read ↔
      read = tokens ++ ((if word.isEmpty then [] else [wordToken word]) ++ [token]) ∧
        read.length ≤ maxTokenCount := by
  rw [bind_ok]
  constructor
  · intro passed
    obtain ⟨middle, flushed, pushed⟩ := passed
    obtain ⟨rfl, _⟩ := (flushWord_ok word room).mp flushed
    obtain ⟨rfl, within⟩ := (pushToken_ok token).mp pushed
    exact ⟨List.append_assoc .., within⟩
  · intro expected
    obtain ⟨rfl, within⟩ := expected
    rw [← List.append_assoc] at within ⊢
    refine ⟨_, (flushWord_ok word room).mpr ⟨rfl, ?_⟩, (pushToken_ok token).mpr ⟨rfl, within⟩⟩
    -- The word alone needs less room than the word and the parenthesis.
    simp only [List.length_append] at within ⊢
    omega

/-- The pass over the characters succeeds exactly without a control character and within the
budget, and then appends the token sequence. -/
theorem tokenizeFrom_ok (characters word : List Char) (room : tokens.length ≤ maxTokenCount) :
    tokenizeFrom characters word tokens = .ok read ↔
      (∀ character ∈ characters, isControlChar character = false) ∧
        read = tokens ++ lexFrom characters word ∧ read.length ≤ maxTokenCount := by
  induction characters generalizing word tokens with
  | nil =>
    simp only [tokenizeFrom, lexFrom, List.not_mem_nil, false_implies, implies_true, true_and]
    exact flushWord_ok word room
  | cons character rest ih =>
    cases control : isControlChar character with
    | true =>
      -- The pass stops here, and the character refutes the right side.
      simp [tokenizeFrom, control, throw, throwThe, MonadExceptOf.throw, Bind.bind, Except.bind]
    | false =>
      simp only [List.forall_mem_cons, control, true_and]
      rw [tokenizeFrom, lexFrom]
      simp only [control, Bool.false_eq_true, if_false]
      by_cases blank : (character == ' ') = true
      · -- A blank ends the word.
        simp only [blank, if_true]
        exact appended_ok (fun _ => flushWord_ok word room) fun _ within => ih [] within
      · simp only [blank, Bool.false_eq_true, if_false]
        by_cases opens : (character == '(') = true
        · simp only [opens, if_true]
          rw [← bind_assoc]
          refine (appended_ok (fun _ => flushPush_ok word .lparen room)
            fun _ within => ih [] within).trans ?_
          simp
        · simp only [opens, Bool.false_eq_true, if_false]
          by_cases closes : (character == ')') = true
          · simp only [closes, if_true]
            rw [← bind_assoc]
            refine (appended_ok (fun _ => flushPush_ok word .rparen room)
              fun _ within => ih [] within).trans ?_
            simp
          · -- Any other character goes on with the word.
            simp only [closes, Bool.false_eq_true, if_false]
            exact ih (word ++ [character]) room

/-- A text is cut into tokens exactly without a control character and within the budget. -/
theorem tokenize_ok (text : String) :
    tokenize text = .ok read ↔
      (∀ character ∈ text.toList, isControlChar character = false) ∧ read = tokensOf text ∧
        (tokensOf text).length ≤ maxTokenCount := by
  unfold tokenize tokensOf
  rw [tokenizeFrom_ok text.toList [] (by simp)]
  -- Read: no control character, and no more tokens than admitted.
  constructor
  · intro passed
    obtain ⟨plain, rfl, within⟩ := passed
    exact ⟨plain, rfl, within⟩
  · intro expected
    obtain ⟨plain, rfl, within⟩ := expected
    exact ⟨plain, rfl, within⟩

end Lexer

section Parser

/-- The tree of two trees under an operator. -/
abbrev joinTrees (left right : SpdxExpr) (op : SpdxOperator) : SpdxExpr := .node op left right

/-- The tree parser of a level, with the parser of what stands in parentheses. -/
def parserAt (inner : ExpressionParser SpdxExpr) : Option SpdxOperator → ExpressionParser SpdxExpr
  | none => primary SpdxExpr.id inner
  | some .WITH => withExpr SpdxExpr.id joinTrees inner
  | some .AND => andExpr SpdxExpr.id joinTrees inner
  | some .OR => operands joinTrees (andExpr SpdxExpr.id joinTrees inner) .OR

/-- The tree parser with a number of levels of nesting left. -/
abbrev treeParser (levels : Nat) : ExpressionParser SpdxExpr :=
  orExpr SpdxExpr.id joinTrees levels

/-- The parser of a level joins operands of the level below. -/
theorem parserAt_some (inner : ExpressionParser SpdxExpr) (op : SpdxOperator) :
    parserAt inner (some op) = operands joinTrees (parserAt inner (operandLevel op)) op := by
  cases op with
  | AND => rfl
  | OR => rfl
  | WITH => rfl

/-- A loop that reads derivable operands extends what it has read so far to a derivation. -/
theorem operandsLoop_sound {operand : ExpressionParser SpdxExpr} {op : SpdxOperator} {bound : Nat}
    (sound : ∀ tokens tree rest, operand tokens = .ok (tree, rest) →
      ∃ front depth, tokens = front ++ rest ∧ Derives (operandLevel op) front tree depth ∧
        depth ≤ bound)
    {fuel : Nat} {value last : SpdxExpr} {tokens rest before : List SpdxToken} {high : Nat}
    (soFar : Derives (some op) before value high) (within : high ≤ bound)
    (looped : operandsLoop joinTrees operand op fuel value tokens = .ok (last, rest)) :
    ∃ front depth, tokens = front ++ rest ∧ Derives (some op) (before ++ front) last depth ∧
      depth ≤ bound := by
  -- Each round adds one operand to the derivation on its left.
  induction fuel generalizing value tokens before high with
  | zero =>
    cases looped
    exact ⟨[], high, rfl, by simpa using soFar, within⟩
  | succ fuel ih =>
    rcases operandsLoop_cases looped with
      ⟨more, right, after, rfl, read, later⟩ | ⟨rfl, rfl, _⟩
    · obtain ⟨consumed, low, rfl, derived, deep⟩ := sound more right after read
      obtain ⟨front, depth, rfl, whole, atMost⟩ :=
        ih (soFar.joined derived) (Nat.max_le.mpr ⟨within, deep⟩) later
      refine ⟨.operator op :: consumed ++ front, depth, by simp, ?_, atMost⟩
      simpa using whole
    · -- The loop is over, and what was read stays as it is.
      exact ⟨[], high, rfl, by simpa using soFar, within⟩

/-- Operands that are read by a sound parser are derivable together. -/
theorem operands_sound {operand : ExpressionParser SpdxExpr} {op : SpdxOperator} {bound : Nat}
    (sound : ∀ tokens tree rest, operand tokens = .ok (tree, rest) →
      ∃ front depth, tokens = front ++ rest ∧ Derives (operandLevel op) front tree depth ∧
        depth ≤ bound)
    {last : SpdxExpr} {tokens rest : List SpdxToken}
    (parsed : operands joinTrees operand op tokens = .ok (last, rest)) :
    ∃ front depth, tokens = front ++ rest ∧ Derives (some op) front last depth ∧
      depth ≤ bound := by
  unfold operands at parsed
  obtain ⟨⟨value, after⟩, read, looped⟩ := bind_ok.mp parsed
  obtain ⟨first, high, rfl, derived, within⟩ := sound tokens value after read
  obtain ⟨front, depth, rfl, whole, atMost⟩ :=
    operandsLoop_sound sound derived.operand within looped
  exact ⟨first ++ front, depth, by simp, whole, atMost⟩

/-- A primary that is read is derivable, one level deeper than what stands in its parentheses. -/
theorem primary_sound {inner : ExpressionParser SpdxExpr} {bound : Nat}
    (sound : ∀ tokens tree rest, inner tokens = .ok (tree, rest) →
      ∃ front depth, tokens = front ++ rest ∧ Derives (some .OR) front tree depth ∧ depth < bound)
    {last : SpdxExpr} {tokens rest : List SpdxToken}
    (parsed : primary SpdxExpr.id inner tokens = .ok (last, rest)) :
    ∃ front depth, tokens = front ++ rest ∧ Derives none front last depth ∧ depth ≤ bound := by
  cases tokens with
  | nil => cases parsed
  | cons token more =>
    cases token with
    | rparen => cases parsed
    | operator op => cases parsed
    | id name =>
      cases parsed
      exact ⟨[.id name], 0, rfl, .id name, Nat.zero_le _⟩
    | lparen =>
      simp only [primary] at parsed
      obtain ⟨⟨value, after⟩, read, closed⟩ := bind_ok.mp parsed
      obtain ⟨front, depth, rfl, derived, deep⟩ := sound more value after read
      dsimp only at closed
      -- The inner expression must be followed by a closing parenthesis.
      split at closed
      · cases closed
        refine ⟨.lparen :: (front ++ [SpdxToken.rparen]), depth + 1, by simp, derived.paren, ?_⟩
        omega
      · cases closed

/-- If the primaries are sound, every level above them is. -/
theorem climb {inner : ExpressionParser SpdxExpr} {bound : Nat}
    (primaries : ∀ tokens tree rest, primary SpdxExpr.id inner tokens = .ok (tree, rest) →
      ∃ front depth, tokens = front ++ rest ∧ Derives none front tree depth ∧ depth ≤ bound)
    (level : Option SpdxOperator) (tokens : List SpdxToken) (tree : SpdxExpr)
    (rest : List SpdxToken) (parsed : parserAt inner level tokens = .ok (tree, rest)) :
    ∃ front depth, tokens = front ++ rest ∧ Derives level front tree depth ∧ depth ≤ bound := by
  -- Each level is sound as soon as the one inside it is.
  have withs : ∀ tokens tree rest, parserAt inner (some .WITH) tokens = .ok (tree, rest) →
      ∃ front depth, tokens = front ++ rest ∧ Derives (some .WITH) front tree depth ∧
        depth ≤ bound := fun _ _ _ parsed => operands_sound primaries parsed
  have ands : ∀ tokens tree rest, parserAt inner (some .AND) tokens = .ok (tree, rest) →
      ∃ front depth, tokens = front ++ rest ∧ Derives (some .AND) front tree depth ∧
        depth ≤ bound := fun _ _ _ parsed => operands_sound withs parsed
  -- By the level that was asked for.
  cases level with
  | none => exact primaries tokens tree rest parsed
  | some op =>
    cases op with
    | WITH => exact withs tokens tree rest parsed
    | AND => exact ands tokens tree rest parsed
    | OR => exact operands_sound ands parsed

/-- What any level of the parser reads is derivable at that level, within the nesting left. -/
theorem parserAt_sound (levels : Nat) (level : Option SpdxOperator) (tokens : List SpdxToken)
    (tree : SpdxExpr) (rest : List SpdxToken)
    (parsed : parserAt (treeParser levels) level tokens = .ok (tree, rest)) :
    ∃ front depth, tokens = front ++ rest ∧ Derives level front tree depth ∧ depth ≤ levels := by
  induction levels generalizing level tokens tree rest with
  | zero =>
    -- No parenthesis can be opened, so the inner parser never succeeds.
    have primaries : ∀ tokens tree rest, primary SpdxExpr.id (treeParser 0) tokens = .ok (tree, rest) →
        ∃ front depth, tokens = front ++ rest ∧ Derives none front tree depth ∧ depth ≤ 0 := by
      intro tokens tree rest parsed
      refine primary_sound ?_ parsed
      intro tokens tree rest opened
      cases opened
    exact climb primaries level tokens tree rest parsed
  | succ levels ih =>
    have primaries : ∀ tokens tree rest,
        primary SpdxExpr.id (treeParser (levels + 1)) tokens = .ok (tree, rest) →
        ∃ front depth, tokens = front ++ rest ∧ Derives none front tree depth ∧
          depth ≤ levels + 1 := by
      intro tokens tree rest parsed
      refine primary_sound ?_ parsed
      intro tokens tree rest opened
      obtain ⟨front, depth, split, derived, atMost⟩ := ih (some .OR) tokens tree rest opened
      exact ⟨front, depth, split, derived, Nat.lt_succ_of_le atMost⟩
    exact climb primaries level tokens tree rest parsed

/-- The operators that the parser of a level consumes. -/
def bindsAt : Option SpdxOperator → List SpdxOperator
  | none => []
  | some .WITH => [.WITH]
  | some .AND => [.AND, .WITH]
  | some .OR => [.OR, .AND, .WITH]

/-- Tokens at which the parser of a level stops. -/
def Ends (level : Option SpdxOperator) (rest : List SpdxToken) : Prop :=
  ∀ op ∈ bindsAt level, ∀ more, rest ≠ .operator op :: more

/-- A level stops where its operands stop and its own operator does not follow. -/
theorem ends_some_iff {op : SpdxOperator} {rest : List SpdxToken} :
    Ends (some op) rest ↔
      (∀ more, rest ≠ .operator op :: more) ∧ Ends (operandLevel op) rest := by
  unfold Ends
  cases op <;> simp [bindsAt, operandLevel]

/-- The operands of a level stop at the operator of the level. -/
theorem ends_at_operator (op : SpdxOperator) (more : List SpdxToken) :
    Ends (operandLevel op) (.operator op :: more) := by
  unfold Ends
  cases op <;> simp [bindsAt, operandLevel]

/-- The loop stops where its operator does not follow. -/
theorem operandsLoop_stop {operand : ExpressionParser SpdxExpr} {op : SpdxOperator}
    {rest : List SpdxToken} (ended : ∀ more, rest ≠ .operator op :: more) (fuel : Nat)
    (value : SpdxExpr) :
    operandsLoop joinTrees operand op fuel value rest = .ok (value, rest) := by
  cases fuel with
  | zero => rfl
  | succ fuel =>
    unfold operandsLoop
    split
    · rename_i found more
      -- Another operator is left for a level further up.
      have different : found ≠ op := fun same => ended more (by rw [same])
      rw [if_neg different]
    · rfl

/-- What a level has read of a derivation: it stands in its loop, with fuel enough for the rest. -/
def Reaches (levels : Nat) (op : SpdxOperator) (tokens : List SpdxToken) (tree : SpdxExpr) : Prop :=
  ∀ rest, Ends (operandLevel op) rest →
    ∃ fuel, rest.length ≤ fuel ∧
      parserAt (treeParser levels) (some op) (tokens ++ rest) =
        operandsLoop joinTrees (parserAt (treeParser levels) (operandLevel op)) op fuel tree rest

/-- What a level reads of a derivation, if the tokens after it stop the level. -/
def Reads (levels : Nat) (level : Option SpdxOperator) (tokens : List SpdxToken)
    (tree : SpdxExpr) : Prop :=
  ∀ rest, Ends level rest → parserAt (treeParser levels) level (tokens ++ rest) = .ok (tree, rest)

/-- A loop that is reached is left where the level stops. -/
theorem Reaches.reads {levels : Nat} {op : SpdxOperator} {tokens : List SpdxToken}
    {tree : SpdxExpr} (reached : Reaches levels op tokens tree) :
    Reads levels (some op) tokens tree := by
  intro rest ended
  obtain ⟨alone, below⟩ := ends_some_iff.mp ended
  obtain ⟨fuel, _, looped⟩ := reached rest below
  rw [looped, operandsLoop_stop alone]

/-- One operand brings its level into the loop. -/
theorem Reads.reaches {levels : Nat} {op : SpdxOperator} {tokens : List SpdxToken}
    {tree : SpdxExpr} (single : Reads levels (operandLevel op) tokens tree) :
    Reaches levels op tokens tree := by
  intro rest ended
  refine ⟨rest.length, Nat.le_refl _, ?_⟩
  rw [parserAt_some, operands, single rest ended]
  rfl

/-- One more operand takes the loop through one round. -/
theorem Reaches.joined {levels : Nat} {op : SpdxOperator} {left right : List SpdxToken}
    {first second : SpdxExpr} (before : Reaches levels op left first)
    (after : Reads levels (operandLevel op) right second) :
    Reaches levels op (left ++ .operator op :: right) (.node op first second) := by
  intro rest ended
  obtain ⟨fuel, enough, looped⟩ := before (.operator op :: (right ++ rest)) (ends_at_operator op _)
  -- The operator is still unread, so there is fuel for at least one round.
  obtain ⟨less, rfl⟩ : ∃ less, fuel = less + 1 := by
    cases fuel with
    | zero => simp at enough
    | succ less => exact ⟨less, rfl⟩
  refine ⟨less, ?_, ?_⟩
  · simp only [List.length_cons, List.length_append] at enough
    omega
  · rw [List.append_assoc, List.cons_append, looped, operandsLoop, if_pos rfl, after rest ended]
    rfl

/-- The parser reads every derivation that nests no deeper than it may go. -/
theorem Derives.complete {level : Option SpdxOperator} {tokens : List SpdxToken} {tree : SpdxExpr}
    {depth : Nat} (derived : Derives level tokens tree depth) :
    ∀ levels, depth ≤ levels →
      Reads levels level tokens tree ∧ ∀ op, level = some op → Reaches levels op tokens tree := by
  -- The induction follows the derivation; each level is read through the loop it ends up in.
  induction derived with
  | id name =>
    intro levels _
    refine ⟨?_, by simp⟩
    intro rest _
    rfl
  | @paren tokens tree depth _ ih =>
    intro levels within
    refine ⟨?_, by simp⟩
    intro rest _
    -- One level of nesting is spent on the parentheses.
    obtain ⟨less, rfl⟩ : ∃ less, levels = less + 1 := by
      cases levels with
      | zero => simp at within
      | succ less => exact ⟨less, rfl⟩
    have inner := (ih less (by omega)).1 (.rparen :: rest) (by simp [Ends])
    have opened : treeParser (less + 1) (tokens ++ .rparen :: rest) = .ok (tree, .rparen :: rest) :=
      inner
    simp only [parserAt, List.cons_append, List.append_assoc, List.nil_append, primary, opened]
    rfl
  | @operand op tokens tree depth _ ih =>
    intro levels within
    have reached : Reaches levels op tokens tree := (ih levels within).1.reaches
    refine ⟨reached.reads, ?_⟩
    intro other same
    cases same
    exact reached
  | @joined op left right first second high low _ _ ihLeft ihRight =>
    intro levels within
    have reached := ((ihLeft levels (by omega)).2 op rfl).joined (ihRight levels (by omega)).1
    refine ⟨reached.reads, ?_⟩
    intro other same
    cases same
    exact reached

/-- The parser reads all tokens as a tree exactly when they derive it within the nesting. -/
theorem treeParser_iff {tokens : List SpdxToken} {tree : SpdxExpr} (levels : Nat) :
    treeParser (levels + 1) tokens = .ok (tree, []) ↔
      ∃ depth, depth ≤ levels ∧ Derives (some .OR) tokens tree depth := by
  constructor
  · -- What the parser has taken is the whole list, since nothing is left.
    intro parsed
    obtain ⟨front, depth, split, derived, atMost⟩ :=
      parserAt_sound levels (some .OR) tokens tree [] parsed
    rw [List.append_nil] at split
    subst split
    exact ⟨depth, atMost, derived⟩
  · -- And a derivation within the levels is read to its end.
    intro derivable
    obtain ⟨depth, within, derived⟩ := derivable
    have read := (derived.complete levels within).1 [] (by simp [Ends])
    rw [List.append_nil] at read
    exact read

/-- No token sequence has two parse trees. -/
theorem Derives.unique {tokens : List SpdxToken} {first second : SpdxExpr} {high low : Nat}
    (one : Derives (some .OR) tokens first high) (two : Derives (some .OR) tokens second low) :
    first = second := by
  -- A parser that may nest deep enough for both reads the same tokens as both trees.
  have left := (treeParser_iff (max high low)).mpr ⟨high, Nat.le_max_left .., one⟩
  have right := (treeParser_iff (max high low)).mpr ⟨low, Nat.le_max_right .., two⟩
  rw [left] at right
  cases right
  rfl

/-- The ids of a parse tree are the ids of the tokens, in their order. -/
theorem Derives.ids {level : Option SpdxOperator} {tokens : List SpdxToken} {tree : SpdxExpr}
    {depth : Nat} (derived : Derives level tokens tree depth) :
    tree.ids = tokens.filterMap SpdxToken.name? := by
  induction derived with
  | id name => rfl
  | paren _ ih => simp [ih, List.filterMap_cons, SpdxToken.name?]
  | operand _ ih => exact ih
  | joined _ _ ihLeft ihRight => simp [SpdxExpr.ids, ihLeft, ihRight, List.filterMap_cons, SpdxToken.name?]

/-- Two rows of operands with their operator between them are one row, and an associative operator
combines the values of both. -/
theorem Derives.chained {op : SpdxOperator} {left right : List SpdxToken} {first second : SpdxExpr}
    {high low : Nat} (before : Derives (some op) left first high)
    (after : Derives (some op) right second low) :
    ∃ tree, Derives (some op) (left ++ .operator op :: right) tree (max high low) ∧
      ∀ {β : Type} (resolveId : String → β) (combine : β → β → SpdxOperator → β),
        (∀ a b c, combine (combine a b op) c op = combine a (combine b c op) op) →
        tree.eval resolveId combine =
          combine (first.eval resolveId combine) (second.eval resolveId combine) op := by
  -- The tree leans to the left, so the operands of the second are added one by one.
  generalize found : some op = level at after
  induction after with
  | id name => cases found
  | paren inner => cases found
  | operand single =>
    cases found
    exact ⟨_, .joined before single, fun _ _ _ => rfl⟩
  | @joined _ mid right second third _ _ _ last ih =>
    cases found
    obtain ⟨tree, derived, folds⟩ := ih rfl
    refine ⟨.node op tree third, ?_, ?_⟩
    · have both := Derives.joined derived last
      simpa [Nat.max_assoc] using both
    · intro β resolveId combine assoc
      rw [SpdxExpr.eval, folds resolveId combine assoc, assoc]
      rfl

end Parser

/-- All tokens must be read, or some token is unexpected. -/
theorem parseTokens_eq (tokens : List SpdxToken) :
    parseTokens SpdxExpr.id joinTrees tokens =
      match treeParser maxNestingDepth tokens with
      | .error reason => .error reason
      | .ok (tree, []) => .ok tree
      | .ok (_, _ :: _) => .error .unexpectedToken := by
  unfold parseTokens treeParser
  cases orExpr SpdxExpr.id joinTrees maxNestingDepth tokens with
  | error reason => rfl
  | ok result =>
    obtain ⟨tree, rest⟩ := result
    -- Tokens that are left over make an error.
    cases rest with
    | nil => rfl
    | cons token rest => rfl

/-- There is no expression without tokens. -/
theorem not_derives_nil {tree : SpdxExpr} {depth : Nat} : ¬Derives (some .OR) [] tree depth := by
  intro derived
  -- The parser would have to read it, and it misses an operand instead.
  have read := (treeParser_iff depth).mpr ⟨depth, Nat.le_refl _, derived⟩
  cases read

/-- A text is read as a tree exactly when it has something besides white space, keeps the bounds
and derives the tree. -/
theorem parseExpression_ok {text : String} {tree : SpdxExpr} :
    parseExpression (some text) = .ok tree ↔
      strip text ≠ "" ∧ text.length ≤ maxExpressionLength ∧
        (∀ character ∈ text.toList, isControlChar character = false) ∧
        (tokensOf text).length ≤ maxTokenCount ∧
        ∃ depth, depth < maxNestingDepth ∧ Derives (some .OR) (tokensOf text) tree depth := by
  -- The parser with its depth bound accepts what is derived within the bound.
  have reads : treeParser maxNestingDepth (tokensOf text) = .ok (tree, []) ↔
      ∃ depth, depth < maxNestingDepth ∧ Derives (some .OR) (tokensOf text) tree depth := by
    refine (treeParser_iff 63).trans ?_
    simp only [maxNestingDepth, Nat.lt_succ_iff]
  have parses : parseTokens SpdxExpr.id joinTrees (tokensOf text) = .ok tree ↔
      ∃ depth, depth < maxNestingDepth ∧ Derives (some .OR) (tokensOf text) tree depth := by
    -- What is left over is refused.
    rw [← reads, parseTokens_eq]
    split
    · rename_i reason failed
      simp [failed]
    · rename_i found read
      simp [read]
    · rename_i found token rest read
      simp [read]
  unfold parseExpression foldExpression
  -- The checks in the order of the code: blank, too long, then the tokens.
  by_cases blank : strip text = ""
  · simp [blank, throw, throwThe, MonadExceptOf.throw, Bind.bind, Except.bind]
  · by_cases long : maxExpressionLength < text.length
    · have past : ¬text.length ≤ maxExpressionLength := by omega
      simp [blank, long, past, throw, throwThe, MonadExceptOf.throw, Bind.bind, Except.bind]
    · have within : text.length ≤ maxExpressionLength := by omega
      simp only [blank, long, if_false, ne_eq, not_false_eq_true, within, true_and]
      rw [bind_ok, ← parses]
      constructor
      · -- Accepted: the tokens are those of the text, and there is room for them.
        intro passed
        obtain ⟨tokens, cut, parsed⟩ := passed
        obtain ⟨plain, rfl, room⟩ := (tokenize_ok text).mp cut
        refine ⟨plain, room, ?_⟩
        split at parsed
        · cases parsed
        · exact parsed
      · intro admitted
        obtain ⟨plain, room, parsed⟩ := admitted
        refine ⟨tokensOf text, (tokenize_ok text).mpr ⟨plain, rfl, room⟩, ?_⟩
        -- A text without tokens does not parse, so the check for them passes.
        have some : (tokensOf text).isEmpty = false := by
          cases tokens : tokensOf text with
          | nil =>
            obtain ⟨depth, _, derived⟩ := parses.mp parsed
            rw [tokens] at derived
            exact absurd derived not_derives_nil
          | cons token rest => rfl
        simp only [some, Bool.false_eq_true, if_false]
        exact parsed

end Trusca
