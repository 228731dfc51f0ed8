import Mathlib.Data.Nat.Find
import Trusca.Store.Items

/-! Breadth-first walks with a limit on the depth, around nodes that were settled before. -/

namespace Store

variable {α : Type*} [DecidableEq α]

/-- The children of a node; none for a node that is not in the graph. -/
def childrenOf (graph : List (α × List α)) (node : α) : List α := (graph.lookup node).getD []

/-- A node that is not listed has no children. -/
theorem childrenOf_eq_nil {graph : List (α × List α)} {node : α} (absent : node ∉ keys graph) :
    childrenOf graph node = [] := by
  have missing : graph.lookup node = none := by
    rw [List.lookup_eq_none_iff]
    intro item member
    have different : node ≠ item.1 := fun same => absent (same ▸ List.mem_map_of_mem member)
    exact bne_iff_ne.mpr different
  rw [childrenOf, missing]
  rfl

/-- The children of a node are those that its entry lists. -/
theorem mem_childrenOf {graph : List (α × List α)} (distinct : (keys graph).Nodup) {node child : α} :
    child ∈ childrenOf graph node ↔ ∃ children, (node, children) ∈ graph ∧ child ∈ children := by
  rw [childrenOf]
  -- A node without an entry has no children, one with an entry those of its only entry.
  cases found : graph.lookup node with
  | none =>
    refine ⟨nofun, fun ⟨children, member, _⟩ => ?_⟩
    rw [← lookup_eq_some distinct, found] at member
    exact nomatch member
  | some listed =>
    refine ⟨fun member => ⟨listed, (lookup_eq_some distinct).mp found, member⟩, ?_⟩
    rintro ⟨children, member, inside⟩
    rw [← lookup_eq_some distinct, found] at member
    cases member
    exact inside

/-- Settling a node leaves no more nodes to settle, and fewer when the node is in the graph. -/
theorem countP_settle (nodes settled : List α) {node : α} (fresh : node ∉ settled) :
    (nodes.countP fun other => other ∉ settled ++ [node]) ≤
        (nodes.countP fun other => other ∉ settled) ∧
      (node ∈ nodes → (nodes.countP fun other => other ∉ settled ++ [node]) <
        nodes.countP fun other => other ∉ settled) := by
  induction nodes with
  | nil => simp
  | cons first rest ih =>
    -- Settling the node takes it off the count once, and leaves every other node in it.
    by_cases same : first = node
    · subst same
      simp only [List.countP_cons, fresh, List.mem_append, List.mem_singleton, or_true,
        not_true_eq_false, not_false_eq_true, decide_true, decide_false, if_true] at ih ⊢
      simp only [Bool.false_eq_true, if_false]
      omega
    · have alike : (first ∉ settled ++ [node]) = (first ∉ settled) := by simp [same]
      have listed : node ∈ first :: rest ↔ node ∈ rest := by simp [Ne.symm same]
      simp only [List.countP_cons, alike, listed]
      refine ⟨Nat.add_le_add_right ih.1 _, fun member => Nat.add_lt_add_right (ih.2 member) _⟩

/-- Settle the nodes of the queue and what they lead to, each at the depth at which it is first
met. A node at the limit is settled and its children are not met through it. -/
def walk (graph : List (α × List α)) (limit : Nat) :
    List (α × Nat) → List (α × Nat) → List (α × Nat)
  | [], settled => settled
  -- A node that is settled has been reached on a path at least as short.
  | (node, depth) :: rest, settled =>
    if node ∈ keys settled then walk graph limit rest settled
    else
      -- At the limit a node is settled, and its children are not asked for.
      if limit ≤ depth then walk graph limit rest (settled ++ [(node, depth)])
      else
        walk graph limit
          -- New children go behind the queue, so the depths in it never fall.
          (rest ++ ((childrenOf graph node).filter fun child =>
            child ∈ keys graph ∧ child ∉ keys (settled ++ [(node, depth)])).map (·, depth + 1))
          (settled ++ [(node, depth)])
termination_by queue settled =>
  ((keys graph).countP fun node => node ∉ keys settled, queue.length)
decreasing_by
  · exact Prod.Lex.right _ (by simp)
  · rename_i fresh _
    rw [keys_append]
    obtain ⟨le, _⟩ := countP_settle (keys graph) (keys settled) fresh
    exact Prod.Lex.right' _ le (by simp)
  · rename_i fresh _
    rw [keys_append]
    obtain ⟨le, lt⟩ := countP_settle (keys graph) (keys settled) fresh
    by_cases inside : node ∈ keys graph
    · exact Prod.Lex.left _ _ (lt inside)
    · -- A node outside the graph has no children, so the queue got shorter.
      refine Prod.Lex.right' _ le ?_
      simp [childrenOf_eq_nil inside]

/-- One node leads to another that is in the graph. -/
def Follows (graph : List (α × List α)) (node child : α) : Prop :=
  child ∈ childrenOf graph node ∧ child ∈ keys graph

section Steps

variable {α : Type*} (edge : α → α → Prop) (limit : Nat)

/-- A node that is met after some steps from the sources, around the nodes passed before. -/
inductive Steps (passed sources : α → Prop) : Nat → α → Prop where
  | source {node : α} (start : sources node) (free : ¬passed node) : Steps passed sources 0 node
  | step {count : Nat} {node child : α} (met : Steps passed sources count node)
      (next : edge node child) (free : ¬passed child) : Steps passed sources (count + 1) child

/-- A node that is met after this number of steps and not before. -/
def Distance (passed sources : α → Prop) (count : Nat) (node : α) : Prop :=
  Steps edge passed sources count node ∧
    ∀ other, Steps edge passed sources other node → count ≤ other

/-- A node that is met in fewer steps than the limit. -/
def Near (passed sources : α → Prop) (node : α) : Prop :=
  ∃ count, count < limit ∧ Steps edge passed sources count node

/-- What has been passed after one more node was walked from. -/
def passOn (passed : α → Prop) (node other : α) : Prop :=
  passed other ∨ Near edge limit passed (· = node) other

/-- What has been passed once the roots and then some other nodes were walked from. -/
def Passed (roots : α → Prop) (nodes : List α) : α → Prop :=
  nodes.foldl (passOn edge limit) (Near edge limit (fun _ => False) roots)

/-- A node that nothing leads to. -/
def Root (nodes : List α) (node : α) : Prop := node ∈ nodes ∧ ∀ other, ¬edge other node

/-- A node that a walk starts from: nothing leads to it, or it had not been passed when its turn
came. -/
def Start (nodes : List α) (node : α) : Prop :=
  Root edge nodes node ∨ ∃ earlier later, nodes = earlier ++ node :: later ∧
    ¬Passed edge limit (Root edge nodes) earlier node

variable {edge} {passed sources : α → Prop} {count : Nat} {node : α}

/-- A node that is met has not been passed before. -/
theorem Steps.free (met : Steps edge passed sources count node) : ¬passed node := by
  cases met with
  | source _ free => exact free
  | step _ _ free => exact free

/-- Nothing is met from sources that were all passed before. -/
theorem not_steps (all : ∀ node, sources node → passed node) :
    ¬Steps edge passed sources count node := by
  intro met
  induction met with
  | source start free => exact free (all _ start)
  | step _ _ _ ih => exact ih

/-- The sources that were not passed before are met at once, and nothing else is. -/
theorem distance_zero : Distance edge passed sources 0 node ↔ sources node ∧ ¬passed node := by
  constructor
  · rintro ⟨met, _⟩
    cases met with
    | source start free => exact ⟨start, free⟩
  · rintro ⟨start, free⟩
    exact ⟨.source start free, fun _ _ => Nat.zero_le _⟩

/-- A node has one distance. -/
theorem Distance.unique {other : Nat} (one : Distance edge passed sources count node)
    (two : Distance edge passed sources other node) : count = other :=
  Nat.le_antisymm (one.2 _ two.1) (two.2 _ one.1)

/-- A node that had its turn has been passed. -/
theorem passed_of_mem {nodes : List α} (positive : 0 < limit) (turn : node ∈ nodes ∨ passed node) :
    nodes.foldl (passOn edge limit) passed node := by
  induction nodes generalizing passed with
  | nil => exact turn.resolve_left List.not_mem_nil
  | cons first rest ih =>
    refine ih ?_
    rcases turn with member | old
    · rcases List.mem_cons.mp member with rfl | later
      · -- It was passed before, or the walk from it passes it.
        by_cases old : passed node
        · exact .inr (.inl old)
        · exact .inr (.inr ⟨0, positive, .source rfl old⟩)
      · exact .inl later
    · exact .inr (.inl old)

end Steps

section Walking

variable {graph : List (α × List α)} {limit base : Nat} {sources : List α}
  {before queue fresh : List (α × Nat)} {node : α} {count depth : Nat}

/-- The state of a walk from sources at one depth: what it has settled and what it has yet to
settle. -/
structure Walking (graph : List (α × List α)) (limit base : Nat) (sources : List α)
    (before queue fresh : List (α × Nat)) : Prop where
  queued : ∀ item ∈ queue, item.2 ≤ limit ∧
    ∃ count, item.2 = base + count ∧
      Steps (Follows graph) (· ∈ keys before) (· ∈ sources) count item.1
  ordered : queue.Pairwise fun first second => first.2 ≤ second.2
  span : ∀ first ∈ queue, ∀ second ∈ queue, second.2 ≤ first.2 + 1
  found : ∀ item ∈ fresh, item.2 ≤ limit ∧
    ∃ count, item.2 = base + count ∧
      Distance (Follows graph) (· ∈ keys before) (· ∈ sources) count item.1
  started : ∀ node ∈ sources, node ∈ keys fresh ∨ (node, base) ∈ queue
  closed : ∀ item ∈ fresh, item.2 < limit → ∀ child, Follows graph item.1 child →
    child ∉ keys before → child ∈ keys fresh ∨ (child, item.2 + 1) ∈ queue

/-- The beginning of a walk. -/
theorem Walking.start (below : base ≤ limit) (apart : ∀ node ∈ sources, node ∉ keys before) :
    Walking graph limit base sources before (sources.map (·, base)) [] where
  -- The sources are queued at the base depth, and nothing is settled.
  queued := by
    intro item member
    obtain ⟨node, start, rfl⟩ := List.mem_map.mp member
    exact ⟨below, 0, rfl, .source start (apart node start)⟩
  ordered := by
    rw [List.pairwise_map]
    exact List.pairwise_of_forall_mem_list fun _ _ _ _ => Nat.le_refl _
  span := by
    intro first one second two
    obtain ⟨_, _, rfl⟩ := List.mem_map.mp one
    obtain ⟨_, _, rfl⟩ := List.mem_map.mp two
    omega
  found := by simp
  started := fun node start => .inr (List.mem_map_of_mem (f := (·, base)) start)
  closed := by simp

/-- What is met in fewer steps than the queue has come to is settled. -/
theorem Walking.settled_below (walking : Walking graph limit base sources before queue fresh)
    (ahead : ∀ item ∈ queue, base + count < item.2) (below : base + count ≤ limit)
    (met : Steps (Follows graph) (· ∈ keys before) (· ∈ sources) count node) :
    node ∈ keys fresh := by
  induction met with
  | source start _ =>
    rcases walking.started _ start with settled | waiting
    · exact settled
    · have late := ahead _ waiting
      simp at late
  | @step count node child _ next free ih =>
    have settled := ih (fun item member => by have := ahead item member; omega) (by omega)
    obtain ⟨depth, member⟩ := mem_keys.mp settled
    obtain ⟨_, least, equal, distance⟩ := walking.found _ member
    -- The parent was settled at its distance, so its child was queued at most one later.
    have early := distance.2 _ ‹_›
    simp only at equal
    rcases walking.closed _ member (by simp only; omega) child next free with settled | waiting
    · exact settled
    · have late := ahead _ waiting
      simp only at late
      omega

/-- A node that is settled already is left out. -/
theorem Walking.skip
    (walking : Walking graph limit base sources before ((node, depth) :: queue) fresh)
    (known : node ∈ keys (before ++ fresh)) :
    Walking graph limit base sources before queue fresh where
  queued := fun item member => walking.queued item (List.mem_cons_of_mem _ member)
  ordered := (List.pairwise_cons.mp walking.ordered).2
  span := fun first one second two =>
    walking.span first (List.mem_cons_of_mem _ one) second (List.mem_cons_of_mem _ two)
  found := walking.found
  started := by
    intro other start
    rcases walking.started other start with settled | waiting
    · exact .inl settled
    · -- The head of the queue was settled before, so what waited for it waits no longer.
      rcases List.mem_cons.mp waiting with head | later
      · cases head
        obtain ⟨_, _, _, met⟩ := walking.queued _ List.mem_cons_self
        rw [keys_append, List.mem_append] at known
        exact .inl (known.resolve_left met.free)
      · exact .inr later
  closed := by
    intro item member under child next free
    -- A child of a settled node is settled or queued, and the head was settled.
    rcases walking.closed item member under child next free with settled | waiting
    · exact .inl settled
    · rcases List.mem_cons.mp waiting with head | later
      · cases head
        rw [keys_append, List.mem_append] at known
        exact .inl (known.resolve_left free)
      · exact .inr later

/-- The node at the head of the queue is met at its depth, and at no smaller one. -/
theorem Walking.head_distance
    (walking : Walking graph limit base sources before ((node, depth) :: queue) fresh)
    (new : node ∉ keys (before ++ fresh)) : depth ≤ limit ∧
      ∃ count, depth = base + count ∧
        Distance (Follows graph) (· ∈ keys before) (· ∈ sources) count node := by
  obtain ⟨within, count, equal, met⟩ := walking.queued _ List.mem_cons_self
  refine ⟨within, count, equal, met, fun other again => ?_⟩
  by_contra! shorter
  -- A shorter way would have settled it before.
  have settled : node ∈ keys fresh := by
    refine walking.settled_below (fun item member => ?_) ?_ again
    · rcases List.mem_cons.mp member with rfl | later
      · simp only at equal ⊢
        omega
      · have behind := (List.pairwise_cons.mp walking.ordered).1 item later
        simp only at behind equal
        omega
    · simp only at within equal
      omega
  exact new (by rw [keys_append]; exact List.mem_append_right _ settled)

/-- A new node is settled, and below the limit its children join the queue. -/
theorem Walking.settle
    (walking : Walking graph limit base sources before ((node, depth) :: queue) fresh)
    (new : node ∉ keys (before ++ fresh)) (met : List α)
    (listed : ∀ child ∈ met, depth < limit ∧ Follows graph node child ∧ child ∉ keys before)
    (whole : depth < limit → ∀ child, Follows graph node child → child ∉ keys before →
      child ∈ met ∨ child ∈ keys (fresh ++ [(node, depth)])) :
    Walking graph limit base sources before (queue ++ met.map (·, depth + 1))
      (fresh ++ [(node, depth)]) where
  queued := by
    intro item member
    rcases List.mem_append.mp member with waiting | joined
    · exact walking.queued item (List.mem_cons_of_mem _ waiting)
    · -- A child joins one deeper than the node, by a walk that is one step longer.
      obtain ⟨child, there, rfl⟩ := List.mem_map.mp joined
      obtain ⟨below, next, free⟩ := listed child there
      obtain ⟨_, count, equal, reached⟩ := walking.queued _ List.mem_cons_self
      exact ⟨below, count + 1, by simp only at equal ⊢; omega, .step reached next free⟩
  ordered := by
    obtain ⟨_, rest⟩ := List.pairwise_cons.mp walking.ordered
    refine List.pairwise_append.mpr ⟨rest, ?_, ?_⟩
    · rw [List.pairwise_map]
      exact List.pairwise_of_forall_mem_list fun _ _ _ _ => Nat.le_refl _
    · -- What was waiting is no deeper than what joins.
      intro item waiting other joined
      obtain ⟨_, _, rfl⟩ := List.mem_map.mp joined
      exact walking.span _ List.mem_cons_self item (List.mem_cons_of_mem _ waiting)
  span := by
    -- Everything in the queue is as deep as the node or one deeper.
    have level : ∀ item ∈ queue ++ met.map (·, depth + 1), depth ≤ item.2 ∧ item.2 ≤ depth + 1 := by
      intro item member
      rcases List.mem_append.mp member with waiting | joined
      · exact ⟨(List.pairwise_cons.mp walking.ordered).1 item waiting,
          walking.span _ List.mem_cons_self item (List.mem_cons_of_mem _ waiting)⟩
      · obtain ⟨_, _, rfl⟩ := List.mem_map.mp joined
        simp
    intro first one second two
    have low := (level first one).1
    have high := (level second two).2
    omega
  found := by
    intro item member
    rcases List.mem_append.mp member with old | added
    · exact walking.found item old
    · -- The node's depth is its distance, as it came to the head first.
      rw [List.mem_singleton.mp added]
      exact walking.head_distance new
  started := by
    intro other start
    -- A source that waited is the head, or waits still.
    rcases walking.started other start with settled | waiting
    · exact .inl (by simp [settled])
    · rcases List.mem_cons.mp waiting with head | later
      · cases head
        exact .inl (by simp)
      · exact .inr (List.mem_append_left _ later)
  closed := by
    intro item member under child next free
    rcases List.mem_append.mp member with old | added
    · rcases walking.closed item old under child next free with settled | waiting
      · exact .inl (by simp [settled])
      · rcases List.mem_cons.mp waiting with head | later
        · cases head
          exact .inl (by simp)
        · exact .inr (List.mem_append_left _ later)
    · cases List.mem_singleton.mp added
      -- The node's own children have joined, or are settled already.
      rcases whole under child next free with joined | settled
      · exact .inr (List.mem_append_right _ (List.mem_map_of_mem (f := (·, depth + 1)) joined))
      · exact .inl settled

/-- A walk runs until its queue is empty. -/
theorem Walking.run (graph : List (α × List α)) (settled : List (α × Nat)) (same : settled = before ++ fresh)
    (walking : Walking graph limit base sources before queue fresh) :
    ∃ added, walk graph limit queue settled = before ++ added ∧
      Walking graph limit base sources before [] added := by
  fun_induction walk graph limit queue settled generalizing fresh with
  | case1 settled => exact ⟨fresh, same, walking⟩
  | case2 node depth rest settled known ih =>
    subst same
    exact ih rfl (walking.skip known)
  -- A node at the limit is settled without its children.
  | case3 node depth rest settled new deep ih =>
    subst same
    refine ih (List.append_assoc _ _ _) ?_
    have next := walking.settle new [] (by simp) fun shallow => absurd shallow (by omega)
    simpa using next
  -- The children that are new go to the end of the queue.
  | case4 node depth rest settled new shallow ih =>
    subst same
    refine ih (List.append_assoc _ _ _) (walking.settle new _ ?_ ?_)
    · intro child member
      obtain ⟨edge, kept⟩ := List.mem_filter.mp member
      simp only [keys_append, List.mem_append, decide_eq_true_eq, not_or] at kept
      exact ⟨by omega, ⟨edge, kept.1⟩, kept.2.1.1⟩
    · intro _ child ⟨edge, inside⟩ free
      by_cases settled : child ∈ keys (fresh ++ [(node, depth)])
      · exact .inr settled
      · refine .inl (List.mem_filter.mpr ⟨edge, ?_⟩)
        rw [decide_eq_true_eq, List.append_assoc, keys_append, List.mem_append, not_or]
        exact ⟨inside, free, settled⟩

/-- A walk settles what lies within the limit, at its distance from the sources. -/
theorem walk_spec (graph : List (α × List α)) (below : base ≤ limit) (apart : ∀ node ∈ sources, node ∉ keys before) :
    ∃ added, walk graph limit (sources.map (·, base)) before = before ++ added ∧
      ∀ node depth, (node, depth) ∈ added ↔ depth ≤ limit ∧
        ∃ count, depth = base + count ∧
          Distance (Follows graph) (· ∈ keys before) (· ∈ sources) count node := by
  obtain ⟨added, equal, walking⟩ :=
    Walking.run graph before (List.append_nil _).symm (Walking.start below apart)
  refine ⟨added, equal, fun node depth => ⟨fun member => walking.found _ member, ?_⟩⟩
  rintro ⟨within, count, rfl, distance⟩
  -- Every node within the limit has been settled when the queue is empty.
  have settled := walking.settled_below (fun _ member => nomatch member) within distance.1
  obtain ⟨depth, member⟩ := mem_keys.mp settled
  obtain ⟨_, other, same, again⟩ := walking.found _ member
  -- Its settled depth is its distance, so the two depths agree.
  rw [distance.unique again, ← same]
  exact member

/-- What a walk has settled: what was settled before, and what lies within the limit. -/
theorem mem_keys_walk (below : base ≤ limit) (apart : ∀ node ∈ sources, node ∉ keys before) :
    node ∈ keys (walk graph limit (sources.map (·, base)) before) ↔ node ∈ keys before ∨
      ∃ count, base + count ≤ limit ∧
        Steps (Follows graph) (· ∈ keys before) (· ∈ sources) count node := by
  obtain ⟨added, equal, settles⟩ := walk_spec graph below apart
  rw [equal, keys_append, List.mem_append, @mem_keys _ _ added]
  refine or_congr_right ⟨?_, ?_⟩
  · rintro ⟨depth, member⟩
    obtain ⟨within, count, rfl, distance⟩ := (settles node depth).mp member
    exact ⟨count, within, distance.1⟩
  · rintro ⟨count, within, met⟩
    -- Some number of steps is the smallest one.
    classical
    have some_way : ∃ count, Steps (Follows graph) (· ∈ keys before) (· ∈ sources) count node :=
      ⟨count, met⟩
    have least : Nat.find some_way ≤ count := Nat.find_min' some_way met
    refine ⟨base + Nat.find some_way, (settles _ _).mpr
      ⟨by omega, _, rfl, Nat.find_spec some_way, ?_⟩⟩
    exact fun other again => Nat.find_min' some_way again

/-- No node is settled twice. -/
theorem walk_keys_nodup (queue settled : List (α × Nat)) (distinct : (keys settled).Nodup) :
    (keys (walk graph limit queue settled)).Nodup := by
  fun_induction walk graph limit queue settled with
  | case1 settled => exact distinct
  | case2 _ _ _ _ _ ih => exact ih distinct
  | case3 _ _ _ _ new _ ih =>
    exact ih (by simpa [List.nodup_append] using ⟨distinct, fun _ other same => new (same ▸ other)⟩)
  | case4 _ _ _ _ new _ ih =>
    exact ih (by simpa [List.nodup_append] using ⟨distinct, fun _ other same => new (same ▸ other)⟩)

/-- What a walk meets is in the graph. -/
theorem Steps.inside {passed starts : α → Prop} (known : ∀ node, starts node → node ∈ keys graph)
    (met : Steps (Follows graph) passed starts count node) : node ∈ keys graph := by
  cases met with
  | source start _ => exact known _ start
  | step _ next _ => exact next.2

end Walking

end Store
