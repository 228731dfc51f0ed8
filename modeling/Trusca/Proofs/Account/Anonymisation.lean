import Trusca.Account.Anonymisation
import Trusca.Store.Lawful

/-! A request that has ended stays as it is, and two persons stand behind every approval, unless a
write overtakes the state that its call has read. -/

namespace Trusca

open Store

variable {τ : Type*}

/-- Somebody other than the requester and the subject approved the request in its window. -/
def AnonymisationRequest.TwoPerson (request : AnonymisationRequest) : Prop :=
  ∃ approver moment, request.approvedByUserId = some approver ∧
    request.approvedAt = some moment ∧ moment < request.expiresAt ∧
    approver ≠ request.requestedByUserId ∧ approver ≠ request.subjectUserId

/-- What may become of a request. -/
structure RequestLaw (old new : Option AnonymisationRequest) : Prop where
  kept : old.isSome = true → new.isSome = true
  /-- A request that has ended keeps its state. -/
  ended : ∀ before after, old = some before → new = some after → before.state.live = false →
    after.state = before.state
  /-- A request that is still pending was not touched. -/
  untouched : ∀ before after, old = some before → new = some after → after.state = .pending →
    after = before
  /-- A request becomes approved out of a pending one, by a second person. -/
  approved : ∀ after, new = some after → after.state = .approved → ∃ before, old = some before ∧
    (before.state = .approved ∨ before.state = .pending ∧ after.TwoPerson)

namespace RequestLaw

variable {old middle new : Option AnonymisationRequest}

/-- A version that stays as it is keeps the law. -/
theorem refl (version : Option AnonymisationRequest) : RequestLaw version version where
  kept := id
  ended := by
    rintro before after rfl same _
    rw [Option.some.inj same]
  untouched := by
    rintro before after rfl same _
    exact (Option.some.inj same).symm
  approved := fun after same state => ⟨after, same, .inl state⟩

/-- A request that has ended keeps its state through any number of changes. -/
theorem ended_stays (law : RequestLaw old new) {before : AnonymisationRequest}
    (stored : old = some before) (finished : before.state.live = false) :
    ∃ after, new = some after ∧ after.state = before.state := by
  obtain ⟨after, found⟩ := Option.isSome_iff_exists.mp (law.kept (stored ▸ rfl))
  exact ⟨after, found, law.ended before after stored found finished⟩

/-- A request is inserted as pending. -/
theorem inserted {request : AnonymisationRequest} (waiting : request.state = .pending) :
    RequestLaw none (some request) where
  kept := fun missing => by cases missing
  ended := fun _ _ missing => by cases missing
  untouched := fun _ _ missing => by cases missing
  approved := by
    rintro after same state
    rw [← Option.some.inj same, waiting] at state
    cases state

end RequestLaw

namespace AnonymisationPhase

/-- What a call may write over the request it has read: it ends the request, or approves a pending
one as a second person. -/
def Legal (loaded assigned : AnonymisationRequest) : Prop :=
  loaded.state.live = true ∧ (assigned.state.live = false ∨
    loaded.state = .pending ∧ assigned.state = .approved ∧
      (loaded.flush assigned loaded).TwoPerson)

/-- The row of a request that a call is about to write: it holds nothing of it, and as long as the
request is pending it is the one that was read. -/
structure Awaits (tx : τ) (rows : AnonymisationRequests τ) (id : RequestId)
    (loaded : AnonymisationRequest) : Prop where
  unheld : ∀ version, ¬rows.HeldBy tx id version
  stored : (rows.committed id).isSome = true
  untouched : ∀ current, rows.committed id = some current → loaded.state = .pending →
    current.state = .pending → current = loaded

/-- What a call may rely on between its own steps. -/
def Relies (tx : τ) (rows : AnonymisationRequests τ) : AnonymisationPhase → Prop
  | .start _ => ∀ id version, ¬rows.HeldBy tx id version
  | .expiring due next =>
      (due.map Prod.fst).Nodup ∧ (∀ item ∈ due, item.2.state = .pending ∧ Awaits tx rows item.1 item.2) ∧
        ∀ item ∈ next, item.2.state = .pending
  | .inserting _ request => request.state = .pending
  | .writing id loaded assigned _ => Legal loaded assigned ∧ Awaits tx rows id loaded
  | .flushed _ => True
  | .done _ => True

/-- The side condition of a step: an UPDATE finds the request in the state that the call has read. -/
def unovertaken (event : AnonymisationEvent) (rows : AnonymisationRequests τ) :
    AnonymisationPhase → Bool
  | .expiring ((id, loaded) :: _) _ | .writing id loaded _ _ =>
      event == .abort || (rows.committed id).all (·.state == loaded.state)
  | _ => true

variable {tx : τ} {rows next : AnonymisationRequests τ} {phase after : AnonymisationPhase}

/-- What a call awaits survives what the others may do. -/
theorem Awaits.kept {id : RequestId} {loaded : AnonymisationRequest}
    (awaits : Awaits tx rows id loaded) (steady : Rows.Undisturbed tx rows next)
    (evolves : rows.Evolves (fun _ => RequestLaw) next) : Awaits tx next id loaded := by
  refine ⟨(steady id).unheld awaits.unheld, (evolves id).kept awaits.stored, ?_⟩
  intro current stored waiting pending
  -- A pending request was there before, and nobody has touched it since.
  obtain ⟨before, found⟩ := Option.isSome_iff_exists.mp awaits.stored
  have same := (evolves id).untouched before current found stored pending
  subst same
  exact awaits.untouched current found waiting pending

/-- What a call awaits of one row survives what it does to another. -/
theorem Awaits.elsewhere {id : RequestId} {loaded : AnonymisationRequest}
    (awaits : Awaits tx rows id loaded) (same : next.row id = rows.row id) :
    Awaits tx next id loaded := by
  obtain ⟨unheld, stored, untouched⟩ := awaits
  unfold Rows.HeldBy at unheld
  unfold Rows.committed at stored untouched
  rw [← same] at unheld stored untouched
  exact ⟨unheld, stored, untouched⟩

/-- What a call relies on survives what the others may do. -/
theorem Relies.kept (relies : Relies tx rows phase) (steady : Rows.Undisturbed tx rows next)
    (evolves : rows.Evolves (fun _ => RequestLaw) next) : Relies tx next phase := by
  -- By the phase: what a phase relies on is unheld, waiting or loaded, and others keep all three.
  cases phase with
  | start call => exact fun id => (steady id).unheld (relies id)
  | expiring due pending =>
    obtain ⟨distinct, waiting, fresh⟩ := relies
    exact ⟨distinct, fun item member =>
      ⟨(waiting item member).1, (waiting item member).2.kept steady evolves⟩, fresh⟩
  | inserting id request => exact relies
  | writing id loaded assigned answer => exact ⟨relies.1, relies.2.kept steady evolves⟩
  | flushed answer => trivial
  | done answer => trivial

variable [DecidableEq τ]

/-- A request that a call without locks has read awaits its write. -/
theorem Awaits.read {id : RequestId} {request : AnonymisationRequest}
    (unheld : ∀ id version, ¬rows.HeldBy tx id version)
    (seen : rows.view tx id = some request) : Awaits tx rows id request := by
  have stored : rows.committed id = some request := by
    rw [← seen]
    exact (Row.view_eq_committed (unheld id)).symm
  refine ⟨unheld id, stored ▸ rfl, fun current found _ _ => ?_⟩
  exact Option.some.inj (found.symm.trans stored)

/-- The requests that are found due are pending, and await their write. -/
theorem selectDue_awaits {now : Time} {subject : Option UserId}
    (unheld : ∀ id version, ¬rows.HeldBy tx id version) :
    ((selectDue rows tx now subject).map Prod.fst).Nodup ∧
      ∀ item ∈ selectDue rows tx now subject,
        item.2.state = .pending ∧ Awaits tx rows item.1 item.2 := by
  refine ⟨rows.fetch_nodup tx _, ?_⟩
  rintro ⟨id, request⟩ member
  obtain ⟨seen, wanted⟩ := Rows.mem_fetch.mp member
  simp only [AnonymisationRequest.due, Bool.and_eq_true, beq_iff_eq] at wanted
  exact ⟨wanted.1.1, .read unheld seen⟩

/-- What a call relies on once it has read. -/
theorem load_relies (call : AnonymisationCall)
    (unheld : ∀ id version, ¬rows.HeldBy tx id version) : Relies tx rows (load rows tx call) := by
  -- Every call but the one that opens a request goes on with the row that it has read.
  cases call with
  | openRequest subject requestedBy subjectExists id now =>
    simp only [load]
    split
    · trivial
    · split
      · trivial
      · -- What is due was selected just now, and the new request is a pending one.
        obtain ⟨distinct, waiting⟩ := selectDue_awaits unheld
        refine ⟨distinct, waiting, fun item new => ?_⟩
        cases new
        rfl
  | approve id approvedBy now =>
    simp only [load]
    split
    · trivial
    · rename_i request seen
      split
      · trivial
      · rename_i waiting
        -- Only a pending request is approved, before its deadline and by a third person.
        have pending : request.state = .pending := Decidable.not_not.mp waiting
        split
        · exact ⟨⟨pending ▸ rfl, .inl rfl⟩, .read unheld seen⟩
        · rename_i open_
          split
          · trivial
          · rename_i parties
            obtain ⟨requester, subject⟩ := not_or.mp parties
            -- The row is assigned what the approval consists of.
            have persons : (request.flush { request with
                state := .approved, approvedByUserId := some approvedBy
                approvedAt := some now } request).TwoPerson :=
              ⟨approvedBy, now, flushColumn_self _ _, flushColumn_self _ _, Int.not_le.mp open_,
                requester, subject⟩
            exact ⟨⟨pending ▸ rfl, .inr ⟨pending, rfl, persons⟩⟩, .read unheld seen⟩
  | cancel id =>
    simp only [load]
    split
    · trivial
    · rename_i request seen
      split
      · trivial
      · -- A request that is still open is cancelled.
        rename_i open_
        exact ⟨⟨by simpa using open_, .inl rfl⟩, .read unheld seen⟩
  | markExecuted id now =>
    simp only [load]
    split
    · trivial
    · rename_i request seen
      split
      · trivial
      · rename_i approved
        -- Only an approved request is executed.
        have state : request.state = .approved := Decidable.not_not.mp approved
        exact ⟨⟨state ▸ rfl, .inl rfl⟩, .read unheld seen⟩
  | expireDue now =>
    -- Nothing is inserted behind the expiry.
    obtain ⟨distinct, waiting⟩ := selectDue_awaits unheld
    exact ⟨distinct, waiting, by simp⟩

omit [DecidableEq τ] in
/-- The UPDATE of a request in the state that was read follows the law. -/
theorem Awaits.lawful {id : RequestId} {loaded assigned current : AnonymisationRequest}
    (awaits : Awaits tx rows id loaded) (legal : Legal loaded assigned)
    (stored : rows.committed id = some current) (same : current.state = loaded.state) :
    RequestLaw (some current) (some (loaded.flush assigned current)) := by
  obtain ⟨live, outcome⟩ := legal
  -- The state was read as it is stored, so the flush writes the one assigned.
  have state : (loaded.flush assigned current).state = assigned.state := by
    simp only [AnonymisationRequest.flush, same, flushColumn_self]
  have open_ : current.state.live = true := same ▸ live
  -- The three clauses of the law, on the one change from `current`.
  constructor
  · exact fun _ => rfl
  · -- A finished request is not live, and this one is.
    intro before after earlier later finished
    cases earlier
    cases open_.symm.trans finished
  · -- The write ends the request or approves it, and neither leaves it pending.
    intro before after earlier later pending
    cases later
    rw [state] at pending
    rcases outcome with ends | ⟨_, approves, _⟩
    · rw [pending] at ends
      cases ends
    · cases approves.symm.trans pending
  · intro after later approved
    cases later
    rw [state] at approved
    refine ⟨current, rfl, .inr ?_⟩
    rcases outcome with ends | ⟨pending, _, persons⟩
    · rw [approved] at ends
      cases ends
    · -- The request is pending, so it is the one that was read.
      have waiting := same.trans pending
      obtain rfl := awaits.untouched current stored pending waiting
      exact ⟨pending, persons⟩

/-- An UPDATE that finds the request in the state that was read. -/
theorem update_advances {id : RequestId} {loaded assigned : AnonymisationRequest}
    {then_ : AnonymisationPhase} (lawful : rows.Lawful fun _ => RequestLaw)
    (awaits : Awaits tx rows id loaded) (legal : Legal loaded assigned)
    (current : (rows.committed id).all (·.state == loaded.state) = true)
    (updated : update rows tx id loaded assigned then_ = some (next, after)) :
    rows.Advances (fun _ => RequestLaw) tx next ∧
      (after = then_ ∧ (∀ other, other ≠ id → next.row other = rows.row other) ∨
        ∃ answer, after = .done answer) := by
  unfold update at updated
  split at updated
  · cases updated
  · split at updated
    · -- The unique index refuses the new version.
      cases updated
      exact ⟨.of_rollback (fun _ => RequestLaw.refl) lawful, .inr ⟨_, rfl⟩⟩
    · simp only [Option.map_eq_some_iff, Prod.exists] at updated
      obtain ⟨written, matched, changed, result⟩ := updated
      split at result
      · cases result
        refine ⟨.of_change (fun _ => RequestLaw.refl) lawful changed ?_, .inl ⟨rfl, ?_⟩⟩
        · intro version seen _
          have stored : rows.committed id = some version := by
            rw [← seen]
            exact (Row.view_eq_committed awaits.unheld).symm
          rw [stored] at current ⊢
          exact awaits.lawful legal stored (by simpa using current)
        · exact fun other different => Rows.change_elsewhere changed different
      · cases result
        exact ⟨.of_rollback (fun _ => RequestLaw.refl) lawful, .inr ⟨_, rfl⟩⟩

/-- Every step that overtakes nobody advances by the law, and leaves its call what it relies on. -/
theorem act_abides {event : AnonymisationEvent} (lawful : rows.Lawful fun _ => RequestLaw)
    (relies : Relies tx rows phase) (met : unovertaken event rows phase = true)
    (acted : act tx event rows phase = some (next, after)) :
    rows.Advances (fun _ => RequestLaw) tx next ∧ Relies tx next after := by
  -- An abort gives up whatever is held; each other step depends on how far the call has come.
  cases event with
  | abort =>
    cases phase <;> simp only [act, Option.some.injEq, Prod.mk.injEq, reduceCtorEq] at acted <;>
      obtain ⟨rfl, rfl⟩ := acted <;>
      exact ⟨.of_rollback (fun _ => RequestLaw.refl) lawful, trivial⟩
  | advance =>
    cases phase with
    | start call =>
      cases acted
      exact ⟨.idle (fun _ => RequestLaw.refl) lawful, load_relies call relies⟩
    | expiring due pending =>
      -- The due requests are expired one behind the other, and then comes what was asked for.
      obtain ⟨distinct, waiting, fresh⟩ := relies
      cases due with
      | nil =>
        cases pending with
        | none =>
          cases acted
          exact ⟨.idle (fun _ => RequestLaw.refl) lawful, trivial⟩
        | some item =>
          cases acted
          exact ⟨.idle (fun _ => RequestLaw.refl) lawful, fresh item rfl⟩
      | cons first rest =>
        obtain ⟨id, request⟩ := first
        -- The row that is expired was pending when it was read.
        obtain ⟨state, awaits⟩ := waiting (id, request) List.mem_cons_self
        have legal : Legal request { request with state := .expired } := ⟨state ▸ rfl, .inl rfl⟩
        obtain ⟨advances, outcome⟩ :=
          update_advances lawful awaits legal (by simpa [unovertaken] using met) acted
        refine ⟨advances, ?_⟩
        rcases outcome with ⟨rfl, elsewhere⟩ | ⟨answer, rfl⟩
        · -- Every other due row stands as it was read, as only this one was written.
          rw [List.map_cons, List.nodup_cons] at distinct
          refine ⟨distinct.2, fun item member => ?_, fresh⟩
          obtain ⟨still, later⟩ := waiting item (List.mem_cons_of_mem _ member)
          have different : item.1 ≠ id := fun same =>
            distinct.1 (List.mem_map.mpr ⟨item, member, same⟩)
          exact ⟨still, later.elsewhere (elsewhere item.1 different)⟩
        · trivial
    | inserting id request =>
      simp only [act, advance] at acted
      -- The new row waits for another insertion of its key, or conflicts with one that is there.
      split at acted
      · cases acted
      · split at acted
        · cases acted
          exact ⟨.of_rollback (fun _ => RequestLaw.refl) lawful, trivial⟩
        · simp only [Option.map_eq_some_iff] at acted
          obtain ⟨written, inserted, result⟩ := acted
          cases result
          exact ⟨.of_insert (fun _ => RequestLaw.refl) lawful inserted (.inserted relies), trivial⟩
    | writing id loaded assigned answer =>
      -- The write meets the row that was read, as nobody has overtaken the call.
      obtain ⟨legal, awaits⟩ := relies
      obtain ⟨advances, outcome⟩ :=
        update_advances lawful awaits legal (by simpa [unovertaken] using met) acted
      refine ⟨advances, ?_⟩
      rcases outcome with ⟨rfl, _⟩ | ⟨answer, rfl⟩ <;> trivial
    | flushed answer =>
      cases acted
      exact ⟨.of_commit (fun _ => RequestLaw.refl) lawful, trivial⟩
    | done answer => cases acted

/-- The calls abide by the law while no write is overtaken. -/
theorem abides : Sessions.Abides (fun _ => RequestLaw) (@act τ _) Relies
    (fun rows event phase => unovertaken event rows phase = true) where
  acts := fun _ _ _ _ _ _ lawful relies met acted => act_abides lawful relies met acted
  kept := fun _ _ _ _ relies steady evolves => relies.kept steady evolves

end AnonymisationPhase

/-- Nobody holds a request, and no call has begun. -/
structure AnonymisationSystem.Fresh (system : AnonymisationSystem τ) : Prop where
  unlocked : ∀ id, (system.store.row id).held = none
  unbegun : ∀ tx, (∃ call, system.phase tx = .start call) ∨ ∃ answer, system.phase tx = .done answer

/-- Every UPDATE finds the request in the state that its call has read. -/
abbrev RequestUnovertaken [DecidableEq τ] :
    AnonymisationSystem τ → τ × AnonymisationEvent → Prop :=
  Sessions.Allows fun rows event phase => AnonymisationPhase.unovertaken event rows phase = true

section Runs

variable {start middle next last : AnonymisationSystem τ}

/-- A system in which no call has begun is lawful. -/
theorem AnonymisationSystem.Fresh.sound (fresh : start.Fresh) :
    Sessions.Annotated (Rows.Lawful fun _ => RequestLaw) AnonymisationPhase.Relies start := by
  refine ⟨fun id => .of_unlocked (fresh.unlocked id), fun tx => ?_⟩
  rcases fresh.unbegun tx with ⟨call, begun⟩ | ⟨answer, begun⟩
  · rw [begun]
    exact fun id version => Row.not_heldBy_of_unlocked (fresh.unlocked id) version
  · rw [begun]
    trivial

variable [DecidableEq τ]

/-- In every run whose writes are not overtaken, a request that has ended stays in its state, and a
request becomes approved only out of a pending one, in its window and by a person who neither asked
for it nor is its subject. -/
theorem anonymisation_two_person {before after : List (τ × AnonymisationEvent)}
    {event : τ × AnonymisationEvent} (fresh : start.Fresh)
    (met : Guarded anonymisationStep RequestUnovertaken start (before ++ event :: after))
    (reached : run anonymisationStep start before = some middle)
    (taken : anonymisationStep middle event = some next)
    (continued : run anonymisationStep next after = some last) :
    (∀ id request, middle.store.committed id = some request → request.state.live = false →
      ∃ later, last.store.committed id = some later ∧ later.state = request.state) ∧
    ∀ id later, next.store.committed id = some later → later.state = .approved →
      ∃ request, middle.store.committed id = some request ∧
        (request.state = .approved ∨ request.state = .pending ∧ later.TwoPerson) := by
  obtain ⟨early, late⟩ := met.append reached
  have sound := run_invariant (fun _ _ _ holds allowed moved =>
    (AnonymisationPhase.abides.step holds allowed moved).1) fresh.sound early reached
  constructor
  · -- Every step keeps the state of what has ended, so every run does.
    have whole : run anonymisationStep middle (event :: after) = some last :=
      run_cons.mpr ⟨next, taken, continued⟩
    have stays := run_relation _ (fun first second : AnonymisationSystem τ =>
      ∀ id request, first.store.committed id = some request → request.state.live = false →
        ∃ later, second.store.committed id = some later ∧ later.state = request.state)
      (fun _ _ request stored _ => ⟨request, stored, rfl⟩) ?_ ?_ sound late whole
    · exact stays
    · intro first second third earlier later id request stored finished
      obtain ⟨between, found, same⟩ := earlier id request stored finished
      obtain ⟨final, kept, again⟩ := later id between found (same ▸ finished)
      exact ⟨final, kept, again.trans same⟩
    · intro world step_ after_ holds allowed moved
      obtain ⟨sound, evolves⟩ := AnonymisationPhase.abides.step holds allowed moved
      exact ⟨sound, fun id request stored finished => (evolves id).ended_stays stored finished⟩
  · obtain ⟨_, evolves⟩ := AnonymisationPhase.abides.step sound late.1 taken
    exact fun id later stored approved => (evolves id).approved later stored approved

/-- User 1 is the subject, user 2 has asked, user 3 approves and user 2 withdraws. -/
def approveAndCancel : AnonymisationSystem Bool where
  store := Rows.stored [(0, ⟨1, 2, none, .pending, 100, none, none⟩)]
  phase := fun cancels => if cancels then .start (.cancel 0) else .start (.approve 0 3 50)

/-- The two calls start fresh. -/
theorem approveAndCancel_fresh : approveAndCancel.Fresh :=
  ⟨fun _ => rfl, fun cancels => by cases cancels <;> exact .inl ⟨_, rfl⟩⟩

/-- The approval is complete before the withdrawal reads, so both find what they expect. -/
theorem anonymisation_two_person_sequential :
    ∃ middle next last : AnonymisationSystem Bool,
      run anonymisationStep approveAndCancel
        [(false, AnonymisationEvent.advance), (false, .advance)] = some middle ∧
      anonymisationStep middle (false, .advance) = some next ∧
      run anonymisationStep next (List.replicate 3 (true, AnonymisationEvent.advance)) = some last ∧
      ∀ id later, next.store.committed id = some later → later.state = .approved →
        ∃ request, middle.store.committed id = some request ∧
          (request.state = .approved ∨ request.state = .pending ∧ later.TwoPerson) := by
  have met : Guarded anonymisationStep RequestUnovertaken approveAndCancel
      ([(false, AnonymisationEvent.advance), (false, .advance)] ++ (false, AnonymisationEvent.advance) ::
        List.replicate 3 (true, AnonymisationEvent.advance)) := by decide +kernel
  exact ⟨_, _, _, rfl, rfl, rfl,
    (anonymisation_two_person approveAndCancel_fresh met rfl rfl rfl).2⟩

/-- The approval reads a pending request, the withdrawal commits, and the approval is written over
it: what was cancelled is approved. -/
theorem anonymisation_revived : approveAndCancel.Fresh ∧
    ∃ middle last : AnonymisationSystem Bool, ∃ request later : AnonymisationRequest,
      run anonymisationStep approveAndCancel
        ((false, .advance) :: List.replicate 3 (true, .advance)) = some middle ∧
      run anonymisationStep middle (List.replicate 2 (false, .advance)) = some last ∧
      middle.store.committed 0 = some request ∧ request.state = .cancelled ∧
      last.store.committed 0 = some later ∧ later.state = .approved :=
  ⟨approveAndCancel_fresh, _, _, _, _, rfl, rfl, rfl, rfl, rfl, rfl⟩

end Runs

end Trusca
