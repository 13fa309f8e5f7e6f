import RerollSync.Pipeline.Soundness

/-!
# State transitions at commit time

The op for a stage outcome is checked against the state captured at the claim,
and a reprocess chunk against nothing; what they move is the row as it is when
they commit.  This module relates the two, and with them `deleted_at`.
-/

namespace RerollSync.Pipeline

open RerollSync.Support RerollSync.Store RerollSync.Dispatcher RerollSync.Ingest

variable {M : Type} {env : Env M}

/-- A row has a deletion time exactly when it is deleted. -/
def RowAgrees (row : WheelRow) : Prop := row.deletedAt.isSome = true ↔ row.state = .deleted

instance (row : WheelRow) : Decidable (RowAgrees row) := inferInstanceAs (Decidable (_ ↔ _))

/-- `deleted_at IS NOT NULL` exactly for the wheels in state `DELETED`. -/
def DeletedAgrees (db : Db) : Prop := ∀ id row, db.wheels.get? id = some row → RowAgrees row

/-- A stage outcome leaves the state alone or follows an edge that starts there. -/
def OutcomeEdge (row row' : WheelRow) : Prop :=
  row'.state = row.state ∨ row'.state ∈ allowedTransitions row.state

/-- A reprocess chunk never moves a tombstone. -/
def ChunkEdge (row row' : WheelRow) : Prop :=
  row.state = .deleted → row'.state = .deleted

/-- What a step has to respect of the rows it finds: the two kinds of steps that
set a state without looking at it. -/
def Edge (e : Event) (row row' : WheelRow) : Prop :=
  match e with
  | .apply _ _ _ => OutcomeEdge row row'
  | .archive _ _ _ => OutcomeEdge row row'
  | .applyChunk _ _ => ChunkEdge row row'
  | _ => True

/-- Every wheel moves along an edge that starts at the state it has when the step
commits. -/
def Respects (env : Env M) (s : State) (e : Event) : Prop :=
  ∀ s', step env s e = some s' → ∀ id row row', s.db.wheels.get? id = some row →
    s'.db.wheels.get? id = some row' → Edge e row row'

/-- The wheel of the item is still in a state from which the outcome may move it. -/
def ItemCurrent (env : Env M) (s : State) (i : ℕ) (outcome : Outcome) : Prop :=
  ∀ h, s.held[i]? = some h → ∀ row, s.db.wheels.get? h.item.id = some row →
    ∀ next, target env.dispatcher h.stage h.item s.db outcome = some next →
      next = row.state ∨ next ∈ allowedTransitions row.state

/-- What was read when the work was claimed or selected still holds well enough
at the commit: the item's wheel may take the step, and no wheel of the chunk has
been deleted. -/
def Current (env : Env M) (s : State) (e : Event) : Prop :=
  match e with
  | .apply i outcome _ => ItemCurrent env s i outcome
  | .archive i data _ => ItemCurrent env s i (State.archived env data)
  | .applyChunk i _ => ∀ chunk, s.chunks[i]? = some chunk → ∀ id ∈ chunk.1, ∀ row,
      s.db.wheels.get? id = some row → row.state ≠ .deleted
  | _ => True

/-! ## Edges at the commit -/

/-- A step that submits an outcome leaves a state alone, or it sets the target of
the outcome on the item's wheel. -/
theorem Commit.state_of_submits {s : State} {e : Event} {db' : Db} (h : Commit env s e db')
    {i : ℕ} {outcome : Outcome} {clock : Clock} (he : e.submits env = some (i, outcome, clock))
    {held : Held} (hheld : s.held[i]? = some held) {id : ℕ} {row row' : WheelRow}
    (hrow : s.db.wheels.get? id = some row) (hrow' : db'.wheels.get? id = some row') :
    row'.state = row.state ∨ (id = held.item.id ∧
      target env.dispatcher held.stage held.item s.db outcome = some row'.state) := by
  cases h with
  | quiet hquiet => cases e <;> simp [Event.quiet, Event.submits] at hquiet he
  | unmoved _ _ _ wheels =>
      rw [wheels, hrow] at hrow'
      obtain rfl := Option.some.inj hrow'
      exact Or.inl rfl
  | moved he' hheld' htarget wheels =>
      obtain ⟨rfl, rfl, rfl⟩ : i = _ ∧ outcome = _ ∧ clock = _ := by
        simpa using he.symm.trans he'
      obtain rfl : held = _ := by simpa using hheld.symm.trans hheld'
      rw [wheels, Table.get?_modify, hrow, Option.map_some, Db.atWheel] at hrow'
      obtain rfl := Option.some.inj hrow'
      by_cases hid : id = held.item.id
      · refine Or.inr ⟨hid, ?_⟩
        rw [if_pos hid, outcomeRow_state htarget _ row, htarget]
      · exact Or.inl (by rw [if_neg hid])
  | planned => cases he
  | gone => cases he
  | reprocessed => cases he
  | unquarantined => cases he

/-- An outcome with a target sets it. -/
theorem Commit.state_of_target {s : State} {e : Event} {db' : Db} (h : Commit env s e db')
    {i : ℕ} {outcome : Outcome} {clock : Clock} (he : e.submits env = some (i, outcome, clock))
    {held : Held} (hheld : s.held[i]? = some held) {next : WheelState}
    (htarget : target env.dispatcher held.stage held.item s.db outcome = some next)
    {row : WheelRow} (hrow : s.db.wheels.get? held.item.id = some row) :
    ∃ row', db'.wheels.get? held.item.id = some row' ∧ row'.state = next := by
  cases h with
  | quiet hquiet => cases e <;> simp [Event.quiet, Event.submits] at hquiet he
  | unmoved he' hheld' hnone =>
      obtain ⟨rfl, rfl, rfl⟩ : i = _ ∧ outcome = _ ∧ clock = _ := by
        simpa using he.symm.trans he'
      obtain rfl : held = _ := by simpa using hheld.symm.trans hheld'
      simp [htarget] at hnone
  | moved he' hheld' htarget' wheels =>
      obtain ⟨rfl, rfl, rfl⟩ : i = _ ∧ outcome = _ ∧ clock = _ := by
        simpa using he.symm.trans he'
      obtain rfl : held = _ := by simpa using hheld.symm.trans hheld'
      rw [wheels, Table.get?_modify, hrow, Option.map_some, Db.atWheel, if_pos rfl]
      exact ⟨_, rfl, outcomeRow_state htarget _ row⟩
  | planned => cases he
  | gone => cases he
  | reprocessed => cases he
  | unquarantined => cases he

/-- An outcome follows an edge from the committed state exactly when the item is
current. -/
theorem outcomeEdge_iff_itemCurrent {s : State} {e : Event} {db' : Db}
    (hcommit : Commit env s e db') {i : ℕ} {outcome : Outcome} {clock : Clock}
    (he : e.submits env = some (i, outcome, clock)) {held : Held}
    (hheld : s.held[i]? = some held) :
    (∀ id row row', s.db.wheels.get? id = some row → db'.wheels.get? id = some row' →
      OutcomeEdge row row') ↔ ItemCurrent env s i outcome := by
  constructor
  · intro hedge held' hheld' row hrow next htarget
    obtain rfl : held = held' := by simpa using hheld.symm.trans hheld'
    obtain ⟨row', hrow', rfl⟩ := hcommit.state_of_target he hheld htarget hrow
    exact hedge _ row row' hrow hrow'
  · intro hcurrent id row row' hrow hrow'
    rcases hcommit.state_of_submits he hheld hrow hrow' with hsame | ⟨rfl, htarget⟩
    · exact Or.inl hsame
    · exact hcurrent held hheld row hrow row'.state htarget

/-- A step respects the rows it finds exactly when what it acts on is current. -/
theorem respects_iff_current {s s' : State} {e : Event} (hs : Sound s)
    (hstep : step env s e = some s') : Respects env s e ↔ Current env s e := by
  have hiff : Respects env s e ↔ ∀ id row row', s.db.wheels.get? id = some row →
      s'.db.wheels.get? id = some row' → Edge e row row' := by
    constructor
    · exact fun h => h s' hstep
    · intro h s'' hstep''
      obtain rfl : s' = s'' := by simpa using hstep.symm.trans hstep''
      exact h
  rw [hiff]
  have hcommit := (stepped_of_step hs hstep).commit
  generalize s'.db = db' at hcommit ⊢
  cases e with
  | apply i outcome clock =>
      obtain ⟨held, hheld, -⟩ := Option.bind_eq_some_iff.mp hstep
      exact outcomeEdge_iff_itemCurrent hcommit rfl hheld
  | archive i data clock =>
      obtain ⟨held, hheld, -⟩ := Option.bind_eq_some_iff.mp hstep
      exact outcomeEdge_iff_itemCurrent hcommit rfl hheld
  | applyChunk i nowIso =>
      cases hcommit with
      | quiet he => simp [Event.quiet] at he
      | unmoved he => cases he
      | moved he => cases he
      | @reprocessed _ _ ids selector _ hchunk wheels =>
          constructor
          · rintro hedge chunk hchunk' id hid row hrow hdeleted
            obtain rfl : (ids, selector) = chunk := by simpa using hchunk.symm.trans hchunk'
            obtain ⟨m, hm⟩ := wheels id
            rw [hrow, Option.map_some, if_pos hid] at hm
            have hafter := hedge id row _ hrow hm hdeleted
            simp [reprocessedRow] at hafter
          · intro hcurrent id row row' hrow hrow' hdeleted
            have hid : id ∉ ids := fun hid => hcurrent _ hchunk id hid row hrow hdeleted
            obtain ⟨m, hm⟩ := wheels id
            rw [hrow', hrow, Option.map_some, if_neg hid] at hm
            obtain rfl := Option.some.inj hm
            exact hdeleted
  | _ => exact iff_of_true (fun _ _ _ _ _ => trivial) trivial

/-! ## Deletion times -/

theorem rowAgrees_of_not_deleted {row : WheelRow} (hdeleted : row.deletedAt = none)
    (hstate : row.state ≠ .deleted) : RowAgrees row := by
  simp [RowAgrees, hdeleted, hstate]

theorem rowAgrees_tombstoned (nowIso : String) (seq : ℕ) (row : WheelRow) :
    RowAgrees (tombstoned nowIso seq row) := by
  simp [RowAgrees, tombstoned]

/-- A row that moves out of no tombstone, to no tombstone, keeps agreeing. -/
theorem RowAgrees.moved {row row' : WheelRow} (h : RowAgrees row)
    (hdeleted : row'.deletedAt = row.deletedAt) (hfrom : row.state ≠ .deleted)
    (hto : row'.state ≠ .deleted) : RowAgrees row' := by
  have hnot : ¬row.deletedAt.isSome = true := fun hsome => hfrom (h.mp hsome)
  exact rowAgrees_of_not_deleted (by rw [hdeleted]; simpa using hnot) hto

theorem ne_deleted_of_mem_entryStates {state : WheelState} (h : state ∈ entryStates) :
    state ≠ .deleted := by
  rintro rfl
  simp [entryStates] at h

theorem ChangeFits.rowAgrees {settings : Ingest.Settings} {c : ChangedWheel} {row : WheelRow}
    (hfits : ChangeFits c.changes row) (h : RowAgrees row) (seq : ℕ) :
    RowAgrees (changedRow settings c seq row) := by
  obtain ⟨hstate, hclear⟩ := hfits
  by_cases hc : c.changes.clearDeletedAt = true
  · rw [if_pos hc] at hclear
    obtain ⟨next, hnext⟩ := Option.isSome_iff_exists.mp hclear
    refine rowAgrees_of_not_deleted (by simp [changedRow, Changes.apply, hc]) ?_
    simpa [changedRow, Changes.apply, hnext] using ne_deleted_of_mem_entryStates (hstate next hnext)
  · rw [if_neg hc] at hclear
    refine rowAgrees_of_not_deleted (by simp [changedRow, Changes.apply, hclear]) ?_
    cases hnext : c.changes.state with
    | none =>
        have hlive : row.state ≠ .deleted := fun hdeleted => by
          simpa [hclear] using h.mpr hdeleted
        simpa [changedRow, Changes.apply, hnext] using hlive
    | some next =>
        simpa [changedRow, Changes.apply, hnext] using
          ne_deleted_of_mem_entryStates (hstate next hnext)

/-- No stage outcome moves a wheel to `DELETED`. -/
theorem target_ne_deleted {settings : Dispatcher.Settings} {stage : Stage} {item : QueueItem}
    {db : Db} {outcome : Outcome} {next : WheelState} (hitem : item.state = queueState stage)
    (htarget : target settings stage item db outcome = some next) : next ≠ .deleted := by
  have hmem := mem_allowedTransitions_of_target htarget
  rintro rfl
  rw [hitem] at hmem
  cases stage <;> simp [queueState, allowedTransitions] at hmem

theorem itemCurrent_of_current {s : State} {e : Event} {i : ℕ} {outcome : Outcome} {clock : Clock}
    (he : e.submits env = some (i, outcome, clock)) (h : Current env s e) :
    ItemCurrent env s i outcome := by
  cases e with
  | apply i' outcome' clock' =>
      obtain ⟨rfl, rfl, rfl⟩ : i' = i ∧ outcome' = outcome ∧ clock' = clock := by
        simpa [Event.submits] using he
      exact h
  | archive i' data clock' =>
      obtain ⟨rfl, rfl, rfl⟩ : i' = i ∧ State.archived env data = outcome ∧ clock' = clock := by
        simpa [Event.submits] using he
      exact h
  | _ => cases he

/-- A commit on current work leaves rows that agree, if it finds such rows. -/
theorem Commit.rowAgrees {s : State} {e : Event} {db' : Db} (hs : Sound s)
    (hcommit : Commit env s e db') (hcurrent : Current env s e) {id : ℕ} {row row' : WheelRow}
    (hrow : s.db.wheels.get? id = some row) (hrow' : db'.wheels.get? id = some row')
    (h : RowAgrees row) : RowAgrees row' := by
  cases hcommit with
  | quiet he =>
      obtain rfl : row = row' := by simpa [hrow] using hrow'
      exact h
  | unmoved he hheld htarget wheels =>
      obtain rfl : row = row' := by simpa [wheels, hrow] using hrow'
      exact h
  | @moved _ i outcome clock held next _ he hheld htarget wheels =>
      rw [wheels, Table.get?_modify, hrow, Option.map_some, Db.atWheel] at hrow'
      obtain rfl := Option.some.inj hrow'
      by_cases hid : id = held.item.id
      · rw [if_pos hid]
        have hto : next ≠ .deleted :=
          target_ne_deleted (hs.held held (List.mem_of_getElem? hheld)).1 htarget
        have hfrom : row.state ≠ .deleted := by
          intro hdeleted
          rcases itemCurrent_of_current he hcurrent held hheld row (hid ▸ hrow) next htarget with
            hsame | hmem
          · exact hto (hsame.trans hdeleted)
          · simp [hdeleted, allowedTransitions] at hmem
        refine h.moved ?_ hfrom (by rwa [outcomeRow_state htarget])
        exact (outcomeRow_keeps env.dispatcher clock held.stage held.item s.db outcome _ row).2.2
      · rwa [if_neg hid]
  | planned hfits hsync synced =>
      obtain ⟨m, m', hget⟩ := synced.kept id row hrow
      obtain rfl := Option.some.inj (hrow'.symm.trans hget)
      rcases plannedRow_cases _ _ id m m' row with
        ⟨-, changed, -, -, heq⟩ | ⟨-, c, hc, rfl, heq⟩ | ⟨-, heq⟩
      · rw [heq]
        exact rowAgrees_tombstoned _ _ _
      · rw [heq]
        obtain ⟨found, hfound, -, hfit⟩ := hfits.changed c hc
        obtain rfl : found = row := by simpa [hfound] using hrow
        exact hfit.rowAgrees h m
      · rwa [heq]
  | gone hsync wheels =>
      obtain ⟨m, hm⟩ := wheels id
      rw [hrow', hrow, Option.map_some, goneRow] at hm
      obtain rfl := Option.some.inj hm
      split
      · exact rowAgrees_tombstoned _ _ _
      · exact h
  | @reprocessed _ _ ids selector _ hchunk wheels =>
      obtain ⟨m, hm⟩ := wheels id
      rw [hrow', hrow, Option.map_some] at hm
      obtain rfl := Option.some.inj hm
      by_cases hid : id ∈ ids
      · rw [if_pos hid]
        exact h.moved rfl (hcurrent _ hchunk id hid row hrow) (by simp [reprocessedRow])
      · rwa [if_neg hid]
  | @unquarantined _ _ ids _ hids wheels =>
      obtain ⟨m, hm⟩ := wheels id
      rw [hrow', hrow, Option.map_some] at hm
      obtain rfl := Option.some.inj hm
      split
      · rename_i hquarantined
        exact h.moved rfl (by simp [hquarantined.2]) (by simp [enterState])
      · exact h

/-- A commit inserts only live wheels. -/
theorem Commit.rowAgrees_fresh {s : State} {e : Event} {db' : Db} (hcommit : Commit env s e db')
    {id : ℕ} {row' : WheelRow} (hnone : s.db.wheels.get? id = none)
    (hrow' : db'.wheels.get? id = some row') : RowAgrees row' := by
  cases hcommit with
  | quiet he => simp [hnone] at hrow'
  | unmoved he hheld htarget wheels => simp [wheels, hnone] at hrow'
  | moved he hheld htarget wheels => simp [wheels, hnone] at hrow'
  | planned hfits hsync synced =>
      obtain ⟨w, hw, -, m, rfl⟩ := synced.fresh id row' hnone hrow'
      exact rowAgrees_of_not_deleted rfl (ne_deleted_of_mem_entryStates (hfits.new w hw))
  | gone hsync wheels =>
      obtain ⟨m, hm⟩ := wheels id
      simp [hm, hnone] at hrow'
  | reprocessed hchunk wheels =>
      obtain ⟨m, hm⟩ := wheels id
      simp [hm, hnone] at hrow'
  | unquarantined hids wheels =>
      obtain ⟨m, hm⟩ := wheels id
      simp [hm, hnone] at hrow'

/-- A step on current work keeps the deletion times. -/
theorem deletedAgrees_step {s s' : State} {e : Event} (hs : Sound s) (h : DeletedAgrees s.db)
    (hcurrent : Current env s e) (hstep : step env s e = some s') : DeletedAgrees s'.db := by
  have hcommit := (stepped_of_step hs hstep).commit
  intro id row' hrow'
  cases hrow : s.db.wheels.get? id with
  | none => exact hcommit.rowAgrees_fresh hrow hrow'
  | some row => exact hcommit.rowAgrees hs hcurrent hrow hrow' (h id row hrow)

/-! ## Runs -/

/-- In a run from a database whose deletion times agree, every step respects the
rows it finds and every state reached has agreeing deletion times, exactly when
every step acts on current work. -/
theorem respected_iff_current {db : Db} {n : ℕ} (hdb : DeletedAgrees db) {l : List Event}
    {t : State} (hrun : (machine env).run (.initial db n) l = some t) :
    ((machine env).Along (fun s e => Respects env s e ∧ DeletedAgrees s.db) (.initial db n) l ∧
      DeletedAgrees t.db) ↔ (machine env).Along (Current env) (.initial db n) l := by
  have hinit : Sound (.initial db n) ∧ DeletedAgrees (State.initial db n).db :=
    ⟨sound_initial db n, hdb⟩
  have hstep : ∀ s e s', (Sound s ∧ DeletedAgrees s.db) → Current env s e →
      step env s e = some s' → Sound s' ∧ DeletedAgrees s'.db :=
    fun s e s' h hcurrent hstep =>
      ⟨sound_step h.1 hstep, deletedAgrees_step h.1 h.2 hcurrent hstep⟩
  have hiff : (machine env).Along (Current env) (.initial db n) l ↔
      (machine env).Along (fun s e => Respects env s e ∧ DeletedAgrees s.db) (.initial db n) l :=
    Machine.along_iff_of_invariant (P := fun s => Sound s ∧ DeletedAgrees s.db) hstep
      (fun s e s' h hstep => by rw [respects_iff_current h.1 hstep, and_iff_left h.2]) hinit hrun
  rw [← hiff, and_iff_left_iff_imp]
  intro hcurrent
  have hend : Sound t ∧ DeletedAgrees t.db :=
    Machine.run_invariant_along (P := fun s => Sound s ∧ DeletedAgrees s.db) hstep hinit hcurrent
      hrun
  exact hend.2

/-! ## A tombstone revived -/

/-- The sidecar of the wheel is fetched; meanwhile the project is gone. -/
def goneRun : List Event :=
  [.claim .fetch 10 "t1", .loadSidecar 0, .planSync "p" .notFound, .applySync "p" "t1"]

/-- The handoff of the bytes that were fetched. -/
def handoff : Event := .archive 0 [1] exampleClock

theorem deletedAgrees_exampleDb : DeletedAgrees exampleDb :=
  Table.forall_get?_iff.mpr (by decide)

theorem respected_iff_current_handoff :
    ∃ t, (machine exampleEnv).run (.initial exampleDb 1)
        [.claim .fetch 10 "t1", .loadSidecar 0, handoff] = some t ∧
      (((machine exampleEnv).Along (fun s e => Respects exampleEnv s e ∧ DeletedAgrees s.db)
          (.initial exampleDb 1) [.claim .fetch 10 "t1", .loadSidecar 0, handoff] ∧
          DeletedAgrees t.db) ↔
        (machine exampleEnv).Along (Current exampleEnv) (.initial exampleDb 1)
          [.claim .fetch 10 "t1", .loadSidecar 0, handoff]) := by
  have hsome : ((machine exampleEnv).run (.initial exampleDb 1)
      [.claim .fetch 10 "t1", .loadSidecar 0, handoff]).isSome = true := by
    decide
  obtain ⟨t, hrun⟩ := Option.isSome_iff_exists.mp hsome
  exact ⟨t, hrun, respected_iff_current deletedAgrees_exampleDb hrun⟩

/-- What the example is about: the state and the deletion time of the wheel. -/
def stateAndDeletion (s : State) : Option (WheelState × Option String) :=
  (s.db.wheels.get? 1).map fun row => (row.state, row.deletedAt)

/-- The handoff of a wheel that was tombstoned meanwhile moves it out of `DELETED`,
against the transitions, and leaves `deleted_at` set. -/
theorem handoff_revives_tombstone :
    DeletedAgrees exampleDb ∧ ∃ s t,
      (machine exampleEnv).run (.initial exampleDb 1) goneRun = some s ∧
      (machine exampleEnv).run (.initial exampleDb 1) (goneRun ++ [handoff]) = some t ∧
      ¬Respects exampleEnv s handoff ∧ ¬DeletedAgrees t.db := by
  refine ⟨deletedAgrees_exampleDb, ?_⟩
  have hboth : ((machine exampleEnv).run (.initial exampleDb 1) goneRun).bind (fun s =>
      (step exampleEnv s handoff).map fun t => (stateAndDeletion s, stateAndDeletion t)) =
      some (some (.deleted, some "t1"), some (.needConvert, some "t1")) := by
    decide
  obtain ⟨s, hs, hrest⟩ := Option.bind_eq_some_iff.mp hboth
  obtain ⟨t, hstep, hpair⟩ := Option.map_eq_some_iff.mp hrest
  obtain ⟨hbefore, hafter⟩ := Prod.mk.inj hpair
  obtain ⟨row, hrow, hrowEq⟩ := Option.map_eq_some_iff.mp hbefore
  obtain ⟨row', hrow', hrowEq'⟩ := Option.map_eq_some_iff.mp hafter
  obtain ⟨hstate, -⟩ := Prod.mk.inj hrowEq
  obtain ⟨hstate', hdeleted'⟩ := Prod.mk.inj hrowEq'
  refine ⟨s, t, hs, Machine.run_snoc_eq_some.mpr ⟨s, hs, hstep⟩, ?_, ?_⟩
  · intro hrespects
    have hedge : OutcomeEdge row row' := hrespects t hstep 1 row row' hrow hrow'
    simp [OutcomeEdge, hstate, hstate', allowedTransitions] at hedge
  · intro hagrees
    have hdeleted : row'.state = .deleted := (hagrees 1 row' hrow').mp (by rw [hdeleted']; rfl)
    simp [hstate'] at hdeleted

end RerollSync.Pipeline
