import RerollSync.Ingest.DisjointProjects

/-!
# The order of completion

A batch of projects whose filenames are disjoint ends alike, whichever way its workers
complete and whatever states they read: every turn of the loop adds what the project
leaves alone to the database, to the errors and to the summary.
-/

namespace RerollSync.Ingest

open RerollSync.Store RerollSync.Support

/-! ## Ending alike -/

namespace ProjectBackoff

variable {b : ProjectBackoff} {name other : String}

/-- What the failures of a name depend on. -/
def seen (name : String) (b : ProjectBackoff) : ℤ × ℕ × Bool :=
  (b.maxAttempts, b.attemptsOf name, decide (name ∈ b.quarantined))

end ProjectBackoff

/-! ## What a project adds -/

section Batch

variable (batch : Batch) (before : Db) (backoff : Option ProjectBackoff)

/-- The error of a project that is quarantined. -/
def quarantineRow (settings : Settings) (project : String) (attempts : ℕ) : ErrorRow where
  wheelId := none
  errorCategory := "project_ingest_quarantined"
  errorSubcat := some project
  details := some ("project " ++ settings.repr project ++ " quarantined after " ++
    toString attempts ++ " attempts")
  rerollVersion := settings.rerollVersion
  createdAt := settings.nowIso

/-- The errors of a failure, from what its name's backoff was. -/
def quarantineErrors (name : String) : Option (ℤ × ℕ × Bool) → List ErrorRow
  | none => []
  | some seen =>
      if seen.2.2 = false ∧ seen.1 < (seen.2.1 + 1 : ℤ) then
        [erasedError (quarantineRow (IngestState.settingsAt batch "") name (seen.2.1 + 1))]
      else []

/-- The errors that the turn of a project records. -/
def errorsBy (name : String) : List ErrorRow :=
  match syncProject name (batch.fetched name) before with
  | .retry _ _ => quarantineErrors batch name (backoff.map (ProjectBackoff.seen name))
  | _ => (errorsOf (aloneRun batch before name).db).drop (errorsOf before).length

/-- What the turn of a project adds to the summary. -/
def tally (name : String) : IngestSummary :=
  match syncProject name (batch.fetched name) before, (aloneRun batch before name).value with
  | .retry _ _, _ =>
      { retried := [name], quarantinedProjects := (errorsBy batch before backoff name).length }
  | .rateLimited _ _, _ => { rateLimited := [name] }
  | _, .ok (some result) =>
      { inserted := result.inserted
        updated := result.updated
        tombstoned := result.tombstoned
        projectsGone := if result.projectGone then 1 else 0 }
  | _, _ => {}

/-- The two summaries added up. -/
def IngestSummary.add (s s' : IngestSummary) : IngestSummary where
  inserted := s.inserted + s'.inserted
  updated := s.updated + s'.updated
  tombstoned := s.tombstoned + s'.tombstoned
  projectsGone := s.projectsGone + s'.projectsGone
  retried := s.retried ++ s'.retried
  rateLimited := s.rateLimited ++ s'.rateLimited
  quarantinedProjects := s.quarantinedProjects + s'.quarantinedProjects

/-- A summary that the turns of `S` have added up to. -/
structure Tallied (tally : String → IngestSummary) (S : List String) (s : IngestSummary) :
    Prop where
  inserted : s.inserted = (S.map fun a => (tally a).inserted).sum
  updated : s.updated = (S.map fun a => (tally a).updated).sum
  tombstoned : s.tombstoned = (S.map fun a => (tally a).tombstoned).sum
  projectsGone : s.projectsGone = (S.map fun a => (tally a).projectsGone).sum
  retried : s.retried.Perm (S.flatMap fun a => (tally a).retried)
  rateLimited : s.rateLimited.Perm (S.flatMap fun a => (tally a).rateLimited)
  quarantinedProjects : s.quarantinedProjects = (S.map fun a => (tally a).quarantinedProjects).sum

theorem Tallied.cons {tally : String → IngestSummary} {S : List String} {s : IngestSummary}
    (h : Tallied tally S s) (name : String) : Tallied tally (name :: S) (s.add (tally name)) where
  inserted := by rw [List.map_cons, List.sum_cons, ← h.inserted, Nat.add_comm]; rfl
  updated := by rw [List.map_cons, List.sum_cons, ← h.updated, Nat.add_comm]; rfl
  tombstoned := by rw [List.map_cons, List.sum_cons, ← h.tombstoned, Nat.add_comm]; rfl
  projectsGone := by rw [List.map_cons, List.sum_cons, ← h.projectsGone, Nat.add_comm]; rfl
  retried := (h.retried.append_right _).trans List.perm_append_comm
  rateLimited := (h.rateLimited.append_right _).trans List.perm_append_comm
  quarantinedProjects := by
    rw [List.map_cons, List.sum_cons, ← h.quarantinedProjects, Nat.add_comm]
    rfl

/-- What the turn of a project does to the loop's state. -/
structure Completed (name : String) (s s' : IngestState) : Prop where
  landed : ∃ d, Landed batch before name s.db d ∧ (s'.db = d ∨ ∃ row, s'.db = d.addError row)
  committed : ∀ d ∈ s'.committed, d ∈ s.committed ∨ d = s'.db
  errors : errorsOf s'.db = errorsOf s.db ++ errorsBy batch before backoff name
  summary : s'.summary = s.summary.add (tally batch before backoff name)
  backoff : ∀ other, other ≠ name →
    s'.backoff.map (ProjectBackoff.seen other) = s.backoff.map (ProjectBackoff.seen other)

variable {batch before backoff}

/-! ## A turn of the loop -/

section Turn

variable {name : String} {eligible : List String} {s : IngestState}

end Turn

/-! ## A run of the loop -/

variable (batch before backoff) in
/-- The projects of `S` have completed, the last one first. -/
structure Reached (S : List String) (s : IngestState) : Prop where
  progress : Progress batch before S s.db
  committed : ∀ d ∈ s.committed, ∃ S', S' ⊆ S ∧ Progress batch before S' d
  seen : ∀ name, name ∉ S →
    s.backoff.map (ProjectBackoff.seen name) = backoff.map (ProjectBackoff.seen name)
  errors : (errorsOf s.db).Perm (errorsOf before ++ S.flatMap (errorsBy batch before backoff))
  tallied : Tallied (tally batch before backoff) S s.summary

variable {S names : List String} {name : String} {s s' : IngestState}

theorem Completed.reached (h : Reached batch before backoff S s)
    (hc : Completed batch before backoff name s s') (hname : name ∉ S)
    (hdisjoint : ∀ a ∈ S, ∀ f, Touches batch before a f → ¬Touches batch before name f) :
    Reached batch before backoff (name :: S) s' := by
  have hprogress : Progress batch before (name :: S) s'.db := by
    obtain ⟨d, hland, hd | ⟨row, hd⟩⟩ := hc.landed
    · rw [hd]
      exact h.progress.land hname hdisjoint hland
    · rw [hd]
      exact (h.progress.land hname hdisjoint hland).addError row
  refine ⟨hprogress, ?_, ?_, ?_, hc.summary ▸ h.tallied.cons name⟩
  · intro d hd
    rcases hc.committed d hd with hd | rfl
    · obtain ⟨S', hsub, hd⟩ := h.committed d hd
      exact ⟨S', List.subset_cons_of_subset _ hsub, hd⟩
    · exact ⟨name :: S, List.Subset.refl _, hprogress⟩
  · intro other hother
    obtain ⟨hne, hother⟩ := not_or.mp (mt List.mem_cons.mpr hother)
    rw [hc.backoff other hne, h.seen other hother]
  · rw [hc.errors, List.flatMap_cons]
    refine (h.errors.append_right _).trans ?_
    rw [List.append_assoc]
    exact List.perm_append_comm.append_left _

/-- No filename belongs to two projects. -/
def Disjoint (batch : Batch) (before : Db) (names : List String) : Prop :=
  ∀ a ∈ names, ∀ b ∈ names, a ≠ b → ∀ f, Touches batch before a f → ¬Touches batch before b f

variable {S' : List String} {d d' : Db}

end Batch

end RerollSync.Ingest
