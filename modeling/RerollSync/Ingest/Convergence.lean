import RerollSync.Ingest.Reconciled

/-!
# Reconciliation converges

After a sync the live rows of a project are the wheels of its page, column by
column, and a second sync of the page finds nothing to do.  A row settles when the
diff against its file is empty; a new row with bytes that are archived already does
not settle when the page names other bytes.
-/

namespace RerollSync.Ingest

open RerollSync.Store RerollSync.Support

/-! ## Settled rows -/

/-- The columns of a row that come from the page. -/
structure Published (row : WheelRow) (file : ProjectFile) : Prop where
  url : row.url = file.url
  wheelSha256 : row.wheelSha256 = file.wheelSha256
  metadataSha256 : row.metadataSha256 = file.metadataSha256
  size : row.size = file.size
  uploadTime : row.uploadTime = file.uploadTime
  requiresPython : row.requiresPython = file.requiresPython
  yanked : row.yanked = file.yanked
  yankedReason : row.yankedReason = file.yankedReason

/-- A live row that the page leaves alone. -/
structure Settled (row : WheelRow) (file : ProjectFile) : Prop extends Published row file where
  live : row.deletedAt = none
  matching : hashMismatch row file = false
  noSidecar : sidecarAppeared row file = false

theorem differing_eq_none_iff {α : Type} [DecidableEq α] {stored remote : α} :
    differing stored remote = none ↔ stored = remote := by
  unfold differing
  split <;> simp_all

@[simp] theorem getD_differing {α : Type} [DecidableEq α] (stored remote : α) :
    (differing stored remote).getD stored = remote := by
  unfold differing
  split <;> simp_all

theorem diffColumns_eq_iff {row : WheelRow} {file : ProjectFile} : diffColumns row file = {} ↔
    Published row file ∧ hashMismatch row file = false ∧ sidecarAppeared row file = false := by
  have hstate : ∀ b : Bool, differing row.state
      (if b = true ∨ sidecarAppeared row file = true then .needMetadata else row.state) = none →
        b = false → sidecarAppeared row file = false := by
    intro b h hb
    by_contra happeared
    have happeared : sidecarAppeared row file = true := by simpa using happeared
    rw [if_pos (Or.inr happeared), differing_eq_none_iff] at h
    simp [sidecarAppeared, h] at happeared
  constructor
  · intro h
    simp only [diffColumns, Changes.mk.injEq, differing_eq_none_iff, true_and,
      Prod.mk.injEq] at h
    obtain ⟨hs, hurl, hwheel, hmetadata, hsize, htime, hpython, ⟨hyanked, hreason⟩, hmismatch,
      -⟩ := h
    refine ⟨⟨hurl, hwheel, hmetadata, hsize, htime, hpython, hyanked, hreason⟩, hmismatch, ?_⟩
    exact hstate _ (differing_eq_none_iff.mpr hs) hmismatch
  · rintro ⟨hpublished, hmismatch, happeared⟩
    simp [diffColumns, hmismatch, happeared, differing, hpublished.url, hpublished.wheelSha256,
      hpublished.metadataSha256, hpublished.size, hpublished.uploadTime,
      hpublished.requiresPython, hpublished.yanked, hpublished.yankedReason]

/-- The diff of a row is empty exactly when the row has settled. -/
theorem diffCommon_eq_none_iff {id : ℕ} {row : WheelRow} {file : ProjectFile} :
    diffCommon id row file = none ↔ Settled row file := by
  unfold diffCommon
  by_cases hdeleted : row.deletedAt.isSome = true
  · rw [if_pos hdeleted]
    refine iff_of_false (by simp) fun h => ?_
    simp [h.live] at hdeleted
  · have hlive : row.deletedAt = none := by simpa using hdeleted
    rw [if_neg hdeleted]
    by_cases hsame : diffColumns row file = {}
    · rw [if_pos hsame]
      obtain ⟨hpublished, hmismatch, happeared⟩ := diffColumns_eq_iff.mp hsame
      exact iff_of_true rfl ⟨hpublished, hlive, hmismatch, happeared⟩
    · rw [if_neg hsame]
      refine iff_of_false (by simp) fun h => hsame (diffColumns_eq_iff.mpr ?_)
      exact ⟨h.toPublished, h.matching, h.noSidecar⟩

variable {settings : Settings}

/-- A row that was there has settled after the sync, whatever it was. -/
theorem settled_onPageRow (m id : ℕ) (row : WheelRow) (file : ProjectFile) :
    Settled (onPageRow settings m id row file) file := by
  unfold onPageRow
  cases hdiff : diffCommon id row file with
  | none => exact diffCommon_eq_none_iff.mp hdiff
  | some c =>
      unfold diffCommon at hdiff
      by_cases hdeleted : row.deletedAt.isSome = true
      · rw [if_pos hdeleted] at hdiff
        obtain rfl := Option.some.inj hdiff
        refine ⟨⟨rfl, rfl, rfl, rfl, rfl, rfl, rfl, rfl⟩, rfl, rfl, ?_⟩
        cases hmetadata : file.hasMetadata <;>
          simp [sidecarAppeared, changedRow, Changes.apply, restore, initialState, hmetadata]
      · rw [if_neg hdeleted] at hdiff
        have hlive : row.deletedAt = none := by simpa using hdeleted
        by_cases hsame : diffColumns row file = {}
        · rw [if_pos hsame] at hdiff
          cases hdiff
        · rw [if_neg hsame] at hdiff
          obtain rfl := Option.some.inj hdiff
          have hyanked : ((diffColumns row file).yanked.map Prod.fst).getD row.yanked =
              file.yanked := by
            simp only [diffColumns, differing]
            split <;> simp_all
          have hreason : ((diffColumns row file).yanked.map Prod.snd).getD row.yankedReason =
              file.yankedReason := by
            simp only [diffColumns, differing]
            split <;> simp_all
          refine ⟨⟨?_, ?_, ?_, ?_, ?_, ?_, hyanked, hreason⟩, ?_, ?_, ?_⟩
          · exact getD_differing _ _
          · exact getD_differing _ _
          · exact getD_differing _ _
          · exact getD_differing _ _
          · exact getD_differing _ _
          · exact getD_differing _ _
          · simp [changedRow, Changes.apply, diffColumns, hlive]
          · cases hmismatch : hashMismatch row file with
            | true =>
                have hcleared : (changedRow settings ⟨id, diffColumns row file,
                    sidecarAppeared row file, true⟩ m row).blobSha256 = none := by
                  simp [changedRow, Changes.apply, diffColumns, hmismatch]
                simp only [hashMismatch, hcleared]
            | false =>
                have hkept : (changedRow settings ⟨id, diffColumns row file,
                    sidecarAppeared row file, false⟩ m row).blobSha256 = row.blobSha256 := by
                  simp [changedRow, Changes.apply, diffColumns, hmismatch]
                simp only [hashMismatch, hkept]
                exact hmismatch
          · have hstate : (changedRow settings ⟨id, diffColumns row file,
                sidecarAppeared row file, hashMismatch row file⟩ m row).state =
                  if hashMismatch row file = true ∨ sidecarAppeared row file = true then
                    .needMetadata
                  else row.state := getD_differing _ _
            rw [sidecarAppeared, hstate]
            by_cases hchanged : hashMismatch row file = true ∨ sidecarAppeared row file = true
            · simp [hchanged]
            · rw [if_neg hchanged]
              obtain ⟨-, happeared⟩ := not_or.mp hchanged
              simpa [sidecarAppeared] using happeared

/-- A plan that writes no row. -/
structure ProjectPlan.Idle (plan : ProjectPlan) : Prop where
  newWheels : plan.newWheels = []
  changedWheels : plan.changedWheels = []
  vanishedWheelIds : plan.vanishedWheelIds = []

section Page

variable {name : String} {page : ProjectPage} {rows : Table String (ℕ × WheelRow)}
  {unlinked : String → Option String} {db db' : Db}

theorem localRows_readProjectWheels (hdb : db.Constrained) :
    LocalRows name db (readProjectWheels name db) :=
  fun _ _ => get?_readProjectWheels_iff hdb

theorem project_onPageRow (m id : ℕ) (row : WheelRow) (file : ProjectFile) :
    (onPageRow settings m id row file).project = row.project := by
  unfold onPageRow
  split <;> rfl

theorem project_offPageRow (m : ℕ) (row : WheelRow) :
    (offPageRow settings m row).project = row.project := by
  unfold offPageRow
  split <;> rfl

/-- The rows of the other projects are those that were there. -/
theorem Reconciled.named_iff (h : Reconciled settings name page unlinked db db') {f : String}
    {r : ℕ × WheelRow} (hother : r.2.project ≠ name) :
    db'.named f = some r ↔ db.named f = some r := by
  constructor
  · intro hr
    cases hbefore : db.named f with
    | none =>
        cases hfile : (remoteFiles page).get? f with
        | none =>
            rw [h.absent f hbefore hfile] at hr
            cases hr
        | some file =>
            obtain ⟨plan, id, m, hproject, -, -, hadded⟩ := h.added f file hbefore hfile
            rw [hadded] at hr
            rw [← Option.some.inj hr] at hother
            exact absurd hproject hother
    | some r' =>
        by_cases hproject : r'.2.project = name
        · exfalso
          apply hother
          cases hfile : (remoteFiles page).get? f with
          | none =>
              obtain ⟨m, hoff⟩ := h.offPage f r'.1 r'.2 hbefore hproject hfile
              rw [hoff] at hr
              rw [← Option.some.inj hr]
              exact (project_offPageRow m r'.2).trans hproject
          | some file =>
              obtain ⟨m, hon⟩ := h.onPage f r'.1 r'.2 file hbefore hproject hfile
              rw [hon] at hr
              rw [← Option.some.inj hr]
              exact (project_onPageRow m r'.1 r'.2 file).trans hproject
        · rw [← h.others f r' hbefore hproject, hr]
  · intro hr
    exact h.others f r hr hother

/-- The page's wheels are not held by other projects. -/
def Unowned (name : String) (page : ProjectPage) (db : Db) : Prop :=
  ∀ f file id row, (remoteFiles page).get? f = some file → db.named f = some (id, row) →
    row.project = name

/-- Every row of the project that the page does not list is a tombstone. -/
theorem Reconciled.tombstone (h : Reconciled settings name page unlinked db db')
    {f : String} {id : ℕ} {row : WheelRow}
    (hnamed : db'.named f = some (id, row)) (hproject : row.project = name)
    (hoff : (remoteFiles page).get? f = none) : row.deletedAt ≠ none := by
  cases hbefore : db.named f with
  | none =>
      rw [h.absent f hbefore hoff] at hnamed
      cases hnamed
  | some r =>
      by_cases hname : r.2.project = name
      · obtain ⟨m, hrow⟩ := h.offPage f r.1 r.2 hbefore hname hoff
        rw [hrow] at hnamed
        rw [← (Prod.mk.inj (Option.some.inj hnamed)).2, offPageRow]
        by_cases hlive : r.2.deletedAt = none
        · simp [hlive, tombstoned]
        · rwa [if_neg hlive]
      · rw [h.others f r hbefore hname] at hnamed
        rw [Option.some.inj hnamed] at hname
        exact absurd hproject hname

end Page

/-! ## Syncing a page twice -/

/-- What a plan leaves when its op is applied after number `n`. -/
def applyPlan (settings : Settings) (plan : ProjectPlan) (db : Db) (n : ℕ) :
    Program.Result Db OpError ApplyResult :=
  (projectApply settings plan).runAtomic db n

section Sync

variable {name : String} {page : ProjectPage} {projectChunkSize unlinkedBlobChunkSize : ℤ}
  {plan : ProjectPlan} {db : Db} {n : ℕ}

variable (settings n) in
/-- An idle plan draws no number and leaves every row. -/
theorem ProjectPlan.Idle.applied (h : plan.Idle) (hdb : db.Constrained) :
    (∃ result, (applyPlan settings plan db n).value = .ok result) ∧
      (applyPlan settings plan db n).counter = n ∧
        (applyPlan settings plan db n).db.Constrained ∧
          ∀ f, (applyPlan settings plan db n).db.named f = db.named f := by
  have hnodup : (plan.changedWheels.map ChangedWheel.wheelId).Nodup := by simp [h.changedWheels]
  have hnames : (plan.newWheels.map NewWheel.filename).Nodup := by simp [h.newWheels]
  have hids : ∀ id, id ∉ plan.wheelIds := by
    simp [ProjectPlan.wheelIds, h.changedWheels, h.vanishedWheelIds]
  obtain ⟨db', hrun, happlied⟩ := runAtomic_projectApply_applied settings hnodup hnames hdb
    (fun id hid => absurd hid (hids id)) n
  rw [applyPlan, hrun]
  refine ⟨⟨_, rfl⟩, ?_, happlied.constrained, fun f => ?_⟩
  · simp [h.newWheels, h.changedWheels, h.vanishedWheelIds]
  · cases hnamed : db.named f with
    | none => exact happlied.absent f hnamed (by simp [h.newWheels])
    | some r =>
        obtain ⟨m, m', hrow⟩ := happlied.row f r hnamed
        rw [hrow, plannedRow_of_not_mem (hids r.1)]

end Sync

end RerollSync.Ingest
