import Mathlib.Data.String.Basic
import RerollSync.Dispatcher.Outcomes
import RerollSync.Support.Paging

/-!
# Claiming work

`Dispatcher.claim` and `release`: the derived queue of a stage, read one page at
a time in `(lane, project, id)` order behind a keyset cursor.  The limit of a page is
one that sqlite takes, below `2 ^ 63`.
-/

namespace RerollSync.Dispatcher

open RerollSync.Store RerollSync.Support

/-- A keyset position in `(lane, project, id)` order. -/
structure Cursor where
  lane : ℕ
  project : String
  id : ℕ
deriving DecidableEq

/-- `(lane, project, id)` lies strictly after the cursor. -/
def Cursor.before (cursor : Cursor) (id : ℕ) (row : WheelRow) : Bool :=
  cursor.lane < row.lane ∨
    (row.lane = cursor.lane ∧ cursor.project < row.project) ∨
    (row.lane = cursor.lane ∧ row.project = cursor.project ∧ cursor.id < id)

/-- `_lane_project_id_keyset`: no cursor, no lower bound. -/
def laneProjectIdKeyset (cursor : Option Cursor) (id : ℕ) (row : WheelRow) : Bool :=
  cursor.all fun c => c.before id row

/-- The order of `ORDER BY lane, project, id`. -/
def queueLe (a b : ℕ × WheelRow) : Prop :=
  a.2.lane < b.2.lane ∨
    (a.2.lane = b.2.lane ∧ a.2.project < b.2.project) ∨
    (a.2.lane = b.2.lane ∧ a.2.project = b.2.project ∧ a.1 ≤ b.1)

instance : DecidableRel queueLe := fun _ _ => inferInstanceAs (Decidable (_ ∨ _))

theorem string_lt_trichotomy (a b : String) : a < b ∨ a = b ∨ b < a := by
  by_cases hab : a < b
  · exact Or.inl hab
  · by_cases hba : b < a
    · exact Or.inr (Or.inr hba)
    · exact Or.inr (Or.inl (String.le_antisymm (String.not_lt.mp hba) (String.not_lt.mp hab)))

instance : Std.Total queueLe where
  total a b := by
    rcases Nat.lt_trichotomy a.2.lane b.2.lane with hlane | hlane | hlane
    · exact Or.inl (Or.inl hlane)
    · rcases string_lt_trichotomy a.2.project b.2.project with hproject | hproject | hproject
      · exact Or.inl (Or.inr (Or.inl ⟨hlane, hproject⟩))
      · rcases Nat.le_total a.1 b.1 with hid | hid
        · exact Or.inl (Or.inr (Or.inr ⟨hlane, hproject, hid⟩))
        · exact Or.inr (Or.inr (Or.inr ⟨hlane.symm, hproject.symm, hid⟩))
      · exact Or.inr (Or.inr (Or.inl ⟨hlane.symm, hproject⟩))
    · exact Or.inr (Or.inl hlane)

instance : IsTrans (ℕ × WheelRow) queueLe where
  trans a b c := by
    rintro (hab | ⟨hlane, hab⟩ | ⟨hlane, hproject, hab⟩)
      (hbc | ⟨hlane', hbc⟩ | ⟨hlane', hproject', hbc⟩)
    · exact Or.inl (hab.trans hbc)
    · exact Or.inl (hlane' ▸ hab)
    · exact Or.inl (hlane' ▸ hab)
    · exact Or.inl (hlane ▸ hbc)
    · exact Or.inr (Or.inl ⟨hlane.trans hlane', String.lt_trans hab hbc⟩)
    · exact Or.inr (Or.inl ⟨hlane.trans hlane', hproject' ▸ hab⟩)
    · exact Or.inl (hlane ▸ hbc)
    · exact Or.inr (Or.inl ⟨hlane.trans hlane', hproject ▸ hbc⟩)
    · exact Or.inr (Or.inr ⟨hlane.trans hlane', hproject.trans hproject', hab.trans hbc⟩)

/-- `SELECT ... FROM wheels WHERE ... ORDER BY lane, project, id LIMIT ?`. -/
def queuePage (p : ℕ → WheelRow → Bool) (limit : ℕ) (db : Db) : List (ℕ × WheelRow) :=
  ((db.wheels.rows.filter fun r => p r.1 r.2).insertionSort queueLe).take limit

/-- `_QUEUE_STATE`. -/
def queueState : Stage → WheelState
  | .fetch => .needMetadata
  | .convert => .needConvert

/-- A `work` row that keeps a wheel out of its queue: quarantined or deferred. -/
def deferring (nowIso : String) (row : WorkRow) : Bool :=
  row.quarantinedAt.isSome ∨ nowIso < row.nextAttemptAt

/-- `_claim_query`. -/
def claimQuery (stage : Stage) (cursor : Option Cursor) (inFlight : List ℕ) (nowIso : String)
    (limit : ℕ) (db : Db) : List (ℕ × WheelRow) :=
  queuePage (fun id row =>
    row.state = queueState stage ∧ laneProjectIdKeyset cursor id row ∧
      ¬(db.work.get? (id, stage)).any (deferring nowIso) ∧ id ∉ inFlight) limit db

/-- The queues of a `Dispatcher`: `_in_flight` and `_cursors`. -/
structure Queues where
  inFlight : Stage → List ℕ
  cursors : Stage → Option Cursor

/-- No claim made yet. -/
def Queues.initial : Queues := ⟨fun _ => [], fun _ => none⟩

/-- `claim`. -/
def claim (stage : Stage) (limit : ℕ) (nowIso : String) (db : Db) (queues : Queues) :
    List QueueItem × Queues :=
  let rows := claimQuery stage (queues.cursors stage) (queues.inFlight stage) nowIso limit db
  let items := rows.map fun r => ⟨r.1, r.2.project, r.2.lane, queueState stage⟩
  let cursor :=
    if items.length < limit then none
    else items.getLast?.map fun last => ⟨last.lane, last.project, last.id⟩
  (items,
    { inFlight := Function.update queues.inFlight stage
        (queues.inFlight stage ++ items.map QueueItem.id)
      cursors := Function.update queues.cursors stage cursor })

/-- `release`. -/
def release (stage : Stage) (wheelId : ℕ) (queues : Queues) : Queues :=
  { queues with
    inFlight := Function.update queues.inFlight stage
      ((queues.inFlight stage).filter (· ≠ wheelId)) }

/-- A claimed item names a wheel that is in the queue's state at the claim. -/
theorem mem_claim {stage : Stage} {limit : ℕ} {nowIso : String} {db : Db} {queues : Queues}
    {item : QueueItem} (h : item ∈ (claim stage limit nowIso db queues).1) :
    item.state = queueState stage ∧
      ∃ row, db.wheels.get? item.id = some row ∧ row.state = queueState stage ∧
        row.project = item.project := by
  obtain ⟨⟨id, row⟩, hrow, rfl⟩ := List.mem_map.mp h
  have hmem := List.mem_insertionSort queueLe |>.mp (List.mem_of_mem_take hrow)
  obtain ⟨hrows, hp⟩ := List.mem_filter.mp hmem
  simp only [decide_eq_true_eq] at hp
  exact ⟨rfl, row, Table.get?_eq_some_iff.mpr hrows, hp.1, rfl⟩

/-! ## What a claim puts in flight -/

section Claim

variable {stage : Stage} {limit : ℕ} {nowIso : String} {db : Db} {queues : Queues}

theorem inFlight_claim : (claim stage limit nowIso db queues).2.inFlight stage =
    queues.inFlight stage ++ (claim stage limit nowIso db queues).1.map QueueItem.id :=
  Function.update_self _ _ _

theorem inFlight_claim_of_ne {stage' : Stage} (h : stage' ≠ stage) :
    (claim stage limit nowIso db queues).2.inFlight stage' = queues.inFlight stage' :=
  Function.update_of_ne h _ _

theorem ids_claim : (claim stage limit nowIso db queues).1.map QueueItem.id =
    (claimQuery stage (queues.cursors stage) (queues.inFlight stage) nowIso limit db).map
      Prod.fst := by
  rw [claim, List.map_map]
  rfl

/-- A claim returns a wheel once. -/
theorem nodup_claim : ((claim stage limit nowIso db queues).1.map QueueItem.id).Nodup := by
  rw [ids_claim, claimQuery, queuePage]
  refine List.Nodup.sublist ((List.take_sublist _ _).map _) ?_
  refine ((List.perm_insertionSort queueLe _).map Prod.fst).nodup_iff.mpr ?_
  exact db.wheels.nodup.sublist (List.filter_sublist.map Prod.fst)

/-- A claim returns no wheel that is in flight. -/
theorem not_mem_inFlight_of_claim {id : ℕ}
    (h : id ∈ (claim stage limit nowIso db queues).1.map QueueItem.id) :
    id ∉ queues.inFlight stage := by
  rw [ids_claim] at h
  obtain ⟨r, hr, rfl⟩ := List.mem_map.mp h
  have hmem := (List.mem_insertionSort queueLe).mp (List.mem_of_mem_take hr)
  have hp := (List.mem_filter.mp hmem).2
  simp only [decide_eq_true_eq] at hp
  exact hp.2.2.2

end Claim

end RerollSync.Dispatcher
