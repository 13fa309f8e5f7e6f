import RerollSync.Dispatcher.ClaimPasses
import RerollSync.Support.IsoFormat

/-!
# Stored timestamps

Times are stored as the texts of `_iso` and compared as texts.  Instants are counts of
microseconds, and every instant of the years 1 to 9999 has a text: the texts are in the
order of the instants and are parsed back, so a claim leaves a deferred wheel out exactly
until its deadline.
-/

namespace RerollSync.Dispatcher

open RerollSync.Store RerollSync.Support

/-! ## Texts of instants -/

/-- The Unix epoch, in microseconds since 1 January of year 1. -/
def epochMicros : ℕ := 719162 * dayMicros

/-- The `datetime` of a timestamp: `datetime.fromtimestamp(ts, tz=UTC)`, which raises
outside the years 1 to 9999. -/
def fromTimestamp (ts : ℤ) : Option DateTime :=
  if h : 0 ≤ ts + epochMicros ∧ (ts + epochMicros).toNat < endMicros then
    some (DateTime.ofMicros (ts + epochMicros).toNat h.2)
  else none

/-- `_iso`. -/
def iso (ts : ℤ) : Option String :=
  (fromTimestamp ts).map fun t => String.ofList (isoformat t (some .utc))

/-- `timestamp` of an aware `datetime`. -/
def timestamp (t : DateTime) (offset : UtcOffset) : ℤ := t.micros - offset.micros - epochMicros

/-- `_parse_iso`; `localTimestamp` is the timestamp of a `datetime` without an offset,
which is taken to be local. -/
def parseIso (localTimestamp : DateTime → ℤ) (text : String) : Option ℤ :=
  (fromisoformat text.toList).map fun r =>
    match r.2 with
    | none => localTimestamp r.1
    | some offset => timestamp r.1 offset

theorem fromTimestamp_eq_some_iff {ts : ℤ} {t : DateTime} :
    fromTimestamp ts = some t ↔ (t.micros : ℤ) = ts + epochMicros := by
  rw [fromTimestamp]
  split
  · rename_i h
    rw [Option.some.injEq, ← DateTime.micros_inj, DateTime.micros_ofMicros]
    omega
  · rename_i h
    have hlt := t.micros_lt_endMicros
    refine iff_of_false (by simp) fun heq => h ?_
    omega

/-- What a text of `_iso` is made of. -/
theorem iso_eq_some {ts : ℤ} {text : String} (h : iso ts = some text) :
    ∃ t : DateTime, (t.micros : ℤ) = ts + epochMicros ∧
      text.toList = isoformat t (some .utc) := by
  obtain ⟨t, ht, rfl⟩ := Option.map_eq_some_iff.mp h
  exact ⟨t, fromTimestamp_eq_some_iff.mp ht, String.toList_ofList⟩

/-- The order of the texts is the order of the instants. -/
theorem iso_lt_iff {a b : ℤ} {textA textB : String} (ha : iso a = some textA)
    (hb : iso b = some textB) : textA < textB ↔ a < b := by
  obtain ⟨t, ht, htext⟩ := iso_eq_some ha
  obtain ⟨t', ht', htext'⟩ := iso_eq_some hb
  rw [String.lt_iff_toList_lt, htext, htext', isoformat_lt_iff_micros]
  omega

theorem parseIso_iso {ts : ℤ} {text : String} (h : iso ts = some text)
    (localTimestamp : DateTime → ℤ) : parseIso localTimestamp text = some ts := by
  obtain ⟨t, ht, htext⟩ := iso_eq_some h
  rw [parseIso, htext, fromisoformat_isoformat]
  simp only [Option.map_some, timestamp, UtcOffset.utc, ht]
  congr 1
  omega

/-! ## Deadlines -/

/-- After a `Retry` that defers a wheel to `deadlineIso`, the claims at `nowIso` return the
wheel if it is `due`, from the front of the queue and with room for every wheel; and no
claim returns it if it is not. -/
def DefersUntil (deadlineIso nowIso : String) (due : Prop) : Prop :=
  ∀ (settings : Settings) (clock : Clock) (stage : Stage) (item : QueueItem) (outcome : Retry)
    (db : Db) (n : ℕ) (wheel : WheelRow),
    attemptsOf item.id stage db + 1 ≤ settings.maxAttempts →
    clock.nextAttemptAt (attemptsOf item.id stage db + 1) = deadlineIso →
    db.wheels.get? item.id = some wheel → wheel.state = queueState stage →
    (db.work.get? (item.id, stage)).bind WorkRow.quarantinedAt = none →
    ∀ (limit : ℕ) (queues : Queues),
      let db' := ((retryApply settings clock stage item outcome).runAtomic db n).db
      let claimed := ((claim stage limit nowIso db' queues).1.map QueueItem.id)
      (item.id ∈ claimed → due) ∧
        (due → queues.cursors stage = none → item.id ∉ queues.inFlight stage →
          db'.wheels.rows.length ≤ limit → item.id ∈ claimed)

/-- A wheel is queued again when its `work` row is not deferring. -/
theorem queued_deferEffect_iff {clock : Clock} {stage : Stage} {item : QueueItem} {db : Db}
    {outcome : Retry} {attempts : ℕ} {wheel : WheelRow} {nowIso : String}
    (hwheel : db.wheels.get? item.id = some wheel) (hstate : wheel.state = queueState stage)
    (hwork : (db.work.get? (item.id, stage)).bind WorkRow.quarantinedAt = none) :
    Queued stage nowIso (deferEffect clock stage item outcome attempts db) (item.id, wheel) ↔
      ¬nowIso < clock.nextAttemptAt attempts := by
  simp [Queued, deferEffect, Db.setWork, hwheel, hstate, hwork, deferring]

/-- Of the wheels, a claim from the front with room for all returns what is queued. -/
theorem mem_claim_of_front {stage : Stage} {nowIso : String} {db : Db} {limit : ℕ}
    {queues : Queues} {r : ℕ × WheelRow} (hqueued : Queued stage nowIso db r)
    (hcursor : queues.cursors stage = none) (hinFlight : r.1 ∉ queues.inFlight stage)
    (hlimit : db.wheels.rows.length ≤ limit) :
    queueItem stage r ∈ (claim stage limit nowIso db queues).1 := by
  refine mem_claim_iff.mpr ⟨r, ?_, rfl⟩
  rw [claimQuery, queuePage, List.take_of_length_le]
  · refine (List.mem_insertionSort queueLe).mpr (mem_claimable_iff.mpr ⟨hqueued, ?_, hinFlight⟩)
    rw [hcursor]
    rfl
  · rw [List.length_insertionSort]
    exact (List.length_filter_le _ _).trans hlimit

theorem defersUntil {now deadline : ℤ} {nowIso deadlineIso : String} (hnow : iso now = some nowIso)
    (hdeadline : iso deadline = some deadlineIso) :
    DefersUntil deadlineIso nowIso (deadline ≤ now) := by
  intro settings clock stage item outcome db n wheel hattempts hclock hwheel hstate hwork limit
    queues
  have hhas : db.hasWheel item.id = true := by rw [Db.hasWheel, hwheel]; rfl
  have hdue : ∀ row, row = wheel → (Queued stage nowIso (deferEffect clock stage item outcome
      (attemptsOf item.id stage db + 1) db) (item.id, row) ↔ deadline ≤ now) := by
    rintro row rfl
    rw [queued_deferEffect_iff hwheel hstate hwork, hclock, iso_lt_iff hnow hdeadline, not_lt]
  dsimp only
  rw [runAtomic_retryApply_of_defer n outcome hhas (by omega)]
  constructor
  · intro hclaimed
    obtain ⟨claimed, hmem, hid⟩ := List.mem_map.mp hclaimed
    obtain ⟨⟨id, row⟩, hqueued, -, -, rfl⟩ := queued_of_mem_claim hmem
    obtain rfl : id = item.id := hid
    have hrow : row = wheel := Option.some.inj (hqueued.1.symm.trans hwheel)
    exact (hdue row hrow).mp hqueued
  · intro hle hcursor hinFlight hlimit
    have hmem := mem_claim_of_front ((hdue wheel rfl).mpr hle) hcursor hinFlight hlimit
    exact List.mem_map.mpr ⟨_, hmem, rfl⟩

/-- Of two instants the earlier one has the smaller text, a text is parsed back, and a
wheel is claimed again from its deadline on. -/
theorem iso_chronological {a b : ℤ} {textA textB : String} (ha : iso a = some textA)
    (hb : iso b = some textB) (localTimestamp : DateTime → ℤ) :
    (a < b ↔ textA < textB) ∧ parseIso localTimestamp textA = some a ∧
      DefersUntil textB textA (b ≤ a) :=
  ⟨(iso_lt_iff ha hb).symm, parseIso_iso ha localTimestamp, defersUntil ha hb⟩

/-- A second and the microsecond after it. -/
theorem iso_chronological_second : iso 0 = some "1970-01-01T00:00:00+00:00" ∧
    iso 1 = some "1970-01-01T00:00:00.000001+00:00" ∧
    ((0 : ℤ) < 1 ↔ "1970-01-01T00:00:00+00:00" < "1970-01-01T00:00:00.000001+00:00") := by
  have hzero : iso 0 = some "1970-01-01T00:00:00+00:00" := by decide
  have hone : iso 1 = some "1970-01-01T00:00:00.000001+00:00" := by decide
  exact ⟨hzero, hone, (iso_chronological hzero hone fun _ => 0).1⟩

end RerollSync.Dispatcher
