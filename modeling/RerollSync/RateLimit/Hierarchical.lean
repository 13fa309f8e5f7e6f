import RerollSync.Support.Table
import RerollSync.RateLimit.TokenBucket

/-!
# Hierarchical limiter

`HierarchicalLimiter` of `ratelimit.py`: a global bucket shared by named child
buckets.  The source keeps five dictionaries over the same child names; they
are one table of `ChildState` here.

A method reads the clock several times.  It takes its readings as a function
`clock`: the method's `k`-th reading is `clock k`, and a branch that makes fewer
readings skips some indices.  Nothing is assumed about the readings here;
theorems about runs require them to be non-decreasing.
-/

namespace RerollSync.RateLimit

open RerollSync.Support

/-- What the limiter stores for one child.  `lastAttempt = none` is the
source's initial `float("-inf")`. -/
structure ChildState where
  bucket : TokenBucket
  reserveRate : ℚ
  lastAttempt : Option ℚ
  acquired : ℕ
  denied : ℕ

structure HierarchicalLimiter where
  globalBucket : TokenBucket
  children : Table String ChildState

structure ChildLimiterSnapshot where
  available : ℚ
  acquired : ℕ
  denied : ℕ
  penaltyDeadline : WithBot ℚ

structure LimiterSnapshot where
  globalAvailable : ℚ
  children : Table String ChildLimiterSnapshot

/-- The result of one `_try_take_locked`.  The source returns only whether the
request was granted; the flags record whether the grant was borrowed from the
global bucket, and whether a refusal gave the child's tokens back, which
notifies every waiter of the shared condition. -/
inductive TakeResult
  | granted (borrowed : Bool)
  | refused (returned : Bool)
deriving DecidableEq

namespace HierarchicalLimiter

/-- `HierarchicalLimiter.__init__`: the global bucket and then each child reads
the clock. -/
def create (globalRatePerMinute : ℚ) (children : Table String ℚ) (clock : ℕ → ℚ) :
    HierarchicalLimiter where
  globalBucket :=
    TokenBucket.create globalRatePerMinute (oneSecondBurst globalRatePerMinute) (clock 0)
  children := children.modify fun name rate =>
    { bucket := TokenBucket.create rate (oneSecondBurst rate)
        (clock (1 + children.keys.idxOf name))
      reserveRate := rate
      lastAttempt := none
      acquired := 0
      denied := 0 }

def updateChild (L : HierarchicalLimiter) (name : String) (f : ChildState → ChildState) :
    HierarchicalLimiter :=
  { L with children := L.children.modify fun k c => if k = name then f c else c }

def setBucket (L : HierarchicalLimiter) (name : String) (b : TokenBucket) :
    HierarchicalLimiter :=
  L.updateChild name fun c => { c with bucket := b }

def setGlobal (L : HierarchicalLimiter) (b : TokenBucket) : HierarchicalLimiter :=
  { L with globalBucket := b }

/-- The wait one sibling imposes on a borrower: the time one of its own reserve
tokens takes to refill, less the time since its last attempt, floored at `0.0`
as the running maximum of the source is. -/
def siblingWait (c : ChildState) (now : ℚ) : ℚ :=
  match c.lastAttempt with
  | none => 0
  | some last =>
      let idleThreshold := if 0 < c.reserveRate then 60 / c.reserveRate else 0
      max 0 (idleThreshold - (now - last))

/-- `_time_until_siblings_idle_locked`: the longest wait over the other children. -/
def timeUntilSiblingsIdleLocked (L : HierarchicalLimiter) (childName : String) (now : ℚ) : ℚ :=
  L.children.rows.foldl
    (fun wait row => if row.1 = childName then wait else max wait (siblingWait row.2 now)) 0

def siblingsIdleLocked (L : HierarchicalLimiter) (childName : String) (now : ℚ) : Bool :=
  L.timeUntilSiblingsIdleLocked childName now ≤ 0

/-- `_try_take_locked`.  Readings: `0` for `is_penalized`, `1` and `2` for the
child's take, `3` for the idleness check, `4` and `5` for the global take. -/
def tryTakeLocked (clock : ℕ → ℚ) (L : HierarchicalLimiter) (childName : String)
    (child : ChildState) (n : ℚ) : TakeResult × HierarchicalLimiter :=
  if child.bucket.isPenalized (clock 0) then (.refused false, L)
  else
    match child.bucket.tryTakeLocked (clock 1) (clock 2) n with
    | (true, bucket) =>
        match L.globalBucket.tryTakeLocked (clock 4) (clock 5) n with
        | (true, g) => (.granted false, (L.setBucket childName bucket).setGlobal g)
        | (false, g) =>
            (.refused true, (L.setBucket childName (bucket.returnTokens n)).setGlobal g)
    | (false, bucket) =>
        let L := L.setBucket childName bucket
        if L.siblingsIdleLocked childName (clock 3) then
          match L.globalBucket.tryTakeLocked (clock 4) (clock 5) n with
          | (true, g) => (.granted true, L.setGlobal g)
          | (false, g) => (.refused false, L.setGlobal g)
        else
          (.refused false, L)

/-- `_time_until_locked`.  Readings: `0` and `1` for the child, `2` and `3` for
the global bucket, `4` for the siblings. -/
def timeUntilLocked (clock : ℕ → ℚ) (L : HierarchicalLimiter) (childName : String)
    (child : ChildState) (n : ℚ) : Option ℚ × HierarchicalLimiter :=
  match child.bucket.timeUntilAvailableLocked (clock 0) (clock 1) n with
  | (ownWait, bucket) =>
      match L.globalBucket.timeUntilAvailableLocked (clock 2) (clock 3) n with
      | (globalWait, g) =>
          let L := (L.setBucket childName bucket).setGlobal g
          match globalWait with
          | none => (none, L)
          | some globalWait =>
              if ownWait = some 0 then (some globalWait, L)
              else
                let borrowWait :=
                  max (L.timeUntilSiblingsIdleLocked childName (clock 4)) globalWait
                match ownWait with
                | none => (some borrowWait, L)
                | some ownWait => (some (min ownWait borrowWait), L)

/-- `penalize`; `none` is the `KeyError` for an unknown child. -/
def penalize (clock : ℕ → ℚ) (L : HierarchicalLimiter) (childName : String) (seconds : ℚ) :
    Option HierarchicalLimiter :=
  match L.children.get? childName with
  | none => none
  | some child => some (L.setBucket childName (child.bucket.penalize (clock 0) seconds))

/-- The refills a `snapshot` performs: each child in turn, then the global bucket. -/
def snapshotRefill (clock : ℕ → ℚ) (L : HierarchicalLimiter) : HierarchicalLimiter where
  globalBucket := L.globalBucket.refillLocked (clock L.children.keys.length)
  children := L.children.modify fun name c =>
    { c with bucket := c.bucket.refillLocked (clock (L.children.keys.idxOf name)) }

def snapshot (clock : ℕ → ℚ) (L : HierarchicalLimiter) :
    LimiterSnapshot × HierarchicalLimiter :=
  let L := L.snapshotRefill clock
  ({ globalAvailable := L.globalBucket.tokens
     children := L.children.modify fun _ c =>
      { available := c.bucket.tokens
        acquired := c.acquired
        denied := c.denied
        penaltyDeadline := c.bucket.penaltyDeadline } }, L)

/-! ## Lookups after an update -/

@[simp] theorem setBucket_globalBucket (L : HierarchicalLimiter) (name : String)
    (b : TokenBucket) : (L.setBucket name b).globalBucket = L.globalBucket := rfl

@[simp] theorem setGlobal_globalBucket (L : HierarchicalLimiter) (b : TokenBucket) :
    (L.setGlobal b).globalBucket = b := rfl

@[simp] theorem setGlobal_children (L : HierarchicalLimiter) (b : TokenBucket) :
    (L.setGlobal b).children = L.children := rfl

theorem get?_updateChild (L : HierarchicalLimiter) (name k : String)
    (f : ChildState → ChildState) :
    (L.updateChild name f).children.get? k =
      (L.children.get? k).map fun c => if k = name then f c else c := by
  simp [updateChild]

theorem get?_setBucket (L : HierarchicalLimiter) (name k : String) (b : TokenBucket) :
    (L.setBucket name b).children.get? k =
      (L.children.get? k).map fun c => if k = name then { c with bucket := b } else c :=
  get?_updateChild L name k _

/-! ## What one attempt can do -/

/-- Everything `_try_take_locked` can do, by branch: a penalised child, the two
ends of the reserve path, the closed borrowing gate, and the two ends of the
borrowing path. -/
theorem tryTakeLocked_cases (clock : ℕ → ℚ) (L : HierarchicalLimiter) (childName : String)
    (child : ChildState) (n : ℚ) :
    (child.bucket.isPenalized (clock 0) ∧
      L.tryTakeLocked clock childName child n = (.refused false, L)) ∨
    (¬child.bucket.isPenalized (clock 0) ∧ ∃ bucket g,
      child.bucket.tryTakeLocked (clock 1) (clock 2) n = (true, bucket) ∧
      L.globalBucket.tryTakeLocked (clock 4) (clock 5) n = (true, g) ∧
      L.tryTakeLocked clock childName child n =
        (.granted false, (L.setBucket childName bucket).setGlobal g)) ∨
    (¬child.bucket.isPenalized (clock 0) ∧ ∃ bucket g,
      child.bucket.tryTakeLocked (clock 1) (clock 2) n = (true, bucket) ∧
      L.globalBucket.tryTakeLocked (clock 4) (clock 5) n = (false, g) ∧
      L.tryTakeLocked clock childName child n =
        (.refused true, (L.setBucket childName (bucket.returnTokens n)).setGlobal g)) ∨
    (¬child.bucket.isPenalized (clock 0) ∧ ∃ bucket,
      child.bucket.tryTakeLocked (clock 1) (clock 2) n = (false, bucket) ∧
      (L.setBucket childName bucket).siblingsIdleLocked childName (clock 3) = false ∧
      L.tryTakeLocked clock childName child n = (.refused false, L.setBucket childName bucket)) ∨
    (¬child.bucket.isPenalized (clock 0) ∧ ∃ bucket g,
      child.bucket.tryTakeLocked (clock 1) (clock 2) n = (false, bucket) ∧
      (L.setBucket childName bucket).siblingsIdleLocked childName (clock 3) = true ∧
      L.globalBucket.tryTakeLocked (clock 4) (clock 5) n = (true, g) ∧
      L.tryTakeLocked clock childName child n =
        (.granted true, (L.setBucket childName bucket).setGlobal g)) ∨
    (¬child.bucket.isPenalized (clock 0) ∧ ∃ bucket g,
      child.bucket.tryTakeLocked (clock 1) (clock 2) n = (false, bucket) ∧
      (L.setBucket childName bucket).siblingsIdleLocked childName (clock 3) = true ∧
      L.globalBucket.tryTakeLocked (clock 4) (clock 5) n = (false, g) ∧
      L.tryTakeLocked clock childName child n =
        (.refused false, (L.setBucket childName bucket).setGlobal g)) := by
  by_cases hpen : child.bucket.isPenalized (clock 0)
  · exact Or.inl ⟨hpen, by simp [tryTakeLocked, hpen]⟩
  · right
    rcases hown : child.bucket.tryTakeLocked (clock 1) (clock 2) n with ⟨took, bucket⟩
    rcases hglobal : L.globalBucket.tryTakeLocked (clock 4) (clock 5) n with ⟨ok, g⟩
    cases took with
    | true =>
        cases ok with
        | true => exact Or.inl ⟨hpen, bucket, g, rfl, rfl, by
            simp [tryTakeLocked, hpen, hown, hglobal]⟩
        | false => exact Or.inr (Or.inl ⟨hpen, bucket, g, rfl, rfl, by
            simp [tryTakeLocked, hpen, hown, hglobal]⟩)
    | false =>
        right; right
        cases hidle : (L.setBucket childName bucket).siblingsIdleLocked childName (clock 3) with
        | false => exact Or.inl ⟨hpen, bucket, rfl, hidle, by
            simp [tryTakeLocked, hpen, hown, hidle]⟩
        | true =>
            cases ok with
            | true => exact Or.inr (Or.inl ⟨hpen, bucket, g, rfl, hidle, rfl, by
                simp [tryTakeLocked, hpen, hown, hidle, hglobal]⟩)
            | false => exact Or.inr (Or.inr ⟨hpen, bucket, g, rfl, hidle, rfl, by
                simp [tryTakeLocked, hpen, hown, hidle, hglobal]⟩)

/-- The limiter a waiting-time computation leaves: both buckets as their own
computations leave them. -/
theorem timeUntilLocked_snd (clock : ℕ → ℚ) (L : HierarchicalLimiter) (childName : String)
    (child : ChildState) (n : ℚ) :
    (L.timeUntilLocked clock childName child n).2 =
      (L.setBucket childName
        (child.bucket.timeUntilAvailableLocked (clock 0) (clock 1) n).2).setGlobal
        (L.globalBucket.timeUntilAvailableLocked (clock 2) (clock 3) n).2 := by
  simp only [timeUntilLocked]
  split
  · rfl
  · split
    · rfl
    · split <;> rfl

/-! ## Well-formed limiters -/

/-- What a limiter satisfies at a clock reading `now`: its buckets are
well-formed and the global bucket, which nobody penalises, has no deadline. -/
structure Wf (L : HierarchicalLimiter) (now : ℚ) : Prop where
  globalBucket : L.globalBucket.Wf now
  global_unpenalized : L.globalBucket.penaltyDeadline = ⊥
  children : ∀ name c, L.children.get? name = some c → c.bucket.Wf now

namespace Wf

variable {L : HierarchicalLimiter} {now : ℚ}

theorem mono (h : L.Wf now) {later : ℚ} (hle : now ≤ later) : L.Wf later where
  globalBucket := h.globalBucket.mono hle
  global_unpenalized := h.global_unpenalized
  children := fun name c hc => (h.children name c hc).mono hle

/-- Updating one child keeps the limiter well-formed when the update keeps
that child's bucket well-formed. -/
theorem updateChild (h : L.Wf now) {name : String} {f : ChildState → ChildState}
    (hf : ∀ c, L.children.get? name = some c → (f c).bucket.Wf now) :
    (L.updateChild name f).Wf now where
  globalBucket := h.globalBucket
  global_unpenalized := h.global_unpenalized
  children := by
    intro k c hc
    rw [get?_updateChild, Option.map_eq_some_iff] at hc
    obtain ⟨old, hold, rfl⟩ := hc
    split
    next hk => exact hf old (hk ▸ hold)
    next => exact h.children k old hold

theorem setGlobal (h : L.Wf now) {b : TokenBucket} (hb : b.Wf now)
    (hpen : b.penaltyDeadline = ⊥) : (L.setGlobal b).Wf now where
  globalBucket := hb
  global_unpenalized := hpen
  children := h.children

theorem create {globalRate : ℚ} {children : Table String ℚ} {clock : ℕ → ℚ}
    (hglobal : 0 ≤ globalRate) (hchildren : ∀ name rate, children.get? name = some rate → 0 ≤ rate)
    (hclock : Monotone clock) :
    (HierarchicalLimiter.create globalRate children clock).Wf
      (clock (1 + children.keys.length)) where
  globalBucket := (TokenBucket.Wf.create hglobal).mono (hclock (by omega))
  global_unpenalized := rfl
  children := by
    intro name c hc
    simp only [HierarchicalLimiter.create, Table.get?_modify, Option.map_eq_some_iff] at hc
    obtain ⟨rate, hrate, rfl⟩ := hc
    refine (TokenBucket.Wf.create (hchildren name rate hrate)).mono (hclock ?_)
    have := List.idxOf_le_length (a := name) (l := children.keys)
    omega

end Wf

end HierarchicalLimiter

end RerollSync.RateLimit
