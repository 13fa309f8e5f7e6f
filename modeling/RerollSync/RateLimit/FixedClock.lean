import RerollSync.RateLimit.GlobalCap

/-!
# A pass of the acquire loop at a fixed clock reading

With the clock held at `t` a bucket is refilled at most once, so a limiter is
determined, for every later pass at `t`, by its settled form: every bucket
refilled up to `t`.  A pass that sends its caller back to wait leaves the
settled form as it was, and this module computes how long it waits and whether
it notifies the others from the settled form alone.
-/

namespace RerollSync.RateLimit

open RerollSync.Support

namespace TokenBucket

/-- The bucket has the tokens for a request of `n`, penalties aside. -/
def Holds (b : TokenBucket) (n : ℚ) : Prop := n ≤ b.burst ∧ n ≤ b.tokens

/-- No passing of time brings the bucket to `n` tokens. -/
def Starved (b : TokenBucket) (n : ℚ) : Prop :=
  b.burst < n ∨ b.ratePerSecond ≤ 0 ∧ b.tokens < n

instance (b : TokenBucket) (n : ℚ) : Decidable (b.Holds n) :=
  inferInstanceAs (Decidable (_ ∧ _))

theorem not_holds_iff {b : TokenBucket} {n : ℚ} :
    ¬b.Holds n ↔ b.burst < n ∨ b.tokens < n := by
  rw [Holds, not_and_or, not_le, not_le]

theorem Starved.not_holds {b : TokenBucket} {n : ℚ} (h : b.Starved n) : ¬b.Holds n :=
  not_holds_iff.mpr (h.imp_right And.right)

@[simp] theorem refillLocked_refillLocked (b : TokenBucket) (t : ℚ) :
    (b.refillLocked t).refillLocked t = b.refillLocked t := by
  by_cases h : 0 < t - b.lastRefill
  · exact refillLocked_idem (by simp [refillLocked, h])
  · have hsame : b.refillLocked t = b := by simp [refillLocked, h]
    rw [hsame, hsame]

@[simp] theorem isPenalized_refillLocked (b : TokenBucket) (now t : ℚ) :
    (b.refillLocked now).isPenalized t ↔ b.isPenalized t := by
  rw [isPenalized, isPenalized, refillLocked_penaltyDeadline]

/-- Giving back what was just taken restores the refilled bucket. -/
theorem returnTokens_take {b : TokenBucket} {t : ℚ} (h : b.Wf t) (n : ℚ) :
    ({ b.refillLocked t with tokens := (b.refillLocked t).tokens - n } :
      TokenBucket).returnTokens n = b.refillLocked t := by
  have hle := h.refillLocked.tokens_le
  simp only [returnTokens, sub_add_cancel, min_eq_right hle]

/-- At a fixed reading there is no wait exactly for a request that can never be
met, and a wait of zero exactly for one that can be met at once. -/
theorem timeUntilAvailableLocked_fixed (b : TokenBucket) (t n : ℚ) :
    ((b.timeUntilAvailableLocked t t n).1 = none ∧ (b.refillLocked t).Starved n) ∨
    ∃ x, (b.timeUntilAvailableLocked t t n).1 = some x ∧ ¬(b.refillLocked t).Starved n ∧
      0 ≤ x ∧ (x = 0 ↔ ¬b.isPenalized t ∧ (b.refillLocked t).Holds n) := by
  by_cases hburst : n > b.burst
  · exact Or.inl ⟨by simp [timeUntilAvailableLocked, hburst], Or.inl (by simpa using hburst)⟩
  · have hle : n ≤ b.burst := not_lt.mp hburst
    have hzero : b.waitForPenalty t = 0 ↔ ¬b.isPenalized t := by
      rw [← waitForPenalty_pos_iff, not_lt]
      exact ⟨le_of_eq, fun h => le_antisymm h (waitForPenalty_nonneg b t)⟩
    by_cases hdeficit : n - (b.refillLocked t).tokens ≤ 0
    · have hholds : (b.refillLocked t).Holds n := ⟨by simpa using hle, sub_nonpos.mp hdeficit⟩
      refine Or.inr ⟨b.waitForPenalty t, ?_, fun h => h.not_holds hholds,
        waitForPenalty_nonneg b t, by simp [hzero, hholds]⟩
      simp [timeUntilAvailableLocked, hburst, hdeficit]
    · have hlack : (b.refillLocked t).tokens < n := sub_pos.mp (not_le.mp hdeficit)
      have hnot : ¬(b.refillLocked t).Holds n := not_holds_iff.mpr (Or.inr hlack)
      by_cases hrate : b.ratePerSecond ≤ 0
      · refine Or.inl ⟨?_, Or.inr ⟨by simpa using hrate, hlack⟩⟩
        simp [timeUntilAvailableLocked, hburst, hdeficit, hrate]
      · have hpos : 0 < max (b.waitForPenalty t)
            ((n - (b.refillLocked t).tokens) / b.ratePerSecond) :=
          lt_max_of_lt_right (div_pos (not_le.mp hdeficit) (not_le.mp hrate))
        refine Or.inr ⟨_, ?_, ?_, hpos.le, by simp [hpos.ne', hnot]⟩
        · simp [timeUntilAvailableLocked, hburst, hdeficit, hrate]
        · rintro (h | ⟨h, -⟩)
          · exact hburst (by simpa using h)
          · exact hrate (by simpa using h)

end TokenBucket

namespace HierarchicalLimiter

/-- The limiter with every bucket refilled up to `t`. -/
def settled (L : HierarchicalLimiter) (t : ℚ) : HierarchicalLimiter :=
  L.snapshotRefill fun _ => t

theorem get?_settled (L : HierarchicalLimiter) (t : ℚ) (name : String) :
    (L.settled t).children.get? name =
      (L.children.get? name).map fun c => { c with bucket := c.bucket.refillLocked t } := by
  simp [settled, snapshotRefill]

@[simp] theorem settled_globalBucket (L : HierarchicalLimiter) (t : ℚ) :
    (L.settled t).globalBucket = L.globalBucket.refillLocked t := rfl

/-- Replacing a bucket by one with the same refill keeps the settled form. -/
theorem settled_setBucket {L : HierarchicalLimiter} {t : ℚ} {name : String} {child : ChildState}
    {b : TokenBucket} (hget : L.children.get? name = some child)
    (hb : b.refillLocked t = child.bucket.refillLocked t) :
    (L.setBucket name b).settled t = L.settled t := by
  simp only [settled, snapshotRefill, setBucket, updateChild, Table.modify_modify, mk.injEq,
    true_and]
  refine Table.modify_congr fun k c hc => ?_
  by_cases hk : k = name
  · subst hk
    obtain rfl : child = c := Option.some.inj (hget.symm.trans hc)
    simp [hb]
  · simp [hk]

theorem settled_setGlobal {L : HierarchicalLimiter} {t : ℚ} {g : TokenBucket}
    (hg : g.refillLocked t = L.globalBucket.refillLocked t) :
    (L.setGlobal g).settled t = L.settled t := by
  simp only [settled, snapshotRefill, setGlobal, hg]

/-- The siblings' wait sees only attempt times and reserve rates of the other
children. -/
theorem timeUntilSiblingsIdleLocked_modify {L L' : HierarchicalLimiter} {childName : String}
    {now : ℚ} {f : String → ChildState → ChildState} (hL' : L'.children = L.children.modify f)
    (hf : ∀ k c, k ≠ childName → siblingWait (f k c) now = siblingWait c now) :
    L'.timeUntilSiblingsIdleLocked childName now =
      L.timeUntilSiblingsIdleLocked childName now := by
  simp only [timeUntilSiblingsIdleLocked, hL', Table.modify, List.foldl_map]
  congr 1
  funext wait row
  by_cases hk : row.1 = childName
  · simp [hk]
  · simp [hk, hf row.1 row.2 hk]

@[simp] theorem timeUntilSiblingsIdleLocked_setBucket (L : HierarchicalLimiter)
    (name childName : String) (b : TokenBucket) (now : ℚ) :
    (L.setBucket name b).timeUntilSiblingsIdleLocked childName now =
      L.timeUntilSiblingsIdleLocked childName now := by
  refine timeUntilSiblingsIdleLocked_modify (L := L)
    (f := fun k c => if k = name then { c with bucket := b } else c) rfl fun k c _ => ?_
  split <;> rfl

@[simp] theorem timeUntilSiblingsIdleLocked_setGlobal (L : HierarchicalLimiter)
    (childName : String) (g : TokenBucket) (now : ℚ) :
    (L.setGlobal g).timeUntilSiblingsIdleLocked childName now =
      L.timeUntilSiblingsIdleLocked childName now := rfl

@[simp] theorem timeUntilSiblingsIdleLocked_settled (L : HierarchicalLimiter)
    (childName : String) (t now : ℚ) :
    (L.settled t).timeUntilSiblingsIdleLocked childName now =
      L.timeUntilSiblingsIdleLocked childName now :=
  timeUntilSiblingsIdleLocked_modify (L := L)
    (f := fun _ c => { c with bucket := c.bucket.refillLocked t }) rfl fun _ _ _ => rfl

theorem timeUntilSiblingsIdleLocked_nonneg (L : HierarchicalLimiter) (childName : String)
    (now : ℚ) : 0 ≤ L.timeUntilSiblingsIdleLocked childName now := by
  have hfold : ∀ (rows : List (String × ChildState)) (wait : ℚ), 0 ≤ wait →
      0 ≤ rows.foldl (fun wait row =>
        if row.1 = childName then wait else max wait (siblingWait row.2 now)) wait := by
    intro rows
    induction rows with
    | nil => exact fun _ hwait => hwait
    | cons row rows ih =>
        intro wait hwait
        rw [List.foldl_cons]
        split
        · exact ih wait hwait
        · exact ih _ (le_max_of_le_left hwait)
  exact hfold _ 0 (le_refl 0)

/-! ## The conditions a pass depends on, read off the settled form -/

/-- The child is under a penalty at `t`. -/
def Penalized (S : HierarchicalLimiter) (name : String) (t : ℚ) : Prop :=
  ∃ c, S.children.get? name = some c ∧ c.bucket.isPenalized t

/-- The child's own reserve could serve `n` at `t`. -/
def ReserveReady (S : HierarchicalLimiter) (name : String) (t n : ℚ) : Prop :=
  ∃ c, S.children.get? name = some c ∧ ¬c.bucket.isPenalized t ∧ c.bucket.Holds n

section Fixed

variable {L : HierarchicalLimiter} {t : ℚ} {name : String} {child : ChildState}
  (hget : L.children.get? name = some child)
include hget

theorem penalized_settled_iff :
    (L.settled t).Penalized name t ↔ child.bucket.isPenalized t := by
  simp [Penalized, get?_settled, hget]

theorem reserveReady_settled_iff {n : ℚ} :
    (L.settled t).ReserveReady name t n ↔
      ¬child.bucket.isPenalized t ∧ (child.bucket.refillLocked t).Holds n := by
  simp [ReserveReady, get?_settled, hget]

/-- A failed attempt leaves the settled form as it was.  It gave tokens back
exactly when the reserve was ready, and then the global bucket was short. -/
theorem tryTakeLocked_fixed (h : L.Wf t) (n : ℚ) :
    (∃ borrowed L₁, L.tryTakeLocked (fun _ => t) name child n = (.granted borrowed, L₁) ∧
      ¬(L.settled t).Penalized name t ∧ (L.settled t).globalBucket.Holds n) ∨
    ∃ returned L₁ child₁,
      L.tryTakeLocked (fun _ => t) name child n = (.refused returned, L₁) ∧
      L₁.children.get? name = some child₁ ∧ L₁.settled t = L.settled t ∧
      (returned = true ↔ (L.settled t).ReserveReady name t n) ∧
      (¬(L.settled t).Penalized name t → ¬(L.settled t).globalBucket.Holds n ∨
        ¬(L.settled t).ReserveReady name t n ∧
          ¬(L.settled t).timeUntilSiblingsIdleLocked name t ≤ 0) := by
  rw [penalized_settled_iff hget, reserveReady_settled_iff hget, settled_globalBucket,
    timeUntilSiblingsIdleLocked_settled]
  have hglobal : ¬L.globalBucket.isPenalized t := by
    simp [TokenBucket.isPenalized, h.global_unpenalized]
  -- what a take says about its bucket, when the bucket is not penalised
  have htake : ∀ {b b' : TokenBucket} {took : Bool}, ¬b.isPenalized t →
      b.tryTakeLocked t t n = (took, b') →
      (took = true ∧ (b.refillLocked t).Holds n ∧
        b' = { b.refillLocked t with tokens := (b.refillLocked t).tokens - n }) ∨
      (took = false ∧ ¬(b.refillLocked t).Holds n ∧ b' = b.refillLocked t) := by
    intro b b' took hpen heq
    rcases TokenBucket.tryTakeLocked_cases b t t n with
      ⟨hpen', -⟩ | ⟨-, hlack, hres⟩ | ⟨-, hle, htok, hres⟩
    · exact (hpen hpen').elim
    · obtain ⟨rfl, rfl⟩ := Prod.mk.inj (hres.symm.trans heq)
      exact Or.inr ⟨rfl, TokenBucket.not_holds_iff.mpr (by simpa using hlack), rfl⟩
    · obtain ⟨rfl, rfl⟩ := Prod.mk.inj (hres.symm.trans heq)
      exact Or.inl ⟨rfl, ⟨by simpa using hle, htok⟩, rfl⟩
  have hkeep : ∀ {b g : TokenBucket}, b.refillLocked t = child.bucket.refillLocked t →
      g.refillLocked t = L.globalBucket.refillLocked t →
      ((L.setBucket name b).setGlobal g).settled t = L.settled t := by
    intro b g hb hg
    have hg' : g.refillLocked t = (L.setBucket name b).globalBucket.refillLocked t := hg
    rw [settled_setGlobal hg', settled_setBucket hget hb]
  rcases tryTakeLocked_cases (fun _ => t) L name child n with
    ⟨hpen, heq⟩ | ⟨hpen, b, g, hb, hg, heq⟩ | ⟨hpen, b, g, hb, hg, heq⟩ |
    ⟨hpen, b, hb, hidle, heq⟩ | ⟨hpen, b, g, hb, -, hg, heq⟩ | ⟨hpen, b, g, hb, -, hg, heq⟩
  · exact Or.inr ⟨false, L, child, heq, hget, rfl, by simp [hpen], fun hnot => (hnot hpen).elim⟩
  · obtain ⟨-, hholds, -⟩ | ⟨hfalse, -⟩ := htake hglobal hg
    · exact Or.inl ⟨false, _, heq, hpen, hholds⟩
    · cases hfalse
  · obtain ⟨-, hready, rfl⟩ | ⟨hfalse, -⟩ := htake hpen hb
    · obtain ⟨hfalse, -⟩ | ⟨-, hlack, rfl⟩ := htake hglobal hg
      · cases hfalse
      · rw [TokenBucket.returnTokens_take (h.children name child hget)] at heq
        exact Or.inr ⟨true, _, { child with bucket := child.bucket.refillLocked t }, heq,
          by simp [get?_setBucket, hget], hkeep (by simp) (by simp), by simp [hpen, hready],
          fun _ => Or.inl hlack⟩
    · cases hfalse
  · obtain ⟨hfalse, -⟩ | ⟨-, hlack, rfl⟩ := htake hpen hb
    · cases hfalse
    · refine Or.inr ⟨false, _, { child with bucket := child.bucket.refillLocked t }, heq,
        by simp [get?_setBucket, hget], settled_setBucket hget (by simp), by simp [hlack],
        fun _ => Or.inr ⟨by simp [hlack], ?_⟩⟩
      simpa [siblingsIdleLocked] using hidle
  · obtain ⟨-, hholds, -⟩ | ⟨hfalse, -⟩ := htake hglobal hg
    · exact Or.inl ⟨true, _, heq, hpen, hholds⟩
    · cases hfalse
  · obtain ⟨hfalse, -⟩ | ⟨-, hlack, rfl⟩ := htake hpen hb
    · cases hfalse
    · obtain ⟨hfalse, -⟩ | ⟨-, hshort, rfl⟩ := htake hglobal hg
      · cases hfalse
      · exact Or.inr ⟨false, _, { child with bucket := child.bucket.refillLocked t }, heq,
          by simp [get?_setBucket, hget], hkeep (by simp) (by simp), by simp [hlack],
          fun _ => Or.inl hshort⟩

/-- At a fixed reading `_time_until_locked` mirrors `_try_take_locked` but for
the penalty: it answers zero when the global bucket holds `n` and the reserve
is ready or the siblings are idle, whether the child is penalised or not. -/
theorem timeUntilLocked_fixed (hunpenalized : (L.settled t).globalBucket.penaltyDeadline = ⊥)
    (n : ℚ) :
    (∃ L₂, L.timeUntilLocked (fun _ => t) name child n = (none, L₂) ∧
      (L.settled t).globalBucket.Starved n) ∨
    ∃ x L₂, L.timeUntilLocked (fun _ => t) name child n = (some x, L₂) ∧
      L₂.settled t = L.settled t ∧ ¬(L.settled t).globalBucket.Starved n ∧ 0 ≤ x ∧
      (x = 0 ↔ (L.settled t).globalBucket.Holds n ∧
        ((L.settled t).ReserveReady name t n ∨
          (L.settled t).timeUntilSiblingsIdleLocked name t ≤ 0)) := by
  rw [reserveReady_settled_iff hget, settled_globalBucket, timeUntilSiblingsIdleLocked_settled]
  have hglobal : ¬L.globalBucket.isPenalized t := by
    have hbot : L.globalBucket.penaltyDeadline = ⊥ := by simpa using hunpenalized
    simp [TokenBucket.isPenalized, hbot]
  have hkeep : ∀ waitFor L₂, L.timeUntilLocked (fun _ => t) name child n = (waitFor, L₂) →
      L₂.settled t = L.settled t := by
    intro waitFor L₂ heq
    have hsnd := timeUntilLocked_snd (fun _ => t) L name child n
    rw [heq] at hsnd
    rw [show L₂ = _ from hsnd, settled_setGlobal, settled_setBucket hget]
    · rcases TokenBucket.timeUntilAvailableLocked_snd child.bucket t t n with h | h <;> simp [h]
    · rcases TokenBucket.timeUntilAvailableLocked_snd L.globalBucket t t n with h | h <;>
        simp [h]
  rcases hown : child.bucket.timeUntilAvailableLocked t t n with ⟨ownWait, bucket⟩
  rcases hg : L.globalBucket.timeUntilAvailableLocked t t n with ⟨globalWait, g⟩
  rcases L.globalBucket.timeUntilAvailableLocked_fixed t n with
    ⟨hnone, hstarved⟩ | ⟨gw, hsome, hnot, hgw, hgwzero⟩
  · obtain rfl : globalWait = none := by simpa [hg] using hnone
    exact Or.inl ⟨(L.setBucket name bucket).setGlobal g,
      by simp [timeUntilLocked, hown, hg], hstarved⟩
  · obtain rfl : globalWait = some gw := by simpa [hg] using hsome
    have hgwzero : gw = 0 ↔ (L.globalBucket.refillLocked t).Holds n := by
      simpa [hglobal] using hgwzero
    have hsib := L.timeUntilSiblingsIdleLocked_nonneg name t
    have hborrow : max (L.timeUntilSiblingsIdleLocked name t) gw = 0 ↔
        (L.globalBucket.refillLocked t).Holds n ∧
          L.timeUntilSiblingsIdleLocked name t ≤ 0 := by
      rw [← hgwzero]
      constructor
      · intro hmax
        exact ⟨le_antisymm (hmax ▸ le_max_right _ _) hgw, hmax ▸ le_max_left _ _⟩
      · rintro ⟨rfl, hle⟩
        exact max_eq_right hle
    right
    rcases child.bucket.timeUntilAvailableLocked_fixed t n with
      ⟨hnone, hstarved⟩ | ⟨ow, hsome, -, how, howzero⟩
    · obtain rfl : ownWait = none := by simpa [hown] using hnone
      have heq : L.timeUntilLocked (fun _ => t) name child n =
          (some (max (L.timeUntilSiblingsIdleLocked name t) gw),
            (L.setBucket name bucket).setGlobal g) := by
        simp [timeUntilLocked, hown, hg]
      refine ⟨_, _, heq, hkeep _ _ heq, hnot, le_max_of_le_right hgw, ?_⟩
      rw [hborrow]
      simp [hstarved.not_holds]
    · obtain rfl : ownWait = some ow := by simpa [hown] using hsome
      by_cases hzero : ow = 0
      · have heq : L.timeUntilLocked (fun _ => t) name child n =
            (some gw, (L.setBucket name bucket).setGlobal g) := by
          simp [timeUntilLocked, hown, hg, hzero]
        refine ⟨_, _, heq, hkeep _ _ heq, hnot, hgw, ?_⟩
        rw [hgwzero]
        simp [howzero.mp hzero]
      · have heq : L.timeUntilLocked (fun _ => t) name child n =
            (some (min ow (max (L.timeUntilSiblingsIdleLocked name t) gw)),
              (L.setBucket name bucket).setGlobal g) := by
          simp [timeUntilLocked, hown, hg, hzero]
        have hpos : 0 < ow := lt_of_le_of_ne how (Ne.symm hzero)
        have hmin : min ow (max (L.timeUntilSiblingsIdleLocked name t) gw) = 0 ↔
            max (L.timeUntilSiblingsIdleLocked name t) gw = 0 := by
          constructor
          · intro h
            rcases min_choice ow (max (L.timeUntilSiblingsIdleLocked name t) gw) with hc | hc
            · exact (hzero (hc.symm.trans h)).elim
            · exact hc.symm.trans h
          · intro h
            rw [h]
            exact min_eq_right hpos.le
        refine ⟨_, _, heq, hkeep _ _ heq, hnot, le_min how (le_max_of_le_right hgw), ?_⟩
        rw [hmin, hborrow]
        simp [mt howzero.mpr hzero]

end Fixed

end HierarchicalLimiter

/-- The caller has not run out of its own time at reading `t`. -/
def Waiter.Live (w : Waiter) (t : ℚ) : Prop := ∀ d, w.deadline = some d → t < d

/-- The caller would wait zero seconds: its child is penalised, which
`_time_until_locked` overlooks once the borrowing gate is open and the global
bucket holds the request. -/
structure Waiter.Spinning (w : Waiter) (S : HierarchicalLimiter) (t : ℚ) : Prop where
  penalized : S.Penalized w.child t
  idle : S.timeUntilSiblingsIdleLocked w.child t ≤ 0
  holds : S.globalBucket.Holds w.n
  live : w.Live t

/-- The caller would take its reserve tokens, find the global bucket short, and
give them back, notifying everyone. -/
structure Waiter.Returning (w : Waiter) (S : HierarchicalLimiter) (t : ℚ) : Prop where
  ready : S.ReserveReady w.child t w.n
  short : ¬S.globalBucket.Holds w.n
  refills : ¬S.globalBucket.Starved w.n
  live : w.Live t

/-- A pass at a fixed reading: granted, denied, or sent back to wait with the
settled form unchanged, for no time exactly when spinning and notifying the
others exactly when returning tokens. -/
theorem HierarchicalLimiter.acquirePass_fixed {L : HierarchicalLimiter} {t : ℚ} {w : Waiter}
    {child : ChildState} (h : L.Wf t) (hget : L.children.get? w.child = some child) :
    (∃ borrowed, (L.acquirePass (fun _ => t) w.child child w.n w.deadline).verdict =
        .granted borrowed ∧
      ¬(L.settled t).Penalized w.child t ∧ (L.settled t).globalBucket.Holds w.n) ∨
    ((L.acquirePass (fun _ => t) w.child child w.n w.deadline).verdict = .denied ∧
      (w.Live t → (L.settled t).globalBucket.Starved w.n)) ∨
    ∃ seconds, (L.acquirePass (fun _ => t) w.child child w.n w.deadline).verdict =
        .wait seconds ∧
      (L.acquirePass (fun _ => t) w.child child w.n w.deadline).limiter.settled t =
        L.settled t ∧
      0 ≤ seconds ∧ (seconds = 0 ↔ w.Spinning (L.settled t) t) ∧
      ((L.acquirePass (fun _ => t) w.child child w.n w.deadline).notified = true ↔
        w.Returning (L.settled t) t) := by
  have hbot : (L.settled t).globalBucket.penaltyDeadline = ⊥ := by
    simpa using h.global_unpenalized
  rcases tryTakeLocked_fixed hget h w.n with
    ⟨borrowed, L₁, heq, hpen, hholds⟩ | ⟨returned, L₁, child₁, heq, hget₁, hset, hret, hfail⟩
  · exact Or.inl ⟨borrowed, by simp [acquirePass, heq], hpen, hholds⟩
  · right
    have htime := timeUntilLocked_fixed hget₁ (by rwa [hset]) w.n
    rw [hset] at htime
    rcases htime with ⟨L₂, htime, hstarved⟩ | ⟨x, L₂, htime, hset₂, hnot, hx, hxzero⟩
    · exact Or.inl ⟨by simp [acquirePass, heq, hget₁, htime], fun _ => hstarved⟩
    · have hspin : w.Live t → (x = 0 ↔ w.Spinning (L.settled t) t) := by
        intro hlive
        rw [hxzero]
        constructor
        · rintro ⟨hholds, hgate⟩
          by_cases hpen : (L.settled t).Penalized w.child t
          · refine ⟨hpen, ?_, hholds, hlive⟩
            rcases hgate with ⟨c, hc, hfree, -⟩ | hidle
            · obtain ⟨c', hc', hpen'⟩ := hpen
              obtain rfl := Option.some.inj (hc.symm.trans hc')
              exact (hfree hpen').elim
            · exact hidle
          · rcases hfail hpen with hlack | ⟨hready, hbusy⟩
            · exact (hlack hholds).elim
            · exact (hgate.elim hready hbusy).elim
        · intro hs
          exact ⟨hs.holds, Or.inr hs.idle⟩
      have hnotify : w.Live t → (returned = true ↔ w.Returning (L.settled t) t) := by
        intro hlive
        rw [hret]
        constructor
        · intro hready
          refine ⟨hready, ?_, hnot, hlive⟩
          obtain ⟨c, hc, hfree, -⟩ := id hready
          have hpen : ¬(L.settled t).Penalized w.child t := by
            rintro ⟨c', hc', hpen'⟩
            obtain rfl := Option.some.inj (hc.symm.trans hc')
            exact hfree hpen'
          exact (hfail hpen).resolve_right fun hr => hr.1 hready
        · exact fun hr => hr.ready
      cases hdeadline : w.deadline with
      | none =>
          have hlive : w.Live t := by simp [Waiter.Live, hdeadline]
          exact Or.inr ⟨x, by simp [acquirePass, heq, hget₁, htime],
            by simp [acquirePass, heq, hget₁, htime, hset₂], hx, hspin hlive,
            by simpa [acquirePass, heq, hget₁, htime] using hnotify hlive⟩
      | some d =>
          by_cases hd : d - t ≤ 0
          · refine Or.inl ⟨by simp [acquirePass, heq, hget₁, htime, hd], fun hlive => ?_⟩
            exact absurd (hlive d hdeadline) (not_lt.mpr (sub_nonpos.mp hd))
          · have hpos : 0 < d - t := not_le.mp hd
            have hlive : w.Live t := by
              intro d' hd'
              obtain rfl : d = d' := Option.some.inj (hdeadline.symm.trans hd')
              exact sub_pos.mp hpos
            have hmin : min x (d - t) = 0 ↔ x = 0 := by
              constructor
              · intro hzero
                rcases min_choice x (d - t) with hc | hc
                · exact hc.symm.trans hzero
                · exact absurd (hc.symm.trans hzero) hpos.ne'
              · rintro rfl
                exact min_eq_left hpos.le
            exact Or.inr ⟨min x (d - t), by simp [acquirePass, heq, hget₁, htime, hd],
              by simp [acquirePass, heq, hget₁, htime, hd, hset₂], le_min hx hpos.le,
              hmin.trans (hspin hlive),
              by simpa [acquirePass, heq, hget₁, htime, hd] using hnotify hlive⟩

end RerollSync.RateLimit
