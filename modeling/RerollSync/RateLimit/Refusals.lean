import RerollSync.RateLimit.Borrowing

/-!
# Refused attempts

A refused attempt refills buckets at readings of its own, and takes tokens from a child
that it gives back when the global bucket is short.  Neither shows: what a bucket holds
at a later reading does not depend on the refills in between, and a taken token that is
returned was never missed.
-/

namespace RerollSync.RateLimit

open RerollSync.Support

/-! ## Buckets that nobody draws on -/

namespace TokenBucket

variable {b b' b'' : TokenBucket} {now later t n : ℚ}

/-- `available`: the tokens that a reading at `now` finds. -/
def available (b : TokenBucket) (now : ℚ) : ℚ := (b.refillLocked now).tokens

/-- What every bucket satisfies at a clock reading, whatever its rate. -/
structure Regular (b : TokenBucket) (now : ℚ) : Prop where
  tokens_le : b.tokens ≤ b.burst
  lastRefill_le : b.lastRefill ≤ now

theorem Regular.mono (h : b.Regular now) (hle : now ≤ later) : b.Regular later :=
  ⟨h.tokens_le, h.lastRefill_le.trans hle⟩

theorem Regular.refillLocked (h : b.Regular now) : (b.refillLocked now).Regular now where
  tokens_le := by
    rw [refillLocked_tokens h.lastRefill_le h.tokens_le, refillLocked_burst]
    exact min_le_left _ _
  lastRefill_le := (refillLocked_lastRefill h.lastRefill_le).le

theorem Regular.available_eq (h : b.Regular now) :
    b.available now = min b.burst (b.tokens + (now - b.lastRefill) * b.ratePerSecond) :=
  refillLocked_tokens h.lastRefill_le h.tokens_le

/-- Capping at the burst in between does not show at the end. -/
theorem min_refill_refill {burst tokens rate e e' : ℚ} (htokens : tokens ≤ burst) (he : 0 ≤ e)
    (he' : 0 ≤ e') :
    min burst (min burst (tokens + e * rate) + e' * rate) =
      min burst (tokens + (e + e') * rate) := by
  have hsum : (e + e') * rate = e * rate + e' * rate := by ring
  rcases le_total 0 rate with hrate | hrate
  · have hgain : 0 ≤ e' * rate := mul_nonneg he' hrate
    rcases le_total burst (tokens + e * rate) with hfull | hroom
    · rw [min_eq_left hfull, min_eq_left (by linarith), min_eq_left (by linarith)]
    · rw [min_eq_right hroom, hsum, add_assoc]
  · have hloss : e * rate ≤ 0 := mul_nonpos_of_nonneg_of_nonpos he hrate
    rw [min_eq_right (show tokens + e * rate ≤ burst by linarith), hsum, add_assoc]

/-- A refill does not show at a later reading. -/
theorem Regular.available_refillLocked (h : b.Regular now) (hle : now ≤ later) :
    (b.refillLocked now).available later = b.available later := by
  rw [(h.refillLocked.mono hle).available_eq, (h.mono hle).available_eq, refillLocked_burst,
    refillLocked_ratePerSecond, refillLocked_lastRefill h.lastRefill_le,
    refillLocked_tokens h.lastRefill_le h.tokens_le,
    min_refill_refill h.tokens_le (sub_nonneg.mpr h.lastRefill_le) (sub_nonneg.mpr hle)]
  congr 3
  ring

/-- At readings from `now` on the second bucket holds what the first one would, under the
same penalty. -/
structure Undrawn (now : ℚ) (b b' : TokenBucket) : Prop where
  regular : b'.Regular now
  burst : b'.burst = b.burst
  ratePerSecond : b'.ratePerSecond = b.ratePerSecond
  penaltyDeadline : b'.penaltyDeadline = b.penaltyDeadline
  available : ∀ later, now ≤ later → b'.available later = b.available later

theorem Regular.undrawn (h : b.Regular now) : Undrawn now b b :=
  ⟨h, rfl, rfl, rfl, fun _ _ => rfl⟩

theorem Undrawn.trans (h : Undrawn now b b') (hle : now ≤ later) (h' : Undrawn later b' b'') :
    Undrawn later b b'' where
  regular := h'.regular
  burst := h'.burst.trans h.burst
  ratePerSecond := h'.ratePerSecond.trans h.ratePerSecond
  penaltyDeadline := h'.penaltyDeadline.trans h.penaltyDeadline
  available t ht := (h'.available t ht).trans (h.available t (hle.trans ht))

theorem Undrawn.mono (h : Undrawn now b b') (hle : now ≤ later) : Undrawn later b b' :=
  h.trans hle (h.regular.mono hle).undrawn

theorem Regular.undrawn_refillLocked (h : b.Regular now) : Undrawn now b (b.refillLocked now) :=
  ⟨h.refillLocked, refillLocked_burst b now, refillLocked_ratePerSecond b now,
    refillLocked_penaltyDeadline b now, fun _ hle => h.available_refillLocked hle⟩

/-- A take that fails. -/
theorem Regular.undrawn_refused (h : b.Regular t)
    (hfails : b.tryTakeLocked now t n = (false, b')) : Undrawn t b b' := by
  rcases tryTakeLocked_cases b now t n with ⟨-, heq⟩ | ⟨-, -, heq⟩ | ⟨-, -, -, heq⟩
  · obtain ⟨-, rfl⟩ := Prod.mk.inj (heq.symm.trans hfails)
    exact h.undrawn
  · obtain ⟨-, rfl⟩ := Prod.mk.inj (heq.symm.trans hfails)
    exact h.undrawn_refillLocked
  · cases heq.symm.trans hfails

/-- A take whose tokens are returned. -/
theorem Regular.undrawn_returned (h : b.Regular t)
    (htakes : b.tryTakeLocked now t n = (true, b')) : Undrawn t b (b'.returnTokens n) := by
  rcases tryTakeLocked_cases b now t n with ⟨-, heq⟩ | ⟨-, -, heq⟩ | ⟨-, -, -, heq⟩
  · cases heq.symm.trans htakes
  · cases heq.symm.trans htakes
  · obtain ⟨-, rfl⟩ := Prod.mk.inj (heq.symm.trans htakes)
    have hreturned : ({ b.refillLocked t with tokens := (b.refillLocked t).tokens - n } :
        TokenBucket).returnTokens n = b.refillLocked t := by
      simp only [returnTokens, sub_add_cancel, min_eq_right h.refillLocked.tokens_le]
    rw [hreturned]
    exact h.undrawn_refillLocked

/-- A take that succeeds keeps the bucket regular, and its deadline. -/
theorem Regular.taken (h : b.Regular t) (hn : 0 ≤ n)
    (htakes : b.tryTakeLocked now t n = (true, b')) : b'.Regular t := by
  rcases tryTakeLocked_cases b now t n with ⟨-, heq⟩ | ⟨-, -, heq⟩ | ⟨-, -, -, heq⟩
  · cases heq.symm.trans htakes
  · cases heq.symm.trans htakes
  · obtain ⟨-, rfl⟩ := Prod.mk.inj (heq.symm.trans htakes)
    exact ⟨(sub_le_self _ hn).trans h.refillLocked.tokens_le, h.refillLocked.lastRefill_le⟩

/-- A computation of the waiting time. -/
theorem Regular.undrawn_timeUntilAvailableLocked (h : b.Regular t) (now n : ℚ) :
    Undrawn t b (b.timeUntilAvailableLocked now t n).2 := by
  rcases timeUntilAvailableLocked_snd b now t n with heq | heq
  · rw [heq]
    exact h.undrawn
  · rw [heq]
    exact h.undrawn_refillLocked

theorem available_penalize (b : TokenBucket) (now seconds later : ℚ) :
    (b.penalize now seconds).available later = b.available later := by
  simp only [penalize]
  split
  · simp only [available, refillLocked]
    split <;> rfl
  · rfl

theorem Regular.penalize (h : b.Regular now) (t seconds : ℚ) :
    (b.penalize t seconds).Regular now := by
  simp only [TokenBucket.penalize]
  split
  · exact ⟨h.tokens_le, h.lastRefill_le⟩
  · exact h

/-- The deadline of a penalised bucket is the later of the old and the new one. -/
theorem penaltyDeadline_penalize (b : TokenBucket) (now seconds : ℚ) :
    (b.penalize now seconds).penaltyDeadline = max b.penaltyDeadline (now + seconds : ℚ) := by
  simp only [penalize]
  split
  next hlt => exact (max_eq_right hlt.le).symm
  next hle => exact (max_eq_left (not_lt.mp hle)).symm

end TokenBucket

/-! ## Limiters that grant nothing -/

namespace HierarchicalLimiter

open TokenBucket (Undrawn)

variable {L L' L'' : HierarchicalLimiter} {now later : ℚ} {name : String} {child : ChildState}

/-- The tokens that a child holds at a reading, as `snapshot` reports them. -/
def childAvailable (L : HierarchicalLimiter) (name : String) (now : ℚ) : Option ℚ :=
  (L.children.get? name).map fun c => c.bucket.available now

/-- The penalty deadline of a child. -/
def deadlineOf (L : HierarchicalLimiter) (name : String) : Option (WithBot ℚ) :=
  (L.children.get? name).map fun c => c.bucket.penaltyDeadline

structure Regular (L : HierarchicalLimiter) (now : ℚ) : Prop where
  globalBucket : L.globalBucket.Regular now
  children : ∀ name c, L.children.get? name = some c → c.bucket.Regular now

/-- Nobody has drawn on any bucket of the limiter. -/
structure Untouched (now : ℚ) (L L' : HierarchicalLimiter) : Prop where
  globalBucket : Undrawn now L.globalBucket L'.globalBucket
  children : ∃ f, L'.children = L.children.modify f ∧
    ∀ name c, L.children.get? name = some c → Undrawn now c.bucket (f name c).bucket

theorem Regular.mono (h : L.Regular now) (hle : now ≤ later) : L.Regular later :=
  ⟨h.globalBucket.mono hle, fun name c hc => (h.children name c hc).mono hle⟩

theorem Regular.updateChild (h : L.Regular now) {f : ChildState → ChildState}
    (hf : ∀ c, L.children.get? name = some c → (f c).bucket.Regular now) :
    (L.updateChild name f).Regular now where
  globalBucket := h.globalBucket
  children := by
    intro k c hc
    rw [get?_updateChild, Option.map_eq_some_iff] at hc
    obtain ⟨old, hold, rfl⟩ := hc
    split
    next hk => exact hf old (hk ▸ hold)
    next => exact h.children k old hold

theorem Regular.untouched (h : L.Regular now) : Untouched now L L where
  globalBucket := h.globalBucket.undrawn
  children := ⟨fun _ c => c, (Table.modify_eq_self fun _ _ => rfl).symm,
    fun name c hc => (h.children name c hc).undrawn⟩

theorem Untouched.regular (h : Untouched now L L') : L'.Regular now where
  globalBucket := h.globalBucket.regular
  children := by
    obtain ⟨f, hchildren, hf⟩ := h.children
    intro name c hc
    rw [hchildren, Table.get?_modify, Option.map_eq_some_iff] at hc
    obtain ⟨old, hold, rfl⟩ := hc
    exact (hf name old hold).regular

theorem Untouched.trans (h : Untouched now L L') (hle : now ≤ later) (h' : Untouched later L' L'') :
    Untouched later L L'' where
  globalBucket := h.globalBucket.trans hle h'.globalBucket
  children := by
    obtain ⟨f, hchildren, hf⟩ := h.children
    obtain ⟨f', hchildren', hf'⟩ := h'.children
    refine ⟨fun name c => f' name (f name c), ?_, fun name c hc => ?_⟩
    · rw [hchildren', hchildren, Table.modify_modify]
    · have hc' : L'.children.get? name = some (f name c) := by
        rw [hchildren, Table.get?_modify, hc]
        rfl
      exact (hf name c hc).trans hle (hf' name (f name c) hc')

theorem Untouched.mono (h : Untouched now L L') (hle : now ≤ later) : Untouched later L L' :=
  h.trans hle (h.regular.mono hle).untouched

theorem Regular.untouched_updateChild (h : L.Regular now) {f : ChildState → ChildState}
    (hf : ∀ c, L.children.get? name = some c → Undrawn now c.bucket (f c).bucket) :
    Untouched now L (L.updateChild name f) where
  globalBucket := h.globalBucket.undrawn
  children := by
    refine ⟨fun k c => if k = name then f c else c, rfl, fun k c hc => ?_⟩
    dsimp only
    split
    next hk => exact hf c (hk ▸ hc)
    next => exact (h.children k c hc).undrawn

theorem Regular.untouched_setBucket (h : L.Regular now) (hget : L.children.get? name = some child)
    {b : TokenBucket} (hb : Undrawn now child.bucket b) : Untouched now L (L.setBucket name b) :=
  h.untouched_updateChild fun c hc => by
    obtain rfl : c = child := Option.some.inj (hc.symm.trans hget)
    exact hb

theorem Regular.untouched_setGlobal (h : L.Regular now) {g : TokenBucket}
    (hg : Undrawn now L.globalBucket g) : Untouched now L (L.setGlobal g) where
  globalBucket := hg
  children := h.untouched.children

theorem Untouched.childAvailable (h : Untouched now L L') (name : String) (hle : now ≤ later) :
    L'.childAvailable name later = L.childAvailable name later := by
  obtain ⟨f, hchildren, hf⟩ := h.children
  rw [HierarchicalLimiter.childAvailable, HierarchicalLimiter.childAvailable, hchildren,
    Table.get?_modify, Option.map_map]
  cases hget : L.children.get? name with
  | none => rfl
  | some c => exact congrArg some ((hf name c hget).available later hle)

theorem Untouched.deadlineOf (h : Untouched now L L') (name : String) :
    L'.deadlineOf name = L.deadlineOf name := by
  obtain ⟨f, hchildren, hf⟩ := h.children
  rw [HierarchicalLimiter.deadlineOf, HierarchicalLimiter.deadlineOf, hchildren,
    Table.get?_modify, Option.map_map]
  cases hget : L.children.get? name with
  | none => rfl
  | some c => exact congrArg some (hf name c hget).penaltyDeadline

/-- The buckets after an update of one child and of the global bucket, in which nobody has
drawn on either. -/
theorem Regular.untouched_buckets (h : L.Regular now) (hget : L.children.get? name = some child)
    {b g : TokenBucket} (hb : Undrawn now child.bucket b) (hg : Undrawn now L.globalBucket g) :
    Untouched now L ((L.setBucket name b).setGlobal g) :=
  (h.untouched_setBucket hget hb).trans (le_refl now)
    ((h.untouched_setBucket hget hb).regular.untouched_setGlobal hg)

/-- A refused attempt touches no bucket. -/
theorem Regular.untouched_tryTakeLocked (h : L.Regular now)
    (hget : L.children.get? name = some child) {r : ℕ → ℚ} (hr : Monotone r) (hnow : now ≤ r 0)
    {n : ℚ} {returned : Bool}
    (htake : L.tryTakeLocked r name child n = (.refused returned, L')) : Untouched (r 5) L L' := by
  have hregular : ∀ k, (L.Regular (r k)) := fun k => h.mono (hnow.trans (hr (Nat.zero_le k)))
  have hchild : ∀ k, child.bucket.Regular (r k) := fun k => (hregular k).children name child hget
  rcases tryTakeLocked_cases r L name child n with
    ⟨-, heq⟩ | ⟨-, b, g, -, -, heq⟩ | ⟨-, b, g, htakes, hfails, heq⟩ | ⟨-, b, hfails, -, heq⟩ |
    ⟨-, b, g, -, -, -, heq⟩ | ⟨-, b, g, hfails, -, hglobal, heq⟩
  · obtain ⟨-, rfl⟩ := Prod.mk.inj (heq.symm.trans htake)
    exact (hregular 5).untouched
  · cases heq.symm.trans htake
  · obtain ⟨-, rfl⟩ := Prod.mk.inj (heq.symm.trans htake)
    have hb := ((hchild 2).undrawn_returned htakes).mono (hr (show 2 ≤ 5 by omega))
    exact (hregular 5).untouched_buckets hget hb
      ((hregular 5).globalBucket.undrawn_refused hfails)
  · obtain ⟨-, rfl⟩ := Prod.mk.inj (heq.symm.trans htake)
    have hb := ((hchild 2).undrawn_refused hfails).mono (hr (show 2 ≤ 5 by omega))
    exact (hregular 5).untouched_setBucket hget hb
  · cases heq.symm.trans htake
  · obtain ⟨-, rfl⟩ := Prod.mk.inj (heq.symm.trans htake)
    have hb := ((hchild 2).undrawn_refused hfails).mono (hr (show 2 ≤ 5 by omega))
    exact (hregular 5).untouched_buckets hget hb
      ((hregular 5).globalBucket.undrawn_refused hglobal)

theorem Regular.untouched_timeUntilLocked (h : L.Regular now)
    (hget : L.children.get? name = some child) {r : ℕ → ℚ} (hr : Monotone r) (hnow : now ≤ r 0)
    (n : ℚ) : Untouched (r 3) L (L.timeUntilLocked r name child n).2 := by
  have hregular : ∀ k, (L.Regular (r k)) := fun k => h.mono (hnow.trans (hr (Nat.zero_le k)))
  rw [timeUntilLocked_snd]
  have hb := (((hregular 1).children name child hget).undrawn_timeUntilAvailableLocked (r 0) n).mono
    (hr (show 1 ≤ 3 by omega))
  exact (hregular 3).untouched_buckets hget hb
    ((hregular 3).globalBucket.undrawn_timeUntilAvailableLocked (r 2) n)

/-- Counters are no buckets. -/
theorem Regular.untouched_countDenied (h : L.Regular now) (name : String) :
    Untouched now L (L.countDenied name) :=
  h.untouched_updateChild fun c hc => (h.children name c hc).undrawn

theorem Regular.untouched_recordAttempt (h : L.Regular now) (name : String) (t : ℚ) :
    Untouched now L (L.recordAttempt name t) :=
  h.untouched_updateChild fun c hc => (h.children name c hc).undrawn

/-- A snapshot refills every bucket. -/
theorem Regular.untouched_snapshotRefill (h : L.Regular now) {r : ℕ → ℚ} (hr : Monotone r)
    (hnow : now ≤ r 0) : Untouched (r L.children.keys.length) L (L.snapshotRefill r) where
  globalBucket :=
    (h.globalBucket.mono (hnow.trans (hr (Nat.zero_le _)))).undrawn_refillLocked
  children := by
    refine ⟨fun name c => { c with
      bucket := c.bucket.refillLocked (r (L.children.keys.idxOf name)) }, rfl,
      fun name c hc => ?_⟩
    have hregular := (h.children name c hc).mono
      (hnow.trans (hr (Nat.zero_le (L.children.keys.idxOf name))))
    exact hregular.undrawn_refillLocked.mono (hr List.idxOf_le_length)

/-- A pass that does not grant touches no bucket. -/
theorem Regular.untouched_acquirePass (h : L.Regular now)
    (hget : L.children.get? name = some child) {r : ℕ → ℚ} (hr : Monotone r) (hnow : now ≤ r 0)
    {n : ℚ} {deadline : Option ℚ}
    (hrefused : ∀ borrowed, (L.acquirePass r name child n deadline).verdict ≠ .granted borrowed) :
    Untouched (r 11) L (L.acquirePass r name child n deadline).limiter := by
  rcases L.acquirePass_cases r name child n deadline with
    ⟨borrowed, L₁, -, hpass⟩ | ⟨returned, L₁, waitFor, L₂, htake, htime, hpass⟩
  · exact (hrefused borrowed (by rw [hpass])).elim
  · have htaken := h.untouched_tryTakeLocked hget hr hnow htake
    obtain ⟨f, hchildren, -⟩ := htaken.children
    have hget₁ : L₁.children.get? name = some (f name child) := by
      rw [hchildren, Table.get?_modify, hget]
      rfl
    rw [hget₁, Option.getD_some] at htime
    have hwaited : Untouched (r 9) L₁ L₂ := by
      have htimed := htaken.regular.untouched_timeUntilLocked hget₁
        (fun i j hij => hr (show 6 + i ≤ 6 + j by omega)) (hr (show 5 ≤ 6 + 0 by omega)) n
      rw [htime] at htimed
      exact htimed
    have hboth : Untouched (r 11) L L₂ :=
      (htaken.trans (hr (by omega)) hwaited).mono (hr (by omega))
    rcases hpass with ⟨hpass, -⟩ | ⟨seconds, -, ⟨-, hpass⟩ | ⟨d, -, -, hpass⟩⟩
    · rw [hpass]
      exact hboth.trans (le_refl _) (hboth.regular.untouched_countDenied name)
    · rw [hpass]
      exact hboth
    · rw [hpass]
      exact hboth

theorem deadlineOf_updateChild {f : ChildState → ChildState}
    (hf : ∀ c, L.children.get? name = some c →
      (f c).bucket.penaltyDeadline = c.bucket.penaltyDeadline) (k : String) :
    (L.updateChild name f).deadlineOf k = L.deadlineOf k := by
  rw [deadlineOf, deadlineOf, get?_updateChild, Option.map_map]
  cases hget : L.children.get? k with
  | none => rfl
  | some c =>
      simp only [Option.map_some, Function.comp_apply, Option.some.injEq]
      split
      next hk => exact hf c (hk ▸ hget)
      next => rfl

/-- A granted attempt leaves the buckets regular and the deadlines as they are, and its
child was not penalised when the attempt began. -/
theorem Regular.granted_tryTakeLocked (h : L.Regular now)
    (hget : L.children.get? name = some child) {r : ℕ → ℚ} (hr : Monotone r) (hnow : now ≤ r 0)
    {n : ℚ} (hn : 0 ≤ n) {borrowed : Bool}
    (htake : L.tryTakeLocked r name child n = (.granted borrowed, L')) :
    L'.Regular (r 5) ∧ (∀ k, L'.deadlineOf k = L.deadlineOf k) ∧
      ¬child.bucket.isPenalized (r 0) := by
  have hregular : ∀ k, (L.Regular (r k)) := fun k => h.mono (hnow.trans (hr (Nat.zero_le k)))
  have hchild := (hregular 2).children name child hget
  have hset : ∀ {b : TokenBucket}, b.penaltyDeadline = child.bucket.penaltyDeadline →
      ∀ k, (L.setBucket name b).deadlineOf k = L.deadlineOf k := fun hb k =>
    deadlineOf_updateChild (fun c hc => by
      obtain rfl : c = child := Option.some.inj (hc.symm.trans hget)
      exact hb) k
  rcases tryTakeLocked_cases r L name child n with
    ⟨-, heq⟩ | ⟨hpen, b, g, htakes, hglobal, heq⟩ | ⟨-, b, g, -, -, heq⟩ | ⟨-, b, -, -, heq⟩ |
    ⟨hpen, b, g, hfails, -, hglobal, heq⟩ | ⟨-, b, g, -, -, -, heq⟩
  · cases heq.symm.trans htake
  · obtain ⟨-, rfl⟩ := Prod.mk.inj (heq.symm.trans htake)
    have hb : b.Regular (r 5) := (hchild.taken hn htakes).mono (hr (by omega))
    refine ⟨⟨(hregular 5).globalBucket.taken hn hglobal, ?_⟩,
      hset (TokenBucket.tryTakeLocked_burst htakes).2.2, hpen⟩
    exact ((hregular 5).updateChild fun _ _ => hb).children
  · cases heq.symm.trans htake
  · cases heq.symm.trans htake
  · obtain ⟨-, rfl⟩ := Prod.mk.inj (heq.symm.trans htake)
    have hb : b.Regular (r 5) := (hchild.undrawn_refused hfails).regular.mono (hr (by omega))
    refine ⟨⟨(hregular 5).globalBucket.taken hn hglobal, ?_⟩,
      hset (TokenBucket.tryTakeLocked_burst hfails).2.2, hpen⟩
    exact ((hregular 5).updateChild fun _ _ => hb).children
  · cases heq.symm.trans htake

/-- The same of a pass, which counts the grant. -/
theorem Regular.granted_acquirePass (h : L.Regular now)
    (hget : L.children.get? name = some child) {r : ℕ → ℚ} (hr : Monotone r) (hnow : now ≤ r 0)
    {n : ℚ} (hn : 0 ≤ n) {deadline : Option ℚ} {borrowed : Bool}
    (hgranted : (L.acquirePass r name child n deadline).verdict = .granted borrowed) :
    (L.acquirePass r name child n deadline).limiter.Regular (r 5) ∧
      (∀ k, (L.acquirePass r name child n deadline).limiter.deadlineOf k = L.deadlineOf k) ∧
      ¬child.bucket.isPenalized (r 0) := by
  rcases L.acquirePass_cases r name child n deadline with
    ⟨borrowed, L₁, htake, hpass⟩ | ⟨returned, L₁, waitFor, L₂, -, -, hpass⟩
  · obtain ⟨hregular, hdeadline, hpen⟩ := h.granted_tryTakeLocked hget hr hnow hn htake
    rw [hpass]
    refine ⟨hregular.updateChild fun c hc => hregular.children name c hc, fun k => ?_, hpen⟩
    have hcount : (L₁.countAcquired name).deadlineOf k = L₁.deadlineOf k := by
      refine deadlineOf_updateChild ?_ k
      exact fun _ _ => rfl
    exact hcount.trans (hdeadline k)
  · rcases hpass with ⟨hpass, -⟩ | ⟨seconds, -, ⟨-, hpass⟩ | ⟨d, -, -, hpass⟩⟩ <;>
      simp [hpass] at hgranted

end HierarchicalLimiter

namespace HierarchicalLimiter

variable {L L' L'' : HierarchicalLimiter} {now : ℚ} {name : String} {child : ChildState}

/-- Every bucket holds the same in both limiters, as a reading at `now` finds it. -/
structure SameAvailable (L L' : HierarchicalLimiter) (now : ℚ) : Prop where
  globalBucket : L.globalBucket.available now = L'.globalBucket.available now
  children : ∀ name, L.childAvailable name now = L'.childAvailable name now

theorem SameAvailable.trans (h : L.SameAvailable L' now) (h' : L'.SameAvailable L'' now) :
    L.SameAvailable L'' now :=
  ⟨h.globalBucket.trans h'.globalBucket, fun name => (h.children name).trans (h'.children name)⟩

theorem SameAvailable.symm (h : L.SameAvailable L' now) : L'.SameAvailable L now :=
  ⟨h.globalBucket.symm, fun name => (h.children name).symm⟩

theorem Untouched.sameAvailable {later : ℚ} (h : Untouched now L L') (hle : now ≤ later) :
    L'.SameAvailable L later :=
  ⟨h.globalBucket.available later hle, fun name => h.childAvailable name hle⟩

theorem sameAvailable_penalize (hget : L.children.get? name = some child) (t seconds now : ℚ) :
    (L.setBucket name (child.bucket.penalize t seconds)).SameAvailable L now where
  globalBucket := rfl
  children k := by
    rw [childAvailable, childAvailable, get?_setBucket, Option.map_map]
    refine Option.map_congr fun c hc => ?_
    rw [Function.comp_apply]
    split
    next hk =>
      obtain rfl : c = child := Option.some.inj ((hk ▸ hc).symm.trans hget)
      exact c.bucket.available_penalize t seconds now
    next => rfl

end HierarchicalLimiter

end RerollSync.RateLimit
