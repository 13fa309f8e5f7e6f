import RerollSync.RateLimit.BlockedAcquire

/-!
# Borrowing past a blocked sibling

A child borrows from the global bucket when its siblings look idle.  The limiter
judges that by the time at which a sibling last began an `acquire`, and a caller of
that sibling may have been blocked ever since.
-/

namespace RerollSync.RateLimit

open RerollSync.Support

theorem TokenBucket.tryTakeLocked_fst_iff (b : TokenBucket) (now refillNow n : ℚ) :
    (b.tryTakeLocked now refillNow n).1 = true ↔
      ¬b.isPenalized now ∧ (b.refillLocked refillNow).Holds n := by
  rcases tryTakeLocked_cases b now refillNow n with
    ⟨hpen, heq⟩ | ⟨-, hlack, heq⟩ | ⟨hpen, hburst, htokens, heq⟩
  · rw [heq]
    exact iff_of_false Bool.false_ne_true fun h => h.1 hpen
  · rw [heq]
    refine iff_of_false Bool.false_ne_true fun h => not_holds_iff.mpr ?_ h.2
    rwa [refillLocked_burst]
  · rw [heq]
    exact iff_of_true rfl ⟨hpen, by rwa [refillLocked_burst], htokens⟩

theorem TokenBucket.penaltyDeadline_tryTakeLocked (b : TokenBucket) (now refillNow n : ℚ) :
    (b.tryTakeLocked now refillNow n).2.penaltyDeadline = b.penaltyDeadline := by
  rcases tryTakeLocked_cases b now refillNow n with ⟨-, heq⟩ | ⟨-, -, heq⟩ | ⟨-, -, -, heq⟩ <;>
    simp [heq]

/-! ## Idle siblings -/

/-- The time one of the child's own tokens takes to refill, zero without a reserve. -/
def ChildState.refillTime (c : ChildState) : ℚ :=
  if 0 < c.reserveRate then 60 / c.reserveRate else 0

/-- The child's last request is at least one refill time old. -/
def ChildState.IdleAt (c : ChildState) (now : ℚ) : Prop :=
  ∀ last ∈ c.lastAttempt, c.refillTime ≤ now - last

instance (c : ChildState) (now : ℚ) : Decidable (c.IdleAt now) :=
  inferInstanceAs (Decidable (∀ last ∈ c.lastAttempt, c.refillTime ≤ now - last))

theorem ChildState.IdleAt.mono {c : ChildState} {now later : ℚ} (h : c.IdleAt now)
    (hle : now ≤ later) : c.IdleAt later := by
  intro last hlast
  have hidle := h last hlast
  linarith

namespace HierarchicalLimiter

variable {L : HierarchicalLimiter} {name : String} {child : ChildState} {n : ℚ}

theorem siblingWait_le_zero_iff {c : ChildState} {now : ℚ} :
    siblingWait c now ≤ 0 ↔ c.IdleAt now := by
  unfold siblingWait ChildState.IdleAt
  cases c.lastAttempt with
  | none => simp
  | some last =>
      simp only [ChildState.refillTime, Option.mem_def, Option.some.injEq, forall_eq', max_le_iff,
        le_refl, true_and, sub_nonpos]

theorem foldl_siblingWait_le_zero_iff {now : ℚ} (rows : List (String × ChildState)) (wait : ℚ) :
    rows.foldl (fun wait row =>
        if row.1 = name then wait else max wait (siblingWait row.2 now)) wait ≤ 0 ↔
      wait ≤ 0 ∧ ∀ row ∈ rows, row.1 ≠ name → row.2.IdleAt now := by
  induction rows generalizing wait with
  | nil => simp
  | cons row rows ih =>
      rw [List.foldl_cons, ih, List.forall_mem_cons]
      by_cases hname : row.1 = name
      · simp [hname]
      · simp [hname, siblingWait_le_zero_iff, and_assoc]

theorem siblingsIdleLocked_iff {now : ℚ} : L.siblingsIdleLocked name now = true ↔
    ∀ k c, L.children.get? k = some c → k ≠ name → c.IdleAt now := by
  rw [siblingsIdleLocked, decide_eq_true_eq, timeUntilSiblingsIdleLocked,
    foldl_siblingWait_le_zero_iff]
  simp only [le_refl, true_and, Prod.forall, Table.get?_eq_some_iff]

theorem siblingsIdleLocked_setBucket {b : TokenBucket} {now : ℚ} :
    (L.setBucket name b).siblingsIdleLocked name now = L.siblingsIdleLocked name now := by
  rw [siblingsIdleLocked, timeUntilSiblingsIdleLocked_setBucket, siblingsIdleLocked]

/-- The attempt borrows: the child, which is not penalised, cannot draw on its own
bucket, its siblings look idle, and the global bucket has the tokens. -/
theorem tryTakeLocked_borrows_iff {r : ℕ → ℚ} (hr : Monotone r)
    (hglobal : L.globalBucket.penaltyDeadline = ⊥) :
    (L.tryTakeLocked r name child n).1 = .granted true ↔
      ¬child.bucket.isPenalized (r 0) ∧ ¬(child.bucket.refillLocked (r 2)).Holds n ∧
        L.siblingsIdleLocked name (r 3) = true ∧
          (L.globalBucket.refillLocked (r 5)).Holds n := by
  have hlater : ¬child.bucket.isPenalized (r 0) → ¬child.bucket.isPenalized (r 1) :=
    fun hpen hpen' => hpen ((WithBot.coe_le_coe.mpr (hr (Nat.zero_le 1))).trans_lt hpen')
  have hown := child.bucket.tryTakeLocked_fst_iff (r 1) (r 2) n
  have hopen : (L.globalBucket.tryTakeLocked (r 4) (r 5) n).1 = true ↔
      (L.globalBucket.refillLocked (r 5)).Holds n := by
    rw [TokenBucket.tryTakeLocked_fst_iff, TokenBucket.isPenalized, hglobal]
    simp
  rcases tryTakeLocked_cases r L name child n with
    ⟨hpen, heq⟩ | ⟨hpen, b, g, htook, -, heq⟩ | ⟨hpen, b, g, htook, -, heq⟩ |
    ⟨hpen, b, htook, hidle, heq⟩ | ⟨hpen, b, g, htook, hidle, htaken, heq⟩ |
    ⟨hpen, b, g, htook, hidle, htaken, heq⟩
  · rw [heq]
    exact iff_of_false (by simp) fun h => h.1 hpen
  · rw [heq]
    exact iff_of_false (by simp) fun h => h.2.1 (hown.mp (by rw [htook])).2
  · rw [heq]
    exact iff_of_false (by simp) fun h => h.2.1 (hown.mp (by rw [htook])).2
  · rw [heq]
    refine iff_of_false (by simp) fun h => ?_
    rw [siblingsIdleLocked_setBucket, h.2.2.1] at hidle
    cases hidle
  · rw [heq]
    refine iff_of_true rfl ⟨hpen, fun hholds => ?_, ?_, hopen.mp (by rw [htaken])⟩
    · have htrue := hown.mpr ⟨hlater hpen, hholds⟩
      rw [htook] at htrue
      cases htrue
    · rwa [siblingsIdleLocked_setBucket] at hidle
  · rw [heq]
    refine iff_of_false (by simp) fun h => ?_
    have htrue := hopen.mpr h.2.2.2
    rw [htaken] at htrue
    cases htrue

/-- A pass grants what its attempt is granted. -/
theorem acquirePass_borrows_iff {r : ℕ → ℚ} {deadline : Option ℚ} :
    (L.acquirePass r name child n deadline).verdict = .granted true ↔
      (L.tryTakeLocked r name child n).1 = .granted true := by
  rcases L.acquirePass_cases r name child n deadline with
    ⟨borrowed, L₁, htake, hpass⟩ | ⟨returned, L₁, waitFor, L₂, htake, -, hpass⟩
  · rw [htake, hpass]
    simp
  · rw [htake]
    refine iff_of_false (fun hgranted => ?_) (by simp)
    rcases hpass with ⟨hpass, -⟩ | ⟨seconds, -, ⟨-, hpass⟩ | ⟨d, -, -, hpass⟩⟩ <;>
      simp [hpass] at hgranted

end HierarchicalLimiter

/-! ## Attempts -/

/-- What a pass of `acquire` starts from: the limiter, the caller it runs for, its child
and the readings to come. -/
structure Trial where
  limiter : HierarchicalLimiter
  caller : Waiter
  child : ChildState
  readings : ℕ → ℚ

def Trial.pass (T : Trial) : Pass :=
  T.limiter.acquirePass T.readings T.caller.child T.child T.caller.n T.caller.deadline

/-- The attempt borrows, as far as the tokens are concerned: the child, which is not
penalised, cannot draw on its own bucket, and the global bucket holds the tokens. -/
structure Trial.Short (T : Trial) : Prop where
  unpenalized : ¬T.child.bucket.isPenalized (T.readings 0)
  own : ¬(T.child.bucket.refillLocked (T.readings 2)).Holds T.caller.n
  enough : (T.limiter.globalBucket.refillLocked (T.readings 5)).Holds T.caller.n

/-- Every sibling of the caller looks idle at reading `t`. -/
def Trial.SiblingsIdle (T : Trial) (t : ℚ) : Prop :=
  ∀ name c, T.limiter.children.get? name = some c → name ≠ T.caller.child → c.IdleAt t

/-- A caller of a sibling, which is not penalised, is blocked. -/
def Trial.SiblingBlocked (T : Trial) (waiters : List Waiter) : Prop :=
  ∃ w ∈ waiters, w.child ≠ T.caller.child ∧ ¬T.limiter.Penalized w.child (T.readings 5)

/-- A grant past the siblings: none of them has an unpenalised caller blocked, and the
last request of each is at least one refill time old. -/
structure Trial.SparesSiblings (T : Trial) (waiters : List Waiter) : Prop where
  unblocked : ¬T.SiblingBlocked waiters
  idle : T.SiblingsIdle (T.readings 5)

instance (T : Trial) : Decidable T.Short :=
  decidable_of_iff (¬T.child.bucket.isPenalized (T.readings 0) ∧
    ¬(T.child.bucket.refillLocked (T.readings 2)).Holds T.caller.n ∧
    (T.limiter.globalBucket.refillLocked (T.readings 5)).Holds T.caller.n)
    ⟨fun h => ⟨h.1, h.2.1, h.2.2⟩, fun h => ⟨h.unpenalized, h.own, h.enough⟩⟩

instance (T : Trial) (t : ℚ) : Decidable (T.SiblingsIdle t) :=
  decidable_of_iff _ HierarchicalLimiter.siblingsIdleLocked_iff

instance (L : HierarchicalLimiter) (name : String) (t : ℚ) : Decidable (L.Penalized name t) :=
  decidable_of_iff ((L.children.get? name).any fun c => c.bucket.isPenalized t) <| by
    simp [HierarchicalLimiter.Penalized, Option.any_eq_true]

instance (T : Trial) (waiters : List Waiter) : Decidable (T.SiblingBlocked waiters) :=
  inferInstanceAs (Decidable (∃ w ∈ waiters, _ ∧ _))

instance (T : Trial) (waiters : List Waiter) : Decidable (T.SparesSiblings waiters) :=
  decidable_of_iff (¬T.SiblingBlocked waiters ∧ T.SiblingsIdle (T.readings 5))
    ⟨fun h => ⟨h.1, h.2⟩, fun h => ⟨h.unblocked, h.idle⟩⟩

theorem Trial.borrows_iff {T : Trial} (hr : Monotone T.readings)
    (hglobal : T.limiter.globalBucket.penaltyDeadline = ⊥) :
    T.pass.verdict = .granted true ↔ T.Short ∧ T.SiblingsIdle (T.readings 3) := by
  rw [pass, HierarchicalLimiter.acquirePass_borrows_iff,
    HierarchicalLimiter.tryTakeLocked_borrows_iff hr hglobal,
    HierarchicalLimiter.siblingsIdleLocked_iff]
  constructor
  · rintro ⟨hpen, hown, hidle, henough⟩
    exact ⟨⟨hpen, hown, henough⟩, hidle⟩
  · rintro ⟨hshort, hidle⟩
    exact ⟨hshort.unpenalized, hshort.own, hidle, hshort.enough⟩

namespace AcquireState

variable {clock : ℕ → ℚ} {s s' : AcquireState}

/-- The attempt of an event. -/
def trial (clock : ℕ → ℚ) (s : AcquireState) : AcquireEvent → Option Trial
  | .call childName n timeout =>
      let r := s.readings clock
      (s.limiter.children.get? childName).map fun child =>
        { limiter := s.limiter.recordAttempt childName (r 1)
          caller := ⟨childName, n, timeout.map (r 0 + ·), r 0, false⟩
          child := { child with lastAttempt := some (r 1) }
          readings := fun k => r (2 + k) }
  | .wake i => do
      let w ← s.waiters[i]?
      let child ← s.limiter.children.get? w.child
      some ⟨s.limiter, w, child, s.readings clock⟩
  | _ => none

theorem callPass_eq_trial (clock : ℕ → ℚ) (s : AcquireState) (childName : String) (n : ℚ)
    (timeout : Option ℚ) :
    s.callPass clock childName n timeout =
      (s.trial clock (.call childName n timeout)).map fun T => (T.caller, T.pass) := by
  cases hget : s.limiter.children.get? childName with
  | none => simp [callPass, trial, hget]
  | some child => simp [callPass, trial, hget, Trial.pass]

theorem wakePass_eq_trial (clock : ℕ → ℚ) (s : AcquireState) (i : ℕ) :
    s.wakePass clock i = (s.trial clock (.wake i)).map fun T => (T.caller, T.pass) := by
  cases hw : s.waiters[i]? with
  | none => simp [wakePass, trial, hw]
  | some w =>
      cases hget : s.limiter.children.get? w.child with
      | none => simp [wakePass, trial, hw, hget]
      | some child => simp [wakePass, trial, hw, hget, Trial.pass]

/-- A pass starts from the global bucket as it is, and reads the clock in order. -/
theorem trial_spec (hclock : Monotone clock) {e : AcquireEvent} {T : Trial}
    (hT : s.trial clock e = some T) :
    T.limiter.globalBucket = s.limiter.globalBucket ∧ Monotone T.readings := by
  cases e with
  | call childName n timeout =>
      obtain ⟨child, -, rfl⟩ := Option.map_eq_some_iff.mp hT
      exact ⟨rfl, fun i j hij => readings_monotone hclock s (by omega)⟩
  | wake i =>
      obtain ⟨w, -, hrest⟩ := Option.bind_eq_some_iff.mp hT
      obtain ⟨child, -, hrest⟩ := Option.bind_eq_some_iff.mp hrest
      obtain rfl := Option.some.inj hrest
      exact ⟨rfl, readings_monotone hclock s⟩
  | penalize child seconds => cases hT
  | snapshot => cases hT

/-! ## Runs -/

/-- One event; as `acquire` checks no `n`, a caller asks for any number of tokens. -/
def openStep (clock : ℕ → ℚ) (s : AcquireState) : AcquireEvent → Option AcquireState
  | .call child n timeout => s.call clock child n timeout
  | e => s.step clock e

/-- The machine of a limiter whose callers ask for any number of tokens. -/
def openMachine (clock : ℕ → ℚ) : Machine AcquireState AcquireEvent := ⟨openStep clock⟩

/-- Nobody penalises the global bucket. -/
def GlobalUnpenalized (s : AcquireState) : Prop := s.limiter.globalBucket.penaltyDeadline = ⊥

theorem globalUnpenalized_pass {T : Trial} (h : T.limiter.globalBucket.penaltyDeadline = ⊥) :
    T.pass.limiter.globalBucket.penaltyDeadline = ⊥ :=
  HierarchicalLimiter.acquirePass_globalBucket (P := (·.penaltyDeadline = ⊥))
    (fun b now hb => (b.refillLocked_penaltyDeadline now).trans hb)
    (fun b now refillNow hb => (b.penaltyDeadline_tryTakeLocked now refillNow _).trans hb)
    h T.readings T.caller.child T.child T.caller.deadline

theorem globalUnpenalized_step (hclock : Monotone clock) (h : s.GlobalUnpenalized)
    {e : AcquireEvent} (hstep : openStep clock s e = some s') : s'.GlobalUnpenalized := by
  cases e with
  | call childName n timeout =>
      have hpass := callPass_eq_trial clock s childName n timeout
      cases hT : s.trial clock (.call childName n timeout) with
      | none => simp [openStep, call, hpass, hT] at hstep
      | some T =>
          simp only [openStep, call, hpass, hT, Option.map_some, Option.some.injEq] at hstep
          subst hstep
          exact globalUnpenalized_pass ((congrArg _ (trial_spec hclock hT).1).trans h)
  | wake i =>
      have hpass := wakePass_eq_trial clock s i
      cases hT : s.trial clock (.wake i) with
      | none => simp [openStep, step, wake, hpass, hT] at hstep
      | some T =>
          simp only [openStep, step, wake, hpass, hT, Option.map_some, Option.some.injEq] at hstep
          subst hstep
          exact globalUnpenalized_pass ((congrArg _ (trial_spec hclock hT).1).trans h)
  | penalize child seconds =>
      simp only [openStep, step, HierarchicalLimiter.penalize] at hstep
      cases hget : s.limiter.children.get? child with
      | none => simp [hget] at hstep
      | some c =>
          simp only [hget, Option.some.injEq] at hstep
          subst hstep
          exact h
  | snapshot =>
      obtain rfl := Option.some.inj hstep
      exact (TokenBucket.refillLocked_penaltyDeadline _ _).trans h

/-- A borrowed grant displaces no sibling. -/
def NeverDisplaces (clock : ℕ → ℚ) (s : AcquireState) (e : AcquireEvent) : Prop :=
  ∀ T ∈ s.trial clock e, T.pass.verdict = .granted true → T.SparesSiblings s.waiters

/-- When the siblings look idle although one of them has a caller blocked, the attempt
is not short of its own tokens alone. -/
def Attentive (clock : ℕ → ℚ) (s : AcquireState) (e : AcquireEvent) : Prop :=
  ∀ T ∈ s.trial clock e, T.SiblingsIdle (T.readings 3) → T.SiblingBlocked s.waiters → ¬T.Short

instance (clock : ℕ → ℚ) (s : AcquireState) (e : AcquireEvent) :
    Decidable (NeverDisplaces clock s e) :=
  inferInstanceAs (Decidable (∀ T ∈ s.trial clock e, _ → _))

instance (clock : ℕ → ℚ) (s : AcquireState) (e : AcquireEvent) :
    Decidable (Attentive clock s e) :=
  inferInstanceAs (Decidable (∀ T ∈ s.trial clock e, _ → _ → ¬_))

theorem neverDisplaces_iff_attentive (hclock : Monotone clock) (h : s.GlobalUnpenalized)
    (e : AcquireEvent) : NeverDisplaces clock s e ↔ Attentive clock s e := by
  refine forall₂_congr fun T hT => ?_
  obtain ⟨hglobal, hr⟩ := trial_spec hclock hT
  rw [Trial.borrows_iff hr ((congrArg _ hglobal).trans h)]
  constructor
  · intro hspares hidle hblocked hshort
    exact (hspares ⟨hshort, hidle⟩).unblocked hblocked
  · rintro hattentive ⟨hshort, hidle⟩
    refine ⟨fun hblocked => hattentive hidle hblocked hshort, fun name c hget hne => ?_⟩
    exact (hidle name c hget hne).mono (hr (by omega))

/-- In a run no borrowed grant displaces a sibling exactly when every attempt that
overlooks a blocked caller of a sibling is refused, or served from the child's own
bucket, for the tokens it finds. -/
theorem neverDisplaces_throughout_iff {globalRate : ℚ} {children : Table String ℚ}
    (hclock : Monotone clock) {l : List AcquireEvent}
    (hrun : (openMachine clock).run (create globalRate children clock) l = some s) :
    (openMachine clock).Along (NeverDisplaces clock) (create globalRate children clock) l ↔
      (openMachine clock).Along (Attentive clock) (create globalRate children clock) l :=
  Machine.along_iff_of_invariant (P := GlobalUnpenalized)
    (fun _ _ _ h _ hstep => globalUnpenalized_step hclock h hstep)
    (fun _ e _ h _ => neverDisplaces_iff_attentive hclock h e) rfl hrun

/-- A caller of `pypi.org` borrows while nobody waits; once a caller of the other child
is blocked, it waits for its own tokens. -/
theorem borrower_waits_behind_recent_sibling :
    ∃ s, (openMachine fun _ => 0).run
        (create 120 ⟨[("pypi.org", 60), ("files.pythonhosted.org", 120)], by decide⟩ fun _ => 0)
        [.call "pypi.org" 1 none, .call "pypi.org" 1 none,
          .call "files.pythonhosted.org" 2 none, .call "pypi.org" 1 none] = some s ∧
      s.grants.map (·.borrowed) = [true, false] ∧
      s.waiters.map (·.child) = ["files.pythonhosted.org", "pypi.org"] ∧
      (openMachine fun _ => 0).Along (NeverDisplaces fun _ => 0)
        (create 120 ⟨[("pypi.org", 60), ("files.pythonhosted.org", 120)], by decide⟩ fun _ => 0)
        [.call "pypi.org" 1 none, .call "pypi.org" 1 none,
          .call "files.pythonhosted.org" 2 none, .call "pypi.org" 1 none] := by
  have hcompute : ((openMachine fun _ => 0).run
      (create 120 ⟨[("pypi.org", 60), ("files.pythonhosted.org", 120)], by decide⟩ fun _ => 0)
      [.call "pypi.org" 1 none, .call "pypi.org" 1 none,
        .call "files.pythonhosted.org" 2 none, .call "pypi.org" 1 none]).map (fun s =>
          (s.grants.map (·.borrowed), s.waiters.map (·.child))) =
      some ([true, false], ["files.pythonhosted.org", "pypi.org"]) := by
    decide +kernel
  obtain ⟨s, hrun, hfacts⟩ := Option.map_eq_some_iff.mp hcompute
  obtain ⟨hgrants, hwaiters⟩ := Prod.mk.inj hfacts
  refine ⟨s, hrun, hgrants, hwaiters, ?_⟩
  exact (neverDisplaces_throughout_iff monotone_const hrun).mpr (by decide +kernel)

/-- The clock that stands still for the first calls and then jumps past the refill time
of `files.pythonhosted.org`. -/
def jumpingClock (k : ℕ) : ℚ := if k < 51 then 0 else 3 / 5

theorem jumpingClock_monotone : Monotone jumpingClock := by
  intro i j hij
  unfold jumpingClock
  split_ifs <;> first | omega | norm_num

/-- A caller of `files.pythonhosted.org` is blocked on the global bucket; more than its
refill time of half a second later a caller of `pypi.org`, whose own bucket is empty,
borrows the token that has come in. -/
theorem borrower_displaces_blocked_sibling :
    Monotone jumpingClock ∧
      ∃ s, (openMachine jumpingClock).run
          (create 126 ⟨[("pypi.org", 6), ("files.pythonhosted.org", 120)], by decide⟩
            jumpingClock)
          [.call "pypi.org" 1 none, .call "pypi.org" 1 none,
            .call "files.pythonhosted.org" 2 none, .call "pypi.org" 1 none] = some s ∧
        s.grants.head?.map (fun g => (g.child, g.borrowed)) = some ("pypi.org", true) ∧
        s.waiters.map (·.child) = ["files.pythonhosted.org"] ∧
        ¬(openMachine jumpingClock).Along (NeverDisplaces jumpingClock)
          (create 126 ⟨[("pypi.org", 6), ("files.pythonhosted.org", 120)], by decide⟩
            jumpingClock)
          [.call "pypi.org" 1 none, .call "pypi.org" 1 none,
            .call "files.pythonhosted.org" 2 none, .call "pypi.org" 1 none] := by
  have hcompute : ((openMachine jumpingClock).run
      (create 126 ⟨[("pypi.org", 6), ("files.pythonhosted.org", 120)], by decide⟩ jumpingClock)
      [.call "pypi.org" 1 none, .call "pypi.org" 1 none,
        .call "files.pythonhosted.org" 2 none, .call "pypi.org" 1 none]).map (fun s =>
          (s.grants.head?.map (fun g => (g.child, g.borrowed)), s.waiters.map (·.child))) =
      some (some ("pypi.org", true), ["files.pythonhosted.org"]) := by
    decide +kernel
  obtain ⟨s, hrun, hfacts⟩ := Option.map_eq_some_iff.mp hcompute
  obtain ⟨hgrants, hwaiters⟩ := Prod.mk.inj hfacts
  exact ⟨jumpingClock_monotone, s, hrun, hgrants, hwaiters, by decide +kernel⟩

end AcquireState

end RerollSync.RateLimit
