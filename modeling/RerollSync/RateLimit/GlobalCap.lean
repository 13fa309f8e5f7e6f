import RerollSync.RateLimit.Acquire

/-!
# The global rate cap

Every grant, reserved or borrowed, is a withdrawal from the global bucket, so
the global bucket is a metered account whose log is the list of grants.  The
invariant is carried through one attempt, one pass of the acquire loop and one
event, and then through every run.
-/

namespace RerollSync.RateLimit

open RerollSync.Support

namespace TokenBucket

/-- The bucket as a metered account with withdrawals `log`. -/
def MeteredBy (b : TokenBucket) (log : List (ℚ × ℚ)) : Prop :=
  Metered b.burst b.ratePerSecond b.tokens b.lastRefill log

theorem MeteredBy.refillLocked {b : TokenBucket} {log : List (ℚ × ℚ)} {now : ℚ}
    (h : b.MeteredBy log) (hwf : b.Wf now) : (b.refillLocked now).MeteredBy log := by
  have hstep := Metered.refill h hwf.rate_nonneg hwf.lastRefill_le
  rw [MeteredBy, refillLocked_burst, refillLocked_ratePerSecond,
    refillLocked_tokens hwf.lastRefill_le hwf.tokens_le,
    refillLocked_lastRefill hwf.lastRefill_le]
  exact hstep

/-- A take attempt logs its withdrawal, if it made one, at its refill reading. -/
theorem MeteredBy.tryTakeLocked {b b' : TokenBucket} {log : List (ℚ × ℚ)}
    {now refillNow n : ℚ} {took : Bool} (h : b.MeteredBy log) (hwf : b.Wf refillNow)
    (hn : 0 ≤ n) (htake : b.tryTakeLocked now refillNow n = (took, b')) :
    b'.MeteredBy (if took then (refillNow, n) :: log else log) := by
  rcases tryTakeLocked_cases b now refillNow n with ⟨-, heq⟩ | ⟨-, -, heq⟩ | ⟨-, -, htok, heq⟩
  · obtain ⟨rfl, rfl⟩ := Prod.mk.inj (heq.symm.trans htake)
    exact h
  · obtain ⟨rfl, rfl⟩ := Prod.mk.inj (heq.symm.trans htake)
    exact h.refillLocked hwf
  · obtain ⟨rfl, rfl⟩ := Prod.mk.inj (heq.symm.trans htake)
    have hfull := h.refillLocked hwf
    have hlast := refillLocked_lastRefill hwf.lastRefill_le
    have htaken := Metered.take hfull (by simpa using hwf.rate_nonneg) hn htok
    rw [hlast] at htaken
    rw [if_pos rfl, MeteredBy, hlast]
    exact htaken

theorem tryTakeLocked_burst {b b' : TokenBucket} {now refillNow n : ℚ} {took : Bool}
    (htake : b.tryTakeLocked now refillNow n = (took, b')) :
    b'.burst = b.burst ∧ b'.ratePerSecond = b.ratePerSecond ∧
      b'.penaltyDeadline = b.penaltyDeadline := by
  rcases tryTakeLocked_cases b now refillNow n with ⟨-, heq⟩ | ⟨-, -, heq⟩ | ⟨-, -, -, heq⟩ <;>
    obtain ⟨rfl, rfl⟩ := Prod.mk.inj (heq.symm.trans htake) <;> simp

end TokenBucket

/-- The limiter at reading `now` after granting `log`: well-formed, with the
configured global burst and rate, and metered by the log. -/
structure Accounted (burst rate : ℚ) (L : HierarchicalLimiter) (now : ℚ)
    (log : List (ℚ × ℚ)) : Prop where
  wf : L.Wf now
  burst_eq : L.globalBucket.burst = burst
  rate_eq : L.globalBucket.ratePerSecond = rate
  metered : L.globalBucket.MeteredBy log

namespace Accounted

variable {burst rate : ℚ} {L : HierarchicalLimiter} {now : ℚ} {log : List (ℚ × ℚ)}

theorem mono (h : Accounted burst rate L now log) {later : ℚ} (hle : now ≤ later) :
    Accounted burst rate L later log :=
  { h with wf := h.wf.mono hle }

theorem updateChild (h : Accounted burst rate L now log) {name : String}
    {f : ChildState → ChildState}
    (hf : ∀ c, L.children.get? name = some c → (f c).bucket.Wf now) :
    Accounted burst rate (L.updateChild name f) now log :=
  { h with wf := h.wf.updateChild hf }

/-- Counters and attempt times are bookkeeping: updating them changes no bucket. -/
theorem updateBookkeeping (h : Accounted burst rate L now log) {name : String}
    {f : ChildState → ChildState} (hf : ∀ c, (f c).bucket = c.bucket) :
    Accounted burst rate (L.updateChild name f) now log :=
  h.updateChild fun c hc => by
    rw [hf c]
    exact h.wf.children name c hc

theorem countAcquired (h : Accounted burst rate L now log) (name : String) :
    Accounted burst rate (L.countAcquired name) now log :=
  h.updateBookkeeping fun _ => rfl

theorem countDenied (h : Accounted burst rate L now log) (name : String) :
    Accounted burst rate (L.countDenied name) now log :=
  h.updateBookkeeping fun _ => rfl

theorem recordAttempt (h : Accounted burst rate L now log) (name : String) (t : ℚ) :
    Accounted burst rate (L.recordAttempt name t) now log :=
  h.updateBookkeeping fun _ => rfl

theorem setBucket (h : Accounted burst rate L now log) (name : String) {b : TokenBucket}
    (hb : b.Wf now) : Accounted burst rate (L.setBucket name b) now log :=
  h.updateChild fun _ _ => hb

theorem setGlobal (h : Accounted burst rate L now log) {b : TokenBucket} {log' : List (ℚ × ℚ)}
    (hb : b.Wf now) (hpen : b.penaltyDeadline = ⊥) (hburst : b.burst = burst)
    (hrate : b.ratePerSecond = rate) (hmetered : b.MeteredBy log') :
    Accounted burst rate (L.setGlobal b) now log' where
  wf := h.wf.setGlobal hb hpen
  burst_eq := hburst
  rate_eq := hrate
  metered := hmetered

/-- The global take of an attempt, on either path. -/
theorem takeGlobal (h : Accounted burst rate L now log) {g : TokenBucket} {t n : ℚ} {ok : Bool}
    (hn : 0 ≤ n) (htake : L.globalBucket.tryTakeLocked t now n = (ok, g)) :
    Accounted burst rate (L.setGlobal g) now (if ok then (now, n) :: log else log) := by
  obtain ⟨hburst, hrate, hpen⟩ := TokenBucket.tryTakeLocked_burst htake
  have hwf : g.Wf now := by
    have htaken : (L.globalBucket.tryTakeLocked t now n).2.Wf now :=
      h.wf.globalBucket.tryTakeLocked hn
    rwa [htake] at htaken
  exact h.setGlobal hwf (hpen.trans h.wf.global_unpenalized) (hburst.trans h.burst_eq)
    (hrate.trans h.rate_eq) (h.metered.tryTakeLocked h.wf.globalBucket hn htake)

/-- What an attempt adds to the log. -/
def attemptLog (t n : ℚ) : TakeResult → List (ℚ × ℚ)
  | .granted _ => [(t, n)]
  | .refused _ => []

/-- One attempt keeps the account, logging its grant at reading `5`. -/
theorem tryTakeLocked (h : Accounted burst rate L now log) {clock : ℕ → ℚ}
    (hclock : Monotone clock) (hnow : now ≤ clock 0) (childName : String) {child : ChildState}
    (hchild : child.bucket.Wf now) {n : ℚ} (hn : 0 ≤ n) :
    Accounted burst rate (L.tryTakeLocked clock childName child n).2 (clock 5)
      (attemptLog (clock 5) n (L.tryTakeLocked clock childName child n).1 ++ log) := by
  have h5 := h.mono (le_trans hnow (hclock (Nat.zero_le 5)))
  have hown : ∀ {took : Bool} {bucket : TokenBucket},
      child.bucket.tryTakeLocked (clock 1) (clock 2) n = (took, bucket) → bucket.Wf (clock 5) := by
    intro took bucket heq
    have hwf2 : child.bucket.Wf (clock 2) := hchild.mono (le_trans hnow (hclock (by omega)))
    have htaken : (child.bucket.tryTakeLocked (clock 1) (clock 2) n).2.Wf (clock 5) :=
      (hwf2.tryTakeLocked hn).mono (hclock (show 2 ≤ 5 by omega))
    rwa [heq] at htaken
  rcases HierarchicalLimiter.tryTakeLocked_cases clock L childName child n with
    ⟨-, heq⟩ | ⟨-, bucket, g, hb, hg, heq⟩ | ⟨-, bucket, g, hb, hg, heq⟩ |
    ⟨-, bucket, hb, -, heq⟩ | ⟨-, bucket, g, hb, -, hg, heq⟩ | ⟨-, bucket, g, hb, -, hg, heq⟩
  · rw [heq]
    exact h5
  · rw [heq]
    exact (h5.setBucket _ (hown hb)).takeGlobal hn hg
  · rw [heq]
    exact (h5.setBucket _ ((hown hb).returnTokens hn)).takeGlobal hn hg
  · rw [heq]
    exact h5.setBucket _ (hown hb)
  · rw [heq]
    exact (h5.setBucket _ (hown hb)).takeGlobal hn hg
  · rw [heq]
    exact (h5.setBucket _ (hown hb)).takeGlobal hn hg

/-- Computing a waiting time refills buckets and grants nothing. -/
theorem timeUntilLocked (h : Accounted burst rate L now log) {clock : ℕ → ℚ}
    (hclock : Monotone clock) (hnow : now ≤ clock 0) (childName : String) {child : ChildState}
    (hchild : child.bucket.Wf now) (n : ℚ) :
    Accounted burst rate (L.timeUntilLocked clock childName child n).2 (clock 4) log := by
  have h3 := h.mono (le_trans hnow (hclock (Nat.zero_le 3)))
  have hown : (child.bucket.timeUntilAvailableLocked (clock 0) (clock 1) n).2.Wf (clock 3) :=
    ((hchild.mono (le_trans hnow (hclock (Nat.zero_le 1)))).timeUntilAvailableLocked).mono
      (hclock (by omega))
  have hbase := h3.setBucket childName hown
  rw [HierarchicalLimiter.timeUntilLocked_snd]
  refine Accounted.mono ?_ (hclock (show 3 ≤ 4 by omega))
  rcases TokenBucket.timeUntilAvailableLocked_snd L.globalBucket (clock 2) (clock 3) n with
    heq | heq
  · rw [heq]
    exact hbase.setGlobal h3.wf.globalBucket h3.wf.global_unpenalized h3.burst_eq h3.rate_eq
      h3.metered
  · rw [heq]
    exact hbase.setGlobal h3.wf.globalBucket.refillLocked
      (by simpa using h3.wf.global_unpenalized) (by simpa using h3.burst_eq)
      (by simpa using h3.rate_eq) (h3.metered.refillLocked h3.wf.globalBucket)

end Accounted

namespace AcquireState

/-- The grants of a state as withdrawals from the global bucket. -/
def grantLog (grants : List Grant) : List (ℚ × ℚ) := grants.map fun g => (g.time, g.n)

variable {burst rate : ℚ} {L : HierarchicalLimiter} {now : ℚ} {log : List (ℚ × ℚ)}

/-- One pass of the acquire loop keeps the account. -/
theorem accounted_acquirePass (h : Accounted burst rate L now log) {r : ℕ → ℚ}
    (hr : Monotone r) (hnow : now ≤ r 0) {w : Waiter} {child : ChildState}
    (hchild : child.bucket.Wf now) (hn : 0 ≤ w.n) :
    Accounted burst rate (L.acquirePass r w.child child w.n w.deadline).limiter (r 12)
      (grantLog (passGrants r w (L.acquirePass r w.child child w.n w.deadline).verdict) ++
        log) := by
  have htake := h.tryTakeLocked hr hnow w.child hchild hn
  rcases L.acquirePass_cases r w.child child w.n w.deadline with
    ⟨borrowed, L₁, hres, hpass⟩ | ⟨returned, L₁, waitFor, L₂, hres, htime, hpass⟩
  · rw [hres] at htake
    rw [hpass]
    exact (htake.countAcquired w.child).mono (hr (show 5 ≤ 12 by omega))
  · rw [hres] at htake
    have hchild₁ : ((L₁.children.get? w.child).getD child).bucket.Wf (r 5) := by
      cases hget : L₁.children.get? w.child with
      | none => exact hchild.mono (le_trans hnow (hr (by omega)))
      | some c => exact htake.wf.children w.child c hget
    have hlater : Monotone fun k => r (6 + k) := fun i j hij => hr (by omega)
    have hwait := htake.timeUntilLocked hlater (hr (show 5 ≤ 6 + 0 by omega)) w.child hchild₁ w.n
    rw [htime] at hwait
    have hwait12 := hwait.mono (hr (show 6 + 4 ≤ 12 by omega))
    rcases hpass with ⟨hpass, -⟩ | ⟨seconds, -, ⟨-, hpass⟩ | ⟨d, -, -, hpass⟩⟩
    · rw [hpass]
      exact hwait12.countDenied w.child
    · rw [hpass]
      exact hwait12
    · rw [hpass]
      exact hwait12

/-- The invariant of a run: the limiter is accounted for by the grants made, and
every blocked caller asked for a positive number of tokens. -/
structure Capped (burst rate : ℚ) (clock : ℕ → ℚ) (s : AcquireState) : Prop where
  accounted : Accounted burst rate s.limiter (clock s.ticks) (grantLog s.grants)
  waiting_pos : ∀ w ∈ s.waiters, 0 < w.n

theorem grantLog_append (gs gs' : List Grant) :
    grantLog (gs ++ gs') = grantLog gs ++ grantLog gs' := by
  simp [grantLog]

section Steps

variable {clock : ℕ → ℚ} (hclock : Monotone clock)
include hclock

theorem readings_monotone (s : AcquireState) : Monotone (s.readings clock) :=
  fun _ _ hij => hclock (by omega)

theorem capped_call {s s' : AcquireState} (h : Capped burst rate clock s) {childName : String}
    {n : ℚ} {timeout : Option ℚ} (hn : 0 < n)
    (hcall : s.call clock childName n timeout = some s') : Capped burst rate clock s' := by
  have hpos := waiting_pos_call h.waiting_pos hn hcall
  cases hget : s.limiter.children.get? childName with
  | none => simp [call, callPass, hget] at hcall
  | some child =>
      simp only [call, callPass, hget, Option.some.injEq] at hcall
      subst hcall
      let r := s.readings clock
      let w : Waiter := ⟨childName, n, timeout.map (r 0 + ·), r 0, false⟩
      have hr := readings_monotone hclock s
      have hentered := h.accounted.recordAttempt childName (r 1)
      have hown : ({ child with lastAttempt := some (r 1) } : ChildState).bucket.Wf _ :=
        h.accounted.wf.children childName child hget
      have hpass := accounted_acquirePass hentered (r := fun k => r (2 + k))
        (fun i j hij => hr (by omega)) (hclock (by omega)) (w := w) hown hn.le
      refine ⟨?_, hpos⟩
      rw [grantLog_append]
      exact hpass.mono (hclock (show s.ticks + (2 + 12) ≤ s.ticks + 16 by omega))

theorem capped_wake {s s' : AcquireState} (h : Capped burst rate clock s) {i : ℕ}
    (hwake : s.wake clock i = some s') : Capped burst rate clock s' := by
  have hpos := waiting_pos_wake h.waiting_pos hwake
  cases hw : s.waiters[i]? with
  | none => simp [wake, wakePass, hw] at hwake
  | some w =>
      cases hget : s.limiter.children.get? w.child with
      | none => simp [wake, wakePass, hw, hget] at hwake
      | some child =>
          simp only [wake, wakePass, hw, hget, Option.some.injEq] at hwake
          subst hwake
          have hn : 0 < w.n := h.waiting_pos w (List.mem_of_getElem? hw)
          have hpass := accounted_acquirePass h.accounted (readings_monotone hclock s)
            (hclock (by omega)) (w := w) (h.accounted.wf.children w.child child hget) hn.le
          refine ⟨?_, hpos⟩
          rw [grantLog_append]
          exact hpass.mono (hclock (show s.ticks + 12 ≤ s.ticks + 16 by omega))

/-- Every event keeps the invariant. -/
theorem capped_step {s s' : AcquireState} {e : AcquireEvent} (h : Capped burst rate clock s)
    (hstep : step clock s e = some s') : Capped burst rate clock s' := by
  cases e with
  | call child n timeout =>
      simp only [step] at hstep
      split at hstep
      next hn => exact capped_call hclock h hn hstep
      next => cases hstep
  | wake i => exact capped_wake hclock h hstep
  | penalize child seconds =>
      simp only [step, HierarchicalLimiter.penalize] at hstep
      cases hget : s.limiter.children.get? child with
      | none => simp [hget] at hstep
      | some c =>
          simp only [hget, Option.some.injEq] at hstep
          subst hstep
          have hwf := (h.accounted.wf.children child c hget).penalize seconds
          exact ⟨(h.accounted.setBucket _ hwf).mono (hclock (Nat.le_succ _)), h.waiting_pos⟩
  | snapshot =>
      simp only [step, HierarchicalLimiter.snapshot, Option.some.injEq] at hstep
      subst hstep
      have hlater : ∀ k, clock s.ticks ≤ s.readings clock k := fun k => hclock (by omega)
      have hglobal := h.accounted.wf.globalBucket.mono (hlater s.limiter.children.keys.length)
      refine ⟨⟨⟨?_, ?_, ?_⟩, ?_, ?_, ?_⟩, h.waiting_pos⟩
      · exact hglobal.refillLocked.mono (hclock (by dsimp only; omega))
      · simpa [HierarchicalLimiter.snapshotRefill] using h.accounted.wf.global_unpenalized
      · intro name c hc
        simp only [HierarchicalLimiter.snapshotRefill, Table.get?_modify,
          Option.map_eq_some_iff] at hc
        obtain ⟨old, hold, rfl⟩ := hc
        have hwf := (h.accounted.wf.children name old hold).mono
          (hlater (s.limiter.children.keys.idxOf name))
        have hidx := List.idxOf_le_length (a := name) (l := s.limiter.children.keys)
        exact hwf.refillLocked.mono (hclock (by dsimp only; omega))
      · simpa [HierarchicalLimiter.snapshotRefill] using h.accounted.burst_eq
      · simpa [HierarchicalLimiter.snapshotRefill] using h.accounted.rate_eq
      · exact h.accounted.metered.refillLocked hglobal

end Steps

theorem capped_create {globalRate : ℚ} {children : Table String ℚ} {clock : ℕ → ℚ}
    (hclock : Monotone clock) (hglobal : 0 ≤ globalRate)
    (hchildren : ∀ name rate, children.get? name = some rate → 0 ≤ rate) :
    Capped (oneSecondBurst globalRate) (globalRate / 60) clock
      (create globalRate children clock) where
  accounted :=
    { wf := HierarchicalLimiter.Wf.create hglobal hchildren hclock
      burst_eq := rfl
      rate_eq := rfl
      metered := Metered.full (le_trans zero_le_one (le_max_left _ _))
        (div_nonneg hglobal (by norm_num)) _ }
  waiting_pos := by simp [create]

/-- Every state of every run is capped. -/
theorem capped_run {globalRate : ℚ} {children : Table String ℚ} {clock : ℕ → ℚ}
    (hclock : Monotone clock) (hglobal : 0 ≤ globalRate)
    (hchildren : ∀ name rate, children.get? name = some rate → 0 ≤ rate)
    {events : List AcquireEvent} {s : AcquireState}
    (hrun : (machine clock).run (create globalRate children clock) events = some s) :
    Capped (oneSecondBurst globalRate) (globalRate / 60) clock s :=
  Machine.run_invariant (M := machine clock)
    (P := Capped (oneSecondBurst globalRate) (globalRate / 60) clock)
    (fun _ _ _ h hstep => capped_step hclock h hstep)
    (capped_create hclock hglobal hchildren) hrun

/-- The tokens granted at clock times in the window `[t, t + w]`. -/
def grantedIn (grants : List Grant) (t w : ℚ) : ℚ :=
  ((grants.filter fun g => t ≤ g.time ∧ g.time ≤ t + w).map Grant.n).sum

theorem grantedIn_eq_amountIn (grants : List Grant) (t w : ℚ) :
    grantedIn grants t w = amountIn (grantLog grants) t (t + w) := by
  rw [grantedIn, amountIn, grantLog, List.filter_map, List.map_map]
  rfl

/-- Over every run, the grants of any window stay within the global burst plus
the global rate times the window's length, and every bucket holds between zero
and its burst. -/
theorem grants_within_global_rate {globalRate : ℚ} {children : Table String ℚ}
    {clock : ℕ → ℚ} (hclock : Monotone clock) (hglobal : 0 ≤ globalRate)
    (hchildren : ∀ name rate, children.get? name = some rate → 0 ≤ rate)
    {events : List AcquireEvent} {s : AcquireState}
    (hrun : (machine clock).run (create globalRate children clock) events = some s) :
    (∀ t w, 0 ≤ w →
      grantedIn s.grants t w ≤ oneSecondBurst globalRate + globalRate / 60 * w) ∧
    (0 ≤ s.limiter.globalBucket.tokens ∧
      s.limiter.globalBucket.tokens ≤ s.limiter.globalBucket.burst) ∧
    (∀ name c, s.limiter.children.get? name = some c →
      0 ≤ c.bucket.tokens ∧ c.bucket.tokens ≤ c.bucket.burst) := by
  have hcapped := capped_run hclock hglobal hchildren hrun
  have hacc := hcapped.accounted
  refine ⟨?_, ⟨hacc.wf.globalBucket.tokens_nonneg, hacc.wf.globalBucket.tokens_le⟩, ?_⟩
  · intro t w hw
    have hwindow := hacc.metered.window t (t + w) (le_add_of_nonneg_right hw)
    rw [hacc.burst_eq, hacc.rate_eq, add_sub_cancel_left] at hwindow
    rw [grantedIn_eq_amountIn]
    exact hwindow
  · intro name c hc
    have hwf := hacc.wf.children name c hc
    exact ⟨hwf.tokens_nonneg, hwf.tokens_le⟩

/-- A run with a reserved grant, a borrowed grant and a refusal under a penalty. -/
theorem grants_within_global_rate_two_children :
    ∃ s, (machine fun k => (k : ℚ)).run
        (create 120 ⟨[("pypi.org", 60), ("files.pythonhosted.org", 60)], by decide⟩
          fun k => (k : ℚ))
        [.call "pypi.org" 1 none, .call "pypi.org" 2 none,
          .penalize "files.pythonhosted.org" 30,
          .call "files.pythonhosted.org" 1 (some 0)] = some s ∧
      s.grants.length = 2 ∧
      ∀ t w, 0 ≤ w → grantedIn s.grants t w ≤ oneSecondBurst 120 + 120 / 60 * w := by
  have hlength : ((machine fun k => (k : ℚ)).run
      (create 120 ⟨[("pypi.org", 60), ("files.pythonhosted.org", 60)], by decide⟩
        fun k => (k : ℚ))
      [.call "pypi.org" 1 none, .call "pypi.org" 2 none,
        .penalize "files.pythonhosted.org" 30,
        .call "files.pythonhosted.org" 1 (some 0)]).map (fun s => s.grants.length) = some 2 := by
    decide +kernel
  obtain ⟨s, hrun, hlength⟩ := Option.map_eq_some_iff.mp hlength
  refine ⟨s, hrun, hlength, fun t w hw => ?_⟩
  exact (grants_within_global_rate Nat.mono_cast (by norm_num)
    (Table.forall_get?_iff.mpr (by simp)) hrun).1 t w hw

end AcquireState

end RerollSync.RateLimit
