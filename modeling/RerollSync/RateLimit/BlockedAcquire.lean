import Mathlib.Data.Prod.Lex
import Mathlib.Logic.Relation
import RerollSync.RateLimit.FixedClock

/-!
# Blocked callers at a fixed clock reading

Whether callers blocked in `acquire` spin.  The clock is held at `t` from some
reachable state on, and the callers that can run are those whose wait has run
out or who were notified.  Two things make them run forever at `t`: a caller
that waits zero seconds, and two callers that give their reserve tokens back
and so wake each other.  Without these, every pass makes progress: it removes a
caller, or removes the one caller that can notify, or puts a caller to sleep.
-/

namespace RerollSync.RateLimit

open RerollSync.Support

/-! ## Chains of steps -/

section Chains

variable {σ : Type*} {next : σ → σ → Prop}

/-- A predicate from which a step always leads back into it has infinite chains. -/
theorem not_acc_of_progress {P : σ → Prop} (h : ∀ s, P s → ∃ s', next s s' ∧ P s')
    {s : σ} (hs : P s) : ¬Acc (flip next) s := by
  intro hacc
  induction hacc with
  | intro s _ ih =>
      obtain ⟨s', hnext, hs'⟩ := h s hs
      exact ih s' hnext hs'

theorem acc_of_reaches {s s' : σ} (hreach : Relation.ReflTransGen next s s')
    (hacc : Acc (flip next) s) : Acc (flip next) s' := by
  induction hreach with
  | refl => exact hacc
  | tail _ hnext ih => exact ih.inv hnext

/-- A measure into a well-founded order that decreases along every step from a
predicate closed under steps rules out infinite chains. -/
theorem acc_of_decreasing {μ : Type*} [LT μ] [WellFoundedLT μ] (size : σ → μ) {P : σ → Prop}
    (h : ∀ s s', P s → next s s' → P s' ∧ size s' < size s) :
    ∀ s, P s → Acc (flip next) s := by
  intro s
  induction hsize : size s using WellFoundedLT.induction generalizing s with
  | ind m ih =>
      intro hs
      refine Acc.intro s fun s' hnext => ?_
      obtain ⟨hs', hlt⟩ := h s s' hs hnext
      exact ih _ (hsize ▸ hlt) s' rfl hs'

end Chains

/-! ## Requests that can never be met -/

namespace TokenBucket

theorem Starved.refillLocked {b : TokenBucket} {n : ℚ} (h : b.Starved n) (now : ℚ) :
    (b.refillLocked now).Starved n := by
  simp only [TokenBucket.refillLocked]
  split
  next helapsed =>
    refine h.imp_right fun hlow => ⟨hlow.1, ?_⟩
    have hgain := mul_nonpos_of_nonneg_of_nonpos helapsed.le hlow.1
    exact lt_of_le_of_lt (min_le_right _ _) (lt_of_le_of_lt (add_le_of_nonpos_right hgain) hlow.2)
  next => exact h

theorem Starved.tryTakeLocked {b : TokenBucket} {n m : ℚ} (h : b.Starved n) (hm : 0 < m)
    (now refillNow : ℚ) : (b.tryTakeLocked now refillNow m).2.Starved n := by
  rcases tryTakeLocked_cases b now refillNow m with ⟨-, heq⟩ | ⟨-, -, heq⟩ | ⟨-, -, -, heq⟩
  · rw [heq]
    exact h
  · rw [heq]
    exact h.refillLocked refillNow
  · rw [heq]
    exact (h.refillLocked refillNow).imp_right fun ⟨hrate, hlack⟩ =>
      ⟨hrate, lt_of_le_of_lt (sub_le_self _ hm.le) hlack⟩

/-- A well-formed bucket that starves a request once refilled starved it before. -/
theorem Starved.of_refillLocked {b : TokenBucket} {now n : ℚ} (hwf : b.Wf now)
    (h : (b.refillLocked now).Starved n) : b.Starved n := by
  rcases h with hburst | ⟨hrate, hlack⟩
  · exact Or.inl (by simpa using hburst)
  · rw [refillLocked_ratePerSecond] at hrate
    have hzero : b.ratePerSecond = 0 := le_antisymm hrate hwf.rate_nonneg
    rw [refillLocked_tokens hwf.lastRefill_le hwf.tokens_le, hzero, mul_zero, add_zero,
      min_eq_right hwf.tokens_le] at hlack
    exact Or.inr ⟨hrate, hlack⟩

/-- A starved request is refused at every later reading. -/
theorem Starved.refused {b : TokenBucket} {n : ℚ} (h : b.Starved n) (now refillNow : ℚ) :
    (b.tryTakeLocked now refillNow n).1 = false := by
  rcases tryTakeLocked_cases b now refillNow n with ⟨-, heq⟩ | ⟨-, -, heq⟩ | ⟨-, hle, htok, -⟩
  · rw [heq]
  · rw [heq]
  · exact ((h.refillLocked refillNow).not_holds ⟨by simpa using hle, htok⟩).elim

end TokenBucket

namespace HierarchicalLimiter

/-- A pass changes the global bucket only by refills and by one take. -/
theorem acquirePass_globalBucket {P : TokenBucket → Prop} {n : ℚ}
    (hrefill : ∀ b now, P b → P (b.refillLocked now))
    (htake : ∀ b now refillNow, P b → P (b.tryTakeLocked now refillNow n).2)
    {L : HierarchicalLimiter} (h : P L.globalBucket) (clock : ℕ → ℚ) (childName : String)
    (child : ChildState) (deadline : Option ℚ) :
    P (L.acquirePass clock childName child n deadline).limiter.globalBucket := by
  have hattempt : ∀ result L₁, L.tryTakeLocked clock childName child n = (result, L₁) →
      P L₁.globalBucket := by
    intro result L₁ heq
    have hg : ∀ {ok g}, L.globalBucket.tryTakeLocked (clock 4) (clock 5) n = (ok, g) → P g := by
      intro ok g hok
      have := htake L.globalBucket (clock 4) (clock 5) h
      rwa [hok] at this
    rcases tryTakeLocked_cases clock L childName child n with
      ⟨-, hres⟩ | ⟨-, b, g, -, hok, hres⟩ | ⟨-, b, g, -, hok, hres⟩ |
      ⟨-, b, -, -, hres⟩ | ⟨-, b, g, -, -, hok, hres⟩ | ⟨-, b, g, -, -, hok, hres⟩
    · obtain ⟨-, rfl⟩ := Prod.mk.inj (hres.symm.trans heq)
      exact h
    · obtain ⟨-, rfl⟩ := Prod.mk.inj (hres.symm.trans heq)
      exact hg hok
    · obtain ⟨-, rfl⟩ := Prod.mk.inj (hres.symm.trans heq)
      exact hg hok
    · obtain ⟨-, rfl⟩ := Prod.mk.inj (hres.symm.trans heq)
      exact h
    · obtain ⟨-, rfl⟩ := Prod.mk.inj (hres.symm.trans heq)
      exact hg hok
    · obtain ⟨-, rfl⟩ := Prod.mk.inj (hres.symm.trans heq)
      exact hg hok
  rcases L.acquirePass_cases clock childName child n deadline with
    ⟨borrowed, L₁, hres, hpass⟩ | ⟨returned, L₁, waitFor, L₂, hres, htime, hpass⟩
  · rw [hpass]
    exact hattempt _ L₁ hres
  · have hL₂ : P L₂.globalBucket := by
      have hsnd := timeUntilLocked_snd (fun k => clock (6 + k)) L₁ childName
        ((L₁.children.get? childName).getD child) n
      rw [htime] at hsnd
      rw [show L₂ = _ from hsnd, setGlobal_globalBucket]
      rcases TokenBucket.timeUntilAvailableLocked_snd L₁.globalBucket (clock (6 + 2))
        (clock (6 + 3)) n with hsame | hsame
      · rw [hsame]
        exact hattempt _ L₁ hres
      · rw [hsame]
        exact hrefill _ _ (hattempt _ L₁ hres)
    rcases hpass with ⟨hpass, -⟩ | ⟨seconds, -, ⟨-, hpass⟩ | ⟨d, -, -, hpass⟩⟩ <;>
      rw [hpass] <;> exact hL₂

end HierarchicalLimiter

namespace AcquireState

/-- No request for `n` tokens is granted from `s` on, whatever the clock shows
and whatever happens. -/
def NeverGranted (n : ℚ) (s : AcquireState) : Prop :=
  ∀ (clock : ℕ → ℚ) events s', (machine clock).run s events = some s' →
    ∀ r name child borrowed, (s'.limiter.tryTakeLocked r name child n).1 ≠ .granted borrowed

theorem starved_step {clock : ℕ → ℚ} {s s' : AcquireState} {e : AcquireEvent} {n : ℚ}
    (h : s.limiter.globalBucket.Starved n) (hpos : ∀ w ∈ s.waiters, 0 < w.n)
    (hstep : step clock s e = some s') : s'.limiter.globalBucket.Starved n := by
  have hpass : ∀ {L : HierarchicalLimiter} {m : ℚ}, L.globalBucket.Starved n → 0 < m →
      ∀ r name child deadline,
        (L.acquirePass r name child m deadline).limiter.globalBucket.Starved n :=
    fun hL hm r name child deadline =>
      HierarchicalLimiter.acquirePass_globalBucket (P := (TokenBucket.Starved · n))
        (fun _ now hb => hb.refillLocked now)
        (fun _ now refillNow hb => hb.tryTakeLocked hm now refillNow) hL r name child deadline
  cases e with
  | call child m timeout =>
      simp only [step] at hstep
      split at hstep
      next hm =>
        cases hget : s.limiter.children.get? child with
        | none => simp [call, callPass, hget] at hstep
        | some c =>
            simp only [call, callPass, hget, Option.some.injEq] at hstep
            subst hstep
            have hentered : (s.limiter.recordAttempt child
                (s.readings clock 1)).globalBucket.Starved n := h
            exact hpass hentered hm _ _ _ _
      next => cases hstep
  | wake i =>
      cases hw : s.waiters[i]? with
      | none => simp [step, wake, wakePass, hw] at hstep
      | some w =>
          cases hget : s.limiter.children.get? w.child with
          | none => simp [step, wake, wakePass, hw, hget] at hstep
          | some c =>
              simp only [step, wake, wakePass, hw, hget, Option.some.injEq] at hstep
              subst hstep
              exact hpass h (hpos w (List.mem_of_getElem? hw)) _ _ _ _
  | penalize child seconds =>
      simp only [step, HierarchicalLimiter.penalize] at hstep
      cases hget : s.limiter.children.get? child with
      | none => simp [hget] at hstep
      | some c =>
          simp only [hget, Option.some.injEq] at hstep
          subst hstep
          exact h
  | snapshot =>
      obtain rfl := Option.some.inj hstep
      exact h.refillLocked _

theorem neverGranted_of_starved {s : AcquireState} {n : ℚ}
    (h : s.limiter.globalBucket.Starved n) (hpos : ∀ w ∈ s.waiters, 0 < w.n) :
    NeverGranted n s := by
  intro clock events s' hrun r name child borrowed
  have hinv : s'.limiter.globalBucket.Starved n ∧ ∀ w ∈ s'.waiters, 0 < w.n :=
    Machine.run_invariant (M := machine clock)
      (P := fun s => s.limiter.globalBucket.Starved n ∧ ∀ w ∈ s.waiters, 0 < w.n)
      (fun _ _ _ hs hstep => ⟨starved_step hs.1 hs.2 hstep, waiting_pos_step hs.2 hstep⟩)
      ⟨h, hpos⟩ hrun
  have hrefused := hinv.1.refused (r 4) (r 5)
  rcases HierarchicalLimiter.tryTakeLocked_cases r s'.limiter name child n with
    ⟨-, heq⟩ | ⟨-, b, g, -, hok, -⟩ | ⟨-, b, g, -, -, heq⟩ |
    ⟨-, b, -, -, heq⟩ | ⟨-, b, g, -, -, hok, -⟩ | ⟨-, b, g, -, -, -, heq⟩
  · simp [heq]
  · simp [hok] at hrefused
  · simp [heq]
  · simp [heq]
  · simp [hok] at hrefused
  · simp [heq]

/-! ## Spinning -/

end AcquireState

/-- The waiter's wait has run out at reading `t`, or it was notified. -/
def Waiter.Runnable (w : Waiter) (t : ℚ) : Prop := w.notified = true ∨ w.wakeAt ≤ t

namespace AcquireState

/-- An attempt at reading `t`: the first pass of a new call, or a further pass of
a blocked caller that can run, with the caller, the pass and the state after. -/
inductive Attempt (clock : ℕ → ℚ) (t : ℚ) (s : AcquireState) :
    Waiter → Pass → AcquireState → Prop
  | call {child n timeout w pass s'} (hpass : s.callPass clock child n timeout = some (w, pass))
      (hstep : step clock s (.call child n timeout) = some s') : Attempt clock t s w pass s'
  | wake {i w pass s'} (hrun : w.Runnable t) (hpass : s.wakePass clock i = some (w, pass))
      (hstep : step clock s (.wake i) = some s') : Attempt clock t s w pass s'

/-- A blocked caller that can run at reading `t` runs one pass. -/
def WakeStep (clock : ℕ → ℚ) (t : ℚ) (s s' : AcquireState) : Prop :=
  ∃ i w, s.waiters[i]? = some w ∧ w.Runnable t ∧ s.wake clock i = some s'

/-- Blocked callers alone lead from one state to the other, all at reading `t`. -/
def Reaches (clock : ℕ → ℚ) (t : ℚ) : AcquireState → AcquireState → Prop :=
  Relation.ReflTransGen (WakeStep clock t)

/-- An attempt that does not spin: if its caller goes back to wait it waits for a
positive time, it is denied only if its time ran out or nothing will ever grant
it, and the blocked callers it leaves cannot run forever at the same reading. -/
structure NeverSpins (clock : ℕ → ℚ) (t : ℚ) (w : Waiter) (pass : Pass) (s' : AcquireState) :
    Prop where
  positive : ∀ seconds, pass.verdict = .wait seconds → 0 < seconds
  impossible : pass.verdict = .denied → w.Live t → NeverGranted w.n s'
  terminates : ¬∃ chain : ℕ → AcquireState, chain 0 = s' ∧
    ∀ k, WakeStep clock t (chain k) (chain (k + 1))

/-- No blocked caller that can run would wait zero seconds, and none gives tokens
back while another would give tokens back too. -/
structure Calm (t : ℚ) (s : AcquireState) : Prop where
  spinning : ∀ (i : ℕ) (w : Waiter), s.waiters[i]? = some w → w.Runnable t →
    ¬w.Spinning (s.limiter.settled t) t
  returning : ∀ (i j : ℕ) (w v : Waiter), s.waiters[i]? = some w → s.waiters[j]? = some v → i ≠ j →
    w.Runnable t → w.Returning (s.limiter.settled t) t →
      ¬v.Returning (s.limiter.settled t) t

/-- A reachable state from which on the clock shows `t`. -/
structure HeldAt (clock : ℕ → ℚ) (t : ℚ) (s : AcquireState) : Prop where
  clock_eq : ∀ k, s.ticks ≤ k → clock k = t
  capped : ∃ burst rate, Capped burst rate clock s

section Held

variable {clock : ℕ → ℚ} {t : ℚ} {s s' : AcquireState}

theorem HeldAt.wf (h : HeldAt clock t s) : s.limiter.Wf t := by
  obtain ⟨burst, rate, hcapped⟩ := h.capped
  have hwf := hcapped.accounted.wf
  rwa [h.clock_eq s.ticks (le_refl _)] at hwf

theorem HeldAt.readings_eq (h : HeldAt clock t s) : s.readings clock = fun _ => t :=
  funext fun k => h.clock_eq (s.ticks + k) (Nat.le_add_right _ _)

theorem HeldAt.step (hclock : Monotone clock) (h : HeldAt clock t s) {e : AcquireEvent}
    (hstep : step clock s e = some s') (hticks : s.ticks ≤ s'.ticks) : HeldAt clock t s' where
  clock_eq := fun k hk => h.clock_eq k (le_trans hticks hk)
  capped := by
    obtain ⟨burst, rate, hcapped⟩ := h.capped
    exact ⟨burst, rate, capped_step hclock hcapped hstep⟩

theorem HeldAt.wake (hclock : Monotone clock) (h : HeldAt clock t s)
    (hwake : WakeStep clock t s s') : HeldAt clock t s' := by
  obtain ⟨i, w, -, -, hstep⟩ := hwake
  refine h.step hclock (e := .wake i) hstep ?_
  cases hpass : s.wakePass clock i with
  | none => simp [AcquireState.wake, hpass] at hstep
  | some p =>
      simp only [AcquireState.wake, hpass, Option.some.injEq] at hstep
      subst hstep
      exact Nat.le_add_right _ _

theorem HeldAt.reaches (hclock : Monotone clock) (h : HeldAt clock t s)
    (hreach : Reaches clock t s s') : HeldAt clock t s' := by
  induction hreach with
  | refl => exact h
  | tail _ hnext ih => exact ih.wake hclock hnext

/-- A pass by a blocked caller at a fixed reading removes the caller, or puts it
back to sleep with the settled form unchanged. -/
theorem wake_fixed (h : HeldAt clock t s) {i : ℕ} {w : Waiter} (hw : s.waiters[i]? = some w)
    (hwake : s.wake clock i = some s') :
    (s'.waiters.length < s.waiters.length ∧ ¬w.Spinning (s.limiter.settled t) t ∧
      ¬w.Returning (s.limiter.settled t) t) ∨
    ∃ seconds notified, s'.limiter.settled t = s.limiter.settled t ∧
      s'.waiters = (notifyAll notified s.waiters).set i (w.sleep t seconds) ∧ 0 ≤ seconds ∧
      (seconds = 0 ↔ w.Spinning (s.limiter.settled t) t) ∧
      (notified = true ↔ w.Returning (s.limiter.settled t) t) := by
  obtain ⟨hi, -⟩ := List.getElem?_eq_some_iff.mp hw
  have herase : ∀ notified, ((notifyAll notified s.waiters).eraseIdx i).length <
      s.waiters.length := by
    intro notified
    have hlen : (notifyAll notified s.waiters).length = s.waiters.length := by
      unfold notifyAll
      split <;> simp
    rw [List.length_eraseIdx_of_lt (by omega), hlen]
    omega
  cases hget : s.limiter.children.get? w.child with
  | none => simp [wake, wakePass, hw, hget] at hwake
  | some child =>
      simp only [wake, wakePass, hw, hget, h.readings_eq, Option.some.injEq] at hwake
      subst hwake
      rcases HierarchicalLimiter.acquirePass_fixed h.wf hget with
        ⟨borrowed, hverdict, hpen, hholds⟩ | ⟨hverdict, hstarved⟩ |
        ⟨seconds, hverdict, hset, hnonneg, hzero, hnotify⟩
      · refine Or.inl ⟨?_, fun hs => hpen hs.penalized, fun hr => hr.short hholds⟩
        simpa [hverdict] using herase _
      · refine Or.inl ⟨?_, fun hs => (hstarved hs.live).not_holds hs.holds,
          fun hr => hr.refills (hstarved hr.live)⟩
        simpa [hverdict] using herase _
      · exact Or.inr ⟨seconds, _, hset, by simp [hverdict], hnonneg, hzero, hnotify⟩

variable (clock) in
/-- Every caller is a child of the limiter, so a caller that can run can step. -/
theorem wake_isSome {i : ℕ} {w : Waiter} (hw : s.waiters[i]? = some w)
    (hchild : ∃ c, s.limiter.children.get? w.child = some c) :
    ∃ s', s.wake clock i = some s' := by
  obtain ⟨c, hc⟩ := hchild
  simp [wake, wakePass, hw, hc]

theorem exists_child_of_settled {name : String} {c : ChildState}
    (hc : (s.limiter.settled t).children.get? name = some c) :
    ∃ c', s.limiter.children.get? name = some c' := by
  rw [HierarchicalLimiter.get?_settled, Option.map_eq_some_iff] at hc
  obtain ⟨c', hc', -⟩ := hc
  exact ⟨c', hc'⟩

/-! ## What makes callers run forever -/

/-- A runnable caller that waits zero seconds is runnable again and spins again. -/
theorem not_acc_of_spinning (hclock : Monotone clock) (h : HeldAt clock t s) {i : ℕ} {w : Waiter}
    (hw : s.waiters[i]? = some w) (hrun : w.Runnable t)
    (hspin : w.Spinning (s.limiter.settled t) t) : ¬Acc (flip (WakeStep clock t)) s := by
  refine not_acc_of_progress (P := fun s => HeldAt clock t s ∧ ∃ w, s.waiters[i]? = some w ∧
    w.Runnable t ∧ w.Spinning (s.limiter.settled t) t) ?_ ⟨h, w, hw, hrun, hspin⟩
  rintro s ⟨h, w, hw, hrun, hspin⟩
  obtain ⟨c, hc, -⟩ := hspin.penalized
  obtain ⟨s', hs'⟩ := wake_isSome clock hw (exists_child_of_settled hc)
  have hstep : WakeStep clock t s s' := ⟨i, w, hw, hrun, hs'⟩
  refine ⟨s', hstep, h.wake hclock hstep, ?_⟩
  rcases wake_fixed h hw hs' with ⟨-, hnot, -⟩ | ⟨seconds, notified, hset, hws, -, hzero, -⟩
  · exact (hnot hspin).elim
  · obtain ⟨hi, -⟩ := List.getElem?_eq_some_iff.mp hw
    refine ⟨w.sleep t seconds, ?_, Or.inr ?_, ?_⟩
    · rw [hws, List.getElem?_set_self]
      unfold notifyAll
      split <;> simpa using hi
    · simp [Waiter.sleep, hzero.mpr hspin]
    · rw [hset]
      exact ⟨hspin.penalized, hspin.idle, hspin.holds, hspin.live⟩

/-- Two callers that give tokens back wake each other forever. -/
theorem not_acc_of_returning (hclock : Monotone clock) (h : HeldAt clock t s) {i j : ℕ}
    {w v : Waiter} (hw : s.waiters[i]? = some w) (hv : s.waiters[j]? = some v) (hij : i ≠ j)
    (hrun : w.Runnable t) (hwr : w.Returning (s.limiter.settled t) t)
    (hvr : v.Returning (s.limiter.settled t) t) : ¬Acc (flip (WakeStep clock t)) s := by
  refine not_acc_of_progress (P := fun s => HeldAt clock t s ∧ ∃ i j w v,
    s.waiters[i]? = some w ∧ s.waiters[j]? = some v ∧ i ≠ j ∧ w.Runnable t ∧
    w.Returning (s.limiter.settled t) t ∧ v.Returning (s.limiter.settled t) t) ?_
    ⟨h, i, j, w, v, hw, hv, hij, hrun, hwr, hvr⟩
  rintro s ⟨h, i, j, w, v, hw, hv, hij, hrun, hwr, hvr⟩
  obtain ⟨c, hc, -⟩ := hwr.ready
  obtain ⟨s', hs'⟩ := wake_isSome clock hw (exists_child_of_settled hc)
  have hstep : WakeStep clock t s s' := ⟨i, w, hw, hrun, hs'⟩
  refine ⟨s', hstep, h.wake hclock hstep, ?_⟩
  rcases wake_fixed h hw hs' with ⟨-, -, hnot⟩ | ⟨seconds, notified, hset, hws, -, -, hnotify⟩
  · exact (hnot hwr).elim
  · obtain ⟨hi, -⟩ := List.getElem?_eq_some_iff.mp hw
    obtain rfl : notified = true := hnotify.mpr hwr
    refine ⟨j, i, { v with notified := true }, w.sleep t seconds, ?_, ?_, hij.symm,
      Or.inl rfl, ?_, ?_⟩
    · rw [hws, List.getElem?_set_ne hij]
      simp [notifyAll, hv]
    · rw [hws, List.getElem?_set_self (by simpa [notifyAll] using hi)]
    · rw [hset]
      exact ⟨hvr.ready, hvr.short, hvr.refills, hvr.live⟩
    · rw [hset]
      exact ⟨hwr.ready, hwr.short, hwr.refills, hwr.live⟩

/-! ## What makes them stop -/

open scoped Classical in
/-- How many callers meet `P`. -/
noncomputable def count (P : Waiter → Prop) (ws : List Waiter) : ℕ := ws.countP fun w => P w

theorem count_pos {P : Waiter → Prop} {ws : List Waiter} {i : ℕ} {w : Waiter}
    (hw : ws[i]? = some w) (hP : P w) : 0 < count P ws := by
  classical
  exact List.countP_pos_iff.mpr ⟨w, List.mem_of_getElem? hw, by simpa using hP⟩

theorem count_eq_zero {P : Waiter → Prop} {ws : List Waiter} (h : ∀ w ∈ ws, ¬P w) :
    count P ws = 0 := by
  classical
  exact List.countP_eq_zero.mpr fun w hw => by simpa using h w hw

/-- Putting a caller that no longer meets `P` in the place of one that did, or
of one that did not. -/
theorem count_set {P : Waiter → Prop} {ws : List Waiter} {i : ℕ} {w w' : Waiter}
    (hw : ws[i]? = some w) (hP : ¬P w') :
    (P w → count P (ws.set i w') + 1 = count P ws) ∧
      (¬P w → count P (ws.set i w') = count P ws) := by
  classical
  obtain ⟨hi, hget⟩ := List.getElem?_eq_some_iff.mp hw
  constructor
  · intro hold
    have hpos := count_pos hw hold
    simp only [count] at hpos ⊢
    simp only [List.countP_set hi, hget, hP, hold, decide_true, decide_false, if_true,
      Bool.false_eq_true, if_false]
    omega
  · intro hold
    simp [count, List.countP_set hi, hget, hP, hold]

/-- The blocked callers; those of them that can run and would give tokens back;
those that can run. -/
noncomputable def activity (t : ℚ) (s : AcquireState) : ℕ ×ₗ ℕ ×ₗ ℕ :=
  toLex (s.waiters.length, toLex
    (count (fun w => w.Runnable t ∧ w.Returning (s.limiter.settled t) t) s.waiters,
      count (fun w => w.Runnable t) s.waiters))

theorem activity_decreases (h : HeldAt clock t s) (hcalm : Calm t s)
    (hstep : WakeStep clock t s s') : activity t s' < activity t s := by
  obtain ⟨i, w, hw, hrun, hwake⟩ := hstep
  obtain ⟨hi, hget⟩ := List.getElem?_eq_some_iff.mp hw
  rcases wake_fixed h hw hwake with
    ⟨hlt, -⟩ | ⟨seconds, notified, hset, hws, hnonneg, hzero, hnotify⟩
  · exact Prod.Lex.toLex_lt_toLex.mpr (Or.inl hlt)
  · have hpos : 0 < seconds :=
      lt_of_le_of_ne hnonneg fun heq => hcalm.spinning i w hw hrun (hzero.mp heq.symm)
    have hasleep : ¬(w.sleep t seconds).Runnable t := by
      simp [Waiter.Runnable, Waiter.sleep, hpos]
    have hlen : s'.waiters.length = s.waiters.length := by
      rw [hws, List.length_set]
      unfold notifyAll
      split <;> simp
    refine Prod.Lex.toLex_lt_toLex.mpr (Or.inr ⟨hlen, Prod.Lex.toLex_lt_toLex.mpr ?_⟩)
    rw [hset]
    cases notified with
    | false =>
        -- nobody was woken: one runnable caller fewer
        have hnot : ¬w.Returning (s.limiter.settled t) t := fun hr => by
          simpa using hnotify.mpr hr
        rw [hws, notifyAll, if_neg Bool.false_ne_true]
        have hreturners := (count_set (P := fun w => w.Runnable t ∧
          w.Returning (s.limiter.settled t) t) hw fun hr => hasleep hr.1).2 fun hr => hnot hr.2
        have hrunnable := (count_set (P := fun w => w.Runnable t) hw hasleep).1 hrun
        exact Or.inr ⟨hreturners, by dsimp only; omega⟩
    | true =>
        -- the others were woken, but this was the last caller to give tokens back
        have hreturns := hnotify.mp rfl
        have hafter : count (fun w => w.Runnable t ∧ w.Returning (s.limiter.settled t) t)
            s'.waiters = 0 := by
          refine count_eq_zero fun v hv => ?_
          rw [hws] at hv
          obtain ⟨k, hk⟩ := List.mem_iff_getElem?.mp hv
          rintro ⟨hvrun, hvr⟩
          by_cases hki : i = k
          · subst hki
            rw [List.getElem?_set_self (by simpa [notifyAll] using hi)] at hk
            obtain rfl := Option.some.inj hk
            exact hasleep hvrun
          · rw [List.getElem?_set_ne hki] at hk
            simp only [notifyAll, if_true, List.getElem?_map, Option.map_eq_some_iff] at hk
            obtain ⟨u, hu, rfl⟩ := hk
            exact hcalm.returning i k w u hw hu hki hrun hreturns
              ⟨hvr.ready, hvr.short, hvr.refills, hvr.live⟩
        have hbefore := count_pos (P := fun w => w.Runnable t ∧
          w.Returning (s.limiter.settled t) t) hw ⟨hrun, hreturns⟩
        exact Or.inl (lt_of_eq_of_lt hafter hbefore)

/-- Callers that stay calm run out of passes. -/
theorem acc_of_calm (hclock : Monotone clock) (h : HeldAt clock t s)
    (hcalm : ∀ s', Reaches clock t s s' → Calm t s') : Acc (flip (WakeStep clock t)) s := by
  refine acc_of_decreasing (activity t)
    (P := fun s => HeldAt clock t s ∧ ∀ s', Reaches clock t s s' → Calm t s') ?_ s ⟨h, hcalm⟩
  rintro s s' ⟨h, hcalm⟩ hstep
  refine ⟨⟨h.wake hclock hstep, fun s'' hreach => hcalm s'' ?_⟩,
    activity_decreases h (hcalm s .refl) hstep⟩
  exact Relation.ReflTransGen.head hstep hreach

/-! ## The exact condition -/

/-- Recording an attempt of its own does not change what a caller waits for. -/
theorem spinning_recordAttempt_iff {L : HierarchicalLimiter} {w : Waiter} :
    w.Spinning ((L.recordAttempt w.child t).settled t) t ↔ w.Spinning (L.settled t) t := by
  have hpen : ((L.recordAttempt w.child t).settled t).Penalized w.child t ↔
      (L.settled t).Penalized w.child t := by
    simp only [HierarchicalLimiter.Penalized, HierarchicalLimiter.get?_settled,
      HierarchicalLimiter.recordAttempt, HierarchicalLimiter.get?_updateChild]
    cases L.children.get? w.child <;> simp
  have hidle : ((L.recordAttempt w.child t).settled t).timeUntilSiblingsIdleLocked w.child t =
      (L.settled t).timeUntilSiblingsIdleLocked w.child t := by
    rw [HierarchicalLimiter.timeUntilSiblingsIdleLocked_settled,
      HierarchicalLimiter.timeUntilSiblingsIdleLocked_settled]
    refine HierarchicalLimiter.timeUntilSiblingsIdleLocked_modify (L := L)
      (f := fun k c => if k = w.child then { c with lastAttempt := some t } else c) rfl ?_
    intro k c hk
    rw [if_neg hk]
  constructor
  · intro hs
    exact ⟨hpen.mp hs.penalized, hidle ▸ hs.idle, hs.holds, hs.live⟩
  · intro hs
    exact ⟨hpen.mpr hs.penalized, hidle ▸ hs.idle, hs.holds, hs.live⟩

theorem pass_fixed {L : HierarchicalLimiter} {w : Waiter} {child : ChildState} (h : L.Wf t)
    (hn : 0 < w.n) (hget : L.children.get? w.child = some child) :
    (∃ borrowed, (L.acquirePass (fun _ => t) w.child child w.n w.deadline).verdict =
        .granted borrowed ∧ ¬w.Spinning (L.settled t) t) ∨
    ((L.acquirePass (fun _ => t) w.child child w.n w.deadline).verdict = .denied ∧
      ¬w.Spinning (L.settled t) t ∧ (w.Live t →
        (L.acquirePass (fun _ => t) w.child child w.n
          w.deadline).limiter.globalBucket.Starved w.n)) ∨
    ∃ seconds, (L.acquirePass (fun _ => t) w.child child w.n w.deadline).verdict =
        .wait seconds ∧ 0 ≤ seconds ∧ (seconds = 0 ↔ w.Spinning (L.settled t) t) := by
  rcases HierarchicalLimiter.acquirePass_fixed h hget with
    ⟨borrowed, hverdict, hpen, -⟩ | ⟨hverdict, hstarved⟩ | ⟨seconds, hverdict, -, hnonneg, hzero, -⟩
  · exact Or.inl ⟨borrowed, hverdict, fun hs => hpen hs.penalized⟩
  · refine Or.inr (Or.inl ⟨hverdict, fun hs => (hstarved hs.live).not_holds hs.holds, ?_⟩)
    intro hlive
    exact HierarchicalLimiter.acquirePass_globalBucket (P := (TokenBucket.Starved · w.n))
      (fun _ now hb => hb.refillLocked now)
      (fun _ now refillNow hb => hb.tryTakeLocked hn now refillNow)
      ((hstarved hlive).of_refillLocked h.globalBucket) _ _ _ _
  · exact Or.inr (Or.inr ⟨seconds, hverdict, hnonneg, hzero⟩)

/-- Everything one attempt at a fixed reading can end with. -/
theorem attempt_fixed (h : HeldAt clock t s) {w : Waiter} {pass : Pass}
    (hattempt : Attempt clock t s w pass s') :
    s'.limiter = pass.limiter ∧ s.ticks ≤ s'.ticks ∧
    ((∃ borrowed, pass.verdict = .granted borrowed ∧ ¬w.Spinning (s.limiter.settled t) t) ∨
    (pass.verdict = .denied ∧ ¬w.Spinning (s.limiter.settled t) t ∧
      (w.Live t → pass.limiter.globalBucket.Starved w.n)) ∨
    ∃ seconds, pass.verdict = .wait seconds ∧ 0 ≤ seconds ∧
      (seconds = 0 ↔ w.Spinning (s.limiter.settled t) t)) := by
  cases hattempt with
  | @call child n timeout w pass s' hpass hstep =>
      simp only [step] at hstep
      split at hstep
      next hn =>
        simp only [AcquireState.call, hpass, Option.some.injEq] at hstep
        subst hstep
        refine ⟨rfl, Nat.le_add_right _ _, ?_⟩
        cases hget : s.limiter.children.get? child with
        | none => simp [callPass, hget] at hpass
        | some c =>
            simp only [callPass, hget, h.readings_eq, Option.some.injEq, Prod.mk.injEq] at hpass
            obtain ⟨rfl, rfl⟩ := hpass
            let w : Waiter := ⟨child, n, timeout.map (t + ·), t, false⟩
            have hwf : (s.limiter.recordAttempt child t).Wf t :=
              h.wf.updateChild fun c hc => h.wf.children child c hc
            have hget' : (s.limiter.recordAttempt child t).children.get? child =
                some { c with lastAttempt := some t } := by
              simp [HierarchicalLimiter.recordAttempt, HierarchicalLimiter.get?_updateChild, hget]
            have := pass_fixed hwf (w := w) hn hget'
            rwa [spinning_recordAttempt_iff] at this
      next => cases hstep
  | @wake i w pass s' hrun hpass hstep =>
      simp only [step, AcquireState.wake, hpass, Option.some.injEq] at hstep
      subst hstep
      refine ⟨rfl, Nat.le_add_right _ _, ?_⟩
      cases hw : s.waiters[i]? with
      | none => simp [wakePass, hw] at hpass
      | some w' =>
          cases hget : s.limiter.children.get? w'.child with
          | none => simp [wakePass, hw, hget] at hpass
          | some c =>
              simp only [wakePass, hw, hget, h.readings_eq, Option.some.injEq,
                Prod.mk.injEq] at hpass
              obtain ⟨rfl, rfl⟩ := hpass
              obtain ⟨burst, rate, hcapped⟩ := h.capped
              exact pass_fixed h.wf (hcapped.waiting_pos w' (List.mem_of_getElem? hw)) hget

/-- At a fixed reading an attempt never spins exactly when its caller would not
wait zero seconds and the blocked callers, run one after another, stay calm. -/
theorem neverSpins_iff_calm {globalRate : ℚ} {children : Table String ℚ}
    (hclock : Monotone clock) (hglobal : 0 ≤ globalRate)
    (hchildren : ∀ name rate, children.get? name = some rate → 0 ≤ rate)
    {events : List AcquireEvent}
    (hrun : (machine clock).run (create globalRate children clock) events = some s)
    (hheld : ∀ k, s.ticks ≤ k → clock k = t) {w : Waiter} {pass : Pass}
    (hattempt : Attempt clock t s w pass s') :
    NeverSpins clock t w pass s' ↔
      ¬w.Spinning (s.limiter.settled t) t ∧ ∀ s'', Reaches clock t s' s'' → Calm t s'' := by
  have h : HeldAt clock t s := ⟨hheld, _, _, capped_run hclock hglobal hchildren hrun⟩
  obtain ⟨hlimiter, hticks, hcases⟩ := attempt_fixed h hattempt
  have h' : HeldAt clock t s' := by
    cases hattempt with
    | call _ hstep => exact h.step hclock hstep hticks
    | wake _ _ hstep => exact h.step hclock hstep hticks
  constructor
  · intro hns
    refine ⟨?_, fun s'' hreach => ?_⟩
    · intro hspin
      rcases hcases with ⟨-, -, hnot⟩ | ⟨-, hnot, -⟩ | ⟨seconds, hverdict, -, hzero⟩
      · exact hnot hspin
      · exact hnot hspin
      · exact absurd (hns.positive seconds hverdict) (by simp [hzero.mpr hspin])
    · have hacc : Acc (flip (WakeStep clock t)) s'' := by
        refine acc_of_reaches hreach ?_
        by_contra hchain
        exact hns.terminates (not_acc_iff_exists_descending_chain.mp hchain)
      have h'' := h'.reaches hclock hreach
      constructor
      · intro i v hv hvrun hspin
        exact not_acc_of_spinning hclock h'' hv hvrun hspin hacc
      · intro i j v u hv hu hij hvrun hvr hur
        exact not_acc_of_returning hclock h'' hv hu hij hvrun hvr hur hacc
  · rintro ⟨hnot, hcalm⟩
    constructor
    · intro seconds hverdict
      rcases hcases with ⟨b, hother, -⟩ | ⟨hother, -⟩ | ⟨secs, hsame, hnonneg, hzero⟩
      · rw [hverdict] at hother
        cases hother
      · rw [hverdict] at hother
        cases hother
      · rw [hverdict] at hsame
        cases hsame
        exact lt_of_le_of_ne hnonneg fun heq => hnot (hzero.mp heq.symm)
    · intro hverdict hlive
      rcases hcases with ⟨b, hother, -⟩ | ⟨-, -, hstarved⟩ | ⟨secs, hother, -⟩
      · rw [hverdict] at hother
        cases hother
      · obtain ⟨burst, rate, hcapped⟩ := h'.capped
        exact neverGranted_of_starved (hlimiter ▸ hstarved hlive) hcapped.waiting_pos
      · rw [hverdict] at hother
        cases hother
    · intro hchain
      exact not_acc_iff_exists_descending_chain.mpr hchain (acc_of_calm hclock h' hcalm)

end Held

/-- One penalised child, whose siblings, having none, are idle: its blocked caller
can run at once and waits zero seconds again. -/
theorem penalized_caller_spins :
    ∃ s w pass s', (machine fun _ => 0).run
        (create 60 ⟨[("pypi.org", 60)], by decide⟩ fun _ => 0)
        [.penalize "pypi.org" 60, .call "pypi.org" 1 none] = some s ∧
      Attempt (fun _ => 0) 0 s w pass s' ∧ ¬NeverSpins (fun _ => 0) 0 w pass s' := by
  have hcompute : (((machine fun _ => 0).run
      (create 60 ⟨[("pypi.org", 60)], by decide⟩ fun _ => 0)
      [.penalize "pypi.org" 60, .call "pypi.org" 1 none]).bind fun s =>
        (s.wakePass (fun _ => 0) 0).bind fun p => (step (fun _ => 0) s (.wake 0)).map fun _ =>
          (p.2.verdict, p.1.wakeAt)) = some (.wait 0, 0) := by
    decide +kernel
  obtain ⟨s, hrun, hcompute⟩ := Option.bind_eq_some_iff.mp hcompute
  obtain ⟨⟨w, pass⟩, hpass, hcompute⟩ := Option.bind_eq_some_iff.mp hcompute
  obtain ⟨s', hstep, hfacts⟩ := Option.map_eq_some_iff.mp hcompute
  obtain ⟨hverdict, hwake⟩ := Prod.mk.inj hfacts
  refine ⟨s, w, pass, s', hrun, .wake (Or.inr hwake.le) hpass hstep, fun hns => ?_⟩
  exact absurd (hns.positive 0 hverdict) (lt_irrefl 0)

/-- Without the penalty the caller that finds the global bucket empty waits for
one second, and no blocked caller spins. -/
theorem unpenalized_caller_sleeps :
    ∃ s w pass s', (machine fun _ => 0).run
        (create 60 ⟨[("pypi.org", 60)], by decide⟩ fun _ => 0)
        [.call "pypi.org" 1 none] = some s ∧
      Attempt (fun _ => 0) 0 s w pass s' ∧ pass.verdict = .wait 1 ∧
      NeverSpins (fun _ => 0) 0 w pass s' := by
  have hcompute : (((machine fun _ => 0).run
      (create 60 ⟨[("pypi.org", 60)], by decide⟩ fun _ => 0)
      [.call "pypi.org" 1 none]).bind fun s =>
        (s.callPass (fun _ => 0) "pypi.org" 1 none).bind fun p =>
          (step (fun _ => 0) s (.call "pypi.org" 1 none)).map fun s' =>
            (p.2.verdict, decide ((s.limiter.settled 0).globalBucket.Holds p.1.n),
              s'.waiters.all fun v => !v.notified && decide (0 < v.wakeAt))) =
      some (.wait 1, false, true) := by
    decide +kernel
  obtain ⟨s, hrun, hcompute⟩ := Option.bind_eq_some_iff.mp hcompute
  obtain ⟨⟨w, pass⟩, hpass, hcompute⟩ := Option.bind_eq_some_iff.mp hcompute
  obtain ⟨s', hstep, hfacts⟩ := Option.map_eq_some_iff.mp hcompute
  obtain ⟨hverdict, hfacts⟩ := Prod.mk.inj hfacts
  obtain ⟨hholds, hasleep⟩ := Prod.mk.inj hfacts
  have hnobody : ∀ (i : ℕ) (v : Waiter), s'.waiters[i]? = some v → ¬v.Runnable 0 := by
    intro i v hv
    have hv := List.all_eq_true.mp hasleep v (List.mem_of_getElem? hv)
    simpa [Waiter.Runnable] using hv
  have hattempt : Attempt (fun _ => 0) 0 s w pass s' := .call hpass hstep
  refine ⟨s, w, pass, s', hrun, hattempt, hverdict, ?_⟩
  refine (neverSpins_iff_calm (monotone_const) (by norm_num)
    (Table.forall_get?_iff.mpr (by simp)) hrun (fun _ _ => rfl) hattempt).mpr ⟨?_, ?_⟩
  · exact fun hspin => of_decide_eq_false hholds hspin.holds
  · intro s'' hreach
    obtain rfl : s' = s'' := by
      rcases Relation.ReflTransGen.cases_head hreach with rfl | ⟨m, ⟨i, v, hv, hvrun, -⟩, -⟩
      · rfl
      · exact (hnobody i v hv hvrun).elim
    exact ⟨fun i v hv hvrun => (hnobody i v hv hvrun).elim,
      fun i j v u hv hu hij hvrun => (hnobody i v hv hvrun).elim⟩

end AcquireState

end RerollSync.RateLimit
