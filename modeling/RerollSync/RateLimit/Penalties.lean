import RerollSync.RateLimit.Refusals

/-!
# Penalties over runs

What the calls, wake-ups, penalties and snapshots of a limiter do to its buckets and its
deadlines, step by step and over whole runs.  A penalty moves the deadline of one child
only, and forward only; a step that grants nothing does not show in any token count.
-/

namespace RerollSync.RateLimit

open RerollSync.Support

/-! ## Events -/

namespace AcquireState

open HierarchicalLimiter

variable {clock clock' : ℕ → ℚ} {s s' : AcquireState} {e : AcquireEvent}

/-- A trial of an event starts from the limiter as it is, but for the time of the attempt,
with the readings to come. -/
structure Starts (clock : ℕ → ℚ) (s : AcquireState) (T : Trial) : Prop where
  pos : 0 < T.caller.n
  child : T.limiter.children.get? T.caller.child = some T.child
  limiter : T.limiter = s.limiter ∨
    ∃ t, T.limiter = s.limiter.recordAttempt T.caller.child t
  readings : ∃ k ≤ 2, T.readings = fun i => clock (s.ticks + (k + i))

theorem starts_of_trial {T : Trial} (hT : s.trial clock e = some T) (hn : 0 < T.caller.n) :
    Starts clock s T := by
  cases e with
  | call childName n timeout =>
      obtain ⟨child, hget, rfl⟩ := Option.map_eq_some_iff.mp hT
      refine ⟨hn, ?_, Or.inr ⟨_, rfl⟩, 2, le_refl 2, rfl⟩
      simp [recordAttempt, get?_updateChild, hget]
  | wake i =>
      obtain ⟨w, hw, hrest⟩ := Option.bind_eq_some_iff.mp hT
      obtain ⟨child, hget, hrest⟩ := Option.bind_eq_some_iff.mp hrest
      obtain rfl := Option.some.inj hrest
      refine ⟨hn, hget, Or.inl rfl, 0, Nat.zero_le 2, ?_⟩
      funext k
      rw [Nat.zero_add]
      rfl
  | penalize child seconds => cases hT
  | snapshot => cases hT

/-- The caller of a trial that is a step asks for a positive number of tokens. -/
theorem pos_of_trial (hpos : ∀ w ∈ s.waiters, 0 < w.n) (hstep : step clock s e = some s')
    {T : Trial} (hT : s.trial clock e = some T) : 0 < T.caller.n := by
  cases e with
  | call childName n timeout =>
      obtain ⟨child, hget, rfl⟩ := Option.map_eq_some_iff.mp hT
      exact (Option.ite_none_right_eq_some.mp hstep).1
  | wake i =>
      obtain ⟨w, hw, hrest⟩ := Option.bind_eq_some_iff.mp hT
      obtain ⟨child, hget, hrest⟩ := Option.bind_eq_some_iff.mp hrest
      obtain rfl := Option.some.inj hrest
      exact hpos w (List.mem_of_getElem? hw)
  | penalize child seconds => cases hT
  | snapshot => cases hT

/-- Everything a step can do: a pass of a trial, a penalty, or a snapshot. -/
theorem step_cases (hpos : ∀ w ∈ s.waiters, 0 < w.n) (hstep : step clock s e = some s') :
    (∃ T, s.trial clock e = some T ∧ Starts clock s T ∧ s'.limiter = T.pass.limiter ∧
      s'.grants = passGrants T.readings T.caller T.pass.verdict ++ s.grants ∧
      s'.ticks = s.ticks + 16) ∨
    (∃ child c seconds, e = .penalize child seconds ∧ s.limiter.children.get? child = some c ∧
      s' = { s with
        limiter := s.limiter.setBucket child (c.bucket.penalize (clock s.ticks) seconds)
        ticks := s.ticks + 1 }) ∨
    (e = .snapshot ∧ s' = { s with
      limiter := s.limiter.snapshotRefill (s.readings clock)
      ticks := s.ticks + 1 + s.limiter.children.keys.length }) := by
  cases e with
  | call childName n timeout =>
      have hpass := callPass_eq_trial clock s childName n timeout
      cases hT : s.trial clock (.call childName n timeout) with
      | none => simp [step, call, hpass, hT] at hstep
      | some T =>
          have hstarts := starts_of_trial hT (pos_of_trial hpos hstep hT)
          obtain ⟨child, -, hreadings⟩ := Option.map_eq_some_iff.mp hT
          obtain ⟨-, hcall⟩ := Option.ite_none_right_eq_some.mp hstep
          simp only [call, hpass, hT, Option.map_some, Option.some.injEq] at hcall
          refine Or.inl ⟨T, rfl, hstarts, ?_⟩
          subst hcall hreadings
          exact ⟨rfl, rfl, rfl⟩
  | wake i =>
      have hpass := wakePass_eq_trial clock s i
      cases hT : s.trial clock (.wake i) with
      | none => simp [step, wake, hpass, hT] at hstep
      | some T =>
          have hstarts := starts_of_trial hT (pos_of_trial hpos hstep hT)
          obtain ⟨w, -, hrest⟩ := Option.bind_eq_some_iff.mp hT
          obtain ⟨child, -, hrest⟩ := Option.bind_eq_some_iff.mp hrest
          have hT' := Option.some.inj hrest
          simp only [step, wake, hpass, hT, Option.map_some, Option.some.injEq] at hstep
          refine Or.inl ⟨T, rfl, hstarts, ?_⟩
          subst hstep hT'
          exact ⟨rfl, rfl, rfl⟩
  | penalize child seconds =>
      simp only [step, HierarchicalLimiter.penalize] at hstep
      cases hget : s.limiter.children.get? child with
      | none => simp [hget] at hstep
      | some c =>
          simp only [hget, Option.some.injEq] at hstep
          exact Or.inr (Or.inl ⟨child, c, seconds, rfl, hget, hstep.symm⟩)
  | snapshot => exact Or.inr (Or.inr ⟨rfl, (Option.some.inj hstep).symm⟩)

/-- What every reachable state satisfies: the buckets are regular at the last reading, and
blocked callers ask for a positive number of tokens. -/
structure Steady (clock : ℕ → ℚ) (s : AcquireState) : Prop where
  regular : s.limiter.Regular (clock (s.ticks - 1))
  ticks_pos : 0 < s.ticks
  waiting_pos : ∀ w ∈ s.waiters, 0 < w.n

theorem steady_create (hclock : Monotone clock) (globalRate : ℚ) (children : Table String ℚ) :
    Steady clock (create globalRate children clock) where
  regular :=
    { globalBucket := ⟨le_refl _, hclock (Nat.zero_le _)⟩
      children := by
        intro name c hc
        simp only [create, HierarchicalLimiter.create, Table.get?_modify,
          Option.map_eq_some_iff] at hc
        obtain ⟨rate, hrate, rfl⟩ := hc
        have hmem : name ∈ children.keys :=
          List.mem_map_of_mem (Table.get?_eq_some_iff.mp hrate)
        have hindex := List.idxOf_lt_length_of_mem hmem
        exact ⟨le_refl _, hclock (by simp only [create]; omega)⟩ }
  ticks_pos := by
    simp only [create]
    omega
  waiting_pos := by simp [create]

/-- No grant is taken back. -/
theorem Steady.grants_step (h : Steady clock s) (hstep : step clock s e = some s') :
    ∃ grants, s'.grants = grants ++ s.grants ∧ s.ticks ≤ s'.ticks := by
  rcases step_cases h.waiting_pos hstep with
    ⟨T, -, hT, -, hgrants, hticks⟩ | ⟨child, c, seconds, -, hget, rfl⟩ | ⟨-, rfl⟩
  · exact ⟨_, hgrants, by omega⟩
  · exact ⟨[], rfl, Nat.le_succ _⟩
  · exact ⟨[], rfl, by dsimp only; omega⟩

section Steps

variable (hclock : Monotone clock) (h : Steady clock s)
include hclock h

/-- The limiter that a trial starts from, as its first reading finds it. -/
theorem Steady.starts {T : Trial} (hT : Starts clock s T) :
    Untouched (T.readings 0) s.limiter T.limiter ∧ Monotone T.readings ∧
      T.readings 11 ≤ clock (s.ticks + 16 - 1) := by
  obtain ⟨k, hk, hreadings⟩ := hT.readings
  have hregular : s.limiter.Regular (T.readings 0) := by
    rw [hreadings]
    exact h.regular.mono (hclock (by omega))
  refine ⟨?_, ?_, ?_⟩
  · rcases hT.limiter with hlimiter | ⟨t, hlimiter⟩
    · rw [hlimiter]
      exact hregular.untouched
    · rw [hlimiter]
      exact hregular.untouched_recordAttempt T.caller.child t
  · rw [hreadings]
    exact fun i j hij => hclock (by omega)
  · rw [hreadings]
    exact hclock (by omega)

/-- The buckets and deadlines that the pass of a trial leaves. -/
theorem Steady.pass {T : Trial} (hT : Starts clock s T) :
    T.pass.limiter.Regular (clock (s.ticks + 16 - 1)) ∧
      (∀ k, T.pass.limiter.deadlineOf k = s.limiter.deadlineOf k) ∧
      ((∃ borrowed, T.pass.verdict = .granted borrowed ∧
          ¬T.child.bucket.isPenalized (T.readings 0)) ∨
        (∀ borrowed, T.pass.verdict ≠ .granted borrowed) ∧
          Untouched (clock (s.ticks + 16 - 1)) s.limiter T.pass.limiter) := by
  obtain ⟨hstart, hr, hlast⟩ := h.starts hclock hT
  by_cases hgranted : ∃ borrowed, T.pass.verdict = .granted borrowed
  · obtain ⟨borrowed, hgranted⟩ := hgranted
    obtain ⟨hregular, hdeadline, hpen⟩ :=
      hstart.regular.granted_acquirePass hT.child hr (le_refl _) hT.pos.le hgranted
    exact ⟨hregular.mono ((hr (by omega)).trans hlast),
      fun k => (hdeadline k).trans (hstart.deadlineOf k), Or.inl ⟨borrowed, hgranted, hpen⟩⟩
  · have hrefused := not_exists.mp hgranted
    have htouched := hstart.regular.untouched_acquirePass hT.child hr (le_refl _) hrefused
    have hall := (hstart.trans (hr (Nat.zero_le 11)) htouched).mono hlast
    exact ⟨hall.regular, hall.deadlineOf, Or.inr ⟨hrefused, hall⟩⟩

theorem Steady.step (hstep : step clock s e = some s') : Steady clock s' := by
  have hpos := waiting_pos_step h.waiting_pos hstep
  rcases step_cases h.waiting_pos hstep with
    ⟨T, -, hT, hlimiter, -, hticks⟩ | ⟨child, c, seconds, -, hget, rfl⟩ | ⟨-, rfl⟩
  · refine ⟨?_, by omega, hpos⟩
    rw [hlimiter, hticks]
    exact (h.pass hclock hT).1
  · have hregular := h.regular.mono (hclock (show s.ticks - 1 ≤ s.ticks + 1 - 1 by omega))
    refine ⟨hregular.updateChild fun c' hc => ?_, by simp, hpos⟩
    obtain rfl : c' = c := Option.some.inj (hc.symm.trans hget)
    exact (hregular.children child c' hget).penalize _ _
  · refine ⟨?_, by simp, hpos⟩
    refine (h.regular.untouched_snapshotRefill (readings_monotone hclock s)
      (hclock (by omega))).regular.mono (hclock ?_)
    dsimp only
    omega

/-- A step that grants nothing does not show in what the buckets hold later. -/
theorem Steady.available_step (hstep : AcquireState.step clock s e = some s')
    (hgrants : s'.grants = s.grants) {later : ℚ} (hlater : clock (s'.ticks - 1) ≤ later) :
    s'.limiter.SameAvailable s.limiter later := by
  rcases step_cases h.waiting_pos hstep with
    ⟨T, -, hT, hlimiter, hlog, hticks⟩ | ⟨child, c, seconds, -, hget, rfl⟩ | ⟨-, rfl⟩
  · rw [hticks] at hlater
    rw [hlimiter]
    rcases (h.pass hclock hT).2.2 with ⟨borrowed, hgranted, -⟩ | ⟨-, htouched⟩
    · rw [hlog, hgranted] at hgrants
      simp [passGrants] at hgrants
    · exact htouched.sameAvailable hlater
  · exact sameAvailable_penalize hget _ _ _
  · have htouched := h.regular.untouched_snapshotRefill (readings_monotone hclock s)
      (hclock (show s.ticks - 1 ≤ s.ticks + 0 by omega))
    refine htouched.sameAvailable (le_trans (hclock ?_) hlater)
    dsimp only
    omega

/-- The deadline of a child moves only forward, and a child is granted something only from
its deadline on. -/
theorem Steady.deadline_step (hstep : AcquireState.step clock s e = some s') {child : String}
    {d : ℚ} (hd : ∃ x ∈ s.limiter.deadlineOf child, (d : WithBot ℚ) ≤ x) :
    (∃ x ∈ s'.limiter.deadlineOf child, (d : WithBot ℚ) ≤ x) ∧
      ∃ grants, s'.grants = grants ++ s.grants ∧ ∀ g ∈ grants, g.child = child → d ≤ g.time := by
  obtain ⟨x, hx, hdx⟩ := hd
  rcases step_cases h.waiting_pos hstep with
    ⟨T, -, hT, hlimiter, hlog, -⟩ | ⟨name, c, seconds, -, hget, rfl⟩ | ⟨-, rfl⟩
  · obtain ⟨-, hdeadline, hends⟩ := h.pass hclock hT
    refine ⟨⟨x, by rw [hlimiter, hdeadline]; exact hx, hdx⟩, _, hlog, fun g hg hchild => ?_⟩
    rcases hends with ⟨borrowed, hgranted, hpen⟩ | ⟨hrefused, -⟩
    · rw [hgranted] at hg
      obtain rfl := List.mem_singleton.mp hg
      obtain ⟨hstart, hr, -⟩ := h.starts hclock hT
      have hown : T.child.bucket.penaltyDeadline = x := by
        have hsame := hstart.deadlineOf T.caller.child
        rw [deadlineOf, hT.child, show T.caller.child = child from hchild] at hsame
        exact Option.some.inj (hsame.trans hx)
      rw [TokenBucket.isPenalized, not_lt, hown] at hpen
      exact (WithBot.coe_le_coe.mp (hdx.trans hpen)).trans (hr (Nat.zero_le 5))
    · cases hverdict : T.pass.verdict with
      | granted borrowed => exact (hrefused borrowed hverdict).elim
      | denied => simp [hverdict, passGrants] at hg
      | wait seconds => simp [hverdict, passGrants] at hg
  · refine ⟨?_, [], rfl, by simp⟩
    obtain ⟨c', hc', hx'⟩ := Option.map_eq_some_iff.mp hx
    simp only [deadlineOf, get?_setBucket, hc', Option.map_some, Option.mem_def,
      Option.some.injEq, exists_eq_left']
    split
    next hname =>
      obtain rfl : c' = c := Option.some.inj (hc'.symm.trans (hname ▸ hget))
      rw [TokenBucket.penaltyDeadline_penalize, hx']
      exact hdx.trans (le_max_left _ _)
    next => exact hx'.symm ▸ hdx
  · refine ⟨⟨x, ?_, hdx⟩, [], rfl, by simp⟩
    have htouched := h.regular.untouched_snapshotRefill (readings_monotone hclock s)
      (hclock (show s.ticks - 1 ≤ s.ticks + 0 by omega))
    rw [htouched.deadlineOf]
    exact hx

end Steps

/-! ## Runs -/

theorem Steady.run (hclock : Monotone clock) (h : Steady clock s) {l : List AcquireEvent}
    (hrun : (machine clock).run s l = some s') : Steady clock s' :=
  Machine.run_invariant (M := machine clock) (P := Steady clock)
    (fun _ _ _ h hstep => h.step hclock hstep) h hrun

theorem Steady.grants_run (hclock : Monotone clock) (h : Steady clock s) {l : List AcquireEvent}
    (hrun : (machine clock).run s l = some s') :
    ∃ grants, s'.grants = grants ++ s.grants ∧ s.ticks ≤ s'.ticks := by
  refine (Machine.run_invariant (M := machine clock)
    (P := fun t => Steady clock t ∧ ∃ grants, t.grants = grants ++ s.grants ∧ s.ticks ≤ t.ticks)
    (fun t e t' ht hstep => ?_) ⟨h, [], rfl, le_refl _⟩ hrun).2
  obtain ⟨hsteady, grants, hgrants, hticks⟩ := ht
  obtain ⟨grants', hgrants', hticks'⟩ := hsteady.grants_step hstep
  refine ⟨hsteady.step hclock hstep, grants' ++ grants, ?_, hticks.trans hticks'⟩
  rw [hgrants', hgrants, List.append_assoc]

/-- A run that grants nothing does not show in what the buckets hold later. -/
theorem Steady.available_run (hclock : Monotone clock) (h : Steady clock s)
    {l : List AcquireEvent} (hrun : (machine clock).run s l = some s')
    (hgrants : s'.grants = s.grants) {later : ℚ} (hlater : clock (s'.ticks - 1) ≤ later) :
    s'.limiter.SameAvailable s.limiter later := by
  induction l generalizing s with
  | nil =>
      obtain rfl : s = s' := by simpa using hrun
      exact ⟨rfl, fun _ => rfl⟩
  | cons e l ih =>
      obtain ⟨m, hm, hrest⟩ := Machine.run_cons_eq_some.mp hrun
      have hsteady := h.step hclock hm
      obtain ⟨grants, hfirst, -⟩ := h.grants_step hm
      obtain ⟨grants', hsecond, hticks⟩ := hsteady.grants_run hclock hrest
      -- neither the step nor the rest of the run has granted anything
      have hnone : grants' ++ grants = [] := by
        rw [hsecond, hfirst, ← List.append_assoc] at hgrants
        exact List.append_left_eq_self.mp hgrants
      obtain ⟨rfl, rfl⟩ := List.append_eq_nil_iff.mp hnone
      exact (ih hsteady hrest hsecond).trans
        (h.available_step hclock hm hfirst (le_trans (hclock (by omega)) hlater))

theorem Steady.deadline_run (hclock : Monotone clock) (h : Steady clock s)
    {l : List AcquireEvent} (hrun : (machine clock).run s l = some s') {child : String} {d : ℚ}
    (hd : ∃ x ∈ s.limiter.deadlineOf child, (d : WithBot ℚ) ≤ x) :
    ∃ grants, s'.grants = grants ++ s.grants ∧ ∀ g ∈ grants, g.child = child → d ≤ g.time := by
  refine (Machine.run_invariant (M := machine clock)
    (P := fun t => Steady clock t ∧ (∃ x ∈ t.limiter.deadlineOf child, (d : WithBot ℚ) ≤ x) ∧
      ∃ grants, t.grants = grants ++ s.grants ∧ ∀ g ∈ grants, g.child = child → d ≤ g.time)
    (fun t e t' ht hstep => ?_) ⟨h, hd, [], rfl, by simp⟩ hrun).2.2
  obtain ⟨hsteady, hdeadline, grants, hgrants, htimes⟩ := ht
  obtain ⟨hdeadline', grants', hgrants', htimes'⟩ := hsteady.deadline_step hclock hstep hdeadline
  refine ⟨hsteady.step hclock hstep, hdeadline', grants' ++ grants, ?_, fun g hg => ?_⟩
  · rw [hgrants', hgrants, List.append_assoc]
  · exact (List.mem_append.mp hg).elim (htimes' g) (htimes g)

/-! ## Penalties are absolute and refusals are free -/

/-- After a penalty of a child, the child is granted nothing, reserved or borrowed, before
the penalty ends, whatever happens in between. -/
def PenaltiesHonoured (clock : ℕ → ℚ) (s : AcquireState) : Prop :=
  ∀ child seconds l s', (machine clock).run s (.penalize child seconds :: l) = some s' →
    ∃ grants, s'.grants = grants ++ s.grants ∧
      ∀ g ∈ grants, g.child = child → clock s.ticks + seconds ≤ g.time

/-- A penalty of a child changes no token count, and no deadline but the child's. -/
def PenaltiesConfined (clock : ℕ → ℚ) (s : AcquireState) : Prop :=
  ∀ child seconds s', step clock s (.penalize child seconds) = some s' →
    (∀ now, s'.limiter.SameAvailable s.limiter now) ∧
      s'.limiter.globalBucket.penaltyDeadline = s.limiter.globalBucket.penaltyDeadline ∧
      ∀ name, name ≠ child → s'.limiter.deadlineOf name = s.limiter.deadlineOf name

/-- An attempt that is refused leaves a limiter whose buckets hold, at every later reading
up to the next grant, what they hold there when the attempt is not made.  Without the
attempt the clock gives other readings from then on, and other events may come. -/
def RefusalsFree (clock : ℕ → ℚ) (s : AcquireState) : Prop :=
  ∀ e T s₁, s.trial clock e = some T → step clock s e = some s₁ → s₁.grants = s.grants →
    ∀ l₁ t₁, (machine clock).run s₁ l₁ = some t₁ → t₁.grants = s₁.grants →
    ∀ clock', Monotone clock' → (∀ k < s.ticks, clock' k = clock k) →
    ∀ l₂ t₂, (machine clock').run s l₂ = some t₂ → t₂.grants = s.grants →
    ∀ now, clock (t₁.ticks - 1) ≤ now → clock' (t₂.ticks - 1) ≤ now →
      t₁.limiter.SameAvailable t₂.limiter now

/-- In every state that a limiter can reach, a penalty is honoured and confined to its
child, and a refused attempt costs nobody anything. -/
theorem penalties_honoured_refusals_free (hclock : Monotone clock) {globalRate : ℚ}
    {children : Table String ℚ} {l : List AcquireEvent}
    (hrun : (machine clock).run (create globalRate children clock) l = some s) :
    PenaltiesHonoured clock s ∧ PenaltiesConfined clock s ∧ RefusalsFree clock s := by
  have h := (steady_create hclock globalRate children).run hclock hrun
  refine ⟨fun child seconds l s' hrun' => ?_, fun child seconds s' hstep => ?_, ?_⟩
  · obtain ⟨m, hm, hrest⟩ := Machine.run_cons_eq_some.mp hrun'
    have hstep : step clock s (.penalize child seconds) = some m := hm
    have hpenalize := hstep
    simp only [step, HierarchicalLimiter.penalize] at hpenalize
    cases hget : s.limiter.children.get? child with
    | none => simp [hget] at hpenalize
    | some c =>
        simp only [hget, Option.some.injEq] at hpenalize
        have hdeadline : ∃ x ∈ m.limiter.deadlineOf child,
            ((clock s.ticks + seconds : ℚ) : WithBot ℚ) ≤ x := by
          subst hpenalize
          refine ⟨(c.bucket.penalize (clock s.ticks) seconds).penaltyDeadline, ?_, ?_⟩
          · simp [deadlineOf, get?_setBucket, hget, readings]
          · rw [TokenBucket.penaltyDeadline_penalize]
            exact le_max_right _ _
        have hsame : m.grants = s.grants := by rw [← hpenalize]
        rw [← hsame]
        exact (h.step hclock hstep).deadline_run hclock hrest hdeadline
  · simp only [step, HierarchicalLimiter.penalize] at hstep
    cases hget : s.limiter.children.get? child with
    | none => simp [hget] at hstep
    | some c =>
        simp only [hget, Option.some.injEq] at hstep
        subst hstep
        refine ⟨fun now => sameAvailable_penalize hget _ _ now, rfl, fun name hname => ?_⟩
        simp [deadlineOf, get?_setBucket, hname]
  · intro e T s₁ hT hstep hrefused l₁ t₁ hrun₁ hgrants₁ clock' hclock' hagree l₂ t₂ hrun₂ hgrants₂
      now hnow₁ hnow₂
    have hwith : t₁.limiter.SameAvailable s.limiter now :=
      h.available_run hclock (Machine.run_cons_eq_some.mpr ⟨s₁, hstep, hrun₁⟩)
        (hgrants₁.trans hrefused) hnow₁
    have hpos := h.ticks_pos
    have h' : Steady clock' s :=
      ⟨by rw [hagree _ (by omega)]; exact h.regular, h.ticks_pos, h.waiting_pos⟩
    exact hwith.trans (h'.available_run hclock' hrun₂ hgrants₂ hnow₂).symm

/-- A granted call, a penalty, and a refused call of the penalised child. -/
theorem penalties_honoured_penalised_call : ∃ s,
    (machine fun _ => 0).run (create 120 ⟨[("pypi.org", 60), ("other", 60)], by decide⟩ fun _ => 0)
        [.call "pypi.org" 1 none, .penalize "pypi.org" 30, .call "pypi.org" 1 none] = some s ∧
      s.grants.map (·.child) = ["pypi.org"] ∧ s.waiters.map (·.child) = ["pypi.org"] ∧
      PenaltiesHonoured (fun _ => 0) s ∧ PenaltiesConfined (fun _ => 0) s ∧
      RefusalsFree (fun _ => 0) s := by
  have hcompute : ((machine fun _ => 0).run
      (create 120 ⟨[("pypi.org", 60), ("other", 60)], by decide⟩ fun _ => 0)
      [.call "pypi.org" 1 none, .penalize "pypi.org" 30, .call "pypi.org" 1 none]).map (fun s =>
        (s.grants.map (·.child), s.waiters.map (·.child))) = some (["pypi.org"], ["pypi.org"]) := by
    decide +kernel
  obtain ⟨s, hrun, hfacts⟩ := Option.map_eq_some_iff.mp hcompute
  obtain ⟨hgrants, hwaiters⟩ := Prod.mk.inj hfacts
  exact ⟨s, hrun, hgrants, hwaiters, penalties_honoured_refusals_free monotone_const hrun⟩

end AcquireState

end RerollSync.RateLimit
