import Mathlib.Data.List.Basic
import Mathlib.Order.Basic

/-!
# Labelled transition machines

A machine is a partial step function: `step s a` is the state after the event
`a`, or `none` when `a` cannot happen in `s`.  A run is a list of events.
Invariants are proved once per step and transported to runs here, both for
unrestricted runs and for runs in which every step meets a side condition.
-/

namespace RerollSync.Support

universe u v

/-- A labelled transition system given by a partial step function. -/
structure Machine (σ : Type u) (α : Type v) where
  step : σ → α → Option σ

namespace Machine

variable {σ : Type u} {α : Type v}

/-- The state after a list of events, if every event is enabled. -/
def run (M : Machine σ α) : σ → List α → Option σ
  | s, [] => some s
  | s, a :: l =>
      match M.step s a with
      | none => none
      | some s' => run M s' l

@[simp] theorem run_nil (M : Machine σ α) (s : σ) : M.run s [] = some s := rfl

theorem run_cons_eq_some {M : Machine σ α} {s t : σ} {a : α} {l : List α} :
    M.run s (a :: l) = some t ↔ ∃ s', M.step s a = some s' ∧ M.run s' l = some t := by
  cases h : M.step s a with
  | none => simp [run, h]
  | some s' => simp [run, h]

theorem run_append_eq_some {M : Machine σ α} {s t : σ} {l l' : List α} :
    M.run s (l ++ l') = some t ↔ ∃ s', M.run s l = some s' ∧ M.run s' l' = some t := by
  induction l generalizing s with
  | nil => simp
  | cons a l ih =>
      rw [List.cons_append, run_cons_eq_some]
      constructor
      · rintro ⟨m, hm, hrun⟩
        obtain ⟨s', hs', ht⟩ := ih.mp hrun
        exact ⟨s', run_cons_eq_some.mpr ⟨m, hm, hs'⟩, ht⟩
      · rintro ⟨s', hs', ht⟩
        obtain ⟨m, hm, hrun⟩ := run_cons_eq_some.mp hs'
        exact ⟨m, hm, ih.mpr ⟨s', hrun, ht⟩⟩

theorem run_snoc_eq_some {M : Machine σ α} {s t : σ} {l : List α} {a : α} :
    M.run s (l ++ [a]) = some t ↔ ∃ s', M.run s l = some s' ∧ M.step s' a = some t := by
  rw [run_append_eq_some]
  constructor
  · rintro ⟨s', hs', hrun⟩
    obtain ⟨t', ht', hnil⟩ := run_cons_eq_some.mp hrun
    obtain rfl : t' = t := by simpa using hnil
    exact ⟨s', hs', ht'⟩
  · rintro ⟨s', hs', hstep⟩
    exact ⟨s', hs', run_cons_eq_some.mpr ⟨t, hstep, rfl⟩⟩

/-- Every step of the run from `s` along `l` starts in a state that meets `C`
for the event it takes. -/
def Along (M : Machine σ α) (C : σ → α → Prop) : σ → List α → Prop
  | _, [] => True
  | s, a :: l => C s a ∧
      match M.step s a with
      | none => True
      | some s' => Along M C s' l

instance decidableAlong (M : Machine σ α) (C : σ → α → Prop) [∀ s a, Decidable (C s a)] :
    ∀ s l, Decidable (M.Along C s l)
  | _, [] => inferInstanceAs (Decidable True)
  | s, a :: l =>
      match h : M.step s a with
      | none => decidable_of_iff (C s a) (by simp [Along, h])
      | some s' =>
          have := decidableAlong M C s' l
          decidable_of_iff (C s a ∧ M.Along C s' l) (by simp [Along, h])

theorem along_cons {M : Machine σ α} {C : σ → α → Prop} {s s' : σ} {a : α} {l : List α}
    (hstep : M.step s a = some s') :
    M.Along C s (a :: l) ↔ C s a ∧ M.Along C s' l := by
  simp [Along, hstep]

theorem along_append {M : Machine σ α} {C : σ → α → Prop} {s s' : σ} {l l' : List α}
    (hrun : M.run s l = some s') :
    M.Along C s (l ++ l') ↔ M.Along C s l ∧ M.Along C s' l' := by
  induction l generalizing s with
  | nil =>
      obtain rfl : s = s' := by simpa using hrun
      simp [Along]
  | cons a l ih =>
      obtain ⟨m, hm, hrest⟩ := run_cons_eq_some.mp hrun
      rw [List.cons_append, along_cons hm, along_cons hm, ih hrest, and_assoc]

/-- A side condition that the events meet in every state holds along every run. -/
theorem along_of_forall {M : Machine σ α} {C : σ → α → Prop} {l : List α}
    (h : ∀ a ∈ l, ∀ s, C s a) (s : σ) : M.Along C s l := by
  induction l generalizing s with
  | nil => trivial
  | cons a l ih =>
      refine ⟨h a (by simp) s, ?_⟩
      cases M.step s a with
      | none => trivial
      | some s' => exact ih (fun b hb => h b (by simp [hb])) s'

theorem along_and {M : Machine σ α} {C D : σ → α → Prop} {s : σ} {l : List α} :
    M.Along (fun s a => C s a ∧ D s a) s l ↔ M.Along C s l ∧ M.Along D s l := by
  induction l generalizing s with
  | nil => simp [Along]
  | cons a l ih =>
      cases h : M.step s a with
      | none => simp [Along, h]
      | some s' =>
          rw [along_cons h, along_cons h, along_cons h, ih]
          tauto

/-- A run some step of which fails `C` passes through such a step. -/
theorem exists_of_not_along {M : Machine σ α} {C : σ → α → Prop} {s t : σ} {l : List α}
    (hrun : M.run s l = some t) (h : ¬M.Along C s l) :
    ∃ l₁ a l₂ m m', l = l₁ ++ a :: l₂ ∧ M.run s l₁ = some m ∧ ¬C m a ∧
      M.step m a = some m' ∧ M.run m' l₂ = some t := by
  induction l generalizing s with
  | nil => exact (h trivial).elim
  | cons a l ih =>
      obtain ⟨m, hm, hrest⟩ := run_cons_eq_some.mp hrun
      by_cases hC : C s a
      · obtain ⟨l₁, b, l₂, n, n', rfl, hrun₁, hnot, hstep, hrun₂⟩ :=
          ih hrest fun hl => h ((along_cons hm).mpr ⟨hC, hl⟩)
        exact ⟨a :: l₁, b, l₂, n, n', rfl, run_cons_eq_some.mpr ⟨m, hm, hrun₁⟩, hnot, hstep,
          hrun₂⟩
      · exact ⟨[], a, l, s, m, rfl, rfl, hC, hm, hrest⟩

/-- An invariant preserved by every step that meets `C` holds after every run
all of whose steps meet `C`. -/
theorem run_invariant_along {M : Machine σ α} {C : σ → α → Prop} {P : σ → Prop}
    (hstep : ∀ s a s', P s → C s a → M.step s a = some s' → P s')
    {s t : σ} {l : List α} (hs : P s) (hC : M.Along C s l)
    (hrun : M.run s l = some t) : P t := by
  induction l generalizing s with
  | nil =>
      obtain rfl : s = t := by simpa using hrun
      exact hs
  | cons a l ih =>
      obtain ⟨m, hm, hrest⟩ := run_cons_eq_some.mp hrun
      obtain ⟨hCa, hCl⟩ := (along_cons hm).mp hC
      exact ih (hstep s a m hs hCa hm) hCl hrest

/-- An invariant preserved by every step holds after every run. -/
theorem run_invariant {M : Machine σ α} {P : σ → Prop}
    (hstep : ∀ s a s', P s → M.step s a = some s' → P s')
    {s t : σ} {l : List α} (hs : P s) (hrun : M.run s l = some t) : P t := by
  induction l generalizing s with
  | nil =>
      obtain rfl : s = t := by simpa using hrun
      exact hs
  | cons a l ih =>
      obtain ⟨m, hm, hrest⟩ := run_cons_eq_some.mp hrun
      exact ih (hstep s a m hs hm) hrest

/-- A relation to a fold over the events that every step keeps holds after every run. -/
theorem run_simulates {τ : Type*} {M : Machine σ α} {f : τ → α → τ} {R : σ → τ → Prop}
    {l : List α} (hstep : ∀ s p, ∀ a ∈ l, ∀ s', R s p → M.step s a = some s' → R s' (f p a))
    {s t : σ} {p : τ} (hs : R s p) (hrun : M.run s l = some t) : R t (l.foldl f p) := by
  induction l generalizing s p with
  | nil =>
      obtain rfl : s = t := by simpa using hrun
      exact hs
  | cons a l ih =>
      obtain ⟨m, hm, hrest⟩ := run_cons_eq_some.mp hrun
      exact ih (fun s p b hb => hstep s p b (by simp [hb])) (hstep s p a (by simp) m hs hm) hrest

/-- Two side conditions that agree in the states of an invariant, which either of
them preserves, hold along the same runs. -/
theorem along_iff_of_invariant {M : Machine σ α} {C D : σ → α → Prop} {P : σ → Prop}
    (hstep : ∀ s a s', P s → C s a → M.step s a = some s' → P s')
    (hiff : ∀ s a s', P s → M.step s a = some s' → (C s a ↔ D s a))
    {s t : σ} {l : List α} (hs : P s) (hrun : M.run s l = some t) :
    M.Along C s l ↔ M.Along D s l := by
  induction l generalizing s with
  | nil => exact Iff.rfl
  | cons a l ih =>
      obtain ⟨m, hm, hrest⟩ := run_cons_eq_some.mp hrun
      rw [along_cons hm, along_cons hm, hiff s a m hs hm]
      refine and_congr_right fun hD => ih (hstep s a m hs ?_ hm) hrest
      exact (hiff s a m hs hm).mpr hD

/-- Every state that the run from `s` along `l` passes through satisfies `P`. -/
def Always (M : Machine σ α) (P : σ → Prop) (s : σ) (l : List α) : Prop :=
  ∀ l' t, l' <+: l → M.run s l' = some t → P t

theorem always_cons {M : Machine σ α} {P : σ → Prop} {s s' : σ} {a : α} {l : List α}
    (hstep : M.step s a = some s') : M.Always P s (a :: l) ↔ P s ∧ M.Always P s' l := by
  constructor
  · intro h
    refine ⟨h [] s List.nil_prefix rfl, fun l' t hprefix hrun => ?_⟩
    exact h (a :: l') t (List.cons_prefix_cons.mpr ⟨rfl, hprefix⟩)
      (run_cons_eq_some.mpr ⟨s', hstep, hrun⟩)
  · rintro ⟨hs, h⟩ l' t hprefix hrun
    cases l' with
    | nil =>
        obtain rfl : s = t := by simpa using hrun
        exact hs
    | cons b l' =>
        obtain ⟨rfl, htail⟩ := List.cons_prefix_cons.mp hprefix
        obtain ⟨m, hm, hrest⟩ := run_cons_eq_some.mp hrun
        obtain rfl : s' = m := by simpa [hstep] using hm
        exact h l' t htail hrest

/-- Two properties that agree in the states of an invariant hold throughout the
same runs. -/
theorem always_congr {M : Machine σ α} {P P' Q : σ → Prop}
    (hinv : ∀ s a s', Q s → M.step s a = some s' → Q s') (h : ∀ s, Q s → (P s ↔ P' s))
    {s : σ} {l : List α} (hs : Q s) : M.Always P s l ↔ M.Always P' s l := by
  refine forall₂_congr fun l' t => imp_congr_right fun _ => ?_
  refine forall_congr' fun hrun => ?_
  exact h t (run_invariant hinv hs hrun)

/-- An invariant that implies `P`, and is preserved by every step that meets `C`,
keeps `P` throughout every run all of whose steps meet `C`. -/
theorem always_of_along {M : Machine σ α} {C : σ → α → Prop} {P Q : σ → Prop}
    (hstep : ∀ s a s', Q s → C s a → M.step s a = some s' → Q s') (himp : ∀ s, Q s → P s)
    {s t : σ} {l : List α} (hs : Q s) (hC : M.Along C s l) (hrun : M.run s l = some t) :
    M.Always P s l := by
  rintro l' t' ⟨l'', rfl⟩ hrun'
  exact himp t' (run_invariant_along hstep hs ((along_append hrun').mp hC).1 hrun')

/-- When a step that meets `C` keeps `P`, and one that does not loses it, `P` holds
throughout a run exactly if every step of the run meets `C`. -/
theorem always_iff_along {M : Machine σ α} {C : σ → α → Prop} {P Q : σ → Prop}
    (hinv : ∀ s a s', Q s → M.step s a = some s' → Q s')
    (hiff : ∀ s a s', Q s → P s → M.step s a = some s' → (P s' ↔ C s a))
    {s t : σ} {l : List α} (hQ : Q s) (hP : P s) (hrun : M.run s l = some t) :
    M.Always P s l ↔ M.Along C s l := by
  induction l generalizing s with
  | nil =>
      refine ⟨fun _ => trivial, fun _ l' t' hprefix hrun' => ?_⟩
      obtain rfl := List.prefix_nil.mp hprefix
      obtain rfl : s = t' := by simpa using hrun'
      exact hP
  | cons a l ih =>
      obtain ⟨m, hm, hrest⟩ := run_cons_eq_some.mp hrun
      rw [always_cons hm, along_cons hm]
      constructor
      · rintro ⟨-, hrest'⟩
        have hPm : P m := hrest' [] m List.nil_prefix rfl
        exact ⟨(hiff s a m hQ hP hm).mp hPm, (ih (hinv s a m hQ hm) hPm hrest).mp hrest'⟩
      · rintro ⟨hC, hrest'⟩
        have hPm : P m := (hiff s a m hQ hP hm).mpr hC
        exact ⟨hP, (ih (hinv s a m hQ hm) hPm hrest).mpr hrest'⟩

end Machine

end RerollSync.Support
