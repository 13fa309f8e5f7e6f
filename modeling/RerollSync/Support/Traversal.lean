import Mathlib.Data.List.Basic

/-!
# Going through a list with exceptions

`mapM` in `Except`: it returns when every item does, and otherwise raises what the first
item raises that does not.
-/

namespace RerollSync.Support

variable {ε α : Type} {β : Type} {f : α → Except ε β}

theorem mapM_cons_eq (a : α) (l : List α) : (a :: l).mapM f =
    match f a, l.mapM f with
    | .ok b, .ok bs => .ok (b :: bs)
    | .ok _, .error e => .error e
    | .error e, _ => .error e := by
  rw [List.mapM_cons]
  cases f a with
  | error e => rfl
  | ok b =>
      cases l.mapM f with
      | error e => rfl
      | ok bs => rfl

theorem exists_mapM_eq_ok_iff {l : List α} :
    (∃ bs, l.mapM f = .ok bs) ↔ ∀ a ∈ l, ∃ b, f a = .ok b := by
  induction l with
  | nil => exact iff_of_true ⟨[], rfl⟩ (by simp)
  | cons a l ih =>
      rw [List.forall_mem_cons, ← ih, mapM_cons_eq]
      cases f a with
      | error e => simp
      | ok b =>
          cases l.mapM f with
          | error e => simp
          | ok bs => simp

theorem mem_iff_of_mapM_eq_ok {l : List α} {bs : List β} (h : l.mapM f = .ok bs) {b : β} :
    b ∈ bs ↔ ∃ a ∈ l, f a = .ok b := by
  induction l generalizing bs with
  | nil =>
      obtain rfl := Except.ok.inj h
      simp
  | cons a l ih =>
      rw [mapM_cons_eq] at h
      cases ha : f a with
      | error e => simp [ha] at h
      | ok b' =>
          cases hl : l.mapM f with
          | error e => simp [ha, hl] at h
          | ok bs' =>
              simp only [ha, hl, Except.ok.injEq] at h
              subst h
              rw [List.mem_cons, ih hl, List.exists_mem_cons_iff, ha, Except.ok.injEq, eq_comm]

/-- A second procedure returns the images of what the first one returns. -/
theorem flatten_eq_nil_iff_of_mapM_eq_ok {γ : Type} {f : α → Except ε (List γ)} {l : List α}
    {bs : List (List γ)} (h : l.mapM f = .ok bs) : bs.flatten = [] ↔ ∀ a ∈ l, f a = .ok [] := by
  rw [List.flatten_eq_nil_iff]
  constructor
  · intro hnil a ha
    obtain ⟨b, hb⟩ := exists_mapM_eq_ok_iff.mp ⟨bs, h⟩ a ha
    rw [hb, hnil b ((mem_iff_of_mapM_eq_ok h).mpr ⟨a, ha, hb⟩)]
  · intro hall b hb
    obtain ⟨a, ha, hfa⟩ := (mem_iff_of_mapM_eq_ok h).mp hb
    exact Except.ok.inj (hfa.symm.trans (hall a ha))

theorem mapM_eq_ok_map {γ : Type} {g : α → Except ε γ} {h : β → γ} {l : List α} {bs : List β}
    (hl : l.mapM f = .ok bs) (hg : ∀ a b, f a = .ok b → g a = .ok (h b)) :
    l.mapM g = .ok (bs.map h) := by
  induction l generalizing bs with
  | nil =>
      obtain rfl := Except.ok.inj hl
      rfl
  | cons a l ih =>
      rw [mapM_cons_eq] at hl ⊢
      cases ha : f a with
      | error e => simp [ha] at hl
      | ok b =>
          cases hrest : l.mapM f with
          | error e => simp [ha, hrest] at hl
          | ok bs' =>
              simp only [ha, hrest, Except.ok.injEq] at hl
              subst hl
              rw [hg a b ha, ih hrest]
              rfl

theorem mapM_map_eq_ok {γ : Type} {g : γ → α} {h : γ → β} {l : List γ}
    (hf : ∀ a ∈ l, f (g a) = .ok (h a)) : (l.map g).mapM f = .ok (l.map h) := by
  induction l with
  | nil => rfl
  | cons a l ih =>
      rw [List.map_cons, mapM_cons_eq, hf a (by simp), ih fun b hb => hf b (by simp [hb])]
      rfl

/-- It raises what the first item raises that does not return. -/
theorem mapM_eq_error_iff {l : List α} {e : ε} : l.mapM f = .error e ↔
    ∃ (k : ℕ) (a : α), l[k]? = some a ∧ f a = .error e ∧
      ∀ j < k, ∀ a', l[j]? = some a' → ∃ b, f a' = .ok b := by
  induction l with
  | nil => exact iff_of_false (fun h => by cases h) (by simp)
  | cons a l ih =>
      rw [mapM_cons_eq]
      constructor
      · cases ha : f a with
        | error e' =>
            intro h
            exact ⟨0, a, rfl, by rw [ha, Except.error.inj h], fun j hj => absurd hj (by omega)⟩
        | ok b =>
            cases hl : l.mapM f with
            | ok bs => exact fun h => by cases h
            | error e' =>
                intro h
                obtain ⟨k, a', hk, ha', hbefore⟩ := ih.mp (hl.trans h)
                refine ⟨k + 1, a', by simpa using hk, ha', fun j hj a'' hj' => ?_⟩
                cases j with
                | zero =>
                    obtain rfl : a = a'' := by simpa using hj'
                    exact ⟨b, ha⟩
                | succ j => exact hbefore j (by omega) a'' (by simpa using hj')
      · rintro ⟨k, a', hk, ha', hbefore⟩
        cases k with
        | zero =>
            obtain rfl : a = a' := by simpa using hk
            rw [ha']
        | succ k =>
            obtain ⟨b, hb⟩ := hbefore 0 (by omega) a rfl
            rw [hb, ih.mpr ⟨k, a', by simpa using hk, ha', fun j hj a'' hj' =>
              hbefore (j + 1) (by omega) a'' (by simpa using hj')⟩]

/-- The same for numbered items. -/
theorem zipIdx_mapM_eq_error_iff {f : α × ℕ → Except ε β} {l : List α} {e : ε} :
    l.zipIdx.mapM f = .error e ↔
      ∃ (k : ℕ) (a : α), l[k]? = some a ∧ f (a, k) = .error e ∧
        ∀ j < k, ∀ a', l[j]? = some a' → ∃ b, f (a', j) = .ok b := by
  rw [mapM_eq_error_iff]
  simp only [List.getElem?_zipIdx, Option.map_eq_some_iff, Nat.zero_add]
  constructor
  · rintro ⟨k, p, ⟨a, hk, rfl⟩, ha, hbefore⟩
    exact ⟨k, a, hk, ha, fun j hj a' hj' => hbefore j hj _ ⟨a', hj', rfl⟩⟩
  · rintro ⟨k, a, hk, ha, hbefore⟩
    refine ⟨k, (a, k), ⟨a, hk, rfl⟩, ha, fun j hj p hp => ?_⟩
    obtain ⟨a', hj', rfl⟩ := hp
    exact hbefore j hj a' hj'

theorem exists_zipIdx_mapM_eq_ok_iff {f : α × ℕ → Except ε β} {l : List α} :
    (∃ bs, l.zipIdx.mapM f = .ok bs) ↔
      ∀ (k : ℕ) (a : α), l[k]? = some a → ∃ b, f (a, k) = .ok b := by
  rw [exists_mapM_eq_ok_iff]
  simp only [Prod.forall, List.mem_zipIdx_iff_getElem?]
  exact ⟨fun h k a hk => h a k hk, fun h a k hk => h k a hk⟩

end RerollSync.Support
