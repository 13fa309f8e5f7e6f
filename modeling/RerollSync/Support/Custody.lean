import Mathlib.Data.List.Nodup
import Mathlib.Data.List.Perm.Basic

/-!
# Custody

Ids are taken into a list of those in flight and stay there until they are released,
and every id in flight should have one holder.  A procedure that goes through ids it
took hands some of them to holders, releases others, and leaves the rest behind: the
ids keep their holders exactly when it leaves none.
-/

namespace RerollSync.Support

universe u

variable {ι : Type u}

/-- Holders of distinct ids that are in flight. -/
structure Owned (inFlight holders : List ι) : Prop where
  nodup : holders.Nodup
  subset : holders ⊆ inFlight

/-- Every id in flight has one holder. -/
def Conserved [DecidableEq ι] (inFlight holders : List ι) : Prop :=
  ∀ id ∈ inFlight, holders.count id = 1

/-- What becomes of ids that a procedure has taken: those it hands to holders and those
it leaves behind stay in flight, and the others do not. -/
structure Swept (taken held left inFlight inFlight' : List ι) : Prop where
  nodup : (held ++ left).Nodup
  subset : held ++ left ⊆ taken
  mem_iff : ∀ id, id ∈ inFlight' ↔ id ∈ inFlight ∧ (id ∈ taken → id ∈ held ++ left)

variable {inFlight inFlight' holders holders' taken held left : List ι} {x : ι}

/-! ## Holders -/

theorem owned_nil (inFlight : List ι) : Owned inFlight [] := ⟨List.nodup_nil, List.nil_subset _⟩

theorem Owned.perm (h : Owned inFlight holders) (hperm : holders.Perm holders') :
    Owned inFlight holders' :=
  ⟨hperm.nodup_iff.mp h.nodup, fun _ hid => h.subset (hperm.mem_iff.mpr hid)⟩

theorem Owned.conserved_iff [DecidableEq ι] (h : Owned inFlight holders) :
    Conserved inFlight holders ↔ inFlight ⊆ holders := by
  constructor
  · intro hconserved id hid
    exact List.count_pos_iff.mp (by rw [hconserved id hid]; exact Nat.one_pos)
  · intro hsubset id hid
    exact List.count_eq_one_of_mem h.nodup (hsubset hid)

theorem Conserved.perm [DecidableEq ι] (h : Conserved inFlight holders)
    (hperm : holders.Perm holders') : Conserved inFlight holders' := fun id hid => by
  rw [← hperm.count_eq, h id hid]

/-- Ids that were not in flight are taken. -/
theorem Owned.append (h : Owned inFlight holders) (hnodup : taken.Nodup)
    (hfresh : ∀ id ∈ taken, id ∉ inFlight) : Owned (inFlight ++ taken) (holders ++ taken) where
  nodup := List.nodup_append.mpr ⟨h.nodup, hnodup, fun _ ha _ hb heq =>
    hfresh _ hb (heq ▸ h.subset ha)⟩
  subset := List.append_subset.mpr ⟨List.subset_append_of_subset_left _ h.subset,
    List.subset_append_right _ _⟩

theorem Conserved.append [DecidableEq ι] (h : Owned inFlight holders)
    (hconserved : Conserved inFlight holders) (hnodup : taken.Nodup)
    (hfresh : ∀ id ∈ taken, id ∉ inFlight) :
    Conserved (inFlight ++ taken) (holders ++ taken) :=
  (h.append hnodup hfresh).conserved_iff.mpr <| List.append_subset.mpr
    ⟨List.subset_append_of_subset_left _ (h.conserved_iff.mp hconserved),
      List.subset_append_right _ _⟩

/-! ## Going through the ids -/

variable (inFlight) in
theorem swept_nil : Swept [] [] [] inFlight inFlight :=
  ⟨List.nodup_nil, List.nil_subset _, fun id => by simp⟩

variable (inFlight) in
/-- Nothing becomes of the ids. -/
theorem swept_of_left (h : taken.Nodup) : Swept taken [] taken inFlight inFlight :=
  ⟨h, List.Subset.refl _, fun id => by simp⟩

/-- The ids are all released. -/
theorem swept_of_released (h : ∀ id, id ∈ inFlight' ↔ id ∈ inFlight ∧ id ∉ taken) :
    Swept taken [] [] inFlight inFlight' :=
  ⟨List.nodup_nil, List.nil_subset _, fun id => by simp [h]⟩

theorem Swept.perm {taken' : List ι} (h : Swept taken held left inFlight inFlight')
    (hperm : taken.Perm taken') : Swept taken' held left inFlight inFlight' :=
  ⟨h.nodup, fun _ hid => hperm.mem_iff.mp (h.subset hid), fun id => by
    rw [h.mem_iff, hperm.mem_iff]⟩

/-- An id that is handed to a holder, before the others. -/
theorem Swept.keep (h : Swept taken held left inFlight inFlight') (hx : x ∉ taken) :
    Swept (x :: taken) (x :: held) left inFlight inFlight' where
  nodup := List.nodup_cons.mpr ⟨fun hmem => hx (h.subset hmem), h.nodup⟩
  subset := List.cons_subset_cons x h.subset
  mem_iff id := by
    rw [h.mem_iff, List.cons_append, List.mem_cons, List.mem_cons]
    by_cases hid : id = x
    · simp [hid, hx]
    · simp [hid]

/-- An id that is left behind, before the others. -/
theorem Swept.lose (h : Swept taken held left inFlight inFlight') (hx : x ∉ taken) :
    Swept (x :: taken) held (x :: left) inFlight inFlight' :=
  have hkeep := h.keep hx
  ⟨List.perm_middle.nodup_iff.mpr hkeep.nodup,
    fun _ hid => hkeep.subset (List.perm_middle.mem_iff.mp hid),
    fun id => by rw [hkeep.mem_iff, List.perm_middle.mem_iff, List.cons_append]⟩

/-- Ids that are released, before the others. -/
theorem Swept.release {inFlight₁ released : List ι}
    (h : Swept taken held left inFlight₁ inFlight')
    (hreleased : ∀ id, id ∈ inFlight₁ ↔ id ∈ inFlight ∧ id ∉ released)
    (hdisjoint : ∀ id ∈ released, id ∉ taken) :
    Swept (released ++ taken) held left inFlight inFlight' where
  nodup := h.nodup
  subset := List.subset_append_of_subset_right _ h.subset
  mem_iff id := by
    rw [h.mem_iff, hreleased]
    by_cases hid : id ∈ released
    · have hnot : ¬(id ∈ held ∨ id ∈ left) := fun hmem =>
        hdisjoint id hid (h.subset (List.mem_append.mpr hmem))
      simp [hid, hnot]
    · simp [hid]

/-! ## After the procedure -/

variable {stay : List ι}

theorem Swept.owned (h : Swept taken held left inFlight inFlight')
    (hown : Owned inFlight (stay ++ taken)) : Owned inFlight' (stay ++ held) := by
  obtain ⟨hstay, -, hdisjoint⟩ := List.nodup_append.mp hown.nodup
  have hheld : held ⊆ taken := (List.append_subset.mp h.subset).1
  refine ⟨List.nodup_append.mpr ⟨hstay, (List.nodup_append.mp h.nodup).1, fun a ha b hb =>
    hdisjoint a ha b (hheld hb)⟩, List.append_subset.mpr ⟨fun id hid => ?_, fun id hid => ?_⟩⟩
  · refine (h.mem_iff id).mpr ⟨hown.subset (List.mem_append_left _ hid), fun htaken => ?_⟩
    exact (hdisjoint id hid id htaken rfl).elim
  · exact (h.mem_iff id).mpr ⟨hown.subset (List.mem_append_right _ (hheld hid)),
      fun _ => List.mem_append_left _ hid⟩

/-- The ids keep their holders exactly when none is left behind. -/
theorem Swept.conserved_iff [DecidableEq ι] (h : Swept taken held left inFlight inFlight')
    (hown : Owned inFlight (stay ++ taken)) (hconserved : Conserved inFlight (stay ++ taken)) :
    Conserved inFlight' (stay ++ held) ↔ left = [] := by
  obtain ⟨-, -, hdisjoint⟩ := List.nodup_append.mp hown.nodup
  rw [(h.owned hown).conserved_iff]
  constructor
  · intro hsubset
    refine List.eq_nil_iff_forall_not_mem.mpr fun id hid => ?_
    have htaken : id ∈ taken := h.subset (List.mem_append_right _ hid)
    have hin : id ∈ inFlight' := (h.mem_iff id).mpr
      ⟨hown.subset (List.mem_append_right _ htaken), fun _ => List.mem_append_right _ hid⟩
    rcases List.mem_append.mp (hsubset hin) with hstay | hheld
    · exact hdisjoint id hstay id htaken rfl
    · exact (List.nodup_append.mp h.nodup).2.2 id hheld id hid rfl
  · rintro rfl id hid
    obtain ⟨hin, hkept⟩ := (h.mem_iff id).mp hid
    rw [List.append_nil] at hkept
    rcases List.mem_append.mp (hown.conserved_iff.mp hconserved hin) with hstay | htaken
    · exact List.mem_append_left _ hstay
    · exact List.mem_append_right _ (hkept htaken)

end RerollSync.Support
