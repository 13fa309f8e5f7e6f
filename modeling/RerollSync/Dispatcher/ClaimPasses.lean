import RerollSync.Pipeline.Machine

/-!
# Passes over a queue

Repeated claims of a stage read its queue page by page behind the cursor.  A short
page ends a pass and the next one starts from the front; what a claim has returned is
in flight and is not returned again.
-/

namespace RerollSync.Dispatcher

open RerollSync.Store RerollSync.Support

section Passes

variable (stage : Stage) (limit : ℕ) (nowIso : String) (db : Db)

/-- A row that the queue of the stage holds: in its state, neither deferred nor
quarantined. -/
def Queued (r : ℕ × WheelRow) : Prop :=
  db.wheels.get? r.1 = some r.2 ∧ r.2.state = queueState stage ∧
    (db.work.get? (r.1, stage)).any (deferring nowIso) = false

/-- The item that `claim` makes of a row. -/
def queueItem (r : ℕ × WheelRow) : QueueItem := ⟨r.1, r.2.project, r.2.lane, queueState stage⟩

/-- The pages of `turns` claims in a row. -/
def claimPages : ℕ → Queues → List (List QueueItem)
  | 0, _ => []
  | turns + 1, queues =>
      (claim stage limit nowIso db queues).1 ::
        claimPages turns (claim stage limit nowIso db queues).2

/-- The queues after `turns` claims in a row. -/
def claimQueues : ℕ → Queues → Queues
  | 0, queues => queues
  | turns + 1, queues => claimQueues turns (claim stage limit nowIso db queues).2

end Passes

/-- `(lane, project, id)` order. -/
def QueueItem.Before (a b : QueueItem) : Prop :=
  a.lane < b.lane ∨ (a.lane = b.lane ∧ a.project < b.project) ∨
    (a.lane = b.lane ∧ a.project = b.project ∧ a.id < b.id)

/-- What repeated claims return: no wheel twice, and only wheels of the queue that were
not in flight; between two short pages in order; and after two short pages all of them. -/
structure Paginated (stage : Stage) (limit : ℕ) (nowIso : String) (db : Db) (queues : Queues)
    (pages : List (List QueueItem)) : Prop where
  nodup : (pages.flatten.map QueueItem.id).Nodup
  queued : ∀ item ∈ pages.flatten, ∃ r, Queued stage nowIso db r ∧
    r.1 ∉ queues.inFlight stage ∧ item = queueItem stage r
  ordered : ∀ before pass after, pages = before ++ pass ++ after →
    (∀ page ∈ pass.dropLast, page.length = limit) → pass.flatten.Pairwise QueueItem.Before
  complete : 2 ≤ pages.countP (fun page => page.length < limit) → ∀ r, Queued stage nowIso db r →
    r.1 ∉ queues.inFlight stage → queueItem stage r ∈ pages.flatten

/-! ## One claim -/

section Claim

variable {stage : Stage} {limit : ℕ} {nowIso : String} {db : Db} {queues : Queues}

theorem QueueItem.Before.trans {a b c : QueueItem} (hab : a.Before b) (hbc : b.Before c) :
    a.Before c := by
  unfold QueueItem.Before at *
  rcases hab with hab | ⟨hlane, hab⟩ | ⟨hlane, hproject, hab⟩
  · rcases hbc with hbc | ⟨hlane', -⟩ | ⟨hlane', -⟩
    · exact Or.inl (hab.trans hbc)
    · exact Or.inl (hlane' ▸ hab)
    · exact Or.inl (hlane' ▸ hab)
  · rcases hbc with hbc | ⟨hlane', hbc⟩ | ⟨hlane', hproject', -⟩
    · exact Or.inl (hlane ▸ hbc)
    · exact Or.inr (Or.inl ⟨hlane.trans hlane', String.lt_trans hab hbc⟩)
    · exact Or.inr (Or.inl ⟨hlane.trans hlane', hproject' ▸ hab⟩)
  · rcases hbc with hbc | ⟨hlane', hbc⟩ | ⟨hlane', hproject', hbc⟩
    · exact Or.inl (hlane ▸ hbc)
    · exact Or.inr (Or.inl ⟨hlane.trans hlane', hproject ▸ hbc⟩)
    · exact Or.inr (Or.inr ⟨hlane.trans hlane', hproject.trans hproject', hab.trans hbc⟩)

/-- The rows that a claim chooses from. -/
theorem mem_claim_iff {item : QueueItem} : item ∈ (claim stage limit nowIso db queues).1 ↔
    ∃ r ∈ claimQuery stage (queues.cursors stage) (queues.inFlight stage) nowIso limit db,
      queueItem stage r = item := List.mem_map

theorem mem_claimable_iff {r : ℕ × WheelRow} :
    r ∈ db.wheels.rows.filter (fun r => decide (r.2.state = queueState stage ∧
      laneProjectIdKeyset (queues.cursors stage) r.1 r.2 ∧
      ¬(db.work.get? (r.1, stage)).any (deferring nowIso) ∧ r.1 ∉ queues.inFlight stage)) ↔
    Queued stage nowIso db r ∧ laneProjectIdKeyset (queues.cursors stage) r.1 r.2 = true ∧
      r.1 ∉ queues.inFlight stage := by
  rw [List.mem_filter, decide_eq_true_eq, Queued, Table.get?_eq_some_iff, Bool.not_eq_true]
  tauto

/-- What a claim returns was in the queue, behind the cursor and not in flight. -/
theorem queued_of_mem_claim {item : QueueItem}
    (h : item ∈ (claim stage limit nowIso db queues).1) :
    ∃ r, Queued stage nowIso db r ∧
      laneProjectIdKeyset (queues.cursors stage) r.1 r.2 = true ∧
      r.1 ∉ queues.inFlight stage ∧ item = queueItem stage r := by
  obtain ⟨r, hr, rfl⟩ := mem_claim_iff.mp h
  obtain ⟨hqueued, hkeyset, hinFlight⟩ := mem_claimable_iff.mp (mem_of_mem_page hr)
  exact ⟨r, hqueued, hkeyset, hinFlight, rfl⟩

theorem before_of_queueLe {a b : ℕ × WheelRow} (h : queueLe a b) (hne : a.1 ≠ b.1) :
    (queueItem stage a).Before (queueItem stage b) := by
  rcases h with h | h | ⟨hlane, hproject, hid⟩
  · exact Or.inl h
  · exact Or.inr (Or.inl h)
  · exact Or.inr (Or.inr ⟨hlane, hproject, lt_of_le_of_ne hid hne⟩)

/-- A page is in order. -/
theorem pairwise_claim : (claim stage limit nowIso db queues).1.Pairwise QueueItem.Before := by
  have hids : ((claimQuery stage (queues.cursors stage) (queues.inFlight stage) nowIso limit
      db).map Prod.fst).Nodup := ids_claim ▸ nodup_claim
  have hsorted : (claimQuery stage (queues.cursors stage) (queues.inFlight stage) nowIso limit
      db).Pairwise queueLe := pairwise_page
  refine List.pairwise_map.mpr ?_
  exact (hsorted.and (List.pairwise_map.mp hids)).imp fun h => before_of_queueLe h.1 h.2

/-- A row behind the cursor is on the page, or the page is full and comes before it. -/
theorem mem_claim_or {r : ℕ × WheelRow} (hqueued : Queued stage nowIso db r)
    (hkeyset : laneProjectIdKeyset (queues.cursors stage) r.1 r.2 = true)
    (hinFlight : r.1 ∉ queues.inFlight stage) :
    queueItem stage r ∈ (claim stage limit nowIso db queues).1 ∨
      ((claim stage limit nowIso db queues).1.length = limit ∧
        ∀ item ∈ (claim stage limit nowIso db queues).1, item.Before (queueItem stage r)) := by
  have hmem := mem_claimable_iff.mpr ⟨hqueued, hkeyset, hinFlight⟩
  by_cases hpage : r ∈ claimQuery stage (queues.cursors stage) (queues.inFlight stage) nowIso
      limit db
  · exact Or.inl (mem_claim_iff.mpr ⟨r, hpage, rfl⟩)
  · refine Or.inr ⟨?_, fun item hitem => ?_⟩
    · rw [claim, List.length_map]
      exact length_page_of_not_mem hmem hpage
    · obtain ⟨r', hr', rfl⟩ := mem_claim_iff.mp hitem
      refine before_of_queueLe (rel_of_not_mem_page hr' hmem hpage) fun hid => hpage ?_
      -- rows with one id are one row
      have hrow := (mem_claimable_iff.mp (mem_of_mem_page hr')).1.1
      rw [hid, hqueued.1] at hrow
      obtain rfl : r' = r := Prod.ext hid (Option.some.inj hrow).symm
      exact hr'

/-- A row of the queue is claimed when its id is. -/
theorem mem_claim_of_id {r : ℕ × WheelRow} (hqueued : Queued stage nowIso db r)
    (hid : r.1 ∈ (claim stage limit nowIso db queues).1.map QueueItem.id) :
    queueItem stage r ∈ (claim stage limit nowIso db queues).1 := by
  obtain ⟨item, hitem, heq⟩ := List.mem_map.mp hid
  obtain ⟨r', ⟨hrow, -⟩, -, -, rfl⟩ := queued_of_mem_claim hitem
  change r'.1 = r.1 at heq
  rw [heq, hqueued.1] at hrow
  obtain rfl : r' = r := Prod.ext heq (Option.some.inj hrow).symm
  exact hitem

/-! ### The cursor -/

theorem keyset_iff_before (last : QueueItem) (r : ℕ × WheelRow) :
    laneProjectIdKeyset (some ⟨last.lane, last.project, last.id⟩) r.1 r.2 = true ↔
      last.Before (queueItem stage r) := by
  rw [laneProjectIdKeyset, Option.all_some, Cursor.before, decide_eq_true_eq, QueueItem.Before,
    queueItem]
  simp only [eq_comm]

/-- What comes after a row behind the cursor is behind the cursor. -/
theorem keyset_of_before {cursor : Option Cursor} {r r' : ℕ × WheelRow}
    (h : laneProjectIdKeyset cursor r.1 r.2 = true)
    (hbefore : (queueItem stage r).Before (queueItem stage r')) :
    laneProjectIdKeyset cursor r'.1 r'.2 = true := by
  cases cursor with
  | none => rfl
  | some c =>
      have hc := @keyset_iff_before stage ⟨c.id, c.project, c.lane, queueState stage⟩
      exact (hc r').mpr (((hc r).mp h).trans hbefore)

theorem cursor_of_short (h : (claim stage limit nowIso db queues).1.length < limit) :
    (claim stage limit nowIso db queues).2.cursors stage = none :=
  (Function.update_self _ _ _).trans (if_pos h)

/-- A full page leaves the cursor at its last item. -/
theorem cursor_of_full (hlimit : 1 ≤ limit)
    (h : (claim stage limit nowIso db queues).1.length = limit) :
    ∃ last ∈ (claim stage limit nowIso db queues).1,
      (∀ item ∈ (claim stage limit nowIso db queues).1, item = last ∨ item.Before last) ∧
      ∀ r, laneProjectIdKeyset ((claim stage limit nowIso db queues).2.cursors stage) r.1 r.2 =
        true ↔ last.Before (queueItem stage r) := by
  have hne : (claim stage limit nowIso db queues).1 ≠ [] := fun hnil => by
    rw [hnil, List.length_nil] at h
    omega
  obtain ⟨init, last, hlast⟩ := (List.eq_nil_or_concat _).resolve_left hne
  rw [List.concat_eq_append] at hlast
  have hcursor : (claim stage limit nowIso db queues).2.cursors stage =
      some ⟨last.lane, last.project, last.id⟩ := by
    refine (Function.update_self _ _ _).trans ((if_neg h.not_lt).trans ?_)
    change ((claim stage limit nowIso db queues).1.getLast?.map fun last : QueueItem =>
      (⟨last.lane, last.project, last.id⟩ : Cursor)) = _
    rw [hlast, List.getLast?_concat, Option.map_some]
  refine ⟨last, by rw [hlast]; simp, fun item hitem => ?_, fun r => ?_⟩
  · have hsorted := @pairwise_claim stage limit nowIso db queues
    rw [hlast] at hsorted hitem
    rcases List.mem_append.mp hitem with hinit | hself
    · exact Or.inr ((List.pairwise_append.mp hsorted).2.2 item hinit last (by simp))
    · exact Or.inl (by simpa using hself)
  · rw [hcursor]
    exact keyset_iff_before last r

end Claim

/-! ## Passes -/

section Passes

variable {stage : Stage} {limit : ℕ} {nowIso : String} {db : Db}

theorem length_claimPages (turns : ℕ) (queues : Queues) :
    (claimPages stage limit nowIso db turns queues).length = turns := by
  induction turns generalizing queues with
  | zero => rfl
  | succ turns ih => rw [claimPages, List.length_cons, ih]

theorem claimPages_add (turns more : ℕ) (queues : Queues) :
    claimPages stage limit nowIso db (turns + more) queues =
      claimPages stage limit nowIso db turns queues ++
        claimPages stage limit nowIso db more (claimQueues stage limit nowIso db turns queues) := by
  induction turns generalizing queues with
  | zero => rw [Nat.zero_add, claimPages, claimQueues, List.nil_append]
  | succ turns ih => rw [Nat.succ_add, claimPages, claimPages, claimQueues, ih, List.cons_append]

/-- A stretch of the pages is a series of claims. -/
theorem claimPages_of_append {turns : ℕ} {queues : Queues}
    {before pass after : List (List QueueItem)}
    (h : claimPages stage limit nowIso db turns queues = before ++ pass ++ after) :
    pass = claimPages stage limit nowIso db pass.length
      (claimQueues stage limit nowIso db before.length queues) := by
  have hlength := congrArg List.length h
  rw [length_claimPages, List.length_append, List.length_append] at hlength
  subst hlength
  rw [Nat.add_assoc, claimPages_add, claimPages_add, List.append_assoc] at h
  obtain ⟨-, hrest⟩ := List.append_inj h (length_claimPages _ _)
  exact (List.append_inj hrest (length_claimPages _ _)).1.symm

theorem queued_of_mem_claimPages {turns : ℕ} {queues : Queues} {item : QueueItem}
    (h : item ∈ (claimPages stage limit nowIso db turns queues).flatten) :
    ∃ r, Queued stage nowIso db r ∧ r.1 ∉ queues.inFlight stage ∧ item = queueItem stage r := by
  induction turns generalizing queues with
  | zero => cases h
  | succ turns ih =>
      rw [claimPages, List.flatten_cons, List.mem_append] at h
      rcases h with hpage | hrest
      · obtain ⟨r, hqueued, -, hinFlight, rfl⟩ := queued_of_mem_claim hpage
        exact ⟨r, hqueued, hinFlight, rfl⟩
      · obtain ⟨r, hqueued, hinFlight, rfl⟩ := ih hrest
        rw [inFlight_claim, List.mem_append, not_or] at hinFlight
        exact ⟨r, hqueued, hinFlight.1, rfl⟩

theorem nodup_claimPages (turns : ℕ) (queues : Queues) :
    ((claimPages stage limit nowIso db turns queues).flatten.map QueueItem.id).Nodup := by
  induction turns generalizing queues with
  | zero => exact List.nodup_nil
  | succ turns ih =>
      rw [claimPages, List.flatten_cons, List.map_append]
      refine List.nodup_append.mpr ⟨nodup_claim, ih _, fun id hid id' hid' heq => ?_⟩
      obtain ⟨item, hitem, rfl⟩ := List.mem_map.mp hid'
      obtain ⟨r, -, hinFlight, rfl⟩ := queued_of_mem_claimPages hitem
      rw [inFlight_claim, List.mem_append, not_or] at hinFlight
      rw [heq] at hid
      exact hinFlight.2 hid

/-- Full pages, and the page after them, are in order and lie behind the cursor. -/
theorem pairwise_claimPages (hlimit : 1 ≤ limit) {turns : ℕ} {queues : Queues}
    (hfull : ∀ page ∈ (claimPages stage limit nowIso db turns queues).dropLast,
      page.length = limit) :
    (claimPages stage limit nowIso db turns queues).flatten.Pairwise QueueItem.Before ∧
      ∀ item ∈ (claimPages stage limit nowIso db turns queues).flatten, ∃ r,
        laneProjectIdKeyset (queues.cursors stage) r.1 r.2 = true ∧ item = queueItem stage r := by
  induction turns generalizing queues with
  | zero => exact ⟨List.Pairwise.nil, fun item hitem => by cases hitem⟩
  | succ turns ih =>
      have hpage : ∀ item ∈ (claim stage limit nowIso db queues).1, ∃ r,
          laneProjectIdKeyset (queues.cursors stage) r.1 r.2 = true ∧
            item = queueItem stage r := fun item hitem => by
        obtain ⟨r, -, hkeyset, -, heq⟩ := queued_of_mem_claim hitem
        exact ⟨r, hkeyset, heq⟩
      rw [claimPages, List.flatten_cons]
      cases turns with
      | zero =>
          rw [claimPages, List.flatten_nil, List.append_nil]
          exact ⟨pairwise_claim, hpage⟩
      | succ turns =>
          rw [claimPages, claimPages, List.dropLast_cons_cons, List.forall_mem_cons] at hfull
          obtain ⟨last, hlast, hbefore, hkeyset⟩ := cursor_of_full hlimit hfull.1
          obtain ⟨hsorted, hbehind⟩ := ih (by rw [claimPages]; exact hfull.2)
          have hcross : ∀ item ∈ (claimPages stage limit nowIso db (turns + 1)
              (claim stage limit nowIso db queues).2).flatten, last.Before item := by
            intro item hitem
            obtain ⟨r, hr, rfl⟩ := hbehind item hitem
            exact (hkeyset r).mp hr
          refine ⟨List.pairwise_append.mpr ⟨pairwise_claim, hsorted, fun a ha b hb => ?_⟩, ?_⟩
          · rcases hbefore a ha with rfl | hlt
            · exact hcross b hb
            · exact hlt.trans (hcross b hb)
          · intro item hitem
            rcases List.mem_append.mp hitem with hmem | hmem
            · exact hpage item hmem
            · obtain ⟨r, -, rfl⟩ := hbehind item hmem
              obtain ⟨r', hr', rfl⟩ := hpage last hlast
              exact ⟨r, keyset_of_before hr' (hcross _ hmem), rfl⟩

/-- A short page ends the pass: nothing behind the cursor is left. -/
theorem mem_of_short (hlimit : 1 ≤ limit) {turns : ℕ} {queues : Queues} {r : ℕ × WheelRow}
    (hshort : ∃ page ∈ claimPages stage limit nowIso db turns queues, page.length < limit)
    (hqueued : Queued stage nowIso db r)
    (hkeyset : laneProjectIdKeyset (queues.cursors stage) r.1 r.2 = true)
    (hinFlight : r.1 ∉ queues.inFlight stage) :
    queueItem stage r ∈ (claimPages stage limit nowIso db turns queues).flatten := by
  induction turns generalizing queues with
  | zero =>
      obtain ⟨page, hpage, -⟩ := hshort
      cases hpage
  | succ turns ih =>
      rw [claimPages] at hshort ⊢
      rw [List.flatten_cons, List.mem_append]
      by_cases hid : r.1 ∈ (claim stage limit nowIso db queues).1.map QueueItem.id
      · exact Or.inl (mem_claim_of_id hqueued hid)
      refine (mem_claim_or hqueued hkeyset hinFlight).imp_right fun hfull => ?_
      obtain ⟨last, hlast, -, hcursor⟩ := cursor_of_full hlimit hfull.1
      have hrest : ∃ page ∈ claimPages stage limit nowIso db turns
          (claim stage limit nowIso db queues).2, page.length < limit := by
        obtain ⟨page, hpage, hlt⟩ := hshort
        rcases List.mem_cons.mp hpage with rfl | hmem
        · exact absurd hlt hfull.1.not_lt
        · exact ⟨page, hmem, hlt⟩
      refine ih hrest ((hcursor r).mpr (hfull.2 last hlast)) ?_
      rw [inFlight_claim, List.mem_append, not_or]
      exact ⟨hinFlight, hid⟩

/-- Two short pages and what is between them return every wheel of the queue. -/
theorem mem_of_two_short (hlimit : 1 ≤ limit) {turns : ℕ} {queues : Queues} {r : ℕ × WheelRow}
    (hshort : 2 ≤ (claimPages stage limit nowIso db turns queues).countP
      fun page => page.length < limit)
    (hqueued : Queued stage nowIso db r) (hinFlight : r.1 ∉ queues.inFlight stage) :
    queueItem stage r ∈ (claimPages stage limit nowIso db turns queues).flatten := by
  induction turns generalizing queues with
  | zero => simp [claimPages] at hshort
  | succ turns ih =>
      rw [claimPages] at hshort ⊢
      rw [List.flatten_cons, List.mem_append]
      by_cases hid : r.1 ∈ (claim stage limit nowIso db queues).1.map QueueItem.id
      · exact Or.inl (mem_claim_of_id hqueued hid)
      have hrest : r.1 ∉ (claim stage limit nowIso db queues).2.inFlight stage := by
        rw [inFlight_claim, List.mem_append, not_or]
        exact ⟨hinFlight, hid⟩
      rw [List.countP_cons] at hshort
      refine Or.inr ?_
      by_cases hpage : (claim stage limit nowIso db queues).1.length < limit
      · -- the next pass starts from the front
        rw [if_pos (decide_eq_true hpage)] at hshort
        have hpos := Nat.lt_of_succ_le (Nat.le_of_succ_le_succ hshort)
        obtain ⟨page, hmem, hlt⟩ := List.countP_pos_iff.mp hpos
        refine mem_of_short hlimit ⟨page, hmem, of_decide_eq_true hlt⟩ hqueued ?_ hrest
        rw [cursor_of_short hpage]
        rfl
      · rw [if_neg (by simpa using hpage)] at hshort
        exact ih hshort hrest

variable (stage nowIso db) in
/-- Repeated claims over fixed tables paginate the queue, whatever is in flight and
wherever the cursor is. -/
theorem paginated_claimPages (hlimit : 1 ≤ limit) (turns : ℕ) (queues : Queues) :
    Paginated stage limit nowIso db queues (claimPages stage limit nowIso db turns queues) where
  nodup := nodup_claimPages turns queues
  queued _ hitem := queued_of_mem_claimPages hitem
  ordered before pass after hpages hfull := by
    have hpass := claimPages_of_append hpages
    rw [hpass] at hfull ⊢
    exact (pairwise_claimPages hlimit hfull).1
  complete hshort _ hqueued hinFlight := mem_of_two_short hlimit hshort hqueued hinFlight

/-- Pages of one wheel from a database of one, behind a row that is no longer there. -/
theorem paginated_exampleDb : Paginated .fetch 1 "t1" Pipeline.exampleDb
    ⟨fun _ => [7], fun _ => some ⟨0, "gone", 3⟩⟩
    (claimPages .fetch 1 "t1" Pipeline.exampleDb 4
      ⟨fun _ => [7], fun _ => some ⟨0, "gone", 3⟩⟩) :=
  paginated_claimPages .fetch "t1" Pipeline.exampleDb le_rfl 4 _

end Passes

end RerollSync.Dispatcher
