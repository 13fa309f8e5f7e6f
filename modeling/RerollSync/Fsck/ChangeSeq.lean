import RerollSync.Fsck.RowChecks
import Mathlib.Algebra.BigOperators.Group.List.Lemmas
import Mathlib.Algebra.Order.BigOperators.Group.List
import Mathlib.Algebra.Order.Ring.Nat
import Mathlib.Data.Finset.Card

/-!
# The duplicate sequence check of fsck

A `change_seq` may be shared by the wheels of one commit, but not by wheels updated
at different times.  `_check_duplicate_change_seq` pages through the distinct values
and aggregates the range each page spans; the windows cut no group in two, so what
it counts does not depend on where they lie.
-/

namespace RerollSync.Fsck

open RerollSync.Support RerollSync.Store

/-! ## The check -/

namespace Tables

variable (t : Tables)

/-- The `change_seq` of every wheel. -/
def seqs : List ℤ := t.wheels.rows.map fun w => w.2.changeSeq

/-- `SELECT DISTINCT change_seq FROM wheels`. -/
def distinctSeqs : List (ℤ × Unit) := t.seqs.dedup.map fun seq => (seq, ())

/-- `_duplicate_change_seq_aggregate_query`. -/
def duplicateChangeSeqAggregateQuery (windowMin windowMax : ℤ) : List (ℤ × ℕ) :=
  let rows := t.wheels.rows.filter fun w =>
    windowMin ≤ w.2.changeSeq ∧ w.2.changeSeq ≤ windowMax
  let group := fun seq => rows.filter fun w => w.2.changeSeq = seq
  (((rows.map fun w => w.2.changeSeq).dedup.filter fun seq =>
    1 < (group seq).length ∧ 1 < ((group seq).map fun w => w.2.updatedAt).dedup.length).map
      fun seq => (seq, (group seq).length))

/-- `SELECT id FROM wheels WHERE change_seq = ?`. -/
def idsWithSeq (seq : ℤ) : List ℤ :=
  (t.wheels.rows.filter fun w => w.2.changeSeq = seq).map Prod.fst

end Tables

/-- The variables of the loop: reads made, `count` and `examples`. -/
structure SeqScan where
  reads : ℕ
  count : ℕ
  examples : List Value

/-- The loop over the groups of one window. -/
def addGroups (t : Tables) (reader : Reader) (exampleLimit : ℕ) :
    List (ℤ × ℕ) → SeqScan → Except FsckError SeqScan
  | [], acc => .ok acc
  | (changeSeq, groupSize) :: groups, acc =>
      let memberIds := (reader.arrange acc.reads (t.idsWithSeq changeSeq)).take
        (exampleLimit - acc.examples.length)
      if reader.overBudget acc.reads then .error .readTxnBudgetExceeded
      else
        addGroups t reader exampleLimit groups
          { reads := acc.reads + 1
            count := acc.count + groupSize
            examples := acc.examples ++ memberIds.map .id }

/-- The loop over the windows. -/
def scanWindows (t : Tables) (reader : Reader) (chunkSize exampleLimit : ℕ) :
    ℕ → SeqScan → Option ℤ → Run SeqScan
  | 0, _, _ => none
  | turns + 1, acc, cursor =>
      let fetched := (rowsFrom t.distinctSeqs cursor).take (chunkSize + 1)
      let window := fetched.take chunkSize
      if reader.overBudget acc.reads then some (.error .readTxnBudgetExceeded)
      else
        match window.head?, window.getLast? with
        | some first, some last =>
            let groups := reader.arrange acc.reads
              (t.duplicateChangeSeqAggregateQuery first.1 last.1)
            match addGroups t reader exampleLimit groups { acc with reads := acc.reads + 1 } with
            | .error e => some (.error e)
            | .ok acc' =>
                if fetched.length ≤ chunkSize then some (.ok acc')
                else scanWindows t reader chunkSize exampleLimit turns acc' (some last.1)
        | _, _ => some (.ok acc)

/-- `_check_duplicate_change_seq`. -/
def checkDuplicateChangeSeq (t : Tables) (reader : Reader) (chunkSize exampleLimit turns : ℕ) :
    Run (Option Violation) :=
  (scanWindows t reader chunkSize exampleLimit turns ⟨0, 0, []⟩ none).map fun r =>
    r.map fun acc =>
      if acc.count = 0 then none
      else
        some
          { invariant := "17_duplicate_change_seq"
            description := "change_seq is duplicated among wheels rows with differing updated_at"
            count := acc.count
            exampleIds := acc.examples
            informational := false }

/-! ## What it is to report -/

namespace Tables

variable (t : Tables)

/-- Another wheel has this one's `change_seq` and another `updated_at`. -/
def IsDuplicate (w : WheelRecord) : Prop :=
  ∃ w' ∈ t.wheels.rows, w'.2.changeSeq = w.changeSeq ∧ w'.2.updatedAt ≠ w.updatedAt

instance (w : WheelRecord) : Decidable (t.IsDuplicate w) :=
  inferInstanceAs (Decidable (∃ w' ∈ t.wheels.rows, _))

/-- The wheels of the groups that share a `change_seq` between different times. -/
def duplicates : List (ℤ × WheelRecord) := t.wheels.rows.filter fun w => t.IsDuplicate w.2

/-- The group of a `change_seq` has different times. -/
def Mixed (seq : ℤ) : Prop := ∃ w ∈ t.wheels.rows, w.2.changeSeq = seq ∧ t.IsDuplicate w.2

instance (seq : ℤ) : Decidable (t.Mixed seq) :=
  inferInstanceAs (Decidable (∃ w ∈ t.wheels.rows, _))

/-- What the check reports: no violation when there is no duplicate, and otherwise how
many there are, with some of them as examples. -/
def ReportsDuplicates (exampleLimit : ℕ) : Option Violation → Prop
  | none => t.duplicates = []
  | some v => t.duplicates ≠ [] ∧ v.count = t.duplicates.length ∧
      v.exampleIds.length = min exampleLimit v.count ∧
      ∀ value ∈ v.exampleIds, ∃ w ∈ t.duplicates, value = .id w.1

variable {t}

theorem isDuplicate_iff_mixed {w : ℤ × WheelRecord} (hw : w ∈ t.wheels.rows) :
    t.IsDuplicate w.2 ↔ t.Mixed w.2.changeSeq := by
  constructor
  · intro h
    exact ⟨w, hw, rfl, h⟩
  · rintro ⟨v, hv, hseq, v', hv', hseq', htime⟩
    by_cases hw' : v.2.updatedAt = w.2.updatedAt
    · exact ⟨v', hv', hseq'.trans hseq, hw' ▸ htime⟩
    · exact ⟨v, hv, hseq, hw'⟩

/-- The count of two different times is that there are two. -/
theorem mixed_iff_one_lt (seq : ℤ) :
    t.Mixed seq ↔ 1 < ((t.wheels.rows.filter fun w => w.2.changeSeq = seq).map
      fun w => w.2.updatedAt).dedup.length := by
  rw [← List.card_toFinset, Finset.one_lt_card_iff]
  simp only [List.mem_toFinset, List.mem_map, List.mem_filter, decide_eq_true_eq]
  constructor
  · rintro ⟨w, hw, rfl, w', hw', hseq, htime⟩
    exact ⟨_, _, ⟨w', ⟨hw', hseq⟩, rfl⟩, ⟨w, ⟨hw, rfl⟩, rfl⟩, htime⟩
  · rintro ⟨-, -, ⟨w, ⟨hw, hseq⟩, rfl⟩, ⟨w', ⟨hw', hseq'⟩, rfl⟩, htime⟩
    exact ⟨w', hw', hseq', w, hw, hseq.trans hseq'.symm, htime⟩

theorem count_seqs (seq : ℤ) :
    t.seqs.count seq = (t.wheels.rows.filter fun w => w.2.changeSeq = seq).length := by
  rw [seqs, List.count, List.countP_map, List.countP_eq_length_filter]
  congr 1

/-- The groups of a set of sequence values that have different times, with their sizes. -/
def mixedGroups (t : Tables) (values : List ℤ) : List (ℤ × ℕ) :=
  (values.filter fun seq => t.Mixed seq).map fun seq => (seq, t.seqs.count seq)

theorem mixedGroups_append (values values' : List ℤ) :
    t.mixedGroups (values ++ values') = t.mixedGroups values ++ t.mixedGroups values' := by
  rw [mixedGroups, List.filter_append, List.map_append]
  rfl

theorem length_duplicates : ((t.mixedGroups t.seqs.dedup).map Prod.snd).sum =
    t.duplicates.length := by
  have hsum := List.sum_map_count_dedup_filter_eq_countP (fun seq => decide (t.Mixed seq)) t.seqs
  rw [mixedGroups, List.map_map]
  refine hsum.trans ?_
  rw [seqs, List.countP_map, duplicates, List.countP_eq_length_filter]
  refine congrArg List.length (List.filter_congr fun w hw => ?_)
  exact decide_eq_decide.mpr (isDuplicate_iff_mixed hw).symm

theorem mem_mixedGroups {values : List ℤ} {group : ℤ × ℕ} (h : group ∈ t.mixedGroups values) :
    t.Mixed group.1 ∧ group.2 = (t.idsWithSeq group.1).length := by
  obtain ⟨seq, hseq, rfl⟩ := List.mem_map.mp h
  refine ⟨of_decide_eq_true (List.mem_filter.mp hseq).2, ?_⟩
  rw [count_seqs, idsWithSeq, List.length_map]

theorem exists_duplicate_of_mem_idsWithSeq {seq id : ℤ} (hmixed : t.Mixed seq)
    (hid : id ∈ t.idsWithSeq seq) : ∃ w ∈ t.duplicates, w.1 = id := by
  obtain ⟨w, hw, rfl⟩ := List.mem_map.mp hid
  obtain ⟨hrow, hseq⟩ := List.mem_filter.mp hw
  have hdup : t.IsDuplicate w.2 := (isDuplicate_iff_mixed hrow).mpr
    ((of_decide_eq_true hseq : w.2.changeSeq = seq) ▸ hmixed)
  exact ⟨w, List.mem_filter.mpr ⟨hrow, decide_eq_true hdup⟩, rfl⟩

theorem nodup_distinctSeqs : (t.distinctSeqs.map Prod.fst).Nodup := by
  rw [distinctSeqs, List.map_map]
  simpa [Function.comp_def] using t.seqs.nodup_dedup

/-- The values in the range of a page are the values on the page. -/
theorem valuesInRange_perm {page rest : List (ℤ × Unit)} {cursor : Option ℤ}
    {first last : ℤ × Unit} (hpage : page ++ rest = rowsFrom t.distinctSeqs cursor)
    (hfirst : page.head? = some first) (hlast : page.getLast? = some last) :
    ((t.wheels.rows.filter fun w =>
      first.1 ≤ w.2.changeSeq ∧ w.2.changeSeq ≤ last.1).map fun w => w.2.changeSeq).dedup.Perm
        (page.map Prod.fst) := by
  have hnodup : (page.map Prod.fst).Nodup := by
    have hsorted : (page ++ rest).Pairwise fun a b => a.1 < b.1 :=
      hpage ▸ pairwise_rowsFrom nodup_distinctSeqs
    exact List.pairwise_map.mpr ((List.pairwise_append.mp hsorted).1.imp ne_of_lt)
  refine (List.perm_ext_iff_of_nodup (List.nodup_dedup _) hnodup).mpr fun seq => ?_
  have hon : seq ∈ page.map Prod.fst ↔ (seq, ()) ∈ page :=
    List.mem_map.trans ⟨fun ⟨_, hmem, heq⟩ => heq ▸ hmem, fun hmem => ⟨_, hmem, rfl⟩⟩
  have hseq : (seq, ()) ∈ t.distinctSeqs ↔ seq ∈ t.seqs := by simp [distinctSeqs]
  rw [hon, mem_page_iff nodup_distinctSeqs hpage hfirst hlast, hseq, List.mem_dedup]
  simp only [seqs, List.mem_map, List.mem_filter, decide_eq_true_eq]
  constructor
  · rintro ⟨w, ⟨hw, hrange⟩, rfl⟩
    exact ⟨⟨w, hw, rfl⟩, hrange⟩
  · rintro ⟨⟨w, hw, rfl⟩, hrange⟩
    exact ⟨w, ⟨hw, hrange⟩, rfl⟩

/-- The aggregate over the range of a page finds the mixed groups of the page. -/
theorem aggregateQuery_perm {page rest : List (ℤ × Unit)} {cursor : Option ℤ}
    {first last : ℤ × Unit} (hpage : page ++ rest = rowsFrom t.distinctSeqs cursor)
    (hfirst : page.head? = some first) (hlast : page.getLast? = some last) :
    (t.duplicateChangeSeqAggregateQuery first.1 last.1).Perm
      (t.mixedGroups (page.map Prod.fst)) := by
  -- A group lies in the range as a whole or not at all.
  have hgroup : ∀ seq, first.1 ≤ seq ∧ seq ≤ last.1 →
      ((t.wheels.rows.filter fun w =>
        first.1 ≤ w.2.changeSeq ∧ w.2.changeSeq ≤ last.1).filter fun w => w.2.changeSeq = seq) =
          t.wheels.rows.filter fun w => w.2.changeSeq = seq := by
    intro seq hseq
    rw [List.filter_filter]
    refine List.filter_congr fun w _ => ?_
    by_cases hw : w.2.changeSeq = seq
    · simp [hw, hseq]
    · simp [hw]
  have hrange : ∀ seq ∈ ((t.wheels.rows.filter fun w =>
      first.1 ≤ w.2.changeSeq ∧ w.2.changeSeq ≤ last.1).map fun w => w.2.changeSeq).dedup,
        first.1 ≤ seq ∧ seq ≤ last.1 := by
    intro seq hseq
    obtain ⟨w, hw, rfl⟩ := List.mem_map.mp (List.mem_dedup.mp hseq)
    exact of_decide_eq_true (List.mem_filter.mp hw).2
  refine List.Perm.trans (List.Perm.of_eq ?_)
    (((valuesInRange_perm hpage hfirst hlast).filter fun seq => t.Mixed seq).map
      fun seq => (seq, t.seqs.count seq))
  rw [duplicateChangeSeqAggregateQuery]
  refine Eq.trans (List.map_congr_left fun seq hseq => ?_)
    (congrArg (List.map fun seq => (seq, t.seqs.count seq))
      (List.filter_congr fun seq hseq => ?_))
  · simp only [hgroup seq (hrange seq (List.mem_of_mem_filter hseq)), count_seqs]
  · simp only [hgroup seq (hrange seq hseq)]
    refine decide_eq_decide.mpr (Iff.trans ?_ (mixed_iff_one_lt seq).symm)
    refine and_iff_right_of_imp fun h => h.trans_le ?_
    exact (List.dedup_sublist _).length_le.trans_eq (List.length_map _)

end Tables

/-! ## The scan -/

/-- The variables when groups of `total` wheels have been counted. -/
structure Tallied (t : Tables) (exampleLimit total : ℕ) (acc : SeqScan) : Prop where
  count : acc.count = total
  length_examples : acc.examples.length = min exampleLimit total
  examples : ∀ value ∈ acc.examples, ∃ w ∈ t.duplicates, value = .id w.1

variable {t : Tables} {reader : Reader} {chunkSize exampleLimit : ℕ}

theorem Tallied.of_reads {total : ℕ} {acc : SeqScan} (h : Tallied t exampleLimit total acc)
    (reads : ℕ) : Tallied t exampleLimit total { acc with reads := reads } :=
  ⟨h.count, h.length_examples, h.examples⟩

/-- One group more. -/
theorem Tallied.addGroup {total : ℕ} {acc : SeqScan} (h : Tallied t exampleLimit total acc)
    {group : ℤ × ℕ} (hmixed : t.Mixed group.1)
    (hsize : group.2 = (t.idsWithSeq group.1).length) (reads : ℕ) :
    Tallied t exampleLimit (total + group.2)
      { reads := reads
        count := acc.count + group.2
        examples := acc.examples ++ ((reader.arrange acc.reads (t.idsWithSeq group.1)).take
          (exampleLimit - acc.examples.length)).map .id } := by
  have hperm := reader.perm acc.reads (t.idsWithSeq group.1)
  refine ⟨by rw [h.count], ?_, ?_⟩
  · rw [List.length_append, List.length_map, List.length_take, hperm.length_eq, ← hsize,
      h.length_examples]
    omega
  · intro value hvalue
    rcases List.mem_append.mp hvalue with hold | hnew
    · exact h.examples value hold
    · obtain ⟨id, hid, rfl⟩ := List.mem_map.mp hnew
      obtain ⟨w, hw, rfl⟩ := Tables.exists_duplicate_of_mem_idsWithSeq hmixed
        (hperm.mem_iff.mp (List.mem_of_mem_take hid))
      exact ⟨w, hw, rfl⟩

theorem ends_addGroups {groups : List (ℤ × ℕ)} {total : ℕ} {acc : SeqScan}
    (hgroups : ∀ group ∈ groups,
      t.Mixed group.1 ∧ group.2 = (t.idsWithSeq group.1).length)
    (h : Tallied t exampleLimit total acc) :
    Ends reader (Tallied t exampleLimit (total + (groups.map Prod.snd).sum))
      (some (addGroups t reader exampleLimit groups acc)) := by
  induction groups generalizing total acc with
  | nil => exact Or.inl ⟨acc, rfl, h⟩
  | cons group groups ih =>
      obtain ⟨hgroup, hrest⟩ := List.forall_mem_cons.mp hgroups
      rw [addGroups]
      by_cases hover : reader.overBudget acc.reads = true
      · simp only [hover, if_true]
        exact ends_of_overBudget hover
      · simp only [hover]
        rw [List.map_cons, List.sum_cons, ← Nat.add_assoc]
        exact ih hrest (h.addGroup hgroup.1 hgroup.2 _)

/-- The groups of one window, aggregated in any order. -/
theorem ends_window (reader : Reader) {page rest : List (ℤ × Unit)} {cursor : Option ℤ}
    {first last : ℤ × Unit}
    (hpage : page ++ rest = rowsFrom t.distinctSeqs cursor) (hfirst : page.head? = some first)
    (hlast : page.getLast? = some last) {total : ℕ} {acc : SeqScan}
    (h : Tallied t exampleLimit total acc) (reads : ℕ) :
    Ends reader
      (Tallied t exampleLimit (total + ((t.mixedGroups (page.map Prod.fst)).map Prod.snd).sum))
      (some (addGroups t reader exampleLimit (reader.arrange reads
        (t.duplicateChangeSeqAggregateQuery first.1 last.1)) acc)) := by
  have hperm := (reader.perm reads (t.duplicateChangeSeqAggregateQuery first.1 last.1)).trans
    (Tables.aggregateQuery_perm hpage hfirst hlast)
  rw [← (hperm.map Prod.snd).sum_eq]
  exact ends_addGroups (fun group hgroup => Tables.mem_mixedGroups (hperm.mem_iff.mp hgroup)) h

/-- The windows behind the cursor add the mixed groups behind it. -/
theorem ends_scanWindows (hchunk : 0 < chunkSize) {turns total : ℕ} {acc : SeqScan}
    {cursor : Option ℤ} (hturns : (rowsFrom t.distinctSeqs cursor).length < turns)
    (h : Tallied t exampleLimit total acc) :
    Ends reader
      (Tallied t exampleLimit (total +
        ((t.mixedGroups ((rowsFrom t.distinctSeqs cursor).map Prod.fst)).map Prod.snd).sum))
      (scanWindows t reader chunkSize exampleLimit turns acc cursor) := by
  induction turns generalizing total acc cursor with
  | zero => exact absurd hturns (Nat.not_lt_zero _)
  | succ turns ih =>
      rw [scanWindows]
      by_cases hover : reader.overBudget acc.reads = true
      · simp only [hover, if_true]
        exact ends_of_overBudget hover
      simp only [hover]
      have hread := h.of_reads (acc.reads + 1)
      by_cases hend : ((rowsFrom t.distinctSeqs cursor).take (chunkSize + 1)).length ≤ chunkSize
      · rw [take_of_length_overfetch_le hend]
        by_cases hnil : rowsFrom t.distinctSeqs cursor = []
        · simp only [hnil, List.head?_nil]
          exact Or.inl ⟨acc, rfl, h⟩
        · obtain ⟨first, hfirst⟩ := Option.isSome_iff_exists.mp (List.isSome_head?.mpr hnil)
          obtain ⟨last, hlast⟩ := Option.isSome_iff_exists.mp (List.getLast?_isSome.mpr hnil)
          have hwindow := ends_window reader (List.append_nil _) hfirst hlast hread acc.reads
          simp only [hfirst, hlast, hend, if_true]
          rcases hwindow with ⟨acc', hacc, htally⟩ | ⟨herror, hsome⟩
          · rw [Option.some.inj hacc]
            exact Or.inl ⟨acc', rfl, htally⟩
          · rw [Option.some.inj herror]
            exact Or.inr ⟨rfl, hsome⟩
      · obtain ⟨last, hlast, hsplit, hless⟩ :=
          exists_getLast?_overfetch Tables.nodup_distinctSeqs hchunk (Nat.lt_of_not_le hend)
        have hne : ((rowsFrom t.distinctSeqs cursor).take (chunkSize + 1)).take chunkSize ≠ [] := by
          intro hnil
          simp [hnil] at hlast
        obtain ⟨first, hfirst⟩ := Option.isSome_iff_exists.mp (List.isSome_head?.mpr hne)
        have hwindow := ends_window reader hsplit hfirst hlast hread acc.reads
        simp only [hfirst, hlast, hend, if_false]
        rcases hwindow with ⟨acc', hacc, htally⟩ | ⟨herror, hsome⟩
        · rw [Option.some.inj hacc]
          have hrest := ih (Nat.lt_of_lt_of_le hless (Nat.le_of_lt_succ hturns)) htally
          rwa [Nat.add_assoc, ← List.sum_append, ← List.map_append, ← Tables.mixedGroups_append,
            ← List.map_append, hsplit] at hrest
        · rw [Option.some.inj herror]
          exact Or.inr ⟨rfl, hsome⟩

/-- The duplicate check reports the duplicates, wherever its windows lie. -/
theorem ends_checkDuplicateChangeSeq (hchunk : 0 < chunkSize) {turns : ℕ}
    (hturns : t.distinctSeqs.length < turns) :
    Ends reader (t.ReportsDuplicates exampleLimit)
      (checkDuplicateChangeSeq t reader chunkSize exampleLimit turns) := by
  have hstart : Tallied t exampleLimit 0 ⟨0, 0, []⟩ := ⟨rfl, (Nat.min_zero _).symm, by simp⟩
  have hall : ((t.mixedGroups ((rowsFrom t.distinctSeqs none).map Prod.fst)).map Prod.snd).sum =
      t.duplicates.length := by
    have hperm : ((rowsFrom t.distinctSeqs none).map Prod.fst).Perm t.seqs.dedup := by
      rw [rowsFrom_none]
      refine ((List.perm_insertionSort _ _).map Prod.fst).trans (List.Perm.of_eq ?_)
      simp [Tables.distinctSeqs, Function.comp_def]
    rw [← Tables.length_duplicates]
    exact (((hperm.filter _).map _).map Prod.snd).sum_eq
  rw [← length_rowsFrom_none] at hturns
  refine (ends_scanWindows hchunk hturns hstart).map fun acc hacc => ?_
  rw [hall, Nat.zero_add] at hacc
  by_cases hzero : acc.count = 0
  · rw [if_pos hzero]
    exact List.eq_nil_of_length_eq_zero (hacc.count.symm.trans hzero)
  · rw [if_neg hzero]
    refine ⟨fun hnil => hzero ?_, hacc.count, ?_, hacc.examples⟩
    · rw [hacc.count, hnil, List.length_nil]
    · rw [hacc.length_examples, hacc.count]

/-! ## The chunked fsck -/

/-- Whatever the size of the chunks, every check ends with what the whole table shows,
unless one of its reads takes too long. -/
theorem chunked_checks_exact (t : Tables) (reader : Reader) (maxAttempts : ℤ)
    (hchunk : 1 ≤ chunkSize) (exampleLimit : ℕ) : ∃ enough, ∀ turns ≥ enough,
      (∀ check ∈ rowChecks maxAttempts,
        Ends reader (· = check.wholeTable t exampleLimit)
          (runRowCheck check t reader chunkSize exampleLimit turns)) ∧
      Ends reader (t.ReportsDuplicates exampleLimit)
        (checkDuplicateChangeSeq t reader chunkSize exampleLimit turns) := by
  let longest := ((rowChecks maxAttempts).map fun check => (check.baseQuery t).rows.length).sum
  refine ⟨longest + t.distinctSeqs.length + 1, fun turns hturns => ⟨?_, ?_⟩⟩
  · intro check hcheck
    have hle : (check.baseQuery t).rows.length ≤ longest :=
      List.single_le_sum (fun _ _ => Nat.zero_le _) _ (List.mem_map_of_mem hcheck)
    exact ends_runRowCheck check t hchunk exampleLimit (by omega)
  · exact ends_checkDuplicateChangeSeq hchunk (by omega)

/-- Three wheels of one commit, the third with a time of its own, and one of the next. -/
def mistimedCommit : Tables where
  wheels :=
    { rows :=
        [(1, ⟨none, 0, none, none, 5, none, "10:00"⟩), (2, ⟨none, 9, none, none, 5, none, "10:00"⟩),
         (7, ⟨none, 0, none, none, 5, none, "10:01"⟩), (8, ⟨none, 9, none, none, 6, none, "10:01"⟩)]
      nodup := by decide }
  wheelRepodata := ∅
  skips := ∅
  work := ∅
  blobs := ∅
  segments := ∅

/-- A connection that is quick and returns rows as they are stored. -/
def storedOrder : Reader := ⟨fun _ => false, fun _ rows => rows, fun _ _ => List.Perm.refl _⟩

/-- In chunks of one row. -/
theorem chunked_checks_mistimedCommit : ∃ enough, ∀ turns ≥ enough,
    (∀ check ∈ rowChecks 8,
      Ends storedOrder (· = check.wholeTable mistimedCommit 2)
        (runRowCheck check mistimedCommit storedOrder 1 2 turns)) ∧
    Ends storedOrder (mistimedCommit.ReportsDuplicates 2)
      (checkDuplicateChangeSeq mistimedCommit storedOrder 1 2 turns) :=
  chunked_checks_exact mistimedCommit storedOrder 8 le_rfl 2

end RerollSync.Fsck
