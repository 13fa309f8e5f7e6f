import RerollSync.Client.ProjectUrl
import RerollSync.Dispatcher.Resets

/-!
# Unquarantine

The `unquarantine` command with no other writer.  A generator runs one bounded query
again and again, without a cursor: the op of each chunk takes its wheels out of what the
query finds, so the chunks end, and they take every quarantined wheel of the selector
once.
-/

namespace RerollSync.Daemon

open RerollSync.Store RerollSync.Support RerollSync.Dispatcher RerollSync.Client

/-! ## Selectors -/

/-- `Selector`, with any string for a project or a version. -/
inductive AnySelector
  | rerollVersionBelow (version : List CodePoint)
  | state (state : WheelState)
  | project (project : List CodePoint)
  | skippedOnly

/-- `_NO_MATCH_PROJECT`. -/
def noMatchProject : String := "\x00no-such-project\x00"

/-- What `unquarantine` raises: the selector is not supported, a project has no encoding,
a parameter is no sqlite integer, or a statement has too many parameters. -/
inductive UnquarantineError
  | unsupportedSelector
  | unicodeEncodeError
  | overflowError
  | operationalError
deriving DecidableEq, Repr

/-- `_project_filter`; no project is no filter. -/
def projectFilter : AnySelector → Except UnquarantineError (Option (List CodePoint))
  | .state state =>
      .ok (if state ≠ .quarantined then some (noMatchProject.toList.map .char) else none)
  | .project project => .ok (some project)
  | .rerollVersionBelow _ | .skippedOnly => .error .unsupportedSelector

/-- The selectors that describe quarantined wheels. -/
def AnySelector.Supported : AnySelector → Prop
  | .state _ | .project _ => True
  | .rerollVersionBelow _ | .skippedOnly => False

/-- The wheels that a selector describes. -/
def AnySelector.matchesWheel (selector : AnySelector) (row : WheelRow) : Bool :=
  match selector with
  | .state s => row.state = s
  | .project name => row.project.toList.map .char = name
  | .rerollVersionBelow _ | .skippedOnly => false

/-- `SELECT id FROM wheels WHERE state = QUARANTINED` and a condition on the row. -/
def quarantinedWhere (p : WheelRow → Bool) (db : Db) : List ℕ :=
  (db.wheels.filter fun _ row => row.state = .quarantined ∧ p row).keys

/-- The quarantined wheels of a selector. -/
def AnySelector.quarantined (selector : AnySelector) (db : Db) : List ℕ :=
  quarantinedWhere selector.matchesWheel db

/-! ## The campaign -/

/-- The orders in which sqlite scans the rows of a query without `ORDER BY`, one for each
query. -/
structure ScanOrder where
  scan : ℕ → List ℕ → List ℕ
  perm : ∀ query ids, (scan query ids).Perm ids

/-- The order of the table. -/
def ScanOrder.table : ScanOrder := ⟨fun _ ids => ids, fun _ _ => List.Perm.refl _⟩

/-- The op of one chunk, submitted and waited for. -/
def unquarantineChunk (p : Progress) (chunkIds : List ℕ) (nowIso : String) : Progress :=
  let r := (unquarantineChunkApply chunkIds nowIso).runAtomic p.db p.changeSeq
  ⟨r.db, r.counter, p.total + r.value.toOption.getD 0⟩

/-- What a campaign has done when it returns or raises. -/
structure Campaign where
  progress : Progress
  raised : Option UnquarantineError

section Campaign

variable (scans : ScanOrder) (maxVariables chunkSize : ℕ) (nowIso : ℕ → String)

/-- `project = ?`; no project is no condition. -/
def ofProject (project : Option String) (row : WheelRow) : Bool := project.all (· = row.project)

/-- `_quarantined_chunk_query`; `project` is bound as text. -/
def quarantinedChunk (query : ℕ) (project : Option String) (db : Db) : List ℕ :=
  (scans.scan query (quarantinedWhere (ofProject project) db)).take chunkSize

/-- The loop of `_quarantined_chunks`, with the ops of its chunks.  The op deletes the work
of its wheels with a parameter for each, of which sqlite takes `maxVariables`.  The counter
tells the ops apart, so the clock is read at it.  `none` when it takes more turns. -/
def quarantinedChunks (project : Option String) : ℕ → Progress → Option Campaign
  | 0, _ => none
  | turns + 1, p =>
      let ids := quarantinedChunk scans chunkSize p.changeSeq project p.db
      if ids = [] then some ⟨p, none⟩
      else if maxVariables < ids.length then some ⟨p, some .operationalError⟩
      else
        let p' := unquarantineChunk p ids (nowIso p.changeSeq)
        if ids.length < chunkSize then some ⟨p', none⟩
        else quarantinedChunks project turns p'

/-- `unquarantine`. -/
def unquarantine (selector : AnySelector) (db : Db) (changeSeq turns : ℕ) : Option Campaign :=
  let start : Progress := ⟨db, changeSeq, 0⟩
  match projectFilter selector with
  | .error e => some ⟨start, some e⟩
  | .ok none =>
      if 2 ^ 63 ≤ chunkSize then some ⟨start, some .overflowError⟩
      else quarantinedChunks scans maxVariables chunkSize nowIso none turns start
  | .ok (some project) =>
      match toChars project with
      | none => some ⟨start, some .unicodeEncodeError⟩
      | some cs =>
          if 2 ^ 63 ≤ chunkSize then some ⟨start, some .overflowError⟩
          else
            quarantinedChunks scans maxVariables chunkSize nowIso (some (String.ofList cs)) turns
              start

end Campaign

/-! ## What it requeues -/

/-- The wheels of `order` are queued for fetching again, each with a sequence number of
its own behind those given before, and without work.  Nothing else changes, and their
number is counted. -/
structure Requeued (p p' : Progress) (order : List ℕ) : Prop where
  nodup : order.Nodup
  total : p'.total = p.total + order.length
  changeSeq : p'.changeSeq = p.changeSeq + order.length
  wheels : ∀ id, ∃ nowIso, p'.db.wheels.get? id = (p.db.wheels.get? id).map fun row =>
    if id ∈ order then
      { row with
        state := .needMetadata, changeSeq := p.changeSeq + order.idxOf id + 1, updatedAt := nowIso }
    else row
  work : p'.db.work = p.db.work.filter fun key _ => key.1 ∉ order
  frame : p'.db = { p.db with wheels := p'.db.wheels, work := p'.db.work }

/-- A campaign over a database with a counter requeues the quarantined wheels of its
selector and returns their number. -/
def RequeuesExactly (selector : AnySelector) (db : Db) (changeSeq : ℕ) (result : Campaign) : Prop :=
  result.raised = none ∧ ∃ order, Requeued ⟨db, changeSeq, 0⟩ result.progress order ∧
    order.Perm (selector.quarantined db)

theorem Requeued.refl (p : Progress) : Requeued p p [] where
  nodup := List.nodup_nil
  total := rfl
  changeSeq := rfl
  wheels id := ⟨"", by simp⟩
  work := by simp [Table.filter_eq_self]
  frame := rfl

/-- Two series that share no wheel. -/
theorem Requeued.trans {p p' p'' : Progress} {order order' : List ℕ} (h : Requeued p p' order)
    (h' : Requeued p' p'' order') (hdisjoint : ∀ id ∈ order, id ∉ order') :
    Requeued p p'' (order ++ order') where
  nodup := List.nodup_append.mpr
    ⟨h.nodup, h'.nodup, fun id hid id' hid' heq => hdisjoint id hid (heq ▸ hid')⟩
  total := by rw [h'.total, h.total, List.length_append, Nat.add_assoc]
  changeSeq := by rw [h'.changeSeq, h.changeSeq, List.length_append, Nat.add_assoc]
  wheels id := by
    obtain ⟨nowIso, hid⟩ := h.wheels id
    obtain ⟨nowIso', hid'⟩ := h'.wheels id
    rw [hid', hid, Option.map_map, h.changeSeq]
    by_cases hmem : id ∈ order
    · refine ⟨nowIso, ?_⟩
      congr 1
      funext row
      simp [hmem, hdisjoint id hmem, List.idxOf_append_of_mem hmem]
    · refine ⟨nowIso', ?_⟩
      congr 1
      funext row
      simp [hmem, List.idxOf_append_of_notMem hmem, Nat.add_assoc]
  work := by
    rw [h'.work, h.work, Table.filter_filter]
    congr 1
    funext key row
    simp
  frame := by rw [h'.frame, h.frame]

/-! ## One chunk -/

/-- An update of one wheel whose row satisfies the condition. -/
theorem updateWheels_of_holds {db : Db} {i : ℕ} {row : WheelRow} {p : WheelRow → Bool}
    (hrow : db.wheels.get? i = some row) (hp : p row = true) (f : WheelRow → WheelRow) :
    db.updateWheels (fun id r => id = i ∧ p r) f = db.updateWheel i f ∧
      (db.wheels.filter fun id r => id = i ∧ p r).rows.length = 1 := by
  -- the condition holds of the one row that is hit
  have hhit : ∀ id r, db.wheels.get? id = some r →
      decide (id = i ∧ p r = true) = decide (id = i) := by
    intro id r hr
    by_cases hid : id = i
    · subst hid
      rw [Option.some.inj (hr.symm.trans hrow)]
      simp [hp]
    · simp [hid]
  constructor
  · rw [Db.updateWheels, Db.updateWheel, Db.updateWheels]
    congr 1
    exact Table.modify_congr fun id r hr => by rw [hhit id r hr]
  · rw [← List.length_singleton (a := (i, row)), ← Table.rows_filter_key hrow]
    refine congrArg List.length (List.filter_congr fun r hr => ?_)
    exact hhit r.1 r.2 (Table.get?_eq_some_iff.mpr hr)

/-- The updates of a chunk of distinct wheels whose rows satisfy the condition. -/
theorem run_each_updateWheels_of_nodup {p : WheelRow → Bool} {f : ℕ → WheelRow → WheelRow}
    {ids : List ℕ} (hnodup : ids.Nodup) (db : Db) (n : ℕ)
    (hrows : ∀ id ∈ ids, ∃ row, db.wheels.get? id = some row ∧ p row = true) :
    ∃ wheels : Table ℕ WheelRow,
      (Program.each (fun id => do
        let seq ← Program.seq
        Op.updateWheels (fun id' row => id' = id ∧ p row) (f seq) : ℕ → Op ℕ) ids).run db n =
          ⟨{ db with wheels := wheels }, n + ids.length, .ok (ids.map fun _ => 1)⟩ ∧
      ∀ id, wheels.get? id = (db.wheels.get? id).map fun row =>
        if id ∈ ids then f (n + ids.idxOf id + 1) row else row := by
  induction ids generalizing db n with
  | nil => exact ⟨db.wheels, rfl, fun id => by simp⟩
  | cons i ids ih =>
      obtain ⟨hi, hids⟩ := List.nodup_cons.mp hnodup
      obtain ⟨⟨row, hrow, hp⟩, hrest⟩ := List.forall_mem_cons.mp hrows
      obtain ⟨hupdate, hcount⟩ := updateWheels_of_holds hrow hp (f (n + 1))
      have hhead : (do
          let seq ← Program.seq
          Op.updateWheels (fun id' row => id' = i ∧ p row) (f seq) : Op ℕ).run db n =
            ⟨db.updateWheel i (f (n + 1)), n + 1, .ok 1⟩ := by
        refine Eq.trans (b := ⟨db.updateWheels (fun id r => id = i ∧ p r) (f (n + 1)), n + 1,
          .ok (db.wheels.filter fun id r => id = i ∧ p r).rows.length⟩) rfl ?_
        rw [hupdate, hcount]
      have hrest' : ∀ id ∈ ids, ∃ r,
          (db.updateWheel i (f (n + 1))).wheels.get? id = some r ∧ p r = true := by
        intro id hid
        obtain ⟨r, hr, hpr⟩ := hrest id hid
        have hne : id ≠ i := fun heq => hi (heq ▸ hid)
        refine ⟨r, ?_, hpr⟩
        simp [Db.updateWheel, Db.updateWheels, hr, hne]
      obtain ⟨wheels, htail, hget⟩ := ih hids (db.updateWheel i (f (n + 1))) (n + 1) hrest'
      refine ⟨wheels, ?_, fun id => ?_⟩
      · refine ((Program.run_bind_ok hhead).trans (Program.run_bind_ok htail)).trans ?_
        simp [Db.updateWheel, Db.updateWheels, Nat.add_assoc, Nat.add_comm 1]
      · rw [hget, Db.wheels_updateWheel, Table.get?_modify, Option.map_map]
        congr 1
        funext r
        by_cases hid : id = i
        · subst hid
          simp [hi, Db.atWheel]
        · simp [hid, Ne.symm hid, Db.atWheel, Nat.add_assoc, Nat.add_comm 1]

/-- A chunk of distinct quarantined wheels. -/
theorem requeued_unquarantineChunk (p : Progress) {ids : List ℕ} (hnodup : ids.Nodup)
    (hrows : ∀ id ∈ ids, ∃ row, p.db.wheels.get? id = some row ∧ row.state = .quarantined)
    (nowIso : String) : Requeued p (unquarantineChunk p ids nowIso) ids := by
  obtain ⟨wheels, hloop, hget⟩ := run_each_updateWheels_of_nodup
    (p := fun row => row.state = .quarantined) (f := fun seq => enterState .needMetadata seq nowIso)
    hnodup { p.db with work := p.db.work.filter fun key _ => !decide (key.1 ∈ ids) } p.changeSeq
    (by simpa using hrows)
  have hrun : (unquarantineChunkApply ids nowIso).runAtomic p.db p.changeSeq =
      ⟨{ p.db with wheels := wheels
                   work := p.db.work.filter fun key _ => !decide (key.1 ∈ ids) },
        p.changeSeq + ids.length, .ok ids.length⟩ := by
    refine Program.runAtomic_of_ok ((Program.run_bind_ok rfl).trans ?_)
    simp only [decide_eq_true_eq] at hloop
    refine (Program.run_bind_ok hloop).trans ?_
    simp
  have hchunk : unquarantineChunk p ids nowIso =
      ⟨{ p.db with wheels := wheels
                   work := p.db.work.filter fun key _ => !decide (key.1 ∈ ids) },
        p.changeSeq + ids.length, p.total + ids.length⟩ := by
    rw [unquarantineChunk, hrun]
    rfl
  rw [hchunk]
  exact
    { nodup := hnodup
      total := rfl
      changeSeq := rfl
      wheels := fun id => ⟨nowIso, hget id⟩
      work := by simp
      frame := rfl }

/-! ## The loop -/

section Loop

variable {scans : ScanOrder} {maxVariables chunkSize : ℕ} {nowIso : ℕ → String} {db : Db}
  {p p' : Progress} {q : WheelRow → Bool} {ids order : List ℕ} {id : ℕ}

theorem mem_quarantinedWhere_iff : id ∈ quarantinedWhere q db ↔
    ∃ row, db.wheels.get? id = some row ∧ row.state = .quarantined ∧ q row = true := by
  simp [quarantinedWhere, Table.keys, Table.filter, Table.get?_eq_some_iff]

theorem nodup_quarantinedWhere (q : WheelRow → Bool) (db : Db) : (quarantinedWhere q db).Nodup :=
  (db.wheels.filter fun _ row => row.state = .quarantined ∧ q row).nodup

/-- A query finds what it found before, without the wheels requeued since. -/
theorem Requeued.mem_quarantinedWhere_iff (h : Requeued p p' ids) :
    id ∈ quarantinedWhere q p'.db ↔ id ∈ quarantinedWhere q p.db ∧ id ∉ ids := by
  obtain ⟨nowIso, hget⟩ := h.wheels id
  rw [Daemon.mem_quarantinedWhere_iff, Daemon.mem_quarantinedWhere_iff, hget]
  by_cases hid : id ∈ ids
  · simp [hid]
  · simp [hid]

/-- The wheels of a chunk and what a query finds after it are what it found before. -/
theorem Requeued.perm_quarantinedWhere (h : Requeued p p' ids)
    (hids : ∀ id ∈ ids, id ∈ quarantinedWhere q p.db) :
    (ids ++ quarantinedWhere q p'.db).Perm (quarantinedWhere q p.db) := by
  refine (List.perm_ext_iff_of_nodup (List.nodup_append.mpr ⟨h.nodup,
    nodup_quarantinedWhere q p'.db, ?_⟩) (nodup_quarantinedWhere q p.db)).mpr fun id => ?_
  · rintro id hid _ hid' rfl
    exact (h.mem_quarantinedWhere_iff.mp hid').2 hid
  · rw [List.mem_append, h.mem_quarantinedWhere_iff]
    by_cases hid : id ∈ ids
    · simp [hid, hids id hid]
    · simp [hid]

/-- The loop over the chunks of a query, none of which has too many wheels. -/
theorem exists_requeued_quarantinedChunks (scans : ScanOrder) (nowIso : ℕ → String)
    {project : Option String} {turns : ℕ} (hchunk : 1 ≤ chunkSize)
    (hvariables : min chunkSize
      (quarantinedWhere (ofProject project) p.db).length ≤ maxVariables)
    (hturns : (quarantinedWhere (ofProject project) p.db).length < turns) :
    ∃ p' order, quarantinedChunks scans maxVariables chunkSize nowIso project turns p =
        some ⟨p', none⟩ ∧ Requeued p p' order ∧
      order.Perm (quarantinedWhere (ofProject project) p.db) := by
  induction turns generalizing p with
  | zero => exact absurd hturns (Nat.not_lt_zero _)
  | succ turns ih =>
      obtain ⟨ids, hids⟩ : ∃ ids, quarantinedChunk scans chunkSize p.changeSeq project p.db = ids :=
        ⟨_, rfl⟩
      have hperm := scans.perm p.changeSeq (quarantinedWhere (ofProject project) p.db)
      have hlength : ids.length =
          min chunkSize (quarantinedWhere (ofProject project) p.db).length := by
        rw [← hids, quarantinedChunk, List.length_take, hperm.length_eq]
      have hfound : ∀ id ∈ ids, id ∈ quarantinedWhere (ofProject project) p.db := by
        intro id hid
        rw [← hids] at hid
        exact hperm.mem_iff.mp (List.mem_of_mem_take hid)
      have hnodup : ids.Nodup := by
        rw [← hids]
        exact (hperm.nodup_iff.mpr (nodup_quarantinedWhere _ p.db)).sublist (List.take_sublist _ _)
      have hfew : ¬maxVariables < ids.length := by omega
      rw [quarantinedChunks, hids]
      by_cases hnil : ids = []
      · have hempty : quarantinedWhere (ofProject project) p.db = [] := by
          rw [← List.length_eq_zero_iff] at hnil ⊢
          omega
        exact ⟨p, [], by simp [hnil], Requeued.refl p, hempty ▸ List.Perm.refl _⟩
      · have hrequeued := requeued_unquarantineChunk p hnodup (fun id hid => by
          obtain ⟨row, hrow, hstate, -⟩ := mem_quarantinedWhere_iff.mp (hfound id hid)
          exact ⟨row, hrow, hstate⟩) (nowIso p.changeSeq)
        have hrest := hrequeued.perm_quarantinedWhere hfound
        have hsum := hrest.length_eq
        rw [List.length_append] at hsum
        simp only [hnil, hfew, if_false]
        by_cases hshort : ids.length < chunkSize
        · refine ⟨_, ids, if_pos hshort, hrequeued, ?_⟩
          rw [← hids, quarantinedChunk, List.take_of_length_le (by rw [hperm.length_eq]; omega)]
          exact hperm
        · have hpos : 0 < ids.length := List.length_pos_iff.mpr hnil
          obtain ⟨p', order, hrun, hreset, horder⟩ := ih
            (p := unquarantineChunk p ids (nowIso p.changeSeq)) (by omega) (by omega)
          refine ⟨p', ids ++ order, (if_neg hshort).trans hrun, hrequeued.trans hreset ?_, ?_⟩
          · intro id hid hid'
            exact (hrequeued.mem_quarantinedWhere_iff.mp (horder.mem_iff.mp hid')).2 hid
          · exact (horder.append_left ids).trans hrest

/-- A chunk with too many wheels raises before anything is done. -/
theorem quarantinedChunks_eq_operationalError {project : Option String} {turns : ℕ}
    (hvariables : maxVariables < min chunkSize
      (quarantinedWhere (ofProject project) p.db).length) :
    quarantinedChunks scans maxVariables chunkSize nowIso project (turns + 1) p =
      some ⟨p, some .operationalError⟩ := by
  have hlength : (quarantinedChunk scans chunkSize p.changeSeq project p.db).length =
      min chunkSize (quarantinedWhere (ofProject project) p.db).length := by
    rw [quarantinedChunk, List.length_take, (scans.perm _ _).length_eq]
  have hne : quarantinedChunk scans chunkSize p.changeSeq project p.db ≠ [] := by
    rw [← List.length_pos_iff]
    omega
  rw [quarantinedChunks]
  simp only [hne, if_false]
  exact if_pos (hvariables.trans_eq hlength.symm)

/-! ## Selectors and queries -/

theorem quarantinedWhere_congr {q q' : WheelRow → Bool}
    (h : ∀ id row, db.wheels.get? id = some row → row.state = .quarantined → q row = q' row) :
    quarantinedWhere q db = quarantinedWhere q' db := by
  rw [quarantinedWhere, quarantinedWhere, Table.keys, Table.keys, Table.filter, Table.filter]
  refine congrArg (List.map Prod.fst) (List.filter_congr fun r hr => ?_)
  have hrow := h r.1 r.2 (Table.get?_eq_some_iff.mpr hr)
  by_cases hstate : r.2.state = .quarantined
  · simp [hrow hstate]
  · simp [hstate]

/-- A selector and the text that its project is bound as. -/
def AnySelector.Binds (selector : AnySelector) : Option String → Prop
  | none => selector = .state .quarantined
  | some name => selector = .project (name.toList.map .char) ∨
      name = noMatchProject ∧ ∃ s, s ≠ .quarantined ∧ selector = .state s

/-- The query with the bound project finds the wheels of the selector. -/
theorem AnySelector.Binds.quarantinedWhere_eq {selector : AnySelector} {project : Option String}
    (h : selector.Binds project)
    (hsentinel : ∀ id row, db.wheels.get? id = some row → row.project ≠ noMatchProject) :
    quarantinedWhere (ofProject project) db = selector.quarantined db := by
  refine quarantinedWhere_congr fun id row hrow hstate => ?_
  match project, h with
  | none, h =>
      obtain rfl : selector = .state .quarantined := h
      simp [ofProject, matchesWheel, hstate]
  | some name, .inl h =>
      subst h
      have hname : row.project.toList.map CodePoint.char = name.toList.map .char ↔
          name = row.project := by
        rw [List.map_inj_right fun _ _ => CodePoint.char.inj, String.toList_inj, eq_comm]
      simp [ofProject, matchesWheel, hname]
  | some name, .inr ⟨hname, s, hs, h⟩ =>
      subst h
      subst hname
      have hne : noMatchProject ≠ row.project := fun heq => hsentinel id row hrow heq.symm
      have hstate' : row.state ≠ s := fun heq => hs (heq.symm.trans hstate)
      simp [ofProject, matchesWheel, hne, hstate']

end Loop

/-! ## The command -/

section Command

variable {scans : ScanOrder} {maxVariables chunkSize changeSeq turns : ℕ} {nowIso : ℕ → String}
  {db : Db} {selector : AnySelector}

/-- The project has an encoding, the size of a chunk is a sqlite integer, and no chunk has
more wheels than a statement takes parameters. -/
structure AnySelector.Fits (selector : AnySelector) (db : Db) (chunkSize maxVariables : ℕ) :
    Prop where
  encodes : ∀ name, selector = .project name → ∀ n, .surrogate n ∉ name
  limit : chunkSize < 2 ^ 63
  parameters : min chunkSize (selector.quarantined db).length ≤ maxVariables

/-- A supported selector runs its loop with a project bound as text, or raises before. -/
theorem unquarantine_eq (hsupported : selector.Supported) (scans : ScanOrder)
    (maxVariables chunkSize : ℕ) (nowIso : ℕ → String) (db : Db) (changeSeq turns : ℕ) :
    (∃ name n, selector = .project name ∧ .surrogate n ∈ name ∧
      unquarantine scans maxVariables chunkSize nowIso selector db changeSeq turns =
        some ⟨⟨db, changeSeq, 0⟩, some .unicodeEncodeError⟩) ∨
    (∀ name, selector = .project name → ∀ n, .surrogate n ∉ name) ∧
      ∃ project, selector.Binds project ∧
        unquarantine scans maxVariables chunkSize nowIso selector db changeSeq turns =
          if 2 ^ 63 ≤ chunkSize then some ⟨⟨db, changeSeq, 0⟩, some .overflowError⟩
          else quarantinedChunks scans maxVariables chunkSize nowIso project turns
            ⟨db, changeSeq, 0⟩ := by
  match selector, hsupported with
  | .state s, _ =>
      refine .inr ⟨fun name hname => (nomatch hname), ?_⟩
      by_cases hs : s = .quarantined
      · exact ⟨none, by rw [AnySelector.Binds, hs], by simp [unquarantine, projectFilter, hs]⟩
      · refine ⟨some noMatchProject, .inr ⟨rfl, s, hs, rfl⟩, ?_⟩
        have hchars : toChars (noMatchProject.toList.map .char) = some noMatchProject.toList :=
          toChars_eq_some_iff.mpr rfl
        simp [unquarantine, projectFilter, hs, hchars]
  | .project name, _ =>
      rcases hname : toChars name with _ | cs
      · obtain ⟨n, hn⟩ := toChars_eq_none_iff.mp hname
        exact .inl ⟨name, n, rfl, hn, by simp [unquarantine, projectFilter, hname]⟩
      · have hchars := toChars_eq_some_iff.mp hname
        refine .inr ⟨?_, some (String.ofList cs), .inl (by simp [hchars]), ?_⟩
        · rintro _ ⟨⟩ n hn
          simp [hchars] at hn
        · simp [unquarantine, projectFilter, hname]

/-- An unquarantine campaign over a database where no project has the name that stands for
no match: it ends, and requeues exactly the quarantined wheels of its selector, when the
project has an encoding and the size of the chunks is one that sqlite takes. -/
theorem requeuesExactly_iff (scans : ScanOrder) (maxVariables : ℕ) (nowIso : ℕ → String)
    (changeSeq : ℕ) (hsupported : selector.Supported)
    (hsentinel : ∀ id row, db.wheels.get? id = some row → row.project ≠ noMatchProject)
    (hchunk : 1 ≤ chunkSize) (hturns : db.wheels.rows.length < turns) :
    (∃ result, unquarantine scans maxVariables chunkSize nowIso selector db changeSeq turns =
        some result ∧ RequeuesExactly selector db changeSeq result) ↔
      selector.Fits db chunkSize maxVariables := by
  have hcount : (selector.quarantined db).length ≤ db.wheels.rows.length := by
    rw [AnySelector.quarantined, quarantinedWhere, Table.keys, List.length_map]
    exact List.length_filter_le _ _
  rcases unquarantine_eq hsupported scans maxVariables chunkSize nowIso db changeSeq turns with
    ⟨name, n, hname, hn, hrun⟩ | ⟨hencodes, project, hbinds, hrun⟩
  · rw [hrun]
    refine iff_of_false ?_ fun hfits => hfits.encodes name hname n hn
    rintro ⟨_, ⟨⟩, hraised, -⟩
    cases hraised
  · have hquery := hbinds.quarantinedWhere_eq hsentinel
    rw [hrun]
    by_cases hlimit : 2 ^ 63 ≤ chunkSize
    · rw [if_pos hlimit]
      refine iff_of_false ?_ fun hfits => Nat.not_lt.mpr hlimit hfits.limit
      rintro ⟨_, ⟨⟩, hraised, -⟩
      cases hraised
    rw [if_neg hlimit]
    by_cases hvariables : min chunkSize (selector.quarantined db).length ≤ maxVariables
    · refine iff_of_true ?_ ⟨hencodes, Nat.not_le.mp hlimit, hvariables⟩
      obtain ⟨p', order, hloop, hrequeued, hperm⟩ :=
        exists_requeued_quarantinedChunks scans nowIso (p := ⟨db, changeSeq, 0⟩) hchunk
          (hquery ▸ hvariables) (hquery ▸ hcount.trans_lt hturns)
      exact ⟨_, hloop, rfl, order, hrequeued, hquery ▸ hperm⟩
    · refine iff_of_false ?_ fun hfits => hvariables hfits.parameters
      obtain ⟨turns, rfl⟩ : ∃ t, turns = t + 1 := ⟨turns - 1, by omega⟩
      rw [quarantinedChunks_eq_operationalError (p := ⟨db, changeSeq, 0⟩)
        (hquery ▸ Nat.not_le.mp hvariables)]
      rintro ⟨_, ⟨⟩, hraised, -⟩
      cases hraised

/-- A quarantined wheel of the project `p`. -/
def quarantinedWheel : WheelRow :=
  { filename := "p-1.0-py3-none-any.whl", project := "p", condaName := none,
    state := .quarantined, lane := 0, url := "u", wheelSha256 := none, metadataSha256 := none,
    size := none, uploadTime := none, requiresPython := none, yanked := false,
    yankedReason := none, blobSha256 := none, serial := 1, changeSeq := 1, deletedAt := none,
    updatedAt := "t0" }

def oneQuarantined : Db := Db.empty.addWheel quarantinedWheel

/-- Beside it a quarantined wheel of another project, and one of `p` that is not. -/
def twoQuarantined : Db :=
  (oneQuarantined.addWheel
    { quarantinedWheel with filename := "q-1.0-py3-none-any.whl", project := "q", changeSeq := 2 })
    |>.addWheel
      { quarantinedWheel with
        filename := "p-2.0-py3-none-any.whl"
        state := .needMetadata
        changeSeq := 3 }

/-- A campaign for `p`, one wheel at a time, is about the one quarantined wheel of `p`. -/
theorem requeuesExactly_project :
    (AnySelector.project [.char 'p']).quarantined twoQuarantined = [1] ∧
      ∃ result, unquarantine .table 250000 1 (fun _ => "t1") (.project [.char 'p'])
          twoQuarantined 3 4 = some result ∧
        RequeuesExactly (.project [.char 'p']) twoQuarantined 3 result := by
  have hsupported : AnySelector.Supported (.project [.char 'p']) := trivial
  refine ⟨by decide, (requeuesExactly_iff .table 250000 (fun _ => "t1") 3 hsupported
    (Table.forall_get?_iff.mpr (by decide)) (by decide) (by decide)).mpr
      ⟨?_, by decide, by decide⟩⟩
  rintro _ ⟨⟩ n hn
  simp at hn

/-- A project name with a lone surrogate raises, and what is quarantined stays so. -/
theorem raises_surrogate :
    unquarantine .table 250000 500 (fun _ => "t1") (.project [.surrogate 0]) oneQuarantined 1 2 =
        some ⟨⟨oneQuarantined, 1, 0⟩, some .unicodeEncodeError⟩ ∧
      ¬∃ result, unquarantine .table 250000 500 (fun _ => "t1") (.project [.surrogate 0])
          oneQuarantined 1 2 = some result ∧
        RequeuesExactly (.project [.surrogate 0]) oneQuarantined 1 result := by
  refine ⟨rfl, ?_⟩
  rintro ⟨_, ⟨⟩, hraised, -⟩
  cases hraised

end Command

end RerollSync.Daemon
