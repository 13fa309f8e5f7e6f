import RerollSync.Support.Transaction

/-!
# Batches

`Writer._apply_op` and `Writer._commit_batch` of `writer.py`.  An op is a
function of the database it sees; when it raises, the database it leaves holds
the statements it executed before.  The writer's own statements are counted, and
a batch takes the number of the one that raises, if any.
-/

namespace RerollSync.Writer

open RerollSync.Support

/-- The exceptions an outcome can carry: the op's own, an error of one of the
writer's statements, or `WriterStoppedError`. -/
inductive Raised (ε : Type)
  | apply (e : ε)
  | sqlite
  | stopped
deriving DecidableEq

/-- `_Outcome`. -/
inductive Outcome (ε β : Type)
  | value (v : β)
  | exception (e : Raised ε)
deriving DecidableEq

/-- `WriteOp`: its name and its effect. -/
structure WriteOp (σ ε β : Type) where
  name : String
  apply : σ → σ × Except ε β

/-- What a batch works on: the connection and the number of the writer's own
statements executed so far. -/
structure Session (σ : Type) where
  conn : Connection σ
  executed : ℕ

variable {σ ε β : Type}

/-- `self._conn.execute(statement)`, which raises when its number is `failAt`. -/
def execute (failAt : Option ℕ) (statement : Statement) : EStateM Unit (Session σ) Unit :=
  fun x =>
    if failAt = some x.executed then .error () x
    else
      match x.conn.exec statement with
      | none => .error () x
      | some conn => .ok () ⟨conn, x.executed + 1⟩

/-- `op.apply(guarded)`: the guard leaves the transaction alone. -/
def runApply (op : WriteOp σ ε β) : EStateM Unit (Session σ) (Except ε β) := fun x =>
  .ok (op.apply x.conn.working).2
    { x with conn := { x.conn with working := (op.apply x.conn.working).1 } }

/-- `_apply_op`. -/
def applyOp (failAt : Option ℕ) (op : WriteOp σ ε β) (savepointName : String) :
    EStateM Unit (Session σ) (Outcome ε β) := do
  execute failAt (.savepoint savepointName)
  match ← runApply op with
  | .error exc =>
      execute failAt (.rollbackTo savepointName)
      execute failAt (.release savepointName)
      return .exception (.apply exc)
  | .ok result =>
      execute failAt (.release savepointName)
      return .value result

/-- The list comprehension of `_commit_batch`, from index `i` on. -/
def applyOps (failAt : Option ℕ) : ℕ → List (WriteOp σ ε β) →
    EStateM Unit (Session σ) (List (Outcome ε β))
  | _, [] => return []
  | i, op :: ops => do
      let outcome ← applyOp failAt op s!"op_{i}"
      let outcomes ← applyOps failAt (i + 1) ops
      return outcome :: outcomes

/-- `_commit_batch`. -/
def commitBatch (failAt : Option ℕ) (batch : List (WriteOp σ ε β)) :
    EStateM Unit (Session σ) (List (Outcome ε β)) := do
  execute failAt .begin
  let outcomes ← applyOps failAt 0 batch
  execute failAt .commit
  return outcomes

/-! ## The reference: one op at a time -/

/-- An op applied alone: it leaves no trace when it raises. -/
def WriteOp.alone (op : WriteOp σ ε β) (db : σ) : σ × Outcome ε β :=
  match op.apply db with
  | (db', .ok v) => (db', .value v)
  | (_, .error e) => (db, .exception (.apply e))

/-- Ops applied one after another, each alone. -/
def sequential (db : σ) : List (WriteOp σ ε β) → σ × List (Outcome ε β)
  | [] => (db, [])
  | op :: ops =>
      let rest := sequential (op.alone db).1 ops
      (rest.1, (op.alone db).2 :: rest.2)

theorem sequential_append (db : σ) (ops ops' : List (WriteOp σ ε β)) :
    sequential db (ops ++ ops') =
      ((sequential (sequential db ops).1 ops').1,
        (sequential db ops).2 ++ (sequential (sequential db ops).1 ops').2) := by
  induction ops generalizing db with
  | nil => rfl
  | cons op ops ih => simp [sequential, ih]

@[simp] theorem length_sequential (db : σ) (ops : List (WriteOp σ ε β)) :
    (sequential db ops).2.length = ops.length := by
  induction ops generalizing db with
  | nil => rfl
  | cons op ops ih => simp [sequential, ih]

/-! ## A batch against the reference -/

/-- How a part of a batch ends inside a transaction: with its result, or with an
error that has committed nothing; without a failing statement only with its
result. -/
def Completes {α : Type} (failAt : Option ℕ) (m : EStateM Unit (Session σ) α) (x : Session σ)
    (result : α) (conn : Connection σ) : Prop :=
  (∃ executed, m x = .ok result ⟨conn, executed⟩) ∨
    (failAt ≠ none ∧ ∃ x', m x = .error () x' ∧ x'.conn.committed = x.conn.committed)

namespace Completes

variable {α γ : Type} {failAt : Option ℕ} {x : Session σ} {result : α} {conn : Connection σ}

theorem execute {statement : Statement} (h : x.conn.exec statement = some conn) :
    Completes failAt (Writer.execute failAt statement) x () conn := by
  by_cases hfail : failAt = some x.executed
  · exact Or.inr ⟨by simp [hfail], x, by simp [Writer.execute, hfail], rfl⟩
  · exact Or.inl ⟨x.executed + 1, by simp [Writer.execute, hfail, h]⟩

theorem pure (result : α) : Completes failAt (Pure.pure result) x result x.conn :=
  Or.inl ⟨x.executed, rfl⟩

/-- Parts compose, as long as the first has committed nothing. -/
theorem bind {m : EStateM Unit (Session σ) α} {f : α → EStateM Unit (Session σ) γ}
    {result' : γ} {conn' : Connection σ} (hm : Completes failAt m x result conn)
    (hcommitted : conn.committed = x.conn.committed)
    (hf : ∀ executed, Completes failAt (f result) ⟨conn, executed⟩ result' conn') :
    Completes failAt (m >>= f) x result' conn' := by
  rcases hm with ⟨executed, hm⟩ | ⟨hfail, x', hm, hx'⟩
  · have hbind : (m >>= f) x = f result ⟨conn, executed⟩ := by
      simp [Bind.bind, EStateM.bind, hm]
    rcases hf executed with ⟨executed', hok⟩ | ⟨hfail, x', herr, hx'⟩
    · exact Or.inl ⟨executed', hbind.trans hok⟩
    · exact Or.inr ⟨hfail, x', hbind.trans herr, hx'.trans hcommitted⟩
  · exact Or.inr ⟨hfail, x', by simp [Bind.bind, EStateM.bind, hm], hx'⟩

/-- Returning a result executes nothing. -/
theorem bind_pure {m : EStateM Unit (Session σ) α} {f : α → γ}
    (hm : Completes failAt m x result conn) :
    Completes failAt (m >>= fun a => Pure.pure (f a)) x (f result) conn := by
  rcases hm with ⟨executed, hm⟩ | ⟨hfail, x', hm, hx'⟩
  · exact Or.inl ⟨executed, by simp [Bind.bind, EStateM.bind, hm, Pure.pure, EStateM.pure]⟩
  · exact Or.inr ⟨hfail, x', by simp [Bind.bind, EStateM.bind, hm], hx'⟩

end Completes

/-- One op of a batch does what it does alone. -/
theorem completes_applyOp (failAt : Option ℕ) (op : WriteOp σ ε β) (savepointName : String)
    {x : Session σ} (hbegun : x.conn.begun = true) :
    Completes failAt (applyOp failAt op savepointName) x (op.alone x.conn.working).2
      { x.conn with working := (op.alone x.conn.working).1 } := by
  rcases hop : op.apply x.conn.working with ⟨db, result⟩
  refine Completes.bind (Completes.execute rfl) rfl fun executed => ?_
  have happly : Completes failAt (runApply op)
      ⟨{ x.conn with savepoints := (savepointName, x.conn.working) :: x.conn.savepoints }, executed⟩
      result
      { x.conn with
        working := db, savepoints := (savepointName, x.conn.working) :: x.conn.savepoints } :=
    Or.inl ⟨executed, by simp [runApply, hop]⟩
  refine happly.bind rfl fun executed => ?_
  cases result with
  | ok v =>
      have halone : op.alone x.conn.working = (db, .value v) := by simp [WriteOp.alone, hop]
      rw [halone]
      exact Completes.bind_pure (Completes.execute
        (Connection.exec_release_of_begun hbegun savepointName x.conn.working db))
  | error e =>
      have halone : op.alone x.conn.working = (x.conn.working, .exception (.apply e)) := by
        simp [WriteOp.alone, hop]
      rw [halone]
      refine Completes.bind (Completes.execute
        (Connection.exec_rollbackTo savepointName db)) rfl fun _ => ?_
      exact Completes.bind_pure (Completes.execute
        (Connection.exec_release_of_begun hbegun savepointName x.conn.working
          x.conn.working))

theorem completes_applyOps (failAt : Option ℕ) (ops : List (WriteOp σ ε β)) (i : ℕ)
    {x : Session σ} (hbegun : x.conn.begun = true) :
    Completes failAt (applyOps failAt i ops) x (sequential x.conn.working ops).2
      { x.conn with working := (sequential x.conn.working ops).1 } := by
  induction ops generalizing i x with
  | nil => exact Completes.pure []
  | cons op ops ih =>
      refine Completes.bind (completes_applyOp failAt op _ hbegun) rfl fun executed => ?_
      exact Completes.bind_pure (ih (i + 1) (x := ⟨_, executed⟩) hbegun)

/-- A batch commits what its ops do one after another, or fails and commits
nothing; it fails only when one of the writer's own statements raises. -/
theorem completes_commitBatch (failAt : Option ℕ) (batch : List (WriteOp σ ε β)) (db : σ)
    (executed : ℕ) :
    Completes failAt (commitBatch failAt batch) ⟨.idle db, executed⟩ (sequential db batch).2
      (.idle (sequential db batch).1) := by
  refine Completes.bind (Completes.execute (Connection.exec_begin_idle db)) rfl fun _ => ?_
  refine Completes.bind (completes_applyOps failAt batch 0 rfl) rfl fun _ => ?_
  exact Completes.bind_pure (Completes.execute (Connection.exec_commit_of_begun rfl))

section CommitBatch

variable {failAt : Option ℕ} {batch : List (WriteOp σ ε β)} {db : σ} {executed : ℕ}
  {x : Session σ}

theorem committed_of_commitBatch_error
    (h : commitBatch failAt batch ⟨.idle db, executed⟩ = .error () x) : x.conn.committed = db := by
  rcases completes_commitBatch failAt batch db executed with ⟨_, hok⟩ | ⟨-, x', herr, hx'⟩
  · rw [h] at hok
    cases hok
  · rw [h] at herr
    cases herr
    exact hx'

theorem sequential_of_commitBatch_ok {outcomes : List (Outcome ε β)}
    (h : commitBatch failAt batch ⟨.idle db, executed⟩ = .ok outcomes x) :
    outcomes = (sequential db batch).2 ∧ x.conn = .idle (sequential db batch).1 := by
  rcases completes_commitBatch failAt batch db executed with ⟨_, hok⟩ | ⟨-, x', herr, -⟩
  · rw [h] at hok
    cases hok
    exact ⟨rfl, rfl⟩
  · rw [h] at herr
    cases herr

end CommitBatch

end RerollSync.Writer
