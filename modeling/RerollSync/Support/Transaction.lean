import Mathlib.Data.List.Basic

/-!
# Transactions and savepoints on one connection

The documented transaction statements of sqlite over an arbitrary database
state.  A connection sees `working`; other connections see `committed`.
Savepoints nest: rolling back to a savepoint keeps it open and discards the
newer ones, and releasing it merges what happened since into what surrounds it.
-/

namespace RerollSync.Support

universe u

/-- A connection with its open transaction, if any.  `begun` records an explicit
`BEGIN`; `savepoints` are the open savepoints, newest first, each with the state
it returns to. -/
structure Connection (σ : Type u) where
  committed : σ
  working : σ
  begun : Bool
  savepoints : List (String × σ)

inductive Statement
  | begin
  | savepoint (name : String)
  | rollbackTo (name : String)
  | release (name : String)
  | commit
deriving DecidableEq

namespace Connection

variable {σ : Type u}

/-- A connection without an open transaction. -/
def idle (db : σ) : Connection σ := ⟨db, db, false, []⟩

def inTransaction (c : Connection σ) : Bool := c.begun || !c.savepoints.isEmpty

/-- The newest savepoint of a name, with everything opened before it. -/
def find (name : String) (savepoints : List (String × σ)) : List (String × σ) :=
  savepoints.dropWhile fun s => s.1 ≠ name

/-- Execute a transaction statement; `none` is an error, which has no effect.
Releasing the outermost savepoint commits unless `BEGIN` opened the transaction. -/
def exec (c : Connection σ) : Statement → Option (Connection σ)
  | .begin => if c.inTransaction then none else some { c with begun := true }
  | .savepoint name => some { c with savepoints := (name, c.working) :: c.savepoints }
  | .rollbackTo name =>
      match find name c.savepoints with
      | [] => none
      | s :: rest => some { c with working := s.2, savepoints := s :: rest }
  | .release name =>
      match find name c.savepoints with
      | [] => none
      | _ :: rest =>
          if rest = [] ∧ ¬c.begun then some (idle c.working)
          else some { c with savepoints := rest }
  | .commit => if c.inTransaction then some (idle c.working) else none

/-- Closing the connection rolls an open transaction back. -/
def close (c : Connection σ) : Connection σ := idle c.committed

@[simp] theorem idle_committed (db : σ) : (idle db).committed = db := rfl

@[simp] theorem find_cons_self (name : String) (db : σ) (rest : List (String × σ)) :
    find name ((name, db) :: rest) = (name, db) :: rest := by
  simp [find]

@[simp] theorem exec_begin_idle (db : σ) :
    (idle db).exec .begin = some { idle db with begun := true } := rfl

variable {c : Connection σ}

theorem exec_commit_of_begun (h : c.begun = true) : c.exec .commit = some (idle c.working) := by
  simp [exec, inTransaction, h]

/-- Inside `BEGIN`, releasing the savepoint just opened keeps what was done since. -/
theorem exec_release_of_begun (h : c.begun = true) (name : String) (db : σ) (working : σ) :
    ({ c with working := working, savepoints := (name, db) :: c.savepoints } :
      Connection σ).exec (.release name) = some { c with working := working } := by
  simp [exec, h]

/-- Rolling back to the savepoint just opened restores the state it was opened in. -/
theorem exec_rollbackTo (name : String) (working : σ) :
    ({ c with working := working, savepoints := (name, c.working) :: c.savepoints } :
      Connection σ).exec (.rollbackTo name) =
      some { c with savepoints := (name, c.working) :: c.savepoints } := by
  simp [exec]

end Connection

end RerollSync.Support
