import RerollSync.Dispatcher.ClaimPasses
import RerollSync.Dispatcher.Resets

/-!
# Keyset campaigns

`reprocess` with a project, a state or the skipped wheels, and no other writer: a
generator pages over the matching wheels behind a keyset cursor, and each page is reset
by an op of its own before the next one is read.
-/

namespace RerollSync.Dispatcher

open RerollSync.Store RerollSync.Support

/-! ## The generators -/

section Loop

variable {κ ρ : Type}

/-- A generator with a keyset cursor, with the ops of its chunks: `page` is what its
query returns behind a cursor.  The counter tells the ops apart, so the clock is read
at it.  `none` when it takes more turns. -/
def keysetLoop (page : κ → Db → List ρ) (id : ρ → ℕ) (cursor : ρ → κ) (selector : Selector)
    (chunkSize : ℕ) (nowIso : ℕ → String) : ℕ → κ → Progress → Option Progress
  | 0, _, _ => none
  | turns + 1, last, p =>
      match (page last p.db).getLast? with
      | none => some p
      | some row =>
          let p' := p.reprocess ((page last p.db).map id) selector (nowIso p.changeSeq)
          if (page last p.db).length < chunkSize then some p'
          else keysetLoop page id cursor selector chunkSize nowIso turns (cursor row) p'

end Loop

/-- `_project_chunks`, with the ops of its chunks. -/
def projectChunks (project : String) (selector : Selector) (chunkSize : ℕ) (nowIso : ℕ → String)
    (turns : ℕ) (p : Progress) : Option Progress :=
  keysetLoop (fun lastId db => projectChunkQuery project lastId chunkSize db) id id selector
    chunkSize nowIso turns 0 p

/-- The cursor of a row. -/
def rowCursor (r : ℕ × WheelRow) : Option Cursor := some ⟨r.2.lane, r.2.project, r.1⟩

/-- `_state_chunks`, with the ops of its chunks. -/
def stateChunks (state : WheelState) (selector : Selector) (chunkSize : ℕ) (nowIso : ℕ → String)
    (turns : ℕ) (p : Progress) : Option Progress :=
  keysetLoop (fun cursor db => stateChunkQuery state cursor chunkSize db) Prod.fst rowCursor
    selector chunkSize nowIso turns none p

/-- `reprocess`; `none` when a generator takes more turns. -/
def reprocess (selector : Selector) (chunkSize : ℕ) (nowIso : ℕ → String) (db : Db)
    (changeSeq turns : ℕ) : Option Progress :=
  match selector with
  | .rerollVersionBelow version =>
      some (reprocessVersionBelow version chunkSize nowIso db changeSeq)
  | .project project => projectChunks project selector chunkSize nowIso turns ⟨db, changeSeq, 0⟩
  | .state state => stateChunks state selector chunkSize nowIso turns ⟨db, changeSeq, 0⟩
  | .skippedOnly => stateChunks .skipped selector chunkSize nowIso turns ⟨db, changeSeq, 0⟩

/-! ## Chunks of a list -/

section Chunks

variable {ρ : Type} {settled : List ρ → Prop} {size : ℕ} {l : List ρ}

/-- Every full chunk of the list, cut from its front, is settled. -/
def ChunksSettle (settled : List ρ → Prop) (size : ℕ) (l : List ρ) : Prop :=
  ∀ k, ((l.drop (k * size)).take size).length = size → settled ((l.drop (k * size)).take size)

theorem chunksSettle_iff : ChunksSettle settled size l ↔
    ((l.take size).length = size → settled (l.take size)) ∧
      ChunksSettle settled size (l.drop size) := by
  constructor
  · intro h
    refine ⟨by simpa using h 0, fun k => ?_⟩
    have hk := h (k + 1)
    rwa [Nat.succ_mul, Nat.add_comm, ← List.drop_drop] at hk
  · rintro ⟨hfirst, hrest⟩ k
    cases k with
    | zero => simpa using hfirst
    | succ k =>
        rw [Nat.succ_mul, Nat.add_comm, ← List.drop_drop]
        exact hrest k

/-- A list shorter than a chunk has no full chunk. -/
theorem chunksSettle_of_short (h : l.length < size) : ChunksSettle settled size l := by
  intro k hk
  rw [List.length_take, List.length_drop] at hk
  omega

end Chunks

/-! ## What a generator goes through -/

section Generator

variable {κ ρ : Type}

/-- `rest` is what a query without `LIMIT` returns behind a cursor: a settled chunk
leaves of it what the chunk has not taken, and any other leaves more. -/
structure Keyset (rest : κ → Db → List ρ) (id : ρ → ℕ) (cursor : ρ → κ)
    (settled : List ρ → Prop) : Prop where
  nodup : ∀ last db, ((rest last db).map id).Nodup
  present : ∀ last db, ∀ row ∈ rest last db, db.hasWheel (id row) = true
  next : ∀ last (p p' : Progress) size row,
    p.Reset p' (((rest last p.db).take size).map id) →
    ((rest last p.db).take size).getLast? = some row → settled ((rest last p.db).take size) →
    rest (cursor row) p'.db = (rest last p.db).drop size
  again : ∀ last (p p' : Progress) size row,
    p.Reset p' (((rest last p.db).take size).map id) →
    ((rest last p.db).take size).getLast? = some row → ¬settled ((rest last p.db).take size) →
    ((rest last p.db).drop size).length < (rest (cursor row) p'.db).length

variable {rest : κ → Db → List ρ} {id : ρ → ℕ} {cursor : ρ → κ} {selector : Selector}
  {settled : List ρ → Prop} {chunkSize turns : ℕ} {nowIso : ℕ → String} {last : κ}
  {p p' : Progress}

/-- The op of a chunk. -/
theorem Keyset.reset_chunk (h : Keyset rest id cursor settled) (last : κ) (p : Progress)
    (size : ℕ) (selector : Selector) (nowIso : String) :
    p.Reset (p.reprocess (((rest last p.db).take size).map id) selector nowIso)
      (((rest last p.db).take size).map id) := by
  refine p.reset_reprocess ?_ (fun i hi => ?_) selector nowIso
  · exact (h.nodup last p.db).sublist ((List.take_sublist _ _).map id)
  · obtain ⟨row, hrow, rfl⟩ := List.mem_map.mp hi
    exact h.present last p.db row (List.mem_of_mem_take hrow)

/-- A campaign whose full chunks settle resets what the query returns at its start, each
wheel once; any other resets more. -/
theorem Keyset.run (h : Keyset rest id cursor settled) (hpos : 1 ≤ chunkSize)
    (hrun : keysetLoop (fun last db => (rest last db).take chunkSize) id cursor selector chunkSize
      nowIso turns last p = some p') :
    (ChunksSettle settled chunkSize (rest last p.db) → p.Reset p' ((rest last p.db).map id)) ∧
      p.changeSeq + (rest last p.db).length ≤ p'.changeSeq ∧
      (p'.changeSeq = p.changeSeq + (rest last p.db).length →
        ChunksSettle settled chunkSize (rest last p.db)) := by
  induction turns generalizing last p with
  | zero => cases hrun
  | succ turns ih =>
      rw [keysetLoop] at hrun
      have hchunk := h.reset_chunk last p chunkSize selector (nowIso p.changeSeq)
      cases hlast : ((rest last p.db).take chunkSize).getLast? with
      | none =>
          rw [hlast] at hrun
          obtain rfl := Option.some.inj hrun
          have hnil : rest last p.db = [] := by
            rw [List.getLast?_eq_none_iff, List.take_eq_nil_iff] at hlast
            exact hlast.resolve_left (by omega)
          rw [hnil]
          exact ⟨fun _ => Progress.Reset.refl p, le_rfl, fun _ => chunksSettle_of_short (by simpa)⟩
      | some row =>
          rw [hlast] at hrun
          simp only at hrun
          split at hrun
          · next hshort =>
              -- a short page is the last one
              obtain rfl := Option.some.inj hrun
              rw [List.length_take] at hshort
              have hall : (rest last p.db).take chunkSize = rest last p.db :=
                List.take_of_length_le (by omega)
              rw [hall] at hchunk ⊢
              refine ⟨fun _ => hchunk, ?_, fun _ => chunksSettle_of_short (by omega)⟩
              rw [hchunk.changeSeq, List.length_map]
          · next hfull =>
              have hseq := hchunk.changeSeq
              rw [List.length_take] at hfull
              rw [List.length_map, List.length_take, min_eq_left (by omega)] at hseq
              have hdrop := List.length_drop (i := chunkSize) (l := rest last p.db)
              obtain ⟨hreset, hle, hsettle⟩ := ih hrun
              by_cases hsettled : settled ((rest last p.db).take chunkSize)
              · rw [h.next last p _ chunkSize row hchunk hlast hsettled] at hreset hle hsettle
                refine ⟨fun hchunks => ?_, by omega, fun heq => ?_⟩
                · have hrest := hreset (chunksSettle_iff.mp hchunks).2
                  have hboth := hchunk.trans hrest fun i hi hi' => ?_
                  · rwa [← List.map_append, List.take_append_drop] at hboth
                  · have hnodup := h.nodup last p.db
                    rw [← List.take_append_drop chunkSize (rest last p.db),
                      List.map_append] at hnodup
                    exact (List.nodup_append.mp hnodup).2.2 i hi i hi' rfl
                · exact chunksSettle_iff.mpr ⟨fun _ => hsettled, hsettle (by omega)⟩
              · have hmore := h.again last p _ chunkSize row hchunk hlast hsettled
                refine ⟨fun hchunks => absurd ?_ hsettled, by omega, fun heq => by omega⟩
                refine (chunksSettle_iff.mp hchunks).1 ?_
                rw [List.length_take]
                omega

end Generator

/-! ## The rows behind a cursor -/

section State

variable {state : WheelState} {cursor : Option Cursor} {db : Db}

variable {p p' : Progress} {order : List ℕ}

end State

/-! ## The rows of a project -/

section Project

variable {project : String} {lastId : ℕ} {db : Db} {p p' : Progress}

end Project

/-! ## Ends -/

/-- The wheels that a selector matches. -/
def Selector.Matches (db : Db) (id : ℕ) : Selector → Prop
  | .project name => ∃ row, db.wheels.get? id = some row ∧ row.project = name ∧
      row.state ≠ .deleted
  | .state queue => ∃ row, db.wheels.get? id = some row ∧ row.state = queue ∧
      row.state ≠ .deleted
  | .skippedOnly => ∃ row, db.wheels.get? id = some row ∧ row.state = .skipped
  | .rerollVersionBelow version => live db id = true ∧
      ((∃ row, db.wheelRepodata.get? id = some row ∧ row.rerollVersion < version) ∨
        ∃ stage row, db.skips.get? (id, stage) = some row ∧ row.permanent = false ∧
          row.rerollVersion.any (· < version) = true)

section Preview

variable {chunkSize : ℕ} {nowIso : ℕ → String} {db : Db} {changeSeq : ℕ}

/-- A list of the matching wheels is as long as any other. -/
theorem length_eq_of_mem_iff {order ids : List ℕ} (horder : order.Nodup) (hids : ids.Nodup)
    (h : ∀ id, id ∈ order ↔ id ∈ ids) : order.length = ids.length :=
  ((List.perm_ext_iff_of_nodup horder hids).mpr h).length_eq

end Preview

end RerollSync.Dispatcher
