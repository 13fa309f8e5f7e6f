import Mathlib.Data.List.Basic
import Mathlib.Order.Basic
import Mathlib.Data.Nat.Basic

/-!
# Programs of database statements

A program issues one statement at a time: a read continues with the database it
sees, a write either changes the database and continues with its row count or
raises and enters its handler.  Sequence numbers come from a counter outside
the database, so undoing the writes does not give them back.
-/

namespace RerollSync.Support

/-- A program over database states `σ` with errors `ε` and results `α`. -/
inductive Program (σ ε α : Type)
  | pure (a : α)
  | raise (e : ε)
  | select (k : σ → Program σ ε α)
  | execute (f : σ → Except ε (σ × ℕ)) (handler : ε → Program σ ε α) (k : ℕ → Program σ ε α)
  | nextSeq (k : ℕ → Program σ ε α)

namespace Program

variable {σ ε α β : Type}

def bind : Program σ ε α → (α → Program σ ε β) → Program σ ε β
  | pure a, g => g a
  | raise e, _ => raise e
  | select k, g => select fun db => (k db).bind g
  | execute f handler k, g => execute f (fun e => (handler e).bind g) fun n => (k n).bind g
  | nextSeq k, g => nextSeq fun n => (k n).bind g

instance : Monad (Program σ ε) where
  pure := pure
  bind := bind

/-- A query: the part `q` of the database. -/
def query (q : σ → α) : Program σ ε α := select fun db => pure (q db)

/-- A write whose error is raised; the result is its row count. -/
def write (f : σ → Except ε (σ × ℕ)) : Program σ ε ℕ := execute f raise pure

/-- A write whose error is returned. -/
def attempt (f : σ → Except ε (σ × ℕ)) : Program σ ε (Except ε ℕ) :=
  execute f (fun e => pure (.error e)) fun n => pure (.ok n)

/-- The next value of the counter. -/
def seq : Program σ ε ℕ := nextSeq pure

/-- A loop over a list, in order, with the result of every turn. -/
def each (f : β → Program σ ε α) : List β → Program σ ε (List α)
  | [] => pure []
  | b :: l => do
      let a ← f b
      let as ← each f l
      return a :: as

/-! ## Running a program -/

/-- What a run leaves: the database, the counter, and the result. -/
structure Result (σ ε α : Type) where
  db : σ
  counter : ℕ
  value : Except ε α

/-- Run a program; when it raises, the statements before stay executed. -/
def run : Program σ ε α → σ → ℕ → Result σ ε α
  | pure a, db, n => ⟨db, n, .ok a⟩
  | raise e, db, n => ⟨db, n, .error e⟩
  | select k, db, n => (k db).run db n
  | execute f handler k, db, n =>
      match f db with
      | .error e => (handler e).run db n
      | .ok (db', count) => (k count).run db' n
  | nextSeq k, db, n => (k (n + 1)).run db (n + 1)

/-- A program run inside a savepoint: when it raises, the database is as before. -/
def runAtomic (p : Program σ ε α) (db : σ) (n : ℕ) : Result σ ε α :=
  match p.run db n with
  | ⟨db', n', .ok a⟩ => ⟨db', n', .ok a⟩
  | ⟨_, n', .error e⟩ => ⟨db, n', .error e⟩

@[simp] theorem run_pure (a : α) (db : σ) (n : ℕ) :
    (Pure.pure a : Program σ ε α).run db n = ⟨db, n, .ok a⟩ := rfl

@[simp] theorem run_query (q : σ → α) (db : σ) (n : ℕ) :
    (query q : Program σ ε α).run db n = ⟨db, n, .ok (q db)⟩ := rfl

@[simp] theorem run_seq (db : σ) (n : ℕ) :
    (seq : Program σ ε ℕ).run db n = ⟨db, n + 1, .ok (n + 1)⟩ := rfl

theorem run_write (f : σ → Except ε (σ × ℕ)) (db : σ) (n : ℕ) :
    (write f).run db n =
      match f db with
      | .error e => ⟨db, n, .error e⟩
      | .ok (db', count) => ⟨db', n, .ok count⟩ := by
  rw [write, run]
  cases f db <;> rfl

theorem run_attempt (f : σ → Except ε (σ × ℕ)) (db : σ) (n : ℕ) :
    (attempt f).run db n =
      match f db with
      | .error e => ⟨db, n, .ok (.error e)⟩
      | .ok (db', count) => ⟨db', n, .ok (.ok count)⟩ := by
  rw [attempt, run]
  cases f db <;> rfl

theorem run_bind (p : Program σ ε α) (g : α → Program σ ε β) (db : σ) (n : ℕ) :
    (p >>= g).run db n =
      match p.run db n with
      | ⟨db', n', .ok a⟩ => (g a).run db' n'
      | ⟨db', n', .error e⟩ => ⟨db', n', .error e⟩ := by
  change (p.bind g).run db n = _
  induction p generalizing db n with
  | pure a => rfl
  | raise e => rfl
  | select k ih => exact ih db db n
  | execute f handler k ihHandler ih =>
      simp only [bind, run]
      cases f db with
      | error e => exact ihHandler e db n
      | ok r => exact ih r.2 r.1 n
  | nextSeq k ih => exact ih (n + 1) db (n + 1)

/-- The rest of a program runs from what its first part leaves. -/
theorem run_bind_ok {p : Program σ ε α} {g : α → Program σ ε β} {db db' : σ} {n n' : ℕ} {a : α}
    (h : p.run db n = ⟨db', n', .ok a⟩) : (p >>= g).run db n = (g a).run db' n' := by
  rw [run_bind, h]

theorem runAtomic_of_ok {p : Program σ ε α} {db db' : σ} {n n' : ℕ} {a : α}
    (h : p.run db n = ⟨db', n', .ok a⟩) : p.runAtomic db n = ⟨db', n', .ok a⟩ := by
  rw [runAtomic, h]

/-- Post-processing the result leaves what the program leaves. -/
theorem db_runAtomic_bind_pure (p : Program σ ε α) (g : α → β) (db : σ) (n : ℕ) :
    ((p >>= fun a => Pure.pure (g a)).runAtomic db n).db = (p.runAtomic db n).db := by
  simp only [runAtomic, run_bind]
  rcases p.run db n with ⟨db', n', e | a⟩ <;> rfl

/-! ## Pre- and postconditions

A triple speaks of runs that return, since an op that raises is rolled back, and of
the sequence numbers that are drawn on the way.
-/

/-- The counter does not go back. -/
theorem le_counter_run (p : Program σ ε α) (db : σ) (n : ℕ) : n ≤ (p.run db n).counter := by
  induction p generalizing db n with
  | pure a => exact le_rfl
  | raise e => exact le_rfl
  | select k ih => exact ih db db n
  | execute f handler k ihHandler ih =>
      simp only [run]
      cases f db with
      | error e => exact ihHandler e db n
      | ok r => exact ih r.2 r.1 n
  | nextSeq k ih => exact (Nat.le_succ n).trans (ih (n + 1) db (n + 1))

theorem counter_runAtomic (p : Program σ ε α) (db : σ) (n : ℕ) :
    (p.runAtomic db n).counter = (p.run db n).counter := by
  rw [runAtomic]
  rcases p.run db n with ⟨db', n', e | a⟩ <;> rfl

/-- From every database that meets `pre`, a run that draws numbers in `S` only and
returns `a` leaves a database that meets `post a`. -/
def Triple (S : ℕ → Prop) (pre : σ → Prop) (p : Program σ ε α) (post : α → σ → Prop) : Prop :=
  ∀ db n db' n' a, pre db → (∀ m, n < m → m ≤ n' → S m) → p.run db n = ⟨db', n', .ok a⟩ →
    post a db'

namespace Triple

variable {S : ℕ → Prop} {pre : σ → Prop} {post : α → σ → Prop} {p : Program σ ε α}

theorem pure (a : α) (h : ∀ db, pre db → post a db) :
    Triple S pre (Pure.pure a : Program σ ε α) post := by
  intro db n db' n' b hpre _ hrun
  obtain ⟨rfl, rfl, hab⟩ := Result.mk.inj (run_pure (ε := ε) a db n ▸ hrun)
  obtain rfl : a = b := Except.ok.inj hab
  exact h db hpre

theorem raise (e : ε) : Triple S pre (Program.raise e : Program σ ε α) post := by
  intro db n db' n' b _ _ hrun
  cases hrun

theorem query (q : σ → α) (h : ∀ db, pre db → post (q db) db) :
    Triple S pre (Program.query q : Program σ ε α) post := by
  intro db n db' n' b hpre _ hrun
  obtain ⟨rfl, rfl, hab⟩ := Result.mk.inj (run_query (ε := ε) q db n ▸ hrun)
  obtain rfl : q db = b := Except.ok.inj hab
  exact h db hpre

theorem write {f : σ → Except ε (σ × ℕ)} {post : ℕ → σ → Prop}
    (h : ∀ db db' count, pre db → f db = .ok (db', count) → post count db') :
    Triple S pre (Program.write f) post := by
  intro db n db' n' b hpre _ hrun
  rw [run_write] at hrun
  rcases hf : f db with e | ⟨db'', count⟩
  · simp [hf] at hrun
  · rw [hf] at hrun
    obtain ⟨rfl, rfl, hcount⟩ := Result.mk.inj hrun
    obtain rfl : count = b := Except.ok.inj hcount
    exact h db db'' count hpre hf

theorem bind {g : α → Program σ ε β} {post' : β → σ → Prop} (hp : Triple S pre p post)
    (hg : ∀ a, Triple S (post a) (g a) post') : Triple S pre (p >>= g) post' := by
  intro db n db' n' b hpre hS hrun
  rw [run_bind] at hrun
  rcases hfirst : p.run db n with ⟨db₁, n₁, e | a⟩
  · simp [hfirst] at hrun
  · rw [hfirst] at hrun
    have hn₁ : n ≤ n₁ := by simpa [hfirst] using le_counter_run p db n
    have hn' : n₁ ≤ n' := by simpa [hrun] using le_counter_run (g a) db₁ n₁
    refine hg a db₁ n₁ db' n' b ?_ (fun m hlt hle => hS m (hn₁.trans_lt hlt) hle) hrun
    exact hp db n db₁ n₁ a hpre (fun m hlt hle => hS m hlt (hle.trans hn')) hfirst

/-- What follows a drawn number may use that it is in `S`. -/
theorem seq_bind {g : ℕ → Program σ ε α} (h : ∀ n, S n → Triple S pre (g n) post) :
    Triple S pre (Program.seq >>= g) post := by
  intro db n db' n' b hpre hS hrun
  rw [run_bind_ok (run_seq db n)] at hrun
  have hn' : n + 1 ≤ n' := by simpa [hrun] using le_counter_run (g (n + 1)) db (n + 1)
  refine h (n + 1) (hS _ n.lt_succ_self hn') db (n + 1) db' n' b hpre ?_ hrun
  exact fun m hlt hle => hS m (n.lt_succ_self.trans hlt) hle

/-- A loop keeps an invariant of its turns. -/
theorem each {f : β → Program σ ε α} {l : List β} (h : ∀ b ∈ l, Triple S pre (f b) fun _ => pre) :
    Triple S pre (Program.each f l) fun _ => pre := by
  induction l with
  | nil => exact Triple.pure [] fun _ h => h
  | cons b l ih =>
      refine (h b (by simp)).bind fun a => ?_
      exact (ih fun b' hb' => h b' (by simp [hb'])).bind fun as =>
        Triple.pure (a :: as) fun _ h => h

end Triple

/-! ## What every statement of a program does -/

/-- Every write that a program can execute, whatever it reads, satisfies `P`. -/
def Writes (P : (σ → Except ε (σ × ℕ)) → Prop) : Program σ ε α → Prop
  | pure _ => True
  | raise _ => True
  | select k => ∀ db, (k db).Writes P
  | execute f handler k => P f ∧ (∀ e, (handler e).Writes P) ∧ ∀ n, (k n).Writes P
  | nextSeq k => ∀ n, (k n).Writes P

variable {P : (σ → Except ε (σ × ℕ)) → Prop}

@[simp] theorem writes_pure (a : α) : (Pure.pure a : Program σ ε α).Writes P := trivial

@[simp] theorem writes_raise (e : ε) : (raise e : Program σ ε α).Writes P := trivial

@[simp] theorem writes_query (q : σ → α) : (query q : Program σ ε α).Writes P :=
  fun _ => trivial

@[simp] theorem writes_seq : (seq : Program σ ε ℕ).Writes P := fun _ => trivial

@[simp] theorem writes_write {f : σ → Except ε (σ × ℕ)} : (write f).Writes P ↔ P f :=
  ⟨fun h => h.1, fun h => ⟨h, fun _ => trivial, fun _ => trivial⟩⟩

@[simp] theorem writes_attempt {f : σ → Except ε (σ × ℕ)} : (attempt f).Writes P ↔ P f :=
  ⟨fun h => h.1, fun h => ⟨h, fun _ => trivial, fun _ => trivial⟩⟩

theorem writes_bind {p : Program σ ε α} {g : α → Program σ ε β} (hp : p.Writes P)
    (hg : ∀ a, (g a).Writes P) : (p >>= g).Writes P := by
  change (p.bind g).Writes P
  induction p with
  | pure a => exact hg a
  | raise e => trivial
  | select k ih => exact fun db => ih db (hp db)
  | execute f handler k ihHandler ih =>
      exact ⟨hp.1, fun e => ihHandler e (hp.2.1 e), fun n => ih n (hp.2.2 n)⟩
  | nextSeq k ih => exact fun n => ih n (hp n)

theorem writes_each {f : β → Program σ ε α} {l : List β} (h : ∀ b ∈ l, (f b).Writes P) :
    (each f l).Writes P := by
  induction l with
  | nil => trivial
  | cons b l ih =>
      refine writes_bind (h b (by simp)) fun a => ?_
      exact writes_bind (ih fun b' hb' => h b' (by simp [hb'])) fun as => writes_pure (a :: as)

/-- A program whose writes all relate their database to what they leave relates
its database to what it leaves. -/
theorem run_rel {R : σ → σ → Prop} (hrefl : ∀ db, R db db)
    (htrans : ∀ db db' db'', R db db' → R db' db'' → R db db'') {p : Program σ ε α}
    (hp : p.Writes fun f => ∀ db db' count, f db = .ok (db', count) → R db db') (db : σ) (n : ℕ) :
    R db (p.run db n).db := by
  induction p generalizing db n with
  | pure a => exact hrefl db
  | raise e => exact hrefl db
  | select k ih => exact ih db (hp db) db n
  | execute f handler k ihHandler ih =>
      simp only [run]
      rcases hf : f db with e | ⟨db', count⟩
      · exact ihHandler e (hp.2.1 e) db n
      · exact htrans db db' _ (hp.1 db db' count hf) (ih count (hp.2.2 count) db' n)
  | nextSeq k ih => exact ih (n + 1) (hp (n + 1)) db (n + 1)

theorem writes_mono {P' : (σ → Except ε (σ × ℕ)) → Prop} (h : ∀ f, P f → P' f)
    {p : Program σ ε α} (hp : p.Writes P) : p.Writes P' := by
  induction p with
  | pure a => trivial
  | raise e => trivial
  | select k ih => exact fun db => ih db (hp db)
  | execute f handler k ihHandler ih =>
      exact ⟨h f hp.1, fun e => ihHandler e (hp.2.1 e), fun n => ih n (hp.2.2 n)⟩
  | nextSeq k ih => exact fun n => ih n (hp n)

/-- No write of the program changes this part of the database. -/
def Keeps {γ : Type} (part : σ → γ) (p : Program σ ε α) : Prop :=
  p.Writes fun f => ∀ db db' count, f db = .ok (db', count) → part db' = part db

theorem Keeps.mono {γ γ' : Type} {part : σ → γ} {part' : σ → γ'} {p : Program σ ε α}
    (hp : p.Keeps part) (h : ∀ db db', part db' = part db → part' db' = part' db) :
    p.Keeps part' :=
  writes_mono (fun _ hf db db' count hok => h db db' (hf db db' count hok)) hp

theorem Keeps.run {γ : Type} {part : σ → γ} {p : Program σ ε α} (hp : p.Keeps part) (db : σ)
    (n : ℕ) : part (p.run db n).db = part db :=
  run_rel (R := fun db db' => part db' = part db) (fun _ => rfl) (fun _ _ _ h h' => h'.trans h)
    hp db n

/-- What a program keeps is unchanged by its runs, returning or not. -/
theorem Keeps.runAtomic {γ : Type} {part : σ → γ} {p : Program σ ε α} (hp : p.Keeps part) (db : σ)
    (n : ℕ) : part (p.runAtomic db n).db = part db := by
  have hrun := hp.run db n
  rw [Program.runAtomic]
  rcases h : p.run db n with ⟨db', n', e | a⟩
  · rfl
  · rwa [h] at hrun

/-- A condition on what a program keeps. -/
theorem Triple.of_keeps {γ : Type} {part : σ → γ} {p : Program σ ε α} (hp : p.Keeps part)
    {S : ℕ → Prop} {P : γ → Prop} :
    Triple S (fun db => P (part db)) p fun _ db => P (part db) := by
  intro db n db' n' a hP _ hrun
  have hsame : part db' = part db := by simpa [hrun] using hp.run db n
  exact hsame ▸ hP

/-! ## Programs that return -/

/-- The program returns from every database. -/
def Returns (p : Program σ ε α) : Prop := ∀ db n, ∃ db' n' a, p.run db n = ⟨db', n', .ok a⟩

namespace Returns

theorem pure (a : α) : Returns (Pure.pure a : Program σ ε α) := fun db n => ⟨db, n, a, rfl⟩

theorem seq : Returns (Program.seq : Program σ ε ℕ) := fun db n => ⟨db, n + 1, n + 1, rfl⟩

theorem bind {p : Program σ ε α} {g : α → Program σ ε β} (hp : Returns p)
    (hg : ∀ a, Returns (g a)) : Returns (p >>= g) := by
  intro db n
  obtain ⟨db', n', a, hrun⟩ := hp db n
  rw [run_bind_ok hrun]
  exact hg a db' n'

theorem each {f : β → Program σ ε α} (h : ∀ b, Returns (f b)) (l : List β) :
    Returns (Program.each f l) := by
  induction l with
  | nil => exact Returns.pure []
  | cons b l ih => exact (h b).bind fun a => ih.bind fun as => Returns.pure (a :: as)

end Returns

/-! ## Programs that raise or run alike -/

/-- From `db`, the first program raises or does what the second one does. -/
def RaisesOrRuns (p q : Program σ ε α) (db : σ) (n : ℕ) : Prop :=
  (∃ e, (p.run db n).value = .error e) ∨ p.run db n = q.run db n

namespace RaisesOrRuns

variable {p q : Program σ ε α} {db : σ} {n : ℕ}

theorem refl (p : Program σ ε α) (db : σ) (n : ℕ) : RaisesOrRuns p p db n := Or.inr rfl

theorem raise (e : ε) : RaisesOrRuns (Program.raise e) q db n := Or.inl ⟨e, rfl⟩

theorem bind {f g : α → Program σ ε β} (h : RaisesOrRuns p q db n)
    (hrest : ∀ db' n' a, q.run db n = ⟨db', n', .ok a⟩ → RaisesOrRuns (f a) (g a) db' n') :
    RaisesOrRuns (p >>= f) (q >>= g) db n := by
  rcases h with ⟨e, hraised⟩ | hsame
  · refine Or.inl ⟨e, ?_⟩
    rw [run_bind]
    rcases hp : p.run db n with ⟨db', n', e' | a⟩
    · rw [hp] at hraised
      rw [Except.error.inj hraised]
    · rw [hp] at hraised
      cases hraised
  · rcases hq : q.run db n with ⟨db', n', e | a⟩
    · refine Or.inr ?_
      rw [run_bind, run_bind, hsame, hq]
    · rcases hrest db' n' a hq with ⟨e, hraised⟩ | hrest
      · exact Or.inl ⟨e, by rw [run_bind_ok (hsame.trans hq), hraised]⟩
      · exact Or.inr (by rw [run_bind_ok (hsame.trans hq), run_bind_ok hq, hrest])

theorem each {f g : β → Program σ ε α} {l : List β}
    (h : ∀ b ∈ l, ∀ db n, RaisesOrRuns (f b) (g b) db n) (db : σ) (n : ℕ) :
    RaisesOrRuns (Program.each f l) (Program.each g l) db n := by
  induction l generalizing db n with
  | nil => exact refl _ db n
  | cons b l ih =>
      refine (h b (by simp) db n).bind fun db' n' a _ => ?_
      exact (ih (fun b' hb' => h b' (by simp [hb'])) db' n').bind fun db'' n'' as _ => refl _ _ _

/-- Inside a savepoint, nothing is left or all of it. -/
theorem runAtomic (h : RaisesOrRuns p q db n) :
    (∃ e, (p.runAtomic db n).value = .error e ∧ (p.runAtomic db n).db = db) ∨
      p.runAtomic db n = q.runAtomic db n := by
  rcases h with ⟨e, hraised⟩ | hsame
  · refine Or.inl ⟨e, ?_⟩
    rw [Program.runAtomic]
    rcases hp : p.run db n with ⟨db', n', e' | a⟩
    · rw [hp] at hraised
      exact ⟨hraised, rfl⟩
    · rw [hp] at hraised
      cases hraised
  · exact Or.inr (by rw [Program.runAtomic, Program.runAtomic, hsame])

end RaisesOrRuns

end Program

end RerollSync.Support
