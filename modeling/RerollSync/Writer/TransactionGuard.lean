import RerollSync.Support.Machine
import RerollSync.Support.PyString

/-!
# The guarded connection

An op gets the writer's connection behind a guard, which refuses the statements that
begin or end a transaction.  The guard reads a prefix of the text, sqlite its first
token: they agree on a text that has only whitespace before its keyword, and the cursors
that `execute` hands out have no guard at all.
-/

namespace RerollSync.Writer

open RerollSync.Support

/-! ## What sqlite reads -/

/-- A character that begins a run of whitespace. -/
def beginsSpace (c : Char) : Bool := c ∈ ['\t', '\n', '\x0c', '\r', ' ']

/-- A character of a run of whitespace; a vertical tab does not begin one. -/
def continuesSpace (c : Char) : Bool := c ∈ ['\t', '\n', '\x0b', '\x0c', '\r', ' ']

/-- Where the tokenizer stands: before a token, inside of whitespace, or in a comment. -/
inductive LexerState
  | token
  | space
  | line
  | block
deriving DecidableEq

/-- What is left behind the whitespace, the comments and the empty statements.  An open
comment ends with the text, and `/*` at the very end is none. -/
def skipTrivia : LexerState → List Char → List Char
  | _, [] => []
  | .line, c :: cs => if c = '\n' then skipTrivia .space cs else skipTrivia .line cs
  | .block, '*' :: '/' :: cs => skipTrivia .token cs
  | .block, _ :: cs => skipTrivia .block cs
  | _, '-' :: '-' :: cs => skipTrivia .line cs
  | _, '/' :: '*' :: c :: cs => skipTrivia .block (c :: cs)
  | s, c :: cs =>
      if beginsSpace c ∨ s = .space ∧ continuesSpace c then skipTrivia .space cs
      else if c = ';' ∨ c = byteOrderMark then skipTrivia .token cs
      else c :: cs

/-- A character of an identifier. -/
def isIdChar (c : Char) : Bool := c.isAlphanum || c ∈ ['_', '$'] || 128 ≤ c.toNat

/-- The first identifier, in upper case. -/
def firstKeyword (sql : String) : List Char :=
  ((skipTrivia .token sql.toList).takeWhile isIdChar).map Char.toUpper

/-- The keywords that a statement starts with. -/
def statementKeywords : List String :=
  ["ALTER", "ANALYZE", "ATTACH", "BEGIN", "COMMIT", "CREATE", "DELETE", "DETACH", "DROP", "END",
   "EXPLAIN", "INSERT", "PRAGMA", "REINDEX", "RELEASE", "REPLACE", "ROLLBACK", "SAVEPOINT",
   "SELECT", "UPDATE", "VACUUM", "VALUES", "WITH"]

/-- The statements that sqlite executes: `executes sql` is the keyword of the one that it
makes of a text, `none` when there is an error.  The first token decides. -/
structure Sqlite where
  executes : String → Option String
  keyword : ∀ sql kind, executes sql = some kind →
    kind ∈ statementKeywords ∧ firstKeyword sql = kind.toList

/-! ## The guard -/

/-- `_BLOCKED_SQL_PREFIXES`. -/
def blockedSqlPrefixes : List String :=
  ["BEGIN", "COMMIT", "END", "ROLLBACK", "SAVEPOINT", "RELEASE"]

/-- `TransactionBoundaryViolation`, with what its message names. -/
inductive TransactionBoundaryViolation
  | managesBoundaries (opName sql : String)
  | callsCommit (opName : String)
  | callsRollback (opName : String)
  | callsExecutescript (opName : String)
deriving DecidableEq

/-- `sql.strip().upper().startswith(_BLOCKED_SQL_PREFIXES)`. -/
def startsBlocked (u : UpperCase) (sql : String) : Bool :=
  blockedSqlPrefixes.any fun p => p.toList.isPrefixOf ((strip sql.toList).flatMap u.upper)

/-- `_check_transaction_control_sql`. -/
def checkTransactionControlSql (u : UpperCase) (sql opName : String) :
    Except TransactionBoundaryViolation Unit :=
  if startsBlocked u sql then .error (.managesBoundaries opName sql) else .ok ()

/-- What an op holds: the connection and cursors that the guard wraps, and cursors of
sqlite. -/
inductive Handle
  | guardedConnection
  | guardedCursor
  | cursor
deriving DecidableEq

/-- The methods that take SQL. -/
inductive Method
  | execute
  | executemany
  | executescript
deriving DecidableEq

/-- A call of a method with a text, which returns a cursor when sqlite gets the text. -/
def Handle.issue (u : UpperCase) (opName : String) (h : Handle) (m : Method) (sql : String) :
    Except TransactionBoundaryViolation Handle :=
  match h, m with
  | .guardedConnection, .executescript | .guardedCursor, .executescript =>
      .error (.callsExecutescript opName)
  | .guardedConnection, _ | .guardedCursor, _ => do
      checkTransactionControlSql u sql opName
      return .cursor
  | .cursor, _ => .ok .cursor

/-- The wrapped ones. -/
def Handle.IsGuarded (h : Handle) : Prop := h ≠ .cursor

instance (h : Handle) : Decidable h.IsGuarded := inferInstanceAs (Decidable (_ ≠ _))

/-- The guard stops a text that begins or ends a transaction, and refuses no other text
for what it says.  (`executescript` is refused for a commit of its own.) -/
structure Handle.Guards (u : UpperCase) (opName : String) (h : Handle) (m : Method)
    (sql kind : String) : Prop where
  stops : kind ∈ blockedSqlPrefixes → ∃ v, h.issue u opName m sql = .error v
  passes : kind ∉ blockedSqlPrefixes →
    h.issue u opName m sql ≠ .error (.managesBoundaries opName sql)

/-- Nothing but whitespace stands before the first token. -/
def Bare (sql : String) : Prop :=
  skipTrivia .token sql.toList = sql.toList.dropWhile continuesSpace

instance (sql : String) : Decidable (Bare sql) := inferInstanceAs (Decidable (_ = _))

/-! ## Both readings -/

/-- A keyword in any case, with the characters that follow. -/
structure Reads (kind : List Char) (cs : List Char) : Prop where
  ne_nil : kind ≠ []
  upper : (cs.takeWhile isIdChar).map Char.toUpper = kind
  letters : ∀ c ∈ kind, c.isUpper = true

/-- The characters that begin what is skipped besides whitespace. -/
def beginsTrivia (c : Char) : Bool := c ∈ ['-', '/', ';', byteOrderMark]

theorem skipTrivia_cons {s : LexerState} (hs : s = .token ∨ s = .space) {c : Char}
    (hc : beginsTrivia c = false) (cs : List Char) :
    skipTrivia s (c :: cs) =
      if beginsSpace c ∨ s = .space ∧ continuesSpace c then skipTrivia .space cs else c :: cs := by
  simp only [beginsTrivia, List.mem_cons, List.not_mem_nil, or_false, decide_eq_false_iff_not,
    not_or] at hc
  obtain ⟨hminus, hslash, hsemi, hbom⟩ := hc
  rcases hs with rfl | rfl
  · rw [skipTrivia.eq_def]
    split
    all_goals simp_all
  · rw [skipTrivia.eq_def]
    split
    all_goals simp_all

/-- Before a keyword stands only whitespace, or something else that is skipped. -/
theorem skipTrivia_eq_or {kind : List Char} {s : LexerState} (hs : s = .token ∨ s = .space)
    {cs : List Char} (hreads : Reads kind (skipTrivia s cs)) :
    skipTrivia s cs = cs.dropWhile continuesSpace ∨
      ∃ c tail, cs.dropWhile continuesSpace = c :: tail ∧ beginsTrivia c = true := by
  induction cs generalizing s with
  | nil => exact .inl (by simp [skipTrivia])
  | cons c cs ih =>
      by_cases hc : beginsTrivia c = true
      · have hspace : ¬continuesSpace c = true := by
          simp only [beginsTrivia, List.mem_cons, List.not_mem_nil, or_false,
            decide_eq_true_eq] at hc
          rcases hc with rfl | rfl | rfl | rfl <;> decide
        exact .inr ⟨c, cs, List.dropWhile_cons_of_neg hspace, hc⟩
      rw [skipTrivia_cons hs (by simpa using hc)] at hreads ⊢
      by_cases hskip : beginsSpace c ∨ s = .space ∧ continuesSpace c
      · have hspace : continuesSpace c = true := by
          rcases hskip with hbegins | ⟨-, hcontinues⟩
          · simp only [beginsSpace, continuesSpace, List.mem_cons, decide_eq_true_eq] at hbegins ⊢
            tauto
          · exact hcontinues
        rw [if_pos hskip] at hreads ⊢
        rw [List.dropWhile_cons_of_pos hspace]
        exact ih (.inr rfl) hreads
      · rw [if_neg hskip] at hreads ⊢
        refine .inl (List.dropWhile_cons_of_neg fun hspace => hreads.ne_nil ?_).symm
        -- a vertical tab before a token is no identifier
        have hid : ¬isIdChar c = true := by
          simp only [continuesSpace, List.mem_cons, List.not_mem_nil, or_false,
            decide_eq_true_eq] at hspace
          rcases hspace with rfl | rfl | rfl | rfl | rfl | rfl <;> decide
        rw [← hreads.upper, List.takeWhile_cons_of_neg hid, List.map_nil]

/-- `strip` keeps a run of characters that are no whitespace, behind what sqlite skips. -/
theorem exists_strip_eq {cs w rest : List Char} (h : cs.dropWhile continuesSpace = w ++ rest)
    (hne : w ≠ []) (hw : ∀ c ∈ w, isSpace c = false) : ∃ tail, strip cs = w ++ tail := by
  have hspace : ∀ c, continuesSpace c = true → isSpace c = true := by
    intro c hc
    simp only [continuesSpace, List.mem_cons, List.not_mem_nil, or_false, decide_eq_true_eq] at hc
    rcases hc with rfl | rfl | rfl | rfl | rfl | rfl <;> decide
  have hleft : cs.dropWhile isSpace = w ++ rest := by
    obtain ⟨c, w', rfl⟩ := List.exists_cons_of_ne_nil hne
    have hc : ¬isSpace c = true := by simp [hw c (by simp)]
    induction cs with
    | nil => simp at h
    | cons d cs ih =>
        by_cases hd : continuesSpace d = true
        · rw [List.dropWhile_cons_of_pos hd] at h
          rw [List.dropWhile_cons_of_pos (hspace d hd)]
          exact ih h
        · rw [List.dropWhile_cons_of_neg hd, List.cons_append, List.cons.injEq] at h
          rw [h.1, h.2, List.dropWhile_cons_of_neg hc, List.cons_append]
  refine ⟨rest.rdropWhile isSpace, ?_⟩
  rw [strip, hleft, List.rdropWhile, List.reverse_append, List.dropWhile_append]
  have hkept : w.reverse.dropWhile isSpace = w.reverse := by
    rw [List.dropWhile_eq_self_iff]
    intro hl
    rw [hw _ (List.mem_reverse.mp (List.getElem_mem hl))]
    decide
  by_cases hnil : (rest.reverse.dropWhile isSpace).isEmpty = true
  · rw [if_pos hnil, hkept, List.rdropWhile, List.isEmpty_iff.mp hnil, List.reverse_reverse,
      List.reverse_nil, List.append_nil]
  · rw [if_neg hnil, List.reverse_append, List.reverse_reverse, List.rdropWhile]

/-- The characters of a keyword. -/
theorem toNat_of_isUpper_toUpper {c : Char} (h : c.toUpper.isUpper = true) :
    65 ≤ c.toNat ∧ c.toNat ≤ 122 := by
  have hisUpper : ∀ d : Char, d.isUpper = decide (d.val ≥ 'A'.val ∧ d.val ≤ 'Z'.val) := fun _ => rfl
  by_cases hlower : c.val ≥ 'a'.val ∧ c.val ≤ 'z'.val
  · exact ⟨le_trans (by decide) (UInt32.le_iff_toNat_le.mp hlower.1),
      UInt32.le_iff_toNat_le.mp hlower.2⟩
  · have hsame : c.toUpper = c := dif_neg hlower
    rw [hsame, hisUpper, decide_eq_true_eq] at h
    exact ⟨UInt32.le_iff_toNat_le.mp h.1, le_trans (UInt32.le_iff_toNat_le.mp h.2) (by decide)⟩

/-- The guard reads the keyword that sqlite reads. -/
theorem exists_upper_eq_of_reads (u : UpperCase) {kind cs : List Char}
    (h : Reads kind (cs.dropWhile continuesSpace)) :
    ∃ tail, (strip cs).flatMap u.upper = kind ++ tail := by
  obtain ⟨w, hword⟩ : ∃ w, (cs.dropWhile continuesSpace).takeWhile isIdChar = w := ⟨_, rfl⟩
  have hkind : w.map Char.toUpper = kind := hword ▸ h.upper
  have hletter : ∀ c ∈ w, 65 ≤ c.toNat ∧ c.toNat ≤ 122 := fun c hc =>
    toNat_of_isUpper_toUpper (h.letters _ (hkind ▸ List.mem_map_of_mem hc))
  have hspace : ∀ c ∈ w, isSpace c = false := by
    intro c hc
    have := hletter c hc
    simp only [isSpace, List.mem_cons, List.not_mem_nil, or_false, Bool.or_eq_false_iff,
      Bool.and_eq_false_iff, decide_eq_false_iff_not]
    omega
  have hupper : w.flatMap u.upper = kind := by
    rw [← hkind, List.map_eq_flatMap]
    refine List.flatMap_congr fun c hc => u.ascii c ?_
    have := hletter c hc
    omega
  have hne : w ≠ [] := by
    rintro rfl
    exact h.ne_nil hkind.symm
  have hsplit : cs.dropWhile continuesSpace =
      w ++ (cs.dropWhile continuesSpace).dropWhile isIdChar := by
    rw [← hword, List.takeWhile_append_dropWhile]
  obtain ⟨tail, htail⟩ := exists_strip_eq hsplit hne hspace
  exact ⟨tail.flatMap u.upper, by rw [htail, List.flatMap_append, hupper]⟩

/-- The guard reads the first character of a comment, of an empty statement or of a byte
order mark. -/
theorem exists_upper_eq_of_beginsTrivia (u : UpperCase) {cs tail : List Char} {c : Char}
    (h : cs.dropWhile continuesSpace = c :: tail) (hc : beginsTrivia c = true) :
    ∃ tail', (strip cs).flatMap u.upper = c :: tail' := by
  simp only [beginsTrivia, List.mem_cons, List.not_mem_nil, or_false, decide_eq_true_eq] at hc
  have hspace : isSpace c = false := by
    rcases hc with rfl | rfl | rfl | rfl <;> decide
  have hupper : u.upper c = [c] := by
    rcases hc with rfl | rfl | rfl | rfl
    · exact u.ascii _ (by decide)
    · exact u.ascii _ (by decide)
    · exact u.ascii _ (by decide)
    · exact u.mark
  obtain ⟨tail', htail⟩ := exists_strip_eq (w := [c]) h (by simp) (by simpa using hspace)
  exact ⟨tail'.flatMap u.upper, by rw [htail, List.flatMap_append]; simp [hupper]⟩

theorem not_reads_of_beginsTrivia {kind tail : List Char} {c : Char} (hc : beginsTrivia c = true) :
    ¬Reads kind (c :: tail) := by
  intro h
  by_cases hid : isIdChar c = true
  · have hupper := h.upper
    rw [List.takeWhile_cons_of_pos hid, List.map_cons] at hupper
    have hletter := toNat_of_isUpper_toUpper (h.letters _ (hupper ▸ List.mem_cons_self))
    simp only [beginsTrivia, List.mem_cons, List.not_mem_nil, or_false, decide_eq_true_eq] at hc
    rcases hc with rfl | rfl | rfl | rfl
    all_goals revert hletter; decide
  · exact h.ne_nil (by rw [← h.upper, List.takeWhile_cons_of_neg hid, List.map_nil])

/-! ## What the guard refuses -/

theorem isUpper_of_mem_statementKeywords :
    ∀ kind ∈ statementKeywords, kind.toList ≠ [] ∧ ∀ c ∈ kind.toList, c.isUpper = true := by
  have hall : ∀ kind ∈ statementKeywords, kind.toList ≠ [] ∧ kind.toList.all Char.isUpper := by
    decide
  exact fun kind hkind => ⟨(hall kind hkind).1, List.all_eq_true.mp (hall kind hkind).2⟩

/-- No keyword is the beginning of a blocked one or begins with it. -/
theorem eq_of_prefix : ∀ kind ∈ statementKeywords, ∀ p ∈ blockedSqlPrefixes,
    p.toList <+: kind.toList ∨ kind.toList <+: p.toList → kind = p := by
  decide

theorem ne_cons_of_mem_blockedSqlPrefixes :
    ∀ p ∈ blockedSqlPrefixes, p.toList ≠ [] ∧ ∀ c ∈ p.toList, beginsTrivia c = false := by
  have hall : ∀ p ∈ blockedSqlPrefixes, p.toList ≠ [] ∧ p.toList.all (!beginsTrivia ·) := by
    decide
  intro p hp
  refine ⟨(hall p hp).1, fun c hc => ?_⟩
  simpa using List.all_eq_true.mp (hall p hp).2 c hc

/-- The check stops a statement exactly when its keyword is blocked and the first thing in
the text. -/
theorem startsBlocked_iff (sqlite : Sqlite) (u : UpperCase) {sql kind : String}
    (hexecutes : sqlite.executes sql = some kind) :
    startsBlocked u sql = true ↔ kind ∈ blockedSqlPrefixes ∧ Bare sql := by
  obtain ⟨hkind, hkeyword⟩ := sqlite.keyword sql kind hexecutes
  obtain ⟨hne, hletters⟩ := isUpper_of_mem_statementKeywords kind hkind
  have hreads : Reads kind.toList (skipTrivia .token sql.toList) := ⟨hne, hkeyword, hletters⟩
  rw [startsBlocked, List.any_eq_true]
  rcases skipTrivia_eq_or (.inl rfl) hreads with hbare | ⟨c, tail, htail, hc⟩
  · obtain ⟨tail, htail⟩ := exists_upper_eq_of_reads u (hbare ▸ hreads)
    simp only [htail, List.isPrefixOf_iff_prefix]
    constructor
    · rintro ⟨p, hp, hstart⟩
      have hor := List.prefix_or_prefix_of_prefix hstart (List.prefix_append _ _)
      have heq := eq_of_prefix kind hkind p hp hor
      exact ⟨heq ▸ hp, hbare⟩
    · rintro ⟨hblocked, -⟩
      exact ⟨kind, hblocked, List.prefix_append _ _⟩
  · obtain ⟨tail', htail'⟩ := exists_upper_eq_of_beginsTrivia u htail hc
    simp only [htail', List.isPrefixOf_iff_prefix]
    constructor
    · rintro ⟨p, hp, hstart⟩
      obtain ⟨hpne, hchars⟩ := ne_cons_of_mem_blockedSqlPrefixes p hp
      obtain ⟨d, p', hcons⟩ := List.exists_cons_of_ne_nil hpne
      rw [hcons, List.cons_prefix_cons] at hstart
      have hd := hchars d (by simp [hcons])
      rw [hstart.1, hc] at hd
      cases hd
    · rintro ⟨-, hbare⟩
      rw [Bare] at hbare
      rw [hbare, htail] at hreads
      exact absurd hreads (not_reads_of_beginsTrivia hc)

/-- A text that is to begin or end a transaction is stopped exactly when it goes to the guard
with its keyword first. -/
theorem Handle.issue_error_iff (sqlite : Sqlite) (u : UpperCase) (opName : String) (h : Handle)
    (m : Method) {sql kind : String} (hexecutes : sqlite.executes sql = some kind)
    (hkind : kind ∈ blockedSqlPrefixes) :
    (∃ v, h.issue u opName m sql = .error v) ↔ h.IsGuarded ∧ (m = .executescript ∨ Bare sql) := by
  have hstarts := startsBlocked_iff sqlite u hexecutes
  by_cases hbare : Bare sql
  · have hblocked := hstarts.mpr ⟨hkind, hbare⟩
    cases h <;> cases m <;>
      simp [Handle.issue, checkTransactionControlSql, hblocked, Handle.IsGuarded, hbare]
  · have hblocked : ¬startsBlocked u sql = true := fun hb => hbare (hstarts.mp hb).2
    cases h <;> cases m <;>
      simp [Handle.issue, checkTransactionControlSql, hblocked, Handle.IsGuarded, hbare]

/-- A call with a text that sqlite executes as a statement of some kind: the guard does
its work unless the text is to begin or end a transaction, and the cursor is one of
sqlite's own or the keyword is not the first thing in the text. -/
theorem guards_iff (sqlite : Sqlite) (u : UpperCase) (opName : String) (h : Handle) (m : Method)
    {sql kind : String} (hexecutes : sqlite.executes sql = some kind) :
    h.Guards u opName m sql kind ↔
      (kind ∈ blockedSqlPrefixes → h.IsGuarded ∧ (m = .executescript ∨ Bare sql)) := by
  by_cases hkind : kind ∈ blockedSqlPrefixes
  · have hguards : h.Guards u opName m sql kind ↔ ∃ v, h.issue u opName m sql = .error v :=
      ⟨fun hg => hg.stops hkind, fun hv => ⟨fun _ => hv, fun hn => absurd hkind hn⟩⟩
    rw [hguards, Handle.issue_error_iff sqlite u opName h m hexecutes hkind,
      forall_prop_of_true hkind]
  · refine iff_of_true ⟨fun hk => absurd hk hkind, fun _ => ?_⟩ fun hk => absurd hk hkind
    have hblocked : ¬startsBlocked u sql = true := fun hb =>
      hkind ((startsBlocked_iff sqlite u hexecutes).mp hb).1
    cases h <;> cases m <;> simp [Handle.issue, checkTransactionControlSql, hblocked]

/-- A reading of texts by their first token alone. -/
def Sqlite.lexical : Sqlite where
  executes sql := statementKeywords.find? fun kind => firstKeyword sql = kind.toList
  keyword sql kind h :=
    ⟨List.mem_of_find?_eq_some h, by simpa using List.find?_some h⟩

/-- A plain `COMMIT` is stopped. -/
theorem guards_commit :
    Handle.guardedConnection.Guards .ascii7 "op" .execute " commit" "COMMIT" :=
  (guards_iff .lexical .ascii7 "op" .guardedConnection .execute (by decide)).mpr
    fun _ => ⟨by decide, .inr (by decide)⟩

/-- A `COMMIT` behind a comment is not, and neither is one that a cursor of `execute`
gets. -/
theorem not_guards_comment :
    Sqlite.lexical.executes "/* x */ COMMIT" = some "COMMIT" ∧
      ¬Handle.guardedConnection.Guards .ascii7 "op" .execute "/* x */ COMMIT" "COMMIT" ∧
      Handle.guardedConnection.issue .ascii7 "op" .execute "SELECT 1" = .ok .cursor ∧
      ¬Handle.cursor.Guards .ascii7 "op" .execute "COMMIT" "COMMIT" := by
  refine ⟨by decide, fun h => ?_, by rfl, fun h => ?_⟩
  · obtain ⟨v, hv⟩ := h.stops (by decide)
    have hstarts : startsBlocked .ascii7 "/* x */ COMMIT" = false := by decide
    simp [Handle.issue, checkTransactionControlSql, hstarts] at hv
  · obtain ⟨v, hv⟩ := h.stops (by decide)
    cases hv

/-! ## An op -/

/-- What an op does with the guarded connection: take a cursor, try to end the transaction,
or give a text to one of the handles it holds. -/
inductive Call
  | cursor
  | commit
  | rollback
  | issue (i : ℕ) (m : Method) (sql : String)

/-- What an op holds, and what sqlite got from it. -/
structure OpSession where
  handles : List Handle
  seen : List (Method × String)

/-- One call; when the guard raises, nothing changes and the op may go on. -/
def OpSession.machine (u : UpperCase) (opName : String) : Machine OpSession Call where
  step s c :=
    match c with
    | .cursor => some { s with handles := s.handles ++ [.guardedCursor] }
    | .commit | .rollback => some s
    | .issue i m sql => s.handles[i]?.map fun h =>
        match h.issue u opName m sql with
        | .error _ => s
        | .ok h' => ⟨s.handles ++ [h'], s.seen ++ [(m, sql)]⟩

/-- The start of `WriteOp.apply`. -/
def OpSession.start : OpSession := ⟨[.guardedConnection], []⟩

/-- A text that leaves the transaction alone; `executescript` commits before it runs. -/
def KeepsTransaction (sqlite : Sqlite) (m : Method) (sql : String) : Prop :=
  m ≠ .executescript ∧ ∀ kind, sqlite.executes sql = some kind → kind ∉ blockedSqlPrefixes

/-- What begins or ends a transaction goes to the guard, with its keyword first. -/
def OpSession.Careful (sqlite : Sqlite) (s : OpSession) : Call → Prop
  | .cursor | .commit | .rollback => True
  | .issue i m sql => ∀ h, s.handles[i]? = some h → KeepsTransaction sqlite m sql ∨
      h.IsGuarded ∧ (m = .executescript ∨ Bare sql)

variable {sqlite : Sqlite} {u : UpperCase} {opName : String}

/-- A handle passes on a text that ends the transaction unless it is guarded and the
keyword comes first. -/
theorem Handle.issue_ok_iff {h h' : Handle} {m : Method} {sql : String}
    (hissue : h.issue u opName m sql = .ok h') :
    KeepsTransaction sqlite m sql ∨ h.IsGuarded ∧ (m = .executescript ∨ Bare sql) ↔
      KeepsTransaction sqlite m sql := by
  refine or_iff_left_of_imp fun ⟨hguarded, hm⟩ => ?_
  have hscript : m ≠ .executescript := by
    rintro rfl
    cases h <;> first | exact absurd rfl hguarded | cases hissue
  refine ⟨hscript, fun kind hexecutes hkind => ?_⟩
  obtain ⟨v, hv⟩ :=
    (Handle.issue_error_iff sqlite u opName h m hexecutes hkind).mpr ⟨hguarded, hm⟩
  rw [hissue] at hv
  cases hv

/-- Only a guarded handle raises: at `executescript`, or at a text whose keyword, if it has
one, comes first. -/
theorem Handle.guarded_of_issue_error {h : Handle} {m : Method} {sql : String}
    {v : TransactionBoundaryViolation} (hissue : h.issue u opName m sql = .error v) :
    KeepsTransaction sqlite m sql ∨ h.IsGuarded ∧ (m = .executescript ∨ Bare sql) := by
  have hguarded : h.IsGuarded := by
    rintro rfl
    cases hissue
  by_cases hscript : m = .executescript
  · exact .inr ⟨hguarded, .inl hscript⟩
  have hblocked : startsBlocked u sql = true := by
    by_contra hb
    revert hissue
    cases h <;> cases m <;> simp_all [Handle.issue, checkTransactionControlSql]
  by_cases hbare : Bare sql
  · exact .inr ⟨hguarded, .inr hbare⟩
  · exact .inl ⟨hscript, fun kind hexecutes _ =>
      hbare ((startsBlocked_iff sqlite u hexecutes).mp hblocked).2⟩

/-- Nothing that sqlite got ends the transaction. -/
def OpSession.Kept (sqlite : Sqlite) (s : OpSession) : Prop :=
  ∀ call ∈ s.seen, KeepsTransaction sqlite call.1 call.2

theorem OpSession.kept_step_iff {s s' : OpSession} {c : Call}
    (hstep : (OpSession.machine u opName).step s c = some s') :
    s'.Kept sqlite ↔ s.Kept sqlite ∧ s.Careful sqlite c := by
  cases c with
  | cursor =>
      obtain rfl := Option.some.inj hstep
      exact (and_iff_left trivial).symm
  | commit =>
      obtain rfl := Option.some.inj hstep
      exact (and_iff_left trivial).symm
  | rollback =>
      obtain rfl := Option.some.inj hstep
      exact (and_iff_left trivial).symm
  | issue i m sql =>
      obtain ⟨h, hh, hissue⟩ := Option.map_eq_some_iff.mp hstep
      have hcareful : s.Careful sqlite (.issue i m sql) ↔ KeepsTransaction sqlite m sql ∨
          h.IsGuarded ∧ (m = .executescript ∨ Bare sql) := by
        rw [Careful, hh]
        exact ⟨fun hc => hc h rfl, fun hc _ heq => Option.some.inj heq ▸ hc⟩
      rw [hcareful]
      rcases hcall : h.issue u opName m sql with v | h'
      · rw [hcall] at hissue
        obtain rfl : s = s' := hissue
        exact (and_iff_left (Handle.guarded_of_issue_error hcall)).symm
      · rw [hcall] at hissue
        obtain rfl : ⟨s.handles ++ [h'], s.seen ++ [(m, sql)]⟩ = s' := hissue
        rw [Handle.issue_ok_iff hcall, Kept, Kept, List.forall_mem_append,
          List.forall_mem_singleton]

theorem OpSession.kept_run_iff {s s' : OpSession} {calls : List Call}
    (hrun : (OpSession.machine u opName).run s calls = some s') : s'.Kept sqlite ↔
      s.Kept sqlite ∧ (OpSession.machine u opName).Along (OpSession.Careful sqlite) s calls := by
  induction calls generalizing s with
  | nil =>
      obtain rfl : s = s' := by simpa using hrun
      exact (and_iff_left trivial).symm
  | cons c calls ih =>
      obtain ⟨m, hm, hrest⟩ := Machine.run_cons_eq_some.mp hrun
      rw [ih hrest, OpSession.kept_step_iff hm, Machine.along_cons hm, and_assoc]

/-- An op leaves the writer's transaction alone exactly when all its calls are careful. -/
theorem OpSession.kept_start_iff {s : OpSession} {calls : List Call}
    (hrun : (OpSession.machine u opName).run OpSession.start calls = some s) : s.Kept sqlite ↔
      (OpSession.machine u opName).Along (OpSession.Careful sqlite) OpSession.start calls := by
  have hnothing : OpSession.start.Kept sqlite := fun _ hcall => (List.not_mem_nil hcall).elim
  rw [OpSession.kept_run_iff hrun, and_iff_right hnothing]

end RerollSync.Writer
