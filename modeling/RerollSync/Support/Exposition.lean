import Mathlib.Data.List.TakeWhile
import Mathlib.Data.List.Nodup

/-!
# The text format of metrics

Lines that name the type of a metric and lines with a sample of it, what a reader makes of
them, and the lines in which every metric has its type named before its first sample.
-/

namespace RerollSync.Support.Exposition

/-! ## Lines -/

/-- The characters of the names of metrics and labels. -/
def isNameChar (c : Char) : Bool := c.isAlphanum || c == '_' || c == ':'

/-- The name of a metric or of a label. -/
structure Name where
  text : List Char
  ne_nil : text ≠ []
  chars : ∀ c ∈ text, isNameChar c = true
deriving DecidableEq

/-- The text of a value, which is a word. -/
structure Number where
  text : List Char
  ne_nil : text ≠ []
  chars : ∀ c ∈ text, c ≠ ' ' ∧ c ≠ '\n'
deriving DecidableEq

structure Label where
  name : Name
  value : List Char
deriving DecidableEq

structure Sample where
  name : Name
  labels : List Label
  value : Number
deriving DecidableEq

inductive MetricType
  | counter
  | gauge
deriving DecidableEq

inductive Line
  | type (name : Name) (type : MetricType)
  | sample (s : Sample)
deriving DecidableEq

/-! ## Writing -/

def MetricType.text : MetricType → List Char
  | .counter => "counter".toList
  | .gauge => "gauge".toList

/-- A character of a label's value. -/
def escapeChar : Char → List Char
  | '\\' => ['\\', '\\']
  | '"' => ['\\', '"']
  | '\n' => ['\\', 'n']
  | c => [c]

def escapeValue (value : List Char) : List Char := value.flatMap escapeChar

def Label.text (l : Label) : List Char :=
  l.name.text ++ '=' :: '"' :: (escapeValue l.value ++ ['"'])

def labelsText : List Label → List Char
  | [] => []
  | labels => '{' :: ([','].intercalate (labels.map Label.text) ++ ['}'])

/-- What a line that names a type starts with. -/
def typeMark : List Char := ['#', ' ', 'T', 'Y', 'P', 'E', ' ']

def Line.text : Line → List Char
  | .type name t => typeMark ++ (name.text ++ ' ' :: t.text)
  | .sample s => s.name.text ++ labelsText s.labels ++ ' ' :: s.value.text

def text (lines : List Line) : List Char := ['\n'].intercalate (lines.map Line.text) ++ ['\n']

/-! ## Reading -/

def readName (cs : List Char) : Option (Name × List Char) :=
  if h : cs.takeWhile isNameChar = [] then none
  else
    some (⟨cs.takeWhile isNameChar, h, fun _ hc => List.mem_takeWhile_imp hc⟩,
      cs.dropWhile isNameChar)

/-- A label's value, to its closing quote. -/
def readQuoted : List Char → Option (List Char × List Char)
  | [] => none
  | '"' :: cs => some ([], cs)
  | '\\' :: 'n' :: cs => (readQuoted cs).map fun r => ('\n' :: r.1, r.2)
  | '\\' :: '\\' :: cs => (readQuoted cs).map fun r => ('\\' :: r.1, r.2)
  | '\\' :: '"' :: cs => (readQuoted cs).map fun r => ('"' :: r.1, r.2)
  | '\\' :: _ => none
  | c :: cs => (readQuoted cs).map fun r => (c :: r.1, r.2)

/-- Labels, to the closing brace. -/
def readLabels : ℕ → List Char → Option (List Label × List Char)
  | 0, _ => none
  | fuel + 1, cs =>
      match readName cs with
      | some (name, '=' :: '"' :: cs) =>
          match readQuoted cs with
          | some (value, ',' :: cs) =>
              (readLabels fuel cs).map fun r => (⟨name, value⟩ :: r.1, r.2)
          | some (value, '}' :: cs) => some ([⟨name, value⟩], cs)
          | _ => none
      | _ => none

def readNumber (cs : List Char) : Option Number :=
  if h : cs ≠ [] ∧ cs.all (fun c => c ≠ ' ' ∧ c ≠ '\n') = true then
    some ⟨cs, h.1, by simpa using h.2⟩
  else none

def readSample (cs : List Char) : Option Sample :=
  match readName cs with
  | some (name, '{' :: cs) =>
      match readLabels cs.length cs with
      | some (labels, ' ' :: cs) => (readNumber cs).map fun value => ⟨name, labels, value⟩
      | _ => none
  | some (name, ' ' :: cs) => (readNumber cs).map fun value => ⟨name, [], value⟩
  | _ => none

def readType (cs : List Char) : Option Line :=
  match readName cs with
  | some (name, ' ' :: cs) =>
      if cs = MetricType.counter.text then some (.type name .counter)
      else if cs = MetricType.gauge.text then some (.type name .gauge)
      else none
  | _ => none

def readLine : List Char → Option Line
  | '#' :: ' ' :: 'T' :: 'Y' :: 'P' :: 'E' :: ' ' :: cs => readType cs
  | cs => (readSample cs).map .sample

/-- The lines of a text whose last line is ended.  Empty ones are passed over. -/
def readText (cs : List Char) : Option (List Line) :=
  let lines := cs.splitOn '\n'
  if lines.getLast? = some [] then (lines.filter (· ≠ [])).mapM readLine else none

/-! ## What is written is read back -/

theorem readName_append {name : Name} {c : Char} (hc : isNameChar c = false) (cs : List Char) :
    readName (name.text ++ c :: cs) = some (name, c :: cs) := by
  have htake : (name.text ++ c :: cs).takeWhile isNameChar = name.text := by
    rw [List.takeWhile_append_of_pos name.chars, List.takeWhile_cons_of_neg (by simp [hc]),
      List.append_nil]
  have hdrop : (name.text ++ c :: cs).dropWhile isNameChar = c :: cs := by
    rw [List.dropWhile_append_of_pos name.chars, List.dropWhile_cons_of_neg (by simp [hc])]
  simp only [readName, htake, hdrop, name.ne_nil, dif_neg, not_false_eq_true]

theorem readQuoted_cons {c : Char} (hquote : c ≠ '"') (hslash : c ≠ '\\') (cs : List Char) :
    readQuoted (c :: cs) = (readQuoted cs).map fun r => (c :: r.1, r.2) := by
  conv_lhs => unfold readQuoted
  split <;> simp_all

theorem readQuoted_escapeChar (c : Char) (cs : List Char) :
    readQuoted (escapeChar c ++ cs) = (readQuoted cs).map fun r => (c :: r.1, r.2) := by
  by_cases hslash : c = '\\'
  · subst hslash
    rfl
  by_cases hquote : c = '"'
  · subst hquote
    rfl
  by_cases hline : c = '\n'
  · subst hline
    rfl
  · have hplain : escapeChar c = [c] := by
      unfold escapeChar
      split <;> simp_all
    rw [hplain, List.singleton_append, readQuoted_cons hquote hslash]

theorem readQuoted_escape (value cs : List Char) :
    readQuoted (escapeValue value ++ '"' :: cs) = some (value, cs) := by
  induction value with
  | nil => rfl
  | cons c value ih =>
      have hcons : escapeValue (c :: value) = escapeChar c ++ escapeValue value := rfl
      rw [hcons, List.append_assoc, readQuoted_escapeChar, ih]
      rfl

theorem newline_notMem_escape (value : List Char) : '\n' ∉ escapeValue value := by
  intro h
  obtain ⟨c, -, hc⟩ := List.mem_flatMap.mp h
  revert hc
  unfold escapeChar
  split <;> simp_all [eq_comm]

/-- Labels, without the brace that opens them. -/
theorem readLabels_append {labels : List Label} {fuel : ℕ} (hne : labels ≠ [])
    (hfuel : labels.length ≤ fuel) (cs : List Char) :
    readLabels fuel ([','].intercalate (labels.map Label.text) ++ '}' :: cs) =
      some (labels, cs) := by
  induction labels generalizing fuel with
  | nil => exact (hne rfl).elim
  | cons l labels ih =>
      obtain ⟨fuel, rfl⟩ : ∃ n, fuel = n + 1 := ⟨fuel - 1, by
        simp only [List.length_cons] at hfuel
        omega⟩
      have hfirst : ∀ rest, readName (l.text ++ rest) =
          some (l.name, '=' :: '"' :: (escapeValue l.value ++ '"' :: rest)) := by
        intro rest
        have hshape : l.text ++ rest =
            l.name.text ++ '=' :: '"' :: (escapeValue l.value ++ '"' :: rest) := by
          simp [Label.text]
        rw [hshape, readName_append (by decide)]
      cases labels with
      | nil =>
          have hshape : [','].intercalate ([l].map Label.text) ++ '}' :: cs =
              l.text ++ '}' :: cs := by
            simp [List.intercalate]
          rw [hshape, readLabels, hfirst]
          simp only [readQuoted_escape]
      | cons l' labels =>
          have hshape : [','].intercalate ((l :: l' :: labels).map Label.text) ++ '}' :: cs =
              l.text ++ ',' ::
                ([','].intercalate ((l' :: labels).map Label.text) ++ '}' :: cs) := by
            simp [List.intercalate]
          rw [hshape, readLabels, hfirst]
          simp only [readQuoted_escape]
          rw [ih (by simp) (by simpa using hfuel)]
          rfl

theorem readNumber_text (value : Number) : readNumber value.text = some value := by
  rw [readNumber, dif_pos ⟨value.ne_nil, by simpa using value.chars⟩]

theorem length_le_intercalate (labels : List Label) :
    labels.length ≤ ([','].intercalate (labels.map Label.text)).length := by
  induction labels with
  | nil => simp
  | cons l labels ih =>
      have hpos : 0 < l.text.length := by
        simp only [Label.text, List.length_append, List.length_cons]
        omega
      cases labels with
      | nil =>
          simp only [List.intercalate, List.map_cons, List.map_nil, List.intersperse_singleton,
            List.flatten_cons, List.flatten_nil, List.append_nil, List.length_cons, List.length_nil]
          omega
      | cons l' labels =>
          have hshape : [','].intercalate ((l :: l' :: labels).map Label.text) =
              l.text ++ ',' :: [','].intercalate ((l' :: labels).map Label.text) := by
            simp [List.intercalate]
          rw [hshape, List.length_append, List.length_cons]
          simp only [List.length_cons] at ih ⊢
          omega

theorem readSample_text (s : Sample) : readSample (Line.sample s).text = some s := by
  obtain ⟨name, labels, value⟩ := s
  cases labels with
  | nil =>
      have hshape : (Line.sample ⟨name, [], value⟩).text = name.text ++ ' ' :: value.text := by
        simp [Line.text, labelsText]
      rw [hshape, readSample, readName_append (by decide)]
      simp only [readNumber_text, Option.map_some]
  | cons l labels =>
      have hshape : (Line.sample ⟨name, l :: labels, value⟩).text = name.text ++
          '{' :: ([','].intercalate ((l :: labels).map Label.text) ++
            '}' :: ' ' :: value.text) := by
        simp [Line.text, labelsText]
      have hfuel : (l :: labels).length ≤
          ([','].intercalate ((l :: labels).map Label.text) ++
            '}' :: ' ' :: value.text).length := by
        rw [List.length_append]
        exact (length_le_intercalate _).trans (Nat.le_add_right _ _)
      rw [hshape, readSample, readName_append (by decide)]
      simp only [readLabels_append (List.cons_ne_nil l labels) hfuel, readNumber_text,
        Option.map_some]

theorem readType_text (name : Name) (type : MetricType) :
    readType (name.text ++ ' ' :: type.text) = some (.type name type) := by
  rw [readType, readName_append (by decide)]
  cases type with
  | counter => simp
  | gauge =>
      have hne : MetricType.gauge.text ≠ MetricType.counter.text := by decide
      simp [hne]

theorem readLine_text (line : Line) : readLine line.text = some line := by
  cases line with
  | type name type =>
      have hshape : (Line.type name type).text =
          '#' :: ' ' :: 'T' :: 'Y' :: 'P' :: 'E' :: ' ' :: (name.text ++ ' ' :: type.text) := rfl
      rw [hshape, readLine, readType_text]
  | sample s =>
      have hread : readLine (Line.sample s).text =
          (readSample (Line.sample s).text).map .sample := by
        obtain ⟨c, cs, hname⟩ := List.exists_cons_of_ne_nil s.name.ne_nil
        have hc : c ≠ '#' := by
          rintro rfl
          have hchar := s.name.chars '#' (by simp [hname])
          exact absurd hchar (by decide)
        have hshape : (Line.sample s).text =
            c :: (cs ++ labelsText s.labels ++ ' ' :: s.value.text) := by
          simp [Line.text, hname]
        rw [hshape]
        conv_lhs => unfold readLine
        split
        · rename_i heq
          exact (hc (List.cons.inj heq).1).elim
        · rfl
      rw [hread, readSample_text, Option.map_some]

theorem ne_nil_text (line : Line) : line.text ≠ [] := by
  cases line with
  | type name type => simp [Line.text]
  | sample s => simp [Line.text]

theorem newline_notMem_name (name : Name) : '\n' ∉ name.text := by
  intro h
  exact absurd (name.chars '\n' h) (by decide)

theorem newline_notMem_labelsText (labels : List Label) : '\n' ∉ labelsText labels := by
  have hlabel : ∀ l : Label, '\n' ∉ l.text := by
    intro l
    simp [Label.text, newline_notMem_name, newline_notMem_escape]
  have hall : '\n' ∉ [','].intercalate (labels.map Label.text) := by
    induction labels with
    | nil => simp
    | cons l labels ih =>
        cases labels with
        | nil => simpa [List.intercalate] using hlabel l
        | cons l' labels =>
            simpa [List.intercalate, hlabel l] using ih
  cases labels with
  | nil => simp [labelsText]
  | cons l labels => simpa [labelsText] using hall

theorem newline_notMem_text (line : Line) : '\n' ∉ line.text := by
  cases line with
  | type name type =>
      have htype : '\n' ∉ type.text := by cases type <;> decide
      simp [Line.text, typeMark, newline_notMem_name, htype]
  | sample s =>
      have hvalue : '\n' ∉ s.value.text := fun h => (s.value.chars '\n' h).2 rfl
      simp [Line.text, newline_notMem_name, newline_notMem_labelsText, hvalue]

theorem splitOn_text {lines : List Line} (hne : lines ≠ []) :
    (text lines).splitOn '\n' = lines.map Line.text ++ [[]] := by
  have hjoin : text lines = ['\n'].intercalate (lines.map Line.text ++ [[]]) := by
    rw [text]
    induction lines with
    | nil => exact (hne rfl).elim
    | cons line lines ih =>
        cases lines with
        | nil => simp [List.intercalate]
        | cons line' lines =>
            have hrest := ih (by simp)
            simp only [List.intercalate, List.map_cons, List.cons_append,
              List.intersperse_cons_cons, List.flatten_cons, List.append_assoc] at hrest ⊢
            rw [hrest]
  rw [hjoin]
  apply List.splitOn_intercalate
  · intro part hpart
    rcases List.mem_append.mp hpart with hline | hlast
    · obtain ⟨line, -, rfl⟩ := List.mem_map.mp hline
      exact newline_notMem_text line
    · rw [List.mem_singleton.mp hlast]
      simp
  · simp

theorem mapM_readLine (lines : List Line) : (lines.map Line.text).mapM readLine = some lines := by
  induction lines with
  | nil => rfl
  | cons line lines ih => simp [readLine_text, ih]

/-- The reader finds the lines that were written. -/
theorem readText_text (lines : List Line) : readText (text lines) = some lines := by
  by_cases hne : lines = []
  · subst hne
    rfl
  · have hlast : (lines.map Line.text ++ [[]]).getLast? = some [] := by simp
    have hfilter : (lines.map Line.text ++ [[]]).filter (· ≠ []) = lines.map Line.text := by
      rw [List.filter_append, List.filter_eq_self.mpr]
      · simp
      · intro part hpart
        obtain ⟨line, -, rfl⟩ := List.mem_map.mp hpart
        simpa using ne_nil_text line
    rw [readText, splitOn_text hne]
    simp only [hlast, if_true, hfilter, mapM_readLine]

/-! ## Naming each type once -/

/-- The samples, each metric's type in front of its first one. -/
def typed (kind : Name → MetricType) : List Name → List Sample → List Line
  | _, [] => []
  | seen, s :: samples =>
      if s.name ∈ seen then .sample s :: typed kind seen samples
      else .type s.name (kind s.name) :: .sample s :: typed kind (s.name :: seen) samples

/-- The samples of lines. -/
def samplesOf (lines : List Line) : List Sample :=
  lines.filterMap fun
    | .type _ _ => none
    | .sample s => some s

/-- The metrics whose types lines name. -/
def typesOf (lines : List Line) : List Name :=
  lines.filterMap fun
    | .type name _ => some name
    | .sample _ => none

/-- Every type is named once, rightly, and before the samples of its metric. -/
structure WellTyped (kind : Name → MetricType) (seen : List Name) (lines : List Line) : Prop where
  once : (typesOf lines).Nodup
  new : ∀ name ∈ typesOf lines, name ∉ seen
  used : ∀ name type, Line.type name type ∈ lines →
    type = kind name ∧ ∃ s ∈ samplesOf lines, s.name = name
  before : ∀ front s back, lines = front ++ Line.sample s :: back →
    s.name ∈ seen ∨ Line.type s.name (kind s.name) ∈ front

theorem samplesOf_typed (kind : Name → MetricType) (seen : List Name) (samples : List Sample) :
    samplesOf (typed kind seen samples) = samples := by
  induction samples generalizing seen with
  | nil => rfl
  | cons s samples ih =>
      rw [typed]
      split
      · simpa [samplesOf] using ih seen
      · simpa [samplesOf] using ih (s.name :: seen)

theorem wellTyped_typed (kind : Name → MetricType) (seen : List Name) (samples : List Sample) :
    WellTyped kind seen (typed kind seen samples) := by
  induction samples generalizing seen with
  | nil => constructor <;> simp [typed, typesOf]
  | cons s samples ih =>
      rw [typed]
      split
      · rename_i hseen
        have h := ih seen
        exact
          { once := by simpa [typesOf] using h.once
            new := by simpa [typesOf] using h.new
            used := by
              intro name type hmem
              obtain ⟨htype, s', hs', hname⟩ := h.used name type (by simpa using hmem)
              exact ⟨htype, s', by simpa [samplesOf] using Or.inr hs', hname⟩
            before := by
              intro front s' back heq
              cases front with
              | nil =>
                  obtain ⟨hs, -⟩ := List.cons.inj heq
                  obtain rfl := Line.sample.inj hs
                  exact .inl hseen
              | cons line front =>
                  obtain ⟨-, htail⟩ := List.cons.inj heq
                  exact (h.before front s' back htail).imp_right (List.mem_cons_of_mem _) }
      · rename_i hseen
        have h := ih (s.name :: seen)
        exact
          { once := by
              have hnew : s.name ∉ typesOf (typed kind (s.name :: seen) samples) :=
                fun hmem => h.new s.name hmem List.mem_cons_self
              simpa [typesOf] using ⟨by simpa [typesOf] using hnew, h.once⟩
            new := by
              intro name hmem
              rcases List.mem_cons.mp (show name ∈ s.name :: typesOf _ from hmem) with rfl | htail
              · exact hseen
              · exact fun hin => h.new name htail (List.mem_cons_of_mem _ hin)
            used := by
              intro name type hmem
              rcases List.mem_cons.mp hmem with heq | hmem
              · obtain ⟨rfl, rfl⟩ := Line.type.inj heq
                exact ⟨rfl, s, by simp [samplesOf], rfl⟩
              · obtain ⟨htype, s', hs', hname⟩ := h.used name type (by simpa using hmem)
                exact ⟨htype, s', by simpa [samplesOf] using Or.inr hs', hname⟩
            before := by
              intro front s' back heq
              cases front with
              | nil => cases (List.cons.inj heq).1
              | cons line front =>
                  obtain ⟨rfl, htail⟩ := List.cons.inj heq
                  cases front with
                  | nil =>
                      obtain ⟨hs, -⟩ := List.cons.inj htail
                      obtain rfl := Line.sample.inj hs
                      exact .inr List.mem_cons_self
                  | cons line front =>
                      obtain ⟨rfl, hrest⟩ := List.cons.inj htail
                      rcases h.before front s' back hrest with hin | hin
                      · rcases List.mem_cons.mp hin with heq' | hin
                        · exact .inr (by rw [heq']; exact List.mem_cons_self)
                        · exact .inl hin
                      · exact .inr (List.mem_cons_of_mem _ (List.mem_cons_of_mem _ hin)) }

end RerollSync.Support.Exposition
