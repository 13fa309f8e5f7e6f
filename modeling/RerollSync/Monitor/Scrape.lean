import RerollSync.Monitor.Metrics
import RerollSync.Support.Exposition

/-!
# Scraping

A reader of the text format finds under every series of a health record the number that the
record has there, and no series besides.
-/

namespace RerollSync.Monitor

open RerollSync.Support RerollSync.Support.Exposition

/-! ## What there is to write -/

/-- A value of a record, with the name and the labels that it is written under. -/
structure Emission (F : Type) where
  metricName : String
  labels : List (String × Key)
  value : Value F

section Emissions

variable {F : Type}

def subEmissions (fieldName labelName : String) (key : Key) (sub : String × SubValue F) :
    List (Emission F) :=
  match sub.2 with
  | .mapping entries => entries.map fun entry =>
      ⟨fieldName ++ "_" ++ sub.1,
        [(labelName, key), ((innerLabelNames.lookup (fieldName, sub.1)).getD "item", entry.1)],
        entry.2⟩
  | .value v => [⟨fieldName ++ "_" ++ sub.1, [(labelName, key)], v⟩]

def entryEmissions (fieldName : String) (entry : Key × Item F) : List (Emission F) :=
  match entry.2 with
  | .record fields =>
      fields.flatMap (subEmissions fieldName ((labelNames.lookup fieldName).getD "key") entry.1)
  | .value v => [⟨fieldName, [((labelNames.lookup fieldName).getD "key", entry.1)], v⟩]

def fieldEmissions (field : String × FieldValue F) : List (Emission F) :=
  match field.2 with
  | .mapping entries => entries.flatMap (entryEmissions field.1)
  | .value v => [⟨field.1, [], v⟩]

/-- The values of a record, in the order in which they are come by. -/
def Health.emissions (h : Health F) : List (Emission F) := h.fields.flatMap fieldEmissions

variable (floatText : F → List Char)

def emitOne (out : Rendered) (e : Emission F) : Rendered :=
  emit floatText out e.metricName e.value e.labels

theorem renderDataclassItem_eq_foldl (fieldName labelName : String) (key : Key) (out : Rendered)
    (item : List (String × SubValue F)) :
    renderDataclassItem floatText fieldName labelName key out item =
      (item.flatMap (subEmissions fieldName labelName key)).foldl (emitOne floatText) out := by
  rw [List.foldl_flatMap, renderDataclassItem]
  congr 1
  funext out sub
  rw [subEmissions]
  cases sub.2 with
  | value v => rfl
  | mapping entries => rw [List.foldl_map]; rfl

theorem renderMapping_eq_foldl (out : Rendered) (fieldName : String)
    (entries : List (Key × Item F)) :
    renderMapping floatText out fieldName entries =
      (entries.flatMap (entryEmissions fieldName)).foldl (emitOne floatText) out := by
  rw [List.foldl_flatMap, renderMapping]
  congr 1
  funext out entry
  rw [entryEmissions]
  cases entry.2 with
  | value v => rfl
  | record fields => exact renderDataclassItem_eq_foldl floatText _ _ _ _ _

theorem renderFields_eq_foldl (fields : List (String × FieldValue F)) :
    renderFields floatText fields =
      (fields.flatMap fieldEmissions).foldl (emitOne floatText) ⟨[], []⟩ := by
  rw [List.foldl_flatMap, renderFields]
  congr 1
  funext out field
  rw [fieldEmissions]
  cases field.2 with
  | value v => rfl
  | mapping entries => exact renderMapping_eq_foldl floatText _ _ _

end Emissions

/-! ## Texts -/

/-- What can be the name of a metric or of a label. -/
def IsName (s : String) : Prop := s.toList ≠ [] ∧ ∀ c ∈ s.toList, isNameChar c = true

instance (s : String) : Decidable (IsName s) := @instDecidableAnd _ _ _ (List.decidableBAll _ _)

def nameOf (s : String) : Name :=
  if h : IsName s then ⟨s.toList, h.1, h.2⟩
  else ⟨['_'], by decide, List.forall_mem_singleton.mpr rfl⟩

theorem isName_ofList {c : Char} {cs : List Char} (h : (c :: cs).all isNameChar = true) :
    IsName (String.ofList (c :: cs)) := by
  rw [IsName, String.toList_ofList]
  exact ⟨List.cons_ne_nil c cs, List.all_eq_true.mp h⟩

theorem isName_append {s s' : String} (h : IsName s) (h' : IsName s') : IsName (s ++ s') := by
  rw [IsName, String.toList_append]
  refine ⟨List.append_ne_nil_of_left_ne_nil h.1 _, fun c hc => ?_⟩
  rcases List.mem_append.mp hc with hc | hc
  · exact h.2 c hc
  · exact h'.2 c hc

theorem isName_metricPrefix : IsName metricPrefix := isName_ofList rfl

theorem nameOf_text {s : String} (h : IsName s) : (nameOf s).text = s.toList := by
  rw [nameOf, dif_pos h]

theorem nameOf_inj {s s' : String} (h : IsName s) (h' : IsName s') (heq : nameOf s = nameOf s') :
    s = s' := by
  apply String.toList_injective
  rw [← nameOf_text h, ← nameOf_text h', heq]

def Emission.fullName {F : Type} (e : Emission F) : Name := nameOf (metricPrefix ++ e.metricName)

def labelsOf (labels : List (String × Key)) : List Label :=
  labels.map fun l => ⟨nameOf l.1, l.2.text⟩

/-- Three replacements escape what there is to escape: the backslashes go first. -/
theorem escapeLabelValue_eq (value : Key) : escapeLabelValue value = escapeValue value.text := by
  have hchar : ∀ c, replaceChar '\n' ['\\', 'n']
      (replaceChar '"' ['\\', '"'] (if c = '\\' then ['\\', '\\'] else [c])) = escapeChar c := by
    intro c
    by_cases hslash : c = '\\'
    · subst hslash
      rfl
    by_cases hquote : c = '"'
    · subst hquote
      rfl
    by_cases hline : c = '\n'
    · subst hline
      rfl
    · unfold escapeChar
      simp [replaceChar, hslash, hquote, hline]
  rw [escapeLabelValue, escapeValue]
  generalize value.text = text
  induction text with
  | nil => rfl
  | cons c text ih =>
      have hsplit : ∀ (old : Char) (new l l' : List Char),
          replaceChar old new (l ++ l') = replaceChar old new l ++ replaceChar old new l' :=
        fun _ _ _ _ => List.flatMap_append
      have hcons : replaceChar '\\' ['\\', '\\'] (c :: text) =
          (if c = '\\' then ['\\', '\\'] else [c]) ++ replaceChar '\\' ['\\', '\\'] text := rfl
      rw [hcons, hsplit, hsplit, hchar, ih]
      rfl

theorem renderLabels_eq {labels : List (String × Key)} (h : ∀ l ∈ labels, IsName l.1) :
    renderLabels labels = labelsText (labelsOf labels) := by
  have hone : ∀ l ∈ labels, l.1.toList ++ '=' :: '"' :: (escapeLabelValue l.2 ++ ['"']) =
      Label.text ⟨nameOf l.1, l.2.text⟩ := by
    intro l hl
    rw [escapeLabelValue_eq, Label.text, nameOf_text (h l hl)]
  rw [renderLabels]
  cases labels with
  | nil => rfl
  | cons l labels =>
      rw [if_neg (by simp), List.map_congr_left hone]
      simp [labelsOf, labelsText, Function.comp_def]

theorem word_intText (n : ℤ) : intText n ≠ [] ∧ ∀ c ∈ intText n, c ≠ ' ' ∧ c ≠ '\n' := by
  have hdigit : ∀ c ∈ decimals n.natAbs, c ≠ ' ' ∧ c ≠ '\n' := by
    intro c hc
    have hd := isDigit_of_mem_decimals hc
    refine ⟨?_, ?_⟩
    · rintro rfl
      exact absurd hd (by decide)
    · rintro rfl
      exact absurd hd (by decide)
  rw [intText]
  split
  · refine ⟨by simp, fun c hc => ?_⟩
    rcases List.mem_cons.mp hc with rfl | hc
    · decide
    · exact hdigit c hc
  · exact ⟨decimals_ne_nil _, hdigit⟩

theorem intText_injective : Function.Injective intText := by
  have hminus : ∀ n : ℕ, ∀ cs, decimals n ≠ '-' :: cs := by
    intro n cs heq
    have hd := isDigit_of_mem_decimals (n := n) (c := '-') (heq ▸ List.mem_cons_self)
    exact absurd hd (by decide)
  intro n m h
  rw [intText, intText] at h
  split at h <;> split at h
  · have habs := decimals_injective (List.cons.inj h).2
    omega
  · exact (hminus _ _ h.symm).elim
  · exact (hminus _ _ h).elim
  · have habs := decimals_injective h
    omega

section Read

variable {F : Type} (floatText : F → Number)

/-- The text of a number as a word. -/
def Numeric.number : Numeric F → Number
  | .int n => ⟨intText n, (word_intText n).1, (word_intText n).2⟩
  | .float x => floatText x

theorem Numeric.number_text (v : Numeric F) :
    (v.number floatText).text = v.text fun x => (floatText x).text := by
  cases v <;> rfl

/-- The sample of a value that is a number. -/
def Emission.sample (e : Emission F) : Option Sample :=
  (toNumeric e.value).map fun v => ⟨e.fullName, labelsOf e.labels, v.number floatText⟩

/-- `counter` or `gauge`. -/
def kindOf (name : Name) : MetricType :=
  if name ∈ counterFamilies.map fun family => nameOf (metricPrefix ++ family) then .counter
  else .gauge

/-- The names of an emission can stand in the text. -/
def Emission.Legal (e : Emission F) : Prop :=
  IsName (metricPrefix ++ e.metricName) ∧ ∀ l ∈ e.labels, IsName l.1

theorem kindOf_fullName {e : Emission F} (h : e.Legal) :
    kindOf e.fullName = if e.metricName ∈ counterFamilies then .counter else .gauge := by
  have hfamilies : ∀ family ∈ counterFamilies, IsName (metricPrefix ++ family) := by
    have hnames : ∀ family ∈ counterFamilies, IsName family := by
      repeat refine List.forall_mem_cons.mpr ⟨isName_ofList rfl, ?_⟩
      exact List.forall_mem_nil _
    exact fun family hfamily => isName_append isName_metricPrefix (hnames family hfamily)
  have hiff : e.fullName ∈ counterFamilies.map (fun family => nameOf (metricPrefix ++ family)) ↔
      e.metricName ∈ counterFamilies := by
    rw [List.mem_map]
    constructor
    · rintro ⟨family, hmem, heq⟩
      have hfull := nameOf_inj (hfamilies family hmem) h.1 heq
      rw [← String.append_right_inj metricPrefix |>.mp hfull]
      exact hmem
    · intro hmem
      exact ⟨e.metricName, hmem, rfl⟩
  rw [kindOf]
  simp only [hiff]

/-- The lines of the loop over the values are those of the samples, with their types. -/
theorem foldl_emitOne {es : List (Emission F)} (hes : ∀ e ∈ es, e.Legal) :
    ∀ (out : Rendered), (∀ s ∈ out.emittedTypes, IsName s) →
      (es.foldl (emitOne fun x => (floatText x).text) out).lines =
        out.lines ++ (typed kindOf (out.emittedTypes.map nameOf)
          (es.filterMap (Emission.sample floatText))).map Line.text := by
  induction es with
  | nil => intro out _; simp [typed]
  | cons e es ih =>
      intro out hout
      obtain ⟨he, hes⟩ := List.forall_mem_cons.mp hes
      rw [List.foldl_cons]
      cases hnumeric : toNumeric e.value with
      | none =>
          have hskip : emitOne (fun x => (floatText x).text) out e = out := by
            rw [emitOne, emit, hnumeric]
          have hsample : e.sample floatText = none := by
            rw [Emission.sample, hnumeric]
            rfl
          rw [hskip, List.filterMap_cons_none hsample]
          exact ih hes out hout
      | some numeric =>
          have hsample : e.sample floatText =
              some ⟨e.fullName, labelsOf e.labels, numeric.number floatText⟩ := by
            rw [Emission.sample, hnumeric]
            rfl
          have hline : (metricPrefix ++ e.metricName).toList ++ renderLabels e.labels ++ [' '] ++
              numeric.text (fun x => (floatText x).text) =
              (Line.sample ⟨e.fullName, labelsOf e.labels, numeric.number floatText⟩).text := by
            rw [renderLabels_eq he.2, Line.text, Emission.fullName, nameOf_text he.1,
              Numeric.number_text]
            simp
          have hmark : "# TYPE ".toList = typeMark := String.toList_ofList
          have htype : "# TYPE ".toList ++ (metricPrefix ++ e.metricName).toList ++ [' '] ++
              (if e.metricName ∈ counterFamilies then "counter".toList else "gauge".toList) =
              (Line.type e.fullName (kindOf e.fullName)).text := by
            rw [Line.text, Emission.fullName, nameOf_text he.1, ← Emission.fullName,
              kindOf_fullName he, hmark]
            split
            · have hcounter : MetricType.counter.text = "counter".toList := rfl
              rw [hcounter]
              simp
            · have hgauge : MetricType.gauge.text = "gauge".toList := rfl
              rw [hgauge]
              simp
          have hseen : e.fullName ∈ out.emittedTypes.map nameOf ↔
              metricPrefix ++ e.metricName ∈ out.emittedTypes := by
            rw [List.mem_map]
            constructor
            · rintro ⟨s, hs, heq⟩
              rwa [← nameOf_inj (hout s hs) he.1 heq]
            · intro hs
              exact ⟨_, hs, rfl⟩
          rw [List.filterMap_cons_some hsample, typed]
          by_cases hin : metricPrefix ++ e.metricName ∈ out.emittedTypes
          · have hstep : emitOne (fun x => (floatText x).text) out e =
                { out with
                  lines := out.lines ++
                    [(Line.sample
                      ⟨e.fullName, labelsOf e.labels, numeric.number floatText⟩).text] } := by
              simp only [emitOne, emit, hnumeric, if_pos hin, hline]
            have hrest := fun lines => ih hes ⟨lines, out.emittedTypes⟩ hout
            rw [hstep, hrest, if_pos (hseen.mpr hin)]
            simp
          · have hstep : emitOne (fun x => (floatText x).text) out e =
                { lines := out.lines ++ [(Line.type e.fullName (kindOf e.fullName)).text] ++
                    [(Line.sample ⟨e.fullName, labelsOf e.labels, numeric.number floatText⟩).text]
                  emittedTypes := (metricPrefix ++ e.metricName) :: out.emittedTypes } := by
              simp only [emitOne, emit, hnumeric, if_neg hin, hline, htype]
            have hout' : ∀ s ∈ (metricPrefix ++ e.metricName) :: out.emittedTypes, IsName s := by
              intro s hs
              rcases List.mem_cons.mp hs with rfl | hs
              · exact he.1
              · exact hout s hs
            have hrest := fun lines => ih hes ⟨lines, _ :: out.emittedTypes⟩ hout'
            rw [hstep, hrest, if_neg (mt hseen.mp hin)]
            simp [Emission.fullName]

/-! ## No series twice -/

/-- The fields that are mappings of dataclasses, with the names of those's fields. -/
def recordFields : List (String × List String) :=
  [("queues", ["depth", "depth_by_lane", "in_flight", "oldest_pending_age_seconds",
      "throughput_ema", "ok_count", "skip_count", "retry_count", "rate_limited_count"]),
   ("limiter_children", ["available", "acquired", "denied", "penalty_deadline"]),
   ("stages", ["paused", "last_run_at", "last_success_at", "consecutive_failures"]),
   ("dependencies", ["state", "consecutive_failures", "next_trial_at"])]

/-- The metrics that a field can be written under. -/
def metricsOf (fieldName : String) : List String :=
  match recordFields.lookup fieldName with
  | none => [fieldName]
  | some subs => subs.map fun sub => fieldName ++ "_" ++ sub

/-- What a series is known by. -/
def Emission.series (e : Emission F) : String × List (List Char) :=
  (e.metricName, e.labels.map fun l => l.2.text)

/-- A field's values are written under its own metrics, each once. -/
structure Fits (field : String × FieldValue F) : Prop where
  metrics : ∀ e ∈ fieldEmissions field, e.metricName ∈ metricsOf field.1
  labels : ∀ e ∈ fieldEmissions field, ∀ l ∈ e.labels, IsName l.1
  distinct : ((fieldEmissions field).map Emission.series).Nodup

theorem isName_lookup {κ : Type} [BEq κ] {names : List (κ × String)} {other : String}
    (h : ∀ p ∈ names, IsName p.2) (hother : IsName other) (k : κ) :
    IsName ((names.lookup k).getD other) := by
  induction names with
  | nil => exact hother
  | cons p names ih =>
      obtain ⟨hp, hnames⟩ := List.forall_mem_cons.mp h
      rw [List.lookup_cons]
      cases k == p.1 with
      | true => exact hp
      | false => exact ih hnames

theorem isName_label (fieldName : String) :
    IsName ((labelNames.lookup fieldName).getD "key") := by
  apply isName_lookup
  · repeat refine List.forall_mem_cons.mpr ⟨isName_ofList rfl, ?_⟩
    exact List.forall_mem_nil _
  · exact isName_ofList rfl

theorem isName_innerLabel (sub : String × String) :
    IsName ((innerLabelNames.lookup sub).getD "item") := by
  apply isName_lookup
  · repeat refine List.forall_mem_cons.mpr ⟨isName_ofList rfl, ?_⟩
    exact List.forall_mem_nil _
  · exact isName_ofList rfl

theorem fits_value {fieldName : String} (h : recordFields.lookup fieldName = none) (v : Value F) :
    Fits (fieldName, .value v) where
  metrics := by simp [fieldEmissions, metricsOf, h]
  labels := by simp [fieldEmissions]
  distinct := by simp [fieldEmissions]

/-- What an entry of a mapping is written as. -/
structure EntryFits (fieldName : String) (entry : Key × Item F) : Prop where
  metrics : ∀ e ∈ entryEmissions fieldName entry, e.metricName ∈ metricsOf fieldName
  labels : ∀ e ∈ entryEmissions fieldName entry, ∀ l ∈ e.labels, IsName l.1
  key : ∀ e ∈ entryEmissions fieldName entry, e.series.2.head? = some entry.1.text
  distinct : ((entryEmissions fieldName entry).map Emission.series).Nodup

theorem fits_mapping {fieldName : String} {entries : List (Key × Item F)}
    (hkeys : (entries.map fun entry => entry.1.text).Nodup)
    (h : ∀ entry ∈ entries, EntryFits fieldName entry) : Fits (fieldName, .mapping entries) where
  metrics := by
    intro e he
    obtain ⟨entry, hentry, he⟩ := List.mem_flatMap.mp he
    exact (h entry hentry).metrics e he
  labels := by
    intro e he
    obtain ⟨entry, hentry, he⟩ := List.mem_flatMap.mp he
    exact (h entry hentry).labels e he
  distinct := by
    have hmap : (fieldEmissions (fieldName, .mapping entries)).map Emission.series =
        entries.flatMap fun entry => (entryEmissions fieldName entry).map Emission.series :=
      List.map_flatMap
    rw [hmap, List.nodup_flatMap]
    refine ⟨fun entry hentry => (h entry hentry).distinct, ?_⟩
    refine (List.pairwise_map.mp hkeys).imp_of_mem fun {a b} ha hb hne => ?_
    apply List.disjoint_left.mpr
    intro series hin hin'
    obtain ⟨e, he, rfl⟩ := List.mem_map.mp hin
    obtain ⟨e', he', heq⟩ := List.mem_map.mp hin'
    have hkey := (h a ha).key e he
    rw [← heq, (h b hb).key e' he'] at hkey
    exact hne (Option.some.inj hkey).symm

theorem fits_counts {fieldName : String} (h : recordFields.lookup fieldName = none)
    (t : Table String ℤ) : Fits (F := F) (fieldName, counts t) := by
  apply fits_mapping
  · have hkeys := t.nodup.map fun _ _ => String.toList_injective
    simpa [List.map_map, Function.comp_def, Key.text] using hkeys
  · intro entry hentry
    obtain ⟨r, -, rfl⟩ := List.mem_map.mp hentry
    constructor <;> simp [entryEmissions, metricsOf, h, isName_label, Emission.series]

theorem string_append_left_injective (s : String) : Function.Injective (s ++ ·) :=
  fun _ _ h => String.append_right_inj s |>.mp h

/-- The values of a dataclass in a mapping. -/
theorem entryFits_record {fieldName : String} {key : Key} {fields : List (String × SubValue F)}
    (hfields : recordFields.lookup fieldName = some (fields.map Prod.fst))
    (hnames : (fields.map Prod.fst).Nodup)
    (hinner : ∀ sub ∈ fields, ∀ entries, sub.2 = .mapping entries →
      (entries.map fun entry => entry.1.text).Nodup) :
    EntryFits fieldName (key, .record fields) := by
  have hsub : ∀ sub ∈ fields,
      ∀ e ∈ subEmissions fieldName ((labelNames.lookup fieldName).getD "key") key sub,
        e.metricName = fieldName ++ "_" ++ sub.1 ∧ (∀ l ∈ e.labels, IsName l.1) ∧
          e.series.2.head? = some key.text := by
    intro sub _ e he
    rw [subEmissions] at he
    cases hvalue : sub.2 with
    | value v =>
        simp only [hvalue, List.mem_singleton] at he
        subst he
        simp [isName_label, Emission.series]
    | mapping entries =>
        simp only [hvalue, List.mem_map] at he
        obtain ⟨entry, -, rfl⟩ := he
        simp [isName_label, isName_innerLabel, Emission.series]
  constructor
  · intro e he
    obtain ⟨sub, hmem, he⟩ := List.mem_flatMap.mp he
    rw [metricsOf, hfields, (hsub sub hmem e he).1]
    exact List.mem_map.mpr ⟨sub.1, List.mem_map_of_mem hmem, rfl⟩
  · intro e he
    obtain ⟨sub, hmem, he⟩ := List.mem_flatMap.mp he
    exact (hsub sub hmem e he).2.1
  · intro e he
    obtain ⟨sub, hmem, he⟩ := List.mem_flatMap.mp he
    exact (hsub sub hmem e he).2.2
  · rw [entryEmissions]
    simp only [List.map_flatMap]
    rw [List.nodup_flatMap]
    constructor
    · intro sub hmem
      rw [subEmissions]
      cases hvalue : sub.2 with
      | value v => simp
      | mapping entries =>
          have hnodup := hinner sub hmem entries hvalue
          rw [List.map_map]
          refine List.Nodup.of_map (fun series : String × List (List Char) => series.2[1]?) ?_
          rw [List.map_map]
          have hsome := hnodup.map (Option.some_injective (List Char))
          simpa [Function.comp_def, Emission.series] using hsome
    · refine (List.pairwise_map.mp hnames).imp_of_mem fun {a b} ha hb hne => ?_
      apply List.disjoint_left.mpr
      intro series hin hin'
      obtain ⟨e, he, rfl⟩ := List.mem_map.mp hin
      obtain ⟨e', he', heq⟩ := List.mem_map.mp hin'
      have hmetric : e'.metricName = e.metricName := congrArg Prod.fst heq
      rw [(hsub a ha e he).1, (hsub b hb e' he').1] at hmetric
      exact hne (string_append_left_injective _ hmetric).symm

theorem fits_records {ρ : Type} {fieldName : String} {fields : ρ → List (String × SubValue F)}
    {names : List String} (t : Table String ρ) (hnames : names.Nodup)
    (hlookup : recordFields.lookup fieldName = some names)
    (hfields : ∀ r, (fields r).map Prod.fst = names)
    (hinner : ∀ r, ∀ sub ∈ fields r, ∀ entries, sub.2 = .mapping entries →
      (entries.map fun entry => entry.1.text).Nodup) :
    Fits (fieldName, records fields t) := by
  apply fits_mapping
  · have hkeys := t.nodup.map fun _ _ => String.toList_injective
    simpa [List.map_map, Function.comp_def, Key.text] using hkeys
  · intro entry hentry
    obtain ⟨r, -, rfl⟩ := List.mem_map.mp hentry
    apply entryFits_record
    · rw [hlookup, hfields]
    · rwa [hfields]
    · exact hinner r.2

/-! ## The whole record -/

theorem fits_queues (t : Table String (StageQueue F)) :
    Fits ("queues", records StageQueue.fields t) := by
  refine fits_records t (by decide) rfl (fun _ => rfl) ?_
  intro q sub hsub entries hentries
  have hlane : entries = q.depthByLane.rows.map fun r => (.int r.1, .int r.2) := by
    simp only [StageQueue.fields, List.mem_cons, List.not_mem_nil, or_false] at hsub
    rcases hsub with rfl | rfl | rfl | rfl | rfl | rfl | rfl | rfl | rfl <;>
      first
      | exact (SubValue.mapping.inj hentries).symm
      | cases hentries
  have hkeys := q.depthByLane.nodup.map intText_injective
  rw [hlane]
  simpa [List.map_map, Function.comp_def, Key.text] using hkeys

/-- Dataclasses that have no mappings of their own. -/
theorem fits_flat {ρ : Type} {fieldName : String} {fields : ρ → List (String × SubValue F)}
    {names : List String} (t : Table String ρ) (hnames : names.Nodup)
    (hlookup : recordFields.lookup fieldName = some names)
    (hfields : ∀ r, (fields r).map Prod.fst = names)
    (hflat : ∀ r, ∀ sub ∈ fields r, ∃ v, sub.2 = .value v) :
    Fits (fieldName, records fields t) := by
  refine fits_records t hnames hlookup hfields fun r sub hsub entries hentries => ?_
  obtain ⟨v, hv⟩ := hflat r sub hsub
  rw [hv] at hentries
  cases hentries

theorem fits_fields (h : Health F) : ∀ field ∈ h.fields, Fits field := by
  have hchildren : Fits ("limiter_children", records ChildLimiterSnapshot.fields
      h.limiterChildren) :=
    fits_flat _ (by decide) rfl (fun _ => rfl) (by simp [ChildLimiterSnapshot.fields])
  have hstages : Fits ("stages", records StageHealth.fields h.stages) :=
    fits_flat _ (by decide) rfl (fun _ => rfl) (by simp [StageHealth.fields])
  have hdependencies : Fits ("dependencies", records DependencyHealth.fields h.dependencies) :=
    fits_flat _ (by decide) rfl (fun _ => rfl) (by simp [DependencyHealth.fields])
  simp only [Health.fields, List.forall_mem_cons]
  and_intros
  all_goals
    first
    | exact fits_value rfl _
    | exact fits_counts rfl _
    | exact fits_queues _
    | exact hchildren
    | exact hstages
    | exact hdependencies
    | simp

/-- The names of the fields of `Health`. -/
def fieldNames : List String :=
  ["snapshot_at", "index_lag", "remote_last_serial", "local_max_serial", "last_index_poll_at",
   "last_index_change_at", "projects_indexed", "projects_stale", "pipeline_backlog",
   "wheels_synced", "queues", "state_counts", "quarantined_count", "skipped_count",
   "requires_prerelease_count", "wal_bytes", "seconds_since_truncate_checkpoint",
   "consecutive_checkpoint_failures", "longest_read_txn_ms", "read_txn_budget_violations",
   "db_bytes", "freelist_count", "writer_queue_depth", "writer_failed_ops", "segments_sealed",
   "segments_open", "open_segment_age_seconds", "open_segment_bytes", "unsealed_records",
   "archive_bytes", "disk_free_bytes", "limiter_global_available", "limiter_children", "stages",
   "dependencies", "error_counts_1h", "error_counts_24h"]

theorem map_fst_fields (h : Health F) : h.fields.map Prod.fst = fieldNames := rfl

theorem isName_fieldName : ∀ fieldName ∈ fieldNames, IsName fieldName := by
  repeat refine List.forall_mem_cons.mpr ⟨isName_ofList rfl, ?_⟩
  exact List.forall_mem_nil _

theorem isName_recordField : ∀ sub ∈ recordFields.flatMap Prod.snd, IsName sub := by
  repeat refine List.forall_mem_cons.mpr ⟨isName_ofList rfl, ?_⟩
  exact List.forall_mem_nil _

theorem isName_of_mem_metricsOf {fieldName metric : String} (hfield : fieldName ∈ fieldNames)
    (hmetric : metric ∈ metricsOf fieldName) : IsName metric := by
  have hname := isName_fieldName fieldName hfield
  rw [metricsOf] at hmetric
  cases hlookup : recordFields.lookup fieldName with
  | none =>
      rw [hlookup] at hmetric
      rwa [List.mem_singleton.mp hmetric]
  | some subs =>
      rw [hlookup] at hmetric
      obtain ⟨sub, hsub, rfl⟩ := List.mem_map.mp hmetric
      have hrecord : (fieldName, subs) ∈ recordFields := by
        obtain ⟨before, after, heq, -⟩ := List.lookup_eq_some_iff.mp hlookup
        rw [heq]
        simp
      exact isName_append (isName_append hname (isName_ofList rfl))
        (isName_recordField sub (List.mem_flatMap.mpr ⟨_, hrecord, hsub⟩))

theorem legal_of_mem_emissions {h : Health F} {e : Emission F} (he : e ∈ h.emissions) :
    e.Legal := by
  obtain ⟨field, hfield, he⟩ := List.mem_flatMap.mp he
  have hfits := fits_fields h field hfield
  have hmem : field.1 ∈ fieldNames := map_fst_fields h ▸ List.mem_map_of_mem hfield
  have hmetric := isName_of_mem_metricsOf hmem (hfits.metrics e he)
  exact ⟨isName_append isName_metricPrefix hmetric, hfits.labels e he⟩

theorem series_nodup (h : Health F) : (h.emissions.map Emission.series).Nodup := by
  have hmetrics : (fieldNames.flatMap metricsOf).Nodup := by decide
  have hfields : h.fields.Pairwise fun a b => (metricsOf a.1).Disjoint (metricsOf b.1) := by
    have hpair := (List.nodup_flatMap.mp hmetrics).2
    rw [← map_fst_fields h] at hpair
    rwa [List.pairwise_map] at hpair
  rw [Health.emissions, List.map_flatMap, List.nodup_flatMap]
  refine ⟨fun field hfield => (fits_fields h field hfield).distinct, ?_⟩
  refine hfields.imp_of_mem fun {a b} ha hb hdisjoint => ?_
  apply List.disjoint_left.mpr
  intro series hin hin'
  obtain ⟨e, he, rfl⟩ := List.mem_map.mp hin
  obtain ⟨e', he', heq⟩ := List.mem_map.mp hin'
  have hmetric : e'.metricName = e.metricName := congrArg Prod.fst heq
  refine hdisjoint ((fits_fields h a ha).metrics e he) ?_
  rw [← hmetric]
  exact (fits_fields h b hb).metrics e' he'

/-- Two values that are written under the same name and labels are the same value. -/
theorem eq_of_series {h : Health F} {e e' : Emission F} (he : e ∈ h.emissions)
    (he' : e' ∈ h.emissions) (hname : e.fullName = e'.fullName)
    (hlabels : labelsOf e.labels = labelsOf e'.labels) : e = e' := by
  apply List.inj_on_of_nodup_map (series_nodup h) he he'
  have hfull := nameOf_inj (legal_of_mem_emissions he).1 (legal_of_mem_emissions he').1 hname
  have htexts := congrArg (List.map Label.value) hlabels
  simp only [labelsOf, List.map_map] at htexts
  exact Prod.ext (string_append_left_injective _ hfull) htexts

/-- What a reader finds under a name and labels. -/
def valueOf (lines : List Line) (name : Name) (labels : List Label) : Option Number :=
  ((samplesOf lines).find? fun s => s.name = name ∧ s.labels = labels).map Sample.value

/-- What a reader of the lines of a record can rely on. -/
structure Scraped (h : Health F) (lines : List Line) : Prop where
  /-- Under the name and the labels of a value there is its number, if it has one. -/
  series : ∀ e ∈ h.emissions,
    valueOf lines e.fullName (labelsOf e.labels) =
      (toNumeric e.value).map (Numeric.number floatText)
  known : ∀ s ∈ samplesOf lines,
    ∃ e ∈ h.emissions, s.name = e.fullName ∧ s.labels = labelsOf e.labels
  types : WellTyped kindOf [] lines

theorem scraped_typed (h : Health F) :
    Scraped floatText h (typed kindOf [] (h.emissions.filterMap (Emission.sample floatText))) := by
  have hsample : ∀ e : Emission F, ∀ s, e.sample floatText = some s →
      s.name = e.fullName ∧ s.labels = labelsOf e.labels := by
    intro e s hs
    obtain ⟨v, -, rfl⟩ := Option.map_eq_some_iff.mp hs
    exact ⟨rfl, rfl⟩
  constructor
  · intro e he
    rw [valueOf, samplesOf_typed]
    -- a sample that is found can only be the one of the value
    have honly : ∀ s ∈ h.emissions.filterMap (Emission.sample floatText),
        (s.name = e.fullName ∧ s.labels = labelsOf e.labels) → e.sample floatText = some s := by
      intro s hs hseries
      obtain ⟨e', he', hs'⟩ := List.mem_filterMap.mp hs
      obtain ⟨hname, hlabels⟩ := hsample e' s hs'
      rwa [eq_of_series he he' (hseries.1.symm.trans hname) (hseries.2.symm.trans hlabels)]
    cases hfind : (h.emissions.filterMap (Emission.sample floatText)).find? fun s =>
        s.name = e.fullName ∧ s.labels = labelsOf e.labels with
    | some s =>
        have hs := honly s (List.mem_of_find?_eq_some hfind)
          (by simpa using List.find?_some hfind)
        obtain ⟨v, hv, rfl⟩ := Option.map_eq_some_iff.mp hs
        simp [hv]
    | none =>
        cases hnumeric : toNumeric e.value with
        | none => rfl
        | some v =>
            have hs : e.sample floatText =
                some ⟨e.fullName, labelsOf e.labels, v.number floatText⟩ := by
              rw [Emission.sample, hnumeric]
              rfl
            have hnot := List.find?_eq_none.mp hfind _ (List.mem_filterMap.mpr ⟨e, he, hs⟩)
            simp at hnot
  · intro s hs
    rw [samplesOf_typed] at hs
    obtain ⟨e, he, hs⟩ := List.mem_filterMap.mp hs
    exact ⟨e, he, hsample e s hs⟩
  · exact wellTyped_typed _ _ _

/-- What `render_metrics` writes is read as the numbers of the record, one series for each of
them. -/
theorem readText_renderMetrics (h : Health F) :
    ∃ lines, readText (renderMetrics (fun x => (floatText x).text) h) = some lines ∧
      Scraped floatText h lines := by
  refine ⟨_, ?_, scraped_typed floatText h⟩
  have hlines := foldl_emitOne floatText (fun e he => legal_of_mem_emissions (h := h) he) ⟨[], []⟩
    (by simp)
  have htext : renderMetrics (fun x => (floatText x).text) h =
      text (typed kindOf [] (h.emissions.filterMap (Emission.sample floatText))) := by
    rw [renderMetrics, renderFields_eq_foldl, ← Health.emissions, hlines, text]
    rfl
  rw [htext, readText_text]

end Read

end RerollSync.Monitor
