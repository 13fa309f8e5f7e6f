import RerollSync.Support.LowerCase
import RerollSync.Ingest.ProjectNames

/-!
# The URL of a project page

A project's name is any string a JSON listing can carry.  `fetch_project` normalizes
it, encodes it and asks for the page under the index; the segment it builds leaves no
way out of the index and tells normalized names apart.  A name with a surrogate has no
UTF-8, and ends in an error of no kind a caller of the client expects.
-/

namespace RerollSync.Client

open RerollSync.Support RerollSync.Ingest

/-! ## The request -/

/-- `_PEP503_SEPARATORS.sub("-", name)`; `inRun` is set inside of a run. -/
def collapseSeparators (inRun : Bool) : List CodePoint → List CodePoint
  | [] => []
  | .char c :: cs =>
      if isSeparator c then
        if inRun then collapseSeparators true cs
        else .char '-' :: collapseSeparators true cs
      else .char c :: collapseSeparators false cs
  | .surrogate n :: cs => .surrogate n :: collapseSeparators false cs

/-- `_normalize_project_name`. -/
def normalizeProjectName (w : WordChars) (name : List CodePoint) : List CodePoint :=
  lower w (collapseSeparators false name)

/-- The characters of a string that has an encoding. -/
def toChars : List CodePoint → Option (List Char)
  | [] => some []
  | .char c :: cs => (toChars cs).map (c :: ·)
  | .surrogate _ :: _ => none

/-- `_percent_encode`; `none` is the `UnicodeEncodeError` of `value.encode("utf-8")`. -/
def percentEncode (value : List CodePoint) : Option String :=
  (toChars value).map fun cs => Ingest.percentEncode (String.ofList cs)

/-- The exceptions of `fetch_project` before its request. -/
inductive RequestError
  | unicodeEncodeError
  | pypiProtocolError
  | pypiRateLimited
  | keyError
deriving DecidableEq, Repr

/-- The subclasses of `PyPIError`. -/
def RequestError.IsPyPIError : RequestError → Prop
  | .pypiProtocolError | .pypiRateLimited => True
  | .unicodeEncodeError | .keyError => False

/-- `PyPIClient`: the index, the host `httpx.URL` finds in a URL (`none` when the URL is
invalid) and what the limiter answers for a host (`none` when it has no such child).
The limiter has a child for the host of the index. -/
structure PyPIClient where
  indexUrl : String
  hostOf : String → Option String
  acquire : String → Option Bool
  configured : ∀ path host, hostOf (indexUrl ++ path) = some host → acquire host ≠ none

/-- What comes of a call up to its request. -/
inductive Requested
  | raised (e : RequestError)
  | requests (url : String)
deriving DecidableEq, Repr

/-- `_get`, up to the request. -/
def PyPIClient.get (client : PyPIClient) (url : String) : Requested :=
  match client.hostOf url with
  | none => .raised .pypiProtocolError
  | some host =>
      match client.acquire host with
      | none => .raised .keyError
      | some false => .raised .pypiRateLimited
      | some true => .requests url

/-- `fetch_project`, up to its request. -/
def PyPIClient.fetchProject (client : PyPIClient) (w : WordChars) (name : List CodePoint) :
    Requested :=
  match percentEncode (normalizeProjectName w name) with
  | none => .raised .unicodeEncodeError
  | some path => client.get (client.indexUrl ++ (path ++ "/"))

/-! ## Segments -/

/-- The value of a hexadecimal digit as `%02X` writes it. -/
def hexValue (c : Char) : Option ℕ := "0123456789ABCDEF".toList.idxOf? c

/-- Only unreserved characters and `%XX` triplets. -/
def isSegment : List Char → Bool
  | [] => true
  | c :: cs =>
      if c = '%' then
        match cs with
        | a :: b :: rest => (hexValue a).isSome && (hexValue b).isSome && isSegment rest
        | _ => false
      else c ∈ urlUnreserved && isSegment cs

/-- The bytes a segment stands for. -/
def percentDecode : List Char → List UInt8
  | [] => []
  | c :: cs =>
      if c = '%' then
        match cs with
        | a :: b :: rest =>
            UInt8.ofNat (16 * (hexValue a).getD 0 + (hexValue b).getD 0) :: percentDecode rest
        | _ => []
      else UInt8.ofNat c.toNat :: percentDecode cs

/-- The UTF-8 of a string, when it has one. -/
def utf8 (value : List CodePoint) : Option (List UInt8) :=
  (toChars value).map fun cs => (String.ofList cs).toUTF8.toList

/-- A segment that stays below the index and says which project it is of. -/
structure Segment (w : WordChars) (name : List CodePoint) (seg : String) : Prop where
  wellFormed : isSegment seg.toList = true
  ne_dot : seg ≠ "."
  ne_dots : seg ≠ ".."
  decodes : some (percentDecode seg.toList) = utf8 (normalizeProjectName w name)

/-- What becomes of the name: an error of the client's own, or a request for a segment of
the index, which no name with another normal form gets. -/
structure SafeUrl (client : PyPIClient) (w : WordChars) (name : List CodePoint) : Prop where
  request : (∃ e, client.fetchProject w name = .raised e ∧ e.IsPyPIError) ∨
    ∃ seg, client.fetchProject w name = .requests (client.indexUrl ++ (seg ++ "/")) ∧
      Segment w name seg
  injective : ∀ name' seg, percentEncode (normalizeProjectName w name) = some seg →
    percentEncode (normalizeProjectName w name') = some seg →
      normalizeProjectName w name = normalizeProjectName w name'
  idempotent : normalizeProjectName w (normalizeProjectName w name) = normalizeProjectName w name

/-! ## Bytes -/

/-- What `percentEncode` writes for a byte. -/
def encodeByte (byte : UInt8) : List Char :=
  if Char.ofNat byte.toNat ∈ urlUnreserved then [Char.ofNat byte.toNat] else '%' :: hexByte byte

theorem unreserved_byte : ∀ n < 256, Char.ofNat n ∈ urlUnreserved →
    Char.ofNat n ≠ '%' ∧ (Char.ofNat n).toNat = n := by
  have hpercent : '%' ∉ urlUnreserved := by decide
  intro n hn hmem
  exact ⟨fun h => hpercent (h ▸ hmem), toNat_ofNat_of_isValidChar (Or.inl (by omega))⟩

theorem hexValue_hexByte : ∀ n < 256,
    (hexByte (UInt8.ofNat n)).map hexValue = [some (n / 16), some (n % 16)] := by
  decide +kernel

theorem isSegment_cons_of_ne {c : Char} (hc : c ≠ '%') (cs : List Char) :
    isSegment (c :: cs) = (decide (c ∈ urlUnreserved) && isSegment cs) := by
  rw [isSegment.eq_def]
  exact if_neg hc

theorem percentDecode_cons_of_ne {c : Char} (hc : c ≠ '%') (cs : List Char) :
    percentDecode (c :: cs) = UInt8.ofNat c.toNat :: percentDecode cs := by
  rw [percentDecode.eq_def]
  exact if_neg hc

/-- A byte is written as a piece of a segment that stands for it. -/
theorem segment_encodeByte (byte : UInt8) (rest : List Char) :
    isSegment (encodeByte byte ++ rest) = isSegment rest ∧
      percentDecode (encodeByte byte ++ rest) = byte :: percentDecode rest := by
  rw [encodeByte]
  split
  · rename_i hunreserved
    obtain ⟨hpercent, hcode⟩ := unreserved_byte byte.toNat byte.toNat_lt hunreserved
    rw [List.cons_append, List.nil_append, isSegment_cons_of_ne hpercent,
      percentDecode_cons_of_ne hpercent, decide_eq_true hunreserved, Bool.true_and, hcode,
      UInt8.ofNat_toNat]
    exact ⟨rfl, rfl⟩
  · have hhex := hexValue_hexByte byte.toNat byte.toNat_lt
    rw [UInt8.ofNat_toNat] at hhex
    obtain ⟨a, tail, hdigits, ha, htail⟩ := List.map_eq_cons_iff.mp hhex
    obtain ⟨b, tail, rfl, hb, hnil⟩ := List.map_eq_cons_iff.mp htail
    obtain rfl := List.map_eq_nil_iff.mp hnil
    have hsum : 16 * (byte.toNat / 16) + byte.toNat % 16 = byte.toNat := Nat.div_add_mod _ _
    rw [hdigits, List.cons_append, List.cons_append, List.cons_append, List.nil_append, isSegment,
      percentDecode, if_pos rfl, if_pos rfl, ha, hb, Option.getD_some, Option.getD_some, hsum,
      UInt8.ofNat_toNat]
    exact ⟨rfl, rfl⟩

theorem segment_encodeBytes (bytes : List UInt8) :
    isSegment (bytes.flatMap encodeByte) = true ∧
      percentDecode (bytes.flatMap encodeByte) = bytes := by
  induction bytes with
  | nil => exact ⟨rfl, rfl⟩
  | cons byte bytes ih =>
      obtain ⟨hsegment, hdecode⟩ := segment_encodeByte byte (bytes.flatMap encodeByte)
      rw [List.flatMap_cons, hsegment, hdecode, ih.2]
      exact ⟨ih.1, rfl⟩

theorem toList_percentEncode (value : String) :
    (Ingest.percentEncode value).toList = value.toUTF8.toList.flatMap encodeByte :=
  String.toList_ofList

theorem toList_loop (bytes : ByteArray) (i : ℕ) (seen : List UInt8) :
    ByteArray.toList.loop bytes i seen = seen.reverse ++ bytes.data.toList.drop i := by
  rw [ByteArray.toList.loop]
  split
  · rename_i hlt
    have hlength : i < bytes.data.toList.length := by simpa using hlt
    have hget : bytes.get! i = bytes.data.toList[i] := getElem!_pos bytes.data i hlt
    rw [toList_loop bytes (i + 1), List.reverse_cons, hget, List.append_assoc,
      List.singleton_append, List.getElem_cons_drop]
  · rename_i hge
    rw [List.drop_eq_nil_of_le (by simpa using hge), List.append_nil]
termination_by bytes.size - i

/-- Two strings of one UTF-8 are the same. -/
theorem toUTF8_toList_injective {s t : String} (h : s.toUTF8.toList = t.toUTF8.toList) : s = t := by
  rw [ByteArray.toList, ByteArray.toList, toList_loop, toList_loop] at h
  refine String.toByteArray_inj.mp (ByteArray.ext (Array.toList_inj.mp ?_))
  exact h

/-! ## Encodings -/

theorem toChars_eq_none_iff {value : List CodePoint} :
    toChars value = none ↔ ∃ n, .surrogate n ∈ value := by
  induction value with
  | nil => simp [toChars]
  | cons c value ih =>
      cases c with
      | surrogate n =>
          rw [toChars]
          exact iff_of_true rfl ⟨n, List.mem_cons_self⟩
      | char c => simp [toChars, ih]

theorem toChars_eq_some_iff {value : List CodePoint} {cs : List Char} :
    toChars value = some cs ↔ value = cs.map .char := by
  induction value generalizing cs with
  | nil => simp [toChars, eq_comm]
  | cons c value ih =>
      cases c with
      | surrogate n =>
          rw [toChars]
          refine iff_of_false (by simp) fun heq => ?_
          obtain ⟨c, -, hc⟩ := List.mem_map.mp (heq ▸ List.mem_cons_self)
          cases hc
      | char c =>
          rw [toChars, Option.map_eq_some_iff]
          cases cs with
          | nil => simp
          | cons c' cs => simp [ih, and_comm]

theorem percentEncode_eq_some {value : List CodePoint} {seg : String}
    (h : percentEncode value = some seg) :
    isSegment seg.toList = true ∧ some (percentDecode seg.toList) = utf8 value := by
  obtain ⟨cs, hcs, rfl⟩ := Option.map_eq_some_iff.mp h
  obtain ⟨hsegment, hdecode⟩ := segment_encodeBytes (String.ofList cs).toUTF8.toList
  rw [toList_percentEncode, utf8, hcs, hdecode]
  exact ⟨hsegment, rfl⟩

/-- Strings of one UTF-8 are the same. -/
theorem eq_of_utf8_eq {value value' : List CodePoint} {bytes : List UInt8}
    (h : utf8 value = some bytes) (h' : utf8 value' = some bytes) : value = value' := by
  obtain ⟨cs, hcs, rfl⟩ := Option.map_eq_some_iff.mp h
  obtain ⟨cs', hcs', heq⟩ := Option.map_eq_some_iff.mp h'
  rw [toChars_eq_some_iff.mp hcs, toChars_eq_some_iff.mp hcs',
    String.ofList_injective (toUTF8_toList_injective heq)]

/-! ## Normal forms -/

/-- No separator but single hyphens, none of them at the start when `inRun` is set. -/
def Collapsed : Bool → List CodePoint → Prop
  | _, [] => True
  | inRun, .char c :: cs =>
      if isSeparator c then c = '-' ∧ inRun = false ∧ Collapsed true cs else Collapsed false cs
  | _, .surrogate _ :: cs => Collapsed false cs

theorem collapsed_collapseSeparators (inRun : Bool) (name : List CodePoint) :
    Collapsed inRun (collapseSeparators inRun name) := by
  induction name generalizing inRun with
  | nil => trivial
  | cons c name ih =>
      cases c with
      | surrogate n => exact ih false
      | char c =>
          rw [collapseSeparators]
          by_cases hc : isSeparator c = true
          · rw [if_pos hc]
            cases inRun with
            | true => exact ih true
            | false => exact ⟨rfl, rfl, ih true⟩
          · rw [if_neg hc, Collapsed, if_neg hc]
            exact ih false

theorem collapseSeparators_of_collapsed {inRun : Bool} {name : List CodePoint}
    (h : Collapsed inRun name) : collapseSeparators inRun name = name := by
  induction name generalizing inRun with
  | nil => rfl
  | cons c name ih =>
      cases c with
      | surrogate n => rw [collapseSeparators, ih h]
      | char c =>
          rw [Collapsed] at h
          rw [collapseSeparators]
          split at h
          · rename_i hc
            obtain ⟨rfl, rfl, htail⟩ := h
            rw [if_pos hc, ih htail]
            rfl
          · rename_i hc
            rw [if_neg hc, ih h]

/-- Code points that are no separators start no run and go on with none. -/
theorem collapsed_append_iff {inRun : Bool} {cs : List CodePoint} (hne : cs ≠ [])
    (hcs : ∀ c, .char c ∈ cs → isSeparator c = false) (rest : List CodePoint) :
    Collapsed inRun (cs ++ rest) ↔ Collapsed false rest := by
  induction cs generalizing inRun with
  | nil => exact absurd rfl hne
  | cons c cs ih =>
      have hhead : Collapsed inRun (c :: (cs ++ rest)) ↔ Collapsed false (cs ++ rest) := by
        cases c with
        | surrogate n => exact Iff.rfl
        | char c => rw [Collapsed, hcs c List.mem_cons_self, if_neg Bool.false_ne_true]
      rw [List.cons_append, hhead]
      cases hnil : cs with
      | nil => exact Iff.rfl
      | cons c' cs' =>
          rw [← hnil]
          exact ih (by simp [hnil]) fun c hc => hcs c (List.mem_cons_of_mem _ hc)

theorem isSeparator_iff {c : Char} : isSeparator c = true ↔ c ∈ ['-', '.', '_'] := by
  simp only [isSeparator, List.mem_cons, List.not_mem_nil, or_false, Bool.decide_or,
    Bool.or_eq_true, decide_eq_true_eq]
  exact or_congr_right or_comm

variable {w : WordChars} {name : List CodePoint}

/-- Lower case makes no separators. -/
theorem collapsed_lowerFrom {inRun : Bool} (before : List CodePoint)
    (h : Collapsed inRun name) : Collapsed inRun (lowerFrom w before name) := by
  induction name generalizing inRun before with
  | nil => trivial
  | cons c name ih =>
      have hother : ∀ hc : ∀ s ∈ ['-', '.', '_'], c ≠ .char s, Collapsed false name →
          Collapsed inRun (lowerFrom w before (c :: name)) := by
        intro hc hname
        refine (collapsed_append_iff (lowerPoint_ne_nil _ c) ?_ _).mpr (ih _ hname)
        intro s hs
        by_contra hseparator
        have hmem := isSeparator_iff.mp (by simpa using hseparator)
        exact hc s hmem ((mem_lowerPoint_iff hmem).mp hs)
      cases c with
      | surrogate n => exact hother (fun s _ => by simp) h
      | char c =>
          rw [Collapsed] at h
          split at h
          · rename_i hc
            obtain ⟨rfl, rfl, htail⟩ := h
            have hhyphen : ∀ final, lowerPoint final (.char '-') = [.char '-'] := by decide +kernel
            rw [lowerFrom, hhyphen]
            exact ⟨rfl, rfl, ih _ htail⟩
          · rename_i hc
            refine hother (fun s hs heq => hc (isSeparator_iff.mpr ?_)) h
            exact CodePoint.char.inj heq ▸ hs

theorem collapsed_normalizeProjectName : Collapsed false (normalizeProjectName w name) :=
  collapsed_lowerFrom [] (collapsed_collapseSeparators false name)

/-- Normalization is idempotent. -/
theorem normalizeProjectName_idem :
    normalizeProjectName w (normalizeProjectName w name) = normalizeProjectName w name := by
  rw [normalizeProjectName, collapseSeparators_of_collapsed collapsed_normalizeProjectName]
  exact lower_lower w _

theorem dot_not_mem_of_collapsed {inRun : Bool} (h : Collapsed inRun name) :
    .char '.' ∉ name := by
  induction name generalizing inRun with
  | nil => exact List.not_mem_nil
  | cons c name ih =>
      rw [List.mem_cons, not_or]
      cases c with
      | surrogate n => exact ⟨by simp, ih h⟩
      | char c =>
          rw [Collapsed] at h
          split at h
          · obtain ⟨rfl, -, htail⟩ := h
            exact ⟨by simp, ih htail⟩
          · rename_i hc
            refine ⟨fun heq => hc ?_, ih h⟩
            rw [← CodePoint.char.inj heq]
            rfl

theorem surrogate_mem_collapseSeparators_iff {inRun : Bool} {n : Fin 0x800} :
    .surrogate n ∈ collapseSeparators inRun name ↔ .surrogate n ∈ name := by
  induction name generalizing inRun with
  | nil => exact Iff.rfl
  | cons c name ih =>
      cases c with
      | surrogate m => rw [collapseSeparators, List.mem_cons, List.mem_cons, ih]
      | char c =>
          rw [collapseSeparators]
          split
          · split
            · simp [ih]
            · simp [ih]
          · simp [ih]

theorem surrogate_mem_normalizeProjectName_iff {n : Fin 0x800} :
    .surrogate n ∈ normalizeProjectName w name ↔ .surrogate n ∈ name := by
  rw [normalizeProjectName, lower, surrogate_mem_lowerFrom_iff,
    surrogate_mem_collapseSeparators_iff]

/-- A normal form is no path to anywhere else. -/
theorem ne_dots_of_percentEncode {seg : String}
    (h : percentEncode (normalizeProjectName w name) = some seg) : seg ≠ "." ∧ seg ≠ ".." := by
  have hutf8 := (percentEncode_eq_some h).2
  have hcollapsed : Collapsed false (normalizeProjectName w name) :=
    collapsed_normalizeProjectName
  have hdot := dot_not_mem_of_collapsed hcollapsed
  constructor
  · rintro rfl
    have hbytes : utf8 [.char '.'] = some (percentDecode ".".toList) := by decide +kernel
    rw [eq_of_utf8_eq hutf8.symm hbytes] at hdot
    exact hdot (by simp)
  · rintro rfl
    have hbytes : utf8 [.char '.', .char '.'] = some (percentDecode "..".toList) := by
      decide +kernel
    rw [eq_of_utf8_eq hutf8.symm hbytes] at hdot
    exact hdot (by simp)

/-! ## Safe names -/

theorem segment_of_percentEncode {seg : String}
    (h : percentEncode (normalizeProjectName w name) = some seg) : Segment w name seg :=
  ⟨(percentEncode_eq_some h).1, (ne_dots_of_percentEncode h).1, (ne_dots_of_percentEncode h).2,
    (percentEncode_eq_some h).2⟩

/-- A segment below the index is requested, or refused with an error of the client. -/
theorem get_cases (client : PyPIClient) (path : String) :
    (∃ e, client.get (client.indexUrl ++ path) = .raised e ∧ e.IsPyPIError) ∨
      client.get (client.indexUrl ++ path) = .requests (client.indexUrl ++ path) := by
  rw [PyPIClient.get]
  cases hhost : client.hostOf (client.indexUrl ++ path) with
  | none => exact Or.inl ⟨_, rfl, trivial⟩
  | some host =>
      cases hacquire : client.acquire host with
      | none => exact absurd hacquire (client.configured path host hhost)
      | some acquired =>
          cases acquired with
          | false => exact Or.inl ⟨.pypiRateLimited, by simp only [hacquire], trivial⟩
          | true => exact Or.inr (by simp only [hacquire])

/-- The URL of a name is safe exactly when no surrogate is in the name. -/
theorem safeUrl_iff (client : PyPIClient) (w : WordChars) (name : List CodePoint) :
    SafeUrl client w name ↔ ∀ n, .surrogate n ∉ name := by
  have hinjective : ∀ name' seg, percentEncode (normalizeProjectName w name) = some seg →
      percentEncode (normalizeProjectName w name') = some seg →
        normalizeProjectName w name = normalizeProjectName w name' :=
    fun _ _ h h' => eq_of_utf8_eq (percentEncode_eq_some h).2.symm (percentEncode_eq_some h').2.symm
  cases hpath : percentEncode (normalizeProjectName w name) with
  | none =>
      have hnone : toChars (normalizeProjectName w name) = none := Option.map_eq_none_iff.mp hpath
      obtain ⟨n, hn⟩ := toChars_eq_none_iff.mp hnone
      refine iff_of_false (fun h => ?_)
        fun h => h n (surrogate_mem_normalizeProjectName_iff.mp hn)
      have hraised : client.fetchProject w name = .raised .unicodeEncodeError := by
        rw [PyPIClient.fetchProject, hpath]
      rcases h.request with ⟨e, he, hpypi⟩ | ⟨seg, hseg, -⟩
      · rw [hraised] at he
        rw [← Requested.raised.inj he] at hpypi
        exact hpypi
      · rw [hraised] at hseg
        cases hseg
  | some seg =>
      have hget : client.fetchProject w name = client.get (client.indexUrl ++ (seg ++ "/")) := by
        rw [PyPIClient.fetchProject, hpath]
      refine iff_of_true ⟨?_, hpath ▸ hinjective, normalizeProjectName_idem⟩ fun n hn => ?_
      · rw [hget]
        refine (get_cases client (seg ++ "/")).imp_right fun hrequest => ?_
        exact ⟨seg, hrequest, segment_of_percentEncode hpath⟩
      · have hnone := toChars_eq_none_iff.mpr
          ⟨n, (surrogate_mem_normalizeProjectName_iff (w := w)).mpr hn⟩
        rw [percentEncode, hnone] at hpath
        cases hpath

/-- The index of PyPI, to a limiter that admits every request. -/
def pypi : PyPIClient where
  indexUrl := "https://pypi.org/simple/"
  hostOf := fun _ => some "pypi.org"
  acquire := fun _ => some true
  configured := fun _ _ _ => Option.some_ne_none _

/-- A name of one lone surrogate. -/
theorem loneSurrogate_unsafe :
    ¬SafeUrl pypi ⟨fun _ => true, fun _ => false⟩ [.surrogate 0] := by
  intro h
  rcases h.request with ⟨e, he, hpypi⟩ | ⟨seg, hseg, -⟩
  · have hraised : Requested.raised .unicodeEncodeError = .raised e := he
    rw [← Requested.raised.inj hraised] at hpypi
    exact hpypi
  · have hraised : Requested.raised .unicodeEncodeError = .requests _ := hseg
    cases hraised

end RerollSync.Client
