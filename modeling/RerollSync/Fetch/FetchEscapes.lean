import RerollSync.Fetch.FetchOne

/-!
# What escapes from a fetch

The exceptions that no clause of `fetch_one` names, and when they are raised.  A wheel is
classified unless one of them is met, or its host is none that the limiter knows; what is
handed on as fetched always has the hash it is handed on with, and the one published.
-/

namespace RerollSync.Fetch

open RerollSync.Support RerollSync.Store RerollSync.Client

/-! ## What no clause names -/

section Escapes

variable (w : World)

/-- `_parse_retry_after` returns. -/
def HeaderParses (r : Response) : Prop :=
  ∀ cs, r.retryAfter = some cs → cs ≠ [] → pyFloat w.unicode cs = none →
    ¬DateOverflows w.unicode cs

/-- A response that says that its client is throttled. -/
def Throttled (r : Response) : Prop :=
  r.status = 429 ∨ r.status = 403 ∧ r.failure = none ∧
    ∃ text, r.text r.chunks.flatten = some text ∧
      World.rateLimitText <:+: lowerChars w.unicode text

/-- The lookup raises. -/
inductive BridgeEscapes : Option String → Prop
  | homeless {metadataSha256} (h : w.bridge = .homeless) : BridgeEscapes metadataSha256
  | unreadable {sha256} (h : w.bridge = .unreadable) : BridgeEscapes (some sha256)
  | query {select sha256} (h : w.bridge = .opened select) (hquery : select sha256 = .raises) :
      BridgeEscapes (some sha256)
  | notBytes {select sha256} (h : w.bridge = .opened select)
      (hrow : select sha256 = .row .other) : BridgeEscapes (some sha256)
  | notCompressed {select sha256 zBody} (h : w.bridge = .opened select)
      (hrow : select sha256 = .row (.blob zBody)) (hbody : w.decompress zBody = none) :
      BridgeEscapes (some sha256)

/-- A response whose reading raises what is no `HTTPError` and no `PyPIError`. -/
inductive ResponseEscapes (r : Response) : Prop
  | closing {e} (h : r.closing = some e) (he : ¬e.IsHTTPError)
  | body {e} (h : r.closing = none) (hpasses : r.Passes)
      (hlength : r.chunks.flatten.length ≤ World.maxMetadataBytes) (hfailure : r.failure = some e)
      (he : ¬e.IsHTTPError)
  | errorBody {e} (h : r.closing = none) (hstatus : r.status = 403)
      (hfailure : r.failure = some e) (he : ¬e.IsHTTPError)
  | text (h : r.closing = none) (hstatus : r.status = 403) (hfailure : r.failure = none)
      (htext : r.text r.chunks.flatten = none)
  | header (h : r.closing = none) (hthrottled : Throttled w r) (hheader : ¬HeaderParses w r)

/-- An exchange that ends so. -/
inductive ExchangeEscapes (url : String) : Prop
  | failed {e} (h : w.stream url = .failed e) (he : ¬e.IsHTTPError)
  | response {r} (h : w.stream url = .answered r) (hr : ResponseEscapes w r)

variable (wheel : FetchItem)

/-- The wheel is one to fetch, and the bridge has no sidecar of it. -/
def Requested : Prop :=
  ¬wheel.NoMetadata ∧ w.bridgeLookup wheel.metadataSha256 = .ok none

/-- The exceptions that no clause of `fetch_one` names and that the limiter has no part in. -/
inductive Missed : Prop
  | bridge (hclaimed : ¬wheel.NoMetadata) (h : BridgeEscapes w wheel.metadataSha256)
  | host (hrequested : Requested w wheel) (h : w.urlHost wheel.sidecarUrl = .error .idnaError)
  | exchange {host} (hrequested : Requested w wheel) (hhost : w.urlHost wheel.sidecarUrl = .ok host)
      (hacquire : w.acquire host = some true) (h : ExchangeEscapes w wheel.sidecarUrl)

/-- The wheel is to be fetched from a host that the limiter does not know. -/
def Unconfigured : Prop :=
  Requested w wheel ∧ ∃ host, w.urlHost wheel.sidecarUrl = .ok host ∧ w.acquire host = none

end Escapes

/-! ## The bridge -/

namespace World

variable {w : World}

theorem bridgeLookup_ok_iff {metadataSha256 : Option String} :
    (∃ found, w.bridgeLookup metadataSha256 = .ok found) ↔ ¬BridgeEscapes w metadataSha256 := by
  unfold bridgeLookup
  constructor
  · rintro ⟨found, hfound⟩ hescapes
    cases hescapes with
    | homeless h => simp [h] at hfound
    | unreadable h => simp [h] at hfound
    | query h hquery => simp [h, hquery] at hfound
    | notBytes h hrow => simp [h, hrow] at hfound
    | notCompressed h hrow hbody => simp [h, hrow, hbody] at hfound
  · intro hescapes
    cases hbridge : w.bridge with
    | homeless => exact absurd (.homeless hbridge) hescapes
    | unset => cases metadataSha256 <;> exact ⟨_, rfl⟩
    | absent => cases metadataSha256 <;> exact ⟨_, rfl⟩
    | refused => cases metadataSha256 <;> exact ⟨_, rfl⟩
    | unreadable =>
        cases metadataSha256 with
        | none => exact ⟨_, rfl⟩
        | some sha256 => exact absurd (.unreadable hbridge) hescapes
    | opened select =>
        cases metadataSha256 with
        | none => exact ⟨_, rfl⟩
        | some sha256 =>
            simp only
            cases hselect : select sha256 with
            | raises => exact absurd (.query hbridge hselect) hescapes
            | missing => exact ⟨_, rfl⟩
            | row zBody =>
                cases zBody with
                | other => exact absurd (.notBytes hbridge hselect) hescapes
                | blob zBody =>
                    cases hbody : w.decompress zBody with
                    | none => exact absurd (.notCompressed hbridge hselect hbody) hescapes
                    | some data => exact ⟨_, by simp only [hbody]; rfl⟩

/-- The bridge has only what was published. -/
theorem hexdigest_of_bridgeLookup {metadataSha256 : Option String} {data : Bytes}
    (h : w.bridgeLookup metadataSha256 = .ok (some data)) :
    metadataSha256 = some (w.hexdigest data) := by
  unfold bridgeLookup at h
  split at h
  any_goals cases h
  next sha256 _ =>
    split at h
    any_goals cases h
    split at h
    · cases h
    · rename_i found _
      by_cases hsha : w.hexdigest found = sha256
      · simp only [hsha, ne_eq, not_true, if_false, Except.ok.injEq, Option.some.injEq] at h
        rw [← h, hsha]
      · simp [hsha] at h

/-! ## The client -/

/-- What the `try` of `fetch_metadata` and the clauses of its caller take care of. -/
def Handled (e : Raised) : Prop := e.asTransient.IsPyPIError

theorem handled_httpx_iff {e : HttpxError} : Handled (.httpx e) ↔ e.IsHTTPError := by
  cases e <;> rfl

theorem handled_of_isPyPIError {e : PyPIError} : Handled (.pypi e) := trivial

theorem handled_rateLimited_iff {r : Response} : Handled (w.rateLimited r) ↔ HeaderParses w r := by
  rw [HeaderParses, rateLimited]
  cases hparse : parseRetryAfter w.unicode r.retryAfter w.now with
  | ok retryAfter => exact iff_of_true trivial (parseRetryAfter_ok_iff.mp ⟨_, hparse⟩)
  | error e =>
      refine iff_of_false (fun h => h) fun hparses => ?_
      obtain ⟨retryAfter, hok⟩ := parseRetryAfter_ok_iff.mpr hparses
      rw [hparse] at hok
      cases hok

/-- The chunks are read to their end unless they are too many. -/
theorem download_eq {url : String} {failure : Option HttpxError} {content : Bytes}
    {chunks : List Bytes} (hcontent : content.length ≤ maxMetadataBytes) :
    download url failure content chunks =
      if maxMetadataBytes < (content ++ chunks.flatten).length then .error (oversized url)
      else match failure with
        | some e => .error (.httpx e)
        | none => .ok (content ++ chunks.flatten) := by
  induction chunks generalizing content with
  | nil =>
      rw [List.flatten_nil, List.append_nil, if_neg (not_lt.mpr hcontent)]
      cases failure <;> rfl
  | cons chunk chunks ih =>
      rw [download]
      split
      next hlarge =>
        rw [if_pos]
        rw [List.flatten_cons, ← List.append_assoc, List.length_append]
        exact Nat.lt_add_right _ hlarge
      next hsmall =>
        rw [ih (not_lt.mp hsmall), List.flatten_cons, ← List.append_assoc]

theorem onlyRaises_download_iff {url : String} {failure : Option HttpxError}
    {chunks : List Bytes} :
    OnlyRaises Handled (download url failure [] chunks) ↔
      (chunks.flatten.length ≤ maxMetadataBytes → ∀ e, failure = some e → e.IsHTTPError) := by
  rw [download_eq (Nat.zero_le _), List.nil_append]
  split
  next hlarge =>
    simp only [onlyRaises_error]
    exact iff_of_true handled_of_isPyPIError fun hsmall => absurd hlarge (not_lt.mpr hsmall)
  next hsmall =>
    cases failure with
    | none => simp
    | some e =>
        rw [onlyRaises_error, handled_httpx_iff]
        simp only [not_lt.mp hsmall, Option.some.injEq, forall_eq', forall_const]

theorem isThrottled_cases (w : World) (r : Response) :
    (Throttled w r ∧ w.isThrottled r = .ok true) ∨
    (¬Throttled w r ∧ (r.status = 403 → r.failure = none ∧ r.text r.chunks.flatten ≠ none) ∧
      w.isThrottled r = .ok false) ∨
    (∃ e, r.status = 403 ∧ r.failure = some e ∧ w.isThrottled r = .error (.httpx e)) ∨
    (r.status = 403 ∧ r.failure = none ∧ r.text r.chunks.flatten = none ∧
      w.isThrottled r = .error .codecError) := by
  unfold isThrottled Throttled
  by_cases hmany : r.status = 429
  · exact .inl ⟨.inl hmany, if_pos hmany⟩
  · by_cases hforbidden : r.status = 403
    · simp only [hforbidden, isRateLimitedBody]
      cases hfailure : r.failure with
      | some e => simp
      | none =>
          cases htext : r.text r.chunks.flatten with
          | none => simp
          | some text =>
              by_cases hlimit : rateLimitText <:+: lowerChars w.unicode text
              · simp [hlimit]
              · simp [hlimit]
    · simp [hmany, hforbidden]

/-- The body of a throttled request was read, if its status says nothing. -/
theorem read_of_throttled {r : Response} (h : Throttled w r) (hstatus : r.status = 403) :
    r.failure = none ∧ r.text r.chunks.flatten ≠ none := by
  rcases h with hmany | ⟨-, hfailure, text, htext, -⟩
  · omega
  · exact ⟨hfailure, by simp [htext]⟩

theorem not_passes_of_throttled {r : Response} (h : Throttled w r) : ¬r.Passes := by
  rw [Response.Passes]
  rcases h with hmany | ⟨hforbidden, -⟩
  · omega
  · omega

/-- What `_check_status` does with a response that does not pass. -/
theorem checkStatus_cases {r : Response} (h : ¬r.Passes) :
    (Throttled w r ∧ w.checkStatus r = .error (w.rateLimited r)) ∨
    (¬Throttled w r ∧ (r.status = 403 → r.failure = none ∧ r.text r.chunks.flatten ≠ none) ∧
      ∃ e, w.checkStatus r = .error (.pypi e)) ∨
    (∃ e, r.status = 403 ∧ r.failure = some e ∧ w.checkStatus r = .error (.httpx e)) ∨
    (r.status = 403 ∧ r.failure = none ∧ r.text r.chunks.flatten = none ∧
      w.checkStatus r = .error .codecError) := by
  have hcheck := checkStatus.eq_1 w r
  rw [if_neg h] at hcheck
  by_cases hgone : r.status = 404 ∨ r.status = 410
  · refine .inr (.inl ⟨?_, by omega, _, hcheck.trans (if_pos hgone)⟩)
    rintro (hmany | ⟨hforbidden, -⟩)
    · omega
    · omega
  · rw [if_neg hgone] at hcheck
    rcases isThrottled_cases w r with ⟨hlimited, hthrottled⟩ | ⟨hlimited, hread, hthrottled⟩ |
      ⟨e, hstatus, hfailure, hthrottled⟩ | ⟨hstatus, hfailure, htext, hthrottled⟩
    · rw [hthrottled] at hcheck
      exact .inl ⟨hlimited, hcheck⟩
    · rw [hthrottled] at hcheck
      refine .inr (.inl ⟨hlimited, hread, ?_⟩)
      by_cases hserver : 500 ≤ r.status ∧ r.status < 600
      · exact ⟨_, hcheck.trans (if_pos hserver)⟩
      · exact ⟨_, hcheck.trans (if_neg hserver)⟩
    · rw [hthrottled] at hcheck
      exact .inr (.inr (.inl ⟨e, hstatus, hfailure, hcheck⟩))
    · rw [hthrottled] at hcheck
      exact .inr (.inr (.inr ⟨hstatus, hfailure, htext, hcheck⟩))

theorem readResponse_of_passes {url : String} {r : Response} (hclosing : r.closing = none)
    (h : r.Passes) : w.readResponse url r = download url r.failure [] r.chunks := by
  have hcheck : w.checkStatus r = .ok () := if_pos h
  simp only [readResponse, hclosing, hcheck]
  rfl

theorem readResponse_of_error {url : String} {r : Response} {e : Raised}
    (hclosing : r.closing = none) (h : w.checkStatus r = .error e) :
    w.readResponse url r = .error e := by
  simp only [readResponse, hclosing, h]
  rfl

/-- A response that passes escapes through the end of its body only. -/
theorem responseEscapes_iff_of_passes {r : Response} (hclosing : r.closing = none)
    (hpasses : r.Passes) : ResponseEscapes w r ↔
      r.chunks.flatten.length ≤ maxMetadataBytes ∧ ∃ e, r.failure = some e ∧ ¬e.IsHTTPError := by
  have hstatus : r.status ≠ 403 := by
    rw [Response.Passes] at hpasses
    omega
  constructor
  · intro h
    cases h with
    | closing h => exact absurd (h.symm.trans hclosing) (by simp)
    | body _ _ hlength hfailure he => exact ⟨hlength, _, hfailure, he⟩
    | errorBody _ h403 => exact absurd h403 hstatus
    | text _ h403 => exact absurd h403 hstatus
    | header _ hthrottled => exact absurd hpasses (not_passes_of_throttled hthrottled)
  · rintro ⟨hlength, e, hfailure, he⟩
    exact .body hclosing hpasses hlength hfailure he

/-- Any other response escapes through what `_check_status` reads of it. -/
theorem responseEscapes_iff_of_not_passes {r : Response} (hclosing : r.closing = none)
    (hpasses : ¬r.Passes) : ResponseEscapes w r ↔
      (r.status = 403 ∧ ∃ e, r.failure = some e ∧ ¬e.IsHTTPError) ∨
      (r.status = 403 ∧ r.failure = none ∧ r.text r.chunks.flatten = none) ∨
      (Throttled w r ∧ ¬HeaderParses w r) := by
  constructor
  · intro h
    cases h with
    | closing h => exact absurd (h.symm.trans hclosing) (by simp)
    | body _ h => exact absurd h hpasses
    | errorBody _ h403 hfailure he => exact .inl ⟨h403, _, hfailure, he⟩
    | text _ h403 hfailure htext => exact .inr (.inl ⟨h403, hfailure, htext⟩)
    | header _ hthrottled hheader => exact .inr (.inr ⟨hthrottled, hheader⟩)
  · rintro (⟨h403, e, hfailure, he⟩ | ⟨h403, hfailure, htext⟩ | ⟨hthrottled, hheader⟩)
    · exact .errorBody hclosing h403 hfailure he
    · exact .text hclosing h403 hfailure htext
    · exact .header hclosing hthrottled hheader

/-- One whose body is read where need be escapes through the header only. -/
theorem responseEscapes_iff_of_read {r : Response} (hclosing : r.closing = none)
    (hpasses : ¬r.Passes)
    (hread : r.status = 403 → r.failure = none ∧ r.text r.chunks.flatten ≠ none) :
    ResponseEscapes w r ↔ Throttled w r ∧ ¬HeaderParses w r := by
  rw [responseEscapes_iff_of_not_passes hclosing hpasses]
  constructor
  · rintro (⟨h403, e, hfailure, -⟩ | ⟨h403, -, htext⟩ | hheader)
    · exact absurd ((hread h403).1.symm.trans hfailure) (by simp)
    · exact absurd htext (hread h403).2
    · exact hheader
  · exact fun h => .inr (.inr h)

theorem onlyRaises_readResponse_iff {url : String} {r : Response} :
    OnlyRaises Handled (w.readResponse url r) ↔ ¬ResponseEscapes w r := by
  cases hclosing : r.closing with
  | some e =>
      have hread : w.readResponse url r = .error (.httpx e) := by
        simp only [readResponse, hclosing]
      rw [hread, onlyRaises_error, handled_httpx_iff]
      refine ⟨fun he h => ?_, fun h => by_contra fun he => h (.closing hclosing he)⟩
      cases h with
      | closing h hnot => exact hnot (Option.some.inj (hclosing.symm.trans h) ▸ he)
      | body h => exact absurd (hclosing.symm.trans h) (by simp)
      | errorBody h => exact absurd (hclosing.symm.trans h) (by simp)
      | text h => exact absurd (hclosing.symm.trans h) (by simp)
      | header h => exact absurd (hclosing.symm.trans h) (by simp)
  | none =>
      by_cases hpasses : r.Passes
      · rw [readResponse_of_passes hclosing hpasses, onlyRaises_download_iff,
          responseEscapes_iff_of_passes hclosing hpasses]
        simp only [not_and, not_exists, not_not]
      · rcases checkStatus_cases (w := w) hpasses with ⟨hthrottled, hcheck⟩ |
          ⟨hthrottled, hread, e, hcheck⟩ | ⟨e, h403, hfailure, hcheck⟩ |
          ⟨h403, hfailure, htext, hcheck⟩
        · rw [readResponse_of_error hclosing hcheck, onlyRaises_error, handled_rateLimited_iff,
            responseEscapes_iff_of_read hclosing hpasses (read_of_throttled hthrottled)]
          simp only [hthrottled, true_and, not_not]
        · rw [readResponse_of_error hclosing hcheck, onlyRaises_error,
            responseEscapes_iff_of_read hclosing hpasses hread]
          exact iff_of_true handled_of_isPyPIError fun h => hthrottled h.1
        · rw [readResponse_of_error hclosing hcheck, onlyRaises_error, handled_httpx_iff,
            responseEscapes_iff_of_not_passes hclosing hpasses]
          refine ⟨fun he => ?_, fun h => by_contra fun he => h (.inl ⟨h403, e, hfailure, he⟩)⟩
          rintro (⟨-, e', hfailure', he'⟩ | ⟨-, hnone, -⟩ | ⟨hthrottled, -⟩)
          · exact he' (Option.some.inj (hfailure.symm.trans hfailure') ▸ he)
          · exact absurd (hfailure.symm.trans hnone) (by simp)
          · exact absurd (hfailure.symm.trans (read_of_throttled hthrottled h403).1) (by simp)
        · rw [readResponse_of_error hclosing hcheck, onlyRaises_error]
          exact iff_of_false (fun h => h) fun h => h (.text hclosing h403 hfailure htext)

/-- A request raises errors of the client unless its exchange escapes. -/
theorem onlyRaises_request_iff {url : String} :
    OnlyRaises Raised.IsPyPIError (w.request url) ↔ ¬ExchangeEscapes w url := by
  rw [request, onlyRaises_mapError]
  change OnlyRaises Handled (w.exchange url) ↔ _
  cases hstream : w.stream url with
  | failed e =>
      have hexchange : w.exchange url = .error (.httpx e) := by
        simp only [exchange, hstream]
      rw [hexchange, onlyRaises_error, handled_httpx_iff]
      refine ⟨fun he h => ?_, fun h => by_contra fun he => h (.failed hstream he)⟩
      cases h with
      | failed h hnot => exact hnot (Exchange.failed.inj (hstream.symm.trans h) ▸ he)
      | response h => exact absurd (hstream.symm.trans h) (by simp)
  | answered r =>
      have hexchange : w.exchange url = w.readResponse url r := by
        simp only [exchange, hstream]
      rw [hexchange, onlyRaises_readResponse_iff]
      refine ⟨fun hr h => ?_, fun h hr => h (.response hstream hr)⟩
      cases h with
      | failed h => exact absurd (hstream.symm.trans h) (by simp)
      | response h hescapes => exact hr (Exchange.answered.inj (hstream.symm.trans h) ▸ hescapes)

theorem asTransient_ne_keyError {e : Raised} (h : e ≠ .keyError) : e.asTransient ≠ .keyError := by
  cases e with
  | keyError => exact absurd rfl h
  | httpx e => cases e <;> simp [Raised.asTransient]
  | _ => simp [Raised.asTransient]

theorem readResponse_ne_keyError {url : String} {r : Response} :
    OnlyRaises (· ≠ .keyError) (w.readResponse url r) := by
  cases hclosing : r.closing with
  | some e => simp [readResponse, hclosing]
  | none =>
      by_cases hpasses : r.Passes
      · rw [readResponse_of_passes hclosing hpasses, download_eq (Nat.zero_le _)]
        split
        next => simp [oversized]
        next => cases r.failure <;> simp
      · rcases checkStatus_cases (w := w) hpasses with ⟨-, hcheck⟩ | ⟨-, -, e, hcheck⟩ |
          ⟨e, -, -, hcheck⟩ | ⟨-, -, -, hcheck⟩
        · rw [readResponse_of_error hclosing hcheck, onlyRaises_error, rateLimited]
          split <;> simp
        · simp [readResponse_of_error hclosing hcheck]
        · simp [readResponse_of_error hclosing hcheck]
        · simp [readResponse_of_error hclosing hcheck]

theorem request_ne_keyError {url : String} : OnlyRaises (· ≠ .keyError) (w.request url) := by
  rw [request, onlyRaises_mapError]
  intro e he
  refine asTransient_ne_keyError ?_
  rw [exchange] at he
  split at he
  · rw [← Except.error.inj he]
    simp
  · exact readResponse_ne_keyError e he

theorem onlyRaises_verify {expectedSha256 : Option String} {data : Bytes} :
    OnlyRaises Raised.IsPyPIError (w.verify expectedSha256 data) := by
  unfold verify
  split
  · simp
  · split
    · simp [Raised.IsPyPIError]
    · simp

/-- What is downloaded has the hash that was published. -/
theorem hexdigest_of_verify {expectedSha256 : Option String} {data data' : Bytes}
    (h : w.verify expectedSha256 data = .ok data') :
    ∀ published ∈ expectedSha256, w.hexdigest data' = published := by
  rintro published ⟨⟩
  simp only [verify] at h
  split at h
  · cases h
  next hsha =>
    rw [← Except.ok.inj h]
    exact not_not.mp hsha

section Metadata

variable {url host : String} {expectedSha256 : Option String}

theorem hostOf_of_urlHost (h : w.urlHost url = .ok host) : w.hostOf url = .ok host := by
  simp only [hostOf, h]

theorem fetchMetadata_of_host (h : w.urlHost url = .ok host) :
    w.fetchMetadata url expectedSha256 =
      match w.acquire host with
      | none => .error .keyError
      | some false => .error (.pypi (.rateLimited none))
      | some true => w.request url >>= w.verify expectedSha256 := by
  rw [fetchMetadata, hostOf_of_urlHost h]
  rfl

theorem onlyRaises_fetchMetadata_iff (h : w.urlHost url = .ok host) :
    OnlyRaises Raised.IsPyPIError (w.fetchMetadata url expectedSha256) ↔
      w.acquire host ≠ none ∧ (w.acquire host = some true → ¬ExchangeEscapes w url) := by
  rw [fetchMetadata_of_host h]
  cases hacquire : w.acquire host with
  | none => simp [Raised.IsPyPIError]
  | some granted =>
      cases granted with
      | false => simp [Raised.IsPyPIError]
      | true => simp [onlyRaises_bind, onlyRaises_verify, onlyRaises_request_iff]

theorem fetchMetadata_eq_keyError_iff (h : w.urlHost url = .ok host) :
    w.fetchMetadata url expectedSha256 = .error .keyError ↔ w.acquire host = none := by
  rw [fetchMetadata_of_host h]
  cases hacquire : w.acquire host with
  | none => simp
  | some granted =>
      cases granted with
      | false => simp
      | true =>
          simp only [reduceCtorEq, iff_false]
          have honly : OnlyRaises (· ≠ .keyError) (w.request url >>= w.verify expectedSha256) := by
            rw [onlyRaises_bind]
            refine ⟨request_ne_keyError, fun data _ e he hkey => ?_⟩
            have hpypi := onlyRaises_verify e he
            rw [hkey] at hpypi
            exact hpypi
          exact fun hkey => honly _ hkey rfl

theorem hexdigest_of_fetchMetadata {data : Bytes}
    (h : w.fetchMetadata url expectedSha256 = .ok data) :
    ∀ published ∈ expectedSha256, w.hexdigest data = published := by
  cases hhost : w.urlHost url with
  | error e => cases e <;> simp [fetchMetadata, hostOf, hhost, bind, Except.bind] at h
  | ok host =>
      rw [fetchMetadata_of_host hhost] at h
      split at h
      any_goals cases h
      cases hrequest : w.request url with
      | error e => simp [hrequest, bind, Except.bind] at h
      | ok found =>
          rw [hrequest] at h
          exact hexdigest_of_verify h

end Metadata

/-! ## The function -/

/-- The clauses let through what is no error of the client. -/
theorem settle_eq_error_iff {url host : String} (hhost : w.hostOf url = .ok host)
    {x : Except Raised Bytes} {e : Raised} :
    w.settle url x = .error e ↔ x = .error e ∧ ¬e.IsPyPIError := by
  cases x with
  | ok data => simp [settle]
  | error e' =>
      cases e' with
      | pypi e' =>
          have hok : ∃ outcome, w.settle url (.error (.pypi e')) = .ok outcome := by
            cases e' with
            | rateLimited retryAfter =>
                exact ⟨.rateLimited ⟨host, retryAfter⟩, by simp only [settle, classify, hhost]; rfl⟩
            | _ => exact ⟨_, rfl⟩
          obtain ⟨outcome, hok⟩ := hok
          rw [hok]
          refine iff_of_false (by simp) ?_
          rintro ⟨⟨⟩, hnot⟩
          exact hnot trivial
      | _ =>
          simp only [settle, classify, Except.error.injEq]
          constructor
          · rintro rfl
            exact ⟨rfl, fun h => h⟩
          · exact And.left

theorem exists_settle_iff {url host : String} (hhost : w.hostOf url = .ok host)
    {x : Except Raised Bytes} :
    (∃ outcome, w.settle url x = .ok outcome) ↔ OnlyRaises Raised.IsPyPIError x := by
  rw [exists_eq_ok_iff]
  refine forall_congr' fun e => ?_
  rw [settle_eq_error_iff hhost]
  tauto

theorem settle_eq_ok_iff {url : String} {x : Except Raised Bytes} {data : Bytes} {sha256 : String} :
    w.settle url x = .ok (.ok data sha256) ↔ x = .ok data ∧ sha256 = w.hexdigest data := by
  cases x with
  | ok data' =>
      simp only [settle, fetchOk, Except.ok.injEq, FetchOutcome.ok.injEq]
      constructor
      · rintro ⟨rfl, rfl⟩
        exact ⟨rfl, rfl⟩
      · rintro ⟨rfl, rfl⟩
        exact ⟨rfl, rfl⟩
  | error e =>
      refine iff_of_false (fun h => ?_) (by simp)
      rw [settle] at h
      cases e with
      | pypi e =>
          cases e with
          | rateLimited retryAfter =>
              cases hhost : w.hostOf url <;> simp [classify, hhost, bind, Except.bind] at h
          | _ => simp [classify] at h
      | _ => simp [classify] at h

variable {wheel : FetchItem}

/-- The ways through `fetch_one`. -/
theorem fetchOne_cases (w : World) (wheel : FetchItem) :
    (wheel.NoMetadata ∧ ∃ reason details, w.fetchOne wheel = .ok (.retry reason details)) ∨
    (¬wheel.NoMetadata ∧ ∃ e, w.bridgeLookup wheel.metadataSha256 = .error e ∧
      w.fetchOne wheel = .error e) ∨
    (¬wheel.NoMetadata ∧ ∃ data, w.bridgeLookup wheel.metadataSha256 = .ok (some data) ∧
      w.fetchOne wheel = .ok (w.fetchOk data)) ∨
    (Requested w wheel ∧ w.fetchOne wheel =
      w.settle wheel.sidecarUrl (w.fetchMetadata wheel.sidecarUrl wheel.metadataSha256)) := by
  by_cases hnone : wheel.NoMetadata
  · exact .inl ⟨hnone, _, _, if_pos hnone⟩
  · have hfetch : w.fetchOne wheel = w.fetchClaimed wheel := if_neg hnone
    refine .inr ?_
    rw [hfetch, fetchClaimed]
    cases hlookup : w.bridgeLookup wheel.metadataSha256 with
    | error e => exact .inl ⟨hnone, e, rfl, rfl⟩
    | ok found =>
        cases found with
        | some data => exact .inr (.inl ⟨hnone, data, rfl, rfl⟩)
        | none => exact .inr (.inr ⟨⟨hnone, hlookup⟩, rfl⟩)

/-- What becomes of a wheel whose URL has no host. -/
theorem settle_of_urlHost_error {url : String} {e : UrlError} (h : w.urlHost url = .error e)
    (expectedSha256 : Option String) :
    (e = .idnaError ∧
      w.settle url (w.fetchMetadata url expectedSha256) = .error .idnaError) ∨
    (e ≠ .idnaError ∧ ∃ reason details,
      w.settle url (w.fetchMetadata url expectedSha256) = .ok (.retry reason details)) := by
  cases e with
  | idnaError =>
      refine .inl ⟨rfl, ?_⟩
      simp only [fetchMetadata, hostOf, h]
      rfl
  | invalidUrl message =>
      refine .inr ⟨by simp, "pypi_transient_error",
        "invalid URL " ++ w.repr url ++ ": " ++ message, ?_⟩
      simp only [fetchMetadata, hostOf, h]
      rfl

theorem not_requested_of_noMetadata (h : wheel.NoMetadata) : ¬Requested w wheel :=
  fun hrequested => hrequested.1 h

theorem not_requested_of_lookup {x : Except Raised (Option Bytes)} (hx : x ≠ .ok none)
    (h : w.bridgeLookup wheel.metadataSha256 = x) : ¬Requested w wheel :=
  fun hrequested => hx (h.symm.trans hrequested.2)

/-- Nothing is missed that is not asked for. -/
theorem missed_iff_of_not_requested (h : ¬Requested w wheel) :
    Missed w wheel ↔ ¬wheel.NoMetadata ∧ BridgeEscapes w wheel.metadataSha256 := by
  constructor
  · intro hmissed
    cases hmissed with
    | bridge hclaimed hescapes => exact ⟨hclaimed, hescapes⟩
    | host hrequested => exact absurd hrequested h
    | exchange hrequested => exact absurd hrequested h
  · rintro ⟨hclaimed, hescapes⟩
    exact .bridge hclaimed hescapes

theorem missed_iff_of_requested (h : Requested w wheel) :
    Missed w wheel ↔ w.urlHost wheel.sidecarUrl = .error .idnaError ∨
      ∃ host, w.urlHost wheel.sidecarUrl = .ok host ∧ w.acquire host = some true ∧
        ExchangeEscapes w wheel.sidecarUrl := by
  constructor
  · intro hmissed
    cases hmissed with
    | bridge _ hescapes => exact absurd hescapes (bridgeLookup_ok_iff.mp ⟨_, h.2⟩)
    | host _ hhost => exact .inl hhost
    | exchange _ hhost hacquire hescapes => exact .inr ⟨_, hhost, hacquire, hescapes⟩
  · rintro (hhost | ⟨host, hhost, hacquire, hescapes⟩)
    · exact .host h hhost
    · exact .exchange h hhost hacquire hescapes

theorem fetchOne_ok_iff :
    (∃ outcome, w.fetchOne wheel = .ok outcome) ↔ ¬Missed w wheel ∧ ¬Unconfigured w wheel := by
  rcases fetchOne_cases w wheel with ⟨hnone, reason, details, hfetch⟩ |
    ⟨hclaimed, e, hlookup, hfetch⟩ | ⟨hclaimed, data, hlookup, hfetch⟩ | ⟨hrequested, hfetch⟩
  · have hnot : ¬Requested w wheel := not_requested_of_noMetadata hnone
    refine iff_of_true ⟨_, hfetch⟩ ⟨?_, fun h => hnot h.1⟩
    rw [missed_iff_of_not_requested hnot]
    exact fun h => h.1 hnone
  · have hnot : ¬Requested w wheel := not_requested_of_lookup (by simp) hlookup
    refine iff_of_false (by simp [hfetch]) fun h => h.1 ?_
    rw [missed_iff_of_not_requested hnot]
    exact ⟨hclaimed, by_contra fun hescapes => by
      simpa [hlookup] using bridgeLookup_ok_iff.mpr hescapes⟩
  · have hnot : ¬Requested w wheel := not_requested_of_lookup (by simp) hlookup
    refine iff_of_true ⟨_, hfetch⟩ ⟨?_, fun h => hnot h.1⟩
    rw [missed_iff_of_not_requested hnot]
    exact fun h => bridgeLookup_ok_iff.mp ⟨_, hlookup⟩ h.2
  · rw [hfetch, missed_iff_of_requested hrequested, Unconfigured]
    cases hhost : w.urlHost wheel.sidecarUrl with
    | error e =>
        rcases settle_of_urlHost_error hhost wheel.metadataSha256 with
          ⟨rfl, hsettle⟩ | ⟨hidna, reason, details, hsettle⟩
        · simp [hsettle]
        · simp [hsettle, hidna]
    | ok host =>
        rw [exists_settle_iff (hostOf_of_urlHost hhost), onlyRaises_fetchMetadata_iff hhost]
        simp only [reduceCtorEq, Except.ok.injEq, exists_eq_left', false_or, hrequested, true_and,
          not_and]
        tauto

theorem bridgeLookup_ne_keyError {metadataSha256 : Option String} :
    OnlyRaises (· ≠ .keyError) (w.bridgeLookup metadataSha256) := by
  unfold bridgeLookup
  split
  any_goals simp
  split
  any_goals simp
  split <;> simp

theorem fetchOne_eq_keyError_iff :
    w.fetchOne wheel = .error .keyError ↔ Unconfigured w wheel := by
  rcases fetchOne_cases w wheel with ⟨hnone, reason, details, hfetch⟩ |
    ⟨hclaimed, e, hlookup, hfetch⟩ | ⟨hclaimed, data, hlookup, hfetch⟩ | ⟨hrequested, hfetch⟩
  · exact iff_of_false (by simp [hfetch]) fun h => not_requested_of_noMetadata hnone h.1
  · refine iff_of_false ?_ fun h => not_requested_of_lookup (by simp) hlookup h.1
    rw [hfetch, Except.error.injEq]
    exact bridgeLookup_ne_keyError e hlookup
  · exact iff_of_false (by simp [hfetch]) fun h => not_requested_of_lookup (by simp) hlookup h.1
  · rw [hfetch, Unconfigured]
    cases hhost : w.urlHost wheel.sidecarUrl with
    | error e =>
        rcases settle_of_urlHost_error hhost wheel.metadataSha256 with
          ⟨rfl, hsettle⟩ | ⟨hidna, reason, details, hsettle⟩
        · simp [hsettle]
        · simp [hsettle]
    | ok host =>
        rw [settle_eq_error_iff (hostOf_of_urlHost hhost), fetchMetadata_eq_keyError_iff hhost]
        simp [hrequested, Raised.IsPyPIError]

/-- What is handed on as fetched has the hash it is handed on with, and the one published. -/
theorem hexdigest_of_fetchOne {data : Bytes} {sha256 : String}
    (h : w.fetchOne wheel = .ok (.ok data sha256)) :
    sha256 = w.hexdigest data ∧ ∀ published ∈ wheel.metadataSha256, sha256 = published := by
  rcases fetchOne_cases w wheel with ⟨-, reason, details, hfetch⟩ | ⟨-, e, -, hfetch⟩ |
    ⟨-, found, hlookup, hfetch⟩ | ⟨-, hfetch⟩
  · simp [hfetch] at h
  · simp [hfetch] at h
  · rw [hfetch, fetchOk, Except.ok.injEq, FetchOutcome.ok.injEq] at h
    obtain ⟨rfl, rfl⟩ := h
    refine ⟨rfl, fun published hpublished => ?_⟩
    rw [hexdigest_of_bridgeLookup hlookup] at hpublished
    exact Option.some.inj hpublished
  · obtain ⟨hmetadata, rfl⟩ := settle_eq_ok_iff.mp (hfetch.symm.trans h)
    exact ⟨rfl, hexdigest_of_fetchMetadata hmetadata⟩

end World

/-- It returns an outcome, with data only that have their hash and the one published. -/
def Classified (w : World) (wheel : FetchItem) : Prop :=
  ∃ outcome, w.fetchOne wheel = .ok outcome ∧ ∀ data sha256, outcome = .ok data sha256 →
    sha256 = w.hexdigest data ∧ ∀ published ∈ wheel.metadataSha256, sha256 = published

theorem classified_iff {w : World} {wheel : FetchItem} :
    Classified w wheel ↔ ∃ outcome, w.fetchOne wheel = .ok outcome := by
  constructor
  · rintro ⟨outcome, hfetch, -⟩
    exact ⟨outcome, hfetch⟩
  · rintro ⟨outcome, hfetch⟩
    exact ⟨outcome, hfetch, fun data sha256 hdata => World.hexdigest_of_fetchOne (hdata ▸ hfetch)⟩

/-- A wheel is classified, if nothing is missed, unless its host is none that the limiter
knows: then, and only then, there is a `KeyError`.  What is fetched is what was published. -/
theorem classified_unless_unconfigured (w : World) (wheel : FetchItem) :
    (¬Missed w wheel → (Classified w wheel ↔ ¬Unconfigured w wheel)) ∧
      (w.fetchOne wheel = .error .keyError ↔ Unconfigured w wheel) ∧
      ∀ data sha256, w.fetchOne wheel = .ok (.ok data sha256) →
        sha256 = w.hexdigest data ∧ ∀ published ∈ wheel.metadataSha256, sha256 = published := by
  refine ⟨fun hmissed => ?_, World.fetchOne_eq_keyError_iff, fun data sha256 h =>
    World.hexdigest_of_fetchOne h⟩
  rw [classified_iff, World.fetchOne_ok_iff]
  exact and_iff_right hmissed

/-- A limiter with children for two hosts, and a server that answers with an empty body. -/
def emptyAnswers (host : String) : World where
  hexdigest _ := "e3b0c44298fc1c149afbf4c8996fb92427ae41e4649b934ca495991b7852b855"
  decompress _ := none
  repr s := "'" ++ s ++ "'"
  bridge := .unset
  urlHost _ := .ok host
  acquire host := if host ∈ ["pypi.org", "files.pythonhosted.org"] then some true else none
  stream url := .answered { status := 200, url := url }
  unicode := .ascii7
  now := 0

/-- A wheel at a host. -/
def wheelAt (host : String) : FetchItem where
  id := 1
  filename := "a-1-py3-none-any.whl"
  url := "https://" ++ host ++ "/a-1-py3-none-any.whl"
  metadataSha256 := none

theorem not_missed_emptyAnswers (host : String) :
    ¬Missed (emptyAnswers host) (wheelAt host) := by
  intro h
  cases h with
  | bridge _ h =>
      cases h with
      | homeless h => cases h
  | host _ h => cases h
  | exchange _ _ _ h =>
      cases h with
      | failed h => cases h
      | response h hr =>
          cases h
          cases hr with
          | closing h => cases h
          | body _ _ _ h => cases h
          | errorBody _ h => cases h
          | text _ h => cases h
          | header _ h _ => rcases h with h | ⟨h, -⟩ <;> cases h

theorem classified_emptyAnswers :
    Classified (emptyAnswers "files.pythonhosted.org") (wheelAt "files.pythonhosted.org") := by
  refine ((classified_unless_unconfigured _ _).1 (not_missed_emptyAnswers _)).mpr ?_
  rintro ⟨-, host, ⟨⟩, hacquire⟩
  simp [emptyAnswers] at hacquire

theorem not_classified_unconfigured :
    ¬Classified (emptyAnswers "example.org") (wheelAt "example.org") := by
  rintro ⟨outcome, hfetch, -⟩
  have hraised : (emptyAnswers "example.org").fetchOne (wheelAt "example.org") =
      .error .keyError := rfl
  rw [hraised] at hfetch
  cases hfetch

end RerollSync.Fetch
