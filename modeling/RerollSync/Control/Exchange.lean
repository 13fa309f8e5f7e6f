import RerollSync.Control.Client

/-!
# Commands over the socket

Whatever pieces the request and the reply arrive in, a command of the command line ends as
if the daemon's handler were called with the options of the command.
-/

namespace RerollSync.Control

open RerollSync.Store RerollSync.Support RerollSync.Daemon

/-! ## Lines -/

theorem readReplyInto_eq {buf : List UInt8} {chunks : List (List UInt8)}
    (h : newline ∈ buf ++ chunks.flatten) :
    readReplyInto buf chunks = some ((buf ++ chunks.flatten).takeWhile (· ≠ newline)) := by
  induction chunks generalizing buf with
  | nil =>
      rw [List.flatten_nil, List.append_nil] at h ⊢
      rw [readReplyInto, if_neg (List.ne_nil_of_mem h)]
  | cons chunk chunks ih =>
      rw [List.flatten_cons] at h ⊢
      rw [readReplyInto]
      by_cases hmem : newline ∈ buf
      · rw [if_pos hmem, takeWhile_append_of_mem hmem]
      · rw [if_neg hmem, ih (by rwa [List.append_assoc]), List.append_assoc]

section Lines

variable {maxDigits : ℕ} {floatRepr : ℚ → List Char} {value : Json}

theorem takeWhile_jsonLine (hfits : value.Fits maxDigits) :
    (jsonLine floatRepr value).takeWhile (· ≠ newline) = encodeUtf8 (dumps floatRepr value) := by
  have hplain : PlainBytes (encodeUtf8 (dumps floatRepr value)) :=
    plainBytes_encodeUtf8 (plain_dumps hfits)
  rw [jsonLine, List.takeWhile_append_of_pos]
  · simp
  · intro b hb
    have hle := (hplain b hb).1
    simp only [ne_eq, decide_not, Bool.not_eq_eq_eq_not, Bool.not_true, decide_eq_false_iff_not]
    rintro rfl
    exact absurd hle (by decide)

/-- A line that is short enough is read, whatever pieces it arrives in. -/
theorem readLine_jsonLine {maxBytes : ℕ} {chunks : List (List UInt8)}
    (hfits : value.Fits maxDigits) (hlength : (jsonLine floatRepr value).length ≤ maxBytes)
    (hchunks : Splits recvSize (jsonLine floatRepr value) chunks) :
    readLine maxBytes chunks = .line (encodeUtf8 (dumps floatRepr value)) := by
  have hmem : newline ∈ jsonLine floatRepr value := by simp [jsonLine]
  have hline : (jsonLine floatRepr value).takeWhile (· ≠ newline) =
      encodeUtf8 (dumps floatRepr value) := takeWhile_jsonLine hfits
  have hshort : lineLength (jsonLine floatRepr value) ≤ maxBytes := by
    rw [lineLength, hline]
    simpa [jsonLine] using hlength
  have hnone : ¬Straddles recvSize maxBytes ([] ++ chunks.flatten) := by
    rw [List.nil_append, hchunks.flatten, Straddles]
    omega
  have hread := readInto_eq (Nat.zero_le maxBytes)
    (fun chunk hchunk => (hchunks.bounds chunk hchunk).2) hnone
  rw [List.nil_append, hchunks.flatten, measured, if_pos hmem, if_neg (by omega), hline] at hread
  exact hread

theorem readReply_jsonLine {chunks : List (List UInt8)} (hfits : value.Fits maxDigits)
    (hchunks : Splits recvSize (jsonLine floatRepr value) chunks) :
    readReply chunks = some (encodeUtf8 (dumps floatRepr value)) := by
  have hmem : newline ∈ [] ++ chunks.flatten := by simp [hchunks.flatten, jsonLine]
  rw [readReply, readReplyInto_eq hmem, List.nil_append, hchunks.flatten,
    takeWhile_jsonLine hfits]

end Lines

/-! ## Requests -/

theorem rejoin_codePoints (text : String) : rejoin (codePoints text) = codePoints text :=
  rejoin_map_char text.toList

theorem lookup_cons_self (key : String) (value : Json) :
    lookup key [(codePoints key, value)] = some value := by
  simp [lookup]

theorem lookup_request (command : String) (args : List (List CodePoint × Json)) :
    lookup "command" [(codePoints "command", .str (codePoints command)),
        (codePoints "args", .obj args)] = some (.str (codePoints command)) ∧
      lookup "args" [(codePoints "command", .str (codePoints command)),
        (codePoints "args", .obj args)] = some (.obj args) := by
  simp [lookup, codePoints]

theorem findCommand_of_mem {name : String} {c : Command} (h : (name, c) ∈ commands) :
    findCommand (.str (codePoints name)) = some c := by
  simp only [commands, List.mem_cons, Prod.mk.injEq, List.not_mem_nil, or_false] at h
  rcases h with ⟨rfl, rfl⟩ | ⟨rfl, rfl⟩ | ⟨rfl, rfl⟩ | ⟨rfl, rfl⟩ | ⟨rfl, rfl⟩ | ⟨rfl, rfl⟩ |
    ⟨rfl, rfl⟩ <;> simp [findCommand, commands, isName, codePoints]

section Requests

variable {ε : Type} {maxDigits depth : ℕ} {floatRepr : ℚ → List Char}
  {strExc : ε → Option (List CodePoint)} {handlers : ControlHandlers Json ε}

/-- The server runs the command with the arguments that the client sent. -/
theorem dispatch_request {name : String} {c : Command} (hc : (name, c) ∈ commands)
    {args : List (List CodePoint × Json)} (hargs : rejoinedPairs args = args)
    (hdepth : nestingPairs args + 2 ≤ depth) (hfits : FitsPairs maxDigits args) :
    dispatch maxDigits depth strExc false handlers
        (encodeUtf8 (dumps floatRepr (request name args))) =
      respond strExc (runCommand handlers args c) := by
  have hloads : loads maxDigits depth (encodeUtf8 (dumps floatRepr (request name args))) =
      .ok (request name args) := by
    have hvalue : (request name args).Fits maxDigits := by
      simp [request, Json.Fits, FitsPairs, hfits]
    rw [loads_dumps_eq_self_iff hvalue]
    constructor
    · simp only [request, Json.nesting, nestingPairs]
      omega
    · simp [request, Json.rejoined, rejoinedPairs, rejoin_codePoints, hargs]
  obtain ⟨hcommand, hrequest⟩ := lookup_request name args
  rw [dispatch, hloads]
  simp only [request, hcommand, requestArgs, hrequest, dispatchCommand, Bool.false_eq_true,
    false_and, if_false, hashable, Bool.not_true, findCommand_of_mem hc]

/-! ## Arguments -/

/-- A text that JSON carries as it is: no two of its surrogates are the halves of a
character. -/
def Unsplit (text : List CodePoint) : Prop := text.IsChain fun c d => ¬Halves c d

/-- The texts of a selector. -/
def selectorTexts : AnySelector → List (List CodePoint)
  | .rerollVersionBelow version => [version]
  | .project project => [project]
  | .state _ | .skippedOnly => []

/-- The options of a command that are texts. -/
def MutatingCommand.texts : MutatingCommand → List (List CodePoint)
  | .pause stage | .resume stage => [stage]
  | .drain | .shutdown => []
  | .reprocess selector | .unquarantine selector => selectorTexts selector

/-- Arguments that are texts. -/
theorem carried_selectorToArgs {selector : AnySelector}
    (h : ∀ text ∈ selectorTexts selector, Unsplit text) :
    rejoinedPairs (selectorToArgs selector) = selectorToArgs selector ∧
      nestingPairs (selectorToArgs selector) = 0 ∧
      FitsPairs maxDigits (selectorToArgs selector) := by
  cases selector with
  | rerollVersionBelow version =>
      have hversion := rejoin_eq_self_iff.mpr (h version List.mem_cons_self)
      simp [selectorToArgs, rejoinedPairs, nestingPairs, FitsPairs, Json.rejoined, Json.nesting,
        Json.Fits, rejoin_codePoints, hversion]
  | project project =>
      have hproject := rejoin_eq_self_iff.mpr (h project List.mem_cons_self)
      simp [selectorToArgs, rejoinedPairs, nestingPairs, FitsPairs, Json.rejoined, Json.nesting,
        Json.Fits, rejoin_codePoints, hproject]
  | state state =>
      simp [selectorToArgs, rejoinedPairs, nestingPairs, FitsPairs, Json.rejoined, Json.nesting,
        Json.Fits, rejoin_codePoints]
  | skippedOnly =>
      simp [selectorToArgs, rejoinedPairs, nestingPairs, FitsPairs, Json.rejoined, Json.nesting,
        Json.Fits, rejoin_codePoints]

theorem carried_buildArgs {command : MutatingCommand} (h : ∀ text ∈ command.texts, Unsplit text) :
    rejoinedPairs command.buildArgs = command.buildArgs ∧ nestingPairs command.buildArgs = 0 ∧
      FitsPairs maxDigits command.buildArgs := by
  cases command with
  | pause stage =>
      have hstage := rejoin_eq_self_iff.mpr (h stage List.mem_cons_self)
      simp [MutatingCommand.buildArgs, rejoinedPairs, nestingPairs, FitsPairs, Json.rejoined,
        Json.nesting, Json.Fits, rejoin_codePoints, hstage]
  | resume stage =>
      have hstage := rejoin_eq_self_iff.mpr (h stage List.mem_cons_self)
      simp [MutatingCommand.buildArgs, rejoinedPairs, nestingPairs, FitsPairs, Json.rejoined,
        Json.nesting, Json.Fits, rejoin_codePoints, hstage]
  | drain => simp [MutatingCommand.buildArgs, rejoinedPairs, nestingPairs, FitsPairs]
  | reprocess selector => exact carried_selectorToArgs h
  | unquarantine selector => exact carried_selectorToArgs h
  | shutdown => simp [MutatingCommand.buildArgs, rejoinedPairs, nestingPairs, FitsPairs]

/-- The daemon parses the selector that the client wrote, unless the text of the selector
is empty. -/
theorem parseSelector_selectorToArgs (selector : AnySelector) :
    parseSelector (selectorToArgs selector) =
      match missing selector with
      | some key => .error (.required key)
      | none => .ok selector := by
  cases selector with
  | rerollVersionBelow version =>
      cases version with
      | nil => simp [parseSelector, requireStr, lookup, codePoints, selectorToArgs, missing, bind,
          Except.bind]
      | cons c version => simp [parseSelector, requireStr, lookup, codePoints, selectorToArgs,
          missing, bind, Except.bind, pure, Except.pure]
  | project project =>
      cases project with
      | nil => simp [parseSelector, requireStr, lookup, codePoints, selectorToArgs, missing, bind,
          Except.bind]
      | cons c project => simp [parseSelector, requireStr, lookup, codePoints, selectorToArgs,
          missing, bind, Except.bind, pure, Except.pure]
  | state state =>
      cases state <;>
        simp [parseSelector, requireStr, lookup, codePoints, selectorToArgs, missing, bind,
          Except.bind, pure, Except.pure, stateNames, stateName]
  | skippedOnly =>
      simp [parseSelector, requireStr, lookup, codePoints, selectorToArgs, missing, bind,
        Except.bind, pure, Except.pure]

/-! ## Replies -/

/-- The key of a command. -/
def MutatingCommand.key : MutatingCommand → Command
  | .pause _ => .pause
  | .resume _ => .resume
  | .drain => .drain
  | .reprocess _ => .reprocess
  | .unquarantine _ => .unquarantine
  | .shutdown => .shutdown

theorem mem_commands (command : MutatingCommand) : (command.command, command.key) ∈ commands := by
  cases command <;> simp [commands, MutatingCommand.command, MutatingCommand.key]

/-- A value that JSON carries as it is, within a depth. -/
structure Carried (maxDigits depth : ℕ) (value : Json) : Prop where
  fits : value.Fits maxDigits
  rejoined : value.rejoined = value
  nesting : value.nesting ≤ depth

theorem Carried.okReply {value : Json} (h : Carried maxDigits depth value) :
    Carried maxDigits (depth + 1) (okReply value) where
  fits := by simp [Control.okReply, Json.Fits, FitsPairs, h.fits]
  rejoined := by
    simp [Control.okReply, Json.rejoined, rejoinedPairs, rejoin_codePoints, h.rejoined]
  nesting := by
    have := h.nesting
    simp only [Control.okReply, Json.nesting, nestingPairs]
    omega

section Interpret

variable {repr : Json → List CodePoint} {chunks : List (List UInt8)}

/-- A result arrives as it was sent. -/
theorem interpret_okReply {value : Json} (h : Carried maxDigits depth value)
    (hchunks : Splits recvSize (jsonLine floatRepr (okReply value)) chunks) :
    interpret repr maxDigits (depth + 1) (readReply chunks) = .ok value := by
  have hreply := h.okReply
  rw [readReply_jsonLine hreply.fits hchunks, interpret, loads_dumps hreply.nesting hreply.fits,
    hreply.rejoined]
  simp [okReply, lookup, codePoints, Json.truthy]

theorem interpret_errorReply (text : List CodePoint)
    (hchunks : Splits recvSize (jsonLine floatRepr (errorReply text)) chunks) :
    interpret repr maxDigits (depth + 1) (readReply chunks) = .error (.daemon (rejoin text)) := by
  have hfits : (errorReply text).Fits maxDigits := by
    simp [errorReply, Json.Fits, FitsPairs]
  have hnesting : (errorReply text).nesting ≤ depth + 1 := by
    simp [errorReply, Json.nesting, nestingPairs]
  have hrejoined : (errorReply text).rejoined = errorReply (rejoin text) := by
    simp [errorReply, Json.rejoined, rejoinedPairs, rejoin_codePoints]
  rw [readReply_jsonLine hfits hchunks, interpret, loads_dumps hnesting hfits, hrejoined]
  simp [errorReply, lookup, codePoints, Json.truthy, str]

theorem interpret_nothing (hchunks : Splits recvSize [] chunks) :
    interpret repr maxDigits depth (readReply chunks) = .error .noReply := by
  cases chunks with
  | nil => rfl
  | cons chunk chunks =>
      obtain ⟨hne, -⟩ := hchunks.bounds chunk List.mem_cons_self
      have hflatten := hchunks.flatten
      rw [List.flatten_cons, List.append_eq_nil_iff] at hflatten
      exact absurd hflatten.1 hne

end Interpret

/-! ## The whole exchange -/

section Exchange

variable {repr : Json → List CodePoint} {decodeError : List UInt8 → List CodePoint}
  {socketPath : List CodePoint} {maxBytes : ℕ} {inChunks outChunks : List (List UInt8)}

/-- How a command ends that comes to `r` on the server. -/
def exitOfRun (repr : Json → List CodePoint) (strExc : ε → Option (List CodePoint))
    (socketPath : List CodePoint) (command : MutatingCommand) :
    Except (CommandError ε) (CommandResult Json) → Exit
  | .ok result =>
      match command.formatSuccess repr result.toJson with
      | some line => .status 0 line
      | none => .raised
  | .error (.protocol e) => .status 1 (rejoin (e.text repr))
  | .error (.handler exc) => exitOfException strExc socketPath exc

/-- What the server's handler returns or raises reaches the command line. -/
theorem control_eq_exitOfRun {command : MutatingCommand}
    (htexts : ∀ text ∈ command.texts, Unsplit text)
    (hlength : (jsonLine floatRepr (request command.command command.buildArgs)).length ≤ maxBytes)
    (hin : Splits recvSize (jsonLine floatRepr (request command.command command.buildArgs))
      inChunks)
    (hresult : ∀ result, runCommand handlers command.buildArgs command.key = .ok result →
      Carried maxDigits (depth + 1) result.toJson)
    (hout : Splits recvSize (handleConnection repr floatRepr decodeError maxBytes maxDigits
      (depth + 2) strExc false handlers inChunks) outChunks) :
    control repr decodeError maxDigits (depth + 2) socketPath command outChunks =
      exitOfRun repr strExc socketPath command
        (runCommand handlers command.buildArgs command.key) := by
  obtain ⟨hargs, hnesting, hfits⟩ : _ ∧ _ ∧ FitsPairs maxDigits command.buildArgs :=
    carried_buildArgs htexts
  have hrequest : (request command.command command.buildArgs).Fits maxDigits := by
    simp [request, Json.Fits, FitsPairs, hfits]
  have hdepth : nestingPairs command.buildArgs + 2 ≤ depth + 2 := by omega
  have hdispatch : dispatch maxDigits (depth + 2) strExc false handlers
      (encodeUtf8 (dumps floatRepr (request command.command command.buildArgs))) =
        respond strExc (runCommand handlers command.buildArgs command.key) :=
    dispatch_request (mem_commands command) hargs hdepth hfits
  rw [handleConnection, readLine_jsonLine hrequest hlength hin] at hout
  simp only [hdispatch] at hout
  rcases hrun : runCommand handlers command.buildArgs command.key with (e | exc) | result
  · rw [hrun] at hout
    rw [control, interpret_errorReply _ hout]
    rfl
  · rw [hrun] at hout
    simp only [respond] at hout
    simp only [exitOfRun, exitOfException]
    rcases htext : strExc exc with _ | text
    · rw [htext] at hout
      rw [control, interpret_nothing hout]
      rfl
    · rw [htext] at hout
      rw [control, interpret_errorReply _ hout]
      rfl
  · rw [hrun] at hout
    rw [control, interpret_okReply (hresult result hrun) hout]
    rfl

theorem requireStr_singleton (key : String) (text : List CodePoint) :
    requireStr [(codePoints key, .str text)] key =
      if text = [] then .error (.required key) else .ok text := by
  rw [requireStr, lookup_cons_self]
  cases text with
  | nil => simp
  | cons c text => simp

theorem rejoin_required (repr : Json → List CodePoint) (key : String) :
    rejoin ((ControlProtocolError.required key).text repr) =
      codePoints "'" ++ codePoints key ++
        codePoints "' is required and must be a non-empty string" := by
  simp only [ControlProtocolError.text, codePoints, ← List.map_append, rejoin_map_char]

/-- A handler called with the name of a stage. -/
def callStage (handler : List CodePoint → Except ε Unit) (paused : Bool) (stage : List CodePoint) :
    Except (CommandError ε) (CommandResult Json) :=
  if stage = [] then .error (.protocol (.required "stage"))
  else ((handler stage).map fun _ => .stage stage paused).mapError .handler

/-- A handler called with a selector. -/
def callSelector (handler : AnySelector → Except ε ℤ) (selector : AnySelector) :
    Except (CommandError ε) (CommandResult Json) :=
  match missing selector with
  | some key => .error (.protocol (.required key))
  | none => ((handler selector).map .affected).mapError .handler

/-- The handlers are called with the command's own options. -/
theorem runCommand_buildArgs (command : MutatingCommand) :
    runCommand handlers command.buildArgs command.key =
      match command with
      | .pause stage => callStage handlers.pause true stage
      | .resume stage => callStage handlers.resume false stage
      | .drain => (handlers.drain.map fun _ => .draining).mapError .handler
      | .reprocess selector => callSelector handlers.reprocess selector
      | .unquarantine selector => callSelector handlers.unquarantine selector
      | .shutdown => (handlers.shutdown.map fun _ => .shuttingDown).mapError .handler := by
  cases command with
  | pause stage =>
      simp only [MutatingCommand.buildArgs, MutatingCommand.key, runCommand, requireStr_singleton,
        callStage]
      split <;> rfl
  | resume stage =>
      simp only [MutatingCommand.buildArgs, MutatingCommand.key, runCommand, requireStr_singleton,
        callStage]
      split <;> rfl
  | drain => rfl
  | reprocess selector =>
      simp only [MutatingCommand.buildArgs, MutatingCommand.key, runCommand,
        parseSelector_selectorToArgs, callSelector]
      rcases missing selector with _ | key <;> rfl
  | unquarantine selector =>
      simp only [MutatingCommand.buildArgs, MutatingCommand.key, runCommand,
        parseSelector_selectorToArgs, callSelector]
      rcases missing selector with _ | key <;> rfl
  | shutdown => rfl

/-- A command that names a stage. -/
theorem exitOfRun_callStage {command : MutatingCommand} {done : String}
    (hformat : ∀ result, command.formatSuccess repr result =
      (field repr "stage" result).map (codePoints (done ++ " stage ") ++ ·))
    (handler : List CodePoint → Except ε Unit) (paused : Bool) (stage : List CodePoint) :
    exitOfRun repr strExc socketPath command (callStage handler paused stage) =
      stageExit repr strExc socketPath done handler stage := by
  rw [callStage, stageExit]
  by_cases hstage : stage = []
  · rw [if_pos hstage, if_pos hstage]
    exact congrArg (Exit.status 1) (rejoin_required repr "stage")
  · rw [if_neg hstage, if_neg hstage]
    rcases handler stage with exc | _
    · rfl
    · have hline : exitOfRun repr strExc socketPath command
          (.ok (.stage stage paused) : Except (CommandError ε) (CommandResult Json)) =
            .status 0 (codePoints (done ++ " stage ") ++ repr (.str stage)) := by
        rw [exitOfRun, hformat, CommandResult.toJson, field]
        simp [lookup, codePoints]
      exact hline

/-- A command that selects wheels. -/
theorem exitOfRun_callSelector {command : MutatingCommand} {name : String}
    (hformat : ∀ result, command.formatSuccess repr result = submitted repr name result)
    (handler : AnySelector → Except ε ℤ) (selector : AnySelector) :
    exitOfRun repr strExc socketPath command (callSelector handler selector) =
      campaignExit repr strExc socketPath name handler selector := by
  rw [callSelector, campaignExit]
  rcases missing selector with _ | key
  · rcases handler selector with exc | count
    · rfl
    · have hline : exitOfRun repr strExc socketPath command
          (.ok (.affected count) : Except (CommandError ε) (CommandResult Json)) =
            .status 0 (codePoints (name ++ " submitted: ") ++ repr (.int count) ++
              codePoints " wheel(s) affected") := by
        rw [exitOfRun, hformat, CommandResult.toJson, submitted, field]
        simp [lookup, str]
      exact hline
  · exact congrArg (Exit.status 1) (rejoin_required repr key)

theorem exitOfRun_runCommand (command : MutatingCommand) :
    exitOfRun repr strExc socketPath command
        (runCommand handlers command.buildArgs command.key) =
      command.exit repr strExc socketPath handlers := by
  rw [runCommand_buildArgs]
  cases command with
  | pause stage => exact exitOfRun_callStage (fun _ => rfl) _ _ _
  | resume stage => exact exitOfRun_callStage (fun _ => rfl) _ _ _
  | drain =>
      simp only [MutatingCommand.exit, plainExit]
      rcases handlers.drain with exc | _ <;> rfl
  | reprocess selector => exact exitOfRun_callSelector (fun _ => rfl) _ _
  | unquarantine selector => exact exitOfRun_callSelector (fun _ => rfl) _ _
  | shutdown =>
      simp only [MutatingCommand.exit, plainExit]
      rcases handlers.shutdown with exc | _ <;> rfl

/-! ## The results -/

theorem eq_of_callStage {handler : List CodePoint → Except ε Unit} {paused : Bool}
    {stage : List CodePoint} {result : CommandResult Json}
    (h : callStage handler paused stage = .ok result) : result = .stage stage paused := by
  rw [callStage] at h
  split at h
  · cases h
  · rcases hhandler : handler stage with exc | _
    · rw [hhandler] at h
      cases h
    · rw [hhandler] at h
      exact (Except.ok.inj h).symm

theorem exists_of_callSelector {handler : AnySelector → Except ε ℤ} {selector : AnySelector}
    {result : CommandResult Json} (h : callSelector handler selector = .ok result) :
    ∃ count, handler selector = .ok count ∧ result = .affected count := by
  rw [callSelector] at h
  split at h
  · cases h
  · rcases hhandler : handler selector with exc | count
    · rw [hhandler] at h
      cases h
    · rw [hhandler] at h
      exact ⟨count, rfl, (Except.ok.inj h).symm⟩

theorem eq_of_plain {handler : Except ε Unit} {answer result : CommandResult Json}
    (h : ((handler.map fun _ => answer).mapError .handler :
      Except (CommandError ε) (CommandResult Json)) = .ok result) : result = answer := by
  rcases handler with exc | _
  · cases h
  · exact (Except.ok.inj h).symm

/-- What a command returns is carried. -/
theorem carried_of_runCommand {command : MutatingCommand}
    (htexts : ∀ text ∈ command.texts, Unsplit text) (hcounts : CountsFit handlers maxDigits)
    {result : CommandResult Json}
    (hrun : runCommand handlers command.buildArgs command.key = .ok result) :
    Carried maxDigits (depth + 1) result.toJson := by
  have hstage : ∀ stage paused, Unsplit stage →
      Carried maxDigits (depth + 1) (CommandResult.stage stage paused).toJson := by
    intro stage paused hunsplit
    have hrejoin := rejoin_eq_self_iff.mpr hunsplit
    constructor
    · simp [CommandResult.toJson, Json.Fits, FitsPairs]
    · simp [CommandResult.toJson, Json.rejoined, rejoinedPairs, rejoin_codePoints, hrejoin]
    · simp [CommandResult.toJson, Json.nesting, nestingPairs]
  have hflag : ∀ key : String,
      Carried maxDigits (depth + 1) (.obj [(codePoints key, .bool true)]) := by
    intro key
    constructor
    · simp [Json.Fits, FitsPairs]
    · simp [Json.rejoined, rejoinedPairs, rejoin_codePoints]
    · simp [Json.nesting, nestingPairs]
  have hcount : ∀ count : ℤ, (decimals count.natAbs).length ≤ maxDigits →
      Carried maxDigits (depth + 1) (CommandResult.affected count).toJson := by
    intro count hdigits
    constructor
    · simpa [CommandResult.toJson, Json.Fits, FitsPairs] using hdigits
    · simp [CommandResult.toJson, Json.rejoined, rejoinedPairs, rejoin_codePoints]
    · simp [CommandResult.toJson, Json.nesting, nestingPairs]
  rw [runCommand_buildArgs] at hrun
  cases command with
  | pause stage =>
      rw [eq_of_callStage hrun]
      exact hstage _ _ (htexts stage List.mem_cons_self)
  | resume stage =>
      rw [eq_of_callStage hrun]
      exact hstage _ _ (htexts stage List.mem_cons_self)
  | drain =>
      rw [eq_of_plain hrun]
      exact hflag "draining"
  | reprocess selector =>
      obtain ⟨count, hhandler, rfl⟩ := exists_of_callSelector hrun
      exact hcount count (hcounts selector count (.inl hhandler))
  | unquarantine selector =>
      obtain ⟨count, hhandler, rfl⟩ := exists_of_callSelector hrun
      exact hcount count (hcounts selector count (.inr hhandler))
  | shutdown =>
      rw [eq_of_plain hrun]
      exact hflag "shutting_down"

/-- A command of the command line ends as if its handler were called directly, whatever
pieces the request and the reply arrive in. -/
theorem control_eq_exit {command : MutatingCommand}
    (htexts : ∀ text ∈ command.texts, Unsplit text) (hcounts : CountsFit handlers maxDigits)
    (hlength : (jsonLine floatRepr (request command.command command.buildArgs)).length ≤ maxBytes)
    (hin : Splits recvSize (jsonLine floatRepr (request command.command command.buildArgs))
      inChunks)
    (hout : Splits recvSize (handleConnection repr floatRepr decodeError maxBytes maxDigits
      (depth + 2) strExc false handlers inChunks) outChunks) :
    control repr decodeError maxDigits (depth + 2) socketPath command outChunks =
      command.exit repr strExc socketPath handlers :=
  (control_eq_exitOfRun htexts hlength hin
    (fun _ hrun => carried_of_runCommand htexts hcounts hrun) hout).trans
      (exitOfRun_runCommand command)

end Exchange

end Requests

/-- Handlers that count three wheels. -/
def threeHandlers : ControlHandlers Json Empty where
  status := .ok .null
  pause _ := .ok ()
  resume _ := .ok ()
  drain := .ok ()
  reprocess _ := .ok 3
  unquarantine _ := .ok 3
  shutdown := .ok ()

/-- `repr` of the values that the replies print. -/
def plainRepr : Json → List CodePoint
  | .int n => (intText n).map .char
  | .str s => codePoints "'" ++ s ++ codePoints "'"
  | _ => codePoints "None"

/-- A stream in one piece. -/
theorem splits_singleton {size : ℕ} {stream : List UInt8} (hne : stream ≠ [])
    (hlength : stream.length ≤ size) : Splits size stream [stream] where
  flatten := List.append_nil stream
  bounds _ hchunk := (List.mem_singleton.mp hchunk).symm ▸ ⟨hne, hlength⟩

/-- A campaign over the wheels of a project. -/
def reprocessNumpy : MutatingCommand := .reprocess (.project (codePoints "numpy"))

/-- Its request. -/
def numpyRequest : List UInt8 :=
  jsonLine (fun _ => []) (request reprocessNumpy.command reprocessNumpy.buildArgs)

/-- The reply to it. -/
def numpyReply : List UInt8 :=
  handleConnection plainRepr (fun _ => []) (fun _ => []) 65536 4300 (998 + 2)
    (fun exc => exc.elim) false threeHandlers [numpyRequest]

/-- A campaign that is submitted, with each line in one piece. -/
theorem control_reprocessNumpy :
    control plainRepr (fun _ => []) 4300 (998 + 2) (codePoints "control.sock") reprocessNumpy
        [numpyReply] =
      .status 0 (codePoints "reprocess submitted: 3 wheel(s) affected") := by
  have htexts : ∀ text ∈ reprocessNumpy.texts, Unsplit text := by
    intro text htext
    obtain rfl := List.mem_singleton.mp htext
    exact rejoin_eq_self_iff.mp (rejoin_codePoints "numpy")
  have hcounts : CountsFit threeHandlers 4300 := by
    rintro selector count (h | h)
    · obtain rfl : 3 = count := Except.ok.inj h
      decide
    · obtain rfl : 3 = count := Except.ok.inj h
      decide
  have hin : Splits recvSize numpyRequest [numpyRequest] :=
    splits_singleton (by decide +kernel) (by decide +kernel)
  have hlength : numpyRequest.length ≤ 65536 := by decide +kernel
  have hout : Splits recvSize numpyReply [numpyReply] :=
    splits_singleton (by decide +kernel) (by decide +kernel)
  have hexit : reprocessNumpy.exit plainRepr (fun exc : Empty => exc.elim)
      (codePoints "control.sock") threeHandlers =
        .status 0 (codePoints "reprocess submitted: 3 wheel(s) affected") := by decide +kernel
  rw [← hexit]
  exact control_eq_exit htexts hcounts hlength hin hout

end RerollSync.Control
