import RerollSync.Control.ReadLine
import RerollSync.Daemon.Unquarantine
import RerollSync.Support.Json

/-!
# Control requests

`_dispatch` answers a request line: it parses the line, looks up the command and runs its
handler.  Two kinds of line end it in an exception, which its client never hears of: one
whose arrays are nested past the limit of the decoder, and one whose command is an array
or an object, which no dictionary can look up.
-/

namespace RerollSync.Control

open RerollSync.Store RerollSync.Support RerollSync.Daemon

/-! ## Commands -/

/-- The keys of `_COMMANDS`. -/
inductive Command
  | status
  | pause
  | resume
  | drain
  | reprocess
  | unquarantine
  | shutdown
deriving DecidableEq, Repr

/-- `_COMMANDS`, by the names. -/
def commands : List (String × Command) :=
  [("status", .status), ("pause", .pause), ("resume", .resume), ("drain", .drain),
   ("reprocess", .reprocess), ("unquarantine", .unquarantine), ("shutdown", .shutdown)]

/-- The names of `WheelState`. -/
def stateNames : List (String × WheelState) :=
  [("NEED_METADATA", .needMetadata), ("NO_METADATA", .noMetadata), ("NEED_CONVERT", .needConvert),
   ("READY", .ready), ("SKIPPED", .skipped), ("QUARANTINED", .quarantined), ("DELETED", .deleted)]

/-- `ControlProtocolError`, with what its message names. -/
inductive ControlProtocolError
  | required (key : String)
  | unknownState (name : List CodePoint)
  | unknownSelectorType (type : List CodePoint)

/-- `_require_str`. -/
def requireStr (args : List (List CodePoint × Json)) (key : String) :
    Except ControlProtocolError (List CodePoint) :=
  match lookup key args with
  | some (.str (c :: cs)) => .ok (c :: cs)
  | _ => .error (.required key)

/-- `_parse_selector`. -/
def parseSelector (args : List (List CodePoint × Json)) :
    Except ControlProtocolError AnySelector := do
  let type ← requireStr args "type"
  if type = codePoints "reroll_version_below" then
    return .rerollVersionBelow (← requireStr args "version")
  else if type = codePoints "project" then return .project (← requireStr args "project")
  else if type = codePoints "state" then
    let name ← requireStr args "state"
    match stateNames.find? fun s => codePoints s.1 = name with
    | some s => return .state s.2
    | none => .error (.unknownState name)
  else if type = codePoints "skipped_only" then return .skippedOnly
  else .error (.unknownSelectorType type)

section Dispatch

variable {ρ ε : Type}

/-- `ControlHandlers`: what each handler returns or raises. -/
structure ControlHandlers (ρ ε : Type) where
  status : Except ε ρ
  pause : List CodePoint → Except ε Unit
  resume : List CodePoint → Except ε Unit
  drain : Except ε Unit
  reprocess : AnySelector → Except ε ℤ
  unquarantine : AnySelector → Except ε ℤ
  shutdown : Except ε Unit

/-- The results of the commands. -/
inductive CommandResult (ρ : Type)
  | status (result : ρ)
  | stage (name : List CodePoint) (paused : Bool)
  | draining
  | affected (count : ℤ)
  | shuttingDown

/-- What a command raises: an error of its arguments, or what its handler raises. -/
inductive CommandError (ε : Type)
  | protocol (e : ControlProtocolError)
  | handler (exc : ε)

/-- `_cmd_status` and the others. -/
def runCommand (handlers : ControlHandlers ρ ε) (args : List (List CodePoint × Json)) :
    Command → Except (CommandError ε) (CommandResult ρ)
  | .status => (handlers.status.map .status).mapError .handler
  | .pause => do
      let stage ← (requireStr args "stage").mapError .protocol
      ((handlers.pause stage).map fun _ => .stage stage true).mapError .handler
  | .resume => do
      let stage ← (requireStr args "stage").mapError .protocol
      ((handlers.resume stage).map fun _ => .stage stage false).mapError .handler
  | .drain => (handlers.drain.map fun _ => .draining).mapError .handler
  | .reprocess => do
      let selector ← (parseSelector args).mapError .protocol
      ((handlers.reprocess selector).map .affected).mapError .handler
  | .unquarantine => do
      let selector ← (parseSelector args).mapError .protocol
      ((handlers.unquarantine selector).map .affected).mapError .handler
  | .shutdown => (handlers.shutdown.map fun _ => .shuttingDown).mapError .handler

/-! ## Requests -/

/-- The errors that a response reports, with what their texts name. -/
inductive ErrorText
  | malformedJson
  | noCommand
  | argsShape
  | statusOnly
  | unknownCommand (command : Json)
  | protocol (e : ControlProtocolError)
  | handler (text : List CodePoint)

/-- A response; `ok` is set in both. -/
inductive Response (ρ : Type)
  | ok (result : CommandResult ρ)
  | error (text : ErrorText)

/-- What escapes from `_dispatch`. -/
inductive DispatchError
  | recursionError
  | typeError
  | unprintable
deriving DecidableEq, Repr

/-- `command == name`. -/
def isName (name : String) : Json → Bool
  | .str s => s = codePoints name
  | _ => false

/-- Arrays and objects have no hash. -/
def hashable : Json → Bool
  | .arr _ | .obj _ => false
  | _ => true

/-- `_COMMANDS.get(command)`, of a command that has a hash. -/
def findCommand (command : Json) : Option Command :=
  (commands.find? fun c => isName c.1 command).map Prod.snd

/-- `request.get("args") or {}`, when it is a dictionary. -/
def requestArgs (request : List (List CodePoint × Json)) :
    Option (List (List CodePoint × Json)) :=
  match lookup "args" request with
  | none => some []
  | some (.obj args) => some args
  | some args => if args.truthy then none else some []

/-- The handler's turn; `str exc` may itself raise. -/
def respond (str : ε → Option (List CodePoint)) :
    Except (CommandError ε) (CommandResult ρ) → Except DispatchError (Response ρ)
  | .ok result => .ok (.ok result)
  | .error (.protocol e) => .ok (.error (.protocol e))
  | .error (.handler exc) =>
      match str exc with
      | some text => .ok (.error (.handler text))
      | none => .error .unprintable

/-- A request with its command and arguments. -/
def dispatchCommand (str : ε → Option (List CodePoint)) (statusOnly : Bool)
    (handlers : ControlHandlers ρ ε) (command : Json) (args : List (List CodePoint × Json)) :
    Except DispatchError (Response ρ) :=
  if statusOnly ∧ ¬isName "status" command then .ok (.error .statusOnly)
  else if !hashable command then .error .typeError
  else match findCommand command with
  | none => .ok (.error (.unknownCommand command))
  | some c => respond str (runCommand handlers args c)

/-- `_dispatch`, with the limits of the interpreter on digits and on recursion. -/
def dispatch (maxDigits depth : ℕ) (str : ε → Option (List CodePoint)) (statusOnly : Bool)
    (handlers : ControlHandlers ρ ε) (line : List UInt8) : Except DispatchError (Response ρ) :=
  match loads maxDigits depth line with
  | .error .valueError => .ok (.error .malformedJson)
  | .error .recursionError => .error .recursionError
  | .ok (.obj request) =>
      match lookup "command" request with
      | none => .ok (.error .noCommand)
      | some command =>
          match requestArgs request with
          | none => .ok (.error .argsShape)
          | some args => dispatchCommand str statusOnly handlers command args
  | .ok _ => .ok (.error .noCommand)

/-! ## Answers -/

/-- The command and the arguments of a line, when they get past the checks in front of the
lookup. -/
def accepted (maxDigits depth : ℕ) (statusOnly : Bool) (line : List UInt8) :
    Option (Json × List (List CodePoint × Json)) :=
  match loads maxDigits depth line with
  | .ok (.obj request) => do
      let command ← lookup "command" request
      let args ← requestArgs request
      if statusOnly ∧ ¬isName "status" command then none else some (command, args)
  | _ => none

/-- The decoder stays within its limit, an accepted command has a hash, and an exception
of its handler has a text. -/
def Answerable (maxDigits depth : ℕ) (str : ε → Option (List CodePoint)) (statusOnly : Bool)
    (handlers : ControlHandlers ρ ε) (line : List UInt8) : Prop :=
  loads maxDigits depth line ≠ .error .recursionError ∧
    ∀ command args, accepted maxDigits depth statusOnly line = some (command, args) →
      hashable command = true ∧ ∀ c exc, findCommand command = some c →
        runCommand handlers args c = .error (.handler exc) → (str exc).isSome = true

variable {str : ε → Option (List CodePoint)} {handlers : ControlHandlers ρ ε}

theorem exists_respond_iff {r : Except (CommandError ε) (CommandResult ρ)} :
    (∃ response, respond str r = .ok response) ↔
      ∀ exc, r = .error (.handler exc) → (str exc).isSome = true := by
  rcases r with (e | exc) | result
  · simp [respond]
  · rcases htext : str exc with _ | text
    · simp [respond, htext]
    · simp [respond, htext]
  · simp [respond]

theorem exists_dispatchCommand_iff {statusOnly : Bool} {command : Json}
    {args : List (List CodePoint × Json)} :
    (∃ response, dispatchCommand str statusOnly handlers command args = .ok response) ↔
      (¬(statusOnly ∧ ¬isName "status" command) → hashable command = true ∧
        ∀ c exc, findCommand command = some c →
          runCommand handlers args c = .error (.handler exc) → (str exc).isSome = true) := by
  rw [dispatchCommand]
  by_cases hstatus : statusOnly ∧ ¬isName "status" command
  · simp [hstatus]
  rw [if_neg hstatus]
  by_cases hhash : hashable command = true
  · rcases hfind : findCommand command with _ | c
    · simp [hhash]
    · simp only [hhash, Bool.not_true, Bool.false_eq_true, if_false, exists_respond_iff]
      exact ⟨fun h _ => ⟨trivial, fun c' exc hc hexc => h exc (Option.some.inj hc ▸ hexc)⟩,
        fun h exc hexc => (h hstatus).2 c exc rfl hexc⟩
  · rw [if_pos (by simpa using hhash)]
    exact iff_of_false (by simp) fun h => hhash (h hstatus).1

/-- A request is answered exactly when it is answerable, whatever its handlers do. -/
theorem exists_dispatch_iff {maxDigits depth : ℕ} {statusOnly : Bool} {line : List UInt8} :
    (∃ response, dispatch maxDigits depth str statusOnly handlers line = .ok response) ↔
      Answerable maxDigits depth str statusOnly handlers line := by
  rw [dispatch.eq_def, Answerable, accepted]
  split
  · next heq => simp [heq]
  · next heq => simp [heq]
  · next request heq =>
    rcases hcommand : lookup "command" request with _ | command
    · simp [heq, hcommand]
    rcases hargs : requestArgs request with _ | args
    · simp [heq, hcommand, hargs]
    simp only [exists_dispatchCommand_iff, heq, hcommand, hargs]
    by_cases hstatus : statusOnly ∧ ¬isName "status" command
    · simp [hstatus]
    · simp
  · next value hobj heq =>
    refine iff_of_true ⟨_, rfl⟩ ⟨by simp [heq], fun command args haccepted => ?_⟩
    rw [heq] at haccepted
    cases value with
    | obj request => exact absurd rfl (hobj request)
    | _ => cases haccepted

/-- A value that is nested deeper than the limit gets no answer. -/
theorem not_exists_dispatch_of_nesting {maxDigits depth depth' : ℕ} {statusOnly : Bool}
    {line : List UInt8} {value : Json} (h : loads maxDigits depth' line = .ok value)
    (hdeep : depth < value.nesting) :
    ¬∃ response, dispatch maxDigits depth str statusOnly handlers line = .ok response := by
  rw [exists_dispatch_iff]
  exact fun hanswerable => hanswerable.1 ((loads_eq_recursionError_iff h depth).mpr hdeep)

/-- Requests are answered, and lines do not depend on how they arrive: both hold exactly
outside of these inputs. -/
theorem control_iff (maxDigits depth : ℕ) (str : ε → Option (List CodePoint)) (statusOnly : Bool)
    (handlers : ControlHandlers ρ ε) (line : List UInt8) (maxBytes : ℕ) (stream : List UInt8) :
    ((∃ response, dispatch maxDigits depth str statusOnly handlers line = .ok response) ↔
        Answerable maxDigits depth str statusOnly handlers line) ∧
      (ChunkFree maxBytes stream ↔ ¬Straddles recvSize maxBytes stream) :=
  ⟨exists_dispatch_iff, chunkFree_iff maxBytes stream⟩

end Dispatch

/-- The bytes of a line of ASCII. -/
def asciiBytes (s : String) : List UInt8 := s.toList.map fun c => UInt8.ofNat c.toNat

/-- Handlers that return. -/
def quietHandlers : ControlHandlers Unit Empty where
  status := .ok ()
  pause _ := .ok ()
  resume _ := .ok ()
  drain := .ok ()
  reprocess _ := .ok 0
  unquarantine _ := .ok 0
  shutdown := .ok ()

/-- A command that is an array gets no answer. -/
theorem not_exists_dispatch_array :
    ¬∃ response, dispatch 4300 1000 (fun exc => exc.elim) false quietHandlers
      (asciiBytes "\x7b\"command\": []\x7d") = .ok response := by
  have hnone : (dispatch 4300 1000 (fun exc => exc.elim) false quietHandlers
      (asciiBytes "\x7b\"command\": []\x7d")).toOption.isNone = true := by decide +kernel
  rintro ⟨response, hresponse⟩
  rw [hresponse] at hnone
  cases hnone

theorem lineLength_replicate (n : ℕ) (rest : List UInt8) :
    lineLength (List.replicate n 32 ++ newline :: rest) = n + 1 := by
  rw [lineLength, List.takeWhile_append_of_pos]
  · simp
  · intro b hb
    rw [(List.mem_replicate.mp hb).2]
    decide

/-- A command that is an array, and a line of 64 KiB with a byte behind it. -/
theorem not_control :
    (¬∃ response, dispatch 4300 1000 (fun exc => exc.elim) false quietHandlers
        (asciiBytes "\x7b\"command\": []\x7d") = .ok response) ∧
      ¬ChunkFree 65536 (List.replicate 65535 32 ++ newline :: [32]) := by
  refine ⟨not_exists_dispatch_array, ?_⟩
  rw [chunkFree_iff, not_not, Straddles, lineLength_replicate, List.length_append,
    List.length_replicate]
  exact ⟨List.mem_append_right _ List.mem_cons_self, by decide, by decide, by decide⟩

end RerollSync.Control
