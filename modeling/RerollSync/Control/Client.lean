import RerollSync.Control.Server
import RerollSync.Support.JsonText

/-!
# The control client

`send_control_command` writes one line and reads one back.  This module has the client and
its side of the command line, the replies that the server sends, and what a command means
without the socket between the two.
-/

namespace RerollSync.Control

open RerollSync.Store RerollSync.Support RerollSync.Daemon

/-! ## The client -/

/-- The loop of the client's `_read_line`, over the chunks that `recv` returns before the
end of the stream. -/
def readReplyInto (buf : List UInt8) : List (List UInt8) → Option (List UInt8)
  | [] => if buf = [] then none else some (buf.takeWhile (· ≠ newline))
  | chunk :: chunks =>
      if newline ∈ buf then some (buf.takeWhile (· ≠ newline))
      else readReplyInto (buf ++ chunk) chunks

/-- `_read_line` of the client, which has no limit. -/
def readReply (chunks : List (List UInt8)) : Option (List UInt8) := readReplyInto [] chunks

/-- The ways in which a request ends without a result once the daemon is connected:
`ControlClientError`, or, the last two, an exception that is no such error. -/
inductive ClientError
  | noReply
  | malformedResponse (line : List UInt8)
  | daemon (text : List CodePoint)
  | recursionError
  | attributeError

section Text

-- `repr` of a value, `float.__repr__` of a number, and the text of a decoder's error
variable (repr : Json → List CodePoint) (floatRepr : ℚ → List Char)
  (decodeError : List UInt8 → List CodePoint)

/-- `str` of a value. -/
def str : Json → List CodePoint
  | .str s => s
  | value => repr value

/-- The end of `send_control_command`, with the line that was read. -/
def interpret (maxDigits depth : ℕ) (line : Option (List UInt8)) : Except ClientError Json :=
  match line with
  | none => .error .noReply
  | some line =>
      match loads maxDigits depth line with
      | .error .valueError => .error (.malformedResponse line)
      | .error .recursionError => .error .recursionError
      | .ok (.obj response) =>
          if ((lookup "ok" response).getD (.bool false)).truthy then
            .ok ((lookup "result" response).getD .null)
          else .error (.daemon (str repr
            ((lookup "error" response).getD (.str (codePoints "unknown error")))))
      | .ok _ => .error .attributeError

/-- The text of a `ControlClientError`. -/
def ClientError.text (socketPath : List CodePoint) : ClientError → Option (List CodePoint)
  | .noReply =>
      some (codePoints "daemon at '" ++ socketPath ++
        codePoints "' closed the connection with no reply")
  | .malformedResponse line =>
      some (codePoints "malformed response from '" ++ socketPath ++ codePoints "': " ++
        decodeError line)
  | .daemon text => some text
  | .recursionError | .attributeError => none

/-- A value on a line. -/
def jsonLine (value : Json) : List UInt8 := encodeUtf8 (dumps floatRepr value) ++ [newline]

/-- The request that `send_control_command` sends on a line. -/
def request (command : String) (args : List (List CodePoint × Json)) : Json :=
  .obj [(codePoints "command", .str (codePoints command)), (codePoints "args", .obj args)]

/-! ## The server's replies -/

/-- `str` of a `ControlProtocolError`. -/
def ControlProtocolError.text : ControlProtocolError → List CodePoint
  | .required key =>
      codePoints "'" ++ codePoints key ++ codePoints "' is required and must be a non-empty string"
  | .unknownState name => codePoints "unknown state " ++ repr (.str name)
  | .unknownSelectorType type => codePoints "unknown selector type " ++ repr (.str type)

/-- The texts of the errors that `_dispatch` reports. -/
def ErrorText.text (line : List UInt8) : ErrorText → List CodePoint
  | .malformedJson => codePoints "malformed JSON request: " ++ decodeError line
  | .noCommand => codePoints "request must be a JSON object with a 'command' field"
  | .argsShape => codePoints "'args' must be a JSON object"
  | .statusOnly => codePoints "daemon is shutting down; only 'status' is accepted"
  | .unknownCommand command =>
      codePoints "unknown command " ++ repr command ++ codePoints ("; valid commands: " ++
        "['drain', 'pause', 'reprocess', 'resume', 'shutdown', 'status', 'unquarantine']")
  | .protocol e => e.text repr
  | .handler text => text

/-- What a command returns. -/
def CommandResult.toJson : CommandResult Json → Json
  | .status result => result
  | .stage name paused =>
      .obj [(codePoints "stage", .str name), (codePoints "paused", .bool paused)]
  | .draining => .obj [(codePoints "draining", .bool true)]
  | .affected count => .obj [(codePoints "affected", .int count)]
  | .shuttingDown => .obj [(codePoints "shutting_down", .bool true)]

def okReply (result : Json) : Json :=
  .obj [(codePoints "ok", .bool true), (codePoints "result", result)]

def errorReply (text : List CodePoint) : Json :=
  .obj [(codePoints "ok", .bool false), (codePoints "error", .str text)]

/-- The response to a request line. -/
def Response.toJson (line : List UInt8) : Response Json → Json
  | .ok result => okReply result.toJson
  | .error text => errorReply (text.text repr decodeError line)

variable {ε : Type}

/-- `_handle_connection`: the bytes that are sent before the connection is closed. -/
def handleConnection (maxBytes maxDigits depth : ℕ) (strExc : ε → Option (List CodePoint))
    (statusOnly : Bool) (handlers : ControlHandlers Json ε) (chunks : List (List UInt8)) :
    List UInt8 :=
  match readLine maxBytes chunks with
  | .nothing => []
  | .tooLong =>
      jsonLine floatRepr (errorReply (codePoints "request exceeded " ++
        (decimals maxBytes).map .char ++ codePoints " bytes"))
  | .line line =>
      match dispatch maxDigits depth strExc statusOnly handlers line with
      | .error _ => []
      | .ok response => jsonLine floatRepr (response.toJson repr decodeError line)

end Text

/-! ## The commands of the command line -/

/-- `WheelState.name`. -/
def stateName : WheelState → String
  | .needMetadata => "NEED_METADATA"
  | .noMetadata => "NO_METADATA"
  | .needConvert => "NEED_CONVERT"
  | .ready => "READY"
  | .skipped => "SKIPPED"
  | .quarantined => "QUARANTINED"
  | .deleted => "DELETED"

/-- `_selector_to_args`. -/
def selectorToArgs : AnySelector → List (List CodePoint × Json)
  | .rerollVersionBelow version =>
      [(codePoints "type", .str (codePoints "reroll_version_below")),
       (codePoints "version", .str version)]
  | .project project =>
      [(codePoints "type", .str (codePoints "project")), (codePoints "project", .str project)]
  | .state state =>
      [(codePoints "type", .str (codePoints "state")),
       (codePoints "state", .str (codePoints (stateName state)))]
  | .skippedOnly => [(codePoints "type", .str (codePoints "skipped_only"))]

/-- The entries of the registry that change something, and the options they were given. -/
inductive MutatingCommand
  | pause (stage : List CodePoint)
  | resume (stage : List CodePoint)
  | drain
  | reprocess (selector : AnySelector)
  | unquarantine (selector : AnySelector)
  | shutdown

/-- `MutatingCommand.command`. -/
def MutatingCommand.command : MutatingCommand → String
  | .pause _ => "pause"
  | .resume _ => "resume"
  | .drain => "drain"
  | .reprocess _ => "reprocess"
  | .unquarantine _ => "unquarantine"
  | .shutdown => "shutdown"

/-- `MutatingCommand.build_args`. -/
def MutatingCommand.buildArgs : MutatingCommand → List (List CodePoint × Json)
  | .pause stage | .resume stage => [(codePoints "stage", .str stage)]
  | .drain | .shutdown => []
  | .reprocess selector | .unquarantine selector => selectorToArgs selector

/-- A value of the result, as an f-string writes it. -/
def field (format : Json → List CodePoint) (key : String) : Json → Option (List CodePoint)
  | .obj pairs => (lookup key pairs).map format
  | _ => none

/-- The line of a campaign that was submitted. -/
def submitted (repr : Json → List CodePoint) (name : String) (result : Json) :
    Option (List CodePoint) :=
  (field (str repr) "affected" result).map fun count =>
    codePoints (name ++ " submitted: ") ++ count ++ codePoints " wheel(s) affected"

/-- `MutatingCommand.format_success`; the result may lack what it prints. -/
def MutatingCommand.formatSuccess (repr : Json → List CodePoint) (result : Json) :
    MutatingCommand → Option (List CodePoint)
  | .pause _ => (field repr "stage" result).map (codePoints "paused stage " ++ ·)
  | .resume _ => (field repr "stage" result).map (codePoints "resumed stage " ++ ·)
  | .drain => some (codePoints "draining")
  | .reprocess _ => submitted repr "reprocess" result
  | .unquarantine _ => submitted repr "unquarantine" result
  | .shutdown => some (codePoints "shutdown requested")

/-- How a command of the command line ends: with a status and a line, or in an exception. -/
inductive Exit
  | status (code : ℕ) (line : List CodePoint)
  | raised
deriving DecidableEq

section Control

variable (repr : Json → List CodePoint) (decodeError : List UInt8 → List CodePoint)

/-- `_control`, with the chunks of the reply. -/
def control (maxDigits depth : ℕ) (socketPath : List CodePoint) (command : MutatingCommand)
    (chunks : List (List UInt8)) : Exit :=
  match interpret repr maxDigits depth (readReply chunks) with
  | .ok result =>
      match command.formatSuccess repr result with
      | some line => .status 0 line
      | none => .raised
  | .error e =>
      match e.text decodeError socketPath with
      | some line => .status 1 line
      | none => .raised

end Control

/-! ## Commands without a socket -/

section Direct

variable {ε : Type} (repr : Json → List CodePoint) (strExc : ε → Option (List CodePoint))
  (socketPath : List CodePoint) (handlers : ControlHandlers Json ε)

/-- The argument that the daemon misses in a selector. -/
def missing : AnySelector → Option String
  | .rerollVersionBelow [] => some "version"
  | .project [] => some "project"
  | _ => none

/-- A handler's exception; one without a text costs the connection. -/
def exitOfException (exc : ε) : Exit :=
  match strExc exc with
  | some text => .status 1 (rejoin text)
  | none =>
      .status 1 (codePoints "daemon at '" ++ socketPath ++
        codePoints "' closed the connection with no reply")

def exitOfMissing (key : String) : Exit :=
  .status 1 (codePoints "'" ++ codePoints key ++
    codePoints "' is required and must be a non-empty string")

/-- A command that names a stage. -/
def stageExit (done : String) (handler : List CodePoint → Except ε Unit)
    (stage : List CodePoint) : Exit :=
  if stage = [] then exitOfMissing "stage"
  else match handler stage with
  | .ok _ => .status 0 (codePoints (done ++ " stage ") ++ repr (.str stage))
  | .error exc => exitOfException strExc socketPath exc

/-- A command that selects wheels. -/
def campaignExit (name : String) (handler : AnySelector → Except ε ℤ) (selector : AnySelector) :
    Exit :=
  match missing selector with
  | some key => exitOfMissing key
  | none =>
      match handler selector with
      | .ok count =>
          .status 0 (codePoints (name ++ " submitted: ") ++ repr (.int count) ++
            codePoints " wheel(s) affected")
      | .error exc => exitOfException strExc socketPath exc

/-- A command without options. -/
def plainExit (line : String) (handler : Except ε Unit) : Exit :=
  match handler with
  | .ok _ => .status 0 (codePoints line)
  | .error exc => exitOfException strExc socketPath exc

/-- How a command ends when the handlers are called with its own options. -/
def MutatingCommand.exit : MutatingCommand → Exit
  | .pause stage => stageExit repr strExc socketPath "paused" handlers.pause stage
  | .resume stage => stageExit repr strExc socketPath "resumed" handlers.resume stage
  | .drain => plainExit strExc socketPath "draining" handlers.drain
  | .reprocess selector =>
      campaignExit repr strExc socketPath "reprocess" handlers.reprocess selector
  | .unquarantine selector =>
      campaignExit repr strExc socketPath "unquarantine" handlers.unquarantine selector
  | .shutdown => plainExit strExc socketPath "shutdown requested" handlers.shutdown

/-- The handler's counts have no more digits than the interpreter writes. -/
def CountsFit (maxDigits : ℕ) : Prop :=
  ∀ selector count, handlers.reprocess selector = .ok count ∨
    handlers.unquarantine selector = .ok count → (decimals count.natAbs).length ≤ maxDigits

end Direct

end RerollSync.Control
