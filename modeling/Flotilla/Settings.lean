import Flotilla.Environment
import Flotilla.Json.Decode
import Flotilla.Security

/-!
# Settings

`ConnectSettings` tune how connections are made, and `ShellSettings` the shell.
-/

namespace Flotilla

open Json

/-- How connections are made and kept.  Times are in milliseconds. -/
structure ConnectSettings where
  /-- The time for dialling one hop, and for the handshake and the log in on it. -/
  timeout : Nat := 20000
  /-- The time between probes on an idle connection. -/
  keepaliveInterval : Nat := 15000
  /-- How many probes may stay without an answer. -/
  keepaliveMax : Nat := 3
  security : Security := .strict
  deriving Repr, DecidableEq

/-- How the shell behaves. -/
structure ShellSettings where
  /-- Where the command log is kept. -/
  historyFile : String
  /-- The character in front of a segment that runs on this machine. -/
  localMark : Char
  prompt : String
  deriving Repr, DecidableEq

namespace ShellSettings

/-- The settings of a user who has set nothing. -/
def standard (env : Environment) : ShellSettings where
  historyFile := Environment.joinPath env.homeDirectory ".rmssh_history"
  localMark := '!'
  prompt := "rmssh> "

/-- The fields of the settings in JSON. -/
def fields : List (RecordField ShellSettings) :=
  [ (field "history_file" decodeString fun v s => { s with historyFile := v }).mandatory,
    (field "local_prefix" decodeChar fun v s => { s with localMark := v }).mandatory,
    (field "prompt" decodeString fun v s => { s with prompt := v }).mandatory ]

/-- Decodes settings. -/
def decode : Decoder ShellSettings := decodeRecord fields ⟨"", '!', ""⟩

/-- Settings as JSON. -/
def toJson (s : ShellSettings) : Json :=
  .object [
    ("history_file", .string s.historyFile),
    ("local_prefix", .string (String.ofList [s.localMark])),
    ("prompt", .string s.prompt)]

end ShellSettings

/-- Decodes the name of a profile. -/
def SecurityLevel.decode : Decoder SecurityLevel :=
  decodeName [("Secure", .secure), ("Balanced", .balanced), ("LegacyCompatible", .legacy)]

end Flotilla
