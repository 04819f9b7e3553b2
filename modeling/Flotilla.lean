import Flotilla.Agent
import Flotilla.Cipher.Aes
import Flotilla.Cipher.Blowfish
import Flotilla.Cipher.Ed25519
import Flotilla.Cipher.Passphrase
import Flotilla.Connect.Adhoc
import Flotilla.Connect.Dial
import Flotilla.Connect.Factory
import Flotilla.Connect.Network
import Flotilla.Connect.Report
import Flotilla.ConnectError
import Flotilla.Credential.Basic
import Flotilla.Credential.Cache
import Flotilla.Credential.Fingerprint
import Flotilla.Credential.Kind
import Flotilla.Credential.Method
import Flotilla.Digest.Expansion
import Flotilla.Digest.Hmac
import Flotilla.Digest.Sha1
import Flotilla.Digest.Sha256
import Flotilla.Digest.Sha512
import Flotilla.Digest.Words
import Flotilla.Environment
import Flotilla.Files
import Flotilla.History.Capture
import Flotilla.History.Log
import Flotilla.History.Moment
import Flotilla.HostKey.KnownHosts
import Flotilla.HostKey.Policy
import Flotilla.Inventory.Adhoc
import Flotilla.Inventory.Basic
import Flotilla.Inventory.Json
import Flotilla.Inventory.Server
import Flotilla.IoFault
import Flotilla.Json.Basic
import Flotilla.Json.Decode
import Flotilla.Json.Magnitude
import Flotilla.Json.Parse
import Flotilla.Json.Print
import Flotilla.Key.Certificate
import Flotilla.Key.File
import Flotilla.Key.Private
import Flotilla.Key.Public
import Flotilla.Key.Wire
import Flotilla.Line.Builtin
import Flotilla.Line.Error
import Flotilla.Line.Piece
import Flotilla.Line.Statement
import Flotilla.Machine
import Flotilla.Rehearsal.Drive
import Flotilla.Rehearsal.Host
import Flotilla.Rehearsal.Local
import Flotilla.Rehearsal.Machine
import Flotilla.Rehearsal.Move
import Flotilla.Rehearsal.Network
import Flotilla.Rehearsal.Posix.Interpreter
import Flotilla.Rehearsal.Posix.Pattern
import Flotilla.Rehearsal.Posix.Syntax
import Flotilla.Rehearsal.Posix.Tools
import Flotilla.Route
import Flotilla.Secret
import Flotilla.Security
import Flotilla.Session.Authentication
import Flotilla.Session.Command
import Flotilla.Settings
import Flotilla.Shell.Child
import Flotilla.Shell.Console
import Flotilla.Shell.Display
import Flotilla.Shell.Executor
import Flotilla.Shell.LineWriter
import Flotilla.Shell.Pipe
import Flotilla.Shell.Replay
import Flotilla.Shell.Run
import Flotilla.Table
import Flotilla.Text.Base64
import Flotilla.Text.Base64.Wrapped
import Flotilla.Text.Blank
import Flotilla.Text.Cut
import Flotilla.Text.Decimal
import Flotilla.Text.Hex
import Flotilla.Text.Lines
import Flotilla.Text.Printable
import Flotilla.Text.Quoted
import Flotilla.Text.ShellWords
import Flotilla.Text.Utf8
import Flotilla.Tunnel.Http
import Flotilla.Tunnel.Relay
import Flotilla.Proofs.Failure
import Flotilla.Proofs.Text.Utf8
import Flotilla.Proofs.Text.Base64
import Flotilla.Proofs.Text.Lines
import Flotilla.Proofs.HostKey.KnownHosts
import Flotilla.Proofs.HostKey.FirstUse
import Flotilla.Proofs.Secret
import Flotilla.Proofs.Credential.Resolving
import Flotilla.Proofs.Credential.Finishing
import Flotilla.Proofs.Credential.Sharing
import Flotilla.Proofs.Credential.Outcomes
import Flotilla.Proofs.Credential.Reports
import Flotilla.Proofs.Credential.Ready
import Flotilla.Proofs.Session.Offers
import Flotilla.Proofs.Inventory.Sealing
import Flotilla.Proofs.Route.Walk
import Flotilla.Proofs.Route.Hops
import Flotilla.Proofs.Route.Scope
import Flotilla.Proofs.Connect.Order
import Flotilla.Proofs.Connect.Refusal
import Flotilla.Proofs.Connect.Report
import Flotilla.Proofs.Connect.Preparation
import Flotilla.Proofs.History.Commands
import Flotilla.Proofs.Shell.Events
import Flotilla.Proofs.Shell.Steps
import Flotilla.Proofs.Shell.Wiring
import Flotilla.Proofs.Shell.Plumbing
import Flotilla.Proofs.Shell.Traffic
import Flotilla.Proofs.Line.Lex
import Flotilla.Proofs.Shell.Accounts
import Flotilla.Proofs.Line.Append
import Flotilla.Proofs.Line.Quoting
import Flotilla.Proofs.Shell.Piping
import Flotilla.Proofs.Shell.Conveyance
import Flotilla.Proofs.Shell.LiveInput
import Flotilla.Proofs.Line.Reads
import Flotilla.Proofs.Line.Commands
import Flotilla.Proofs.Line.Trimmed
import Flotilla.Proofs.Line.Resent
import Flotilla.Proofs.Connect.Adhoc
import Flotilla.Proofs.Shell.Recording
import Flotilla.Proofs.Shell.Captured
import Flotilla.Proofs.Shell.LineWriter
import Flotilla.Proofs.Session.Output
import Flotilla.Proofs.Shell.Killing
import Flotilla.Proofs.Text.Span
import Flotilla.Proofs.Inventory.Description
import Flotilla.Proofs.Tunnel.Answer
import Flotilla.Proofs.Line.Quotations
import Flotilla.Proofs.Line.Segments
import Flotilla.Proofs.Shell.Rows
import Flotilla.Proofs.Shell.Replay
import Flotilla.Proofs.Credential.Configured
import Flotilla.Proofs.Text.ShellWords
import Flotilla.Proofs.Tunnel.Target
import Flotilla.Proofs.Tunnel.Request
import Flotilla.Proofs.Credential.Material
import Flotilla.Proofs.Credential.Identity
import Flotilla.Proofs.History.Operations
import Flotilla.Proofs.Files
import Flotilla.Proofs.Text.Decimal
import Flotilla.Proofs.Json.RoundTrip
import Flotilla.Proofs.History.Log
import Flotilla.Proofs.History.Export
import Flotilla.Proofs.Line.Positions
import Flotilla.Proofs.Line.Counting
import Flotilla.Proofs.Line.Indexed
import Flotilla.Proofs.Line.Astray
