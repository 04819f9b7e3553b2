import Flotilla.Agent
import Flotilla.Environment
import Flotilla.Files

/-!
# This machine

What this machine offers to the program: variables, files, other programs and a key agent.
-/

namespace Flotilla

/-- How a program ended. -/
inductive ProgramEnd where
  | exit (status : Nat)
  | signal (number : Nat)
  deriving Repr, DecidableEq

/-- The names of signals. -/
def signalNames : List (Nat × String) :=
  [ (1, "SIGHUP"), (2, "SIGINT"), (3, "SIGQUIT"), (4, "SIGILL"), (5, "SIGTRAP"), (6, "SIGABRT"),
    (7, "SIGBUS"), (8, "SIGFPE"), (9, "SIGKILL"), (10, "SIGUSR1"), (11, "SIGSEGV"),
    (12, "SIGUSR2"), (13, "SIGPIPE"), (14, "SIGALRM"), (15, "SIGTERM"), (16, "SIGSTKFLT"),
    (17, "SIGCHLD"), (18, "SIGCONT"), (19, "SIGSTOP"), (20, "SIGTSTP"), (21, "SIGTTIN"),
    (22, "SIGTTOU"), (23, "SIGURG"), (24, "SIGXCPU"), (25, "SIGXFSZ"), (26, "SIGVTALRM"),
    (27, "SIGPROF"), (28, "SIGWINCH"), (29, "SIGIO"), (30, "SIGPWR"), (31, "SIGSYS") ]

/-- The text that says how a program ended. -/
def ProgramEnd.message : ProgramEnd → String
  | .exit status => s!"exit status: {status}"
  | .signal n => s!"signal: {n}" ++ ((signalNames.lookup n).elim "" fun name => s!" ({name})")

/-- What came of a program that ran to its end. -/
structure ProgramResult where
  output : Bytes
  ending : ProgramEnd
  deriving Repr, DecidableEq

/-- What this machine offers. -/
structure Machine where
  env : Environment
  files : Files
  /-- What comes of running a program with arguments and without input, or why it cannot be
  started. -/
  run : List String → Except IoFault ProgramResult
  /-- The key agent, with the keys that it holds by the time it is asked for them. -/
  agent : Except Agent.Absence Agent

end Flotilla
