/-!
# The user's environment

What the program asks its environment: the home directory, the user's name and where the key agent
listens.  `Environment.expandPath` puts the home directory in the place of a leading tilde.
-/

namespace Flotilla

/-- The variables of the environment that matter, each if it is set. -/
structure Environment where
  home : Option String := none
  user : Option String := none
  userName : Option String := none
  agentSocket : Option String := none
  /-- The home directory of the account, for want of a variable. -/
  accountHome : String := "/root"
  deriving Repr, DecidableEq

namespace Environment

/-- The home directory. -/
def homeDirectory (env : Environment) : String :=
  match env.home with
  | some home => if home = "" then env.accountHome else home
  | none => env.accountHome

/-- The name of the local user. -/
def localUser (env : Environment) : String :=
  (env.user <|> env.userName).getD "root"

/-- The path of `name` as seen from `directory`.  An absolute name stays as it is. -/
def joinPath (directory name : String) : String :=
  if name.startsWith "/" || directory = "" then name
  else if directory.endsWith "/" then directory ++ name
  else directory ++ "/" ++ name

/-- A path with the home directory in the place of a leading tilde. -/
def expandPath (env : Environment) (path : String) : String :=
  match path.toList with
  | ['~'] => env.homeDirectory
  | '~' :: '/' :: rest => joinPath env.homeDirectory (String.ofList rest)
  | _ => path

end Environment

end Flotilla
