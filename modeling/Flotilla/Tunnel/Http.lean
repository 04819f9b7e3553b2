import Flotilla.ConnectError
import Flotilla.Text.Base64
import Flotilla.Text.Blank

/-!
# Tunnels through HTTP proxies

`Http.request` asks a proxy for a tunnel, and `Http.readAnswer` takes the proxy's answer off the
front of the stream that it sends.  The stream arrives in chunks; where they are cut makes no
difference, and what follows the answer is kept.
-/

namespace Flotilla.Http

/-- A host and a port in one text.  A host with colons stands in brackets. -/
def authority (host : String) (port : UInt16) : String :=
  if host.contains ':' then s!"[{host}]:{port.toNat}" else s!"{host}:{port.toNat}"

/-- The line end of the protocol. -/
def lineEnd : String := "\r\n"

/-- The line that proves who asks, with its end. -/
def authorization (credentials : String × String) : String :=
  let (user, password) := credentials
  "Proxy-Authorization: Basic " ++ Base64.encode (utf8 (user ++ ":" ++ password)) ++ lineEnd

/-- The request for a tunnel. -/
def request (host : String) (port : UInt16) (credentials : Option (String × String)) : String :=
  let target := authority host port
  "CONNECT " ++ target ++ " HTTP/1.1" ++ lineEnd ++ "Host: " ++ target ++ lineEnd ++
    (credentials.elim "" authorization) ++ lineEnd

/-- A byte sequence in two, behind its first line feed if it has one. -/
def cutLine? : Bytes → Option (Bytes × Bytes)
  | [] => none
  | b :: r => if b = 10 then some ([b], r) else (cutLine? r).map fun (l, r) => (b :: l, r)

/-- Takes a line off a stream, with its end if it has one. -/
def takeLine : List Bytes → Bytes × List Bytes
  | [] => ([], [])
  | chunk :: later =>
    match cutLine? chunk with
    | some (line, rest) => (line, rest :: later)
    | none =>
      let (line, rest) := takeLine later
      (chunk ++ line, rest)

theorem append_of_cutLine? {s line rest : Bytes} (h : cutLine? s = some (line, rest)) :
    line ++ rest = s := by
  induction s generalizing line with
  | nil => simp [cutLine?] at h
  | cons b r ih =>
    rw [cutLine?] at h
    split at h
    · cases h
      rfl
    · obtain ⟨⟨l, q⟩, found, same⟩ := Option.map_eq_some_iff.1 h
      cases same
      simp [ih found]

/-- Taking a line loses nothing. -/
theorem takeLine_append (stream : List Bytes) :
    (takeLine stream).1 ++ (takeLine stream).2.flatten = stream.flatten := by
  induction stream with
  | nil => rfl
  | cons chunk later ih =>
    rw [takeLine]
    split
    · rename_i line rest found
      simp [← append_of_cutLine? found]
    · simp [← ih]

/-- Whether a line ends the head of an answer. -/
def isBlankLine (line : Bytes) : Bool := line = [13, 10] || line = [10]

/-- Skips the lines up to the blank one, for want of which there is no answer from `proxy`. -/
def skipHead (proxy : String) (stream : List Bytes) : Except ConnectError (List Bytes) :=
  match _ : takeLine stream with
  | (line, rest) =>
    if _ : line = [] then .error (.proxyRefused proxy "truncated response head")
    else if (Utf8.decode line).toOption.isNone then .error (.io .notText)
    else if isBlankLine line then .ok rest
    else skipHead proxy rest
termination_by stream.flatten.length
decreasing_by
  rename_i taken some_ _ _
  have whole := takeLine_append stream
  rw [taken] at whole
  rw [← whole, List.length_append]
  exact Nat.lt_add_of_pos_left (List.length_pos_iff.2 some_)

/-- Whether a status line grants a tunnel. -/
def grants (status : List Char) : Bool :=
  "HTTP/1.".toList.isPrefixOf status && (Text.words status)[1]? = some "200".toList

/-- Takes the answer of a proxy off a stream, and gives what follows it. -/
def readAnswer (proxy : String) (stream : List Bytes) : Except ConnectError (List Bytes) :=
  let (line, rest) := takeLine stream
  if line = [] then .error (.proxyRefused proxy "connection closed before response")
  else match Utf8.decode line with
    | .error _ => .error (.io .notText)
    | .ok s =>
      let status := Text.trimEnd s.toList
      if grants status then skipHead proxy rest
      else .error (.proxyRefused proxy (String.ofList status))

end Flotilla.Http
