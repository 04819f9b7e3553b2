import Flotilla.Inventory.Basic
import Flotilla.Json.Decode

/-!
# Inventories as JSON

Servers, proxy services and inventories are configured as JSON objects.  Unset fields are written
as null and may be left out when read.
-/

namespace Flotilla

open Json

/-- The names of the kinds of proxies. -/
def ProxyKind.names : List (String × ProxyKind) :=
  [("ssh", .ssh), ("http", .http), ("https", .https), ("socks", .socks), ("socks5", .socks5)]

/-- The name of a kind of proxy. -/
def ProxyKind.name : ProxyKind → String
  | .ssh => "ssh"
  | .http => "http"
  | .https => "https"
  | .socks => "socks"
  | .socks5 => "socks5"

/-- Decodes the name of a kind of proxy. -/
def ProxyKind.decode : Decoder ProxyKind := decodeName ProxyKind.names

/-- The fields of a server in JSON. -/
def Server.fields : List (RecordField Server) :=
  let text := decodeOption decodeString
  [ field "addr" text fun v s => { s with addr := v },
    field "port" (decodeOption decodePort) fun v s => { s with port := v },
    field "user" text fun v s => { s with user := v },
    field "password" text fun v s => { s with password := v },
    field "key" text fun v s => { s with key := v },
    field "key_passphrase" text fun v s => { s with keyPassphrase := v },
    field "key_command" text fun v s => { s with keyCommand := v },
    field "cert" text fun v s => { s with cert := v },
    field "cert_key" text fun v s => { s with certKey := v },
    field "pkcs11_provider" text fun v s => { s with pkcs11Provider := v },
    field "pkcs11_pin" text fun v s => { s with pkcs11Pin := v },
    field "agent" (decodeOption decodeBool) fun v s => { s with agent := v },
    field "proxy" text fun v s => { s with proxy := v },
    field "proxy_type" (decodeOption ProxyKind.decode) fun v s => { s with proxyKind? := v },
    field "proxy_command" text fun v s => { s with proxyCommand := v },
    field "groups" (decodeList decodeString) fun v s => { s with groups := v } ]

/-- Decodes a server. -/
def Server.decode : Decoder Server := decodeRecord Server.fields {}

/-- A server as JSON. -/
def Server.toJson (s : Server) : Json :=
  .object [
    ("addr", .ofOption s.addr),
    ("port", (s.port.map fun p => Json.nat p.toNat).getD .null),
    ("user", .ofOption s.user),
    ("password", .ofOption s.password),
    ("key", .ofOption s.key),
    ("key_passphrase", .ofOption s.keyPassphrase),
    ("key_command", .ofOption s.keyCommand),
    ("cert", .ofOption s.cert),
    ("cert_key", .ofOption s.certKey),
    ("pkcs11_provider", .ofOption s.pkcs11Provider),
    ("pkcs11_pin", .ofOption s.pkcs11Pin),
    ("agent", (s.agent.map Json.bool).getD .null),
    ("proxy", .ofOption s.proxy),
    ("proxy_type", .ofOption (s.proxyKind?.map (·.name))),
    ("proxy_command", .ofOption s.proxyCommand),
    ("groups", .strings s.groups)]

/-- The fields of a proxy service in JSON. -/
def Proxy.fields : List (RecordField Proxy) :=
  [ (field "addr" decodeString fun v p => { p with addr := v }).mandatory,
    (field "port" decodePort fun v p => { p with port := v }).mandatory,
    (field "type" ProxyKind.decode fun v p => { p with kind := v }).mandatory,
    field "user" (decodeOption decodeString) fun v p => { p with user := v },
    field "password" (decodeOption decodeString) fun v p => { p with password := v } ]

/-- Decodes a proxy service. -/
def Proxy.decode : Decoder Proxy :=
  decodeRecord Proxy.fields { addr := "", port := 0, kind := .ssh }

/-- A proxy service as JSON. -/
def Proxy.toJson (p : Proxy) : Json :=
  .object [
    ("addr", .string p.addr),
    ("port", .nat p.port.toNat),
    ("type", .string p.kind.name),
    ("user", .ofOption p.user),
    ("password", .ofOption p.password)]

/-- The fields of an inventory in JSON. -/
def Inventory.fields : List (RecordField Inventory) :=
  [ field "common" Server.decode fun v i => { i with common := v },
    field "servers" (decodeEntries Server.decode) fun v i => { i with servers := .ofList v },
    field "proxies" (decodeEntries Proxy.decode) fun v i => { i with proxies := .ofList v } ]

/-- Decodes an inventory. -/
def Inventory.decode : Decoder Inventory := decodeRecord Inventory.fields {}

/-- An inventory as JSON. -/
def Inventory.toJson (i : Inventory) : Json :=
  .object [
    ("common", i.common.toJson),
    ("servers", .object (i.servers.entries.map fun (k, s) => (k, s.toJson))),
    ("proxies", .object (i.proxies.entries.map fun (k, p) => (k, p.toJson)))]

end Flotilla
