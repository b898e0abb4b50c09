import DigDns.Transport

/-!
# `dig.local`

`dig_local.rs` and the ensure step of `server.rs`: a process that finds nothing
at the address of `dig.local` binds a reverse proxy to the local node there.
-/

namespace DigDns

open Rust Interaction

/-- The status that `proxy_respond` gives to a request that it could pass on: that
of the node, or 502 (`status_of_runs_proxyRespond`). -/
def proxyStatus (upstream : Option Nat) : Nat := upstream.getD 502

/-- The outcome of one ensure attempt. -/
inductive EnsureOutcome
  | alreadyMapped
  | established (boundPort : UInt16)
  | unavailable (reason : Str)
deriving DecidableEq

/-- `local_node_target` -/
def localNodeTarget (config : Config) : Str :=
  match config.nodeUrl with
  | some url => url.rdropWhile (· == '/')
  | none => localhostBase

/-- What a process asks of its host. -/
inductive HostCall
  | http (call : HttpCall)
  | bind (ip : Ipv4Addr) (port : UInt16)

/-- A bind gives the port of the listener. -/
abbrev HostAnswer : HostCall → Type
  | .http call => HttpAnswer call
  | .bind _ _ => Except Str UInt16

/-- A program of a process. -/
abbrev HostProg := Prog HostAnswer

/-- The base under which an address is probed. -/
def addressBase (ip : Ipv4Addr) (port : UInt16) : Str :=
  "http://".toList ++ ip.fmt ++ ":".toList ++ fmtNat port.toNat

/-- `probe_and_bind_dig_local` -/
def probeAndBindDigLocal (ip : Ipv4Addr) (port : UInt16) : HostProg EnsureOutcome :=
  .ask (.http (.get (addressBase ip port ++ "/health".toList))) fun answered =>
    if answered then .ret .alreadyMapped
    else
      .ask (.bind ip port) fun
        | .ok boundPort => .ret (.established boundPort)
        | .error reason => .ret (.unavailable reason)

/-- `ensure_dig_local_mapping` up to the point where it serves, where `client` is
what building the HTTP client gave. -/
def ensureDigLocalMapping (client : Except NodeError Unit) (config : Config) :
    HostProg EnsureOutcome :=
  match client with
  | .error e => .ret (.unavailable e.message)
  | .ok () => probeAndBindDigLocal config.digLocalIp config.digLocalPort

end DigDns
