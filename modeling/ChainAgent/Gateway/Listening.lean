import ChainAgent.Settings.Basic
import ChainAgent.Url.Host

/-! The listening address of a gateway, and whether it may start. -/
namespace ChainAgent.Gateway

/-- The zone index of an IPv6 address. -/
def isScope (cs : List Char) : Bool :=
  match cs with
  | [] => true
  | '%' :: ds =>
    !ds.isEmpty && ds.all Char.isDigit && ds.foldl (fun n c => n * 10 + (c.toNat - 48)) 0 < UInt32.size
  | _ => false

/-- Whether a host is an IPv4 address, or an IPv6 address in brackets. -/
def isAddress (host : String) : Bool :=
  match host.toList with
  | '[' :: cs =>
    cs.getLast? == some ']' &&
      let inside := cs.dropLast
      let address := inside.takeWhile (· != '%')
      (Url.ipv6Address address).isSome && isScope (inside.drop address.length)
  | cs => (Url.dottedGroups cs).isSome

/-- Whether the gateway may start: with authentication required there must be a usable client. -/
def mayOpen (s : Settings.Gateway) : Bool :=
  !s.requireAuth || s.clients.any fun c => !Text.saysNothing c.id && !c.secret.isEmpty

/-- The error message of a gateway that may not start. -/
def locked : String :=
  "Refusing to start: [gateway] require_auth = true but no [[gateway.clients]] are configured.\n" ++
  "Fix: add a client id/secret pair, or set require_auth = false for local testing."

end ChainAgent.Gateway
