import Doip.Network.Connect
import Doip.Settings

/-! # A machine without a network

A gateway may listen at 127.0.0.1 on one port. Nothing else can be reached, neither on
this machine nor elsewhere. -/
namespace Doip.Bench
open Network

/-- The address of version 4 that an attempt goes to, also when it is written as version 6. -/
def asIpv4? : IpAddress → Option Ipv4
  | .v4 address => some address
  | .v6 address =>
    match address.groups with
    | [0, 0, 0, 0, 0, 0xFFFF, g, h] =>
      some ⟨.ofNat (g.toNat / 256), .ofNat (g.toNat % 256), .ofNat (h.toNat / 256),
        .ofNat (h.toNat % 256)⟩
    | _ => none

/-- Whether an address of version 6 is that of a neighbour, which holds on one of the machine's
links only. -/
def isLinkLocal (address : Ipv6) : Bool :=
  match address.groups with
  | first :: _ => first.toNat / 64 = 0x3FA
  | [] => false

/-- Whether an attempt goes to this machine without saying so: no address is given. -/
def isUnspecified (address : Ipv4) : Bool := address = ⟨0, 0, 0, 0⟩

/-- Why an address without a gateway is not reached. -/
def obstacle (address : IpAddress) : Obstacle :=
  match asIpv4? address, address with
  | some address, _ => if isUnspecified address then .unusable else .unreachable
  | none, .v6 address => if isLinkLocal address then .unusable else .unreachable
  | none, .v4 _ => .unreachable

/-- An attempt to connect, when a gateway listens on `port`. -/
def reach (port : Option UInt16) (peer : Endpoint) : Except Obstacle Unit :=
  let isHere := match asIpv4? peer.address with
    | some address => address = ⟨127, 0, 0, 1⟩ || isUnspecified address
    | none => false
  if isHere && port = some peer.port then .ok () else .error (obstacle peer.address)

/-- Settings for a gateway on `port` of this machine, with short times. -/
def settingsFor (port : UInt16) : Settings where
  gatewayPort := port
  connectTimeoutMs := 1000
  activationTimeoutMs := 1000
  closeTimeoutMs := 1000

/-- Checks the arguments and connects; `port` is where a gateway listens. -/
def connect (port : Option UInt16) (source : Address) (ip : String) (settings : Settings) :
    Except Failure Unit := do
  let address ← gatewayAddress source ip
  match reach port ⟨address, settings.gatewayPort⟩ with
  | .ok () => .ok ()
  | .error obstacle => .error (connectFailure ⟨address, settings.gatewayPort⟩ obstacle)

end Doip.Bench
