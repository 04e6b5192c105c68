import Doip.Failure
import Doip.Network.IpAddress
import Doip.Text.Blank

/-! # Connecting to a gateway

The checks made before anything is sent, and how an attempt to connect fails. -/
namespace Doip.Network

/-- Why a machine could not be reached. -/
inductive Obstacle where
  /-- Nothing listens on the port. -/
  | refused
  /-- There is no way to the network. -/
  | unreachable
  /-- The address alone does not tell where to go. -/
  | unusable
  /-- No answer came in time. -/
  | silent
  | other (text : String)
deriving DecidableEq, Repr

def Obstacle.text : Obstacle → String
  | refused => "Connection refused (os error 111)"
  | unreachable => "Network is unreachable (os error 101)"
  | unusable => "Invalid argument (os error 22)"
  | silent => "connection timeout"
  | other text => text

/-- The failure of an attempt to connect to `peer`. -/
def connectFailure (peer : Endpoint) (obstacle : Obstacle) : Failure :=
  .connectFailed (peer.text ++ ": " ++ obstacle.text)

/-- The gateway's address from its text, which may have blanks around it. The tester's own
logical address has to be another than zero; of two faults the one in the text is reported. -/
def gatewayAddress (source : Address) (text : String) : Except Failure IpAddress :=
  match IpAddress.parse? (Text.trim text) with
  | none => .error (.invalidArgument ("'" ++ text ++ "' is not an IP address"))
  | some address =>
    if source = 0 then .error (.invalidArgument "source logical address must be non-zero")
    else .ok address

end Doip.Network
