import Doip.Frame.Header
import Doip.Security.Registry
import Doip.Time

/-! # Settings of a client

Times are in milliseconds. Every setting has a default. -/
namespace Doip

structure Settings where
  gatewayPort : UInt16 := 13400
  /-- Written into the header of every frame. -/
  protocolVersion : UInt8 := defaultProtocolVersion
  connectTimeoutMs : UInt64 := 5000
  /-- How long the answer to a routing activation may take. -/
  activationTimeoutMs : UInt64 := 2000
  /-- How long the next answer may take after one that says it is pending. -/
  p2StarMs : UInt64 := 5000
  /-- How long a collection goes on after its window. -/
  multiResponseGraceMs : UInt64 := 250
  /-- How long the caller of a collection waits beyond its end. -/
  callerMarginMs : UInt64 := 2000
  closeTimeoutMs : UInt64 := 2000
  /-- Longer payloads are neither sent nor accepted. -/
  maxPayloadLength : UInt32 := defaultPayloadLimit
  /-- How many responses are kept that nobody has asked for yet. -/
  inboxCapacity : UInt64 := 64
  secrets : List SecretEntry := []
deriving DecidableEq, Repr

namespace Settings

def connectTimeout (s : Settings) : Duration := .ofMillis s.connectTimeoutMs

def activationTimeout (s : Settings) : Duration := .ofMillis s.activationTimeoutMs

def p2Star (s : Settings) : Duration := .ofMillis s.p2StarMs

def multiResponseGrace (s : Settings) : Duration := .ofMillis s.multiResponseGraceMs

def callerMargin (s : Settings) : Duration := .ofMillis s.callerMarginMs

def closeTimeout (s : Settings) : Duration := .ofMillis s.closeTimeoutMs

end Settings
end Doip
