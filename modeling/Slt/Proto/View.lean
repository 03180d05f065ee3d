import Slt.Proto.Message
import Slt.Upgrade.Protocol

/-!
# Messages as the upgrade protocol sees them

The upgrade protocol is about some of the messages on the streams; the others
(data, pings, closing) pass it by. Registrations are the payloads that the
client registers with, and identifiers are 64-bit numbers.
-/

namespace Slt

def ActiveTransport.isUdp : ActiveTransport → Bool
  | .tcp => false
  | .udpQsp => true

@[simp] theorem ActiveTransport.isUdp_tcp : ActiveTransport.tcp.isUdp = false := rfl
@[simp] theorem ActiveTransport.isUdp_udpQsp : ActiveTransport.udpQsp.isUdp = true := rfl

theorem ActiveTransport.isUdp_eq_true {transport : ActiveTransport} :
    transport.isUdp = true ↔ transport = .udpQsp := by
  cases transport <;> simp

namespace Proto

abbrev ClientView := Upgrade.Client RegisterCidPayload UInt64
abbrev ServerView := Upgrade.Server RegisterCidPayload UInt64
abbrev ClientMessage := Upgrade.ClientMessage RegisterCidPayload UInt64
abbrev ServerMessage := Upgrade.ServerMessage Cid UInt64
abbrev ClientAction := Upgrade.ClientAction RegisterCidPayload UInt64
abbrev ServerAction := Upgrade.ServerAction RegisterCidPayload Cid UInt64
abbrev ClientInput := Upgrade.Input ServerMessage RegisterCidPayload UInt64
abbrev ServerInput := Upgrade.Input ClientMessage RegisterCidPayload UInt64

namespace Message

def toServer : Message → Option ClientMessage
  | .registerCid payload => some (.register payload)
  | .udpReady upgradeId => some (.ready upgradeId)
  | .switchAck upgradeId => some (.ack upgradeId)
  | .fallbackToTcp fallbackId => some (.fallback fallbackId)
  | .fallbackOk fallbackId => some (.fallbackOk fallbackId)
  | _ => none

def toClient : Message → Option ServerMessage
  | .registerOk clientToServerCid => some (.registerOk clientToServerCid)
  | .registerFail _ => some .registerFail
  | .switchToUdp upgradeId => some (.switchTo upgradeId)
  | .switchOk upgradeId => some (.switchOk upgradeId)
  | .fallbackToTcp fallbackId => some (.fallback fallbackId)
  | .fallbackOk fallbackId => some (.fallbackOk fallbackId)
  | _ => none

theorem toServer_inj {message message' : Message} {m : ClientMessage}
    (h : message.toServer = some m) (h' : message'.toServer = some m) : message = message' := by
  cases message <;> cases h <;> cases message' <;> cases h' <;> rfl

/-- The code of a refusal is the one thing that is not seen of a message. -/
theorem toClient_inj {message message' : Message} {m : ServerMessage} (hm : m ≠ .registerFail)
    (h : message.toClient = some m) (h' : message'.toClient = some m) : message = message' := by
  cases message <;> cases h <;> cases message' <;> cases h' <;> first | rfl | exact absurd rfl hm

/-- The message is neither a probe nor its echo. -/
def isPlain : Message → Bool
  | .upgradeProbe _ _ => false
  | .upgradeProbeAck _ _ => false
  | _ => true

end Message

end Proto

end Slt
