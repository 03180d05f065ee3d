import Slt.Server.Refinement

/-!
# Echoes that can be sent

A session that can send the echo of a probe does not come to the recovery that
retires the UDP session without a word to the client.
-/

namespace Slt.Server

open Lib Lib.Handler Proto

/-- Sending the echo of a probe does not fail. It may be cut off. -/
structure Env.EchoesSent (env : Env) : Prop where
  protect : ∀ upgradeId nonce, (env.udpSend (.upgradeProbeAck upgradeId nonce)).protect = none
  before : ∀ upgradeId nonce source,
    (env.udpSend (.upgradeProbeAck upgradeId nonce)).flushBefore ≠ some (.failed source)
  after : ∀ upgradeId nonce source,
    (env.udpSend (.upgradeProbeAck upgradeId nonce)).flushAfter ≠ some (.failed source)
  flush : ∀ upgradeId nonce source,
    env.udpFlush (some (.upgradeProbeAck upgradeId nonce)) ≠ .failed source

def Loud (effect : ServerEffect) : Prop := effect ≠ .recovering .retireOnly

def Sent {α : Type} (r : Except (Stop SessionError) (Option α)) (_ : ServerSession)
    (out : List ServerEffect) : Prop :=
  (∀ err, r ≠ .ok (some err)) ∧ ∀ effect ∈ out, Loud effect

variable {env : Env} {s : ServerSession}

theorem sent_flushIfNeeded {flush : Option (Await IoError)}
    (hflush : ∀ source, flush ≠ some (.failed source)) :
    Triple (flushIfNeeded flush) s Sent := by
  have hnone : Triple (pure none : ServerM (Option IoError)) s Sent :=
    ⟨nofun, List.forall_mem_nil _⟩
  refine (triple_get_bind _).mpr ?_
  split
  · rename_i session flush _
    unfold flushPending
    split
    · exact hnone
    · split
      · exact ⟨nofun, List.forall_mem_nil _⟩
      · exact absurd rfl (hflush _)
      · exact ⟨nofun, List.forall_mem_nil _⟩
  · exact hnone

theorem sent_appendPacket {upgradeId nonce : UInt64} (h : env.EchoesSent) (session : UdpSession) :
    Triple (appendPacket env session (.upgradeProbeAck upgradeId nonce)) s Sent := by
  refine (triple_emit_bind _ _).mpr ((triple_modify_bind _ _).mpr ?_)
  refine Triple.bind (sent_flushIfNeeded (h.after upgradeId nonce)) ?_ ?_
  · rintro (_ | source) s' out ⟨hr, hout⟩
    · refine ⟨nofun, List.forall_mem_cons.mpr ⟨nofun, ?_⟩⟩
      exact List.forall_mem_append.mpr ⟨hout, List.forall_mem_nil _⟩
    · exact absurd rfl (hr source)
  · rintro e s' out ⟨-, hout⟩
    exact ⟨nofun, List.forall_mem_cons.mpr ⟨nofun, hout⟩⟩

theorem sent_queueUdpMessage {upgradeId nonce : UInt64} (h : env.EchoesSent) :
    Triple (queueUdpMessage env (.upgradeProbeAck upgradeId nonce)) s Sent := by
  refine (triple_get_bind _).mpr ?_
  split
  · exact ⟨nofun, List.forall_mem_nil _⟩
  rw [h.protect upgradeId nonce]
  refine Triple.bind (sent_flushIfNeeded (h.before upgradeId nonce)) ?_ ?_
  · rintro (_ | source) s' out ⟨hr, hout⟩
    · refine Triple.weaken (sent_appendPacket h _) fun r s'' out' hsent => ⟨hsent.1, ?_⟩
      exact List.forall_mem_append.mpr ⟨hout, hsent.2⟩
    · exact absurd rfl (hr source)
  · rintro e s' out ⟨-, hout⟩
    exact ⟨nofun, hout⟩

/-- Every run from `s` is loud. -/
abbrev Speaks {α : Type} (s : ServerSession) (m : ServerM α) : Prop :=
  Keeps (fun _ => True) (.all Loud) s m

theorem speaks_of_sent {α : Type} {m : ServerM (Option α)} {f : Option α → ServerM Unit}
    (h : Triple m s Sent) (hf : ∀ s', Speaks s' (f none)) : Speaks s (m >>= f) := by
  refine Triple.bind h ?_ ?_
  · rintro (_ | err) s' out ⟨hr, hout⟩
    · exact (hf s').after (c := ()) (t := s') hout
    · exact absurd rfl (hr err)
  · exact fun e s' out hsent => ⟨trivial, hsent.2⟩

theorem speaks_sendUdpMessageAndFlush {upgradeId nonce : UInt64} (h : env.EchoesSent)
    (recovery : UdpFailureRecovery) :
    Speaks s (sendUdpMessageAndFlush env (.upgradeProbeAck upgradeId nonce) recovery) := by
  have hqueued : Speaks s (sendUdpMessage env (.upgradeProbeAck upgradeId nonce) recovery) :=
    speaks_of_sent (sent_queueUdpMessage h) fun _ => .pure () trivial
  refine hqueued.bind fun _ s' _ => speaks_of_sent (sent_flushIfNeeded ?_) ?_
  · exact fun source hfailed => h.flush upgradeId nonce source (Option.some.inj hfailed)
  · exact fun _ => .pure () trivial

theorem speaks_sendTcpMessage (message : Message) : Speaks s (sendTcpMessage env message) := by
  refine .get_bind ?_
  split
  · exact .throw _ trivial
  refine .modify_bind ?_
  unfold writeFrame
  split
  · exact .emit_bind nofun (.modify trivial)
  · exact .emit_bind nofun (.modify_bind (.throw _ trivial))
  · exact .emit_bind nofun (.drop trivial)

theorem speaks_maybeSendSwitchToUdp : Speaks s (maybeSendSwitchToUdp env) := by
  refine .get_bind ?_
  dsimp only
  split
  · exact .pure _ trivial
  split
  · exact .pure _ trivial
  · exact (speaks_sendTcpMessage _).bind fun _ _ _ => .modify trivial

theorem speaks_handleUpgradeProbe (h : env.EchoesSent) (upgradeId nonce : UInt64) :
    Speaks s (handleUpgradeProbe env upgradeId nonce) := by
  refine .get_bind ?_
  split
  · exact .pure _ trivial
  refine .modify_bind ((speaks_sendUdpMessageAndFlush h _).bind fun _ _ _ => ?_)
  exact speaks_maybeSendSwitchToUdp.bind fun _ _ _ => .pure _ trivial

theorem speaks_handleEvent (h : env.EchoesSent) {event : SessionEvent}
    {p : Upgrade.Probe RegisterCidPayload UInt64} (hinput : event.input = .packet p) :
    Speaks s (handleEvent env event) := by
  obtain ⟨peer, packetNumber, rfl⟩ := SessionEvent.eq_of_packet hinput
  refine .modify_bind ?_
  rw [handleUdpPayload, handleUdpMessage_upgradeProbe]
  exact (speaks_handleUpgradeProbe h p.upgradeId p.nonce).bind fun _ _ _ =>
    .modify_bind (.pure _ trivial)

end Slt.Server
