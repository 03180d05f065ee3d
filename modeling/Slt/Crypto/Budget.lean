import Slt.Cli.ServerConfig
import Slt.Crypto.TwoParty
import Slt.Proto.Codec

/-!
# The packets of a session and the MTU

What the cap on the MTU of the TUN device is for: a message within the limits of a
validated configuration leaves a UDP-QSP session in a packet that fits an Ethernet
frame, with the outer headers of IPv6 and UDP.
-/

namespace Slt

theorem Cli.TunSettings.tunMtu_of_validate {tun : Cli.TunSettings} (h : tun.validate = .ok ()) :
    tun.tunMtu.toNat ≤ 1406 := by
  unfold Cli.TunSettings.validate Cli.rejectIf at h
  split at h
  · cases h
  · split at h
    · cases h
    · rename_i hmtu
      exact UInt16.le_iff_toNat_le.mp (UInt16.not_lt.mp (not_or.mp hmtu).2)

namespace Crypto

open Lib (Bytes)
open Proto (Frame encodeMessage)

def ethernetIpMtu : Nat := 1500

def outerIpv6UdpHeaderLen : Nat := 40 + 8

/-- A payload that holds a frame header needs no padding. -/
theorem length_packetOf_le (boring : Boring) (keys : DirectionKeys) {dcid payload : Bytes}
    (hdcid : dcid.length ≤ maxDcidLen) (hpayload : 4 ≤ payload.length) (pn : Nat) (keyPhase : Bool) :
    (packetOf boring dcid (sealCallOf keys dcid pn keyPhase payload)).length ≤
      1 + maxDcidLen + maxWirePnLen + payload.length + aeadTagLen := by
  have hpn := (packetNumberLen_bounds pn).2
  simp [packetOf, sealCallOf, padding]
  unfold maxWirePnLen
  omega

section

variable {ι : Type} [SessionIo ι] [PeerUpdate ι] {boring : Boring} {o : TxOrigin} {bound : Nat}

/-- The session follows its schedule, and no packet so far is longer. -/
def SendsUpTo (boring : Boring) (o : TxOrigin) (bound : Nat) (st : Session ι × QspTape) : Prop :=
  (∃ g, TxAt boring o g st.1.txState) ∧ ∀ packet, .transmit packet ∈ st.2.log → packet.length ≤ bound

theorem SendsUpTo.runCall {st : Session ι × QspTape} (h : SendsUpTo boring o bound st) (call : Call ι)
    (hcall : ∀ payload, call = .send payload → ∀ pn,
      (packetOf boring o.dcid (scheduledCall boring o pn payload)).length ≤ bound) :
    SendsUpTo boring o bound (runCall boring st call) := by
  obtain ⟨⟨g, hat⟩, hpackets⟩ := h
  by_cases hsend : ∃ payload, call = .send payload
  · obtain ⟨payload, rfl⟩ := hsend
    obtain ⟨g', hat', hlog⟩ := send_at payload st.2 hat
    refine ⟨⟨g', hat'⟩, ?_⟩
    simp only [Crypto.runCall]
    generalize (st.1.send boring payload st.2).2.2.log = log' at hlog ⊢
    generalize (st.1.send boring payload st.2).2.1.nextPn = next at hlog
    cases hlog with
    | none => exact hpackets
    | sealed => simpa using hpackets
    | transmitted =>
      intro packet hpacket
      have hcases : .transmit packet ∈ st.2.log ∨
          packet = packetOf boring o.dcid (scheduledCall boring o st.1.nextPn payload) := by
        simpa using hpacket
      rcases hcases with hold | rfl
      · exact hpackets packet hold
      · exact hcall payload rfl _
  · obtain ⟨htx, hlog⟩ := runCall_frame boring st (not_exists.mp hsend)
    refine ⟨⟨g, by rwa [htx]⟩, ?_⟩
    rwa [hlog]

theorem SendsUpTo.runCalls (calls : List (Call ι))
    (hcalls : ∀ payload, .send payload ∈ calls → ∀ pn,
      (packetOf boring o.dcid (scheduledCall boring o pn payload)).length ≤ bound)
    {st : Session ι × QspTape} (h : SendsUpTo boring o bound st) :
    SendsUpTo boring o bound (runCalls boring st calls) := by
  induction calls generalizing st with
  | nil => exact h
  | cons call calls ih =>
    refine ih (fun payload hmem => hcalls payload (List.mem_cons_of_mem _ hmem)) (h.runCall call ?_)
    rintro payload rfl
    exact hcalls payload List.mem_cons_self

/-- Under a validated configuration, whatever calls are made on a session and whatever
fails: if what is sent are frames within the limits, every packet fits. -/
theorem packets_fit_ethernet {ρ : Type} (boring : Boring) {tun : Cli.TunSettings}
    (hvalid : tun.validate = .ok ()) (link : Link ι ρ) (calls : List (Call ι)) (faults : List Bool)
    (hframes : ∀ payload, .send payload ∈ calls → ∃ frame : Frame,
      encodeMessage frame [] = .ok payload ∧ frame.Fits (.fromMtu tun.tunMtu))
    {packet : Bytes}
    (hpacket : .transmit packet ∈ (runCalls boring (link.sender boring, ⟨faults, []⟩) calls).2.log) :
    packet.length + outerIpv6UdpHeaderLen ≤ ethernetIpMtu := by
  have hmtu := Cli.TunSettings.tunMtu_of_validate hvalid
  have hsends : SendsUpTo boring (link.origin boring) 1452
      (runCalls boring (link.sender boring, ⟨faults, []⟩) calls) := by
    refine .runCalls calls (fun payload hmem pn => ?_) ⟨(worldInv_init boring link).sender.current, by simp⟩
    obtain ⟨frame, hencode, hfits⟩ := hframes payload hmem
    obtain ⟨-, rfl⟩ := Proto.encodeMessage_ok hencode
    have hlen : ([] ++ frame.bytes).length = 5 + frame.payload.length := by
      simp [Proto.headerLen]
    have hmax : frame.payload.length ≤ 1406 := hfits.1.trans (max_le hmtu (by decide))
    refine (length_packetOf_le boring _ link.cid.bounded (by omega) pn _).trans ?_
    simp only [hlen, maxDcidLen, maxWirePnLen, aeadTagLen]
    omega
  exact Nat.add_le_add_right (hsends.2 packet hpacket) _

end

def largestTun : Cli.TunSettings := ⟨⟨.self [10, 10, 0, 1], 24⟩, "tun0", 1406⟩

def largestData : Frame := ⟨.data, List.replicate 1406 0⟩

def largestPacket : Bytes :=
  packetOf counterBoring [7]
    (scheduledCall counterBoring ((counterLink 5).origin counterBoring) 5 largestData.bytes)

theorem packets_fit_ethernet_largest : largestPacket.length + outerIpv6UdpHeaderLen ≤ ethernetIpMtu := by
  refine packets_fit_ethernet counterBoring (by decide : largestTun.validate = .ok ())
    (counterLink 5) [.send largestData.bytes] [] ?_ (by decide +kernel)
  intro payload hmem
  obtain rfl : payload = largestData.bytes := by simpa using hmem
  exact ⟨largestData, by decide +kernel⟩

end Crypto

end Slt
