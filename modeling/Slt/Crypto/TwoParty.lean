import Slt.Crypto.TxSchedule
import Mathlib.Logic.Relation

/-!
# One sender, one receiver and the network between them

The two ends of one direction of a UDP-QSP association: a sending session and
a receiving session made from matching parameters. The network hands the
receiver any byte strings it likes, and any library or I/O call of either end
may fail. The AEAD is ideal: what opens under the keys of a generation was
sealed by the sender with that generation, nonce, header and ciphertext.
-/

namespace Slt.Crypto

open Lib Lib.U64

variable {ι ρ : Type}

/-- The parameters the two ends are made from. The secrets and packet numbers
of the other direction are not related. -/
structure Link (ι ρ : Type) where
  cipher : CipherSuite
  secret : TrafficSecret
  start : UInt64
  keyPhase : Bool
  cid : Cid
  senderIo : ι
  senderScid : Cid
  senderRxSecret : TrafficSecret
  senderExpectedPn : UInt64
  receiverIo : ρ
  receiverDcid : Cid
  receiverTxSecret : TrafficSecret
  receiverSendPn : UInt64

namespace Link

/-- The first keys of the direction from the sender to the receiver. -/
def keys (link : Link ι ρ) (boring : Boring) : DirectionKeys :=
  .ofSecret boring link.cipher link.secret

def sender (link : Link ι ρ) (boring : Boring) : Session ι :=
  .new link.senderIo link.senderScid link.cid
    ⟨link.cipher, link.keys boring, .ofSecret boring link.cipher link.senderRxSecret⟩
    link.start link.senderExpectedPn link.keyPhase

def receiver (link : Link ι ρ) (boring : Boring) : Session ρ :=
  .new link.receiverIo link.cid link.receiverDcid
    ⟨link.cipher, .ofSecret boring link.cipher link.receiverTxSecret, link.keys boring⟩
    link.receiverSendPn link.start link.keyPhase

def keysAt (link : Link ι ρ) (boring : Boring) (g : Nat) : DirectionKeys :=
  generationKeys boring link.cipher (link.keys boring) g

def origin (link : Link ι ρ) (boring : Boring) : TxOrigin where
  cipher := link.cipher
  dcid := link.cid.bytes
  keys := link.keys boring
  start := link.start.toNat
  keyPhase := link.keyPhase

end Link

/-- A packet that was handed to the sender's I/O layer, and what it carries. -/
structure SentPacket where
  payload : Bytes
  call : SealCall

def transmitted : List SessionEvent → List SealCall
  | .seal call :: .transmit _ :: rest => call :: transmitted rest
  | _ :: rest => transmitted rest
  | [] => []

structure World (ι ρ : Type) where
  sender : Session ι
  receiver : Session ρ
  sent : List SentPacket
  accepted : List OpenedPacket

def Link.world (link : Link ι ρ) (boring : Boring) : World ι ρ where
  sender := link.sender boring
  receiver := link.receiver boring
  sent := []
  accepted := []

abbrev AeadOpen :=
  (kind : AeadKind) → FixedBytes kind.keyLen → Nonce → Bytes → Bytes → Option Bytes

def AeadOpen.under (aeadOpen : AeadOpen) (key : PacketKey) : Nonce → Bytes → Bytes → Option Bytes :=
  aeadOpen key.aead key.key

/-- The sender sealed `plaintext` with generation `g`, this nonce and header,
and the result was `ciphertext`. -/
def Sealed (boring : Boring) (link : Link ι ρ) (sent : List SentPacket) (g : Nat) (nonce : Nonce)
    (ad ciphertext plaintext : Bytes) : Prop :=
  ∃ p ∈ sent, generationOf link.start.toNat p.call.pn = g ∧ p.call.nonce = nonce ∧
    p.call.ad = ad ∧ p.call.ciphertext boring = ciphertext ∧ p.call.plaintext = plaintext

/-- What opens under the keys of a generation was sealed with that generation. -/
def Unforgeable (boring : Boring) (link : Link ι ρ) (sent : List SentPacket)
    (aeadOpen : AeadOpen) : Prop :=
  ∀ g nonce ad ciphertext plaintext, generationStart link.start.toNat g < 2 ^ 64 →
    aeadOpen.under (link.keysAt boring g).aead nonce ad ciphertext = some plaintext →
      Sealed boring link sent g nonce ad ciphertext plaintext

/-- What the keys of a generation open is exactly what was sealed with them. -/
def Ideal (boring : Boring) (link : Link ι ρ) (sent : List SentPacket) (aeadOpen : AeadOpen) :
    Prop :=
  ∀ g nonce ad ciphertext plaintext, generationStart link.start.toNat g < 2 ^ 64 →
    (aeadOpen.under (link.keysAt boring g).aead nonce ad ciphertext = some plaintext ↔
      Sealed boring link sent g nonce ad ciphertext plaintext)

variable {boring : Boring} {link : Link ι ρ}

theorem Ideal.unforgeable {sent : List SentPacket} {aeadOpen : AeadOpen}
    (h : Ideal boring link sent aeadOpen) :
    Unforgeable boring link sent aeadOpen :=
  fun g nonce ad ciphertext plaintext hg => (h g nonce ad ciphertext plaintext hg).mp

def Call.NotReceiving : Call ρ → Prop
  | .openPacket _ => False
  | .recv => False
  | _ => True

def Call.payload : Call ι → Bytes
  | .send payload => payload
  | _ => []

section
variable [SessionIo ι] [PeerUpdate ι] [SessionIo ρ] [PeerUpdate ρ]

namespace World

/-- A call on the sender; the packets it transmits are on the network. -/
def callSender (boring : Boring) (w : World ι ρ) (call : Call ι) (faults : List Bool) :
    World ι ρ :=
  let out := runCall boring (w.sender, ⟨faults, []⟩) call
  { w with
    sender := out.1
    sent := w.sent ++ (transmitted out.2.log).map (⟨call.payload, ·⟩) }

def callReceiver (boring : Boring) (w : World ι ρ) (call : Call ρ) (faults : List Bool) :
    World ι ρ :=
  { w with receiver := (runCall boring (w.receiver, ⟨faults, []⟩) call).1 }

def deliver (boring : Boring) (w : World ι ρ) (packet : Bytes) (faults : List Bool) :
    World ι ρ :=
  let out := w.receiver.openPacket boring packet ⟨faults, []⟩
  { w with
    receiver := out.2.1
    accepted := w.accepted ++ out.1.toOption.toList }

end World

/-- One step: a call on the sender, a call on the receiver, or the delivery of
some bytes to the receiver, each with its own pattern of faults. -/
inductive Step (boring : Boring) (link : Link ι ρ) (w : World ι ρ) : World ι ρ → Prop
  | sender (call : Call ι) (faults : List Bool) :
      Step boring link w (w.callSender boring call faults)
  | receiver (call : Call ρ) (other : call.NotReceiving) (faults : List Bool) :
      Step boring link w (w.callReceiver boring call faults)
  | deliver (packet : Bytes) (aeadOpen : AeadOpen) (faults : List Bool)
      (ideal : Unforgeable boring link w.sent aeadOpen) :
      Step boring link w (w.deliver { boring with aeadOpen } packet faults)

def Reachable (boring : Boring) (link : Link ι ρ) : World ι ρ → Prop :=
  Relation.ReflTransGen (Step boring link) (link.world boring)

end

/-! ## The sender -/

/-- The sender follows its key schedule and has sent only what the schedule
prescribes. -/
structure SentInv (boring : Boring) (link : Link ι ρ) (sender : Session ι)
    (sent : List SentPacket) : Prop where
  current : ∃ g, TxAt boring (link.origin boring) g sender.txState
  scheduled : ∀ p ∈ sent, link.start.toNat ≤ p.call.pn ∧ p.call.pn < sender.nextPn ∧
    p.call = scheduledCall boring (link.origin boring) p.call.pn p.payload

theorem SentInv.pn_lt {sender : Session ι} {sent : List SentPacket}
    (h : SentInv boring link sender sent) {p : SentPacket}
    (hp : p ∈ sent) : p.call.pn < 2 ^ 64 - 1 := by
  obtain ⟨g, hat⟩ := h.current
  obtain ⟨-, hlt, -⟩ := h.scheduled p hp
  have hbound : sender.nextPn < 2 ^ 64 := hat.bounded
  omega

theorem SentInv.of_frame {sender sender' : Session ι} {sent : List SentPacket}
    (h : SentInv boring link sender sent)
    (htx : sender'.txState = sender.txState) : SentInv boring link sender' sent := by
  have hnext : sender'.nextPn = sender.nextPn := congrArg Session.TxState.nextPn htx
  refine ⟨?_, ?_⟩
  · rw [htx]
    exact h.current
  · rw [hnext]
    exact h.scheduled

theorem sentInv_sender [SessionIo ι] [PeerUpdate ι] {boring : Boring} {link : Link ι ρ}
    {sender : Session ι} {sent : List SentPacket} (h : SentInv boring link sender sent)
    (call : Call ι) (faults : List Bool) :
    let out := runCall boring (sender, ⟨faults, []⟩) call
    SentInv boring link out.1
      (sent ++ (transmitted out.2.log).map (⟨call.payload, ·⟩)) := by
  by_cases hsend : ∃ payload, call = .send payload
  · obtain ⟨payload, rfl⟩ := hsend
    obtain ⟨g, hat⟩ := h.current
    obtain ⟨g', hat', hlog⟩ := send_at payload ⟨faults, []⟩ hat
    simp only [runCall]
    generalize sender.send boring payload ⟨faults, []⟩ = out at hat' hlog
    obtain ⟨r, sender', t'⟩ := out
    dsimp only at hat' hlog ⊢
    generalize hn : sender'.nextPn = n at hlog
    generalize t'.log = log' at hlog ⊢
    have hlater : ∀ p ∈ sent, link.start.toNat ≤ p.call.pn ∧ p.call.pn < sender.nextPn + 1 ∧
        p.call = scheduledCall boring (link.origin boring) p.call.pn p.payload := by
      intro p hp
      obtain ⟨hstart, hlt, hcall⟩ := h.scheduled p hp
      exact ⟨hstart, by omega, hcall⟩
    cases hlog with
    | none => exact ⟨⟨g', hat'⟩, by simpa [transmitted, hn] using h.scheduled⟩
    | sealed bounded => exact ⟨⟨g', hat'⟩, by simpa [transmitted, hn] using hlater⟩
    | transmitted bounded =>
      refine ⟨⟨g', hat'⟩, ?_⟩
      rw [hn]
      intro p hp
      rcases List.mem_append.mp hp with hp | hp
      · exact hlater p hp
      · obtain rfl : p = ⟨payload, scheduledCall boring (link.origin boring) sender.nextPn
            payload⟩ := by simpa [transmitted, Call.payload] using hp
        exact ⟨hat.start_le, Nat.lt_succ_self _, rfl⟩
  · obtain ⟨htx, hlog⟩ := runCall_frame boring (sender, ⟨faults, []⟩) (not_exists.mp hsend)
    simp only [hlog, transmitted, List.map_nil, List.append_nil]
    exact h.of_frame htx

/-! ## The receiver -/

/-- The generation of the largest accepted packet number, `0` if none is. -/
def rxGeneration (start : Nat) : Option Nat → Nat
  | none => 0
  | some largest => generationOf start largest

/-- The receiving half of a session is in the generation of the largest number
accepted so far, and keeps the keys of the generation before for as long as
one of its packets could be accepted. -/
structure RxInv (boring : Boring) (link : Link ι ρ) (accepted : List OpenedPacket)
    (s : Session.RxState) (g : Nat) : Prop where
  scid : s.scid = link.cid
  cipher : s.cipher = link.cipher
  policy : s.policy = RekeyPolicy.defaults
  initialExpected : s.replayWindow.initialExpected = link.start.toNat
  tracks : s.replayWindow.Tracks {pn | ∃ o ∈ accepted, o.pn = pn}
  bounds : ∀ o ∈ accepted, link.start.toNat ≤ o.pn ∧ o.pn < 2 ^ 64 - 1
  generation : g = rxGeneration link.start.toNat s.replayWindow.largestPn
  keys : s.keys = link.keysAt boring g
  keyPhase : s.keyPhase = generationPhase link.keyPhase g
  nextRekeyPn : s.nextRekeyPn = rekeyThreshold link.start.toNat g
  previous : ∀ prev, s.previous = some prev → ∃ k, g = k + 1 ∧
    prev.keys.rx = link.keysAt boring k ∧
    prev.validUntilPn = generationStart link.start.toNat g + pnReplayWindow
  dropped : s.previous = none → g = 0 ∨ ∃ largest, s.replayWindow.largestPn = some largest ∧
    generationStart link.start.toNat g + pnReplayWindow ≤ largest

section
variable {boring : Boring} {link : Link ι ρ} {accepted : List OpenedPacket} {s : Session.RxState}
  {g : Nat}

variable (h : RxInv boring link accepted s g)
include h

theorem RxInv.largest_bounds {largest : Nat} (hl : s.replayWindow.largestPn = some largest) :
    link.start.toNat ≤ largest ∧ largest < 2 ^ 64 - 1 := by
  obtain ⟨o, ho, rfl⟩ := h.tracks.mem_largest hl
  exact h.bounds o ho

theorem RxInv.largest_mem {largest : Nat} (hl : s.replayWindow.largestPn = some largest) :
    generationStart link.start.toNat g ≤ largest ∧
      largest < generationStart link.start.toNat (g + 1) := by
  have hgen := h.generation
  rw [hl] at hgen
  exact (generationOf_eq_iff (h.largest_bounds hl).1).mp hgen.symm

/-- The expected number is the start, or one above the largest accepted. -/
theorem RxInv.expectedPn_eq :
    (s.replayWindow.largestPn = none ∧ s.replayWindow.expectedPn = link.start.toNat ∧ g = 0) ∨
      ∃ largest, s.replayWindow.largestPn = some largest ∧
        s.replayWindow.expectedPn = largest + 1 := by
  cases hl : s.replayWindow.largestPn with
  | none =>
    refine .inl ⟨rfl, ?_, by rw [h.generation, hl]; rfl⟩
    rw [ReplayWindow.expectedPn, hl, ← h.initialExpected]
  | some largest =>
    have := h.largest_bounds hl
    refine .inr ⟨largest, rfl, ?_⟩
    rw [ReplayWindow.expectedPn, hl]
    exact saturatingAdd_of_lt (by omega)

theorem RxInv.expectedPn_lt : s.replayWindow.expectedPn < 2 ^ 64 := by
  rcases h.expectedPn_eq with ⟨-, he, -⟩ | ⟨largest, hl, he⟩
  · rw [he]
    exact link.start.toNat_lt
  · have := h.largest_bounds hl
    omega

/-- The receiver expects a number of its generation, or the first of the next. -/
theorem RxInv.expectedPn_mem :
    generationStart link.start.toNat g ≤ s.replayWindow.expectedPn ∧
      s.replayWindow.expectedPn ≤ generationStart link.start.toNat (g + 1) := by
  rcases h.expectedPn_eq with ⟨-, he, rfl⟩ | ⟨largest, hl, he⟩
  · rw [he]
    exact ⟨generationStart_zero_le _, (lt_generationStart_one _).le⟩
  · have := h.largest_mem hl
    omega

theorem RxInv.generationStart_lt : generationStart link.start.toNat g < 2 ^ 64 :=
  Nat.lt_of_le_of_lt h.expectedPn_mem.1 h.expectedPn_lt

end

theorem rxInv_receiver (boring : Boring) (link : Link ι ρ) :
    RxInv boring link [] (link.receiver boring).rxState 0 where
  scid := rfl
  cipher := rfl
  policy := rfl
  initialExpected := rfl
  tracks := by
    simpa [Link.receiver, Session.new, Session.rxState] using ReplayWindow.tracks_new _
  bounds := by simp
  generation := rfl
  keys := rfl
  keyPhase := (generationPhase_zero _).symm
  nextRekeyPn := nextRekeyAfter_start _
  previous := by simp [Link.receiver, Session.new, Session.rxState]
  dropped := fun _ => .inl rfl

/-- Dropping outlived previous keys keeps the invariant; afterwards the keys
that are kept can still be tried. -/
theorem RxInv.confirm {accepted : List OpenedPacket} {self : Session ρ} {g : Nat}
    (h : RxInv boring link accepted self.rxState g) :
    let conf := self.maybeConfirmPreviousRxKeys self.replayWindow.expectedPn
    RxInv boring link accepted conf.rxState g ∧ conf.replayWindow = self.replayWindow ∧
      ∀ prev, conf.previousRx = some prev →
        self.replayWindow.expectedPn ≤ generationStart link.start.toNat g + pnReplayWindow := by
  intro conf
  have hprevious : ∀ prev, self.previousRx = some prev → ∃ k, g = k + 1 ∧
      prev.keys.rx = link.keysAt boring k ∧
      prev.validUntilPn = generationStart link.start.toNat g + pnReplayWindow := h.previous
  cases hprev : self.previousRx with
  | none =>
    have hconf : conf = self := by simp [conf, Session.maybeConfirmPreviousRxKeys, hprev]
    rw [hconf]
    exact ⟨h, rfl, by simp [hprev]⟩
  | some prev =>
    obtain ⟨k, hk, -, hvalid⟩ := hprevious prev hprev
    by_cases hlate : self.replayWindow.expectedPn > prev.validUntilPn
    · have hconf : conf = { self with previousRx := none } := by
        simp only [conf, Session.maybeConfirmPreviousRxKeys, hprev, if_pos hlate]
      rw [hconf]
      refine ⟨⟨h.scid, h.cipher, h.policy, h.initialExpected, h.tracks, h.bounds, h.generation,
        h.keys, h.keyPhase, h.nextRekeyPn, by simp [Session.rxState], fun _ => .inr ?_⟩, rfl,
        by simp⟩
      rcases h.expectedPn_eq with ⟨-, -, hzero⟩ | ⟨largest, hl, he⟩
      · omega
      · have he : self.replayWindow.expectedPn = largest + 1 := he
        exact ⟨largest, hl, by omega⟩
    · have hconf : conf = self := by
        simp only [conf, Session.maybeConfirmPreviousRxKeys, hprev, if_neg hlate]
      rw [hconf]
      refine ⟨h, rfl, fun _ _ => ?_⟩
      omega

/-- What opens under the keys of a generation is a packet of that generation
the sender sent. -/
theorem opens_sealed {sender : Session ι} {sent : List SentPacket} {self : Session ρ}
    {keys : UdpQspKeys} {packet : Bytes}
    {expectedPn g : Nat} {opened : OpenedPacket} {aeadOpen : AeadOpen}
    (hsent : SentInv boring link sender sent) (hideal : Unforgeable boring link sent aeadOpen)
    (hg : generationStart link.start.toNat g < 2 ^ 64) (hexpected : expectedPn < 2 ^ 64)
    (hkeys : keys.rx = link.keysAt boring g)
    (h : self.Opens { boring with aeadOpen } keys packet expectedPn opened) :
    ∃ p ∈ sent, generationOf link.start.toNat p.call.pn = g ∧ opened.pn = p.call.pn ∧
      opened.keyPhase = p.call.keyPhase ∧ opened.payload = p.call.plaintext := by
  obtain ⟨t, t', hrun⟩ := h
  obtain ⟨mask, parsed, -, hparse, hpn, -, hphase, hopen⟩ := UdpQspKeys.openIntoInner_ok hrun
  rw [hkeys] at hopen
  obtain ⟨p, hp, hgen, hnonce, had, -, hplain⟩ := hideal g _ _ _ _ hg hopen
  obtain ⟨hstart, hlt, hcall⟩ := hsent.scheduled p hp
  have hcallKeys : p.call.keys = link.keysAt boring g := by
    rw [hcall, ← hgen]
    rfl
  have hheader : parsed.header = headerBytes link.cid.bytes p.call.pn p.call.keyPhase := by
    rw [← had, hcall]
    rfl
  have hbound : opened.pn < 2 ^ 64 := by
    obtain ⟨hlen, hlt⟩ := parseHeader_pn hparse
    rw [hpn]
    exact reconstruct_lt hlen hexpected hlt
  have hpnLt := hsent.pn_lt hp
  rw [SealCall.nonce, hcallKeys] at hnonce
  refine ⟨p, hp, hgen, (makeNonce_inj (by omega) hbound hnonce).symm, ?_, hplain.symm⟩
  rw [hphase]
  exact (parseHeader_fields hparse hheader).2

/-- The results of the receiver: each is a packet the sender sent, and no
packet number comes twice. -/
structure AcceptedInv (sent : List SentPacket) (accepted : List OpenedPacket) : Prop where
  genuine : ∀ o ∈ accepted, ∃ p ∈ sent, o.pn = p.call.pn ∧ o.keyPhase = p.call.keyPhase ∧
    o.payload = p.call.plaintext
  once : (accepted.map (·.pn)).Nodup

theorem AcceptedInv.mono {sent sent' : List SentPacket} {accepted : List OpenedPacket}
    (h : AcceptedInv sent accepted) : AcceptedInv (sent ++ sent') accepted := by
  refine ⟨fun o ho => ?_, h.once⟩
  obtain ⟨p, hp, heq⟩ := h.genuine o ho
  exact ⟨p, List.mem_append_left _ hp, heq⟩

theorem acceptedPns_append (accepted : List OpenedPacket) (opened : OpenedPacket) :
    {pn | ∃ o ∈ accepted ++ [opened], o.pn = pn} =
      insert opened.pn {pn | ∃ o ∈ accepted, o.pn = pn} := by
  ext pn
  simp only [List.mem_append, List.mem_singleton, Set.mem_ofPred_eq, Set.mem_insert_iff]
  constructor
  · rintro ⟨o, ho | rfl, rfl⟩
    · exact .inr ⟨o, ho, rfl⟩
    · exact .inl rfl
  · rintro (rfl | ⟨o, ho, rfl⟩)
    · exact ⟨opened, .inr rfl, rfl⟩
    · exact ⟨o, .inl ho, rfl⟩

section
variable {boring : Boring} {link : Link ι ρ} {sender : Session ι} {sent : List SentPacket}
  {accepted : List OpenedPacket} {g : Nat} {opened : OpenedPacket} {p : SentPacket}

theorem AcceptedInv.accept {w : ReplayWindow} (h : AcceptedInv sent accepted) (hp : p ∈ sent)
    (hopened : opened.pn = p.call.pn ∧ opened.keyPhase = p.call.keyPhase ∧
      opened.payload = p.call.plaintext)
    (htracks : w.Tracks {pn | ∃ o ∈ accepted, o.pn = pn})
    (hfresh : w.Fresh {pn | ∃ o ∈ accepted, o.pn = pn} opened.pn) :
    AcceptedInv sent (accepted ++ [opened]) := by
  constructor
  · intro o ho
    rcases List.mem_append.mp ho with ho | ho
    · exact h.genuine o ho
    · rw [List.mem_singleton.mp ho]
      exact ⟨p, hp, hopened⟩
  · rw [List.map_append, List.nodup_append]
    refine ⟨h.once, by simp, ?_⟩
    rintro pn hpn _ hpn' rfl
    rw [List.map_singleton, List.mem_singleton] at hpn'
    obtain ⟨o, ho, hopn⟩ := List.mem_map.mp hpn
    exact htracks.not_mem_of_fresh hfresh ⟨o, ho, hopn.trans hpn'⟩

structure ReceiverInv (boring : Boring) (link : Link ι ρ) (sent : List SentPacket)
    (receiver : Session ρ) (accepted : List OpenedPacket) : Prop where
  rx : ∃ g, RxInv boring link accepted receiver.rxState g
  results : AcceptedInv sent accepted

theorem RxInv.bounds_append {s : Session.RxState} (h : RxInv boring link accepted s g)
    (hbounds : link.start.toNat ≤ opened.pn ∧ opened.pn < 2 ^ 64 - 1) :
    ∀ o ∈ accepted ++ [opened], link.start.toNat ≤ o.pn ∧ o.pn < 2 ^ 64 - 1 := by
  intro o ho
  rcases List.mem_append.mp ho with ho | ho
  · exact h.bounds o ho
  · rw [List.mem_singleton.mp ho]
    exact hbounds

/-- A number of the receiver's generation or of an earlier one does not change
the generation of the largest. -/
theorem RxInv.generation_max {s : Session.RxState} (h : RxInv boring link accepted s g) {pn : Nat}
    (hgen : generationOf link.start.toNat pn ≤ g) :
    g = generationOf link.start.toNat
      (match s.replayWindow.largestPn with | none => pn | some m => max m pn) := by
  have hgeneration := h.generation
  cases hl : s.replayWindow.largestPn with
  | none =>
    rw [hl] at hgeneration
    have hzero : g = 0 := hgeneration
    dsimp only
    omega
  | some m =>
    rw [hl] at hgeneration
    have hm : g = generationOf link.start.toNat m := hgeneration
    dsimp only
    rcases Nat.le_total m pn with hle | hle
    · rw [Nat.max_eq_right hle]
      have := generationOf_mono link.start.toNat hle
      omega
    · rw [Nat.max_eq_left hle]
      exact hm

/-- Accepting with keys already in use: the packet is of the current
generation or of an earlier one. -/
theorem accept_inv {self : Session ρ} (t : QspTape)
    (hrx : RxInv boring link accepted self.rxState g) (hacc : AcceptedInv sent accepted)
    (hp : p ∈ sent) (hopened : opened.pn = p.call.pn ∧ opened.keyPhase = p.call.keyPhase ∧
      opened.payload = p.call.plaintext)
    (hbounds : link.start.toNat ≤ opened.pn ∧ opened.pn < 2 ^ 64 - 1)
    (hgen : generationOf link.start.toNat opened.pn ≤ g) :
    let out := self.acceptOpened opened t
    ReceiverInv boring link sent out.2.1 (accepted ++ out.1.toOption.toList) := by
  intro out
  by_cases hfresh : self.replayWindow.Fresh {pn | ∃ o ∈ accepted, o.pn = pn} opened.pn
  · obtain ⟨w, hcheck, htracks, hinit, hlargest⟩ :=
      ReplayWindow.checkAndUpdate_of_fresh hrx.tracks hfresh
    have hout : out = (.ok opened, { self with replayWindow := w }, t) :=
      Session.acceptOpened_ok hcheck t
    rw [hout]
    refine ⟨⟨g, hrx.scid, hrx.cipher, hrx.policy, hinit.trans hrx.initialExpected, ?_,
      hrx.bounds_append hbounds, ?_, hrx.keys, hrx.keyPhase, hrx.nextRekeyPn, hrx.previous, ?_⟩,
      hacc.accept hp hopened hrx.tracks hfresh⟩
    · rw [← acceptedPns_append] at htracks
      exact htracks
    · show g = rxGeneration link.start.toNat w.largestPn
      rw [hlargest]
      exact hrx.generation_max hgen
    · intro hnone
      rcases hrx.dropped hnone with hzero | ⟨largest, hl, hle⟩
      · exact .inl hzero
      · rw [hl] at hlargest
        exact .inr ⟨_, hlargest, hle.trans (Nat.le_max_left _ _)⟩
  · obtain ⟨e, hcheck⟩ := ReplayWindow.checkAndUpdate_of_not_fresh hrx.tracks hfresh
    obtain ⟨e', hout⟩ := Session.acceptOpened_error hcheck t
    have hout : out = (.error e', self, t) := hout
    rw [hout]
    show ReceiverInv boring link sent self (accepted ++ [])
    rw [List.append_nil]
    exact ⟨⟨g, hrx⟩, hacc⟩

/-- Accepting after a promotion: the packet is the first accepted one of the
next generation, so it is newer than everything accepted before. -/
theorem promote_inv {self : Session ρ} {threshold : Nat} (t : QspTape) (aeadOpen : AeadOpen)
    (hrx : RxInv boring link accepted self.rxState g) (hacc : AcceptedInv sent accepted)
    (hrekey : self.rxNextRekeyPn = some threshold)
    (hp : p ∈ sent) (hopened : opened.pn = p.call.pn ∧ opened.keyPhase = p.call.keyPhase ∧
      opened.payload = p.call.plaintext)
    (hbounds : link.start.toNat ≤ opened.pn ∧ opened.pn < 2 ^ 64 - 1)
    (hgen : generationOf link.start.toNat opened.pn = g + 1) :
    let out := (self.promoted { boring with aeadOpen } threshold).acceptOpened opened t
    ReceiverInv boring link sent out.2.1 (accepted ++ out.1.toOption.toList) ∧
      out.1 = .ok opened := by
  intro out
  have hrekey : self.rxState.nextRekeyPn = some threshold := hrekey
  obtain ⟨hthreshold, hspace⟩ := rekeyThreshold_eq_some.mp (hrx.nextRekeyPn.symm.trans hrekey)
  have hlow := ((generationOf_eq_iff hbounds.1).mp hgen).1
  -- Everything accepted so far lies in generation g or before.
  have hfresh : self.replayWindow.Fresh {pn | ∃ o ∈ accepted, o.pn = pn} opened.pn := by
    have hinit : self.replayWindow.initialExpected = link.start.toNat := hrx.initialExpected
    unfold ReplayWindow.Fresh
    cases hl : self.replayWindow.largestPn with
    | none => exact hinit ▸ hbounds.1
    | some largest => exact .inl (Nat.lt_of_lt_of_le (hrx.largest_mem hl).2 hlow)
  obtain ⟨w, hcheck, htracks, hinit, hlargest⟩ :=
    ReplayWindow.checkAndUpdate_of_fresh hrx.tracks hfresh
  have hcheck : (self.promoted { boring with aeadOpen } threshold).replayWindow.checkAndUpdate
      opened.pn = (.ok (), w) := hcheck
  have hout : out = (.ok opened,
      { self.promoted { boring with aeadOpen } threshold with replayWindow := w }, t) :=
    Session.acceptOpened_ok hcheck t
  have hlargest : w.largestPn = some opened.pn := by
    rw [hlargest]
    cases hl : self.rxState.replayWindow.largestPn with
    | none => rfl
    | some largest =>
      have hlt := Nat.lt_of_lt_of_le (hrx.largest_mem hl).2 hlow
      exact congrArg some (Nat.max_eq_right hlt.le)
  have hcipher : self.keys.cipher = link.cipher := hrx.cipher
  have hpolicy : self.rekeyPolicy = RekeyPolicy.defaults := hrx.policy
  have hkeys : self.keys.rx = link.keysAt boring g := hrx.keys
  have hphase : self.rxKeyPhase = generationPhase link.keyPhase g := hrx.keyPhase
  rw [hout]
  refine ⟨⟨⟨g + 1, hrx.scid, hrx.cipher, hrx.policy, hinit.trans hrx.initialExpected, ?_,
    hrx.bounds_append hbounds, ?_, ?_, ?_, ?_, ?_, ?_⟩,
    hacc.accept hp hopened hrx.tracks hfresh⟩, rfl⟩
  · rw [← acceptedPns_append] at htracks
    exact htracks
  · show g + 1 = rxGeneration link.start.toNat w.largestPn
    rw [hlargest]
    exact hgen.symm
  · show DirectionKeys.next boring self.keys.cipher self.keys.rx = _
    rw [hcipher, hkeys]
    exact (generationKeys_succ ..).symm
  · show (!self.rxKeyPhase) = _
    rw [hphase, generationPhase_succ]
  · show nextRekeyAfter threshold self.rekeyPolicy.interval = _
    rw [hpolicy, hthreshold]
    exact nextRekeyAfter_generationStart _ _
  -- The keys just left are retained for one replay window past the threshold.
  · rintro prev ⟨⟩
    refine ⟨g, rfl, hkeys, ?_⟩
    have hroom := generationStart_add_interval_le (hthreshold ▸ hspace)
    show saturatingAdd threshold pnReplayWindow = _
    rw [hthreshold]
    refine saturatingAdd_of_lt (Nat.lt_of_lt_of_le (Nat.add_lt_add_left ?_ _) hroom)
    decide
  · rintro ⟨⟩

theorem candidate_inv {self : Session ρ} {aeadOpen : AeadOpen} {packet : Bytes}
    {expectedPn threshold : Nat} (t : QspTape) (hsent : SentInv boring link sender sent)
    (hrx : RxInv boring link accepted self.rxState g) (hacc : AcceptedInv sent accepted)
    (hideal : Unforgeable boring link sent aeadOpen) (hexpected : expectedPn < 2 ^ 64)
    (hrekey : self.rxNextRekeyPn = some threshold)
    (hopens : self.Opens { boring with aeadOpen } (self.nextRxKeys { boring with aeadOpen }) packet
      expectedPn opened) :
    let out := (self.promoted { boring with aeadOpen } threshold).acceptOpened opened t
    ReceiverInv boring link sent out.2.1 (accepted ++ out.1.toOption.toList) ∧
      out.1 = .ok opened := by
  have hrekey' : self.rxState.nextRekeyPn = some threshold := hrekey
  obtain ⟨hthreshold, hspace⟩ := rekeyThreshold_eq_some.mp (hrx.nextRekeyPn.symm.trans hrekey')
  have hkeys : (self.nextRxKeys { boring with aeadOpen }).rx = link.keysAt boring (g + 1) := by
    have hcipher : self.keys.cipher = link.cipher := hrx.cipher
    have hkeys : self.keys.rx = link.keysAt boring g := hrx.keys
    show DirectionKeys.next boring self.keys.cipher self.keys.rx = _
    rw [hcipher, hkeys]
    exact (generationKeys_succ ..).symm
  obtain ⟨p, hp, hgen, hopened⟩ :=
    opens_sealed hsent hideal (hthreshold ▸ hspace) hexpected hkeys hopens
  refine promote_inv t aeadOpen hrx hacc hrekey hp hopened ?_ ?_
  · rw [hopened.1]
    exact ⟨(hsent.scheduled p hp).1, hsent.pn_lt hp⟩
  · rw [hopened.1, hgen]

/-- Handing the receiver some bytes keeps its invariants, whatever the bytes
are and whatever fails. -/
theorem deliver_inv {receiver : Session ρ} {aeadOpen : AeadOpen}
    (hsent : SentInv boring link sender sent) (hinv : ReceiverInv boring link sent receiver accepted)
    (hideal : Unforgeable boring link sent aeadOpen) (packet : Bytes) (t : QspTape) :
    let out := receiver.openPacket { boring with aeadOpen } packet t
    ReceiverInv boring link sent out.2.1 (accepted ++ out.1.toOption.toList) := by
  intro out
  obtain ⟨g, hrx⟩ := hinv.rx
  have hexpected : receiver.replayWindow.expectedPn < 2 ^ 64 := hrx.expectedPn_lt
  obtain ⟨hconf, -, -⟩ := hrx.confirm
  obtain ⟨t', -, hstep⟩ := receiver.openPacket_cases { boring with aeadOpen } packet t
  change Session.OpenStep _ _ _ _ _ out at hstep
  generalize receiver.maybeConfirmPreviousRxKeys receiver.replayWindow.expectedPn = conf
    at hconf hstep
  generalize out = out at hstep
  -- Whichever keys open the packet, they are those of a generation, and an
  -- unforgeable AEAD opens only what the sender sealed in it.
  cases hstep with
  | current opened opens phase =>
    obtain ⟨p, hp, hgen, hopened⟩ :=
      opens_sealed hsent hideal hconf.generationStart_lt hexpected hconf.keys opens
    refine accept_inv t' hconf hinv.results hp hopened ?_ ?_
    · rw [hopened.1]
      exact ⟨(hsent.scheduled p hp).1, hsent.pn_lt hp⟩
    · rw [hopened.1, hgen]
  | previous prev opened retained valid opens phase =>
    obtain ⟨k, rfl, hkeys, -⟩ := hconf.previous prev retained
    have hk : generationStart link.start.toNat k < 2 ^ 64 :=
      Nat.lt_of_le_of_lt (generationStart_le_of_le (Nat.le_succ k)) hconf.generationStart_lt
    obtain ⟨p, hp, hgen, hopened⟩ := opens_sealed hsent hideal hk hexpected hkeys opens
    refine accept_inv t' hconf hinv.results hp hopened ?_ ?_
    · rw [hopened.1]
      exact ⟨(hsent.scheduled p hp).1, hsent.pn_lt hp⟩
    · rw [hopened.1, hgen]
      exact Nat.le_succ k
  | candidate threshold opened dropped rekey near opens phase =>
    exact (candidate_inv t' hsent hconf hinv.results hideal hexpected rekey opens).1
  | refused e =>
    show ReceiverInv boring link sent conf (accepted ++ [])
    rw [List.append_nil]
    exact ⟨⟨g, hconf⟩, hinv.results⟩

end

/-! ## Runs -/

section
variable [SessionIo ι] [PeerUpdate ι] [SessionIo ρ] [PeerUpdate ρ]

structure WorldInv (boring : Boring) (link : Link ι ρ) (w : World ι ρ) : Prop where
  sender : SentInv boring link w.sender w.sent
  receiver : ReceiverInv boring link w.sent w.receiver w.accepted

omit [SessionIo ι] [PeerUpdate ι] [SessionIo ρ] [PeerUpdate ρ] in
theorem worldInv_init (boring : Boring) (link : Link ι ρ) :
    WorldInv boring link (link.world boring) where
  sender := ⟨⟨0, txAt_new boring link.senderIo link.senderScid link.cid
    ⟨link.cipher, link.keys boring, .ofSecret boring link.cipher link.senderRxSecret⟩
    link.start link.senderExpectedPn link.keyPhase⟩, by simp [Link.world]⟩
  receiver := ⟨⟨0, rxInv_receiver boring link⟩, by simp [Link.world], by simp [Link.world]⟩

omit [SessionIo ι] [PeerUpdate ι] in
theorem callReceiver_rxState (boring : Boring) (w : World ι ρ) {call : Call ρ}
    (h : call.NotReceiving) (faults : List Bool) :
    (w.callReceiver boring call faults).receiver.rxState = w.receiver.rxState := by
  cases call with
  | send payload => exact w.receiver.send_frame boring payload _
  | openPacket packet => exact h.elim
  | recv => exact h.elim
  | _ => rfl

theorem step_inv {w w' : World ι ρ} (h : WorldInv boring link w) (hstep : Step boring link w w') :
    WorldInv boring link w' := by
  cases hstep with
  | sender call faults =>
    exact ⟨sentInv_sender h.sender call faults, h.receiver.rx, h.receiver.results.mono⟩
  | receiver call other faults =>
    refine ⟨h.sender, ?_, h.receiver.results⟩
    rw [callReceiver_rxState boring w other faults]
    exact h.receiver.rx
  | deliver packet aeadOpen faults ideal =>
    exact ⟨h.sender, deliver_inv h.sender h.receiver ideal packet _⟩

theorem reachable_inv {w : World ι ρ} (h : Reachable boring link w) : WorldInv boring link w := by
  induction h with
  | refl => exact worldInv_init boring link
  | tail _ hstep ih => exact step_inv ih hstep

omit [SessionIo ι] [PeerUpdate ι] [SessionIo ρ] [PeerUpdate ρ] in
theorem RxInv.largestPn_eq_max {accepted : List OpenedPacket} {s : Session.RxState} {g : Nat}
    (h : RxInv boring link accepted s g) :
    s.replayWindow.largestPn = (accepted.map (·.pn)).max? := by
  cases hl : s.replayWindow.largestPn with
  | none =>
    have hempty := h.tracks.none_iff.mp hl
    cases accepted with
    | nil => rfl
    | cons o rest =>
      have hmem : o.pn ∈ {pn | ∃ o' ∈ o :: rest, o'.pn = pn} := ⟨o, List.mem_cons_self, rfl⟩
      rw [hempty] at hmem
      exact absurd hmem (Set.notMem_empty _)
  | some largest =>
    symm
    rw [List.max?_eq_some_iff]
    constructor
    · obtain ⟨o, ho, hpn⟩ := h.tracks.mem_largest hl
      exact List.mem_map.mpr ⟨o, ho, hpn⟩
    · intro pn hpn
      obtain ⟨o, ho, rfl⟩ := List.mem_map.mp hpn
      exact h.tracks.le_largest hl _ ⟨o, ho, rfl⟩

/-- Safety of one direction of UDP-QSP, over every run with an adversary on
the network and every pattern of failures: each accepted packet has the packet
number, the phase bit and the plaintext of one the sender sent, its payload
followed by zero padding only; no packet number is accepted twice; and the
receiver's keys, phase bit and threshold are those of the generation of the
largest packet number accepted so far, of the first one if there is none. -/
theorem two_party_safety {boring : Boring} {link : Link ι ρ} {w : World ι ρ}
    (h : Reachable boring link w) :
    (∀ o ∈ w.accepted, ∃ p ∈ w.sent, o.pn = p.call.pn ∧ o.keyPhase = p.call.keyPhase ∧
      o.payload = p.payload ++ List.replicate (4 - packetNumberLen o.pn - p.payload.length) 0) ∧
    (w.accepted.map (·.pn)).Nodup ∧
    let g := rxGeneration link.start.toNat (w.accepted.map (·.pn)).max?
    w.receiver.keys.rx = generationKeys boring link.cipher (link.keys boring) g ∧
      w.receiver.rxKeyPhase = generationPhase link.keyPhase g ∧
      w.receiver.rxNextRekeyPn = rekeyThreshold link.start.toNat g := by
  have hinv := reachable_inv h
  obtain ⟨g, hrx⟩ := hinv.receiver.rx
  refine ⟨fun o ho => ?_, hinv.receiver.results.once, ?_⟩
  · obtain ⟨p, hp, hpn, hphase, hpayload⟩ := hinv.receiver.results.genuine o ho
    obtain ⟨-, -, hcall⟩ := hinv.sender.scheduled p hp
    refine ⟨p, hp, hpn, hphase, ?_⟩
    rw [hpayload, hpn, hcall]
    rfl
  · have hgen := hrx.generation
    rw [hrx.largestPn_eq_max] at hgen
    rw [← hgen]
    exact ⟨hrx.keys, hrx.keyPhase, hrx.nextRekeyPn⟩

end

/-! ## A world in which the assumptions hold -/

def tableOpen (boring : Boring) (sent : List SentPacket) : AeadOpen :=
  fun kind key nonce ad ciphertext =>
    (sent.find? fun p => p.call.keys.aead.aead = kind ∧ p.call.keys.aead.key.val = key.val ∧
      p.call.nonce = nonce ∧ p.call.ad = ad ∧ p.call.ciphertext boring = ciphertext).map
        (·.call.plaintext)

theorem SentInv.keys_eq {sender : Session ι} {sent : List SentPacket}
    (h : SentInv boring link sender sent) {p : SentPacket}
    (hp : p ∈ sent) :
    p.call.keys = link.keysAt boring (generationOf link.start.toNat p.call.pn) := by
  obtain ⟨-, -, hcall⟩ := h.scheduled p hp
  generalize p.call = call at *
  rw [hcall]
  rfl

/-- If the generations have distinct keys and sealing is injective, the table
is an ideal AEAD. -/
theorem ideal_tableOpen {sender : Session ι} {sent : List SentPacket}
    (hsent : SentInv boring link sender sent)
    (hkeys : ∀ g h, generationStart link.start.toNat g < 2 ^ 64 →
      generationStart link.start.toNat h < 2 ^ 64 →
      (link.keysAt boring g).aead.key.val = (link.keysAt boring h).aead.key.val → g = h)
    (hseal : ∀ kind key nonce ad pt pt', (boring.aeadSeal kind key nonce ad pt).val =
      (boring.aeadSeal kind key nonce ad pt').val → pt = pt') :
    Ideal boring link sent (tableOpen boring sent) := by
  have hspace : ∀ p ∈ sent,
      generationStart link.start.toNat (generationOf link.start.toNat p.call.pn) < 2 ^ 64 := by
    intro p hp
    have hlow := ((generationOf_eq_iff (hsent.scheduled p hp).1).mp rfl).1
    have hpn := hsent.pn_lt hp
    omega
  intro g nonce ad ciphertext plaintext hg
  simp only [AeadOpen.under, tableOpen, Option.map_eq_some_iff]
  constructor
  · rintro ⟨p, hfind, rfl⟩
    have hp := List.mem_of_find?_eq_some hfind
    have hmatch := List.find?_some hfind
    obtain ⟨-, hkey, hnonce, had, hciphertext⟩ := decide_eq_true_eq.mp hmatch
    rw [hsent.keys_eq hp] at hkey
    exact ⟨p, hp, hkeys _ _ (hspace p hp) hg hkey, hnonce, had, hciphertext, rfl⟩
  · rintro ⟨p, hp, rfl, rfl, rfl, rfl, rfl⟩
    have hpkeys := hsent.keys_eq hp
    cases hfind : sent.find? fun q => q.call.keys.aead.aead =
        (link.keysAt boring (generationOf link.start.toNat p.call.pn)).aead.aead ∧
        q.call.keys.aead.key.val =
          (link.keysAt boring (generationOf link.start.toNat p.call.pn)).aead.key.val ∧
        q.call.nonce = p.call.nonce ∧ q.call.ad = p.call.ad ∧
        q.call.ciphertext boring = p.call.ciphertext boring with
    | none =>
      have hmiss := List.find?_eq_none.mp hfind p hp
      rw [hpkeys] at hmiss
      simp at hmiss
    -- Another packet may be found first, but only with the same keys and plaintext.
    | some q =>
      have hq := List.mem_of_find?_eq_some hfind
      have hmatch := List.find?_some hfind
      obtain ⟨-, hkey, hnonce, had, hciphertext⟩ := decide_eq_true_eq.mp hmatch
      refine ⟨q, rfl, ?_⟩
      have hqkeys := hsent.keys_eq hq
      rw [hqkeys] at hkey
      have hgen := hkeys _ _ (hspace q hq) (hspace p hp) hkey
      rw [hgen, ← hpkeys] at hqkeys
      unfold SealCall.ciphertext at hciphertext
      rw [hqkeys, hnonce, had] at hciphertext
      exact hseal _ _ _ _ _ _ hciphertext

def counterBoring : Boring where
  hmacSha256 key data :=
    if data = hkdfLabelInfo quicKuLabel [] udpQspTrafficSecretLen ++ [1] then
      ⟨beBytes 32 (ofBe key + 1), length_beBytes _ _⟩
    else ⟨beBytes 32 (ofBe key), length_beBytes _ _⟩
  aesEncrypt _ sample := sample
  chaCha20 _ _ _ plaintext := .self plaintext
  aeadSeal _ _ _ _ plaintext := ⟨plaintext ++ List.replicate aeadTagLen 0, by simp⟩
  aeadOpen _ _ _ _ _ := none

structure NullIo where

instance : SessionIo NullIo where
  send io _ := (.ok (), io)
  recv io := (.error ⟨.wouldBlock, ""⟩, io)
  flush io := (.ok (), io)
  hasPendingFlush _ := false
  discardPendingSend io := (0, io)

instance : PeerUpdate NullIo where
  setPeer io _ := io

def counterLink (start : UInt64) : Link NullIo NullIo where
  cipher := .chaCha20Poly1305
  secret := ⟨beBytes 32 0, length_beBytes _ _⟩
  start := start
  keyPhase := false
  cid := ⟨[7], by decide⟩
  senderIo := {}
  senderScid := ⟨[8], by decide⟩
  senderRxSecret := ⟨beBytes 32 0, length_beBytes _ _⟩
  senderExpectedPn := 0
  receiverIo := {}
  receiverDcid := ⟨[8], by decide⟩
  receiverTxSecret := ⟨beBytes 32 0, length_beBytes _ _⟩
  receiverSendPn := 0

theorem secret_counterLink (start : UInt64) {g : Nat} (hg : g < 2 ^ 64) :
    ((counterLink start).keysAt counterBoring g).secret.val = beBytes 32 g := by
  induction g with
  | zero => rfl
  | succ g ih =>
    have ih := ih (by omega)
    rw [Link.keysAt, generationKeys_succ]
    rw [Link.keysAt] at ih
    generalize generationKeys counterBoring (counterLink start).cipher
      ((counterLink start).keys counterBoring) g = keys at ih ⊢
    show (counterBoring.hmacSha256 keys.secret.val
      (hkdfLabelInfo quicKuLabel [] udpQspTrafficSecretLen ++ [1])).val.take 32 = _
    have hfit : g < 256 ^ 32 := hg.trans' (Nat.lt_succ_self g) |>.trans (by decide)
    simp only [counterBoring, ↓reduceIte, ih, ofBe_beBytes, Nat.mod_eq_of_lt hfit]
    exact List.take_of_length_le (by simp)

theorem key_counterLink (start : UInt64) {g : Nat} (hg : g < 2 ^ 64) :
    ((counterLink start).keysAt counterBoring g).aead.key.val = beBytes 32 g := by
  have haead : ∀ g, ((counterLink start).keysAt counterBoring g).aead =
      packetKeyOf counterBoring .chaCha20Poly1305
        ((counterLink start).keysAt counterBoring g).secret := by
    rintro (_ | g)
    · rfl
    · rw [Link.keysAt, generationKeys_succ]
      rfl
  have hfit : g < 256 ^ 32 := hg.trans (by decide)
  have hlabel : hkdfLabelInfo quicKeyLabel [] chaCha20Poly1305KeyLen ++ [1] ≠
      hkdfLabelInfo quicKuLabel [] udpQspTrafficSecretLen ++ [1] := by decide
  rw [haead]
  show (counterBoring.hmacSha256 ((counterLink start).keysAt counterBoring g).secret.val
    (hkdfLabelInfo quicKeyLabel [] chaCha20Poly1305KeyLen ++ [1])).val.take 32 = _
  rw [secret_counterLink start hg]
  simp only [counterBoring, if_neg hlabel, ofBe_beBytes, Nat.mod_eq_of_lt hfit]
  exact List.take_of_length_le (by simp)

theorem ideal_counterLink {start : UInt64} {sender : Session NullIo} {sent : List SentPacket}
    (hsent : SentInv counterBoring (counterLink start) sender sent) :
    Ideal counterBoring (counterLink start) sent (tableOpen counterBoring sent) := by
  have hsmall : ∀ g, generationStart (counterLink start).start.toNat g < 2 ^ 64 → g < 2 ^ 64 := by
    intro g hg
    have hle : g ≤ generationStart (counterLink start).start.toNat g :=
      (Nat.le_add_left g _).trans (Nat.le_mul_of_pos_right _ keyUpdateInterval_pos)
    omega
  refine ideal_tableOpen hsent ?_ ?_
  · intro g h hg hh hkey
    rw [key_counterLink start (hsmall g hg), key_counterLink start (hsmall h hh)] at hkey
    exact beBytes_inj ((hsmall g hg).trans (by decide)) ((hsmall h hh).trans (by decide)) hkey
  · intro kind key nonce ad pt pt' heq
    exact List.append_cancel_right heq

section
variable [SessionIo ι] [PeerUpdate ι] [SessionIo ρ] [PeerUpdate ρ]

/-- The world after `k` empty sends without failures, all lost so far. -/
def Link.afterSends (link : Link ι ρ) (boring : Boring) : Nat → World ι ρ
  | 0 => link.world boring
  | k + 1 => (link.afterSends boring k).callSender boring (.send []) []

theorem afterSends_spec (boring : Boring) (link : Link ι ρ) {k : Nat}
    (hk : link.start.toNat + k < 2 ^ 64) :
    Reachable boring link (link.afterSends boring k) ∧
      (link.afterSends boring k).sender.nextPn = link.start.toNat + k ∧
      (link.afterSends boring k).receiver = link.receiver boring ∧
      (link.afterSends boring k).accepted = [] ∧
      ∀ i < k, ⟨[], scheduledCall boring (link.origin boring) (link.start.toNat + i) []⟩ ∈
        (link.afterSends boring k).sent := by
  induction k with
  | zero => exact ⟨.refl, rfl, rfl, rfl, by simp⟩
  | succ k ih =>
    obtain ⟨hreach, hnext, hreceiver, haccepted, hsent⟩ := ih (by omega)
    obtain ⟨g, hat⟩ := (reachable_inv hreach).sender.current
    obtain ⟨g', -, hlog⟩ := send_at [] ⟨[], []⟩ hat
    have hstep : Step boring link _ (link.afterSends boring (k + 1)) :=
      .sender (.send []) []
    refine ⟨hreach.tail hstep, ?_⟩
    rw [hnext] at hlog
    simp only [Link.afterSends, World.callSender, runCall]
    generalize ((link.afterSends boring k).sender.send boring [] ⟨[], []⟩) = out at hlog ⊢
    obtain ⟨r, sender, t⟩ := out
    dsimp only at hlog ⊢
    generalize sender.nextPn = next at hlog ⊢
    generalize t.log = log at hlog ⊢
    cases hlog with
    | none failed => simp at failed; omega
    | sealed bounded failed => simp at failed
    | transmitted bounded =>
      refine ⟨rfl, hreceiver, haccepted, ?_⟩
      intro i hi
      simp only [List.nil_append, transmitted, List.map_cons, List.map_nil, Call.payload,
        List.mem_append, List.mem_singleton]
      rcases Nat.lt_succ_iff_lt_or_eq.mp hi with hi | rfl
      · exact .inl (hsent i hi)
      · exact .inr rfl

end

theorem Unforgeable.mono {sent sent' : List SentPacket} {aeadOpen : AeadOpen}
    (h : Unforgeable boring link sent aeadOpen) (hsub : sent ⊆ sent') :
    Unforgeable boring link sent' aeadOpen := by
  intro g nonce ad ciphertext plaintext hg hopen
  obtain ⟨p, hp, hsealed⟩ := h g nonce ad ciphertext plaintext hg hopen
  exact ⟨p, hsub hp, hsealed⟩

def counterPacket : SentPacket :=
  ⟨[], scheduledCall counterBoring ((counterLink 5).origin counterBoring) 5 []⟩

def counterWorld : World NullIo NullIo :=
  ((counterLink 5).afterSends counterBoring 1).deliver
    { counterBoring with aeadOpen := tableOpen counterBoring [counterPacket] }
    (packetOf counterBoring (counterLink 5).cid.bytes counterPacket.call) []

theorem reachable_counterWorld : Reachable counterBoring (counterLink 5) counterWorld := by
  obtain ⟨hreach, -, -, -, hsent⟩ :=
    afterSends_spec counterBoring (counterLink 5) (k := 1) (by decide)
  have hsub : [counterPacket] ⊆ ((counterLink 5).afterSends counterBoring 1).sent := by
    rintro p hp
    rw [List.mem_singleton.mp hp]
    exact hsent 0 Nat.one_pos
  have hinv := (reachable_inv hreach).sender
  have hideal := ideal_counterLink ⟨hinv.current, fun p hp => hinv.scheduled p (hsub hp)⟩
  exact hreach.tail (.deliver _ _ [] (hideal.unforgeable.mono hsub))

theorem accepted_counterWorld : counterWorld.accepted ≠ [] := by
  obtain ⟨-, -, hreceiver, haccepted, -⟩ :=
    afterSends_spec counterBoring (counterLink 5) (k := 1) (by decide)
  have hopen : (((counterLink 5).receiver counterBoring).openPacket
      { counterBoring with aeadOpen := tableOpen counterBoring [counterPacket] }
      (packetOf counterBoring (counterLink 5).cid.bytes counterPacket.call) ⟨[], []⟩).1.toOption.toList
        ≠ [] := by
    decide +kernel
  unfold counterWorld World.deliver
  rw [hreceiver, haccepted]
  exact hopen

theorem two_party_safety_counterWorld :
    Reachable counterBoring (counterLink 5) counterWorld ∧ counterWorld.accepted ≠ [] ∧
      (∀ o ∈ counterWorld.accepted, ∃ p ∈ counterWorld.sent, o.pn = p.call.pn ∧
        o.keyPhase = p.call.keyPhase ∧
        o.payload = p.payload ++ List.replicate (4 - packetNumberLen o.pn - p.payload.length) 0) ∧
      (counterWorld.accepted.map (·.pn)).Nodup :=
  have hsafe := two_party_safety reachable_counterWorld
  ⟨reachable_counterWorld, accepted_counterWorld, hsafe.1, hsafe.2.1⟩

end Slt.Crypto
