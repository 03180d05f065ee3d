import Slt.Crypto.TwoParty

/-!
# Which genuine packets are delivered

A packet the sender sent is handed to the receiver of a reachable world, with
an AEAD that opens exactly what was sealed and no library failure in that
call. The receiver's three windows then decide: the replay window, the time
the previous keys are kept, and the distance from the next threshold within
which the next keys are tried.
-/

namespace Slt.Crypto

open Lib Lib.U64

variable {ι ρ : Type}

def SentPacket.opened (p : SentPacket) : OpenedPacket :=
  ⟨p.call.pn, packetNumberLen p.call.pn, p.call.keyPhase, p.call.plaintext⟩

def SentPacket.wire (boring : Boring) (link : Link ι ρ) (p : SentPacket) : Bytes :=
  packetOf boring link.cid.bytes p.call

/-! ## One set of keys -/

section
variable {boring : Boring} {link : Link ι ρ} {sender : Session ι} {sent : List SentPacket}
  {aeadOpen : AeadOpen} {keys : UdpQspKeys} {expectedPn g : Nat} {p : SentPacket}

theorem yields_openInto_sent (hsent : SentInv boring link sender sent)
    (hideal : Ideal boring link sent aeadOpen) (hp : p ∈ sent)
    (hkeys : keys.rx = link.keysAt boring g) (hexpected : expectedPn < 2 ^ 64)
    (hg : generationStart link.start.toNat g < 2 ^ 64)
    (hrec : Reconstructible p.call.pn expectedPn)
    (hgen : generationOf link.start.toNat p.call.pn = g) :
    Faulty.Yields (keys.openInto { boring with aeadOpen } link.cid.len (p.wire boring link)
      expectedPn) p.opened := by
  obtain ⟨-, -, hcall⟩ := hsent.scheduled p hp
  have hpn := hsent.pn_lt hp
  have hopen : aeadOpen.under keys.rx.aead (makeNonce keys.rx.aead.iv p.call.pn) p.call.ad
      (p.call.ciphertext boring) = some p.call.plaintext := by
    rw [hkeys, hideal g _ _ _ _ hg]
    refine ⟨p, hp, hgen, ?_, rfl, rfl, rfl⟩
    rw [hcall, ← hgen]
    rfl
  have hhp : ∀ sample, keys.rx.hp.mask { boring with aeadOpen } sample =
      p.call.keys.hp.mask boring sample := by
    intro sample
    rw [hkeys, hcall]
    simp only [Link.keysAt, scheduledCall, sealCallOf, hp_generationKeys]
    rfl
  rw [SentPacket.wire, SentPacket.opened]
  generalize p.call = call at *
  rw [hcall] at hopen hhp ⊢
  exact UdpQspKeys.yields_openIntoInner boring hhp (by omega) hexpected hrec hopen

/-- The header-protection key never changes, so the packet number is completed
right whichever generation is tried. -/
theorem generation_of_openInto_sent {t t' : QspTape} {opened : OpenedPacket}
    (hsent : SentInv boring link sender sent) (hideal : Ideal boring link sent aeadOpen)
    (hp : p ∈ sent) (hkeys : keys.rx = link.keysAt boring g) (hexpected : expectedPn < 2 ^ 64)
    (hg : generationStart link.start.toNat g < 2 ^ 64)
    (hrec : Reconstructible p.call.pn expectedPn)
    (h : (keys.openInto { boring with aeadOpen } link.cid.len (p.wire boring link)
      expectedPn).run t = (.ok opened, t')) :
    generationOf link.start.toNat p.call.pn = g := by
  obtain ⟨-, -, hcall⟩ := hsent.scheduled p hp
  have hpn := hsent.pn_lt hp
  obtain ⟨-, ⟨mask, hmask, hparse⟩, -, -⟩ :=
    parse_packetOf boring p.call.keys link.cid.bytes p.call.pn p.call.keyPhase p.payload
  have hwire : p.wire boring link = packetOf boring link.cid.bytes
      (sealCallOf p.call.keys link.cid.bytes p.call.pn p.call.keyPhase p.payload) := by
    rw [SentPacket.wire]
    generalize p.call = call at *
    rw [hcall]
    rfl
  obtain ⟨mask', parsed, hmask', hparse', hopenedPn, -, -, hopen⟩ :=
    UdpQspKeys.openIntoInner_ok h
  have hhp : keys.rx.hp = p.call.keys.hp := by
    rw [hkeys, hcall]
    simp only [Link.keysAt, scheduledCall, sealCallOf, hp_generationKeys]
    rfl
  rw [hwire, hhp] at hmask'
  obtain rfl : mask = mask' := Except.ok.inj (hmask.symm.trans hmask')
  rw [hwire] at hparse'
  obtain rfl := Except.ok.inj (hparse.symm.trans hparse')
  rw [reconstruct_of_reconstructible (by omega) hexpected hrec] at hopenedPn
  rw [hkeys, hopenedPn] at hopen
  obtain ⟨q, hq, hgen, hnonce, -⟩ := (hideal g _ _ _ _ hg).mp hopen
  obtain ⟨-, -, hqcall⟩ := hsent.scheduled q hq
  have hqkeys : q.call.keys = link.keysAt boring g := by
    rw [hqcall, ← hgen]
    rfl
  have hqpn := hsent.pn_lt hq
  rw [SealCall.nonce, hqkeys] at hnonce
  rw [← makeNonce_inj (by omega) (by omega) hnonce]
  exact hgen

/-- Without failures, the keys of a generation open exactly its own packets. -/
theorem openWith_sent {self : Session ρ} (log : List SessionEvent)
    (hsent : SentInv boring link sender sent) (hideal : Ideal boring link sent aeadOpen)
    (hp : p ∈ sent) (hscid : self.scid = link.cid) (hkeys : keys.rx = link.keysAt boring g)
    (hexpected : expectedPn < 2 ^ 64) (hg : generationStart link.start.toNat g < 2 ^ 64)
    (hrec : Reconstructible p.call.pn expectedPn) :
    self.openWith { boring with aeadOpen } keys (p.wire boring link) expectedPn ⟨[], log⟩ =
      (if generationOf link.start.toNat p.call.pn = g then some p.opened else none,
        ⟨[], log⟩) := by
  have hquiet := UdpQspKeys.quiet_openIntoInner { boring with aeadOpen } keys.rx link.cid.len
    (p.wire boring link) expectedPn
  unfold Session.openWith
  rw [hscid]
  split_ifs with hgen
  · have hyields := yields_openInto_sent hsent hideal hp hkeys hexpected hg hrec hgen
    rw [hyields.run_clean hquiet log]
  · have htape := hquiet.run_clean log
    rcases hr : (keys.openInto { boring with aeadOpen } link.cid.len (p.wire boring link)
      expectedPn).run ⟨[], log⟩ with ⟨r, t'⟩
    have ht : t' = ⟨[], log⟩ := (congrArg Prod.snd hr).symm.trans htape
    cases r with
    | error e => rw [ht]
    | ok opened =>
      exact absurd
        (generation_of_openInto_sent hsent hideal hp hkeys hexpected hg hrec hr) hgen

end

/-! ## The order of the attempts -/

section
variable {boring : Boring} {link : Link ι ρ} {sender : Session ι} {sent : List SentPacket}
  {accepted : List OpenedPacket} {aeadOpen : AeadOpen} {self : Session ρ} {expectedPn g : Nat}
  {p : SentPacket} (log : List SessionEvent)

theorem SentInv.keyPhase_eq (hsent : SentInv boring link sender sent) (hp : p ∈ sent) :
    p.call.keyPhase =
      generationPhase link.keyPhase (generationOf link.start.toNat p.call.pn) := by
  obtain ⟨-, -, hcall⟩ := hsent.scheduled p hp
  generalize p.call = call at *
  rw [hcall]
  rfl

theorem generationPhase_succ_ne (first : Bool) (g : Nat) :
    generationPhase first (g + 1) ≠ generationPhase first g := by
  rw [generationPhase_succ]
  simp

variable (hsent : SentInv boring link sender sent) (hideal : Ideal boring link sent aeadOpen)
  (hp : p ∈ sent) (hrx : RxInv boring link accepted self.rxState g)
  (hrec : Reconstructible p.call.pn self.replayWindow.expectedPn)
include hsent hideal hp hrx hrec

/-- A packet of the current generation goes straight to the replay window. -/
theorem openPacket_current (hgen : generationOf link.start.toNat p.call.pn = g) :
    self.openPacket { boring with aeadOpen } (p.wire boring link) ⟨[], log⟩ =
      (self.maybeConfirmPreviousRxKeys self.replayWindow.expectedPn).acceptOpened p.opened
        ⟨[], log⟩ := by
  obtain ⟨hconf, -, -⟩ := hrx.confirm
  have hexpected : self.replayWindow.expectedPn < 2 ^ 64 := hrx.expectedPn_lt
  have hphase : p.opened.keyPhase =
      (self.maybeConfirmPreviousRxKeys self.replayWindow.expectedPn).rxKeyPhase := by
    refine (hsent.keyPhase_eq hp).trans ?_
    rw [hgen]
    exact hconf.keyPhase.symm
  unfold Session.openPacket
  dsimp only
  rw [openWith_sent log hsent hideal hp hconf.scid hconf.keys hexpected hconf.generationStart_lt
    hrec, if_pos hgen, Option.filter_some_pos (by simp [hphase])]

/-- A packet of another generation is not opened by the current keys. -/
theorem openPacket_other (hgen : generationOf link.start.toNat p.call.pn ≠ g) :
    let conf := self.maybeConfirmPreviousRxKeys self.replayWindow.expectedPn
    self.openPacket { boring with aeadOpen } (p.wire boring link) ⟨[], log⟩ =
      if conf.previousRx.isSome ∧ generationOf link.start.toNat p.call.pn + 1 = g then
        conf.acceptOpened p.opened ⟨[], log⟩
      else conf.openCandidate { boring with aeadOpen } (p.wire boring link)
        self.replayWindow.expectedPn ⟨[], log⟩ := by
  intro conf
  obtain ⟨hconf, -, hvalid⟩ := hrx.confirm
  have hexpected : self.replayWindow.expectedPn < 2 ^ 64 := hrx.expectedPn_lt
  unfold Session.openPacket
  dsimp only
  rw [openWith_sent log hsent hideal hp hconf.scid hconf.keys hexpected hconf.generationStart_lt
    hrec, if_neg hgen]
  rw [Option.filter_none]
  dsimp only
  cases hprev : conf.previousRx with
  | none =>
    rw [if_neg (by simp)]
    rfl
  | some prev =>
    obtain ⟨k, rfl, hkeys, huntil⟩ := hconf.previous prev hprev
    have hk : generationStart link.start.toNat k < 2 ^ 64 :=
      Nat.lt_of_le_of_lt (generationStart_le_of_le (Nat.le_succ k)) hconf.generationStart_lt
    have htry : conf.canTryPrevious self.replayWindow.expectedPn = true := by
      simp only [Session.canTryPrevious, hprev, huntil, decide_eq_true_eq]
      exact hvalid prev hprev
    dsimp only
    rw [if_pos htry, openWith_sent log hsent hideal hp hconf.scid hkeys hexpected hk hrec]
    by_cases hpk : generationOf link.start.toNat p.call.pn = k
    · have hphase : p.opened.keyPhase ≠
          (self.maybeConfirmPreviousRxKeys self.replayWindow.expectedPn).rxKeyPhase := by
        have hold : p.opened.keyPhase = generationPhase link.keyPhase k :=
          hpk ▸ hsent.keyPhase_eq hp
        have hnew : (self.maybeConfirmPreviousRxKeys self.replayWindow.expectedPn).rxKeyPhase =
          generationPhase link.keyPhase (k + 1) := hconf.keyPhase
        rw [hold, hnew]
        exact (generationPhase_succ_ne _ _).symm
      rw [if_pos hpk, if_pos ⟨rfl, congrArg Nat.succ hpk⟩,
        Option.filter_some_pos (by simpa using hphase)]
    · rw [if_neg hpk, if_neg (fun h => hpk (Nat.succ.inj h.2)), Option.filter_none]

end

section
variable {boring : Boring} {link : Link ι ρ} {sender : Session ι} {sent : List SentPacket}
  {accepted : List OpenedPacket} {aeadOpen : AeadOpen} {self : Session ρ} {expectedPn g : Nat}
  {p : SentPacket}

/-- A packet of the next generation is opened by the next keys, if they are
tried, and these are promoted. -/
theorem openCandidate_next (log : List SessionEvent) (hsent : SentInv boring link sender sent)
    (hideal : Ideal boring link sent aeadOpen) (hp : p ∈ sent)
    (hrx : RxInv boring link accepted self.rxState g) (hexpected : expectedPn < 2 ^ 64)
    (hrec : Reconstructible p.call.pn expectedPn)
    (hgen : generationOf link.start.toNat p.call.pn = g + 1)
    (htry : self.shouldTryCandidate expectedPn = true) :
    ∃ threshold, self.rxNextRekeyPn = some threshold ∧
      self.openCandidate { boring with aeadOpen } (p.wire boring link) expectedPn ⟨[], log⟩ =
        (self.promoted { boring with aeadOpen } threshold).acceptOpened p.opened ⟨[], log⟩ := by
  obtain ⟨-, threshold, hrekey, -⟩ := Session.shouldTryCandidate_iff.mp htry
  refine ⟨threshold, hrekey, ?_⟩
  have hcipher : self.keys.cipher = link.cipher := hrx.cipher
  have hold : self.keys.rx = link.keysAt boring g := hrx.keys
  have hkeys : (self.nextRxKeys { boring with aeadOpen }).rx = link.keysAt boring (g + 1) := by
    show DirectionKeys.next boring self.keys.cipher self.keys.rx = _
    rw [hcipher, hold]
    exact (generationKeys_succ ..).symm
  have hspace : generationStart link.start.toNat (g + 1) < 2 ^ 64 := by
    obtain ⟨rfl, hlt⟩ := rekeyThreshold_eq_some.mp (hrx.nextRekeyPn.symm.trans hrekey)
    exact hlt
  -- Without a fault deriving the next keys and promoting them both succeed.
  have hderive : self.deriveCandidateRxKeys { boring with aeadOpen } ⟨[], log⟩ =
      (.ok (some (self.nextRxKeys { boring with aeadOpen })), ⟨[], log⟩) := by
    unfold Session.deriveCandidateRxKeys
    rw [hrekey, (UdpQspKeys.yields_withNextRxKeys ..).run_clean
      (UdpQspKeys.quiet_withNextRxKeys ..)]
    rfl
  have hpromote : self.promoteCandidateRxKeys (self.nextRxKeys { boring with aeadOpen })
      ⟨[], log⟩ = (.ok (), self.promoted { boring with aeadOpen } threshold, ⟨[], log⟩) := by
    unfold Session.promoteCandidateRxKeys
    rw [hrekey, (UdpQspKeys.yields_tryClone _).run_clean (UdpQspKeys.quiet_tryClone _)]
    rfl
  have hphase : p.opened.keyPhase ≠ self.rxKeyPhase := by
    have hnext : p.opened.keyPhase = generationPhase link.keyPhase (g + 1) :=
      hgen ▸ hsent.keyPhase_eq hp
    have hcurrent : self.rxKeyPhase = generationPhase link.keyPhase g := hrx.keyPhase
    rw [hnext, hcurrent]
    exact generationPhase_succ_ne _ _
  unfold Session.openCandidate
  rw [if_pos htry, hderive]
  dsimp only
  rw [openWith_sent log hsent hideal hp hrx.scid hkeys hexpected hspace hrec, if_pos hgen,
    Option.filter_some_pos (by simpa using hphase)]
  dsimp only
  rw [hpromote]

/-- The next keys are tried once the expected number is within the margin of
the next threshold: it is then past the time the previous keys are kept. -/
theorem RxInv.shouldTryCandidate_iff (hrx : RxInv boring link accepted self.rxState g)
    (hspace : generationStart link.start.toNat (g + 1) < 2 ^ 64) :
    (self.maybeConfirmPreviousRxKeys self.replayWindow.expectedPn).shouldTryCandidate
        self.replayWindow.expectedPn = true ↔
      generationStart link.start.toNat (g + 1) ≤
        self.replayWindow.expectedPn + keyUpdateLateMargin := by
  obtain ⟨hconf, -, hvalid⟩ := hrx.confirm
  have hle : self.replayWindow.expectedPn ≤ generationStart link.start.toNat (g + 1) :=
    hrx.expectedPn_mem.2
  generalize self.maybeConfirmPreviousRxKeys self.replayWindow.expectedPn = conf
    at hconf hvalid ⊢
  have hrekey : conf.rxNextRekeyPn = some (generationStart link.start.toNat (g + 1)) :=
    hconf.nextRekeyPn.trans (rekeyThreshold_eq_some.mpr ⟨rfl, hspace⟩)
  have hmargin : conf.rekeyPolicy.lateMargin = keyUpdateLateMargin :=
    congrArg RekeyPolicy.lateMargin hconf.policy
  have hdistance : pnDistance self.replayWindow.expectedPn
      (generationStart link.start.toNat (g + 1)) =
        generationStart link.start.toNat (g + 1) - self.replayWindow.expectedPn := by
    unfold pnDistance absDiff
    split_ifs <;> omega
  have hlong : pnReplayWindow + keyUpdateLateMargin < keyUpdateInterval := by decide
  have hsucc := generationStart_succ link.start.toNat g
  rw [Session.shouldTryCandidate_iff]
  constructor
  · rintro ⟨-, threshold, hthreshold, hnear⟩
    obtain rfl := Option.some.inj (hrekey.symm.trans hthreshold)
    rw [hdistance, hmargin] at hnear
    omega
  · intro hnear
    refine ⟨?_, _, hrekey, by rw [hdistance, hmargin]; omega⟩
    -- Previous keys would mean an expected number near the start of the generation.
    cases hprev : conf.previousRx with
    | none => rfl
    | some prev =>
      have := hvalid prev hprev
      omega

theorem acceptOpened_of_fresh {set : Set Nat} {opened : OpenedPacket} (t : QspTape)
    (htracks : self.replayWindow.Tracks set) (hfresh : self.replayWindow.Fresh set opened.pn) :
    (self.acceptOpened opened t).1 = .ok opened := by
  obtain ⟨w, hcheck, -, -, -⟩ := ReplayWindow.checkAndUpdate_of_fresh htracks hfresh
  rw [Session.acceptOpened_ok hcheck t]

/-- A number of the previous generation that the replay window still takes
comes while the previous keys are kept. -/
theorem RxInv.previous_isSome {pn : Nat} (hrx : RxInv boring link accepted self.rxState g)
    (hstart : link.start.toNat ≤ pn) (hgen : generationOf link.start.toNat pn + 1 = g)
    (hfresh : self.replayWindow.Fresh {pn | ∃ o ∈ accepted, o.pn = pn} pn) :
    self.previousRx.isSome := by
  cases hprev : self.previousRx with
  | some prev => rfl
  | none =>
    exfalso
    rcases hrx.dropped hprev with hzero | ⟨largest, hl, hle⟩
    · omega
    · have hl : self.replayWindow.largestPn = some largest := hl
      have hpn := (generationOf_eq_iff hstart).mp rfl
      rw [hgen] at hpn
      unfold ReplayWindow.Fresh at hfresh
      rw [hl] at hfresh
      rcases hfresh with hlt | ⟨hwithin, -⟩ <;> omega

section
variable (hsent : SentInv boring link sender sent) (hideal : Ideal boring link sent aeadOpen)
  (hp : p ∈ sent) (hrx : RxInv boring link accepted self.rxState g)
  (hrec : Reconstructible p.call.pn self.replayWindow.expectedPn)
include hsent hideal hp hrx hrec

/-- A fresh packet is accepted if its generation is the current one, the one
before, or the one after with its keys already tried. -/
theorem openPacket_of_fresh (log : List SessionEvent)
    (hfresh : self.replayWindow.Fresh {pn | ∃ o ∈ accepted, o.pn = pn} p.call.pn)
    (hgen : generationOf link.start.toNat p.call.pn = g ∨
      generationOf link.start.toNat p.call.pn + 1 = g ∨
      (generationOf link.start.toNat p.call.pn = g + 1 ∧
        generationStart link.start.toNat (g + 1) ≤
          self.replayWindow.expectedPn + keyUpdateLateMargin)) :
    (self.openPacket { boring with aeadOpen } (p.wire boring link) ⟨[], log⟩).1 =
      .ok p.opened := by
  obtain ⟨hconf, hwindow, -⟩ := hrx.confirm
  obtain ⟨hstart, -, -⟩ := hsent.scheduled p hp
  have htracks := hconf.tracks
  rw [← hwindow] at hfresh
  rcases hgen with hgen | hgen | ⟨hgen, hnear⟩
  · rw [openPacket_current log hsent hideal hp hrx hrec hgen]
    exact acceptOpened_of_fresh _ htracks hfresh
  · rw [openPacket_other log hsent hideal hp hrx hrec (by omega),
      if_pos ⟨hconf.previous_isSome hstart hgen hfresh, hgen⟩]
    exact acceptOpened_of_fresh _ htracks hfresh
  · have hexpected : self.replayWindow.expectedPn < 2 ^ 64 := hrx.expectedPn_lt
    have hspace : generationStart link.start.toNat (g + 1) < 2 ^ 64 := by
      have hlow := ((generationOf_eq_iff hstart).mp hgen).1
      have hpn := hsent.pn_lt hp
      omega
    have htry := (hrx.shouldTryCandidate_iff hspace).mpr hnear
    rw [openPacket_other log hsent hideal hp hrx hrec (by omega), if_neg (by omega)]
    obtain ⟨threshold, -, hopen⟩ :=
      openCandidate_next log hsent hideal hp hconf hexpected hrec hgen htry
    rw [hopen]
    exact acceptOpened_of_fresh _ htracks hfresh

/-- A packet of the next generation is refused while its keys are not tried. -/
theorem openPacket_refused (log : List SessionEvent)
    (hgen : generationOf link.start.toNat p.call.pn = g + 1)
    (hfar : ¬generationStart link.start.toNat (g + 1) ≤
      self.replayWindow.expectedPn + keyUpdateLateMargin) :
    (self.openPacket { boring with aeadOpen } (p.wire boring link) ⟨[], log⟩).1 =
      .error (.crypto .cryptoFail) := by
  obtain ⟨hstart, -, -⟩ := hsent.scheduled p hp
  have hspace : generationStart link.start.toNat (g + 1) < 2 ^ 64 := by
    have hlow := ((generationOf_eq_iff hstart).mp hgen).1
    have hpn := hsent.pn_lt hp
    omega
  have htry := mt (hrx.shouldTryCandidate_iff hspace).mp hfar
  rw [openPacket_other log hsent hideal hp hrx hrec (by omega), if_neg (by omega),
    Session.openCandidate, if_neg htry]

end

end

/-! ## Reachable worlds -/

section
variable [SessionIo ι] [PeerUpdate ι] [SessionIo ρ] [PeerUpdate ρ] {boring : Boring}
  {link : Link ι ρ} {w : World ι ρ}

theorem reachable_rxInv (h : Reachable boring link w) :
    RxInv boring link w.accepted w.receiver.rxState
      (rxGeneration link.start.toNat (w.accepted.map (·.pn)).max?) := by
  obtain ⟨g, hrx⟩ := (reachable_inv h).receiver.rx
  have hgen := hrx.generation
  rw [hrx.largestPn_eq_max] at hgen
  rw [← hgen]
  exact hrx

/-- A sent packet that is not accepted yet and not a window below the largest
accepted one is fresh. -/
theorem reachable_fresh (h : Reachable boring link w) {p : SentPacket} (hp : p ∈ w.sent)
    (hnew : p.call.pn ∉ w.accepted.map (·.pn))
    (hwindow : ∀ largest, (w.accepted.map (·.pn)).max? = some largest →
      largest < p.call.pn ∨ largest - p.call.pn < pnReplayWindow) :
    w.receiver.replayWindow.Fresh {pn | ∃ o ∈ w.accepted, o.pn = pn} p.call.pn := by
  have hrx := reachable_rxInv h
  have hmax : w.receiver.replayWindow.largestPn = (w.accepted.map (·.pn)).max? :=
    hrx.largestPn_eq_max
  have hinit : w.receiver.replayWindow.initialExpected = link.start.toNat := hrx.initialExpected
  unfold ReplayWindow.Fresh
  rw [hmax]
  cases hl : (w.accepted.map (·.pn)).max? with
  | none => exact hinit ▸ ((reachable_inv h).sender.scheduled p hp).1
  | some largest =>
    rcases hwindow largest hl with hlt | hwithin
    · exact .inl hlt
    · refine .inr ⟨?_, fun ⟨o, ho, heq⟩ => hnew (List.mem_map.mpr ⟨o, ho, heq⟩)⟩
      have : 0 < pnReplayWindow := by decide
      omega

/-- Delivery in every reachable world: a genuine packet not accepted yet, not
a replay window below the largest accepted one, whose number is reconstructible
from the expected one, and whose generation is the receiver's, the one before,
or the one after with the expected number at most 8192 below its start, is
accepted by a call in which no library function fails. When the previous keys
are gone, no packet of their generation is within the replay window; and within
8192 of the next threshold they are gone. -/
theorem delivery_complete (h : Reachable boring link w) :
    let expectedPn := w.receiver.replayWindow.expectedPn
    let largest? := (w.accepted.map (·.pn)).max?
    let g := rxGeneration link.start.toNat largest?
    let threshold := generationStart link.start.toNat
    let confirmed := w.receiver.maybeConfirmPreviousRxKeys expectedPn
    (∀ aeadOpen, Ideal boring link w.sent aeadOpen → ∀ p ∈ w.sent,
      p.call.pn ∉ w.accepted.map (·.pn) →
      (∀ largest, largest? = some largest →
        largest < p.call.pn ∨ largest - p.call.pn < 1024) →
      Reconstructible p.call.pn expectedPn →
      (generationOf link.start.toNat p.call.pn = g ∨
        generationOf link.start.toNat p.call.pn + 1 = g ∨
        (generationOf link.start.toNat p.call.pn = g + 1 ∧
          threshold (g + 1) - 8192 ≤ expectedPn)) →
      (w.receiver.openPacket { boring with aeadOpen } (p.wire boring link) ⟨[], []⟩).1 =
        .ok p.opened) ∧
    (confirmed.previousRx = none → ∀ pn, link.start.toNat ≤ pn →
      generationOf link.start.toNat pn + 1 = g →
      ∃ largest, largest? = some largest ∧ pn + 1024 ≤ largest) ∧
    (threshold (g + 1) - 8192 ≤ expectedPn → confirmed.previousRx = none) := by
  intro expectedPn largest? g threshold confirmed
  have hinv := reachable_inv h
  have hrx : RxInv boring link w.accepted w.receiver.rxState g := reachable_rxInv h
  obtain ⟨hconf, hsame, hvalid⟩ := hrx.confirm
  refine ⟨?_, ?_, ?_⟩
  · intro aeadOpen hideal p hp hnew hwindow hrec hgen
    refine openPacket_of_fresh hinv.sender hideal hp hrx hrec [] (reachable_fresh h hp hnew hwindow)
      (hgen.imp_right (Or.imp_right ?_))
    rintro ⟨hgen, hnear⟩
    refine ⟨hgen, ?_⟩
    rw [show keyUpdateLateMargin = 8192 from rfl]
    exact Nat.sub_le_iff_le_add.mp hnear
  · intro hnone pn hstart hgen
    rcases hconf.dropped hnone with hzero | ⟨largest, hl, hle⟩
    · omega
    · refine ⟨largest, hconf.largestPn_eq_max.symm.trans hl, ?_⟩
      have hhigh := ((generationOf_eq_iff hstart).mp rfl).2
      rw [hgen] at hhigh
      rw [show pnReplayWindow = 1024 from rfl] at hle
      omega
  -- A generation is far longer than the replay window and the margin together.
  · intro hnear
    cases hprev : confirmed.previousRx with
    | none => rfl
    | some prev =>
      have hkept : expectedPn ≤ generationStart link.start.toNat g + 1024 := hvalid prev hprev
      have hsucc : threshold (g + 1) = generationStart link.start.toNat g + 2 ^ 21 :=
        generationStart_succ ..
      omega

/-- Of two packets sent the second is the first of its generation. None has arrived. -/
theorem counterLink_second :
    let link := counterLink 2097151
    let w := link.afterSends counterBoring 2
    Reachable counterBoring link w ∧ w.accepted = [] ∧
      w.receiver.replayWindow.expectedPn = 2097151 ∧
      ⟨[], scheduledCall counterBoring (link.origin counterBoring) 2097152 []⟩ ∈ w.sent := by
  intro link w
  obtain ⟨hreach, -, hreceiver, haccepted, hsent⟩ :=
    afterSends_spec counterBoring link (k := 2) (by decide)
  refine ⟨hreach, haccepted, ?_, hsent 1 (by decide)⟩
  rw [hreceiver]
  rfl

/-- The second packet is the first of its generation; the first one is lost. -/
theorem delivery_complete_counterLink :
    let link := counterLink 2097151
    let w := link.afterSends counterBoring 2
    let p : SentPacket := ⟨[], scheduledCall counterBoring (link.origin counterBoring) 2097152 []⟩
    Reachable counterBoring link w ∧ p ∈ w.sent ∧
      (w.receiver.openPacket { counterBoring with aeadOpen := tableOpen counterBoring w.sent }
        (p.wire counterBoring link) ⟨[], []⟩).1 = .ok p.opened := by
  intro link w p
  obtain ⟨hreach, haccepted, hexpected, hp⟩ := counterLink_second
  refine ⟨hreach, hp, (delivery_complete hreach).1 _
    (ideal_counterLink (reachable_inv hreach).sender) p hp ?_ ?_ ?_ ?_⟩
  · rw [haccepted]
    simp
  · rw [haccepted]
    simp
  · rw [hexpected]
    exact .inr (by decide)
  · rw [haccepted, hexpected]
    exact .inr (.inr (by decide))

/-- A number from the expected one on, less than `2 ^ 31` ahead of it, is
reconstructible. -/
theorem reconstructible_of_ahead {n e : Nat} (hle : e ≤ n) (hahead : n < e + 2 ^ 31) :
    Reconstructible n e := by
  by_cases hshort : n < 2 ^ 32
  · exact .inr ⟨hshort, hle⟩
  · have hlen : packetNumberLen n = 4 := by
      unfold packetNumberLen
      split_ifs <;> omega
    refine .inl ?_
    rw [hlen, show halfWindow 4 = 2 ^ 31 from rfl]
    omega

/-- After a loss, in every reachable world: a genuine packet newer than
everything accepted, of the receiver's generation or the one after, and less
than `2 ^ 31` ahead, is accepted exactly if it is of the receiver's generation
or the expected number is at most 8192 below the start of the next one;
otherwise it is refused. -/
theorem newer_packet_accepted_iff (h : Reachable boring link w) {aeadOpen : AeadOpen}
    (hideal : Ideal boring link w.sent aeadOpen) {p : SentPacket} (hp : p ∈ w.sent)
    (hnewer : ∀ o ∈ w.accepted, o.pn < p.call.pn)
    (hahead : p.call.pn < w.receiver.replayWindow.expectedPn + 2 ^ 31) :
    let g := rxGeneration link.start.toNat (w.accepted.map (·.pn)).max?
    let out := w.receiver.openPacket { boring with aeadOpen } (p.wire boring link) ⟨[], []⟩
    (generationOf link.start.toNat p.call.pn = g → out.1 = .ok p.opened) ∧
    (generationOf link.start.toNat p.call.pn = g + 1 →
      (generationStart link.start.toNat (g + 1) - 8192 ≤ w.receiver.replayWindow.expectedPn →
        out.1 = .ok p.opened) ∧
      (w.receiver.replayWindow.expectedPn < generationStart link.start.toNat (g + 1) - 8192 →
        out.1 = .error (.crypto .cryptoFail))) := by
  intro g out
  have hinv := reachable_inv h
  have hrx : RxInv boring link w.accepted w.receiver.rxState g := reachable_rxInv h
  have hmax : w.receiver.replayWindow.largestPn = (w.accepted.map (·.pn)).max? :=
    hrx.largestPn_eq_max
  have hexpected : w.receiver.replayWindow.expectedPn ≤ p.call.pn := by
    rcases hrx.expectedPn_eq with ⟨-, he, -⟩ | ⟨largest, hl, he⟩
    · exact he.trans_le (hinv.sender.scheduled p hp).1
    · obtain ⟨o, ho, rfl⟩ := hrx.tracks.mem_largest hl
      exact he.trans_le (hnewer o ho)
  -- What is newer than everything accepted is new to the window.
  have hfresh := by
    refine reachable_fresh h hp (fun hmem => ?_) (fun largest hl => .inl ?_)
    · obtain ⟨o, ho, heq⟩ := List.mem_map.mp hmem
      exact absurd heq (hnewer o ho).ne
    · obtain ⟨o, ho, rfl⟩ := hrx.tracks.mem_largest (hmax.trans hl)
      exact hnewer o ho
  have hrec := reconstructible_of_ahead hexpected hahead
  refine ⟨fun hgen => ?_, fun hgen => ?_⟩
  · exact openPacket_of_fresh hinv.sender hideal hp hrx hrec [] hfresh (.inl hgen)
  · have hmargin : keyUpdateLateMargin = 8192 := rfl
    refine ⟨fun hnear => ?_, fun hfar => ?_⟩
    · rw [Nat.sub_le_iff_le_add, ← hmargin] at hnear
      exact openPacket_of_fresh hinv.sender hideal hp hrx hrec [] hfresh
        (.inr (.inr ⟨hgen, hnear⟩))
    · exact openPacket_refused hinv.sender hideal hp hrx hrec [] hgen (by omega)

end

/-- The packets up to the first of the next generation are lost, 8193 of them. -/
theorem newer_packet_refused :
    ¬∀ w : World NullIo NullIo, Reachable counterBoring (counterLink 2088959) w →
      ∀ aeadOpen, Ideal counterBoring (counterLink 2088959) w.sent aeadOpen →
      ∀ p ∈ w.sent, (∀ o ∈ w.accepted, o.pn < p.call.pn) →
      (generationOf 2088959 p.call.pn = rxGeneration 2088959 (w.accepted.map (·.pn)).max? ∨
        generationOf 2088959 p.call.pn =
          rxGeneration 2088959 (w.accepted.map (·.pn)).max? + 1) →
      p.call.pn < w.receiver.replayWindow.expectedPn + 2 ^ 31 →
      ∃ opened, (w.receiver.openPacket { counterBoring with aeadOpen }
        (p.wire counterBoring (counterLink 2088959)) ⟨[], []⟩).1 = .ok opened := by
  intro hclaim
  obtain ⟨hreach, -, hreceiver, haccepted, hsent⟩ :=
    afterSends_spec counterBoring (counterLink 2088959) (k := 8194) (by decide)
  have hp := hsent 8193 (by decide)
  have hideal := ideal_counterLink (reachable_inv hreach).sender
  have hrx := reachable_rxInv hreach
  rw [haccepted] at hrx
  have hexpected : ((counterLink 2088959).afterSends counterBoring
      8194).receiver.replayWindow.expectedPn = 2088959 := by
    rw [hreceiver]
    rfl
  obtain ⟨opened, hopened⟩ := hclaim _ hreach _ hideal _ hp (by simp [haccepted])
    (by rw [haccepted]; exact .inr (by decide)) (by rw [hexpected]; decide)
  have hrefused := openPacket_refused (reachable_inv hreach).sender hideal hp hrx
    (by rw [hexpected]; exact .inr (by decide)) [] (by decide) (by rw [hexpected]; decide)
  rw [hopened] at hrefused
  simp at hrefused

/-- One packet is lost, and the one after it is the first of its generation. -/
theorem newer_packet_accepted_counterLink :
    let link := counterLink 2097151
    let w := link.afterSends counterBoring 2
    let p : SentPacket := ⟨[], scheduledCall counterBoring (link.origin counterBoring) 2097152 []⟩
    Reachable counterBoring link w ∧ p ∈ w.sent ∧
      (w.receiver.openPacket { counterBoring with aeadOpen := tableOpen counterBoring w.sent }
        (p.wire counterBoring link) ⟨[], []⟩).1 = .ok p.opened := by
  intro link w p
  obtain ⟨hreach, haccepted, hexpected, hp⟩ := counterLink_second
  refine ⟨hreach, hp, ((newer_packet_accepted_iff hreach
    (ideal_counterLink (reachable_inv hreach).sender) hp ?_ ?_).2 ?_).1 ?_⟩
  · simp [haccepted]
  · rw [hexpected]
    decide
  · rw [haccepted]
    decide
  · rw [haccepted, hexpected]
    decide

end Slt.Crypto
