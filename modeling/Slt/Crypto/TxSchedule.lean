import Slt.Crypto.Generation
import Slt.Crypto.SessionLaws

/-!
# The sending key schedule

Whatever is called on a session, in whatever order and with whatever failures,
the packet numbers given to the AEAD's seal function increase strictly, and
each is sealed with the keys and the phase bit of its generation. So no nonce
is used twice within one generation.
-/

namespace Slt.Crypto

open Lib Lib.U64

variable {ι : Type}

structure TxOrigin where
  cipher : CipherSuite
  dcid : Bytes
  keys : DirectionKeys
  start : Nat
  keyPhase : Bool

/-- The sending half is in generation `g`: the next packet is of that
generation, or it is the first of the one after. -/
structure TxAt (boring : Boring) (o : TxOrigin) (g : Nat) (s : Session.TxState) : Prop where
  cipher : s.cipher = o.cipher
  dcid : s.dcid.bytes = o.dcid
  policy : s.policy = RekeyPolicy.defaults
  keys : s.keys = generationKeys boring o.cipher o.keys g
  keyPhase : s.keyPhase = generationPhase o.keyPhase g
  nextRekeyPn : s.nextRekeyPn = rekeyThreshold o.start g
  start_le : o.start ≤ s.nextPn
  low : generationStart o.start g ≤ s.nextPn
  high : s.nextPn ≤ generationStart o.start (g + 1)
  bounded : s.nextPn < 2 ^ 64

/-- The seal call the schedule prescribes for a packet number and a payload. -/
def scheduledCall (boring : Boring) (o : TxOrigin) (pn : Nat) (payload : Bytes) : SealCall :=
  let g := generationOf o.start pn
  sealCallOf (generationKeys boring o.cipher o.keys g) o.dcid pn (generationPhase o.keyPhase g)
    payload

/-- Rotating brings the session to the generation of the packet number to be
sent next, unless it fails. -/
theorem maybeRotateTxKeys_at {boring : Boring} {o : TxOrigin} {g : Nat} {self : Session ι}
    {t : QspTape} (h : TxAt boring o g self.txState) :
    ∃ g', TxAt boring o g' (self.maybeRotateTxKeys boring self.nextPn t).2.1.txState ∧
      (self.maybeRotateTxKeys boring self.nextPn t).2.1.nextPn = self.nextPn ∧
      ((self.maybeRotateTxKeys boring self.nextPn t).1 = .ok () →
        generationOf o.start self.nextPn = g') := by
  generalize hpn : self.nextPn = pn
  fun_induction Session.maybeRotateTxKeys boring self pn t generalizing g with
  | case1 self t hnone =>
    -- No threshold is left: the next generation would start past the end.
    refine ⟨g, h, hpn, fun _ => ?_⟩
    subst hpn
    have hend := h.nextRekeyPn.symm.trans hnone
    simp only [rekeyThreshold, ite_eq_right_iff, reduceCtorEq, imp_false, Nat.not_lt] at hend
    exact (generationOf_eq_iff h.start_le).mpr ⟨h.low, Nat.lt_of_lt_of_le h.bounded hend⟩
  | case2 self t threshold hthreshold hlt =>
    refine ⟨g, h, hpn, fun _ => ?_⟩
    subst hpn
    obtain ⟨rfl, -⟩ := rekeyThreshold_eq_some.mp (h.nextRekeyPn.symm.trans hthreshold)
    exact (generationOf_eq_iff h.start_le).mpr ⟨h.low, hlt⟩
  | case3 self t threshold hthreshold hle e t' hrun => exact ⟨g, h, hpn, by simp⟩
  | case4 self t threshold hthreshold hle keys t' hrun ih =>
    subst hpn
    obtain ⟨rfl, hbound⟩ := rekeyThreshold_eq_some.mp (h.nextRekeyPn.symm.trans hthreshold)
    obtain rfl := (UdpQspKeys.yields_withNextTxKeys boring self.keys).success hrun
    have hpolicy : self.rekeyPolicy = RekeyPolicy.defaults := h.policy
    have hcipher : self.keys.cipher = o.cipher := h.cipher
    have hkeys : self.keys.tx = generationKeys boring o.cipher o.keys g := h.keys
    have hphase : self.txKeyPhase = generationPhase o.keyPhase g := h.keyPhase
    have hlow : generationStart o.start (g + 1) ≤ self.nextPn := Nat.le_of_not_lt hle
    refine ih (g := g + 1) ⟨h.cipher, h.dcid, h.policy, ?_, ?_, ?_, h.start_le, hlow, ?_,
      h.bounded⟩ rfl
    · rw [generationKeys_succ, ← hkeys, ← hcipher]
      rfl
    · rw [generationPhase_succ, ← hphase]
      rfl
    · show nextRekeyAfter _ self.rekeyPolicy.interval = _
      rw [hpolicy]
      exact nextRekeyAfter_generationStart _ _
    · have hhigh : self.nextPn ≤ generationStart o.start (g + 1) := h.high
      exact hhigh.trans (generationStart_le_of_le (by omega))

theorem maybeRotateTxKeys_clean (boring : Boring) (self : Session ι) (pn : Nat) {t : QspTape}
    (h : t.faults = []) :
    (self.maybeRotateTxKeys boring pn t).1 = .ok () ∧
      (self.maybeRotateTxKeys boring pn t).2.2.faults = [] := by
  fun_induction Session.maybeRotateTxKeys boring self pn t with
  | case1 => exact ⟨rfl, h⟩
  | case2 => exact ⟨rfl, h⟩
  | case3 self t threshold hthreshold hle e t' hrun =>
    obtain ⟨faults, log⟩ := t
    obtain rfl : faults = [] := h
    obtain ⟨log', hclean⟩ := (UdpQspKeys.yields_withNextTxKeys boring self.keys).clean log
    rw [hclean] at hrun
    simp at hrun
  | case4 self t threshold hthreshold hle keys t' hrun ih =>
    apply ih
    have hclean := (UdpQspKeys.quiet_withNextTxKeys boring self.keys).clean t h
    rwa [hrun] at hclean

/-- What sending adds to the log: nothing, if it fails before the AEAD is
called, with the packet number still unused; otherwise the scheduled seal
call, and the packet if that succeeds. Without faults it can fail only for
want of a next packet number. -/
inductive SendLog (boring : Boring) (o : TxOrigin) (payload : Bytes) (pn : Nat)
    (faults : List Bool) (log : List SessionEvent) : Nat → List SessionEvent → Prop
  | none (failed : faults ≠ [] ∨ 2 ^ 64 ≤ pn + 1) :
      SendLog boring o payload pn faults log pn log
  | sealed (bounded : pn + 1 < 2 ^ 64) (failed : faults ≠ []) :
      SendLog boring o payload pn faults log (pn + 1)
        (log ++ [.seal (scheduledCall boring o pn payload)])
  | transmitted (bounded : pn + 1 < 2 ^ 64) :
      SendLog boring o payload pn faults log (pn + 1)
        (log ++ [.seal (scheduledCall boring o pn payload),
          .transmit (packetOf boring o.dcid (scheduledCall boring o pn payload))])

theorem TxAt.withNextPn {boring : Boring} {o : TxOrigin} {g : Nat} {s : Session.TxState}
    (h : TxAt boring o g s) (hgen : generationOf o.start s.nextPn = g)
    (hbound : s.nextPn + 1 < 2 ^ 64) : TxAt boring o g { s with nextPn := s.nextPn + 1 } where
  cipher := h.cipher
  dcid := h.dcid
  policy := h.policy
  keys := h.keys
  keyPhase := h.keyPhase
  nextRekeyPn := h.nextRekeyPn
  start_le := Nat.le_succ_of_le h.start_le
  low := Nat.le_succ_of_le h.low
  high := ((generationOf_eq_iff h.start_le).mp hgen).2
  bounded := hbound

theorem send_at [SessionIo ι] {boring : Boring} {o : TxOrigin} {g : Nat} {self : Session ι}
    (payload : Bytes) (t : QspTape) (h : TxAt boring o g self.txState) :
    ∃ g', TxAt boring o g' (self.send boring payload t).2.1.txState ∧
      SendLog boring o payload self.nextPn t.faults t.log (self.send boring payload t).2.1.nextPn
        (self.send boring payload t).2.2.log := by
  obtain ⟨g', hat, hnext, hgen⟩ := maybeRotateTxKeys_at (t := t) h
  obtain ⟨-, -, hlog⟩ := self.maybeRotateTxKeys_frame boring self.nextPn t
  have hclean := maybeRotateTxKeys_clean boring self self.nextPn (t := t)
  unfold Session.send
  dsimp only
  generalize self.maybeRotateTxKeys boring self.nextPn t = out at hat hnext hgen hlog hclean ⊢
  obtain ⟨r, rotated, t₁⟩ := out
  -- A rotation that fails and an exhausted number space seal nothing.
  cases r with
  | error e =>
    refine ⟨g', hat, ?_⟩
    rw [hnext, hlog]
    refine .none (.inl fun hfaults => ?_)
    simpa using (hclean hfaults).1
  | ok u =>
    cases hadd : checkedAdd self.nextPn 1 with
    | none =>
      refine ⟨g', hat, ?_⟩
      rw [hnext, hlog]
      exact .none (.inr (checkedAdd_eq_none.mp hadd))
    | some nextPn =>
      obtain ⟨rfl, hbound⟩ := checkedAdd_eq_some.mp hadd
      dsimp only
      have hgen := hgen rfl
      have hcall : sealCallOf rotated.keys.tx rotated.dcid.bytes self.nextPn rotated.txKeyPhase
          payload = scheduledCall boring o self.nextPn payload := by
        rw [scheduledCall, hgen, ← hat.keys, ← hat.dcid, ← hat.keyPhase]
        rfl
      -- From here on the number is used up, whether the packet gets out or not.
      have hat' : TxAt boring o g' { rotated.txState with nextPn := self.nextPn + 1 } := by
        have hnext : rotated.txState.nextPn = self.nextPn := hnext
        rw [← hnext] at hgen hbound ⊢
        exact hat.withNextPn hgen hbound
      rw [UdpQspKeys.protectInto_run, hcall]
      rcases Faulty.run_call QspCryptoError.cryptoFail
        (packetOf boring rotated.dcid.bytes (scheduledCall boring o self.nextPn payload))
        { t₁ with log := t₁.log ++ [.seal (scheduledCall boring o self.nextPn payload)] } with
        hrun | ⟨hfaults, hrun⟩
      · rw [hrun]
        dsimp only
        have hdcid : rotated.dcid.bytes = o.dcid := hat.dcid
        rw [hdcid, hlog]
        rcases SessionIo.send rotated.io
          (packetOf boring o.dcid (scheduledCall boring o self.nextPn payload)) with ⟨r, io⟩
        cases r with
        | error e => exact ⟨g', hat', by simpa using .transmitted hbound⟩
        | ok u => exact ⟨g', hat', by simpa using .transmitted hbound⟩
      · rw [hrun]
        dsimp only
        rw [hlog]
        exact ⟨g', hat', .sealed hbound fun h => hfaults (hclean h).2⟩

/-! ## Runs -/

inductive Call (ι : Type) where
  | send (payload : Bytes)
  | openPacket (packet : Bytes)
  | recv
  | flush
  | discardPendingSend
  | replaceIo (io : ι)
  | setPeer (peer : SocketAddr)

def sealCalls (log : List SessionEvent) : List SealCall :=
  log.filterMap fun
    | .seal call => some call
    | .transmit _ => none

/-- The seal calls so far follow the schedule, with increasing packet numbers
below the next one. -/
structure TxInv (boring : Boring) (o : TxOrigin) (st : Session ι × QspTape) : Prop where
  current : ∃ g, TxAt boring o g st.1.txState
  scheduled : ∀ call ∈ sealCalls st.2.log, o.start ≤ call.pn ∧ call.pn < st.1.nextPn ∧
    ∃ payload, call = scheduledCall boring o call.pn payload
  increasing : ((sealCalls st.2.log).map (·.pn)).Pairwise (· < ·)

theorem TxInv.of_frame {boring : Boring} {o : TxOrigin} {st st' : Session ι × QspTape}
    (h : TxInv boring o st) (htx : st'.1.txState = st.1.txState) (hlog : st'.2.log = st.2.log) :
    TxInv boring o st' := by
  have hnext : st'.1.nextPn = st.1.nextPn := congrArg Session.TxState.nextPn htx
  refine ⟨?_, ?_, ?_⟩
  · rw [htx]
    exact h.current
  · rw [hlog, hnext]
    exact h.scheduled
  · rw [hlog]
    exact h.increasing

theorem TxInv.of_seal {boring : Boring} {o : TxOrigin} {st st' : Session ι × QspTape} {g : Nat}
    (h : TxInv boring o st) (payload : Bytes) (hat : TxAt boring o g st'.1.txState)
    (hnext : st'.1.nextPn = st.1.nextPn + 1)
    (hlog : sealCalls st'.2.log =
      sealCalls st.2.log ++ [scheduledCall boring o st.1.nextPn payload]) :
    TxInv boring o st' := by
  obtain ⟨g₀, hat₀⟩ := h.current
  refine ⟨⟨g, hat⟩, ?_, ?_⟩
  · intro call hcall
    rw [hlog, List.mem_append, List.mem_singleton] at hcall
    rcases hcall with hcall | rfl
    · obtain ⟨hstart, hlt, hsched⟩ := h.scheduled call hcall
      exact ⟨hstart, by omega, hsched⟩
    · exact ⟨hat₀.start_le, hnext ▸ Nat.lt_succ_self _, payload, rfl⟩
  · rw [hlog, List.map_append, List.pairwise_append]
    refine ⟨h.increasing, List.pairwise_singleton _ _, ?_⟩
    intro pn hpn pn' hpn'
    obtain ⟨call, hcall, rfl⟩ := List.mem_map.mp hpn
    obtain rfl : pn' = st.1.nextPn := by simpa [scheduledCall, sealCallOf] using hpn'
    exact (h.scheduled call hcall).2.1

section
variable [SessionIo ι] [PeerUpdate ι]

def runCall (boring : Boring) (st : Session ι × QspTape) : Call ι → Session ι × QspTape
  | .send payload => (st.1.send boring payload st.2).2
  | .openPacket packet => (st.1.openPacket boring packet st.2).2
  | .recv => (st.1.recv boring st.2).2
  | .flush => (st.1.flush.2, st.2)
  | .discardPendingSend => (st.1.discardPendingSend.2, st.2)
  | .replaceIo io => ((st.1.replaceIo io).2, st.2)
  | .setPeer peer => (st.1.setPeer peer, st.2)

def runCalls (boring : Boring) (st : Session ι × QspTape) (calls : List (Call ι)) :
    Session ι × QspTape :=
  calls.foldl (runCall boring) st

theorem runCall_frame (boring : Boring) (st : Session ι × QspTape) {call : Call ι}
    (h : ∀ payload, call ≠ .send payload) :
    (runCall boring st call).1.txState = st.1.txState ∧
      (runCall boring st call).2.log = st.2.log := by
  cases call with
  | send payload => exact absurd rfl (h payload)
  | openPacket packet => exact st.1.openPacket_frame boring packet st.2
  | recv =>
    simp only [runCall, Session.recv]
    rcases SessionIo.recv st.1.io with ⟨r, io⟩
    cases r with
    | error e => exact ⟨rfl, rfl⟩
    | ok packet => exact Session.openPacket_frame boring { st.1 with io } packet st.2
  | flush => exact ⟨rfl, rfl⟩
  | discardPendingSend => exact ⟨rfl, rfl⟩
  | replaceIo io => exact ⟨rfl, rfl⟩
  | setPeer peer => exact ⟨rfl, rfl⟩

theorem runCall_inv {boring : Boring} {o : TxOrigin} {st : Session ι × QspTape}
    (h : TxInv boring o st) (call : Call ι) : TxInv boring o (runCall boring st call) := by
  by_cases hsend : ∃ payload, call = .send payload
  · obtain ⟨payload, rfl⟩ := hsend
    obtain ⟨g, hat⟩ := h.current
    obtain ⟨g', hat', hlog⟩ := send_at payload st.2 hat
    simp only [runCall]
    generalize st.1.send boring payload st.2 = out at hat' hlog
    obtain ⟨r, self', t'⟩ := out
    dsimp only at hat' hlog
    generalize hn : self'.nextPn = n at hlog
    generalize hl : t'.log = log' at hlog
    cases hlog with
    | none => exact ⟨⟨g', hat'⟩, hl ▸ hn ▸ h.scheduled, hl ▸ h.increasing⟩
    | sealed hbound => exact h.of_seal payload hat' hn (by simp [hl, sealCalls])
    | transmitted hbound => exact h.of_seal payload hat' hn (by simp [hl, sealCalls])
  · obtain ⟨htx, hlog⟩ := runCall_frame boring st (not_exists.mp hsend)
    exact h.of_frame htx hlog

theorem runCalls_inv {boring : Boring} {o : TxOrigin} (calls : List (Call ι))
    {st : Session ι × QspTape} (h : TxInv boring o st) :
    TxInv boring o (runCalls boring st calls) := by
  induction calls generalizing st with
  | nil => exact h
  | cons call calls ih => exact ih (runCall_inv h call)

def txOrigin (dcid : Cid) (keys : UdpQspKeys) (sendPn : UInt64) (keyPhase : Bool) : TxOrigin where
  cipher := keys.cipher
  dcid := dcid.bytes
  keys := keys.tx
  start := sendPn.toNat
  keyPhase := keyPhase

omit [SessionIo ι] [PeerUpdate ι] in
theorem txAt_new (boring : Boring) (io : ι) (scid dcid : Cid) (keys : UdpQspKeys)
    (sendPn recvExpectedPn : UInt64) (keyPhase : Bool) :
    TxAt boring (txOrigin dcid keys sendPn keyPhase) 0
      (Session.new io scid dcid keys sendPn recvExpectedPn keyPhase).txState where
  cipher := rfl
  dcid := rfl
  policy := rfl
  keys := rfl
  keyPhase := (generationPhase_zero _).symm
  nextRekeyPn := nextRekeyAfter_start _
  start_le := le_refl _
  low := generationStart_zero_le _
  high := (lt_generationStart_one _).le
  bounded := sendPn.toNat_lt

/-- The sending key schedule of a session, over every sequence of calls and
every pattern of library and I/O failures: the packet numbers given to the
AEAD's seal function increase strictly and stay below the largest `u64`; each
is sealed with the keys reached from the first ones by as many key updates as
multiples of the rekey interval lie above `sendPn` and up to it, and with the
phase bit of that count's parity; so no pair of generation and nonce is sealed
twice. Receiving never touches the sending half of a session, nor sending the
receiving half. -/
theorem tx_key_schedule (boring : Boring) (io : ι) (scid dcid : Cid) (keys : UdpQspKeys)
    (sendPn recvExpectedPn : UInt64) (keyPhase : Bool) (calls : List (Call ι))
    (faults : List Bool) :
    let first := Session.new io scid dcid keys sendPn recvExpectedPn keyPhase
    let seals := sealCalls (runCalls boring (first, ⟨faults, []⟩) calls).2.log
    let generation (pn : Nat) :=
      pn / keyUpdateInterval - sendPn.toNat / keyUpdateInterval
    (seals.map (·.pn)).Pairwise (· < ·) ∧
      (∀ call ∈ seals, sendPn.toNat ≤ call.pn ∧ call.pn < 2 ^ 64 - 1 ∧
        call.keys = (DirectionKeys.next boring keys.cipher)^[generation call.pn] keys.tx ∧
        call.keyPhase = (keyPhase ^^ decide (generation call.pn % 2 = 1)) ∧
        call.ad = headerBytes dcid.bytes call.pn call.keyPhase) ∧
      (seals.map fun call => (generation call.pn, call.nonce)).Nodup ∧
      (∀ (self : Session ι) (packet : Bytes) (t : QspTape),
        (self.openPacket boring packet t).2.1.txState = self.txState) ∧
      (∀ (self : Session ι) (payload : Bytes) (t : QspTape),
        (self.send boring payload t).2.1.rxState = self.rxState) := by
  intro first seals generation
  have hinv : TxInv boring (txOrigin dcid keys sendPn keyPhase)
      (runCalls boring (first, ⟨faults, []⟩) calls) := by
    refine runCalls_inv calls ⟨⟨0, txAt_new ..⟩, ?_, ?_⟩ <;> simp [sealCalls]
  obtain ⟨g, hat⟩ := hinv.current
  have hscheduled : ∀ call ∈ seals, sendPn.toNat ≤ call.pn ∧ call.pn < 2 ^ 64 - 1 ∧
      call.keys = generationKeys boring keys.cipher keys.tx (generation call.pn) ∧
      call.keyPhase = generationPhase keyPhase (generation call.pn) ∧
      call.ad = headerBytes dcid.bytes call.pn call.keyPhase := by
    intro call hcall
    obtain ⟨hstart, hlt, payload, hsched⟩ := hinv.scheduled call hcall
    have hbound : _ < 2 ^ 64 := hat.bounded
    refine ⟨hstart, Nat.lt_sub_of_add_lt (Nat.lt_of_le_of_lt hlt hbound), ?_⟩
    rw [hsched]
    exact ⟨rfl, rfl, rfl⟩
  refine ⟨hinv.increasing, hscheduled, ?_, fun self packet t =>
    (self.openPacket_frame boring packet t).1, fun self payload t =>
    self.send_frame boring payload t⟩
  -- Equal generations have equal keys, and under one IV the nonce determines the number.
  have hincreasing := List.pairwise_map.mp hinv.increasing
  refine List.Pairwise.map _ (fun _ _ h => h) (hincreasing.imp_of_mem ?_)
  intro call call' hcall hcall' hlt heq
  obtain ⟨-, hb, hkeys, -⟩ := hscheduled call hcall
  obtain ⟨-, hb', hkeys', -⟩ := hscheduled call' hcall'
  obtain ⟨hgen, hnonce⟩ := Prod.mk.injEq .. ▸ heq
  rw [SealCall.nonce, SealCall.nonce, hkeys, hkeys', hgen] at hnonce
  have := makeNonce_inj (by omega) (by omega) hnonce
  omega

end

end Slt.Crypto
