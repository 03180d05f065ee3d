import Slt.Server.QuicNat

/-!
# The order of the NAT cache

The cache orders peers by use and the entries say when their peer was last
seen. The two agree along every run whose clock does not go back, as long as a
notification of an old reader finds the entry of its peer in front: taking the
entry out and putting it back makes the peer the most recently used one
without having seen it.
-/

namespace Slt.Server

open Lib (Lru)

namespace QuicNatState

/-- What the clock shows when an event reads it. -/
def Event.At (clock : Nat) : Event → Prop
  | .datagram _ now _ => now = clock
  | .sweepIdle now _ => now = clock
  | _ => True

/-- The states of runs with a clock that does not go back, in which every event
meets the condition, and the clock. -/
inductive Timed (condition : QuicNatState → Event → Prop) (capacity : Nat)
    (positive : 0 < capacity) : Nat → QuicNatState → Prop where
  | new (clock : Nat) : Timed condition capacity positive clock (.new capacity positive)
  | step {clock clock' : Nat} {nat nat' : QuicNatState} (e : Event) :
      Timed condition capacity positive clock nat → clock ≤ clock' → e.At clock' →
      condition nat e → nat.step e = some nat' → Timed condition capacity positive clock' nat'

/-- The entry that a notification of an old reader finds is the most recently
used one. -/
def InFront (nat : QuicNatState) (peer : SocketAddr) (token : UInt64) : Prop :=
  ∀ entry, nat.peers.lookup peer = some entry → entry.token ≠ token →
    ∃ entries, nat.peers.entries = (peer, entry) :: entries

def StaleInFront (nat : QuicNatState) : Event → Prop
  | .readerDone index => ∀ peer token, nat.done[index]? = some (peer, token) → nat.InFront peer token
  | _ => True

/-- The recency order agrees with the times, which the clock has passed. -/
structure Recent (clock : Nat) (nat : QuicNatState) : Prop where
  order : nat.peers.Stamped PeerEntry.lastSeen
  past : ∀ entry ∈ nat.peers.entries, entry.2.lastSeen ≤ clock

namespace Recent

variable {clock : Nat} {nat nat' : QuicNatState}

variable (h : Recent clock nat)
include h

theorem later {clock' : Nat} (hle : clock ≤ clock') : Recent clock' nat :=
  ⟨h.order, fun entry hentry => (h.past entry hentry).trans hle⟩

theorem of_peers (hpeers : nat'.peers = nat.peers) : Recent clock nat' := by
  obtain ⟨order, past⟩ := h
  exact ⟨hpeers ▸ order, hpeers ▸ past⟩

theorem erase (peer : SocketAddr) (hpeers : nat'.peers = nat.peers.erase peer) :
    Recent clock nat' := by
  refine ⟨hpeers ▸ h.order.erase, fun entry hentry => ?_⟩
  rw [hpeers] at hentry
  exact h.past entry (Lru.mem_others.mp hentry).1

theorem put (peer : SocketAddr) (entry : PeerEntry) (hnow : entry.lastSeen = clock)
    (hpeers : nat'.peers = (nat.peers.put peer entry).2) : Recent clock nat' := by
  refine ⟨?_, fun other hother => ?_⟩
  · rw [hpeers]
    exact h.order.put fun other hother _ => hnow ▸ h.past other hother
  · rw [hpeers] at hother
    rcases List.mem_cons.mp hother with rfl | hkept
    · exact Nat.le_of_eq hnow
    · exact h.past other (Lru.mem_of_mem_kept hkept).1

theorem getOrCreateUpstream (peer : SocketAddr) (created : Bool) :
    Recent clock (nat.getOrCreateUpstream peer clock created).2 := by
  unfold QuicNatState.getOrCreateUpstream
  cases hlookup : nat.peers.lookup peer with
  | some entry =>
    refine h.put peer { entry with lastSeen := clock } rfl ?_
    simp only [Lru.getMut, hlookup]
  | none =>
    cases created with
    | false => exact h
    | true =>
      refine h.put peer ⟨clock, nat.readers.length, nat.nextToken⟩ rfl ?_
      simp only [Lru.put, hlookup, if_true]

theorem evictIdle (peer : SocketAddr) : Recent clock (nat.evictIdle peer) := by
  unfold QuicNatState.evictIdle Lru.pop
  cases hlookup : nat.peers.lookup peer with
  | none => exact h
  | some entry => exact h.erase peer rfl

theorem sweepIdle (now idleTimeout : Nat) : Recent clock (nat.sweepIdle now idleTimeout) := by
  unfold QuicNatState.sweepIdle
  generalize nat.stalePeers now idleTimeout = stale
  induction stale generalizing nat with
  | nil => exact h
  | cons peer stale ih => exact ih (h.evictIdle peer)

end Recent

/-- A notification of an old reader changes nothing if the entry of its peer is
in front. -/
theorem handleReaderDone_stale {nat : QuicNatState} {peer : SocketAddr} {token : UInt64}
    (hfront : nat.InFront peer token)
    (hstale : ∀ entry, nat.peers.lookup peer = some entry → entry.token ≠ token) :
    nat.handleReaderDone peer token = nat := by
  unfold QuicNatState.handleReaderDone Lru.pop
  cases hlookup : nat.peers.lookup peer with
  | none => rfl
  | some entry =>
    obtain ⟨entries, hentries⟩ := hfront entry hlookup (hstale entry hlookup)
    simp only [if_neg (hstale entry hlookup), Lru.put_erase_head hentries]

theorem Recent.handleReaderDone {clock : Nat} {nat : QuicNatState} (h : Recent clock nat)
    {peer : SocketAddr} {token : UInt64} (hfront : nat.InFront peer token) :
    Recent clock (nat.handleReaderDone peer token) := by
  by_cases hstale : ∀ entry, nat.peers.lookup peer = some entry → entry.token ≠ token
  · rw [handleReaderDone_stale hfront hstale]
    exact h
  · push Not at hstale
    obtain ⟨entry, hlookup, htoken⟩ := hstale
    refine h.erase peer ?_
    simp only [QuicNatState.handleReaderDone, Lru.pop, hlookup, if_pos htoken]

theorem Recent.step {clock clock' : Nat} {nat nat' : QuicNatState} {e : Event}
    (h : Recent clock nat) (hle : clock ≤ clock') (hat : e.At clock')
    (hfront : nat.StaleInFront e) (hstep : nat.step e = some nat') : Recent clock' nat' := by
  have h := h.later hle
  cases e with
  | datagram peer now created =>
    obtain rfl : now = clock' := hat
    cases hstep
    exact h.getOrCreateUpstream peer created
  | readerFinished task =>
    simp only [QuicNatState.step] at hstep
    split at hstep
    next reader _ =>
      split at hstep
      · cases hstep
      · cases hstep
        exact h.of_peers rfl
    next => cases hstep
  | readerDone index =>
    simp only [QuicNatState.step] at hstep
    split at hstep
    next peer token hdone =>
      cases hstep
      exact (h.handleReaderDone (hfront peer token hdone)).of_peers rfl
    next => cases hstep
  | sweepIdle now idleTimeout =>
    cases hstep
    exact h.sweepIdle now idleTimeout

theorem Timed.recent {capacity clock : Nat} {positive : 0 < capacity} {nat : QuicNatState}
    (reach : Timed StaleInFront capacity positive clock nat) : Recent clock nat := by
  induction reach with
  | new clock => exact ⟨Lru.stamped_new capacity positive, nofun⟩
  | step e _ hle hat hfront hstep ih => exact ih.step hle hat hfront hstep

theorem Recent.le_of_dropped {clock : Nat} {nat : QuicNatState} (h : Recent clock nat)
    {peer dropped kept : SocketAddr} {now : Nat} {created : Bool} {entry other : PeerEntry}
    (hentry : nat.peers.lookup dropped = some entry)
    (hgone : (nat.getOrCreateUpstream peer now created).2.peers.lookup dropped = none)
    (hkept : nat.peers.lookup kept = some other) : entry.lastSeen ≤ other.lastSeen := by
  have hne : dropped ≠ peer := by
    rintro rfl
    simp [QuicNatState.getOrCreateUpstream, hentry, Lru.lookup_getMut] at hgone
  unfold QuicNatState.getOrCreateUpstream at hgone
  cases hlookup : nat.peers.lookup peer with
  | some known =>
    simp only [hlookup, Lru.lookup_getMut, if_neg hne, hentry] at hgone
    cases hgone
  | none =>
    cases created with
    | false => simp [hlookup, hentry] at hgone
    | true =>
      simp only [hlookup, if_true] at hgone
      have hgone : (nat.peers.put peer ⟨now, nat.readers.length, nat.nextToken⟩).2.lookup dropped =
          none := by simpa [Lru.put, hlookup] using hgone
      exact h.order.le_of_dropped (Lru.lookup_eq_some.mp hentry) hne
        (Lru.lookup_eq_none.mp hgone entry) (Lru.lookup_eq_some.mp hkept)

end QuicNatState

open QuicNatState

/-- As long as every notification of an old reader finds the entry of its peer
in front, the recency order agrees with the times, the peer that makes room is
one that was seen least recently, and such a notification changes nothing. -/
theorem nat_evicts_least_recently_seen {capacity clock : Nat} {positive : 0 < capacity}
    {nat : QuicNatState} (reach : Timed StaleInFront capacity positive clock nat) :
    (nat.peers.entries.Pairwise fun newer older => older.2.lastSeen ≤ newer.2.lastSeen) ∧
    (∀ peer now created dropped entry, nat.peers.lookup dropped = some entry →
      (nat.getOrCreateUpstream peer now created).2.peers.lookup dropped = none →
      ∀ kept other, nat.peers.lookup kept = some other → entry.lastSeen ≤ other.lastSeen) ∧
    ∀ peer token, nat.InFront peer token →
      (∀ entry, nat.peers.lookup peer = some entry → entry.token ≠ token) →
      nat.handleReaderDone peer token = nat :=
  ⟨reach.recent.order,
    fun _ _ _ _ _ hentry hgone _ _ hkept => reach.recent.le_of_dropped hentry hgone hkept,
    fun _ _ hfront hstale => handleReaderDone_stale hfront hstale⟩

-- A reader of the first peer ends and the peer is swept before the notification
-- is handled; the peer comes back with a new reader, and then another peer.
def sweptAndBack : QuicNatState :=
  let nat := (QuicNatState.new 2 (by decide)).getOrCreateUpstream (localPeer 1) 0 true |>.2
  let nat := nat.finishReader 0 ⟨localPeer 1, 0, .running⟩
  let nat := nat.sweepIdle 10 10
  (nat.getOrCreateUpstream (localPeer 1) 11 true).2

theorem sweptAndBack_timed (condition : QuicNatState → Event → Prop)
    (hcondition : ∀ nat e, (∀ index, e ≠ .readerDone index) → condition nat e) :
    Timed condition 2 (by decide) 11 sweptAndBack := by
  have hseen : Timed condition 2 (by decide) 0 _ :=
    .step (.datagram (localPeer 1) 0 true) (.new 0) (Nat.le_refl 0) rfl (hcondition _ _ nofun) rfl
  have hended : Timed condition 2 (by decide) 0 _ :=
    .step (.readerFinished 0) hseen (Nat.le_refl 0) trivial (hcondition _ _ nofun) rfl
  have hswept : Timed condition 2 (by decide) 10 _ :=
    .step (.sweepIdle 10 10) hended (by decide) rfl (hcondition _ _ nofun) rfl
  exact .step (.datagram (localPeer 1) 11 true) hswept (by decide) rfl (hcondition _ _ nofun) rfl

/-- There the notification of the old reader is still to come and the peer is
in front. -/
theorem nat_evicts_least_recently_seen_swept :
    sweptAndBack.done[0]? = some (localPeer 1, 0) ∧
      sweptAndBack.handleReaderDone (localPeer 1) 0 = sweptAndBack := by
  have htimed := sweptAndBack_timed StaleInFront fun nat e he => by
    cases e with
    | readerDone index => exact absurd rfl (he index)
    | _ => trivial
  refine ⟨by decide, (nat_evicts_least_recently_seen htimed).2.2 _ _ ?_ ?_⟩
  · intro entry hentry _
    exact ⟨[], by cases hentry; rfl⟩
  · intro entry hentry
    cases hentry
    decide

/-- The notification of the old reader puts the first peer in front of the
second, which was seen later; the next peer then drops the second. -/
theorem nat_evicts_recently_seen :
    ∃ (nat nat' : QuicNatState), Timed (fun _ _ => True) 2 (by decide) 12 nat ∧
      nat.step (.readerDone 0) = some nat' ∧ nat.done[0]? = some (localPeer 1, 0) ∧
      nat.peers.entries.map (fun e => (e.1, e.2.token, e.2.lastSeen)) =
        [(localPeer 2, 2, 12), (localPeer 1, 1, 11)] ∧
      nat'.peers.entries.map (fun e => (e.1, e.2.token, e.2.lastSeen)) =
        [(localPeer 1, 1, 11), (localPeer 2, 2, 12)] ∧
      (nat'.getOrCreateUpstream (localPeer 3) 13 true).2.peers.entries.map
        (fun e => (e.1, e.2.lastSeen)) = [(localPeer 3, 13), (localPeer 1, 11)] := by
  refine ⟨(sweptAndBack.getOrCreateUpstream (localPeer 2) 12 true).2, _, ?_, rfl, by decide,
    by decide, by decide, by decide⟩
  exact .step (.datagram (localPeer 2) 12 true) (sweptAndBack_timed _ fun _ _ _ => trivial)
    (by decide) rfl trivial rfl

end Slt.Server
