import Slt.Lib.Indexed
import Slt.Lib.Lru
import Slt.Lib.U64
import Slt.Types
import Mathlib.Data.List.Perm.Subperm

/-!
# The QUIC front door's NAT

Datagrams that no session claims go to an upstream server over one socket
per peer, so that the peer keeps its 4-tuple. A reader task per socket sends
the answers back. The sockets are kept in a cache of bounded size; a reader
that ends says so on a channel, and idle peers are swept.

Readers are numbered in the order they are spawned, and an upstream socket is
named by the number of its reader.
-/

namespace Slt.Server

open Lib (Lru getElem?_modify_eq_some getElem?_concat_eq_some lt_length_of_getElem?)

structure PeerEntry where
  lastSeen : Nat
  task : Nat
  token : UInt64
  deriving DecidableEq

inductive ReaderState where
  | running
  | aborted
  | finished
  deriving DecidableEq

structure UpstreamReader where
  peer : SocketAddr
  token : UInt64
  state : ReaderState
  deriving DecidableEq

def UpstreamReader.abort (reader : UpstreamReader) : UpstreamReader :=
  if reader.state = .running then { reader with state := .aborted } else reader

/-- The NAT with the readers it has spawned and their notifications under way. -/
structure QuicNatState where
  peers : Lru SocketAddr PeerEntry
  nextToken : UInt64
  readers : List UpstreamReader
  done : List (SocketAddr × UInt64)

namespace QuicNatState

def new (capacity : Nat) (positive : 0 < capacity) : QuicNatState :=
  ⟨.new capacity positive, 0, [], []⟩

def abort (nat : QuicNatState) (task : Nat) : QuicNatState :=
  { nat with readers := nat.readers.modify task UpstreamReader.abort }

/-- The socket for a peer; `created` is whether a new one could be connected. -/
def getOrCreateUpstream (nat : QuicNatState) (peer : SocketAddr) (now : Nat) (created : Bool) :
    Option Nat × QuicNatState :=
  match nat.peers.lookup peer with
  | some entry =>
    (some entry.task,
      { nat with peers := nat.peers.getMut peer fun entry => { entry with lastSeen := now } })
  | none =>
    if created then
      let token := nat.nextToken
      let task := nat.readers.length
      let (evicted, peers) := nat.peers.put peer ⟨now, task, token⟩
      let spawned : QuicNatState :=
        { nat with
          peers := peers
          nextToken := token + 1
          readers := nat.readers ++ [⟨peer, token, .running⟩] }
      -- Only an entry of the same peer comes back; one that made room does not.
      match evicted with
      | some entry => (some task, spawned.abort entry.task)
      | none => (some task, spawned)
    else (none, nat)

def handleReaderDone (nat : QuicNatState) (peer : SocketAddr) (token : UInt64) : QuicNatState :=
  match nat.peers.pop peer with
  | (some entry, peers) =>
    if entry.token = token then { nat with peers := peers }
    else { nat with peers := (peers.put peer entry).2 }
  | (none, _) => nat

def evictIdle (nat : QuicNatState) (peer : SocketAddr) : QuicNatState :=
  match nat.peers.pop peer with
  | (some entry, peers) => { nat with peers := peers }.abort entry.task
  | (none, _) => nat

def stalePeers (nat : QuicNatState) (now idleTimeout : Nat) : List SocketAddr :=
  nat.peers.entries.filterMap fun (peer, entry) =>
    if idleTimeout ≤ now - entry.lastSeen then some peer else none

def sweepIdle (nat : QuicNatState) (now idleTimeout : Nat) : QuicNatState :=
  (nat.stalePeers now idleTimeout).foldl evictIdle nat

/-! ## Runs -/

/-- A reader that ends by itself, or that was aborted too late to stop it,
sends its notification. -/
def finishReader (nat : QuicNatState) (task : Nat) (reader : UpstreamReader) : QuicNatState :=
  { nat with
    readers := nat.readers.modify task fun reader => { reader with state := .finished }
    done := nat.done ++ [(reader.peer, reader.token)] }

inductive Event where
  | datagram (peer : SocketAddr) (now : Nat) (created : Bool)
  | readerFinished (task : Nat)
  | readerDone (index : Nat)
  | sweepIdle (now idleTimeout : Nat)

/-- Notifications are delivered in any order. -/
def step (nat : QuicNatState) : Event → Option QuicNatState
  | .datagram peer now created => some (nat.getOrCreateUpstream peer now created).2
  | .readerFinished task =>
    match nat.readers[task]? with
    | some reader =>
      if reader.state = .finished then none else some (nat.finishReader task reader)
    | none => none
  | .readerDone index =>
    match nat.done[index]? with
    | some (peer, token) =>
      some { nat.handleReaderDone peer token with done := nat.done.eraseIdx index }
    | none => none
  | .sweepIdle now idleTimeout => some (nat.sweepIdle now idleTimeout)

/-- The states of runs in which every event meets the condition. -/
inductive Reachable (condition : QuicNatState → Event → Prop) (capacity : Nat)
    (positive : 0 < capacity) : QuicNatState → Prop where
  | new : Reachable condition capacity positive (.new capacity positive)
  | step {nat nat' : QuicNatState} {e : Event} :
      Reachable condition capacity positive nat → condition nat e →
      nat.step e = some nat' → Reachable condition capacity positive nat'

/-- A new peer finds a free place and a token that was not used before. -/
def Fits (nat : QuicNatState) : Event → Prop
  | .datagram peer _ created => nat.peers.lookup peer = none → created = true →
      nat.peers.entries.length < nat.peers.capacity ∧ nat.readers.length < 2 ^ 64
  | _ => True

def isRunning (nat : QuicNatState) (task : Nat) : Bool :=
  nat.readers[task]?.any (·.state = .running)

def liveReaders (nat : QuicNatState) : List Nat :=
  (List.range nat.readers.length).filter nat.isRunning

/-- A socket lives as long as its reader runs or the cache has it. -/
def liveSockets (nat : QuicNatState) : List Nat :=
  (List.range nat.readers.length).filter fun task =>
    nat.isRunning task || nat.peers.entries.any (·.2.task = task)

/-! ## The invariant -/

structure Owned (capacity : Nat) (nat : QuicNatState) : Prop where
  capacity : nat.peers.capacity = capacity
  count : nat.readers.length ≤ 2 ^ 64
  next : nat.nextToken = UInt64.ofNat nat.readers.length
  token : ∀ (t : Nat) (reader : UpstreamReader), nat.readers[t]? = some reader →
    reader.token = UInt64.ofNat t
  entry : ∀ peer entry, nat.peers.lookup peer = some entry →
    ∃ reader : UpstreamReader, nat.readers[entry.task]? = some reader ∧ reader.peer = peer ∧
      reader.token = entry.token
  owned : ∀ (t : Nat) (reader : UpstreamReader), nat.readers[t]? = some reader →
    reader.state = .running → ∃ entry, nat.peers.lookup reader.peer = some entry ∧ entry.task = t
  finished : ∀ peer token, (peer, token) ∈ nat.done →
    ∃ (t : Nat) (reader : UpstreamReader), nat.readers[t]? = some reader ∧
      reader.token = token ∧ reader.state = .finished

namespace Owned

variable {capacity : Nat} {nat nat' : QuicNatState} {t t' : Nat} {reader reader' : UpstreamReader}

theorem new (positive : 0 < capacity) : Owned capacity (.new capacity positive) where
  capacity := rfl
  count := Nat.zero_le _
  next := rfl
  token _ _ h := by cases h
  entry _ _ h := by cases h
  owned _ _ h := by cases h
  finished _ _ h := by cases h

section

variable (inv : Owned capacity nat)
include inv

theorem same_reader (h : nat.readers[t]? = some reader) (h' : nat.readers[t']? = some reader')
    (htoken : reader.token = reader'.token) : t = t' := by
  rw [inv.token _ _ h, inv.token _ _ h'] at htoken
  have hlt := lt_length_of_getElem? h
  have hlt' := lt_length_of_getElem? h'
  exact Lib.U64.ofNat_inj inv.count hlt hlt' htoken

theorem of_reader {f : UpstreamReader → UpstreamReader} {done : List (SocketAddr × UInt64)}
    (hpeer : ∀ reader, (f reader).peer = reader.peer)
    (htoken : ∀ reader, (f reader).token = reader.token)
    (hrunning : ∀ reader, (f reader).state = .running → reader.state = .running)
    (hfinished : ∀ reader, reader.state = .finished → (f reader).state = .finished)
    (hdone : ∀ peer token, (peer, token) ∈ done → (peer, token) ∈ nat.done ∨
      ∃ reader : UpstreamReader, nat.readers[t]? = some reader ∧ reader.token = token ∧
        (f reader).state = .finished) :
    Owned capacity { nat with readers := nat.readers.modify t f, done := done } where
  capacity := inv.capacity
  count := by
    rw [List.length_modify]
    exact inv.count
  next := by
    rw [List.length_modify]
    exact inv.next
  token t' reader h := by
    obtain ⟨before, hbefore, rfl⟩ := getElem?_modify_eq_some.mp h
    split
    · rw [htoken, inv.token _ _ hbefore]
    · exact inv.token _ _ hbefore
  entry peer entry h := by
    obtain ⟨before, hbefore, hp, ht⟩ := inv.entry _ _ h
    refine ⟨_, getElem?_modify_eq_some.mpr ⟨before, hbefore, rfl⟩, ?_⟩
    split
    · rw [hpeer, htoken]
      exact ⟨hp, ht⟩
    · exact ⟨hp, ht⟩
  owned t' reader h hrun := by
    obtain ⟨before, hbefore, rfl⟩ := getElem?_modify_eq_some.mp h
    by_cases heq : t = t'
    · rw [if_pos heq] at hrun ⊢
      rw [hpeer]
      exact inv.owned _ _ hbefore (hrunning _ hrun)
    · rw [if_neg heq] at hrun ⊢
      exact inv.owned _ _ hbefore hrun
  finished peer token h := by
    rcases hdone _ _ h with hold | ⟨before, hbefore, ht, hf⟩
    · obtain ⟨t', before, hbefore, ht, hf⟩ := inv.finished _ _ hold
      refine ⟨t', _, getElem?_modify_eq_some.mpr ⟨before, hbefore, rfl⟩, ?_⟩
      split
      · rw [htoken]
        exact ⟨ht, hfinished _ hf⟩
      · exact ⟨ht, hf⟩
    · refine ⟨t, _, getElem?_modify_eq_some.mpr ⟨before, hbefore, rfl⟩, ?_⟩
      rw [if_pos rfl, htoken]
      exact ⟨ht, hf⟩

theorem finishReader (h : nat.readers[t]? = some reader) :
    Owned capacity (nat.finishReader t reader) := by
  refine inv.of_reader (fun _ => rfl) (fun _ => rfl) (fun _ h => by cases h) (fun _ _ => rfl) ?_
  intro peer token hmem
  rcases List.mem_append.mp hmem with hmem | hmem
  · exact .inl hmem
  · obtain ⟨-, rfl⟩ := Prod.mk.inj (List.mem_singleton.mp hmem)
    exact .inr ⟨reader, h, rfl, rfl⟩

/-! ## Changes of the cache -/

/-- Entries of the cache that change only in what readers do not see. -/
theorem of_peers {peers : Lru SocketAddr PeerEntry}
    (hcapacity : peers.capacity = nat.peers.capacity)
    (hbefore : ∀ peer entry, peers.lookup peer = some entry →
      ∃ before, nat.peers.lookup peer = some before ∧ before.task = entry.task ∧
        before.token = entry.token)
    (hafter : ∀ t reader entry, nat.readers[t]? = some reader → reader.state = .running →
      nat.peers.lookup reader.peer = some entry → entry.task = t →
      ∃ after, peers.lookup reader.peer = some after ∧ after.task = t) :
    Owned capacity { nat with peers := peers } where
  capacity := hcapacity.trans inv.capacity
  count := inv.count
  next := inv.next
  token := inv.token
  entry peer entry h := by
    obtain ⟨before, hold, htask, htoken⟩ := hbefore _ _ h
    rw [← htask, ← htoken]
    exact inv.entry _ _ hold
  owned t reader h hrunning := by
    obtain ⟨entry, hentry, htask⟩ := inv.owned _ _ h hrunning
    exact hafter _ _ _ h hrunning hentry htask
  finished := inv.finished

theorem erase {peer : SocketAddr}
    (hstopped : ∀ entry reader, nat.peers.lookup peer = some entry →
      nat.readers[entry.task]? = some reader → reader.state ≠ .running) :
    Owned capacity { nat with peers := nat.peers.erase peer } := by
  refine inv.of_peers rfl ?_ ?_
  · intro other entry h
    rw [Lru.lookup_erase] at h
    split at h
    · cases h
    · exact ⟨entry, h, rfl, rfl⟩
  · intro t reader entry hreader hrunning hentry htask
    refine ⟨entry, ?_, htask⟩
    rw [Lru.lookup_erase, if_neg, hentry]
    rintro rfl
    exact hstopped entry reader hentry (htask ▸ hreader) hrunning

theorem abort : Owned capacity (nat.abort t) := by
  refine inv.of_reader ?_ ?_ ?_ ?_ fun _ _ h => .inl h
  all_goals intro reader
  · unfold UpstreamReader.abort
    split <;> rfl
  · unfold UpstreamReader.abort
    split <;> rfl
  · unfold UpstreamReader.abort
    split
    · intro h
      cases h
    · exact id
  · intro h
    unfold UpstreamReader.abort
    rw [if_neg (by rw [h]; decide)]
    exact h

end

theorem abort_stops (h : (nat.abort t).readers[t]? = some reader) : reader.state ≠ .running := by
  obtain ⟨before, -, rfl⟩ := getElem?_modify_eq_some.mp h
  rw [if_pos rfl, UpstreamReader.abort]
  split
  · exact fun h => by cases h
  · assumption

variable (inv : Owned capacity nat)
include inv

theorem evictIdle (peer : SocketAddr) : Owned capacity (nat.evictIdle peer) := by
  unfold QuicNatState.evictIdle Lru.pop
  cases h : nat.peers.lookup peer with
  | none => exact inv
  | some entry =>
    -- The reader is stopped first, then its entry may go.
    refine (inv.abort (t := entry.task)).erase ?_
    intro other reader hother hreader
    cases h.symm.trans hother
    exact abort_stops hreader

theorem sweepIdle (now idleTimeout : Nat) : Owned capacity (nat.sweepIdle now idleTimeout) := by
  unfold QuicNatState.sweepIdle
  generalize nat.stalePeers now idleTimeout = stale
  induction stale generalizing nat with
  | nil => exact inv
  | cons peer stale ih => exact ih (inv.evictIdle peer)

theorem handleReaderDone {peer : SocketAddr} {token : UInt64} (hdone : (peer, token) ∈ nat.done) :
    Owned capacity (nat.handleReaderDone peer token) := by
  unfold QuicNatState.handleReaderDone Lru.pop
  cases h : nat.peers.lookup peer with
  | none => exact inv
  | some entry =>
    dsimp only
    split
    · rename_i htoken
      -- The notification is that of the entry's own reader.
      refine inv.erase ?_
      intro other reader hother hreader
      cases h.symm.trans hother
      obtain ⟨t, finished, hfinished, hsame, hstate⟩ := inv.finished _ _ hdone
      obtain ⟨own, hown, -, howntoken⟩ := inv.entry _ _ h
      cases inv.same_reader hfinished hown (by rw [hsame, howntoken, htoken])
      cases hfinished.symm.trans hreader
      rw [hstate]
      decide
    · have hsame : ∀ other, ((nat.peers.erase peer).put peer entry).2.lookup other =
          nat.peers.lookup other := by
        intro other
        by_cases heq : other = peer
        · rw [heq, Lru.lookup_put_self, h]
        · rw [Lru.lookup_put_of_ne heq fun _ => Lru.length_erase_lt h, Lru.lookup_erase,
            if_neg heq]
      refine inv.of_peers rfl ?_ ?_
      · intro other entry hentry
        exact ⟨entry, (hsame _).symm.trans hentry, rfl, rfl⟩
      · intro t reader entry _ _ hentry htask
        exact ⟨entry, (hsame _).trans hentry, htask⟩

theorem spawn {peer : SocketAddr} {now : Nat} (hnew : nat.peers.lookup peer = none)
    (hroom : nat.peers.entries.length < nat.peers.capacity) (hcount : nat.readers.length < 2 ^ 64) :
    Owned capacity { nat with
      peers := (nat.peers.put peer ⟨now, nat.readers.length, nat.nextToken⟩).2
      nextToken := nat.nextToken + 1
      readers := nat.readers ++ [⟨peer, nat.nextToken, .running⟩] } where
  capacity := inv.capacity
  count := by
    rw [List.length_append]
    exact hcount
  next := by
    simp only [List.length_append, List.length_singleton, UInt64.ofNat_add]
    rw [inv.next]
    rfl
  token t reader h := by
    rcases getElem?_concat_eq_some.mp h with hold | ⟨rfl, rfl⟩
    · exact inv.token _ _ hold
    · exact inv.next
  entry other entry h := by
    by_cases heq : other = peer
    · subst heq
      rw [Lru.lookup_put_self] at h
      cases h
      exact ⟨_, getElem?_concat_eq_some.mpr (.inr ⟨rfl, rfl⟩), rfl, rfl⟩
    · rw [Lru.lookup_put_of_ne heq fun _ => hroom] at h
      obtain ⟨reader, hreader, hsame⟩ := inv.entry _ _ h
      exact ⟨reader, getElem?_concat_eq_some.mpr (.inl hreader), hsame⟩
  owned t reader h hrunning := by
    rcases getElem?_concat_eq_some.mp h with hold | ⟨rfl, rfl⟩
    · obtain ⟨entry, hentry, htask⟩ := inv.owned _ _ hold hrunning
      have hne : reader.peer ≠ peer := by
        rintro rfl
        rw [hnew] at hentry
        cases hentry
      exact ⟨entry, (Lru.lookup_put_of_ne hne fun _ => hroom).trans hentry, htask⟩
    · exact ⟨_, Lru.lookup_put_self, rfl⟩
  finished other token h := by
    obtain ⟨t, reader, hreader, hsame⟩ := inv.finished _ _ h
    exact ⟨t, reader, getElem?_concat_eq_some.mpr (.inl hreader), hsame⟩

theorem getOrCreateUpstream {peer : SocketAddr} {now : Nat} {created : Bool}
    (hfits : nat.Fits (.datagram peer now created)) :
    Owned capacity (nat.getOrCreateUpstream peer now created).2 := by
  unfold QuicNatState.getOrCreateUpstream
  cases h : nat.peers.lookup peer with
  | some entry =>
    refine inv.of_peers Lru.capacity_getMut ?_ ?_
    · intro other entry' h'
      rw [Lru.lookup_getMut] at h'
      split at h'
      · rename_i heq
        subst heq
        obtain ⟨before, hbefore, rfl⟩ := Option.map_eq_some_iff.mp h'
        exact ⟨before, hbefore, rfl, rfl⟩
      · exact ⟨entry', h', rfl, rfl⟩
    · intro t reader entry' _ _ hentry htask
      rw [Lru.lookup_getMut]
      split
      · rename_i heq
        rw [heq] at hentry
        rw [hentry]
        exact ⟨_, rfl, htask⟩
      · exact ⟨entry', hentry, htask⟩
  | none =>
    cases created with
    | false => exact inv
    | true =>
      obtain ⟨hroom, hcount⟩ := hfits h rfl
      -- The peer is new, so no entry of it comes back.
      simp only [Lru.put, h, if_true]
      exact inv.spawn h hroom hcount

theorem step {event : Event} (hfits : nat.Fits event) (hstep : nat.step event = some nat') :
    Owned capacity nat' := by
  cases event with
  | datagram peer now created =>
    cases hstep
    exact inv.getOrCreateUpstream hfits
  | readerFinished task =>
    unfold QuicNatState.step at hstep
    cases h : nat.readers[task]? with
    | none => simp [h] at hstep
    | some reader =>
      simp only [h] at hstep
      split at hstep
      · cases hstep
      · cases hstep
        exact inv.finishReader h
  | readerDone index =>
    unfold QuicNatState.step at hstep
    cases h : nat.done[index]? with
    | none => simp [h] at hstep
    | some notification =>
      simp only [h] at hstep
      cases hstep
      have hdone := inv.handleReaderDone (List.mem_of_getElem? h)
      have hsame : (nat.handleReaderDone notification.1 notification.2).done = nat.done := by
        unfold QuicNatState.handleReaderDone Lru.pop
        cases nat.peers.lookup notification.1 with
        | none => rfl
        | some entry =>
          dsimp only
          split <;> rfl
      refine { hdone with finished := ?_ }
      intro peer token hmem
      refine hdone.finished peer token ?_
      rw [hsame]
      exact List.mem_of_mem_eraseIdx hmem
  | sweepIdle now idleTimeout =>
    cases hstep
    exact inv.sweepIdle now idleTimeout

end Owned

theorem Reachable.owned {capacity : Nat} {positive : 0 < capacity} {nat : QuicNatState}
    (reach : Reachable Fits capacity positive nat) : Owned capacity nat := by
  induction reach with
  | new => exact .new positive
  | step _ hfits hstep ih => exact ih.step hfits hstep

theorem Owned.liveSockets_le {capacity : Nat} {nat : QuicNatState} (inv : Owned capacity nat) :
    nat.liveSockets.length ≤ capacity := by
  have hsub : nat.liveSockets ⊆ nat.peers.entries.map (·.2.task) := by
    intro t ht
    obtain ⟨-, hlive⟩ := List.mem_filter.mp ht
    rcases Bool.or_eq_true_iff.mp hlive with hrunning | hentry
    · unfold isRunning at hrunning
      cases h : nat.readers[t]? with
      | none => simp [h] at hrunning
      | some reader =>
        obtain ⟨entry, hentry, htask⟩ := inv.owned _ _ h (by simpa [h] using hrunning)
        exact List.mem_map.mpr ⟨_, Lru.lookup_eq_some.mp hentry, htask⟩
    · obtain ⟨entry, hentry, htask⟩ := List.any_eq_true.mp hentry
      exact List.mem_map.mpr ⟨entry, hentry, by simpa using htask⟩
  have hnodup : nat.liveSockets.Nodup := List.nodup_range.filter _
  calc nat.liveSockets.length
      ≤ (nat.peers.entries.map (·.2.task)).length := (List.subperm_of_subset hnodup hsub).length_le
    _ = nat.peers.entries.length := List.length_map _
    _ ≤ capacity := inv.capacity ▸ nat.peers.bounded

theorem liveReaders_le (nat : QuicNatState) : nat.liveReaders.length ≤ nat.liveSockets.length := by
  refine (List.monotone_filter_right _ ?_).length_le
  intro t h
  simp [h]

end QuicNatState

open QuicNatState

theorem nat_reader_ownership {capacity : Nat} {positive : 0 < capacity} {nat : QuicNatState}
    (reach : QuicNatState.Reachable Fits capacity positive nat) :
    -- A running reader is that of an entry, with the entry's token.
    (∀ (t : Nat) (reader : UpstreamReader), nat.readers[t]? = some reader →
      reader.state = .running →
      ∃ entry, nat.peers.lookup reader.peer = some entry ∧ entry.task = t ∧
        entry.token = reader.token) ∧
    nat.liveReaders.length ≤ capacity ∧ nat.liveSockets.length ≤ capacity ∧
    (∀ (t t' : Nat) (reader reader' : UpstreamReader), nat.readers[t]? = some reader →
      nat.readers[t']? = some reader' → reader.state = .running → reader'.state = .running →
      reader.peer = reader'.peer → t = t') ∧
    -- The notification of a reader leaves the entry of another reader alone.
    (∀ (t : Nat) (reader : UpstreamReader) entry, nat.readers[t]? = some reader →
      nat.peers.lookup reader.peer = some entry → entry.task ≠ t →
      (nat.handleReaderDone reader.peer reader.token).peers.lookup reader.peer = some entry) := by
  have inv := reach.owned
  refine ⟨?_, nat.liveReaders_le.trans inv.liveSockets_le, inv.liveSockets_le, ?_, ?_⟩
  · intro t reader hreader hrunning
    obtain ⟨entry, hentry, htask⟩ := inv.owned _ _ hreader hrunning
    obtain ⟨own, hown, -, htoken⟩ := inv.entry _ _ hentry
    rw [htask, hreader] at hown
    cases hown
    exact ⟨entry, hentry, htask, htoken.symm⟩
  · intro t t' reader reader' hreader hreader' hrunning hrunning' hpeer
    obtain ⟨entry, hentry, rfl⟩ := inv.owned _ _ hreader hrunning
    obtain ⟨entry', hentry', rfl⟩ := inv.owned _ _ hreader' hrunning'
    rw [hpeer, hentry'] at hentry
    cases hentry
    rfl
  · intro t reader entry hreader hentry hne
    have htoken : entry.token ≠ reader.token := by
      intro hsame
      obtain ⟨own, hown, -, howntoken⟩ := inv.entry _ _ hentry
      exact hne (inv.same_reader hown hreader (howntoken.trans hsame))
    simp only [QuicNatState.handleReaderDone, Lru.pop, hentry, if_neg htoken]
    exact Lru.lookup_put_self

def localPeer (port : Nat) : SocketAddr := ⟨[127, 0, 0, 1], port⟩

/-- One datagram each of so many peers, with so many places in the cache. -/
def natOfPeers (capacity : Nat) (positive : 0 < capacity) : List Nat → QuicNatState
  | [] => .new capacity positive
  | port :: ports =>
    ((natOfPeers capacity positive ports).getOrCreateUpstream (localPeer port) 0 true).2

/-- A peer is swept and comes back; its first reader ends after that, and the
notification of it is still under way. -/
theorem nat_reader_ownership_returning :
    ∃ nat, QuicNatState.Reachable Fits 2 (by decide) nat ∧
      nat.done = [(localPeer 12345, 0)] ∧ nat.liveReaders = [1, 2] ∧ nat.liveSockets.length ≤ 2 ∧
      (nat.handleReaderDone (localPeer 12345) 0).peers.lookup (localPeer 12345) =
        some ⟨11, 2, 2⟩ := by
  have reach : QuicNatState.Reachable Fits 2 (by decide) _ := .new
  have reach := reach.step (e := .datagram (localPeer 12345) 0 true) (by intro _ _; decide) rfl
  have reach := reach.step (e := .datagram (localPeer 12346) 5 true) (by intro _ _; decide) rfl
  have reach := reach.step (e := .sweepIdle 10 8) trivial rfl
  have reach := reach.step (e := .datagram (localPeer 12345) 11 true) (by intro _ _; decide) rfl
  have reach := reach.step (e := .readerFinished 0) trivial rfl
  have owned := nat_reader_ownership reach
  exact ⟨_, reach, by decide, by decide, owned.2.2.1,
    owned.2.2.2.2 0 ⟨localPeer 12345, 0, .finished⟩ ⟨11, 2, 2⟩ rfl rfl (by decide)⟩

/-- A second peer in a cache of one place: the entry of the first is dropped,
and its reader runs on without an owner. -/
theorem nat_reader_orphaned :
    QuicNatState.Reachable (fun _ _ => True) 1 (by decide) (natOfPeers 1 (by decide) [12346, 12345]) ∧
      (natOfPeers 1 (by decide) [12346, 12345]).readers[0]? =
        some ⟨localPeer 12345, 0, .running⟩ ∧
      (natOfPeers 1 (by decide) [12346, 12345]).peers.lookup (localPeer 12345) = none ∧
      (natOfPeers 1 (by decide) [12346, 12345]).liveReaders = [0, 1] := by
  refine ⟨?_, by decide, by decide, by decide⟩
  have first : QuicNatState.Reachable (fun _ _ => True) 1 (by decide)
      (natOfPeers 1 (by decide) [12345]) :=
    .step (e := .datagram (localPeer 12345) 0 true) .new trivial rfl
  exact .step (e := .datagram (localPeer 12346) 0 true) first trivial rfl

end Slt.Server
