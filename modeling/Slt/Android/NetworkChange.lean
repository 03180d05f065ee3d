import Slt.Lib.Machine

/-!
# Changes of the underlying network

The watcher follows the network that Android selects and asks for a reconnect when
the selection has settled on another network than the one in use. It runs on the
main looper: callbacks, runnables and the calls of the service are steps of one
thread. A change posts a runnable, and the next change removes it; each change has
a generation, and a runnable does nothing unless its generation is the last one.

Removing a runnable is not relied on here: a runnable of a reconnect may run at
any time, also late and more than once.
-/

namespace Slt.Android

open Lib

inductive UnderlyingNetworkEvent (K : Type) where
  | selected (network : K)
  | lost (network : K)
  | primingComplete
  deriving DecidableEq, Repr

structure UnderlyingNetworkState (K : Type) where
  current : Option K
  reconnectBaseline : Option K
  primed : Bool
  deriving DecidableEq, Repr

structure UnderlyingNetworkTransition (K : Type) where
  state : UnderlyingNetworkState K
  networkChanged : Bool
  publishImmediately : Bool
  reconnect : Bool
  deriving DecidableEq, Repr

inductive ReconnectDebounceAction where
  | schedule (generation : Nat)
  | cancel (generation : Nat)
  deriving DecidableEq, Repr

structure NetworkChangeAction (K : Type) where
  underlyingNetwork : Option K
  publishImmediately : Bool
  debounceAction : Option ReconnectDebounceAction
  deriving DecidableEq, Repr

/-- A runnable of a reconnect is told from others by its generation. -/
inductive Runnable where
  | primingComplete
  | reconnect (generation : Nat)
  | initialSelectionReady
  deriving DecidableEq, Repr

def Runnable.isReconnect : Runnable → Bool
  | .reconnect _ => true
  | _ => false

inductive WatcherEffect (K : Type) where
  | onInitialUnderlyingNetworkChanged (network : Option K)
  | onInitialSelectionReady (network : Option K)
  | onReconnect (network : Option K)
  deriving DecidableEq, Repr

structure NetworkChangeWatcher (K : Type) where
  initialNetwork : Option K
  connectivityManager : Bool
  registered : Bool
  pendingReconnectRunnable : Option Nat
  reconnectGeneration : Nat
  state : UnderlyingNetworkState K
  queue : List Runnable
  deriving DecidableEq, Repr

variable {K : Type}

def UnderlyingNetworkEvent.current [DecidableEq K] (event : UnderlyingNetworkEvent K)
    (state : UnderlyingNetworkState K) : Option K :=
  match event with
  | .selected network => some network
  | .lost network => if some network = state.current then none else state.current
  | .primingComplete => state.current

def applyUnderlyingNetworkEvent [DecidableEq K] (event : UnderlyingNetworkEvent K)
    (state : UnderlyingNetworkState K) : UnderlyingNetworkTransition K :=
  let current := event.current state
  if !state.primed then
    { state :=
        { current, reconnectBaseline := current, primed := event = .primingComplete }
      networkChanged := current ≠ state.current
      publishImmediately := current ≠ state.current
      reconnect := false }
  else if event = .primingComplete ∨ current = state.current then
    { state, networkChanged := false, publishImmediately := false, reconnect := false }
  else
    { state := { state with current }
      networkChanged := true
      publishImmediately := false
      reconnect := current ≠ state.reconnectBaseline }

namespace NetworkChangeWatcher

abbrev Outcome (K : Type) := NetworkChangeWatcher K × List (WatcherEffect K)

def new (initialNetwork : Option K) (connectivityManager : Bool) : NetworkChangeWatcher K where
  initialNetwork := initialNetwork
  connectivityManager := connectivityManager
  registered := false
  pendingReconnectRunnable := none
  reconnectGeneration := 0
  state := ⟨initialNetwork, initialNetwork, false⟩
  queue := []

/-! ## The handler -/

def post (w : NetworkChangeWatcher K) (r : Runnable) : NetworkChangeWatcher K :=
  { w with queue := w.queue ++ [r] }

def removeCallbacks (w : NetworkChangeWatcher K) (r : Runnable) : NetworkChangeWatcher K :=
  { w with queue := w.queue.filter (· ≠ r) }

/-- Without the runnable that was pending, if there was one. -/
def removePrevious (w : NetworkChangeWatcher K) (previous : Option Nat) : NetworkChangeWatcher K :=
  { w with queue := w.queue.filter fun r => previous.map .reconnect ≠ some r }

/-! ## The watcher -/

def start (w : NetworkChangeWatcher K) (refused : Bool) : NetworkChangeWatcher K :=
  if w.registered then w
  else
    let w := { w with
      state := ⟨w.initialNetwork, w.initialNetwork, false⟩
      pendingReconnectRunnable := none
      reconnectGeneration := w.reconnectGeneration + 1 }
    if !w.connectivityManager then w.post .initialSelectionReady
    else if refused then w.post .initialSelectionReady
    else (removeCallbacks { w with registered := true } .primingComplete).post .primingComplete

/-- An error when the callback is unregistered is only logged. -/
def stop (w : NetworkChangeWatcher K) : NetworkChangeWatcher K :=
  { (w.removePrevious w.pendingReconnectRunnable).removeCallbacks .primingComplete with
    pendingReconnectRunnable := none
    reconnectGeneration := w.reconnectGeneration + 1
    state := ⟨none, none, false⟩
    registered := false }

def cancelReconnect (w : NetworkChangeWatcher K) (generation : Nat) : NetworkChangeWatcher K :=
  if generation = w.reconnectGeneration then
    removePrevious { w with pendingReconnectRunnable := none } w.pendingReconnectRunnable
  else w

def scheduleReconnect (w : NetworkChangeWatcher K) (generation : Nat) : NetworkChangeWatcher K :=
  if w.registered ∧ generation = w.reconnectGeneration then
    (removePrevious { w with pendingReconnectRunnable := some generation }
      w.pendingReconnectRunnable).post (.reconnect generation)
  else w

section Events

variable [DecidableEq K]

def applyEvent (w : NetworkChangeWatcher K) (event : UnderlyingNetworkEvent K) :
    NetworkChangeWatcher K × NetworkChangeAction K :=
  let result := applyUnderlyingNetworkEvent event w.state
  let w := { w with state := result.state }
  if result.networkChanged && result.state.primed then
    let generation := w.reconnectGeneration + 1
    ({ w with reconnectGeneration := generation },
      ⟨result.state.current, result.publishImmediately,
        some (if result.reconnect then .schedule generation else .cancel generation)⟩)
  else (w, ⟨result.state.current, result.publishImmediately, none⟩)

def handleEvent (w : NetworkChangeWatcher K) (event : UnderlyingNetworkEvent K) : Outcome K :=
  let (w, action) := w.applyEvent event
  (match action.debounceAction with
    | some (.schedule generation) => w.scheduleReconnect generation
    | some (.cancel generation) => w.cancelReconnect generation
    | none => w,
    if action.publishImmediately then [.onInitialUnderlyingNetworkChanged action.underlyingNetwork]
    else [])

def primingCompleteRunnable (w : NetworkChangeWatcher K) : Outcome K :=
  let (w, out) := w.handleEvent .primingComplete
  (w, out ++ [.onInitialSelectionReady w.state.current])

def fireReconnect (w : NetworkChangeWatcher K) (generation : Nat) : Outcome K :=
  if w.registered ∧ generation = w.reconnectGeneration then
    let w := { w with pendingReconnectRunnable := none }
    if w.state.current ≠ w.state.reconnectBaseline then
      ({ w with state := { w.state with reconnectBaseline := w.state.current } },
        [.onReconnect w.state.current])
    else (w, [])
  else (w, [])

/-! ## Steps of the main looper -/

inductive Step (K : Type) where
  | onAvailable (network : K)
  | onLost (network : K)
  | run (r : Runnable)
  | start (refused : Bool)
  | stop
  deriving DecidableEq, Repr

def runRunnable (w : NetworkChangeWatcher K) : Runnable → Outcome K
  | .primingComplete => w.primingCompleteRunnable
  | .reconnect generation => w.fireReconnect generation
  | .initialSelectionReady => (w, [.onInitialSelectionReady w.initialNetwork])

def step (w : NetworkChangeWatcher K) : Step K → Outcome K
  | .onAvailable network => w.handleEvent (.selected network)
  | .onLost network => w.handleEvent (.lost network)
  | .run r => runRunnable { w with queue := w.queue.erase r } r
  | .start refused => (w.start refused, [])
  | .stop => (w.stop, [])

/-- Callbacks may come late as well, after the watcher has been stopped. -/
def Enabled (w : NetworkChangeWatcher K) : Step K → Prop
  | .run (.reconnect _) => True
  | .run r => r ∈ w.queue
  | _ => True

instance (w : NetworkChangeWatcher K) (move : Step K) : Decidable (w.Enabled move) := by
  rcases move with _ | _ | r | _ | _
  case run => cases r <;> unfold Enabled <;> infer_instance
  all_goals unfold Enabled; infer_instance

def looper : Machine (NetworkChangeWatcher K) (Step K) (WatcherEffect K) := ⟨step, Enabled⟩

instance (w : NetworkChangeWatcher K) (move : Step K) : Decidable (looper.Enabled w move) :=
  inferInstanceAs (Decidable (w.Enabled move))

/-! ## What an event does -/

section Transition

variable {event : UnderlyingNetworkEvent K} {state : UnderlyingNetworkState K}

theorem apply_unprimed (h : state.primed = false) :
    applyUnderlyingNetworkEvent event state =
      { state :=
          ⟨event.current state, event.current state, decide (event = .primingComplete)⟩
        networkChanged := event.current state ≠ state.current
        publishImmediately := event.current state ≠ state.current
        reconnect := false } := by
  simp only [applyUnderlyingNetworkEvent, h, Bool.not_false, if_true]

theorem apply_same (h : state.primed = true) (hsame : event.current state = state.current) :
    applyUnderlyingNetworkEvent event state = ⟨state, false, false, false⟩ := by
  simp only [applyUnderlyingNetworkEvent, h, hsame, Bool.not_true, Bool.false_eq_true, if_false,
    or_true, if_true]

theorem apply_changed (h : state.primed = true) (hchanged : event.current state ≠ state.current) :
    applyUnderlyingNetworkEvent event state =
      ⟨{ state with current := event.current state }, true, false,
        decide (event.current state ≠ state.reconnectBaseline)⟩ := by
  have hevent : event ≠ .primingComplete := by
    rintro rfl
    exact hchanged rfl
  simp only [applyUnderlyingNetworkEvent, h, hchanged, hevent, Bool.not_true, Bool.false_eq_true,
    if_false, or_false]

end Transition

variable {w : NetworkChangeWatcher K} {event : UnderlyingNetworkEvent K}

/-- Before the priming is complete, the baseline is the current network. -/
theorem handleEvent_unprimed (h : w.state.primed = false) :
    w.handleEvent event =
      ({ w with state :=
          ⟨event.current w.state, event.current w.state, decide (event = .primingComplete)⟩ },
        if event.current w.state ≠ w.state.current then
          [.onInitialUnderlyingNetworkChanged (event.current w.state)] else []) := by
  have hquiet : ¬(event.current w.state ≠ w.state.current ∧ event = .primingComplete) := by
    rintro ⟨hchanged, rfl⟩
    exact hchanged rfl
  simp only [handleEvent, applyEvent, apply_unprimed h, Bool.and_eq_true, decide_eq_true_eq,
    if_neg hquiet]

theorem handleEvent_same (h : w.state.primed = true)
    (hsame : event.current w.state = w.state.current) : w.handleEvent event = (w, []) := by
  simp only [handleEvent, applyEvent, apply_same h hsame, Bool.false_and, Bool.false_eq_true,
    if_false]

theorem handleEvent_away (h : w.state.primed = true) (hregistered : w.registered = true)
    (hchanged : event.current w.state ≠ w.state.current)
    (haway : event.current w.state ≠ w.state.reconnectBaseline) :
    w.handleEvent event =
      ({ w with
          state := { w.state with current := event.current w.state }
          reconnectGeneration := w.reconnectGeneration + 1
          pendingReconnectRunnable := some (w.reconnectGeneration + 1)
          queue := (w.removePrevious w.pendingReconnectRunnable).queue ++
            [.reconnect (w.reconnectGeneration + 1)] }, []) := by
  simp only [handleEvent, applyEvent, apply_changed h hchanged, h, haway, Bool.and_self, if_true,
    ne_eq, not_false_eq_true, decide_true, scheduleReconnect, hregistered, and_self,
    Bool.false_eq_true, if_false]
  rfl

theorem handleEvent_back (h : w.state.primed = true)
    (hchanged : event.current w.state ≠ w.state.current)
    (hback : event.current w.state = w.state.reconnectBaseline) :
    w.handleEvent event =
      ({ w with
          state := { w.state with current := event.current w.state }
          reconnectGeneration := w.reconnectGeneration + 1
          pendingReconnectRunnable := none
          queue := (w.removePrevious w.pendingReconnectRunnable).queue }, []) := by
  simp only [handleEvent, applyEvent, apply_changed h hchanged, h, hback, Bool.and_self, if_true,
    ne_eq, not_true_eq_false, decide_false, cancelReconnect, Bool.false_eq_true, if_false]
  rfl

/-! ## What a runnable does -/

theorem step_priming (h : w.state.primed = false) :
    w.step (.run .primingComplete) =
      ({ w with
          queue := w.queue.erase .primingComplete
          state := ⟨w.state.current, w.state.current, true⟩ },
        [.onInitialSelectionReady w.state.current]) := by
  have hevent := @handleEvent_unprimed K _ { w with queue := w.queue.erase .primingComplete }
    .primingComplete h
  simp only [step, runRunnable, primingCompleteRunnable, hevent, UnderlyingNetworkEvent.current,
    ne_eq, not_true_eq_false, if_false, List.nil_append, decide_true]

variable {generation : Nat}

/-- A runnable of the last generation makes the network the baseline. -/
theorem step_reconnect (h : w.registered = true ∧ generation = w.reconnectGeneration) :
    w.step (.run (.reconnect generation)) =
      ({ w with
          queue := w.queue.erase (.reconnect generation)
          pendingReconnectRunnable := none
          state := { w.state with reconnectBaseline := w.state.current } },
        if w.state.current ≠ w.state.reconnectBaseline then [.onReconnect w.state.current]
        else []) := by
  simp only [step, runRunnable, fireReconnect, if_pos h]
  by_cases hchanged : w.state.current ≠ w.state.reconnectBaseline
  · rw [if_pos hchanged, if_pos hchanged]
  · have hsettled : w.state = { w.state with reconnectBaseline := w.state.current } := by
      rw [not_not.mp hchanged]
    rw [if_neg hchanged, if_neg hchanged, ← hsettled]

theorem step_stale (h : ¬(w.registered = true ∧ generation = w.reconnectGeneration)) :
    w.step (.run (.reconnect generation)) =
      ({ w with queue := w.queue.erase (.reconnect generation) }, []) := by
  simp only [step, runRunnable, fireReconnect, if_neg h]

end Events

/-! ## What every step keeps -/

/-- Of the runnables of reconnects only the pending one is posted, and it is not
stale. It is there whenever the network is not the baseline. -/
structure Inv (w : NetworkChangeWatcher K) : Prop where
  posted : w.queue.filter Runnable.isReconnect =
    (w.pendingReconnectRunnable.map .reconnect).toList
  live : ∀ generation, w.pendingReconnectRunnable = some generation →
    w.registered = true ∧ generation = w.reconnectGeneration
  priming : w.queue.count .primingComplete =
    if w.registered = true ∧ w.state.primed = false then 1 else 0
  primed : w.state.primed = true → w.registered = true
  unprimed : w.state.primed = false → w.state.current = w.state.reconnectBaseline
  covered : w.state.current ≠ w.state.reconnectBaseline → w.pendingReconnectRunnable.isSome = true

variable {w : NetworkChangeWatcher K}

theorem inv_new (initialNetwork : Option K) (connectivityManager : Bool) :
    (new initialNetwork connectivityManager).Inv where
  posted := rfl
  live _ h := by cases h
  priming := rfl
  primed h := by cases h
  unprimed _ := rfl
  covered h := absurd rfl h

theorem Inv.posted_iff (h : w.Inv) {generation : Nat} :
    .reconnect generation ∈ w.queue ↔ w.pendingReconnectRunnable = some generation := by
  have hposted : .reconnect generation ∈ w.queue.filter Runnable.isReconnect ↔
      .reconnect generation ∈ w.queue := by simp [Runnable.isReconnect]
  rw [← hposted, h.posted, Option.mem_toList, Option.map_eq_some_iff]
  constructor
  · rintro ⟨generation', hpending, heq⟩
    rwa [← Runnable.reconnect.inj heq]
  · exact fun hpending => ⟨generation, hpending, rfl⟩

def isLive (w : NetworkChangeWatcher K) : Runnable → Bool
  | .reconnect generation => w.registered && generation == w.reconnectGeneration
  | _ => false

theorem Inv.live_le_one (h : w.Inv) : (w.queue.filter w.isLive).length ≤ 1 := by
  have hsub : (w.queue.filter w.isLive).length ≤ (w.queue.filter Runnable.isReconnect).length := by
    rw [← List.countP_eq_length_filter, ← List.countP_eq_length_filter]
    refine List.countP_mono_left fun r _ hlive => ?_
    cases r with
    | reconnect generation => rfl
    | _ => cases hlive
  rw [h.posted] at hsub
  cases hpending : w.pendingReconnectRunnable with
  | none =>
    rw [hpending] at hsub
    exact Nat.le_trans hsub (Nat.zero_le 1)
  | some generation =>
    rw [hpending] at hsub
    exact hsub

theorem Inv.removed (h : w.Inv) :
    (w.removePrevious w.pendingReconnectRunnable).queue.filter Runnable.isReconnect = [] := by
  rw [removePrevious, List.filter_filter, List.filter_eq_nil_iff]
  intro r hr hkept
  cases r with
  | reconnect generation => simp [h.posted_iff.mp hr] at hkept
  | _ => simp [Runnable.isReconnect] at hkept

theorem count_removePrevious (previous : Option Nat) :
    (w.removePrevious previous).queue.count .primingComplete =
      w.queue.count .primingComplete := by
  refine List.count_filter ?_
  cases previous <;> rfl

theorem removed_posted {queue : List Runnable} (h : queue.filter Runnable.isReconnect = []) :
    (queue.filter (· ≠ .primingComplete)).filter Runnable.isReconnect = [] := by
  rw [List.filter_eq_nil_iff] at h ⊢
  exact fun r hr => h r (List.mem_filter.mp hr).1

theorem erased_posted {queue : List Runnable} {r : Runnable} (hr : r.isReconnect = false) :
    (queue.erase r).filter Runnable.isReconnect = queue.filter Runnable.isReconnect := by
  rw [← List.erase_filter, List.erase_of_not_mem (by simp [hr])]

theorem removed_priming (queue : List Runnable) :
    (queue.filter (· ≠ .primingComplete)).count .primingComplete = 0 := by
  rw [List.count_eq_zero]
  simp

theorem Inv.of_priming (h : w.Inv) (hposted : .primingComplete ∈ w.queue) :
    w.registered = true ∧ w.state.primed = false ∧ w.queue.count .primingComplete = 1 := by
  have hpos := List.count_pos_iff.mpr hposted
  rw [h.priming] at hpos
  by_cases hwaits : w.registered = true ∧ w.state.primed = false
  · exact ⟨hwaits.1, hwaits.2, h.priming.trans (if_pos hwaits)⟩
  · rw [if_neg hwaits] at hpos
    exact absurd hpos (Nat.lt_irrefl 0)

/-- A watch begins on the initial network. Whether the manager is missing or refuses,
the same runnable is posted. -/
theorem start_cases (w : NetworkChangeWatcher K) (refused : Bool) :
    w.start refused = w ∨
      w.registered = false ∧ ∃ registered queue,
        w.start refused = { w with
          registered, queue
          state := ⟨w.initialNetwork, w.initialNetwork, false⟩
          pendingReconnectRunnable := none
          reconnectGeneration := w.reconnectGeneration + 1 } ∧
        (registered = false ∧ queue = w.queue ++ [.initialSelectionReady] ∨
          registered = true ∧
            queue = w.queue.filter (· ≠ .primingComplete) ++ [.primingComplete]) := by
  by_cases hregistered : w.registered = true
  · exact .inl (if_pos hregistered)
  rw [Bool.not_eq_true] at hregistered
  refine .inr ⟨hregistered, ?_⟩
  simp only [start, hregistered, Bool.false_eq_true, if_false]
  by_cases hmanager : (!w.connectivityManager) = true
  · rw [if_pos hmanager]
    exact ⟨false, _, rfl, .inl ⟨rfl, rfl⟩⟩
  rw [if_neg hmanager]
  by_cases hrefused : refused = true
  · rw [if_pos hrefused]
    exact ⟨false, _, rfl, .inl ⟨rfl, rfl⟩⟩
  · rw [if_neg hrefused]
    exact ⟨true, _, rfl, .inr ⟨rfl, rfl⟩⟩

theorem Inv.start (h : w.Inv) (refused : Bool) : (w.start refused).Inv := by
  obtain heq | ⟨hregistered, registered, queue, heq, hqueue⟩ := start_cases w refused
  · rwa [heq]
  have hpending : w.pendingReconnectRunnable = none := by
    rw [Option.eq_none_iff_forall_ne_some]
    intro generation hsome
    have hlive := (h.live generation hsome).1
    rw [hregistered] at hlive
    cases hlive
  have hnone : w.queue.filter Runnable.isReconnect = [] := by
    rw [h.posted, hpending]
    rfl
  have hpriming : w.queue.count .primingComplete = 0 := by
    rw [h.priming, hregistered]
    rfl
  rw [heq]
  obtain ⟨rfl, rfl⟩ | ⟨rfl, rfl⟩ := hqueue
  · refine ⟨?_, (fun _ hsome => by cases hsome), ?_, (fun hfalse => by cases hfalse), fun _ => rfl,
      fun hne => absurd rfl hne⟩
    · rw [List.filter_append, hnone]
      rfl
    · rw [List.count_append, hpriming]
      rfl
  · refine ⟨?_, (fun _ hsome => by cases hsome), ?_, fun _ => rfl, fun _ => rfl,
      fun hne => absurd rfl hne⟩
    · rw [List.filter_append, removed_posted hnone]
      rfl
    · rw [List.count_append, removed_priming]
      rfl

theorem Inv.stop (h : w.Inv) : w.stop.Inv where
  posted := removed_posted h.removed
  live _ h := by cases h
  priming := removed_priming _
  primed h := by cases h
  unprimed _ := rfl
  covered hne := absurd rfl hne

variable [DecidableEq K]

theorem Inv.handleEvent (h : w.Inv) {event : UnderlyingNetworkEvent K}
    (hevent : event ≠ .primingComplete) : (w.handleEvent event).1.Inv := by
  cases hprimed : w.state.primed with
  | false =>
    rw [handleEvent_unprimed hprimed, decide_eq_false hevent]
    have hpriming := h.priming
    rw [hprimed] at hpriming
    exact ⟨h.posted, h.live, hpriming, (fun hfalse => by cases hfalse), fun _ => rfl,
      fun hne => absurd rfl hne⟩
  | true =>
    by_cases hsame : event.current w.state = w.state.current
    · rwa [handleEvent_same hprimed hsame]
    have hpriming := (count_removePrevious w.pendingReconnectRunnable).trans h.priming
    by_cases hback : event.current w.state = w.state.reconnectBaseline
    · rw [handleEvent_back hprimed hsame hback]
      exact ⟨h.removed, (fun _ hsome => by cases hsome), hpriming, h.primed,
        (fun hfalse => by cases hprimed.symm.trans hfalse), fun hne => absurd hback hne⟩
    · have hregistered := h.primed hprimed
      rw [handleEvent_away hprimed hregistered hsame hback]
      refine ⟨?_, ?_, ?_, h.primed, (fun hfalse => by cases hprimed.symm.trans hfalse),
        fun _ => rfl⟩
      · rw [List.filter_append, h.removed]
        rfl
      · rintro generation hpending
        exact ⟨hregistered, (Option.some.inj hpending).symm⟩
      · rw [List.count_append, hpriming]
        simp

theorem Inv.run_priming (h : w.Inv) (hposted : .primingComplete ∈ w.queue) :
    (w.step (.run .primingComplete)).1.Inv := by
  obtain ⟨hregistered, hprimed, hcount⟩ := h.of_priming hposted
  rw [step_priming hprimed]
  refine ⟨?_, h.live, ?_, fun _ => hregistered, (fun hfalse => by cases hfalse),
    fun hne => absurd rfl hne⟩
  · exact (erased_posted rfl).trans h.posted
  · simp [List.count_erase_self, hcount]

theorem Inv.run_reconnect (h : w.Inv) (generation : Nat) :
    (w.step (.run (.reconnect generation))).1.Inv := by
  have hpriming : (w.queue.erase (.reconnect generation)).count .primingComplete =
      w.queue.count .primingComplete := List.count_erase_of_ne (by simp)
  by_cases hlive : w.registered = true ∧ generation = w.reconnectGeneration
  · have hnone : (w.queue.erase (.reconnect generation)).filter Runnable.isReconnect = [] := by
      rw [← List.erase_filter, h.posted]
      cases hpending : w.pendingReconnectRunnable with
      | none => rfl
      | some pending =>
        have hsame : pending = generation := (h.live pending hpending).2.trans hlive.2.symm
        simp [hsame]
    rw [step_reconnect hlive]
    exact ⟨hnone, (fun _ hsome => by cases hsome), hpriming.trans h.priming, h.primed,
      fun _ => rfl, fun hne => absurd rfl hne⟩
  · have hstale : .reconnect generation ∉ w.queue := fun hin =>
      hlive (h.live generation (h.posted_iff.mp hin))
    rw [step_stale hlive, List.erase_of_not_mem hstale]
    exact h

theorem Inv.step (h : w.Inv) {move : Step K} (henabled : w.Enabled move) : (w.step move).1.Inv := by
  rcases move with network | network | r | refused | _
  case onAvailable => exact h.handleEvent (by simp)
  case onLost => exact h.handleEvent (by simp)
  case start => exact h.start refused
  case stop => exact h.stop
  case run =>
    cases r with
    | primingComplete => exact h.run_priming henabled
    | reconnect generation => exact h.run_reconnect generation
    | initialSelectionReady =>
      refine ⟨?_, h.live, ?_, h.primed, h.unprimed, h.covered⟩
      · exact (erased_posted rfl).trans h.posted
      · exact (List.count_erase_of_ne (by simp)).trans h.priming

/-! ## Reconnects -/

section Reconnects

variable {event : UnderlyingNetworkEvent K} {move : Step K} {network : Option K}

/-- An event changes the network state as the transition says, and the generation
does not go back. -/
structure Handled (w : NetworkChangeWatcher K) (event : UnderlyingNetworkEvent K)
    (w' : NetworkChangeWatcher K) : Prop where
  registered : w'.registered = w.registered
  generation : w.reconnectGeneration ≤ w'.reconnectGeneration
  state : w'.state = (applyUnderlyingNetworkEvent event w.state).state

theorem handled (w : NetworkChangeWatcher K) : Handled w event (w.handleEvent event).1 := by
  simp only [NetworkChangeWatcher.handleEvent, applyEvent]
  by_cases hchanged : ((applyUnderlyingNetworkEvent event w.state).networkChanged &&
      (applyUnderlyingNetworkEvent event w.state).state.primed) = true
  · rw [if_pos hchanged]
    cases (applyUnderlyingNetworkEvent event w.state).reconnect with
    | true =>
      simp only [if_true, scheduleReconnect]
      split <;> exact ⟨rfl, Nat.le_succ _, rfl⟩
    | false =>
      simp only [Bool.false_eq_true, if_false, cancelReconnect, if_true]
      exact ⟨rfl, Nat.le_succ _, rfl⟩
  · rw [if_neg hchanged]
    exact ⟨rfl, Nat.le_refl _, rfl⟩

theorem onReconnect_not_mem_handleEvent : .onReconnect network ∉ (w.handleEvent event).2 := by
  simp only [NetworkChangeWatcher.handleEvent]
  split <;> simp

theorem of_onReconnect (h : .onReconnect network ∈ (w.step move).2) :
    move = .run (.reconnect w.reconnectGeneration) ∧ w.registered = true ∧
      w.state.current ≠ w.state.reconnectBaseline ∧ network = w.state.current ∧
      (w.step move).1.state = { w.state with reconnectBaseline := network } ∧
      (w.step move).2 = [.onReconnect network] := by
  rcases move with _ | _ | r | _ | _
  case onAvailable => exact absurd h onReconnect_not_mem_handleEvent
  case onLost => exact absurd h onReconnect_not_mem_handleEvent
  case start => cases h
  case stop => cases h
  case run =>
    cases r with
    | initialSelectionReady => simp [NetworkChangeWatcher.step, runRunnable] at h
    | primingComplete =>
      simp only [NetworkChangeWatcher.step, runRunnable, primingCompleteRunnable,
        List.mem_append, List.mem_singleton, reduceCtorEq, or_false] at h
      exact absurd h onReconnect_not_mem_handleEvent
    | reconnect generation =>
      by_cases hlive : w.registered = true ∧ generation = w.reconnectGeneration
      · rw [step_reconnect hlive] at h ⊢
        by_cases hchanged : w.state.current ≠ w.state.reconnectBaseline
        · rw [if_pos hchanged, List.mem_singleton] at h
          obtain rfl := WatcherEffect.onReconnect.inj h
          exact ⟨by rw [hlive.2], hlive.1, hchanged, rfl, rfl, if_pos hchanged⟩
        · rw [if_neg hchanged] at h
          cases h
      · rw [step_stale hlive] at h
        cases h

/-! ## Generations only grow -/

theorem step_generation (w : NetworkChangeWatcher K) (move : Step K) :
    w.reconnectGeneration ≤ (w.step move).1.reconnectGeneration := by
  rcases move with _ | _ | r | refused | _
  case onAvailable => exact (handled _).generation
  case onLost => exact (handled _).generation
  case stop => exact Nat.le_succ _
  case start =>
    rw [NetworkChangeWatcher.step]
    obtain heq | ⟨-, _, _, heq, -⟩ := start_cases w refused
    · simp only [heq, Nat.le_refl]
    · rw [heq]
      exact Nat.le_succ _
  case run =>
    cases r with
    | initialSelectionReady => exact Nat.le_refl _
    | primingComplete =>
      exact (handled { w with queue := w.queue.erase .primingComplete }).generation
    | reconnect generation =>
      by_cases hlive : w.registered = true ∧ generation = w.reconnectGeneration
      · simp only [step_reconnect hlive, Nat.le_refl]
      · simp only [step_stale hlive, Nat.le_refl]

theorem stale_run {generation : Nat} (h : generation < w.reconnectGeneration)
    (moves : List (Step K)) (network : Option K) :
    .onReconnect network ∉
      ((looper.run w moves).1.step (.run (.reconnect generation))).2 := by
  intro hreport
  obtain ⟨hmove, -⟩ := of_onReconnect hreport
  have hlive := Runnable.reconnect.inj (Step.run.inj hmove)
  have hgrows : w.reconnectGeneration ≤ (looper.run w moves).1.reconnectGeneration :=
    Machine.run_monotone (f := reconnectGeneration) step_generation moves w
  omega

/-! ## Settled, and stopped -/

def Step.isNetwork : Step K → Bool
  | .onAvailable _ | .onLost _ => true
  | _ => false

def Step.isStart : Step K → Bool
  | .start _ => true
  | _ => false

/-- The network in use is the one that is selected. -/
def Settled (w : NetworkChangeWatcher K) : Prop := w.state.current = w.state.reconnectBaseline

theorem Settled.priming {w : NetworkChangeWatcher K} (h : w.Settled) :
    (w.handleEvent .primingComplete).1.Settled := by
  cases hprimed : w.state.primed with
  | false =>
    rw [handleEvent_unprimed hprimed]
    exact rfl
  | true => rwa [handleEvent_same hprimed rfl]

theorem Settled.step (h : w.Settled) (hmove : move.isNetwork = false) :
    (w.step move).1.Settled ∧ ∀ effect ∈ (w.step move).2, effect ≠ .onReconnect network := by
  refine ⟨?_, fun effect heffect hreport => ?_⟩
  · rcases move with _ | _ | r | refused | _
    case onAvailable => cases hmove
    case onLost => cases hmove
    case stop => exact rfl
    case start =>
      rw [NetworkChangeWatcher.step]
      obtain heq | ⟨-, _, _, heq, -⟩ := start_cases w refused
      · rwa [heq]
      · rw [heq]
        exact rfl
    case run =>
      cases r with
      | initialSelectionReady => exact h
      | primingComplete => exact Settled.priming (w := { w with queue := _ }) h
      | reconnect generation =>
        by_cases hlive : w.registered = true ∧ generation = w.reconnectGeneration
        · rw [step_reconnect hlive]
          exact rfl
        · rw [step_stale hlive]
          exact h
  · subst hreport
    exact (of_onReconnect heffect).2.2.1 h

theorem settled_run (h : w.Settled) {moves : List (Step K)}
    (hmoves : ∀ move ∈ moves, move.isNetwork = false) :
    .onReconnect network ∉ (looper.run w moves).2 := fun hreport =>
  Machine.run_outputs (M := looper) (P := Settled) (Q := (· ≠ .onReconnect network))
    (fun _ _ hmove hsettled => hsettled.step hmove) h hmoves _ hreport rfl

theorem unregistered_step (h : w.registered = false) (hmove : move.isStart = false) :
    (w.step move).1.registered = false ∧
      ∀ effect ∈ (w.step move).2, effect ≠ .onReconnect network := by
  refine ⟨?_, fun effect heffect hreport => ?_⟩
  · rcases move with _ | _ | r | refused | _
    case onAvailable => exact (handled w).registered.trans h
    case onLost => exact (handled w).registered.trans h
    case stop => exact rfl
    case start => cases hmove
    case run =>
      cases r with
      | initialSelectionReady => exact h
      | primingComplete => exact (handled { w with queue := _ }).registered.trans h
      | reconnect generation =>
        rw [step_stale fun hlive => by cases h.symm.trans hlive.1]
        exact h
  · subst hreport
    have hregistered := (of_onReconnect heffect).2.1
    rw [h] at hregistered
    cases hregistered

theorem unregistered_run (h : w.registered = false) {moves : List (Step K)}
    (hmoves : ∀ move ∈ moves, move.isStart = false) :
    .onReconnect network ∉ (looper.run w moves).2 := fun hreport =>
  Machine.run_outputs (M := looper) (P := fun w => w.registered = false)
    (Q := (· ≠ .onReconnect network)) (fun _ _ hmove hidle => unregistered_step hidle hmove) h
    hmoves _ hreport rfl

/-! ## The baseline in force -/

/-- The networks that the service is told to use: those of reconnects, and the one
that is selected when the priming completes. -/
def baselines (move : Step K) (out : List (WatcherEffect K)) : List (Option K) :=
  out.filterMap fun
    | .onReconnect network => some network
    | .onInitialSelectionReady network =>
      if move = .run .primingComplete then some network else none
    | .onInitialUnderlyingNetworkChanged _ => none

/-- Once primed, the baseline is the last network that the service was told to
use. -/
def InForce (w : NetworkChangeWatcher K) (told : List (Option K)) : Prop :=
  w.state.primed = true → told.getLast? = some w.state.reconnectBaseline

theorem baselines_nil : baselines move [] = [] := rfl

theorem baselines_handleEvent : baselines move (w.handleEvent event).2 = [] := by
  simp only [NetworkChangeWatcher.handleEvent]
  split <;> rfl

theorem InForce.handleEvent {told : List (Option K)} (h : w.InForce told)
    (hevent : event ≠ .primingComplete) : (w.handleEvent event).1.InForce told := by
  intro hprimed
  rw [(handled w).state] at hprimed ⊢
  cases hbefore : w.state.primed with
  | false =>
    rw [apply_unprimed hbefore] at hprimed
    exact absurd (of_decide_eq_true hprimed) hevent
  | true =>
    rw [h hbefore]
    by_cases hsame : event.current w.state = w.state.current
    · rw [apply_same hbefore hsame]
    · rw [apply_changed hbefore hsame]

theorem InForce.step {told : List (Option K)} (h : w.InForce told) (hinv : w.Inv)
    (henabled : w.Enabled move) :
    (w.step move).1.InForce (told ++ baselines move (w.step move).2) := by
  rcases move with network | network | r | refused | _
  case onAvailable =>
    have hnone : baselines (.onAvailable network) (w.step (.onAvailable network)).2 = [] :=
      baselines_handleEvent
    rw [hnone, List.append_nil]
    exact h.handleEvent (by simp)
  case onLost =>
    have hnone : baselines (.onLost network) (w.step (.onLost network)).2 = [] :=
      baselines_handleEvent
    rw [hnone, List.append_nil]
    exact h.handleEvent (by simp)
  -- After a stop and after a start the watcher is not primed: there is no baseline yet.
  case stop => exact fun hprimed => by cases hprimed
  case start =>
    rw [NetworkChangeWatcher.step, baselines_nil, List.append_nil]
    obtain heq | ⟨-, _, _, heq, -⟩ := start_cases w refused
    · rwa [heq]
    · rw [heq]
      exact fun hprimed => by cases hprimed
  case run =>
    cases r with
    | initialSelectionReady =>
      have hnone : baselines (.run .initialSelectionReady)
        (w.step (.run .initialSelectionReady)).2 = [] := rfl
      rw [hnone, List.append_nil]
      exact h
    | primingComplete =>
      obtain ⟨-, hprimed, -⟩ := hinv.of_priming henabled
      rw [step_priming hprimed]
      intro _
      simp [baselines]
    | reconnect generation =>
      -- A runnable of another generation is stale and tells the service nothing.
      by_cases hlive : w.registered = true ∧ generation = w.reconnectGeneration
      · rw [step_reconnect hlive]
        by_cases hchanged : w.state.current ≠ w.state.reconnectBaseline
        · intro _
          simp [baselines, if_pos hchanged]
        · rw [if_neg hchanged, baselines_nil, List.append_nil, not_not.mp hchanged]
          exact h
      · rw [step_stale hlive, baselines_nil, List.append_nil]
        exact h

/-! ## Debouncing -/

theorem run_inv (initialNetwork : Option K) (connectivityManager : Bool) {moves : List (Step K)}
    (hruns : looper.Runs (new initialNetwork connectivityManager) moves) :
    (looper.run (new initialNetwork connectivityManager) moves).1.Inv ∧
      (looper.run (new initialNetwork connectivityManager) moves).1.InForce
        (looper.observe baselines (new initialNetwork connectivityManager) moves) := by
  refine Machine.run_induction (M := looper) (P := fun moves w => w.Inv ∧
    w.InForce (looper.observe baselines (new initialNetwork connectivityManager) moves))
    ⟨inv_new initialNetwork connectivityManager, fun hprimed => by cases hprimed⟩
    (fun moves move henabled h => ?_) hruns
  rw [Machine.observe_append, Machine.observe, Machine.observe, List.append_nil]
  exact ⟨h.1.step henabled, h.2.step h.1 henabled⟩

theorem Inv.returned (h : w.Inv) (hmove : move.isNetwork = true)
    (hchanged : w.state.current ≠ w.state.reconnectBaseline)
    (hback : (w.step move).1.state.current = w.state.reconnectBaseline) :
    (w.step move).1.queue.filter Runnable.isReconnect = [] ∧ (w.step move).1.Settled ∧
      w.reconnectGeneration < (w.step move).1.reconnectGeneration := by
  have hprimed : w.state.primed = true := by
    by_contra hunprimed
    exact hchanged (h.unprimed (by simpa using hunprimed))
  suffices hevent : ∀ event : UnderlyingNetworkEvent K,
      (w.handleEvent event).1.state.current = w.state.reconnectBaseline →
      (w.handleEvent event).1.queue.filter Runnable.isReconnect = [] ∧
        (w.handleEvent event).1.Settled ∧
        w.reconnectGeneration < (w.handleEvent event).1.reconnectGeneration by
    cases move with
    | onAvailable network => exact hevent _ hback
    | onLost network => exact hevent _ hback
    | _ => cases hmove
  intro event hback
  by_cases hsame : event.current w.state = w.state.current
  · rw [handleEvent_same hprimed hsame] at hback
    exact absurd hback hchanged
  · rw [(handled w).state, apply_changed hprimed hsame] at hback
    rw [handleEvent_back hprimed hsame hback]
    exact ⟨h.removed, hback, Nat.lt_succ_self _⟩

/-- In whatever order the callbacks, the runnables and the calls of the service
come: a network other than the baseline has a reconnect pending; at most one
runnable is pending that is not stale, and no other; a reconnect is asked for with
the current network, which is not the one the service was last told to use and
becomes it; coming back to the baseline takes the reconnect back; and after a stop
nothing is asked for until the next start, and never by a runnable of before. -/
theorem reconnects_debounced {initialNetwork : Option K} {connectivityManager : Bool}
    {moves : List (Step K)} {w : NetworkChangeWatcher K}
    (hruns : looper.Runs (new initialNetwork connectivityManager) moves)
    (hw : (looper.run (new initialNetwork connectivityManager) moves).1 = w) :
    (w.registered = true → w.state.primed = true →
      w.queue.filter Runnable.isReconnect = [] → w.state.current = w.state.reconnectBaseline) ∧
    (w.queue.filter w.isLive).length ≤ 1 ∧
    (∀ generation, .reconnect generation ∈ w.queue →
      w.isLive (.reconnect generation) = true ∧
        (w.state.current ≠ w.state.reconnectBaseline →
          .onReconnect w.state.current ∈ (w.step (.run (.reconnect generation))).2)) ∧
    (∀ (move : Step K) (network : Option K), w.Enabled move →
      .onReconnect network ∈ (w.step move).2 →
        network = w.state.current ∧ (w.step move).2 = [.onReconnect network] ∧
        (∃ baseline, (looper.observe baselines (new initialNetwork connectivityManager)
            moves).getLast? = some baseline ∧
          baseline = w.state.reconnectBaseline ∧ network ≠ baseline) ∧
        (w.step move).1.state.reconnectBaseline = network ∧
        (looper.observe baselines (new initialNetwork connectivityManager)
          (moves ++ [move])).getLast? = some network) ∧
    (∀ move : Step K, move.isNetwork = true → w.state.current ≠ w.state.reconnectBaseline →
      (w.step move).1.state.current = w.state.reconnectBaseline →
        (w.step move).1.queue.filter Runnable.isReconnect = [] ∧
        (∀ (later : List (Step K)) (network : Option K),
          (∀ next ∈ later, next.isNetwork = false) →
            .onReconnect network ∉ (looper.run (w.step move).1 later).2) ∧
        ∀ (later : List (Step K)) (generation : Nat) (network : Option K),
          generation ≤ w.reconnectGeneration →
            .onReconnect network ∉
              ((looper.run (w.step move).1 later).1.step (.run (.reconnect generation))).2) ∧
    (∀ (later : List (Step K)) (network : Option K), (∀ next ∈ later, next.isStart = false) →
      .onReconnect network ∉ (looper.run (w.step .stop).1 later).2) ∧
    ∀ (later : List (Step K)) (generation : Nat) (network : Option K),
      generation ≤ w.reconnectGeneration →
        .onReconnect network ∉
          ((looper.run (w.step .stop).1 later).1.step (.run (.reconnect generation))).2 := by
  obtain ⟨hinv, hforce⟩ := run_inv initialNetwork connectivityManager hruns
  rw [hw] at hinv hforce
  refine ⟨fun _ _ hnone => ?_, hinv.live_le_one, fun generation hposted => ?_,
    fun move network henabled hreport => ?_, fun move hmove hchanged hback => ?_,
    fun later network hlater => ?_, fun later generation network hold => ?_⟩
  -- The invariant has a reconnect pending whenever the network is not the baseline.
  · by_contra hchanged
    obtain ⟨generation, hpending⟩ := Option.isSome_iff_exists.mp (hinv.covered hchanged)
    rw [hinv.posted, hpending] at hnone
    cases hnone
  · have hlive := hinv.live generation (hinv.posted_iff.mp hposted)
    refine ⟨by simp [isLive, hlive], fun hchanged => ?_⟩
    rw [step_reconnect hlive, if_pos hchanged]
    exact List.mem_singleton_self _
  · obtain ⟨-, -, hchanged, hcurrent, hstate, hout⟩ := of_onReconnect hreport
    -- Before priming the baseline follows the network, so the two would be equal.
    have hprimed : w.state.primed = true := by
      by_contra hunprimed
      exact hchanged (hinv.unprimed (by simpa using hunprimed))
    refine ⟨hcurrent, hout, ⟨_, hforce hprimed, rfl, hcurrent ▸ hchanged⟩, ?_, ?_⟩
    · rw [hstate]
    · have hlast : looper.observe baselines w [move] = [network] := by
        rw [Machine.observe, Machine.observe, List.append_nil]
        exact congrArg (baselines move) hout
      rw [Machine.observe_append, hw, hlast, List.getLast?_concat]
  · obtain ⟨hnone, hsettled, hnewer⟩ := hinv.returned hmove hchanged hback
    exact ⟨hnone, fun later network => settled_run hsettled,
      fun later generation network hold => stale_run (Nat.lt_of_le_of_lt hold hnewer) later network⟩
  · exact unregistered_run rfl hlater
  · exact stale_run (Nat.lt_succ_of_le hold) later network

end Reconnects

def handover : List (Step Nat) :=
  [.start false, .onAvailable 1, .run .primingComplete, .onLost 1, .onAvailable 2]

def movedWatcher : NetworkChangeWatcher Nat := (looper.run (new none true) handover).1

/-- The runnable of the last change reports the network. Coming back before it runs
takes it back, and so does stopping, also when the watcher is started again. -/
theorem reconnects_debounced_handover :
    (looper.observe baselines (new none true)
      (handover ++ [.run (.reconnect 3)])).getLast? = some (some 2) ∧
    (movedWatcher.step (.onAvailable 1)).1.queue.filter Runnable.isReconnect = [] ∧
    .onReconnect (some 1) ∉ ((looper.run (movedWatcher.step .stop).1
      [.start false, .run .primingComplete, .onAvailable 1]).1.step (.run (.reconnect 3))).2 := by
  have hruns : looper.Runs (new none true) handover := by decide
  obtain ⟨-, -, -, hreport, hback, -, hstopped⟩ :=
    reconnects_debounced (w := movedWatcher) hruns rfl
  exact ⟨(hreport (.run (.reconnect 3)) (some 2) trivial (by decide)).2.2.2.2,
    (hback (.onAvailable 1) rfl (by decide) (by decide)).1, hstopped _ 3 (some 1) (by decide)⟩

end NetworkChangeWatcher

end Slt.Android
