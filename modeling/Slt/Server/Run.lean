import Slt.Server.Session

/-!
# Runs of a server session

A run takes events as long as its loop is in progress, and then does the
closing steps. In between, others call the registry: they register sessions,
and sessions with other ids work on their entries. The run keeps the events it
has taken and the effects of all it has done.
-/

namespace Slt.Server

open Lib Lib.Handler Proto

/-- The call does not come from the session with this id. -/
def ForeignCall.Foreign (sessionId : UInt64) : ForeignCall → Prop
  | .register _ _ _ => True
  | .other caller _ => caller.sessionId ≠ sessionId

inductive Phase where
  | running
  | ended (outcome : RunOutcome)
  | closed (outcome : RunOutcome)

structure ServerRun where
  session : ServerSession
  phase : Phase
  handled : List SessionEvent
  log : List ServerEffect

namespace ServerRun

def initial (start : ServerSession) : ServerRun := ⟨start, .running, [], []⟩

def afterForeign (w : ServerRun) (call : ForeignCall) : ServerRun :=
  { w with session := { w.session with registry := call.apply w.session.registry } }

def afterEvent (w : ServerRun) (env : Env) (event : SessionEvent) : ServerRun :=
  let (result, session, out) := (handleEvent env event).run w.session
  { session := session
    phase :=
      match outcomeOf env result with
      | none => .running
      | some outcome => .ended outcome
    handled := w.handled ++ [event]
    log := w.log ++ out }

def afterClose (w : ServerRun) (env : Env) (outcome : RunOutcome) : ServerRun :=
  let (_, session, out) := (closeSession env outcome).run w.session
  { w with session := session, phase := .closed outcome, log := w.log ++ out }

inductive Reachable (start : ServerSession) : ServerRun → Prop where
  | initial : Reachable start (initial start)
  | foreign {w : ServerRun} (call : ForeignCall) :
      Reachable start w → call.Foreign w.session.sessionId →
      Reachable start (w.afterForeign call)
  | event {w : ServerRun} (env : Env) (event : SessionEvent) :
      Reachable start w → w.phase = .running → w.session.polls event = true →
      (∀ call ∈ env.foreign, call.Foreign w.session.sessionId) →
      Reachable start (w.afterEvent env event)
  | close {w : ServerRun} (env : Env) (outcome : RunOutcome) :
      Reachable start w → w.phase = .ended outcome → Reachable start (w.afterClose env outcome)

end ServerRun

/-! ## An environment without failures -/

def Env.quiet : Env where
  now := 0
  fallbackId := 1
  pingNonce := 2
  keysFailure := none
  udpIoFailure := none
  foreign := []
  tcpWrite := fun _ => .done
  udpSend := fun _ => ⟨none, none, none⟩
  udpFlush := fun _ => .done
  tunAccept := .done .accepted
  closeTcpExpires := false
  closeUdpExpires := false
  flushExpires := false
  shutdown := some .takeover

end Slt.Server
