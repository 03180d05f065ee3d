import Slt.Lib.Frames
import Slt.Server.Emissions
import Slt.Server.Run

/-!
# What the server writes to the stream

A frame write that fails ends the session with a connection error, which the
peer is not told of. One that is dropped with the loop leaves its mark, and
nothing is written while the mark is set. So a frame that is cut is the last,
through the closing steps.
-/

namespace Slt.Server

open Lib Lib.Handler Proto

def ServerEffect.tcpWrite : ServerEffect → Option (FrameWrite Message)
  | .tcp message => some (.whole message)
  | .tcpCut message written => some (.cut message written)
  | _ => none

def CutStop : Stop SessionError → ServerSession → Prop
  | .error (.connection _), _ => True
  | .error _, _ => False
  | .dropped, s => s.tcpWriteInterrupted = true

abbrev NoTcp {α : Type} (s : ServerSession) (m : ServerM α) : Prop :=
  Quiet ServerEffect.tcpWrite s m

/-! ## Handlers -/

section Handlers

variable (env : Env) {s : ServerSession}

/-- Whole frames, up to one that stops the handler. -/
abbrev WholeTrace : ServerTrace := .framed ServerEffect.tcpWrite CutStop

theorem wrote_sendTcpMessage (message : Message) :
    Triple (sendTcpMessage env message) s (Wrote ServerEffect.tcpWrite CutStop) := by
  rw [sendTcpMessage, triple_get_bind]
  split
  · exact .inl trivial
  · unfold writeFrame setTcpWriteInterrupted
    rw [triple_modify_bind]
    split
    · exact .inl trivial
    · exact .inr ⟨rfl, _, rfl, trivial⟩
    · exact .inr ⟨rfl, _, rfl, rfl⟩

theorem routine_whole : Routine env (fun _ => True) WholeTrace where
  stable := stable_true
  send message _ := ⟨trivial, wrote_sendTcpMessage env message⟩
  discarded _ := rfl
  retired _ := rfl
  preferred _ := rfl
  recovering _ := rfl

theorem sendsUdp_whole : SendsUdp (fun _ => True) WholeTrace := fun _ _ _ _ _ => rfl

end Handlers

/-! ## CLOSE -/

section Close

variable (env : Env) {s : ServerSession}

theorem noTcp_tryCloseOverUdp (code : CloseCode) : NoTcp s (tryCloseOverUdp env code) := by
  have hudp : SendsUdp (fun _ => True) (.all (ServerEffect.tcpWrite · = none)) :=
    fun _ _ _ _ _ => rfl
  exact keeps_tryCloseOverUdp stable_true hudp trivial code

theorem noTcp_lastSteps : NoTcp s (flushPendingUdpSessionBestEffort env >>= fun _ => cleanup) :=
  .bind (keeps_flushPendingUdpSessionBestEffort stable_true trivial) fun _ _ _ => .modify trivial

theorem ends_sendCloseBestEffort (code : CloseCode) :
    Ends ServerEffect.tcpWrite s (sendCloseBestEffort env code) := by
  rw [Ends, sendCloseBestEffort, triple_get_bind]
  split
  · have hwrote := keeps_sendCloseOverTcp (s := s) (routine_whole env) trivial code
    refine Ends.bind (Wrote.best_effort hwrote.2) fun closed s' => ?_
    split
    · exact .pure _ trivial
    · exact noTcp_tryCloseOverUdp env code
  · exact Quiet.ends (noTcp_tryCloseOverUdp env code)

theorem noTcp_sendCloseBestEffort (h : s.tcpWriteInterrupted = true) (code : CloseCode) :
    NoTcp s (sendCloseBestEffort env code) := by
  refine .get_bind ?_
  rw [h]
  simp only [Bool.not_true, Bool.and_false]
  exact noTcp_tryCloseOverUdp env code

/-- The peer is not told of the outcome on the stream. -/
def RunOutcome.Silent (s : ServerSession) : RunOutcome → Prop
  | .completed result => ∀ err, result = .error err → err.isPeerProtocolError = false
  | .shutdown _ => s.tcpWriteInterrupted = true
  | .shutdownSignalUnavailable => True

theorem RunOutcome.Silent.noTcp {outcome : RunOutcome} (h : outcome.Silent s) :
    NoTcp s (closeSession env outcome) := by
  cases outcome with
  | completed result =>
    have htell : tellPeerAtFault env result = pure () := by
      cases result with
      | ok _ => rfl
      | error err => rw [tellPeerAtFault, h err rfl]; rfl
    refine .bind (.pure _ trivial) fun _ _ _ => .bind ?_ fun _ _ _ => noTcp_lastSteps env
    rw [RunOutcome.result, htell]
    exact .pure _ trivial
  | shutdown reason =>
    exact (noTcp_sendCloseBestEffort env h reason.closeCode).bind fun _ _ _ =>
      .bind (.pure _ trivial) fun _ _ _ => noTcp_lastSteps env
  | shutdownSignalUnavailable =>
    exact .bind (.pure _ trivial) fun _ _ _ =>
      .bind (.pure _ trivial) fun _ _ _ => noTcp_lastSteps env

theorem silent_dropped (h : s.tcpWriteInterrupted = true) :
    ∃ outcome, outcomeOf env (.error .dropped) = some outcome ∧ outcome.Silent s := by
  cases hsignal : env.shutdown with
  | none => exact ⟨.shutdownSignalUnavailable, by rw [outcomeOf, hsignal], trivial⟩
  | some reason => exact ⟨.shutdown reason, by rw [outcomeOf, hsignal], h⟩

theorem ends_closeSession (outcome : RunOutcome) :
    Ends ServerEffect.tcpWrite s (closeSession env outcome) := by
  cases outcome with
  | completed result =>
    have htell (s : ServerSession) : Ends ServerEffect.tcpWrite s (tellPeerAtFault env result) := by
      cases result with
      | ok _ => exact Quiet.ends (.pure _ trivial)
      | error err =>
        rw [tellPeerAtFault]
        split
        · exact ends_sendCloseBestEffort env _
        · exact Quiet.ends (.pure _ trivial)
    exact .after (.pure _ trivial) fun _ s => .bind (htell s) fun _ _ => noTcp_lastSteps env
  | shutdown reason =>
    exact Ends.bind (ends_sendCloseBestEffort env _) fun _ _ =>
      .bind (.pure _ trivial) fun _ _ _ => noTcp_lastSteps env
  | shutdownSignalUnavailable => exact Quiet.ends (RunOutcome.Silent.noTcp env trivial)

/-- After an event the frames are whole, or the session ends without another
write. -/
theorem handleEvent_writes (event : SessionEvent) :
    Triple (handleEvent env event) s fun r s' out =>
      FrameWrite.Whole (out.filterMap ServerEffect.tcpWrite) ∨
        FrameWrite.Intact (out.filterMap ServerEffect.tcpWrite) ∧
          ∃ outcome, outcomeOf env r = some outcome ∧ outcome.Silent s' := by
  -- The idle timer is the one event that writes under `attempt`: a cut frame is
  -- swallowed there and not thrown.
  by_cases hidle : event = .idleTimer
  · subst hidle
    have hclose := keeps_sendClose (s := s) (routine_whole env) sendsUdp_whole trivial .idleTimeout
    refine Triple.attempt_bind hclose.2 (fun _ s' out h => ?_)
      (fun e s' out h => ?_) fun s' out h => ?_
    · rw [triple_pure, List.append_nil]
      exact .inl h.whole
    · rw [triple_pure, List.append_nil]
      exact h.imp_right fun ⟨hintact, _⟩ =>
        ⟨hintact, .completed (.ok ()), rfl, fun _ he => nomatch he⟩
    · refine h.imp_right fun ⟨hintact, e, he, hcut⟩ => ⟨hintact, ?_⟩
      cases he
      exact silent_dropped env hcut
  · have hwhole := keeps_handleEvent (s := s) (routine_whole env) sendsUdp_whole trivial
      (fun heq => absurd heq hidle) (fun _ => trivial) (fun _ _ _ _ _ => rfl)
      (fun _ _ => ⟨rfl, fun _ => trivial⟩) fun _ _ _ => trivial
    refine Triple.weaken hwhole fun r s' out hwrote => ?_
    refine hwrote.2.imp_right fun ⟨hintact, e, he, hcut⟩ => ⟨hintact, ?_⟩
    subst he
    -- A frame is cut by an error of the connection or by dropping the handler.
    cases e with
    | error err =>
      cases err with
      | connection source =>
        refine ⟨.completed (.error (.connection source)), rfl, fun err herr => ?_⟩
        cases herr
        rfl
      | _ => exact hcut.elim
    | dropped => exact silent_dropped env hcut

end Close

/-! ## Runs -/

namespace ServerRun

def tcpWrites (w : ServerRun) : List (FrameWrite Message) := w.log.filterMap ServerEffect.tcpWrite

/-- While the session goes on the frames are whole. When it has ended with a
frame cut, the closing steps add nothing. -/
def FramesKept (w : ServerRun) : Prop :=
  match w.phase with
  | .running => FrameWrite.Whole w.tcpWrites
  | .ended outcome =>
    FrameWrite.Whole w.tcpWrites ∨
      FrameWrite.Intact w.tcpWrites ∧ outcome.Silent w.session
  | .closed _ => FrameWrite.Intact w.tcpWrites

section

variable {w : ServerRun} (h : w.FramesKept)
include h

theorem FramesKept.intact : FrameWrite.Intact w.tcpWrites := by
  unfold FramesKept at h
  split at h
  · exact h.intact
  · exact h.elim FrameWrite.Whole.intact And.left
  · exact h

theorem FramesKept.afterForeign (call : ForeignCall) : (w.afterForeign call).FramesKept := by
  unfold FramesKept at h ⊢
  cases hphase : w.phase with
  | ended outcome =>
    rw [hphase] at h
    simp only [ServerRun.afterForeign, hphase]
    refine h.imp_right fun ⟨hintact, hsilent⟩ => ⟨hintact, ?_⟩
    cases outcome <;> exact hsilent
  | _ =>
    rw [hphase] at h
    simp only [ServerRun.afterForeign, hphase]
    exact h

theorem FramesKept.afterEvent (hrunning : w.phase = .running) (env : Env) (event : SessionEvent) :
    (w.afterEvent env event).FramesKept := by
  have hwhole : FrameWrite.Whole w.tcpWrites := by
    rw [FramesKept, hrunning] at h
    exact h
  have hwrites := handleEvent_writes env event (s := w.session)
  unfold Triple at hwrites
  unfold ServerRun.afterEvent
  generalize (handleEvent env event).run w.session = ran at hwrites
  obtain ⟨r, s', out⟩ := ran
  simp only [FramesKept, tcpWrites, List.filterMap_append]
  rcases hwrites with hout | ⟨hout, outcome, houtcome, hsilent⟩
  · cases outcomeOf env r with
    | none => exact hwhole.append hout
    | some outcome => exact .inl (hwhole.append hout)
  · rw [houtcome]
    exact .inr ⟨hwhole.append_intact hout, hsilent⟩

theorem FramesKept.afterClose (env : Env) {outcome : RunOutcome}
    (hended : w.phase = .ended outcome) :
    (w.afterClose env outcome).FramesKept := by
  rw [FramesKept, hended] at h
  have hends := ends_closeSession env outcome (s := w.session)
  have hnone := fun hsilent : outcome.Silent w.session => Quiet.writes (hsilent.noTcp env)
  unfold Ends at hends
  unfold Triple at hends hnone
  unfold ServerRun.afterClose
  generalize (closeSession env outcome).run w.session = ran at hends hnone
  simp only [FramesKept, tcpWrites, List.filterMap_append]
  rcases h with hwhole | ⟨hintact, hsilent⟩
  · exact hwhole.append_intact hends
  · rw [hnone hsilent, List.append_nil]
    exact hintact

end

/-- Whatever fails or is dropped, the stream carries whole frames and at most
one truncated frame at its end, after which nothing is written. -/
theorem server_stream_intact {start : ServerSession} {w : ServerRun} (h : Reachable start w)
    (encode : Message → Bytes) :
    FrameWrite.Intact w.tcpWrites ∧
      ∃ (frames : List Message) (tail : Bytes),
        FrameWrite.stream encode w.tcpWrites = frames.flatMap encode ++ tail ∧
          (tail = [] ∨ ∃ message, tail <+: encode message) := by
  have hkept : w.FramesKept := by
    induction h with
    | initial => exact trivial
    | foreign call _ _ ih => exact ih.afterForeign call
    | event env event _ hrunning _ _ ih => exact ih.afterEvent hrunning env event
    | close env outcome _ hended ih => exact ih.afterClose env hended
  exact ⟨hkept.intact, hkept.intact.bytes encode⟩

/-- A takeover comes when three bytes of a frame are written. -/
theorem server_stream_intact_takenOver :
    ∃ w : ServerRun,
      Reachable (.new ⟨1, .replicate _ 0, .replicate _ 0, 0⟩ [.aes128Gcm] 1400 .new) w ∧
        (∃ outcome, w.phase = .closed outcome) ∧ w.tcpWrites = [.cut (.data [69]) 3] ∧
        FrameWrite.Intact w.tcpWrites := by
  have hreachable : Reachable (.new ⟨1, .replicate _ 0, .replicate _ 0, 0⟩ [.aes128Gcm] 1400 .new)
      (((initial _).afterEvent { Env.quiet with tcpWrite := fun _ => .dropped 3 }
        (.tunPacket [69])).afterClose .quiet (.shutdown .takeover)) :=
    .close _ _ (.event _ _ .initial rfl rfl fun _ hcall => nomatch hcall) rfl
  exact ⟨_, hreachable, ⟨_, rfl⟩, rfl, (server_stream_intact hreachable fun _ => []).1⟩

end ServerRun

end Slt.Server
