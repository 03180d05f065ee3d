import Slt.Lib.Frames
import Slt.Client.Run

/-!
# What the client writes to the stream

A write that fails ends the session with an I/O error, and such a session
writes no CLOSE. Two ways lead past that. A failed UDP_READY is taken for a
failure of the UDP path, which asks for a fallback on the same stream. A loop
that is cancelled in the middle of a write is followed by a CLOSE.

`Env.CutEnds` excludes both. Then the handlers write whole frames and stop where
one is cut, which is what `WholeTrace` says of them.
-/

namespace Slt.Client

open Lib Lib.Handler Proto

def ClientEffect.tcpWrite : ClientEffect → Option (FrameWrite Message)
  | .tcp message => some (.whole message)
  | .tcpCut message written => some (.cut message written)
  | _ => none

def Env.CutStop (env : Env) : Stop SessionError → ClientSession → Prop
  | .error (.io _), _ => True
  | .error _, _ => False
  | .dropped, _ => ∃ message written, env.tcpWrite message = .dropped written

def Env.CutDrop (env : Env) : Stop SessionError → ClientSession → Prop
  | .error _, _ => False
  | .dropped, _ => ∃ message written, env.tcpWrite message = .dropped written

abbrev WholeTrace (env : Env) : ClientTrace := .framed ClientEffect.tcpWrite env.CutStop

/-! ## Writes -/

section Writes

variable (env : Env)

theorem ClientEffect.tcpWrite_of_isPlain (e : ClientEffect) (he : e.isPlain = true) :
    e.tcpWrite = none := by
  cases e with
  | tcp message => cases he
  | tcpCut message written => cases he
  | _ => rfl

theorem routine_whole : Routine env (WholeTrace env) where
  plain := ClientEffect.tcpWrite_of_isPlain
  write message := by
    unfold writeTcpMessage
    split
    · exact ⟨rfl, .inl trivial⟩
    · exact ⟨rfl, .inr ⟨rfl, _, rfl, trivial⟩⟩
    · rename_i written hwrite
      exact ⟨rfl, .inr ⟨rfl, _, rfl, message, written, hwrite⟩⟩

/-- The write that answers the message of the UDP path, if there is one, does
not fail. -/
def Env.AnswersOnTcp (env : Env) (message : Message) : Prop :=
  ∀ upgradeId nonce, message = .upgradeProbeAck upgradeId nonce →
    ∀ source written, env.tcpWrite (.udpReady upgradeId) ≠ .failed source written

theorem udpRoutine_whole {message : Message} (h : env.AnswersOnTcp message) :
    UdpRoutine env (WholeTrace env) (.framed ClientEffect.tcpWrite env.CutDrop) message where
  plain := ClientEffect.tcpWrite_of_isPlain
  answer hmessage := by
    unfold writeTcpMessage
    split
    · exact ⟨rfl, .inl trivial⟩
    · rename_i source written hwrite
      exact absurd hwrite (h _ _ hmessage source written)
    · rename_i written hwrite
      exact ⟨rfl, .inr ⟨rfl, _, rfl, _, written, hwrite⟩⟩
  catches := Trace.framed_catches (fun _ _ hcut => hcut) fun _ hcut => hcut

end Writes

/-! ## Events -/

section Events

variable (env : Env) {s : ClientSession}

/-- The writes on the stream that the event may lead to are not dropped, except
by the time limit of the CLOSE after an idle timeout; and the write that
answers an UPGRADE_PROBE_ACK does not fail. -/
structure Env.CutEnds (env : Env) (event : SessionEvent) : Prop where
  dropped : ∀ message written, env.tcpWrite message = .dropped written →
    event = .idleTimeout ∧ env.closeExpires = true
  answers : ∀ packet, event = .udpResult (.ok packet) → env.AnswersOnTcp packet.message

def SessionExit.Silent (exit : SessionExit) : Prop := ∀ env, tellServer env exit = pure ()

theorem silent_io (source : IoError) : (SessionError.io source).exit.Silent := by
  intro env
  rw [SessionError.exit, SessionError.ofIo]
  split <;> rfl

theorem ends_sendCloseBestEffort (h : s.Calm) (code : CloseCode) :
    Ends ClientEffect.tcpWrite s (sendCloseBestEffort env code) := by
  have hwrote := sound_writeControlMessage (routine_whole env) h (.close code)
  exact .bind (Wrote.best_effort hwrote.2) fun _ _ => .pure _ trivial

/-- A CLOSE that is cut does not stop the handler, unless it is dropped from
outside. -/
theorem sendCloseBestEffort_spec (hcalm : s.Calm) (code : CloseCode)
    (h : ∀ message written, env.tcpWrite message = .dropped written → env.closeExpires = true) :
    Triple (sendCloseBestEffort env code) s fun r _ out =>
      (∃ a, r = .ok a) ∨ FrameWrite.Whole (out.filterMap ClientEffect.tcpWrite) := by
  have hwrote := (sound_writeControlMessage (routine_whole env) hcalm (.close code)).2
  refine Triple.bind (Triple.best_effort hwrote)
    (fun _ _ _ _ => .inl ⟨_, rfl⟩) fun e s' out hclose => .inr ?_
  obtain ⟨-, hlimit, hwrote⟩ := hclose.resolve_left fun ⟨_, ha⟩ => nomatch ha
  refine hwrote.resolve_right fun ⟨_, e', he, hcut⟩ => ?_
  cases he
  obtain ⟨message, written, hdropped⟩ := hcut
  exact nomatch hlimit.symm.trans (h message written hdropped)

/-- After an event the frames are whole, or the session ends without another
write. -/
theorem handleEvent_writes {event : SessionEvent} (h : env.CutEnds event) (hloop : s.AtLoop)
    (hpolls : s.polls event = true) :
    Triple (handleEvent env event) s fun r _ out =>
      FrameWrite.Whole (out.filterMap ClientEffect.tcpWrite) ∨
        FrameWrite.Intact (out.filterMap ClientEffect.tcpWrite) ∧
          ∃ outcome, outcomeOf env r = some outcome ∧ outcome.exit.Silent := by
  -- Only the idle timeout writes with a time limit: its close frame may be cut, and the
  -- handler still returns.
  by_cases hidle : event = .idleTimeout
  · subst hidle
    -- The idle timer is not polled during a refresh.
    have hrefresh : s.refresh = none := by
      cases hr : s.refresh with
      | none => rfl
      | some refresh => simp [ClientSession.polls, hr] at hpolls
    have hcalm : s.Calm := ⟨hloop.inv, hrefresh⟩
    rw [handleEvent, triple_get_bind, hrefresh]
    have hspec := sendCloseBestEffort_spec env hcalm .idleTimeout fun message written hw =>
      (h.dropped message written hw).2
    refine Triple.bind (hspec.and (ends_sendCloseBestEffort env hcalm .idleTimeout))
      (fun _ s' out hclose => ?_) fun e s' out hclose => .inl ?_
    · rw [triple_pure, List.append_nil]
      exact .inr ⟨hclose.2, _, rfl, fun _ => rfl⟩
    · refine hclose.1.resolve_left ?_
      rintro ⟨_, ha⟩
      cases ha
  · have hwhole := sound_handleEvent (routine_whole env)
      (fun packet heq => udpRoutine_whole env (h.answers packet heq)) (fun heq => absurd heq hidle)
      hloop hpolls
    refine Triple.weaken hwhole fun r s' out hwrote => hwrote.2.imp_right ?_
    rintro ⟨hintact, e, rfl, hcut⟩
    refine ⟨hintact, ?_⟩
    cases e with
    | error err =>
      cases err with
      | io source => exact ⟨_, rfl, silent_io source⟩
      | _ => exact hcut.elim
    | dropped =>
      obtain ⟨message, written, hdropped⟩ := hcut
      exact absurd (h.dropped message written hdropped).1 hidle

theorem ends_closeSession (h : s.AtLoop) (exit : SessionExit) :
    Ends ClientEffect.tcpWrite s (closeSession env exit) := by
  have hcalm : { s with refresh := none }.Calm := ⟨h.inv.unrelated _ _ _ none, rfl⟩
  have hclose := ends_sendCloseBestEffort env hcalm
  rw [Ends, closeSession, triple_modify_bind]
  unfold tellServer
  split
  · exact hclose _
  · exact hclose _
  · exact hclose _
  · exact hclose _
  · trivial

theorem SessionExit.Silent.noTcp {exit : SessionExit} (h : exit.Silent) :
    Triple (closeSession env exit) s fun _ _ out =>
      out.filterMap ClientEffect.tcpWrite = [] := by
  rw [closeSession, triple_modify_bind, h env]
  rfl

end Events

/-! ## Runs -/

namespace ClientRun

def tcpWrites (w : ClientRun) : List (FrameWrite Message) := w.log.filterMap ClientEffect.tcpWrite

/-- While the session goes on the frames are whole. When it has ended with a
frame cut, the closing steps add nothing. -/
def FramesKept (w : ClientRun) : Prop :=
  match w.phase with
  | .running => FrameWrite.Whole w.tcpWrites
  | .ended outcome =>
    FrameWrite.Whole w.tcpWrites ∨ FrameWrite.Intact w.tcpWrites ∧ outcome.exit.Silent
  | .closed _ => FrameWrite.Intact w.tcpWrites

theorem FramesKept.intact {w : ClientRun} (h : w.FramesKept) : FrameWrite.Intact w.tcpWrites := by
  unfold FramesKept at h
  split at h
  · exact h.intact
  · exact h.elim FrameWrite.Whole.intact And.left
  · exact h

theorem FramesKept.afterEvent {w : ClientRun} (h : w.FramesKept) (hloop : w.session.AtLoop)
    (hrunning : w.phase = .running) {env : Env} {event : SessionEvent} (hcut : env.CutEnds event)
    (hpolls : w.session.polls event = true) : (w.afterEvent env event).FramesKept := by
  have hwhole : FrameWrite.Whole w.tcpWrites := by
    rw [FramesKept, hrunning] at h
    exact h
  have hwrites := handleEvent_writes env hcut hloop hpolls
  unfold Triple at hwrites
  unfold ClientRun.afterEvent
  generalize (handleEvent env event).run w.session = ran at hwrites
  obtain ⟨r, s', out⟩ := ran
  simp only [FramesKept, tcpWrites, List.filterMap_append]
  rcases hwrites with hout | ⟨hout, outcome, houtcome, hsilent⟩
  · cases outcomeOf env r with
    | none => exact hwhole.append hout
    | some outcome => exact .inl (hwhole.append hout)
  · rw [houtcome]
    exact .inr ⟨hwhole.append_intact hout, hsilent⟩

theorem FramesKept.afterClose {w : ClientRun} (h : w.FramesKept) (hloop : w.session.AtLoop)
    (env : Env) {outcome : SessionOutcome} (hended : w.phase = .ended outcome) :
    (w.afterClose env outcome).FramesKept := by
  rw [FramesKept, hended] at h
  have hends := ends_closeSession env hloop outcome.exit
  have hnone := fun hsilent : outcome.exit.Silent => hsilent.noTcp env (s := w.session)
  unfold Ends at hends
  unfold Triple at hends hnone
  unfold ClientRun.afterClose
  generalize (closeSession env outcome.exit).run w.session = ran at hends hnone
  simp only [FramesKept, tcpWrites, List.filterMap_append]
  rcases h with hwhole | ⟨hintact, hsilent⟩
  · exact hwhole.append_intact hends
  · rw [hnone hsilent, List.append_nil]
    exact hintact

/-- Where no write is cancelled with the loop and no answer to an
UPGRADE_PROBE_ACK fails, the stream carries whole frames and at most one
truncated frame at its end, after which nothing is written. -/
theorem tcp_stream_intact {config : ClientConfig} {w : ClientRun}
    (h : Reachable Env.CutEnds config w) (encode : Message → Bytes) :
    FrameWrite.Intact w.tcpWrites ∧
      ∃ (frames : List Message) (tail : Bytes),
        FrameWrite.stream encode w.tcpWrites = frames.flatMap encode ++ tail ∧
          (tail = [] ∨ ∃ message, tail <+: encode message) := by
  have hkept : w.FramesKept := by
    induction h with
    | initial => exact trivial
    | event env event hbefore hrunning hpolls hcut ih =>
      exact ih.afterEvent hbefore.sound.session hrunning hcut hpolls
    | close env outcome hbefore hended ih => exact ih.afterClose hbefore.sound.session env hended
  exact ⟨hkept.intact, hkept.intact.bytes encode⟩

/-! ## Frames cut in the middle -/

/-- Three bytes of a frame are written when the session is shut down. -/
def cancelledWrite : ClientRun :=
  ((initial .upgrading).afterEvent { Env.quiet with tcpWrite := fun _ => .dropped 3 }
    (.tunPacket (some [69]))).afterClose .quiet ⟨.shutdown, none⟩

/-- Three bytes of the answer to a probe acknowledgement are written before the
write times out. -/
def failedAnswer : ClientRun :=
  probing.afterEvent
    { Env.quiet with
      tcpWrite := fun message =>
        if message = .udpReady 2 then .failed ⟨.timedOut, "tcp message write timed out"⟩ 3
        else .done }
    (.udpResult (.ok ⟨someServer, .upgradeProbeAck 2 3⟩))

/-- A frame is cut and another one follows: when the loop is cancelled in a
write, and when the answer to a probe acknowledgement fails. -/
theorem tcp_stream_cut :
    (Reachable (fun _ _ => True) .upgrading cancelledWrite ∧
      cancelledWrite.tcpWrites = [.cut (.data [69]) 3, .whole (.close .normal)] ∧
      ¬ FrameWrite.Intact cancelledWrite.tcpWrites) ∧
    Reachable (fun _ _ => True) .upgrading failedAnswer ∧
      failedAnswer.tcpWrites.drop 1 = [.cut (.udpReady 2) 3, .whole (.fallbackToTcp 1)] ∧
      ¬ FrameWrite.Intact failedAnswer.tcpWrites := by
  refine ⟨⟨?_, rfl, fun h => nomatch h⟩, ?_, rfl, fun h => nomatch h⟩
  · exact .close _ _ (.event _ _ .initial rfl rfl trivial) rfl
  · exact .event _ _ reachable_probing rfl rfl trivial

/-- A write that fails and is the last. -/
theorem tcp_stream_intact_failed :
    ∃ w : ClientRun, Reachable Env.CutEnds .upgrading w ∧
      w.tcpWrites = [.cut (.data [69]) 3] ∧ FrameWrite.Intact w.tcpWrites := by
  have hcut : Env.CutEnds { Env.quiet with tcpWrite := fun _ => .failed ⟨.brokenPipe, ""⟩ 3 }
      (.tunPacket (some [69])) :=
    ⟨fun _ _ hw => (nomatch hw), fun _ he => (nomatch he)⟩
  have hreachable := Reachable.event _ _ (Reachable.initial : Reachable _ .upgrading _) rfl rfl hcut
  exact ⟨_, hreachable, rfl, (tcp_stream_intact hreachable fun _ => []).1⟩

end ClientRun

end Slt.Client
