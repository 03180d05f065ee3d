import Slt.Lib.Trace
import Slt.Upgrade.Agreement

/-!
# The keys of the two parties

A reply to a registration does not say which one it answers. The stream order
makes up for it: the client works with the last registration it wrote, the
server with the last one it read, so the keys agree when the server has read
the client's last. A server that drops the session tells the client, and the
request is on its way for as long as the client still uses the keys.
-/

namespace Slt.Upgrade

open Lib (Since)

variable {R C I : Type} {cid : R → C} {s s' : State R C I}

/-- A registration that the server installed is not the one written next. -/
theorem Inv.not_written (hi : Inv s) {acts : List (ClientAction R I)}
    (fresh : ∀ a ∈ acts, s.FreshClient a) {r : R} (hr : .serverDid (.install r) ∈ s.log) :
    .write (.register r) ∉ acts := by
  intro hw
  refine fresh _ hw (State.mem_sent.mp ?_)
  rw [hi.registrations.fifo]
  exact List.mem_append_left _ (hi.registrations.installed r hr)

/-- The server installs nothing more once it has the last registration. -/
theorem Inv.not_installed (hi : Inv s) {input : Input (ClientMessage R I) R I}
    {rest : List (ClientMessage R I)} {v : Server R I} {acts : List (ServerAction R C I)}
    (offered : input.Taken s.c2s rest fun p => .clientDid (.probe p) ∈ s.log)
    (taken : ServerStep cid s.server input v acts) {r : R}
    (hlast : s.registered.getLast? = some r) (hr : .serverDid (.install r) ∈ s.log) (r' : R) :
    .install r' ∉ acts := by
  intro hi'
  obtain ⟨rfl, -, -⟩ := taken.of_install hi'
  exact hi.registrations.settled hlast (hi.registrations.installed r hr) r' offered.head

/-! ## The session of the last registration -/

def NotRetired (e : Event R C I) : Prop := ∀ r, e ≠ .serverDid (.retire r)

/-- A server that took the last registration, and dropped no session since,
has it. -/
def Kept (s : State R C I) : Prop :=
  ∀ r, s.registered.getLast? = some r → Since NotRetired (.serverDid (.install r)) s.log →
    s.server.session = some r

namespace Kept

theorem initial : Kept (State.initial : State R C I) := by
  intro r hlast
  cases hlast

theorem step (h : Kept s) (hi : Inv s) (hs : Step cid s s') : Kept s' := by
  intro r hlast hsince
  cases hs with
  | client input rest c acts offered taken fresh =>
    have hold := (hsince.of_append (by simp)).1
    rcases Registrations.registered_afterClient taken with ⟨r', hw, hreg⟩ | ⟨-, hreg⟩
    · rw [hreg, List.getLast?_concat] at hlast
      obtain rfl : r' = r := by simpa using hlast
      exact absurd hw (hi.not_written fresh hold.mem)
    · exact h r (hreg ▸ hlast) hold
  | server input rest v acts offered taken fresh =>
    rw [State.registered, State.sent_afterServer] at hlast
    by_cases hnew : .install r ∈ acts
    · exact (taken.of_install hnew).2.2
    · obtain ⟨hold, hmore⟩ := hsince.of_append (by simpa using hnew)
      rcases taken.from_session (h r hlast hold) with hstay | ⟨r', hr'⟩ | ⟨hretire, -⟩
      · exact hstay
      · exact absurd hr' (hi.not_installed offered taken hlast hold.mem r')
      · exact absurd rfl (hmore (.serverDid (.retire r)) (by simpa using hretire) r)

end Kept

theorem Reachable.kept (h : Reachable cid s) : Kept s := by
  induction h with
  | refl => exact .initial
  | tail hreach hs ih => exact ih.step (Reachable.inv hreach) hs

/-! ## Sessions the server dropped -/

/-- A consent of the client is ahead of everything it registers afterwards. -/
structure Yielded (s : State R C I) : Prop where
  behind : ∀ f r, .fallbackOk f ∈ s.c2s → s.server.session = some r →
    s.client.registration.current ≠ some r
  order : s.c2s.Pairwise fun a b => ∀ f r, b = .fallbackOk f → a = .register r →
    s.client.registration.current ≠ some r

namespace Yielded

theorem initial : Yielded (State.initial : State R C I) := by
  constructor <;> simp [State.initial]

section Client

variable {input : Input (ServerMessage C I) R I} {rest : List (ServerMessage C I)}
  {c : Client R I} {acts : List (ClientAction R I)}

theorem none_of_consent (hi : Inv s)
    (offered : input.Taken s.s2c rest fun p => .serverDid (.echo p) ∈ s.log)
    (taken : ClientStep cid s.client input c acts) {f : I}
    (hw : .write (.fallbackOk f) ∈ acts) : c.registration.current = none := by
  obtain rfl := taken.of_fallbackOk hw
  obtain ⟨-, hyield⟩ := taken.of_peerFallback
  rw [(hyield (hi.drawn.clientNew f offered.head)).1, Registration.current_none]

theorem stepClient (h : Yielded s) (hi : Inv s)
    (offered : input.Taken s.s2c rest fun p => .serverDid (.echo p) ∈ s.log)
    (taken : ClientStep cid s.client input c acts) (fresh : ∀ a ∈ acts, s.FreshClient a) :
    Yielded (s.afterClient input rest c acts) where
  behind f r hf hsession hcur := by
    rcases State.mem_c2s_afterClient.mp hf with hf | hw
    · rcases taken.to_current hcur with hold | hw
      · exact h.behind f r hf hsession hold
      · exact hi.not_written fresh (hi.registrations.session r hsession) hw
    · cases (none_of_consent hi offered taken hw).symm.trans hcur
  order := by
    refine State.pairwise_afterClient taken ?_ ?_
    · refine h.order.imp_of_mem fun ha _ hab f r hb har hcur => ?_
      rcases taken.to_current hcur with hold | hw
      · exact hab f r hb har hold
      · exact fresh _ hw (hi.drawn.c2s _ (har ▸ ha))
    · rintro b hw a - f r rfl - hcur
      cases (none_of_consent hi offered taken hw).symm.trans hcur

end Client

section Server

variable {input : Input (ClientMessage R I) R I} {rest : List (ClientMessage R I)}
  {v : Server R I} {acts : List (ServerAction R C I)}

theorem stepServer (h : Yielded s)
    (offered : input.Taken s.c2s rest fun p => .clientDid (.probe p) ∈ s.log)
    (taken : ServerStep cid s.server input v acts) :
    Yielded (s.afterServer input rest v acts) where
  behind f r hf hsession := by
    rcases taken.to_session hsession with hold | hinstall
    · exact h.behind f r (offered.mem hf) hold
    · obtain ⟨rfl, -, -⟩ := taken.of_install hinstall
      exact offered.head_pairwise h.order _ hf f r rfl rfl
  order := offered.pairwise h.order

end Server

end Yielded

theorem Reachable.yielded (h : Reachable cid s) : Yielded s := by
  induction h with
  | refl => exact .initial
  | tail hreach hs ih =>
    have hi := Reachable.inv hreach
    cases hs with
    | client input rest c acts offered taken fresh => exact ih.stepClient hi offered taken fresh
    | server input rest v acts offered taken fresh => exact ih.stepServer offered taken

/-- A client that still uses a session the server dropped will be told. -/
def Told (s : State R C I) : Prop :=
  .serverDid .silence ∉ s.log → ∀ r, .serverDid (.install r) ∈ s.log →
    s.server.session ≠ some r → s.client.registration.current = some r →
    ∃ f, .fallback f ∈ s.s2c

namespace Told

theorem initial : Told (State.initial : State R C I) := by
  intro _ r hr
  cases hr

theorem step (h : Told s) (hi : Inv s) (hy : Yielded s) (hs : Step cid s s') : Told s' := by
  intro hloud r hinstall hsession hcur
  cases hs with
  | client input rest c acts offered taken fresh =>
    rw [State.serverDid_afterClient] at hloud hinstall
    rcases taken.to_current hcur with hold | hw
    · obtain ⟨f, hf⟩ := h hloud r hinstall hsession hold
      rcases offered.mem_or hf with hrest | rfl
      · exact ⟨f, hrest⟩
      · obtain ⟨-, hyield⟩ := taken.of_peerFallback
        have hnone := (hyield (hi.drawn.clientNew f offered.head)).1
        simp [hnone] at hcur
    · exact absurd hw (hi.not_written fresh hinstall)
  | server input rest v acts offered taken fresh =>
    rw [State.serverDid_afterServer, not_or] at hloud
    have hlast := hi.registrations.current r hcur
    rcases State.serverDid_afterServer.mp hinstall with hinstall | hnew
    · by_cases hwas : s.server.session = some r
      · rcases taken.from_session hwas with hstay | ⟨r', hr'⟩ | ⟨-, -, hsilent | ⟨f, -, hf⟩⟩
        · exact absurd hstay hsession
        · exact absurd hr' (hi.not_installed offered taken hlast hinstall r')
        · exact absurd hsilent hloud.2
        · refine ⟨f, State.mem_s2c_afterServer.mpr ?_⟩
          rcases hf with hpending | hw
          · -- the request is not repeated: it has not come back yet
            rcases hi.tokens.of_serverPending hpending with hs2c | hc2s
            · exact .inl hs2c
            · exact absurd hcur (hy.behind f r hc2s hwas)
          · exact .inr hw
      · obtain ⟨f, hf⟩ := h hloud.1 r hinstall hwas hcur
        exact ⟨f, State.mem_s2c_afterServer.mpr (.inl hf)⟩
    · exact absurd (taken.of_install hnew).2.2 hsession

end Told

theorem Reachable.told (h : Reachable cid s) : Told s := by
  induction h with
  | refl => exact .initial
  | tail hreach hs ih => exact ih.step (Reachable.inv hreach) (Reachable.yielded hreach) hs

/-! ## Replies to earlier registrations -/

/-- Every registration without an answer, and every answer on its way, is about
the connection id of `r`. -/
def Unmixed (cid : R → C) (s : State R C I) (r : R) : Prop :=
  (∀ r', .register r' ∈ s.c2s → cid r' = cid r) ∧ ∀ k, .registerOk k ∈ s.s2c → k = cid r

/-- The answers that the client can get are about the registration it waits
for. -/
def Answers (cid : R → C) (s : State R C I) : Prop :=
  ∀ r, s.client.registration = .inFlight r → Unmixed cid s r

namespace Answers

theorem initial : Answers cid (State.initial : State R C I) := by
  intro r hr
  cases hr

theorem step (h : Answers cid s) (hs : Step cid s s')
    (hok : ∀ r, s'.client.registration = .inFlight r → s.client.registration = .none →
      Unmixed cid s r) : Answers cid s' := by
  intro r hr
  cases hs with
  | client input rest c acts offered taken fresh =>
    have hold : Unmixed cid s r := by
      rcases taken.to_inFlight hr with hold | hw
      · exact h r hold
      · exact hok r hr (taken.of_register hw).1
    refine ⟨fun r' hr' => ?_, fun k hk => hold.2 k (offered.mem hk)⟩
    rcases State.mem_c2s_afterClient.mp hr' with hr' | hw
    · exact hold.1 r' hr'
    · obtain ⟨-, rfl⟩ := taken.of_register hw
      obtain rfl : r' = r := by simpa using hr
      rfl
  | server input rest v acts offered taken fresh =>
    obtain ⟨hreg, hreply⟩ := h r hr
    refine ⟨fun r' hr' => hreg r' (offered.mem hr'), fun k hk => ?_⟩
    rcases State.mem_s2c_afterServer.mp hk with hk | hw
    · exact hreply k hk
    · obtain ⟨r', rfl, rfl⟩ := taken.of_registerOk hw
      exact hreg r' offered.head

end Answers

end Slt.Upgrade
