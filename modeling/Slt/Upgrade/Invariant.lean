import Slt.Lib.Token
import Slt.Upgrade.StepLaws

/-!
# The invariant of the upgrade protocol

In every reachable state the two parties and the two streams fit together.
The argument follows single tokens around the ring client, `c2s`, server,
`s2c`, client: a fallback request and its acknowledgement are one token, and so
are the announcement of an attempt, the offer of the switch, its acceptance
and its confirmation. Streams are FIFO, so no token overtakes another, and a
fallback request cuts off every attempt ahead of it.
-/

namespace Slt.Upgrade

open Lib (Token)

variable {R C I : Type} {cid : R → C} {s s' : State R C I}

namespace Input.Taken

variable {M : Type} {input : Input M R I} {stream rest : List M} {sent : Probe R I → Prop}

theorem mem (h : input.Taken stream rest sent) {m : M} (hm : m ∈ rest) : m ∈ stream := by
  cases input with
  | tick => exact h ▸ hm
  | message m' => exact h ▸ List.mem_cons_of_mem _ hm
  | packet p => exact h.1 ▸ hm

theorem mem_or (h : input.Taken stream rest sent) {m : M} (hm : m ∈ stream) :
    m ∈ rest ∨ input = .message m := by
  cases input with
  | tick => exact .inl (h ▸ hm)
  | message m' =>
    rcases List.mem_cons.mp (show m ∈ m' :: rest from h ▸ hm) with rfl | hm
    · exact .inr rfl
    · exact .inl hm
  | packet p => exact .inl (h.1 ▸ hm)

theorem head {m : M} (h : (message m : Input M R I).Taken stream rest sent) : m ∈ stream :=
  h ▸ List.mem_cons_self

theorem head_pairwise {P : M → M → Prop} {m : M}
    (h : (message m : Input M R I).Taken stream rest sent) (hp : stream.Pairwise P) :
    ∀ b ∈ rest, P m b :=
  (List.pairwise_cons.mp (show (m :: rest).Pairwise P from h ▸ hp)).1

theorem pairwise {P : M → M → Prop} (h : input.Taken stream rest sent) (hp : stream.Pairwise P) :
    rest.Pairwise P := by
  cases input with
  | tick => exact h ▸ hp
  | message m => exact (List.pairwise_cons.mp (show (m :: rest).Pairwise P from h ▸ hp)).2
  | packet p => exact h.1 ▸ hp

end Input.Taken

/-! ## The state after a step -/

theorem pairwise_written {M : Type} {P : M → M → Prop} {stream out : List M} {wrote : M → Prop}
    (hout : out = [] ∨ ∃ m, out = [m] ∧ wrote m) (hold : stream.Pairwise P)
    (hnew : ∀ m, wrote m → ∀ a ∈ stream, P a m) : (stream ++ out).Pairwise P := by
  rcases hout with rfl | ⟨m, rfl, hw⟩
  · rwa [List.append_nil]
  · rw [List.pairwise_append]
    refine ⟨hold, List.pairwise_singleton _ _, fun a ha b hb => ?_⟩
    cases List.mem_singleton.mp hb
    exact hnew m hw a ha

namespace State

section Client

variable {input : Input (ServerMessage C I) R I} {rest : List (ServerMessage C I)}
  {c : Client R I} {acts : List (ClientAction R I)}

@[simp] theorem mem_c2s_afterClient {m : ClientMessage R I} :
    m ∈ (s.afterClient input rest c acts).c2s ↔ m ∈ s.c2s ∨ .write m ∈ acts := by
  rw [afterClient, List.mem_append, mem_clientMessages]

@[simp] theorem clientDid_afterClient {a : ClientAction R I} :
    .clientDid a ∈ (s.afterClient input rest c acts).log ↔ .clientDid a ∈ s.log ∨ a ∈ acts := by
  simp [afterClient]

@[simp] theorem clientGot_afterClient {i : Input (ServerMessage C I) R I} :
    .clientGot i ∈ (s.afterClient input rest c acts).log ↔ .clientGot i ∈ s.log ∨ i = input := by
  simp [afterClient]

@[simp] theorem serverDid_afterClient {a : ServerAction R C I} :
    .serverDid a ∈ (s.afterClient input rest c acts).log ↔ .serverDid a ∈ s.log := by
  simp [afterClient]

@[simp] theorem serverGot_afterClient {i : Input (ClientMessage R I) R I} :
    .serverGot i ∈ (s.afterClient input rest c acts).log ↔ .serverGot i ∈ s.log := by
  simp [afterClient]

theorem pairwise_afterClient {P : ClientMessage R I → ClientMessage R I → Prop}
    (taken : ClientStep cid s.client input c acts) (hold : s.c2s.Pairwise P)
    (hnew : ∀ m, .write m ∈ acts → ∀ a ∈ s.c2s, P a m) :
    (s.afterClient input rest c acts).c2s.Pairwise P :=
  pairwise_written taken.messages hold hnew

@[simp] theorem client_afterClient : (s.afterClient input rest c acts).client = c := rfl
@[simp] theorem server_afterClient : (s.afterClient input rest c acts).server = s.server := rfl
@[simp] theorem s2c_afterClient : (s.afterClient input rest c acts).s2c = rest := rfl

end Client

section Server

variable {input : Input (ClientMessage R I) R I} {rest : List (ClientMessage R I)}
  {v : Server R I} {acts : List (ServerAction R C I)}

@[simp] theorem mem_s2c_afterServer {m : ServerMessage C I} :
    m ∈ (s.afterServer input rest v acts).s2c ↔ m ∈ s.s2c ∨ .write m ∈ acts := by
  rw [afterServer, List.mem_append, mem_serverMessages]

@[simp] theorem serverDid_afterServer {a : ServerAction R C I} :
    .serverDid a ∈ (s.afterServer input rest v acts).log ↔ .serverDid a ∈ s.log ∨ a ∈ acts := by
  simp [afterServer]

@[simp] theorem serverGot_afterServer {i : Input (ClientMessage R I) R I} :
    .serverGot i ∈ (s.afterServer input rest v acts).log ↔ .serverGot i ∈ s.log ∨ i = input := by
  simp [afterServer]

@[simp] theorem clientDid_afterServer {a : ClientAction R I} :
    .clientDid a ∈ (s.afterServer input rest v acts).log ↔ .clientDid a ∈ s.log := by
  simp [afterServer]

@[simp] theorem clientGot_afterServer {i : Input (ServerMessage C I) R I} :
    .clientGot i ∈ (s.afterServer input rest v acts).log ↔ .clientGot i ∈ s.log := by
  simp [afterServer]

theorem pairwise_afterServer {P : ServerMessage C I → ServerMessage C I → Prop}
    (taken : ServerStep cid s.server input v acts) (hold : s.s2c.Pairwise P)
    (hnew : ∀ m, .write m ∈ acts → ∀ a ∈ s.s2c, P a m) :
    (s.afterServer input rest v acts).s2c.Pairwise P :=
  pairwise_written taken.messages hold hnew

@[simp] theorem server_afterServer : (s.afterServer input rest v acts).server = v := rfl
@[simp] theorem client_afterServer : (s.afterServer input rest v acts).client = s.client := rfl
@[simp] theorem c2s_afterServer : (s.afterServer input rest v acts).c2s = rest := rfl

end Server

end State

/-! ## Each party by itself -/

structure Parties (s : State R C I) : Prop where
  inactive : (∀ r, s.client.registration ≠ .active r) →
    s.client.attempt = .idle ∧ s.client.udp = false
  committed : s.client.udp = true → s.client.attempt = .idle
  offered : s.server.switchSent = true → s.server.readySeen = true
  announced : s.server.readySeen = true → ∃ u, s.server.upgradeId = some u
  probed : s.server.probeSeen = true → ∃ u, s.server.upgradeId = some u

namespace Parties

theorem initial : Parties (State.initial : State R C I) := by
  constructor <;> simp [State.initial, Client.initial, Server.initial]

theorem stepClient (h : Parties s) {input : Input (ServerMessage C I) R I} {c : Client R I}
    {acts : List (ClientAction R I)} (taken : ClientStep cid s.client input c acts) :
    ((∀ r, c.registration ≠ .active r) → c.attempt = .idle ∧ c.udp = false) ∧
      (c.udp = true → c.attempt = .idle) := by
  have hpassive (hr : ∀ r, s.client.registration ≠ .active r) : ¬s.client.udp = true := by
    simp [(h.inactive hr).2]
  cases taken with
  | skip => exact ⟨h.inactive, h.committed⟩
  | probe => exact ⟨h.inactive, h.committed⟩
  | yielded => exact ⟨h.inactive, h.committed⟩
  | settled => exact ⟨h.inactive, h.committed⟩
  | register r idle => exact ⟨fun _ => h.inactive (by simp [idle]), h.committed⟩
  | expire r pending => exact ⟨fun _ => h.inactive (by simp [pending]), h.committed⟩
  | refused r pending => exact ⟨fun _ => h.inactive (by simp [pending]), h.committed⟩
  | registered r u n pending =>
    exact ⟨fun hr => absurd rfl (hr r), fun hu => absurd hu (hpassive (by simp [pending]))⟩
  | giveUp quiet => exact ⟨fun hr => ⟨rfl, (h.inactive hr).2⟩, fun _ => rfl⟩
  | retry r u n idle active tcp =>
    exact ⟨fun hr => absurd active (hr r), fun hu => absurd hu (by simp [tcp])⟩
  | echoed r u n probing active =>
    exact ⟨fun hr => absurd active (hr r), fun hu => absurd (h.committed hu) (by simp [probing])⟩
  | accept u n ready =>
    exact ⟨fun hr => absurd (h.inactive hr).1 (by simp [ready]),
      fun hu => absurd (h.committed hu) (by simp [ready])⟩
  | commit u awaiting =>
    exact ⟨fun hr => absurd (h.inactive hr).1 (by simp [awaiting]), fun _ => rfl⟩
  -- back to the stream, with no attempt
  | abandon => exact ⟨fun _ => ⟨rfl, rfl⟩, fun _ => rfl⟩
  | fallBack => exact ⟨fun _ => ⟨rfl, rfl⟩, fun _ => rfl⟩
  | unsent => exact ⟨fun _ => ⟨rfl, rfl⟩, fun _ => rfl⟩
  | yield => exact ⟨fun _ => ⟨rfl, rfl⟩, fun _ => rfl⟩

theorem stepServer (h : Parties s) {input : Input (ClientMessage R I) R I} {v : Server R I}
    {acts : List (ServerAction R C I)} (taken : ServerStep cid s.server input v acts) :
    (v.switchSent = true → v.readySeen = true) ∧
      (v.readySeen = true → ∃ u, v.upgradeId = some u) ∧
      (v.probeSeen = true → ∃ u, v.upgradeId = some u) := by
  cases taken with
  | skip => exact ⟨h.offered, h.announced, h.probed⟩
  | refuse => exact ⟨h.offered, h.announced, h.probed⟩
  | yielded => exact ⟨h.offered, h.announced, h.probed⟩
  | settled => exact ⟨h.offered, h.announced, h.probed⟩
  | probed p keys same =>
    -- a switch offered just now was offered on an announced attempt
    refine ⟨fun hswitch => ?_, h.announced, fun _ => ⟨_, same⟩⟩
    rcases Bool.or_eq_true_iff.mp hswitch with hbefore | hnow
    · exact h.offered hbefore
    · exact (Bool.and_eq_true_iff.mp hnow).2
  | interrupted p sent keys same => exact ⟨h.offered, h.announced, fun _ => ⟨_, same⟩⟩
  | announced u free => exact ⟨fun _ => rfl, fun _ => ⟨u, rfl⟩, fun _ => ⟨u, rfl⟩⟩
  | superseded => simp
  | install => simp
  | dropped => simp
  | switched => simp
  | failed => simp
  | yield => simp

theorem step (h : Parties s) (hs : Step cid s s') : Parties s' := by
  cases hs with
  | client input rest c acts offered taken fresh =>
    obtain ⟨hinactive, hcommitted⟩ := h.stepClient taken
    exact ⟨hinactive, hcommitted, h.offered, h.announced, h.probed⟩
  | server input rest v acts offered taken fresh =>
    obtain ⟨hoffered, hannounced, hprobed⟩ := h.stepServer taken
    exact ⟨h.inactive, h.committed, hoffered, hannounced, hprobed⟩

end Parties

/-! ## Fallback requests -/

@[simp] def ClientMessage.asks : ClientMessage R I → Option I
  | .fallback f => some f
  | _ => none

@[simp] def ClientMessage.consents : ClientMessage R I → Option I
  | .fallbackOk f => some f
  | _ => none

@[simp] def ServerMessage.asks : ServerMessage C I → Option I
  | .fallback f => some f
  | _ => none

@[simp] def ServerMessage.consents : ServerMessage C I → Option I
  | .fallbackOk f => some f
  | _ => none

theorem Input.Taken.token_out {M N : Type} {ask : M → Option I} {grant : N → Option I}
    {input : Input M R I} {stream rest : List M} {back : List N} {sent : Probe R I → Prop}
    {pending : Option I} (h : input.Taken stream rest sent)
    (ht : Token ask grant stream back pending) (hm : ∀ m, input = .message m → ask m = none) :
    Token ask grant rest back pending := by
  cases input with
  | tick => exact h ▸ ht
  | message m => exact (show Token ask grant (m :: rest) back pending from h ▸ ht).take_out (hm m rfl)
  | packet p => exact h.1 ▸ ht

theorem Input.Taken.token_back {M N : Type} {ask : N → Option I} {grant : M → Option I}
    {input : Input M R I} {stream rest : List M} {out : List N} {sent : Probe R I → Prop}
    {pending : Option I} (h : input.Taken stream rest sent)
    (ht : Token ask grant out stream pending) (hm : ∀ m, input = .message m → grant m = none) :
    Token ask grant out rest pending := by
  cases input with
  | tick => exact h ▸ ht
  | message m => exact (show Token ask grant out (m :: rest) pending from h ▸ ht).take_back (hm m rfl)
  | packet p => exact h.1 ▸ ht

/-- A pending request is in one stream or its acknowledgement in the other,
and there are no others. -/
structure Tokens (s : State R C I) : Prop where
  client : Token ClientMessage.asks ServerMessage.consents s.c2s s.s2c s.client.pending
  server : Token ServerMessage.asks ClientMessage.consents s.s2c s.c2s s.server.pending

namespace Tokens

theorem initial : Tokens (State.initial : State R C I) := ⟨.empty, .empty⟩

section Client

variable {input : Input (ServerMessage C I) R I} {rest : List (ServerMessage C I)}
  {c : Client R I} {acts : List (ClientAction R I)}

theorem stepClient (h : Tokens s)
    (offered : input.Taken s.s2c rest fun p => .serverDid (.echo p) ∈ s.log)
    (taken : ClientStep cid s.client input c acts)
    (calm : ∀ u, s.client.attempt = .awaiting u → s.client.pending = none) :
    Tokens (s.afterClient input rest c acts) := by
  obtain ⟨h1, h2⟩ := h
  have back (hm : ∀ f, input ≠ .message (.fallbackOk f)) :
      Token ClientMessage.asks ServerMessage.consents s.c2s rest s.client.pending :=
    offered.token_back h1 fun m hi => by cases m <;> simp_all
  have out (hm : ∀ f, input ≠ .message (.fallback f)) :
      Token ServerMessage.asks ClientMessage.consents rest s.c2s s.server.pending :=
    offered.token_out h2 fun m hi => by cases m <;> simp_all
  -- A request is written only where none is open; otherwise the open one stands.
  have requested (f : I) (hi : input = .tick) :
      Token ClientMessage.asks ServerMessage.consents
          (s.c2s ++ (s.client.requests f).filterMap ClientAction.message) rest
          (some (s.client.pending.getD f)) ∧
        Token ServerMessage.asks ClientMessage.consents rest
          (s.c2s ++ (s.client.requests f).filterMap ClientAction.message) s.server.pending := by
    subst hi
    have hback := back (by simp)
    have hout := out (by simp)
    cases hp : s.client.pending with
    | none =>
      rw [hp] at hback
      simpa [Client.requests, hp] using And.intro (hback.request rfl) (hout.write_back rfl)
    | some g =>
      rw [hp] at hback
      simpa [Client.requests, hp] using And.intro hback hout
  -- Steps that neither ask nor consent move no token.
  have plain (hpending : c.pending = s.client.pending)
      (hm : ∀ f, .write (.fallback f) ∉ acts ∧ .write (.fallbackOk f) ∉ acts)
      (hok : ∀ f, input ≠ .message (.fallbackOk f)) (hask : ∀ f, input ≠ .message (.fallback f)) :
      Tokens (s.afterClient input rest c acts) := by
    rcases taken.messages with hnil | ⟨m, hone, hw⟩
    · refine ⟨?_, ?_⟩ <;> simp only [State.afterClient, hnil, hpending, List.append_nil]
      · exact back hok
      · exact out hask
    · have hm1 : m.asks = none := by cases m <;> simp_all
      have hm2 : m.consents = none := by cases m <;> simp_all
      refine ⟨?_, ?_⟩ <;> simp only [State.afterClient, hone, hpending]
      · exact (back hok).write_out hm1
      · exact (out hask).write_back hm2
  cases taken with
  | skip _ ignored =>
    refine plain rfl (by simp) ?_ ?_
    -- An answer that is on its way back is to the open request, so it is not ignored.
    · rintro f rfl
      exact ignored (h1.of_mem_back offered.head rfl)
    · rintro f rfl
      exact ignored
  | expire r pending => exact plain rfl (by simp) (by simp) (by simp)
  | refused r pending => exact plain rfl (by simp) (by simp) (by simp)
  | probe r u n probing active => exact plain rfl (by simp) (by simp) (by simp)
  | giveUp quiet => exact plain rfl (by simp) (by simp) (by simp)
  | retry r u n idle active tcp => exact plain rfl (by simp) (by simp) (by simp)
  | registered r u n pending => exact plain rfl (by simp) (by simp) (by simp)
  -- The commit clears the request, but `calm` says that there is none.
  | commit u awaiting => exact plain (calm u awaiting).symm (by simp) (by simp) (by simp)
  | register r idle => exact plain rfl (by simp) (by simp) (by simp)
  | echoed r u n probing active => exact plain rfl (by simp) (by simp) (by simp)
  | accept u n ready => exact plain rfl (by simp) (by simp) (by simp)
  | abandon u f awaiting => exact ⟨(requested f rfl).1, (requested f rfl).2⟩
  | fallBack f => exact ⟨(requested f rfl).1, (requested f rfl).2⟩
  | unsent r u n f probing active => exact ⟨(requested f rfl).1, (requested f rfl).2⟩
  -- The request is taken and answered in one step.
  | yield f fresh =>
    rw [show s.s2c = .fallback f :: rest from offered] at h2
    exact ⟨(back (by simp)).write_out rfl, h2.turn rfl rfl⟩
  | yielded f seen =>
    rw [show s.s2c = .fallback f :: rest from offered] at h2
    exact ⟨(back (by simp)).write_out rfl, h2.turn rfl rfl⟩
  -- The answer is taken and nothing is open any more.
  | settled f asked =>
    rw [show s.s2c = .fallbackOk f :: rest from offered] at h1
    refine ⟨?_, ?_⟩ <;> simp only [State.afterClient, List.filterMap_nil, List.append_nil]
    · exact h1.settle rfl
    · exact out (by simp)

end Client

section Server

variable {input : Input (ClientMessage R I) R I} {rest : List (ClientMessage R I)}
  {v : Server R I} {acts : List (ServerAction R C I)}

theorem stepServer (h : Tokens s)
    (offered : input.Taken s.c2s rest fun p => .clientDid (.probe p) ∈ s.log)
    (taken : ServerStep cid s.server input v acts) :
    Tokens (s.afterServer input rest v acts) := by
  obtain ⟨h1, h2⟩ := h
  have back (hm : ∀ f, input ≠ .message (.fallbackOk f)) :
      Token ServerMessage.asks ClientMessage.consents s.s2c rest s.server.pending :=
    offered.token_back h2 fun m hi => by cases m <;> simp_all
  have out (hm : ∀ f, input ≠ .message (.fallback f)) :
      Token ClientMessage.asks ServerMessage.consents rest s.s2c s.client.pending :=
    offered.token_out h1 fun m hi => by cases m <;> simp_all
  -- a message that is neither a request nor an acknowledgement changes nothing
  have plain (hpending : v.pending = s.server.pending)
      (hm : ∀ f, .write (.fallback f) ∉ acts ∧ .write (.fallbackOk f) ∉ acts)
      (hok : ∀ f, input ≠ .message (.fallbackOk f)) (hask : ∀ f, input ≠ .message (.fallback f)) :
      Tokens (s.afterServer input rest v acts) := by
    rcases taken.messages with hnil | ⟨m, hone, hw⟩
    · refine ⟨?_, ?_⟩ <;> simp only [State.afterServer, hnil, hpending, List.append_nil]
      · exact out hask
      · exact back hok
    · have hm1 : m.asks = none := by cases m <;> simp_all
      have hm2 : m.consents = none := by cases m <;> simp_all
      refine ⟨?_, ?_⟩ <;> simp only [State.afterServer, hone, hpending]
      · exact (out hask).write_back hm2
      · exact (back hok).write_out hm1
  cases taken with
  | skip _ ignored =>
    refine plain rfl (by simp) ?_ ?_
    · rintro f rfl
      exact ignored (h2.of_mem_back offered.head rfl)
    · rintro f rfl
      exact ignored
  | install r tcp => exact plain rfl (by simp) (by simp) (by simp)
  | refuse r => exact plain rfl (by simp) (by simp) (by simp)
  | probed p keys same => exact plain rfl (by simp) (by simp) (by simp)
  | interrupted p sent keys same => exact plain rfl (by simp) (by simp) (by simp)
  | superseded p sent keys other => exact plain rfl (by simp) (by simp) (by simp)
  | dropped p sent keys => exact plain rfl (by simp) (by simp) (by simp)
  | announced u free => exact plain rfl (by simp) (by simp) (by simp)
  | switched u same offered => exact plain rfl (by simp) (by simp) (by simp)
  | failed f =>
    have hback := back (by simp)
    have hout := out (by simp)
    have hretires : (s.server.retires : List (ServerAction R C I)).filterMap
        ServerAction.message = [] := by
      cases hs : s.server.session <;> simp [Server.retires, hs]
    refine ⟨?_, ?_⟩ <;>
      simp only [State.afterServer, List.filterMap_append, hretires, List.nil_append] <;>
      cases hp : s.server.pending <;> rw [hp] at hback
    · simpa [Server.requests, hp] using hout.write_back rfl
    · simpa [Server.requests, hp] using hout
    · simpa [Server.requests, hp] using hback.request rfl
    · simpa [Server.requests, hp] using hback
  | yield f fresh =>
    rw [show s.c2s = .fallback f :: rest from offered] at h1
    exact ⟨h1.turn rfl rfl, (back (by simp)).write_out rfl⟩
  | yielded f seen =>
    rw [show s.c2s = .fallback f :: rest from offered] at h1
    exact ⟨h1.turn rfl rfl, (back (by simp)).write_out rfl⟩
  | settled f asked =>
    rw [show s.c2s = .fallbackOk f :: rest from offered] at h2
    refine ⟨?_, ?_⟩ <;> simp only [State.afterServer, List.filterMap_nil, List.append_nil]
    · exact out (by simp)
    · exact h2.settle rfl

end Server

end Tokens

/-! ## What was written before -/

/-- Every message in a stream is on record, and a fallback request in a stream
is not the one that its reader yielded to last. -/
structure Drawn (s : State R C I) : Prop where
  c2s : ∀ m ∈ s.c2s, .clientDid (.write m) ∈ s.log
  s2c : ∀ m ∈ s.s2c, .serverDid (.write m) ∈ s.log
  serverPeer : ∀ f, s.server.lastPeer = some f → .clientDid (.write (.fallback f)) ∈ s.log
  clientPeer : ∀ f, s.client.lastPeer = some f → .serverDid (.write (.fallback f)) ∈ s.log
  serverNew : ∀ f, .fallback f ∈ s.c2s → s.server.lastPeer ≠ some f
  clientNew : ∀ f, .fallback f ∈ s.s2c → s.client.lastPeer ≠ some f

namespace Drawn

theorem initial : Drawn (State.initial : State R C I) := by
  constructor <;> simp [State.initial, Client.initial, Server.initial]

theorem step (h : Drawn s) (ht : Tokens s) (hs : Step cid s s') : Drawn s' := by
  cases hs with
  | client input rest c acts offered taken fresh =>
    refine ⟨?_, ?_, ?_, ?_, ?_, ?_⟩
    · intro m hm
      rw [State.clientDid_afterClient]
      exact (State.mem_c2s_afterClient.mp hm).imp (h.c2s m) id
    · intro m hm
      rw [State.serverDid_afterClient]
      exact h.s2c m (offered.mem hm)
    · intro f hf
      rw [State.clientDid_afterClient]
      exact .inl (h.serverPeer f hf)
    · intro f hf
      rw [State.serverDid_afterClient]
      rcases taken.lastPeer with hsame | ⟨g, rfl, -, hg⟩
      · exact h.clientPeer f (hsame ▸ hf)
      · cases hg.symm.trans hf
        exact h.s2c _ offered.head
    · intro f hf
      rcases State.mem_c2s_afterClient.mp hf with hf | hf
      · exact h.serverNew f hf
      · exact fun hpeer => fresh _ hf (h.serverPeer f hpeer)
    · intro f hf
      rcases taken.lastPeer with hsame | ⟨g, rfl, -, hg⟩
      · rw [State.client_afterClient, hsame]
        exact h.clientNew f (offered.mem hf)
      · -- the request just answered was the only one
        have htoken := ht.server
        rw [show s.s2c = .fallback g :: rest from offered] at htoken
        have := htoken.alone rfl _ hf
        simp at this
  | server input rest v acts offered taken fresh =>
    refine ⟨?_, ?_, ?_, ?_, ?_, ?_⟩
    · intro m hm
      rw [State.clientDid_afterServer]
      exact h.c2s m (offered.mem hm)
    · intro m hm
      rw [State.serverDid_afterServer]
      exact (State.mem_s2c_afterServer.mp hm).imp (h.s2c m) id
    · intro f hf
      rw [State.clientDid_afterServer]
      rcases taken.lastPeer with hsame | ⟨g, rfl, -, hg⟩
      · exact h.serverPeer f (hsame ▸ hf)
      · cases hg.symm.trans hf
        exact h.c2s _ offered.head
    · intro f hf
      rw [State.serverDid_afterServer]
      exact .inl (h.clientPeer f hf)
    · intro f hf
      rcases taken.lastPeer with hsame | ⟨g, rfl, -, hg⟩
      · rw [State.server_afterServer, hsame]
        exact h.serverNew f (offered.mem hf)
      · have htoken := ht.client
        rw [show s.c2s = .fallback g :: rest from offered] at htoken
        have := htoken.alone rfl _ hf
        simp at this
    · intro f hf
      rcases State.mem_s2c_afterServer.mp hf with hf | hf
      · exact h.clientNew f hf
      · exact fun hpeer => fresh _ hf (h.clientPeer f hpeer)

end Drawn

/-! ## Registrations -/

def ClientMessage.registration : ClientMessage R I → Option R
  | .register r => some r
  | _ => none

def Event.clientWrote : Event R C I → Option (ClientMessage R I)
  | .clientDid a => a.message
  | _ => none

def Event.serverRead : Event R C I → Option (ClientMessage R I)
  | .serverGot (.message m) => some m
  | _ => none

namespace State

/-- The client messages in the order they were written. -/
def sent (s : State R C I) : List (ClientMessage R I) := s.log.filterMap Event.clientWrote

/-- The client messages the server has taken, in order. -/
def received (s : State R C I) : List (ClientMessage R I) := s.log.filterMap Event.serverRead

def registered (s : State R C I) : List R := s.sent.filterMap ClientMessage.registration

theorem mem_sent {m : ClientMessage R I} : m ∈ s.sent ↔ .clientDid (.write m) ∈ s.log := by
  rw [sent, List.mem_filterMap]
  constructor
  · rintro ⟨e, he, hm⟩
    cases e with
    | clientDid a => cases a <;> simp_all [Event.clientWrote]
    | _ => simp [Event.clientWrote] at hm
  · exact fun h => ⟨_, h, rfl⟩

theorem mem_registered {r : R} : r ∈ s.registered ↔ .clientDid (.write (.register r)) ∈ s.log := by
  rw [registered, List.mem_filterMap, ← mem_sent]
  constructor
  · rintro ⟨m, hm, hr⟩
    cases m <;> simp_all [ClientMessage.registration]
  · exact fun h => ⟨_, h, rfl⟩

variable {input : Input (ServerMessage C I) R I} {rest : List (ServerMessage C I)} {c : Client R I}
  {acts : List (ClientAction R I)}

theorem sent_afterClient :
    (s.afterClient input rest c acts).sent = s.sent ++ acts.filterMap ClientAction.message := by
  simp only [sent, afterClient, List.filterMap_append, List.filterMap_cons, List.filterMap_map]
  rfl

theorem received_afterClient : (s.afterClient input rest c acts).received = s.received := by
  simp [received, afterClient, Event.serverRead, List.filterMap_cons]

theorem sent_afterServer {input : Input (ClientMessage R I) R I}
    {rest : List (ClientMessage R I)} {v : Server R I} {acts : List (ServerAction R C I)} :
    (s.afterServer input rest v acts).sent = s.sent := by
  simp [sent, afterServer, Event.clientWrote, List.filterMap_cons]

theorem received_afterServer {input : Input (ClientMessage R I) R I}
    {rest : List (ClientMessage R I)} {v : Server R I} {acts : List (ServerAction R C I)} :
    (s.afterServer input rest v acts).received =
      s.received ++ (Event.serverRead (.serverGot input : Event R C I)).toList := by
  cases input <;> simp [received, afterServer, Event.serverRead, List.filterMap_cons]

end State

/-- The stream is FIFO, the client works with the last registration it wrote,
and the server only with registrations it has taken from the stream. -/
structure Registrations (s : State R C I) : Prop where
  fifo : s.sent = s.received ++ s.c2s
  nodup : s.registered.Nodup
  current : ∀ r, s.client.registration.current = some r → s.registered.getLast? = some r
  installed : ∀ r, .serverDid (.install r) ∈ s.log → .register r ∈ s.received
  session : ∀ r, s.server.session = some r → .serverDid (.install r) ∈ s.log
  echoed : ∀ p, .serverDid (.echo p) ∈ s.log → .serverDid (.install p.registration) ∈ s.log

namespace Registrations

theorem initial : Registrations (State.initial : State R C I) := by
  constructor <;>
    simp [State.initial, Client.initial, Server.initial, State.sent, State.received,
      State.registered]

theorem registered_afterClient (taken : ClientStep cid s.client input c acts) :
    (∃ r, .write (.register r) ∈ acts ∧
        (s.afterClient input rest c acts).registered = s.registered ++ [r]) ∨
      (∀ r, .write (.register r) ∉ acts) ∧
        (s.afterClient input rest c acts).registered = s.registered := by
  simp only [State.registered, State.sent_afterClient, List.filterMap_append]
  rcases taken.messages with hnil | ⟨m, hone, hw⟩
  · refine .inr ⟨fun r hr => ?_, by rw [hnil, List.filterMap_nil, List.append_nil]⟩
    simpa [hnil] using mem_clientMessages.mpr hr
  · rw [hone]
    cases m with
    | register r => exact .inl ⟨r, hw, rfl⟩
    | _ =>
      refine .inr ⟨fun r hr => ?_, List.append_nil _⟩
      simpa [hone] using mem_clientMessages.mpr hr

theorem step (h : Registrations s) (hs : Step cid s s') : Registrations s' := by
  obtain ⟨fifo, nodup, current, installed, session, echoed⟩ := h
  cases hs with
  | client input rest c acts offered taken fresh =>
    refine ⟨?_, ?_, ?_, ?_, ?_, ?_⟩
    · rw [State.sent_afterClient, State.received_afterClient, fifo, List.append_assoc]
      rfl
    · rcases registered_afterClient taken with ⟨r, hw, hreg⟩ | ⟨-, hreg⟩
      · rw [hreg]
        refine List.nodup_append.mpr ⟨nodup, List.pairwise_singleton _ r, ?_⟩
        rintro a ha b hb rfl
        cases List.mem_singleton.mp hb
        exact fresh _ hw (State.mem_registered.mp ha)
      · rwa [hreg]
    · intro r hr
      rcases registered_afterClient taken with ⟨r', hw, hreg⟩ | ⟨hno, hreg⟩
      · obtain ⟨-, rfl⟩ := taken.of_register hw
        obtain rfl : r' = r := by simpa using hr
        rw [hreg, List.getLast?_concat]
      · rw [hreg]
        exact current r ((taken.to_current hr).resolve_right (hno r))
    · intro r hr
      rw [State.received_afterClient]
      exact installed r (by simpa using hr)
    · intro r hr
      simpa using session r hr
    · intro p hp
      simpa using echoed p (by simpa using hp)
  | server input rest v acts offered taken fresh =>
    refine ⟨?_, ?_, ?_, ?_, ?_, ?_⟩
    · rw [State.sent_afterServer, State.received_afterServer, fifo]
      cases input with
      | tick => simpa [Event.serverRead] using (show s.c2s = rest from offered)
      | message m => simpa [Event.serverRead] using (show s.c2s = m :: rest from offered)
      | packet p => simpa [Event.serverRead] using offered.1
    · rwa [State.registered, State.sent_afterServer]
    · rw [State.registered, State.sent_afterServer]
      exact current
    · intro r hr
      rw [State.received_afterServer, List.mem_append]
      rcases State.serverDid_afterServer.mp hr with hr | hr
      · exact .inl (installed r hr)
      · obtain ⟨rfl, -, -⟩ := taken.of_install hr
        exact .inr (by simp [Event.serverRead])
    · intro r hr
      rw [State.serverDid_afterServer]
      exact (taken.to_session hr).imp (session r) id
    · intro p hp
      rw [State.serverDid_afterServer]
      rcases State.serverDid_afterServer.mp hp with hp | hp
      · exact .inl (echoed p hp)
      · exact .inl (session _ (taken.of_echo hp).2)

/-- Once the server has taken the last registration, no other is on its way. -/
theorem settled (h : Registrations s) {r : R} (hlast : s.registered.getLast? = some r)
    (hrec : .register r ∈ s.received) (r' : R) : .register r' ∉ s.c2s := by
  intro hr'
  have hsplit : s.registered = s.received.filterMap ClientMessage.registration ++
      s.c2s.filterMap ClientMessage.registration := by
    rw [State.registered, h.fifo, List.filterMap_append]
  have hnodup := h.nodup
  rw [hsplit] at hlast hnodup
  have hne : s.c2s.filterMap ClientMessage.registration ≠ [] :=
    List.ne_nil_of_mem (List.mem_filterMap.mpr ⟨_, hr', rfl⟩)
  rw [List.getLast?_append_of_ne_nil _ hne] at hlast
  exact (List.nodup_append.mp hnodup).2.2 r (List.mem_filterMap.mpr ⟨_, hrec, rfl⟩) r
    (List.mem_of_getLast? hlast) rfl

end Registrations

end Slt.Upgrade
