import Slt.Upgrade.Invariant

/-!
# The handshake and what cuts it off

An attempt announces itself once. From then on its token is in one place at a
time, so an offer or an acceptance on its way means that the announcement is
behind it. A fallback request of the client is behind every announcement of
the client's present attempt, and one of the server is behind every offer and
acceptance that the server would still act on.
-/

namespace Slt.Upgrade

open Lib (Token)

variable {R C I : Type} {cid : R → C} {s s' : State R C I}

/-! ## Identifiers in use were drawn -/

@[simp] def Attempt.upgradeId : Attempt I → Option I
  | .idle => none
  | .probing u _ => some u
  | .ready u _ => some u
  | .awaiting u => some u

structure Started (s : State R C I) : Prop where
  attempt : ∀ u, s.client.attempt.upgradeId = some u → .clientDid (.start u) ∈ s.log
  probe : ∀ p, .clientDid (.probe p) ∈ s.log → .clientDid (.start p.upgradeId) ∈ s.log
  ready : ∀ u, .ready u ∈ s.c2s → .clientDid (.start u) ∈ s.log
  ack : ∀ u, .ack u ∈ s.c2s → .clientDid (.start u) ∈ s.log
  server : ∀ u, s.server.upgradeId = some u → .clientDid (.start u) ∈ s.log
  switchTo : ∀ u, .switchTo u ∈ s.s2c → .clientDid (.start u) ∈ s.log
  switchOk : ∀ u, .switchOk u ∈ s.s2c → .clientDid (.start u) ∈ s.log

namespace Started

theorem initial : Started (State.initial : State R C I) := by
  constructor <;> simp [State.initial, Client.initial, Server.initial]

section Client

variable {input : Input (ServerMessage C I) R I} {rest : List (ServerMessage C I)}
  {c : Client R I} {acts : List (ClientAction R I)}

theorem stepClient (h : Started s)
    (offered : input.Taken s.s2c rest fun p => .serverDid (.echo p) ∈ s.log)
    (taken : ClientStep cid s.client input c acts) :
    Started (s.afterClient input rest c acts) := by
  constructor <;> simp only [State.clientDid_afterClient]
  case attempt =>
    intro u hu
    cases ha : c.attempt with
    | idle => simp [ha] at hu
    | probing u' n =>
      obtain rfl : u' = u := by simpa [ha] using hu
      exact (taken.to_probing ha).imp (fun hold => h.attempt u' (by simp [hold])) id
    | ready u' n =>
      obtain rfl : u' = u := by simpa [ha] using hu
      rcases taken.to_ready ha with hold | ⟨hold, -⟩ <;>
        exact .inl (h.attempt u' (by simp [hold]))
    | awaiting u' =>
      obtain rfl : u' = u := by simpa [ha] using hu
      rcases taken.to_awaiting ha with hold | hnew
      · exact .inl (h.attempt u' (by simp [hold]))
      · obtain ⟨-, ⟨n, hold⟩, -⟩ := taken.of_ack hnew
        exact .inl (h.attempt u' (by simp [hold]))
  case probe =>
    rintro p (hp | hp)
    · exact .inl (h.probe p hp)
    · exact .inl (h.attempt _ (by simp [(taken.of_probe hp).1]))
  case ready =>
    intro u hu
    rcases State.mem_c2s_afterClient.mp hu with hu | hu
    · exact .inl (h.ready u hu)
    · obtain ⟨r, n, -, hold, -⟩ := taken.of_ready hu
      exact .inl (h.attempt u (by simp [hold]))
  case ack =>
    intro u hu
    rcases State.mem_c2s_afterClient.mp hu with hu | hu
    · exact .inl (h.ack u hu)
    · obtain ⟨-, ⟨n, hold⟩, -⟩ := taken.of_ack hu
      exact .inl (h.attempt u (by simp [hold]))
  case server => exact fun u hu => .inl (h.server u hu)
  case switchTo => exact fun u hu => .inl (h.switchTo u (offered.mem hu))
  case switchOk => exact fun u hu => .inl (h.switchOk u (offered.mem hu))

end Client

section Server

variable {input : Input (ClientMessage R I) R I} {rest : List (ClientMessage R I)}
  {v : Server R I} {acts : List (ServerAction R C I)}

theorem stepServer (h : Started s)
    (offered : input.Taken s.c2s rest fun p => .clientDid (.probe p) ∈ s.log)
    (taken : ServerStep cid s.server input v acts) :
    Started (s.afterServer input rest v acts) := by
  have hserver : ∀ u, v.upgradeId = some u → .clientDid (.start u) ∈ s.log := by
    intro u hu
    rcases taken.to_upgradeId hu with hold | rfl | ⟨p, rfl, rfl⟩
    · exact h.server u hold
    · exact h.ready u offered.head
    · exact h.probe p offered.2
  constructor <;> simp only [State.clientDid_afterServer]
  case attempt => exact h.attempt
  case probe => exact h.probe
  case ready => exact fun u hu => h.ready u (offered.mem hu)
  case ack => exact fun u hu => h.ack u (offered.mem hu)
  case server => exact hserver
  case switchTo =>
    intro u hu
    rcases State.mem_s2c_afterServer.mp hu with hu | hu
    · exact h.switchTo u hu
    · exact hserver u (taken.of_switchTo hu).1.1
  case switchOk =>
    intro u hu
    rcases State.mem_s2c_afterServer.mp hu with hu | hu
    · exact h.switchOk u hu
    · exact h.server u (taken.of_switchOk hu).2.1

end Server

theorem step (h : Started s) (hs : Step cid s s') : Started s' := by
  cases hs with
  | client input rest c acts offered taken fresh => exact h.stepClient offered taken
  | server input rest v acts offered taken fresh => exact h.stepServer offered taken

end Started

/-! ## The token of an attempt -/

structure Handshake (s : State R C I) : Prop where
  /-- Nothing is known of an attempt before it is announced. -/
  probing : ∀ u n, s.client.attempt = .probing u n → .ready u ∉ s.c2s ∧
    ¬ s.server.Follows u ∧ .switchTo u ∉ s.s2c ∧ .ack u ∉ s.c2s ∧ .switchOk u ∉ s.s2c
  announced : ∀ u n, s.client.attempt = .ready u n → .ack u ∉ s.c2s ∧ .switchOk u ∉ s.s2c
  heard : ∀ u, s.server.Follows u ∨ .switchTo u ∈ s.s2c ∨ .ack u ∈ s.c2s → .ready u ∉ s.c2s
  readyOnce : s.c2s.Pairwise fun a b => ∀ u, a = .ready u → b ≠ .ready u
  ackOnce : s.c2s.Pairwise fun a b => ∀ u, a = .ack u → b ≠ .ack u
  confirmed : ∀ u, .switchOk u ∈ s.s2c → .ack u ∉ s.c2s

namespace Handshake

theorem initial : Handshake (State.initial : State R C I) := by
  constructor <;> simp [State.initial, Client.initial, Server.initial, Server.Follows]

section Client

variable {input : Input (ServerMessage C I) R I} {rest : List (ServerMessage C I)}
  {c : Client R I} {acts : List (ClientAction R I)}

theorem stepClient (h : Handshake s) (hst : Started s)
    (offered : input.Taken s.s2c rest fun p => .serverDid (.echo p) ∈ s.log)
    (taken : ClientStep cid s.client input c acts) (fresh : ∀ a ∈ acts, s.FreshClient a) :
    Handshake (s.afterClient input rest c acts) := by
  constructor
  case probing =>
    intro u n ha
    -- an attempt that starts now has an identifier that nobody has seen
    have hquiet : .ready u ∉ s.c2s ∧ ¬ s.server.Follows u ∧ .switchTo u ∉ s.s2c ∧
        .ack u ∉ s.c2s ∧ .switchOk u ∉ s.s2c := by
      rcases taken.to_probing ha with hold | hnew
      · exact h.probing u n hold
      · have hfresh := fresh _ hnew
        exact ⟨fun hm => hfresh (hst.ready u hm), fun hf => hfresh (hst.server u hf.1),
          fun hm => hfresh (hst.switchTo u hm), fun hm => hfresh (hst.ack u hm),
          fun hm => hfresh (hst.switchOk u hm)⟩
    obtain ⟨hready, hfollows, hto, hack, hok⟩ := hquiet
    refine ⟨?_, hfollows, fun hm => hto (offered.mem hm), ?_, fun hm => hok (offered.mem hm)⟩
    · rw [State.mem_c2s_afterClient]
      rintro (hm | hm)
      · exact hready hm
      · obtain ⟨r, n', -, -, -, rfl⟩ := taken.of_ready hm
        cases ha
    · rw [State.mem_c2s_afterClient]
      rintro (hm | hm)
      · exact hack hm
      · obtain ⟨-, -, rfl, -⟩ := taken.of_ack hm
        cases ha
  case announced =>
    intro u n ha
    have hquiet : .ack u ∉ s.c2s ∧ .switchOk u ∉ s.s2c := by
      rcases taken.to_ready ha with hold | ⟨hold, -⟩
      · exact h.announced u n hold
      · exact (h.probing u n hold).2.2.2
    refine ⟨?_, fun hm => hquiet.2 (offered.mem hm)⟩
    rw [State.mem_c2s_afterClient]
    rintro (hm | hm)
    · exact hquiet.1 hm
    · obtain ⟨-, -, rfl, -⟩ := taken.of_ack hm
      cases ha
  case heard =>
    intro u hu hm
    rcases State.mem_c2s_afterClient.mp hm with hm | hm
    · refine h.heard u ?_ hm
      rcases hu with hu | hu | hu
      · exact .inl hu
      · exact .inr (.inl (offered.mem hu))
      · rcases State.mem_c2s_afterClient.mp hu with hu | hu
        · exact .inr (.inr hu)
        · obtain ⟨rfl, -, -⟩ := taken.of_ack hu
          exact .inr (.inl offered.head)
    · obtain ⟨r, n, -, hold, -, rfl⟩ := taken.of_ready hm
      obtain ⟨-, hfollows, hto, hack, -⟩ := h.probing u n hold
      rcases hu with hu | hu | hu
      · exact hfollows hu
      · exact hto (offered.mem hu)
      · rcases State.mem_c2s_afterClient.mp hu with hu | hu
        · exact hack hu
        · obtain ⟨-, ⟨n', hn'⟩, -⟩ := taken.of_ack hu
          cases hold.symm.trans hn'
  case readyOnce =>
    refine State.pairwise_afterClient taken h.readyOnce ?_
    rintro m hw a hm u rfl rfl
    obtain ⟨r, n, -, hold, -, -⟩ := taken.of_ready hw
    exact (h.probing u n hold).1 hm
  case ackOnce =>
    refine State.pairwise_afterClient taken h.ackOnce ?_
    rintro m hw a hm u rfl rfl
    obtain ⟨-, ⟨n, hold⟩, -⟩ := taken.of_ack hw
    exact (h.announced u n hold).1 hm
  case confirmed =>
    intro u hok
    rw [State.mem_c2s_afterClient]
    rintro (hm | hm)
    · exact h.confirmed u (offered.mem hok) hm
    · obtain ⟨-, ⟨n, hold⟩, -⟩ := taken.of_ack hm
      exact (h.announced u n hold).2 (offered.mem hok)

end Client

section Server

variable {input : Input (ClientMessage R I) R I} {rest : List (ClientMessage R I)}
  {v : Server R I} {acts : List (ServerAction R C I)}

theorem stepServer (h : Handshake s)
    (offered : input.Taken s.c2s rest fun p => .clientDid (.probe p) ∈ s.log)
    (taken : ServerStep cid s.server input v acts) :
    Handshake (s.afterServer input rest v acts) := by
  -- an attempt is followed from its announcement on
  have hfollows : ∀ u, v.Follows u → .ready u ∉ s.c2s ∨ input = .message (.ready u) := by
    intro u hu
    exact (taken.to_follows hu).imp (fun hold => h.heard u (.inl hold)) id
  constructor
  case probing =>
    intro u n ha
    obtain ⟨hready, hnot, hto, hack, hok⟩ := h.probing u n ha
    have hnot' : ¬ v.Follows u := by
      intro hu
      rcases taken.to_follows hu with hold | rfl
      · exact hnot hold
      · exact hready offered.head
    refine ⟨fun hm => hready (offered.mem hm), hnot', ?_, fun hm => hack (offered.mem hm), ?_⟩
    · rw [State.mem_s2c_afterServer]
      exact fun hm => hm.elim hto fun hw => hnot' (taken.of_switchTo hw).1
    · rw [State.mem_s2c_afterServer]
      rintro (hm | hw)
      · exact hok hm
      · obtain ⟨rfl, -⟩ := taken.of_switchOk hw
        exact hack offered.head
  case announced =>
    intro u n ha
    obtain ⟨hack, hok⟩ := h.announced u n ha
    refine ⟨fun hm => hack (offered.mem hm), ?_⟩
    rw [State.mem_s2c_afterServer]
    rintro (hm | hw)
    · exact hok hm
    · obtain ⟨rfl, -⟩ := taken.of_switchOk hw
      exact hack offered.head
  case heard =>
    have hgone : ∀ u, v.Follows u → .ready u ∉ rest := by
      intro u hu hm
      rcases hfollows u hu with hnot | rfl
      · exact hnot (offered.mem hm)
      · exact offered.head_pairwise h.readyOnce _ hm u rfl rfl
    rintro u (hu | hu | hu)
    · exact hgone u hu
    · rcases State.mem_s2c_afterServer.mp hu with hu | hw
      · exact fun hm => h.heard u (.inr (.inl hu)) (offered.mem hm)
      · exact hgone u (taken.of_switchTo hw).1
    · exact fun hm => h.heard u (.inr (.inr (offered.mem hu))) (offered.mem hm)
  case readyOnce => exact offered.pairwise h.readyOnce
  case ackOnce => exact offered.pairwise h.ackOnce
  case confirmed =>
    intro u hok hm
    rcases State.mem_s2c_afterServer.mp hok with hok | hw
    · exact h.confirmed u hok (offered.mem hm)
    · obtain ⟨rfl, -⟩ := taken.of_switchOk hw
      exact offered.head_pairwise h.ackOnce _ hm u rfl rfl

end Server

theorem step (h : Handshake s) (hst : Started s) (hs : Step cid s s') : Handshake s' := by
  cases hs with
  | client input rest c acts offered taken fresh => exact h.stepClient hst offered taken fresh
  | server input rest v acts offered taken fresh => exact h.stepServer offered taken

end Handshake

/-! ## Fallback requests cut off attempts -/

theorem Tokens.of_clientPending (h : Tokens s) {f : I} (hp : s.client.pending = some f) :
    .fallback f ∈ s.c2s ∨ .fallbackOk f ∈ s.s2c := by
  have htoken := h.client
  rw [hp] at htoken
  rcases htoken.mem with ⟨m, hm, hf⟩ | ⟨m, hm, hf⟩
  · cases m <;> simp_all
  · cases m <;> simp_all

theorem Tokens.of_serverPending (h : Tokens s) {f : I} (hp : s.server.pending = some f) :
    .fallback f ∈ s.s2c ∨ .fallbackOk f ∈ s.c2s := by
  have htoken := h.server
  rw [hp] at htoken
  rcases htoken.mem with ⟨m, hm, hf⟩ | ⟨m, hm, hf⟩
  · cases m <;> simp_all
  · cases m <;> simp_all

structure Barriers (s : State R C I) : Prop where
  /-- The server has not got as far as the client's present attempt while a
  request of the client is on its way to it. -/
  clientCut : ∀ f u n, .fallback f ∈ s.c2s → s.client.attempt = .ready u n →
    .switchTo u ∉ s.s2c ∧ ¬ s.server.Follows u
  clientBehind : s.c2s.Pairwise fun a b => ∀ f u n, b = .fallback f →
    s.client.attempt = .ready u n → a ≠ .ready u
  clientReturn : s.s2c.Pairwise fun a b => ∀ f u n, b = .fallbackOk f →
    s.client.attempt = .ready u n → a ≠ .switchTo u
  /-- A client that has accepted a switch has no request open. -/
  calm : (∃ u, s.client.attempt = .awaiting u) ∨ s.client.udp = true → s.client.pending = none
  /-- The server has let go of every attempt that is ahead of its request. -/
  serverCut : ∀ f u, .fallback f ∈ s.s2c → .ack u ∈ s.c2s → ¬ s.server.Follows u
  serverBehind : s.s2c.Pairwise fun a b => ∀ f u, b = .fallback f → a = .switchTo u →
    ¬ s.server.Follows u
  serverReturn : s.c2s.Pairwise fun a b => ∀ f u, b = .fallbackOk f → a = .ack u →
    ¬ s.server.Follows u
  settled : s.server.udp = true → s.server.pending = none

namespace Barriers

theorem initial : Barriers (State.initial : State R C I) := by
  constructor <;> simp [State.initial, Client.initial, Server.initial]

section Client

variable {input : Input (ServerMessage C I) R I} {rest : List (ServerMessage C I)}
  {c : Client R I} {acts : List (ClientAction R I)}

theorem calm_client (h : Barriers s) (ht : Tokens s)
    (offered : input.Taken s.s2c rest fun p => .serverDid (.echo p) ∈ s.log)
    (taken : ClientStep cid s.client input c acts)
    (hc : (∃ u, c.attempt = .awaiting u) ∨ c.udp = true) : c.pending = none := by
  by_contra hsome
  obtain ⟨f, hf⟩ := Option.ne_none_iff_exists'.mp hsome
  -- the request was open before, as writing one ends the attempt
  have hopen : s.client.pending = some f := by
    rcases taken.to_pending hf with hold | hw
    · exact hold
    · obtain ⟨-, -, -, hidle, hudp⟩ := taken.of_fallback hw
      rcases hc with ⟨u, hu⟩ | hu
      · cases hidle.symm.trans hu
      · cases hudp.symm.trans hu
  have hbusy : ¬ ((∃ u, s.client.attempt = .awaiting u) ∨ s.client.udp = true) := by
    intro hold
    cases hopen.symm.trans (h.calm hold)
  rcases hc with ⟨u, hu⟩ | hu
  · rcases taken.to_awaiting hu with hold | hw
    · exact hbusy (.inl ⟨u, hold⟩)
    · -- the client accepts now: the offer has passed the request on the way
      obtain ⟨rfl, ⟨n, hready⟩, -⟩ := taken.of_ack hw
      rcases ht.of_clientPending hopen with hm | hm
      · exact (h.clientCut f u n hm hready).1 offered.head
      · have hrest : .fallbackOk f ∈ rest := by
          rcases offered.mem_or hm with hm | hm
          · exact hm
          · cases hm
        exact offered.head_pairwise h.clientReturn _ hrest f u n rfl hready rfl
  · rcases taken.to_udp hu with hold | ⟨u, -, hold⟩
    · exact hbusy (.inr hold)
    · exact hbusy (.inl ⟨u, hold⟩)

theorem stepClient (h : Barriers s) (ht : Tokens s) (hh : Handshake s)
    (offered : input.Taken s.s2c rest fun p => .serverDid (.echo p) ∈ s.log)
    (taken : ClientStep cid s.client input c acts) :
    Barriers (s.afterClient input rest c acts) := by
  refine ⟨?_, ?_, ?_, h.calm_client ht offered taken, ?_, offered.pairwise h.serverBehind, ?_,
    h.settled⟩
  · intro f u n hm ha
    rcases State.mem_c2s_afterClient.mp hm with hm | hw
    · rcases taken.to_ready ha with hold | ⟨hold, -⟩
      · obtain ⟨hto, hfollows⟩ := h.clientCut f u n hm hold
        exact ⟨fun hm => hto (offered.mem hm), hfollows⟩
      · obtain ⟨-, hfollows, hto, -⟩ := hh.probing u n hold
        exact ⟨fun hm => hto (offered.mem hm), hfollows⟩
    · cases (taken.of_fallback hw).2.2.2.1.symm.trans ha
  · refine State.pairwise_afterClient taken ?_ ?_
    · refine h.clientBehind.imp_of_mem ?_
      intro a b ha hb hold f u n hf hready
      rcases taken.to_ready hready with hold' | ⟨hold', -⟩
      · exact hold f u n hf hold'
      · rintro rfl
        exact (hh.probing u n hold').1 ha
    · rintro m hw a ha f u n rfl hready
      cases (taken.of_fallback hw).2.2.2.1.symm.trans hready
  · refine (offered.pairwise h.clientReturn).imp_of_mem ?_
    intro a b ha hb hold f u n hf hready
    rcases taken.to_ready hready with hold' | ⟨hold', -⟩
    · exact hold f u n hf hold'
    · rintro rfl
      exact (hh.probing u n hold').2.2.1 (offered.mem ha)
  · intro f u hf hm
    rcases State.mem_c2s_afterClient.mp hm with hm | hw
    · exact h.serverCut f u (offered.mem hf) hm
    · obtain ⟨rfl, -, -⟩ := taken.of_ack hw
      exact offered.head_pairwise h.serverBehind _ hf f u rfl rfl
  · refine State.pairwise_afterClient taken h.serverReturn ?_
    rintro m hw a ha f u rfl rfl
    obtain rfl := taken.of_fallbackOk hw
    exact h.serverCut f u offered.head ha

end Client

section Server

variable {input : Input (ClientMessage R I) R I} {rest : List (ClientMessage R I)}
  {v : Server R I} {acts : List (ServerAction R C I)}

theorem settled_server (h : Barriers s) (hp : Parties s) (ht : Tokens s)
    (offered : input.Taken s.c2s rest fun p => .clientDid (.probe p) ∈ s.log)
    (taken : ServerStep cid s.server input v acts) (hv : v.udp = true) : v.pending = none := by
  by_contra hsome
  obtain ⟨f, hf⟩ := Option.ne_none_iff_exists'.mp hsome
  have hopen : s.server.pending = some f := by
    rcases taken.to_pending hf with hold | hw
    · exact hold
    · cases (taken.of_fallback hw).2.2.2.1.symm.trans hv
  rcases taken.to_udp hv with hold | ⟨u, rfl, hu, hsent, -⟩
  · cases hopen.symm.trans (h.settled hold)
  · have hfollows : s.server.Follows u := ⟨hu, hp.offered hsent⟩
    rcases ht.of_serverPending hopen with hm | hm
    · exact h.serverCut f u hm offered.head hfollows
    · have hrest : .fallbackOk f ∈ rest := by
        rcases offered.mem_or hm with hm | hm
        · exact hm
        · cases hm
      exact offered.head_pairwise h.serverReturn _ hrest f u rfl rfl hfollows

theorem stepServer (h : Barriers s) (hp : Parties s) (ht : Tokens s) (hh : Handshake s)
    (offered : input.Taken s.c2s rest fun p => .clientDid (.probe p) ∈ s.log)
    (taken : ServerStep cid s.server input v acts) :
    Barriers (s.afterServer input rest v acts) := by
  -- an attempt with an offer or an acceptance on its way is not taken up again
  have hstable : ∀ u, .switchTo u ∈ s.s2c ∨ .ack u ∈ s.c2s → ¬ s.server.Follows u →
      ¬ v.Follows u := by
    intro u hu hnot hfollows
    rcases taken.to_follows hfollows with hold | rfl
    · exact hnot hold
    · exact hh.heard u (.inr hu) offered.head
  have hcleared : ∀ f u, .write (.fallback f) ∈ acts → ¬ v.Follows u := by
    intro f u hw hfollows
    cases (taken.of_fallback hw).2.2.2.2.2.symm.trans hfollows.1
  refine ⟨?_, offered.pairwise h.clientBehind, ?_, h.calm, ?_, ?_, ?_,
    h.settled_server hp ht offered taken⟩
  · intro f u n hm ha
    obtain ⟨hto, hnot⟩ := h.clientCut f u n (offered.mem hm) ha
    have hnot' : ¬ v.Follows u := by
      intro hfollows
      rcases taken.to_follows hfollows with hold | rfl
      · exact hnot hold
      · exact offered.head_pairwise h.clientBehind _ hm f u n rfl ha rfl
    refine ⟨?_, hnot'⟩
    rw [State.mem_s2c_afterServer]
    exact fun hm => hm.elim hto fun hw => hnot' (taken.of_switchTo hw).1
  · refine State.pairwise_afterServer taken h.clientReturn ?_
    rintro m hw a hm f u n rfl ha rfl
    obtain rfl := taken.of_fallbackOk hw
    exact (h.clientCut f u n offered.head ha).1 hm
  · intro f u hf hm
    rcases State.mem_s2c_afterServer.mp hf with hf | hw
    · exact hstable u (.inr (offered.mem hm)) (h.serverCut f u hf (offered.mem hm))
    · exact hcleared f u hw
  · refine State.pairwise_afterServer taken ?_ ?_
    · refine h.serverBehind.imp_of_mem ?_
      rintro a b ha hb hold f u hf rfl
      exact hstable u (.inl ha) (hold f u hf rfl)
    · rintro m hw a hm f u rfl -
      exact hcleared f u hw
  · refine (offered.pairwise h.serverReturn).imp_of_mem ?_
    rintro a b ha hb hold f u hf rfl
    exact hstable u (.inr (offered.mem ha)) (hold f u hf rfl)

end Server

end Barriers

end Slt.Upgrade
