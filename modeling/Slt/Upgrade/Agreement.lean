import Slt.Upgrade.Handshake

/-!
# The two parties agree

When one party prefers UDP, so does the other, unless a message that changes
this is on its way. And a client that registers is never ahead of its own
fallback request: the server that still prefers UDP finds the request first.
-/

namespace Slt.Upgrade

variable {R C I : Type} {cid : R → C} {s s' : State R C I}

/-! ## Everything so far -/

structure Inv (s : State R C I) : Prop where
  parties : Parties s
  tokens : Tokens s
  drawn : Drawn s
  registrations : Registrations s
  started : Started s
  handshake : Handshake s
  barriers : Barriers s

namespace Inv

theorem initial : Inv (State.initial : State R C I) :=
  ⟨.initial, .initial, .initial, .initial, .initial, .initial, .initial⟩

theorem step (h : Inv s) (hs : Step cid s s') : Inv s' where
  parties := h.parties.step hs
  drawn := h.drawn.step h.tokens hs
  registrations := h.registrations.step hs
  started := h.started.step hs
  handshake := h.handshake.step h.started hs
  tokens := by
    cases hs with
    | client input rest c acts offered taken fresh =>
      exact h.tokens.stepClient offered taken fun u hu => h.barriers.calm (.inl ⟨u, hu⟩)
    | server input rest v acts offered taken fresh => exact h.tokens.stepServer offered taken
  barriers := by
    cases hs with
    | client input rest c acts offered taken fresh =>
      exact h.barriers.stepClient h.tokens h.handshake offered taken
    | server input rest v acts offered taken fresh =>
      exact h.barriers.stepServer h.parties h.tokens h.handshake offered taken

end Inv

theorem Reachable.inv (h : Reachable cid s) : Inv s := by
  induction h with
  | refl => exact .initial
  | tail _ hs ih => exact ih.step hs

/-! ## Registrations behind a fallback request -/

/-- No registration comes before the first fallback request. -/
def Clean : List (ClientMessage R I) → Prop
  | [] => True
  | .fallback _ :: _ => True
  | .register _ :: _ => False
  | .ready _ :: l => Clean l
  | .ack _ :: l => Clean l
  | .fallbackOk _ :: l => Clean l

theorem clean_of_no_register {l : List (ClientMessage R I)} (h : ∀ r, .register r ∉ l) :
    Clean l := by
  induction l with
  | nil => trivial
  | cons m l ih =>
    have htail := ih fun r hr => h r (List.mem_cons_of_mem _ hr)
    cases m with
    | register r => exact absurd List.mem_cons_self (h r)
    | fallback f => trivial
    | _ => exact htail

theorem Clean.append {l l' : List (ClientMessage R I)} (h : Clean l)
    (hl : (∃ f, .fallback f ∈ l) ∨ ∀ r, .register r ∉ l') : Clean (l ++ l') := by
  induction l with
  | nil =>
    rcases hl with ⟨f, hf⟩ | hl
    · cases hf
    · exact clean_of_no_register hl
  | cons m l ih =>
    cases m with
    | register r => exact h
    | fallback f => trivial
    | _ => exact ih h (hl.imp_left (by simp))

theorem Clean.tail {m : ClientMessage R I} {l : List (ClientMessage R I)} (h : Clean (m :: l))
    (hm : ∀ f, m ≠ .fallback f) : Clean l := by
  cases m with
  | register r => exact h.elim
  | fallback f => exact absurd rfl (hm f)
  | _ => exact h

theorem Clean.taken {input : Input (ClientMessage R I) R I} {l rest : List (ClientMessage R I)}
    {sent : Probe R I → Prop} (h : Clean l) (offered : input.Taken l rest sent)
    (hm : ∀ f, input ≠ .message (.fallback f)) : Clean rest := by
  cases input with
  | tick => exact offered ▸ h
  | message m =>
    exact (show Clean (m :: rest) from offered ▸ h).tail fun f hf => hm f (congrArg _ hf)
  | packet p => exact offered.1 ▸ h

/-! ## Agreement -/

structure Agreement (s : State R C I) : Prop where
  /-- An acceptance the server will act on is backed by the client, or
  followed by its fallback request. -/
  accepted : ∀ u, .ack u ∈ s.c2s → s.server.Follows u →
    s.client.attempt = .awaiting u ∨ ∃ f, .fallback f ∈ s.c2s
  acceptedClean : ∀ u, .ack u ∈ s.c2s → s.server.Follows u → Clean s.c2s
  quiet : ∀ u, (s.client.attempt = .awaiting u ∨ ∃ n, s.client.attempt = .ready u n) →
    ∀ r, .register r ∉ s.c2s
  serverUdp : s.server.udp = true → (∃ f, .fallback f ∈ s.c2s) ∨ s.client.udp = true ∨
    ∃ u, s.client.attempt = .awaiting u ∧ .switchOk u ∈ s.s2c
  serverClean : s.server.udp = true → Clean s.c2s
  clientUdp : .serverDid .silence ∉ s.log →
    (s.client.udp = true ∨ ∃ u, s.client.attempt = .awaiting u ∧ .switchOk u ∈ s.s2c) →
      s.server.udp = true ∨ ∃ f, .fallback f ∈ s.s2c

namespace Agreement

theorem initial : Agreement (State.initial : State R C I) := by
  constructor <;> simp [State.initial, Client.initial, Server.initial]

section Client

variable {input : Input (ServerMessage C I) R I} {rest : List (ServerMessage C I)}
  {c : Client R I} {acts : List (ClientAction R I)}

theorem idle_of_register (hi : Inv s) (taken : ClientStep cid s.client input c acts) {r : R}
    (hw : .write (.register r) ∈ acts) :
    s.client.attempt = .idle ∧ s.client.udp = false := by
  obtain ⟨hnone, -⟩ := taken.of_register hw
  exact hi.parties.inactive fun r' hr' => by cases hnone.symm.trans hr'

theorem clean_client (h : Clean s.c2s)
    (hr : ∀ r, .write (.register r) ∈ acts → ∃ f, .fallback f ∈ s.c2s) :
    Clean (s.afterClient input rest c acts).c2s := by
  refine h.append ?_
  by_cases hex : ∃ r, .write (.register r) ∈ acts
  · obtain ⟨r, hw⟩ := hex
    exact .inl (hr r hw)
  · exact .inr fun r hm => hex ⟨r, mem_clientMessages.mp hm⟩

/-- A fallback request of the server does not meet a server that prefers UDP. -/
theorem not_udp_of_peerFallback (hi : Inv s) {f : I} (hf : .fallback f ∈ s.s2c) :
    s.server.udp ≠ true := by
  intro hv
  cases (hi.tokens.server.of_mem_out hf rfl).symm.trans (hi.barriers.settled hv)

/-- The client gives up what it accepted only with a request of its own. -/
theorem fallback_written (hi : Inv s)
    (hbusy : (∃ u, s.client.attempt = .awaiting u) ∨ s.client.udp = true)
    (hleave : s.client.pending = none → ∃ f, .write (.fallback f) ∈ acts) :
    ∃ f, .fallback f ∈ (s.afterClient input rest c acts).c2s := by
  obtain ⟨f, hf⟩ := hleave (hi.barriers.calm hbusy)
  exact ⟨f, State.mem_c2s_afterClient.mpr (.inr hf)⟩

variable (h : Agreement s) (hi : Inv s)
  (offered : input.Taken s.s2c rest fun p => .serverDid (.echo p) ∈ s.log)
  (taken : ClientStep cid s.client input c acts)
include h hi offered taken

theorem accepted_client {u : I} (hack : .ack u ∈ (s.afterClient input rest c acts).c2s)
    (hfollows : s.server.Follows u) :
    c.attempt = .awaiting u ∨ ∃ f, .fallback f ∈ (s.afterClient input rest c acts).c2s := by
  rcases State.mem_c2s_afterClient.mp hack with hold | hw
  · rcases h.accepted u hold hfollows with hawait | ⟨f, hf⟩
    · rcases taken.from_awaiting hawait with hstay | ⟨rfl, -⟩ | ⟨f, rfl⟩ | hleave | hinactive
      · exact .inl hstay
      · exact absurd hold (hi.handshake.confirmed u offered.head)
      · exact absurd hfollows (hi.barriers.serverCut f u offered.head hold)
      · exact .inr (fallback_written hi (.inl ⟨u, hawait⟩) hleave)
      · cases (hi.parties.inactive hinactive).1.symm.trans hawait
    · exact .inr ⟨f, State.mem_c2s_afterClient.mpr (.inl hf)⟩
  · obtain ⟨-, -, rfl, -⟩ := taken.of_ack hw
    exact .inl rfl

theorem quiet_client {u : I} (hattempt : c.attempt = .awaiting u ∨ ∃ n, c.attempt = .ready u n)
    (r : R) :
    .register r ∉ (s.afterClient input rest c acts).c2s := by
  rw [State.mem_c2s_afterClient]
  rintro (hm | hw)
  · rcases hattempt with ha | ⟨n, ha⟩
    · rcases taken.to_awaiting ha with hold | hw
      · exact h.quiet u (.inl hold) r hm
      · exact h.quiet u (.inr (taken.of_ack hw).2.1) r hm
    · rcases taken.to_ready ha with hold | ⟨-, hw⟩
      · exact h.quiet u (.inr ⟨n, hold⟩) r hm
      · -- the echo came from a server that has the registration
        obtain ⟨r', n', rfl, -, hactive, -⟩ := taken.of_ready hw
        have hinstalled := hi.registrations.echoed _ offered.2
        exact hi.registrations.settled (hi.registrations.current r' (by simp [hactive]))
          (hi.registrations.installed _ hinstalled) r hm
  · have hidle := (idle_of_register hi taken hw).1
    obtain ⟨-, rfl⟩ := taken.of_register hw
    rcases hattempt with ha | ⟨n, ha⟩
    · cases hidle.symm.trans ha
    · cases hidle.symm.trans ha

theorem serverUdp_client (hv : s.server.udp = true) :
    (∃ f, .fallback f ∈ (s.afterClient input rest c acts).c2s) ∨ c.udp = true ∨
      ∃ u, c.attempt = .awaiting u ∧ .switchOk u ∈ rest := by
  rcases h.serverUdp hv with ⟨f, hf⟩ | hudp | ⟨u, hawait, hok⟩
  · exact .inl ⟨f, State.mem_c2s_afterClient.mpr (.inl hf)⟩
  · rcases taken.from_udp hudp with hstay | ⟨f, rfl⟩ | hleave
    · exact .inr (.inl hstay)
    · exact absurd hv (not_udp_of_peerFallback hi offered.head)
    · exact .inl (fallback_written hi (.inr hudp) hleave)
  · rcases taken.from_awaiting hawait with hstay | ⟨-, hudp⟩ | ⟨f, rfl⟩ | hleave | hinactive
    · rcases offered.mem_or hok with hrest | rfl
      · exact .inr (.inr ⟨u, hstay, hrest⟩)
      · exact .inr (.inl (taken.of_switchOk hawait))
    · exact .inr (.inl hudp)
    · exact absurd hv (not_udp_of_peerFallback hi offered.head)
    · exact .inl (fallback_written hi (.inl ⟨u, hawait⟩) hleave)
    · cases (hi.parties.inactive hinactive).1.symm.trans hawait

theorem clientUdp_client (hloud : .serverDid .silence ∉ s.log)
    (hc : c.udp = true ∨ ∃ u, c.attempt = .awaiting u ∧ .switchOk u ∈ rest) :
    s.server.udp = true ∨ ∃ f, .fallback f ∈ rest := by
  have hbefore : s.client.udp = true ∨
      ∃ u, s.client.attempt = .awaiting u ∧ .switchOk u ∈ s.s2c := by
    rcases hc with hudp | ⟨u, hawait, hok⟩
    · rcases taken.to_udp hudp with hold | ⟨u, rfl, hold⟩
      · exact .inl hold
      · exact .inr ⟨u, hold, offered.head⟩
    · rcases taken.to_awaiting hawait with hold | hw
      · exact .inr ⟨u, hold, offered.mem hok⟩
      · obtain ⟨-, ⟨n, hready⟩, -⟩ := taken.of_ack hw
        exact absurd (offered.mem hok) (hi.handshake.announced u n hready).2
  refine (h.clientUdp hloud hbefore).imp_right ?_
  rintro ⟨f, hf⟩
  rcases offered.mem_or hf with hrest | rfl
  · exact ⟨f, hrest⟩
  · -- the client has yielded just now
    obtain ⟨-, hyield⟩ := taken.of_peerFallback
    obtain ⟨-, hidle, htcp, -⟩ := hyield (hi.drawn.clientNew f offered.head)
    rcases hc with hudp | ⟨u, hawait, -⟩
    · cases htcp.symm.trans hudp
    · cases hidle.symm.trans hawait

theorem stepClient : Agreement (s.afterClient input rest c acts) where
  accepted u hack hfollows := accepted_client h hi offered taken hack hfollows
  acceptedClean u hack hfollows := by
    rcases State.mem_c2s_afterClient.mp hack with hold | hw
    · refine clean_client (h.acceptedClean u hold hfollows) fun r hw => ?_
      rcases h.accepted u hold hfollows with hawait | hf
      · cases (idle_of_register hi taken hw).1.symm.trans hawait
      · exact hf
    · obtain ⟨-, hready, rfl, -⟩ := taken.of_ack hw
      refine clean_client (clean_of_no_register (h.quiet u (.inr hready))) fun r hr => ?_
      obtain ⟨n, hn⟩ := hready
      cases (idle_of_register hi taken hr).1.symm.trans hn
  quiet u hattempt := quiet_client h hi offered taken hattempt
  serverUdp := serverUdp_client h hi offered taken
  serverClean hv := by
    refine clean_client (h.serverClean hv) fun r hw => ?_
    obtain ⟨hidle, htcp⟩ := idle_of_register hi taken hw
    rcases h.serverUdp hv with hf | hudp | ⟨u, hawait, -⟩
    · exact hf
    · cases htcp.symm.trans hudp
    · cases hidle.symm.trans hawait
  clientUdp hloud hc := by
    rw [State.serverDid_afterClient] at hloud
    exact clientUdp_client (s := s) h hi offered taken hloud hc

end Client

section Server

variable {input : Input (ClientMessage R I) R I} {rest : List (ClientMessage R I)}
  {v : Server R I} {acts : List (ServerAction R C I)}

/-- A server that has just yielded does not prefer UDP and follows no attempt. -/
theorem yielded_server (hi : Inv s) {f : I}
    (offered : (.message (.fallback f) : Input (ClientMessage R I) R I).Taken s.c2s rest
      fun p => .clientDid (.probe p) ∈ s.log)
    (taken : ServerStep cid s.server (.message (.fallback f)) v acts) :
    v.udp = false ∧ v.upgradeId = none := by
  obtain ⟨-, hyield⟩ := taken.of_peerFallback
  obtain ⟨hudp, hid, -⟩ := hyield (hi.drawn.serverNew f offered.head)
  exact ⟨hudp, hid⟩

variable (h : Agreement s) (hi : Inv s)
  (offered : input.Taken s.c2s rest fun p => .clientDid (.probe p) ∈ s.log)
  (taken : ServerStep cid s.server input v acts)
include h hi offered taken

theorem accepted_server {u : I} (hack : .ack u ∈ rest) (hfollows : v.Follows u) :
    (s.client.attempt = .awaiting u ∨ ∃ f, .fallback f ∈ rest) ∧ Clean rest := by
  have hnot : ∀ f, input ≠ .message (.fallback f) := by
    rintro f rfl
    cases (yielded_server hi offered taken).2.symm.trans hfollows.1
  have hold : s.server.Follows u := by
    rcases taken.to_follows hfollows with hold | rfl
    · exact hold
    · exact absurd offered.head (hi.handshake.heard u (.inr (.inr (offered.mem hack))))
  refine ⟨?_, (h.acceptedClean u (offered.mem hack) hold).taken offered hnot⟩
  refine (h.accepted u (offered.mem hack) hold).imp_right ?_
  rintro ⟨f, hf⟩
  exact ⟨f, (offered.mem_or hf).resolve_right (hnot f)⟩

theorem serverUdp_server (hv : v.udp = true) :
    ((∃ f, .fallback f ∈ rest) ∨ s.client.udp = true ∨
      ∃ u, s.client.attempt = .awaiting u ∧
        .switchOk u ∈ (s.afterServer input rest v acts).s2c) ∧ Clean rest := by
  have hnot : ∀ f, input ≠ .message (.fallback f) := by
    rintro f rfl
    cases (yielded_server hi offered taken).1.symm.trans hv
  have hstays : (∃ f, .fallback f ∈ s.c2s) → ∃ f, .fallback f ∈ rest := by
    rintro ⟨f, hf⟩
    exact ⟨f, (offered.mem_or hf).resolve_right (hnot f)⟩
  rcases taken.to_udp hv with hold | ⟨u, rfl, hu, hsent, hw⟩
  · refine ⟨?_, (h.serverClean hold).taken offered hnot⟩
    rcases h.serverUdp hold with hf | hudp | ⟨u, hawait, hok⟩
    · exact .inl (hstays hf)
    · exact .inr (.inl hudp)
    · exact .inr (.inr ⟨u, hawait, State.mem_s2c_afterServer.mpr (.inl hok)⟩)
  · have hfollows : s.server.Follows u := ⟨hu, hi.parties.offered hsent⟩
    refine ⟨?_, (h.acceptedClean u offered.head hfollows).taken offered hnot⟩
    rcases h.accepted u offered.head hfollows with hawait | hf
    · exact .inr (.inr ⟨u, hawait, State.mem_s2c_afterServer.mpr (.inr hw)⟩)
    · exact .inl (hstays hf)

theorem clientUdp_server (hloud : .serverDid .silence ∉ (s.afterServer input rest v acts).log)
    (hc : s.client.udp = true ∨ ∃ u, s.client.attempt = .awaiting u ∧
      .switchOk u ∈ (s.afterServer input rest v acts).s2c) :
    v.udp = true ∨ ∃ f, .fallback f ∈ (s.afterServer input rest v acts).s2c := by
  rw [State.serverDid_afterServer, not_or] at hloud
  -- the client has nothing open, so the server cannot be told to go back
  have hcalm : s.client.pending = none :=
    hi.barriers.calm (hc.symm.imp (fun ⟨u, hu, _⟩ => ⟨u, hu⟩) id)
  have hkeep (hold : s.client.udp = true ∨
      ∃ u, s.client.attempt = .awaiting u ∧ .switchOk u ∈ s.s2c) :
      v.udp = true ∨ ∃ f, .fallback f ∈ (s.afterServer input rest v acts).s2c := by
    rcases h.clientUdp hloud.1 hold with hv | ⟨f, hf⟩
    · rcases taken.from_udp hv with hstay | ⟨f, rfl⟩ | hsilent | hleave
      · exact .inl hstay
      · cases (hi.tokens.client.of_mem_out offered.head rfl).symm.trans hcalm
      · exact absurd hsilent hloud.2
      · obtain ⟨f, hf⟩ := hleave (hi.barriers.settled hv)
        exact .inr ⟨f, State.mem_s2c_afterServer.mpr (.inr hf)⟩
    · exact .inr ⟨f, State.mem_s2c_afterServer.mpr (.inl hf)⟩
  rcases hc with hudp | ⟨u, hawait, hok⟩
  · exact hkeep (.inl hudp)
  · rcases State.mem_s2c_afterServer.mp hok with hok | hw
    · exact hkeep (.inr ⟨u, hawait, hok⟩)
    · exact .inl (taken.of_switchOk hw).2.2.2.1

theorem stepServer : Agreement (s.afterServer input rest v acts) where
  accepted _ hack hfollows := (accepted_server h hi offered taken hack hfollows).1
  acceptedClean _ hack hfollows := (accepted_server h hi offered taken hack hfollows).2
  quiet u hattempt r hm := h.quiet u hattempt r (offered.mem hm)
  serverUdp hv := (serverUdp_server h hi offered taken hv).1
  serverClean hv := (serverUdp_server h hi offered taken hv).2
  clientUdp := clientUdp_server h hi offered taken

end Server

end Agreement

theorem Reachable.agreement (h : Reachable cid s) : Agreement s := by
  induction h with
  | refl => exact .initial
  | tail hreach hs ih =>
    have hi := Reachable.inv hreach
    cases hs with
    | client input rest c acts offered taken fresh => exact ih.stepClient hi offered taken
    | server input rest v acts offered taken fresh => exact ih.stepServer hi offered taken

theorem Reachable.not_udp_of_register (h : Reachable cid s) {r : R}
    {rest : List (ClientMessage R I)} (hc : s.c2s = .register r :: rest) : s.server.udp = false := by
  by_contra hudp
  have hclean := h.agreement.serverClean (by simpa using hudp)
  rw [hc] at hclean
  exact hclean

end Slt.Upgrade
