/-
The registries hold live connections only.

# The argument

What the maps have of a client agrees with the fields of the client, and
the maps have something of it only between its registration and its
cleanup (`Sound`). Each handler re-checks after an `await` that the
connection is still there before it registers anything, save one: a join,
whose access check may come back when the cleanup is over (`Late`).
-/
import Skrynia.Chat.WebSockets

namespace Skrynia

open Registering Stepping

/-- How the fields of a client go together. -/
structure Client.Sound (cl : Client) : Prop where
  connected : cl.readyState ≠ .connecting
  closed : cl.closed = true → cl.cleanup ≠ .notStarted
  cleaned : cl.cleanup ≠ .notStarted →
    cl.mapsRegistered = false ∧ cl.readyState ≠ .open
  registered : cl.jti.isSome → cl.mapsRegistered = true ∨ cl.cleanup ≠ .notStarted
  authenticating : cl.handshake = .authenticating →
    cl.jti = none ∧ cl.userId = none ∧ cl.familyId = none
      ∧ cl.mapsRegistered = false
  established : cl.handshake = .established →
    cl.jti.isSome ∧ (cl.cleanup ≠ .notStarted → cl.closed = true)
  session : cl.handshake = .checkingSession
    ∨ cl.handshake = .registeringPresence → cl.jti.isSome
  rooms : cl.handshake ≠ .established → cl.rooms = []
  left : cl.mapsRegistered = false → cl.rooms = []

namespace WsServer

/-- What the maps have agrees with the clients. -/
structure Sound (cfg : WsConfig) (s : WsServer) : Prop where
  client : ∀ c cl, s.clients c = some cl → cl.Sound
  user : ∀ c u, c ∈ s.byUser.entries u → ∃ cl, s.clients c = some cl
    ∧ cl.mapsRegistered = true ∧ cl.userId = some u
  jti : ∀ c j, c ∈ s.byJti.entries j → ∃ cl, s.clients c = some cl
    ∧ cl.mapsRegistered = true ∧ cl.jti = some j
  family : ∀ c f, c ∈ s.byFamily.entries f → ∃ cl, s.clients c = some cl
    ∧ cl.mapsRegistered = true ∧ cl.familyId = some f
  conversation : ∀ c r, c ∈ s.byConversation.entries r
    ↔ ∃ cl, s.clients c = some cl ∧ r ∈ cl.rooms
  ceiling : ∀ c cl, s.clients c = some cl →
    cl.rooms.length ≤ cfg.maxRoomsPerConnection
  capacity : ∀ u, (s.byUser.entries u).card ≤ maxConnectionsPerUser
  tasks : ∀ n c t, s.tasks n = some (c, t) →
    ∃ cl, s.clients c = some cl ∧ cl.handshake = .established

variable {cfg : WsConfig} {s s' : WsServer} {c n : Nat} {cl : Client}

/-- What two clients have in common with the maps. -/
structure SameEntries (cl cl' : Client) : Prop where
  userId : cl'.userId = cl.userId
  jti : cl'.jti = cl.jti
  familyId : cl'.familyId = cl.familyId
  rooms : cl'.rooms = cl.rooms
  mapsRegistered : cl'.mapsRegistered = cl.mapsRegistered
  established : cl.handshake = .established → cl'.handshake = .established

/-- One client with other fields, and other entries of its own. The
entries of all other clients stay, so the invariant has to be shown of
this one only. -/
theorem Sound.replace (h : Sound cfg s) (hc : s.clients c = some cl)
    {cl' : Client} (hclients : s'.clients = Function.update s.clients c (some cl'))
    (htasks : s'.tasks = s.tasks) (hcl : cl'.Sound)
    (hestablished : cl.handshake = .established →
      cl'.handshake = .established)
    (huser : ∀ d u, d ∈ s'.byUser.entries u → d ≠ c ∧ d ∈ s.byUser.entries u
      ∨ d = c ∧ cl'.mapsRegistered = true ∧ cl'.userId = some u)
    (hjti : ∀ d j, d ∈ s'.byJti.entries j → d ≠ c ∧ d ∈ s.byJti.entries j
      ∨ d = c ∧ cl'.mapsRegistered = true ∧ cl'.jti = some j)
    (hfamily : ∀ d f, d ∈ s'.byFamily.entries f →
      d ≠ c ∧ d ∈ s.byFamily.entries f
        ∨ d = c ∧ cl'.mapsRegistered = true ∧ cl'.familyId = some f)
    (hconversation : ∀ d r, d ∈ s'.byConversation.entries r ↔
      d ≠ c ∧ d ∈ s.byConversation.entries r ∨ d = c ∧ r ∈ cl'.rooms)
    (hceiling : cl'.rooms.length ≤ cfg.maxRoomsPerConnection)
    (hcapacity : ∀ u, (s'.byUser.entries u).card ≤ maxConnectionsPerUser) :
    Sound cfg s' := by
  have hother : ∀ {d : Nat}, d ≠ c → s'.clients d = s.clients d := by
    intro d hd
    rw [hclients, Function.update_of_ne hd]
  have hself : s'.clients c = some cl' := by
    rw [hclients, Function.update_self]
  have hclient : ∀ {d : Nat} {x : Client}, s'.clients d = some x →
      d = c ∧ x = cl' ∨ d ≠ c ∧ s.clients d = some x := by
    intro d x hx
    rw [hclients] at hx
    rcases update_cases hx with ⟨hd, hx'⟩ | ⟨hd, hx'⟩
    · exact Or.inl ⟨hd, (Option.some.inj hx').symm⟩
    · exact Or.inr ⟨hd, hx'⟩
  constructor
  · intro d x hx
    rcases hclient hx with ⟨-, rfl⟩ | ⟨-, hx⟩
    · exact hcl
    · exact h.client d x hx
  · intro d u hd
    rcases huser d u hd with ⟨hne, hd⟩ | ⟨rfl, hentry⟩
    · rw [hother hne]
      exact h.user d u hd
    · exact ⟨cl', hself, hentry⟩
  · intro d j hd
    rcases hjti d j hd with ⟨hne, hd⟩ | ⟨rfl, hentry⟩
    · rw [hother hne]
      exact h.jti d j hd
    · exact ⟨cl', hself, hentry⟩
  · intro d f hd
    rcases hfamily d f hd with ⟨hne, hd⟩ | ⟨rfl, hentry⟩
    · rw [hother hne]
      exact h.family d f hd
    · exact ⟨cl', hself, hentry⟩
  · intro d r
    rw [hconversation]
    by_cases hd : d = c
    · subst hd
      rw [hself]
      constructor
      · intro h
        rcases h with ⟨hne, -⟩ | ⟨-, hr⟩
        · exact absurd rfl hne
        · exact ⟨cl', rfl, hr⟩
      · intro h
        obtain ⟨x, hx, hr⟩ := h
        cases hx
        exact Or.inr ⟨rfl, hr⟩
    · rw [hother hd, ← h.conversation]
      constructor
      · intro h
        rcases h with ⟨-, hr⟩ | ⟨heq, -⟩
        · exact hr
        · exact absurd heq hd
      · exact fun hr => Or.inl ⟨hd, hr⟩
  · intro d x hx
    rcases hclient hx with ⟨-, rfl⟩ | ⟨-, hx⟩
    · exact hceiling
    · exact h.ceiling d x hx
  · exact hcapacity
  · intro m d t ht
    rw [htasks] at ht
    obtain ⟨x, hx, hest⟩ := h.tasks m d t ht
    by_cases hd : d = c
    · subst hd
      cases hc.symm.trans hx
      exact ⟨cl', hself, hestablished hest⟩
    · rw [hother hd]
      exact ⟨x, hx, hest⟩

-- What `Sound` has of one client that is there.

/-- A connection in the entries of a user is another one, or this one while
it is registered under that user. -/
theorem Sound.user_self (h : Sound cfg s) (cl : Client)
    (hc : s.clients c = some cl)
    (d : Nat) (u : Uuid) (hd : d ∈ s.byUser.entries u) :
    d ≠ c ∧ d ∈ s.byUser.entries u
      ∨ d = c ∧ cl.mapsRegistered = true ∧ cl.userId = some u := by
  by_cases heq : d = c
  · subst heq
    obtain ⟨x, hx, hentry⟩ := h.user d u hd
    cases hc.symm.trans hx
    exact Or.inr ⟨rfl, hentry⟩
  · exact Or.inl ⟨heq, hd⟩

/-- The same of the entries of an access token. -/
theorem Sound.jti_self (h : Sound cfg s) (cl : Client)
    (hc : s.clients c = some cl)
    (d : Nat) (j : String) (hd : d ∈ s.byJti.entries j) :
    d ≠ c ∧ d ∈ s.byJti.entries j
      ∨ d = c ∧ cl.mapsRegistered = true ∧ cl.jti = some j := by
  by_cases heq : d = c
  · subst heq
    obtain ⟨x, hx, hentry⟩ := h.jti d j hd
    cases hc.symm.trans hx
    exact Or.inr ⟨rfl, hentry⟩
  · exact Or.inl ⟨heq, hd⟩

/-- The same of the entries of a token family. -/
theorem Sound.family_self (h : Sound cfg s) (cl : Client)
    (hc : s.clients c = some cl)
    (d : Nat) (f : String) (hd : d ∈ s.byFamily.entries f) :
    d ≠ c ∧ d ∈ s.byFamily.entries f
      ∨ d = c ∧ cl.mapsRegistered = true ∧ cl.familyId = some f := by
  by_cases heq : d = c
  · subst heq
    obtain ⟨x, hx, hentry⟩ := h.family d f hd
    cases hc.symm.trans hx
    exact Or.inr ⟨rfl, hentry⟩
  · exact Or.inl ⟨heq, hd⟩

/-- A connection is in a room just where its own list of rooms says so. -/
theorem Sound.conversation_self (h : Sound cfg s) (cl : Client)
    (hc : s.clients c = some cl) (d : Nat) (r : Uuid) :
    d ∈ s.byConversation.entries r ↔
      d ≠ c ∧ d ∈ s.byConversation.entries r ∨ d = c ∧ r ∈ cl.rooms := by
  by_cases heq : d = c
  · subst heq
    rw [h.conversation]
    constructor
    · intro h
      obtain ⟨x, hx, hr⟩ := h
      cases hc.symm.trans hx
      exact Or.inr ⟨rfl, hr⟩
    · intro h
      rcases h with ⟨hne, -⟩ | ⟨-, hr⟩
      · exact absurd rfl hne
      · exact ⟨cl, hc, hr⟩
  · constructor
    · exact fun hr => Or.inl ⟨heq, hr⟩
    · intro h
      rcases h with ⟨-, hr⟩ | ⟨hd, -⟩
      · exact hr
      · exact absurd hd heq

/-- A change of a client that touches nothing of what the maps have of it
keeps the agreement. -/
theorem Sound.setClient (h : Sound cfg s) (hc : s.clients c = some cl)
    {cl' : Client} (hsame : SameEntries cl cl') (hcl : cl'.Sound) :
    Sound cfg (s.setClient c cl') := by
  apply h.replace hc
  · rfl
  · rfl
  · exact hcl
  · exact hsame.established
  · rw [hsame.mapsRegistered, hsame.userId]
    exact h.user_self cl hc
  · rw [hsame.mapsRegistered, hsame.jti]
    exact h.jti_self cl hc
  · rw [hsame.mapsRegistered, hsame.familyId]
    exact h.family_self cl hc
  · rw [hsame.rooms]
    exact h.conversation_self cl hc
  · rw [hsame.rooms]
    exact h.ceiling c cl hc
  · exact h.capacity

/-- A message being handled belongs to an established connection, and the
maps know nothing of it. -/
theorem Sound.setTask (h : Sound cfg s) (n : Nat) {t : Option (Nat × MessageTask)}
    (ht : ∀ d x, t = some (d, x) →
      ∃ cl, s.clients d = some cl ∧ cl.handshake = .established) :
    Sound cfg (s.setTask n t) where
  client := h.client
  user := h.user
  jti := h.jti
  family := h.family
  conversation := h.conversation
  ceiling := h.ceiling
  capacity := h.capacity
  tasks m d x hx := by
    rcases update_cases hx with ⟨-, hx'⟩ | ⟨-, hx'⟩
    · exact ht d x hx'
    · exact h.tasks m d x hx'

/-- Reading a client first. -/
theorem Sound.withClient {f : Client → WsServer} (h : Sound cfg s)
    (hf : ∀ cl, s.clients c = some cl → Sound cfg (f cl)) :
    Sound cfg (s.withClient c f) := by
  unfold WsServer.withClient
  split
  · exact h
  · next cl hc => exact hf cl hc

-- =============================================================== closing

/-- Closing a socket leaves the fields of its client together. -/
theorem Client.Sound.close (h : cl.Sound) : cl.close.Sound := by
  unfold Client.close
  split
  · exact ⟨nofun, h.closed, fun hc => ⟨(h.cleaned hc).1, nofun⟩, h.registered,
      h.authenticating, h.established, h.session, h.rooms, h.left⟩
  · exact ⟨nofun, h.closed, fun hc => ⟨(h.cleaned hc).1, nofun⟩, h.registered,
      h.authenticating, h.established, h.session, h.rooms, h.left⟩
  · exact h

/-- A socket that is closed stays in the maps until its cleanup. -/
theorem sameEntries_close (cl : Client) : SameEntries cl cl.close := by
  unfold Client.close
  split
  · exact ⟨rfl, rfl, rfl, rfl, rfl, id⟩
  · exact ⟨rfl, rfl, rfl, rfl, rfl, id⟩
  · exact ⟨rfl, rfl, rfl, rfl, rfl, id⟩

/-- So the server may close a connection at any time. -/
theorem Sound.closeClient (h : Sound cfg s) (c : Nat) :
    Sound cfg (s.closeClient c) := by
  apply h.withClient
  intro cl hc
  exact h.setClient hc (sameEntries_close cl)
    (Client.Sound.close (h.client c cl hc))

/-- The handshake of a connection that is not established may end. -/
theorem Sound.endHandshake (h : Sound cfg s) {c : Nat}
    (hne : ∀ cl, s.clients c = some cl → cl.handshake ≠ .established) :
    Sound cfg (s.endHandshake c) := by
  apply h.withClient
  intro cl hc
  have hcl := h.client c cl hc
  have hover : ({ cl with handshake := .over } : Client).Sound :=
    ⟨hcl.connected, hcl.closed, hcl.cleaned, hcl.registered, nofun, nofun,
      by simp, fun _ => hcl.rooms (hne cl hc), hcl.left⟩
  apply h.setClient hc _ (Client.Sound.close hover)
  have hsame := sameEntries_close { cl with handshake := .over }
  exact ⟨hsame.userId, hsame.jti, hsame.familyId, hsame.rooms,
    hsame.mapsRegistered, fun he => absurd he (hne cl hc)⟩

/-- The server may close every connection of some kind, as a revocation
does. -/
theorem Sound.closeAll (h : Sound cfg s) (clients : Finset Nat)
    (which : Client → Bool) : Sound cfg (s.closeAll clients which) := by
  have hkeep : ∀ {d : Nat} {P : Client → Prop}, (∀ x, P x → P x.close) →
      (∃ x, s.clients d = some x ∧ P x) →
        ∃ x, (s.closeAll clients which).clients d = some x ∧ P x := by
    intro d P hP h
    obtain ⟨x, hx, hPx⟩ := h
    refine ⟨if d ∈ clients ∧ which x then x.close else x, ?_, ?_⟩
    · show (s.clients d).map _ = _
      rw [hx]
      rfl
    · split
      · exact hP x hPx
      · exact hPx
  have hback : ∀ {d : Nat} {y : Client},
      (s.closeAll clients which).clients d = some y →
        ∃ x, s.clients d = some x ∧ SameEntries x y ∧ y.Sound := by
    intro d y hy
    obtain ⟨x, hx, rfl⟩ := Option.map_eq_some_iff.mp hy
    refine ⟨x, hx, ?_⟩
    split
    · exact ⟨sameEntries_close x, Client.Sound.close (h.client d x hx)⟩
    · exact ⟨⟨rfl, rfl, rfl, rfl, rfl, id⟩, h.client d x hx⟩
  constructor
  · intro d y hy
    obtain ⟨x, -, -, hsound⟩ := hback hy
    exact hsound
  · intro d u hd
    apply hkeep _ (h.user d u hd)
    intro x hx
    rw [(sameEntries_close x).mapsRegistered, (sameEntries_close x).userId]
    exact hx
  · intro d j hd
    apply hkeep _ (h.jti d j hd)
    intro x hx
    rw [(sameEntries_close x).mapsRegistered, (sameEntries_close x).jti]
    exact hx
  · intro d f hd
    apply hkeep _ (h.family d f hd)
    intro x hx
    rw [(sameEntries_close x).mapsRegistered, (sameEntries_close x).familyId]
    exact hx
  · intro d r
    refine (h.conversation d r).trans ?_
    constructor
    · intro hx
      apply hkeep _ hx
      intro x hx
      rw [(sameEntries_close x).rooms]
      exact hx
    · intro h
      obtain ⟨y, hy, hr⟩ := h
      obtain ⟨x, hx, hsame, -⟩ := hback hy
      exact ⟨x, hx, hsame.rooms ▸ hr⟩
  · intro d y hy
    obtain ⟨x, hx, hsame, -⟩ := hback hy
    rw [hsame.rooms]
    exact h.ceiling d x hx
  · exact h.capacity
  · intro m d t ht
    exact hkeep (fun x => (sameEntries_close x).established) (h.tasks m d t ht)

/-- A message is done with, and nothing else changes. -/
theorem Sound.finish (h : Sound cfg s) (n c : Nat) :
    Sound cfg (s.finish n c) := by
  have hdone : Sound cfg (s.setTask n none) := h.setTask n nofun
  apply hdone.withClient
  intro cl hc
  have hcl := hdone.client c cl hc
  exact hdone.setClient hc ⟨rfl, rfl, rfl, rfl, rfl, id⟩
    ⟨hcl.connected, hcl.closed, hcl.cleaned, hcl.registered,
      hcl.authenticating, hcl.established, hcl.session, hcl.rooms, hcl.left⟩

-- ============================================================== families

/-- A connection that has an access token may be entered under its token
family. -/
theorem Sound.registerClientFamily (h : Sound cfg s) {familyId : String}
    (hjti : ∀ cl, s.clients c = some cl → cl.jti.isSome) :
    Sound cfg (s.registerClientFamily c familyId) := by
  apply h.withClient
  intro cl hc
  have hcl := h.client c cl hc
  split
  · exact h
  · next hready =>
      split
      · exact h
      · have hopen : cl.readyState = .open := by
          by_contra hne
          exact hready ⟨hne, hcl.connected⟩
        have hregistered : cl.mapsRegistered = true := by
          rcases hcl.registered (hjti cl hc) with hmaps | hclean
          · exact hmaps
          · exact absurd hopen (hcl.cleaned hclean).2
        -- The only entry it can have is the one that is removed.
        have hmem : ∀ d f,
            d ∈ ((s.byFamily.leave cl.familyId c).add familyId c).entries f →
              d ≠ c ∧ d ∈ s.byFamily.entries f ∨ d = c ∧ f = familyId := by
          intro d f hd
          rcases Registry.mem_add_iff.mp hd with hd | ⟨hf, hd⟩
          · obtain ⟨hd, hne⟩ := Registry.mem_leave_iff.mp hd
            rcases h.family_self cl hc d f hd with hd | ⟨heq, -, hf⟩
            · exact Or.inl hd
            · exact absurd ⟨hf, heq⟩ hne
          · exact Or.inr ⟨hd, hf⟩
        apply h.replace hc
        · rfl
        · rfl
        · refine ⟨hcl.connected, hcl.closed, hcl.cleaned, hcl.registered, ?_,
            hcl.established, hcl.session, hcl.rooms, hcl.left⟩
          intro ha
          have hnone := (hcl.authenticating ha).1
          have hsome := hjti cl hc
          rw [hnone] at hsome
          cases hsome
        · exact id
        · exact h.user_self cl hc
        · exact h.jti_self cl hc
        · intro d f hd
          rcases hmem d f hd with hold | ⟨heq, hf⟩
          · exact Or.inl hold
          · exact Or.inr ⟨heq, hregistered, congrArg some hf.symm⟩
        · exact h.conversation_self cl hc
        · exact h.ceiling c cl hc
        · exact h.capacity

-- ================================================================= rooms

/-- A room that is left is taken from the maps and from the client. -/
theorem Sound.leaveConversation (h : Sound cfg s) (c : Nat) (r : Uuid) :
    Sound cfg (s.leaveConversation c r) := by
  apply h.withClient
  intro cl hc
  have hcl := h.client c cl hc
  have hnil : cl.rooms = [] → cl.rooms.filter (· ≠ r) = [] := by
    intro h
    rw [h]
    rfl
  apply h.replace hc
  · rfl
  · rfl
  · exact ⟨hcl.connected, hcl.closed, hcl.cleaned, hcl.registered,
      hcl.authenticating, hcl.established, hcl.session,
      fun hne => hnil (hcl.rooms hne), fun hmaps => hnil (hcl.left hmaps)⟩
  · exact id
  · exact h.user_self cl hc
  · exact h.jti_self cl hc
  · exact h.family_self cl hc
  · intro d r'
    rw [Registry.mem_remove_iff, List.mem_filter, decide_eq_true_eq]
    have hself := h.conversation_self cl hc d r'
    constructor
    · intro h
      obtain ⟨hmem, hne⟩ := h
      rcases hself.mp hmem with ⟨hd, -⟩ | ⟨heq, hr⟩
      · exact Or.inl ⟨hd, hmem⟩
      · exact Or.inr ⟨heq, hr, fun hr' => hne ⟨hr', heq⟩⟩
    · intro h
      rcases h with ⟨hd, hmem⟩ | ⟨heq, hr, hne⟩
      · exact ⟨hmem, fun hr => hd hr.2⟩
      · exact ⟨hself.mpr (Or.inr ⟨heq, hr⟩), fun hr => hne hr.1⟩
  · exact Nat.le_trans (List.length_filter_le _ _) (h.ceiling c cl hc)
  · exact h.capacity

/-- A join, of a client that is still registered and below its ceiling. -/
theorem Sound.joinConversation (h : Sound cfg s) (hc : s.clients c = some cl)
    (hest : cl.handshake = .established) (hmaps : cl.mapsRegistered = true)
    (hroom : cl.rooms.length < cfg.maxRoomsPerConnection) (r : Uuid) :
    Sound cfg (s.joinConversation c r) := by
  have hcl := h.client c cl hc
  unfold WsServer.joinConversation WsServer.withClient
  rw [hc]
  apply h.replace hc
  · rfl
  · rfl
  · refine ⟨hcl.connected, hcl.closed, hcl.cleaned, hcl.registered,
      hcl.authenticating, hcl.established, hcl.session,
      fun hne => absurd hest hne, ?_⟩
    intro hno
    have hno' : cl.mapsRegistered = false := hno
    rw [hmaps] at hno'
    cases hno'
  · exact id
  · exact h.user_self cl hc
  · exact h.jti_self cl hc
  · exact h.family_self cl hc
  · intro d r'
    rw [Registry.mem_add_iff, List.mem_insert_iff]
    have hself := h.conversation_self cl hc d r'
    constructor
    · intro h
      rcases h with hmem | ⟨hr, heq⟩
      · rcases hself.mp hmem with ⟨hd, -⟩ | ⟨heq, hr⟩
        · exact Or.inl ⟨hd, hmem⟩
        · exact Or.inr ⟨heq, Or.inr hr⟩
      · exact Or.inr ⟨heq, Or.inl hr⟩
    · intro h
      rcases h with ⟨-, hmem⟩ | ⟨heq, hr | hr⟩
      · exact Or.inl hmem
      · exact Or.inr ⟨hr, heq⟩
      · exact Or.inl (hself.mpr (Or.inr ⟨heq, hr⟩))
  · have hlen : (cl.rooms.insert r).length ≤ cl.rooms.length + 1 := by
      rw [List.length_insert]
      split
      · exact Nat.le_succ _
      · exact Nat.le_refl _
    exact Nat.le_trans hlen hroom
  · exact h.capacity

-- =============================================================== cleanup

/-- The rooms of a client, left one by one. -/
theorem foldl_leaveConversation (l : List Uuid)
    (hc : s.clients c = some cl) :
    let s' := l.foldl (fun s r => s.leaveConversation c r) s
    s'.clients = Function.update s.clients c
        (some { cl with rooms := cl.rooms.filter (· ∉ l) })
      ∧ s'.tasks = s.tasks ∧ s'.byUser = s.byUser ∧ s'.byJti = s.byJti
      ∧ s'.byFamily = s.byFamily
      ∧ ∀ d r, d ∈ s'.byConversation.entries r
        ↔ d ∈ s.byConversation.entries r ∧ ¬ (r ∈ l ∧ d = c) := by
  induction l generalizing s cl with
  | nil =>
      refine ⟨?_, rfl, rfl, rfl, rfl, ?_⟩
      · have hall : cl.rooms.filter (· ∉ ([] : List Uuid)) = cl.rooms :=
          List.filter_eq_self.mpr fun r _ => by simp
        rw [hall, ← hc]
        exact (Function.update_eq_self c s.clients).symm
      · exact fun d r => ⟨fun hd => ⟨hd, fun h => List.not_mem_nil h.1⟩,
          And.left⟩
  | cons room l ih =>
      have hstep : s.leaveConversation c room
          = { s.setClient c
              { cl with rooms := cl.rooms.filter (· ≠ room) } with
              byConversation := s.byConversation.remove room c } := by
        unfold leaveConversation withClient
        rw [hc]
      have hc' : (s.leaveConversation c room).clients c
          = some { cl with rooms := cl.rooms.filter (· ≠ room) } := by
        rw [hstep]
        exact Function.update_self _ _ _
      obtain ⟨hclients, htasks, huser, hjti, hfamily, hconversation⟩ := ih hc'
      rw [List.foldl_cons]
      refine ⟨?_, ?_, ?_, ?_, ?_, ?_⟩
      · rw [hclients, hstep]
        show Function.update (Function.update s.clients c _) c _ = _
        rw [Function.update_idem, List.filter_filter]
        congr 3
        apply List.filter_congr
        intro r _
        rw [← Bool.decide_and, decide_eq_decide, List.mem_cons, not_or]
        exact and_comm
      · rw [htasks, hstep]
        rfl
      · rw [huser, hstep]
        rfl
      · rw [hjti, hstep]
        rfl
      · rw [hfamily, hstep]
        rfl
      · intro d r
        rw [hconversation, hstep, Registry.mem_remove_iff, and_assoc,
          List.mem_cons]
        refine and_congr_right fun _ => ?_
        constructor
        · intro h h'
          obtain ⟨hroom, hl⟩ := h
          rcases h' with ⟨rfl | hr, hd⟩
          · exact hroom ⟨rfl, hd⟩
          · exact hl ⟨hr, hd⟩
        · intro hne
          exact ⟨fun h => hne ⟨Or.inl h.1, h.2⟩, fun h => hne ⟨Or.inr h.1, h.2⟩⟩

/-- What `leaveAll` leaves. -/
theorem leaveAll_spec (hc : s.clients c = some cl) :
    (s.leaveAll c).clients
        = Function.update s.clients c (some { cl with rooms := [] })
      ∧ (s.leaveAll c).tasks = s.tasks
      ∧ (s.leaveAll c).byUser = s.byUser.leave cl.userId c
      ∧ (s.leaveAll c).byJti = s.byJti.leave cl.jti c
      ∧ (s.leaveAll c).byFamily = s.byFamily.leave cl.familyId c
      ∧ ∀ d r, d ∈ (s.leaveAll c).byConversation.entries r
        ↔ d ∈ s.byConversation.entries r ∧ ¬ (r ∈ cl.rooms ∧ d = c) := by
  have heq : s.leaveAll c = cl.rooms.foldl
      (fun s r => s.leaveConversation c r) (s.leaveMaps c cl) := by
    unfold leaveAll withClient
    rw [hc]
  have hc' : (s.leaveMaps c cl).clients c = some cl := hc
  obtain ⟨hclients, htasks, huser, hjti, hfamily, hconversation⟩ :=
    foldl_leaveConversation cl.rooms hc'
  rw [heq]
  refine ⟨?_, htasks, huser, hjti, hfamily, hconversation⟩
  have hnil : cl.rooms.filter (· ∉ cl.rooms) = [] := by
    rw [List.filter_eq_nil_iff]
    intro r hr
    simpa using hr
  rw [hclients, hnil]
  rfl

end WsServer

/-- The fields of a client when its cleanup has begun. -/
def Client.cleaned (cl : Client) : Client :=
  { cl with
    rooms := []
    mapsRegistered := false
    cleanup :=
      if cl.presencePending then .awaitingPresence
      else if cl.presenceRegistered then .unregistering
      else .finished }

/-- A client that has been cleaned up is past the start of its cleanup. -/
theorem Client.cleanup_cleaned (cl : Client) :
    cl.cleaned.cleanup ≠ .notStarted := by
  unfold Client.cleaned
  dsimp only
  split
  · exact nofun
  · split
    · exact nofun
    · exact nofun

/-- What happens to a client after its cleanup has begun keeps its fields
together, as long as nothing is registered. -/
theorem Client.Sound.afterCleanup {cl cl' : Client} (h : cl.Sound)
    (huser : cl'.userId = cl.userId) (hjti : cl'.jti = cl.jti)
    (hfamily : cl'.familyId = cl.familyId)
    (hhandshake : cl'.handshake = cl.handshake)
    (hready : cl'.readyState ≠ .open ∧ cl'.readyState ≠ .connecting)
    (hclosed : cl.handshake = .established → cl'.closed = true) :
    cl'.cleaned.Sound where
  connected := hready.2
  closed _ := cl'.cleanup_cleaned
  cleaned _ := ⟨rfl, hready.1⟩
  registered _ := Or.inr cl'.cleanup_cleaned
  authenticating ha := by
    obtain ⟨hj, hu, hf, -⟩ := h.authenticating (hhandshake.symm.trans ha)
    exact ⟨hjti.trans hj, huser.trans hu, hfamily.trans hf, rfl⟩
  established he := by
    have he' := hhandshake.symm.trans he
    refine ⟨?_, fun _ => hclosed he'⟩
    show cl'.jti.isSome
    rw [hjti]
    exact (h.established he').1
  session hp := by
    show cl'.jti.isSome
    rw [hjti]
    apply h.session
    rw [← hhandshake]
    exact hp
  rooms _ := rfl
  left _ := rfl

namespace WsServer

variable {cfg : WsConfig} {s s' : WsServer} {c n : Nat} {cl : Client}

/-- What the first call of `cleanupConnection` leaves. -/
theorem cleanupConnection_spec (hc : s.clients c = some cl)
    (hnot : cl.cleanup = .notStarted)
    (hleft : cl.mapsRegistered = false → cl.rooms = []) :
    (s.cleanupConnection c).clients
        = Function.update s.clients c (some cl.cleaned)
      ∧ (s.cleanupConnection c).tasks = s.tasks
      ∧ if cl.mapsRegistered then
          (s.cleanupConnection c).byUser = s.byUser.leave cl.userId c
            ∧ (s.cleanupConnection c).byJti = s.byJti.leave cl.jti c
            ∧ (s.cleanupConnection c).byFamily = s.byFamily.leave cl.familyId c
            ∧ ∀ d r, d ∈ (s.cleanupConnection c).byConversation.entries r
              ↔ d ∈ s.byConversation.entries r ∧ ¬ (r ∈ cl.rooms ∧ d = c)
        else
          (s.cleanupConnection c).byUser = s.byUser
            ∧ (s.cleanupConnection c).byJti = s.byJti
            ∧ (s.cleanupConnection c).byFamily = s.byFamily
            ∧ (s.cleanupConnection c).byConversation = s.byConversation := by
  cases hmaps : cl.mapsRegistered with
  | true =>
      obtain ⟨hclients, htasks, huser, hjti, hfamily, hconversation⟩ :=
        leaveAll_spec hc
      have heq : s.cleanupConnection c = (s.leaveAll c).setClient c cl.cleaned := by
        unfold cleanupConnection withClient
        rw [hc]
        dsimp only
        rw [if_neg (not_not.mpr hnot), hmaps, if_pos rfl, hclients,
          Function.update_self]
        rfl
      rw [heq, if_pos rfl]
      refine ⟨?_, htasks, huser, hjti, hfamily, hconversation⟩
      show Function.update (s.leaveAll c).clients c _ = _
      rw [hclients, Function.update_idem]
  | false =>
      have hcleaned : ({ cl with
          mapsRegistered := false
          cleanup :=
            if cl.presencePending then .awaitingPresence
            else if cl.presenceRegistered then .unregistering
            else .finished } : Client) = cl.cleaned := by
        unfold Client.cleaned
        rw [hleft hmaps]
      have heq : s.cleanupConnection c = s.setClient c cl.cleaned := by
        unfold cleanupConnection withClient
        rw [hc]
        dsimp only
        rw [if_neg (not_not.mpr hnot), hmaps, if_neg Bool.false_ne_true, hc]
        dsimp only
        rw [hcleaned]
      rw [heq, if_neg Bool.false_ne_true]
      exact ⟨rfl, rfl, rfl, rfl, rfl, rfl⟩

/-- The first cleanup, of a client whose other fields may have just
changed. -/
theorem Sound.cleanupConnection (h : Sound cfg s) (hc : s.clients c = some cl)
    {cl' : Client} (hsame : SameEntries cl cl')
    (hnot : cl'.cleanup = .notStarted) (hcleaned : cl'.cleaned.Sound) :
    Sound cfg ((s.setClient c cl').cleanupConnection c) := by
  have hc' : (s.setClient c cl').clients c = some cl' :=
    Function.update_self _ _ _
  have hleft : cl'.mapsRegistered = false → cl'.rooms = [] := by
    intro hmaps
    rw [hsame.rooms]
    exact (h.client c cl hc).left (hsame.mapsRegistered ▸ hmaps)
  obtain ⟨hclients, htasks, hmaps⟩ := cleanupConnection_spec hc' hnot hleft
  have hclients' : ((s.setClient c cl').cleanupConnection c).clients
      = Function.update s.clients c (some cl'.cleaned) := by
    rw [hclients]
    exact Function.update_idem _ _ _
  cases hregistered : cl'.mapsRegistered with
  | true =>
      rw [hregistered, if_pos rfl] at hmaps
      obtain ⟨huser, hjti, hfamily, hconversation⟩ := hmaps
      apply h.replace hc hclients' htasks hcleaned hsame.established
      · intro d u hd
        rw [huser] at hd
        obtain ⟨hd, hne⟩ := Registry.mem_leave_iff.mp hd
        rcases h.user_self cl hc d u hd with hd | ⟨heq, -, hu⟩
        · exact Or.inl hd
        · exact absurd ⟨hsame.userId.trans hu, heq⟩ hne
      · intro d j hd
        rw [hjti] at hd
        obtain ⟨hd, hne⟩ := Registry.mem_leave_iff.mp hd
        rcases h.jti_self cl hc d j hd with hd | ⟨heq, -, hj⟩
        · exact Or.inl hd
        · exact absurd ⟨hsame.jti.trans hj, heq⟩ hne
      · intro d f hd
        rw [hfamily] at hd
        obtain ⟨hd, hne⟩ := Registry.mem_leave_iff.mp hd
        rcases h.family_self cl hc d f hd with hd | ⟨heq, -, hf⟩
        · exact Or.inl hd
        · exact absurd ⟨hsame.familyId.trans hf, heq⟩ hne
      · intro d r
        rw [hconversation, hsame.rooms]
        constructor
        · intro h
          obtain ⟨hd, hne⟩ := h
          rcases (h.conversation_self cl hc d r).mp hd with hd | ⟨heq, hr⟩
          · exact Or.inl hd
          · exact absurd ⟨hr, heq⟩ hne
        · intro h
          rcases h with ⟨hd, hmem⟩ | ⟨-, hr⟩
          · exact ⟨hmem, fun hr => hd hr.2⟩
          · exact absurd hr List.not_mem_nil
      · exact Nat.zero_le _
      · intro u
        rw [huser]
        exact Registry.card_entries_leave_le h.capacity _ u
  | false =>
      rw [hregistered, if_neg Bool.false_ne_true] at hmaps
      obtain ⟨huser, hjti, hfamily, hconversation⟩ := hmaps
      have hnone : cl.mapsRegistered = false :=
        hsame.mapsRegistered.symm.trans hregistered
      have hrooms := (h.client c cl hc).left hnone
      apply h.replace hc hclients' htasks hcleaned hsame.established
      · intro d u hd
        rw [huser] at hd
        rcases h.user_self cl hc d u hd with hd | ⟨-, hmaps, -⟩
        · exact Or.inl hd
        · rw [hnone] at hmaps
          cases hmaps
      · intro d j hd
        rw [hjti] at hd
        rcases h.jti_self cl hc d j hd with hd | ⟨-, hmaps, -⟩
        · exact Or.inl hd
        · rw [hnone] at hmaps
          cases hmaps
      · intro d f hd
        rw [hfamily] at hd
        rcases h.family_self cl hc d f hd with hd | ⟨-, hmaps, -⟩
        · exact Or.inl hd
        · rw [hnone] at hmaps
          cases hmaps
      · intro d r
        rw [hconversation]
        have hself := h.conversation_self cl hc d r
        rw [hrooms] at hself
        exact hself
      · exact Nat.zero_le _
      · intro u
        rw [huser]
        exact h.capacity u

/-- A later call does nothing. -/
theorem cleanupConnection_again (hc : s.clients c = some cl)
    (hdone : cl.cleanup ≠ .notStarted) : s.cleanupConnection c = s := by
  unfold cleanupConnection withClient
  rw [hc]
  exact if_pos hdone

/-- The close of a socket takes its client out of every map at once. -/
theorem Sound.closed (h : Sound cfg s) (c : Nat) : Sound cfg (s.closed c) := by
  apply h.withClient
  intro cl hc
  have hcl := h.client c cl hc
  split
  · exact h
  · by_cases hnot : cl.cleanup = .notStarted
    · apply h.cleanupConnection hc
      · exact ⟨rfl, rfl, rfl, rfl, rfl, id⟩
      · exact hnot
      · exact hcl.afterCleanup rfl rfl rfl rfl ⟨nofun, nofun⟩ fun _ => rfl
    · have hclosed : Sound cfg (s.setClient c
          { cl with readyState := .closed, closed := true }) := by
        apply h.setClient hc
        · exact ⟨rfl, rfl, rfl, rfl, rfl, id⟩
        · exact ⟨nofun, fun _ => hnot, fun _ => ⟨(hcl.cleaned hnot).1, nofun⟩,
            hcl.registered, hcl.authenticating,
            fun he => ⟨(hcl.established he).1, fun _ => rfl⟩, hcl.session,
            hcl.rooms, hcl.left⟩
      have hc' : (s.setClient c
          { cl with readyState := .closed, closed := true }).clients c
          = some { cl with readyState := .closed, closed := true } :=
        Function.update_self _ _ _
      rw [cleanupConnection_again hc' hnot]
      exact hclosed

/-- A handshake ends with a cleanup, as the socket is not open. -/
theorem Sound.abandon (h : Sound cfg s) (hc : s.clients c = some cl)
    (hne : cl.handshake ≠ .established) (hready : cl.readyState ≠ .open) :
    Sound cfg (s.abandon c) := by
  have hcl := h.client c cl hc
  have hclean : Sound cfg (s.cleanupConnection c)
      ∧ ∃ x, (s.cleanupConnection c).clients c = some x
        ∧ x.handshake ≠ .established ∧ x.cleanup ≠ .notStarted := by
    by_cases hnot : cl.cleanup = .notStarted
    · have hself : s.setClient c cl = s := by
        unfold WsServer.setClient
        rw [← hc, Function.update_eq_self]
      have hsame : SameEntries cl cl := ⟨rfl, rfl, rfl, rfl, rfl, id⟩
      have hsound := h.cleanupConnection hc hsame hnot
        (hcl.afterCleanup rfl rfl rfl rfl ⟨hready, hcl.connected⟩
          fun he => absurd he hne)
      rw [hself] at hsound
      refine ⟨hsound, cl.cleaned, ?_, hne, cl.cleanup_cleaned⟩
      rw [(cleanupConnection_spec hc hnot hcl.left).1]
      exact Function.update_self _ _ _
    · rw [cleanupConnection_again hc hnot]
      exact ⟨h, cl, hc, hne, hnot⟩
  obtain ⟨hsound, x, hx, hxne, hxdone⟩ := hclean
  unfold WsServer.abandon WsServer.withClient
  rw [hx]
  have hxs := hsound.client c x hx
  apply hsound.setClient hx
  · exact ⟨rfl, rfl, rfl, rfl, rfl, fun he => absurd he hxne⟩
  · exact ⟨hxs.connected, hxs.closed, hxs.cleaned, hxs.registered, nofun, nofun,
      by simp, fun _ => hxs.rooms hxne, hxs.left⟩

-- ============================================================ handshakes

/-- A client that was not there, with no entry. -/
theorem Sound.newClient (h : Sound cfg s) (hc : s.clients c = none)
    (hcl : cl.Sound) (hrooms : cl.rooms = []) :
    Sound cfg (s.setClient c cl) := by
  have hkeep : ∀ {d : Nat} {P : Client → Prop},
      (∃ x, s.clients d = some x ∧ P x) →
        ∃ x, (s.setClient c cl).clients d = some x ∧ P x := by
    intro d P h
    obtain ⟨x, hx, hP⟩ := h
    have hd : d ≠ c := by
      intro heq
      subst heq
      rw [hc] at hx
      cases hx
    refine ⟨x, ?_, hP⟩
    show Function.update s.clients c (some cl) d = some x
    rw [Function.update_of_ne hd]
    exact hx
  have hback : ∀ {d : Nat} {x : Client}, (s.setClient c cl).clients d = some x →
      x = cl ∨ s.clients d = some x := by
    intro d x hx
    rcases update_cases hx with ⟨-, hx'⟩ | ⟨-, hx'⟩
    · exact Or.inl (Option.some.inj hx').symm
    · exact Or.inr hx'
  constructor
  · intro d x hx
    rcases hback hx with rfl | hx
    · exact hcl
    · exact h.client d x hx
  · exact fun d u hd => hkeep (h.user d u hd)
  · exact fun d j hd => hkeep (h.jti d j hd)
  · exact fun d f hd => hkeep (h.family d f hd)
  · intro d r
    refine (h.conversation d r).trans ⟨hkeep, ?_⟩
    intro h
    obtain ⟨x, hx, hr⟩ := h
    rcases hback hx with rfl | hx
    · rw [hrooms] at hr
      exact absurd hr List.not_mem_nil
    · exact ⟨x, hx, hr⟩
  · intro d x hx
    rcases hback hx with rfl | hx
    · rw [hrooms]
      exact Nat.zero_le _
    · exact h.ceiling d x hx
  · exact h.capacity
  · exact fun m d t ht => hkeep (h.tasks m d t ht)

/-- A new connection has no fields yet, and nothing of it is in the maps. -/
theorem Sound.connect (h : Sound cfg s) (c : Nat) (originAllowed : Bool) :
    Sound cfg (s.connect c originAllowed) := by
  have hrefused : ({ Client.opened with handshake := .over } : Client).close.Sound :=
    Client.Sound.close ⟨nofun, nofun, fun hne => absurd rfl hne, nofun, nofun,
      nofun, by simp, fun _ => rfl, fun _ => rfl⟩
  have hopened : Client.opened.Sound :=
    ⟨nofun, nofun, fun hne => absurd rfl hne, nofun,
      fun _ => ⟨rfl, rfl, rfl, rfl⟩, nofun, by simp [Client.opened],
      fun _ => rfl, fun _ => rfl⟩
  unfold WsServer.connect
  split
  · exact h
  · next hc =>
      split
      · exact h.newClient hc hrefused rfl
      · split
        · exact h.newClient hc hopened rfl
        · exact h.newClient hc hrefused rfl

/-- A family is registered, or there is none. -/
theorem Sound.registerFamily (h : Sound cfg s) (hc : s.clients c = some cl)
    (hjti : cl.jti.isSome) (familyId : Option String) :
    Sound cfg (s.registerFamily c familyId)
      ∧ (s.registerFamily c familyId).byUser = s.byUser
      ∧ ∃ x, (s.registerFamily c familyId).clients c = some x
        ∧ x.mapsRegistered = cl.mapsRegistered ∧ x.userId = cl.userId := by
  cases familyId with
  | none => exact ⟨h, rfl, cl, hc, rfl, rfl⟩
  | some familyId =>
      have hsound : Sound cfg (s.registerClientFamily c familyId) := by
        apply h.registerClientFamily
        intro x hx
        cases hc.symm.trans hx
        exact hjti
      refine ⟨hsound, ?_⟩
      unfold WsServer.registerFamily WsServer.registerClientFamily
        WsServer.withClient
      rw [hc]
      dsimp only
      split
      · exact ⟨rfl, cl, hc, rfl, rfl⟩
      · split
        · exact ⟨rfl, cl, hc, rfl, rfl⟩
        · exact ⟨rfl, _, Function.update_self _ _ _, rfl, rfl⟩

/-- The maps of a registration, one after the other, all for a client that is
open and under its own identity. Nothing is awaited in between, so the close
handler finds all of them or none. -/
theorem Sound.register (h : Sound cfg s) (hc : s.clients c = some cl)
    (hauth : cl.handshake = .authenticating) (hclosed : cl.closed = false)
    (hopen : cl.readyState = .open) {identity : SocketIdentity}
    (hroom : (s.byUser.entries identity.userId).card < maxConnectionsPerUser) :
    Sound cfg (s.register c cl identity) := by
  have hcl := h.client c cl hc
  have hnot : cl.cleanup = .notStarted := by
    by_contra hne
    exact (hcl.cleaned hne).2 hopen
  have hnone := (hcl.authenticating hauth).2.2.2
  have hsession : Sound cfg { s.setClient c (identity.fields cl) with
      byJti := s.byJti.add identity.jti c } := by
    apply h.replace hc
    · rfl
    · rfl
    · refine ⟨hcl.connected, ?_, ?_, fun _ => Or.inl rfl, nofun, nofun,
        fun _ => rfl, fun _ => rfl, nofun⟩
      · intro hclosed'
        exact absurd (hclosed.symm.trans hclosed') Bool.false_ne_true
      · exact fun hne => absurd hnot hne
    · rw [hauth]
      exact nofun
    · intro d u hd
      rcases h.user_self cl hc d u hd with hd | ⟨-, hmaps, -⟩
      · exact Or.inl hd
      · exact absurd (hnone.symm.trans hmaps) Bool.false_ne_true
    · intro d j hd
      rcases Registry.mem_add_iff.mp hd with hd | ⟨hj, heq⟩
      · rcases h.jti_self cl hc d j hd with hd | ⟨-, hmaps, -⟩
        · exact Or.inl hd
        · exact absurd (hnone.symm.trans hmaps) Bool.false_ne_true
      · exact Or.inr ⟨heq, rfl, congrArg some hj.symm⟩
    · intro d f hd
      rcases h.family_self cl hc d f hd with hd | ⟨-, hmaps, -⟩
      · exact Or.inl hd
      · exact absurd (hnone.symm.trans hmaps) Bool.false_ne_true
    · intro d r
      have hself := h.conversation_self cl hc d r
      rw [hcl.left hnone] at hself
      exact hself
    · exact Nat.zero_le _
    · exact h.capacity
  obtain ⟨hsound, husers, x, hx, hmaps, hu⟩ := hsession.registerFamily
    (Function.update_self _ _ _) rfl identity.familyId
  refine ⟨hsound.client, ?_, hsound.jti, hsound.family, hsound.conversation,
    hsound.ceiling, ?_, hsound.tasks⟩
  · intro d u hd
    rcases Registry.mem_add_iff.mp hd with hd | ⟨rfl, rfl⟩
    · exact hsound.user d u hd
    · exact ⟨x, hx, hmaps, hu⟩
  · apply Registry.card_entries_add_le
    · exact hsound.capacity
    · rw [husers]
      exact hroom

/-- An authentication stores the identity and leaves the maps alone. -/
theorem Sound.authenticated (h : Sound cfg s) (c : Nat)
    (identity : Option SocketIdentity) :
    Sound cfg (s.authenticated c identity) := by
  apply h.withClient
  intro cl hc
  have hcl := h.client c cl hc
  by_cases hauth : cl.handshake = .authenticating
  · have hne : ∀ x, s.clients c = some x → x.handshake ≠ .established := by
      intro x hx he
      cases hc.symm.trans hx
      rw [hauth] at he
      cases he
    rw [if_neg (not_not.mpr hauth)]
    cases identity with
    | none => exact h.endHandshake hne
    | some identity =>
        dsimp only
        split
        · exact h.endHandshake hne
        · split
          · apply h.setClient hc
            · exact ⟨rfl, rfl, rfl, rfl, rfl, fun he => absurd he (hne cl hc)⟩
            · exact ⟨hcl.connected, hcl.closed, hcl.cleaned, hcl.registered,
                nofun, nofun, by simp, fun _ => hcl.rooms (hne cl hc), hcl.left⟩
          · next hlive =>
              split
              · exact h.endHandshake hne
              · next hcard =>
                  apply h.register hc hauth
                  · cases hclosed : cl.closed with
                    | false => rfl
                    | true => exact absurd (Or.inl hclosed) hlive
                  · by_contra hopen
                    exact hlive (Or.inr hopen)
                  · exact Nat.lt_of_not_le hcard
  · rw [if_pos hauth]
    exact h

/-- A connection whose session is alive is entered into the maps, unless it
was closed meanwhile. -/
theorem Sound.sessionChecked (h : Sound cfg s) (c : Nat) (answer : Answer) :
    Sound cfg (s.sessionChecked c answer) := by
  apply h.withClient
  intro cl hc
  have hcl := h.client c cl hc
  by_cases hphase : cl.handshake = .checkingSession
  · have hne : ∀ x, s.clients c = some x → x.handshake ≠ .established := by
      intro x hx he
      cases hc.symm.trans hx
      rw [hphase] at he
      cases he
    rw [if_neg (not_not.mpr hphase)]
    split
    · exact h.endHandshake hne
    · split
      · next hgone =>
          apply h.abandon hc (hne cl hc)
          rcases hgone with hclosed | hready
          · exact (hcl.cleaned (hcl.closed hclosed)).2
          · exact hready
      · apply h.setClient hc
        · exact ⟨rfl, rfl, rfl, rfl, rfl, fun he => absurd he (hne cl hc)⟩
        · exact ⟨hcl.connected, hcl.closed, hcl.cleaned, hcl.registered,
            nofun, nofun, fun _ => hcl.session (Or.inl hphase),
            fun _ => hcl.rooms (hne cl hc), hcl.left⟩
  · rw [if_pos hphase]
    exact h

/-- A registered presence establishes the connection, if it is still open;
otherwise the handshake ends and leaves the client to its close handler. -/
theorem Sound.presenceRegistered (h : Sound cfg s) (c : Nat) (done : Bool) :
    Sound cfg (s.presenceRegistered c done) := by
  apply h.withClient
  intro cl hc
  have hcl := h.client c cl hc
  by_cases hphase : cl.handshake = .registeringPresence
  · have hne : cl.handshake ≠ .established := by
      rw [hphase]
      exact nofun
    rw [if_neg (not_not.mpr hphase)]
    -- The presence is known.
    have hsettled : Sound cfg (s.setClient c { cl with
        presencePending := false
        presenceRegistered := done }) := by
      apply h.setClient hc
      · exact ⟨rfl, rfl, rfl, rfl, rfl, id⟩
      · exact ⟨hcl.connected, hcl.closed, hcl.cleaned, hcl.registered,
          hcl.authenticating, hcl.established, hcl.session, hcl.rooms, hcl.left⟩
    have hc' : (s.setClient c { cl with
        presencePending := false
        presenceRegistered := done }).clients c = some { cl with
          presencePending := false
          presenceRegistered := done } := Function.update_self _ _ _
    dsimp only
    split
    · apply hsettled.endHandshake
      intro x hx
      cases hc'.symm.trans hx
      exact hne
    · split
      · next hgone =>
          apply hsettled.abandon hc' hne
          rcases hgone with hclosed | hready
          · exact (hcl.cleaned (hcl.closed hclosed)).2
          · exact hready
      · next hlive =>
          have hopen : cl.readyState = .open := by
            by_contra hready
            exact hlive (Or.inr hready)
          have hnot : cl.cleanup = .notStarted := by
            by_contra hdone
            exact (hcl.cleaned hdone).2 hopen
          apply hsettled.setClient hc'
          · exact ⟨rfl, rfl, rfl, rfl, rfl, fun _ => rfl⟩
          · refine ⟨hcl.connected, hcl.closed, hcl.cleaned, hcl.registered,
              nofun, fun _ => ⟨?_, fun hdone => absurd hnot hdone⟩, by simp,
              fun he => absurd rfl he, hcl.left⟩
            exact hcl.session (Or.inr hphase)
  · rw [if_pos hphase]
    exact h

/-- The rest of a cleanup has nothing to take out of the maps. -/
theorem Sound.cleanupContinues (h : Sound cfg s) (c : Nat) :
    Sound cfg (s.cleanupContinues c) := by
  apply h.withClient
  intro cl hc
  have hcl := h.client c cl hc
  -- The cleanup has begun, and goes on.
  have hgoes : ∀ (registered : Bool) (next : Cleanup), next ≠ .notStarted →
      cl.cleanup ≠ .notStarted → Sound cfg (s.setClient c { cl with
        presenceRegistered := registered
        cleanup := next }) := by
    intro registered next hnext hbegun
    apply h.setClient hc
    · exact ⟨rfl, rfl, rfl, rfl, rfl, id⟩
    · exact ⟨hcl.connected, fun _ => hnext, fun _ => hcl.cleaned hbegun,
        fun _ => Or.inr hnext, hcl.authenticating, fun he =>
          ⟨(hcl.established he).1, fun _ => (hcl.established he).2 hbegun⟩,
        hcl.session, hcl.rooms, hcl.left⟩
  split
  · next heq =>
      split
      · exact h
      · apply hgoes cl.presenceRegistered
        · split
          · exact nofun
          · exact nofun
        · rw [heq]
          exact nofun
  · next heq =>
      apply hgoes false
      · exact nofun
      · rw [heq]
        exact nofun
  · exact h

-- ============================================================== messages

/-- A message that arrives begins to be handled, and the maps stay. -/
theorem Sound.frame (h : Sound cfg s) (c n now : Nat)
    (message : Option IncomingMessage) :
    Sound cfg (s.frame cfg c n now message) := by
  apply h.withClient
  intro cl hc
  have hcl := h.client c cl hc
  have hcounted : ∀ (frameAt : List Nat) (pending : Nat),
      Sound cfg (s.setClient c { cl with
        frameAt := frameAt
        pendingHandlers := pending }) := by
    intro frameAt pending
    apply h.setClient hc
    · exact ⟨rfl, rfl, rfl, rfl, rfl, id⟩
    · exact ⟨hcl.connected, hcl.closed, hcl.cleaned, hcl.registered,
        hcl.authenticating, hcl.established, hcl.session, hcl.rooms, hcl.left⟩
  split
  · exact h
  · next hphase =>
      have hest : cl.handshake = .established := by
        by_contra hne
        exact hphase (Or.inl hne)
      split
      · exact h.closeClient c
      · dsimp only
        split
        · exact (hcounted _ cl.pendingHandlers).closeClient c
        · split
          · exact hcounted _ cl.pendingHandlers
          · split
            · exact hcounted _ cl.pendingHandlers
            · split
              · exact hcounted _ cl.pendingHandlers
              · apply (hcounted _ _).setTask
                intro d x h
                cases h
                exact ⟨_, Function.update_self _ _ _, hest⟩

/-- A message whose session is gone closes the connection; another is handled
further. -/
theorem Sound.messageSessionChecked (h : Sound cfg s) (n : Nat)
    (answer : Answer) : Sound cfg (s.messageSessionChecked n answer) := by
  unfold WsServer.messageSessionChecked
  split
  · next c msg htask =>
      split
      · apply h.setTask
        intro d x h
        cases h
        exact h.tasks n c _ htask
      · exact (h.closeClient c).finish n c
      · split
        · exact h.finish n c
        · exact (h.closeClient c).finish n c
  · exact h

/-- The start of a join registers nothing: the access check comes first. -/
theorem Sound.beginJoin (h : Sound cfg s) (hc : s.clients c = some cl)
    (hest : cl.handshake = .established) (n now : Nat) (r : Uuid) :
    Sound cfg (s.beginJoin cfg n c cl now r) := by
  have hcl := h.client c cl hc
  have hcounted : ∀ joinAt : List Nat,
      Sound cfg (s.setClient c { cl with joinAt := joinAt }) := by
    intro joinAt
    apply h.setClient hc
    · exact ⟨rfl, rfl, rfl, rfl, rfl, id⟩
    · exact ⟨hcl.connected, hcl.closed, hcl.cleaned, hcl.registered,
        hcl.authenticating, hcl.established, hcl.session, hcl.rooms, hcl.left⟩
  unfold WsServer.beginJoin
  dsimp only
  split
  · apply h.setTask
    intro d x h
    cases h
    exact ⟨cl, hc, hest⟩
  · split
    · exact (hcounted _).finish n c
    · apply (hcounted _).setTask
      intro d x h
      cases h
      exact ⟨_, Function.update_self _ _ _, hest⟩

/-- Nor does the start of a send. -/
theorem Sound.beginSend (h : Sound cfg s) (hc : s.clients c = some cl)
    (hest : cl.handshake = .established) (n now : Nat) :
    Sound cfg (s.beginSend n c cl now) := by
  have hcl := h.client c cl hc
  have hcounted : ∀ sentAt : List Nat,
      Sound cfg (s.setClient c { cl with sentAt := sentAt }) := by
    intro sentAt
    apply h.setClient hc
    · exact ⟨rfl, rfl, rfl, rfl, rfl, id⟩
    · exact ⟨hcl.connected, hcl.closed, hcl.cleaned, hcl.registered,
        hcl.authenticating, hcl.established, hcl.session, hcl.rooms, hcl.left⟩
  unfold WsServer.beginSend
  dsimp only
  split
  · exact h.finish n c
  · split
    · exact (hcounted _).finish n c
    · apply (hcounted _).setTask
      intro d x h
      cases h
      exact ⟨_, Function.update_self _ _ _, hest⟩

/-- A user that is banned has the connection closed. -/
theorem Sound.userVerified (h : Sound cfg s) (n now : Nat) (answer : Answer) :
    Sound cfg (s.userVerified cfg n now answer) := by
  unfold WsServer.userVerified
  split
  · next c msg htask =>
      obtain ⟨cl, hc, hest⟩ := h.tasks n c _ htask
      have hcl : ∀ x, s.clients c = some x → x.handshake = .established := by
        intro x hx
        cases hc.symm.trans hx
        exact hest
      split
      · exact h.finish n c
      · split
        · exact (h.closeClient c).finish n c
        · split
          · exact h.withClient fun x hx => h.beginJoin hx (hcl x hx) n now _
          · exact (h.leaveConversation c _).finish n c
          · exact h.withClient fun x hx => h.beginSend hx (hcl x hx) n now
  · exact h

/-- A join is granted to a connection that is closed already. -/
def Late (cfg : WsConfig) (s : WsServer) (e : WsEvent) : Prop :=
  ∃ n c r cl, e = .accessChecked n .passed
    ∧ s.tasks n = some (c, .checkingAccess r false)
    ∧ s.clients c = some cl ∧ cl.closed = true
    ∧ cl.rooms.length < cfg.maxRoomsPerConnection ∧ s.shuttingDown = false

/-- A join enters the room, if the connection's cleanup is not over by
then. -/
theorem Sound.accessChecked (h : Sound cfg s) (n : Nat) (answer : Answer)
    (hlate : ¬ Late cfg s (.accessChecked n answer)) :
    Sound cfg (s.accessChecked cfg n answer) := by
  unfold WsServer.accessChecked
  split
  · next c r joined htask =>
      split
      · exact h.finish n c
      · next hdown =>
          split
          · exact h.finish n c
          · split
            · exact (h.leaveConversation c r).finish n c
            · exact h.finish n c
          · split
            · exact h.finish n c
            · next hjoined =>
                apply h.withClient
                intro cl hc
                split
                · exact h.finish n c
                · next hroom =>
                    apply Sound.finish
                    have hcl := h.client c cl hc
                    obtain ⟨x, hx, hest⟩ := h.tasks n c _ htask
                    cases hc.symm.trans hx
                    apply h.joinConversation hc hest
                    · rcases hcl.registered (hcl.established hest).1 with
                        hmaps | hdone
                      · exact hmaps
                      · exfalso
                        apply hlate
                        refine ⟨n, c, r, cl, rfl, ?_, hc,
                          (hcl.established hest).2 hdone,
                          Nat.lt_of_not_le hroom, Bool.eq_false_of_not_eq_true hdown⟩
                        rw [htask, Bool.eq_false_of_not_eq_true hjoined]
                    · exact Nat.lt_of_not_le hroom
  · exact h

/-- What the maps have agrees with the clients after every event that is no
late join. -/
theorem Sound.step (h : Sound cfg s) (e : WsEvent) (hlate : ¬ Late cfg s e) :
    Sound cfg (WsServer.step cfg s e) := by
  cases e with
  | connect c originAllowed => exact h.connect c originAllowed
  | authenticated c identity => exact h.authenticated c identity
  | sessionChecked c answer => exact h.sessionChecked c answer
  | presenceRegistered c done => exact h.presenceRegistered c done
  | frame c n now message => exact h.frame c n now message
  | messageSessionChecked n answer => exact h.messageSessionChecked n answer
  | userVerified n now answer => exact h.userVerified n now answer
  | accessChecked n answer => exact h.accessChecked n answer hlate
  | sent n =>
      show Sound cfg (s.sent n)
      unfold WsServer.sent
      split
      · exact h.finish n _
      · exact h
  | familyResolved c familyId =>
      apply h.withClient
      intro cl hc
      split
      · next hset =>
          apply h.registerClientFamily
          intro x hx
          cases hc.symm.trans hx
          exact hset.1
      · exact h
  | sessionRevoked jti => exact h.closeAll _ _
  | familyRevoked familyId => exact h.closeAll _ _
  | userRevoked userId exceptSessionId => exact h.closeAll _ _
  | closing c => exact h.closeClient c
  | closed c => exact h.closed c
  | cleanupContinues c => exact h.cleanupContinues c
  | shutdown =>
      exact ⟨h.client, h.user, h.jti, h.family, h.conversation, h.ceiling,
        h.capacity, h.tasks⟩

/-- A server that has just started has no client and empty maps. -/
theorem started_sound (cfg : WsConfig) : Sound cfg started where
  client c cl hc := by cases hc
  user c u hc := absurd hc (Finset.notMem_empty c)
  jti c j hc := absurd hc (Finset.notMem_empty c)
  family c f hc := absurd hc (Finset.notMem_empty c)
  conversation c r :=
    ⟨fun hc => absurd hc (Finset.notMem_empty c), fun ⟨_, hx, _⟩ => by cases hx⟩
  ceiling c cl hc := by cases hc
  capacity u := Nat.zero_le _
  tasks n c t ht := by cases ht

-- ============================================================ live only

/-- What the registries promise at every moment. -/
structure LiveOnly (cfg : WsConfig) (s : WsServer) : Prop where
  /-- Cleaned up, and no message handler under way. -/
  gone : ∀ c cl, s.clients c = some cl → cl.cleanup = .finished →
    (∀ n t, s.tasks n ≠ some (c, t)) →
      (∀ u, c ∉ s.byUser.entries u) ∧ (∀ j, c ∉ s.byJti.entries j)
        ∧ (∀ f, c ∉ s.byFamily.entries f)
        ∧ ∀ r, c ∉ s.byConversation.entries r
  filled : (∀ u, s.byUser.map u ≠ some ∅) ∧ (∀ j, s.byJti.map j ≠ some ∅)
    ∧ (∀ f, s.byFamily.map f ≠ some ∅) ∧ ∀ r, s.byConversation.map r ≠ some ∅
  connections : ∀ u, (s.byUser.entries u).card ≤ maxConnectionsPerUser
  rooms : ∀ c cl, s.clients c = some cl →
    cl.rooms.length ≤ cfg.maxRoomsPerConnection
  agree : ∀ c r, c ∈ s.byConversation.entries r
    ↔ ∃ cl, s.clients c = some cl ∧ r ∈ cl.rooms

/-- Maps that agree with the clients hold live connections only. -/
theorem Sound.liveOnly (h : Sound cfg s) : LiveOnly cfg s where
  gone c cl hc hdone _ := by
    have hcl := h.client c cl hc
    have hbegun : cl.cleanup ≠ .notStarted := by
      rw [hdone]
      exact nofun
    have hmaps := (hcl.cleaned hbegun).1
    have hnone : ∀ {P : Client → Prop}, ¬ ∃ x, s.clients c = some x
        ∧ x.mapsRegistered = true ∧ P x := by
      intro P h
      obtain ⟨x, hx, htrue, -⟩ := h
      cases hc.symm.trans hx
      exact Bool.false_ne_true (hmaps.symm.trans htrue)
    refine ⟨fun u hu => hnone (h.user c u hu), fun j hj => hnone (h.jti c j hj),
      fun f hf => hnone (h.family c f hf), ?_⟩
    intro r hr
    obtain ⟨x, hx, hmem⟩ := (h.conversation c r).mp hr
    cases hc.symm.trans hx
    rw [hcl.left hmaps] at hmem
    exact List.not_mem_nil hmem
  filled := ⟨fun u => s.byUser.map_ne u, fun j => s.byJti.map_ne j,
    fun f => s.byFamily.map_ne f, fun r => s.byConversation.map_ne r⟩
  connections := h.capacity
  rooms := h.ceiling
  agree := h.conversation

/-- In every run without a late join, the four registries hold live
connections only, under the user, the session, the family and the
conversations of each. A handler may be suspended at any `await` while the
connection closes, so what it has checked before is looked at again
(`LiveOnly`). -/
theorem registries_liveOnly (cfg : WsConfig) (events : List WsEvent)
    (h : Along (step cfg) (fun s e => ¬ Late cfg s e) started events) :
    LiveOnly cfg (run (step cfg) started events) :=
  (run_keeps_along (fun _ e hlate hs => hs.step e hlate) h
    (started_sound cfg)).liveOnly

-- ============================================================= late joins

/-- The defaults of the environment. -/
def defaultConfig : WsConfig where
  maxFramesPerMin := 120
  maxJoinsPerMin := 30
  maxConcurrentHandlers := 8
  maxRoomsPerConnection := 50

/-- A user who connects and asks to join a room, up to its access check. -/
def joining (userId room : Uuid) : List WsEvent :=
  [.connect 0 true,
    .authenticated 0 (some ⟨userId, "jti", none, 1, true⟩),
    .sessionChecked 0 .passed,
    .presenceRegistered 0 true,
    .frame 0 0 0 (some (.join room)),
    .messageSessionChecked 0 .passed,
    .userVerified 0 0 .passed]

/-- A connection that joins a room and closes is in no registry any more. -/
theorem registries_liveOnly_joined : LiveOnly defaultConfig
    (run (step defaultConfig) started
      (joining ⟨1⟩ ⟨2⟩ ++ [.accessChecked 0 .passed, .closed 0])) := by
  apply registries_liveOnly
  have hearly : ∀ {s : WsServer} {e : WsEvent},
      e ≠ .accessChecked 0 .passed → (∀ n, n ≠ 0 → e ≠ .accessChecked n .passed) →
        ¬ Late defaultConfig s e := by
    intro s e hne hother h
    obtain ⟨n, c, r, cl, he, -⟩ := h
    by_cases hn : n = 0
    · subst hn
      exact hne he
    · exact hother n hn he
  refine ⟨hearly nofun nofun, hearly nofun nofun, hearly nofun nofun,
    hearly nofun nofun, hearly nofun nofun, hearly nofun nofun,
    hearly nofun nofun, ?_, hearly nofun nofun, trivial⟩
  -- The connection is open when its access check comes back.
  intro h
  obtain ⟨n, c, r, cl, he, htask, hc, hclosed, -⟩ := h
  cases he
  cases htask
  cases hc
  cases hclosed

/-- The access check comes back when the cleanup is over. -/
theorem late_join_not_liveOnly : ¬ ∀ (cfg : WsConfig) (events : List WsEvent),
    LiveOnly cfg (run (step cfg) started events) := by
  intro h
  have hlate := h defaultConfig (joining ⟨1⟩ ⟨2⟩
    ++ [.closed 0, .cleanupContinues 0, .accessChecked 0 .passed])
  have hidle : ∀ n t, (run (step defaultConfig) started (joining ⟨1⟩ ⟨2⟩
      ++ [.closed 0, .cleanupContinues 0, .accessChecked 0 .passed])).tasks n
        ≠ some (0, t) := by
    intro n t
    cases n with
    | zero => exact nofun
    | succ n => exact nofun
  obtain ⟨-, -, -, hroom⟩ := hlate.gone 0 _ rfl rfl hidle
  exact hroom ⟨2⟩ (by decide)

end WsServer

end Skrynia
