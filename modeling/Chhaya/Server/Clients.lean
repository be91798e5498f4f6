import Chhaya.Server.Signaling

/-!
# The maps of clients and users

What the acts of the signaling server do to its two maps and to the frames it has sent, whatever called them.

- `Hub.Indexed.act`: every act keeps every client listed under its user.
- `Hub.Listed.act`: what else keeps that who is listed is there.
- `Hub.act_clients`, `Hub.act_members`, `Hub.act_sent`: where clients, members and frames come from.
-/

namespace Chhaya

namespace Server

/-! ## The index -/

/-- The maps of two states are the same. -/
structure Hub.SameIndex (h h' : Hub) : Prop where
  clients : h'.clients = h.clients
  userClients : h'.userClients = h.userClients

/-- Every client is listed under its user, and no list is empty. -/
structure Hub.Indexed (h : Hub) : Prop where
  own : ∀ id c, h.clients.lookup id = some c → c.id = id ∧ c.ws = id ∧ id ∈ h.members c.userId.text
  full : ∀ user ids, h.userClients.lookup user = some ids → ids ≠ []

section Index

variable {h h' h'' : Hub} {id ws now : Nat} {user : String} {signal : Signal}

theorem Hub.SameIndex.refl (h : Hub) : h.SameIndex h := ⟨rfl, rfl⟩

theorem Hub.SameIndex.trans (h₁ : h.SameIndex h') (h₂ : h'.SameIndex h'') : h.SameIndex h'' :=
  ⟨h₂.clients.trans h₁.clients, h₂.userClients.trans h₁.userClients⟩

theorem Hub.SameIndex.indexed (hs : h.SameIndex h') (hi : h.Indexed) : h'.Indexed := by
  refine ⟨fun id c hc => ?_, fun user ids hu => ?_⟩
  · rw [hs.clients] at hc
    rw [Hub.members, hs.userClients]
    exact hi.own id c hc
  · rw [hs.userClients] at hu
    exact hi.full user ids hu

theorem Hub.send_same (h : Hub) (ws : Nat) (signal : Signal) : h.SameIndex (h.send ws signal) := by
  unfold Hub.send
  split <;> exact ⟨rfl, rfl⟩

/-- The step of a broadcast for one member. -/
def Hub.deliver (signal : Signal) (h : Hub) (id : Nat) : Hub :=
  match h.clients.lookup id with
  | some client => h.send client.ws signal
  | none => h

theorem Hub.broadcast_eq (h : Hub) (user : String) (signal : Signal) :
    h.broadcast user signal = (h.members user).foldl (Hub.deliver signal) h := rfl

theorem Hub.deliver_same (h : Hub) (signal : Signal) (id : Nat) : h.SameIndex (h.deliver signal id) := by
  unfold Hub.deliver
  split
  · exact h.send_same _ _
  · exact .refl h

theorem Hub.deliver_fold_same (signal : Signal) (ids : List Nat) (h : Hub) :
    h.SameIndex (ids.foldl (Hub.deliver signal) h) := by
  induction ids generalizing h with
  | nil => exact .refl h
  | cons id ids ih => exact (h.deliver_same signal id).trans (ih _)

theorem Hub.broadcast_same (h : Hub) (user : String) (signal : Signal) : h.SameIndex (h.broadcast user signal) :=
  Hub.deliver_fold_same signal _ h

theorem Hub.announce_same (h : Hub) (n : Notification) (now : Nat) : h.SameIndex (h.announce n now) := by
  unfold Hub.announce
  generalize n.users = users
  induction users generalizing h with
  | nil => exact .refl h
  | cons user users ih => exact (h.broadcast_same _ _).trans (ih _)

/-- Who is a member after an id has left the set of a user. -/
theorem Hub.members_leave (h : Hub) (left user : String) (id : Nat) :
    (h.leave left id).members user = if user = left then (h.members user).filter (· ≠ id) else h.members user := by
  unfold Hub.leave
  cases hl : h.userClients.lookup left with
  | none =>
    by_cases hu : user = left
    · subst hu
      simp [Hub.members, hl]
    · rw [if_neg hu]
  | some ids =>
    unfold Hub.members
    by_cases hu : user = left
    · subst hu
      rw [if_pos rfl, hl]
      by_cases hnil : ids.filter (· ≠ id) = []
      · simp only [if_pos hnil, AList.lookup_erase, Option.getD_none, Option.getD_some]
        exact hnil.symm
      · simp only [if_neg hnil, AList.lookup_insert, Option.getD_some]
    · rw [if_neg hu]
      by_cases hnil : ids.filter (· ≠ id) = []
      · simp only [if_pos hnil, AList.lookup_erase_ne hu]
      · simp only [if_neg hnil, AList.lookup_insert_ne hu]

theorem Hub.leave_clients (h : Hub) (user : String) (id : Nat) : (h.leave user id).clients = h.clients := by
  unfold Hub.leave
  split <;> rfl

theorem Hub.leave_full (hf : ∀ user ids, h.userClients.lookup user = some ids → ids ≠ []) (left : String) (id : Nat) :
    ∀ user ids, (h.leave left id).userClients.lookup user = some ids → ids ≠ [] := by
  intro user ids hu
  unfold Hub.leave at hu
  cases hl : h.userClients.lookup left with
  | none =>
    rw [hl] at hu
    exact hf user ids hu
  | some old =>
    simp only [hl] at hu
    by_cases hsame : user = left
    · subst hsame
      by_cases hnil : old.filter (· ≠ id) = []
      · rw [if_pos hnil, AList.lookup_erase] at hu
        cases hu
      · rw [if_neg hnil, AList.lookup_insert] at hu
        cases hu
        exact hnil
    · refine hf user ids ?_
      by_cases hnil : old.filter (· ≠ id) = []
      · rwa [if_pos hnil, AList.lookup_erase_ne hsame] at hu
      · rwa [if_neg hnil, AList.lookup_insert_ne hsame] at hu

theorem Hub.disconnect_clients (h : Hub) (id : Nat) : (h.disconnect id).clients = h.clients.erase id := by
  unfold Hub.disconnect
  cases hc : h.clients.lookup id with
  | none =>
    refine (AList.ext ?_).symm
    exact List.kerase_of_notMem_keys (AList.lookup_eq_none.mp hc)
  | some client => exact Hub.leave_clients _ _ _

/-- A client that is left keeps its place. -/
theorem Hub.members_disconnect {other : Nat} (ho : other ≠ id) (hm : other ∈ h.members user) :
    other ∈ (h.disconnect id).members user := by
  unfold Hub.disconnect
  cases hc : h.clients.lookup id with
  | none => exact hm
  | some client =>
    rw [Hub.members_leave]
    have hsame : ({ h with clients := h.clients.erase id } : Hub).members user = h.members user := rfl
    split
    · rw [hsame]
      exact List.mem_filter.mpr ⟨hm, by simpa using ho⟩
    · exact hm

theorem Hub.members_disconnect_sub {other : Nat} (hm : other ∈ (h.disconnect id).members user) : other ∈ h.members user := by
  unfold Hub.disconnect at hm
  cases hc : h.clients.lookup id with
  | none =>
    rw [hc] at hm
    exact hm
  | some client =>
    simp only [hc] at hm
    rw [Hub.members_leave] at hm
    split at hm
    · exact (List.mem_filter.mp hm).1
    · exact hm

theorem Hub.Indexed.disconnect (hi : h.Indexed) (id : Nat) : (h.disconnect id).Indexed := by
  refine ⟨fun other c hc => ?_, ?_⟩
  · rw [Hub.disconnect_clients] at hc
    by_cases ho : other = id
    · subst ho
      rw [AList.lookup_erase] at hc
      cases hc
    · rw [AList.lookup_erase_ne ho] at hc
      obtain ⟨h1, h2, h3⟩ := hi.own other c hc
      exact ⟨h1, h2, Hub.members_disconnect ho h3⟩
  · unfold Hub.disconnect
    cases hc : h.clients.lookup id with
    | none => exact hi.full
    | some client => exact Hub.leave_full (h := { h with clients := h.clients.erase id }) hi.full _ _

theorem Hub.members_register (h : Hub) (client : ConnectedClient) (user : String) :
    (h.register client).members user = if user = client.userId.text then
      (if client.id ∈ h.members user then h.members user else h.members user ++ [client.id]) else h.members user := by
  show (AList.lookup user (AList.insert client.userId.text _ h.userClients)).getD [] = _
  by_cases hu : user = client.userId.text
  · subst hu
    rw [if_pos rfl, AList.lookup_insert]
    rfl
  · rw [if_neg hu, AList.lookup_insert_ne hu]
    rfl

/-- What is registered is a client of its user, and listed under it. -/
theorem Hub.register_listed (h : Hub) (client : ConnectedClient) :
    (h.register client).clients.lookup client.id = some client ∧
      client.id ∈ (h.register client).members client.userId.text := by
  refine ⟨AList.lookup_insert _, ?_⟩
  rw [Hub.members_register, if_pos rfl]
  split
  · assumption
  · exact List.mem_append_right _ (List.mem_singleton.mpr rfl)

/-- Who is listed stays listed when a client is registered. -/
theorem Hub.register_keeps (client : ConnectedClient) {other : Nat} (hm : other ∈ h.members user) :
    other ∈ (h.register client).members user := by
  rw [Hub.members_register]
  split
  · split
    · exact hm
    · exact List.mem_append_left _ hm
  · exact hm

theorem Hub.Indexed.register (hi : h.Indexed) {client : ConnectedClient} (hws : client.ws = client.id) :
    (h.register client).Indexed := by
  refine ⟨fun id c hc => ?_, fun user ids hu => ?_⟩
  · have hlookup : AList.lookup id (h.clients.insert client.id client) = some c := hc
    by_cases hid : id = client.id
    · subst hid
      rw [AList.lookup_insert] at hlookup
      cases hlookup
      exact ⟨rfl, hws, (h.register_listed client).2⟩
    · rw [AList.lookup_insert_ne hid] at hlookup
      obtain ⟨h1, h2, h3⟩ := hi.own id c hlookup
      exact ⟨h1, h2, Hub.register_keeps client h3⟩
  · have hlookup : AList.lookup user (h.userClients.insert client.userId.text _) = some ids := hu
    by_cases hsame : user = client.userId.text
    · subst hsame
      rw [AList.lookup_insert] at hlookup
      cases hlookup
      split
      · exact fun hnil => by simp_all
      · exact List.append_ne_nil_of_right_ne_nil _ (List.cons_ne_nil _ _)
    · rw [AList.lookup_insert_ne hsame] at hlookup
      exact hi.full user ids hlookup

/-- What a pong leaves in the map. -/
theorem Hub.pong_clients {client c : ConnectedClient} (hc : (h.pong client now).clients.lookup id = some c) :
    ∃ c', h.clients.lookup id = some c' ∧ c'.id = c.id ∧ c'.ws = c.ws ∧ c'.userId = c.userId := by
  unfold Hub.pong at hc
  cases hl : h.clients.lookup client.id with
  | none =>
    rw [hl] at hc
    exact ⟨c, hc, rfl, rfl, rfl⟩
  | some old =>
    simp only [hl] at hc
    split at hc
    · by_cases hid : id = client.id
      · subst hid
        rw [AList.lookup_insert] at hc
        cases hc
        exact ⟨old, hl, rfl, rfl, rfl⟩
      · rw [AList.lookup_insert_ne hid] at hc
        exact ⟨c, hc, rfl, rfl, rfl⟩
    · exact ⟨c, hc, rfl, rfl, rfl⟩

theorem Hub.pong_userClients (h : Hub) (client : ConnectedClient) (now : Nat) :
    (h.pong client now).userClients = h.userClients := by
  unfold Hub.pong
  split
  · rfl
  · split <;> rfl

theorem Hub.Indexed.pong (hi : h.Indexed) (client : ConnectedClient) (now : Nat) : (h.pong client now).Indexed := by
  refine ⟨fun id c hc => ?_, fun user ids hu => ?_⟩
  · obtain ⟨c', hc', h1, h2, h3⟩ := Hub.pong_clients hc
    obtain ⟨h4, h5, h6⟩ := hi.own id c' hc'
    rw [← h1, ← h2, ← h3, Hub.members, Hub.pong_userClients]
    exact ⟨h4, h5, h6⟩
  · rw [Hub.pong_userClients] at hu
    exact hi.full user ids hu

/-- What a cleanup does, it does client by client. -/
theorem Hub.cleanup_inv (h : Hub) (now : Nat) {K : Hub → Prop} (hK : K h)
    (hstep : ∀ {h ws id}, K h → K ((h.close ws).disconnect id)) : K (h.cleanupStaleClients now) := by
  unfold Hub.cleanupStaleClients
  generalize h.clients.entries = entries
  induction entries generalizing h with
  | nil => exact hK
  | cons e entries ih =>
    refine ih _ ?_
    show K (if e.2.lastPing + 60000 < now then _ else _)
    split
    · exact hstep hK
    · exact hK

theorem Hub.heartbeat_inv (h : Hub) (id now : Nat) {K : Hub → Prop} (hK : K h)
    (hdisconnect : ∀ {h}, K h → K (h.disconnect id)) (hclear : ∀ {h}, K h → K (h.clearPing id))
    (hsend : ∀ {h}, K h → K (h.send id ⟨"ping", .obj [], "server", none, now⟩)) : K (h.heartbeat id now) := by
  unfold Hub.heartbeat
  split
  · split
    · exact hclear hK
    · split
      · exact hdisconnect (hclear hK)
      · exact hsend hK
  · exact hK

/-- Every act keeps the index. -/
theorem Hub.Indexed.act (hi : h.Indexed) (now : Nat) (a : HubAct) : (h.act now a).Indexed := by
  cases a with
  | connect => exact Hub.SameIndex.indexed (h := h) ⟨rfl, rfl⟩ hi
  | send ws type payload => exact (h.send_same _ _).indexed hi
  | close ws => exact Hub.SameIndex.indexed (h := h) ⟨rfl, rfl⟩ hi
  | register id userId deviceId conversationId token => exact hi.register rfl
  | pong client => exact hi.pong client now
  | broadcast user type payload sender => exact (h.broadcast_same _ _).indexed hi
  | closed id =>
    have hsame : h.SameIndex { h with sockets := Function.update h.sockets id {} } := ⟨rfl, rfl⟩
    exact (hsame.indexed hi).disconnect id
  | heartbeat id =>
    exact Hub.heartbeat_inv h id now hi (fun hK => hK.disconnect id)
      (fun {h} hK => Hub.SameIndex.indexed (h := h) ⟨rfl, rfl⟩ hK) fun hK => (Hub.send_same _ _ _).indexed hK
  | cleanup =>
    refine Hub.cleanup_inv h now hi fun {h ws id} hK => ?_
    have hsame : h.SameIndex (h.close ws) := ⟨rfl, rfl⟩
    exact (hsame.indexed hK).disconnect id

/-- Who is listed under a user has a client of that user. -/
def Hub.Listed (h : Hub) : Prop := ∀ id user, id ∈ h.members user → ∃ c, h.clients.lookup id = some c ∧ c.userId.text = user

theorem Hub.SameIndex.listed (hs : h.SameIndex h') (hl : h.Listed) : h'.Listed := by
  intro id user hm
  rw [hs.clients]
  rw [Hub.members, hs.userClients] at hm
  exact hl id user hm

theorem Hub.Listed.disconnect (hl : h.Listed) (id : Nat) : (h.disconnect id).Listed := by
  intro other user hm
  obtain ⟨c, hc, hu⟩ := hl other user (Hub.members_disconnect_sub hm)
  have hne : other ≠ id := by
    rintro rfl
    unfold Hub.disconnect at hm
    simp only [hc] at hm
    rw [Hub.members_leave, if_pos hu.symm] at hm
    simpa using (List.mem_filter.mp hm).2
  rw [Hub.disconnect_clients, AList.lookup_erase_ne hne]
  exact ⟨c, hc, hu⟩

theorem Hub.Listed.register (hl : h.Listed) {client : ConnectedClient}
    (hsame : ∀ c, h.clients.lookup client.id = some c → c.userId = client.userId) : (h.register client).Listed := by
  intro id user hm
  have hlookup : ∀ id, (h.register client).clients.lookup id =
      if id = client.id then some client else h.clients.lookup id := by
    intro id
    show AList.lookup id (h.clients.insert client.id client) = _
    by_cases hid : id = client.id
    · rw [hid, AList.lookup_insert, if_pos rfl]
    · rw [AList.lookup_insert_ne hid, if_neg hid]
  rw [hlookup]
  rw [Hub.members_register] at hm
  have hold : id ∈ h.members user → ∃ c, (if id = client.id then some client else h.clients.lookup id) = some c ∧
      c.userId.text = user := by
    intro hm
    obtain ⟨c, hc, hu⟩ := hl id user hm
    by_cases hid : id = client.id
    · rw [hid] at hc
      exact ⟨client, if_pos hid, by rw [← hsame c hc, hu]⟩
    · exact ⟨c, by rw [if_neg hid, hc], hu⟩
  split at hm
  case isTrue huser =>
    split at hm
    · exact hold hm
    · rcases List.mem_append.mp hm with hm | hm
      · exact hold hm
      · exact ⟨client, if_pos (List.mem_singleton.mp hm), huser.symm⟩
  case isFalse => exact hold hm

/-- A pong leaves the users of the clients. -/
theorem Hub.pong_user (h : Hub) (client : ConnectedClient) (now id : Nat) :
    ((h.pong client now).clients.lookup id).map ConnectedClient.userId =
      (h.clients.lookup id).map ConnectedClient.userId := by
  unfold Hub.pong
  cases hl : h.clients.lookup client.id with
  | none => rfl
  | some c =>
    dsimp only
    split
    · by_cases hid : id = client.id
      · rw [hid, AList.lookup_insert, hl]
        rfl
      · rw [AList.lookup_insert_ne hid]
    · rfl

theorem Hub.Listed.pong (hl : h.Listed) (client : ConnectedClient) (now : Nat) : (h.pong client now).Listed := by
  intro id user hm
  rw [Hub.members, Hub.pong_userClients] at hm
  obtain ⟨c, hc, hu⟩ := hl id user hm
  have hsame := h.pong_user client now id
  rw [hc] at hsame
  obtain ⟨c', hc', hu'⟩ := Option.map_eq_some_iff.mp hsame
  exact ⟨c', hc', by rw [hu', hu]⟩

/-- An act that does not register a client of another user keeps that nobody is listed who is not there. -/
theorem Hub.Listed.act (hl : h.Listed) (now : Nat) {a : HubAct} (ha : ∀ id user deviceId conversationId token,
    a = .register id user deviceId conversationId token → ∀ c, h.clients.lookup id = some c → c.userId = user) :
    (h.act now a).Listed := by
  cases a with
  | connect => exact Hub.SameIndex.listed (h := h) ⟨rfl, rfl⟩ hl
  | send ws type payload => exact (h.send_same _ _).listed hl
  | close ws => exact Hub.SameIndex.listed (h := h) ⟨rfl, rfl⟩ hl
  | register id user deviceId conversationId token => exact hl.register (ha id user deviceId conversationId token rfl)
  | pong client => exact hl.pong client now
  | broadcast user type payload sender => exact (h.broadcast_same _ _).listed hl
  | closed id =>
    have hsame : h.SameIndex { h with sockets := Function.update h.sockets id {} } := ⟨rfl, rfl⟩
    exact (hsame.listed hl).disconnect id
  | heartbeat id =>
    exact Hub.heartbeat_inv h id now hl (fun hK => hK.disconnect id)
      (fun {h} hK => Hub.SameIndex.listed (h := h) ⟨rfl, rfl⟩ hK) fun hK => (Hub.send_same _ _ _).listed hK
  | cleanup =>
    refine Hub.cleanup_inv h now hl fun {h ws id} hK => ?_
    have hsame : h.SameIndex (h.close ws) := ⟨rfl, rfl⟩
    exact (hsame.listed hK).disconnect id

end Index

/-! ## Where clients, members and frames come from -/

/-- A frame for the user goes to the socket. -/
def Hub.Reaches (h : Hub) (user : String) (ws : Nat) : Prop :=
  ∃ id ∈ h.members user, ∃ client, h.clients.lookup id = some client ∧ client.ws = ws

section Sources

variable {h h' : Hub} {id now : Nat} {user : String} {signal : Signal} {x : Nat × Signal} {a : HubAct}

theorem Hub.SameIndex.reaches (hs : h.SameIndex h') {ws : Nat} : h'.Reaches user ws ↔ h.Reaches user ws := by
  unfold Hub.Reaches Hub.members
  rw [hs.clients, hs.userClients]

theorem Hub.mem_send {ws : Nat} : x ∈ (h.send ws signal).sent ↔
    x ∈ h.sent ∨ x = (ws, signal) ∧ (h.sockets ws).isOpen = true := by
  unfold Hub.send
  split
  case isTrue ho => simp [ho, or_comm]
  case isFalse ho => simp [ho]

theorem Hub.deliver_sockets (h : Hub) (signal : Signal) (id : Nat) : (h.deliver signal id).sockets = h.sockets := by
  unfold Hub.deliver Hub.send
  split
  · split <;> rfl
  · rfl

/-- What the step of a broadcast adds. -/
theorem Hub.deliver_sent (h : Hub) (signal : Signal) (id : Nat) : ∃ added, (h.deliver signal id).sent = added ++ h.sent ∧
    ∀ x, x ∈ added ↔ x.2 = signal ∧ (h.sockets x.1).isOpen = true ∧
      ∃ client, h.clients.lookup id = some client ∧ client.ws = x.1 := by
  unfold Hub.deliver
  cases h.clients.lookup id with
  | none => exact ⟨[], rfl, fun x => by simp⟩
  | some client =>
    simp only [Hub.send, Option.some.injEq, exists_eq_left']
    by_cases ho : (h.sockets client.ws).isOpen = true
    · refine ⟨[(client.ws, signal)], by rw [if_pos ho]; rfl, fun x => ?_⟩
      rw [List.mem_singleton]
      constructor
      · rintro rfl
        exact ⟨rfl, ho, rfl⟩
      · rintro ⟨rfl, -, hws⟩
        exact Prod.ext hws.symm rfl
    · refine ⟨[], by rw [if_neg ho]; rfl, fun x => iff_of_false List.not_mem_nil ?_⟩
      rintro ⟨-, hx, hws⟩
      exact ho (hws ▸ hx)

/-- What a broadcast adds: one frame after the other for the members. -/
theorem Hub.deliver_fold_sent (h : Hub) (signal : Signal) (ids : List Nat) :
    ∃ added, (ids.foldl (Hub.deliver signal) h).sent = added ++ h.sent ∧ ∀ x, x ∈ added ↔ x.2 = signal ∧
      (h.sockets x.1).isOpen = true ∧ ∃ id ∈ ids, ∃ client, h.clients.lookup id = some client ∧ client.ws = x.1 := by
  induction ids generalizing h with
  | nil => exact ⟨[], rfl, fun x => by simp⟩
  | cons id ids ih =>
    obtain ⟨first, hfirst, hmem⟩ := h.deliver_sent signal id
    obtain ⟨later, hlater, hmem'⟩ := ih (h.deliver signal id)
    refine ⟨later ++ first, by rw [List.foldl_cons, hlater, hfirst, List.append_assoc], fun x => ?_⟩
    rw [List.mem_append, or_comm, hmem, hmem', Hub.deliver_sockets, (h.deliver_same signal id).clients]
    simp only [List.mem_cons, exists_eq_or_imp]
    rw [← and_or_left, ← and_or_left]

/-- A broadcast adds its frame, on the open sockets that it reaches. -/
theorem Hub.broadcast_sent (h : Hub) (user : String) (signal : Signal) : ∃ added,
    (h.broadcast user signal).sent = added ++ h.sent ∧
      ∀ x, x ∈ added ↔ x.2 = signal ∧ (h.sockets x.1).isOpen = true ∧ h.Reaches user x.1 :=
  h.deliver_fold_sent signal (h.members user)

theorem Hub.mem_broadcast : x ∈ (h.broadcast user signal).sent ↔ x ∈ h.sent ∨ x.2 = signal ∧ (h.sockets x.1).isOpen = true ∧
    h.Reaches user x.1 := by
  obtain ⟨added, hsent, hmem⟩ := h.broadcast_sent user signal
  rw [hsent, List.mem_append, hmem, or_comm]

theorem Hub.broadcast_sockets (h : Hub) (user : String) (signal : Signal) :
    (h.broadcast user signal).sockets = h.sockets := by
  rw [Hub.broadcast_eq]
  generalize h.members user = ids
  induction ids generalizing h with
  | nil => rfl
  | cons id ids ih => rw [List.foldl_cons, ih, Hub.deliver_sockets]

/-- Who gets the frame of a new message. -/
theorem Hub.mem_announce {n : Notification} : x ∈ (h.announce n now).sent ↔ x ∈ h.sent ∨ x.2 = newMessage n now ∧
    (h.sockets x.1).isOpen = true ∧ ∃ u ∈ n.users, h.Reaches u.text x.1 := by
  unfold Hub.announce
  generalize n.users = users
  induction users generalizing h with
  | nil => simp
  | cons u users ih =>
    rw [List.foldl_cons, ih, Hub.mem_broadcast, Hub.broadcast_sockets]
    simp only [(h.broadcast_same u.text (newMessage n now)).reaches, List.mem_cons, exists_eq_or_imp]
    rw [or_assoc, ← and_or_left, ← and_or_left]

/-- A client in the map was there, or it is registered now. -/
theorem Hub.act_clients {c : ConnectedClient} (hc : (h.act now a).clients.lookup id = some c) :
    (∃ c', h.clients.lookup id = some c' ∧ c'.userId = c.userId) ∨
      ∃ deviceId conversationId token, a = .register id c.userId deviceId conversationId token := by
  have hleft : ∀ (h' : Hub) {other : Nat}, (∀ id c, h'.clients.lookup id = some c →
      ∃ c', h.clients.lookup id = some c' ∧ c'.userId = c.userId) → ∀ id c, (h'.disconnect other).clients.lookup id = some c →
        ∃ c', h.clients.lookup id = some c' ∧ c'.userId = c.userId := by
    intro h' other hK id c hc
    rw [Hub.disconnect_clients] at hc
    by_cases ho : id = other
    · subst ho
      rw [AList.lookup_erase] at hc
      cases hc
    · rw [AList.lookup_erase_ne ho] at hc
      exact hK id c hc
  cases a with
  | connect => exact Or.inl ⟨c, hc, rfl⟩
  | send ws type payload =>
    have hlookup : (h.send ws ⟨type, payload, "server", none, now⟩).clients.lookup id = some c := hc
    rw [(h.send_same _ _).clients] at hlookup
    exact Or.inl ⟨c, hlookup, rfl⟩
  | close ws => exact Or.inl ⟨c, hc, rfl⟩
  | register id' userId deviceId conversationId token =>
    have hlookup : AList.lookup id (h.clients.insert id' _) = some c := hc
    by_cases hid : id = id'
    · subst hid
      rw [AList.lookup_insert] at hlookup
      cases hlookup
      exact Or.inr ⟨deviceId, conversationId, token, rfl⟩
    · rw [AList.lookup_insert_ne hid] at hlookup
      exact Or.inl ⟨c, hlookup, rfl⟩
  | pong client =>
    obtain ⟨c', hc', -, -, hu⟩ := Hub.pong_clients hc
    exact Or.inl ⟨c', hc', hu⟩
  | broadcast user type payload sender =>
    have hlookup : (h.broadcast user ⟨type, payload, sender, some user, now⟩).clients.lookup id = some c := hc
    rw [(h.broadcast_same _ _).clients] at hlookup
    exact Or.inl ⟨c, hlookup, rfl⟩
  | closed other =>
    exact Or.inl (hleft { h with sockets := Function.update h.sockets other {} } (fun id c hc => ⟨c, hc, rfl⟩) id c hc)
  | heartbeat other =>
    refine Or.inl (Hub.heartbeat_inv h other now (K := fun h' => ∀ id c,
      h'.clients.lookup id = some c → ∃ c', h.clients.lookup id = some c' ∧ c'.userId = c.userId)
      (fun id c hc => ⟨c, hc, rfl⟩) (hleft _) (fun hK => hK) (fun {h'} hK id c hc => ?_) id c hc)
    rw [(h'.send_same other _).clients] at hc
    exact hK id c hc
  | cleanup =>
    exact Or.inl (Hub.cleanup_inv h now (K := fun h' => ∀ id c,
      h'.clients.lookup id = some c → ∃ c', h.clients.lookup id = some c' ∧ c'.userId = c.userId)
      (fun id c hc => ⟨c, hc, rfl⟩) (fun {h' ws other} hK => hleft (h'.close ws) hK) id c hc)

/-- A client that was not there is there only where it is registered. -/
theorem Hub.act_absent {a : HubAct} (hc : h.clients.lookup id = none) : (h.act now a).clients.lookup id = none ∨
    ∃ user deviceId conversationId token, a = .register id user deviceId conversationId token := by
  cases hl : (h.act now a).clients.lookup id with
  | none => exact Or.inl rfl
  | some c =>
    rcases Hub.act_clients hl with ⟨c', hc', -⟩ | ⟨deviceId, conversationId, token, rfl⟩
    · rw [hc] at hc'
      cases hc'
    · exact Or.inr ⟨_, deviceId, conversationId, token, rfl⟩

/-- A member was one, or it is registered now. -/
theorem Hub.act_members (hm : id ∈ (h.act now a).members user) : id ∈ h.members user ∨
    ∃ userId deviceId conversationId token, a = .register id userId deviceId conversationId token ∧ userId.text = user := by
  have hsame : ∀ {h' : Hub}, h.SameIndex h' → id ∈ h'.members user → id ∈ h.members user := by
    intro h' hs hm
    rwa [Hub.members, hs.userClients] at hm
  cases a with
  | connect => exact Or.inl hm
  | send ws type payload => exact Or.inl (hsame (h.send_same _ _) hm)
  | close ws => exact Or.inl hm
  | register id' userId deviceId conversationId token =>
    have hmem : id ∈ (h.register _).members user := hm
    rw [Hub.members_register] at hmem
    split at hmem
    case isTrue hu =>
      split at hmem
      · exact Or.inl hmem
      · rcases List.mem_append.mp hmem with hmem | hmem
        · exact Or.inl hmem
        · rw [List.mem_singleton.mp hmem]
          exact Or.inr ⟨userId, deviceId, conversationId, token, rfl, hu.symm⟩
    case isFalse => exact Or.inl hmem
  | pong client =>
    have hmem : id ∈ (h.pong client now).members user := hm
    rw [Hub.members, Hub.pong_userClients] at hmem
    exact Or.inl hmem
  | broadcast user' type payload sender => exact Or.inl (hsame (h.broadcast_same _ _) hm)
  | closed other =>
    exact Or.inl (Hub.members_disconnect_sub (h := { h with sockets := Function.update h.sockets other {} }) hm)
  | heartbeat other =>
    exact Or.inl (Hub.heartbeat_inv h other now (K := fun h' => id ∈ h'.members user →
      id ∈ h.members user) (fun hm => hm) (fun hK hm => hK (Hub.members_disconnect_sub hm)) (fun hK hm => hK hm)
      (fun {h'} hK hm => hK (by rwa [Hub.members, (h'.send_same other _).userClients] at hm)) hm)
  | cleanup =>
    exact Or.inl (Hub.cleanup_inv h now (K := fun h' => id ∈ h'.members user → id ∈ h.members user)
      (fun hm => hm) (fun {h' ws other} hK hm => hK (Hub.members_disconnect_sub (h := h'.close ws) hm)) hm)

theorem Hub.disconnect_sent (h : Hub) (id : Nat) : (h.disconnect id).sent = h.sent := by
  unfold Hub.disconnect Hub.leave
  split
  · rfl
  · split <;> rfl

/-- A frame was sent before, is sent by a handler or a heartbeat of its socket, or is for a user whom it reaches. -/
theorem Hub.act_sent (hx : x ∈ (h.act now a).sent) : x ∈ h.sent ∨
    (∃ type payload, a = .send x.1 type payload ∧ x.2 = ⟨type, payload, "server", none, now⟩) ∨
    (a = .heartbeat x.1 ∧ x.2 = ⟨"ping", .obj [], "server", none, now⟩) ∨
      ∃ user type payload sender, a = .broadcast user type payload sender ∧ x.2 = ⟨type, payload, sender, some user, now⟩ ∧
        h.Reaches user x.1 := by
  cases a with
  | connect => exact Or.inl hx
  | send ws type payload =>
    rcases Hub.mem_send.mp hx with hx | ⟨rfl, -⟩
    · exact Or.inl hx
    · exact Or.inr (Or.inl ⟨type, payload, rfl, rfl⟩)
  | close ws => exact Or.inl hx
  | register => exact Or.inl hx
  | pong client =>
    refine Or.inl ?_
    have hsent : (h.pong client now).sent = h.sent := by
      unfold Hub.pong
      split
      · rfl
      · split <;> rfl
    exact hsent ▸ hx
  | broadcast user type payload sender =>
    rcases Hub.mem_broadcast.mp hx with hx | ⟨hs, -, hr⟩
    · exact Or.inl hx
    · exact Or.inr (Or.inr (Or.inr ⟨user, type, payload, sender, rfl, hs, hr⟩))
  | closed id =>
    have hx : x ∈ (Hub.disconnect { h with sockets := Function.update h.sockets id {} } id).sent := hx
    rw [Hub.disconnect_sent] at hx
    exact Or.inl hx
  | heartbeat id =>
    have hcases := Hub.heartbeat_inv h id now
      (K := fun h' => x ∈ h'.sent → x ∈ h.sent ∨ x = (id, ⟨"ping", .obj [], "server", none, now⟩))
      Or.inl (fun {h'} hK hx => hK (by rwa [Hub.disconnect_sent] at hx)) (fun hK hx => hK hx) fun hK hx => by
        rcases Hub.mem_send.mp hx with hx | ⟨rfl, -⟩
        · exact hK hx
        · exact Or.inr rfl
    rcases hcases hx with hx | rfl
    · exact Or.inl hx
    · exact Or.inr (Or.inr (Or.inl ⟨rfl, rfl⟩))
  | cleanup =>
    exact Or.inl (Hub.cleanup_inv h now (K := fun h' => x ∈ h'.sent → x ∈ h.sent) (fun hx => hx)
      (fun {h' ws other} hK hx => hK (by rwa [Hub.disconnect_sent] at hx)) hx)

end Sources

end Server

end Chhaya
