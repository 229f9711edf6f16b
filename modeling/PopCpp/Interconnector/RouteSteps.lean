/-
# What the clients, the objects and the main threads write

Their steps keep the invariant: a client makes a request, an object replies, the main thread sends
on what it has read, and stops waiting when that has been taken.  For each step of a main thread
there is a structure that says what it has found and what it has changed.
-/
import PopCpp.Interconnector.Routes

namespace Interconnector.Routing

variable {n : ℕ} {ι : Type} [DecidableEq ι] {net : Network n ι} {s t : State n ι}

/-! ## A client and an object -/

/-- A client makes a request. -/
lemma Good.call (h : Good net s) (i : ι) (sync : Bool) :
    Good net { s.write (net.node i) (.client i) (.request ⟨i, (s.made i).length, sync⟩) with
      made := Mailbox.post s.made i ⟨i, (s.made i).length, sync⟩ } where
  traffic a := (h.traffic a).imp fun _ h => ⟨h.commands, h.data, h.wakers⟩
  mains a := by
    refine (h.mains a).congr rfl rfl rfl (fun _ hk => hk) (fun _ _ _ _ _ => rfl) (fun _ _ => rfl) ?_
    intro source id hsettled
    simpa [Settled, State.write, Table.post] using hsettled
  clients := h.clients
  inboxClient a j m hm := by
    simp only [State.write, Table.post, Table.put_apply] at hm
    split at hm
    · next heq =>
        obtain ⟨rfl, hij⟩ := heq
        obtain rfl := Conn.client.inj hij
        rcases List.mem_append.mp hm with hm | hm
        · exact h.inboxClient _ _ m hm
        · exact ⟨rfl, _, List.mem_singleton.mp hm, rfl⟩
    · exact h.inboxClient _ _ m hm
  inboxObject b source id m hm := by
    simp only [State.write, Table.post, put_client_object] at hm
    exact h.inboxObject b source id m hm
  unanswered := h.unanswered
  redirected := h.redirected
  received := h.received
  numbered j k r hr := by
    by_cases hj : j = i
    · subst hj
      simp only [Mailbox.post_self] at hr
      -- a request that was made before keeps its number, and the new one has the next
      rcases Nat.lt_or_ge k (s.made j).length with hlt | hge
      · rw [List.getElem?_append_left hlt] at hr
        exact h.numbered j k r hr
      · rw [List.getElem?_append_right hge, List.getElem?_singleton] at hr
        split at hr
        · next hk =>
            obtain rfl := Option.some.inj hr
            exact ⟨rfl, by simp only; omega⟩
        · cases hr
    · simp only [Mailbox.post_of_ne hj] at hr
      exact h.numbered j k r hr
  due b source id := by
    refine (h.due b source id).congr
      (State.outstanding_congr rfl put_client_object rfl) fun r k _ hk => ?_
    exact hk.congr rfl (List.prefix_refl _) rfl fun htaken => htaken
  requests j := by
    have hold := h.requests j
    by_cases hj : j = i
    · subst hj
      simp only [Mailbox.post_self, List.map_append, hold, State.write, Table.post,
        Table.put_self, List.append_assoc]
      rfl
    · simp only [Mailbox.post_of_ne hj, State.write, Table.post]
      rw [Table.put_of_ne_right (by simpa using hj)]
      exact hold
  replies j := by
    have hold := h.replies j
    simp only [Network.place, State.write, Table.post, put_client_object] at hold ⊢
    exact hold
  acyclic := h.acyclic

/-- An object replies. -/
lemma Good.reply (h : Good net s) {b : Fin n} {conn : Conn n ι} {r : Request ι}
    (hr : r ∈ s.unanswered b conn) :
    Good net { s.write b conn (.reply r) with
      unanswered := Table.put s.unanswered b conn ((s.unanswered b conn).erase r)
      replied := Mailbox.post s.replied r.client r } := by
  have hplace := h.unanswered b conn r hr
  obtain ⟨source, id, rfl⟩ : ∃ source id, conn = .object source id :=
    ⟨_, _, (Prod.mk.inj hplace).2.symm⟩
  -- one request at a time: this is the only one, and nothing of it is on the way back
  obtain ⟨hunanswered, hinbox, hback⟩ := (h.due b source id).of_mem_unanswered hr
  refine
    { traffic := fun a => (h.traffic a).imp fun _ h => ⟨h.commands, h.data, h.wakers⟩
      mains := fun a => ?mains
      clients := h.clients
      inboxClient := fun a i m hm => ?inboxClient
      inboxObject := fun b' source' id' m hm => ?inboxObject
      unanswered := fun b' conn' r' hr' => ?unanswered
      redirected := h.redirected
      received := h.received
      numbered := h.numbered
      due := fun b' source' id' => ?due
      requests := fun i => ?requests
      replies := fun i => ?replies
      acyclic := h.acyclic }
  case mains =>
    refine (h.mains a).congr rfl rfl rfl (fun _ hk => hk) (fun _ _ _ _ _ => rfl) (fun _ _ => rfl) ?_
    intro source' id' hsettled
    by_cases heq : a = b ∧ (.object source' id' : Conn n ι) = .object source id
    · obtain ⟨rfl, heq⟩ := heq
      rw [heq] at hsettled
      exact absurd (hsettled.1.symm.trans hunanswered) (List.cons_ne_nil _ _).symm
    · simpa only [Settled, State.write, Table.post, Table.put_apply, if_neg heq] using hsettled
  case inboxClient =>
    simp only [State.write, Table.post, put_object_client] at hm
    exact h.inboxClient a i m hm
  case inboxObject =>
    simp only [State.write, Table.post, Table.put_apply] at hm
    split at hm
    · next heq =>
        obtain ⟨rfl, heq⟩ := heq
        rw [hinbox, List.nil_append, List.mem_singleton] at hm
        rw [heq]
        exact ⟨r, hm, hplace⟩
    · exact h.inboxObject b' source' id' m hm
  case unanswered =>
    simp only [Table.put_apply] at hr'
    split at hr'
    · next heq =>
        obtain ⟨rfl, rfl⟩ := heq
        exact h.unanswered _ _ r' (List.mem_of_mem_erase hr')
    · exact h.unanswered b' conn' r' hr'
  case due =>
    refine (h.due b' source' id').congr ?_ fun r' k _ hk =>
      hk.congr rfl (List.prefix_refl _) rfl fun htaken => htaken
    by_cases heq : b' = b ∧ (.object source' id' : Conn n ι) = .object source id
    · obtain ⟨rfl, heq⟩ := heq
      rw [heq]
      simp only [State.outstanding, State.write, Table.post, Table.put_self, hunanswered, hinbox,
        List.erase_cons_head]
      rfl
    · refine State.outstanding_congr ?_ ?_ rfl
      · exact if_neg heq
      · exact if_neg heq
  case requests =>
    have hold := h.requests i
    simp only [State.write, Table.post, put_object_client]
    exact hold
  case replies =>
    have hold := h.replies i
    -- the reply joins what the destination node has yet to read, for its client alone
    have hentry : ∀ conn',
        Table.post s.inbox b (.object source id) (.reply r) (net.destNode i) conn' =
          s.inbox (net.destNode i) conn' ++
            if net.destNode i = b ∧ conn' = .object source id then [.reply r] else [] := by
      intro conn'
      rw [Table.post, Table.put_apply]
      split
      · next heq => rw [heq.1, heq.2]
      · rw [List.append_nil]
    simp only [State.write, hentry, List.filter_append]
    by_cases hi : i = r.client
    · subst hi
      obtain ⟨hnode, hconn⟩ := Prod.mk.inj hplace
      rw [if_pos ⟨hnode, hconn⟩, Mailbox.post_self, List.map_append, hold,
        List.filter_cons_of_pos (by simp), List.filter_nil, List.append_assoc, List.append_assoc]
      rfl
    · have hnone : (if net.destNode i = b ∧ (net.place i).2 = .object source id then
          [(.reply r : Load ι)] else []).filter (fun m => m.owner = i) = [] := by
        split
        · simp [Ne.symm hi]
        · rfl
      rw [hnone, List.append_nil, Mailbox.post_of_ne hi]
      exact hold

/-! ## A request is sent on -/

/-- The main thread of `a` has sent on a request that a client has written. -/
structure Redirected (net : Network n ι) (s t : State n ι) (a : Fin n) (r : Request ι)
    (rest : List (Load ι)) : Prop where
  node : net.node r.client = a
  idle : s.main a = .idle
  unread : s.inbox a (.client r.client) = .request r :: rest
  main : t.main = Function.update s.main a
    (.redirecting (net.destNode r.client) (net.destId r.client) (s.nextTag a) (.request r))
  incomingTag : t.incomingTag =
    Table.put s.incomingTag a (s.nextTag a) (some (.client r.client))
  commands : t.commands =
    Table.put s.commands a (net.destNode r.client) [.request (s.nextTag a)]
  data : t.data = Table.put s.data a (net.destNode r.client, s.nextTag a)
    [.destId (net.destId r.client), .load (.request r)]
  redirected : t.redirected = Mailbox.post s.redirected a (.request r)
  inbox : t.inbox = Table.put s.inbox a (.client r.client) rest
  nextTag : t.nextTag = s.nextTag
  outgoingConnection : t.outgoingConnection = s.outgoingConnection
  wakers : t.wakers = s.wakers
  unanswered : t.unanswered = s.unanswered
  received : t.received = s.received
  answers : t.answers = s.answers
  made : t.made = s.made
  replied : t.replied = s.replied

/-- A request that the main thread takes is of a client of its node, and goes to the node of its
object. -/
lemma Good.redirected_of_take (h : Good net s) {a : Fin n} {i : ι} {m : Load ι}
    {rest : List (Load ι)} (hmain : s.main a = .idle) (hinbox : s.inbox a (.client i) = m :: rest)
    (ht : t = { s with inbox := Table.put s.inbox a (.client i) rest }.redirect net a
      (.client i) m) : ∃ r, i = r.client ∧ Redirected net s t a r rest := by
  obtain ⟨hnode, r, rfl, rfl⟩ := h.inboxClient a i m (hinbox ▸ List.mem_cons_self)
  obtain ⟨g, htraffic⟩ := h.traffic a
  obtain ⟨hcommands, hdata, -⟩ := htraffic.of_idle hmain
  have hcommands' : t.commands =
      Table.put s.commands a (net.destNode r.client) [.request (s.nextTag a)] := by
    rw [ht]
    show Table.put s.commands a _ (s.commands a _ ++ _) = _
    rw [hcommands]
    rfl
  have hdata' : t.data = Table.put s.data a (net.destNode r.client, s.nextTag a)
      [.destId (net.destId r.client), .load (.request r)] := by
    rw [ht]
    show Table.put s.data a _ (s.data a _ ++ _) = _
    rw [hdata]
    rfl
  subst ht
  exact ⟨r, rfl, hnode, hmain, hinbox, rfl, rfl, hcommands', hdata', rfl, rfl, rfl, rfl, rfl, rfl,
    rfl, rfl, rfl, rfl⟩

namespace Redirected

variable {a : Fin n} {r : Request ι} {rest : List (Load ι)} (hx : Redirected net s t a r rest)
include hx

lemma sameAt {x : Fin n} (hne : x ≠ a) : SameAt s t x :=
  ⟨by rw [hx.main, Function.update_of_ne hne], by rw [hx.commands, Table.put_row_of_ne hne],
    by rw [hx.data, Table.put_row_of_ne hne]⟩

/-- Nothing is on the way back from this node before or after. -/
lemma onWayBack (b : Fin n) (conn : Conn n ι) : t.onWayBack b conn = s.onWayBack b conn := by
  by_cases hb : b = a
  · subst hb
    rw [State.onWayBack_of_idle hx.idle, State.onWayBack, hx.main, Function.update_self]
  · exact (hx.sameAt hb).onWayBack conn

variable (h : Good net s)
include h

/-- The tags of the requests before were other ones. -/
lemma key_ne {k : ℕ} (hk : k < (s.redirected a).length) : (1000 + k : ℤ) ≠ s.nextTag a := by
  intro heq
  rw [h.tagsFree hx.idle] at heq
  omega

/-- The request is posted, and is all that is on the way from its node. -/
lemma traffic (a' : Fin n) : ∃ g, Traffic t a' g := by
  obtain ⟨g, htraffic⟩ := h.traffic a
  obtain ⟨hcommands, hdata, hwakers⟩ := htraffic.of_idle hx.idle
  by_cases ha' : a' = a
  · subst ha'
    refine ⟨.posted, fun d => ?_, fun k => ?_, fun d => ?_⟩
    · rw [hx.commands, hx.main, Function.update_self, Table.put_apply, hcommands]
      simp [Main.commands]
    · rw [hx.data, hx.main, Function.update_self, Table.put_apply, hdata]
      simp [Main.data]
    · rw [hx.wakers, hx.main, Function.update_self, hwakers]
      simp [Main.wakers]
  · obtain ⟨g', htraffic'⟩ := h.traffic a'
    exact ⟨g', (hx.sameAt ha').traffic htraffic' fun _ => by rw [hx.wakers]⟩

/-- A thread knows where it stands. -/
lemma mains (hbound : s.nextTag a < 2 ^ 31 - 1) (a' : Fin n) : MainOk net t a' := by
  by_cases ha' : a' = a
  · subst ha'
    rw [MainOk, hx.main, Function.update_self]
    refine ⟨r, rfl, hx.node, rfl, rfl, by rw [hx.nextTag],
      ⟨s.redirected a', ?_, h.tagsFree hx.idle⟩, hbound,
      fun _ => ?_⟩
    · rw [hx.redirected, Mailbox.post_self]
    · rw [hx.incomingTag, Table.put_self]
  · refine (h.mains a').congr ?_ ?_ ?_ ?_ ?_ ?_ ?_
    · rw [hx.main, Function.update_of_ne ha']
    · rw [hx.nextTag]
    · rw [hx.redirected, Mailbox.post_of_ne ha']
    · rw [hx.data, Table.put_row_of_ne ha']
      exact fun _ hk => hk
    · rw [hx.incomingTag, Table.put_row_of_ne ha']
      exact fun _ _ _ _ _ => rfl
    · rw [hx.outgoingConnection]
      exact fun _ _ => rfl
    · intro source id hsettled
      rw [Settled, hx.unanswered, hx.inbox, put_client_object]
      exact hsettled

lemma inboxClient (a' : Fin n) (i : ι) (m : Load ι) (hm : m ∈ t.inbox a' (.client i)) :
    net.node i = a' ∧ ∃ r, m = .request r ∧ r.client = i := by
  rw [hx.inbox, Table.put_apply] at hm
  split at hm
  · next heq =>
      obtain ⟨rfl, heq⟩ := heq
      obtain rfl := Conn.client.inj heq
      exact h.inboxClient _ _ m (hx.unread ▸ List.mem_cons_of_mem _ hm)
  · exact h.inboxClient a' i m hm

lemma redirected_request (a' : Fin n) (m : Load ι) (hm : m ∈ t.redirected a') :
    ∃ r, m = .request r := by
  rw [hx.redirected] at hm
  by_cases ha' : a' = a
  · subst ha'
    rw [Mailbox.post_self] at hm
    rcases List.mem_append.mp hm with hm | hm
    · exact h.redirected _ m hm
    · exact ⟨r, List.mem_singleton.mp hm⟩
  · rw [Mailbox.post_of_ne ha'] at hm
    exact h.redirected a' m hm

/-- Nothing changes for the replies that are due. -/
lemma due (b source : Fin n) (id : ℤ) : Due net t b (.object source id) := by
  refine (h.due b source id).congr
    (State.outstanding_congr (by rw [hx.unanswered]) (by rw [hx.inbox, put_client_object])
      (hx.onWayBack b _)) fun r' k _ hk => ?_
  by_cases ha' : net.node r'.client = a
  · have hlt := (List.getElem?_eq_some_iff.mp hk.redirected).1
    rw [ha'] at hlt
    refine hk.congr (by rw [hx.outgoingConnection]) ?_ ?_ ?_
    · rw [ha', hx.redirected, Mailbox.post_self]
      exact List.prefix_append _ _
    · rw [ha', hx.incomingTag, Table.put_of_ne_right (hx.key_ne h hlt)]
    · rw [ha', hx.nextTag, hx.data,
        Table.put_of_ne_right fun heq => hx.key_ne h hlt (Prod.mk.inj heq).2]
      exact fun htaken => htaken
  · refine hk.congr (by rw [hx.outgoingConnection]) ?_ ?_ ?_
    · rw [hx.redirected, Mailbox.post_of_ne ha']
    · rw [hx.incomingTag, Table.put_row_of_ne ha']
    · rw [hx.nextTag, hx.data, Table.put_row_of_ne ha']
      exact fun htaken => htaken

/-- The request moves from the inbox to its way. -/
lemma requests (i : ι) : (t.made i).map .request = t.receivedFrom net i ++
    ((t.onWay (net.node i)).filter (fun m => m.owner = i) ++
      t.inbox (net.node i) (.client i)) := by
  have hold := h.requests i
  rw [hx.made, State.receivedFrom, hx.received, hx.inbox, ← State.receivedFrom, hold]
  by_cases hi : net.node i = a
  · have hway : t.onWay a = [.request r] := by
      rw [State.onWay, hx.main, Function.update_self, hx.data]
      simp
    rw [hi, State.onWay_of_idle hx.idle, hway]
    by_cases hir : i = r.client
    · subst hir
      rw [Table.put_self, hx.unread]
      simp
    · rw [Table.put_of_ne_right (by simpa using hir)]
      simp [Ne.symm hir]
  · have hway : t.onWay (net.node i) = s.onWay (net.node i) :=
      (hx.sameAt hi).onWay
    rw [Table.put_of_ne_left hi, hway]

/-- The thread that begins to wait is not waited for by the one it waits for. -/
lemma acyclic (hcircle : ¬Relation.ReflTransGen (Waits s) (net.destNode r.client) a) :
    WaitFor.Acyclic (Waits t) := by
  refine h.acyclic.insert hcircle fun x y hxy => ?_
  by_cases hne : x = a
  · subst hne
    obtain ⟨id, tag, m, hwaits, -⟩ := hxy
    rw [hx.main, Function.update_self] at hwaits
    cases hwaits
    exact Or.inr ⟨rfl, rfl⟩
  · exact Or.inl ((hx.sameAt hne).waits hxy)

end Redirected

/-- The main thread of `a` sends on the request of a client. -/
lemma Good.redirect (h : Good net s) {a : Fin n} {i : ι} {m : Load ι} {rest : List (Load ι)}
    (hmain : s.main a = .idle) (hinbox : s.inbox a (.client i) = m :: rest)
    (hbound : s.nextTag a < 2 ^ 31 - 1)
    (hcircle : ¬Relation.ReflTransGen (Waits s) (net.destNode i) a)
    (ht : t = { s with inbox := Table.put s.inbox a (.client i) rest }.redirect net a
      (.client i) m) : Good net t := by
  obtain ⟨r, rfl, hx⟩ := h.redirected_of_take hmain hinbox ht
  exact
    { traffic := hx.traffic h
      mains := hx.mains h hbound
      clients := by rw [hx.outgoingConnection]; exact h.clients
      inboxClient := hx.inboxClient h
      inboxObject := by
        simp only [hx.inbox, put_client_object]
        exact h.inboxObject
      unanswered := by rw [hx.unanswered]; exact h.unanswered
      redirected := hx.redirected_request h
      received := by rw [hx.received]; exact h.received
      numbered := by rw [hx.made]; exact h.numbered
      due := hx.due h
      requests := hx.requests h
      replies := fun i => by
        have hold := h.replies i
        rw [hx.onWayBack, hx.replied, hx.answers, hx.inbox]
        simp only [Network.place, put_client_object] at hold ⊢
        exact hold
      acyclic := hx.acyclic h hcircle }

/-! ## A reply is sent back -/

/-- The main thread of `b` has sent back the reply that its object has written. -/
structure Responded (net : Network n ι) (s t : State n ι) (b source : Fin n) (id : ℤ)
    (r : Request ι) (k : ℕ) : Prop where
  place : net.place r.client = (b, .object source id)
  idle : s.main b = .idle
  unread : s.inbox b (.object source id) = [.reply r]
  nothingOwed : s.unanswered b (.object source id) = []
  way : s.outgoingConnection b (.object source id) =
    some ((1000 + k : ℤ), net.node r.client)
  main : t.main = Function.update s.main b
    (.responding (.object source id) (net.node r.client) (1000 + k) (.reply r))
  commands : t.commands =
    Table.put s.commands b (net.node r.client) [.response (1000 + k)]
  data : t.data =
    Table.put s.data b (net.node r.client, 1000 + (k : ℤ)) [.load (.reply r)]
  inbox : t.inbox = Table.put s.inbox b (.object source id) []
  nextTag : t.nextTag = s.nextTag
  outgoingConnection : t.outgoingConnection = s.outgoingConnection
  incomingTag : t.incomingTag = s.incomingTag
  redirected : t.redirected = s.redirected
  wakers : t.wakers = s.wakers
  unanswered : t.unanswered = s.unanswered
  received : t.received = s.received
  answers : t.answers = s.answers
  made : t.made = s.made
  replied : t.replied = s.replied

/-- A reply that the main thread takes is that of the request the connection was opened for. -/
lemma Good.responded_of_take (h : Good net s) {b dest source : Fin n} {id tag : ℤ} {m : Load ι}
    {rest : List (Load ι)} (hmain : s.main b = .idle)
    (hinbox : s.inbox b (.object source id) = m :: rest)
    (houtgoing : s.outgoingConnection b (.object source id) = some (tag, dest))
    (ht : t = { s with inbox := Table.put s.inbox b (.object source id) rest }.respond b
      (.object source id) tag dest m) : ∃ r k, Responded net s t b source id r k := by
  obtain ⟨r, rfl, hplace⟩ := h.inboxObject b source id m (hinbox ▸ List.mem_cons_self)
  obtain ⟨hunanswered, rfl, -⟩ := (h.due b source id).of_inbox_eq_cons hinbox
  obtain ⟨k, hk⟩ := (h.due b source id).routed r (by
    rw [State.outstanding, hinbox]
    simp)
  obtain ⟨rfl, rfl⟩ : tag = 1000 + (k : ℤ) ∧ dest = net.node r.client :=
    Prod.mk.inj (Option.some.inj (houtgoing.symm.trans hk.outgoing))
  obtain ⟨g, htraffic⟩ := h.traffic b
  obtain ⟨hcommands, hdata, -⟩ := htraffic.of_idle hmain
  have hcommands' : t.commands =
      Table.put s.commands b (net.node r.client) [.response (1000 + k)] := by
    rw [ht]
    show Table.put s.commands b _ (s.commands b _ ++ _) = _
    rw [hcommands]
    rfl
  have hdata' : t.data =
      Table.put s.data b (net.node r.client, 1000 + (k : ℤ)) [.load (.reply r)] := by
    rw [ht]
    show Table.put s.data b _ (s.data b _ ++ _) = _
    rw [hdata]
    rfl
  subst ht
  exact ⟨r, k, hplace, hmain, hinbox, hunanswered, houtgoing, rfl, hcommands', hdata', rfl, rfl,
    rfl, rfl, rfl, rfl, rfl, rfl, rfl, rfl, rfl⟩

namespace Responded

variable {b source : Fin n} {id : ℤ} {r : Request ι} {k : ℕ}
  (hx : Responded net s t b source id r k)
include hx

lemma sameAt {x : Fin n} (hne : x ≠ b) : SameAt s t x :=
  ⟨by rw [hx.main, Function.update_of_ne hne], by rw [hx.commands, Table.put_row_of_ne hne],
    by rw [hx.data, Table.put_row_of_ne hne]⟩

/-- The reply is on its way back. -/
lemma onWayBack_self : t.onWayBack b (.object source id) = [.reply r] := by
  rw [State.onWayBack, hx.main, Function.update_self, hx.data]
  simp

lemma onWayBack_of_ne {b' : Fin n} {conn : Conn n ι} (hne : ¬(b' = b ∧ conn = .object source id)) :
    t.onWayBack b' conn = s.onWayBack b' conn := by
  by_cases hb : b' = b
  · subst hb
    rw [State.onWayBack_of_idle hx.idle, State.onWayBack, hx.main, Function.update_self]
    exact if_neg fun heq => hne ⟨rfl, heq.1.symm⟩
  · exact (hx.sameAt hb).onWayBack conn

lemma onWay (a : Fin n) : t.onWay a = s.onWay a := by
  by_cases hb : a = b
  · rw [hb, State.onWay_of_idle hx.idle, State.onWay, hx.main, Function.update_self]
  · exact (hx.sameAt hb).onWay

variable (h : Good net s)
include h

lemma traffic (b' : Fin n) : ∃ g, Traffic t b' g := by
  obtain ⟨g, htraffic⟩ := h.traffic b
  obtain ⟨hcommands, hdata, hwakers⟩ := htraffic.of_idle hx.idle
  by_cases hb : b' = b
  · subst hb
    refine ⟨.posted, fun d => ?_, fun k => ?_, fun d => ?_⟩
    · rw [hx.commands, hx.main, Function.update_self, Table.put_apply, hcommands]
      simp [Main.commands]
    · rw [hx.data, hx.main, Function.update_self, Table.put_apply, hdata]
      simp [Main.data]
    · rw [hx.wakers, hx.main, Function.update_self, hwakers]
      rfl
  · obtain ⟨g', htraffic'⟩ := h.traffic b'
    exact ⟨g', (hx.sameAt hb).traffic htraffic' fun _ => by rw [hx.wakers]⟩

lemma mains (b' : Fin n) : MainOk net t b' := by
  by_cases hb : b' = b
  · subst hb
    rw [MainOk, hx.main, Function.update_self]
    refine ⟨r, rfl, hx.place, rfl, ?_, ⟨?_, ?_⟩, ?_⟩
    · rw [hx.outgoingConnection, hx.way]
    · rw [hx.unanswered, hx.nothingOwed]
    · rw [hx.inbox, Table.put_self]
    · rw [TagsFree, hx.nextTag, hx.redirected]
      exact h.tagsFree hx.idle
  · refine (h.mains b').congr ?_ ?_ ?_ ?_ ?_ ?_ ?_
    · rw [hx.main, Function.update_of_ne hb]
    · rw [hx.nextTag]
    · rw [hx.redirected]
    · rw [hx.data, Table.put_row_of_ne hb]
      exact fun _ hk => hk
    · rw [hx.incomingTag]
      exact fun _ _ _ _ _ => rfl
    · rw [hx.outgoingConnection]
      exact fun _ _ => rfl
    · intro source id hsettled
      rw [Settled, hx.unanswered, hx.inbox, Table.put_row_of_ne hb]
      exact hsettled

lemma due (b' source' : Fin n) (id' : ℤ) : Due net t b' (.object source' id') := by
  refine (h.due b' source' id').congr ?_ fun r' k' _ hk' => ?_
  · by_cases heq : b' = b ∧ (.object source' id' : Conn n ι) = .object source id
    · obtain ⟨rfl, heq⟩ := heq
      rw [heq, State.outstanding, hx.unanswered, hx.nothingOwed, hx.onWayBack_self, hx.inbox,
        Table.put_self,
        State.outstanding, hx.nothingOwed, hx.unread, State.onWayBack_of_idle hx.idle]
      rfl
    · refine State.outstanding_congr ?_ ?_ (hx.onWayBack_of_ne heq)
      · rw [hx.unanswered]
      · rw [hx.inbox, Table.put_apply, if_neg heq]
  · refine hk'.congr (by rw [hx.outgoingConnection]) (by rw [hx.redirected])
      (by rw [hx.incomingTag])
      fun htaken => ?_
    rw [hx.nextTag]
    by_cases hb : net.node r'.client = b
    · -- The two tags may be the same, but this node has done with its own requests.
      exact Or.inl (hk'.lt_nextTag (hb ▸ h.tagsFree hx.idle))
    · rw [hx.data, Table.put_row_of_ne hb]
      exact htaken

/-- The reply moves from the inbox to its way back. -/
lemma replies (i : ι) : (t.replied i).map .reply = t.answers i ++
    ((t.onWayBack (net.destNode i) (net.place i).2).filter (fun m => m.owner = i) ++
      (t.inbox (net.destNode i) (net.place i).2).filter fun m => m.owner = i) := by
  have hold := h.replies i
  rw [hx.replied, hx.answers, hold]
  by_cases heq : net.destNode i = b ∧ (net.place i).2 = .object source id
  · rw [heq.1, heq.2, hx.onWayBack_self, State.onWayBack_of_idle hx.idle, hx.inbox,
      Table.put_self, hx.unread]
    simp
  · rw [hx.onWayBack_of_ne heq, hx.inbox, Table.put_apply, if_neg heq]

end Responded

/-- The main thread of `b` sends back a reply. -/
lemma Good.respond (h : Good net s) {b dest source : Fin n} {id tag : ℤ} {m : Load ι}
    {rest : List (Load ι)} (hmain : s.main b = .idle)
    (hinbox : s.inbox b (.object source id) = m :: rest)
    (houtgoing : s.outgoingConnection b (.object source id) = some (tag, dest))
    (ht : t = { s with inbox := Table.put s.inbox b (.object source id) rest }.respond b
      (.object source id) tag dest m) : Good net t := by
  obtain ⟨r, k, hx⟩ := h.responded_of_take hmain hinbox houtgoing ht
  refine
    { traffic := hx.traffic h
      mains := hx.mains h
      clients := by rw [hx.outgoingConnection]; exact h.clients
      inboxClient := fun a i m hm => ?inboxClient
      inboxObject := fun b' source' id' m hm => ?inboxObject
      unanswered := by rw [hx.unanswered]; exact h.unanswered
      redirected := by rw [hx.redirected]; exact h.redirected
      received := by rw [hx.received]; exact h.received
      numbered := by rw [hx.made]; exact h.numbered
      due := hx.due h
      requests := fun i => ?requests
      replies := hx.replies h
      acyclic := h.acyclic.mono fun x y hxy => ?acyclic }
  case inboxClient =>
    rw [hx.inbox, put_object_client] at hm
    exact h.inboxClient a i m hm
  case inboxObject =>
    rw [hx.inbox, Table.put_apply] at hm
    split at hm
    · exact absurd hm List.not_mem_nil
    · exact h.inboxObject b' source' id' m hm
  case requests =>
    rw [hx.made, State.receivedFrom, hx.received, hx.inbox, put_object_client, hx.onWay,
      ← State.receivedFrom]
    exact h.requests i
  case acyclic =>
    by_cases hne : x = b
    · subst hne
      obtain ⟨id, tag, m, hwaits, -⟩ := hxy
      rw [hx.main, Function.update_self] at hwaits
      cases hwaits
    · exact (hx.sameAt hne).waits hxy

/-! ## The load has been taken -/

/-- The main thread of `a` has stopped waiting: what it has sent has been taken. -/
structure Sent (s t : State n ι) (a : Fin n) : Prop where
  cleared : (∀ d, s.commands a d = []) ∧ (∀ k, s.data a k = []) ∧
    ∀ d, (s.wakers d).filter (fun w => w.1 = a) = []
  main : t.main = Function.update s.main a .idle
  commands : t.commands = s.commands
  data : t.data = s.data
  wakers : t.wakers = s.wakers
  incomingTag : t.incomingTag = s.incomingTag
  redirected : t.redirected = s.redirected
  inbox : t.inbox = s.inbox
  unanswered : t.unanswered = s.unanswered
  received : t.received = s.received
  answers : t.answers = s.answers
  made : t.made = s.made
  replied : t.replied = s.replied

namespace Sent

variable {a : Fin n} (hx : Sent s t a)
include hx

omit [DecidableEq ι]

lemma idle : t.main a = .idle := by rw [hx.main, Function.update_self]

lemma sameAt {x : Fin n} (hne : x ≠ a) : SameAt s t x :=
  ⟨by rw [hx.main, Function.update_of_ne hne], by rw [hx.commands], by rw [hx.data]⟩

lemma onWay (a' : Fin n) : t.onWay a' = s.onWay a' := by
  by_cases ha : a' = a
  · subst ha
    rw [State.onWay_of_idle hx.idle, State.onWay]
    split
    · exact (if_pos (hx.cleared.2.1 _)).symm
    · rfl
  · exact (hx.sameAt ha).onWay

/-- What has been answered stays answered. -/
lemma settled {b : Fin n} {conn : Conn n ι} (h : Settled s b conn) : Settled t b conn := by
  rw [Settled, hx.unanswered, hx.inbox]
  exact h

lemma traffic (h : ∀ a, ∃ g, Traffic s a g) (a' : Fin n) : ∃ g, Traffic t a' g := by
  by_cases ha : a' = a
  · subst ha
    obtain ⟨hcommands, hdata, hwakers⟩ := hx.cleared
    refine ⟨.taken, fun d => ?_, fun k => ?_, fun d => ?_⟩
    · rw [hx.commands, hx.idle, hcommands]
      rfl
    · rw [hx.data, hx.idle, hdata]
      rfl
    · rw [hx.wakers, hx.idle, hwakers]
      rfl
  · obtain ⟨g, htraffic⟩ := h a'
    exact ⟨g, (hx.sameAt ha).traffic htraffic fun _ => by rw [hx.wakers]⟩

/-- No thread begins to wait. -/
lemma waits {x y : Fin n} (hxy : Waits t x y) : Waits s x y := by
  by_cases hne : x = a
  · subst hne
    obtain ⟨id, tag, m, hwaits, -⟩ := hxy
    rw [hx.idle] at hwaits
    cases hwaits
  · exact (hx.sameAt hne).waits hxy

end Sent

namespace Sent

variable {a : Fin n} (hx : Sent s t a)
include hx

lemma onWayBack (b : Fin n) (conn : Conn n ι) : t.onWayBack b conn = s.onWayBack b conn := by
  by_cases hb : b = a
  · subst hb
    rw [State.onWayBack_of_idle hx.idle, State.onWayBack]
    split
    · exact (if_neg fun heq => heq.2 (hx.cleared.2.1 _)).symm
    · rfl
  · exact (hx.sameAt hb).onWayBack conn

lemma outstanding (b : Fin n) (conn : Conn n ι) : t.outstanding b conn = s.outstanding b conn :=
  State.outstanding_congr (by rw [hx.unanswered]) (by rw [hx.inbox]) (hx.onWayBack b conn)

/-- What the two ways to stop waiting have in common. -/
lemma good (h : Good net s) (hmains : ∀ a, MainOk net t a)
    (hclients : ∀ a i, t.outgoingConnection a (.client i) = none)
    (hdue : ∀ b source id, Due net t b (.object source id)) : Good net t where
  traffic := hx.traffic h.traffic
  mains := hmains
  clients := hclients
  inboxClient := by rw [hx.inbox]; exact h.inboxClient
  inboxObject := by rw [hx.inbox]; exact h.inboxObject
  unanswered := by rw [hx.unanswered]; exact h.unanswered
  redirected := by rw [hx.redirected]; exact h.redirected
  received := by rw [hx.received]; exact h.received
  numbered := by rw [hx.made]; exact h.numbered
  due := hdue
  requests i := by
    rw [hx.made, State.receivedFrom, hx.received, hx.onWay, hx.inbox]
    exact h.requests i
  replies i := by
    rw [hx.replied, hx.answers, hx.onWayBack, hx.inbox]
    exact h.replies i
  acyclic := h.acyclic.mono fun _ _ => hx.waits

end Sent

/-- The request has been taken. -/
lemma Good.sent_of_redirecting (h : Good net s) {a dest : Fin n} {id tag : ℤ} {m : Load ι}
    (hmain : s.main a = .redirecting dest id tag m) (htaken : s.data a (dest, tag) = [])
    (ht : t = { s with
      main := Function.update s.main a .idle
      nextTag := Function.update s.nextTag a (CInt.wrap (s.nextTag a + 1)) }) : Sent s t a := by
  obtain ⟨g, htraffic⟩ := h.traffic a
  subst ht
  exact ⟨htraffic.of_request_taken hmain htaken, rfl, rfl, rfl, rfl, rfl, rfl, rfl, rfl, rfl, rfl,
    rfl, rfl⟩

/-- The reply has been taken. -/
lemma Good.sent_of_responding (h : Good net s) {b dest : Fin n} {conn : Conn n ι} {tag : ℤ}
    {m : Load ι} (hmain : s.main b = .responding conn dest tag m)
    (htaken : s.data b (dest, tag) = [])
    (ht : t = { s with
      main := Function.update s.main b .idle
      outgoingConnection := Table.put s.outgoingConnection b conn none }) : Sent s t b := by
  obtain ⟨g, htraffic⟩ := h.traffic b
  subst ht
  exact ⟨htraffic.of_response_taken hmain htaken, rfl, rfl, rfl, rfl, rfl, rfl, rfl, rfl, rfl, rfl,
    rfl, rfl⟩

/-- The request that the main thread of `a` has sent on has been taken. -/
lemma Good.sentRequest (h : Good net s) {a dest : Fin n} {id tag : ℤ} {m : Load ι}
    (hmain : s.main a = .redirecting dest id tag m) (htaken : s.data a (dest, tag) = [])
    (ht : t = { s with
      main := Function.update s.main a .idle
      nextTag := Function.update s.nextTag a (CInt.wrap (s.nextTag a + 1)) }) : Good net t := by
  obtain ⟨r, rfl, hr⟩ := h.redirects hmain
  obtain ⟨past, hpast, hlen⟩ := hr.past
  have hwrap : CInt.wrap (s.nextTag a + 1) = s.nextTag a + 1 := by
    refine CInt.wrap_eq_self ?_
    have hbound := hr.bound
    rw [← hr.next]
    simp only [CInt.Fits]
    omega
  have hx := h.sent_of_redirecting hmain htaken ht
  rw [hwrap] at ht
  have hnextTag : t.nextTag = Function.update s.nextTag a (s.nextTag a + 1) := by rw [ht]
  have houtgoing : t.outgoingConnection = s.outgoingConnection := by rw [ht]
  clear ht
  refine hx.good h (fun a' => ?mains) (by rw [houtgoing]; exact h.clients)
    fun b source id => ?due
  case mains =>
    by_cases ha : a' = a
    · subst ha
      rw [MainOk, hx.idle]
      show t.nextTag a' = 1000 + ((t.redirected a').length : ℤ)
      rw [hnextTag, Function.update_self, hx.redirected, hpast, ← hr.next, hlen,
        List.length_append, List.length_singleton]
      push_cast
      ring
    · refine (h.mains a').congr ?_ ?_ (by rw [hx.redirected])
        (by rw [hx.data]; exact fun _ hk => hk)
        (by rw [hx.incomingTag]; exact fun _ _ _ _ _ => rfl)
        (by rw [houtgoing]; exact fun _ _ => rfl) fun _ _ => hx.settled
      · rw [hx.main, Function.update_of_ne ha]
      · rw [hnextTag, Function.update_of_ne ha]
  case due =>
    refine (h.due b source id).congr (hx.outstanding b _) fun r' k _ hk =>
      hk.congr (by rw [houtgoing]) (by rw [hx.redirected]) (by rw [hx.incomingTag]) ?_
    rw [hx.data, hnextTag]
    refine Or.imp (fun hlt => hlt.trans_le ?_) fun hk => hk
    by_cases ha : net.node r'.client = a
    · rw [ha, Function.update_self]
      omega
    · rw [Function.update_of_ne ha]

/-- The reply that the main thread of `b` has sent back has been taken. -/
lemma Good.sentResponse (h : Good net s) {b dest : Fin n} {conn : Conn n ι} {tag : ℤ} {m : Load ι}
    (hmain : s.main b = .responding conn dest tag m) (htaken : s.data b (dest, tag) = [])
    (ht : t = { s with
      main := Function.update s.main b .idle
      outgoingConnection := Table.put s.outgoingConnection b conn none }) : Good net t := by
  obtain ⟨r, rfl, hr⟩ := h.responds hmain
  have hx := h.sent_of_responding hmain htaken ht
  have hnextTag : t.nextTag = s.nextTag := by rw [ht]
  have houtgoing : t.outgoingConnection = Table.put s.outgoingConnection b conn none := by rw [ht]
  clear ht
  refine hx.good h (fun b' => ?mains) (fun b' i => ?clients) fun b' source id => ?due
  case mains =>
    by_cases hb : b' = b
    · subst hb
      rw [MainOk, hx.idle]
      show t.nextTag b' = 1000 + ((t.redirected b').length : ℤ)
      rw [hnextTag, hx.redirected]
      exact hr.tags
    · refine (h.mains b').congr ?_ (by rw [hnextTag]) (by rw [hx.redirected])
        (by rw [hx.data]; exact fun _ hk => hk)
        (by rw [hx.incomingTag]; exact fun _ _ _ _ _ => rfl) (fun _ _ => ?_) fun _ _ => hx.settled
      · rw [hx.main, Function.update_of_ne hb]
      · rw [houtgoing, Table.put_row_of_ne hb]
  case clients =>
    rw [houtgoing, Table.put_apply]
    split
    · rfl
    · exact h.clients b' i
  case due =>
    by_cases heq : b' = b ∧ (.object source id : Conn n ι) = conn
    · -- the tag of this connection is erased, and no reply is due on it any more
      obtain ⟨rfl, rfl⟩ := heq
      have hnone : t.outstanding b' (.object source id) = [] := by
        rw [hx.outstanding, State.outstanding, hr.settled.1, hr.settled.2, State.onWayBack, hmain]
        exact if_neg fun hback => hback.2 htaken
      refine ⟨by rw [hnone]; exact Nat.zero_le 1, fun r' hr' => ?_⟩
      rw [hnone] at hr'
      exact absurd hr' List.not_mem_nil
    · refine (h.due b' source id).congr (hx.outstanding b' _) fun r' k _ hk =>
        hk.congr ?_ (by rw [hx.redirected]) (by rw [hx.incomingTag])
          (by rw [hnextTag, hx.data]; exact fun htaken => htaken)
      rw [houtgoing, Table.put_apply, if_neg heq]

end Interconnector.Routing
