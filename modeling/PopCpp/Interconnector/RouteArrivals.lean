/-
# What arrives

The main thread takes a request that its receive thread has announced, and the receive thread
delivers a reply.  The invariant is kept when a request is written to a connection on which no
reply is due, since then the tag that is overwritten is one of a request that is answered.
-/
import PopCpp.Interconnector.RouteSteps

namespace Interconnector.Routing

variable {n : ℕ} {ι : Type} [DecidableEq ι] {net : Network n ι} {s t : State n ι}

/-! ## A request is announced -/

/-- The receive thread of `b` wakes its main thread: a request has come from `a`. -/
lemma Good.announce (h : Good net s) {a b : Fin n} {tag : ℤ} {rest : List Command}
    (hcommand : s.commands a b = .request tag :: rest)
    (ht : t = { s with
      commands := Table.put s.commands a b rest
      wakers := Mailbox.post s.wakers b (a, tag) }) : Good net t := by
  obtain ⟨g, htraffic⟩ := h.traffic a
  obtain ⟨rfl, rfl, id, m, hmain⟩ := htraffic.of_request hcommand
  have hcommands' : t.commands = Table.put s.commands a b [] := by rw [ht]
  have hwakers' : t.wakers = Mailbox.post s.wakers b (a, tag) := by rw [ht]
  have hsame : t.main = s.main ∧ t.data = s.data ∧ t.nextTag = s.nextTag ∧
      t.outgoingConnection = s.outgoingConnection ∧ t.incomingTag = s.incomingTag ∧
      t.redirected = s.redirected := by
    rw [ht]
    exact ⟨rfl, rfl, rfl, rfl, rfl, rfl⟩
  obtain ⟨hmain', hdata', hnext, houtgoing, hincoming, hredirected⟩ := hsame
  have hsame : t.inbox = s.inbox ∧ t.unanswered = s.unanswered ∧ t.received = s.received ∧
      t.answers = s.answers ∧ t.made = s.made ∧ t.replied = s.replied := by
    rw [ht]
    exact ⟨rfl, rfl, rfl, rfl, rfl, rfl⟩
  obtain ⟨hinbox, hunanswered, hreceived, hanswers, hmade, hreplied⟩ := hsame
  clear ht
  have hrow : ∀ x, x ≠ a → SameAt s t x := fun x hx =>
    ⟨by rw [hmain'], by rw [hcommands', Table.put_row_of_ne hx], by rw [hdata']⟩
  have hback : ∀ b' conn, t.onWayBack b' conn = s.onWayBack b' conn := by
    intro b' conn
    rw [State.onWayBack, hmain', hdata', State.onWayBack]
  refine
    { traffic := fun a' => ?traffic
      mains := fun a' => ?mains
      clients := by rw [houtgoing]; exact h.clients
      inboxClient := by rw [hinbox]; exact h.inboxClient
      inboxObject := by rw [hinbox]; exact h.inboxObject
      unanswered := by rw [hunanswered]; exact h.unanswered
      redirected := by rw [hredirected]; exact h.redirected
      received := by rw [hreceived]; exact h.received
      numbered := by rw [hmade]; exact h.numbered
      due := fun b' source id' => ?due
      requests := fun i => ?requests
      replies := fun i => ?replies
      acyclic := h.acyclic.mono fun x y hxy => ?acyclic }
  case traffic =>
    by_cases ha : a' = a
    · subst ha
      -- the row of `a` goes from posted to announced; every other row is as it was
      refine ⟨.announced, fun d => ?_, fun k => ?_, fun d => ?_⟩
      · rw [hcommands', hmain', hmain, Table.put_apply, htraffic.commands, hmain]
        simp [Main.commands]
      · rw [hdata', hmain', htraffic.data, hmain]
        simp [Main.data]
      · rw [hwakers', hmain', hmain]
        by_cases hd : d = b
        · subst hd
          rw [Mailbox.post_self, List.filter_append, htraffic.wakers, hmain]
          simp [Main.wakers]
        · rw [Mailbox.post_of_ne hd, htraffic.wakers, hmain]
          simp [Main.wakers, hd]
    · obtain ⟨g', htraffic'⟩ := h.traffic a'
      refine ⟨g', (hrow _ ha).traffic htraffic' fun d => ?_⟩
      rw [hwakers']
      by_cases hd : d = b
      · subst hd
        rw [Mailbox.post_self, List.filter_append]
        simp [Ne.symm ha]
      · rw [Mailbox.post_of_ne hd]
  case mains =>
    -- nothing that a main thread relies on is a command or a wake-up
    refine (h.mains a').congr (by rw [hmain']) (by rw [hnext]) (by rw [hredirected])
      (by rw [hdata']; exact fun _ hk => hk) (by rw [hincoming]; exact fun _ _ _ _ _ => rfl)
      (by rw [houtgoing]; exact fun _ _ => rfl) fun _ _ hsettled => ?_
    rw [Settled, hunanswered, hinbox]
    exact hsettled
  case due =>
    refine (h.due b' source id').congr
      (State.outstanding_congr (by rw [hunanswered]) (by rw [hinbox]) (hback b' _))
      fun r k _ hk => hk.congr (by rw [houtgoing]) (by rw [hredirected]) (by rw [hincoming]) ?_
    rw [hnext, hdata']
    exact fun htaken => htaken
  case requests =>
    rw [hmade, State.receivedFrom, hreceived, State.onWay, hmain', hdata', hinbox]
    exact h.requests i
  case replies =>
    rw [hreplied, hanswers, hback, hinbox]
    exact h.replies i
  case acyclic =>
    obtain ⟨id', tag', m', hwaits, hdata⟩ := hxy
    rw [hmain'] at hwaits
    rw [hdata'] at hdata
    exact ⟨id', tag', m', hwaits, hdata⟩

/-! ## A request is written to its object -/

/-- What writing a request to an object changes. -/
lemma State.send_request (s : State n ι) (b source : Fin n) (id : ℤ) (r : Request ι) :
    s.send b (.object source id) (.request r) =
      { s with
        received := Table.post s.received b id (.request r)
        unanswered := if r.sync then Table.post s.unanswered b (.object source id) r
          else s.unanswered } := by
  simp only [State.send]
  split
  · rfl
  · rfl

/-- The main thread of `b` has taken the request that `source` waits with, and written it to the
connection to its object, on which no reply was due. -/
structure Served (net : Network n ι) (s t : State n ι) (b source : Fin n) (id tag : ℤ)
    (r : Request ι) (rest : List (Fin n × ℤ)) : Prop where
  idle : s.main b = .idle
  announced : Traffic s source .announced
  waits : s.main source = .redirecting b id tag (.request r)
  redirects : Redirects net s source b id tag r
  waker : s.wakers b = (source, tag) :: rest
  settled : Settled s b (.object source id)
  wakers : t.wakers = Function.update s.wakers b rest
  data : t.data = Table.put s.data source (b, tag) []
  outgoingConnection : t.outgoingConnection =
    Table.put s.outgoingConnection b (.object source id) (some (tag, source))
  received : t.received = Table.post s.received b id (.request r)
  unanswered : t.unanswered =
    Table.put s.unanswered b (.object source id) (if r.sync then [r] else [])
  main : t.main = s.main
  commands : t.commands = s.commands
  nextTag : t.nextTag = s.nextTag
  incomingTag : t.incomingTag = s.incomingTag
  redirected : t.redirected = s.redirected
  inbox : t.inbox = s.inbox
  answers : t.answers = s.answers
  made : t.made = s.made
  replied : t.replied = s.replied

/-- The request that is read is the one that was announced, for the object it is meant for. -/
lemma Good.served_of_serve (h : Good net s) {b source : Fin n} {id tag : ℤ}
    {wakers : List (Fin n × ℤ)} {m : Load ι} {rest : List (Datum ι)} (hmain : s.main b = .idle)
    (hwaker : s.wakers b = (source, tag) :: wakers)
    (hload : s.data source (b, tag) = .destId id :: .load m :: rest)
    (hsettled : Settled s b (.object source id))
    (ht : t = ({ s with
      wakers := Function.update s.wakers b wakers
      data := Table.put s.data source (b, tag) rest }.connect b source id tag).send b
        (.object source id) m) : ∃ r, Served net s t b source id tag r wakers := by
  obtain ⟨g, htraffic⟩ := h.traffic source
  obtain ⟨rfl, id', m', hwaits⟩ := htraffic.of_waker (hwaker ▸ List.mem_cons_self)
  obtain ⟨r, rfl, hr⟩ := h.redirects hwaits
  obtain ⟨rfl, rfl, rfl⟩ : id' = id ∧ m = .request r ∧ rest = [] := by
    rw [htraffic.data, hwaits, Main.data, if_pos ⟨by decide, rfl⟩] at hload
    obtain ⟨heq, hload⟩ := List.cons.inj hload
    obtain ⟨heq', hrest⟩ := List.cons.inj hload
    exact ⟨Datum.destId.inj heq, (Datum.load.inj heq').symm, hrest.symm⟩
  rw [State.send_request] at ht
  have hunanswered : t.unanswered = Table.put s.unanswered b (.object source id')
      (if r.sync then [r] else []) := by
    rw [ht]
    show (if r.sync then Table.post s.unanswered b (.object source id') r else s.unanswered) = _
    split
    · rw [Table.post, hsettled.1]
      rfl
    · exact (Table.put_eq_self hsettled.1).symm
  subst ht
  exact ⟨r, hmain, htraffic, hwaits, hr, hwaker, hsettled, rfl, rfl, rfl, rfl, hunanswered, rfl,
    rfl, rfl, rfl, rfl, rfl, rfl, rfl, rfl⟩

namespace Served

variable {b source : Fin n} {id tag : ℤ} {r : Request ι} {rest : List (Fin n × ℤ)}
  (hx : Served net s t b source id tag r rest)
include hx

lemma place : net.place r.client = (b, .object source id) := by
  rw [Network.place, hx.redirects.destNode, hx.redirects.node, hx.redirects.destId]

/-- There was something to read. -/
lemma data_ne_nil : s.data source (b, tag) ≠ [] := by
  rw [hx.announced.data, hx.waits, Main.data, if_pos ⟨by decide, rfl⟩]
  exact List.cons_ne_nil _ _

lemma sameAt {x : Fin n} (hne : x ≠ source) : SameAt s t x :=
  ⟨by rw [hx.main], by rw [hx.commands], by rw [hx.data, Table.put_row_of_ne hne]⟩

lemma onWayBack (b' : Fin n) (conn : Conn n ι) : t.onWayBack b' conn = s.onWayBack b' conn := by
  by_cases hb : b' = source
  · subst hb
    rw [State.onWayBack, State.onWayBack, hx.main, hx.waits]
  · exact (hx.sameAt hb).onWayBack conn

/-- The object has one request more, from its client. -/
lemma receivedFrom (i : ι) : t.receivedFrom net i =
    s.receivedFrom net i ++ if i = r.client then [.request r] else [] := by
  rw [State.receivedFrom, hx.received, Table.post, Table.put_apply, State.receivedFrom]
  split
  · next heq =>
      rw [List.filter_append, heq.1, heq.2]
      by_cases hi : i = r.client
      · simp [hi]
      · simp [hi, Ne.symm hi]
  · next hneq =>
      have hi : i ≠ r.client := by
        rintro rfl
        exact hneq ⟨hx.redirects.destNode, hx.redirects.destId⟩
      rw [if_neg hi, List.append_nil]

/-- The reply that is due now, if there is one. -/
lemma outstanding_self : t.outstanding b (.object source id) =
    (if r.sync then [r] else []).map .reply := by
  rw [State.outstanding, hx.unanswered, Table.put_self, hx.inbox, hx.settled.2, hx.onWayBack,
    State.onWayBack_of_idle hx.idle, List.append_nil, List.append_nil]

/-- It has a way back. -/
lemma routed : ∃ k, Routed net t b (.object source id) r k := by
  obtain ⟨past, hpast, hlen⟩ := hx.redirects.past
  refine ⟨past.length, ?_, ?_, ?_, Or.inr ?_⟩
  · rw [hx.outgoingConnection, Table.put_self, hlen, hx.redirects.node]
  · rw [hx.redirects.node, hx.redirected, hpast, List.getElem?_concat_length]
  · rw [hx.redirects.node, hx.incomingTag, ← hlen]
    exact hx.redirects.incoming hx.data_ne_nil
  · rw [hx.redirects.node, hx.data, ← hlen, Table.put_self]

variable (h : Good net s)
include h

lemma traffic (a : Fin n) : ∃ g, Traffic t a g := by
  by_cases ha : a = source
  · subst ha
    refine ⟨.taken, fun d => ?_, fun key => ?_, fun d => ?_⟩
    · rw [hx.commands, hx.main, hx.announced.commands, hx.waits]
      simp [Main.commands]
    · rw [hx.data, hx.main, hx.waits, Table.put_apply, hx.announced.data, hx.waits]
      simp [Main.data]
    · have hold := hx.announced.wakers d
      rw [hx.wakers, hx.main, hx.waits]
      rw [hx.waits] at hold
      by_cases hd : d = b
      · subst hd
        rw [hx.waker, List.filter_cons_of_pos (by simp)] at hold
        rw [Function.update_self]
        simpa [Main.wakers] using hold
      · rw [Function.update_of_ne hd, hold]
        simp [Main.wakers, hd]
  · obtain ⟨g', htraffic'⟩ := h.traffic a
    refine ⟨g', (hx.sameAt ha).traffic htraffic' fun d => ?_⟩
    rw [hx.wakers]
    by_cases hd : d = b
    · subst hd
      rw [Function.update_self, hx.waker, List.filter_cons_of_neg (by simpa using Ne.symm ha)]
    · rw [Function.update_of_ne hd]

lemma mains (a : Fin n) : MainOk net t a := by
  by_cases ha : a = b
  · subst ha
    rw [MainOk, hx.main, hx.idle]
    show t.nextTag a = 1000 + ((t.redirected a).length : ℤ)
    rw [hx.nextTag, hx.redirected]
    exact h.tagsFree hx.idle
  · refine (h.mains a).congr (by rw [hx.main]) (by rw [hx.nextTag]) (by rw [hx.redirected])
      (fun key hkey => ?_) (by rw [hx.incomingTag]; exact fun _ _ _ _ _ => rfl) (fun _ _ => ?_)
      fun _ _ hsettled' => ?_
    · rw [hx.data] at hkey
      exact Table.ne_nil_of_put_nil hkey
    · rw [hx.outgoingConnection, Table.put_row_of_ne ha]
    · rw [Settled, hx.unanswered, Table.put_row_of_ne ha, hx.inbox]
      exact hsettled'

/-- Whose reply is due at a place is a client of that place. -/
lemma unanswered_place (b' : Fin n) (conn : Conn n ι) (r' : Request ι)
    (hr' : r' ∈ t.unanswered b' conn) : net.place r'.client = (b', conn) := by
  rw [hx.unanswered, Table.put_apply] at hr'
  split at hr'
  · next heq =>
      obtain ⟨rfl, rfl⟩ := heq
      split at hr'
      · rw [List.mem_singleton.mp hr']
        exact hx.place
      · exact absurd hr' List.not_mem_nil
  · exact h.unanswered b' conn r' hr'

/-- An object gets requests only, and those that are for it. -/
lemma received_request (b' : Fin n) (id' : ℤ) (m : Load ι) (hm : m ∈ t.received b' id') :
    ∃ r, m = .request r ∧ net.destNode r.client = b' ∧ net.destId r.client = id' := by
  rw [hx.received, Table.post, Table.put_apply] at hm
  split at hm
  · next heq =>
      obtain ⟨rfl, rfl⟩ := heq
      rcases List.mem_append.mp hm with hm | hm
      · exact h.received _ _ m hm
      · exact ⟨r, List.mem_singleton.mp hm, hx.redirects.destNode, hx.redirects.destId⟩
  · exact h.received b' id' m hm

/-- At this place the reply to the new request is due, elsewhere the same ones as before. -/
lemma due (b' source' : Fin n) (id' : ℤ) : Due net t b' (.object source' id') := by
  by_cases heq : b' = b ∧ (.object source' id' : Conn n ι) = .object source id
  · obtain ⟨rfl, heq⟩ := heq
    rw [heq]
    refine ⟨?_, fun r' hr' => ?_⟩
    · rw [hx.outstanding_self]
      split <;> simp
    · have heq' : r' = r := by
        rw [hx.outstanding_self] at hr'
        split at hr'
        · simpa using hr'
        · exact absurd hr' List.not_mem_nil
      subst heq'
      exact hx.routed
  · refine (h.due b' source' id').congr
      (State.outstanding_congr ?_ (by rw [hx.inbox]) (hx.onWayBack b' _))
      fun r' k _ hk => hk.congr ?_ (by rw [hx.redirected]) (by rw [hx.incomingTag]) ?_
    · rw [hx.unanswered, Table.put_apply, if_neg heq]
    · rw [hx.outgoingConnection, Table.put_apply, if_neg heq]
    · rw [hx.nextTag, hx.data]
      refine Or.imp_right fun hnone => ?_
      by_contra hne
      exact Table.ne_nil_of_put_nil hne hnone

/-- The request moves from its way to the object. -/
lemma requests (i : ι) : (t.made i).map .request = t.receivedFrom net i ++
    ((t.onWay (net.node i)).filter (fun m => m.owner = i) ++
      t.inbox (net.node i) (.client i)) := by
  have hold := h.requests i
  rw [hx.made, hx.receivedFrom, hx.inbox, hold]
  by_cases ha : net.node i = source
  · have hold : s.onWay (net.node i) = [.request r] := by
      rw [ha, State.onWay, hx.waits]
      exact if_neg hx.data_ne_nil
    have hnew : t.onWay (net.node i) = [] := by
      rw [ha, State.onWay, hx.main, hx.waits, hx.data]
      exact if_pos Table.put_self
    rw [hold, hnew]
    by_cases hi : i = r.client
    · simp [hi]
    · simp [hi, Ne.symm hi]
  · have hi : i ≠ r.client := by
      rintro rfl
      exact ha hx.redirects.node
    have hway : t.onWay (net.node i) = s.onWay (net.node i) :=
      (hx.sameAt ha).onWay
    rw [hway, if_neg hi, List.append_nil]

end Served

/-- The main thread of `b` takes a request and writes it to the connection to its object, on which
no reply is due. -/
lemma Good.serve (h : Good net s) {b source : Fin n} {id tag : ℤ} {wakers : List (Fin n × ℤ)}
    {m : Load ι} {rest : List (Datum ι)} (hmain : s.main b = .idle)
    (hwaker : s.wakers b = (source, tag) :: wakers)
    (hload : s.data source (b, tag) = .destId id :: .load m :: rest)
    (hsettled : Settled s b (.object source id))
    (ht : t = ({ s with
      wakers := Function.update s.wakers b wakers
      data := Table.put s.data source (b, tag) rest }.connect b source id tag).send b
        (.object source id) m) : Good net t := by
  obtain ⟨r, hx⟩ := h.served_of_serve hmain hwaker hload hsettled ht
  refine
    { traffic := hx.traffic h
      mains := hx.mains h
      clients := fun a i => ?clients
      inboxClient := by rw [hx.inbox]; exact h.inboxClient
      inboxObject := by rw [hx.inbox]; exact h.inboxObject
      unanswered := hx.unanswered_place h
      redirected := by rw [hx.redirected]; exact h.redirected
      received := hx.received_request h
      numbered := by rw [hx.made]; exact h.numbered
      due := hx.due h
      requests := hx.requests h
      replies := fun i => ?replies
      acyclic := h.acyclic.mono fun x y hxy => ?acyclic }
  case clients =>
    rw [hx.outgoingConnection, put_object_client]
    exact h.clients a i
  case replies =>
    rw [hx.replied, hx.answers, hx.onWayBack, hx.inbox]
    exact h.replies i
  case acyclic =>
    obtain ⟨id', tag', m', hwaits, hdata⟩ := hxy
    rw [hx.main] at hwaits
    rw [hx.data] at hdata
    exact ⟨id', tag', m', hwaits, Table.ne_nil_of_put_nil hdata⟩

/-! ## A reply is delivered -/

/-- The receive thread of `b` has taken the command 14 of `a`, and written the reply to its
client. -/
structure Delivered (net : Network n ι) (s t : State n ι) (a b source : Fin n) (id : ℤ)
    (r : Request ι) (k : ℕ) : Prop where
  place : net.place r.client = (a, .object source id)
  node : net.node r.client = b
  posted : Traffic s a .posted
  waits : s.main a = .responding (.object source id) b (1000 + k) (.reply r)
  settled : Settled s a (.object source id)
  routed : Routed net s a (.object source id) r k
  commands : t.commands = Table.put s.commands a b []
  data : t.data = Table.put s.data a (b, 1000 + (k : ℤ)) []
  incomingTag : t.incomingTag = Table.put s.incomingTag b (1000 + k) none
  answers : t.answers = Mailbox.post s.answers r.client (.reply r)
  main : t.main = s.main
  wakers : t.wakers = s.wakers
  nextTag : t.nextTag = s.nextTag
  outgoingConnection : t.outgoingConnection = s.outgoingConnection
  redirected : t.redirected = s.redirected
  inbox : t.inbox = s.inbox
  unanswered : t.unanswered = s.unanswered
  received : t.received = s.received
  made : t.made = s.made
  replied : t.replied = s.replied

/-- The reply that is read has the tag of the request it answers. -/
lemma Good.delivered_of_command (h : Good net s) {a b : Fin n} {tag : ℤ}
    {commands : List Command} {m : Load ι} {rest : List (Datum ι)}
    (hcommand : s.commands a b = .response tag :: commands)
    (hload : s.data a (b, tag) = .load m :: rest)
    (ht : t = { (match s.incomingTag b tag with
        | some conn => { s with
            commands := Table.put s.commands a b commands
            data := Table.put s.data a (b, tag) rest }.send b conn m
        | none => { s with
            commands := Table.put s.commands a b commands
            data := Table.put s.data a (b, tag) rest } : State n ι) with
      incomingTag := Table.put s.incomingTag b tag none }) :
    ∃ source id r k, Delivered net s t a b source id r k := by
  obtain ⟨g, htraffic⟩ := h.traffic a
  obtain ⟨rfl, rfl, conn, m', hmain⟩ := htraffic.of_response hcommand
  obtain ⟨r, rfl, hr⟩ := h.responds hmain
  obtain ⟨source, id, rfl⟩ : ∃ source id, conn = .object source id :=
    ⟨_, _, (Prod.mk.inj hr.place).2.symm⟩
  obtain ⟨rfl, rfl⟩ : m = .reply r ∧ rest = [] := by
    rw [htraffic.data, hmain, Main.data, if_pos ⟨rfl, rfl⟩] at hload
    obtain ⟨heq, hrest⟩ := List.cons.inj hload
    exact ⟨(Datum.load.inj heq).symm, hrest.symm⟩
  obtain ⟨k, hk⟩ := (h.due a source id).routed r (by
    rw [State.outstanding, State.onWayBack, hmain]
    simp [hload])
  obtain rfl : tag = 1000 + (k : ℤ) :=
    (Prod.mk.inj (Option.some.inj (hr.outgoing.symm.trans hk.outgoing))).1
  have hincoming := hk.incoming
  rw [hr.source] at hincoming
  rw [hincoming] at ht
  subst ht
  exact ⟨source, id, r, k, hr.place, hr.source, htraffic, hmain, hr.settled, hk, rfl, rfl, rfl,
    rfl, rfl, rfl, rfl, rfl, rfl, rfl, rfl, rfl, rfl, rfl⟩

namespace Delivered

variable {a b source : Fin n} {id : ℤ} {r : Request ι} {k : ℕ}
  (hx : Delivered net s t a b source id r k)
include hx

lemma sameAt {x : Fin n} (hne : x ≠ a) : SameAt s t x :=
  ⟨by rw [hx.main], by rw [hx.commands, Table.put_row_of_ne hne],
    by rw [hx.data, Table.put_row_of_ne hne]⟩

lemma onWayBack_before : s.onWayBack a (.object source id) = [.reply r] := by
  rw [State.onWayBack, hx.waits]
  refine if_pos ⟨rfl, ?_⟩
  rw [hx.posted.data, hx.waits, Main.data, if_pos ⟨rfl, rfl⟩]
  exact List.cons_ne_nil _ _

/-- The reply has left its way. -/
lemma onWayBack_self : t.onWayBack a (.object source id) = [] := by
  rw [State.onWayBack, hx.main, hx.waits, hx.data]
  exact if_neg fun heq => heq.2 Table.put_self

lemma onWayBack_of_ne {b' : Fin n} {conn : Conn n ι} (hne : ¬(b' = a ∧ conn = .object source id)) :
    t.onWayBack b' conn = s.onWayBack b' conn := by
  by_cases hb : b' = a
  · subst hb
    have hconn : .object source id ≠ conn := fun heq => hne ⟨rfl, heq.symm⟩
    rw [State.onWayBack, State.onWayBack, hx.main, hx.waits]
    simp [hconn]
  · exact (hx.sameAt hb).onWayBack conn

lemma onWay (a' : Fin n) : t.onWay a' = s.onWay a' := by
  by_cases ha : a' = a
  · rw [ha, State.onWay, State.onWay, hx.main, hx.waits]
  · exact (hx.sameAt ha).onWay

variable (h : Good net s)
include h

lemma traffic (a' : Fin n) : ∃ g, Traffic t a' g := by
  by_cases ha : a' = a
  · subst ha
    refine ⟨.taken, fun d => ?_, fun key => ?_, fun d => ?_⟩
    · rw [hx.commands, hx.main, hx.waits, Table.put_apply, hx.posted.commands, hx.waits]
      simp [Main.commands]
    · rw [hx.data, hx.main, hx.waits, Table.put_apply, hx.posted.data, hx.waits]
      simp [Main.data]
    · rw [hx.wakers, hx.main, hx.posted.wakers, hx.waits]
      rfl
  · obtain ⟨g', htraffic'⟩ := h.traffic a'
    exact ⟨g', (hx.sameAt ha).traffic htraffic' fun _ => by rw [hx.wakers]⟩

lemma mains (a' : Fin n) : MainOk net t a' := by
  refine (h.mains a').congr (by rw [hx.main]) (by rw [hx.nextTag]) (by rw [hx.redirected])
    (fun key hkey => ?_) (fun dest id' m hwaits htaken => ?_)
    (by rw [hx.outgoingConnection]; exact fun _ _ => rfl) fun _ _ hsettled => ?_
  · rw [hx.data] at hkey
    exact Table.ne_nil_of_put_nil hkey
  · rw [hx.incomingTag, Table.put_apply]
    refine if_neg fun heq => ?_
    -- The main thread would wait with the request that has this reply.
    obtain ⟨rfl, hsametag⟩ := heq
    obtain ⟨r', rfl, hr'⟩ := h.redirects hwaits
    obtain ⟨past, hpast, hlen⟩ := hr'.past
    have hkth := hx.routed.redirected
    rw [hx.node, hpast] at hkth
    obtain rfl : past.length = k := by omega
    rw [List.getElem?_concat_length] at hkth
    obtain rfl := Load.request.inj (Option.some.inj hkth)
    have hdest : dest = a := hr'.destNode.symm.trans (Prod.mk.inj hx.place).1
    subst hdest
    rcases hx.routed.taken with hlt | hnone
    · rw [hx.node] at hlt
      omega
    · rw [hx.node] at hnone
      rw [hsametag] at htaken
      exact htaken hnone
  · rw [Settled, hx.unanswered, hx.inbox]
    exact hsettled

lemma due (b' source' : Fin n) (id' : ℤ) : Due net t b' (.object source' id') := by
  by_cases heq : b' = a ∧ (.object source' id' : Conn n ι) = .object source id
  · obtain ⟨rfl, heq⟩ := heq
    rw [heq]
    have hnone : t.outstanding b' (.object source id) = [] := by
      rw [State.outstanding, hx.unanswered, hx.inbox, hx.onWayBack_self, hx.settled.1, hx.settled.2]
      rfl
    refine ⟨by rw [hnone]; exact Nat.zero_le 1, fun r' hr' => ?_⟩
    rw [hnone] at hr'
    exact absurd hr' List.not_mem_nil
  · refine (h.due b' source' id').congr
      (State.outstanding_congr (by rw [hx.unanswered]) (by rw [hx.inbox]) (hx.onWayBack_of_ne heq))
      fun r' k' hr' hk' => hk'.congr (by rw [hx.outgoingConnection]) (by rw [hx.redirected]) ?_ ?_
    · rw [hx.incomingTag, Table.put_apply]
      refine if_neg fun hsametag => ?_
      -- The same tag means the same request, and its reply is due on one connection only.
      obtain rfl : k' = k := by
        have htag := hsametag.2
        omega
      have hkth := hx.routed.redirected
      have hkth' := hk'.redirected
      rw [hx.node] at hkth
      rw [hsametag.1, hkth] at hkth'
      obtain rfl := Load.request.inj (Option.some.inj hkth')
      have hplace := (h.place_of_outstanding hr').symm.trans hx.place
      exact heq (Prod.mk.inj hplace)
    · rw [hx.nextTag, hx.data]
      refine Or.imp_right fun hnone => ?_
      by_contra hne
      exact Table.ne_nil_of_put_nil hne hnone

/-- The reply moves from its way to the client. -/
lemma replies (i : ι) : (t.replied i).map .reply = t.answers i ++
    ((t.onWayBack (net.destNode i) (net.place i).2).filter (fun m => m.owner = i) ++
      (t.inbox (net.destNode i) (net.place i).2).filter fun m => m.owner = i) := by
  have hold := h.replies i
  rw [hx.replied, hx.answers, hx.inbox, hold]
  by_cases heq : net.destNode i = a ∧ (net.place i).2 = .object source id
  · rw [heq.1, heq.2, hx.onWayBack_self, hx.onWayBack_before, hx.settled.2]
    by_cases hi : i = r.client
    · subst hi
      rw [Mailbox.post_self]
      simp
    · rw [Mailbox.post_of_ne hi]
      simp [Ne.symm hi]
  · have hi : i ≠ r.client := by
      rintro rfl
      exact heq (Prod.mk.inj hx.place)
    rw [Mailbox.post_of_ne hi, hx.onWayBack_of_ne heq]

end Delivered

/-- The receive thread of `b` delivers a reply that has come from `a`. -/
lemma Good.deliver (h : Good net s) {a b : Fin n} {tag : ℤ} {commands : List Command}
    {m : Load ι} {rest : List (Datum ι)} (hcommand : s.commands a b = .response tag :: commands)
    (hload : s.data a (b, tag) = .load m :: rest)
    (ht : t = { (match s.incomingTag b tag with
        | some conn => { s with
            commands := Table.put s.commands a b commands
            data := Table.put s.data a (b, tag) rest }.send b conn m
        | none => { s with
            commands := Table.put s.commands a b commands
            data := Table.put s.data a (b, tag) rest } : State n ι) with
      incomingTag := Table.put s.incomingTag b tag none }) : Good net t := by
  obtain ⟨source, id, r, k, hx⟩ := h.delivered_of_command hcommand hload ht
  refine
    { traffic := hx.traffic h
      mains := hx.mains h
      clients := by rw [hx.outgoingConnection]; exact h.clients
      inboxClient := by rw [hx.inbox]; exact h.inboxClient
      inboxObject := by rw [hx.inbox]; exact h.inboxObject
      unanswered := by rw [hx.unanswered]; exact h.unanswered
      redirected := by rw [hx.redirected]; exact h.redirected
      received := by rw [hx.received]; exact h.received
      numbered := by rw [hx.made]; exact h.numbered
      due := hx.due h
      requests := fun i => ?requests
      replies := hx.replies h
      acyclic := h.acyclic.mono fun x y hxy => ?acyclic }
  case requests =>
    rw [hx.made, State.receivedFrom, hx.received, hx.onWay, hx.inbox]
    exact h.requests i
  case acyclic =>
    obtain ⟨id', tag', m', hwaits, hdata⟩ := hxy
    rw [hx.main] at hwaits
    rw [hx.data] at hdata
    exact ⟨id', tag', m', hwaits, Table.ne_nil_of_put_nil hdata⟩

/-! ## All steps -/

/-- The invariant holds before the first step. -/
lemma Good.start (net : Network n ι) : Good net State.start where
  traffic a := ⟨.posted, fun _ => rfl, fun _ => rfl, fun _ => rfl⟩
  mains a := rfl
  clients _ _ := rfl
  inboxClient _ _ _ hm := absurd hm List.not_mem_nil
  inboxObject _ _ _ _ hm := absurd hm List.not_mem_nil
  unanswered _ _ _ hr := absurd hr List.not_mem_nil
  redirected _ _ hm := absurd hm List.not_mem_nil
  received _ _ _ hm := absurd hm List.not_mem_nil
  numbered _ _ _ hr := by cases hr
  due _ _ _ := ⟨Nat.zero_le 1, fun _ hr => absurd hr List.not_mem_nil⟩
  requests _ := rfl
  replies _ := rfl
  acyclic a ha := by
    obtain ⟨_, ⟨_, _, _, hwaits, _⟩, _⟩ := Relation.TransGen.head'_iff.mp ha
    cases hwaits

/-- A reply in an inbox has a way back. -/
lemma Good.outgoing_of_inbox (h : Good net s) {b source : Fin n} {id : ℤ} {m : Load ι}
    {rest : List (Load ι)} (hinbox : s.inbox b (.object source id) = m :: rest) :
    ∃ tag dest, s.outgoingConnection b (.object source id) = some (tag, dest) ∧ tag ≠ 0 := by
  obtain ⟨r, rfl, -⟩ := h.inboxObject b source id m (hinbox ▸ List.mem_cons_self)
  obtain ⟨k, hk⟩ := (h.due b source id).routed r (by
    rw [State.outstanding, hinbox]
    simp)
  exact ⟨_, _, hk.outgoing, by omega⟩

/-- The steps from `s` to `t`, out of a state that meets the invariant. -/
inductive Moves (net : Network n ι) (s t : State n ι) : Action n ι → Prop where
  | call (i : ι) (sync : Bool)
      (ht : t = { s.write (net.node i) (.client i) (.request ⟨i, (s.made i).length, sync⟩) with
        made := Mailbox.post s.made i ⟨i, (s.made i).length, sync⟩ }) :
      Moves net s t (.call i sync)
  | reply {b : Fin n} {conn : Conn n ι} {r : Request ι} (hr : r ∈ s.unanswered b conn)
      (ht : t = { s.write b conn (.reply r) with
        unanswered := Table.put s.unanswered b conn ((s.unanswered b conn).erase r)
        replied := Mailbox.post s.replied r.client r }) :
      Moves net s t (.reply b conn r)
  | redirect {a : Fin n} {i : ι} {m : Load ι} {rest : List (Load ι)} (hmain : s.main a = .idle)
      (hinbox : s.inbox a (.client i) = m :: rest)
      (ht : t = { s with inbox := Table.put s.inbox a (.client i) rest }.redirect net a
        (.client i) m) :
      Moves net s t (.take a (.client i))
  | respond {b dest source : Fin n} {id tag : ℤ} {m : Load ι} {rest : List (Load ι)}
      (hmain : s.main b = .idle) (hinbox : s.inbox b (.object source id) = m :: rest)
      (houtgoing : s.outgoingConnection b (.object source id) = some (tag, dest))
      (ht : t = { s with inbox := Table.put s.inbox b (.object source id) rest }.respond b
        (.object source id) tag dest m) :
      Moves net s t (.take b (.object source id))
  | sentRequest {a dest : Fin n} {id tag : ℤ} {m : Load ι}
      (hmain : s.main a = .redirecting dest id tag m) (htaken : s.data a (dest, tag) = [])
      (ht : t = { s with
        main := Function.update s.main a .idle
        nextTag := Function.update s.nextTag a (CInt.wrap (s.nextTag a + 1)) }) :
      Moves net s t (.sent a)
  | sentResponse {b dest : Fin n} {conn : Conn n ι} {tag : ℤ} {m : Load ι}
      (hmain : s.main b = .responding conn dest tag m) (htaken : s.data b (dest, tag) = [])
      (ht : t = { s with
        main := Function.update s.main b .idle
        outgoingConnection := Table.put s.outgoingConnection b conn none }) :
      Moves net s t (.sent b)
  | serve {b source : Fin n} {id tag : ℤ} {wakers : List (Fin n × ℤ)} {m : Load ι}
      {rest : List (Datum ι)} (hmain : s.main b = .idle)
      (hwaker : s.wakers b = (source, tag) :: wakers)
      (hload : s.data source (b, tag) = .destId id :: .load m :: rest)
      (ht : t = ({ s with
        wakers := Function.update s.wakers b wakers
        data := Table.put s.data source (b, tag) rest }.connect b source id tag).send b
          (.object source id) m) :
      Moves net s t (.serve b)
  | announce {a b : Fin n} {tag : ℤ} {rest : List Command}
      (hcommand : s.commands a b = .request tag :: rest)
      (ht : t = { s with
        commands := Table.put s.commands a b rest
        wakers := Mailbox.post s.wakers b (a, tag) }) :
      Moves net s t (.command b a)
  | deliver {a b : Fin n} {tag : ℤ} {commands : List Command} {m : Load ι}
      {rest : List (Datum ι)} (hcommand : s.commands a b = .response tag :: commands)
      (hload : s.data a (b, tag) = .load m :: rest)
      (ht : t = { (match s.incomingTag b tag with
          | some conn => { s with
              commands := Table.put s.commands a b commands
              data := Table.put s.data a (b, tag) rest }.send b conn m
          | none => { s with
              commands := Table.put s.commands a b commands
              data := Table.put s.data a (b, tag) rest } : State n ι) with
        incomingTag := Table.put s.incomingTag b tag none }) :
      Moves net s t (.command b a)

/-- What every step does, from a state that meets the invariant. -/
lemma Good.moves (h : Good net s) {act : Action n ι} (hstep : step net s act = some t) :
    Moves net s t act := by
  cases act with
  | call i sync =>
      simp only [step] at hstep
      split at hstep
      · exact .call i sync (Option.some.inj hstep).symm
      · cases hstep
  | reply b conn r =>
      simp only [step] at hstep
      split at hstep
      · next hr => exact .reply hr (Option.some.inj hstep).symm
      · cases hstep
  | take a conn =>
      simp only [step] at hstep
      split at hstep
      · next m rest hmain hinbox =>
          cases conn with
          | client i =>
              -- a client has no outgoing connection: what it writes is a request
              rw [h.clients a i] at hstep
              exact .redirect hmain hinbox (Option.some.inj hstep).symm
          | object source id =>
              -- an object was connected for a request, and what it writes is the answer
              obtain ⟨tag, dest, houtgoing, htag⟩ := h.outgoing_of_inbox hinbox
              simp only [houtgoing, if_pos htag] at hstep
              exact .respond hmain hinbox houtgoing (Option.some.inj hstep).symm
      · cases hstep
  | sent a =>
      simp only [step] at hstep
      split at hstep
      · cases hstep
      · next hmain =>
          split at hstep
          · next htaken => exact .sentRequest hmain htaken (Option.some.inj hstep).symm
          · cases hstep
      · next hmain =>
          split at hstep
          · next htaken => exact .sentResponse hmain htaken (Option.some.inj hstep).symm
          · cases hstep
  | serve b =>
      simp only [step] at hstep
      split at hstep
      · next source tag wakers hmain hwaker =>
          split at hstep
          · next id m rest hload => exact .serve hmain hwaker hload (Option.some.inj hstep).symm
          · cases hstep
      · cases hstep
  | command b a =>
      simp only [step] at hstep
      split at hstep
      · cases hstep
      · next c commands hcommand =>
          cases c with
          | request tag => exact .announce hcommand (Option.some.inj hstep).symm
          | response tag =>
              simp only at hstep
              split at hstep
              · next m rest hload => exact .deliver hcommand hload (Option.some.inj hstep).symm
              · cases hstep

/-- A step that meets `Clean` keeps the invariant. -/
lemma Good.preserved [Fintype ι] (h : Good net s) {act : Action n ι} (hclean : Clean net s act)
    (hstep : step net s act = some t) : Good net t := by
  cases h.moves hstep with
  | call i sync ht => exact ht ▸ h.call i sync
  | reply hr ht => exact ht ▸ h.reply hr
  | redirect hmain hinbox ht =>
      obtain ⟨-, hbound, hcircle⟩ := hclean
      exact h.redirect hmain hinbox hbound (hcircle _ rfl) ht
  | respond hmain hinbox houtgoing ht => exact h.respond hmain hinbox houtgoing ht
  | sentRequest hmain htaken ht => exact h.sentRequest hmain htaken ht
  | sentResponse hmain htaken ht => exact h.sentResponse hmain htaken ht
  | serve hmain hwaker hload ht =>
      obtain ⟨hsettled, -⟩ := hclean _ _ _ (by rw [hwaker]; rfl) (by rw [hload]; rfl)
      exact h.serve hmain hwaker hload hsettled ht
  | announce hcommand ht => exact h.announce hcommand ht
  | deliver hcommand hload ht => exact h.deliver hcommand hload ht

end Interconnector.Routing
