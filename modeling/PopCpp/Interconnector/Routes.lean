/-
# A reply finds its way back

What is on the way from a node is determined by where its main thread stands: nothing when it is
idle, and one group of messages when it waits for one to be taken (`Traffic`).  So the data of a
request and of a response never mix, although both may have the same tag.

In runs that meet `Clean` there is at most one reply due on a shared connection, and until it has
been delivered `outgoingConnection` still has the tag of the request, and `incomingTag` the
connection of its client (`Routed`).
-/
import PopCpp.Interconnector.Routing
import PopCpp.Lib.WaitFor

namespace Interconnector.Routing

variable {n : ℕ} {ι : Type} [DecidableEq ι]

/-! ## What is on the way from a node -/

/-- How far a group of messages has come: sent, announced to the main thread of the other node
by its receive thread, or taken. -/
inductive Stage where
  | posted
  | announced
  | taken
deriving DecidableEq

namespace Main

def commands (g : Stage) (d : Fin n) : Main n ι → List Command
  | .idle => []
  | .redirecting dest _ tag _ => if g = .posted ∧ d = dest then [.request tag] else []
  | .responding _ dest tag _ => if g = .posted ∧ d = dest then [.response tag] else []

def data (g : Stage) (k : Fin n × ℤ) : Main n ι → List (Datum ι)
  | .idle => []
  | .redirecting dest id tag m =>
      if g ≠ .taken ∧ k = (dest, tag) then [.destId id, .load m] else []
  | .responding _ dest tag m => if g = .posted ∧ k = (dest, tag) then [.load m] else []

def wakers (g : Stage) (a d : Fin n) : Main n ι → List (Fin n × ℤ)
  | .redirecting dest _ tag _ => if g = .announced ∧ d = dest then [(a, tag)] else []
  | _ => []

end Main

/-- Everything that is on the way from `a`. -/
structure Traffic (s : State n ι) (a : Fin n) (g : Stage) : Prop where
  commands : ∀ d, s.commands a d = (s.main a).commands g d
  data : ∀ k, s.data a k = (s.main a).data g k
  wakers : ∀ d, (s.wakers d).filter (fun w => w.1 = a) = (s.main a).wakers g a d

namespace State

variable (s : State n ι)

/-- The request that is on the way from a node. -/
def onWay (a : Fin n) : List (Load ι) :=
  match s.main a with
  | .redirecting dest _ tag m => if s.data a (dest, tag) = [] then [] else [m]
  | _ => []

/-- The reply of a connection that is on the way back from a node. -/
def onWayBack (b : Fin n) (conn : Conn n ι) : List (Load ι) :=
  match s.main b with
  | .responding c dest tag m => if c = conn ∧ s.data b (dest, tag) ≠ [] then [m] else []
  | _ => []

/-- The replies that are due on a connection. -/
def outstanding (b : Fin n) (conn : Conn n ι) : List (Load ι) :=
  (s.unanswered b conn).map .reply ++ (s.inbox b conn ++ s.onWayBack b conn)

end State

/-! ## The invariant -/

variable (net : Network n ι) (s : State n ι)

/-- The way back of a reply: `1000 + k` is the tag under which the request came. -/
structure Routed (b : Fin n) (conn : Conn n ι) (r : Request ι) (k : ℕ) : Prop where
  outgoing : s.outgoingConnection b conn = some ((1000 + k : ℤ), net.node r.client)
  redirected : (s.redirected (net.node r.client))[k]? = some (.request r)
  incoming : s.incomingTag (net.node r.client) (1000 + k) = some (.client r.client)
  /-- The main thread of the client's node has done with it. -/
  taken : 1000 + (k : ℤ) < s.nextTag (net.node r.client) ∨
    s.data (net.node r.client) (b, 1000 + k) = []

/-- At most one reply is due on a connection, and its way back is known. -/
structure Due (b : Fin n) (conn : Conn n ι) : Prop where
  single : (s.outstanding b conn).length ≤ 1
  routed : ∀ r, .reply r ∈ s.outstanding b conn → ∃ k, Routed net s b conn r k

/-- What a main thread that does not wait knows of the tags. -/
def TagsFree (a : Fin n) : Prop := s.nextTag a = 1000 + (s.redirected a).length

/-- What a main thread knows that waits until a request is taken. -/
structure Redirects (a dest : Fin n) (id tag : ℤ) (r : Request ι) : Prop where
  node : net.node r.client = a
  destNode : net.destNode r.client = dest
  destId : net.destId r.client = id
  next : tag = s.nextTag a
  past : ∃ past, s.redirected a = past ++ [.request r] ∧ tag = 1000 + (past.length : ℤ)
  bound : tag < 2 ^ 31 - 1
  incoming : s.data a (dest, tag) ≠ [] → s.incomingTag a tag = some (.client r.client)

/-- What a main thread knows that waits until a reply is taken. -/
structure Responds (b : Fin n) (conn : Conn n ι) (dest : Fin n) (tag : ℤ) (r : Request ι) :
    Prop where
  place : net.place r.client = (b, conn)
  source : net.node r.client = dest
  outgoing : s.outgoingConnection b conn = some (tag, dest)
  settled : Settled s b conn
  tags : TagsFree s b

def MainOk (a : Fin n) : Prop :=
  match s.main a with
  | .idle => TagsFree s a
  | .redirecting dest id tag m => ∃ r, m = .request r ∧ Redirects net s a dest id tag r
  | .responding conn dest tag m => ∃ r, m = .reply r ∧ Responds net s a conn dest tag r

/-- What holds in every state of a run that meets `Clean`. -/
structure Good : Prop where
  traffic : ∀ a, ∃ g, Traffic s a g
  mains : ∀ a, MainOk net s a
  clients : ∀ a i, s.outgoingConnection a (.client i) = none
  inboxClient : ∀ a i, ∀ m ∈ s.inbox a (.client i),
    net.node i = a ∧ ∃ r, m = .request r ∧ r.client = i
  inboxObject : ∀ b source id, ∀ m ∈ s.inbox b (.object source id),
    ∃ r, m = .reply r ∧ net.place r.client = (b, .object source id)
  unanswered : ∀ b conn, ∀ r ∈ s.unanswered b conn, net.place r.client = (b, conn)
  redirected : ∀ a, ∀ m ∈ s.redirected a, ∃ r, m = .request r
  received : ∀ b id, ∀ m ∈ s.received b id,
    ∃ r, m = .request r ∧ net.destNode r.client = b ∧ net.destId r.client = id
  numbered : ∀ (i : ι) (k : ℕ) (r : Request ι), (s.made i)[k]? = some r →
    r.client = i ∧ r.number = k
  due : ∀ b source id, Due net s b (.object source id)
  requests : ∀ i, (s.made i).map .request = s.receivedFrom net i ++
    ((s.onWay (net.node i)).filter (fun m => m.owner = i) ++ s.inbox (net.node i) (.client i))
  replies : ∀ i, (s.replied i).map .reply = s.answers i ++
    ((s.onWayBack (net.destNode i) (net.place i).2).filter (fun m => m.owner = i) ++
      (s.inbox (net.destNode i) (net.place i).2).filter fun m => m.owner = i)
  acyclic : WaitFor.Acyclic (Waits s)

variable {net : Network n ι} {s t : State n ι}

/-! ## Reading the invariant -/

section

omit [DecidableEq ι]

lemma Traffic.of_idle {a : Fin n} {g : Stage} (h : Traffic s a g) (hmain : s.main a = .idle) :
    (∀ d, s.commands a d = []) ∧ (∀ k, s.data a k = []) ∧
      ∀ d, (s.wakers d).filter (fun w => w.1 = a) = [] := by
  refine ⟨fun d => ?_, fun k => ?_, fun d => ?_⟩
  · rw [h.commands, hmain]
    rfl
  · rw [h.data, hmain]
    rfl
  · rw [h.wakers, hmain]
    rfl

/-- The main thread of `a` stands where it stood, and so does what it has sent. -/
structure SameAt (s t : State n ι) (a : Fin n) : Prop where
  main : t.main a = s.main a
  commands : t.commands a = s.commands a
  data : t.data a = s.data a

lemma SameAt.traffic {a : Fin n} {g : Stage} (hsame : SameAt s t a) (h : Traffic s a g)
    (hwakers : ∀ d, (t.wakers d).filter (fun w => w.1 = a) =
      (s.wakers d).filter fun w => w.1 = a) : Traffic t a g where
  commands d := by
    rw [hsame.commands, hsame.main]
    exact h.commands d
  data k := by
    rw [hsame.data, hsame.main]
    exact h.data k
  wakers d := by
    rw [hwakers, hsame.main]
    exact h.wakers d

lemma SameAt.onWay {a : Fin n} (hsame : SameAt s t a) : t.onWay a = s.onWay a := by
  rw [State.onWay, hsame.main, hsame.data, State.onWay]

lemma SameAt.waits {a d : Fin n} (hsame : SameAt s t a) (h : Waits t a d) : Waits s a d := by
  obtain ⟨id, tag, m, hwaits, htaken⟩ := h
  exact ⟨id, tag, m, hsame.main ▸ hwaits, hsame.data ▸ htaken⟩

/-- When the request has been taken, nothing is on the way any more. -/
lemma Traffic.of_request_taken {a dest : Fin n} {g : Stage} {id tag : ℤ} {m : Load ι}
    (h : Traffic s a g) (hmain : s.main a = .redirecting dest id tag m)
    (htaken : s.data a (dest, tag) = []) :
    (∀ d, s.commands a d = []) ∧ (∀ k, s.data a k = []) ∧
      ∀ d, (s.wakers d).filter (fun w => w.1 = a) = [] := by
  obtain ⟨hcommands, hdata, hwakers⟩ := h
  rw [hdata, hmain] at htaken
  have hg : g = .taken := by
    by_contra hne
    simp [Main.data, hne] at htaken
  subst hg
  simp only [hcommands, hdata, hwakers, hmain]
  simp [Main.commands, Main.data, Main.wakers]

/-- When the response has been taken, nothing is on the way any more. -/
lemma Traffic.of_response_taken {b dest : Fin n} {g : Stage} {conn : Conn n ι} {tag : ℤ}
    {m : Load ι} (h : Traffic s b g) (hmain : s.main b = .responding conn dest tag m)
    (htaken : s.data b (dest, tag) = []) :
    (∀ d, s.commands b d = []) ∧ (∀ k, s.data b k = []) ∧
      ∀ d, (s.wakers d).filter (fun w => w.1 = b) = [] := by
  obtain ⟨hcommands, hdata, hwakers⟩ := h
  rw [hdata, hmain] at htaken
  have hg : g ≠ .posted := by
    rintro rfl
    simp [Main.data] at htaken
  simp only [hcommands, hdata, hwakers, hmain]
  simp [Main.commands, Main.data, Main.wakers, hg]

lemma State.onWay_of_idle {a : Fin n} (hmain : s.main a = .idle) : s.onWay a = [] := by
  rw [State.onWay, hmain]

/-- What the invariant of a main thread reads. -/
lemma MainOk.congr {a : Fin n} (hok : MainOk net s a) (hmain : t.main a = s.main a)
    (hnext : t.nextTag a = s.nextTag a) (hredirected : t.redirected a = s.redirected a)
    (hdata : ∀ k, t.data a k ≠ [] → s.data a k ≠ [])
    (hincoming : ∀ dest id m, s.main a = .redirecting dest id (s.nextTag a) m →
      s.data a (dest, s.nextTag a) ≠ [] →
        t.incomingTag a (s.nextTag a) = s.incomingTag a (s.nextTag a))
    (houtgoing : ∀ source id,
      t.outgoingConnection a (.object source id) = s.outgoingConnection a (.object source id))
    (hsettled : ∀ source id, Settled s a (.object source id) → Settled t a (.object source id)) :
    MainOk net t a := by
  unfold MainOk at hok ⊢
  rw [hmain]
  cases h : s.main a with
  | idle =>
      rw [h] at hok
      rwa [TagsFree, hnext, hredirected]
  | redirecting dest id tag m =>
      rw [h] at hok
      obtain ⟨r, rfl, hr⟩ := hok
      refine ⟨r, rfl, hr.node, hr.destNode, hr.destId, hnext ▸ hr.next, hredirected ▸ hr.past,
        hr.bound, fun htaken => ?_⟩
      have htaken' := hdata _ htaken
      rw [hr.next] at h htaken'
      rw [hr.next, hincoming _ _ _ h htaken', ← hr.next]
      exact hr.incoming (hdata _ htaken)
  | responding conn dest tag m =>
      rw [h] at hok
      obtain ⟨r, rfl, hr⟩ := hok
      obtain ⟨source, id, rfl⟩ : ∃ source id, conn = .object source id :=
        ⟨_, _, (Prod.mk.inj hr.place).2.symm⟩
      refine ⟨r, rfl, hr.place, hr.source, ?_, hsettled _ _ hr.settled, ?_⟩
      · rw [houtgoing]
        exact hr.outgoing
      · rw [TagsFree, hnext, hredirected]
        exact hr.tags

/-- What the way back of a reply reads. -/
lemma Routed.congr {b : Fin n} {conn : Conn n ι} {r : Request ι} {k : ℕ}
    (h : Routed net s b conn r k)
    (houtgoing : t.outgoingConnection b conn = s.outgoingConnection b conn)
    (hredirected : s.redirected (net.node r.client) <+: t.redirected (net.node r.client))
    (hincoming : t.incomingTag (net.node r.client) (1000 + k) =
      s.incomingTag (net.node r.client) (1000 + k))
    (htaken : 1000 + (k : ℤ) < s.nextTag (net.node r.client) ∨
        s.data (net.node r.client) (b, 1000 + k) = [] →
      1000 + (k : ℤ) < t.nextTag (net.node r.client) ∨
        t.data (net.node r.client) (b, 1000 + k) = []) : Routed net t b conn r k where
  outgoing := houtgoing.trans h.outgoing
  redirected := by
    obtain ⟨new, hnew⟩ := hredirected
    rw [← hnew, List.getElem?_append_left (List.getElem?_eq_some_iff.mp h.redirected).1]
    exact h.redirected
  incoming := hincoming.trans h.incoming
  taken := htaken h.taken

end

lemma Good.tagsFree (h : Good net s) {a : Fin n} (hmain : s.main a = .idle) : TagsFree s a := by
  have hok := h.mains a
  rwa [MainOk, hmain] at hok

lemma Good.redirects (h : Good net s) {a dest : Fin n} {id tag : ℤ} {m : Load ι}
    (hmain : s.main a = .redirecting dest id tag m) :
    ∃ r, m = .request r ∧ Redirects net s a dest id tag r := by
  have hok := h.mains a
  rwa [MainOk, hmain] at hok

lemma Good.responds (h : Good net s) {b dest : Fin n} {conn : Conn n ι} {tag : ℤ} {m : Load ι}
    (hmain : s.main b = .responding conn dest tag m) :
    ∃ r, m = .reply r ∧ Responds net s b conn dest tag r := by
  have hok := h.mains b
  rwa [MainOk, hmain] at hok

lemma State.onWayBack_of_idle {b : Fin n} (hmain : s.main b = .idle) (conn : Conn n ι) :
    s.onWayBack b conn = [] := by
  rw [State.onWayBack, hmain]

lemma SameAt.onWayBack {b : Fin n} (hsame : SameAt s t b) (conn : Conn n ι) :
    t.onWayBack b conn = s.onWayBack b conn := by
  rw [State.onWayBack, hsame.main, hsame.data, State.onWayBack]

lemma State.outstanding_congr {b : Fin n} {conn : Conn n ι}
    (hunanswered : t.unanswered b conn = s.unanswered b conn)
    (hinbox : t.inbox b conn = s.inbox b conn)
    (hback : t.onWayBack b conn = s.onWayBack b conn) :
    t.outstanding b conn = s.outstanding b conn := by
  rw [State.outstanding, hunanswered, hinbox, hback, State.outstanding]

lemma Due.congr {b : Fin n} {conn : Conn n ι} (h : Due net s b conn)
    (hsame : t.outstanding b conn = s.outstanding b conn)
    (hrouted : ∀ r k, .reply r ∈ s.outstanding b conn → Routed net s b conn r k →
      Routed net t b conn r k) : Due net t b conn where
  single := hsame ▸ h.single
  routed r hr := by
    rw [hsame] at hr
    obtain ⟨k, hk⟩ := h.routed r hr
    exact ⟨k, hrouted r k hr hk⟩

section

omit [DecidableEq ι]

/-- A main thread that does not wait has done with all requests. -/
lemma Routed.lt_nextTag {b : Fin n} {conn : Conn n ι} {r : Request ι} {k : ℕ}
    (h : Routed net s b conn r k) (htags : TagsFree s (net.node r.client)) :
    1000 + (k : ℤ) < s.nextTag (net.node r.client) := by
  have hlt := (List.getElem?_eq_some_iff.mp h.redirected).1
  rw [htags]
  omega

@[simp] lemma Load.owner_request (r : Request ι) : (Load.request r).owner = r.client := rfl

@[simp] lemma Load.owner_reply (r : Request ι) : (Load.reply r).owner = r.client := rfl

end

/-- A reply that an object owes is the only one that is due. -/
lemma Due.of_mem_unanswered {b : Fin n} {conn : Conn n ι} {r : Request ι} (h : Due net s b conn)
    (hr : r ∈ s.unanswered b conn) :
    s.unanswered b conn = [r] ∧ s.inbox b conn = [] ∧ s.onWayBack b conn = [] := by
  have hlen := h.single
  rw [State.outstanding, List.length_append, List.length_append, List.length_map] at hlen
  have hpos := List.length_pos_of_mem hr
  obtain ⟨x, hx⟩ := List.length_eq_one_iff.mp
    (show (s.unanswered b conn).length = 1 by omega)
  rw [hx, List.mem_singleton] at hr
  subst hr
  exact ⟨hx, List.eq_nil_of_length_eq_zero (by omega), List.eq_nil_of_length_eq_zero (by omega)⟩

/-- A reply that is in the inbox is the only one that is due. -/
lemma Due.of_inbox_eq_cons {b : Fin n} {conn : Conn n ι} {m : Load ι} {rest : List (Load ι)}
    (h : Due net s b conn) (hinbox : s.inbox b conn = m :: rest) :
    s.unanswered b conn = [] ∧ rest = [] ∧ s.onWayBack b conn = [] := by
  have hlen := h.single
  rw [State.outstanding, hinbox, List.length_append, List.length_append, List.length_map,
    List.length_cons] at hlen
  exact ⟨List.eq_nil_of_length_eq_zero (by omega), List.eq_nil_of_length_eq_zero (by omega),
    List.eq_nil_of_length_eq_zero (by omega)⟩

/-- Only the object of its client owes a reply. -/
lemma Good.place_of_outstanding (h : Good net s) {b source : Fin n} {id : ℤ} {r : Request ι}
    (hr : .reply r ∈ s.outstanding b (.object source id)) :
    net.place r.client = (b, .object source id) := by
  rw [State.outstanding, List.mem_append, List.mem_append] at hr
  rcases hr with hr | hr | hr
  · obtain ⟨r', hr', heq⟩ := List.mem_map.mp hr
    obtain rfl := Load.reply.inj heq
    exact h.unanswered _ _ r' hr'
  · obtain ⟨r', heq, hplace⟩ := h.inboxObject _ _ _ _ hr
    obtain rfl := Load.reply.inj heq
    exact hplace
  · rw [State.onWayBack] at hr
    split at hr
    · next hmain =>
        obtain ⟨r', rfl, hr'⟩ := h.responds hmain
        split at hr
        · next heq =>
            obtain rfl := Load.reply.inj (List.mem_singleton.mp hr)
            rw [← heq.1]
            exact hr'.place
        · exact absurd hr List.not_mem_nil
    · exact absurd hr List.not_mem_nil

section

omit [DecidableEq ι]

/-- A main thread sends one command, and waits until the load has been taken. -/
lemma Main.commands_eq_cons {main : Main n ι} {g : Stage} {d : Fin n} {c : Command}
    {rest : List Command} (h : main.commands g d = c :: rest) :
    g = .posted ∧ rest = [] ∧
      ((∃ id tag m, c = .request tag ∧ main = .redirecting d id tag m) ∨
        ∃ conn tag m, c = .response tag ∧ main = .responding conn d tag m) := by
  cases main with
  | idle => cases h
  | redirecting dest id tag m =>
      rw [Main.commands] at h
      split at h
      · next heq =>
          obtain ⟨hg, rfl⟩ := heq
          obtain ⟨rfl, rfl⟩ := List.cons.inj h
          exact ⟨hg, rfl, Or.inl ⟨id, tag, m, rfl, rfl⟩⟩
      · cases h
  | responding conn dest tag m =>
      rw [Main.commands] at h
      split at h
      · next heq =>
          obtain ⟨hg, rfl⟩ := heq
          obtain ⟨rfl, rfl⟩ := List.cons.inj h
          exact ⟨hg, rfl, Or.inr ⟨conn, tag, m, rfl, rfl⟩⟩
      · cases h

/-- A command 13 has been sent by a main thread that waits until its request is taken. -/
lemma Traffic.of_request {a b : Fin n} {g : Stage} {tag : ℤ} {rest : List Command}
    (h : Traffic s a g) (hcommands : s.commands a b = .request tag :: rest) :
    g = .posted ∧ rest = [] ∧ ∃ id m, s.main a = .redirecting b id tag m := by
  obtain ⟨hg, hrest, ⟨id, tag', m, heq, hmain⟩ | ⟨conn, tag', m, heq, -⟩⟩ :=
    Main.commands_eq_cons ((h.commands b).symm.trans hcommands)
  · cases heq
    exact ⟨hg, hrest, id, m, hmain⟩
  · cases heq

/-- A command 14 has been sent by a main thread that waits until its reply is taken. -/
lemma Traffic.of_response {a b : Fin n} {g : Stage} {tag : ℤ} {rest : List Command}
    (h : Traffic s a g) (hcommands : s.commands a b = .response tag :: rest) :
    g = .posted ∧ rest = [] ∧ ∃ conn m, s.main a = .responding conn b tag m := by
  obtain ⟨hg, hrest, ⟨id, tag', m, heq, -⟩ | ⟨conn, tag', m, heq, hmain⟩⟩ :=
    Main.commands_eq_cons ((h.commands b).symm.trans hcommands)
  · cases heq
  · cases heq
    exact ⟨hg, hrest, conn, m, hmain⟩

/-- A message 200005 is about a request that the main thread of its source waits with. -/
lemma Traffic.of_waker {a b : Fin n} {g : Stage} {tag : ℤ} (h : Traffic s a g)
    (hmem : (a, tag) ∈ s.wakers b) :
    g = .announced ∧ ∃ id m, s.main a = .redirecting b id tag m := by
  have hmem' : (a, tag) ∈ (s.main a).wakers g a b := by
    rw [← h.wakers]
    exact List.mem_filter.mpr ⟨hmem, decide_eq_true rfl⟩
  cases hmain : s.main a with
  | idle =>
      rw [hmain] at hmem'
      exact absurd hmem' List.not_mem_nil
  | redirecting dest id tag' m =>
      rw [hmain, Main.wakers] at hmem'
      split at hmem'
      · next heq =>
          obtain ⟨hg, rfl⟩ := heq
          obtain ⟨-, rfl⟩ := Prod.mk.inj (List.mem_singleton.mp hmem')
          exact ⟨hg, id, m, rfl⟩
      · exact absurd hmem' List.not_mem_nil
  | responding conn dest tag' m =>
      rw [hmain] at hmem'
      exact absurd hmem' List.not_mem_nil

end

/-! ## Entries of tables at other connections -/

section

omit [DecidableEq ι]
variable [DecidableEq (Conn n ι)] {γ : Type} {f : Fin n → Conn n ι → γ} {x : γ}

@[simp] lemma put_client_object {a b source : Fin n} {i : ι} {id : ℤ} :
    Table.put f a (.client i) x b (.object source id) = f b (.object source id) :=
  Table.put_of_ne_right (by simp)

@[simp] lemma put_object_client {a b source : Fin n} {i : ι} {id : ℤ} :
    Table.put f a (.object source id) x b (.client i) = f b (.client i) :=
  Table.put_of_ne_right (by simp)

end

end Interconnector.Routing
