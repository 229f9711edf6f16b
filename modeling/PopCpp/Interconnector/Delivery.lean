/-
# Every request and every reply arrives

Nothing goes to a wrong place (`Good.sound`).  When no thread of an interconnector can move,
everything has arrived: a main thread that waits for ever would wait for another one that does,
and so on in a circle (`Quiet.complete`).  And they do come to rest, since a request or a reply
makes five steps at most (`Good.work_step`).
-/
import PopCpp.Interconnector.RouteArrivals

namespace Interconnector.Routing

variable {n : ℕ} {ι : Type} [DecidableEq ι] {net : Network n ι} {s t : State n ι}

/-! ## Nothing goes wrong -/

lemma Good.nodup_made (h : Good net s) (i : ι) : (s.made i).Nodup := by
  rw [List.nodup_iff_injective_getElem]
  intro k l hkl
  have hk := h.numbered i k _ (List.getElem?_eq_getElem k.isLt)
  have hl := h.numbered i l _ (List.getElem?_eq_getElem l.isLt)
  exact Fin.ext (hk.2.symm.trans ((congrArg Request.number hkl).trans hl.2))

lemma Good.sound (h : Good net s) : Sound net s where
  requests i := h.requests i ▸ List.prefix_append _ _
  received := h.received
  replies i := h.replies i ▸ List.prefix_append _ _
  redirected := h.redirected
  numbered i := by
    refine ⟨h.nodup_made i, fun r hr => ?_⟩
    obtain ⟨k, hk⟩ := List.mem_iff_getElem?.mp hr
    exact (h.numbered i k r hk).1

/-! ## Everything arrives -/

namespace Quiet

lemma not_responding (hquiet : Quiet net s) (h : Good net s) {b dest : Fin n} {conn : Conn n ι}
    {tag : ℤ} {m : Load ι} : s.main b ≠ .responding conn dest tag m := by
  intro hmain
  obtain ⟨g, htraffic⟩ := h.traffic b
  by_cases hg : g = .posted
  · -- the command 14 can be taken
    subst hg
    have hcommand : s.commands b dest = [.response tag] := by
      rw [htraffic.commands, hmain]
      exact if_pos ⟨rfl, rfl⟩
    have hload : s.data b (dest, tag) = [.load m] := by
      rw [htraffic.data, hmain]
      exact if_pos ⟨rfl, rfl⟩
    have hstep := hquiet (.command dest b) rfl
    simp [step, hcommand, hload] at hstep
  · have htaken : s.data b (dest, tag) = [] := by
      rw [htraffic.data, hmain]
      exact if_neg fun heq => hg heq.1
    have hstep := hquiet (.sent b) rfl
    simp [step, hmain, htaken] at hstep

/-- A main thread that waits, waits for another one. -/
lemma waits (hquiet : Quiet net s) {a dest : Fin n} {id tag : ℤ} {m : Load ι}
    (hmain : s.main a = .redirecting dest id tag m) : Waits s a dest := by
  refine ⟨id, tag, m, hmain, fun htaken => ?_⟩
  have hstep := hquiet (.sent a) rfl
  simp [step, hmain, htaken] at hstep

/-- A main thread that does not wait has no message left. -/
lemma wakers_eq_nil (hquiet : Quiet net s) (h : Good net s) {b : Fin n}
    (hmain : s.main b = .idle) : s.wakers b = [] := by
  cases hwaker : s.wakers b with
  | nil => rfl
  | cons w wakers =>
      obtain ⟨source, tag⟩ := w
      obtain ⟨g, htraffic⟩ := h.traffic source
      obtain ⟨rfl, id, m, hwaits⟩ := htraffic.of_waker (hwaker ▸ List.mem_cons_self)
      have hload : s.data source (b, tag) = [.destId id, .load m] := by
        rw [htraffic.data, hwaits]
        exact if_pos ⟨by decide, rfl⟩
      have hstep := hquiet (.serve b) rfl
      simp [step, hmain, hwaker, hload] at hstep

lemma idle (hquiet : Quiet net s) (h : Good net s) (a : Fin n) : s.main a = .idle := by
  cases hmain : s.main a with
  | idle => rfl
  | responding conn dest tag m => exact absurd hmain (hquiet.not_responding h)
  | redirecting dest id tag m =>
      obtain ⟨u, v, ⟨id', tag', m', hwaits, htaken⟩, hsink⟩ :=
        h.acyclic.exists_sink (hquiet.waits hmain)
      have hidle : s.main v = .idle := by
        cases hv : s.main v with
        | idle => rfl
        | redirecting dest' _ _ _ => exact absurd (hquiet.waits hv) (hsink dest')
        | responding _ _ _ _ => exact absurd hv (hquiet.not_responding h)
      obtain ⟨g, htraffic⟩ := h.traffic u
      have hcommand := htraffic.commands v
      have hload := htraffic.data (v, tag')
      have hwaker := htraffic.wakers v
      rw [hwaits] at hcommand hload hwaker
      cases g with
      | posted =>
          -- the command 13 can be taken
          have hstep := hquiet (.command v u) rfl
          simp [step, hcommand, Main.commands] at hstep
      | announced =>
          rw [hquiet.wakers_eq_nil h hidle] at hwaker
          simp [Main.wakers] at hwaker
      | taken => exact absurd hload htaken

lemma inbox_eq_nil (hquiet : Quiet net s) (h : Good net s) (a : Fin n) (conn : Conn n ι) :
    s.inbox a conn = [] := by
  cases hinbox : s.inbox a conn with
  | nil => rfl
  | cons m rest =>
      have hstep := hquiet (.take a conn) rfl
      simp only [step, hquiet.idle h a, hinbox] at hstep
      split at hstep
      · split at hstep
        · cases hstep
        · cases hstep
      · cases hstep

lemma complete (hquiet : Quiet net s) (h : Good net s) : Complete net s where
  requests i := by
    rw [h.requests i, State.onWay_of_idle (hquiet.idle h _), hquiet.inbox_eq_nil h]
    simp
  replies i := by
    rw [h.replies i, State.onWayBack_of_idle (hquiet.idle h _), hquiet.inbox_eq_nil h]
    simp

end Quiet

/-! ## They come to rest -/

section

variable (s)

/-- The messages that the main thread of `a` waits with, and itself. -/
def State.pending (a : Fin n) : ℕ :=
  match s.main a with
  | .idle => 0
  | .redirecting dest _ tag _ | .responding _ dest tag _ =>
      1 + (s.commands a dest).length + (s.data a (dest, tag)).length

/-- What a client has sent, or its object, that no main thread has read. -/
def State.unread (net : Network n ι) (i : ι) : List (Load ι) :=
  s.inbox (net.node i) (.client i) ++
    (s.inbox (net.destNode i) (net.place i).2).filter fun m => m.owner = i

def State.work [Fintype ι] (net : Network n ι) : ℕ :=
  5 * ∑ i, (s.unread net i).length + ∑ a, s.pending a

end

section

omit [DecidableEq ι]

lemma SameAt.pending {a : Fin n} (hsame : SameAt s t a) : t.pending a = s.pending a := by
  rw [State.pending, hsame.main, hsame.commands, hsame.data, State.pending]

lemma State.pending_of_idle {a : Fin n} (hmain : s.main a = .idle) : s.pending a = 0 := by
  rw [State.pending, hmain]

/-- Nobody is reached from a main thread that does not wait. -/
lemma not_reaches_of_idle {d a : Fin n} (hmain : s.main d = .idle) (hne : d ≠ a) :
    ¬Relation.ReflTransGen (Waits s) d a := by
  intro hreach
  rcases Relation.ReflTransGen.cases_head hreach with heq | ⟨_, ⟨_, _, _, hwaits, _⟩, _⟩
  · exact hne heq
  · rw [hmain] at hwaits
    cases hwaits

lemma State.pending_pos {a : Fin n} (hbusy : s.main a ≠ .idle) : 0 < s.pending a := by
  unfold State.pending
  cases hmain : s.main a with
  | idle => exact absurd hmain hbusy
  | redirecting dest id tag m => exact Nat.add_pos_left (Nat.add_pos_left Nat.one_pos _) _
  | responding conn dest tag m => exact Nat.add_pos_left (Nat.add_pos_left Nat.one_pos _) _

lemma State.pending_of_redirecting {a dest : Fin n} {id tag : ℤ} {m : Load ι}
    (hmain : s.main a = .redirecting dest id tag m) :
    s.pending a = 1 + (s.commands a dest).length + (s.data a (dest, tag)).length := by
  rw [State.pending, hmain]

lemma State.pending_of_responding {b dest : Fin n} {conn : Conn n ι} {tag : ℤ} {m : Load ι}
    (hmain : s.main b = .responding conn dest tag m) :
    s.pending b = 1 + (s.commands b dest).length + (s.data b (dest, tag)).length := by
  rw [State.pending, hmain]

end

lemma State.unread_congr (h : t.inbox = s.inbox) (i : ι) : t.unread net i = s.unread net i := by
  rw [State.unread, h, State.unread]

/-- A change at the connection of a client. -/
lemma State.unread_client {i : ι} {f : List (Load ι)}
    (ht : t.inbox = Table.put s.inbox (net.node i) (.client i) f) :
    (∀ j, j ≠ i → t.unread net j = s.unread net j) ∧
      (t.unread net i).length + (s.inbox (net.node i) (.client i)).length =
        (s.unread net i).length + f.length := by
  have hobject : ∀ j, t.inbox (net.destNode j) (net.place j).2 =
      s.inbox (net.destNode j) (net.place j).2 := fun j => by
    rw [ht]
    exact put_client_object
  refine ⟨fun j hj => ?_, ?_⟩
  · have hne : (.client j : Conn n ι) ≠ .client i := fun heq => hj (Conn.client.inj heq)
    rw [State.unread, hobject, ht, Table.put_of_ne_right hne, State.unread]
  · rw [State.unread, hobject, ht, Table.put_self, State.unread, List.length_append,
      List.length_append]
    omega

/-- A change at the connection to the object of a client, in what is for this client. -/
lemma State.unread_object {i : ι} {b : Fin n} {conn : Conn n ι} {f : List (Load ι)}
    (hplace : net.place i = (b, conn)) (ht : t.inbox = Table.put s.inbox b conn f)
    (hf : ∀ j, j ≠ i →
      f.filter (fun m => m.owner = j) = (s.inbox b conn).filter fun m => m.owner = j) :
    (∀ j, j ≠ i → t.unread net j = s.unread net j) ∧
      (t.unread net i).length + ((s.inbox b conn).filter fun m => m.owner = i).length =
        (s.unread net i).length + (f.filter fun m => m.owner = i).length := by
  obtain ⟨rfl, rfl⟩ := Prod.mk.inj hplace
  have hclient : ∀ j, t.inbox (net.node j) (.client j) = s.inbox (net.node j) (.client j) :=
    fun j => by
      rw [ht]
      exact put_object_client
  refine ⟨fun j hj => ?_, ?_⟩
  · rw [State.unread, hclient, ht, Table.put_apply, State.unread]
    split
    · next heq => rw [hf j hj, heq.1, heq.2]
    · rfl
  · have hself : t.inbox (net.destNode i) (net.place i).2 = f := by
      rw [ht]
      exact Table.put_self
    rw [State.unread, hclient, hself, State.unread, List.length_append, List.length_append]
    show _ + ((s.inbox (net.destNode i) (net.place i).2).filter _).length = _
    omega

variable [Fintype ι]

/-- The work when only the main thread of `a` has got further. -/
lemma State.work_lt {a : Fin n} (hinbox : t.inbox = s.inbox)
    (hother : ∀ b, b ≠ a → t.pending b = s.pending b) (hlt : t.pending a < s.pending a) :
    t.work net < s.work net := by
  have hsum := Mailbox.sum_add_eq_sum_add a hother
  have hunread : ∑ i, (t.unread net i).length = ∑ i, (s.unread net i).length :=
    Finset.sum_congr rfl fun i _ => by rw [State.unread_congr hinbox]
  rw [State.work, State.work, hunread]
  omega

/-- The work when a client or its object has written. -/
lemma State.work_le {i : ι} (hpending : ∀ a, t.pending a = s.pending a)
    (hother : ∀ j, j ≠ i → t.unread net j = s.unread net j)
    (hle : (t.unread net i).length ≤ (s.unread net i).length + 1) :
    t.work net ≤ s.work net + 5 := by
  have hsum := Mailbox.sum_add_eq_sum_add (f := fun j => (t.unread net j).length)
    (g := fun j => (s.unread net j).length) i fun j hj => by rw [hother j hj]
  have hsame : ∑ a, t.pending a = ∑ a, s.pending a := Finset.sum_congr rfl fun a _ => hpending a
  rw [State.work, State.work, hsame]
  omega

/-- The work when the main thread of `a` has read what comes from a client or its object. -/
lemma State.work_lt_of_take {a : Fin n} {i : ι} (hidle : s.pending a = 0)
    (hbusy : t.pending a ≤ 4) (hothermain : ∀ b, b ≠ a → t.pending b = s.pending b)
    (hother : ∀ j, j ≠ i → t.unread net j = s.unread net j)
    (hlt : (t.unread net i).length < (s.unread net i).length) : t.work net < s.work net := by
  have hmains := Mailbox.sum_add_eq_sum_add a hothermain
  have hsum := Mailbox.sum_add_eq_sum_add (f := fun j => (t.unread net j).length)
    (g := fun j => (s.unread net j).length) i fun j hj => by rw [hother j hj]
  rw [State.work, State.work]
  omega

lemma Redirected.work_lt {a : Fin n} {r : Request ι} {rest : List (Load ι)}
    (hx : Redirected net s t a r rest) (h : Good net s) : t.work net < s.work net := by
  obtain ⟨g, htraffic⟩ := h.traffic a
  obtain ⟨hcommands, hdata, -⟩ := htraffic.of_idle hx.idle
  have hunread := hx.unread
  have hinbox := hx.inbox
  rw [← hx.node] at hunread hinbox
  obtain ⟨hother, hlength⟩ := State.unread_client hinbox
  rw [hunread, List.length_cons] at hlength
  refine State.work_lt_of_take (State.pending_of_idle hx.idle) ?_
    (fun b hb => (hx.sameAt hb).pending) hother (by omega)
  have hmain : t.main a = .redirecting (net.destNode r.client) (net.destId r.client)
      (s.nextTag a) (.request r) := by
    rw [hx.main, Function.update_self]
  rw [State.pending_of_redirecting hmain, hx.commands, hx.data, Table.put_self, Table.put_self]
  exact le_rfl

lemma Responded.work_lt {b source : Fin n} {id : ℤ} {r : Request ι} {k : ℕ}
    (hx : Responded net s t b source id r k) : t.work net < s.work net := by
  obtain ⟨hother, hlength⟩ := State.unread_object hx.place hx.inbox
    fun j hj => by simp [hx.unread, Ne.symm hj]
  rw [hx.unread, List.filter_cons_of_pos (by simp), List.length_cons] at hlength
  refine State.work_lt_of_take (State.pending_of_idle hx.idle) ?_
    (fun b' hb => (hx.sameAt hb).pending) hother (by
      rw [List.filter_nil, List.length_nil] at hlength
      omega)
  have hmain : t.main b = .responding (.object source id) (net.node r.client) (1000 + k)
      (.reply r) := by
    rw [hx.main, Function.update_self]
  rw [State.pending_of_responding hmain, hx.commands, hx.data, Table.put_self, Table.put_self]
  exact Nat.le_succ 3

lemma Sent.work_lt {a : Fin n} (hx : Sent s t a) (hbusy : s.main a ≠ .idle) :
    t.work net < s.work net := by
  refine State.work_lt (a := a) hx.inbox (fun b hb => (hx.sameAt hb).pending) ?_
  rw [State.pending_of_idle hx.idle]
  exact State.pending_pos hbusy

lemma Served.work_lt {b source : Fin n} {id tag : ℤ} {r : Request ι} {rest : List (Fin n × ℤ)}
    (hx : Served net s t b source id tag r rest) : t.work net < s.work net := by
  refine State.work_lt (a := source) hx.inbox (fun a ha => (hx.sameAt ha).pending) ?_
  have hpos := List.length_pos_iff.mpr hx.data_ne_nil
  rw [State.pending_of_redirecting (hx.main ▸ hx.waits), hx.data, hx.commands, Table.put_self,
    State.pending_of_redirecting hx.waits, List.length_nil]
  omega

lemma Delivered.work_lt {a b source : Fin n} {id : ℤ} {r : Request ι} {k : ℕ}
    (hx : Delivered net s t a b source id r k) : t.work net < s.work net := by
  refine State.work_lt (a := a) hx.inbox (fun a' ha => (hx.sameAt ha).pending) ?_
  have hcommands : s.commands a b = [.response (1000 + k)] := by
    rw [hx.posted.commands, hx.waits]
    exact if_pos ⟨rfl, rfl⟩
  rw [State.pending_of_responding (hx.main ▸ hx.waits), hx.commands, hx.data, Table.put_self,
    Table.put_self, State.pending_of_responding hx.waits, hcommands, List.length_cons,
    List.length_nil, List.length_nil]
  omega

/-- A step of a client or of an object makes five steps of the interconnectors at most, and each
of these is one less to make. -/
lemma Good.work_step (h : Good net s) {act : Action n ι} (hclean : Clean net s act)
    (hstep : step net s act = some t) :
    if act.external then t.work net ≤ s.work net + 5 else t.work net < s.work net := by
  cases h.moves hstep with
  | call i sync ht =>
      obtain ⟨hother, hlength⟩ := State.unread_client (s := s) (t := t) (by rw [ht]; rfl)
      rw [List.length_append, List.length_singleton] at hlength
      refine State.work_le (fun a => ?_) hother (by omega)
      rw [ht]
      rfl
  | @reply b conn r hr ht =>
      obtain ⟨hother, hlength⟩ := State.unread_object (s := s) (t := t)
        (f := s.inbox b conn ++ [.reply r]) (h.unanswered b conn r hr) (by rw [ht]; rfl)
        fun j hj => by simp [Ne.symm hj]
      rw [List.filter_append, List.length_append] at hlength
      have hone := List.length_filter_le (fun m => decide (Load.owner m = r.client)) [.reply r]
      rw [List.length_singleton] at hone
      refine State.work_le (fun a => ?_) hother (by omega)
      rw [ht]
      rfl
  | redirect hmain hinbox ht =>
      obtain ⟨r, rfl, hx⟩ := h.redirected_of_take hmain hinbox ht
      exact hx.work_lt h
  | respond hmain hinbox houtgoing ht =>
      obtain ⟨r, k, hx⟩ := h.responded_of_take hmain hinbox houtgoing ht
      exact hx.work_lt
  | sentRequest hmain htaken ht =>
      exact (h.sent_of_redirecting hmain htaken ht).work_lt (by rw [hmain]; exact nofun)
  | sentResponse hmain htaken ht =>
      exact (h.sent_of_responding hmain htaken ht).work_lt (by rw [hmain]; exact nofun)
  | serve hmain hwaker hload ht =>
      obtain ⟨hsettled, -⟩ := hclean _ _ _ (by rw [hwaker]; rfl) (by rw [hload]; rfl)
      obtain ⟨r, hx⟩ := h.served_of_serve hmain hwaker hload hsettled ht
      exact hx.work_lt
  -- the one step of a receive thread that posts nothing: a command less is pending
  | @announce a b tag rest hcommand ht =>
      obtain ⟨g, htraffic⟩ := h.traffic a
      obtain ⟨-, -, id, m, hmain⟩ := htraffic.of_request hcommand
      refine State.work_lt (a := a) (by rw [ht]) (fun a' ha => SameAt.pending ⟨?_, ?_, ?_⟩) ?_
      · rw [ht]
      · rw [ht]
        exact Table.put_row_of_ne ha
      · rw [ht]
      · have hmain' : t.main a = .redirecting b id tag m := by rw [ht, hmain]
        have hcommands : t.commands a b = rest := by
          rw [ht]
          exact Table.put_self
        have hdata : t.data = s.data := by rw [ht]
        rw [State.pending_of_redirecting hmain', hcommands, hdata,
          State.pending_of_redirecting hmain, hcommand, List.length_cons]
        omega
  | deliver hcommand hload ht =>
      obtain ⟨source, id, r, k, hx⟩ := h.delivered_of_command hcommand hload ht
      exact hx.work_lt

lemma State.work_start : (State.start : State n ι).work net = 0 := by
  simp [State.work, State.start, State.unread, State.pending]

/-! ## Requests and replies -/

/-- What the interconnectors promise about requests and replies: nothing goes wrong at any time,
and when no interconnector can move, everything has arrived. -/
def Promise (net : Network n ι) (s : State n ι) : Prop :=
  Sound net s ∧ (Quiet net s → Complete net s)

/-- **Requests and replies.**  In a run that meets `Clean` the interconnectors keep their promise,
and they make five steps at most for each step of a client or of an object. -/
theorem routing_delivers {acts : List (Action n ι)}
    (hrun : Transition.run (step net) State.start acts = some s)
    (hclean : Transition.Along (step net) (Clean net) State.start acts) :
    Promise net s ∧
      acts.countP (fun act => !act.external) ≤ 5 * acts.countP Action.external := by
  have hgood : Good net s := by
    refine Transition.run_invariant_along (I := fun s => Good net s)
      (fun s act t h hclean hstep => h.preserved hclean hstep) ?_ hclean hrun
    exact Good.start net
  refine ⟨⟨hgood.sound, fun hquiet => hquiet.complete hgood⟩, ?_⟩
  have hcount := Transition.run_countP_add_le (I := fun s => Good net s)
    (f := fun s => s.work net) Action.external 5
    (fun s act t h hclean hstep => h.preserved hclean hstep)
    (fun s act t h hclean hstep hext => by simpa [hext] using h.work_step hclean hstep)
    (fun s act t h hclean hstep hint => by simpa [hint] using h.work_step hclean hstep)
    (Good.start net) hclean hrun
  rw [State.work_start] at hcount
  omega

/-! ## Two clients of one object -/

instance (s : State n ι) (b : Fin n) (conn : Conn n ι) : Decidable (Settled s b conn) :=
  inferInstanceAs (Decidable (_ ∧ _))

/-- A condition that is enough for `Clean` and can be computed: a request is sent on to a node
whose main thread does not wait. -/
def calm (net : Network n ι) (s : State n ι) : Action n ι → Bool
  | .take a conn =>
      decide (entries net s a ≤ 200 ∧ s.nextTag a < 2 ^ 31 - 1) &&
        match conn with
        | .client i => decide (s.main (net.destNode i) = .idle ∧ net.destNode i ≠ a)
        | .object _ _ => true
  | .serve b =>
      match s.wakers b with
      | [] => true
      | (source, tag) :: _ =>
          match s.data source (b, tag) with
          | .destId id :: _ => decide (Settled s b (.object source id) ∧ entries net s b < 200)
          | _ => true
  | _ => true

lemma Clean.of_calm {act : Action n ι} (h : calm net s act = true) : Clean net s act := by
  cases act with
  | take a conn =>
      obtain ⟨hroom, hconn⟩ := Bool.and_eq_true_iff.mp h
      obtain ⟨hentries, htag⟩ := of_decide_eq_true hroom
      refine ⟨hentries, htag, fun i hi => ?_⟩
      subst hi
      obtain ⟨hidle, hne⟩ := of_decide_eq_true hconn
      exact not_reaches_of_idle hidle hne
  | serve b =>
      intro source tag id hwaker hload
      obtain ⟨wakers, hwaker⟩ := List.head?_eq_some_iff.mp hwaker
      obtain ⟨rest, hload⟩ := List.head?_eq_some_iff.mp hload
      simp only [calm, hwaker, hload] at h
      obtain ⟨hsettled, hroom⟩ := of_decide_eq_true h
      exact ⟨hsettled, fun _ => hroom⟩
  | call _ _ | reply _ _ _ | sent _ | command _ _ => trivial

local instance neZero_two : NeZero 2 := ⟨by decide⟩

/-- Two clients on node 0 of an object on node 1. -/
def twoClients : Network 2 (Fin 2) where
  node _ := 0
  destNode _ := 1
  destId _ := 7
  remote := by decide

/-- The steps of a request of client `i`, from the client to the object. -/
def requesting (i : Fin 2) : List (Action 2 (Fin 2)) :=
  [.take 0 (.client i), .command 1 0, .serve 1, .sent 0]

/-- The steps of a reply. -/
def replying (i : Fin 2) : List (Action 2 (Fin 2)) :=
  [.reply 1 (.object 0 7) ⟨i, 0, true⟩, .take 1 (.object 0 7), .command 0 1, .sent 1]

/-- One call after the other. -/
theorem routing_delivers_twoClients : ∃ s,
    Transition.run (step twoClients) State.start (.call 0 true :: requesting 0 ++ replying 0 ++
      .call 1 true :: requesting 1 ++ replying 1) = some s ∧ Promise twoClients s ∧
      s.answers 0 = [.reply ⟨0, 0, true⟩] ∧ s.answers 1 = [.reply ⟨1, 0, true⟩] := by
  have hend : ((Transition.run (step twoClients) State.start (.call 0 true :: requesting 0 ++
      replying 0 ++ .call 1 true :: requesting 1 ++ replying 1)).map fun s =>
        decide (s.answers 0 = [.reply ⟨0, 0, true⟩] ∧ s.answers 1 = [.reply ⟨1, 0, true⟩])) =
      some true := by decide +kernel
  have hcalm : Transition.Along (step twoClients) (fun s act => calm twoClients s act = true)
      State.start (.call 0 true :: requesting 0 ++ replying 0 ++ .call 1 true :: requesting 1 ++
        replying 1) := by decide +kernel
  obtain ⟨s, hs, hanswers⟩ := Option.map_eq_some_iff.mp hend
  have hclean := hcalm.mono fun _ _ h => Clean.of_calm h
  exact ⟨s, hs, (routing_delivers hs hclean).1, of_decide_eq_true hanswers⟩

/-- When both clients wait for their replies, the reply to the first one goes to the second one,
and the other reply is sent on as a request. -/
theorem routing_misdelivers : ¬∀ (n : ℕ) (ι : Type) (_ : DecidableEq ι) (net : Network n ι)
    (acts : List (Action n ι)) (s : State n ι),
    Transition.run (step net) State.start acts = some s → Promise net s := by
  intro h
  have hend : ((Transition.run (step twoClients) State.start (.call 0 true :: .call 1 true ::
      requesting 0 ++ requesting 1 ++ replying 0 ++ (replying 1).take 2)).map fun s =>
        decide (s.answers 1 = [.reply ⟨0, 0, true⟩] ∧ s.redirected 1 = [.reply ⟨1, 0, true⟩])) =
      some true := by decide +kernel
  obtain ⟨s, hs, hbad⟩ := Option.map_eq_some_iff.mp hend
  obtain ⟨-, hredirected⟩ := of_decide_eq_true hbad
  obtain ⟨r, hr⟩ := (h 2 (Fin 2) inferInstance twoClients _ s hs).1.redirected 1
    (.reply ⟨1, 0, true⟩) (hredirected ▸ List.mem_cons_self)
  cases hr

end Interconnector.Routing
