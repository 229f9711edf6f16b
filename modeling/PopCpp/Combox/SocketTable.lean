/-
# The poll table of a socket server

A `pop_combox_socket` that serves keeps two arrays, of the descriptors it polls and of their
connections, with the listening socket at the beginning.  `Wait` polls and then hands out what
was ready one by one, a connection for each call, going down from the end: `index` is where it
goes on and `nready` how many are left.  It polls again when none is left.  The listening
socket comes last; a connection that is accepted is added at the end.  Between two calls the
caller may close the connection that it was given, which takes it out of both arrays.

So the cursor stays below everything that changes, and everything a poll reports is handed out
once before the next poll.
-/
import PopCpp.Lib.Transition
import PopCpp.Lib.ListEdit
import Mathlib.Data.List.Nodup
import Mathlib.Data.List.TakeDrop

namespace PopCpp.Combox.Socket

open Transition

/-! ### The combox -/

/-- A `pollfd`: its descriptor, and whether `revents` is not 0. -/
structure PollFd where
  fd : ℤ
  revents : Bool
deriving DecidableEq, Repr

/-- The members of a `pop_combox_socket` that `Wait` and `CloseSock` use on a server.  Of a
connection its descriptor is kept. -/
structure Server where
  sockfd : ℤ
  isCanceled : Bool
  pollarray : List PollFd
  connarray : List ℤ
  index : ℤ
  nready : ℤ
  /-- An array was read or written outside. -/
  outside : Bool
deriving Repr

/-- What happens, in order. -/
inductive Event where
  /-- A call of `poll`, with the descriptors that it reports. -/
  | poll (ready : List ℤ)
  /-- A call of `accept` on this socket, with the descriptor of the new connection. -/
  | accept (sockfd : ℤ) (fd : Option ℤ)
  | onNewConnection (fd : ℤ)
  /-- `Wait` returns this connection. -/
  | returned (fd : ℤ)
  | onCloseConnection (fd : ℤ)
  | close (fd : ℤ)
deriving DecidableEq, Repr

/-- What `accept` and `OnNewConnection` return, should they be called. -/
structure Accept where
  fd : Option ℤ
  ret : Bool

/-- How `poll` ends. -/
inductive Poll where
  /-- It says which entries have an event, none of them after a timeout. -/
  | returns (revents : ℕ → Bool)
  /-- -1, with `EINTR` or with another error. -/
  | interrupted
  | failed

/-- How a part of `Wait` ends: with the value returned, or with `none` when `Wait` goes on. -/
structure Outcome where
  server : Server
  events : List Event
  ret : Option (Option ℤ)

/-- What comes before. -/
def Outcome.after (es : List Event) (o : Outcome) : Outcome := { o with events := es ++ o.events }

/-- The next part of `Wait`, when it goes on. -/
def Outcome.andThen (o : Outcome) (f : Server → Outcome) : Outcome :=
  match o.ret with
  | some _ => o
  | none => (f o.server).after o.events

namespace Server

/-- A server as `Create` leaves it. -/
def create (sockfd : ℤ) : Server where
  sockfd := sockfd
  isCanceled := false
  pollarray := [⟨sockfd, false⟩]
  connarray := [sockfd]
  index := 1
  nready := 0
  outside := false

/-- The part of the loop that handles an event of entry `i`. -/
def found (s : Server) (i : ℕ) (e : PollFd) : Server :=
  { s with
    nready := s.nready - 1
    index := i - 1
    pollarray := s.pollarray.set i { e with revents := false } }

/-- `resize(n + 1)` of both arrays, `n` being the length of the first, and the assignments to
the elements at `n`. -/
def append (s : Server) (fd : ℤ) : Server :=
  { s with
    pollarray := s.pollarray ++ [⟨fd, false⟩]
    connarray := s.connarray.takeD s.pollarray.length 0 ++ [fd] }

/-- The loop of `Wait` over the entries below `k`, downwards. -/
def scan (s : Server) (a : Accept) : ℕ → Outcome
  | 0 => ⟨s, [], none⟩
  | i + 1 =>
      match s.pollarray[i]? with
      | none => ⟨{ s with outside := true }, [], none⟩
      | some e =>
          if e.revents then
            let s := s.found i e
            if i = 0 then
              match a.fd with
              | none => ⟨s, [.accept s.sockfd none], some none⟩
              | some fd =>
                  ⟨s.append fd, [.accept s.sockfd (some fd), .onNewConnection fd],
                    if a.ret then none else some none⟩
            else
              match s.connarray[i]? with
              | none => ⟨{ s with outside := true }, [], none⟩
              | some conn => ⟨s, [.returned conn], some (some conn)⟩
          else s.scan a i

/-- The descriptors of the entries that have an event. -/
def ready (s : Server) : List ℤ := (s.pollarray.filter (·.revents)).map (·.fd)

/-- `index = n - 1` and `nready = poll(...)`, which fills in `revents`. -/
def polled (s : Server) (revents : ℕ → Bool) : Server :=
  let s := { s with pollarray := s.pollarray.mapIdx fun i (e : PollFd) => ⟨e.fd, revents i⟩ }
  { s with index := s.pollarray.length - 1, nready := s.ready.length }

/-- The same when `poll` returns -1. -/
def pollFailed (s : Server) : Server := { s with index := s.pollarray.length - 1, nready := -1 }

/-- `Wait` from a call of `poll` on: how `poll` ends and what the loop after it accepts, for
each round.  When there are no more rounds, `poll` has not returned yet. -/
def waitPoll (s : Server) : List (Poll × Accept) → Outcome
  | [] => ⟨s, [], none⟩
  | (.interrupted, _) :: rounds =>
      let s := s.pollFailed
      if s.sockfd ≥ 0 then (s.waitPoll rounds).after [.poll []]
      else ⟨s, [.poll []], some none⟩
  | (.failed, _) :: _ => ⟨s.pollFailed, [.poll []], some none⟩
  | (.returns revents, a) :: rounds =>
      let s := s.polled revents
      if s.nready ≤ 0 then ⟨s, [.poll s.ready], some none⟩
      else
        ((s.scan a (s.index + 1).toNat).andThen fun s => s.waitPoll rounds).after [.poll s.ready]

/-- `Wait()`; `a` is what the loop accepts before the first `poll`. -/
def wait (s : Server) (a : Accept) (rounds : List (Poll × Accept)) : Outcome :=
  if s.sockfd < 0 ∨ s.isCanceled then ⟨{ s with isCanceled := false }, [], some none⟩
  else
    (if s.nready > 0 then s.scan a (s.index + 1).toNat else ⟨s, [], none⟩).andThen fun s =>
      s.waitPoll rounds

/-- `CloseSock(fd)`; `ret` is what `OnCloseConnection` returns. -/
def closeSock (s : Server) (fd : ℤ) (ret : Bool) : Server × List Event :=
  match s.pollarray.findIdx? (·.fd = fd) with
  | none => (s, [])
  | some i =>
      match s.connarray[i]? with
      | none => ({ s with outside := true }, [])
      | some conn =>
          ({ s with
              isCanceled := !ret
              connarray := s.connarray.eraseIdx i
              pollarray := s.pollarray.eraseIdx i },
            [.onCloseConnection conn, .close fd])

end Server

/-! ### What the log says -/

/-- The descriptors that `accept` has returned. -/
def accepts (log : List Event) : List ℤ :=
  log.filterMap fun
    | .accept _ fd => fd
    | _ => none

/-- The connections that `OnNewConnection` was called with. -/
def newCalls (log : List Event) : List ℤ :=
  log.filterMap fun
    | .onNewConnection fd => some fd
    | _ => none

/-- The connections that `OnCloseConnection` was called with. -/
def closeCalls (log : List Event) : List ℤ :=
  log.filterMap fun
    | .onCloseConnection fd => some fd
    | _ => none

/-- The descriptors that were closed. -/
def closes (log : List Event) : List ℤ :=
  log.filterMap fun
    | .close fd => some fd
    | _ => none

/-- What a call of `poll` has reported, and what was handled from then on. -/
structure Round where
  reported : List ℤ
  handled : List ℤ
deriving DecidableEq, Repr

/-- The rounds that the next call of `poll` has ended, and the one that goes on. -/
structure Rounds where
  done : List Round
  current : Round

def Rounds.handle (r : Rounds) (fd : ℤ) : Rounds :=
  { r with current := { r.current with handled := r.current.handled ++ [fd] } }

def Rounds.add (r : Rounds) : Event → Rounds
  | .poll ready => ⟨r.done ++ [r.current], ⟨ready, []⟩⟩
  | .accept sockfd _ => r.handle sockfd
  | .returned fd => r.handle fd
  | .onNewConnection _ => r
  | .onCloseConnection _ => r
  | .close _ => r

def rounds (log : List Event) : Rounds := log.foldl Rounds.add ⟨[], ⟨[], []⟩⟩

/-! ### Runs -/

/-- What the caller does next. -/
inductive Action where
  | wait (a : Accept) (rounds : List (Poll × Accept))
  /-- It closes the connection that `Wait` has returned most recently. -/
  | closeSock (ret : Bool)

/-- A server, and what has happened. -/
structure State where
  server : Server
  log : List Event
  /-- The connection that `Wait` has returned most recently. -/
  last : Option ℤ
  /-- A call of `Wait` has not returned. -/
  waiting : Bool

/-- A step of the caller; `accept` returns no descriptor that is open. -/
def step (s : State) : Action → Option State
  | .wait a rounds =>
      let o := s.server.wait a rounds
      if s.waiting = false ∧ (s.server.connarray ++ accepts o.events).Nodup then
        some ⟨o.server, s.log ++ o.events, (o.ret.getD none).or s.last, o.ret.isNone⟩
      else none
  | .closeSock ret =>
      match s.last with
      | none => none
      | some fd =>
          if s.waiting then none
          else
            let r := s.server.closeSock fd ret
            some ⟨r.1, s.log ++ r.2, s.last, false⟩

def init (sockfd : ℤ) : State := ⟨.create sockfd, [], none, false⟩

@[simp] lemma accepts_append (l l' : List Event) : accepts (l ++ l') = accepts l ++ accepts l' :=
  List.filterMap_append ..

@[simp] lemma newCalls_append (l l' : List Event) :
    newCalls (l ++ l') = newCalls l ++ newCalls l' :=
  List.filterMap_append ..

@[simp] lemma closeCalls_append (l l' : List Event) :
    closeCalls (l ++ l') = closeCalls l ++ closeCalls l' :=
  List.filterMap_append ..

@[simp] lemma closes_append (l l' : List Event) : closes (l ++ l') = closes l ++ closes l' :=
  List.filterMap_append ..

@[simp] lemma rounds_append (l l' : List Event) :
    rounds (l ++ l') = l'.foldl Rounds.add (rounds l) :=
  List.foldl_append ..

/-! ### What is kept -/

/-- The two arrays are about the same descriptors, the first of which is the listening socket;
they were read and written inside only. -/
structure TableOk (sockfd : ℤ) (s : Server) : Prop where
  inside : s.outside = false
  same : s.pollarray.map PollFd.fd = s.connarray
  listening : s.connarray.head? = some sockfd
  sockfd : s.sockfd = sockfd
  distinct : s.connarray.Nodup

/-- The callbacks were called once for each connection, and whoever was accepted and not
closed is in the table. -/
structure CallsOk (s : Server) (log : List Event) : Prop where
  new : newCalls log = accepts log
  close : closeCalls log = closes log
  open_ : (accepts log).Perm (closes log ++ s.connarray.tail)

/-- What a call of `poll` reported was handled before the next one, and what was not handled
of the last report still has its event. -/
structure RoundsOk (s : Server) (log : List Event) : Prop where
  done : ∀ r ∈ (rounds log).done, r.handled.Perm r.reported ∧ r.reported.Nodup
  current : ((rounds log).current.handled ++ s.ready).Perm (rounds log).current.reported
  distinct : (rounds log).current.reported.Nodup

/-- The cursor is above all events, and `nready` is their number. -/
structure CursorOk (s : Server) : Prop where
  left : s.nready.toNat = s.ready.length
  below : ∀ (i : ℕ) e, s.pollarray[i]? = some e → e.revents = true → (i : ℤ) ≤ s.index
  bound : 0 < s.nready → s.index < s.pollarray.length

structure Ok (sockfd : ℤ) (s : Server) (log : List Event) : Prop where
  table : TableOk sockfd s
  calls : CallsOk s log
  rounds : RoundsOk s log

section

variable {sockfd : ℤ} {s : Server} {log : List Event} {i : ℕ} {e : PollFd}

lemma ready_eq_nil_iff :
    s.ready = [] ↔ ∀ (i : ℕ) e, s.pollarray[i]? = some e → e.revents = false := by
  rw [Server.ready, List.map_eq_nil_iff, List.filter_eq_nil_iff]
  constructor
  · intro h i e he
    exact Bool.of_not_eq_true (h e (List.mem_of_getElem? he))
  · intro h e he
    obtain ⟨i, hi⟩ := List.getElem?_of_mem he
    rw [h i e hi]
    exact Bool.false_ne_true

lemma TableOk.length_eq (h : TableOk sockfd s) : s.pollarray.length = s.connarray.length := by
  rw [← h.same, List.length_map]

lemma TableOk.connarray_getElem? (h : TableOk sockfd s) (he : s.pollarray[i]? = some e) :
    s.connarray[i]? = some e.fd := by
  rw [← h.same, List.getElem?_map, he, Option.map_some]

lemma TableOk.fd_zero (h : TableOk sockfd s) (he : s.pollarray[0]? = some e) :
    e.fd = sockfd := by
  have hhead := h.listening
  rw [List.head?_eq_getElem?, h.connarray_getElem? he] at hhead
  exact Option.some.inj hhead

/-! ### Handling an event -/

lemma map_fd_found (he : s.pollarray[i]? = some e) :
    (s.found i e).pollarray.map PollFd.fd = s.pollarray.map PollFd.fd := by
  obtain ⟨l₁, l₂, hl, hset, -⟩ := ListEdit.exists_split he
  show (s.pollarray.set i _).map PollFd.fd = _
  rw [hset, hl, List.map_append, List.map_append, List.map_cons, List.map_cons]

lemma ready_found (he : s.pollarray[i]? = some e) (hevent : e.revents = true) :
    s.ready.Perm (e.fd :: (s.found i e).ready) :=
  ListEdit.filter_map_perm_set PollFd.fd he hevent rfl

lemma TableOk.found (h : TableOk sockfd s) (he : s.pollarray[i]? = some e) :
    TableOk sockfd (s.found i e) :=
  ⟨h.inside, (map_fd_found he).trans h.same, h.listening, h.sockfd, h.distinct⟩

/-- What was handled goes from the events that are left to the log. -/
lemma RoundsOk.found (h : RoundsOk s log) (he : s.pollarray[i]? = some e)
    (hevent : e.revents = true) {event : Event}
    (hadd : ∀ r : Rounds, r.add event = r.handle e.fd) :
    RoundsOk (s.found i e) (log ++ [event]) := by
  have hrounds : rounds (log ++ [event]) = (rounds log).handle e.fd := by
    rw [rounds_append]
    exact hadd _
  refine ⟨fun r hr => ?_, ?_, ?_⟩
  · rw [hrounds] at hr
    exact h.done r hr
  · rw [hrounds]
    show ((rounds log).current.handled ++ [e.fd] ++ (s.found i e).ready).Perm _
    rw [List.append_assoc]
    exact ((ready_found he hevent).symm.append_left _).trans h.current
  · rw [hrounds]
    exact h.distinct

lemma CursorOk.found (h : CursorOk s) (he : s.pollarray[i]? = some e)
    (hevent : e.revents = true)
    (hlast : ∀ (j : ℕ) e, i < j → s.pollarray[j]? = some e → e.revents = false) :
    CursorOk (s.found i e) := by
  have hlen := (ready_found he hevent).length_eq
  rw [List.length_cons, ← h.left] at hlen
  refine ⟨?_, fun j e' hj hevent' => ?_, fun _ => ?_⟩
  · show (s.nready - 1).toNat = _
    omega
  · show (j : ℤ) ≤ i - 1
    have hj' : (s.pollarray.set i { e with revents := false })[j]? = some e' := hj
    rcases lt_trichotomy j i with hlt | rfl | hlt
    · omega
    · rw [List.getElem?_set_self (List.getElem?_eq_some_iff.mp he).1] at hj'
      obtain rfl := Option.some.inj hj'
      exact absurd hevent' Bool.false_ne_true
    · rw [List.getElem?_set_ne hlt.ne] at hj'
      exact absurd ((hlast j e' hlt hj').symm.trans hevent') (by decide)
  · show (i : ℤ) - 1 < (s.pollarray.set i _).length
    rw [List.length_set]
    have := (List.getElem?_eq_some_iff.mp he).1
    omega

/-- Events that are not about a connection that comes or goes. -/
lemma CallsOk.append (h : CallsOk s log) (t : Server) (es : List Event)
    (hconn : t.connarray = s.connarray)
    (hes : accepts es = [] ∧ newCalls es = [] ∧ closeCalls es = [] ∧ closes es = []) :
    CallsOk t (log ++ es) := by
  obtain ⟨haccepts, hnew, hcloseCalls, hcloses⟩ := hes
  constructor
  · rw [newCalls_append, accepts_append, hnew, haccepts, h.new]
  · rw [closeCalls_append, closes_append, hcloseCalls, hcloses, h.close]
  · rw [accepts_append, closes_append, haccepts, hcloses, List.append_nil, List.append_nil, hconn]
    exact h.open_

/-- Events that do not count for the rounds. -/
lemma RoundsOk.append (h : RoundsOk s log) (t : Server) (es : List Event)
    (hready : t.ready = s.ready) (hes : ∀ r : Rounds, es.foldl Rounds.add r = r) :
    RoundsOk t (log ++ es) := by
  have hrounds : rounds (log ++ es) = rounds log := by rw [rounds_append, hes]
  refine ⟨?_, ?_, ?_⟩
  · rw [hrounds]
    exact h.done
  · rw [hrounds, hready]
    exact h.current
  · rw [hrounds]
    exact h.distinct

lemma cursorOk_of_ready_nil (hready : s.ready = []) (hn : s.nready ≤ 0) : CursorOk s := by
  refine ⟨by rw [hready]; exact Int.toNat_of_nonpos hn, fun i e he hevent => ?_, fun h => ?_⟩
  · exact absurd ((ready_eq_nil_iff.mp hready i e he).symm.trans hevent) Bool.false_ne_true
  · exact absurd h (not_lt.mpr hn)

lemma CursorOk.nready_nonpos (h : CursorOk s) (hready : s.ready = []) : s.nready ≤ 0 := by
  have hleft := h.left
  rw [hready, List.length_nil] at hleft
  omega

/-! ### The loop -/

/-- What the loop does with an event of the listening socket. -/
def Server.foundFirst (s : Server) (a : Accept) (e : PollFd) : Outcome :=
  match a.fd with
  | none => ⟨s.found 0 e, [.accept s.sockfd none], some none⟩
  | some fd =>
      ⟨(s.found 0 e).append fd, [.accept s.sockfd (some fd), .onNewConnection fd],
        if a.ret then none else some none⟩

/-- The loop handles the last entry that has an event. -/
lemma scan_cases (h : TableOk sockfd s) (a : Accept) {k : ℕ} (hk : k ≤ s.pollarray.length)
    (habove : ∀ (j : ℕ) e, k ≤ j → s.pollarray[j]? = some e → e.revents = false) :
    (s.ready = [] ∧ s.scan a k = ⟨s, [], none⟩) ∨
      ∃ (i : ℕ) (e : PollFd), s.pollarray[i]? = some e ∧ e.revents = true ∧
        (∀ (j : ℕ) e', i < j → s.pollarray[j]? = some e' → e'.revents = false) ∧
        (0 < i ∧ s.scan a k = ⟨s.found i e, [.returned e.fd], some (some e.fd)⟩ ∨
          i = 0 ∧ s.scan a k = s.foundFirst a e) := by
  induction k with
  | zero =>
      refine .inl ⟨ready_eq_nil_iff.mpr fun j e hj => habove j e (Nat.zero_le j) hj, rfl⟩
  | succ i ih =>
      obtain ⟨e, he⟩ : ∃ e, s.pollarray[i]? = some e := ⟨_, List.getElem?_eq_getElem hk⟩
      have hconn := h.connarray_getElem? he
      cases hevent : e.revents with
      | true =>
          refine .inr ⟨i, e, he, hevent, fun j e' hj => habove j e' hj, ?_⟩
          rcases Nat.eq_zero_or_pos i with rfl | hpos
          · refine .inr ⟨rfl, ?_⟩
            simp only [Server.scan, he, hevent, if_true, Server.foundFirst]
            rfl
          · refine .inl ⟨hpos, ?_⟩
            have hfound : (s.found i e).connarray[i]? = some e.fd := hconn
            simp only [Server.scan, he, hevent, if_true, if_neg hpos.ne', hfound]
      | false =>
          have hnext : s.scan a (i + 1) = s.scan a i := by
            simp [Server.scan, he, hevent]
          rw [hnext]
          refine ih (by omega) fun j e' hij hj => ?_
          rcases hij.eq_or_lt with rfl | hlt
          · obtain rfl := Option.some.inj (he.symm.trans hj)
            exact hevent
          · exact habove j e' hlt hj

/-- How things stand after a part of `Wait`. -/
structure After (sockfd : ℤ) (s : Server) (log : List Event) (o : Outcome) : Prop where
  ok : Ok sockfd o.server (log ++ o.events)
  cursor : CursorOk o.server
  connarray : o.server.connarray = s.connarray ++ accepts o.events
  /-- Unless a connection is returned, no event is left. -/
  rest : (∀ fd, o.ret ≠ some (some fd)) → o.server.ready = []
  /-- A connection that is returned is above the cursor. -/
  above : ∀ fd, o.ret = some (some fd) →
    ∀ i : ℕ, o.server.connarray[i]? = some fd → o.server.index < i
  other : ∀ fd, o.ret = some (some fd) → fd ≠ sockfd

lemma head?_append_of_head? {l : List ℤ} {x : ℤ} (h : l.head? = some x) (l' : List ℤ) :
    (l ++ l').head? = some x ∧ (l ++ l').tail = l.tail ++ l' := by
  cases l with
  | nil => exact absurd h (by simp)
  | cons y l => exact ⟨h, rfl⟩

/-- Accepting a connection. -/
lemma TableOk.append (h : TableOk sockfd s) {fd : ℤ} (hfd : fd ∉ s.connarray) :
    TableOk sockfd (s.append fd) ∧ (s.append fd).connarray = s.connarray ++ [fd] := by
  have hconn : (s.append fd).connarray = s.connarray ++ [fd] := by
    show s.connarray.takeD s.pollarray.length 0 ++ [fd] = _
    rw [List.takeD_eq_take _ h.length_eq.le, h.length_eq, List.take_length]
  refine ⟨⟨h.inside, ?_, ?_, h.sockfd, ?_⟩, hconn⟩
  · rw [hconn, ← h.same]
    show (s.pollarray ++ [_]).map PollFd.fd = _
    rw [List.map_append, List.map_singleton]
  · rw [hconn]
    exact (head?_append_of_head? h.listening _).1
  · rw [hconn]
    refine List.nodup_append.mpr ⟨h.distinct, List.nodup_singleton fd, ?_⟩
    rintro x hx _ hfd' rfl
    obtain rfl := List.mem_singleton.mp hfd'
    exact hfd hx

/-- A connection is returned. -/
lemma after_returned (h : Ok sockfd s log) (hc : CursorOk s) {i : ℕ} {e : PollFd}
    (h0 : 0 < i) (he : s.pollarray[i]? = some e) (hevent : e.revents = true)
    (hlast : ∀ (j : ℕ) e', i < j → s.pollarray[j]? = some e' → e'.revents = false) :
    After sockfd s log ⟨s.found i e, [.returned e.fd], some (some e.fd)⟩ where
  ok := ⟨h.table.found he, h.calls.append _ _ rfl ⟨rfl, rfl, rfl, rfl⟩,
    h.rounds.found he hevent fun _ => rfl⟩
  cursor := hc.found he hevent hlast
  connarray := (List.append_nil _).symm
  rest hne := absurd rfl (hne e.fd)
  above fd hret j hj := by
    obtain rfl : e.fd = fd := Option.some.inj (Option.some.inj hret)
    have hi := h.table.connarray_getElem? he
    have hj' : s.connarray[j]? = some e.fd := hj
    have hlt := (List.getElem?_eq_some_iff.mp hi).1
    obtain rfl : i = j := (List.getElem?_inj hlt h.table.distinct).mp (hi.trans hj'.symm)
    show (i : ℤ) - 1 < i
    omega
  other fd hret heq := by
    obtain rfl : e.fd = fd := Option.some.inj (Option.some.inj hret)
    have hi := h.table.connarray_getElem? he
    have hzero := h.table.listening
    rw [List.head?_eq_getElem?, ← heq] at hzero
    have hlt := (List.getElem?_eq_some_iff.mp hi).1
    exact h0.ne' ((List.getElem?_inj hlt h.table.distinct).mp (hi.trans hzero.symm))

/-- The listening socket has an event, and it is the last one. -/
lemma after_foundFirst (h : Ok sockfd s log) (hc : CursorOk s) (a : Accept) {e : PollFd}
    (he : s.pollarray[0]? = some e) (hevent : e.revents = true)
    (hlast : ∀ (j : ℕ) e', 0 < j → s.pollarray[j]? = some e' → e'.revents = false)
    (hfresh : (s.connarray ++ accepts (s.foundFirst a e).events).Nodup) :
    After sockfd s log (s.foundFirst a e) := by
  have htable := h.table.found he
  have hcursor := hc.found he hevent hlast
  have hadd : ∀ r : Rounds, r.add (.accept s.sockfd a.fd) = r.handle e.fd := by
    intro r
    rw [Rounds.add, h.table.sockfd, h.table.fd_zero he]
  have hrounds := h.rounds.found he hevent hadd
  -- no event is left
  have hready : (s.found 0 e).ready = [] := by
    refine ready_eq_nil_iff.mpr fun j e' hj => ?_
    by_contra hevent'
    have hle := hcursor.below j e' hj (Bool.of_not_eq_false hevent')
    have hindex : (s.found 0 e).index = -1 := rfl
    omega
  have hnready := hcursor.nready_nonpos hready
  unfold Server.foundFirst at hfresh ⊢
  cases hacc : a.fd with
  | none =>
      rw [hacc] at hrounds
      exact ⟨⟨htable, h.calls.append _ _ rfl ⟨rfl, rfl, rfl, rfl⟩, hrounds⟩, hcursor,
        (List.append_nil _).symm, fun _ => hready, by rintro _ ⟨⟩,
        by rintro _ ⟨⟩⟩
  | some fd =>
      rw [hacc] at hrounds hfresh
      have hnew : fd ∉ s.connarray := fun hmem =>
        (List.nodup_append.mp hfresh).2.2 fd hmem fd (by simp [accepts]) rfl
      obtain ⟨happend, hconn⟩ := htable.append hnew
      have hready' : ((s.found 0 e).append fd).ready = [] := by
        show ((_ ++ [_]).filter _).map _ = []
        rw [List.filter_append, List.map_append]
        exact List.append_eq_nil_iff.mpr ⟨hready, rfl⟩
      have hnot : ∀ c : ℤ, (if a.ret then none else some none) ≠ some (some c) := by
        intro c
        split <;> simp
      have hcalls : CallsOk ((s.found 0 e).append fd)
          (log ++ [.accept s.sockfd (some fd), .onNewConnection fd]) := by
        refine ⟨?_, ?_, ?_⟩
        · simpa [newCalls, accepts] using h.calls.new
        · simpa [closeCalls, closes] using h.calls.close
        · have htail := (head?_append_of_head? h.table.listening [fd]).2
          have hopen := h.calls.open_.append_right [fd]
          rw [hconn]
          show (accepts _).Perm (closes _ ++ (s.connarray ++ [fd]).tail)
          rw [htail, accepts_append, closes_append]
          simpa [accepts, closes] using hopen
      have hroundsNew := hrounds.append ((s.found 0 e).append fd) [.onNewConnection fd]
        (hready'.trans hready.symm) fun _ => rfl
      rw [List.append_assoc] at hroundsNew
      exact ⟨⟨happend, hcalls, hroundsNew⟩, cursorOk_of_ready_nil hready' hnready, hconn,
        fun _ => hready', fun c hret => absurd hret (hnot c), fun c hret => absurd hret (hnot c)⟩

/-- **The loop.** -/
lemma after_scan (h : Ok sockfd s log) (hc : CursorOk s) (hpos : 0 < s.nready) (a : Accept)
    (hfresh : (s.connarray ++ accepts (s.scan a (s.index + 1).toNat).events).Nodup) :
    After sockfd s log (s.scan a (s.index + 1).toNat) := by
  have hbound := hc.bound hpos
  have habove : ∀ (j : ℕ) e, (s.index + 1).toNat ≤ j → s.pollarray[j]? = some e →
      e.revents = false := by
    intro j e hj he
    by_contra hevent
    have := hc.below j e he (Bool.of_not_eq_false hevent)
    omega
  rcases scan_cases h.table a (by omega) habove with ⟨hready, hscan⟩ |
    ⟨i, e, he, hevent, hlast, ⟨h0, hscan⟩ | ⟨rfl, hscan⟩⟩
  · rw [hscan]
    have hlog : log ++ [] = log := List.append_nil log
    exact ⟨hlog.symm ▸ h, hc, (List.append_nil _).symm, fun _ => hready, by rintro _ ⟨⟩,
        by rintro _ ⟨⟩⟩
  · rw [hscan]
    exact after_returned h hc h0 he hevent hlast
  · rw [hscan] at hfresh ⊢
    exact after_foundFirst h hc a he hevent hlast hfresh

/-! ### `Wait` -/

lemma After.andThen {o : Outcome} {f : Server → Outcome} (h : After sockfd s log o)
    (hf : o.ret = none → After sockfd o.server (log ++ o.events) (f o.server)) :
    After sockfd s log (o.andThen f) := by
  unfold Outcome.andThen
  split
  · exact h
  · next hret =>
      obtain ⟨hok, hcursor, hconn, hrest, habove, hother⟩ := hf hret
      refine ⟨?_, hcursor, ?_, hrest, habove, hother⟩
      · show Ok sockfd (f o.server).server (log ++ (o.events ++ (f o.server).events))
        rwa [← List.append_assoc]
      · show (f o.server).server.connarray = _ ++ accepts (o.events ++ (f o.server).events)
        rw [hconn, h.connarray, accepts_append, List.append_assoc]

/-- What was accepted in both parts is new in each of them. -/
lemma nodup_andThen {o : Outcome} {f : Server → Outcome} {l : List ℤ}
    (h : (l ++ accepts (o.andThen f).events).Nodup) : (l ++ accepts o.events).Nodup ∧
      (o.ret = none → ((l ++ accepts o.events) ++ accepts (f o.server).events).Nodup) := by
  unfold Outcome.andThen at h
  split at h
  · next hret => exact ⟨h, fun hnone => by rw [hnone] at hret; cases hret⟩
  · have hevents : (Outcome.after o.events (f o.server)).events =
        o.events ++ (f o.server).events := rfl
    rw [hevents, accepts_append, ← List.append_assoc] at h
    exact ⟨h.of_append_left, fun _ => h⟩

/-- A call of `poll` ends a round in which everything was handled. -/
lemma Ok.poll (h : Ok sockfd s log) (hready : s.ready = []) {t : Server} (ht : TableOk sockfd t)
    (hconn : t.connarray = s.connarray) : Ok sockfd t (log ++ [.poll t.ready]) := by
  have hrounds : Socket.rounds (log ++ [.poll t.ready]) =
      ⟨(Socket.rounds log).done ++ [(Socket.rounds log).current], ⟨t.ready, []⟩⟩ := by
    rw [rounds_append]
    rfl
  refine ⟨ht, h.calls.append t _ hconn ⟨rfl, rfl, rfl, rfl⟩, ?_, ?_, ?_⟩
  · intro r hr
    rw [hrounds] at hr
    rcases List.mem_append.mp hr with hr | hr
    · exact h.rounds.done r hr
    · obtain rfl := List.mem_singleton.mp hr
      have hcurrent := h.rounds.current
      rw [hready, List.append_nil] at hcurrent
      exact ⟨hcurrent, h.rounds.distinct⟩
  · rw [hrounds]
    exact List.Perm.refl _
  · rw [hrounds]
    have hdistinct := ht.distinct
    rw [← ht.same] at hdistinct
    exact hdistinct.sublist (List.filter_sublist.map _)

lemma Ok.pollFailed (h : Ok sockfd s log) (hready : s.ready = []) :
    Ok sockfd s.pollFailed (log ++ [.poll []]) := by
  have htable : TableOk sockfd s.pollFailed :=
    ⟨h.table.inside, h.table.same, h.table.listening, h.table.sockfd, h.table.distinct⟩
  have hsame : s.pollFailed.ready = [] := hready
  have hpoll := h.poll hready htable rfl
  rwa [hsame] at hpoll

lemma TableOk.polled (h : TableOk sockfd s) (revents : ℕ → Bool) :
    TableOk sockfd (s.polled revents) := by
  refine ⟨h.inside, ?_, h.listening, h.sockfd, h.distinct⟩
  refine Eq.trans ?_ h.same
  show (s.pollarray.mapIdx _).map PollFd.fd = _
  refine List.ext_getElem? fun i => ?_
  rw [List.getElem?_map, List.getElem?_mapIdx, List.getElem?_map, Option.map_map]
  rfl

lemma cursorOk_polled (revents : ℕ → Bool) : CursorOk (s.polled revents) := by
  refine ⟨Int.toNat_natCast _, fun i e he _ => ?_, fun _ => ?_⟩
  · have hlt := (List.getElem?_eq_some_iff.mp he).1
    show (i : ℤ) ≤ ((s.polled revents).pollarray.length : ℤ) - 1
    omega
  · show ((s.polled revents).pollarray.length : ℤ) - 1 < _
    omega

lemma After.after {o : Outcome} {t : Server} {es : List Event}
    (h : After sockfd t (log ++ es) o) (hconn : t.connarray = s.connarray ++ accepts es) :
    After sockfd s log (o.after es) := by
  refine ⟨?_, h.cursor, ?_, h.rest, h.above, h.other⟩
  · show Ok sockfd o.server (log ++ (es ++ o.events))
    rw [← List.append_assoc]
    exact h.ok
  · show o.server.connarray = s.connarray ++ accepts (es ++ o.events)
    rw [h.connarray, hconn, accepts_append, List.append_assoc]

/-- **From a call of `poll` on.** -/
lemma after_waitPoll (h : Ok sockfd s log) (hc : CursorOk s) (hready : s.ready = [])
    (rounds : List (Poll × Accept))
    (hfresh : (s.connarray ++ accepts (s.waitPoll rounds).events).Nodup) :
    After sockfd s log (s.waitPoll rounds) := by
  induction rounds generalizing s log with
  | nil =>
      have hlog : log ++ [] = log := List.append_nil log
      exact ⟨hlog.symm ▸ h, hc, (List.append_nil _).symm, fun _ => hready, by rintro _ ⟨⟩,
        by rintro _ ⟨⟩⟩
  | cons round rounds ih =>
      -- the induction is on the rounds of `poll`, with the table and the log free
      have hfailed := h.pollFailed hready
      have hcursor : CursorOk s.pollFailed :=
        cursorOk_of_ready_nil hready (show (-1 : ℤ) ≤ 0 by decide)
      have hnull : After sockfd s log ⟨s.pollFailed, [.poll []], some none⟩ :=
        ⟨hfailed, hcursor, (List.append_nil _).symm, fun _ => hready, by rintro _ ⟨⟩,
        by rintro _ ⟨⟩⟩
      match round with
      | (.interrupted, a) =>
          unfold Server.waitPoll at hfresh ⊢
          dsimp only at hfresh ⊢
          -- interrupted: the source goes round again, if the socket is still open
          split
          · next hsock =>
              rw [if_pos hsock] at hfresh
              exact After.after (ih hfailed hcursor hready hfresh) (List.append_nil _).symm
          · exact hnull
      | (.failed, a) => exact hnull
      | (.returns revents, a) =>
          have htable := h.table.polled revents
          have hpolled := h.poll hready htable rfl
          have hcursor := cursorOk_polled (s := s) revents
          unfold Server.waitPoll at hfresh ⊢
          dsimp only at hfresh ⊢
          split
          · next hnone =>
              -- nothing is ready: `Wait` returns null
              have hnil : (s.polled revents).ready = [] := by
                have hleft := hcursor.left
                rw [Int.toNat_of_nonpos hnone] at hleft
                exact List.eq_nil_of_length_eq_zero hleft.symm
              exact ⟨hpolled, hcursor, (List.append_nil _).symm, fun _ => hnil,
                by rintro _ ⟨⟩, by rintro _ ⟨⟩⟩
          · next hsome =>
              rw [if_neg hsome] at hfresh
              -- something is ready: one scan, and another `poll` if it found only accepts
              obtain ⟨hfirst, hrest⟩ := nodup_andThen hfresh
              have hscan := after_scan hpolled hcursor (not_le.mp hsome) a hfirst
              refine After.after (t := s.polled revents) (hscan.andThen fun hret => ?_)
                (List.append_nil _).symm
              refine ih hscan.ok hscan.cursor (hscan.rest fun fd => ?_) ?_
              · rw [hret]
                simp
              · rw [hscan.connarray]
                exact hrest hret

/-- **A call of `Wait`** that is not cancelled. -/
lemma after_wait (h : Ok sockfd s log) (hc : CursorOk s)
    (hcancel : ¬(s.sockfd < 0 ∨ s.isCanceled = true)) (a : Accept)
    (rounds : List (Poll × Accept))
    (hfresh : (s.connarray ++ accepts (s.wait a rounds).events).Nodup) :
    After sockfd s log (s.wait a rounds) := by
  unfold Server.wait at hfresh ⊢
  rw [if_neg hcancel] at hfresh ⊢
  obtain ⟨hfirst, hrest⟩ := nodup_andThen hfresh
  have hscan : After sockfd s log
      (if s.nready > 0 then s.scan a (s.index + 1).toNat else ⟨s, [], none⟩) := by
    split
    · next hpos =>
        rw [if_pos hpos] at hfirst
        exact after_scan h hc hpos a hfirst
    · next hpos =>
        have hready : s.ready = [] := by
          have hleft := hc.left
          rw [Int.toNat_of_nonpos (not_lt.mp hpos)] at hleft
          exact List.eq_nil_of_length_eq_zero hleft.symm
        have hlog : log ++ [] = log := List.append_nil log
        exact ⟨hlog.symm ▸ h, hc, (List.append_nil _).symm, fun _ => hready, by rintro _ ⟨⟩,
          by rintro _ ⟨⟩⟩
  refine hscan.andThen fun hret => ?_
  refine after_waitPoll hscan.ok hscan.cursor (hscan.rest fun fd => ?_) rounds ?_
  · rw [hret]
    simp
  · rw [hscan.connarray]
    exact hrest hret

/-! ### `CloseSock` -/

/-- The connection that `Wait` has returned most recently, when it is still in the table, is
above the cursor, or no event is left. -/
def Recent (sockfd : ℤ) (s : Server) (fd : ℤ) : Prop :=
  fd ≠ sockfd ∧ (s.ready = [] ∨ ∀ i : ℕ, s.connarray[i]? = some fd → s.index < i)

lemma perm_tail_eraseIdx {l : List ℤ} {x : ℤ} (hi : l[i]? = some x) (h0 : 0 < i) :
    l.tail.Perm (x :: (l.eraseIdx i).tail) ∧ (l.eraseIdx i).head? = l.head? := by
  cases l with
  | nil => exact absurd hi (by simp)
  | cons y l =>
      cases i with
      | zero => exact absurd h0 (lt_irrefl 0)
      | succ i =>
          obtain ⟨l₁, l₂, hl, -, herase⟩ := ListEdit.exists_split (show l[i]? = some x from hi)
          refine ⟨?_, rfl⟩
          show l.Perm (x :: l.eraseIdx i)
          rw [herase, hl]
          exact List.perm_middle

/-- Taking an entry without an event out of the table, above the cursor. -/
lemma CursorOk.eraseIdx (hc : CursorOk s) (he : s.pollarray[i]? = some e)
    (hevent : e.revents = false) (hindex : s.ready = [] ∨ s.index < i) (ret : Bool) :
    CursorOk { s with
      isCanceled := ret
      connarray := s.connarray.eraseIdx i
      pollarray := s.pollarray.eraseIdx i } := by
  have hlt := (List.getElem?_eq_some_iff.mp he).1
  have hready : ((s.pollarray.eraseIdx i).filter (·.revents)).map (·.fd) = s.ready := by
    rw [ListEdit.filter_eraseIdx he hevent]
    rfl
  rcases hindex with hnil | hindex
  · exact cursorOk_of_ready_nil (hready.trans hnil) (hc.nready_nonpos hnil)
  · refine ⟨?_, fun j e' hj hevent' => ?_, fun hpos => ?_⟩
    · show s.nready.toNat = (((s.pollarray.eraseIdx i).filter _).map _).length
      rw [hready]
      exact hc.left
    · show (j : ℤ) ≤ s.index
      have hj' : (s.pollarray.eraseIdx i)[j]? = some e' := hj
      rw [List.getElem?_eraseIdx] at hj'
      split at hj'
      · exact hc.below j e' hj' hevent'
      · have := hc.below (j + 1) e' hj' hevent'
        push_cast at this
        omega
    · show s.index < ((s.pollarray.eraseIdx i).length : ℤ)
      rw [List.length_eraseIdx_of_lt hlt]
      omega

lemma closeSock_spec (h : Ok sockfd s log) (hc : CursorOk s) {fd : ℤ} (hrecent : Recent sockfd s fd)
    (ret : Bool) :
    Ok sockfd (s.closeSock fd ret).1 (log ++ (s.closeSock fd ret).2) ∧
      CursorOk (s.closeSock fd ret).1 ∧ Recent sockfd (s.closeSock fd ret).1 fd := by
  unfold Server.closeSock
  cases hfind : s.pollarray.findIdx? (·.fd = fd) with
  | none =>
      have hlog : log ++ [] = log := List.append_nil log
      exact ⟨hlog.symm ▸ h, hc, hrecent⟩
  | some i =>
      obtain ⟨hi, hfd, -⟩ := List.findIdx?_eq_some_iff_getElem.mp hfind
      have hfd : s.pollarray[i].fd = fd := of_decide_eq_true hfd
      have he : s.pollarray[i]? = some s.pollarray[i] := List.getElem?_eq_getElem hi
      generalize s.pollarray[i] = e at he hfd
      subst hfd
      have hconn := h.table.connarray_getElem? he
      have h0 : 0 < i := by
        refine Nat.pos_of_ne_zero ?_
        rintro rfl
        exact hrecent.1 (h.table.fd_zero he)
      have hindex : s.ready = [] ∨ s.index < i := hrecent.2.imp_right fun habove => habove i hconn
      have hevent : e.revents = false := by
        rcases hindex with hnil | hlt
        · exact ready_eq_nil_iff.mp hnil i e he
        · by_contra hevent
          have := hc.below i e he (Bool.of_not_eq_false hevent)
          omega
      obtain ⟨htail, hhead⟩ := perm_tail_eraseIdx hconn h0
      have hready : ((s.pollarray.eraseIdx i).filter (·.revents)).map (·.fd) = s.ready := by
        rw [ListEdit.filter_eraseIdx he hevent]
        rfl
      simp only [hconn]
      refine ⟨⟨⟨h.table.inside, ?_, ?_, h.table.sockfd, ?_⟩, ⟨?_, ?_, ?_⟩, ?_⟩,
        hc.eraseIdx he hevent hindex _, hrecent.1, .inr fun j hj => ?_⟩
      · show (s.pollarray.eraseIdx i).map PollFd.fd = s.connarray.eraseIdx i
        rw [← List.eraseIdx_map, h.table.same]
      · exact hhead.trans h.table.listening
      · exact h.table.distinct.sublist (List.eraseIdx_sublist _ _)
      · simpa [newCalls, accepts] using h.calls.new
      · simpa [closeCalls, closes] using h.calls.close
      · show (accepts _).Perm (closes _ ++ (s.connarray.eraseIdx i).tail)
        rw [accepts_append, closes_append]
        have hopen := h.calls.open_.trans (htail.append_left (closes log))
        simpa [accepts, closes] using hopen
      · exact h.rounds.append _ _ hready fun _ => rfl
      · -- it is not in the table any more
        have hj' : (s.connarray.eraseIdx i)[j]? = some e.fd := hj
        have hlt := (List.getElem?_eq_some_iff.mp hconn).1
        rw [List.getElem?_eraseIdx] at hj'
        split at hj'
        · have := (List.getElem?_inj hlt h.table.distinct).mp (hconn.trans hj'.symm)
          omega
        · have := (List.getElem?_inj hlt h.table.distinct).mp (hconn.trans hj'.symm)
          omega

end

/-! ### Every run -/

structure StateOk (sockfd : ℤ) (s : State) : Prop where
  ok : Ok sockfd s.server s.log
  cursor : CursorOk s.server
  recent : ∀ fd ∈ s.last, Recent sockfd s.server fd ∨ s.waiting = true

lemma stateOk_init (sockfd : ℤ) : StateOk sockfd (init sockfd) where
  ok :=
    { table := ⟨rfl, rfl, rfl, rfl, List.nodup_singleton sockfd⟩
      calls := ⟨rfl, rfl, List.Perm.refl _⟩
      rounds := ⟨fun _ hr => absurd hr List.not_mem_nil, List.Perm.refl _, List.nodup_nil⟩ }
  cursor := cursorOk_of_ready_nil rfl le_rfl
  recent _ hfd := absurd hfd (by simp [init])

lemma StateOk.wait {sockfd : ℤ} {s t : State} (h : StateOk sockfd s) {a : Accept}
    {rounds : List (Poll × Accept)} (hst : step s (.wait a rounds) = some t) :
    StateOk sockfd t := by
  simp only [step] at hst
  split_ifs at hst with hif
  obtain ⟨hwaiting, hfresh⟩ := hif
  obtain rfl := Option.some.inj hst
  by_cases hcancel : s.server.sockfd < 0 ∨ s.server.isCanceled = true
  · -- only `isCanceled` changes
    have hwait : s.server.wait a rounds =
        ⟨{ s.server with isCanceled := false }, [], some none⟩ := if_pos hcancel
    rw [hwait]
    have htable := h.ok.table
    have hlog : s.log ++ [] = s.log := List.append_nil s.log
    refine ⟨?_, ⟨h.cursor.left, h.cursor.below, h.cursor.bound⟩,
      fun fd hfd => .inl ((h.recent fd hfd).resolve_right ?_)⟩
    · show Ok sockfd _ (s.log ++ [])
      rw [hlog]
      exact ⟨⟨htable.inside, htable.same, htable.listening, htable.sockfd, htable.distinct⟩,
        ⟨h.ok.calls.new, h.ok.calls.close, h.ok.calls.open_⟩,
        ⟨h.ok.rounds.done, h.ok.rounds.current, h.ok.rounds.distinct⟩⟩
    · rw [hwaiting]
      exact Bool.false_ne_true
  · have hafter := after_wait h.ok h.cursor hcancel a rounds hfresh
    refine ⟨hafter.ok, hafter.cursor, fun fd hfd => ?_⟩
    cases hret : (s.server.wait a rounds).ret with
    | none => exact .inr (by simp)
    | some r =>
        have hfd' : fd ∈ r.or s.last := by
          simpa [hret] using hfd
        refine .inl ?_
        cases r with
        | none =>
            -- `Wait` has returned a null pointer: no event is left
            have hold := (h.recent fd hfd').resolve_right (by
              rw [hwaiting]
              exact Bool.false_ne_true)
            refine ⟨hold.1, .inl (hafter.rest fun c => ?_)⟩
            rw [hret]
            simp
        | some c =>
            obtain rfl : c = fd := Option.some.inj hfd'
            exact ⟨hafter.other c hret, .inr (hafter.above c hret)⟩

lemma StateOk.closeSock {sockfd : ℤ} {s t : State} (h : StateOk sockfd s) {ret : Bool}
    (hst : step s (.closeSock ret) = some t) : StateOk sockfd t := by
  simp only [step] at hst
  cases hlast : s.last with
  | none => simp [hlast] at hst
  | some fd =>
      simp only [hlast] at hst
      split_ifs at hst with hwaiting
      obtain rfl := Option.some.inj hst
      have hrecent := (h.recent fd hlast).resolve_right hwaiting
      obtain ⟨hok, hcursor, hrecent'⟩ := closeSock_spec h.ok h.cursor hrecent ret
      refine ⟨hok, hcursor, fun fd' hfd' => .inl ?_⟩
      obtain rfl : fd = fd' := Option.some.inj hfd'
      exact hrecent'

lemma StateOk.step {sockfd : ℤ} {s t : State} {a : Action} (h : StateOk sockfd s)
    (hst : Socket.step s a = some t) : StateOk sockfd t := by
  cases a with
  | wait a rounds => exact h.wait hst
  | closeSock ret => exact h.closeSock hst

/-- **The poll table of a server.**  In every run of `Wait` and of `CloseSock` on what it has
returned most recently, however `poll`, `accept` and the callbacks end: the arrays are read and
written inside only, they are about the same descriptors, each once and the listening socket
first; what a call of `poll` has reported was handled exactly once before the next call; and the
callbacks were called once for each connection accepted, and closed. -/
theorem poll_table (sockfd : ℤ) (as : List Action) (s : State)
    (hrun : run step (init sockfd) as = some s) :
    s.server.outside = false ∧
      s.server.pollarray.map PollFd.fd = s.server.connarray ∧
      s.server.connarray.head? = some sockfd ∧ s.server.connarray.Nodup ∧
      (∀ r ∈ (rounds s.log).done, r.handled.Perm r.reported ∧ r.reported.Nodup) ∧
      newCalls s.log = accepts s.log ∧ closeCalls s.log = closes s.log ∧
      (accepts s.log).Perm (closes s.log ++ s.server.connarray.tail) := by
  have hreach : Reachable step (init sockfd) s := ⟨as, hrun⟩
  obtain ⟨⟨htable, hcalls, hrounds⟩, -, -⟩ := hreach.invariant (I := StateOk sockfd)
    (stateOk_init sockfd) fun s a t _ h hst => h.step hst
  exact ⟨htable.inside, htable.same, htable.listening, htable.distinct, hrounds.done, hcalls.new,
    hcalls.close, hcalls.open_⟩

/-- No connection to accept. -/
def noAccept : Accept := ⟨none, true⟩

/-- Two clients connect; both write, and the second is returned and closed before the first. -/
def sampleActions : List Action :=
  [.wait noAccept [(.returns fun i => i = 0, ⟨some 4, true⟩),
      (.returns fun i => i = 0, ⟨some 5, true⟩), (.returns fun i => 1 ≤ i, noAccept)],
    .closeSock true, .wait noAccept [], .wait noAccept [(.returns fun _ => false, noAccept)]]

theorem poll_table_sampleActions :
    ∃ s, run step (init 3) sampleActions = some s ∧ s.server.outside = false ∧
      s.server.connarray = [3, 4] ∧ s.server.pollarray.map PollFd.fd = [3, 4] ∧
      ∀ r ∈ (rounds s.log).done, r.handled.Perm r.reported ∧ r.reported.Nodup := by
  have hrun : ∃ s, run step (init 3) sampleActions = some s ∧ s.server.connarray = [3, 4] :=
    ⟨_, rfl, rfl⟩
  obtain ⟨s, hs, hconn⟩ := hrun
  obtain ⟨hinside, hsame, -, -, hdone, -⟩ := poll_table 3 sampleActions s hs
  exact ⟨s, hs, hinside, hconn, hsame.trans hconn, hdone⟩

end PopCpp.Combox.Socket
