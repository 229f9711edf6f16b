/-
# The poll table of a Unix-domain server

A `popc_combox_uds` that serves keeps the descriptors it polls at the beginning of an array of
200 entries: first the socket it listens on, then the connections.  `Wait` polls, looks for the
first entry with an event and handles this one: it accepts a connection and adds it behind the
others, or returns a connection with data, or takes one that was hung up out of the table by
moving the last entry into its place.

The table stays what it should be as long as no connection is accepted when all 200 entries
are in use, for which there is only a warning, and no hang-up is reported for the listening
socket, which `Wait` would take out of the table like any other.
-/
import PopCpp.Lib.Transition
import PopCpp.Lib.Slots
import Mathlib.Data.Int.Basic

namespace PopCpp.Combox.Uds

open Transition

/-! ### The table -/

/-- The flags of `revents` that `Wait` looks at. -/
structure Revents where
  pollin : Bool
  pollhup : Bool
deriving DecidableEq, Repr

def Revents.none : Revents := ⟨false, false⟩

/-- A `pollfd`; `events` is `POLLIN` or 0. -/
structure PollFd where
  fd : ℤ
  pollin : Bool
  revents : Revents
deriving DecidableEq, Repr

/-- The length of `active_connection`. -/
def capacity : ℕ := 200

/-- The members of a `popc_combox_uds` that `Wait` uses on a server. -/
structure Server where
  socketFd : ℤ
  activeConnection : ℕ → PollFd
  activeConnectionNb : ℕ
  /-- Something was written outside `active_connection`. -/
  outside : Bool

namespace Server

/-- A server as `Create` leaves it; the array is not initialised. -/
def create (socketFd : ℤ) (garbage : ℕ → PollFd) : Server where
  socketFd := socketFd
  activeConnection := Function.update garbage 0 ⟨socketFd, true, .none⟩
  activeConnectionNb := 1
  outside := false

variable (s : Server)

/-- Assigning to the members of `active_connection[i]`. -/
def store (i : ℕ) (e : PollFd) : Server :=
  if i < capacity then { s with activeConnection := Function.update s.activeConnection i e }
  else { s with outside := true }

/-- `add_fd_to_poll(fd)`. -/
def addFdToPoll (fd : ℤ) : Server :=
  { s.store s.activeConnectionNb ⟨fd, true, .none⟩ with
    activeConnectionNb := s.activeConnectionNb + 1 }

/-- `active_connection[i].revents = 0`. -/
def clear (i : ℕ) : Server := s.store i { s.activeConnection i with revents := .none }

/-- How `Wait` takes entry `i` out of the table. -/
def remove (i : ℕ) : Server :=
  if s.activeConnectionNb = 2 then
    { s.store i ⟨0, false, .none⟩ with activeConnectionNb := 1 }
  else
    { s.store i (s.activeConnection (s.activeConnectionNb - 1)) with
      activeConnectionNb := s.activeConnectionNb - 1 }

/-- `poll` fills in `revents` of the entries in use. -/
def report (revents : ℕ → Revents) : Server :=
  { s with
    activeConnection := fun i =>
      if i < s.activeConnectionNb then { s.activeConnection i with revents := revents i }
      else s.activeConnection i }

end Server

/-- Where `Wait` returns, and for which descriptor. -/
inductive Waited where
  /-- A connection that was just accepted. -/
  | initial (fd : ℤ)
  /-- A connection with data. -/
  | readable (fd : ℤ)
  /-- A connection with data that was hung up. -/
  | disconnected (fd : ℤ)
  /-- A null pointer, after a hang-up. -/
  | hangup (fd : ℤ)
  /-- A null pointer, with nothing done. -/
  | nothing
deriving DecidableEq, Repr

/-- The connection that `Wait` returns, and its `_is_initial_connection`. -/
def Waited.connection : Waited → Option (ℤ × Bool)
  | .initial fd => some (fd, true)
  | .readable fd => some (fd, false)
  | .disconnected fd => some (fd, false)
  | .hangup _ => none
  | .nothing => none

/-- The outcome of `poll`, repeated while it is interrupted. -/
inductive Poll where
  | ready (revents : ℕ → Revents)
  | timeout
  | error

namespace Server

/-- The loop of `Wait` over the `n` entries from `i` on; `accepted` is what `accept` returns,
`none` when it fails. -/
def scan (s : Server) (accepted : Option ℤ) : ℕ → ℕ → Server × Waited
  | 0, _ => (s, .nothing)
  | n + 1, i =>
      let e := s.activeConnection i
      if e.revents.pollin then
        if i = 0 then
          match accepted with
          | none => s.scan accepted n (i + 1)
          | some fd => ((s.addFdToPoll fd).clear i, .initial fd)
        else if e.revents.pollhup then (s.remove i, .disconnected e.fd)
        else (s.clear i, .readable e.fd)
      else if e.revents.pollhup then (s.remove i, .hangup e.fd)
      else s.scan accepted n (i + 1)

/-- `Wait()`. -/
def wait (s : Server) (poll : Poll) (accepted : Option ℤ) : Server × Waited :=
  match poll with
  | .ready revents => (s.report revents).scan accepted s.activeConnectionNb 0
  | .timeout => (s.report fun _ => .none, .nothing)
  | .error => (s, .nothing)

end Server

/-! ### Runs -/

/-- A call of `Wait`: what `poll` and `accept` do in it. -/
structure Call where
  poll : Poll
  accepted : Option ℤ

/-- A server, and the descriptors that it has accepted and not seen hung up. -/
structure State where
  server : Server
  live : Finset ℤ

/-- The accepted descriptors that are not hung up, after this call. -/
def Waited.live : Waited → Finset ℤ → Finset ℤ
  | .initial fd, live => insert fd live
  | .readable _, live => live
  | .disconnected fd, live => live.erase fd
  | .hangup fd, live => live.erase fd
  | .nothing, live => live

/-- `accept` returns no descriptor that is open. -/
def Fresh (s : State) (c : Call) : Prop :=
  ∀ fd ∈ c.accepted, fd ≠ s.server.socketFd ∧ fd ∉ s.live

instance Fresh.instDecidable (s : State) (c : Call) : Decidable (Fresh s c) := by
  unfold Fresh
  infer_instance

/-- One call of `Wait`. -/
def step (s : State) (c : Call) : Option State :=
  if Fresh s c then
    let r := s.server.wait c.poll c.accepted
    some ⟨r.1, r.2.live s.live⟩
  else none

def init (socketFd : ℤ) (garbage : ℕ → PollFd) : State := ⟨.create socketFd garbage, ∅⟩

/-! ### What one call does -/

def Server.table (s : Server) : Slots PollFd := ⟨s.activeConnection, s.activeConnectionNb⟩

/-- The table is what it should be. -/
structure TableOk (s : State) : Prop where
  inside : s.server.outside = false
  room : s.server.activeConnectionNb ≤ capacity
  listening : 0 < s.server.activeConnectionNb ∧
    (s.server.activeConnection 0).fd = s.server.socketFd
  other : s.server.socketFd ∉ s.live
  /-- The entries in use are the listening socket and the accepted descriptors that are not
  hung up, each once. -/
  holds : Slots.Holds PollFd.fd s.server.table (insert s.server.socketFd s.live)

section

variable {s : Server} {live : Finset ℤ} {i : ℕ}

lemma store_of_lt {e : PollFd} (hi : i < capacity) :
    s.store i e = { s with activeConnection := Function.update s.activeConnection i e } :=
  if_pos hi

@[simp] lemma activeConnectionNb_store (e : PollFd) :
    (s.store i e).activeConnectionNb = s.activeConnectionNb := by
  unfold Server.store
  split <;> rfl

@[simp] lemma socketFd_store (e : PollFd) : (s.store i e).socketFd = s.socketFd := by
  unfold Server.store
  split <;> rfl

@[simp] lemma socketFd_remove : (s.remove i).socketFd = s.socketFd := by
  unfold Server.remove
  split <;> exact socketFd_store _

@[simp] lemma socketFd_clear : (s.clear i).socketFd = s.socketFd := socketFd_store _

@[simp] lemma socketFd_addFdToPoll (fd : ℤ) : (s.addFdToPoll fd).socketFd = s.socketFd :=
  socketFd_store _

lemma fd_update_revents (t : ℕ → PollFd) (r : Revents) (i j : ℕ) :
    (Function.update t i { t i with revents := r } j).fd = (t j).fd := by
  by_cases h : j = i
  · subst h
    rw [Function.update_self]
  · rw [Function.update_of_ne h]

/-- What `Wait` does with an entry behind the first one that has an event. -/
def Server.handle (s : Server) (i : ℕ) : Server × Waited :=
  let e := s.activeConnection i
  if e.revents.pollin then
    if e.revents.pollhup then (s.remove i, .disconnected e.fd) else (s.clear i, .readable e.fd)
  else (s.remove i, .hangup e.fd)

/-- Behind the first entry, the loop handles the first one that has an event. -/
lemma scan_cases (s : Server) (accepted : Option ℤ) (n : ℕ) (h0 : 0 < i) :
    (s.scan accepted n i = (s, .nothing) ∧
        ∀ k, i ≤ k → k < i + n → (s.activeConnection k).revents = .none) ∨
      ∃ j, i ≤ j ∧ j < i + n ∧ (∀ k, i ≤ k → k < j → (s.activeConnection k).revents = .none) ∧
        (s.activeConnection j).revents ≠ .none ∧ s.scan accepted n i = s.handle j := by
  induction n generalizing i with
  | zero => exact .inl ⟨rfl, fun j hij hj => absurd hj (by omega)⟩
  | succ n ih =>
      by_cases hevent : (s.activeConnection i).revents = .none
      · -- no event at `i`: the loop goes on
        have hnext : s.scan accepted (n + 1) i = s.scan accepted n (i + 1) := by
          simp [Server.scan, hevent, Revents.none]
        have hnone : ∀ m, (∀ k, i + 1 ≤ k → k < m → (s.activeConnection k).revents = .none) →
            ∀ k, i ≤ k → k < m → (s.activeConnection k).revents = .none := by
          intro m h k hik hk
          rcases hik.eq_or_lt with rfl | hlt
          · exact hevent
          · exact h k hlt hk
        rw [hnext]
        rcases ih (Nat.succ_pos i) with ⟨hscan, hrest⟩ | ⟨j, hij, hj, hrest, hfound⟩
        · exact .inl ⟨hscan, hnone _ fun k hik hk => hrest k hik (by omega)⟩
        · exact .inr ⟨j, by omega, by omega, hnone j hrest, hfound⟩
      · refine .inr ⟨i, le_rfl, by omega, fun k hik hk => absurd hk (by omega), hevent, ?_⟩
        cases hin : (s.activeConnection i).revents.pollin with
        | true => simp [Server.scan, Server.handle, hin, h0.ne']
        | false =>
            have hhup : (s.activeConnection i).revents.pollhup = true := by
              refine Bool.of_not_eq_false fun hhup => hevent ?_
              cases hr : (s.activeConnection i).revents
              simp_all [Revents.none]
            simp [Server.scan, Server.handle, hin, hhup]

namespace TableOk

lemma report (h : TableOk ⟨s, live⟩) (revents : ℕ → Revents) :
    TableOk ⟨s.report revents, live⟩ := by
  have hfd : ∀ j, ((s.report revents).activeConnection j).fd = (s.activeConnection j).fd := by
    intro j
    simp only [Server.report]
    split <;> rfl
  refine ⟨h.inside, h.room, ⟨h.listening.1, ?_⟩, h.other, ?_⟩
  · exact (hfd 0).trans h.listening.2
  · exact h.holds.congr rfl fun j _ => hfd j

lemma clear (h : TableOk ⟨s, live⟩) (hi : i < s.activeConnectionNb) :
    TableOk ⟨s.clear i, live⟩ := by
  have hfd := fd_update_revents s.activeConnection .none i
  rw [Server.clear, store_of_lt (hi.trans_le h.room)]
  refine ⟨h.inside, h.room, ⟨h.listening.1, ?_⟩, h.other, ?_⟩
  · exact (hfd 0).trans h.listening.2
  · exact h.holds.congr rfl fun j _ => hfd j

/-- Accepting a connection when there is room for it. -/
lemma addFdToPoll (h : TableOk ⟨s, live⟩) {fd : ℤ} (hfd : fd ≠ s.socketFd ∧ fd ∉ live)
    (hroom : s.activeConnectionNb < capacity) : TableOk ⟨s.addFdToPoll fd, insert fd live⟩ := by
  have hpush := h.holds.push (x := ⟨fd, true, .none⟩)
    (by rw [Finset.mem_insert, not_or]; exact hfd)
  rw [Server.addFdToPoll, store_of_lt hroom]
  refine ⟨h.inside, hroom, ⟨Nat.succ_pos _, ?_⟩, ?_, ?_⟩
  · show (Function.update s.activeConnection _ _ 0).fd = s.socketFd
    rw [Function.update_of_ne h.listening.1.ne]
    exact h.listening.2
  · rw [Finset.mem_insert, not_or]
    exact ⟨hfd.1.symm, h.other⟩
  · rw [Finset.insert_comm]
    exact hpush

/-- Taking out an entry behind the first one. -/
lemma remove (h : TableOk ⟨s, live⟩) (h0 : 0 < i) (hi : i < s.activeConnectionNb) :
    TableOk ⟨s.remove i, live.erase (s.activeConnection i).fd⟩ := by
  have hcap : i < capacity := hi.trans_le h.room
  have hne : (s.activeConnection i).fd ≠ s.socketFd := by
    rw [← h.listening.2]
    intro heq
    exact h0.ne' (h.holds.once i hi 0 h.listening.1 heq)
  have hother : s.socketFd ∉ live.erase (s.activeConnection i).fd := fun hmem =>
    h.other (Finset.mem_of_mem_erase hmem)
  have hkeys : (insert s.socketFd live).erase (s.activeConnection i).fd =
      insert s.socketFd (live.erase (s.activeConnection i).fd) :=
    Finset.erase_insert_of_ne hne.symm
  have hholds := hkeys ▸ h.holds.removeAt hi
  have hfirst : ∀ e, (Function.update s.activeConnection i e 0).fd = s.socketFd := by
    intro e
    rw [Function.update_of_ne h0.ne]
    exact h.listening.2
  unfold Server.remove
  split
  · next htwo =>
      -- the entry is the last one, and what is written over it is not in use
      rw [store_of_lt hcap]
      refine ⟨h.inside, by show (1 : ℕ) ≤ capacity; decide, ⟨Nat.one_pos, hfirst _⟩, hother, ?_⟩
      refine hholds.congr ?_ fun j hj => ?_
      · show 1 = s.activeConnectionNb - 1
        omega
      · have hj1 : j < s.activeConnectionNb - 1 := hj
        have hji : j ≠ i := by omega
        show (Function.update s.activeConnection i _ j).fd =
          (Function.update s.activeConnection i _ j).fd
        rw [Function.update_of_ne hji, Function.update_of_ne hji]
  · next htwo =>
      rw [store_of_lt hcap]
      have hroom := h.room
      refine ⟨h.inside, ?_, ⟨?_, hfirst _⟩, hother, hholds⟩
      · show s.activeConnectionNb - 1 ≤ capacity
        exact (Nat.sub_le _ _).trans hroom
      · show 0 < s.activeConnectionNb - 1
        omega

lemma handle (h : TableOk ⟨s, live⟩) (h0 : 0 < i) (hi : i < s.activeConnectionNb) :
    TableOk ⟨(s.handle i).1, (s.handle i).2.live live⟩ := by
  unfold Server.handle
  dsimp only
  split_ifs
  · exact h.remove h0 hi
  · exact h.clear hi
  · exact h.remove h0 hi

/-- Whatever the loop does from the second entry on. -/
lemma scan (h : TableOk ⟨s, live⟩) (accepted : Option ℤ) {n : ℕ} (h0 : 0 < i)
    (hn : i + n ≤ s.activeConnectionNb) :
    TableOk ⟨(s.scan accepted n i).1, (s.scan accepted n i).2.live live⟩ := by
  rcases scan_cases s accepted n h0 with ⟨hscan, -⟩ | ⟨j, hij, hj, -, -, hscan⟩
  · rw [hscan]
    exact h
  · rw [hscan]
    exact h.handle (h0.trans_le hij) (by omega)

end TableOk

/-! ### When the table survives -/

/-- A call of `Wait` that accepts a connection has an entry left for it, and no hang-up alone
is reported for the listening socket. -/
def Orderly (s : State) (c : Call) : Prop :=
  match c.poll with
  | .ready revents =>
      if (revents 0).pollin then
        c.accepted ≠ none → s.server.activeConnectionNb < capacity
      else (revents 0).pollhup = false
  | .timeout => True
  | .error => True

/-- With all entries in use, the connection is written behind the array. -/
lemma outside_addFdToPoll (fd : ℤ) (hfull : ¬s.activeConnectionNb < capacity) :
    ((s.addFdToPoll fd).clear 0).outside = true := by
  have hadd : (s.addFdToPoll fd).outside = true := by
    rw [Server.addFdToPoll, Server.store, if_neg hfull]
  rw [Server.clear, store_of_lt (by decide)]
  exact hadd

/-- A hang-up of the listening socket takes it out of the table. -/
lemma TableOk.not_remove_zero (h : TableOk ⟨s, live⟩) :
    ¬TableOk ⟨s.remove 0, live.erase s.socketFd⟩ := by
  intro hafter
  have hpos := h.listening.1
  have hlistening := hafter.listening
  rw [Finset.erase_eq_of_notMem h.other] at hafter
  unfold Server.remove at hafter hlistening
  split at hafter
  · next htwo =>
      -- the one connection is forgotten together with the listening socket
      have hconn : (s.activeConnection 1).fd ∈ insert s.socketFd live :=
        h.holds.mem (show 1 < s.activeConnectionNb by omega)
      have hne : (s.activeConnection 1).fd ≠ s.socketFd := by
        rw [← h.listening.2]
        intro heq
        have hone : 1 < s.activeConnectionNb := by omega
        exact absurd (h.holds.once 1 hone 0 hpos heq) (by decide)
      rw [store_of_lt (by decide)] at hafter
      obtain ⟨i, hi, hfd⟩ := (hafter.holds.mem_iff _).mp hconn
      obtain rfl : i = 0 := Nat.lt_one_iff.mp hi
      exact hne (hfd.symm.trans hafter.listening.2)
  · next htwo =>
      rw [if_neg htwo, store_of_lt (by decide)] at hlistening
      have hremoved := h.holds.removeAt hpos
      have hmem := hremoved.mem (show 0 < (s.table.removeAt 0).count from hlistening.1)
      have hfirst : ((s.table.removeAt 0).cells 0).fd = s.socketFd := hlistening.2
      rw [hfirst] at hmem
      exact absurd h.listening.2.symm (Finset.ne_of_mem_erase hmem)

end

@[simp] lemma socketFd_report (s : Server) (revents : ℕ → Revents) :
    (s.report revents).socketFd = s.socketFd := rfl

@[simp] lemma activeConnectionNb_report (s : Server) (revents : ℕ → Revents) :
    (s.report revents).activeConnectionNb = s.activeConnectionNb := rfl

@[simp] lemma fd_report (s : Server) (revents : ℕ → Revents) (i : ℕ) :
    ((s.report revents).activeConnection i).fd = (s.activeConnection i).fd := by
  simp only [Server.report]
  split <;> rfl

lemma report_revents {s : Server} {i : ℕ} (hi : i < s.activeConnectionNb)
    (revents : ℕ → Revents) :
    ((s.report revents).activeConnection i).revents = revents i := by
  simp only [Server.report, if_pos hi]

/-- A pending connection is accepted before anything else. -/
lemma wait_ready_accept {s : Server} {revents : ℕ → Revents} (hpos : 0 < s.activeConnectionNb)
    (hin : (revents 0).pollin = true) (fd : ℤ) :
    s.wait (.ready revents) (some fd) =
      (((s.report revents).addFdToPoll fd).clear 0, .initial fd) := by
  obtain ⟨n, hn⟩ := Nat.exists_eq_succ_of_ne_zero hpos.ne'
  have hzero := report_revents hpos revents
  simp only [Server.wait, hn, Nat.succ_eq_add_one, Server.scan, hzero, hin, if_true]

/-- When no connection is accepted, `Wait` handles the first connection that has an event. -/
lemma wait_ready_scan {s : Server} {revents : ℕ → Revents} {accepted : Option ℤ}
    (hpos : 0 < s.activeConnectionNb)
    (hhup : (revents 0).pollin = false → (revents 0).pollhup = false)
    (hin : (revents 0).pollin = true → accepted = none) :
    s.wait (.ready revents) accepted =
      (s.report revents).scan accepted (s.activeConnectionNb - 1) 1 := by
  obtain ⟨n, hn⟩ := Nat.exists_eq_succ_of_ne_zero hpos.ne'
  have hzero := report_revents hpos revents
  rw [hn, Nat.succ_sub_one]
  simp only [Server.wait, hn, Nat.succ_eq_add_one, Server.scan, hzero]
  cases hbit : (revents 0).pollin with
  | true => simp [hin hbit]
  | false => simp [hhup hbit]

lemma outside_store {s : Server} (h : s.outside = true) (i : ℕ) (e : PollFd) :
    (s.store i e).outside = true := by
  unfold Server.store
  split
  · exact h
  · rfl

/-- What was written outside the array stays written. -/
lemma outside_scan {s : Server} (h : s.outside = true) (accepted : Option ℤ) (n i : ℕ) :
    (s.scan accepted n i).1.outside = true := by
  have hremove : ∀ i, (s.remove i).outside = true := by
    intro i
    unfold Server.remove
    split <;> exact outside_store h _ _
  induction n generalizing i with
  | zero => exact h
  | succ n ih =>
      unfold Server.scan
      dsimp only
      split_ifs
      · cases accepted with
        | none => exact ih _
        | some fd =>
            have hadd : (s.addFdToPoll fd).outside = true := outside_store h _ _
            exact outside_store hadd _ _
      · exact hremove i
      · exact outside_store h _ _
      · exact hremove i
      · exact ih _

lemma outside_wait {s : Server} (h : s.outside = true) (poll : Poll) (accepted : Option ℤ) :
    (s.wait poll accepted).1.outside = true := by
  cases poll with
  | ready revents => exact outside_scan (s := s.report revents) h _ _ _
  | timeout => exact h
  | error => exact h

/-- **One call of `Wait`.**  It keeps the table exactly when it is orderly. -/
theorem tableOk_step_iff (s : State) (c : Call) (t : State) (h : TableOk s)
    (hst : step s c = some t) : TableOk t ↔ Orderly s c := by
  obtain ⟨server, live⟩ := s
  obtain ⟨poll, accepted⟩ := c
  have hfresh : Fresh ⟨server, live⟩ ⟨poll, accepted⟩ := by
    by_contra hfresh
    rw [step, if_neg hfresh] at hst
    cases hst
  rw [step, if_pos hfresh] at hst
  obtain rfl := Option.some.inj hst
  cases poll with
  | timeout => exact iff_of_true (h.report _) trivial
  | error => exact iff_of_true h trivial
  | ready revents =>
      have hreport := h.report revents
      have hpos : 0 < server.activeConnectionNb := h.listening.1
      have hloop := hreport.scan accepted Nat.one_pos
        (show 1 + (server.activeConnectionNb - 1) ≤ server.activeConnectionNb by omega)
      simp only [Orderly]
      cases hin : (revents 0).pollin with
      | true =>
          rw [if_pos rfl]
          -- the listening socket is readable: `accept`, and the new entry if the table has room
          cases accepted with
          | none =>
              rw [wait_ready_scan hpos (by simp [hin]) fun _ => rfl]
              exact iff_of_true hloop fun hne => absurd rfl hne
          | some fd =>
              rw [wait_ready_accept hpos hin]
              by_cases hroom : server.activeConnectionNb < capacity
              · refine iff_of_true ?_ fun _ => hroom
                have hadd := hreport.addFdToPoll (hfresh fd rfl) hroom
                exact hadd.clear hadd.listening.1
              · refine iff_of_false (fun hok => ?_) fun h => hroom (h (Option.some_ne_none fd))
                have := outside_addFdToPoll (s := server.report revents) fd hroom
                exact absurd (hok.inside.symm.trans this) (by decide)
      | false =>
          rw [if_neg Bool.false_ne_true]
          cases hhup : (revents 0).pollhup with
          | true =>
              -- it has hung up: `Wait` removes entry 0, the listening socket itself
              have hnot := hreport.not_remove_zero
              rw [← hreport.listening.2] at hnot
              refine iff_of_false ?_ (by decide)
              obtain ⟨n, hn⟩ := Nat.exists_eq_succ_of_ne_zero hpos.ne'
              have hzero := report_revents hpos revents
              simp only [Server.wait, hn, Nat.succ_eq_add_one, Server.scan, hzero, hin, hhup,
                Bool.false_eq_true, if_false, if_true]
              exact hnot
          | false =>
              rw [wait_ready_scan hpos (fun _ => hhup) (by simp [hin])]
              exact iff_of_true hloop rfl

lemma tableOk_init (socketFd : ℤ) (garbage : ℕ → PollFd) :
    TableOk (init socketFd garbage) where
  inside := rfl
  room := by show 1 ≤ capacity; decide
  listening := ⟨Nat.one_pos, by simp [init, Server.create]⟩
  other := Finset.notMem_empty _
  holds := by
    have hfirst : ((Server.create socketFd garbage).activeConnection 0).fd = socketFd := by
      simp [Server.create]
    refine ⟨fun i hi j hj _ => ?_, fun k => ?_⟩
    · have hi1 : i < 1 := hi
      have hj1 : j < 1 := hj
      omega
    · show k ∈ insert socketFd ∅ ↔ ∃ i < 1, _
      simp [Server.table, init, hfirst, eq_comm]

/-- **The poll table.**  Whatever `poll` reports and `accept` returns in a run of `Wait`s, the
table is what it should be after each of them exactly when each accepts a connection only while
an entry is left and none is told that the listening socket was hung up. -/
theorem table_ok_iff (socketFd : ℤ) (garbage : ℕ → PollFd) (cs : List Call) (u : State)
    (hrun : run step (init socketFd garbage) cs = some u) :
    (∀ ds t, ds <+: cs → run step (init socketFd garbage) ds = some t → TableOk t) ↔
      Along step Orderly (init socketFd garbage) cs :=
  forall_prefix_iff_along (fun s c t h hst => tableOk_step_iff s c t h hst)
    (tableOk_init socketFd garbage) hrun

/-- A client connects and gets this descriptor. -/
def connects (fd : ℤ) : Call := ⟨.ready fun i => ⟨i = 0, false⟩, some fd⟩

/-- One client connects, writes, and closes its end. -/
def sampleCalls : List Call :=
  [connects 4, ⟨.ready fun i => ⟨i = 1, false⟩, none⟩, ⟨.ready fun i => ⟨i = 1, i = 1⟩, none⟩]

/-- An array of zeros. -/
def zeros : ℕ → PollFd := fun _ => ⟨0, false, .none⟩

theorem table_ok_iff_sampleCalls :
    (∀ ds t, ds <+: sampleCalls → run step (init 3 zeros) ds = some t → TableOk t) ∧
      Along step Orderly (init 3 zeros) sampleCalls := by
  have hrun : ∃ u, run step (init 3 zeros) sampleCalls = some u := ⟨_, rfl⟩
  obtain ⟨u, hu⟩ := hrun
  have halong : Along step Orderly (init 3 zeros) sampleCalls := by
    refine ⟨fun _ => by decide, fun s hs => ⟨rfl, fun t ht => ⟨rfl, fun _ _ => trivial⟩⟩⟩
  exact ⟨(table_ok_iff 3 zeros sampleCalls u hu).mpr halong, halong⟩

/-- Clients with the descriptors from 4 on connect, one after the other. -/
def clients (n : ℕ) : List Call := (List.range n).map fun i : ℕ => connects (4 + i)

lemma step_connects {s : State} (fd : ℤ) (h : 0 < s.server.activeConnectionNb)
    (hfd : fd ≠ s.server.socketFd ∧ fd ∉ s.live) :
    step s (connects fd) =
      some ⟨((s.server.report fun i => ⟨i = 0, false⟩).addFdToPoll fd).clear 0,
        insert fd s.live⟩ := by
  have hfresh : Fresh s (connects fd) := by
    rintro d ⟨⟩
    exact hfd
  have hwait : s.server.wait (.ready fun i => ⟨i = 0, false⟩) (some fd) = _ :=
    wait_ready_accept h rfl fd
  rw [step, if_pos hfresh]
  simp only [connects, hwait]
  rfl

lemma run_clients_succ {n : ℕ} {s t : State}
    (hrun : run step (init 3 zeros) (clients n) = some s)
    (hst : step s (connects (4 + n)) = some t) :
    run step (init 3 zeros) (clients (n + 1)) = some t := by
  rw [clients, List.range_succ, List.map_append]
  exact run_concat hrun hst

lemma run_clients {n : ℕ} (hn : n < capacity) :
    ∃ s, run step (init 3 zeros) (clients n) = some s ∧ TableOk s ∧ s.server.socketFd = 3 ∧
      s.server.activeConnectionNb = n + 1 ∧ ∀ fd ∈ s.live, fd < 4 + n := by
  induction n with
  | zero =>
      refine ⟨_, rfl, tableOk_init 3 zeros, rfl, rfl, fun fd hfd => ?_⟩
      exact absurd hfd (Finset.notMem_empty fd)
  | succ n ih =>
      obtain ⟨s, hrun, hok, hsocket, hnb, hlive⟩ := ih (by omega)
      have hfd : (4 + n : ℤ) ≠ s.server.socketFd ∧ (4 + n : ℤ) ∉ s.live :=
        ⟨by omega, fun h => absurd (hlive _ h) (lt_irrefl _)⟩
      have hpos : 0 < s.server.activeConnectionNb := by omega
      have hstep := step_connects (4 + n : ℤ) hpos hfd
      refine ⟨_, run_clients_succ hrun hstep, ?_, ?_, ?_, ?_⟩
      · refine (tableOk_step_iff _ _ _ hok hstep).mpr fun _ => ?_
        omega
      · simpa [Server.clear, Server.addFdToPoll] using hsocket
      · simpa [Server.clear, Server.addFdToPoll] using hnb
      · intro fd hmem
        rcases Finset.mem_insert.mp hmem with rfl | hmem
        · push_cast
          omega
        · have := hlive fd hmem
          push_cast
          omega

/-- The 200th client that is connected at the same time is written behind the array. -/
theorem clients_outside :
    ∃ s, run step (init 3 zeros) (clients 200) = some s ∧ s.server.outside = true ∧ ¬TableOk s := by
  obtain ⟨s, hrun, hok, hsocket, hnb, hlive⟩ := run_clients (show 199 < capacity by decide)
  have hfd : (4 + (199 : ℕ) : ℤ) ≠ s.server.socketFd ∧ (4 + (199 : ℕ) : ℤ) ∉ s.live :=
    ⟨by omega, fun h => absurd (hlive _ h) (lt_irrefl _)⟩
  have hstep := step_connects (4 + (199 : ℕ) : ℤ) (by omega) hfd
  have hfull : ¬s.server.activeConnectionNb < capacity := by
    rw [hnb]
    decide
  have houtside := outside_addFdToPoll (s := s.server.report fun i => ⟨i = 0, false⟩)
    (4 + (199 : ℕ)) hfull
  refine ⟨_, run_clients_succ hrun hstep, houtside, fun hok' => ?_⟩
  exact absurd (hok'.inside.symm.trans houtside) (by decide)

end PopCpp.Combox.Uds
