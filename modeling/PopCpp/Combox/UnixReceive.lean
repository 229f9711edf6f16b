/-
# Receiving over Unix-domain sockets

The receive thread of a broker calls `ReceiveRequest` again and again.  Each round of its loop
calls `Wait` and, unless a connection was just accepted, reads one message from the connection
that `Wait` returns.  Clients connect, write messages and close their end meanwhile.

`Wait` takes a connection out of the table as soon as it finds it hung up, although only one
message is read then: messages that a client had written before it closed its end and that were
not read yet are lost, all but the first.  As long as that does not happen, and the table does
not overflow, every message is returned once and in order.
-/
import PopCpp.Combox.Send
import PopCpp.Combox.UnixTable
import Mathlib.Algebra.Order.BigOperators.Group.Finset

namespace PopCpp.Combox.Uds

open Channel Transition Buffer

/-! ### Clients -/

/-- One end of a connection, seen from the server. -/
structure Peer where
  /-- The messages that the client has written, and those that were returned. -/
  written : List PopBuffer
  received : List Message
  /-- The bytes on their way. -/
  stream : Conn UInt8
  /-- The client has closed its end. -/
  closed : Bool

namespace Peer

def init (pieces : ℕ → ℕ) : Peer := ⟨[], [], ⟨[], pieces⟩, false⟩

/-- The messages that are still to be read. -/
def unread (p : Peer) : List PopBuffer := p.written.drop p.received.length

section

variable (F : Format)

def write (p : Peer) (b : PopBuffer) : Peer :=
  { p with written := p.written ++ [b], stream := p.stream.send (frame F b) }

/-- `req.data->Recv(conn)`; `data` is the buffer that the factory has made. -/
def recv (data : PopBuffer) (p : Peer) : Peer :=
  match Buffer.recv F p.stream data with
  | .ok (true, c) b => { p with stream := c, received := p.received ++ [b.message] }
  | .ok (false, c) _ => { p with stream := c }
  | .throws _ _ => p
  | .undefined => p

end

end Peer

/-! ### Server and clients together -/

/-- A connection is named by the descriptor that `accept` returns for it. -/
structure World where
  server : Server
  /-- Accepted and not seen hung up. -/
  live : Finset ℤ
  /-- Not accepted yet. -/
  backlog : List ℤ
  /-- All that ever connected. -/
  known : Finset ℤ
  peers : ℤ → Peer

inductive Action where
  | connect (d : ℤ)
  | write (d : ℤ) (b : PopBuffer) (h : Sendable b)
  | close (d : ℤ)
  /-- A round of the loop of `ReceiveRequest`: where `poll` reports the end of a stream as
  `POLLIN`, and whether `accept` succeeds. -/
  | receive (eof : ℤ → Bool) (accepts : Bool)

namespace World

section

variable (w : World)

/-- The descriptor of entry `i`. -/
def fd (i : ℕ) : ℤ := (w.server.activeConnection i).fd

/-- What `poll` reports for entry `i`. -/
def revents (eof : ℤ → Bool) (i : ℕ) : Revents :=
  if i = 0 then ⟨w.backlog ≠ [], false⟩
  else
    let p := w.peers (w.fd i)
    ⟨p.stream.pending ≠ [] ∨ p.closed = true ∧ eof (w.fd i) = true, p.closed⟩

/-- `poll` has nothing to report. -/
def Quiet : Prop := ∀ i < w.server.activeConnectionNb, w.revents (fun _ => false) i = .none

instance Quiet.instDecidable : Decidable w.Quiet := by
  unfold Quiet
  infer_instance

end

section

variable (F : Format) (data : PopBuffer) (w : World)

/-- A round of the loop of `ReceiveRequest`. -/
def receive (eof : ℤ → Bool) (accepts : Bool) : World :=
  let accepted := if accepts then w.backlog.head? else none
  let r := w.server.wait (.ready (w.revents eof)) accepted
  let w := { w with server := r.1, live := r.2.live w.live }
  match r.2.connection with
  | none => w
  | some (_, true) => { w with backlog := w.backlog.tail }
  | some (d, false) => { w with peers := Function.update w.peers d ((w.peers d).recv F data) }

def step : Action → Option World
  | .connect d =>
      if d ≠ w.server.socketFd ∧ d ∉ w.known then
        some { w with backlog := w.backlog ++ [d], known := insert d w.known }
      else none
  | .write d b _ =>
      if d ∈ w.known ∧ (w.peers d).closed = false then
        some { w with peers := Function.update w.peers d ((w.peers d).write F b) }
      else none
  | .close d =>
      if d ∈ w.known ∧ (w.peers d).closed = false then
        some { w with peers := Function.update w.peers d { w.peers d with closed := true } }
      else none
  | .receive eof accepts => if w.Quiet then none else some (w.receive F data eof accepts)

end

/-- A server before the first client. -/
def init (socketFd : ℤ) (garbage : ℕ → PollFd) (pieces : ℤ → ℕ → ℕ) : World :=
  ⟨.create socketFd garbage, ∅, [], ∅, fun d => .init (pieces d)⟩

end World

/-! ### One connection -/

section

variable {F : Format} {p : Peer}

/-- The bytes on their way are the messages that are still to be read. -/
structure PeerOk (F : Format) (p : Peer) : Prop where
  sendable : ∀ b ∈ p.written, Sendable b
  received : p.received = (p.written.take p.received.length).map PopBuffer.message
  queued : Queued F p.stream p.unread

namespace PeerOk

lemma init (pieces : ℕ → ℕ) : PeerOk F (.init pieces) := ⟨by simp [Peer.init], rfl, rfl⟩

lemma length_received_le (h : PeerOk F p) : p.received.length ≤ p.written.length := by
  have hlen := congrArg List.length h.received
  rw [List.length_map, List.length_take] at hlen
  omega

lemma sendable_unread (h : PeerOk F p) : ∀ b ∈ p.unread, Sendable b := fun b hb =>
  h.sendable b (List.mem_of_mem_drop hb)

lemma pending_eq_nil_iff (hF : F.Frames) (h : PeerOk F p) :
    p.stream.pending = [] ↔ p.unread = [] := by
  rw [h.queued, List.flatMap_eq_nil_iff]
  constructor
  · intro hnil
    refine List.eq_nil_iff_forall_not_mem.mpr fun b hb => ?_
    have hsend := h.sendable_unread b hb
    have hlen := length_frame hF hsend.type hsend.header
    rw [hnil b hb, List.length_nil] at hlen
    have := hsend.header
    omega
  · intro hnil b hb
    simp [hnil] at hb

/-- Everything was returned exactly when nothing is left to read. -/
lemma received_eq_iff (h : PeerOk F p) :
    p.received = p.written.map PopBuffer.message ↔ p.unread = [] := by
  rw [Peer.unread, List.drop_eq_nil_iff]
  constructor
  · intro heq
    rw [heq, List.length_map]
  · intro hle
    rw [h.received, List.take_of_length_le hle]

lemma unread_write (h : PeerOk F p) (b : PopBuffer) :
    (p.write F b).unread = p.unread ++ [b] :=
  List.drop_append_of_le_length h.length_received_le

lemma write (h : PeerOk F p) {b : PopBuffer} (hb : Sendable b) : PeerOk F (p.write F b) where
  sendable b' hb' := by
    rcases List.mem_append.mp hb' with hmem | hmem
    · exact h.sendable b' hmem
    · rwa [List.mem_singleton.mp hmem]
  received := by
    show p.received = ((p.written ++ [b]).take p.received.length).map PopBuffer.message
    rw [List.take_append_of_le_length h.length_received_le]
    exact h.received
  queued := by
    rw [h.unread_write b, Queued, Peer.write, Conn.send, h.queued, List.flatMap_append,
      List.flatMap_singleton]

lemma close (h : PeerOk F p) : PeerOk F { p with closed := true } :=
  ⟨h.sendable, h.received, h.queued⟩

end PeerOk

/-- At the end of a stream there is no message. -/
lemma recv_eq_of_pending_nil (data : PopBuffer) {c : Conn UInt8} (hc : c.pending = []) :
    ∃ pieces, Buffer.recv F c data = .ok (false, ⟨[], pieces⟩) data := by
  have hrecv : c.recv 20 = ([], ⟨[], fun i => c.pieces (i + 1)⟩) := by
    rw [Conn.recv, hc, List.take_nil, List.drop_nil]
  have hloop : c.recvLoop 20 = ⟨[], false, ⟨[], fun i => c.pieces (i + 1)⟩⟩ := by
    rw [Conn.recvLoop, if_neg (by decide)]
    simp only [hrecv, List.length_nil, if_true]
  refine ⟨fun i => c.pieces (i + 1), ?_⟩
  rw [Buffer.recv]
  simp only [hloop, if_true]
  rfl

/-- **Reading.**  `Recv` returns the first message that is still to be read, if there is one. -/
theorem PeerOk.recv (hF : F.Frames) (h : PeerOk F p) (data : PopBuffer) :
    PeerOk F (p.recv F data) ∧ (p.recv F data).written = p.written ∧
      (p.recv F data).closed = p.closed ∧ (p.recv F data).unread = p.unread.tail := by
  cases hunread : p.unread with
  | nil =>
      have hpending := (h.pending_eq_nil_iff hF).mpr hunread
      obtain ⟨pieces, hrecv⟩ := recv_eq_of_pending_nil (F := F) data hpending
      have heq : p.recv F data = { p with stream := ⟨[], pieces⟩ } := by
        rw [Peer.recv, hrecv]
      rw [heq]
      refine ⟨⟨h.sendable, h.received, ?_⟩, rfl, rfl, hunread⟩
      show Queued F _ p.unread
      rw [hunread]
      rfl
  | cons b rest =>
      have hb : Sendable b := h.sendable_unread b (by simp [hunread])
      have hqueued := h.queued
      rw [hunread] at hqueued
      obtain ⟨data', c, hrecv, hmessage, -, hrest⟩ := hqueued.recv hF hb data
      have heq : p.recv F data =
          { p with stream := c, received := p.received ++ [b.message] } := by
        rw [← hmessage, Peer.recv, hrecv]
      have hdrop : p.written.drop p.received.length = b :: rest := hunread
      have hnext : (p.recv F data).unread = rest := by
        rw [heq]
        show p.written.drop (p.received ++ [b.message]).length = rest
        rw [List.length_append, List.length_singleton, ← List.drop_drop, hdrop,
          List.drop_succ_cons, List.drop_zero]
      refine ⟨⟨?_, ?_, ?_⟩, ?_, ?_, hnext⟩
      · rw [heq]
        exact h.sendable
      · rw [heq]
        show p.received ++ [b.message] =
          (p.written.take (p.received ++ [b.message]).length).map PopBuffer.message
        rw [List.length_append, List.length_singleton, List.take_add, hdrop, List.map_append,
          ← h.received]
        rfl
      · rw [hnext, heq]
        exact hrest
      · rw [heq]
      · rw [heq]

end

/-! ### What every run keeps -/

namespace World

/-- A connection is to be accepted, and all entries of the table are in use. -/
def Overflows (w : World) (accepts : Bool) : Prop :=
  accepts = true ∧ w.backlog ≠ [] ∧ capacity ≤ w.server.activeConnectionNb

/-- No connection is accepted, and the first connection for which `poll` has an event was
closed with more than one message to be read. -/
def Loses (w : World) (eof : ℤ → Bool) (accepts : Bool) : Prop :=
  (accepts = true → w.backlog = []) ∧
    ∃ j < w.server.activeConnectionNb, 0 < j ∧
      (∀ k < j, 0 < k → w.revents eof k = .none) ∧
      (w.peers (w.fd j)).closed = true ∧ 2 ≤ (w.peers (w.fd j)).unread.length

/-- Neither happens. -/
def Orderly (w : World) : Action → Prop
  | .receive eof accepts => ¬w.Overflows accepts ∧ ¬w.Loses eof accepts
  | .connect _ => True
  | .write _ _ _ => True
  | .close _ => True

instance Orderly.instDecidable (w : World) (a : Action) : Decidable (w.Orderly a) := by
  unfold Orderly Overflows Loses
  cases a <;> infer_instance

/-- Messages are left of a connection that nobody will read from. -/
def Lost (w : World) : Prop :=
  ∃ d ∈ w.known, d ∉ w.live ∧ d ∉ w.backlog ∧ (w.peers d).unread ≠ []

/-- What holds as long as the table does not overflow. -/
structure Ok (F : Format) (w : World) : Prop where
  table : TableOk ⟨w.server, w.live⟩
  socket : w.server.socketFd ∉ w.known
  live : ∀ d ∈ w.live, d ∈ w.known
  backlog : ∀ d ∈ w.backlog, d ∈ w.known ∧ d ∉ w.live
  nodup : w.backlog.Nodup
  peers : ∀ d, PeerOk F (w.peers d)
  unknown : ∀ d ∉ w.known, (w.peers d).written = []
  gone : ∀ d ∈ w.known, d ∉ w.live → d ∉ w.backlog → (w.peers d).closed = true

variable {F : Format} {w : World}

lemma ok_init (socketFd : ℤ) (garbage : ℕ → PollFd) (pieces : ℤ → ℕ → ℕ) :
    Ok F (init socketFd garbage pieces) where
  table := tableOk_init socketFd garbage
  socket := Finset.notMem_empty _
  live _ hd := absurd hd (Finset.notMem_empty _)
  backlog _ hd := absurd hd List.not_mem_nil
  nodup := List.nodup_nil
  peers _ := .init _
  unknown _ _ := rfl
  gone _ hd := absurd hd (Finset.notMem_empty _)

lemma not_lost_init (socketFd : ℤ) (garbage : ℕ → PollFd) (pieces : ℤ → ℕ → ℕ) :
    ¬Lost (init socketFd garbage pieces) := by
  rintro ⟨d, hd, -⟩
  exact absurd hd (Finset.notMem_empty d)

/-- Entries behind the first one are connections. -/
lemma Ok.fd_mem_live (h : Ok F w) {j : ℕ} (h0 : 0 < j) (hj : j < w.server.activeConnectionNb) :
    w.fd j ∈ w.live := by
  have hmem := h.table.holds.mem (show j < w.server.table.count from hj)
  refine Finset.mem_of_mem_insert_of_ne hmem ?_
  rw [← h.table.listening.2]
  intro heq
  exact h0.ne' (h.table.holds.once j hj 0 h.table.listening.1 heq)

/-! ### The clients' steps -/

lemma Ok.connect (h : Ok F w) {d : ℤ} (hd : d ≠ w.server.socketFd ∧ d ∉ w.known) :
    Ok F { w with backlog := w.backlog ++ [d], known := insert d w.known } where
  table := h.table
  socket := by
    rw [Finset.mem_insert, not_or]
    exact ⟨hd.1.symm, h.socket⟩
  live e he := Finset.mem_insert_of_mem (h.live e he)
  backlog e he := by
    rcases List.mem_append.mp he with he | he
    · exact ⟨Finset.mem_insert_of_mem (h.backlog e he).1, (h.backlog e he).2⟩
    · obtain rfl := List.mem_singleton.mp he
      exact ⟨Finset.mem_insert_self _ _, fun hlive => hd.2 (h.live _ hlive)⟩
  nodup := by
    refine List.nodup_append.mpr ⟨h.nodup, List.nodup_singleton d, ?_⟩
    rintro e he _ hd' rfl
    obtain rfl := List.mem_singleton.mp hd'
    exact hd.2 (h.backlog _ he).1
  peers := h.peers
  unknown e he := h.unknown e fun hmem => he (Finset.mem_insert_of_mem hmem)
  gone e he hlive hbacklog := by
    rw [List.mem_append, not_or, List.mem_singleton] at hbacklog
    exact h.gone e (Finset.mem_of_mem_insert_of_ne he hbacklog.2) hlive hbacklog.1

/-- Nothing but the stream of a client that is known changes. -/
lemma Ok.update (h : Ok F w) {d : ℤ} (hd : d ∈ w.known) {p : Peer} (hp : PeerOk F p)
    (hclosed : (w.peers d).closed = true → p.closed = true) :
    Ok F { w with peers := Function.update w.peers d p } := by
  refine ⟨h.table, h.socket, h.live, h.backlog, h.nodup, fun e => ?_, fun e he => ?_,
    fun e he hlive hbacklog => ?_⟩
  · show PeerOk F (Function.update w.peers d p e)
    by_cases hed : e = d
    · subst hed
      rwa [Function.update_self]
    · rw [Function.update_of_ne hed]
      exact h.peers e
  · have hne : e ≠ d := by
      rintro rfl
      exact he hd
    show (Function.update w.peers d p e).written = []
    rw [Function.update_of_ne hne]
    exact h.unknown e he
  · have hgone := h.gone e he hlive hbacklog
    show (Function.update w.peers d p e).closed = true
    by_cases hed : e = d
    · subst hed
      rw [Function.update_self]
      exact hclosed hgone
    · rwa [Function.update_of_ne hed]

/-! ### A round of `ReceiveRequest` -/

section

variable (F) (data : PopBuffer) (w)

/-- A connection was accepted. -/
def accepted (eof : ℤ → Bool) (d : ℤ) (rest : List ℤ) : World :=
  { w with
    server := ((w.server.report (w.revents eof)).addFdToPoll d).clear 0
    live := insert d w.live
    backlog := rest }

/-- The event of entry `j` was handled. -/
def handled (eof : ℤ → Bool) (j : ℕ) : World :=
  { w with
    server := ((w.server.report (w.revents eof)).handle j).1
    live := if (w.peers (w.fd j)).closed then w.live.erase (w.fd j) else w.live
    peers :=
      if (w.revents eof j).pollin then
        Function.update w.peers (w.fd j) ((w.peers (w.fd j)).recv F data)
      else w.peers }

variable {F w}

lemma revents_eq (eof : ℤ → Bool) {j : ℕ} (h0 : 0 < j) :
    w.revents eof j =
      ⟨(w.peers (w.fd j)).stream.pending ≠ [] ∨
        (w.peers (w.fd j)).closed = true ∧ eof (w.fd j) = true, (w.peers (w.fd j)).closed⟩ := by
  rw [revents, if_neg h0.ne']

/-- What is done with an event behind the first entry. -/
lemma handle_report (eof : ℤ → Bool) {j : ℕ} (h0 : 0 < j) (hj : j < w.server.activeConnectionNb) :
    (w.server.report (w.revents eof)).handle j =
      if (w.revents eof j).pollin then
        if (w.peers (w.fd j)).closed then
          ((w.server.report (w.revents eof)).remove j, .disconnected (w.fd j))
        else ((w.server.report (w.revents eof)).clear j, .readable (w.fd j))
      else ((w.server.report (w.revents eof)).remove j, .hangup (w.fd j)) := by
  have hhup : (w.revents eof j).pollhup = (w.peers (w.fd j)).closed := by
    rw [revents_eq eof h0]
  unfold Server.handle
  dsimp only
  rw [report_revents hj, fd_report, hhup]
  rfl

/-- **A round of the loop.**  It accepts a connection, or handles the first event of another
entry, or does nothing. -/
theorem receive_cases (h : Ok F w) (eof : ℤ → Bool) (accepts : Bool) :
    (∃ d rest, accepts = true ∧ w.backlog = d :: rest ∧
        w.receive F data eof accepts = w.accepted eof d rest) ∨
      (accepts = true → w.backlog = []) ∧
        ((∀ k, 1 ≤ k → k < w.server.activeConnectionNb → w.revents eof k = .none) ∧
            w.receive F data eof accepts =
              { w with server := w.server.report (w.revents eof) } ∨
          ∃ j, 0 < j ∧ j < w.server.activeConnectionNb ∧
            (∀ k, 1 ≤ k → k < j → w.revents eof k = .none) ∧ w.revents eof j ≠ .none ∧
            w.receive F data eof accepts = w.handled F data eof j) := by
  have hpos : 0 < w.server.activeConnectionNb := h.table.listening.1
  have hzero : w.revents eof 0 = ⟨w.backlog ≠ [], false⟩ := by rw [revents, if_pos rfl]
  by_cases hpass : accepts = true → w.backlog = []
  · -- the first entry is passed over
    refine .inr ⟨hpass, ?_⟩
    have haccepted : (w.revents eof 0).pollin = true →
        (if accepts then w.backlog.head? else none) = none := by
      intro _
      cases accepts with
      | false => rfl
      | true => rw [if_pos rfl, hpass rfl, List.head?_nil]
    have hwait := wait_ready_scan (s := w.server) hpos (by rw [hzero]; exact fun _ => rfl)
      haccepted
    have hentry : ∀ k, k < w.server.activeConnectionNb →
        ((w.server.report (w.revents eof)).activeConnection k).revents = w.revents eof k :=
      fun k hk => report_revents hk _
    rcases scan_cases (w.server.report (w.revents eof))
        (if accepts then w.backlog.head? else none) (w.server.activeConnectionNb - 1)
        Nat.one_pos with ⟨hscan, hnone⟩ | ⟨j, hj1, hj, hnone, hevent, hscan⟩
    · refine .inl ⟨fun k hk1 hk => ?_, ?_⟩
      · rw [← hentry k hk]
        exact hnone k hk1 (by omega)
      · rw [receive]
        simp only [hwait, hscan]
        rfl
    · have hlt : j < w.server.activeConnectionNb := by omega
      refine .inr ⟨j, hj1, hlt, fun k hk1 hk => ?_, ?_, ?_⟩
      · rw [← hentry k (by omega)]
        exact hnone k hk1 hk
      · rwa [← hentry j hlt]
      · have hhandle := handle_report eof hj1 hlt
        have hclosed : (w.revents eof j).pollin = false →
            (w.peers (w.fd j)).closed = true := by
          intro hin
          rw [hentry j hlt, revents_eq eof hj1] at hevent
          rw [revents_eq eof hj1] at hin
          refine Bool.of_not_eq_false fun hopen => hevent ?_
          simp only at hin
          rw [hin, hopen]
          rfl
        rw [receive, handled]
        simp only [hwait, hscan, hhandle]
        split_ifs with hin hhup hhup
        · rfl
        · rfl
        · rfl
        · exact absurd (hclosed (Bool.of_not_eq_true hin)) hhup
  · -- a connection is accepted
    obtain ⟨rfl, hne⟩ := Classical.not_imp.mp hpass
    obtain ⟨d, rest, hbacklog⟩ := List.exists_cons_of_ne_nil hne
    refine .inl ⟨d, rest, rfl, hbacklog, ?_⟩
    have hin : (w.revents eof 0).pollin = true := by
      rw [hzero]
      exact decide_eq_true hne
    have hwait := wait_ready_accept hpos hin d
    rw [receive, accepted]
    simp only [hbacklog, List.head?_cons, if_true, hwait]
    rfl

lemma Ok.accepted (h : Ok F w) (eof : ℤ → Bool) {d : ℤ} {rest : List ℤ}
    (hbacklog : w.backlog = d :: rest) (hroom : w.server.activeConnectionNb < capacity) :
    Ok F (w.accepted eof d rest) := by
  have hd := h.backlog d (by simp [hbacklog])
  have hne : d ≠ w.server.socketFd := by
    rintro rfl
    exact h.socket hd.1
  have hnodup := h.nodup
  rw [hbacklog, List.nodup_cons] at hnodup
  have hadd := (h.table.report (w.revents eof)).addFdToPoll ⟨hne, hd.2⟩ hroom
  refine ⟨hadd.clear hadd.listening.1, ?_, fun e he => ?_, fun e he => ?_, hnodup.2, h.peers,
    h.unknown, fun e he hlive hrest => ?_⟩
  · simpa [World.accepted] using h.socket
  · rcases Finset.mem_insert.mp he with rfl | he
    · exact hd.1
    · exact h.live e he
  · have hmem := h.backlog e (by rw [hbacklog]; exact List.mem_cons_of_mem d he)
    refine ⟨hmem.1, fun hlive => ?_⟩
    rcases Finset.mem_insert.mp hlive with rfl | hlive
    · exact hnodup.1 he
    · exact hmem.2 hlive
  · have hnot : e ≠ d ∧ e ∉ w.live :=
      not_or.mp fun hmem => hlive (Finset.mem_insert.mpr hmem)
    refine h.gone e he hnot.2 fun hmem => ?_
    rw [hbacklog] at hmem
    exact (List.mem_cons.mp hmem).elim hnot.1 hrest

lemma lost_accepted_iff (eof : ℤ → Bool) {d : ℤ} {rest : List ℤ}
    (hbacklog : w.backlog = d :: rest) : (w.accepted eof d rest).Lost ↔ w.Lost := by
  refine exists_congr fun e => and_congr_right fun _ => ?_
  show e ∉ insert d w.live ∧ e ∉ rest ∧ _ ↔ _
  rw [hbacklog, List.mem_cons, Finset.mem_insert]
  tauto

section

variable {eof : ℤ → Bool} {j : ℕ}

/-- Whether `Recv` is called or not, at most the first message is taken off. -/
lemma Ok.handled_peer (eof : ℤ → Bool) (hF : F.Frames) (h : Ok F w) (h0 : 0 < j) :
    PeerOk F ((w.handled F data eof j).peers (w.fd j)) ∧
      ((w.handled F data eof j).peers (w.fd j)).written = (w.peers (w.fd j)).written ∧
      ((w.handled F data eof j).peers (w.fd j)).closed = (w.peers (w.fd j)).closed ∧
      ((w.handled F data eof j).peers (w.fd j)).unread = (w.peers (w.fd j)).unread.tail := by
  obtain ⟨hok, hwritten, hclosed, hunread⟩ := (h.peers (w.fd j)).recv hF data
  unfold handled
  dsimp only
  split_ifs with hin
  · rw [Function.update_self]
    exact ⟨hok, hwritten, hclosed, hunread⟩
  · have hpending : (w.peers (w.fd j)).stream.pending = [] := by
      rw [revents_eq eof h0] at hin
      by_contra hne
      exact hin (decide_eq_true (.inl hne))
    have hnil := ((h.peers (w.fd j)).pending_eq_nil_iff hF).mp hpending
    exact ⟨h.peers _, rfl, rfl, by rw [hnil, List.tail_nil]⟩

lemma handled_peers_of_ne {e : ℤ} (he : e ≠ w.fd j) :
    (w.handled F data eof j).peers e = w.peers e := by
  unfold handled
  dsimp only
  split_ifs
  · exact Function.update_of_ne he _ _
  · rfl

lemma mem_handled_live_iff {e : ℤ} : e ∈ (w.handled F data eof j).live ↔
    e ∈ w.live ∧ ((w.peers (w.fd j)).closed = true → e ≠ w.fd j) := by
  unfold handled
  dsimp only
  split_ifs with hclosed
  · rw [Finset.mem_erase]
    tauto
  · simp [hclosed]

/-- The table after the event of entry `j`. -/
lemma Ok.handled_table (h : Ok F w) (h0 : 0 < j) (hj : j < w.server.activeConnectionNb)
    (hevent : w.revents eof j ≠ .none) :
    TableOk ⟨(w.handled F data eof j).server, (w.handled F data eof j).live⟩ ∧
      (w.handled F data eof j).server.socketFd = w.server.socketFd := by
  have hreport := h.table.report (w.revents eof)
  have hremove := hreport.remove h0 hj
  have hclear := hreport.clear hj
  rw [fd_report] at hremove
  have hclosed : (w.revents eof j).pollin = false → (w.peers (w.fd j)).closed = true := by
    intro hin
    rw [revents_eq eof h0] at hin hevent
    refine Bool.of_not_eq_false fun hopen => hevent ?_
    simp only at hin
    rw [hin, hopen]
    rfl
  unfold handled
  dsimp only
  rw [handle_report eof h0 hj]
  split_ifs with hin hhup hhup
  · exact ⟨hremove, socketFd_remove⟩
  · exact ⟨hclear, socketFd_clear⟩
  · exact ⟨hremove, socketFd_remove⟩
  · exact absurd (hclosed (Bool.of_not_eq_true hin)) hhup

lemma Ok.handled (hF : F.Frames) (h : Ok F w) (h0 : 0 < j)
    (hj : j < w.server.activeConnectionNb) (hevent : w.revents eof j ≠ .none) :
    Ok F (w.handled F data eof j) := by
  obtain ⟨htable, hsocket⟩ := h.handled_table data h0 hj hevent
  obtain ⟨hpeer, -, hclosed, -⟩ := h.handled_peer data eof hF h0
  have hknown := h.live _ (h.fd_mem_live h0 hj)
  refine ⟨htable, hsocket ▸ h.socket, fun e he => h.live e (mem_handled_live_iff data |>.mp he).1,
    fun e he => ⟨(h.backlog e he).1, fun hlive => ?_⟩, h.nodup, fun e => ?_, fun e he => ?_,
    fun e he hlive hbacklog => ?_⟩
  · exact (h.backlog e he).2 (mem_handled_live_iff data |>.mp hlive).1
  · by_cases heq : e = w.fd j
    · rw [heq]
      exact hpeer
    · rw [handled_peers_of_ne data heq]
      exact h.peers e
  · have hne : e ≠ w.fd j := by
      rintro rfl
      exact he hknown
    rw [handled_peers_of_ne data hne]
    exact h.unknown e he
  · by_cases heq : e = w.fd j
    · subst heq
      rw [hclosed]
      by_contra hopen
      exact hlive ((mem_handled_live_iff data).mpr
        ⟨h.fd_mem_live h0 hj, fun hc => absurd hc hopen⟩)
    · rw [handled_peers_of_ne data heq]
      exact h.gone e he (fun hmem => hlive ((mem_handled_live_iff data).mpr ⟨hmem, fun _ => heq⟩))
        hbacklog

/-- What is lost when the event of entry `j` is handled. -/
lemma Ok.lost_handled_iff (hF : F.Frames) (h : Ok F w) (h0 : 0 < j)
    (hj : j < w.server.activeConnectionNb) :
    (w.handled F data eof j).Lost ↔
      w.Lost ∨ (w.peers (w.fd j)).closed = true ∧ 2 ≤ (w.peers (w.fd j)).unread.length := by
  have hlive := h.fd_mem_live h0 hj
  have hbacklog : w.fd j ∉ w.backlog := fun hmem => (h.backlog _ hmem).2 hlive
  obtain ⟨-, -, -, hunread⟩ := h.handled_peer data eof hF h0
  have htail : (w.peers (w.fd j)).unread.tail ≠ [] ↔ 2 ≤ (w.peers (w.fd j)).unread.length := by
    rw [← List.length_pos_iff, List.length_tail]
    omega
  constructor
  · rintro ⟨e, hknown, hgone, hnot, hne⟩
    by_cases heq : e = w.fd j
    · subst heq
      have hclosed : (w.peers (w.fd j)).closed = true := by
        by_contra hopen
        exact hgone ((mem_handled_live_iff data).mpr ⟨hlive, fun h => absurd h hopen⟩)
      rw [hunread, htail] at hne
      exact .inr ⟨hclosed, hne⟩
    · rw [handled_peers_of_ne data heq] at hne
      refine .inl ⟨e, hknown, fun hmem => hgone ?_, hnot, hne⟩
      exact (mem_handled_live_iff data).mpr ⟨hmem, fun _ => heq⟩
  · rintro (⟨e, hknown, hgone, hnot, hne⟩ | ⟨hclosed, hmore⟩)
    · have heq : e ≠ w.fd j := by
        rintro rfl
        exact hgone hlive
      refine ⟨e, hknown, fun hmem => hgone (mem_handled_live_iff data |>.mp hmem).1, hnot, ?_⟩
      rwa [handled_peers_of_ne data heq]
    · refine ⟨w.fd j, h.live _ hlive, fun hmem => ?_, hbacklog, ?_⟩
      · exact (mem_handled_live_iff data |>.mp hmem).2 hclosed rfl
      · rwa [hunread, htail]

end

lemma revents_ne_none {eof : ℤ → Bool} {j : ℕ} (h0 : 0 < j)
    (hclosed : (w.peers (w.fd j)).closed = true) : w.revents eof j ≠ .none := by
  rw [revents_eq eof h0, hclosed]
  intro h
  have hhup : true = false := congrArg Revents.pollhup h
  exact absurd hhup (by decide)

/-- **A round of the loop and the invariant.** -/
theorem Ok.receive (hF : F.Frames) (h : Ok F w) (eof : ℤ → Bool) (accepts : Bool) :
    w.Overflows accepts ∧ (w.receive F data eof accepts).server.outside = true ∨
      ¬w.Overflows accepts ∧ Ok F (w.receive F data eof accepts) ∧
        ((w.receive F data eof accepts).Lost ↔ w.Lost ∨ w.Loses eof accepts) := by
  rcases receive_cases data h eof accepts with ⟨d, rest, rfl, hbacklog, heq⟩ |
    ⟨hpass, ⟨hnone, heq⟩ | ⟨j, h0, hj, hnone, hevent, heq⟩⟩
  · have hne : w.backlog ≠ [] := by simp [hbacklog]
    have hloses : ¬w.Loses eof true := fun hl => hne (hl.1 rfl)
    rw [heq]
    by_cases hroom : w.server.activeConnectionNb < capacity
    · refine .inr ⟨fun ho => absurd ho.2.2 (not_le.mpr hroom), h.accepted eof hbacklog hroom, ?_⟩
      rw [lost_accepted_iff eof hbacklog, or_iff_left hloses]
    · exact .inl ⟨⟨rfl, hne, not_lt.mp hroom⟩,
        outside_addFdToPoll (s := w.server.report _) d hroom⟩
  · -- nothing is done
    refine .inr ⟨fun ho => ho.2.1 (hpass ho.1), ?_, ?_⟩
    · rw [heq]
      exact ⟨h.table.report _, h.socket, h.live, h.backlog, h.nodup, h.peers, h.unknown, h.gone⟩
    · rw [heq, or_iff_left]
      · exact Iff.rfl
      · rintro ⟨-, j, hj, h0, -, hclosed, -⟩
        exact revents_ne_none h0 hclosed (hnone j h0 hj)
  · refine .inr ⟨fun ho => ho.2.1 (hpass ho.1), ?_, ?_⟩
    · rw [heq]
      exact h.handled data hF h0 hj hevent
    · rw [heq, h.lost_handled_iff data hF h0 hj]
      refine or_congr_right ⟨fun hl => ⟨hpass, j, hj, h0, ?_, hl⟩, ?_⟩
      · exact fun k hk hk0 => hnone k hk0 hk
      rintro ⟨-, i, hi, hi0, hbefore, hclosed, hmore⟩
      -- the first event is the first event
      obtain rfl : i = j := by
        rcases lt_trichotomy i j with hlt | rfl | hlt
        · exact absurd (hnone i hi0 hlt) (revents_ne_none hi0 hclosed)
        · rfl
        · exact absurd (hbefore j hlt h0) hevent
      exact ⟨hclosed, hmore⟩

/-! ### Runs -/

/-- Nothing was lost so far, and nothing written outside the table. -/
def Good (F : Format) (w : World) : Prop := Ok F w ∧ ¬w.Lost

def Bad (F : Format) (w : World) : Prop := w.server.outside = true ∨ Ok F w ∧ w.Lost

lemma lost_connect_iff {d : ℤ} (hd : d ∉ w.known) :
    Lost { w with backlog := w.backlog ++ [d], known := insert d w.known } ↔ w.Lost := by
  constructor
  · rintro ⟨e, hknown, hlive, hbacklog, hne⟩
    rw [List.mem_append, not_or, List.mem_singleton] at hbacklog
    exact ⟨e, Finset.mem_of_mem_insert_of_ne hknown hbacklog.2, hlive, hbacklog.1, hne⟩
  · rintro ⟨e, hknown, hlive, hbacklog, hne⟩
    refine ⟨e, Finset.mem_insert_of_mem hknown, hlive, ?_, hne⟩
    rw [List.mem_append, not_or, List.mem_singleton]
    refine ⟨hbacklog, ?_⟩
    rintro rfl
    exact hd hknown

/-- As long as a connection is open, what happens to its stream loses nothing. -/
lemma Ok.lost_update_iff (h : Ok F w) {d : ℤ} (hopen : (w.peers d).closed = false)
    {p : Peer} : Lost { w with peers := Function.update w.peers d p } ↔ w.Lost := by
  refine exists_congr fun e => and_congr_right fun hknown => and_congr_right fun hlive =>
    and_congr_right fun hbacklog => ?_
  have hne : e ≠ d := by
    rintro rfl
    exact absurd (hopen.symm.trans (h.gone e hknown hlive hbacklog)) (by decide)
  show (Function.update w.peers d p e).unread ≠ [] ↔ _
  rw [Function.update_of_ne hne]

/-- What a step of a client changes. -/
lemma Ok.client (h : Ok F w) {a : Action} {t : World} (hst : w.step F data a = some t)
    (hclient : ∀ eof accepts, a ≠ .receive eof accepts) : Ok F t ∧ (t.Lost ↔ w.Lost) := by
  cases a with
  | connect d =>
      rw [step] at hst
      split_ifs at hst with hd
      obtain rfl := Option.some.inj hst
      exact ⟨h.connect hd, lost_connect_iff hd.2⟩
  | write d b hb =>
      rw [step] at hst
      split_ifs at hst with hd
      obtain rfl := Option.some.inj hst
      exact ⟨h.update hd.1 ((h.peers d).write hb) id, h.lost_update_iff hd.2⟩
  | close d =>
      rw [step] at hst
      split_ifs at hst with hd
      obtain rfl := Option.some.inj hst
      exact ⟨h.update hd.1 (h.peers d).close fun _ => rfl, h.lost_update_iff hd.2⟩
  | receive eof accepts => exact absurd rfl (hclient eof accepts)

lemma receive_of_step {eof : ℤ → Bool} {accepts : Bool} {t : World}
    (hst : w.step F data (.receive eof accepts) = some t) :
    ¬w.Quiet ∧ t = w.receive F data eof accepts := by
  rw [step] at hst
  split_ifs at hst with hquiet
  exact ⟨hquiet, (Option.some.inj hst).symm⟩

lemma good_step (hF : F.Frames) {a : Action} {t : World} (h : Good F w)
    (hst : w.step F data a = some t) (hord : w.Orderly a) : Good F t := by
  by_cases hclient : ∀ eof accepts, a ≠ .receive eof accepts
  · obtain ⟨hok, hlost⟩ := h.1.client data hst hclient
    exact ⟨hok, hlost.not.mpr h.2⟩
  · push Not at hclient
    obtain ⟨eof, accepts, rfl⟩ := hclient
    obtain ⟨-, rfl⟩ := receive_of_step data hst
    rcases h.1.receive data hF eof accepts with ⟨hover, -⟩ | ⟨-, hok, hlost⟩
    · exact absurd hover hord.1
    · exact ⟨hok, hlost.not.mpr (not_or.mpr ⟨h.2, hord.2⟩)⟩

lemma bad_of_good_step (hF : F.Frames) {a : Action} {t : World} (h : Good F w)
    (hst : w.step F data a = some t) (hord : ¬w.Orderly a) : Bad F t := by
  cases a with
  | connect d => exact absurd trivial hord
  | write d b hb => exact absurd trivial hord
  | close d => exact absurd trivial hord
  | receive eof accepts =>
      obtain ⟨-, rfl⟩ := receive_of_step data hst
      rcases h.1.receive data hF eof accepts with ⟨-, hout⟩ | ⟨hover, hok, hlost⟩
      · exact .inl hout
      · refine .inr ⟨hok, hlost.mpr (.inr ?_)⟩
        by_contra hloses
        exact hord ⟨hover, hloses⟩

lemma outside_receive (h : w.server.outside = true) (eof : ℤ → Bool) (accepts : Bool) :
    (w.receive F data eof accepts).server.outside = true := by
  unfold receive
  dsimp only
  split <;> exact outside_wait h _ _

lemma bad_step (hF : F.Frames) {a : Action} {t : World} (h : Bad F w)
    (hst : w.step F data a = some t) : Bad F t := by
  rcases h with hout | ⟨hok, hlost⟩
  · refine .inl ?_
    cases a with
    | receive eof accepts =>
        obtain ⟨-, rfl⟩ := receive_of_step data hst
        exact outside_receive data hout eof accepts
    | connect d =>
        rw [step] at hst
        split_ifs at hst
        obtain rfl := Option.some.inj hst
        exact hout
    | write d b hb =>
        rw [step] at hst
        split_ifs at hst
        obtain rfl := Option.some.inj hst
        exact hout
    | close d =>
        rw [step] at hst
        split_ifs at hst
        obtain rfl := Option.some.inj hst
        exact hout
  · by_cases hclient : ∀ eof accepts, a ≠ .receive eof accepts
    · obtain ⟨hok', hiff⟩ := hok.client data hst hclient
      exact .inr ⟨hok', hiff.mpr hlost⟩
    · push Not at hclient
      obtain ⟨eof, accepts, rfl⟩ := hclient
      obtain ⟨-, rfl⟩ := receive_of_step data hst
      rcases hok.receive data hF eof accepts with ⟨-, hout⟩ | ⟨-, hok', hiff⟩
      · exact .inl hout
      · exact .inr ⟨hok', hiff.mpr (.inl hlost)⟩

/-- Where a run ends says whether its rounds were orderly. -/
lemma good_or_bad (hF : F.Frames) (socketFd : ℤ) (garbage : ℕ → PollFd) (pieces : ℤ → ℕ → ℕ)
    {as : List Action} (hrun : run (step F data) (init socketFd garbage pieces) as = some w) :
    Along (step F data) Orderly (init socketFd garbage pieces) as ∧ Good F w ∨
      ¬Along (step F data) Orderly (init socketFd garbage pieces) as ∧ Bad F w :=
  along_and_or_not_along_and (fun _ _ _ h hst hord => good_step data hF h hst hord)
    (fun _ _ _ h hst hord => bad_of_good_step data hF h hst hord)
    (fun _ _ _ h hst => bad_step data hF h hst)
    ⟨ok_init socketFd garbage pieces, not_lost_init socketFd garbage pieces⟩ hrun

/-- Every message that a client has written was returned, once and in order. -/
def Delivered (w : World) : Prop :=
  w.server.outside = false ∧
    ∀ d, (w.peers d).received = (w.peers d).written.map PopBuffer.message

/-- When `poll` has nothing left to report, what was not returned is lost. -/
lemma Ok.unread_of_quiet (hF : F.Frames) (h : Ok F w) (hquiet : w.Quiet) {d : ℤ}
    (hd : d ∈ w.live ∨ d ∈ w.backlog) : (w.peers d).unread = [] := by
  rcases hd with hlive | hbacklog
  · obtain ⟨j, hj, hfd⟩ := (h.table.holds.mem_iff d).mp (Finset.mem_insert_of_mem hlive)
    have hj0 : j ≠ 0 := by
      rintro rfl
      have hsocket : w.server.socketFd = d := h.table.listening.2.symm.trans hfd
      exact h.table.other (hsocket ▸ hlive)
    have hnone := hquiet j hj
    rw [revents_eq _ (Nat.pos_of_ne_zero hj0)] at hnone
    have hin : decide ((w.peers (w.fd j)).stream.pending ≠ [] ∨ _) = false :=
      congrArg Revents.pollin hnone
    rw [decide_eq_false_iff_not, not_or, not_not] at hin
    have hd : w.fd j = d := hfd
    rw [hd] at hin
    exact ((h.peers d).pending_eq_nil_iff hF).mp hin.1
  · have hnone := hquiet 0 h.table.listening.1
    rw [revents, if_pos rfl] at hnone
    have hin : decide (w.backlog ≠ []) = false := congrArg Revents.pollin hnone
    rw [decide_eq_false_iff_not, not_not] at hin
    simp [hin] at hbacklog

lemma delivered_of_good (hF : F.Frames) (h : Good F w) (hquiet : w.Quiet) : w.Delivered := by
  refine ⟨h.1.table.inside, fun d => (h.1.peers d).received_eq_iff.mpr ?_⟩
  by_cases hd : d ∈ w.known
  · by_contra hne
    have hplace : ¬(d ∈ w.live ∨ d ∈ w.backlog) := fun hplace =>
      hne (h.1.unread_of_quiet hF hquiet hplace)
    rw [not_or] at hplace
    exact h.2 ⟨d, hd, hplace.1, hplace.2, hne⟩
  · rw [Peer.unread, h.1.unknown d hd, List.drop_nil]

lemma not_delivered_of_bad (h : Bad F w) : ¬w.Delivered := by
  rintro ⟨hinside, hall⟩
  rcases h with hout | ⟨hok, d, -, -, -, hne⟩
  · exact absurd (hinside.symm.trans hout) (by decide)
  · exact hne ((hok.peers d).received_eq_iff.mp (hall d))

/-! ### How long it takes -/

/-- What is left to do for the server when the clients do nothing more. -/
def work (w : World) : ℕ :=
  2 * w.backlog.length + w.live.card + ∑ d ∈ w.known, (w.peers d).unread.length

lemma Ok.work_handled_lt (hF : F.Frames) (h : Ok F w) {eof : ℤ → Bool} {j : ℕ} (h0 : 0 < j)
    (hj : j < w.server.activeConnectionNb) (hevent : w.revents eof j ≠ .none) :
    (w.handled F data eof j).work < w.work := by
  have hlive := h.fd_mem_live h0 hj
  have hknown := h.live _ hlive
  obtain ⟨-, -, -, hunread⟩ := h.handled_peer data eof hF h0
  have hle : ∀ d ∈ w.known, ((w.handled F data eof j).peers d).unread.length ≤
      (w.peers d).unread.length := by
    intro d _
    by_cases heq : d = w.fd j
    · rw [heq, hunread, List.length_tail]
      exact Nat.sub_le _ _
    · rw [handled_peers_of_ne data heq]
  have hsum := Finset.sum_le_sum hle
  have hbacklog : (w.handled F data eof j).backlog = w.backlog := rfl
  have hsame : (w.handled F data eof j).known = w.known := rfl
  cases hclosed : (w.peers (w.fd j)).closed with
  | true =>
      -- the connection is taken out
      have hcard : (w.handled F data eof j).live.card < w.live.card := by
        unfold World.handled
        dsimp only
        rw [hclosed, if_pos rfl, Finset.card_erase_of_mem hlive]
        exact Nat.sub_lt (Finset.card_pos.mpr ⟨_, hlive⟩) Nat.one_pos
      rw [work, work, hbacklog, hsame]
      omega
  | false =>
      -- a message is read
      have hne : (w.peers (w.fd j)).unread ≠ [] := by
        intro hnil
        have hpending := ((h.peers _).pending_eq_nil_iff hF).mpr hnil
        refine hevent ?_
        rw [revents_eq eof h0, hpending, hclosed]
        simp [Revents.none]
      have hlt := Finset.sum_lt_sum hle ⟨w.fd j, hknown, by
        rw [hunread, List.length_tail]
        exact Nat.sub_lt (List.length_pos_iff.mpr hne) Nat.one_pos⟩
      have hcard : (w.handled F data eof j).live = w.live := by
        unfold World.handled
        dsimp only
        rw [hclosed, if_neg Bool.false_ne_true]
      rw [work, work, hbacklog, hsame, hcard]
      omega

/-- Every round has something to do and leaves less to be done. -/
lemma Ok.work_receive_lt (hF : F.Frames) (h : Ok F w) (hquiet : ¬w.Quiet) (eof : ℤ → Bool) :
    (w.receive F data eof true).work < w.work := by
  rcases receive_cases data h eof true with ⟨d, rest, -, hbacklog, heq⟩ |
    ⟨hpass, ⟨hnone, heq⟩ | ⟨j, h0, hj, -, hevent, heq⟩⟩
  · have hd := (h.backlog d (by simp [hbacklog])).2
    have hcard := Finset.card_insert_of_notMem hd
    rw [heq]
    show 2 * rest.length + (insert d w.live).card +
      ∑ e ∈ w.known, (w.peers e).unread.length < _
    rw [work, hbacklog, hcard, List.length_cons]
    omega
  · -- then `poll` would not have returned
    refine absurd (fun i hi => ?_) hquiet
    rcases Nat.eq_zero_or_pos i with rfl | h0
    · rw [revents, if_pos rfl, hpass rfl]
      simp [Revents.none]
    · have hi' := hnone i h0 hi
      rw [revents_eq eof h0] at hi'
      rw [revents_eq _ h0]
      have hclosed : (w.peers (w.fd i)).closed = false := congrArg Revents.pollhup hi'
      have hin := congrArg Revents.pollin hi'
      simp only [hclosed, Revents.none] at hin ⊢
      simpa using hin
  · rw [heq]
    exact h.work_handled_lt data hF h0 hj hevent

end

/-- **No message is lost at disconnect.**  After any run of clients that connect, write and
close and of a server that receives: when `poll` has nothing left to report, every message was
returned, once and in order, exactly when the table never overflowed and no connection was
found closed with more than one message unread.  Until then `Wait` returns, and with orderly
rounds the server gets there. -/
theorem delivered_iff (F : Format) (hF : F = raw ∨ ∃ lib, F = xdr lib) (data : PopBuffer)
    (socketFd : ℤ) (garbage : ℕ → PollFd) (pieces : ℤ → ℕ → ℕ) (as : List Action) (w : World)
    (hrun : run (step F data) (init socketFd garbage pieces) as = some w) :
    (w.Quiet → (w.Delivered ↔ Along (step F data) Orderly (init socketFd garbage pieces) as)) ∧
      (¬w.Quiet → ∀ eof accepts, (w.step F data (.receive eof accepts)).isSome) ∧
      (Along (step F data) Orderly (init socketFd garbage pieces) as →
        ∀ rounds u, Along (step F data) (fun w a => w.Orderly a ∧ ∃ eof, a = .receive eof true)
            w rounds →
          run (step F data) w rounds = some u → rounds.length ≤ w.work) := by
  have hframes : F.Frames := by
    rcases hF with rfl | ⟨lib, rfl⟩
    · exact frames_raw
    · exact frames_xdr lib
  have hend := good_or_bad data hframes socketFd garbage pieces hrun
  refine ⟨fun hquiet => ?_, fun hquiet eof accepts => ?_, fun halong rounds u hrounds hu => ?_⟩
  · rcases hend with ⟨halong, hgood⟩ | ⟨hnot, hbad⟩
    · exact iff_of_true (delivered_of_good hframes hgood hquiet) halong
    · exact iff_of_false (not_delivered_of_bad hbad) hnot
  · rw [step, if_neg hquiet]
    rfl
  · have hgood : Good F w := by
      rcases hend with ⟨-, hgood⟩ | ⟨hnot, -⟩
      · exact hgood
      · exact absurd halong hnot
    have hlen := run_length_add_le (I := Good F) (f := work) (fun s a t h hP hst => by
      obtain ⟨hord, eof, rfl⟩ := hP
      refine ⟨good_step data hframes h hst hord, ?_⟩
      obtain ⟨hquiet, rfl⟩ := receive_of_step data hst
      exact h.1.work_receive_lt data hframes hquiet eof) hgood hrounds hu
    omega

lemma sendable_sampleRequest : Sendable sampleRequest := ⟨.inl rfl, by decide, by decide⟩

def sampleInit : World := init 3 zeros fun _ _ => 100

/-- A client connects and is accepted, makes so many asynchronous calls, and closes its end;
then the server receives. -/
def sampleActions (calls : ℕ) : List Action :=
  [.connect 4, .receive (fun _ => false) true] ++
    List.replicate calls (.write 4 sampleRequest sendable_sampleRequest) ++
    [.close 4, .receive (fun _ => false) true]

theorem delivered_iff_sampleActions :
    ∃ w, run (step raw sampleRequest) sampleInit (sampleActions 1) = some w ∧ w.Delivered := by
  have hrun : ∃ w, run (step raw sampleRequest) sampleInit (sampleActions 1) = some w ∧ w.Quiet :=
    ⟨_, rfl, by decide⟩
  obtain ⟨w, hw, hquiet⟩ := hrun
  have hiff := (delivered_iff raw (.inl rfl) sampleRequest 3 zeros _ _ w hw).1 hquiet
  exact ⟨w, hw, hiff.mpr (by decide)⟩

/-- The second of two calls is lost: it was written when the server found the connection
closed, and the server reads one message and forgets the connection. -/
theorem second_call_lost :
    ∃ w, run (step raw sampleRequest) sampleInit (sampleActions 2) = some w ∧
      w.Quiet ∧ ¬w.Delivered := by
  have hrun : ∃ w, run (step raw sampleRequest) sampleInit (sampleActions 2) = some w ∧ w.Quiet :=
    ⟨_, rfl, by decide⟩
  obtain ⟨w, hw, hquiet⟩ := hrun
  refine ⟨w, hw, hquiet, not_delivered_of_bad (F := raw) ?_⟩
  rcases good_or_bad sampleRequest frames_raw 3 zeros (fun _ _ => 100) hw with ⟨halong, -⟩ | h
  · exact absurd halong (by decide)
  · exact h.2

end World

end PopCpp.Combox.Uds
