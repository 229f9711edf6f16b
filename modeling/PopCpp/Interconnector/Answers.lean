/-
# Every allocation is answered once, unless an object fails

In every run in which the objects launched for other nodes report success and an answer finds
its entry of `allocation_return`, no message of one allocation is taken as part of another, each
connection gets the address of its own object, and a run that cannot go on has answered everybody;
and no run is longer than 17 steps for each request.  The failure branch is different: it sends
the length 0 but no command 15, and the connection that asked is never answered.
-/
import Mathlib.Algebra.BigOperators.Group.Finset.Piecewise
import Mathlib.Algebra.BigOperators.Ring.Finset
import Mathlib.Data.Fintype.Prod
import PopCpp.Interconnector.Pipeline

namespace Interconnector.Allocation

variable {n : ℕ} {nbcore : ℤ} {s t : State n} {requests : Fin n → List (Request n)}

/-! ## No thread waits for ever -/

/-- No step is possible: neither thread of any node can go on, and no object has to report. -/
def Quiet (nbcore : ℤ) (s : State n) : Prop := ∀ act, step nbcore s act = none

lemma quiet_iff : Quiet nbcore s ↔ ∀ a, step nbcore s (.take a) = none ∧
    step nbcore s (.record a) = none ∧ step nbcore s (.wake a) = none ∧
    (∀ b, step nbcore s (.receiveId a b) = none) ∧ step nbcore s (.receivePart a) = none ∧
    step nbcore s (.fork a) = none ∧ (∀ ok, step nbcore s (.report a ok) = none) ∧
    step nbcore s (.sent a) = none ∧ (∀ b, step nbcore s (.command a b) = none) ∧
    step nbcore s (.receiveLength a) = none ∧ step nbcore s (.receiveAddress a) = none := by
  constructor
  · intro h a
    exact ⟨h _, h _, h _, fun b => h _, h _, h _, fun ok => h _, h _, fun b => h _, h _, h _⟩
  · intro h act
    cases act with
    | take a => exact (h a).1
    | record a => exact (h a).2.1
    | wake a => exact (h a).2.2.1
    | receiveId a b => exact (h a).2.2.2.1 b
    | receivePart a => exact (h a).2.2.2.2.1
    | fork a => exact (h a).2.2.2.2.2.1
    | report a ok => exact (h a).2.2.2.2.2.2.1 ok
    | sent a => exact (h a).2.2.2.2.2.2.2.1
    | command a b => exact (h a).2.2.2.2.2.2.2.2.1 b
    | receiveLength a => exact (h a).2.2.2.2.2.2.2.2.2.1
    | receiveAddress a => exact (h a).2.2.2.2.2.2.2.2.2.2

instance : Decidable (Quiet nbcore s) := decidable_of_iff _ quiet_iff.symm

section Quiet

variable (hquiet : Quiet nbcore s) (hgood : s.Good requests)

include hquiet hgood

/-- A receive thread within command 15 has the messages that it waits for. -/
lemma Quiet.polling (a : Fin n) : s.receiver a = .polling := by
  cases hreceiver : s.receiver a with
  | polling => rfl
  | awaitingLength b id =>
      exfalso
      have hlink := hgood.links a b
      obtain ⟨m, rest, haddresses, -⟩ := @Link.Ok.head_address _ _ _ hlink id
        (by simp [State.link, hreceiver, Receiver.held])
      have hlengths := hlink.lengths_eq
      rw [haddresses] at hlengths
      have hheld : (s.link a b).lengthHeld = [] := by
        simp [State.link, hreceiver, Receiver.lengthHeld]
      rw [hheld, List.nil_append] at hlengths
      have hchannel : s.lengths (b, a) = _ := hlengths
      have hstep := hquiet (.receiveLength a)
      simp [step, hreceiver, hchannel] at hstep
  | awaitingAddress b id length =>
      exfalso
      have hlink := hgood.links a b
      obtain ⟨m, rest, haddresses, -⟩ := @Link.Ok.head_address _ _ _ hlink id
        (by simp [State.link, hreceiver, Receiver.held])
      obtain ⟨hlength, -⟩ := @Link.Ok.head_length _ _ _ hlink length _ _
        (by simp [State.link, hreceiver, Receiver.lengthHeld]) haddresses
      have hchannel : s.addresses (b, a) = m :: rest := haddresses
      have hstep := hquiet (.receiveAddress a)
      simp [step, hreceiver, hchannel, hlength, lengthMessage] at hstep

lemma Quiet.commands (a b : Fin n) : s.commands (a, b) = [] := by
  cases hcommands : s.commands (a, b) with
  | nil => rfl
  | cons m rest =>
      have hstep := hquiet (.command b a)
      simp [step, hquiet.polling hgood b, hcommands] at hstep

lemma Quiet.addresses (a b : Fin n) : s.addresses (b, a) = [] := by
  have howners := (hgood.links a b).owners_eq
  have hnone : (s.link a b).receiving = [] ∧ (s.link a b).pending = [] := by
    simp [State.link, hquiet.polling hgood a, hquiet.commands hgood b a, Receiver.held]
  rw [hnone.1, hnone.2] at howners
  exact List.map_eq_nil_iff.mp howners

omit hquiet hgood in
/-- What a part is checked against has been received before it. -/
lemma Part.lengthPart_not_mem {p q : Part} {todo : List Part} (h : p :: todo <:+ Part.order)
    (hq : p.length? = some q) : q ∉ p :: todo := by
  have htails : ∀ l ∈ Part.order.tails, ∀ p ∈ l.head?, ∀ q ∈ p.length?, q ∉ l := by decide
  exact htails _ ((List.mem_tails _ _).mpr h) p rfl q hq

lemma Quiet.idle (b : Fin n) : s.main b = .idle := by
  cases hmain : s.main b with
  | idle => rfl
  | recording r =>
      have hstep := hquiet (.record b)
      simp [step, hmain] at hstep
  | awaitingId =>
      exfalso
      have hids : ∀ a, s.ids (a, b) = [] := by
        intro a
        cases hids : s.ids (a, b) with
        | nil => rfl
        | cons m rest =>
            have hstep := hquiet (.receiveId b a)
            simp [step, hmain, hids] at hstep
      -- then nothing announces the identifier that the thread waits for
      have hann := hgood.announcements b
      simp only [State.identifying, hids, hmain, Main.waits, List.length_nil,
        Finset.sum_const_zero] at hann
      omega
  | gathering a id locals todo owners =>
      exfalso
      have hok : (s.main b).Ok b := hgood.mains b
      rw [hmain] at hok
      obtain ⟨-, hsuffix, hlocals, -⟩ := hok
      cases todo with
      | nil =>
          have hstep := hquiet (.fork b)
          simp [step, hmain, hlocals, Part.payload] at hstep
      | cons p todo =>
          obtain ⟨rest, hparts⟩ := (hgood.links a b).head_part (p := p) (r := id.owner)
            (by simp [State.link, hmain, Main.due])
          have hchannel : s.parts ((a, b), p) = p.message id.owner :: rest := hparts
          have hfits := id.owner.fits
          have haccepts : p.accepts locals (p.payload id.owner) = true := by
            have hlength : ∀ q, p.length? = some q → locals q = some (q.payload id.owner) :=
              fun q hq => hlocals q (Part.lengthPart_not_mem hsuffix hq)
            have hwrap : ∀ k : ℕ, k < 2 ^ 31 → CInt.wrap k = k := fun k hk =>
              CInt.wrap_eq_self (by simp only [CInt.Fits]; omega)
            cases p with
            | objectname =>
                simp [Part.accepts, Part.length?, hlength .objectnameLength rfl, Part.payload,
                  hwrap _ hfits.1]
            | codefile =>
                simp [Part.accepts, Part.length?, hlength .codefileLength rfl, Part.payload,
                  hwrap _ hfits.2]
            | _ => rfl
          have hstep := hquiet (.receivePart b)
          simp [step, hmain, hchannel, Part.message, haccepts] at hstep
  | launched l =>
      have hstep := hquiet (.report b true)
      simp [step, hmain] at hstep
  | answering source =>
      have hstep := hquiet (.sent b)
      simp [step, hmain, hquiet.addresses hgood source b] at hstep

lemma Quiet.inbox (a : Fin n) : s.inbox a = [] := by
  cases hinbox : s.inbox a with
  | nil => rfl
  | cons r rest =>
      have hstep := hquiet (.take a)
      simp [step, hquiet.idle hgood a, hinbox] at hstep

lemma Quiet.ids (a b : Fin n) : s.ids (a, b) = [] := by
  have hwakers : s.wakers b = 0 := by
    cases hwakers : s.wakers b with
    | zero => rfl
    | succ k =>
        have hstep := hquiet (.wake b)
        simp [step, hquiet.idle hgood b, hwakers] at hstep
  have hann := hgood.announcements b
  simp only [State.announcing, hwakers, hquiet.idle hgood b, hquiet.commands hgood _ b,
    Main.waits, announced, List.countP_nil, Finset.sum_const_zero, State.identifying] at hann
  exact List.eq_nil_of_length_eq_zero
    (Finset.sum_eq_zero_iff.mp hann.symm a (Finset.mem_univ a))

/-- When nothing can move any more, every request has come out of its link. -/
lemma Quiet.answers (a b : Fin n) :
    (s.answers (a, b)).map Answer.owner = (requests a).filter (·.node = b) ∧
      (s.answers (a, b)).map (fun x => (x.address, x.owner)) = (s.reports (b, a)).map answerOf := by
  have hlink := hgood.links a b
  have hempty : (s.link a b).addresses = [] ∧ (s.link a b).held = [] ∧ (s.link a b).ids = [] ∧
      (s.link a b).waiting = [] := by
    refine ⟨hquiet.addresses hgood a b, ?_, hquiet.ids hgood a b, ?_⟩
    · simp [State.link, hquiet.idle hgood b, Main.held]
    · simp [State.link, hquiet.inbox hgood a]
  obtain ⟨haddresses, hheld, hids, hwaiting⟩ := hempty
  have hstream := hlink.stream
  have hreported := hlink.reported
  simp only [haddresses, hheld, hids, hwaiting, List.map_nil, List.append_nil] at hstream hreported
  exact ⟨hstream, hreported⟩

end Quiet

/-! ## Every run ends -/

namespace Main

def weight : Main n → ℕ
  | idle => 0
  | recording _ => 1
  | awaitingId => 12
  | gathering _ _ _ todo _ => 6 + todo.length
  | launched _ => 5
  | answering _ => 1

end Main

def Receiver.weight : Receiver n → ℕ
  | polling => 0
  | awaitingLength _ _ => 2
  | awaitingAddress _ _ _ => 1

def Command.weight : Command → ℕ
  | allocate => 14
  | unlock => 1
  | answer _ => 3

/-- How many steps what is under way can still cause, at most. -/
def State.work (s : State n) : ℕ :=
  ∑ a, 17 * (s.inbox a).length + ∑ a, 13 * s.wakers a + ∑ a, (s.main a).weight +
    ∑ a, (s.receiver a).weight + ∑ k, ((s.commands k).map (·.value.weight)).sum

lemma work_postCommand (a b : Fin n) (k : Command) (r : Request n) :
    (s.postCommand a b k r).work = s.work + k.weight := by
  have hsum := Mailbox.sum_update_add (fun l : List (Message n Command) =>
    (l.map (·.value.weight)).sum) s.commands (a, b) (s.commands (a, b) ++ [⟨k, r⟩])
  simp only [List.map_append, List.sum_append, List.map_cons, List.map_nil, List.sum_cons,
    List.sum_nil] at hsum
  simp only [State.work, State.postCommand, Mailbox.post]
  omega

lemma work_setMain (b : Fin n) (m : Main n) :
    (s.setMain b m).work + (s.main b).weight = s.work + m.weight := by
  have hsum := Mailbox.sum_update_add Main.weight s.main b m
  simp only [State.work, State.setMain]
  omega

lemma work_setReceiver (a : Fin n) (r : Receiver n) :
    (s.setReceiver a r).work + (s.receiver a).weight = s.work + r.weight := by
  have hsum := Mailbox.sum_update_add Receiver.weight s.receiver a r
  simp only [State.work, State.setReceiver]
  omega

lemma work_inbox (a : Fin n) (l : List (Request n)) :
    ({ s with inbox := Function.update s.inbox a l } : State n).work + 17 * (s.inbox a).length =
      s.work + 17 * l.length := by
  have hsum := Mailbox.sum_update_add (fun l : List (Request n) => 17 * l.length) s.inbox a l
  simp only [State.work]
  omega

lemma work_wakers (b : Fin n) (k : ℕ) :
    ({ s with wakers := Function.update s.wakers b k } : State n).work + 13 * s.wakers b =
      s.work + 13 * k := by
  have hsum := Mailbox.sum_update_add (fun k => 13 * k) s.wakers b k
  simp only [State.work]
  omega

lemma work_commands {a b : Fin n} {m : Message n Command} {rest : List (Message n Command)}
    (h : s.commands (a, b) = m :: rest) :
    ({ s with commands := Function.update s.commands (a, b) rest } : State n).work +
      m.value.weight = s.work := by
  have hsum := Mailbox.sum_update_add (fun l : List (Message n Command) =>
    (l.map (·.value.weight)).sum) s.commands (a, b) rest
  rw [h, List.map_cons, List.sum_cons] at hsum
  simp only [State.work]
  omega

/-- Every step uses up some of the work, whether it meets `Clean` or not. -/
theorem work_step {act : Action n} (h : step nbcore s act = some t) : t.work < s.work := by
  cases act with
  | take a =>
      obtain ⟨r, rest, hmain, hinbox, rfl⟩ := step_take h
      have hwork := work_inbox (s := s) a rest
      rw [hinbox, List.length_cons] at hwork
      split
      -- sent to another node: two commands are posted, and the launcher waits to record
      · have hsend := work_setMain (s := (({ s with inbox := Function.update s.inbox a rest } :
          State n).postCommand a a .unlock r).postCommand a r.node .allocate r) a (.recording r)
        rw [work_postCommand, work_postCommand] at hsend
        have hmain' : Main.weight (s.main a) = 0 := by rw [hmain]; rfl
        refine Nat.lt_of_le_of_lt (Nat.le_of_add_right_le hsend.le) ?_
        simp only [Command.weight, Main.weight]
        omega
      -- placed here: the launcher goes straight to the launch
      · have hlaunch := fun l => work_setMain
          (s := { s with inbox := Function.update s.inbox a rest }) a (.launched l)
        refine Nat.lt_of_le_of_lt (Nat.le_of_add_right_le (hlaunch _).le) ?_
        simp only [Main.weight]
        omega
  | record a =>
      obtain ⟨r, hmain, rfl⟩ := step_record h
      have hwork := work_setMain (s := s) a .idle
      rw [hmain] at hwork
      exact Nat.lt_of_succ_le hwork.le
  | wake b =>
      obtain ⟨k, hmain, hwakers, rfl⟩ := step_wake h
      have hwork := work_wakers (s := s) b k
      have hwork' := work_setMain (s := { s with wakers := Function.update s.wakers b k }) b
        .awaitingId
      rw [hwakers] at hwork
      simp only [hmain, Main.weight] at hwork'
      show (({ s with wakers := Function.update s.wakers b k } : State n).setMain b
        .awaitingId).work < _
      omega
  | receiveId b a =>
      obtain ⟨m, rest, hmain, hids, rfl⟩ := step_receiveId h
      have hwork := work_setMain (s := s) b
        (.gathering a m (fun _ => none) Part.order [m.owner])
      have hlength : Part.order.length = 5 := rfl
      rw [hmain] at hwork
      simp only [Main.weight, hlength] at hwork
      show (s.setMain b _).work < _
      omega
  | receivePart b =>
      obtain ⟨a, id, locals, p, todo, owners, m, rest, hmain, -, rfl⟩ := step_receivePart h
      have hwork := work_setMain (s := s) b
        (.gathering a id (Function.update locals p (some m.value)) todo (m.owner :: owners))
      rw [hmain] at hwork
      simp only [Main.weight, List.length_cons] at hwork
      show (s.setMain b _).work < _
      omega
  | fork b =>
      obtain ⟨a, id, locals, owners, o, k, u, hmain, -, -, rfl⟩ := step_fork h
      have hwork := fun l => work_setMain (s := s) b (.launched l)
      simp only [hmain, Main.weight, List.length_nil] at hwork
      have hlt : ∀ l, (s.setMain b (.launched l)).work < s.work := fun l => by
        have hl := hwork l
        omega
      exact hlt _
  | report b ok =>
      obtain ⟨l, hmain, rfl⟩ := step_report h
      simp only [State.report]
      split
      · have hwork := work_setMain (s := s) b .idle
        rw [hmain] at hwork
        simp only [Main.weight] at hwork
        show (s.setMain b .idle).work < _
        omega
      -- only a launch that was asked for is answered, with a command of its own
      · next _ _ id _ =>
          have hwork := work_setMain (s := s.postCommand b l.source (.answer id) l.owner) b
            (.answering l.source)
          have hsame : (s.postCommand b l.source (.answer id) l.owner).main b = .launched l := hmain
          rw [work_postCommand, hsame] at hwork
          simp only [Main.weight, Command.weight] at hwork
          show ((s.postCommand b l.source (.answer id) l.owner).setMain b _).work < _
          omega
      · have hwork := work_setMain (s := s) b .idle
        rw [hmain] at hwork
        simp only [Main.weight] at hwork
        show (s.setMain b .idle).work < _
        omega
  | sent b =>
      obtain ⟨source, hmain, rfl⟩ := step_sent h
      have hwork := work_setMain (s := s) b .idle
      rw [hmain] at hwork
      simp only [Main.weight] at hwork
      omega
  | command b a =>
      obtain ⟨⟨k, r⟩, rest, hreceiver, hm, rfl⟩ := step_command h
      have hwork := work_commands hm
      -- a command is worth more than what the receiver does on obeying it
      cases k with
      | allocate =>
          have hwork' := work_wakers
            (s := { s with commands := Function.update s.commands (a, b) rest }) b (s.wakers b + 1)
          simp only [Command.weight] at hwork
          refine Nat.lt_of_add_lt_add_right (n := 13 * s.wakers b) (hwork'.trans_lt ?_)
          omega
      | unlock =>
          simp only [Command.weight] at hwork
          simp only [State.obey]
          omega
      | answer id =>
          have hwork' := work_setReceiver
            (s := { s with commands := Function.update s.commands (a, b) rest }) b
            (.awaitingLength a ⟨id, r⟩)
          have hpolling : (s.receiver b).weight = 0 := by rw [hreceiver]; rfl
          simp only [Command.weight] at hwork
          simp only [Receiver.weight] at hwork'
          simp only [State.obey]
          omega
  | receiveLength a =>
      obtain ⟨b, id, m, rest, hreceiver, -, rfl⟩ := step_receiveLength h
      have hwork := work_setReceiver (s := s) a (.awaitingAddress b id m)
      rw [hreceiver] at hwork
      simp only [Receiver.weight] at hwork
      show (s.setReceiver a _).work < _
      omega
  | receiveAddress a =>
      obtain ⟨b, id, length, m, rest, hreceiver, -, rfl⟩ := step_receiveAddress h
      have hwork := work_setReceiver (s := s) a .polling
      rw [hreceiver] at hwork
      simp only [Receiver.weight] at hwork
      simp only [State.sendAnswer]
      have hlt : (s.setReceiver a .polling).work < s.work := by omega
      split <;> exact hlt

lemma work_start : (State.start requests).work = 17 * ∑ a, (requests a).length := by
  simp [State.work, State.start, Main.weight, Receiver.weight, Finset.mul_sum]

/-! ## The answers -/

/-- Nothing that was sent so far is wrong: the answers from `b` to connections of `a` are, in
order and once each, for requests of `a` to `b`, go to the connection of the request, and hold
what the object of the request has reported; an object is the one that was asked for; and messages
taken together belong to one allocation. -/
structure Sound (requests : Fin n → List (Request n)) (s : State n) : Prop where
  once : ∀ a b, (s.answers (a, b)).map Answer.owner <+: (requests a).filter (·.node = b)
  conns : ∀ a b, ∀ x ∈ s.answers (a, b), x.conn = x.owner.conn
  addresses : ∀ a b, (s.answers (a, b)).map (fun x => (x.address, x.owner)) <+:
    (s.reports (b, a)).map answerOf
  objects : ∀ a b, ∀ x ∈ s.reports (b, a), x.1.objectname = x.1.owner.objectname ∧
    x.1.codefile = x.1.owner.codefile
  groups : ∀ g ∈ s.groups, ∀ r ∈ g, ∀ r' ∈ g, r = r'

/-- Every connection has been sent as many answers as it made requests. -/
def Answered (requests : Fin n → List (Request n)) (s : State n) : Prop :=
  ∀ a c, ∑ b, ((s.answers (a, b)).countP (·.conn = c)) = (requests a).countP (·.conn = c)

lemma Sound.of_good (hgood : s.Good requests) : Sound requests s where
  once a b := (hgood.links a b).stream ▸ List.prefix_append _ _
  conns a b := (hgood.links a b).conns
  addresses a b := (hgood.links a b).reported ▸ List.prefix_append _ _
  objects := hgood.objects
  groups := hgood.groups

/-- Requests of one connection, sorted by the node that they go to. -/
lemma sum_countP_filter (l : List (Request n)) (c : ℕ) :
    ∑ b, ((l.filter (·.node = b)).countP (·.conn = c)) = l.countP (·.conn = c) := by
  induction l with
  | nil => simp
  | cons r l ih =>
      have hone : ∀ b, (((r :: l).filter (·.node = b)).countP (·.conn = c)) =
          ((l.filter (·.node = b)).countP (·.conn = c)) +
            if r.node = b then (if r.conn = c then 1 else 0) else 0 := by
        intro b
        by_cases hb : r.node = b <;> by_cases hc : r.conn = c <;> simp [hb, hc]
      rw [Finset.sum_congr rfl fun b _ => hone b, Finset.sum_add_distrib, ih,
        Finset.sum_ite_eq, if_pos (Finset.mem_univ _), List.countP_cons]
      simp

lemma Answered.of_quiet (hquiet : Quiet nbcore s) (hgood : s.Good requests) :
    Answered requests s := by
  intro a c
  rw [← sum_countP_filter]
  refine Finset.sum_congr rfl fun b _ => ?_
  rw [← (hquiet.answers hgood a b).1, List.countP_map]
  refine List.countP_congr fun x hx => ?_
  simp [(hgood.links a b).conns x hx]

/-- What the interconnectors promise about the allocations of a run: no wrong answer at any
time, and every answer in the end. -/
def Promise (nbcore : ℤ) (requests : Fin n → List (Request n)) (s : State n) : Prop :=
  Sound requests s ∧ (Quiet nbcore s → Answered requests s)

/-- **Allocation answers.** -/
theorem allocation_answers {as : List (Action n)}
    (hrun : Transition.run (step nbcore) (State.start requests) as = some s)
    (hclean : Transition.Along (step nbcore) Clean (State.start requests) as) :
    Promise nbcore requests s ∧ as.length ≤ 17 * ∑ a, (requests a).length := by
  have hgood : s.Good requests := by
    refine Transition.run_invariant_along (I := fun s => s.Good requests)
      (fun s act t hs hclean hstep => hs.preserved hstep hclean) ?_ hclean hrun
    exact State.good_start requests
  refine ⟨⟨.of_good hgood, fun hquiet => .of_quiet hquiet hgood⟩, ?_⟩
  have hlength := Transition.run_length_add_le (P := fun _ _ => True) (I := fun _ => True)
    (f := State.work) (fun s act t _ _ hstep => ⟨trivial, work_step hstep⟩) trivial
    (Transition.along_of_forall fun _ _ _ => trivial) hrun
  rw [work_start] at hlength
  omega

/-! ## One allocation, with success and with failure -/

/-- The node of the client, and the node on which it asks for an object. -/
abbrev clientNode : Fin 2 := ⟨0, Nat.zero_lt_two⟩

abbrev objectNode : Fin 2 := ⟨1, Nat.one_lt_two⟩

/-- One client that asks for an object on the other node. -/
def oneClient : Fin 2 → List (Request 2) :=
  Function.update (fun _ => []) clientNode [⟨7, ['C'], ['/', 'c'], objectNode, -1, by decide⟩]

/-- The steps up to the point where the object of this client runs. -/
def launching : List (Action 2) :=
  [.take clientNode, .record clientNode, .command clientNode clientNode,
    .command objectNode clientNode, .wake objectNode, .receiveId objectNode clientNode,
    .receivePart objectNode, .receivePart objectNode, .receivePart objectNode,
    .receivePart objectNode, .receivePart objectNode, .fork objectNode]

def answering : List (Action 2) :=
  [.report objectNode true, .command clientNode objectNode, .receiveLength clientNode,
    .receiveAddress clientNode, .sent objectNode]

theorem allocation_answers_oneClient : ∃ s,
    Transition.run (step 4) (State.start oneClient) (launching ++ answering) = some s ∧
      Quiet 4 s ∧ Promise 4 oneClient s := by
  have hend : ((Transition.run (step 4) (State.start oneClient) (launching ++ answering)).map
      fun s => decide (Quiet 4 s)) = some true := by decide +kernel
  obtain ⟨s, hs, hquiet⟩ := Option.map_eq_some_iff.mp hend
  exact ⟨s, hs, of_decide_eq_true hquiet, (allocation_answers hs (by decide +kernel)).1⟩

/-- When the object reports failure the interconnectors come to rest with nothing sent to the
connection. -/
theorem allocation_unanswered : ¬∀ (n : ℕ) (nbcore : ℤ) (requests : Fin n → List (Request n))
    (as : List (Action n)) (s : State n),
    Transition.run (step nbcore) (State.start requests) as = some s →
      Promise nbcore requests s := by
  intro h
  have hend : ((Transition.run (step 4) (State.start oneClient)
      (launching ++ [.report 1 false])).map fun s => decide (Quiet 4 s ∧
        ∑ b, ((s.answers (0, b)).countP (·.conn = 7)) = 0)) = some true := by decide +kernel
  obtain ⟨s, hs, hbad⟩ := Option.map_eq_some_iff.mp hend
  obtain ⟨hquiet, hnone⟩ := of_decide_eq_true hbad
  have hanswered := (h 2 4 oneClient _ s hs).2 hquiet 0 7
  have hone : (oneClient 0).countP (·.conn = 7) = 1 := by decide
  rw [hnone, hone] at hanswered
  cases hanswered

end Interconnector.Allocation
