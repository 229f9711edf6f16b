/-
# The interconnectors move their links

`State.link` reads off what a node has under way of the allocations it asks of another.  In
every step that meets `Clean`, each of these links stays as it is or makes one `Link.Step`, so
the invariant of a link becomes one of the whole system.  The other parts of the invariant are
about one thread at a time, but for one: the announcements that a node still has to act on are as
many as the identifiers it still has to take, over all nodes that sent them.
-/
import Mathlib.Algebra.Order.BigOperators.Group.Finset
import PopCpp.Interconnector.Link

namespace Interconnector.Allocation

variable {n : ℕ}

/-! ## What a thread holds for one other node -/

namespace Main

/-- The request whose entry the main thread is to make, if that asks `b`. -/
def recorded (b : Fin n) : Main n → List (Request n)
  | recording r => if r.node = b then [r] else []
  | _ => []

/-- The allocation that the main thread makes for `a`, with its identifier. -/
def held (a : Fin n) : Main n → List (Option ℤ × Request n)
  | gathering source id _ _ _ => if source = a then [(some id.value, id.owner)] else []
  | launched l => if l.source = a then [(l.allocId, l.owner)] else []
  | _ => []

/-- The part that the main thread still has to read from `a`. -/
def due (a : Fin n) (p : Part) : Main n → List (Request n)
  | gathering source id _ todo _ => if source = a ∧ p ∈ todo then [id.owner] else []
  | _ => []

end Main

namespace Receiver

/-- The identifier of the answer of `b` that the receive thread has in hand. -/
def held (b : Fin n) : Receiver n → List (Message n ℤ)
  | polling => []
  | awaitingLength node id => if node = b then [id] else []
  | awaitingAddress node id _ => if node = b then [id] else []

/-- The length of that answer, once it has been read. -/
def lengthHeld (b : Fin n) : Receiver n → List (Message n ℤ)
  | awaitingAddress node _ length => if node = b then [length] else []
  | _ => []

end Receiver

/-- The identifier of a command 15. -/
def answerId? (m : Message n Command) : Option (Message n ℤ) :=
  match m.value with
  | .answer id => some ⟨id, m.owner⟩
  | _ => none

@[simp] lemma answerId?_allocate (r : Request n) :
    answerId? (⟨.allocate, r⟩ : Message n Command) = none := by
  simp only [answerId?]

@[simp] lemma answerId?_unlock (r : Request n) :
    answerId? (⟨.unlock, r⟩ : Message n Command) = none := by
  simp only [answerId?]

@[simp] lemma answerId?_answer (id : ℤ) (r : Request n) :
    answerId? (⟨.answer id, r⟩ : Message n Command) = some ⟨id, r⟩ := by
  simp only [answerId?]

/-- What is under way of the allocations that `a` asks of `b`. -/
def State.link (s : State n) (a b : Fin n) : Link n where
  waiting := (s.inbox a).filter (·.node = b)
  recording := (s.main a).recorded b
  allocationId := s.allocationId a
  allocationReturn := s.allocationReturn a
  ids := s.ids (a, b)
  parts p := s.parts ((a, b), p)
  held := (s.main b).held a
  due p := (s.main b).due a p
  pending := (s.commands (b, a)).filterMap answerId?
  receiving := (s.receiver a).held b
  lengthHeld := (s.receiver a).lengthHeld b
  lengths := s.lengths (b, a)
  addresses := s.addresses (b, a)
  answers := s.answers (a, b)
  reports := s.reports (b, a)

/-- What the main thread of `b` knows where it stands. -/
def Main.Ok (b : Fin n) : Main n → Prop
  | gathering source id locals todo owners =>
      source ≠ b ∧ todo <:+ Part.order ∧ (∀ p, p ∉ todo → locals p = some (p.payload id.owner)) ∧
        ∀ r ∈ owners, r = id.owner
  | launched l =>
      (l.allocId = none ↔ l.source = b) ∧ l.objectname = l.owner.objectname ∧
        l.codefile = l.owner.codefile
  | recording r => r.node ≠ b
  | _ => True

/-- The main thread has been woken and waits for the identifier. -/
def Main.waits : Main n → ℕ
  | awaitingId => 1
  | _ => 0

/-- The announcements of allocations among the commands of one channel. -/
def announced (l : List (Message n Command)) : ℕ := l.countP (·.value = .allocate)

/-- How many allocations are announced to a node by commands that its receive thread has not
taken, and how many by identifiers that its main thread has not taken. -/
def State.announcing (s : State n) (b : Fin n) : ℕ := ∑ a, announced (s.commands (a, b))

/-- How many identifiers are on the way to the main thread of a node. -/
def State.identifying (s : State n) (b : Fin n) : ℕ := ∑ a, (s.ids (a, b)).length

/-- The invariant of the interconnectors. -/
structure State.Good (requests : Fin n → List (Request n)) (s : State n) : Prop where
  links : ∀ a b, (s.link a b).Ok ((requests a).filter (·.node = b))
  mains : ∀ b, (s.main b).Ok b
  none_to_self : ∀ a, s.ids (a, a) = [] ∧ s.addresses (a, a) = []
  /-- each announced allocation has its identifier on its way, and no other -/
  announcements : ∀ b, s.wakers b + (s.main b).waits + s.announcing b = s.identifying b
  groups : ∀ g ∈ s.groups, ∀ r ∈ g, ∀ r' ∈ g, r = r'
  objects : ∀ a b, ∀ x ∈ s.reports (b, a), x.1.objectname = x.1.owner.objectname ∧
    x.1.codefile = x.1.owner.codefile
  identifiers : ∀ a, 0 ≤ s.allocationId a

/-- An object that was launched for another node reports success. -/
def Main.Succeeds (ok : Bool) : Main n → Prop
  | launched l => l.allocId ≠ none → ok = true
  | _ => True

instance (ok : Bool) : ∀ m : Main n, Decidable (m.Succeeds ok)
  | .launched l => inferInstanceAs (Decidable (l.allocId ≠ none → ok = true))
  | .idle | .recording _ | .awaitingId | .gathering .. | .answering _ => isTrue trivial

/-- The answer in hand has its entry of `allocation_return`. -/
def Receiver.Noted (entries : ℤ → Option ℕ) : Receiver n → Prop
  | awaitingAddress _ id _ => entries id.value ≠ none
  | _ => True

instance (entries : ℤ → Option ℕ) : ∀ r : Receiver n, Decidable (r.Noted entries)
  | .awaitingAddress _ id _ => inferInstanceAs (Decidable (entries id.value ≠ none))
  | .polling | .awaitingLength .. => isTrue trivial

/-- The condition on a step: the counter of identifiers does not overflow, an object launched
for another node reports success, and an answer comes after its entry was made. -/
def Clean (s : State n) : Action n → Prop
  | .record a => s.allocationId a < 2 ^ 31 - 1
  | .report b ok => (s.main b).Succeeds ok
  | .receiveAddress a => (s.receiver a).Noted (s.allocationReturn a)
  | _ => True

instance (s : State n) : ∀ act, Decidable (Clean s act)
  | .record a => inferInstanceAs (Decidable (s.allocationId a < 2 ^ 31 - 1))
  | .report b ok => inferInstanceAs (Decidable ((s.main b).Succeeds ok))
  | .receiveAddress a => inferInstanceAs (Decidable ((s.receiver a).Noted (s.allocationReturn a)))
  | .take _ | .wake _ | .receiveId .. | .receivePart _ | .fork _ | .sent _ | .command ..
  | .receiveLength _ => isTrue trivial

/-! ## What each step does -/

variable {nbcore : ℤ} {s t : State n} {requests : Fin n → List (Request n)} {a b : Fin n}

/-- The main thread takes a request of its node, and sends it on or launches the object itself. -/
lemma step_take (h : step nbcore s (.take a) = some t) : ∃ r rest,
    s.main a = .idle ∧ s.inbox a = r :: rest ∧
      t = if r.node ≠ a then
          ({ s with inbox := Function.update s.inbox a rest } : State n).sendAllocation a r
        else ({ s with inbox := Function.update s.inbox a rest } : State n).launch nbcore a a none
          r.objectname r.codefile r.usercore r := by
  simp only [step] at h
  split at h
  · next r rest hmain hinbox => exact ⟨r, rest, hmain, hinbox, (Option.some.inj h).symm⟩
  · cases h

/-- The main thread notes who waits for the allocation, under its identifier. -/
lemma step_record (h : step nbcore s (.record a) = some t) : ∃ r, s.main a = .recording r ∧
    t = { s.setMain a .idle with
      allocationReturn := Function.update s.allocationReturn a
        (Function.update (s.allocationReturn a) (s.allocationId a) (some r.conn))
      allocationId := Function.update s.allocationId a (CInt.wrap (s.allocationId a + 1)) } := by
  simp only [step] at h
  split at h
  · next r hmain => exact ⟨r, hmain, (Option.some.inj h).symm⟩
  · cases h

/-- The main thread is woken by an announcement. -/
lemma step_wake (h : step nbcore s (.wake b) = some t) : ∃ k, s.main b = .idle ∧
    s.wakers b = k + 1 ∧
      t = { s.setMain b .awaitingId with wakers := Function.update s.wakers b k } := by
  simp only [step] at h
  split at h
  · next k hmain hwakers => exact ⟨k, hmain, hwakers, (Option.some.inj h).symm⟩
  · cases h

/-- The main thread reads an identifier, from any node that has sent one. -/
lemma step_receiveId (h : step nbcore s (.receiveId b a) = some t) : ∃ m rest,
    s.main b = .awaitingId ∧ s.ids (a, b) = m :: rest ∧
      t = { s.setMain b (.gathering a m (fun _ => none) Part.order [m.owner]) with
        ids := Function.update s.ids (a, b) rest } := by
  simp only [step] at h
  split at h
  · next m rest hmain hids => exact ⟨m, rest, hmain, hids, (Option.some.inj h).symm⟩
  · cases h

/-- The main thread reads the next part of the allocation, in the fixed order. -/
lemma step_receivePart (h : step nbcore s (.receivePart b) = some t) :
    ∃ a id locals p todo owners m rest, s.main b = .gathering a id locals (p :: todo) owners ∧
      s.parts ((a, b), p) = m :: rest ∧
      t = { s.setMain b (.gathering a id (Function.update locals p (some m.value)) todo
          (m.owner :: owners)) with
        parts := Function.update s.parts ((a, b), p) rest } := by
  simp only [step] at h
  split at h
  · next a id locals p todo owners hmain =>
      split at h
      · next m rest hparts =>
          split at h
          · exact ⟨a, id, locals, p, todo, owners, m, rest, hmain, hparts,
              (Option.some.inj h).symm⟩
          · cases h
      · cases h
  · cases h

/-- All parts are read, and the object is launched. -/
lemma step_fork (h : step nbcore s (.fork b) = some t) :
    ∃ a id locals owners objectname codefile usercore,
      s.main b = .gathering a id locals [] owners ∧
      locals .objectname = some (.chars objectname) ∧ locals .codefile = some (.chars codefile) ∧
      t = ({ s with groups := owners :: s.groups } : State n).launch nbcore b a (some id.value)
        objectname codefile usercore id.owner := by
  simp only [step] at h
  split at h
  · next a id locals owners hmain =>
      split at h
      · next o c u ho hc _ =>
          exact ⟨a, id, locals, owners, o, c, u, hmain, ho, hc, (Option.some.inj h).symm⟩
      · cases h
  · cases h

lemma step_report {ok : Bool} (h : step nbcore s (.report b ok) = some t) : ∃ l,
    s.main b = .launched l ∧ t = s.report b l ok := by
  simp only [step] at h
  split at h
  · next l hmain => exact ⟨l, hmain, (Option.some.inj h).symm⟩
  · cases h

lemma step_sent (h : step nbcore s (.sent b) = some t) : ∃ source,
    s.main b = .answering source ∧ t = s.setMain b .idle := by
  simp only [step] at h
  split at h
  · next source hmain =>
      split at h
      · exact ⟨source, hmain, (Option.some.inj h).symm⟩
      · cases h
  · cases h

/-- The receive thread takes a command and obeys it. -/
lemma step_command (h : step nbcore s (.command b a) = some t) : ∃ m rest,
    s.receiver b = .polling ∧ s.commands (a, b) = m :: rest ∧
      t = ({ s with commands := Function.update s.commands (a, b) rest } : State n).obey b a m := by
  simp only [step] at h
  split at h
  · next m rest hreceiver hcommands =>
      exact ⟨m, rest, hreceiver, hcommands, (Option.some.inj h).symm⟩
  · cases h

lemma step_receiveLength (h : step nbcore s (.receiveLength a) = some t) : ∃ b id m rest,
    s.receiver a = .awaitingLength b id ∧ s.lengths (b, a) = m :: rest ∧
      t = { s.setReceiver a (.awaitingAddress b id m) with
        lengths := Function.update s.lengths (b, a) rest } := by
  simp only [step] at h
  split at h
  · next b id hreceiver =>
      split at h
      · next m rest hlengths =>
          exact ⟨b, id, m, rest, hreceiver, hlengths, (Option.some.inj h).symm⟩
      · cases h
  · cases h

/-- The receive thread reads the address and answers the client that its entry names. -/
lemma step_receiveAddress (h : step nbcore s (.receiveAddress a) = some t) :
    ∃ b id length m rest, s.receiver a = .awaitingAddress b id length ∧
      s.addresses (b, a) = m :: rest ∧
      t = (({ s with
        addresses := Function.update s.addresses (b, a) rest
        groups := [id.owner, length.owner, m.owner] :: s.groups } : State n).setReceiver a
          .polling).sendAnswer a b id m := by
  simp only [step] at h
  split at h
  · next b id length hreceiver =>
      split at h
      · next m rest haddresses =>
          split at h
          · exact ⟨b, id, length, m, rest, hreceiver, haddresses, (Option.some.inj h).symm⟩
          · cases h
      · cases h
  · cases h

/-- What only some of the steps change. -/
structure Frame (s t : State n) (act : Action n) : Prop where
  ids : (∀ a, act ≠ .take a) → (∀ b a, act ≠ .receiveId b a) → t.ids = s.ids
  addresses : (∀ b ok, act ≠ .report b ok) → (∀ a, act ≠ .receiveAddress a) →
    t.addresses = s.addresses
  groups : (∀ b, act ≠ .fork b) → (∀ a, act ≠ .receiveAddress a) → t.groups = s.groups
  reports : (∀ b ok, act ≠ .report b ok) → t.reports = s.reports

lemma Frame.of_step {act : Action n} (h : step nbcore s act = some t) : Frame s t act := by
  cases act with
  | take a =>
      obtain ⟨r, rest, -, -, rfl⟩ := step_take h
      refine ⟨fun htake _ => absurd rfl (htake a), fun _ _ => ?_, fun _ _ => ?_, fun _ => ?_⟩
      · split <;> rfl
      · split <;> rfl
      · split <;> rfl
  | record a =>
      obtain ⟨r, -, rfl⟩ := step_record h
      exact ⟨fun _ _ => rfl, fun _ _ => rfl, fun _ _ => rfl, fun _ => rfl⟩
  | wake b =>
      obtain ⟨k, -, -, rfl⟩ := step_wake h
      exact ⟨fun _ _ => rfl, fun _ _ => rfl, fun _ _ => rfl, fun _ => rfl⟩
  | receiveId b a =>
      obtain ⟨m, rest, -, -, rfl⟩ := step_receiveId h
      exact ⟨fun _ hid => absurd rfl (hid b a), fun _ _ => rfl, fun _ _ => rfl, fun _ => rfl⟩
  | receivePart b =>
      obtain ⟨a, id, locals, p, todo, owners, m, rest, -, -, rfl⟩ := step_receivePart h
      exact ⟨fun _ _ => rfl, fun _ _ => rfl, fun _ _ => rfl, fun _ => rfl⟩
  | fork b =>
      obtain ⟨a, id, locals, owners, o, k, u, -, -, -, rfl⟩ := step_fork h
      exact ⟨fun _ _ => rfl, fun _ _ => rfl, fun hfork _ => absurd rfl (hfork b), fun _ => rfl⟩
  | report b ok =>
      obtain ⟨l, -, rfl⟩ := step_report h
      refine ⟨fun _ _ => ?_, fun hreport _ => absurd rfl (hreport b ok), fun _ _ => ?_,
        fun hreport => absurd rfl (hreport b ok)⟩
      · simp only [State.report]
        split <;> rfl
      · simp only [State.report]
        split <;> rfl
  | sent b =>
      obtain ⟨source, -, rfl⟩ := step_sent h
      exact ⟨fun _ _ => rfl, fun _ _ => rfl, fun _ _ => rfl, fun _ => rfl⟩
  | command b a =>
      obtain ⟨m, rest, -, -, rfl⟩ := step_command h
      simp only [State.obey]
      split <;> exact ⟨fun _ _ => rfl, fun _ _ => rfl, fun _ _ => rfl, fun _ => rfl⟩
  | receiveLength a =>
      obtain ⟨b, id, m, rest, -, -, rfl⟩ := step_receiveLength h
      exact ⟨fun _ _ => rfl, fun _ _ => rfl, fun _ _ => rfl, fun _ => rfl⟩
  | receiveAddress a =>
      obtain ⟨b, id, length, m, rest, -, -, rfl⟩ := step_receiveAddress h
      simp only [State.sendAnswer]
      split <;> exact ⟨fun _ _ => rfl, fun _ hlast => absurd rfl (hlast a),
        fun _ hlast => absurd rfl (hlast a), fun _ => rfl⟩

/-! ## Every step is invisible in a link or one of its own steps -/

section Links

variable (hgood : s.Good requests)

include hgood

/-- A request for `d` is on its way, or waits no more because the object is one of this node. -/
lemma link_take (h : step nbcore s (.take a) = some t) (c d : Fin n) :
    t.link c d = s.link c d ∨ (s.link c d).Step (t.link c d) := by
  obtain ⟨r, rest, hmain, hinbox, rfl⟩ := step_take h
  by_cases hr : r.node = a
  · -- served on this node: only the link from `a` to itself moves
    rw [if_neg (not_not.mpr hr)]
    by_cases hcd : c = a ∧ d = a
    · obtain ⟨rfl, rfl⟩ := hcd
      right
      have hids := (hgood.none_to_self d).1
      convert @Link.Step.launchLocal _ (s.link d d) r
        (rest.filter (·.node = d)) ?_ ?_ ?_ using 1
      · simp [State.link, State.launch, Main.held, Main.due, Main.recorded, hmain]
      · simp [State.link, hinbox, hr]
      · simp [State.link, hmain, Main.held]
      · simpa [State.link] using hids
    · left
      by_cases hc : c = a
      · have hd : d ≠ a := fun hd => hcd ⟨hc, hd⟩
        subst hc
        simp [State.link, State.launch, hmain, hinbox, Main.recorded, Function.update_of_ne hd,
          hr, hd.symm]
      · by_cases hd : d = a
        · subst hd
          simp [State.link, State.launch, hmain, Main.held, Main.due, Function.update_of_ne hc,
            Ne.symm hc]
        · simp [State.link, State.launch, Function.update_of_ne hc, Function.update_of_ne hd]
  · -- announced to another node: the link from `a` to that node moves
    rw [if_pos hr]
    have hheld := Mailbox.apply_update_of_eq (f := s.main) (i := a) (x := .recording r)
      (Main.held c) (by rw [hmain]; rfl)
    have hdue := fun p => Mailbox.apply_update_of_eq (f := s.main) (i := a) (x := .recording r)
      (Main.due c p) (by rw [hmain]; rfl)
    have hpending : ∀ k, List.filterMap answerId? (Mailbox.post (Mailbox.post s.commands (a, a)
        ⟨.unlock, r⟩) (a, r.node) ⟨.allocate, r⟩ k) = (s.commands k).filterMap answerId? := by
      intro k
      rw [Mailbox.filterMap_post (by rfl), Mailbox.filterMap_post (by rfl)]
    by_cases hc : c = a
    · subst hc
      by_cases hd : d = r.node
      · subst hd
        right
        convert @Link.Step.announce _ (s.link c r.node) r
          (rest.filter (·.node = r.node)) ?_ ?_ using 1
        · simp [State.link, State.sendAllocation, State.postCommand, Main.recorded,
            Part.message, hheld, hdue, hpending]
        · simp [State.link, hinbox]
        · simp [State.link, hmain, Main.recorded]
      · left
        simp [State.link, State.sendAllocation, State.postCommand, Main.recorded, hmain, hinbox,
          Ne.symm hd, hd, hheld, hdue, hpending]
    · left
      simp [State.link, State.sendAllocation, State.postCommand, hc, hheld, hdue, hpending]

/-- The counter does not overflow, so that no other allocation has this identifier. -/
lemma link_record (h : step nbcore s (.record a) = some t) (hclean : Clean s (.record a))
    (c d : Fin n) : t.link c d = s.link c d ∨ (s.link c d).Step (t.link c d) := by
  obtain ⟨r, hmain, rfl⟩ := step_record h
  have hnext : CInt.wrap (s.allocationId a + 1) = s.allocationId a + 1 := by
    refine CInt.wrap_eq_self ?_
    have hlow := hgood.identifiers a
    have hhigh : s.allocationId a < 2 ^ 31 - 1 := hclean
    simp only [CInt.Fits]
    omega
  by_cases hc : c = a
  · subst hc
    right
    convert @Link.Step.record _ (s.link c d) r.conn ?_ using 1
    · by_cases hd : d = c
      · subst hd
        simp [State.link, State.setMain, hnext, Main.recorded, Main.held, Main.due, hmain]
      · simp [State.link, State.setMain, hnext, Main.recorded, Function.update_of_ne hd]
    · intro r' hr'
      simp only [State.link, hmain, Main.recorded] at hr'
      split at hr'
      · rw [List.mem_singleton.mp hr']
      · exact absurd hr' List.not_mem_nil
  · left
    by_cases hd : d = a
    · subst hd
      simp [State.link, State.setMain, Main.held, Main.due, hmain, Function.update_of_ne hc]
    · simp [State.link, State.setMain, Function.update_of_ne hc, Function.update_of_ne hd]

omit hgood in
lemma link_wake (h : step nbcore s (.wake b) = some t) (c d : Fin n) : t.link c d = s.link c d := by
  obtain ⟨k, hmain, -, rfl⟩ := step_wake h
  have hheld := Mailbox.apply_update_of_eq (f := s.main) (i := b) (x := .awaitingId)
    (Main.held c) (by rw [hmain]; rfl)
  have hdue := fun p => Mailbox.apply_update_of_eq (f := s.main) (i := b) (x := .awaitingId)
    (Main.due c p) (by rw [hmain]; rfl)
  have hrecorded := Mailbox.apply_update_of_eq (f := s.main) (i := b) (x := .awaitingId)
    (Main.recorded d) (by rw [hmain]; rfl)
  simp [State.link, State.setMain, hheld, hdue, hrecorded]

omit hgood in
lemma link_receiveId (h : step nbcore s (.receiveId b a) = some t) (c d : Fin n) :
    t.link c d = s.link c d ∨ (s.link c d).Step (t.link c d) := by
  obtain ⟨m, rest, hmain, hids, rfl⟩ := step_receiveId h
  have hrecorded := Mailbox.apply_update_of_eq (f := s.main) (i := b)
    (x := .gathering a m (fun _ => none) Part.order [m.owner]) (Main.recorded d)
    (by rw [hmain]; rfl)
  have horder : ∀ p, p ∈ Part.order := fun p => by cases p <;> decide
  by_cases hcd : c = a ∧ d = b
  · obtain ⟨rfl, rfl⟩ := hcd
    right
    convert @Link.Step.receiveId _ (s.link c d) m rest ?_ ?_ ?_ using 1
    · simp [State.link, State.setMain, hrecorded, Main.held, Main.due, horder]
    · simpa [State.link] using hids
    · simp [State.link, hmain, Main.held]
    · simp [State.link, hmain, Main.due]
  · left
    by_cases hd : d = b
    · subst hd
      have hca : ¬a = c := fun hca => hcd ⟨hca.symm, rfl⟩
      simp [State.link, State.setMain, hrecorded, Main.held, Main.due, hmain, hca, Ne.symm hca]
    · simp [State.link, State.setMain, hrecorded, hd]

/-- The part read is the first of its queue, which is that of the allocation in hand. -/
lemma link_receivePart (h : step nbcore s (.receivePart b) = some t) (c d : Fin n) :
    t.link c d = s.link c d ∨ (s.link c d).Step (t.link c d) := by
  obtain ⟨a, id, locals, p, todo, owners, m, rest, hmain, hparts, rfl⟩ := step_receivePart h
  have hok : (s.main b).Ok b := hgood.mains b
  rw [hmain] at hok
  obtain ⟨-, hsuffix, -, -⟩ := hok
  -- a part occurs once in the order, so it is not due any more once it is taken
  have hp : p ∉ todo := by
    have hnodup : (p :: todo).Nodup := hsuffix.sublist.nodup (by decide)
    exact (List.nodup_cons.mp hnodup).1
  have hrecorded := Mailbox.apply_update_of_eq (f := s.main) (i := b)
    (x := .gathering a id (Function.update locals p (some m.value)) todo (m.owner :: owners))
    (Main.recorded d) (by rw [hmain]; rfl)
  have hheld := Mailbox.apply_update_of_eq (f := s.main) (i := b)
    (x := .gathering a id (Function.update locals p (some m.value)) todo (m.owner :: owners))
    (Main.held c) (by rw [hmain]; rfl)
  by_cases hcd : c = a ∧ d = b
  · obtain ⟨rfl, rfl⟩ := hcd
    right
    convert @Link.Step.receivePart _ (s.link c d) p m rest id.owner ?_ ?_ using 1
    · have hdue : (fun q => Main.due c q (.gathering c id (Function.update locals p (some m.value))
          todo (m.owner :: owners))) =
          Function.update (fun q => (s.main d).due c q) p [] := by
        ext1 q
        by_cases hq : q = p
        · subst hq
          simp [Main.due, hp]
        · simp [Main.due, hmain, hq]
      have hpart : (fun q => Function.update s.parts ((c, d), p) rest ((c, d), q)) =
          Function.update (fun q => s.parts ((c, d), q)) p rest := by
        ext1 q
        by_cases hq : q = p
        · subst hq
          simp
        · simp [hq]
      have hself : (Main.gathering c id (Function.update locals p (some m.value)) todo
          (m.owner :: owners)).held c = (s.main d).held c := by
        rw [hmain]
        rfl
      simp [State.link, State.setMain, hrecorded, hself, hdue, hpart]
    · simp [State.link, hmain, Main.due]
    · exact hparts
  · left
    have hpart : ∀ q, Function.update s.parts ((a, b), p) rest ((c, d), q) =
        s.parts ((c, d), q) := by
      intro q
      refine Function.update_of_ne ?_ ..
      simp only [ne_eq, Prod.mk.injEq]
      tauto
    have hdue : ∀ q, (Function.update s.main b (.gathering a id
        (Function.update locals p (some m.value)) todo (m.owner :: owners)) d).due c q =
        (s.main d).due c q := by
      intro q
      by_cases hd : d = b
      · subst hd
        have hca : ¬a = c := fun hca => hcd ⟨hca.symm, rfl⟩
        simp [Main.due, hmain, hca]
      · rw [Function.update_of_ne hd]
    simp [State.link, State.setMain, hrecorded, hheld, hdue, hpart]

omit hgood in
lemma link_fork (h : step nbcore s (.fork b) = some t) (c d : Fin n) : t.link c d = s.link c d := by
  obtain ⟨a, id, locals, owners, o, k, u, hmain, -, -, rfl⟩ := step_fork h
  by_cases hd : d = b
  · subst hd
    by_cases hc : c = d
    · subst hc
      simp [State.link, State.launch, hmain, Main.held, Main.due, Main.recorded]
    · simp [State.link, State.launch, hmain, Main.held, Main.due, Function.update_of_ne hc]
  · by_cases hc : c = b
    · subst hc
      simp [State.link, State.launch, hmain, Main.recorded, Function.update_of_ne hd]
    · simp [State.link, State.launch, Function.update_of_ne hc, Function.update_of_ne hd]

omit hgood in
lemma link_sent (h : step nbcore s (.sent b) = some t) (c d : Fin n) : t.link c d = s.link c d := by
  obtain ⟨source, hmain, rfl⟩ := step_sent h
  have hheld := Mailbox.apply_update_of_eq (f := s.main) (i := b) (x := .idle)
    (Main.held c) (by rw [hmain]; rfl)
  have hdue := fun p => Mailbox.apply_update_of_eq (f := s.main) (i := b) (x := .idle)
    (Main.due c p) (by rw [hmain]; rfl)
  have hrecorded := Mailbox.apply_update_of_eq (f := s.main) (i := b) (x := .idle)
    (Main.recorded d) (by rw [hmain]; rfl)
  simp [State.link, State.setMain, hheld, hdue, hrecorded]

/-- The object has succeeded, so that its node answers. -/
lemma link_report {ok : Bool} (h : step nbcore s (.report b ok) = some t)
    (hclean : Clean s (.report b ok)) (c d : Fin n) :
    t.link c d = s.link c d ∨ (s.link c d).Step (t.link c d) := by
  obtain ⟨l, hmain, rfl⟩ := step_report h
  have hok : (s.main b).Ok b := hgood.mains b
  rw [hmain] at hok
  obtain ⟨hlocal, -, -⟩ := hok
  cases hid : l.allocId with
  | none =>
      -- a launch without an identifier was asked for on this node
      have hsource : l.source = b := hlocal.mp hid
      have hrecorded := Mailbox.apply_update_of_eq (f := s.main) (i := b) (x := .idle)
        (Main.recorded d) (by rw [hmain]; rfl)
      have hdue := fun p => Mailbox.apply_update_of_eq (f := s.main) (i := b) (x := .idle)
        (Main.due c p) (by rw [hmain]; rfl)
      by_cases hcd : c = b ∧ d = b
      · obtain ⟨rfl, rfl⟩ := hcd
        right
        convert @Link.Step.reportLocal _ (s.link d d) l ok ?_ ?_ using 1
        · have hdue : (fun p => Main.due d p .idle) = fun p => (s.main d).due d p := by
            rw [hmain]
            rfl
          have hself : Main.recorded d .idle = (s.main d).recorded d := by
            rw [hmain]
            rfl
          simp [State.link, State.report, State.setMain, hid, hsource, hself, hdue, Main.held]
        · simp [State.link, hmain, Main.held, hsource, hid]
        · exact (hgood.none_to_self d).2
      · left
        have hkey : ((d, c) : Fin n × Fin n) ≠ (b, b) := by
          simp only [ne_eq, Prod.mk.injEq]
          tauto
        have hkey' : ((c, d) : Fin n × Fin n) ≠ (b, b) := by
          simp only [ne_eq, Prod.mk.injEq]
          tauto
        have hheld : (Function.update s.main b .idle d).held c = (s.main d).held c := by
          by_cases hd : d = b
          · subst hd
            have hc : ¬d = c := fun hc => hcd ⟨hc.symm, rfl⟩
            simp [Main.held, hmain, hsource, hc]
          · rw [Function.update_of_ne hd]
        simp [State.link, State.report, State.setMain, hid, hsource, hrecorded, hdue, hheld,
          Mailbox.post_of_ne hkey, Mailbox.post_of_ne hkey']
  | some id =>
      -- a launch with an identifier is answered to another node, and `Clean` makes it succeed
      have hne : l.source ≠ b := fun hs => by
        rw [hlocal.mpr hs] at hid
        cases hid
      obtain rfl : ok = true := by
        have hreport : (s.main b).Succeeds ok := hclean
        rw [hmain] at hreport
        exact hreport (by rw [hid]; exact Option.some_ne_none _)
      have hrecorded := Mailbox.apply_update_of_eq (f := s.main) (i := b)
        (x := .answering l.source) (Main.recorded d) (by rw [hmain]; rfl)
      have hdue := fun p => Mailbox.apply_update_of_eq (f := s.main) (i := b)
        (x := .answering l.source) (Main.due c p) (by rw [hmain]; rfl)
      by_cases hcd : c = l.source ∧ d = b
      · obtain ⟨rfl, rfl⟩ := hcd
        right
        convert @Link.Step.report _ (s.link l.source d) l id ?_ using 1
        · have hself : (fun p => Main.due l.source p (.answering l.source)) =
              fun p => (s.main d).due l.source p := by
            rw [hmain]
            rfl
          simp [State.link, State.report, State.setMain, State.postCommand, hid, hrecorded,
            hself, Main.held, lengthMessage]
        · simp [State.link, hmain, Main.held, hid]
      · left
        have hkey : ((d, c) : Fin n × Fin n) ≠ (b, l.source) := by
          simp only [ne_eq, Prod.mk.injEq]
          tauto
        have hheld : (Function.update s.main b (.answering l.source) d).held c =
            (s.main d).held c := by
          by_cases hd : d = b
          · subst hd
            have hc : ¬l.source = c := fun hc => hcd ⟨hc.symm, rfl⟩
            simp [Main.held, hmain, hc]
          · rw [Function.update_of_ne hd]
        simp [State.link, State.report, State.setMain, State.postCommand, hid, hrecorded, hdue,
          hheld, Mailbox.post_of_ne hkey]

omit hgood in
lemma link_command (h : step nbcore s (.command b a) = some t) (c d : Fin n) :
    t.link c d = s.link c d ∨ (s.link c d).Step (t.link c d) := by
  obtain ⟨m, rest, hreceiver, hcommands, rfl⟩ := step_command h
  obtain ⟨k, r⟩ := m
  have hkeep : answerId? ⟨k, r⟩ = none → ((Function.update s.commands (a, b) rest) (d, c)).filterMap
      answerId? = (s.commands (d, c)).filterMap answerId? := by
    intro hnone
    refine Mailbox.apply_update_of_eq (List.filterMap answerId?) ?_ (d, c)
    rw [hcommands, List.filterMap_cons_none hnone]
  cases k with
  | allocate =>
      left
      simp [State.link, State.obey, hkeep]
  | unlock =>
      left
      simp [State.link, State.obey, hkeep]
  | answer id =>
      have hlength := Mailbox.apply_update_of_eq (f := s.receiver) (i := b)
        (x := .awaitingLength a ⟨id, r⟩) (Receiver.lengthHeld d) (by rw [hreceiver]; rfl)
      by_cases hcd : c = b ∧ d = a
      · obtain ⟨rfl, rfl⟩ := hcd
        right
        convert @Link.Step.answer _ (s.link c d) ⟨id, r⟩
          (rest.filterMap answerId?) ?_ ?_ using 1
        · simp [State.link, State.obey, State.setReceiver, Receiver.held, Receiver.lengthHeld,
            hreceiver]
        · simp [State.link, hcommands]
        · simp [State.link, hreceiver, Receiver.held]
      · left
        have hkey : ((d, c) : Fin n × Fin n) ≠ (a, b) := by
          simp only [ne_eq, Prod.mk.injEq]
          tauto
        have hheld : (Function.update s.receiver b (.awaitingLength a ⟨id, r⟩) c).held d =
            (s.receiver c).held d := by
          by_cases hc : c = b
          · subst hc
            have hd : ¬a = d := fun hd => hcd ⟨rfl, hd.symm⟩
            simp [Receiver.held, hreceiver, hd]
          · rw [Function.update_of_ne hc]
        simp [State.link, State.obey, State.setReceiver, hlength, hheld, hkey]

omit hgood in
lemma link_receiveLength (h : step nbcore s (.receiveLength a) = some t) (c d : Fin n) :
    t.link c d = s.link c d ∨ (s.link c d).Step (t.link c d) := by
  obtain ⟨b, id, m, rest, hreceiver, hlengths, rfl⟩ := step_receiveLength h
  have hheld := Mailbox.apply_update_of_eq (f := s.receiver) (i := a)
    (x := .awaitingAddress b id m) (Receiver.held d) (by rw [hreceiver]; rfl)
  by_cases hcd : c = a ∧ d = b
  · obtain ⟨rfl, rfl⟩ := hcd
    right
    convert @Link.Step.receiveLength _ (s.link c d) m rest hlengths ?_ using 1
    · have hself : (Receiver.awaitingAddress d id m).held d = (s.receiver c).held d := by
        rw [hreceiver]
        rfl
      simp [State.link, State.setReceiver, hself, Receiver.lengthHeld]
    · simp [State.link, hreceiver, Receiver.lengthHeld]
  · left
    have hkey : ((d, c) : Fin n × Fin n) ≠ (b, a) := by
      simp only [ne_eq, Prod.mk.injEq]
      tauto
    have hlength : (Function.update s.receiver a (.awaitingAddress b id m) c).lengthHeld d =
        (s.receiver c).lengthHeld d := by
      by_cases hc : c = a
      · subst hc
        have hd : ¬b = d := fun hd => hcd ⟨rfl, hd.symm⟩
        simp [Receiver.lengthHeld, hreceiver, hd]
      · rw [Function.update_of_ne hc]
    simp [State.link, State.setReceiver, hheld, hlength, hkey]

omit hgood in
/-- The entry has been made, so that the answer finds the client that waits. -/
lemma link_receiveAddress (h : step nbcore s (.receiveAddress a) = some t)
    (hclean : Clean s (.receiveAddress a)) (c d : Fin n) :
    t.link c d = s.link c d ∨ (s.link c d).Step (t.link c d) := by
  obtain ⟨b, id, length, m, rest, hreceiver, haddresses, rfl⟩ := step_receiveAddress h
  have hnoted : (s.receiver a).Noted (s.allocationReturn a) := hclean
  rw [hreceiver] at hnoted
  obtain ⟨conn, hconn⟩ := Option.ne_none_iff_exists'.mp hnoted
  by_cases hcd : c = a ∧ d = b
  · obtain ⟨rfl, rfl⟩ := hcd
    right
    convert @Link.Step.receiveAddress _ (s.link c d) id length m rest conn ?_ ?_ haddresses
      hconn using 1
    · simp [State.link, State.setReceiver, State.sendAnswer, hconn, Receiver.held,
        Receiver.lengthHeld]
    · simp [State.link, hreceiver, Receiver.held]
    · simp [State.link, hreceiver, Receiver.lengthHeld]
  · left
    have hkey : ((d, c) : Fin n × Fin n) ≠ (b, a) := by
      simp only [ne_eq, Prod.mk.injEq]
      tauto
    have hkey' : ((c, d) : Fin n × Fin n) ≠ (a, b) := by
      simp only [ne_eq, Prod.mk.injEq]
      tauto
    have hheld : (Function.update s.receiver a .polling c).held d = (s.receiver c).held d ∧
        (Function.update s.receiver a .polling c).lengthHeld d = (s.receiver c).lengthHeld d := by
      by_cases hc : c = a
      · subst hc
        have hd : ¬b = d := fun hd => hcd ⟨rfl, hd.symm⟩
        simp [Receiver.held, Receiver.lengthHeld, hreceiver, hd]
      · rw [Function.update_of_ne hc]
        exact ⟨rfl, rfl⟩
    simp [State.link, State.setReceiver, State.sendAnswer, hconn, hheld, hkey,
      Mailbox.post_of_ne hkey']

/-- **One step, one link.** -/
theorem step_link {act : Action n} (h : step nbcore s act = some t) (hclean : Clean s act)
    (c d : Fin n) : t.link c d = s.link c d ∨ (s.link c d).Step (t.link c d) := by
  cases act with
  | take a => exact link_take hgood h c d
  | record a => exact link_record hgood h hclean c d
  | wake b => exact .inl (link_wake h c d)
  | receiveId b a => exact link_receiveId h c d
  | receivePart b => exact link_receivePart hgood h c d
  | fork b => exact .inl (link_fork h c d)
  | report b ok => exact link_report hgood h hclean c d
  | sent b => exact .inl (link_sent h c d)
  | command b a => exact link_command h c d
  | receiveLength a => exact link_receiveLength h c d
  | receiveAddress a => exact link_receiveAddress h hclean c d

/-! ## What one step keeps -/

/-- The main threads keep knowing where they stand. -/
lemma mains_step {act : Action n} (h : step nbcore s act = some t) (d : Fin n) :
    (t.main d).Ok d := by
  have hupdate : ∀ {b m}, m.Ok b → (Function.update s.main b m d).Ok d := by
    intro b m hm
    by_cases hd : d = b
    · subst hd
      rwa [Function.update_self]
    · rw [Function.update_of_ne hd]
      exact hgood.mains d
  cases act with
  | take a =>
      obtain ⟨r, rest, hmain, -, rfl⟩ := step_take h
      split
      · next hr => exact hupdate hr
      · exact hupdate ⟨by simp, rfl, rfl⟩
  | record a =>
      obtain ⟨r, hmain, rfl⟩ := step_record h
      exact hupdate trivial
  | wake b =>
      obtain ⟨k, hmain, -, rfl⟩ := step_wake h
      exact hupdate trivial
  | receiveId b a =>
      obtain ⟨m, rest, hmain, hids, rfl⟩ := step_receiveId h
      refine hupdate ⟨?_, List.suffix_refl _, fun p hp => ?_, fun r hr => List.mem_singleton.mp hr⟩
      · rintro rfl
        rw [(hgood.none_to_self a).1] at hids
        cases hids
      · exact absurd (by cases p <;> decide) hp
  | receivePart b =>
      obtain ⟨a, id, locals, p, todo, owners, m, rest, hmain, hparts, rfl⟩ := step_receivePart h
      have hok : (s.main b).Ok b := hgood.mains b
      rw [hmain] at hok
      obtain ⟨hne, hsuffix, hlocals, howners⟩ := hok
      -- the message at the head is the one that the request in hand sent
      have hm : m = p.message id.owner := by
        obtain ⟨rest', hhead⟩ := (hgood.links a b).head_part (p := p) (r := id.owner)
          (by simp [State.link, hmain, Main.due])
        exact (List.cons.inj (hparts.symm.trans hhead)).1
      refine hupdate ⟨hne, (List.suffix_cons p todo).trans hsuffix, fun q hq => ?_, fun r hr => ?_⟩
      · by_cases hqp : q = p
        · subst hqp
          rw [Function.update_self, hm]
          rfl
        · rw [Function.update_of_ne hqp]
          exact hlocals q (by simp [hqp, hq])
      · rcases List.mem_cons.mp hr with rfl | hr
        · rw [hm]
          rfl
        · exact howners r hr
  | fork b =>
      obtain ⟨a, id, locals, owners, o, c, u, hmain, ho, hc, rfl⟩ := step_fork h
      have hok : (s.main b).Ok b := hgood.mains b
      rw [hmain] at hok
      obtain ⟨hne, -, hlocals, -⟩ := hok
      have ho' := Option.some.inj (ho.symm.trans (hlocals .objectname List.not_mem_nil))
      have hc' := Option.some.inj (hc.symm.trans (hlocals .codefile List.not_mem_nil))
      exact hupdate ⟨iff_of_false (Option.some_ne_none _) hne, Payload.chars.inj ho',
        Payload.chars.inj hc'⟩
  | report b ok =>
      obtain ⟨l, hmain, rfl⟩ := step_report h
      simp only [State.report]
      split <;> exact hupdate trivial
  | sent b =>
      obtain ⟨source, hmain, rfl⟩ := step_sent h
      exact hupdate trivial
  | command b a =>
      obtain ⟨m, rest, -, -, rfl⟩ := step_command h
      simp only [State.obey]
      split <;> exact hgood.mains d
  | receiveLength a =>
      obtain ⟨b, id, m, rest, -, -, rfl⟩ := step_receiveLength h
      exact hgood.mains d
  | receiveAddress a =>
      obtain ⟨b, id, length, m, rest, -, -, rfl⟩ := step_receiveAddress h
      simp only [State.sendAnswer]
      split <;> exact hgood.mains d

/-- No node sends an identifier or an address to itself. -/
lemma none_to_self_step {act : Action n} (h : step nbcore s act = some t) (c : Fin n) :
    t.ids (c, c) = [] ∧ t.addresses (c, c) = [] := by
  obtain ⟨hids, haddresses⟩ := hgood.none_to_self c
  have hframe := Frame.of_step h
  cases act with
  | take a =>
      refine ⟨?_, by rw [hframe.addresses (by simp) (by simp), haddresses]⟩
      obtain ⟨r, rest, -, -, rfl⟩ := step_take h
      split
      · -- an allocation is announced to another node only
        next hr =>
          show Mailbox.post s.ids (a, r.node) _ (c, c) = []
          rw [Mailbox.post_of_ne, hids]
          simp only [ne_eq, Prod.mk.injEq, not_and]
          rintro rfl rfl
          exact hr rfl
      · exact hids
  | receiveId b a =>
      refine ⟨?_, by rw [hframe.addresses (by simp) (by simp), haddresses]⟩
      obtain ⟨m, rest, -, hm, rfl⟩ := step_receiveId h
      show Function.update s.ids (a, b) rest (c, c) = []
      rw [Function.update_of_ne, hids]
      simp only [ne_eq, Prod.mk.injEq, not_and]
      rintro rfl rfl
      rw [hids] at hm
      cases hm
  | report b ok =>
      refine ⟨by rw [hframe.ids (by simp) (by simp), hids], ?_⟩
      obtain ⟨l, hmain, rfl⟩ := step_report h
      have hok : (s.main b).Ok b := hgood.mains b
      rw [hmain] at hok
      simp only [State.report]
      split
      · exact haddresses
      · -- an address is sent back to another node only
        next _ _ id hid =>
          show Mailbox.post s.addresses (b, l.source) _ (c, c) = []
          rw [Mailbox.post_of_ne, haddresses]
          simp only [ne_eq, Prod.mk.injEq, not_and]
          rintro rfl hsource
          rw [hok.1.mpr hsource.symm] at hid
          cases hid
      · exact haddresses
  | receiveAddress a =>
      refine ⟨by rw [hframe.ids (by simp) (by simp), hids], ?_⟩
      obtain ⟨b, id, length, m, rest, -, hm, rfl⟩ := step_receiveAddress h
      have hrest : Function.update s.addresses (b, a) rest (c, c) = [] := by
        rw [Function.update_of_ne, haddresses]
        simp only [ne_eq, Prod.mk.injEq, not_and]
        rintro rfl rfl
        rw [haddresses] at hm
        cases hm
      simp only [State.sendAnswer]
      split <;> exact hrest
  | _ =>
      rw [hframe.ids (by simp) (by simp), hframe.addresses (by simp) (by simp)]
      exact ⟨hids, haddresses⟩

omit hgood in
lemma announced_of_ne {k : Command} (hk : k ≠ .allocate) (r : Request n)
    (l : List (Message n Command)) : announced (l ++ [⟨k, r⟩]) = announced l := by
  simp [announced, hk]

omit hgood in
lemma announcing_postCommand {k : Command} (hk : k ≠ .allocate) (r : Request n) (d : Fin n) :
    (s.postCommand a b k r).announcing d = s.announcing d := by
  have hsum := Mailbox.sum_fst_add announced (m := s.commands)
    (p := Mailbox.post s.commands (a, b) ⟨k, r⟩) (fun _ hne => Mailbox.post_of_ne hne _) d
  rw [Mailbox.post_self, announced_of_ne hk] at hsum
  exact Nat.add_right_cancel hsum

omit hgood in
lemma announcing_allocate (r : Request n) (d : Fin n) :
    (s.postCommand a b .allocate r).announcing d = s.announcing d + if d = b then 1 else 0 := by
  have hsum := Mailbox.sum_fst_add announced (m := s.commands)
    (p := Mailbox.post s.commands (a, b) ⟨.allocate, r⟩)
    (fun _ hne => Mailbox.post_of_ne hne _) d
  have hone : announced (s.commands (a, b) ++ [⟨.allocate, r⟩]) =
      announced (s.commands (a, b)) + 1 := by
    simp [announced]
  rw [Mailbox.post_self, hone] at hsum
  show ∑ c, announced (Mailbox.post s.commands (a, b) ⟨.allocate, r⟩ (c, d)) =
    ∑ c, announced (s.commands (c, d)) + _
  by_cases hd : d = b
  · rw [if_pos hd, if_pos hd] at hsum
    rw [if_pos hd]
    omega
  · rw [if_neg hd, if_neg hd] at hsum
    rw [if_neg hd]
    omega

/-- An announcement is posted together with the identifier, and each is taken once. -/
lemma announcements_step {act : Action n} (h : step nbcore s act = some t) (d : Fin n) :
    t.wakers d + (t.main d).waits + t.announcing d = t.identifying d := by
  have hold := hgood.announcements d
  have hwaits : ∀ {b m}, m.waits = (s.main b).waits →
      (Function.update s.main b m d).waits = (s.main d).waits :=
    fun hm => Mailbox.apply_update_of_eq Main.waits hm d
  -- an identifier is written with each `allocate`, and read after the wake-up it causes
  cases act with
  | take a =>
      obtain ⟨r, rest, hmain, -, rfl⟩ := step_take h
      split
      · have hids := Mailbox.sum_fst_add List.length (m := s.ids)
          (p := Mailbox.post s.ids (a, r.node) ⟨s.allocationId a, r⟩)
          (fun _ hne => Mailbox.post_of_ne hne _) d
        rw [Mailbox.post_self, List.length_append, List.length_singleton] at hids
        have hcommands : ((s.postCommand a a .unlock r).postCommand a r.node .allocate
            r).announcing d = s.announcing d + if d = r.node then 1 else 0 := by
          rw [announcing_allocate, announcing_postCommand (by simp)]
        show s.wakers d + (Function.update s.main a _ d).waits +
            ((s.postCommand a a .unlock r).postCommand a r.node .allocate r).announcing d =
          ∑ c, (Mailbox.post s.ids (a, r.node) ⟨s.allocationId a, r⟩ (c, d)).length
        rw [hwaits (by rw [hmain]; rfl), hcommands]
        simp only [State.identifying] at hold
        by_cases hd : d = r.node
        · rw [if_pos hd, if_pos hd] at hids
          rw [if_pos hd]
          omega
        · rw [if_neg hd, if_neg hd] at hids
          rw [if_neg hd]
          omega
      · show s.wakers d + (Function.update s.main a _ d).waits + s.announcing d = s.identifying d
        rw [hwaits (by rw [hmain]; rfl), hold]
  | record a =>
      obtain ⟨r, hmain, rfl⟩ := step_record h
      show s.wakers d + (Function.update s.main a _ d).waits + s.announcing d = s.identifying d
      rw [hwaits (by rw [hmain]; rfl), hold]
  | wake b =>
      obtain ⟨k, hmain, hwakers, rfl⟩ := step_wake h
      show Function.update s.wakers b k d + (Function.update s.main b .awaitingId d).waits +
        s.announcing d = s.identifying d
      by_cases hd : d = b
      · subst hd
        rw [hmain, hwakers] at hold
        rw [Function.update_self, Function.update_self, ← hold]
        simp only [Main.waits]
      · rw [Function.update_of_ne hd, Function.update_of_ne hd, hold]
  | receiveId b a =>
      obtain ⟨m, rest, hmain, hids, rfl⟩ := step_receiveId h
      have hsum := Mailbox.sum_fst_add List.length (m := s.ids)
        (p := Function.update s.ids (a, b) rest) (fun _ hne => Function.update_of_ne hne ..) d
      rw [Function.update_self, hids, List.length_cons] at hsum
      show s.wakers d + (Function.update s.main b _ d).waits + s.announcing d =
        ∑ c, (Function.update s.ids (a, b) rest (c, d)).length
      simp only [State.identifying] at hold
      by_cases hd : d = b
      · subst hd
        rw [hmain] at hold
        rw [if_pos rfl, if_pos rfl] at hsum
        rw [Function.update_self]
        simp only [Main.waits] at hold ⊢
        omega
      · rw [if_neg hd, if_neg hd] at hsum
        rw [Function.update_of_ne hd]
        omega
  | receivePart b =>
      obtain ⟨a, id, locals, p, todo, owners, m, rest, hmain, -, rfl⟩ := step_receivePart h
      show s.wakers d + (Function.update s.main b _ d).waits + s.announcing d = s.identifying d
      rw [hwaits (by rw [hmain]; rfl), hold]
  | fork b =>
      obtain ⟨a, id, locals, owners, o, k, u, hmain, -, -, rfl⟩ := step_fork h
      show s.wakers d + (Function.update s.main b _ d).waits + s.announcing d = s.identifying d
      rw [hwaits (by rw [hmain]; rfl), hold]
  | report b ok =>
      obtain ⟨l, hmain, rfl⟩ := step_report h
      simp only [State.report]
      split
      · show s.wakers d + (Function.update s.main b _ d).waits + s.announcing d = s.identifying d
        rw [hwaits (by rw [hmain]; rfl), hold]
      · next _ _ id _ =>
          show s.wakers d + (Function.update s.main b _ d).waits +
            (s.postCommand b l.source (.answer id) l.owner).announcing d = s.identifying d
          rw [hwaits (by rw [hmain]; rfl), announcing_postCommand (by simp), hold]
      · show s.wakers d + (Function.update s.main b _ d).waits + s.announcing d = s.identifying d
        rw [hwaits (by rw [hmain]; rfl), hold]
  | sent b =>
      obtain ⟨source, hmain, rfl⟩ := step_sent h
      show s.wakers d + (Function.update s.main b _ d).waits + s.announcing d = s.identifying d
      rw [hwaits (by rw [hmain]; rfl), hold]
  | command b a =>
      obtain ⟨⟨k, r⟩, rest, -, hm, rfl⟩ := step_command h
      have hsum := Mailbox.sum_fst_add announced (m := s.commands)
        (p := Function.update s.commands (a, b) rest)
        (fun _ hne => Function.update_of_ne hne ..) d
      rw [Function.update_self, hm] at hsum
      simp only [State.announcing] at hold
      cases k with
      | allocate =>
          -- the announcement becomes a wake-up
          have hone : announced (⟨.allocate, r⟩ :: rest) = announced rest + 1 := by
            simp [announced]
          rw [hone] at hsum
          show Function.update s.wakers b (s.wakers b + 1) d + (s.main d).waits +
            ∑ c, announced (Function.update s.commands (a, b) rest (c, d)) = s.identifying d
          by_cases hd : d = b
          · subst hd
            rw [if_pos rfl, if_pos rfl] at hsum
            rw [Function.update_self]
            omega
          · rw [if_neg hd, if_neg hd] at hsum
            rw [Function.update_of_ne hd]
            omega
      | unlock =>
          show s.wakers d + (s.main d).waits +
            ∑ c, announced (Function.update s.commands (a, b) rest (c, d)) = s.identifying d
          have hsame : announced (⟨.unlock, r⟩ :: rest) = announced rest := by simp [announced]
          rw [hsame] at hsum
          omega
      | answer id =>
          show s.wakers d + (s.main d).waits +
            ∑ c, announced (Function.update s.commands (a, b) rest (c, d)) = s.identifying d
          have hsame : announced (⟨.answer id, r⟩ :: rest) = announced rest := by simp [announced]
          rw [hsame] at hsum
          omega
  | receiveLength a =>
      obtain ⟨b, id, m, rest, -, -, rfl⟩ := step_receiveLength h
      exact hold
  | receiveAddress a =>
      obtain ⟨b, id, length, m, rest, -, -, rfl⟩ := step_receiveAddress h
      simp only [State.sendAnswer]
      split <;> exact hold

/-- What has been read as one allocation is of one request. -/
lemma groups_step {act : Action n} (h : step nbcore s act = some t) :
    ∀ g ∈ t.groups, ∀ r ∈ g, ∀ r' ∈ g, r = r' := by
  have hold := hgood.groups
  cases act with
  | fork b =>
      obtain ⟨a, id, locals, owners, o, k, u, hmain, -, -, rfl⟩ := step_fork h
      have hok : (s.main b).Ok b := hgood.mains b
      rw [hmain] at hok
      obtain ⟨-, -, -, howners⟩ := hok
      intro g hg
      rcases List.mem_cons.mp hg with rfl | hg
      · exact fun r hr r' hr' => (howners r hr).trans (howners r' hr').symm
      · exact hold g hg
  | receiveAddress a =>
      obtain ⟨b, id, length, m, rest, hreceiver, haddresses, rfl⟩ := step_receiveAddress h
      have hreceiving : (s.link a b).receiving = [id] := by
        simp [State.link, hreceiver, Receiver.held]
      have hheld : (s.link a b).lengthHeld = [length] := by
        simp [State.link, hreceiver, Receiver.lengthHeld]
      obtain ⟨m', rest', hm', howner⟩ := (hgood.links a b).head_address hreceiving
      obtain rfl : m = m' := (List.cons.inj (haddresses.symm.trans hm')).1
      have hlength := ((hgood.links a b).head_length hheld haddresses).1
      have hall : ∀ r ∈ [id.owner, length.owner, m.owner], r = id.owner := by
        simp [hlength, lengthMessage, howner]
      have hnew : ∀ g ∈ [id.owner, length.owner, m.owner] :: s.groups, ∀ r ∈ g, ∀ r' ∈ g,
          r = r' := by
        intro g hg
        rcases List.mem_cons.mp hg with rfl | hg
        · exact fun r hr r' hr' => (hall r hr).trans (hall r' hr').symm
        · exact hold g hg
      simp only [State.sendAnswer]
      split <;> exact hnew
  | _ =>
      rw [(Frame.of_step h).groups (by simp) (by simp)]
      exact hold

lemma objects_step {act : Action n} (h : step nbcore s act = some t) (c d : Fin n) :
    ∀ x ∈ t.reports (d, c), x.1.objectname = x.1.owner.objectname ∧
      x.1.codefile = x.1.owner.codefile := by
  have hold := hgood.objects c d
  cases act with
  | report b ok =>
      obtain ⟨l, hmain, rfl⟩ := step_report h
      have hok : (s.main b).Ok b := hgood.mains b
      rw [hmain] at hok
      obtain ⟨-, hobject⟩ := hok
      have hnew : ∀ x ∈ Mailbox.post s.reports (b, l.source) (l, ok) (d, c),
          x.1.objectname = x.1.owner.objectname ∧ x.1.codefile = x.1.owner.codefile := by
        intro x hx
        by_cases hkey : ((d, c) : Fin n × Fin n) = (b, l.source)
        · rw [hkey, Mailbox.post_self] at hx
          rcases List.mem_append.mp hx with hx | hx
          · exact hgood.objects l.source b x hx
          · obtain rfl := List.mem_singleton.mp hx
            exact hobject
        · rw [Mailbox.post_of_ne hkey] at hx
          exact hold x hx
      simp only [State.report]
      split <;> exact hnew
  | _ =>
      rw [(Frame.of_step h).reports (by simp)]
      exact hold

/-- The counter does not overflow. -/
lemma identifiers_step {act : Action n} (h : step nbcore s act = some t) (hclean : Clean s act)
    (c : Fin n) : 0 ≤ t.allocationId c := by
  have hlink := step_link hgood h hclean c c
  have hold := hgood.identifiers c
  show 0 ≤ (t.link c c).allocationId
  rcases hlink with hlink | hlink
  · rw [hlink]
    exact hold
  · exact hlink.allocationId_nonneg hold

/-- **One step.**  A clean step keeps the invariant. -/
theorem State.Good.preserved {act : Action n} (h : step nbcore s act = some t)
    (hclean : Clean s act) : t.Good requests where
  links c d := by
    rcases step_link hgood h hclean c d with hlink | hlink
    · rw [hlink]
      exact hgood.links c d
    · exact (hgood.links c d).step hlink
  mains := mains_step hgood h
  none_to_self := none_to_self_step hgood h
  announcements := announcements_step hgood h
  groups := groups_step hgood h
  objects := objects_step hgood h
  identifiers := identifiers_step hgood h hclean

end Links

/-- The invariant holds before the first step. -/
lemma State.good_start (requests : Fin n → List (Request n)) :
    (State.start requests).Good requests where
  links c d := by
    refine ⟨fun p => rfl, rfl, rfl, rfl, rfl, by simp [State.link, State.start], ?_, ?_⟩
    · intro id r hmem
      simp [Link.outstanding, State.link, State.start, Receiver.held, Main.held] at hmem
    · intro id hid
      exact absurd rfl hid
  mains b := trivial
  none_to_self a := ⟨rfl, rfl⟩
  announcements b := by
    simp [State.start, Main.waits, State.announcing, State.identifying, announced]
  groups g hg := absurd hg List.not_mem_nil
  objects a b x hx := absurd hx List.not_mem_nil
  identifiers a := le_rfl

end Interconnector.Allocation
