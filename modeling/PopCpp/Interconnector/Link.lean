/-
# The way of an allocation between two nodes

What the threads of a node `a` and of a node `b` and the channels between them hold of the
allocations that `a` asks of `b` is a pipeline: a request waits at `a`, is announced to `b`,
taken up by the main thread of `b`, answered on the channels back and handed to its connection.
`Link` is this pipeline, with one list for each station and nothing of any other pair of nodes,
and `Link.Step` says how it moves.  The invariant `Link.Ok` holds as long as every step of the
interconnectors is either invisible in it or one of these steps.
-/
import PopCpp.Interconnector.Allocation

namespace Interconnector.Allocation

variable {n : ℕ}

/-- The message that `r` sends on the channel of a part. -/
def Part.message (p : Part) (r : Request n) : Message n Payload := ⟨p.payload r, r⟩

/-- The message of tag 14 that goes with an address. -/
def lengthMessage (m : Message n Chars) : Message n ℤ := ⟨m.value.length, m.owner⟩

/-- The answer that a report asks for. -/
def answerOf (x : Launch n × Bool) : Chars × Request n :=
  (if x.2 then x.1.address else [], x.1.owner)

/-- The allocations that `a` asks of `b`, station by station. -/
@[ext] structure Link (n : ℕ) where
  /-- requests of clients at `a` that its main thread has not read -/
  waiting : List (Request n)
  /-- the request that `a` has announced and not noted in `allocation_return` -/
  recording : List (Request n)
  allocationId : ℤ
  allocationReturn : ℤ → Option ℕ
  ids : List (Message n ℤ)
  parts : Part → List (Message n Payload)
  /-- what the main thread of `b` is at, and under which identifier it will answer -/
  held : List (Option ℤ × Request n)
  /-- the part messages that it has not taken yet -/
  due : Part → List (Request n)
  /-- the commands 15 under way -/
  pending : List (Message n ℤ)
  /-- the command 15 that the receive thread of `a` is at, and the length it has received -/
  receiving : List (Message n ℤ)
  lengthHeld : List (Message n ℤ)
  lengths : List (Message n ℤ)
  addresses : List (Message n Chars)
  answers : List (Answer n)
  reports : List (Launch n × Bool)

namespace Link

/-- What happens to the allocations that one node asks of another. -/
inductive Step : Link n → Link n → Prop where
  | announce {k : Link n} {r : Request n} {rest : List (Request n)}
      (hwaiting : k.waiting = r :: rest) (hrecording : k.recording = []) :
      Step k { k with
        waiting := rest
        recording := [r]
        ids := k.ids ++ [⟨k.allocationId, r⟩]
        parts := fun p => k.parts p ++ [p.message r] }
  | record {k : Link n} {conn : ℕ} (hconn : ∀ r ∈ k.recording, r.conn = conn) :
      Step k { k with
        recording := []
        allocationId := k.allocationId + 1
        allocationReturn := Function.update k.allocationReturn k.allocationId (some conn) }
  | receiveId {k : Link n} {m : Message n ℤ} {rest : List (Message n ℤ)}
      (hids : k.ids = m :: rest) (hheld : k.held = []) (hdue : k.due = fun _ => []) :
      Step k { k with
        ids := rest
        held := [(some m.value, m.owner)]
        due := fun _ => [m.owner] }
  | receivePart {k : Link n} {p : Part} {m : Message n Payload} {rest : List (Message n Payload)}
      {r : Request n} (hdue : k.due p = [r]) (hparts : k.parts p = m :: rest) :
      Step k { k with
        due := Function.update k.due p []
        parts := Function.update k.parts p rest }
  | launchLocal {k : Link n} {r : Request n} {rest : List (Request n)}
      (hwaiting : k.waiting = r :: rest) (hheld : k.held = []) (hids : k.ids = []) :
      Step k { k with waiting := rest, held := [(none, r)] }
  | reportLocal {k : Link n} {l : Launch n} {ok : Bool} (hheld : k.held = [(none, l.owner)])
      (haddresses : k.addresses = []) :
      Step k { k with
        held := []
        reports := k.reports ++ [(l, ok)]
        answers := k.answers ++ [⟨l.owner.conn, if ok then l.address else [], l.owner⟩] }
  | report {k : Link n} {l : Launch n} {id : ℤ} (hheld : k.held = [(some id, l.owner)]) :
      Step k { k with
        held := []
        reports := k.reports ++ [(l, true)]
        pending := k.pending ++ [⟨id, l.owner⟩]
        lengths := k.lengths ++ [lengthMessage ⟨l.address, l.owner⟩]
        addresses := k.addresses ++ [⟨l.address, l.owner⟩] }
  | answer {k : Link n} {m : Message n ℤ} {rest : List (Message n ℤ)}
      (hpending : k.pending = m :: rest) (hreceiving : k.receiving = []) :
      Step k { k with pending := rest, receiving := [m] }
  | receiveLength {k : Link n} {m : Message n ℤ} {rest : List (Message n ℤ)}
      (hlengths : k.lengths = m :: rest) (hheld : k.lengthHeld = []) :
      Step k { k with lengths := rest, lengthHeld := [m] }
  | receiveAddress {k : Link n} {id length : Message n ℤ} {m : Message n Chars}
      {rest : List (Message n Chars)} {conn : ℕ} (hreceiving : k.receiving = [id])
      (hheld : k.lengthHeld = [length]) (haddresses : k.addresses = m :: rest)
      (hreturn : k.allocationReturn id.value = some conn) :
      Step k { k with
        receiving := []
        lengthHeld := []
        addresses := rest
        answers := k.answers ++ [⟨conn, m.value, id.owner⟩] }

/-- The identifiers under way, with the requests they stand for. -/
def outstanding (k : Link n) : List (Option ℤ × Request n) :=
  (k.receiving ++ k.pending).map (fun m => (some m.value, m.owner)) ++ k.held ++
    k.ids.map fun m => (some m.value, m.owner)

/-- The pipeline loses nothing and mixes nothing up: `asked` are all the requests that ever
entered it. -/
structure Ok (asked : List (Request n)) (k : Link n) : Prop where
  parts_eq : ∀ p, k.parts p = (k.due p ++ k.ids.map Message.owner).map p.message
  owners_eq : k.addresses.map Message.owner = (k.receiving ++ k.pending).map Message.owner
  lengths_eq : k.lengthHeld ++ k.lengths = k.addresses.map lengthMessage
  stream : k.answers.map Answer.owner ++ (k.addresses.map Message.owner ++
    (k.held.map Prod.snd ++ (k.ids.map Message.owner ++ k.waiting))) = asked
  reported : k.answers.map (fun x => (x.address, x.owner)) ++
    k.addresses.map (fun m => (m.value, m.owner)) = k.reports.map answerOf
  conns : ∀ x ∈ k.answers, x.conn = x.owner.conn
  recorded : ∀ id r, (some id, r) ∈ k.outstanding →
    id < k.allocationId ∧ k.allocationReturn id = some r.conn ∨
      id = k.allocationId ∧ r ∈ k.recording
  returned : ∀ id, k.allocationReturn id ≠ none → id < k.allocationId

variable {asked : List (Request n)} {k k' : Link n}

/-- Messages that are still to be taken have the values that their request sent. -/
lemma Ok.head_part (h : k.Ok asked) {p : Part} {r : Request n} (hdue : k.due p = [r]) :
    ∃ rest, k.parts p = p.message r :: rest := by
  refine ⟨(k.ids.map Message.owner).map p.message, ?_⟩
  rw [h.parts_eq, hdue, List.singleton_append, List.map_cons]

lemma Ok.head_address (h : k.Ok asked) {id : Message n ℤ} (hreceiving : k.receiving = [id]) :
    ∃ m rest, k.addresses = m :: rest ∧ m.owner = id.owner := by
  have howners := h.owners_eq
  rw [hreceiving, List.singleton_append, List.map_cons, List.map_eq_cons_iff] at howners
  obtain ⟨m, rest, hm, howner, -⟩ := howners
  exact ⟨m, rest, hm, howner⟩

lemma Ok.head_length (h : k.Ok asked) {length : Message n ℤ} {m : Message n Chars}
    {rest : List (Message n Chars)} (hheld : k.lengthHeld = [length])
    (haddresses : k.addresses = m :: rest) :
    length = lengthMessage m ∧ k.lengths = rest.map lengthMessage := by
  have hlengths := h.lengths_eq
  rw [hheld, haddresses, List.map_cons] at hlengths
  exact List.cons.inj hlengths

/-- The entry that an answer is sent by is the one of its own request. -/
lemma Ok.conn_eq (h : k.Ok asked) {id : Message n ℤ} {conn : ℕ}
    (hreceiving : k.receiving = [id]) (hreturn : k.allocationReturn id.value = some conn) :
    conn = id.owner.conn := by
  have hmem : (some id.value, id.owner) ∈ k.outstanding := by simp [outstanding, hreceiving]
  rcases h.recorded _ _ hmem with ⟨-, hconn⟩ | ⟨hid, -⟩
  · exact Option.some.inj (hreturn.symm.trans hconn)
  · -- the entry of the next identifier is not there yet
    have hlt := h.returned id.value (by rw [hreturn]; exact Option.some_ne_none _)
    omega

theorem Ok.step (h : k.Ok asked) (hstep : Step k k') : k'.Ok asked := by
  cases hstep with
  | @announce r rest hwaiting hrecording =>
      refine ⟨fun p => ?_, h.owners_eq, h.lengths_eq, ?_, h.reported, h.conns, ?_, h.returned⟩
      · simp [h.parts_eq]
      · have hstream := h.stream
        rw [hwaiting] at hstream
        simpa using hstream
      · intro id r' hmem
        have hmem : (some id, r') ∈ k.outstanding ∨ id = k.allocationId ∧ r' = r := by
          simpa [outstanding, or_assoc] using hmem
        -- the new request is under the next identifier, which is not recorded yet
        rcases hmem with hmem | ⟨rfl, rfl⟩
        · rcases h.recorded id r' hmem with hold | ⟨-, hr'⟩
          · exact .inl hold
          · rw [hrecording] at hr'
            exact absurd hr' List.not_mem_nil
        · exact .inr ⟨rfl, List.mem_singleton_self _⟩
  -- the entry of the next identifier is written, and it is no longer the next
  | @record conn hconn =>
      refine ⟨h.parts_eq, h.owners_eq, h.lengths_eq, h.stream, h.reported, h.conns, ?_, ?_⟩
      · intro id r hmem
        left
        rcases h.recorded id r hmem with ⟨hlt, hentry⟩ | ⟨rfl, hr⟩
        · refine ⟨by show id < k.allocationId + 1; omega, ?_⟩
          show Function.update _ _ _ _ = _
          rwa [Function.update_of_ne hlt.ne]
        · refine ⟨by show k.allocationId < k.allocationId + 1; omega, ?_⟩
          show Function.update _ _ _ _ = _
          rw [Function.update_self, hconn r hr]
      · intro id hne
        show id < k.allocationId + 1
        by_cases hid : id = k.allocationId
        · omega
        · have hold := h.returned id (by simpa [Function.update_of_ne hid] using hne)
          omega
  | @receiveId m rest hids hheld hdue =>
      refine ⟨fun p => ?_, h.owners_eq, h.lengths_eq, ?_, h.reported, h.conns, ?_, h.returned⟩
      · simp [h.parts_eq, hdue, hids]
      · have hstream := h.stream
        rw [hids, hheld] at hstream
        simpa using hstream
      · intro id r hmem
        refine h.recorded id r ?_
        simpa [outstanding, hids, hheld] using hmem
  | @receivePart p m rest r hdue hparts =>
      refine ⟨fun q => ?_, h.owners_eq, h.lengths_eq, h.stream, h.reported, h.conns, h.recorded,
        h.returned⟩
      have hq := h.parts_eq q
      -- only the part that is due is taken from the streams
      by_cases hqp : q = p
      · subst hqp
        rw [hparts, hdue] at hq
        simpa using (List.cons.inj hq).2
      · simpa [Function.update_of_ne hqp] using hq
  | @launchLocal r rest hwaiting hheld hids =>
      refine ⟨h.parts_eq, h.owners_eq, h.lengths_eq, ?_, h.reported, h.conns, ?_, h.returned⟩
      · have hstream := h.stream
        rw [hwaiting, hheld, hids] at hstream
        simpa [hids] using hstream
      · intro id r hmem
        refine h.recorded id r ?_
        simpa [outstanding, hheld] using hmem
  | @reportLocal l ok hheld haddresses =>
      refine ⟨h.parts_eq, h.owners_eq, h.lengths_eq, ?_, ?_, ?_, ?_, h.returned⟩
      · have hstream := h.stream
        rw [hheld, haddresses] at hstream
        simpa [haddresses] using hstream
      · have hreported := h.reported
        rw [haddresses] at hreported
        simpa [haddresses, answerOf] using hreported
      · intro x hx
        rcases List.mem_append.mp hx with hx | hx
        · exact h.conns x hx
        · obtain rfl := List.mem_singleton.mp hx
          rfl
      · intro id r hmem
        refine h.recorded id r ?_
        simp only [outstanding, List.mem_append] at hmem ⊢
        tauto
  | @report l id hheld =>
      refine ⟨h.parts_eq, ?_, ?_, ?_, ?_, h.conns, ?_, h.returned⟩
      · simp [h.owners_eq]
      · show k.lengthHeld ++ (k.lengths ++ _) = _
        rw [← List.append_assoc, h.lengths_eq]
        simp
      · have hstream := h.stream
        rw [hheld] at hstream
        simpa using hstream
      · simp [← h.reported, answerOf]
      · intro id' r hmem
        refine h.recorded id' r ?_
        simp only [outstanding, hheld, List.mem_append, List.map_append, List.map_cons] at hmem ⊢
        tauto
  | @answer m rest hpending hreceiving =>
      refine ⟨h.parts_eq, ?_, h.lengths_eq, h.stream, h.reported, h.conns, ?_, h.returned⟩
      · have howners := h.owners_eq
        rw [hpending, hreceiving] at howners
        exact howners
      · intro id r hmem
        refine h.recorded id r ?_
        simpa [outstanding, hpending, hreceiving] using hmem
  | @receiveLength m rest hlengths hheld =>
      refine ⟨h.parts_eq, h.owners_eq, ?_, h.stream, h.reported, h.conns, h.recorded, h.returned⟩
      rw [← h.lengths_eq, hheld, hlengths]
      rfl
  | @receiveAddress id length m rest conn hreceiving hheld haddresses hreturn =>
      -- the address is that of the answer whose length has come
      have hm : m.owner = id.owner := by
        obtain ⟨m', rest', hm', howner⟩ := h.head_address hreceiving
        rw [haddresses] at hm'
        rwa [(List.cons.inj hm').1]
      refine ⟨h.parts_eq, ?_, ?_, ?_, ?_, ?_, ?_, h.returned⟩
      · have howners := h.owners_eq
        rw [hreceiving, haddresses, List.map_cons, List.singleton_append, List.map_cons]
          at howners
        exact (List.cons.inj howners).2
      · exact (h.head_length hheld haddresses).2
      · have hstream := h.stream
        rw [haddresses] at hstream
        simpa [hm] using hstream
      · have hreported := h.reported
        rw [haddresses] at hreported
        simpa [hm] using hreported
      · intro x hx
        rcases List.mem_append.mp hx with hx | hx
        · exact h.conns x hx
        · obtain rfl := List.mem_singleton.mp hx
          exact h.conn_eq hreceiving hreturn
      · intro id' r hmem
        refine h.recorded id' r ?_
        simp only [outstanding, hreceiving, List.mem_append, List.map_append, List.map_cons,
          List.mem_cons] at hmem ⊢
        tauto

lemma Step.allocationId_nonneg (hstep : Step k k') (h : 0 ≤ k.allocationId) :
    0 ≤ k'.allocationId := by
  cases hstep with
  | record =>
      show 0 ≤ k.allocationId + 1
      omega
  | _ => exact h

end Link
end Interconnector.Allocation
