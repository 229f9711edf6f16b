/-
# Distributing objects over the nodes that answered

The last loop of `AllocResource` asks the job managers of the nodes that answered a discovery, one
after the other and from the beginning again, for one reservation after the other.  A refusal
leaves the object to the next node.  The loop gives up after as many refusals as there are nodes,
and these are counted over the whole loop: a reservation does not put the count back to 0.  So the
loop can give up although the nodes have gone on granting.

The loop stands here with its iterator and its counters; `distribute_reserveLoop` says that it
does what `reserveLoop` does in the model of `AllocResource`.
-/
import PopCpp.JobMgr.Alloc
import PopCpp.Lib.RoundRobin

namespace JobMgr

open RoundRobin

/-! ### The loop -/

/-- The ids of the nodes that answered, at least one. -/
abbrev Responses := { nodes : List AccessPoint // nodes ≠ [] }

/-- The number of nodes. -/
abbrev Responses.count (nodes : Responses) : ℕ := nodes.1.length

lemma Responses.count_pos (nodes : Responses) : 0 < nodes.count := List.length_pos_iff.mpr nodes.2

/-- What a call of `Reserve` at a node yields: its job manager, the id and the fitness. -/
abbrev NodeAnswer := Contact × ℤ × ℚ

/-- The answers of the nodes to the `k`th call, `none` when one throws. -/
abbrev Behaviour := ℕ → AccessPoint → Option NodeAnswer

/-- The state of the loop. -/
structure Rounds (nodes : Responses) where
  jobindex : ℕ
  /-- `ni`, which always points to a node -/
  ni : Fin nodes.count
  failedReservation : ℕ
  /-- The three arrays. -/
  slots : List Slot
  ret : Bool
  /-- The calls of `Reserve` so far, each with the node that was asked. -/
  calls : List (Fin nodes.count × NodeAnswer)

section

variable {nodes : Responses}

/-- The state before the loop. -/
def Rounds.start (nodes : Responses) (slots : List Slot) (ret : Bool) : Rounds nodes where
  jobindex := 0
  ni := ⟨0, nodes.count_pos⟩
  failedReservation := 0
  slots := slots
  ret := ret
  calls := []

/-- A call that is refused: `reserveIDs[jobindex] == 0`. -/
def Rounds.refused (s : Rounds nodes) (a : NodeAnswer) : Rounds nodes :=
  { s with
    slots := s.slots.modify s.jobindex fun slot => { slot with reserveID := 0 }
    failedReservation := s.failedReservation + 1
    calls := s.calls ++ [(s.ni, a)] }

/-- A call with a reservation. -/
def Rounds.granted (s : Rounds nodes) (a : NodeAnswer) : Rounds nodes :=
  { s with
    slots := s.slots.set s.jobindex ⟨a.2.2, a.1, a.2.1⟩
    jobindex := s.jobindex + 1
    calls := s.calls ++ [(s.ni, a)] }

/-- `ni++`, and back to the beginning at the end. -/
def Rounds.advance (s : Rounds nodes) : Rounds nodes := { s with ni := next s.ni, ret := true }

/-- The loop: what it returns, `none` when an exception leaves it, and its last state.  At its
`k`th call the node answers `behave k`, and throws if that is `none`. -/
def distribute (behave : Behaviour) :
    ℕ → Rounds nodes → Option (Option Bool × Rounds nodes)
  | 0, _ => none
  | fuel + 1, s =>
      if s.jobindex < s.slots.length then
        match behave s.calls.length (nodes.1.get s.ni) with
        | none => some (none, s)
        | some a =>
            -- `jobindex--` is made good by the `jobindex++` of the loop
            if a.2.1 = 0 then
              if (s.refused a).failedReservation = nodes.count then
                some (some false, s.refused a)
              else distribute behave fuel (s.refused a).advance
            else distribute behave fuel (s.granted a).advance
      else some (some s.ret, s)

/-! ### What the loop keeps -/

variable (nodes) in
/-- The answer to the `k`th call, at the node whose turn it is. -/
def answerAt (behave : Behaviour) (k : ℕ) : Option NodeAnswer :=
  behave k (nodes.1.get ⟨k % nodes.count, Nat.mod_lt k nodes.count_pos⟩)

/-- The answers so far. -/
def Rounds.answers (s : Rounds nodes) : List NodeAnswer := s.calls.map Prod.snd

variable {behave : Behaviour} {s s' : Rounds nodes} {a : NodeAnswer}

lemma answers_refused : (s.refused a).answers = s.answers ++ [a] := List.map_append

lemma answers_granted : (s.granted a).answers = s.answers ++ [a] := List.map_append

/-- The calls have gone round, and the arrays hold what they have granted. -/
structure Rounds.Traced (behave : Behaviour) (s : Rounds nodes) : Prop where
  visits : GoesRound s.calls
  asked : Asked (answerAt nodes behave) 0 s.answers
  assigned : s.slots.take s.jobindex = grantedSlots s.answers
  jobindex_le : s.jobindex ≤ s.slots.length
  failed : s.failedReservation = refusals s.answers

/-- The loop goes on; `ret₀` is what `ret` was before it. -/
structure Rounds.Running (behave : Behaviour) (ret₀ : Bool)
    (s : Rounds nodes) : Prop where
  traced : s.Traced behave
  ni : (s.ni : ℕ) = s.calls.length % nodes.count
  failed_lt : s.failedReservation < nodes.count
  ret : s.ret = (ret₀ || !s.calls.isEmpty)

lemma Rounds.Traced.jobindex_eq (h : s.Traced behave) :
    s.jobindex = (grantedSlots s.answers).length := by
  rw [← h.assigned, List.length_take, Nat.min_eq_left h.jobindex_le]

lemma asked_concat {reserve : ℕ → Option NodeAnswer} {asked : List NodeAnswer} :
    Asked reserve 0 (asked ++ [a]) ↔ Asked reserve 0 asked ∧ reserve asked.length = some a := by
  constructor
  · intro h
    refine ⟨fun j hj => ?_, ?_⟩
    · rw [h j (by rw [List.length_append]; omega), List.getElem?_append_left hj]
    · have hlast := h asked.length (by simp)
      rwa [Nat.zero_add, List.getElem?_concat_length] at hlast
  · rintro ⟨h, hlast⟩ j hj
    rw [List.length_append, List.length_singleton] at hj
    rcases Nat.lt_or_eq_of_le (Nat.le_of_lt_succ hj) with hlt | rfl
    · rw [h j hlt, List.getElem?_append_left hlt]
    · rw [Nat.zero_add, hlast, List.getElem?_concat_length]

lemma refusals_concat (asked : List NodeAnswer) :
    refusals (asked ++ [a]) = refusals asked + if a.2.1 = 0 then 1 else 0 := by
  simp [refusals, List.countP_append, List.countP_singleton]

lemma grantedSlots_concat (asked : List NodeAnswer) :
    grantedSlots (asked ++ [a]) =
      grantedSlots asked ++ if a.2.1 = 0 then [] else [⟨a.2.2, a.1, a.2.1⟩] := by
  rw [grantedSlots, List.filter_append, List.map_append, ← grantedSlots]
  congr 1
  split_ifs with h <;> simp [h]

/-- Two accounts of the first answers agree as far as both go. -/
lemma Asked.prefix_of_le {reserve : ℕ → Option NodeAnswer} {asked asked' : List NodeAnswer}
    (h : Asked reserve 0 asked) (h' : Asked reserve 0 asked')
    (hle : asked.length ≤ asked'.length) : asked <+: asked' := by
  rw [List.prefix_iff_eq_take]
  refine List.ext_getElem? fun j => ?_
  rcases Nat.lt_or_ge j asked.length with hlt | hge
  · rw [List.getElem?_take_of_lt hlt, ← h j hlt, h' j (by omega)]
  · rw [List.getElem?_eq_none hge, List.getElem?_eq_none (by rw [List.length_take]; omega)]

/-- The node that is asked is the one whose turn it is. -/
lemma Rounds.Running.answerAt_eq {ret₀ : Bool} (h : s.Running behave ret₀) :
    answerAt nodes behave s.calls.length = behave s.calls.length (nodes.1.get s.ni) := by
  rw [answerAt]
  congr 2
  exact Fin.ext h.ni.symm

section Call

variable {ret₀ : Bool} (h : s.Running behave ret₀)
  (ha : behave s.calls.length (nodes.1.get s.ni) = some a)
include h ha

lemma Rounds.Running.asked_concat : Asked (answerAt nodes behave) 0 (s.answers ++ [a]) := by
  refine JobMgr.asked_concat.mpr ⟨h.traced.asked, ?_⟩
  rw [Rounds.answers, List.length_map]
  exact h.answerAt_eq.trans ha

lemma Rounds.Running.refused (hid : a.2.1 = 0) : (s.refused a).Traced behave where
  visits := h.traced.visits.concat h.ni a
  asked := by
    rw [answers_refused]
    exact h.asked_concat ha
  assigned := by
    rw [answers_refused, grantedSlots_concat, if_pos hid, List.append_nil, ← h.traced.assigned]
    show (s.slots.modify s.jobindex _).take s.jobindex = _
    rw [List.take_modify, List.modify_eq_self (List.length_take_le _ _)]
  jobindex_le := by
    rw [Rounds.refused, List.length_modify]
    exact h.traced.jobindex_le
  failed := by
    rw [answers_refused, refusals_concat, if_pos hid, ← h.traced.failed]
    rfl

lemma Rounds.Running.granted (hlt : s.jobindex < s.slots.length) (hid : a.2.1 ≠ 0) :
    (s.granted a).Traced behave where
  visits := h.traced.visits.concat h.ni a
  asked := by
    rw [answers_granted]
    exact h.asked_concat ha
  assigned := by
    rw [answers_granted, grantedSlots_concat, if_neg hid, ← h.traced.assigned]
    show (s.slots.set s.jobindex _).take (s.jobindex + 1) = _
    rw [List.take_succ_eq_append_getElem (by rwa [List.length_set]), List.take_set_of_le le_rfl,
      List.getElem_set_self]
  jobindex_le := by
    rw [Rounds.granted, List.length_set]
    exact hlt
  failed := by
    rw [answers_granted, refusals_concat, if_neg hid, ← h.traced.failed]
    rfl

end Call

/-! ### How the loop ends -/

variable {ret₀ : Bool} {r : Option Bool}

/-- The three ways in which the loop ends. -/
inductive Ends (behave : Behaviour) (ret₀ : Bool) :
    Option Bool → Rounds nodes → Prop
  | thrown {s : Rounds nodes} (h : s.Running behave ret₀)
      (hthrow : answerAt nodes behave s.answers.length = none) : Ends behave ret₀ none s
  | filled {s : Rounds nodes} (h : s.Running behave ret₀)
      (hfull : s.jobindex = s.slots.length) : Ends behave ret₀ (some s.ret) s
  | givenUp {s : Rounds nodes} {a : NodeAnswer} (h : s.Running behave ret₀)
      (hlt : s.jobindex < s.slots.length)
      (ha : behave s.calls.length (nodes.1.get s.ni) = some a) (hid : a.2.1 = 0)
      (hlast : s.failedReservation + 1 = nodes.count) : Ends behave ret₀ (some false) (s.refused a)

lemma running_start (slots : List Slot) (ret : Bool) :
    (Rounds.start nodes slots ret).Running behave ret where
  traced := ⟨goesRound_nil, asked_nil, List.take_zero, Nat.zero_le _, rfl⟩
  ni := (Nat.zero_mod _).symm
  failed_lt := nodes.count_pos
  ret := (Bool.or_false ret).symm

/-- A round keeps the loop going. -/
lemma Rounds.Traced.advance (h : s.Traced behave) (hlt : s.failedReservation < nodes.count)
    (hni : (next s.ni : ℕ) = s.calls.length % nodes.count) (hcalls : s.calls ≠ []) :
    s.advance.Running behave ret₀ where
  traced := ⟨h.visits, h.asked, h.assigned, h.jobindex_le, h.failed⟩
  ni := hni
  failed_lt := hlt
  ret := by
    have hsome : s.calls.isEmpty = false := List.isEmpty_eq_false_iff.mpr hcalls
    show true = (ret₀ || !s.calls.isEmpty)
    rw [hsome, Bool.not_false, Bool.or_true]

lemma Rounds.Running.next (h : s.Running behave ret₀) :
    (RoundRobin.next s.ni : ℕ) = (s.calls ++ [(s.ni, a)]).length % nodes.count := by
  rw [List.length_append]
  exact next_val h.ni

/-- **Induction on the rounds.**  What holds when the loop ends, and is handed on from the state
behind a round to the state before it, holds of every run of the loop. -/
lemma Rounds.Running.induct {P : Rounds nodes → Option Bool → Rounds nodes → Prop}
    (hthrown : ∀ s, s.Running behave ret₀ → s.jobindex < s.slots.length →
      behave s.calls.length (nodes.1.get s.ni) = none → P s none s)
    (hlast : ∀ s a, s.Running behave ret₀ → s.jobindex < s.slots.length →
      behave s.calls.length (nodes.1.get s.ni) = some a → a.2.1 = 0 →
        s.failedReservation + 1 = nodes.count → P s (some false) (s.refused a))
    (hrefused : ∀ s a r s', s.Running behave ret₀ → s.jobindex < s.slots.length →
      behave s.calls.length (nodes.1.get s.ni) = some a → a.2.1 = 0 →
        s.failedReservation + 1 < nodes.count → P (s.refused a).advance r s' → P s r s')
    (hgranted : ∀ s a r s', s.Running behave ret₀ → s.jobindex < s.slots.length →
      behave s.calls.length (nodes.1.get s.ni) = some a → a.2.1 ≠ 0 →
        P (s.granted a).advance r s' → P s r s')
    (hfilled : ∀ s, s.Running behave ret₀ → s.slots.length ≤ s.jobindex → P s (some s.ret) s)
    {fuel : ℕ} (h : s.Running behave ret₀) (hrun : distribute behave fuel s = some (r, s')) :
    P s r s' := by
  induction fuel generalizing s with
  -- without fuel nothing is returned
  | zero => cases hrun
  | succ fuel ih =>
      rw [distribute] at hrun
      split at hrun
      · next hlt =>
          split at hrun
          · next hthrow =>
              cases hrun
              exact hthrown _ h hlt hthrow
          · next a ha =>
              split at hrun
              · next hid =>
                  split at hrun
                  · next hall =>
                      cases hrun
                      exact hlast s a h hlt ha hid hall
                  · next hmore =>
                      -- the last refusal would have ended the loop: there are nodes left
                      have hfailed : s.failedReservation + 1 < nodes.count :=
                        lt_of_le_of_ne h.failed_lt hmore
                      exact hrefused s a _ _ h hlt ha hid hfailed
                        (ih ((h.refused ha hid).advance hfailed h.next (by simp [Rounds.refused]))
                          hrun)
              · next hid =>
                  exact hgranted s a _ _ h hlt ha hid
                    (ih ((h.granted ha hlt hid).advance h.failed_lt h.next
                      (by simp [Rounds.granted])) hrun)
      · next hge =>
          cases hrun
          exact hfilled _ h (not_lt.mp hge)

/-- The loop ends in one of the three ways. -/
lemma Rounds.Running.ends {fuel : ℕ} (h : s.Running behave ret₀)
    (hrun : distribute behave fuel s = some (r, s')) :
    Ends behave ret₀ r s' ∧ s'.slots.length = s.slots.length := by
  have hkeep : ∀ (s : Rounds nodes) (a : NodeAnswer),
      (s.refused a).slots.length = s.slots.length := fun s a => List.length_modify ..
  refine Rounds.Running.induct (P := fun s r s' =>
    Ends behave ret₀ r s' ∧ s'.slots.length = s.slots.length)
    ?thrown ?last ?refused ?granted ?filled h hrun
  case thrown =>
    intro s h hlt hthrow
    refine ⟨.thrown h ?_, rfl⟩
    rw [Rounds.answers, List.length_map]
    exact h.answerAt_eq.trans hthrow
  case last =>
    intro s a h hlt ha hid hlast
    exact ⟨.givenUp h hlt ha hid hlast, hkeep s a⟩
  case refused =>
    intro s a r s' _ _ _ _ _ ih
    exact ⟨ih.1, ih.2.trans (hkeep s a)⟩
  case granted =>
    intro s a r s' _ _ _ _ ih
    exact ⟨ih.1, ih.2.trans (List.length_set ..)⟩
  case filled =>
    intro s h hge
    exact ⟨.filled h (le_antisymm h.traced.jobindex_le hge), rfl⟩

/-- Each round takes an object or one of the refusals that are left. -/
lemma Rounds.Running.terminates {fuel : ℕ} (h : s.Running behave ret₀)
    (hfuel : s.slots.length - s.jobindex + (nodes.count - s.failedReservation) ≤ fuel) :
    ∃ r s', distribute behave fuel s = some (r, s') := by
  have hfailed := h.failed_lt
  induction fuel generalizing s with
  | zero => omega
  | succ fuel ih =>
      rw [distribute]
      split
      · next hlt =>
          split
          · exact ⟨_, _, rfl⟩
          · next a ha =>
              split
              · next hid =>
                  split
                  · exact ⟨_, _, rfl⟩
                  · next hmore =>
                      have hfailed' : (s.refused a).failedReservation < nodes.count :=
                        lt_of_le_of_ne h.failed_lt hmore
                      refine ih ((h.refused ha hid).advance hfailed' h.next
                        (by simp [Rounds.refused])) ?_ hfailed'
                      show (s.slots.modify _ _).length - s.jobindex +
                        (nodes.count - (s.failedReservation + 1)) ≤ fuel
                      rw [List.length_modify]
                      omega
              · next hid =>
                  refine ih ((h.granted ha hlt hid).advance h.failed_lt h.next
                    (by simp [Rounds.granted])) ?_ hfailed
                  show (s.slots.set _ _).length - (s.jobindex + 1) +
                    (nodes.count - s.failedReservation) ≤ fuel
                  rw [List.length_set]
                  omega
      · exact ⟨_, _, rfl⟩

/-! ### What the loop is for -/

variable (nodes behave) in
/-- The loop ends, having asked the nodes in turn; if it returns true each object has a
reservation that was granted, in order, and if it returns false all nodes have refused since the
last one that was granted. -/
def Distributes (slots : List Slot) (ret : Bool) : Prop :=
  ∃ fuel r s, distribute behave fuel (.start nodes slots ret) = some (r, s) ∧ GoesRound s.calls ∧
    (r = some true → s.slots = grantedSlots s.answers ∧ s.slots.length = slots.length) ∧
    (r = some false → Covers (s.calls.rtakeWhile fun c => c.2.2.1 = 0))

/-- The refusal that makes up the number of nodes comes before all objects have a reservation,
and one of the refusals before it was followed by a reservation. -/
def Interrupted (reserve : ℕ → Option NodeAnswer) (count howmany : ℕ) : Prop :=
  ∃ asked a, Asked reserve 0 (asked ++ [a]) ∧ a.2.1 = 0 ∧ refusals asked + 1 = count ∧
    (grantedSlots asked).length < howmany ∧ ¬asked.Pairwise fun a b => a.2.1 = 0 → b.2.1 = 0

/-- Answers that go on behind a refusal have one refusal more than those before it. -/
lemma Asked.refusals_lt {reserve : ℕ → Option NodeAnswer} {asked asked' : List NodeAnswer}
    (h : Asked reserve 0 (asked ++ [a])) (hid : a.2.1 = 0) (h' : Asked reserve 0 asked')
    (hlt : asked.length < asked'.length) : refusals asked + 1 ≤ refusals asked' := by
  have hpre := Asked.prefix_of_le h h' (by
    rw [List.length_append]
    exact hlt)
  have hcount : refusals (asked ++ [a]) = refusals asked + 1 := by
    rw [refusals_concat, if_pos hid]
  rw [← hcount]
  exact hpre.sublist.countP_le

/-- The answers that the loop has got, if there are too many refusals. -/
lemma Ends.asked_eq {asked : List NodeAnswer} {a : NodeAnswer} (h : Ends behave ret₀ r s)
    (hasked : Asked (answerAt nodes behave) 0 (asked ++ [a])) (hid : a.2.1 = 0)
    (hlast : refusals asked + 1 = nodes.count)
    (hlt : (grantedSlots asked).length < s.slots.length) :
    r = some false ∧ ∃ b, s.answers = asked ++ [b] ∧ refusals s.answers = nodes.count := by
  cases h with
  | @thrown s h hthrow =>
      -- a node that throws would have been asked after the last refusal
      exfalso
      have hfew := h.failed_lt
      rw [h.traced.failed] at hfew
      rcases Nat.lt_or_ge asked.length s.answers.length with hlt' | hge
      · have := hasked.refusals_lt hid h.traced.asked hlt'
        omega
      · have hsome := hasked s.answers.length (by
          rw [List.length_append, List.length_singleton]
          omega)
        rw [Nat.zero_add, hthrow, eq_comm, List.getElem?_eq_none_iff] at hsome
        simp only [List.length_append, List.length_singleton] at hsome
        omega
  | @filled s h hfull =>
      -- the slots are full only if more nodes granted than the answers have
      exfalso
      have hfew := h.failed_lt
      rw [h.traced.failed] at hfew
      rcases Nat.lt_or_ge asked.length s.answers.length with hlt' | hge
      · have := hasked.refusals_lt hid h.traced.asked hlt'
        omega
      · have hpre := Asked.prefix_of_le h.traced.asked (JobMgr.asked_concat.mp hasked).1 hge
        have hle : (grantedSlots s.answers).length ≤ (grantedSlots asked).length :=
          ((hpre.sublist.filter _).map _).length_le
        rw [← h.traced.jobindex_eq, hfull] at hle
        omega
  | @givenUp s b h hlt₀ hb hidb hlast₀ =>
      have hanswers : (s.refused b).answers = s.answers ++ [b] := answers_refused
      have hcount : refusals (s.answers ++ [b]) = nodes.count := by
        rw [refusals_concat, if_pos hidb, ← h.traced.failed, hlast₀]
      -- the count of refusals is reached at one answer only
      have hlen : s.answers.length = asked.length := by
        rcases lt_trichotomy asked.length s.answers.length with hlt' | heq | hgt
        · have := hasked.refusals_lt hid h.traced.asked hlt'
          have hfew := h.failed_lt
          rw [h.traced.failed] at hfew
          omega
        · exact heq.symm
        · have := (h.asked_concat hb).refusals_lt hidb (JobMgr.asked_concat.mp hasked).1 hgt
          rw [← h.traced.failed] at this
          omega
      have heq : s.answers = asked :=
        (Asked.prefix_of_le h.traced.asked (JobMgr.asked_concat.mp hasked).1 hlen.le).eq_of_length
          hlen
      exact ⟨rfl, b, by rw [hanswers, heq], by rw [hanswers, hcount]⟩

/-- The refusals at the end of the calls are all that there are, if no reservation has followed
one of them. -/
lemma refusals_eq_length (hpair : s.answers.Pairwise fun a b => a.2.1 = 0 → b.2.1 = 0) :
    refusals s.answers = (s.calls.rtakeWhile fun c => c.2.2.1 = 0).length := by
  rw [Rounds.answers, List.pairwise_map] at hpair
  rw [← countP_eq_length_rtakeWhile (by simpa using hpair), refusals, Rounds.answers,
    List.countP_map]
  rfl

lemma pairwise_of_refusals_le
    (h : refusals s.answers ≤ (s.calls.rtakeWhile fun c => c.2.2.1 = 0).length) :
    s.answers.Pairwise fun a b => a.2.1 = 0 → b.2.1 = 0 := by
  rw [refusals, Rounds.answers, List.countP_map] at h
  have hpair := pairwise_of_countP_le h
  rw [Rounds.answers, List.pairwise_map]
  simpa using hpair

lemma Ends.visits (h : Ends behave ret₀ r s) : GoesRound s.calls := by
  cases h with
  | thrown h | filled h => exact h.traced.visits
  | givenUp h hlt ha hid => exact (h.refused ha hid).visits

/-- If the loop returns true, it has filled the arrays. -/
lemma Ends.filled_of_true (h : Ends behave ret₀ (some true) s) :
    s.slots = grantedSlots s.answers := by
  generalize hr : some true = r at h
  cases h with
  | thrown => cases hr
  | filled h hfull =>
      have hassigned := h.traced.assigned
      rwa [hfull, List.take_length] at hassigned
  | givenUp => cases hr

/-- If the loop returns false, there was nothing to do, or too many refusals have come, and after
the last reservation as many as there are nodes. -/
lemma Ends.covers_of_false (h : Ends behave ret₀ (some false) s)
    (hnot : ¬Interrupted (answerAt nodes behave) nodes.count s.slots.length)
    (hret : s.slots = [] → ret₀ = true) : Covers (s.calls.rtakeWhile fun c => c.2.2.1 = 0) := by
  have hvisits := h.visits
  generalize hr : some false = r at h
  cases h with
  | thrown => cases hr
  | filled h hfull =>
      exfalso
      have hfalse := h.ret
      rw [← Option.some.inj hr, eq_comm, Bool.or_eq_false_iff, Bool.not_eq_false',
        List.isEmpty_iff] at hfalse
      have hnone : s.slots.length = 0 := by
        rw [← hfull, h.traced.jobindex_eq, Rounds.answers, hfalse.2]
        rfl
      rw [hret (List.length_eq_zero_iff.mp hnone)] at hfalse
      exact absurd hfalse.1 (by decide)
  | @givenUp s a h hlt ha hid hlast =>
      have hlen : (s.refused a).slots.length = s.slots.length := List.length_modify ..
      have hfailed : refusals s.answers + 1 = nodes.count := by rw [← h.traced.failed, hlast]
      have hpair : s.answers.Pairwise fun a b => a.2.1 = 0 → b.2.1 = 0 := by
        by_contra hpair
        refine hnot ⟨s.answers, a, h.asked_concat ha, hid, hfailed, ?_, hpair⟩
        rw [hlen, ← h.traced.jobindex_eq]
        exact hlt
      have hpair' : (s.refused a).answers.Pairwise fun a b => a.2.1 = 0 → b.2.1 = 0 := by
        rw [answers_refused, List.pairwise_append]
        refine ⟨hpair, List.pairwise_singleton _ _, fun _ _ b hb _ => ?_⟩
        rwa [List.mem_singleton.mp hb]
      refine (hvisits.covers_iff_le (List.rtakeWhile_suffix _ _)).mpr ?_
      rw [← refusals_eq_length hpair', answers_refused, refusals_concat, if_pos hid, hfailed]

variable (nodes behave) in
/-- **Distribution of the objects.**  The loop does what it is for if and only if the refusals
before it gives up have not been followed by a reservation, and there is an object or `ret` was
true before. -/
theorem distributes_iff (slots : List Slot) (ret : Bool) :
    Distributes nodes behave slots ret ↔
      ¬Interrupted (answerAt nodes behave) nodes.count slots.length ∧
        (slots = [] → ret = true) := by
  have hstart := @running_start nodes behave slots ret
  constructor
  · rintro ⟨fuel, r, s, hrun, -, -, hfalse⟩
    obtain ⟨hends, hlen⟩ := hstart.ends hrun
    replace hlen : s.slots.length = slots.length := hlen
    refine ⟨?_, ?_⟩
    · rintro ⟨asked, a, hasked, hid, hlast, hlt, hnot⟩
      obtain ⟨rfl, b, hanswers, hcount⟩ := hends.asked_eq hasked hid hlast (by rwa [hlen])
      have hpair := pairwise_of_refusals_le (hcount.trans_le (hfalse rfl).le_length)
      rw [hanswers, List.pairwise_append] at hpair
      exact hnot hpair.1
    · rintro rfl
      by_contra hret
      rw [Bool.not_eq_true] at hret
      cases fuel with
      | zero => cases hrun
      | succ fuel =>
          subst hret
          obtain ⟨rfl, rfl⟩ : some false = r ∧ Rounds.start nodes [] false = s := by
            simpa [distribute, Rounds.start] using hrun
          obtain ⟨c, hc, -⟩ := hfalse rfl ⟨0, nodes.count_pos⟩
          exact absurd hc (by simp [Rounds.start])
  · rintro ⟨hnot, hret⟩
    obtain ⟨r, s, hrun⟩ := hstart.terminates le_rfl
    obtain ⟨hends, hlen⟩ := hstart.ends hrun
    replace hlen : s.slots.length = slots.length := hlen
    refine ⟨_, r, s, hrun, hends.visits, ?_, ?_⟩
    · rintro rfl
      exact ⟨hends.filled_of_true, hlen⟩
    · rintro rfl
      refine hends.covers_of_false (by rwa [hlen]) fun hnil => hret ?_
      exact List.length_eq_zero_iff.mp (by rw [← hlen, hnil]; rfl)

/-- The second one of two nodes grants whatever it is asked for, and the first one nothing. -/
def oneFull (_ : ℕ) (node : AccessPoint) : Option NodeAnswer :=
  some (⟨"jobmgr", by decide⟩, if node = "second" then 1 else 0, 1)

/-- The loop gives up when the first node has refused twice, although the second one grants. -/
theorem distribution_interrupted :
    ¬∀ (nodes : Responses) (behave : Behaviour) (slots : List Slot)
      (ret : Bool), slots ≠ [] → Distributes nodes behave slots ret := by
  intro h
  have hdistributes := h ⟨["first", "second"], by decide⟩ oneFull (fresh 2) false (by decide)
  refine ((distributes_iff _ _ _ _).mp hdistributes).1
    ⟨[(⟨"jobmgr", by decide⟩, 0, 1), (⟨"jobmgr", by decide⟩, 1, 1)], (⟨"jobmgr", by decide⟩, 0, 1),
      ?_, rfl, rfl, by decide, by decide⟩
  exact asked_cons.mpr ⟨rfl, asked_cons.mpr ⟨rfl, asked_cons.mpr ⟨rfl, asked_nil⟩⟩⟩

/-! ### The loop in the model of `AllocResource` -/

section Step

variable {reserve : ℕ → Option NodeAnswer} {k spare : ℕ} {slot : Slot} {rest : List Slot}
  {ret : Bool}

lemma reserveLoop_thrown (h : reserve k = none) :
    reserveLoop reserve k spare (slot :: rest) ret = ⟨none, slot :: rest, [], []⟩ := by
  simp [reserveLoop.eq_def, h]

lemma reserveLoop_last (h : reserve k = some a) (hid : a.2.1 = 0) :
    reserveLoop reserve k 0 (slot :: rest) ret =
      ⟨some false, { slot with reserveID := 0 } :: rest, [], []⟩ := by
  simp [reserveLoop.eq_def, h, hid]

lemma reserveLoop_refused (h : reserve k = some a) (hid : a.2.1 = 0) :
    reserveLoop reserve k (spare + 1) (slot :: rest) ret =
      reserveLoop reserve (k + 1) spare ({ slot with reserveID := 0 } :: rest) true := by
  rw [reserveLoop.eq_def]
  simp [h, hid]

variable (spare slot rest ret) in
lemma reserveLoop_reserved (h : reserve k = some a) (hid : a.2.1 ≠ 0) :
    (reserveLoop reserve k spare (slot :: rest) ret).ret =
        (reserveLoop reserve (k + 1) spare rest true).ret ∧
      (reserveLoop reserve k spare (slot :: rest) ret).slots =
        ⟨a.2.2, a.1, a.2.1⟩ :: (reserveLoop reserve (k + 1) spare rest true).slots := by
  rw [reserveLoop.eq_def]
  simp [h, hid]

end Step

/-- What `reserveLoop` does from the state on. -/
def Rounds.rest (behave : Behaviour) (s : Rounds nodes) : Alloc :=
  reserveLoop (answerAt nodes behave) s.calls.length (nodes.count - 1 - s.failedReservation)
    (s.slots.drop s.jobindex) s.ret

section Call

variable (h : s.Running behave ret₀) (hlt : s.jobindex < s.slots.length)

include hlt

lemma slots_refused : (s.refused a).slots = s.slots.take s.jobindex ++
    { s.slots[s.jobindex] with reserveID := 0 } :: s.slots.drop (s.jobindex + 1) := by
  rw [Rounds.refused, List.modify_eq_take_cons_drop hlt]

lemma slots_granted : (s.granted a).slots = (s.slots.take s.jobindex ++
    [⟨a.2.2, a.1, a.2.1⟩]) ++ s.slots.drop (s.jobindex + 1) := by
  rw [Rounds.granted, List.set_eq_take_append_cons_drop, if_pos hlt, List.append_assoc,
    List.singleton_append]

include h

lemma Rounds.Running.rest_thrown (hthrow : behave s.calls.length (nodes.1.get s.ni) = none) :
    s.rest behave = ⟨none, s.slots.drop s.jobindex, [], []⟩ := by
  rw [Rounds.rest, List.drop_eq_getElem_cons hlt, reserveLoop_thrown (h.answerAt_eq.trans hthrow)]

variable (ha : behave s.calls.length (nodes.1.get s.ni) = some a)
include ha

lemma Rounds.Running.rest_last (hid : a.2.1 = 0) (hlast : s.failedReservation + 1 = nodes.count) :
    (s.rest behave).ret = some false ∧
      (s.refused a).slots = s.slots.take s.jobindex ++ (s.rest behave).slots := by
  have hspare : nodes.count - 1 - s.failedReservation = 0 := by omega
  rw [Rounds.rest, List.drop_eq_getElem_cons hlt, hspare,
    reserveLoop_last (h.answerAt_eq.trans ha) hid]
  exact ⟨rfl, slots_refused hlt⟩

lemma Rounds.Running.rest_refused (hid : a.2.1 = 0)
    (hmore : s.failedReservation + 1 < nodes.count) :
    s.rest behave = (s.refused a).advance.rest behave ∧
      (s.refused a).slots.take s.jobindex = s.slots.take s.jobindex := by
  have hlen : (s.slots.take s.jobindex).length = s.jobindex := List.length_take_of_le hlt.le
  have hspare : nodes.count - 1 - s.failedReservation =
    nodes.count - 1 - (s.failedReservation + 1) + 1 := by omega
  have hdrop : (s.refused a).slots.drop s.jobindex =
      { s.slots[s.jobindex] with reserveID := 0 } :: s.slots.drop (s.jobindex + 1) := by
    rw [slots_refused hlt, List.drop_left' hlen]
  have hcalls : (s.refused a).calls.length = s.calls.length + 1 := List.length_append
  refine ⟨?_, by rw [slots_refused hlt, List.take_left' hlen]⟩
  rw [Rounds.rest, List.drop_eq_getElem_cons hlt, hspare,
    reserveLoop_refused (h.answerAt_eq.trans ha) hid, ← hdrop, ← hcalls]
  rfl

lemma Rounds.Running.rest_granted (hid : a.2.1 ≠ 0) :
    (s.rest behave).ret = ((s.granted a).advance.rest behave).ret ∧
      (s.granted a).slots.take (s.jobindex + 1) ++ ((s.granted a).advance.rest behave).slots =
        s.slots.take s.jobindex ++ (s.rest behave).slots := by
  have hlen : (s.slots.take s.jobindex ++ [(⟨a.2.2, a.1, a.2.1⟩ : Slot)]).length =
      s.jobindex + 1 := by
    rw [List.length_append, List.length_take_of_le hlt.le, List.length_singleton]
  have hdrop : (s.granted a).slots.drop (s.jobindex + 1) = s.slots.drop (s.jobindex + 1) := by
    rw [slots_granted hlt, List.drop_left' hlen]
  have hcalls : (s.granted a).calls.length = s.calls.length + 1 := List.length_append
  obtain ⟨hret, hslots⟩ := reserveLoop_reserved (nodes.count - 1 - s.failedReservation)
    s.slots[s.jobindex] (s.slots.drop (s.jobindex + 1)) s.ret (h.answerAt_eq.trans ha) hid
  rw [← List.drop_eq_getElem_cons hlt, ← hdrop, ← hcalls] at hret hslots
  have htake : (s.granted a).slots.take (s.jobindex + 1) =
      s.slots.take s.jobindex ++ [⟨a.2.2, a.1, a.2.1⟩] := by
    rw [slots_granted hlt, List.take_left' hlen]
  refine ⟨hret, ?_⟩
  rw [htake, List.append_assoc, List.singleton_append]
  exact congrArg (s.slots.take s.jobindex ++ ·) hslots.symm

end Call

/-- The loop does what `reserveLoop` does with the answers of the nodes in turn. -/
theorem distribute_reserveLoop {fuel : ℕ} (h : s.Running behave ret₀)
    (hrun : distribute behave fuel s = some (r, s')) :
    (s.rest behave).ret = r ∧ s'.slots = s.slots.take s.jobindex ++ (s.rest behave).slots := by
  refine Rounds.Running.induct (P := fun s r s' => (s.rest behave).ret = r ∧
    s'.slots = s.slots.take s.jobindex ++ (s.rest behave).slots)
    ?thrown ?last ?refused ?granted ?filled h hrun
  case thrown =>
    intro s h hlt hthrow
    rw [h.rest_thrown hlt hthrow]
    exact ⟨rfl, (List.take_append_drop _ _).symm⟩
  case last =>
    intro s a h hlt ha hid hlast
    exact h.rest_last hlt ha hid hlast
  case refused =>
    intro s a r s' h hlt ha hid hfailed ih
    obtain ⟨hrest, htake⟩ := h.rest_refused hlt ha hid hfailed
    rw [hrest, ← htake]
    exact ih
  case granted =>
    intro s a r s' h hlt ha hid ih
    obtain ⟨hret, hslots⟩ := h.rest_granted hlt ha hid
    exact ⟨hret.trans ih.1, ih.2.trans hslots⟩
  case filled =>
    intro s h hfull
    rw [Rounds.rest, List.drop_eq_nil_of_le hfull, List.take_of_length_le hfull,
      reserveLoop.eq_def]
    exact ⟨rfl, (List.append_nil _).symm⟩

end

end JobMgr
