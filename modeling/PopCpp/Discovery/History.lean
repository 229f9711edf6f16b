/-
# How long a node remembers a request

A search node remembers the ids of the last `MAXREQTOSAVE` requests that it has evaluated, and
evaluates a request only if its id is not among them.  So its history is the end of the sequence
of all ids that it has evaluated, whatever messages it gets and in whatever order, and an id that
it evaluates again has been driven out of the history by that many others.
-/
import PopCpp.Discovery.Flood
import PopCpp.Lib.History

namespace Discovery

variable {N : Type*} [LinearOrder N]

/-- The ids that a node has evaluated, in order. -/
def Grid.evaluatedIds (g : Grid N) (n : N) : List (RequestId N) :=
  (g.checks.filter fun c => c.node = n).map Check.id

/-- The grid after some messages have reached their nodes. -/
def Grid.receiveAll (g : Grid N) (ms : List (Message N)) : Grid N := ms.foldl receive g

/-- A node remembers the last ids that it has evaluated, and these are spread. -/
structure Remembers (g : Grid N) (n : N) : Prop where
  knownRequests : (g.node n).knownRequests = History.latest maxReqToSave (g.evaluatedIds n)
  spread : History.Spread maxReqToSave (g.evaluatedIds n)

variable {g : Grid N} {n : N}

lemma evaluatedIds_concat (c : Check N) {node : N → SearchNode N} {inFlight : List (Message N)}
    {ends : List (N × String)} :
    Grid.evaluatedIds ⟨node, inFlight, g.checks ++ [c], ends⟩ n =
      g.evaluatedIds n ++ if c.node = n then [c.id] else [] := by
  rw [Grid.evaluatedIds, List.filter_append, List.map_append]
  congr 1
  split_ifs with hc
  · rw [List.filter_singleton, decide_eq_true hc]
    rfl
  · rw [List.filter_singleton, decide_eq_false hc]
    rfl

/-- A message keeps the history in order. -/
lemma Remembers.receive (h : Remembers g n) (m : Message N) :
    Remembers (Discovery.receive g m) n := by
  have hsame : ∀ {node : N → SearchNode N} {inFlight : List (Message N)} {ends : List (N × String)},
      (node n).knownRequests = (g.node n).knownRequests →
      Remembers ⟨node, inFlight, g.checks, ends⟩ n :=
    fun heq => ⟨heq.trans h.knownRequests, h.spread⟩
  cases m with
  | unregisterNode dest url => exact hsame knownRequests_update_removeNeighbor
  | ask dest req sender =>
      cases hend : req.endingSignal with
      | true =>
          rw [receive_ask_end hend]
          exact hsame rfl
      | false =>
          by_cases hknown : req.uniqueId ∈ (g.node dest).knownRequests
          · rw [receive_ask_known hend hknown]
            exact hsame knownRequests_update_removeNeighbor
          · rw [receive_ask_new hend hknown]
            by_cases hn : dest = n
            · subst hn
              rw [h.knownRequests] at hknown
              refine ⟨?_, ?_⟩
              · show (Function.update g.node dest _ dest).knownRequests = _
                rw [evaluatedIds_concat, if_pos rfl, History.latest_concat (by decide),
                  ← h.knownRequests, Function.update_self]
                rfl
              · rw [evaluatedIds_concat, if_pos rfl]
                exact h.spread.concat hknown
            · refine ⟨?_, ?_⟩
              · show (Function.update g.node dest _ n).knownRequests = _
                rw [evaluatedIds_concat, if_neg hn, List.append_nil,
                  Function.update_of_ne (Ne.symm hn), h.knownRequests]
              · rw [evaluatedIds_concat, if_neg hn, List.append_nil]
                exact h.spread

lemma Remembers.receiveAll (h : Remembers g n) (ms : List (Message N)) :
    Remembers (g.receiveAll ms) n := by
  induction ms generalizing g with
  | nil => exact h
  | cons m ms ih => exact ih (h.receive m)

lemma remembers_grid (ov : Overlay N) (clock : N → ℕ) (n : N) : Remembers (ov.grid clock) n :=
  ⟨rfl, History.spread_nil _⟩

/-- **The history of a node.**  After any messages a node remembers at most `MAXREQTOSAVE` ids,
none of them twice, and between two evaluations of the same id it has evaluated at least as many
others. -/
theorem history_window (ov : Overlay N) (clock : N → ℕ) (ms : List (Message N)) (n : N) :
    let g := (ov.grid clock).receiveAll ms
    (g.node n).knownRequests.length ≤ maxReqToSave ∧ (g.node n).knownRequests.Nodup ∧
      ∀ before id between after,
        g.evaluatedIds n = before ++ id :: (between ++ id :: after) →
        maxReqToSave ≤ (between.toFinset.erase id).card := by
  intro g
  have h : Remembers g n := (remembers_grid ov clock n).receiveAll ms
  rw [h.knownRequests]
  exact ⟨History.length_latest_le _ _, h.spread.nodup_latest,
    fun before id between after => h.spread.le_card⟩

/-- Eleven requests, and the first one again, which is evaluated again. -/
example :
    Grid.evaluatedIds ((Overlay.grid ⟨fun _ => [], fun _ _ h => nomatch h⟩ fun _ => 0).receiveAll
      ((List.range 11 ++ [0]).map fun k => .ask 0 ⟨(0, k), 0, "", false, []⟩ 0)) 0 =
      (List.range 11 ++ [0]).map fun k => ((0 : ℕ), k) := by
  decide +kernel

end Discovery
