/-
# Nodes that are dropped before they are tried

Whether a machine is good enough for an object is decided twice: by `checkResource` of its search
node, on the request that `AllocResource` has made of the description, and by `MatchAndReserve` of
its job manager.  A node that the first one refuses is not tried.  The two do not agree on what is
enough: the search node takes the required power for a minimum, refuses a machine with exactly the
memory or the bandwidth that is expected, and asks for the bandwidth at all.
-/
import PopCpp.JobMgr.SearchRequest
import PopCpp.JobMgr.Mirror
import PopCpp.JobMgr.Reserve
import Mathlib.Data.Rat.Floor

namespace JobMgr

open Discovery Discovery.Serialize

/-- The amounts of an object description. -/
def ObjectDescription.demand (od : ObjectDescription ℚ) : Demand ℚ where
  required
    | .flops => od.power
    | .mem => od.memory
    | .bandwidth => od.net
  least
    | .flops => od.minPower
    | .mem => od.minMemory
    | .bandwidth => od.minNet

/-- A request with nothing set, at a place in memory. -/
def unsetRequirements (memory : Requirements ℚ) : Requirements ℚ where
  minCpuSpeed := ⟨false, memory.minCpuSpeed.value⟩
  expectedCpuSpeed := ⟨false, memory.expectedCpuSpeed.value⟩
  minMemorySize := ⟨false, memory.minMemorySize.value⟩
  expectedMemorySize := ⟨false, memory.expectedMemorySize.value⟩
  minNetworkBandwidth := ⟨false, memory.minNetworkBandwidth.value⟩
  expectedNetworkBandwidth := ⟨false, memory.expectedNetworkBandwidth.value⟩
  minDiskSpace := ⟨false, memory.minDiskSpace.value⟩
  minPower := ⟨false, memory.minPower.value⟩
  expectedPower := ⟨false, memory.expectedPower.value⟩

/-- What `AllocResource` asks for. -/
def askFor (memory : Requirements ℚ) (od : ObjectDescription ℚ) : Requirements ℚ :=
  od.demand.askFor (unsetRequirements memory)

/-- A node that has free job slots and knows the available amounts. -/
structure Knows (node : NodeState ℚ) (available : Amounts ℚ) : Prop where
  jobs : node.currentJobs < node.maxJobs
  power : node.power = available .flops
  memorySize : node.memorySize = available .mem
  networkBandwidth : node.networkBandwidth = available .bandwidth

/-- No node with these amounts is dropped whose job manager would grant the object. -/
def KeepsUsable (od : ObjectDescription ℚ) (available : Amounts ℚ) : Prop :=
  ∀ (c : Config ℚ) (m : Manager ℚ) (inoutfitness : ℚ) (node : NodeState ℚ)
    (memory : Requirements ℚ), m.available = available → (∀ q, available q ≤ c.limit q) →
    Knows node available → Grants c m od inoutfitness → checkResource node (askFor memory od) = true

/-- The least power and memory of which `MatchAndReserve` makes sure are available. -/
structure Feasible (od : ObjectDescription ℚ) (available : Amounts ℚ) : Prop where
  power : 0 < od.power → (if od.minPower < 0 then od.power else od.minPower) ≤ available .flops
  memory : 0 < od.memory → (if od.minMemory < 0 then od.memory else od.minMemory) ≤ available .mem

/-- What `checkResource` makes sure of, in the words of the description. -/
structure PassesCheck (od : ObjectDescription ℚ) (available : Amounts ℚ) : Prop where
  minPower : 0 < od.minPower → od.minPower ≤ available .flops
  power : 0 < od.power → od.power ≤ available .flops
  memory : 0 < od.memory → od.memory ≤ available .mem
  minMemory : 0 < od.minMemory → od.minMemory < available .mem
  minNet : 1 / 2 < available .bandwidth → 0 < od.minNet → od.minNet ≤ available .bandwidth
  net : 1 / 2 < available .bandwidth → 0 < od.net → od.net < available .bandwidth

variable {od : ObjectDescription ℚ} {available : Amounts ℚ}

/-- What is asked of a member that is only set if its amount is positive. -/
lemma forall_wish {f : Serialize.Field ℚ} (hf : f.isSet = false) (v : ℚ) (P : ℚ → Prop) :
    ((wish f v).isSet = true → P (wish f v).value) ↔ (0 < v → P v) := by
  have hwish : wish f v = if 0 < v then .of v else f := by
    rw [wish]
    exact if_congr decide_eq_true_iff rfl rfl
  rw [hwish]
  split
  · next hpos => exact ⟨fun h _ => h rfl, fun h _ => h hpos⟩
  · next hneg =>
      exact iff_of_true (fun hset => absurd (hf.symm.trans hset) Bool.false_ne_true)
        fun hpos => absurd hpos hneg

lemma checkResource_askFor_iff {node : NodeState ℚ} (h : Knows node available)
    (memory : Requirements ℚ) :
    checkResource node (askFor memory od) = true ↔ PassesCheck od available := by
  have hgt : ∀ x y : ℚ, Amount.gt x y = false ↔ x ≤ y := fun x y =>
    decide_eq_false_iff_not.trans not_lt
  have hge : ∀ x y : ℚ, Amount.ge x y = false ↔ x < y := fun x y =>
    decide_eq_false_iff_not.trans not_le
  have hknown : Amount.gt (available .bandwidth) Amount.half = true ↔
      1 / 2 < available .bandwidth := decide_eq_true_iff
  have hminPower := forall_wish (f := (unsetRequirements memory).minPower) rfl od.minPower
    (· ≤ available .flops)
  have hpower := forall_wish (f := (unsetRequirements memory).expectedPower) rfl od.power
    (· ≤ available .flops)
  have hmemory := forall_wish (f := (unsetRequirements memory).minMemorySize) rfl od.memory
    (· ≤ available .mem)
  have hminMemory := forall_wish (f := (unsetRequirements memory).expectedMemorySize) rfl
    od.minMemory (· < available .mem)
  have hminNet := forall_wish (f := (unsetRequirements memory).minNetworkBandwidth) rfl
    od.minNet (· ≤ available .bandwidth)
  have hnet := forall_wish (f := (unsetRequirements memory).expectedNetworkBandwidth) rfl
    od.net (· < available .bandwidth)
  rw [checkResource_eq_true_iff]
  constructor
  · rintro ⟨-, -, -, hm, he, hb, hx, -, hp, hq⟩
    simp only [hgt, hge, hknown, h.power, h.memorySize, h.networkBandwidth] at hm he hb hx hp hq
    exact ⟨hminPower.mp hp, hpower.mp hq, hmemory.mp hm, hminMemory.mp he,
      fun hhalf => hminNet.mp (hb hhalf), fun hhalf => hnet.mp (hx hhalf)⟩
  · intro hpass
    refine ⟨h.jobs, fun hset => absurd hset Bool.false_ne_true,
      fun hset => absurd hset Bool.false_ne_true, ?_, ?_, ?_, ?_,
      fun hset => absurd hset Bool.false_ne_true, ?_, ?_⟩
    all_goals simp only [hgt, hge, hknown, h.power, h.memorySize, h.networkBandwidth]
    · exact hmemory.mpr hpass.memory
    · exact hminMemory.mpr hpass.minMemory
    · exact fun hhalf => hminNet.mpr (hpass.minNet hhalf)
    · exact fun hhalf => hnet.mpr (hpass.net hhalf)
    · exact hminPower.mpr hpass.minPower
    · exact hpower.mpr hpass.power

lemma isEmpty_of_pos (h : 0 < od.power ∨ 0 < od.memory) : od.isEmpty = false := by
  rcases h with h | h <;> simp [ObjectDescription.isEmpty, h.not_gt]

/-- What is granted is feasible. -/
lemma Grants.feasible {c : Config ℚ} {m : Manager ℚ} {inoutfitness : ℚ}
    (h : Grants c m od inoutfitness) : Feasible od m.available := by
  obtain ⟨-, hmin, hsome⟩ := h
  constructor
  · intro hpower
    have hmin := hmin.resolve_left (by rw [isEmpty_of_pos (.inl hpower)]; decide)
    simp only [checkMinPower, decide_eq_true_eq, not_or, not_lt] at hmin
    exact (hmin hpower).1
  · intro hmemory
    by_contra hnot
    have hunsuited : Unsuited c m od inoutfitness :=
      .memory (isEmpty_of_pos (.inr hmemory)) hmemory (not_le.mp hnot)
    rw [matchResources_eq_none_iff.mpr hunsuited] at hsome
    cases hsome

/-- The configuration of a machine with at least these amounts. -/
def configWith (available : Amounts ℚ) : Config ℚ :=
  ⟨available .flops, ⌈available .mem⌉, ⌈available .bandwidth⌉, 1, 1, 0, none⟩

lemma available_le_limit (available : Amounts ℚ) (q : Quantity) :
    available q ≤ (configWith available).limit q := by
  cases q with
  | flops => exact le_rfl
  | mem => exact Int.le_ceil _
  | bandwidth => exact Int.le_ceil _

/-- What is feasible is granted by an idle machine, to one who takes any fitness. -/
lemma Feasible.grants (h : Feasible od available) :
    ∃ inoutfitness, Grants (configWith available) ⟨[], available, 1⟩ od inoutfitness := by
  refine ⟨min (powerFitness (configWith available) ⟨[], available, 1⟩ od)
    (memoryFitness ⟨[], available, 1⟩ od), Nat.one_pos, Or.inr ?_, ?_⟩
  · simp only [checkMinPower, decide_eq_true_eq, not_or, not_lt]
    exact fun hpower => ⟨h.power hpower, h.power hpower⟩
  · rw [Option.isSome_iff_ne_none, ne_eq, matchResources_eq_none_iff]
    intro hunsuited
    cases hunsuited with
    | power _ _ hlow => exact absurd hlow (not_lt.mpr (min_le_left _ _))
    | memory _ hmemory hlow => exact absurd (h.memory hmemory) (not_le.mpr hlow)
    | memoryFitness _ _ _ hlow => exact absurd hlow (not_lt.mpr (min_le_right _ _))
    | walltime _ hnone => cases hnone

/-- **The filter.**  No node is dropped that could have been used if and only if the machines with
these amounts could not be used at all, or they pass the check. -/
theorem keepsUsable_iff (od : ObjectDescription ℚ) (available : Amounts ℚ) :
    KeepsUsable od available ↔ ¬Feasible od available ∨ PassesCheck od available := by
  constructor
  · intro h
    rw [or_iff_not_imp_left, not_not]
    intro hfeasible
    obtain ⟨inoutfitness, hgrants⟩ := hfeasible.grants
    have hknows : Knows ⟨0, 1, available .flops, 0, available .mem, available .bandwidth, 0⟩
        available := ⟨Int.one_pos, rfl, rfl, rfl⟩
    exact (checkResource_askFor_iff hknows ⟨⟨false, 0⟩, ⟨false, 0⟩, ⟨false, 0⟩, ⟨false, 0⟩,
      ⟨false, 0⟩, ⟨false, 0⟩, ⟨false, 0⟩, ⟨false, 0⟩, ⟨false, 0⟩⟩).mp
        (h _ _ inoutfitness _ _ rfl (available_le_limit available) hknows hgrants)
  · rintro (hnot | hpass) c m inoutfitness node memory rfl hlimit hknows hgrants
    · exact absurd hgrants.feasible hnot
    · exact (checkResource_askFor_iff hknows memory).mpr hpass

/-- A machine of 50 Mflops for an object that wants 100 and can do with 50. -/
theorem usable_dropped : ¬∀ od available, KeepsUsable od available := by
  intro h
  have hkeeps := (keepsUsable_iff ⟨100, 50, -1, -1, -1, -1, -1, ""⟩ (amounts 50 0 0)).mp (h _ _)
  rcases hkeeps with hnot | hpass
  · exact hnot ⟨fun _ => by decide +kernel, fun hmemory => absurd hmemory (by decide +kernel)⟩
  · exact absurd (hpass.power (by decide +kernel)) (by decide +kernel)

end JobMgr
