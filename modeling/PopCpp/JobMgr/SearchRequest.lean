/-
# The request that a search is made with

`AllocResource` turns an object description into a `Request`: the least amount of power, memory
and bandwidth as the minimum, the required amount as what is expected, and each of them only if it
is positive.  The three getters of `pop_od` have two output parameters, the required amount first.
For the memory the two are taken the other way round.
-/
import PopCpp.Discovery.CheckResource
import PopCpp.Interface.ObjectDescription
import PopCpp.JobMgr.Model

namespace JobMgr

open Discovery Discovery.Serialize Binary32
open PopCpp.Od (PopOd)

/-! ### The amounts of a description -/

/-- The amounts of a `pop_od`. -/
structure Demand (A : Type) where
  /-- `mflops`, `ram` and `net` -/
  required : Quantity → A
  /-- `min_mflops`, `min_ram` and `min_net` -/
  least : Quantity → A

section

variable {A : Type}

/-- What `pop_od::getPower(require, min)` puts into its two arguments. -/
def Demand.getPower (d : Demand A) : A × A := (d.required .flops, d.least .flops)

/-- `pop_od::getMemory(require, min)` -/
def Demand.getMemory (d : Demand A) : A × A := (d.required .mem, d.least .mem)

/-- `pop_od::getBandwidth(require, min)` -/
def Demand.getBandwidth (d : Demand A) : A × A := (d.required .bandwidth, d.least .bandwidth)

variable [Amount A]

/-- A setter that is called if the amount is positive. -/
def wish (f : Serialize.Field A) (v : A) : Serialize.Field A :=
  if Amount.gt v Amount.zero then .of v else f

/-- What the calls of the setters for the amounts in `AllocResource` make of a request. -/
def Demand.askFor (d : Demand A) (r : Requirements A) : Requirements A :=
  -- `od.getMemory(r_minMem, r_expMem)`
  let (r_minMem, r_expMem) := d.getMemory
  -- `od.getBandwidth(r_expB, r_minB)`
  let (r_expB, r_minB) := d.getBandwidth
  -- `od.getPower(r_expPower, r_minPower)`
  let (r_expPower, r_minPower) := d.getPower
  { r with
    minMemorySize := wish r.minMemorySize r_minMem
    expectedMemorySize := wish r.expectedMemorySize r_expMem
    minNetworkBandwidth := wish r.minNetworkBandwidth r_minB
    expectedNetworkBandwidth := wish r.expectedNetworkBandwidth r_expB
    minPower := wish r.minPower r_minPower
    expectedPower := wish r.expectedPower r_expPower }

end

/-! ### The request -/

/-- The amounts of an object description. -/
def demand (od : PopOd) : Demand Bits where
  required
    | .flops => od.mflops
    | .mem => od.ram
    | .bandwidth => od.net
  least
    | .flops => od.minMflops
    | .mem => od.minRam
    | .bandwidth => od.minNet

/-- What `AllocResource` asks others for, apart from the description. -/
structure Surroundings where
  /-- `psn.getPOPCSearchNodeId()` -/
  nodeId : Str
  /-- `POPC_SEARCHMAXHOP`, or `MAXHOP` -/
  maxhop : BitVec 32
  /-- `appservice.GetPOPCAppID()` -/
  popAppId : Str
  /-- `psn.getUID()` -/
  reqID : Str

/-- A setter that is called if the amount is positive. -/
def wishChange (set : Bits → Change) (v : Bits) : List Change := if gt v 0 then [set v] else []

/-- The calls that fill in the request of `AllocResource`. -/
def allocChanges (u : Surroundings) (od : PopOd) : List Change :=
  let (r_minMem, r_expMem) := (demand od).getMemory
  let (r_expB, r_minB) := (demand od).getBandwidth
  let (r_expPower, r_minPower) := (demand od).getPower
  [.setNodeId u.nodeId] ++
    (if od.maxDepth.toInt > 0 then [.setMaxHops od.maxDepth, .setMaxHops od.maxDepth]
      else [.setMaxHops u.maxhop]) ++
    (if od.hostarch.isEmpty then [] else [.setOperatingSystem od.hostarch]) ++
    wishChange .setMinMemorySize r_minMem ++ wishChange .setExpectedMemorySize r_expMem ++
    wishChange .setMinNetworkBandwidth r_minB ++ wishChange .setExpectedNetworkBandwidth r_expB ++
    wishChange .setMinPower r_minPower ++ wishChange .setExpectedPower r_expPower ++
    [.setPOPAppId u.popAppId, .setUniqueId u.reqID]

/-- The request of `AllocResource`. -/
def allocRequest (memory : Request) (u : Surroundings) (od : PopOd) : Request :=
  (allocChanges u od).foldl Request.change (.new memory)

lemma reachable_foldl {r : Request} (h : Serialize.Reachable r) (cs : List Change) :
    Serialize.Reachable (cs.foldl Request.change r) := by
  induction cs generalizing r with
  | nil => exact h
  | cons c cs ih => exact ih (h.change c)

lemma reachable_allocRequest (memory : Request) (u : Surroundings) (od : PopOd) :
    Serialize.Reachable (allocRequest memory u od) :=
  reachable_foldl (.new memory) _

lemma foldl_wishChange (set : Bits → Change) (v : Bits) (r : Request) :
    (wishChange set v).foldl Request.change r = if gt v 0 then r.change (set v) else r := by
  rw [wishChange]
  split <;> rfl

/-- A setter that is called if the amount is positive changes one member. -/
lemma requirements_wish {set : Bits → Change} {get : Requirements Bits → Serialize.Field Bits}
    (put : Requirements Bits → Serialize.Field Bits → Requirements Bits)
    (hset : ∀ (r : Request) v, (r.change (set v)).requirements = put r.requirements (.of v))
    (hget : ∀ q, put q (get q) = q) (v : Bits) (r : Request) :
    ((wishChange set v).foldl Request.change r).requirements =
      put r.requirements (wish (get r.requirements) v) := by
  have hwish : wish (get r.requirements) v = if gt v 0 then .of v else get r.requirements := rfl
  rw [foldl_wishChange, hwish]
  split
  · exact hset r v
  · exact (hget _).symm

/-- The amounts reach the request in the way of `Demand.askFor`. -/
lemma requirements_allocRequest (memory : Request) (u : Surroundings) (od : PopOd) :
    (allocRequest memory u od).requirements =
      (demand od).askFor (Request.new memory).requirements := by
  -- the other fields of the request leave its requirements alone
  have hlast : ∀ r : Request, ([Change.setPOPAppId u.popAppId, .setUniqueId u.reqID].foldl
      Request.change r).requirements = r.requirements := fun _ => rfl
  have harch : ∀ r : Request, ((if od.hostarch.isEmpty then []
      else [Change.setOperatingSystem od.hostarch]).foldl Request.change r).requirements =
      r.requirements := by
    intro r
    split <;> rfl
  have hhops : ∀ r : Request, ((if od.maxDepth.toInt > 0 then
      [Change.setMaxHops od.maxDepth, .setMaxHops od.maxDepth] else
      [.setMaxHops u.maxhop]).foldl Request.change r).requirements = r.requirements := by
    intro r
    split <;> rfl
  -- each amount is set by a wish of its own
  have hminMem : ∀ v r,
      ((wishChange .setMinMemorySize v).foldl Request.change r).requirements =
        { r.requirements with
          minMemorySize := wish r.requirements.minMemorySize v } :=
    requirements_wish (fun q f => { q with minMemorySize := f }) (fun _ _ => rfl)
      fun _ => rfl
  have hexpMem : ∀ v r,
      ((wishChange .setExpectedMemorySize v).foldl Request.change r).requirements =
        { r.requirements with
          expectedMemorySize := wish r.requirements.expectedMemorySize v } :=
    requirements_wish (fun q f => { q with expectedMemorySize := f }) (fun _ _ => rfl)
      fun _ => rfl
  have hminB : ∀ v r,
      ((wishChange .setMinNetworkBandwidth v).foldl Request.change r).requirements =
        { r.requirements with
          minNetworkBandwidth := wish r.requirements.minNetworkBandwidth v } :=
    requirements_wish (fun q f => { q with minNetworkBandwidth := f }) (fun _ _ => rfl)
      fun _ => rfl
  have hexpB : ∀ v r,
      ((wishChange .setExpectedNetworkBandwidth v).foldl Request.change r).requirements =
        { r.requirements with
          expectedNetworkBandwidth := wish r.requirements.expectedNetworkBandwidth v } :=
    requirements_wish (fun q f => { q with expectedNetworkBandwidth := f }) (fun _ _ => rfl)
      fun _ => rfl
  have hminPower : ∀ v r,
      ((wishChange .setMinPower v).foldl Request.change r).requirements =
        { r.requirements with
          minPower := wish r.requirements.minPower v } :=
    requirements_wish (fun q f => { q with minPower := f }) (fun _ _ => rfl)
      fun _ => rfl
  have hexpPower : ∀ v r,
      ((wishChange .setExpectedPower v).foldl Request.change r).requirements =
        { r.requirements with
          expectedPower := wish r.requirements.expectedPower v } :=
    requirements_wish (fun q f => { q with expectedPower := f }) (fun _ _ => rfl)
      fun _ => rfl
  simp only [allocRequest, allocChanges, List.foldl_append]
  rw [hlast, hexpPower, hminPower, hexpB, hminB, hexpMem, hminMem, harch, hhops]
  rfl

/-! ### What the search is asked for -/

section

variable {A : Type} [Amount A]

/-- The member is set if the amount is positive, and to the amount. -/
structure Says (f : Serialize.Field A) (v : A) : Prop where
  isSet : f.isSet = Amount.gt v Amount.zero
  value : f.isSet = true → f.value = v

/-- The least amount of a resource in a request. -/
def leastOf (r : Requirements A) : Quantity → Serialize.Field A
  | .flops => r.minPower
  | .mem => r.minMemorySize
  | .bandwidth => r.minNetworkBandwidth

/-- The amount of a resource that is expected. -/
def expectedOf (r : Requirements A) : Quantity → Serialize.Field A
  | .flops => r.expectedPower
  | .mem => r.expectedMemorySize
  | .bandwidth => r.expectedNetworkBandwidth

/-- The request says of the resource what the description says. -/
structure Conveys (r : Requirements A) (d : Demand A) (q : Quantity) : Prop where
  least : Says (leastOf r q) (d.least q)
  expected : Says (expectedOf r q) (d.required q)

/-- One amount of memory is as good as the other: both are not positive, or they are the same. -/
def SameMemory (d : Demand A) : Prop :=
  Amount.gt (d.required .mem) Amount.zero = false ∧ Amount.gt (d.least .mem) Amount.zero = false ∨
    d.required .mem = d.least .mem

/-- No amount is set. -/
structure Unset (r : Requirements A) : Prop where
  least : ∀ q, (leastOf r q).isSet = false
  expected : ∀ q, (expectedOf r q).isSet = false

lemma says_wish_iff {f : Serialize.Field A} (hf : f.isSet = false) (v w : A) :
    Says (wish f v) w ↔ Amount.gt v Amount.zero = Amount.gt w Amount.zero ∧
      (Amount.gt v Amount.zero = true → v = w) := by
  rw [wish]
  cases hv : Amount.gt v Amount.zero with
  | true =>
      rw [if_pos rfl]
      exact ⟨fun h => ⟨h.isSet, fun _ => h.value rfl⟩, fun h => ⟨h.1, fun _ => h.2 rfl⟩⟩
  | false =>
      rw [if_neg Bool.false_ne_true]
      constructor
      · exact fun h => ⟨hf.symm.trans h.isSet, fun hpos => absurd hpos Bool.false_ne_true⟩
      · exact fun h => ⟨hf.trans h.1, fun hset => absurd (hf.symm.trans hset) Bool.false_ne_true⟩

lemma conveys_askFor_iff {r : Requirements A} (hr : Unset r) (d : Demand A) :
    (∀ q, Conveys (d.askFor r) d q) ↔ SameMemory d := by
  have hleast : Says (leastOf (d.askFor r) .mem) (d.least .mem) ↔ _ :=
    says_wish_iff (hr.least .mem) (d.required .mem) (d.least .mem)
  have hexpected : Says (expectedOf (d.askFor r) .mem) (d.required .mem) ↔ _ :=
    says_wish_iff (hr.expected .mem) (d.least .mem) (d.required .mem)
  constructor
  · intro h
    obtain ⟨hset, hvalue⟩ := hleast.mp (h .mem).least
    cases hpos : Amount.gt (d.required .mem) Amount.zero with
    | true => exact Or.inr (hvalue hpos)
    | false => exact Or.inl ⟨hpos, hset.symm.trans hpos⟩
  · intro h q
    cases q with
    | flops =>
        exact ⟨(says_wish_iff (hr.least .flops) _ _).mpr ⟨rfl, fun _ => rfl⟩,
          (says_wish_iff (hr.expected .flops) _ _).mpr ⟨rfl, fun _ => rfl⟩⟩
    | mem =>
        rcases h with ⟨hrequired, hmin⟩ | heq
        · exact ⟨hleast.mpr ⟨hrequired.trans hmin.symm, fun h => by rw [hrequired] at h; cases h⟩,
            hexpected.mpr ⟨hmin.trans hrequired.symm, fun h => by rw [hmin] at h; cases h⟩⟩
        · exact ⟨hleast.mpr ⟨by rw [heq], fun _ => heq⟩,
            hexpected.mpr ⟨by rw [heq], fun _ => heq.symm⟩⟩
    | bandwidth =>
        exact ⟨(says_wish_iff (hr.least .bandwidth) _ _).mpr ⟨rfl, fun _ => rfl⟩,
          (says_wish_iff (hr.expected .bandwidth) _ _).mpr ⟨rfl, fun _ => rfl⟩⟩

/-- The second description asks for resource `σ q` as the first one does for `q`. -/
def Exchanged (σ : Equiv.Perm Quantity) (d d' : Demand A) : Prop :=
  ∀ q, d'.required (σ q) = d.required q ∧ d'.least (σ q) = d.least q

/-- The second request treats resource `σ q` as the first one does `q`. -/
def TreatedAlike (σ : Equiv.Perm Quantity) (r r' : Requirements A) : Prop :=
  ∀ q, (leastOf r' (σ q)).Same (leastOf r q) ∧ (expectedOf r' (σ q)).Same (expectedOf r q)

lemma Says.same {f f' : Serialize.Field A} {v v' : A} (h : Says f v) (h' : Says f' v')
    (heq : v' = v) : f'.Same f where
  isSet := by rw [h.isSet, h'.isSet, heq]
  value hset := by
    have hset' : f'.isSet = true := by rw [h'.isSet, heq, ← h.isSet, hset]
    rw [h.value hset, h'.value hset', heq]

lemma treatedAlike_of_conveys {σ : Equiv.Perm Quantity} {d d' : Demand A} {r r' : Requirements A}
    (h : ∀ q, Conveys r d q) (h' : ∀ q, Conveys r' d' q) (hσ : Exchanged σ d d') :
    TreatedAlike σ r r' := fun q =>
  ⟨(h q).least.same (h' (σ q)).least (hσ q).2, (h q).expected.same (h' (σ q)).expected (hσ q).1⟩

end

lemma unset_new (memory : Request) : Unset (Request.new memory).requirements where
  least q := by cases q <;> rfl
  expected q := by cases q <;> rfl

lemma conveys_allocRequest_iff (memory : Request) (u : Surroundings) (od : PopOd) :
    (∀ q, Conveys (allocRequest memory u od).requirements (demand od) q) ↔
      SameMemory (demand od) := by
  rw [requirements_allocRequest]
  exact conveys_askFor_iff (unset_new memory) _

/-- **What the search is asked for.**  The request says of all resources what the description
says if and only if one amount of memory is as good as the other; and then, when the resources of
a description are exchanged, so are those of the request. -/
theorem requirements_reach_iff (memory : Request) (u : Surroundings) (od : PopOd) :
    ((∀ q, Conveys (allocRequest memory u od).requirements (demand od) q) ↔
      SameMemory (demand od)) ∧
    ∀ memory' u' od' σ, Exchanged σ (demand od) (demand od') → SameMemory (demand od) →
      SameMemory (demand od') → TreatedAlike σ (allocRequest memory u od).requirements
        (allocRequest memory' u' od').requirements := by
  refine ⟨conveys_allocRequest_iff memory u od, fun memory' u' od' σ hσ hod hod' => ?_⟩
  exact treatedAlike_of_conveys ((conveys_allocRequest_iff memory u od).mpr hod)
    ((conveys_allocRequest_iff memory' u' od').mpr hod') hσ

/-- A description that wants 100 MB of memory and can do with 50. -/
def wantsMemory : PopOd := PopCpp.Od.plainOd.memory (ofInt 100) (ofInt 50)

/-- The request asks for at least 100 MB, and expects 50. -/
theorem memory_swapped :
    ¬∀ (memory : Request) (u : Surroundings) (od : PopOd), PopCpp.Od.Reachable od →
      ∀ q, Conveys (allocRequest memory u od).requirements (demand od) q := by
  intro h
  have hod : PopCpp.Od.Reachable wantsMemory :=
    PopCpp.Od.reachable_plainOd.set (.memory (ofInt 100) (ofInt 50)) rfl
  have hsame := (conveys_allocRequest_iff zeros ⟨[], 0, [], []⟩ wantsMemory).mp (h _ _ _ hod)
  rcases hsame with ⟨hpos, -⟩ | heq
  · exact absurd hpos (by decide +kernel)
  · exact absurd heq (by decide +kernel)

/-! ### The request on its way -/

/-- What a request says is still said when it has arrived. -/
lemma Conveys.restored {r r' : Request} {d : Demand Bits} {q : Quantity} (h : Restored r' r)
    (hr : Conveys r.requirements d q) : Conveys r'.requirements d q := by
  have hsaid : ∀ {f f' : Serialize.Field Bits} {v : Bits}, f'.Same f → Says f v → Says f' v :=
    fun hf hv => ⟨hf.isSet.trans hv.isSet, fun hset => (hf.value (hf.isSet.symm.trans hset)).trans
      (hv.value (hf.isSet.symm.trans hset))⟩
  cases q with
  | flops => exact ⟨hsaid h.minPower hr.least, hsaid h.expectedPower hr.expected⟩
  | mem => exact ⟨hsaid h.minMemorySize hr.least, hsaid h.expectedMemorySize hr.expected⟩
  | bandwidth =>
      exact ⟨hsaid h.minNetworkBandwidth hr.least, hsaid h.expectedNetworkBandwidth hr.expected⟩

/-- The request arrives if its message is not too long, since it does not set the expected speed
of the processor. -/
theorem arrives_allocRequest_iff {F : PopCpp.Buffer.Format} (hF : F.Transports)
    (hd : PopCpp.Buffer.Header) (memory : Request) (u : Surroundings) (od : PopOd)
    (hnul : (allocRequest memory u od).NulFree) (target : Request) :
    Arrives F hd (allocRequest memory u od) target ↔
      20 + (allocRequest memory u od).size < 2 ^ 31 := by
  have hspeed : (allocRequest memory u od).expectedCpuSpeed.isSet = false := by
    have h := congrArg (fun r => r.expectedCpuSpeed.isSet) (requirements_allocRequest memory u od)
    exact h
  refine ⟨fun h => h.room hF hnul, fun hsize => ?_⟩
  exact arrives_of hF (reachable_allocRequest memory u od) hnul hsize fun hset =>
    absurd (hspeed.symm.trans hset) Bool.false_ne_true

end JobMgr
