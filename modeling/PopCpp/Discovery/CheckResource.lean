/-
# Is a node good enough for a request

`checkResource` compares a request with a node, member by member, and is the only thing that a
node of the flood asks before it answers.  A better node should not be refused where a worse one
is accepted; for the expected speed of the processor it is, since that comparison is the wrong
way round.

The amounts are of any type with the comparisons that the code makes: the `float`s of the code,
by their bits, or exact rationals as in the model of the job manager.
-/
import PopCpp.Discovery.Serialize

namespace Discovery

namespace Serialize

open Binary32

/-! ### Numbers -/

/-- The comparisons of the code and the two constants it compares with. -/
class Amount (A : Type) where
  /-- `x > y` -/
  gt : A → A → Bool
  /-- `x >= y` -/
  ge : A → A → Bool
  zero : A
  /-- `0.5` -/
  half : A

instance amountBits : Amount Bits where
  gt := Binary32.gt
  ge := Binary32.ge
  zero := 0
  half := 0x3f000000

instance amountRat : Amount ℚ where
  gt x y := decide (x > y)
  ge x y := decide (x ≥ y)
  zero := 0
  half := 1 / 2

/-! ### Requests and nodes -/

/-- The members of a `Request` that `checkResource` reads. -/
structure Requirements (A : Type) where
  minCpuSpeed : Field (BitVec 32)
  expectedCpuSpeed : Field (BitVec 32)
  minMemorySize : Field A
  expectedMemorySize : Field A
  minNetworkBandwidth : Field A
  expectedNetworkBandwidth : Field A
  minDiskSpace : Field (BitVec 32)
  minPower : Field A
  expectedPower : Field A

/-- The same of a request as it is sent. -/
def Request.requirements (r : Request) : Requirements Bits where
  minCpuSpeed := r.minCpuSpeed
  expectedCpuSpeed := r.expectedCpuSpeed
  minMemorySize := r.minMemorySize
  expectedMemorySize := r.expectedMemorySize
  minNetworkBandwidth := r.minNetworkBandwidth
  expectedNetworkBandwidth := r.expectedNetworkBandwidth
  minDiskSpace := r.minDiskSpace
  minPower := r.minPower
  expectedPower := r.expectedPower

/-- What `checkResource` reads of a node. -/
structure NodeState (A : Type) where
  /-- `psn_currentJobs` -/
  currentJobs : ℤ
  /-- `psn_maxjobs` -/
  maxJobs : ℤ
  /-- `nodeInfo` -/
  power : A
  cpuSpeed : BitVec 32
  memorySize : A
  networkBandwidth : A
  diskSpace : BitVec 32

section

variable {A : Type} [Amount A]

/-- The member is set and does not pass the test. -/
def Field.fails {α : Type} (f : Field α) (test : α → Bool) : Bool :=
  f.isSet && test f.value

/-- `POPCSearchNode::checkResource` -/
def checkResource (node : NodeState A) (req : Requirements A) : Bool :=
  if node.currentJobs ≥ node.maxJobs then false
  else if req.minCpuSpeed.fails fun v => v.toInt > node.cpuSpeed.toInt then false
  -- the other way round than all others
  else if req.expectedCpuSpeed.fails fun v => v.toInt ≤ node.cpuSpeed.toInt then false
  else if req.minMemorySize.fails fun v => Amount.gt v node.memorySize then false
  else if req.expectedMemorySize.fails fun v => Amount.ge v node.memorySize then false
  else if Amount.gt node.networkBandwidth Amount.half &&
      (req.minNetworkBandwidth.fails fun v => Amount.gt v node.networkBandwidth) then false
  else if Amount.gt node.networkBandwidth Amount.half &&
      (req.expectedNetworkBandwidth.fails fun v => Amount.ge v node.networkBandwidth) then false
  else if req.minDiskSpace.fails fun v => v.toInt > node.diskSpace.toInt then false
  else if req.minPower.fails fun v => Amount.gt v node.power then false
  else if req.expectedPower.fails fun v => Amount.gt v node.power then false
  else true

/-- All comparisons go well. -/
structure Accepts (node : NodeState A) (req : Requirements A) : Prop where
  jobs : node.currentJobs < node.maxJobs
  minCpuSpeed : req.minCpuSpeed.isSet = true →
    req.minCpuSpeed.value.toInt ≤ node.cpuSpeed.toInt
  expectedCpuSpeed : req.expectedCpuSpeed.isSet = true →
    node.cpuSpeed.toInt < req.expectedCpuSpeed.value.toInt
  minMemorySize : req.minMemorySize.isSet = true →
    Amount.gt req.minMemorySize.value node.memorySize = false
  expectedMemorySize : req.expectedMemorySize.isSet = true →
    Amount.ge req.expectedMemorySize.value node.memorySize = false
  minNetworkBandwidth : Amount.gt node.networkBandwidth Amount.half = true →
    req.minNetworkBandwidth.isSet = true →
    Amount.gt req.minNetworkBandwidth.value node.networkBandwidth = false
  expectedNetworkBandwidth : Amount.gt node.networkBandwidth Amount.half = true →
    req.expectedNetworkBandwidth.isSet = true →
    Amount.ge req.expectedNetworkBandwidth.value node.networkBandwidth = false
  minDiskSpace : req.minDiskSpace.isSet = true →
    req.minDiskSpace.value.toInt ≤ node.diskSpace.toInt
  minPower : req.minPower.isSet = true → Amount.gt req.minPower.value node.power = false
  expectedPower : req.expectedPower.isSet = true →
    Amount.gt req.expectedPower.value node.power = false

lemma Field.fails_eq_false {α : Type} {f : Field α} {test : α → Bool} :
    f.fails test = false ↔ (f.isSet = true → test f.value = false) := by
  rw [fails]
  cases f.isSet <;> simp

/-- One check and then the others. -/
lemma ite_false_eq_true {b c : Bool} : (if b = true then false else c) = true ↔
    b = false ∧ c = true := by
  cases b <;> simp

lemma checkResource_eq_true_iff {node : NodeState A} {req : Requirements A} :
    checkResource node req = true ↔ Accepts node req := by
  have hguard : ∀ b c : Bool, (b && c) = false ↔ (b = true → c = false) := by decide
  rw [checkResource]
  constructor
  · intro h
    split at h
    · cases h
    · next hjobs =>
        simp only [ite_false_eq_true, hguard, Field.fails_eq_false, decide_eq_false_iff_not,
          not_lt, not_le, gt_iff_lt] at h
        obtain ⟨h1, h2, h3, h4, h5, h6, h7, h8, h9, -⟩ := h
        exact ⟨not_le.mp hjobs, h1, h2, h3, h4, h5, h6, h7, h8, h9⟩
  · intro h
    rw [if_neg (not_le.mpr h.jobs)]
    simp only [ite_false_eq_true, hguard, Field.fails_eq_false, decide_eq_false_iff_not,
      not_lt, not_le, gt_iff_lt]
    exact ⟨h.minCpuSpeed, h.expectedCpuSpeed, h.minMemorySize, h.expectedMemorySize,
      h.minNetworkBandwidth, h.expectedNetworkBandwidth, h.minDiskSpace, h.minPower,
      h.expectedPower, trivial⟩

/-! ### Better nodes -/

/-- The second node has at least what the first one has, and both know their bandwidth. -/
structure AtLeast (n₁ n₂ : NodeState A) : Prop where
  power : Amount.ge n₂.power n₁.power = true
  cpuSpeed : n₁.cpuSpeed.toInt ≤ n₂.cpuSpeed.toInt
  memorySize : Amount.ge n₂.memorySize n₁.memorySize = true
  diskSpace : n₁.diskSpace.toInt ≤ n₂.diskSpace.toInt
  freeJobs : n₁.maxJobs - n₁.currentJobs ≤ n₂.maxJobs - n₂.currentJobs
  networkBandwidth : Amount.ge n₂.networkBandwidth n₁.networkBandwidth = true
  known₁ : Amount.gt n₁.networkBandwidth Amount.half = true
  known₂ : Amount.gt n₂.networkBandwidth Amount.half = true

/-- A node that is at least as good as one that is accepted is accepted. -/
def Monotone (req : Requirements A) : Prop :=
  ∀ n₁ n₂ : NodeState A, AtLeast n₁ n₂ → checkResource n₁ req = true → checkResource n₂ req = true

end

/-- The speeds that pass the test of the least speed and fail that of the expected one begin
with this one. -/
def Requirements.leastSpeed {A : Type} (req : Requirements A) : BitVec 32 :=
  if req.minCpuSpeed.isSet then req.minCpuSpeed.value else BitVec.intMin 32

/-- There is a speed that the request accepts, and no other member of it refuses all nodes. -/
structure Reverses (req : Requirements Bits) : Prop where
  isSet : req.expectedCpuSpeed.isSet = true
  speed : req.leastSpeed.toInt < req.expectedCpuSpeed.value.toInt
  memory : req.expectedMemorySize.isSet = true → ge req.expectedMemorySize.value inf = false
  bandwidth : req.expectedNetworkBandwidth.isSet = true →
    ge req.expectedNetworkBandwidth.value inf = false

variable {req : Requirements Bits}

lemma gt_eq_false_of_ge {v x y : Bits} (h : gt v x = false) (hge : ge y x = true) :
    gt v y = false := by
  rw [Bool.eq_false_iff] at h ⊢
  exact fun h' => h (gt_of_gt_of_ge h' hge)

lemma ge_eq_false_of_ge {v x y : Bits} (h : ge v x = false) (hge : ge y x = true) :
    ge v y = false := by
  rw [Bool.eq_false_iff] at h ⊢
  exact fun h' => h (ge_trans h' hge)

/-- A better node passes all tests but that of the expected speed. -/
lemma Accepts.of_atLeast {n₁ n₂ : NodeState Bits} (h : Accepts n₁ req) (hle : AtLeast n₁ n₂)
    (hspeed : req.expectedCpuSpeed.isSet = true →
      n₂.cpuSpeed.toInt < req.expectedCpuSpeed.value.toInt) : Accepts n₂ req where
  jobs := by
    have hjobs := h.jobs
    have hfree := hle.freeJobs
    omega
  minCpuSpeed hset := (h.minCpuSpeed hset).trans hle.cpuSpeed
  expectedCpuSpeed := hspeed
  minMemorySize hset := gt_eq_false_of_ge (h.minMemorySize hset) hle.memorySize
  expectedMemorySize hset := ge_eq_false_of_ge (h.expectedMemorySize hset) hle.memorySize
  minNetworkBandwidth _ hset :=
    gt_eq_false_of_ge (h.minNetworkBandwidth hle.known₁ hset) hle.networkBandwidth
  expectedNetworkBandwidth _ hset :=
    ge_eq_false_of_ge (h.expectedNetworkBandwidth hle.known₁ hset) hle.networkBandwidth
  minDiskSpace hset := (h.minDiskSpace hset).trans hle.diskSpace
  minPower hset := gt_eq_false_of_ge (h.minPower hset) hle.power
  expectedPower hset := gt_eq_false_of_ge (h.expectedPower hset) hle.power

/-- A node with more than enough of everything, and a processor of the given speed. -/
def plenty (cpuSpeed : BitVec 32) : NodeState Bits :=
  ⟨0, 1, inf, cpuSpeed, inf, inf, BitVec.intMax 32⟩

lemma Reverses.accepts_plenty (h : Reverses req) : Accepts (plenty req.leastSpeed) req where
  jobs := Int.one_pos
  minCpuSpeed hset := by
    rw [plenty, Requirements.leastSpeed, if_pos hset]
  expectedCpuSpeed _ := h.speed
  minMemorySize _ := gt_inf _
  expectedMemorySize := h.memory
  minNetworkBandwidth _ _ := gt_inf _
  expectedNetworkBandwidth _ := h.bandwidth
  minDiskSpace _ := by
    have hmax : (BitVec.intMax 32).toInt = 2 ^ 31 - 1 := by decide
    have hlt := BitVec.toInt_lt (x := req.minDiskSpace.value)
    rw [plenty, hmax]
    omega
  minPower _ := gt_inf _
  expectedPower _ := gt_inf _

lemma atLeast_plenty {c₁ c₂ : BitVec 32} (h : c₁.toInt ≤ c₂.toInt) :
    AtLeast (plenty c₁) (plenty c₂) where
  power := rfl
  cpuSpeed := h
  memorySize := rfl
  diskSpace := le_rfl
  freeJobs := le_rfl
  networkBandwidth := rfl
  known₁ := rfl
  known₂ := rfl

/-- A request that accepts a node accepts one whose speed is not less than the least one. -/
lemma Accepts.reverses {node : NodeState Bits} (h : Accepts node req)
    (hset : req.expectedCpuSpeed.isSet = true) (hmemory : isNaN node.memorySize = false)
    (hbandwidth : isNaN node.networkBandwidth = false)
    (hknown : Amount.gt node.networkBandwidth Amount.half = true) : Reverses req where
  isSet := hset
  speed := by
    refine lt_of_le_of_lt ?_ (h.expectedCpuSpeed hset)
    rw [Requirements.leastSpeed]
    split
    · next hmin => exact h.minCpuSpeed hmin
    · have hmin : (BitVec.intMin 32).toInt = -2 ^ 31 := by decide
      have hle := BitVec.le_toInt node.cpuSpeed
      rw [hmin]
      omega
  memory hmem := by
    have hfalse := h.expectedMemorySize hmem
    rw [Bool.eq_false_iff] at hfalse ⊢
    exact fun hinf => hfalse (ge_of_ge_inf hinf hmemory)
  bandwidth hband := by
    have hfalse := h.expectedNetworkBandwidth hknown hband
    rw [Bool.eq_false_iff] at hfalse ⊢
    exact fun hinf => hfalse (ge_of_ge_inf hinf hbandwidth)

/-- **Better nodes.**  A request accepts all nodes that are at least as good as one that it accepts
if and only if its expected speed of the processor is not set, or it accepts no node at all. -/
theorem checkResource_monotone_iff (r : Request) :
    Monotone r.requirements ↔ ¬Reverses r.requirements := by
  constructor
  · intro h hreverses
    have hle := atLeast_plenty (le_of_lt hreverses.speed)
    have haccepts := checkResource_eq_true_iff.mp
      (h _ _ hle (checkResource_eq_true_iff.mpr hreverses.accepts_plenty))
    exact lt_irrefl _ (haccepts.expectedCpuSpeed hreverses.isSet)
  · intro hnot n₁ n₂ hle h
    rw [checkResource_eq_true_iff] at h ⊢
    refine h.of_atLeast hle fun hset => ?_
    have hmemory := (ge_eq_true_iff.mp hle.memorySize).2.1
    have hbandwidth := (ge_eq_true_iff.mp hle.networkBandwidth).2.1
    exact absurd (h.reverses hset hmemory hbandwidth hle.known₁) hnot

/-- A request for a processor of 3000 MHz accepts one of 2000 MHz and not one of 3000 MHz. -/
theorem exactly_not_monotone : ¬∀ r : Request, Reachable r → Monotone r.requirements := by
  intro h
  have hmonotone := h exactly (.change (.new zeros) _)
  have hworse : checkResource (plenty 2000) exactly.requirements = true := by decide
  exact absurd (hmonotone _ (plenty 3000) (atLeast_plenty (by decide)) hworse) (by decide)

end Serialize

end Discovery
