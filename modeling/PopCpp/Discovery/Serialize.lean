/-
# Discovery requests in a buffer

A `Request` describes the resources that are looked for, in fourteen optional fields each with
a flag that says whether it is set, and carries the way back and the exploration list of the
flood.  `Serialize` packs a flag and, if it is set, the field.  For the expected speed of the
processor it packs the flag a second time in the place of the field, and unpacks it so: the
stream stays in step and the speed is lost.

The exploration list arrives as it was because `addListNode`, by which it is unpacked again,
has kept it short.
-/
import PopCpp.Buffer.Serialize
import PopCpp.Discovery.Flood
import PopCpp.Discovery.WayBack
import PopCpp.Lib.Binary32
import Mathlib.Algebra.Order.BigOperators.Group.List
import Mathlib.Data.List.Lex

namespace Discovery

/-! ### Exploration lists -/

namespace ExplorationList

variable {N : Type*}

lemma map_fst_clearFirst (el : ExplorationList N) :
    (clearFirst el).map Prod.fst = el.map Prod.fst := by
  induction el with
  | nil => rfl
  | cons e el ih =>
      rw [clearFirst]
      split
      · rw [List.map_cons, ih, List.map_cons]
      · rfl

lemma crtNeighborsPath_clearFirst (el : ExplorationList N) :
    (clearFirst el).crtNeighborsPath = el.crtNeighborsPath - 1 := by
  induction el with
  | nil => rfl
  | cons e el ih =>
      rw [clearFirst]
      split
      · next hnil =>
          simp only [crtNeighborsPath, List.countP_cons, hnil] at ih ⊢
          simpa using ih
      · next hne => simp [crtNeighborsPath, hne]

variable [LinearOrder N]

/-- An exploration list as `addListNode` keeps it: a map, with few neighbour lists. -/
structure Kept (el : ExplorationList N) : Prop where
  sorted : el.Pairwise fun a b => a.1 < b.1
  short : el.crtNeighborsPath ≤ neighborsPath

lemma sorted_insert (nodeId : N) (neighbors : List N) {el : ExplorationList N}
    (h : el.Pairwise fun a b => a.1 < b.1) :
    (insert nodeId neighbors el).Pairwise fun a b => a.1 < b.1 := by
  induction el with
  | nil => simp [insert]
  | cons f el ih =>
      rw [List.pairwise_cons] at h
      rw [insert]
      split
      · next hlt =>
          refine List.pairwise_cons.mpr ⟨fun e he => ?_, List.pairwise_cons.mpr h⟩
          rcases List.mem_cons.mp he with rfl | he
          · exact hlt
          · exact hlt.trans (h.1 e he)
      · next hge =>
          split
          · exact List.pairwise_cons.mpr h
          · next hne =>
              refine List.pairwise_cons.mpr ⟨fun e he => ?_, ih h.2⟩
              rcases mem_insert he with he | rfl
              · exact h.1 e he
              · exact lt_of_le_of_ne (not_lt.mp hge) fun heq => hne heq.symm

lemma crtNeighborsPath_insert_le (nodeId : N) (neighbors : List N) (el : ExplorationList N) :
    (insert nodeId neighbors el).crtNeighborsPath ≤ el.crtNeighborsPath + 1 := by
  induction el with
  | nil =>
      rw [insert, crtNeighborsPath]
      exact List.countP_le_length
  | cons f el ih =>
      rw [insert]
      split
      · rw [crtNeighborsPath, List.countP_cons]
        refine Nat.add_le_add_left ?_ _
        split <;> omega
      · split
        · exact Nat.le_succ _
        · simp only [crtNeighborsPath, List.countP_cons] at ih ⊢
          omega

/-- **`addListNode` keeps an exploration list short.** -/
theorem Kept.addListNode {el : ExplorationList N} (h : el.Kept) (nodeId : N)
    (neighbors : List N) : (el.addListNode nodeId neighbors).Kept := by
  have hsorted := sorted_insert nodeId neighbors h.sorted
  have hle := crtNeighborsPath_insert_le nodeId neighbors el
  have hshort := h.short
  rw [ExplorationList.addListNode]
  split
  · refine ⟨?_, ?_⟩
    · rw [← List.pairwise_map (R := fun a b => a < b) (f := Prod.fst)] at hsorted ⊢
      rwa [map_fst_clearFirst]
    · rw [crtNeighborsPath_clearFirst]
      omega
  · exact ⟨hsorted, by omega⟩

/-- What holds of all names in the list and of those that are added holds of all names. -/
lemma forall_addListNode {P : N → Prop} {el : ExplorationList N} {nodeId : N}
    {neighbors : List N} (h : ∀ e ∈ el, ∀ s ∈ e.1 :: e.2, P s)
    (hnew : ∀ s ∈ nodeId :: neighbors, P s) :
    ∀ e ∈ el.addListNode nodeId neighbors, ∀ s ∈ e.1 :: e.2, P s := by
  have hinsert : ∀ e ∈ insert nodeId neighbors el, ∀ s ∈ e.1 :: e.2, P s := by
    intro e he
    rcases mem_insert he with he | rfl
    · exact h e he
    · exact hnew
  intro e he
  rw [ExplorationList.addListNode] at he
  split at he
  · obtain ⟨f, hf, hkey, hsub⟩ := mem_clearFirst he
    intro s hs
    rcases List.mem_cons.mp hs with rfl | hs
    · rw [hkey]
      exact hinsert f hf f.1 List.mem_cons_self
    · exact hinsert f hf s (List.mem_cons_of_mem _ (hsub s hs))
  · exact hinsert e he

/-- A node that comes after all others is added at the end. -/
lemma insert_eq_concat {nodeId : N} {neighbors : List N} {el : ExplorationList N}
    (h : ∀ e ∈ el, e.1 < nodeId) : insert nodeId neighbors el = el ++ [(nodeId, neighbors)] := by
  induction el with
  | nil => rfl
  | cons f el ih =>
      rw [List.forall_mem_cons] at h
      rw [insert, if_neg h.1.asymm, if_neg h.1.ne', ih h.2, List.cons_append]

/-- Adding the entries of a list again, in order, to those that come before them. -/
lemma foldl_addListNode (pre : ExplorationList N) {el : ExplorationList N}
    (h : Kept (pre ++ el)) :
    el.foldl (fun acc e => addListNode acc e.1 e.2) pre = pre ++ el := by
  induction el generalizing pre with
  | nil => rw [List.foldl_nil, List.append_nil]
  | cons e el ih =>
      rw [List.append_cons] at h
      have hbefore : ∀ f ∈ pre, f.1 < e.1 := fun f hf =>
        (List.pairwise_append.mp (List.pairwise_append.mp h.sorted).1).2.2 f hf e
          (List.mem_singleton_self e)
      have hshort : (pre ++ [e]).crtNeighborsPath ≤ neighborsPath := by
        have hshort := h.short
        rw [crtNeighborsPath, List.countP_append] at hshort
        exact Nat.le_of_add_right_le hshort
      have hadd : addListNode pre e.1 e.2 = pre ++ [e] := by
        rw [addListNode, insert_eq_concat hbefore]
        exact if_neg (Nat.not_lt.mpr hshort)
      rw [List.foldl_cons, hadd, ih _ h, List.append_cons pre e el]

/-- **An exploration list arrives as it was.** -/
theorem Kept.unpack {el : ExplorationList N} (h : el.Kept) : el.unpack = el :=
  foldl_addListNode [] h

end ExplorationList

namespace Serialize

open PopCpp.Buffer CInt Binary32

/-! ### Requests -/

/-- The bytes of a `std::string`. -/
abbrev Str := List UInt8

/-- Characters compare as bytes. -/
local instance byteOrder : LinearOrder UInt8 where
  le_refl := UInt8.le_refl
  le_trans _ _ _ := UInt8.le_trans
  le_antisymm _ _ := UInt8.le_antisymm
  le_total := UInt8.le_total
  lt_iff_le_not_ge _ _ := by grind
  toDecidableLE := inferInstance

/-- An optional member of a request. -/
structure Field (α : Type) where
  /-- `_has...Set` -/
  isSet : Bool
  value : α
deriving DecidableEq

/-- A setter. -/
def Field.of {α : Type} (v : α) : Field α := ⟨true, v⟩

/-- `Request` -/
structure Request where
  uniqueId : Str
  maxHops : BitVec 32
  wb : POPWayback Str
  popappid : Str
  pki : Str
  mainPki : Str
  endingSignal : Bool
  nodeId : Field Str
  operatingSystem : Field Str
  minCpuSpeed : Field (BitVec 32)
  expectedCpuSpeed : Field (BitVec 32)
  minMemorySize : Field Bits
  expectedMemorySize : Field Bits
  minNetworkBandwidth : Field Bits
  expectedNetworkBandwidth : Field Bits
  minDiskSpace : Field (BitVec 32)
  expectedDiskSpace : Field (BitVec 32)
  expectedPower : Field Bits
  minPower : Field Bits
  protocol : Field Str
  encoding : Field Str
  explorationList : ExplorationList Str

namespace Request

/-- `UNLIMITED_HOPS`, as an `int`. -/
def unlimitedHops : BitVec 32 := BitVec.ofInt 32 Discovery.unlimitedHops

/-- `Request()`, at a place in memory: `init` sets the flags and `_maxHops`, and leaves the
numbers as they happen to be. -/
def new (memory : Request) : Request where
  uniqueId := []
  maxHops := unlimitedHops
  wb := ⟨[]⟩
  popappid := []
  pki := []
  mainPki := []
  endingSignal := false
  nodeId := ⟨false, []⟩
  operatingSystem := ⟨false, []⟩
  minCpuSpeed := ⟨false, memory.minCpuSpeed.value⟩
  expectedCpuSpeed := ⟨false, memory.expectedCpuSpeed.value⟩
  minMemorySize := ⟨false, memory.minMemorySize.value⟩
  expectedMemorySize := ⟨false, memory.expectedMemorySize.value⟩
  minNetworkBandwidth := ⟨false, memory.minNetworkBandwidth.value⟩
  expectedNetworkBandwidth := ⟨false, memory.expectedNetworkBandwidth.value⟩
  minDiskSpace := ⟨false, memory.minDiskSpace.value⟩
  expectedDiskSpace := ⟨false, memory.expectedDiskSpace.value⟩
  expectedPower := ⟨false, memory.expectedPower.value⟩
  minPower := ⟨false, memory.minPower.value⟩
  protocol := ⟨false, []⟩
  encoding := ⟨false, []⟩
  explorationList := []

/-- What the constructor does with a text: an empty one is not set. -/
def fieldOfStr (f : Field Str) (v : Str) : Field Str := if v.isEmpty then f else .of v

/-- What the constructor does with an `int`: 0 is not set. -/
def fieldOfInt (f : Field (BitVec 32)) (v : BitVec 32) : Field (BitVec 32) :=
  if v ≠ 0 then .of v else f

/-- What the constructor does with a `float`: 0 is not set. -/
def fieldOfFloat (f : Field Bits) (v : Bits) : Field Bits := if nonzero v then .of v else f

/-- What the constructor does with an `int` for a member that is a `float`. -/
def fieldOfIntFloat (f : Field Bits) (v : BitVec 32) : Field Bits :=
  if v ≠ 0 then .of (ofInt v.toInt) else f

/-- `Request(maxHops, nodeId, ...)` -/
def full (memory : Request) (maxHops : BitVec 32) (nodeId operatingSystem : Str)
    (minCpuSpeed expectedCpuSpeed : BitVec 32) (minMemorySize expectedMemorySize : Bits)
    (minNetworkBandwidth expectedNetworkBandwidth minDiskSpace expectedDiskSpace : BitVec 32)
    (minPower expectedPower : Bits) (protocol encoding : Str) : Request :=
  let r := new memory
  { r with
    maxHops := maxHops
    nodeId := fieldOfStr r.nodeId nodeId
    operatingSystem := fieldOfStr r.operatingSystem operatingSystem
    minCpuSpeed := fieldOfInt r.minCpuSpeed minCpuSpeed
    expectedCpuSpeed := fieldOfInt r.expectedCpuSpeed expectedCpuSpeed
    minMemorySize := fieldOfFloat r.minMemorySize minMemorySize
    expectedMemorySize := fieldOfFloat r.expectedMemorySize expectedMemorySize
    minNetworkBandwidth := fieldOfIntFloat r.minNetworkBandwidth minNetworkBandwidth
    expectedNetworkBandwidth := fieldOfIntFloat r.expectedNetworkBandwidth expectedNetworkBandwidth
    minDiskSpace := fieldOfInt r.minDiskSpace minDiskSpace
    expectedDiskSpace := fieldOfInt r.expectedDiskSpace expectedDiskSpace
    minPower := fieldOfFloat r.minPower minPower
    expectedPower := fieldOfFloat r.expectedPower expectedPower
    protocol := fieldOfStr r.protocol protocol
    encoding := fieldOfStr r.encoding encoding }

end Request

/-- A call that changes a request. -/
inductive Change where
  | setUniqueId (uniqueId : Str)
  | setMaxHops (maxHops : BitVec 32)
  | setNodeId (nodeId : Str)
  | setOperatingSystem (operatingSystem : Str)
  | setMinCpuSpeed (cpuSpeed : BitVec 32)
  | setExpectedCpuSpeed (cpuSpeed : BitVec 32)
  | setMinMemorySize (memorySize : Bits)
  | setExpectedMemorySize (memorySize : Bits)
  | setMinNetworkBandwidth (networkBandwidth : Bits)
  | setExpectedNetworkBandwidth (networkBandwidth : Bits)
  | setMinDiskSpace (diskSpace : BitVec 32)
  | setExpectedDiskSpace (diskSpace : BitVec 32)
  | setMinPower (p : Bits)
  | setExpectedPower (p : Bits)
  | setProtocol (prot : Str)
  | setEncoding (enc : Str)
  | setPKI (pki : Str)
  | setMainPKI (pki : Str)
  | setPOPAppId (popAppId : Str)
  | setAsEndRequest
  | addNodeToExplorationList (nodeId : Str) (neighbors : List Str)
  | addNodeToWb (nodeId : Str)

/-- What the call leaves. -/
def Request.change (r : Request) : Change → Request
  | .setUniqueId uniqueId => { r with uniqueId := uniqueId }
  | .setMaxHops maxHops => { r with maxHops := maxHops }
  | .setNodeId nodeId => { r with nodeId := .of nodeId }
  | .setOperatingSystem operatingSystem => { r with operatingSystem := .of operatingSystem }
  | .setMinCpuSpeed cpuSpeed => { r with minCpuSpeed := .of cpuSpeed }
  | .setExpectedCpuSpeed cpuSpeed => { r with expectedCpuSpeed := .of cpuSpeed }
  | .setMinMemorySize memorySize => { r with minMemorySize := .of memorySize }
  | .setExpectedMemorySize memorySize => { r with expectedMemorySize := .of memorySize }
  | .setMinNetworkBandwidth networkBandwidth =>
      { r with minNetworkBandwidth := .of networkBandwidth }
  | .setExpectedNetworkBandwidth networkBandwidth =>
      { r with expectedNetworkBandwidth := .of networkBandwidth }
  | .setMinDiskSpace diskSpace => { r with minDiskSpace := .of diskSpace }
  | .setExpectedDiskSpace diskSpace => { r with expectedDiskSpace := .of diskSpace }
  | .setMinPower p => { r with minPower := .of p }
  | .setExpectedPower p => { r with expectedPower := .of p }
  | .setProtocol prot => { r with protocol := .of prot }
  | .setEncoding enc => { r with encoding := .of enc }
  | .setPKI pki => { r with pki := pki }
  | .setMainPKI pki => { r with mainPki := pki }
  | .setPOPAppId popAppId => { r with popappid := popAppId }
  | .setAsEndRequest => { r with endingSignal := true }
  | .addNodeToExplorationList nodeId neighbors =>
      { r with
        explorationList := r.explorationList.addListNode nodeId neighbors
        maxHops := if r.maxHops ≠ Request.unlimitedHops then r.maxHops - 1 else r.maxHops }
  | .addNodeToWb nodeId => { r with wb := r.wb.insertNode nodeId }

/-- A request that a program has made and filled in. -/
inductive Reachable : Request → Prop
  | new (memory : Request) : Reachable (.new memory)
  | full (memory : Request) (maxHops : BitVec 32) (nodeId operatingSystem : Str)
      (minCpuSpeed expectedCpuSpeed : BitVec 32) (minMemorySize expectedMemorySize : Bits)
      (minNetworkBandwidth expectedNetworkBandwidth minDiskSpace expectedDiskSpace : BitVec 32)
      (minPower expectedPower : Bits) (protocol encoding : Str) :
      Reachable (.full memory maxHops nodeId operatingSystem minCpuSpeed expectedCpuSpeed
        minMemorySize expectedMemorySize minNetworkBandwidth expectedNetworkBandwidth minDiskSpace
        expectedDiskSpace minPower expectedPower protocol encoding)
  | change {r : Request} (h : Reachable r) (c : Change) : Reachable (r.change c)

lemma Reachable.kept {r : Request} (h : Reachable r) : r.explorationList.Kept := by
  induction h with
  | new | full => exact ⟨List.Pairwise.nil, Nat.zero_le _⟩
  | change _ c ih =>
      cases c with
      | addNodeToExplorationList nodeId neighbors => exact ih.addListNode nodeId neighbors
      | _ => exact ih

/-! ### Serialize -/

section Pack

variable (F : Format)

/-- An optional member: the flag, and the member if it is set. -/
def packField {α : Type} (pack : α → BufM Unit) (f : Field α) : BufM Unit := do
  packFlag F f.isSet
  if f.isSet then pack f.value else pure ()

/-- The expected speed of the processor: the flag, and the flag again. -/
def packExpectedCpuSpeed (f : Field (BitVec 32)) : BufM Unit := do
  packFlag F f.isSet
  if f.isSet then packFlag F f.isSet else pure ()

/-- `POPWayback::Serialize(buf, true)`: the elements are taken out of the list as they are
packed. -/
def packWayback (wb : POPWayback Str) : BufM Unit := do
  packInt1 F (wrap wb.lstWb.length)
  packStrings F wb.lstWb

/-- The loop of `ExplorationList::Serialize(buf, true)`. -/
def packEntries : ExplorationList Str → BufM Unit
  | [] => pure ()
  | e :: el => do
      packString F e.1
      packInt1 F (wrap e.2.length)
      packStrings F e.2
      packEntries el

/-- `ExplorationList::Serialize(buf, true)` -/
def packExplorationList (el : ExplorationList Str) : BufM Unit := do
  let nElts := wrap el.length
  packInt1 F nElts
  if nElts > 0 then packEntries F el else pure ()

/-- What `Request::Serialize(buf, true)` packs. -/
def Request.pack (r : Request) : BufM Unit := do
  packString F r.uniqueId
  packBits1 F r.maxHops
  packField F (packString F) r.nodeId
  packField F (packString F) r.operatingSystem
  packField F (packBits1 F) r.minCpuSpeed
  packExpectedCpuSpeed F r.expectedCpuSpeed
  packField F (packFloat1 F) r.minMemorySize
  packField F (packFloat1 F) r.expectedMemorySize
  packField F (packFloat1 F) r.minNetworkBandwidth
  packField F (packFloat1 F) r.expectedNetworkBandwidth
  packField F (packBits1 F) r.minDiskSpace
  packField F (packBits1 F) r.expectedDiskSpace
  packField F (packFloat1 F) r.minPower
  packField F (packFloat1 F) r.expectedPower
  packField F (packString F) r.protocol
  packField F (packString F) r.encoding
  packString F r.pki
  packString F r.mainPki
  packString F r.popappid
  packFlag F r.endingSignal
  packWayback F r.wb
  packExplorationList F r.explorationList

/-- `Request::Serialize(buf, true)`: the way back of the request is used up. -/
def Request.serialize (r : Request) : BufM Request := do
  r.pack F
  pure { r with wb := ⟨[]⟩ }

/-- An optional member: one that is not set is left alone. -/
def unPackField {α : Type} (unPack : BufM α) (f : Field α) : BufM (Field α) := do
  let isSet ← unPackFlag F
  if isSet then do
    let v ← unPack
    pure ⟨isSet, v⟩
  else pure ⟨isSet, f.value⟩

/-- The expected speed of the processor: the flag, and the flag again. -/
def unPackExpectedCpuSpeed (f : Field (BitVec 32)) : BufM (Field (BitVec 32)) := do
  let isSet ← unPackFlag F
  if isSet then do
    let isSet' ← unPackFlag F
    pure ⟨isSet', f.value⟩
  else pure ⟨isSet, f.value⟩

/-- `POPWayback::Serialize(buf, false)` -/
def unPackWayback : BufM (POPWayback Str) := do
  let size ← unPackInt1 F
  let elts ← unPackStrings F size.toNat
  pure ⟨elts⟩

/-- The loop of `ExplorationList::Serialize(buf, false)`. -/
def unPackEntries : ℕ → ExplorationList Str → BufM (ExplorationList Str)
  | 0, el => pure el
  | n + 1, el => do
      let nodeId ← unPackString F
      let nNeighbors ← unPackInt1 F
      let neighbors ← unPackStrings F nNeighbors.toNat
      unPackEntries n (el.addListNode nodeId neighbors)

/-- `ExplorationList::Serialize(buf, false)` -/
def unPackExplorationList (el : ExplorationList Str) : BufM (ExplorationList Str) := do
  let nElts ← unPackInt1 F
  unPackEntries F nElts.toNat el

/-- `Request::Serialize(buf, false)` -/
def Request.unPack (r : Request) : BufM Request := do
  let uniqueId ← unPackString F
  let maxHops ← unPackBits1 F
  let nodeId ← unPackField F (unPackString F) r.nodeId
  let operatingSystem ← unPackField F (unPackString F) r.operatingSystem
  let minCpuSpeed ← unPackField F (unPackBits1 F) r.minCpuSpeed
  let expectedCpuSpeed ← unPackExpectedCpuSpeed F r.expectedCpuSpeed
  let minMemorySize ← unPackField F (unPackFloat1 F) r.minMemorySize
  let expectedMemorySize ← unPackField F (unPackFloat1 F) r.expectedMemorySize
  let minNetworkBandwidth ← unPackField F (unPackFloat1 F) r.minNetworkBandwidth
  let expectedNetworkBandwidth ← unPackField F (unPackFloat1 F) r.expectedNetworkBandwidth
  let minDiskSpace ← unPackField F (unPackBits1 F) r.minDiskSpace
  let expectedDiskSpace ← unPackField F (unPackBits1 F) r.expectedDiskSpace
  let minPower ← unPackField F (unPackFloat1 F) r.minPower
  let expectedPower ← unPackField F (unPackFloat1 F) r.expectedPower
  let protocol ← unPackField F (unPackString F) r.protocol
  let encoding ← unPackField F (unPackString F) r.encoding
  let pki ← unPackString F
  let mainPki ← unPackString F
  let popappid ← unPackString F
  let endingSignal ← unPackFlag F
  let wb ← unPackWayback F
  let explorationList ← unPackExplorationList F r.explorationList
  pure {
    uniqueId, maxHops, wb, popappid, pki, mainPki, endingSignal, nodeId, operatingSystem,
    minCpuSpeed, expectedCpuSpeed, minMemorySize, expectedMemorySize, minNetworkBandwidth,
    expectedNetworkBandwidth, minDiskSpace, expectedDiskSpace, expectedPower, minPower, protocol,
    encoding, explorationList }

end Pack

/-! ### What arrives -/

/-- How many bytes an optional member takes. -/
def fieldSize {α : Type} (size : α → ℕ) (f : Field α) : ℕ := 4 + if f.isSet then size f.value else 0

/-- How many bytes an entry of an exploration list takes. -/
def entrySize (e : Str × List Str) : ℕ := stringSize e.1 + (4 + (e.2.map stringSize).sum)

lemma length_le_sum_entrySize (el : ExplorationList Str) :
    el.length ≤ (el.map entrySize).sum := by
  induction el with
  | nil => exact Nat.zero_le _
  | cons e el ih =>
      rw [List.map_cons, List.sum_cons, List.length_cons, entrySize]
      omega

/-- A neighbour list that fits in a message is not too long for its `int`. -/
lemma length_lt_of_sum_entrySize {el : ExplorationList Str}
    (h : (el.map entrySize).sum < 2 ^ 31) : ∀ e ∈ el, e.2.length < 2 ^ 31 := by
  intro e he
  have hle := List.single_le_sum (fun _ _ => Nat.zero_le _) _
    (List.mem_map_of_mem (f := entrySize) he)
  have hneighbors := length_le_sum_stringSize e.2
  rw [entrySize] at hle
  omega

namespace Request

/-- How many bytes a request takes when the entries of its exploration list take `k`, member by
member. -/
def sizeWith (r : Request) (k : ℕ) : ℕ :=
  stringSize r.uniqueId + (4 + (fieldSize stringSize r.nodeId +
    (fieldSize stringSize r.operatingSystem + (fieldSize (fun _ => 4) r.minCpuSpeed +
    (fieldSize (fun _ => 4) r.expectedCpuSpeed + (fieldSize (fun _ => 4) r.minMemorySize +
    (fieldSize (fun _ => 4) r.expectedMemorySize + (fieldSize (fun _ => 4) r.minNetworkBandwidth +
    (fieldSize (fun _ => 4) r.expectedNetworkBandwidth + (fieldSize (fun _ => 4) r.minDiskSpace +
    (fieldSize (fun _ => 4) r.expectedDiskSpace + (fieldSize (fun _ => 4) r.minPower +
    (fieldSize (fun _ => 4) r.expectedPower + (fieldSize stringSize r.protocol +
    (fieldSize stringSize r.encoding + (stringSize r.pki + (stringSize r.mainPki +
    (stringSize r.popappid + (4 + ((4 + (r.wb.lstWb.map stringSize).sum) +
    (4 + k)))))))))))))))))))))

lemma le_sizeWith (r : Request) (k : ℕ) : k ≤ r.sizeWith k := by
  unfold sizeWith
  iterate 22 refine Nat.le_trans ?_ (Nat.le_add_left _ _)
  exact Nat.le_refl k

lemma wb_le_sizeWith (r : Request) (k : ℕ) :
    (r.wb.lstWb.map stringSize).sum ≤ r.sizeWith k := by
  have hwb : (r.wb.lstWb.map stringSize).sum ≤ (4 + (r.wb.lstWb.map stringSize).sum) + (4 + k) := by
    omega
  refine hwb.trans ?_
  unfold sizeWith
  iterate 20 refine Nat.le_trans ?_ (Nat.le_add_left _ _)
  exact Nat.le_refl _

/-- How many bytes a request takes. -/
def size (r : Request) : ℕ := r.sizeWith (r.explorationList.map entrySize).sum

/-- The strings of the request that are packed. -/
def strings (r : Request) : List Str :=
  [r.uniqueId, r.pki, r.mainPki, r.popappid] ++
    ([r.nodeId, r.operatingSystem, r.protocol, r.encoding].filter (·.isSet)).map (·.value) ++
    r.wb.lstWb ++ r.explorationList.flatMap fun e => e.1 :: e.2

lemma mem_strings_of_field {r : Request} {f : Field Str}
    (hf : f ∈ [r.nodeId, r.operatingSystem, r.protocol, r.encoding]) (h : f.isSet = true) :
    f.value ∈ r.strings := by
  have hvalue := List.mem_map_of_mem (f := Field.value)
    (List.mem_filter.mpr ⟨hf, by simpa using h⟩)
  exact List.mem_append_left _ (List.mem_append_left _ (List.mem_append_right _ hvalue))

lemma mem_strings_of_wb {r : Request} {s : Str} (hs : s ∈ r.wb.lstWb) : s ∈ r.strings :=
  List.mem_append_left _ (List.mem_append_right _ hs)

lemma mem_strings_of_entry {r : Request} {e : Str × List Str} (he : e ∈ r.explorationList)
    {s : Str} (hs : s ∈ e.1 :: e.2) : s ∈ r.strings :=
  List.mem_append_right _ (List.mem_flatMap.mpr ⟨e, he, hs⟩)

/-- The strings have no NUL. -/
def NulFree (r : Request) : Prop := ∀ s ∈ r.strings, 0 ∉ s

/-- The lengths of the strings are `int`s, with the NUL. -/
def Short (r : Request) : Prop := ∀ s ∈ r.strings, s.length + 1 < 2 ^ 31

end Request

/-- The member that `f` becomes when it is unpacked into `old`. -/
def Field.received {α : Type} (f old : Field α) : Field α :=
  ⟨f.isSet, if f.isSet then f.value else old.value⟩

/-- The request that `r` becomes when it is unpacked into a new one, with the exploration list
that becomes of its own. -/
def Request.received (r memory : Request) (el : ExplorationList Str) : Request where
  uniqueId := r.uniqueId
  maxHops := r.maxHops
  wb := r.wb
  popappid := r.popappid
  pki := r.pki
  mainPki := r.mainPki
  endingSignal := r.endingSignal
  nodeId := r.nodeId.received ⟨false, []⟩
  operatingSystem := r.operatingSystem.received ⟨false, []⟩
  minCpuSpeed := r.minCpuSpeed.received memory.minCpuSpeed
  expectedCpuSpeed := ⟨r.expectedCpuSpeed.isSet, memory.expectedCpuSpeed.value⟩
  minMemorySize := r.minMemorySize.received memory.minMemorySize
  expectedMemorySize := r.expectedMemorySize.received memory.expectedMemorySize
  minNetworkBandwidth := r.minNetworkBandwidth.received memory.minNetworkBandwidth
  expectedNetworkBandwidth := r.expectedNetworkBandwidth.received memory.expectedNetworkBandwidth
  minDiskSpace := r.minDiskSpace.received memory.minDiskSpace
  expectedDiskSpace := r.expectedDiskSpace.received memory.expectedDiskSpace
  expectedPower := r.expectedPower.received memory.expectedPower
  minPower := r.minPower.received memory.minPower
  protocol := r.protocol.received ⟨false, []⟩
  encoding := r.encoding.received ⟨false, []⟩
  explorationList := el

/-- An entry of an exploration list as it comes out of a buffer. -/
def cutEntry (e : Str × List Str) : Str × List Str := (cut e.1, e.2.map cut)

/-- A member as it comes out of a buffer. -/
def Field.cut (f : Field Str) : Field Str := ⟨f.isSet, PopCpp.Buffer.cut f.value⟩

/-- The request that `r` becomes when it is unpacked into `old`, with the exploration list that
becomes of the two. -/
def Request.receivedInto (r old : Request) (el : ExplorationList Str) : Request where
  uniqueId := cut r.uniqueId
  maxHops := r.maxHops
  wb := ⟨r.wb.lstWb.map cut⟩
  popappid := cut r.popappid
  pki := cut r.pki
  mainPki := cut r.mainPki
  endingSignal := r.endingSignal
  nodeId := r.nodeId.cut.received old.nodeId
  operatingSystem := r.operatingSystem.cut.received old.operatingSystem
  minCpuSpeed := r.minCpuSpeed.received old.minCpuSpeed
  expectedCpuSpeed := ⟨r.expectedCpuSpeed.isSet, old.expectedCpuSpeed.value⟩
  minMemorySize := r.minMemorySize.received old.minMemorySize
  expectedMemorySize := r.expectedMemorySize.received old.expectedMemorySize
  minNetworkBandwidth := r.minNetworkBandwidth.received old.minNetworkBandwidth
  expectedNetworkBandwidth := r.expectedNetworkBandwidth.received old.expectedNetworkBandwidth
  minDiskSpace := r.minDiskSpace.received old.minDiskSpace
  expectedDiskSpace := r.expectedDiskSpace.received old.expectedDiskSpace
  expectedPower := r.expectedPower.received old.expectedPower
  minPower := r.minPower.received old.minPower
  protocol := r.protocol.cut.received old.protocol
  encoding := r.encoding.cut.received old.encoding
  explorationList := el

lemma map_cut_eq_self_iff {ss : List Str} : ss.map cut = ss ↔ ∀ s ∈ ss, 0 ∉ s := by
  induction ss with
  | nil => simp
  | cons s ss ih => rw [List.map_cons, List.cons.injEq, ih, cut_eq_self_iff, List.forall_mem_cons]

lemma map_cutEntry_eq_self {el : ExplorationList Str}
    (h : ∀ e ∈ el, 0 ∉ e.1 ∧ ∀ s ∈ e.2, 0 ∉ s) : el.map cutEntry = el := by
  conv_rhs => rw [← List.map_id el]
  refine List.map_congr_left fun e he => ?_
  rw [cutEntry, cut_eq_self_iff.mpr (h e he).1, map_cut_eq_self_iff.mpr (h e he).2]
  rfl

/-- Strings without NUL come out of a buffer as they are. -/
lemma Request.NulFree.receivedInto {r : Request} (h : r.NulFree) (memory : Request)
    (el : ExplorationList Str) : r.receivedInto (.new memory) el = r.received memory el := by
  have hfield : ∀ f ∈ [r.nodeId, r.operatingSystem, r.protocol, r.encoding],
      f.cut.received ⟨false, []⟩ = f.received ⟨false, []⟩ := by
    intro f hf
    rw [Field.received, Field.received, Field.cut]
    cases hset : f.isSet with
    | true => rw [cut_eq_self_iff.mpr (h _ (mem_strings_of_field hf hset))]
    | false => rfl
  have htext : ∀ s ∈ [r.uniqueId, r.pki, r.mainPki, r.popappid], cut s = s := fun s hs =>
    cut_eq_self_iff.mpr
      (h s (List.mem_append_left _ (List.mem_append_left _ (List.mem_append_left _ hs))))
  have hwb : r.wb.lstWb.map cut = r.wb.lstWb :=
    map_cut_eq_self_iff.mpr fun s hs => h s (mem_strings_of_wb hs)
  rw [Request.receivedInto, Request.received, hwb, htext r.uniqueId (by simp),
    htext r.pki (by simp), htext r.mainPki (by simp), htext r.popappid (by simp)]
  simp only [Request.new, hfield r.nodeId (by simp), hfield r.operatingSystem (by simp),
    hfield r.protocol (by simp), hfield r.encoding (by simp)]
  rfl

section Transport

variable {F : Format}

lemma returns_field {α : Type} {unPack : BufM α} {P : α → Prop}
    (h : Returns unPack P) (old : Field α) :
    Returns (unPackField F unPack old) fun f => f.isSet = true → P f.value := by
  refine (Returns.trivial _).bind fun isSet _ => ?_
  cases isSet with
  | true => exact h.bind fun v hv => Returns.pure fun _ => hv
  | false => exact Returns.pure fun hset => absurd hset (by simp)

/-- The expected speed of the processor stays what it was. -/
lemma returns_expectedCpuSpeed (old : Field (BitVec 32)) :
    Returns (unPackExpectedCpuSpeed F old) fun f => f.value = old.value := by
  refine (Returns.trivial _).bind fun isSet _ => ?_
  cases isSet with
  | true => exact (Returns.trivial _).bind fun isSet' _ => Returns.pure rfl
  | false => exact Returns.pure rfl

variable (hF : F.Transports)
include hF

lemma carries_field {α : Type} {pack : α → BufM Unit} {unPack : BufM α} {size : α → ℕ}
    {f : Field α} {w : α} (h : Carries (pack f.value) unPack (size f.value) w) (old : Field α) :
    Carries (packField F pack f) (unPackField F unPack old) (fieldSize size f)
      ((Field.mk f.isSet w).received old) := by
  refine (hF.flag1 f.isSet).bind ?_
  rw [Field.received]
  cases hset : f.isSet with
  | true => exact h.map (Field.mk true)
  | false => exact Carries.pure _

lemma carries_expectedCpuSpeed (f old : Field (BitVec 32)) :
    Carries (packExpectedCpuSpeed F f) (unPackExpectedCpuSpeed F old) (fieldSize (fun _ => 4) f)
      ⟨f.isSet, old.value⟩ := by
  refine (hF.flag1 f.isSet).bind ?_
  cases hset : f.isSet with
  | true => exact (hF.flag1 true).map fun b => Field.mk b old.value
  | false => exact Carries.pure _

lemma carries_wayback (wb : POPWayback Str) (hint : wb.lstWb.length < 2 ^ 31) :
    Carries (packWayback F wb) (unPackWayback F) (4 + (wb.lstWb.map stringSize).sum)
      ⟨wb.lstWb.map cut⟩ := by
  refine (hF.int1 (fits_wrap _)).bind ?_
  rw [wrap_natCast (by omega), Int.toNat_natCast]
  exact (hF.stringsCut wb.lstWb).map POPWayback.mk

/-- Packed entries are added one by one. -/
lemma carries_entries {el : ExplorationList Str} (hint : ∀ e ∈ el, e.2.length < 2 ^ 31)
    (acc : ExplorationList Str) :
    Carries (packEntries F el) (unPackEntries F el.length acc) (el.map entrySize).sum
      ((el.map cutEntry).foldl (fun acc e => acc.addListNode e.1 e.2) acc) := by
  induction el generalizing acc with
  | nil => exact Carries.pure acc
  | cons e el ih =>
      rw [List.forall_mem_cons] at hint
      have hneighbors := hF.stringsCut e.2
      have hrest := ih hint.2 (acc.addListNode (cut e.1) (e.2.map cut))
      have hwrap : wrap (e.2.length : ℤ) = e.2.length := wrap_natCast (by omega)
      have hcount := (hF.int1 (fits_wrap e.2.length)).bind (f := fun n => do
        let neighbors ← unPackStrings F n.toNat
        unPackEntries F el.length (acc.addListNode (cut e.1) neighbors))
        (by rw [hwrap, Int.toNat_natCast]; exact hneighbors.bind hrest)
      have h := (hF.stringCut e.1).bind (f := fun nodeId => do
        let n ← unPackInt1 F
        let neighbors ← unPackStrings F n.toNat
        unPackEntries F el.length (acc.addListNode nodeId neighbors)) hcount
      have hsize : stringSize e.1 + (4 + ((e.2.map stringSize).sum + (el.map entrySize).sum)) =
          ((e :: el).map entrySize).sum := by
        rw [List.map_cons, List.sum_cons, entrySize]
        omega
      rw [← hsize]
      exact h

lemma carries_explorationList (el : ExplorationList Str) (hint : el.length < 2 ^ 31)
    (hint' : ∀ e ∈ el, e.2.length < 2 ^ 31) (old : ExplorationList Str) :
    Carries (packExplorationList F el) (unPackExplorationList F old) (4 + (el.map entrySize).sum)
      ((el.map cutEntry).foldl (fun acc e => acc.addListNode e.1 e.2) old) := by
  have hwrap : wrap (el.length : ℤ) = el.length := wrap_natCast (by omega)
  have hentries := carries_entries hF hint' old
  refine (hF.int1 (fits_wrap _)).bind ?_
  rw [hwrap, Int.toNat_natCast]
  split
  · exact hentries
  · next h0 =>
      obtain rfl : el = [] := List.eq_nil_of_length_eq_zero (by omega)
      exact hentries

/-- The entries of a list that is too long for its `int` are not packed. -/
lemma carries_none {el : ExplorationList Str} (h : wrap (el.length : ℤ) ≤ 0) :
    Carries (packExplorationList F el) (unPackExplorationList F []) 4 [] := by
  show Carries _ _ (4 + 0) _
  refine (hF.int1 (fits_wrap _)).bind ?_
  rw [if_neg (not_lt.mpr h), Int.toNat_of_nonpos h]
  exact Carries.pure _

/-- What is packed arrives, but for the expected speed of the processor and what comes after
the first NUL of a string. -/
theorem carries_pack {r : Request} (hwb : r.wb.lstWb.length < 2 ^ 31) (old : Request) (k : ℕ)
    {el : ExplorationList Str} (hel : Carries (packExplorationList F r.explorationList)
      (unPackExplorationList F old.explorationList) (4 + k) el) :
    Carries (r.pack F) (old.unPack F) (r.sizeWith k) (r.receivedInto old el) := by
  refine (hF.stringCut _).bind ((hF.bits1 _).bind ?_)
  refine (carries_field hF (hF.stringCut _) _).bind ?_
  refine (carries_field hF (hF.stringCut _) _).bind ?_
  refine (carries_field hF (hF.bits1 _) _).bind ?_
  refine (carries_expectedCpuSpeed hF _ _).bind ?_
  refine (carries_field hF (hF.float1 _) _).bind ?_
  refine (carries_field hF (hF.float1 _) _).bind ?_
  refine (carries_field hF (hF.float1 _) _).bind ?_
  refine (carries_field hF (hF.float1 _) _).bind ?_
  refine (carries_field hF (hF.bits1 _) _).bind ?_
  refine (carries_field hF (hF.bits1 _) _).bind ?_
  refine (carries_field hF (hF.float1 _) _).bind ?_
  refine (carries_field hF (hF.float1 _) _).bind ?_
  refine (carries_field hF (hF.stringCut _) _).bind ?_
  refine (carries_field hF (hF.stringCut _) _).bind ?_
  refine (hF.stringCut _).bind ((hF.stringCut _).bind ((hF.stringCut _).bind ?_))
  refine (hF.flag1 _).bind ((carries_wayback hF _ hwb).bind ?_)
  exact hel.map _

/-! ### What a request needs to arrive -/

lemma takes_field {α : Type} {pack : α → BufM Unit} {size : α → ℕ} {f : Field α}
    (h : f.isSet = true → Takes (pack f.value) (size f.value) 5) :
    Takes (packField F pack f) (fieldSize size f) 5 := by
  refine (hF.fillsFlag1 f.isSet).bind ?_ (Nat.le_refl 5)
  cases hset : f.isSet with
  | true => exact h hset
  | false => exact Takes.pure.mono (Nat.zero_le 5)

lemma takes_expectedCpuSpeed (f : Field (BitVec 32)) :
    Takes (packExpectedCpuSpeed F f) (fieldSize (fun _ => 4) f) 5 := by
  refine (hF.fillsFlag1 f.isSet).bind ?_ (Nat.le_refl 5)
  cases hset : f.isSet with
  | true => exact (hF.fillsFlag1 true).takes (Nat.le_refl 5)
  | false => exact Takes.pure.mono (Nat.zero_le 5)

lemma takes_wayback {wb : POPWayback Str} (hshort : ∀ s ∈ wb.lstWb, s.length + 1 < 2 ^ 31) :
    Takes (packWayback F wb) (4 + (wb.lstWb.map stringSize).sum) 10 :=
  (hF.takesInt1 _).bind (hF.takesStrings hshort) (by decide)

/-- Entries are not packed into a buffer that is too long for a message already. -/
lemma eq_nil_of_packEntries {el : ExplorationList Str}
    (hshort : ∀ e ∈ el, ∀ s ∈ e.1 :: e.2, s.length + 1 < 2 ^ 31) {b b' : PopBuffer}
    (hlong : 2 ^ 31 ≤ b.packeddata.length) (hb : b.packeddata.length + 5 < 2 ^ 31 + 2 ^ 30)
    (h : packEntries F el b = .ok () b') : el = [] ∧ b' = b := by
  cases el with
  | nil => exact ⟨rfl, by simpa [packEntries] using h.symm⟩
  | cons e el =>
      rw [List.forall_mem_cons] at hshort
      obtain ⟨_, b₁, hkey, -⟩ := BufM.bind_eq_ok.mp h
      have hfills := hF.fillsString (hshort.1 e.1 List.mem_cons_self) b b₁ hb hkey
      omega

lemma takes_entries {el : ExplorationList Str}
    (hshort : ∀ e ∈ el, ∀ s ∈ e.1 :: e.2, s.length + 1 < 2 ^ 31) :
    Takes (packEntries F el) (el.map entrySize).sum 10 := by
  induction el with
  | nil => exact Takes.pure.mono (Nat.zero_le 10)
  | cons e el ih =>
      rw [List.forall_mem_cons] at hshort
      intro b b' h
      obtain ⟨_, b₁, hkey, h⟩ := BufM.bind_eq_ok.mp h
      obtain ⟨_, b₂, hint, h⟩ := BufM.bind_eq_ok.mp h
      obtain ⟨_, b₃, hneighbors, h⟩ := BufM.bind_eq_ok.mp h
      have h1 := fun hb => hF.fillsString (hshort.1 e.1 List.mem_cons_self) b b₁ hb hkey
      have h2 := hF.takesInt1 _ b₁ b₂ hint
      have h3 := hF.takesStrings (fun s hs => hshort.1 s (List.mem_cons_of_mem _ hs)) b₂ b₃
        hneighbors
      have h4 := ih hshort.2 b₃ b' h
      rw [List.map_cons, List.sum_cons, entrySize]
      -- A buffer that the count has made too long can only be the last.
      by_cases hlong : 2 ^ 31 ≤ b₃.packeddata.length ∧
          b₃.packeddata.length + 5 < 2 ^ 31 + 2 ^ 30
      · obtain ⟨rfl, rfl⟩ := eq_nil_of_packEntries hF hshort.2 hlong.1 hlong.2 h
        omega
      · omega

lemma takes_pack {r : Request} (hshort : r.Short) {k : ℕ}
    (hel : Takes (packExplorationList F r.explorationList) (4 + k) 15) :
    Takes (r.pack F) (r.sizeWith k) 100 := by
  have hset : ∀ f ∈ [r.nodeId, r.operatingSystem, r.protocol, r.encoding], f.isSet = true →
      Takes (packString F f.value) (stringSize f.value) 5 := fun f hf h =>
    (hF.fillsString (hshort _ (Request.mem_strings_of_field hf h))).takes (Nat.le_refl 5)
  have hstr : ∀ s ∈ r.strings, Fills (packString F s) (stringSize s) := fun s hs =>
    hF.fillsString (hshort s hs)
  have hwb := takes_wayback hF fun s hs => hshort s (Request.mem_strings_of_wb hs)
  refine (hstr r.uniqueId (by simp [Request.strings])).bind ?_ (by decide)
  refine (hF.takesBits1 _).next ?_ (by decide)
  refine (takes_field hF (hset r.nodeId (by simp))).next ?_ (by decide)
  refine (takes_field hF (hset r.operatingSystem (by simp))).next ?_ (by decide)
  refine (takes_field hF fun _ => hF.takesBits1 _).next ?_ (by decide)
  refine (takes_expectedCpuSpeed hF _).next ?_ (by decide)
  refine (takes_field hF fun _ => (hF.fillsFloat1 _).takes (by decide)).next ?_ (by decide)
  refine (takes_field hF fun _ => (hF.fillsFloat1 _).takes (by decide)).next ?_ (by decide)
  refine (takes_field hF fun _ => (hF.fillsFloat1 _).takes (by decide)).next ?_ (by decide)
  refine (takes_field hF fun _ => (hF.fillsFloat1 _).takes (by decide)).next ?_ (by decide)
  refine (takes_field hF fun _ => hF.takesBits1 _).next ?_ (by decide)
  refine (takes_field hF fun _ => hF.takesBits1 _).next ?_ (by decide)
  refine (takes_field hF fun _ => (hF.fillsFloat1 _).takes (by decide)).next ?_ (by decide)
  refine (takes_field hF fun _ => (hF.fillsFloat1 _).takes (by decide)).next ?_ (by decide)
  refine (takes_field hF (hset r.protocol (by simp))).next ?_ (by decide)
  refine (takes_field hF (hset r.encoding (by simp))).next ?_ (by decide)
  refine (hstr r.pki (by simp [Request.strings])).bind ?_ (by decide)
  refine (hstr r.mainPki (by simp [Request.strings])).bind ?_ (by decide)
  refine (hstr r.popappid (by simp [Request.strings])).bind ?_ (by decide)
  refine (hF.fillsFlag1 _).bind ?_ (by decide)
  exact hwb.bind hel (by decide)

lemma returns_wayback : Returns (unPackWayback F) fun wb => ∀ s ∈ wb.lstWb, s.length + 1 < 2 ^ 31 :=
  (Returns.trivial _).bind fun size _ => (hF.returnsString.strings size.toNat).bind fun _ helts =>
    Returns.pure helts

omit hF in
lemma returns_entries {P : Str → Prop} (hstring : Returns (unPackString F) P) {n : ℕ}
    {el : ExplorationList Str} (h : ∀ e ∈ el, ∀ s ∈ e.1 :: e.2, P s) :
    Returns (unPackEntries F n el) fun el' => ∀ e ∈ el', ∀ s ∈ e.1 :: e.2, P s := by
  induction n generalizing el with
  | zero => exact Returns.pure h
  | succ n ih =>
      refine hstring.bind fun nodeId hnodeId => (Returns.trivial _).bind fun count _ =>
        (hstring.strings count.toNat).bind fun neighbors hneighbors => ih ?_
      exact ExplorationList.forall_addListNode h (List.forall_mem_cons.mpr ⟨hnodeId, hneighbors⟩)

/-- Whatever is unpacked has short strings, and the expected speed of the processor is still
what it was in memory. -/
lemma returns_unPack (memory : Request) :
    Returns ((Request.new memory).unPack F) fun r =>
      r.Short ∧ r.expectedCpuSpeed.value = memory.expectedCpuSpeed.value := by
  have hstr := hF.returnsString
  refine hstr.bind fun uniqueId huniqueId => (Returns.trivial _).bind fun maxHops _ =>
    (returns_field hstr _).bind fun nodeId hnodeId =>
    (returns_field hstr _).bind fun operatingSystem hoperatingSystem => ?_
  refine (Returns.trivial _).bind fun minCpuSpeed _ =>
    (returns_expectedCpuSpeed _).bind fun expectedCpuSpeed hexpected => ?_
  refine (Returns.trivial _).bind fun minMemorySize _ => (Returns.trivial _).bind
    fun expectedMemorySize _ => (Returns.trivial _).bind fun minNetworkBandwidth _ =>
    (Returns.trivial _).bind fun expectedNetworkBandwidth _ => (Returns.trivial _).bind
    fun minDiskSpace _ => (Returns.trivial _).bind fun expectedDiskSpace _ =>
    (Returns.trivial _).bind fun minPower _ => (Returns.trivial _).bind fun expectedPower _ => ?_
  refine (returns_field hstr _).bind fun protocol hprotocol =>
    (returns_field hstr _).bind fun encoding hencoding => hstr.bind fun pki hpki =>
    hstr.bind fun mainPki hmainPki => hstr.bind fun popappid hpopappid => ?_
  refine (Returns.trivial _).bind fun endingSignal _ => (returns_wayback hF).bind fun wb hwb =>
    ((Returns.trivial _).bind fun nElts _ => returns_entries hstr (by simp [Request.new])).bind
    fun explorationList hlist => Returns.pure ⟨?_, hexpected⟩
  intro s hs
  simp only [Request.strings, List.mem_append, List.mem_map, List.mem_filter,
    List.mem_flatMap] at hs
  rcases hs with ((hs | ⟨f, ⟨hf, hset⟩, rfl⟩) | hs) | ⟨e, he, hs⟩
  · simp only [List.mem_cons, List.not_mem_nil, or_false] at hs
    rcases hs with rfl | rfl | rfl | rfl <;> assumption
  · simp only [List.mem_cons, List.not_mem_nil, or_false] at hf
    rcases hf with rfl | rfl | rfl | rfl
    · exact hnodeId hset
    · exact hoperatingSystem hset
    · exact hprotocol hset
    · exact hencoding hset
  · exact hwb s hs
  · exact hlist e he s hs

end Transport

/-! ### The round trip -/

/-- The member says the same, if it says anything. -/
structure Field.Same {α : Type} (f' f : Field α) : Prop where
  isSet : f'.isSet = f.isSet
  value : f.isSet = true → f'.value = f.value

lemma Field.same_received {α : Type} (f old : Field α) : (f.received old).Same f where
  isSet := rfl
  value h := if_pos h

/-- All flags, all members that are set and everything else that is packed are the same. -/
structure Restored (r' r : Request) : Prop where
  uniqueId : r'.uniqueId = r.uniqueId
  maxHops : r'.maxHops = r.maxHops
  nodeId : r'.nodeId.Same r.nodeId
  operatingSystem : r'.operatingSystem.Same r.operatingSystem
  minCpuSpeed : r'.minCpuSpeed.Same r.minCpuSpeed
  expectedCpuSpeed : r'.expectedCpuSpeed.Same r.expectedCpuSpeed
  minMemorySize : r'.minMemorySize.Same r.minMemorySize
  expectedMemorySize : r'.expectedMemorySize.Same r.expectedMemorySize
  minNetworkBandwidth : r'.minNetworkBandwidth.Same r.minNetworkBandwidth
  expectedNetworkBandwidth : r'.expectedNetworkBandwidth.Same r.expectedNetworkBandwidth
  minDiskSpace : r'.minDiskSpace.Same r.minDiskSpace
  expectedDiskSpace : r'.expectedDiskSpace.Same r.expectedDiskSpace
  minPower : r'.minPower.Same r.minPower
  expectedPower : r'.expectedPower.Same r.expectedPower
  protocol : r'.protocol.Same r.protocol
  encoding : r'.encoding.Same r.encoding
  pki : r'.pki = r.pki
  mainPki : r'.mainPki = r.mainPki
  popappid : r'.popappid = r.popappid
  endingSignal : r'.endingSignal = r.endingSignal
  wb : r'.wb = r.wb
  explorationList : r'.explorationList = r.explorationList

lemma restored_received {r memory : Request}
    (h : r.expectedCpuSpeed.isSet = true →
      memory.expectedCpuSpeed.value = r.expectedCpuSpeed.value) :
    Restored (r.received memory r.explorationList) r where
  uniqueId := rfl
  maxHops := rfl
  nodeId := Field.same_received ..
  operatingSystem := Field.same_received ..
  minCpuSpeed := Field.same_received ..
  expectedCpuSpeed := ⟨rfl, h⟩
  minMemorySize := Field.same_received ..
  expectedMemorySize := Field.same_received ..
  minNetworkBandwidth := Field.same_received ..
  expectedNetworkBandwidth := Field.same_received ..
  minDiskSpace := Field.same_received ..
  expectedDiskSpace := Field.same_received ..
  minPower := Field.same_received ..
  expectedPower := Field.same_received ..
  protocol := Field.same_received ..
  encoding := Field.same_received ..
  pki := rfl
  mainPki := rfl
  popappid := rfl
  endingSignal := rfl
  wb := rfl
  explorationList := rfl

/-- The strings of the one are strings of the other. -/
lemma Restored.short {r' r : Request} (h : Restored r' r) (hshort : r'.Short) : r.Short := by
  have hfield : ∀ f' f : Field Str, f'.Same f →
      f' ∈ [r'.nodeId, r'.operatingSystem, r'.protocol, r'.encoding] → f.isSet = true →
      f.value.length + 1 < 2 ^ 31 := by
    intro f' f hsame hf' hset
    rw [← hsame.value hset]
    exact hshort _ (Request.mem_strings_of_field hf' (hsame.isSet.trans hset))
  intro s hs
  simp only [Request.strings, List.mem_append, List.mem_map, List.mem_filter,
    List.mem_flatMap] at hs
  rcases hs with ((hs | ⟨f, ⟨hf, hset⟩, rfl⟩) | hs) | ⟨e, he, hs⟩
  · rw [← h.uniqueId, ← h.pki, ← h.mainPki, ← h.popappid] at hs
    exact hshort s (List.mem_append_left _ (List.mem_append_left _ (List.mem_append_left _ hs)))
  · simp only [List.mem_cons, List.not_mem_nil, or_false] at hf
    rcases hf with rfl | rfl | rfl | rfl
    · exact hfield _ _ h.nodeId (by simp) hset
    · exact hfield _ _ h.operatingSystem (by simp) hset
    · exact hfield _ _ h.protocol (by simp) hset
    · exact hfield _ _ h.encoding (by simp) hset
  · rw [← h.wb] at hs
    exact hshort s (Request.mem_strings_of_wb hs)
  · rw [← h.explorationList] at he
    exact hshort s (Request.mem_strings_of_entry he hs)

/-- `r` is packed into an empty buffer, which is then short enough for a message, and what is
unpacked from it into a new request is `r` again, with nothing left. -/
def Arrives (F : Format) (hd : Header) (r memory : Request) : Prop :=
  ∃ b r₁ r' b', r.serialize F (empty hd) = .ok r₁ b ∧ b.packeddata.length < 2 ^ 31 ∧
    (Request.new memory).unPack F b = .ok r' b' ∧ b'.unpackpos = b.packeddata.length ∧
    Restored r' r

section

variable {F : Format} (hF : F.Transports) {hd : Header} {r memory : Request}
include hF

lemma arrives_of (hr : Reachable r) (hnul : r.NulFree) (hsize : 20 + r.size < 2 ^ 31)
    (h : r.expectedCpuSpeed.isSet = true →
      memory.expectedCpuSpeed.value = r.expectedCpuSpeed.value) : Arrives F hd r memory := by
  have hwb := length_le_sum_stringSize r.wb.lstWb
  have hlewb := r.wb_le_sizeWith (r.explorationList.map entrySize).sum
  have hleel := r.le_sizeWith (r.explorationList.map entrySize).sum
  have hel := length_le_sum_entrySize r.explorationList
  rw [Request.size] at hsize
  have hcarries := carries_explorationList hF r.explorationList (by omega)
    (length_lt_of_sum_entrySize (by omega)) []
  have hback : r.explorationList.foldl (fun acc e => ExplorationList.addListNode acc e.1 e.2) [] =
      r.explorationList := hr.kept.unpack
  rw [map_cutEntry_eq_self fun e he =>
    ⟨hnul _ (Request.mem_strings_of_entry he List.mem_cons_self), fun s hs =>
      hnul _ (Request.mem_strings_of_entry he (List.mem_cons_of_mem _ hs))⟩, hback] at hcarries
  have hpacked := carries_pack hF (by omega) (.new memory) _ hcarries
  rw [hnul.receivedInto] at hpacked
  obtain ⟨b, b', hpack, hlen, hunpack, hpos⟩ := hpacked.of_empty hsize hd
  refine ⟨b, _, _, b', BufM.bind_ok hpack, by omega, hunpack, hpos, restored_received h⟩

/-- A request that arrives has had room for all of it. -/
lemma Arrives.room (hnul : r.NulFree) (h : Arrives F hd r memory) : 20 + r.size < 2 ^ 31 := by
  obtain ⟨b, r₁, r', b', hserialize, hlen, hunpack, -, hrestored⟩ := h
  obtain ⟨_, b₀, hpack, hb₀⟩ := BufM.bind_eq_ok.mp hserialize
  obtain ⟨-, rfl⟩ : _ ∧ b₀ = b := by simpa using hb₀
  have hempty : (empty hd).packeddata.length = 20 := rfl
  obtain ⟨hshort', -⟩ := returns_unPack hF memory _ _ _ hunpack
  have hshort := hrestored.short hshort'
  rcases le_or_gt (wrap (r.explorationList.length : ℤ)) 0 with hnone | hsome
  · -- No entries are packed: then there are none.
    have htakes := takes_pack hF hshort (k := 0) (by
      rw [packExplorationList, if_neg (not_lt.mpr hnone)]
      exact ((hF.takesInt1 _).bind Takes.pure (by decide)).mono (by decide))
    have hroom := htakes.room (by omega) hpack hlen
    have hwb := length_le_sum_stringSize r.wb.lstWb
    have hlewb := r.wb_le_sizeWith 0
    have hpacked := carries_pack hF (by omega) (.new memory) 0
      (carries_none hF hnone)
    rw [hnul.receivedInto] at hpacked
    obtain ⟨c, c', hpack', -, hunpack', -⟩ := hpacked.of_empty hroom hd
    rw [hpack] at hpack'
    cases hpack'
    rw [hunpack] at hunpack'
    cases hunpack'
    have hnil : r.explorationList = [] := hrestored.explorationList.symm
    rw [hempty] at hroom
    rwa [Request.size, hnil]
  · have htakes := takes_pack hF hshort (k := (r.explorationList.map entrySize).sum) (by
      rw [packExplorationList, if_pos hsome]
      exact (hF.takesInt1 _).bind (takes_entries hF
        fun e he s hs => hshort s (Request.mem_strings_of_entry he hs)) (by decide))
    have hroom := htakes.room (by omega) hpack hlen
    rwa [hempty] at hroom

/-- The speed that arrives is the one that was in memory. -/
lemma Arrives.speed (h : Arrives F hd r memory) (hset : r.expectedCpuSpeed.isSet = true) :
    memory.expectedCpuSpeed.value = r.expectedCpuSpeed.value := by
  obtain ⟨b, r₁, r', b', -, -, hunpack, -, hrestored⟩ := h
  obtain ⟨-, hspeed⟩ := returns_unPack hF memory _ _ _ hunpack
  exact hspeed.symm.trans (hrestored.expectedCpuSpeed.value hset)

end

/-- **Requests in messages.**  A request arrives in a new one as it was sent if and only if the
expected speed of the processor was not set, or is what the memory of the new request holds by
chance, and the message is not too long. -/
theorem request_arrives_iff (F : Format) (hF : Standard F) (hd : Header) (r : Request)
    (hr : Reachable r) (hnul : r.NulFree) (memory : Request) :
    Arrives F hd r memory ↔
      (r.expectedCpuSpeed.isSet = true →
        memory.expectedCpuSpeed.value = r.expectedCpuSpeed.value) ∧ 20 + r.size < 2 ^ 31 := by
  constructor
  · intro h
    exact ⟨h.speed hF.transports, h.room hF.transports hnul⟩
  · rintro ⟨hspeed, hsize⟩
    exact arrives_of hF.transports hr hnul hsize hspeed

/-- A place in memory that holds zeros. -/
def zeros : Request where
  uniqueId := []
  maxHops := 0
  wb := ⟨[]⟩
  popappid := []
  pki := []
  mainPki := []
  endingSignal := false
  nodeId := ⟨false, []⟩
  operatingSystem := ⟨false, []⟩
  minCpuSpeed := ⟨false, 0⟩
  expectedCpuSpeed := ⟨false, 0⟩
  minMemorySize := ⟨false, 0⟩
  expectedMemorySize := ⟨false, 0⟩
  minNetworkBandwidth := ⟨false, 0⟩
  expectedNetworkBandwidth := ⟨false, 0⟩
  minDiskSpace := ⟨false, 0⟩
  expectedDiskSpace := ⟨false, 0⟩
  expectedPower := ⟨false, 0⟩
  minPower := ⟨false, 0⟩
  protocol := ⟨false, []⟩
  encoding := ⟨false, []⟩
  explorationList := []

/-- A request for a processor of at least 2000 MHz, and one for a processor of 3000 MHz. -/
def atLeast : Request := (Request.new zeros).change (.setMinCpuSpeed 2000)
def exactly : Request := (Request.new zeros).change (.setExpectedCpuSpeed 3000)

lemma nulFree_change_new {c : Change} (h : ((Request.new zeros).change c).strings ⊆ [[]]) :
    ((Request.new zeros).change c).NulFree := by
  intro s hs
  rw [List.mem_singleton.mp (h hs)]
  exact List.not_mem_nil

theorem request_arrives_iff_atLeast : Arrives raw ⟨0, 0, 0, 0, 0⟩ atLeast zeros :=
  (request_arrives_iff raw .raw _ atLeast (.change (.new zeros) _)
    (nulFree_change_new (by decide)) zeros).mpr ⟨by decide, by decide⟩

/-- The speed of 3000 MHz arrives as whatever was in memory, here 0. -/
theorem expectedCpuSpeed_lost :
    ¬∀ r memory : Request, Reachable r → r.NulFree → Arrives raw ⟨0, 0, 0, 0, 0⟩ r memory := by
  intro h
  have harrives := h exactly zeros (.change (.new zeros) _) (nulFree_change_new (by decide))
  exact absurd (harrives.speed transports_raw rfl) (by decide)

end Serialize

end Discovery
