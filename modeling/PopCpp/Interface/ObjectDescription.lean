/-
# Object descriptions

A `pop_od` says where and how a parallel object is to be created.  It goes to the job manager
as an argument of a call: `Serialize` packs what the getters return and unpacks it into another
`pop_od`, partly through the setters.  Two of the seventeen attributes do not survive this.
The flag of `manual` is read and thrown away, since the assignment that should store it is
written the wrong way round; and `search` sets `searchSet`, whether the sender had it set or not.
-/
import PopCpp.Buffer.Serialize
import PopCpp.Lib.Binary32

namespace PopCpp.Od

open Buffer CInt Binary32

/-- The bytes of a `std::string`. -/
abbrev Str := List UInt8

/-- What `strcpy(h, h + k)` leaves in the array `h` where source and destination overlap, which C
does not define.  The library may copy from either end, and in words of any size. -/
abbrev Overlap := Str → ℕ → Str

/-- `-1.0f` -/
def minusOne : Bits := ofInt (-1)

/-- A `pop_od`, with the members that `Serialize` and the setters of those use. -/
structure PopOd where
  isLocalJob : Bool
  mflops : Bits
  minMflops : Bits
  ram : Bits
  minRam : Bits
  net : Bits
  minNet : Bits
  time : Bits
  isManual : Bool
  cwd : Str
  hostname : Str
  hostuser : Str
  hostcore : Str
  hostarch : Str
  batchSystem : Str
  jobcontact : Str
  codefile : Str
  platforms : Str
  /-- `proto`: a list of protocols separated by spaces. -/
  proto : Str
  /-- `encode`: a list of encodings separated by spaces. -/
  encode : Str
  keys : List Str
  values : List Str
  maxDepth : BitVec 32
  maxSize : BitVec 32
  waitTime : BitVec 32
  searchSet : Bool
deriving DecidableEq

namespace PopOd

/-! ### The setters -/

def power (od : PopOd) (require min : Bits) : PopOd :=
  if gt min require then { od with mflops := min, minMflops := require }
  else { od with mflops := require, minMflops := min }

def memory (od : PopOd) (require min : Bits) : PopOd :=
  if gt min require then { od with ram := min, minRam := require }
  else { od with ram := require, minRam := min }

def bandwidth (od : PopOd) (require min : Bits) : PopOd :=
  if gt min require then { od with net := min, minNet := require }
  else { od with net := require, minNet := min }

def walltime (od : PopOd) (t : Bits) : PopOd := { od with time := t }

def directory (od : PopOd) (str : Str) : PopOd := { od with cwd := str }

/-- `sameDirectory(a)`, with what `popc_getcwd` returns. -/
def sameDirectory (od : PopOd) (a : Bool) (getcwd : Option Str) : PopOd :=
  match a, getcwd with
  | true, some tmp => { od with cwd := tmp }
  | _, _ => od

def runLocal (od : PopOd) (isLocal : Bool) : PopOd := { od with isLocalJob := isLocal }

/-- `strchr(h, c)`: what is before the first `c`, and what comes after it. -/
def strchr (h : Str) (c : UInt8) : Option (Str × Str) :=
  if c ∈ h then some (h.takeWhile (· != c), (h.dropWhile (· != c)).tail) else none

/-- `strcpy(h, h + k)` within an array.  The copy, with its NUL, ends before the source begins,
or else overlaps it. -/
def strcpy (overlap : Overlap) (h : Str) (k : ℕ) : Str :=
  if (h.drop k).length < k then h.drop k else (overlap h k).takeWhile (· != 0)

/-- The part of `url` for `user@`: what is left of the text. -/
def urlUser (overlap : Overlap) (od : PopOd) (h : Str) : PopOd × Str :=
  match strchr h 64 with
  | some (user, _) => ({ od with hostuser := user }, strcpy overlap h (user.length + 1))
  | none => (od, h)

/-- The part of `url` for `{core}`: what stands before the brace. -/
def urlCore (od : PopOd) (h : Str) : PopOd × Str :=
  match strchr h 123 with
  | some (host, rest) =>
      match strchr rest 125 with
      | some (core, _) => ({ od with hostcore := core }, host)
      | none => (od, host)
  | none => (od, h)

/-- `url(str)`: the text is copied into an array of 256 characters first. -/
def url (overlap : Overlap) (od : PopOd) (str : Str) : Option PopOd :=
  let h := str.takeWhile (· != 0)
  if 256 ≤ h.length then none
  else
    let user := urlUser overlap od h
    let core := user.1.urlCore user.2
    let od' := { core.1 with hostname := core.2 }
    some (if core.2 = text "localhost" then od'.runLocal true else od')

/-- `url(h, arch)` -/
def urlArch (overlap : Overlap) (od : PopOd) (h arch : Str) : Option PopOd :=
  url overlap { od with hostarch := arch } h

def joburl (od : PopOd) (str : Str) : PopOd := { od with jobcontact := str }

def executable (od : PopOd) (str : Str) : PopOd := { od with codefile := str }

def protocol (od : PopOd) (myproto : Str) : PopOd := { od with proto := myproto }

def encoding (od : PopOd) (myencode : Str) : PopOd := { od with encode := myencode }

def manual (overlap : Overlap) (od : PopOd) (a : Bool) : Option PopOd :=
  (url overlap od (text "localhost")).map fun od' => { od' with isManual := a }

def search (od : PopOd) (maxdepth maxsize waittime : BitVec 32) : PopOd :=
  { od with searchSet := true, maxDepth := maxdepth, maxSize := maxsize, waitTime := waittime }

def setPlatforms (od : PopOd) (str : Str) : PopOd := { od with platforms := str }

def setValue (od : PopOd) (key val : Str) : PopOd :=
  { od with keys := od.keys ++ [key], values := od.values ++ [val] }

/-- `getValue(key, val)`: the value of the first entry with that key.  Where there is none a
null pointer is made into a string. -/
def getValue (od : PopOd) (key : Str) : Option Str := (od.keys.zip od.values).lookup key

/-- `pop_od()`, with `defaultLocalJob`, the variable `POPC_BATCH` and what `popc_getcwd`
returns. -/
def new (defaultLocalJob : Bool) (batch getcwd : Option Str) : PopOd :=
  let od : PopOd :=
    { isLocalJob := defaultLocalJob
      mflops := minusOne
      minMflops := minusOne
      ram := minusOne
      minRam := minusOne
      net := minusOne
      minNet := minusOne
      time := minusOne
      isManual := false
      cwd := []
      hostname := batch.getD []
      hostuser := []
      hostcore := []
      hostarch := []
      batchSystem := batch.getD []
      jobcontact := []
      codefile := []
      platforms := []
      proto := []
      encode := []
      keys := []
      values := []
      maxDepth := 100
      maxSize := 0
      waitTime := 0
      searchSet := false }
  od.sameDirectory true getcwd

end PopOd

/-- A call of a public setter, with what it does where C does not say it. -/
inductive Setting where
  | power (require min : Bits)
  | memory (require min : Bits)
  | bandwidth (require min : Bits)
  | walltime (t : Bits)
  | directory (str : Str)
  | sameDirectory (a : Bool) (getcwd : Option Str)
  | url (overlap : Overlap) (str : Str)
  | urlArch (overlap : Overlap) (h arch : Str)
  | joburl (str : Str)
  | executable (str : Str)
  | protocol (myproto : Str)
  | encoding (myencode : Str)
  | manual (overlap : Overlap) (a : Bool)
  | search (maxdepth maxsize waittime : BitVec 32)
  | setPlatforms (str : Str)
  | setValue (key val : Str)
  | runLocal (isLocal : Bool)

/-- What the setter leaves, unless it writes past the end of an array. -/
def PopOd.set (od : PopOd) : Setting → Option PopOd
  | .power require min => some (od.power require min)
  | .memory require min => some (od.memory require min)
  | .bandwidth require min => some (od.bandwidth require min)
  | .walltime t => some (od.walltime t)
  | .directory str => some (od.directory str)
  | .sameDirectory a getcwd => some (od.sameDirectory a getcwd)
  | .url overlap str => url overlap od str
  | .urlArch overlap h arch => urlArch overlap od h arch
  | .joburl str => some (od.joburl str)
  | .executable str => some (od.executable str)
  | .protocol myproto => some (od.protocol myproto)
  | .encoding myencode => some (od.encoding myencode)
  | .manual overlap a => manual overlap od a
  | .search maxdepth maxsize waittime => some (od.search maxdepth maxsize waittime)
  | .setPlatforms str => some (od.setPlatforms str)
  | .setValue key val => some (od.setValue key val)
  | .runLocal isLocal => some (od.runLocal isLocal)

/-- An object description that has been made and set up by a program. -/
inductive Reachable : PopOd → Prop
  | new (defaultLocalJob : Bool) (batch getcwd : Option Str) :
      Reachable (.new defaultLocalJob batch getcwd)
  | set {od od' : PopOd} (h : Reachable od) (s : Setting) (hs : od.set s = some od') :
      Reachable od'

/-! ### Serialize -/

section Serialize

variable (F : Format)

/-- The loop over the attributes.  `values[i]` is there for every key that is. -/
def packElements : List Str → List Str → BufM Unit
  | t1 :: keys, t2 :: values => do
      packString F t1
      packString F t2
      packElements keys values
  | [], _ => pure ()
  | _ :: _, [] => fun _ => .undefined

/-- The additional attributes: their number, and the loop. -/
def packAttributes (keys values : List Str) : BufM Unit := do
  let count := wrap keys.length
  packInt1 F count
  if count ≠ 0 then packElements F keys values else pure ()

/-- `Serialize(buf, true)` -/
def PopOd.pack (od : PopOd) : BufM Unit := do
  F.pack .float [od.mflops, od.minMflops]
  F.pack .float [od.ram, od.minRam]
  F.pack .float [od.net, od.minNet]
  packFloat1 F od.time
  packInt1 F od.isManual.toInt
  packString F od.cwd
  F.pack .int [od.maxDepth, od.maxSize, od.waitTime]
  packString F od.hostname
  packString F od.hostuser
  packString F od.hostcore
  packString F od.hostarch
  packString F od.batchSystem
  packString F od.jobcontact
  packString F od.codefile
  packString F od.platforms
  packString F od.proto
  packString F od.encode
  packAttributes F od.keys od.values

/-- The loop that unpacks the attributes. -/
def unPackElements : ℕ → PopOd → BufM PopOd
  | 0, od => pure od
  | count + 1, od => do
      let t1 ← unPackString F
      let t2 ← unPackString F
      unPackElements count (od.setValue t1 t2)

/-- The additional attributes: their number, and the loop. -/
def unPackAttributes (od : PopOd) : BufM PopOd := do
  let count ← unPackInt1 F
  unPackElements F (sizeT count) { od with keys := [], values := [] }

/-- `Serialize(buf, false)` -/
def PopOd.unPack (od : PopOd) : BufM PopOd := do
  let val ← F.unPack .float 2
  let od := od.power (val.getD 0 0) (val.getD 1 0)
  let val ← F.unPack .float 2
  let od := od.memory (val.getD 0 0) (val.getD 1 0)
  let val ← F.unPack .float 2
  let od := od.bandwidth (val.getD 0 0) (val.getD 1 0)
  let t ← unPackFloat1 F
  let od := od.walltime t
  -- `valInt[0] = isManual` overwrites what was read and leaves the member alone.
  let _ ← unPackInt1 F
  let t ← unPackString F
  let od := { od with cwd := t }
  let valSearch ← F.unPack .int 3
  let od := od.search (valSearch.getD 0 0) (valSearch.getD 1 0) (valSearch.getD 2 0)
  let t ← unPackString F
  let od := { od with hostname := t }
  let t ← unPackString F
  let od := { od with hostuser := t }
  let t ← unPackString F
  let od := { od with hostcore := t }
  let t ← unPackString F
  let od := { od with hostarch := t }
  let t ← unPackString F
  let od := { od with batchSystem := t }
  let t ← unPackString F
  let od := od.joburl t
  let t ← unPackString F
  let od := od.executable t
  let t ← unPackString F
  let od := od.setPlatforms t
  let t ← unPackString F
  let od := od.protocol t
  let t ← unPackString F
  let od := od.encoding t
  unPackAttributes F od

end Serialize

/-! ### What the setters keep -/

namespace PopOd

/-- The amounts are in order, and every key has its value. -/
structure Sound (od : PopOd) : Prop where
  power : gt od.minMflops od.mflops = false
  memory : gt od.minRam od.ram = false
  bandwidth : gt od.minNet od.net = false
  attributes : od.keys.length = od.values.length

/-- The strings that are packed. -/
def strings (od : PopOd) : List Str :=
  [od.cwd, od.hostname, od.hostuser, od.hostcore, od.hostarch, od.batchSystem, od.jobcontact,
    od.codefile, od.platforms, od.proto, od.encode] ++ (od.keys ++ od.values)

/-- The strings have no NUL. -/
def NulFree (od : PopOd) : Prop := ∀ s ∈ od.strings, 0 ∉ s

/-- The lengths of the strings are `int`s, with the NUL. -/
def Short (od : PopOd) : Prop := ∀ s ∈ od.strings, s.length + 1 < 2 ^ 31

lemma power_of_ordered {od : PopOd} {require min : Bits} (h : gt min require = false) :
    od.power require min = { od with mflops := require, minMflops := min } := by
  rw [power, h]
  rfl

lemma memory_of_ordered {od : PopOd} {require min : Bits} (h : gt min require = false) :
    od.memory require min = { od with ram := require, minRam := min } := by
  rw [memory, h]
  rfl

lemma bandwidth_of_ordered {od : PopOd} {require min : Bits} (h : gt min require = false) :
    od.bandwidth require min = { od with net := require, minNet := min } := by
  rw [bandwidth, h]
  rfl

@[simp] lemma isManual_power (od : PopOd) (require min : Bits) :
    (od.power require min).isManual = od.isManual := by
  rw [power]
  split <;> rfl

@[simp] lemma isManual_memory (od : PopOd) (require min : Bits) :
    (od.memory require min).isManual = od.isManual := by
  rw [memory]
  split <;> rfl

@[simp] lemma isManual_bandwidth (od : PopOd) (require min : Bits) :
    (od.bandwidth require min).isManual = od.isManual := by
  rw [bandwidth]
  split <;> rfl

/-- A setter of an amount leaves it in order: it swaps the two numbers if they are not. -/
lemma Sound.of_power {od : PopOd} (h : od.Sound) (require min : Bits) :
    (od.power require min).Sound := by
  cases hgt : gt min require with
  | false =>
      rw [power_of_ordered hgt]
      exact { h with power := hgt }
  | true =>
      rw [PopOd.power, hgt]
      exact { h with power := gt_eq_false_of_gt hgt }

lemma Sound.of_memory {od : PopOd} (h : od.Sound) (require min : Bits) :
    (od.memory require min).Sound := by
  cases hgt : gt min require with
  | false =>
      rw [memory_of_ordered hgt]
      exact { h with memory := hgt }
  | true =>
      rw [PopOd.memory, hgt]
      exact { h with memory := gt_eq_false_of_gt hgt }

lemma Sound.of_bandwidth {od : PopOd} (h : od.Sound) (require min : Bits) :
    (od.bandwidth require min).Sound := by
  cases hgt : gt min require with
  | false =>
      rw [bandwidth_of_ordered hgt]
      exact { h with bandwidth := hgt }
  | true =>
      rw [PopOd.bandwidth, hgt]
      exact { h with bandwidth := gt_eq_false_of_gt hgt }

lemma Sound.sameDirectory {od : PopOd} (h : od.Sound) (a : Bool) (getcwd : Option Str) :
    (od.sameDirectory a getcwd).Sound := by
  cases a <;> cases getcwd <;> exact { h with }

/-- `url` touches the parts of the address only. -/
lemma Sound.url {overlap : Overlap} {od od' : PopOd} (h : od.Sound) {str : Str}
    (hs : PopOd.url overlap od str = some od') : od'.Sound := by
  have huser : ∀ g, (urlUser overlap od g).1.Sound := fun g => by
    rw [urlUser]
    split <;> exact { h with }
  have hcore : ∀ (o : PopOd) (g : Str), o.Sound → (o.urlCore g).1.Sound := fun o g ho => by
    rw [urlCore]
    split
    · split <;> exact { ho with }
    · exact ho
  simp only [PopOd.url] at hs
  split at hs
  · exact absurd hs (by simp)
  · have hparts := hcore _ (urlUser overlap od (str.takeWhile (· != 0))).2
      (huser (str.takeWhile (· != 0)))
    cases hs
    split <;> exact { hparts with }

lemma Sound.set {od od' : PopOd} (h : od.Sound) {s : Setting} (hs : od.set s = some od') :
    od'.Sound := by
  cases s with
  | power require min =>
      cases hs
      exact h.of_power require min
  | memory require min =>
      cases hs
      exact h.of_memory require min
  | bandwidth require min =>
      cases hs
      exact h.of_bandwidth require min
  | sameDirectory a getcwd =>
      cases hs
      exact h.sameDirectory a getcwd
  | url overlap str => exact h.url hs
  | urlArch overlap str arch =>
      have harch : { od with hostarch := arch }.Sound := { h with }
      exact harch.url hs
  | manual overlap a =>
      obtain ⟨od₁, hurl, rfl⟩ := Option.map_eq_some_iff.mp hs
      exact { h.url hurl with }
  | setValue key val =>
      cases hs
      refine { h with attributes := ?_ }
      simp only [PopOd.setValue, List.length_append, h.attributes]
      rfl
  | _ =>
      cases hs
      exact { h with }

end PopOd

/-- **The setters keep an object description in order.** -/
theorem Reachable.sound {od : PopOd} (h : Reachable od) : od.Sound := by
  induction h with
  | new defaultLocalJob batch getcwd =>
      refine PopOd.Sound.sameDirectory ?_ true getcwd
      exact ⟨gt_self _, gt_self _, gt_self _, rfl⟩
  | set _ s hs ih => exact ih.set hs

/-! ### What arrives -/

/-- How many bytes attributes take. -/
def attributesSize (keys values : List Str) : ℕ :=
  (keys.map stringSize).sum + (values.map stringSize).sum

namespace PopOd

/-- How many bytes an object description takes when its attributes take `k`, member by
member. -/
def sizeWith (od : PopOd) (k : ℕ) : ℕ :=
  8 + (8 + (8 + (4 + (4 + (stringSize od.cwd + (12 + (stringSize od.hostname +
    (stringSize od.hostuser + (stringSize od.hostcore + (stringSize od.hostarch +
    (stringSize od.batchSystem + (stringSize od.jobcontact + (stringSize od.codefile +
    (stringSize od.platforms + (stringSize od.proto + (stringSize od.encode +
    (4 + k)))))))))))))))))

lemma le_sizeWith (od : PopOd) (k : ℕ) : k ≤ od.sizeWith k := by
  unfold sizeWith
  repeat refine Nat.le_trans ?_ (Nat.le_add_left _ _)
  exact Nat.le_refl k

/-- How many bytes an object description takes. -/
def size (od : PopOd) : ℕ := od.sizeWith (attributesSize od.keys od.values)

/-- The object description without its attributes. -/
def bare (od : PopOd) : PopOd := { od with keys := [], values := [] }

/-- The object description that `od` becomes when it is unpacked into `target`. -/
def received (od target : PopOd) : PopOd :=
  { od with
    isLocalJob := target.isLocalJob
    isManual := target.isManual
    searchSet := true }

end PopOd

section Transport

variable {F : Format} (hF : F.Transports)
include hF

lemma carries_attributes {keys values : List Str} (hlen : keys.length = values.length)
    (hkeys : ∀ s ∈ keys, 0 ∉ s) (hvalues : ∀ s ∈ values, 0 ∉ s) (od : PopOd) :
    Carries (packElements F keys values) (unPackElements F keys.length od)
      (attributesSize keys values)
      { od with keys := od.keys ++ keys, values := od.values ++ values } := by
  induction keys generalizing values od with
  | nil =>
      obtain rfl : values = [] := List.eq_nil_of_length_eq_zero hlen.symm
      simp only [List.append_nil]
      exact Carries.pure od
  | cons t1 keys ih =>
      cases values with
      | nil => exact absurd hlen (by simp)
      | cons t2 values =>
          rw [List.forall_mem_cons] at hkeys hvalues
          have hrest := ih (by simpa using hlen) hkeys.2 hvalues.2 (od.setValue t1 t2)
          have h := (hF.string hkeys.1).bind (f := fun s1 => do
            let s2 ← unPackString F
            unPackElements F keys.length (od.setValue s1 s2)) ((hF.string hvalues.1).bind hrest)
          simp only [PopOd.setValue, List.append_assoc, List.singleton_append] at h
          have hsize : stringSize t1 + (stringSize t2 + attributesSize keys values) =
              attributesSize (t1 :: keys) (t2 :: values) := by
            simp only [attributesSize, List.map_cons, List.sum_cons]
            omega
          rw [hsize] at h
          exact h

/-- The count and the loop. -/
lemma carries_count {keys values : List Str} (hlen : keys.length = values.length)
    (hkeys : ∀ s ∈ keys, 0 ∉ s) (hvalues : ∀ s ∈ values, 0 ∉ s) (hint : keys.length < 2 ^ 31)
    (od : PopOd) :
    Carries (if wrap keys.length ≠ 0 then packElements F keys values else pure ())
      (unPackElements F (sizeT (wrap keys.length)) od) (attributesSize keys values)
      { od with keys := od.keys ++ keys, values := od.values ++ values } := by
  have hwrap : wrap (keys.length : ℤ) = keys.length := wrap_natCast (by omega)
  have hloop : (if wrap (keys.length : ℤ) ≠ 0 then packElements F keys values else pure ()) =
      packElements F keys values := by
    rw [hwrap]
    split
    · rfl
    · next h0 =>
        obtain rfl : keys = [] := List.eq_nil_of_length_eq_zero (by omega)
        rfl
  rw [hloop, hwrap, sizeT_natCast (by omega)]
  exact carries_attributes hF hlen hkeys hvalues od

/-- What is packed arrives, but for the flag of `manual` and that of `search`. -/
theorem carries_pack {od : PopOd} (hod : od.Sound) (hnul : od.NulFree)
    (hkeys : od.keys.length < 2 ^ 31) (target : PopOd) :
    Carries (od.pack F) (target.unPack F) od.size (od.received target) := by
  have hstr : ∀ s ∈ od.strings, Carries (packString F s) (unPackString F) (stringSize s) s :=
    fun s hs => hF.string (hnul s hs)
  have hmem : ∀ s ∈ od.keys ++ od.values, s ∈ od.strings := fun s hs =>
    List.mem_append_right _ hs
  have hod' : (((target.power od.mflops od.minMflops).memory od.ram od.minRam).bandwidth od.net
      od.minNet) = { target with
        mflops := od.mflops, minMflops := od.minMflops, ram := od.ram, minRam := od.minRam,
        net := od.net, minNet := od.minNet } := by
    rw [PopOd.power_of_ordered hod.power, PopOd.memory_of_ordered hod.memory,
      PopOd.bandwidth_of_ordered hod.bandwidth]
  refine (hF.float2 _ _).bind ((hF.float2 _ _).bind ((hF.float2 _ _).bind ?_))
  simp only [List.getD_cons_zero, List.getD_cons_succ, hod']
  refine (hF.float1 _).bind ((hF.int1 (by cases od.isManual <;> simp [Fits])).bind ?_)
  dsimp only [PopOd.walltime]
  refine (hstr od.cwd (by simp [PopOd.strings])).bind ?_
  refine (hF.int3 _ _ _).bind ?_
  simp only [List.getD_cons_zero, List.getD_cons_succ, PopOd.search]
  refine (hstr od.hostname (by simp [PopOd.strings])).bind ?_
  refine (hstr od.hostuser (by simp [PopOd.strings])).bind ?_
  refine (hstr od.hostcore (by simp [PopOd.strings])).bind ?_
  refine (hstr od.hostarch (by simp [PopOd.strings])).bind ?_
  refine (hstr od.batchSystem (by simp [PopOd.strings])).bind ?_
  refine (hstr od.jobcontact (by simp [PopOd.strings])).bind ?_
  refine (hstr od.codefile (by simp [PopOd.strings])).bind ?_
  refine (hstr od.platforms (by simp [PopOd.strings])).bind ?_
  refine (hstr od.proto (by simp [PopOd.strings])).bind ?_
  refine (hstr od.encode (by simp [PopOd.strings])).bind ?_
  refine (hF.int1 (fits_wrap _)).bind ?_
  dsimp only [PopOd.joburl, PopOd.executable, PopOd.setPlatforms, PopOd.protocol, PopOd.encoding]
  exact carries_count hF hod.attributes (fun s hs => hnul s (hmem s (List.mem_append_left _ hs)))
    (fun s hs => hnul s (hmem s (List.mem_append_right _ hs))) hkeys _

/-! ### What an object description needs to arrive -/

lemma returns_attributes {count : ℕ} {od : PopOd} (hod : od.Short) :
    Returns (unPackElements F count od) fun od' =>
      od'.Short ∧ od'.searchSet = od.searchSet ∧ od'.isManual = od.isManual := by
  induction count generalizing od with
  | zero => exact Returns.pure ⟨hod, rfl, rfl⟩
  | succ count ih =>
      refine hF.returnsString.bind fun t1 ht1 => hF.returnsString.bind fun t2 ht2 => ?_
      have hset : (od.setValue t1 t2).Short := by
        intro s hs
        simp only [PopOd.strings, PopOd.setValue, List.mem_append, List.mem_singleton] at hs
        rcases hs with hs | (hs | rfl) | hs | rfl
        · exact hod s (List.mem_append_left _ hs)
        · exact hod s (List.mem_append_right _ (List.mem_append_left _ hs))
        · exact ht1
        · exact hod s (List.mem_append_right _ (List.mem_append_right _ hs))
        · exact ht2
      exact ih hset

/-- Whatever is unpacked has short strings, says that `search` is set, and leaves the flag of
`manual` alone. -/
lemma returns_unPack (target : PopOd) :
    Returns (target.unPack F) fun od' =>
      od'.Short ∧ od'.searchSet = true ∧ od'.isManual = target.isManual := by
  refine (Returns.trivial _).bind fun power _ => (Returns.trivial _).bind fun memory _ =>
    (Returns.trivial _).bind fun bandwidth _ => (Returns.trivial _).bind fun t _ =>
    (Returns.trivial _).bind fun _ _ => ?_
  have hmanual : (((target.power (power.getD 0 0) (power.getD 1 0)).memory (memory.getD 0 0)
      (memory.getD 1 0)).bandwidth (bandwidth.getD 0 0) (bandwidth.getD 1 0)).isManual =
      target.isManual := by
    simp
  generalize ((target.power (power.getD 0 0) (power.getD 1 0)).memory (memory.getD 0 0)
    (memory.getD 1 0)).bandwidth (bandwidth.getD 0 0) (bandwidth.getD 1 0) = od at hmanual ⊢
  dsimp only [PopOd.walltime]
  refine hF.returnsString.bind fun cwd hcwd => (Returns.trivial _).bind fun valSearch _ => ?_
  dsimp only [PopOd.search]
  refine hF.returnsString.bind fun hostname hhostname => hF.returnsString.bind fun hostuser
    hhostuser => hF.returnsString.bind fun hostcore hhostcore => hF.returnsString.bind fun hostarch
    hhostarch => hF.returnsString.bind fun batchSystem hbatch => ?_
  refine hF.returnsString.bind fun jobcontact hjob => hF.returnsString.bind fun codefile hcode =>
    hF.returnsString.bind fun platforms hplatforms => hF.returnsString.bind fun proto hproto =>
    hF.returnsString.bind fun encode hencode => (Returns.trivial _).bind fun count _ => ?_
  dsimp only [PopOd.joburl, PopOd.executable, PopOd.setPlatforms, PopOd.protocol, PopOd.encoding]
  refine (returns_attributes hF ?_).imp fun od' h => ⟨h.1, h.2.1, h.2.2.trans hmanual⟩
  intro s hs
  simp only [PopOd.strings, List.append_nil, List.mem_cons, List.not_mem_nil, or_false] at hs
  rcases hs with rfl | rfl | rfl | rfl | rfl | rfl | rfl | rfl | rfl | rfl | rfl <;> assumption

lemma takes_attributes {keys values : List Str} (hlen : keys.length = values.length)
    (hkeys : ∀ s ∈ keys, s.length + 1 < 2 ^ 31) (hvalues : ∀ s ∈ values, s.length + 1 < 2 ^ 31) :
    Takes (packElements F keys values) (attributesSize keys values) 5 := by
  induction keys generalizing values with
  | nil =>
      obtain rfl : values = [] := List.eq_nil_of_length_eq_zero hlen.symm
      exact Takes.pure.mono (Nat.zero_le 5)
  | cons t1 keys ih =>
      cases values with
      | nil => exact absurd hlen (by simp)
      | cons t2 values =>
          rw [List.forall_mem_cons] at hkeys hvalues
          have hrest := ih (by simpa using hlen) hkeys.2 hvalues.2
          have hsize : attributesSize (t1 :: keys) (t2 :: values) =
              stringSize t1 + (stringSize t2 + attributesSize keys values) := by
            simp only [attributesSize, List.map_cons, List.sum_cons]
            omega
          rw [hsize]
          exact (hF.fillsString hkeys.1).bind
            ((hF.fillsString hvalues.1).bind hrest (Nat.le_refl 5)) (Nat.le_refl 5)

/-- How much room a packed object description has taken; `k` is what the loop over the
attributes takes. -/
lemma takes_pack {od : PopOd} (hshort : od.Short) {k : ℕ}
    (hloop : Takes (if wrap od.keys.length ≠ 0 then packElements F od.keys od.values
      else pure ()) k 5) :
    Takes (od.pack F) (od.sizeWith k) 28 := by
  have hstr : ∀ s ∈ od.strings, Fills (packString F s) (stringSize s) :=
    fun s hs => hF.fillsString (hshort s hs)
  have hcount : Takes _ _ (5 + 5) := (hF.takesInt1 (wrap od.keys.length)).bind hloop (by decide)
  have h5 : 5 ≤ 10 := by decide
  have hnames := (hstr od.hostname (by simp [PopOd.strings])).bind
    ((hstr od.hostuser (by simp [PopOd.strings])).bind
    ((hstr od.hostcore (by simp [PopOd.strings])).bind
    ((hstr od.hostarch (by simp [PopOd.strings])).bind
    ((hstr od.batchSystem (by simp [PopOd.strings])).bind
    ((hstr od.jobcontact (by simp [PopOd.strings])).bind
    ((hstr od.codefile (by simp [PopOd.strings])).bind
    ((hstr od.platforms (by simp [PopOd.strings])).bind
    ((hstr od.proto (by simp [PopOd.strings])).bind
    ((hstr od.encode (by simp [PopOd.strings])).bind hcount h5) h5) h5) h5) h5) h5) h5) h5) h5) h5
  have hsearch : Takes _ _ (13 + (5 + 5)) :=
    (hF.takesInt3 od.maxDepth od.maxSize od.waitTime).bind hnames (by decide)
  have hcwd := (hstr od.cwd (by simp [PopOd.strings])).bind hsearch (by decide)
  have hmanual : Takes _ _ (5 + (13 + (5 + 5))) :=
    (hF.takesInt1 od.isManual.toInt).bind hcwd (by decide)
  exact (hF.fillsFloat2 od.mflops od.minMflops).bind ((hF.fillsFloat2 od.ram od.minRam).bind
    ((hF.fillsFloat2 od.net od.minNet).bind ((hF.fillsFloat1 od.time).bind hmanual (by decide))
    (by decide)) (by decide)) (by decide)

end Transport

/-! ### The round trip -/

/-- The two object descriptions agree on every getter of a packed attribute. -/
structure Agrees (a b : PopOd) : Prop where
  getPower : a.mflops = b.mflops ∧ a.minMflops = b.minMflops
  getMemory : a.ram = b.ram ∧ a.minRam = b.minRam
  getBandwidth : a.net = b.net ∧ a.minNet = b.minNet
  getWallTime : a.time = b.time
  getIsManual : a.isManual = b.isManual
  getCwd : a.cwd = b.cwd
  getSearch : a.maxDepth = b.maxDepth ∧ a.maxSize = b.maxSize ∧ a.waitTime = b.waitTime
  isSearchSet : a.searchSet = b.searchSet
  getURL : a.hostname = b.hostname
  getUser : a.hostuser = b.hostuser
  getCore : a.hostcore = b.hostcore
  getArch : a.hostarch = b.hostarch
  getBatch : a.batchSystem = b.batchSystem
  getJobURL : a.jobcontact = b.jobcontact
  getExecutable : a.codefile = b.codefile
  getPlatforms : a.platforms = b.platforms
  getProtocol : a.proto = b.proto
  getEncoding : a.encode = b.encode
  attributes : a.keys = b.keys ∧ a.values = b.values

/-- The values of all keys are the same. -/
lemma Agrees.getValue {a b : PopOd} (h : Agrees a b) (key : Str) :
    a.getValue key = b.getValue key := by
  rw [PopOd.getValue, PopOd.getValue, h.attributes.1, h.attributes.2]

lemma Agrees.strings {a b : PopOd} (h : Agrees a b) : a.strings = b.strings := by
  simp only [PopOd.strings, h.getCwd, h.getURL, h.getUser, h.getCore, h.getArch, h.getBatch,
    h.getJobURL, h.getExecutable, h.getPlatforms, h.getProtocol, h.getEncoding, h.attributes]

lemma agrees_received {od target : PopOd} (hsearch : od.searchSet = true)
    (hmanual : target.isManual = od.isManual) : Agrees (od.received target) od where
  getPower := ⟨rfl, rfl⟩
  getMemory := ⟨rfl, rfl⟩
  getBandwidth := ⟨rfl, rfl⟩
  getWallTime := rfl
  getIsManual := hmanual
  getCwd := rfl
  getSearch := ⟨rfl, rfl, rfl⟩
  isSearchSet := hsearch.symm
  getURL := rfl
  getUser := rfl
  getCore := rfl
  getArch := rfl
  getBatch := rfl
  getJobURL := rfl
  getExecutable := rfl
  getPlatforms := rfl
  getProtocol := rfl
  getEncoding := rfl
  attributes := ⟨rfl, rfl⟩

/-- `od` is packed into an empty buffer, which is then short enough for a message, and what is
unpacked from it into `target` agrees with `od`. -/
def Arrives (F : Format) (hd : Header) (od target : PopOd) : Prop :=
  ∃ b od' b', od.pack F (empty hd) = .ok () b ∧ b.packeddata.length < 2 ^ 31 ∧
    target.unPack F b = .ok od' b' ∧ Agrees od' od

section

variable {F : Format} (hF : F.Transports) {hd : Header} {od target : PopOd}
include hF

/-- What is packed into an empty buffer is unpacked from it. -/
lemma unPack_of_pack (od : PopOd) (hod : od.Sound) (hnul : od.NulFree)
    (hsize : 20 + od.size < 2 ^ 31) (hd : Header) (target : PopOd) :
    ∃ b b', od.pack F (empty hd) = .ok () b ∧ b.packeddata.length = 20 + od.size ∧
      target.unPack F b = .ok (od.received target) b' ∧ b'.unpackpos = b.packeddata.length := by
  have hkeys := length_le_sum_stringSize od.keys
  have hle : attributesSize od.keys od.values ≤ od.size := od.le_sizeWith _
  rw [attributesSize] at hle
  have hint : od.keys.length < 2 ^ 31 := by omega
  exact (carries_pack hF hod hnul hint target).of_empty hsize hd

lemma arrives_of (hod : od.Sound) (hnul : od.NulFree) (hsize : 20 + od.size < 2 ^ 31)
    (hsearch : od.searchSet = true) (hmanual : target.isManual = od.isManual) :
    Arrives F hd od target := by
  obtain ⟨b, b', hpack, hlen, hunpack, -⟩ := unPack_of_pack hF od hod hnul hsize hd target
  exact ⟨b, _, b', hpack, by omega, hunpack, agrees_received hsearch hmanual⟩

/-- A message that comes back has had room for all of the object description. -/
lemma Arrives.room (hod : od.Sound) (hnul : od.NulFree) (h : Arrives F hd od target) :
    20 + od.size < 2 ^ 31 := by
  obtain ⟨b, od', b', hpack, hlen, hunpack, hagrees⟩ := h
  have hempty : (empty hd).packeddata.length = 20 := rfl
  obtain ⟨hshort', -, -⟩ := returns_unPack hF target _ _ _ hunpack
  have hshort : od.Short := by
    rw [PopOd.Short, ← hagrees.strings]
    exact hshort'
  by_cases hcount : wrap (od.keys.length : ℤ) = 0
  · -- No attributes are packed: then there are none.
    have hloop := takes_pack hF hshort (k := 0) (by
      rw [if_neg (by simpa using hcount)]
      exact Takes.pure.mono (Nat.zero_le 5))
    have hroom := hloop.room (by omega) hpack hlen
    have hnil : wrap ((([] : List Str).length : ℕ) : ℤ) = 0 := by decide
    have hloop : packAttributes F [] [] = packAttributes F od.keys od.values := by
      simp only [packAttributes, hcount, hnil, ne_eq, not_true_eq_false, if_false]
    have hbare : od.bare.pack F = od.pack F := by
      simp only [PopOd.pack, PopOd.bare, hloop]
    have hnul' : od.bare.NulFree := fun s hs => by
      rw [PopOd.strings, PopOd.bare, List.append_nil, List.append_nil] at hs
      exact hnul s (List.mem_append_left _ hs)
    obtain ⟨c, c', hpack', -, hunpack', -⟩ := unPack_of_pack hF od.bare
      { hod with attributes := rfl } hnul' hroom hd target
    rw [hbare, hpack] at hpack'
    cases hpack'
    rw [hunpack] at hunpack'
    cases hunpack'
    have hkeys : od.keys = [] := hagrees.attributes.1.symm
    have hvalues : od.values = [] := hagrees.attributes.2.symm
    rw [hempty] at hroom
    rwa [PopOd.size, hkeys, hvalues]
  · -- The loop runs over all attributes.
    have hmem : ∀ s ∈ od.keys ++ od.values, s.length + 1 < 2 ^ 31 := fun s hs =>
      hshort s (List.mem_append_right _ hs)
    have hloop := takes_pack hF hshort (k := attributesSize od.keys od.values) (by
      rw [if_pos hcount]
      exact takes_attributes hF hod.attributes (fun s hs => hmem s (List.mem_append_left _ hs))
        fun s hs => hmem s (List.mem_append_right _ hs))
    have hroom := hloop.room (by omega) hpack hlen
    rwa [hempty] at hroom

/-- The flag of `search` always arrives as set, and that of `manual` never arrives. -/
lemma Arrives.flags (h : Arrives F hd od target) :
    od.searchSet = true ∧ target.isManual = od.isManual := by
  obtain ⟨b, od', b', -, -, hunpack, hagrees⟩ := h
  obtain ⟨-, hsearch, hmanual⟩ := returns_unPack hF target _ _ _ hunpack
  exact ⟨hagrees.isSearchSet.symm.trans hsearch, hmanual.symm.trans hagrees.getIsManual⟩

end

/-- **Object descriptions in messages.**  An object description arrives in another one as it
was sent if and only if `search` had been set in it, the receiver's flag of `manual` happens to
be the same, and the message is not too long. -/
theorem arrives_iff (F : Format) (hF : Standard F) (hd : Header) (od : PopOd)
    (hod : Reachable od) (hnul : od.NulFree) (target : PopOd) :
    Arrives F hd od target ↔
      od.searchSet = true ∧ target.isManual = od.isManual ∧ 20 + od.size < 2 ^ 31 := by
  constructor
  · intro h
    obtain ⟨hsearch, hmanual⟩ := h.flags hF.transports
    exact ⟨hsearch, hmanual, h.room hF.transports hod.sound hnul⟩
  · rintro ⟨hsearch, hmanual, hsize⟩
    exact arrives_of hF.transports hod.sound hnul hsize hsearch hmanual

/-- A description as its constructor makes it, where neither `POPC_BATCH` nor a working
directory is known. -/
def plainOd : PopOd := .new false none none

/-- The description of an object that is to be searched for. -/
def searchedOd : PopOd := plainOd.search 3 0 5

lemma reachable_plainOd : Reachable plainOd := .new false none none

lemma reachable_searchedOd : Reachable searchedOd :=
  reachable_plainOd.set (.search 3 0 5) rfl

lemma nulFree_plainOd : plainOd.NulFree := by
  intro s hs
  simp only [PopOd.strings, plainOd, PopOd.new, PopOd.sameDirectory, Option.getD_none,
    List.append_nil, List.mem_cons, List.not_mem_nil, or_false, or_self] at hs
  rw [hs]
  exact List.not_mem_nil

lemma nulFree_searchedOd : searchedOd.NulFree := nulFree_plainOd

theorem arrives_iff_searchedOd : Arrives raw ⟨0, 0, 0, 0, 0⟩ searchedOd plainOd :=
  (arrives_iff raw .raw _ searchedOd reachable_searchedOd nulFree_searchedOd plainOd).mpr
    ⟨rfl, rfl, by decide⟩

/-- A description in which `search` was not called arrives as one in which it was. -/
theorem search_not_arrives :
    ¬∀ (od target : PopOd), Reachable od → od.NulFree → Reachable target →
      Arrives raw ⟨0, 0, 0, 0, 0⟩ od target := by
  intro h
  have hplain := h plainOd plainOd reachable_plainOd nulFree_plainOd reachable_plainOd
  exact absurd (hplain.flags transports_raw).1 (by decide)

/-- After `manual(true)` a description arrives as one that is not manual. -/
theorem manual_not_arrives (overlap : Overlap) :
    ∃ od, PopOd.manual overlap searchedOd true = some od ∧
      ¬Arrives raw ⟨0, 0, 0, 0, 0⟩ od plainOd := by
  have hlen := (List.takeWhile_prefix (· != 0) (l := text "localhost")).length_le
  have htext : (text "localhost").length = 9 := length_text _
  obtain ⟨od, hurl⟩ : ∃ od, PopOd.url overlap searchedOd (text "localhost") = some od := by
    rw [PopOd.url, if_neg (by omega)]
    exact ⟨_, rfl⟩
  refine ⟨{ od with isManual := true }, by rw [PopOd.manual, hurl, Option.map_some], fun h => ?_⟩
  exact absurd (h.flags transports_raw).2 Bool.false_ne_true

end PopCpp.Od
