/-
# Assignment of object descriptions

`SetOD` of an interface assigns one `pop_od` to another.  The assignment goes through the getters
of some members, and `Serialize` packs others as well: the flag of `manual`, the directory, the
three numbers of `search`, the user, the core, the architecture, the batch system, the platforms
and the additional attributes stay as they were in the target.  So what is packed of the copy is
what is packed of the original exactly if the target had the same values there
(`assign_image_iff`).
-/
import PopCpp.Interface.ObjectDescription

namespace PopCpp.Od

open Buffer CInt Binary32

/-- `pop_od::operator=` -/
def PopOd.assign (a od : PopOd) : PopOd :=
  { a with
    mflops := od.mflops
    minMflops := od.minMflops
    ram := od.ram
    minRam := od.minRam
    net := od.net
    minNet := od.minNet
    time := od.time
    hostname := od.hostname
    jobcontact := od.jobcontact
    codefile := od.codefile
    proto := od.proto
    encode := od.encode }.runLocal od.isLocalJob

/-- The two object descriptions agree on what is packed and not assigned. -/
structure SameRest (a b : PopOd) : Prop where
  isManual : a.isManual = b.isManual
  cwd : a.cwd = b.cwd
  search : a.maxDepth = b.maxDepth ∧ a.maxSize = b.maxSize ∧ a.waitTime = b.waitTime
  hostuser : a.hostuser = b.hostuser
  hostcore : a.hostcore = b.hostcore
  hostarch : a.hostarch = b.hostarch
  batchSystem : a.batchSystem = b.batchSystem
  platforms : a.platforms = b.platforms
  attributes : a.keys = b.keys ∧ a.values = b.values

/-- Every key has its value, and the lengths are `int`s. -/
structure Lengths (od : PopOd) : Prop where
  attributes : od.keys.length = od.values.length
  count : od.keys.length < 2 ^ 31
  strings : od.Short

/-! ### The image -/

section

variable (F : Format)

/-- A string with its NULs, as it was packed. -/
def readString : BufM Str := do
  let len ← unPackInt1 F
  let chars ← F.unPack .char len
  pure chars.dropLast

/-- The keys and the values. -/
def readElements : ℕ → BufM (List Str × List Str)
  | 0 => pure ([], [])
  | count + 1 => do
      let key ← readString F
      let value ← readString F
      let rest ← readElements count
      pure (key :: rest.1, value :: rest.2)

/-- Everything that `Serialize` packs, read from the bytes. -/
def readImage : BufM PopOd := do
  let power ← F.unPack .float 2
  let memory ← F.unPack .float 2
  let bandwidth ← F.unPack .float 2
  let time ← unPackFloat1 F
  let isManual ← unPackInt1 F
  let cwd ← readString F
  let search ← F.unPack .int 3
  let hostname ← readString F
  let hostuser ← readString F
  let hostcore ← readString F
  let hostarch ← readString F
  let batchSystem ← readString F
  let jobcontact ← readString F
  let codefile ← readString F
  let platforms ← readString F
  let proto ← readString F
  let encode ← readString F
  let count ← unPackInt1 F
  let attributes ← readElements F (sizeT count)
  pure
    { isLocalJob := false
      mflops := power.getD 0 0
      minMflops := power.getD 1 0
      ram := memory.getD 0 0
      minRam := memory.getD 1 0
      net := bandwidth.getD 0 0
      minNet := bandwidth.getD 1 0
      time := time
      isManual := isManual = 1
      cwd := cwd
      hostname := hostname
      hostuser := hostuser
      hostcore := hostcore
      hostarch := hostarch
      batchSystem := batchSystem
      jobcontact := jobcontact
      codefile := codefile
      platforms := platforms
      proto := proto
      encode := encode
      keys := attributes.1
      values := attributes.2
      maxDepth := search.getD 0 0
      maxSize := search.getD 1 0
      waitTime := search.getD 2 0
      searchSet := false }

end

/-- What of an object description is packed. -/
def PopOd.image (od : PopOd) : PopOd := { od with isLocalJob := false, searchSet := false }

section

variable {F : Format} (hF : F.Transports)
include hF

lemma carries_readString (s : Str) :
    Carries (packString F s) (readString F) (stringSize s) s := by
  refine codes_chars hF.codesStrings s fun hread => ?_
  have hback := hread.map List.dropLast
  rwa [List.dropLast_concat] at hback

lemma carries_readElements {keys values : List Str} (hlen : keys.length = values.length) :
    Carries (packElements F keys values) (readElements F keys.length)
      (attributesSize keys values) (keys, values) := by
  induction keys generalizing values with
  | nil =>
      obtain rfl : values = [] := List.eq_nil_of_length_eq_zero hlen.symm
      exact Carries.pure ([], [])
  | cons key keys ih =>
      cases values with
      | nil => exact absurd hlen (by simp)
      | cons value values =>
          have hrest := (ih (by simpa using hlen)).map fun rest =>
            (key :: rest.1, value :: rest.2)
          have h := (carries_readString hF key).bind (f := fun key' => do
            let value' ← readString F
            let rest ← readElements F keys.length
            pure (key' :: rest.1, value' :: rest.2)) ((carries_readString hF value).bind hrest)
          have hsize : stringSize key + (stringSize value + attributesSize keys values) =
              attributesSize (key :: keys) (value :: values) := by
            simp only [attributesSize, List.map_cons, List.sum_cons]
            omega
          rw [hsize] at h
          exact h

lemma carries_readImage {od : PopOd} (hlen : od.keys.length = od.values.length)
    (hcount : od.keys.length < 2 ^ 31) :
    Carries (od.pack F) (readImage F) od.size od.image := by
  have hwrap : wrap (od.keys.length : ℤ) = od.keys.length := wrap_natCast (by omega)
  have hloop : (if wrap (od.keys.length : ℤ) ≠ 0 then packElements F od.keys od.values
      else pure ()) = packElements F od.keys od.values := by
    rw [hwrap]
    split
    · rfl
    · next h0 =>
        have hnil : od.keys = [] := List.eq_nil_of_length_eq_zero (by omega)
        rw [hnil]
        rfl
  have hmanual : decide (od.isManual.toInt = 1) = od.isManual := by
    cases od.isManual <;> rfl
  refine (hF.float2 _ _).bind ((hF.float2 _ _).bind ((hF.float2 _ _).bind ((hF.float1 _).bind
    ((hF.int1 (by cases od.isManual <;> simp [Fits])).bind ((carries_readString hF od.cwd).bind
    ((hF.int3 _ _ _).bind ?_))))))
  refine (carries_readString hF od.hostname).bind ((carries_readString hF od.hostuser).bind
    ((carries_readString hF od.hostcore).bind ((carries_readString hF od.hostarch).bind
    ((carries_readString hF od.batchSystem).bind ((carries_readString hF od.jobcontact).bind
    ((carries_readString hF od.codefile).bind ((carries_readString hF od.platforms).bind
    ((carries_readString hF od.proto).bind ((carries_readString hF od.encode).bind ?_)))))))))
  refine (hF.int1 (fits_wrap _)).bind ?_
  rw [hloop, hwrap, sizeT_natCast (by omega), hmanual]
  exact (carries_readElements hF hlen).map _

/-- What is packed in a message is read from it. -/
lemma readImage_of_pack {od : PopOd} (hod : Lengths od) {hd : Header} {b : PopBuffer}
    (hpack : od.pack F (empty hd) = .ok () b) (hlen : b.packeddata.length < 2 ^ 31) :
    ∃ b', readImage F b = .ok od.image b' := by
  have hempty : (empty hd).packeddata.length = 20 := rfl
  have hmem : ∀ s ∈ od.keys ++ od.values, s.length + 1 < 2 ^ 31 := fun s hs =>
    hod.strings s (List.mem_append_right _ hs)
  have htakes : Takes (od.pack F) od.size 28 := takes_pack hF hod.strings (by
    split
    · exact takes_attributes hF hod.attributes (fun s hs => hmem s (List.mem_append_left _ hs))
        fun s hs => hmem s (List.mem_append_right _ hs)
    · next h0 =>
        rw [not_not, wrap_natCast hod.count] at h0
        have hkeys : od.keys = [] := List.eq_nil_of_length_eq_zero (by omega)
        have hvalues : od.values = [] :=
          List.eq_nil_of_length_eq_zero (by rw [← hod.attributes, hkeys]; rfl)
        rw [hkeys, hvalues]
        exact Takes.pure.mono (Nat.zero_le 5))
  have hroom := htakes.room (by omega) hpack hlen
  obtain ⟨c, c', hpack', -, hread, -⟩ :=
    (carries_readImage hF hod.attributes hod.count).of_empty (by omega) hd
  rw [hpack] at hpack'
  cases hpack'
  exact ⟨c', hread⟩

end

/-! ### The copy -/

section

variable {a b : PopOd} {F : Format} {hd : Header}

lemma SameRest.image (h : SameRest a b) : (a.assign b).image = b.image := by
  obtain ⟨hmanual, hcwd, ⟨hdepth, hsize, hwait⟩, huser, hcore, harch, hbatch, hplatforms,
    hkeys, hvalues⟩ := h
  simp only [PopOd.image, PopOd.assign, PopOd.runLocal, hmanual, hcwd, hdepth, hsize, hwait, huser,
    hcore, harch, hbatch, hplatforms, hkeys, hvalues]

lemma SameRest.of_image (h : (a.assign b).image = b.image) : SameRest a b where
  isManual := (congrArg PopOd.isManual h :)
  cwd := (congrArg PopOd.cwd h :)
  search :=
    ⟨(congrArg PopOd.maxDepth h :), (congrArg PopOd.maxSize h :), (congrArg PopOd.waitTime h :)⟩
  hostuser := (congrArg PopOd.hostuser h :)
  hostcore := (congrArg PopOd.hostcore h :)
  hostarch := (congrArg PopOd.hostarch h :)
  batchSystem := (congrArg PopOd.batchSystem h :)
  platforms := (congrArg PopOd.platforms h :)
  attributes := ⟨(congrArg PopOd.keys h :), (congrArg PopOd.values h :)⟩

lemma pack_image (od : PopOd) (F : Format) : od.image.pack F = od.pack F := rfl

/-- The copy has the strings of the original and the attributes of the target. -/
lemma Lengths.assign (ha : Lengths a) (hb : Lengths b) : Lengths (a.assign b) where
  attributes := ha.attributes
  count := ha.count
  strings := by
    have hall := fun s => And.intro (ha.strings s) (hb.strings s)
    intro s hs
    simp only [PopOd.strings, PopOd.assign, PopOd.runLocal, List.mem_append, List.mem_cons,
      List.not_mem_nil, or_false] at hs hall
    rcases hs with (rfl | rfl | rfl | rfl | rfl | rfl | rfl | rfl | rfl | rfl | rfl) | hs | hs
    all_goals first
      | exact (hall _).2 (.inl (by simp))
      | exact (hall _).1 (.inl (by simp))
      | exact (hall _).1 (.inr (by simp [hs]))

/-- The same bytes come from the same members. -/
lemma SameRest.of_pack (hF : Standard F) (ha : Lengths a) (hb : Lengths b)
    (hsize : 20 + b.size < 2 ^ 31)
    (h : (a.assign b).pack F (empty hd) = b.pack F (empty hd)) : SameRest a b := by
  obtain ⟨c, -, hpack, hlen, -⟩ :=
    (carries_readImage hF.transports hb.attributes hb.count).of_empty hsize hd
  obtain ⟨c', hread⟩ := readImage_of_pack hF.transports hb hpack (by omega)
  obtain ⟨c'', hread'⟩ := readImage_of_pack hF.transports (ha.assign hb) (h.trans hpack) (by omega)
  rw [hread] at hread'
  injection hread' with himage
  exact .of_image himage.symm

end

/-- **Assignment.**  What is packed of a copy is what is packed of the original if the target agreed
with it on the members that are not assigned; and for an original that fits in a message, only
then. -/
theorem assign_image_iff (a b : PopOd) :
    (SameRest a b → ∀ F, (a.assign b).pack F = b.pack F) ∧
    ∀ (F : Format) (hd : Header), Standard F → Lengths a → Lengths b → 20 + b.size < 2 ^ 31 →
      ((a.assign b).pack F (empty hd) = b.pack F (empty hd) ↔ SameRest a b) := by
  have hsame : SameRest a b → ∀ F, (a.assign b).pack F = b.pack F := fun h F => by
    rw [← pack_image, h.image, pack_image]
  exact ⟨hsame, fun F hd hF ha hb hsize =>
    ⟨SameRest.of_pack hF ha hb hsize, fun h => by rw [hsame h F]⟩⟩

lemma lengths_plainOd : Lengths plainOd where
  attributes := rfl
  count := by decide
  strings := by
    intro s hs
    simp only [PopOd.strings, plainOd, PopOd.new, PopOd.sameDirectory, Option.getD_none,
      List.append_nil, List.mem_cons, List.not_mem_nil, or_false, or_self] at hs
    rw [hs]
    decide

lemma lengths_searchedOd : Lengths searchedOd := { lengths_plainOd with }

/-- A description that asks for a power. -/
def powerOd : PopOd := plainOd.power (ofInt 100) (ofInt 50)

lemma lengths_powerOd : Lengths powerOd := { lengths_plainOd with }

/-- A power is copied into a new description, and into one with the numbers of `search`, which
stay. -/
theorem assign_image_powerOd :
    (plainOd.assign powerOd).pack raw = powerOd.pack raw ∧ plainOd ≠ powerOd ∧
      (searchedOd.assign powerOd).pack raw (empty ⟨0, 0, 0, 0, 0⟩) ≠
        powerOd.pack raw (empty ⟨0, 0, 0, 0, 0⟩) := by
  have hplain : SameRest plainOd powerOd :=
    ⟨rfl, rfl, ⟨rfl, rfl, rfl⟩, rfl, rfl, rfl, rfl, rfl, ⟨rfl, rfl⟩⟩
  refine ⟨(assign_image_iff plainOd powerOd).1 hplain raw, by decide, fun h => ?_⟩
  have hsame := ((assign_image_iff searchedOd powerOd).2 raw _ .raw lengths_searchedOd
    lengths_powerOd (by decide)).mp h
  exact absurd hsame.search.1 (by decide)

/-- The numbers of `search` are not copied. -/
theorem search_not_assigned : ¬∀ a b : PopOd,
    (a.assign b).pack raw (empty ⟨0, 0, 0, 0, 0⟩) = b.pack raw (empty ⟨0, 0, 0, 0, 0⟩) := by
  intro h
  have hsame := SameRest.of_pack .raw lengths_plainOd lengths_searchedOd (by decide)
    (h plainOd searchedOd)
  exact absurd hsame.search.1 (by decide)

end PopCpp.Od
