/-
# Access points

A `pop_accesspoint` is copied in three ways: by its copy constructor, by `operator=`, and by
`Serialize` into a buffer and out of it again.  All three take over the flags through setters
that can only set them: what the target held before stays where the source has the flag clear.
`operator=` leaves `_noaddref` alone, and the copy constructor reads it from the new object
itself, which nothing has initialised.
-/
import PopCpp.Buffer.Serialize

namespace PopCpp.Access

open Buffer CInt

/-- The bytes of a `std::string`. -/
abbrev Str := List UInt8

/-- `enum security`, as `_security` holds it. -/
inductive Security where
  | nonsecure
  | secure
deriving DecidableEq, Repr

def Security.toInt : Security → ℤ
  | .nonsecure => 0
  | .secure => 1

/-- `pop_accesspoint` -/
structure PopAccesspoint where
  endpoint : Str
  service : Bool
  noaddref : Bool
  security : Security
deriving DecidableEq, Repr

namespace PopAccesspoint

/-- `pop_accesspoint()` -/
def new : PopAccesspoint := ⟨[], false, false, .nonsecure⟩

def setAccessString (p : PopAccesspoint) (hostport : Str) : PopAccesspoint :=
  { p with endpoint := hostport }

def isSecure (p : PopAccesspoint) : Bool := p.security == .secure

def setSecure (p : PopAccesspoint) : PopAccesspoint := { p with security := .secure }

def setAsService (p : PopAccesspoint) : PopAccesspoint := { p with service := true }

def setNoAddRef (p : PopAccesspoint) : PopAccesspoint := { p with noaddref := true }

/-- `pop_accesspoint(p)`, at a place in memory. -/
def copy (memory p : PopAccesspoint) : PopAccesspoint :=
  let t := { memory with endpoint := [] }
  let t := t.setAccessString p.endpoint
  let t := { t with security := if p.isSecure then .secure else .nonsecure }
  let t := if p.service then t.setAsService else t
  -- `_noaddref = GetNoAddRef()` reads the member that it assigns.
  { t with noaddref := t.noaddref }

/-- `operator=` -/
def assign (t p : PopAccesspoint) : PopAccesspoint :=
  let t := t.setAccessString p.endpoint
  let t := if p.isSecure then t.setSecure else t
  if p.service then t.setAsService else t

/-- `Serialize(buf, true)` -/
def pack (F : Format) (p : PopAccesspoint) : BufM Unit := do
  packString F p.endpoint
  packInt1 F p.security.toInt
  packFlag F p.service
  packFlag F p.noaddref

/-- `Serialize(buf, false)` -/
def unPack (F : Format) (t : PopAccesspoint) : BufM PopAccesspoint := do
  let s ← unPackString F
  let t := t.setAccessString s
  let sec ← unPackInt1 F
  let t := if sec = Security.secure.toInt then t.setSecure else t
  let serv ← unPackFlag F
  let t := if serv then t.setAsService else t
  let noadd ← unPackFlag F
  pure (if noadd then t.setNoAddRef else t)

/-! ### What is left of the target -/

/-- What `Serialize` makes of the target when it unpacks `p`. -/
def received (t p : PopAccesspoint) : PopAccesspoint where
  endpoint := p.endpoint
  service := p.service || t.service
  noaddref := p.noaddref || t.noaddref
  security := if p.isSecure then .secure else t.security

/-- The target is neither secure nor a service for nothing. -/
structure Covers (p t : PopAccesspoint) : Prop where
  security : t.isSecure = true → p.isSecure = true
  service : t.service = true → p.service = true

instance (p t : PopAccesspoint) : Decidable (Covers p t) :=
  decidable_of_iff ((t.isSecure = true → p.isSecure = true) ∧ (t.service = true → p.service = true))
    ⟨fun h => ⟨h.1, h.2⟩, fun h => ⟨h.security, h.service⟩⟩

/-- A flag that can only be set is the source's if and only if it was not set for nothing. -/
lemma or_eq_left_iff {a b : Bool} : (a || b) = a ↔ (b = true → a = true) := by
  cases a <;> cases b <;> simp

lemma security_eq_iff {p t : PopAccesspoint} :
    (if p.isSecure then Security.secure else t.security) = p.security ↔
      (t.isSecure = true → p.isSecure = true) := by
  cases hp : p.security <;> cases ht : t.security <;> simp [isSecure, hp, ht]

/-- **The copy constructor.** -/
theorem copy_eq_iff (memory p : PopAccesspoint) :
    memory.copy p = p ↔
      (memory.service = true → p.service = true) ∧ memory.noaddref = p.noaddref := by
  have hcopy : memory.copy p =
      ⟨p.endpoint, p.service || memory.service, memory.noaddref, p.security⟩ := by
    have hsecurity : (if p.isSecure then Security.secure else .nonsecure) = p.security := by
      cases hp : p.security <;> simp [isSecure, hp]
    simp only [copy, setAccessString, setAsService, hsecurity]
    cases p.service <;> rfl
  obtain ⟨endpoint, service, noaddref, security⟩ := p
  rw [hcopy, mk.injEq]
  simp only [or_eq_left_iff, and_true, true_and]

/-- **The assignment.** -/
theorem assign_eq_iff (t p : PopAccesspoint) :
    t.assign p = p ↔ Covers p t ∧ t.noaddref = p.noaddref := by
  have hassign : t.assign p = ⟨p.endpoint, p.service || t.service, t.noaddref,
      if p.isSecure then .secure else t.security⟩ := by
    cases hs : p.isSecure <;> cases hv : p.service <;>
      simp [assign, setAccessString, setSecure, setAsService, hs, hv]
  have hparts : t.assign p = p ↔ (p.service || t.service) = p.service ∧
      t.noaddref = p.noaddref ∧
        (if p.isSecure then Security.secure else t.security) = p.security := by
    conv_lhs => rw [hassign, ← show ⟨p.endpoint, p.service, p.noaddref, p.security⟩ = p from rfl]
    simp only [mk.injEq, true_and]
  rw [hparts, or_eq_left_iff, security_eq_iff]
  exact ⟨fun h => ⟨⟨h.2.2, h.1⟩, h.2.1⟩, fun h => ⟨h.1.service, h.2, h.1.security⟩⟩

lemma received_eq_iff (t p : PopAccesspoint) :
    t.received p = p ↔ Covers p t ∧ (t.noaddref = true → p.noaddref = true) := by
  have hparts : t.received p = p ↔ (p.service || t.service) = p.service ∧
      (p.noaddref || t.noaddref) = p.noaddref ∧
        (if p.isSecure then Security.secure else t.security) = p.security := by
    conv_lhs => rw [received, ← show ⟨p.endpoint, p.service, p.noaddref, p.security⟩ = p from rfl]
    simp only [mk.injEq, true_and]
  rw [hparts, or_eq_left_iff, or_eq_left_iff, security_eq_iff]
  exact ⟨fun h => ⟨⟨h.2.2, h.1⟩, h.2.1⟩, fun h => ⟨h.1.service, h.2, h.1.security⟩⟩

/-! ### Through a buffer -/

/-- How many bytes an access point takes. -/
def size (p : PopAccesspoint) : ℕ := stringSize p.endpoint + (4 + (4 + 4))

/-- `p` is packed into an empty buffer, which is then short enough for a message, and unpacking
it makes `t` equal to `p`. -/
def Arrives (F : Format) (hd : Header) (p t : PopAccesspoint) : Prop :=
  ∃ b b', p.pack F (empty hd) = .ok () b ∧ b.packeddata.length < 2 ^ 31 ∧
    t.unPack F b = .ok p b'

section

variable {F : Format} (hF : F.Transports) {hd : Header} {p t : PopAccesspoint}
include hF

lemma carries_pack (hnul : 0 ∉ p.endpoint) :
    Carries (p.pack F) (t.unPack F) p.size (t.received p) := by
  have hfits : Fits p.security.toInt := by
    cases p.security <;> simp [Fits, Security.toInt]
  have hreceived : t.received p =
      let t' := t.setAccessString p.endpoint
      let t' := if p.security.toInt = Security.secure.toInt then t'.setSecure else t'
      let t' := if p.service then t'.setAsService else t'
      if p.noaddref then t'.setNoAddRef else t' := by
    cases hp : p.security <;> cases hs : p.service <;> cases hn : p.noaddref <;>
      simp [received, isSecure, hp, hs, hn, Security.toInt, setAccessString, setSecure,
        setAsService, setNoAddRef]
  rw [hreceived]
  refine (hF.string hnul).bind ((hF.int1 hfits).bind ((hF.flag1 _).bind ?_))
  exact (hF.flag1 p.noaddref).map fun noadd => if noadd then _ else _

/-- A string that comes out of a buffer ends at its first NUL. -/
lemma returns_endpoint : Returns (t.unPack F) fun t' =>
    0 ∉ t'.endpoint ∧ t'.endpoint.length + 1 < 2 ^ 31 := by
  have hstring : Returns (unPackString F) fun s => 0 ∉ s ∧ s.length + 1 < 2 ^ 31 := fun b b' s h =>
    ⟨Format.Transports.returnsString_nulFree b b' s h, hF.returnsString b b' s h⟩
  refine hstring.bind fun s hs => (Returns.trivial _).bind fun sec _ =>
    (Returns.trivial _).bind fun serv _ => (Returns.trivial _).bind fun noadd _ =>
    Returns.pure ?_
  split <;> split <;> split <;> exact hs

/-- **The way through a buffer.** -/
theorem endpoint_arrives_iff : Arrives F hd p t ↔
    0 ∉ p.endpoint ∧ 20 + p.size < 2 ^ 31 ∧ Covers p t ∧
      (t.noaddref = true → p.noaddref = true) := by
  constructor
  · rintro ⟨b, b', hpack, hlen, hunpack⟩
    obtain ⟨hnul, hshort⟩ := returns_endpoint hF _ _ _ hunpack
    have htakes : Takes (p.pack F) p.size 10 :=
      (hF.fillsString hshort).bind ((hF.takesInt1 _).next ((hF.fillsFlag1 _).bind
        ((hF.fillsFlag1 _).takes (Nat.le_refl 5)) (Nat.le_refl 5)) (by decide)) (by decide)
    have hempty : (empty hd).packeddata.length = 20 := rfl
    have hroom := htakes.room (by omega) hpack hlen
    rw [hempty] at hroom
    obtain ⟨c, c', hpack', -, hunpack', -⟩ := (carries_pack hF hnul).of_empty hroom hd
    rw [hpack] at hpack'
    cases hpack'
    rw [hunpack] at hunpack'
    obtain ⟨hp, -⟩ := Result.ok.inj hunpack'
    exact ⟨hnul, hroom, (received_eq_iff t p).mp hp.symm⟩
  · rintro ⟨hnul, hroom, hkept⟩
    obtain ⟨b, b', hpack, hlen, hunpack, -⟩ := (carries_pack hF hnul (t := t)).of_empty hroom hd
    rw [(received_eq_iff t p).mpr hkept] at hunpack
    exact ⟨b, b', hpack, by omega, hunpack⟩

end

/-- **Copies of access points.**  Each of the three ways leaves the source's access string and
flags in the target exactly when the target had no flag set that the source has not; the copy
constructor and `operator=` need the right `_noaddref` there, and the way through a buffer an
access string without NUL that is not too long for a message. -/
theorem copies_iff (F : Format) (hF : Standard F) (hd : Header) (p t memory : PopAccesspoint) :
    (memory.copy p = p ↔
      (memory.service = true → p.service = true) ∧ memory.noaddref = p.noaddref) ∧
    (t.assign p = p ↔ Covers p t ∧ t.noaddref = p.noaddref) ∧
    (Arrives F hd p t ↔ 0 ∉ p.endpoint ∧ 20 + p.size < 2 ^ 31 ∧ Covers p t ∧
      (t.noaddref = true → p.noaddref = true)) :=
  ⟨copy_eq_iff memory p, assign_eq_iff t p, endpoint_arrives_iff hF.transports⟩

/-- A plain access point, and one of a secure service that is not to be counted. -/
def plain : PopAccesspoint := new.setAccessString [117]
def guarded : PopAccesspoint := plain.setSecure.setAsService.setNoAddRef

theorem copies_iff_guarded :
    new.setNoAddRef.copy guarded = guarded ∧ new.setNoAddRef.assign guarded = guarded ∧
      Arrives raw ⟨0, 0, 0, 0, 0⟩ guarded new.setSecure := by
  obtain ⟨hcopy, hassign, -⟩ :=
    copies_iff raw .raw ⟨0, 0, 0, 0, 0⟩ guarded new.setNoAddRef new.setNoAddRef
  obtain ⟨-, -, harrives⟩ := copies_iff raw .raw ⟨0, 0, 0, 0, 0⟩ guarded new.setSecure new
  exact ⟨hcopy.mpr (by decide), hassign.mpr (by decide), harrives.mpr (by decide)⟩

/-- The flags of the target stay: none of the three ways clears them. -/
theorem guarded_stays : guarded.copy plain ≠ plain ∧ guarded.assign plain ≠ plain ∧
    ¬Arrives raw ⟨0, 0, 0, 0, 0⟩ plain guarded := by
  refine ⟨by decide, by decide, fun h => ?_⟩
  have hcovers := ((endpoint_arrives_iff transports_raw).mp h).2.2.1
  exact absurd hcovers (by decide)

end PopAccesspoint

end PopCpp.Access
