/-
# The reference count of a parallel object

The broker of an object raises its reference count when the combox accepts a connection and
lowers it when a connection is closed; a client raises it by `AddRef` when it packs an
interface, so that the object lives on while the packed reference is under way, and lowers it
by `DecRef` when the reference has been unpacked and bound.  The steps are the requests and the
callbacks of which these calls are made, in any order: the two ends of a connection see it open
and close at different moments.

All interfaces name the one object of the model.  An interface with an empty access point
never reaches it.
-/
import Mathlib.Algebra.Order.BigOperators.Group.List
import Mathlib.Tactic.Linarith
import Mathlib.Tactic.Ring
import PopCpp.Lib.ListEdit
import PopCpp.Lib.Transition

namespace Interface

/-! ### Connections and interfaces -/

/-- A connection to the object, until the server has closed it. -/
structure Connection where
  /-- The server has accepted it and called `OnNewConnection`. -/
  accepted : Bool
  /-- It was made by the constructor from an access point with `NoAddRef`. -/
  noAddRef : Bool
deriving DecidableEq

/-- A `refcount` in a packed interface that makes the receiver bind. -/
abbrev PackedRef := {ref : ℤ // 0 < ref}

/-- Why a call ends with `DecRef`. -/
inductive DecRefCause where
  /-- The constructor from an access point with `NoAddRef`. -/
  | noAddRef
  /-- `Serialize` has unpacked a reference. -/
  | image (ref : PackedRef)
deriving DecidableEq

/-- What comes next in the call that an interface is in. -/
inductive Pc where
  /-- No call is in progress. -/
  | idle
  /-- The `Release` of `operator=`. -/
  | assigning
  /-- The `Release` of `Bind`, and what follows the `Bind`. -/
  | binding (cause : Option DecRefCause)
  /-- `Connect` -/
  | connecting (cause : Option DecRefCause)
  /-- The answer to `BindStatus`. -/
  | bindStatus (cause : Option DecRefCause)
  /-- `DecRef` -/
  | decRef (cause : DecRefCause)
  /-- The `AddRef` of `Serialize`. -/
  | addRef
  /-- The packing of the answer to `AddRef`. -/
  | packing (ref : ℤ)
  /-- The `Release` of the destructor. -/
  | releasing
deriving DecidableEq

/-- `pop_interface` -/
structure PopInterface where
  /-- The connection of `__pop_combox`, or none. -/
  combox : Option Connection
  /-- What comes next. -/
  pc : Pc
deriving DecidableEq

/-- The interfaces to one object, the connections to it and its reference count. -/
structure System where
  /-- `refcount` of the `pop_object`, an `int` that stays within its range. -/
  refcount : ℤ
  /-- The interfaces. -/
  interfaces : List PopInterface
  /-- The connections that the client has closed and the server has not. -/
  released : List Connection
  /-- The packed interfaces in flight, by their `refcount`. -/
  images : List ℤ
  /-- The constructors from an access point with `NoAddRef` that have sent their `DecRef`. -/
  noAddRefs : ℕ
deriving DecidableEq

/-- The object has been created, and its creator is bound to it. -/
def init : System := ⟨1, [⟨some ⟨true, false⟩, .idle⟩], [], [], 0⟩

/-- What can happen. -/
inductive Action where
  /-- `pop_interface()` -/
  | create
  /-- `pop_interface(const pop_accesspoint&)` -/
  | construct (noAddRef : Bool)
  /-- `pop_interface(const pop_interface&)`, from any interface. -/
  | copy
  /-- `operator=`, from any interface. -/
  | assign (i : ℕ)
  /-- `Serialize` with `pack`. -/
  | pack (i : ℕ)
  /-- `Serialize` without `pack`, from the `k`th packed interface. -/
  | unPack (i k : ℕ)
  /-- The destructor. -/
  | release (i : ℕ)
  /-- The interface goes on with its call. -/
  | advance (i : ℕ)
  /-- `Connect` or `BindStatus` fails, and another protocol is tried or not. -/
  | bindFails (i : ℕ) (again : Bool)
  /-- The server accepts the connection of the interface. -/
  | accept (i : ℕ)
  /-- The server accepts a connection that the client has closed. -/
  | acceptReleased (k : ℕ)
  /-- The server closes a connection that the client has closed. -/
  | close (k : ℕ)
deriving DecidableEq

/-! ### The calls -/

namespace System

/-- The interface `i` is now `x`. -/
def setInterface (s : System) (i : ℕ) (x : PopInterface) : System :=
  { s with interfaces := s.interfaces.set i x }

@[simp]
lemma setInterface_refcount (s : System) (i : ℕ) (x : PopInterface) :
    (s.setInterface i x).refcount = s.refcount := rfl

@[simp]
lemma setInterface_interfaces (s : System) (i : ℕ) (x : PopInterface) :
    (s.setInterface i x).interfaces = s.interfaces.set i x := rfl

@[simp]
lemma setInterface_released (s : System) (i : ℕ) (x : PopInterface) :
    (s.setInterface i x).released = s.released := rfl

@[simp]
lemma setInterface_images (s : System) (i : ℕ) (x : PopInterface) :
    (s.setInterface i x).images = s.images := rfl

@[simp]
lemma setInterface_noAddRefs (s : System) (i : ℕ) (x : PopInterface) :
    (s.setInterface i x).noAddRefs = s.noAddRefs := rfl

/-- `pop_interface::Release` by the interface `i`, which then goes on at `pc`. -/
def release (s : System) (i : ℕ) (x : PopInterface) (pc : Pc) : System :=
  { s.setInterface i ⟨none, pc⟩ with released := s.released ++ x.combox.toList }

/-- `pop_broker::OnNewConnection` -/
def onNewConnection (s : System) : System := { s with refcount := s.refcount + 1 }

/-- `pop_broker::OnCloseConnection` -/
def onCloseConnection (s : System) : System := { s with refcount := s.refcount - 1 }

/-- `pop_interface::AddRef` by the interface `i`: a call of the object, or -1 when the interface
is not bound.  The server answers only on a connection that it has accepted. -/
def addRef (s : System) (i : ℕ) (x : PopInterface) : Option System :=
  match x.combox with
  | none => some (s.setInterface i ⟨none, .packing (-1)⟩)
  | some c =>
      if c.accepted then
        let ret := s.refcount + 1
        some { s.setInterface i ⟨some c, .packing ret⟩ with refcount := ret }
      else none

/-- `pop_interface::DecRef` by the interface `i`. -/
def decRef (s : System) (i : ℕ) (x : PopInterface) (cause : DecRefCause) : Option System :=
  match x.combox with
  | none => some (s.setInterface i ⟨none, .idle⟩)
  | some c =>
      if c.accepted then
        some { s.setInterface i ⟨some c, .idle⟩ with
          refcount := s.refcount - 1
          noAddRefs := if cause = .noAddRef then s.noAddRefs + 1 else s.noAddRefs }
      else none

/-- The next part of the call that the interface `i` is in. -/
def advance (s : System) (i : ℕ) (x : PopInterface) : Option System :=
  match x.pc with
  | .idle => none
  | .assigning => some (s.release i x (.binding none))
  | .binding cause => some (s.release i x (.connecting cause))
  | .connecting cause =>
      some (s.setInterface i ⟨some ⟨false, cause = some .noAddRef⟩, .bindStatus cause⟩)
  | .bindStatus cause =>
      match x.combox with
      | some c =>
          if c.accepted then
            some (s.setInterface i ⟨some c, (cause.map Pc.decRef).getD .idle⟩)
          else none
      | none => none
  | .decRef cause => s.decRef i x cause
  | .addRef => s.addRef i x
  | .packing ref =>
      some { s.setInterface i { x with pc := .idle } with images := s.images ++ [ref] }
  | .releasing => some (s.release i x .idle)

/-- What follows a failure of `Bind`: the next protocol, or an exception, which leaves a packed
reference as it was. -/
def bindFails (s : System) (i : ℕ) (combox : Option Connection) (cause : Option DecRefCause)
    (again : Bool) : System :=
  if again then s.setInterface i ⟨combox, .binding cause⟩
  else
    { s.setInterface i ⟨combox, .idle⟩ with
      images :=
        match cause with
        | some (.image ref) => s.images ++ [ref.1]
        | _ => s.images }

/-- The interface `i` is idle and begins a call. -/
def call (s : System) (i : ℕ) (pc : Pc) : Option System :=
  match s.interfaces[i]? with
  | some ⟨combox, .idle⟩ => some (s.setInterface i ⟨combox, pc⟩)
  | _ => none

end System

/-- One step of the system. -/
def step (s : System) : Action → Option System
  | .create => some { s with interfaces := s.interfaces ++ [⟨none, .idle⟩] }
  | .construct noAddRef =>
      let cause := if noAddRef then some .noAddRef else none
      some { s with interfaces := s.interfaces ++ [⟨none, .binding cause⟩] }
  | .copy => some { s with interfaces := s.interfaces ++ [⟨none, .binding none⟩] }
  | .assign i => s.call i .assigning
  | .pack i => s.call i .addRef
  | .unPack i k =>
      s.images[k]?.bind fun ref =>
        let s' := { s with images := s.images.eraseIdx k }
        if h : 0 < ref then s'.call i (.binding (some (.image ⟨ref, h⟩))) else s'.call i .idle
  | .release i => s.call i .releasing
  | .advance i => s.interfaces[i]?.bind fun x => s.advance i x
  | .bindFails i again =>
      match s.interfaces[i]? with
      | some ⟨_, .connecting cause⟩ => some (s.bindFails i none cause again)
      | some ⟨combox, .bindStatus cause⟩ => some (s.bindFails i combox cause again)
      | _ => none
  | .accept i =>
      match s.interfaces[i]? with
      | some ⟨some ⟨false, noAddRef⟩, pc⟩ =>
          some (s.setInterface i ⟨some ⟨true, noAddRef⟩, pc⟩).onNewConnection
      | _ => none
  | .acceptReleased k =>
      match s.released[k]? with
      | some ⟨false, noAddRef⟩ =>
          some { s with released := s.released.set k ⟨true, noAddRef⟩ }.onNewConnection
      | _ => none
  | .close k =>
      match s.released[k]? with
      | some ⟨true, _⟩ =>
          some { s with released := s.released.eraseIdx k }.onCloseConnection
      | _ => none

/-! ### What the count should be -/

/-- A connection counts one from its `OnNewConnection` on. -/
def Connection.count (c : Connection) : ℤ := if c.accepted then 1 else 0

/-- A packed interface counts one if it carries a reference. -/
def imageCount (ref : ℤ) : ℤ := if 0 < ref then 1 else 0

/-- A `DecRef` that is still to come is owed for a reference that has been unpacked. -/
def DecRefCause.owed : DecRefCause → ℤ
  | .noAddRef => 0
  | .image _ => 1

/-- What a call has raised the count by for a reference, or will lower it by for one. -/
def Pc.owed : Pc → ℤ
  | .binding cause | .connecting cause | .bindStatus cause =>
      (cause.map DecRefCause.owed).getD 0
  | .decRef cause => cause.owed
  | .packing ref => imageCount ref
  | .idle | .assigning | .addRef | .releasing => 0

namespace Pc

@[simp]
lemma owed_idle : idle.owed = 0 := rfl

@[simp]
lemma owed_assigning : assigning.owed = 0 := rfl

@[simp]
lemma owed_addRef : addRef.owed = 0 := rfl

@[simp]
lemma owed_releasing : releasing.owed = 0 := rfl

@[simp]
lemma owed_binding (cause : Option DecRefCause) :
    (binding cause).owed = (cause.map DecRefCause.owed).getD 0 := rfl

@[simp]
lemma owed_connecting (cause : Option DecRefCause) :
    (connecting cause).owed = (cause.map DecRefCause.owed).getD 0 := rfl

@[simp]
lemma owed_bindStatus (cause : Option DecRefCause) :
    (bindStatus cause).owed = (cause.map DecRefCause.owed).getD 0 := rfl

@[simp]
lemma owed_decRef (cause : DecRefCause) : (decRef cause).owed = cause.owed := rfl

@[simp]
lemma owed_packing (ref : ℤ) : (packing ref).owed = imageCount ref := rfl

end Pc

namespace System

/-- The open connections, as the server sees them. -/
def openConnections (s : System) : ℤ :=
  (s.interfaces.map fun x => (x.combox.map Connection.count).getD 0).sum +
    (s.released.map Connection.count).sum

/-- The packed references that have not been unpacked. -/
def packedRefs (s : System) : ℤ := (s.images.map imageCount).sum

/-- The references in the hands of a call. -/
def owed (s : System) : ℤ := (s.interfaces.map fun x => x.pc.owed).sum

/-- No call is in progress. -/
def Quiet (s : System) : Prop := ∀ x ∈ s.interfaces, x.pc = .idle

/-- What is wrong with the count, if the `DecRef` of the constructors from an access point with
`NoAddRef` is allowed for. -/
def drift (s : System) : ℤ :=
  s.refcount + s.noAddRefs - s.openConnections - s.packedRefs - s.owed

end System

/-- What an interface contributes to the count. -/
def PopInterface.weight (x : PopInterface) : ℤ :=
  (x.combox.map Connection.count).getD 0 + x.pc.owed

/-- An interface that connects has released its connection, and one that sends its `DecRef` is
bound. -/
def PopInterface.Ok (x : PopInterface) : Prop :=
  match x.pc with
  | .connecting _ => x.combox = none
  | .decRef _ => ∃ c, x.combox = some c ∧ c.accepted = true
  | _ => True

/-! ### What the steps do to the count -/

section steps

variable {s t : System} {i k : ℕ} {x y : PopInterface}

lemma System.drift_eq (s : System) :
    s.drift = s.refcount + s.noAddRefs - (s.interfaces.map PopInterface.weight).sum -
      (s.released.map Connection.count).sum - (s.images.map imageCount).sum := by
  have hsum : (s.interfaces.map PopInterface.weight).sum =
      (s.interfaces.map fun x => (x.combox.map Connection.count).getD 0).sum + s.owed :=
    List.sum_map_add
  rw [hsum, System.drift, System.openConnections, System.packedRefs]
  ring

/-- One interface changes, and what else changes is weighed against it. -/
lemma drift_of_set (hx : s.interfaces[i]? = some x) (ht : t.interfaces = s.interfaces.set i y)
    (hweigh : t.refcount - s.refcount + (t.noAddRefs - s.noAddRefs) =
      y.weight - x.weight +
        ((t.released.map Connection.count).sum - (s.released.map Connection.count).sum) +
        ((t.images.map imageCount).sum - (s.images.map imageCount).sum)) : t.drift = s.drift := by
  rw [System.drift_eq, System.drift_eq, ht, ListEdit.sum_map_set PopInterface.weight hx]
  linarith

lemma drift_release (hx : s.interfaces[i]? = some x) {pc : Pc} (hpc : pc.owed = x.pc.owed) :
    (s.release i x pc).drift = s.drift := by
  refine drift_of_set hx rfl ?_
  obtain ⟨combox, pc'⟩ := x
  cases combox <;> simp [System.release, PopInterface.weight, hpc]

lemma call_eq_some {pc : Pc} (h : s.call i pc = some t) :
    ∃ combox, s.interfaces[i]? = some ⟨combox, .idle⟩ ∧ t = s.setInterface i ⟨combox, pc⟩ := by
  unfold System.call at h
  split at h
  next combox hx => exact ⟨combox, hx, (Option.some.inj h).symm⟩
  next => cases h

/-- The part of a call that comes next, unless it is an `AddRef` that is answered by a number
which the receiver takes for no reference. -/
lemma drift_advance (hx : s.interfaces[i]? = some x) (hok : x.Ok)
    (hadd : x.pc = .addRef → x.combox ≠ none → 0 ≤ s.refcount) (h : s.advance i x = some t) :
    t.drift = s.drift := by
  obtain ⟨combox, pc⟩ := x
  cases pc with
  | idle => cases h
  | assigning | releasing | binding cause =>
      obtain rfl := Option.some.inj h
      exact drift_release hx rfl
  | connecting cause =>
      obtain rfl := Option.some.inj h
      obtain rfl : combox = none := hok
      exact drift_of_set hx rfl (by simp [PopInterface.weight, Connection.count])
  | bindStatus cause =>
      simp only [System.advance] at h
      split at h
      next c =>
        obtain ⟨hacc, rfl⟩ : c.accepted = true ∧ _ = t := by simpa using h
        refine drift_of_set hx rfl ?_
        cases cause <;> simp [PopInterface.weight]
      next => cases h
  | decRef cause =>
      obtain ⟨c, rfl, hacc⟩ := hok
      obtain rfl : _ = t := by simpa [System.advance, System.decRef, hacc] using h
      refine drift_of_set hx rfl ?_
      cases cause <;> simp [PopInterface.weight, DecRefCause.owed]
  | addRef =>
      cases combox with
      | none =>
          obtain rfl := Option.some.inj h
          exact drift_of_set hx rfl (by simp [PopInterface.weight, imageCount])
      | some c =>
          have hpos : 0 < s.refcount + 1 := by
            have := hadd rfl (by simp)
            omega
          obtain ⟨hacc, rfl⟩ : c.accepted = true ∧ _ = t := by
            simpa [System.advance, System.addRef] using h
          exact drift_of_set hx rfl (by simp [PopInterface.weight, imageCount, hpos])
  | packing ref =>
      obtain rfl := Option.some.inj h
      exact drift_of_set hx rfl (by simp [PopInterface.weight])

lemma drift_bindFails {combox : Option Connection} {pc : Pc} {cause : Option DecRefCause}
    {again : Bool} (hx : s.interfaces[i]? = some ⟨combox, pc⟩)
    (hpc : pc.owed = (cause.map DecRefCause.owed).getD 0) :
    (s.bindFails i combox cause again).drift = s.drift := by
  cases again with
  | true => exact drift_of_set hx rfl (by simp [PopInterface.weight, hpc, System.bindFails])
  | false =>
      refine drift_of_set hx rfl ?_
      rcases cause with _ | (_ | ref)
      · simp [System.bindFails, PopInterface.weight, hpc]
      · simp [System.bindFails, PopInterface.weight, hpc, DecRefCause.owed]
      · simp [System.bindFails, PopInterface.weight, hpc, DecRefCause.owed, imageCount,
          ref.2]

/-- A step that is not an `AddRef` of a bound interface with a negative count. -/
def Counted (s : System) (a : Action) : Prop :=
  ∀ i x, a = .advance i → s.interfaces[i]? = some x → x.pc = .addRef → x.combox ≠ none →
    0 ≤ s.refcount

/-- Every step keeps the count in step with the connections and the references. -/
lemma drift_step {a : Action} (hok : ∀ x ∈ s.interfaces, x.Ok) (hcounted : Counted s a)
    (hst : step s a = some t) : t.drift = s.drift := by
  cases a with
  | create =>
      obtain rfl := Option.some.inj hst
      simp [System.drift_eq, PopInterface.weight]
  | copy =>
      obtain rfl := Option.some.inj hst
      simp [System.drift_eq, PopInterface.weight]
  | construct noAddRef =>
      obtain rfl := Option.some.inj hst
      cases noAddRef <;> simp [System.drift_eq, PopInterface.weight, DecRefCause.owed]
  -- the calls of one interface: its weight is the same before and after
  | assign i | pack i | release i =>
      obtain ⟨combox, hx, rfl⟩ := call_eq_some hst
      exact drift_of_set hx rfl (by simp [PopInterface.weight])
  | unPack i k =>
      obtain ⟨ref, hk, hst⟩ := Option.bind_eq_some_iff.mp hst
      dsimp only at hst
      split_ifs at hst with hpos
      · obtain ⟨combox, hx, rfl⟩ := call_eq_some hst
        refine drift_of_set (s := s) hx rfl ?_
        simp [PopInterface.weight, DecRefCause.owed,
          ListEdit.sum_map_eraseIdx imageCount hk, imageCount, hpos]
      · obtain ⟨combox, hx, rfl⟩ := call_eq_some hst
        refine drift_of_set (s := s) hx rfl ?_
        simp [PopInterface.weight, ListEdit.sum_map_eraseIdx imageCount hk, imageCount, hpos]
  | advance i =>
      obtain ⟨x, hx, hst⟩ := Option.bind_eq_some_iff.mp hst
      exact drift_advance hx (hok x (List.mem_of_getElem? hx)) (hcounted i x rfl hx) hst
  | bindFails i again =>
      simp only [step] at hst
      split at hst
      next combox cause hx =>
        obtain rfl := Option.some.inj hst
        obtain rfl : combox = none := hok _ (List.mem_of_getElem? hx)
        exact drift_bindFails hx rfl
      next combox cause hx =>
        obtain rfl := Option.some.inj hst
        exact drift_bindFails hx rfl
      next => cases hst
  -- the object: the count and the connection move together
  | accept i =>
      simp only [step] at hst
      split at hst
      next noAddRef pc hx =>
        obtain rfl := Option.some.inj hst
        exact drift_of_set hx rfl
          (by simp [System.onNewConnection, PopInterface.weight, Connection.count])
      next => cases hst
  | acceptReleased k =>
      simp only [step] at hst
      split at hst
      next noAddRef hk =>
        obtain rfl := Option.some.inj hst
        simp only [System.drift_eq, System.onNewConnection,
          ListEdit.sum_map_set Connection.count hk, Connection.count, Bool.false_eq_true,
          if_true, if_false]
        ring
      next => cases hst
  | close k =>
      simp only [step] at hst
      split at hst
      next noAddRef hk =>
        obtain rfl := Option.some.inj hst
        simp only [System.drift_eq, System.onCloseConnection,
          ListEdit.sum_map_eraseIdx Connection.count hk, Connection.count, if_true]
        ring
      next => cases hst

end steps

/-! ### How the interfaces change -/

/-- What comes first in a call. -/
inductive Pc.Entry : Action → Pc → Prop where
  /-- No call. -/
  | idle (a : Action) : Entry a idle
  /-- The constructor from an access point. -/
  | construct : Entry (.construct false) (binding none)
  /-- The constructor from an access point with `NoAddRef`. -/
  | noAddRef : Entry (.construct true) (binding (some .noAddRef))
  /-- The copy constructor. -/
  | copy : Entry .copy (binding none)
  /-- `operator=` -/
  | assign (i : ℕ) : Entry (.assign i) assigning
  /-- `Serialize` with `pack`. -/
  | pack (i : ℕ) : Entry (.pack i) addRef
  /-- `Serialize` without `pack`, of a reference. -/
  | unPack (i k : ℕ) (ref : PackedRef) : Entry (.unPack i k) (binding (some (.image ref)))
  /-- The destructor. -/
  | release (i : ℕ) : Entry (.release i) releasing

/-- How a call goes on. -/
inductive PopInterface.Moves : PopInterface → PopInterface → Prop where
  /-- `operator=` has released the connection. -/
  | assigned (c : Option Connection) : Moves ⟨c, .assigning⟩ ⟨none, .binding none⟩
  /-- `Bind` has released the connection. -/
  | released (c : Option Connection) (cause : Option DecRefCause) :
      Moves ⟨c, .binding cause⟩ ⟨none, .connecting cause⟩
  /-- There is a new connection. -/
  | connected (c : Option Connection) (c' : Connection) (cause : Option DecRefCause) :
      Moves ⟨c, .connecting cause⟩ ⟨some c', .bindStatus cause⟩
  /-- The interface is bound, and `DecRef` follows. -/
  | bound (c : Connection) (cause : DecRefCause) (hacc : c.accepted = true) :
      Moves ⟨some c, .bindStatus (some cause)⟩ ⟨some c, .decRef cause⟩
  /-- `AddRef` has been answered. -/
  | addRef (c : Option Connection) (ref : ℤ) : Moves ⟨c, .addRef⟩ ⟨c, .packing ref⟩
  /-- Another protocol is tried. -/
  | again (c c' : Option Connection) (pc : Pc) (cause : Option DecRefCause)
      (hpc : pc = .connecting cause ∨ pc = .bindStatus cause) :
      Moves ⟨c, pc⟩ ⟨c', .binding cause⟩
  /-- The call has ended. -/
  | done (c c' : Option Connection) (pc : Pc) : Moves ⟨c, pc⟩ ⟨c', .idle⟩
  /-- The server has accepted the connection. -/
  | accepted (c c' : Connection) (pc : Pc) (hc : c'.accepted = true) :
      Moves ⟨some c, pc⟩ ⟨some c', pc⟩

/-- What a step does to the interfaces. -/
inductive Change (a : Action) (s t : System) : Prop where
  /-- Nothing. -/
  | keep (ht : t.interfaces = s.interfaces)
  /-- There is a new interface. -/
  | new (pc : Pc) (hpc : pc.Entry a) (ht : t.interfaces = s.interfaces ++ [⟨none, pc⟩])
  /-- An interface begins a call. -/
  | call (i : ℕ) (c : Option Connection) (pc : Pc) (hx : s.interfaces[i]? = some ⟨c, .idle⟩)
      (hpc : pc.Entry a) (ht : t.interfaces = s.interfaces.set i ⟨c, pc⟩)
  /-- A call goes on. -/
  | move (i : ℕ) (x y : PopInterface) (hx : s.interfaces[i]? = some x) (hxy : x.Moves y)
      (ht : t.interfaces = s.interfaces.set i y)

section change

variable {s t : System} {i : ℕ} {x : PopInterface}

lemma moves_advance (h : s.advance i x = some t) :
    ∃ y, x.Moves y ∧ t.interfaces = s.interfaces.set i y := by
  obtain ⟨combox, pc⟩ := x
  cases pc with
  | idle => cases h
  | assigning =>
      obtain rfl := Option.some.inj h
      exact ⟨_, .assigned _, rfl⟩
  | binding cause =>
      obtain rfl := Option.some.inj h
      exact ⟨_, .released _ _, rfl⟩
  | connecting cause =>
      obtain rfl := Option.some.inj h
      exact ⟨_, .connected _ _ _, rfl⟩
  | bindStatus cause =>
      simp only [System.advance] at h
      split at h
      next c =>
        obtain ⟨hacc, rfl⟩ : c.accepted = true ∧ _ = t := by simpa using h
        cases cause with
        | none => exact ⟨_, .done _ _ _, rfl⟩
        | some cause => exact ⟨_, .bound c cause hacc, rfl⟩
      next => cases h
  | decRef cause =>
      cases combox with
      | none =>
          obtain rfl := Option.some.inj h
          exact ⟨_, .done _ _ _, rfl⟩
      | some c =>
          obtain ⟨-, rfl⟩ : c.accepted = true ∧ _ = t := by
            simpa [System.advance, System.decRef] using h
          exact ⟨_, .done _ _ _, rfl⟩
  | addRef =>
      cases combox with
      | none =>
          obtain rfl := Option.some.inj h
          exact ⟨_, .addRef _ _, rfl⟩
      | some c =>
          obtain ⟨-, rfl⟩ : c.accepted = true ∧ _ = t := by
            simpa [System.advance, System.addRef] using h
          exact ⟨_, .addRef _ _, rfl⟩
  | packing ref | releasing =>
      obtain rfl := Option.some.inj h
      exact ⟨_, .done _ _ _, rfl⟩

lemma change_step {a : Action} (hst : step s a = some t) : Change a s t := by
  cases a with
  | create =>
      obtain rfl := Option.some.inj hst
      exact .new _ (.idle _) rfl
  | copy =>
      obtain rfl := Option.some.inj hst
      exact .new _ .copy rfl
  | construct noAddRef =>
      obtain rfl := Option.some.inj hst
      cases noAddRef with
      | false => exact .new _ .construct rfl
      | true => exact .new _ .noAddRef rfl
  | assign i =>
      obtain ⟨combox, hx, rfl⟩ := call_eq_some hst
      exact .call i _ _ hx (.assign i) rfl
  | pack i =>
      obtain ⟨combox, hx, rfl⟩ := call_eq_some hst
      exact .call i _ _ hx (.pack i) rfl
  | release i =>
      obtain ⟨combox, hx, rfl⟩ := call_eq_some hst
      exact .call i _ _ hx (.release i) rfl
  | unPack i k =>
      obtain ⟨ref, -, hst⟩ := Option.bind_eq_some_iff.mp hst
      dsimp only at hst
      split_ifs at hst
      · obtain ⟨combox, hx, rfl⟩ := call_eq_some hst
        exact .call i _ _ hx (.unPack i k _) rfl
      · obtain ⟨combox, hx, rfl⟩ := call_eq_some hst
        exact .call i _ _ hx (.idle _) rfl
  | advance i =>
      obtain ⟨x, hx, hst⟩ := Option.bind_eq_some_iff.mp hst
      obtain ⟨y, hxy, ht⟩ := moves_advance hst
      exact .move i x y hx hxy ht
  | bindFails i again =>
      simp only [step] at hst
      split at hst
      next combox cause hx =>
        obtain rfl := Option.some.inj hst
        -- `Bind` goes on with the next protocol, or throws
        cases again with
        | true => exact .move i _ _ hx (.again _ none _ cause (Or.inl rfl)) rfl
        | false => exact .move i _ _ hx (.done _ none _) rfl
      next combox cause hx =>
        obtain rfl := Option.some.inj hst
        cases again with
        | true => exact .move i _ _ hx (.again _ combox _ cause (Or.inr rfl)) rfl
        | false => exact .move i _ _ hx (.done _ combox _) rfl
      next => cases hst
  | accept i =>
      simp only [step] at hst
      split at hst
      next noAddRef pc hx =>
        obtain rfl := Option.some.inj hst
        exact .move i _ _ hx (.accepted _ _ pc rfl) rfl
      next => cases hst
  | acceptReleased k | close k =>
      simp only [step] at hst
      split at hst
      · obtain rfl := Option.some.inj hst
        exact .keep rfl
      · cases hst

/-- A property of all interfaces is kept by every step, if calls begin with it and go on with
it. -/
theorem forall_step {P : PopInterface → Prop} {a : Action} (hst : step s a = some t)
    (hentry : ∀ pc c, pc.Entry a → (c = none ∨ P ⟨c, .idle⟩) → P ⟨c, pc⟩)
    (hmoves : ∀ x y, x.Moves y → P x → P y) (h : ∀ x ∈ s.interfaces, P x) :
    ∀ x ∈ t.interfaces, P x := by
  cases change_step hst with
  | keep ht => rwa [ht]
  | new pc hpc ht =>
      intro x hx
      rw [ht] at hx
      rcases List.mem_append.mp hx with hx | hx
      · exact h x hx
      · exact List.mem_singleton.mp hx ▸ hentry pc none hpc (Or.inl rfl)
  | call i c pc hx hpc ht =>
      rw [ht]
      exact ListEdit.forall_mem_set h
        (hentry pc c hpc (Or.inr (h _ (List.mem_of_getElem? hx))))
  | move i x y hx hxy ht =>
      rw [ht]
      exact ListEdit.forall_mem_set h (hmoves x y hxy (h x (List.mem_of_getElem? hx)))

/-- No step takes an interface out of line. -/
lemma ok_step {a : Action} (h : ∀ x ∈ s.interfaces, x.Ok) (hst : step s a = some t) :
    ∀ x ∈ t.interfaces, x.Ok := by
  refine forall_step hst ?_ ?_ h
  · rintro pc c hpc -
    cases hpc <;> trivial
  · rintro _ _ (_ | _ | _ | ⟨c, cause, hacc⟩ | _ | _ | _ | ⟨c, c', pc, hc⟩) hx
    all_goals try trivial
    · exact ⟨c, rfl, hacc⟩
    · cases pc with
      | connecting cause => cases hx
      | decRef cause => exact ⟨c', rfl, hc⟩
      | _ => trivial

end change

end Interface
