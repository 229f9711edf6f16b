/-
# Message buffers

A `pop_buffer` holds a message: a header and a growing vector of bytes, the first 20 of which
are kept free for the header words.  `Pack` appends arrays of arithmetic types and strings at
the end, `UnPack` reads them back from a position that only moves forward.  This file has the
state of a buffer, the vector operations the code uses, and the part of `pop_buffer` that is
shared by its two encodings (`lib/core/buffer.cc`).

A call ends in one of three ways: it returns, it throws a C++ exception, or it touches memory
outside the vector, which C++ leaves undefined.
-/
import PopCpp.Lib.Bytes
import PopCpp.Lib.CInt

namespace PopCpp.Buffer

open Bytes CInt

/-! ### Values -/

/-- The arithmetic types of which a buffer packs arrays. -/
inductive Kind where
  | int
  | unsigned
  | long
  | ulong
  | short
  | ushort
  | bool
  | char
  | uchar
  | schar
  | float
  | double
deriving DecidableEq, Repr

namespace Kind

/-- `sizeof`, on a 64-bit machine. -/
def size : Kind → ℕ
  | .int => 4
  | .unsigned => 4
  | .long => 8
  | .ulong => 8
  | .short => 2
  | .ushort => 2
  | .bool => 1
  | .char => 1
  | .uchar => 1
  | .schar => 1
  | .float => 4
  | .double => 8

/-- The values of a type.  Floating point numbers are given by their bits: no function here
computes with them. -/
abbrev Val : Kind → Type
  | .int => BitVec 32
  | .unsigned => BitVec 32
  | .long => BitVec 64
  | .ulong => BitVec 64
  | .short => BitVec 16
  | .ushort => BitVec 16
  | .bool => Bool
  | .char => UInt8
  | .uchar => UInt8
  | .schar => UInt8
  | .float => BitVec 32
  | .double => BitVec 64

/-- The bytes of a value in memory; the machine is little-endian. -/
def bytes : (k : Kind) → k.Val → List UInt8
  | .int, v => le 4 v.toNat
  | .unsigned, v => le 4 v.toNat
  | .long, v => le 8 v.toNat
  | .ulong, v => le 8 v.toNat
  | .short, v => le 2 v.toNat
  | .ushort, v => le 2 v.toNat
  | .bool, v => [if v then 1 else 0]
  | .char, v => [v]
  | .uchar, v => [v]
  | .schar, v => [v]
  | .float, v => le 4 v.toNat
  | .double, v => le 8 v.toNat

/-- The value that these bytes of memory hold. -/
def ofBytes : (k : Kind) → List UInt8 → k.Val
  | .int, bs => BitVec.ofNat 32 (ofLe bs)
  | .unsigned, bs => BitVec.ofNat 32 (ofLe bs)
  | .long, bs => BitVec.ofNat 64 (ofLe bs)
  | .ulong, bs => BitVec.ofNat 64 (ofLe bs)
  | .short, bs => BitVec.ofNat 16 (ofLe bs)
  | .ushort, bs => BitVec.ofNat 16 (ofLe bs)
  | .bool, bs => bs.headD 0 != 0
  | .char, bs => bs.headD 0
  | .uchar, bs => bs.headD 0
  | .schar, bs => bs.headD 0
  | .float, bs => BitVec.ofNat 32 (ofLe bs)
  | .double, bs => BitVec.ofNat 64 (ofLe bs)

/-- The first `n` elements of an array with these bytes. -/
def elements (k : Kind) : ℕ → List UInt8 → List k.Val
  | 0, _ => []
  | n + 1, bs => k.ofBytes (bs.take k.size) :: k.elements n (bs.drop k.size)

end Kind

/-- The bytes of a text of the source. -/
def text (s : String) : List UInt8 := s.toUTF8.toList

lemma length_toList_loop (bs : ByteArray) (i : ℕ) (r : List UInt8) :
    (ByteArray.toList.loop bs i r).length = r.length + (bs.size - i) := by
  fun_induction ByteArray.toList.loop bs i r with
  | case1 i r h ih =>
      rw [ih, List.length_cons]
      omega
  | case2 i r h =>
      rw [List.length_reverse]
      omega

lemma length_text (s : String) : (text s).length = s.utf8ByteSize := by
  rw [text, ByteArray.toList, length_toList_loop, List.length_nil, Nat.zero_add, Nat.sub_zero]
  rfl

/-! ### Exceptions -/

def USER_DEFINE_ERROR : ℕ := 10000
def POP_BUFFER_FORMAT : ℕ := USER_DEFINE_ERROR + 7
def UNKNOWN_EXCEPTION : ℕ := USER_DEFINE_ERROR + 17

/-- A `pop_exception`: `errcode` and `info`. -/
structure PopException where
  code : BitVec 32
  info : List UInt8
deriving DecidableEq, Repr

/-- What a C++ `throw` throws. -/
inductive Thrown where
  /-- A value of an arithmetic type. -/
  | value (k : Kind) (v : k.Val)
  /-- A `char*`: null, or the bytes it points to. -/
  | charPtr (p : Option (List UInt8))
  | popException (e : PopException)
  /-- A `pop_interface`. -/
  | interface
  /-- `std::length_error`, from the vector. -/
  | lengthError

/-- `pop_exception::pop_throw(reason)`. -/
def popThrow (reason : String) : Thrown :=
  .popException ⟨BitVec.ofNat 32 UNKNOWN_EXCEPTION, text reason⟩

/-- `pop_exception::pop_throw(POP_BUFFER_FORMAT, reason)`. -/
def popThrowFormat (reason : String) : Thrown :=
  .popException ⟨BitVec.ofNat 32 POP_BUFFER_FORMAT, text ("Bad paroc package format: " ++ reason)⟩

/-! ### The state of a buffer -/

/-- A `pop_message_header`; `classId`, `methodId` and `semantics` are the array `id`. -/
structure Header where
  type : BitVec 32
  classId : BitVec 32
  methodId : BitVec 32
  semantics : BitVec 32
  exception : BitVec 32
deriving DecidableEq, Repr

/-- The members of `pop_buffer_xdr` and of `pop_buffer_raw`. -/
structure PopBuffer where
  header : Header
  unpackpos : ℤ
  packeddata : List UInt8
deriving DecidableEq, Repr

inductive Result (α : Type) where
  | ok (a : α) (b : PopBuffer)
  | throws (e : Thrown) (b : PopBuffer)
  | undefined

/-- A call of a member function that returns an `α`. -/
def BufM (α : Type) : Type := PopBuffer → Result α

namespace BufM

variable {α β : Type}

protected def pure (a : α) : BufM α := fun b => .ok a b

protected def bind (m : BufM α) (f : α → BufM β) : BufM β := fun b =>
  match m b with
  | .ok a b' => f a b'
  | .throws e b' => .throws e b'
  | .undefined => .undefined

instance : Monad BufM where
  pure := BufM.pure
  bind := BufM.bind

@[simp] lemma pure_apply (a : α) (b : PopBuffer) : (pure a : BufM α) b = .ok a b := rfl

lemma bind_apply (m : BufM α) (f : α → BufM β) (b : PopBuffer) :
    (m >>= f) b = match m b with
      | .ok a b' => f a b'
      | .throws e b' => .throws e b'
      | .undefined => .undefined :=
  rfl

lemma bind_ok {m : BufM α} {f : α → BufM β} {b b' : PopBuffer} {a : α} (h : m b = .ok a b') :
    (m >>= f) b = f a b' := by
  rw [bind_apply, h]

/-- What a call that returned has done first. -/
lemma bind_eq_ok {m : BufM α} {f : α → BufM β} {b b'' : PopBuffer} {c : β} :
    (m >>= f) b = .ok c b'' ↔ ∃ a b', m b = .ok a b' ∧ f a b' = .ok c b'' := by
  rw [bind_apply]
  cases m b <;> simp

lemma bind_throws {m : BufM α} {f : α → BufM β} {b b' : PopBuffer} {e : Thrown}
    (h : m b = .throws e b') : (m >>= f) b = .throws e b' := by
  rw [bind_apply, h]

end BufM

/-! ### The vector -/

/-- The state of the buffer. -/
def this : BufM PopBuffer := fun b => .ok b b

def throwing {α : Type} (e : Thrown) : BufM α := fun b => .throws e b

/-- `packeddata.resize(n)`: new elements are 0. -/
def resize (n : ℕ) : BufM Unit := fun b =>
  if n < 2 ^ 63 then
    .ok () { b with
      packeddata := b.packeddata.take n ++ List.replicate (n - b.packeddata.length) 0 }
  else .throws .lengthError b

/-- Writing bytes at an offset of `packeddata.data()`. -/
def store (pos : ℤ) (bs : List UInt8) : BufM Unit := fun b =>
  if bs = [] then .ok () b
  else if 0 ≤ pos ∧ pos + bs.length ≤ b.packeddata.length then
    .ok () { b with
      packeddata := b.packeddata.take pos.toNat ++ bs ++ b.packeddata.drop (pos.toNat + bs.length) }
  else .undefined

/-- Reading `n` bytes at an offset of `packeddata.data()`. -/
def load (pos : ℤ) (n : ℕ) : BufM (List UInt8) := fun b =>
  if 0 ≤ pos ∧ pos + n ≤ b.packeddata.length then
    .ok ((b.packeddata.drop pos.toNat).take n) b
  else .undefined

/-- `unpackpos += k`. -/
def advance (k : ℤ) : BufM Unit := fun b =>
  .ok () { b with unpackpos := wrap (b.unpackpos + k) }

/-- `CheckUnPack(sz)`, of the class named in the text. -/
def checkUnPack (reason : String) (sz : ℤ) : BufM Unit := fun b =>
  if sizeT (wrap (sz + b.unpackpos)) > b.packeddata.length then .throws (popThrowFormat reason) b
  else .ok () b

/-- `Pack(const char*, n)`, the same in both classes. -/
def packChar (data : List UInt8) : BufM Unit :=
  let n : ℤ := data.length
  if n ≤ 0 then pure ()
  else do
    let b ← this
    let t := wrap b.packeddata.length
    resize (sizeT (wrap (t + align4 n)))
    store t data

/-- `UnPack(char*, n)`, the same in both classes but for the text of the exception. -/
def unPackChar (reason : String) (n : ℤ) : BufM (List UInt8) :=
  if n ≤ 0 then pure []
  else do
    checkUnPack reason n
    let b ← this
    let data ← load b.unpackpos n.toNat
    advance (align4 n)
    pure data

/-! ### The virtual functions -/

/-- What a buffer class overrides: `Reset`, `Pack` and `UnPack` of the arithmetic types, and
how an `int` of the header is laid out. -/
structure Format where
  reset : BufM Unit
  pack : (k : Kind) → List k.Val → BufM Unit
  unPack : (k : Kind) → ℤ → BufM (List k.Val)
  putWord : BitVec 32 → List UInt8
  getWord : List UInt8 → BitVec 32

/-- A buffer as its constructor makes it; the constructor of the header sets the type only. -/
def empty (h : Header) : PopBuffer where
  header := { h with type := -1 }
  unpackpos := 20
  packeddata := List.replicate 20 0

section Strings

variable (F : Format)

/-- `Pack(&x, 1)` for an `int`. -/
def packInt1 (x : ℤ) : BufM Unit := F.pack .int [BitVec.ofInt 32 x]

/-- `UnPack(&x, 1)` for an `int`. -/
def unPackInt1 : BufM ℤ := do
  let xs ← F.unPack .int 1
  pure ((xs.headD 0).toInt)

/-- The string that a `char` array holds, up to its first NUL. -/
def cString (bs : List UInt8) : Option (List UInt8) :=
  if 0 ∈ bs then some (bs.takeWhile (· != 0)) else none

/-- The body of the loop of `Pack(const std::string*, n)`. -/
def packString (s : List UInt8) : BufM Unit := do
  let len := wrap (s.length + 1)
  packInt1 F len
  if len > 0 then F.pack .char ((s ++ [0]).take len.toNat) else pure ()

/-- `*list = tmpstr.data()`; without a NUL it runs past the end of the array. -/
def assignString (tmpstr : List UInt8) : BufM (List UInt8) :=
  match cString tmpstr with
  | some s => pure s
  | none => fun _ => .undefined

/-- The body of the loop of `UnPack(std::string*, n)`. -/
def unPackString : BufM (List UInt8) := do
  let len ← unPackInt1 F
  if len > 0 then do
    let tmpstr ← F.unPack .char len
    assignString tmpstr
  else pure []

/-- `Pack(const std::string*, n)`. -/
def packStrings : List (List UInt8) → BufM Unit
  | [] => pure ()
  | s :: ss => do
      packString F s
      packStrings ss

/-- `UnPack(std::string*, n)`. -/
def unPackStrings : ℕ → BufM (List (List UInt8))
  | 0 => pure []
  | n + 1 => do
      let s ← unPackString F
      let ss ← unPackStrings n
      pure (s :: ss)

end Strings

/-! ### Sequences of calls -/

/-- What one call of `Pack` is given. -/
inductive Item where
  | array (k : Kind) (vs : List k.Val)
  | strings (ss : List (List UInt8))

/-- What the matching call of `UnPack` is told: the type and the count. -/
inductive Shape where
  | array (k : Kind) (n : ℕ)
  | strings (n : ℕ)
deriving DecidableEq, Repr

def Item.shape : Item → Shape
  | .array k vs => .array k vs.length
  | .strings ss => .strings ss.length

section Sequences

variable (F : Format)

def packItem : Item → BufM Unit
  | .array k vs => F.pack k vs
  | .strings ss => packStrings F ss

def unPackItem : Shape → BufM Item
  | .array k n => do
      let vs ← F.unPack k n
      pure (.array k vs)
  | .strings n => do
      let ss ← unPackStrings F n
      pure (.strings ss)

def packAll : List Item → BufM Unit
  | [] => pure ()
  | i :: is => do
      packItem F i
      packAll is

def unPackAll : List Shape → BufM (List Item)
  | [] => pure []
  | s :: ss => do
      let i ← unPackItem F s
      let is ← unPackAll ss
      pure (i :: is)

end Sequences

end PopCpp.Buffer
