/-
# The XDR encoding

`pop_buffer_xdr` (`lib/dynamic/buffer_xdr.cc`).  The numbers are encoded by the XDR library of
the system, which is a parameter here: for each type it has a procedure that encodes one value
into some bytes, or refuses to, and decodes one value from so many bytes.  `xdr_vector` runs
the procedure over an array, in a window of memory that `xdrmem_create` was given, and fails
when the window is used up.  The window is what the code asks for, not what the vector has.

`long` and `unsigned long` get 8 bytes of room for each element and use 4.
-/
import PopCpp.Buffer.Model

namespace PopCpp.Buffer

open Bytes CInt

/-! ### The XDR library -/

/-- An `xdrproc_t` over memory. -/
structure XdrProc (α : Type) where
  /-- What `XDR_ENCODE` writes, unless it returns `FALSE`. -/
  put : α → Option (List UInt8)
  /-- How many bytes `XDR_DECODE` reads. -/
  width : ℕ
  /-- What `XDR_DECODE` makes of them, unless it returns `FALSE`. -/
  get : List UInt8 → Option α

/-- The procedures that the code uses. -/
structure XdrLib where
  xdr_int : XdrProc (BitVec 32)
  xdr_u_int : XdrProc (BitVec 32)
  xdr_long : XdrProc (BitVec 64)
  xdr_u_long : XdrProc (BitVec 64)
  xdr_short : XdrProc (BitVec 16)
  xdr_u_short : XdrProc (BitVec 16)
  xdr_float : XdrProc (BitVec 32)
  xdr_double : XdrProc (BitVec 64)

/-- The procedure writes the number `rep v` for `v`, as `w` bytes with the most significant
first, refuses a `v` that has no `rep`, and reads `w` bytes as `val` of their number. -/
structure XdrProc.Encodes {α : Type} (P : XdrProc α) (w : ℕ) (rep : α → Option ℕ)
    (val : ℕ → α) : Prop where
  put_eq : ∀ v, P.put v = (rep v).map (be w)
  width_eq : P.width = w
  get_eq : ∀ bs : List UInt8, bs.length = w → P.get bs = some (val (ofBe bs))

/-- A `long` is encoded when it fits in 32 bits. -/
def longCode (v : BitVec 64) : Option ℕ :=
  if (v.setWidth 32).signExtend 64 = v then some (v.setWidth 32).toNat else none

def longValue (m : ℕ) : BitVec 64 := (BitVec.ofNat 32 m).signExtend 64

/-- An `unsigned long` is encoded when it fits in 32 bits. -/
def uLongCode (v : BitVec 64) : Option ℕ :=
  if (v.setWidth 32).setWidth 64 = v then some (v.setWidth 32).toNat else none

def uLongValue (m : ℕ) : BitVec 64 := (BitVec.ofNat 32 m).setWidth 64

/-- A `short` is widened to 32 bits with its sign. -/
def shortCode (v : BitVec 16) : Option ℕ := some (v.signExtend 32).toNat

def uShortCode (v : BitVec 16) : Option ℕ := some (v.setWidth 32).toNat

def shortValue (m : ℕ) : BitVec 16 := (BitVec.ofNat 32 m).setWidth 16

/-- The documented behaviour of the library: everything takes 4 bytes, a `double` 8. -/
structure XdrLib.Documented (lib : XdrLib) : Prop where
  int : lib.xdr_int.Encodes 4 (fun v => some v.toNat) (BitVec.ofNat 32)
  u_int : lib.xdr_u_int.Encodes 4 (fun v => some v.toNat) (BitVec.ofNat 32)
  long : lib.xdr_long.Encodes 4 longCode longValue
  u_long : lib.xdr_u_long.Encodes 4 uLongCode uLongValue
  short : lib.xdr_short.Encodes 4 shortCode shortValue
  u_short : lib.xdr_u_short.Encodes 4 uShortCode shortValue
  float : lib.xdr_float.Encodes 4 (fun v => some v.toNat) (BitVec.ofNat 32)
  double : lib.xdr_double.Encodes 8 (fun v => some v.toNat) (BitVec.ofNat 64)

section Vector

variable {α : Type} (P : XdrProc α)

/-- `xdr_vector` with `XDR_ENCODE` in a window: what it writes, and whether it returns `TRUE`. -/
def vectorPut : ℕ → List α → List UInt8 × Bool
  | _, [] => ([], true)
  | window, v :: vs =>
      match P.put v with
      | none => ([], false)
      | some bs =>
          if window < bs.length then ([], false)
          else
            let rest := vectorPut (window - bs.length) vs
            (bs ++ rest.1, rest.2)

/-- How `xdr_vector` with `XDR_DECODE` ends. -/
inductive Decoded (α : Type) where
  | done (vs : List α)
  /-- It returns `FALSE`. -/
  | failed
  /-- It reads past the end of the vector. -/
  | undefined

/-- `xdr_vector` with `XDR_DECODE` for `n` elements in a window, over the bytes of the vector
from there on. -/
def vectorGet : ℕ → ℕ → List UInt8 → Decoded α
  | 0, _, _ => .done []
  | n + 1, window, bs =>
      if window < P.width then .failed
      else if bs.length < P.width then .undefined
      else
        match P.get (bs.take P.width) with
        | none => .failed
        | some v =>
            match vectorGet n (window - P.width) (bs.drop P.width) with
            | .done vs => .done (v :: vs)
            | .failed => .failed
            | .undefined => .undefined

/-- Encoding an array at `dest`, in a window of `sz` bytes. -/
def encode (reason : String) (dest sz : ℤ) (data : List α) : BufM Unit := do
  let r := vectorPut P (uInt sz) data
  store dest r.1
  if r.2 then pure () else throwing (popThrow reason)

/-- Decoding `n` elements at `unpackpos`, in a window of `sz` bytes. -/
def decode (reason : String) (sz n : ℤ) : BufM (List α) := fun b =>
  let bs := if 0 ≤ b.unpackpos then b.packeddata.drop b.unpackpos.toNat else []
  match vectorGet P n.toNat (uInt sz) bs with
  | .done vs => .ok vs b
  | .failed => .throws (popThrow reason) b
  | .undefined => .undefined

/-- `Pack(const T*, n)` with `width` bytes of room for each element. -/
def packVector (width : ℤ) (reason : String) (data : List α) : BufM Unit :=
  let n : ℤ := data.length
  if n ≤ 0 then pure ()
  else do
    let b ← this
    let oldsize := wrap b.packeddata.length
    let sz := wrap (n * width)
    resize (sizeT (wrap (sz + oldsize)))
    encode P reason oldsize sz data

/-- `UnPack(T*, n)` with `width` bytes of room for each element. -/
def unPackVector (width : ℤ) (reason : String) (n : ℤ) : BufM (List α) :=
  if n ≤ 0 then pure []
  else do
    let sz := wrap (width * n)
    checkUnPack "Wrong buffer format in pop_buffer_xdr::CheckUnPack" sz
    let data ← decode P reason sz n
    advance sz
    pure data

end Vector

/-! ### The members of `pop_buffer_xdr` -/

namespace Xdr

variable (lib : XdrLib)

/-- `Reset()`. -/
def reset : BufM Unit := fun b =>
  .ok () { b with unpackpos := 20, packeddata := List.replicate 20 0 }

/-- `Pack(const int*, n)`: here `oldsize` is a `size_t`. -/
def packInt (data : List (BitVec 32)) : BufM Unit :=
  let n : ℤ := data.length
  if n ≤ 0 then pure ()
  else do
    let b ← this
    let oldsize : ℤ := b.packeddata.length
    let sz := wrap (n * 4)
    resize (sizeT (sz + oldsize))
    encode lib.xdr_int "Exception in serialization 1" oldsize sz data

def packUnsigned := packVector lib.xdr_u_int 4 "Exception in serialization 3"
def packLong := packVector lib.xdr_long 8 "Exception in serialization 5"
def packULong := packVector lib.xdr_u_long 8 "Exception in serialization 7"
def packShort := packVector lib.xdr_short 4 "Exception in serialization 9"
def packUShort := packVector lib.xdr_u_short 4 "Exception in serialization 11"
def packFloat := packVector lib.xdr_float 4 "Exception in serialization 13"
def packDouble := packVector lib.xdr_double 8 "Exception in serialization 14"

def unPackInt := unPackVector lib.xdr_int 4 "Exception in serialization 2"
def unPackUnsigned := unPackVector lib.xdr_u_int 4 "Exception in serialization 4"
def unPackLong := unPackVector lib.xdr_long 8 "Exception in serialization 6"
def unPackULong := unPackVector lib.xdr_u_long 8 "Exception in serialization 8"
def unPackShort := unPackVector lib.xdr_short 4 "Exception in serialization 10"
def unPackUShort := unPackVector lib.xdr_u_short 4 "Exception in serialization 12"
def unPackFloat := unPackVector lib.xdr_float 4 "Exception in serialization 13"
def unPackDouble := unPackVector lib.xdr_double 8 "Exception in serialization 15"

/-- `Pack(const bool*, n)`: room as for `n` characters, and a byte for each element. -/
def packBool (data : List Bool) : BufM Unit := packChar (data.map fun v => if v then 1 else 0)

def unPackChars := unPackChar "Wrong buffer format in pop_buffer_xdr::CheckUnPack"

/-- `UnPack(bool*, n)`: the loop counts `n` down to -1 before `unpackpos` is moved. -/
def unPackBool (n : ℤ) : BufM (List Bool) :=
  if n ≤ 0 then pure []
  else do
    checkUnPack "Wrong buffer format in pop_buffer_xdr::CheckUnPack" n
    let b ← this
    let data ← load b.unpackpos n.toNat
    advance (align4 (-1))
    pure (data.map (· != 0))

def pack : (k : Kind) → List k.Val → BufM Unit
  | .int => packInt lib
  | .unsigned => packUnsigned lib
  | .long => packLong lib
  | .ulong => packULong lib
  | .short => packShort lib
  | .ushort => packUShort lib
  | .bool => packBool
  | .char => packChar
  | .uchar => packChar
  | .schar => packChar
  | .float => packFloat lib
  | .double => packDouble lib

def unPack : (k : Kind) → ℤ → BufM (List k.Val)
  | .int => unPackInt lib
  | .unsigned => unPackUnsigned lib
  | .long => unPackLong lib
  | .ulong => unPackULong lib
  | .short => unPackShort lib
  | .ushort => unPackUShort lib
  | .bool => unPackBool
  | .char => unPackChars
  | .uchar => unPackChars
  | .schar => unPackChars
  | .float => unPackFloat lib
  | .double => unPackDouble lib

end Xdr

/-- `pop_buffer_xdr`; the header words are laid out by `popc_htonl`. -/
def xdr (lib : XdrLib) : Format where
  reset := Xdr.reset
  pack := Xdr.pack lib
  unPack := Xdr.unPack lib
  putWord v := be 4 v.toNat
  getWord bs := BitVec.ofNat 32 (ofBe bs)

end PopCpp.Buffer
