/-
# The raw encoding

`pop_buffer_raw` (`lib/dynamic/buffer_raw.cc`) copies arrays as they are in memory, each
padded to a multiple of 4 bytes.  Everything goes through `Pack(const char*, n)` and
`UnPack(char*, n)` with the number of bytes, which is computed as a `size_t` and passed as an
`int`.
-/
import PopCpp.Buffer.Model

namespace PopCpp.Buffer

open Bytes CInt

namespace Raw

/-- `Reset()`: the first 20 bytes stay as they are. -/
def reset : BufM Unit := do
  (fun b => .ok () { b with unpackpos := 20 })
  resize 20

/-- `Pack(const T*, n)`: `Pack((const char*)data, n * sizeof(T))`. -/
def pack (k : Kind) (data : List k.Val) : BufM Unit :=
  let m := wrap (data.length * k.size)
  packChar ((data.flatMap k.bytes).take m.toNat)

/-- `UnPack(T*, n)`: `UnPack((char*)data, n * sizeof(T))`. -/
def unPack (k : Kind) (n : ℤ) : BufM (List k.Val) := do
  let bs ← unPackChar "Wrong buffer format in pop_buffer_raw::CheckUnPack" (wrap (n * k.size))
  pure (k.elements (bs.length / k.size) bs)

end Raw

/-- `pop_buffer_raw`; the header words are in the byte order of the machine. -/
def raw : Format where
  reset := Raw.reset
  pack := Raw.pack
  unPack := Raw.unPack
  putWord v := le 4 v.toNat
  getWord bs := BitVec.ofNat 32 (ofLe bs)

lemma raw_pack : raw.pack = Raw.pack := by
  rw [raw]

lemma raw_unPack : raw.unPack = Raw.unPack := by
  rw [raw]

end PopCpp.Buffer
