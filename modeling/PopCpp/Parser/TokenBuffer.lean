/-
# The tokens

`PutToken` stores the text of a token in `tokenbuf` and returns the place where it begins, which the
grammar keeps as the value of the token; `GetToken` gives the text at such a place.  The buffer is
used round and round, so that a token is overwritten at some time.

`tokenbuf` has 32000 bytes, but no token is put beyond the first 10000 unless it is that long
itself.  A place is an `int`.
-/
import Mathlib.Algebra.Order.Ring.Int
import Mathlib.Data.List.TakeWhile
import PopCpp.Lib.RoundBuffer

namespace Parser.TokenBuffer

open RoundBuffer

/-! ### `PutToken` and `GetToken` -/

/-- `tokenbuf`, and the offset of `tokenpos` in it, which is a null pointer at the beginning. -/
structure Tokens where
  tokenbuf : ℕ → UInt8
  tokenpos : Option ℕ

def start : Tokens := ⟨fun _ => 0, none⟩

/-- `tokenpos` after `if (tokenpos<tokenbuf || tokenpos+len>=tokenbuf+10000) tokenpos=tokenbuf;`,
as an offset. -/
def tokenPlace (tokenpos : Option ℕ) (len : ℕ) : ℕ :=
  match tokenpos with
  | none => 0
  | some pos => if 10000 ≤ pos + len then 0 else pos

/-- `PutToken(char *str)` -/
def putTokenStr (s : Tokens) (str : List UInt8) : Tokens × ℤ :=
  let len := str.length + 1
  let ret := tokenPlace s.tokenpos len
  (⟨write s.tokenbuf ret (str ++ [0]), some (ret + len)⟩, ret)

/-- `PutToken(char chr)` -/
def putTokenChr (s : Tokens) (chr : UInt8) : Tokens × ℤ :=
  let len := 2
  let ret := tokenPlace s.tokenpos len
  (⟨write (write s.tokenbuf ret [chr]) (ret + 1) [0], some (ret + 2)⟩, ret)

/-- The string at a place in `tokenbuf`. -/
def stringAt (tokenbuf : ℕ → UInt8) (pos : ℕ) : List UInt8 :=
  ((List.range (32000 - pos)).map fun i => tokenbuf (pos + i)).takeWhile (· ≠ 0)

/-- `GetToken`, which asserts that the place is in range. -/
def getToken (s : Tokens) (yyval : ℤ) : Option (List UInt8) :=
  if 0 ≤ yyval ∧ yyval < 10000 then some (stringAt s.tokenbuf yyval.toNat) else none

/-! ### Calls -/

/-- A call of `PutToken`. -/
inductive Call where
  | str (str : List UInt8) (noNul : 0 ∉ str)
  | chr (chr : UInt8)

namespace Call

/-- The text of the token. -/
def text : Call → List UInt8
  | str s _ => s
  | chr c => if c = 0 then [] else [c]

/-- What is stored. -/
def bytes : Call → List UInt8
  | str s _ => s ++ [0]
  | chr c => [c, 0]

/-- The size of the token with its final byte. -/
def size (c : Call) : ℕ := c.bytes.length

end Call

def putToken (s : Tokens) : Call → Tokens × ℤ
  | .str str _ => putTokenStr s str
  | .chr chr => putTokenChr s chr

/-- The tokens after these calls. -/
def run (calls : List Call) : Tokens := calls.foldl (fun s c => (putToken s c).1) start

/-- What a call returns after these calls. -/
def handle (before : List Call) (c : Call) : ℤ := (putToken (run before) c).2

/-- Every call returns a place in range, and the token is found there as it was stored until the
tokens stored after it are too large together. -/
structure Window (M : ℕ) (calls : List Call) : Prop where
  inRange : ∀ before c after, calls = before ++ c :: after →
    0 ≤ handle before c ∧ handle before c < 10000
  kept : ∀ before c after, calls = before ++ c :: after →
    (after.map Call.size).sum + M + c.size ≤ 10000 →
      getToken (run calls) (handle before c) = some c.text

/-! ### The buffer that is used round and round -/

/-- The tokens as such a buffer. -/
def Tokens.toBuf (s : Tokens) : Buf UInt8 := ⟨s.tokenbuf, s.tokenpos.getD 0⟩

section

variable {s : Tokens} {c : Call} {calls : List Call} {M p : ℕ}

lemma tokenPlace_eq (s : Tokens) (len : ℕ) :
    tokenPlace s.tokenpos len = place 10000 s.toBuf.pos len := by
  unfold tokenPlace place Tokens.toBuf
  cases s.tokenpos with
  | none => simp
  | some pos => rfl

/-- Both variants put a piece into the buffer. -/
lemma toBuf_putToken (s : Tokens) (c : Call) :
    (putToken s c).1.toBuf = put 10000 s.toBuf c.bytes ∧
      (putToken s c).2 = place 10000 s.toBuf.pos c.size := by
  cases c with
  | str str noNul =>
      have hlen : (Call.str str noNul).bytes.length = str.length + 1 := List.length_append
      rw [Call.size, put, hlen, ← tokenPlace_eq]
      exact ⟨rfl, rfl⟩
  | chr chr =>
      have hlen : (Call.chr chr).bytes.length = 2 := rfl
      rw [Call.size, put, hlen, ← tokenPlace_eq]
      exact ⟨congrArg (Buf.mk · _) (write_append s.tokenbuf _ [chr] [0]), rfl⟩

lemma toBuf_run_append (before after : List Call) :
    (run (before ++ after)).toBuf =
      putAll 10000 (run before).toBuf (after.map Call.bytes) := by
  rw [run, List.foldl_append, ← run]
  generalize run before = s
  induction after generalizing s with
  | nil => rfl
  | cons c after ih =>
      rw [List.foldl_cons, ih, (toBuf_putToken s c).1, List.map_cons]
      rfl

/-- The text ends with the first zero byte that is stored. -/
lemma Call.exists_bytes (c : Call) : 0 ∉ c.text ∧ ∃ rest, c.bytes = c.text ++ 0 :: rest := by
  cases c with
  | str str noNul => exact ⟨noNul, [], rfl⟩
  | chr chr =>
      by_cases hchr : chr = 0
      · subst hchr
        exact ⟨by decide, [0], rfl⟩
      · rw [text, if_neg hchr]
        exact ⟨fun h => hchr (List.mem_singleton.mp h).symm, [], rfl⟩

/-- A token in the buffer is found by its place. -/
lemma stringAt_of_holds {tokenbuf : ℕ → UInt8} (h : Holds tokenbuf p c.bytes)
    (hp : p + c.size ≤ 32000) : stringAt tokenbuf p = c.text := by
  have hcells : ((List.range c.size).map fun i => tokenbuf (p + i)) = c.bytes := by
    ext1 i
    by_cases hi : i < c.size
    · rw [List.getElem?_map, List.getElem?_range hi]
      exact h i hi
    · rw [List.getElem?_eq_none (by simpa using hi), List.getElem?_eq_none (not_lt.mp hi)]
  obtain ⟨hnul, rest, hbytes⟩ := c.exists_bytes
  have hsize : 32000 - p = c.size + (32000 - p - c.size) := by omega
  rw [stringAt, hsize, List.range_add, List.map_append, hcells, hbytes, List.append_assoc,
    List.takeWhile_append_of_pos, List.cons_append, List.takeWhile_cons_of_neg (by decide),
    List.append_nil]
  exact fun ch hch => decide_eq_true fun heq => hnul (heq ▸ hch)

end

/-- **Token window.** -/
theorem tokens_in_window {M : ℕ} {calls : List Call} (hM : M < 10000)
    (hsizes : ∀ c ∈ calls, c.size ≤ M) : Window M calls := by
  have hplace : ∀ before c after, calls = before ++ c :: after →
      handle before c = place 10000 (run before).toBuf.pos c.size ∧
        place 10000 (run before).toBuf.pos c.size + c.size < 10000 := by
    rintro before c after rfl
    have hsize : c.size ≤ M := hsizes c (List.mem_append_right _ List.mem_cons_self)
    exact ⟨(toBuf_putToken (run before) c).2, place_add_lt (by omega)⟩
  constructor
  · intro before c after hcalls
    obtain ⟨hhandle, hlt⟩ := hplace before c after hcalls
    omega
  · intro before c after hcalls htotal
    obtain ⟨hhandle, hlt⟩ := hplace before c after hcalls
    have hbuf : (run (before ++ [c])).toBuf = put 10000 (run before).toBuf c.bytes := by
      rw [toBuf_run_append]
      rfl
    have hrun : (run calls).toBuf =
        putAll 10000 (run (before ++ [c])).toBuf (after.map Call.bytes) := by
      rw [hcalls, ← toBuf_run_append, List.append_assoc, List.singleton_append]
    have hcome : Come 10000 M (place 10000 (run before).toBuf.pos c.size) c.bytes.length 0
        (put 10000 (run before).toBuf c.bytes).pos := .inl rfl
    have hkept : Holds (run calls).toBuf.cells (place 10000 (run before).toBuf.pos c.size)
        c.bytes := by
      rw [hrun, hbuf]
      refine (holds_write _ _ _).putAll hcome (by omega) ?_ ?_
      · intro piece hpiece
        obtain ⟨d, hd, rfl⟩ := List.mem_map.mp hpiece
        exact hsizes d (hcalls ▸ List.mem_append_right _ (List.mem_cons_of_mem _ hd))
      · rw [List.map_map, Nat.zero_add]
        exact htotal
    rw [getToken, hhandle, if_pos (by omega), Int.toNat_natCast]
    exact congrArg some (stringAt_of_holds hkept (by omega))

/-- A name of so many letters. -/
def name (n : ℕ) : Call := .str (List.replicate n 97) fun h =>
  absurd (List.eq_of_mem_replicate h) (by decide)

lemma size_name (n : ℕ) : (name n).size = n + 1 := by
  simp [Call.size, Call.bytes, name]

lemma putToken_name (s : Tokens) (n : ℕ) :
    (putToken s (name n)).1.tokenpos = some (tokenPlace s.tokenpos (n + 1) + (n + 1)) ∧
      (putToken s (name n)).2 = tokenPlace s.tokenpos (n + 1) := by
  simp [putToken, putTokenStr, name]

/-- The fourth of these names goes to the beginning of the buffer again, and the third is still
found. -/
theorem tokens_in_window_wrapped :
    Window 3000 [name 2999, name 2998, name 2997, name 2996] ∧
      handle [name 2999, name 2998, name 2997] (name 2996) = 0 ∧
      getToken (run [name 2999, name 2998, name 2997, name 2996])
        (handle [name 2999, name 2998] (name 2997)) = some (List.replicate 2997 97) := by
  have hwindow : Window 3000 [name 2999, name 2998, name 2997, name 2996] :=
    tokens_in_window (by decide) (by simp [size_name])
  refine ⟨hwindow, ?_, hwindow.kept [name 2999, name 2998] (name 2997) [name 2996] rfl ?_⟩
  · simp only [handle, run, List.foldl_cons, List.foldl_nil, putToken_name, start, tokenPlace]
    decide
  · simp [size_name]

end Parser.TokenBuffer
