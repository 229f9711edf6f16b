/-
# The number of elements of an array

A `TypeArray` keeps the dimensions of an array as they stand in the program, `[e1]...[en]`, and
`GetCardinalSize` makes the text `(e1)*...*(en)` of them in one pass.  It counts the open brackets,
except in string literals, and replaces only those that open and close a dimension.  Brackets
within a dimension are copied, and so is every byte of a string literal, also a quote after a
backslash.

The text is a token of the parser and ends with a zero byte; nothing behind this is read.  The text
that is written may be of any length.
-/
import PopCpp.Parser.ReadUntil
import PopCpp.Parser.TypeGraph

namespace Parser

/-- The byte of `[`. -/
def lbracket : UInt8 := 91

/-- The byte of `]`. -/
def rbracket : UInt8 := 93

/-- The byte of `*`. -/
def asterisk : UInt8 := 42

namespace TypeArray

/-! ### `GetCardinalSize` -/

/-- The variables of the loop. -/
structure Scan where
  openbracket : ℤ
  ignore : Bool
  firstdim : Bool
deriving DecidableEq

/-- A turn of the loop at a byte that does not follow a backslash: what is written. -/
def scanByte (s : Scan) (ch : UInt8) : Scan × List UInt8 :=
  if ch = dquote then ({ s with ignore := !s.ignore }, [ch])
  else if s.ignore then (s, [ch])
  else if ch = lbracket then
    if s.openbracket = 0 then
      ({ s with openbracket := s.openbracket + 1, firstdim := false },
        if s.firstdim then [lparen] else [asterisk, lparen])
    else ({ s with openbracket := s.openbracket + 1 }, [ch])
  else if ch = rbracket then
    ({ s with openbracket := s.openbracket - 1 },
      [if s.openbracket - 1 = 0 then rparen else ch])
  else (s, [ch])

/-- The loop.  There is no result if it reads behind the last byte of the text. -/
def cardinalLoop : Scan → List UInt8 → Option (List UInt8)
  | _, [] => none
  | s, ch :: tmpindex =>
      if ch = 0 then some [0]
      else if s.ignore = true ∧ ch = backslash then
        match tmpindex with
        | [] => none
        | escaped :: tmpindex => (cardinalLoop s tmpindex).map fun size => ch :: escaped :: size
      else
        (cardinalLoop (scanByte s ch).1 tmpindex).map fun size => (scanByte s ch).2 ++ size

/-- `GetCardinalSize`: the bytes that are written, with the zero byte at the end. -/
def getCardinalSize (cardinal : List UInt8) : Option (List UInt8) :=
  cardinalLoop ⟨0, false, true⟩ (cardinal ++ [0])

/-! ### Dimensions -/

/-- Between the quotes of a string literal: a backslash comes with the byte after it, and no other
byte is a quote. -/
inductive StringBody : List UInt8 → Prop
  | nil : StringBody []
  | plain {ch : UInt8} {w : List UInt8} : ch ≠ 0 → ch ≠ dquote → ch ≠ backslash →
      StringBody w → StringBody (ch :: w)
  | escape {ch : UInt8} {w : List UInt8} : ch ≠ 0 → StringBody w →
      StringBody (backslash :: ch :: w)

/-- The square brackets that are not in a string literal are balanced. -/
inductive Balanced : List UInt8 → Prop
  | nil : Balanced []
  | byte {ch : UInt8} {w : List UInt8} : ch ≠ 0 → ch ≠ dquote → ch ≠ lbracket → ch ≠ rbracket →
      Balanced w → Balanced (ch :: w)
  | literal {body w : List UInt8} : StringBody body → Balanced w →
      Balanced (dquote :: (body ++ dquote :: w))
  | brackets {v w : List UInt8} : Balanced v → Balanced w →
      Balanced (lbracket :: (v ++ rbracket :: w))

/-- The expression of a dimension. -/
abbrev Expression := {w : List UInt8 // Balanced w}

/-- `[e1]...[en]` -/
def cardinalText (dims : List Expression) : List UInt8 :=
  dims.flatMap fun e => lbracket :: (e.1 ++ [rbracket])

/-- `(e1)*...*(en)` -/
def productText (dims : List Expression) : List UInt8 :=
  [asterisk].intercalate (dims.map fun e => lparen :: (e.1 ++ [rparen]))

/-! ### Within a dimension -/

section

variable {s s' : Scan} {ch : UInt8} {w out rest : List UInt8}

/-- A byte that is not escaped. -/
lemma cardinalLoop_byte (hbyte : scanByte s ch = (s', out)) (hnul : ch ≠ 0)
    (h : s.ignore = false ∨ ch ≠ backslash) :
    cardinalLoop s (ch :: rest) = (cardinalLoop s' rest).map fun size => out ++ size := by
  have hescape : ¬(s.ignore = true ∧ ch = backslash) := by
    rintro ⟨hignore, hch⟩
    rcases h with h | h
    · exact Bool.false_ne_true (h.symm.trans hignore)
    · exact h hch
  rw [cardinalLoop.eq_def]
  dsimp only
  rw [if_neg hnul, if_neg hescape, hbyte]

/-- The literal up to its closing quote. -/
lemma cardinalLoop_stringBody (h : StringBody w) (hignore : s.ignore = true) :
    cardinalLoop s (w ++ rest) = (cardinalLoop s rest).map fun size => w ++ size := by
  induction h with
  | nil => exact (congrFun Option.map_id _).symm
  | @plain ch w hnul hdquote hbackslash _ ih =>
      have hbyte : scanByte s ch = (s, [ch]) := by rw [scanByte, if_neg hdquote, if_pos hignore]
      rw [List.cons_append, cardinalLoop_byte hbyte hnul (.inr hbackslash), ih, Option.map_map]
      rfl
  | @escape ch w _ _ ih =>
      rw [List.cons_append, List.cons_append, cardinalLoop, if_neg (by decide),
        if_pos ⟨hignore, rfl⟩, ih, Option.map_map]
      rfl

/-- Everything in a dimension is copied, the brackets too. -/
lemma cardinalLoop_balanced (h : Balanced w) (hignore : s.ignore = false)
    (hopen : 0 < s.openbracket) :
    cardinalLoop s (w ++ rest) = (cardinalLoop s rest).map fun size => w ++ size := by
  induction h generalizing s rest with
  | nil => exact (congrFun Option.map_id _).symm
  | @byte ch w hnul hdquote hlbracket hrbracket _ ih =>
      have hbyte : scanByte s ch = (s, [ch]) := by
        rw [scanByte, if_neg hdquote, if_neg (by simp [hignore]), if_neg hlbracket,
          if_neg hrbracket]
      rw [List.cons_append, cardinalLoop_byte hbyte hnul (.inl hignore), ih hignore hopen,
        Option.map_map]
      rfl
  | @literal body w hbody _ ih =>
      have hstart : scanByte s dquote = ({ s with ignore := true }, [dquote]) := by
        rw [scanByte, if_pos rfl, hignore, Bool.not_false]
      have hend : scanByte { s with ignore := true } dquote = (s, [dquote]) := by
        rw [scanByte, if_pos rfl, Bool.not_true, ← hignore]
      rw [List.cons_append, List.append_assoc, List.cons_append,
        cardinalLoop_byte hstart (by decide) (.inl hignore), cardinalLoop_stringBody hbody rfl,
        cardinalLoop_byte hend (by decide) (.inr (by decide)), ih hignore hopen]
      simp only [Option.map_map, Function.comp_def, List.cons_append, List.nil_append,
        List.append_assoc]
  | @brackets v w _ _ ihv ihw =>
      have hstart : scanByte s lbracket =
          ({ s with openbracket := s.openbracket + 1 }, [lbracket]) := by
        rw [scanByte, if_neg (by decide), if_neg (by simp [hignore]), if_pos rfl,
          if_neg hopen.ne']
      have hend : scanByte { s with openbracket := s.openbracket + 1 } rbracket =
          (s, [rbracket]) := by
        rw [scanByte, if_neg (by decide), if_neg (by simp [hignore]), if_neg (by decide),
          if_pos rfl, Int.add_sub_cancel, if_neg hopen.ne']
      have hopen' : 0 < s.openbracket + 1 := by omega
      rw [List.cons_append, List.append_assoc, List.cons_append,
        cardinalLoop_byte hstart (by decide) (.inl hignore),
        ihv (s := { s with openbracket := s.openbracket + 1 }) hignore hopen',
        cardinalLoop_byte hend (by decide) (.inl hignore), ihw hignore hopen]
      simp only [Option.map_map, Function.comp_def, List.cons_append, List.nil_append,
        List.append_assoc]

end

/-! ### The dimensions -/

section

variable (e : Expression) (dims : List Expression)

/-- One dimension: its own brackets are replaced. -/
lemma cardinalLoop_dimension (firstdim : Bool) (rest : List UInt8) :
    cardinalLoop ⟨0, false, firstdim⟩ (lbracket :: (e.1 ++ [rbracket]) ++ rest) =
      (cardinalLoop ⟨0, false, false⟩ rest).map fun size =>
        (if firstdim then [lparen] else [asterisk, lparen]) ++ (e.1 ++ [rparen] ++ size) := by
  have hstart : scanByte ⟨0, false, firstdim⟩ lbracket =
      (⟨1, false, false⟩, if firstdim then [lparen] else [asterisk, lparen]) := rfl
  have hend : scanByte ⟨1, false, false⟩ rbracket = (⟨0, false, false⟩, [rparen]) := rfl
  rw [List.cons_append, List.append_assoc, List.singleton_append,
    cardinalLoop_byte hstart (by decide) (.inl rfl),
    cardinalLoop_balanced e.2 rfl Int.one_pos, cardinalLoop_byte hend (by decide) (.inl rfl)]
  simp only [Option.map_map, Function.comp_def, List.append_assoc]

/-- The dimensions behind the first one. -/
lemma cardinalLoop_dimensions :
    cardinalLoop ⟨0, false, false⟩ (cardinalText dims ++ [0]) =
      some (dims.flatMap (fun e => asterisk :: lparen :: (e.1 ++ [rparen])) ++ [0]) := by
  induction dims with
  | nil => rfl
  | cons e dims ih =>
      rw [cardinalText, List.flatMap_cons, ← cardinalText, List.append_assoc,
        cardinalLoop_dimension, ih, List.flatMap_cons]
      simp

lemma productText_cons :
    productText (e :: dims) = lparen :: (e.1 ++ [rparen]) ++
      dims.flatMap fun e => asterisk :: lparen :: (e.1 ++ [rparen]) := by
  induction dims generalizing e with
  | nil => simp [productText]
  | cons e' dims ih =>
      have hcons : productText (e :: e' :: dims) =
          lparen :: (e.1 ++ [rparen]) ++ ([asterisk] ++ productText (e' :: dims)) := by
        simp [productText, List.intercalate_cons_cons]
      rw [hcons, ih, List.flatMap_cons]
      simp

/-- **Array dimensions.**  The text that is written is the product of the dimensions, and nothing
behind the end of their text is read. -/
theorem getCardinalSize_eq_product :
    getCardinalSize (cardinalText dims) = some (productText dims ++ [0]) := by
  cases dims with
  | nil => rfl
  | cons e dims =>
      rw [getCardinalSize, cardinalText, List.flatMap_cons, ← cardinalText, List.append_assoc,
        cardinalLoop_dimension, cardinalLoop_dimensions, productText_cons]
      simp

end

/-- A bracket in a string literal opens and closes nothing. -/
example : getCardinalSize [lbracket, dquote, rbracket, dquote, rbracket] =
    some [lparen, dquote, rbracket, dquote, rparen, 0] := by
  decide

end TypeArray

/-! ### The texts of the types -/

section

open TypeArray

lemma bytesOf_append (s t : String) : bytesOf (s ++ t) = bytesOf s ++ bytesOf t := by
  rw [bytesOf, String.toList_append, List.map_append]
  rfl

lemma bytesOf_join (l : List String) : bytesOf (String.join l) = l.flatMap bytesOf := by
  rw [bytesOf, String.toList_join, List.map_flatMap]
  rfl

lemma bytesOf_intercalate (s : String) (l : List String) :
    bytesOf (s.intercalate l) = (bytesOf s).intercalate (l.map bytesOf) := by
  induction l with
  | nil => rfl
  | cons t l ih =>
      cases l with
      | nil => rw [String.intercalate_singleton, List.map_singleton, List.intercalate_singleton]
      | cons u l =>
          rw [String.intercalate_cons_cons, bytesOf_append, bytesOf_append, ih]
          simp only [List.map_cons, List.intercalate_cons_cons]

/-- The size of an array as the parser's types have it is the text that the loop writes. -/
theorem Cardinal.getCardinalSize_eq_loop (c : Cardinal)
    (h : ∀ d ∈ c.dims, Balanced (bytesOf d.text)) :
    TypeArray.getCardinalSize (bytesOf c.text) = some (bytesOf c.getCardinalSize ++ [0]) := by
  have htext : bytesOf c.text =
      cardinalText (c.dims.pmap (fun d hd => ⟨bytesOf d.text, hd⟩) h) := by
    rw [Cardinal.text, bytesOf_join, List.flatMap_map, cardinalText, List.flatMap_def,
      List.flatMap_def, List.map_pmap]
    simp only [bytesOf_append, List.append_assoc, List.pmap_eq_map]
    rfl
  have hproduct : bytesOf c.getCardinalSize =
      productText (c.dims.pmap (fun d hd => ⟨bytesOf d.text, hd⟩) h) := by
    rw [Cardinal.getCardinalSize, bytesOf_intercalate, productText, List.map_pmap, List.map_map]
    simp only [Function.comp_def, bytesOf_append, List.append_assoc, List.pmap_eq_map]
    rfl
  rw [htext, hproduct, getCardinalSize_eq_product]

end

end Parser
