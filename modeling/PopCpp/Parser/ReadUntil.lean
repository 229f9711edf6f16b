/-
# Reading up to a separator

`ReadUntil` of the lexer reads from the input up to the first byte of a set.  A closing bracket
does not count within brackets, but the brackets are counted from the place where the reading
starts.

A quote is meant to be read up to its counterpart, by a call of `ReadUntil` for it.  That call takes
the closing quote for one that opens a literal again, and so on, so that everything is read up to
the end of the input (`readUntil_quote`).  What such a call has read is overwritten, since the
caller does not go on in its buffer.

Buffers are unbounded here.
-/
import PopCpp.Parser.Lexer

namespace Parser

/-! ### `ReadUntil` -/

/-- The byte of `(`. -/
def lparen : UInt8 := 40

/-- The byte of `)`. -/
def rparen : UInt8 := 41

/-- The loop ends with the byte: `strchr` finds the final zero byte as well. -/
def Stops (sep : List UInt8) (ch : UInt8) : Prop := ch = 0 ∨ ch ∈ sep

instance (sep : List UInt8) (ch : UInt8) : Decidable (Stops sep ch) :=
  inferInstanceAs (Decidable (_ ∨ _))

/-- `bracket` after a byte. -/
def countBracket (bracket : ℤ) (ch : UInt8) : ℤ :=
  if ch = lparen then bracket + 1 else if ch = rparen then bracket - 1 else bracket

/-- `ch` after a byte that is no quote: a closing bracket within brackets does not count. -/
def shownByte (bracket : ℤ) (ch : UInt8) : UInt8 :=
  if ch = rparen ∧ 0 < countBracket bracket ch then 1 else ch

mutual

/-- The loop of `ReadUntil`: what is in the buffer, and the rest of the input.  `eof` is what the
end of the input puts in the buffer. -/
def readLoop (eof : UInt8) : ℕ → List UInt8 → ℤ → List UInt8 → Option (List UInt8 × List UInt8)
  | 0, _, _, _ => none
  | _ + 1, _, _, [] => some ([eof], [])
  | fuel + 1, sep, bracket, ch :: input =>
      if ch = dquote ∨ ch = squote then
        match readQuoted eof fuel ch input with
        | none => none
        | some input =>
            if Stops sep ch then some ([ch], input)
            else (readLoop eof fuel sep bracket input).map fun r => (ch :: r.1, r.2)
      else if Stops sep (shownByte bracket ch) then some ([ch], input)
      else (readLoop eof fuel sep (countBracket bracket ch) input).map fun r => (ch :: r.1, r.2)

/-- The loop at a quote: again if the byte before the last one, `tmp[n-2]`, is a backslash. -/
def readQuoted (eof : UInt8) : ℕ → UInt8 → List UInt8 → Option (List UInt8)
  | 0, _, _ => none
  | fuel + 1, quote, input =>
      match readLoop eof fuel [quote] 0 input with
      | none => none
      | some (buf, input) =>
          if (quote :: buf)[buf.length - 1]? = some backslash then readQuoted eof fuel quote input
          else some input

end

/-- `ReadUntil`: the buffer, of which the length is returned, and the rest of the input. -/
def readUntil (eof : UInt8) (sep input : List UInt8) : Option (List UInt8 × List UInt8) :=
  if Stops sep 1 then some ([], input) else readLoop eof (2 * input.length + 2) sep 0 input

/-! ### Text without quotes -/

section Passes

variable {eof : UInt8} {sep w v input : List UInt8} {bracket bracket' : ℤ} {fuel : ℕ} {ch : UInt8}

/-- The reading goes on through the text, in which there are no quotes. -/
def Passes (sep : List UInt8) : ℤ → List UInt8 → ℤ → Prop
  | bracket, [], bracket' => bracket = bracket'
  | bracket, ch :: w, bracket' => ch ≠ dquote ∧ ch ≠ squote ∧
      ¬Stops sep (shownByte bracket ch) ∧ Passes sep (countBracket bracket ch) w bracket'

/-- A byte that is not in the set does not stop the reading, and neither does the 1 that stands for
a closing bracket. -/
lemma not_stops_shownByte (hone : 1 ∉ sep) (hnul : ch ≠ 0) (hch : ch ∉ sep) :
    ¬Stops sep (shownByte bracket ch) := by
  unfold shownByte
  split_ifs
  · exact not_or.mpr ⟨by decide, hone⟩
  · exact not_or.mpr ⟨hnul, hch⟩

lemma stops_shownByte (hrparen : ch ≠ rparen) (hch : ch ∈ sep) :
    Stops sep (shownByte bracket ch) := by
  rw [shownByte, if_neg fun h => hrparen h.1]
  exact .inr hch

/-- Brackets do not matter if they are not in the set. -/
lemma exists_passes (hone : 1 ∉ sep) (h : ∀ ch ∈ w, ch ≠ 0 ∧ ch ≠ dquote ∧ ch ≠ squote ∧ ch ∉ sep)
    (bracket : ℤ) : ∃ bracket', Passes sep bracket w bracket' := by
  induction w generalizing bracket with
  | nil => exact ⟨bracket, rfl⟩
  | cons ch w ih =>
      obtain ⟨hnul, hdquote, hsquote, hch⟩ := h ch List.mem_cons_self
      obtain ⟨bracket', hrest⟩ := ih (fun ch hch => h ch (List.mem_cons_of_mem _ hch))
        (countBracket bracket ch)
      exact ⟨bracket', hdquote, hsquote, not_stops_shownByte hone hnul hch, hrest⟩

lemma Passes.append (h : Passes sep bracket w bracket') {bracket'' : ℤ}
    (h' : Passes sep bracket' v bracket'') : Passes sep bracket (w ++ v) bracket'' := by
  induction w generalizing bracket with
  | nil =>
      obtain rfl : bracket = bracket' := h
      exact h'
  | cons ch w ih => exact ⟨h.1, h.2.1, h.2.2.1, ih h.2.2.2⟩

lemma readLoop_nil : readLoop eof (fuel + 1) sep bracket [] = some ([eof], []) := by
  rw [readLoop]

lemma readLoop_append (h : Passes sep bracket w bracket') :
    readLoop eof (fuel + w.length) sep bracket (w ++ input) =
      (readLoop eof fuel sep bracket' input).map fun r => (w ++ r.1, r.2) := by
  induction w generalizing bracket with
  | nil =>
      obtain rfl : bracket = bracket' := h
      exact (congrFun Option.map_id _).symm
  | cons ch w ih =>
      obtain ⟨hdquote, hsquote, hstops, hrest⟩ := h
      rw [List.length_cons, ← Nat.add_assoc, List.cons_append, readLoop,
        if_neg (not_or.mpr ⟨hdquote, hsquote⟩), if_neg hstops, ih hrest, Option.map_map]
      rfl

lemma readLoop_stop (hdquote : ch ≠ dquote) (hsquote : ch ≠ squote)
    (hstops : Stops sep (shownByte bracket ch)) :
    readLoop eof (fuel + 1) sep bracket (ch :: input) = some ([ch], input) := by
  rw [readLoop, if_neg (not_or.mpr ⟨hdquote, hsquote⟩), if_pos hstops]

variable (eof input) in
/-- Up to the first byte that stops the reading. -/
lemma readUntil_stop (hsep : ¬Stops sep 1) (h : Passes sep 0 w bracket) (hdquote : ch ≠ dquote)
    (hsquote : ch ≠ squote) (hstops : Stops sep (shownByte bracket ch)) :
    readUntil eof sep (w ++ ch :: input) = some (w ++ [ch], input) := by
  have hfuel : 2 * (w ++ ch :: input).length + 2 =
      w.length + 2 * input.length + 3 + 1 + w.length := by
    rw [List.length_append, List.length_cons]
    omega
  rw [readUntil, if_neg hsep, hfuel, readLoop_append h, readLoop_stop hdquote hsquote hstops]
  rfl

variable (eof sep) in
lemma exists_readUntil_nil : ∃ buf, readUntil eof sep [] = some (buf, []) := by
  rw [readUntil]
  split_ifs
  · exact ⟨[], rfl⟩
  · exact ⟨[eof], readLoop_nil⟩

end Passes

/-! ### Quotes -/

section Quotes

variable {eof : UInt8} {sep w input : List UInt8} {bracket : ℤ} {fuel : ℕ} {quote : UInt8}

/-- The byte is a quote. -/
def IsQuote (ch : UInt8) : Prop := ch = dquote ∨ ch = squote

lemma readQuoted_of_readLoop (hquote : IsQuote quote) (hfuel : 2 * input.length + 2 ≤ fuel)
    (h : ∀ fuel, 2 * input.length + 1 ≤ fuel →
      ∃ buf, readLoop eof fuel [quote] 0 input = some (buf, [])) :
    readQuoted eof fuel quote input = some [] := by
  have hne : quote ≠ backslash := by
    rcases hquote with rfl | rfl <;> decide
  have hnil : ∀ n, readQuoted eof (n + 2) quote [] = some [] := by
    intro n
    rw [readQuoted, readLoop_nil]
    exact if_neg fun heq => hne (Option.some.inj heq)
  obtain ⟨n, rfl⟩ := Nat.exists_eq_add_of_le' (Nat.le_of_add_left_le hfuel)
  obtain ⟨buf, hbuf⟩ := h (n + 1) (by omega)
  cases input with
  | nil => exact hnil n
  | cons ch input =>
      obtain ⟨m, rfl⟩ : ∃ m, n = m + 1 := ⟨n - 1, by rw [List.length_cons] at hfuel; omega⟩
      rw [readQuoted, hbuf]
      dsimp only
      split_ifs
      · exact hnil m
      · rfl

/-- A call for a quote reads up to the end of the input. -/
lemma readLoop_quote (input : List UInt8) (hnul : 0 ∉ input) :
    ∀ {quote : UInt8} {bracket : ℤ} {fuel : ℕ}, IsQuote quote → 2 * input.length + 1 ≤ fuel →
      ∃ buf, readLoop eof fuel [quote] bracket input = some (buf, []) := by
  induction input with
  | nil =>
      intro quote bracket fuel _ hfuel
      obtain ⟨n, rfl⟩ := Nat.exists_eq_add_of_le' (Nat.one_le_of_lt hfuel)
      exact ⟨[eof], readLoop_nil⟩
  | cons ch input ih =>
      intro quote bracket fuel hquote hfuel
      obtain ⟨hch, hnul⟩ := not_or.mp (List.mem_cons.not.mp hnul)
      rw [List.length_cons] at hfuel
      obtain ⟨n, rfl⟩ : ∃ n, fuel = n + 1 := ⟨fuel - 1, by omega⟩
      rw [readLoop]
      by_cases hq : ch = dquote ∨ ch = squote
      · -- the call within the call reads everything
        have hall : readQuoted eof n ch input = some [] :=
          readQuoted_of_readLoop hq (by omega) fun fuel hfuel => ih hnul hq hfuel
        rw [if_pos hq, hall]
        dsimp only
        split_ifs
        · exact ⟨[ch], rfl⟩
        · obtain ⟨m, rfl⟩ : ∃ m, n = m + 1 := ⟨n - 1, by omega⟩
          rw [readLoop_nil]
          exact ⟨_, rfl⟩
      · have hne : ch ≠ quote := fun heq => hq (heq ▸ hquote)
        have hone : (1 : UInt8) ∉ [quote] := by
          rcases hquote with rfl | rfl <;> decide
        have hstops : ¬Stops [quote] (shownByte bracket ch) :=
          not_stops_shownByte hone (Ne.symm hch) fun hmem => hne (List.mem_singleton.mp hmem)
        rw [if_neg hq, if_neg hstops]
        obtain ⟨buf, hbuf⟩ : ∃ buf, readLoop eof n [quote] (countBracket bracket ch) input =
            some (buf, []) := ih hnul hquote (by omega)
        exact ⟨ch :: buf, by rw [hbuf]; rfl⟩

variable (eof) in
/-- At a quote everything is read. -/
lemma readUntil_quote (hsep : ¬Stops sep 1) (h : Passes sep 0 w bracket) (hquote : IsQuote quote)
    (hnul : 0 ∉ input) : ∃ buf, readUntil eof sep (w ++ quote :: input) = some (buf, []) := by
  have hfuel : 2 * (w ++ quote :: input).length + 2 =
      w.length + 2 * input.length + 3 + 1 + w.length := by
    rw [List.length_append, List.length_cons]
    omega
  have hq : quote = dquote ∨ quote = squote := hquote
  have hall : readQuoted eof (w.length + 2 * input.length + 3) quote input = some [] :=
    readQuoted_of_readLoop hquote (by omega) fun fuel hfuel =>
      readLoop_quote input hnul hquote hfuel
  rw [readUntil, if_neg hsep, hfuel, readLoop_append h, readLoop, if_pos hq, hall]
  dsimp only
  split_ifs
  · exact ⟨_, rfl⟩
  · rw [readLoop_nil]
    exact ⟨_, rfl⟩

end Quotes

/-! ### The reading ends -/

section Total

variable {eof : UInt8} {sep input : List UInt8}

/-- The fuel is enough, and at least one byte is read if there is one. -/
lemma exists_readLoop (fuel : ℕ) :
    (∀ (sep : List UInt8) (bracket : ℤ) (input : List UInt8), 2 * input.length + 1 ≤ fuel →
      ∃ buf rest, readLoop eof fuel sep bracket input = some (buf, rest) ∧
        rest.length ≤ input.length - 1 ∧ (input = [] → buf = [eof])) ∧
    (∀ (quote : UInt8) (input : List UInt8), IsQuote quote → 2 * input.length + 2 ≤ fuel →
      ∃ rest, readQuoted eof fuel quote input = some rest ∧ rest.length ≤ input.length - 1) := by
  induction fuel with
  | zero => exact ⟨fun _ _ _ h => absurd h (by omega), fun _ _ _ h => absurd h (by omega)⟩
  | succ fuel ih =>
      obtain ⟨ihloop, ihquoted⟩ := ih
      constructor
      · intro sep bracket input hfuel
        cases input with
        | nil => exact ⟨[eof], [], readLoop_nil, le_refl _, fun _ => rfl⟩
        | cons ch input =>
            rw [List.length_cons] at hfuel ⊢
            rw [Nat.add_sub_cancel]
            by_cases hquote : ch = dquote ∨ ch = squote
            · obtain ⟨input', hquoted, hlength⟩ := ihquoted ch input hquote (by omega)
              obtain ⟨buf, rest, hloop, hrest, -⟩ := ihloop sep bracket input' (by omega)
              rw [readLoop, if_pos hquote, hquoted]
              dsimp only
              split_ifs
              · exact ⟨[ch], input', rfl, by omega, nofun⟩
              · exact ⟨ch :: buf, rest, by rw [hloop]; rfl, by omega, nofun⟩
            · obtain ⟨buf, rest, hloop, hrest, -⟩ :=
                ihloop sep (countBracket bracket ch) input (by omega)
              rw [readLoop, if_neg hquote]
              split_ifs
              · exact ⟨[ch], input, rfl, le_refl _, nofun⟩
              · exact ⟨ch :: buf, rest, by rw [hloop]; rfl, by omega, nofun⟩
      · intro quote input hquote hfuel
        obtain ⟨buf, input', hloop, hlength, hnil⟩ := ihloop [quote] 0 input (by omega)
        rw [readQuoted, hloop]
        dsimp only
        split_ifs with hbackslash
        · cases input with
          | nil =>
              -- the byte before the end of the input is the quote
              rw [hnil rfl] at hbackslash
              obtain rfl : quote = backslash := Option.some.inj hbackslash
              exact absurd hquote (not_or.mpr ⟨by decide, by decide⟩)
          | cons ch input =>
              rw [List.length_cons] at hfuel hlength
              obtain ⟨rest, hrest, hle⟩ := ihquoted quote input' hquote (by omega)
              exact ⟨rest, hrest, by rw [List.length_cons]; omega⟩
        · exact ⟨input', rfl, hlength⟩

variable (eof input) in
lemma exists_readUntil (hsep : ¬Stops sep 1) : ∃ buf rest, readUntil eof sep input =
    some (buf, rest) ∧ rest.length ≤ input.length - 1 ∧ (input = [] → buf = [eof]) := by
  rw [readUntil, if_neg hsep]
  exact (exists_readLoop _).1 sep 0 input (by omega)

end Total

end Parser
