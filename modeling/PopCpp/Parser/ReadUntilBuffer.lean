/-
# What `ReadUntil` leaves in its buffer

`ReadUntil` is given the size of its buffer and stops when this is full.  A call of `ReadUntil` for
a quote writes behind the quote in the same buffer, but the caller neither steps over these bytes
nor counts them: it goes on where the call began to write, and the bytes are lost.  The end of the
input is put in the buffer and counted too.

So the buffer has what was read exactly if the reading ends before it comes to a quote that has
something behind it, and before the end of the input (`copies_iff_readsPlainly`).
-/
import PopCpp.Parser.ReadUntil

namespace Parser

/-! ### `ReadUntil` with the size of the buffer -/

mutual

/-- The loop of `ReadUntil`, when there is room for a byte and the zero byte at the end: what is in
the buffer, and the rest of the input. -/
def fillLoop (eof : UInt8) : ℕ → ℕ → List UInt8 → ℤ → List UInt8 → Option (List UInt8 × List UInt8)
  | 0, _, _, _, _ => none
  | _ + 1, _, _, _, [] => some ([eof], [])
  | fuel + 1, sz, sep, bracket, ch :: input =>
      if sz - 1 ≤ 1 then some ([ch], input)
      else if ch = dquote ∨ ch = squote then
        match fillQuoted eof fuel (sz - 1) ch input with
        | none => none
        | some input =>
            if Stops sep ch then some ([ch], input)
            else (fillLoop eof fuel (sz - 1) sep bracket input).map fun r => (ch :: r.1, r.2)
      else if Stops sep (shownByte bracket ch) then some ([ch], input)
      else (fillLoop eof fuel (sz - 1) sep (countBracket bracket ch) input).map fun r =>
        (ch :: r.1, r.2)

/-- The loop at a quote: again if the byte before the last one, `tmp[n-2]`, is a backslash. -/
def fillQuoted (eof : UInt8) : ℕ → ℕ → UInt8 → List UInt8 → Option (List UInt8)
  | 0, _, _, _ => none
  | fuel + 1, sz, quote, input =>
      match fillLoop eof fuel sz [quote] 0 input with
      | none => none
      | some (buf, input) =>
          if (quote :: buf)[buf.length - 1]? = some backslash then
            fillQuoted eof fuel sz quote input
          else some input

end

/-- `ReadUntil(sep, buf, sz)`: the buffer, of which the length is returned, and the rest of the
input. -/
def readUntilSize (eof : UInt8) (sz : ℕ) (sep input : List UInt8) :
    Option (List UInt8 × List UInt8) :=
  if sz ≤ 1 then some ([], input)
  else if Stops sep 1 then some ([], input)
  else fillLoop eof (2 * input.length + 2) sz sep 0 input

/-- The buffer has exactly the bytes that were read. -/
def Copies (eof : UInt8) (sz : ℕ) (sep input : List UInt8) : Prop :=
  ∃ buf rest, readUntilSize eof sz sep input = some (buf, rest) ∧ input = buf ++ rest

/-! ### The reading ends -/

section

variable {eof : UInt8} {sz fuel : ℕ} {sep input : List UInt8} {bracket : ℤ} {ch quote : UInt8}

lemma fillLoop_nil : fillLoop eof (fuel + 1) sz sep bracket [] = some ([eof], []) := by
  rw [fillLoop]

/-- The buffer is full. -/
lemma fillLoop_full (hsz : sz ≤ 2) :
    fillLoop eof (fuel + 1) sz sep bracket (ch :: input) = some ([ch], input) := by
  rw [fillLoop, if_pos (by omega)]

lemma fillLoop_stop (hquote : ¬IsQuote ch) (hstops : Stops sep (shownByte bracket ch)) :
    fillLoop eof (fuel + 1) sz sep bracket (ch :: input) = some ([ch], input) := by
  have hch : ¬(ch = dquote ∨ ch = squote) := hquote
  by_cases hsz : sz ≤ 2
  · exact fillLoop_full hsz
  · rw [fillLoop, if_neg (by omega), if_neg hch, if_pos hstops]

lemma fillLoop_next (hsz : 2 < sz) (hquote : ¬IsQuote ch)
    (hstops : ¬Stops sep (shownByte bracket ch)) :
    fillLoop eof (fuel + 1) sz sep bracket (ch :: input) =
      (fillLoop eof fuel (sz - 1) sep (countBracket bracket ch) input).map fun r =>
        (ch :: r.1, r.2) := by
  have hch : ¬(ch = dquote ∨ ch = squote) := hquote
  rw [fillLoop, if_neg (by omega), if_neg hch, if_neg hstops]

lemma fillLoop_quote {input' : List UInt8} (hsz : 2 < sz) (hquote : IsQuote ch)
    (hquoted : fillQuoted eof fuel (sz - 1) ch input = some input') :
    fillLoop eof (fuel + 1) sz sep bracket (ch :: input) =
      if Stops sep ch then some ([ch], input')
      else (fillLoop eof fuel (sz - 1) sep bracket input').map fun r => (ch :: r.1, r.2) := by
  have hch : ch = dquote ∨ ch = squote := hquote
  rw [fillLoop, if_neg (by omega), if_pos hch, hquoted]

/-- What the loop leaves: no more bytes than there were, or all of them and the end of the
input. -/
def Leaves (eof : UInt8) (input buf rest : List UInt8) : Prop :=
  buf.length + rest.length ≤ input.length ∨ rest = [] ∧ buf = input ++ [eof]

lemma Leaves.cons {input' buf rest : List UInt8} (h : Leaves eof input' buf rest)
    (hinput : input' = input ∨ input'.length < input.length) :
    Leaves eof (ch :: input) (ch :: buf) rest := by
  rcases h with hle | ⟨rfl, rfl⟩
  · left
    rw [List.length_cons, List.length_cons]
    rcases hinput with rfl | hlt <;> omega
  · rcases hinput with rfl | hlt
    · exact .inr ⟨rfl, rfl⟩
    · left
      rw [List.length_cons, List.length_cons, List.length_append, List.length_singleton,
        List.length_nil]
      omega

lemma leaves_singleton {rest : List UInt8} (h : rest.length ≤ input.length) :
    Leaves eof (ch :: input) [ch] rest := by
  left
  rw [List.length_singleton, List.length_cons]
  omega

variable (eof) in
/-- The fuel is enough, and at least one byte is read if there is one. -/
lemma exists_fillLoop (fuel : ℕ) :
    (∀ (sz : ℕ) (sep : List UInt8) (bracket : ℤ) (input : List UInt8),
      2 * input.length + 1 ≤ fuel → ∃ buf rest,
        fillLoop eof fuel sz sep bracket input = some (buf, rest) ∧
          rest.length ≤ input.length - 1 ∧ Leaves eof input buf rest) ∧
    (∀ (sz : ℕ) (quote : UInt8) (input : List UInt8), IsQuote quote →
      2 * input.length + 2 ≤ fuel → ∃ rest,
        fillQuoted eof fuel sz quote input = some rest ∧ rest.length ≤ input.length - 1) := by
  induction fuel with
  | zero => exact ⟨fun _ _ _ _ h => absurd h (by omega), fun _ _ _ _ h => absurd h (by omega)⟩
  | succ fuel ih =>
      obtain ⟨ihloop, ihquoted⟩ := ih
      constructor
      · intro sz sep bracket input hfuel
        cases input with
        | nil => exact ⟨[eof], [], fillLoop_nil, le_refl _, .inr ⟨rfl, rfl⟩⟩
        | cons ch input =>
            rw [List.length_cons] at hfuel ⊢
            rw [Nat.add_sub_cancel]
            by_cases hsz : sz ≤ 2
            · exact ⟨[ch], input, fillLoop_full hsz, le_refl _, leaves_singleton (le_refl _)⟩
            by_cases hquote : IsQuote ch
            · obtain ⟨input', hquoted, hlength⟩ := ihquoted (sz - 1) ch input hquote (by omega)
              rw [fillLoop_quote (by omega) hquote hquoted]
              obtain ⟨buf, rest, hloop, hrest, hleaves⟩ :=
                ihloop (sz - 1) sep bracket input' (by omega)
              have hinput : input' = input ∨ input'.length < input.length := by
                cases input with
                | nil => exact .inl (List.eq_nil_of_length_eq_zero (Nat.le_zero.mp hlength))
                | cons _ _ => exact .inr (Nat.lt_succ_of_le hlength)
              split_ifs
              · exact ⟨[ch], input', rfl, by omega, leaves_singleton (by omega)⟩
              · exact ⟨ch :: buf, rest, by rw [hloop]; rfl, by omega, hleaves.cons hinput⟩
            · by_cases hstops : Stops sep (shownByte bracket ch)
              · exact ⟨[ch], input, fillLoop_stop hquote hstops, le_refl _,
                  leaves_singleton (le_refl _)⟩
              · obtain ⟨buf, rest, hloop, hrest, hleaves⟩ :=
                  ihloop (sz - 1) sep (countBracket bracket ch) input (by omega)
                rw [fillLoop_next (by omega) hquote hstops, hloop]
                exact ⟨ch :: buf, rest, rfl, by omega, hleaves.cons (.inl rfl)⟩
      · intro sz quote input hquote hfuel
        obtain ⟨buf, input', hloop, hlength, -⟩ := ihloop sz [quote] 0 input (by omega)
        cases input with
        | nil =>
            -- the byte before the end of the input is the quote
            obtain ⟨n, rfl⟩ : ∃ n, fuel = n + 1 := ⟨fuel - 1, by omega⟩
            have hne : quote ≠ backslash := by
              rcases hquote with rfl | rfl <;> decide
            rw [fillQuoted, fillLoop_nil]
            exact ⟨[], if_neg fun heq => hne (Option.some.inj heq), le_refl _⟩
        | cons ch input =>
            rw [List.length_cons] at hfuel hlength
            rw [fillQuoted, hloop]
            dsimp only
            split_ifs
            · obtain ⟨rest, hrest, hle⟩ := ihquoted sz quote input' hquote (by omega)
              exact ⟨rest, hrest, by rw [List.length_cons]; omega⟩
            · exact ⟨input', rfl, hlength⟩

variable (eof sz sep input) in
/-- Every call returns. -/
theorem exists_readUntilSize : ∃ buf rest, readUntilSize eof sz sep input = some (buf, rest) := by
  rw [readUntilSize]
  split_ifs
  · exact ⟨[], input, rfl⟩
  · exact ⟨[], input, rfl⟩
  · obtain ⟨buf, rest, hloop, -⟩ :=
      (exists_fillLoop eof (2 * input.length + 2)).1 sz sep 0 input (by omega)
    exact ⟨buf, rest, hloop⟩

/-- At least two bytes are read behind a quote if there are two and the first one is not zero, and
the buffer has room for both. -/
lemma length_le_of_fillQuoted {c d : UInt8} {rest : List UInt8} (hsz : 2 < sz)
    (hquote : IsQuote quote) (hc : c ≠ 0) (hfuel : 2 * (input.length + 2) + 2 ≤ fuel)
    (h : fillQuoted eof fuel sz quote (c :: d :: input) = some rest) :
    rest.length ≤ input.length := by
  obtain ⟨n, rfl⟩ : ∃ n, fuel = n + 2 := ⟨fuel - 2, by omega⟩
  have hloop : ∃ buf rest, fillLoop eof (n + 1) sz [quote] 0 (c :: d :: input) = some (buf, rest) ∧
      rest.length ≤ input.length := by
    by_cases hcquote : IsQuote c
    · obtain ⟨input', hquoted, hlength⟩ := (exists_fillLoop eof n).2 (sz - 1) c
        (d :: input) hcquote (by rw [List.length_cons]; omega)
      rw [List.length_cons, Nat.add_sub_cancel] at hlength
      obtain ⟨buf, rest, hloop, hrest, -⟩ := (exists_fillLoop eof n).1 (sz - 1) [quote] 0
        input' (by omega)
      rw [fillLoop_quote hsz hcquote hquoted]
      split_ifs
      · exact ⟨[c], input', rfl, hlength⟩
      · exact ⟨c :: buf, rest, by rw [hloop]; rfl, by omega⟩
    · have hne : c ≠ quote := fun heq => hcquote (heq ▸ hquote)
      have hone : (1 : UInt8) ∉ [quote] := by
        rcases hquote with rfl | rfl <;> decide
      have hstops : ¬Stops [quote] (shownByte 0 c) :=
        not_stops_shownByte hone hc fun hmem => hne (List.mem_singleton.mp hmem)
      obtain ⟨buf, rest, hloop, hrest, -⟩ := (exists_fillLoop eof n).1 (sz - 1) [quote]
        (countBracket 0 c) (d :: input) (by rw [List.length_cons]; omega)
      rw [fillLoop_next hsz hcquote hstops, hloop]
      exact ⟨c :: buf, rest, rfl, hrest⟩
  obtain ⟨buf, input', hloop, hlength⟩ := hloop
  rw [fillQuoted, hloop] at h
  dsimp only at h
  split_ifs at h
  · -- the reading for the quote begins again
    obtain ⟨rest', hrest', hle⟩ := (exists_fillLoop eof (n + 1)).2 sz quote input' hquote
      (by omega)
    obtain rfl : rest' = rest := Option.some.inj (hrest'.symm.trans h)
    omega
  · obtain rfl : input' = rest := Option.some.inj h
    exact hlength

/-- When the loop reads all of a text and its end, it goes on at the first byte. -/
lemma of_fillLoop_eq_append {fuel : ℕ} {c : UInt8}
    (h : fillLoop eof (fuel + 1) sz sep bracket (c :: input) = some (c :: input ++ [eof], [])) :
    2 < sz ∧ c ≠ 0 := by
  have hne : ∀ rest, fillLoop eof (fuel + 1) sz sep bracket (c :: input) ≠ some ([c], rest) := by
    intro rest heq
    have hlength := congrArg (fun r => (r.map fun r => r.1.length).getD 0) (heq.symm.trans h)
    simp at hlength
  constructor
  · by_contra hsz
    exact hne input (fillLoop_full (by omega))
  · rintro rfl
    exact hne input (fillLoop_stop (not_or.mpr ⟨by decide, by decide⟩)
      (.inl (if_neg fun heq => absurd heq.1 (by decide))))

end

/-! ### What is read without a loss -/

instance : DecidablePred IsQuote := fun ch =>
  inferInstanceAs (Decidable (ch = dquote ∨ ch = squote))

/-- The reading ends before these bytes, as the buffer is full, or with the first of them: it stops
the reading and is no quote, or it is a quote that fills the buffer or that ends the text.  (A quote
that does not stop the reading may also be followed by the byte that the end of the input
leaves.) -/
def EndsWell (eof : UInt8) (sep : List UInt8) (sz : ℕ) (bracket : ℤ) : List UInt8 → Prop
  | [] => sz ≤ 1
  | ch :: rest => sz ≤ 1 ∨
      if IsQuote ch then sz = 2 ∨ rest = [] ∧ Stops sep ch ∨ rest = [eof] ∧ ¬Stops sep ch
      else Stops sep (shownByte bracket ch)

/-- The reading goes on through a text without quotes up to such an end. -/
def ReadsPlainly (eof : UInt8) (sep : List UInt8) (sz : ℕ) (bracket : ℤ) (input : List UInt8) :
    Prop :=
  ∃ w bracket' rest, input = w ++ rest ∧ Passes sep bracket w bracket' ∧
    EndsWell eof sep (sz - w.length) bracket' rest

section

variable {eof : UInt8} {sz fuel : ℕ} {sep input : List UInt8} {bracket : ℤ} {ch : UInt8}

lemma ReadsPlainly.of_endsWell (h : EndsWell eof sep sz bracket input) :
    ReadsPlainly eof sep sz bracket input :=
  ⟨[], bracket, input, rfl, rfl, h⟩

/-- Either the end is here, or the first byte does not end the reading. -/
lemma readsPlainly_cons_iff : ReadsPlainly eof sep sz bracket (ch :: input) ↔
    EndsWell eof sep sz bracket (ch :: input) ∨
      (¬IsQuote ch ∧ ¬Stops sep (shownByte bracket ch) ∧
        ReadsPlainly eof sep (sz - 1) (countBracket bracket ch) input) := by
  constructor
  · rintro ⟨w, bracket', rest, hinput, hpasses, hends⟩
    cases w with
    | nil =>
        obtain rfl : bracket = bracket' := hpasses
        rw [List.nil_append] at hinput
        exact .inl (hinput ▸ hends)
    | cons c w =>
        rw [List.cons_append, List.cons.injEq] at hinput
        obtain ⟨rfl, rfl⟩ := hinput
        obtain ⟨hdquote, hsquote, hstops, hpasses⟩ := hpasses
        rw [List.length_cons, Nat.add_comm, Nat.sub_add_eq] at hends
        exact .inr ⟨not_or.mpr ⟨hdquote, hsquote⟩, hstops, w, bracket', rest, rfl, hpasses, hends⟩
  · rintro (hends | ⟨hquote, hstops, w, bracket', rest, rfl, hpasses, hends⟩)
    · exact .of_endsWell hends
    · obtain ⟨hdquote, hsquote⟩ := not_or.mp hquote
      refine ⟨ch :: w, bracket', rest, rfl, ⟨hdquote, hsquote, hstops, hpasses⟩, ?_⟩
      rw [List.length_cons, Nat.add_comm, Nat.sub_add_eq]
      exact hends

/-- The loop leaves in the buffer what it reads. -/
def LoopCopies (eof : UInt8) (fuel sz : ℕ) (sep : List UInt8) (bracket : ℤ) (input : List UInt8) :
    Prop :=
  ∃ buf rest, fillLoop eof fuel sz sep bracket input = some (buf, rest) ∧ input = buf ++ rest

/-- At a quote, with room for another byte. -/
lemma loopCopies_quote_iff (hsz : 2 < sz) (hquote : IsQuote ch)
    (hfuel : 2 * input.length + 2 ≤ fuel) :
    LoopCopies eof (fuel + 1) sz sep bracket (ch :: input) ↔
      input = [] ∧ Stops sep ch ∨ input = [eof] ∧ ¬Stops sep ch := by
  obtain ⟨n, rfl⟩ : ∃ n, fuel = n + 1 := ⟨fuel - 1, by omega⟩
  obtain ⟨input', hquoted, hlength⟩ :=
    (exists_fillLoop eof (n + 1)).2 (sz - 1) ch input hquote hfuel
  obtain ⟨buf, rest, hloop, -, hleaves⟩ :=
    (exists_fillLoop eof (n + 1)).1 (sz - 1) sep bracket input' (by omega)
  rw [LoopCopies, fillLoop_quote hsz hquote hquoted]
  by_cases hstops : Stops sep ch
  · rw [if_pos hstops]
    constructor
    · rintro ⟨_, _, heq, hinput⟩
      obtain ⟨rfl, rfl⟩ := Prod.mk.inj (Option.some.inj heq)
      obtain rfl : input = input' := (List.cons.inj hinput).2
      exact .inl ⟨List.eq_nil_of_length_eq_zero (by omega), hstops⟩
    · rintro (⟨rfl, -⟩ | ⟨-, h⟩)
      · obtain rfl := List.eq_nil_of_length_eq_zero (Nat.le_zero.mp hlength)
        exact ⟨[ch], [], rfl, rfl⟩
      · exact absurd hstops h
  · have hnil : input' = [] → buf = [eof] ∧ rest = [] := by
      rintro rfl
      exact Prod.mk.inj (Option.some.inj (hloop.symm.trans fillLoop_nil))
    rw [if_neg hstops, hloop, Option.map_some]
    constructor
    · rintro ⟨_, _, heq, hinput⟩
      obtain ⟨rfl, rfl⟩ := Prod.mk.inj (Option.some.inj heq)
      obtain rfl : input = buf ++ rest := (List.cons.inj hinput).2
      rw [List.length_append] at hlength
      rcases hleaves with hle | ⟨rfl, rfl⟩
      · obtain rfl : input' = [] := List.eq_nil_of_length_eq_zero (by omega)
        obtain ⟨rfl, rfl⟩ := hnil rfl
        exact absurd hle (by simp)
      · cases input' with
        | nil => exact .inr ⟨rfl, hstops⟩
        | cons c t =>
            -- the call for the quote would have read two bytes
            exfalso
            obtain ⟨hroom, hc⟩ := of_fillLoop_eq_append hloop
            obtain ⟨d, u, hdu⟩ := List.exists_cons_of_ne_nil (List.append_ne_nil_of_right_ne_nil t
              (List.cons_ne_nil eof []))
            have hinput : c :: t ++ [eof] ++ [] = c :: d :: u := by
              rw [List.append_nil, List.cons_append, hdu]
            have hlen := congrArg List.length hdu
            rw [List.length_append, List.length_singleton, List.length_cons] at hlen
            rw [hinput] at hquoted hfuel
            have hle := length_le_of_fillQuoted hroom hquote hc hfuel hquoted
            rw [List.length_cons] at hle
            omega
    · rintro (⟨-, h⟩ | ⟨rfl, -⟩)
      · exact absurd h hstops
      · obtain ⟨rfl, rfl⟩ := hnil (List.eq_nil_of_length_eq_zero (Nat.le_zero.mp hlength))
        exact ⟨[ch, eof], [], rfl, rfl⟩

/-- What is read is in the buffer exactly if the reading ends plainly. -/
lemma loopCopies_iff (hsz : 2 ≤ sz) (hfuel : 2 * input.length + 2 ≤ fuel) :
    LoopCopies eof fuel sz sep bracket input ↔ ReadsPlainly eof sep sz bracket input := by
  induction input generalizing sz fuel bracket with
  | nil =>
      obtain ⟨n, rfl⟩ : ∃ n, fuel = n + 1 := ⟨fuel - 1, by omega⟩
      constructor
      · rintro ⟨buf, rest, heq, hinput⟩
        obtain ⟨rfl, -⟩ := Prod.mk.inj (Option.some.inj (fillLoop_nil.symm.trans heq))
        exact absurd hinput (by simp)
      · rintro ⟨w, bracket', rest, hinput, -, hends⟩
        obtain ⟨rfl, rfl⟩ := List.append_eq_nil_iff.mp hinput.symm
        have hle : sz ≤ 1 := hends
        omega
  | cons ch input ih =>
      rw [List.length_cons] at hfuel
      obtain ⟨n, rfl⟩ : ∃ n, fuel = n + 1 := ⟨fuel - 1, by omega⟩
      have hfirst : fillLoop eof (n + 1) sz sep bracket (ch :: input) = some ([ch], input) →
          LoopCopies eof (n + 1) sz sep bracket (ch :: input) := fun h => ⟨[ch], input, h, rfl⟩
      rw [readsPlainly_cons_iff]
      by_cases hquote : IsQuote ch
      · have hends : EndsWell eof sep sz bracket (ch :: input) ↔ sz ≤ 1 ∨ sz = 2 ∨
            input = [] ∧ Stops sep ch ∨ input = [eof] ∧ ¬Stops sep ch := by
          rw [EndsWell, if_pos hquote]
        rw [hends, or_iff_left fun h => h.1 hquote]
        by_cases hroom : 2 < sz
        · rw [loopCopies_quote_iff hroom hquote (by omega), or_iff_right (by omega : ¬sz ≤ 1),
            or_iff_right (by omega : ¬sz = 2)]
        · exact iff_of_true (hfirst (fillLoop_full (by omega))) (by omega)
      · have hends : EndsWell eof sep sz bracket (ch :: input) ↔
            sz ≤ 1 ∨ Stops sep (shownByte bracket ch) := by
          rw [EndsWell, if_neg hquote]
        rw [hends, or_iff_right (by omega : ¬sz ≤ 1)]
        by_cases hstops : Stops sep (shownByte bracket ch)
        · exact iff_of_true (hfirst (fillLoop_stop hquote hstops)) (.inl hstops)
        · rw [or_iff_right hstops, and_iff_right hquote, and_iff_right hstops]
          by_cases hroom : 2 < sz
          · rw [← ih (by omega) (show 2 * input.length + 2 ≤ n by omega), LoopCopies,
              fillLoop_next hroom hquote hstops]
            constructor
            · rintro ⟨buf, rest, heq, hinput⟩
              obtain ⟨r, hr, hcons⟩ := Option.map_eq_some_iff.mp heq
              obtain ⟨rfl, rfl⟩ := Prod.mk.inj hcons
              exact ⟨r.1, r.2, hr, (List.cons.inj hinput).2⟩
            · rintro ⟨buf, rest, heq, rfl⟩
              exact ⟨ch :: buf, rest, by rw [heq]; rfl, rfl⟩
          · -- the buffer is full behind this byte
            refine iff_of_true (hfirst (fillLoop_full (by omega))) ?_
            refine .of_endsWell ?_
            cases input with
            | nil => exact (by omega : sz - 1 ≤ 1)
            | cons _ _ => exact .inl (by omega)

end

/-- **What `ReadUntil` copies.**  The buffer has exactly the bytes that were read, and their number
is returned, exactly if nothing is read at all, or the reading ends before it comes to the end of
the input or to a quote with something behind it. -/
theorem copies_iff_readsPlainly (eof : UInt8) (sz : ℕ) (sep input : List UInt8) :
    Copies eof sz sep input ↔ Stops sep 1 ∨ ReadsPlainly eof sep sz 0 input := by
  rw [Copies, readUntilSize]
  by_cases hsz : sz ≤ 1
  · rw [if_pos hsz]
    refine iff_of_true ⟨[], input, rfl, rfl⟩ (.inr (.of_endsWell ?_))
    cases input with
    | nil => exact hsz
    | cons _ _ => exact .inl hsz
  · rw [if_neg hsz]
    by_cases hsep : Stops sep 1
    · rw [if_pos hsep]
      exact iff_of_true ⟨[], input, rfl, rfl⟩ (.inl hsep)
    · rw [if_neg hsep, or_iff_right hsep]
      exact loopCopies_iff (by omega) (le_refl _)

/-- A literal in the text is read, and lost with all that follows. -/
theorem quoted_not_copied :
    readUntilSize 255 100 [59] [dquote, 97, dquote, 59] = some ([dquote, 255], []) ∧
      ¬Copies 255 100 [59] [dquote, 97, dquote, 59] := by
  have hread : readUntilSize 255 100 [59] [dquote, 97, dquote, 59] = some ([dquote, 255], []) := by
    decide
  refine ⟨hread, ?_⟩
  rintro ⟨buf, rest, heq, hinput⟩
  obtain ⟨rfl, rfl⟩ := Prod.mk.inj (Option.some.inj (hread.symm.trans heq))
  exact absurd hinput (by decide)

/-! ### A buffer that is large enough -/

section

variable {eof : UInt8} {sz : ℕ} {sep input : List UInt8}

/-- With room for the whole input the size does not matter. -/
lemma fillLoop_eq_readLoop (fuel : ℕ) :
    (∀ (sz : ℕ) (sep : List UInt8) (bracket : ℤ) (input : List UInt8), input.length + 2 ≤ sz →
      2 * input.length + 1 ≤ fuel →
        fillLoop eof fuel sz sep bracket input = readLoop eof fuel sep bracket input) ∧
    (∀ (sz : ℕ) (quote : UInt8) (input : List UInt8), IsQuote quote → input.length + 2 ≤ sz →
      2 * input.length + 2 ≤ fuel →
        fillQuoted eof fuel sz quote input = readQuoted eof fuel quote input) := by
  induction fuel with
  | zero => exact ⟨fun _ _ _ _ _ h => absurd h (by omega), fun _ _ _ _ _ h => absurd h (by omega)⟩
  | succ fuel ih =>
      obtain ⟨ihloop, ihquoted⟩ := ih
      constructor
      · intro sz sep bracket input hsz hfuel
        cases input with
        | nil => rw [fillLoop_nil, readLoop_nil]
        | cons ch input =>
            rw [List.length_cons] at hsz hfuel
            by_cases hquote : ch = dquote ∨ ch = squote
            · obtain ⟨input', hquoted, hlength⟩ :=
                (@exists_readLoop eof fuel).2 ch input hquote (by omega)
              have hfill := ihquoted (sz - 1) ch input hquote (by omega) (by omega)
              rw [fillLoop_quote (by omega) hquote (hfill.trans hquoted), readLoop, if_pos hquote,
                hquoted, ihloop (sz - 1) sep bracket input' (by omega) (by omega)]
            · rw [fillLoop, readLoop, if_neg (by omega), if_neg hquote, if_neg hquote,
                ihloop (sz - 1) sep _ input (by omega) (by omega)]
      · intro sz quote input hquote hsz hfuel
        obtain ⟨buf, input', hloop, hlength, hnil⟩ :=
          (@exists_readLoop eof fuel).1 [quote] 0 input (by omega)
        rw [fillQuoted, readQuoted, ihloop sz [quote] 0 input hsz (by omega), hloop]
        dsimp only
        split_ifs with hbackslash
        · cases input with
          | nil =>
              -- the byte before the end of the input is the quote
              rw [hnil rfl] at hbackslash
              obtain rfl : quote = backslash := Option.some.inj hbackslash
              exact absurd hquote (not_or.mpr ⟨by decide, by decide⟩)
          | cons ch input =>
              rw [List.length_cons] at hsz hfuel hlength
              exact ihquoted sz quote input' hquote (by omega) (by omega)
        · rfl

/-- `ReadUntil` with a buffer that has room for the whole input reads as without a limit. -/
theorem readUntilSize_eq_readUntil (hsz : input.length + 2 ≤ sz) :
    readUntilSize eof sz sep input = readUntil eof sep input := by
  rw [readUntilSize, readUntil, if_neg (by omega),
    (fillLoop_eq_readLoop _).1 sz sep 0 input hsz (by omega)]

end

end Parser
