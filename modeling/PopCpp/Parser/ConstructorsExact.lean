/-
# Which constructor definitions are rewritten

Where a literal, a brace or a semicolon stands in the parameters or in the arguments of a base,
everything is read or the reading ends there, and it is something else that is left over
(`Misread`).

After a comma that does not end an initialiser, what follows is read as the next one.  For some
other classes something else is emitted then: a name in the arguments is taken for a base, or the
name before is still looked for (`exists_initLoop_ne`).  So only the definitions that are read as
they are meant are rewritten (`ConstructorDef.rewritten_iff_clean`).
-/
import PopCpp.Parser.Constructors

namespace Parser

open StdString

/-! ### What disturbs the reading -/

/-- It is something else that is left over. -/
def Misread (rest : List UInt8) (x : Except LexFailure (List UInt8 × List UInt8)) : Prop :=
  ∀ out, x ≠ .ok (out, rest)

section Misread

variable {eof ch : UInt8} {classlist : List (List UInt8)}
  {clname name input rest w v buf : List UInt8}
  {next : List UInt8 → Except LexFailure (List UInt8 × List UInt8)} {a : Args} {fuel : ℕ}

lemma exists_of_map_eq_ok {x : Except LexFailure (List UInt8 × List UInt8)}
    {f : List UInt8 × List UInt8 → List UInt8} {out : List UInt8}
    (h : (x.map fun r => (f r, r.2)) = .ok (out, rest)) :
    ∃ out', x = .ok (out', rest) ∧ f (out', rest) = out := by
  cases x with
  | error e => cases h
  | ok r =>
      obtain ⟨hout, rfl⟩ := Prod.mk.inj (Except.ok.inj h)
      exact ⟨r.1, rfl, hout⟩

lemma misread_error {e : LexFailure} : Misread rest (.error e) := nofun

lemma misread_ok {out : List UInt8} (h : input ≠ rest) : Misread rest (.ok (out, input)) :=
  fun _ heq => h (Prod.mk.inj (Except.ok.inj heq)).2

lemma Misread.map {x : Except LexFailure (List UInt8 × List UInt8)} (h : Misread rest x)
    {f : List UInt8 × List UInt8 → List UInt8} : Misread rest (x.map fun r => (f r, r.2)) := by
  intro out heq
  obtain ⟨out', hx, -⟩ := exists_of_map_eq_ok heq
  exact h out' hx

/-- The call for the arguments reads everything. -/
lemma readArgs_misread_params (hrest : rest ≠ [])
    (h : readUntil eof [rparen, lbrace, semicolon] input = some (buf, []))
    (hnext : Misread rest (next [])) : Misread rest (readArgs eof name next input) := by
  obtain ⟨separator, hseparator⟩ :=
    exists_readUntil_nil eof [comma, lbrace, semicolon]
  rw [readArgs, h]
  dsimp only
  split_ifs
  · exact misread_ok hrest.symm
  · rw [hseparator]
    dsimp only
    split_ifs
    · exact misread_ok hrest.symm
    · exact hnext.map

/-- The call for what comes up to the next comma reads everything. -/
lemma readArgs_misread_separator (hrest : rest ≠ []) (hhead : ∀ b ∈ a.head, ¬Disturbs b)
    (h : readUntil eof [comma, lbrace, semicolon] (a.tail ++ input) = some (buf, []))
    (hnext : Misread rest (next [])) :
    Misread rest (readArgs eof name next (a.text ++ rparen :: input)) := by
  rw [readArgs, readUntil_args hhead]
  dsimp only
  split_ifs
  next hlast => exact absurd List.getLast?_concat hlast
  · rw [h]
    dsimp only
    split_ifs
    · exact misread_ok hrest.symm
    · exact hnext.map

/-- The call for the name of a base reads everything. -/
lemma initLoop_misread (hrest : rest ≠ [])
    (h : readUntil eof [lparen, lbrace, semicolon] input = some (buf, [])) :
    Misread rest (initLoop eof classlist fuel clname input) := by
  induction fuel generalizing input buf clname with
  | zero => exact misread_error
  | succ fuel ih =>
      obtain ⟨params, hparams⟩ :=
        exists_readUntil_nil eof [rparen, lbrace, semicolon]
      obtain ⟨_, hname⟩ :=
        exists_readUntil_nil eof [lparen, lbrace, semicolon]
      rw [initLoop, h]
      dsimp only
      split_ifs
      · exact misread_ok hrest.symm
      · exact misread_error
      · split
        · exact misread_error
        · exact readArgs_misread_params hrest hparams (ih hname)

variable (eof) in
/-- At a byte that disturbs the reading, either everything is read or nothing more. -/
lemma readUntil_disturbed {sep : List UInt8} {bracket : ℤ} (hsep : ¬Stops sep 1)
    (hlbrace : lbrace ∈ sep) (hsemicolon : semicolon ∈ sep) (hw : Passes sep 0 w bracket)
    (hch : Disturbs ch) (hnul : 0 ∉ input) :
    (∃ buf, readUntil eof sep (w ++ ch :: input) = some (buf, [])) ∨
      readUntil eof sep (w ++ ch :: input) = some (w ++ [ch], input) ∧
        (ch = lbrace ∨ ch = semicolon) := by
  rcases hch with hquote | rfl | rfl
  · exact .inl (readUntil_quote eof hsep hw hquote hnul)
  · exact .inr ⟨readUntil_stop eof _ hsep hw (by decide) (by decide)
      (stops_shownByte (by decide) hlbrace), .inl rfl⟩
  · exact .inr ⟨readUntil_stop eof _ hsep hw (by decide) (by decide)
      (stops_shownByte (by decide) hsemicolon), .inr rfl⟩

/-- The first byte of a kind. -/
lemma exists_first {p : UInt8 → Prop} [DecidablePred p] {l : List UInt8} (h : ∃ b ∈ l, p b) :
    ∃ u ch v, l = u ++ ch :: v ∧ (∀ b ∈ u, ¬p b) ∧ p ch := by
  obtain ⟨ch, hfind⟩ := Option.isSome_iff_exists.mp
    ((List.find?_isSome (p := fun b => decide (p b))).mpr (by simpa using h))
  obtain ⟨hch, u, v, hl, hu⟩ := List.find?_eq_some_iff_append.mp hfind
  exact ⟨u, ch, v, hl, fun b hb => by simpa using hu b hb, of_decide_eq_true hch⟩

end Misread

/-! ### A comma that is taken for the separator -/

section Comma

variable {eof : UInt8} {classlist : List (List UInt8)} {clname text y l w z rest : List UInt8}
  {p : UInt8 → Bool}

lemma takeWhile_of_begins {l l' : List UInt8} (h : l <+: l') (hstop : ∃ b ∈ l, p b = false) :
    l'.takeWhile p = l.takeWhile p := by
  obtain ⟨r, rfl⟩ := h
  obtain ⟨b, hb, hfalse⟩ := hstop
  have hlength : ¬(l.takeWhile p).length = l.length := fun heq => by
    have hself := (List.takeWhile_prefix p).eq_of_length heq
    rw [List.takeWhile_eq_self_iff.mp hself b hb] at hfalse
    cases hfalse
  rw [List.takeWhile_append, if_neg hlength]

/-- Where the postfix is put is seen before the next bracket. -/
lemma not_begins_insert (hw : ∀ b ∈ w, p b = true) (hbytes : popcPostfix.all p = true)
    (hstop : ∃ b ∈ z, p b = false) (hl : l.takeWhile p = (w ++ z).takeWhile p) :
    ¬w ++ (popcPostfix ++ z) <+: l := by
  intro hbegins
  obtain ⟨b, hb, hfalse⟩ := hstop
  have htake := takeWhile_of_begins hbegins
    ⟨b, List.mem_append_right _ (List.mem_append_right _ hb), hfalse⟩
  rw [hl, List.takeWhile_append_of_pos hw, List.takeWhile_append_of_pos hw,
    List.takeWhile_append_of_pos (List.all_eq_true.mp hbytes), List.append_right_inj,
    List.self_eq_append_left] at htake
  cases htake

/-- A name is scanned that has nothing to do with a base. -/
lemma scanned_not_begins {buf : List UInt8}
    (hname : (buf.dropWhile isspace).takeWhile isNameByte ≠ []) (hlparen : lparen ∈ buf)
    (hmem : scanName clname buf ∈ classlist)
    (hl : l.takeWhile (fun b => b != lparen && b != rparen) =
      buf.takeWhile fun b => b != lparen && b != rparen)
    (htext : nameText classlist (scanName clname buf) buf = some text) : ¬text <+: l := by
  have hscan : scanName clname buf = (buf.dropWhile isspace).takeWhile isNameByte := if_neg hname
  rw [hscan] at hmem htext
  obtain ⟨ws, name, z, hbuf, hws, hnameBytes, hscanned⟩ : ∃ ws name z, buf = ws ++ (name ++ z) ∧
      (∀ b ∈ ws, isspace b = true) ∧ (∀ b ∈ name, isNameByte b = true) ∧
      (buf.dropWhile isspace).takeWhile isNameByte = name :=
    ⟨buf.takeWhile isspace, _, (buf.dropWhile isspace).dropWhile isNameByte,
      by rw [List.takeWhile_append_dropWhile, List.takeWhile_append_dropWhile],
      fun b hb => List.mem_takeWhile_imp hb, fun b hb => List.mem_takeWhile_imp hb, rfl⟩
  rw [hscanned] at hname hmem htext
  have hfind := strstrAt_blanks hname (fun b hb => not_isspace_of_isNameByte
    (hnameBytes b (List.mem_of_mem_head? hb))) z ws hws
  rw [hbuf, nameText_of_strstrAt hmem hfind] at htext
  have hplain : ∀ b ∈ ws ++ name, (b != lparen && b != rparen) = true := by
    intro b hb
    have hne : b ≠ lparen ∧ b ≠ rparen := by
      rcases List.mem_append.mp hb with hb | hb
      · have hspace := hws b hb
        constructor <;> rintro rfl <;> cases hspace
      · have hbyte := hnameBytes b hb
        constructor <;> rintro rfl <;> cases hbyte
    simp [hne]
  have hz : lparen ∈ z := by
    rw [hbuf, ← List.append_assoc] at hlparen
    refine (List.mem_append.mp hlparen).resolve_left fun hmem => ?_
    cases hplain lparen hmem
  rw [← Option.some.inj htext, ← List.append_assoc]
  refine not_begins_insert hplain (by decide) ⟨lparen, hz, rfl⟩ ?_
  rw [hl, hbuf, List.append_assoc]

/-- No name is scanned, so the name of the base before is still there. -/
lemma retained_not_begins {name : BaseName} (hy : lparen ∉ y) (hmem : name.bytes ∈ classlist)
    (hl : l.takeWhile (fun b => b != lparen) = y)
    (htext : nameText classlist name.bytes (y ++ [lparen]) = some text) : ¬text <+: l := by
  have hlparen : lparen ∉ name.bytes := fun h => BaseName.ne_of_mem h rfl rfl
  have hplain : ∀ {u : List UInt8}, lparen ∉ u → ∀ b ∈ u, (b != lparen) = true := by
    intro u hu b hb
    exact bne_iff_ne.mpr fun h => hu (h ▸ hb)
  obtain ⟨w, z, hbuf, rfl⟩ := exists_of_nameText hmem htext
  rw [← List.append_assoc] at hbuf ⊢
  rcases List.eq_nil_or_concat z with rfl | ⟨z, b, rfl⟩
  · -- the bracket would be the last byte of the name
    have hlast := congrArg List.getLast? hbuf
    rw [List.append_nil, List.getLast?_concat, List.getLast?_append_of_ne_nil _ name.nonempty]
      at hlast
    exact absurd (List.mem_of_getLast? hlast.symm) hlparen
  · rw [List.concat_eq_append, ← List.append_assoc] at hbuf
    obtain ⟨rfl, hb⟩ := List.append_inj' hbuf rfl
    obtain rfl : lparen = b := (List.cons.inj hb).1
    have hw : ∀ b ∈ w ++ name.bytes, (b != lparen) = true :=
      hplain fun h => hy (List.mem_append_left _ h)
    refine not_begins_insert hw (by decide) ⟨lparen, by simp, rfl⟩ ?_
    rw [hl, List.concat_eq_append, ← List.append_assoc]
    exact (takeWhile_eq (hplain hy) (by simp)).symm

/-- No name is scanned, and the name of the base before is no class. -/
lemma unchanged_not_begins (hy : lparen ∉ y) (hmem : clname ∉ classlist)
    (hl : l.takeWhile (fun b => b != lparen) ≠ y)
    (htext : nameText classlist clname (y ++ [lparen]) = some text) : ¬text <+: l := by
  have hplain : ∀ b ∈ y, (b != lparen) = true := fun b hb =>
    bne_iff_ne.mpr fun h => hy (h ▸ hb)
  have hstop : ∃ b ∈ y ++ [lparen], (b != lparen) = false := ⟨lparen, by simp, rfl⟩
  rw [nameText, if_neg (findClass_iff.not.mpr hmem)] at htext
  rw [← Option.some.inj htext]
  intro hbegins
  have hfirst := takeWhile_of_begins hbegins hstop
  rw [takeWhile_eq hplain (by simp)] at hfirst
  exact hl hfirst

lemma begins_of_readArgs {input out : List UInt8}
    {next : List UInt8 → Except LexFailure (List UInt8 × List UInt8)}
    (h : readArgs eof text next input = .ok (out, rest)) : text <+: out := by
  have hbegins : ∀ {u w : List UInt8},
      (Except.ok (text ++ u, w) : Except LexFailure _) = .ok (out, rest) → text <+: out := by
    intro u w h
    rw [← (Prod.mk.inj (Except.ok.inj h)).1]
    exact List.prefix_append _ _
  rw [readArgs] at h
  split at h
  · cases h
  split_ifs at h
  · exact hbegins h
  split at h
  · cases h
  split_ifs at h
  · exact hbegins h
  · obtain ⟨out', -, rfl⟩ := exists_of_map_eq_ok h
    exact List.prefix_append _ _

/-- Something else than a bracket ends the call for the name of a base. -/
lemma initLoop_exit {ch : UInt8} {src : List UInt8} {fuel : ℕ}
    (hread : readUntil eof [lparen, lbrace, semicolon] w = some (y ++ [ch], src))
    (hch : ch ≠ lparen) :
    initLoop eof classlist fuel clname w = .error (if fuel = 0 then .fuel else .exit) := by
  cases fuel with
  | zero => rfl
  | succ fuel =>
      rw [initLoop, hread]
      dsimp only
      rw [if_neg (by simp), List.getLast?_concat, if_pos fun h => hch (Option.some.inj h)]
      rfl

/-- What comes up to the bracket of the next base is read, and something else is emitted. -/
lemma initLoop_ne {out src : List UInt8} {fuel : ℕ}
    (hread : readUntil eof [lparen, lbrace, semicolon] w = some (y ++ [lparen], src))
    (h : ∀ text, nameText classlist (scanName clname (y ++ [lparen])) (y ++ [lparen]) = some text →
      ¬text <+: out) : initLoop eof classlist fuel clname w ≠ .ok (out, rest) := by
  intro heq
  cases fuel with
  | zero => cases heq
  | succ fuel =>
      rw [initLoop, hread] at heq
      dsimp only at heq
      rw [if_neg (by simp), if_neg (not_not.mpr List.getLast?_concat)] at heq
      split at heq
      · cases heq
      next text htext => exact h text htext (begins_of_readArgs heq)

/-- The text up to the bracket of the first base. -/
lemma takeWhile_renderInits_cons {f : List UInt8 → List UInt8} {j : Init} {inits : List Init}
    (hw : lparen ∉ w) (hf : lparen ∉ f j.name.bytes) :
    (w ++ comma :: renderInits f (j :: inits)).takeWhile (fun b => b != lparen) =
      w ++ comma :: (j.before.bytes ++ (f j.name.bytes ++ j.mid.bytes)) := by
  have hblanks : ∀ {ws : Blanks}, lparen ∉ ws.bytes := fun {ws} h => by
    cases ws.spaces _ h
  have hsplit : w ++ comma :: renderInits f (j :: inits) =
      (w ++ comma :: (j.before.bytes ++ (f j.name.bytes ++ j.mid.bytes))) ++
        lparen :: (j.args.text ++ rparen :: (j.after.bytes ++
          closing inits :: renderInits f inits)) := by
    simp [renderInits, Init.render]
  rw [hsplit]
  refine takeWhile_eq (fun b hb => bne_iff_ne.mpr ?_) (by simp)
  rintro rfl
  simp only [List.mem_append, List.mem_cons, hw, hf, hblanks, or_false, false_or] at hb
  cases hb

/-- No name is scanned, and the class list can be such that something else is emitted: the name of
just one of the two bases is in it. -/
lemma exists_not_begins_retained {i : Init} {inits : List Init} (C : BaseName)
    (hi : i.name.bytes ∉ inits.map fun j => j.name.bytes) (hy : lparen ∉ y)
    (htake : (w ++ closing inits :: renderInits id inits).takeWhile (fun b => b != lparen) = y) :
    ∃ classlist, C.bytes ∈ classlist ∧ ∀ text,
      nameText classlist i.name.bytes (y ++ [lparen]) = some text →
        ¬text <+: w ++ closing inits :: renderInits (generated classlist) inits := by
  have hname : ∀ {name : BaseName}, lparen ∉ name.bytes := fun {name} h =>
    BaseName.ne_of_mem h rfl rfl
  have hC : C.bytes ∈ [C.bytes, i.name.bytes] := List.mem_cons_self
  have hmem : i.name.bytes ∈ [C.bytes, i.name.bytes] := List.mem_cons_of_mem _ List.mem_cons_self
  by_cases hw : lparen ∈ w
  · have hstop : ∃ b ∈ w, (b != lparen) = false := ⟨lparen, hw, rfl⟩
    rw [takeWhile_of_begins (List.prefix_append _ _) hstop] at htake
    refine ⟨_, hC, fun text => retained_not_begins hy hmem ?_⟩
    rw [takeWhile_of_begins (List.prefix_append _ _) hstop, htake]
  cases inits with
  | nil => exact ⟨_, hC, fun text => retained_not_begins hy hmem htake⟩
  | cons j inits =>
      have hclosing : closing (j :: inits) = comma := rfl
      rw [hclosing] at htake ⊢
      have hid : (w ++ comma :: renderInits id (j :: inits)).takeWhile (fun b => b != lparen) =
          w ++ comma :: (j.before.bytes ++ (j.name.bytes ++ j.mid.bytes)) :=
        takeWhile_renderInits_cons hw hname
      obtain ⟨hij, -⟩ := not_or.mp (List.mem_cons.not.mp hi)
      -- the two bases have different names, and `C` is in the list in any case
      by_cases hj : j.name.bytes = C.bytes
      · have hnot : i.name.bytes ∉ [C.bytes] := fun h =>
          hij ((List.mem_singleton.mp h).trans hj.symm)
        have hgen : generated [C.bytes] j.name.bytes = j.name.bytes ++ popcPostfix :=
          if_pos (findClass_iff.mpr (List.mem_singleton.mpr hj))
        have hlparen : lparen ∉ generated [C.bytes] j.name.bytes := by
          rw [hgen, List.mem_append]
          exact not_or.mpr ⟨hname, by decide⟩
        refine ⟨[C.bytes], List.mem_cons_self, fun text => unchanged_not_begins hy hnot ?_⟩
        rw [takeWhile_renderInits_cons hw hlparen, hgen, ← htake, hid]
        intro heq
        rw [List.append_right_inj, List.cons_inj_right, List.append_right_inj, List.append_assoc,
          List.append_right_inj, List.append_left_eq_self] at heq
        cases heq
      · have hnot : j.name.bytes ∉ [C.bytes, i.name.bytes] := by
          simp [hj, Ne.symm hij]
        have hgen : generated [C.bytes, i.name.bytes] j.name.bytes = j.name.bytes :=
          if_neg (findClass_iff.not.mpr hnot)
        refine ⟨_, hC, fun text => retained_not_begins hy hmem ?_⟩
        rw [takeWhile_renderInits_cons hw (by rw [hgen]; exact hname), hgen]
        exact hid.symm.trans htake

variable (eof) in
/-- After a comma that does not end the initialiser, the class list can be such that something else
is emitted. -/
lemma exists_initLoop_ne {i : Init} {inits : List Init} (C : BaseName) (hrest : rest ≠ [])
    (hi : i.name.bytes ∉ inits.map fun j => j.name.bytes) (hw : rparen ∈ w)
    (hnul : 0 ∉ w ++ closing inits :: (renderInits id inits ++ rest)) :
    ∃ classlist, C.bytes ∈ classlist ∧ ∀ fuel,
      initLoop eof classlist fuel i.name.bytes
          (w ++ closing inits :: (renderInits id inits ++ rest)) ≠
        .ok (w ++ closing inits :: renderInits (generated classlist) inits, rest) := by
  have hbyte : ∃ b ∈ w ++ closing inits :: renderInits id inits, Disturbs b ∨ b = lparen := by
    cases inits with
    | nil => exact ⟨lbrace, by simp [closing], .inl (by decide)⟩
    | cons j inits => exact ⟨lparen, by simp [renderInits, Init.render], .inr rfl⟩
  obtain ⟨y, ch, src, hsrc, hy, hch⟩ := exists_first hbyte
  have hinput : w ++ closing inits :: (renderInits id inits ++ rest) =
      y ++ ch :: (src ++ rest) := by
    rw [← List.cons_append, ← List.append_assoc, hsrc, List.append_assoc, List.cons_append]
  rw [hinput] at hnul ⊢
  have hplain : ∀ b ∈ y, b ≠ 0 ∧ b ≠ dquote ∧ b ≠ squote ∧ b ∉ [lparen, lbrace, semicolon] := by
    intro b hb
    have hdisturbs := hy b hb
    simp only [Disturbs, IsQuote, not_or] at hdisturbs
    refine ⟨fun h => hnul (h ▸ List.mem_append_left _ hb), ?_⟩
    simp [hdisturbs]
  obtain ⟨bracket, hpasses⟩ := exists_passes (by decide) hplain 0
  rcases hch with hdisturbs | rfl
  · refine ⟨[C.bytes], List.mem_cons_self, fun fuel => ?_⟩
    rcases readUntil_disturbed eof (by decide) (by decide) (by decide) hpasses hdisturbs
      (fun h => hnul (List.mem_append_right _ (List.mem_cons_of_mem _ h))) with
      ⟨buf, hread⟩ | ⟨hread, hch⟩
    · exact initLoop_misread hrest hread _
    · have hne : ch ≠ lparen := by
        rcases hch with rfl | rfl <;> decide
      rw [initLoop_exit hread hne]
      intro h
      cases h
  · -- what comes up to the bracket is taken for the name of a base
    have hread : readUntil eof [lparen, lbrace, semicolon] (y ++ lparen :: (src ++ rest)) =
        some (y ++ [lparen], src ++ rest) :=
      readUntil_stop eof _ (by decide) hpasses (by decide) (by decide)
        (stops_shownByte (by decide) (by decide))
    have hlparen : lparen ∉ y := fun h => hy lparen h (.inr rfl)
    by_cases hname : ((y ++ [lparen]).dropWhile isspace).takeWhile isNameByte = []
    · have hscan : scanName i.name.bytes (y ++ [lparen]) = i.name.bytes := if_pos hname
      have htake : (w ++ closing inits :: renderInits id inits).takeWhile
          (fun b => b != lparen) = y := by
        rw [hsrc]
        exact takeWhile_eq (fun b hb => bne_iff_ne.mpr fun h => hlparen (h ▸ hb)) (by simp)
      obtain ⟨classlist, hC, htext⟩ := exists_not_begins_retained C hi hlparen htake
      exact ⟨classlist, hC, fun fuel => initLoop_ne hread (by rwa [hscan])⟩
    · have hstop : ∃ b ∈ w, (b != lparen && b != rparen) = false := ⟨rparen, hw, rfl⟩
      have hbuf : (y ++ [lparen]) <+: w ++ closing inits :: renderInits id inits :=
        ⟨src, by rw [hsrc]; simp⟩
      refine ⟨[C.bytes, scanName i.name.bytes (y ++ [lparen])], List.mem_cons_self, fun fuel =>
        initLoop_ne hread fun text => scanned_not_begins hname (by simp) (by simp) ?_⟩
      rw [takeWhile_of_begins (List.prefix_append _ _) hstop,
        ← takeWhile_of_begins hbuf ⟨lparen, by simp, rfl⟩,
        takeWhile_of_begins (List.prefix_append _ _) hstop]

end Comma

/-! ### Only what is read as it is meant is rewritten -/

section Only

variable {eof ch : UInt8} {classlist : List (List UInt8)} {clname name input rest : List UInt8}
  {next : List UInt8 → Except LexFailure (List UInt8 × List UInt8)} {a : Args} {fuel : ℕ}

/-- The call for the arguments is disturbed. -/
lemma readArgs_misread_head (hrest : rest ≠ []) (hnul : 0 ∉ input)
    (hlength : rest.length ≤ input.length) (hnext : Misread rest (next []))
    (hhead : ∃ b ∈ a.head, Disturbs b) :
    Misread rest (readArgs eof name next (a.text ++ rparen :: input)) := by
  obtain ⟨u, ch, v, hsplit, hu, hch⟩ := exists_first hhead
  have hallowed : ∀ {b}, ¬Disturbs b → Allowed [rparen, lbrace, semicolon] b :=
    allowed_of_not_disturbs (by decide)
  obtain ⟨bracket, hpasses, -⟩ := a.exists_passes_head (by decide) (hallowed (by decide)) hsplit
    fun b hb => hallowed (hu b hb)
  have htext : a.text ++ rparen :: input = u ++ ch :: (v ++ rparen :: (a.tail ++ input)) := by
    rw [a.text_append, hsplit, List.append_assoc, List.cons_append]
  have hnul : 0 ∉ v ++ rparen :: (a.tail ++ input) := by
    intro h
    have hall : 0 ∈ a.text ++ rparen :: input :=
      htext ▸ List.mem_append_right _ (List.mem_cons_of_mem _ h)
    rcases List.mem_append.mp hall with h | h
    · exact a.nul_not_mem_text h
    · exact (List.mem_cons.mp h).elim (by decide) hnul
  rw [htext]
  rcases readUntil_disturbed eof (by decide) (by decide) (by decide) hpasses hch hnul with
    ⟨buf, hread⟩ | ⟨hread, hch⟩
  · exact readArgs_misread_params hrest hread hnext
  · have hlast : (u ++ [ch]).getLast? ≠ some rparen := by
      rcases hch with rfl | rfl <;> simp <;> decide
    rw [readArgs, hread]
    dsimp only
    rw [if_pos hlast]
    refine misread_ok fun heq => ?_
    have hcount := congrArg List.length heq
    simp only [List.length_append, List.length_cons] at hcount
    omega

/-- The call for what comes up to the next comma is disturbed. -/
lemma readArgs_misread_tail {u v : List UInt8} (hrest : rest ≠ []) (hnul : 0 ∉ input)
    (hlength : rest.length < input.length) (hnext : Misread rest (next []))
    (hhead : ∀ b ∈ a.head, ¬Disturbs b) (htail : a.tail = u ++ ch :: v)
    (hu : ∀ b ∈ u, b ≠ 0 ∧ ¬Disturbs b ∧ b ≠ comma) (hch : Disturbs ch) :
    Misread rest (readArgs eof name next (a.text ++ rparen :: input)) := by
  have hinput : a.tail ++ input = u ++ ch :: (v ++ input) := by
    rw [htail, List.append_assoc, List.cons_append]
  rcases hch with hquote | hch
  · obtain ⟨bracket, hpasses⟩ := exists_passes_separator hu
    have hnul : 0 ∉ v ++ input := by
      intro h
      rcases List.mem_append.mp h with h | h
      · exact a.nul_not_mem_tail (htail ▸ List.mem_append_right _ (List.mem_cons_of_mem _ h))
      · exact hnul h
    obtain ⟨buf, hread⟩ := readUntil_quote eof (by decide) hpasses hquote hnul
    exact readArgs_misread_separator hrest hhead (hinput ▸ hread) hnext
  · have hcomma : ch ≠ comma := by
      rcases hch with rfl | rfl <;> decide
    rw [readArgs_eq hhead hinput hu (.inr hch), if_neg hcomma]
    refine misread_ok fun heq => ?_
    have hcount := congrArg List.length heq
    rw [List.length_append] at hcount
    omega

namespace Args

lemma rparen_mem_of_tail {a : Args} {u v : List UInt8} (h : a.tail = u ++ comma :: v) :
    rparen ∈ v := by
  induction a with
  | nil => simp [tail] at h
  | plain _ _ rest ih => exact ih h
  | literal _ _ rest ih => exact ih h
  | group _ rest =>
      have hlast := congrArg List.getLast? h
      rw [tail, List.getLast?_concat, List.getLast?_append_cons] at hlast
      cases v with
      | nil => cases hlast
      | cons b v =>
          rw [List.getLast?_cons_cons] at hlast
          exact List.mem_of_getLast? hlast.symm

end Args

/-- Whatever the other classes are, the initialisers are rewritten and nothing more is read. -/
def Rewrites (eof : UInt8) (C : BaseName) (rest : List UInt8) (inits : List Init) : Prop :=
  ∀ classlist, C.bytes ∈ classlist → ∃ fuel clname,
    initLoop eof classlist fuel clname (renderInits id inits ++ rest) =
      .ok (renderInits (generated classlist) inits, rest)

lemma Rewrites.exists_readArgs {C : BaseName} {i : Init} {inits : List Init}
    (h : Rewrites eof C rest (i :: inits)) (hC : C.bytes ∈ classlist) : ∃ fuel name,
      readArgs eof name (initLoop eof classlist fuel i.name.bytes) (i.args.text ++ rparen ::
          (i.after.bytes ++ closing inits :: (renderInits id inits ++ rest))) =
        .ok (name ++ (i.args.text ++ rparen :: (i.after.bytes ++ closing inits ::
          renderInits (generated classlist) inits)), rest) := by
  obtain ⟨fuel, clname, heq⟩ := h classlist hC
  cases fuel with
  | zero => cases heq
  | succ fuel =>
      rw [renderInits_cons_append, id, initLoop_name] at heq
      refine ⟨fuel, _, heq.trans ?_⟩
      simp [renderInits, Init.render]

namespace Rewrites

variable {C : BaseName} {i : Init} {inits : List Init}

lemma args_clean (h : Rewrites eof C rest (i :: inits)) (hrest : rest ≠ [])
    (hi : i.name.bytes ∉ inits.map fun j => j.name.bytes)
    (hnul : 0 ∉ i.after.bytes ++ closing inits :: (renderInits id inits ++ rest)) :
    i.args.Clean := by
  obtain ⟨_, hname⟩ := exists_readUntil_nil eof [lparen, lbrace, semicolon]
  have hlength : rest.length <
      (i.after.bytes ++ closing inits :: (renderInits id inits ++ rest)).length := by
    simp only [List.length_append, List.length_cons]
    omega
  have hC : C.bytes ∈ [C.bytes] := List.mem_cons_self
  have hhead : ∀ b ∈ i.args.head, ¬Disturbs b := by
    intro b hb hdisturbs
    obtain ⟨fuel, name, heq⟩ := h.exists_readArgs hC
    exact readArgs_misread_head hrest hnul hlength.le (initLoop_misread hrest hname)
      ⟨b, hb, hdisturbs⟩ _ heq
  have htail : ∀ b ∈ i.args.tail, ¬(Disturbs b ∨ b = comma) := by
    intro b hb hbad
    have hbyte : ∃ b ∈ i.args.tail, Disturbs b ∨ b = comma := ⟨b, hb, hbad⟩
    obtain ⟨u, ch, v, hsplit, hu, hch⟩ := exists_first hbyte
    have hplain : ∀ b ∈ u, b ≠ 0 ∧ ¬Disturbs b ∧ b ≠ comma := fun b hb =>
      ⟨fun h => i.args.nul_not_mem_tail (hsplit ▸ h ▸ List.mem_append_left _ hb),
        not_or.mp (hu b hb)⟩
    rcases hch with hch | rfl
    · obtain ⟨fuel, name, heq⟩ := h.exists_readArgs hC
      exact readArgs_misread_tail hrest hnul hlength (initLoop_misread hrest hname) hhead hsplit
        hplain hch _ heq
    · -- what comes after the comma is read as the next initialiser
      have hmem : rparen ∈ v ++ i.after.bytes :=
        List.mem_append_left _ (Args.rparen_mem_of_tail hsplit)
      have hnul : 0 ∉ v ++ i.after.bytes ++ closing inits :: (renderInits id inits ++ rest) := by
        rw [List.append_assoc]
        intro h
        rcases List.mem_append.mp h with h | h
        · exact i.args.nul_not_mem_tail
            (hsplit ▸ List.mem_append_right _ (List.mem_cons_of_mem _ h))
        · exact hnul h
      obtain ⟨classlist, hC, hne⟩ := exists_initLoop_ne eof C hrest hi hmem hnul
      obtain ⟨fuel, name, heq⟩ := h.exists_readArgs hC
      have hinput : i.args.tail ++ (i.after.bytes ++ closing inits ::
          (renderInits id inits ++ rest)) = u ++ comma :: (v ++ i.after.bytes ++ closing inits ::
            (renderInits id inits ++ rest)) := by
        rw [hsplit]
        simp
      rw [readArgs_eq hhead hinput hplain (.inl rfl), if_pos rfl, i.args.text_append, hsplit] at heq
      obtain ⟨out, hout, hrendered⟩ := exists_of_map_eq_ok heq
      have hsame : out = v ++ i.after.bytes ++ closing inits ::
          renderInits (generated classlist) inits := by
        simpa using hrendered
      exact hne fuel (hsame ▸ hout)
  constructor
  · intro b hb hdisturbs
    have hrparen : b ≠ rparen := by
      rintro rfl
      exact absurd hdisturbs (by decide)
    rcases (Args.mem_text hrparen).mp hb with hb | hb
    · exact hhead b hb hdisturbs
    · exact htail b hb (.inl hdisturbs)
  · intro h
    exact htail comma ((Args.mem_tail (by decide)).mpr h) (.inr rfl)

lemma tail (h : Rewrites eof C rest (i :: inits)) (hclean : i.args.Clean) (hne : inits ≠ []) :
    Rewrites eof C rest inits := by
  intro classlist hC
  obtain ⟨fuel, name, heq⟩ := h.exists_readArgs hC
  have hclosing : closing inits = comma := if_neg (by simpa using hne)
  rw [hclosing, readArgs_clean hclean (.inl rfl), if_pos rfl] at heq
  obtain ⟨out, hout, hrendered⟩ := exists_of_map_eq_ok heq
  have hsame : out = renderInits (generated classlist) inits := by simpa using hrendered
  exact ⟨fuel, i.name.bytes, hsame ▸ hout⟩

/-- Each initialiser is read as it is meant. -/
lemma clean (h : Rewrites eof C rest inits) (hrest : rest ≠ [])
    (hnodup : (inits.map fun i => i.name.bytes).Nodup) (hnul : 0 ∉ renderInits id inits ++ rest) :
    ∀ i ∈ inits, i.args.Clean := by
  induction inits with
  | nil => exact nofun
  | cons i inits ih =>
      rw [List.map_cons, List.nodup_cons] at hnodup
      have hafter : 0 ∉ i.after.bytes ++ closing inits :: (renderInits id inits ++ rest) :=
        fun h => hnul (by
          simp only [renderInits, Init.render, List.mem_append, List.mem_cons] at h ⊢
          tauto)
      have hclean := h.args_clean hrest hnodup.1 hafter
      refine List.forall_mem_cons.mpr ⟨hclean, ?_⟩
      by_cases hne : inits = []
      · rw [hne]
        exact nofun
      · refine ih (h.tail hclean hne) hnodup.2 fun h => hafter ?_
        exact List.mem_append_right _ (List.mem_cons_of_mem _ h)

end Rewrites

/-- The call for the parameters reads everything. -/
lemma constructorRest_misread {buf : List UInt8} (hrest : rest ≠ [])
    (h : readUntil eof [rparen, semicolon, lbrace] input = some (buf, [])) :
    Misread rest (constructorRest eof classlist clname input) := by
  obtain ⟨_, hname⟩ := exists_readUntil_nil eof [lparen, lbrace, semicolon]
  obtain ⟨_, hcolon⟩ := exists_readUntil_nil eof [colon, semicolon, lbrace]
  rw [constructorRest, h]
  dsimp only
  split_ifs
  · exact misread_ok hrest.symm
  · exact (initLoop_misread hrest hname).map
  · rw [hcolon]
    dsimp only
    split_ifs
    · exact misread_ok hrest.symm
    · exact (initLoop_misread hrest hname).map

/-- The call for the parameters is disturbed. -/
lemma constructorRest_misread_params {before : Blanks} (hrest : rest ≠ []) (hnul : 0 ∉ input)
    (hlength : rest.length ≤ input.length) (h : ¬a.Undisturbed) :
    Misread rest (constructorRest eof classlist clname
      (before.bytes ++ lparen :: (a.text ++ rparen :: input))) := by
  have hallowed : ∀ {b}, ¬Disturbs b → Allowed [rparen, semicolon, lbrace] b :=
    allowed_of_not_disturbs (by decide)
  have hbyte : ∃ b ∈ a.text, Disturbs b := by simpa [Args.Undisturbed] using h
  obtain ⟨u, ch, v, hsplit, hu, hch⟩ := exists_first hbyte
  obtain ⟨bracket, -, hpasses, -⟩ := a.exists_passes (by decide) (hallowed (by decide))
    hsplit (fun b hb => hallowed (hu b hb)) (by decide : (0 : ℤ) < 1)
  have hall : Passes [rparen, semicolon, lbrace] 0 (before.bytes ++ lparen :: u) bracket :=
    (passes_plain (by decide) fun b hb => .inl (before.spaces b hb)).append
      (passes_lparen (by decide) (hallowed (by decide)) hpasses)
  have hinput : before.bytes ++ lparen :: (a.text ++ rparen :: input) =
      before.bytes ++ lparen :: u ++ ch :: (v ++ rparen :: input) := by
    rw [hsplit]
    simp
  have hnul : 0 ∉ v ++ rparen :: input := by
    intro h
    rcases List.mem_append.mp h with h | h
    · exact a.nul_not_mem_text (hsplit ▸ List.mem_append_right _ (List.mem_cons_of_mem _ h))
    · exact (List.mem_cons.mp h).elim (by decide) hnul
  rw [hinput]
  rcases readUntil_disturbed eof (by decide) (by decide) (by decide) hall hch hnul with
    ⟨buf, hread⟩ | ⟨hread, hch⟩
  · exact constructorRest_misread hrest hread
  · have hlast : (before.bytes ++ lparen :: u ++ [ch]).getLast? = some ch := List.getLast?_concat
    have hne : some ch ≠ some rparen ∧ some ch ≠ some colon := by
      rcases hch with rfl | rfl <;> exact ⟨by decide, by decide⟩
    rw [constructorRest, hread]
    dsimp only
    rw [hlast, if_pos hne.1, if_pos hne.2]
    refine misread_ok fun heq => ?_
    have hcount := congrArg List.length heq
    simp only [List.length_append, List.length_cons] at hcount
    omega

end Only

namespace ConstructorDef

lemma nul_not_mem_blanks {ws : Blanks} : 0 ∉ ws.bytes := fun h =>
  ne_zero_of_isspace (ws.spaces 0 h) rfl

lemma nul_not_mem_renderInits (inits : List Init) : 0 ∉ renderInits id inits := by
  induction inits with
  | nil => exact List.not_mem_nil
  | cons i inits ih =>
      have hname : 0 ∉ i.name.bytes := fun h => BaseName.ne_of_mem h rfl rfl
      have hclosing : closing inits ≠ 0 := by
        unfold closing
        split_ifs <;> decide
      simp only [renderInits, Init.render, List.mem_append, List.mem_cons, id, hname, ih,
        nul_not_mem_blanks, i.args.nul_not_mem_text, hclosing.symm]
      decide

variable {eof : UInt8} {collective : Bool} {d : ConstructorDef}

lemma Rewritten.params (h : d.Rewritten eof collective) : d.params.Undisturbed := by
  by_contra hbad
  have heq := (d.rewritten_iff.mp h).2 [d.name.bytes] [32] List.mem_cons_self
  have hheader : d.header id ++ [32] = d.beforeParams.bytes ++ lparen :: (d.params.text ++
      rparen :: (d.afterParams.bytes ++
        (if d.inits = [] then [lbrace] else colon :: renderInits id d.inits) ++ [32])) := by
    simp [header]
  have hnul : 0 ∉ d.afterParams.bytes ++
      (if d.inits = [] then [lbrace] else colon :: renderInits id d.inits) ++ [32] := by
    simp only [List.mem_append, List.mem_singleton, nul_not_mem_blanks, false_or]
    rintro (h | h)
    · split_ifs at h
      · cases (List.mem_singleton.mp h)
      · exact (List.mem_cons.mp h).elim (by decide) (nul_not_mem_renderInits d.inits)
    · cases h
  rw [hheader] at heq
  refine constructorRest_misread_params (List.cons_ne_nil _ _) hnul ?_ hbad _ heq
  rw [List.length_append]
  exact Nat.le_add_left _ _

lemma Rewritten.inits (h : d.Rewritten eof collective) : ∀ i ∈ d.inits, i.args.Clean := by
  by_cases hinits : d.inits = []
  · rw [hinits]
    exact nofun
  have hrewrites : Rewrites eof d.name [32] d.inits := by
    intro classlist hC
    have heq := (d.rewritten_iff.mp h).2 classlist [32] hC
    rw [header_append hinits, constructorRest_eq h.params (.inl rfl), if_pos rfl] at heq
    obtain ⟨out, hout, hrendered⟩ := exists_of_map_eq_ok heq
    have hsame : out = renderInits (generated classlist) d.inits := by
      simpa [header, hinits] using hrendered
    exact ⟨_, _, hsame ▸ hout⟩
  refine hrewrites.clean (List.cons_ne_nil _ _) d.nodup fun h => ?_
  rcases List.mem_append.mp h with h | h
  · exact nul_not_mem_renderInits d.inits h
  · cases List.mem_singleton.mp h

/-- The definition of a constructor is rewritten as it should be exactly if the class is not a
collective one, there are no literals, braces and semicolons, and no comma comes after the first
nested group in arguments.  `Rewritten` is about every list of the other classes and every text
after the definition: a definition for which only some of them go wrong is not rewritten. -/
theorem rewritten_iff_clean (d : ConstructorDef) (eof : UInt8) (collective : Bool) :
    d.Rewritten eof collective ↔ d.Clean collective :=
  ⟨fun h => ⟨(d.rewritten_iff.mp h).1, h.params, h.inits⟩, Clean.rewritten⟩

/-- A name of one byte. -/
def oneName (b : UInt8) (h : isNameByte b = true ∧ isdigit b = false) : BaseName :=
  ⟨[b], List.cons_ne_nil _ _, by simpa using h.1, by simpa using h.2⟩

/-- No blanks. -/
def noBlanks : Blanks := ⟨[], nofun⟩

/-- `b(args)`, without blanks. -/
def oneInit (b : UInt8) (h : isNameByte b = true ∧ isdigit b = false) (args : Args) : Init where
  before := noBlanks
  name := oneName b h
  mid := noBlanks
  args := args
  after := noBlanks

/-- `C::C():inits{` -/
def ofInits (inits : List Init) (h : (inits.map fun i => i.name.bytes).Nodup) :
    ConstructorDef where
  name := oneName 67 (by decide)
  beforeScope := noBlanks
  afterScope := noBlanks
  beforeParams := noBlanks
  params := .nil
  afterParams := noBlanks
  inits := inits
  nodup := h

/-- `C::C():b("a"){` -/
def withLiteral : ConstructorDef :=
  ofInits [oneInit 98 (by decide) (.literal (.string (bytesOf "a") (.plain (by decide)
    (by decide) (by decide) .nil)) (by decide) .nil)] (by decide)

/-- `C::C():b(f(x),y),c(z){` -/
def withComma : ConstructorDef :=
  ofInits [oneInit 98 (by decide) (.plain 102 (by decide) (.group (.plain 120 (by decide) .nil)
    (.plain comma (by decide) (.plain 121 (by decide) .nil)))),
    oneInit 99 (by decide) (.plain 122 (by decide) .nil)] (by decide)

/-- The literal is lost with everything after it, and a class in arguments is taken for a base. -/
theorem not_rewritten : ¬withLiteral.Rewritten 0 false ∧ ¬withComma.Rewritten 0 false := by
  refine ⟨fun h => ?_, fun h => ?_⟩
  · have heq := h [bytesOf "C"] (bytesOf " ") (by decide)
    revert heq
    decide
  · have heq := h [bytesOf "C", bytesOf "y", bytesOf "c"] (bytesOf " ") (by decide)
    revert heq
    decide

end ConstructorDef

end Parser
