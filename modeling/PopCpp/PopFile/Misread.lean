/-
# Reads that go wrong

The first byte that is not allowed spoils the run.  If it is not there, or overwrites what a
reader still holds, then less is held than is owed, and some call does not return.  Otherwise the
bytes of another position of the strip are behind the bytes of the reads before, and in a file
with a single mark (`marked`) they are not the bytes of the read.
-/
import Mathlib.Data.List.NodupEquivFin
import PopCpp.PopFile.Reads

namespace PopCpp.PopFile.Reading

open CInt Striping

/-! ### Files with a mark -/

/-- A file in which one byte is different from all others. -/
def marked (length mark : ℕ) : List UInt8 := (List.replicate length 2).set mark 1

lemma length_marked (length mark : ℕ) : (marked length mark).length = length := by
  rw [marked, List.length_set, List.length_replicate]

lemma getElem?_marked {length mark p : ℕ} (hp : p < length) :
    (marked length mark)[p]? = some (if p = mark then 1 else 2) := by
  rw [marked, List.getElem?_set, List.length_replicate, List.getElem?_replicate]
  split_ifs <;> first | rfl | omega

lemma notMem_marked (length mark : ℕ) : 0 ∉ marked length mark := by
  intro h
  rcases List.mem_or_eq_of_mem_set h with h | h
  · exact absurd (List.eq_of_mem_replicate h) (by decide)
  · exact absurd h (by decide)

/-- There is one mark only, also in a part of the file. -/
lemma mark_unique {length mark i j : ℕ} {l : List UInt8} (hl : l.Sublist (marked length mark))
    (hi : l[i]? = some 1) (hj : l[j]? = some 1) : i = j := by
  have hcount : (marked length mark).count 1 ≤ 1 := by
    have hnone : (List.replicate length (2 : UInt8)).count 1 = 0 :=
      List.count_eq_zero.mpr fun h => absurd (List.eq_of_mem_replicate h) (by decide)
    rcases Nat.lt_or_ge mark length with hlt | hge
    · rw [marked, List.count_set (by rwa [List.length_replicate]), hnone, Nat.zero_sub,
        if_pos (by decide)]
    · rw [marked, List.set_eq_of_length_le (by rwa [List.length_replicate]), hnone]
      exact Nat.zero_le 1
  have hlt : ∀ {i j : ℕ}, l[i]? = some 1 → l[j]? = some 1 → ¬i < j := by
    intro i j hi hj hij
    obtain ⟨hi', hieq⟩ := List.getElem?_eq_some_iff.mp hi
    obtain ⟨hj', hjeq⟩ := List.getElem?_eq_some_iff.mp hj
    have hdup : List.Duplicate 1 l := List.duplicate_iff_exists_distinct_get.mpr
      ⟨⟨i, hi'⟩, ⟨j, hj'⟩, hij, hieq.symm, hjeq.symm⟩
    have htwo := List.duplicate_iff_two_le_count.mp hdup
    have hle := hl.count_le 1
    omega
  exact Nat.le_antisymm (not_lt.mp (hlt hj hi)) (not_lt.mp (hlt hi hj))

section Spoiled

variable {k : ℕ} [NeZero k] {c : ℕ} {null : Fin k → Bool} {file : List UInt8} {w : Window k}
  {s t : POPFStream k} {grip : POPFileGrip k} {grips : List (POPFileGrip k)} {n p q : ℕ}

/-- Behind the bytes of the file up to a position there is another byte than at the position, and
a read that goes beyond the position is not yet collected. -/
structure Spoiled (c : ℕ) (null : Fin k → Bool) (file : List UInt8) (p q : ℕ)
    (pending : List ℕ) (s : POPFStream k) (grips : List (POPFileGrip k)) : Prop where
  queued : s.Queued c (stripsOf k c file) null grips
  amount_le : s.amount ≤ POPFStream.owed grips
  inFile : q ≤ file.length
  ahead : ∃ (tail : Fin k → List UInt8) (x : UInt8) (rest : List UInt8),
    Ahead c file p q tail s ∧ tail (turn k c q) = x :: rest ∧ file[q]? ≠ some x
  grip : ∃ good grip more, grips = good ++ grip :: more ∧ Outstanding c p pending good ∧
    p + pending.sum ≤ q ∧ q < p + pending.sum + grip.size ∧
    grip.firstReader = turn k c (p + pending.sum) ∧
    (p + pending.sum = q ∨ grip.firstRead = 0 ∧ c ∣ p + pending.sum ∧ c ∣ q)

lemma singleton_prefix_take {x : UInt8} {xs : List UInt8} {a : ℕ} (ha : 0 < a) :
    [x] <+: (x :: xs).take a := by
  obtain ⟨a, rfl⟩ := Nat.exists_eq_succ_of_ne_zero ha.ne'
  rw [List.take_succ_cons]
  exact List.prefix_append [x] _

/-- The other byte is returned. -/
lemma Ahead.getLoop_spoiled (hc : 0 < c) (hq : q ≤ file.length) {tail : Fin k → List UInt8}
    {x : UInt8} {rest : List UInt8} (hx : tail (turn k c q) = x :: rest) (fuel : ℕ) :
    ∀ {s t : POPFStream k} {p firstRead n : ℕ} {data : List UInt8},
      s.Setup c (stripsOf k c file) null → Ahead c file p q tail s →
      (p = q ∨ firstRead = 0 ∧ c ∣ p ∧ c ∣ q) → p ≤ q → q < p + n →
      POPFStream.getLoop fuel s (turn k c p) firstRead n = some (data, t) →
      slice file p q ++ [x] <+: data := by
  induction fuel with
  | zero => intro s t p firstRead n data _ _ _ _ _ hget; cases hget
  | succ fuel ih =>
      intro s t p firstRead n data hsetup h hstart hle hlt hget
      rcases Nat.eq_or_lt_of_le hle with rfl | hpq
      · -- the byte is the next one that the reader gives away
        have hheld : s.held (turn k c p) = x :: rest := by
          rw [h, slice_self, stripFrom_nil, List.nil_append, hx]
        rw [slice_self, List.nil_append]
        rcases Nat.lt_or_ge c n with hcn | hcn
        · rw [hsetup.getLoop_of_lt hcn, hheld] at hget
          have hpos : 0 < if firstRead ≠ 0 then firstRead else c := by
            split_ifs <;> omega
          generalize (if firstRead ≠ 0 then firstRead else c) = a at hget hpos
          split_ifs at hget
          obtain ⟨r, -, heq⟩ := Option.map_eq_some_iff.mp hget
          cases heq
          exact (singleton_prefix_take hpos).trans (List.prefix_append _ _)
        · rw [hsetup.getLoop_of_le hcn (by omega), hheld] at hget
          split_ifs at hget
          cases hget
          exact singleton_prefix_take (by omega)
      · obtain ⟨rfl, hp, hdvd⟩ := hstart.resolve_left hpq.ne
        have hblock : p + c ≤ q := by
          have hend := PopFile.POPFStream.blockEnd_le hc hdvd hpq
          rwa [Nat.mod_eq_zero_of_dvd hp, Nat.sub_zero] at hend
        obtain ⟨henough, htake, hahead⟩ := h.dropHeld hc (a := c)
          (by rw [Nat.mod_eq_zero_of_dvd hp, Nat.zero_add]) hblock hq
        have hzero : ¬((0 : ℕ) ≠ 0) := fun hne => hne rfl
        rw [hsetup.getLoop_of_lt (by omega), if_neg hzero, if_neg henough, turn_add hc,
          htake] at hget
        obtain ⟨⟨data', t'⟩, hrest, heq⟩ := Option.map_eq_some_iff.mp hget
        cases heq
        have hprefix := ih (hsetup.dropHeld _ c) hahead (.inr ⟨rfl, hp.add dvd_rfl, hdvd⟩) hblock
          (by omega) hrest
        rw [← slice_append_slice file (Nat.le_add_right p c) hblock, List.append_assoc]
        exact (List.prefix_append_right_inj _).mpr hprefix

/-- `get_read` of the grip that goes beyond the position. -/
lemma Ahead.getRead_spoiled (hc : 0 < c) (hq : q ≤ file.length) {tail : Fin k → List UInt8}
    {x : UInt8} {rest : List UInt8} (hx : tail (turn k c q) = x :: rest) {fuel : ℕ}
    {data : List UInt8} (hsetup : s.Setup c (stripsOf k c file) null) (h : Ahead c file p q tail s)
    (hstart : p = q ∨ grip.firstRead = 0 ∧ c ∣ p ∧ c ∣ q) (hle : p ≤ q) (hlt : q < p + grip.size)
    (horder : grip.order = s.popfileServedGrip) (hreader : grip.firstReader = turn k c p)
    (hget : s.getRead fuel grip = some (data, t)) : slice file p q ++ [x] <+: data := by
  rw [hsetup.getRead_eq horder, hreader] at hget
  obtain ⟨⟨data', t'⟩, hdata, heq⟩ := Option.map_eq_some_iff.mp hget
  cases heq
  by_cases hcn : c < grip.size
  · rw [if_pos hcn] at hdata
    exact h.getLoop_spoiled hc hq hx fuel hsetup hstart hle hlt hdata
  · rw [if_neg hcn] at hdata
    -- the read is within a block, and begins at the position
    have hpq : p = q := by
      rcases Nat.eq_or_lt_of_le hle with heq | hpq
      · exact heq
      · obtain ⟨-, hp, hdvd⟩ := hstart.resolve_left hpq.ne
        have hend := PopFile.POPFStream.blockEnd_le hc hdvd hpq
        rw [Nat.mod_eq_zero_of_dvd hp] at hend
        omega
    subst hpq
    have hheld : s.held (turn k c p) = x :: rest := by
      rw [h, slice_self, stripFrom_nil, List.nil_append, hx]
    rw [hheld] at hdata
    split_ifs at hdata
    cases hdata
    rw [slice_self, List.nil_append]
    exact singleton_prefix_take (by omega)

/-- A spoiled run does not return the bytes of the file. -/
lemma Spoiled.run (hc : 0 < c) {fuel : ℕ} (hfuel : file.length ≤ fuel) (calls : List Call) :
    ∀ {s : POPFStream k} {grips : List (POPFileGrip k)} {p : ℕ} {pending : List ℕ}
      {results : List (List UInt8)}, Spoiled c null file p q pending s grips →
      Balanced grips.length calls → Reading.run fuel s grips calls = some results →
      ¬results.flatten <+: file.drop p := by
  induction calls with
  | nil =>
      intro s grips p pending results h hbalanced _ _
      obtain ⟨good, grip, more, rfl, -⟩ := h.grip
      exact absurd (List.length_eq_zero_iff.mp hbalanced) (by simp)
  | cons call calls ih =>
      intro s grips p pending results h hbalanced hrun hprefix
      obtain ⟨tail, x, rest, hahead, hx, hmark⟩ := h.ahead
      obtain ⟨good, grip, more, rfl, hgood, hle, hlt, hreader, hstart⟩ := h.grip
      cases call with
      | readInBackground n =>
          obtain ⟨⟨grip', t⟩, ht, hrest⟩ := Option.bind_eq_some_iff.mp hrun
          obtain ⟨hqueued, hgrows, hsize, -⟩ := h.queued.readInBackground ht
          have hbalanced' : Balanced (good ++ grip :: more ++ [grip']).length calls := by
            rw [List.length_append]
            exact hbalanced
          have howed : POPFStream.owed (good ++ grip :: more ++ [grip']) =
              POPFStream.owed (good ++ grip :: more) + n := by
            rw [POPFStream.owed, List.map_append, List.sum_append, List.map_singleton,
              List.sum_singleton, hsize]
            rfl
          have hdebt := hqueued.owed_le calls hbalanced' hrest
          have hamount := h.amount_le
          have hgrowth := hgrows.le
          -- nothing is overwritten, or less would be held than is owed
          have hextends : ∀ i, ∃ more, s.held i ++ more = t.held i :=
            hgrows.prefixes (by omega)
          choose added hadded using hextends
          refine @ih t _ p pending results ⟨hqueued, by omega, h.inFile,
            ⟨fun i => tail i ++ added i, x, rest ++ added (turn k c q), fun i => ?_, ?_, hmark⟩,
            ⟨good, grip, more ++ [grip'], by simp, hgood, hle, hlt, hreader, hstart⟩⟩
            hbalanced' hrest hprefix
          · rw [← hadded, hahead, List.append_assoc]
          · show tail (turn k c q) ++ added (turn k c q) = _
            rw [hx]
            rfl
      | getRead =>
          cases hgood with
          | nil =>
              -- the read that goes beyond the position
              obtain ⟨⟨data, t⟩, ht, hrest⟩ := Option.bind_eq_some_iff.mp hrun
              obtain ⟨results', -, hend⟩ := Option.bind_eq_some_iff.mp hrest
              obtain rfl := Option.some.inj hend
              have hwrong := hahead.getRead_spoiled hc h.inFile hx h.queued.setup hstart hle hlt
                h.queued.orders_cons.1 hreader ht
              have hbytes := (hwrong.trans (List.prefix_append data results'.flatten)).trans hprefix
              have hpq : p ≤ q := hle
              rw [← slice_append_drop file hpq] at hbytes
              obtain ⟨more', hmore⟩ := (List.prefix_append_right_inj _).mp hbytes
              refine hmark ?_
              have hget := congrArg (·[0]?) hmore
              simpa using hget.symm
          | @cons _ n pending grip' good' hsize hfirstReader hfirstRead haligned hothers =>
              subst hsize
              rw [List.sum_cons, ← Nat.add_assoc] at hle hlt hreader hstart
              have hnext : p + grip'.size ≤ q := (Nat.le_add_right _ _).trans hle
              have hin := h.inFile
              obtain ⟨t, ht, haheadt, -⟩ := hahead.getRead hc h.queued.setup hin
                h.queued.orders_cons.1 hfirstReader hfirstRead haligned hnext
                (show grip'.size ≤ fuel by omega)
              obtain ⟨⟨data, t'⟩, ht', hrest⟩ := Option.bind_eq_some_iff.mp hrun
              obtain ⟨results', hresults, hend⟩ := Option.bind_eq_some_iff.mp hrest
              obtain rfl := Option.some.inj hend
              obtain ⟨rfl, rfl⟩ := Prod.mk.inj (Option.some.inj (ht.symm.trans ht'))
              obtain ⟨hqueued, hless⟩ := h.queued.getRead ht
              have hamount := h.amount_le
              have howed : POPFStream.owed (grip' :: good' ++ grip :: more) =
                  grip'.size + POPFStream.owed (good' ++ grip :: more) := rfl
              have hleft : t.amount ≤ POPFStream.owed (good' ++ grip :: more) := by omega
              have hbytes : slice file p (p + grip'.size) ++ results'.flatten <+: file.drop p :=
                hprefix
              rw [← slice_append_drop file (Nat.le_add_right p grip'.size)] at hbytes
              exact @ih t _ _ pending results' ⟨hqueued, hleft, hin,
                ⟨tail, x, rest, haheadt, hx, hmark⟩,
                ⟨good', grip, more, rfl, hothers, hle, hlt, hreader, hstart⟩⟩ hbalanced.2 hresults
                ((List.prefix_append_right_inj _).mp hbytes)

/-! ### The first fault -/

lemma Contents.amount_eq (h : Contents c null file w p s) (hfile : p ≤ file.length) :
    s.amount = p - w.collected := by
  rw [← length_slice hfile, ← sum_length_stripFrom (c := c) (Nat.pos_of_neZero k)
    (slice file w.collected p) w.collected]
  exact Finset.sum_congr rfl fun i _ => by rw [h.held]

/-- The readers hold what is owed. -/
lemma Follows.amount_eq (h : Follows c null file w s grips) :
    s.amount = w.issued - w.collected ∧ POPFStream.owed grips = w.issued - w.collected := by
  have hpending := h.pending
  refine ⟨h.contents.amount_eq h.issued_le, ?_⟩
  rw [h.grips.owed_eq]
  omega

section Fault

variable {fuel : ℕ} {calls : List Call} {results : List (List UInt8)}

/-- If all calls return, a read adds all of its bytes. -/
lemma Follows.amount_full (h : Follows c null file w s grips)
    (ht : s.readInBackground fuel n = some (grip, t))
    (hbalanced : Balanced (grips.length + 1) calls)
    (hrest : Reading.run fuel t (grips ++ [grip]) calls = some results) :
    s.amount + n ≤ t.amount := by
  obtain ⟨hqueued, -, hsize, -⟩ := h.queued.readInBackground ht
  obtain ⟨hamount, howed⟩ := h.amount_eq
  have hdebt := hqueued.owed_le calls (by rwa [List.length_append]) hrest
  rw [POPFStream.owed, List.map_append, List.sum_append, List.map_singleton, List.sum_singleton,
    hsize] at hdebt
  rw [POPFStream.owed] at howed
  omega

/-- Other data behind the bytes up to a position spoil the run. -/
lemma Follows.not_prefix (h : Follows c null file w s grips) (hc : 0 < c)
    (hfuel : file.length ≤ fuel) (ht : s.readInBackground fuel n = some (grip, t))
    (hbalanced : Balanced (grips.length + 1) calls)
    (hrest : Reading.run fuel t (grips ++ [grip]) calls = some results)
    {u : POPFStream k} {x : UInt8} {data : List UInt8}
    (hheld : ∀ i : Fin k, u.held i = stripFrom k c i w.collected (slice file w.collected q) ++
      if i = turn k c q then x :: data else [])
    (hmark : file[q]? ≠ some x) (hkept : ∀ i, u.held i <+: t.held i) (hq : w.issued ≤ q)
    (hlt : q < w.issued + n) (hfile : w.issued + n ≤ file.length)
    (hstart : w.issued = q ∨ grip.firstRead = 0 ∧ c ∣ w.issued ∧ c ∣ q) :
    ¬results.flatten <+: file.drop w.collected := by
  obtain ⟨hqueued, hgrows, hsize, hreader⟩ := h.queued.readInBackground ht
  obtain ⟨hamount, howed⟩ := h.amount_eq
  have hextends : ∀ i, ∃ more, u.held i ++ more = t.held i := hkept
  choose added hadded using hextends
  have hpending := h.pending
  have hspoiled : Spoiled c null file w.collected q w.pending t (grips ++ [grip]) := by
    refine ⟨hqueued, ?_, by omega,
      ⟨fun i => (if i = turn k c q then x :: data else []) ++ added i, x,
        data ++ added (turn k c q), fun i => ?_, ?_, hmark⟩,
      ⟨grips, grip, [], rfl, h.grips, ?_, ?_, ?_, ?_⟩⟩
    · have hgrowth := hgrows.le
      rw [POPFStream.owed, List.map_append, List.sum_append, List.map_singleton,
        List.sum_singleton, hsize]
      rw [POPFStream.owed] at howed
      omega
    · rw [← hadded, hheld, List.append_assoc]
    · show (if turn k c q = turn k c q then x :: data else []) ++ added (turn k c q) = _
      rw [if_pos rfl]
      rfl
    · rwa [hpending]
    · rwa [hpending, hsize]
    · rw [hpending, hreader, h.reader]
    · rwa [hpending]
  exact hspoiled.run hc hfuel calls (by rwa [List.length_append]) hrest

/-- What a block begins with. -/
lemma slice_eq_cons {xs : List UInt8} {a : ℕ} {x : UInt8} (hx : xs[p]? = some x) (ha : 0 < a) :
    ∃ rest, slice xs p (p + a) = x :: rest := by
  obtain ⟨hp, rfl⟩ := List.getElem?_eq_some_iff.mp hx
  obtain ⟨a, rfl⟩ := Nat.exists_eq_succ_of_ne_zero ha.ne'
  refine ⟨(xs.drop (p + 1)).take a, ?_⟩
  rw [slice, Nat.add_sub_cancel_left, List.drop_eq_getElem_cons hp, List.take_succ_cons]

/-- A read that begins within a block gets the first bytes of the block. -/
lemma Follows.not_prefix_of_not_dvd {length : ℕ}
    (h : Follows c null (marked length (w.issued - w.issued % c)) w s grips) (hc : 0 < c)
    (hnot : ¬c ∣ w.issued) (hn : 0 < n) (hfile : w.issued + n ≤ length) (hfuel : length ≤ fuel)
    (ht : s.readInBackground fuel n = some (grip, t))
    (hbalanced : Balanced (grips.length + 1) calls)
    (hrest : Reading.run fuel t (grips ++ [grip]) calls = some results) :
    ¬results.flatten <+: (marked length (w.issued - w.issued % c)).drop w.collected := by
  have hlength := length_marked length (w.issued - w.issued % c)
  have hmod := Nat.mod_lt w.issued hc
  have hmodle := Nat.mod_le w.issued c
  have hmodpos : w.issued % c ≠ 0 := fun hzero => hnot (Nat.dvd_of_mod_eq_zero hzero)
  obtain ⟨fuel, rfl⟩ := Nat.exists_eq_succ_of_ne_zero (by omega : fuel ≠ 0)
  obtain ⟨u, hu, hasked⟩ := h.contents.setup.readLoop_first hn ht
    fun hs hr => hs.readLoop_asked hr
  have hpos := h.contents.setup.blockRest_pos
  have hle := h.contents.setup.blockRest_le
  generalize ha : (if c ≤ n then
    POPFStream.blockRest { s with popfileCurrentGrip := s.popfileCurrentGrip + 1 } else n) = a
    at hu hasked
  have habounds : 0 < a ∧ a ≤ n ∧ a ≤ c := by
    rw [← ha]
    split_ifs <;> omega
  -- the request adds all of its bytes
  have hfull := h.amount_full ht hbalanced hrest
  have hgrowth := hasked.grows.le
  have hsame : POPFStream.amount { s with popfileCurrentGrip := s.popfileCurrentGrip + 1 } =
    s.amount := rfl
  have hgrows := (h.contents.setup.readInStrip_grows hu).2.le
  obtain ⟨data, hdata, -, hheld, -⟩ := h.contents.setup.readInStrip_full hu (by omega)
  -- they are the first bytes of the block
  have hdvd : c ∣ w.issued - w.issued % c := Nat.dvd_sub_mod _
  have hblock : w.issued / c = (w.issued - w.issued % c) / c := by
    conv_lhs => rw [← Nat.sub_add_cancel hmodle]
    exact add_div_eq_of_lt hc hdvd hmod
  obtain ⟨hturn, hstart, hservable⟩ := same_block (k := k) hblock
  have hread := readFromStrip_of_servable (a := a) hc hdvd habounds.2.2 (by omega)
    (notMem_marked length _) ((hservable _).mp (h.servable hnot))
  have hreader : s.popfileCurrentReader = turn k c (w.issued - w.issued % c) := by
    rw [h.reader, hturn]
  have hoffset : s.popfileCurrentReaderOffset =
      wrap (blockStart k c (w.issued - w.issued % c)) := by
    rw [h.readerOffset, hstart]
  simp only [hreader, hoffset] at hdata
  obtain rfl := Option.some.inj (hread.symm.trans hdata)
  have hmark : (marked length (w.issued - w.issued % c))[w.issued - w.issued % c]? = some 1 := by
    rw [getElem?_marked (by omega), if_pos rfl]
  obtain ⟨rest, hcons⟩ := slice_eq_cons hmark habounds.1
  have hwrong : ∀ i : Fin k, u.held i =
      stripFrom k c i w.collected
        (slice (marked length (w.issued - w.issued % c)) w.collected w.issued) ++
        if i = turn k c w.issued then 1 :: rest else [] := by
    intro i
    rw [hheld i, hcons, ← h.held i, ← h.reader]
    rfl
  refine h.not_prefix hc (by omega) ht hbalanced hrest hwrong ?_
    (hasked.grows.prefixes (by omega)) le_rfl (by omega) (by omega) (.inl rfl)
  rw [getElem?_marked (by omega), if_neg (by omega)]
  decide

/-- The beginning of another block of the strip than the marked one has no mark. -/
lemma head_ne_mark {length a : ℕ} (hc : 0 < c) (hp : c ∣ p) (hfile : p < length)
    (ha : 0 < a) {data : List UInt8}
    (hdata : readFromStrip (stripsOf k c (marked length p) (turn k c p))
      (wrap (blockStart k c p)) a = some data) (hlen : data.length = a)
    (hservable : ¬Servable k c length p) : ∃ x rest, data = x :: rest ∧ x ≠ 1 := by
  have hstrip : (stripsOf k c (marked length p) (turn k c p)).length =
      (strip k c (turn k c p) (List.replicate length ())).length :=
    length_stripFrom_congr (by rw [length_marked, List.length_replicate])
  rw [Servable, ← hstrip, not_lt] at hservable
  unfold readFromStrip at hdata
  split_ifs at hdata with hend hin
  · obtain rfl := Option.some.inj hdata
    exact absurd hlen ha.ne
  have hprefix : data <+: ((stripsOf k c (marked length p) (turn k c p)).drop
      (wrap (blockStart k c p)).toNat).take a := by
    rw [← Option.some.inj hdata]
    exact List.takeWhile_prefix _
  obtain ⟨x, rest, rfl⟩ := List.exists_cons_of_length_pos (hlen ▸ ha)
  refine ⟨x, rest, rfl, fun hx => ?_⟩
  subst hx
  have hthere : (stripsOf k c (marked length p) (turn k c p))[(wrap (blockStart k c p)).toNat]? =
      some 1 := by
    obtain ⟨more, hmore⟩ := hprefix
    have hget := congrArg (·[0]?) hmore
    rw [List.getElem?_take_of_lt ha, List.getElem?_drop, Nat.add_zero] at hget
    exact hget.symm
  have hmark : (stripsOf k c (marked length p) (turn k c p))[blockStart k c p]? = some 1 := by
    have htake : ((strip k c (turn k c p) (marked length p)).drop (blockStart k c p)).take 1 =
        ((marked length p).drop p).take 1 :=
      take_drop_strip_turn hc hp hc
    have hblock := congrArg (·[0]?) htake
    rw [List.getElem?_take_of_lt Nat.one_pos, List.getElem?_take_of_lt Nat.one_pos,
      List.getElem?_drop, List.getElem?_drop, Nat.add_zero, Nat.add_zero, getElem?_marked hfile,
      if_pos rfl] at hblock
    exact hblock
  have hsame := mark_unique (stripFrom_sublist _ 0) hthere hmark
  have hstart := Int.toNat_of_nonneg hin.1
  rw [hsame] at hstart
  rw [hstart] at hservable
  exact hend hservable

lemma Window.allows_congr {length : ℕ} (h : q / c = p / c) :
    w.Allows c length null q ↔ w.Allows c length null p := by
  obtain ⟨hturn, -, hservable⟩ := same_block (k := k) h
  rw [Window.Allows, Window.Allows, hturn, hservable]

/-- The first byte that is not allowed is at the start of a block; it is missing, or overwrites
others, or is not the byte of the file. -/
lemma Follows.not_prefix_of_fault {length : ℕ} (h : Follows c null (marked length p) w s grips)
    (hc : 0 < c) (haligned : c ∣ w.issued) (hp : c ∣ p) (hissued : w.issued ≤ p)
    (hlt : p < w.issued + n) (hfile : w.issued + n ≤ length)
    (hallows : ∀ q, w.issued ≤ q → q < p → w.Allows c length null q)
    (hnot : ¬w.Allows c length null p) (hfuel : length < fuel)
    (ht : s.readInBackground fuel n = some (grip, t))
    (hbalanced : Balanced (grips.length + 1) calls)
    (hrest : Reading.run fuel t (grips ++ [grip]) calls = some results) :
    ¬results.flatten <+: (marked length p).drop w.collected := by
  have hlength := length_marked length p
  have hcollected := h.collected_le
  obtain ⟨blocks, hblocks⟩ : ∃ blocks, blocks * c = p - w.issued :=
    ⟨(p - w.issued) / c, Nat.div_mul_cancel (Nat.dvd_sub hp haligned)⟩
  have hblocksle : blocks ≤ blocks * c := Nat.le_mul_of_pos_right _ hc
  have hend : w.issued + blocks * c = p := by omega
  obtain ⟨fuel, rfl⟩ : ∃ fuel', fuel = fuel' + 1 + blocks := ⟨fuel - 1 - blocks, by omega⟩
  -- up to the byte everything is asked for
  obtain ⟨u, hu, hloop⟩ := Asking.readLoop hc (notMem_marked length p) hcollected
    ⟨n, s.popfileCurrentReader, 0, s.popfileCurrentGrip⟩ (fuel + 1) blocks
    (n := n) (h.asking haligned) haligned le_rfl (by omega) (by omega)
    fun q hq hqlt => by rw [hlength]; exact hallows q hq (by omega)
  rw [hend] at hu
  have ht' := hloop.symm.trans ht
  obtain ⟨v, hv, hasked⟩ := hu.setup.readLoop_first (by omega) ht'
    fun hs hr => hs.readLoop_asked hr
  have hpos := hu.setup.blockRest_pos
  have hle := hu.setup.blockRest_le
  generalize ha : (if c ≤ n - blocks * c then u.blockRest else n - blocks * c) = a at hv hasked
  have habounds : 0 < a ∧ a ≤ n - blocks * c ∧ a ≤ c := by
    rw [← ha]
    split_ifs <;> omega
  -- the request adds all of its bytes behind the others
  have hfull := h.amount_full ht hbalanced hrest
  have hgrowth := hasked.grows.le
  have hgrows := (hu.setup.readInStrip_grows hv).2.le
  have hbefore := h.amount_eq.1
  have hamount := hu.toContents.amount_eq (by omega)
  obtain ⟨data, hdata, hlen, hheld, hput⟩ := hu.setup.readInStrip_full hv (by omega)
  obtain ⟨-, -, hnull, -⟩ := hu.setup.readInStrip hv
  rw [hu.reader] at hnull
  simp only [hu.reader] at hput hheld
  rw [hu.reader, hu.readerOffset] at hdata
  have hgiven : ¬(w.given (turn k c p) = true ∧ w.Holds c (turn k c p)) := by
    rintro ⟨hg, hholds⟩
    have huntouched : ∀ r, w.issued ≤ r → r < p → turn k c r ≠ turn k c p := fun r hr hrp heq =>
      (hallows r hr hrp).2.2.2 (heq ▸ ⟨hg, hholds⟩)
    have hzero := hput habounds.1
    rw [hu.put, if_pos ⟨hg, huntouched⟩, hu.held] at hzero
    obtain ⟨r, hr, hturn⟩ := hholds
    obtain ⟨hge, hrlt⟩ := List.mem_range'_1.mp hr
    refine stripFrom_ne_nil (j := r - w.collected) ?_ ?_ (List.length_eq_zero_iff.mp hzero.symm)
    · rw [length_slice (by omega)]
      omega
    · rw [Nat.add_sub_cancel' hge]
      exact congrArg Fin.val hturn
  have hservable : ¬Servable k c length p := fun hs => hnot ⟨haligned, hs, hnull, hgiven⟩
  -- so it is not the byte of the file
  obtain ⟨x, rest, rfl, hx⟩ := head_ne_mark hc hp (by omega) habounds.1 hdata hlen hservable
  have hwrong : ∀ i : Fin k, v.held i =
      stripFrom k c i w.collected (slice (marked length p) w.collected p) ++
        if i = turn k c p then x :: rest else [] := fun i => by rw [hheld i, hu.held]
  refine h.not_prefix hc (by omega) ht hbalanced hrest hwrong ?_
    (hasked.grows.prefixes (by omega)) hissued hlt (by omega) (.inr ⟨?_, haligned, hp⟩)
  · rw [getElem?_marked (by omega), if_pos rfl]
    exact fun heq => hx (Option.some.inj heq).symm
  · exact POPFStream.readLoop_firstRead (h.asking haligned).pointer ht

/-- The first byte that is not allowed is at the start of a block. -/
lemma Window.exists_fault {length : ℕ} (hc : 0 < c) (haligned : c ∣ w.issued)
    (hfault : ¬∀ p ∈ List.range' w.issued n, w.Allows c length null p) :
    ∃ p, c ∣ p ∧ w.issued ≤ p ∧ p < w.issued + n ∧ ¬w.Allows c length null p ∧
      ∀ q, w.issued ≤ q → q < p → w.Allows c length null q := by
  have hexists : ∃ p, p ∈ List.range' w.issued n ∧ ¬w.Allows c length null p := by
    obtain ⟨p, hp⟩ := not_forall.mp hfault
    exact ⟨p, Classical.not_imp.mp hp⟩
  obtain ⟨hmem, hnot⟩ := Nat.find_spec hexists
  have hmin : ∀ {q}, q < Nat.find hexists →
      ¬(q ∈ List.range' w.issued n ∧ ¬w.Allows c length null q) := Nat.find_min hexists
  generalize Nat.find hexists = p at hmem hnot hmin
  obtain ⟨hle, hlt⟩ := List.mem_range'_1.mp hmem
  have hbefore : ∀ q, w.issued ≤ q → q < p → w.Allows c length null q := fun q hq hqp =>
    not_not.mp fun hn => hmin hqp ⟨List.mem_range'_1.mpr ⟨hq, by omega⟩, hn⟩
  refine ⟨p, ?_, hle, hlt, hnot, hbefore⟩
  -- otherwise the start of its block would not be allowed
  by_contra hp
  have hdiv := Nat.div_add_mod p c
  have hpos : p % c ≠ 0 := fun hzero => hp (Nat.dvd_of_mod_eq_zero hzero)
  have hstart : w.issued ≤ c * (p / c) := by
    obtain ⟨j, hj⟩ := haligned
    rw [hj] at hle ⊢
    exact Nat.mul_le_mul_left c ((Nat.le_div_iff_mul_le hc).mpr (by rwa [Nat.mul_comm]))
  refine hnot ((Window.allows_congr ?_).mp (hbefore (c * (p / c)) hstart (by omega)))
  exact Nat.mul_div_cancel_left _ hc

/-- If not every byte is allowed, there is a file for which the run goes wrong. -/
lemma exists_mark {length : ℕ} (hc : 0 < c) (calls : List Call) :
    ∀ {w : Window k}, w.issued + total calls ≤ length → ¬Allowed c length null w calls →
      ∃ mark, ∀ {s : POPFStream k} {grips : List (POPFileGrip k)} {fuel : ℕ}
        {results : List (List UInt8)}, Follows c null (marked length mark) w s grips →
        Balanced grips.length calls → length < fuel →
        Reading.run fuel s grips calls = some results →
        ¬results.flatten <+: (marked length mark).drop w.collected := by
  induction calls with
  | nil => intro w _ hnot; exact absurd trivial hnot
  | cons call calls ih =>
      intro w hfile hnot
      cases call with
      | readInBackground n =>
          have hfile' : w.issued + (n + total calls) ≤ length := hfile
          by_cases hallows : ∀ p ∈ List.range' w.issued n, w.Allows c length null p
          · -- nothing is wrong yet: the fault is in one of the later calls
            obtain ⟨mark, hmark⟩ := ih (w := w.issue c n)
              (by show w.issued + n + total calls ≤ length; omega) fun h => hnot ⟨hallows, h⟩
            refine ⟨mark, fun {s grips fuel results} h hbalanced hfuel hrun => ?_⟩
            have hlength := length_marked length mark
            obtain ⟨grip, t, ht, hfollows⟩ := h.readInBackground hc (notMem_marked length mark)
              (by omega) (by rwa [hlength]) (show n < fuel by omega)
            obtain ⟨r, hr, hrest⟩ := Option.bind_eq_some_iff.mp hrun
            obtain rfl := Option.some.inj (ht.symm.trans hr)
            exact hmark hfollows (by rw [List.length_append]; exact hbalanced) hfuel hrest
          -- the mark is the first byte that may not be asked for, or the start of the stripe
          by_cases haligned : c ∣ w.issued
          · obtain ⟨p, hp, hissued, hlt, hfault, hbefore⟩ := Window.exists_fault hc haligned hallows
            refine ⟨p, fun {s grips fuel results} h hbalanced hfuel hrun => ?_⟩
            obtain ⟨⟨grip, t⟩, ht, hrest⟩ := Option.bind_eq_some_iff.mp hrun
            exact h.not_prefix_of_fault hc haligned hp hissued hlt (by omega) hbefore hfault hfuel
              ht hbalanced hrest
          · have hn : 0 < n := by
              refine Nat.pos_of_ne_zero fun hzero => hallows fun p hp => ?_
              rw [hzero] at hp
              exact absurd hp List.not_mem_nil
            refine ⟨w.issued - w.issued % c,
              fun {s grips fuel results} h hbalanced hfuel hrun => ?_⟩
            obtain ⟨⟨grip, t⟩, ht, hrest⟩ := Option.bind_eq_some_iff.mp hrun
            exact h.not_prefix_of_not_dvd hc haligned hn (by omega) hfuel.le ht hbalanced hrest
      | getRead =>
          obtain ⟨mark, hmark⟩ := ih (w := w.collect c) (by rwa [Window.issued_collect]) hnot
          refine ⟨mark, fun {s grips fuel results} h hbalanced hfuel hrun hprefix => ?_⟩
          cases grips with
          | nil => exact absurd hbalanced.1 (Nat.lt_irrefl 0)
          | cons grip grips =>
              have hlength := length_marked length mark
              obtain ⟨t, ht, hfollows⟩ := h.getRead hc
                (show (marked length mark).length ≤ fuel by omega)
              obtain ⟨r, hr, hrest⟩ := Option.bind_eq_some_iff.mp hrun
              obtain rfl := Option.some.inj (ht.symm.trans hr)
              obtain ⟨results', hresults, hend⟩ := Option.bind_eq_some_iff.mp hrest
              obtain rfl := Option.some.inj hend
              rw [← slice_append_drop _ (w.collected_le_collect c)] at hprefix
              exact hmark hfollows hbalanced.2 hfuel hresults
                ((List.prefix_append_right_inj _).mp hprefix)

end Fault

end Spoiled

/-! ### Streams that have been opened -/

/-- A stream on a parallel file. -/
inductive Opening where
  /-- `open` has made the file. -/
  | created
  /-- `popfile_try_open_parallel` has found the file. -/
  | reopened

/-- `popfile_offset`, which only `popfile_try_open_parallel` sets. -/
def Opening.popfileOffset (c : ℕ) : Opening → ℕ
  | created => 0
  | reopened => c

/-- When the calls return the beginning of every file of a length. -/
def Opening.Readable {k : ℕ} [NeZero k] (c length : ℕ) (null : Fin k → Bool) (calls : List Call) :
    Opening → Prop
  | created => calls = []
  | reopened => Allowed c length null (Window.start k) calls

section Opened

variable {k : ℕ} [NeZero k] {c : ℕ}

/-- If the offset is zero then the loop does not end. -/
lemma POPFStream.readLoop_eq_none : ∀ {fuel : ℕ} {s : POPFStream k} {grip : POPFileGrip k} {n : ℕ},
    s.popfileOffset = 0 → s.popfileInternalReadPointer = 0 → readLoop fuel s grip n = none := by
  intro fuel
  induction fuel with
  | zero => intro s grip n _ _; rfl
  | succ fuel ih =>
      intro s grip n hoffset hpointer
      rw [readLoop, if_pos (by rw [hoffset]; exact Nat.zero_le n), if_neg (not_not.mpr hpointer)]
      refine Option.bind_eq_none_iff.mpr fun t ht => ?_
      obtain ⟨r, rfl⟩ := readInStrip_frame ht
      exact ih hoffset hpointer

/-- No call returns on a stream with offset zero. -/
lemma run_opened_zero (strips : Fin k → List UInt8) (null : Fin k → Bool) (fuel : ℕ)
    {calls : List Call} (hbalanced : Balanced 0 calls) (hcalls : calls ≠ []) :
    run fuel (POPFStream.opened 0 c strips null) [] calls = none := by
  cases calls with
  | nil => exact absurd rfl hcalls
  | cons call calls =>
      cases call with
      | readInBackground n =>
          have hnone : (POPFStream.opened 0 c strips null).readInBackground fuel n = none :=
            POPFStream.readLoop_eq_none rfl rfl
          exact Option.bind_eq_none_iff.mpr fun r hr => absurd (hnone.symm.trans hr) (by simp)
      | getRead => exact absurd hbalanced.1 (Nat.lt_irrefl 0)

/-- At first nothing has been asked for. -/
lemma follows_opened (hc : 0 < c) (null : Fin k → Bool) (file : List UInt8) :
    Follows c null file (Window.start k) (POPFStream.opened c c (stripsOf k c file) null) [] where
  queued := ⟨⟨rfl, hc, fun _ => rfl, fun _ => rfl, fun _ => rfl, fun _ => List.not_mem_nil⟩, rfl,
    rfl⟩
  held i := by
    rw [Window.start, slice_self]
    rfl
  put i := by split_ifs <;> rfl
  reader := Fin.ext (by
    show 0 = 0 / c % k
    rw [Nat.zero_div, Nat.zero_mod])
  readerOffset := by
    show (0 : ℤ) = wrap (0 / c / k * c : ℕ)
    rw [Nat.zero_div, Nat.zero_div, Nat.zero_mul]
    decide
  pointer := by
    show 0 = (c - 0 % c) % c
    rw [Nat.zero_mod, Nat.sub_zero, Nat.mod_self]
  servable hnot := absurd (dvd_zero c) hnot
  issued_le := Nat.zero_le _
  pending := rfl
  grips := .nil 0

/-- Calls that get all of a file of a length, in which no byte is null, return the beginning of
every such file exactly if the file has been opened again and every byte can be asked for when it
is its turn. -/
theorem readsRight_iff (hc : 0 < c) (length : ℕ) (null : Fin k → Bool) (o : Opening)
    (calls : List Call) (hbalanced : Balanced 0 calls) (htotal : total calls ≤ length) :
    (∀ file : List UInt8, file.length = length → 0 ∉ file →
      ReadsRight (POPFStream.opened (o.popfileOffset c) c (stripsOf k c file) null) calls file) ↔
      o.Readable c length null calls := by
  cases o with
  | created =>
      constructor
      · intro hall
        by_contra hcalls
        obtain ⟨fuel, results, hrun, -⟩ := hall (List.replicate length 1) List.length_replicate
          fun hmem => absurd (List.eq_of_mem_replicate hmem) (by decide)
        have hnone := run_opened_zero (c := c) (stripsOf k c (List.replicate length 1)) null fuel
          hbalanced hcalls
        cases hnone.symm.trans hrun
      · intro hcalls file _ _
        subst hcalls
        exact ⟨0, [], rfl, List.take_zero.symm⟩
  | reopened =>
      have hstart : (Window.start k).issued + total calls = total calls := Nat.zero_add _
      constructor
      · intro hall
        by_contra hnot
        obtain ⟨mark, hmark⟩ := exists_mark (w := Window.start k) hc calls
          (by rw [hstart]; exact htotal) hnot
        obtain ⟨fuel, results, hrun, hflatten⟩ := hall (marked length mark)
          (length_marked length mark) (notMem_marked length mark)
        refine hmark (follows_opened hc null _) hbalanced
          (show length < max fuel (length + 1) by omega)
          (POPFStream.run_of_le (le_max_left _ _) hrun) ?_
        rw [hflatten]
        exact List.take_prefix _ _
      · intro hallowed file hlength hnul
        subst hlength
        obtain ⟨results, hresults, hflatten⟩ := (follows_opened hc null file).run hc hnul
          (Nat.lt_succ_self _) calls hallowed hbalanced (by rw [hstart]; exact htotal)
        refine ⟨_, results, hresults, hflatten.trans ?_⟩
        rw [hstart]
        rfl

end Opened

theorem readsRight_iff_five :
    Balanced 0 (Call.read 2 ++ Call.read 3) ∧ total (Call.read 2 ++ Call.read 3) ≤ 5 ∧
      ∀ file : List UInt8, file.length = 5 → 0 ∉ file →
        ReadsRight (POPFStream.opened 2 2 (stripsOf 2 2 file) fun _ => true)
          (Call.read 2 ++ Call.read 3) file := by
  have hbalanced : Balanced 0 (Call.read 2 ++ Call.read 3) :=
    ⟨Nat.one_pos, Nat.one_pos, rfl⟩
  have hallowed : Opening.reopened.Readable 2 5 (fun _ : Fin 2 => true)
      (Call.read 2 ++ Call.read 3) := by
    show Allowed 2 5 (fun _ => true) (Window.start 2) _
    decide
  exact ⟨hbalanced, le_rfl, (readsRight_iff (k := 2) Nat.two_pos 5 (fun _ => true) .reopened _
    hbalanced le_rfl).mpr hallowed⟩

/-- On the stream that has made the file no read returns, and after the file has been opened again
two reads of one byte return the same byte twice. -/
theorem not_readsRight_one :
    ¬ReadsRight (POPFStream.opened (Opening.created.popfileOffset 1024) 1024
        (stripsOf 2 1024 [1, 2]) fun _ => true) (Call.read 1) [1, 2] ∧
      ¬ReadsRight (POPFStream.opened (Opening.reopened.popfileOffset 1024) 1024
        (stripsOf 2 1024 [1, 2]) fun _ => true) (Call.read 1 ++ Call.read 1) [1, 2] := by
  constructor
  · rintro ⟨fuel, results, hrun, -⟩
    have hbalanced : Balanced 0 (Call.read 1) := ⟨Nat.one_pos, rfl⟩
    cases (run_opened_zero _ _ fuel hbalanced (List.cons_ne_nil _ _)).symm.trans hrun
  · rintro ⟨fuel, results, hrun, hflatten⟩
    have htwice : run (fuel + 2)
        (POPFStream.opened 1024 1024 (stripsOf 2 1024 [1, 2]) fun _ => true) []
        (Call.read 1 ++ Call.read 1) = some [[1], [1]] := rfl
    have hmore := POPFStream.run_of_le (Nat.le_add_right fuel 2) hrun
    obtain rfl := Option.some.inj (htwice.symm.trans hmore)
    exact absurd hflatten (by decide)

end PopCpp.PopFile.Reading
