/-
# Reading from a connection

`Recv` of a combox calls `read` in a loop.  In `pop_combox_socket` an inner loop repeats a call
that was interrupted, and a result of 0, the end of the stream, closes the descriptor and
returns -1; but any other error falls through to the condition of the outer loop, `n <= 0`, and
`read` is called again.  `popc_combox_uds` repeats the call after every error.

On a connection that the peer has reset, `read` fails whenever it is called.  `Recv` then never
returns, and the caller is not told.
-/
import PopCpp.Lib.Retry
import Mathlib.Data.Int.Notation

namespace PopCpp.Combox

open Retry

/-! ### `Recv` -/

def EINTR : ℤ := 4
def ECONNRESET : ℤ := 104

/-- How a call of `read` ends: with bytes, none of them at the end of the stream, or with -1
and `errno`. -/
inductive Read where
  | bytes (bs : List UInt8)
  | failed (errno : ℤ)
deriving DecidableEq, Repr

/-- What `Recv` returns, the bytes that it has put into the array, and the descriptors it has
called `CloseSock` for. -/
structure RecvResult where
  ret : ℤ
  data : List UInt8
  closed : List ℤ
deriving DecidableEq, Repr

/-- The loop around `read` that repeats it when it was interrupted: how the last call ended,
and how the coming ones end. -/
def readLoop : List Read → Option (Read × List Read)
  | [] => none
  | .bytes bs :: reads => some (.bytes bs, reads)
  | .failed errno :: reads =>
      if errno = EINTR then readLoop reads else some (.failed errno, reads)

lemma length_readLoop {reads rest : List Read} {r : Read} (h : readLoop reads = some (r, rest)) :
    rest.length < reads.length := by
  induction reads with
  | nil => cases h
  | cons r' reads ih =>
      cases r' with
      | bytes bs =>
          cases h
          exact Nat.lt_succ_self _
      | failed errno =>
          rw [readLoop] at h
          split at h
          · exact Nat.lt_succ_of_lt (ih h)
          · cases h
            exact Nat.lt_succ_self _

/-- The descriptor to read from: that of the connection that is given, or else the one that
`Wait` returns, if it returns and not null. -/
def target (iopeer : Option ℤ) (waits : List (Option ℤ)) :
    Option (Option ℤ × List (Option ℤ)) :=
  match iopeer, waits with
  | some fd, waits => some (some fd, waits)
  | none, [] => none
  | none, t :: waits => some (t, waits)

/-- `pop_combox_socket::Recv(s, len, iopeer)`: `waits` are the results of `Wait`, `closes` those
of `CloseSock`, and `reads` those of `read`; without a value while it goes on. -/
def socketRecv (iopeer : Option ℤ) (waits : List (Option ℤ)) (closes : ℕ → Bool)
    (reads : List Read) : Option RecvResult :=
  match target iopeer waits with
  | none => none
  | some (none, _) => some ⟨-1, [], []⟩
  | some (some fd, waits) =>
      if fd < 0 then some ⟨-1, [], []⟩
      else
        match _hread : readLoop reads with
        | none => none
        | some (.bytes bs, reads) =>
            if bs.length = 0 then
              if closes 0 = true ∧ iopeer = none then
                (socketRecv iopeer waits (fun i => closes (i + 1)) reads).map fun r =>
                  { r with closed := fd :: r.closed }
              else some ⟨-1, [], [fd]⟩
            else some ⟨bs.length, bs, []⟩
        | some (.failed _, reads) => socketRecv iopeer waits closes reads
termination_by reads.length
decreasing_by
  · exact length_readLoop ‹_›
  · exact length_readLoop ‹_›

/-- The loop of `popc_combox_uds::Recv`. -/
def udsLoop : List Read → Option RecvResult
  | [] => none
  | .bytes bs :: _ => some ⟨bs.length, bs, []⟩
  | .failed _ :: reads => udsLoop reads

/-- `popc_combox_uds::Recv(s, len, connection)`. -/
def udsRecv (connection : Option ℤ) (waits : List (Option ℤ)) (reads : List Read) :
    Option RecvResult :=
  match target connection waits with
  | none => none
  | some (none, _) => some ⟨-1, [], []⟩
  | some (some _, _) => udsLoop reads

/-! ### What is to be reported -/

/-- `Recv` returns after finitely many reads, all but the last of them interrupted, and with a
positive number exactly if the last has brought bytes. -/
def ReportsErrors (recv : List Read → Option RecvResult) (reads : ℕ → Read) : Prop :=
  ∃ n r, recv (upTo reads n) = some r ∧ (∀ i, i + 1 < n → reads i = .failed EINTR) ∧
    (0 < r.ret ↔ ∃ k bs, n = k + 1 ∧ reads k = .bytes bs ∧ bs ≠ [])

/-- The first read that is not interrupted does not fail. -/
def Succeeds (reads : ℕ → Read) : Prop :=
  ∃ k bs, (∀ i < k, reads i = .failed EINTR) ∧ reads k = .bytes bs

/-! ### Both loops retry -/

/-- What a call of `read` makes `pop_combox_socket::Recv` return. -/
def socketResult (fd : ℤ) : Read → Option RecvResult
  | .bytes bs => some (if bs.length = 0 then ⟨-1, [], [fd]⟩ else ⟨bs.length, bs, []⟩)
  | .failed _ => none

/-- What a call of `read` makes `popc_combox_uds::Recv` return. -/
def udsResult : Read → Option RecvResult
  | .bytes bs => some ⟨bs.length, bs, []⟩
  | .failed _ => none

lemma findSome?_readLoop {β : Type} {accept : Read → Option β} {reads : List Read}
    (h : accept (.failed EINTR) = none) :
    reads.findSome? accept =
      (readLoop reads).bind fun r => (accept r.1).or (r.2.findSome? accept) := by
  induction reads with
  | nil => rfl
  | cons r reads ih =>
      rw [List.findSome?_cons]
      cases r with
      | bytes bs => cases hr : accept (.bytes bs) <;> simp [readLoop, hr]
      | failed errno =>
          by_cases herrno : errno = EINTR
          · subst herrno
            rw [h, readLoop, if_pos rfl]
            exact ih
          · cases hr : accept (.failed errno) <;> simp [readLoop, herrno, hr]

/-- The two loops of `pop_combox_socket::Recv` together repeat `read` after every error. -/
lemma socketRecv_eq {fd : ℤ} (hfd : ¬fd < 0) (waits : List (Option ℤ)) (closes : ℕ → Bool)
    (reads : List Read) :
    socketRecv (some fd) waits closes reads = reads.findSome? (socketResult fd) := by
  -- by induction on what is left to read: each round of the outer loop reads once at least
  induction hn : reads.length using Nat.strongRecOn generalizing reads with
  | _ n ih =>
      rw [socketRecv, findSome?_readLoop (by rfl)]
      simp only [target, if_neg hfd]
      split
      · next hread => rw [hread]; rfl
      · next bs rest hread =>
          rw [hread]
          simp only [reduceCtorEq, and_false, if_false, Option.bind_some, socketResult,
            Option.some_or]
          split <;> rfl
      · next errno rest hread =>
          rw [hread]
          exact ih _ (hn ▸ length_readLoop hread) rest rfl

lemma udsLoop_eq (reads : List Read) : udsLoop reads = reads.findSome? udsResult := by
  induction reads with
  | nil => rfl
  | cons r reads ih =>
      rw [List.findSome?_cons]
      cases r with
      | bytes bs => rfl
      | failed errno => exact ih

/-- A loop that retries after every error reports none. -/
lemma reportsErrors_findSome?_iff {accept : Read → Option RecvResult}
    (hfailed : ∀ errno, accept (.failed errno) = none)
    (hbytes : ∀ bs, ∃ r, accept (.bytes bs) = some r ∧ (0 < r.ret ↔ bs ≠ []))
    (reads : ℕ → Read) :
    ReportsErrors (fun rs => rs.findSome? accept) reads ↔ Succeeds reads := by
  constructor
  · rintro ⟨n, r, hrecv, hbefore, -⟩
    obtain ⟨k, hk, hr, -⟩ := findSome?_upTo_eq_some.mp hrecv
    cases hread : reads k with
    | bytes bs => exact ⟨k, bs, fun i hi => hbefore i (by omega), hread⟩
    | failed errno =>
        rw [hread, hfailed] at hr
        cases hr
  · rintro ⟨k, bs, hbefore, hread⟩
    obtain ⟨r, hr, hret⟩ := hbytes bs
    have hrecv : (upTo reads (k + 1)).findSome? accept = some r := by
      refine findSome?_upTo_eq_some.mpr ⟨k, Nat.lt_succ_self k, by rw [hread, hr], fun i hi => ?_⟩
      rw [hbefore i hi, hfailed]
    refine ⟨k + 1, r, hrecv, fun i hi => hbefore i (by omega), hret.trans ?_⟩
    constructor
    · intro hne
      exact ⟨k, bs, rfl, hread, hne⟩
    · rintro ⟨k', bs', hk, hread', hne⟩
      obtain rfl : k = k' := by omega
      rw [hread] at hread'
      cases hread'
      exact hne

lemma socketRecv_reports_iff (fd : ℤ) (waits : List (Option ℤ)) (closes : ℕ → Bool)
    (reads : ℕ → Read) :
    ReportsErrors (socketRecv (some fd) waits closes) reads ↔ fd < 0 ∨ Succeeds reads := by
  by_cases hfd : fd < 0
  · have hrecv : socketRecv (some fd) waits closes [] = some ⟨-1, [], []⟩ := by
      rw [socketRecv]
      simp only [target, if_pos hfd]
    refine iff_of_true ⟨0, _, hrecv, fun i hi => by omega, ?_⟩ (.inl hfd)
    constructor
    · intro h
      exact absurd h (by decide)
    · rintro ⟨k, bs, hk, -⟩
      omega
  · have heq : socketRecv (some fd) waits closes = fun rs => rs.findSome? (socketResult fd) :=
      funext fun rs => socketRecv_eq hfd waits closes rs
    rw [heq, or_iff_right hfd]
    refine reportsErrors_findSome?_iff (fun _ => rfl) (fun bs => ⟨_, rfl, ?_⟩) reads
    cases bs with
    | nil => simp
    | cons b bs =>
        simp only [List.length_cons, Nat.succ_ne_zero, if_false, ne_eq, reduceCtorEq,
          not_false_eq_true, iff_true]
        omega

lemma udsRecv_reports_iff (fd : ℤ) (waits : List (Option ℤ)) (reads : ℕ → Read) :
    ReportsErrors (udsRecv (some fd) waits) reads ↔ Succeeds reads := by
  have heq : udsRecv (some fd) waits = fun rs => rs.findSome? udsResult := funext udsLoop_eq
  rw [heq]
  refine reportsErrors_findSome?_iff (fun _ => rfl) (fun bs => ⟨_, rfl, ?_⟩) reads
  have hpos : 0 < (bs.length : ℤ) ↔ 0 < bs.length := by omega
  exact hpos.trans List.length_pos_iff

/-- **Persistent errors.**  With a given connection, `Recv` returns when it should exactly if
the first read that is not interrupted succeeds; on a socket it also returns when the
descriptor is negative. -/
theorem recv_reportsErrors_iff (fd : ℤ) (waits : List (Option ℤ)) (closes : ℕ → Bool)
    (reads : ℕ → Read) :
    (ReportsErrors (socketRecv (some fd) waits closes) reads ↔ fd < 0 ∨ Succeeds reads) ∧
      (ReportsErrors (udsRecv (some fd) waits) reads ↔ Succeeds reads) :=
  ⟨socketRecv_reports_iff fd waits closes reads, udsRecv_reports_iff fd waits reads⟩

/-- A connection that the peer has reset. -/
theorem reset_not_reported :
    ¬ReportsErrors (socketRecv (some 5) [] fun _ => true) (fun _ => .failed ECONNRESET) ∧
      ¬ReportsErrors (udsRecv (some 5) []) (fun _ => .failed ECONNRESET) := by
  have hfails : ¬Succeeds fun _ => .failed ECONNRESET := by
    rintro ⟨k, bs, -, h⟩
    cases h
  refine ⟨fun h => ?_, fun h => hfails ((udsRecv_reports_iff _ _ _).mp h)⟩
  rcases (socketRecv_reports_iff _ _ _ _).mp h with hneg | h
  · exact absurd hneg (by decide)
  · exact hfails h

end PopCpp.Combox
