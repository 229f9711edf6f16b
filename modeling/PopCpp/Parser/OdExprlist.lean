/-
# The clauses of an object description

Between `@{` and `}` a constructor has a list of statements: calls of `od`, and assignments to
names that stand for such a call.  `od_exprlist` is right recursive: each of its alternatives
writes the call for the first statement and has to append the text of the others.

The alternative for `walltime` does not append it, so that all statements after a `walltime` are
lost.  The one for `search` takes the value of the semicolon for an argument; a semicolon has no
value of its own, so that this is the last token before it that has one.
-/
import Mathlib.Data.List.Basic

namespace Parser

/-! ### The grammar -/

/-- A statement as `od_exprlist` reads it: the texts that `GetToken` returns for its parts. -/
inductive OdStatement
  | call1 (obj f a : String)
  | call2 (obj f a b : String)
  | call3 (obj f a b c : String)
  /-- `id = expr`, with the text of `od_expr_nonstrict`, and the text that is under `yylval` when
  the semicolon is shifted. -/
  | assign (id expr : String) (nonstrict : Option String) (yylval : String)
deriving DecidableEq

/-- `if ($n!=-1) strcat(tmp,GetToken($n));` for the rest of the list. -/
def strcatRest (tmp : String) (rest : Option String) : String := tmp ++ rest.getD ""

/-- `if ($n!=-1) { strcat(tmp,","); strcat(tmp,GetToken($n)); }` -/
def strcatArg (tmp : String) (arg : Option String) : String :=
  match arg with
  | none => tmp
  | some arg => tmp ++ "," ++ arg

/-- The test in front of the three calls. -/
def checkOd (obj f : String) : Except String Unit :=
  if obj = "od" then .ok () else .error s!"Invalid OD expression: {obj}.{f}"

/-- The action of `od_exprlist` for one statement, with the text of the others. -/
def OdStatement.action (rest : Option String) : OdStatement → Except String String
  | call3 obj f a b c => do
      checkOd obj f
      return strcatRest ("od." ++ f ++ "(" ++ a ++ "," ++ b ++ "," ++ c ++ ");") rest
  | call2 obj f a b => do
      checkOd obj f
      return strcatRest ("od." ++ f ++ "(" ++ a ++ "," ++ b ++ ");") rest
  | call1 obj f a => do
      checkOd obj f
      return strcatRest ("od." ++ f ++ "(" ++ a ++ ");") rest
  | assign id expr nonstrict yylval =>
      if id = "host" then
        if nonstrict.isSome then
          .error
            "OD: host should be a string expression. Non-strict description is not allowed"
        else .ok (strcatRest ("od.url(" ++ expr ++ ");") rest)
      else if id = "jobcontact" then
        if nonstrict.isSome then
          .error
            "OD: jobcontact should be a string expression. Non-strict description is not allowed"
        else .ok (strcatRest ("od.joburl(" ++ expr ++ ");") rest)
      else if id = "memory" then
        .ok (strcatRest (strcatArg ("od.memory(" ++ expr) nonstrict ++ ");") rest)
      else if id = "power" then
        .ok (strcatRest (strcatArg ("od.power(" ++ expr) nonstrict ++ ");") rest)
      else if id = "search" then
        .ok (strcatRest
          (strcatArg (strcatArg ("od.search(" ++ expr) nonstrict) (some yylval) ++ ");") rest)
      else if id = "network" then
        .ok (strcatRest (strcatArg ("od.bandwidth(" ++ expr) nonstrict ++ ");") rest)
      else if id = "walltime" then
        if nonstrict.isSome then
          .error
            "OD: walltime  should be a number expression. Non-strict description is not allowed"
        else .ok ("od.walltime(" ++ expr ++ ");")
      else .error "Unknown OD declaration"

/-- `od_exprlist`; the empty list has the value -1. -/
def odExprlist : List OdStatement → Except String (Option String)
  | [] => .ok none
  | s :: l => do
      let rest ← odExprlist l
      let tmp ← s.action rest
      return some tmp

/-! ### Statements and calls -/

namespace OdStatement

/-- The statements that are no error. -/
def Accepted : OdStatement → Prop
  | call1 obj _ _ | call2 obj _ _ _ | call3 obj _ _ _ _ => obj = "od"
  | assign id _ nonstrict _ =>
      id ∈ ["memory", "power", "search", "network"] ∨
        id ∈ ["host", "jobcontact", "walltime"] ∧ nonstrict = none

instance : ∀ s : OdStatement, Decidable s.Accepted
  | call1 obj _ _ | call2 obj _ _ _ | call3 obj _ _ _ _ => inferInstanceAs (Decidable (obj = "od"))
  | assign _ _ _ _ => inferInstanceAs (Decidable (_ ∨ _))

def isSearch : OdStatement → Bool
  | assign id _ _ _ => id == "search"
  | _ => false

def isWalltime : OdStatement → Bool
  | assign id _ _ _ => id == "walltime"
  | _ => false

/-- The method of `od` that a statement stands for. -/
def function : OdStatement → String
  | call1 _ f _ | call2 _ f _ _ | call3 _ f _ _ _ => f
  | assign id _ _ _ =>
      if id = "host" then "url"
      else if id = "jobcontact" then "joburl"
      else if id = "network" then "bandwidth"
      else id

/-- The expressions of a statement. -/
def args : OdStatement → List String
  | call1 _ _ a => [a]
  | call2 _ _ a b => [a, b]
  | call3 _ _ a b c => [a, b, c]
  | assign _ expr nonstrict _ => expr :: nonstrict.toList

/-- What the source passes besides the expressions. -/
def stale : OdStatement → List String
  | assign id _ _ yylval => if id = "search" then [yylval] else []
  | _ => []

end OdStatement

/-- The text of a call of `od`. -/
def odCallText (f : String) (args : List String) : String :=
  "od." ++ f ++ "(" ++ ",".intercalate args ++ ");"

namespace OdStatement

/-- The call that a statement stands for. -/
def odCall (s : OdStatement) : String := odCallText s.function s.args

/-- The call that the source writes for it. -/
def written (s : OdStatement) : String := odCallText s.function (s.args ++ s.stale)

end OdStatement

/-- The text of a list of statements. -/
def odText (l : List OdStatement) : Except String String := (odExprlist l).map (·.getD "")

/-- No `walltime` is followed by another statement. -/
def WalltimeLast (l : List OdStatement) : Prop := ∀ s ∈ l.dropLast, ¬s.isWalltime

instance (l : List OdStatement) : Decidable (WalltimeLast l) :=
  inferInstanceAs (Decidable (∀ s ∈ l.dropLast, ¬s.isWalltime))

/-! ### One statement -/

namespace OdStatement

/-- What the action for a statement writes. -/
lemma action_eq {s : OdStatement} (h : s.Accepted) (rest : Option String) :
    s.action rest = .ok (s.written ++ if s.isWalltime then "" else rest.getD "") := by
  cases s with
  | call1 obj f a =>
      obtain rfl : obj = "od" := h
      simp [action, checkOd, strcatRest, written, odCallText, function, args, stale, isWalltime]
  | call2 obj f a b =>
      obtain rfl : obj = "od" := h
      simp [action, checkOd, strcatRest, written, odCallText, function, args, stale, isWalltime,
        String.append_assoc]
  | call3 obj f a b c =>
      obtain rfl : obj = "od" := h
      simp [action, checkOd, strcatRest, written, odCallText, function, args, stale, isWalltime,
        String.append_assoc]
  | assign id expr nonstrict yylval =>
      simp only [Accepted, List.mem_cons, List.not_mem_nil, or_false] at h
      rcases h with h | ⟨h, rfl⟩
      · rcases h with rfl | rfl | rfl | rfl <;> cases nonstrict <;>
          simp [action, strcatArg, strcatRest, written, odCallText, function, args, stale,
            isWalltime, String.append_assoc]
      · rcases h with rfl | rfl | rfl <;>
          simp [action, strcatRest, written, odCallText, function, args, stale, isWalltime]

lemma args_ne_nil (s : OdStatement) : s.args ≠ [] := by
  cases s <;> simp [args]

lemma stale_eq_nil {s : OdStatement} (h : ¬s.isSearch) : s.stale = [] := by
  cases s with
  | assign id _ _ _ => exact if_neg (by simpa [isSearch] using h)
  | call1 | call2 | call3 => rfl

lemma exists_stale_eq {s : OdStatement} (h : s.isSearch) : ∃ arg, s.stale = [arg] := by
  cases s with
  | assign id _ _ yylval => exact ⟨yylval, if_pos (by simpa [isSearch] using h)⟩
  | call1 | call2 | call3 => cases h

lemma written_eq_odCall {s : OdStatement} (h : ¬s.isSearch) : s.written = s.odCall := by
  rw [written, stale_eq_nil h, List.append_nil, odCall]

/-- With one more argument the call is another one, whatever follows. -/
lemma written_append_ne {s : OdStatement} (h : s.isSearch) (t u : String) :
    s.written ++ t ≠ s.odCall ++ u := by
  obtain ⟨arg, harg⟩ := exists_stale_eq h
  rw [written, odCall, odCallText, odCallText, harg,
    String.intercalate_append_of_ne_nil s.args_ne_nil (by simp), String.intercalate_singleton]
  simp only [String.append_assoc, ne_eq, String.append_right_inj]
  intro heq
  have := congrArg (fun x : String => x.toList.head?) heq
  simp at this

lemma odCallText_ne_empty (f : String) (args : List String) : odCallText f args ≠ "" := by
  intro h
  have := congrArg String.length h
  simp [odCallText] at this

end OdStatement

/-! ### Lists of statements -/

open OdStatement

/-- The text that the actions make of a list. -/
def emitted : List OdStatement → String
  | [] => ""
  | s :: l => s.written ++ if s.isWalltime then "" else emitted l

lemma odText_eq : ∀ {l : List OdStatement}, (∀ s ∈ l, s.Accepted) → odText l = .ok (emitted l)
  | [], _ => rfl
  | s :: l, h => by
    have ih := odText_eq fun t ht => h t (List.mem_cons_of_mem s ht)
    have hs := h s List.mem_cons_self
    rw [odText] at ih ⊢
    rw [odExprlist]
    cases hl : odExprlist l with
    | error e => rw [hl] at ih; cases ih
    | ok rest =>
        rw [hl] at ih
        have hrest : rest.getD "" = emitted l := Except.ok.inj ih
        show (s.action rest >>= fun tmp => Except.ok (some tmp)).map _ = _
        rw [action_eq hs, hrest]
        rfl

lemma join_calls_eq_empty_iff {call : OdStatement → String} (hcall : ∀ s, call s ≠ "")
    (l : List OdStatement) : String.join (l.map call) = "" ↔ l = [] := by
  cases l with
  | nil => simp
  | cons s l => simp [String.join_cons, hcall s]

lemma walltimeLast_cons_iff {s : OdStatement} {l : List OdStatement} :
    WalltimeLast (s :: l) ↔ if s.isWalltime then l = [] else WalltimeLast l := by
  cases l with
  | nil => simp [WalltimeLast]
  | cons t l =>
      rw [WalltimeLast, List.dropLast_cons_cons, List.forall_mem_cons]
      split_ifs with hs
      · simp [hs]
      · exact and_iff_right hs

/-- Nothing is dropped if and only if no `walltime` has anything behind it. -/
lemma emitted_eq_join_written_iff : ∀ l : List OdStatement,
    emitted l = String.join (l.map written) ↔ WalltimeLast l
  | [] => by simp [emitted, WalltimeLast]
  | s :: l => by
    rw [emitted, List.map_cons, String.join_cons, String.append_right_inj, walltimeLast_cons_iff]
    split_ifs with hs
    · have hcall : ∀ t, written t ≠ "" := fun t => odCallText_ne_empty _ _
      rw [eq_comm, join_calls_eq_empty_iff hcall]
    · exact emitted_eq_join_written_iff l

/-- If the calls are to have the arguments of the statements only, there can be no `search`. -/
lemma emitted_eq_join_odCall_iff : ∀ l : List OdStatement,
    emitted l = String.join (l.map odCall) ↔ WalltimeLast l ∧ ∀ s ∈ l, ¬s.isSearch
  | [] => by simp [emitted, WalltimeLast]
  | s :: l => by
    rw [emitted, List.map_cons, String.join_cons, walltimeLast_cons_iff, List.forall_mem_cons]
    by_cases hsearch : s.isSearch = true
    · exact iff_of_false (written_append_ne hsearch _ _) fun h => h.2.1 hsearch
    · rw [written_eq_odCall hsearch, String.append_right_inj]
      split_ifs with hs
      · have hcall : ∀ t, odCall t ≠ "" := fun t => odCallText_ne_empty _ _
        rw [eq_comm, join_calls_eq_empty_iff hcall]
        constructor
        · rintro rfl
          exact ⟨rfl, hsearch, by simp⟩
        · exact fun h => h.1
      · rw [emitted_eq_join_odCall_iff l, and_iff_right hsearch]

/-- The text of a list is one call for each statement, as the source writes it for the statement
alone, if and only if no `walltime` has another statement behind it; and these calls have the
arguments of the statements if and only if there is no `search` either. -/
theorem odText_eq_join_iff {l : List OdStatement} (h : ∀ s ∈ l, s.Accepted) :
    (∀ s ∈ l, odText [s] = .ok s.written) ∧
      (odText l = .ok (String.join (l.map written)) ↔ WalltimeLast l) ∧
      (odText l = .ok (String.join (l.map odCall)) ↔
        WalltimeLast l ∧ ∀ s ∈ l, ¬s.isSearch) := by
  refine ⟨fun s hs => ?_, ?_, ?_⟩
  · rw [odText_eq (by simpa using h s hs), emitted, emitted, ite_self, String.append_empty]
  · rw [odText_eq h, Except.ok.injEq, emitted_eq_join_written_iff]
  · rw [odText_eq h, Except.ok.injEq, emitted_eq_join_odCall_iff]

theorem odText_host_memory_walltime : odText
    [.assign "memory" "100" (some "50") "50", .call1 "od" "wait" "3",
      .assign "walltime" "10" none "10"] =
    .ok "od.memory(100,50);od.wait(3);od.walltime(10);" :=
  (odText_eq_join_iff (by decide)).2.1.mpr (by decide)

/-- `walltime=10; memory=100;` gives `od.walltime(10);`. -/
theorem exists_odText_ne : ¬ ∀ l : List OdStatement, (∀ s ∈ l, s.Accepted) →
    odText l = .ok (String.join (l.map written)) := by
  intro h
  have := h [.assign "walltime" "10" none "10", .assign "memory" "100" none "100"] (by decide)
  exact absurd this (by decide)

end Parser
