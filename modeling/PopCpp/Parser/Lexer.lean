/-
# The rules of the lexer

The rules of `parser.lex` with what their actions return.  A string literal is one token, and so is
a character literal.  The rules for them let a backslash stand for itself as well, so that a quote
after a backslash may end the literal or not: the longest match decides, and it looks at what comes
after the literal.
-/
import Mathlib.Data.List.TakeWhile
import PopCpp.Lib.LongestMatch

namespace Parser

open LongestMatch

/-! ### The rules -/

/-- The tokens that are returned. -/
inductive LexToken where
  | PACK_KEYWORD | STRING | ID | ID1 | PARCLASS_KEYWORD | CLASS_KEYWORD | ENUM | NAMESPACE
  | BROADCAST | CLASSID | AUTO_KEYWORD | REGISTER_KEYWORD | PUBLIC_KEYWORD | PRIVATE_KEYWORD
  | PROTECTED_KEYWORD | VIRTUAL_KEYWORD | CONST_KEYWORD | STRUCT_KEYWORD | STATIC_KEYWORD
  | SYNC_INVOKE | ASYNC_INVOKE | INPUT | OUTPUT | CONCURRENT | SEQUENTIAL | MUTEX | SCOPE | HIDDEN
  | PROC | SIZE | TYPEDEF_KEYWORD | INTEGER | REAL | AND_OP | OR_OP | EQUAL_OP | NOTEQUAL_OP
  | GREATEREQUAL_OP | LESSEQUAL_OP | NONSTRICT_OD_OP
deriving DecidableEq

/-- What an action returns. -/
inductive LexAction where
  /-- nothing, the lexer goes on -/
  | skip
  | token (t : LexToken)
  /-- a keyword, which is an `ID` in a system header -/
  | keyword (t : LexToken)
  /-- an `ID` in a system header, and otherwise nothing -/
  | mutexBlock
  /-- an `ID`, and nothing for a constructor -/
  | qualified
  /-- `yytext[0]` -/
  | char
deriving DecidableEq

/-- The bytes of a text. -/
def bytesOf (text : String) : List UInt8 := text.toList.map fun c => c.toNat.toUInt8

/-- A text in quotes. -/
def lit (text : String) : RegularExpression UInt8 := word (bytesOf text)

/-- `[..]` -/
def cls (l : List UInt8) : RegularExpression UInt8 := oneOf l

/-- `[^..]` -/
def notCls (l : List UInt8) : RegularExpression UInt8 :=
  oneOf (((List.range 256).map Nat.toUInt8).filter (· ∉ l))

/-- The byte of `"`. -/
def dquote : UInt8 := 34

/-- The byte of `'`. -/
def squote : UInt8 := 39

/-- The byte of a backslash. -/
def backslash : UInt8 := 92

/-- `[ \a\b\v\f\t\r]` -/
def blanks : List UInt8 := [32, 7, 8, 11, 12, 9, 13]

/-- `[ \t]*` -/
def tabs : RegularExpression UInt8 := (cls [32, 9]).star

def digit : RegularExpression UInt8 := cls (bytesOf "0123456789")

/-- `{whitespace1}` -/
def whitespace1 : RegularExpression UInt8 := plus (cls (blanks ++ [10]))

/-- `{whitespace2}` -/
def whitespace2 : RegularExpression UInt8 := (cls (blanks ++ [10])).star

/-- `{id}` -/
def ident : RegularExpression UInt8 :=
  let letters := bytesOf "_abcdefghijklmnopqrstuvwxyzABCDEFGHIJKLMNOPQRSTUVWXYZ"
  cls letters * (cls (letters ++ bytesOf "0123456789")).star

/-- `\"[^\"]*\"[^\n]*` -/
def fileName : RegularExpression UInt8 :=
  cls [dquote] * (notCls [dquote]).star * cls [dquote] * (notCls [10]).star

/-- A literal: quotes around pieces that are two backslashes, a backslash and a quote, or one byte
that is not excluded. -/
def literal (quote : UInt8) (excluded : List UInt8) : RegularExpression UInt8 :=
  word [quote] *
    (word [backslash, backslash] + word [backslash, quote] + notCls excluded).star * word [quote]

/-- The rule for string literals. -/
def stringRule : Rule UInt8 LexAction where
  pattern := literal dquote [dquote]
  action := .token .STRING

/-- The rule for character literals; its class excludes both quotes. -/
def charRule : Rule UInt8 LexAction where
  pattern := literal squote [dquote, squote]
  action := .token .STRING

/-- The rules before those for literals. -/
def rulesBefore : List (Rule UInt8 LexAction) :=
  let pragma (name : String) : RegularExpression UInt8 :=
    lit "#pragma" * tabs * lit name * tabs * lit "=" * tabs * ident * tabs
  [⟨plus (cls blanks), false, .skip⟩,
    ⟨lit "@" * whitespace2 * lit "pack", false, .token .PACK_KEYWORD⟩,
    ⟨lit "@" * whitespace2 * lit "parocfile" * plus (cls [32, 9]) * fileName, true, .skip⟩,
    ⟨pragma "interface", true, .skip⟩,
    ⟨pragma "broker", true, .skip⟩,
    ⟨pragma "object", true, .skip⟩,
    ⟨lit "#" * tabs * plus digit * tabs * cls [10], true, .skip⟩,
    ⟨lit "#line" * tabs * plus digit * plus (cls [32, 9]) * fileName, true, .skip⟩,
    ⟨lit "#" * tabs * plus digit * plus (cls [32, 9]) * fileName, true, .skip⟩,
    ⟨lit "#" * (notCls [10]).star, true, .skip⟩]

/-- The rules after them. -/
def rulesAfter : List (Rule UInt8 LexAction) :=
  let keyword (name : String) (t : LexToken) : Rule UInt8 LexAction := ⟨lit name, false, .keyword t⟩
  let token (name : String) (t : LexToken) : Rule UInt8 LexAction := ⟨lit name, false, .token t⟩
  let type (sign name : String) : Rule UInt8 LexAction :=
    ⟨lit sign * whitespace1 * lit name, false, .token .ID1⟩
  [⟨ident * whitespace2 * lit "::" * whitespace2 * lit "~" * whitespace2 * ident, false, .skip⟩,
    ⟨ident * whitespace2 * plus (lit "::" * whitespace2 * ident), false, .qualified⟩,
    ⟨cls [10], false, .skip⟩,
    keyword "parclass" .PARCLASS_KEYWORD,
    token "class" .CLASS_KEYWORD,
    token "enum" .ENUM,
    token "namespace" .NAMESPACE,
    token "broadcast" .BROADCAST,
    keyword "classuid" .CLASSID,
    token "auto" .AUTO_KEYWORD,
    token "register" .REGISTER_KEYWORD,
    token "public" .PUBLIC_KEYWORD,
    token "private" .PRIVATE_KEYWORD,
    token "protected" .PROTECTED_KEYWORD,
    token "virtual" .VIRTUAL_KEYWORD,
    token "const" .CONST_KEYWORD,
    token "struct" .STRUCT_KEYWORD,
    token "static" .STATIC_KEYWORD,
    keyword "sync" .SYNC_INVOKE,
    keyword "async" .ASYNC_INVOKE,
    keyword "in" .INPUT,
    keyword "out" .OUTPUT,
    keyword "conc" .CONCURRENT,
    keyword "seq" .SEQUENTIAL,
    ⟨lit "mutex" * whitespace2 * lit "\x7b", false, .mutexBlock⟩,
    keyword "mutex" .MUTEX,
    token "::" .SCOPE,
    keyword "__hidden" .HIDDEN,
    keyword "proc" .PROC,
    keyword "size" .SIZE,
    ⟨lit "this", false, .skip⟩,
    type "unsigned" "int",
    type "signed" "int",
    type "unsigned" "long",
    type "signed" "long",
    type "signed" "char",
    type "unsigned" "char",
    type "signed" "short",
    type "unsigned" "short",
    token "typedef" .TYPEDEF_KEYWORD,
    ⟨ident, false, .token .ID⟩,
    ⟨plus digit, false, .token .INTEGER⟩,
    ⟨digit.star * lit "." * plus digit * opt (cls (bytesOf "Ee") * plus digit), false,
      .token .REAL⟩,
    ⟨lit "//" * (notCls [10]).star, false, .skip⟩,
    ⟨lit "/*" * (notCls (bytesOf "\"*/")).star * lit "*/", false, .skip⟩,
    token "&&" .AND_OP,
    token "||" .OR_OP,
    token "==" .EQUAL_OP,
    token "!=" .NOTEQUAL_OP,
    token ">=" .GREATEREQUAL_OP,
    token "<=" .LESSEQUAL_OP,
    ⟨lit "?" * whitespace2 * lit ":", false, .token .NONSTRICT_OD_OP⟩,
    ⟨cls (bytesOf "'\"#()\x7b\x7d[];:,*&~=+%@$^-|`!"), false, .char⟩,
    ⟨notCls [10], false, .char⟩]

/-- The rules of `parser.lex`. -/
def lexRules : List (Rule UInt8 LexAction) :=
  rulesBefore ++ stringRule :: charRule :: rulesAfter

/-! ### The literals of C -/

/-- Between the quotes: a backslash comes with the byte after it, and no other byte is the quote or
ends the line. -/
inductive LiteralBody (quote : UInt8) : List UInt8 → Prop
  | nil : LiteralBody quote []
  | plain {b : UInt8} {body : List UInt8} : b ≠ quote → b ≠ backslash → b ≠ 10 →
      LiteralBody quote body → LiteralBody quote (b :: body)
  | escape (b : UInt8) {body : List UInt8} : LiteralBody quote body →
      LiteralBody quote (backslash :: b :: body)

/-- A string literal or a character literal; the latter is not empty. -/
inductive Literal where
  | string (body : List UInt8) (wf : LiteralBody dquote body)
  | char (body : List UInt8) (wf : LiteralBody squote body) (nonempty : body ≠ [])

namespace Literal

/-- The quote. -/
def quote : Literal → UInt8
  | string _ _ => dquote
  | char _ _ _ => squote

/-- What is between the quotes. -/
def body : Literal → List UInt8
  | string body _ => body
  | char body _ _ => body

/-- The text of the literal. -/
def text (l : Literal) : List UInt8 := l.quote :: (l.body ++ [l.quote])

/-- The rule for it. -/
def rule : Literal → Rule UInt8 LexAction
  | string _ _ => stringRule
  | char _ _ _ => charRule

/-- The longest match ends with the literal: no backslash before its closing quote, or no quote
after it that could end the match.  There is no `"` in a match of the rule for characters. -/
def Ends (l : Literal) (rest : List UInt8) : Prop :=
  match l with
  | string body _ => body.getLast? ≠ some backslash ∨ dquote ∉ rest
  | char body _ _ => dquote ∉ body ∧
      (body.getLast? ≠ some backslash ∨ squote ∉ rest.takeWhile (· != dquote))

end Literal

/-! ### What the rules for literals match -/

/-- Each quote comes right after a backslash; `escaped` says whether one comes before the text. -/
def Guarded (quote : UInt8) : Bool → List UInt8 → Prop
  | _, [] => True
  | escaped, b :: w => (b = quote → escaped = true) ∧ Guarded quote (b == backslash) w

section Guarded

variable {quote : UInt8} {excluded w v : List UInt8} {escaped : Bool}

lemma Guarded.of_false (h : Guarded quote false w) : Guarded quote escaped w := by
  cases w with
  | nil => trivial
  | cons b w => exact ⟨fun hb => absurd (h.1 hb) Bool.false_ne_true, h.2⟩

lemma guarded_of_notMem (h : quote ∉ w) : Guarded quote escaped w := by
  induction w generalizing escaped with
  | nil => trivial
  | cons b w ih =>
      rw [List.mem_cons, not_or] at h
      exact ⟨fun hb => absurd hb.symm h.1, ih h.2⟩

/-- A quote in a guarded text comes after a backslash. -/
lemma guarded_append_quote (hquote : quote ≠ backslash) :
    Guarded quote escaped (w ++ quote :: v) ↔
      Guarded quote escaped w ∧ (w = [] ∧ escaped = true ∨ w.getLast? = some backslash) ∧
        Guarded quote false v := by
  induction w generalizing escaped with
  | nil =>
      have hne : (quote == backslash) = false := beq_false_of_ne hquote
      simp [Guarded, hne]
  | cons b w ih =>
      rw [List.cons_append, Guarded, Guarded, ih, and_assoc]
      refine and_congr_right fun _ => and_congr_right fun _ => and_congr_left fun _ => ?_
      cases w with
      | nil => simp
      | cons b' w => simp

lemma LiteralBody.guarded (hquote : quote ≠ backslash) (h : LiteralBody quote w) :
    ∀ escaped, Guarded quote escaped w := by
  induction h with
  | nil => exact fun _ => trivial
  | plain hne _ _ _ ih => exact fun _ => ⟨fun hb => absurd hb hne, ih _⟩
  | escape b _ ih =>
      exact fun _ => ⟨fun hb => absurd hb.symm hquote, fun _ => by simp, ih _⟩

/-- Between the quotes of a match: quotes come after backslashes, and no other byte is
excluded. -/
def Inner (quote : UInt8) (excluded w : List UInt8) : Prop :=
  Guarded quote false w ∧ ∀ b ∈ w, b = quote ∨ b ∉ excluded

lemma mem_notCls : w ∈ (notCls excluded).matches' ↔ ∃ b, b ∉ excluded ∧ w = [b] := by
  rw [notCls, mem_oneOf]
  refine exists_congr fun b => and_congr_left fun _ => ?_
  rw [List.mem_filter, decide_eq_true_iff, and_iff_right_iff_imp]
  exact fun _ => List.mem_map.mpr ⟨b.toNat, List.mem_range.mpr b.toNat_lt, by simp⟩

/-- One piece between the quotes. -/
def piece (quote : UInt8) (excluded : List UInt8) : RegularExpression UInt8 :=
  word [backslash, backslash] + word [backslash, quote] + notCls excluded

lemma mem_piece : w ∈ (piece quote excluded).matches' ↔
    w = [backslash, backslash] ∨ w = [backslash, quote] ∨ ∃ b, b ∉ excluded ∧ w = [b] := by
  rw [piece, RegularExpression.matches'_add, RegularExpression.matches'_add, Language.mem_add,
    Language.mem_add, mem_word, mem_word, mem_notCls, or_assoc]

lemma inner_flatten (hquote : quote ≠ backslash) (hexcluded : quote ∈ excluded)
    (hbackslash : backslash ∉ excluded) : ∀ {L : List (List UInt8)},
      (∀ y ∈ L, y ∈ (piece quote excluded).matches') → Inner quote excluded L.flatten
  | [], _ => ⟨trivial, fun _ hb => absurd hb List.not_mem_nil⟩
  | y :: L, h => by
    obtain ⟨hguarded, hmem⟩ := inner_flatten hquote hexcluded hbackslash
      fun y' hy' => h y' (List.mem_cons_of_mem _ hy')
    rw [List.flatten_cons]
    rcases mem_piece.mp (h y List.mem_cons_self) with rfl | rfl | ⟨b, hb, rfl⟩
    · refine ⟨⟨fun hb => absurd hb.symm hquote, fun hb => absurd hb.symm hquote,
        hguarded.of_false⟩, fun b hb => ?_⟩
      rcases List.mem_append.mp hb with hb | hb
      · right
        simp only [List.mem_cons, List.not_mem_nil, or_false, or_self] at hb
        rwa [hb]
      · exact hmem b hb
    · refine ⟨⟨fun hb => absurd hb.symm hquote, fun _ => by simp, ?_⟩, fun b hb => ?_⟩
      · exact hguarded.of_false
      · simp only [List.cons_append, List.nil_append, List.mem_cons] at hb
        rcases hb with rfl | rfl | hb
        · exact .inr hbackslash
        · exact .inl rfl
        · exact hmem b hb
    · refine ⟨⟨fun heq => absurd (heq ▸ hexcluded) hb, hguarded.of_false⟩, fun b' hb' => ?_⟩
      rcases List.mem_cons.mp hb' with rfl | hb'
      · exact .inr hb
      · exact hmem b' hb'

lemma exists_flatten (hquote : quote ≠ backslash) : ∀ {w : List UInt8},
    Inner quote excluded w → ∃ L : List (List UInt8), w = L.flatten ∧
      ∀ y ∈ L, y ∈ (piece quote excluded).matches'
  | [], _ => ⟨[], rfl, fun _ hy => absurd hy List.not_mem_nil⟩
  | [b], h => by
    have hb : b ∉ excluded := (h.2 b List.mem_cons_self).resolve_left
      fun heq => Bool.false_ne_true (h.1.1 heq)
    refine ⟨[[b]], rfl, fun y hy => ?_⟩
    rw [List.mem_singleton.mp hy]
    exact mem_piece.mpr (.inr (.inr ⟨b, hb, rfl⟩))
  | b :: b' :: w, h => by
    have hmem : ∀ b ∈ w, b = quote ∨ b ∉ excluded := fun b hb =>
      h.2 b (List.mem_cons_of_mem _ (List.mem_cons_of_mem _ hb))
    by_cases hb' : b' = quote
    · -- the quote goes with the backslash before it
      have hslash : b = backslash := by simpa using h.1.2.1 hb'
      have hrest : Guarded quote false w := by
        have := h.1.2.2
        rwa [hb', beq_false_of_ne hquote] at this
      obtain ⟨L, rfl, hL⟩ := exists_flatten hquote ⟨hrest, hmem⟩
      refine ⟨[backslash, quote] :: L, by rw [hslash, hb']; rfl, fun y hy => ?_⟩
      rcases List.mem_cons.mp hy with rfl | hy
      · exact mem_piece.mpr (.inr (.inl rfl))
      · exact hL y hy
    · have hb : b ∉ excluded := (h.2 b List.mem_cons_self).resolve_left
        fun heq => Bool.false_ne_true (h.1.1 heq)
      obtain ⟨L, hL, hpieces⟩ := exists_flatten hquote (w := b' :: w)
        ⟨⟨fun heq => absurd heq hb', h.1.2.2⟩, fun b hb => h.2 b (List.mem_cons_of_mem _ hb)⟩
      refine ⟨[b] :: L, congrArg (b :: ·) hL, fun y hy => ?_⟩
      rcases List.mem_cons.mp hy with rfl | hy
      · exact mem_piece.mpr (.inr (.inr ⟨b, hb, rfl⟩))
      · exact hpieces y hy

/-- The matches of a rule for literals. -/
lemma mem_literal (hquote : quote ≠ backslash) (hexcluded : quote ∈ excluded)
    (hbackslash : backslash ∉ excluded) :
    v ∈ (literal quote excluded).matches' ↔ ∃ w, v = quote :: (w ++ [quote]) ∧
      Inner quote excluded w := by
  rw [literal, RegularExpression.matches'_mul, RegularExpression.matches'_mul,
    RegularExpression.matches'_star, Language.mem_mul]
  constructor
  · rintro ⟨_, hxz, y, hy, rfl⟩
    obtain ⟨x, hx, z, hz, rfl⟩ := Language.mem_mul.mp hxz
    obtain ⟨L, rfl, hL⟩ := Language.mem_kstar.mp hz
    rw [mem_word.mp hx, mem_word.mp hy]
    exact ⟨L.flatten, rfl, inner_flatten hquote hexcluded hbackslash hL⟩
  · rintro ⟨w, rfl, hw⟩
    obtain ⟨L, rfl, hL⟩ := exists_flatten hquote hw
    exact ⟨quote :: L.flatten, Language.mem_mul.mpr ⟨[quote], mem_word.mpr rfl, L.flatten,
      Language.join_mem_kstar hL, rfl⟩, [quote], mem_word.mpr rfl, rfl⟩

/-- The matches at the beginning of a text. -/
lemma take_mem_literal (hquote : quote ≠ backslash) (hexcluded : quote ∈ excluded)
    (hbackslash : backslash ∉ excluded) {u : List UInt8} {n : ℕ} (hn : n ≤ (quote :: u).length) :
    (quote :: u).take n ∈ (literal quote excluded).matches' ↔
      ∃ w x, u = w ++ quote :: x ∧ n = w.length + 2 ∧ Inner quote excluded w := by
  rw [mem_literal hquote hexcluded hbackslash]
  constructor
  · rintro ⟨w, hw, hinner⟩
    have hlen := congrArg List.length hw
    rw [List.length_take_of_le hn, List.length_cons, List.length_append,
      List.length_singleton] at hlen
    subst hlen
    rw [List.take_succ_cons] at hw
    refine ⟨w, u.drop (w.length + 1), ?_, rfl, hinner⟩
    conv_lhs => rw [← List.take_append_drop (w.length + 1) u, (List.cons.inj hw).2]
    rw [List.append_assoc]
    rfl
  · rintro ⟨w, x, rfl, rfl, hinner⟩
    refine ⟨w, ?_, hinner⟩
    rw [List.take_succ_cons, List.take_append, List.take_of_length_le (Nat.le_succ _)]
    simp

/-- The longest match is the literal if no quote after it ends a match. -/
lemma longest_literal_iff (hquote : quote ≠ backslash) (hexcluded : quote ∈ excluded)
    (hbackslash : backslash ∉ excluded) {body rest : List UInt8} :
    longest (literal quote excluded) (quote :: (body ++ quote :: rest)) = body.length + 2 ↔
      Inner quote excluded body ∧
        ∀ v x, rest = v ++ quote :: x → ¬Inner quote excluded (body ++ quote :: v) := by
  have hlen : (quote :: (body ++ quote :: rest)).length = body.length + 2 + rest.length := by
    rw [List.length_cons, List.length_append, List.length_cons]
    omega
  have htake := fun {n : ℕ} (hn : n ≤ (quote :: (body ++ quote :: rest)).length) =>
    take_mem_literal hquote hexcluded hbackslash hn
  rw [longest_eq_iff (Nat.succ_pos _)]
  constructor
  · rintro ⟨hle, hmem, hlonger⟩
    constructor
    · obtain ⟨w, x, hw, hlength, hinner⟩ := (htake hle).mp hmem
      obtain ⟨rfl, -⟩ := List.append_inj hw (by omega)
      exact hinner
    · intro v x hrest hinner
      have hlength : body.length + 2 + (v.length + 1) ≤ body.length + 2 + rest.length := by
        rw [hrest, List.length_append, List.length_cons]
        omega
      refine hlonger (body.length + 2 + (v.length + 1)) (by omega) (hlen ▸ hlength)
        ((htake (hlen ▸ hlength)).mpr ⟨body ++ quote :: v, x, ?_, ?_, hinner⟩)
      · rw [hrest]
        simp
      · rw [List.length_append, List.length_cons]
        omega
  · rintro ⟨hinner, hlonger⟩
    refine ⟨by omega, (htake (by omega)).mpr ⟨body, rest, rfl, rfl, hinner⟩,
      fun m hm hle hmem => ?_⟩
    obtain ⟨w, x, hw, hlength, hinner⟩ := (htake hle).mp hmem
    rcases List.append_eq_append_iff.mp hw with ⟨v, rfl, hv⟩ | ⟨v, hbody, -⟩
    · cases v with
      | nil =>
          rw [List.append_nil] at hlength
          omega
      | cons b v =>
          obtain ⟨rfl, hrest⟩ := List.cons.inj hv
          exact hlonger v x hrest hinner
    · rw [hbody, List.length_append] at hm
      omega

/-- In a guarded text the quote after it is one that does not end the match. -/
lemma guarded_append_iff (hquote : quote ≠ backslash) (hw : Guarded quote false w) :
    Guarded quote false (w ++ quote :: v) ↔
      w.getLast? = some backslash ∧ Guarded quote false v := by
  rw [guarded_append_quote hquote]
  constructor
  · rintro ⟨-, ⟨-, hfalse⟩ | hlast, hv⟩
    · cases hfalse
    · exact ⟨hlast, hv⟩
  · exact fun ⟨hlast, hv⟩ => ⟨hw, .inr hlast, hv⟩

end Guarded

section Literals

variable {body rest : List UInt8}

lemma longest_string_iff (hguarded : Guarded dquote false body) :
    longest (literal dquote [dquote]) (dquote :: (body ++ dquote :: rest)) = body.length + 2 ↔
      body.getLast? ≠ some backslash ∨ dquote ∉ rest := by
  have hinner : ∀ w, Inner dquote [dquote] w ↔ Guarded dquote false w := fun w =>
    and_iff_left fun b _ => by simpa using em (b = dquote)
  rw [longest_literal_iff (by decide) (by decide) (by decide), hinner, and_iff_right hguarded]
  simp only [hinner, guarded_append_iff (by decide : dquote ≠ backslash) hguarded]
  constructor
  · intro hlonger
    by_contra hnot
    obtain ⟨hlast, hmem⟩ := not_or.mp hnot
    obtain ⟨v, x, hrest, hv⟩ := List.eq_append_cons_of_mem (not_not.mp hmem)
    exact hlonger v x hrest ⟨not_not.mp hlast, guarded_of_notMem hv⟩
  · rintro hends v x hrest ⟨hlast, -⟩
    exact hends.resolve_left (not_not.mpr hlast)
      (hrest ▸ List.mem_append_right _ List.mem_cons_self)

lemma longest_char_iff (hguarded : Guarded squote false body) :
    longest (literal squote [dquote, squote]) (squote :: (body ++ squote :: rest)) =
        body.length + 2 ↔
      dquote ∉ body ∧
        (body.getLast? ≠ some backslash ∨ squote ∉ rest.takeWhile (· != dquote)) := by
  have hinner : ∀ w, Inner squote [dquote, squote] w ↔
      Guarded squote false w ∧ dquote ∉ w := by
    intro w
    refine and_congr_right fun _ => ⟨fun h hmem => ?_, fun h b hb => ?_⟩
    · exact absurd (h dquote hmem) (by decide)
    · by_cases hsquote : b = squote
      · exact .inl hsquote
      · refine .inr fun hmem => ?_
        rcases List.mem_cons.mp hmem with rfl | hmem
        · exact h hb
        · exact hsquote (List.mem_singleton.mp hmem)
  rw [longest_literal_iff (by decide) (by decide) (by decide), hinner, and_iff_right hguarded]
  simp only [hinner, guarded_append_iff (by decide : squote ≠ backslash) hguarded]
  refine and_congr_right fun hbody => ⟨fun hlonger => ?_, ?_⟩
  · by_contra hnot
    obtain ⟨hlast, hmem⟩ := not_or.mp hnot
    obtain ⟨v, x, hrest, hv⟩ := List.eq_append_cons_of_mem (not_not.mp hmem)
    refine hlonger v (x ++ rest.dropWhile (· != dquote)) ?_
      ⟨⟨not_not.mp hlast, guarded_of_notMem hv⟩, fun hdquote => ?_⟩
    · have hsplit := List.takeWhile_append_dropWhile (p := (· != dquote)) (l := rest)
      rw [hrest, List.append_assoc] at hsplit
      exact hsplit.symm
    · rcases List.mem_append.mp hdquote with hdquote | hdquote
      · exact hbody hdquote
      · have hv : dquote ∈ v := (List.mem_cons.mp hdquote).resolve_left (by decide)
        have htake : dquote ∈ rest.takeWhile (· != dquote) := hrest ▸ List.mem_append_left _ hv
        exact absurd (List.mem_takeWhile_imp htake) (by decide)
  · rintro hends v x hrest ⟨⟨hlast, -⟩, hdquote⟩
    have hv : ∀ b ∈ v, (b != dquote) = true := fun b hb => bne_iff_ne.mpr fun heq =>
      hdquote (List.mem_append_right _ (List.mem_cons_of_mem _ (heq ▸ hb)))
    refine hends.resolve_left (not_not.mpr hlast) ?_
    rw [hrest, List.takeWhile_append_of_pos hv, List.takeWhile_cons_of_pos (by decide)]
    exact List.mem_append_right _ List.mem_cons_self

end Literals

namespace Literal

/-- The rule matches just the literal. -/
lemma longest_rule_iff (l : Literal) (rest : List UInt8) :
    longest l.rule.pattern (l.text ++ rest) = l.text.length ↔ l.Ends rest := by
  have htext : l.text ++ rest = l.quote :: (l.body ++ l.quote :: rest) := by
    rw [text, List.cons_append, List.append_assoc]
    rfl
  have hlength : l.text.length = l.body.length + 2 := by
    rw [text, List.length_cons, List.length_append, List.length_singleton]
  rw [htext, hlength]
  cases l with
  | string body wf => exact longest_string_iff (wf.guarded (by decide) false)
  | char body wf nonempty => exact longest_char_iff (wf.guarded (by decide) false)

set_option maxRecDepth 10000 in
lemma begins_rulesBefore : ∀ r ∈ rulesBefore,
    begins dquote r.pattern = false ∧ begins squote r.pattern = false := by
  decide +kernel

set_option maxRecDepth 10000 in
lemma begins_rulesAfter : ∀ r ∈ rulesAfter, single r.pattern = true ∨
    begins dquote r.pattern = false ∧ begins squote r.pattern = false := by
  decide +kernel

lemma begins_literalRules : begins squote stringRule.pattern = false ∧
    begins dquote charRule.pattern = false := by
  decide +kernel

/-- The other rules match the quote alone, or nothing. -/
lemma reach_le_one (l : Literal) (rest : List UInt8) (lineStart : Bool) {r : Rule UInt8 LexAction}
    (hr : r ∈ lexRules) : r = l.rule ∨ r.reach lineStart (l.text ++ rest) ≤ 1 := by
  have hbegins : begins l.quote r.pattern = false → r.reach lineStart (l.text ++ rest) ≤ 1 := by
    intro h
    have hzero : longest r.pattern (l.text ++ rest) = 0 := longest_eq_zero_of_begins h
    exact (reach_le_longest r).trans (hzero.le.trans (Nat.zero_le 1))
  have hquotes : begins dquote r.pattern = false ∧ begins squote r.pattern = false →
      r.reach lineStart (l.text ++ rest) ≤ 1 := by
    intro h
    cases l with
    | string => exact hbegins h.1
    | char => exact hbegins h.2
  rcases List.mem_append.mp hr with hr | hr
  · exact .inr (hquotes (begins_rulesBefore r hr))
  rcases List.mem_cons.mp hr with rfl | hr
  · cases l with
    | string => exact .inl rfl
    | char => exact .inr (hbegins begins_literalRules.1)
  rcases List.mem_cons.mp hr with rfl | hr
  · cases l with
    | string => exact .inr (hbegins begins_literalRules.2)
    | char => exact .inl rfl
  · rcases begins_rulesAfter r hr with hsingle | h
    · exact .inr ((reach_le_longest r).trans (longest_le_one_of_single hsingle))
    · exact .inr (hquotes h)

/-- The literal is the next token just if its rule matches it and no more. -/
lemma next_eq_iff (l : Literal) (rest : List UInt8) (lineStart : Bool) :
    next lexRules lineStart (l.text ++ rest) = some (.token .STRING, l.text, rest) ↔
      longest l.rule.pattern (l.text ++ rest) = l.text.length := by
  have hlength : 1 < l.text.length := by
    rw [text, List.length_cons, List.length_append, List.length_singleton]
    omega
  have hmem : l.rule ∈ lexRules := by
    cases l with
    | string => exact List.mem_append_right _ List.mem_cons_self
    | char => exact List.mem_append_right _ (List.mem_cons_of_mem _ List.mem_cons_self)
  have hreach : l.rule.reach lineStart (l.text ++ rest) =
      longest l.rule.pattern (l.text ++ rest) := by
    cases l <;> rfl
  have haction : l.rule.action = .token .STRING := by
    cases l <;> rfl
  constructor
  · intro h
    obtain ⟨⟨t, n⟩, hselect, heq⟩ := Option.map_eq_some_iff.mp h
    obtain ⟨-, ⟨r, hr, -, rfl⟩, -⟩ := exists_of_select hselect
    have htake := congrArg List.length (Prod.mk.inj (Prod.mk.inj heq).2).1
    rw [List.length_take_of_le (reach_le_length r)] at htake
    rcases l.reach_le_one rest lineStart hr with rfl | hle
    · rw [← hreach, htake]
    · omega
  · intro h
    have hpos : 1 < l.rule.reach lineStart (l.text ++ rest) := by
      rwa [hreach, h]
    have hselect := select_eq_some hmem (Nat.zero_lt_of_lt hpos) fun r hr =>
      (l.reach_le_one rest lineStart hr).imp id fun hle => hle.trans_lt hpos
    rw [next, hselect, hreach, h, haction, Option.map_some]
    simp only [List.take_left, List.drop_left]

/-- **Literals.**  The lexer returns the literal as one token and goes on after it just if it does
not end in a backslash before its quote, or no quote that comes after it could end the match; and
a `"` in a character literal is not matched. -/
theorem next_eq_literal_iff (l : Literal) (rest : List UInt8) (lineStart : Bool) :
    next lexRules lineStart (l.text ++ rest) = some (.token .STRING, l.text, rest) ↔
      l.Ends rest :=
  (l.next_eq_iff rest lineStart).trans (l.longest_rule_iff rest)

/-- `"a\\"`, with an escaped backslash. -/
def escapedBackslash : Literal :=
  .string [97, backslash, backslash]
    (.plain (by decide) (by decide) (by decide) (.escape backslash .nil))

/-- In `"a\\" + "b"` the first token goes up to the quote before `b`. -/
theorem escapedBackslash_not_next : ¬ ∀ (l : Literal) (rest : List UInt8) (lineStart : Bool),
    next lexRules lineStart (l.text ++ rest) = some (.token .STRING, l.text, rest) := by
  intro h
  have hends : escapedBackslash.Ends (bytesOf " + \"b\"") :=
    (escapedBackslash.longest_rule_iff _).mp
      ((escapedBackslash.next_eq_iff _ false).mp (h escapedBackslash _ false))
  rcases hends with hlast | hmem
  · exact hlast rfl
  · exact hmem (by decide)

end Literal

end Parser
