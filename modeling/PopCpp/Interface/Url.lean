/-
# The url of an object description

`url` takes a text `user@host{core}:port` apart, where all but the host may be missing.  Three
things go wrong.  What comes behind the braces is thrown away, so a port is part of the host only
where there is no core.  A user or a core that is missing leaves the member as it was, with what an
earlier url has put there.  And behind the user the text is copied to the beginning of the array it
stands in with `strcpy`, which is undefined unless the user is at least as long as the rest.  A url
is set as it stands, whatever `strcpy` does there, exactly if nothing of this happens
(`url_isSet_iff`).
-/
import PopCpp.Interface.ObjectDescription

namespace PopCpp.Od

open Buffer

/-! ### Urls -/

/-- `user@`, for a text that is there. -/
def userText (user : Option Str) : Str := (user.map fun t => t ++ [64]).getD []

/-- `{core}` -/
def coreText (core : Option Str) : Str := (core.map fun t => 123 :: (t ++ [125])).getD []

/-- `:port` -/
def portText (port : Option Str) : Str := (port.map fun t => 58 :: t).getD []

/-- A text without `@`, `{` and `}`, and without a NUL. -/
def Plain (t : Str) : Prop := 0 ∉ t ∧ 64 ∉ t ∧ 123 ∉ t ∧ 125 ∉ t

instance (t : Str) : Decidable (Plain t) := inferInstanceAs (Decidable (_ ∧ _))

/-- The parts of a url, which fits into the array of `url`. -/
structure Url where
  user : Option Str
  host : Str
  core : Option Str
  port : Option Str
  plainUser : ∀ t ∈ user, Plain t
  plainHost : Plain host
  plainCore : ∀ t ∈ core, Plain t
  plainPort : ∀ t ∈ port, Plain t
  short : (userText user ++ (host ++ (coreText core ++ portText port))).length < 256

namespace Url

/-- `user@host{core}:port` -/
def text (u : Url) : Str :=
  userText u.user ++ (u.host ++ (coreText u.core ++ portText u.port))

/-- The text behind the user. -/
def rest (u : Url) : Str := u.host ++ (coreText u.core ++ portText u.port)

/-- The copy of the text behind the user ends before that text begins. -/
def Apart (u : Url) : Prop := ∀ user ∈ u.user, u.rest.length ≤ user.length

/-- The object description has the parts of this url. -/
structure IsSet (u : Url) (od : PopOd) : Prop where
  hostname : od.hostname = u.host ++ portText u.port
  hostuser : od.hostuser = u.user.getD []
  hostcore : od.hostcore = u.core.getD []

end Url

/-! ### Taking a url apart -/

section

variable {t rest : Str} {c : UInt8}

lemma strchr_append (h : c ∉ t) : PopOd.strchr (t ++ c :: rest) c = some (t, rest) := by
  have hpos : ∀ a ∈ t, (a != c) = true := fun a ha => by
    have : a ≠ c := fun heq => h (heq ▸ ha)
    simpa using this
  rw [PopOd.strchr, if_pos (by simp), List.takeWhile_append_of_pos hpos,
    List.dropWhile_append_of_pos hpos]
  simp

lemma strchr_of_not_mem (h : c ∉ t) : PopOd.strchr t c = none := if_neg h

lemma portText_eq_nil_iff {port : Option Str} : portText port = [] ↔ port = none := by
  cases port with
  | none => exact iff_of_true rfl rfl
  | some t => exact iff_of_false (List.cons_ne_nil _ _) (Option.some_ne_none t)

lemma not_mem_portText {port : Option Str} (h : ∀ t ∈ port, c ∉ t) (hc : c ≠ 58) :
    c ∉ portText port := by
  cases port with
  | none => exact List.not_mem_nil
  | some t =>
      rw [portText, Option.map_some, Option.getD_some, List.mem_cons, not_or]
      exact ⟨hc, h t rfl⟩

lemma not_mem_coreText {core : Option Str} (h : ∀ t ∈ core, c ∉ t) (hopen : c ≠ 123)
    (hclose : c ≠ 125) : c ∉ coreText core := by
  cases core with
  | none => exact List.not_mem_nil
  | some t =>
      rw [coreText, Option.map_some, Option.getD_some, List.mem_cons, List.mem_append,
        List.mem_singleton, not_or, not_or]
      exact ⟨hopen, h t rfl, hclose⟩

lemma not_mem_userText {user : Option Str} (h : ∀ t ∈ user, c ∉ t) (hc : c ≠ 64) :
    c ∉ userText user := by
  cases user with
  | none => exact List.not_mem_nil
  | some t =>
      rw [userText, Option.map_some, Option.getD_some, List.mem_append, List.mem_singleton, not_or]
      exact ⟨h t rfl, hc⟩

end

section

variable (u : Url) (od : PopOd)

lemma cut_text : u.text.takeWhile (· != 0) = u.text := by
  refine cut_eq_self_iff.mpr ?_
  rw [Url.text, List.mem_append, List.mem_append, List.mem_append, not_or, not_or, not_or]
  exact ⟨not_mem_userText (fun t ht => (u.plainUser t ht).1) (by decide), u.plainHost.1,
    not_mem_coreText (fun t ht => (u.plainCore t ht).1) (by decide) (by decide),
    not_mem_portText (fun t ht => (u.plainPort t ht).1) (by decide)⟩

lemma urlUser_of_none (overlap : Overlap) (h : u.user = none) :
    PopOd.urlUser overlap od u.text = (od, u.rest) := by
  have hat : 64 ∉ u.rest := by
    rw [Url.rest, List.mem_append, List.mem_append, not_or, not_or]
    exact ⟨u.plainHost.2.1,
      not_mem_coreText (fun t ht => (u.plainCore t ht).2.1) (by decide) (by decide),
      not_mem_portText (fun t ht => (u.plainPort t ht).2.1) (by decide)⟩
  have htext : u.text = u.rest := by
    rw [Url.text, h]
    rfl
  rw [PopOd.urlUser, htext, strchr_of_not_mem hat]

lemma urlUser_of_some (overlap : Overlap) {user : Str} (h : u.user = some user) :
    PopOd.urlUser overlap od u.text =
      ({ od with hostuser := user }, if u.rest.length ≤ user.length then u.rest
        else (overlap u.text (user.length + 1)).takeWhile (· != 0)) := by
  have htext : u.text = user ++ 64 :: u.rest := by
    rw [Url.text, h, userText, Option.map_some, Option.getD_some, List.append_assoc]
    rfl
  have hdrop : u.text.drop (user.length + 1) = u.rest := by
    rw [htext, ← List.drop_drop, List.drop_left, List.drop_succ_cons, List.drop_zero]
  have hstrchr : PopOd.strchr u.text 64 = some (user, u.rest) := by
    rw [htext, strchr_append (u.plainUser user h).2.1]
  simp only [PopOd.urlUser, hstrchr, PopOd.strcpy, hdrop, Nat.lt_succ_iff]

/-- The user is taken off, if there is one. -/
lemma urlUser_text {overlap : Overlap} (happart : u.Apart) :
    PopOd.urlUser overlap od u.text =
      ({ od with hostuser := u.user.getD od.hostuser }, u.rest) := by
  cases huser : u.user with
  | none => exact urlUser_of_none u od overlap huser
  | some user => rw [urlUser_of_some u od overlap huser, if_pos (happart user huser)]; rfl

/-- Where the copy overlaps the text, anything may be left of it. -/
lemma urlUser_overlap (happart : ¬u.Apart) (left : Str) :
    PopOd.urlUser (fun _ _ => left) od u.text =
      ({ od with hostuser := u.user.getD od.hostuser }, left.takeWhile (· != 0)) := by
  rw [Url.Apart, not_forall] at happart
  obtain ⟨user, huser⟩ := happart
  rw [Classical.not_imp] at huser
  rw [urlUser_of_some u od _ huser.1, if_neg huser.2, huser.1]
  rfl

/-- The core is taken off, if there is one, and what is behind it. -/
lemma urlCore_text : od.urlCore u.rest =
    ({ od with hostcore := u.core.getD od.hostcore },
      if u.core = none then u.host ++ portText u.port else u.host) := by
  cases hcore : u.core with
  | none =>
      have hbrace : 123 ∉ u.host ++ portText u.port := by
        rw [List.mem_append, not_or]
        exact ⟨u.plainHost.2.2.1,
          not_mem_portText (fun t ht => (u.plainPort t ht).2.2.1) (by decide)⟩
      have htext : u.host ++ (coreText none ++ portText u.port) = u.host ++ portText u.port := rfl
      rw [PopOd.urlCore, Url.rest, hcore, htext, strchr_of_not_mem hbrace]
      rfl
  | some core =>
      have htext : u.host ++ (coreText (some core) ++ portText u.port) =
          u.host ++ 123 :: (core ++ 125 :: portText u.port) := by
        rw [coreText, Option.map_some, Option.getD_some, List.cons_append, List.append_assoc]
        rfl
      rw [PopOd.urlCore, Url.rest, hcore, htext, strchr_append u.plainHost.2.2.1]
      simp only [strchr_append (u.plainCore core hcore).2.2.2]
      rfl

/-- **What `url` does.** -/
lemma url_text (overlap : Overlap) (happart : u.Apart) :
    ∃ od', PopOd.url overlap od u.text = some od' ∧
      od'.hostname = (if u.core = none then u.host ++ portText u.port else u.host) ∧
      od'.hostuser = u.user.getD od.hostuser ∧ od'.hostcore = u.core.getD od.hostcore := by
  have hshort : ¬256 ≤ u.text.length := not_le.mpr u.short
  simp only [PopOd.url, cut_text, if_neg hshort, urlUser_text u od happart, urlCore_text]
  split_ifs <;> exact ⟨_, rfl, by simp [PopOd.runLocal], rfl, rfl⟩

/-- What `url` may do where the copy overlaps the text: an `@` is left of it. -/
lemma url_overlap_at (happart : ¬u.Apart) :
    ∃ od', PopOd.url (fun _ _ => [64]) od u.text = some od' ∧ od'.hostname = [64] := by
  have hshort : ¬256 ≤ u.text.length := not_le.mpr u.short
  simp only [PopOd.url, cut_text, if_neg hshort, urlUser_overlap u od happart]
  split_ifs <;> exact ⟨_, rfl, rfl⟩

/-- What `url` may do there as well: `{x}` is left of the text. -/
lemma url_overlap_core (happart : ¬u.Apart) :
    ∃ od', PopOd.url (fun _ _ => [123, 120, 125]) od u.text = some od' ∧
      od'.hostcore = [120] := by
  have hshort : ¬256 ≤ u.text.length := not_le.mpr u.short
  simp only [PopOd.url, cut_text, if_neg hshort, urlUser_overlap u od happart]
  split_ifs <;> exact ⟨_, rfl, rfl⟩

/-- The user is taken off in any case. -/
lemma url_hostuser (overlap : Overlap) :
    ∃ od', PopOd.url overlap od u.text = some od' ∧ od'.hostuser = u.user.getD od.hostuser := by
  have hshort : ¬256 ≤ u.text.length := not_le.mpr u.short
  have huser : (PopOd.urlUser overlap od u.text).1.hostuser = u.user.getD od.hostuser := by
    cases h : u.user with
    | none => rw [urlUser_of_none u od overlap h]; rfl
    | some user => rw [urlUser_of_some u od overlap h]; rfl
  have hcore : ∀ (o : PopOd) (h : Str), (o.urlCore h).1.hostuser = o.hostuser := by
    intro o h
    rw [PopOd.urlCore]
    split
    · split <;> rfl
    · rfl
  rw [← huser, ← hcore _ (PopOd.urlUser overlap od u.text).2]
  simp only [PopOd.url, cut_text, if_neg hshort]
  split_ifs <;> exact ⟨_, rfl, rfl⟩

/-- The host, with its port, has no `@`. -/
lemma not_isSet_of_at {od' : PopOd} (hname : od'.hostname = [64]) : ¬u.IsSet od' := by
  intro hset
  have hat : 64 ∉ u.host ++ portText u.port := by
    rw [List.mem_append, not_or]
    exact ⟨u.plainHost.2.1, not_mem_portText (fun t ht => (u.plainPort t ht).2.1) (by decide)⟩
  rw [← hset.hostname, hname] at hat
  exact hat List.mem_cons_self

end

/-- A url whose copy does not overlap is set as it stands exactly if it has not both a core and a
port, and the object description has no user and no core where the url has none. -/
lemma isSet_iff_of_apart (u : Url) (od : PopOd) {overlap : Overlap} (happart : u.Apart) :
    (∃ od', PopOd.url overlap od u.text = some od' ∧ u.IsSet od') ↔
      (u.core = none ∨ u.port = none) ∧ (u.user = none → od.hostuser = []) ∧
        (u.core = none → od.hostcore = []) := by
  obtain ⟨od', hurl, hname, huser, hcore⟩ := url_text u od overlap happart
  rw [hurl]
  constructor
  · rintro ⟨_, heq, hset⟩
    obtain rfl := Option.some_inj.mp heq
    refine ⟨?_, fun hnone => ?_, fun hnone => ?_⟩
    · by_cases hnone : u.core = none
      · exact .inl hnone
      · -- the port is missing in the host
        have hhost := hset.hostname
        rw [hname, if_neg hnone, List.self_eq_append_right] at hhost
        exact .inr (portText_eq_nil_iff.mp hhost)
    · have huser' := hset.hostuser
      rwa [huser, hnone] at huser'
    · have hcore' := hset.hostcore
      rwa [hcore, hnone] at hcore'
  · rintro ⟨hport, hnouser, hnocore⟩
    refine ⟨od', rfl, ?_, ?_, ?_⟩
    · rw [hname]
      split_ifs with hnone
      · rfl
      · rw [portText_eq_nil_iff.mpr (hport.resolve_left hnone), List.append_nil]
    · rw [huser]
      cases h : u.user with
      | none => exact hnouser h
      | some user => rfl
    · rw [hcore]
      cases h : u.core with
      | none => exact hnocore h
      | some core => rfl

/-- A url that is set as it stands, whatever the library does, has no copy that overlaps. -/
lemma apart_of_isSet (u : Url) (od : PopOd)
    (h : ∃ od', PopOd.url (fun _ _ => [64]) od u.text = some od' ∧ u.IsSet od') : u.Apart := by
  by_contra happart
  obtain ⟨od', hurl, hname⟩ := url_overlap_at u od happart
  obtain ⟨_, heq, hset⟩ := h
  rw [hurl, Option.some_inj] at heq
  exact not_isSet_of_at u hname (heq ▸ hset)

lemma isSet_iff (u : Url) (od : PopOd) :
    (∀ overlap, ∃ od', PopOd.url overlap od u.text = some od' ∧ u.IsSet od') ↔
      u.Apart ∧ (u.core = none ∨ u.port = none) ∧ (u.user = none → od.hostuser = []) ∧
        (u.core = none → od.hostcore = []) := by
  constructor
  · intro h
    have happart := apart_of_isSet u od (h _)
    exact ⟨happart, (isSet_iff_of_apart u od happart).mp (h fun _ _ => [64])⟩
  · rintro ⟨happart, hparts⟩ overlap
    exact (isSet_iff_of_apart u od happart).mpr hparts

/-! ### Two urls -/

/-- The second url is set as it stands. -/
def SecondIsSet (u v : Url) (od : PopOd) (overlap : Overlap) : Prop :=
  ∃ od₁ od₂, PopOd.url overlap od u.text = some od₁ ∧ PopOd.url overlap od₁ v.text = some od₂ ∧
    v.IsSet od₂

lemma secondIsSet_iff_of_eq {u v : Url} {od od₁ : PopOd} {overlap : Overlap}
    (hurl : PopOd.url overlap od u.text = some od₁) :
    SecondIsSet u v od overlap ↔ ∃ od₂, PopOd.url overlap od₁ v.text = some od₂ ∧ v.IsSet od₂ := by
  constructor
  · rintro ⟨_, od₂, heq, hsecond, hset⟩
    rw [hurl, Option.some_inj] at heq
    exact ⟨od₂, heq ▸ hsecond, hset⟩
  · rintro ⟨od₂, hsecond, hset⟩
    exact ⟨od₁, od₂, hurl, hsecond, hset⟩

/-- **Urls.**  A url is set as it stands, whatever the library does with copies that overlap,
exactly if there is none, the url has not both a core and a port, and leaves out neither a user nor
a core that is there already; and for a url after another one that means the user and the core of
the other one, which may be anything if its own copy overlaps. -/
theorem url_isSet_iff (u v : Url) (od : PopOd) :
    ((∀ overlap, ∃ od', PopOd.url overlap od u.text = some od' ∧ u.IsSet od') ↔
      u.Apart ∧ (u.core = none ∨ u.port = none) ∧ (u.user = none → od.hostuser = []) ∧
        (u.core = none → od.hostcore = [])) ∧
    ((∀ overlap, SecondIsSet u v od overlap) ↔
      v.Apart ∧ (v.core = none ∨ v.port = none) ∧ (v.user = none → u.user.getD od.hostuser = []) ∧
        (v.core = none → u.Apart ∧ u.core.getD od.hostcore = [])) := by
  refine ⟨isSet_iff u od, ?_, ?_⟩
  · intro h
    obtain ⟨od₁, hurl, huser⟩ := url_hostuser u od fun _ _ => [64]
    have hsecond := (secondIsSet_iff_of_eq hurl).mp (h _)
    have happart := apart_of_isSet v od₁ hsecond
    obtain ⟨hport, hnouser, hnocore⟩ := (isSet_iff_of_apart v od₁ happart).mp hsecond
    refine ⟨happart, hport, fun hnone => huser ▸ hnouser hnone, fun hnone => ?_⟩
    by_cases hfirst : u.Apart
    · obtain ⟨_, hurl', -, -, hcore⟩ := url_text u od (fun _ _ => [64]) hfirst
      obtain rfl := Option.some_inj.mp (hurl.symm.trans hurl')
      exact ⟨hfirst, hcore ▸ hnocore hnone⟩
    · -- the first url may leave a core that it does not have
      obtain ⟨od₂, hurl₂, hcore⟩ := url_overlap_core u od hfirst
      have hset := (isSet_iff_of_apart v od₂ happart).mp
        ((secondIsSet_iff_of_eq hurl₂).mp (h _))
      exact absurd (hcore.symm.trans (hset.2.2 hnone)) (List.cons_ne_nil _ _)
  · rintro ⟨happart, hport, hnouser, hnocore⟩ overlap
    obtain ⟨od₁, hurl, huser⟩ := url_hostuser u od overlap
    rw [secondIsSet_iff_of_eq hurl, isSet_iff_of_apart v od₁ happart]
    refine ⟨hport, fun hnone => huser ▸ hnouser hnone, fun hnone => ?_⟩
    obtain ⟨hfirst, hcore⟩ := hnocore hnone
    obtain ⟨_, hurl', -, -, hcore'⟩ := url_text u od overlap hfirst
    obtain rfl := Option.some_inj.mp (hurl.symm.trans hurl')
    rw [hcore', hcore]

/-- `h{1}:2` -/
def coreAndPort : Url where
  user := none
  host := [104]
  core := some [49]
  port := some [50]
  plainUser := by simp
  plainHost := by decide
  plainCore := by decide
  plainPort := by decide
  short := by decide

/-- Of `h{1}:2` the port is lost, whatever the library does. -/
theorem port_lost :
    ¬∀ (u : Url) (od : PopOd),
      ∃ overlap od', PopOd.url overlap od u.text = some od' ∧ u.IsSet od' := by
  intro h
  obtain ⟨overlap, hset⟩ := h coreAndPort plainOd
  have hwhole := (isSet_iff_of_apart coreAndPort plainOd fun _ huser => by cases huser).mp hset
  exact absurd hwhole.1 (by decide)

end PopCpp.Od
