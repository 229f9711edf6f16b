/-
# The semaphores of the discoveries

`callbackResult` and `unlockDiscovery` post the semaphore that they find in `reqsem` under the
id of the request, and `operator[]` gives them a null pointer for an id that is not there.  The
pointer is a semaphore exactly while the launch of the request stands between `reqsem.insert`
and `reqsem.erase`, if nobody looked the id up before: a lookup makes an entry, and `insert`
does not replace it.

`callbackResult` tests the pointer first, in a statement of its own.  `unlockDiscovery` does
not, and the timer sends it some time before it is delivered.
-/
import PopCpp.Discovery.Results

namespace Discovery

namespace Results

variable {ι : Type*}

/-! ### The stages of a semaphore -/

/-- How far a launch is with its semaphore. -/
inductive Stage where
  /-- It has not inserted it. -/
  | notInserted
  /-- It has inserted it. -/
  | inserted (sem : ℕ)
  /-- It has erased it. -/
  | erased

/-- The stage of a launch. -/
def Launch.stage (l : Launch) : Stage :=
  if l.HoldsSem then .inserted l.currentSem
  else if l.Erased then .erased
  else .notInserted

/-- The stage of a request. -/
def Node.stage (s : Node ι) (id : ι) : Stage :=
  match s.launches id with
  | some l => l.stage
  | none => .notInserted

/-- The launch of the request stands between `reqsem.insert` and `reqsem.erase`, and the id was
not looked up before its semaphore was inserted. -/
def Node.InTime (s : Node ι) (id : ι) : Prop :=
  (∃ l, s.launches id = some l ∧ l.HoldsSem) ∧ id ∉ s.early

lemma Launch.stage_cases (l : Launch) :
    l.HoldsSem ∧ l.stage = .inserted l.currentSem ∨
      ¬l.HoldsSem ∧ l.Erased ∧ l.stage = .erased ∨
        ¬l.HoldsSem ∧ ¬l.Erased ∧ l.stage = .notInserted := by
  by_cases hh : l.HoldsSem
  · exact Or.inl ⟨hh, if_pos hh⟩
  · by_cases he : l.Erased
    · exact Or.inr (Or.inl ⟨hh, he, by rw [Launch.stage, if_neg hh, if_pos he]⟩)
    · exact Or.inr (Or.inr ⟨hh, he, by rw [Launch.stage, if_neg hh, if_neg he]⟩)

lemma notInserted_iff {s : Node ι} {id : ι} :
    s.NotInserted id ↔ s.stage id = .notInserted := by
  unfold Node.NotInserted Node.stage
  cases s.launches id with
  | none => simp
  | some l =>
      obtain ⟨hh, hstage⟩ | ⟨hh, he, hstage⟩ | ⟨hh, he, hstage⟩ := l.stage_cases
      · simp [hstage, hh]
      · simp [hstage, he]
      · simp [hstage, hh, he]

lemma inTime_iff {s : Node ι} {id : ι} :
    s.InTime id ↔ (∃ k, s.stage id = .inserted k) ∧ id ∉ s.early := by
  refine and_congr_left fun _ => ?_
  unfold Node.stage
  cases s.launches id with
  | none => simp
  | some l =>
      obtain ⟨hh, hstage⟩ | ⟨hh, he, hstage⟩ | ⟨hh, he, hstage⟩ := l.stage_cases
      · simp [hstage, hh]
      · simp [hstage, hh]
      · simp [hstage, hh]

variable [DecidableEq ι]

/-- What a step can do to the semaphore of one request. -/
inductive SemEffect (s t : Node ι) (id : ι) : Prop where
  /-- Nothing. -/
  | stay (hentry : t.reqsem id = s.reqsem id) (hearly : id ∈ t.early ↔ id ∈ s.early)
      (hstage : t.stage id = s.stage id)
  /-- The id is looked up. -/
  | lookUp (hentry : t.reqsem id = some ((s.reqsem id).getD none))
      (hearly : id ∈ t.early ↔ s.NotInserted id ∨ id ∈ s.early)
      (hstage : t.stage id = s.stage id)
  /-- The semaphore is inserted. -/
  | insert (k : ℕ) (hentry : t.reqsem id = some ((s.reqsem id).getD (some k)))
      (hearly : id ∈ t.early ↔ id ∈ s.early) (hbefore : s.stage id = .notInserted)
      (hstage : t.stage id = .inserted k)
  /-- The entry is erased. -/
  | erase (hentry : t.reqsem id = none) (hstage : t.stage id = .erased)

variable {s t : Node ι} {id : ι}

omit [DecidableEq ι] in
lemma stage_congr {s t : Node ι} (h : t.launches id = s.launches id) :
    t.stage id = s.stage id := by
  simp [Node.stage, h]

omit [DecidableEq ι] in
lemma SemEffect.of_eq (hreqsem : t.reqsem = s.reqsem) (hearly : t.early = s.early)
    (hlaunches : t.launches = s.launches) : SemEffect s t id :=
  .stay (by rw [hreqsem]) (by rw [hearly]) (stage_congr (by rw [hlaunches]))

lemma SemEffect.of_lookUp {u : Node ι} {i : ι} (hreqsem : u.reqsem = s.reqsem)
    (hearly : u.early = s.early) (hlaunches : u.launches = s.launches)
    (htreqsem : t.reqsem = (u.lookUp i).reqsem) (htearly : t.early = (u.lookUp i).early)
    (htlaunches : t.launches = u.launches) : SemEffect s t id := by
  have hstage : t.stage id = s.stage id := stage_congr (by rw [htlaunches, hlaunches])
  have hins : u.NotInserted i ↔ s.NotInserted i := by
    simp [Node.NotInserted, hlaunches]
  by_cases hi : id = i
  · subst hi
    refine .lookUp ?_ ?_ hstage
    · simp [htreqsem, Node.lookUp, hreqsem]
    · by_cases h : s.NotInserted id <;> simp [htearly, Node.lookUp, hearly, hins, h]
  · refine .stay ?_ ?_ hstage
    · simp [htreqsem, Node.lookUp, hreqsem, hi]
    · by_cases h : s.NotInserted i <;> simp [htearly, Node.lookUp, hearly, hins, h, hi]

/-- A launch that goes on without touching `reqsem`. -/
lemma SemEffect.of_setLaunch {i : ι} {l l' : Launch} (hl : s.launches i = some l)
    (hreqsem : t.reqsem = s.reqsem) (hearly : t.early = s.early)
    (hlaunches : t.launches = Function.update s.launches i (some l'))
    (hstage : l'.stage = l.stage) : SemEffect s t id := by
  refine .stay (by rw [hreqsem]) (by rw [hearly]) ?_
  by_cases hi : id = i
  · subst hi
    simp [Node.stage, hlaunches, hl, hstage]
  · exact stage_congr (by simp [hlaunches, hi])

/-! ### The steps -/

/-- Only a launch with the timeout 0 comes to the statements that deal with the semaphore. -/
def Launch.Timed (l : Launch) : Prop :=
  l.pc ∈ [.opening, .inserting, .timing, .waiting, .waitingAgain, .stopping, .erasing] →
    l.timeout = 0

/-- All launches of the node are so. -/
def Node.Timed (s : Node ι) : Prop := ∀ id l, s.launches id = some l → l.Timed

lemma Node.Timed.setLaunch (h : s.Timed) {i : ι} {l' : Launch}
    (hlaunches : t.launches = Function.update s.launches i (some l')) (hl' : l'.Timed) :
    t.Timed := by
  intro id l hl
  rw [hlaunches] at hl
  by_cases hi : id = i
  · subst hi
    simp only [Function.update_self, Option.some.injEq] at hl
    exact hl ▸ hl'
  · rw [Function.update_of_ne hi] at hl
    exact h id l hl

omit [DecidableEq ι] in
lemma Node.Timed.congr (h : s.Timed) (hlaunches : t.launches = s.launches) : t.Timed :=
  fun id l hl => h id l (hlaunches ▸ hl)

lemma Node.Timed.advance (h : s.Timed) {i : ι} {l : Launch} (hl : s.launches i = some l) :
    (s.advance i l).Timed := by
  have hzero := h i l hl
  obtain ⟨timeout, pc, currentSem, results⟩ := l
  cases pc with
  | returned => exact h
  | registering | asking =>
      refine h.setLaunch rfl ?_
      by_cases hz : timeout = 0 <;> simp [Launch.Timed, hz]
  | collecting | erasing => exact h.setLaunch rfl (by simp [Launch.Timed])
  | _ => exact h.setLaunch rfl fun _ => hzero (by simp)

/-- What a statement of `launchDiscovery` does to the semaphores. -/
lemma semEffect_advance {i : ι} {l : Launch} (hl : s.launches i = some l) (htimed : l.Timed) :
    SemEffect s (s.advance i l) id := by
  obtain ⟨timeout, pc, currentSem, results⟩ := l
  cases pc with
  | returned => exact .of_eq rfl rfl rfl
  | inserting =>
      obtain rfl : timeout = 0 := htimed (by simp)
      by_cases hi : id = i
      · subst hi
        refine .insert currentSem ?_ Iff.rfl ?_ ?_
        · simp [Node.advance]
        · simp [Node.stage, hl, Launch.stage, Launch.HoldsSem, Launch.Erased]
        · simp [Node.advance, Node.stage, Node.setLaunch, Launch.stage, Launch.HoldsSem]
      · exact .stay (by simp [Node.advance, hi]) Iff.rfl
          (stage_congr (by simp [Node.advance, Node.setLaunch, hi]))
  | erasing =>
      obtain rfl : timeout = 0 := htimed (by simp)
      by_cases hi : id = i
      · subst hi
        refine .erase ?_ ?_
        · simp [Node.advance]
        · simp [Node.advance, Node.stage, Node.setLaunch, Launch.stage, Launch.HoldsSem,
            Launch.Erased]
      · exact .stay (by simp [Node.advance, hi]) Iff.rfl
          (stage_congr (by simp [Node.advance, Node.setLaunch, hi]))
  | registering | asking =>
      refine .of_setLaunch hl rfl rfl rfl ?_
      by_cases hz : timeout = 0 <;> simp [Launch.stage, Launch.HoldsSem, Launch.Erased, hz]
  | _ =>
      exact .of_setLaunch hl rfl rfl rfl (by simp [Launch.stage, Launch.HoldsSem, Launch.Erased])

/-- The request whose semaphore the step posts. -/
def Node.posted (s : Node ι) : Action ι → Option ι
  | .unlockDiscovery i => s.unlocks[i]?
  | .postSem i =>
      match s.callbacks[i]? with
      | some (id, .posting) => some id
      | _ => none
  | _ => none

/-- What a step does to the semaphores, to the launches and to the log of the posts. -/
lemma sem_step {a : Action ι} (htimed : s.Timed) (hst : step s a = some t) :
    (∀ id, SemEffect s t id) ∧ t.Timed ∧
      t.posts = s.posts ++ ((s.posted a).map fun id => (s.reqsem id).getD none).toList := by
  cases Moves.of_step hst with
  | @launchDiscovery i endRequest timeout hnone ht =>
      subst ht
      refine ⟨fun id => .stay rfl Iff.rfl ?_, htimed.setLaunch rfl (by simp [Launch.Timed]),
        by simp [Node.setLaunch, Node.posted]⟩
      by_cases hi : id = i
      · subst hi
        simp [Node.stage, Node.setLaunch, Launch.stage, Launch.HoldsSem, Launch.Erased, hnone]
      · exact stage_congr (by simp [Node.setLaunch, hi])
  | @advance i l hl _ ht =>
      subst ht
      refine ⟨fun id => semEffect_advance hl (htimed i l hl), htimed.advance hl, ?_⟩
      obtain ⟨timeout, pc, currentSem, results⟩ := l
      cases pc <;> simp [Node.advance, Node.setLaunch, Node.posted]
  | @interrupt i l pc hl hpc ht =>
      subst ht
      -- only a launch with no timeout is waiting for `UnlockDiscovery`
      have hzero : l.timeout = 0 :=
        htimed i l hl (by rcases hpc with ⟨hpc, -⟩ | ⟨hpc, -⟩ <;> simp [hpc])
      refine ⟨fun id => .of_setLaunch hl rfl rfl rfl ?_, htimed.setLaunch rfl fun _ => hzero,
        by simp [Node.setLaunch, Node.posted]⟩
      rcases hpc with ⟨hpc, rfl⟩ | ⟨hpc, rfl⟩
      · simp [Launch.stage, Launch.HoldsSem, Launch.Erased, hpc]
      · simp [Launch.stage, Launch.HoldsSem, Launch.Erased, hpc]
  -- the other threads: no launch moves
  | elapse _ _ ht | checkUnlock _ _ ht =>
      subst ht
      exact ⟨fun id => .of_eq rfl rfl rfl, htimed.congr rfl, by simp [Node.posted]⟩
  | unlockDiscovery hid ht =>
      subst ht
      exact ⟨fun id => .of_lookUp rfl rfl rfl rfl rfl rfl, htimed.congr rfl,
        by simp [Node.semPost, Node.posted, hid]⟩
  | callbackResult ht =>
      subst ht
      exact ⟨fun id => .of_eq rfl rfl rfl, htimed.congr rfl,
        by simp [Node.callbackResult, Node.posted]⟩
  | checkSem _ ht =>
      subst ht
      exact ⟨fun id => .of_lookUp rfl rfl rfl rfl rfl rfl, htimed.congr rfl,
        by simp [Node.lookUp, Node.posted]⟩
  | postSem hid ht =>
      subst ht
      exact ⟨fun id => .of_lookUp rfl rfl rfl rfl rfl rfl, htimed.congr rfl,
        by simp [Node.semPost, Node.posted, hid]⟩

/-! ### The entries -/

/-- The entry of a request agrees with the stage of its launch. -/
def SemRecorded (s : Node ι) (id : ι) : Prop :=
  match s.stage id with
  | .notInserted => s.reqsem id = if id ∈ s.early then some none else none
  | .inserted k => s.reqsem id = some (if id ∈ s.early then none else some k)
  | .erased => (s.reqsem id).getD none = none

lemma SemRecorded.of_effect (h : SemRecorded s id) (he : SemEffect s t id) :
    SemRecorded t id := by
  unfold SemRecorded at h ⊢
  cases he with
  | stay hentry hearly hstage =>
      rw [hstage, hentry]
      simpa only [hearly] using h
  | lookUp hentry hearly hstage =>
      rw [hstage, hentry]
      rw [notInserted_iff] at hearly
      cases hs : s.stage id with
      | notInserted =>
          simp only [hs] at h ⊢
          by_cases hin : id ∈ s.early <;> simp [h, hearly, hs, hin]
      | inserted k =>
          simp only [hs] at h ⊢
          simp [h, hearly, hs]
      | erased =>
          simp only [hs] at h ⊢
          simp [h]
  | insert k hentry hearly hbefore hstage =>
      rw [hstage, hentry]
      simp only [hbefore] at h
      by_cases hin : id ∈ s.early <;> simp [h, hearly, hin]
  | erase hentry hstage =>
      rw [hstage, hentry]
      simp

/-- The entry is a semaphore exactly when a post is in time. -/
lemma SemRecorded.isSem_iff (h : SemRecorded s id) :
    (s.reqsem id).getD none ≠ none ↔ s.InTime id := by
  rw [inTime_iff]
  unfold SemRecorded at h
  cases hs : s.stage id with
  | notInserted =>
      simp only [hs] at h
      by_cases hin : id ∈ s.early <;> simp [h, hin]
  | inserted k =>
      simp only [hs] at h
      by_cases hin : id ∈ s.early <;> simp [h, hin]
  | erased =>
      simp only [hs] at h
      simp [h]

/-! ### The posts -/

/-- A post of the step is in time. -/
def PostInTime (s : Node ι) (a : Action ι) : Prop := ∀ id, s.posted a = some id → s.InTime id

/-- How often `sem_post` has been applied to a null pointer. -/
def Node.nullPosts (s : Node ι) : ℤ := s.posts.countP Option.isNone

lemma nullPosts_step {a : Action ι} (htimed : s.Timed) (hrec : ∀ id, SemRecorded s id)
    (hst : step s a = some t) :
    (PostInTime s a → t.nullPosts = s.nullPosts) ∧
      (¬PostInTime s a → s.nullPosts < t.nullPosts) := by
  obtain ⟨-, -, hposts⟩ := sem_step htimed hst
  cases hid : s.posted a with
  | none =>
      have hin : PostInTime s a := by simp [PostInTime, hid]
      exact ⟨fun _ => by simp [Node.nullPosts, hposts, hid], fun h => absurd hin h⟩
  | some id =>
      have hiff : PostInTime s a ↔ (s.reqsem id).getD none ≠ none := by
        rw [(hrec id).isSem_iff]
        simp [PostInTime, hid]
      constructor
      · intro h
        obtain ⟨k, hk⟩ := Option.ne_none_iff_exists'.mp (hiff.mp h)
        simp [Node.nullPosts, hposts, hid, hk]
      · intro h
        have hnull : (s.reqsem id).getD none = none := by
          by_contra hne
          exact h (hiff.mpr hne)
        simp [Node.nullPosts, hposts, hid, hnull]

/-- **Posts.**  In a run of the search node `sem_post` is never applied to a null pointer if and
only if every post finds the launch of its request between `reqsem.insert` and `reqsem.erase`,
and no lookup of the id has come before its semaphore. -/
theorem posts_iff (as : List (Action ι)) (s : Node ι)
    (hrun : Transition.run step init as = some s) :
    (∀ p ∈ s.posts, p ≠ none) ↔ Transition.Along step PostInTime init as := by
  have hinit : (init : Node ι).Timed ∧ ∀ id, SemRecorded (init : Node ι) id :=
    ⟨fun id l hl => by simp [init] at hl, fun id => rfl⟩
  have hmeasure := (Transition.run_measure_eq_iff_of_invariant (P := PostInTime)
    (I := fun s => s.Timed ∧ ∀ id, SemRecorded s id) (f := Node.nullPosts)
    (fun s a t hs hst => ?_) (fun s a t hs hst => (nullPosts_step hs.1 hs.2 hst).1)
    (fun s a t hs hst => (nullPosts_step hs.1 hs.2 hst).2) hinit hrun).2
  · rw [← hmeasure]
    have hzero : (init : Node ι).nullPosts = 0 := rfl
    rw [hzero, Node.nullPosts, Int.natCast_eq_zero, List.countP_eq_zero]
    simp
  · obtain ⟨heffect, htimed, -⟩ := sem_step hs.1 hst
    exact ⟨htimed, fun id => (hs.2 id).of_effect (heffect id)⟩

/-- A discovery up to the wait, and the answer that ends it. -/
def answered : List (Action ℕ) :=
  .launchDiscovery 0 false 0 :: List.replicate 5 (.advance 0) ++
    [.elapse 0, .callbackResult 0 (sampleInfo "a"), .checkSem 0, .postSem 0, .advance 0]

/-- The answer posts the semaphore of the launch, in time. -/
theorem posts_iff_answered :
    ∃ s, Transition.run step init answered = some s ∧ s.posts = [some 0] ∧
      Transition.Along step PostInTime init answered := by
  have hrun : (Transition.run step init answered).map Node.posts = some [some 0] := rfl
  obtain ⟨s, hs, hposts⟩ := Option.map_eq_some_iff.mp hrun
  exact ⟨s, hs, hposts, (posts_iff _ s hs).mp (by simp [hposts])⟩

/-- The timer has decided to unlock the discovery when the launch stops it; its call comes when
the semaphore is erased. -/
def lateUnlock : List (Action ℕ) :=
  answered ++ [.checkUnlock 0, .advance 0, .advance 0, .unlockDiscovery 0]

/-- `unlockDiscovery` applies `sem_post` to a null pointer. -/
theorem null_post :
    ¬∀ (as : List (Action ℕ)) (s : Node ℕ), Transition.run step init as = some s →
      ∀ p ∈ s.posts, p ≠ none := by
  intro h
  have hrun : (Transition.run step init lateUnlock).map Node.posts = some [some 0, none] := rfl
  obtain ⟨s, hs, hposts⟩ := Option.map_eq_some_iff.mp hrun
  exact h _ s hs none (by simp [hposts]) rfl

end Results

end Discovery
