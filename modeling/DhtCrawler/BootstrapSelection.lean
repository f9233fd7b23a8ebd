import DhtCrawler.BootstrapModel
import DhtCrawler.LibOutcome

/-! What `BootstrapSourcePool::select` returns after any history of calls. The loop over the candidates is
described by an invariant on what it has seen (`Choice.Sound`); the selection it ends with is a prefix of the
distinct candidates that are ready, or the one whose backoff ends first. The vector for the selection is
allocated before the loop and for as many addresses as the caller allows, so a limit whose vector would pass
`isize::MAX` bytes panics. -/

namespace DhtCrawler

open List Finset

variable {seen : Finset SocketAddr} {kept : Option (SocketAddr × Instant)} {ends : Instant}

lemma nodup_eraseDups {α : Type} [DecidableEq α] (l : List α) : l.eraseDups.Nodup := by
  induction hlen : l.length using Nat.strong_induction_on generalizing l with
  | _ n ih =>
    cases l with
    | nil => simp
    | cons a l =>
      have hshort : (l.filter fun b => !b == a).length < n := by
        have hle := length_filter_le (fun b => !b == a) l
        simp only [length_cons] at hlen
        omega
      rw [eraseDups_cons, nodup_cons, mem_eraseDups, List.mem_filter]
      exact ⟨by simp, ih _ hshort _ rfl⟩

namespace BootstrapSourcePool

def backoffEnd (states : FiniteMap SocketAddr BootstrapSourceState) (now : Instant) (addr : SocketAddr) :
    Option Instant :=
  (stateOf states addr).backoffUntil.filter fun ends => ends > now

def ready (states : FiniteMap SocketAddr BootstrapSourceState) (now : Instant) (addr : SocketAddr) : Bool :=
  (backoffEnd states now addr).isNone

lemma stateOf_insert_self (states : FiniteMap SocketAddr BootstrapSourceState) (addr other : SocketAddr) :
    stateOf (states.insert addr (stateOf states addr)) other = stateOf states other := by
  by_cases heq : other = addr
  · subst heq
    simp [stateOf]
  · simp [stateOf, FiniteMap.get_insert_ne _ heq]

lemma stateOf_setState (pool : BootstrapSourcePool) (addr other : SocketAddr) (state : BootstrapSourceState) :
    stateOf (pool.setState addr state).states other = if other = addr then state else stateOf pool.states other := by
  simp only [setState, stateOf, FiniteMap.get_insert]
  split_ifs <;> rfl

/-! ### The loop -/

namespace Choice

def visit (c : Choice) (addr : SocketAddr) : Choice :=
  { c with seen := insert addr c.seen, states := c.states.insert addr (stateOf c.states addr) }

def postpone (c : Choice) (addr : SocketAddr) (ends : Instant) : Choice :=
  { c.visit addr with earliestBackoff := earlierBackoff c.earliestBackoff addr ends }

def accept (c : Choice) (addr : SocketAddr) : Choice := { c.visit addr with selected := c.selected ++ [addr] }

def EarliestOf (states : FiniteMap SocketAddr BootstrapSourceState) (now : Instant) (seen : Finset SocketAddr) :
    Option (SocketAddr × Instant) → Prop
  | none => ∀ addr ∈ seen, backoffEnd states now addr = none
  | some (addr, ends) =>
    addr ∈ seen ∧ backoffEnd states now addr = some ends ∧
      ∀ other ∈ seen, ∀ later, backoffEnd states now other = some later → ends ≤ later

structure Sound (states : FiniteMap SocketAddr BootstrapSourceState) (now : Instant) (c : Choice) : Prop where
  reads : ∀ addr, stateOf c.states addr = stateOf states addr
  earliest : EarliestOf states now c.seen c.earliestBackoff

variable {states : FiniteMap SocketAddr BootstrapSourceState} {now : Instant} {c : Choice}

lemma EarliestOf.of_ready {addr : SocketAddr}
    (hkept : EarliestOf states now seen kept) (hready : backoffEnd states now addr = none) :
    EarliestOf states now (insert addr seen) kept := by
  rcases kept with _ | ⟨first, ends⟩
  · intro other hother
    rcases mem_insert.mp hother with rfl | hother
    · exact hready
    · exact hkept other hother
  · obtain ⟨hmem, hends, hleast⟩ := hkept
    refine ⟨Finset.mem_insert_of_mem hmem, hends, fun other hother later hlater => ?_⟩
    rcases mem_insert.mp hother with rfl | hother
    · exact absurd (hready.symm.trans hlater) (by simp)
    · exact hleast other hother later hlater

lemma EarliestOf.of_backoff {addr : SocketAddr}
    (hkept : EarliestOf states now seen kept)
    (hends : backoffEnd states now addr = some ends) :
    EarliestOf states now (insert addr seen) (earlierBackoff kept addr ends) := by
  have hself {later : Instant} (hlater : backoffEnd states now addr = some later) : ends = later :=
    Option.some.inj (hends.symm.trans hlater)
  rcases kept with _ | ⟨first, firstEnds⟩
  · refine ⟨Finset.mem_insert_self addr seen, hends, fun other hother later hlater => ?_⟩
    rcases mem_insert.mp hother with rfl | hother
    · exact (hself hlater).le
    · exact absurd ((hkept other hother).symm.trans hlater) (by simp)
  · obtain ⟨hmem, hfirst, hleast⟩ := hkept
    by_cases hsooner : ends < firstEnds
    · simp only [earlierBackoff, if_pos hsooner]
      refine ⟨Finset.mem_insert_self addr seen, hends, fun other hother later hlater => ?_⟩
      rcases mem_insert.mp hother with rfl | hother
      · exact (hself hlater).le
      · exact hsooner.le.trans (hleast other hother later hlater)
    · simp only [earlierBackoff, if_neg hsooner]
      refine ⟨Finset.mem_insert_of_mem hmem, hfirst, fun other hother later hlater => ?_⟩
      rcases mem_insert.mp hother with rfl | hother
      · exact (not_lt.mp hsooner).trans (hself hlater).le
      · exact hleast other hother later hlater

lemma Sound.backoffEnd (hsound : c.Sound states now) (addr : SocketAddr) :
    BootstrapSourcePool.backoffEnd c.states now addr = BootstrapSourcePool.backoffEnd states now addr := by
  rw [BootstrapSourcePool.backoffEnd, BootstrapSourcePool.backoffEnd, hsound.reads]

lemma Sound.visit_states (hsound : c.Sound states now) (addr other : SocketAddr) :
    stateOf (c.visit addr).states other = stateOf states other :=
  (stateOf_insert_self c.states addr other).trans (hsound.reads other)

lemma Sound.postpone (hsound : c.Sound states now) {addr : SocketAddr}
    (hends : BootstrapSourcePool.backoffEnd states now addr = some ends) :
    (c.postpone addr ends).Sound states now :=
  ⟨hsound.visit_states addr, hsound.earliest.of_backoff hends⟩

lemma Sound.accept (hsound : c.Sound states now) {addr : SocketAddr}
    (hready : BootstrapSourcePool.backoffEnd states now addr = none) : (c.accept addr).Sound states now :=
  ⟨hsound.visit_states addr, hsound.earliest.of_ready hready⟩

end Choice

section Loop

variable {maxNodes : ℕ} {now : Instant} {addr : SocketAddr} {candidates : List SocketAddr} {c : Choice}

lemma choose_seen (hseen : addr ∈ c.seen) :
    choose maxNodes now (addr :: candidates) c = choose maxNodes now candidates c := by
  rw [choose, if_pos hseen]

lemma choose_postpone (hnew : addr ∉ c.seen) (hends : backoffEnd c.states now addr = some ends) :
    choose maxNodes now (addr :: candidates) c = choose maxNodes now candidates (c.postpone addr ends) := by
  rw [backoffEnd] at hends
  simp only [choose, if_neg hnew, hends]
  rfl

lemma choose_accept (hnew : addr ∉ c.seen) (hready : backoffEnd c.states now addr = none) :
    choose maxNodes now (addr :: candidates) c = if c.selected.length + 1 ≥ maxNodes then (c.accept addr, true)
      else choose maxNodes now candidates (c.accept addr) := by
  rw [backoffEnd] at hready
  simp only [choose, if_neg hnew, hready, length_append, length_singleton]
  rfl

def fresh (seen : Finset SocketAddr) (candidates : List SocketAddr) : List SocketAddr :=
  (candidates.filter fun addr => addr ∉ seen).eraseDups

lemma fresh_seen (hseen : addr ∈ seen) :
    fresh seen (addr :: candidates) = fresh seen candidates := by
  simp [fresh, hseen]

lemma fresh_new (hnew : addr ∉ seen) :
    fresh seen (addr :: candidates) = addr :: fresh (insert addr seen) candidates := by
  have hfilter : ((candidates.filter fun other => other ∉ seen).filter fun other => !other == addr) =
      candidates.filter fun other => other ∉ insert addr seen := by
    rw [List.filter_filter]
    refine List.filter_congr fun other _ => ?_
    by_cases hself : other = addr <;> simp [hself]
  simp only [fresh, List.filter_cons, hnew, not_false_eq_true, decide_true, if_true, eraseDups_cons, hfilter]

lemma fresh_empty : fresh ∅ candidates = candidates.eraseDups := by simp [fresh]

lemma choose_sound (maxNodes : ℕ) (candidates : List SocketAddr)
    {states : FiniteMap SocketAddr BootstrapSourceState} (hsound : c.Sound states now) :
    (choose maxNodes now candidates c).1.Sound states now := by
  induction candidates generalizing c with
  | nil => exact hsound
  | cons addr candidates ih =>
    by_cases hseen : addr ∈ c.seen
    · rw [choose_seen hseen]
      exact ih hsound
    · cases hstate : backoffEnd states now addr with
      | some ends =>
        rw [choose_postpone hseen ((hsound.backoffEnd addr).trans hstate)]
        exact ih (hsound.postpone hstate)
      | none =>
        rw [choose_accept hseen ((hsound.backoffEnd addr).trans hstate)]
        split_ifs
        · exact hsound.accept hstate
        · exact ih (hsound.accept hstate)

lemma choose_spec (candidates : List SocketAddr) {states : FiniteMap SocketAddr BootstrapSourceState}
    (hsound : c.Sound states now) (hroom : c.selected.length < maxNodes) :
    let result := choose maxNodes now candidates c
    result.1.selected = c.selected ++
        ((fresh c.seen candidates).filter (ready states now)).take (maxNodes - c.selected.length) ∧
      (result.2 = true → result.1.selected.length = maxNodes) ∧
      (result.2 = false → result.1.seen = c.seen ∪ candidates.toFinset) := by
  induction candidates generalizing c with
  | nil => simp [choose, fresh]
  | cons addr candidates ih =>
    by_cases hseen : addr ∈ c.seen
    · have hsame : c.seen ∪ (addr :: candidates).toFinset = c.seen ∪ candidates.toFinset := by
        simp [union_insert, hseen]
      rw [choose_seen hseen, fresh_seen hseen, hsame]
      exact ih hsound hroom
    · have hmore : c.seen ∪ (addr :: candidates).toFinset = insert addr c.seen ∪ candidates.toFinset := by
        simp [union_insert]
      rw [fresh_new hseen, hmore]
      cases hstate : backoffEnd states now addr with
      | some ends =>
        rw [choose_postpone hseen ((hsound.backoffEnd addr).trans hstate),
          List.filter_cons_of_neg (by simp [ready, hstate])]
        exact ih (hsound.postpone hstate) hroom
      | none =>
        rw [choose_accept hseen ((hsound.backoffEnd addr).trans hstate),
          List.filter_cons_of_pos (by simp [ready, hstate])]
        have hlen : (c.accept addr).selected.length = c.selected.length + 1 := by simp [Choice.accept]
        split_ifs with hfull
        · have hone : maxNodes - c.selected.length = 1 := by omega
          have hlimit : (c.accept addr).selected.length = maxNodes := by omega
          refine ⟨?_, fun _ => hlimit, fun hcut => absurd hcut (by simp)⟩
          rw [hone, take_succ_cons, take_zero]
          rfl
        · obtain ⟨hselected, hcut, hall⟩ := ih (hsound.accept hstate) (by omega)
          refine ⟨?_, hcut, hall⟩
          have hleft : maxNodes - c.selected.length = maxNodes - (c.selected.length + 1) + 1 := by omega
          rw [hselected, hlen, hleft, take_succ_cons]
          exact append_assoc c.selected [addr] _

end Loop

lemma start_sound (pool : BootstrapSourcePool) (now : Instant) :
    (⟨pool.states, [], ∅, none⟩ : Choice).Sound pool.states now :=
  ⟨fun _ => rfl, fun _ hmem => absurd hmem (notMem_empty _)⟩

lemma selection_states (pool : BootstrapSourcePool) (candidates : List SocketAddr) (maxNodes : ℕ) (now : Instant) :
    (pool.selection candidates maxNodes now).1 =
      { pool with states := (choose maxNodes now candidates ⟨pool.states, [], ∅, none⟩).1.states } := by
  simp only [selection]
  split_ifs
  · rfl
  · split <;> rfl
  · rfl

lemma stateOf_selection (pool : BootstrapSourcePool) (candidates : List SocketAddr) (maxNodes : ℕ) (now : Instant)
    (addr : SocketAddr) :
    stateOf (pool.selection candidates maxNodes now).1.states addr = stateOf pool.states addr := by
  rw [selection_states]
  exact (choose_sound maxNodes candidates (start_sound pool now)).reads addr

lemma selection_chosen (pool : BootstrapSourcePool) (candidates : List SocketAddr) {maxNodes : ℕ}
    (hmax : 1 ≤ maxNodes) (now : Instant) {c : Choice} {complete : Bool}
    (hchoice : choose maxNodes now candidates ⟨pool.states, [], ∅, none⟩ = (c, complete)) :
    (pool.selection candidates maxNodes now).2 =
      if complete = false ∧ c.selected = [] then (c.earliestBackoff.map Prod.fst).toList else c.selected := by
  have hpos : maxNodes > 0 := hmax
  cases complete with
  | true => simp [selection, hchoice]
  | false =>
    by_cases hempty : c.selected = []
    · cases hkept : c.earliestBackoff <;> simp [selection, hchoice, hempty, hpos, hkept]
    · simp [selection, hchoice, hempty]

lemma selection_ready (pool : BootstrapSourcePool) (candidates : List SocketAddr) {maxNodes : ℕ} (hmax : 1 ≤ maxNodes)
    (now : Instant) (hsome : candidates.eraseDups.filter (ready pool.states now) ≠ []) :
    (pool.selection candidates maxNodes now).2 =
      (candidates.eraseDups.filter (ready pool.states now)).take maxNodes := by
  obtain ⟨hselected, -, -⟩ := choose_spec candidates (start_sound pool now) hmax
  rw [fresh_empty, nil_append] at hselected
  have hlimit : maxNodes - ([] : List SocketAddr).length ≠ 0 := by
    simp only [length_nil]
    omega
  have hne : (choose maxNodes now candidates ⟨pool.states, [], ∅, none⟩).1.selected ≠ [] := by
    rw [hselected]
    exact fun hnil => (take_eq_nil_iff.mp hnil).elim hlimit hsome
  rw [selection_chosen pool candidates hmax now rfl, if_neg fun hempty => hne hempty.2, hselected]
  rfl

lemma selection_backoff (pool : BootstrapSourcePool) {candidates : List SocketAddr} {maxNodes : ℕ}
    (hmax : 1 ≤ maxNodes) {now : Instant} (hnone : candidates.eraseDups.filter (ready pool.states now) = [])
    (hcandidates : candidates ≠ []) :
    ∃ addr ∈ candidates, ∃ ends, (pool.selection candidates maxNodes now).2 = [addr] ∧
      backoffEnd pool.states now addr = some ends ∧
      ∀ other ∈ candidates, ∃ later, backoffEnd pool.states now other = some later ∧ ends ≤ later := by
  have hbacking : ∀ addr ∈ candidates, ∃ ends, backoffEnd pool.states now addr = some ends := by
    intro addr hmem
    have hnot := filter_eq_nil_iff.mp hnone addr (mem_eraseDups.mpr hmem)
    exact Option.ne_none_iff_exists'.mp (by simpa [ready] using hnot)
  obtain ⟨hselected, hcut, hseen⟩ := choose_spec candidates (start_sound pool now) hmax
  have hearliest := (choose_sound maxNodes candidates (start_sound pool now)).earliest
  have hchosen := selection_chosen pool candidates hmax now rfl
  generalize choose maxNodes now candidates ⟨pool.states, [], ∅, none⟩ = result at *
  obtain ⟨c, complete⟩ := result
  rw [fresh_empty, hnone, take_nil, append_nil] at hselected
  have hwhole : complete = false := by
    by_contra hcomplete
    have hlen := hcut (by simpa using hcomplete)
    rw [hselected, length_nil] at hlen
    omega
  have hall : c.seen = candidates.toFinset := by
    rw [hseen hwhole, empty_union]
  rw [if_pos ⟨hwhole, hselected⟩] at hchosen
  simp only [hall] at hearliest
  cases hkept : c.earliestBackoff with
  | none =>
    rw [hkept] at hearliest
    obtain ⟨addr, hmem⟩ := exists_mem_of_ne_nil candidates hcandidates
    obtain ⟨ends, hends⟩ := hbacking addr hmem
    exact absurd ((hearliest addr (mem_toFinset.mpr hmem)).symm.trans hends) (by simp)
  | some kept =>
    rw [hkept] at hearliest hchosen
    obtain ⟨hmem, hends, hleast⟩ := hearliest
    refine ⟨kept.1, mem_toFinset.mp hmem, kept.2, hchosen, hends, fun other hother => ?_⟩
    obtain ⟨later, hlater⟩ := hbacking other hother
    exact ⟨later, hlater, hleast other (mem_toFinset.mpr hother) later hlater⟩

lemma selection_nil (pool : BootstrapSourcePool) (maxNodes : ℕ) (now : Instant) :
    (pool.selection [] maxNodes now).2 = [] := by
  simp [selection, choose]

lemma selection_bounds (pool : BootstrapSourcePool) (candidates : List SocketAddr) {maxNodes : ℕ}
    (hmax : 1 ≤ maxNodes) (now : Instant) :
    (pool.selection candidates maxNodes now).2.Nodup ∧ (pool.selection candidates maxNodes now).2 ⊆ candidates ∧
      (pool.selection candidates maxNodes now).2.length ≤ maxNodes := by
  by_cases hcandidates : candidates = []
  · subst hcandidates
    simp [selection_nil]
  · by_cases hnone : candidates.eraseDups.filter (ready pool.states now) = []
    · obtain ⟨addr, hmem, ends, hchosen, -⟩ := selection_backoff pool hmax hnone hcandidates
      rw [hchosen]
      exact ⟨nodup_singleton addr, by simpa using hmem, by simpa using hmax⟩
    · rw [selection_ready pool candidates hmax now hnone]
      refine ⟨((nodup_eraseDups candidates).filter _).sublist (take_sublist _ _), ?_, length_take_le _ _⟩
      intro addr hmem
      exact mem_eraseDups.mp (List.mem_of_mem_filter (mem_of_mem_take hmem))

/-! ### The vector -/

lemma select_eq (pool : BootstrapSourcePool) (candidates : List SocketAddr) {maxNodes : ℕ}
    (hfits : maxNodes * 32 ≤ isizeMax) (now : Instant) :
    pool.select candidates maxNodes now = .ok (pool.selection candidates maxNodes now) := by
  unfold select reserveAddrs
  rw [if_neg hfits.not_gt]
  rfl

lemma select_panics (pool : BootstrapSourcePool) (candidates : List SocketAddr) {maxNodes : ℕ}
    (hlarge : isizeMax < maxNodes * 32) (now : Instant) :
    pool.select candidates maxNodes now = .error .capacityOverflow := by
  unfold select reserveAddrs
  rw [if_pos hlarge]
  rfl

lemma select_safe (pool : BootstrapSourcePool) (candidates : List SocketAddr) (maxNodes : ℕ) (now : Instant) :
    Except.Safe (· = .capacityOverflow) (pool.select candidates maxNodes now)
      (· = pool.selection candidates maxNodes now) := by
  rcases le_or_gt (maxNodes * 32) isizeMax with hfits | hlarge
  · rw [select_eq pool candidates hfits]
    rfl
  · rw [select_panics pool candidates hlarge]
    rfl

/-! ### Histories -/

inductive SourceCall where
  | attempt (addr : SocketAddr) (now : Instant)
  | success (addr : SocketAddr) (now : Instant)
  | timeout (addr : SocketAddr) (now : Instant)
  | select (candidates : List SocketAddr) (maxNodes : ℕ) (now : Instant)

def call (pool : BootstrapSourcePool) : SourceCall → Except Panic BootstrapSourcePool
  | .attempt addr now => .ok (pool.markAttempt addr now)
  | .success addr now => .ok (pool.markSuccess addr now)
  | .timeout addr now => .ok (pool.markTimeout addr now)
  | .select candidates maxNodes now => do
    let (pool, _) ← pool.select candidates maxNodes now
    .ok pool

/-- The pool after a history, the latest call first; there is none after a call that panicked. -/
def after (hosts : List String) (backoffBase backoffMax : Duration) :
    List SourceCall → Except Panic BootstrapSourcePool
  | [] => .ok (new hosts backoffBase backoffMax)
  | latest :: earlier => do
    let pool ← after hosts backoffBase backoffMax earlier
    pool.call latest

/-- The timeouts of an address since its last success, the latest first. -/
def timeoutsOf (addr : SocketAddr) : List SourceCall → List Instant
  | [] => []
  | .timeout other now :: earlier =>
    if addr = other then now :: timeoutsOf addr earlier else timeoutsOf addr earlier
  | .success other _ :: earlier => if addr = other then [] else timeoutsOf addr earlier
  | .attempt _ _ :: earlier => timeoutsOf addr earlier
  | .select _ _ _ :: earlier => timeoutsOf addr earlier

def backoffAfter (backoffBase backoffMax : Duration) (timeouts : List Instant) : Option Instant :=
  timeouts.head?.map fun latest => latest + min (backoffBase * 2 ^ min (timeouts.length - 1) 16) backoffMax

/-- The state of an address reflects its timeouts since the last success. -/
structure Counts (backoffBase backoffMax : Duration) (timeouts : List Instant) (state : BootstrapSourceState) :
    Prop where
  failCount : state.failCount = min timeouts.length (2 ^ 32 - 1)
  backoffUntil : state.backoffUntil = backoffAfter backoffBase backoffMax timeouts

/-- A pool that reflects a history. -/
structure Reflects (backoffBase backoffMax : Duration) (history : List SourceCall) (pool : BootstrapSourcePool) :
    Prop where
  base : pool.backoffBase = backoffBase
  max : pool.backoffMax = backoffMax
  counts : ∀ addr, Counts backoffBase backoffMax (timeoutsOf addr history) (stateOf pool.states addr)

section Histories

variable {backoffBase backoffMax : Duration} {history : List SourceCall} {pool : BootstrapSourcePool}

lemma Reflects.attempt (h : Reflects backoffBase backoffMax history pool) (addr : SocketAddr) (now : Instant) :
    Reflects backoffBase backoffMax (.attempt addr now :: history) (pool.markAttempt addr now) := by
  refine ⟨h.base, h.max, fun other => ?_⟩
  simp only [markAttempt, stateOf_setState, timeoutsOf]
  split_ifs with hself
  · subst hself
    exact ⟨(h.counts other).failCount, (h.counts other).backoffUntil⟩
  · exact h.counts other

lemma Reflects.success (h : Reflects backoffBase backoffMax history pool) (addr : SocketAddr) (now : Instant) :
    Reflects backoffBase backoffMax (.success addr now :: history) (pool.markSuccess addr now) := by
  refine ⟨h.base, h.max, fun other => ?_⟩
  simp only [markSuccess, stateOf_setState, timeoutsOf]
  split_ifs
  · exact ⟨rfl, rfl⟩
  · exact h.counts other

lemma Reflects.timeout (h : Reflects backoffBase backoffMax history pool) (addr : SocketAddr) (now : Instant) :
    Reflects backoffBase backoffMax (.timeout addr now :: history) (pool.markTimeout addr now) := by
  refine ⟨h.base, h.max, fun other => ?_⟩
  simp only [markTimeout, stateOf_setState, timeoutsOf, h.base, h.max]
  split_ifs with hself
  · subst hself
    have hcount := (h.counts other).failCount
    refine ⟨?_, ?_⟩
    · simp only [length_cons]
      omega
    · have hexponent : min (min ((stateOf pool.states other).failCount + 1) (2 ^ 32 - 1) - 1) 16 =
          min (timeoutsOf other history).length 16 := by omega
      simp only [hexponent]
      simp [backoffAfter]
  · exact h.counts other

lemma Reflects.select (h : Reflects backoffBase backoffMax history pool) (candidates : List SocketAddr)
    (maxNodes : ℕ) (now : Instant) :
    Reflects backoffBase backoffMax (.select candidates maxNodes now :: history)
      (pool.selection candidates maxNodes now).1 := by
  refine ⟨?_, ?_, fun addr => ?_⟩
  · rw [selection_states]
    exact h.base
  · rw [selection_states]
    exact h.max
  · rw [stateOf_selection]
    exact h.counts addr

lemma after_reflects (hosts : List String) (backoffBase backoffMax : Duration) (history : List SourceCall) :
    Except.Safe (· = .capacityOverflow) (after hosts backoffBase backoffMax history)
      (Reflects backoffBase backoffMax history) := by
  induction history with
  | nil => exact ⟨rfl, rfl, fun _ => ⟨rfl, rfl⟩⟩
  | cons latest earlier ih =>
    refine ih.bind fun pool h => ?_
    cases latest with
    | attempt addr now => exact h.attempt addr now
    | success addr now => exact h.success addr now
    | timeout addr now => exact h.timeout addr now
    | select candidates maxNodes now =>
      refine (select_safe pool candidates maxNodes now).bind fun x hx => ?_
      subst hx
      exact h.select candidates maxNodes now

end Histories

/-- **Selection after any history.** A limit whose vector of addresses would exceed `isize::MAX` bytes panics.
Under every other limit the selection holds distinct candidates within the limit: the first ready candidates if
one is ready, and else the one whose backoff ends first. The backoff of an address is the one its timeouts since
its last success impose. -/
theorem select_after_history (hosts : List String) (backoffBase backoffMax : Duration) (history : List SourceCall)
    {pool : BootstrapSourcePool} (hpool : after hosts backoffBase backoffMax history = .ok pool)
    (candidates : List SocketAddr) (maxNodes : ℕ) (hmax : 1 ≤ maxNodes) (now : Instant) :
    let available := candidates.eraseDups.filter (ready pool.states now)
    (isizeMax < maxNodes * 32 → pool.select candidates maxNodes now = .error .capacityOverflow) ∧
      (maxNodes * 32 ≤ isizeMax → ∃ pool' chosen, pool.select candidates maxNodes now = .ok (pool', chosen) ∧
        (chosen.Nodup ∧ chosen ⊆ candidates ∧ chosen.length ≤ maxNodes) ∧
        (available ≠ [] → chosen = available.take (min maxNodes available.length)) ∧
        (available = [] → candidates ≠ [] →
          ∃ addr ∈ candidates, ∃ ends, chosen = [addr] ∧ (stateOf pool.states addr).backoffUntil = some ends ∧
            ∀ other ∈ candidates, ∃ later, (stateOf pool.states other).backoffUntil = some later ∧
              ends ≤ later) ∧
        (candidates = [] → chosen = [])) ∧
      ∀ addr, (stateOf pool.states addr).backoffUntil = (timeoutsOf addr history).head?.map fun latest =>
          latest + min (backoffBase * 2 ^ min ((timeoutsOf addr history).length - 1) 16) backoffMax := by
  intro available
  have huntil {addr : SocketAddr} {ends : Instant} (hends : backoffEnd pool.states now addr = some ends) :
      (stateOf pool.states addr).backoffUntil = some ends := (Option.filter_eq_some_iff.mp hends).1
  have hreflects := (after_reflects hosts backoffBase backoffMax history).of_ok hpool
  refine ⟨fun hlarge => select_panics pool candidates hlarge now, fun hfits => ?_,
    fun addr => (hreflects.counts addr).backoffUntil⟩
  refine ⟨_, _, select_eq pool candidates hfits now, selection_bounds pool candidates hmax now,
    fun hsome => ?_, fun hnone hcandidates => ?_, ?_⟩
  · rw [← List.take_eq_take_min]
    exact selection_ready pool candidates hmax now hsome
  · obtain ⟨addr, hmem, ends, hchosen, hends, hleast⟩ := selection_backoff pool hmax hnone hcandidates
    refine ⟨addr, hmem, ends, hchosen, huntil hends, fun other hother => ?_⟩
    obtain ⟨later, hlater, hle⟩ := hleast other hother
    exact ⟨later, huntil hlater, hle⟩
  · rintro rfl
    exact selection_nil pool maxNodes now

theorem select_after_history_two_timeouts :
    let late : SocketAddr := .v4 #v[1, 1, 1, 1] 1
    let candidates : List SocketAddr := [late, .v4 #v[2, 2, 2, 2] 2, late, .v4 #v[3, 3, 3, 3] 3]
    ∃ pool, after [] 10 100 [.timeout late 30, .attempt late 20, .timeout late 5, .success late 3] = .ok pool ∧
      (stateOf pool.states late).backoffUntil = some 50 ∧
      ∃ pool', pool.select candidates 2 40 = .ok (pool', [.v4 #v[2, 2, 2, 2] 2, .v4 #v[3, 3, 3, 3] 3]) := by
  intro late candidates
  refine ⟨_, rfl, ?_⟩
  obtain ⟨-, hfits, hbackoff⟩ := select_after_history [] 10 100
    [.timeout late 30, .attempt late 20, .timeout late 5, .success late 3] rfl candidates 2 (by decide) 40
  obtain ⟨pool', chosen, hselect, -, hready, -⟩ := hfits (by decide)
  have hchosen := (hready (by decide)).trans (by decide :
    _ = [SocketAddr.v4 #v[2, 2, 2, 2] 2, SocketAddr.v4 #v[3, 3, 3, 3] 3])
  subst hchosen
  exact ⟨(hbackoff late).trans (by decide), pool', hselect⟩

/-- A limit of `usize::MAX`, which the options accept, panics before the first candidate is looked at. -/
theorem select_capacity_overflow :
    ∃ pool, after [] (secs 300) (secs 3600) [] = .ok pool ∧
      pool.select [.v4 #v[1, 1, 1, 1] 1] usizeMax 0 = .error .capacityOverflow :=
  ⟨_, rfl, rfl⟩

end BootstrapSourcePool

end DhtCrawler
