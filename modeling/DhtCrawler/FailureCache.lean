import DhtCrawler.FailureModel
import DhtCrawler.LibExpiry

/-! What the cache of failed peers answers over a run of calls whose clock never goes back: the last word on a
key that is neither too old nor pushed out since. -/

namespace DhtCrawler.PeerFailureCache

open List Bool FiniteMap Expiry

abbrev Entries := FiniteMap PeerFailureKey PeerFailureEntry

abbrev Records := List (Instant × PeerFailureKey)

lemma isCurrent_iff {entries : Entries} {record : Instant × PeerFailureKey} :
    isCurrent entries record = true ↔
      ∃ entry, entries.get record.2 = some entry ∧ entry.expiresAt = record.1 := by
  simp [isCurrent, Option.any_eq_true]

def Matched (entries : Entries) (expiry : Records) : Prop :=
  ∀ key entry, entries.get key = some entry → (entry.expiresAt, key) ∈ expiry

section Queue

variable {entries : Entries} {record : Instant × PeerFailureKey} {rest : Records}

lemma Matched.front_le (h : Matched entries (record :: rest)) (ho : Sorted (record :: rest))
    {key : PeerFailureKey} {entry : PeerFailureEntry} (hget : entries.get key = some entry) :
    record.1 ≤ entry.expiresAt := by
  rcases mem_cons.mp (h key entry hget) with heq | hmem
  · rw [← heq]
  · exact (pairwise_cons.mp ho).1 _ hmem

lemma Matched.pop_current (h : Matched entries (record :: rest)) : Matched (entries.erase record.2) rest := by
  intro key entry hget
  obtain ⟨hne, hget⟩ := get_of_get_erase hget
  rcases mem_cons.mp (h key entry hget) with heq | hmem
  · exact absurd (congrArg Prod.snd heq) hne
  · exact hmem

lemma Matched.pop_stale (h : Matched entries (record :: rest)) (hstale : isCurrent entries record = false) :
    Matched entries rest := by
  intro key entry hget
  rcases mem_cons.mp (h key entry hget) with heq | hmem
  · rw [← heq, eq_false_iff, Ne, isCurrent_iff] at hstale
    exact absurd ⟨entry, hget, rfl⟩ hstale
  · exact hmem

end Queue

/-! ### Expired entries -/

/-- The entries that have expired go, and with them the records that are over. -/
def swept (now : Instant) (entries : Entries) (expiry : Records) : Entries × Records :=
  sweep (fun record entry => entry.expiresAt = record.1) now entries expiry

lemma expireFrom_eq (now : Instant) (entries : Entries) (expiry : Records) :
    expireFrom now entries expiry = ⟨(swept now entries expiry).1, (swept now entries expiry).2⟩ := by
  induction expiry generalizing entries with
  | nil => rfl
  | cons record rest ih =>
    unfold expireFrom swept sweep
    by_cases hlate : record.1 > now
    · rw [if_pos hlate, if_neg (not_le.mpr hlate)]
    · rw [if_neg hlate, if_pos (not_lt.mp hlate), ih, ih]
      unfold isCurrent
      split_ifs <;> rfl

lemma get_expireFrom {now : Instant} {entries : Entries} {expiry : Records} (hm : Matched entries expiry)
    (ho : Sorted expiry) {key : PeerFailureKey} {entry : PeerFailureEntry} :
    (expireFrom now entries expiry).entries.get key = some entry ↔
      entries.get key = some entry ∧ now < entry.expiresAt := by
  rw [expireFrom_eq]
  refine (sweep_get entries ho).trans (and_congr_right fun hget =>
    ⟨fun hall => not_le.mp fun hle => ?_, fun hlive record _ _ hle => ?_⟩)
  · simpa using hall _ (hm key entry hget) rfl hle
  · exact decide_eq_false fun heq => absurd (heq ▸ hle) (not_le.mpr hlive)

/-! ### Room for a new key -/

/-- The loop leaves the entries as they are, or the key is new, the cache is full and one entry goes that no
other is due before. -/
inductive Evicts (capacity : ℕ) (key : PeerFailureKey) (entries : Entries) :
    Entries → List PeerFailureKey → Prop where
  | nothing (hroom : entries.contains key = true ∨ entries.len < capacity) :
      Evicts capacity key entries entries []
  | oldest (old : PeerFailureKey) (entry : PeerFailureEntry) (habsent : entries.get key = none)
      (hfull : entries.len = capacity) (hget : entries.get old = some entry)
      (hleast : ∀ other e, entries.get other = some e → entry.expiresAt ≤ e.expiresAt) :
      Evicts capacity key entries (entries.erase old) [old]

section Room

variable {capacity : ℕ} {entries : Entries} {expiry : Records}

variable {key : PeerFailureKey}

lemma makeRoom_of_room (h : ¬ (entries.len ≥ capacity ∧ entries.contains key = false)) :
    makeRoom capacity key entries expiry = (⟨entries, expiry⟩, []) := by
  cases expiry with
  | nil => rfl
  | cons record rest => rw [makeRoom, if_neg h]

lemma evicts_makeRoom (key : PeerFailureKey) (hpos : 1 ≤ capacity) (hlen : entries.len ≤ capacity)
    (hm : Matched entries expiry) (ho : Sorted expiry) :
    Evicts capacity key entries (makeRoom capacity key entries expiry).1.entries
      (makeRoom capacity key entries expiry).2 := by
  induction expiry with
  | nil =>
    -- a queue without records belongs to a cache without entries
    have hempty : entries.len = 0 := len_eq_zero.mpr fun k => by
      cases hget : entries.get k with
      | none => rfl
      | some entry => exact absurd (hm k entry hget) not_mem_nil
    exact .nothing (Or.inr (by omega))
  | cons record rest ih =>
    by_cases hfull : entries.len ≥ capacity ∧ entries.contains key = false
    · cases hcurrent : isCurrent entries record with
      | true =>
        obtain ⟨entry, hget, hexpires⟩ := isCurrent_iff.mp hcurrent
        have hlen' : (entries.erase record.2).len < capacity := by
          have := len_erase_old hget
          omega
        have hstop : makeRoom capacity key (entries.erase record.2) rest =
            (⟨entries.erase record.2, rest⟩, []) :=
          makeRoom_of_room fun h => absurd h.1 (not_le.mpr hlen')
        rw [makeRoom, if_pos hfull, if_pos hcurrent, hstop]
        have habsent : entries.get key = none := contains_eq_false.mp hfull.2
        refine .oldest record.2 entry habsent (le_antisymm hlen hfull.1) hget ?_
        intro other e hother
        rw [hexpires]
        exact hm.front_le ho hother
      | false =>
        rw [makeRoom, if_pos hfull, if_neg (by rw [hcurrent]; decide)]
        exact ih (hm.pop_stale hcurrent) (pairwise_cons.mp ho).2
    · rw [makeRoom_of_room hfull]
      refine .nothing ?_
      by_cases hc : entries.contains key = true
      · exact Or.inl hc
      · exact Or.inr (not_le.mp fun hle => hfull ⟨hle, eq_false_iff.mpr hc⟩)

lemma matched_makeRoom (key : PeerFailureKey) (hm : Matched entries expiry) :
    Matched (makeRoom capacity key entries expiry).1.entries
      (makeRoom capacity key entries expiry).1.expiry := by
  induction expiry generalizing entries with
  | nil => exact hm
  | cons record rest ih =>
    unfold makeRoom
    split_ifs with hfull hcurrent
    · exact ih (hm.pop_current)
    · exact ih (hm.pop_stale (eq_false_iff.mpr hcurrent))
    · exact hm

lemma makeRoom_suffix (capacity : ℕ) (key : PeerFailureKey) (entries : Entries) (expiry : Records) :
    (makeRoom capacity key entries expiry).1.expiry <:+ expiry := by
  induction expiry generalizing entries with
  | nil => exact suffix_rfl
  | cons record rest ih =>
    unfold makeRoom
    split_ifs with hfull hcurrent
    · exact (ih _).trans (suffix_cons _ _)
    · exact (ih _).trans (suffix_cons _ _)
    · exact suffix_rfl

lemma Evicts.get {entries' : Entries} {evicted : List PeerFailureKey}
    (h : Evicts capacity key entries entries' evicted) (other : PeerFailureKey) :
    entries'.get other = if other ∈ evicted then none else entries.get other := by
  cases h with
  | nothing => rw [if_neg not_mem_nil]
  | oldest old => rw [get_erase]; simp only [mem_singleton]

lemma Evicts.len_insert {entries' : Entries} {evicted : List PeerFailureKey}
    (h : Evicts capacity key entries entries' evicted) (hlen : entries.len ≤ capacity)
    (entry : PeerFailureEntry) : (entries'.insert key entry).len ≤ capacity := by
  cases h with
  | nothing hroom =>
    rcases hroom with hold | hlt
    · obtain ⟨w, hw⟩ := contains_iff.mp hold
      rw [len_insert_old hw]
      exact hlen
    · exact (len_insert_le _ _ _).trans hlt
  | oldest old e habsent hfull hget =>
    have hinsert := len_insert_le (entries.erase old) key entry
    have herase := len_erase_old hget
    omega

end Room

/-! ### Runs -/

inductive Word where
  | inserted (key : PeerFailureKey) (reason : PeerFailureReason)
  | removed (key : PeerFailureKey)
  | evicted (key : PeerFailureKey)

def Word.key : Word → PeerFailureKey
  | inserted key _ => key
  | removed key => key
  | evicted key => key

def lastWord (log : List (Instant × Word)) (key : PeerFailureKey) : Option (Instant × Word) :=
  log.find? fun word => word.2.key = key

lemma lastWord_cons (word : Instant × Word) (log : List (Instant × Word)) (key : PeerFailureKey) :
    lastWord (word :: log) key = if key = word.2.key then some word else lastWord log key := by
  rw [lastWord, List.find?_cons]
  split_ifs with hkey
  · rw [decide_eq_true hkey.symm]
  · rw [decide_eq_false fun h => hkey h.symm]
    rfl

/-- The caches that calls with a clock that never goes back lead to, with what was said of the keys. -/
inductive Reached (capacity : ℕ) (ttl : Duration) :
    Instant → PeerFailureCache → List (Instant × Word) → Prop where
  | start (now : Instant) : Reached capacity ttl now (.new capacity ttl) []
  | get {t now cache log} (key : PeerFailureKey)
      (h : Reached capacity ttl t cache log) (hle : t ≤ now) :
      Reached capacity ttl now (cache.get key now).1 log
  | insert {t now cache log} (key : PeerFailureKey)
      (reason : PeerFailureReason) (h : Reached capacity ttl t cache log) (hle : t ≤ now) :
      Reached capacity ttl now (cache.insert key reason now).1
        ((now, .inserted key reason) :: ((cache.room key now).2.map fun old => (now, .evicted old)) ++ log)
  | remove {t now cache log} (key : PeerFailureKey)
      (h : Reached capacity ttl t cache log) (hle : t ≤ now) :
      Reached capacity ttl now (cache.remove key now).1 ((now, .removed key) :: log)

structure Inv (capacity : ℕ) (ttl : Duration) (now : Instant) (cache : PeerFailureCache)
    (log : List (Instant × Word)) : Prop where
  capacity_eq : cache.capacity = capacity
  ttl_eq : cache.ttl = ttl
  len_le : cache.inner.entries.len ≤ capacity
  matched : Matched cache.inner.entries cache.inner.expiry
  ordered : Sorted cache.inner.expiry
  record_le : ∀ record ∈ cache.inner.expiry, record.1 ≤ now + ttl
  inserted : ∀ key entry, cache.inner.entries.get key = some entry →
    ∃ s, lastWord log key = some (s, .inserted key entry.reason) ∧ entry.expiresAt = s + ttl
  held : ∀ key s reason, lastWord log key = some (s, .inserted key reason) → now < s + ttl →
    cache.inner.entries.get key = some ⟨s + ttl, reason⟩

section Run

variable {capacity : ℕ} {ttl : Duration} {t now : Instant} {cache : PeerFailureCache}
  {log : List (Instant × Word)}

lemma inv_new (capacity : ℕ) (ttl : Duration) (now : Instant) :
    Inv capacity ttl now (.new capacity ttl) [] where
  capacity_eq := rfl
  ttl_eq := rfl
  len_le := by rw [new, len_empty]; exact Nat.zero_le _
  matched _ _ h := nomatch h
  ordered := List.Pairwise.nil
  record_le _ h := nomatch h
  inserted _ _ h := nomatch h
  held _ _ _ h := nomatch h

def expired (cache : PeerFailureCache) (now : Instant) : PeerFailureCache :=
  { cache with inner := expire cache.inner now }

section

variable (h : Inv capacity ttl t cache log)
include h

lemma Inv.get_expired (now : Instant) (key : PeerFailureKey) :
    (cache.expired now).inner.entries.get key =
      (cache.inner.entries.get key).filter fun entry => now < entry.expiresAt := by
  refine Option.ext fun entry => ?_
  rw [Option.filter_eq_some_iff, decide_eq_true_iff]
  exact get_expireFrom h.matched h.ordered

lemma Inv.mem_expired {record : Instant × PeerFailureKey} :
    record ∈ (cache.expired now).inner.expiry ↔ record ∈ cache.inner.expiry ∧ now < record.1 := by
  unfold PeerFailureCache.expired expire
  rw [expireFrom_eq]
  exact mem_sweep_queue _ h.ordered

lemma Inv.expired (hle : t ≤ now) :
    Inv capacity ttl now (cache.expired now) log where
  capacity_eq := h.capacity_eq
  ttl_eq := h.ttl_eq
  len_le := by
    unfold PeerFailureCache.expired expire
    rw [expireFrom_eq]
    exact (sweep_len_le _ h.ordered).trans h.len_le
  matched key entry hget := by
    obtain ⟨hget, hlive⟩ := (get_expireFrom h.matched h.ordered).mp hget
    exact h.mem_expired.mpr ⟨h.matched key entry hget, hlive⟩
  ordered := by
    unfold PeerFailureCache.expired expire
    rw [expireFrom_eq, swept, sweep_queue _ h.ordered]
    exact h.ordered.sublist filter_sublist
  record_le record hmem := (h.record_le record (h.mem_expired.mp hmem).1).trans (Nat.add_le_add_right hle ttl)
  inserted key entry hget := h.inserted key entry ((get_expireFrom h.matched h.ordered).mp hget).1
  held key s reason hword hlive := (get_expireFrom h.matched h.ordered).mpr
    ⟨h.held key s reason hword (lt_of_le_of_lt hle hlive), hlive⟩

lemma Inv.off_eq_false (hpos : 1 ≤ capacity) (httl : 0 < ttl) : cache.off = false := by
  rw [off, h.capacity_eq, h.ttl_eq, or_eq_false_iff, decide_eq_false_iff_not, decide_eq_false_iff_not]
  exact ⟨Nat.one_le_iff_ne_zero.mp hpos, httl.ne'⟩

lemma Inv.evicts_room (hpos : 1 ≤ capacity) (hle : t ≤ now) (key : PeerFailureKey) :
    Evicts capacity key (cache.expired now).inner.entries (cache.room key now).1.entries
      (cache.room key now).2 := by
  have hexpired := h.expired hle
  have hroom := evicts_makeRoom key hpos hexpired.len_le hexpired.matched hexpired.ordered
  rw [← h.capacity_eq] at hroom ⊢
  exact hroom

end

lemma lastWord_inserted (log : List (Instant × Word)) (key : PeerFailureKey) (reason : PeerFailureReason)
    (now : Instant) (evicted : List PeerFailureKey) (other : PeerFailureKey) :
    lastWord ((now, .inserted key reason) :: (evicted.map fun old => (now, .evicted old)) ++ log) other =
      if other = key then some (now, .inserted key reason)
      else if other ∈ evicted then some (now, .evicted other) else lastWord log other := by
  rw [cons_append, lastWord_cons]
  refine if_congr Iff.rfl rfl ?_
  induction evicted with
  | nil => rw [if_neg not_mem_nil]; rfl
  | cons old rest ih =>
    rw [map_cons, cons_append, lastWord_cons, ih]
    by_cases hold : other = old
    · rw [if_pos (show other = Word.key (.evicted old) from hold), if_pos (hold ▸ mem_cons_self), hold]
    · rw [if_neg (show ¬ other = Word.key (.evicted old) from hold)]
      exact if_congr (by simp [hold]) rfl rfl

lemma Inv.insert (h : Inv capacity ttl t cache log) (hpos : 1 ≤ capacity) (httl : 0 < ttl) (hle : t ≤ now)
    (key : PeerFailureKey) (reason : PeerFailureReason) :
    Inv capacity ttl now (cache.insert key reason now).1
      ((now, .inserted key reason) :: ((cache.room key now).2.map fun old => (now, .evicted old)) ++ log) := by
  have hexpired := h.expired hle
  have hroom := h.evicts_room hpos hle key
  have hmatched : Matched (cache.room key now).1.entries (cache.room key now).1.expiry :=
    matched_makeRoom key hexpired.matched
  have hsuffix : (cache.room key now).1.expiry <:+ (cache.expired now).inner.expiry := makeRoom_suffix _ _ _ _
  rw [PeerFailureCache.insert, if_neg (by rw [h.off_eq_false hpos httl]; decide)]
  exact {
    capacity_eq := h.capacity_eq
    ttl_eq := h.ttl_eq
    len_le := hroom.len_insert hexpired.len_le _
    matched := forall_insert (mem_append_right _ mem_cons_self)
      fun other entry _ hget => mem_append_left _ (hmatched other entry hget)
    ordered := by
      refine Sorted.append (hexpired.ordered.sublist hsuffix.sublist) (fun a ha => ?_) key
      rw [h.ttl_eq]
      exact hexpired.record_le a (hsuffix.mem ha)
    record_le := by
      refine forall_mem_append.mpr ⟨fun record hmem => hexpired.record_le record (hsuffix.mem hmem), ?_⟩
      rw [forall_mem_singleton, h.ttl_eq]
    inserted := by
      intro other entry hget
      rw [get_insert] at hget
      rw [lastWord_inserted]
      split_ifs at hget ⊢ with hkey hevicted
      · rw [← Option.some.inj hget, hkey, h.ttl_eq]
        exact ⟨now, rfl, rfl⟩
      · rw [hroom.get, if_pos hevicted] at hget
        exact nomatch hget
      · rw [hroom.get, if_neg hevicted] at hget
        exact hexpired.inserted other entry hget
    held := by
      intro other s said hword hlive
      rw [lastWord_inserted] at hword
      rw [get_insert]
      split_ifs at hword ⊢ with hkey hevicted
      · cases hword
        rw [h.ttl_eq]
      · cases hword
      · rw [hroom.get, if_neg hevicted]
        exact hexpired.held other s said hword hlive }

lemma Inv.remove (h : Inv capacity ttl t cache log) (hpos : 1 ≤ capacity) (httl : 0 < ttl) (hle : t ≤ now)
    (key : PeerFailureKey) : Inv capacity ttl now (cache.remove key now).1 ((now, .removed key) :: log) := by
  have hexpired := h.expired hle
  rw [PeerFailureCache.remove, if_neg (by rw [h.off_eq_false hpos httl]; decide)]
  exact {
    capacity_eq := h.capacity_eq
    ttl_eq := h.ttl_eq
    len_le := (len_erase_le _ _).trans hexpired.len_le
    matched := fun other entry hget => hexpired.matched other entry (get_of_get_erase hget).2
    ordered := hexpired.ordered
    record_le := hexpired.record_le
    inserted := by
      intro other entry hget
      obtain ⟨hne, hget⟩ := get_of_get_erase hget
      rw [lastWord_cons, if_neg (show ¬ other = Word.key (.removed key) from hne)]
      exact hexpired.inserted other entry hget
    held := by
      intro other s reason hlast hlive
      rw [lastWord_cons] at hlast
      split_ifs at hlast with hkey
      · cases hlast
      · exact (get_erase_ne _ hkey).trans (hexpired.held other s reason hlast hlive) }

lemma Inv.get_eq (h : Inv capacity ttl t cache log) (hpos : 1 ≤ capacity) (httl : 0 < ttl)
    (key : PeerFailureKey) (now : Instant) :
    cache.get key now = (cache.expired now,
      ((cache.expired now).inner.entries.get key).map PeerFailureEntry.reason,
      (cache.expired now).inner.entries.len) := by
  rw [PeerFailureCache.get, if_neg (by rw [h.off_eq_false hpos httl]; decide)]
  rfl

lemma Reached.inv (hpos : 1 ≤ capacity) (httl : 0 < ttl) (h : Reached capacity ttl t cache log) :
    Inv capacity ttl t cache log := by
  induction h with
  | start now => exact inv_new capacity ttl now
  | get key _ hle ih =>
    rw [ih.get_eq hpos httl]
    exact ih.expired hle
  | insert key reason _ hle ih => exact ih.insert hpos httl hle key reason
  | remove key _ hle ih => exact ih.remove hpos httl hle key

/-- A cache is never over its capacity and knows of every entry when it is due. -/
theorem failure_cache_semantics (hpos : 1 ≤ capacity) (httl : 0 < ttl) (h : Reached capacity ttl t cache log)
    (hle : t ≤ now) :
    cache.inner.entries.len ≤ capacity ∧
    (∀ key entry, cache.inner.entries.get key = some entry → (entry.expiresAt, key) ∈ cache.inner.expiry) ∧
    (∀ key reason, (cache.get key now).2.1 = some reason ↔
      ∃ s, lastWord log key = some (s, .inserted key reason) ∧ s + ttl > now) ∧
    (∀ key, Evicts capacity key (cache.expired now).inner.entries (cache.room key now).1.entries
      (cache.room key now).2) ∧
    ∀ key, (cache.expired now).inner.entries.get key =
      (cache.inner.entries.get key).filter fun entry => now < entry.expiresAt := by
  have hinv := h.inv hpos httl
  refine ⟨hinv.len_le, hinv.matched, ?_, hinv.evicts_room hpos hle, hinv.get_expired now⟩
  intro key reason
  rw [hinv.get_eq hpos httl, Option.map_eq_some_iff]
  constructor
  · rintro ⟨entry, hget, rfl⟩
    obtain ⟨hget, hlive⟩ := (get_expireFrom hinv.matched hinv.ordered).mp hget
    obtain ⟨s, hword, hexpires⟩ := hinv.inserted key entry hget
    exact ⟨s, hword, hexpires ▸ hlive⟩
  · rintro ⟨s, hword, hlive⟩
    exact ⟨⟨s + ttl, reason⟩, (hinv.expired hle).held key s reason hword hlive, rfl⟩

theorem failure_cache_semantics_second :
    let first : PeerFailureKey := .endpoint (.v4 #v[198, 51, 100, 1] 6881)
    let second : PeerFailureKey := .endpoint (.v4 #v[198, 51, 100, 2] 6881)
    let cache := (((new 1 10).insert first .timeout 0).1.insert second .connectFailed 4).1
    cache.inner.entries.len ≤ 1 ∧ (cache.get second 13).2.1 = some .connectFailed ∧
      (cache.get second 14).2.1 ≠ some .connectFailed := by
  intro first second cache
  have hstart : Reached 1 10 0 (new 1 10) [] := .start 0
  have hreached := (hstart.insert first .timeout le_rfl).insert second .connectFailed (show 0 ≤ 4 by decide)
  have hat (now : Instant) (hle : 4 ≤ now) := failure_cache_semantics le_rfl (show 0 < 10 by decide) hreached hle
  have hlast := lastWord_cons (4, .inserted second .connectFailed)
  refine ⟨(hat 13 (by decide)).1, ((hat 13 (by decide)).2.2.1 second .connectFailed).mpr ?_, fun heq => ?_⟩
  · exact ⟨4, (hlast _ second).trans (if_pos rfl), by decide⟩
  · obtain ⟨s, hword, hlive⟩ := ((hat 14 (by decide)).2.2.1 second .connectFailed).mp heq
    have hs := hword.symm.trans ((hlast _ second).trans (if_pos rfl))
    cases hs
    exact absurd hlive (by decide)

end Run

end DhtCrawler.PeerFailureCache
