import DhtCrawler.DiscoveryBookkeeping
import DhtCrawler.LibExpiry

/-! Hashes that were queued before. A window of a hash opens when the hash is queued while none is open, and is
over `ttl` later or when the hash makes room for another one. -/

namespace DhtCrawler.Discovery.HashDedup

open DiscoveryActor (sampleOptions sampleNode)
open List Prod FiniteMap HashDedup

abbrev Sources := List (SocketAddr × HashSource)

abbrev Entries := FiniteMap NodeId Sources

def dropped (d : HashDedup) (now : Instant) : HashDedup :=
  { d with
    entries := (dropExpired now d.entries d.expiry).1
    expiry := (dropExpired now d.entries d.expiry).2 }

lemma contains_fst (d : HashDedup) (hash : NodeId) (addr : SocketAddr) (source : HashSource) (now : Instant) :
    (d.contains hash addr source now).1 = d.dropped now := by
  unfold contains
  dsimp only
  split
  · rfl
  · split <;> rfl

def evicted (d : HashDedup) (hash : NodeId) : List NodeId :=
  if d.entries.contains hash = false ∧ d.entries.len ≥ d.capacity then (d.expiry.take 1).map Prod.snd else []

/-! ### The shape of the table -/

/-- The table and its queue hold the same hashes, each once; the queue is in the order of the deadlines and
every hash has few sources at different endpoints. -/
structure Consistent (limit : ℕ) (d : HashDedup) : Prop where
  nodup : (d.expiry.map Prod.snd).Nodup
  mem_iff : ∀ hash, hash ∈ d.expiry.map Prod.snd ↔ ∃ sources, d.entries.get hash = some sources
  length_le : d.expiry.length ≤ limit
  ordered : d.expiry.Pairwise fun a b => a.1 ≤ b.1
  few : ∀ hash sources, d.entries.get hash = some sources →
    sources.length ≤ maxHashSources ∧ (sources.map Prod.fst).Nodup

section Table

variable {limit : ℕ} {d : HashDedup}

lemma Consistent.len_eq (h : Consistent limit d) : d.entries.len = d.expiry.length := by
  have hkeys : d.entries.keys = (d.expiry.map snd).toFinset := by
    ext hash
    rw [FiniteMap.mem_keys, mem_toFinset, h.mem_iff]
  rw [FiniteMap.len, hkeys, toFinset_card_of_nodup h.nodup, length_map]

lemma dropExpired_eq (now : Instant) (entries : Entries) (expiry : List (Instant × NodeId)) :
    dropExpired now entries expiry = Expiry.sweep (fun _ _ => true) now entries expiry := by
  induction expiry generalizing entries with
  | nil => rfl
  | cons record rest ih =>
    have herase : (if (entries.get record.2).any (fun _ => true) then entries.erase record.2 else entries) =
        entries.erase record.2 := by
      cases hget : entries.get record.2 with
      | none => exact (erase_of_get_none hget).symm
      | some sources => rfl
    rw [Expiry.sweep, herase, ← ih]
    rfl

section

variable (h : Consistent limit d)
include h

lemma Consistent.expiry_dropped (now : Instant) :
    (d.dropped now).expiry = d.expiry.filter fun record => now < record.1 := by
  unfold dropped
  rw [dropExpired_eq]
  exact Expiry.sweep_queue d.entries h.ordered

lemma Consistent.mem_dropped {now : Instant} {record : Instant × NodeId} :
    record ∈ (d.dropped now).expiry ↔ record ∈ d.expiry ∧ now < record.1 := by
  rw [h.expiry_dropped, mem_filter, decide_eq_true_iff]

lemma Consistent.get_dropped_iff {now : Instant} {hash : NodeId} {sources : Sources} :
    (d.dropped now).entries.get hash = some sources ↔
      d.entries.get hash = some sources ∧ ∀ record ∈ d.expiry, record.2 = hash → now < record.1 := by
  unfold dropped
  rw [dropExpired_eq]
  refine (Expiry.sweep_get d.entries h.ordered).trans (and_congr_right fun _ => ?_)
  simp only [reduceCtorEq, imp_false, not_le]

lemma Consistent.get_dropped (now : Instant) (hash : NodeId) :
    (d.dropped now).entries.get hash =
      if hash ∈ (d.dropped now).expiry.map snd then d.entries.get hash else none := by
  refine Option.ext fun sources => ?_
  rw [h.get_dropped_iff]
  split_ifs with hlive
  · obtain ⟨record, hrecord, rfl⟩ := mem_map.mp hlive
    obtain ⟨hmem, hlt⟩ := h.mem_dropped.mp hrecord
    refine and_iff_left fun other hother heq => ?_
    rw [inj_on_of_nodup_map h.nodup hother hmem heq]
    exact hlt
  · refine iff_of_false (fun ⟨hget, hall⟩ => hlive ?_) nofun
    obtain ⟨record, hmem, rfl⟩ := mem_map.mp ((h.mem_iff hash).mpr ⟨sources, hget⟩)
    exact mem_map_of_mem (h.mem_dropped.mpr ⟨hmem, hall record hmem rfl⟩)

lemma Consistent.dropped (now : Instant) :
    Consistent limit (d.dropped now) where
  nodup := by
    rw [h.expiry_dropped]
    exact h.nodup.sublist (filter_sublist.map _)
  mem_iff hash := by
    rw [h.get_dropped]
    constructor
    · intro hlive
      rw [if_pos hlive]
      obtain ⟨record, hrecord, rfl⟩ := mem_map.mp hlive
      exact (h.mem_iff _).mp (mem_map_of_mem (h.mem_dropped.mp hrecord).1)
    · rintro ⟨sources, hget⟩
      split_ifs at hget with hlive
      exact hlive
  length_le := by
    rw [h.expiry_dropped]
    exact (length_filter_le _ _).trans h.length_le
  ordered := by
    rw [h.expiry_dropped]
    exact h.ordered.sublist filter_sublist
  few hash sources hget := h.few hash sources (h.get_dropped_iff.mp hget).1

lemma Consistent.makeRoom (hcapacity : d.capacity = limit) (hpos : 1 ≤ limit) {hash : NodeId}
    (hnew : d.entries.get hash = none) :
    d.makeRoom.expiry.length < limit ∧ d.makeRoom.ttl = d.ttl ∧ d.makeRoom.capacity = d.capacity ∧
      (∀ other, d.makeRoom.entries.get other = if other ∈ d.evicted hash then none else d.entries.get other) ∧
      (∀ record, record ∈ d.makeRoom.expiry ↔ record ∈ d.expiry ∧ record.2 ∉ d.evicted hash) ∧
      d.makeRoom.expiry <:+ d.expiry := by
  have hlen := h.len_eq
  have habsent := contains_eq_false.mpr hnew
  by_cases hfull : d.entries.len ≥ d.capacity
  · cases hexpiry : d.expiry with
    | nil =>
      rw [hexpiry, length_nil] at hlen
      omega
    | cons record rest =>
      have hevicted : d.evicted hash = [record.2] := by
        rw [evicted, if_pos ⟨habsent, hfull⟩, hexpiry]
        rfl
      have hroom : d.makeRoom = { d with entries := d.entries.erase record.2, expiry := rest } := by
        rw [HashDedup.makeRoom, if_pos hfull, hexpiry]
      have hlength := h.length_le
      have hnodup := h.nodup
      rw [hexpiry, length_cons] at hlength
      rw [hexpiry, map_cons, nodup_cons] at hnodup
      rw [hroom, hevicted]
      refine ⟨hlength, rfl, rfl, fun other => ?_, fun other => ?_, suffix_cons _ _⟩
      · rw [get_erase]
        simp only [mem_singleton]
      · rw [mem_cons, mem_singleton]
        constructor
        · intro hmem
          exact ⟨Or.inr hmem, fun heq => hnodup.1 (heq ▸ mem_map_of_mem hmem)⟩
        · rintro ⟨rfl | hmem, hne⟩
          · exact absurd rfl hne
          · exact hmem
  · have hevicted : d.evicted hash = [] := by rw [evicted, if_neg fun hboth => hfull hboth.2]
    have hroom : d.makeRoom = d := by rw [HashDedup.makeRoom, if_neg hfull]
    rw [hroom, hevicted]
    refine ⟨by omega, rfl, rfl, fun other => ?_, fun record => ?_, suffix_rfl⟩
    · rw [if_neg not_mem_nil]
    · exact ⟨fun hmem => ⟨hmem, not_mem_nil⟩, And.left⟩

lemma Consistent.insert_new (hcapacity : d.capacity = limit) (hpos : 1 ≤ limit) {hash : NodeId}
    (hnew : d.entries.get hash = none) (addr : SocketAddr) (source : HashSource) {now : Instant}
    (hlast : ∀ record ∈ d.expiry, record.1 ≤ now + d.ttl) :
    Consistent limit (d.insert hash addr source now) ∧
      (∀ other, (d.insert hash addr source now).entries.get other = if other = hash then some [(addr, source)]
        else if other ∈ d.evicted hash then none else d.entries.get other) ∧
      ∀ record, record ∈ (d.insert hash addr source now).expiry ↔
        (record ∈ d.expiry ∧ record.2 ∉ d.evicted hash) ∨ record = (now + d.ttl, hash) := by
  obtain ⟨hlength, httl, -, hget, hmem, hsuffix⟩ := h.makeRoom hcapacity hpos hnew
  have hinsert : d.insert hash addr source now = { d.makeRoom with
      entries := d.makeRoom.entries.insert hash [(addr, source)]
      expiry := d.makeRoom.expiry ++ [(now + d.ttl, hash)] } := by
    rw [insert, hnew]
    dsimp only
    rw [httl]
  have hentries : ∀ other, (d.insert hash addr source now).entries.get other =
      if other = hash then some [(addr, source)]
      else if other ∈ d.evicted hash then none else d.entries.get other := by
    intro other
    rw [hinsert, get_insert, hget]
  have hexpiry : ∀ record, record ∈ (d.insert hash addr source now).expiry ↔
      (record ∈ d.expiry ∧ record.2 ∉ d.evicted hash) ∨ record = (now + d.ttl, hash) := by
    intro record
    rw [hinsert, mem_append, mem_singleton, hmem]
  have hfresh : hash ∉ d.makeRoom.expiry.map snd := by
    intro hin
    obtain ⟨record, hrecord, heq⟩ := mem_map.mp hin
    obtain ⟨sources, hsources⟩ := (h.mem_iff hash).mp (heq ▸ mem_map_of_mem ((hmem record).mp hrecord).1)
    rw [hnew] at hsources
    exact nomatch hsources
  refine ⟨⟨?_, fun other => ?_, ?_, ?_, fun other sources hother => ?_⟩, hentries, hexpiry⟩
  · rw [hinsert, map_append, map_cons, map_nil]
    refine nodup_append.mpr ⟨h.nodup.sublist (hsuffix.sublist.map _), nodup_singleton _, ?_⟩
    rintro a ha b hb rfl
    have heq : a = hash := mem_singleton.mp hb
    exact hfresh (heq ▸ ha)
  · rw [hentries]
    constructor
    · intro hin
      obtain ⟨record, hrecord, rfl⟩ := mem_map.mp hin
      rcases (hexpiry record).mp hrecord with ⟨hold, hstays⟩ | rfl
      · split_ifs with hsame
        · exact ⟨_, rfl⟩
        · exact (h.mem_iff _).mp (mem_map_of_mem hold)
      · exact ⟨_, if_pos rfl⟩
    · rintro ⟨sources, hsources⟩
      split_ifs at hsources with hsame hgone
      · exact mem_map.mpr ⟨(now + d.ttl, hash), (hexpiry _).mpr (Or.inr rfl), hsame.symm⟩
      · obtain ⟨record, hrecord, rfl⟩ := mem_map.mp ((h.mem_iff other).mpr ⟨sources, hsources⟩)
        exact mem_map_of_mem ((hexpiry record).mpr (Or.inl ⟨hrecord, hgone⟩))
  · rw [hinsert, length_append, length_singleton]
    exact hlength
  · rw [hinsert]
    exact Expiry.Sorted.append (h.ordered.sublist hsuffix.sublist) (fun a ha => hlast a (hsuffix.mem ha)) hash
  · rw [hentries] at hother
    split_ifs at hother with hsame hgone
    · cases hother
      exact ⟨show 1 ≤ maxHashSources by decide, nodup_singleton _⟩
    · exact h.few other sources hother

end

def noted (addr : SocketAddr) (source : HashSource) (sources : Sources) : Sources :=
  if (sources.find? fun old => old.1 = addr).isSome then upgrade addr source sources
  else if sources.length < maxHashSources then sources ++ [(addr, source)]
  else sources

lemma insert_old {hash : NodeId} {sources : Sources} (hget : d.entries.get hash = some sources)
    (addr : SocketAddr) (source : HashSource) (now : Instant) :
    d.insert hash addr source now = { d with entries := d.entries.insert hash (noted addr source sources) } := by
  rw [insert, hget, noted]
  dsimp only
  split_ifs with hfound hfew
  · rfl
  · rfl
  · rw [insert_get_self hget]

lemma Consistent.insert_old (h : Consistent limit d) {hash : NodeId} {sources sources' : Sources}
    (hget : d.entries.get hash = some sources)
    (hfew : sources'.length ≤ maxHashSources ∧ (sources'.map fst).Nodup) :
    Consistent limit { d with entries := d.entries.insert hash sources' } where
  nodup := h.nodup
  mem_iff other := by
    rw [h.mem_iff, get_insert]
    split_ifs with hsame
    · rw [hsame]
      exact ⟨fun _ => ⟨_, rfl⟩, fun _ => ⟨_, hget⟩⟩
    · exact Iff.rfl
  length_le := h.length_le
  ordered := h.ordered
  few := forall_insert hfew fun other found _ => h.few other found

end Table

/-! ### The sources of one window -/

structure Fair (queued : Sources) : Prop where
  few : (queued.map Prod.fst).toFinset.card ≤ maxHashSources
  once : queued.Nodup
  upgraded : ∀ addr, ¬ List.Sublist [(addr, .getPeers), (addr, .sample)] queued

/-- The sources in the table say what was queued in the window: an endpoint was queued once, or it was queued as
a sampler after it was a requester. -/
structure Summary (sources queued : Sources) : Prop where
  length_le : sources.length ≤ maxHashSources
  nodup : (sources.map Prod.fst).Nodup
  mem : ∀ pair ∈ queued, pair.1 ∈ sources.map Prod.fst
  told : ∀ addr source, (addr, source) ∈ sources →
    (queued.filter fun pair => pair.1 = addr) = [(addr, source)] ∨
      source = .sample ∧ (queued.filter fun pair => pair.1 = addr) = [(addr, .sample), (addr, .getPeers)]

lemma Summary.single (addr : SocketAddr) (source : HashSource) :
    Summary [(addr, source)] [(addr, source)] where
  length_le := show 1 ≤ maxHashSources by decide
  nodup := nodup_singleton _
  mem pair hmem := by rw [mem_singleton.mp hmem]; exact mem_cons_self
  told other source' hmem := by
    cases mem_singleton.mp hmem
    exact Or.inl (filter_cons_of_pos (decide_eq_true rfl))

section Window

variable {sources queued : Sources} {addr : SocketAddr} {source : HashSource}

lemma Summary.told_at (h : Summary sources queued) (addr : SocketAddr) :
    (queued.filter fun pair => pair.1 = addr) = [] ∨
      (∃ source, (queued.filter fun pair => pair.1 = addr) = [(addr, source)]) ∨
      (queued.filter fun pair => pair.1 = addr) = [(addr, .sample), (addr, .getPeers)] := by
  cases hqueued : queued.filter fun pair => pair.1 = addr with
  | nil => exact Or.inl rfl
  | cons first rest =>
    have hfirst : first ∈ queued.filter fun pair => pair.1 = addr := hqueued ▸ mem_cons_self
    obtain ⟨hmem, heq⟩ := mem_filter.mp hfirst
    obtain ⟨⟨other, source⟩, hpair, hother⟩ := mem_map.mp (h.mem first hmem)
    have haddr : other = addr := hother.trans (of_decide_eq_true heq)
    subst haddr
    rw [← hqueued]
    rcases h.told other source hpair with htold | ⟨-, htold⟩
    · exact Or.inr (Or.inl ⟨source, htold⟩)
    · exact Or.inr (Or.inr htold)

lemma Summary.fair (h : Summary sources queued) : Fair queued where
  few := by
    have hsubset : (queued.map fst).toFinset ⊆ (sources.map fst).toFinset := by
      intro addr hmem
      obtain ⟨pair, hpair, rfl⟩ := mem_map.mp (mem_toFinset.mp hmem)
      exact mem_toFinset.mpr (h.mem pair hpair)
    calc (queued.map fst).toFinset.card ≤ (sources.map fst).toFinset.card :=
          Finset.card_le_card hsubset
      _ ≤ (sources.map fst).length := toFinset_card_le _
      _ = sources.length := length_map _
      _ ≤ maxHashSources := h.length_le
  once := by
    refine nodup_iff_count_le_one.mpr fun pair => ?_
    have hcount : (queued.filter fun other => other.1 = pair.1).count pair = queued.count pair :=
      count_filter (decide_eq_true rfl)
    rw [← hcount]
    refine nodup_iff_count_le_one.mp ?_ pair
    rcases h.told_at pair.1 with htold | ⟨source, htold⟩ | htold <;> rw [htold]
    · exact nodup_nil
    · exact nodup_singleton _
    · simp
  upgraded addr hsub := by
    have hfiltered := hsub.filter fun pair => decide (pair.1 = addr)
    rw [filter_eq_self.mpr (by simp)] at hfiltered
    rcases h.told_at addr with htold | ⟨source, htold⟩ | htold <;> rw [htold] at hfiltered
    · exact absurd hfiltered.length_le (by simp)
    · exact absurd hfiltered.length_le (by simp)
    · exact absurd (hfiltered.eq_of_length rfl) (by simp)

def Admissible (addr : SocketAddr) (source : HashSource) (sources : Sources) : Prop :=
  match sources.find? fun old => old.1 = addr with
  | some (_, previous) => previous = .getPeers ∧ source = .sample
  | none => sources.length < maxHashSources

lemma map_fst_upgrade (addr : SocketAddr) (source : HashSource) (sources : Sources) :
    (upgrade addr source sources).map fst = sources.map fst := by
  induction sources with
  | nil => rfl
  | cons old rest ih =>
    unfold upgrade
    split_ifs <;> simp [ih]

lemma mem_upgrade_sample (hnodup : (sources.map fst).Nodup) {pair : SocketAddr × HashSource} :
    pair ∈ upgrade addr .sample sources → (pair ∈ sources ∧ pair.1 ≠ addr) ∨ pair = (addr, .sample) := by
  induction sources with
  | nil => exact fun h => nomatch h
  | cons old rest ih =>
    rw [map_cons, nodup_cons] at hnodup
    intro hmem
    rw [upgrade, if_pos rfl] at hmem
    split_ifs at hmem with haddr
    · rcases mem_cons.mp hmem with rfl | hmem
      · exact Or.inr (by rw [haddr])
      · refine Or.inl ⟨mem_cons_of_mem _ hmem, fun heq => hnodup.1 ?_⟩
        rw [haddr, ← heq]
        exact mem_map_of_mem hmem
    · rcases mem_cons.mp hmem with rfl | hmem
      · exact Or.inl ⟨mem_cons_self, haddr⟩
      · exact (ih hnodup.2 hmem).imp_left fun h => ⟨mem_cons_of_mem _ h.1, h.2⟩

lemma Summary.noted (h : Summary sources queued) (hpass : Admissible addr source sources) :
    Summary (noted addr source sources) ((addr, source) :: queued) := by
  have hother : ∀ other, other ≠ addr → (((addr, source) :: queued).filter fun pair => pair.1 = other) =
      queued.filter fun pair => pair.1 = other := fun other hne =>
    filter_cons_of_neg (by rw [decide_eq_true_iff]; exact fun heq => hne heq.symm)
  have hself : (((addr, source) :: queued).filter fun pair => pair.1 = addr) =
      (addr, source) :: queued.filter fun pair => pair.1 = addr :=
    filter_cons_of_pos (decide_eq_true rfl)
  unfold Admissible at hpass
  cases hfind : sources.find? fun old => old.1 = addr with
  | some old =>
    rw [hfind] at hpass
    obtain ⟨hprevious, rfl⟩ := hpass
    have hmem : old ∈ sources := List.mem_of_find?_eq_some hfind
    have haddr : old.1 = addr := by simpa using List.find?_some hfind
    have hold : (addr, .getPeers) ∈ sources := by
      rw [← haddr, ← hprevious]
      exact hmem
    have hnoted : noted addr .sample sources = upgrade addr .sample sources := by
      rw [noted, hfind, if_pos (Option.isSome_some)]
    rw [hnoted]
    refine ⟨?_, ?_, fun pair hpair => ?_, fun other source' hpair => ?_⟩
    · rw [← length_map fst, map_fst_upgrade, length_map]
      exact h.length_le
    · rw [map_fst_upgrade]
      exact h.nodup
    · rw [map_fst_upgrade]
      rcases mem_cons.mp hpair with rfl | hpair
      · exact mem_map.mpr ⟨_, hold, rfl⟩
      · exact h.mem pair hpair
    · rcases mem_upgrade_sample h.nodup hpair with ⟨hpair, hne⟩ | heq
      · rw [hother other hne]
        exact h.told other source' hpair
      · cases heq
        refine Or.inr ⟨rfl, ?_⟩
        rw [hself]
        rcases h.told addr .getPeers hold with htold | ⟨habsurd, -⟩
        · rw [htold]
        · exact nomatch habsurd
  | none =>
    rw [hfind] at hpass
    have habsent : addr ∉ sources.map fst := by
      intro hin
      obtain ⟨pair, hpair, heq⟩ := mem_map.mp hin
      exact absurd (decide_eq_true heq) (List.find?_eq_none.mp hfind pair hpair)
    have hnothing : (queued.filter fun pair => pair.1 = addr) = [] := by
      refine filter_eq_nil_iff.mpr fun pair hpair heq => habsent ?_
      rw [← of_decide_eq_true heq]
      exact h.mem pair hpair
    have hnoted : HashDedup.noted addr source sources = sources ++ [(addr, source)] := by
      rw [HashDedup.noted, hfind, if_neg (by decide), if_pos hpass]
    rw [hnoted]
    refine ⟨?_, ?_, fun pair hpair => ?_, fun other source' hpair => ?_⟩
    · rw [length_append, length_singleton]
      exact hpass
    · rw [map_append, map_cons, map_nil]
      refine nodup_append.mpr ⟨h.nodup, nodup_singleton _, ?_⟩
      rintro a ha b hb rfl
      have heq : a = addr := mem_singleton.mp hb
      exact habsent (heq ▸ ha)
    · rw [map_append]
      rcases mem_cons.mp hpair with rfl | hpair
      · exact mem_append_right _ mem_cons_self
      · exact mem_append_left _ (h.mem pair hpair)
    · rcases mem_append.mp hpair with hpair | hpair
      · have hne : other ≠ addr := fun heq => habsent (heq ▸ mem_map_of_mem hpair)
        rw [hother other hne]
        exact h.told other source' hpair
      · cases mem_singleton.mp hpair
        rw [hself, hnothing]
        exact Or.inl rfl

end Window

/-! ### Runs -/

inductive Event where
  | queued (hash : NodeId) (addr : SocketAddr) (source : HashSource)
  | evicted (hash : NodeId)

def window (ttl : Duration) (hash : NodeId) : List (Instant × Event) → Option (Instant × Sources)
  | [] => none
  | (now, .queued other addr source) :: log =>
    if other = hash then
      match window ttl hash log with
      | some (opened, queued) =>
        if now < opened + ttl then some (opened, (addr, source) :: queued) else some (now, [(addr, source)])
      | none => some (now, [(addr, source)])
    else window ttl hash log
  | (_, .evicted other) :: log => if other = hash then none else window ttl hash log

def record (d : HashDedup) (hash : NodeId) (addr : SocketAddr) (source : HashSource) (now : Instant)
    (log : List (Instant × Event)) : List (Instant × Event) :=
  (now, .queued hash addr source) :: (((d.dropped now).evicted hash).map fun old => (now, .evicted old)) ++ log

/-- The tables that calls of `emit_hash` lead to when the clock never goes back, with what was queued and
evicted. -/
inductive Reached (capacity : ℕ) (ttl : Duration) : Instant → HashDedup → List (Instant × Event) → Prop where
  | start (now : Instant) : Reached capacity ttl now (.new capacity ttl) []
  | emit {t now : Instant} {σ : DiscoveryActor} {log : List (Instant × Event)} (hash : NodeId) (node : NodeTuple)
      (source : HashSource) (answer : Answer) (h : Reached capacity ttl t σ.dedup log) (hle : t ≤ now) :
      Reached capacity ttl now (σ.emitHash hash node source now answer).1.dedup
        (if (σ.emitHash hash node source now answer).2 then σ.dedup.record hash node.addr source now log else log)
  | contains {t now : Instant} {d : HashDedup} {log : List (Instant × Event)} (hash : NodeId) (addr : SocketAddr)
      (source : HashSource) (h : Reached capacity ttl t d log) (hle : t ≤ now) :
      Reached capacity ttl now (d.contains hash addr source now).1 log

lemma emitHash_dedup (σ : DiscoveryActor) (hash : NodeId) (node : NodeTuple) (source : HashSource)
    (now : Instant) (answer : Answer) :
    (σ.emitHash hash node source now answer).2 = false ∧
        (σ.emitHash hash node source now answer).1.dedup = σ.dedup.dropped now ∨
      (σ.emitHash hash node source now answer).2 = true ∧
        (σ.dedup.contains hash node.addr source now).2 = false ∧
        (σ.emitHash hash node source now answer).1.dedup =
          (σ.dedup.dropped now).insert hash node.addr source now := by
  rw [← contains_fst σ.dedup hash node.addr source now]
  unfold DiscoveryActor.emitHash
  split
  · rename_i hcontains
    rw [hcontains]
    exact Or.inl ⟨rfl, rfl⟩
  · rename_i hcontains
    rw [hcontains]
    dsimp only
    split_ifs
    · exact Or.inr ⟨rfl, rfl, rfl⟩
    · exact Or.inl ⟨rfl, rfl⟩
    · exact Or.inr ⟨rfl, rfl, rfl⟩
    · exact Or.inl ⟨rfl, rfl⟩

lemma admissible_of_contains {d : HashDedup} {hash : NodeId} {addr : SocketAddr} {source : HashSource}
    {now : Instant} (h : (d.contains hash addr source now).2 = false) {sources : Sources}
    (hget : (d.dropped now).entries.get hash = some sources) : Admissible addr source sources := by
  unfold contains at h
  dsimp only at h
  rw [show (dropExpired now d.entries d.expiry).1.get hash = some sources from hget] at h
  dsimp only at h
  unfold Admissible
  cases hfind : sources.find? fun old => old.1 = addr with
  | some old =>
    rw [hfind] at h
    simpa using h
  | none =>
    rw [hfind] at h
    simpa using h

section Events

variable {ttl : Duration} {now : Instant} {hash : NodeId} {addr : SocketAddr} {source : HashSource}

lemma window_evicted (old : List NodeId) (log : List (Instant × Event)) (hash : NodeId) :
    window ttl hash ((old.map fun other => (now, .evicted other)) ++ log) =
      if hash ∈ old then none else window ttl hash log := by
  induction old with
  | nil => rw [if_neg not_mem_nil]; rfl
  | cons other rest ih =>
    rw [map_cons, cons_append, window, ih]
    by_cases hsame : other = hash
    · rw [if_pos hsame, if_pos (hsame ▸ mem_cons_self)]
    · rw [if_neg hsame]
      refine if_congr ?_ rfl rfl
      rw [mem_cons, or_iff_right fun heq => hsame heq.symm]

lemma window_record_ne (d : HashDedup) (log : List (Instant × Event)) {other : NodeId} (hne : other ≠ hash) :
    window ttl other (d.record hash addr source now log) =
      if other ∈ (d.dropped now).evicted hash then none else window ttl other log := by
  rw [record, cons_append, window, if_neg fun heq => hne heq.symm, window_evicted]

lemma window_record_self (d : HashDedup) (log : List (Instant × Event))
    (hself : hash ∉ (d.dropped now).evicted hash) :
    window ttl hash (d.record hash addr source now log) = match window ttl hash log with
      | some (opened, queued) =>
        if now < opened + ttl then some (opened, (addr, source) :: queued) else some (now, [(addr, source)])
      | none => some (now, [(addr, source)]) := by
  rw [record, cons_append, window, if_pos rfl, window_evicted, if_neg hself]

end Events

/-- What holds between two calls, `now` being the time of the earlier one: the table holds the open windows. -/
structure Inv (capacity : ℕ) (ttl : Duration) (now : Instant) (d : HashDedup) (log : List (Instant × Event)) :
    Prop where
  consistent : Consistent (max capacity 1) d
  capacity_eq : d.capacity = max capacity 1
  ttl_eq : d.ttl = ttl
  deadline_le : ∀ record ∈ d.expiry, record.1 ≤ now + ttl
  opened : ∀ record ∈ d.expiry, ∃ opened queued sources, window ttl record.2 log = some (opened, queued) ∧
    record.1 = opened + ttl ∧ d.entries.get record.2 = some sources ∧ Summary sources queued
  held : ∀ hash opened queued, window ttl hash log = some (opened, queued) → now < opened + ttl →
    (opened + ttl, hash) ∈ d.expiry
  fair : ∀ hash opened queued, window ttl hash log = some (opened, queued) → Fair queued

section Run

variable {capacity : ℕ} {ttl : Duration} {t now : Instant} {d : HashDedup} {log : List (Instant × Event)}

lemma inv_new (capacity : ℕ) (ttl : Duration) (now : Instant) :
    Inv capacity ttl now (.new capacity ttl) [] where
  consistent :=
    { nodup := nodup_nil
      mem_iff := fun hash => ⟨fun h => (nomatch h), fun ⟨_, h⟩ => nomatch (get_empty hash).symm.trans h⟩
      length_le := Nat.zero_le _
      ordered := List.Pairwise.nil
      few := fun hash _ h => nomatch (get_empty hash).symm.trans h }
  capacity_eq := rfl
  ttl_eq := rfl
  deadline_le _ h := nomatch h
  opened _ h := nomatch h
  held _ _ _ h := nomatch h
  fair _ _ _ h := nomatch h

lemma Inv.dropped (h : Inv capacity ttl t d log) (hle : t ≤ now) : Inv capacity ttl now (d.dropped now) log where
  consistent := h.consistent.dropped now
  capacity_eq := h.capacity_eq
  ttl_eq := h.ttl_eq
  deadline_le record hmem :=
    (h.deadline_le record (h.consistent.mem_dropped.mp hmem).1).trans (Nat.add_le_add_right hle ttl)
  opened record hmem := by
    obtain ⟨opened, queued, sources, hwindow, hdeadline, hget, hsummary⟩ :=
      h.opened record (h.consistent.mem_dropped.mp hmem).1
    refine ⟨opened, queued, sources, hwindow, hdeadline, ?_, hsummary⟩
    rw [h.consistent.get_dropped, if_pos (mem_map_of_mem hmem)]
    exact hget
  held hash opened queued hwindow hlive :=
    h.consistent.mem_dropped.mpr ⟨h.held hash opened queued hwindow (lt_of_le_of_lt hle hlive), hlive⟩
  fair := h.fair

lemma Inv.queued_old (h : Inv capacity ttl t d log) (hle : t ≤ now) {hash : NodeId} {addr : SocketAddr}
    {source : HashSource} {sources : Sources} (hget : (d.dropped now).entries.get hash = some sources)
    (hpass : Admissible addr source sources) :
    Inv capacity ttl now ((d.dropped now).insert hash addr source now) (d.record hash addr source now log) := by
  have hdropped := h.dropped hle
  have hevicted : (d.dropped now).evicted hash = [] := by
    rw [evicted, if_neg]
    rw [contains_iff.mpr ⟨sources, hget⟩]
    exact fun hboth => nomatch hboth.1
  obtain ⟨record, hrecord, rfl⟩ := mem_map.mp ((hdropped.consistent.mem_iff hash).mpr ⟨sources, hget⟩)
  obtain ⟨opened, queued, sources', hwindow, hdeadline, hget', hsummary⟩ := hdropped.opened record hrecord
  obtain rfl : sources = sources' := Option.some.inj (hget.symm.trans hget')
  have hlive : now < opened + ttl := hdeadline ▸ (h.consistent.mem_dropped.mp hrecord).2
  have hself : window ttl record.2 (d.record record.2 addr source now log) =
      some (opened, (addr, source) :: queued) := by
    rw [window_record_self d log (hevicted ▸ not_mem_nil), hwindow]
    exact if_pos hlive
  have hother : ∀ other, other ≠ record.2 →
      window ttl other (d.record record.2 addr source now log) = window ttl other log := by
    intro other hne
    rw [window_record_ne d log hne, hevicted, if_neg not_mem_nil]
  have hnoted := hsummary.noted hpass
  rw [insert_old hget]
  exact {
    consistent := hdropped.consistent.insert_old hget ⟨hnoted.length_le, hnoted.nodup⟩
    capacity_eq := h.capacity_eq
    ttl_eq := h.ttl_eq
    deadline_le := hdropped.deadline_le
    opened := by
      intro other hmem
      rw [get_insert]
      by_cases hsame : other.2 = record.2
      · have heq : other = record := inj_on_of_nodup_map hdropped.consistent.nodup hmem hrecord hsame
        rw [heq, if_pos rfl]
        exact ⟨opened, _, _, hself, hdeadline, rfl, hnoted⟩
      · rw [if_neg hsame, hother _ hsame]
        exact hdropped.opened other hmem
    held := by
      intro other opened' queued' hwindow' hlive'
      by_cases hsame : other = record.2
      · rw [hsame, hself] at hwindow'
        cases hwindow'
        rw [hsame, ← hdeadline]
        exact hrecord
      · rw [hother _ hsame] at hwindow'
        exact hdropped.held other opened' queued' hwindow' hlive'
    fair := by
      intro other opened' queued' hwindow'
      by_cases hsame : other = record.2
      · rw [hsame, hself] at hwindow'
        cases hwindow'
        exact hnoted.fair
      · rw [hother _ hsame] at hwindow'
        exact h.fair other opened' queued' hwindow' }

lemma Inv.queued_new (h : Inv capacity ttl t d log) (hle : t ≤ now) {hash : NodeId}
    (hnew : (d.dropped now).entries.get hash = none) (addr : SocketAddr) (source : HashSource) :
    Inv capacity ttl now ((d.dropped now).insert hash addr source now) (d.record hash addr source now log) := by
  have hdropped := h.dropped hle
  have habsent : ∀ record ∈ (d.dropped now).expiry, record.2 ≠ hash := by
    intro record hrecord heq
    obtain ⟨sources, hget⟩ := (hdropped.consistent.mem_iff hash).mp (heq ▸ mem_map_of_mem hrecord)
    exact nomatch hnew.symm.trans hget
  have hevicted : hash ∉ (d.dropped now).evicted hash := by
    unfold evicted
    split_ifs
    · intro hmem
      obtain ⟨record, hrecord, heq⟩ := mem_map.mp hmem
      exact habsent record (mem_of_mem_take hrecord) heq
    · exact not_mem_nil
  have hself : window ttl hash (d.record hash addr source now log) = some (now, [(addr, source)]) := by
    rw [window_record_self d log hevicted]
    cases hwindow : window ttl hash log with
    | none => rfl
    | some w =>
      refine if_neg fun hlive => ?_
      exact habsent _ (hdropped.held hash w.1 w.2 hwindow hlive) rfl
  have hlast : ∀ record ∈ (d.dropped now).expiry, record.1 ≤ now + (d.dropped now).ttl := by
    rw [hdropped.ttl_eq]
    exact hdropped.deadline_le
  obtain ⟨hconsistent, hget, hmem⟩ := hdropped.consistent.insert_new hdropped.capacity_eq
    (le_max_right _ _) hnew addr source hlast
  rw [hdropped.ttl_eq] at hmem
  have hfields : ((d.dropped now).insert hash addr source now).capacity = max capacity 1 ∧
      ((d.dropped now).insert hash addr source now).ttl = ttl := by
    obtain ⟨-, httl, hcapacity, -⟩ :=
      hdropped.consistent.makeRoom hdropped.capacity_eq (le_max_right _ _) hnew
    rw [insert, hnew]
    exact ⟨hcapacity.trans hdropped.capacity_eq, httl.trans hdropped.ttl_eq⟩
  exact {
    consistent := hconsistent
    capacity_eq := hfields.1
    ttl_eq := hfields.2
    deadline_le := by
      intro record hrecord
      rcases (hmem record).mp hrecord with ⟨hold, -⟩ | rfl
      · exact hdropped.deadline_le record hold
      · exact le_rfl
    opened := by
      intro record hrecord
      rw [hget]
      rcases (hmem record).mp hrecord with ⟨hold, hstays⟩ | rfl
      · have hne := habsent record hold
        rw [window_record_ne d log hne, if_neg hstays, if_neg hne, if_neg hstays]
        exact hdropped.opened record hold
      · exact ⟨now, _, _, hself, rfl, if_pos rfl, .single addr source⟩
    held := by
      intro other opened queued hwindow hlive
      by_cases hsame : other = hash
      · rw [hsame, hself] at hwindow
        cases hwindow
        rw [hsame]
        exact (hmem _).mpr (Or.inr rfl)
      · rw [window_record_ne d log hsame] at hwindow
        split_ifs at hwindow with hgone
        exact (hmem _).mpr (Or.inl ⟨hdropped.held other opened queued hwindow hlive, hgone⟩)
    fair := by
      intro other opened queued hwindow
      by_cases hsame : other = hash
      · rw [hsame, hself] at hwindow
        cases hwindow
        exact (Summary.single addr source).fair
      · rw [window_record_ne d log hsame] at hwindow
        split_ifs at hwindow with hgone
        exact h.fair other opened queued hwindow }

lemma Reached.inv (h : Reached capacity ttl t d log) : Inv capacity ttl t d log := by
  induction h with
  | start now => exact inv_new capacity ttl now
  | @emit t now σ log hash node source answer _ hle ih =>
    rcases emitHash_dedup σ hash node source now answer with ⟨hfalse, hdedup⟩ | ⟨htrue, hpass, hdedup⟩
    · rw [hdedup, hfalse]
      exact ih.dropped hle
    · rw [hdedup, htrue, if_pos rfl]
      cases hget : (σ.dedup.dropped now).entries.get hash with
      | some sources => exact ih.queued_old hle hget (admissible_of_contains hpass hget)
      | none => exact ih.queued_new hle hget node.addr source
  | contains hash addr source _ hle ih =>
    rw [contains_fst]
    exact ih.dropped hle

/-- The table and the queue hold the same hashes, each once, in the order of their deadlines, no more than the
capacity and each with few sources. -/
theorem dedup_window (h : Reached capacity ttl t d log) :
    Consistent (max capacity 1) d ∧
    (∀ hash opened queued, window ttl hash log = some (opened, queued) → Fair queued) ∧
    (∀ deadline hash, (deadline, hash) ∈ d.expiry →
      ∃ opened queued, window ttl hash log = some (opened, queued) ∧ deadline = opened + ttl) ∧
    (∀ hash opened queued, window ttl hash log = some (opened, queued) → t < opened + ttl →
      (opened + ttl, hash) ∈ d.expiry) ∧
    ∀ (σ : DiscoveryActor) hash node source now answer, σ.dedup = d →
      (σ.emitHash hash node source now answer).2 = false →
      let d' := (σ.emitHash hash node source now answer).1.dedup
      d'.expiry = (d.expiry.filter fun record => now < record.1) ∧ (∀ other, d'.entries.get other =
          if other ∈ d'.expiry.map Prod.snd then d.entries.get other else none) ∧
        d'.capacity = d.capacity ∧ d'.ttl = d.ttl := by
  have hinv := h.inv
  refine ⟨hinv.consistent, hinv.fair, fun deadline hash hmem => ?_, hinv.held, ?_⟩
  · obtain ⟨opened, queued, _, hwindow, hdeadline, -⟩ := hinv.opened _ hmem
    exact ⟨opened, queued, hwindow, hdeadline⟩
  · rintro σ hash node source now answer rfl hfalse
    have hdedup : (σ.emitHash hash node source now answer).1.dedup = σ.dedup.dropped now := by
      rcases emitHash_dedup σ hash node source now answer with ⟨-, hdedup⟩ | ⟨htrue, -⟩
      · exact hdedup
      · exact nomatch hfalse.symm.trans htrue
    rw [hdedup]
    exact ⟨hinv.consistent.expiry_dropped now, hinv.consistent.get_dropped now, rfl, rfl⟩

theorem dedup_window_upgrade :
    let σ := DiscoveryActor.new sampleOptions .ipv4Only true false 0
    let first := σ.emitHash (sampleNode 1).id (sampleNode 1) .getPeers 0 ⟨true, true⟩
    let second := first.1.emitHash (sampleNode 1).id (sampleNode 1) .sample 5 ⟨true, true⟩
    first.2 = true ∧ second.2 = true ∧ Consistent sampleOptions.hashDedupCapacity.toNat second.1.dedup ∧
      Fair [((sampleNode 1).addr, .sample), ((sampleNode 1).addr, .getPeers)] := by
  intro σ first second
  have hfirst : first.2 = true := by decide +kernel
  have hsecond : second.2 = true := by decide +kernel
  have hstart : Reached _ _ 0 σ.dedup [] := Reached.start 0
  have hone := hstart.emit (sampleNode 1).id (sampleNode 1) .getPeers ⟨true, true⟩ (le_refl 0)
  have htwo := hone.emit (sampleNode 1).id (sampleNode 1) .sample ⟨true, true⟩ (Nat.zero_le 5)
  rw [show (σ.emitHash (sampleNode 1).id (sampleNode 1) .getPeers 0 ⟨true, true⟩).2 = true from hfirst] at htwo
  rw [show (first.1.emitHash (sampleNode 1).id (sampleNode 1) .sample 5 ⟨true, true⟩).2 = true
    from hsecond] at htwo
  obtain ⟨hconsistent, hfair, -⟩ := dedup_window htwo
  refine ⟨hfirst, hsecond, hconsistent, hfair (sampleNode 1).id 0 _ ?_⟩
  decide +kernel

end Run

end DhtCrawler.Discovery.HashDedup
