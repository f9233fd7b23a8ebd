import DhtCrawler.QueueInvariant

/-! Which hashes a pending queue can hold after an operation. -/

namespace DhtCrawler.PendingHashQueue

open FiniteMap

variable {e : QueuedHash}

def Within (S : Set String) (q : PendingHashQueue) : Prop :=
  ∀ h e, q.entries.get h = some e → e.infoHash = h ∧ h ∈ S

variable {S T : Set String} {q q' : PendingHashQueue}

lemma within_new (S : Set String) (capacity : ℕ) (ttl : Duration) : Within S (new capacity ttl) := by
  intro h e he
  cases he

section

variable (hq : Within S q)
include hq

lemma Within.mono (hST : S ⊆ T) : Within T q := by
  intro h e he
  exact ⟨(hq h e he).1, hST (hq h e he).2⟩

lemma Within.notMem {h : String} (hh : h ∉ S) : q.entries.get h = none := by
  cases he : q.entries.get h with
  | none => rfl
  | some e => exact absurd (hq h e he).2 hh

lemma Within.of_entries
    (h : ∀ k e', q'.entries.get k = some e' → ∃ e, q.entries.get k = some e ∧ e'.infoHash = e.infoHash) :
    Within S q' := by
  intro k e' he'
  obtain ⟨e, he, hname⟩ := h k e' he'
  rw [hname]
  exact hq k e he

lemma Within.remove (h : String) : Within (S \ {h}) (q.remove h).1 := by
  intro k e he
  rw [remove_fst_entries] at he
  obtain ⟨hk, he⟩ := get_of_get_erase he
  exact ⟨(hq k e he).1, (hq k e he).2, hk⟩

lemma Within.removed (h : String) : Within S (q.remove h).1 :=
  (hq.remove h).mono Set.sdiff_subset

lemma Within.insert (he : e.infoHash ∈ S) : Within S (q.insert e) :=
  forall_insert ⟨rfl, he⟩ fun k e' _ => hq k e'

lemma Within.push (event : HashDiscovered) (hS : event.infoHash ∈ S) (now : Instant) :
    Except.Safe (fun _ => True) (q.push event now) fun r => Within S r.1 := by
  rcases push_step q event now with ⟨q', kind, h, hs⟩ | ⟨h, _⟩
  · rw [h]
    cases hs with
    | stale => exact hq
    | updated he =>
      refine (hq.removed event.infoHash).insert ?_
      rw [updatedEntry_infoHash, (hq _ _ he).1]
      exact hS
    | inserted => exact hq.insert hS
    | evicted => exact (hq.removed _).insert hS
  · rw [h]
    trivial

lemma Within.defer (hS : e.infoHash ∈ S) (record : RetryRecord) :
    Within S (q.defer e record).1 := by
  rcases defer_cases q e record with h | ⟨h, _⟩
  · rw [h]
    exact hq.removed e.infoHash
  · rw [h]
    exact (hq.removed e.infoHash).insert hS

lemma Within.promoteReady (now : Instant) : Except.Safe (fun _ => True) (q.promoteReady now) (Within S) :=
  promoteReady_rule hq (fun _ _ _ e hq' he =>
    hq'.of_entries (forall_insert ⟨e, he, rfl⟩ fun _ e' _ he' => ⟨e', he', rfl⟩)) now

lemma Within.expire (now : Instant) : Within S (q.expire now).1 :=
  expire_rule (P := fun s => Within S s.1) hq (fun _ hash hs => hs.removed hash) now

end

def Popped (S : Set String) (r : PendingHashQueue × Option QueuedHash) : Prop :=
  match r.2 with
  | none => Within S r.1
  | some e => e.infoHash ∈ S ∧ Within (S \ {e.infoHash}) r.1

lemma Within.popped_remove (hq : Within S q) (h : String) : Popped S (q.remove h) := by
  unfold Popped
  rw [remove_snd]
  cases he : q.entries.get h with
  | none => exact hq.removed h
  | some e =>
    obtain ⟨hname, hS⟩ := hq h e he
    dsimp only
    rw [hname]
    exact ⟨hS, hq.remove h⟩

lemma Within.popChoice (hq : Within S q) : Popped S q.popChoice := by
  have hfresh : ∀ n, Within S { q with freshDispatches := n } := fun n => hq
  exact popChoice_rule hfresh fun n => (hfresh n).popped_remove

lemma Within.popNewestReady (hq : Within S q) (now : Instant) :
    Except.Safe (fun _ => True) (q.popNewestReady now) (Popped S) :=
  ((hq.expire now).promoteReady now).bind fun _ h => h.popChoice

end DhtCrawler.PendingHashQueue
