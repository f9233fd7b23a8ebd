import DhtCrawler.QueueInvariant

/-! The entries of the pending hash queue before and after an operation. -/

namespace DhtCrawler

open FiniteMap PendingHashQueue Except Option

variable {kind : QueuePushKind} {entry : QueuedHash} {k : Instant ×ₗ ℕ}

namespace PendingHashQueue

variable {capacity n : ℕ} {q q' : PendingHashQueue} {now : Instant}

/-! ### Registers -/

def registers (q : PendingHashQueue) : ℕ × Duration × ℕ × ℕ :=
  (q.capacity, q.ttl, q.sequence, q.freshDispatches)

lemma of_registers (h : q'.registers = q.registers) :
    q'.ttl = q.ttl ∧ q'.sequence = q.sequence ∧ q'.freshDispatches = q.freshDispatches := by
  simp only [registers, Prod.mk.injEq] at h
  exact ⟨h.2.1, h.2.2.1, h.2.2.2⟩

lemma remove_registers (q : PendingHashQueue) (h : String) : (q.remove h).1.registers = q.registers := by
  unfold PendingHashQueue.remove
  split <;> rfl

lemma promoteReady_registers (q : PendingHashQueue) (now : Instant) :
    Safe (fun _ => True) (q.promoteReady now) fun q' => q'.registers = q.registers :=
  promoteReady_rule (P := fun q' => q'.registers = q.registers) rfl (fun _ _ _ _ hq' _ => hq') now

lemma expire_registers (q : PendingHashQueue) (now : Instant) : (q.expire now).1.registers = q.registers :=
  expire_rule (P := fun s => s.1.registers = q.registers) rfl (fun s h hs => (remove_registers s.1 h).trans hs) now

lemma popChoice_frame (q : PendingHashQueue) :
    q.popChoice.1.ttl = q.ttl ∧ q.popChoice.1.sequence = q.sequence := by
  refine popChoice_rule (P := fun r => r.1.ttl = q.ttl ∧ r.1.sequence = q.sequence) (fun _ => ⟨rfl, rfl⟩)
    fun k h => ?_
  have hframe := of_registers (remove_registers { q with freshDispatches := k } h)
  exact ⟨hframe.1, hframe.2.1⟩

lemma PushStep.frame {event : HashDiscovered} (hs : PushStep q event now q' kind) :
    q'.ttl = q.ttl ∧ q'.freshDispatches = q.freshDispatches := by
  have hremove := fun h => of_registers (remove_registers q h)
  cases hs with
  | stale => exact ⟨rfl, rfl⟩
  | updated => exact ⟨(hremove event.infoHash).1, (hremove event.infoHash).2.2⟩
  | inserted => exact ⟨rfl, rfl⟩
  | @evicted k h old => exact ⟨(hremove h).1, (hremove h).2.2⟩

lemma call_frame (q : PendingHashQueue) (op : QueueOp) :
    Safe (fun _ => True) (q.call op) fun r => r.1.ttl = q.ttl ∧
      ((∀ now, op ≠ .popNewestReady now) → r.1.freshDispatches = q.freshDispatches) := by
  cases op with
  | push event now =>
    rcases push_step q event now with ⟨q', kind, hpush, hs⟩ | ⟨hpush, -⟩
    · rw [call, hpush]
      exact ⟨hs.frame.1, fun _ => hs.frame.2⟩
    · rw [call, hpush]
      trivial
  | defer entry record =>
    have hframe := of_registers (remove_registers q entry.infoHash)
    rcases defer_cases q entry record with h | ⟨h, -, -⟩
    · rw [call, h]
      exact ⟨hframe.1, fun _ => hframe.2.2⟩
    · rw [call, h]
      exact ⟨hframe.1, fun _ => hframe.2.2⟩
  | remove hash =>
    have hframe := of_registers (remove_registers q hash)
    exact ⟨hframe.1, fun _ => hframe.2.2⟩
  | promoteReady now =>
    refine (promoteReady_registers q now).bind fun _ h => ?_
    exact ⟨(of_registers h).1, fun _ => (of_registers h).2.2⟩
  | expire now =>
    have hframe := of_registers (expire_registers q now)
    exact ⟨hframe.1, fun _ => hframe.2.2⟩
  | popNewestReady now =>
    refine Safe.bind (P := fun r : PendingHashQueue × Option QueuedHash => r.1.ttl = q.ttl) ?_
      fun _ h => ⟨h, fun hop => absurd rfl (hop now)⟩
    refine (promoteReady_registers (q.expire now).1 now).bind fun q' hq' => ?_
    exact (popChoice_frame q').1.trans (of_registers (hq'.trans (expire_registers q now))).1

lemma Reached.ttl_eq {ttl : Duration} (hr : Reached capacity ttl n q) : q.ttl = ttl := by
  induction hr with
  | new => rfl
  | @call n k q q' op _ hop ih => exact ((call_frame q op).of_ok hop).1.trans ih

/-! ### Expiry -/

def Trimmed (now : Instant) (q q' : PendingHashQueue) : Prop :=
  ∀ h, q'.entries.get h = q.entries.get h ∨
    q'.entries.get h = none ∧ ∃ e, q.entries.get h = some e ∧ e.expiresAt < now

lemma Trimmed.remove (hq : Trimmed now q q') {h : String} {e : QueuedHash}
    (he : q'.entries.get h = some e) (hover : e.expiresAt < now) : Trimmed now q (q'.remove h).1 := by
  intro k
  rw [remove_fst_entries, get_erase]
  split_ifs with hk
  · refine .inr ⟨rfl, e, ?_, hover⟩
    rcases hq h with hsame | ⟨hnone, _⟩
    · rw [hk, ← hsame, he]
    · rw [he] at hnone
      cases hnone
  · exact hq k

lemma Trimmed.entries (hq : Trimmed now q q') (hlater : ∀ h e, q'.entries.get h = some e → now ≤ e.expiresAt)
    (h : String) : q'.entries.get h = (q.entries.get h).filter fun e => now ≤ e.expiresAt := by
  rcases hq h with hsame | ⟨hnone, e, he, hover⟩
  · rw [hsame]
    cases he : q.entries.get h with
    | none => rfl
    | some e =>
      have hle : now ≤ e.expiresAt := hlater h e (hsame.trans he)
      rw [filter_some, if_pos (decide_eq_true hle)]
  · have hnot : ¬decide (now ≤ e.expiresAt) = true := by simpa using hover
    rw [hnone, he, filter_some, if_neg hnot]

lemma Inv.expire_entries (hq : Inv capacity n q) (now : Instant) (h : String) :
    (q.expire now).1.entries.get h = (q.entries.get h).filter fun e => now ≤ e.expiresAt := by
  suffices hexit : Trimmed now q (q.expire now).1 ∧
      ∀ h e, (q.expire now).1.entries.get h = some e → now ≤ e.expiresAt from hexit.1.entries hexit.2 h
  refine Loop.iterate_exit (P := fun s : PendingHashQueue × ℕ => Inv capacity n s.1 ∧ Trimmed now q s.1)
    (Q := fun s => Trimmed now q s.1 ∧ ∀ h e, s.1.entries.get h = some e → now ≤ e.expiresAt)
    (fun s => s.1.expiry.len) (fun s hs => ?_) _ ⟨hq, fun _ => .inl rfl⟩ (Nat.lt_succ_self _)
  obtain ⟨hinv, htrimmed⟩ := hs
  have hlisted : ∀ h e, s.1.entries.get h = some e → e.expiryKey ∈ s.1.expiry.keys :=
    fun h e he => mem_keys_of_get (hinv.expiry.get_key he rfl)
  unfold expireStep
  cases hfirst : s.1.expiry.first with
  | none =>
    refine ⟨htrimmed, fun h e he => ?_⟩
    have hmem := hlisted h e he
    rw [first_eq_none_iff.mp hfirst] at hmem
    exact absurd hmem (Finset.notMem_empty _)
  | some x =>
    obtain ⟨key, name⟩ := x
    obtain ⟨hkey, hleast⟩ := first_eq_some_iff.mp hfirst
    obtain ⟨old, hold⟩ := hinv.expiry.get_entry hkey
    have hkeyeq : key = old.expiryKey := hinv.expiry.key_eq hold hkey
    dsimp only
    split_ifs with hlater
    · exact ⟨htrimmed, fun h e he =>
        hlater.trans (Prod.Lex.monotone_fst _ _ (hleast _ (hlisted h e he)))⟩
    · have hover : old.expiresAt < now := by
        rw [hkeyeq] at hlater
        exact not_le.mp hlater
      refine ⟨⟨hinv.remove name, htrimmed.remove hold hover⟩, ?_⟩
      have hless := len_erase_old hold
      dsimp only
      rw [(hinv.remove name).expiry.len_eq_count, hinv.expiry.len_eq_count, count_true, count_true,
        remove_fst_entries]
      omega

lemma Inv.expire_later (hq : Inv capacity n q) (now : Instant) {h : String}
    (hentry : (q.expire now).1.entries.get h = some entry) : now ≤ entry.expiresAt := by
  rw [hq.expire_entries now h, filter_eq_some_iff, decide_eq_true_iff] at hentry
  exact hentry.2

/-! ### Promotion -/

def Promoted (now : Instant) (q q' : PendingHashQueue) : Prop :=
  ∀ h, q'.entries.get h = q.entries.get h ∨
    ∃ e, q.entries.get h = some e ∧ e.readyAt ≤ now ∧ q'.entries.get h = some { e with ready := true }

lemma promoted_refl (now : Instant) (q : PendingHashQueue) : Promoted now q q := fun _ => .inl rfl

lemma Promoted.trans {q'' : PendingHashQueue} (h : Promoted now q q') (h' : Promoted now q' q'') :
    Promoted now q q'' := by
  intro hash
  rcases h' hash with hsame' | ⟨e', he', hdue', hready'⟩
  · rw [hsame']
    exact h hash
  · refine .inr ?_
    rcases h hash with hsame | ⟨e, he, hdue, hready⟩
    · exact ⟨e', hsame ▸ he', hdue', hready'⟩
    · cases hready.symm.trans he'
      exact ⟨e, he, hdue, hready'⟩

lemma Inv.promoted_promoted (hq : Inv capacity n q) {h : String} (hw : q.waiting.get k = some h)
    (hdue : (ofLex k).1 ≤ now) (he : q.entries.get h = some entry) : Promoted now q (q.promoted k h entry) := by
  rw [hq.waiting.key_eq he hw] at hdue
  intro other
  rw [promoted, get_insert]
  split_ifs with hother
  · exact .inr ⟨entry, hother ▸ he, hdue, rfl⟩
  · exact .inl rfl

lemma Inv.promoteReady_promoted (hq : Inv capacity n q) (now : Instant) :
    Sure (q.promoteReady now) (Promoted now q) := by
  refine (Loop.safe_run (P := fun q' => Inv capacity n q' ∧ Promoted now q q') (fun q' hq' => ?_) _
    ⟨hq, promoted_refl now q⟩).mono fun q' hq' => hq'.2
  refine (promoteStep_round now (fun _ => hq') fun key h e hw hdue he => ?_).weaken fun _ => hq'.1.waiting_queued
  exact ⟨hq'.1.promote hw he, hq'.2.trans (hq'.1.promoted_promoted hw hdue he)⟩

lemma Inv.promoteReady_entries (hq : Inv capacity n q) (now : Instant) :
    Sure (q.promoteReady now) fun q' =>
      ∀ h, q'.entries.get h =
        (q.entries.get h).map fun e => { e with ready := e.ready || decide (e.readyAt ≤ now) } := by
  refine ((hq.promoteReady now).and (hq.promoteReady_promoted now)).mono fun q' hq' h => ?_
  obtain ⟨⟨hinv, hahead⟩, hpromoted⟩ := hq'
  rcases hpromoted h with hsame | ⟨e, he, hdue, hready⟩
  · rw [hsame]
    cases he : q.entries.get h with
    | none => rfl
    | some e =>
      cases hr : e.ready with
      | true =>
        rw [map_some]
        congr 1
        cases e
        cases hr
        rfl
      | false =>
        have hwaits := hahead _ (mem_keys_of_get (hinv.waiting.get_key (hsame.trans he) (by simp [hr])))
        have hlater : ¬e.readyAt ≤ now := not_le.mpr hwaits
        rw [map_some, decide_eq_false hlater]
        congr 1
        cases e
        cases hr
        rfl
  · rw [hready, he, map_some, decide_eq_true hdue, Bool.or_true]

/-! ### The choice of a pop -/

/-- What `pop_newest_ready` does with a queue whose due entries are marked: it takes the first ready retry,
unless it is the turn of the newest ready fresh entry. -/
inductive Chosen (q : PendingHashQueue) : PendingHashQueue → Option QueuedHash → Prop where
  | nothing (hnone : ∀ h e, q.entries.get h = some e → e.ready = false) :
      Chosen q { q with freshDispatches := min (q.freshDispatches + 1) 255 } none
  | retry {h e} (he : q.entries.get h = some e) (hready : e.ready = true)
      (hretry : e.isRetry = true)
      (hleast : ∀ h' e', q.entries.get h' = some e' → e'.ready = true → e'.isRetry = true →
        e.readyKey ≤ e'.readyKey) :
      Chosen q ({ q with freshDispatches := 0 }.remove h).1 (some e)
  | fresh {h e} (he : q.entries.get h = some e) (hready : e.ready = true)
      (hfresh : e.isRetry = false)
      (hgreatest : ∀ h' e', q.entries.get h' = some e' → e'.ready = true → e'.isRetry = false →
        e'.orderKey ≤ e.orderKey)
      (hturn : q.freshDispatches < 3 ∨
        ∀ h' e', q.entries.get h' = some e' → e'.ready = true → e'.isRetry = false) :
      Chosen q ({ q with freshDispatches := min (q.freshDispatches + 1) 255 }.remove h).1 (some e)

section

variable (hq : Inv capacity n q)
include hq

lemma Inv.ready_of_readyRetry {h : String} (hk : q.readyRetry.get k = some h) :
    ∃ e, q.entries.get h = some e ∧ e.ready = true ∧ e.isRetry = true ∧ k = e.readyKey := by
  obtain ⟨e, he, hready, hkey⟩ := (hq.readyRetry k h).mp hk
  rw [Bool.and_eq_true] at hready
  exact ⟨e, he, hready.1, hready.2, hkey.symm⟩

lemma Inv.ready_of_readyFresh {h : String} (hk : q.readyFresh.get k = some h) :
    ∃ e, q.entries.get h = some e ∧ e.ready = true ∧ e.isRetry = false ∧ k = e.orderKey := by
  obtain ⟨e, he, hready, hkey⟩ := (hq.readyFresh k h).mp hk
  rw [Bool.and_eq_true, Bool.not_eq_true'] at hready
  exact ⟨e, he, hready.1, hready.2, hkey.symm⟩

lemma Inv.mem_readyRetry {h : String} {e : QueuedHash} (he : q.entries.get h = some e)
    (hready : e.ready = true) (hretry : e.isRetry = true) : e.readyKey ∈ q.readyRetry.keys :=
  mem_keys_of_get (hq.readyRetry.get_key he (by rw [hready, hretry]; rfl))

lemma Inv.mem_readyFresh {h : String} {e : QueuedHash} (he : q.entries.get h = some e)
    (hready : e.ready = true) (hfresh : e.isRetry = false) : e.orderKey ∈ q.readyFresh.keys :=
  mem_keys_of_get (hq.readyFresh.get_key he (by rw [hready, hfresh]; rfl))

lemma Inv.popChoice_chosen : Chosen q q.popChoice.1 q.popChoice.2 := by
  unfold PendingHashQueue.popChoice
  split_ifs with hretry
  · dsimp only
    cases hfirst : q.readyRetry.first with
    | none =>
      refine absurd ?_ hretry.1
      rw [FiniteMap.len, first_eq_none_iff.mp hfirst, Finset.card_empty]
    | some x =>
      obtain ⟨hkey, hleast⟩ := first_eq_some_iff.mp hfirst
      obtain ⟨e, he, hready, hre, hk⟩ := hq.ready_of_readyRetry hkey
      dsimp only
      rw [remove_snd]
      rw [he]
      refine .retry he hready hre fun h' e' he' hready' hretry' => ?_
      rw [← hk]
      exact hleast _ (hq.mem_readyRetry he' hready' hretry')
  · dsimp only
    rw [not_and_or, not_not, not_or, not_le] at hretry
    have hnoRetry : q.readyRetry.len = 0 →
        ∀ h e, q.entries.get h = some e → e.ready = true → e.isRetry = false := by
      intro hzero h e he hready
      refine Bool.eq_false_iff.mpr fun hre => ?_
      obtain ⟨name, hname⟩ := mem_keys.mp (hq.mem_readyRetry he hready hre)
      rw [len_eq_zero.mp hzero] at hname
      cases hname
    cases hlast : q.readyFresh.last with
    | none =>
      have hempty := last_eq_none_iff.mp hlast
      have hzero : q.readyFresh.len = 0 := by rw [FiniteMap.len, hempty, Finset.card_empty]
      refine .nothing fun h e he => Bool.eq_false_iff.mpr fun hready => ?_
      have hfresh := hnoRetry (hretry.resolve_right fun hturn => hturn.2 hzero) h e he hready
      have hmem := hq.mem_readyFresh he hready hfresh
      rw [hempty] at hmem
      exact absurd hmem (Finset.notMem_empty _)
    | some x =>
      obtain ⟨hkey, hgreatest⟩ := last_eq_some_iff.mp hlast
      obtain ⟨e, he, hready, hfresh, hk⟩ := hq.ready_of_readyFresh hkey
      dsimp only
      rw [remove_snd]
      rw [he]
      refine .fresh he hready hfresh (fun h' e' he' hready' hfresh' => ?_) (hretry.symm.imp And.left hnoRetry)
      rw [← hk]
      exact hgreatest _ (hq.mem_readyFresh he' hready' hfresh')

end

/-! ### Where entries come from -/

end PendingHashQueue

def QueueOp.now? : QueueOp → Option Instant
  | .push _ now => some now
  | .promoteReady now => some now
  | .expire now => some now
  | .popNewestReady now => some now
  | _ => none

namespace PendingHashQueue

/-- An entry under `h` after a call: one that was there, one that became due, or one that the call made from an
event or for a retry, with a new number. -/
inductive Stems (q : PendingHashQueue) (op : QueueOp) (h : String) : QueuedHash → Prop where
  | kept {e} (he : q.entries.get h = some e) : Stems q op h e
  | promoted {e now} (he : q.entries.get h = some e) (hnow : op.now? = some now)
      (hdue : e.readyAt ≤ now) : Stems q op h { e with ready := true }
  | pushed (event : HashDiscovered) (now : Instant) (orderKey : Instant ×ₗ ℕ) :
      Stems q op h { q.freshEntry event now with orderKey }
  | updated {e} (he : q.entries.get h = some e) (event : HashDiscovered) (orderKey : Instant ×ₗ ℕ) :
      Stems q op h { q.updatedEntry e event with orderKey }
  | deferred (e : QueuedHash) (record : RetryRecord) (orderKey : Instant ×ₗ ℕ) :
      Stems q op h { deferredEntry e record with orderKey }

variable {capacity n : ℕ} {q q' : PendingHashQueue} {now : Instant} {op : QueueOp} {h : String} {e : QueuedHash}

lemma get_of_get_remove {name : String} (he : (q.remove name).1.entries.get h = some e) :
    q.entries.get h = some e := by
  rw [remove_fst_entries] at he
  exact (get_of_get_erase he).2

lemma get_of_get_insert {new : QueuedHash} (he : (q.insert new).entries.get h = some e) :
    (h = new.infoHash ∧ e = q.numbered new) ∨ q.entries.get h = some e := by
  change (q.entries.insert new.infoHash (q.numbered new)).get h = some e at he
  rw [get_insert] at he
  split_ifs at he with hh
  · exact .inl ⟨hh, (some_inj.mp he).symm⟩
  · exact .inr he

lemma updatedEntry_readyAt (q : PendingHashQueue) (e : QueuedHash) (event : HashDiscovered) :
    (q.updatedEntry e event).readyAt = e.readyAt := by
  dsimp only [updatedEntry]
  split_ifs <;> rfl

lemma updatedEntry_ready (q : PendingHashQueue) (e : QueuedHash) (event : HashDiscovered) :
    (q.updatedEntry e event).ready = e.ready := by
  dsimp only [updatedEntry]
  split_ifs <;> rfl

variable {event : HashDiscovered}

lemma PushStep.stems (hs : PushStep q event now q' kind)
    (hname : ∀ h e, q.entries.get h = some e → e.infoHash = h) (he : q'.entries.get h = some e) :
    Stems q op h e := by
  cases hs with
  | stale => exact .kept he
  | updated hold =>
    rcases get_of_get_insert he with ⟨rfl, rfl⟩ | hrest
    · refine .updated ?_ event _
      rw [updatedEntry_infoHash, hname _ _ hold, hold]
    · exact .kept (get_of_get_remove hrest)
  | inserted =>
    rcases get_of_get_insert he with ⟨rfl, rfl⟩ | hrest
    · exact .pushed event now _
    · exact .kept hrest
  | evicted =>
    rcases get_of_get_insert he with ⟨rfl, rfl⟩ | hrest
    · exact .pushed event now _
    · exact .kept (get_of_get_remove hrest)

lemma Promoted.stems {left : PendingHashQueue} (hp : Promoted now left q')
    (hleft : ∀ e, left.entries.get h = some e → q.entries.get h = some e) (hnow : op.now? = some now)
    (he : q'.entries.get h = some e) : Stems q op h e := by
  rcases hp h with hsame | ⟨old, hold, hdue, hready⟩
  · exact .kept (hleft e (hsame ▸ he))
  · cases hready.symm.trans he
    exact .promoted (hleft old hold) hnow hdue

lemma Inv.expire_kept (hq : Inv capacity n q) (he : (q.expire now).1.entries.get h = some e) :
    q.entries.get h = some e := by
  rw [hq.expire_entries, filter_eq_some_iff] at he
  exact he.1

lemma Chosen.kept {found : Option QueuedHash} (hc : Chosen q q' found) (he : q'.entries.get h = some e) :
    q.entries.get h = some e := by
  cases hc with
  | nothing => exact he
  | retry => exact get_of_get_remove (q := { q with freshDispatches := 0 }) he
  | fresh => exact get_of_get_remove (q := { q with freshDispatches := min (q.freshDispatches + 1) 255 }) he

lemma Inv.call_stems (hq : Inv capacity n q) {k : ℕ} (hop : q.call op = .ok (q', k))
    (he : q'.entries.get h = some e) : Stems q op h e := by
  cases op with
  | push event now =>
    obtain ⟨⟨queue, kind⟩, hpush, hok⟩ := bind_eq_ok.mp hop
    cases hok
    obtain ⟨queue', kind', hok, hs⟩ := hq.push_ok event now
    cases hpush.symm.trans hok
    exact hs.stems hq.name he
  | defer entry record =>
    cases hop
    rcases defer_cases q entry record with hd | ⟨hd, -, -⟩
    · rw [hd] at he
      exact .kept (get_of_get_remove he)
    · rw [hd] at he
      rcases get_of_get_insert he with ⟨rfl, rfl⟩ | hrest
      · exact .deferred entry record _
      · exact .kept (get_of_get_remove hrest)
  | remove hash =>
    cases hop
    exact .kept (get_of_get_remove he)
  | promoteReady now =>
    obtain ⟨queue, hqueue, hok⟩ := bind_eq_ok.mp hop
    cases hok
    exact ((hq.promoteReady_promoted now).of_ok hqueue).stems (fun _ => id) rfl he
  | expire now =>
    cases hop
    exact .kept (hq.expire_kept he)
  | popNewestReady now =>
    obtain ⟨⟨queue, found⟩, hpop, hok⟩ := bind_eq_ok.mp hop
    cases hok
    obtain ⟨ready, hready, hchoice⟩ := bind_eq_ok.mp hpop
    have hpromoted := ((hq.expire now).promoteReady_promoted now).of_ok hready
    have hchosen := (((hq.expire now).promoteReady now).of_ok hready).1.popChoice_chosen
    rw [ok.inj hchoice] at hchosen
    exact hpromoted.stems (fun _ => hq.expire_kept) rfl (hchosen.kept he)

/-! ### Numbers that come around -/

lemma remove_insert (hname : q.entries.get entry.infoHash = none)
    (hready : entry.ready = false) (hretry : entry.isRetry = false)
    (hkeys : ∀ index ∈ [q.expiry, q.retryExpiry, q.waiting, q.readyFresh, q.readyRetry], ∀ key ∈ index.keys, (ofLex key).2 ≠ wrappingSucc q.sequence) :
    (q.insert entry).remove entry.infoHash =
      ({ q with sequence := wrappingSucc q.sequence }, some (q.numbered entry)) := by
  have hkey : ∀ index ∈ [q.expiry, q.retryExpiry, q.waiting, q.readyFresh, q.readyRetry],
      ∀ time : Instant, index.get (toLex (time, wrappingSucc q.sequence)) = none := by
    intro index hindex time
    exact notMem_keys.mp fun hmem => hkeys index hindex _ hmem rfl
  have hentry : (q.insert entry).entries.get entry.infoHash = some (q.numbered entry) := get_insert_self _ _ _
  unfold PendingHashQueue.remove
  rw [hentry]
  dsimp only [PendingHashQueue.insert]
  simp only [hready, hretry, Bool.and_false, Bool.and_true, Bool.not_false, Bool.false_eq_true, if_false]
  refine Prod.ext ?_ rfl
  dsimp only
  congr 1
  · rw [erase_insert_self, erase_of_get_none hname]
  · refine (erase_insert_self _ _ _).trans (erase_of_get_none (hkey _ (by simp) _))
  · refine (erase_insert_self _ _ _).trans (erase_of_get_none (hkey _ (by simp) _))
  · exact erase_of_get_none (hkey _ (by simp) _)
  · exact erase_of_get_none (hkey _ (by simp) _)
  · exact erase_of_get_none (hkey _ (by simp) _)

lemma push_new (hlive : now - event.discoveredAt ≤ q.ttl) (hname : q.entries.get event.infoHash = none)
    (hroom : q.entries.len < q.capacity) :
    q.push event now = .ok (q.insert (q.freshEntry event now), .inserted) := by
  have hremove : q.remove event.infoHash = (q, none) :=
    Prod.ext (remove_none hname) ((remove_snd q _).trans hname)
  unfold PendingHashQueue.push
  rw [if_neg (not_lt.mpr hlive), hremove]
  rw [if_pos hroom]

lemma push_again (hpeer : event.peerAddr = none) (hnode : event.sourceNode = none)
    (hlive : now - event.discoveredAt ≤ q.ttl) (hname : q.entries.get event.infoHash = none)
    (hkeys : ∀ index ∈ [q.expiry, q.retryExpiry, q.waiting, q.readyFresh, q.readyRetry], ∀ key ∈ index.keys, (ofLex key).2 ≠ wrappingSucc q.sequence) :
    (q.insert (q.freshEntry event now)).push event now =
      .ok ({ q with sequence := wrappingSucc q.sequence }.insert (q.freshEntry event now), .updated) := by
  have hremove : (q.insert (q.freshEntry event now)).remove event.infoHash =
      ({ q with sequence := wrappingSucc q.sequence }, some (q.numbered (q.freshEntry event now))) :=
    remove_insert (show q.entries.get (q.freshEntry event now).infoHash = none from hname) rfl rfl hkeys
  have hsame : (q.insert (q.freshEntry event now)).updatedEntry (q.numbered (q.freshEntry event now)) event =
      q.numbered (q.freshEntry event now) := by
    simp only [updatedEntry, numbered, freshEntry, mergeCandidate, hpeer, hnode, PendingHashQueue.insert, max_self,
      Bool.false_eq_true, if_false]
    congr 1
    split_ifs <;> rfl
  have hfresh : ¬now - event.discoveredAt > (q.insert (q.freshEntry event now)).ttl := not_lt.mpr hlive
  unfold PendingHashQueue.push
  rw [if_neg hfresh, hremove]
  dsimp only
  rw [hsame]
  rfl

end PendingHashQueue

end DhtCrawler
