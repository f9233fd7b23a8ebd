import Mathlib.Algebra.Order.BigOperators.Group.List
import DhtCrawler.SnapshotSample

/-! What the three passes over the groups select. -/

namespace DhtCrawler.Sample

open Function List Nat Loop

variable {a b : Sample} {p : Fin 256}

/-! ### Turns -/

def Turns (active : List (Fin 256)) (queues : Fin 256 → List Candidate) : Prop :=
  active.Nodup ∧ ∀ p, p ∈ active ↔ queues p ≠ []

def rejoin (active : List (Fin 256)) (queue : List Candidate) (p : Fin 256) : List (Fin 256) :=
  if 0 < queue.length then active ++ [p] else active

variable {active : List (Fin 256)} {m : Candidate}

lemma mem_rejoin {queue : List Candidate} {p' : Fin 256} :
    p' ∈ rejoin active queue p ↔ p' ∈ active ∨ p' = p ∧ queue ≠ [] := by
  unfold rejoin
  split_ifs with h
  · rw [mem_append, mem_singleton, and_iff_left (ne_nil_of_length_pos h)]
  · refine ⟨.inl, fun h' => h'.resolve_right fun ⟨_, hne⟩ => h ?_⟩
    exact length_pos_iff.mpr hne

lemma nodup_rejoin (hnd : active.Nodup) (hp : p ∉ active) (queue : List Candidate) :
    (rejoin active queue p).Nodup := by
  unfold rejoin
  split_ifs
  · exact nodup_append.mpr ⟨hnd, nodup_singleton p, fun x hx y hy hxy =>
      hp (mem_singleton.mp hy ▸ hxy ▸ hx)⟩
  · exact hnd

lemma Turns.next {queues : Fin 256 → List Candidate} (h : Turns (p :: active) queues)
    (queues' : Fin 256 → List Candidate) (hsame : ∀ p', p' ≠ p → queues' p' = queues p') :
    Turns (rejoin active (queues' p) p) queues' := by
  obtain ⟨hnot, hnd⟩ := nodup_cons.mp h.1
  refine ⟨nodup_rejoin hnd hnot _, fun p' => ?_⟩
  rw [mem_rejoin]
  by_cases hpp : p' = p
  · subst hpp
    exact ⟨fun hp' => hp'.elim (fun hmem => absurd hmem hnot) fun hne => hne.2, fun hne => .inr ⟨rfl, hne⟩⟩
  · have hold := h.2 p'
    rw [mem_cons, or_iff_right hpp] at hold
    rw [hsame p' hpp, ← hold]
    exact ⟨fun hp' => hp'.resolve_right fun hne => hpp hne.1, .inl⟩

lemma size_lt {queues queues' : Fin 256 → List Candidate} (hsame : ∀ p', p' ≠ p → queues' p' = queues p')
    (hlt : (queues' p).length < (queues p).length) : size queues' < size queues := by
  refine sum_lt_sum _ _ (fun p' _ => ?_) ⟨p, mem_idPrefixes p, hlt⟩
  by_cases hpp : p' = p
  · rw [hpp]
    exact hlt.le
  · rw [hsame p' hpp]

/-! ### One turn -/

lemma requeue_eq (a : Sample) (p : Fin 256) :
    a.requeue p = { a with active := rejoin a.active (a.groups p) p } := by
  unfold requeue rejoin
  split_ifs
  · rfl
  · rfl

structure Scanned (p : Fin 256) (a b : Sample) : Prop where
  groups : ∀ p', p' ≠ p → b.groups p' = a.groups p'
  length : (b.groups p).length ≤ (a.groups p).length
  active : b.active = a.active
  output : b.output.length ≤ a.output.length + 1

lemma Scanned.refl (p : Fin 256) (a : Sample) : Scanned p a a :=
  ⟨fun _ _ => rfl, le_refl _, rfl, le_succ _⟩

lemma scan_scanned (p : Fin 256) (n : ℕ) (a : Sample) : Scanned p a (iterate (scanStep p) n a) := by
  induction n generalizing a with
  | zero => exact .refl p a
  | succ n ih =>
    rw [Loop.iterate]
    unfold scanStep
    cases hp : a.groups p with
    | nil => exact .refl p a
    | cons m ms =>
      dsimp only
      have hgroups : ∀ p', p' ≠ p → update a.groups p ms p' = a.groups p' :=
        fun p' hpp => update_of_ne hpp _ _
      split_ifs
      · have hrest := ih { a with
          groups := update a.groups p ms
          deferred := update a.deferred p (a.deferred p ++ [m]) }
        refine ⟨fun p' hpp => (hrest.groups p' hpp).trans (hgroups p' hpp), ?_, hrest.active, hrest.output⟩
        refine hrest.length.trans ?_
        dsimp only
        rw [update_self, hp]
        exact le_succ _
      · refine ⟨hgroups, ?_, rfl, length_append.le⟩
        show (update a.groups p ms p).length ≤ _
        rw [update_self, hp]
        exact le_succ _

lemma scan_length_lt {n : ℕ} (hp : a.groups p ≠ []) :
    ((Loop.iterate (scanStep p) (n + 1) a).groups p).length < (a.groups p).length := by
  obtain ⟨m, ms, hms⟩ := exists_cons_of_ne_nil hp
  rw [Loop.iterate]
  unfold scanStep
  rw [hms]
  dsimp only
  split_ifs
  · have hlen := (scan_scanned p n { a with
      groups := update a.groups p ms
      deferred := update a.deferred p (a.deferred p ++ [m]) }).length
    simp only [update_self] at hlen
    exact lt_succ_of_le hlen
  · show (update a.groups p ms p).length < _
    rw [update_self]
    exact lt_succ_self _

lemma fill_exit (limit : ℕ) (h : Turns a.active a.groups) (hlen : a.output.length ≤ limit) :
    let b := iterate (fillStep limit) (size a.groups + 1) a
    Turns b.active b.groups ∧ b.output.length ≤ limit ∧ (b.output.length < limit → b.active = []) := by
  refine iterate_exit (P := fun b : Sample => Turns b.active b.groups ∧ b.output.length ≤ limit)
    (Q := fun b : Sample => Turns b.active b.groups ∧ b.output.length ≤ limit ∧
      (b.output.length < limit → b.active = [])) (fun b => size b.groups)
    (fun b ⟨hb, hle⟩ => ?_) _ ⟨h, hlen⟩ (lt_succ_self _)
  unfold fillStep
  by_cases hroom : b.output.length < limit
  · rw [if_pos hroom]
    cases hactive : b.active with
    | nil => exact ⟨hb, hle, fun _ => hactive⟩
    | cons p active =>
      rw [hactive] at hb
      have hscan := scan_scanned p ((b.groups p).length + 1) { b with active := active }
      have hlt := scan_length_lt (n := (b.groups p).length)
        (show ({ b with active := active } : Sample).groups p ≠ [] from (hb.2 p).mp mem_cons_self)
      dsimp only
      rw [requeue_eq, hscan.active]
      exact ⟨⟨hb.next _ hscan.groups, hscan.output.trans hroom⟩, size_lt hscan.groups hlt⟩
  · rw [if_neg hroom]
    exact ⟨hb, hle, fun hlt => absurd hlt hroom⟩

lemma Turns.relaxStep (h : Turns a.active a.deferred) (limit : ℕ) :
    Turns (a.relaxStep limit).value.active (a.relaxStep limit).value.deferred := by
  unfold Sample.relaxStep
  split_ifs
  · cases hactive : a.active with
    | nil => exact h
    | cons p active =>
      rw [hactive] at h
      obtain ⟨m, ms, hms⟩ := exists_cons_of_ne_nil ((h.2 p).mp mem_cons_self)
      have hnext := h.next (update a.deferred p ms) fun p' hpp => update_of_ne hpp _ _
      rw [update_self] at hnext
      dsimp only
      rw [hms]
      exact hnext
  · exact h

lemma relax_exit (limit : ℕ) (h : Turns a.active a.deferred) (hlen : a.output.length ≤ limit) :
    let b := iterate (relaxStep limit) (size a.deferred + 1) a
    b.groups = a.groups ∧ b.output.length ≤ limit ∧ (b.output.length < limit → ∀ p, b.deferred p = []) := by
  refine iterate_exit
    (P := fun b : Sample => Turns b.active b.deferred ∧ b.groups = a.groups ∧ b.output.length ≤ limit)
    (Q := fun b : Sample => b.groups = a.groups ∧ b.output.length ≤ limit ∧
      (b.output.length < limit → ∀ p, b.deferred p = [])) (fun b => size b.deferred)
    (fun b ⟨hb, hgroups, hle⟩ => ?_) _ ⟨h, rfl, hlen⟩ (lt_succ_self _)
  unfold relaxStep
  by_cases hroom : b.output.length < limit
  · rw [if_pos hroom]
    cases hactive : b.active with
    | nil =>
      refine ⟨hgroups, hle, fun _ p => ?_⟩
      rw [hactive] at hb
      exact not_not.mp fun hne => not_mem_nil ((hb.2 p).mpr hne)
    | cons p active =>
      rw [hactive] at hb
      obtain ⟨m, ms, hms⟩ := exists_cons_of_ne_nil ((hb.2 p).mp mem_cons_self)
      have hsame : ∀ p', p' ≠ p → update b.deferred p ms p' = b.deferred p' :=
        fun p' hpp => update_of_ne hpp _ _
      have hnext := hb.next (update b.deferred p ms) hsame
      have hlt : (update b.deferred p ms p).length < (b.deferred p).length := by
        rw [update_self, hms]
        exact lt_succ_self _
      dsimp only
      rw [hms]
      rw [update_self] at hnext
      refine ⟨⟨hnext, hgroups, ?_⟩, size_lt hsame hlt⟩
      rw [length_append]
      exact hroom
  · rw [if_neg hroom]
    exact ⟨hgroups, hle, fun hlt => absurd hlt hroom⟩

/-! ### Moves -/

inductive Move (a : Sample) : Sample → Prop where
  | turns (active : List (Fin 256)) : Move a { a with active }
  | publish {p m ms} (hp : a.groups p = m :: ms) :
      Move a (publish { a with groups := update a.groups p ms } p m.node)
  | defer {p m ms} (hp : a.groups p = m :: ms) :
      Move a { a with
        groups := update a.groups p ms
        deferred := update a.deferred p (a.deferred p ++ [m]) }
  | relax {p m ms} (hp : a.deferred p = m :: ms) :
      Move a { a with
        deferred := update a.deferred p ms
        output := a.output ++ [m.node]
        selected := update a.selected p (a.selected p + 1) }

abbrev Moves : Sample → Sample → Prop := Relation.ReflTransGen Move

section

variable (h : Moves a b)
include h

lemma Moves.turns (active : List (Fin 256)) : Moves a { b with active } :=
  h.tail (.turns active)

lemma Moves.requeue (p : Fin 256) : Moves a (b.requeue p) := by
  rw [requeue_eq]
  exact h.turns _

lemma Moves.seedStep (limit : ℕ) (p : Fin 256) : Moves a (b.seedStep limit p) := by
  refine Moves.requeue ?_ p
  unfold seed
  split_ifs
  · cases hp : b.groups p with
    | nil => exact h
    | cons m ms => exact h.tail (.publish hp)
  · exact h

lemma Moves.scanStep (p : Fin 256) : Moves a (b.scanStep p).value := by
  unfold Sample.scanStep
  cases hp : b.groups p with
  | nil => exact h
  | cons m ms =>
    dsimp only
    split_ifs
    · exact h.tail (.defer hp)
    · exact h.tail (.publish hp)

lemma Moves.fillStep (limit : ℕ) : Moves a (b.fillStep limit).value := by
  unfold Sample.fillStep
  split_ifs
  · cases b.active with
    | nil => exact h
    | cons p active => exact (iterate_inv (fun c hc => hc.scanStep p) _ (h.turns active)).requeue p
  · exact h

lemma Moves.relaxStep (limit : ℕ) : Moves a (b.relaxStep limit).value := by
  unfold Sample.relaxStep
  split_ifs
  · cases b.active with
    | nil => exact h
    | cons p active =>
      dsimp only
      cases hp : b.deferred p with
      | nil => exact h
      | cons m ms => exact (h.tail (.relax hp)).tail (.turns _)
  · exact h

lemma Moves.relax (limit : ℕ) (order : List (Fin 256)) : Moves a (b.relax limit order) := by
  unfold Sample.relax
  split_ifs
  · exact iterate_inv (fun c hc => hc.relaxStep limit) _ (h.turns _)
  · exact h

lemma Moves.output : ∃ rest, b.output = a.output ++ rest := by
  induction h with
  | refl => exact ⟨[], (append_nil _).symm⟩
  | tail _ hmove ih =>
    obtain ⟨rest, hrest⟩ := ih
    cases hmove with
    | turns active => exact ⟨rest, hrest⟩
    | publish hp => exact ⟨rest ++ [_], by rw [← append_assoc, ← hrest]; rfl⟩
    | defer hp => exact ⟨rest, hrest⟩
    | relax hp => exact ⟨rest ++ [_], by rw [← append_assoc, ← hrest]⟩

end

/-! ### Conservation -/

def published (a : Sample) (p : Fin 256) : List NodeTuple := a.output.filter fun node => node.firstByte = p

structure Split (groups : Fin 256 → List Candidate) (a : Sample) : Prop where
  perm : ∀ p, (a.published p ++ (a.groups p ++ a.deferred p).map Candidate.node).Perm
    ((groups p).map Candidate.node)
  selected : ∀ p, a.selected p = (a.published p).length

variable {groups : Fin 256 → List Candidate}

lemma split_start (groups : Fin 256 → List Candidate) : Split groups (start groups) :=
  ⟨fun p => by rw [published, start, append_nil]; exact .refl _, fun _ => rfl⟩

lemma published_append (output : List NodeTuple) (node : NodeTuple) (p : Fin 256) :
    ((output ++ [node]).filter fun n => n.firstByte = p) =
      (output.filter fun n => n.firstByte = p) ++ if node.firstByte = p then [node] else [] := by
  rw [filter_append, filter_singleton, Bool.cond_decide]

lemma Split.advance (h : Split groups a) (hbyte : ∀ p, ∀ m ∈ groups p, m.node.firstByte = p)
    (hb : b.output = a.output ++ [m.node]) (hselected : b.selected = update a.selected p (a.selected p + 1))
    (hsame : ∀ p', p' ≠ p → b.groups p' = a.groups p' ∧ b.deferred p' = a.deferred p')
    (hperm : (a.groups p ++ a.deferred p).Perm (m :: (b.groups p ++ b.deferred p))) : Split groups b := by
  have hm : m.node.firstByte = p := by
    have hmem : m.node ∈ (groups p).map Candidate.node := by
      refine (h.perm p).subset (mem_append_right _ (mem_map_of_mem (hperm.mem_iff.mpr ?_)))
      exact mem_cons_self
    obtain ⟨m', hm', hnode⟩ := mem_map.mp hmem
    rw [← hnode]
    exact hbyte p m' hm'
  have hpublished : ∀ p', b.published p' = a.published p' ++ if p' = p then [m.node] else [] := by
    intro p'
    unfold published
    rw [hb, published_append, hm]
    simp only [eq_comm]
  refine ⟨fun p' => ?_, fun p' => ?_⟩
  · rw [hpublished]
    by_cases hpp : p' = p
    · subst hpp
      rw [if_pos rfl, append_assoc]
      refine (Perm.append_left _ ?_).trans (h.perm p')
      exact (hperm.map Candidate.node).symm
    · obtain ⟨hg, hd⟩ := hsame p' hpp
      rw [if_neg hpp, append_nil, hg, hd]
      exact h.perm p'
  · rw [hpublished, hselected]
    by_cases hpp : p' = p
    · subst hpp
      rw [update_self, if_pos rfl, h.selected, length_append, length_singleton]
    · rw [update_of_ne hpp, if_neg hpp, append_nil, h.selected]

lemma Split.move (h : Split groups a) (hbyte : ∀ p, ∀ m ∈ groups p, m.node.firstByte = p)
    (hmove : Move a b) : Split groups b := by
  cases hmove with
  | turns active => exact ⟨h.perm, h.selected⟩
  | @publish p m ms hp =>
    refine h.advance hbyte (p := p) (m := m) rfl rfl (fun p' hpp => ⟨update_of_ne hpp _ _, rfl⟩) ?_
    show (a.groups p ++ a.deferred p).Perm (m :: (update a.groups p ms p ++ a.deferred p))
    rw [update_self, hp]
    exact .refl _
  | @defer p m ms hp =>
    refine ⟨fun p' => (Perm.append_left _ (Perm.map _ ?_)).trans (h.perm p'), h.selected⟩
    by_cases hpp : p' = p
    · subst hpp
      show (update a.groups p' ms p' ++ update a.deferred p' (a.deferred p' ++ [m]) p').Perm _
      rw [update_self, update_self, hp, cons_append, ← append_assoc]
      exact perm_append_singleton m _
    · show (update a.groups p ms p' ++ update a.deferred p (a.deferred p ++ [m]) p').Perm _
      rw [update_of_ne hpp, update_of_ne hpp]
  | @relax p m ms hp =>
    refine h.advance hbyte (p := p) (m := m) rfl rfl (fun p' hpp => ⟨rfl, update_of_ne hpp _ _⟩) ?_
    show (a.groups p ++ a.deferred p).Perm (m :: (a.groups p ++ update a.deferred p ms p))
    rw [update_self, hp]
    exact perm_middle

lemma Moves.split (h : Moves a b) (hbyte : ∀ p, ∀ m ∈ groups p, m.node.firstByte = p)
    (ha : Split groups a) : Split groups b := by
  induction h with
  | refl => exact ha
  | tail _ hmove ih => exact ih.move hbyte hmove

/-! ### Seeds -/

def seeds (groups : Fin 256 → List Candidate) (order : List (Fin 256)) : List NodeTuple :=
  order.filterMap fun p => (groups p).head?.map Candidate.node

lemma seeds_congr {groups' : Fin 256 → List Candidate} {order : List (Fin 256)}
    (h : ∀ p ∈ order, groups' p = groups p) : seeds groups' order = seeds groups order := by
  refine filterMap_congr fun p hp => ?_
  rw [h p hp]

lemma seeds_firstByte {order : List (Fin 256)} (hne : ∀ p ∈ order, groups p ≠ [])
    (hbyte : ∀ p, ∀ m ∈ groups p, m.node.firstByte = p) :
    (seeds groups order).map NodeTuple.firstByte = order := by
  induction order with
  | nil => rfl
  | cons p order ih =>
    obtain ⟨m, ms, hms⟩ := exists_cons_of_ne_nil (hne p mem_cons_self)
    have hm : m.node.firstByte = p := hbyte p m (by rw [hms]; exact mem_cons_self)
    have hrest := ih fun p' hp' => hne p' (mem_cons_of_mem _ hp')
    unfold seeds at hrest ⊢
    rw [filterMap_cons, hms]
    dsimp only [head?_cons, Option.map_some]
    rw [map_cons, hm, hrest]

lemma seedStep_eq {ms : List Candidate} {limit : ℕ} (hroom : a.output.length < limit)
    (hp : a.groups p = m :: ms) :
    a.seedStep limit p = { a with
      groups := update a.groups p ms
      active := rejoin a.active ms p
      subnets := insert (SubnetKey.fromAddr m.node.addr) a.subnets
      output := a.output ++ [m.node]
      selected := update a.selected p (a.selected p + 1) } := by
  unfold seedStep seed
  rw [if_pos hroom, hp]
  rw [requeue_eq]
  unfold publish
  dsimp only
  rw [update_self]

lemma seedStep_full {limit : ℕ} (hfull : ¬a.output.length < limit) :
    a.seedStep limit p = { a with active := rejoin a.active (a.groups p) p } := by
  unfold seedStep seed
  rw [if_neg hfull, requeue_eq]

lemma seeded (limit : ℕ) {order : List (Fin 256)} (hnd : order.Nodup)
    (hne : ∀ p ∈ order, a.groups p ≠ []) (hactive : a.active.Nodup)
    (hturns : ∀ p, p ∈ a.active ↔ p ∉ order ∧ a.groups p ≠ []) (hlen : a.output.length ≤ limit) :
    (order.foldl (seedStep limit) a).output =
        a.output ++ seeds a.groups (order.take (limit - a.output.length)) ∧
      Turns (order.foldl (seedStep limit) a).active (order.foldl (seedStep limit) a).groups := by
  induction order generalizing a with
  | nil =>
    refine ⟨?_, hactive, fun p => ?_⟩
    · rw [take_nil]
      exact (append_nil _).symm
    · rw [foldl_nil, hturns p]
      exact and_iff_right not_mem_nil
  | cons p order ih =>
    obtain ⟨hp, hnd'⟩ := nodup_cons.mp hnd
    have hpa : p ∉ a.active := fun hmem => ((hturns p).mp hmem).1 mem_cons_self
    have hrest : ∀ (ms : List Candidate) (p' : Fin 256), p' ∈ rejoin a.active ms p ↔
        p' ∉ order ∧ update a.groups p ms p' ≠ [] := by
      intro ms p'
      rw [mem_rejoin, hturns p', mem_cons]
      by_cases hpp : p' = p
      · subst hpp
        rw [update_self]
        simp [hp]
      · rw [update_of_ne hpp]
        simp [hpp]
    rw [foldl_cons]
    by_cases hroom : a.output.length < limit
    · obtain ⟨m, ms, hms⟩ := exists_cons_of_ne_nil (hne p mem_cons_self)
      have hsame : ∀ p' ∈ order, update a.groups p ms p' = a.groups p' :=
        fun p' hp' => update_of_ne (fun hpp : p' = p => hp (hpp ▸ hp')) _ _
      have hne' : ∀ p' ∈ order, update a.groups p ms p' ≠ [] := by
        intro p' hp'
        rw [hsame p' hp']
        exact hne p' (mem_cons_of_mem _ hp')
      have hlen' : (a.output ++ [m.node]).length ≤ limit := by
        rw [length_append]
        exact hroom
      rw [seedStep_eq hroom hms]
      obtain ⟨houtput, hfinal⟩ := ih (a := { a with
        groups := update a.groups p ms
        active := rejoin a.active ms p
        subnets := insert (SubnetKey.fromAddr m.node.addr) a.subnets
        output := a.output ++ [m.node]
        selected := update a.selected p (a.selected p + 1) })
        hnd' hne' (nodup_rejoin hactive hpa ms) (hrest ms) hlen'
      refine ⟨?_, hfinal⟩
      obtain ⟨k, hk⟩ := Nat.exists_eq_add_of_lt hroom
      have hleft : limit - a.output.length = k + 1 := by omega
      have hleft' : limit - (a.output ++ [m.node]).length = k := by
        rw [length_append, length_singleton]
        omega
      rw [houtput]
      rw [hleft, hleft', take_succ_cons, seeds_congr fun p' hp' => hsame p' (mem_of_mem_take hp'), append_assoc]
      unfold seeds
      rw [filterMap_cons, hms]
      rfl
    · rw [seedStep_full hroom]
      have hself : update a.groups p (a.groups p) = a.groups := update_eq_self p a.groups
      obtain ⟨houtput, hfinal⟩ := ih (a := { a with active := rejoin a.active (a.groups p) p }) hnd'
        (fun p' hp' => hne p' (mem_cons_of_mem _ hp')) (nodup_rejoin hactive hpa _)
        (fun p' => by rw [hrest, hself]) hlen
      refine ⟨?_, hfinal⟩
      rw [houtput]
      rw [Nat.sub_eq_zero_of_le (Nat.le_of_not_lt hroom), take_zero, take_zero]

/-! ### Subnets -/

def subnet (node : NodeTuple) : SubnetKey := .fromAddr node.addr

structure Filling (seeds : List NodeTuple) (a : Sample) : Prop where
  fresh : ∃ fresh, a.output = seeds ++ fresh ∧ (fresh.map subnet).Nodup ∧
    ∀ node ∈ fresh, subnet node ∉ seeds.map subnet
  taken : ∀ key, key ∈ a.subnets ↔ key ∈ a.output.map subnet
  deferred : ∀ p, ∀ m ∈ a.deferred p, subnet m.node ∈ a.subnets

lemma taken_publish (h : ∀ key, key ∈ a.subnets ↔ key ∈ a.output.map subnet) (p : Fin 256) (node : NodeTuple)
    (key : SubnetKey) : key ∈ (a.publish p node).subnets ↔ key ∈ (a.publish p node).output.map subnet := by
  unfold publish
  rw [Finset.mem_insert, h key, map_append, mem_append, map_singleton, mem_singleton, or_comm]
  rfl

lemma Filling.publish {seeds : List NodeTuple} (h : Filling seeds a) {node : NodeTuple}
    (hnew : subnet node ∉ a.subnets) (p : Fin 256) : Filling seeds (a.publish p node) := by
  obtain ⟨fresh, houtput, hnd, hseeds⟩ := h.fresh
  rw [h.taken, houtput, map_append, mem_append, not_or] at hnew
  refine ⟨⟨fresh ++ [node], ?_, ?_, forall_mem_append.mpr ⟨hseeds, forall_mem_singleton.mpr hnew.1⟩⟩, taken_publish h.taken p node,
    fun p' m hm => Finset.mem_insert_of_mem (h.deferred p' m hm)⟩
  · show a.output ++ [node] = _
    rw [houtput, append_assoc]
  · rw [map_append, map_singleton]
    refine nodup_append.mpr ⟨hnd, nodup_singleton _, fun x hx y hy hxy => hnew.2 ?_⟩
    rwa [← mem_singleton.mp hy, ← hxy]

lemma Filling.scanStep {seeds : List NodeTuple} (h : Filling seeds a) (p : Fin 256) :
    Filling seeds (a.scanStep p).value := by
  unfold Sample.scanStep
  cases hp : a.groups p with
  | nil => exact h
  | cons m ms =>
    dsimp only
    split_ifs with hs
    · refine ⟨h.fresh, h.taken, fun p' m' hm' => ?_⟩
      have hm' : m' ∈ update a.deferred p (a.deferred p ++ [m]) p' := hm'
      by_cases hpp : p' = p
      · subst hpp
        rw [update_self] at hm'
        rcases mem_append.mp hm' with hold | hlast
        · exact h.deferred p' m' hold
        · rw [mem_singleton.mp hlast]
          exact hs
      · rw [update_of_ne hpp] at hm'
        exact h.deferred p' m' hm'
    · have hpop : Filling seeds { a with groups := update a.groups p ms } := { h with }
      exact hpop.publish hs p

lemma Filling.fillStep {seeds : List NodeTuple} (h : Filling seeds a) (limit : ℕ) :
    Filling seeds (a.fillStep limit).value := by
  unfold Sample.fillStep
  split_ifs
  · cases a.active with
    | nil => exact h
    | cons p active =>
      have hscan : Filling seeds (iterate (Sample.scanStep p) ((a.groups p).length + 1)
          { a with active }) := by
        refine iterate_inv (fun c hc => hc.scanStep p) _ ?_
        exact { h with }
      dsimp only
      rw [requeue_eq]
      exact { hscan with }
  · exact h

lemma seeded_filling (limit : ℕ) (order : List (Fin 256)) (groups : Fin 256 → List Candidate) :
    Filling (order.foldl (seedStep limit) (start groups)).output
      (order.foldl (seedStep limit) (start groups)) := by
  have hinv := foldlRecOn order (seedStep limit)
    (motive := fun a => (∀ key, key ∈ a.subnets ↔ key ∈ a.output.map subnet) ∧ ∀ p, a.deferred p = [])
    (b := start groups) ⟨fun key => by simp [start], fun p => rfl⟩ fun a ⟨htaken, hdeferred⟩ p _ => by
      unfold seedStep
      rw [requeue_eq]
      unfold seed
      split_ifs
      · cases a.groups p with
        | nil => exact ⟨htaken, hdeferred⟩
        | cons m ms => exact ⟨taken_publish (a := { a with groups := _ }) htaken p m.node, hdeferred⟩
      · exact ⟨htaken, hdeferred⟩
  refine ⟨⟨[], (append_nil _).symm, nodup_nil, nofun⟩, hinv.1, fun p m hm => ?_⟩
  rw [hinv.2 p] at hm
  cases hm

/-! ### The result -/

/-- The published nodes: the seeds of as many prefixes as there is room for, then nodes of new subnets, and
others only if every subnet is there. -/
structure Selected (limit : ℕ) (order : List (Fin 256)) (groups : Fin 256 → List Candidate) (a : Sample) :
    Prop where
  split : Split groups a
  length : a.output.length ≤ limit
  rest : a.output.length < limit → ∀ p, a.groups p = [] ∧ a.deferred p = []
  output : ∃ fresh relaxed, a.output = seeds groups (order.take limit) ++ fresh ++ relaxed ∧
    (fresh.map subnet).Nodup ∧ (∀ node ∈ fresh, subnet node ∉ (seeds groups (order.take limit)).map subnet) ∧
    (relaxed ≠ [] → ∀ p, ∀ m ∈ groups p, subnet m.node ∈ (seeds groups (order.take limit) ++ fresh).map subnet)

structure Filled (limit : ℕ) (order : List (Fin 256)) (groups : Fin 256 → List Candidate) (a : Sample) :
    Prop where
  split : Split groups a
  length : a.output.length ≤ limit
  exit : a.output.length < limit → a.active = [] ∧ ∀ p, a.groups p = []
  filling : Filling (seeds groups (order.take limit)) a

variable {limit : ℕ} {order : List (Fin 256)}

lemma filled_fill (limit : ℕ) (hnd : order.Nodup) (horder : ∀ p, p ∈ order ↔ groups p ≠ [])
    (hbyte : ∀ p, ∀ m ∈ groups p, m.node.firstByte = p) :
    Filled limit order groups (fill limit order groups) := by
  obtain ⟨hseeds, hturns⟩ := seeded (a := start groups) limit hnd (fun p hp => (horder p).mp hp)
    nodup_nil (fun p => ⟨fun h => (nomatch h), fun h => absurd ((horder p).mpr h.2) h.1⟩) (Nat.zero_le _)
  have hfilling := seeded_filling limit order groups
  have hmoves : Moves (start groups) (order.foldl (seedStep limit) (start groups)) :=
    foldlRecOn order (seedStep limit) .refl fun a ha p _ => ha.seedStep limit p
  unfold fill
  generalize order.foldl (seedStep limit) (start groups) = b at hseeds hturns hfilling hmoves
  have hseeds : b.output = seeds groups (order.take limit) := hseeds
  have hlen : b.output.length ≤ limit := by
    rw [hseeds]
    exact (length_filterMap_le _ _).trans (length_take_le _ _)
  obtain ⟨hturns', hlen', hexit⟩ := fill_exit limit hturns hlen
  dsimp only at hturns' hlen' hexit ⊢
  refine ⟨?_, hlen', fun hroom => ⟨hexit hroom, fun p => ?_⟩, ?_⟩
  · exact (iterate_inv (fun c hc => hc.fillStep limit) _ hmoves).split hbyte (split_start groups)
  · rw [hexit hroom] at hturns'
    exact not_not.mp fun hne => not_mem_nil ((hturns'.2 p).mpr hne)
  · rw [← hseeds]
    exact iterate_inv (fun c hc => hc.fillStep limit) _ hfilling

lemma Filled.turns (h : Filled limit order groups a) (hnd : order.Nodup)
    (horder : ∀ p, p ∈ order ↔ groups p ≠ []) :
    Turns (order.filter fun p => 0 < (a.deferred p).length) a.deferred := by
  refine ⟨hnd.filter _, fun p => ?_⟩
  rw [mem_filter, decide_eq_true_eq, length_pos_iff]
  refine and_iff_right_of_imp fun hne => (horder p).mpr fun hnil => hne ?_
  have hperm := h.split.perm p
  rw [hnil, map_nil, perm_nil, append_eq_nil_iff, map_eq_nil_iff, append_eq_nil_iff] at hperm
  exact hperm.2.2

lemma Filled.covered (h : Filled limit order groups a) (hroom : a.output.length < limit) (hm : m ∈ groups p) :
    subnet m.node ∈ a.output.map subnet := by
  rw [← h.filling.taken]
  have hnode : m.node ∈ a.published p ++ (a.groups p ++ a.deferred p).map Candidate.node :=
    (h.split.perm p).symm.subset (mem_map_of_mem hm)
  rw [(h.exit hroom).2 p, nil_append] at hnode
  rcases mem_append.mp hnode with hpublished | hwaiting
  · exact (h.filling.taken _).mpr (mem_map_of_mem (mem_of_mem_filter hpublished))
  · obtain ⟨m', hm', hsame⟩ := mem_map.mp hwaiting
    rw [← hsame]
    exact h.filling.deferred p m' hm'

lemma Filled.selected (h : Filled limit order groups a) (hnd : order.Nodup)
    (horder : ∀ p, p ∈ order ↔ groups p ≠ []) (hbyte : ∀ p, ∀ m ∈ groups p, m.node.firstByte = p) :
    Selected limit order groups (a.relax limit order) := by
  obtain ⟨fresh, houtput, hfresh, hseeds⟩ := h.filling.fresh
  have hmoves : Moves a (a.relax limit order) := Moves.relax .refl limit order
  obtain ⟨relaxed, hrelaxed⟩ := hmoves.output
  by_cases hroom : a.output.length < limit
  · obtain ⟨hactive, hgroups⟩ := h.exit hroom
    have hsame : a.relax limit order = iterate (relaxStep limit) (size a.deferred + 1)
        { a with active := order.filter fun p => 0 < (a.deferred p).length } := by
      unfold Sample.relax
      rw [if_pos hroom, hactive, nil_append]
    obtain ⟨hgroups', hlen', hdeferred'⟩ :=
      relax_exit (a := { a with active := _ }) limit (h.turns hnd horder) h.length
    rw [← hsame] at hgroups' hlen' hdeferred'
    refine ⟨hmoves.split hbyte h.split, hlen', fun hlt p => ⟨?_, hdeferred' hlt p⟩, fresh, relaxed, ?_, hfresh,
      hseeds, fun _ p m hm => ?_⟩
    · rw [hgroups']
      exact hgroups p
    · rw [hrelaxed, houtput]
    · rw [← houtput]
      exact h.covered hroom hm
  · have hsame : a.relax limit order = a := if_neg hroom
    rw [hsame]
    refine ⟨h.split, h.length, fun hlt => absurd hlt hroom, fresh, [], ?_, hfresh, hseeds,
      fun hne => absurd rfl hne⟩
    rw [append_nil]
    exact houtput

lemma selected_select (limit : ℕ) (hnd : order.Nodup) (horder : ∀ p, p ∈ order ↔ groups p ≠ [])
    (hbyte : ∀ p, ∀ m ∈ groups p, m.node.firstByte = p) :
    Selected limit order groups (select limit order groups) :=
  (filled_fill limit hnd horder hbyte).selected hnd horder hbyte

end DhtCrawler.Sample
