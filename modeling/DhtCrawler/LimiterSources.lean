import DhtCrawler.LibExpiry
import DhtCrawler.LibWindow
import DhtCrawler.LimiterConformance

/-! The windows of the sources of a worker's response limiter. -/

namespace DhtCrawler.WorkerResponseLimiter

open FiniteMap

variable {l l' : WorkerResponseLimiter} {addr : SocketAddr} {now : Instant}

/-! ### The cleanup -/

def Stale (now : Instant) (entry : SourceResponseWindow) : Prop := entry.lastSeen + secs 60 ≤ now

lemma expireEntries_eq (sources : FiniteMap SocketAddr SourceResponseWindow) (expiry : List (Instant × SocketAddr)) :
    expireEntries now sources expiry =
      Expiry.sweep (fun _ entry => now - entry.lastSeen ≥ secs 60) now sources expiry := by
  induction expiry generalizing sources with
  | nil => rfl
  | cons record rest ih =>
    unfold expireEntries Expiry.sweep
    by_cases hlive : record.1 > now
    · rw [if_pos hlive, if_neg (not_le.mpr hlive)]
    · rw [if_neg hlive, if_pos (not_lt.mp hlive), ← ih]
      cases sources.get record.2 with
      | none => rfl
      | some entry =>
        dsimp only [Option.any_some]
        simp only [decide_eq_true_eq]
        split_ifs <;> rfl

variable {entry : SourceResponseWindow} {request : ResponseRequest}

lemma stale_iff : now - entry.lastSeen ≥ secs 60 ↔ Stale now entry := by
  have harith (now seen : ℕ) : now - seen ≥ 60 * 1000000000 ↔ seen + 60 * 1000000000 ≤ now := by omega
  exact harith now entry.lastSeen

/-! ### A call -/

def windowAt (entry : Option SourceResponseWindow) (now : Instant) : Instant × ℕ :=
  match entry with
  | none => (now, 0)
  | some entry => if now - entry.startedAt ≥ secs 1 then (now, 0) else (entry.startedAt, entry.count)

def permitted (l : WorkerResponseLimiter) (addr : SocketAddr) (now : Instant) : WorkerResponseLimiter :=
  let (startedAt, count) := windowAt (l.sources.get addr) now
  { l with
    sources := l.sources.insert addr ⟨startedAt, now, count + 1⟩
    sourceExpiry := l.sourceExpiry ++ [(now + secs 60, addr)] }

lemma acquireSourceSlot_eq (l : WorkerResponseLimiter) (addr : SocketAddr) (now : Instant) :
    l.acquireSourceSlot addr now =
      if (windowAt (l.sources.get addr) now).2 < l.perSourceRate then (l.permitted addr now, true) else (l, false) := by
  by_cases hzero : l.perSourceRate = 0
  · simp [acquireSourceSlot, hzero]
  · have hpos : 0 < l.perSourceRate := Nat.pos_of_ne_zero hzero
    cases hget : l.sources.get addr with
    | none => simp [acquireSourceSlot, permitted, windowAt, hget, hzero, hpos, secs]
    | some entry =>
      by_cases hover : now - entry.startedAt ≥ secs 1
      · simp [acquireSourceSlot, permitted, windowAt, hget, hzero, hpos, hover]
      · by_cases hroom : entry.count < l.perSourceRate
        · simp [acquireSourceSlot, permitted, windowAt, hget, hzero, hover, hroom, Nat.not_le.mpr hroom]
        · simp [acquireSourceSlot, windowAt, hget, hzero, hover, hroom, Nat.not_lt.mp hroom, insert_get_self hget]

/-- What a call does to the sources: after the cleanup the source gets a permit, or nothing else changes. -/
inductive SourceStep (l : WorkerResponseLimiter) (addr : SocketAddr) (now : Instant) :
    WorkerResponseLimiter → ResponsePermit → Prop where
  | rejected {l' : WorkerResponseLimiter} (hrate : l'.perSourceRate = l.perSourceRate)
      (hsources : l'.sources = (l.expireSources now).sources)
      (hexpiry : l'.sourceExpiry = (l.expireSources now).sourceExpiry) : SourceStep l addr now l' .rejected
  | granted {l' : WorkerResponseLimiter} {permit : ResponsePermit} (hpermit : permit ≠ .rejected)
      (hrate : l'.perSourceRate = l.perSourceRate)
      (hroom : (windowAt ((l.expireSources now).sources.get addr) now).2 < l.perSourceRate)
      (hsources : l'.sources = ((l.expireSources now).permitted addr now).sources)
      (hexpiry : l'.sourceExpiry = ((l.expireSources now).permitted addr now).sourceExpiry) :
      SourceStep l addr now l' permit

lemma acquire_sourceStep (l : WorkerResponseLimiter) (addr : SocketAddr) (encodedLen : ℕ) (isPriority : Bool)
    (now : Instant) :
    SourceStep l addr now (l.acquire addr encodedLen isPriority now).1 (l.acquire addr encodedLen isPriority now).2 := by
  have hrate : (l.expireSources now).perSourceRate = l.perSourceRate := rfl
  unfold acquire
  dsimp only
  rcases takeBudget (l.expireSources now).regularPackets (l.expireSources now).regularBytes encodedLen now with
    ⟨regularPackets, regularBytes, _ | _⟩
  · unfold acquireReserve
    dsimp only
    split_ifs
    · rcases takeBudget (l.expireSources now).priorityPackets (l.expireSources now).priorityBytes encodedLen now with
        ⟨priorityPackets, priorityBytes, _ | _⟩
      · exact .rejected rfl rfl rfl
      · dsimp only
        rw [acquireSourceSlot_eq]
        split_ifs with hroom
        · exact .granted nofun rfl hroom rfl rfl
        · exact .rejected rfl rfl rfl
    · exact .rejected rfl rfl rfl
  · dsimp only
    rw [acquireSourceSlot_eq]
    split_ifs with hroom
    · exact .granted nofun rfl hroom rfl rfl
    · exact .rejected rfl rfl rfl

/-! ### Runs -/

def permitTimes (addr : SocketAddr) (log : List Answered) : List Instant :=
  log.filterMap fun a => if a.permit ≠ .rejected ∧ a.request.addr = addr then some a.request.now else none

lemma permitTimes_cons (addr : SocketAddr) (a : Answered) (log : List Answered) :
    permitTimes addr (a :: log) = if a.permit ≠ .rejected ∧ a.request.addr = addr then
      a.request.now :: permitTimes addr log else permitTimes addr log := by
  rw [permitTimes, List.filterMap_cons]
  split_ifs
  · rfl
  · rfl

def Knows (rate : ℕ) (now : Instant) (times : List Instant) : Option SourceResponseWindow → Prop
  | none => (∀ t ∈ times, t + secs 60 ≤ now) ∧
      (times = [] ∨ ∃ start count, Window.Running (secs 1) rate times start count)
  | some entry => (entry.lastSeen ∈ times ∧ ∀ t ∈ times, t ≤ entry.lastSeen) ∧ entry.startedAt ≤ entry.lastSeen ∧
      Window.Running (secs 1) rate times entry.startedAt entry.count

/-- The sources of a limiter after the calls of a log, none of them after `now`. -/
structure Tracks (rate : ℕ) (log : List Answered) (now : Instant) (l : WorkerResponseLimiter) : Prop where
  rate_eq : l.perSourceRate = rate
  sorted : l.sourceExpiry.Pairwise fun a b => a.1 ≤ b.1
  deadline_le : ∀ record ∈ l.sourceExpiry, record.1 ≤ now + secs 60
  past : ∀ addr, ∀ t ∈ permitTimes addr log, t ≤ now
  knows : ∀ addr, Knows rate now (permitTimes addr log) (l.sources.get addr)
  recorded : ∀ addr entry, l.sources.get addr = some entry → (entry.lastSeen + secs 60, addr) ∈ l.sourceExpiry

variable {rate : ℕ} {log : List Answered} {times : List Instant}

lemma Tracks.later (h : Tracks rate log now l) {later : Instant} (hlater : now ≤ later) :
    Tracks rate log later l := by
  refine ⟨h.rate_eq, h.sorted, fun record hmem => (h.deadline_le record hmem).trans (Nat.add_le_add_right hlater _),
    fun addr t ht => (h.past addr t ht).trans hlater, fun addr => ?_, h.recorded⟩
  have hknows := h.knows addr
  cases hget : l.sources.get addr with
  | none =>
    rw [hget] at hknows
    exact ⟨fun t ht => (hknows.1 t ht).trans hlater, hknows.2⟩
  | some entry =>
    rw [hget] at hknows
    exact hknows

lemma Tracks.get_expireSources (h : Tracks rate log now l) {addr : SocketAddr} :
    (l.expireSources now).sources.get addr = some entry ↔ l.sources.get addr = some entry ∧ ¬ Stale now entry := by
  unfold WorkerResponseLimiter.expireSources
  rw [expireEntries_eq]
  refine (Expiry.sweep_get l.sources h.sorted).trans (and_congr_right fun hentry => ?_)
  simp only [decide_eq_false_iff_not, stale_iff]
  refine ⟨fun hkept hstale => ?_, fun hfresh _ _ _ _ => hfresh⟩
  exact hkept _ (h.recorded addr entry hentry) rfl hstale hstale

lemma Tracks.expireSources (h : Tracks rate log now l) : Tracks rate log now (l.expireSources now) := by
  have hexpiry : (l.expireSources now).sourceExpiry = l.sourceExpiry.filter fun record => now < record.1 := by
    unfold WorkerResponseLimiter.expireSources
    rw [expireEntries_eq]
    exact Expiry.sweep_queue l.sources h.sorted
  refine ⟨h.rate_eq, ?_, ?_, h.past, fun addr => ?_, fun addr entry hentry => ?_⟩
  · rw [hexpiry]
    exact h.sorted.sublist List.filter_sublist
  · rw [hexpiry]
    exact fun record hmem => h.deadline_le record (List.mem_of_mem_filter hmem)
  · have hknows := h.knows addr
    cases hafter : (l.expireSources now).sources.get addr with
    | some entry => rwa [(h.get_expireSources.mp hafter).1] at hknows
    | none =>
      cases hbefore : l.sources.get addr with
      | none => rwa [hbefore] at hknows
      | some entry =>
        rw [hbefore] at hknows
        have hstale : Stale now entry := by
          by_contra hfresh
          exact absurd (hafter.symm.trans (h.get_expireSources.mpr ⟨hbefore, hfresh⟩)) (by simp)
        refine ⟨fun t ht => ?_, .inr ⟨_, _, hknows.2.2⟩⟩
        exact (Nat.add_le_add_right (hknows.1.2 t ht) _).trans hstale
  · obtain ⟨hbefore, hfresh⟩ := h.get_expireSources.mp hentry
    rw [hexpiry, List.mem_filter]
    exact ⟨h.recorded addr entry hbefore, by simpa [Stale] using hfresh⟩

lemma Knows.permit {entry : Option SourceResponseWindow} (h : Knows rate now times entry)
    (hpast : ∀ t ∈ times, t ≤ now) (hroom : (windowAt entry now).2 < rate) :
    (windowAt entry now).1 ≤ now ∧
      Window.Running (secs 1) rate (now :: times) (windowAt entry now).1 ((windowAt entry now).2 + 1) := by
  have hspan : 0 < secs 1 := by decide
  have hminute : secs 1 ≤ secs 60 := by decide
  cases entry with
  | none =>
    obtain ⟨hold, rfl | ⟨start, count, hrunning⟩⟩ := h
    · exact ⟨le_rfl, Window.running_single hspan hroom now⟩
    · have hstart := hold start (Window.mem_of_mem_starts hrunning.start_mem)
      exact ⟨le_rfl, hrunning.reopen hspan hroom ((Nat.add_le_add_left hminute _).trans hstart)⟩
  | some entry =>
    obtain ⟨⟨hlast, -⟩, hle, hrunning⟩ := h
    have hstart : entry.startedAt ≤ now := hle.trans (hpast _ hlast)
    by_cases hover : now - entry.startedAt ≥ secs 1
    · simp only [windowAt, if_pos hover] at hroom ⊢
      refine ⟨le_rfl, hrunning.reopen hspan hroom ?_⟩
      rw [Nat.add_comm]
      exact (Nat.le_sub_iff_add_le hstart).mp hover
    · simp only [windowAt, if_neg hover] at hroom ⊢
      refine ⟨hstart, hrunning.extend hroom hstart ?_⟩
      rw [Nat.add_comm]
      exact (Nat.sub_lt_iff_lt_add hstart).mp (not_le.mp hover)

lemma Tracks.step {permit : ResponsePermit} (h : Tracks rate log request.now l)
    (hstep : SourceStep l request.addr request.now l' permit) :
    Tracks rate (⟨request, permit⟩ :: log) request.now l' := by
  have hclean := h.expireSources
  cases hstep with
  | rejected hrate hsources hexpiry =>
    have htimes (addr : SocketAddr) : permitTimes addr (⟨request, .rejected⟩ :: log) = permitTimes addr log := by
      simp [permitTimes_cons]
    refine ⟨hrate.trans h.rate_eq, ?_, ?_, fun addr => ?_, fun addr => ?_, ?_⟩
    · rw [hexpiry]
      exact hclean.sorted
    · rw [hexpiry]
      exact hclean.deadline_le
    · rw [htimes]
      exact h.past addr
    · rw [htimes, hsources]
      exact hclean.knows addr
    · rw [hsources, hexpiry]
      exact hclean.recorded
  | granted hpermit hrate hroom hsources hexpiry =>
    have hexpiry : l'.sourceExpiry = (l.expireSources request.now).sourceExpiry ++
        [(request.now + secs 60, request.addr)] := hexpiry
    have hpast (addr : SocketAddr) : ∀ t ∈ permitTimes addr (⟨request, permit⟩ :: log), t ≤ request.now := by
      intro t ht
      rw [permitTimes_cons] at ht
      split_ifs at ht
      · rcases List.mem_cons.mp ht with rfl | ht
        · exact le_rfl
        · exact h.past addr t ht
      · exact h.past addr t ht
    refine ⟨hrate.trans h.rate_eq, ?_, ?_, hpast, fun addr => ?_, fun addr entry hentry => ?_⟩
    · rw [hexpiry]
      exact Expiry.Sorted.append hclean.sorted hclean.deadline_le request.addr
    · rw [hexpiry]
      exact List.forall_mem_append.mpr ⟨hclean.deadline_le, List.forall_mem_singleton.mpr le_rfl⟩
    · rw [hsources]
      by_cases hsame : request.addr = addr
      · subst hsame
        obtain ⟨hstart, hrunning⟩ := (hclean.knows request.addr).permit (h.past request.addr) (h.rate_eq ▸ hroom)
        have htimes : permitTimes request.addr (⟨request, permit⟩ :: log) =
            request.now :: permitTimes request.addr log := by
          simp [permitTimes_cons, hpermit]
        refine (congrArg _ (get_insert_self _ _ _)).mpr ⟨⟨?_, hpast request.addr⟩, hstart, ?_⟩
        · rw [htimes]
          exact List.mem_cons_self
        · rw [htimes]
          exact hrunning
      · have htimes : permitTimes addr (⟨request, permit⟩ :: log) = permitTimes addr log := by
          simp [permitTimes_cons, hsame]
        rw [htimes]
        exact (congrArg _ (get_insert_ne _ (Ne.symm hsame) _)).mpr (hclean.knows addr)
    · rw [hexpiry, List.mem_append]
      rw [hsources] at hentry
      replace hentry := (get_insert _ _ addr _).symm.trans hentry
      split_ifs at hentry with hsame
      · cases hentry
        exact .inr (List.mem_singleton.mpr (by rw [hsame]))
      · exact .inl (hclean.recorded addr entry hentry)

lemma Tracks.fresh {permit : ResponsePermit} (h : Tracks rate log request.now l)
    (hstep : SourceStep l request.addr request.now l' permit) (hentry : l'.sources.get addr = some entry) :
    request.now < entry.lastSeen + secs 60 := by
  have hold (hbefore : (l.expireSources request.now).sources.get addr = some entry) :
      request.now < entry.lastSeen + secs 60 := not_le.mp (h.get_expireSources.mp hbefore).2
  cases hstep with
  | rejected hrate hsources hexpiry =>
    rw [hsources] at hentry
    exact hold hentry
  | granted hpermit hrate hroom hsources hexpiry =>
    rw [hsources] at hentry
    replace hentry := (get_insert _ _ addr _).symm.trans hentry
    split_ifs at hentry
    · cases hentry
      exact Nat.lt_add_of_pos_right (by decide)
    · exact hold hentry

lemma Tracks.answerAll {run : WorkerRun} {requests : List ResponseRequest}
    (h : Tracks rate run.log now run.limiter) (hclock : Clocked now (requests ++ [request])) :
    Tracks rate (run.answerAll requests).log request.now (run.answerAll requests).limiter := by
  induction requests generalizing run now with
  | nil => exact h.later (List.isChain_cons_cons.mp hclock).1
  | cons first requests ih =>
    obtain ⟨hle, hrest⟩ := List.isChain_cons_cons.mp hclock
    exact ih ((h.later hle).step (acquire_sourceStep run.limiter first.addr first.encodedLen first.isPriority _)) hrest

lemma Tracks.limited (h : Tracks rate log now l) (addr : SocketAddr) :
    (∀ s ∈ Window.starts (secs 1) (permitTimes addr log),
      Window.count (permitTimes addr log) s (s + secs 1) ≤ rate) ∧
    (∀ a, Window.count (permitTimes addr log) a (a + secs 1) ≤ 2 * rate) := by
  have hrunning : permitTimes addr log = [] ∨
      ∃ start count, Window.Running (secs 1) rate (permitTimes addr log) start count := by
    have hknows := h.knows addr
    cases hget : l.sources.get addr with
    | none =>
      rw [hget] at hknows
      exact hknows.2
    | some entry =>
      rw [hget] at hknows
      exact .inr ⟨_, _, hknows.2.2⟩
  rcases hrunning with hnone | ⟨start, count, hrunning⟩
  · rw [hnone]
    exact ⟨nofun, fun a => Nat.zero_le _⟩
  · exact ⟨hrunning.windows, hrunning.spread⟩

lemma Tracks.no_permit (h : Tracks 0 log now l) (addr : SocketAddr) : permitTimes addr log = [] := by
  refine List.eq_nil_iff_forall_not_mem.mpr fun t ht => ?_
  have hnone := List.countP_eq_zero.mp (Nat.le_zero.mp ((h.limited addr).2 t)) t ht
  simp [secs] at hnone

/-- A source gets at most `r` permits in a window, at most twice as many in a second, and none if `r` is zero.
-/
theorem sources_limited (l₀ : WorkerResponseLimiter) (hsources : l₀.sources = .empty) (hexpiry : l₀.sourceExpiry = [])
    {startedAt : Instant} {requests : List ResponseRequest} {request : ResponseRequest}
    (hclock : Clocked startedAt (requests ++ [request])) :
    let before := WorkerRun.answerAll ⟨l₀, []⟩ requests
    let after := before.answer request
    (∀ addr, (∀ s ∈ Window.starts (secs 1) (permitTimes addr after.log),
        Window.count (permitTimes addr after.log) s (s + secs 1) ≤ l₀.perSourceRate) ∧
      (∀ a, Window.count (permitTimes addr after.log) a (a + secs 1) ≤ 2 * l₀.perSourceRate) ∧
      (l₀.perSourceRate = 0 → permitTimes addr after.log = [])) ∧
    (∀ addr entry, after.limiter.sources.get addr = some entry →
      entry.lastSeen ∈ permitTimes addr after.log ∧ entry.lastSeen ≤ request.now ∧
      request.now < entry.lastSeen + secs 60 ∧ (entry.lastSeen + secs 60, addr) ∈ after.limiter.sourceExpiry ∧
      entry.startedAt ∈ Window.starts (secs 1) (permitTimes addr after.log) ∧
      Window.count (permitTimes addr after.log) entry.startedAt (entry.startedAt + secs 1) = entry.count) ∧
    ∀ addr entry, before.limiter.sources.get addr = some entry →
      (before.limiter.expireSources request.now).sources.get addr ≠ some entry →
      entry.startedAt + secs 60 ≤ request.now := by
  intro before after
  have hstart : Tracks l₀.perSourceRate (WorkerRun.mk l₀ []).log startedAt (WorkerRun.mk l₀ []).limiter := by
    refine ⟨rfl, ?_, ?_, nofun, fun addr => ?_, ?_⟩
    · simp [hexpiry]
    · simp [hexpiry]
    · rw [hsources, get_empty]
      exact ⟨nofun, .inl rfl⟩
    · simp [hsources, get_empty]
  have hbefore : Tracks l₀.perSourceRate before.log request.now before.limiter :=
    Tracks.answerAll hstart hclock
  have hstep := acquire_sourceStep before.limiter request.addr request.encodedLen request.isPriority request.now
  have hafter : Tracks l₀.perSourceRate after.log request.now after.limiter := hbefore.step hstep
  refine ⟨fun addr => ⟨(hafter.limited addr).1, (hafter.limited addr).2, fun hzero => ?_⟩, fun addr entry hentry => ?_,
    fun addr entry hentry hgone => ?_⟩
  · rw [hzero] at hafter
    exact hafter.no_permit addr
  · have hknows := hafter.knows addr
    rw [hentry] at hknows
    exact ⟨hknows.1.1, hafter.past addr _ hknows.1.1, hbefore.fresh hstep hentry, hafter.recorded addr entry hentry,
      hknows.2.2.start_mem, hknows.2.2.held⟩
  · have hstale : Stale request.now entry := by
      by_contra hfresh
      exact hgone (hbefore.get_expireSources.mpr ⟨hentry, hfresh⟩)
    have hknows := hbefore.knows addr
    rw [hentry] at hknows
    exact (Nat.add_le_add_right hknows.2.1 _).trans hstale

theorem sources_limited_three_requests :
    let addr := SocketAddr.v4 (Vector.replicate 4 9) 6881
    let asked := [⟨addr, 100, false, 0⟩, ⟨addr, 100, false, 500000000⟩]
    let after := (WorkerRun.answerAll ⟨new 10 10000 1 0, []⟩ asked).answer ⟨addr, 100, false, secs 1⟩
    permitTimes addr after.log = [secs 1, 0] ∧ Window.starts (secs 1) [secs 1, 0] = [secs 1, 0] ∧
      (after.limiter.sources.get addr).isSome ∧ Window.count (permitTimes addr after.log) 0 (secs 1) ≤ 1 := by
  intro addr asked after
  have hclock : Clocked 0 (asked ++ [⟨addr, 100, false, secs 1⟩]) := by
    simp [Clocked, asked, secs]
  have h := sources_limited (new 10 10000 1 0) rfl rfl hclock
  exact ⟨by decide +kernel, by decide, by decide +kernel, (h.1 addr).1 0 (by decide +kernel)⟩

end DhtCrawler.WorkerResponseLimiter
