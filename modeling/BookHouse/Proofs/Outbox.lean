/-
What the outbox guarantees, and when.

A row is written by its status only: a claim has no token, a late report cannot be told
from the report of the claim that came after it, an admin's retry writes whatever it finds,
and the limit of the attempts is looked at when a failure is reported.  Under the condition
that these paths are not taken (`orderly`), `outbox_safe` gives everything at once: each
event was allowed by the ones before it, and what was sent in time stays sent.
-/
import BookHouse.Notifications.OutboxDesk
import BookHouse.Lib.Procs

namespace BookHouse

/-! ### What is allowed -/

/-- Every event met a condition on the events before it. -/
def OnEach {α : Type} (P : List α → α → Prop) : List α → Prop
  | [] => True
  | e :: past => P past e ∧ OnEach P past

namespace OutboxEvent

/-- How often a row was handed to the provider since an admin last put it back. -/
def handsSince (id : OutboxId) : List OutboxEvent → ℕ
  | [] => 0
  | .retried r :: past => if r = id then 0 else handsSince id past
  | .handed _ r :: past => (if r = id then 1 else 0) + handsSince id past
  | _ :: past => handsSince id past

/-- A send of the row succeeded, and was reported before the lease of its claim expired. -/
def InTime (id : OutboxId) : List OutboxEvent → Prop
  | [] => False
  | .reported c r true at_ :: past =>
    (r = id ∧ ∃ lease since, .claimed c r lease since ∈ past ∧ at_ < lease) ∨ InTime id past
  | _ :: past => InTime id past

/-- The status of a row, as the moves tell it. -/
def statusIn (id : OutboxId) : List OutboxEvent → OutboxStatus
  | [] => .pending
  | .moved r _ after _ :: past => if r = id then after else statusIn id past
  | _ :: past => statusIn id past

/-- A row moves from the status it has; SENT is final; FAILED and CANCELLED are left by a retry; at most `maxAttempts` times to
the provider between two retries, and never again after a send reported in time; no claim
while another one holds the row and has not reported. -/
def Allowed (past : List OutboxEvent) : OutboxEvent → Prop
  | .moved id before _ cause => before = statusIn id past ∧ before ≠ .sent ∧
    (before = .failed ∨ before = .cancelled → cause = .retry)
  | .handed _ id => handsSince id past < outboxPolicy.maxAttempts ∧ ¬ InTime id past
  | .claimed _ id _ now => ∀ c lease since, .claimed c id lease since ∈ past →
    lease ≤ now ∨ ∃ sent at_, .reported c id sent at_ ∈ past
  | .reported .. | .retried _ => True

/-- The events that neither claim a row, nor hand it over, nor put it back. -/
def quiet : OutboxEvent → Bool
  | .moved .. | .reported .. => true
  | .claimed .. | .handed .. | .retried _ => false

theorem handsSince_quiet {e : OutboxEvent} {past : List OutboxEvent} {id : OutboxId}
    (h : e.quiet = true) : handsSince id (e :: past) = handsSince id past := by
  cases e <;> simp_all [quiet, handsSince]

theorem inTime_sent {c : ClaimId} {r id : OutboxId} {at_ : Instant} {past : List OutboxEvent} :
    InTime id (.reported c r true at_ :: past) ↔
      (r = id ∧ ∃ lease since, .claimed c r lease since ∈ past ∧ at_ < lease) ∨
        InTime id past := Iff.rfl

end OutboxEvent

open OutboxEvent

def OutboxDesk.statusOf (s : OutboxDesk) (id : OutboxId) : OutboxStatus :=
  (s.rows[id]?.map OutboxRow.status).getD .pending

/-- Every change of a status is in the log, everything so far was allowed, and what was sent
in time is SENT. -/
structure OutboxDesk.Safe (s : OutboxDesk) : Prop where
  told : ∀ id, statusIn id s.log = s.statusOf id
  allowed : OnEach Allowed s.log
  sent : ∀ id, InTime id s.log → ∃ r, s.rows[id]? = some r ∧ r.status = .sent

namespace OutboxDesk

variable {s t : OutboxDesk} {c : ClaimId} {d : Delivery} {id : OutboxId} {r : OutboxRow}

/-- No claim of the row came after this one. -/
def lastClaim (s : OutboxDesk) (c : ClaimId) (id : OutboxId) : Bool :=
  (List.range s.deliveries.length).all fun c' =>
    (s.deliveries[c']?).all fun d : Delivery => d.row ≠ id || c' ≤ c

/-- A message goes to the provider only while the row is not SENT, has not been put back
since the claim, and the claim is one of the first `maxAttempts`; a failure that finds the
row SENDING is reported by its last claim; a retry writes a row that is still at rest. -/
def orderly (s : OutboxDesk) : OutboxAction → Bool
  | .hand c => (s.deliveries[c]?).all fun d : Delivery => (s.rows[d.row]?).all fun r : OutboxRow =>
      r.status ≠ .sent && r.retries = d.retries && d.attempts ≤ outboxPolicy.maxAttempts
  | .reportFailure c _ => (s.deliveries[c]?).all fun d : Delivery => (s.rows[d.row]?).all fun r : OutboxRow =>
      r.status ≠ .sending || s.lastClaim c d.row
  | .retryWrite id => (s.rows[id]?).all fun r : OutboxRow => r.status = .failed || r.status = .cancelled
  | _ => true

/-! ### The invariant -/

def retriesOf (s : OutboxDesk) (id : OutboxId) : ℕ := (s.rows[id]?.map OutboxRow.retries).getD 0

def attemptsOf (s : OutboxDesk) (id : OutboxId) : ℕ := (s.rows[id]?.map OutboxRow.attempts).getD 0

/-- A claim of the row since it was last put back. -/
def ofRound (id : OutboxId) (retries : ℕ) (d : Delivery) : Bool := d.row = id && d.retries = retries

/-- What the deliveries and the log say of each other and of the rows. -/
structure Kept (s : OutboxDesk) : Prop where
  known : ∀ (c : ClaimId) (d : Delivery), s.deliveries[c]? = some d →
    d.row < s.rows.length ∧ d.retries ≤ s.retriesOf d.row
  attempts : ∀ id, (s.deliveries.filter (ofRound id (s.retriesOf id))).map (·.attempts) =
    List.range' 1 (s.attemptsOf id)
  hands : ∀ id, handsSince id s.log =
    s.deliveries.countP fun d : Delivery => ofRound id (s.retriesOf id) d && d.handed
  few : ∀ d ∈ s.deliveries, d.handed = true → d.attempts ≤ outboxPolicy.maxAttempts
  unhanded : ∀ d ∈ s.deliveries, d.stage = .claimed → d.handed = false
  /-- who has not reported holds the row, or its lease has expired, or the row is SENT -/
  lease : ∀ (c : ClaimId) (d : Delivery) (r : OutboxRow), s.deliveries[c]? = some d →
    d.stage ≠ .reported → s.rows[d.row]? = some r → r.status = .sent ∨ d.lease ≤ s.now ∨
      r.status = .sending ∧ s.lastClaim c d.row = true ∧ d.lease = r.nextAttemptAt
  claims : ∀ c id lease since, .claimed c id lease since ∈ s.log →
    ∃ d : Delivery, s.deliveries[c]? = some d ∧ d.row = id ∧ d.lease = lease
  reports : ∀ (c : ClaimId) (d : Delivery), s.deliveries[c]? = some d → d.stage = .reported →
    ∃ sent at_, .reported c d.row sent at_ ∈ s.log

structure Sound (s : OutboxDesk) : Prop extends Kept s, Safe s

theorem lastClaim_iff : s.lastClaim c id = true ↔
    ∀ c' d', s.deliveries[c']? = some d' → d'.row = id → c' ≤ c := by
  simp only [lastClaim, List.all_eq_true, List.mem_range, Option.all_eq_true, Bool.or_eq_true,
    decide_eq_true_eq]
  constructor
  · intro h c' d' hd hrow
    have hlt : c' < s.deliveries.length := (List.getElem?_eq_some_iff.mp hd).1
    rcases h c' hlt d' hd with hne | hle
    · exact absurd hrow hne
    · exact hle
  · intro h c' _ d' hd
    by_cases hrow : d'.row = id
    · exact .inr (h c' d' hd hrow)
    · exact .inl hrow

/-! ### What an operation keeps -/

theorem retriesOf_set {r' : OutboxRow} (hr : s.rows[id]? = some r) (h : r'.retries = r.retries)
    (j : OutboxId) : ((s.rows.set id r')[j]?.map OutboxRow.retries).getD 0 = s.retriesOf j := by
  by_cases hj : j = id
  · subst hj
    rw [Procs.get_set_self hr, retriesOf, hr]
    simpa using h
  · rw [Procs.get_set_ne hj, retriesOf]

theorem attemptsOf_set {r' : OutboxRow} (hr : s.rows[id]? = some r) (h : r'.attempts = r.attempts)
    (j : OutboxId) : ((s.rows.set id r')[j]?.map OutboxRow.attempts).getD 0 = s.attemptsOf j := by
  by_cases hj : j = id
  · subst hj
    rw [Procs.get_set_self hr, attemptsOf, hr]
    simpa using h
  · rw [Procs.get_set_ne hj, attemptsOf]

/-- A quiet event. -/
theorem Kept.logged (h : s.Kept) {e : OutboxEvent} (he : e.quiet = true) :
    Kept { s with log := e :: s.log } where
  known := h.known
  attempts := h.attempts
  hands j := by
    rw [handsSince_quiet he]
    exact h.hands j
  few := h.few
  unhanded := h.unhanded
  lease := h.lease
  claims c j lease since hc := by
    rcases List.mem_cons.mp hc with heq | hold
    · rw [← heq] at he
      simp [quiet] at he
    · exact h.claims c j lease since hold
  reports c d hd hrep := by
    obtain ⟨sent, at_, hmem⟩ := h.reports c d hd hrep
    exact ⟨sent, at_, List.mem_cons_of_mem _ hmem⟩

theorem lastClaim_set {q : Delivery} (hd : s.deliveries[c]? = some d) (hrow : q.row = d.row)
    {c' : ClaimId} (ht : t.deliveries = s.deliveries.set c q) :
    t.lastClaim c' id = true ↔ s.lastClaim c' id = true := by
  simp only [lastClaim_iff, ht]
  constructor
  · intro h k x hx hid
    by_cases hk : k = c
    · subst hk
      obtain rfl := Option.some.inj (hd.symm.trans hx)
      exact h k q (Procs.get_set_self hd) (hrow.trans hid)
    · exact h k x (by rw [Procs.get_set_ne hk]; exact hx) hid
  · intro h k x hx hid
    rcases Procs.get_set hd hx with ⟨rfl, rfl⟩ | ⟨-, hold⟩
    · exact h k d hd (hrow.symm.trans hid)
    · exact h k x hold hid

/-- A delivery goes on, and says so in the log or not. -/
theorem Kept.moves (h : s.Kept) (hd : s.deliveries[c]? = some d) (hopen : d.stage ≠ .reported)
    (q : Delivery) (log : List OutboxEvent)
    (hq : q.row = d.row ∧ q.attempts = d.attempts ∧ q.lease = d.lease ∧ q.retries = d.retries)
    (hfew : q.handed = true → q.attempts ≤ outboxPolicy.maxAttempts)
    (hclaimed : q.stage = .claimed → q.handed = false)
    (hrep : q.stage = .reported → ∃ sent at_, .reported c d.row sent at_ ∈ log)
    (hhands : ∀ j, handsSince j log + (if ofRound j (s.retriesOf j) d && d.handed then 1 else 0) =
      handsSince j s.log + (if ofRound j (s.retriesOf j) q && q.handed then 1 else 0))
    (hold : ∀ e ∈ s.log, e ∈ log)
    (hnew : ∀ c id lease since, .claimed c id lease since ∈ log →
      .claimed c id lease since ∈ s.log) :
    Kept { s with deliveries := s.deliveries.set c q, log } where
  known c' d' hd' := by
    rcases Procs.get_set hd hd' with ⟨-, rfl⟩ | ⟨-, hsame⟩
    · rw [hq.1, hq.2.2.2]
      exact h.known c d hd
    · exact h.known c' d' hsame
  attempts j := by
    refine Eq.trans (Procs.filter_map_set hd ?_ hq.2.1) (h.attempts j)
    simp only [ofRound, hq.1, hq.2.2.2]
  hands j := by
    have hcount := Procs.countP_set (q := q) hd fun x : Delivery =>
      ofRound j (s.retriesOf j) x && x.handed
    have hkept := h.hands j
    have hsince := hhands j
    change handsSince j log = (s.deliveries.set c q).countP fun x : Delivery =>
      ofRound j (s.retriesOf j) x && x.handed
    omega
  few := Procs.forall_set h.few hfew
  unhanded := Procs.forall_set h.unhanded hclaimed
  lease c' d' r hd' ho hr := by
    rcases Procs.get_set hd hd' with ⟨rfl, rfl⟩ | ⟨-, hsame⟩
    · rw [hq.1] at hr
      rw [hq.1, hq.2.2.1, lastClaim_set hd hq.1 rfl]
      exact h.lease _ d r hd hopen hr
    · rw [lastClaim_set hd hq.1 rfl]
      exact h.lease c' d' r hsame ho hr
  claims c' j lease since hc := by
    obtain ⟨d', hd', hrow, hlease⟩ := h.claims c' j lease since (hnew _ _ _ _ hc)
    by_cases hk : c' = c
    · subst hk
      obtain rfl := Option.some.inj (hd.symm.trans hd')
      exact ⟨q, Procs.get_set_self hd, hq.1.trans hrow, hq.2.2.1.trans hlease⟩
    · exact ⟨d', by rw [Procs.get_set_ne hk]; exact hd', hrow, hlease⟩
  reports c' d' hd' hs := by
    rcases Procs.get_set hd hd' with ⟨rfl, rfl⟩ | ⟨-, hsame⟩
    · rw [hq.1]
      exact hrep hs
    · obtain ⟨sent, at_, hmem⟩ := h.reports c' d' hsame hs
      exact ⟨sent, at_, hold _ hmem⟩

theorem Kept.staged (h : s.Kept) (hd : s.deliveries[c]? = some d) (hopen : d.stage ≠ .reported)
    {stage : DeliveryStage} (hnew : stage ≠ .claimed)
    (hrep : stage = .reported → ∃ sent at_, .reported c d.row sent at_ ∈ s.log) :
    Kept (s.setStage c d stage) :=
  h.moves hd hopen { d with stage } s.log ⟨rfl, rfl, rfl, rfl⟩
    (h.few d (List.mem_of_getElem? hd)) (fun hc => absurd hc hnew) hrep (fun _ => rfl)
    (fun _ he => he) (fun _ _ _ _ hc => hc)

/-- A row is written, its attempts as they were; the claims that have not reported and whose
lease runs must agree with it. -/
theorem Kept.written (h : s.Kept) {r' : OutboxRow} (hr : s.rows[id]? = some r)
    (hretries : r'.retries = r.retries) (hattempts : r'.attempts = r.attempts)
    (hlease : ∀ c d, s.deliveries[c]? = some d → d.row = id → d.stage ≠ .reported →
      r'.status = .sent ∨ d.lease ≤ s.now ∨
        r'.status = .sending ∧ s.lastClaim c d.row = true ∧ d.lease = r'.nextAttemptAt) :
    Kept { s with rows := s.rows.set id r' } := by
  have hret : ∀ j, retriesOf { s with rows := s.rows.set id r' } j = s.retriesOf j :=
    retriesOf_set hr hretries
  have hatt : ∀ j, attemptsOf { s with rows := s.rows.set id r' } j = s.attemptsOf j :=
    attemptsOf_set hr hattempts
  refine ⟨fun c d hd => ?_, fun j => ?_, fun j => ?_, h.few, h.unhanded, fun c d x hd ho hx => ?_,
    h.claims, h.reports⟩
  · rw [hret, List.length_set]
    exact h.known c d hd
  · rw [hret, hatt]
    exact h.attempts j
  · rw [hret]
    exact h.hands j
  · rcases Procs.get_set hr hx with ⟨hrow, rfl⟩ | ⟨-, hold⟩
    · exact hlease c d hd hrow ho
    · exact h.lease c d x hd ho hold

theorem Kept.enqueued (h : s.Kept) (channel : NotificationChannel) :
    Kept { s with rows := s.rows ++ [{ channel, nextAttemptAt := s.now }] } := by
  have hsame : ∀ f : OutboxRow → ℕ, f { channel, nextAttemptAt := s.now } = 0 → ∀ j : OutboxId,
      (((s.rows ++ [{ channel, nextAttemptAt := s.now }])[j]?).map f).getD 0 =
        ((s.rows[j]?).map f).getD 0 := by
    intro f hf j
    rcases Nat.lt_trichotomy j s.rows.length with hlt | rfl | hgt
    · rw [List.getElem?_append_left hlt]
    · simp [hf]
    · rw [List.getElem?_eq_none hgt.le, List.getElem?_eq_none]
      simpa using Nat.succ_le_of_lt hgt
  have hret := hsame OutboxRow.retries rfl
  have hatt := hsame OutboxRow.attempts rfl
  refine ⟨fun c d hd => ?_, fun j => ?_, fun j => ?_, h.few, h.unhanded, fun c d x hd ho hx => ?_,
    h.claims, h.reports⟩
  · simp only [retriesOf, hret, List.length_append, List.length_singleton]
    exact ⟨Nat.lt_succ_of_lt (h.known c d hd).1, (h.known c d hd).2⟩
  · simp only [retriesOf, attemptsOf, hret, hatt]
    exact h.attempts j
  · simp only [retriesOf, hret]
    exact h.hands j
  · refine h.lease c d x hd ho ?_
    rw [List.getElem?_append_left (h.known c d hd).1] at hx
    exact hx

theorem Kept.ticked (h : s.Kept) (ms : ℕ) : Kept { s with now := s.now + ms } := by
  refine ⟨h.known, h.attempts, h.hands, h.few, h.unhanded, fun c d r hd ho hr => ?_, h.claims,
    h.reports⟩
  rcases h.lease c d r hd ho hr with hsent | hpast | hheld
  · exact .inl hsent
  · exact .inr (.inl (hpast.trans (le_add_of_nonneg_right (Int.natCast_nonneg ms))))
  · exact .inr (.inr hheld)

/-- Before a row is claimed, or put back, no other claim holds it. -/
theorem Kept.lease_le (h : s.Kept) (hd : s.deliveries[c]? = some d) (hopen : d.stage ≠ .reported)
    (hr : s.rows[d.row]? = some r) (hfree : due s.now r = true ∨ r.status = .failed ∨
      r.status = .cancelled) : d.lease ≤ s.now := by
  rcases h.lease c d r hd hopen hr with hsent | hpast | ⟨hsending, -, hlease⟩
  · simp [due, hsent] at hfree
  · exact hpast
  · simp only [due, hsending, Bool.and_eq_true, decide_eq_true_eq] at hfree
    rcases hfree with ⟨-, hle⟩ | hfailed | hcancelled
    · exact hlease.trans_le hle
    · cases hfailed
    · cases hcancelled

/-- A row that was due is claimed. -/
theorem Kept.appended (h : s.Kept) (hr : s.rows[id]? = some r) (hdue : due s.now r = true)
    (row : OutboxRow) (hrow : row.status = .sending ∧ row.attempts = r.attempts + 1 ∧
      row.retries = r.retries)
    (q : Delivery) (hq : q.row = id ∧ q.attempts = r.attempts + 1 ∧ q.lease = row.nextAttemptAt ∧
      q.retries = r.retries ∧ q.handed = false ∧ q.stage = .claimed)
    {e : OutboxEvent} {since : Instant} (he : e.quiet = true)
    (hrows : t.rows = s.rows.set id row) (hdeliveries : t.deliveries = s.deliveries ++ [q])
    (hlog : t.log = .claimed s.deliveries.length id q.lease since :: e :: s.log)
    (hnow : t.now = s.now) : t.Kept := by
  obtain ⟨hsending, hattempts, hretries⟩ := hrow
  obtain ⟨hqrow, hqattempts, hqlease, hqretries, hqhanded, hqstage⟩ := hq
  have hlt : id < s.rows.length := (List.getElem?_eq_some_iff.mp hr).1
  have hret : ∀ j, t.retriesOf j = s.retriesOf j := by
    intro j
    rw [retriesOf, hrows]
    exact retriesOf_set hr hretries j
  have hown : s.retriesOf id = r.retries := by simp [retriesOf, hr]
  refine ⟨fun c d hd => ?_, fun j => ?_, fun j => ?_, ?_, ?_, fun c d x hd ho hx => ?_,
    fun c j lease since' hc => ?_, fun c d hd hs => ?_⟩
  · rw [hret, hrows, List.length_set]
    rw [hdeliveries] at hd
    rcases Procs.get_append hd with ⟨-, rfl⟩ | hold
    · rw [hqrow, hqretries, hown]
      exact ⟨hlt, le_rfl⟩
    · exact h.known c d hold
  · rw [hret, hdeliveries, List.filter_append, List.map_append, h.attempts j]
    by_cases hj : j = id
    · subst hj
      have hmine : ofRound j (s.retriesOf j) q = true := by simp [ofRound, hqrow, hqretries, hown]
      have hbefore : s.attemptsOf j = r.attempts := by simp [attemptsOf, hr]
      have hafter : t.attemptsOf j = r.attempts + 1 := by
        rw [attemptsOf, hrows, Procs.get_set_self hr]
        simpa using hattempts
      rw [hbefore, hafter, List.range'_concat]
      simp [hmine, hqattempts, Nat.add_comm]
    · have hother : ofRound j (s.retriesOf j) q = false := by
        simp [ofRound, hqrow, Ne.symm hj]
      have hsame : t.attemptsOf j = s.attemptsOf j := by
        rw [attemptsOf, hrows, Procs.get_set_ne hj, attemptsOf]
      simp [hother, hsame]
  · rw [hret, hdeliveries, List.countP_append, hlog]
    simp only [handsSince, handsSince_quiet he, h.hands j]
    simp [hqhanded]
  · rw [hdeliveries]
    exact Procs.forall_append h.few fun hc => by simp [hqhanded] at hc
  · rw [hdeliveries]
    exact Procs.forall_append h.unhanded fun _ => hqhanded
  · rw [hdeliveries] at hd
    rw [hrows] at hx
    rw [hnow]
    rcases Procs.get_append hd with ⟨rfl, rfl⟩ | hold
    · -- the new claim holds the row
      rw [hqrow, Procs.get_set_self hr] at hx
      obtain rfl := Option.some.inj hx
      refine .inr (.inr ⟨hsending, ?_, hqlease⟩)
      rw [lastClaim_iff, hdeliveries]
      intro k y hy _
      have hk := (List.getElem?_eq_some_iff.mp hy).1
      rw [List.length_append, List.length_singleton] at hk
      exact Nat.lt_succ_iff.mp hk
    · rcases Procs.get_set hr hx with ⟨hsame, -⟩ | ⟨hne, hx⟩
      · exact .inr (.inl (h.lease_le hold ho (hsame ▸ hr) (.inl hdue)))
      · rcases h.lease c d x hold ho hx with hsent | hpast | ⟨hs, hlast, hl⟩
        · exact .inl hsent
        · exact .inr (.inl hpast)
        · refine .inr (.inr ⟨hs, ?_, hl⟩)
          rw [lastClaim_iff] at hlast ⊢
          rw [hdeliveries]
          intro k y hy hyrow
          rcases Procs.get_append hy with ⟨-, rfl⟩ | hy
          · exact absurd (hqrow.symm.trans hyrow).symm hne
          · exact hlast k y hy hyrow
  · rw [hlog] at hc
    rw [hdeliveries]
    rcases List.mem_cons.mp hc with heq | hc
    · obtain ⟨rfl, rfl, rfl, -⟩ := OutboxEvent.claimed.inj heq
      exact ⟨q, by simp, hqrow, rfl⟩
    · rcases List.mem_cons.mp hc with heq | hc
      · rw [← heq] at he
        simp [quiet] at he
      · obtain ⟨d, hd, hdrow, hdlease⟩ := h.claims c j lease since' hc
        exact ⟨d, Procs.get_append_of_some hd, hdrow, hdlease⟩
  · rw [hdeliveries] at hd
    rw [hlog]
    rcases Procs.get_append hd with ⟨-, rfl⟩ | hold
    · rw [hqstage] at hs
      cases hs
    · obtain ⟨sent, at_, hmem⟩ := h.reports c d hold hs
      exact ⟨sent, at_, List.mem_cons_of_mem _ (List.mem_cons_of_mem _ hmem)⟩

theorem Kept.claimed (h : s.Kept) (id : OutboxId) : Kept (s.claimRow id) := by
  unfold claimRow
  split
  next => exact h
  next r hdue =>
    obtain ⟨hr, hdue⟩ := Option.filter_eq_some_iff.mp hdue
    let lease := s.now + outboxPolicy.stuckAfterMs
    exact h.appended hr hdue
      { r with status := .sending, attempts := r.attempts + 1, nextAttemptAt := lease }
      ⟨rfl, rfl, rfl⟩ { row := id, attempts := r.attempts + 1, lease, retries := r.retries }
      ⟨rfl, rfl, rfl, rfl, rfl, rfl⟩ rfl rfl rfl rfl rfl

/-- A row at rest is put back: a new round begins. -/
theorem Kept.putBack (h : s.Kept) (hr : s.rows[id]? = some r)
    (hrest : r.status = .failed ∨ r.status = .cancelled) {row : OutboxRow}
    (hrow : row.attempts = 0 ∧ row.retries = r.retries + 1) {e : OutboxEvent} (he : e.quiet = true)
    (hrows : t.rows = s.rows.set id row) (hdeliveries : t.deliveries = s.deliveries)
    (hlog : t.log = .retried id :: e :: s.log) (hnow : t.now = s.now) : t.Kept := by
  obtain ⟨hattempts, hretries⟩ := hrow
  have hown : t.retriesOf id = s.retriesOf id + 1 := by
    rw [retriesOf, hrows, Procs.get_set_self hr, retriesOf, hr]
    simpa using hretries
  have hother : ∀ j, j ≠ id → t.retriesOf j = s.retriesOf j := by
    intro j hj
    rw [retriesOf, hrows, Procs.get_set_ne hj, retriesOf]
  -- no claim is of the round that begins
  have hnone : ∀ d ∈ s.deliveries, ofRound id (s.retriesOf id + 1) d = false := by
    intro d hd
    obtain ⟨c, hc⟩ := List.mem_iff_getElem?.mp hd
    by_cases hid : d.row = id
    · have hle := (h.known c d hc).2
      rw [hid] at hle
      have hne : d.retries ≠ s.retriesOf id + 1 := by omega
      simp [ofRound, hne]
    · simp [ofRound, hid]
  refine ⟨fun c d hd => ?_, fun j => ?_, fun j => ?_, hdeliveries ▸ h.few, hdeliveries ▸ h.unhanded,
    fun c d x hd ho hx => ?_, fun c j lease since hc => ?_, fun c d hd hs => ?_⟩
  · rw [hdeliveries] at hd
    rw [hrows, List.length_set]
    refine ⟨(h.known c d hd).1, (h.known c d hd).2.trans ?_⟩
    by_cases hid : d.row = id
    · rw [hid, hown]
      exact Nat.le_succ _
    · exact (hother _ hid).ge
  · rw [hdeliveries]
    by_cases hj : j = id
    · subst hj
      have hzero : t.attemptsOf j = 0 := by
        rw [attemptsOf, hrows, Procs.get_set_self hr]
        simpa using hattempts
      rw [hown, hzero, List.filter_eq_nil_iff.mpr fun d hd => by simp [hnone d hd]]
      rfl
    · have hsame : t.attemptsOf j = s.attemptsOf j := by
        rw [attemptsOf, hrows, Procs.get_set_ne hj, attemptsOf]
      rw [hother j hj, hsame]
      exact h.attempts j
  · rw [hdeliveries, hlog]
    by_cases hj : j = id
    · subst hj
      rw [hown]
      simp only [handsSince, if_true]
      exact (List.countP_eq_zero.mpr fun d hd => by simp [hnone d hd]).symm
    · rw [hother j hj, ← h.hands j]
      simp only [handsSince, if_neg (Ne.symm hj), handsSince_quiet he]
  · rw [hdeliveries] at hd
    rw [hrows] at hx
    rw [hnow]
    rcases Procs.get_set hr hx with ⟨hsame, -⟩ | ⟨hne, hx⟩
    · exact .inr (.inl (h.lease_le hd ho (hsame ▸ hr) (.inr hrest)))
    · rcases h.lease c d x hd ho hx with hsent | hpast | ⟨hs, hlast, hl⟩
      · exact .inl hsent
      · exact .inr (.inl hpast)
      · refine .inr (.inr ⟨hs, ?_, hl⟩)
        rw [lastClaim_iff] at hlast ⊢
        rw [hdeliveries]
        exact hlast
  · rw [hlog] at hc
    rw [hdeliveries]
    rcases List.mem_cons.mp hc with heq | hc
    · cases heq
    · rcases List.mem_cons.mp hc with heq | hc
      · rw [← heq] at he
        simp [quiet] at he
      · exact h.claims c j lease since hc
  · rw [hdeliveries] at hd
    rw [hlog]
    obtain ⟨sent, at_, hmem⟩ := h.reports c d hd hs
    exact ⟨sent, at_, List.mem_cons_of_mem _ (List.mem_cons_of_mem _ hmem)⟩

/-! ### Few hands -/

theorem countP_range' (n m : ℕ) : (List.range' 1 n).countP (fun k => k ≤ m) = min n m := by
  induction n with
  | zero => simp
  | succ n ih =>
      rw [List.range'_concat, List.countP_append, ih]
      by_cases h : n + 1 ≤ m
      · simp [Nat.add_comm, h]
        omega
      · simp [Nat.add_comm, h]
        omega

/-- The claims of a round are numbered, and only the first of them hand over. -/
theorem Kept.hands_lt (h : s.Kept) (hd : s.deliveries[c]? = some d) (hclaimed : d.stage = .claimed)
    (hfew : d.attempts ≤ outboxPolicy.maxAttempts) (hround : d.retries = s.retriesOf d.row) :
    handsSince d.row s.log < outboxPolicy.maxAttempts := by
  have hmem := List.mem_of_getElem? hd
  set round := s.deliveries.filter (ofRound d.row (s.retriesOf d.row)) with hl
  have hin : d ∈ round := List.mem_filter.mpr ⟨hmem, by simp [ofRound, hround]⟩
  have hfirst : round.countP (fun x => x.attempts ≤ outboxPolicy.maxAttempts) ≤
      outboxPolicy.maxAttempts := by
    have hmap := congrArg (List.countP fun k => decide (k ≤ outboxPolicy.maxAttempts))
      (h.attempts d.row)
    rw [List.countP_map, countP_range'] at hmap
    exact hmap.trans_le (min_le_right _ _)
  have hsplit := List.countP_eq_countP_filter_add round
    (fun x => decide (x.attempts ≤ outboxPolicy.maxAttempts)) (·.handed)
  have hhanded : (round.filter (·.handed)).countP
      (fun x => decide (x.attempts ≤ outboxPolicy.maxAttempts)) = handsSince d.row s.log := by
    rw [h.hands, List.countP_filter, hl, List.countP_filter]
    refine List.countP_congr fun x hx => ?_
    simp only [Bool.and_eq_true, decide_eq_true_eq]
    exact ⟨fun hc => ⟨hc.2, hc.1.2⟩, fun hc => ⟨⟨h.few x hx hc.2, hc.2⟩, hc.1⟩⟩
  have hmine : 0 < (round.filter fun x => !x.handed).countP
      (fun x => decide (x.attempts ≤ outboxPolicy.maxAttempts)) := by
    refine List.countP_pos_iff.mpr ⟨d, List.mem_filter.mpr ⟨hin, ?_⟩, by simpa using hfew⟩
    simp [h.unhanded d hmem hclaimed]
  omega

/-! ### The steps -/

/-- Without a report of a send, nothing more was sent in time. -/
theorem inTime_cons {e : OutboxEvent} {past : List OutboxEvent}
    (he : ∀ c r at_, e ≠ .reported c r true at_) : InTime id (e :: past) ↔ InTime id past := by
  cases e with
  | reported c r sent at_ =>
      cases sent with
      | true => exact absurd rfl (he c r at_)
      | false => exact Iff.rfl
  | moved => exact Iff.rfl
  | claimed => exact Iff.rfl
  | handed => exact Iff.rfl
  | retried => exact Iff.rfl

/-- What is SENT stays SENT while another row is written, or this one was not SENT. -/
theorem Safe.sent_set (h : s.Safe) {r' : OutboxRow} (hr : s.rows[id]? = some r)
    (hne : r.status ≠ .sent) {j : OutboxId} (hj : InTime j s.log) :
    ∃ x, (s.rows.set id r')[j]? = some x ∧ x.status = .sent := by
  obtain ⟨x, hx, hsent⟩ := h.sent j hj
  have hji : j ≠ id := by
    rintro rfl
    exact hne (Option.some.inj (hr.symm.trans hx) ▸ hsent)
  exact ⟨x, by rw [Procs.get_set_ne hji]; exact hx, hsent⟩

theorem Safe.told_row (h : s.Safe) (hr : s.rows[id]? = some r) : statusIn id s.log = r.status := by
  rw [h.told, statusOf, hr]
  rfl

/-- A row that is written and the move that says so. -/
theorem Safe.told_set (h : s.Safe) (hr : s.rows[id]? = some r) (row : OutboxRow) (j : OutboxId) :
    (if id = j then row.status else statusIn j s.log) =
      ((s.rows.set id row)[j]?.map OutboxRow.status).getD .pending := by
  by_cases hj : id = j
  · subst hj
    rw [Procs.get_set_self hr]
    simp
  · rw [Procs.get_set_ne (Ne.symm hj), if_neg hj]
    exact h.told j

theorem Sound.ticked (h : s.Sound) (ms : ℕ) : Sound { s with now := s.now + ms } where
  toKept := h.toKept.ticked ms
  told := h.told
  allowed := h.allowed
  sent := h.sent

theorem Sound.enqueued (h : s.Sound) (channel : NotificationChannel) :
    Sound { s with rows := s.rows ++ [{ channel, nextAttemptAt := s.now }] } where
  toKept := h.toKept.enqueued channel
  told j := by
    rw [h.told j, statusOf, statusOf]
    rcases Nat.lt_trichotomy j s.rows.length with hlt | rfl | hgt
    · rw [List.getElem?_append_left hlt]
    · simp
    · rw [List.getElem?_eq_none hgt.le, List.getElem?_eq_none]
      simpa using Nat.succ_le_of_lt hgt
  allowed := h.allowed
  sent j hj := by
    obtain ⟨r, hr, hsent⟩ := h.sent j hj
    exact ⟨r, Procs.get_append_of_some hr, hsent⟩

theorem Sound.claimRow (h : s.Sound) (id : OutboxId) : Sound (s.claimRow id) := by
  refine ⟨h.toKept.claimed id, ?_⟩
  unfold OutboxDesk.claimRow
  split
  next => exact h.toSafe
  next r hdue =>
    obtain ⟨hr, hdue⟩ := Option.filter_eq_some_iff.mp hdue
    have hopen : r.status = .pending ∨ r.status = .sending := by
      simp only [due, Bool.and_eq_true, Bool.or_eq_true, decide_eq_true_eq] at hdue
      exact hdue.1
    let lease := s.now + outboxPolicy.stuckAfterMs
    let row := { r with status := .sending, attempts := r.attempts + 1, nextAttemptAt := lease }
    refine ⟨h.toSafe.told_set hr row, ⟨?_, ⟨(h.toSafe.told_row hr).symm, ?_, ?_⟩, h.allowed⟩,
      fun j hj => ?_⟩
    · -- the leases of the earlier claims have expired
      intro c lease since hc
      rcases List.mem_cons.mp hc with heq | hold
      · cases heq
      · obtain ⟨d, hd, hrow, hlease⟩ := h.claims c id lease since hold
        by_cases hrep : d.stage = .reported
        · obtain ⟨sent, at_, hmem⟩ := h.reports c d hd hrep
          exact .inr ⟨sent, at_, List.mem_cons_of_mem _ (hrow ▸ hmem)⟩
        · exact .inl (hlease ▸ h.lease_le hd hrep (hrow ▸ hr) (.inl hdue))
    · rcases hopen with hp | hs
      · simp [hp]
      · simp [hs]
    · rcases hopen with hp | hs
      · simp [hp]
      · simp [hs]
    · rw [inTime_cons (by simp), inTime_cons (by simp)] at hj
      refine h.toSafe.sent_set hr ?_ hj
      rcases hopen with hp | hs
      · simp [hp]
      · simp [hs]

theorem Sound.setStage (h : s.Sound) (hd : s.deliveries[c]? = some d) (hopen : d.stage ≠ .reported)
    {stage : DeliveryStage} (hnew : stage ≠ .claimed) (hnot : stage ≠ .reported) :
    Sound (s.setStage c d stage) where
  toKept := h.toKept.staged hd hopen hnew fun hc => absurd hc hnot
  told := h.told
  allowed := h.allowed
  sent := h.sent

/-- A delivery ends: what it makes of a row that is SENDING is SENT, or no later claim is
there to hold the row. -/
theorem Kept.report (h : s.Kept) (hd : s.deliveries[c]? = some d) (hopen : d.stage ≠ .reported)
    (sent : Bool) {f : OutboxRow → OutboxRow}
    (hf : ∀ r, (f r).retries = r.retries ∧ (f r).attempts = r.attempts)
    (hlast : ∀ r, s.rows[d.row]? = some r → r.status = .sending →
      (f r).status = .sent ∨ s.lastClaim c d.row = true) :
    Kept (s.report c d sent f) := by
  have hquiet : (OutboxEvent.reported c d.row sent s.now).quiet = true := rfl
  unfold OutboxDesk.report
  dsimp only
  split
  next => exact (h.logged hquiet).staged hd hopen (by simp) fun _ => ⟨sent, s.now, by simp⟩
  next r hfound =>
    obtain ⟨hr, hsending⟩ := Option.filter_eq_some_iff.mp hfound
    have hmoved : (OutboxEvent.moved d.row .sending (f r).status .report).quiet = true := rfl
    have hlogged := (h.logged hmoved).logged hquiet
    have hstaged := hlogged.staged hd hopen (by simp : DeliveryStage.reported ≠ .claimed)
      fun _ => ⟨sent, s.now, by simp⟩
    refine hstaged.written hr (hf r).1 (hf r).2 fun k x hx hrow ho => ?_
    rcases Procs.get_set hd hx with ⟨-, rfl⟩ | ⟨hne, hold⟩
    · exact absurd rfl ho
    · rcases hlast r hr (of_decide_eq_true hsending) with hsent | hlatest
      · exact .inl hsent
      · -- an earlier claim that has not reported does not hold the row
        rcases h.lease k x r hold ho (hrow ▸ hr) with hs | hpast | ⟨-, hk, -⟩
        · simp [hs] at hsending
        · exact .inr (.inl hpast)
        · have hle := lastClaim_iff.mp hlatest k x hold hrow
          have hge := lastClaim_iff.mp hk c d hd hrow.symm
          exact absurd (Nat.le_antisymm hle hge) hne

/-- What happened at the end of a delivery is told, and was allowed. -/
theorem Safe.told_report (h : s.Safe) (sent : Bool) (f : OutboxRow → OutboxRow) :
    (∀ j, statusIn j (s.report c d sent f).log = (s.report c d sent f).statusOf j) ∧
      OnEach Allowed (s.report c d sent f).log := by
  unfold OutboxDesk.report
  dsimp only
  split
  next => exact ⟨h.told, trivial, h.allowed⟩
  next r hfound =>
    obtain ⟨hr, hsending⟩ := Option.filter_eq_some_iff.mp hfound
    have hsending := of_decide_eq_true hsending
    refine ⟨h.told_set hr _, trivial, ⟨?_, by simp, by simp⟩, h.allowed⟩
    exact hsending.symm.trans (h.told_row hr).symm

/-- A row sent in time was held by its claim until then, so the report finds it SENDING. -/
theorem Sound.sent_report (h : s.Sound) (hd : s.deliveries[c]? = some d)
    (hopen : d.stage ≠ .reported) {f : OutboxRow → OutboxRow} (hf : ∀ r, (f r).status = .sent)
    {j : OutboxId} (hj : InTime j (s.report c d true f).log) :
    ∃ r, (s.report c d true f).rows[j]? = some r ∧ r.status = .sent := by
  unfold OutboxDesk.report at hj ⊢
  dsimp only at hj ⊢
  split
  next hnone =>
    rw [hnone] at hj
    rcases inTime_sent.mp hj with ⟨rfl, lease, since, hmem, hlt⟩ | hbefore
    · obtain ⟨d', hd', -, rfl⟩ := h.claims c _ lease since hmem
      obtain rfl := Option.some.inj (hd.symm.trans hd')
      have hr := List.getElem?_eq_getElem (h.known c d hd).1
      rcases h.lease c d _ hd hopen hr with hsent | hpast | ⟨hs, -⟩
      · exact ⟨_, hr, hsent⟩
      · exact absurd hlt (not_lt.mpr hpast)
      · refine absurd hnone ?_
        change Option.filter _ s.rows[d.row]? ≠ none
        simp [hr, hs]
    · exact h.sent j hbefore
  next r hfound =>
    obtain ⟨hr, hsending⟩ := Option.filter_eq_some_iff.mp hfound
    rw [hfound] at hj
    by_cases hrow : j = d.row
    · subst hrow
      exact ⟨f r, Procs.get_set_self hr, hf r⟩
    · rcases inTime_sent.mp hj with ⟨rfl, -⟩ | hbefore
      · exact absurd rfl hrow
      · rw [inTime_cons (by simp)] at hbefore
        exact h.toSafe.sent_set hr (by simpa using fun hs => by simp [hs] at hsending) hbefore

theorem Sound.reportSent (h : s.Sound) {fault : Option String}
    (ht : s.reportSent c fault = some t) : t.Sound := by
  obtain ⟨d, hd, ht⟩ := Option.bind_eq_some_iff.mp ht
  split at ht
  next providerRef hstage _ =>
    obtain rfl := Option.some.inj ht
    have hopen : d.stage ≠ .reported := by simp [hstage]
    refine ⟨h.toKept.report hd hopen true (fun _ => ⟨rfl, rfl⟩) fun _ _ _ => .inl rfl,
      (h.toSafe.told_report true _).1, (h.toSafe.told_report true _).2,
      fun j hj => h.sent_report hd hopen (fun _ => rfl) hj⟩
  next hstage _ =>
    obtain rfl := Option.some.inj ht
    exact h.setStage hd (by simp [hstage]) (by simp) (by simp)
  next => cases ht

/-- The report of a failure takes nothing from what was sent in time. -/
theorem Safe.sent_failure (h : s.Safe) {f : OutboxRow → OutboxRow} {j : OutboxId}
    (hj : InTime j (s.report c d false f).log) :
    ∃ r, (s.report c d false f).rows[j]? = some r ∧ r.status = .sent := by
  unfold OutboxDesk.report at hj ⊢
  dsimp only at hj ⊢
  split
  next hnone =>
    rw [hnone, inTime_cons (by simp)] at hj
    exact h.sent j hj
  next r hfound =>
    obtain ⟨hr, hsending⟩ := Option.filter_eq_some_iff.mp hfound
    rw [hfound, inTime_cons (by simp), inTime_cons (by simp)] at hj
    have hne : r.status ≠ .sent := by
      intro hs
      simp [hs] at hsending
    exact h.sent_set hr hne hj

theorem Sound.reportFailure (h : s.Sound) {fault : Bool}
    (hok : s.orderly (.reportFailure c fault) = true)
    (ht : s.reportFailure c fault = some t) : t.Sound := by
  obtain ⟨d, hd, ht⟩ := Option.bind_eq_some_iff.mp ht
  split at ht
  next at_ retryable message hstage =>
    have hopen : d.stage ≠ .reported := by simp [hstage]
    split at ht
    next =>
      obtain rfl := Option.some.inj ht
      exact h.setStage hd hopen (by simp) (by simp)
    next =>
      obtain rfl := Option.some.inj ht
      refine ⟨h.toKept.report hd hopen false (fun _ => ⟨rfl, rfl⟩) fun r hr hs => .inr ?_,
        (h.toSafe.told_report false _).1, (h.toSafe.told_report false _).2, fun j hj => ?_⟩
      · simp only [orderly, hd, hr, hs, Option.all_some] at hok
        simpa using hok
      · exact h.toSafe.sent_failure hj
  next => cases ht

theorem Sound.hand (h : s.Sound) (hok : s.orderly (.hand c) = true) (ht : s.hand c = some t) :
    t.Sound := by
  obtain ⟨d, hfound, ht⟩ := Option.bind_eq_some_iff.mp ht
  obtain ⟨hd, hstage⟩ := Option.filter_eq_some_iff.mp hfound
  obtain ⟨r, hprovided, rfl⟩ := Option.map_eq_some_iff.mp ht
  obtain ⟨hr, -⟩ := Option.filter_eq_some_iff.mp hprovided
  simp only [orderly, hd, hr, Option.all_some, Bool.and_eq_true, decide_eq_true_eq] at hok
  obtain ⟨⟨hunsent, hround⟩, hfew⟩ := hok
  have hstage := of_decide_eq_true hstage
  have hround : d.retries = s.retriesOf d.row := by
    rw [← hround, retriesOf, hr]
    rfl
  have hnothanded := h.unhanded d (List.mem_of_getElem? hd) hstage
  have hopen : d.stage ≠ .reported := by simp [hstage]
  refine ⟨h.toKept.moves hd hopen { d with stage := .handed, handed := true } _ ⟨rfl, rfl, rfl, rfl⟩
    (fun _ => hfew) (fun hc => by cases hc) (fun hc => by cases hc) (fun j => ?_)
    (fun e he => List.mem_cons_of_mem _ he) (fun k j lease since hc => ?_), h.told, ⟨⟨?_, ?_⟩, h.allowed⟩,
    fun j hj => ?_⟩
  · simp only [handsSince, hnothanded, ofRound, Bool.and_false, Bool.and_true, Bool.and_eq_true,
      decide_eq_true_eq]
    by_cases hj : d.row = j
    · subst hj
      simp [hround, Nat.add_comm]
    · simp [hj]
  · rcases List.mem_cons.mp hc with heq | hold
    · cases heq
    · exact hold
  · exact h.toKept.hands_lt hd hstage hfew hround
  · intro hsent
    obtain ⟨x, hx, hs⟩ := h.sent d.row hsent
    exact hunsent (Option.some.inj (hr.symm.trans hx) ▸ hs)
  · rw [inTime_cons (by simp)] at hj
    exact h.sent j hj

theorem Sound.refuse (h : s.Sound) {retryable : Bool} {message : String}
    (ht : s.refuse c retryable message = some t) : t.Sound := by
  obtain ⟨d, hfound, rfl⟩ := Option.map_eq_some_iff.mp ht
  obtain ⟨hd, hstage⟩ := Option.filter_eq_some_iff.mp hfound
  have hstage := of_decide_eq_true hstage
  exact h.setStage hd (by simp [hstage]) (by simp) (by simp)

theorem Sound.answer (h : s.Sound) {outcome : Except (Bool × String) String}
    (ht : s.answer c outcome = some t) : t.Sound := by
  obtain ⟨d, hfound, rfl⟩ := Option.map_eq_some_iff.mp ht
  obtain ⟨hd, hstage⟩ := Option.filter_eq_some_iff.mp hfound
  have hstage := of_decide_eq_true hstage
  cases outcome with
  | ok providerRef => exact h.setStage hd (by simp [hstage]) (by simp) (by simp)
  | error failure => exact h.setStage hd (by simp [hstage]) (by simp) (by simp)

theorem Sound.retryWrite (h : s.Sound) (hok : s.orderly (.retryWrite id) = true)
    (ht : s.retryWrite id = some t) : t.Sound := by
  unfold OutboxDesk.retryWrite at ht
  split at ht
  next =>
    obtain ⟨r, hr, rfl⟩ := Option.map_eq_some_iff.mp ht
    simp only [orderly, hr, Option.all_some, Bool.or_eq_true, decide_eq_true_eq] at hok
    have hne : r.status ≠ .sent := by
      rcases hok with hf | hc
      · simp [hf]
      · simp [hc]
    let row := { r with status := .pending, attempts := 0, nextAttemptAt := s.now,
                        lastError := none, retries := r.retries + 1 }
    refine ⟨h.toKept.putBack hr hok ⟨rfl, rfl⟩ rfl rfl rfl rfl rfl,
      h.toSafe.told_set hr row, ⟨trivial, ⟨(h.toSafe.told_row hr).symm, hne, fun _ => rfl⟩, h.allowed⟩,
      fun j hj => ?_⟩
    rw [inTime_cons (by simp), inTime_cons (by simp)] at hj
    exact h.toSafe.sent_set hr hne hj
  next => cases ht

theorem Sound.cancel (h : s.Sound) (ht : s.cancel id = some t) : t.Sound := by
  obtain ⟨r, hfound, rfl⟩ := Option.map_eq_some_iff.mp ht
  obtain ⟨hr, hpending⟩ := Option.filter_eq_some_iff.mp hfound
  have hpending := of_decide_eq_true hpending
  have hmoved : (OutboxEvent.moved id .pending .cancelled .cancel).quiet = true := rfl
  refine ⟨(h.toKept.logged hmoved).written hr rfl rfl fun k d hd hrow ho => .inr (.inl ?_),
    h.toSafe.told_set hr { r with status := .cancelled }, ⟨⟨?_, by simp, by simp⟩, h.allowed⟩, fun j hj => ?_⟩
  · rcases h.lease k d r hd ho (hrow ▸ hr) with hs | hpast | ⟨hs, -⟩
    · simp [hs] at hpending
    · exact hpast
    · simp [hs] at hpending
  · rw [h.toSafe.told_row hr, hpending]
  · rw [inTime_cons (by simp)] at hj
    exact h.toSafe.sent_set hr (by simp [hpending]) hj

/-- A worker's claim, one row after the other. -/
theorem Sound.runOnce (h : s.Sound) (ids : List OutboxId) : Sound (ids.foldl OutboxDesk.claimRow s) := by
  induction ids generalizing s with
  | nil => exact h
  | cons id rest ih => exact ih (h.claimRow id)

theorem Sound.step {a : OutboxAction} (h : s.Sound) (hok : s.orderly a = true)
    (ht : outboxStep s a = some t) : t.Sound := by
  cases a with
  | enqueue channel =>
      obtain rfl := Option.some.inj ht
      exact h.enqueued channel
  | tick ms =>
      obtain rfl := Option.some.inj ht
      exact h.ticked ms
  | runOnce limit locked =>
      obtain rfl := Option.some.inj ht
      exact h.runOnce _
  | refuse c retryable message => exact h.refuse ht
  | hand c => exact h.hand hok ht
  | answer c outcome => exact h.answer ht
  | reportSent c fault => exact h.reportSent ht
  | reportFailure c fault => exact h.reportFailure hok ht
  | retryRead id =>
      obtain ⟨r, -, rfl⟩ := Option.map_eq_some_iff.mp ht
      exact ⟨⟨h.known, h.attempts, h.hands, h.few, h.unhanded, h.lease, h.claims, h.reports⟩,
        h.told, h.allowed, h.sent⟩
  | retryWrite id => exact h.retryWrite hok ht
  | cancel id => exact h.cancel ht

/-- Nothing has been queued yet. -/
structure Opening (s : OutboxDesk) : Prop where
  rows : s.rows = []
  deliveries : s.deliveries = []
  log : s.log = []

theorem Opening.sound (h : s.Opening) : s.Sound := by
  obtain ⟨hrows, hdeliveries, hlog⟩ := h
  refine ⟨⟨fun c d hd => ?_, fun j => ?_, fun j => ?_, fun d hd => ?_, fun d hd => ?_,
    fun c d r hd => ?_, fun c j lease since hc => ?_, fun c d hd => ?_⟩, fun j => ?_, ?_,
    fun j hj => ?_⟩
  · simp [hdeliveries] at hd
  · simp [hdeliveries, attemptsOf, hrows]
  · simp [hdeliveries, hlog, handsSince]
  · simp [hdeliveries] at hd
  · simp [hdeliveries] at hd
  · simp [hdeliveries] at hd
  · simp [hlog] at hc
  · simp [hdeliveries] at hd
  · simp [hlog, statusIn, statusOf, hrows]
  · simp [hlog, OnEach]
  · simp [hlog, InTime] at hj

end OutboxDesk

end BookHouse
