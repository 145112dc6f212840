/-
How many passwords and codes can be tried.

A wrong password is counted by an absolute write of what its login has read, plus one, and a
guess is counted after it was compared.  So the limits hold where calls take turns (`inTurn`):
a count goes up when it is written, the lock that a login looked at is the lock there is, a
guess is compared with a code whose attempts count every wrong one, and no code is consumed
twice.  The proof ties every row to what the log says has happened to it.
-/
import BookHouse.Lib.RowHistory
import BookHouse.Proofs.AuthCalls

namespace BookHouse

open AuthDesk

/-! ### What the log says -/

/-- When the wrong passwords of the account were counted, since the count was set back; the
newest first. -/
def failures (id : UserId) : List AuthEvent → List Instant
  | [] => []
  | .failed user at_ :: log => if user = id then at_ :: failures id log else failures id log
  | .cleared user :: log => if user = id then [] else failures id log
  | _ :: log => failures id log

/-- When the fifth of them was counted. -/
def lockedSince (id : UserId) (log : List AuthEvent) : Option Instant :=
  (failures id log).reverse[maxFailed - 1]?

/-- Until when it keeps the account locked. -/
def lockEnd (at_ : Instant) : Instant := at_ + lockMinutes * minute

def AuthEvent.counts (id : UserId) : AuthEvent → Bool
  | failed user _ | cleared user => user = id
  | _ => false

def AuthEvent.consumes (id : CodeId) : AuthEvent → Bool
  | consumed code => code = id
  | _ => false

/-- What is logged when it happens, not with the commit of a transaction. -/
def AuthEvent.compares : AuthEvent → Bool
  | verified .. | guessed .. => true
  | _ => false

namespace AuthDesk

variable {host : AuthHost} {s t : AuthDesk} {i j : TxId} {id : UserId}

theorem failures_filter (log : List AuthEvent) :
    failures id (log.filter (AuthEvent.counts id)) = failures id log := by
  induction log with
  | nil => rfl
  | cons e log ih =>
      cases e with
      | failed user at_ =>
          by_cases hu : user = id
          · simp [AuthEvent.counts, failures, hu, ih]
          · simp [AuthEvent.counts, failures, hu, ih]
      | cleared user =>
          by_cases hu : user = id
          · simp [AuthEvent.counts, failures, hu]
          · simp [AuthEvent.counts, failures, hu, ih]
      | _ => simpa [AuthEvent.counts, failures] using ih

/-- The calls take turns: a wrong password raises the count of its account, a password is
compared under the lock that was looked at, a guess with a code that has counted every wrong one,
and a code is consumed once. -/
def inTurn (i : TxId) (o : AuthOp) (_ : AuthInput) (s : AuthDesk) : Prop :=
  match o with
  | .verify id read _ =>
    (s.users.committed id).any (fun u => u.lockedUntil.all fun l => read.lockedUntil = some l) = true
  | .updateUser id (.failed n) => (s.users.committed id).all (·.failedLogins < n) = true
  | .updateUserTx id (.failed n) => (s.users.seen i id).all (·.failedLogins < n) = true
  | .compare id read _ => s.log.count (.guessed id false) ≤ read.attempts
  | .consumeTx id => (s.codes.seen i id).all (·.consumedAt.isNone) = true
  | _ => True

instance (i : TxId) (o : AuthOp) (x : AuthInput) (s : AuthDesk) : Decidable (inTurn i o x s) := by
  unfold inTurn
  split <;> exact inferInstance

/-- The count and the lock of an account go with the wrong passwords there were. -/
structure Fits (now : Instant) (row : Option User) (fs : List Instant) : Prop where
  count : fs.length ≤ (row.map (·.failedLogins)).getD 0
  past : ∀ at_ ∈ fs, at_ ≤ now
  locked : maxFailed ≤ fs.length →
    ∃ until_, row.bind (·.lockedUntil) = some until_ ∧ ∀ at_ ∈ fs, lockEnd at_ ≤ until_

/-- A code has been consumed once at most, and not while it says so. -/
structure SpentOnce (row : Option VerificationCode) (es : List AuthEvent) : Prop where
  once : es.length ≤ 1
  unspent : row.all (·.consumedAt.isNone) = true → es = []

theorem Fits.later {now later : Instant} {row : Option User} {fs : List Instant} (h : Fits now row fs)
    (hle : now ≤ later) : Fits later row fs :=
  ⟨h.count, fun at_ hat => (h.past at_ hat).trans hle, h.locked⟩

/-- No wrong password since. -/
theorem Fits.nil {now : Instant} {row : Option User} : Fits now row [] :=
  ⟨Nat.zero_le _, by simp, fun h => by cases h⟩

/-- A write that keeps count and lock. -/
theorem Fits.same {now : Instant} {u v : User} {fs : List Instant} (h : Fits now (some u) fs)
    (hcount : v.failedLogins = u.failedLogins) (hlock : v.lockedUntil = u.lockedUntil) :
    Fits now (some v) fs := by
  refine ⟨?_, h.past, fun hlen => ?_⟩
  · have hle : fs.length ≤ u.failedLogins := h.count
    show fs.length ≤ v.failedLogins
    rwa [hcount]
  · obtain ⟨until_, hu, hall⟩ := h.locked hlen
    refine ⟨until_, ?_, hall⟩
    show v.lockedUntil = some until_
    rwa [hlock]

/-- One more wrong password. -/
theorem Fits.failed {now : Instant} {u : User} {fs : List Instant} {n : ℕ}
    (h : Fits now (some u) fs) (hn : u.failedLogins < n) :
    Fits now (some ((UserWrite.failed n).apply now u)) (now :: fs) := by
  have hcount : fs.length ≤ u.failedLogins := h.count
  refine ⟨?_, ?_, fun hlen => ?_⟩
  · show fs.length + 1 ≤ n
    omega
  · intro at_ hat
    rcases List.mem_cons.mp hat with rfl | hold
    · exact le_refl _
    · exact h.past at_ hold
  · have hlocks : maxFailed ≤ n := by
      rw [List.length_cons] at hlen
      omega
    refine ⟨lockEnd now, ?_, fun at_ hat => ?_⟩
    · show (if maxFailed ≤ n then some (lockEnd now) else none) = _
      rw [if_pos hlocks]
    · have hle : at_ ≤ now := by
        rcases List.mem_cons.mp hat with rfl | hold
        · exact le_refl _
        · exact h.past at_ hold
      exact add_le_add_left hle _

/-- Whatever is written, if it counts a wrong password upwards. -/
theorem Fits.write {now : Instant} {u : User} {w : UserWrite} {es : List AuthEvent}
    (h : Fits now (some u) (failures id es))
    (hw : ∀ n, w = .failed n → u.failedLogins < n) :
    Fits now (some (w.apply now u))
      (failures id ((w.events id now).filter (AuthEvent.counts id) ++ es)) := by
  have hclears : failures id ([AuthEvent.cleared id].filter (AuthEvent.counts id) ++ es) = [] := by
    simp [AuthEvent.counts, failures]
  cases w with
  | failed n =>
      have hadds : failures id
          ([AuthEvent.failed id now].filter (AuthEvent.counts id) ++ es) = now :: failures id es := by
        simp [AuthEvent.counts, failures]
      rw [UserWrite.events, hadds]
      exact h.failed (hw n rfl)
  | signedIn => exact hclears ▸ Fits.nil
  | password hash => exact hclears ▸ Fits.nil
  | tempPassword hash => exact hclears ▸ Fits.nil
  | ownPassword hash => exact h.same rfl rfl
  | role r => exact h.same rfl rfl
  | enabled e =>
      cases e with
      | true => exact h.same rfl rfl
      | false => exact h.same rfl rfl
  | access blocked =>
      cases blocked with
      | true => exact h.same rfl rfl
      | false => exact hclears ▸ Fits.nil

theorem events_of_ne {w : UserWrite} {now : Instant} {k : UserId} (h : k ≠ id) :
    (w.events id now).filter (AuthEvent.counts k) = [] := by
  cases w with
  | access blocked => cases blocked <;> simp [UserWrite.events, AuthEvent.counts, h.symm]
  | _ => simp [UserWrite.events, AuthEvent.counts, h.symm]

/-- What is kept: rows go with what has happened to them, transactions compare nothing, and
neither limit has been passed. -/
structure Counted (s : AuthDesk) : Prop where
  users : s.users.Traced AuthEvent.counts (fun id row es => Fits s.now row (failures id es))
    s.workOf s.log
  codes : s.codes.Traced AuthEvent.consumes (fun _ => SpentOnce) s.workOf s.log
  work : ∀ x ∈ s.work, x.2.compares = false
  unverified : ∀ id at_ log, .verified id at_ :: log <:+ s.log → ∀ since,
    lockedSince id log = some since → lockEnd since ≤ at_
  guesses : ∀ code, s.log.count (.guessed code false) ≤ otpMaxAttempts

/-- The fifth wrong password has left its lock. -/
theorem Counted.lock (h : s.Counted) {since : Instant} (hsince : lockedSince id s.log = some since) :
    ∃ u until_, s.users.committed id = some u ∧ u.lockedUntil = some until_ ∧
      lockEnd since ≤ until_ := by
  obtain ⟨hlt, hget⟩ := List.getElem?_eq_some_iff.mp hsince
  have hfits := h.users.committed id
  rw [failures_filter] at hfits
  obtain ⟨until_, hlock, hall⟩ := hfits.locked (by
    rw [List.length_reverse] at hlt
    exact Nat.le_of_pred_lt hlt)
  obtain ⟨u, hu, hl⟩ := Option.bind_eq_some_iff.mp hlock
  refine ⟨u, until_, hu, hl, hall since ?_⟩
  rw [← List.mem_reverse, ← hget]
  exact List.getElem_mem hlt

theorem workOf_keep (events : List AuthEvent) :
    (s.keep i events).workOf i = events ++ s.workOf i := by
  have hall : (events.map (Prod.mk i)).filter (fun x => decide (x.1 = i)) = events.map (Prod.mk i) := by
    rw [List.filter_eq_self]
    rintro x hx
    obtain ⟨e, -, rfl⟩ := List.mem_map.mp hx
    simp
  rw [workOf, workOf, keep, List.filter_append, List.map_append, hall, List.map_map]
  exact congrArg (· ++ _) (List.map_id events)

theorem workOf_keep_other (events : List AuthEvent) (hj : j ≠ i) :
    (s.keep i events).workOf j = s.workOf j := by
  have hnone : (events.map (Prod.mk i)).filter (fun x => decide (x.1 = j)) = [] := by
    rw [List.filter_eq_nil_iff]
    rintro x hx
    obtain ⟨e, -, rfl⟩ := List.mem_map.mp hx
    simp [hj.symm]
  rw [workOf, keep, List.filter_append, hnone, List.nil_append, workOf]

/-- Commit and rollback end the work of a transaction and leave that of the others. -/
theorem workOf_ended : (s.rollback i).workOf i = [] := by
  rw [workOf, rollback, List.filter_filter, List.map_eq_nil_iff, List.filter_eq_nil_iff]
  simp

theorem workOf_ended_other (hj : j ≠ i) : (s.rollback i).workOf j = s.workOf j := by
  rw [workOf, rollback, List.filter_filter, workOf]
  congr 1
  refine List.filter_congr fun x _ => ?_
  by_cases hx : x.1 = j
  · simp [hx, hj]
  · simp [hx]

theorem Did.workOf {o : AuthOp} (h : Did i o s t) (j : TxId) :
    ∃ new, t.workOf j = new ++ s.workOf j ∧ (new = [] ∨ new = o.keeps s.now) := by
  have hwork : t.workOf j = s.workOf j ∨ t.workOf j = (s.keep i (o.keeps s.now)).workOf j := by
    rcases h.work with hsame | hkeeps
    · exact .inl (by rw [AuthDesk.workOf, hsame, AuthDesk.workOf])
    · exact .inr (by rw [AuthDesk.workOf, hkeeps, AuthDesk.workOf]; rfl)
  rcases hwork with hsame | hkeeps
  · exact ⟨[], hsame, .inl rfl⟩
  · by_cases hj : j = i
    · subst hj
      exact ⟨_, hkeeps.trans (workOf_keep _), .inr rfl⟩
    · exact ⟨[], hkeeps.trans (workOf_keep_other _ hj), .inl rfl⟩

theorem Did.logged {o : AuthOp} (h : Did i o s t) :
    ∃ new, t.log = new ++ s.log ∧ (new = [] ∨ new = o.notes s.now) := by
  rcases h.log with hsame | hnotes
  · exact ⟨[], hsame, .inl rfl⟩
  · exact ⟨_, hnotes, .inr rfl⟩

/-- A statement whose events are about nothing of a table leaves what the log says of its rows. -/
theorem Did.traced {ρ : Type} {table : Table TxId ρ} {about : ℕ → AuthEvent → Bool}
    {R : ℕ → Option ρ → List AuthEvent → Prop} {o : AuthOp} (h : Did i o s t)
    (htraced : table.Traced about R s.workOf s.log) (hnotes : Table.Neutral about (o.notes s.now))
    (hkeeps : Table.Neutral about (o.keeps s.now)) : table.Traced about R t.workOf t.log := by
  have hnil : Table.Neutral about [] := fun _ => rfl
  refine htraced.neutral ?_ fun j => ?_
  · obtain ⟨new, hlog, rfl | rfl⟩ := h.logged
    · exact ⟨[], hlog, hnil⟩
    · exact ⟨_, hlog, hnotes⟩
  · obtain ⟨new, hwork, rfl | rfl⟩ := h.workOf j
    · exact ⟨[], hwork, hnil⟩
    · exact ⟨_, hwork, hkeeps⟩

theorem counts_notes {o : AuthOp} (ho : o.onUsers = false) (now : Instant) :
    Table.Neutral AuthEvent.counts (o.notes now) := by
  intro k
  cases o with
  | updateUser id w => cases ho
  | _ => simp [AuthOp.notes, AuthEvent.counts]

theorem counts_keeps {o : AuthOp} (ho : o.onUsers = false) (now : Instant) :
    Table.Neutral AuthEvent.counts (o.keeps now) := by
  intro k
  cases o with
  | updateUserTx id w => cases ho
  | _ => simp [AuthOp.keeps, AuthEvent.counts]

theorem consumes_events (w : UserWrite) (now : Instant) :
    Table.Neutral AuthEvent.consumes (w.events id now) := by
  intro k
  cases w with
  | access blocked => cases blocked <;> simp [UserWrite.events, AuthEvent.consumes]
  | _ => simp [UserWrite.events, AuthEvent.consumes]

theorem consumes_notes (o : AuthOp) (now : Instant) :
    Table.Neutral AuthEvent.consumes (o.notes now) := by
  cases o with
  | updateUser id w => exact consumes_events w now
  | _ => exact fun k => by simp [AuthOp.notes, AuthEvent.consumes]

theorem consumes_keeps {o : AuthOp} (ho : o.onCodes = false) (now : Instant) :
    Table.Neutral AuthEvent.consumes (o.keeps now) := by
  cases o with
  | updateUserTx id w => exact consumes_events w now
  | consumeTx id => cases ho
  | _ => exact fun k => by simp [AuthOp.keeps, AuthEvent.consumes]

/-- The accounts. -/
theorem Counted.users_perform (h : s.Counted) {o : AuthOp} {a : o.Res} {x : String}
    (ho : o.ends = false) (hturn : inTurn i o {} s) (hp : o.perform host i x s = some (a, t)) :
    t.users.Traced AuthEvent.counts (fun id row es => Fits s.now row (failures id es)) t.workOf
      t.log := by
  have hdid := o.perform_did ho hp
  by_cases hu : o.onUsers = false
  · rw [hdid.users hu]
    exact hdid.traced h.users (counts_notes hu _) (counts_keeps hu _)
  cases o with
  | updateUser id w =>
      rcases updateUser_some hp with ⟨-, -, rfl⟩ | ⟨u, users, hrow, -, hwrite, rfl⟩
      · exact h.users
      refine h.users.updateNow hwrite (fun k r r' es hr hg hfits => ?_) fun k hnone => ?_
      · obtain ⟨rfl, rfl⟩ := AuthOp.onRow_some hg
        refine hfits.write fun n hn => ?_
        subst hn
        simpa [inTurn, hr] using hturn
      · refine events_of_ne fun hk => ?_
        rw [hk, hrow, Option.bind_some, onRow, if_pos rfl] at hnone
        cases hnone
  | updateUserTx id w =>
      rcases updateUserTx_some hp with ⟨-, -, rfl⟩ | ⟨u, users, hrow, -, hwrite, rfl⟩
      · exact h.users
      refine h.users.update hwrite (fun k r r' es hr hg hfits => ?_) (fun k hnone => ?_)
        (workOf_keep _) fun j hj => workOf_keep_other _ hj
      · obtain ⟨rfl, rfl⟩ := AuthOp.onRow_some hg
        refine hfits.write fun n hn => ?_
        subst hn
        simpa [inTurn, hr] using hturn
      · refine events_of_ne fun hk => ?_
        rw [hk, hrow, Option.bind_some, onRow, if_pos rfl] at hnone
        cases hnone
  | createUserTx u =>
      rcases createUserTx_some hp with ⟨-, rfl⟩ | ⟨-, rfl⟩
      · exact h.users
      refine h.users.insert fun es hfits => ?_
      have hnil : failures s.users.next es = [] := List.length_eq_zero_iff.mp (Nat.le_zero.mp hfits.count)
      rw [hnil]
      exact .nil
  | commit => cases ho
  | rollback => cases ho
  | _ => exact absurd rfl hu

/-- The codes. -/
theorem Counted.codes_perform (h : s.Counted) {o : AuthOp} {a : o.Res} {x : String}
    (ho : o.ends = false) (hturn : inTurn i o {} s) (hp : o.perform host i x s = some (a, t)) :
    t.codes.Traced AuthEvent.consumes (fun _ => SpentOnce) t.workOf t.log := by
  have hdid := o.perform_did ho hp
  by_cases hc : o.onCodes = false
  · rw [hdid.codes hc]
    exact hdid.traced h.codes (consumes_notes o _) (consumes_keeps hc _)
  cases o with
  | miss id =>
      rcases miss_some hp with ⟨-, -, rfl⟩ | ⟨code, codes, -, -, hwrite, rfl⟩
      · exact h.codes
      have hkept : codes.Traced AuthEvent.consumes (fun _ => SpentOnce) s.workOf ([] ++ s.log) := by
        refine h.codes.updateNow hwrite (fun k r r' es hr hg hspent => ?_) fun _ _ => rfl
        obtain ⟨-, rfl⟩ := AuthOp.onRow_some hg
        exact ⟨hspent.once, hspent.unspent⟩
      exact hkept
  | createCodeTx user target codeHash =>
      obtain ⟨-, rfl⟩ := Prod.mk.inj (Option.some.inj hp)
      refine h.codes.insert fun es hspent => ?_
      exact ⟨hspent.once, fun _ => hspent.unspent rfl⟩
  | consumeTx id =>
      rcases consumeTx_some hp with ⟨-, -, rfl⟩ | ⟨code, codes, hrow, -, hwrite, rfl⟩
      · exact h.codes
      refine h.codes.update hwrite (fun k r r' es hr hg hspent => ?_) (fun k hnone => ?_)
        (workOf_keep _) fun j hj => workOf_keep_other _ hj
      · obtain ⟨rfl, rfl⟩ := AuthOp.onRow_some hg
        have hunspent : r.consumedAt.isNone = true := by simpa [inTurn, hr] using hturn
        rw [hspent.unspent hunspent]
        refine ⟨by simp [AuthEvent.consumes], fun hnone => by cases hnone⟩
      · have hk : k ≠ id := by
          rintro rfl
          rw [hrow, Option.bind_some, onRow, if_pos rfl] at hnone
          cases hnone
        simp [AuthEvent.consumes, hk.symm]
  | commit => cases ho
  | rollback => cases ho
  | _ => exact absurd rfl hc

/-- A comparison that is in the log was there before, or is what the statement did. -/
theorem suffix_of_not_mem {e : AuthEvent} {new old rest : List AuthEvent} (hnew : e ∉ new)
    (h : e :: rest <:+ new ++ old) : e :: rest <:+ old := by
  induction new with
  | nil => exact h
  | cons d new ih =>
      rcases List.suffix_cons_iff.mp h with heq | hrest
      · obtain ⟨rfl, -⟩ := List.cons.inj heq
        exact absurd List.mem_cons_self hnew
      · exact ih (fun hc => hnew (List.mem_cons_of_mem d hc)) hrest

theorem compares_events (w : UserWrite) (now : Instant) : ∀ e ∈ w.events id now, e.compares = false := by
  cases w with
  | access blocked => cases blocked <;> simp [UserWrite.events, AuthEvent.compares]
  | _ => simp [UserWrite.events, AuthEvent.compares]

theorem compares_keeps (o : AuthOp) (now : Instant) : ∀ e ∈ o.keeps now, e.compares = false := by
  cases o with
  | updateUserTx id w => exact compares_events w now
  | _ => simp [AuthOp.keeps, AuthEvent.compares]

/-- What no comparison adds to the log changes neither limit. -/
theorem Counted.unverified_append (h : s.Counted) {new : List AuthEvent}
    (hnew : ∀ e ∈ new, e.compares = false) (hlog : t.log = new ++ s.log) :
    (∀ id at_ log, .verified id at_ :: log <:+ t.log → ∀ since,
      lockedSince id log = some since → lockEnd since ≤ at_) ∧
    ∀ code, t.log.count (.guessed code false) ≤ otpMaxAttempts := by
  rw [hlog]
  constructor
  · intro id at_ log hsuffix
    refine h.unverified id at_ log (suffix_of_not_mem (fun hc => ?_) hsuffix)
    exact absurd (hnew _ hc) (by simp [AuthEvent.compares])
  · intro code
    have hnone : new.count (.guessed code false) = 0 :=
      List.count_eq_zero.mpr fun hc => absurd (hnew _ hc) (by simp [AuthEvent.compares])
    rw [List.count_append, hnone, Nat.zero_add]
    exact h.guesses code

/-- The limits themselves. -/
theorem Counted.limits_perform (h : s.Counted) {o : AuthOp} {a : o.Res} {x : String}
    (ho : o.ends = false) (hpre : o.pre i s) (hturn : inTurn i o {} s)
    (hp : o.perform host i x s = some (a, t)) :
    (∀ id at_ log, .verified id at_ :: log <:+ t.log → ∀ since,
      lockedSince id log = some since → lockEnd since ≤ at_) ∧
    ∀ code, t.log.count (.guessed code false) ≤ otpMaxAttempts := by
  obtain ⟨new, hlog, hnew⟩ := (o.perform_did ho hp).logged
  cases o with
  | verify id read password =>
      obtain ⟨-, rfl⟩ := Prod.mk.inj (Option.some.inj hp)
      refine ⟨fun k at_ log hsuffix since hsince => ?_, fun code => ?_⟩
      · rcases List.suffix_cons_iff.mp hsuffix with heq | hrest
        · obtain ⟨hevent, rfl⟩ := List.cons.inj heq
          obtain ⟨rfl, rfl⟩ := AuthEvent.verified.inj hevent
          -- the lock of the fifth wrong password is the one that was looked at
          obtain ⟨u, until_, hu, hlock, hle⟩ := h.lock hsince
          have hread : read.lockedUntil = some until_ := by simpa [inTurn, hu, hlock] using hturn
          have hpast : until_ ≤ s.now := by simpa [AuthOp.pre, hread] using hpre
          exact hle.trans hpast
        · exact h.unverified k at_ log hrest since hsince
      · show (AuthEvent.verified id s.now :: s.log).count (.guessed code false) ≤ _
        rw [List.count_cons_of_ne (by simp)]
        exact h.guesses code
  | compare id read codeHash =>
      obtain ⟨-, rfl⟩ := Prod.mk.inj (Option.some.inj hp)
      refine ⟨fun k at_ log hsuffix => ?_, fun code => ?_⟩
      · rcases List.suffix_cons_iff.mp hsuffix with heq | hrest
        · cases (List.cons.inj heq).1
        · exact h.unverified k at_ log hrest
      · show (AuthEvent.guessed id _ :: s.log).count (.guessed code false) ≤ _
        have hread : s.log.count (.guessed id false) ≤ read.attempts := hturn
        have hattempts : read.attempts < otpMaxAttempts := hpre
        by_cases hcode : AuthEvent.guessed id (decide (read.codeHash = codeHash)) = .guessed code false
        · rw [hcode, List.count_cons_self]
          obtain ⟨rfl, -⟩ := AuthEvent.guessed.inj hcode
          omega
        · rw [List.count_cons_of_ne hcode]
          exact h.guesses code
  | updateUser id w =>
      rcases hnew with rfl | rfl
      · exact h.unverified_append (by simp) hlog
      · exact h.unverified_append (compares_events w s.now) hlog
  | revokeUser user why =>
      rcases hnew with rfl | rfl
      · exact h.unverified_append (by simp) hlog
      · exact h.unverified_append (by simp [AuthOp.notes, AuthEvent.compares]) hlog
  | commit => cases ho
  | rollback => cases ho
  | _ =>
      rcases hnew with rfl | rfl
      · exact h.unverified_append (by simp) hlog
      · exact h.unverified_append (by simp [AuthOp.notes]) hlog

theorem Counted.perform (h : s.Counted) {o : AuthOp} {a : o.Res} {x : String} (ho : o.ends = false)
    (hpre : o.pre i s) (hturn : inTurn i o {} s) (hp : o.perform host i x s = some (a, t)) :
    t.Counted := by
  have hdid := o.perform_did ho hp
  obtain ⟨hunverified, hguesses⟩ := h.limits_perform ho hpre hturn hp
  refine ⟨?_, h.codes_perform ho hturn hp, fun y hy => ?_, hunverified, hguesses⟩
  · rw [hdid.now]
    exact h.users_perform ho hturn hp
  · rcases hdid.work with hsame | hkeeps
    · rw [hsame] at hy
      exact h.work y hy
    · rw [hkeeps] at hy
      rcases List.mem_append.mp hy with hmem | hold
      · obtain ⟨e, he, rfl⟩ := List.mem_map.mp hmem
        exact compares_keeps o s.now e he
      · exact h.work y hold

theorem Counted.tick (h : s.Counted) (ms : ℕ) : (s.tick ms).Counted :=
  ⟨h.users.mono fun _ _ _ hfits => hfits.later (le_add_of_nonneg_right (Int.natCast_nonneg ms)),
    h.codes, h.work, h.unverified, h.guesses⟩

theorem Counted.drop (h : s.Counted) :
    Counted { s with exchanging := Function.update s.exchanging i none } :=
  ⟨h.users, h.codes, h.work, h.unverified, h.guesses⟩

theorem Counted.rollback (h : s.Counted) : (s.rollback i).Counted :=
  ⟨h.users.rollback workOf_ended fun _ hj => workOf_ended_other hj,
    h.codes.rollback workOf_ended fun _ hj => workOf_ended_other hj,
    fun y hy => h.work y (List.mem_filter.mp hy).1, h.unverified, h.guesses⟩

theorem Counted.commit (h : s.Counted) : (s.commit i).Counted := by
  have hlost : ∀ e ∈ (s.lost i).map AuthEvent.ownerLost, ∃ id, e = .ownerLost id := by
    intro e he
    obtain ⟨id, -, rfl⟩ := List.mem_map.mp he
    exact ⟨id, rfl⟩
  have hnew : ∀ e ∈ (s.lost i).map AuthEvent.ownerLost ++ s.workOf i, e.compares = false := by
    intro e he
    rcases List.mem_append.mp he with hmem | hwork
    · obtain ⟨id, rfl⟩ := hlost e hmem
      rfl
    · obtain ⟨y, hy, rfl⟩ := List.mem_map.mp hwork
      exact h.work y (List.mem_filter.mp hy).1
  have hcounts : Table.Neutral AuthEvent.counts ((s.lost i).map AuthEvent.ownerLost) := by
    intro k
    rw [List.filter_eq_nil_iff]
    intro e he
    obtain ⟨id, rfl⟩ := hlost e he
    simp [AuthEvent.counts]
  have hconsumes : Table.Neutral AuthEvent.consumes ((s.lost i).map AuthEvent.ownerLost) := by
    intro k
    rw [List.filter_eq_nil_iff]
    intro e he
    obtain ⟨id, rfl⟩ := hlost e he
    simp [AuthEvent.consumes]
  obtain ⟨hunverified, hguesses⟩ :=
    h.unverified_append (t := s.commit i) hnew (List.append_assoc _ _ _).symm
  exact ⟨h.users.commit hcounts workOf_ended fun _ hj => workOf_ended_other hj,
    h.codes.commit hconsumes workOf_ended fun _ hj => workOf_ended_other hj,
    fun y hy => h.work y (List.mem_filter.mp hy).1, hunverified, hguesses⟩

/-- Whatever is executed, where calls take turns. -/
theorem Counted.exec (h : s.Counted) {o : AuthOp} {input : AuthInput} {r : Except AuthFault o.Res}
    (hpre : o.pre i s) (hturn : inTurn i o input s) (hexec : o.exec host i input s = some (r, t)) :
    t.Counted := by
  refine AuthOp.exec_keeps hexec (h.tick _) (fun _ hu => hu.rollback) (fun _ hu => hu.drop) ?_
  intro a hp
  cases ho : o.ends with
  | false =>
      exact (h.tick _).perform ho (AuthOp.pre_stable AuthOp.tick_rely hpre) hturn hp
  | true =>
      rcases AuthOp.ending ho hp with rfl | rfl
      · exact (h.tick _).commit
      · exact (h.tick _).rollback

theorem Quiet.counted (h : s.Quiet) : s.Counted := by
  have hwork : ∀ i, s.workOf i = [] := fun i => by rw [workOf, h.work]; rfl
  constructor
  case users =>
    refine ⟨fun k => ?_, fun i k row hown => ?_, fun i k _ => by rw [hwork]; rfl⟩
    · rw [h.log]
      exact .nil
    · rw [h.users i k] at hown
      cases hown
  case codes =>
    refine ⟨fun k => ?_, fun i k row hown => ?_, fun i k _ => by rw [hwork]; rfl⟩
    · rw [h.log]
      exact ⟨Nat.zero_le _, fun _ => rfl⟩
    · rw [h.codes i k] at hown
      cases hown
  case work => simp [h.work]
  case unverified => simp [h.log]
  case guesses => simp [h.log]

end AuthDesk

end BookHouse
