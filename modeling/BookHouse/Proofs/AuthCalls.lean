/-
Every call of the account services keeps its promises, whatever the others do meanwhile.
-/
import BookHouse.Proofs.AuthRules

namespace BookHouse

open AuthDesk

namespace AuthCall

-- no call is run here, so what is typed in need not be read
attribute [local irreducible] contactOf trim

variable {host : AuthHost} {s t u : AuthDesk} {i : TxId} {α β : Type}

/-- From `s` on, the call of `i` keeps its promises, and what it returns comes with `R`. -/
abbrev Gives (host : AuthHost) (i : TxId) (R : α → AuthDesk → Prop) (p : AuthCall α)
    (s : AuthDesk) : Prop :=
  (authContract host).Obeys i (Prog.Contract.Ends R fun _ => True) p s

abbrev Keeps (host : AuthHost) (i : TxId) (p : AuthCall α) (s : AuthDesk) : Prop :=
  Gives host i (fun _ _ => True) p s

/-- The call has rotated no session and written no account. -/
def Ready (i : TxId) (s : AuthDesk) : Prop := s.exchanging i = none ∧ Idle i s

theorem Ready.stable (h : Ready i s) (hr : Rely i s t) : Ready i t :=
  ⟨hr.exchanging.trans h.1, h.2.stable hr⟩

/-- A statement that is about neither. -/
theorem Ready.perform {o : AuthOp} {a : o.Res} {x : String} (h : Ready i s) (ho : o.ends = false)
    (husers : o.onUsers = false) (hsessions : o.onSessions = false)
    (hperform : o.perform host i x s = some (a, t)) : Ready i t := by
  have hdid := o.perform_did ho hperform
  refine ⟨?_, fun id => ?_⟩
  · rw [(hdid.sessions hsessions).2]
    exact h.1
  · rw [hdid.users husers]
    exact h.2 id

theorem gives_throw {R : α → AuthDesk → Prop} {fault : AuthFault} :
    Gives host i R (throw fault : AuthCall α) s := fun _ _ => trivial

theorem keeps_throw {fault : AuthFault} : Keeps host i (throw fault : AuthCall α) s :=
  gives_throw

theorem keeps_return {a : α} : Keeps host i (pure a : AuthCall α) s := fun _ _ => trivial

theorem keeps_refuse {code message : String} : Keeps host i (refuse code message : AuthCall α) s :=
  gives_throw

/-- A statement, and the rest of the call where it answered. -/
theorem gives_ask {R : α → AuthDesk → Prop} {o : AuthOp} {f : o.Res → AuthCall α} (hpre : o.pre i s)
    (hok : ∀ u x a t, Rely i s u → o.perform host i x u = some (a, t) → Gives host i R (f a) t) :
    Gives host i R (ask o >>= f) s := by
  refine Prog.Contract.Obeys.perform hpre (fun u x a t hu _ he => ?_)
    fun _ _ _ _ _ _ _ _ _ => trivial
  rcases AuthOp.exec_cases he with ⟨fault, herr, -⟩ | ⟨a', ha, hperform⟩
  · cases herr
  · obtain rfl := Except.ok.inj ha
    have htick : Rely i u (u.tick x.elapsed) := AuthOp.tick_rely
    exact hok _ x.random a t (Rely.trans hu htick) hperform

theorem keeps_ask {o : AuthOp} {f : o.Res → AuthCall α} (hpre : o.pre i s)
    (hok : ∀ u x a t, Rely i s u → o.perform host i x u = some (a, t) → Keeps host i (f a) t) :
    Keeps host i (ask o >>= f) s := gives_ask hpre hok

/-- The rest of a call may use what its first part gives. -/
theorem gives_bind {R : α → AuthDesk → Prop} {R' : β → AuthDesk → Prop} {p : AuthCall α}
    {f : α → AuthCall β} (hp : Gives host i R p s) (hf : ∀ a t, R a t → Gives host i R' (f a) t) :
    Gives host i R' (p >>= f) s := by
  refine Prog.Contract.Obeys.bind (Prog.Contract.Obeys.mono (fun r t hr => ?_) hp)
  cases r with
  | ok a => exact hf a t hr
  | error fault => exact trivial

/-- A statement without a promise, of a call that goes on without one. -/
theorem keeps_ask' {o : AuthOp} {f : o.Res → AuthCall α} (hpre : o.pre i s)
    (hok : ∀ a t, Keeps host i (f a) t) : Keeps host i (ask o >>= f) s :=
  keeps_ask hpre fun _ _ a t _ _ => hok a t

/-- A statement that is the last of its call. -/
theorem keeps_last {o : AuthOp} (hpre : o.pre i s) : Keeps host i (ask o) s := by
  refine ⟨hpre, fun _ _ r _ _ _ _ => ?_⟩
  cases r with
  | ok a => exact fun _ _ => trivial
  | error fault => exact fun _ _ => trivial

theorem keeps_bind {p : AuthCall α} {f : α → AuthCall β} (hp : Keeps host i p s)
    (hf : ∀ a t, Keeps host i (f a) t) : Keeps host i (p >>= f) s :=
  gives_bind hp fun a t _ => hf a t

theorem keeps_mustFind {found : Bool} {f : Unit → AuthCall α} (h : Keeps host i (f ()) s) :
    Keeps host i (mustFind found >>= f) s := by
  cases found with
  | false => exact keeps_throw
  | true => exact h

theorem keeps_tx {body : AuthCall α} (h : Keeps host i body s) : Keeps host i (tx body) s := by
  refine Prog.Contract.Obeys.bind (Prog.Contract.Obeys.catching (Prog.Contract.Obeys.mono (fun r u _ => ?_) h))
  cases r with
  | ok a => exact keeps_ask' (o := .commit) trivial fun _ _ => keeps_return
  | error fault => exact keeps_ask' (o := .rollback) trivial fun _ _ => keeps_throw

/-! ### Signing in and out -/

section auth

open AuthService

theorem keeps_issue {id : UserId} {user : User} {parent : Option SessionId}
    (h : s.exchanging i = parent) : Keeps host i (issue host id user parent) s := by
  refine keeps_ask (o := .random) trivial fun u x a t hu hp => ?_
  obtain ⟨-, rfl⟩ := Prod.mk.inj (Option.some.inj hp)
  refine keeps_ask (o := .createSession ..) (hu.exchanging.trans h) fun v y r w _ _ => ?_
  cases r with
  | none => exact keeps_throw
  | some sid => exact keeps_return

/-- Looking an account up, and the rest of the call. -/
theorem keeps_findByIdentifier {identifier : String}
    {f : Option (UserId × User) → AuthCall α} (h : Ready i s)
    (hf : ∀ r t, Ready i t → Keeps host i (f r) t) :
    Keeps host i (findByIdentifier host identifier >>= f) s := by
  unfold findByIdentifier
  split
  · refine keeps_ask (o := .findUser _) h.2 fun u x a t hu hp => ?_
    exact hf a t ((h.stable hu).perform rfl rfl rfl hp)
  · exact hf none s h

theorem keeps_login {dto : LoginDto} (h : Ready i s) : Keeps host i (login host dto) s := by
  unfold login
  refine keeps_findByIdentifier h ?_
  intro found t ht
  cases found.filter fun u => u.2.passwordHash.isSome && u.2.deletedAt.isNone with
  | none => exact keeps_throw
  | some r =>
      obtain ⟨id, user⟩ := r
      show Keeps host i (if _ then _ else _) t
      split
      · exact keeps_throw
      refine keeps_ask (o := .clock) trivial fun u x now v hu hp => ?_
      have hv : Ready i v := (ht.stable hu).perform rfl rfl rfl hp
      obtain ⟨hnow, rfl⟩ := Prod.mk.inj (Option.some.inj hp)
      show Keeps host i (if _ then _ else _) u
      split
      · exact keeps_throw
      rename_i hunlocked
      have hlock : user.lockedUntil.all (· ≤ u.now) = true := by
        rw [← hnow] at hunlocked
        cases hl : user.lockedUntil with
        | none => rfl
        | some l => simpa [hl] using hunlocked
      refine keeps_ask (o := .verify id user dto.password) hlock fun v x ok w hv' hp => ?_
      have hw : Ready i w := (hv.stable hv').perform rfl rfl rfl hp
      cases ok with
      | false => exact keeps_ask' (o := .updateUser ..) rfl fun found t => keeps_mustFind keeps_throw
      | true =>
          refine keeps_ask (o := .updateUser id .signedIn) rfl fun v x found t hv hp => ?_
          refine keeps_mustFind (keeps_issue ?_)
          have hsame := ((AuthOp.updateUser id .signedIn).perform_did rfl hp).sessions rfl
          rw [hsame.2]
          exact (hw.stable hv).1

/-- A session that was found is there. -/
theorem lt_next_of_findSession {hash : String} {id : SessionId} {session : AuthSession}
    {user : User} {x : String}
    (h : (AuthOp.findSession hash).perform host i x s = some (some (id, session, user), t)) :
    id < t.sessions.next := by
  obtain ⟨hfound, rfl⟩ := Prod.mk.inj (Option.some.inj h)
  obtain ⟨r, hr, hrest⟩ := Option.bind_eq_some_iff.mp hfound
  obtain ⟨u, -, heq⟩ := Option.bind_eq_some_iff.mp hrest
  obtain ⟨rfl, -⟩ := Prod.mk.inj (Option.some.inj heq)
  exact Table.lt_next (Table.mem_list.mp (List.mem_of_find?_eq_some hr))

theorem keeps_refresh {refreshToken : Option String} (h : Ready i s) :
    Keeps host i (refresh host refreshToken) s := by
  unfold refresh
  split
  · exact keeps_throw
  rename_i token _
  refine keeps_ask (o := .findSession (host.sha256 token)) h.2 fun u x found t hu hp => ?_
  have ht : Ready i t := (h.stable hu).perform rfl rfl rfl hp
  cases found with
  | none => exact keeps_throw
  | some r =>
      obtain ⟨id, session, user⟩ := r
      show Keeps host i (if _ then _ else _) t
      split
      · exact keeps_ask' (o := .revokeUser ..) (lt_next_of_findSession hp) fun _ _ => keeps_throw
      refine keeps_ask' (o := .clock) trivial fun now t => ?_
      show Keeps host i (if _ then _ else _) t
      split
      · exact keeps_throw
      refine keeps_ask (o := .rotate id) trivial fun u x found t hu hp => ?_
      rcases rotate_some hp with ⟨-, rfl, rfl⟩ | ⟨r, sessions, -, rfl, -, rfl⟩
      · exact keeps_throw
      · exact keeps_issue (Function.update_self ..)

theorem keeps_logout {user : Option Actor} {refreshToken : Option String} :
    Keeps host i (logout host user refreshToken) s := by
  unfold logout
  refine keeps_bind ?_ fun _ t => keeps_bind ?_ fun _ _ => keeps_return
  · unfold revokeToken
    split
    · exact keeps_last trivial
    · exact keeps_return
  · unfold revokeCurrent
    split
    · exact keeps_last trivial
    · exact keeps_return

theorem keeps_forgotPassword {identifier : String} (h : Ready i s) :
    Keeps host i (forgotPassword host identifier) s := by
  unfold forgotPassword
  refine keeps_findByIdentifier h fun found t ht => ?_
  cases found.filter fun u => u.2.status = .active with
  | none => exact keeps_return
  | some r =>
      refine keeps_ask' (o := .random) trivial fun code t => ?_
      exact keeps_bind (keeps_tx (keeps_last trivial)) fun _ _ => keeps_return

/-- A statement, and the rest of a call that has rotated nothing and written no account. -/
theorem keeps_read {o : AuthOp} {f : o.Res → AuthCall α} (h : Ready i s) (hpre : o.pre i s)
    (ho : o.ends = false) (husers : o.onUsers = false) (hsessions : o.onSessions = false)
    (hok : ∀ a t, Ready i t → Keeps host i (f a) t) : Keeps host i (ask o >>= f) s :=
  keeps_ask hpre fun _ _ a t hu hp => hok a t ((h.stable hu).perform ho husers hsessions hp)

/-- A salt is drawn and an account is written that stays what it is. -/
theorem keeps_salted {id : UserId} {w : String → UserWrite} {f : AuthCall α}
    (hw : ∀ salt, (w salt).removes = false) (h : Ready i s) (hf : ∀ t, Keeps host i f t) :
    Keeps host i (ask .random >>= fun salt =>
      ask (.updateUserTx id (w salt)) >>= fun found => mustFind found >>= fun _ => f) s := by
  refine keeps_read h trivial rfl rfl rfl fun salt t ht => ?_
  refine keeps_ask' (o := .updateUserTx id (w salt)) ⟨ht.2, fun hc => ?_⟩ fun found t =>
    keeps_mustFind (hf t)
  rw [hw salt] at hc
  cases hc

theorem keeps_resetPassword {dto : ResetPasswordDto} (h : Ready i s) :
    Keeps host i (AuthService.resetPassword host dto) s := by
  unfold AuthService.resetPassword
  refine keeps_findByIdentifier h fun found t ht => ?_
  cases found with
  | none => exact keeps_refuse
  | some r =>
      obtain ⟨id, user⟩ := r
      refine keeps_read ht trivial rfl rfl rfl fun found t ht => ?_
      cases hc : found.filter fun c => c.2.attempts < otpMaxAttempts with
      | none => exact keeps_refuse
      | some c =>
          obtain ⟨codeId, code⟩ := c
          have hattempts : code.attempts < otpMaxAttempts := by
            simpa using (Option.filter_eq_some_iff.mp hc).2
          refine keeps_read ht hattempts rfl rfl rfl fun right t ht => ?_
          cases right with
          | false => exact keeps_ask' (o := .miss codeId) trivial fun _ _ =>
              keeps_mustFind keeps_refuse
          | true =>
              refine keeps_tx (keeps_read ht trivial rfl rfl rfl fun found t ht =>
                keeps_mustFind (keeps_salted (fun _ => rfl) ht fun t => ?_))
              exact keeps_ask' (o := .revokeUserTx ..) rfl fun _ _ => keeps_return

theorem keeps_changePassword {user : Actor} {current next : String} (h : Ready i s) :
    Keeps host i (changePassword host user current next) s := by
  unfold changePassword
  refine keeps_read (o := .getUser user.id) h h.2 rfl rfl rfl fun found t ht => ?_
  cases found with
  | none => exact keeps_throw
  | some u =>
      show Keeps host i (if _ then _ else _) t
      split
      · refine keeps_tx (keeps_salted (fun _ => rfl) ht fun t => ?_)
        exact keeps_ask' (o := .revokeUserTx ..) rfl fun _ _ => keeps_return
      · exact keeps_refuse

end auth

/-! ### Staff accounts -/

section staff

open StaffService

/-- `i` has read the account, and it was this one. -/
def Found (i : TxId) (id : UserId) (u : User) (s : AuthDesk) : Prop :=
  ∃ r, s.readings i = some r ∧ r.mark ≤ s.log.length ∧ (u.activeOwner = false → r.owners id = false)

theorem Found.stable {id : UserId} {user : User} (h : Found i id user s) (hr : Rely i s t) :
    Found i id user t := by
  obtain ⟨r, hread, hmark, howner⟩ := h
  obtain ⟨new, hlog, -⟩ := hr.log
  refine ⟨r, hr.reading.trans hread, ?_, howner⟩
  rw [hlog, List.length_append]
  omega

/-- An account that was no owner takes no owner out. -/
theorem Found.checked {id : UserId} {user : User} (h : Found i id user s)
    (hrole : user.role ≠ .owner) : Checked i id s := by
  obtain ⟨r, hread, hmark, howner⟩ := h
  exact ⟨r, hread, hmark, .inl (howner (by simp [User.activeOwner, hrole]))⟩

theorem gives_getUser {R : α → AuthDesk → Prop} {id : UserId} {f : Option User → AuthCall α}
    (h : Ready i s) (hf : ∀ found t, Ready i t → (∀ u, found = some u → Found i id u t) →
      Gives host i R (f found) t) : Gives host i R (ask (.getUser id) >>= f) s := by
  refine gives_ask (o := .getUser id) h.2 fun v x found t hu hp => ?_
  refine hf found t ((h.stable hu).perform rfl rfl rfl hp) fun user huser => ?_
  obtain ⟨hrow, rfl⟩ := Prod.mk.inj (Option.some.inj hp)
  refine ⟨_, Function.update_self .., le_refl _, fun hactive => ?_⟩
  have hcommitted : v.users.committed id = some user := hrow.trans huser
  simp [hcommitted, hactive]

theorem gives_find {id : UserId} (h : Ready i s) :
    Gives host i (fun u t => Ready i t ∧ Found i id u t) (StaffService.find id) s := by
  unfold StaffService.find
  refine gives_getUser h fun found t ht hfound => ?_
  cases hc : found.filter fun u => u.role ∈ allStaff with
  | none => exact gives_throw
  | some u =>
      have hread := hfound u (Option.filter_eq_some_iff.mp hc).1
      exact fun v hv => ⟨ht.stable hv, hread.stable hv⟩

/-- The check for the last owner. -/
theorem gives_guard {id : UserId} {user : User} {removes : Bool} (h : Ready i s)
    (hfound : Found i id user s) :
    Gives host i (fun _ t => Ready i t ∧ (removes = true ∨ user.role ≠ .owner → Checked i id t))
      (guardLastOwner removes id) s := by
  cases removes with
  | false =>
      refine fun t ht => ⟨h.stable ht, ?_⟩
      rintro (hc | hrole)
      · cases hc
      · exact (hfound.stable ht).checked hrole
  | true =>
      refine gives_ask (o := .otherOwners id) trivial fun v x n t hu hp => ?_
      obtain ⟨hn, rfl⟩ := Prod.mk.inj (Option.some.inj hp)
      show Gives host i _ (if _ then _ else _) v
      split
      · exact gives_throw
      rename_i hpos
      have hother : ∃ w, w ≠ id ∧ v.Owner w := by
        have hcount : 0 < v.otherOwners id := by
          rw [hn]
          exact Nat.pos_of_ne_zero hpos
        obtain ⟨⟨w, r⟩, hmem, hr⟩ := List.countP_pos_iff.mp hcount
        simp only [Bool.and_eq_true, decide_eq_true_eq] at hr
        exact ⟨w, hr.2, (Option.any_eq_true _ _).mpr ⟨r, Table.mem_list.mp hmem, hr.1⟩⟩
      obtain ⟨r, hread, hmark, -⟩ := hfound.stable hu
      have hchecked : Checked i id v := ⟨r, hread, hmark, .inr fun _ => hother⟩
      exact fun t ht => ⟨(h.stable hu).stable ht, fun _ => hchecked.stable ht⟩

/-- An account is written, and its sessions may be revoked. -/
theorem keeps_write {id : UserId} {w : UserWrite} {rest : AuthCall α} (h : Ready i s)
    (hw : w.removes = true → Checked i id s) (hrest : ∀ t, Keeps host i rest t) :
    Keeps host i (tx (ask (.updateUserTx id w) >>= fun found => mustFind found >>= fun _ => rest))
      s :=
  keeps_tx (keeps_ask' (o := .updateUserTx id w) ⟨h.2, hw⟩ fun _ t => keeps_mustFind (hrest t))

theorem keeps_lift {x : Except AuthFault Unit} {f : Unit → AuthCall α}
    (hf : Keeps host i (f ()) s) : Keeps host i (Prog.lift x >>= f) s := by
  cases x with
  | error fault => exact keeps_throw
  | ok a => exact hf

theorem keeps_create {dto : CreateStaffDto} {actor : Actor} (h : Ready i s) :
    Keeps host i (StaffService.create host dto actor) s := by
  unfold StaffService.create
  refine keeps_lift (keeps_read (o := .findUser _) h h.2 rfl rfl rfl fun found t ht => ?_)
  cases found with
  | some r => exact keeps_throw
  | none =>
      refine keeps_read ht trivial rfl rfl rfl fun temp t ht => ?_
      refine keeps_tx (keeps_read ht trivial rfl rfl rfl fun salt t ht => ?_)
      refine keeps_ask' (o := .createUserTx _) ht.2 fun r t => ?_
      cases r with
      | none => exact keeps_throw
      | some id => exact keeps_return

theorem keeps_changeRole {id : UserId} {role : UserRole} {actor : Actor} (h : Ready i s) :
    Keeps host i (changeRole id role actor) s := by
  unfold changeRole
  refine keeps_lift (gives_bind (gives_find h) fun u t ⟨ht, hfound⟩ => ?_)
  refine gives_bind (gives_guard ht hfound) fun _ t ⟨ht, hguard⟩ => ?_
  refine keeps_write ht (fun hw => hguard ?_) fun t =>
    keeps_ask' (o := .revokeUserTx ..) rfl fun _ _ => keeps_return
  have hrole : role ≠ .owner := by simpa [UserWrite.removes] using hw
  by_cases hu : u.role = .owner
  · exact .inl (by simp [hu, hrole])
  · exact .inr hu

theorem keeps_setEnabled {id : UserId} {enabled : Bool} {actor : Actor} (h : Ready i s) :
    Keeps host i (setEnabled id enabled actor) s := by
  unfold setEnabled
  split
  · exact keeps_refuse
  refine gives_bind (gives_find h) fun u t ⟨ht, hfound⟩ => ?_
  refine gives_bind (gives_guard ht hfound) fun _ t ⟨ht, hguard⟩ => ?_
  refine keeps_write ht (fun hw => hguard ?_) fun t => ?_
  · have henabled : enabled = false := by simpa [UserWrite.removes] using hw
    by_cases hu : u.role = .owner
    · exact .inl (by simp [hu, henabled])
    · exact .inr hu
  · split
    · exact keeps_return
    · exact keeps_ask' (o := .revokeUserTx ..) rfl fun _ _ => keeps_return

theorem keeps_staffReset {id : UserId} (h : Ready i s) :
    Keeps host i (StaffService.resetPassword host id) s := by
  unfold StaffService.resetPassword
  refine gives_bind (gives_find h) fun u t ⟨ht, _⟩ => ?_
  refine keeps_read ht trivial rfl rfl rfl fun temp t ht => ?_
  refine keeps_bind (keeps_tx (keeps_salted (fun _ => rfl) ht fun t => ?_)) fun _ _ => keeps_return
  exact keeps_last rfl

theorem keeps_setAccess {id : UserId} {blocked : Bool} {actor : Actor} (h : Ready i s) :
    Keeps host i (setAccess id blocked actor) s := by
  unfold setAccess
  split
  · exact keeps_refuse
  refine gives_getUser h fun found t ht hfound => ?_
  cases hc : found.filter fun u => u.deletedAt.isNone with
  | none => exact keeps_throw
  | some u =>
      have hread := hfound u (Option.filter_eq_some_iff.mp hc).1
      show Keeps host i (if _ then _ else _) t
      split
      · exact keeps_throw
      refine gives_bind (gives_guard ht hread) fun _ t ⟨ht, hguard⟩ => ?_
      refine keeps_write ht (fun hw => hguard ?_) fun t => ?_
      · have hblocked : blocked = true := hw
        by_cases hu : u.role = .owner
        · exact .inl (by simp [hu, hblocked])
        · exact .inr hu
      · split
        · exact keeps_ask' (o := .revokeUserTx ..) rfl fun _ _ => keeps_return
        · exact keeps_return

end staff

/-- Every call keeps its promises from wherever it starts. -/
theorem keeps_request {request : AuthRequest} (h : Ready i s) :
    Keeps host i (request.body host) s := by
  cases request with
  | login dto => exact keeps_login h
  | refresh refreshToken => exact keeps_refresh h
  | logout user refreshToken => exact keeps_logout
  | logoutEverywhere user => exact keeps_ask' (o := .revokeUser ..) trivial fun _ _ => keeps_return
  | forgotPassword identifier => exact keeps_forgotPassword h
  | resetPassword dto => exact keeps_resetPassword h
  | changePassword user current next => exact keeps_changePassword h
  | staff actor call =>
      cases call with
      | create dto => exact keeps_create h
      | changeRole id role => exact keeps_changeRole h
      | setEnabled id enabled => exact keeps_setEnabled h
      | resetPassword id => exact keeps_staffReset h
      | setAccess id blocked => exact keeps_setAccess h

end AuthCall

/-- Nobody is at work, and what a session came from is not known. -/
structure AuthDesk.Quiet (s : AuthDesk) : Prop where
  users : ∀ i id, s.users.own i id = none
  sessions : ∀ i id, s.sessions.own i id = none
  codes : ∀ i id, s.codes.own i id = none
  log : s.log = []
  work : s.work = []
  readings : ∀ i, s.readings i = none
  exchanging : ∀ i, s.exchanging i = none
  origins : ∀ id session, s.sessions.committed id = some session →
    session.parent = none ∧ session.family = id ∧ session.basis = 0

theorem AuthDesk.Quiet.kept {host : AuthHost} {s : AuthDesk} (h : s.Quiet) :
    (authContract host).Kept
      (fun _ : ℕ => Prog.Contract.Ends (fun (_ : AuthAnswer) _ => True) fun _ => True)
      ({ state := s } : AuthWorld) := by
  refine ⟨⟨fun i r hr => ?_, fun i k row hown => ?_⟩, fun i p hp => ?_,
    fun i _ => ⟨h.exchanging i, h.users i⟩⟩
  · have hnone : s.readings i = some r := hr
    rw [h.readings i] at hnone
    cases hnone
  · have hnone : s.sessions.own i k = some row := hown
    rw [h.sessions i k] at hnone
    cases hnone
  · cases hp

/-- What every admitted statement keeps, every admitted run keeps. -/
theorem AuthDesk.Quiet.guarded {host : AuthHost} {s : AuthDesk} {J : AuthDesk → Prop}
    {ok : ℕ → AuthOp → AuthInput → AuthDesk → Prop} {as : List AuthAct} {w : AuthWorld}
    (h : s.Quiet) (hj : J s)
    (hguard : Machine.GuardedRun (authStep host) (Prog.World.Admits ok) { state := s } as)
    (hrun : Machine.runFrom (authStep host) { state := s } as = some w)
    (hJ : ∀ (i : TxId) (o : AuthOp) (x : AuthInput) (s : AuthDesk) (r : Except AuthFault o.Res)
      (t : AuthDesk), s.Sound → o.pre i s → ok i o x s → J s → o.exec host i x s = some (r, t) →
        J t) : J w.state :=
  Prog.Contract.Kept.guarded (C := authContract host)
    (fun _ _ _ _ hfresh => AuthCall.keeps_request hfresh) hJ as h.kept hj hguard hrun

/-- Tables nobody has worked on. -/
def AuthDesk.ofLists (users : List User) (sessions : List AuthSession)
    (codes : List VerificationCode) : AuthDesk where
  now := 0
  users := .ofList users
  sessions := .ofList sessions
  codes := .ofList codes

theorem AuthDesk.ofLists_quiet {users : List User} {sessions : List AuthSession}
    {codes : List VerificationCode}
    (h : ∀ k (s : AuthSession), sessions[k]? = some s →
      s.parent = none ∧ s.family = k ∧ s.basis = 0) :
    (ofLists users sessions codes).Quiet where
  users _ _ := Table.own_ofList
  sessions _ _ := Table.own_ofList
  codes _ _ := Table.own_ofList
  log := rfl
  work := rfl
  readings _ := rfl
  exchanging _ := rfl
  origins k session hs := h k session hs

/-- A host whose hashes show what they are of. -/
def plainHost : AuthHost where
  toLowerCase := id
  sha256 v := "sha256:" ++ v
  argonHash password _ := "argon2:" ++ password
  argonVerify hash password := hash = "argon2:" ++ password

end BookHouse
