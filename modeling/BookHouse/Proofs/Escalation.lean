/-
Staff calls that spare owners and admins escalate nothing.

A call that runs alone leaves the accounts as they were, or its one transaction writes one
row: a new account or the one the call is about (`Writes` has a case for each call).  Creating
and changing a role look at the role that is granted, `setAccess` at the role of the account;
the other writes look at neither, so what has to hold before them is that the account is no
owner's or admin's (`sparesPrivileged`).  From the writes of one call the rest is read off, and a
run keeps what each of its calls keeps.
-/
import BookHouse.Auth.StaffMachine
import BookHouse.Proofs.AuthCalls

namespace BookHouse

open AuthCall AuthDesk Prog

/-- The roles that only an owner may grant or block. -/
def UserRole.privileged (r : UserRole) : Bool := r = .owner || r = .admin

def Grants (actor : Actor) (role : UserRole) : Prop := role.privileged = true → actor.role = .owner

/-- What a call may make of an account, from the accounts it found. -/
inductive Writes (actor : Actor) (s : AuthDesk) : StaffCall → UserId → Option User → Prop
  | create {dto : CreateStaffDto} {k : UserId} {u : User} (hnew : s.users.committed k = none)
      (hrole : u.role = dto.role) (hgrant : Grants actor dto.role) :
      Writes actor s (.create dto) k (some u)
  | changeRole {id : UserId} {role : UserRole} {u : User} {now : Instant}
      (hu : s.users.committed id = some u) (hgrant : Grants actor role) :
      Writes actor s (.changeRole id role) id (some ((UserWrite.role role).apply now u))
  | setEnabled {id : UserId} {enabled : Bool} {u : User} {now : Instant}
      (hu : s.users.committed id = some u) :
      Writes actor s (.setEnabled id enabled) id (some ((UserWrite.enabled enabled).apply now u))
  | resetPassword {id : UserId} {hash : String} {u : User} {now : Instant}
      (hu : s.users.committed id = some u) :
      Writes actor s (.resetPassword id) id (some ((UserWrite.tempPassword hash).apply now u))
  | setAccess {id : UserId} {blocked : Bool} {u : User} {now : Instant}
      (hu : s.users.committed id = some u) (hgrant : Grants actor u.role) :
      Writes actor s (.setAccess id blocked) id (some ((UserWrite.access blocked).apply now u))

/-- Whose password a call may return. -/
def Returns (s : AuthDesk) (call : StaffCall) (a : AuthAnswer) : Prop :=
  ∀ id temp, a = .tempPassword id temp →
    (∃ dto, call = .create dto ∧ s.users.committed id = none) ∨ call = .resetPassword id

/-! ### A call that runs alone -/

section alone

variable {host : AuthHost} {i : TxId} {s₀ s t : AuthDesk} {W : UserId → Option User → Prop}
  {α β : Type} {Q : Except AuthFault β → AuthDesk → Prop} {V : α → Prop}

/-- The call has changed no account yet, and what it is about to write is `W`. -/
structure Working (i : TxId) (s₀ : AuthDesk) (W : UserId → Option User → Prop) (s : AuthDesk) :
    Prop where
  committed : ∀ k, s.users.committed k = s₀.users.committed k
  own : ∀ k row, s.users.own i k = some row → W k row
  others : ∀ j k, j ≠ i → s.users.own j k = none

abbrev Untouched (i : TxId) (s₀ s : AuthDesk) : Prop := Working i s₀ (fun _ _ => False) s

/-- The accounts are as they were or as `W` has them, and nobody is at work. -/
structure Done (s₀ : AuthDesk) (W : UserId → Option User → Prop) (t : AuthDesk) : Prop where
  settled : ∀ j k, t.users.own j k = none
  rows : ∀ k, t.users.committed k = s₀.users.committed k ∨ W k (t.users.committed k)

/-- The transaction of a call ends so, … -/
def Writing (i : TxId) (s₀ : AuthDesk) (W : UserId → Option User → Prop) (V : α → Prop) :
    Except AuthFault α → AuthDesk → Prop
  | .ok a, t => Working i s₀ W t ∧ V a
  | .error _, t => Working i s₀ W t

/-- … and the call so. -/
def Leaves (s₀ : AuthDesk) (W : UserId → Option User → Prop) (V : α → Prop) :
    Except AuthFault α → AuthDesk → Prop
  | .ok a, t => Done s₀ W t ∧ V a
  | .error _, t => Done s₀ W t

theorem Working.of_users (h : Working i s₀ W s) (hu : t.users = s.users) : Working i s₀ W t := by
  refine ⟨fun k => ?_, fun k row => ?_, fun j k hj => ?_⟩
  · rw [hu, h.committed]
  · rw [hu]
    exact h.own k row
  · rw [hu, h.others j k hj]

theorem Working.mono {W' : UserId → Option User → Prop} (h : Working i s₀ W s)
    (hW : ∀ k row, W k row → W' k row) : Working i s₀ W' s :=
  ⟨h.committed, fun k row hown => hW k row (h.own k row hown), h.others⟩

theorem Working.commit (h : Working i s₀ W s) : Done s₀ W (s.commit i) := by
  constructor
  case settled =>
    intro j k
    by_cases hj : j = i
    · subst hj
      exact Table.own_commit_self
    · exact (Table.own_commit_other hj).trans (h.others j k hj)
  case rows =>
    intro k
    show s.users.seen i k = _ ∨ W k (s.users.seen i k)
    cases hown : s.users.own i k with
    | none => exact .inl ((Table.seen_of_own_none hown).trans (h.committed k))
    | some row =>
        rw [Table.seen_of_own hown]
        exact .inr (h.own k row hown)

theorem Working.rollback (h : Working i s₀ W s) : Done s₀ W (s.rollback i) := by
  constructor
  case settled =>
    intro j k
    by_cases hj : j = i
    · subst hj
      exact Table.own_rollback_self
    · exact (Table.own_rollback_other hj).trans (h.others j k hj)
  case rows => exact fun k => .inl (h.committed k)

theorem Working.idle (h : Untouched i s₀ s) (k : UserId) : s.users.own i k = none := by
  cases hown : s.users.own i k with
  | none => rfl
  | some row => exact (h.own k row hown).elim

theorem Working.done (h : Untouched i s₀ s) : Done s₀ W s := by
  refine ⟨fun j k => ?_, fun k => .inl (h.committed k)⟩
  by_cases hj : j = i
  · rw [hj, h.idle k]
  · exact h.others j k hj

theorem dropped_users {o : AuthOp} (ho : o ≠ .commit) : (o.dropped i s).users = s.users := by
  cases o with
  | commit => exact absurd rfl ho
  | _ => rfl

/-- A statement of a call that runs alone. -/
theorem alone_exec {o : AuthOp} {f : o.Res → AuthCall β} (ho : o ≠ .commit) (h : Working i s₀ W s)
    (hok : ∀ u x a t, Working i s₀ W u → o.perform host i x u = some (a, t) →
      Alone (AuthOp.exec host) i Q (f a) t)
    (herr : ∀ fault t, Working i s₀ W t → Q (.error fault) t) :
    Alone (AuthOp.exec host) i Q (AuthCall.ask o >>= f) s := by
  refine Alone.bind fun x r t hexec => ?_
  have htick : Working i s₀ W (s.tick x.elapsed) := h.of_users rfl
  rcases AuthOp.exec_cases hexec with ⟨fault, rfl, rfl⟩ | ⟨a, rfl, hperform⟩
  · exact herr _ _ (htick.of_users (dropped_users ho))
  · exact hok _ _ a t htick hperform

/-- A statement that writes no account. -/
theorem alone_ask {o : AuthOp} {f : o.Res → AuthCall β} (ho : o.onUsers = false)
    (h : Working i s₀ W s)
    (hok : ∀ a t, Working i s₀ W t → Alone (AuthOp.exec host) i Q (f a) t)
    (herr : ∀ fault t, Working i s₀ W t → Q (.error fault) t) :
    Alone (AuthOp.exec host) i Q (AuthCall.ask o >>= f) s := by
  have hcommit : o ≠ .commit := by
    rintro rfl
    cases ho
  have hends : o.ends = false := by
    cases o with
    | commit | rollback => cases ho
    | _ => rfl
  exact alone_exec hcommit h
    (fun u x a t hu hp => hok a t (hu.of_users ((o.perform_did hends hp).users ho))) herr

/-- An account is read as it is. -/
theorem alone_getUser {id : UserId} {f : Option User → AuthCall β} (h : Untouched i s₀ s)
    (hok : ∀ t, Untouched i s₀ t →
      Alone (AuthOp.exec host) i Q (f (s₀.users.committed id)) t)
    (herr : ∀ fault t, Untouched i s₀ t → Q (.error fault) t) :
    Alone (AuthOp.exec host) i Q (AuthCall.ask (.getUser id) >>= f) s := by
  refine alone_exec (o := .getUser id) (by simp) h (fun u x a t hu hp => ?_) herr
  obtain ⟨rfl, rfl⟩ := Prod.mk.inj (Option.some.inj hp)
  rw [hu.committed id]
  exact hok _ (hu.of_users rfl)

theorem alone_guard {removes : Bool} {id : UserId} {f : Unit → AuthCall β} (h : Working i s₀ W s)
    (hok : ∀ t, Working i s₀ W t → Alone (AuthOp.exec host) i Q (f ()) t)
    (herr : ∀ fault t, Working i s₀ W t → Q (.error fault) t) :
    Alone (AuthOp.exec host) i Q (StaffService.guardLastOwner removes id >>= f) s := by
  cases removes with
  | false => exact hok s h
  | true =>
      refine Alone.bind (alone_ask (o := .otherOwners id) rfl h (fun n t ht => ?_) herr)
      show Alone _ i _ (if _ then _ else _) t
      split
      · exact herr _ t ht
      · exact hok t ht

theorem alone_find {id : UserId} {f : User → AuthCall β} (h : Untouched i s₀ s)
    (hok : ∀ u t, s₀.users.committed id = some u → Untouched i s₀ t →
      Alone (AuthOp.exec host) i Q (f u) t)
    (herr : ∀ fault t, Untouched i s₀ t → Q (.error fault) t) :
    Alone (AuthOp.exec host) i Q (StaffService.find id >>= f) s := by
  refine Alone.bind (alone_getUser h (fun t ht => ?_) herr)
  cases hu : (s₀.users.committed id).filter fun u => u.role ∈ StaffService.allStaff with
  | none =>
      exact herr _ t ht
  | some u =>
      exact hok u t (Option.filter_eq_some_iff.mp hu).1 ht

theorem alone_tx {body : AuthCall α} (h : Alone (AuthOp.exec host) i (Writing i s₀ W V) body s) :
    Alone (AuthOp.exec host) i (Leaves s₀ W V) (tx body) s := by
  refine Alone.bind (Alone.catching (Alone.mono (fun r t ht => ?_) h))
  cases r with
  | ok a =>
      refine Alone.bind fun x r u hexec => ?_
      have htick : Working i s₀ W (t.tick x.elapsed) := ht.1.of_users rfl
      rcases AuthOp.exec_cases hexec with ⟨fault, rfl, rfl⟩ | ⟨a', rfl, hperform⟩
      · exact htick.rollback
      · obtain ⟨-, rfl⟩ := Prod.mk.inj (Option.some.inj hperform)
        exact ⟨htick.commit, ht.2⟩
  | error fault =>
      refine Alone.bind fun x r u hexec => ?_
      have htick : Working i s₀ W (t.tick x.elapsed) := Working.of_users ht rfl
      obtain ⟨rfl, rfl⟩ := AuthOp.exec_rollback hexec
      exact htick.rollback

/-- The update of an account, with what the transaction does after it. -/
theorem alone_write {id : UserId} {w : UserWrite} {rest : AuthCall α} (h : Untouched i s₀ s)
    (hw : ∀ u now, s₀.users.committed id = some u → W id (some (w.apply now u)))
    (hrest : ∀ t, Working i s₀ W t → Alone (AuthOp.exec host) i (Writing i s₀ W V) rest t) :
    Alone (AuthOp.exec host) i (Writing i s₀ W V)
      (AuthCall.ask (.updateUserTx id w) >>= fun found => mustFind found >>= fun _ => rest) s := by
  have hweak : ∀ t, Untouched i s₀ t → Working i s₀ W t := fun t ht => ht.mono fun _ _ hf => hf.elim
  refine alone_exec (o := .updateUserTx id w) (by simp) h (fun v x found t hv hp => ?_)
    fun _ t ht => hweak t ht
  rcases updateUserTx_some hp with ⟨-, rfl, rfl⟩ | ⟨u, users, hu, rfl, hwrite, rfl⟩
  · exact hweak _ hv
  · refine hrest _ ⟨fun k => ?_, fun k row hown => ?_, fun j k hj => ?_⟩
    · exact (Table.committed_update hwrite).trans (hv.committed k)
    · have hnow : users.own i k = some row := hown
      rw [Table.own_update_self hwrite] at hnow
      split at hnow
      · rename_i u' hu'
        obtain ⟨r, hr, hrow⟩ := Option.bind_eq_some_iff.mp hu'
        obtain ⟨rfl, rfl⟩ := AuthOp.onRow_some hrow
        obtain rfl := Option.some.inj hnow
        rw [Table.seen_of_own_none (hv.idle k), hv.committed] at hr
        exact hw r _ hr
      · exact (hv.own k row hnow).elim
    · exact (Table.own_update_other hwrite hj).trans (hv.others j k hj)

/-- The insert of an account. -/
theorem alone_insert {u : User} {f : Option UserId → AuthCall α} (h : Untouched i s₀ s)
    (hw : ∀ k, s₀.users.committed k = none → W k (some u))
    (hok : ∀ k t, s₀.users.committed k = none → Working i s₀ W t →
      Alone (AuthOp.exec host) i (Writing i s₀ W V) (f (some k)) t)
    (hnone : ∀ t, Working i s₀ W t → Alone (AuthOp.exec host) i (Writing i s₀ W V) (f none) t) :
    Alone (AuthOp.exec host) i (Writing i s₀ W V) (AuthCall.ask (.createUserTx u) >>= f) s := by
  have hweak : ∀ t, Untouched i s₀ t → Working i s₀ W t := fun t ht => ht.mono fun _ _ hf => hf.elim
  refine alone_exec (o := .createUserTx u) (by simp) h (fun v x r t hv hp => ?_)
    fun _ t ht => hweak t ht
  rcases createUserTx_some hp with ⟨rfl, rfl⟩ | ⟨rfl, rfl⟩
  · exact hnone _ (hweak _ hv)
  · have hnew : s₀.users.committed v.users.next = none := by
      rw [← hv.committed, Table.committed_next]
    refine hok _ _ hnew ⟨hv.committed, fun k row hown => ?_, fun j k hj => ?_⟩
    · have hnow : (v.users.insert i u).own i k = some row := hown
      by_cases hk : k = v.users.next
      · subst hk
        rw [Table.own_insert_self] at hnow
        obtain rfl := Option.some.inj hnow
        exact hw _ hnew
      · rw [Table.own_insert_of_ne hk, hv.idle k] at hnow
        cases hnow
    · exact (Table.own_insert_other hj).trans (hv.others j k hj)

/-- The transaction ends with a revocation, and the call with an answer that names nobody. -/
theorem alone_revoke {id : UserId} {why : SignOut} {a : α} (h : Working i s₀ W s) (ha : V a) :
    Alone (AuthOp.exec host) i (Writing i s₀ W V)
      (AuthCall.ask (.revokeUserTx id why none) >>= fun _ => (Pure.pure a : AuthCall α)) s :=
  alone_ask (o := .revokeUserTx id why none) rfl h (fun _ _ ht => ⟨ht, ha⟩) fun _ _ ht => ht

end alone

/-! ### Each call -/

section calls

open StaffService

variable {host : AuthHost} {actor : Actor} {i : TxId} {s : AuthDesk}

theorem grants_of {role : UserRole} (h : assertCanGrant actor role = .ok ()) : Grants actor role := by
  unfold assertCanGrant at h
  split at h
  · cases h
  · split at h
    · cases h
    · rename_i hrole
      intro hp
      simp only [UserRole.privileged, Bool.or_eq_true, decide_eq_true_eq] at hp
      by_contra howner
      exact hrole ⟨hp, howner⟩

theorem returns_done {call : StaffCall} : Returns s call .done := by
  intro id temp h
  cases h

/-- A check that fails ends the call before it does anything. -/
theorem alone_granted {call : StaffCall} {role : UserRole} {f : Unit → AuthCall AuthAnswer}
    (h : Untouched i s s)
    (hf : Grants actor role → Alone (AuthOp.exec host) i
      (Leaves s (Writes actor s call) (Returns s call)) (f ()) s) :
    Alone (AuthOp.exec host) i (Leaves s (Writes actor s call) (Returns s call))
      (Prog.lift (assertCanGrant actor role) >>= f) s := by
  cases hrole : assertCanGrant actor role with
  | error fault => exact h.done
  | ok a => exact hf (grants_of hrole)

theorem alone_create {dto : CreateStaffDto} (h : Untouched i s s) :
    Alone (AuthOp.exec host) i
      (Leaves s (Writes actor s (.create dto)) (Returns s (.create dto)))
      (create host dto actor) s := by
  refine alone_granted h fun hgrant => ?_
  refine alone_ask (o := .findUser _) rfl h (fun found t ht => ?_) fun _ t ht => ht.done
  cases found with
  | some u => exact ht.done
  | none =>
      refine alone_ask (o := .random) rfl ht (fun temp t ht => ?_) fun _ t ht => ht.done
      refine alone_tx (alone_ask (o := .random) rfl ht (fun salt t ht => ?_)
        fun _ t ht => ht.mono fun _ _ hf => hf.elim)
      refine alone_insert ht (fun k hk => .create hk rfl hgrant) (fun k t hk ht => ?_) fun t ht => ht
      refine ⟨ht, fun id temp' heq => .inl ⟨dto, rfl, ?_⟩⟩
      obtain ⟨rfl, -⟩ := AuthAnswer.tempPassword.inj heq
      exact hk

theorem alone_changeRole {id : UserId} {role : UserRole} (h : Untouched i s s) :
    Alone (AuthOp.exec host) i
      (Leaves s (Writes actor s (.changeRole id role)) (Returns s (.changeRole id role)))
      (changeRole id role actor) s := by
  refine alone_granted h fun hgrant => ?_
  refine alone_find h (fun u t _ ht => ?_) fun _ t ht => ht.done
  refine alone_guard ht (fun t ht => ?_) fun _ t ht => ht.done
  exact alone_tx (alone_write ht (fun u now hu => .changeRole hu hgrant)
    fun t ht => alone_revoke ht returns_done)

theorem alone_setEnabled {id : UserId} {enabled : Bool} (h : Untouched i s s) :
    Alone (AuthOp.exec host) i
      (Leaves s (Writes actor s (.setEnabled id enabled)) (Returns s (.setEnabled id enabled)))
      (setEnabled id enabled actor) s := by
  unfold setEnabled
  split
  · exact h.done
  refine alone_find h (fun u t _ ht => ?_) fun _ t ht => ht.done
  refine alone_guard ht (fun t ht => ?_) fun _ t ht => ht.done
  refine alone_tx (alone_write ht (fun u now hu => .setEnabled hu) fun t ht => ?_)
  cases enabled with
  | true => exact ⟨ht, returns_done⟩
  | false => exact alone_revoke ht returns_done

theorem alone_resetPassword {id : UserId} (h : Untouched i s s) :
    Alone (AuthOp.exec host) i
      (Leaves s (Writes actor s (.resetPassword id)) (Returns s (.resetPassword id)))
      (resetPassword host id) s := by
  refine alone_find h (fun u t _ ht => ?_) fun _ t ht => ht.done
  refine alone_ask (o := .random) rfl ht (fun temp t ht => ?_) fun _ t ht => ht.done
  refine Alone.bind (Alone.mono ?_ (alone_tx (?_ : Alone (AuthOp.exec host) i
    (Writing i s (Writes actor s (.resetPassword id)) fun _ : Unit => True) _ t)))
  · intro r t ht
    cases r with
    | ok a =>
        refine ⟨ht.1, fun id' temp' heq => .inr ?_⟩
        rw [(AuthAnswer.tempPassword.inj heq).1]
    | error fault => exact ht
  · refine alone_ask (o := .random) rfl ht (fun salt t ht => ?_)
      fun _ t ht => ht.mono fun _ _ hf => hf.elim
    refine alone_write ht (fun u now hu => .resetPassword hu) fun t ht => ?_
    intro x r t' hexec
    have htick : Working i s (Writes actor s (.resetPassword id)) (t.tick x.elapsed) :=
      ht.of_users rfl
    rcases AuthOp.exec_cases hexec with ⟨fault, rfl, rfl⟩ | ⟨a, rfl, hp⟩
    · exact htick
    · exact ⟨htick.of_users ((AuthOp.perform_did rfl hp).users rfl), trivial⟩

theorem alone_setAccess {id : UserId} {blocked : Bool} (h : Untouched i s s) :
    Alone (AuthOp.exec host) i
      (Leaves s (Writes actor s (.setAccess id blocked)) (Returns s (.setAccess id blocked)))
      (setAccess id blocked actor) s := by
  unfold setAccess
  split
  · exact h.done
  refine alone_getUser h (fun t ht => ?_) fun _ t ht => ht.done
  cases hu : (s.users.committed id).filter fun u => u.deletedAt.isNone with
  | none => exact ht.done
  | some u =>
      have hfound := (Option.filter_eq_some_iff.mp hu).1
      show Alone _ i _ (if _ then _ else _) t
      split
      · exact ht.done
      rename_i hrole
      have hgrant : Grants actor u.role := by
        intro hp
        simp only [UserRole.privileged, Bool.or_eq_true, decide_eq_true_eq] at hp
        by_contra howner
        exact hrole ⟨hp, howner⟩
      refine alone_guard ht (fun t ht => ?_) fun _ t ht => ht.done
      refine alone_tx (alone_write ht (fun u' now hu' => ?_) fun t ht => ?_)
      · obtain rfl := Option.some.inj (hfound.symm.trans hu')
        exact .setAccess hfound hgrant
      · cases blocked with
        | true => exact alone_revoke ht returns_done
        | false => exact ⟨ht, returns_done⟩

/-- **A staff call that runs alone leaves the accounts as they were or writes its one row.** -/
theorem alone_staff {call : StaffCall} (h : ∀ j k, s.users.own j k = none) :
    Alone (AuthOp.exec host) i (Leaves s (Writes actor s call) (Returns s call))
      (call.body host actor) s := by
  have hs : Untouched i s s := ⟨fun _ => rfl, fun k row hown => by simp [h] at hown, fun j k _ => h j k⟩
  cases call with
  | create dto => exact alone_create hs
  | changeRole id role => exact alone_changeRole hs
  | setEnabled id enabled => exact alone_setEnabled hs
  | resetPassword id => exact alone_resetPassword hs
  | setAccess id blocked => exact alone_setAccess hs

end calls

/-! ### Sequences of calls -/

section sequences

variable {host : AuthHost} {actor : Actor} {s t : AuthDesk} {call : StaffCall}

/-- The account that a call writes without looking at its role. -/
def StaffCall.unchecked : StaffCall → Option UserId
  | changeRole id _ | setEnabled id _ | resetPassword id => some id
  | create _ | setAccess .. => none

/-- Who is no owner writes, where the role is not looked at, their own account or one of neither
an owner nor an admin. -/
def sparesPrivileged (r : StaffRun) (a : StaffAction) : Prop :=
  a.actor.role = .owner ∨ (a.call.unchecked.all fun id =>
    id = a.actor.id || (r.desk.users.committed id).all fun u => !u.role.privileged) = true

instance (r : StaffRun) (a : StaffAction) : Decidable (sparesPrivileged r a) :=
  inferInstanceAs (Decidable (_ ∨ _))

/-- The account such a call writes is the actor's or of neither an owner nor an admin. -/
def Below (actor : Actor) (s : AuthDesk) (call : StaffCall) : Prop :=
  ∀ id, call.unchecked = some id →
    id = actor.id ∨ ∀ u, s.users.committed id = some u → u.role.privileged = false

theorem sparesPrivileged.below {r : StaffRun} {a : StaffAction} (h : sparesPrivileged r a)
    (hactor : a.actor.role ≠ .owner) : Below a.actor r.desk a.call := by
  intro id hid
  have hall := h.resolve_left hactor
  rw [hid, Option.all_some, Bool.or_eq_true, decide_eq_true_eq] at hall
  refine hall.imp_right fun hlow u hu => ?_
  simpa [hu] using hlow

/-- The accounts of owners and admins other than the actor keep their role, status and password,
and the answer has no password of one. -/
structure Respects (actor : Actor) (s t : AuthDesk) (answer : Except AuthFault AuthAnswer) :
    Prop where
  rows : ∀ id u, s.users.committed id = some u → u.role.privileged = true → id ≠ actor.id →
    ∃ v, t.users.committed id = some v ∧ v.role = u.role ∧ v.status = u.status ∧
      v.passwordHash = u.passwordHash
  passwords : ∀ id temp v, answer = .ok (.tempPassword id temp) →
    t.users.committed id = some v → v.role.privileged = true → id = actor.id

/-- What a call writes into the row of an owner or admin it was checked for. -/
theorem Writes.below {k : UserId} {row : Option User} (h : Writes actor s call k row)
    (hactor : actor.role ≠ .owner)
    (hbelow : Below actor s call)
    {u : User} (hu : s.users.committed k = some u) (hp : u.role.privileged = true) :
    k = actor.id := by
  have hcall : call.unchecked = some k → k = actor.id := fun hk =>
    (hbelow k hk).resolve_right fun hlow => by simp [hlow u hu] at hp
  cases h with
  | create hnew => rw [hnew] at hu; cases hu
  | changeRole _ _ => exact hcall rfl
  | setEnabled _ => exact hcall rfl
  | resetPassword _ => exact hcall rfl
  | setAccess hu' hgrant =>
      obtain rfl := Option.some.inj (hu'.symm.trans hu)
      exact absurd (hgrant hp) hactor

/-- A row that a call writes is an owner's or admin's only if it was before. -/
theorem Writes.role {k : UserId} {v : User} (h : Writes actor s call k (some v))
    (hactor : actor.role ≠ .owner) (hp : v.role.privileged = true) :
    ∃ u, s.users.committed k = some u ∧ u.role = v.role := by
  generalize hrow : some v = row at h
  cases h with
  | create hnew hrole hgrant =>
      obtain rfl := Option.some.inj hrow
      exact absurd (hgrant (hrole ▸ hp)) hactor
  | changeRole hu hgrant =>
      obtain rfl := Option.some.inj hrow
      exact absurd (hgrant hp) hactor
  | setEnabled hu =>
      rename_i enabled u now
      obtain rfl := Option.some.inj hrow
      exact ⟨u, hu, by cases enabled <;> rfl⟩
  | resetPassword hu =>
      obtain rfl := Option.some.inj hrow
      exact ⟨_, hu, rfl⟩
  | setAccess hu hgrant =>
      rename_i blocked u now
      obtain rfl := Option.some.inj hrow
      exact ⟨u, hu, by cases blocked <;> rfl⟩

/-- A step of a sequence is one call that ran alone. -/
theorem staffStep_some {r r' : StaffRun} {a : StaffAction} (h : staffStep host r a = some r') :
    r.desk.authenticates a.actor = true ∧ ∃ answer,
      r'.answers = { actor := a.actor, answer } :: r.answers ∧
      Prog.runAlone (AuthOp.exec host) r.answers.length (a.call.body host a.actor) a.inputs r.desk =
        some (answer, r'.desk) := by
  unfold staffStep at h
  split at h
  · rename_i hadmit
    obtain ⟨⟨answer, desk⟩, hrun, rfl⟩ := Option.map_eq_some_iff.mp h
    exact ⟨(Bool.and_eq_true _ _ ▸ hadmit).1, answer, rfl, hrun⟩
  · cases h

/-- Nobody is at work on an account. -/
def AtRest (s : AuthDesk) : Prop := ∀ j k, s.users.own j k = none

/-- The call of a step ran alone and left what such a call leaves. -/
theorem staffStep_leaves {r r' : StaffRun} {a : StaffAction} (hrest : AtRest r.desk)
    (h : staffStep host r a = some r') : ∃ answer,
      r'.answers = { actor := a.actor, answer } :: r.answers ∧
      Leaves r.desk (Writes a.actor r.desk a.call) (Returns r.desk a.call) answer r'.desk := by
  obtain ⟨-, answer, hanswers, hrun⟩ := staffStep_some h
  exact ⟨answer, hanswers, (alone_staff hrest).run hrun⟩

/-- What a call leaves, whatever it answers. -/
theorem left_by {answer : Except AuthFault AuthAnswer}
    (h : Leaves s (Writes actor s call) (Returns s call) answer t) :
    Done s (Writes actor s call) t ∧ ∀ a, answer = .ok a → Returns s call a := by
  cases answer with
  | ok a => exact ⟨h.1, fun a' ha => Except.ok.inj ha ▸ h.2⟩
  | error fault => exact ⟨h, fun a ha => by cases ha⟩

theorem Done.row_of (h : Done s (Writes actor s call) t) (hactor : actor.role ≠ .owner) {id : UserId}
    {v : User} (hv : t.users.committed id = some v) (hp : v.role.privileged = true) :
    ∃ u, s.users.committed id = some u ∧ u.role = v.role := by
  rcases h.rows id with hsame | hwrote
  · exact ⟨v, hsame.symm.trans hv, rfl⟩
  · rw [hv] at hwrote
    exact hwrote.role hactor hp

/-- **A call that spares owners and admins respects them.** -/
theorem respects_of {answer : Except AuthFault AuthAnswer}
    (h : Leaves s (Writes actor s call) (Returns s call) answer t) (hactor : actor.role ≠ .owner)
    (hbelow : Below actor s call) :
    Respects actor s t answer := by
  obtain ⟨hdone, hreturns⟩ := left_by h
  constructor
  case rows =>
    intro id u hu hp hother
    rcases hdone.rows id with hsame | hwrote
    · exact ⟨u, hsame.trans hu, rfl, rfl, rfl⟩
    · exact absurd (hwrote.below hactor hbelow hu hp) hother
  case passwords =>
    intro id temp v hanswer hv hp
    obtain ⟨u, hu, hrole⟩ := hdone.row_of hactor hv hp
    rcases hreturns _ hanswer id temp rfl with ⟨dto, -, hnone⟩ | rfl
    · rw [hnone] at hu
      cases hu
    · refine (hbelow id rfl).resolve_right fun hlow => ?_
      rw [← hrole, hlow u hu] at hp
      cases hp

/-- What calls without an owner leave alone: the owners are who they were, with the roles,
statuses and passwords they had, and no answer has a password of one. -/
structure OwnersKept (s : AuthDesk) (r : StaffRun) : Prop where
  rows : ∀ id u, s.users.committed id = some u → u.role = .owner →
    ∃ v, r.desk.users.committed id = some v ∧ v.role = .owner ∧ v.status = u.status ∧
      v.passwordHash = u.passwordHash
  others : ∀ id v, r.desk.users.committed id = some v → v.role = .owner →
    ∃ u, s.users.committed id = some u ∧ u.role = .owner
  passwords : ∀ x ∈ r.answers, ∀ id temp, x.answer = .ok (.tempPassword id temp) →
    ∀ u, s.users.committed id = some u → u.role ≠ .owner

/-- The account of who acts as no owner is none. -/
theorem other_of_owner {id : UserId} {u : User} (hauth : s.authenticates actor = true)
    (hactor : actor.role ≠ .owner) (hu : s.users.committed id = some u) (howner : u.role = .owner) :
    id ≠ actor.id := by
  rintro rfl
  rw [AuthDesk.authenticates, hu, Option.any_some] at hauth
  simp only [Bool.and_eq_true, decide_eq_true_eq] at hauth
  exact hactor (hauth.1.1.symm.trans howner)

theorem OwnersKept.step {s : AuthDesk} {r r' : StaffRun} {a : StaffAction} (h : OwnersKept s r)
    (hsettled : AtRest r.desk) (hactor : a.actor.role ≠ .owner) (hbelow : sparesPrivileged r a)
    (hstep : staffStep host r a = some r') : OwnersKept s r' := by
  have hauth := (staffStep_some hstep).1
  obtain ⟨answer, hanswers, hleaves⟩ := staffStep_leaves hsettled hstep
  have hdone := (left_by hleaves).1
  have hrespects := respects_of hleaves hactor (hbelow.below hactor)
  constructor
  case rows =>
    intro id u hu howner
    obtain ⟨v, hv, hrole, hstatus, hpassword⟩ := h.rows id u hu howner
    obtain ⟨w, hw, hrole', hstatus', hpassword'⟩ := hrespects.rows id v hv (by rw [hrole]; rfl)
      (other_of_owner hauth hactor hv hrole)
    exact ⟨w, hw, hrole'.trans hrole, hstatus'.trans hstatus, hpassword'.trans hpassword⟩
  case others =>
    intro id v hv howner
    obtain ⟨u, hu, hrole⟩ := hdone.row_of hactor hv (by rw [howner]; rfl)
    exact h.others id u hu (hrole.trans howner)
  case passwords =>
    intro x hx id temp hanswer u hu howner
    rw [hanswers] at hx
    rcases List.mem_cons.mp hx with rfl | hold
    · obtain ⟨v, hv, hrole, -, -⟩ := h.rows id u hu howner
      obtain ⟨w, hw, hrole', -, -⟩ := hrespects.rows id v hv (by rw [hrole]; rfl)
        (other_of_owner hauth hactor hv hrole)
      exact other_of_owner hauth hactor hv hrole
        (hrespects.passwords id temp w hanswer hw (by rw [hrole', hrole]; rfl))
    · exact h.passwords x hold id temp hanswer u hu howner

theorem atRest_step {r r' : StaffRun} {a : StaffAction} (hsettled : AtRest r.desk)
    (hstep : staffStep host r a = some r') : AtRest r'.desk := by
  obtain ⟨answer, -, hleaves⟩ := staffStep_leaves hsettled hstep
  exact (left_by hleaves).1.settled

/-- Unless an owner makes it, the call respects the owners and admins there are. -/
def RespectsOthers (host : AuthHost) (r : StaffRun) (a : StaffAction) : Prop :=
  a.actor.role ≠ .owner → ∀ r', staffStep host r a = some r' →
    ∃ answer, r'.answers = { actor := a.actor, answer } :: r.answers ∧
      Respects a.actor r.desk r'.desk answer

/-- **In every sequence of calls that spare owners and admins, each respects them; and with no owner
acting, the owners are kept.** -/
theorem staff_privileges_kept (host : AuthHost) (s : AuthDesk) (hsettled : AtRest s)
    (as : List StaffAction) (r : StaffRun)
    (hguard : Machine.GuardedRun (staffStep host) sparesPrivileged { desk := s } as)
    (hrun : Machine.runFrom (staffStep host) { desk := s } as = some r) :
    Machine.GuardedRun (staffStep host) (RespectsOthers host) { desk := s } as ∧
      ((∀ a ∈ as, a.actor.role ≠ .owner) → OwnersKept s r) := by
  have hstep : ∀ (r : StaffRun) a r', AtRest r.desk → staffStep host r a = some r' →
      AtRest r'.desk := fun _ _ _ h hs => atRest_step h hs
  constructor
  · refine Machine.GuardedRun.imp hstep (fun r a hr hbelow hactor r' hs => ?_) as _ hsettled hguard
    obtain ⟨answer, hanswers, hleaves⟩ := staffStep_leaves hr hs
    exact ⟨answer, hanswers, respects_of hleaves hactor (hbelow.below hactor)⟩
  · intro hactors
    have hstart : OwnersKept s { desk := s } :=
      ⟨fun id u hu howner => ⟨u, hu, howner, rfl, rfl⟩, fun id v hv howner => ⟨v, hv, howner⟩,
        fun x hx => by cases hx⟩
    have hactor : Machine.GuardedRun (staffStep host) (fun _ a => a.actor.role ≠ .owner)
        { desk := s } as := Machine.guardedRun_of_mem as _ hactors
    have hboth := Machine.GuardedRun.and as _ hguard hactor
    refine (Machine.guarded_invariant (I := fun r => AtRest r.desk ∧ OwnersKept s r)
      (fun r a r' hr hok hs => ?_) as _ r ⟨hsettled, hstart⟩ hboth hrun).2
    exact ⟨atRest_step hr.1 hs, hr.2.step hr.1 hok.2 hok.1 hs⟩

end sequences

/-- An owner and an admin. -/
def ownerAndAdmin : AuthDesk :=
  .ofLists [{ email := some "o@shop", role := .owner, passwordHash := some "argon2:secret" },
    { email := some "a@shop", role := .admin }] [] []

theorem ownerAndAdmin_atRest : AtRest ownerAndAdmin := fun _ _ => Table.own_ofList

def adminActor : Actor where
  id := 1
  role := .admin
  sessionId := 0

/-- The admin adds a manager, resets the manager's password and cannot block the owner. -/
def managerAdded : List StaffAction :=
  [{ actor := adminActor, call := .create { name := "m", email := "m@shop", role := .manager },
     inputs := [{}, { random := "t1" }, { random := "salt" }, {}, {}] },
   { actor := adminActor, call := .resetPassword 2,
     inputs := [{}, { random := "t2" }, { random := "salt" }, {}, {}, {}] },
   { actor := adminActor, call := .setAccess 0 true, inputs := [{}] }]

theorem staff_privileges_kept_manager : ∃ r,
    Machine.runFrom (staffStep plainHost) { desk := ownerAndAdmin } managerAdded = some r ∧
      r.answers.length = 3 ∧ OwnersKept ownerAndAdmin r := by
  have hruns : (Machine.runFrom (staffStep plainHost) { desk := ownerAndAdmin } managerAdded).any
      (fun r => r.answers.length = 3) = true := by
    decide +kernel
  have hguard : Machine.GuardedRun (staffStep plainHost) sparesPrivileged { desk := ownerAndAdmin }
      managerAdded := by
    decide +kernel
  obtain ⟨r, hr, hthree⟩ := (Option.any_eq_true _ _).mp hruns
  exact ⟨r, hr, of_decide_eq_true hthree, (staff_privileges_kept plainHost ownerAndAdmin
    ownerAndAdmin_atRest managerAdded r hguard hr).2 (by decide)⟩

/-- The admin resets the owner's password and is told the new one. -/
def ownerReset : List StaffAction :=
  [{ actor := adminActor, call := .resetPassword 0,
     inputs := [{}, { random := "t1" }, { random := "salt" }, {}, {}, {}] }]

/-- **An admin takes an owner's account over.** -/
theorem admin_takes_owner_over : ¬ ∀ (host : AuthHost) (s : AuthDesk) (as : List StaffAction)
    (r : StaffRun), AtRest s → Machine.runFrom (staffStep host) { desk := s } as = some r →
      (∀ a ∈ as, a.actor.role ≠ .owner) → OwnersKept s r := by
  intro hall
  have hruns : (Machine.runFrom (staffStep plainHost) { desk := ownerAndAdmin } ownerReset).any
      (fun r => r.answers.map (·.answer) = [.ok (.tempPassword 0 "t1")]) = true := by
    decide +kernel
  obtain ⟨r, hr, htold⟩ := (Option.any_eq_true _ _).mp hruns
  have hkept := hall plainHost ownerAndAdmin ownerReset r ownerAndAdmin_atRest hr (by decide)
  obtain ⟨x, hx, hanswer⟩ := List.mem_map.mp
    (of_decide_eq_true htold ▸ List.mem_cons_self : _ ∈ r.answers.map (·.answer))
  exact hkept.passwords x hx 0 "t1" hanswer _ rfl rfl

end BookHouse
