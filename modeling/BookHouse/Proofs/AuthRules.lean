/-
What the calls of the account services promise each other.

Every statement is taken apart once (`AuthDesk.Did`): which table it writes, what it logs.
A call promises what it has checked before a statement: a login compares a password only
where it saw no lock, a new session replaces the one its call has rotated, and an account
loses its rights only after its call counted another owner or saw that it was none.
-/
import BookHouse.Auth.StaffService

namespace BookHouse

open AuthCall Prog Prog.Contract AuthDesk

/-! ### What a statement does -/

namespace AuthOp

/-- What a statement that does something logs at once. -/
def notes (now : Instant) : AuthOp → List AuthEvent
  | verify id _ _ => [.verified id now]
  | compare id row codeHash => [.guessed id (row.codeHash = codeHash)]
  | updateUser id w => w.events id now
  | revokeUser user why => [.revoked user why none]
  | _ => []

/-- What a statement that does something adds to its transaction. -/
def keeps (now : Instant) : AuthOp → List AuthEvent
  | updateUserTx id w => w.events id now
  | revokeUserTx user why except => [.revoked user why except]
  | consumeTx id => [.consumed id]
  | _ => []

def onUsers : AuthOp → Bool
  | updateUser .. | updateUserTx .. | createUserTx _ | commit | rollback => true
  | _ => false

def onSessions : AuthOp → Bool
  | rotate _ | revoke _ | revokeUser .. | createSession .. | revokeUserTx .. | commit
  | rollback => true
  | _ => false

def onCodes : AuthOp → Bool
  | miss _ | createCodeTx .. | consumeTx _ | commit | rollback => true
  | _ => false

/-- The statements that read the account of a call. -/
def reads : AuthOp → Bool
  | findUser _ | getUser _ | findSession _ => true
  | _ => false

/-- The statements that end a transaction. -/
def ends : AuthOp → Bool
  | commit | rollback => true
  | _ => false

end AuthOp

namespace AuthDesk

variable {host : AuthHost} {s t : AuthDesk} {i j : TxId} {o : AuthOp}

/-- What a statement that ends no transaction can do. -/
structure Did (i : TxId) (o : AuthOp) (s t : AuthDesk) : Prop where
  now : t.now = s.now
  log : t.log = s.log ∨ t.log = o.notes s.now ++ s.log
  work : t.work = s.work ∨ t.work = (o.keeps s.now).map (Prod.mk i) ++ s.work
  users : o.onUsers = false → t.users = s.users
  sessions : o.onSessions = false → t.sessions = s.sessions ∧ t.exchanging = s.exchanging
  next : s.sessions.next ≤ t.sessions.next
  codes : o.onCodes = false → t.codes = s.codes
  reading : t.readings = s.readings ∨ o.reads = true ∧ t.readings = (s.read i).readings
  exchanging : ∀ j, j ≠ i → t.exchanging j = s.exchanging j

theorem Did.refl (i : TxId) (o : AuthOp) (s : AuthDesk) : Did i o s s where
  now := rfl
  log := .inl rfl
  work := .inl rfl
  users _ := rfl
  sessions _ := ⟨rfl, rfl⟩
  next := le_refl _
  codes _ := rfl
  reading := .inl rfl
  exchanging _ _ := rfl

/-! #### One table -/

/-- A write of a row that may not be there. -/
theorem onFound_some {ρ τ : Type} {row : Option ρ} {write : Option τ} {f : τ → AuthDesk}
    {found : Bool} (h : s.onFound row (write.map f) = some (found, t)) :
    (row = none ∧ found = false ∧ t = s) ∨
      ∃ r v, row = some r ∧ found = true ∧ write = some v ∧ t = f v := by
  cases row with
  | none =>
      obtain ⟨rfl, rfl⟩ := Prod.mk.inj (Option.some.inj h)
      exact .inl ⟨rfl, rfl, rfl⟩
  | some r =>
      obtain ⟨u, hu, heq⟩ := Option.map_eq_some_iff.mp h
      obtain ⟨rfl, rfl⟩ := Prod.mk.inj heq
      obtain ⟨v, hv, rfl⟩ := Option.map_eq_some_iff.mp hu
      exact .inr ⟨r, v, rfl, rfl, hv, rfl⟩

theorem updateUser_some {id : UserId} {w : UserWrite} {found : Bool}
    (h : s.updateUser id w = some (found, t)) :
    (s.users.committed id = none ∧ found = false ∧ t = s) ∨
    ∃ u users, s.users.committed id = some u ∧ found = true ∧
      s.users.updateNow (onRow id (w.apply s.now)) = some users ∧
      t = { s with users }.note (w.events id s.now) := onFound_some h

theorem rotate_some {id : SessionId} {found : Bool} (h : s.rotate i id = some (found, t)) :
    (s.sessions.committed id = none ∧ found = false ∧ t = s) ∨
    ∃ session sessions, s.sessions.committed id = some session ∧ found = true ∧
      s.sessions.updateNow (onRow id (AuthSession.rotate s.now)) = some sessions ∧
      t = { s with sessions, exchanging := Function.update s.exchanging i (some id) } :=
  onFound_some h

theorem revoke_some {pick : SessionPick} {a : Unit} (h : s.revoke pick = some (a, t)) :
    ∃ sessions, s.sessions.updateNow (pick.revoke s.now) = some sessions ∧
      t = { s with sessions } := by
  obtain ⟨sessions, hsessions, heq⟩ := Option.map_eq_some_iff.mp h
  obtain ⟨-, rfl⟩ := Prod.mk.inj heq
  exact ⟨sessions, hsessions, rfl⟩

theorem revokeUser_some {user : UserId} {why : SignOut} {a : Unit}
    (h : s.revokeUser user why = some (a, t)) :
    ∃ sessions, s.sessions.updateNow ((SessionPick.user user none).revoke s.now) = some sessions ∧
      t = { s with sessions }.note [.revoked user why none] := by
  obtain ⟨⟨b, u⟩, hu, heq⟩ := Option.map_eq_some_iff.mp h
  obtain ⟨-, rfl⟩ := Prod.mk.inj heq
  obtain ⟨sessions, hsessions, rfl⟩ := revoke_some hu
  exact ⟨sessions, hsessions, rfl⟩

theorem createSession_eq {user : UserId} {parent : Option SessionId} {hash : String}
    {r : Option SessionId} (h : s.createSession host i user parent hash = (r, t)) :
    (r = none ∧ t = { s with exchanging := Function.update s.exchanging i none }) ∨
    ∃ session, r = some s.sessions.next ∧ session.userId = user ∧ session.parent = parent ∧
      session.revokedAt = none ∧
      session.family =
        ((parent.bind s.sessions.committed).map (·.family)).getD s.sessions.next ∧
      session.basis = ((s.readings i).map (·.mark)).getD 0 ∧
      t = { s with exchanging := Function.update s.exchanging i none,
                   sessions := s.sessions.insertNow session } := by
  unfold createSession at h
  dsimp only at h
  split at h
  · obtain ⟨rfl, rfl⟩ := Prod.mk.inj h
    exact .inl ⟨rfl, rfl⟩
  · obtain ⟨rfl, rfl⟩ := Prod.mk.inj h
    exact .inr ⟨_, rfl, rfl, rfl, rfl, rfl, rfl, rfl⟩

theorem miss_some {id : CodeId} {found : Bool} (h : s.miss id = some (found, t)) :
    (s.codes.committed id = none ∧ found = false ∧ t = s) ∨
    ∃ code codes, s.codes.committed id = some code ∧ found = true ∧
      s.codes.updateNow (onRow id VerificationCode.miss) = some codes ∧
      t = { s with codes } := onFound_some h

theorem updateUserTx_some {id : UserId} {w : UserWrite} {found : Bool}
    (h : s.updateUserTx i id w = some (found, t)) :
    (s.users.seen i id = none ∧ found = false ∧ t = s) ∨
    ∃ u users, s.users.seen i id = some u ∧ found = true ∧
      s.users.update i (onRow id (w.apply s.now)) = some users ∧
      t = { s with users }.keep i (w.events id s.now) := onFound_some h

theorem createUserTx_some {u : User} {r : Option UserId}
    (h : s.createUserTx host i u = some (r, t)) :
    (r = none ∧ t = s) ∨ (r = some s.users.next ∧ t = { s with users := s.users.insert i u }) := by
  unfold createUserTx at h
  dsimp only at h
  split at h
  · obtain ⟨rfl, rfl⟩ := Prod.mk.inj (Option.some.inj h)
    exact .inl ⟨rfl, rfl⟩
  · split at h
    · cases h
    · obtain ⟨rfl, rfl⟩ := Prod.mk.inj (Option.some.inj h)
      exact .inr ⟨rfl, rfl⟩

theorem revokeUserTx_some {user : UserId} {why : SignOut} {except : Option SessionId} {a : Unit}
    (h : s.revokeUserTx i user why except = some (a, t)) :
    ∃ sessions, s.sessions.update i ((SessionPick.user user except).revoke s.now) = some sessions ∧
      t = { s with sessions }.keep i [.revoked user why except] := by
  obtain ⟨sessions, hsessions, heq⟩ := Option.map_eq_some_iff.mp h
  obtain ⟨-, rfl⟩ := Prod.mk.inj heq
  exact ⟨sessions, hsessions, rfl⟩

theorem consumeTx_some {id : CodeId} {found : Bool} (h : s.consumeTx i id = some (found, t)) :
    (s.codes.seen i id = none ∧ found = false ∧ t = s) ∨
    ∃ code codes, s.codes.seen i id = some code ∧ found = true ∧
      s.codes.update i (onRow id (VerificationCode.consume s.now)) = some codes ∧
      t = { s with codes }.keep i [.consumed id] := onFound_some h

/-! #### The whole desk -/

theorem Did.note {e : List AuthEvent} (h : o.notes s.now = e) : Did i o s (s.note e) where
  now := rfl
  log := .inr (by rw [h]; rfl)
  work := .inl rfl
  users _ := rfl
  sessions _ := ⟨rfl, rfl⟩
  next := le_refl _
  codes _ := rfl
  reading := .inl rfl
  exchanging _ _ := rfl

theorem Did.read (h : o.reads = true) : Did i o s (s.read i) where
  now := rfl
  log := .inl rfl
  work := .inl rfl
  users _ := rfl
  sessions _ := ⟨rfl, rfl⟩
  next := le_refl _
  codes _ := rfl
  reading := .inr ⟨h, rfl⟩
  exchanging _ _ := rfl

end AuthDesk

/-- A statement that ends no transaction, taken apart. -/
theorem AuthOp.perform_did {host : AuthHost} {i : TxId} {x : String} {s t : AuthDesk} {o : AuthOp}
    {a : o.Res} (ho : o.ends = false) (h : o.perform host i x s = some (a, t)) :
    Did i o s t := by
  cases o with
  | findUser contact | getUser id | findSession hash =>
      obtain ⟨-, rfl⟩ := Prod.mk.inj (Option.some.inj h)
      exact .read rfl
  | otherOwners id | findCode user | clock | random =>
      obtain ⟨-, rfl⟩ := Prod.mk.inj (Option.some.inj h)
      exact .refl i _ s
  | verify id read password | compare id read codeHash =>
      obtain ⟨-, rfl⟩ := Prod.mk.inj (Option.some.inj h)
      exact .note rfl
  | updateUser id w =>
      rcases AuthDesk.updateUser_some h with ⟨-, -, rfl⟩ | ⟨u, users, -, -, -, rfl⟩
      · exact .refl i _ t
      · refine { Did.refl i (.updateUser id w) s with log := .inr rfl, users := ?_ }
        intro hc
        cases hc
  | rotate id =>
      rcases rotate_some h with ⟨-, -, rfl⟩ | ⟨r, sessions, -, -, hwrite, rfl⟩
      · exact .refl i _ t
      · refine { Did.refl i (.rotate id) s with sessions := ?_, next := ?_, exchanging := ?_ }
        · intro hc
          cases hc
        · exact (Table.next_updateNow hwrite).ge
        · intro j hj
          exact Function.update_of_ne hj _ _
  | revoke pick =>
      obtain ⟨sessions, hwrite, rfl⟩ := AuthDesk.revoke_some h
      refine { Did.refl i (.revoke pick) s with
        sessions := ?_, next := (Table.next_updateNow hwrite).ge }
      intro hc
      cases hc
  | revokeUser user why =>
      obtain ⟨sessions, hwrite, rfl⟩ := AuthDesk.revokeUser_some h
      refine { Did.refl i (.revokeUser user why) s with
        log := .inr rfl, sessions := ?_, next := (Table.next_updateNow hwrite).ge }
      intro hc
      cases hc
  | createSession user parent hash =>
      have hexchanging : ∀ j, j ≠ i → Function.update s.exchanging i none j = s.exchanging j :=
        fun j hj => Function.update_of_ne hj _ _
      rcases AuthDesk.createSession_eq (Option.some.inj h) with
        ⟨-, rfl⟩ | ⟨session, -, -, -, -, -, -, rfl⟩
      · refine { Did.refl i (.createSession user parent hash) s with
          sessions := ?_, exchanging := hexchanging }
        intro hc
        cases hc
      · refine { Did.refl i (.createSession user parent hash) s with
          sessions := ?_, next := Nat.le_succ _, exchanging := hexchanging }
        intro hc
        cases hc
  | miss id =>
      rcases AuthDesk.miss_some h with ⟨-, -, rfl⟩ | ⟨c, codes, -, -, -, rfl⟩
      · exact .refl i _ t
      · refine { Did.refl i (.miss id) s with codes := ?_ }
        intro hc
        cases hc
  | updateUserTx id w =>
      rcases updateUserTx_some h with ⟨-, -, rfl⟩ | ⟨u, users, -, -, -, rfl⟩
      · exact .refl i _ t
      · refine { Did.refl i (.updateUserTx id w) s with
          work := .inr rfl, users := ?_ }
        intro hc
        cases hc
  | createUserTx u =>
      rcases createUserTx_some h with ⟨-, rfl⟩ | ⟨-, rfl⟩
      · exact .refl i _ t
      · refine { Did.refl i (.createUserTx u) s with users := ?_ }
        intro hc
        cases hc
  | revokeUserTx user why except =>
      obtain ⟨sessions, hwrite, rfl⟩ := revokeUserTx_some h
      refine { Did.refl i (.revokeUserTx user why except) s with
        work := .inr rfl, sessions := ?_, next := (Table.next_update hwrite).ge }
      intro hc
      cases hc
  | createCodeTx user target codeHash =>
      obtain ⟨-, rfl⟩ := Prod.mk.inj (Option.some.inj h)
      refine { Did.refl i (.createCodeTx user target codeHash) s with codes := ?_ }
      intro hc
      cases hc
  | consumeTx id =>
      rcases consumeTx_some h with ⟨-, -, rfl⟩ | ⟨c, codes, -, -, -, rfl⟩
      · exact .refl i _ t
      · refine { Did.refl i (.consumeTx id) s with
          work := .inr rfl, codes := ?_ }
        intro hc
        cases hc
  | commit => cases ho
  | rollback => cases ho

/-! ### Promises -/

/-- The writes that may take an owner out. -/
def UserWrite.removes : UserWrite → Bool
  | role r => r ≠ .owner
  | enabled e => !e
  | access blocked => blocked
  | _ => false

theorem UserWrite.activeOwner_apply {w : UserWrite} (h : w.removes = false) {now : Instant}
    {u : User} (hu : u.activeOwner = true) : (w.apply now u).activeOwner = true := by
  cases w with
  | role r =>
      have hr : r = .owner := by simpa [removes] using h
      simp only [User.activeOwner, Bool.and_eq_true, decide_eq_true_eq] at hu
      simp [apply, User.activeOwner, hr, hu]
  | enabled e =>
      obtain rfl : e = true := by simpa [removes] using h
      simp only [User.activeOwner, Bool.and_eq_true, decide_eq_true_eq] at hu
      simp [apply, User.activeOwner, hu]
  | access blocked =>
      obtain rfl : blocked = false := h
      simp only [User.activeOwner, Bool.and_eq_true, decide_eq_true_eq] at hu
      simp [apply, User.activeOwner, hu]
  | failed n => exact hu
  | signedIn => exact hu
  | password hash => exact hu
  | ownPassword hash => exact hu
  | tempPassword hash => exact hu

namespace AuthDesk

variable {s t u : AuthDesk} {i j : TxId}

/-- An account that is OWNER, ACTIVE and not deleted. -/
def Owner (s : AuthDesk) (id : UserId) : Prop :=
  (s.users.committed id).any (·.activeOwner) = true

/-- No owner has been lost since there were `mark` events. -/
def Spared (mark : ℕ) (log : List AuthEvent) : Prop :=
  ∀ id, .ownerLost id ∉ log.take (log.length - mark)

/-- When `i` read the account it was no owner who could sign in, or there is another one as
long as none is lost. -/
def Checked (i : TxId) (id : UserId) (s : AuthDesk) : Prop :=
  ∃ r, s.readings i = some r ∧ r.mark ≤ s.log.length ∧
    (r.owners id = false ∨ (Spared r.mark s.log → ∃ w, w ≠ id ∧ s.Owner w))

/-- `i` has written no account. -/
def Idle (i : TxId) (s : AuthDesk) : Prop := ∀ id, s.users.own i id = none

/-- What `i` may rely on. -/
structure Rely (i : TxId) (s t : AuthDesk) : Prop where
  now : s.now ≤ t.now
  log : ∃ new, t.log = new ++ s.log ∧
    ((∀ id, .ownerLost id ∉ new) → ∀ id, s.Owner id → t.Owner id)
  reading : t.readings i = s.readings i
  exchanging : t.exchanging i = s.exchanging i
  next : s.sessions.next ≤ t.sessions.next
  own : ∀ id, t.users.own i id = s.users.own i id

theorem Rely.refl (i : TxId) (s : AuthDesk) : Rely i s s :=
  ⟨le_refl _, ⟨[], rfl, fun _ _ h => h⟩, rfl, rfl, le_refl _, fun _ => rfl⟩

theorem Rely.trans (h : Rely i s t) (h' : Rely i t u) : Rely i s u := by
  obtain ⟨new, hlog, howner⟩ := h.log
  obtain ⟨new', hlog', howner'⟩ := h'.log
  refine ⟨le_trans h.now h'.now, ⟨new' ++ new, ?_, ?_⟩, h'.reading.trans h.reading,
    h'.exchanging.trans h.exchanging, le_trans h.next h'.next,
    fun id => (h'.own id).trans (h.own id)⟩
  · rw [hlog', hlog, List.append_assoc]
  · intro hspared id hid
    have hnew : ∀ id, .ownerLost id ∉ new := fun id hc =>
      hspared id (List.mem_append.mpr (.inr hc))
    have hnew' : ∀ id, .ownerLost id ∉ new' := fun id hc =>
      hspared id (List.mem_append.mpr (.inl hc))
    exact howner' hnew' id (howner hnew id hid)

theorem Idle.stable (h : Idle i s) (hr : Rely i s t) : Idle i t :=
  fun id => (hr.own id).trans (h id)

theorem take_since {new log : List AuthEvent} {mark : ℕ} (h : mark ≤ log.length) :
    (new ++ log).take ((new ++ log).length - mark) = new ++ log.take (log.length - mark) := by
  have hlength : (new ++ log).length - mark = new.length + (log.length - mark) := by
    rw [List.length_append]
    omega
  rw [hlength, List.take_length_add_append]

theorem Spared.of_append {new log : List AuthEvent} {mark : ℕ} (hmark : mark ≤ log.length)
    (h : Spared mark (new ++ log)) : (∀ id, .ownerLost id ∉ new) ∧ Spared mark log := by
  constructor
  · intro id hc
    apply h id
    rw [take_since hmark]
    exact List.mem_append.mpr (.inl hc)
  · intro id hc
    apply h id
    rw [take_since hmark]
    exact List.mem_append.mpr (.inr hc)

theorem Checked.mono {id : UserId} (h : Checked i id s) (hreading : t.readings i = s.readings i)
    (hgrown : ∃ new, t.log = new ++ s.log ∧
      ((∀ id, .ownerLost id ∉ new) → ∀ id, s.Owner id → t.Owner id)) : Checked i id t := by
  obtain ⟨r, hread, hmark, h⟩ := h
  obtain ⟨new, hlog, howner⟩ := hgrown
  refine ⟨r, hreading.trans hread, ?_, ?_⟩
  · rw [hlog, List.length_append]
    omega
  · rcases h with hnot | hother
    · exact .inl hnot
    · refine .inr fun hspared => ?_
      rw [hlog] at hspared
      obtain ⟨hnew, hold⟩ := hspared.of_append hmark
      obtain ⟨w, hw, hwo⟩ := hother hold
      exact ⟨w, hw, howner hnew w hwo⟩

theorem Checked.stable {id : UserId} (h : Checked i id s) (hr : Rely i s t) : Checked i id t :=
  h.mono hr.reading hr.log

/-- What holds whatever the calls do: a reading is of the past, and the versions that
transactions have of sessions are revocations. -/
structure Sound (s : AuthDesk) : Prop where
  marks : ∀ i r, s.readings i = some r → r.mark ≤ s.log.length
  revocations : ∀ i k row, s.sessions.own i k = some row →
    ∃ old at_, s.sessions.committed k = some old ∧ row = some (old.revoke at_)

end AuthDesk

/-- A session that was revoked came back. -/
def SignOut.ofReuse : SignOut → Bool
  | reuse _ => true
  | _ => false

/-- What a call knows when it comes to a statement. -/
def AuthOp.pre (i : TxId) (o : AuthOp) (s : AuthDesk) : Prop :=
  match o with
  | .findUser _ | .getUser _ | .findSession _ => Idle i s
  | .verify _ row _ => row.lockedUntil.all (· ≤ s.now)
  | .compare _ row _ => row.attempts < otpMaxAttempts
  | .updateUser _ w => w.removes = false
  | .revokeUser _ (.reuse id) => id < s.sessions.next
  | .updateUserTx id w => Idle i s ∧ (w.removes = true → Checked i id s)
  | .revokeUserTx _ why _ => why.ofReuse = false
  | .createUserTx _ => Idle i s
  | .createSession _ parent _ => s.exchanging i = parent
  | _ => True

theorem AuthOp.pre_stable {i : TxId} {o : AuthOp} {s t : AuthDesk} (hr : Rely i s t)
    (h : o.pre i s) : o.pre i t := by
  cases o with
  | verify id row password =>
      cases hl : row.lockedUntil with
      | none => simp [pre, hl]
      | some l =>
          have hle : l ≤ s.now := by simpa [pre, hl] using h
          simpa [pre, hl] using le_trans hle hr.now
  | findUser contact => exact Idle.stable h hr
  | getUser id => exact Idle.stable h hr
  | findSession hash => exact Idle.stable h hr
  | updateUserTx id w => exact ⟨h.1.stable hr, fun hw => (h.2 hw).stable hr⟩
  | createUserTx u => exact Idle.stable h hr
  | revokeUser user why =>
      cases why with
      | reuse id => exact lt_of_lt_of_le h hr.next
      | _ => exact h
  | createSession user parent hash => exact hr.exchanging.trans h
  | _ => exact h

namespace AuthOp

variable {host : AuthHost} {s t : AuthDesk} {i j : TxId} {o : AuthOp} {a : o.Res} {x : String}

theorem onRow_some {ρ : Type} {id k : ℕ} {f : ρ → ρ} {r r' : ρ} (h : onRow id f k r = some r') :
    k = id ∧ r' = f r := by
  unfold onRow at h
  split at h
  · rename_i hk
    exact ⟨hk, (Option.some.inj h).symm⟩
  · cases h

theorem onRow_none {ρ : Type} {id k : ℕ} {f : ρ → ρ} {r : ρ} (h : k ≠ id) : onRow id f k r = none :=
  if_neg h

/-- A statement takes no owner out at once, and writes no account for another transaction. -/
theorem perform_owner (ho : o.ends = false) (hpre : o.pre i s)
    (h : o.perform host i x s = some (a, t)) :
    (∀ id, s.Owner id → t.Owner id) ∧ ∀ j, j ≠ i → ∀ id, t.users.own j id = s.users.own j id := by
  by_cases hu : o.onUsers = false
  · have husers := (perform_did ho h).users hu
    refine ⟨fun id hid => ?_, fun j _ id => by rw [husers]⟩
    rw [Owner, husers]
    exact hid
  cases o with
  | updateUser id w =>
      rcases updateUser_some h with ⟨-, -, rfl⟩ | ⟨u, users, hrow, -, hwrite, rfl⟩
      · exact ⟨fun _ hid => hid, fun _ _ _ => rfl⟩
      refine ⟨fun k hk => ?_, fun j _ k => Table.own_updateNow hwrite⟩
      show (users.committed k).any _ = true
      rw [Table.committed_updateNow hwrite]
      obtain ⟨r, hr, hactive⟩ := (Option.any_eq_true _ _).mp hk
      rw [hr, Option.map_some, Option.any_some]
      by_cases hid : k = id
      · rw [onRow, if_pos hid, Option.getD_some]
        exact UserWrite.activeOwner_apply hpre hactive
      · rw [onRow_none hid, Option.getD_none]
        exact hactive
  | updateUserTx id w =>
      rcases updateUserTx_some h with ⟨-, -, rfl⟩ | ⟨u, users, hrow, -, hwrite, rfl⟩
      · exact ⟨fun _ hid => hid, fun _ _ _ => rfl⟩
      refine ⟨fun k hk => ?_, fun j hj k => Table.own_update_other hwrite hj⟩
      show (users.committed k).any _ = true
      rw [Table.committed_update hwrite]
      exact hk
  | createUserTx u =>
      rcases createUserTx_some h with ⟨-, rfl⟩ | ⟨-, rfl⟩
      · exact ⟨fun _ hid => hid, fun _ _ _ => rfl⟩
      · exact ⟨fun _ hid => hid, fun j hj k => Table.own_insert_other hj⟩
  | commit => cases ho
  | rollback => cases ho
  | _ => exact absurd rfl hu

theorem notes_spared {now : Instant} (id : UserId) : .ownerLost id ∉ o.notes now := by
  cases o with
  | updateUser k w =>
      cases w with
      | access b => cases b <;> simp [notes, UserWrite.events]
      | _ => simp [notes, UserWrite.events]
  | _ => simp [notes]

/-- The log grows, and owners stay unless it says otherwise. -/
theorem perform_log (ho : o.ends = false) (hpre : o.pre i s)
    (h : o.perform host i x s = some (a, t)) : ∃ new, t.log = new ++ s.log ∧
      (∀ id, .ownerLost id ∉ new) ∧ ∀ id, s.Owner id → t.Owner id := by
  have howner := (perform_owner ho hpre h).1
  rcases (perform_did ho h).log with hlog | hlog
  · exact ⟨[], hlog, by simp, howner⟩
  · exact ⟨_, hlog, notes_spared, howner⟩

/-- A statement that ends no transaction, for the others. -/
theorem perform_rely (ho : o.ends = false) (hpre : o.pre i s)
    (h : o.perform host i x s = some (a, t)) (hj : j ≠ i) : Rely j s t := by
  have hdid := perform_did ho h
  have hown := (perform_owner ho hpre h).2
  obtain ⟨new, hlog, -, howner⟩ := perform_log ho hpre h
  refine ⟨le_of_eq hdid.now.symm, ⟨new, hlog, fun _ => howner⟩, ?_, hdid.exchanging j hj,
    hdid.next, hown j hj⟩
  · rcases hdid.reading with hread | ⟨-, hread⟩
    · rw [hread]
    · rw [hread]
      exact Function.update_of_ne hj _ _

/-- Who is not lost stays an owner. -/
theorem owner_commit {id : UserId} (h : s.Owner id) (hlost : id ∉ s.lost i) :
    (s.commit i).Owner id := by
  by_contra hnot
  obtain ⟨u, hu, hactive⟩ := (Option.any_eq_true _ _).mp h
  refine hlost (List.mem_map.mpr ⟨(id, u), List.mem_filter.mpr ⟨Table.mem_list.mpr hu, ?_⟩, rfl⟩)
  have hseen : (s.users.seen i id).any (·.activeOwner) = false := Bool.eq_false_iff.mpr hnot
  simp [hactive, hseen]

theorem commit_log : ∃ new, (s.commit i).log = new ++ s.log ∧
    ((∀ id, .ownerLost id ∉ new) → ∀ id, s.Owner id → (s.commit i).Owner id) := by
  refine ⟨(s.lost i).map AuthEvent.ownerLost ++ s.workOf i, ?_, ?_⟩
  · exact (List.append_assoc _ _ _).symm
  intro hspared id hid
  refine owner_commit hid fun hmem => hspared id ?_
  exact List.mem_append.mpr (.inl (List.mem_map.mpr ⟨id, hmem, rfl⟩))

theorem commit_rely (hj : j ≠ i) : Rely j s (s.commit i) :=
  ⟨le_refl _, commit_log, rfl, rfl, le_refl _, fun _ => Table.own_commit_other hj⟩

theorem rollback_rely (hj : j ≠ i) : Rely j s (s.rollback i) :=
  ⟨le_refl _, ⟨[], rfl, fun _ _ h => h⟩, rfl, rfl, le_refl _,
    fun _ => Table.own_rollback_other hj⟩

/-- A statement that ends a transaction commits or rolls back. -/
theorem ending (ho : o.ends = true) (h : o.perform host i x s = some (a, t)) :
    t = s.commit i ∨ t = s.rollback i := by
  cases o with
  | commit => exact .inl (Prod.mk.inj (Option.some.inj h)).2.symm
  | rollback => exact .inr (Prod.mk.inj (Option.some.inj h)).2.symm
  | _ => cases ho

theorem ending_rely (ho : o.ends = true) (h : o.perform host i x s = some (a, t)) (hj : j ≠ i) :
    Rely j s t := by
  rcases ending ho h with rfl | rfl
  · exact commit_rely hj
  · exact rollback_rely hj

theorem drop_rely (hj : j ≠ i) :
    Rely j s { s with exchanging := Function.update s.exchanging i none } :=
  ⟨le_refl _, ⟨[], rfl, fun _ _ h => h⟩, rfl, Function.update_of_ne hj _ _, le_refl _,
    fun _ => rfl⟩

theorem tick_rely {ms : ℕ} : Rely j s (s.tick ms) :=
  ⟨le_add_of_nonneg_right (Int.natCast_nonneg ms), ⟨[], rfl, fun _ _ h => h⟩, rfl, rfl, le_refl _,
    fun _ => rfl⟩

/-- A statement is performed, or fails. -/
theorem exec_cases {input : AuthInput} {r : Except AuthFault o.Res}
    (h : o.exec host i input s = some (r, t)) :
    (∃ fault, r = .error (.other fault) ∧ t = o.dropped i (s.tick input.elapsed)) ∨
      ∃ a, r = .ok a ∧ o.perform host i input.random (s.tick input.elapsed) = some (a, t) := by
  unfold exec at h
  dsimp only at h
  split at h
  · obtain ⟨rfl, rfl⟩ := Prod.mk.inj (Option.some.inj h)
    exact .inl ⟨_, rfl, rfl⟩
  · obtain ⟨⟨a, u⟩, hu, heq⟩ := Option.map_eq_some_iff.mp h
    obtain ⟨rfl, rfl⟩ := Prod.mk.inj heq
    exact .inr ⟨a, rfl, hu⟩

/-- A failed transaction is rolled back whatever happens. -/
theorem exec_rollback {input : AuthInput} {r : Except AuthFault Unit}
    (h : AuthOp.exec host i .rollback input s = some (r, t)) :
    r = .ok () ∧ t = (s.tick input.elapsed).rollback i := by
  have hnone : input.fault.filter (fun _ => canFail .rollback) = none := by
    cases input.fault <;> rfl
  simp only [exec, hnone] at h
  obtain ⟨rfl, rfl⟩ := Prod.mk.inj (Option.some.inj h)
  exact ⟨rfl, rfl⟩

/-- What time, a rollback, a session that is not created and the statement itself keep, its
execution keeps. -/
theorem exec_keeps {J : AuthDesk → Prop} {input : AuthInput} {r : Except AuthFault o.Res}
    (h : o.exec host i input s = some (r, t)) (hs : J (s.tick input.elapsed))
    (hrollback : ∀ u : AuthDesk, J u → J (u.rollback i))
    (hdrop : ∀ u : AuthDesk, J u → J { u with exchanging := Function.update u.exchanging i none })
    (hperform : ∀ a, o.perform host i input.random (s.tick input.elapsed) = some (a, t) → J t) :
    J t := by
  rcases exec_cases h with ⟨fault, -, rfl⟩ | ⟨a, -, ha⟩
  · cases o with
    | commit => exact hrollback _ hs
    | createSession user parent hash => exact hdrop _ hs
    | _ => exact hs
  · exact hperform a ha

end AuthOp

namespace AuthDesk

variable {host : AuthHost} {s t : AuthDesk} {i j : TxId} {o : AuthOp} {a : o.Res} {x : String}

/-- The revocations that are not committed survive a statement on its own. -/
theorem Sound.updateNow (h : s.Sound) {g : ℕ → AuthSession → Option AuthSession}
    {sessions : Table TxId AuthSession} (hwrite : s.sessions.updateNow g = some sessions)
    {j : TxId} {k : SessionId} {row : Option AuthSession} (hown : sessions.own j k = some row) :
    ∃ old at_, sessions.committed k = some old ∧ row = some (old.revoke at_) := by
  rw [Table.own_updateNow hwrite] at hown
  obtain ⟨old, at_, hold, hrow⟩ := h.revocations j k row hown
  exact ⟨old, at_, (Table.committed_updateNow_of_own hwrite hown).trans hold, hrow⟩

theorem Sound.tick (h : s.Sound) (ms : ℕ) : (s.tick ms).Sound := ⟨h.marks, h.revocations⟩

theorem Sound.drop (h : s.Sound) :
    Sound { s with exchanging := Function.update s.exchanging i none } :=
  ⟨h.marks, h.revocations⟩

theorem Sound.rollback (h : s.Sound) : (s.rollback i).Sound := by
  refine ⟨h.marks, fun j k row hown => ?_⟩
  by_cases hj : j = i
  · subst hj
    have hnone : (s.rollback j).sessions.own j k = none := Table.own_rollback_self
    rw [hnone] at hown
    cases hown
  · have hsame : (s.rollback i).sessions.own j k = s.sessions.own j k :=
      Table.own_rollback_other hj
    exact h.revocations j k row (hsame ▸ hown)

theorem Sound.commit (h : s.Sound) : (s.commit i).Sound := by
  refine ⟨fun j r hr => ?_, fun j k row hown => ?_⟩
  · have hmark := h.marks j r hr
    simp only [AuthDesk.commit, List.length_append]
    omega
  · by_cases hj : j = i
    · subst hj
      have hnone : (s.commit j).sessions.own j k = none := Table.own_commit_self
      rw [hnone] at hown
      cases hown
    · have hsame : (s.commit i).sessions.own j k = s.sessions.own j k := Table.own_commit_other hj
      rw [hsame] at hown
      obtain ⟨old, at_, hold, hrow⟩ := h.revocations j k row hown
      refine ⟨old, at_, ?_, hrow⟩
      have hself : s.sessions.own i k = none := by
        cases hi : s.sessions.own i k with
        | none => rfl
        | some row' => exact absurd (Table.own_inj hown hi) hj
      show s.sessions.seen i k = some old
      rw [Table.seen_of_own_none hself, hold]

/-- What a revocation of a transaction writes is the committed row, revoked. -/
theorem Sound.revocation (h : s.Sound) {pick : SessionPick} {k : SessionId} {row : AuthSession}
    (hw : (s.sessions.seen i k).bind (pick.revoke s.now k) = some row) :
    ∃ old, s.sessions.committed k = some old ∧ row = old.revoke s.now := by
  obtain ⟨r, hr, hrevoke⟩ := Option.bind_eq_some_iff.mp hw
  unfold SessionPick.revoke at hrevoke
  split at hrevoke
  · rename_i hpick
    obtain rfl := Option.some.inj hrevoke
    cases hown : s.sessions.own i k with
    | none =>
        rw [Table.seen_of_own_none hown] at hr
        exact ⟨r, hr, rfl⟩
    | some row' =>
        obtain ⟨old, at_, -, rfl⟩ := h.revocations i k row' hown
        rw [Table.seen_of_own hown] at hr
        obtain rfl := Option.some.inj hr
        simp [AuthSession.revoke] at hpick
  · cases hrevoke

theorem Sound.ending (h : s.Sound) (ho : o.ends = true)
    (hperform : o.perform host i x s = some (a, t)) : t.Sound := by
  rcases AuthOp.ending ho hperform with rfl | rfl
  · exact h.commit
  · exact h.rollback

theorem Sound.perform (h : s.Sound) (ho : o.ends = false)
    (hperform : o.perform host i x s = some (a, t)) : t.Sound := by
  have hdid := o.perform_did ho hperform
  refine ⟨fun j r hr => ?_, fun j k row hown => ?_⟩
  · have hlength : s.log.length ≤ t.log.length := by
      rcases hdid.log with hlog | hlog
      · rw [hlog]
      · rw [hlog, List.length_append]
        omega
    rcases hdid.reading with hread | ⟨-, hread⟩
    · rw [hread] at hr
      exact (h.marks j r hr).trans hlength
    · rw [hread] at hr
      by_cases hj : j = i
      · subst hj
        simp only [AuthDesk.read, Function.update_self, Option.some.injEq] at hr
        subst hr
        exact hlength
      · simp only [AuthDesk.read, Function.update_of_ne hj] at hr
        exact (h.marks j r hr).trans hlength
  by_cases hsession : o.onSessions = false
  · obtain ⟨hsame, -⟩ := hdid.sessions hsession
    rw [hsame] at hown ⊢
    exact h.revocations j k row hown
  cases o with
  | rotate id =>
      rcases rotate_some hperform with ⟨-, -, rfl⟩ | ⟨r, sessions, -, -, hwrite, rfl⟩
      · exact h.revocations j k row hown
      · exact h.updateNow hwrite hown
  | revoke pick =>
      obtain ⟨sessions, hwrite, rfl⟩ := revoke_some hperform
      exact h.updateNow hwrite hown
  | revokeUser user why =>
      obtain ⟨sessions, hwrite, rfl⟩ := revokeUser_some hperform
      exact h.updateNow hwrite hown
  | createSession user parent hash =>
      rcases createSession_eq (Option.some.inj hperform) with
        ⟨-, rfl⟩ | ⟨session, -, -, -, -, -, -, rfl⟩
      · exact h.revocations j k row hown
      · obtain ⟨old, at_, hold, hrow⟩ := h.revocations j k row hown
        refine ⟨old, at_, ?_, hrow⟩
        show (s.sessions.insertNow session).committed k = some old
        rw [Table.committed_insertNow, if_neg (ne_of_lt (Table.lt_next hold)), hold]
  | revokeUserTx user why except =>
      obtain ⟨sessions, hwrite, rfl⟩ := revokeUserTx_some hperform
      have hnow : sessions.own j k = some row := hown
      show ∃ old at_, sessions.committed k = some old ∧ _
      rw [Table.committed_update hwrite]
      by_cases hj : j = i
      · subst hj
        rw [Table.own_update_self hwrite] at hnow
        split at hnow
        · rename_i r hr
          obtain ⟨old, hold, rfl⟩ := h.revocation hr
          exact ⟨old, s.now, hold, (Option.some.inj hnow).symm⟩
        · exact h.revocations j k row hnow
      · rw [Table.own_update_other hwrite hj] at hnow
        exact h.revocations j k row hnow
  | commit => cases ho
  | rollback => cases ho
  | _ => exact absurd rfl hsession

end AuthDesk

/-- What the calls promise each other. -/
def authContract (host : AuthHost) :
    Contract AuthOp AuthOp.Res AuthFault AuthDesk AuthInput where
  exec := AuthOp.exec host
  Inv := AuthDesk.Sound
  Rely := Rely
  pre := AuthOp.pre
  rely_refl := Rely.refl
  rely_trans := Rely.trans
  pre_stable := AuthOp.pre_stable
  fresh i s := s.exchanging i = none ∧ Idle i s
  fresh_stable hr h := ⟨hr.exchanging.trans h.1, h.2.stable hr⟩
  step := by
    intro i o input s r t hsound hpre hexec
    have hpre' : o.pre i (s.tick input.elapsed) := AuthOp.pre_stable AuthOp.tick_rely hpre
    have hsound' := hsound.tick input.elapsed
    refine ⟨?_, fun j hj => ?_⟩
    · refine AuthOp.exec_keeps hexec hsound' (fun _ h => h.rollback) (fun _ h => h.drop) ?_
      intro a hperform
      cases ho : o.ends with
      | false => exact hsound'.perform ho hperform
      | true => exact hsound'.ending ho hperform
    · have htick : Rely j s (s.tick input.elapsed) := AuthOp.tick_rely
      refine htick.trans ?_
      refine AuthOp.exec_keeps (J := Rely j (s.tick input.elapsed)) hexec (Rely.refl j _)
        (fun _ h => h.trans (AuthOp.rollback_rely hj)) (fun _ h => h.trans (AuthOp.drop_rely hj)) ?_
      intro a hperform
      cases ho : o.ends with
      | false => exact AuthOp.perform_rely ho hpre' hperform hj
      | true => exact AuthOp.ending_rely ho hperform hj

end BookHouse
