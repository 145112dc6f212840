/-
What the statements do to sessions.

A session that is there stays there; it keeps whose it is and where it came from, and once
it is revoked it stays so.
-/
import BookHouse.Proofs.AuthCalls

namespace BookHouse

open AuthDesk

/-- The event revokes the sessions of a user. -/
def AuthEvent.isRevoked : AuthEvent → Bool
  | revoked .. => true
  | _ => false

namespace AuthOp

/-- What a statement that is not about sessions logs is no revocation. -/
theorem notes_quiet {o : AuthOp} (h : o.onSessions = false) {now : Instant} {e : AuthEvent}
    (he : e ∈ o.notes now) : e.isRevoked = false := by
  cases o with
  | verify id row password =>
      obtain rfl := List.mem_singleton.mp he
      rfl
  | compare id row codeHash =>
      obtain rfl := List.mem_singleton.mp he
      rfl
  | updateUser id w =>
      cases w with
      | access b => cases b <;> simp_all [notes, UserWrite.events, AuthEvent.isRevoked]
      | _ => simp_all [notes, UserWrite.events, AuthEvent.isRevoked]
  | revokeUser user why => cases h
  | _ => cases he

theorem keeps_quiet {o : AuthOp} (h : o.onSessions = false) {now : Instant} {e : AuthEvent}
    (he : e ∈ o.keeps now) : e.isRevoked = false := by
  cases o with
  | consumeTx id =>
      obtain rfl := List.mem_singleton.mp he
      rfl
  | updateUserTx id w =>
      cases w with
      | access b => cases b <;> simp_all [keeps, UserWrite.events, AuthEvent.isRevoked]
      | _ => simp_all [keeps, UserWrite.events, AuthEvent.isRevoked]
  | revokeUserTx user why except => cases h
  | _ => cases he

end AuthOp

/-- What time does to a session. -/
structure AuthSession.Ages (r r' : AuthSession) : Prop where
  userId : r'.userId = r.userId
  parent : r'.parent = r.parent
  family : r'.family = r.family
  revoked : r.revokedAt ≠ none → r'.revokedAt ≠ none

theorem AuthSession.Ages.refl (r : AuthSession) : r.Ages r := ⟨rfl, rfl, rfl, id⟩

namespace AuthDesk

variable {s t : AuthDesk} {i : TxId}

/-- A session that is not revoked. -/
def Live (s : AuthDesk) (k : SessionId) (session : AuthSession) : Prop :=
  s.sessions.committed k = some session ∧ session.revokedAt = none

/-- A statement that only revokes makes no session live. -/
theorem live_of_updateNow {g : ℕ → AuthSession → Option AuthSession}
    {sessions : Table TxId AuthSession} (hwrite : s.sessions.updateNow g = some sessions)
    (hg : ∀ k r r', g k r = some r' → r'.revokedAt ≠ none) {k : SessionId} {session : AuthSession}
    (hk : sessions.committed k = some session) (hlive : session.revokedAt = none) :
    s.Live k session := by
  rw [Table.committed_updateNow hwrite] at hk
  obtain ⟨r, hr, heq⟩ := Option.map_eq_some_iff.mp hk
  cases hw : g k r with
  | none =>
      rw [hw, Option.getD_none] at heq
      exact ⟨heq ▸ hr, hlive⟩
  | some r' =>
      rw [hw, Option.getD_some] at heq
      exact absurd (heq ▸ hlive) (hg k r r' hw)

theorem revokes_pick {pick : SessionPick} {now : Instant} (k : ℕ) (r r' : AuthSession)
    (h : pick.revoke now k r = some r') : r'.revokedAt ≠ none := by
  unfold SessionPick.revoke at h
  split at h
  · obtain rfl := Option.some.inj h
    simp [AuthSession.revoke]
  · cases h

theorem revokes_rotate {id : SessionId} {now : Instant} (k : ℕ) (r r' : AuthSession)
    (h : onRow id (AuthSession.rotate now) k r = some r') : r'.revokedAt ≠ none := by
  obtain ⟨-, rfl⟩ := AuthOp.onRow_some h
  simp [AuthSession.rotate]

/-- A session that matches is not left live. -/
theorem not_live_of_pick {pick : SessionPick} {sessions : Table TxId AuthSession}
    (hwrite : s.sessions.updateNow (pick.revoke s.now) = some sessions) {k : SessionId}
    {session : AuthSession} (hk : sessions.committed k = some session)
    (hlive : session.revokedAt = none) : pick.matches k session = false := by
  rw [Table.committed_updateNow hwrite] at hk
  obtain ⟨r, hr, heq⟩ := Option.map_eq_some_iff.mp hk
  unfold SessionPick.revoke at heq
  split at heq
  · rw [Option.getD_some] at heq
    subst heq
    cases hlive
  · rename_i hnot
    rw [Option.getD_none] at heq
    subst heq
    simpa [hlive] using hnot

/-- What is not written by `i` is live after its commit only if it was. -/
theorem live_of_commit (hsound : s.Sound) {k : SessionId} {session : AuthSession}
    (h : (s.commit i).Live k session) : s.sessions.own i k = none ∧ s.Live k session := by
  obtain ⟨hk, hlive⟩ := h
  have hseen : s.sessions.seen i k = some session := hk
  cases hown : s.sessions.own i k with
  | none =>
      rw [Table.seen_of_own_none hown] at hseen
      exact ⟨rfl, hseen, hlive⟩
  | some row =>
      obtain ⟨old, at_, -, rfl⟩ := hsound.revocations i k row hown
      rw [Table.seen_of_own hown] at hseen
      obtain rfl := Option.some.inj hseen
      cases hlive

/-! ### Ageing -/

/-- The sessions of `t` are those of `s`, later on. -/
structure Ages (s t : AuthDesk) : Prop where
  forth : ∀ k r, s.sessions.committed k = some r → ∃ r', t.sessions.committed k = some r' ∧ r.Ages r'
  back : ∀ k r', t.sessions.committed k = some r' → ∃ r, s.sessions.committed k = some r ∧ r.Ages r'

theorem Ages.of_committed (h : ∀ k, t.sessions.committed k = s.sessions.committed k) :
    Ages s t where
  forth k r hr := ⟨r, (h k).trans hr, .refl r⟩
  back k r hr := ⟨r, (h k).symm.trans hr, .refl r⟩

theorem ages_pick {pick : SessionPick} {now : Instant} (k : ℕ) (r r' : AuthSession)
    (h : pick.revoke now k r = some r') : r.Ages r' := by
  unfold SessionPick.revoke at h
  split at h
  · obtain rfl := Option.some.inj h
    exact ⟨rfl, rfl, rfl, fun _ => by simp [AuthSession.revoke]⟩
  · cases h

theorem ages_rotate {id : SessionId} {now : Instant} (k : ℕ) (r r' : AuthSession)
    (h : onRow id (AuthSession.rotate now) k r = some r') : r.Ages r' := by
  obtain ⟨-, rfl⟩ := AuthOp.onRow_some h
  exact ⟨rfl, rfl, rfl, fun _ => by simp [AuthSession.rotate]⟩

theorem Ages.updateNow {g : ℕ → AuthSession → Option AuthSession}
    {sessions : Table TxId AuthSession} (hwrite : s.sessions.updateNow g = some sessions)
    (hg : ∀ k r r', g k r = some r' → r.Ages r') (ht : t.sessions = sessions) : Ages s t := by
  have hrow : ∀ k (r : AuthSession), r.Ages ((g k r).getD r) := by
    intro k r
    cases hw : g k r with
    | none => exact .refl r
    | some r' => exact hg k r r' hw
  subst ht
  refine ⟨fun k r hr => ⟨_, ?_, hrow k r⟩, fun k r' hr' => ?_⟩
  · rw [Table.committed_updateNow hwrite, hr, Option.map_some]
  · rw [Table.committed_updateNow hwrite] at hr'
    obtain ⟨r, hr, rfl⟩ := Option.map_eq_some_iff.mp hr'
    exact ⟨r, hr, hrow k r⟩

theorem Ages.commit (hsound : s.Sound) : Ages s (s.commit i) := by
  have hseen : ∀ k, s.sessions.seen i k = s.sessions.committed k ∨
      ∃ old at_, s.sessions.committed k = some old ∧
        s.sessions.seen i k = some (old.revoke at_) := by
    intro k
    cases hown : s.sessions.own i k with
    | none => exact .inl (Table.seen_of_own_none hown)
    | some row =>
        obtain ⟨old, at_, hold, rfl⟩ := hsound.revocations i k row hown
        exact .inr ⟨old, at_, hold, Table.seen_of_own hown⟩
  have hages : ∀ (old : AuthSession) at_, old.Ages (old.revoke at_) :=
    fun old at_ => ⟨rfl, rfl, rfl, fun _ => by simp [AuthSession.revoke]⟩
  refine ⟨fun k r hr => ?_, fun k r' hr' => ?_⟩
  · rcases hseen k with hsame | ⟨old, at_, hold, hrow⟩
    · exact ⟨r, hsame.trans hr, .refl r⟩
    · obtain rfl := Option.some.inj (hr.symm.trans hold)
      exact ⟨_, hrow, hages r at_⟩
  · have hnow : s.sessions.seen i k = some r' := hr'
    rcases hseen k with hsame | ⟨old, at_, hold, hrow⟩
    · exact ⟨r', hsame.symm.trans hnow, .refl r'⟩
    · obtain rfl := Option.some.inj (hnow.symm.trans hrow)
      exact ⟨old, hold, hages old at_⟩

end AuthDesk

end BookHouse
