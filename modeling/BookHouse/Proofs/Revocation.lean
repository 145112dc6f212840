/-
What a revocation leaves behind, and when it is complete.

A login or a refresh creates its session in a statement of its own, long after it has read
the account; a revocation reaches the sessions that are there when it comes.  What has to
hold is that nobody has been signed out between the read and the new session (`current`).
-/
import BookHouse.Proofs.Sessions

namespace BookHouse

open AuthDesk

/-- The event signs the user out because of the password or the account. -/
def AuthEvent.signsOut (user : UserId) : AuthEvent → Bool
  | revoked u why _ => u = user && why.ofAccess
  | _ => false

namespace AuthDesk

variable {host : AuthHost} {s t : AuthDesk} {i j : TxId}

/-- The events in the order they happened. -/
def event (s : AuthDesk) (n : ℕ) : Option AuthEvent := s.log.reverse[n]?

/-- What has happened since `i` read its account. -/
def since (s : AuthDesk) (i : TxId) : List AuthEvent :=
  s.log.take (s.log.length - ((s.readings i).map (·.mark)).getD 0)

/-- A session is created only while its user has not been signed out since the call read the
account, and nobody is about to. -/
def current (i : TxId) (o : AuthOp) (_ : AuthInput) (s : AuthDesk) : Prop :=
  match o with
  | .createSession user _ _ => (s.since i).all (!·.signsOut user) = true ∧
      s.work.all (fun w => !w.2.signsOut user) = true
  | _ => True

instance (i : TxId) (o : AuthOp) (x : AuthInput) (s : AuthDesk) : Decidable (current i o x s) := by
  unfold current
  split
  · exact inferInstance
  · exact inferInstance

/-- Every session of somebody who was signed out comes from a later reading of the account,
or is the one that was left out; and a transaction that is about to sign somebody out has
written all their sessions. -/
structure SignedOut (s : AuthDesk) : Prop where
  done : ∀ n user why except, s.event n = some (.revoked user why except) → why.ofAccess = true →
    ∀ k session, s.Live k session → session.userId = user →
      n < session.basis ∨ except = some k
  doing : ∀ i user why except, (i, .revoked user why except) ∈ s.work → why.ofAccess = true →
    ∀ k session, s.Live k session → session.userId = user →
      except = some k ∨ ∃ row, s.sessions.own i k = some row

theorem event_append {new : List AuthEvent} (h : t.log = new ++ s.log) {n : ℕ} {e : AuthEvent}
    (he : t.event n = some e) : s.event n = some e ∨ (s.log.length ≤ n ∧ e ∈ new) := by
  rw [event, h, List.reverse_append] at he
  by_cases hn : n < s.log.length
  · rw [List.getElem?_append_left (by simpa using hn)] at he
    exact .inl he
  · rw [List.getElem?_append_right (by simpa using hn)] at he
    exact .inr ⟨by omega, List.mem_reverse.mp (List.mem_of_getElem? he)⟩

/-- An event that came after the reading. -/
theorem mem_since {n : ℕ} {e : AuthEvent} (he : s.event n = some e)
    (hn : ((s.readings i).map (·.mark)).getD 0 ≤ n) : e ∈ s.since i := by
  obtain ⟨hlt, hget⟩ := List.getElem?_eq_some_iff.mp he
  rw [List.length_reverse] at hlt
  rw [List.getElem_reverse] at hget
  refine List.mem_take_iff_getElem.mpr ⟨s.log.length - 1 - n, ?_, hget⟩
  omega

/-! ### What every statement keeps -/

theorem SignedOut.tick (h : s.SignedOut) (ms : ℕ) : (s.tick ms).SignedOut := ⟨h.done, h.doing⟩

theorem SignedOut.drop (h : s.SignedOut) :
    SignedOut { s with exchanging := Function.update s.exchanging i none } := ⟨h.done, h.doing⟩

theorem SignedOut.rollback (h : s.SignedOut) : (s.rollback i).SignedOut := by
  refine ⟨h.done, fun j user why except hmem haccess k session hlive huser => ?_⟩
  obtain ⟨hwork, hne⟩ := List.mem_filter.mp hmem
  have hj : j ≠ i := by simpa using hne
  rcases h.doing j user why except hwork haccess k session hlive huser with hkept | ⟨row, hrow⟩
  · exact .inl hkept
  · exact .inr ⟨row, (Table.own_rollback_other hj).trans hrow⟩

/-- The sign-outs of a transaction are complete when it commits. -/
theorem SignedOut.commit (h : s.SignedOut) (hsound : s.Sound) : (s.commit i).SignedOut := by
  refine ⟨fun n user why except hn haccess k session hlive huser => ?_,
    fun j user why except hmem haccess k session hlive huser => ?_⟩
  · obtain ⟨hown, hold⟩ := live_of_commit hsound hlive
    have hlog : (s.commit i).log =
        ((s.lost i).map AuthEvent.ownerLost ++ s.workOf i) ++ s.log :=
      (List.append_assoc _ _ _).symm
    rcases event_append hlog hn with hbefore | ⟨-, hmem⟩
    · exact h.done n user why except hbefore haccess k session hold huser
    rcases List.mem_append.mp hmem with hlost | hwork
    · obtain ⟨id, -, heq⟩ := List.mem_map.mp hlost
      cases heq
    · obtain ⟨⟨j, e⟩, hfilter, rfl⟩ := List.mem_map.mp hwork
      obtain ⟨hin, hj⟩ := List.mem_filter.mp hfilter
      obtain rfl : j = i := by simpa using hj
      rcases h.doing j user why except hin haccess k session hold huser with hkept | ⟨row, hrow⟩
      · exact .inr hkept
      · rw [hown] at hrow
        cases hrow
  · obtain ⟨hown, hold⟩ := live_of_commit hsound hlive
    obtain ⟨hwork, hne⟩ := List.mem_filter.mp hmem
    have hj : j ≠ i := by simpa using hne
    rcases h.doing j user why except hwork haccess k session hold huser with hkept | ⟨row, hrow⟩
    · exact .inl hkept
    · exact .inr ⟨row, (Table.own_commit_other hj).trans hrow⟩

/-- A statement after which no more sessions are live. -/
theorem SignedOut.grow (h : s.SignedOut) (new : List AuthEvent)
    (opened : List (TxId × AuthEvent)) (hlog : t.log = new ++ s.log)
    (hwork : t.work = opened ++ s.work)
    (hlive : ∀ k session, t.Live k session → s.Live k session)
    (hown : ∀ j k row, s.sessions.own j k = some row → ∃ row', t.sessions.own j k = some row')
    (hnew : ∀ user why except, .revoked user why except ∈ new → why.ofAccess = true →
      ∀ k session, t.Live k session → session.userId ≠ user)
    (hopened : ∀ j user why except, (j, .revoked user why except) ∈ opened →
      why.ofAccess = true → ∀ k session, t.Live k session → session.userId = user →
        except = some k ∨ ∃ row, t.sessions.own j k = some row) : t.SignedOut := by
  refine ⟨fun n user why except hn haccess k session hk huser => ?_,
    fun j user why except hmem haccess k session hk huser => ?_⟩
  · rcases event_append hlog hn with hbefore | ⟨-, hmem⟩
    · exact h.done n user why except hbefore haccess k session (hlive k session hk) huser
    · exact absurd huser (hnew user why except hmem haccess k session hk)
  · rw [hwork] at hmem
    rcases List.mem_append.mp hmem with hin | hbefore
    · exact hopened j user why except hin haccess k session hk huser
    · rcases h.doing j user why except hbefore haccess k session (hlive k session hk) huser with
        hkept | ⟨row, hrow⟩
      · exact .inl hkept
      · exact .inr (hown j k row hrow)

/-- A statement on its own that only revokes. -/
theorem SignedOut.updateNow (h : s.SignedOut) {g : ℕ → AuthSession → Option AuthSession}
    {sessions : Table TxId AuthSession} (hwrite : s.sessions.updateNow g = some sessions)
    (hg : ∀ k r r', g k r = some r' → r'.revokedAt ≠ none) (hsessions : t.sessions = sessions)
    (new : List AuthEvent) (hlog : t.log = new ++ s.log) (hwork : t.work = s.work)
    (hnew : ∀ user why except, .revoked user why except ∈ new →
      ∀ k session, t.Live k session → session.userId ≠ user) : t.SignedOut := by
  refine h.grow new [] hlog hwork (fun k session hk => ?_) (fun j k row hrow => ⟨row, ?_⟩)
    (fun user why except hmem _ => hnew user why except hmem) fun _ _ _ _ hmem => by cases hmem
  · obtain ⟨hk, hlive⟩ := hk
    rw [hsessions] at hk
    exact live_of_updateNow hwrite hg hk hlive
  · rw [hsessions, Table.own_updateNow hwrite, hrow]

/-- A version of a transaction stays one. -/
theorem own_update {sessions : Table TxId AuthSession} {g : ℕ → AuthSession → Option AuthSession}
    (hwrite : s.sessions.update i g = some sessions) {k : SessionId} {row : Option AuthSession}
    (h : s.sessions.own j k = some row) : ∃ row', sessions.own j k = some row' := by
  by_cases hj : j = i
  · subst hj
    rw [Table.own_update_self hwrite]
    split
    · exact ⟨_, rfl⟩
    · exact ⟨row, h⟩
  · exact ⟨row, (Table.own_update_other hwrite hj).trans h⟩

/-- A revocation of a transaction writes every live session it is about. -/
theorem own_of_pick {pick : SessionPick} {sessions : Table TxId AuthSession}
    (hwrite : s.sessions.update i (pick.revoke s.now) = some sessions) {k : SessionId}
    {session : AuthSession} (hk : s.Live k session) (hpick : pick.matches k session = true) :
    ∃ row, sessions.own i k = some row := by
  cases hown : s.sessions.own i k with
  | some row => exact own_update hwrite hown
  | none =>
      have hrevoke : pick.revoke s.now k session = some (session.revoke s.now) := by
        simp [SessionPick.revoke, hpick, hk.2]
      rw [Table.own_update_self hwrite, Table.seen_of_own_none hown, hk.1, Option.bind_some, hrevoke]
      exact ⟨_, rfl⟩

/-- A new session is of a user who has not been signed out since. -/
theorem SignedOut.insert (h : s.SignedOut) {session : AuthSession} {exchanging : TxId → Option SessionId}
    (hbasis : session.basis = ((s.readings i).map (·.mark)).getD 0)
    (hsince : (s.since i).all (!·.signsOut session.userId) = true)
    (hwork : s.work.all (fun w => !w.2.signsOut session.userId) = true) :
    SignedOut { s with exchanging, sessions := s.sessions.insertNow session } := by
  have hlive : ∀ k r, Live { s with exchanging, sessions := s.sessions.insertNow session } k r →
      s.Live k r ∨ r = session := by
    rintro k r ⟨hk, hr⟩
    have hcommitted : (s.sessions.insertNow session).committed k = some r := hk
    rw [Table.committed_insertNow] at hcommitted
    split at hcommitted
    · exact .inr (Option.some.inj hcommitted).symm
    · exact .inl ⟨hcommitted, hr⟩
  refine ⟨fun n user why except hn haccess k r hk huser => ?_,
    fun j user why except hmem haccess k r hk huser => ?_⟩
  · rcases hlive k r hk with hold | rfl
    · exact h.done n user why except hn haccess k r hold huser
    · refine .inl ?_
      by_contra hle
      have hin : .revoked user why except ∈ s.since i := by
        refine mem_since hn ?_
        rw [← hbasis]
        omega
      have hnot := List.all_eq_true.mp hsince _ hin
      simp [AuthEvent.signsOut, huser, haccess] at hnot
  · rcases hlive k r hk with hold | rfl
    · exact h.doing j user why except hmem haccess k r hold huser
    · have hnot := List.all_eq_true.mp hwork _ hmem
      simp [AuthEvent.signsOut, huser, haccess] at hnot

theorem SignedOut.perform (h : s.SignedOut) {o : AuthOp} {a : o.Res} {x : String}
    (ho : o.ends = false) (hok : current i o {} s) (hp : o.perform host i x s = some (a, t)) :
    t.SignedOut := by
  have hdid := o.perform_did ho hp
  by_cases hsession : o.onSessions = false
  · obtain ⟨hsame, -⟩ := hdid.sessions hsession
    obtain ⟨new, hlog, hnew⟩ : ∃ new, t.log = new ++ s.log ∧ ∀ e ∈ new, e.isRevoked = false := by
      rcases hdid.log with hlog | hlog
      · exact ⟨[], hlog, by simp⟩
      · exact ⟨_, hlog, fun e he => AuthOp.notes_quiet hsession he⟩
    obtain ⟨opened, hwork, hopened⟩ : ∃ opened, t.work = opened ++ s.work ∧
        ∀ e ∈ opened, e.2.isRevoked = false := by
      rcases hdid.work with hwork | hwork
      · exact ⟨[], hwork, by simp⟩
      · refine ⟨_, hwork, fun e he => ?_⟩
        obtain ⟨e', he', rfl⟩ := List.mem_map.mp he
        exact AuthOp.keeps_quiet hsession he'
    refine h.grow new opened hlog hwork (fun k session hk => ?_) (fun j k row hrow => ⟨row, ?_⟩)
      (fun user why except hmem => ?_) fun j user why except hmem => ?_
    · rw [Live, ← hsame]
      exact hk
    · rw [hsame, hrow]
    · cases hnew _ hmem
    · cases hopened _ hmem
  cases o with
  | rotate id =>
      rcases rotate_some hp with ⟨-, -, rfl⟩ | ⟨r, sessions, -, -, hwrite, rfl⟩
      · exact h
      · exact h.updateNow hwrite revokes_rotate rfl [] rfl rfl fun _ _ _ hmem => by cases hmem
  | revoke pick =>
      obtain ⟨sessions, hwrite, rfl⟩ := revoke_some hp
      exact h.updateNow hwrite revokes_pick rfl [] rfl rfl fun _ _ _ hmem => by cases hmem
  | revokeUser user why =>
      obtain ⟨sessions, hwrite, rfl⟩ := revokeUser_some hp
      refine h.updateNow hwrite revokes_pick rfl [.revoked user why none] rfl rfl ?_
      intro u why' except hmem k session ⟨hk, hlive⟩ huser
      cases List.mem_singleton.mp hmem
      have hpick := not_live_of_pick hwrite hk hlive
      simp [SessionPick.matches, huser] at hpick
  | createSession user parent hash =>
      rcases createSession_eq (Option.some.inj hp) with
        ⟨-, rfl⟩ | ⟨session, -, rfl, -, -, -, hbasis, rfl⟩
      · exact h.drop
      · exact h.insert hbasis hok.1 hok.2
  | revokeUserTx user why except =>
      obtain ⟨sessions, hwrite, rfl⟩ := revokeUserTx_some hp
      have hsame : ∀ k session, Live ({ s with sessions }.keep i [.revoked user why except]) k
          session → s.Live k session := by
        intro k session ⟨hk, hlive⟩
        have hcommitted : sessions.committed k = some session := hk
        rw [Table.committed_update hwrite] at hcommitted
        exact ⟨hcommitted, hlive⟩
      refine h.grow [] [(i, .revoked user why except)] rfl rfl hsame
        (fun j k row hrow => own_update hwrite hrow) (fun _ _ _ hmem => by cases hmem) ?_
      intro j u why' except' hmem haccess k session hk huser
      cases List.mem_singleton.mp hmem
      by_cases hexcept : except = some k
      · exact .inl hexcept
      · refine .inr (own_of_pick hwrite (hsame k session hk) ?_)
        simp [SessionPick.matches, huser, hexcept]
  | commit => cases ho
  | rollback => cases ho
  | _ => exact absurd rfl hsession

/-- Whatever is executed, if sessions are created on a current reading. -/
theorem SignedOut.exec (h : s.SignedOut) (hsound : s.Sound) {o : AuthOp} {input : AuthInput}
    {r : Except AuthFault o.Res} (hok : current i o input s)
    (hexec : o.exec host i input s = some (r, t)) : t.SignedOut := by
  refine AuthOp.exec_keeps hexec (h.tick _) (fun _ hu => hu.rollback) (fun _ hu => hu.drop) ?_
  intro a hp
  cases ho : o.ends with
  | false => exact (h.tick _).perform ho hok hp
  | true =>
      rcases AuthOp.ending ho hp with rfl | rfl
      · exact (h.tick _).commit (hsound.tick _)
      · exact (h.tick _).rollback

end AuthDesk

end BookHouse
