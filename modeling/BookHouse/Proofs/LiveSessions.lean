/-
How long a session outlives its end.

A revocation reaches the table at once and the requests later: what is known of a session is
kept for ten seconds, and a request that asked before the revocation may keep what it was
told after it.  The sum of the two is a bound, whatever the account services do meanwhile.
-/
import BookHouse.Auth.JwtStrategy
import BookHouse.Proofs.Sessions

namespace BookHouse

open JwtStrategy

namespace AuthDesk

variable {host : AuthHost} {s t : AuthDesk} {i : TxId} {sid : SessionId}

/-- The session has been revoked. -/
def Revoked (s : AuthDesk) (sid : SessionId) : Prop :=
  ∃ session, s.sessions.committed sid = some session ∧ session.revokedAt ≠ none

theorem Ages.stillRevoked (h : Ages s t) (hr : s.Revoked sid) : t.Revoked sid := by
  obtain ⟨session, hrow, hrevoked⟩ := hr
  obtain ⟨session', hrow', hages⟩ := h.forth sid session hrow
  exact ⟨session', hrow', hages.revoked hrevoked⟩

/-- No statement gives a session back. -/
theorem Revoked.perform (hsound : s.Sound) {o : AuthOp} {a : o.Res} {x : String}
    (h : s.Revoked sid) (hperform : o.perform host i x s = some (a, t)) : t.Revoked sid := by
  by_cases hends : o.ends = true
  · rcases AuthOp.ending hends hperform with rfl | rfl
    · exact (Ages.commit hsound).stillRevoked h
    · exact h
  have hdid := AuthOp.perform_did (Bool.eq_false_iff.mpr hends) hperform
  by_cases hsession : o.onSessions = false
  · unfold Revoked
    rw [(hdid.sessions hsession).1]
    exact h
  cases o with
  | rotate id =>
      rcases rotate_some hperform with ⟨-, -, rfl⟩ | ⟨r, sessions, -, -, hwrite, rfl⟩
      · exact h
      · exact (Ages.updateNow hwrite ages_rotate rfl).stillRevoked h
  | revoke pick =>
      obtain ⟨sessions, hwrite, rfl⟩ := revoke_some hperform
      exact (Ages.updateNow hwrite ages_pick rfl).stillRevoked h
  | revokeUser user why =>
      obtain ⟨sessions, hwrite, rfl⟩ := revokeUser_some hperform
      exact (Ages.updateNow hwrite ages_pick rfl).stillRevoked h
  | createSession user parent hash =>
      rcases createSession_eq (Option.some.inj hperform) with
        ⟨-, rfl⟩ | ⟨session, -, -, -, -, -, -, rfl⟩
      · exact h
      · obtain ⟨old, hrow, hrevoked⟩ := h
        refine ⟨old, ?_, hrevoked⟩
        show (s.sessions.insertNow session).committed sid = some old
        rw [Table.committed_insertNow, if_neg (Table.lt_next hrow).ne, hrow]
  | revokeUserTx user why except =>
      obtain ⟨sessions, hwrite, rfl⟩ := revokeUserTx_some hperform
      obtain ⟨old, hrow, hrevoked⟩ := h
      exact ⟨old, (Table.committed_update hwrite).trans hrow, hrevoked⟩
  | commit => exact absurd rfl hends
  | rollback => exact absurd rfl hends
  | _ => exact absurd rfl hsession

theorem Revoked.exec (hsound : s.Sound) {o : AuthOp} {x : AuthInput} {r : Except AuthFault o.Res}
    (h : s.Revoked sid) (hexec : o.exec host i x s = some (r, t)) : t.Revoked sid :=
  AuthOp.exec_keeps (J := fun u => u.Revoked sid) hexec h (fun _ hu => hu) (fun _ hu => hu)
    fun _ hperform => Revoked.perform (hsound.tick _) h hperform

/-- Time does not go back. -/
theorem now_exec {o : AuthOp} {x : AuthInput} {r : Except AuthFault o.Res}
    (hexec : o.exec host i x s = some (r, t)) : s.now ≤ t.now := by
  have htick : s.now ≤ (s.tick x.elapsed).now :=
    le_add_of_nonneg_right (Int.natCast_nonneg x.elapsed)
  refine AuthOp.exec_keeps (J := fun u => s.now ≤ u.now) hexec htick (fun _ hu => hu)
    (fun _ hu => hu) fun a hperform => ?_
  by_cases hends : o.ends = true
  · rcases AuthOp.ending hends hperform with rfl | rfl
    · exact htick
    · exact htick
  · exact htick.trans (AuthOp.perform_did (Bool.eq_false_iff.mpr hends) hperform).now.ge

end AuthDesk

section live

variable {host : AuthHost} {w w' : AuthWorld} {sid : SessionId}

/-- The account services keep their promises. -/
abbrev AuthInOrder (host : AuthHost) (w : AuthWorld) : Prop :=
  (authContract host).Kept
    (fun _ : ℕ => Prog.Contract.Ends (fun (_ : AuthAnswer) _ => True) fun _ => True) w

theorem AuthInOrder.step {a : AccountAct} (h : AuthInOrder host w)
    (hstep : accountStep host w a = some w') : AuthInOrder host w' := by
  cases a with
  | wait ms =>
      obtain rfl := Option.some.inj hstep
      exact ⟨AuthDesk.Sound.tick h.inv ms,
        fun i p hp => (h.threads i p hp).stable AuthOp.tick_rely,
        fun i hi => (authContract host).fresh_stable AuthOp.tick_rely (h.fresh i hi)⟩
  | service a =>
      exact Prog.Contract.Kept.step h (fun _ _ _ _ hfresh => AuthCall.keeps_request hfresh) hstep

theorem accountStep_run {i : ℕ} {x : AuthInput}
    (h : accountStep host w (.service (.run i x)) = some w') :
    ∃ (o : AuthOp) (r : Except AuthFault o.Res), o.exec host i x w.state = some (r, w'.state) := by
  have hstep : Prog.World.step (authContract host).exec (AuthRequest.body host) w (.run i x) =
      some w' := h
  obtain ⟨o, f, r, t, -, hexec, rfl⟩ := Prog.Contract.step_run hstep
  exact ⟨o, r, hexec⟩

theorem accountStep_forward (host : AuthHost) : Cache.Forward isLive (accountStep host) := by
  intro w a w' hstep
  cases a with
  | wait ms =>
      obtain rfl := Option.some.inj hstep
      exact le_add_of_nonneg_right (Int.natCast_nonneg ms)
  | service a =>
      cases a with
      | start request =>
          obtain rfl := Option.some.inj hstep
          exact le_refl _
      | run i x =>
          obtain ⟨o, r, hexec⟩ := accountStep_run hstep
          exact AuthDesk.now_exec hexec

theorem accountStep_revoked {a : AccountAct} (h : AuthInOrder host w) (hr : w.state.Revoked sid)
    (hstep : accountStep host w a = some w') : w'.state.Revoked sid := by
  cases a with
  | wait ms =>
      obtain rfl := Option.some.inj hstep
      exact hr
  | service a =>
      cases a with
      | start request =>
          obtain rfl := Option.some.inj hstep
          exact hr
      | run i x =>
          obtain ⟨o, r, hexec⟩ := accountStep_run hstep
          exact hr.exec h.inv hexec

/-- The requests and what is known of their sessions. -/
abbrev LiveState := Cache.State AuthWorld SessionId (Option (AuthSession × User)) Bool

/-- The session is over, or its account is closed. -/
def Closed (s : AuthDesk) (sid : SessionId) : Prop :=
  ∀ session user, findSession s sid = some (session, user) → session.revokedAt ≠ none ∨
    session.expiresAt ≤ s.now ∨ user.status ≠ .active ∨ user.deletedAt ≠ none

theorem closed_of_revoked {s : AuthDesk} (h : s.Revoked sid) : Closed s sid := by
  obtain ⟨session, hrow, hrevoked⟩ := h
  intro session' user hfound
  unfold findSession at hfound
  rw [hrow, Option.bind_eq_bind, Option.bind_some] at hfound
  obtain ⟨u, -, heq⟩ := Option.bind_eq_some_iff.mp hfound
  obtain ⟨rfl, -⟩ := Prod.mk.inj (Option.some.inj heq)
  exact .inl hrevoked

/-- What is closed is found live at no time from now on. -/
theorem clear_of_closed {s : LiveState} (h : Closed s.source.state sid) :
    Cache.Clear isLive (· = true) sid s := by
  intro now hnow hlive
  obtain ⟨⟨session, user⟩, hrow, hok⟩ := (Option.any_eq_true _ _).mp
    (show (findSession s.source.state sid).any _ = true from hlive)
  simp only [Bool.and_eq_true, decide_eq_true_eq, Option.isNone_iff_eq_none] at hok
  obtain ⟨⟨⟨hrevoked, hexpires⟩, hstatus⟩, hdeleted⟩ := hok
  have hnow' : s.source.state.now ≤ now := hnow
  rcases h session user hrow with hr | he | hs | hd
  · exact hr hrevoked
  · exact absurd (lt_of_le_of_lt (he.trans hnow') hexpires) (lt_irrefl _)
  · exact hs hstatus
  · exact hd hdeleted

/-- The process has just started. -/
def justStarted (desk : AuthDesk) : LiveState := { source := { state := desk } }

theorem justStarted_past {desk : AuthDesk} : Cache.Past isLive (justStarted desk) :=
  ⟨fun _ he => absurd he List.not_mem_nil, fun i k r a hi => by simp [justStarted] at hi,
    fun i k x a hi => by simp [justStarted] at hi⟩

variable {w₁ w₂ : LiveState} {before after : List (Cache.Act AccountAct SessionId)} {delay : ℤ}
  {desk : AuthDesk}

/-- What holds of the accounts at every step. -/
theorem inOrder_step {s t : LiveState} {a : Cache.Act AccountAct SessionId}
    (h : AuthInOrder host s.source) (hstep : liveStep host s a = some t) :
    AuthInOrder host t.source := by
  cases a with
  | source a =>
      obtain ⟨source, hmove, rfl⟩ := Option.map_eq_some_iff.mp hstep
      exact h.step hmove
  | call key =>
      obtain rfl := Option.some.inj hstep
      exact h
  | load i | answer i =>
      simp only [liveStep, Cache.step] at hstep
      split at hstep
      · obtain rfl := Option.some.inj hstep
        exact h
      · cases hstep
  | drop =>
      obtain rfl := Option.some.inj hstep
      exact h

theorem revoked_step {s t : LiveState} {a : Cache.Act AccountAct SessionId}
    (h : AuthInOrder host s.source) (hr : s.source.state.Revoked sid)
    (hstep : liveStep host s a = some t) : t.source.state.Revoked sid := by
  cases a with
  | source a =>
      obtain ⟨source, hmove, rfl⟩ := Option.map_eq_some_iff.mp hstep
      exact accountStep_revoked h hr hmove
  | call key =>
      obtain rfl := Option.some.inj hstep
      exact hr
  | load i | answer i =>
      simp only [liveStep, Cache.step] at hstep
      split at hstep
      · obtain rfl := Option.some.inj hstep
        exact hr
      · cases hstep
  | drop =>
      obtain rfl := Option.some.inj hstep
      exact hr

/-- From when a session is closed, requests with it are let through for so long. -/
theorem let_through (hdelay : 0 ≤ delay)
    (hrun₁ : Machine.runFrom (liveStep host) (justStarted desk) before = some w₁)
    (hrun₂ : Machine.runFrom (liveStep host) w₁ after = some w₂)
    (hquick : Machine.GuardedRun (liveStep host) (isLive.Quick delay) w₁ after)
    (hclosed : Machine.Along (liveStep host) (fun w => Closed w.source.state sid) w₁ after)
    {i : ℕ} {at_ : Instant} (hdone : w₂.calls[i]? = some (.done sid true at_)) :
    at_ < w₁.source.state.now + delay + liveTtl := by
  have hforward := accountStep_forward host
  have hpast : Cache.Past isLive w₁ := Cache.past_run hforward before justStarted_past hrun₁
  have httl : 0 < isLive.ttl := by decide
  have hclear : Machine.Along (liveStep host) (Cache.Clear isLive (· = true) sid) w₁ after :=
    Machine.Along.mono (fun _ => clear_of_closed) after w₁ hclosed
  have hfading := Cache.bad_fades hforward httl after w₁ w₂ (hpast.fading hdelay httl) hclear
    hquick hrun₂
  exact hfading.done i true at_ hdone rfl

/-- A session that has been revoked stays closed. -/
theorem stays_closed (hquiet : desk.Quiet)
    (hrun₁ : Machine.runFrom (liveStep host) (justStarted desk) before = some w₁)
    (hrevoked : w₁.source.state.Revoked sid) :
    Machine.Along (liveStep host) (fun w => Closed w.source.state sid) w₁ after := by
  have horder₁ : AuthInOrder host w₁.source := Machine.runFrom_invariant
    (fun _ _ _ h hs => inOrder_step h hs) before (justStarted desk) w₁ hquiet.kept hrun₁
  have hstays : Machine.Along (liveStep host)
      (fun w => AuthInOrder host w.source ∧ w.source.state.Revoked sid) w₁ after :=
    Machine.along_of_guarded
      (fun _ _ _ h _ hs => ⟨inOrder_step h.1 hs, revoked_step h.1 h.2 hs⟩) after w₁
      ⟨horder₁, hrevoked⟩
      (Machine.guardedRun_of_forall (fun _ _ => True.intro) after w₁)
  exact Machine.Along.mono (fun _ h => closed_of_revoked h.2) after w₁ hstays

/-- **While an account is blocked or a session is over, it is refused**, but for the ten
seconds and the time that asking the database takes. -/
theorem closed_refused (host : AuthHost) (desk : AuthDesk) (delay : ℤ) (hdelay : 0 ≤ delay)
    (before after : List (Cache.Act AccountAct SessionId)) (w₁ w₂ : LiveState)
    (hrun₁ : Machine.runFrom (liveStep host) (justStarted desk) before = some w₁)
    (hrun₂ : Machine.runFrom (liveStep host) w₁ after = some w₂)
    (hquick : Machine.GuardedRun (liveStep host) (isLive.Quick delay) w₁ after) (sid : SessionId)
    (hclosed : Machine.Along (liveStep host) (fun w => Closed w.source.state sid) w₁ after)
    (i : ℕ) (at_ : Instant) (hdone : w₂.calls[i]? = some (.done sid true at_)) :
    at_ < w₁.source.state.now + delay + liveTtl :=
  let_through hdelay hrun₁ hrun₂ hquick hclosed hdone

/-- **A session that has been revoked is refused from then on**, but for the ten seconds and
the time that asking the database takes, whatever the account services do. -/
theorem revoked_refused (host : AuthHost) (desk : AuthDesk) (hquiet : desk.Quiet) (delay : ℤ)
    (hdelay : 0 ≤ delay) (before after : List (Cache.Act AccountAct SessionId))
    (w₁ w₂ : LiveState)
    (hrun₁ : Machine.runFrom (liveStep host) (justStarted desk) before = some w₁)
    (hrun₂ : Machine.runFrom (liveStep host) w₁ after = some w₂)
    (hquick : Machine.GuardedRun (liveStep host) (isLive.Quick delay) w₁ after) (sid : SessionId)
    (hrevoked : w₁.source.state.Revoked sid)
    (i : ℕ) (at_ : Instant) (hdone : w₂.calls[i]? = some (.done sid true at_)) :
    at_ < w₁.source.state.now + delay + liveTtl := by
  exact let_through hdelay hrun₁ hrun₂ hquick (stays_closed hquiet hrun₁ hrevoked) hdone

section logout

/-- An owner who is signed in. -/
def ownerSignedIn : AuthDesk :=
  .ofLists [{ email := some "a@shop", role := .owner }]
    [{ userId := 0, refreshTokenHash := "sha256:token", expiresAt := 1000000, family := 0 }] []

/-- A request has asked for its session when the owner signs out everywhere. -/
def askedBefore : List (Cache.Act AccountAct SessionId) :=
  [.call 0, .load 0,
   .source (.service (.start (.logoutEverywhere { id := 0, role := .owner, sessionId := 0 }))),
   .source (.service (.run 0 {}))]

/-- It goes on, another one is let through after nine seconds, and one after that is not. -/
def lateRequests : List (Cache.Act AccountAct SessionId) :=
  [.source (.wait 50), .answer 0, .source (.wait 9000), .call 0, .source (.wait 2000), .call 0,
   .load 2, .answer 2]

theorem ownerSignedIn_quiet : ownerSignedIn.Quiet :=
  AuthDesk.ofLists_quiet fun k s hs => by
    cases k with
    | zero =>
        obtain rfl := Option.some.inj hs
        exact ⟨rfl, rfl, rfl⟩
    | succ k => cases hs

theorem logout_runs : ∃ w₁ w₂, Machine.runFrom (liveStep plainHost) (justStarted ownerSignedIn)
    askedBefore = some w₁ ∧ Machine.runFrom (liveStep plainHost) w₁ lateRequests = some w₂ ∧
    Machine.GuardedRun (liveStep plainHost) (isLive.Quick 100) w₁ lateRequests ∧
    w₁.source.state.Revoked 0 ∧ w₂.calls[1]? = some (.done 0 true 9050) ∧
    w₂.calls[2]? = some (.done 0 false 11050) := by
  have hruns : (Machine.runFrom (liveStep plainHost) (justStarted ownerSignedIn) askedBefore).any
      (fun w₁ => (w₁.source.state.sessions.committed 0).any (·.revokedAt.isSome) &&
        (Machine.GuardedRun (liveStep plainHost) (isLive.Quick 100) w₁ lateRequests &&
        (Machine.runFrom (liveStep plainHost) w₁ lateRequests).any fun w₂ =>
          w₂.calls[1]? = some (.done 0 true 9050) && w₂.calls[2]? = some (.done 0 false 11050))) =
      true := by decide +kernel
  obtain ⟨w₁, hrun₁, hend⟩ := (Option.any_eq_true _ _).mp hruns
  obtain ⟨hrevoked, hend⟩ := Bool.and_eq_true_iff.mp hend
  obtain ⟨hquick, hend⟩ := Bool.and_eq_true_iff.mp hend
  obtain ⟨w₂, hrun₂, hend⟩ := (Option.any_eq_true _ _).mp hend
  obtain ⟨hlet, hrefused⟩ := Bool.and_eq_true_iff.mp hend
  obtain ⟨session, hrow, hsome⟩ := (Option.any_eq_true _ _).mp hrevoked
  exact ⟨w₁, w₂, hrun₁, hrun₂, of_decide_eq_true hquick,
    ⟨session, hrow, Option.isSome_iff_ne_none.mp hsome⟩, of_decide_eq_true hlet,
    of_decide_eq_true hrefused⟩

theorem revoked_refused_logout : ∃ w₁ w₂ : LiveState,
    Machine.runFrom (liveStep plainHost) (justStarted ownerSignedIn) askedBefore = some w₁ ∧
    Machine.runFrom (liveStep plainHost) w₁ lateRequests = some w₂ ∧
    w₂.calls[1]? = some (.done 0 true 9050) ∧ w₂.calls[2]? = some (.done 0 false 11050) ∧
    9050 < w₁.source.state.now + 100 + liveTtl := by
  obtain ⟨w₁, w₂, hrun₁, hrun₂, hquick, hrevoked, hlet, hnot⟩ := logout_runs
  exact ⟨w₁, w₂, hrun₁, hrun₂, hlet, hnot, revoked_refused plainHost ownerSignedIn
    ownerSignedIn_quiet 100 (by decide) askedBefore lateRequests w₁ w₂ hrun₁ hrun₂ hquick 0
    hrevoked 1 9050 hlet⟩

theorem closed_refused_logout : ∃ w₁ w₂ : LiveState,
    Machine.runFrom (liveStep plainHost) (justStarted ownerSignedIn) askedBefore = some w₁ ∧
    Machine.runFrom (liveStep plainHost) w₁ lateRequests = some w₂ ∧
    w₂.calls[1]? = some (.done 0 true 9050) ∧ 9050 < w₁.source.state.now + 100 + liveTtl := by
  obtain ⟨w₁, w₂, hrun₁, hrun₂, hquick, hrevoked, hlet, -⟩ := logout_runs
  exact ⟨w₁, w₂, hrun₁, hrun₂, hlet, closed_refused plainHost ownerSignedIn 100 (by decide)
    askedBefore lateRequests w₁ w₂ hrun₁ hrun₂ hquick 0
    (stays_closed ownerSignedIn_quiet hrun₁ hrevoked) 1 9050 hlet⟩

end logout

end live

end BookHouse
