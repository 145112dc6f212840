/-
What becomes of a refresh token.

A refresh looks whether its session is revoked, revokes it, and creates the next one, each in
a statement of its own.  What has to hold is that the session is still not revoked when it is
rotated, and that its chain has not been given up when the next one is created
(`exchangeable`).
-/
import BookHouse.Proofs.Sessions

namespace BookHouse

open AuthDesk

namespace AuthDesk

variable {host : AuthHost} {s t : AuthDesk} {i j : TxId}

/-- A token of this chain came back after its session had been revoked. -/
def givenUp (s : AuthDesk) (family : SessionId) : Bool :=
  s.log.any fun
    | .revoked _ (.reuse stolen) _ => (s.sessions.committed stolen).any (·.family = family)
    | _ => false

/-- A session is rotated only while it is not revoked, and replaced only while nobody has
given its chain up. -/
def exchangeable (_ : TxId) (o : AuthOp) (_ : AuthInput) (s : AuthDesk) : Prop :=
  match o with
  | .rotate id => (s.sessions.committed id).all (·.revokedAt.isNone) = true
  | .createSession _ (some parent) _ =>
      (s.sessions.committed parent).all (fun r => !s.givenUp r.family) = true
  | _ => True

instance (i : TxId) (o : AuthOp) (x : AuthInput) (s : AuthDesk) :
    Decidable (exchangeable i o x s) := by
  unfold exchangeable
  split
  · exact inferInstance
  · exact inferInstance
  · exact inferInstance

/-- Every token is exchanged for one session at most. -/
def ExchangedOnce (s : AuthDesk) : Prop :=
  ∀ k k' r r' p, s.sessions.committed k = some r → s.sessions.committed k' = some r' →
    r.parent = some p → r'.parent = some p → k = k'

/-- Once a token has come back, no session of its chain is left. -/
def ChainsEnd (s : AuthDesk) : Prop :=
  ∀ user stolen except r, .revoked user (.reuse stolen) except ∈ s.log →
    s.sessions.committed stolen = some r → ∀ k session, s.sessions.committed k = some session →
      session.userId = user → session.family = r.family → session.revokedAt ≠ none

/-- Every session that was replaced is revoked, and so is one that is about to be, which has
not been replaced yet. -/
structure Rotated (s : AuthDesk) : Prop where
  once : s.ExchangedOnce
  chains : s.ChainsEnd
  parent : ∀ k r p, s.sessions.committed k = some r → r.parent = some p →
    ∃ q, s.sessions.committed p = some q ∧ q.revokedAt ≠ none
  turn : ∀ i p, s.exchanging i = some p →
    (∃ q, s.sessions.committed p = some q ∧ q.revokedAt ≠ none) ∧
      (∀ k r, s.sessions.committed k = some r → r.parent ≠ some p) ∧
      ∀ j, s.exchanging j = some p → j = i
  family : ∀ k r, s.sessions.committed k = some r → r.family ≤ k
  stolen : ∀ user id except, .revoked user (.reuse id) except ∈ s.log → id < s.sessions.next
  work : ∀ i user id except, (i, .revoked user (.reuse id) except) ∉ s.work

/-- Sessions that only age. -/
theorem Rotated.ages (h : s.Rotated) (hages : Ages s t) (hnext : s.sessions.next ≤ t.sessions.next)
    (hexchanging : ∀ j p, t.exchanging j = some p → s.exchanging j = some p)
    (hlog : ∀ user id except, .revoked user (.reuse id) except ∈ t.log →
      .revoked user (.reuse id) except ∈ s.log ∨ (id < s.sessions.next ∧
        ∀ k session, t.sessions.committed k = some session → session.userId = user →
          session.revokedAt ≠ none))
    (hwork : ∀ i user id except, (i, .revoked user (.reuse id) except) ∉ t.work) : t.Rotated where
  once k k' r r' p hk hk' hr hr' := by
    obtain ⟨q, hq, hage⟩ := hages.back k r hk
    obtain ⟨q', hq', hage'⟩ := hages.back k' r' hk'
    exact h.once k k' q q' p hq hq' (hage.parent ▸ hr) (hage'.parent ▸ hr')
  chains user stolen except r hmem hr k session hk huser hfamily := by
    rcases hlog user stolen except hmem with hold | ⟨-, hgone⟩
    · obtain ⟨q, hq, hage⟩ := hages.back stolen r hr
      obtain ⟨old, hold', hage'⟩ := hages.back k session hk
      refine hage'.revoked (h.chains user stolen except q hold hq k old hold' ?_ ?_)
      · rw [← hage'.userId, huser]
      · rw [← hage'.family, hfamily, hage.family]
    · exact hgone k session hk huser
  parent k r p hk hr := by
    obtain ⟨q, hq, hage⟩ := hages.back k r hk
    obtain ⟨o, ho, hrevoked⟩ := h.parent k q p hq (hage.parent ▸ hr)
    obtain ⟨o', ho', hage'⟩ := hages.forth p o ho
    exact ⟨o', ho', hage'.revoked hrevoked⟩
  turn i p hp := by
    obtain ⟨⟨q, hq, hrevoked⟩, hnone, hsingle⟩ := h.turn i p (hexchanging i p hp)
    obtain ⟨q', hq', hage⟩ := hages.forth p q hq
    refine ⟨⟨q', hq', hage.revoked hrevoked⟩, fun k r hk => ?_, fun j hj => ?_⟩
    · obtain ⟨o, ho, hage'⟩ := hages.back k r hk
      rw [hage'.parent]
      exact hnone k o ho
    · exact hsingle j (hexchanging j p hj)
  family k r hk := by
    obtain ⟨q, hq, hage⟩ := hages.back k r hk
    rw [hage.family]
    exact h.family k q hq
  stolen user id except hmem := by
    rcases hlog user id except hmem with hold | ⟨hid, -⟩
    · exact lt_of_lt_of_le (h.stolen user id except hold) hnext
    · exact lt_of_lt_of_le hid hnext
  work := hwork

/-- A revoked session that nobody has replaced or is about to replace. -/
theorem Rotated.exchange (h : s.Rotated) {id : SessionId} {q : AuthSession}
    (hq : s.sessions.committed id = some q) (hrevoked : q.revokedAt ≠ none)
    (hnone : ∀ k r, s.sessions.committed k = some r → r.parent ≠ some id)
    (hfree : ∀ j, s.exchanging j ≠ some id) :
    Rotated { s with exchanging := Function.update s.exchanging i (some id) } := by
  refine ⟨h.once, h.chains, h.parent, fun j p hp => ?_, h.family, h.stolen, h.work⟩
  have hnow : Function.update s.exchanging i (some id) j = some p := hp
  by_cases hj : j = i
  · subst hj
    rw [Function.update_self] at hnow
    obtain rfl := Option.some.inj hnow
    refine ⟨⟨q, hq, hrevoked⟩, hnone, fun k hk => ?_⟩
    by_contra hne
    have hother : Function.update s.exchanging j (some id) k = some id := hk
    rw [Function.update_of_ne hne] at hother
    exact hfree k hother
  · rw [Function.update_of_ne hj] at hnow
    obtain ⟨hspent, hchild, hsingle⟩ := h.turn j p hnow
    refine ⟨hspent, hchild, fun k hk => ?_⟩
    have hother : Function.update s.exchanging i (some id) k = some p := hk
    by_cases hk' : k = i
    · subst hk'
      rw [Function.update_self] at hother
      obtain rfl := Option.some.inj hother
      exact absurd hnow (hfree j)
    · rw [Function.update_of_ne hk'] at hother
      exact hsingle k hother

/-- A session that is not revoked has not been replaced, and nobody is about to. -/
theorem Rotated.unspent (h : s.Rotated) {id : SessionId} {q : AuthSession}
    (hq : s.sessions.committed id = some q) (hlive : q.revokedAt = none) :
    (∀ k r, s.sessions.committed k = some r → r.parent ≠ some id) ∧
      ∀ j, s.exchanging j ≠ some id := by
  constructor
  · intro k r hk hr
    obtain ⟨q', hq', hrevoked⟩ := h.parent k r id hk hr
    obtain rfl := Option.some.inj (hq.symm.trans hq')
    exact hrevoked hlive
  · intro j hj
    obtain ⟨⟨q', hq', hrevoked⟩, -⟩ := h.turn j id hj
    obtain rfl := Option.some.inj (hq.symm.trans hq')
    exact hrevoked hlive

theorem Rotated.drop (h : s.Rotated) :
    Rotated { s with exchanging := Function.update s.exchanging i none } := by
  refine h.ages (.of_committed fun _ => rfl) (le_refl _) (fun j p hp => ?_)
    (fun _ _ _ hmem => .inl hmem) h.work
  have hnow : Function.update s.exchanging i none j = some p := hp
  by_cases hj : j = i
  · subst hj
    rw [Function.update_self] at hnow
    cases hnow
  · rw [Function.update_of_ne hj] at hnow
    exact hnow

theorem not_givenUp {family : SessionId} (h : s.givenUp family = false) {user : UserId}
    {stolen : SessionId} {except : Option SessionId} {r : AuthSession}
    (hmem : .revoked user (.reuse stolen) except ∈ s.log)
    (hr : s.sessions.committed stolen = some r) : r.family ≠ family := by
  have hnot := List.any_eq_false.mp h _ hmem
  simpa [hr] using hnot

/-- The session that replaces the one that `i` has rotated, or the first one of a chain. -/
theorem Rotated.insert (h : s.Rotated) {session : AuthSession}
    (hparent : session.parent = s.exchanging i)
    (hfamily : session.family =
      ((session.parent.bind s.sessions.committed).map (·.family)).getD s.sessions.next)
    (hkept : ∀ p q, session.parent = some p → s.sessions.committed p = some q →
      s.givenUp q.family = false) :
    Rotated { s with exchanging := Function.update s.exchanging i none,
                     sessions := s.sessions.insertNow session } := by
  have hrow : ∀ k r, (s.sessions.insertNow session).committed k = some r →
      (k = s.sessions.next ∧ r = session) ∨ s.sessions.committed k = some r := by
    intro k r hk
    rw [Table.committed_insertNow] at hk
    split at hk
    · rename_i hnew
      exact .inl ⟨hnew, (Option.some.inj hk).symm⟩
    · exact .inr hk
  have hold : ∀ k r, s.sessions.committed k = some r →
      (s.sessions.insertNow session).committed k = some r := by
    intro k r hk
    rw [Table.committed_insertNow, if_neg (ne_of_lt (Table.lt_next hk)), hk]
  have hchain : session.family = s.sessions.next ∨
      ∃ p q, session.parent = some p ∧ s.sessions.committed p = some q ∧
        session.family = q.family := by
    cases hp : session.parent with
    | none => exact .inl (by rw [hfamily, hp]; rfl)
    | some p =>
        cases hq : s.sessions.committed p with
        | none => exact .inl (by rw [hfamily, hp, Option.bind_some, hq]; rfl)
        | some q => exact .inr ⟨p, q, rfl, hq, by rw [hfamily, hp, Option.bind_some, hq]; rfl⟩
  -- the one that is replaced has not been replaced before
  have hfirst : ∀ k r p, s.sessions.committed k = some r → r.parent = some p →
      session.parent ≠ some p := by
    intro k r p hk hr hp
    exact (h.turn i p (hparent ▸ hp)).2.1 k r hk hr
  refine ⟨fun k k' r r' p hk hk' hr hr' => ?_, fun user stolen except r hmem hr k r' hk huser
      hsame => ?_, fun k r p hk hr => ?_, fun j p hp => ?_, fun k r hk => ?_,
    fun user id except hmem => ?_, h.work⟩
  · rcases hrow k r hk with ⟨rfl, rfl⟩ | hbefore
    · rcases hrow k' r' hk' with ⟨rfl, -⟩ | hbefore'
      · rfl
      · exact absurd hr (hfirst k' r' p hbefore' hr')
    · rcases hrow k' r' hk' with ⟨rfl, rfl⟩ | hbefore'
      · exact absurd hr' (hfirst k r p hbefore hr)
      · exact h.once k k' r r' p hbefore hbefore' hr hr'
  · have hstolen : s.sessions.committed stolen = some r := by
      rcases hrow stolen r hr with ⟨rfl, -⟩ | hr
      · exact absurd (h.stolen user _ except hmem) (lt_irrefl _)
      · exact hr
    rcases hrow k r' hk with ⟨rfl, rfl⟩ | hk
    · exfalso
      rcases hchain with hnew | ⟨p, q, hp, hq, hfam⟩
      · have hle := h.family stolen r hstolen
        rw [← hsame, hnew] at hle
        exact absurd (h.stolen user stolen except hmem) (not_lt.mpr hle)
      · exact not_givenUp (hkept p q hp hq) hmem hstolen (hsame.symm.trans hfam)
    · exact h.chains user stolen except r hmem hstolen k r' hk huser hsame
  · rcases hrow k r hk with ⟨rfl, rfl⟩ | hk
    · obtain ⟨⟨q, hq, hrevoked⟩, -⟩ := h.turn i p (hparent ▸ hr)
      exact ⟨q, hold p q hq, hrevoked⟩
    · obtain ⟨q, hq, hrevoked⟩ := h.parent k r p hk hr
      exact ⟨q, hold p q hq, hrevoked⟩
  · have hnow : Function.update s.exchanging i none j = some p := hp
    have hj : j ≠ i := by
      rintro rfl
      rw [Function.update_self] at hnow
      cases hnow
    rw [Function.update_of_ne hj] at hnow
    obtain ⟨⟨q, hq, hrevoked⟩, hnone, hsingle⟩ := h.turn j p hnow
    refine ⟨⟨q, hold p q hq, hrevoked⟩, fun k r hk hr => ?_, fun k hk => ?_⟩
    · rcases hrow k r hk with ⟨-, rfl⟩ | hk
      · exact hj (hsingle i (hparent ▸ hr)).symm
      · exact hnone k r hk hr
    · have hother : Function.update s.exchanging i none k = some p := hk
      by_cases hki : k = i
      · subst hki
        rw [Function.update_self] at hother
        cases hother
      · rw [Function.update_of_ne hki] at hother
        exact hsingle k hother
  · rcases hrow k r hk with ⟨rfl, rfl⟩ | hk
    · rcases hchain with hnew | ⟨p, q, -, hq, hfam⟩
      · exact hnew.le
      · rw [hfam]
        exact (h.family p q hq).trans (Table.lt_next hq).le
    · exact h.family k r hk
  · exact Nat.lt_succ_of_lt (h.stolen user id except hmem)

/-! ### What every statement keeps -/

theorem Rotated.perform (h : s.Rotated) {o : AuthOp} {a : o.Res} {x : String}
    (ho : o.ends = false) (hpre : o.pre i s) (hok : exchangeable i o {} s)
    (hp : o.perform host i x s = some (a, t)) : t.Rotated := by
  have hdid := o.perform_did ho hp
  by_cases hsession : o.onSessions = false
  · obtain ⟨hsame, hexchanging⟩ := hdid.sessions hsession
    refine h.ages (.of_committed fun k => by rw [hsame]) hdid.next
      (fun j p hj => by rw [← hexchanging]; exact hj) (fun user id except hmem => .inl ?_)
      fun j user id except hmem => ?_
    · rcases hdid.log with hlog | hlog
      · rw [← hlog]
        exact hmem
      · rw [hlog] at hmem
        refine (List.mem_append.mp hmem).resolve_left fun hnew => ?_
        cases AuthOp.notes_quiet hsession hnew
    · rcases hdid.work with hwork | hwork
      · rw [hwork] at hmem
        exact h.work j user id except hmem
      · rw [hwork] at hmem
        refine h.work j user id except ((List.mem_append.mp hmem).resolve_left fun hnew => ?_)
        obtain ⟨e, he, heq⟩ := List.mem_map.mp hnew
        obtain rfl := (Prod.mk.inj heq).2
        cases AuthOp.keeps_quiet hsession he
  cases o with
  | rotate id =>
      rcases rotate_some hp with ⟨-, -, rfl⟩ | ⟨q, sessions, hq, -, hwrite, rfl⟩
      · exact h
      have hlive : q.revokedAt = none := by simpa [exchangeable, hq] using hok
      obtain ⟨hnone, hfree⟩ := h.unspent hq hlive
      have hages : Ages s { s with sessions } := .updateNow hwrite ages_rotate rfl
      have hkept : Rotated { s with sessions } :=
        h.ages hages (Table.next_updateNow hwrite).ge (fun _ _ hj => hj)
          (fun _ _ _ hmem => .inl hmem) h.work
      refine hkept.exchange (q := AuthSession.rotate s.now q) ?_ (by simp [AuthSession.rotate])
        (fun k r hk => ?_) hfree
      · show sessions.committed id = _
        rw [Table.committed_updateNow hwrite, hq, Option.map_some, onRow, if_pos rfl,
          Option.getD_some]
      · obtain ⟨r', hr', hage⟩ := hages.back k r hk
        rw [hage.parent]
        exact hnone k r' hr'
  | revoke pick =>
      obtain ⟨sessions, hwrite, rfl⟩ := revoke_some hp
      exact h.ages (.updateNow hwrite ages_pick rfl) hdid.next (fun _ _ hj => hj)
        (fun _ _ _ hmem => .inl hmem) h.work
  | revokeUser user why =>
      obtain ⟨sessions, hwrite, rfl⟩ := revokeUser_some hp
      refine h.ages (.updateNow hwrite ages_pick rfl) hdid.next (fun _ _ hj => hj) ?_ h.work
      intro u id except hmem
      rcases List.mem_cons.mp hmem with heq | hold
      · cases heq
        refine .inr ⟨hpre, fun k session hk huser hlive => ?_⟩
        have hpick := not_live_of_pick hwrite hk hlive
        simp [SessionPick.matches, huser] at hpick
      · exact .inl hold
  | createSession user parent hash =>
      rcases createSession_eq (Option.some.inj hp) with
        ⟨-, rfl⟩ | ⟨session, -, rfl, rfl, -, hfamily, -, rfl⟩
      · exact h.drop
      · refine h.insert hpre.symm hfamily fun p q hparent hq => ?_
        rw [hparent] at hok
        simpa [exchangeable, hq] using hok
  | revokeUserTx user why except =>
      obtain ⟨sessions, hwrite, rfl⟩ := revokeUserTx_some hp
      refine h.ages (.of_committed fun k => Table.committed_update hwrite) hdid.next
        (fun _ _ hj => hj) (fun _ _ _ hmem => .inl hmem) fun j u id except' hmem => ?_
      rcases List.mem_cons.mp hmem with heq | hold
      · cases heq
        cases hpre
      · exact h.work j u id except' hold
  | commit => cases ho
  | rollback => cases ho
  | _ => exact absurd rfl hsession

theorem Rotated.commit (h : s.Rotated) (hsound : s.Sound) : (s.commit i).Rotated := by
  refine h.ages (.commit hsound) (le_refl _) (fun _ _ hj => hj) (fun user id except hmem => ?_)
    fun j user id except hmem => h.work j user id except (List.mem_filter.mp hmem).1
  have hlog : .revoked user (.reuse id) except ∈
      (s.lost i).map AuthEvent.ownerLost ++ (s.workOf i ++ s.log) := hmem
  rcases List.mem_append.mp hlog with hlost | hrest
  · obtain ⟨k, -, heq⟩ := List.mem_map.mp hlost
    cases heq
  rcases List.mem_append.mp hrest with hwork | hold
  · obtain ⟨⟨j, e⟩, hin, rfl⟩ := List.mem_map.mp hwork
    exact absurd (List.mem_filter.mp hin).1 (h.work j user id except)
  · exact .inl hold

theorem Rotated.rollback (h : s.Rotated) : (s.rollback i).Rotated :=
  h.ages (.of_committed fun _ => rfl) (le_refl _) (fun _ _ hj => hj)
    (fun _ _ _ hmem => .inl hmem)
    fun j user id except hmem => h.work j user id except (List.mem_filter.mp hmem).1

/-- Whatever is executed, if sessions are exchanged while they may be. -/
theorem Rotated.exec (h : s.Rotated) (hsound : s.Sound) {o : AuthOp} {input : AuthInput}
    {r : Except AuthFault o.Res} (hpre : o.pre i s) (hok : exchangeable i o input s)
    (hexec : o.exec host i input s = some (r, t)) : t.Rotated := by
  have htick : (s.tick input.elapsed).Rotated :=
    h.ages (.of_committed fun _ => rfl) (le_refl _) (fun _ _ hj => hj)
      (fun _ _ _ hmem => .inl hmem) h.work
  refine AuthOp.exec_keeps hexec htick (fun _ hu => hu.rollback) (fun _ hu => hu.drop) ?_
  intro a hp
  cases ho : o.ends with
  | false => exact htick.perform ho (AuthOp.pre_stable AuthOp.tick_rely hpre) hok hp
  | true =>
      rcases AuthOp.ending ho hp with rfl | rfl
      · exact htick.commit (hsound.tick _)
      · exact htick.rollback

end AuthDesk

/-- Somebody who has signed in. -/
def signedIn : AuthDesk :=
  .ofLists [{ email := some "b@shop", role := .manager }]
    [{ userId := 0, refreshTokenHash := "sha256:first", expiresAt := 1000, family := 0 }] []

theorem signedIn_quiet : signedIn.Quiet := by
  refine ofLists_quiet fun k session hk => ?_
  obtain ⟨hlt, hget⟩ := List.getElem?_eq_some_iff.mp hk
  simp only [List.length_singleton, Nat.lt_one_iff] at hlt
  subst hlt
  subst hget
  exact ⟨rfl, rfl, rfl⟩

/-- The first refresh has rotated the token when the second one finds that it came back; the
new session comes after. -/
def exchangeAcrossReuse : List AuthAct :=
  [.start (.refresh (some "first")), .run 0 {}, .run 0 {}, .run 0 {},
   .start (.refresh (some "first")), .run 1 {}, .run 1 {},
   .run 0 { random := "second" }, .run 0 {}]

/-- **A chain that was given up goes on.** -/
theorem chain_outlives_reuse : ¬ ∀ (host : AuthHost) (s : AuthDesk) (as : List AuthAct)
    (w : AuthWorld), s.Quiet → Machine.runFrom (authStep host) { state := s } as = some w →
      (∀ p ∈ w.threads, p.ended = true) → w.state.ChainsEnd := by
  intro hall
  have hruns : (Machine.runFrom (authStep plainHost) { state := signedIn }
      exchangeAcrossReuse).any (fun w => w.threads.all (·.ended) &&
        (decide (.revoked 0 (.reuse 0) none ∈ w.state.log) &&
          ((w.state.sessions.committed 0).any (·.family = 0) &&
            (w.state.sessions.committed 1).any fun r =>
              r.userId = 0 && (r.family = 0 && r.revokedAt = none)))) = true := by
    decide +kernel
  obtain ⟨w, hw, hend⟩ := (Option.any_eq_true _ _).mp hruns
  simp only [Bool.and_eq_true] at hend
  obtain ⟨hended, hreuse, hstolen, hlater⟩ := hend
  obtain ⟨r, hr, hfamily⟩ := (Option.any_eq_true _ _).mp hstolen
  obtain ⟨r', hr', hlive⟩ := (Option.any_eq_true _ _).mp hlater
  simp only [Bool.and_eq_true, decide_eq_true_eq] at hfamily hlive
  refine hall plainHost signedIn exchangeAcrossReuse w signedIn_quiet hw
    (List.all_eq_true.mp hended) 0 0 none r (of_decide_eq_true hreuse) hr 1 r' hr' hlive.1 ?_
    hlive.2.2
  rw [hlive.2.1, hfamily]

end BookHouse
