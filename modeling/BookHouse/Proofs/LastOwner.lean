/-
The shop always has an owner who can sign in, and when.

A call that takes an owner out has counted the others, or has read the account as one that
was no owner, before its transaction.  Neither is looked at again, so what has to hold at
its commit is that no other owner was lost in between (`sparing`).
-/
import BookHouse.Proofs.AuthCalls

namespace BookHouse

open AuthDesk

def AuthEvent.isOwnerLost : AuthEvent → Bool
  | ownerLost _ => true
  | _ => false

namespace AuthDesk

variable {host : AuthHost} {s t : AuthDesk} {i j : TxId}

/-- No owner has been lost since `i` read its account. -/
def noneLost (s : AuthDesk) (i : TxId) : Bool :=
  (s.readings i).all fun r => (s.log.take (s.log.length - r.mark)).all (!·.isOwnerLost)

/-- A transaction that takes an owner out commits only while no other owner has been lost
since its call read the account. -/
def sparing (i : TxId) (o : AuthOp) (_ : AuthInput) (s : AuthDesk) : Prop :=
  match o with
  | .commit => (s.lost i).isEmpty = true ∨ s.noneLost i = true
  | _ => True

instance (i : TxId) (o : AuthOp) (x : AuthInput) (s : AuthDesk) : Decidable (sparing i o x s) := by
  unfold sparing
  split
  · exact inferInstance
  · exact inferInstance

theorem spared_of_noneLost {r : AccountReading} (h : s.noneLost i = true)
    (hr : s.readings i = some r) : Spared r.mark s.log := by
  intro id hid
  rw [noneLost, hr, Option.all_some, List.all_eq_true] at h
  simpa [AuthEvent.isOwnerLost] using h _ hid

/-- There is an owner, every call has seen one, who is still there if none was lost, and a
transaction that is about to take one out has checked. -/
structure Owned (s : AuthDesk) : Prop where
  owner : ∃ id, s.Owner id
  seen : ∀ i r, s.readings i = some r → ∃ id, r.owners id = true
  kept : ∀ i r, s.readings i = some r → Spared r.mark s.log → ∀ id, r.owners id = true → s.Owner id
  pending : ∀ i id row, s.users.own i id = some row → (s.Owner id → row.any (·.activeOwner) = true) ∨
    (Checked i id s ∧ ∀ w, w ≠ id → s.users.own i w = none)

theorem Owned.tick (h : s.Owned) (ms : ℕ) : (s.tick ms).Owned :=
  ⟨h.owner, h.seen, h.kept, h.pending⟩

theorem Owned.drop (h : s.Owned) :
    Owned { s with exchanging := Function.update s.exchanging i none } :=
  ⟨h.owner, h.seen, h.kept, h.pending⟩

theorem Owned.rollback (h : s.Owned) : (s.rollback i).Owned := by
  refine ⟨h.owner, h.seen, h.kept, fun j id row hown => ?_⟩
  have hj : j ≠ i := by
    rintro rfl
    have hnone : (s.rollback j).users.own j id = none := Table.own_rollback_self
    rw [hnone] at hown
    cases hown
  have hsame : ∀ w, (s.rollback i).users.own j w = s.users.own j w :=
    fun w => Table.own_rollback_other hj
  rw [hsame] at hown
  rcases h.pending j id row hown with hharmless | ⟨hchecked, honly⟩
  · exact .inl hharmless
  · exact .inr ⟨hchecked, fun w hw => (hsame w).trans (honly w hw)⟩

/-- A row that somebody has written is the same for the others. -/
theorem owner_of_own {row : Option User} {id : UserId} (hown : s.users.own j id = some row)
    (hj : j ≠ i) (h : (s.commit i).Owner id) : s.Owner id := by
  have hself : s.users.own i id = none := by
    cases hi : s.users.own i id with
    | none => rfl
    | some row' => exact absurd (Table.own_inj hown hi) hj
  have hseen : (s.users.seen i id).any (·.activeOwner) = true := h
  rw [Table.seen_of_own_none hself] at hseen
  exact hseen

/-- There is an owner after a commit that spares the others. -/
theorem Owned.owner_commit (h : s.Owned) (hok : (s.lost i).isEmpty = true ∨ s.noneLost i = true) :
    ∃ id, (s.commit i).Owner id := by
  cases hlost : s.lost i with
  | nil =>
      obtain ⟨id, hid⟩ := h.owner
      exact ⟨id, AuthOp.owner_commit hid (by simp [hlost])⟩
  | cons id rest =>
      have hnone : s.noneLost i = true := by simpa [hlost] using hok
      obtain ⟨⟨k, u⟩, hmem, rfl⟩ := List.mem_map.mp (hlost ▸ List.mem_cons_self : id ∈ s.lost i)
      obtain ⟨hlist, hgone⟩ := List.mem_filter.mp hmem
      have hcommitted : s.users.committed k = some u := Table.mem_list.mp hlist
      simp only [Bool.and_eq_true, Bool.not_eq_true'] at hgone
      have howner : s.Owner k := by
        rw [Owner, hcommitted]
        exact hgone.1
      -- the row it commits is its own, so it has checked
      cases hown : s.users.own i k with
      | none =>
          rw [Table.seen_of_own_none hown, hcommitted] at hgone
          simp [hgone.1] at hgone
      | some row =>
          rw [Table.seen_of_own hown] at hgone
          rcases h.pending i k row hown with hharmless | ⟨⟨r, hread, -, hother⟩, honly⟩
          · rw [hharmless howner] at hgone
            simp at hgone
          have hspared := spared_of_noneLost hnone hread
          obtain ⟨w, hw, hwo⟩ : ∃ w, w ≠ k ∧ s.Owner w := by
            rcases hother with hnot | hother
            · obtain ⟨w, hw⟩ := h.seen i r hread
              refine ⟨w, ?_, h.kept i r hread hspared w hw⟩
              rintro rfl
              rw [hnot] at hw
              cases hw
            · exact hother hspared
          refine ⟨w, ?_⟩
          show (s.users.seen i w).any _ = true
          rw [Table.seen_of_own_none (honly w hw)]
          exact hwo

theorem Owned.commit (h : s.Owned) (hsound : s.Sound)
    (hok : (s.lost i).isEmpty = true ∨ s.noneLost i = true) : (s.commit i).Owned := by
  refine ⟨h.owner_commit hok, h.seen, fun j r hread hspared id hid => ?_, fun j id row hown => ?_⟩
  · obtain ⟨new, hlog, howner⟩ := AuthOp.commit_log (s := s) (i := i)
    rw [hlog] at hspared
    obtain ⟨hnew, hold⟩ := hspared.of_append (hsound.marks j r hread)
    exact howner hnew id (h.kept j r hread hold id hid)
  · have hj : j ≠ i := by
      rintro rfl
      have hnone : (s.commit j).users.own j id = none := Table.own_commit_self
      rw [hnone] at hown
      cases hown
    have hsame : ∀ w, (s.commit i).users.own j w = s.users.own j w :=
      fun w => Table.own_commit_other hj
    rw [hsame] at hown
    rcases h.pending j id row hown with hharmless | ⟨hchecked, honly⟩
    · exact .inl fun hid => hharmless (owner_of_own hown hj hid)
    · exact .inr ⟨hchecked.stable (AuthOp.commit_rely hj), fun w hw => (hsame w).trans (honly w hw)⟩

/-- A statement that changes the reading of its transaction finds that it has written no
account. -/
theorem idle_of_reads {o : AuthOp} (hpre : o.pre i s) (h : o.reads = true) : Idle i s := by
  cases o with
  | findUser contact => exact hpre
  | getUser id => exact hpre
  | findSession hash => exact hpre
  | _ => cases h

/-- What a transaction has checked stays checked. -/
theorem Owned.checked_perform {o : AuthOp} {a : o.Res} {x : String} (ho : o.ends = false)
    (hpre : o.pre i s) (hp : o.perform host i x s = some (a, t)) {id : UserId}
    (hj : o.reads = true → j ≠ i) (h : Checked j id s) : Checked j id t := by
  obtain ⟨new, hlog, -, howner⟩ := AuthOp.perform_log ho hpre hp
  refine h.mono ?_ ⟨new, hlog, fun _ => howner⟩
  rcases (o.perform_did ho hp).reading with hread | ⟨hreads, hread⟩
  · rw [hread]
  · rw [hread]
    exact Function.update_of_ne (hj hreads) _ _

/-- The versions that were there before. -/
theorem Owned.pending_perform (h : s.Owned) {o : AuthOp} {a : o.Res} {x : String}
    (ho : o.ends = false) (hpre : o.pre i s) (hp : o.perform host i x s = some (a, t))
    {id : UserId} {row : Option User} (hown : s.users.own j id = some row)
    (hcommitted : t.users.committed id = s.users.committed id)
    (hsame : ∀ w, s.users.own j w = none → t.users.own j w = none) :
    (t.Owner id → row.any (·.activeOwner) = true) ∨
      (Checked j id t ∧ ∀ w, w ≠ id → t.users.own j w = none) := by
  rcases h.pending j id row hown with hharmless | ⟨hchecked, honly⟩
  · refine .inl fun hid => hharmless ?_
    rw [Owner, ← hcommitted]
    exact hid
  · refine .inr ⟨checked_perform ho hpre hp ?_ hchecked, fun w hw => hsame w (honly w hw)⟩
    rintro hreads rfl
    rw [idle_of_reads hpre hreads id] at hown
    cases hown

/-- The version that a transaction writes first. -/
theorem pending_write {k : UserId} {w : UserWrite} {found : Bool} {x : String}
    (hpre : (AuthOp.updateUserTx k w).pre i s)
    (hp : (AuthOp.updateUserTx k w).perform host i x s = some (found, t)) {id : UserId}
    {row : Option User} (hown : t.users.own i id = some row) :
    (t.Owner id → row.any (·.activeOwner) = true) ∨
      (Checked i id t ∧ ∀ w, w ≠ id → t.users.own i w = none) := by
  have ⟨hidle, hchecked⟩ := hpre
  rcases updateUserTx_some hp with ⟨-, -, rfl⟩ | ⟨u, users, -, -, hwrite, rfl⟩
  · rw [hidle id] at hown
    cases hown
  have hother : ∀ v, v ≠ k → users.own i v = none := by
    intro v hv
    have hnone : (s.users.seen i v).bind (onRow k (w.apply s.now) v) = none := by
      cases s.users.seen i v with
      | none => rfl
      | some r => exact AuthOp.onRow_none hv
    rw [Table.own_update_of_none hwrite hnone, hidle v]
  have hid : id = k := by
    by_contra hne
    have hnone : users.own i id = some row := hown
    rw [hother id hne] at hnone
    cases hnone
  subst hid
  cases hw : w.removes with
  | true =>
      refine .inr ⟨Owned.checked_perform (o := .updateUserTx id w) rfl hpre hp (fun hc => ?_)
        (hchecked hw), hother⟩
      cases hc
  | false =>
      refine .inl fun howner => ?_
      have hcommitted : (users.committed id).any (·.activeOwner) = true := howner
      rw [Table.committed_update hwrite] at hcommitted
      obtain ⟨r, hr, hactive⟩ := (Option.any_eq_true _ _).mp hcommitted
      have hself := Table.own_update_self (k := id) hwrite
      rw [Table.seen_of_own_none (hidle id), hr, Option.bind_some, onRow, if_pos rfl] at hself
      obtain rfl := Option.some.inj (hself.symm.trans hown)
      exact UserWrite.activeOwner_apply hw hactive

theorem Owned.perform (h : s.Owned) (hsound : s.Sound) {o : AuthOp} {a : o.Res} {x : String}
    (ho : o.ends = false) (hpre : o.pre i s) (hp : o.perform host i x s = some (a, t)) :
    t.Owned := by
  have hdid := o.perform_did ho hp
  obtain ⟨new, hlog, hnew, howner⟩ := AuthOp.perform_log ho hpre hp
  have hold : ∀ j r, s.readings j = some r → Spared r.mark t.log → ∀ id, r.owners id = true →
      t.Owner id := by
    intro j r hread hspared id hid
    rw [hlog] at hspared
    exact howner id (h.kept j r hread (hspared.of_append (hsound.marks j r hread)).2 id hid)
  refine ⟨?_, fun j r hr => ?_, fun j r hr => ?_, fun j id row hown => ?_⟩
  · obtain ⟨id, hid⟩ := h.owner
    exact ⟨id, howner id hid⟩
  · rcases hdid.reading with hread | ⟨-, hread⟩
    · rw [hread] at hr
      exact h.seen j r hr
    · rw [hread] at hr
      by_cases hj : j = i
      · subst hj
        simp only [AuthDesk.read, Function.update_self, Option.some.injEq] at hr
        subst hr
        exact h.owner
      · simp only [AuthDesk.read, Function.update_of_ne hj] at hr
        exact h.seen j r hr
  · rcases hdid.reading with hread | ⟨-, hread⟩
    · rw [hread] at hr
      exact hold j r hr
    · rw [hread] at hr
      by_cases hj : j = i
      · subst hj
        simp only [AuthDesk.read, Function.update_self, Option.some.injEq] at hr
        subst hr
        exact fun _ id hid => howner id hid
      · simp only [AuthDesk.read, Function.update_of_ne hj] at hr
        exact hold j r hr
  by_cases hu : o.onUsers = false
  · have husers := hdid.users hu
    rw [husers] at hown
    exact h.pending_perform ho hpre hp hown (by rw [husers]) fun w hw => by rw [husers, hw]
  cases o with
  | updateUser k w =>
      rcases updateUser_some hp with ⟨-, -, rfl⟩ | ⟨u, users, -, -, hwrite, rfl⟩
      · exact h.pending j id row hown
      have hbefore : s.users.own j id = some row := (Table.own_updateNow hwrite).symm.trans hown
      exact h.pending_perform ho hpre hp hbefore
        (Table.committed_updateNow_of_own hwrite hbefore)
        fun w hw => (Table.own_updateNow hwrite).trans hw
  | updateUserTx k w =>
      by_cases hj : j = i
      · subst hj
        exact pending_write hpre hp hown
      rcases updateUserTx_some hp with ⟨-, -, rfl⟩ | ⟨u, users, -, -, hwrite, rfl⟩
      · exact h.pending j id row hown
      have hbefore : s.users.own j id = some row :=
        (Table.own_update_other hwrite hj).symm.trans hown
      exact h.pending_perform ho hpre hp hbefore (Table.committed_update hwrite)
        fun w hw => (Table.own_update_other hwrite hj).trans hw
  | createUserTx u =>
      rcases createUserTx_some hp with ⟨-, rfl⟩ | ⟨-, rfl⟩
      · exact h.pending j id row hown
      by_cases hid : id = s.users.next
      · subst hid
        refine .inl fun howner => ?_
        have hnone : (s.users.committed s.users.next).any (·.activeOwner) = true := howner
        rw [Table.committed_next] at hnone
        cases hnone
      · have hbefore : s.users.own j id = some row :=
          (Table.own_insert_of_ne hid).symm.trans hown
        refine h.pending_perform ho hpre hp hbefore rfl fun w hw => ?_
        by_cases hj : j = i
        · subst hj
          rw [(show Idle j s from hpre) id] at hbefore
          cases hbefore
        · exact (Table.own_insert_other hj).trans hw
  | commit => cases ho
  | rollback => cases ho
  | _ => exact absurd rfl hu

/-- Whatever is executed, if commits spare the owners. -/
theorem Owned.exec (h : s.Owned) (hsound : s.Sound) {o : AuthOp} {input : AuthInput}
    {r : Except AuthFault o.Res} (hpre : o.pre i s) (hok : sparing i o input s)
    (hexec : o.exec host i input s = some (r, t)) : t.Owned := by
  refine AuthOp.exec_keeps hexec (h.tick _) (fun _ hu => hu.rollback) (fun _ hu => hu.drop) ?_
  intro a hp
  have hsound' := hsound.tick input.elapsed
  cases ho : o.ends with
  | false => exact (h.tick _).perform hsound' ho (AuthOp.pre_stable AuthOp.tick_rely hpre) hp
  | true =>
      cases o with
      | commit =>
          obtain rfl := (Prod.mk.inj (Option.some.inj hp)).2
          exact (h.tick _).commit hsound' hok
      | rollback =>
          obtain rfl := (Prod.mk.inj (Option.some.inj hp)).2
          exact (h.tick _).rollback
      | _ => cases ho

theorem Quiet.owned (h : s.Quiet) (howner : ∃ id, s.Owner id) : s.Owned := by
  refine ⟨howner, fun i r hr => ?_, fun i r hr => ?_, fun i id row hown => ?_⟩
  · rw [h.readings i] at hr
    cases hr
  · rw [h.readings i] at hr
    cases hr
  · rw [h.users i id] at hown
    cases hown

end AuthDesk

/-- **In every interleaving whose commits spare the owners, an owner who can sign in
remains.** -/
theorem owner_remains (host : AuthHost) (s : AuthDesk) (hquiet : s.Quiet)
    (howner : ∃ id, s.Owner id) (as : List AuthAct) (w : AuthWorld)
    (hguard : Machine.GuardedRun (authStep host) (Prog.World.Admits sparing) { state := s } as)
    (hrun : Machine.runFrom (authStep host) { state := s } as = some w) :
    ∃ id, w.state.Owner id := by
  have hkept := hquiet.guarded (hquiet.owned howner) hguard hrun
    fun i o x s r t hsound hpre hok hj hexec => hj.exec hsound hpre hok hexec
  exact hkept.owner

/-- Two owners. -/
def twoOwners : AuthDesk :=
  .ofLists [{ email := some "a@shop", role := .owner }, { email := some "b@shop", role := .owner }]
    [] []

def ownerActor (id : UserId) : Actor where
  id := id
  role := .owner
  sessionId := 0

/-- Each makes the other a manager: both count before either commits. -/
def demoteEachOther : List AuthAct :=
  [.start (.staff (ownerActor 0) (.changeRole 1 .manager)),
   .start (.staff (ownerActor 1) (.changeRole 0 .manager)),
   .run 0 {}, .run 0 {}, .run 1 {}, .run 1 {},
   .run 0 {}, .run 0 {}, .run 0 {}, .run 1 {}, .run 1 {}, .run 1 {}]

/-- **Two owners who demote each other leave the shop without one.** -/
theorem owners_demote_each_other : ¬ ∀ (host : AuthHost) (s : AuthDesk) (as : List AuthAct)
    (w : AuthWorld), s.Quiet → (∃ id, s.Owner id) →
      Machine.runFrom (authStep host) { state := s } as = some w → ∃ id, w.state.Owner id := by
  intro hall
  have hruns : (Machine.runFrom (authStep plainHost) { state := twoOwners } demoteEachOther).any
      (fun w => w.state.users.list.all fun r => !r.2.activeOwner) = true := by
    decide +kernel
  obtain ⟨w, hw, hnone⟩ := (Option.any_eq_true _ _).mp hruns
  obtain ⟨id, hid⟩ := hall plainHost twoOwners demoteEachOther w (ofLists_quiet (by simp))
    ⟨0, rfl⟩ hw
  obtain ⟨u, hu, hactive⟩ := (Option.any_eq_true _ _).mp hid
  have hnot := List.all_eq_true.mp hnone (id, u) (Table.mem_list.mpr hu)
  simp [hactive] at hnot

/-- One after the other: the first demotes, and the second cannot demote the last one. -/
def demoteInTurn : List AuthAct :=
  [.start (.staff (ownerActor 0) (.changeRole 1 .manager)),
   .run 0 {}, .run 0 {}, .run 0 {}, .run 0 {}, .run 0 {},
   .start (.staff (ownerActor 1) (.setAccess 0 true)), .run 1 {}, .run 1 {}]

theorem owner_remains_in_turn : ∃ w : AuthWorld,
    Machine.runFrom (authStep plainHost) { state := twoOwners } demoteInTurn = some w ∧
      w.state.users.list.map (·.2.role) = [.owner, .manager] ∧ ∃ id, w.state.Owner id := by
  have hruns : (Machine.runFrom (authStep plainHost) { state := twoOwners } demoteInTurn).any
      (fun w => w.state.users.list.map (·.2.role) = [.owner, .manager]) = true := by
    decide +kernel
  have hguard : Machine.GuardedRun (authStep plainHost) (Prog.World.Admits sparing)
      { state := twoOwners } demoteInTurn := by
    decide +kernel
  obtain ⟨w, hw, hroles⟩ := (Option.any_eq_true _ _).mp hruns
  exact ⟨w, hw, of_decide_eq_true hroles,
    owner_remains plainHost twoOwners (ofLists_quiet (by simp)) ⟨0, rfl⟩ demoteInTurn w hguard hw⟩

end BookHouse
